import CubesatPipeline.EncodeChunk
import CubesatPipeline.Lib.Pieces

/-!
# Rebuilding the events

A receiver that knows only the packets, in whatever order they arrive and however often:
from each packet it reads the metadata that the third task wrote behind the header
(`CubesatPipeline.readPacket`), and puts the data of one occultation together in the order
of the sequence numbers (`CubesatPipeline.reassemble`).

What it reads is what the chunk held (`CubesatPipeline.readPacket_packetOf`), so the
packets that arrive are, up to order and repetition, the chunks of the events
(`CubesatPipeline.mem_cut_iff`), and `CubesatPipeline.packets_rebuild` is then a statement
about the chunks of each event.
-/

namespace CubesatPipeline

open Pieces

/-! ### The receiver -/

/-- What a receiver reads from a packet. -/
@[ext]
structure Reading where
  occultationId : UInt16
  sequenceNumber : UInt8
  totalChunks : UInt8
  dataSize : UInt8
  data : List UInt8

/-- Reading a packet, right after preamble, sync word, size tag and header. -/
def readPacket (w : List UInt8) : Reading where
  occultationId := UInt16.ofNat (256 * (w.getD 12 0).toNat + (w.getD 13 0).toNat)
  sequenceNumber := w.getD 14 0
  totalChunks := w.getD 15 0
  dataSize := w.getD 16 0
  data := (w.drop 17).take (w.getD 16 0).toNat

/-- A packet as a numbered piece of the payload of its occultation. -/
def pieceOf (w : List UInt8) : Piece UInt16 UInt8 where
  owner := (readPacket w).occultationId
  number := (readPacket w).sequenceNumber.toNat
  content := (readPacket w).data

/-- **The payload that a receiver puts together**, from the packets that arrived: the data
of an occultation in the order of the sequence numbers. -/
def reassemble (arrival : List (List UInt8)) (occultationId : UInt16) : List UInt8 :=
  assemble (arrival.map pieceOf) occultationId 256

/-! ### What a packet shows -/

/-- The two bytes of a word, high byte first, are the word. -/
theorem ofNat_highByte_lowByte (c : UInt16) :
    UInt16.ofNat (256 * (highByte c).toNat + (lowByte c).toNat) = c := by
  have hlt := UInt16.toNat_lt c
  have hhigh : (highByte c).toNat = c.toNat / 256 := by
    rw [highByte, UInt16.toNat_toUInt8, UInt16.toNat_shiftRight, Nat.shiftRight_eq_div_pow]
    change c.toNat / 256 % 256 = _
    omega
  have hlow : (lowByte c).toNat = c.toNat % 256 := by
    rw [lowByte, UInt16.toNat_toUInt8, UInt16.toNat_and]
    change (c.toNat &&& (2 ^ 8 - 1)) % 256 = _
    rw [Nat.and_two_pow_sub_one_eq_mod]
    omega
  rw [hhigh, hlow, Nat.div_add_mod, UInt16.ofNat_toNat]

/-- **What a receiver reads is what the chunk held.** -/
theorem readPacket_packetOf {c : PayloadChunk} (h : c.Fits) {w : List UInt8}
    (hw : packetOf c = some w) : readPacket w =
      ⟨c.occultationId, c.sequenceNumber, c.totalChunks, c.dataSize, c.bytes⟩ := by
  obtain ⟨w', cfg, p, parity, hw', hpkt⟩ := exists_packetOf h
  rw [hw] at hw'
  obtain rfl := Option.some.inj hw'
  obtain ⟨rest, hrest⟩ : ∃ rest, w = frameHead cfg ++ (UInt8.ofNat p :: serialBytes c) ++ rest := by
    refine ⟨[highByte (crcOf (UInt8.ofNat p :: serialBytes c)),
      lowByte (crcOf (UInt8.ofNat p :: serialBytes c))] ++ List.replicate p 0 ++ parity, ?_⟩
    rw [hpkt.bytes, dataBlockOf]
    simp only [List.append_assoc]
  rw [hrest, List.append_assoc]
  refine Reading.ext ?_ rfl rfl rfl ?_
  · exact ofNat_highByte_lowByte c.occultationId
  · change (c.bytes ++ rest).take c.dataSize.toNat = c.bytes
    exact List.take_left' h.length_bytes

/-! ### The packets of all events -/

/-- The chunks of all events, one by one. -/
theorem mem_cut_iff {events : List Event} (h : ∀ ev ∈ events, ev.Small) {c : PayloadChunk} :
    c ∈ events.flatMap Event.chunks ↔
      ∃ ev ∈ events, ∃ i < ev.chunkCount, c = ev.chunkAt i := by
  rw [List.mem_flatMap]
  refine exists_congr fun ev => and_congr_right fun hev => ?_
  rw [(h ev hev).chunks_eq, List.mem_map]
  simp only [List.mem_range]
  exact exists_congr fun i => and_congr_right fun _ => eq_comm

/-- **The packet of a chunk**, as it is read. -/
structure Shows (ev : Event) (i : ℕ) (w : List UInt8) : Prop where
  packet : packetOf (ev.chunkAt i) = some w
  occultationId : (readPacket w).occultationId = ev.occultationId
  sequenceNumber : (readPacket w).sequenceNumber.toNat = 1 + i
  totalChunks : (readPacket w).totalChunks.toNat = ev.chunkCount
  data : (readPacket w).data = (ev.payload.drop (32 * i)).take 32

theorem Event.Small.shows {ev : Event} (h : ev.Small) {i : ℕ} (hi : i < ev.chunkCount)
    {w : List UInt8} (hw : packetOf (ev.chunkAt i) = some w) : Shows ev i w := by
  have hle := h.chunkCount_le
  have hread := readPacket_packetOf (ev.fits_chunkAt i) hw
  refine ⟨hw, ?_, ?_, ?_, ?_⟩
  · rw [hread]
    rfl
  · rw [hread]
    exact ev.seq_chunkAt (by omega)
  · have hmod : ev.chunkCount % 256 = ev.chunkCount := Nat.mod_eq_of_lt (by omega)
    rw [hread, ← hmod]
    exact toNat_totalChunks ev
  · rw [hread, ← ev.bytes_chunkAt]

section Arrival

variable {events : List Event} {arrival : List (List UInt8)}

/-- **An arrival of the packets of some events**: every packet at least once, and nothing
else. -/
def Arrives (events : List Event) (arrival : List (List UInt8)) : Prop :=
  ∀ w, w ∈ arrival ↔ ∃ ev ∈ events, ∃ i < ev.chunkCount, Shows ev i w

/-- Two packets that show one occultation and one number are the same. -/
theorem Arrives.unique (h : Arrives events arrival)
    (hids : (events.map (·.occultationId)).Nodup) {w w' : List UInt8} (hw : w ∈ arrival)
    (hw' : w' ∈ arrival) (hid : (readPacket w).occultationId = (readPacket w').occultationId)
    (hseq : (readPacket w).sequenceNumber = (readPacket w').sequenceNumber) : w = w' := by
  obtain ⟨ev, hev, i, -, hshow⟩ := (h w).mp hw
  obtain ⟨ev', hev', i', -, hshow'⟩ := (h w').mp hw'
  rw [hshow.occultationId, hshow'.occultationId] at hid
  obtain rfl := List.inj_on_of_nodup_map hids hev hev' hid
  obtain rfl : i = i' := by
    have hi := hshow.sequenceNumber
    rw [hseq, hshow'.sequenceNumber] at hi
    omega
  have hpacket := hshow.packet
  rw [hshow'.packet] at hpacket
  exact (Option.some.inj hpacket).symm

/-- **The numbers that an occultation shows** are those up to its total. -/
theorem Arrives.numbers (h : Arrives events arrival)
    (hids : (events.map (·.occultationId)).Nodup) (hsmall : ∀ ev ∈ events, ev.Small)
    (hpackets : ∀ ev ∈ events, ∀ i < ev.chunkCount, ∃ w, packetOf (ev.chunkAt i) = some w)
    {w : List UInt8} (hw : w ∈ arrival) (seq : UInt8) :
    (∃ w' ∈ arrival, (readPacket w').occultationId = (readPacket w).occultationId ∧
      (readPacket w').sequenceNumber = seq) ↔ 1 ≤ seq ∧ seq ≤ (readPacket w).totalChunks := by
  obtain ⟨ev, hev, i, hi, hshow⟩ := (h w).mp hw
  rw [UInt8.le_iff_toNat_le, UInt8.le_iff_toNat_le, hshow.totalChunks, hshow.occultationId]
  constructor
  · rintro ⟨w', hw', hid, rfl⟩
    obtain ⟨ev', hev', i', hi', hshow'⟩ := (h w').mp hw'
    rw [hshow'.occultationId] at hid
    obtain rfl := List.inj_on_of_nodup_map hids hev' hev hid
    rw [hshow'.sequenceNumber]
    exact ⟨Nat.le_add_right 1 i', by omega⟩
  · rintro ⟨hone, hle⟩
    have hone' : 1 ≤ seq.toNat := hone
    obtain ⟨w', hw'⟩ := hpackets ev hev (seq.toNat - 1) (by omega)
    have hshow' := (hsmall ev hev).shows (by omega) hw'
    refine ⟨w', (h w').mpr ⟨ev, hev, _, by omega, hshow'⟩, hshow'.occultationId, ?_⟩
    refine UInt8.toNat_inj.mp ?_
    rw [hshow'.sequenceNumber]
    omega

/-- **The payload of an event is put together from its packets.** -/
theorem Arrives.reassemble_eq (h : Arrives events arrival)
    (hids : (events.map (·.occultationId)).Nodup) (hsmall : ∀ ev ∈ events, ev.Small)
    (hpackets : ∀ ev ∈ events, ∀ i < ev.chunkCount, ∃ w, packetOf (ev.chunkAt i) = some w)
    {ev : Event} (hev : ev ∈ events) : reassemble arrival ev.occultationId = ev.payload := by
  have hle := (hsmall ev hev).chunkCount_le
  have hcons : Consistent (arrival.map pieceOf) := by
    intro p hp q hq howner hnumber
    obtain ⟨w, hw, rfl⟩ := List.mem_map.mp hp
    obtain ⟨w', hw', rfl⟩ := List.mem_map.mp hq
    rw [h.unique hids hw hw' howner (UInt8.toNat_inj.mp hnumber)]
  have hpieces : ∀ i < ev.chunkCount, contentAt (arrival.map pieceOf) ev.occultationId (i + 1) =
      (ev.payload.drop (32 * i)).take 32 := by
    intro i hi
    obtain ⟨w, hw⟩ := hpackets ev hev i hi
    have hshow := (hsmall ev hev).shows hi hw
    have hmem : pieceOf w ∈ arrival.map pieceOf :=
      List.mem_map_of_mem ((h w).mpr ⟨ev, hev, i, hi, hshow⟩)
    rw [← hshow.data, ← hshow.occultationId, Nat.add_comm, ← hshow.sequenceNumber]
    exact contentAt_eq hcons hmem
  rw [reassemble, assemble_eq (n := ev.chunkCount) (by omega) hpieces]
  · have hwhole := ev.flatMap_bytes ev.chunkCount
    have hfull : ev.payload.length ≤ 32 * ev.chunkCount := by
      rw [ev.length_payload, Event.chunkCount]
      omega
    rw [List.flatMap_map, List.take_of_length_le hfull] at hwhole
    refine Eq.trans (List.flatMap_congr fun i _ => ?_) hwhole
    exact (ev.bytes_chunkAt i).symm
  · intro p hp howner
    obtain ⟨w, hw, rfl⟩ := List.mem_map.mp hp
    obtain ⟨ev', hev', i', hi', hshow'⟩ := (h w).mp hw
    have hid : ev'.occultationId = ev.occultationId := hshow'.occultationId.symm.trans howner
    obtain rfl := List.inj_on_of_nodup_map hids hev' hev hid
    have hnumber : (pieceOf w).number = 1 + i' := hshow'.sequenceNumber
    rw [hnumber]
    omega

end Arrival

/-- **The packets are enough to rebuild every event.** For events with different ids and
`1` to `256` bytes each: every packet is built, and from the packets in any order, each of
them once or more often,

* the occultations shown are those of the events;
* each shows exactly the sequence numbers from `1` to its total;
* packets with one id and one sequence number are identical;
* the data of an occultation, in the order of the sequence numbers, are its payload. -/
theorem packets_rebuild {events : List Event} (hids : (events.map (·.occultationId)).Nodup)
    (hsize : ∀ ev ∈ events, 1 ≤ ev.dataSize.toNat ∧ ev.dataSize.toNat ≤ 256) :
    ∃ (chunks : List PayloadChunk) (t : GfTables) (packets : List (List UInt8)),
      cutEvents events = some chunks ∧
      encodeAll .start chunks = some (t, packets.map some) ∧
      ∀ arrival : List (List UInt8), (∀ w, w ∈ arrival ↔ w ∈ packets) →
        (∀ id, (∃ w ∈ arrival, (readPacket w).occultationId = id) ↔
          ∃ ev ∈ events, ev.occultationId = id) ∧
        (∀ w ∈ arrival, ∀ seq,
          (∃ w' ∈ arrival, (readPacket w').occultationId = (readPacket w).occultationId ∧
            (readPacket w').sequenceNumber = seq) ↔
          1 ≤ seq ∧ seq ≤ (readPacket w).totalChunks) ∧
        (∀ w ∈ arrival, ∀ w' ∈ arrival,
          (readPacket w).occultationId = (readPacket w').occultationId →
          (readPacket w).sequenceNumber = (readPacket w').sequenceNumber → w = w') ∧
        ∀ ev ∈ events, reassemble arrival ev.occultationId = ev.payload := by
  have hsmall : ∀ ev ∈ events, ev.Small := fun ev hev => (hsize ev hev).2
  obtain ⟨t, packets, hall, hpackets⟩ :=
    encodeAll_eq (t := .start) (Or.inr rfl) fun c hc => fits_of_mem_cut hc
  have hexists : ∀ ev ∈ events, ∀ i < ev.chunkCount, ∃ w, packetOf (ev.chunkAt i) = some w := by
    intro ev _ i _
    obtain ⟨w, -, -, -, hw, -⟩ := exists_packetOf (ev.fits_chunkAt i)
    exact ⟨w, hw⟩
  have hmem : ∀ w, w ∈ packets ↔ ∃ ev ∈ events, ∃ i < ev.chunkCount, Shows ev i w := by
    intro w
    rw [← List.mem_map_of_injective (Option.some_injective _), ← hpackets, List.mem_map]
    constructor
    · rintro ⟨c, hc, hw⟩
      obtain ⟨ev, hev, i, hi, rfl⟩ := (mem_cut_iff hsmall).mp hc
      exact ⟨ev, hev, i, hi, (hsmall ev hev).shows hi hw⟩
    · rintro ⟨ev, hev, i, hi, hshow⟩
      exact ⟨_, (mem_cut_iff hsmall).mpr ⟨ev, hev, i, hi, rfl⟩, hshow.packet⟩
  refine ⟨_, t, packets, cutEvents_eq hsmall, hall, fun arrival harrival => ?_⟩
  have harr : Arrives events arrival := fun w => (harrival w).trans (hmem w)
  refine ⟨fun id => ?_, fun w hw seq => harr.numbers hids hsmall hexists hw seq,
    fun w hw w' hw' hid hseq => harr.unique hids hw hw' hid hseq,
    fun ev hev => harr.reassemble_eq hids hsmall hexists hev⟩
  constructor
  · rintro ⟨w, hw, rfl⟩
    obtain ⟨ev, hev, i, -, hshow⟩ := (harr w).mp hw
    exact ⟨ev, hev, hshow.occultationId.symm⟩
  · rintro ⟨ev, hev, rfl⟩
    have hpos : 0 < ev.chunkCount := by
      have := (hsize ev hev).1
      rw [Event.chunkCount]
      omega
    obtain ⟨w, hw⟩ := hexists ev hev 0 hpos
    have hshow := (hsmall ev hev).shows hpos hw
    exact ⟨w, (harr w).mpr ⟨ev, hev, 0, hpos, hshow⟩, hshow.occultationId⟩

/-- The three events of the program, with their packets in reverse order. -/
theorem packets_rebuild_fakeEvents :
    ∃ (chunks : List PayloadChunk) (t : GfTables) (packets : List (List UInt8)),
    cutEvents fakeEvents = some chunks ∧ encodeAll .start chunks = some (t, packets.map some) ∧
    ∀ ev ∈ fakeEvents, reassemble packets.reverse ev.occultationId = ev.payload := by
  have hids : (fakeEvents.map (·.occultationId)).Nodup := by decide
  obtain ⟨chunks, t, packets, hcut, henc, harrival⟩ := packets_rebuild hids (by decide)
  exact ⟨chunks, t, packets, hcut, henc,
    (harrival packets.reverse fun w => List.mem_reverse).2.2.2⟩

end CubesatPipeline
