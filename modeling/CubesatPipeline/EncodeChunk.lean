import CubesatPipeline.FrameFormat
import CubesatPipeline.Fragment

/-!
# Encoding a chunk

What `vTask3_NGHamEncoder` does with a chunk it has received: the metadata and the valid
bytes of the data are serialized into `ngham_payload`, the packet is built into
`ngham_packet`, and its bytes are printed. A chunk that fits its data always has a packet
(`CubesatPipeline.encodeChunk_spec`), so the branch for a payload that is too large is
never taken, and the packet does not depend on the state of the tables
(`CubesatPipeline.packetOf`).
-/

namespace CubesatPipeline

open CheckedBuffer

/-! ### The code -/

/-- The serialization into `ngham_payload`, and the cursor `p` behind it. -/
def serialize (c : PayloadChunk) : Option (Buffer UInt8 × ℕ) := do
  let s ← storeAll (fresh 64) 0 [highByte c.occultationId, lowByte c.occultationId,
    c.sequenceNumber, c.totalChunks, c.dataSize]
  let nghamPayload ← memcpy s.1 s.2 (written c.data) 0 c.dataSize.toNat
  return (nghamPayload, s.2 + c.dataSize.toNat)

/-- The handling of one chunk: the tables, and the bytes printed, if the payload was not
too large to encode. -/
def encodeChunk (t : GfTables) (c : PayloadChunk) :
    Option (GfTables × Option (List UInt8)) := do
  let s ← serialize c
  let res ← nghamBuildPacket t s.1 (UInt8.ofNat s.2) (fresh 300)
  if res.1 < 0 then
    return (res.2.1, none)
  else
    return (res.2.1, some (← loadAll res.2.2 res.1.toNat))

/-- The handling of one chunk after the other. -/
def encodeAll : GfTables → List PayloadChunk → Option (GfTables × List (Option (List UInt8)))
  | t, [] => some (t, [])
  | t, c :: chunks => do
    let first ← encodeChunk t c
    let rest ← encodeAll first.1 chunks
    return (rest.1, first.2 :: rest.2)

/-! ### The packet of a chunk -/

/-- What a chunk is serialized to. -/
def serialBytes (c : PayloadChunk) : List UInt8 :=
  [highByte c.occultationId, lowByte c.occultationId, c.sequenceNumber, c.totalChunks,
    c.dataSize] ++ c.bytes

/-- A chunk whose valid bytes are within its data. -/
def PayloadChunk.Fits (c : PayloadChunk) : Prop := c.dataSize.toNat ≤ chunkDataSize

theorem Event.fits_chunkAt (ev : Event) (i : ℕ) : (ev.chunkAt i).Fits := by
  rw [PayloadChunk.Fits, ev.size_chunkAt]
  exact Nat.min_le_right _ _

/-- Every chunk that is cut from an event fits. -/
theorem fits_of_mem_cut {events : List Event} {c : PayloadChunk}
    (hc : c ∈ events.flatMap Event.chunks) : c.Fits := by
  obtain ⟨ev, -, hmem⟩ := List.mem_flatMap.mp hc
  obtain ⟨i, -, rfl⟩ := List.mem_map.mp hmem
  exact ev.fits_chunkAt i

theorem PayloadChunk.Fits.length_bytes {c : PayloadChunk} (h : c.Fits) :
    c.bytes.length = c.dataSize.toNat := by
  rw [PayloadChunk.bytes, List.length_take, c.length_data]
  exact Nat.min_eq_left h

theorem PayloadChunk.Fits.length_serialBytes {c : PayloadChunk} (h : c.Fits) :
    (serialBytes c).length = 5 + c.dataSize.toNat := by
  rw [serialBytes, List.length_append, h.length_bytes]
  rfl

theorem serialize_spec {c : PayloadChunk} (h : c.Fits) : serialize c =
    some (written (serialBytes c) ++ fresh (59 - c.dataSize.toNat), 5 + c.dataSize.toNat) := by
  have hle : c.dataSize.toNat ≤ 32 := h
  obtain ⟨head, hhead⟩ : ∃ head, head = [highByte c.occultationId, lowByte c.occultationId,
    c.sequenceNumber, c.totalChunks, c.dataSize] := ⟨_, rfl⟩
  have hlen : head.length = 5 := by rw [hhead]; rfl
  have hstore := storeAll_cursor (fresh 64) head [] (by rw [hlen, length_fresh]; decide)
  rw [written_nil, List.nil_append, List.nil_append, List.length_nil, hlen, drop_fresh] at hstore
  have hcopy := memcpy_cursor head c.bytes (fresh 59) (written (c.data.drop c.dataSize.toNat))
    (by rw [h.length_bytes, length_fresh]; omega)
  rw [← written_append, PayloadChunk.bytes, List.take_append_drop, ← PayloadChunk.bytes,
    h.length_bytes, hlen, drop_fresh] at hcopy
  rw [serialize, ← hhead, hstore]
  simp only [Option.bind_eq_bind, Option.bind_some]
  rw [hcopy, Option.bind_some, Option.pure_def, serialBytes, ← hhead]

/-- **Every chunk that fits is encoded**, to the packet of what it is serialized to,
whatever the tables held. -/
theorem encodeChunk_spec {t : GfTables} (ht : t.Usable) {c : PayloadChunk} (h : c.Fits) :
    ∃ t' w cfg p parity, IsPacket (serialBytes c) w cfg p parity ∧ t'.Usable ∧
      encodeChunk t c = some (t', some w) := by
  have hle : c.dataSize.toNat ≤ 32 := h
  have hlen := h.length_serialBytes
  have hsmall : (serialBytes c).length ≤ 220 := by omega
  obtain ⟨t', w, cfg, p, parity, hw, hready, hcall⟩ :=
    nghamBuildPacket_spec ht hsmall (fresh (59 - c.dataSize.toNat)) (fresh 300) (by simp)
  refine ⟨t', w, cfg, p, parity, hw, Or.inl hready, ?_⟩
  rw [hlen] at hcall
  rw [encodeChunk, serialize_spec h]
  simp only [Option.bind_eq_bind, Option.bind_some, hcall]
  rw [if_neg (by omega), Int.toNat_natCast, loadAll_written_append]
  rfl

/-- **The packet of a chunk**: the one the third task builds at program start. -/
def packetOf (c : PayloadChunk) : Option (List UInt8) := (encodeChunk .start c).bind Prod.snd

theorem exists_packetOf {c : PayloadChunk} (h : c.Fits) :
    ∃ w cfg p parity, packetOf c = some w ∧ IsPacket (serialBytes c) w cfg p parity := by
  obtain ⟨t', w, cfg, p, parity, hw, -, henc⟩ := encodeChunk_spec (Or.inr rfl) h
  exact ⟨w, cfg, p, parity, by rw [packetOf, henc, Option.bind_some], hw⟩

/-- **The packet does not depend on the tables.** -/
theorem encodeChunk_eq {t : GfTables} (ht : t.Usable) {c : PayloadChunk} (h : c.Fits) :
    ∃ t' w, encodeChunk t c = some (t', some w) ∧ packetOf c = some w ∧ t'.Usable := by
  obtain ⟨t', w, cfg, p, parity, hw, ht', henc⟩ := encodeChunk_spec ht h
  obtain ⟨w', cfg', p', parity', hpacket, hw'⟩ := exists_packetOf h
  obtain ⟨-, -, -, rfl⟩ := hw.eq hw'
  exact ⟨t', w, henc, hpacket, ht'⟩

/-- **The packets of a list of chunks**, one for each. -/
theorem encodeAll_eq {t : GfTables} (ht : t.Usable) {chunks : List PayloadChunk}
    (h : ∀ c ∈ chunks, c.Fits) : ∃ (t' : GfTables) (packets : List (List UInt8)),
      encodeAll t chunks = some (t', packets.map some) ∧
        chunks.map packetOf = packets.map some := by
  induction chunks generalizing t with
  | nil => exact ⟨t, [], rfl, rfl⟩
  | cons c chunks ih =>
    obtain ⟨hc, hchunks⟩ := List.forall_mem_cons.mp h
    obtain ⟨t₁, w, henc, hpacket, ht₁⟩ := encodeChunk_eq ht hc
    obtain ⟨t', packets, hrest, hpackets⟩ := ih ht₁ hchunks
    refine ⟨t', w :: packets, ?_, ?_⟩
    · rw [encodeAll, henc, Option.bind_eq_bind, Option.bind_some, hrest]
      rfl
    · rw [List.map_cons, List.map_cons, hpacket, hpackets]

end CubesatPipeline
