import CubesatPipeline.Lib.EmitLoop
import Mathlib

/-!
# Cutting an event into chunks

The loop of `vTask1_PayloadReader` over the chunks of one event, taken by itself: every
`xQueueSend` succeeds, and the payload is a string of the event's length in place of
`fake_payload`. The locals of the loop are `CubesatPipeline.ChunkLoop`, which carries the
invariant of its two counters – what has been sent and what remains make up the payload –
so that a state that reads outside the payload cannot be built.

The counter `seq` and the bound `total_chunks` are of type `uint8_t`, and the size of an
event of type `uint16_t`. The states of the loop are known in closed form as long as the
counter does not wrap (`CubesatPipeline.Event.loopAt`), and the two defects of the
narrowing follow:

* a bound of `255` is never exceeded by the counter, so the loop does not end
  (`CubesatPipeline.chunkLoop_ends_iff`);
* a bound that lost its high bits ends the loop before the payload is sent
  (`CubesatPipeline.chunkLoop_fragments_iff`).

Neither happens below `8129` bytes.
-/

namespace CubesatPipeline

open EmitLoop

/-! ### The code -/

/-- `CHUNK_DATA_SIZE`. -/
def chunkDataSize : ℕ := 32

/-- `PayloadChunk_t`. -/
structure PayloadChunk where
  occultationId : UInt16
  sequenceNumber : UInt8
  totalChunks : UInt8
  dataSize : UInt8
  data : List UInt8
  length_data : data.length = chunkDataSize
  deriving DecidableEq

/-- An event: a row of `fake_events`, and the bytes that its payload is read from. -/
structure Event where
  occultationId : UInt16
  dataSize : UInt16
  payload : List UInt8
  length_payload : payload.length = dataSize.toNat

/-- `fake_payload` of the event with the index `e`. -/
def fakePayload (e : ℕ) (dataLen : UInt16) : List UInt8 :=
  (List.range dataLen.toNat).map fun i => UInt8.ofNat (0x10 + e * 0x30 + i)

/-- `fake_events`. -/
def fakeEvents : List Event :=
  [((1000 : UInt16), (100 : UInt16)), (1001, 45), (1002, 70)].zipIdx.map fun row =>
    ⟨row.1.1, row.1.2, fakePayload row.2 row.1.2, by simp [fakePayload]⟩

/-- `total_chunks`: the division rounds up, and the result is stored in a `uint8_t`. -/
def totalChunks (dataLen : UInt16) : UInt8 :=
  UInt8.ofNat ((dataLen.toNat + chunkDataSize - 1) / chunkDataSize)

example : fakeEvents.map (totalChunks ·.dataSize) = [4, 2, 3] := by decide

/-- **The locals of the loop over `seq`.** -/
@[ext]
structure ChunkLoop (payload : List UInt8) where
  seq : UInt8
  bytesRemaining : ℕ
  offset : ℕ
  covers : offset + bytesRemaining = payload.length

/-- `this_chunk_size`. -/
def thisChunkSize (bytesRemaining : ℕ) : UInt8 :=
  if bytesRemaining < chunkDataSize then UInt8.ofNat bytesRemaining else UInt8.ofNat chunkDataSize

theorem toNat_thisChunkSize (bytesRemaining : ℕ) :
    (thisChunkSize bytesRemaining).toNat = min bytesRemaining chunkDataSize := by
  rw [thisChunkSize, chunkDataSize]
  split_ifs with h
  · rw [UInt8.toNat_ofNat']
    omega
  · rw [Nat.min_eq_right (by omega)]
    rfl

/-- The locals before the first turn. -/
def Event.enter (ev : Event) : ChunkLoop ev.payload where
  seq := 1
  bytesRemaining := ev.dataSize.toNat
  offset := 0
  covers := by rw [ev.length_payload, Nat.zero_add]

/-- The chunk that a turn fills in, over zeroed memory. -/
def Event.chunk (ev : Event) (s : ChunkLoop ev.payload) : PayloadChunk where
  occultationId := ev.occultationId
  sequenceNumber := s.seq
  totalChunks := totalChunks ev.dataSize
  dataSize := thisChunkSize s.bytesRemaining
  data := (ev.payload.drop s.offset).take (thisChunkSize s.bytesRemaining).toNat ++
    List.replicate (chunkDataSize - (thisChunkSize s.bytesRemaining).toNat) 0
  length_data := by
    have hcovers := s.covers
    rw [List.length_append, List.length_take, List.length_drop, List.length_replicate,
      toNat_thisChunkSize]
    omega

/-- The locals after a turn. -/
def ChunkLoop.next {payload : List UInt8} (s : ChunkLoop payload) : ChunkLoop payload where
  seq := s.seq + 1
  bytesRemaining := s.bytesRemaining - (thisChunkSize s.bytesRemaining).toNat
  offset := s.offset + (thisChunkSize s.bytesRemaining).toNat
  covers := by
    have hcovers := s.covers
    rw [toNat_thisChunkSize]
    omega

/-- **One turn of the loop over `seq`**: the chunk it sends, and the locals after it. -/
def Event.turn (ev : Event) (s : ChunkLoop ev.payload) :
    Option (PayloadChunk × ChunkLoop ev.payload) :=
  if s.seq ≤ totalChunks ev.dataSize then some (ev.chunk s, s.next) else none

/-! ### The states of the loop -/

/-- The number of chunks that the payload of an event fills. -/
def Event.chunkCount (ev : Event) : ℕ := (ev.dataSize.toNat + 31) / 32

theorem toNat_totalChunks (ev : Event) :
    (totalChunks ev.dataSize).toNat = ev.chunkCount % 256 := by
  rw [totalChunks, UInt8.toNat_ofNat']
  rfl

/-- The locals after `i` turns. -/
def Event.loopAt (ev : Event) (i : ℕ) : ChunkLoop ev.payload where
  seq := UInt8.ofNat (1 + i)
  bytesRemaining := ev.dataSize.toNat - 32 * i
  offset := min (32 * i) ev.dataSize.toNat
  covers := by
    rw [ev.length_payload]
    omega

/-- The chunk of the turn `i`. -/
def Event.chunkAt (ev : Event) (i : ℕ) : PayloadChunk := ev.chunk (ev.loopAt i)

theorem Event.loopAt_zero (ev : Event) : ev.loopAt 0 = ev.enter :=
  ChunkLoop.ext rfl rfl (Nat.zero_min _)

theorem Event.next_loopAt (ev : Event) (i : ℕ) : (ev.loopAt i).next = ev.loopAt (i + 1) := by
  have hsize : (thisChunkSize (ev.loopAt i).bytesRemaining).toNat =
      min (ev.dataSize.toNat - 32 * i) 32 := toNat_thisChunkSize _
  refine ChunkLoop.ext ?_ ?_ ?_
  · exact (UInt8.ofNat_add (1 + i) 1).symm
  · change ev.dataSize.toNat - 32 * i - _ = ev.dataSize.toNat - 32 * (i + 1)
    omega
  · change min (32 * i) ev.dataSize.toNat + _ = min (32 * (i + 1)) ev.dataSize.toNat
    omega

/-- **A turn, while the counter is within the bound.** -/
theorem Event.turn_loopAt (ev : Event) {i : ℕ} (hi : i < ev.chunkCount % 256) :
    ev.turn (ev.loopAt i) = some (ev.chunkAt i, ev.loopAt (i + 1)) := by
  have hseq : (ev.loopAt i).seq.toNat = 1 + i := by
    rw [Event.loopAt, UInt8.toNat_ofNat']
    omega
  rw [Event.turn, if_pos, ev.next_loopAt]
  · rfl
  · rw [UInt8.le_iff_toNat_le, hseq, toNat_totalChunks]
    omega

/-- **The exit**, if the bound is not the largest value of the counter. -/
theorem Event.turn_exit (ev : Event) (h : ev.chunkCount % 256 ≠ 255) :
    ev.turn (ev.loopAt (ev.chunkCount % 256)) = none := by
  have hseq : (ev.loopAt (ev.chunkCount % 256)).seq.toNat = 1 + ev.chunkCount % 256 := by
    rw [Event.loopAt, UInt8.toNat_ofNat']
    omega
  rw [Event.turn, if_neg]
  rw [UInt8.le_iff_toNat_le, hseq, toNat_totalChunks]
  omega

/-- The chunks of an event, when its loop ends. -/
def Event.chunks (ev : Event) : List PayloadChunk :=
  (List.range (ev.chunkCount % 256)).map ev.chunkAt

/-- **The loop ends** unless its bound is `255`. -/
theorem Event.run_chunks (ev : Event) (h : ev.chunkCount % 256 ≠ 255) :
    run ev.turn (ev.chunkCount % 256 + 1) ev.enter = some ev.chunks := by
  rw [← ev.loopAt_zero]
  exact run_trajectory (fun i hi => ev.turn_loopAt hi) (ev.turn_exit h)

/-- **A bound of `255` is never exceeded.** -/
theorem Event.run_eq_none (ev : Event) (h : ev.chunkCount % 256 = 255) (fuel : ℕ) :
    run ev.turn fuel ev.enter = none := by
  refine EmitLoop.run_eq_none (I := fun _ => True) (fun s _ => ?_) fuel trivial
  have hle : s.seq ≤ totalChunks ev.dataSize := by
    rw [UInt8.le_iff_toNat_le, toNat_totalChunks, h]
    have := UInt8.toNat_lt s.seq
    omega
  exact ⟨ev.chunk s, s.next, by rw [Event.turn, if_pos hle], trivial⟩

/-- What the loop sends when it ends. -/
theorem Event.eq_chunks (ev : Event) {fuel : ℕ} {l : List PayloadChunk}
    (h : run ev.turn fuel ev.enter = some l) : ev.chunkCount % 256 ≠ 255 ∧ l = ev.chunks := by
  have hne : ev.chunkCount % 256 ≠ 255 := by
    intro heq
    rw [ev.run_eq_none heq] at h
    cases h
  exact ⟨hne, run_unique h (ev.run_chunks hne)⟩

/-! ### Every chunk has its own number -/

theorem Event.seq_chunkAt (ev : Event) {i : ℕ} (hi : i < 255) :
    (ev.chunkAt i).sequenceNumber.toNat = 1 + i := by
  change (UInt8.ofNat (1 + i)).toNat = 1 + i
  rw [UInt8.toNat_ofNat']
  omega

theorem Event.nodup_seq_chunks (ev : Event) : (ev.chunks.map (·.sequenceNumber)).Nodup := by
  rw [Event.chunks, List.map_map]
  refine List.nodup_range.map_on fun i hi j hj hij => ?_
  have hlt : ev.chunkCount % 256 < 256 := Nat.mod_lt _ (by decide)
  have hi' := ev.seq_chunkAt (i := i) (by rw [List.mem_range] at hi; omega)
  have hj' := ev.seq_chunkAt (i := j) (by rw [List.mem_range] at hj; omega)
  have hseq : (ev.chunkAt i).sequenceNumber = (ev.chunkAt j).sequenceNumber := hij
  rw [hseq] at hi'
  omega

/-- **When the loop ends.** The loop over the chunks of an event reaches its exit, with no
sequence number sent twice, exactly when the size of the event is not, modulo `8192`, one
of the `32` sizes for which the bound is `255`. -/
theorem chunkLoop_ends_iff (ev : Event) :
    ((∃ fuel chunks, run ev.turn fuel ev.enter = some chunks) ∧
        ∀ n, ((emitted ev.turn n ev.enter).map (·.sequenceNumber)).Nodup) ↔
      ev.dataSize.toNat % 8192 < 8129 ∨ 8160 < ev.dataSize.toNat % 8192 := by
  have hbound : ev.dataSize.toNat % 8192 < 8129 ∨ 8160 < ev.dataSize.toNat % 8192 ↔
      ev.chunkCount % 256 ≠ 255 := by
    rw [Event.chunkCount]
    omega
  rw [hbound]
  constructor
  · rintro ⟨⟨fuel, chunks, hrun⟩, -⟩
    exact (ev.eq_chunks hrun).1
  · intro hne
    refine ⟨⟨_, _, ev.run_chunks hne⟩, fun n => ?_⟩
    rw [emitted_of_run n (ev.run_chunks hne), List.map_take]
    exact ev.nodup_seq_chunks.sublist (List.take_sublist n _)

/-- An event of `8160` bytes, whose `255` chunks are counted by a bound that the counter
cannot exceed. -/
theorem chunkLoop_of_8160 : ∃ ev : Event, ev.dataSize = 8160 ∧
    ¬((∃ fuel chunks, run ev.turn fuel ev.enter = some chunks) ∧
      ∀ n, ((emitted ev.turn n ev.enter).map (·.sequenceNumber)).Nodup) := by
  refine ⟨⟨1000, 8160, List.replicate 8160 0, List.length_replicate⟩, rfl, ?_⟩
  rintro ⟨⟨fuel, chunks, hrun⟩, -⟩
  exact (Event.eq_chunks _ hrun).1 rfl

/-! ### What the chunks carry -/

/-- The valid bytes of a chunk. -/
def PayloadChunk.bytes (c : PayloadChunk) : List UInt8 := c.data.take c.dataSize.toNat

/-- **The chunks are a complete cut of the payload.** -/
structure Fragments (ev : Event) (chunks : List PayloadChunk) : Prop where
  /-- The sizes add up. -/
  sum : (chunks.map fun c => c.dataSize.toNat).sum = ev.dataSize.toNat
  /-- The slices make up the payload. -/
  join : chunks.flatMap PayloadChunk.bytes = ev.payload
  /-- All chunks but the last are full. -/
  full : ∀ c ∈ chunks.dropLast, c.dataSize.toNat = chunkDataSize
  /-- The last has at least one byte, and no more than fit. -/
  last : ∀ c ∈ chunks.getLast?, 1 ≤ c.dataSize.toNat ∧ c.dataSize.toNat ≤ chunkDataSize
  /-- The rest of the data is zero. -/
  tail : ∀ c ∈ chunks, c.data.drop c.dataSize.toNat =
    List.replicate (chunkDataSize - c.dataSize.toNat) 0
  /-- The count is the number of chunks. -/
  total : ∀ c ∈ chunks, c.totalChunks.toNat = chunks.length

theorem Event.size_chunkAt (ev : Event) (i : ℕ) :
    (ev.chunkAt i).dataSize.toNat = min (ev.dataSize.toNat - 32 * i) 32 := toNat_thisChunkSize _

/-- The data of a chunk: a slice of the payload, and zeros. -/
theorem Event.data_chunkAt (ev : Event) (i : ℕ) : (ev.chunkAt i).data =
    (ev.payload.drop (32 * i)).take 32 ++
      List.replicate (chunkDataSize - (ev.chunkAt i).dataSize.toNat) 0 := by
  have hlen := ev.length_payload
  have hslice : (ev.payload.drop (min (32 * i) ev.dataSize.toNat)).take
      (min (ev.dataSize.toNat - 32 * i) 32) = (ev.payload.drop (32 * i)).take 32 := by
    rw [← hlen, ← List.drop_eq_drop_min, List.take_eq_take_iff, List.length_drop]
    omega
  rw [← hslice, ← ev.size_chunkAt i]
  rfl

theorem Event.length_slice (ev : Event) (i : ℕ) :
    ((ev.payload.drop (32 * i)).take 32).length = (ev.chunkAt i).dataSize.toNat := by
  rw [List.length_take, List.length_drop, ev.length_payload, ev.size_chunkAt]
  omega

theorem Event.bytes_chunkAt (ev : Event) (i : ℕ) :
    (ev.chunkAt i).bytes = (ev.payload.drop (32 * i)).take 32 := by
  rw [PayloadChunk.bytes, ev.data_chunkAt]
  exact List.take_left' (ev.length_slice i)

theorem Event.tail_chunkAt (ev : Event) (i : ℕ) :
    (ev.chunkAt i).data.drop (ev.chunkAt i).dataSize.toNat =
      List.replicate (chunkDataSize - (ev.chunkAt i).dataSize.toNat) 0 := by
  rw [ev.data_chunkAt]
  exact List.drop_left' (ev.length_slice i)

/-- **The first chunks carry the beginning of the payload.** -/
theorem Event.flatMap_bytes (ev : Event) (m : ℕ) :
    ((List.range m).map ev.chunkAt).flatMap PayloadChunk.bytes = ev.payload.take (32 * m) := by
  induction m with
  | zero => rfl
  | succ m ih =>
    rw [List.range_succ, List.map_append, List.flatMap_append, ih, List.map_singleton,
      List.flatMap_singleton, ev.bytes_chunkAt, Nat.mul_succ, List.take_add]

theorem Event.sum_sizes (ev : Event) (m : ℕ) :
    (((List.range m).map ev.chunkAt).map fun c => c.dataSize.toNat).sum =
      min (32 * m) ev.dataSize.toNat := by
  induction m with
  | zero => exact (Nat.zero_min _).symm
  | succ m ih =>
    rw [List.range_succ, List.map_append, List.map_append, List.sum_append, ih, List.map_singleton,
      List.map_singleton, List.sum_singleton, ev.size_chunkAt]
    omega

/-- **The chunks are complete exactly when their number is a `uint8_t`.** -/
theorem Event.fragments_chunks_iff (ev : Event) : Fragments ev ev.chunks ↔ ev.chunkCount < 256 := by
  constructor
  · intro h
    have hsum := h.sum
    rw [Event.chunks, ev.sum_sizes, Event.chunkCount] at hsum
    rw [Event.chunkCount]
    omega
  · intro hlt
    have hmod : ev.chunkCount % 256 = ev.chunkCount := Nat.mod_eq_of_lt hlt
    obtain ⟨n, hn⟩ : ∃ n, n = ev.chunkCount := ⟨_, rfl⟩
    have hcount : n = (ev.dataSize.toNat + 31) / 32 := hn
    have hchunks : ev.chunks = (List.range n).map ev.chunkAt := by rw [Event.chunks, hmod, hn]
    rw [hchunks]
    refine ⟨?_, ?_, fun c hc => ?_, fun c hc => ?_, fun c hc => ?_, fun c hc => ?_⟩
    · rw [ev.sum_sizes]
      omega
    · rw [ev.flatMap_bytes, List.take_of_length_le]
      rw [ev.length_payload]
      omega
    · cases n with
      | zero => cases hc
      | succ n =>
        rw [List.range_succ, List.map_append, List.map_singleton, List.dropLast_concat] at hc
        obtain ⟨i, hi, rfl⟩ := List.mem_map.mp hc
        rw [List.mem_range] at hi
        rw [ev.size_chunkAt, chunkDataSize]
        omega
    · cases n with
      | zero => cases hc
      | succ n =>
        rw [List.range_succ, List.map_append, List.map_singleton, List.getLast?_concat,
          Option.mem_some_iff] at hc
        subst hc
        rw [ev.size_chunkAt, chunkDataSize]
        omega
    · obtain ⟨i, -, rfl⟩ := List.mem_map.mp hc
      exact ev.tail_chunkAt i
    · obtain ⟨i, -, rfl⟩ := List.mem_map.mp hc
      rw [List.length_map, List.length_range, hn, ← hmod]
      exact toNat_totalChunks ev

/-- **When no byte is dropped.** What the loop has sent when it ends is a complete cut of
the payload exactly for the events of at most `8160` bytes, and for those for which it
does not end. -/
theorem chunkLoop_fragments_iff (ev : Event) :
    (∀ fuel chunks, run ev.turn fuel ev.enter = some chunks → Fragments ev chunks) ↔
      ev.dataSize.toNat ≤ 8160 ∨
        8129 ≤ ev.dataSize.toNat % 8192 ∧ ev.dataSize.toNat % 8192 ≤ 8160 := by
  have hbound : ev.dataSize.toNat ≤ 8160 ∨
      8129 ≤ ev.dataSize.toNat % 8192 ∧ ev.dataSize.toNat % 8192 ≤ 8160 ↔
      ev.chunkCount < 256 ∨ ev.chunkCount % 256 = 255 := by
    rw [Event.chunkCount]
    omega
  rw [hbound]
  constructor
  · intro h
    rcases eq_or_ne (ev.chunkCount % 256) 255 with heq | hne
    · exact Or.inr heq
    · exact Or.inl (ev.fragments_chunks_iff.mp (h _ _ (ev.run_chunks hne)))
  · intro h fuel chunks hrun
    obtain ⟨hne, rfl⟩ := ev.eq_chunks hrun
    exact ev.fragments_chunks_iff.mpr (h.resolve_right hne)

/-- An event of `8161` bytes, whose `256` chunks are counted as none. -/
theorem chunkLoop_of_8161 : ∃ ev : Event, ev.dataSize = 8161 ∧
    ¬∀ fuel chunks, run ev.turn fuel ev.enter = some chunks → Fragments ev chunks := by
  refine ⟨⟨1000, 8161, List.replicate 8161 0, List.length_replicate⟩, rfl, fun h => ?_⟩
  have hfrag := h _ _ (Event.run_chunks _ (by decide))
  rw [Event.fragments_chunks_iff] at hfrag
  exact absurd hfrag (by decide)

/-! ### The chunks of all events -/

/-- Enough fuel for any event: a turn for each value of the counter. -/
def chunkFuel : ℕ := 256

/-- **The chunks that the first task cuts from a list of events**, in the order it sends
them. -/
def cutEvents : List Event → Option (List PayloadChunk)
  | [] => some []
  | ev :: events => do return (← run ev.turn chunkFuel ev.enter) ++ (← cutEvents events)

/-- An event that fits `fake_payload`. -/
def Event.Small (ev : Event) : Prop := ev.dataSize.toNat ≤ 256

instance (ev : Event) : Decidable ev.Small := inferInstanceAs (Decidable (_ ≤ _))

theorem Event.Small.chunkCount_le {ev : Event} (h : ev.Small) : ev.chunkCount ≤ 8 := by
  rw [Event.Small] at h
  rw [Event.chunkCount]
  omega

theorem Event.Small.chunks_eq {ev : Event} (h : ev.Small) :
    ev.chunks = (List.range ev.chunkCount).map ev.chunkAt := by
  have hle := h.chunkCount_le
  rw [Event.chunks, Nat.mod_eq_of_lt (by omega)]

/-- **Small events are cut completely.** -/
theorem cutEvents_eq {events : List Event} (h : ∀ ev ∈ events, ev.Small) :
    cutEvents events = some (events.flatMap Event.chunks) := by
  induction events with
  | nil => rfl
  | cons ev events ih =>
    obtain ⟨hev, hevents⟩ := List.forall_mem_cons.mp h
    have hle := hev.chunkCount_le
    have hfuel : ev.chunkCount % 256 + 1 ≤ chunkFuel := by
      rw [chunkFuel]
      omega
    have hrun := run_mono hfuel (ev.run_chunks (by omega))
    rw [cutEvents, hrun, ih hevents]
    rfl

end CubesatPipeline
