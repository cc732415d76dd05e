import CubesatPipeline.Lib.CheckedBuffer
import CubesatPipeline.Lib.RingBuffer
import CubesatPipeline.Lib.Transition
import Mathlib

/-!
# How a queue stores its items

The storage of a kernel queue: `uxLength` items of `uxItemSize` bytes in one block, written at
`pcWriteTo` and read behind `pcReadFrom`, both going around at `pcTail`. Pointers are offsets
from `pcHead`. The item at the front is one place behind `pcReadFrom`, which is the place that
was read last; so an item sent to the front is written where `pcReadFrom` is.

What the storage is for is a list of items (`CubesatPipeline.QueueStorage.Holds`), and each
operation is described by what it does to the list. An item size of `0` is allowed – a
semaphore – and then nothing is copied and only the count moves.
-/

namespace CubesatPipeline

open CheckedBuffer RingBuffer Transition

/-! ### The code -/

/-- Where `xQueueGenericSend` puts an item. -/
inductive CopyPosition where
  | sendToBack
  | sendToFront
  | overwrite
  deriving DecidableEq

/-- **What a queue stores its items with**, of the members of `Queue_t`. -/
structure QueueStorage where
  storage : Buffer UInt8
  pcWriteTo : ℕ
  pcTail : ℕ
  pcReadFrom : ℕ
  uxMessagesWaiting : ℕ
  uxLength : ℕ
  uxItemSize : ℕ

/-- The two lists of tasks of a queue, of the members of `Queue_t`. -/
inductive QueueEvent (U : Type) where
  | xTasksWaitingToSend (pxQueue : U)
  | xTasksWaitingToReceive (pxQueue : U)
  deriving DecidableEq

/-- `SIZE_MAX`. -/
def sizeMax : ℕ := 2 ^ 64 - 1

/-- `xQueueGenericReset`: `none` is `pdFAIL`. -/
def xQueueGenericReset (q : QueueStorage) : Option QueueStorage :=
  if 1 ≤ q.uxLength ∧ q.uxItemSize ≤ sizeMax / q.uxLength then
    some { q with
      pcTail := q.uxLength * q.uxItemSize
      uxMessagesWaiting := 0
      pcWriteTo := 0
      pcReadFrom := (q.uxLength - 1) * q.uxItemSize }
  else none

/-- `xQueueGenericCreate`, over an allocator and the size of a `Queue_t`. -/
def xQueueGenericCreate (pvPortMalloc : ℕ → Option (Buffer UInt8)) (sizeofQueue : ℕ)
    (uxQueueLength uxItemSize : ℕ) : Option QueueStorage :=
  if 0 < uxQueueLength ∧ uxItemSize ≤ sizeMax / uxQueueLength ∧
      uxQueueLength * uxItemSize ≤ sizeMax - sizeofQueue then do
    let block ← pvPortMalloc (sizeofQueue + uxQueueLength * uxItemSize)
    xQueueGenericReset
      { storage := block.drop sizeofQueue
        pcWriteTo := 0
        pcTail := 0
        pcReadFrom := 0
        uxMessagesWaiting := 0
        uxLength := uxQueueLength
        uxItemSize := uxItemSize }
  else none

/-- `prvCopyDataToQueue`, for a queue that is no mutex. -/
def prvCopyDataToQueue (q : QueueStorage) (pvItemToQueue : Buffer UInt8)
    (xPosition : CopyPosition) : Option QueueStorage :=
  if q.uxItemSize = 0 then
    some { q with uxMessagesWaiting := q.uxMessagesWaiting + 1 }
  else if xPosition = .sendToBack then do
    let storage ← memcpy q.storage q.pcWriteTo pvItemToQueue 0 q.uxItemSize
    let pcWriteTo := q.pcWriteTo + q.uxItemSize
    return { q with
      storage := storage
      pcWriteTo := if q.pcTail ≤ pcWriteTo then 0 else pcWriteTo
      uxMessagesWaiting := q.uxMessagesWaiting + 1 }
  else do
    let storage ← memcpy q.storage q.pcReadFrom pvItemToQueue 0 q.uxItemSize
    -- the pointer may go below `pcHead` before it is wrapped
    let pcReadFrom : ℤ := q.pcReadFrom - q.uxItemSize
    let uxMessagesWaiting :=
      if xPosition = .overwrite ∧ 0 < q.uxMessagesWaiting then q.uxMessagesWaiting - 1
      else q.uxMessagesWaiting
    return { q with
      storage := storage
      pcReadFrom := if pcReadFrom < 0 then q.pcTail - q.uxItemSize else pcReadFrom.toNat
      uxMessagesWaiting := uxMessagesWaiting + 1 }

/-- `prvCopyDataFromQueue`. -/
def prvCopyDataFromQueue (q : QueueStorage) (pvBuffer : Buffer UInt8) :
    Option (QueueStorage × Buffer UInt8) :=
  if q.uxItemSize ≠ 0 then do
    let pcReadFrom := q.pcReadFrom + q.uxItemSize
    let pcReadFrom := if q.pcTail ≤ pcReadFrom then 0 else pcReadFrom
    let pvBuffer ← memcpy pvBuffer 0 q.storage pcReadFrom q.uxItemSize
    return ({ q with pcReadFrom := pcReadFrom }, pvBuffer)
  else some (q, pvBuffer)

/-- The critical section of `xQueueGenericSend`, which is all of it when `xTicksToWait` is `0`:
`false` is `errQUEUE_FULL`. -/
def QueueStorage.send (q : QueueStorage) (pvItemToQueue : Buffer UInt8)
    (xCopyPosition : CopyPosition) : Option (Bool × QueueStorage) :=
  if q.uxMessagesWaiting < q.uxLength ∨ xCopyPosition = .overwrite then do
    return (true, ← prvCopyDataToQueue q pvItemToQueue xCopyPosition)
  else some (false, q)

/-- The critical section of `xQueueReceive`, which is all of it when `xTicksToWait` is `0`:
without a buffer it is `errQUEUE_EMPTY`. -/
def QueueStorage.receive (q : QueueStorage) (pvBuffer : Buffer UInt8) :
    Option (Option (Buffer UInt8) × QueueStorage) :=
  if 0 < q.uxMessagesWaiting then do
    let res ← prvCopyDataFromQueue q pvBuffer
    return (some res.2, { res.1 with uxMessagesWaiting := q.uxMessagesWaiting - 1 })
  else some (none, q)

/-- The critical section of `xQueuePeek`: the read pointer is put back. -/
def QueueStorage.peek (q : QueueStorage) (pvBuffer : Buffer UInt8) :
    Option (Option (Buffer UInt8) × QueueStorage) :=
  if 0 < q.uxMessagesWaiting then do
    let res ← prvCopyDataFromQueue q pvBuffer
    return (some res.2, { res.1 with pcReadFrom := q.pcReadFrom })
  else some (none, q)

/-! ### The items -/

/-- The bytes of the place with the index `j`. -/
def QueueStorage.slot (q : QueueStorage) (j : ℕ) : Buffer UInt8 :=
  (q.storage.drop (j * q.uxItemSize)).take q.uxItemSize

/-- **The storage of `n` places of `size` bytes holds a list of items**, the next one to be
received first. -/
structure QueueStorage.Holds (q : QueueStorage) (n size : ℕ) (items : List (List UInt8)) :
    Prop where
  length_eq : q.uxLength = n
  size_eq : q.uxItemSize = size
  tail_eq : q.pcTail = n * size
  length_storage : q.storage.length = n * size
  waiting_eq : q.uxMessagesWaiting = items.length
  length_item : ∀ item ∈ items, item.length = size
  ring : ∃ k < n, q.pcReadFrom = k * size ∧
    q.pcWriteTo = place n (place n k 1) items.length * size ∧
    RingBuffer.Holds q.slot n (place n k 1) (items.map written)

section Slots

variable {q : QueueStorage} {n size j : ℕ} {items : List (List UInt8)} {item : List UInt8}

/-- The bytes after an item was written into the place `j`. -/
def QueueStorage.put (q : QueueStorage) (j : ℕ) (item : List UInt8) : Buffer UInt8 :=
  q.storage.take (j * q.uxItemSize) ++ written item ++
    q.storage.drop (j * q.uxItemSize + item.length)

/-- **Writing an item into a place** changes that place and no other. -/
theorem QueueStorage.slot_put (hlen : q.storage.length = n * q.uxItemSize)
    (hitem : item.length = q.uxItemSize) (hj : j < n) {q' : QueueStorage}
    (hstorage : q'.storage = q.put j item) (hsize : q'.uxItemSize = q.uxItemSize) :
    q'.slot = Function.update q.slot j (written item) := by
  have hjn : j * q.uxItemSize + q.uxItemSize ≤ n * q.uxItemSize := by
    rw [← Nat.succ_mul]
    exact Nat.mul_le_mul_right _ hj
  have htake : (q.storage.take (j * q.uxItemSize)).length = j * q.uxItemSize := by
    rw [List.length_take]
    omega
  have hwritten : (written item).length = q.uxItemSize := by rw [length_written, hitem]
  funext i
  rw [QueueStorage.slot, hstorage, hsize, QueueStorage.put, hitem]
  rcases Nat.lt_trichotomy i j with hlt | rfl | hgt
  · have hij : i * q.uxItemSize + q.uxItemSize ≤ j * q.uxItemSize := by
      rw [← Nat.succ_mul]
      exact Nat.mul_le_mul_right _ hlt
    rw [Function.update_of_ne hlt.ne, QueueStorage.slot, List.append_assoc,
      List.drop_append_of_le_length (by omega), List.take_append_of_le_length (by
        rw [List.length_drop]
        omega), List.drop_take, List.take_take, Nat.min_eq_left (by omega)]
  · rw [Function.update_self, List.append_assoc, List.drop_left' htake, List.take_left' hwritten]
  · have hij : j * q.uxItemSize + q.uxItemSize ≤ i * q.uxItemSize := by
      rw [← Nat.succ_mul]
      exact Nat.mul_le_mul_right _ hgt
    have hfront : (q.storage.take (j * q.uxItemSize) ++ written item).length =
        j * q.uxItemSize + q.uxItemSize := by rw [List.length_append, htake, hwritten]
    rw [Function.update_of_ne hgt.ne', QueueStorage.slot, List.drop_append,
      List.drop_of_length_le (by omega), List.nil_append, List.drop_drop, hfront,
      Nat.add_sub_cancel' hij]

/-- Copying an item into a place. -/
theorem QueueStorage.memcpy_put (hlen : q.storage.length = n * q.uxItemSize)
    (hitem : item.length = q.uxItemSize) (hj : j < n) (r : Buffer UInt8) :
    memcpy q.storage (j * q.uxItemSize) (written item ++ r) 0 q.uxItemSize =
      some (q.put j item) := by
  have hjn : j * q.uxItemSize + q.uxItemSize ≤ n * q.uxItemSize := by
    rw [← Nat.succ_mul]
    exact Nat.mul_le_mul_right _ hj
  have hcopy := memcpy_eq q.storage (written item ++ r) (d := j * q.uxItemSize) (s := 0)
    (List.take_left' (length_written item)) (by omega)
  rw [hitem] at hcopy
  rw [hcopy, QueueStorage.put, hitem]

/-- Without bytes there is nothing to write. -/
theorem QueueStorage.update_slot_of_zero (hsize : q.uxItemSize = 0)
    (hitem : item.length = q.uxItemSize) (j : ℕ) :
    Function.update q.slot j (written item) = q.slot := by
  have hslot : written item = q.slot j := by
    rw [List.eq_nil_of_length_eq_zero (hitem.trans hsize), QueueStorage.slot, hsize,
      List.take_zero, written_nil]
  rw [hslot, Function.update_eq_self]

/-- A list that is in the places once an item has been written. -/
theorem QueueStorage.holds_put {q' : QueueStorage} {r : ℕ} {l : List (Buffer UInt8)}
    (hlen : q.storage.length = n * q.uxItemSize) (hitem : item.length = q.uxItemSize) (hj : j < n)
    (h : RingBuffer.Holds (Function.update q.slot j (written item)) n r l)
    (hstorage : q'.storage = q.put j item) (hsize : q'.uxItemSize = q.uxItemSize) :
    RingBuffer.Holds q'.slot n r l := by
  rwa [QueueStorage.slot_put hlen hitem hj hstorage hsize]

theorem QueueStorage.length_put (hlen : q.storage.length = n * q.uxItemSize)
    (hitem : item.length = q.uxItemSize) (hj : j < n) :
    (q.put j item).length = n * q.uxItemSize := by
  have hjn : j * q.uxItemSize + q.uxItemSize ≤ n * q.uxItemSize := by
    rw [← Nat.succ_mul]
    exact Nat.mul_le_mul_right _ hj
  simp only [QueueStorage.put, List.length_append, List.length_take, List.length_drop,
    length_written]
  omega

/-- The place behind `k`, as a pointer. -/
theorem wrap_next {k size : ℕ} (hk : k < n) (hsize : 0 < size) :
    (if n * size ≤ k * size + size then 0 else k * size + size) = place n k 1 * size := by
  rw [← Nat.succ_mul, place]
  split_ifs with hle hlt
  · exact absurd (Nat.le_of_mul_le_mul_right hle hsize) (by omega)
  · rw [show k + 1 - n = 0 by omega, Nat.zero_mul]
  · rfl
  · exact absurd (Nat.mul_le_mul_right size (by omega : n ≤ k.succ)) hle

/-- The place before `k`, as a pointer. -/
theorem wrap_prev {k size : ℕ} (hk : k < n) (hsize : 0 < size) :
    (if (k * size : ℕ) - (size : ℤ) < 0 then n * size - size else
      ((k * size : ℕ) - (size : ℤ)).toNat) = place n k (n - 1) * size := by
  rw [place]
  cases k with
  | zero =>
    rw [Nat.zero_mul, if_pos (by omega)]
    split_ifs with hlt
    · rw [Nat.zero_add, Nat.sub_mul, Nat.one_mul]
    · omega
  | succ k =>
    have hge : ¬ (((k + 1) * size : ℕ) : ℤ) - (size : ℤ) < 0 := by
      rw [Nat.succ_mul]
      omega
    rw [if_neg hge, if_neg (by omega), Nat.succ_mul, show k + 1 + (n - 1) - n = k by omega]
    omega

end Slots

/-! ### The operations -/

section Operations

variable {q : QueueStorage} {n size : ℕ} {items : List (List UInt8)} {item : List UInt8}

theorem forall_mem_concat {P : List UInt8 → Prop} (h : ∀ a ∈ items, P a) (hitem : P item) :
    ∀ a ∈ items ++ [item], P a := by
  intro a ha
  rcases List.mem_append.mp ha with ha | ha
  · exact h a ha
  · rwa [List.mem_singleton.mp ha]

/-- **Sending to the back** appends an item. -/
theorem QueueStorage.Holds.sendToBack (h : q.Holds n size items) (hroom : items.length < n)
    (hitem : item.length = size) (r : Buffer UInt8) :
    ∃ q', prvCopyDataToQueue q (written item ++ r) .sendToBack = some q' ∧
      q'.Holds n size (items ++ [item]) := by
  obtain ⟨rfl, rfl, htail, hlen, hwaiting, hitems, k, hk, hread, hwrite, hring⟩ := h
  have hfirst := hring.first_lt
  have hplace := place_lt hfirst hroom.le
  have hpush := hring.pushBack (by rwa [List.length_map]) (written item)
  rw [List.length_map, ← List.map_singleton, ← List.map_append] at hpush
  have hnext : place q.uxLength (place q.uxLength k 1) (items ++ [item]).length =
      place q.uxLength (place q.uxLength (place q.uxLength k 1) items.length) 1 := by
    rw [place_place hfirst (by omega), List.length_append, List.length_singleton]
  by_cases hsize : q.uxItemSize = 0
  · rw [prvCopyDataToQueue, if_pos hsize]
    rw [QueueStorage.update_slot_of_zero hsize hitem] at hpush
    exact ⟨_, rfl, rfl, rfl, htail, hlen, by simp [hwaiting], forall_mem_concat hitems hitem, k, hk,
      hread, by simp [hwrite, hsize], hpush⟩
  · have hpos : 0 < q.uxItemSize := Nat.pos_of_ne_zero hsize
    rw [prvCopyDataToQueue, if_neg hsize, if_pos rfl, hwrite,
      QueueStorage.memcpy_put hlen hitem hplace r]
    refine ⟨_, rfl, rfl, rfl, htail, QueueStorage.length_put hlen hitem hplace, by simp [hwaiting],
      forall_mem_concat hitems hitem, k, hk, hread, ?_, ?_⟩
    · rw [hnext, ← wrap_next hplace hpos, htail]
    · exact QueueStorage.holds_put hlen hitem hplace hpush rfl rfl

/-- **Sending to the front** puts an item before the others. -/
theorem QueueStorage.Holds.sendToFront (h : q.Holds n size items) (hroom : items.length < n)
    (hitem : item.length = size) (r : Buffer UInt8) :
    ∃ q', prvCopyDataToQueue q (written item ++ r) .sendToFront = some q' ∧
      q'.Holds n size (item :: items) := by
  obtain ⟨rfl, rfl, htail, hlen, hwaiting, hitems, k, hk, hread, hwrite, hring⟩ := h
  have hitems' : ∀ a ∈ item :: items, a.length = q.uxItemSize :=
    List.forall_mem_cons.mpr ⟨hitem, hitems⟩
  -- the place before the first item is the one read last
  have hprev : place q.uxLength (place q.uxLength k 1) (q.uxLength - 1) = k := by
    simp only [place]
    split_ifs <;> omega
  have hback : place q.uxLength k (items.length + 1) =
      place q.uxLength (place q.uxLength k 1) items.length := by
    rw [place_place hk (by omega), Nat.add_comm]
  have hfirst : place q.uxLength (place q.uxLength k (q.uxLength - 1)) 1 = k := by
    simp only [place]
    split_ifs <;> omega
  have hpush := hring.pushFront (by rwa [List.length_map]) (written item)
  rw [hprev, ← List.map_cons] at hpush
  by_cases hsize : q.uxItemSize = 0
  · rw [prvCopyDataToQueue, if_pos hsize]
    rw [QueueStorage.update_slot_of_zero hsize hitem] at hpush
    exact ⟨_, rfl, rfl, rfl, htail, hlen, by simp [hwaiting], hitems',
      place q.uxLength k (q.uxLength - 1), place_lt hk (Nat.sub_le _ 1), by simp [hread, hsize],
      by simp [hwrite, hsize], by rwa [hfirst]⟩
  · have hpos : 0 < q.uxItemSize := Nat.pos_of_ne_zero hsize
    rw [prvCopyDataToQueue, if_neg hsize, if_neg (by decide), hread,
      QueueStorage.memcpy_put hlen hitem hk r]
    refine ⟨_, rfl, rfl, rfl, htail, QueueStorage.length_put hlen hitem hk, by simp [hwaiting],
      hitems', place q.uxLength k (q.uxLength - 1), place_lt hk (Nat.sub_le _ 1), ?_, ?_, ?_⟩
    · rw [← wrap_prev hk hpos, htail]
    · rw [hfirst, List.length_cons, hback, hwrite]
    · rw [hfirst]
      exact QueueStorage.holds_put hlen hitem hk hpush rfl rfl

/-- **Overwriting** the item of a queue for one item. -/
theorem QueueStorage.Holds.overwrite (h : q.Holds 1 size items) (hpos : 0 < size)
    (hitem : item.length = size) (r : Buffer UInt8) :
    ∃ q', prvCopyDataToQueue q (written item ++ r) .overwrite = some q' ∧
      q'.Holds 1 size [item] := by
  obtain ⟨hlength, rfl, htail, hlen, hwaiting, hitems, k, hk, hread, hwrite, hring⟩ := h
  obtain rfl : k = 0 := Nat.lt_one_iff.mp hk
  have hbounded : items.length ≤ 1 := by simpa using hring.bounded
  have hcount : (if CopyPosition.overwrite = .overwrite ∧ 0 < q.uxMessagesWaiting then
      q.uxMessagesWaiting - 1 else q.uxMessagesWaiting) + 1 = 1 := by
    split_ifs with hone <;> simp at hone <;> omega
  have hplace : ∀ i ≤ 1, place 1 0 i = 0 := by
    intro i hi
    rw [place]
    split_ifs <;> omega
  have hpush := (holds_nil q.slot hk).pushFront Nat.zero_lt_one (written item)
  have hprev := wrap_prev hk hpos
  rw [hplace (1 - 1) (by decide)] at hpush hprev
  rw [hplace 1 le_rfl, hplace _ hbounded] at hwrite
  rw [prvCopyDataToQueue, if_neg hpos.ne', if_neg (by decide), hread,
    QueueStorage.memcpy_put hlen hitem hk r]
  refine ⟨_, rfl, hlength, rfl, htail, QueueStorage.length_put hlen hitem hk, hcount, by simpa, 0,
    hk, ?_, ?_, ?_⟩
  · rwa [← htail] at hprev
  · rw [hplace 1 le_rfl, List.length_singleton, hplace 1 le_rfl, hwrite]
  · rw [hplace 1 le_rfl]
    exact QueueStorage.holds_put hlen hitem hk hpush rfl rfl

/-- **Receiving** copies the item at the front out, and moves on behind it. -/
theorem QueueStorage.Holds.copyFrom (h : q.Holds n size (item :: items)) : ∃ p,
    prvCopyDataFromQueue q (fresh size) = some ({ q with pcReadFrom := p }, written item) ∧
      QueueStorage.Holds
        { q with pcReadFrom := p, uxMessagesWaiting := q.uxMessagesWaiting - 1 } n size items := by
  obtain ⟨rfl, rfl, htail, hlen, hwaiting, hitems, k, hk, hread, hwrite, hring⟩ := h
  obtain ⟨hitem, hitems⟩ := List.forall_mem_cons.mp hitems
  have hbounded : items.length + 1 ≤ q.uxLength := by simpa using hring.bounded
  obtain ⟨hslot, hrest⟩ := hring.popFront
  have hnext : place q.uxLength k 1 < q.uxLength := hring.first_lt
  rw [List.length_cons, Nat.add_comm, ← place_place hnext (by omega)] at hwrite
  by_cases hsize : q.uxItemSize = 0
  · refine ⟨q.pcReadFrom, ?_, rfl, rfl, htail, hlen, by simp [hwaiting], hitems,
      place q.uxLength k 1, hnext, by simp [hread, hsize], hwrite, hrest⟩
    have hnil : fresh q.uxItemSize = written item := by
      rw [List.eq_nil_of_length_eq_zero (hitem.trans hsize), hsize, fresh_zero, written_nil]
    rw [prvCopyDataFromQueue, if_neg (by simpa using hsize), hnil]
  · have hpos : 0 < q.uxItemSize := Nat.pos_of_ne_zero hsize
    have hcopy : memcpy (fresh q.uxItemSize) 0 q.storage (place q.uxLength k 1 * q.uxItemSize)
        q.uxItemSize = some (written item) := by
      have hcopy := memcpy_eq (fresh q.uxItemSize) q.storage (d := 0)
        (s := place q.uxLength k 1 * q.uxItemSize) (by rwa [hitem]) (by simp [hitem])
      rw [hitem] at hcopy
      simpa using hcopy
    have hwrap := wrap_next hk hpos
    rw [← htail, ← hread] at hwrap
    refine ⟨place q.uxLength k 1 * q.uxItemSize, ?_, rfl, rfl, htail, hlen, by simp [hwaiting],
      hitems, place q.uxLength k 1, hnext, rfl, hwrite, hrest⟩
    simp only [prvCopyDataFromQueue, hwrap, hcopy]
    rw [if_pos hsize]
    rfl

end Operations

/-! ### Calls of a queue -/

/-- A call of a queue that does not wait. -/
inductive QueueCall where
  | send (item : List UInt8) (xCopyPosition : CopyPosition)
  | receive
  | peek
  | reset
  | messagesWaiting
  | spacesAvailable

/-- What such a call returns. -/
inductive QueueReply where
  | pass
  | errQueueFull
  | errQueueEmpty
  | item (bytes : List UInt8)
  | count (n : ℕ)

/-- **The calls over the storage.** An item that is received comes in a buffer that was never
written before, and is read from there. -/
def QueueStorage.call : QueueCall → QueueStorage → Option (QueueReply × QueueStorage)
  | .send item xCopyPosition, q => do
    let res ← q.send (written item) xCopyPosition
    return (if res.1 then .pass else .errQueueFull, res.2)
  | .receive, q => do
    let res ← q.receive (fresh q.uxItemSize)
    match res.1 with
    | none => return (.errQueueEmpty, res.2)
    | some pvBuffer => return (.item (← loadAll pvBuffer q.uxItemSize), res.2)
  | .peek, q => do
    let res ← q.peek (fresh q.uxItemSize)
    match res.1 with
    | none => return (.errQueueEmpty, res.2)
    | some pvBuffer => return (.item (← loadAll pvBuffer q.uxItemSize), res.2)
  | .reset, q => do return (.pass, ← xQueueGenericReset q)
  | .messagesWaiting, q => some (.count q.uxMessagesWaiting, q)
  | .spacesAvailable, q => some (.count (q.uxLength - q.uxMessagesWaiting), q)

/-- **What a queue is for**: a list of at most `n` items, with two ends. An item has to have the
size of the queue, and only a queue for one item, which is not a semaphore, can be
overwritten. -/
def itemsCall (n size : ℕ) : QueueCall → List (List UInt8) →
    Option (QueueReply × List (List UInt8))
  | .send item .sendToBack, items =>
    if item.length = size then
      some (if items.length < n then (.pass, items ++ [item]) else (.errQueueFull, items))
    else none
  | .send item .sendToFront, items =>
    if item.length = size then
      some (if items.length < n then (.pass, item :: items) else (.errQueueFull, items))
    else none
  | .send item .overwrite, _ =>
    if item.length = size ∧ n = 1 ∧ 0 < size then some (.pass, [item]) else none
  | .receive, [] => some (.errQueueEmpty, [])
  | .receive, item :: items => some (.item item, items)
  | .peek, [] => some (.errQueueEmpty, [])
  | .peek, item :: items => some (.item item, item :: items)
  | .reset, _ => some (.pass, [])
  | .messagesWaiting, items => some (.count items.length, items)
  | .spacesAvailable, items => some (.count (n - items.length), items)

section Calls

variable {q : QueueStorage} {n size : ℕ} {items : List (List UInt8)}

/-- An empty queue. -/
theorem xQueueGenericReset_spec (hn : 0 < q.uxLength) (hfits : q.uxItemSize ≤ sizeMax / q.uxLength)
    (hlen : q.storage.length = q.uxLength * q.uxItemSize) :
    ∃ q', xQueueGenericReset q = some q' ∧ q'.Holds q.uxLength q.uxItemSize [] := by
  have hfirst : place q.uxLength (q.uxLength - 1) 1 = 0 := by
    rw [place]
    split_ifs <;> omega
  refine ⟨_, if_pos ⟨hn, hfits⟩, rfl, rfl, rfl, hlen, rfl, by simp, q.uxLength - 1, by omega, rfl,
    ?_, ?_⟩
  · rw [hfirst, List.length_nil, place_zero hn, Nat.zero_mul]
  · rw [hfirst]
    exact holds_nil _ hn

theorem QueueStorage.Holds.bounded (h : q.Holds n size items) : items.length ≤ n := by
  obtain ⟨k, -, -, -, hring⟩ := h.ring
  simpa using hring.bounded

theorem QueueStorage.Holds.lt_iff (h : q.Holds n size items) :
    q.uxMessagesWaiting < q.uxLength ↔ items.length < n := by
  rw [h.waiting_eq, h.length_eq]

/-- A full queue is left alone. -/
theorem QueueStorage.Holds.send_full (h : q.Holds n size items) (hfull : items.length = n)
    (b : Buffer UInt8) {xCopyPosition : CopyPosition} (hpos : xCopyPosition ≠ .overwrite) :
    q.send b xCopyPosition = some (false, q) := by
  have hlt := h.lt_iff
  rw [QueueStorage.send, if_neg (by simp only [hlt, hpos, or_false]; omega)]

/-- What was copied in is sent. -/
theorem QueueStorage.send_eq_true {q' : QueueStorage} {b : Buffer UInt8}
    {xCopyPosition : CopyPosition}
    (hroom : q.uxMessagesWaiting < q.uxLength ∨ xCopyPosition = .overwrite)
    (hcopy : prvCopyDataToQueue q b xCopyPosition = some q') :
    q.send b xCopyPosition = some (true, q') := by
  rw [QueueStorage.send, if_pos hroom, hcopy]
  rfl

/-- From an empty queue nothing is received. -/
theorem QueueStorage.Holds.receive_nil (h : q.Holds n size []) (b : Buffer UInt8) :
    q.receive b = some (none, q) := by
  rw [QueueStorage.receive, if_neg (by rw [h.waiting_eq]; exact Nat.lt_irrefl 0)]

/-- **Receiving** gives the item at the front and leaves the others. -/
theorem QueueStorage.Holds.receive_cons {item : List UInt8} (h : q.Holds n size (item :: items)) :
    ∃ q', q.receive (fresh size) = some (some (written item), q') ∧ q'.Holds n size items := by
  obtain ⟨p, hcopy, hrest⟩ := h.copyFrom
  refine ⟨_, ?_, hrest⟩
  rw [QueueStorage.receive, if_pos (by rw [h.waiting_eq]; exact Nat.zero_lt_succ _), hcopy]
  rfl

/-- **Peeking** gives it and leaves it there. -/
theorem QueueStorage.Holds.peek_cons {item : List UInt8} (h : q.Holds n size (item :: items)) :
    q.peek (fresh size) = some (some (written item), q) := by
  obtain ⟨p, hcopy, -⟩ := h.copyFrom
  rw [QueueStorage.peek, if_pos (by rw [h.waiting_eq]; exact Nat.zero_lt_succ _), hcopy]
  rfl

/-- **Each call does to the storage what it does to the list.** -/
theorem QueueStorage.Holds.call (hfits : size ≤ sizeMax / n) {c : QueueCall} {reply : QueueReply}
    {items' : List (List UInt8)} (h : q.Holds n size items)
    (hcall : itemsCall n size c items = some (reply, items')) :
    ∃ q', q.call c = some (reply, q') ∧ q'.Holds n size items' := by
  have hle := h.bounded
  have hread : ∀ item : List UInt8, item.length = size →
      loadAll (written item) q.uxItemSize = some item := by
    intro item hitem
    rw [h.size_eq, ← hitem, ← List.append_nil (written item), loadAll_written_append]
  cases c with
  | send item xCopyPosition =>
    cases xCopyPosition with
    | sendToBack =>
      rw [itemsCall] at hcall
      split_ifs at hcall with hitem hroom
      · obtain ⟨rfl, rfl⟩ := Prod.mk.inj (Option.some.inj hcall)
        obtain ⟨q', hcopy, hq'⟩ := h.sendToBack hroom hitem []
        rw [List.append_nil] at hcopy
        exact ⟨q', by rw [QueueStorage.call,
          QueueStorage.send_eq_true (Or.inl (h.lt_iff.mpr hroom)) hcopy]; rfl, hq'⟩
      · obtain ⟨rfl, rfl⟩ := Prod.mk.inj (Option.some.inj hcall)
        exact ⟨q, by rw [QueueStorage.call, h.send_full (by omega) _ (by decide)]; rfl, h⟩
    | sendToFront =>
      rw [itemsCall] at hcall
      split_ifs at hcall with hitem hroom
      · obtain ⟨rfl, rfl⟩ := Prod.mk.inj (Option.some.inj hcall)
        obtain ⟨q', hcopy, hq'⟩ := h.sendToFront hroom hitem []
        rw [List.append_nil] at hcopy
        exact ⟨q', by rw [QueueStorage.call,
          QueueStorage.send_eq_true (Or.inl (h.lt_iff.mpr hroom)) hcopy]; rfl, hq'⟩
      · obtain ⟨rfl, rfl⟩ := Prod.mk.inj (Option.some.inj hcall)
        exact ⟨q, by rw [QueueStorage.call, h.send_full (by omega) _ (by decide)]; rfl, h⟩
    | overwrite =>
      rw [itemsCall] at hcall
      split_ifs at hcall with hallowed
      obtain ⟨hitem, rfl, hpos⟩ := hallowed
      obtain ⟨rfl, rfl⟩ := Prod.mk.inj (Option.some.inj hcall)
      obtain ⟨q', hcopy, hq'⟩ := h.overwrite hpos hitem []
      rw [List.append_nil] at hcopy
      exact ⟨q', by rw [QueueStorage.call, QueueStorage.send_eq_true (Or.inr rfl) hcopy]; rfl, hq'⟩
  | receive =>
    cases items with
    | nil =>
      obtain ⟨rfl, rfl⟩ := Prod.mk.inj (Option.some.inj hcall)
      exact ⟨q, by rw [QueueStorage.call, h.receive_nil]; rfl, h⟩
    | cons item items =>
      obtain ⟨rfl, rfl⟩ := Prod.mk.inj (Option.some.inj hcall)
      obtain ⟨q', hreceive, hq'⟩ := h.receive_cons
      have hbytes := hread item (h.length_item item List.mem_cons_self)
      refine ⟨q', ?_, hq'⟩
      rw [← h.size_eq] at hreceive
      simp [QueueStorage.call, hreceive, hbytes]
  | peek =>
    cases items with
    | nil =>
      obtain ⟨rfl, rfl⟩ := Prod.mk.inj (Option.some.inj hcall)
      refine ⟨q, ?_, h⟩
      rw [QueueStorage.call, QueueStorage.peek,
        if_neg (by rw [h.waiting_eq]; exact Nat.lt_irrefl 0)]
      rfl
    | cons item items =>
      obtain ⟨rfl, rfl⟩ := Prod.mk.inj (Option.some.inj hcall)
      have hpeek := h.peek_cons
      have hbytes := hread item (h.length_item item List.mem_cons_self)
      refine ⟨q, ?_, h⟩
      rw [← h.size_eq] at hpeek
      simp [QueueStorage.call, hpeek, hbytes]
  | reset =>
    obtain ⟨rfl, rfl⟩ := Prod.mk.inj (Option.some.inj hcall)
    obtain ⟨k, hk, -⟩ := h.ring
    have hn : 0 < q.uxLength := by rw [h.length_eq]; omega
    obtain ⟨q', hreset, hq'⟩ := xQueueGenericReset_spec hn
      (by rw [h.length_eq, h.size_eq]; exact hfits)
      (by rw [h.length_eq, h.size_eq]; exact h.length_storage)
    rw [h.length_eq, h.size_eq] at hq'
    exact ⟨q', by rw [QueueStorage.call, hreset]; rfl, hq'⟩
  | messagesWaiting =>
    obtain ⟨rfl, rfl⟩ := Prod.mk.inj (Option.some.inj hcall)
    exact ⟨q, by rw [QueueStorage.call, h.waiting_eq], h⟩
  | spacesAvailable =>
    obtain ⟨rfl, rfl⟩ := Prod.mk.inj (Option.some.inj hcall)
    exact ⟨q, by rw [QueueStorage.call, h.waiting_eq, h.length_eq], h⟩

end Calls

/-! ### All calls -/

section Create

variable {pvPortMalloc : ℕ → Option (Buffer UInt8)} {sizeofQueue n size : ℕ} {q : QueueStorage}

/-- **A queue that was created is empty**, and its size in bytes does not overflow. -/
theorem xQueueGenericCreate_spec (hmalloc : ∀ m b, pvPortMalloc m = some b → b.length = m)
    (h : xQueueGenericCreate pvPortMalloc sizeofQueue n size = some q) :
    q.Holds n size [] ∧ size ≤ sizeMax / n := by
  rw [xQueueGenericCreate] at h
  split_ifs at h with hchecks
  obtain ⟨hn, hfits, -⟩ := hchecks
  obtain ⟨block, hblock, h⟩ := Option.bind_eq_some_iff.mp h
  have hlen : (block.drop sizeofQueue).length = n * size := by
    rw [List.length_drop, hmalloc _ _ hblock, Nat.add_sub_cancel_left]
  obtain ⟨q', hreset, hq'⟩ := xQueueGenericReset_spec
    (q := ⟨block.drop sizeofQueue, 0, 0, 0, 0, n, size⟩) hn hfits hlen
  rw [hreset] at h
  obtain rfl := Option.some.inj h
  exact ⟨hq', hfits⟩

/-- **A queue is a list of items with two ends.** After `xQueueGenericCreate`, every sequence
of calls that the list of items allows – items of the right size, and overwriting only for a
queue for one item – is answered as the list answers it: no call reads or writes outside the
storage, no byte is read that was not written, and what is received is what was sent, in the
order of the list. -/
theorem queueStorage_answers (hmalloc : ∀ m b, pvPortMalloc m = some b → b.length = m)
    (hcreate : xQueueGenericCreate pvPortMalloc sizeofQueue n size = some q)
    {calls : List QueueCall} {replies : List QueueReply} {items : List (List UInt8)}
    (h : answers (itemsCall n size) calls [] = some (replies, items)) :
    ∃ q', answers QueueStorage.call calls q = some (replies, q') ∧ q'.Holds n size items := by
  obtain ⟨hempty, hfits⟩ := xQueueGenericCreate_spec hmalloc hcreate
  have hstep : ∀ c q items reply items', q.Holds n size items →
      itemsCall n size c items = some (reply, items') →
        ∃ q', QueueStorage.call c q = some (reply, q') ∧ q'.Holds n size items' :=
    fun c q items reply items' hq hcall => hq.call hfits hcall
  exact answers_of_simulates hstep hempty h

/-- Two bytes through a queue of two places, the second past the first. -/
theorem queueStorage_answers_two : ∃ q q',
    xQueueGenericCreate (fun m => some (fresh m)) 80 2 1 = some q ∧
      answers QueueStorage.call [.send [1] .sendToBack, .send [2] .sendToFront, .receive] q =
        some ([.pass, .pass, .item [2]], q') ∧ q'.Holds 2 1 [[1]] := by
  obtain ⟨q, hcreate⟩ : ∃ q, xQueueGenericCreate (fun m => some (fresh m)) 80 2 1 = some q :=
    ⟨_, rfl⟩
  have hmalloc : ∀ (m : ℕ) (b : Buffer UInt8), some (fresh m) = some b → b.length = m :=
    fun m b h => Option.some.inj h ▸ length_fresh m
  have hitems : answers (itemsCall 2 1)
      [.send [1] .sendToBack, .send [2] .sendToFront, .receive] [] =
        some ([.pass, .pass, .item [2]], [[1]]) := rfl
  obtain ⟨q', hanswers, hholds⟩ := queueStorage_answers hmalloc hcreate hitems
  exact ⟨q, q', hcreate, hanswers, hholds⟩

end Create

end CubesatPipeline
