import CubesatPipeline.Pipeline
import CubesatPipeline.QueueStorage
import CubesatPipeline.Reassembly

/-!
# The pipeline on the queues of the kernel

The three tasks once more, with the storage of the kernel in the place of the two queues: a
task sends the bytes of its `PayloadChunk_t`, and reads a chunk from the bytes it receives. How
the compiler lays out a `PayloadChunk_t` is left open (`CubesatPipeline.ChunkLayout`).

This pipeline can do what the one with lists for queues can do, and no more
(`CubesatPipeline.StoredSys.fire_rel`): related states enable the same actions, and these lead
to related states. So what holds of every run of the one holds of every run of the other, and
no access to the storage of a queue ever fails (`CubesatPipeline.storedPipeline_conserves`).
-/

namespace CubesatPipeline

open BoundedQueue CheckedBuffer EmitLoop Transition

/-! ### The code -/

/-- **The bytes of a `PayloadChunk_t`**, as a compiler lays them out. -/
structure ChunkLayout where
  size : ℕ
  image : PayloadChunk → List UInt8
  read : List UInt8 → PayloadChunk
  length_image : ∀ c, (image c).length = size
  read_image : ∀ c, read (image c) = c

/-- The state of the pipeline, with the queues as the kernel stores them. -/
structure StoredSys where
  task1 : Task1
  queue1 : QueueStorage
  task2 : Consumer
  totalForwarded : ℕ
  queue2 : QueueStorage
  task3 : Consumer
  totalEncoded : ℕ
  tables : GfTables
  packets : List (List UInt8)
  tooLarge : Bool

/-- Program start, after both queues were created. -/
def StoredSys.start (events : List Event) (queue1 queue2 : QueueStorage) : StoredSys where
  task1 := .next events
  queue1 := queue1
  task2 := .receiving
  totalForwarded := 0
  queue2 := queue2
  task3 := .receiving
  totalEncoded := 0
  tables := .start
  packets := []
  tooLarge := false

/-- `xQueueSend` of a chunk: `none` if the task has to wait. -/
def ChunkLayout.send (L : ChunkLayout) (q : QueueStorage) (chunk : PayloadChunk) :
    Option (Option QueueStorage) := do
  let res ← q.send (written (L.image chunk)) .sendToBack
  return if res.1 then some res.2 else none

/-- `xQueueReceive` into a chunk: `none` if the task has to wait. -/
def ChunkLayout.receive (L : ChunkLayout) (q : QueueStorage) :
    Option (Option (PayloadChunk × QueueStorage)) := do
  let res ← q.receive (fresh L.size)
  match res.1 with
  | none => return none
  | some pvBuffer => return some (L.read (← loadAll pvBuffer L.size), res.2)

/-- **One action of the pipeline** on the queues of the kernel, if it is enabled. -/
def StoredSys.fire (L : ChunkLayout) : Action → StoredSys → Option StoredSys
  | .nextEvent, s =>
    match s.task1 with
    | .next [] => some { s with task1 := .finished }
    | .next (ev :: events) => some { s with task1 := .sending ev ev.enter events }
    | _ => none
  | .send1, s =>
    match s.task1 with
    | .sending ev loop events => do
      let turn ← ev.turn loop
      let queue1 ← (← L.send s.queue1 turn.1)
      return { s with task1 := .delaying ev turn.2 events, queue1 := queue1 }
    | _ => none
  | .endEvent, s =>
    match s.task1 with
    | .sending ev loop events =>
      match ev.turn loop with
      | none => some { s with task1 := .next events }
      | some _ => none
    | _ => none
  | .wake1, s =>
    match s.task1 with
    | .delaying ev loop events => some { s with task1 := .sending ev loop events }
    | _ => none
  | .receive2, s =>
    match s.task2 with
    | .receiving => do
      let item ← (← L.receive s.queue1)
      return { s with
        task2 := .holding item.1, queue1 := item.2, totalForwarded := s.totalForwarded + 1 }
    | _ => none
  | .send2, s =>
    match s.task2 with
    | .holding chunk => do
      let queue2 ← (← L.send s.queue2 chunk)
      return { s with task2 := .receiving, queue2 := queue2 }
    | _ => none
  | .timeout2, s =>
    match s.task2, s.queue1.uxMessagesWaiting with
    | .receiving, 0 => some { s with task2 := .gaveUp }
    | _, _ => none
  | .receive3, s =>
    match s.task3 with
    | .receiving => do
      let item ← (← L.receive s.queue2)
      return { s with
        task3 := .holding item.1, queue2 := item.2, totalEncoded := s.totalEncoded + 1 }
    | _ => none
  | .encode3, s =>
    match s.task3 with
    | .holding chunk => do
      let res ← encodeChunk s.tables chunk
      match res.2 with
      | none => return { s with task3 := .receiving, tables := res.1, tooLarge := true }
      | some w =>
        return { s with task3 := .receiving, tables := res.1, packets := s.packets ++ [w] }
    | _ => none
  | .timeout3, s =>
    match s.task3, s.queue2.uxMessagesWaiting with
    | .receiving, 0 => some { s with task3 := .gaveUp }
    | _, _ => none
  | .idle1, s =>
    match s.task1 with
    | .finished => some s
    | _ => none
  | .idle2, s =>
    match s.task2 with
    | .gaveUp => some s
    | _ => none
  | .idle3, s =>
    match s.task3 with
    | .gaveUp => some s
    | _ => none

/-! ### A queue that stores chunks -/

/-- **The storage holds the chunks of a queue.** -/
def ChunkLayout.Stores (L : ChunkLayout) (q : QueueStorage) (queue : ChunkQueue) : Prop :=
  q.Holds 10 L.size (queue.items.map L.image)

section Stores

variable {L : ChunkLayout} {q : QueueStorage} {queue : ChunkQueue}

/-- **Sending does the same to both**, or neither has room. -/
theorem ChunkLayout.Stores.send (h : L.Stores q queue) (chunk : PayloadChunk) :
    ∃ res, L.send q chunk = some res ∧ Option.Rel L.Stores res (queue.send chunk) := by
  rcases hsend : queue.send chunk with _ | queue'
  · have hfull := Queue.send_eq_none hsend
    refine ⟨none, ?_, .none⟩
    rw [ChunkLayout.send, h.send_full (by rwa [List.length_map]) _ (by decide)]
    rfl
  · have hitems := Queue.send_eq_some hsend
    have hroom : (queue.items.map L.image).length < 10 := by
      have hbounded := queue'.bounded
      rw [hitems, List.length_append, List.length_singleton] at hbounded
      rwa [List.length_map]
    obtain ⟨q', hcopy, hq'⟩ := h.sendToBack hroom (L.length_image chunk) []
    rw [List.append_nil] at hcopy
    refine ⟨some q', ?_, .some ?_⟩
    · rw [ChunkLayout.send, QueueStorage.send_eq_true (Or.inl (h.lt_iff.mpr hroom)) hcopy]
      rfl
    · rwa [ChunkLayout.Stores, hitems, List.map_append, List.map_singleton]

/-- **Receiving gives the same chunk from both**, or neither has one. -/
theorem ChunkLayout.Stores.receive (h : L.Stores q queue) :
    ∃ res, L.receive q = some res ∧
      Option.Rel (fun x y => x.1 = y.1 ∧ L.Stores x.2 y.2) res queue.receive := by
  rcases hreceive : queue.receive with _ | ⟨chunk, queue'⟩
  · rw [ChunkLayout.Stores, Queue.receive_eq_none hreceive] at h
    refine ⟨none, ?_, .none⟩
    rw [ChunkLayout.receive, h.receive_nil]
    rfl
  · rw [ChunkLayout.Stores, Queue.receive_eq_some hreceive, List.map_cons] at h
    obtain ⟨q', hq, hq'⟩ := h.receive_cons
    refine ⟨some (chunk, q'), ?_, .some ⟨rfl, hq'⟩⟩
    have hbytes := loadAll_written_append (L.image chunk) []
    rw [List.append_nil, L.length_image] at hbytes
    simp [ChunkLayout.receive, hq, hbytes, L.read_image]

/-- The count tells an empty queue. -/
theorem ChunkLayout.Stores.waiting_eq_zero (h : L.Stores q queue) :
    q.uxMessagesWaiting = 0 ↔ queue.receive = none := by
  rw [h.waiting_eq, List.length_map]
  obtain ⟨items, hbounded⟩ := queue
  cases items <;> simp [Queue.receive]

end Stores

/-! ### The two pipelines -/

/-- **The two pipelines agree**, but for how they keep their queues. -/
structure StoredSys.Stores (L : ChunkLayout) (c : StoredSys) (s : Sys) : Prop where
  task1 : c.task1 = s.task1
  queue1 : L.Stores c.queue1 s.queue1
  task2 : c.task2 = s.task2
  totalForwarded : c.totalForwarded = s.totalForwarded
  queue2 : L.Stores c.queue2 s.queue2
  task3 : c.task3 = s.task3
  totalEncoded : c.totalEncoded = s.totalEncoded
  tables : c.tables = s.tables
  packets : c.packets = s.packets
  tooLarge : c.tooLarge = s.tooLarge

/-- **Pipelines that agree enable the same actions**, and go on to agree. -/
theorem StoredSys.fire_rel {L : ChunkLayout} {c : StoredSys} {s : Sys} (h : c.Stores L s)
    (a : Action) : Option.Rel (StoredSys.Stores L) (c.fire L a) (s.fire a) := by
  obtain ⟨htask1, hqueue1, htask2, hforwarded, hqueue2, htask3, hencoded, htables, hpackets,
    htoo⟩ := h
  obtain ⟨task1, q1, task2, totalForwarded, q2, task3, totalEncoded, tables, packets, tooLarge⟩ := c
  dsimp only at *
  subst htask1 htask2 hforwarded htask3 hencoded htables hpackets htoo
  cases a with
  | nextEvent =>
    rcases htask : s.task1 with (_ | ⟨ev, events⟩) | ⟨ev, loop, events⟩ | ⟨ev, loop, events⟩ | _ <;>
      simp only [StoredSys.fire, Sys.fire, htask]
    · exact .some ⟨rfl, hqueue1, rfl, rfl, hqueue2, rfl, rfl, rfl, rfl, rfl⟩
    · exact .some ⟨rfl, hqueue1, rfl, rfl, hqueue2, rfl, rfl, rfl, rfl, rfl⟩
    all_goals exact .none
  | send1 =>
    rcases htask : s.task1 with events | ⟨ev, loop, events⟩ | ⟨ev, loop, events⟩ | _ <;>
      simp only [StoredSys.fire, Sys.fire, htask]
    case sending =>
      rcases hturn : ev.turn loop with _ | ⟨chunk, loop'⟩
      · exact .none
      · obtain ⟨res, hres, hrel⟩ := hqueue1.send chunk
        simp only [Option.bind_eq_bind, Option.bind_some, hres]
        generalize s.queue1.send chunk = sent at hrel ⊢
        cases hrel with
        | none => exact .none
        | some hq => exact .some ⟨rfl, hq, rfl, rfl, hqueue2, rfl, rfl, rfl, rfl, rfl⟩
    all_goals exact .none
  | endEvent =>
    rcases htask : s.task1 with events | ⟨ev, loop, events⟩ | ⟨ev, loop, events⟩ | _ <;>
      simp only [StoredSys.fire, Sys.fire, htask]
    case sending =>
      rcases hturn : ev.turn loop with _ | turn
      · exact .some ⟨rfl, hqueue1, rfl, rfl, hqueue2, rfl, rfl, rfl, rfl, rfl⟩
      · exact .none
    all_goals exact .none
  | wake1 =>
    rcases htask : s.task1 with events | ⟨ev, loop, events⟩ | ⟨ev, loop, events⟩ | _ <;>
      simp only [StoredSys.fire, Sys.fire, htask]
    case delaying => exact .some ⟨rfl, hqueue1, rfl, rfl, hqueue2, rfl, rfl, rfl, rfl, rfl⟩
    all_goals exact .none
  | receive2 =>
    rcases htask : s.task2 with _ | chunk | _ <;> simp only [StoredSys.fire, Sys.fire, htask]
    case receiving =>
      obtain ⟨res, hres, hrel⟩ := hqueue1.receive
      rw [hres]
      generalize s.queue1.receive = received at hrel ⊢
      cases hrel with
      | none => exact .none
      | some hq => exact .some ⟨rfl, hq.2, by rw [hq.1], rfl, hqueue2, rfl, rfl, rfl, rfl, rfl⟩
    all_goals exact .none
  | send2 =>
    rcases htask : s.task2 with _ | chunk | _ <;> simp only [StoredSys.fire, Sys.fire, htask]
    case holding =>
      obtain ⟨res, hres, hrel⟩ := hqueue2.send chunk
      rw [hres]
      generalize s.queue2.send chunk = sent at hrel ⊢
      cases hrel with
      | none => exact .none
      | some hq => exact .some ⟨rfl, hqueue1, rfl, rfl, hq, rfl, rfl, rfl, rfl, rfl⟩
    all_goals exact .none
  | timeout2 =>
    rcases htask : s.task2 with _ | chunk | _
    case receiving =>
      have hzero := hqueue1.waiting_eq_zero
      rcases hreceive : s.queue1.receive with _ | item
      · simp only [StoredSys.fire, Sys.fire, htask, hreceive, hzero.mpr hreceive]
        exact .some ⟨rfl, hqueue1, rfl, rfl, hqueue2, rfl, rfl, rfl, rfl, rfl⟩
      · rw [hreceive] at hzero
        obtain ⟨n, hn⟩ := Nat.exists_eq_succ_of_ne_zero (by simpa using hzero)
        simp only [StoredSys.fire, Sys.fire, htask, hreceive, hn]
        exact .none
    all_goals
      simp only [StoredSys.fire, Sys.fire, htask]
      exact .none
  | receive3 =>
    rcases htask : s.task3 with _ | chunk | _ <;> simp only [StoredSys.fire, Sys.fire, htask]
    case receiving =>
      obtain ⟨res, hres, hrel⟩ := hqueue2.receive
      rw [hres]
      generalize s.queue2.receive = received at hrel ⊢
      cases hrel with
      | none => exact .none
      | some hq => exact .some ⟨rfl, hqueue1, rfl, rfl, hq.2, by rw [hq.1], rfl, rfl, rfl, rfl⟩
    all_goals exact .none
  | encode3 =>
    rcases htask : s.task3 with _ | chunk | _ <;> simp only [StoredSys.fire, Sys.fire, htask]
    case holding =>
      rcases encodeChunk s.tables chunk with _ | ⟨tables, _ | w⟩
      · exact .none
      · exact .some ⟨rfl, hqueue1, rfl, rfl, hqueue2, rfl, rfl, rfl, rfl, rfl⟩
      · exact .some ⟨rfl, hqueue1, rfl, rfl, hqueue2, rfl, rfl, rfl, rfl, rfl⟩
    all_goals exact .none
  | timeout3 =>
    rcases htask : s.task3 with _ | chunk | _
    case receiving =>
      have hzero := hqueue2.waiting_eq_zero
      rcases hreceive : s.queue2.receive with _ | item
      · simp only [StoredSys.fire, Sys.fire, htask, hreceive, hzero.mpr hreceive]
        exact .some ⟨rfl, hqueue1, rfl, rfl, hqueue2, rfl, rfl, rfl, rfl, rfl⟩
      · rw [hreceive] at hzero
        obtain ⟨n, hn⟩ := Nat.exists_eq_succ_of_ne_zero (by simpa using hzero)
        simp only [StoredSys.fire, Sys.fire, htask, hreceive, hn]
        exact .none
    all_goals
      simp only [StoredSys.fire, Sys.fire, htask]
      exact .none
  | idle1 =>
    rcases htask : s.task1 with events | ⟨ev, loop, events⟩ | ⟨ev, loop, events⟩ | _ <;>
      simp only [StoredSys.fire, Sys.fire, htask]
    case finished => exact .some ⟨htask.symm, hqueue1, rfl, rfl, hqueue2, rfl, rfl, rfl, rfl, rfl⟩
    all_goals exact .none
  | idle2 =>
    rcases htask : s.task2 with _ | chunk | _ <;> simp only [StoredSys.fire, Sys.fire, htask]
    case gaveUp => exact .some ⟨rfl, hqueue1, htask.symm, rfl, hqueue2, rfl, rfl, rfl, rfl, rfl⟩
    all_goals exact .none
  | idle3 =>
    rcases htask : s.task3 with _ | chunk | _ <;> simp only [StoredSys.fire, Sys.fire, htask]
    case gaveUp => exact .some ⟨rfl, hqueue1, rfl, rfl, hqueue2, htask.symm, rfl, rfl, rfl, rfl⟩
    all_goals exact .none

section Run

variable {L : ChunkLayout} {events : List Event} {c : StoredSys} {queue1 queue2 : QueueStorage}
  {malloc1 malloc2 : ℕ → Option (Buffer UInt8)} {sizeofQueue : ℕ}

/-- The pipelines agree at the start. -/
theorem StoredSys.stores_start (events : List Event) (h1 : queue1.Holds 10 L.size [])
    (h2 : queue2.Holds 10 L.size []) :
    (StoredSys.start events queue1 queue2).Stores L (Sys.start events) :=
  ⟨rfl, h1, rfl, rfl, h2, rfl, rfl, rfl, rfl, rfl⟩

/-- **The pipeline on the queues of the kernel conserves the chunks.** With queues created by
`xQueueGenericCreate`, for any layout of a chunk, and in every state that is reached: a state of
the pipeline with lists for queues is reached too that agrees with it and enables the same
actions; no access to the storage of a queue fails; and for events of at most `256` bytes the
packets are those of the first chunks. -/
theorem storedPipeline_conserves (hmalloc1 : ∀ m b, malloc1 m = some b → b.length = m)
    (hmalloc2 : ∀ m b, malloc2 m = some b → b.length = m)
    (h1 : xQueueGenericCreate malloc1 sizeofQueue 10 L.size = some queue1)
    (h2 : xQueueGenericCreate malloc2 sizeofQueue 10 L.size = some queue2)
    (h : Reachable (StoredSys.fire L) (StoredSys.start events queue1 queue2) c) :
    (∃ s, Reachable Sys.fire (Sys.start events) s ∧ c.Stores L s ∧
      ∀ a, (c.fire L a).isSome = (s.fire a).isSome) ∧
    (∀ chunk, (L.send c.queue1 chunk).isSome ∧ (L.send c.queue2 chunk).isSome) ∧
    (L.receive c.queue1).isSome ∧ (L.receive c.queue2).isSome ∧
    ((∀ ev ∈ events, ev.Small) → ∃ all, cutEvents events = some all ∧
      c.packets.map some = (all.take c.packets.length).map packetOf) := by
  have hstart := StoredSys.stores_start events
    (xQueueGenericCreate_spec hmalloc1 h1).1 (xQueueGenericCreate_spec hmalloc2 h2).1
  obtain ⟨s, hs, hstores⟩ : ∃ s, Reachable Sys.fire (Sys.start events) s ∧ c.Stores L s := by
    refine h.simulates (R := StoredSys.Stores L) hstart fun a c c' s hR hfire => ?_
    have hrel := StoredSys.fire_rel hR a
    rw [hfire] at hrel
    generalize hs' : s.fire a = res at hrel
    cases hrel with
    | some hR' => exact Or.inr ⟨a, _, hs', hR'⟩
  have hsend : ∀ {q queue}, L.Stores q queue → ∀ chunk, (L.send q chunk).isSome := by
    intro q queue hq chunk
    obtain ⟨res, hres, -⟩ := hq.send chunk
    rw [hres, Option.isSome_some]
  have hreceive : ∀ {q queue}, L.Stores q queue → (L.receive q).isSome := by
    intro q queue hq
    obtain ⟨res, hres, -⟩ := hq.receive
    rw [hres, Option.isSome_some]
  refine ⟨⟨s, hs, hstores, fun a => ?_⟩,
    fun chunk => ⟨hsend hstores.queue1 chunk, hsend hstores.queue2 chunk⟩,
    hreceive hstores.queue1, hreceive hstores.queue2, fun hsmall => ?_⟩
  · have hrel := StoredSys.fire_rel hstores a
    generalize c.fire L a = res at hrel ⊢
    generalize s.fire a = res' at hrel ⊢
    cases hrel <;> rfl
  · obtain ⟨d, hrelays, hall⟩ := Sys.exists_relays hsmall hs
    refine ⟨_, cutEvents_eq hsmall, ?_⟩
    rw [hstores.packets, hrelays.take_eq hall, hrelays.packets]

/-- The layout of a little-endian machine, with a byte of padding at the end. -/
def ChunkLayout.littleEndian : ChunkLayout where
  size := 38
  image c := [lowByte c.occultationId, highByte c.occultationId, c.sequenceNumber, c.totalChunks,
    c.dataSize] ++ c.data ++ [0]
  read b :=
    { occultationId := UInt16.ofNat ((b.getD 0 0).toNat + 256 * (b.getD 1 0).toNat)
      sequenceNumber := b.getD 2 0
      totalChunks := b.getD 3 0
      dataSize := b.getD 4 0
      data := ((b.drop 5).take chunkDataSize).rightpad chunkDataSize 0
      length_data := by simp [List.rightpad] }
  length_image c := by simp [c.length_data, chunkDataSize]
  read_image c := by
    obtain ⟨occultationId, sequenceNumber, totalChunks, dataSize, data, hdata⟩ := c
    have hid : UInt16.ofNat ((lowByte occultationId).toNat + 256 * (highByte occultationId).toNat) =
        occultationId := by
      rw [Nat.add_comm, ofNat_highByte_lowByte]
    simp [hid, List.rightpad, hdata]

/-- A step of the one pipeline is answered by the other. -/
theorem StoredSys.Stores.exists_fire {s s' : Sys} (h : c.Stores L s) {a : Action}
    (hfire : s.fire a = some s') : ∃ c', c.fire L a = some c' ∧ c'.Stores L s' := by
  have hrel := StoredSys.fire_rel h a
  rw [hfire] at hrel
  generalize hc : c.fire L a = res at hrel
  cases hrel with
  | some hR => exact ⟨_, rfl, hR⟩

/-- The events of the program, after task 1 has sent the first chunk. -/
theorem storedPipeline_conserves_fakeEvents : ∃ (c : StoredSys) (s : Sys),
    c.queue1.uxMessagesWaiting = 1 ∧ Reachable Sys.fire (Sys.start fakeEvents) s ∧
      c.Stores .littleEndian s := by
  obtain ⟨q, hq⟩ : ∃ q, xQueueGenericCreate (fun m => some (fresh m)) 80 10
    ChunkLayout.littleEndian.size = some q := ⟨_, rfl⟩
  have hmalloc : ∀ (m : ℕ) (b : Buffer UInt8), some (fresh m) = some b → b.length = m :=
    fun m b h => Option.some.inj h ▸ length_fresh m
  have hempty := (xQueueGenericCreate_spec hmalloc hq).1
  obtain ⟨s₁, s₂, h₁, h₂, hone⟩ : ∃ s₁ s₂, (Sys.start fakeEvents).fire .nextEvent = some s₁ ∧
    s₁.fire .send1 = some s₂ ∧ s₂.queue1.items.length = 1 := ⟨_, _, rfl, rfl, rfl⟩
  obtain ⟨c₁, hc₁, hstores₁⟩ := (StoredSys.stores_start fakeEvents hempty hempty).exists_fire h₁
  obtain ⟨c₂, hc₂, hstores₂⟩ := hstores₁.exists_fire h₂
  obtain ⟨⟨s, hs, hstores, -⟩, -⟩ := storedPipeline_conserves hmalloc hmalloc hq hq
    ((Reachable.init.step hc₁).step hc₂)
  refine ⟨c₂, s, ?_, hs, hstores⟩
  rw [hstores₂.queue1.waiting_eq, List.length_map, hone]

end Run

end CubesatPipeline
