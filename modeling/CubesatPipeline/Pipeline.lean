import CubesatPipeline.EncodeChunk
import CubesatPipeline.Lib.BoundedQueue
import CubesatPipeline.Lib.Transition

/-!
# The pipeline

The three tasks as one system, with a queue between any two that follow each other. An
action is what a task does between two points where another task may run, so a sequence of
actions is a schedule, and any sequence is allowed in which every action is enabled:
sending needs room in the queue, receiving an item, and a receive may time out only when
the queue is empty. When the timeouts fire is left open here.

What the pipeline is for is said by `Transition.Delivery`: the chunks of all events are
handed over one by one, in the order in which the first task cuts them. The pipeline
simulates that (`CubesatPipeline.Sys.relays_fire`): building a packet hands over a chunk,
and every other action leaves what is pending as it is – the chunk the third task holds,
the second queue, the chunk the second task holds, the first queue, and what the first
task has not sent, in that order. `CubesatPipeline.pipeline_conserves` follows for every
schedule.
-/

namespace CubesatPipeline

open BoundedQueue EmitLoop Transition

/-! ### The code -/

/-- Where `vTask1_PayloadReader` is: at the head of the loop over the events, at the head of
the loop over the chunks of an event – which is also where it waits to send the next – in
the delay after a chunk, or in the endless loop at the end. -/
inductive Task1 where
  | next (events : List Event)
  | sending (ev : Event) (loop : ChunkLoop ev.payload) (events : List Event)
  | delaying (ev : Event) (loop : ChunkLoop ev.payload) (events : List Event)
  | finished

/-- Where `vTask2_FifoManager` or `vTask3_NGHamEncoder` is: waiting for a chunk, busy with
one, or in the endless loop after the last. -/
inductive Consumer where
  | receiving
  | holding (chunk : PayloadChunk)
  | gaveUp

/-- A queue of the program, created for `10` items. -/
abbrev ChunkQueue := Queue PayloadChunk 10

/-- **The state of the pipeline**: the tasks with their counters, the queues, the tables of
the encoder, the packets printed, and whether the branch for a payload that is too large
was ever taken. The counters are taken to be wide enough. -/
structure Sys where
  task1 : Task1
  queue1 : ChunkQueue
  task2 : Consumer
  totalForwarded : ℕ
  queue2 : ChunkQueue
  task3 : Consumer
  totalEncoded : ℕ
  tables : GfTables
  packets : List (List UInt8)
  tooLarge : Bool

/-- Program start. -/
def Sys.start (events : List Event) : Sys where
  task1 := .next events
  queue1 := .empty
  task2 := .receiving
  totalForwarded := 0
  queue2 := .empty
  task3 := .receiving
  totalEncoded := 0
  tables := .start
  packets := []
  tooLarge := false

/-- What a task can do next. -/
inductive Action where
  /-- Task 1 turns to the next event, or to the loop at the end. -/
  | nextEvent
  /-- Task 1 sends the next chunk and starts its delay. -/
  | send1
  /-- Task 1 leaves the loop over the chunks. -/
  | endEvent
  /-- The delay of task 1 ends. -/
  | wake1
  /-- Task 2 receives a chunk. -/
  | receive2
  /-- Task 2 forwards the chunk it holds. -/
  | send2
  /-- The receive of task 2 times out. -/
  | timeout2
  /-- Task 3 receives a chunk. -/
  | receive3
  /-- Task 3 serializes and encodes the chunk it holds. -/
  | encode3
  /-- The receive of task 3 times out. -/
  | timeout3
  /-- Task 1 takes another turn of its endless loop. -/
  | idle1
  /-- Task 2 takes another turn of its endless loop. -/
  | idle2
  /-- Task 3 takes another turn of its endless loop. -/
  | idle3

/-- **One action of the pipeline**, if it is enabled. -/
def Sys.fire : Action → Sys → Option Sys
  | .nextEvent, s =>
    match s.task1 with
    | .next [] => some { s with task1 := .finished }
    | .next (ev :: events) => some { s with task1 := .sending ev ev.enter events }
    | _ => none
  | .send1, s =>
    match s.task1 with
    | .sending ev loop events => do
      let turn ← ev.turn loop
      let queue1 ← s.queue1.send turn.1
      return { s with task1 := .delaying ev turn.2 events, queue1 := queue1 }
    | _ => none
  | .endEvent, s =>
    match s.task1 with
    | .sending ev loop events =>
      match ev.turn loop with
      | none => some { s with task1 := .next events }
      | some _ => none
    | _ => none
  | .wake1, s =>
    match s.task1 with
    | .delaying ev loop events => some { s with task1 := .sending ev loop events }
    | _ => none
  | .receive2, s =>
    match s.task2 with
    | .receiving => do
      let item ← s.queue1.receive
      return { s with
        task2 := .holding item.1, queue1 := item.2, totalForwarded := s.totalForwarded + 1 }
    | _ => none
  | .send2, s =>
    match s.task2 with
    | .holding chunk => do
      let queue2 ← s.queue2.send chunk
      return { s with task2 := .receiving, queue2 := queue2 }
    | _ => none
  | .timeout2, s =>
    match s.task2, s.queue1.receive with
    | .receiving, none => some { s with task2 := .gaveUp }
    | _, _ => none
  | .receive3, s =>
    match s.task3 with
    | .receiving => do
      let item ← s.queue2.receive
      return { s with
        task3 := .holding item.1, queue2 := item.2, totalEncoded := s.totalEncoded + 1 }
    | _ => none
  | .encode3, s =>
    match s.task3 with
    | .holding chunk => do
      let res ← encodeChunk s.tables chunk
      match res.2 with
      | none => return { s with task3 := .receiving, tables := res.1, tooLarge := true }
      | some w =>
        return { s with task3 := .receiving, tables := res.1, packets := s.packets ++ [w] }
    | _ => none
  | .timeout3, s =>
    match s.task3, s.queue2.receive with
    | .receiving, none => some { s with task3 := .gaveUp }
    | _, _ => none
  | .idle1, s =>
    match s.task1 with
    | .finished => some s
    | _ => none
  | .idle2, s =>
    match s.task2 with
    | .gaveUp => some s
    | _ => none
  | .idle3, s =>
    match s.task3 with
    | .gaveUp => some s
    | _ => none

/-! ### What an action does -/

/-- **What each action does**, with what it needs. -/
inductive Sys.Step (s : Sys) : Action → Sys → Prop
  | finish (htask : s.task1 = .next []) : Step s .nextEvent { s with task1 := .finished }
  | nextEvent {ev : Event} {events : List Event} (htask : s.task1 = .next (ev :: events)) :
      Step s .nextEvent { s with task1 := .sending ev ev.enter events }
  | send1 {ev : Event} {loop loop' : ChunkLoop ev.payload} {events : List Event}
      {chunk : PayloadChunk} {queue1 : ChunkQueue} (htask : s.task1 = .sending ev loop events)
      (hturn : ev.turn loop = some (chunk, loop'))
      (hqueue : queue1.items = s.queue1.items ++ [chunk]) :
      Step s .send1 { s with task1 := .delaying ev loop' events, queue1 := queue1 }
  | endEvent {ev : Event} {loop : ChunkLoop ev.payload} {events : List Event}
      (htask : s.task1 = .sending ev loop events) (hexit : ev.turn loop = none) :
      Step s .endEvent { s with task1 := .next events }
  | wake1 {ev : Event} {loop : ChunkLoop ev.payload} {events : List Event}
      (htask : s.task1 = .delaying ev loop events) :
      Step s .wake1 { s with task1 := .sending ev loop events }
  | receive2 {chunk : PayloadChunk} {queue1 : ChunkQueue} (htask : s.task2 = .receiving)
      (hqueue : s.queue1.items = chunk :: queue1.items) :
      Step s .receive2 { s with
        task2 := .holding chunk, queue1 := queue1, totalForwarded := s.totalForwarded + 1 }
  | send2 {chunk : PayloadChunk} {queue2 : ChunkQueue} (htask : s.task2 = .holding chunk)
      (hqueue : queue2.items = s.queue2.items ++ [chunk]) :
      Step s .send2 { s with task2 := .receiving, queue2 := queue2 }
  | timeout2 (htask : s.task2 = .receiving) (hqueue : s.queue1.items = []) :
      Step s .timeout2 { s with task2 := .gaveUp }
  | receive3 {chunk : PayloadChunk} {queue2 : ChunkQueue} (htask : s.task3 = .receiving)
      (hqueue : s.queue2.items = chunk :: queue2.items) :
      Step s .receive3 { s with
        task3 := .holding chunk, queue2 := queue2, totalEncoded := s.totalEncoded + 1 }
  | encode3 {chunk : PayloadChunk} {tables : GfTables} {w : List UInt8}
      (htask : s.task3 = .holding chunk)
      (hencode : encodeChunk s.tables chunk = some (tables, some w)) :
      Step s .encode3 { s with
        task3 := .receiving, tables := tables, packets := s.packets ++ [w] }
  | tooLarge3 {chunk : PayloadChunk} {tables : GfTables} (htask : s.task3 = .holding chunk)
      (hencode : encodeChunk s.tables chunk = some (tables, none)) :
      Step s .encode3 { s with task3 := .receiving, tables := tables, tooLarge := true }
  | timeout3 (htask : s.task3 = .receiving) (hqueue : s.queue2.items = []) :
      Step s .timeout3 { s with task3 := .gaveUp }
  | idle1 (htask : s.task1 = .finished) : Step s .idle1 s
  | idle2 (htask : s.task2 = .gaveUp) : Step s .idle2 s
  | idle3 (htask : s.task3 = .gaveUp) : Step s .idle3 s

/-- **An action that is enabled does what it says.** -/
theorem Sys.fire_step {a : Action} {s s' : Sys} (h : s.fire a = some s') : s.Step a s' := by
  cases a with
  | nextEvent =>
    rcases htask : s.task1 with (_ | ⟨ev, events⟩) | ⟨ev, loop, events⟩ | ⟨ev, loop, events⟩ | _ <;>
      simp only [Sys.fire, htask, Option.some.injEq, reduceCtorEq] at h
    · exact h ▸ .finish htask
    · exact h ▸ .nextEvent htask
  | send1 =>
    rcases htask : s.task1 with events | ⟨ev, loop, events⟩ | ⟨ev, loop, events⟩ | _ <;>
      simp only [Sys.fire, htask, reduceCtorEq] at h
    obtain ⟨⟨chunk, loop'⟩, hturn, h⟩ := Option.bind_eq_some_iff.mp h
    obtain ⟨queue1, hsend, h⟩ := Option.bind_eq_some_iff.mp h
    exact Option.some.inj h ▸ .send1 htask hturn (Queue.send_eq_some hsend)
  | endEvent =>
    rcases htask : s.task1 with events | ⟨ev, loop, events⟩ | ⟨ev, loop, events⟩ | _ <;>
      simp only [Sys.fire, htask, reduceCtorEq] at h
    rcases hturn : ev.turn loop with _ | turn <;>
      simp only [hturn, Option.some.injEq, reduceCtorEq] at h
    exact h ▸ .endEvent htask hturn
  | wake1 =>
    rcases htask : s.task1 with events | ⟨ev, loop, events⟩ | ⟨ev, loop, events⟩ | _ <;>
      simp only [Sys.fire, htask, Option.some.injEq, reduceCtorEq] at h
    exact h ▸ .wake1 htask
  | receive2 =>
    rcases htask : s.task2 with _ | chunk | _ <;>
      simp only [Sys.fire, htask, reduceCtorEq] at h
    obtain ⟨⟨chunk, queue1⟩, hreceive, h⟩ := Option.bind_eq_some_iff.mp h
    exact Option.some.inj h ▸ .receive2 htask (Queue.receive_eq_some hreceive)
  | send2 =>
    rcases htask : s.task2 with _ | chunk | _ <;>
      simp only [Sys.fire, htask, reduceCtorEq] at h
    obtain ⟨queue2, hsend, h⟩ := Option.bind_eq_some_iff.mp h
    exact Option.some.inj h ▸ .send2 htask (Queue.send_eq_some hsend)
  | timeout2 =>
    rcases htask : s.task2 with _ | chunk | _ <;>
      rcases hqueue : s.queue1.receive with _ | item <;>
      simp only [Sys.fire, htask, hqueue, Option.some.injEq, reduceCtorEq] at h
    exact h ▸ .timeout2 htask (Queue.receive_eq_none hqueue)
  | receive3 =>
    rcases htask : s.task3 with _ | chunk | _ <;>
      simp only [Sys.fire, htask, reduceCtorEq] at h
    obtain ⟨⟨chunk, queue2⟩, hreceive, h⟩ := Option.bind_eq_some_iff.mp h
    exact Option.some.inj h ▸ .receive3 htask (Queue.receive_eq_some hreceive)
  | encode3 =>
    rcases htask : s.task3 with _ | chunk | _ <;>
      simp only [Sys.fire, htask, reduceCtorEq] at h
    obtain ⟨⟨tables, packet⟩, hencode, h⟩ := Option.bind_eq_some_iff.mp h
    cases packet with
    | none => exact Option.some.inj h ▸ .tooLarge3 htask hencode
    | some w => exact Option.some.inj h ▸ .encode3 htask hencode
  | timeout3 =>
    rcases htask : s.task3 with _ | chunk | _ <;>
      rcases hqueue : s.queue2.receive with _ | item <;>
      simp only [Sys.fire, htask, hqueue, Option.some.injEq, reduceCtorEq] at h
    exact h ▸ .timeout3 htask (Queue.receive_eq_none hqueue)
  | idle1 =>
    rcases htask : s.task1 with events | ⟨ev, loop, events⟩ | ⟨ev, loop, events⟩ | _ <;>
      simp only [Sys.fire, htask, Option.some.injEq, reduceCtorEq] at h
    exact h ▸ .idle1 htask
  | idle2 =>
    rcases htask : s.task2 with _ | chunk | _ <;>
      simp only [Sys.fire, htask, Option.some.injEq, reduceCtorEq] at h
    exact h ▸ .idle2 htask
  | idle3 =>
    rcases htask : s.task3 with _ | chunk | _ <;>
      simp only [Sys.fire, htask, Option.some.injEq, reduceCtorEq] at h
    exact h ▸ .idle3 htask

/-! ### What is on its way -/

/-- The chunk a task holds. -/
def Consumer.held : Consumer → List PayloadChunk
  | .holding chunk => [chunk]
  | _ => []

@[simp] theorem Consumer.held_receiving : Consumer.receiving.held = [] := rfl

@[simp] theorem Consumer.held_holding (chunk : PayloadChunk) :
    (Consumer.holding chunk).held = [chunk] := rfl

@[simp] theorem Consumer.held_gaveUp : Consumer.gaveUp.held = [] := rfl

/-- The chunks that the first task has not sent. -/
def Task1.unsent : Task1 → Option (List PayloadChunk)
  | .next events => cutEvents events
  | .sending ev loop events | .delaying ev loop events => do
    return (← run ev.turn chunkFuel loop) ++ (← cutEvents events)
  | .finished => some []

/-- The chunks between the first task and the packets, the oldest first. -/
def Sys.inFlight (s : Sys) : List PayloadChunk :=
  s.task3.held ++ s.queue2.items ++ s.task2.held ++ s.queue1.items

/-- **A state of the pipeline relays a delivery**: what is pending is in flight or unsent,
and what was delivered are the chunks of the packets. The counters are ahead of the work by
what the tasks hold. -/
structure Sys.Relays (s : Sys) (d : Delivery PayloadChunk) : Prop where
  pending : ∃ unsent, s.task1.unsent = some unsent ∧ d.pending = s.inFlight ++ unsent
  fits : ∀ c ∈ d.pending, c.Fits
  packets : d.delivered.map packetOf = s.packets.map some
  tables : s.tables.Usable
  tooLarge : s.tooLarge = false
  forwarded : s.totalForwarded =
    s.packets.length + s.task3.held.length + s.queue2.items.length + s.task2.held.length
  encoded : s.totalEncoded = s.packets.length + s.task3.held.length

/-- The chunks of the rest of an event come before those of the later events. -/
theorem Task1.unsent_eq_some {ev : Event} {loop : ChunkLoop ev.payload} {events : List Event}
    {unsent : List PayloadChunk} :
    (Task1.sending ev loop events).unsent = some unsent ↔
      ∃ l rest, run ev.turn chunkFuel loop = some l ∧ cutEvents events = some rest ∧
        unsent = l ++ rest := by
  constructor
  · intro h
    obtain ⟨l, hl, h⟩ := Option.bind_eq_some_iff.mp h
    obtain ⟨rest, hrest, h⟩ := Option.bind_eq_some_iff.mp h
    exact ⟨l, rest, hl, hrest, (Option.some.inj h).symm⟩
  · rintro ⟨l, rest, hl, hrest, rfl⟩
    rw [Task1.unsent, hl, hrest]
    rfl

/-- **The start relays the delivery of all chunks.** -/
theorem Sys.relays_start {events : List Event} {all : List PayloadChunk}
    (hcut : cutEvents events = some all) (hfits : ∀ c ∈ all, c.Fits) :
    (Sys.start events).Relays (Delivery.start all) where
  pending := ⟨all, hcut, rfl⟩
  fits := hfits
  packets := rfl
  tables := Or.inr rfl
  tooLarge := rfl
  forwarded := rfl
  encoded := rfl

section Encode

variable {s : Sys} {d : Delivery PayloadChunk} {chunk : PayloadChunk}

/-- The chunk that task 3 holds fits, so it has a packet. -/
theorem Sys.Relays.encodes (h : s.Relays d) (htask : s.task3 = .holding chunk) :
    ∃ t w, encodeChunk s.tables chunk = some (t, some w) ∧ packetOf chunk = some w ∧
      t.Usable := by
  obtain ⟨unsent, -, hpending⟩ := h.pending
  have hmem : chunk ∈ d.pending := by
    rw [hpending]
    simp [Sys.inFlight, htask]
  exact encodeChunk_eq h.tables (h.fits chunk hmem)

/-- **Building a packet hands over the chunk that task 3 holds.** -/
theorem Sys.Relays.encode {tables : GfTables} {w : List UInt8} (h : s.Relays d)
    (htask : s.task3 = .holding chunk)
    (hencode : encodeChunk s.tables chunk = some (tables, some w)) :
    ∃ d', Delivery.deliver () d = some d' ∧ Sys.Relays
      { s with task3 := .receiving, tables := tables, packets := s.packets ++ [w] } d' := by
  obtain ⟨t', w', henc', hpacket, ht'⟩ := h.encodes htask
  rw [hencode] at henc'
  obtain ⟨rfl, hw⟩ := Prod.mk.inj (Option.some.inj henc')
  obtain rfl := Option.some.inj hw
  obtain ⟨⟨unsent, hunsent, hpending⟩, hfits, hpackets, -, htoo, hfwd, henc⟩ := h
  -- what task 3 holds is in front of everything else
  obtain ⟨rest, hrest⟩ : ∃ rest, rest = s.queue2.items ++ s.task2.held ++ s.queue1.items ++
    unsent := ⟨_, rfl⟩
  have hnext : d.pending = chunk :: rest := by
    rw [hpending, hrest]
    simp [Sys.inFlight, htask]
  rw [hnext] at hfits
  obtain ⟨delivered, pending⟩ := d
  obtain rfl : pending = chunk :: rest := hnext
  refine ⟨⟨delivered ++ [chunk], rest⟩, rfl, ⟨unsent, hunsent, ?_⟩,
    (List.forall_mem_cons.mp hfits).2, ?_, ht', htoo, ?_, ?_⟩
  · rw [hrest]
    simp [Sys.inFlight]
  · change (delivered ++ [chunk]).map packetOf = (s.packets ++ [w]).map some
    rw [List.map_append, List.map_append, hpackets, List.map_singleton, hpacket,
      List.map_singleton]
  · simp only [htask, Consumer.held_receiving, Consumer.held_holding, List.length_nil,
      List.length_singleton, List.length_append] at hfwd ⊢
    omega
  · simpa [htask] using henc

end Encode

/-- **Every action keeps the delivery, or hands over its next chunk.** -/
theorem Sys.relays_fire {a : Action} {s s' : Sys} {d : Delivery PayloadChunk} (h : s.Relays d)
    (hfire : s.fire a = some s') :
    s'.Relays d ∨ ∃ d', Delivery.deliver () d = some d' ∧ s'.Relays d' := by
  have hrelays := h
  obtain ⟨⟨unsent, hunsent, hpending⟩, hfits, hpackets, htables, htoo, hfwd, henc⟩ := h
  cases Sys.fire_step hfire with
  | finish htask =>
    rw [htask] at hunsent
    exact Or.inl ⟨⟨unsent, hunsent, hpending⟩, hfits, hpackets, htables, htoo, hfwd, henc⟩
  | @nextEvent ev events htask =>
    rw [htask] at hunsent
    exact Or.inl ⟨⟨unsent, hunsent, hpending⟩, hfits, hpackets, htables, htoo, hfwd, henc⟩
  | @send1 ev loop loop' events chunk queue1 htask hturn hqueue =>
    rw [htask, Task1.unsent_eq_some] at hunsent
    obtain ⟨l, rest, hl, hrest, rfl⟩ := hunsent
    obtain ⟨l', hl', rfl⟩ := run_of_turn hl hturn
    refine Or.inl ⟨⟨l' ++ rest, Task1.unsent_eq_some.mpr ⟨l', rest, hl', hrest, rfl⟩, ?_⟩, hfits,
      hpackets, htables, htoo, hfwd, henc⟩
    rw [hpending]
    simp [Sys.inFlight, hqueue]
  | @endEvent ev loop events htask hexit =>
    rw [htask, Task1.unsent_eq_some] at hunsent
    obtain ⟨l, rest, hl, hrest, rfl⟩ := hunsent
    obtain rfl : [] = l := Option.some.inj ((run_of_exit hexit _).symm.trans hl)
    exact Or.inl ⟨⟨rest, hrest, hpending⟩, hfits, hpackets, htables, htoo, hfwd, henc⟩
  | @wake1 ev loop events htask =>
    rw [htask] at hunsent
    exact Or.inl ⟨⟨unsent, hunsent, hpending⟩, hfits, hpackets, htables, htoo, hfwd, henc⟩
  | @receive2 chunk queue1 htask hqueue =>
    refine Or.inl ⟨⟨unsent, hunsent, ?_⟩, hfits, hpackets, htables, htoo, ?_, henc⟩
    · rw [hpending]
      simp [Sys.inFlight, htask, hqueue]
    · simpa [htask] using hfwd
  | @send2 chunk queue2 htask hqueue =>
    refine Or.inl ⟨⟨unsent, hunsent, ?_⟩, hfits, hpackets, htables, htoo, ?_, henc⟩
    · rw [hpending]
      simp [Sys.inFlight, htask, hqueue]
    · simp only [htask, hqueue, Consumer.held_receiving, Consumer.held_holding, List.length_nil,
        List.length_append, List.length_cons] at hfwd ⊢
      omega
  | timeout2 htask hqueue =>
    refine Or.inl ⟨⟨unsent, hunsent, ?_⟩, hfits, hpackets, htables, htoo, ?_, henc⟩
    · rw [hpending]
      simp [Sys.inFlight, htask]
    · simpa [htask] using hfwd
  | @receive3 chunk queue2 htask hqueue =>
    refine Or.inl ⟨⟨unsent, hunsent, ?_⟩, hfits, hpackets, htables, htoo, ?_, ?_⟩
    · rw [hpending]
      simp [Sys.inFlight, htask, hqueue]
    · simp only [htask, hqueue, Consumer.held_receiving, Consumer.held_holding, List.length_nil,
        List.length_cons] at hfwd ⊢
      omega
    · simpa [htask] using henc
  | @encode3 chunk tables w htask hencode =>
    exact Or.inr (hrelays.encode htask hencode)
  | @tooLarge3 chunk tables htask hencode =>
    obtain ⟨t', w', henc', -, -⟩ := hrelays.encodes htask
    rw [hencode] at henc'
    exact absurd (Prod.mk.inj (Option.some.inj henc')).2 (Option.some_ne_none w').symm
  | timeout3 htask hqueue =>
    refine Or.inl ⟨⟨unsent, hunsent, ?_⟩, hfits, hpackets, htables, htoo, ?_, ?_⟩
    · rw [hpending]
      simp [Sys.inFlight, htask]
    · simpa [htask] using hfwd
    · simpa [htask] using henc
  | idle1 htask => exact Or.inl hrelays
  | idle2 htask => exact Or.inl hrelays
  | idle3 htask => exact Or.inl hrelays

/-- **Every state that the pipeline reaches relays a delivery of all chunks.** -/
theorem Sys.exists_relays {events : List Event} (hsmall : ∀ ev ∈ events, ev.Small) {s : Sys}
    (h : Reachable Sys.fire (Sys.start events) s) :
    ∃ d, s.Relays d ∧ d.delivered ++ d.pending = events.flatMap Event.chunks := by
  have hfits : ∀ c ∈ events.flatMap Event.chunks, c.Fits := fun c hc => fits_of_mem_cut hc
  obtain ⟨d, hd, hrelays⟩ : ∃ d, Reachable Delivery.deliver
      (Delivery.start (events.flatMap Event.chunks)) d ∧ s.Relays d := by
    refine h.simulates (Sys.relays_start (cutEvents_eq hsmall) hfits) fun a s s' d hR hfire => ?_
    rcases Sys.relays_fire hR hfire with hstay | hdeliver
    · exact Or.inl hstay
    · exact Or.inr ⟨(), hdeliver⟩
  exact ⟨d, hrelays, Delivery.append_eq hd⟩

/-- What is delivered is the first of all chunks, as many as there are packets. -/
theorem Sys.Relays.take_eq {s : Sys} {d : Delivery PayloadChunk} {all : List PayloadChunk}
    (h : s.Relays d) (hall : d.delivered ++ d.pending = all) :
    all.take s.packets.length = d.delivered := by
  have hlengths := congrArg List.length h.packets
  rw [List.length_map, List.length_map] at hlengths
  rw [← hall]
  exact List.take_left' hlengths

/-- **The pipeline never loses, duplicates, reorders or alters a chunk.** For events of at
most `256` bytes, and in every state that is reached under any schedule and any choice of
timeouts:

* the chunks of all events are those of the packets, the one task 3 holds, the second
  queue, the one task 2 holds, the first queue, and those not sent, in that order;
* the packets are the packets of the first of them;
* no payload was ever too large, and the chunk task 3 holds has a packet;
* the counters are ahead of the packets by what is held and queued behind them, and no
  queue holds more than `10` chunks. -/
theorem pipeline_conserves {events : List Event} (hsmall : ∀ ev ∈ events, ev.Small) {s : Sys}
    (h : Reachable Sys.fire (Sys.start events) s) :
    ∃ all unsent, cutEvents events = some all ∧ s.task1.unsent = some unsent ∧
      all = all.take s.packets.length ++ s.task3.held ++ s.queue2.items ++ s.task2.held ++
        s.queue1.items ++ unsent ∧
      (all.take s.packets.length).map packetOf = s.packets.map some ∧
      s.tooLarge = false ∧
      (∀ chunk, s.task3 = .holding chunk →
        ∃ t w, encodeChunk s.tables chunk = some (t, some w)) ∧
      s.totalForwarded = s.packets.length + s.task3.held.length + s.queue2.items.length +
        s.task2.held.length ∧
      s.totalEncoded = s.packets.length + s.task3.held.length ∧
      s.queue1.items.length ≤ 10 ∧ s.queue2.items.length ≤ 10 := by
  obtain ⟨d, hrelays, hall⟩ := Sys.exists_relays hsmall h
  obtain ⟨unsent, hunsent, hpending⟩ := hrelays.pending
  have htake := hrelays.take_eq hall
  refine ⟨_, unsent, cutEvents_eq hsmall, hunsent, ?_, ?_, hrelays.tooLarge, fun chunk hchunk => ?_,
    hrelays.forwarded, hrelays.encoded, s.queue1.bounded, s.queue2.bounded⟩
  · rw [htake, ← hall, hpending]
    simp [Sys.inFlight]
  · rw [htake]
    exact hrelays.packets
  · obtain ⟨t, w, henc, -, -⟩ := hrelays.encodes hchunk
    exact ⟨t, w, henc⟩

/-- The events of the program, after task 2 has received the first chunk. -/
theorem pipeline_conserves_fakeEvents : ∃ (s : Sys) (all unsent : List PayloadChunk),
    s.totalForwarded = 1 ∧ cutEvents fakeEvents = some all ∧ s.task1.unsent = some unsent ∧
      all = all.take s.packets.length ++ s.task3.held ++ s.queue2.items ++ s.task2.held ++
        s.queue1.items ++ unsent := by
  obtain ⟨s₁, s₂, s, h₁, h₂, h₃, hone⟩ : ∃ s₁ s₂ s,
    (Sys.start fakeEvents).fire .nextEvent = some s₁ ∧ s₁.fire .send1 = some s₂ ∧
      s₂.fire .receive2 = some s ∧ s.totalForwarded = 1 := ⟨_, _, _, rfl, rfl, rfl, rfl⟩
  have hsmall : ∀ ev ∈ fakeEvents, ev.Small := by decide
  obtain ⟨all, unsent, hcut, hunsent, hsplit, -⟩ :=
    pipeline_conserves hsmall (((Reachable.init.step h₁).step h₂).step h₃)
  exact ⟨s, all, unsent, hone, hcut, hunsent, hsplit⟩

end CubesatPipeline
