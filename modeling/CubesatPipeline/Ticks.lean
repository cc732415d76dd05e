import CubesatPipeline.Pipeline

/-!
# The pipeline in time

The pipeline with the delays and the timeouts of its tasks, in ticks. A task that can do
something does it before time passes: a tick happens only when no task has an action left
(`CubesatPipeline.Timed.fire`), and among the tasks that have one any may go first. Every
run is a run of `CubesatPipeline.Sys` with its timeouts at certain moments
(`CubesatPipeline.Timed.reachable_sys`), so what was proved for any choice of the timeouts
holds here.

New is that neither consumer gives up while there is something to come
(`CubesatPipeline.no_early_giveUp`). The argument is the invariant
`CubesatPipeline.Timed.Punctual`: a chunk runs through to its packet in the tick in which
it was sent, so at any later tick of the delay the pipeline is empty and both consumers
have been waiting exactly as long as the delay has lasted – at most `50` ticks out of
`3000`. Events without chunks take no time at all.
-/

namespace CubesatPipeline

open BoundedQueue EmitLoop Transition

/-! ### The code -/

/-- `configTICK_RATE_HZ`. -/
def configTickRateHz : ℕ := 1000

/-- `pdMS_TO_TICKS`. -/
def pdMsToTicks (ms : ℕ) : ℕ := ms * configTickRateHz / 1000

/-- **The state of the pipeline in time**: with each task, the ticks that are left of its
delay or its receive. -/
structure Timed where
  sys : Sys
  timer1 : ℕ
  timer2 : ℕ
  timer3 : ℕ

/-- Program start: tasks 2 and 3 go into their first receive. -/
def Timed.start (events : List Event) : Timed where
  sys := .start events
  timer1 := 0
  timer2 := pdMsToTicks 3000
  timer3 := pdMsToTicks 3000

/-- Whether the time for an action has come. -/
def Timed.due (t : Timed) : Action → Bool
  | .wake1 | .idle1 => t.timer1 == 0
  | .timeout2 | .idle2 => t.timer2 == 0
  | .timeout3 | .idle3 => t.timer3 == 0
  | _ => true

/-- The timer that an action starts: the delay of task 1 after a chunk, the next receive of
task 2 or 3, and the delay in an endless loop. -/
def Timed.rearm (t : Timed) : Action → Timed
  | .nextEvent =>
    match t.sys.task1 with
    | .finished => { t with timer1 := pdMsToTicks 1000 }
    | _ => t
  | .send1 => { t with timer1 := pdMsToTicks 50 }
  | .send2 => { t with timer2 := pdMsToTicks 3000 }
  | .encode3 => { t with timer3 := pdMsToTicks 3000 }
  | .timeout2 | .idle2 => { t with timer2 := pdMsToTicks 1000 }
  | .timeout3 | .idle3 => { t with timer3 := pdMsToTicks 1000 }
  | .idle1 => { t with timer1 := pdMsToTicks 1000 }
  | _ => t

/-- An action of a task, when it is due. -/
def Timed.act (t : Timed) (a : Action) : Option Timed :=
  if t.due a then (t.sys.fire a).map fun sys => Timed.rearm { t with sys := sys } a else none

/-- All actions. -/
def Action.all : List Action :=
  [.nextEvent, .send1, .endEvent, .wake1, .receive2, .send2, .timeout2, .receive3, .encode3,
    .timeout3, .idle1, .idle2, .idle3]

/-- A task can run. -/
def Timed.runnable (t : Timed) : Bool := Action.all.any fun a => (t.act a).isSome

/-- The passing of a tick. -/
def Timed.tick (t : Timed) : Timed :=
  { t with timer1 := t.timer1 - 1, timer2 := t.timer2 - 1, timer3 := t.timer3 - 1 }

/-- **One step in time**: an action of a task, or a tick if no task can run. -/
def Timed.fire : Option Action → Timed → Option Timed
  | some a, t => t.act a
  | none, t => if t.runnable then none else some t.tick

/-! ### Time only restricts the schedules -/

theorem Action.mem_all (a : Action) : a ∈ Action.all := by
  cases a <;> simp [Action.all]

theorem Timed.sys_rearm (t : Timed) (a : Action) : (t.rearm a).sys = t.sys := by
  cases a with
  | nextEvent =>
    rw [Timed.rearm]
    split <;> rfl
  | _ => rfl

/-- An action in time is an action of the pipeline that is due. -/
theorem Timed.act_eq_some {t t' : Timed} {a : Action} (h : t.act a = some t') :
    t.due a = true ∧ ∃ sys, t.sys.fire a = some sys ∧ t' = Timed.rearm { t with sys := sys } a := by
  rw [Timed.act] at h
  split_ifs at h with hdue
  obtain ⟨sys, hfire, rfl⟩ := Option.map_eq_some_iff.mp h
  exact ⟨hdue, sys, hfire, rfl⟩

/-- Where time passes, no due action is enabled. -/
theorem Timed.fire_eq_none {t : Timed} (h : t.runnable = false) {a : Action}
    (hdue : t.due a = true) : t.sys.fire a = none := by
  have hact := List.any_eq_false.mp h a a.mem_all
  rw [Timed.act, if_pos hdue] at hact
  simpa using hact

/-- **A run in time is a run of the pipeline.** -/
theorem Timed.reachable_sys {events : List Event} {t : Timed}
    (h : Reachable Timed.fire (Timed.start events) t) :
    Reachable Sys.fire (Sys.start events) t.sys := by
  obtain ⟨s, hs, rfl⟩ : ∃ s, Reachable Sys.fire (Sys.start events) s ∧ t.sys = s := by
    refine h.simulates (R := fun t s => t.sys = s) rfl ?_
    rintro (_ | a) t t' s rfl hfire
    · rw [Timed.fire] at hfire
      split_ifs at hfire
      obtain rfl := Option.some.inj hfire
      exact Or.inl rfl
    · obtain ⟨-, sys, hsys, rfl⟩ := Timed.act_eq_some hfire
      exact Or.inr ⟨a, sys, hsys, Timed.sys_rearm _ _⟩
  exact hs

/-! ### The invariant -/

/-- The ticks that are left of the delay after a chunk, and `0` outside of it. -/
def Timed.delay (t : Timed) : ℕ :=
  match t.sys.task1 with
  | .delaying _ _ _ => t.timer1
  | _ => 0

/-- **Both consumers are in time.** As long as the first task has not finished, neither has
given up, and a receive that waits for it has `2950` ticks left when the delay ends. -/
structure Timed.Punctual (t : Timed) : Prop where
  /-- Chunks are in flight only in the tick in which one was sent. -/
  drained : t.sys.inFlight = [] ∨ t.delay = pdMsToTicks 50
  delay : t.delay ≤ pdMsToTicks 50
  working2 : t.sys.task1 ≠ .finished → t.sys.task2 ≠ .gaveUp
  working3 : t.sys.task1 ≠ .finished → t.sys.task3 ≠ .gaveUp
  deadline2 : t.sys.task1 ≠ .finished → t.sys.task2 = .receiving → t.sys.queue1.items = [] →
    2950 + t.delay ≤ t.timer2
  deadline3 : t.sys.task1 ≠ .finished → t.sys.task3 = .receiving → 2950 ≤ t.timer3 ∧
    (t.sys.inFlight = [] → 2950 + t.delay ≤ t.timer3)

/-- A receive is longer than what a delay leaves of it. -/
theorem le_receiveTicks : 2950 ≤ pdMsToTicks 3000 := by decide

theorem Timed.punctual_start (events : List Event) : (Timed.start events).Punctual where
  drained := Or.inl rfl
  delay := Nat.zero_le _
  working2 _ := Consumer.noConfusion
  working3 _ := Consumer.noConfusion
  deadline2 _ _ _ := le_receiveTicks
  deadline3 _ _ := ⟨le_receiveTicks, fun _ => le_receiveTicks⟩

/-- **While the first task works, time passes only in its delay, and with nothing in
flight.** Whatever else the tasks may be doing, one of them could go on. -/
theorem Timed.Punctual.quiet {t : Timed} (h : t.Punctual) {d : Delivery PayloadChunk}
    (hrelays : t.sys.Relays d) (hrun : t.runnable = false) (hwork : t.sys.task1 ≠ .finished) :
    t.sys.inFlight = [] ∧ 0 < t.delay := by
  have hblocked := fun a hdue => Timed.fire_eq_none hrun (a := a) hdue
  -- task 3 is waiting: encoding never blocks
  have htask3 : t.sys.task3 = .receiving := by
    rcases htask : t.sys.task3 with _ | chunk | _
    · rfl
    · obtain ⟨t', w, henc, -, -⟩ := hrelays.encodes htask
      have hfire := hblocked .encode3 rfl
      simp [Sys.fire, htask, henc] at hfire
    · exact absurd htask (h.working3 hwork)
  have hqueue2 : t.sys.queue2.items = [] := by
    rcases hreceive : t.sys.queue2.receive with _ | item
    · exact Queue.receive_eq_none hreceive
    · have hfire := hblocked .receive3 rfl
      simp [Sys.fire, htask3, hreceive] at hfire
  -- task 2 is waiting: there is room in the second queue
  have htask2 : t.sys.task2 = .receiving := by
    rcases htask : t.sys.task2 with _ | chunk | _
    · rfl
    · rcases hsend : t.sys.queue2.send chunk with _ | queue2
      · have hfull := Queue.send_eq_none hsend
        rw [hqueue2] at hfull
        cases hfull
      · have hfire := hblocked .send2 rfl
        simp [Sys.fire, htask, hsend] at hfire
    · exact absurd htask (h.working2 hwork)
  have hqueue1 : t.sys.queue1.items = [] := by
    rcases hreceive : t.sys.queue1.receive with _ | item
    · exact Queue.receive_eq_none hreceive
    · have hfire := hblocked .receive2 rfl
      simp [Sys.fire, htask2, hreceive] at hfire
  refine ⟨by simp [Sys.inFlight, htask2, htask3, hqueue1, hqueue2], ?_⟩
  -- task 1 is in its delay: there is room in the first queue
  rcases htask : t.sys.task1 with (_ | ⟨ev, events⟩) | ⟨ev, loop, events⟩ | ⟨ev, loop, events⟩ | _
  · have hfire := hblocked .nextEvent rfl
    simp [Sys.fire, htask] at hfire
  · have hfire := hblocked .nextEvent rfl
    simp [Sys.fire, htask] at hfire
  · rcases hturn : ev.turn loop with _ | turn
    · have hfire := hblocked .endEvent rfl
      simp [Sys.fire, htask, hturn] at hfire
    · rcases hsend : t.sys.queue1.send turn.1 with _ | queue1
      · have hfull := Queue.send_eq_none hsend
        rw [hqueue1] at hfull
        cases hfull
      · have hfire := hblocked .send1 rfl
        simp [Sys.fire, htask, hturn, hsend] at hfire
  · rw [Timed.delay, htask]
    refine Nat.pos_of_ne_zero fun hzero => ?_
    have hfire := hblocked .wake1 (by simp [Timed.due, hzero])
    simp [Sys.fire, htask] at hfire
  · exact absurd htask hwork

/-- **A tick keeps the invariant.** -/
theorem Timed.Punctual.tick {t : Timed} (h : t.Punctual) {d : Delivery PayloadChunk}
    (hrelays : t.sys.Relays d) (hrun : t.runnable = false) : t.tick.Punctual := by
  have hdelay : t.tick.delay = t.delay - 1 := by
    rw [Timed.delay, Timed.delay]
    change (match t.sys.task1 with
      | .delaying _ _ _ => t.timer1 - 1
      | _ => 0) = _
    split <;> rfl
  have hflight : t.sys.inFlight = [] := by
    rcases eq_or_ne t.sys.task1 .finished with hfinished | hwork
    · rcases h.drained with hempty | hfifty
      · exact hempty
      · rw [Timed.delay, hfinished] at hfifty
        cases hfifty
    · exact (h.quiet hrelays hrun hwork).1
  have hle := h.delay
  refine ⟨Or.inl hflight, by omega, h.working2, h.working3, fun hwork htask hqueue => ?_,
    fun hwork htask => ?_⟩
  · have hpos := (h.quiet hrelays hrun hwork).2
    have hdeadline := h.deadline2 hwork htask hqueue
    change 2950 + t.tick.delay ≤ t.timer2 - 1
    omega
  · have hpos := (h.quiet hrelays hrun hwork).2
    have hdeadline := (h.deadline3 hwork htask).2 hflight
    change 2950 ≤ t.timer3 - 1 ∧ (_ → 2950 + t.tick.delay ≤ t.timer3 - 1)
    exact ⟨by omega, fun _ => by omega⟩

section Act

variable {t : Timed}

/-- Outside of the delay nothing is in flight. -/
theorem Timed.Punctual.inFlight_eq_nil (h : t.Punctual) (hdelay : t.delay = 0) :
    t.sys.inFlight = [] := by
  rcases h.drained with hempty | hfifty
  · exact hempty
  · rw [hdelay] at hfifty
    cases hfifty

/-- What is in flight was sent in this tick. -/
theorem Timed.Punctual.delay_eq (h : t.Punctual) {chunk : PayloadChunk}
    (hmem : chunk ∈ t.sys.inFlight) : t.delay = pdMsToTicks 50 := by
  rcases h.drained with hempty | hfifty
  · rw [hempty] at hmem
    cases hmem
  · exact hfifty

/-- A receive that times out was not waiting for the first task. -/
theorem Timed.Punctual.finished (h : t.Punctual)
    (hout : t.sys.task2 = .receiving ∧ t.sys.queue1.items = [] ∧ t.timer2 = 0 ∨
      t.sys.task3 = .receiving ∧ t.timer3 = 0) : t.sys.task1 = .finished := by
  by_contra hwork
  rcases hout with ⟨htask, hqueue, htimer⟩ | ⟨htask, htimer⟩
  · have hdeadline := h.deadline2 hwork htask hqueue
    omega
  · have hdeadline := (h.deadline3 hwork htask).1
    omega

/-- Task 1 moves on, outside of its delay. -/
theorem Timed.Punctual.moveOn (h : t.Punctual) (hzero : t.delay = 0)
    (hwork : t.sys.task1 ≠ .finished) {task1 : Task1} {n : ℕ}
    (hdelay : Timed.delay ⟨{ t.sys with task1 := task1 }, n, t.timer2, t.timer3⟩ = 0) :
    Timed.Punctual ⟨{ t.sys with task1 := task1 }, n, t.timer2, t.timer3⟩ := by
  have hdeadline2 := h.deadline2 hwork
  have hdeadline3 := h.deadline3 hwork
  rw [hzero, ← hdelay] at hdeadline2 hdeadline3
  exact ⟨Or.inl (h.inFlight_eq_nil hzero), by omega, fun _ => h.working2 hwork,
    fun _ => h.working3 hwork, fun _ => hdeadline2, fun _ => hdeadline3⟩

/-- **An action keeps the invariant.** -/
theorem Timed.Punctual.act {t' : Timed} {a : Action} (h : t.Punctual)
    (hact : t.act a = some t') : t'.Punctual := by
  obtain ⟨hdue, sys, hfire, rfl⟩ := Timed.act_eq_some hact
  have hle : t.delay ≤ 50 := h.delay
  cases Sys.fire_step hfire with
  | finish htask =>
    exact h.moveOn (by rw [Timed.delay, htask]) (by rw [htask]; exact Task1.noConfusion) rfl
  | @nextEvent ev events htask =>
    exact h.moveOn (by rw [Timed.delay, htask]) (by rw [htask]; exact Task1.noConfusion) rfl
  | @send1 ev loop loop' events chunk queue1 htask hturn hqueue =>
    have hwork : t.sys.task1 ≠ .finished := by rw [htask]; exact Task1.noConfusion
    have hsent : queue1.items ≠ [] := by simp [hqueue]
    refine ⟨Or.inr rfl, le_rfl, fun _ => h.working2 hwork, fun _ => h.working3 hwork,
      fun _ _ hempty => absurd hempty hsent, fun _ hreceive =>
        ⟨(h.deadline3 hwork hreceive).1, fun hempty => ?_⟩⟩
    exact absurd (List.append_eq_nil_iff.mp hempty).2 hsent
  | @endEvent ev loop events htask hexit =>
    exact h.moveOn (by rw [Timed.delay, htask]) (by rw [htask]; exact Task1.noConfusion) rfl
  | @wake1 ev loop events htask =>
    have hzero : t.delay = 0 := by
      rw [Timed.delay, htask]
      exact beq_iff_eq.mp hdue
    exact h.moveOn hzero (by rw [htask]; exact Task1.noConfusion) rfl
  | @receive2 chunk queue1 htask hqueue =>
    have hmem : chunk ∈ t.sys.inFlight := by simp [Sys.inFlight, hqueue]
    refine ⟨Or.inr (h.delay_eq hmem), hle, fun _ => Consumer.noConfusion, h.working3,
      fun _ hreceive => Consumer.noConfusion hreceive, fun hwork hreceive =>
        ⟨(h.deadline3 hwork hreceive).1, fun hempty => ?_⟩⟩
    simp [Timed.rearm, Sys.inFlight] at hempty
  | @send2 chunk queue2 htask hqueue =>
    have hmem : chunk ∈ t.sys.inFlight := by simp [Sys.inFlight, htask]
    refine ⟨Or.inr (h.delay_eq hmem), hle, fun _ => Consumer.noConfusion, h.working3,
      fun _ _ _ => Nat.add_le_add_left hle 2950, fun hwork hreceive =>
        ⟨(h.deadline3 hwork hreceive).1, fun hempty => ?_⟩⟩
    simp [Timed.rearm, Sys.inFlight, hqueue] at hempty
  | timeout2 htask hqueue =>
    have hfinished := h.finished (Or.inl ⟨htask, hqueue, beq_iff_eq.mp hdue⟩)
    have hflight := h.inFlight_eq_nil (by rw [Timed.delay, hfinished])
    refine ⟨Or.inl ?_, hle, absurd hfinished, absurd hfinished, absurd hfinished,
      absurd hfinished⟩
    simpa [Timed.rearm, Sys.inFlight, htask] using hflight
  | @receive3 chunk queue2 htask hqueue =>
    have hmem : chunk ∈ t.sys.inFlight := by simp [Sys.inFlight, hqueue]
    exact ⟨Or.inr (h.delay_eq hmem), hle, h.working2, fun _ => Consumer.noConfusion, h.deadline2,
      fun _ hreceive => Consumer.noConfusion hreceive⟩
  | @encode3 chunk tables w htask hencode =>
    have hmem : chunk ∈ t.sys.inFlight := by simp [Sys.inFlight, htask]
    exact ⟨Or.inr (h.delay_eq hmem), hle, h.working2, fun _ => Consumer.noConfusion, h.deadline2,
      fun _ _ => ⟨le_receiveTicks, fun _ => Nat.add_le_add_left hle 2950⟩⟩
  | @tooLarge3 chunk tables htask hencode =>
    have hmem : chunk ∈ t.sys.inFlight := by simp [Sys.inFlight, htask]
    exact ⟨Or.inr (h.delay_eq hmem), hle, h.working2, fun _ => Consumer.noConfusion, h.deadline2,
      fun _ _ => ⟨le_receiveTicks, fun _ => Nat.add_le_add_left hle 2950⟩⟩
  | timeout3 htask hqueue =>
    have hfinished := h.finished (Or.inr ⟨htask, beq_iff_eq.mp hdue⟩)
    have hflight := h.inFlight_eq_nil (by rw [Timed.delay, hfinished])
    refine ⟨Or.inl ?_, hle, absurd hfinished, absurd hfinished, absurd hfinished,
      absurd hfinished⟩
    simpa [Timed.rearm, Sys.inFlight, htask] using hflight
  | idle1 htask =>
    have hzero : t.delay = 0 := by rw [Timed.delay, htask]
    have hzero' : Timed.delay { t with timer1 := pdMsToTicks 1000 } = 0 := by
      rw [Timed.delay, htask]
    exact ⟨Or.inl (h.inFlight_eq_nil hzero), hzero'.trans_le (Nat.zero_le _), absurd htask,
      absurd htask, absurd htask, absurd htask⟩
  | idle2 htask =>
    exact ⟨h.drained, hle, h.working2, h.working3, fun hwork => absurd htask (h.working2 hwork),
      h.deadline3⟩
  | idle3 htask =>
    exact ⟨h.drained, hle, h.working2, h.working3, h.deadline2,
      fun hwork => absurd htask (h.working3 hwork)⟩

end Act

/-- **The invariant holds in every state that is reached.** -/
theorem Timed.punctual {events : List Event} (hsmall : ∀ ev ∈ events, ev.Small) {t : Timed}
    (h : Reachable Timed.fire (Timed.start events) t) : t.Punctual := by
  induction h with
  | init => exact Timed.punctual_start events
  | @step a t t' hreach hfire ih =>
    cases a with
    | some a => exact ih.act hfire
    | none =>
      obtain ⟨d, hrelays, -⟩ := Sys.exists_relays hsmall (Timed.reachable_sys hreach)
      rw [Timed.fire] at hfire
      split_ifs at hfire with hrun
      obtain rfl := Option.some.inj hfire
      exact ih.tick hrelays (by simpa using hrun)

/-! ### Waiting for the end -/

section Waiting

variable {events : List Event} {sys : Sys}

/-- **A pipeline that waits**: both consumers are in a receive and the queues are empty. -/
structure Sys.Waiting (s : Sys) : Prop where
  task2 : s.task2 = .receiving
  task3 : s.task3 = .receiving
  queue1 : s.queue1 = .empty
  queue2 : s.queue2 = .empty

/-- An action that is due can be taken. -/
theorem Timed.reachable_act {t : Timed} (h : Reachable Timed.fire (Timed.start events) t)
    {a : Action} (hdue : t.due a = true) (hfire : t.sys.fire a = some sys) :
    Reachable Timed.fire (Timed.start events) (Timed.rearm { t with sys := sys } a) := by
  refine h.step (a := some a) ?_
  rw [Timed.fire, Timed.act, if_pos hdue, hfire, Option.map_some]

/-- While the pipeline waits and task 1 is in a delay, time passes. -/
theorem Timed.reachable_tick (hwait : sys.Waiting)
    (htask : sys.task1 = .finished ∨ ∃ ev loop rest, sys.task1 = .delaying ev loop rest) {a b c : ℕ}
    (h : Reachable Timed.fire (Timed.start events) ⟨sys, a + 1, b + 1, c + 1⟩) :
    Reachable Timed.fire (Timed.start events) ⟨sys, a, b, c⟩ := by
  refine h.step (a := none) ?_
  have hrun : Timed.runnable ⟨sys, a + 1, b + 1, c + 1⟩ = false := by
    rcases htask with htask | ⟨ev, loop, rest, htask⟩ <;>
      simp [Timed.runnable, Action.all, Timed.act, Timed.due, Sys.fire, htask, hwait.task2,
        hwait.task3, hwait.queue1, hwait.queue2, Queue.empty, Queue.receive]
  rw [Timed.fire, hrun]
  rfl

theorem Timed.reachable_ticks (hwait : sys.Waiting)
    (htask : sys.task1 = .finished ∨ ∃ ev loop rest, sys.task1 = .delaying ev loop rest) {a b c : ℕ}
    (n : ℕ) (h : Reachable Timed.fire (Timed.start events) ⟨sys, a + n, b + n, c + n⟩) :
    Reachable Timed.fire (Timed.start events) ⟨sys, a, b, c⟩ := by
  induction n with
  | zero => exact h
  | succ n ih => exact ih (Timed.reachable_tick hwait htask h)

/-- When task 1 has finished, its endless loop has ticks left of its delay, or gets some. -/
theorem Timed.exists_idling (htask : sys.task1 = .finished) {a b c : ℕ}
    (h : Reachable Timed.fire (Timed.start events) ⟨sys, a, b, c⟩) :
    ∃ a', Reachable Timed.fire (Timed.start events) ⟨sys, a' + 1, b, c⟩ := by
  cases a with
  | zero => exact ⟨999, Timed.reachable_act h (a := .idle1) rfl (by simp [Sys.fire, htask])⟩
  | succ a => exact ⟨a, h⟩

/-- **Once task 1 has finished, the consumers do give up**, and then no task can run before the
next tick. -/
theorem Timed.exists_gaveUp (hwait : sys.Waiting) (htask : sys.task1 = .finished) (b : ℕ) {a : ℕ}
    (h : Reachable Timed.fire (Timed.start events) ⟨sys, a, b, b⟩) :
    ∃ t, Reachable Timed.fire (Timed.start events) t ∧ t.sys.task2 = .gaveUp ∧
      t.sys.task3 = .gaveUp ∧ t.runnable = false := by
  induction b generalizing a with
  | zero =>
    obtain ⟨a, hidle⟩ := Timed.exists_idling htask h
    have hgave2 : Reachable Timed.fire (Timed.start events)
        ⟨{ sys with task2 := .gaveUp }, a + 1, 1000, 0⟩ :=
      Timed.reachable_act hidle (a := .timeout2) rfl
        (by simp [Sys.fire, hwait.task2, hwait.queue1, Queue.empty, Queue.receive])
    have hgave3 : Reachable Timed.fire (Timed.start events)
        ⟨{ sys with task2 := .gaveUp, task3 := .gaveUp }, a + 1, 1000, 1000⟩ :=
      Timed.reachable_act hgave2 (a := .timeout3) rfl
        (by simp [Sys.fire, hwait.task3, hwait.queue2, Queue.empty, Queue.receive])
    refine ⟨_, hgave3, rfl, rfl, ?_⟩
    simp [Timed.runnable, Action.all, Timed.act, Timed.due, Sys.fire, htask]
  | succ b ih =>
    obtain ⟨a, hidle⟩ := Timed.exists_idling htask h
    exact ih (Timed.reachable_tick hwait (Or.inl htask) hidle)

/-- An event of one byte, until the consumers have given up. -/
theorem Timed.exists_gaveUp_one_byte : ∃ t,
    Reachable Timed.fire (Timed.start [⟨1000, 1, [0x41], rfl⟩]) t ∧ t.sys.task2 = .gaveUp ∧
      t.sys.task3 = .gaveUp ∧ t.runnable = false := by
  obtain ⟨ev, hev⟩ : ∃ ev : Event, ev = ⟨1000, 1, [0x41], rfl⟩ := ⟨_, rfl⟩
  rw [← hev]
  -- in the first tick the chunk goes through to task 3
  obtain ⟨t₁, t₂, t₃, t₄, t₅, h₁, h₂, h₃, h₄, h₅, loop, chunk, htask1, hexit, htask2, htask3,
    hqueue1, hqueue2, htables, hfits, htimer1, htimer2⟩ :
    ∃ t₁ t₂ t₃ t₄ t₅ : Timed,
      Timed.fire (some .nextEvent) (Timed.start [ev]) = some t₁ ∧
      Timed.fire (some .send1) t₁ = some t₂ ∧ Timed.fire (some .receive2) t₂ = some t₃ ∧
      Timed.fire (some .send2) t₃ = some t₄ ∧ Timed.fire (some .receive3) t₄ = some t₅ ∧
      ∃ (loop : ChunkLoop ev.payload) (chunk : PayloadChunk),
        t₅.sys.task1 = .delaying ev loop [] ∧ ev.turn loop = none ∧
        t₅.sys.task2 = .receiving ∧ t₅.sys.task3 = .holding chunk ∧
        t₅.sys.queue1 = .empty ∧ t₅.sys.queue2 = .empty ∧ t₅.sys.tables = .start ∧ chunk.Fits ∧
        t₅.timer1 = 50 ∧ t₅.timer2 = 3000 := by
    subst hev
    exact ⟨_, _, _, _, _, rfl, rfl, rfl, rfl, rfl, _, _, rfl, rfl, rfl, rfl, rfl, rfl, rfl,
      Nat.le_of_ble_eq_true rfl, rfl, rfl⟩
  have hreach₅ := ((((Reachable.init.step h₁).step h₂).step h₃).step h₄).step h₅
  -- which encodes it, and then everything waits
  obtain ⟨tables, w, henc, -, -⟩ := encodeChunk_eq (t := t₅.sys.tables)
    (by rw [htables]; exact Or.inr rfl) hfits
  obtain ⟨sys, hsys⟩ : ∃ sys : Sys, sys = { t₅.sys with
    task3 := .receiving, tables := tables, packets := t₅.sys.packets ++ [w] } := ⟨_, rfl⟩
  have hsent : Reachable Timed.fire (Timed.start [ev]) ⟨sys, 0 + 50, 2950 + 50, 2950 + 50⟩ := by
    have hfire : t₅.sys.fire .encode3 = some sys := by simp [Sys.fire, htask3, henc, hsys]
    have hact := Timed.reachable_act hreach₅ rfl hfire
    rwa [Timed.rearm, htimer1, htimer2] at hact
  have hwait : sys.Waiting := by
    rw [hsys]
    exact ⟨htask2, rfl, hqueue1, hqueue2⟩
  have htask : sys.task1 = .delaying ev loop [] := by rw [hsys]; exact htask1
  -- task 1 wakes up, and has nothing more to send
  have hlate := Timed.reachable_ticks hwait (Or.inr ⟨ev, loop, [], htask⟩) 50 hsent
  have hwake : Reachable Timed.fire (Timed.start [ev])
      ⟨{ sys with task1 := .sending ev loop [] }, 0, 2950, 2950⟩ :=
    Timed.reachable_act hlate (a := .wake1) rfl (by simp [Sys.fire, htask])
  have hend : Reachable Timed.fire (Timed.start [ev])
      ⟨{ sys with task1 := .next [] }, 0, 2950, 2950⟩ :=
    Timed.reachable_act hwake (a := .endEvent) rfl (by simp [Sys.fire, hexit])
  have hdone : Reachable Timed.fire (Timed.start [ev])
      ⟨{ sys with task1 := .finished }, 1000, 2950, 2950⟩ :=
    Timed.reachable_act hend (a := .nextEvent) rfl rfl
  have hwait' : Sys.Waiting { sys with task1 := .finished } :=
    ⟨hwait.task2, hwait.task3, hwait.queue1, hwait.queue2⟩
  exact Timed.exists_gaveUp hwait' rfl 2950 hdone

end Waiting

/-! ### Nobody gives up early -/

/-- **Neither consumer gives up early.** For events of `0` to `256` bytes and in every state
reached in time, whatever the order in which the tasks run: once task 2 or task 3 has given
up, task 1 has sent the last chunk of the last event, the queues are empty and no task holds
a chunk, and both counters are the number of chunks of all events. -/
theorem no_early_giveUp {events : List Event} (hsmall : ∀ ev ∈ events, ev.Small) {t : Timed}
    (h : Reachable Timed.fire (Timed.start events) t)
    (hgave : t.sys.task2 = .gaveUp ∨ t.sys.task3 = .gaveUp) :
    t.sys.task1.unsent = some [] ∧ t.sys.queue1.items = [] ∧ t.sys.queue2.items = [] ∧
      t.sys.task2.held = [] ∧ t.sys.task3.held = [] ∧
      ∃ all, cutEvents events = some all ∧ t.sys.totalForwarded = all.length ∧
        t.sys.totalEncoded = all.length := by
  have hpunctual := Timed.punctual hsmall h
  obtain ⟨d, hrelays, hall⟩ := Sys.exists_relays hsmall (Timed.reachable_sys h)
  have hfinished : t.sys.task1 = .finished := by
    by_contra hwork
    rcases hgave with htask | htask
    · exact hpunctual.working2 hwork htask
    · exact hpunctual.working3 hwork htask
  have hflight := hpunctual.inFlight_eq_nil (by rw [Timed.delay, hfinished])
  have hunsent : t.sys.task1.unsent = some [] := by rw [hfinished]; rfl
  obtain ⟨unsent, hunsent', hpending⟩ := hrelays.pending
  rw [hunsent] at hunsent'
  obtain rfl := Option.some.inj hunsent'
  rw [hflight, List.append_nil] at hpending
  rw [hpending, List.append_nil] at hall
  -- everything was delivered, and nothing is between the counters and the packets
  have hlen : (events.flatMap Event.chunks).length = t.sys.packets.length := by
    have hlengths := congrArg List.length hrelays.packets
    rwa [List.length_map, List.length_map, hall] at hlengths
  simp only [Sys.inFlight, List.append_eq_nil_iff] at hflight
  obtain ⟨⟨⟨hheld3, hqueue2⟩, hheld2⟩, hqueue1⟩ := hflight
  refine ⟨hunsent, hqueue1, hqueue2, hheld2, hheld3, _, cutEvents_eq hsmall, ?_, ?_⟩
  · rw [hrelays.forwarded, hheld3, hqueue2, hheld2, hlen]
    rfl
  · rw [hrelays.encoded, hheld3, hlen]
    rfl

/-- An event of one byte, until task 2 gives up. -/
theorem no_early_giveUp_one_byte : ∃ (t : Timed) (all : List PayloadChunk),
    t.sys.task2 = .gaveUp ∧ cutEvents [⟨1000, 1, [0x41], rfl⟩] = some all ∧
      t.sys.totalForwarded = all.length ∧ t.sys.totalEncoded = all.length := by
  obtain ⟨t, ht, hgave, -⟩ := Timed.exists_gaveUp_one_byte
  obtain ⟨-, -, -, -, -, all, hcut, hforwarded, hencoded⟩ :=
    no_early_giveUp (by decide) ht (Or.inl hgave)
  exact ⟨t, all, hgave, hcut, hforwarded, hencoded⟩

end CubesatPipeline
