import CubesatPipeline.Ticks

/-!
# When each packet is printed

The pipeline in time with a clock. Among the tasks that can run any may go first, so there
are many runs; and yet all of them print the same number of packets by the same tick
(`CubesatPipeline.pipeline_schedule`): one at the start, and one more every `50` ticks, until
the chunks are used up. The consumers give up `3000` ticks after the last chunk.

The argument is that the clock of a run can be read off its state
(`CubesatPipeline.Clocked.OnTime`): while task 1 works, it is `50` ticks for each chunk sent,
less what is left of the delay; and a receive that waits was started in the tick in which the
chunk before it was sent.

That a clock says something about a run needs that it does not stop. It does not
(`CubesatPipeline.pipeline_time_diverges`): some step is always possible, and a measure of the
work that is left (`CubesatPipeline.Timed.work`) pays for every action, with each tick paying
in for at most one turn of each endless loop.
-/

namespace CubesatPipeline

open BoundedQueue EmitLoop Transition

/-! ### The clock -/

/-- **The pipeline in time, with a clock**: the ticks that have passed, and the actions that
were taken. -/
structure Clocked where
  timed : Timed
  now : ℕ
  actions : ℕ

/-- Program start. -/
def Clocked.start (events : List Event) : Clocked := ⟨.start events, 0, 0⟩

/-- One step, with what it adds to the clock or to the actions. -/
def Clocked.fire : Option Action → Clocked → Option Clocked
  | some a, c => (c.timed.fire (some a)).map fun t => ⟨t, c.now, c.actions + 1⟩
  | none, c => (c.timed.fire none).map fun t => ⟨t, c.now + 1, c.actions⟩

/-- An action is one of the pipeline in time, and the clock stands still. -/
theorem Clocked.fire_some {c c' : Clocked} {a : Action} (h : c.fire (some a) = some c') :
    c.timed.act a = some c'.timed ∧ c'.now = c.now ∧ c'.actions = c.actions + 1 := by
  obtain ⟨t, ht, rfl⟩ := Option.map_eq_some_iff.mp h
  exact ⟨ht, rfl, rfl⟩

/-- A tick passes where no task can run. -/
theorem Clocked.fire_none {c c' : Clocked} (h : c.fire none = some c') :
    c.timed.runnable = false ∧ c' = ⟨c.timed.tick, c.now + 1, c.actions⟩ := by
  obtain ⟨t, ht, rfl⟩ := Option.map_eq_some_iff.mp h
  rw [Timed.fire] at ht
  split_ifs at ht with hrun
  obtain rfl := Option.some.inj ht
  exact ⟨by simpa using hrun, rfl⟩

/-- **A run with the clock is a run in time.** -/
theorem Clocked.reachable_timed {events : List Event} {c : Clocked}
    (h : Reachable Clocked.fire (Clocked.start events) c) :
    Reachable Timed.fire (Timed.start events) c.timed := by
  obtain ⟨t, ht, rfl⟩ : ∃ t, Reachable Timed.fire (Timed.start events) t ∧ c.timed = t := by
    refine h.simulates (R := fun c t => c.timed = t) rfl ?_
    rintro (_ | a) c c' t rfl hfire
    · obtain ⟨t', ht', rfl⟩ := Option.map_eq_some_iff.mp hfire
      exact Or.inr ⟨none, t', ht', rfl⟩
    · obtain ⟨t', ht', rfl⟩ := Option.map_eq_some_iff.mp hfire
      exact Or.inr ⟨some a, t', ht', rfl⟩
  exact ht

/-- **A run in time is a run with the clock.** -/
theorem Clocked.exists_of_timed {events : List Event} {t : Timed}
    (h : Reachable Timed.fire (Timed.start events) t) :
    ∃ c, Reachable Clocked.fire (Clocked.start events) c ∧ c.timed = t := by
  refine h.simulates (R := fun (t : Timed) (c : Clocked) => c.timed = t) rfl ?_
  rintro (_ | a) t t' c rfl hfire
  · exact Or.inr ⟨none, ⟨t', c.now + 1, c.actions⟩, by rw [Clocked.fire, hfire]; rfl, rfl⟩
  · exact Or.inr ⟨some a, ⟨t', c.now, c.actions + 1⟩, by rw [Clocked.fire, hfire]; rfl, rfl⟩

/-! ### What was sent, and when -/

/-- The number of chunks that task 1 has sent. -/
def Sys.sent (s : Sys) : ℕ := s.packets.length + s.inFlight.length

theorem Sys.length_inFlight (s : Sys) : s.inFlight.length =
    s.task3.held.length + s.queue2.items.length + s.task2.held.length + s.queue1.items.length := by
  simp [Sys.inFlight, Nat.add_assoc]

/-- **The clock can be read off the state.** -/
structure Clocked.OnTime (c : Clocked) : Prop where
  /-- A chunk is through before the next one is sent. -/
  alone : c.timed.sys.inFlight.length ≤ 1
  working : c.timed.sys.task1 ≠ .finished → c.now + c.timed.delay = 50 * c.timed.sys.sent
  finished : c.timed.sys.task1 = .finished → 50 * c.timed.sys.sent ≤ c.now
  receiving2 : c.timed.sys.task2 = .receiving →
    c.now + c.timed.timer2 = 3000 + 50 * (c.timed.sys.totalForwarded - 1)
  receiving3 : c.timed.sys.task3 = .receiving →
    c.now + c.timed.timer3 = 3000 + 50 * (c.timed.sys.totalEncoded - 1)
  gaveUp2 : c.timed.sys.task2 = .gaveUp → 3000 + 50 * (c.timed.sys.sent - 1) ≤ c.now
  gaveUp3 : c.timed.sys.task3 = .gaveUp → 3000 + 50 * (c.timed.sys.sent - 1) ≤ c.now

theorem Clocked.onTime_start (events : List Event) : (Clocked.start events).OnTime where
  alone := Nat.zero_le 1
  working _ := rfl
  finished h := Task1.noConfusion h
  receiving2 _ := rfl
  receiving3 _ := rfl
  gaveUp2 h := Consumer.noConfusion h
  gaveUp3 h := Consumer.noConfusion h

section Act

variable {c : Clocked} {d : Delivery PayloadChunk}

/-- What is in flight was sent in this tick, and is alone. -/
theorem Clocked.OnTime.now_add (h : c.OnTime) (hp : c.timed.Punctual) (chunk : PayloadChunk)
    (hmem : chunk ∈ c.timed.sys.inFlight) :
    c.now + 50 = 50 * c.timed.sys.sent ∧ c.timed.sys.inFlight.length = 1 := by
  have hdelay := hp.delay_eq hmem
  have hwork : c.timed.sys.task1 ≠ .finished := by
    intro hfinished
    rw [Timed.delay, hfinished] at hdelay
    cases hdelay
  have hnow := h.working hwork
  rw [hdelay] at hnow
  exact ⟨hnow, Nat.le_antisymm h.alone (List.length_pos_of_mem hmem)⟩

/-- Task 1 moves on, outside of its delay. -/
theorem Clocked.OnTime.moveOn (h : c.OnTime) (hzero : c.timed.delay = 0)
    (hwork : c.timed.sys.task1 ≠ .finished) {task1 : Task1} {n m : ℕ}
    (hdelay : Timed.delay ⟨{ c.timed.sys with task1 := task1 }, n, c.timed.timer2,
      c.timed.timer3⟩ = 0) :
    Clocked.OnTime ⟨⟨{ c.timed.sys with task1 := task1 }, n, c.timed.timer2, c.timed.timer3⟩,
      c.now, m⟩ := by
  have hnow := h.working hwork
  rw [hzero] at hnow
  refine ⟨h.alone, fun _ => ?_, fun _ => hnow.ge, h.receiving2, h.receiving3, h.gaveUp2,
    h.gaveUp3⟩
  rw [hdelay]
  exact hnow

/-- A chunk moves on to the next place, or a task to the next receive. -/
theorem Clocked.OnTime.relay (h : c.OnTime) {sys : Sys} {timer2 timer3 n : ℕ}
    (htask1 : sys.task1 = c.timed.sys.task1) (hpackets : c.timed.sys.packets.length ≤
      sys.packets.length) (hsent : sys.sent = c.timed.sys.sent)
    (h2 : sys.task2 = .receiving → c.now + timer2 = 3000 + 50 * (sys.totalForwarded - 1))
    (h3 : sys.task3 = .receiving → c.now + timer3 = 3000 + 50 * (sys.totalEncoded - 1))
    (hg2 : sys.task2 = .gaveUp → 3000 + 50 * (c.timed.sys.sent - 1) ≤ c.now)
    (hg3 : sys.task3 = .gaveUp → 3000 + 50 * (c.timed.sys.sent - 1) ≤ c.now) :
    Clocked.OnTime ⟨⟨sys, c.timed.timer1, timer2, timer3⟩, c.now, n⟩ := by
  have hdelay : Timed.delay ⟨sys, c.timed.timer1, timer2, timer3⟩ = c.timed.delay := by
    rw [Timed.delay, htask1, Timed.delay]
  have halone := h.alone
  refine ⟨?_, fun hwork => ?_, fun hfinished => ?_, h2, h3, hsent ▸ hg2, hsent ▸ hg3⟩
  · simp only [Sys.sent] at hsent
    change sys.inFlight.length ≤ 1
    omega
  · rw [hdelay]
    exact (h.working (htask1 ▸ hwork)).trans (by rw [hsent])
  · exact (h.finished (htask1 ▸ hfinished)).trans' (by rw [hsent])

/-- **An action keeps the clock readable.** -/
theorem Clocked.OnTime.act {c' : Clocked} {a : Action} (h : c.OnTime) (hp : c.timed.Punctual)
    (hrelays : c.timed.sys.Relays d) (hact : c.fire (some a) = some c') : c'.OnTime := by
  obtain ⟨hact, hnow, -⟩ := Clocked.fire_some hact
  obtain ⟨t', now', actions'⟩ := c'
  obtain rfl : now' = c.now := hnow
  obtain ⟨hdue, sys, hfire, rfl⟩ := Timed.act_eq_some hact
  have hforwarded := hrelays.forwarded
  have hencoded := hrelays.encoded
  cases Sys.fire_step hfire with
  | finish htask =>
    exact h.moveOn (by rw [Timed.delay, htask]) (by rw [htask]; exact Task1.noConfusion) rfl
  | @nextEvent ev events htask =>
    exact h.moveOn (by rw [Timed.delay, htask]) (by rw [htask]; exact Task1.noConfusion) rfl
  | @send1 ev loop loop' events chunk queue1 htask hturn hqueue =>
    have hwork : c.timed.sys.task1 ≠ .finished := by rw [htask]; exact Task1.noConfusion
    have hzero : c.timed.delay = 0 := by rw [Timed.delay, htask]
    have hnil := congrArg List.length (hp.inFlight_eq_nil hzero)
    have hworking := h.working hwork
    have hqueue1 := congrArg List.length hqueue
    rw [List.length_append, List.length_singleton] at hqueue1
    rw [Sys.length_inFlight, List.length_nil] at hnil
    rw [Sys.sent, Sys.length_inFlight, hzero] at hworking
    refine ⟨?_, fun _ => ?_, fun hfinished => Task1.noConfusion hfinished, h.receiving2,
      h.receiving3, fun hgave => absurd hgave (hp.working2 hwork),
      fun hgave => absurd hgave (hp.working3 hwork)⟩
    · simp only [Timed.rearm, Sys.length_inFlight]
      omega
    · change c.now + 50 = 50 * Sys.sent _
      simp only [Timed.rearm, Sys.sent, Sys.length_inFlight]
      omega
  | @endEvent ev loop events htask hexit =>
    exact h.moveOn (by rw [Timed.delay, htask]) (by rw [htask]; exact Task1.noConfusion) rfl
  | @wake1 ev loop events htask =>
    have hzero : c.timed.delay = 0 := by
      rw [Timed.delay, htask]
      exact beq_iff_eq.mp hdue
    exact h.moveOn hzero (by rw [htask]; exact Task1.noConfusion) rfl
  | @receive2 chunk queue1 htask hqueue =>
    refine h.relay rfl le_rfl ?_ Consumer.noConfusion h.receiving3 Consumer.noConfusion h.gaveUp3
    simp only [Sys.sent, Sys.length_inFlight, htask, hqueue, Consumer.held_receiving,
      Consumer.held_holding, List.length_cons, List.length_nil]
    omega
  | @send2 chunk queue2 htask hqueue =>
    obtain ⟨hsince, hone⟩ := h.now_add hp chunk (by simp [Sys.inFlight, htask])
    have hqueue2 := congrArg List.length hqueue
    have hheld : c.timed.sys.task2.held.length = 1 := by rw [htask]; rfl
    rw [List.length_append, List.length_singleton] at hqueue2
    rw [Sys.sent, Sys.length_inFlight] at hsince
    refine h.relay rfl le_rfl ?_ (fun _ => ?_) h.receiving3 Consumer.noConfusion h.gaveUp3
    · simp only [Sys.sent, Sys.length_inFlight, Consumer.held_receiving, List.length_nil]
      omega
    · change c.now + 3000 = 3000 + 50 * (c.timed.sys.totalForwarded - 1)
      rw [Sys.length_inFlight] at hone
      omega
  | timeout2 htask hqueue =>
    have hzero : c.timed.timer2 = 0 := beq_iff_eq.mp hdue
    have hfinished := hp.finished (Or.inl ⟨htask, hqueue, hzero⟩)
    have hnil := congrArg List.length (hp.inFlight_eq_nil (by rw [Timed.delay, hfinished]))
    have hnow := h.receiving2 htask
    rw [Sys.length_inFlight, List.length_nil] at hnil
    refine h.relay rfl le_rfl ?_ Consumer.noConfusion h.receiving3 (fun _ => ?_) h.gaveUp3
    · simp [Sys.sent, Sys.inFlight, htask, Consumer.held]
    · rw [Sys.sent, Sys.length_inFlight]
      omega
  | @receive3 chunk queue2 htask hqueue =>
    refine h.relay rfl le_rfl ?_ h.receiving2 Consumer.noConfusion h.gaveUp2 Consumer.noConfusion
    simp only [Sys.sent, Sys.length_inFlight, htask, hqueue, Consumer.held_receiving,
      Consumer.held_holding, List.length_cons, List.length_nil]
    omega
  | @encode3 chunk tables w htask hencode =>
    obtain ⟨hsince, hone⟩ := h.now_add hp chunk (by simp [Sys.inFlight, htask])
    have hheld : c.timed.sys.task3.held.length = 1 := by rw [htask]; rfl
    rw [Sys.sent, Sys.length_inFlight] at hsince
    refine h.relay rfl (by simp) ?_ h.receiving2 (fun _ => ?_) h.gaveUp2 Consumer.noConfusion
    · simp only [Sys.sent, Sys.length_inFlight, Consumer.held_receiving, List.length_nil,
        List.length_append, List.length_singleton]
      omega
    · change c.now + 3000 = 3000 + 50 * (c.timed.sys.totalEncoded - 1)
      rw [Sys.length_inFlight] at hone
      omega
  | @tooLarge3 chunk tables htask hencode =>
    obtain ⟨t', w', henc, -, -⟩ := hrelays.encodes htask
    rw [hencode] at henc
    exact absurd (Prod.mk.inj (Option.some.inj henc)).2 (Option.some_ne_none w').symm
  | timeout3 htask hqueue =>
    have hzero : c.timed.timer3 = 0 := beq_iff_eq.mp hdue
    have hfinished := hp.finished (Or.inr ⟨htask, hzero⟩)
    have hnil := congrArg List.length (hp.inFlight_eq_nil (by rw [Timed.delay, hfinished]))
    have hnow := h.receiving3 htask
    rw [Sys.length_inFlight, List.length_nil] at hnil
    refine h.relay rfl le_rfl ?_ h.receiving2 Consumer.noConfusion h.gaveUp2 (fun _ => ?_)
    · simp [Sys.sent, Sys.inFlight, htask, Consumer.held]
    · rw [Sys.sent, Sys.length_inFlight]
      omega
  | idle1 htask =>
    exact ⟨h.alone, absurd htask, h.finished, h.receiving2, h.receiving3, h.gaveUp2, h.gaveUp3⟩
  | idle2 htask =>
    refine h.relay rfl le_rfl rfl (fun hreceive => ?_) h.receiving3 h.gaveUp2 h.gaveUp3
    rw [htask] at hreceive
    cases hreceive
  | idle3 htask =>
    refine h.relay rfl le_rfl rfl h.receiving2 (fun hreceive => ?_) h.gaveUp2 h.gaveUp3
    rw [htask] at hreceive
    cases hreceive

end Act

section Quiet

variable {c : Clocked} {d : Delivery PayloadChunk}

/-- **Where time passes nothing is in flight.** -/
theorem Timed.Punctual.drained_of_quiet {t : Timed} (hp : t.Punctual) (hrelays : t.sys.Relays d)
    (hrun : t.runnable = false) : t.sys.inFlight = [] := by
  rcases eq_or_ne t.sys.task1 .finished with hfinished | hwork
  · exact hp.inFlight_eq_nil (by rw [Timed.delay, hfinished])
  · exact (hp.quiet hrelays hrun hwork).1

/-- Where time passes, a receive has ticks left. -/
theorem Timed.Punctual.timers_pos {t : Timed} (hp : t.Punctual) (hrelays : t.sys.Relays d)
    (hrun : t.runnable = false) : (t.sys.task2 = .receiving → 0 < t.timer2) ∧
      (t.sys.task3 = .receiving → 0 < t.timer3) := by
  have hnil := hp.drained_of_quiet hrelays hrun
  simp only [Sys.inFlight, List.append_eq_nil_iff] at hnil
  obtain ⟨⟨⟨-, hqueue2⟩, -⟩, hqueue1⟩ := hnil
  constructor
  · intro htask
    refine Nat.pos_of_ne_zero fun hzero => ?_
    have hfire := Timed.fire_eq_none hrun (a := .timeout2) (by simp [Timed.due, hzero])
    obtain ⟨⟨items, hbounded⟩, hitems⟩ : ∃ q, t.sys.queue1 = q := ⟨_, rfl⟩
    obtain rfl : items = [] := by rw [hitems] at hqueue1; exact hqueue1
    simp [Sys.fire, htask, hitems, Queue.receive] at hfire
  · intro htask
    refine Nat.pos_of_ne_zero fun hzero => ?_
    have hfire := Timed.fire_eq_none hrun (a := .timeout3) (by simp [Timed.due, hzero])
    obtain ⟨⟨items, hbounded⟩, hitems⟩ : ∃ q, t.sys.queue2 = q := ⟨_, rfl⟩
    obtain rfl : items = [] := by rw [hitems] at hqueue2; exact hqueue2
    simp [Sys.fire, htask, hitems, Queue.receive] at hfire

theorem Timed.delay_tick (t : Timed) : t.tick.delay = t.delay - 1 := by
  rcases htask : t.sys.task1 <;> simp [Timed.delay, Timed.tick, htask]

/-- **A tick keeps the clock readable.** -/
theorem Clocked.OnTime.tick (h : c.OnTime) (hp : c.timed.Punctual)
    (hrelays : c.timed.sys.Relays d) (hrun : c.timed.runnable = false) :
    Clocked.OnTime ⟨c.timed.tick, c.now + 1, c.actions⟩ := by
  obtain ⟨htimer2, htimer3⟩ := hp.timers_pos hrelays hrun
  refine ⟨h.alone, fun hwork => ?_, fun hfinished => ?_, fun hreceive => ?_, fun hreceive => ?_,
    fun hgave => (h.gaveUp2 hgave).trans (Nat.le_succ _),
    fun hgave => (h.gaveUp3 hgave).trans (Nat.le_succ _)⟩
  · have hnow := h.working hwork
    have hpos := (hp.quiet hrelays hrun hwork).2
    rw [Timed.delay_tick]
    change c.now + 1 + (c.timed.delay - 1) = 50 * c.timed.sys.sent
    omega
  · exact (h.finished hfinished).trans (Nat.le_succ _)
  · have hnow := h.receiving2 hreceive
    have hpos := htimer2 hreceive
    change c.now + 1 + (c.timed.timer2 - 1) = 3000 + 50 * (c.timed.sys.totalForwarded - 1)
    omega
  · have hnow := h.receiving3 hreceive
    have hpos := htimer3 hreceive
    change c.now + 1 + (c.timed.timer3 - 1) = 3000 + 50 * (c.timed.sys.totalEncoded - 1)
    omega

/-- **The clock can be read off every state that is reached.** -/
theorem Clocked.onTime {events : List Event} (hsmall : ∀ ev ∈ events, ev.Small)
    (h : Reachable Clocked.fire (Clocked.start events) c) : c.OnTime := by
  induction h with
  | init => exact Clocked.onTime_start events
  | @step a c c' hreach hfire ih =>
    have htimed := Clocked.reachable_timed hreach
    have hp := Timed.punctual hsmall htimed
    obtain ⟨d, hrelays, -⟩ := Sys.exists_relays hsmall (Timed.reachable_sys htimed)
    cases a with
    | some a => exact ih.act hp hrelays hfire
    | none =>
      obtain ⟨hrun, rfl⟩ := Clocked.fire_none hfire
      exact ih.tick hp hrelays hrun

/-- When the first task has finished, everything was sent. -/
theorem Sys.Relays.sent_le {s : Sys} (h : s.Relays d) :
    s.sent ≤ (d.delivered ++ d.pending).length ∧
      (s.task1 = .finished → s.sent = (d.delivered ++ d.pending).length) := by
  obtain ⟨unsent, hunsent, hpending⟩ := h.pending
  have hpackets := congrArg List.length h.packets
  rw [List.length_map, List.length_map] at hpackets
  rw [List.length_append, hpending, List.length_append, Sys.sent]
  refine ⟨by omega, fun hfinished => ?_⟩
  rw [hfinished] at hunsent
  obtain rfl := Option.some.inj hunsent
  rw [List.length_nil]
  omega

/-- **When a consumer gives up**, of which the receive that waits is known. -/
theorem Consumer.gaveUp_iff {task : Consumer} {timer count now m : ℕ} (hheld : task.held = [])
    (hreceive : task = .receiving → now + timer = 3000 + 50 * (count - 1) ∧ 0 < timer)
    (hcount : count ≤ m) (hgave : task = .gaveUp → 3000 + 50 * (m - 1) ≤ now) :
    task = .gaveUp ↔ 3000 + 50 * (m - 1) ≤ now := by
  refine ⟨hgave, fun hlate => ?_⟩
  cases task with
  | receiving =>
    obtain ⟨hnow, hpos⟩ := hreceive rfl
    omega
  | holding chunk => cases hheld
  | gaveUp => rfl

end Quiet

/-- An event of one byte, when the consumers have given up. -/
theorem Clocked.exists_gaveUp_one_byte : ∃ c,
    Reachable Clocked.fire (Clocked.start [⟨1000, 1, [0x41], rfl⟩]) c ∧
      c.timed.runnable = false ∧ c.timed.sys.task2 = .gaveUp ∧ 3000 ≤ c.now := by
  obtain ⟨t, ht, hgave, -, hrun⟩ := Timed.exists_gaveUp_one_byte
  obtain ⟨c, hreach, rfl⟩ := Clocked.exists_of_timed ht
  have htime := Clocked.onTime (by decide) hreach
  exact ⟨c, hreach, hrun, hgave, (Nat.le_add_right _ _).trans (htime.gaveUp2 hgave)⟩

/-! ### One packet every fifty ticks -/

/-- **When each packet is printed.** For events of at most `256` bytes, and in every run in
time, whatever the order in which the tasks run: when `now` ticks have passed,

* the packets are those of the first chunks, at most of the first `now / 50 + 1`, and those are
  missing at most whose tick this is;
* and when no task can run any more before the next tick, they are the packets of the first
  `now / 50 + 1` chunks, task 1 has finished just if `50` ticks have passed for each chunk,
  and each of the consumers has given up just if `3000` ticks have passed since the last
  chunk – or since the start, if there is no chunk. -/
theorem pipeline_schedule {events : List Event} (hsmall : ∀ ev ∈ events, ev.Small) {c : Clocked}
    (h : Reachable Clocked.fire (Clocked.start events) c) :
    ∃ all, cutEvents events = some all ∧
      c.timed.sys.packets.map some =
        (all.take c.timed.sys.packets.length).map packetOf ∧
      min all.length ((c.now + 49) / 50) ≤ c.timed.sys.packets.length ∧
      c.timed.sys.packets.length ≤ min all.length (c.now / 50 + 1) ∧
      (c.timed.runnable = false →
        c.timed.sys.packets.map some = (all.take (c.now / 50 + 1)).map packetOf ∧
        (c.timed.sys.task1 = .finished ↔ 50 * all.length ≤ c.now) ∧
        (c.timed.sys.task2 = .gaveUp ↔ 3000 + 50 * (all.length - 1) ≤ c.now) ∧
        (c.timed.sys.task3 = .gaveUp ↔ 3000 + 50 * (all.length - 1) ≤ c.now)) := by
  have htime := Clocked.onTime hsmall h
  have htimed := Clocked.reachable_timed h
  have hp := Timed.punctual hsmall htimed
  obtain ⟨d, hrelays, hall⟩ := Sys.exists_relays hsmall (Timed.reachable_sys htimed)
  obtain ⟨hsentle, hsenteq⟩ := hrelays.sent_le
  have hsent : c.timed.sys.sent = c.timed.sys.packets.length + c.timed.sys.inFlight.length := rfl
  have hdelay : c.timed.delay ≤ 50 := hp.delay
  rw [hall] at hsentle hsenteq
  refine ⟨_, cutEvents_eq hsmall, ?_, ?_, ?_, fun hrun => ?_⟩
  · rw [hrelays.take_eq hall, hrelays.packets]
  · rcases hnil : c.timed.sys.inFlight with _ | ⟨chunk, rest⟩
    · rw [hnil, List.length_nil] at hsent
      rcases eq_or_ne c.timed.sys.task1 .finished with hfinished | hwork
      · have heq := hsenteq hfinished
        omega
      · have hnow := htime.working hwork
        omega
    · obtain ⟨hnow, hone⟩ := htime.now_add hp chunk (by simp [hnil])
      omega
  · rcases eq_or_ne c.timed.sys.task1 .finished with hfinished | hwork
    · have hnow := htime.finished hfinished
      omega
    · have hnow := htime.working hwork
      omega
  · -- before a tick, nothing is between the chunks sent and the packets
    have hnil := hp.drained_of_quiet hrelays hrun
    have hpackets := congrArg List.length hrelays.packets
    have htimers := hp.timers_pos hrelays hrun
    have hforwarded := hrelays.forwarded
    have hencoded := hrelays.encoded
    rw [List.length_map, List.length_map] at hpackets
    rw [hnil, List.length_nil] at hsent
    simp only [Sys.inFlight, List.append_eq_nil_iff] at hnil
    obtain ⟨⟨⟨hheld3, hqueue2⟩, hheld2⟩, -⟩ := hnil
    rw [hheld3, hqueue2, hheld2] at hforwarded
    rw [hheld3] at hencoded
    simp only [List.length_nil] at hforwarded hencoded
    have hcount : c.timed.sys.packets.length =
        min (events.flatMap Event.chunks).length (c.now / 50 + 1) ∧
        (c.timed.sys.task1 = .finished ↔
          50 * (events.flatMap Event.chunks).length ≤ c.now) := by
      rcases eq_or_ne c.timed.sys.task1 .finished with hfinished | hwork
      · have heq := hsenteq hfinished
        have hnow := htime.finished hfinished
        exact ⟨by omega, fun _ => by omega, fun _ => hfinished⟩
      · have hnow := htime.working hwork
        have hpos := (hp.quiet hrelays hrun hwork).2
        exact ⟨by omega, fun hfinished => absurd hfinished hwork, fun hlate => by omega⟩
    have hend : ∀ task : Consumer, (task = c.timed.sys.task2 ∨ task = c.timed.sys.task3) →
        task = .gaveUp → c.timed.sys.sent = (events.flatMap Event.chunks).length := by
      rintro task (rfl | rfl) hgave
      · exact hsenteq (by_contra fun hwork => hp.working2 hwork hgave)
      · exact hsenteq (by_contra fun hwork => hp.working3 hwork hgave)
    refine ⟨?_, hcount.2, ?_, ?_⟩
    · have htake : (events.flatMap Event.chunks).take (c.now / 50 + 1) = d.delivered := by
        rw [← hrelays.take_eq hall, List.take_eq_take_iff]
        omega
      rw [htake, hrelays.packets]
    · exact Consumer.gaveUp_iff hheld2 (fun htask => ⟨htime.receiving2 htask, htimers.1 htask⟩)
        (by omega) fun hgave => hend _ (Or.inl rfl) hgave ▸ htime.gaveUp2 hgave
    · exact Consumer.gaveUp_iff hheld3 (fun htask => ⟨htime.receiving3 htask, htimers.2 htask⟩)
        (by omega) fun hgave => hend _ (Or.inr rfl) hgave ▸ htime.gaveUp3 hgave

/-- An event of one byte, when the consumers have given up. -/
theorem pipeline_schedule_one_byte : ∃ (c : Clocked) (all : List PayloadChunk),
    c.timed.runnable = false ∧ c.timed.sys.task2 = .gaveUp ∧ 3000 ≤ c.now ∧
      cutEvents [⟨1000, 1, [0x41], rfl⟩] = some all ∧
      c.timed.sys.packets.map some = all.map packetOf ∧ c.timed.sys.task1 = .finished := by
  obtain ⟨c, hreach, hrun, hgave, hlate⟩ := Clocked.exists_gaveUp_one_byte
  obtain ⟨all, hcut, -, -, -, hquiet⟩ := pipeline_schedule (by decide) hreach
  obtain ⟨hpackets, hfinished, hgave2, -⟩ := hquiet hrun
  have hend := hgave2.mp hgave
  rw [List.take_of_length_le (by omega)] at hpackets
  exact ⟨c, all, hrun, hgave, hlate, hcut, hpackets, hfinished.mpr (by omega)⟩

/-! ### Time does not stop -/

/-- What task 1 has to do besides what a chunk needs. -/
def Task1.steps : Task1 → ℕ
  | .next events => 2 * events.length + 1
  | .sending _ _ events => 2 * events.length + 2
  | .delaying _ _ events => 2 * events.length + 3
  | .finished => 0

/-- The receive of a consumer that will time out. -/
def Consumer.steps : Consumer → ℕ
  | .gaveUp => 0
  | _ => 1

/-- **The actions that are left**, without those of the endless loops: six for each chunk that
was not sent, and fewer the further it has come. -/
def Sys.work (s : Sys) : ℕ :=
  s.task1.steps + s.task2.steps + s.task3.steps + 6 * (s.task1.unsent.getD []).length +
    4 * s.queue1.items.length + 3 * s.task2.held.length + 2 * s.queue2.items.length +
    s.task3.held.length

/-- The endless loops that may take a turn in this tick. -/
def Timed.idles (t : Timed) : ℕ :=
  (match t.sys.task1, t.timer1 with
    | .finished, 0 => 1
    | _, _ => 0) +
  (match t.sys.task2, t.timer2 with
    | .gaveUp, 0 => 1
    | _, _ => 0) +
  (match t.sys.task3, t.timer3 with
    | .gaveUp, 0 => 1
    | _, _ => 0)

/-- **The actions that are left before the next tick.** -/
def Timed.work (t : Timed) : ℕ := t.sys.work + t.idles

theorem Timed.idles_le (t : Timed) : t.idles ≤ 3 := by
  rw [Timed.idles]
  split <;> split <;> split <;> omega

@[simp] theorem Consumer.steps_receiving : Consumer.receiving.steps = 1 := rfl

@[simp] theorem Consumer.steps_holding (chunk : PayloadChunk) :
    (Consumer.holding chunk).steps = 1 := rfl

@[simp] theorem Consumer.steps_gaveUp : Consumer.gaveUp.steps = 0 := rfl

/-- The delay of an endless loop takes time. -/
theorem pdMsToTicks_pos : 0 < pdMsToTicks 1000 := by decide

/-- **Every action uses up work.** -/
theorem Timed.work_act {t t' : Timed} {a : Action} {d : Delivery PayloadChunk}
    (hrelays : t.sys.Relays d) (hact : t.act a = some t') : t'.work < t.work := by
  obtain ⟨hdue, sys, hfire, rfl⟩ := Timed.act_eq_some hact
  obtain ⟨unsent, hunsent, -⟩ := hrelays.pending
  have hpos := pdMsToTicks_pos.ne'
  cases Sys.fire_step hfire with
  | finish htask =>
    simp [Timed.work, Timed.idles, Timed.rearm, Sys.work, htask, Task1.steps, Task1.unsent, hpos]
    omega
  | @nextEvent ev events htask =>
    have hnext : (Task1.sending ev ev.enter events).unsent = (Task1.next (ev :: events)).unsent :=
      rfl
    simp [Timed.work, Timed.idles, Timed.rearm, Sys.work, htask, Task1.steps, hnext]
    omega
  | @send1 ev loop loop' events chunk queue1 htask hturn hqueue =>
    rw [htask, Task1.unsent_eq_some] at hunsent
    obtain ⟨l, rest, hl, hrest, rfl⟩ := hunsent
    obtain ⟨l', hl', rfl⟩ := run_of_turn hl hturn
    simp [Timed.work, Timed.idles, Timed.rearm, Sys.work, htask, Task1.steps, Task1.unsent, hl,
      hl', hrest, hqueue]
    omega
  | @endEvent ev loop events htask hexit =>
    rw [htask, Task1.unsent_eq_some] at hunsent
    obtain ⟨l, rest, hl, hrest, rfl⟩ := hunsent
    obtain rfl : [] = l := Option.some.inj ((run_of_exit hexit _).symm.trans hl)
    simp [Timed.work, Timed.idles, Timed.rearm, Sys.work, htask, Task1.steps, Task1.unsent, hl,
      hrest]
  | wake1 htask =>
    simp [Timed.work, Timed.idles, Timed.rearm, Sys.work, htask, Task1.steps, Task1.unsent]
  | receive2 htask hqueue =>
    simp [Timed.work, Timed.idles, Timed.rearm, Sys.work, htask, hqueue]
    omega
  | send2 htask hqueue =>
    simp [Timed.work, Timed.idles, Timed.rearm, Sys.work, htask, hqueue]
    omega
  | timeout2 htask hqueue =>
    simp [Timed.work, Timed.idles, Timed.rearm, Sys.work, htask, hpos]
  | receive3 htask hqueue =>
    simp [Timed.work, Timed.idles, Timed.rearm, Sys.work, htask, hqueue]
    omega
  | encode3 htask hencode =>
    simp [Timed.work, Timed.idles, Timed.rearm, Sys.work, htask]
  | tooLarge3 htask hencode =>
    simp [Timed.work, Timed.idles, Timed.rearm, Sys.work, htask]
  | timeout3 htask hqueue =>
    simp [Timed.work, Timed.idles, Timed.rearm, Sys.work, htask, hpos]
  | idle1 htask =>
    have hzero : t.timer1 = 0 := beq_iff_eq.mp hdue
    simp [Timed.work, Timed.idles, Timed.rearm, Sys.work, htask, hzero, hpos]
  | idle2 htask =>
    have hzero : t.timer2 = 0 := beq_iff_eq.mp hdue
    simp [Timed.work, Timed.idles, Timed.rearm, Sys.work, htask, hzero, hpos]
  | idle3 htask =>
    have hzero : t.timer3 = 0 := beq_iff_eq.mp hdue
    simp [Timed.work, Timed.idles, Timed.rearm, Sys.work, htask, hzero, hpos]

/-- The work at the start. -/
theorem Timed.work_start {events : List Event} {all : List PayloadChunk}
    (hcut : cutEvents events = some all) :
    (Timed.start events).work = 6 * all.length + 2 * events.length + 3 := by
  simp [Timed.work, Timed.idles, Timed.start, Sys.work, Sys.start, Task1.steps, Task1.unsent, hcut,
    Queue.empty, Consumer.held]
  omega

/-- **Time does not stop.** For events of at most `256` bytes, and in every state reached in
time: some action or a tick is possible, and the actions taken so far are at most six for each
chunk, two for each event and three more, and three for each tick that has passed. -/
theorem pipeline_time_diverges {events : List Event} (hsmall : ∀ ev ∈ events, ev.Small)
    {c : Clocked} (h : Reachable Clocked.fire (Clocked.start events) c) :
    (∃ a c', c.fire a = some c') ∧ ∃ all, cutEvents events = some all ∧
      c.actions ≤ 6 * all.length + 2 * events.length + 3 + 3 * c.now := by
  refine ⟨?_, _, cutEvents_eq hsmall, ?_⟩
  · rcases hrun : c.timed.runnable with _ | _
    · exact ⟨none, _, by rw [Clocked.fire, Timed.fire, hrun]; rfl⟩
    · obtain ⟨a, -, hact⟩ := List.any_eq_true.mp hrun
      obtain ⟨t, ht⟩ := Option.isSome_iff_exists.mp hact
      exact ⟨some a, _, by rw [Clocked.fire, Timed.fire, ht]; rfl⟩
  · -- what was done and what is left is never more than what was paid in
    have hbudget : c.actions + c.timed.work ≤
        6 * (events.flatMap Event.chunks).length + 2 * events.length + 3 + 3 * c.now := by
      induction h with
      | init => exact (Nat.zero_add _).trans_le (Timed.work_start (cutEvents_eq hsmall)).le
      | @step a c c' hreach hfire ih =>
        cases a with
        | some a =>
          obtain ⟨hact, hnow, hactions⟩ := Clocked.fire_some hfire
          obtain ⟨d, hrelays, -⟩ :=
            Sys.exists_relays hsmall (Timed.reachable_sys (Clocked.reachable_timed hreach))
          have hless := Timed.work_act hrelays hact
          omega
        | none =>
          obtain ⟨-, rfl⟩ := Clocked.fire_none hfire
          have hidles := c.timed.tick.idles_le
          have hwork : c.timed.tick.work ≤ c.timed.work + c.timed.tick.idles := by
            rw [Timed.work, Timed.work]
            exact Nat.add_le_add_right (Nat.le_add_right _ _) _
          change c.actions + c.timed.tick.work ≤ _ + 3 * (c.now + 1)
          omega
    omega

/-- An event of one byte, when the consumers have given up. -/
theorem pipeline_time_diverges_one_byte : ∃ (c : Clocked) (all : List PayloadChunk),
    3000 ≤ c.now ∧ (∃ a c', c.fire a = some c') ∧ cutEvents [⟨1000, 1, [0x41], rfl⟩] = some all ∧
      c.actions ≤ 6 * all.length + 2 * 1 + 3 + 3 * c.now := by
  obtain ⟨c, hreach, -, -, hlate⟩ := Clocked.exists_gaveUp_one_byte
  obtain ⟨hstep, all, hcut, hle⟩ := pipeline_time_diverges (by decide) hreach
  exact ⟨c, all, hlate, hstep, hcut, hle⟩

end CubesatPipeline
