import CubesatPipeline.QueueSteps

/-!
# How long a call takes

A call that is refused has waited for as long as it was asked to
(`CubesatPipeline.QueueView.Step.waits`). Each time the task goes round the loop it waits for what
is left, from the time at which that was found; so what is followed is the time at which the
call may give up (`CubesatPipeline.CallFrame.Waits`).

A task that delays itself goes on when the time is over (`CubesatPipeline.QueueView.Step.delays`):
until then it is blocked, and is not chosen to run.
-/

namespace CubesatPipeline

section Waits

variable {T U : Type} {n : TickType} {since now now' : ℕ} {f f' : CallFrame U} {frame : Frame U}
  {c : QueueConfig T U} {v v' : QueueView T U} {t : T}

/-- The time is up, or the call is refused. -/
def CallPoint.timedOut : CallPoint → Bool
  | unlockTx .timedOut | unlockRx .timedOut | xTaskResumeAll .timedOut | recheck
  | yield .recheck | yielded .recheck => true
  | yield (.leave reply) | yielded (.leave reply) => !reply.served
  | _ => false

/-- The call of a task was refused. -/
def Frame.refused : Frame U → Bool
  | returned reply => !reply.served
  | inside _ => false

/-- **A call for `n` ticks, since some time.** What is left of the time reaches as far as it
did. -/
structure CallFrame.Waits (n : TickType) (since now : ℕ) (f : CallFrame U) : Prop where
  since_le : since ≤ now
  forever : n = portMaxDelay → f.xTicksToWait = portMaxDelay
  finite : n ≠ portMaxDelay → f.xTicksToWait ≠ portMaxDelay
  left : n ≠ portMaxDelay → since + n.toNat ≤ now ∨ f.xTimeOut = none ∧ f.xTicksToWait = n ∨
    ∃ o, f.xTimeOut = some o ∧ since + n.toNat ≤ o.entered + f.xTicksToWait.toNat
  ended : f.point.timedOut = true → n ≠ portMaxDelay ∧ since + n.toNat ≤ now

/-- The same, for a task that may be after the call. -/
def Frame.Waits (n : TickType) (since now : ℕ) : Frame U → Prop
  | returned reply => reply.served = false → n ≠ portMaxDelay ∧ since + n.toNat ≤ now
  | inside f => f.Waits n since now

namespace CallFrame.Waits

theorem mono (h : f.Waits n since now) (hle : now ≤ now') : f.Waits n since now' where
  since_le := h.since_le.trans hle
  forever := h.forever
  finite := h.finite
  left hn := (h.left hn).imp_left fun hup => hup.trans hle
  ended hp := ⟨(h.ended hp).1, (h.ended hp).2.trans hle⟩

/-- The task goes on to another point. -/
theorem move (h : f.Waits n since now) {point : CallPoint}
    (hover : point.timedOut = true → f.point.timedOut = true) :
    CallFrame.Waits n since now { f with point := point } :=
  ⟨h.since_le, h.forever, h.finite, h.left, fun hp => h.ended (hover hp)⟩

theorem next (h : f.Waits n since now) {next : NextPoint} (hpoint : f.point = .yielded next) :
    (f.next next).Waits n since now := by
  cases next with
  | head => exact h.move nofun
  | recheck => exact h.move fun _ => by rw [hpoint]; rfl
  | leave reply =>
    refine fun hrefused => h.ended ?_
    rw [hpoint, CallPoint.timedOut, hrefused]
    rfl

/-- A call that does not wait any more has waited long enough. -/
theorem le_of_zero (h : f.Waits n since now) (hzero : f.xTicksToWait = 0)
    (hentered : ∀ o, f.xTimeOut = some o → o.entered ≤ now) :
    n ≠ portMaxDelay ∧ since + n.toNat ≤ now := by
  have hn : n ≠ portMaxDelay := fun heq => by
    cases hzero.symm.trans (h.forever heq)
  refine ⟨hn, ?_⟩
  rcases h.left hn with hup | ⟨-, heq⟩ | ⟨o, ho, hle⟩
  · exact hup
  · rw [← heq, hzero]
    exact h.since_le
  · have hle' := hentered o ho
    have hnothing : f.xTicksToWait.toNat = 0 := by rw [hzero]; rfl
    omega

end CallFrame.Waits

theorem Frame.Waits.mono (h : frame.Waits n since now) (hle : now ≤ now') :
    frame.Waits n since now' := by
  cases frame with
  | returned => exact fun hrefused => ⟨(h hrefused).1, (h hrefused).2.trans hle⟩
  | inside f => exact CallFrame.Waits.mono h hle

/-- Only a call whose time is up goes on to be refused. -/
theorem timedOut_of_after {r : TaskRequest U} {outcome : Outcome}
    (h : (CallPoint.yielded (r.after outcome)).timedOut = true) :
    (CallPoint.xTaskResumeAll outcome).timedOut = true := by
  cases outcome with
  | timedOut => rfl
  | blocked | again => cases r <;> cases h

/-- What the task does by itself. -/
theorem CallFrame.Moves.waits (hm : f.Moves c now v frame) (h : f.Waits n since now)
    (hproper : f.Proper c now t) : frame.Waits n since now := by
  cases hm with
  | refuse _ _ _ _ hzero => exact fun _ => h.le_of_zero hzero hproper.entered
  | wait _ _ _ _ hpos htime =>
    refine ⟨h.since_le, h.forever, h.finite, fun hn => ?_, nofun⟩
    rcases h.left hn with hup | ⟨hnone, heq⟩ | ⟨o, ho, hle⟩
    · exact .inl hup
    · rcases htime with hset | ⟨-, hnow⟩
      · cases hnone.symm.trans hset
      · refine .inr (.inr ⟨_, rfl, ?_⟩)
        rw [hnow]
        change since + n.toNat ≤ now + f.xTicksToWait.toNat
        rw [heq]
        exact Nat.add_le_add_right h.since_le _
    · rcases htime with hset | ⟨hnone, -⟩
      · obtain rfl := Option.some.inj (ho.symm.trans hset)
        exact .inr (.inr ⟨o, rfl, hle⟩)
      · cases hnone.symm.trans ho
  | delayZero | delay | mustWait | again | notEmpty => exact h.move nofun
  | inTime hpoint htime hpos hentered hleft =>
    -- what is left from now on reaches as far as what was left before
    rcases hleft with ⟨hmax, hmax'⟩ | ⟨hmax, hmax', hle⟩
    · have hn : n = portMaxDelay := by
        by_contra hn
        exact h.finite hn hmax
      exact ⟨h.since_le, fun _ => hmax', fun hne => absurd hn hne, fun hne => absurd hn hne,
        nofun⟩
    · refine ⟨h.since_le, fun hn => absurd (h.forever hn) hmax, fun _ => hmax', fun hn => ?_,
        nofun⟩
      rcases h.left hn with hup | ⟨hnone, -⟩ | ⟨o, ho, hle'⟩
      · exact .inl hup
      · cases hnone.symm.trans htime
      · obtain rfl := Option.some.inj (ho.symm.trans htime)
        exact .inr (.inr ⟨_, rfl, hle'.trans hle⟩)
  | timeUp hpoint htime hmax hup =>
    have hn : n ≠ portMaxDelay := fun heq => hmax (h.forever heq)
    have hover : since + n.toNat ≤ now := by
      rcases h.left hn with hover | ⟨hnone, -⟩ | ⟨o, ho, hle⟩
      · exact hover
      · cases hnone.symm.trans htime
      · obtain rfl := Option.some.inj (ho.symm.trans htime)
        exact hle.trans hup
    exact ⟨h.since_le, fun heq => absurd heq hn, fun _ => nofun, fun _ => .inl hover,
      fun _ => ⟨hn, hover⟩⟩
  | yielded hpoint => exact h.next hpoint
  | empty hpoint => exact fun _ => h.ended (by rw [hpoint]; rfl)

variable [DecidableEq T]

/-- The task that runs goes on, and the others are where they were. -/
theorem goOn_frame {P P' : Frame U → Prop} (h : P (v.frames t))
    (hothers : P (v.frames t) → P' (v.frames t))
    (hself : t = v.tasks.current → P (v.frames v.tasks.current) → P' frame) :
    P' (Function.update v.frames v.tasks.current frame t) := by
  by_cases ht : t = v.tasks.current
  · subst ht
    rw [Function.update_self]
    exact hself rfl h
  · rw [Function.update_of_ne ht]
    exact hothers h

theorem waits_goOn (h : (v.frames t).Waits n since v.tasks.now) (hle : v.tasks.now ≤ now)
    (hframe : (v.frames v.tasks.current).Waits n since v.tasks.now → frame.Waits n since now) :
    (Function.update v.frames v.tasks.current frame t).Waits n since now :=
  goOn_frame (P := Frame.Waits n since v.tasks.now) h (·.mono hle) fun _ => hframe

/-- Whether a task calls something. -/
def QueueAction.isRequest : QueueAction U → Bool
  | request _ => true
  | _ => false

/-- **No step makes a call give up before its time is over**, but one in which the task calls
something again. -/
theorem QueueView.Step.waits [DecidableEq U] {a : QueueAction U} (hstep : QueueView.Step c a v v')
    (hinv : v.Inv c) (hcall : a.isRequest = true → v.tasks.current ≠ t)
    (h : (v.frames t).Waits n since v.tasks.now) : (v'.frames t).Waits n since v'.tasks.now := by
  cases hstep with
  | request =>
    have hne := hcall rfl
    change (Function.update v.frames v.tasks.current _ t).Waits n since v.tasks.now
    rw [Function.update_of_ne hne.symm]
    exact h
  | move _ hframe hmoves =>
    refine waits_goOn h le_rfl fun hw => ?_
    rw [hframe] at hw
    exact hmoves.waits hw (hinv.proper _ _ hframe)
  | serve _ hframe hpoint hrequest hserve hserved hfreed hleaves =>
    refine waits_goOn h hfreed.now.ge fun hw => ?_
    rw [hframe] at hw
    rcases hleaves with rfl | rfl
    · exact fun hrefused => absurd hserved (by rw [hrefused]; exact Bool.false_ne_true)
    · refine (CallFrame.Waits.move hw fun hp => ?_).mono hfreed.now.ge
      rw [CallPoint.timedOut, hserved] at hp
      cases hp
  | suspend _ hframe hpoint htasks =>
    rename_i f tasks
    refine waits_goOn h htasks.now_le fun hw => ?_
    rw [hframe] at hw
    refine (CallFrame.Waits.move hw fun hp => ?_).mono htasks.now_le
    cases hrequest : f.request with
    | queue | vTaskDelay =>
      rw [hrequest] at hp
      cases hp
  | lock _ hframe =>
    refine waits_goOn h le_rfl fun hw => ?_
    rw [hframe] at hw
    exact CallFrame.Waits.move hw nofun
  | place _ hframe _ _ htasks | placeDelay _ hframe _ _ htasks =>
    refine waits_goOn h htasks.now_le fun hw => ?_
    rw [hframe] at hw
    exact (CallFrame.Waits.move hw fun hp => by cases hp).mono htasks.now_le
  | unlock _ hframe hunlocks hfreed =>
    refine waits_goOn h hfreed.now.ge fun hw => ?_
    rw [hframe] at hw
    refine (CallFrame.Waits.move hw fun hp => ?_).mono hfreed.now.ge
    cases hunlocks with
    | tx hpoint hrequest | rx hpoint hrequest =>
      rename_i outcome
      rw [hpoint]
      cases outcome with
      | timedOut => rfl
      | blocked | again => cases hp
  | resume _ hframe hpoint htasks hnext =>
    rename_i f outcome tasks frame
    refine waits_goOn h htasks.now_le fun hw => ?_
    rw [hframe] at hw
    have hafter : (CallPoint.yielded (f.request.after outcome)).timedOut = true →
        f.point.timedOut = true := fun hp => by
      rw [hpoint]
      exact timedOut_of_after hp
    rcases hnext with rfl | ⟨-, rfl⟩
    · refine (CallFrame.Waits.move hw fun hp => hafter ?_).mono htasks.now_le
      cases hnext : f.request.after outcome with
      | head | recheck | leave =>
        rw [hnext] at hp
        exact hp
    · have hyielded : CallFrame.Waits n since v.tasks.now
          { f with point := .yielded (f.request.after outcome) } := CallFrame.Waits.move hw hafter
      exact (hyielded.next rfl).mono htasks.now_le
  | yield _ hframe hpoint htasks =>
    rename_i f next tasks
    refine waits_goOn h htasks.now_le fun hw => ?_
    rw [hframe] at hw
    refine (CallFrame.Waits.move hw fun hp => ?_).mono htasks.now_le
    rw [hpoint]
    cases next with
    | head | recheck | leave => exact hp
  | tick _ htasks | switch _ htasks => exact h.mono htasks.now_le
  | serveISR _ _ _ _ _ hfreed => exact h.mono hfreed.now.ge
  | countISR | refuseISR => exact h

omit [DecidableEq T] in
/-- A call that was refused has waited long enough. -/
theorem Frame.Waits.of_refused (h : frame.Waits n since now) (hrefused : frame.refused = true) :
    n ≠ portMaxDelay ∧ since + n.toNat ≤ now := by
  cases frame with
  | returned reply => exact h (Bool.not_eq_true' _ ▸ hrefused)
  | inside f => cases hrefused

/-- A call begins. -/
theorem waits_request (r : TaskRequest U) (now : ℕ) :
    CallFrame.Waits r.xTicksToWait now now ⟨r, r.xTicksToWait, none, .head⟩ :=
  ⟨le_rfl, id, id, fun _ => .inr (.inl ⟨rfl, rfl⟩), nofun⟩

end Waits

/-! ### Delays -/

section Over

variable {T Q : Type} [DecidableEq T] [DecidableEq Q] {uxPriority : T → Fin configMaxPriorities}
  {b : TaskAction Q} {q : Q} {m : ℕ} {W : Finset T} {tasks tasks' : TaskView T Q} {t : T} {w : ℕ}

/-- It is time, or the task is blocked until it is. -/
def TaskView.Over (tasks : TaskView T Q) (t : T) (w : ℕ) : Prop :=
  w ≤ tasks.now ∨ ∃ w', w ≤ w' ∧ tasks.now < w' ∧ tasks.Delayed t w'

theorem TaskView.Over.step (h : tasks.Over t w) (hstep : TaskView.Step uxPriority b tasks tasks') :
    tasks'.Over t w := by
  rcases h with hup | ⟨w', hle, hlt, hdelayed⟩
  · exact .inl (hup.trans hstep.now_le)
  · by_cases hnow : tasks'.now < w'
    · exact .inr ⟨w', hle, hnow, (hdelayed.step hlt hstep).1 hnow⟩
    · exact .inl (hle.trans (not_lt.mp hnow))

/-- The task that runs blocks itself. -/
theorem TaskView.Step.over {n : TickType}
    (hstep : TaskView.Step uxPriority (.prvAddCurrentTaskToDelayedList n) tasks tasks')
    (hn : n ≠ 0) (hle : w ≤ tasks.now + n.toNat) : tasks'.Over tasks.current w := by
  cases hstep with
  | delay =>
    refine .inr ⟨tasks.now + n.toNat, hle, ?_, ?_, ?_⟩
    · have hne : n.toNat ≠ 0 := fun hzero => hn (UInt32.toNat_inj.mp hzero)
      exact Nat.lt_add_of_pos_right (Nat.pos_of_ne_zero hne)
    · refine (Function.update_self ..).trans ?_
      -- a delay has an end, also one of `portMaxDelay` ticks
      exact if_neg fun hforever => Bool.false_ne_true hforever.2
    · exact Function.update_self ..

omit [DecidableEq T] [DecidableEq Q] in
/-- A task that waits for nothing is not woken. -/
theorem TaskView.Over.freed (h : tasks.Over t w) (hfreed : tasks.Freed uxPriority q m tasks' W) :
    tasks'.Over t w := by
  rw [TaskView.Over, hfreed.now]
  refine h.imp_right fun ⟨w', hle, hlt, hdelayed⟩ => ⟨w', hle, hlt, ?_⟩
  have hnot : t ∉ W := fun hw => by cases hdelayed.waits.symm.trans (hfreed.waited t hw)
  exact ⟨(hfreed.status t hnot).trans hdelayed.status, (hfreed.waits t hnot).trans hdelayed.waits⟩

omit [DecidableEq T] [DecidableEq Q] in
/-- A task that runs is not blocked. -/
theorem TaskView.Over.le_of_ready (h : tasks.Over t w) (hready : tasks.status t = .ready) :
    w ≤ tasks.now := by
  rcases h with hup | ⟨w', -, -, hdelayed⟩
  · exact hup
  · cases hready.symm.trans hdelayed.status

end Over

section Delays

variable {T U : Type} {n : TickType} {since w : ℕ} {f : CallFrame U} {frame : Frame U}
  {c : QueueConfig T U} {v v' : QueueView T U} {tasks tasks' : TaskView T (QueueEvent U)} {t : T}

/-- The task has blocked itself, if it was to. -/
def CallPoint.placed : CallPoint → Bool
  | xTaskResumeAll _ | yield _ | yielded _ => true
  | _ => false

/-- **A task delays itself** for `n` ticks, since some time. -/
structure CallFrame.Delays (n : TickType) (since : ℕ) (tasks : TaskView T (QueueEvent U)) (t : T)
    (f : CallFrame U) : Prop where
  request : f.request = .vTaskDelay n
  ticks : f.xTicksToWait = n
  since_le : since ≤ tasks.now
  placed : f.point.placed = true → tasks.Over t (since + n.toNat)

/-- The same, for a task that may be after the call. -/
def Frame.Delays (n : TickType) (since : ℕ) (tasks : TaskView T (QueueEvent U)) (t : T) :
    Frame U → Prop
  | returned _ => since + n.toNat ≤ tasks.now
  | inside f => f.Delays n since tasks t

theorem Frame.Delays.mono (h : frame.Delays n since tasks t) (hle : tasks.now ≤ tasks'.now)
    (hover : tasks.Over t (since + n.toNat) → tasks'.Over t (since + n.toNat)) :
    frame.Delays n since tasks' t := by
  cases frame with
  | returned => exact le_trans (show since + n.toNat ≤ tasks.now from h) hle
  | inside f => exact ⟨h.request, h.ticks, h.since_le.trans hle, fun hp => hover (h.placed hp)⟩

theorem delays_request (hle : since ≤ tasks.now) :
    CallFrame.Delays n since tasks t (⟨.vTaskDelay n, n, none, .head⟩ : CallFrame U) :=
  ⟨rfl, rfl, hle, fun hplaced => by cases hplaced⟩

theorem Frame.Delays.of_returned (h : frame.Delays n since tasks t)
    (hreturned : frame.isReturned = true) : since + n.toNat ≤ tasks.now := by
  cases frame with
  | returned => exact h
  | inside => cases hreturned

/-- The task goes on to another point. -/
theorem CallFrame.Delays.move (h : f.Delays n since tasks t) {point : CallPoint}
    (hle : tasks.now ≤ tasks'.now)
    (hplaced : point.placed = true → tasks'.Over t (since + n.toNat)) :
    CallFrame.Delays n since tasks' t { f with point := point } :=
  ⟨h.request, h.ticks, h.since_le.trans hle, hplaced⟩

/-- It is not in a call of a queue. -/
theorem CallFrame.Delays.ne_queue (h : f.Delays n since tasks t) {pxQueue : U} {op : QueueOp}
    {m : TickType} : f.request ≠ .queue pxQueue op m := fun hrequest => by
  cases h.request.symm.trans hrequest

variable [DecidableEq T] [DecidableEq U]

/-- What the task does by itself. -/
theorem CallFrame.Moves.delays (hm : f.Moves c v.tasks.now v frame) (hinv : v.Inv c)
    (hframe : v.frames v.tasks.current = .inside f)
    (h : f.Delays n since v.tasks v.tasks.current) :
    frame.Delays n since v.tasks v.tasks.current := by
  have hdelays := (hinv.proper _ _ hframe).delays (by rw [h.request]; rfl)
  cases hm with
  | refuse _ hrequest | wait _ hrequest | mustWait _ hrequest | again _ hrequest
  | empty _ hrequest | notEmpty _ hrequest => exact absurd hrequest h.ne_queue
  | inTime hpoint | timeUp hpoint =>
    rw [hpoint] at hdelays
    cases hdelays
  | delay => exact h.move le_rfl fun hp => by cases hp
  | delayZero _ _ hzero =>
    refine h.move le_rfl fun _ => .inl ?_
    have hnothing : n.toNat = 0 := by rw [← h.ticks, hzero]; rfl
    have hle := h.since_le
    omega
  | yielded hpoint =>
    rename_i next
    have hready : v.tasks.status v.tasks.current = .ready :=
      hinv.sched.active (active_of_point hframe hpoint)
    rw [hpoint] at hdelays
    cases next with
    | leave => exact (h.placed (by rw [hpoint]; rfl)).le_of_ready hready
    | head | recheck => cases hdelays

omit [DecidableEq U] in
theorem delays_goOn (h : (v.frames t).Delays n since v.tasks t) (hle : v.tasks.now ≤ tasks.now)
    (hover : v.tasks.Over t (since + n.toNat) → tasks.Over t (since + n.toNat))
    (hframe : t = v.tasks.current → (v.frames v.tasks.current).Delays n since v.tasks t →
      frame.Delays n since tasks t) :
    (Function.update v.frames v.tasks.current frame t).Delays n since tasks t :=
  goOn_frame (P := Frame.Delays n since v.tasks t) h (·.mono hle hover) hframe

/-- **No step cuts a delay short.** -/
theorem QueueView.Step.delays {a : QueueAction U} (hstep : QueueView.Step c a v v')
    (hinv : v.Inv c) (hcall : a.isRequest = true → v.tasks.current ≠ t)
    (h : (v.frames t).Delays n since v.tasks t) : (v'.frames t).Delays n since v'.tasks t := by
  cases hstep with
  | request =>
    refine delays_goOn h le_rfl id fun ht => ?_
    exact absurd ht.symm (hcall rfl)
  | move _ hframe hmoves =>
    refine delays_goOn h le_rfl id fun ht hd => ?_
    subst ht
    rw [hframe] at hd
    exact hmoves.delays hinv hframe hd
  | serve _ hframe hpoint hrequest hserve hserved hfreed =>
    refine delays_goOn h hfreed.now.ge (·.freed hfreed) fun _ hd => ?_
    rw [hframe] at hd
    exact absurd hrequest hd.ne_queue
  | suspend _ hframe hpoint htasks =>
    refine delays_goOn h htasks.now_le (·.step htasks) fun _ hd => ?_
    rw [hframe] at hd
    refine hd.move htasks.now_le fun hp => ?_
    rw [hd.request] at hp
    cases hp
  | lock _ hframe _ hrequest =>
    refine delays_goOn h le_rfl id fun _ hd => ?_
    rw [hframe] at hd
    exact absurd hrequest hd.ne_queue
  | place _ hframe _ hrequest htasks =>
    refine delays_goOn h htasks.now_le (·.step htasks) fun _ hd => ?_
    rw [hframe] at hd
    exact absurd hrequest hd.ne_queue
  | placeDelay _ hframe hpoint hrequest htasks =>
    refine delays_goOn h htasks.now_le (·.step htasks) fun ht hd => ?_
    subst ht
    rw [hframe] at hd
    have hpos := (hinv.proper _ _ hframe).waits (by rw [hpoint]; rfl)
    have hle : since + n.toNat ≤ v.tasks.now + n.toNat := Nat.add_le_add_right hd.since_le _
    exact hd.move htasks.now_le fun _ => htasks.over hpos (hd.ticks.symm ▸ hle)
  | unlock _ hframe hunlocks hfreed =>
    refine delays_goOn h hfreed.now.ge (·.freed hfreed) fun _ hd => ?_
    rw [hframe] at hd
    cases hunlocks with
    | tx _ hrequest | rx _ hrequest => exact absurd hrequest hd.ne_queue
  | resume _ hframe hpoint htasks hnext =>
    rename_i f outcome tasks frame
    refine delays_goOn h htasks.now_le (·.step htasks) fun _ hd => ?_
    rw [hframe] at hd
    rcases hnext with rfl | ⟨hblocked, -⟩
    · exact hd.move htasks.now_le fun _ => (hd.placed (by rw [hpoint]; rfl)).step htasks
    · have hdelays := (hinv.proper _ _ hframe).delays (by rw [hd.request]; rfl)
      rw [hpoint] at hdelays
      cases outcome with
      | blocked => exact absurd rfl hblocked
      | again | timedOut => cases hdelays
  | yield _ hframe hpoint htasks =>
    refine delays_goOn h htasks.now_le (·.step htasks) fun _ hd => ?_
    rw [hframe] at hd
    exact hd.move htasks.now_le fun _ => (hd.placed (by rw [hpoint]; rfl)).step htasks
  | tick _ htasks | switch _ htasks => exact h.mono htasks.now_le (·.step htasks)
  | serveISR _ _ _ _ _ hfreed => exact h.mono hfreed.now.ge (·.freed hfreed)
  | countISR | refuseISR => exact h

end Delays

end CubesatPipeline
