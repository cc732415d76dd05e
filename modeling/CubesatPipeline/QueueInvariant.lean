import CubesatPipeline.Lib.WaitingRoom
import CubesatPipeline.QueueView

/-!
# Tasks in the code of the queues

Where the tasks are in their calls, and what that says of the scheduler and of the locks:

* `CubesatPipeline.Sched`: a task that has not blocked itself is ready, and one that waits in a
  list is at a place from which it goes back to the head of the loop;
* `CubesatPipeline.Suspends`: the scheduler is suspended by the task that runs, or not at all;
* `CubesatPipeline.Locks`: so no other task has locked a queue.
-/

namespace CubesatPipeline

open WaitingRoom

/-! ### What a call does to those that wait -/

section Eases

variable {T Q : Type}

/-- **No task begins to wait**, and one that does not wait any more is ready. -/
structure TaskView.Eases (v v' : TaskView T Q) : Prop where
  ready : ∀ t, v.status t = .ready → v'.status t = .ready
  event : ∀ t q, v'.waits t = .event q → v.waits t = .event q
  awake : ∀ t, v'.waits t = .nothing → v.waits t ≠ .nothing → v'.status t = .ready
  nothing : (∀ t, v.status t = .ready → v.waits t = .nothing) →
    ∀ t, v'.status t = .ready → v'.waits t = .nothing

namespace TaskView

variable {v v' : TaskView T Q}

/-- Ticks pass. -/
theorem pass_eases (v : TaskView T Q) (n : ℕ) : v.Eases (v.pass n) where
  ready t ht := by
    change (v.status t).after (v.now + n) = .ready
    rw [ht]
    rfl
  event t q ht := by
    change (if (v.status t).after (v.now + n) = .ready then TaskWait.nothing else v.waits t) =
      .event q at ht
    split at ht
    · cases ht
    · exact ht
  awake t ht hne := by
    change (if (v.status t).after (v.now + n) = .ready then TaskWait.nothing else v.waits t) =
      .nothing at ht
    split at ht
    next hready => exact hready
    next => exact absurd ht hne
  nothing _ _ ht := if_pos ht

theorem Eases.trans {v'' : TaskView T Q} (h : v.Eases v') (h' : v'.Eases v'') : v.Eases v'' where
  ready t ht := h'.ready t (h.ready t ht)
  event t q ht := h.event t q (h'.event t q ht)
  awake t ht hne := by
    by_cases hmid : v'.waits t = .nothing
    · exact h'.ready t (h.awake t hmid hne)
    · exact h'.awake t ht hmid
  nothing hn := h'.nothing (h.nothing hn)

/-- Nothing but the time or the current task is changed. -/
theorem Eases.of_eq (hstatus : v'.status = v.status) (hwaits : v'.waits = v.waits) :
    v.Eases v' where
  ready t ht := by rw [hstatus, ht]
  event t q ht := by rw [← hwaits, ht]
  awake t ht hne := absurd (hwaits ▸ ht) hne
  nothing h t ht := by
    rw [hwaits]
    exact h t (hstatus ▸ ht)

theorem Freed.eases {uxPriority : T → Fin configMaxPriorities} {q : Q} {n : ℕ} {woken : Finset T}
    (h : v.Freed uxPriority q n v' woken) : v.Eases v' where
  ready t ht := by
    by_cases hw : t ∈ woken
    · rcases h.awake t hw with ⟨-, hsame⟩ | ⟨-, hready⟩
      · rw [hsame, ht]
      · exact hready
    · rw [h.status t hw, ht]
  event t q' ht := by
    by_cases hw : t ∈ woken
    · rcases h.awake t hw with ⟨hnoted, -⟩ | ⟨hnothing, -⟩
      · cases hnoted.symm.trans ht
      · cases hnothing.symm.trans ht
    · rw [← h.waits t hw, ht]
  awake t ht hne := by
    by_cases hw : t ∈ woken
    · rcases h.awake t hw with ⟨hnoted, -⟩ | ⟨-, hready⟩
      · cases hnoted.symm.trans ht
      · exact hready
    · exact absurd ((h.waits t hw).symm.trans ht) hne
  nothing hn t ht := by
    by_cases hw : t ∈ woken
    · rcases h.awake t hw with ⟨-, hsame⟩ | ⟨hnothing, -⟩
      · cases (h.waited t hw).symm.trans (hn t (hsame.symm.trans ht))
      · exact hnothing
    · rw [h.waits t hw]
      exact hn t ((h.status t hw).symm.trans ht)

variable [DecidableEq Q]

/-- The tasks that were noted are made ready. -/
theorem release_eases (v : TaskView T Q) : v.Eases v.release where
  ready t ht := by
    change (if v.waits t = .noted then TaskStatus.ready else v.status t) = .ready
    split
    · rfl
    · exact ht
  event t q ht := by
    change (if v.waits t = .noted then TaskWait.nothing else v.waits t) = .event q at ht
    split at ht
    · cases ht
    · exact ht
  awake t ht hne := by
    change (if v.waits t = .noted then TaskWait.nothing else v.waits t) = .nothing at ht
    split at ht
    next hnoted => exact if_pos hnoted
    next => exact absurd ht hne
  nothing h t ht := by
    change (if v.waits t = .noted then TaskStatus.ready else v.status t) = .ready at ht
    change (if v.waits t = .noted then TaskWait.nothing else v.waits t) = .nothing
    split
    · rfl
    next hnoted => exact h t ((if_neg hnoted).symm.trans ht)

/-- **A call in which the current task does not block itself** makes no task wait. -/
theorem Step.eases [DecidableEq T] {uxPriority : T → Fin configMaxPriorities}
    {a : TaskAction Q} (h : Step uxPriority a v v')
    (ha : a = .vTaskSuspendAll ∨ a = .xTaskResumeAll ∨ a = .xTaskIncrementTick ∨
      a = .vTaskSwitchContext) : v.Eases v' := by
  cases h with
  | suspend | resumeNested | tickPended | switch | switchPended => exact .of_eq rfl rfl
  | resume =>
    have hzero : v.Eases { v with suspended := 0, pended := 0 } := .of_eq rfl rfl
    exact hzero.trans ((release_eases _).trans (pass_eases _ _))
  | tick => exact pass_eases v 1
  | _ => simp at ha

end TaskView

end Eases

/-! ### Where the tasks are -/

section Points

/-- The scheduler is suspended. -/
def CallPoint.suspends : CallPoint → Bool
  | prvLockQueue | xTaskCheckForTimeOut | examine | place | unlockTx _ | unlockRx _
  | xTaskResumeAll _ => true
  | _ => false

/-- The task has not blocked itself since it ran last. -/
def CallPoint.active : CallPoint → Bool
  | unlockTx .blocked | unlockRx .blocked | xTaskResumeAll .blocked | yield _ => false
  | _ => true

/-- And no switch was asked for since. -/
def CallPoint.settled : CallPoint → Bool
  | yielded _ => false
  | point => point.active

/-- The task has blocked itself and is on its way back to the head of the loop. -/
def CallPoint.rests : CallPoint → Bool
  | unlockTx .blocked | unlockRx .blocked | xTaskResumeAll .blocked | yield .head
  | yielded .head => true
  | _ => false

/-- The task is on its way to the head of the loop, where it looks at the queue. -/
def CallPoint.looks : CallPoint → Bool
  | head => true
  | point => point.rests

/-- What was sent is counted. -/
def CallPoint.locksTx : CallPoint → Bool
  | xTaskCheckForTimeOut | examine | place | unlockTx _ => true
  | _ => false

/-- What was received is counted. -/
def CallPoint.locksRx : CallPoint → Bool
  | unlockRx _ => true
  | point => point.locksTx

variable {U : Type}

/-- The list in which a task may come to wait. -/
def TaskRequest.waitsIn : TaskRequest U → Option (QueueEvent U)
  | queue pxQueue op _ => some (op.waitsIn pxQueue)
  | vTaskDelay _ => none

/-- The queue of a call. -/
def TaskRequest.pxQueue : TaskRequest U → Option U
  | queue pxQueue _ _ => some pxQueue
  | vTaskDelay _ => none

namespace Frame

/-- What holds of a task in a call, or else of one after a call. -/
def holdsAt (p : CallPoint → Bool) (b : Bool) : Frame U → Bool
  | returned _ => b
  | inside f => p f.point

def suspends : Frame U → Bool := Frame.holdsAt CallPoint.suspends false

def active : Frame U → Bool := Frame.holdsAt CallPoint.active true

def settled : Frame U → Bool := Frame.holdsAt CallPoint.settled true

/-- A task that delays itself does not wait for anything. -/
def delays : Frame U → Bool
  | inside ⟨.vTaskDelay _, _, _, _⟩ => true
  | _ => false

/-- A task waits in a list, or did. -/
def restsIn (e : QueueEvent U) : Frame U → Prop
  | returned _ => False
  | inside f => f.point.rests = true ∧ f.request.waitsIn = some e

/-- A task is going to look for what those in a list wait for. -/
def looksIn (e : QueueEvent U) : Frame U → Prop
  | returned _ => False
  | inside f => f.point.looks = true ∧ f.request.waitsIn = some e

/-- A task has locked a queue. -/
def locks : QueueEvent U → Frame U → Prop
  | _, returned _ => False
  | .xTasksWaitingToReceive pxQueue, inside f =>
    f.point.locksTx = true ∧ f.request.pxQueue = some pxQueue
  | .xTasksWaitingToSend pxQueue, inside f =>
    f.point.locksRx = true ∧ f.request.pxQueue = some pxQueue

end Frame

end Points

/-! ### Tasks and the scheduler -/

section Sched

variable {T U : Type} {tasks tasks' : TaskView T (QueueEvent U)} {frames : T → Frame U}
  {frame : Frame U}

/-- **Where the tasks are, and what they wait for.** -/
structure Sched (tasks : TaskView T (QueueEvent U)) (frames : T → Frame U) : Prop where
  settled : ∀ t, (frames t).settled = true → tasks.status t = .ready
  active : (frames tasks.current).active = true → tasks.status tasks.current = .ready
  rests : ∀ t e, tasks.waits t = .event e → (frames t).restsIn e
  awake : ∀ t, (frames t).delays = false → tasks.status t = .ready ∨ tasks.waits t ≠ .nothing
  nothing : ∀ t, tasks.status t = .ready → tasks.waits t = .nothing

/-- No task is made to wait. -/
theorem Sched.eases (h : Sched tasks frames) (he : tasks.Eases tasks')
    (hcurrent : tasks'.current = tasks.current) : Sched tasks' frames where
  settled t ht := he.ready t (h.settled t ht)
  active ht := by
    rw [hcurrent] at ht ⊢
    exact he.ready _ (h.active ht)
  rests t e ht := h.rests t e (he.event t e ht)
  awake t ht := by
    by_cases hnothing : tasks'.waits t = .nothing
    · refine .inl ?_
      rcases h.awake t ht with hready | hwaits
      · exact he.ready t hready
      · exact he.awake t hnothing hwaits
    · exact .inr hnothing
  nothing := he.nothing h.nothing

variable [DecidableEq T]

/-- **The task that runs does something**, and the other tasks are as they were. -/
theorem Sched.update (h : Sched tasks frames)
    (hother : ∀ t, t ≠ tasks.current →
      tasks'.status t = tasks.status t ∧ tasks'.waits t = tasks.waits t)
    (hsettled : frame.settled = true → tasks'.status tasks.current = .ready)
    (hactive : (Function.update frames tasks.current frame tasks'.current).active = true →
      tasks'.status tasks'.current = .ready)
    (hrests : ∀ e, tasks'.waits tasks.current = .event e → frame.restsIn e)
    (hawake : frame.delays = false → tasks'.status tasks.current = .ready ∨
      tasks'.waits tasks.current ≠ .nothing)
    (hnothing : tasks'.status tasks.current = .ready → tasks'.waits tasks.current = .nothing) :
    Sched tasks' (Function.update frames tasks.current frame) where
  settled := (Function.forall_update_iff frames fun t frame =>
    frame.settled = true → tasks'.status t = .ready).mpr ⟨hsettled, fun t ht hframe => by
      rw [(hother t ht).1]
      exact h.settled t hframe⟩
  active := hactive
  rests := (Function.forall_update_iff frames fun t frame =>
    ∀ e, tasks'.waits t = .event e → frame.restsIn e).mpr ⟨hrests, fun t ht e he =>
      h.rests t e ((hother t ht).2.symm.trans he)⟩
  awake := (Function.forall_update_iff frames fun t frame =>
    frame.delays = false → tasks'.status t = .ready ∨ tasks'.waits t ≠ .nothing).mpr
      ⟨hawake, fun t ht hframe => by
        rw [(hother t ht).1, (hother t ht).2]
        exact h.awake t hframe⟩
  nothing t ht := by
    by_cases hcurrent : t = tasks.current
    · subst hcurrent
      exact hnothing ht
    · rw [(hother t hcurrent).2]
      exact h.nothing t ((hother t hcurrent).1.symm.trans ht)

/-- **The task that runs goes on**, if it is ready. -/
theorem Sched.move (h : Sched tasks frames) (hactive : (frames tasks.current).active = true)
    (frame : Frame U) : Sched tasks (Function.update frames tasks.current frame) := by
  have hready := h.active hactive
  have hnothing := h.nothing _ hready
  refine h.update (fun _ _ => ⟨rfl, rfl⟩) (fun _ => hready) (fun _ => hready) (fun e he => ?_)
    (fun _ => .inl hready) fun _ => hnothing
  cases hnothing.symm.trans he

/-- The task that runs goes on after it has blocked itself. -/
theorem Sched.goOn (h : Sched tasks frames) (hsettled : frame.settled = false)
    (hactive : frame.active = false)
    (hrests : ∀ e, (frames tasks.current).restsIn e → frame.restsIn e)
    (hdelays : frame.delays = (frames tasks.current).delays) :
    Sched tasks (Function.update frames tasks.current frame) := by
  refine h.update (fun _ _ => ⟨rfl, rfl⟩) (fun hframe => ?_) (fun hframe => ?_)
    (fun e he => hrests e (h.rests _ e he)) (fun hframe => h.awake _ (hdelays ▸ hframe))
    (h.nothing _)
  · cases hsettled.symm.trans hframe
  · rw [Function.update_self, hactive] at hframe
    cases hframe

/-- **A switch**: the task that is chosen is ready. -/
theorem Sched.switch [DecidableEq U] {uxPriority : T → Fin configMaxPriorities}
    (h : Sched tasks frames)
    (hstep : TaskView.Step uxPriority .vTaskSwitchContext tasks tasks') : Sched tasks' frames := by
  cases hstep with
  | switch _ _ t ht => exact ⟨h.settled, fun _ => ht, h.rests, h.awake, h.nothing⟩
  | switchPended => exact h

/-- **The task that runs lets others run.** -/
theorem Sched.yield [DecidableEq U] {uxPriority : T → Fin configMaxPriorities}
    (h : Sched tasks frames) (hstep : TaskView.Step uxPriority .vTaskSwitchContext tasks tasks')
    (hsuspended : tasks.suspended = 0) (hsettled : frame.settled = false)
    (hrests : ∀ e, (frames tasks.current).restsIn e → frame.restsIn e)
    (hdelays : frame.delays = (frames tasks.current).delays) :
    Sched tasks' (Function.update frames tasks.current frame) := by
  cases hstep with
  | switchPended _ hne => exact absurd hsuspended hne
  | switch _ _ t ht =>
    refine h.update (fun _ _ => ⟨rfl, rfl⟩) (fun hframe => ?_) (fun _ => ht)
      (fun e he => hrests e (h.rests _ e he)) (fun hframe => h.awake _ (hdelays ▸ hframe))
      (h.nothing _)
    cases hsettled.symm.trans hframe

/-- **The task that runs blocks itself.** -/
theorem Sched.place {status : TaskStatus} {waits : TaskWait (QueueEvent U)}
    (h : Sched tasks frames) (hstatus : status ≠ .ready) (hsettled : frame.settled = false)
    (hactive : frame.active = false) (hrests : ∀ e, waits = .event e → frame.restsIn e)
    (hdelays : frame.delays = false → waits ≠ .nothing) :
    Sched (tasks.set tasks.current status waits)
      (Function.update frames tasks.current frame) := by
  have hself : (tasks.set tasks.current status waits).status tasks.current = status :=
    Function.update_self ..
  have hwaits : (tasks.set tasks.current status waits).waits tasks.current = waits :=
    Function.update_self ..
  refine h.update (fun t ht => ⟨Function.update_of_ne ht .., Function.update_of_ne ht ..⟩)
    (fun hframe => ?_) (fun hframe => ?_) (fun e he => hrests e (hwaits.symm.trans he))
    (fun hframe => .inr (by rw [hwaits]; exact hdelays hframe)) fun hready => ?_
  · cases hsettled.symm.trans hframe
  · change (Function.update frames tasks.current frame tasks.current).active = true at hframe
    rw [Function.update_self, hactive] at hframe
    cases hframe
  · exact absurd (hself.symm.trans hready) hstatus

end Sched

/-! ### Suspending the scheduler -/

section Suspends

variable {T U : Type} {tasks tasks' : TaskView T (QueueEvent U)} {frames : T → Frame U}
  {frame : Frame U}

/-- **The scheduler is suspended by the task that runs**, once, or not at all. -/
structure Suspends (tasks : TaskView T (QueueEvent U)) (frames : T → Frame U) : Prop where
  suspended : tasks.suspended = if (frames tasks.current).suspends then 1 else 0
  others : ∀ t, t ≠ tasks.current → (frames t).suspends = false

/-- While the scheduler is not suspended, no task is where it is. -/
theorem Suspends.suspends_eq (h : Suspends tasks frames) (hzero : tasks.suspended = 0) (t : T) :
    (frames t).suspends = false := by
  by_cases ht : t = tasks.current
  · subst ht
    by_contra hne
    have hone := h.suspended
    rw [if_pos (Bool.eq_true_of_not_eq_false hne)] at hone
    omega
  · exact h.others t ht

theorem Suspends.suspended_eq_zero (h : Suspends tasks frames)
    (hframe : (frames tasks.current).suspends = false) : tasks.suspended = 0 := by
  rw [h.suspended, if_neg (by rw [hframe]; exact Bool.false_ne_true)]

theorem Suspends.suspended_eq_one (h : Suspends tasks frames)
    (hframe : (frames tasks.current).suspends = true) : tasks.suspended = 1 := by
  rw [h.suspended, if_pos hframe]

theorem Suspends.of_eq (h : Suspends tasks frames) (hcurrent : tasks'.current = tasks.current)
    (hsuspended : tasks'.suspended = tasks.suspended) : Suspends tasks' frames where
  suspended := by rw [hsuspended, hcurrent, h.suspended]
  others t ht := h.others t (hcurrent ▸ ht)

variable [DecidableEq U]

theorem Suspends.switch [DecidableEq T] {uxPriority : T → Fin configMaxPriorities}
    (h : Suspends tasks frames)
    (hstep : TaskView.Step uxPriority .vTaskSwitchContext tasks tasks') :
    Suspends tasks' frames := by
  cases hstep with
  | switchPended => exact h
  | switch _ hzero t =>
    refine ⟨?_, fun t' _ => h.suspends_eq hzero t'⟩
    change tasks.suspended = if (frames t).suspends then 1 else 0
    rw [hzero, h.suspends_eq hzero t]
    rfl

variable [DecidableEq T]

omit [DecidableEq U] in
theorem Suspends.update (h : Suspends tasks frames) (hcurrent : tasks'.current = tasks.current)
    (hsuspended : tasks'.suspended = if frame.suspends then 1 else 0) :
    Suspends tasks' (Function.update frames tasks.current frame) where
  suspended := by rw [hcurrent, Function.update_self, hsuspended]
  others t ht := by
    rw [hcurrent] at ht
    rw [Function.update_of_ne ht]
    exact h.others t ht

/-- The task that runs lets others run. -/
theorem Suspends.yield {uxPriority : T → Fin configMaxPriorities} (h : Suspends tasks frames)
    (hstep : TaskView.Step uxPriority .vTaskSwitchContext tasks tasks')
    (hzero : tasks.suspended = 0) (hframe : frame.suspends = false) :
    Suspends tasks' (Function.update frames tasks.current frame) :=
  (h.update rfl (by rw [hzero, hframe]; rfl)).switch hstep

end Suspends

/-! ### What a task does by itself -/

section Moves

variable {T U : Type} {c : QueueConfig T U} {now : ℕ} {v : QueueView T U} {f : CallFrame U}
  {frame : Frame U}

namespace CallFrame.Moves

theorem active (h : f.Moves c now v frame) : f.point.active = true := by
  cases h <;> simp [*, CallPoint.active]

theorem suspends (h : f.Moves c now v frame) : frame.suspends = f.point.suspends := by
  cases h with
  | yielded hpoint =>
    rename_i next
    rw [hpoint]
    cases next <;> rfl
  | _ => simp [*, Frame.suspends, Frame.holdsAt, CallPoint.suspends]

theorem locks (h : f.Moves c now v frame) (e : QueueEvent U) :
    frame.locks e ↔ (Frame.inside f).locks e := by
  cases h with
  | yielded hpoint =>
    rename_i next
    cases next <;> cases e <;>
      simp [*, CallFrame.next, Frame.locks, CallPoint.locksTx, CallPoint.locksRx]
  | _ => cases e <;> simp [*, Frame.locks, CallPoint.locksTx, CallPoint.locksRx]

end CallFrame.Moves

end Moves

/-! ### Locks -/

section Locks

variable {U : Type} {cap : ℕ} {lock : QueueEvent U → Option ℕ} {frame frame' : Frame U}

/-- **A queue is locked by the task that runs**, or not at all; and what is counted stays below
the cap. -/
structure Locks (cap : ℕ) (lock : QueueEvent U → Option ℕ) (frame : Frame U) : Prop where
  locked : ∀ e, (lock e).isSome = true ↔ frame.locks e
  le : ∀ e n, lock e = some n → n ≤ cap

theorem Frame.locks.suspends {e : QueueEvent U} (h : frame.locks e) : frame.suspends = true := by
  cases frame with
  | returned => cases e <;> exact h.elim
  | inside f =>
    obtain ⟨request, n, o, point⟩ := f
    cases e <;> cases point <;>
      simp_all [Frame.locks, CallPoint.locksTx, CallPoint.locksRx, Frame.suspends,
        Frame.holdsAt, CallPoint.suspends]

/-- While the scheduler is not suspended no queue is locked. -/
theorem Locks.eq_none (h : Locks cap lock frame) (hframe : frame.suspends = false)
    (e : QueueEvent U) : lock e = none := by
  rw [← Option.not_isSome_iff_eq_none, h.locked e]
  exact fun hlocks => Bool.false_ne_true (hframe.symm.trans hlocks.suspends)

theorem Locks.of_iff (h : Locks cap lock frame) (hframe : ∀ e, frame'.locks e ↔ frame.locks e) :
    Locks cap lock frame' :=
  ⟨fun e => (h.locked e).trans (hframe e).symm, h.le⟩

/-- A task that does not suspend the scheduler locks no queue. -/
theorem Locks.of_suspends (h : Locks cap lock frame) (hframe : frame.suspends = false)
    (hframe' : frame'.suspends = false) : Locks cap lock frame' :=
  h.of_iff fun _ => iff_of_false
    (fun hlocks => Bool.false_ne_true (hframe'.symm.trans hlocks.suspends))
    fun hlocks => Bool.false_ne_true (hframe.symm.trans hlocks.suspends)

variable [DecidableEq U]

/-- Something is counted. -/
theorem Locks.count {e : QueueEvent U} {n : ℕ} (h : Locks cap lock frame) (he : lock e = some n) :
    Locks cap (Function.update lock e (some (if n < cap then n + 1 else n))) frame where
  locked e' := by
    by_cases heq : e' = e
    · subst heq
      rw [Function.update_self, ← h.locked, he]
      exact iff_of_true rfl rfl
    · rw [Function.update_of_ne heq]
      exact h.locked e'
  le e' m hm := by
    by_cases heq : e' = e
    · subst heq
      rw [Function.update_self] at hm
      have hle := h.le e' n he
      obtain rfl := Option.some.inj hm
      split <;> omega
    · rw [Function.update_of_ne heq] at hm
      exact h.le e' m hm

/-- The queue is locked. -/
theorem Locks.locking {f : CallFrame U} {pxQueue : U} {op : QueueOp} {n : TickType}
    (h : Locks cap lock (.inside f)) (hpoint : f.point = .prvLockQueue)
    (hrequest : f.request = .queue pxQueue op n) :
    Locks cap (fun e => if e.pxQueue = pxQueue then some ((lock e).getD 0) else lock e)
      (.inside { f with point := .xTaskCheckForTimeOut }) where
  locked e := by
    have hnone : lock e = none := by
      rw [← Option.not_isSome_iff_eq_none, h.locked e]
      cases e <;> simp [Frame.locks, hpoint, CallPoint.locksTx, CallPoint.locksRx]
    rw [hnone]
    by_cases hqueue : e.pxQueue = pxQueue
    · rw [if_pos hqueue]
      cases e <;> subst hqueue <;>
        simp [Frame.locks, CallPoint.locksTx, CallPoint.locksRx, hrequest, TaskRequest.pxQueue,
          QueueEvent.pxQueue]
    · rw [if_neg hqueue]
      have hne : pxQueue ≠ e.pxQueue := fun heq => hqueue heq.symm
      cases e <;> simp_all [Frame.locks, TaskRequest.pxQueue, QueueEvent.pxQueue]
  le e m hm := by
    split at hm
    · cases hlock : lock e with
      | none =>
        rw [hlock] at hm
        obtain rfl := Option.some.inj hm
        exact Nat.zero_le _
      | some n =>
        rw [hlock] at hm
        obtain rfl := Option.some.inj hm
        exact h.le e n hlock
    · exact h.le e m hm

/-- One half of the queue is unlocked. -/
theorem Locks.unlock {f : CallFrame U} {e : QueueEvent U} {point : CallPoint}
    (h : Locks cap lock (.inside f)) (hunlocks : f.Unlocks e point) :
    Locks cap (Function.update lock e none) (.inside { f with point := point }) where
  locked e' := by
    have hlocked := h.locked e'
    by_cases heq : e' = e
    · subst heq
      rw [Function.update_self]
      cases hunlocks <;>
        simp [Frame.locks, CallPoint.locksTx, CallPoint.locksRx]
    · rw [Function.update_of_ne heq, hlocked]
      cases hunlocks with
      | tx hpoint hrequest =>
        cases e' with
        | xTasksWaitingToSend => simp [Frame.locks, hpoint, CallPoint.locksTx, CallPoint.locksRx]
        | xTasksWaitingToReceive pxQueue' =>
          have hne : _ ≠ pxQueue' := fun hqueue => heq (congrArg _ hqueue).symm
          simp [Frame.locks, CallPoint.locksTx, hrequest, TaskRequest.pxQueue, hne]
      | rx hpoint hrequest =>
        cases e' with
        | xTasksWaitingToReceive => simp [Frame.locks, hpoint, CallPoint.locksTx]
        | xTasksWaitingToSend pxQueue' =>
          have hne : _ ≠ pxQueue' := fun hqueue => heq (congrArg _ hqueue).symm
          simp [Frame.locks, hrequest, TaskRequest.pxQueue, hne]
  le e' m hm := by
    by_cases heq : e' = e
    · subst heq
      rw [Function.update_self] at hm
      cases hm
    · rw [Function.update_of_ne heq] at hm
      exact h.le e' m hm

end Locks

end CubesatPipeline
