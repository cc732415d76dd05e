import CubesatPipeline.TaskStatus

/-!
# What the scheduler is for

The scheduler as a user of it sees it (`CubesatPipeline.TaskView`): the time, and for each task
whether it is ready, blocked until some time, or waits for something. Time is a natural number
that never wraps around, and there are no lists. `CubesatPipeline.TaskView.Step` says what each
call (`CubesatPipeline.TaskAction`) does:

* when ticks pass, exactly the tasks that were blocked until then are ready;
* the task that is chosen to run is a ready one of the highest priority;
* the task that is taken off what it waits for has the highest priority of those that wait;
* while the scheduler is suspended, all of this is put off until it is resumed.

`CubesatPipeline.Kernel.view` is how the variables and the lists of the scheduler are seen.
-/

namespace CubesatPipeline

open Program

variable {T Q : Type}

/-! ### The calls -/

section Actions

/-- **What can happen**: the calls of the running task, and of interrupts. -/
inductive TaskAction (Q : Type) where
  | vTaskSuspendAll
  | xTaskResumeAll
  | xTaskIncrementTick
  | vTaskSwitchContext
  /-- What `vTaskDelay` and `xTaskDelayUntil` do while the scheduler is suspended. -/
  | prvAddCurrentTaskToDelayedList (xTicksToWait : TickType)
  | vTaskPlaceOnEventList (q : Q) (xTicksToWait : TickType)
  | vTaskPlaceOnEventListRestricted (q : Q) (xTicksToWait : TickType) (xWaitIndefinitely : Bool)
  | xTaskRemoveFromEventList (q : Q)

variable [DecidableEq T] [DecidableEq Q]

/-- Whether a task can block itself: the scheduler is suspended, the task is not the idle task,
and it has not blocked itself yet. -/
def canBlock (xIdleTask : T) (xTicksToWait : TickType) (k : Kernel T Q) :
    TaskProgram T Q Bool := do
  let pxContainer ← listListItemContainer (.xStateListItem k.pxCurrentTCB)
  return k.uxSchedulerSuspended != 0 && xTicksToWait != 0 && k.pxCurrentTCB != xIdleTask &&
    pxContainer == some (.pxReadyTasksLists (k.uxPriority k.pxCurrentTCB))

/-- **When a call is made.** The idle task never blocks; a task blocks itself while the scheduler
is suspended, and for some time; only one task waits where the task of the timers does; nothing
is taken off an empty list; and the scheduler is not suspended for so long that the count of
pended ticks wraps around. -/
def allowed (xIdleTask : T) : TaskAction Q → Kernel T Q → TaskProgram T Q Bool
  | .vTaskSuspendAll, _ => pure true
  | .xTaskResumeAll, k => pure (k.uxSchedulerSuspended != 0)
  | .xTaskIncrementTick, k =>
    pure (k.uxSchedulerSuspended == 0 || k.xPendedTicks != portMaxDelay)
  | .vTaskSwitchContext, _ => pure true
  | .prvAddCurrentTaskToDelayedList xTicksToWait, k => canBlock xIdleTask xTicksToWait k
  | .vTaskPlaceOnEventList _ xTicksToWait, k => canBlock xIdleTask xTicksToWait k
  | .vTaskPlaceOnEventListRestricted q xTicksToWait xWaitIndefinitely, k => do
    let empty ← listListIsEmpty (.pxEventList q)
    let blocks ← canBlock xIdleTask (if xWaitIndefinitely then portMaxDelay else xTicksToWait) k
    return empty && blocks
  | .xTaskRemoveFromEventList q, _ => do
    let empty ← listListIsEmpty (.pxEventList q)
    return !empty

/-- **What a call does**, and whether it asks for a switch. A task that blocks itself asks for
one when it resumes the scheduler. -/
def perform : TaskAction Q → Kernel T Q → TaskProgram T Q (Bool × Kernel T Q)
  | .vTaskSuspendAll, k => pure (false, vTaskSuspendAll k)
  | .xTaskResumeAll, k => xTaskResumeAll k
  | .xTaskIncrementTick, k => xTaskIncrementTick k
  | .vTaskSwitchContext, k => do
    let k ← vTaskSwitchContext k
    return (false, k)
  | .prvAddCurrentTaskToDelayedList xTicksToWait, k => do
    let k ← prvAddCurrentTaskToDelayedList k xTicksToWait false
    return (true, k)
  | .vTaskPlaceOnEventList q xTicksToWait, k => do
    let k ← vTaskPlaceOnEventList k q xTicksToWait
    return (true, k)
  | .vTaskPlaceOnEventListRestricted q xTicksToWait xWaitIndefinitely, k => do
    let k ← vTaskPlaceOnEventListRestricted k q xTicksToWait xWaitIndefinitely
    return (true, k)
  | .xTaskRemoveFromEventList q, k => xTaskRemoveFromEventList k q

end Actions

/-! ### The scheduler, as it is seen -/

section View

/-- What a task waits for. -/
inductive TaskWait (Q : Type) where
  | nothing
  /-- Nothing any more, once the scheduler is resumed. -/
  | noted
  | event (q : Q)
  deriving DecidableEq

/-- **The scheduler, as it is seen.** -/
@[ext] structure TaskView (T Q : Type) where
  now : ℕ
  pended : ℕ
  suspended : ℕ
  current : T
  status : T → TaskStatus
  waits : T → TaskWait Q

namespace TaskView

/-- **The start**: every task is ready. -/
def start (t : T) : TaskView T Q where
  now := 0
  pended := 0
  suspended := 0
  current := t
  status := fun _ => .ready
  waits := fun _ => .nothing

/-- **Ticks pass.** The tasks that are blocked until then are ready, and do not wait any more. -/
def pass (v : TaskView T Q) (ticks : ℕ) : TaskView T Q :=
  { v with
    now := v.now + ticks
    status := fun t => (v.status t).after (v.now + ticks)
    waits := fun t =>
      if (v.status t).after (v.now + ticks) = .ready then .nothing else v.waits t }

/-- **The tasks that have been noted are ready.** -/
def release [DecidableEq Q] (v : TaskView T Q) : TaskView T Q :=
  { v with
    status := fun t => if v.waits t = .noted then .ready else v.status t
    waits := fun t => if v.waits t = .noted then .nothing else v.waits t }

variable [DecidableEq T]

/-- The state of one task, and what it waits for. -/
def set (v : TaskView T Q) (t : T) (status : TaskStatus) (waits : TaskWait Q) : TaskView T Q :=
  { v with
    status := Function.update v.status t status
    waits := Function.update v.waits t waits }

/-- **What the calls are for.** -/
inductive Step [DecidableEq Q] (uxPriority : T → Fin configMaxPriorities) :
    TaskAction Q → TaskView T Q → TaskView T Q → Prop
  | suspend (v) : Step uxPriority .vTaskSuspendAll v { v with suspended := v.suspended + 1 }
  | resumeNested (v) (h : 1 < v.suspended) :
    Step uxPriority .xTaskResumeAll v { v with suspended := v.suspended - 1 }
  /-- What was put off is done: first the tasks that were noted, and then the ticks. -/
  | resume (v) (h : v.suspended = 1) :
    Step uxPriority .xTaskResumeAll v
      ({ v with suspended := 0, pended := 0 }.release.pass v.pended)
  | tick (v) (h : v.suspended = 0) : Step uxPriority .xTaskIncrementTick v (v.pass 1)
  | tickPended (v) (h : v.suspended ≠ 0) :
    Step uxPriority .xTaskIncrementTick v { v with pended := v.pended + 1 }
  | switch (v) (h : v.suspended = 0) (t : T) (ht : v.status t = .ready)
    (hmax : ∀ t', v.status t' = .ready → uxPriority t' ≤ uxPriority t) :
    Step uxPriority .vTaskSwitchContext v { v with current := t }
  | switchPended (v) (h : v.suspended ≠ 0) : Step uxPriority .vTaskSwitchContext v v
  | delay (v) (xTicksToWait) (h : v.status v.current = .ready) :
    Step uxPriority (.prvAddCurrentTaskToDelayedList xTicksToWait) v
      (v.set v.current (.blocking v.now xTicksToWait false) .nothing)
  | wait (v) (q) (xTicksToWait) (h : v.status v.current = .ready) :
    Step uxPriority (.vTaskPlaceOnEventList q xTicksToWait) v
      (v.set v.current (.blocking v.now xTicksToWait true) (.event q))
  | waitRestricted (v) (q) (xTicksToWait) (xWaitIndefinitely)
    (h : v.status v.current = .ready) :
    Step uxPriority (.vTaskPlaceOnEventListRestricted q xTicksToWait xWaitIndefinitely) v
      (v.set v.current (.blocking v.now
        (if xWaitIndefinitely then portMaxDelay else xTicksToWait) xWaitIndefinitely) (.event q))
  | wake (v) (h : v.suspended = 0) (q) (t : T) (ht : v.waits t = .event q)
    (hmax : ∀ t', v.waits t' = .event q → uxPriority t' ≤ uxPriority t) :
    Step uxPriority (.xTaskRemoveFromEventList q) v (v.set t .ready .nothing)
  | wakePended (v) (h : v.suspended ≠ 0) (q) (t : T) (ht : v.waits t = .event q)
    (hmax : ∀ t', v.waits t' = .event q → uxPriority t' ≤ uxPriority t) :
    Step uxPriority (.xTaskRemoveFromEventList q) v (v.set t (v.status t) .noted)

/-! ### Delays -/

section Delays

variable [DecidableEq Q] {uxPriority : T → Fin configMaxPriorities} {a : TaskAction Q}
  {v v' : TaskView T Q} {t : T} {w : ℕ}

/-- Time does not go back. -/
theorem Step.now_le (h : Step uxPriority a v v') : v.now ≤ v'.now := by
  cases h with
  | resume | tick => exact Nat.le_add_right _ _
  | _ => exact le_rfl

/-- A task only waits for its time, and it is not its time yet. -/
structure Delayed (v : TaskView T Q) (t : T) (w : ℕ) : Prop where
  status : v.status t = .blocked w
  waits : v.waits t = .nothing

omit [DecidableEq T] [DecidableEq Q] in
theorem Delayed.pass (h : v.Delayed t w) (n : ℕ) :
    (v.now + n < w → (v.pass n).Delayed t w) ∧
      (w ≤ v.now + n → (v.pass n).status t = .ready) := by
  have hstatus : (v.pass n).status t = (v.status t).after (v.now + n) := rfl
  have hwaits : (v.pass n).waits t =
    if (v.status t).after (v.now + n) = .ready then .nothing else v.waits t := rfl
  rw [h.status, TaskStatus.after] at hstatus
  rw [h.waits, ite_self] at hwaits
  exact ⟨fun hlt => ⟨hstatus.trans (if_neg (not_le.mpr hlt)), hwaits⟩,
    fun hle => hstatus.trans (if_pos hle)⟩

omit [DecidableEq Q] in
theorem Delayed.set {t' : T} {status : TaskStatus} {waits : TaskWait Q} (h : v.Delayed t w)
    (hne : t ≠ t') : (v.set t' status waits).Delayed t w :=
  ⟨(Function.update_of_ne hne ..).trans h.status, (Function.update_of_ne hne ..).trans h.waits⟩

/-- **A delayed task is ready when its time has come, and no sooner.** -/
theorem Delayed.step (hd : v.Delayed t w) (hnow : v.now < w) (h : Step uxPriority a v v') :
    (v'.now < w → v'.Delayed t w) ∧ (w ≤ v'.now → v'.status t = .ready) := by
  have hstill : v'.now = v.now → v'.Delayed t w →
      (v'.now < w → v'.Delayed t w) ∧ (w ≤ v'.now → v'.status t = .ready) := fun heq hd' =>
    ⟨fun _ => hd', fun hle => absurd hnow (not_lt.mpr (heq ▸ hle))⟩
  have hready : ∀ {t'}, v.status t' = .ready → t ≠ t' := fun ht' heq => by
    subst heq
    cases hd.status.symm.trans ht'
  have hwaits : ∀ {t' q}, v.waits t' = .event q → t ≠ t' := fun ht' heq => by
    subst heq
    cases hd.waits.symm.trans ht'
  cases h with
  | suspend => exact hstill rfl ⟨hd.status, hd.waits⟩
  | resumeNested => exact hstill rfl ⟨hd.status, hd.waits⟩
  | resume =>
    have hnoted : v.waits t ≠ .noted := by
      rw [hd.waits]
      exact nofun
    have hd' : ({ v with suspended := 0, pended := 0 }.release).Delayed t w :=
      ⟨(if_neg hnoted).trans hd.status, (if_neg hnoted).trans hd.waits⟩
    exact hd'.pass v.pended
  | tick => exact hd.pass 1
  | tickPended => exact hstill rfl ⟨hd.status, hd.waits⟩
  | switch => exact hstill rfl ⟨hd.status, hd.waits⟩
  | switchPended => exact hstill rfl hd
  | delay _ _ hcur => exact hstill rfl (hd.set (hready hcur))
  | wait _ _ _ hcur => exact hstill rfl (hd.set (hready hcur))
  | waitRestricted _ _ _ _ hcur => exact hstill rfl (hd.set (hready hcur))
  | wake _ _ _ t' ht' => exact hstill rfl (hd.set (hwaits ht'))
  | wakePended _ _ _ t' ht' => exact hstill rfl (hd.set (hwaits ht'))

end Delays

/-! ### States -/

section States

variable [DecidableEq Q] {uxPriority : T → Fin configMaxPriorities} {a : TaskAction Q}
  {v v' : TaskView T Q}

/-- **The state of a task**, as it is told. -/
def state (v : TaskView T Q) (t : T) : ETaskState :=
  if t = v.current then .eRunning
  else if v.waits t = .noted ∨ v.status t = .ready then .eReady
  else .eBlocked

/-- A task that is blocked for ever waits for something. -/
def NoneSuspended (v : TaskView T Q) : Prop := ∀ t, v.status t = .suspended → v.waits t ≠ .nothing

omit [DecidableEq T] [DecidableEq Q] in
theorem NoneSuspended.pass (h : v.NoneSuspended) (n : ℕ) : (v.pass n).NoneSuspended := by
  intro t ht
  have hafter : (v.status t).after (v.now + n) = .suspended := ht
  have hwaits : (v.pass n).waits t =
    if (v.status t).after (v.now + n) = .ready then .nothing else v.waits t := rfl
  rw [hwaits, hafter, if_neg nofun]
  refine h t ?_
  cases hstatus : v.status t with
  | ready =>
    rw [hstatus] at hafter
    cases hafter
  | suspended => rfl
  | blocked w =>
    rw [hstatus, TaskStatus.after] at hafter
    split at hafter <;> cases hafter

omit [DecidableEq Q] in
theorem NoneSuspended.set {t : T} {status : TaskStatus} {waits : TaskWait Q}
    (h : v.NoneSuspended) (hne : status ≠ .suspended ∨ waits ≠ .nothing) :
    (v.set t status waits).NoneSuspended := by
  intro t' ht'
  by_cases ht : t' = t
  · subst ht
    have hstatus : (v.set t' status waits).status t' = status := Function.update_self ..
    have hwaits : (v.set t' status waits).waits t' = waits := Function.update_self ..
    rw [hwaits]
    exact hne.resolve_left fun hs => hs (hstatus.symm.trans ht')
  · have hstatus : (v.set t status waits).status t' = v.status t' := Function.update_of_ne ht ..
    have hwaits : (v.set t status waits).waits t' = v.waits t' := Function.update_of_ne ht ..
    rw [hwaits]
    exact h t' (hstatus.symm.trans ht')

theorem NoneSuspended.step (hn : v.NoneSuspended) (h : Step uxPriority a v v') :
    v'.NoneSuspended := by
  cases h with
  | suspend => exact hn
  | resumeNested => exact hn
  | resume =>
    refine NoneSuspended.pass (fun t ht => ?_) v.pended
    by_cases hnoted : v.waits t = .noted
    · cases (if_pos hnoted).symm.trans ht
    · have hwaits := hn t ((if_neg hnoted).symm.trans ht)
      exact fun heq => hwaits ((if_neg hnoted).symm.trans heq)
  | tick => exact hn.pass 1
  | tickPended => exact hn
  | switch => exact hn
  | switchPended => exact hn
  | delay =>
    refine hn.set (.inl ?_)
    rw [TaskStatus.blocking, if_neg fun hforever => Bool.false_ne_true hforever.2]
    simp
  | wait => exact hn.set (.inr (by simp))
  | waitRestricted => exact hn.set (.inr (by simp))
  | wake => exact hn.set (.inl (by simp))
  | wakePended => exact hn.set (.inr (by simp))

end States

/-! ### Switches -/

section Switches

variable [DecidableEq Q] {uxPriority : T → Fin configMaxPriorities} {v v' : TaskView T Q}

/-- A switch does not change what the tasks do. -/
theorem Step.status_switch (h : Step uxPriority .vTaskSwitchContext v v') :
    v'.status = v.status := by
  cases h <;> rfl

/-- No ready task has a higher priority than the one that is chosen. -/
theorem Step.le_switch (h : Step uxPriority .vTaskSwitchContext v v') (hsus : v.suspended = 0)
    {t : T} (ht : v.status t = .ready) : uxPriority t ≤ uxPriority v'.current := by
  cases h with
  | switch _ _ _ _ hmax => exact hmax t ht
  | switchPended _ hne => exact absurd hsus hne

end Switches

end TaskView

variable [DecidableEq Q]

/-- What a task waits for, by the list that its event item is in. -/
def waitsFor (lists : TaskLists T Q) (t : T) : TaskWait Q :=
  match (lists.container (.xEventListItem t)).join with
  | some .xPendingReadyList => .noted
  | some (.pxEventList q) => .event q
  | _ => .nothing

/-- **How the variables and the lists are seen.** -/
def Kernel.view (k : Kernel T Q) (lists : TaskLists T Q) : TaskView T Q where
  now := k.now
  pended := k.xPendedTicks.toNat
  suspended := k.uxSchedulerSuspended
  current := k.pxCurrentTCB
  status := k.status lists
  waits := waitsFor lists

end View

end CubesatPipeline
