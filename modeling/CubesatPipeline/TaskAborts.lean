import CubesatPipeline.TaskStart

/-!
# No delay is aborted

`ucDelayAborted` is read by `xTaskCheckForTimeOut`. Nothing sets it but `xTaskAbortDelay`, which
is not called, so it is never set.
-/

namespace CubesatPipeline

open Program

variable {T Q : Type} {k : Kernel T Q}

/-- **No delay has been aborted.** -/
def Kernel.NoneAborted (k : Kernel T Q) : Prop := ∀ t, k.ucDelayAborted t = false

section Calls

theorem prvAddTaskToReadyList_returns (h : k.NoneAborted) (t : T) :
    (prvAddTaskToReadyList k t).Returns Kernel.NoneAborted := by
  refine returns_bind fun _ => returns_pure ?_
  rw [taskRecordReadyPriority]
  split <;> exact h

theorem prvResetNextTaskUnblockTime_returns (h : k.NoneAborted) :
    (prvResetNextTaskUnblockTime k).Returns Kernel.NoneAborted := by
  refine returns_bind fun isEmpty => ?_
  split
  · exact returns_pure h
  · exact returns_bind fun _ => returns_pure h

theorem taskSwitchDelayedLists_returns (h : k.NoneAborted) :
    (taskSwitchDelayedLists k).Returns Kernel.NoneAborted :=
  returns_bind fun _ => returns_bind fun _ => prvResetNextTaskUnblockTime_returns h

theorem unblockTasks_returns (turns : ℕ) (h : k.NoneAborted) (b : Bool) :
    (unblockTasks turns k b).Returns fun r => r.2.NoneAborted := by
  induction turns generalizing k b with
  | zero => trivial
  | succ turns ih =>
    refine returns_bind fun isEmpty => ?_
    split
    · exact returns_pure h
    · refine returns_bind fun t => returns_bind fun xItemValue => ?_
      split
      · exact returns_pure h
      · refine returns_bind fun _ => returns_bind fun _ => ?_
        exact (prvAddTaskToReadyList_returns h t).bind fun k' hk' => ih hk' _

theorem xTaskIncrementTick_returns (h : k.NoneAborted) :
    (xTaskIncrementTick k).Returns fun r => r.2.NoneAborted := by
  rw [xTaskIncrementTick]
  split
  · have hswitch : (if k.xTickCount + 1 = 0 then
        taskSwitchDelayedLists { k with xTickCount := k.xTickCount + 1 } else
        pure { k with xTickCount := k.xTickCount + 1 } : TaskProgram T Q (Kernel T Q)).Returns
          Kernel.NoneAborted := by
      split
      · exact taskSwitchDelayedLists_returns h
      · exact returns_pure h
    refine hswitch.bind fun k' hk' => returns_bind fun uxDelayed => ?_
    refine Returns.bind (P := fun r => r.2.NoneAborted) ?_ fun r hr => returns_bind fun uxReady =>
      returns_pure hr
    split
    · exact unblockTasks_returns _ hk' false
    · exact returns_pure hk'
  · exact returns_pure h

theorem xTaskRemoveFromEventList_returns (h : k.NoneAborted) (q : Q) :
    (xTaskRemoveFromEventList k q).Returns fun r => r.2.NoneAborted := by
  refine returns_bind fun t => returns_bind fun _ => ?_
  refine Returns.bind (P := Kernel.NoneAborted) ?_ fun k' hk' => ?_
  · split
    · exact returns_bind fun _ => prvAddTaskToReadyList_returns h t
    · exact returns_bind fun _ => returns_pure h
  · split <;> exact returns_pure hk'

theorem movePendingTasks_returns (turns : ℕ) (h : k.NoneAborted) (b : Bool) :
    (movePendingTasks turns k b).Returns fun r => r.2.NoneAborted := by
  induction turns generalizing k b with
  | zero => trivial
  | succ turns ih =>
    refine returns_bind fun isEmpty => ?_
    split
    · exact returns_pure h
    · refine returns_bind fun t => returns_bind fun _ => returns_bind fun _ => ?_
      refine (prvAddTaskToReadyList_returns h t).bind fun k' hk' => ih ?_ true
      split <;> exact hk'

theorem processPendedTicks_returns (xPendedCounts : ℕ) (h : k.NoneAborted) :
    (processPendedTicks xPendedCounts k).Returns Kernel.NoneAborted := by
  induction xPendedCounts generalizing k with
  | zero => exact returns_pure h
  | succ xPendedCounts ih =>
    refine (xTaskIncrementTick_returns h).bind fun r hr => ih ?_
    split <;> exact hr

theorem xTaskResumeAll_returns (h : k.NoneAborted) :
    (xTaskResumeAll k).Returns fun r => r.2.NoneAborted := by
  refine returns_bind fun _ => ?_
  dsimp only
  split
  · refine returns_bind fun uxPending => ?_
    refine (movePendingTasks_returns _ (k := { k with
      uxSchedulerSuspended := k.uxSchedulerSuspended - 1 }) h false).bind fun r hr => ?_
    refine Returns.bind (P := Kernel.NoneAborted) ?_ fun k' hk' => ?_
    · split
      · exact prvResetNextTaskUnblockTime_returns hr
      · exact returns_pure hr
    · exact (processPendedTicks_returns _ hk').bind fun k'' hk'' => returns_pure hk''
  · exact returns_pure h

theorem vTaskSwitchContext_returns (h : k.NoneAborted) :
    (vTaskSwitchContext k).Returns Kernel.NoneAborted := by
  rw [vTaskSwitchContext]
  split
  · exact returns_pure h
  · exact returns_bind fun _ => returns_bind fun _ => returns_pure h

variable [DecidableEq T]

theorem prvAddCurrentTaskToDelayedList_returns (h : k.NoneAborted) (xTicksToWait : TickType)
    (b : Bool) : (prvAddCurrentTaskToDelayedList k xTicksToWait b).Returns Kernel.NoneAborted := by
  have hk : ∀ t, Function.update k.ucDelayAborted k.pxCurrentTCB false t = false := fun t => by
    by_cases ht : t = k.pxCurrentTCB
    · subst ht
      exact Function.update_self ..
    · rw [Function.update_of_ne ht]
      exact h t
  refine returns_bind fun _ => ?_
  split
  · exact returns_bind fun _ => returns_pure hk
  · refine returns_bind fun _ => ?_
    split
    · exact returns_bind fun _ => returns_pure hk
    · refine returns_bind fun _ => returns_pure ?_
      split <;> exact hk

/-- **No call aborts a delay.** -/
theorem perform_returns (h : k.NoneAborted) (a : TaskAction Q) :
    (perform a k).Returns fun r => r.2.NoneAborted := by
  cases a with
  | vTaskSuspendAll => exact returns_pure h
  | xTaskResumeAll => exact xTaskResumeAll_returns h
  | xTaskIncrementTick => exact xTaskIncrementTick_returns h
  | vTaskSwitchContext =>
    exact (vTaskSwitchContext_returns h).bind fun k' hk' => returns_pure hk'
  | prvAddCurrentTaskToDelayedList xTicksToWait =>
    exact (prvAddCurrentTaskToDelayedList_returns h _ _).bind fun k' hk' => returns_pure hk'
  | vTaskPlaceOnEventList q xTicksToWait =>
    exact (returns_bind fun _ => prvAddCurrentTaskToDelayedList_returns h _ _).bind
      fun k' hk' => returns_pure hk'
  | vTaskPlaceOnEventListRestricted q xTicksToWait xWaitIndefinitely =>
    exact (returns_bind fun _ => prvAddCurrentTaskToDelayedList_returns h _ _).bind
      fun k' hk' => returns_pure hk'
  | xTaskRemoveFromEventList q => exact xTaskRemoveFromEventList_returns h q

end Calls

section Start

variable {uxPriority : T → Fin configMaxPriorities} {k : Option (Kernel T Q)}

theorem xTaskCreate_returns (h : ∀ k' ∈ k, k'.NoneAborted) (t : T) :
    (xTaskCreate uxPriority k t).Returns Kernel.NoneAborted := by
  refine returns_bind fun _ => ?_
  cases k with
  | none => exact returns_bind fun _ => prvAddTaskToReadyList_returns (fun _ => rfl) t
  | some k =>
    have hk : k.NoneAborted := h k rfl
    rw [prvAddNewTaskToReadyList]
    split
    · exact prvAddTaskToReadyList_returns (k := { k with pxCurrentTCB := t }) hk t
    · exact prvAddTaskToReadyList_returns hk t

theorem createTasks_returns (tasks : List T) (h : ∀ k' ∈ k, k'.NoneAborted) :
    (createTasks uxPriority tasks k).Returns fun k => ∀ k' ∈ k, k'.NoneAborted := by
  induction tasks generalizing k with
  | nil => exact returns_pure h
  | cons t rest ih =>
    exact (xTaskCreate_returns h t).bind fun k₁ hk₁ =>
      ih fun k' hk' => Option.some.inj (Option.mem_def.mp hk') ▸ hk₁

/-- **No delay has been aborted at the start.** -/
theorem startKernel_returns (events : List Q) (tasks : List T) (xIdleTask xTimerTask : T) :
    (startKernel uxPriority events tasks xIdleTask xTimerTask).Returns fun k =>
      ∀ k' ∈ k, k'.NoneAborted := by
  have hnone : ∀ k' ∈ (none : Option (Kernel T Q)), k'.NoneAborted := fun k' hk' => by cases hk'
  refine returns_bind fun _ => (createTasks_returns tasks hnone).bind fun k hk => ?_
  refine (createTasks_returns _ hk).bind fun k hk => returns_pure fun k' hk' => ?_
  obtain ⟨k₁, hk₁, rfl⟩ := Option.map_eq_some_iff.mp hk'
  exact hk k₁ hk₁

end Start

end CubesatPipeline
