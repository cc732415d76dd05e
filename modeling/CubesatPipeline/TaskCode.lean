import CubesatPipeline.ListCode

/-!
# The scheduler, as it is coded

The part of the kernel that decides which task runs and when a delayed task is due. A task is
known by two list items: its state item is in a ready list, in one of the two delayed lists or
in the list of suspended tasks, and its event item is in the list of what it waits for, if it
waits for anything.

A wake time is a tick count, so it may have wrapped around: the tasks that wake after the next
wrap are in the overflow list, and the two lists are switched when the count wraps. While the
scheduler is suspended ticks are only counted, and tasks that are readied are only noted in
`xPendingReadyList`; `xTaskResumeAll` makes up for both.

The functions are programs over the calls of the lists, with the variables of the kernel in
hand (`CubesatPipeline.Kernel`). An assertion that fails is a program that is stuck, and so is
a loop over a list that takes more turns than the list has items.
-/

namespace CubesatPipeline

open Program

/-- `configMAX_PRIORITIES`. -/
def configMaxPriorities : ℕ := 5

/-- `tskIDLE_PRIORITY`. -/
def tskIdlePriority : Fin configMaxPriorities := ⟨0, by decide⟩

/-- The list items of a task. -/
inductive TaskItem (T : Type) where
  | xStateListItem (pxTCB : T)
  | xEventListItem (pxTCB : T)
  deriving DecidableEq

/-- The lists of tasks: those of the kernel, and those of what tasks `Q` wait for. -/
inductive TaskList (Q : Type) where
  | pxReadyTasksLists (uxPriority : Fin configMaxPriorities)
  | xDelayedTaskList1
  | xDelayedTaskList2
  | xPendingReadyList
  | xSuspendedTaskList
  | pxEventList (q : Q)
  deriving DecidableEq

/-- **The variables of the kernel**, and of the tasks `T` that it schedules. The count of
wraps, and of the calls that have suspended the scheduler, are taken to be wide enough. -/
structure Kernel (T Q : Type) where
  pxCurrentTCB : T
  xTickCount : TickType
  uxTopReadyPriority : Fin configMaxPriorities
  xPendedTicks : TickType
  xYieldPendings : Bool
  xNumOfOverflows : ℕ
  xNextTaskUnblockTime : TickType
  uxSchedulerSuspended : ℕ
  pxDelayedTaskList : TaskList Q
  pxOverflowDelayedTaskList : TaskList Q
  uxPriority : T → Fin configMaxPriorities
  ucDelayAborted : T → Bool

/-- A program over the lists of tasks. -/
abbrev TaskProgram (T Q : Type) : Type → Type :=
  Program (ListCall (TaskItem T) (TaskList Q) T) ListCall.Reply

variable {T Q : Type}

/-! ### The calls of the lists -/

section Calls

/-- `vListInsertEnd`, and `listINSERT_END`. -/
def vListInsertEnd (pxList : TaskList Q) (pxItem : TaskItem T) : TaskProgram T Q Unit :=
  ask (ListCall.vListInsertEnd pxList pxItem)

/-- `vListInsert`. -/
def vListInsert (pxList : TaskList Q) (pxItem : TaskItem T) : TaskProgram T Q Unit :=
  ask (ListCall.vListInsert pxList pxItem)

/-- `uxListRemove`, and `listREMOVE_ITEM`, where what is left is not looked at. -/
def listRemoveItem (pxItem : TaskItem T) : TaskProgram T Q Unit := do
  let _ ← (ask (ListCall.uxListRemove pxItem) : TaskProgram T Q ℕ)

/-- `listSET_LIST_ITEM_VALUE`. -/
def listSetListItemValue (pxItem : TaskItem T) (xValue : TickType) : TaskProgram T Q Unit :=
  ask (ListCall.listSetListItemValue pxItem xValue)

/-- `listGET_LIST_ITEM_VALUE`. -/
def listGetListItemValue (pxItem : TaskItem T) : TaskProgram T Q TickType :=
  ask (ListCall.listGetListItemValue pxItem)

/-- `listLIST_ITEM_CONTAINER`. -/
def listListItemContainer (pxItem : TaskItem T) : TaskProgram T Q (Option (TaskList Q)) :=
  ask (ListCall.listListItemContainer pxItem)

/-- `listGET_OWNER_OF_HEAD_ENTRY`. -/
def listGetOwnerOfHeadEntry (pxList : TaskList Q) : TaskProgram T Q T :=
  ask (ListCall.listGetOwnerOfHeadEntry pxList)

/-- `listGET_OWNER_OF_NEXT_ENTRY`. -/
def listGetOwnerOfNextEntry (pxList : TaskList Q) : TaskProgram T Q T :=
  ask (ListCall.listGetOwnerOfNextEntry pxList)

/-- `listGET_ITEM_VALUE_OF_HEAD_ENTRY`. -/
def listGetItemValueOfHeadEntry (pxList : TaskList Q) : TaskProgram T Q TickType :=
  ask (ListCall.listGetItemValueOfHeadEntry pxList)

/-- `listCURRENT_LIST_LENGTH`. -/
def listCurrentListLength (pxList : TaskList Q) : TaskProgram T Q ℕ :=
  ask (ListCall.listCurrentListLength pxList)

/-- `listLIST_IS_EMPTY`. -/
def listListIsEmpty (pxList : TaskList Q) : TaskProgram T Q Bool := do
  let uxNumberOfItems ← listCurrentListLength pxList
  return uxNumberOfItems == 0

/-- What is done with the event item of a task that no longer waits: it is taken out of its
list, if it is in one. -/
def removeFromItsEventList (pxTCB : T) : TaskProgram T Q Unit := do
  let pxContainer ← listListItemContainer (.xEventListItem pxTCB)
  if pxContainer.isSome then listRemoveItem (.xEventListItem pxTCB) else pure ()

end Calls

/-! ### Delays -/

section Delays

/-- `taskRECORD_READY_PRIORITY`. -/
def taskRecordReadyPriority (k : Kernel T Q) (uxPriority : Fin configMaxPriorities) :
    Kernel T Q :=
  if k.uxTopReadyPriority < uxPriority then { k with uxTopReadyPriority := uxPriority } else k

/-- `prvAddTaskToReadyList`. -/
def prvAddTaskToReadyList (k : Kernel T Q) (pxTCB : T) : TaskProgram T Q (Kernel T Q) := do
  let k := taskRecordReadyPriority k (k.uxPriority pxTCB)
  vListInsertEnd (.pxReadyTasksLists (k.uxPriority pxTCB)) (.xStateListItem pxTCB)
  return k

/-- `prvResetNextTaskUnblockTime`. -/
def prvResetNextTaskUnblockTime (k : Kernel T Q) : TaskProgram T Q (Kernel T Q) := do
  if ← listListIsEmpty k.pxDelayedTaskList then
    return { k with xNextTaskUnblockTime := portMaxDelay }
  else
    let xItemValue ← listGetItemValueOfHeadEntry k.pxDelayedTaskList
    return { k with xNextTaskUnblockTime := xItemValue }

/-- `taskSWITCH_DELAYED_LISTS`. -/
def taskSwitchDelayedLists (k : Kernel T Q) : TaskProgram T Q (Kernel T Q) := do
  assert (← listListIsEmpty k.pxDelayedTaskList)
  prvResetNextTaskUnblockTime
    { k with
      pxDelayedTaskList := k.pxOverflowDelayedTaskList
      pxOverflowDelayedTaskList := k.pxDelayedTaskList
      xNumOfOverflows := k.xNumOfOverflows + 1 }

/-- The loop of `xTaskIncrementTick`: tasks are taken off the delayed list for as long as the
first of them is due. The answer is `xSwitchRequired`. -/
def unblockTasks : ℕ → Kernel T Q → Bool → TaskProgram T Q (Bool × Kernel T Q)
  | 0, _, _ => .stuck
  | turns + 1, k, xSwitchRequired => do
    if ← listListIsEmpty k.pxDelayedTaskList then
      return (xSwitchRequired, { k with xNextTaskUnblockTime := portMaxDelay })
    else
      let pxTCB ← listGetOwnerOfHeadEntry k.pxDelayedTaskList
      let xItemValue ← listGetListItemValue (.xStateListItem pxTCB)
      if k.xTickCount < xItemValue then
        return (xSwitchRequired, { k with xNextTaskUnblockTime := xItemValue })
      else
        listRemoveItem (.xStateListItem pxTCB)
        removeFromItsEventList pxTCB
        let k ← prvAddTaskToReadyList k pxTCB
        unblockTasks turns k
          (xSwitchRequired || decide (k.uxPriority k.pxCurrentTCB < k.uxPriority pxTCB))

/-- `xTaskIncrementTick`. -/
def xTaskIncrementTick (k : Kernel T Q) : TaskProgram T Q (Bool × Kernel T Q) := do
  if k.uxSchedulerSuspended = 0 then
    let k := { k with xTickCount := k.xTickCount + 1 }
    let k ← (if k.xTickCount = 0 then taskSwitchDelayedLists k else pure k)
    let uxDelayed ← listCurrentListLength k.pxDelayedTaskList
    let (xSwitchRequired, k) ←
      (if k.xNextTaskUnblockTime ≤ k.xTickCount then unblockTasks (uxDelayed + 1) k false
      else pure (false, k))
    let uxReady ← listCurrentListLength (.pxReadyTasksLists (k.uxPriority k.pxCurrentTCB))
    return (xSwitchRequired || decide (1 < uxReady) || k.xYieldPendings, k)
  else return (false, { k with xPendedTicks := k.xPendedTicks + 1 })

/-- `prvAddCurrentTaskToDelayedList`. -/
def prvAddCurrentTaskToDelayedList [DecidableEq T] (k : Kernel T Q) (xTicksToWait : TickType)
    (xCanBlockIndefinitely : Bool) : TaskProgram T Q (Kernel T Q) := do
  let k := { k with ucDelayAborted := Function.update k.ucDelayAborted k.pxCurrentTCB false }
  listRemoveItem (.xStateListItem k.pxCurrentTCB)
  if xTicksToWait = portMaxDelay ∧ xCanBlockIndefinitely then
    vListInsertEnd .xSuspendedTaskList (.xStateListItem k.pxCurrentTCB)
    return k
  else
    let xTimeToWake := k.xTickCount + xTicksToWait
    listSetListItemValue (.xStateListItem k.pxCurrentTCB) xTimeToWake
    if xTimeToWake < k.xTickCount then
      vListInsert k.pxOverflowDelayedTaskList (.xStateListItem k.pxCurrentTCB)
      return k
    else
      vListInsert k.pxDelayedTaskList (.xStateListItem k.pxCurrentTCB)
      return if xTimeToWake < k.xNextTaskUnblockTime then
        { k with xNextTaskUnblockTime := xTimeToWake } else k

end Delays

/-! ### Events -/

section Events

/-- `vTaskPlaceOnEventList`. -/
def vTaskPlaceOnEventList [DecidableEq T] (k : Kernel T Q) (q : Q) (xTicksToWait : TickType) :
    TaskProgram T Q (Kernel T Q) := do
  vListInsert (.pxEventList q) (.xEventListItem k.pxCurrentTCB)
  prvAddCurrentTaskToDelayedList k xTicksToWait true

/-- `vTaskPlaceOnEventListRestricted`, for a list that only the task of the timers waits in. -/
def vTaskPlaceOnEventListRestricted [DecidableEq T] (k : Kernel T Q) (q : Q)
    (xTicksToWait : TickType) (xWaitIndefinitely : Bool) : TaskProgram T Q (Kernel T Q) := do
  vListInsertEnd (.pxEventList q) (.xEventListItem k.pxCurrentTCB)
  prvAddCurrentTaskToDelayedList k (if xWaitIndefinitely then portMaxDelay else xTicksToWait)
    xWaitIndefinitely

/-- `xTaskRemoveFromEventList`. -/
def xTaskRemoveFromEventList (k : Kernel T Q) (q : Q) : TaskProgram T Q (Bool × Kernel T Q) := do
  let pxUnblockedTCB ← listGetOwnerOfHeadEntry (.pxEventList q)
  listRemoveItem (.xEventListItem pxUnblockedTCB)
  let k ←
    (if k.uxSchedulerSuspended = 0 then do
      listRemoveItem (.xStateListItem pxUnblockedTCB)
      prvAddTaskToReadyList k pxUnblockedTCB
    else do
      vListInsertEnd .xPendingReadyList (.xEventListItem pxUnblockedTCB)
      return k)
  if k.uxPriority k.pxCurrentTCB < k.uxPriority pxUnblockedTCB then
    return (true, { k with xYieldPendings := true })
  else return (false, k)

end Events

/-! ### Suspending and resuming -/

section Suspend

/-- `vTaskSuspendAll`. -/
def vTaskSuspendAll (k : Kernel T Q) : Kernel T Q :=
  { k with uxSchedulerSuspended := k.uxSchedulerSuspended + 1 }

/-- The first loop of `xTaskResumeAll`: the tasks that were readied while the scheduler was
suspended are made ready. The answer says whether there were any. -/
def movePendingTasks : ℕ → Kernel T Q → Bool → TaskProgram T Q (Bool × Kernel T Q)
  | 0, _, _ => .stuck
  | turns + 1, k, moved => do
    if ← listListIsEmpty .xPendingReadyList then return (moved, k)
    else
      let pxTCB ← listGetOwnerOfHeadEntry .xPendingReadyList
      listRemoveItem (.xEventListItem pxTCB)
      listRemoveItem (.xStateListItem pxTCB)
      let k ← prvAddTaskToReadyList k pxTCB
      let k := if k.uxPriority k.pxCurrentTCB < k.uxPriority pxTCB then
        { k with xYieldPendings := true } else k
      movePendingTasks turns k true

/-- The second loop of `xTaskResumeAll`: the ticks that were counted are processed. -/
def processPendedTicks : ℕ → Kernel T Q → TaskProgram T Q (Kernel T Q)
  | 0, k => pure k
  | xPendedCounts + 1, k => do
    let (xSwitchRequired, k) ← xTaskIncrementTick k
    let k := if xSwitchRequired then { k with xYieldPendings := true } else k
    processPendedTicks xPendedCounts k

/-- `xTaskResumeAll`. The answer is `xAlreadyYielded`. -/
def xTaskResumeAll (k : Kernel T Q) : TaskProgram T Q (Bool × Kernel T Q) := do
  assert (k.uxSchedulerSuspended != 0)
  let k := { k with uxSchedulerSuspended := k.uxSchedulerSuspended - 1 }
  if k.uxSchedulerSuspended = 0 then
    let uxPending ← listCurrentListLength .xPendingReadyList
    let (moved, k) ← movePendingTasks (uxPending + 1) k false
    let k ← (if moved then prvResetNextTaskUnblockTime k else pure k)
    let k ← processPendedTicks k.xPendedTicks.toNat k
    let k := { k with xPendedTicks := 0 }
    return (k.xYieldPendings, k)
  else return (false, k)

end Suspend

/-! ### Choosing a task -/

section Switch

/-- The loop of `taskSELECT_HIGHEST_PRIORITY_TASK`, down from a priority to the first whose
list is not empty. -/
def highestPriority : (uxTopPriority : ℕ) → uxTopPriority < configMaxPriorities →
    TaskProgram T Q (Fin configMaxPriorities)
  | 0, h => do
    assert !(← listListIsEmpty (.pxReadyTasksLists ⟨0, h⟩))
    return ⟨0, h⟩
  | p + 1, h => do
    if ← listListIsEmpty (.pxReadyTasksLists ⟨p + 1, h⟩) then
      highestPriority p (Nat.lt_of_succ_lt h)
    else return ⟨p + 1, h⟩

/-- `vTaskSwitchContext`. -/
def vTaskSwitchContext (k : Kernel T Q) : TaskProgram T Q (Kernel T Q) := do
  if k.uxSchedulerSuspended ≠ 0 then return { k with xYieldPendings := true }
  else
    let uxTopPriority ← highestPriority k.uxTopReadyPriority k.uxTopReadyPriority.isLt
    let pxCurrentTCB ← listGetOwnerOfNextEntry (.pxReadyTasksLists uxTopPriority)
    return { k with
      xYieldPendings := false
      pxCurrentTCB := pxCurrentTCB
      uxTopReadyPriority := uxTopPriority }

end Switch

/-! ### The state of a task -/

section State

/-- `eTaskState`. -/
inductive ETaskState where
  | eRunning
  | eReady
  | eBlocked
  | eSuspended
  | eDeleted
  deriving DecidableEq

/-- `eTaskGetState`, where no task waits for a notification. -/
def eTaskGetState [DecidableEq T] [DecidableEq Q] (k : Kernel T Q) (xTask : T) :
    TaskProgram T Q ETaskState := do
  if xTask = k.pxCurrentTCB then return .eRunning
  else
    let pxStateList ← listListItemContainer (.xStateListItem xTask)
    let pxEventList ← listListItemContainer (.xEventListItem xTask)
    if pxEventList = some .xPendingReadyList then return .eReady
    else if pxStateList = some k.pxDelayedTaskList ∨
        pxStateList = some k.pxOverflowDelayedTaskList then
      return .eBlocked
    else if pxStateList = some .xSuspendedTaskList then
      let pxContainer ← listListItemContainer (.xEventListItem xTask)
      return if pxContainer = none then .eSuspended else .eBlocked
    else if pxStateList = none then return .eDeleted
    else return .eReady

end State

end CubesatPipeline
