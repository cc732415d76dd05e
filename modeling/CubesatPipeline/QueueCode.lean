import CubesatPipeline.QueueStorage
import CubesatPipeline.TaskSystem

/-!
# Waiting for a queue, as it is coded

`xQueueGenericSend`, `xQueueReceive` and `xQueuePeek` with a time to wait. The three are one loop:
a critical section in which the call is served if it can be; and if not, the scheduler is
suspended and the queue locked, the time-out is checked and the queue is looked at once more, and
the task puts itself into the list of those that wait. Between any two of these parts there can
be interrupts, which send and receive too. While the queue is locked they must not touch its
lists, and only count what they did; `prvUnlockQueue` makes up for it.

A task is somewhere in such a call (`CubesatPipeline.CallFrame`), and
`CubesatPipeline.QueueSys` is the whole: the scheduler on its memory, the queues, and where each
task is. What a task calls next is left open, and so is when there are interrupts. A call that
fails an assertion, reads what was never written, or follows a pointer that was not set, is
stuck.
-/

namespace CubesatPipeline

open CheckedBuffer Program

/-! ### Time-outs -/

section TimeOuts

variable {T Q : Type}

/-- `TimeOut_t`. -/
structure TimeOut where
  xOverflowCount : ℕ
  xTimeOnEntering : TickType

/-- `vTaskInternalSetTimeOutState`. -/
def vTaskInternalSetTimeOutState (k : Kernel T Q) : TimeOut :=
  ⟨k.xNumOfOverflows, k.xTickCount⟩

/-- `xTaskCheckForTimeOut`: whether the time is up, with `*pxTimeOut` and `*pxTicksToWait` as
they are then. -/
def xTaskCheckForTimeOut [DecidableEq T] (k : Kernel T Q) (pxTimeOut : TimeOut)
    (pxTicksToWait : TickType) : Bool × TimeOut × TickType × Kernel T Q :=
  let xElapsedTime := k.xTickCount - pxTimeOut.xTimeOnEntering
  if k.ucDelayAborted k.pxCurrentTCB then
    (true, pxTimeOut, pxTicksToWait,
      { k with ucDelayAborted := Function.update k.ucDelayAborted k.pxCurrentTCB false })
  else if pxTicksToWait = portMaxDelay then (false, pxTimeOut, pxTicksToWait, k)
  -- the count has gone all the way round since the task called
  else if k.xNumOfOverflows ≠ pxTimeOut.xOverflowCount ∧
      pxTimeOut.xTimeOnEntering ≤ k.xTickCount then
    (true, pxTimeOut, 0, k)
  -- what is left counts from now on
  else if xElapsedTime < pxTicksToWait then
    (false, vTaskInternalSetTimeOutState k, pxTicksToWait - xElapsedTime, k)
  else (true, pxTimeOut, 0, k)

/-- `vTaskMissedYield`. -/
def vTaskMissedYield (k : Kernel T Q) : Kernel T Q := { k with xYieldPendings := true }

end TimeOuts

/-! ### Calls of the scheduler -/

section Sched

variable {T Q : Type} [DecidableEq T] [DecidableEq Q]

/-- A call of the scheduler, and whether it asks for a switch. -/
def TaskSys.call (a : TaskAction Q) (s : TaskSys T Q) : Option (Bool × TaskSys T Q) := do
  let ((asks, kernel), mem) ← (perform a s.kernel).run ListMem.call s.mem
  return (asks, ⟨kernel, mem, a.keeps s.asked || asks⟩)

/-- What is done when there is something to wake a task for: the first task that waits is woken,
if any does. -/
def TaskSys.wakeWaiting (q : Q) (s : TaskSys T Q) : Option (Bool × TaskSys T Q) := do
  let (isEmpty, mem) ← (listListIsEmpty (.pxEventList q)).run ListMem.call s.mem
  if isEmpty then return (false, { s with mem := mem })
  else TaskSys.call (.xTaskRemoveFromEventList q) { s with mem := mem }

/-- The loop of `prvUnlockQueue` over one of the two lists. -/
def TaskSys.wakeCounted (q : Q) : ℕ → TaskSys T Q → Option (TaskSys T Q)
  | 0, s => some s
  | cLock + 1, s => do
    let (isEmpty, mem) ← (listListIsEmpty (.pxEventList q)).run ListMem.call s.mem
    if isEmpty then return { s with mem := mem }
    else
      let (woken, s) ← TaskSys.call (.xTaskRemoveFromEventList q) { s with mem := mem }
      let s := if woken then { s with kernel := vTaskMissedYield s.kernel } else s
      s.wakeCounted q cLock

end Sched

/-! ### Queues -/

section Queues

/-- `queueUNLOCKED`. -/
def queueUnlocked : ℤ := -1

/-- `queueLOCKED_UNMODIFIED`. -/
def queueLockedUnmodified : ℤ := 0

/-- `queueINT8_MAX`. -/
def queueInt8Max : ℤ := 127

/-- **A queue**, `Queue_t`, but for its lists. -/
structure KernelQueue where
  storage : QueueStorage
  cRxLock : ℤ
  cTxLock : ℤ

/-- `prvLockQueue`. -/
def prvLockQueue (q : KernelQueue) : KernelQueue :=
  { q with
    cRxLock := if q.cRxLock = queueUnlocked then queueLockedUnmodified else q.cRxLock
    cTxLock := if q.cTxLock = queueUnlocked then queueLockedUnmodified else q.cTxLock }

/-- What `prvIncrementQueueTxLock` and `prvIncrementQueueRxLock` make of a count. -/
def prvIncrementQueueLock (uxNumberOfTasks : ℕ) (cLock : ℤ) : Option ℤ :=
  if cLock.toNat < uxNumberOfTasks then
    if cLock = queueInt8Max then none else some (cLock + 1)
  else some cLock

/-- `prvIncrementQueueTxLock`. -/
def prvIncrementQueueTxLock (uxNumberOfTasks : ℕ) (pxQueue : KernelQueue) (cTxLock : ℤ) :
    Option KernelQueue :=
  (prvIncrementQueueLock uxNumberOfTasks cTxLock).map fun cTxLock =>
    { pxQueue with cTxLock := cTxLock }

/-- `prvIncrementQueueRxLock`. -/
def prvIncrementQueueRxLock (uxNumberOfTasks : ℕ) (pxQueue : KernelQueue) (cRxLock : ℤ) :
    Option KernelQueue :=
  (prvIncrementQueueLock uxNumberOfTasks cRxLock).map fun cRxLock =>
    { pxQueue with cRxLock := cRxLock }

/-- `prvIsQueueEmpty`. -/
def prvIsQueueEmpty (q : QueueStorage) : Bool := q.uxMessagesWaiting == 0

/-- `prvIsQueueFull`. -/
def prvIsQueueFull (q : QueueStorage) : Bool := q.uxMessagesWaiting == q.uxLength

/-- Whether a call was served. -/
def QueueReply.served : QueueReply → Bool
  | .errQueueFull | .errQueueEmpty => false
  | _ => true

/-- What can be done with a queue. -/
inductive QueueOp where
  | xQueueGenericSend (pvItemToQueue : List UInt8) (xCopyPosition : CopyPosition)
  | xQueueReceive
  | xQueuePeek

namespace QueueOp

variable {U : Type}

/-- What the critical section does to the storage. -/
def call : QueueOp → QueueCall
  | xQueueGenericSend pvItemToQueue xCopyPosition => .send pvItemToQueue xCopyPosition
  | xQueueReceive => .receive
  | xQueuePeek => .peek

/-- The list in which a task waits that cannot do it. -/
def waitsIn (pxQueue : U) : QueueOp → QueueEvent U
  | xQueueGenericSend _ _ => .xTasksWaitingToSend pxQueue
  | xQueueReceive | xQueuePeek => .xTasksWaitingToReceive pxQueue

/-- The list from which a task is woken when it is done. A task that peeks leaves the item to the
next one. -/
def wakes (pxQueue : U) : QueueOp → QueueEvent U
  | xQueueGenericSend _ _ | xQueuePeek => .xTasksWaitingToReceive pxQueue
  | xQueueReceive => .xTasksWaitingToSend pxQueue

/-- Whether a task has to wait, after the queue was locked. -/
def mustWait : QueueOp → QueueStorage → Bool
  | xQueueGenericSend _ _ => prvIsQueueFull
  | xQueueReceive | xQueuePeek => prvIsQueueEmpty

/-- **When it may be done** to a queue for `n` items: with an item of the right size, and
overwriting only a queue for one item, which is not a semaphore. -/
def Proper (n size : ℕ) : QueueOp → Prop
  | xQueueGenericSend pvItemToQueue xCopyPosition =>
    pvItemToQueue.length = size ∧ (xCopyPosition = .overwrite → n = 1 ∧ 0 < size)
  | xQueueReceive | xQueuePeek => True

instance {n size : ℕ} : (op : QueueOp) → Decidable (op.Proper n size)
  | xQueueGenericSend _ _ => inferInstanceAs (Decidable (_ ∧ _))
  | xQueueReceive | xQueuePeek => inferInstanceAs (Decidable True)

end QueueOp

end Queues

/-! ### Where a task is -/

section Frames

/-- **What a task calls** that it may have to wait for. -/
inductive TaskRequest (U : Type) where
  | queue (pxQueue : U) (op : QueueOp) (xTicksToWait : TickType)
  | vTaskDelay (xTicksToDelay : TickType)

/-- The time to wait. -/
def TaskRequest.xTicksToWait {U : Type} : TaskRequest U → TickType
  | queue _ _ xTicksToWait => xTicksToWait
  | vTaskDelay xTicksToDelay => xTicksToDelay

/-- What is asserted first: a task does not wait for a queue while the scheduler is suspended. -/
def TaskRequest.asserts {U : Type} (uxSchedulerSuspended : ℕ) : TaskRequest U → Bool
  | queue _ _ xTicksToWait => !(uxSchedulerSuspended != 0 && xTicksToWait != 0)
  | vTaskDelay _ => true

/-- How a task came to unlock the queue. -/
inductive Outcome where
  | blocked
  | again
  | timedOut

/-- Whether a task yields when it has resumed the scheduler: if that has been done by then, or the
task has blocked itself. -/
def Outcome.yields (yielded : Bool) : Outcome → Bool
  | blocked => true
  | again | timedOut => yielded

/-- Where a task goes on after a switch. -/
inductive NextPoint where
  | head
  | recheck
  | leave (reply : QueueReply)

/-- **Where a task is in a call**, by what it does next. -/
inductive CallPoint where
  /-- The head of the loop. -/
  | head
  | vTaskSuspendAll
  | prvLockQueue
  | xTaskCheckForTimeOut
  /-- The second look at the queue. -/
  | examine
  /-- The task blocks itself. -/
  | place
  /-- The first half of `prvUnlockQueue`. -/
  | unlockTx (outcome : Outcome)
  /-- The second half. -/
  | unlockRx (outcome : Outcome)
  | xTaskResumeAll (outcome : Outcome)
  /-- A switch. -/
  | yield (next : NextPoint)
  /-- After the switch, once the task runs again. -/
  | yielded (next : NextPoint)
  /-- The last look at the queue, when the time is up. -/
  | recheck

/-- **A call that a task is in**, with its variables. Before `xTimeOut` is set it is not read. -/
structure CallFrame (U : Type) where
  request : TaskRequest U
  xTicksToWait : TickType
  xTimeOut : Option TimeOut
  point : CallPoint

/-- **Where a task is**: after a call, or in one. -/
inductive Frame (U : Type) where
  | returned (reply : QueueReply)
  | inside (f : CallFrame U)

variable {U : Type}

/-- Going on after a switch. -/
def CallFrame.next (f : CallFrame U) : NextPoint → Frame U
  | .head => .inside { f with point := .head }
  | .recheck => .inside { f with point := .recheck }
  | .leave reply => .returned reply

/-- Where a task goes on after the scheduler was resumed. -/
def TaskRequest.after : TaskRequest U → Outcome → NextPoint
  | .vTaskDelay _, _ => .leave .pass
  | .queue .., .blocked | .queue .., .again => .head
  | .queue _ (.xQueueGenericSend _ _) _, .timedOut => .leave .errQueueFull
  | .queue _ .xQueueReceive _, .timedOut | .queue _ .xQueuePeek _, .timedOut => .recheck

/-- Where a task goes on after it has suspended the scheduler. -/
def TaskRequest.suspended : TaskRequest U → CallPoint
  | .queue .. => .prvLockQueue
  | .vTaskDelay _ => .place

/-- Whether a task is after a call. -/
def Frame.isReturned : Frame U → Bool
  | returned _ => true
  | inside _ => false

end Frames

/-! ### The system -/

section System

variable {T U : Type}

/-- **What the system is set up for**: the tasks, and the queues with their sizes. A queue whose
size overflows is not created. -/
structure QueueConfig (T U : Type) extends TaskConfig T (QueueEvent U) where
  uxLength : U → ℕ
  uxItemSize : U → ℕ
  fits : ∀ pxQueue, uxItemSize pxQueue ≤ sizeMax / uxLength pxQueue

/-- `uxTaskGetNumberOfTasks`. -/
def TaskConfig.uxTaskGetNumberOfTasks {Q : Type} (c : TaskConfig T Q) : ℕ :=
  (c.tasks ++ [c.xIdleTask, c.xTimerTask]).length

/-- **The system**: the scheduler, the queues, and where each task is. -/
structure QueueSys (T U : Type) where
  sched : TaskSys T (QueueEvent U)
  queues : U → KernelQueue
  frames : T → Frame U

/-- The task that runs. -/
def QueueSys.current (s : QueueSys T U) : T := s.sched.kernel.pxCurrentTCB

/-- **What can happen**: the task that runs calls something, or takes a step of its call, or
there is an interrupt. -/
inductive QueueAction (U : Type) where
  | request (request : TaskRequest U)
  | step
  | xTaskIncrementTick
  | vTaskSwitchContext
  | xQueueGenericSendFromISR (pxQueue : U) (pvItemToQueue : List UInt8)
    (xCopyPosition : CopyPosition)
  | xQueueReceiveFromISR (pxQueue : U)

/-- When a task may make a call. The idle task never waits. -/
def TaskRequest.Proper (c : QueueConfig T U) (t : T) : TaskRequest U → Prop
  | queue pxQueue op xTicksToWait =>
    op.Proper (c.uxLength pxQueue) (c.uxItemSize pxQueue) ∧ (t = c.xIdleTask → xTicksToWait = 0)
  | vTaskDelay xTicksToDelay => t = c.xIdleTask → xTicksToDelay = 0

variable [DecidableEq T]

instance {c : QueueConfig T U} {t : T} : (r : TaskRequest U) → Decidable (r.Proper c t)
  | .queue .. => inferInstanceAs (Decidable (_ ∧ _))
  | .vTaskDelay _ => inferInstanceAs (Decidable (_ → _))

/-- **When it happens.** The scheduler is not suspended for so long that the count of pended
ticks wraps around. -/
def QueueSys.Allowed (c : QueueConfig T U) (s : QueueSys T U) : QueueAction U → Prop
  | .request r => (s.frames s.current).isReturned = true ∧ r.Proper c s.current
  | .step => (s.frames s.current).isReturned = false
  | .xTaskIncrementTick => s.sched.kernel.uxSchedulerSuspended = 0 ∨
      s.sched.kernel.xPendedTicks ≠ portMaxDelay
  | .vTaskSwitchContext => True
  | .xQueueGenericSendFromISR pxQueue pvItemToQueue xCopyPosition =>
    (QueueOp.xQueueGenericSend pvItemToQueue xCopyPosition).Proper (c.uxLength pxQueue)
      (c.uxItemSize pxQueue)
  | .xQueueReceiveFromISR _ => True

instance {c : QueueConfig T U} {s : QueueSys T U} : (a : QueueAction U) → Decidable (s.Allowed c a)
  | .request _ => inferInstanceAs (Decidable (_ ∧ _))
  | .step => inferInstanceAs (Decidable (_ = _))
  | .xTaskIncrementTick => inferInstanceAs (Decidable (_ ∨ _))
  | .vTaskSwitchContext | .xQueueReceiveFromISR _ => inferInstanceAs (Decidable True)
  | .xQueueGenericSendFromISR pxQueue pvItemToQueue xCopyPosition =>
    inferInstanceAs (Decidable ((QueueOp.xQueueGenericSend pvItemToQueue xCopyPosition).Proper
      (c.uxLength pxQueue) (c.uxItemSize pxQueue)))

/-- The task that runs goes on. -/
def QueueSys.goOn (s : QueueSys T U) (sched : TaskSys T (QueueEvent U))
    (queues : U → KernelQueue) (frame : Frame U) : QueueSys T U :=
  ⟨sched, queues, Function.update s.frames s.current frame⟩

/-- The same queues, with another one in the place of one of them. -/
def QueueSys.set [DecidableEq U] (s : QueueSys T U) (pxQueue : U) (q : KernelQueue) :
    U → KernelQueue :=
  Function.update s.queues pxQueue q

variable [DecidableEq U]

/-- **The head of the loop**: the critical section. -/
def QueueSys.head (s : QueueSys T U) (f : CallFrame U) : Option (QueueSys T U) :=
  match f.request with
  | .queue pxQueue op _ => do
    let (reply, storage) ← (s.queues pxQueue).storage.call op.call
    let queues := s.set pxQueue { s.queues pxQueue with storage := storage }
    if reply.served then
      let (woken, sched) ← s.sched.wakeWaiting (op.wakes pxQueue)
      -- the yield takes effect when the critical section is left
      return s.goOn sched queues
        (if woken then .inside { f with point := .yield (.leave reply) } else .returned reply)
    else if f.xTicksToWait = 0 then return s.goOn s.sched queues (.returned reply)
    else
      -- `xEntryTimeSet`: the time is noted only when the task first comes here
      let xTimeOut := f.xTimeOut.getD (vTaskInternalSetTimeOutState s.sched.kernel)
      return s.goOn s.sched queues
        (.inside { f with xTimeOut := some xTimeOut, point := .vTaskSuspendAll })
  | .vTaskDelay _ =>
    some (s.goOn s.sched s.queues (.inside { f with
      point := if f.xTicksToWait = 0 then .yield (.leave .pass) else .vTaskSuspendAll }))

/-- The check of the time-out. -/
def QueueSys.check (s : QueueSys T U) (f : CallFrame U) : Option (QueueSys T U) := do
  let (timedOut, xTimeOut, xTicksToWait, kernel) :=
    xTaskCheckForTimeOut s.sched.kernel (← f.xTimeOut) f.xTicksToWait
  return s.goOn { s.sched with kernel := kernel } s.queues (.inside { f with
    xTicksToWait := xTicksToWait
    xTimeOut := some xTimeOut
    point := if timedOut then .unlockTx .timedOut else .examine })

/-- The second look at the queue. -/
def QueueSys.examine (s : QueueSys T U) (f : CallFrame U) (pxQueue : U) (op : QueueOp) :
    QueueSys T U :=
  s.goOn s.sched s.queues (.inside { f with
    point := if op.mustWait (s.queues pxQueue).storage then .place else .unlockTx .again })

/-- The task blocks itself. -/
def QueueSys.place (s : QueueSys T U) (f : CallFrame U) : Option (QueueSys T U) :=
  match f.request with
  | .queue pxQueue op _ => do
    let (_, sched) ← s.sched.call (.vTaskPlaceOnEventList (op.waitsIn pxQueue) f.xTicksToWait)
    return s.goOn sched s.queues (.inside { f with point := .unlockTx .blocked })
  | .vTaskDelay _ =>
    -- `vTaskDelay` asserts that nobody else has suspended the scheduler
    if s.sched.kernel.uxSchedulerSuspended = 1 then do
      let (_, sched) ← s.sched.call (.prvAddCurrentTaskToDelayedList f.xTicksToWait)
      return s.goOn sched s.queues (.inside { f with point := .xTaskResumeAll .blocked })
    else none

/-- One half of `prvUnlockQueue`: as many tasks are woken as were counted, and the queue is `q`
then. -/
def QueueSys.unlock (s : QueueSys T U) (f : CallFrame U) (pxQueue : U) (pxEventList : QueueEvent U)
    (cLock : ℤ) (q : KernelQueue) (point : CallPoint) : Option (QueueSys T U) := do
  let sched ← s.sched.wakeCounted pxEventList cLock.toNat
  return s.goOn sched (s.set pxQueue q) (.inside { f with point := point })

/-- The first half of `prvUnlockQueue`. -/
def QueueSys.unlockTx (s : QueueSys T U) (f : CallFrame U) (pxQueue : U) (outcome : Outcome) :
    Option (QueueSys T U) :=
  s.unlock f pxQueue (.xTasksWaitingToReceive pxQueue) (s.queues pxQueue).cTxLock
    { s.queues pxQueue with cTxLock := queueUnlocked } (.unlockRx outcome)

/-- The second half. -/
def QueueSys.unlockRx (s : QueueSys T U) (f : CallFrame U) (pxQueue : U) (outcome : Outcome) :
    Option (QueueSys T U) :=
  s.unlock f pxQueue (.xTasksWaitingToSend pxQueue) (s.queues pxQueue).cRxLock
    { s.queues pxQueue with cRxLock := queueUnlocked } (.xTaskResumeAll outcome)

/-- `xTaskResumeAll`. -/
def QueueSys.resume (s : QueueSys T U) (f : CallFrame U) (outcome : Outcome) :
    Option (QueueSys T U) := do
  let (yielded, sched) ← s.sched.call .xTaskResumeAll
  let next := f.request.after outcome
  return s.goOn sched s.queues
    (if outcome.yields yielded then .inside { f with point := .yield next } else f.next next)

/-- **A step of the task that runs.** -/
def QueueSys.step (s : QueueSys T U) (f : CallFrame U) : Option (QueueSys T U) :=
  match f.point, f.request with
  | .head, _ => s.head f
  | .vTaskSuspendAll, request => do
    let (_, sched) ← s.sched.call .vTaskSuspendAll
    return s.goOn sched s.queues (.inside { f with point := request.suspended })
  | .prvLockQueue, .queue pxQueue _ _ =>
    some (s.goOn s.sched (s.set pxQueue (prvLockQueue (s.queues pxQueue)))
      (.inside { f with point := .xTaskCheckForTimeOut }))
  | .xTaskCheckForTimeOut, .queue .. => s.check f
  | .examine, .queue pxQueue op _ => some (s.examine f pxQueue op)
  | .place, _ => s.place f
  | .unlockTx outcome, .queue pxQueue _ _ => s.unlockTx f pxQueue outcome
  | .unlockRx outcome, .queue pxQueue _ _ => s.unlockRx f pxQueue outcome
  | .xTaskResumeAll outcome, _ => s.resume f outcome
  | .yield next, _ => do
    let (_, sched) ← s.sched.call .vTaskSwitchContext
    return s.goOn sched s.queues (.inside { f with point := .yielded next })
  | .yielded next, _ => some (s.goOn s.sched s.queues (f.next next))
  | .recheck, .queue pxQueue _ _ =>
    some (s.goOn s.sched s.queues
      (if prvIsQueueEmpty (s.queues pxQueue).storage then .returned .errQueueEmpty
      else .inside { f with point := .head }))
  -- a delay has no queue to lock, to look at or to unlock
  | _, .vTaskDelay _ => none

/-- What an interrupt does with a queue, of which it has read `cLock` before. If the queue is
locked, it only counts that it did, by `increment`. -/
def QueueSys.fromISR (c : QueueConfig T U) (s : QueueSys T U) (pxQueue : U) (op : QueueOp)
    (cLock : ℤ) (increment : ℕ → KernelQueue → ℤ → Option KernelQueue) :
    Option (QueueSys T U) := do
  let (reply, storage) ← (s.queues pxQueue).storage.call op.call
  let q := { s.queues pxQueue with storage := storage }
  if reply.served then
    if cLock = queueUnlocked then
      let (_, sched) ← s.sched.wakeWaiting (op.wakes pxQueue)
      return { s with sched := sched, queues := s.set pxQueue q }
    else
      -- the event lists are left to the task that has locked the queue
      let q ← increment c.uxTaskGetNumberOfTasks q cLock
      return { s with queues := s.set pxQueue q }
  else return { s with queues := s.set pxQueue q }

/-- `xQueueGenericSendFromISR`. -/
def QueueSys.xQueueGenericSendFromISR (c : QueueConfig T U) (s : QueueSys T U) (pxQueue : U)
    (pvItemToQueue : List UInt8) (xCopyPosition : CopyPosition) : Option (QueueSys T U) :=
  s.fromISR c pxQueue (.xQueueGenericSend pvItemToQueue xCopyPosition) (s.queues pxQueue).cTxLock
    prvIncrementQueueTxLock

/-- `xQueueReceiveFromISR`. -/
def QueueSys.xQueueReceiveFromISR (c : QueueConfig T U) (s : QueueSys T U) (pxQueue : U) :
    Option (QueueSys T U) :=
  s.fromISR c pxQueue .xQueueReceive (s.queues pxQueue).cRxLock prvIncrementQueueRxLock

/-- What happens. -/
def QueueSys.perform (c : QueueConfig T U) (s : QueueSys T U) :
    QueueAction U → Option (QueueSys T U)
  | .request r =>
    if r.asserts s.sched.kernel.uxSchedulerSuspended then
      some (s.goOn s.sched s.queues (.inside ⟨r, r.xTicksToWait, none, .head⟩))
    else none
  | .step =>
    match s.frames s.current with
    | .returned _ => none
    | .inside f => s.step f
  | .xTaskIncrementTick => do
    let (_, sched) ← s.sched.call .xTaskIncrementTick
    return { s with sched := sched }
  | .vTaskSwitchContext => do
    let (_, sched) ← s.sched.call .vTaskSwitchContext
    return { s with sched := sched }
  | .xQueueGenericSendFromISR pxQueue pvItemToQueue xCopyPosition =>
    s.xQueueGenericSendFromISR c pxQueue pvItemToQueue xCopyPosition
  | .xQueueReceiveFromISR pxQueue => s.xQueueReceiveFromISR c pxQueue

/-- **One action of the system.** -/
def QueueSys.fire (c : QueueConfig T U) (a : QueueAction U) (s : QueueSys T U) :
    Option (QueueSys T U) :=
  if s.Allowed c a then s.perform c a else none

/-- The start, on any memory and with any queues. -/
def QueueSys.start (c : QueueConfig T U)
    (mem : ListMem (TaskItem T) (TaskList (QueueEvent U)) T) (storage : U → QueueStorage) :
    Option (QueueSys T U) := do
  let sched ← TaskSys.start c.toTaskConfig mem
  return ⟨sched, fun pxQueue => ⟨storage pxQueue, queueUnlocked, queueUnlocked⟩,
    fun _ => .returned .pass⟩

end System

end CubesatPipeline
