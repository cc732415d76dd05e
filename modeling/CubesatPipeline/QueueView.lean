import CubesatPipeline.QueueCode

/-!
# What waiting for a queue is for

The queues and the tasks that wait for them as a user sees them (`CubesatPipeline.QueueView`): the
scheduler as it is seen, a list of items for each queue, how much was done to a queue while it was
locked, and where each task is. `CubesatPipeline.QueueView.Step` says what each action does:

* a call is served when the list of items allows it, and whoever serves itself wakes one of those
  that wait for what it did, of which none has a higher priority
  (`CubesatPipeline.TaskView.Freed`);
* a task that is not served goes on waiting until its time is up, and the time is never up too
  early (`CubesatPipeline.CallFrame.Moves`);
* what interrupts do to a locked queue is counted, and as many tasks are woken when it is unlocked.
-/

namespace CubesatPipeline

open Transition

/-! ### Being woken -/

section Freed

variable {T Q : Type}

/-- **Tasks are taken off what they wait for**: `n` of them, or all; and those that are left have
no higher priority. -/
structure TaskView.Freed (uxPriority : T → Fin configMaxPriorities) (q : Q) (n : ℕ)
    (v v' : TaskView T Q) (woken : Finset T) : Prop where
  now : v'.now = v.now
  pended : v'.pended = v.pended
  suspended : v'.suspended = v.suspended
  current : v'.current = v.current
  waited : ∀ t ∈ woken, v.waits t = .event q
  awake : ∀ t ∈ woken, v'.waits t = .noted ∧ v'.status t = v.status t ∨
    v'.waits t = .nothing ∧ v'.status t = .ready
  status : ∀ t, t ∉ woken → v'.status t = v.status t
  waits : ∀ t, t ∉ woken → v'.waits t = v.waits t
  card : woken.card = n ∨ ∀ t, v'.waits t ≠ .event q
  le : ∀ t ∈ woken, ∀ t', v'.waits t' = .event q → uxPriority t' ≤ uxPriority t

end Freed

/-! ### The queues, as they are seen -/

section View

variable {T U : Type}

/-- When a time-out was set. -/
def TimeOut.entered (o : TimeOut) : ℕ := o.xOverflowCount * 2 ^ 32 + o.xTimeOnEntering.toNat

/-- **The system, as it is seen.** A queue is locked where something is counted: in the list of
those who wait to receive what was sent, and in the other one what was received. -/
structure QueueView (T U : Type) where
  tasks : TaskView T (QueueEvent U)
  items : U → List (List UInt8)
  lock : QueueEvent U → Option ℕ
  frames : T → Frame U

/-- The queue of a list. -/
def QueueEvent.pxQueue : QueueEvent U → U
  | xTasksWaitingToSend pxQueue => pxQueue
  | xTasksWaitingToReceive pxQueue => pxQueue

/-- What the tasks in a list wait for: room, or items. -/
def QueueView.stock (c : QueueConfig T U) (v : QueueView T U) : QueueEvent U → ℕ
  | .xTasksWaitingToSend pxQueue => c.uxLength pxQueue - (v.items pxQueue).length
  | .xTasksWaitingToReceive pxQueue => (v.items pxQueue).length

/-- What the critical section does to the items. -/
def QueueConfig.serve (c : QueueConfig T U) (pxQueue : U) (op : QueueOp)
    (items : List (List UInt8)) : Option (QueueReply × List (List UInt8)) :=
  itemsCall (c.uxLength pxQueue) (c.uxItemSize pxQueue) op.call items

/-- **The steps of a call that only its task sees.** -/
inductive CallFrame.Moves (c : QueueConfig T U) (now : ℕ) (v : QueueView T U) (f : CallFrame U) :
    Frame U → Prop
  | refuse {pxQueue : U} {op : QueueOp} {n : TickType} {reply : QueueReply}
    (hpoint : f.point = .head) (hrequest : f.request = .queue pxQueue op n)
    (hserve : c.serve pxQueue op (v.items pxQueue) = some (reply, v.items pxQueue))
    (hrefused : reply.served = false) (hzero : f.xTicksToWait = 0) :
    Moves c now v f (.returned reply)
  | wait {pxQueue : U} {op : QueueOp} {n : TickType} {reply : QueueReply} {o : TimeOut}
    (hpoint : f.point = .head) (hrequest : f.request = .queue pxQueue op n)
    (hserve : c.serve pxQueue op (v.items pxQueue) = some (reply, v.items pxQueue))
    (hrefused : reply.served = false) (hpos : f.xTicksToWait ≠ 0)
    (htime : f.xTimeOut = some o ∨ f.xTimeOut = none ∧ o.entered = now) :
    Moves c now v f (.inside { f with xTimeOut := some o, point := .vTaskSuspendAll })
  | delayZero {n : TickType} (hpoint : f.point = .head) (hrequest : f.request = .vTaskDelay n)
    (hzero : f.xTicksToWait = 0) :
    Moves c now v f (.inside { f with point := .yield (.leave .pass) })
  | delay {n : TickType} (hpoint : f.point = .head) (hrequest : f.request = .vTaskDelay n)
    (hpos : f.xTicksToWait ≠ 0) : Moves c now v f (.inside { f with point := .vTaskSuspendAll })
  /-- A task that does not wait for ever waits for what is left. -/
  | inTime {o o' : TimeOut} {n : TickType} (hpoint : f.point = .xTaskCheckForTimeOut)
    (htime : f.xTimeOut = some o) (hpos : n ≠ 0) (hentered : o'.entered ≤ now)
    (hleft : f.xTicksToWait = portMaxDelay ∧ n = portMaxDelay ∨
      f.xTicksToWait ≠ portMaxDelay ∧ n ≠ portMaxDelay ∧
        o.entered + f.xTicksToWait.toNat ≤ o'.entered + n.toNat) :
    Moves c now v f
      (.inside { f with xTicksToWait := n, xTimeOut := some o', point := .examine })
  | timeUp {o : TimeOut} (hpoint : f.point = .xTaskCheckForTimeOut) (htime : f.xTimeOut = some o)
    (hmax : f.xTicksToWait ≠ portMaxDelay) (hup : o.entered + f.xTicksToWait.toNat ≤ now) :
    Moves c now v f (.inside { f with xTicksToWait := 0, point := .unlockTx .timedOut })
  | mustWait {pxQueue : U} {op : QueueOp} {n : TickType} (hpoint : f.point = .examine)
    (hrequest : f.request = .queue pxQueue op n) (hstock : v.stock c (op.waitsIn pxQueue) = 0) :
    Moves c now v f (.inside { f with point := .place })
  | again {pxQueue : U} {op : QueueOp} {n : TickType} (hpoint : f.point = .examine)
    (hrequest : f.request = .queue pxQueue op n) (hstock : 0 < v.stock c (op.waitsIn pxQueue)) :
    Moves c now v f (.inside { f with point := .unlockTx .again })
  | yielded {next : NextPoint} (hpoint : f.point = .yielded next) : Moves c now v f (f.next next)
  | empty {pxQueue : U} {op : QueueOp} {n : TickType} (hpoint : f.point = .recheck)
    (hrequest : f.request = .queue pxQueue op n) (hitems : v.items pxQueue = []) :
    Moves c now v f (.returned .errQueueEmpty)
  | notEmpty {pxQueue : U} {op : QueueOp} {n : TickType} (hpoint : f.point = .recheck)
    (hrequest : f.request = .queue pxQueue op n) (hitems : v.items pxQueue ≠ []) :
    Moves c now v f (.inside { f with point := .head })

/-- What an interrupt does with a queue. -/
def QueueAction.fromISR : QueueAction U → Option (U × QueueOp)
  | .xQueueGenericSendFromISR pxQueue pvItemToQueue xCopyPosition =>
    some (pxQueue, .xQueueGenericSend pvItemToQueue xCopyPosition)
  | .xQueueReceiveFromISR pxQueue => some (pxQueue, .xQueueReceive)
  | _ => none

/-- The half of `prvUnlockQueue` that a task is at, with the list of it and where it goes on. -/
inductive CallFrame.Unlocks (f : CallFrame U) : QueueEvent U → CallPoint → Prop
  | tx {pxQueue : U} {op : QueueOp} {n : TickType} {outcome : Outcome}
    (hpoint : f.point = .unlockTx outcome) (hrequest : f.request = .queue pxQueue op n) :
    Unlocks f (.xTasksWaitingToReceive pxQueue) (.unlockRx outcome)
  | rx {pxQueue : U} {op : QueueOp} {n : TickType} {outcome : Outcome}
    (hpoint : f.point = .unlockRx outcome) (hrequest : f.request = .queue pxQueue op n) :
    Unlocks f (.xTasksWaitingToSend pxQueue) (.xTaskResumeAll outcome)

variable [DecidableEq T]

/-- The task that runs goes on. -/
def QueueView.goOn (v : QueueView T U) (frame : Frame U) : QueueView T U :=
  { v with frames := Function.update v.frames v.tasks.current frame }

variable [DecidableEq U]

/-- **What the actions are for.** -/
inductive QueueView.Step (c : QueueConfig T U) :
    QueueAction U → QueueView T U → QueueView T U → Prop
  | request (v) (r : TaskRequest U) (hreturned : (v.frames v.tasks.current).isReturned = true)
    (hproper : r.Proper c v.tasks.current) :
    Step c (.request r) v (v.goOn (.inside ⟨r, r.xTicksToWait, none, .head⟩))
  | move (v) {f : CallFrame U} {frame : Frame U} (hframe : v.frames v.tasks.current = .inside f)
    (hmoves : f.Moves c v.tasks.now v frame) : Step c .step v (v.goOn frame)
  /-- A call is served, and a task is woken if any waits for that. -/
  | serve (v) {f : CallFrame U} {pxQueue : U} {op : QueueOp} {n : TickType} {reply : QueueReply}
    {items : List (List UInt8)} {tasks : TaskView T (QueueEvent U)} {woken : Finset T}
    {frame : Frame U} (hframe : v.frames v.tasks.current = .inside f) (hpoint : f.point = .head)
    (hrequest : f.request = .queue pxQueue op n)
    (hserve : c.serve pxQueue op (v.items pxQueue) = some (reply, items))
    (hserved : reply.served = true)
    (hfreed : v.tasks.Freed c.uxPriority (op.wakes pxQueue) 1 tasks woken)
    (hleaves : frame = .returned reply ∨
      frame = .inside { f with point := .yield (.leave reply) }) :
    Step c .step v
      { v.goOn frame with tasks := tasks, items := Function.update v.items pxQueue items }
  | suspend (v) {f : CallFrame U} {tasks : TaskView T (QueueEvent U)}
    (hframe : v.frames v.tasks.current = .inside f) (hpoint : f.point = .vTaskSuspendAll)
    (htasks : TaskView.Step c.uxPriority .vTaskSuspendAll v.tasks tasks) :
    Step c .step v
      { v.goOn (.inside { f with point := f.request.suspended }) with tasks := tasks }
  | lock (v) {f : CallFrame U} {pxQueue : U} {op : QueueOp} {n : TickType}
    (hframe : v.frames v.tasks.current = .inside f) (hpoint : f.point = .prvLockQueue)
    (hrequest : f.request = .queue pxQueue op n) :
    Step c .step v { v.goOn (.inside { f with point := .xTaskCheckForTimeOut }) with
      lock := fun e =>
        if e.pxQueue = pxQueue then some ((v.lock e).getD 0) else v.lock e }
  | place (v) {f : CallFrame U} {pxQueue : U} {op : QueueOp} {n : TickType}
    {tasks : TaskView T (QueueEvent U)} (hframe : v.frames v.tasks.current = .inside f)
    (hpoint : f.point = .place) (hrequest : f.request = .queue pxQueue op n)
    (htasks : TaskView.Step c.uxPriority
      (.vTaskPlaceOnEventList (op.waitsIn pxQueue) f.xTicksToWait) v.tasks tasks) :
    Step c .step v { v.goOn (.inside { f with point := .unlockTx .blocked }) with tasks := tasks }
  | placeDelay (v) {f : CallFrame U} {n : TickType} {tasks : TaskView T (QueueEvent U)}
    (hframe : v.frames v.tasks.current = .inside f) (hpoint : f.point = .place)
    (hrequest : f.request = .vTaskDelay n)
    (htasks : TaskView.Step c.uxPriority (.prvAddCurrentTaskToDelayedList f.xTicksToWait)
      v.tasks tasks) :
    Step c .step v
      { v.goOn (.inside { f with point := .xTaskResumeAll .blocked }) with tasks := tasks }
  /-- As many tasks are woken as were counted. -/
  | unlock (v) {f : CallFrame U} {e : QueueEvent U} {point : CallPoint}
    {tasks : TaskView T (QueueEvent U)} {woken : Finset T}
    (hframe : v.frames v.tasks.current = .inside f) (hunlocks : f.Unlocks e point)
    (hfreed : v.tasks.Freed c.uxPriority e ((v.lock e).getD 0) tasks woken) :
    Step c .step v { v.goOn (.inside { f with point := point }) with
      tasks := tasks, lock := Function.update v.lock e none }
  | resume (v) {f : CallFrame U} {outcome : Outcome} {tasks : TaskView T (QueueEvent U)}
    {frame : Frame U} (hframe : v.frames v.tasks.current = .inside f)
    (hpoint : f.point = .xTaskResumeAll outcome)
    (htasks : TaskView.Step c.uxPriority .xTaskResumeAll v.tasks tasks)
    (hnext : frame = .inside { f with point := .yield (f.request.after outcome) } ∨
      outcome ≠ .blocked ∧ frame = f.next (f.request.after outcome)) :
    Step c .step v { v.goOn frame with tasks := tasks }
  | yield (v) {f : CallFrame U} {next : NextPoint} {tasks : TaskView T (QueueEvent U)}
    (hframe : v.frames v.tasks.current = .inside f) (hpoint : f.point = .yield next)
    (htasks : TaskView.Step c.uxPriority .vTaskSwitchContext v.tasks tasks) :
    Step c .step v { v.goOn (.inside { f with point := .yielded next }) with tasks := tasks }
  | tick (v) {tasks : TaskView T (QueueEvent U)}
    (htasks : TaskView.Step c.uxPriority .xTaskIncrementTick v.tasks tasks) :
    Step c .xTaskIncrementTick v { v with tasks := tasks }
  | switch (v) {tasks : TaskView T (QueueEvent U)}
    (htasks : TaskView.Step c.uxPriority .vTaskSwitchContext v.tasks tasks) :
    Step c .vTaskSwitchContext v { v with tasks := tasks }
  /-- An interrupt is served, and a task is woken if any waits for that. -/
  | serveISR (v) {a : QueueAction U} {pxQueue : U} {op : QueueOp} {reply : QueueReply}
    {items : List (List UInt8)} {tasks : TaskView T (QueueEvent U)} {woken : Finset T}
    (ha : a.fromISR = some (pxQueue, op)) (hunlocked : v.lock (op.wakes pxQueue) = none)
    (hserve : c.serve pxQueue op (v.items pxQueue) = some (reply, items))
    (hserved : reply.served = true)
    (hfreed : v.tasks.Freed c.uxPriority (op.wakes pxQueue) 1 tasks woken) :
    Step c a v { v with tasks := tasks, items := Function.update v.items pxQueue items }
  /-- The queue is locked, and it is counted that there was something to wake a task for. -/
  | countISR (v) {a : QueueAction U} {pxQueue : U} {op : QueueOp} {reply : QueueReply}
    {items : List (List UInt8)} {n : ℕ} (ha : a.fromISR = some (pxQueue, op))
    (hlocked : v.lock (op.wakes pxQueue) = some n)
    (hserve : c.serve pxQueue op (v.items pxQueue) = some (reply, items))
    (hserved : reply.served = true) :
    Step c a v { v with
      items := Function.update v.items pxQueue items
      lock := Function.update v.lock (op.wakes pxQueue)
        (some (if n < c.uxTaskGetNumberOfTasks then n + 1 else n)) }
  | refuseISR (v) {a : QueueAction U} {pxQueue : U} {op : QueueOp} {reply : QueueReply}
    (ha : a.fromISR = some (pxQueue, op))
    (hserve : c.serve pxQueue op (v.items pxQueue) = some (reply, v.items pxQueue))
    (hrefused : reply.served = false) : Step c a v v

end View

end CubesatPipeline
