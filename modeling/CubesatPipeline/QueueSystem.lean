import CubesatPipeline.QueueRun
import CubesatPipeline.QueueTimes
import CubesatPipeline.Scheduler

/-!
# Tasks that wait for queues

In every state that the queues and the tasks reach, from any memory, with the tasks' calls, the
switches, the ticks and the other interrupts in any order:

* the code does what it is for, and with no more tasks than the lock of a queue can count it never
  gets stuck (`CubesatPipeline.queueSys_refines`);
* no wake-up is lost (`CubesatPipeline.queueSys_noLostWakeUp`);
* a call that is refused has waited for as long as it was asked to
  (`CubesatPipeline.queueSys_timeOut`);
* a delay takes as long as it was asked to (`CubesatPipeline.queueSys_vTaskDelay`).
-/

namespace CubesatPipeline

open CheckedBuffer Program Transition

/-! ### The states of the system -/

section Runs

variable {T U : Type} [DecidableEq T] [DecidableEq U] {c : QueueConfig T U} {s : QueueSys T U}

/-- A queue that was created. -/
def QueueConfig.Created (c : QueueConfig T U) (pxQueue : U) (q : QueueStorage) : Prop :=
  ∃ pvPortMalloc sizeofQueue, (∀ m b, pvPortMalloc m = some b → b.length = m) ∧
    xQueueGenericCreate pvPortMalloc sizeofQueue (c.uxLength pxQueue) (c.uxItemSize pxQueue) =
      some q

/-- **The states of the system**: those that it reaches, started on some memory with queues that
were created. -/
def QueueSys.Runs (c : QueueConfig T U) (s : QueueSys T U) : Prop :=
  ∃ mem storage s₀, (∀ pxQueue, c.Created pxQueue (storage pxQueue)) ∧
    QueueSys.start c mem storage = some s₀ ∧ Reachable (QueueSys.fire c) s₀ s

/-- What is seen of the start: every task is ready and after a call, and the queues are empty. -/
def QueueView.start (t : T) : QueueView T U :=
  ⟨.start t, fun _ => [], fun _ => none, fun _ => .returned .pass⟩

/-- **The system starts.** -/
theorem QueueSys.exists_start
    (mem : ListMem (TaskItem T) (TaskList (QueueEvent U)) T) {storage : U → QueueStorage}
    (hcreated : ∀ pxQueue, c.Created pxQueue (storage pxQueue)) :
    ∃ s t, QueueSys.start c mem storage = some s ∧ s.Shows c (.start t) := by
  obtain ⟨sched, lists, hstart, hgood, hview⟩ := TaskSys.exists_start c.toTaskConfig mem
  have haborted : sched.kernel.NoneAborted := by
    obtain ⟨⟨k, mem'⟩, hrun, hkernel⟩ := Option.bind_eq_some_iff.mp hstart
    obtain ⟨kernel, rfl, hsched⟩ := Option.bind_eq_some_iff.mp hkernel
    obtain rfl := Option.some.inj hsched
    exact (startKernel_returns _ _ _ _).of_run hrun kernel rfl
  refine ⟨⟨sched, fun pxQueue => ⟨storage pxQueue, queueUnlocked, queueUnlocked⟩,
    fun _ => .returned .pass⟩, sched.view.current, ?_,
    ⟨⟨⟨lists, hgood, hgood.view_eq.symm.trans hview⟩, haborted⟩, rfl, fun pxQueue => ?_⟩⟩
  · rw [QueueSys.start, hstart]
    rfl
  · obtain ⟨pvPortMalloc, sizeofQueue, hmalloc, hcreate⟩ := hcreated pxQueue
    exact ⟨(xQueueGenericCreate_spec hmalloc hcreate).1, rfl, rfl⟩

/-- What is seen of a state that is reached. -/
theorem QueueSys.Runs.shows (h : s.Runs c) : ∃ v, s.Shows c v ∧ v.Inv c := by
  obtain ⟨mem, storage, s₀, hcreated, hstart, hreach⟩ := h
  obtain ⟨s₁, t, hs₁, hshows⟩ := QueueSys.exists_start mem hcreated
  obtain rfl := Option.some.inj (hs₁.symm.trans hstart)
  refine hreach.invariant (P := fun s => ∃ v, s.Shows c v ∧ v.Inv c)
    ⟨_, hshows, QueueView.inv_start⟩ ?_
  rintro a s₂ s₃ ⟨v, hv, hinv⟩ hfire
  obtain ⟨v', hv', hstep⟩ := hv.of_fire hinv hfire
  exact ⟨v', hv', hstep.inv hinv⟩

omit [DecidableEq T] in
/-- What is seen of the scheduler is what is seen of the system. -/
theorem QueueSys.Shows.tasks_eq {v : QueueView T U} (h : s.Shows c v) : v.tasks = s.sched.view := by
  obtain ⟨lists, hgood, hview⟩ := h.tasks.good
  rw [hgood.view_eq, hview]

/-- What is there for the tasks that wait in a list: room in the queue, or items. -/
def QueueSys.stock (s : QueueSys T U) : QueueEvent U → ℕ
  | .xTasksWaitingToSend pxQueue =>
    (s.queues pxQueue).storage.uxLength - (s.queues pxQueue).storage.uxMessagesWaiting
  | .xTasksWaitingToReceive pxQueue => (s.queues pxQueue).storage.uxMessagesWaiting

omit [DecidableEq T] in
theorem QueueSys.Shows.stock_eq {v : QueueView T U} (h : s.Shows c v) (e : QueueEvent U) :
    s.stock e = v.stock c e := by
  have hholds := (h.queues e.pxQueue).storage
  cases e with
  | xTasksWaitingToSend pxQueue =>
    exact congrArg₂ _ hholds.length_eq hholds.waiting_eq
  | xTasksWaitingToReceive pxQueue => exact hholds.waiting_eq

end Runs

/-! ### Queues for bytes -/

section Bytes

/-- The tasks of the pipeline, with queues for bytes. -/
def byteQueues : QueueConfig PipelineTask PipelineQueue where
  toTaskConfig := pipelineConfig
  uxLength _ := 10
  uxItemSize _ := 1
  fits _ := by decide

/-- The system from the start, through some actions. -/
def byteRun (actions : List (QueueAction PipelineQueue)) :
    Option (QueueSys PipelineTask PipelineQueue) :=
  (xQueueGenericCreate (fun m => some (fresh m)) 80 10 1).bind fun q =>
    (QueueSys.start byteQueues garbage fun _ => q).bind
      (actions.foldlM fun s a => s.fire byteQueues a)

theorem created_byteQueues {q : QueueStorage}
    (h : xQueueGenericCreate (fun m => some (fresh m)) 80 10 1 = some q) (pxQueue : PipelineQueue) :
    byteQueues.Created pxQueue q :=
  ⟨_, 80, fun m _ hb => Option.some.inj hb ▸ length_fresh m, h⟩

theorem runs_of_byteRun {actions : List (QueueAction PipelineQueue)}
    {s : QueueSys PipelineTask PipelineQueue} (h : byteRun actions = some s) :
    s.Runs byteQueues := by
  obtain ⟨q, hcreate, hrun⟩ := Option.bind_eq_some_iff.mp h
  obtain ⟨s₀, hstart, hactions⟩ := Option.bind_eq_some_iff.mp hrun
  exact ⟨garbage, fun _ => q, s₀, created_byteQueues hcreate, hstart, .of_foldlM .init hactions⟩

/-- The task that runs receives from an empty queue, up to where it lets others run. -/
def untilBlocked (pxQueue : PipelineQueue) (xTicksToWait : TickType) :
    List (QueueAction PipelineQueue) :=
  .request (.queue pxQueue .xQueueReceive xTicksToWait) :: List.replicate 10 .step

/-- The rest of a call that waits for two ticks, up to where it gives up. -/
def untilTimeOut : List (QueueAction PipelineQueue) :=
  List.replicate 10 .step ++ [.xTaskIncrementTick, .xTaskIncrementTick, .vTaskSwitchContext] ++
    List.replicate 9 .step

/-- The rest of a delay of two ticks. -/
def untilDelayed : List (QueueAction PipelineQueue) :=
  List.replicate 5 .step ++ [.xTaskIncrementTick, .xTaskIncrementTick, .vTaskSwitchContext, .step]

end Bytes

/-! ### What it does -/

section Results

variable {T U : Type} [DecidableEq T] [DecidableEq U] {c : QueueConfig T U}
  {s s₀ s₁ s₂ : QueueSys T U}

/-- **No wake-up is lost.** In each state in which the scheduler is not suspended, and some task
waits for an item, or for room, there are no more items, or no more room, than tasks that are ready
and on their way to look for it. So no task waits for what is there with nobody coming to take
it. This is so although interrupts send and receive while the queue is locked, and although a task
that has been woken may find that another one was faster. -/
theorem queueSys_noLostWakeUp (h : s.Runs c) (hzero : s.sched.kernel.uxSchedulerSuspended = 0)
    {e : QueueEvent U} {t : T} (ht : s.sched.view.waits t = .event e) :
    ∃ looking : Finset T, s.stock e ≤ looking.card ∧
      ∀ t' ∈ looking, s.sched.view.status t' = .ready ∧ (s.frames t').looksIn e := by
  obtain ⟨v, hv, hinv⟩ := h.shows
  obtain ⟨lists, hgood, hview⟩ := hv.tasks.good
  rw [← hv.tasks_eq] at ht ⊢
  rw [hv.stock_eq, hv.frames]
  refine hinv.noLostWakeUp (hv.suspended ▸ hzero) (fun t' ht' => ?_) ht
  rw [← hview] at ht'
  exact hgood.inv.noted hzero t' (waitsFor_eq_noted.mp ht')

/-- The task of the timers and the first task wait for a byte, and the second task sends one. -/
theorem queueSys_noLostWakeUp_task1 : ∃ s,
    byteRun (untilBlocked .xTimerQueue portMaxDelay ++ untilBlocked .xTimerQueue portMaxDelay ++
      [.request (.queue .xTimerQueue (.xQueueGenericSend [7] .sendToBack) 0), .step]) = some s ∧
    s.sched.view.waits .vTask1PayloadReader = .event (.xTasksWaitingToReceive .xTimerQueue) ∧
    ∃ t, s.sched.view.status t = .ready ∧
      (s.frames t).looksIn (.xTasksWaitingToReceive .xTimerQueue) := by
  have hseen : (byteRun (untilBlocked .xTimerQueue portMaxDelay ++
      untilBlocked .xTimerQueue portMaxDelay ++
      [.request (.queue .xTimerQueue (.xQueueGenericSend [7] .sendToBack) 0), .step])).map
        (fun s => (s.sched.kernel.uxSchedulerSuspended, s.sched.view.waits .vTask1PayloadReader,
          s.stock (.xTasksWaitingToReceive .xTimerQueue))) =
      some (0, .event (.xTasksWaitingToReceive .xTimerQueue), 1) := by decide +kernel
  obtain ⟨s, hs, hseen⟩ := Option.map_eq_some_iff.mp hseen
  obtain ⟨hzero, hseen⟩ := Prod.mk.inj hseen
  obtain ⟨hwaits, hstock⟩ := Prod.mk.inj hseen
  obtain ⟨looking, hle, hlooking⟩ := queueSys_noLostWakeUp (runs_of_byteRun hs) hzero hwaits
  rw [hstock] at hle
  obtain ⟨t, ht⟩ := Finset.card_pos.mp hle
  exact ⟨s, hs, hwaits, t, hlooking t ht⟩

/-- What happens until a task calls something. -/
def QueueSys.fireWithin (c : QueueConfig T U) (t : T) (a : QueueAction U) (s : QueueSys T U) :
    Option (QueueSys T U) :=
  if a.isRequest = true ∧ s.current = t then none else s.fire c a

/-- **What holds of a call.** What is so when the task has called, and stays so in each step in
which that task makes no call, is so until the task calls something again. -/
theorem QueueSys.Runs.call {r : TaskRequest U} {P : QueueView T U → Prop} (h₀ : s₀.Runs c)
    (hrequest : s₀.fire c (.request r) = some s₁)
    (hrun : Reachable (QueueSys.fireWithin c s₀.current) s₁ s₂)
    (hstart : ∀ v : QueueView T U,
      v.frames s₀.current = .inside ⟨r, r.xTicksToWait, none, .head⟩ →
      v.tasks.now = s₀.sched.view.now → P v)
    (hpreserved : ∀ {a v v'}, QueueView.Step c a v v' → v.Inv c →
      (a.isRequest = true → v.tasks.current ≠ s₀.current) → P v → P v') :
    ∃ v, s₂.Shows c v ∧ P v := by
  obtain ⟨v₀, hv₀, hinv₀⟩ := h₀.shows
  obtain ⟨v₁, hv₁, hstep⟩ := hv₀.of_fire hinv₀ hrequest
  have hcalled : P v₁ := by
    generalize hr : QueueAction.request r = a at hstep
    cases hstep with
    | request =>
      obtain rfl := QueueAction.request.inj hr
      refine hstart _ ?_ (congrArg TaskView.now hv₀.tasks_eq)
      rw [hv₀.current]
      exact Function.update_self ..
    | serveISR _ ha | countISR _ ha | refuseISR _ ha =>
      subst hr
      cases ha
    | _ => cases hr
  obtain ⟨v₂, hv₂, -, hP⟩ : ∃ v, s₂.Shows c v ∧ v.Inv c ∧ P v := by
    refine hrun.invariant (P := fun s => ∃ v, s.Shows c v ∧ v.Inv c ∧ P v)
      ⟨v₁, hv₁, hstep.inv hinv₀, hcalled⟩ ?_
    rintro a s s' ⟨v, hv, hinv, hP⟩ hfire
    rw [QueueSys.fireWithin] at hfire
    split at hfire
    next => cases hfire
    next hnot =>
      obtain ⟨v', hv', hstep'⟩ := hv.of_fire hinv hfire
      refine ⟨v', hv', hstep'.inv hinv, hpreserved hstep' hinv (fun hcall heq => ?_) hP⟩
      exact hnot ⟨hcall, hv.current.trans heq⟩
  exact ⟨v₂, hv₂, hP⟩

/-- **No call gives up before its time is over.** From when a task calls something, in every state
until it calls something again: if the call has been refused then the task did not ask to wait for
ever, and as many ticks have passed as it asked to wait. This is so however often the task was
woken and found nothing, and when the tick count wraps around. -/
theorem queueSys_timeOut {r : TaskRequest U} (h₀ : s₀.Runs c)
    (hrequest : s₀.fire c (.request r) = some s₁)
    (hrun : Reachable (QueueSys.fireWithin c s₀.current) s₁ s₂)
    (hrefused : (s₂.frames s₀.current).refused = true) : r.xTicksToWait ≠ portMaxDelay ∧
      s₀.sched.view.now + r.xTicksToWait.toNat ≤ s₂.sched.view.now := by
  obtain ⟨v₂, hv₂, hwaits⟩ := h₀.call (P := fun v =>
    (v.frames s₀.current).Waits r.xTicksToWait s₀.sched.view.now v.tasks.now) hrequest hrun
    (fun v hframe hnow => by rw [hframe, hnow]; exact waits_request r _)
    (fun hstep hinv hcall hw => hstep.waits hinv hcall hw)
  rw [hv₂.frames] at hrefused
  rw [← hv₂.tasks_eq]
  exact hwaits.of_refused hrefused

/-- The task of the timers waits for two ticks, and gives up. -/
theorem queueSys_timeOut_xTimerTask : ∃ s₀ s₁ s₂ : QueueSys PipelineTask PipelineQueue,
    byteRun [] = some s₀ ∧
    s₀.fire byteQueues (.request (.queue .xTimerQueue .xQueueReceive 2)) = some s₁ ∧
    (s₂.frames .xTimerTask).refused = true ∧ s₀.sched.view.now + 2 ≤ s₂.sched.view.now := by
  have hseen : ((byteRun []).bind fun s₀ =>
      (s₀.fire byteQueues (.request (.queue .xTimerQueue .xQueueReceive 2))).bind fun s₁ =>
        (untilTimeOut.foldlM (fun s a => QueueSys.fireWithin byteQueues .xTimerTask a s) s₁).map
          fun s₂ => (s₀.current, (s₂.frames .xTimerTask).refused)) =
      some (PipelineTask.xTimerTask, true) := by
    decide +kernel
  obtain ⟨s₀, h₀, hseen⟩ := Option.bind_eq_some_iff.mp hseen
  obtain ⟨s₁, h₁, hseen⟩ := Option.bind_eq_some_iff.mp hseen
  obtain ⟨s₂, hrun, hseen⟩ := Option.map_eq_some_iff.mp hseen
  obtain ⟨hcurrent, hrefused⟩ := Prod.mk.inj hseen
  have hreach : Reachable (QueueSys.fireWithin byteQueues s₀.current) s₁ s₂ := by
    rw [hcurrent]
    exact .of_foldlM .init hrun
  have hover := queueSys_timeOut (runs_of_byteRun h₀) h₁ hreach (by rw [hcurrent]; exact hrefused)
  exact ⟨s₀, s₁, s₂, h₀, h₁, hrefused, hover.2⟩

/-- **No delay ends before its time is over.** From when a task calls `vTaskDelay`, in every state
until it calls something again: if it is after the call then as many ticks have passed as it asked
for. -/
theorem queueSys_vTaskDelay {xTicksToDelay : TickType} (h₀ : s₀.Runs c)
    (hrequest : s₀.fire c (.request (.vTaskDelay xTicksToDelay)) = some s₁)
    (hrun : Reachable (QueueSys.fireWithin c s₀.current) s₁ s₂)
    (hreturned : (s₂.frames s₀.current).isReturned = true) :
    s₀.sched.view.now + xTicksToDelay.toNat ≤ s₂.sched.view.now := by
  obtain ⟨v₂, hv₂, hdelays⟩ := h₀.call (P := fun v =>
    (v.frames s₀.current).Delays xTicksToDelay s₀.sched.view.now v.tasks s₀.current) hrequest hrun
    (fun v hframe hnow => by rw [hframe]; exact delays_request hnow.ge)
    (fun hstep hinv hcall hd => hstep.delays hinv hcall hd)
  rw [hv₂.frames] at hreturned
  rw [← hv₂.tasks_eq]
  exact hdelays.of_returned hreturned

/-- The task of the timers delays itself for two ticks. -/
theorem queueSys_vTaskDelay_xTimerTask : ∃ s₀ s₁ s₂ : QueueSys PipelineTask PipelineQueue,
    byteRun [] = some s₀ ∧ s₀.fire byteQueues (.request (.vTaskDelay 2)) = some s₁ ∧
    (s₂.frames .xTimerTask).isReturned = true ∧ s₀.sched.view.now + 2 ≤ s₂.sched.view.now := by
  have hseen : ((byteRun []).bind fun s₀ =>
      (s₀.fire byteQueues (.request (.vTaskDelay 2))).bind fun s₁ =>
        (untilDelayed.foldlM (fun s a => QueueSys.fireWithin byteQueues .xTimerTask a s) s₁).map
          fun s₂ => (s₀.current, (s₂.frames .xTimerTask).isReturned)) =
      some (PipelineTask.xTimerTask, true) := by
    decide +kernel
  obtain ⟨s₀, h₀, hseen⟩ := Option.bind_eq_some_iff.mp hseen
  obtain ⟨s₁, h₁, hseen⟩ := Option.bind_eq_some_iff.mp hseen
  obtain ⟨s₂, hrun, hseen⟩ := Option.map_eq_some_iff.mp hseen
  obtain ⟨hcurrent, hreturned⟩ := Prod.mk.inj hseen
  have hreach : Reachable (QueueSys.fireWithin byteQueues s₀.current) s₁ s₂ := by
    rw [hcurrent]
    exact .of_foldlM .init hrun
  exact ⟨s₀, s₁, s₂, h₀, h₁, hreturned,
    queueSys_vTaskDelay (runs_of_byteRun h₀) h₁ hreach (by rw [hcurrent]; exact hreturned)⟩

end Results

end CubesatPipeline
