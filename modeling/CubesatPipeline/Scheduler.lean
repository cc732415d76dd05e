import CubesatPipeline.QueueStorage
import CubesatPipeline.TaskSystem

/-!
# What the scheduler does

In every state that the scheduler reaches, on any memory and with the calls in any order:

* it does what it is for, and never gets stuck (`CubesatPipeline.taskSys_refines`);
* a task that delays itself is ready when its time has come, and no sooner
  (`CubesatPipeline.taskSys_delay`);
* while no switch is asked for, no ready task has a higher priority than the current one
  (`CubesatPipeline.taskSys_preempts`);
* a ready task is not passed over for ever by tasks of its own priority
  (`CubesatPipeline.taskSys_turns`);
* `eTaskGetState` tells the state of a task (`CubesatPipeline.taskSys_eTaskGetState`).

The tasks of the pipeline, with the idle task and the task of the timers, are an instance
(`CubesatPipeline.pipelineConfig`).
-/

namespace CubesatPipeline

open Program Transition

variable {T Q : Type}

/-! ### The tasks of the pipeline -/

section Pipeline

/-- The queues: those of the pipeline, and the one of the timers. -/
inductive PipelineQueue where
  | xQueue1RawChunks
  | xQueue2OrderedChunks
  | xTimerQueue
  deriving DecidableEq

/-- The tasks that `main` creates, and those that `vTaskStartScheduler` creates. -/
inductive PipelineTask where
  | vTask1PayloadReader
  | vTask2FifoManager
  | vTask3NGHamEncoder
  | xIdleTask
  | xTimerTask
  deriving DecidableEq

/-- **The tasks of the pipeline.** -/
def pipelineConfig : TaskConfig PipelineTask (QueueEvent PipelineQueue) where
  uxPriority
    | .vTask1PayloadReader | .vTask2FifoManager | .vTask3NGHamEncoder => ⟨1, by decide⟩
    | .xIdleTask => tskIdlePriority
    | .xTimerTask => ⟨4, by decide⟩
  events := [.xQueue1RawChunks, .xQueue2OrderedChunks, .xTimerQueue].flatMap fun pxQueue =>
    [.xTasksWaitingToSend pxQueue, .xTasksWaitingToReceive pxQueue]
  tasks := [.vTask1PayloadReader, .vTask2FifoManager, .vTask3NGHamEncoder]
  xIdleTask := .xIdleTask
  xTimerTask := .xTimerTask
  mem_events
    | .xTasksWaitingToSend pxQueue => by cases pxQueue <;> decide
    | .xTasksWaitingToReceive pxQueue => by cases pxQueue <;> decide
  nodup := by decide
  mem_tasks t := by cases t <;> decide

/-- Memory of which nothing is known. -/
def garbage :
    ListMem (TaskItem PipelineTask) (TaskList (QueueEvent PipelineQueue)) PipelineTask where
  xItemValue _ := 7
  pxNext _ := .xListEnd .xDelayedTaskList1
  pxPrevious _ := .item (.xEventListItem .xIdleTask)
  pvOwner _ := .xIdleTask
  pxContainer _ := some .xPendingReadyList
  uxNumberOfItems _ := 3
  pxIndex _ := .xListEnd .xSuspendedTaskList

/-- The pipeline's tasks from the start, through some calls. -/
def pipelineRun (calls : List (TaskAction (QueueEvent PipelineQueue))) :
    Option (TaskSys PipelineTask (QueueEvent PipelineQueue)) :=
  (TaskSys.start pipelineConfig garbage).bind
    (calls.foldlM fun s a => s.fire pipelineConfig.xIdleTask a)

theorem runs_of_pipelineRun {calls : List (TaskAction (QueueEvent PipelineQueue))}
    {s : TaskSys PipelineTask (QueueEvent PipelineQueue)} (h : pipelineRun calls = some s) :
    s.Runs pipelineConfig := by
  obtain ⟨s₀, hstart, hcalls⟩ := Option.bind_eq_some_iff.mp h
  exact ⟨garbage, s₀, hstart, .of_foldlM .init hcalls⟩

/-- The task of the timers waits for something to do, and the first task of the pipeline runs. -/
def untilTask1 : List (TaskAction (QueueEvent PipelineQueue)) :=
  [.vTaskSuspendAll,
    .vTaskPlaceOnEventListRestricted (.xTasksWaitingToReceive .xTimerQueue) 0 true,
    .xTaskResumeAll, .vTaskSwitchContext]

/-- The rest of a delay, up to when another task runs and a tick passes. -/
def untilTick : List (TaskAction (QueueEvent PipelineQueue)) :=
  [.xTaskResumeAll, .vTaskSwitchContext, .xTaskIncrementTick]

/-- The first task is in a delay when the task of the timers is woken, and the scheduler is
suspended. -/
def untilNoted : List (TaskAction (QueueEvent PipelineQueue)) :=
  untilTask1 ++ [.vTaskSuspendAll, .prvAddCurrentTaskToDelayedList 2] ++ untilTick ++
    [.vTaskSuspendAll, .xTaskRemoveFromEventList (.xTasksWaitingToReceive .xTimerQueue)]

end Pipeline

/-! ### What it does -/

section Results

variable [DecidableEq T] [DecidableEq Q]

/-- **The scheduler does what it is for.** On any memory it starts, with every task ready. In each
state that it reaches, whatever calls were made in whatever order, each call comes to an end: no
pointer is followed that was not set, no scan runs past its list, and no assertion fails. And
each call does to the tasks what `TaskView.Step` says, with times that do not wrap around. -/
theorem taskSys_refines (c : TaskConfig T Q) (mem : ListMem (TaskItem T) (TaskList Q) T) :
    ∃ s₀, TaskSys.start c mem = some s₀ ∧ s₀.view = .start s₀.view.current ∧
      ∀ s, Reachable (TaskSys.fire c.xIdleTask) s₀ s → ∀ a, ∃ isAllowed mem',
        (allowed c.xIdleTask a s.kernel).run ListMem.call s.mem = some (isAllowed, mem') ∧
        (isAllowed = true → ∃ s', s.fire c.xIdleTask a = some s' ∧
          TaskView.Step c.uxPriority a s.view s'.view) := by
  obtain ⟨s₀, lists₀, hstart, hgood₀, hview⟩ := TaskSys.exists_start c mem
  refine ⟨s₀, hstart, hview, fun s hreach a => ?_⟩
  obtain ⟨lists, hgood⟩ := TaskSys.Runs.good (c := c) ⟨mem, s₀, hstart, hreach⟩
  obtain ⟨isAllowed, mem', hallowed, hdone⟩ := hgood.fire a
  refine ⟨isAllowed, mem', hallowed, fun hyes => ?_⟩
  obtain ⟨s', asks, lists', hfire, -⟩ := hdone hyes
  exact ⟨s', hfire, hgood.step hfire⟩

variable {c : TaskConfig T Q} {s s₀ s₁ s₂ : TaskSys T Q}

/-- **A delay ends when its time has come.** From when a task delays itself for some ticks, in
every state before that many ticks have passed it is blocked until then, and it is not chosen to
run; and the step by which its time comes makes it ready. This is so whatever else is done in
the meantime, while the scheduler is suspended, and when the tick count wraps around. -/
theorem taskSys_delay {xTicksToWait : TickType} (h₀ : s₀.Runs c)
    (hdelay : s₀.fire c.xIdleTask (.prvAddCurrentTaskToDelayedList xTicksToWait) = some s₁)
    (hrun : Reachable (TaskSys.fire c.xIdleTask) s₁ s₂)
    (hbefore : s₂.view.now < s₀.view.now + xTicksToWait.toNat) :
    s₂.view.status s₀.view.current = .blocked (s₀.view.now + xTicksToWait.toNat) ∧
      ∀ a s₃, s₂.fire c.xIdleTask a = some s₃ →
        (a = .vTaskSwitchContext → s₂.view.suspended = 0 →
          s₃.view.current ≠ s₀.view.current) ∧
        (s₀.view.now + xTicksToWait.toNat ≤ s₃.view.now →
          s₃.view.status s₀.view.current = .ready) := by
  set t := s₀.view.current
  set w := s₀.view.now + xTicksToWait.toNat
  have hdelayed₁ : s₁.view.Delayed t w := by
    have hstep := h₀.view_step hdelay
    generalize hv₁ : s₁.view = v₁ at hstep
    cases hstep with
    | delay _ _ hready =>
      refine ⟨(Function.update_self ..).trans ?_, Function.update_self ..⟩
      exact if_neg fun hforever => Bool.false_ne_true hforever.2
  -- the task stays blocked for as long as its time has not come
  have hinv : s₂.Runs c ∧ (s₂.view.now < w → s₂.view.Delayed t w) := by
    refine hrun.invariant (P := fun s => s.Runs c ∧ (s.view.now < w → s.view.Delayed t w))
      ⟨h₀.step hdelay, fun _ => hdelayed₁⟩ ?_
    rintro a s s' ⟨hs, hbefore'⟩ hfire
    have hstep := hs.view_step hfire
    refine ⟨hs.step hfire, fun hlt => ?_⟩
    have hlt' := hstep.now_le.trans_lt hlt
    exact ((hbefore' hlt').step hlt' hstep).1 hlt
  have hdelayed := hinv.2 hbefore
  refine ⟨hdelayed.status, fun a s₃ hfire => ⟨?_, ?_⟩⟩
  · rintro rfl hzero heq
    have hstep := hinv.1.view_step hfire
    generalize hv₃ : s₃.view = v₃ at hstep heq
    cases hstep with
    | switch _ _ t' hready =>
      rw [show t' = t from heq] at hready
      cases hdelayed.status.symm.trans hready
    | switchPended _ hsus => exact hsus hzero
  · exact (hdelayed.step hbefore (hinv.1.view_step hfire)).2

/-- The first task delays itself for two ticks, of which the first one passes while another task
runs, and the second one makes it ready. -/
theorem taskSys_delay_task1 : ∃ s₀ s₁ s₂ s₃ : TaskSys PipelineTask (QueueEvent PipelineQueue),
    pipelineRun (untilTask1 ++ [.vTaskSuspendAll]) = some s₀ ∧
      s₀.fire .xIdleTask (.prvAddCurrentTaskToDelayedList 2) = some s₁ ∧
      untilTick.foldlM (fun s a => TaskSys.fire .xIdleTask a s) s₁ = some s₂ ∧
      s₂.fire .xIdleTask .xTaskIncrementTick = some s₃ ∧
      s₂.view.status .vTask1PayloadReader = .blocked 2 ∧
      s₃.view.status .vTask1PayloadReader = .ready := by
  have hseen : ((pipelineRun (untilTask1 ++ [.vTaskSuspendAll])).bind fun s₀ =>
      (s₀.fire .xIdleTask (.prvAddCurrentTaskToDelayedList 2)).bind fun s₁ =>
        (untilTick.foldlM (fun s a => TaskSys.fire .xIdleTask a s) s₁).bind fun s₂ =>
          (s₂.fire .xIdleTask .xTaskIncrementTick).map fun s₃ =>
            (s₀.view.now, s₀.view.current, s₂.view.now, s₃.view.now)) =
      some (0, PipelineTask.vTask1PayloadReader, 1, 2) := by decide +kernel
  obtain ⟨s₀, h₀, hseen⟩ := Option.bind_eq_some_iff.mp hseen
  obtain ⟨s₁, h₁, hseen⟩ := Option.bind_eq_some_iff.mp hseen
  obtain ⟨s₂, h₂, hseen⟩ := Option.bind_eq_some_iff.mp hseen
  obtain ⟨s₃, h₃, hseen⟩ := Option.map_eq_some_iff.mp hseen
  obtain ⟨hnow₀, hseen⟩ := Prod.mk.inj hseen
  obtain ⟨hcurrent, hseen⟩ := Prod.mk.inj hseen
  obtain ⟨hnow₂, hnow₃⟩ := Prod.mk.inj hseen
  have hbefore : s₂.view.now < s₀.view.now + (2 : TickType).toNat := by
    rw [hnow₀, hnow₂]
    decide
  obtain ⟨hblocked, hready⟩ :=
    taskSys_delay (runs_of_pipelineRun h₀) h₁ (.of_foldlM .init h₂) hbefore
  have hready₃ := (hready .xTaskIncrementTick s₃ h₃).2 (by rw [hnow₀, hnow₃]; decide)
  rw [hnow₀, hcurrent] at hblocked
  rw [hcurrent] at hready₃
  exact ⟨s₀, s₁, s₂, s₃, h₀, h₁, h₂, h₃, hblocked, hready₃⟩

/-- **`eTaskGetState` tells the state of a task**: it is never told to be deleted, or to be
suspended when it waits for something, and a task that has been taken off what it waits for is
told to be ready at once. -/
theorem taskSys_eTaskGetState (h : s.Runs c) (xTask : T) :
    ∃ mem, (eTaskGetState s.kernel xTask).run ListMem.call s.mem =
      some (s.view.state xTask, mem) := by
  obtain ⟨lists, hgood⟩ := h.good
  suffices hends : (eTaskGetState s.kernel xTask).Ends Lists.call lists fun eReturn _ =>
      eReturn = s.view.state xTask by
    obtain ⟨eReturn, mem, -, hrun, -, rfl⟩ := hgood.holds.ends hends
    exact ⟨mem, hrun⟩
  have hsuspended := h.noneSuspended xTask
  rw [hgood.view_eq] at hsuspended ⊢
  have hstatus : (s.kernel.view lists).status = s.kernel.status lists := rfl
  have hwaits : (s.kernel.view lists).waits = waitsFor lists := rfl
  have hcurrent : (s.kernel.view lists).current = s.kernel.pxCurrentTCB := rfl
  rw [eTaskGetState, TaskView.state, hcurrent, hwaits, hstatus]
  rw [hwaits, hstatus] at hsuspended
  split
  · exact ends_pure rfl
  obtain ⟨l, hl⟩ := hgood.inv.placed xTask
  obtain ⟨o, ho⟩ := hgood.inv.sound.registered (.xEventListItem xTask)
  refine ends_bind (listListItemContainer_ends hl (ends_bind (listListItemContainer_ends ho ?_)))
  by_cases hnoted : waitsFor lists xTask = .noted
  · rw [if_pos (Option.some.inj (ho.symm.trans (waitsFor_eq_noted.mp hnoted))),
      if_pos (.inl hnoted)]
    exact ends_pure rfl
  rw [if_neg fun heq => hnoted (waitsFor_eq_noted.mpr (by rw [ho, heq]))]
  -- the list that the task is in tells the rest
  rcases hgood.inv.sound.state_mem xTask l ((hgood.inv.sound.wf.container_iff _ _).mp hl) with
    rfl | rfl | rfl | rfl
  · obtain ⟨hne, hne'⟩ := hgood.inv.sound.delayed_ne
      (l := .pxReadyTasksLists (s.kernel.uxPriority xTask)) ⟨by simp, by simp⟩
    rw [if_neg (by simp [hne, hne']), if_neg (by simp), if_neg (by simp),
      if_pos (.inr (hgood.inv.sound.status_ready hl))]
    exact ends_pure rfl
  · rw [if_pos (.inl rfl), if_neg (by simp [hnoted, Kernel.status_delayed hl])]
    exact ends_pure rfl
  · rw [if_pos (.inr rfl), if_neg (by simp [hnoted, hgood.inv.sound.status_overflow hl])]
    exact ends_pure rfl
  · obtain ⟨hne, hne'⟩ := hgood.inv.sound.delayed_ne (l := .xSuspendedTaskList) ⟨by simp, by simp⟩
    have hsus := hgood.inv.sound.status_suspended hl
    have hwaiting : o ≠ none := fun heq => hsuspended hsus (waitsFor_nothing (by rw [ho, heq]))
    rw [if_neg (by simp [hne, hne']), if_pos rfl, if_neg (by simp [hnoted, hsus])]
    exact ends_bind (listListItemContainer_ends ho (ends_pure (if_neg hwaiting)))

/-- While the second task has suspended the scheduler, the first one is in a delay, and the task of
the timers has been taken off what it waits for. -/
theorem taskSys_eTaskGetState_task1 : ∃ s mem mem', pipelineRun untilNoted = some s ∧
    (eTaskGetState s.kernel .vTask1PayloadReader).run ListMem.call s.mem =
      some (.eBlocked, mem) ∧
    (eTaskGetState s.kernel .xTimerTask).run ListMem.call s.mem = some (.eReady, mem') := by
  have hseen : (pipelineRun untilNoted).map (fun s =>
      (s.view.state .vTask1PayloadReader, s.view.state .xTimerTask)) =
    some (.eBlocked, .eReady) := by decide +kernel
  obtain ⟨s, hs, hseen⟩ := Option.map_eq_some_iff.mp hseen
  obtain ⟨hblocked, hready⟩ := Prod.mk.inj hseen
  obtain ⟨mem, hmem⟩ := taskSys_eTaskGetState (runs_of_pipelineRun hs) .vTask1PayloadReader
  obtain ⟨mem', hmem'⟩ := taskSys_eTaskGetState (runs_of_pipelineRun hs) .xTimerTask
  rw [hblocked] at hmem
  rw [hready] at hmem'
  exact ⟨s, mem, mem', hs, hmem, hmem'⟩

/-- **The task with the highest priority runs.** In each state where no switch is asked for, the
current task is ready, and no ready task has a higher priority. -/
theorem taskSys_preempts (h : s.Runs c) (hasked : s.asked = false)
    (hyield : s.kernel.xYieldPendings = false) : s.view.status s.view.current = .ready ∧
      ∀ t, s.view.status t = .ready → c.uxPriority t ≤ c.uxPriority s.view.current := by
  obtain ⟨lists, hgood⟩ := h.good
  obtain ⟨hready, hle⟩ := hgood.leads hasked hyield
  rw [hgood.view_eq, ← hgood.priority]
  exact ⟨hgood.inv.sound.status_ready hready, fun t ht =>
    hle t ((hgood.inv.sound.status_eq_ready (hgood.inv.placed t)).mp ht)⟩

/-- Once the task of the timers waits, a task of the pipeline is the current one. -/
theorem taskSys_preempts_task1 : ∃ s, pipelineRun untilTask1 = some s ∧
    s.view.current = .vTask1PayloadReader ∧ ∀ t, s.view.status t = .ready →
      pipelineConfig.uxPriority t ≤ pipelineConfig.uxPriority .vTask1PayloadReader := by
  obtain ⟨s, hs⟩ : ∃ s, pipelineRun untilTask1 = some s :=
    Option.isSome_iff_exists.mp (by decide +kernel)
  have hseen : (pipelineRun untilTask1).map (fun s =>
      (s.view.current, s.asked, s.kernel.xYieldPendings)) =
        some (.vTask1PayloadReader, false, false) := by decide +kernel
  rw [hs] at hseen
  obtain ⟨hcurrent, hseen⟩ := Prod.mk.inj (Option.some.inj hseen)
  obtain ⟨hasked, hyield⟩ := Prod.mk.inj hseen
  have hmax := (taskSys_preempts (runs_of_pipelineRun hs) hasked hyield).2
  rw [hcurrent] at hmax
  exact ⟨s, hs, hcurrent, hmax⟩

end Results

/-! ### Turns -/

section Turns

variable [DecidableEq T] [DecidableEq Q] {c : TaskConfig T Q} {t : T}

/-- **A ready task is passed over**: the run of the system from one state to another, during
which the task stays ready, with the number of switches that choose another task of no higher
priority. -/
inductive PassedOver (c : TaskConfig T Q) (t : T) : ℕ → TaskSys T Q → TaskSys T Q → Prop
  /-- The task is ready. -/
  | start {s : TaskSys T Q} (h : s.view.status t = .ready) : PassedOver c t 0 s s
  /-- A switch that chooses another task of no higher priority. -/
  | switch {n : ℕ} {s s' s'' : TaskSys T Q} (h : PassedOver c t n s s')
    (hfire : s'.fire c.xIdleTask .vTaskSwitchContext = some s'') (hsus : s'.view.suspended = 0)
    (hother : s''.view.current ≠ t) (hle : c.uxPriority s''.view.current ≤ c.uxPriority t) :
    PassedOver c t (n + 1) s s''
  /-- A switch that chooses a task of a higher priority. -/
  | above {n : ℕ} {s s' s'' : TaskSys T Q} (h : PassedOver c t n s s')
    (hfire : s'.fire c.xIdleTask .vTaskSwitchContext = some s'') (hsus : s'.view.suspended = 0)
    (hlt : c.uxPriority t < c.uxPriority s''.view.current) : PassedOver c t n s s''
  /-- Anything else that leaves the task ready. -/
  | other {n : ℕ} {s s' s'' : TaskSys T Q} {a : TaskAction Q} (h : PassedOver c t n s s')
    (hfire : s'.fire c.xIdleTask a = some s'')
    (ha : a ≠ .vTaskSwitchContext ∨ s'.view.suspended ≠ 0)
    (hready : s''.view.status t = .ready) : PassedOver c t n s s''

/-- The tasks that have the priority of a task. -/
def TaskConfig.peers (c : TaskConfig T Q) (t : T) : List T :=
  (c.tasks ++ [c.xIdleTask, c.xTimerTask]).filter fun t' => c.uxPriority t' = c.uxPriority t

variable {s s' : TaskSys T Q} {lists : TaskLists T Q}

namespace TaskSys.Good

omit [DecidableEq T] [DecidableEq Q] in
/-- No list of ready tasks is longer than there are tasks of its priority. -/
theorem length_le (h : s.Good c lists) (t : T) :
    (lists.items (.pxReadyTasksLists (c.uxPriority t))).length ≤ (c.peers t).length := by
  have hsub : lists.items (.pxReadyTasksLists (c.uxPriority t)) ⊆
      (c.peers t).map .xStateListItem := fun i hi => by
    obtain ⟨t', rfl⟩ := h.inv.sound.exists_state hi nofun nofun
    have hpriority := h.inv.sound.priority_eq hi
    rw [h.priority] at hpriority
    exact List.mem_map_of_mem (List.mem_filter.mpr ⟨c.mem_tasks t', decide_eq_true hpriority⟩)
  exact ((h.inv.sound.wf.nodup _).subperm hsub).length_le.trans_eq (List.length_map _)

omit [DecidableEq T] in
/-- Where a ready task is. -/
theorem container_of_ready (h : s.Good c lists) (ht : s.view.status t = .ready) :
    lists.container (.xStateListItem t) =
      some (some (.pxReadyTasksLists (c.uxPriority t))) := by
  rw [h.view_eq] at ht
  rw [← h.priority]
  exact (h.inv.sound.status_eq_ready (h.inv.placed t)).mp ht

end TaskSys.Good

/-- A task that is passed over stays ready. -/
theorem PassedOver.ready {n : ℕ} (h : PassedOver c t n s s') (hs : s.Runs c) :
    s'.Runs c ∧ s'.view.status t = .ready := by
  induction h with
  | start h => exact ⟨hs, h⟩
  | switch _ hfire _ _ _ ih =>
    obtain ⟨hruns, hready⟩ := ih hs
    exact ⟨hruns.step hfire, by rw [(hruns.view_step hfire).status_switch]; exact hready⟩
  | above _ hfire _ _ ih =>
    obtain ⟨hruns, hready⟩ := ih hs
    exact ⟨hruns.step hfire, by rw [(hruns.view_step hfire).status_switch]; exact hready⟩
  | other _ hfire _ hready ih => exact ⟨(ih hs).1.step hfire, hready⟩

/-- **No ready task starves.** A task that stays ready is chosen before switches have chosen
tasks of no higher priority twice as often as there are tasks of its own. This is so although a
task that blocks moves the place in the list back, so that the tasks that are made ready next go in
before others that were there before them. -/
theorem taskSys_turns {n : ℕ} (hs : s.Runs c) (h : PassedOver c t n s s') :
    n < 2 * (c.peers t).length := by
  suffices hwait : ∃ lists, s'.Good c lists ∧
      lists.wait (c.peers t).length (.pxReadyTasksLists (c.uxPriority t)) (.xStateListItem t) + n <
        2 * (c.peers t).length by
    obtain ⟨lists, -, hlt⟩ := hwait
    omega
  -- each switch that is counted brings the turn of the task nearer
  induction h with
  | start h =>
    obtain ⟨lists, hgood⟩ := hs.good
    have hmem := (hgood.inv.sound.wf.container_iff _ _).mp (hgood.container_of_ready h)
    obtain ⟨r, hr⟩ := Lists.exists_rota hmem
    have hlen := hgood.length_le t
    rw [Lists.items_eq hr] at hmem hlen
    refine ⟨lists, hgood, ?_⟩
    rw [Lists.wait, hr]
    exact r.wait_lt hmem hlen
  | switch h hfire hsus hother hle ih =>
    obtain ⟨lists, hgood, hlt⟩ := ih hs
    obtain ⟨hruns, hready⟩ := h.ready hs
    obtain ⟨asks, lists', hgood', hdone⟩ := hgood.of_fire hfire
    have hturn := hdone.turn rfl hsus _ t _ (hgood.container_of_ready hready) hother.symm
      (hgood.length_le t)
    have heq := le_antisymm hle ((hruns.view_step hfire).le_switch hsus hready)
    rw [if_pos (by rw [hgood'.priority]; exact heq)] at hturn
    exact ⟨lists', hgood', by omega⟩
  | above h hfire hsus hlt' ih =>
    obtain ⟨lists, hgood, hlt⟩ := ih hs
    obtain ⟨hruns, hready⟩ := h.ready hs
    obtain ⟨asks, lists', hgood', hdone⟩ := hgood.of_fire hfire
    have hne : t ≠ _ := fun heq => lt_irrefl _ (heq ▸ hlt')
    have hturn := hdone.turn rfl hsus _ t _ (hgood.container_of_ready hready) hne
      (hgood.length_le t)
    exact ⟨lists', hgood', by omega⟩
  | other h hfire ha hready' ih =>
    obtain ⟨lists, hgood, hlt⟩ := ih hs
    obtain ⟨hruns, hready⟩ := h.ready hs
    obtain ⟨asks, lists', hgood', hdone⟩ := hgood.of_fire hfire
    have hle := hdone.wait_le ha (c.peers t).length t _ (hgood.container_of_ready hready)
      (hgood'.container_of_ready hready')
    exact ⟨lists', hgood', by omega⟩

/-- The third task is passed over when the second is chosen after the first. -/
theorem taskSys_turns_task3 : ∃ s s', pipelineRun untilTask1 = some s ∧
    s.fire .xIdleTask .vTaskSwitchContext = some s' ∧
    PassedOver pipelineConfig .vTask3NGHamEncoder 1 s s' ∧
    1 < 2 * (pipelineConfig.peers .vTask3NGHamEncoder).length := by
  obtain ⟨s, hs⟩ : ∃ s, pipelineRun untilTask1 = some s :=
    Option.isSome_iff_exists.mp (by decide +kernel)
  have hseen : (pipelineRun untilTask1).map (fun s => (s.view.status .vTask3NGHamEncoder,
      s.view.suspended, (s.fire .xIdleTask .vTaskSwitchContext).map fun s => s.view.current)) =
        some (.ready, 0, some .vTask2FifoManager) := by decide +kernel
  rw [hs] at hseen
  obtain ⟨hready, hseen⟩ := Prod.mk.inj (Option.some.inj hseen)
  obtain ⟨hsus, hfire⟩ := Prod.mk.inj hseen
  obtain ⟨s', hs', hcurrent⟩ := Option.map_eq_some_iff.mp hfire
  have hover : PassedOver pipelineConfig .vTask3NGHamEncoder 1 s s' :=
    .switch (.start hready) hs' hsus (by rw [hcurrent]; exact nofun)
      (by rw [hcurrent]; exact le_rfl)
  exact ⟨s, s', hs, hs', hover, taskSys_turns (runs_of_pipelineRun hs) hover⟩

end Turns

end CubesatPipeline
