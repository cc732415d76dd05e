import CubesatPipeline.TaskRun

/-!
# Starting the scheduler

What is done before the first tick: the lists are initialised, each task is created and put into
the list of its priority, and the task with the highest priority that was created last is the
first to run. The list items of a task are registered before anything else is done with them,
and the lists of the scheduler are initialised when the first task is created.

`CubesatPipeline.startKernel_ends` is that this comes to an end, from a memory where nothing has
been initialised, and that what holds between two calls holds then.
-/

namespace CubesatPipeline

open Program

variable {T Q : Type}

/-! ### The code -/

section Code

/-- `vListInitialise`. -/
def vListInitialise (pxList : TaskList Q) : TaskProgram T Q Unit :=
  ask (ListCall.vListInitialise pxList)

/-- `vListInitialiseItem`. -/
def vListInitialiseItem (pxItem : TaskItem T) : TaskProgram T Q Unit :=
  ask (ListCall.vListInitialiseItem pxItem)

/-- `listSET_LIST_ITEM_OWNER`. -/
def listSetListItemOwner (pxItem : TaskItem T) (pxOwner : T) : TaskProgram T Q Unit :=
  ask (ListCall.listSetListItemOwner pxItem pxOwner)

/-- `vListInitialise`, for several lists. -/
def initialiseLists : List (TaskList Q) → TaskProgram T Q Unit
  | [] => pure ()
  | pxList :: rest => do
    vListInitialise pxList
    initialiseLists rest

/-- `prvInitialiseTaskLists`. -/
def prvInitialiseTaskLists : TaskProgram T Q Unit :=
  initialiseLists ((List.finRange configMaxPriorities).map .pxReadyTasksLists ++
    [.xDelayedTaskList1, .xDelayedTaskList2, .xPendingReadyList, .xSuspendedTaskList])

/-- What `prvInitialiseNewTask` does with the list items of the task. -/
def prvInitialiseNewTask (uxPriority : Fin configMaxPriorities) (pxNewTCB : T) :
    TaskProgram T Q Unit := do
  vListInitialiseItem (.xStateListItem pxNewTCB)
  vListInitialiseItem (.xEventListItem pxNewTCB)
  listSetListItemOwner (.xStateListItem pxNewTCB) pxNewTCB
  listSetListItemValue (.xEventListItem pxNewTCB) (eventItemValue uxPriority)
  listSetListItemOwner (.xEventListItem pxNewTCB) pxNewTCB

/-- The variables of the kernel, once there is a task. -/
def Kernel.initial (uxPriority : T → Fin configMaxPriorities) (pxCurrentTCB : T) :
    Kernel T Q where
  pxCurrentTCB := pxCurrentTCB
  xTickCount := 0
  uxTopReadyPriority := tskIdlePriority
  xPendedTicks := 0
  xYieldPendings := false
  xNumOfOverflows := 0
  xNextTaskUnblockTime := 0
  uxSchedulerSuspended := 0
  pxDelayedTaskList := .xDelayedTaskList1
  pxOverflowDelayedTaskList := .xDelayedTaskList2
  uxPriority := uxPriority
  ucDelayAborted := fun _ => false

/-- `prvAddNewTaskToReadyList`, before the scheduler runs. There is a `Kernel` once there is a
task, so `none` stands for a `pxCurrentTCB` that is `NULL`. -/
def prvAddNewTaskToReadyList (uxPriority : T → Fin configMaxPriorities) (k : Option (Kernel T Q))
    (pxNewTCB : T) : TaskProgram T Q (Kernel T Q) :=
  match k with
  | none => do
    prvInitialiseTaskLists
    prvAddTaskToReadyList (Kernel.initial uxPriority pxNewTCB) pxNewTCB
  | some k =>
    if k.uxPriority k.pxCurrentTCB ≤ k.uxPriority pxNewTCB then
      prvAddTaskToReadyList { k with pxCurrentTCB := pxNewTCB } pxNewTCB
    else prvAddTaskToReadyList k pxNewTCB

/-- `xTaskCreate`, once the memory for the task has been found. -/
def xTaskCreate (uxPriority : T → Fin configMaxPriorities) (k : Option (Kernel T Q))
    (pxNewTCB : T) : TaskProgram T Q (Kernel T Q) := do
  prvInitialiseNewTask (uxPriority pxNewTCB) pxNewTCB
  prvAddNewTaskToReadyList uxPriority k pxNewTCB

/-- `xTaskCreate`, for one task after the other. -/
def createTasks (uxPriority : T → Fin configMaxPriorities) :
    List T → Option (Kernel T Q) → TaskProgram T Q (Option (Kernel T Q))
  | [], k => pure k
  | pxNewTCB :: rest, k => do
    let k ← xTaskCreate uxPriority k pxNewTCB
    createTasks uxPriority rest (some k)

/-- `vTaskStartScheduler`, up to where the first task is started. The idle task is created
first, and then the task of the timers. -/
def vTaskStartScheduler (uxPriority : T → Fin configMaxPriorities) (xIdleTask xTimerTask : T)
    (k : Option (Kernel T Q)) : TaskProgram T Q (Option (Kernel T Q)) := do
  let k ← createTasks uxPriority [xIdleTask, xTimerTask] k
  return k.map fun k => { k with xNextTaskUnblockTime := portMaxDelay, xTickCount := 0 }

/-- **All that is done before the first tick**: the lists of what can be waited for are
initialised, `main` creates its tasks, and the scheduler is started. -/
def startKernel (uxPriority : T → Fin configMaxPriorities) (events : List Q) (tasks : List T)
    (xIdleTask xTimerTask : T) : TaskProgram T Q (Option (Kernel T Q)) := do
  initialiseLists (events.map .pxEventList)
  let k ← createTasks uxPriority tasks none
  vTaskStartScheduler uxPriority xIdleTask xTimerTask k

end Code

/-! ### What has been set up -/

section SetUp

variable {uxPriority : T → Fin configMaxPriorities} {registered : List T} {t : T}
  {lists : TaskLists T Q}

/-- **How far the setup is**: the items of the tasks `registered` can be used, and those of the
tasks `ready` are in their lists. -/
structure SetUp [DecidableEq T] (uxPriority : T → Fin configMaxPriorities)
    (registered ready : List T) (lists : TaskLists T Q) : Prop where
  wf : lists.WF
  fresh : ∀ t, t ∉ registered → lists.container (.xStateListItem t) = none ∧
    lists.container (.xEventListItem t) = none
  state : ∀ t ∈ registered, lists.container (.xStateListItem t) =
    some (if t ∈ ready then some (.pxReadyTasksLists (uxPriority t)) else none)
  event : ∀ t ∈ registered, lists.container (.xEventListItem t) = some none
  stateOwner : ∀ t ∈ registered, lists.owner (.xStateListItem t) = t
  eventOwner : ∀ t ∈ registered, lists.owner (.xEventListItem t) = t
  eventValue : ∀ t ∈ registered,
    lists.value (.xEventListItem t) = eventItemValue (uxPriority t)

variable [DecidableEq T]

namespace SetUp

/-- Only ready tasks are in a list. -/
theorem mem_items {ready : List T} {i : TaskItem T} {l : TaskList Q}
    (h : SetUp uxPriority registered ready lists) (hi : i ∈ lists.items l) :
    ∃ t ∈ ready, i = .xStateListItem t ∧ l = .pxReadyTasksLists (uxPriority t) := by
  have hc := (h.wf.container_iff i l).mpr hi
  cases i with
  | xStateListItem t =>
    by_cases ht : t ∈ registered
    · rw [h.state t ht] at hc
      split at hc
      next hready =>
        exact ⟨t, hready, rfl, (Option.some.inj (Option.some.inj hc)).symm⟩
      next => cases hc
    · cases (h.fresh t ht).1.symm.trans hc
  | xEventListItem t =>
    by_cases ht : t ∈ registered
    · cases (h.event t ht).symm.trans hc
    · cases (h.fresh t ht).2.symm.trans hc

theorem items_nil (h : SetUp uxPriority registered [] lists) (l : TaskList Q) :
    lists.items l = [] := by
  refine List.eq_nil_iff_forall_not_mem.mpr fun i hi => ?_
  obtain ⟨t, ht, -⟩ := h.mem_items hi
  cases ht

end SetUp

/-- Nothing is set up. -/
theorem setUp_start {value : TaskItem T → TickType} {owner : TaskItem T → T} :
    SetUp uxPriority [] [] (Lists.start value owner : TaskLists T Q) :=
  ⟨⟨fun _ _ => ⟨nofun, nofun⟩, fun _ => .nil⟩, fun _ _ => ⟨rfl, rfl⟩, nofun, nofun, nofun, nofun,
    nofun⟩

variable [DecidableEq Q]

theorem vListInitialise_ends {P : Unit → TaskLists T Q → Prop} {l : TaskList Q}
    (hl : lists.items l = []) (hP : P () (lists.turn l ⟨[], []⟩)) :
    (vListInitialise l : TaskProgram T Q Unit).Ends Lists.call lists P := by
  refine ends_ask (r := ()) ?_ hP
  rw [Lists.call, if_pos hl]

theorem vListInitialiseItem_ends {P : Unit → TaskLists T Q → Prop} {i : TaskItem T}
    (hi : lists.container i = none) (hP : P () (lists.register i)) :
    (vListInitialiseItem i : TaskProgram T Q Unit).Ends Lists.call lists P := by
  refine ends_ask (r := ()) ?_ hP
  rw [Lists.call, hi, Option.join_none, if_pos rfl]

theorem listSetListItemOwner_ends {P : Unit → TaskLists T Q → Prop} {i : TaskItem T}
    (hP : P () { lists with owner := Function.update lists.owner i t }) :
    (listSetListItemOwner i t : TaskProgram T Q Unit).Ends Lists.call lists P :=
  ends_ask (r := ()) rfl hP

/-- The lists are initialised, and nothing else. -/
theorem initialiseLists_ends {pxLists : List (TaskList Q)} {P : Unit → TaskLists T Q → Prop}
    (h : SetUp uxPriority registered [] lists)
    (hP : ∀ lists', SetUp uxPriority registered [] lists' →
      (∀ l, l ∈ pxLists ∨ (lists.rota l).isSome → (lists'.rota l).isSome) → P () lists') :
    (initialiseLists pxLists : TaskProgram T Q Unit).Ends Lists.call lists P := by
  induction pxLists generalizing lists with
  | nil => exact ends_pure (hP lists h fun l hl => hl.resolve_left List.not_mem_nil)
  | cons pxList rest ih =>
    have hempty := h.items_nil pxList
    refine ends_bind (vListInitialise_ends hempty ?_)
    have hwf : (lists.turn pxList ⟨[], []⟩).WF := h.wf.turn (by rw [hempty]; exact .nil)
    refine ih { h with wf := hwf } fun lists' h' hsome => hP lists' h' fun l hl => hsome l ?_
    rw [Lists.rota_turn]
    split
    · exact .inr rfl
    next hne => exact hl.imp_left fun hmem => (List.mem_cons.mp hmem).resolve_left hne

omit [DecidableEq Q] in
/-- The items of a new task are in no list. -/
theorem SetUp.register {ready : List T} {lists' : TaskLists T Q}
    (h : SetUp uxPriority registered ready lists) (ht : t ∉ registered) (hready : t ∉ ready)
    (hrota : lists'.rota = lists.rota)
    (hstate : ∀ t', lists'.container (.xStateListItem t') =
      if t' = t then some none else lists.container (.xStateListItem t'))
    (hevent : ∀ t', lists'.container (.xEventListItem t') =
      if t' = t then some none else lists.container (.xEventListItem t'))
    (hstateOwner : ∀ t', lists'.owner (.xStateListItem t') =
      if t' = t then t else lists.owner (.xStateListItem t'))
    (heventOwner : ∀ t', lists'.owner (.xEventListItem t') =
      if t' = t then t else lists.owner (.xEventListItem t'))
    (heventValue : ∀ t', lists'.value (.xEventListItem t') =
      if t' = t then eventItemValue (uxPriority t) else lists.value (.xEventListItem t')) :
    SetUp uxPriority (t :: registered) ready lists' := by
  have hitems : ∀ l, lists'.items l = lists.items l := fun l => by
    rw [Lists.items, Lists.items, hrota]
  have hno : ∀ l, .xStateListItem t ∉ lists.items l ∧ .xEventListItem t ∉ lists.items l := by
    intro l
    constructor <;> intro hi <;> obtain ⟨t', ht', heq, -⟩ := h.mem_items hi
    · exact hready (TaskItem.xStateListItem.inj heq ▸ ht')
    · cases heq
  refine ⟨⟨fun i l => ?_, fun l => hitems l ▸ h.wf.nodup l⟩, fun t' ht' => ?_, fun t' ht' => ?_,
    fun t' ht' => ?_, fun t' ht' => ?_, fun t' ht' => ?_, fun t' ht' => ?_⟩
  · rw [hitems]
    cases i with
    | xStateListItem t' =>
      rw [hstate]
      split
      next heq => simpa [heq] using (hno l).1
      next => exact h.wf.container_iff _ l
    | xEventListItem t' =>
      rw [hevent]
      split
      next heq => simpa [heq] using (hno l).2
      next => exact h.wf.container_iff _ l
  · rw [List.mem_cons, not_or] at ht'
    rw [hstate, hevent, if_neg ht'.1, if_neg ht'.1]
    exact h.fresh t' ht'.2
  all_goals rcases eq_or_ne t' t with rfl | hne
  · rw [hstate, if_pos rfl, if_neg hready]
  · rw [hstate, if_neg hne]
    exact h.state t' ((List.mem_cons.mp ht').resolve_left hne)
  · rw [hevent, if_pos rfl]
  · rw [hevent, if_neg hne]
    exact h.event t' ((List.mem_cons.mp ht').resolve_left hne)
  · rw [hstateOwner, if_pos rfl]
  · rw [hstateOwner, if_neg hne]
    exact h.stateOwner t' ((List.mem_cons.mp ht').resolve_left hne)
  · rw [heventOwner, if_pos rfl]
  · rw [heventOwner, if_neg hne]
    exact h.eventOwner t' ((List.mem_cons.mp ht').resolve_left hne)
  · rw [heventValue, if_pos rfl]
  · rw [heventValue, if_neg hne]
    exact h.eventValue t' ((List.mem_cons.mp ht').resolve_left hne)

/-- The items of a task are registered. -/
theorem prvInitialiseNewTask_ends {ready : List T} {P : Unit → TaskLists T Q → Prop}
    (h : SetUp uxPriority registered ready lists) (ht : t ∉ registered) (hready : t ∉ ready)
    (hP : ∀ lists', SetUp uxPriority (t :: registered) ready lists' →
      lists'.rota = lists.rota → P () lists') :
    (prvInitialiseNewTask (uxPriority t) t : TaskProgram T Q Unit).Ends Lists.call lists P := by
  obtain ⟨hstate, hevent⟩ := h.fresh t ht
  have hevent' : (lists.register (.xStateListItem t)).container (.xEventListItem t) = none := by
    rw [Lists.container_register, if_neg nofun, hevent]
  refine ends_bind (vListInitialiseItem_ends hstate (ends_bind (vListInitialiseItem_ends hevent'
    (ends_bind (listSetListItemOwner_ends (ends_bind (listSetListItemValue_ends
      (listSetListItemOwner_ends (hP _ (h.register ht hready rfl ?_ ?_ ?_ ?_ ?_) rfl))))))))) <;>
    intro t' <;> simp [Lists.register, Function.update_apply]

omit [DecidableEq Q] in
/-- A registered task is put into the list of its priority. -/
theorem SetUp.enter {ready : List T} {lists' : TaskLists T Q}
    (h : SetUp uxPriority registered ready lists) (ht : t ∈ registered)
    (hin : lists.With (.xStateListItem t) (.pxReadyTasksLists (uxPriority t)) lists') :
    SetUp uxPriority registered (t :: ready) lists' := by
  refine ⟨hin.wf, fun t' ht' => ?_, fun t' ht' => ?_, fun t' ht' => ?_, ?_, ?_, ?_⟩
  · have hne : t' ≠ t := fun heq => ht' (heq ▸ ht)
    rw [hin.container, hin.container, if_neg fun heq => hne (TaskItem.xStateListItem.inj heq),
      if_neg nofun]
    exact h.fresh t' ht'
  · rw [hin.container]
    simp only [TaskItem.xStateListItem.injEq, List.mem_cons]
    split
    next heq => simp [heq]
    next hne => simpa [hne] using h.state t' ht'
  · rw [hin.container, if_neg nofun]
    exact h.event t' ht'
  · rw [hin.owner]
    exact h.stateOwner
  · rw [hin.owner]
    exact h.eventOwner
  · rw [hin.value]
    exact h.eventValue

end SetUp

/-! ### The tasks are created -/

section Create

variable {uxPriority : T → Fin configMaxPriorities} {ready : List T} {t : T}
  {k : Kernel T Q} {lists : TaskLists T Q}

/-- The variables before the first tick, when the tasks `ready` have been created: no task has a
higher priority than the current one. -/
def Kernel.IsInitial (uxPriority : T → Fin configMaxPriorities) (ready : List T)
    (k : Kernel T Q) : Prop :=
  ∃ current top, k = { Kernel.initial uxPriority current with uxTopReadyPriority := top } ∧
    ∀ t ∈ ready, uxPriority t ≤ top ∧ uxPriority t ≤ uxPriority current

variable [DecidableEq T]

/-- **The tasks `ready` have been created**, and no other. -/
def Created (uxPriority : T → Fin configMaxPriorities) (ready : List T) (lists : TaskLists T Q) :
    Option (Kernel T Q) → Prop
  | none => ready = [] ∧ SetUp uxPriority [] [] lists ∧ ∀ q, (lists.rota (.pxEventList q)).isSome
  | some k => k.IsInitial uxPriority ready ∧ SetUp uxPriority ready ready lists ∧
    (∀ l, (lists.rota l).isSome) ∧ k.pxCurrentTCB ∈ ready

variable [DecidableEq Q]

theorem prvAddTaskToReadyList_created {P : Kernel T Q → TaskLists T Q → Prop}
    (hk : k.IsInitial uxPriority ready) (h : SetUp uxPriority (t :: ready) ready lists)
    (ht : t ∉ ready) (hsome : ∀ l, (lists.rota l).isSome)
    (hcurrent : k.pxCurrentTCB ∈ t :: ready) (hle : uxPriority t ≤ uxPriority k.pxCurrentTCB)
    (hP : ∀ k' lists', Created uxPriority (t :: ready) lists' (some k') → P k' lists') :
    (prvAddTaskToReadyList k t).Ends Lists.call lists P := by
  obtain ⟨current, top, hk, hall⟩ := hk
  have hpriority : k.uxPriority = uxPriority := by rw [hk]; rfl
  have hktop : k.uxTopReadyPriority = top := by rw [hk]
  have hkcurrent : k.pxCurrentTCB = current := by rw [hk]; rfl
  obtain ⟨top', hk', htop, htop'⟩ := taskRecordReadyPriority_eq k (uxPriority t)
  rw [prvAddTaskToReadyList, hpriority, hk']
  dsimp only
  rw [hpriority]
  have hfree : lists.container (.xStateListItem t) = some none := by
    rw [h.state t List.mem_cons_self, if_neg ht]
  refine ends_bind (vListInsertEnd_ends h.wf (hsome _) hfree fun lists' hin _ => ends_pure ?_)
  refine hP _ lists' ⟨⟨current, top', by rw [hk]; rfl, fun t' ht' => ?_⟩,
    h.enter List.mem_cons_self hin, fun l => by rw [hin.initialised]; exact hsome l, hcurrent⟩
  rcases List.mem_cons.mp ht' with rfl | ht'
  · exact ⟨htop', hkcurrent ▸ hle⟩
  · exact ⟨(hall t' ht').1.trans (hktop ▸ htop), (hall t' ht').2⟩

/-- The lists of the scheduler, with those of what can be waited for, are all the lists. -/
theorem prvInitialiseTaskLists_ends {registered : List T} {P : Unit → TaskLists T Q → Prop}
    (h : SetUp uxPriority registered [] lists) (hq : ∀ q, (lists.rota (.pxEventList q)).isSome)
    (hP : ∀ lists', SetUp uxPriority registered [] lists' → (∀ l, (lists'.rota l).isSome) →
      P () lists') :
    (prvInitialiseTaskLists : TaskProgram T Q Unit).Ends Lists.call lists P := by
  refine initialiseLists_ends h fun lists' h' hsome => hP lists' h' fun l => hsome l ?_
  cases l with
  | pxEventList q => exact .inr (hq q)
  | _ => simp

/-- **One task is created.** -/
theorem xTaskCreate_ends {o : Option (Kernel T Q)} {P : Kernel T Q → TaskLists T Q → Prop}
    (h : Created uxPriority ready lists o) (ht : t ∉ ready)
    (hP : ∀ k' lists', Created uxPriority (t :: ready) lists' (some k') → P k' lists') :
    (xTaskCreate uxPriority o t).Ends Lists.call lists P := by
  cases o with
  | none =>
    obtain ⟨rfl, hsetup, hq⟩ := h
    refine ends_bind (prvInitialiseNewTask_ends hsetup ht ht fun lists₁ h₁ hrota => ?_)
    refine ends_bind (prvInitialiseTaskLists_ends h₁ (by rw [hrota]; exact hq)
      fun lists₂ h₂ hsome => ?_)
    exact prvAddTaskToReadyList_created ⟨t, _, rfl, fun _ ht => absurd ht List.not_mem_nil⟩ h₂ ht
      hsome List.mem_cons_self le_rfl hP
  | some k =>
    obtain ⟨⟨current, top, rfl, hall⟩, hsetup, hsome, hcurrent⟩ := h
    refine ends_bind (prvInitialiseNewTask_ends hsetup ht ht fun lists₁ h₁ hrota => ?_)
    rw [← hrota] at hsome
    rw [prvAddNewTaskToReadyList]
    split
    next hle =>
      exact prvAddTaskToReadyList_created
        ⟨t, top, rfl, fun t' ht' => ⟨(hall t' ht').1, (hall t' ht').2.trans hle⟩⟩ h₁ ht hsome
        List.mem_cons_self le_rfl hP
    next hlt =>
      exact prvAddTaskToReadyList_created ⟨current, top, rfl, hall⟩ h₁ ht hsome
        (List.mem_cons_of_mem _ hcurrent) (not_le.mp hlt).le hP

/-- **The tasks are created**, one after the other. The induction is on the tasks that are left. -/
theorem createTasks_ends {tasks : List T} {o : Option (Kernel T Q)}
    {P : Option (Kernel T Q) → TaskLists T Q → Prop} (h : Created uxPriority ready lists o)
    (htasks : tasks.Nodup) (hdisjoint : ∀ t ∈ tasks, t ∉ ready)
    (hP : ∀ o' lists', Created uxPriority (tasks.reverse ++ ready) lists' o' → P o' lists') :
    (createTasks uxPriority tasks o).Ends Lists.call lists P := by
  induction tasks generalizing ready lists o with
  | nil => exact ends_pure (hP o lists h)
  | cons t tasks ih =>
    obtain ⟨ht, htasks⟩ := List.nodup_cons.mp htasks
    refine ends_bind (xTaskCreate_ends h (hdisjoint t List.mem_cons_self) fun k' lists' h' => ?_)
    refine ih h' htasks (fun t' ht' => ?_) fun o' lists' h' => hP o' lists' (by simpa using h')
    rw [List.mem_cons, not_or]
    exact ⟨fun heq => ht (heq ▸ ht'), hdisjoint t' (List.mem_cons_of_mem _ ht')⟩

omit [DecidableEq Q] in
/-- **What holds between two calls holds at the start.** -/
theorem Created.inv {xIdleTask : T} (h : Created uxPriority ready lists (some k))
    (hall : ∀ t, t ∈ ready) :
    { k with xNextTaskUnblockTime := portMaxDelay, xTickCount := 0 }.Inv xIdleTask lists := by
  obtain ⟨⟨current, top, rfl, htop⟩, hsetup, hsome, -⟩ := h
  have hstate : ∀ t, lists.container (.xStateListItem t) =
      some (some (.pxReadyTasksLists (uxPriority t))) := fun t => by
    rw [hsetup.state t (hall t), if_pos (hall t)]
  have hmem : ∀ i l, i ∈ lists.items l →
      ∃ t, i = .xStateListItem t ∧ l = .pxReadyTasksLists (uxPriority t) := fun i l hi => by
    obtain ⟨t, -, heq⟩ := hsetup.mem_items hi
    exact ⟨t, heq⟩
  -- no other list has an item
  have hnil : ∀ l : TaskList Q, (∀ p, l ≠ .pxReadyTasksLists p) → lists.items l = [] := by
    refine fun l hl => List.eq_nil_iff_forall_not_mem.mpr fun i hi => ?_
    obtain ⟨t, -, heq⟩ := hmem i l hi
    exact hl _ heq
  refine ⟨⟨hsetup.wf, fun i => ?_, hsome, fun t => hsetup.stateOwner t (hall t),
    fun t => hsetup.eventOwner t (hall t), .inl ⟨rfl, rfl⟩, fun t l ht => ?_, fun t l ht => ?_,
    fun t => hsetup.eventValue t (hall t), fun l hl => ?_, fun t ht => ?_, fun t ht => ?_,
    fun p t ht => ?_⟩, fun t => ⟨_, hstate t⟩, fun t _ _ => hsetup.event t (hall t),
    fun _ t heq => ?_, fun _ => rfl, ⟨_, hstate xIdleTask⟩⟩
  · cases i with
    | xStateListItem t => exact ⟨_, hstate t⟩
    | xEventListItem t => exact ⟨_, hsetup.event t (hall t)⟩
  · obtain ⟨t', heq, rfl⟩ := hmem _ l ht
    rw [TaskItem.xStateListItem.inj heq]
    exact .inl rfl
  · obtain ⟨t', heq, -⟩ := hmem _ l ht
    cases heq
  · rw [hnil l fun p heq => by rw [heq] at hl; exact hl]
    exact .nil
  · cases hnil .xDelayedTaskList1 nofun ▸ ht
  · cases hnil .xDelayedTaskList1 nofun ▸ ht
  · obtain ⟨t', -, heq⟩ := hmem _ _ ht
    rw [TaskList.pxReadyTasksLists.inj heq]
    exact (htop t' (hall t')).1
  · cases (hsetup.event t (hall t)).symm.trans heq

/-- **The scheduler starts**, whatever the memory holds, when each task is created once. -/
theorem startKernel_ends {events : List Q} {tasks : List T} {xIdleTask xTimerTask : T}
    (value : TaskItem T → TickType) (owner : TaskItem T → T)
    (hevents : ∀ q, q ∈ events) (hnodup : (tasks ++ [xIdleTask, xTimerTask]).Nodup)
    (hall : ∀ t, t ∈ tasks ++ [xIdleTask, xTimerTask]) :
    (startKernel uxPriority events tasks xIdleTask xTimerTask).Ends Lists.call
      (Lists.start value owner) fun o lists => ∃ k, o = some k ∧ k.Inv xIdleTask lists ∧
        k.uxPriority = uxPriority ∧ k.Leads lists ∧ k.view lists = .start k.pxCurrentTCB := by
  obtain ⟨htasks, hlast, hdisjoint⟩ := List.nodup_append.mp hnodup
  have h₀ : SetUp uxPriority [] [] (Lists.start value owner : TaskLists T Q) := setUp_start
  refine ends_bind (initialiseLists_ends h₀ fun lists₁ h₁ hsome => ?_)
  have hnone : Created uxPriority [] lists₁ none :=
    ⟨rfl, h₁, fun q => hsome _ (.inl (List.mem_map_of_mem (hevents q)))⟩
  refine ends_bind (createTasks_ends hnone
    htasks (fun _ _ => List.not_mem_nil) fun o lists₂ h₂ => ?_)
  rw [List.append_nil] at h₂
  refine ends_bind (createTasks_ends h₂ hlast (fun t ht ht' => ?_) fun o₃ lists₃ h₃ => ends_pure ?_)
  · exact hdisjoint t (List.mem_reverse.mp ht') t ht rfl
  cases o₃ with
  | none => cases h₃.1
  | some k =>
    have hmem : ∀ t, t ∈ [xIdleTask, xTimerTask].reverse ++ tasks.reverse := fun t => by
      rw [← List.reverse_append, List.mem_reverse]
      exact hall t
    have hinv : { k with xNextTaskUnblockTime := portMaxDelay, xTickCount := 0 }.Inv xIdleTask
        lists₃ := h₃.inv hmem
    refine ⟨_, rfl, hinv, ?_⟩
    obtain ⟨⟨current, top, rfl, hmax⟩, hsetup, -⟩ := h₃
    have hready : ∀ t, lists₃.container (.xStateListItem t) =
        some (some (.pxReadyTasksLists (uxPriority t))) := fun t => by
      rw [hsetup.state t (hmem t), if_pos (hmem t)]
    refine ⟨rfl, ⟨hready current, fun t _ => (hmax t (hmem t)).2⟩, ?_⟩
    exact TaskView.ext (by simp [Kernel.view, Kernel.now, Kernel.initial, TaskView.start]) rfl rfl
      rfl (funext fun t => hinv.sound.status_ready (hready t))
      (funext fun t => waitsFor_nothing (hsetup.event t (hmem t)))

end Create

end CubesatPipeline
