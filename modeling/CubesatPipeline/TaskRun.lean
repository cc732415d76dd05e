import CubesatPipeline.TaskEvents
import CubesatPipeline.TaskView

/-!
# Each call does what it is for

`CubesatPipeline.Kernel.Inv` is what holds between two calls, and
`CubesatPipeline.perform_ends` is that each call comes to an end, keeps it, and does what
`CubesatPipeline.TaskView.Step` says (`CubesatPipeline.Done`). Two more things are kept. Unless a
switch is asked for the current task is a ready task of the highest priority
(`CubesatPipeline.Kernel.Leads`). And no call makes a task that stays ready wait longer for its
turn, while each switch that passes it over brings its turn nearer.
-/

namespace CubesatPipeline

open Program

variable {T Q : Type}

/-! ### What holds between two calls -/

section Invariant

variable {k k' : Kernel T Q} {soon : ℕ} {lists lists' : TaskLists T Q} {t xIdleTask : T}

/-- **What holds between two calls.** Each task is in one list that tells its state, a ready task
waits for nothing, and nothing is put off while the scheduler is not suspended. -/
structure Kernel.Inv (xIdleTask : T) (k : Kernel T Q) (lists : TaskLists T Q) : Prop where
  sound : k.Sound (k.xTickCount.toNat + 1) lists
  placed : ∀ t, ∃ l, lists.container (.xStateListItem t) = some (some l)
  free : ∀ t p, lists.container (.xStateListItem t) = some (some (.pxReadyTasksLists p)) →
    lists.container (.xEventListItem t) = some none
  noted : k.uxSchedulerSuspended = 0 → ∀ t,
    lists.container (.xEventListItem t) ≠ some (some .xPendingReadyList)
  pended : k.uxSchedulerSuspended = 0 → k.xPendedTicks = 0
  idle : ∃ p, lists.container (.xStateListItem xIdleTask) = some (some (.pxReadyTasksLists p))

/-- **The current task is a ready task of the highest priority.** -/
structure Kernel.Leads (k : Kernel T Q) (lists : TaskLists T Q) : Prop where
  ready : lists.container (.xStateListItem k.pxCurrentTCB) =
    some (some (.pxReadyTasksLists (k.uxPriority k.pxCurrentTCB)))
  le : ∀ t, lists.container (.xStateListItem t) =
      some (some (.pxReadyTasksLists (k.uxPriority t))) →
    k.uxPriority t ≤ k.uxPriority k.pxCurrentTCB

namespace Readied

variable [DecidableEq T] {W : T → Prop} {uxPriority : T → Fin configMaxPriorities}

theorem placed (h : Readied uxPriority W lists lists')
    (hplaced : ∀ t, ∃ l, lists.container (.xStateListItem t) = some (some l)) (t : T) :
    ∃ l, lists'.container (.xStateListItem t) = some (some l) := by
  by_cases ht : W t
  · exact ⟨_, h.state t ht⟩
  · rw [h.state_of_not t ht]
    exact hplaced t

theorem free (h : Readied uxPriority W lists lists')
    (hfree : ∀ t p, lists.container (.xStateListItem t) = some (some (.pxReadyTasksLists p)) →
      lists.container (.xEventListItem t) = some none) (t : T) (p : Fin configMaxPriorities)
    (hp : lists'.container (.xStateListItem t) = some (some (.pxReadyTasksLists p))) :
    lists'.container (.xEventListItem t) = some none := by
  by_cases ht : W t
  · exact h.event t ht
  · rw [h.event_of_not t ht]
    rw [h.state_of_not t ht] at hp
    exact hfree t p hp

theorem stays_ready (h : Readied uxPriority W lists lists')
    (ht : ∃ p, lists.container (.xStateListItem t) = some (some (.pxReadyTasksLists p))) :
    ∃ p, lists'.container (.xStateListItem t) = some (some (.pxReadyTasksLists p)) := by
  by_cases hW : W t
  · exact ⟨_, h.state t hW⟩
  · rw [h.state_of_not t hW]
    exact ht

theorem not_noted (h : Readied uxPriority W lists lists')
    (hnoted : ∀ t, ¬ W t → lists.container (.xEventListItem t) ≠ some (some .xPendingReadyList))
    (t : T) : lists'.container (.xEventListItem t) ≠ some (some .xPendingReadyList) := by
  by_cases ht : W t
  · rw [h.event t ht]
    exact nofun
  · rw [h.event_of_not t ht]
    exact hnoted t ht

end Readied

variable [DecidableEq Q]

/-- A task is ready when its state item is in a ready list. -/
theorem Kernel.Sound.status_eq_ready (h : k.Sound soon lists)
    (hplaced : ∃ l, lists.container (.xStateListItem t) = some (some l)) :
    k.status lists t = .ready ↔
      lists.container (.xStateListItem t) = some (some (.pxReadyTasksLists (k.uxPriority t))) := by
  refine ⟨fun hready => ?_, h.status_ready⟩
  obtain ⟨l, hl⟩ := hplaced
  rcases h.state_mem t l ((h.wf.container_iff _ _).mp hl) with rfl | rfl | rfl | rfl
  · exact hl
  · cases (Kernel.status_delayed hl).symm.trans hready
  · cases (h.status_overflow hl).symm.trans hready
  · cases (h.status_suspended hl).symm.trans hready

omit [DecidableEq Q] in
theorem waitsFor_congr (hc : lists'.container (.xEventListItem t) =
    lists.container (.xEventListItem t)) : waitsFor lists' t = waitsFor lists t := by
  rw [waitsFor, waitsFor, hc]

omit [DecidableEq Q] in
theorem waitsFor_nothing (hc : lists.container (.xEventListItem t) = some none) :
    waitsFor lists t = .nothing := by
  rw [waitsFor, hc]
  rfl

omit [DecidableEq Q] in
theorem waitsFor_eq_noted : waitsFor lists t = .noted ↔
    lists.container (.xEventListItem t) = some (some .xPendingReadyList) := by
  rw [← Option.join_eq_some_iff, waitsFor]
  cases (lists.container (.xEventListItem t)).join with
  | none => exact ⟨nofun, nofun⟩
  | some l => cases l <;> simp

omit [DecidableEq Q] in
theorem waitsFor_eq_event {q : Q} : waitsFor lists t = .event q ↔
    lists.container (.xEventListItem t) = some (some (.pxEventList q)) := by
  rw [← Option.join_eq_some_iff, waitsFor]
  cases (lists.container (.xEventListItem t)).join with
  | none => exact ⟨nofun, nofun⟩
  | some l => cases l <;> simp

/-- A ready task waits for nothing. -/
theorem waitsFor_of_ready (h : k.Sound soon lists)
    (hplaced : ∃ l, lists.container (.xStateListItem t) = some (some l))
    (hfree : ∀ t p, lists.container (.xStateListItem t) = some (some (.pxReadyTasksLists p)) →
      lists.container (.xEventListItem t) = some none) (hready : k.status lists t = .ready) :
    waitsFor lists t = .nothing :=
  waitsFor_nothing (hfree t _ ((h.status_eq_ready hplaced).mp hready))

/-- **What the tasks wait for after some have been made ready.** -/
theorem Readied.waitsFor_eq [DecidableEq T] {W : T → Prop} (k' : Kernel T Q)
    (h : Readied k'.uxPriority W lists lists')
    (hs : k'.Sound soon lists')
    (hplaced : ∃ l, lists'.container (.xStateListItem t) = some (some l))
    (hfree : ∀ t p, lists'.container (.xStateListItem t) = some (some (.pxReadyTasksLists p)) →
      lists'.container (.xEventListItem t) = some none) :
    waitsFor lists' t = if k'.status lists' t = .ready then .nothing else waitsFor lists t := by
  split
  next hready => exact waitsFor_of_ready hs hplaced hfree hready
  next hnot =>
    have ht : ¬ W t := fun ht => hnot (hs.status_ready (h.state t ht))
    exact waitsFor_congr (h.event_of_not t ht)

end Invariant

/-! ### Each call does what it is for -/

section Perform

variable [DecidableEq T] [DecidableEq Q] {k : Kernel T Q} {lists : TaskLists T Q} {xIdleTask : T}

/-- The current task can block itself. -/
structure Kernel.CanBlock (xIdleTask : T) (xTicksToWait : TickType) (k : Kernel T Q)
    (lists : TaskLists T Q) : Prop where
  suspended : k.uxSchedulerSuspended ≠ 0
  wait : xTicksToWait ≠ 0
  not_idle : k.pxCurrentTCB ≠ xIdleTask
  ready : lists.container (.xStateListItem k.pxCurrentTCB) =
    some (some (.pxReadyTasksLists (k.uxPriority k.pxCurrentTCB)))

/-- When a call is made. -/
def Kernel.Permits (xIdleTask : T) (k : Kernel T Q) (lists : TaskLists T Q) :
    TaskAction Q → Prop
  | .vTaskSuspendAll | .vTaskSwitchContext => True
  | .xTaskResumeAll => k.uxSchedulerSuspended ≠ 0
  | .xTaskIncrementTick => k.uxSchedulerSuspended = 0 ∨ k.xPendedTicks ≠ portMaxDelay
  | .prvAddCurrentTaskToDelayedList xTicksToWait => k.CanBlock xIdleTask xTicksToWait lists
  | .vTaskPlaceOnEventList _ xTicksToWait => k.CanBlock xIdleTask xTicksToWait lists
  | .vTaskPlaceOnEventListRestricted q xTicksToWait xWaitIndefinitely =>
    lists.items (.pxEventList q) = [] ∧
      k.CanBlock xIdleTask (if xWaitIndefinitely then portMaxDelay else xTicksToWait) lists
  | .xTaskRemoveFromEventList q => lists.items (.pxEventList q) ≠ []

theorem canBlock_ends {xTicksToWait : TickType} (h : k.Inv xIdleTask lists) :
    (canBlock xIdleTask xTicksToWait k).Ends Lists.call lists fun isAllowed lists' =>
      lists' = lists ∧ (isAllowed = true ↔ k.CanBlock xIdleTask xTicksToWait lists) := by
  obtain ⟨l, hl⟩ := h.placed k.pxCurrentTCB
  refine ends_bind (listListItemContainer_ends hl (ends_pure ⟨rfl, ?_⟩))
  simp only [Bool.and_eq_true, bne_iff_ne, beq_iff_eq]
  constructor
  · rintro ⟨⟨⟨hsus, hwait⟩, hidle⟩, hready⟩
    exact ⟨hsus, hwait, hidle, by rw [hl, hready]⟩
  · rintro ⟨hsus, hwait, hidle, hready⟩
    exact ⟨⟨⟨hsus, hwait⟩, hidle⟩, Option.some.inj (hl.symm.trans hready)⟩

/-- Whether a call is made can be told from the variables and the lists, and telling it changes
nothing. -/
theorem allowed_ends {a : TaskAction Q} (h : k.Inv xIdleTask lists) :
    (allowed xIdleTask a k).Ends Lists.call lists fun isAllowed lists' =>
      lists' = lists ∧ (isAllowed = true ↔ k.Permits xIdleTask lists a) := by
  cases a with
  | vTaskSuspendAll => exact ends_pure ⟨rfl, iff_of_true rfl trivial⟩
  | xTaskResumeAll => exact ends_pure ⟨rfl, bne_iff_ne⟩
  | xTaskIncrementTick =>
    refine ends_pure ⟨rfl, ?_⟩
    rw [Bool.or_eq_true, beq_iff_eq, bne_iff_ne, Kernel.Permits]
  | vTaskSwitchContext => exact ends_pure ⟨rfl, iff_of_true rfl trivial⟩
  | prvAddCurrentTaskToDelayedList xTicksToWait => exact canBlock_ends h
  | vTaskPlaceOnEventList q xTicksToWait => exact canBlock_ends h
  | vTaskPlaceOnEventListRestricted q xTicksToWait xWaitIndefinitely =>
    refine ends_bind (listListIsEmpty_ends (h.sound.initialised _) ?_)
    refine (canBlock_ends h).bind fun blocks lists' ⟨hlists, hblocks⟩ => ends_pure ⟨hlists, ?_⟩
    rw [Bool.and_eq_true, List.isEmpty_iff, hblocks, Kernel.Permits]
  | xTaskRemoveFromEventList q =>
    refine ends_bind (listListIsEmpty_ends (h.sound.initialised _) (ends_pure ⟨rfl, ?_⟩))
    rw [Bool.not_eq_true', List.isEmpty_eq_false_iff, Kernel.Permits]

/-- **What a call is to do.** Its answer says whether a switch is asked for. -/
structure Done (xIdleTask : T) (a : TaskAction Q) (k : Kernel T Q) (lists : TaskLists T Q)
    (r : Bool × Kernel T Q) (lists' : TaskLists T Q) : Prop where
  inv : r.2.Inv xIdleTask lists'
  priority : r.2.uxPriority = k.uxPriority
  step : TaskView.Step k.uxPriority a (k.view lists) (r.2.view lists')
  quiet : r.1 = false → r.2.xYieldPendings = false → a ≠ .vTaskSwitchContext →
    k.xYieldPendings = false
  leads : r.1 = false → r.2.xYieldPendings = false → (a ≠ .vTaskSwitchContext → k.Leads lists) →
    r.2.Leads lists'
  wait_le : a ≠ .vTaskSwitchContext ∨ k.uxSchedulerSuspended ≠ 0 → ∀ n t p,
    lists.container (.xStateListItem t) = some (some (.pxReadyTasksLists p)) →
    lists'.container (.xStateListItem t) = some (some (.pxReadyTasksLists p)) →
    lists'.wait n (.pxReadyTasksLists p) (.xStateListItem t) ≤
      lists.wait n (.pxReadyTasksLists p) (.xStateListItem t)
  turn : a = .vTaskSwitchContext → k.uxSchedulerSuspended = 0 → ∀ n t p,
    lists.container (.xStateListItem t) = some (some (.pxReadyTasksLists p)) →
    t ≠ r.2.pxCurrentTCB → (lists.items (.pxReadyTasksLists p)).length ≤ n →
    lists'.wait n (.pxReadyTasksLists p) (.xStateListItem t) +
        (if r.2.uxPriority r.2.pxCurrentTCB = p then 1 else 0) ≤
      lists.wait n (.pxReadyTasksLists p) (.xStateListItem t)

/-- The lists have not been touched. -/
theorem Done.of_lists {a : TaskAction Q} {b : Bool} {k' : Kernel T Q}
    (hinv : k'.Inv xIdleTask lists) (hpriority : k'.uxPriority = k.uxPriority)
    (hcurrent : k'.pxCurrentTCB = k.pxCurrentTCB)
    (hyield : k'.xYieldPendings = false → k.xYieldPendings = false ∧ a ≠ .vTaskSwitchContext)
    (hsus : a = .vTaskSwitchContext → k.uxSchedulerSuspended ≠ 0)
    (hstep : TaskView.Step k.uxPriority a (k.view lists) (k'.view lists)) :
    Done xIdleTask a k lists (b, k') lists where
  inv := hinv
  priority := hpriority
  step := hstep
  quiet _ hy _ := (hyield hy).1
  leads _ hy h := by
    obtain ⟨hready, hle⟩ := h (hyield hy).2
    exact ⟨by rw [hpriority, hcurrent]; exact hready, by rw [hpriority, hcurrent]; exact hle⟩
  wait_le _ _ _ _ _ _ := le_rfl
  turn ha hzero := absurd hzero (hsus ha)

/-- Tasks have been woken. -/
theorem Woken.done {a : TaskAction Q} {b : Bool} {k' : Kernel T Q} {lists' : TaskLists T Q}
    {W : T → Prop} (hw : Woken k W (b = false) lists lists') (h : k.Inv xIdleTask lists)
    (hinv : k'.Inv xIdleTask lists') (hpriority : k'.uxPriority = k.uxPriority)
    (hcurrent : k'.pxCurrentTCB = k.pxCurrentTCB) (ha : a ≠ .vTaskSwitchContext)
    (hquiet : b = false → k'.xYieldPendings = false → k.xYieldPendings = false)
    (hstep : TaskView.Step k.uxPriority a (k.view lists) (k'.view lists')) :
    Done xIdleTask a k lists (b, k') lists' := by
  have hnot : ∀ t p, lists.container (.xStateListItem t) =
      some (some (.pxReadyTasksLists p)) → ¬ W t := fun t p ht hW =>
    hw.not_ready t hW (h.sound.status_ready ht)
  refine ⟨hinv, hpriority, hstep, fun hb hy _ => hquiet hb hy, fun hb _ hleads => ?_,
    fun _ n t p ht _ => hw.wait_le n t p (hnot t p ht) ht, fun heq => absurd heq ha⟩
  obtain ⟨hready, hle⟩ := hleads ha
  rw [show (b, k').2 = k' from rfl]
  refine ⟨?_, fun t ht => ?_⟩
  · rw [hpriority, hcurrent, hw.state_of_not _ (hnot _ _ hready)]
    exact hready
  · rw [hpriority, hcurrent]
    by_cases hW : W t
    · exact hw.quiet hb t hW
    · rw [hpriority, hw.state_of_not t hW] at ht
      exact hle t ht

theorem tick_ends (h : k.Inv xIdleTask lists)
    (hp : k.Permits xIdleTask lists .xTaskIncrementTick) :
    (perform .xTaskIncrementTick k).Ends Lists.call lists
      (Done xIdleTask .xTaskIncrementTick k lists) := by
  by_cases hsus : k.uxSchedulerSuspended = 0
  · refine xTaskIncrementTick_ends hsus h.sound
      fun b k' lists' hs hframe hnow hyield ⟨W, hW⟩ hquiet hstatus => ?_
    have hfree := hW.free h.free
    have hinv : k'.Inv xIdleTask lists' := ⟨hs, hW.placed h.placed, hfree,
      fun _ => hW.not_noted fun t _ => h.noted hsus t,
      fun _ => hframe.pended.trans (h.pended hsus), hW.stays_ready h.idle⟩
    refine hW.done h hinv hframe.priority hframe.current (by simp) (fun hb _ => hquiet hb) ?_
    have hview : k'.view lists' = (k.view lists).pass 1 := by
      refine TaskView.ext hnow (congrArg UInt32.toNat hframe.pended) hframe.suspended hframe.current
        (funext fun t => ?_) (funext fun t => ?_)
      · exact (hstatus t).trans (by rw [hnow]; rfl)
      · have hwaits := Readied.waitsFor_eq k' (hframe.priority ▸ hW.toReadied) hs
          (hW.placed h.placed t) hfree
        rw [hstatus t, hnow] at hwaits
        exact hwaits
    rw [hview]
    exact .tick _ hsus
  · have hmax : k.xPendedTicks ≠ portMaxDelay := hp.resolve_left hsus
    have hpended : (k.xPendedTicks + 1).toNat = k.xPendedTicks.toNat + 1 := by
      have hlt := k.xPendedTicks.toNat_lt
      have hadd : (k.xPendedTicks + 1).toNat = (k.xPendedTicks.toNat + 1) % 2 ^ 32 :=
        UInt32.toNat_add _ _
      have hne : k.xPendedTicks.toNat ≠ 2 ^ 32 - 1 := fun heq => hmax (UInt32.toNat_inj.mp heq)
      omega
    rw [perform, xTaskIncrementTick, if_neg hsus]
    refine ends_pure (Done.of_lists ⟨{ h.sound with }, h.placed, h.free, fun heq => absurd heq hsus,
      fun heq => absurd heq hsus, h.idle⟩ rfl rfl (fun hy => ⟨hy, by simp⟩) (by simp) ?_)
    have hview : { k with xPendedTicks := k.xPendedTicks + 1 }.view lists =
        { k.view lists with pended := (k.view lists).pended + 1 } :=
      TaskView.ext rfl hpended rfl rfl rfl rfl
    rw [hview]
    exact .tickPended _ hsus

theorem resume_ends (h : k.Inv xIdleTask lists) (hp : k.Permits xIdleTask lists .xTaskResumeAll) :
    (perform .xTaskResumeAll k).Ends Lists.call lists
      (Done xIdleTask .xTaskResumeAll k lists) := by
  have hnoted : ∀ t, IsNoted lists t ↔ waitsFor lists t = .noted := fun t =>
    (h.sound.wf.container_iff _ _).symm.trans waitsFor_eq_noted.symm
  refine xTaskResumeAll_ends hp h.sound (fun t _ => ?_) (fun t ht hready => ?_) (fun hne => ?_)
    fun hone b k' lists' hs hcurrent hpriority hsus hpended hnow ⟨W, hnotedW, hW⟩ hquiet hready
      hstatus => ?_
  · obtain ⟨l, hl⟩ := h.placed t
    exact ⟨l, (h.sound.wf.container_iff _ _).mp hl⟩
  · have hnothing := waitsFor_of_ready h.sound (h.placed t) h.free hready
    rw [(hnoted t).mp ht] at hnothing
    cases hnothing
  · have hlt : 1 < k.uxSchedulerSuspended := by
      have := show k.uxSchedulerSuspended ≠ 0 from hp
      omega
    have hpos : k.uxSchedulerSuspended - 1 ≠ 0 := by omega
    exact Done.of_lists ⟨{ h.sound with }, h.placed, h.free, fun heq => absurd heq hpos,
      fun heq => absurd heq hpos, h.idle⟩ rfl rfl (fun hy => ⟨hy, nofun⟩) nofun
      (.resumeNested (k.view lists) hlt)
  · have hfree := hW.free h.free
    have hinv : k'.Inv xIdleTask lists' := ⟨hs, hW.placed h.placed, hfree,
      fun _ => hW.not_noted fun t ht heq => ht (hnotedW t ((h.sound.wf.container_iff _ _).mp heq)),
      fun _ => hpended, hW.stays_ready h.idle⟩
    refine hW.done h hinv hpriority hcurrent nofun (fun hb _ => (hquiet hb).1) ?_
    have hview : k'.view lists' = ({ k.view lists with
        suspended := 0, pended := 0 }.release.pass (k.view lists).pended) := by
      have hstatus' : ∀ t, k'.status lists' t =
          (if waitsFor lists t = .noted then .ready else k.status lists t : TaskStatus).after
            (k.now + k.xPendedTicks.toNat) := fun t => by
        rw [← hnow]
        split
        next ht => exact hready t ((hnoted t).mpr ht)
        next ht => exact hstatus t fun ht' => ht ((hnoted t).mp ht')
      refine TaskView.ext hnow ?_ hsus hcurrent (funext hstatus') (funext fun t => ?_)
      · exact congrArg UInt32.toNat hpended
      · have hwaits := Readied.waitsFor_eq k' (hpriority ▸ hW.toReadied) hs
          (hW.placed h.placed t) hfree
        refine hwaits.trans ?_
        rw [hstatus' t]
        by_cases ht : waitsFor lists t = .noted
        · simp [TaskView.pass, TaskView.release, Kernel.view, ht, TaskStatus.after]
        · simp [TaskView.pass, TaskView.release, Kernel.view, ht]
    rw [hview]
    exact .resume _ hone

omit [DecidableEq T] [DecidableEq Q] in
/-- The task that is taken from a list of ready tasks has the priority of the list. -/
theorem Kernel.Sound.priority_eq {soon : ℕ} {t : T} {p : Fin configMaxPriorities}
    (h : k.Sound soon lists) (ht : .xStateListItem t ∈ lists.items (.pxReadyTasksLists p)) :
    k.uxPriority t = p := by
  have hne := h.delayed_ne (l := .pxReadyTasksLists p) ⟨nofun, nofun⟩
  rcases h.state_mem t _ ht with heq | heq | heq | heq
  · exact (TaskList.pxReadyTasksLists.inj heq).symm
  · exact absurd heq hne.1
  · exact absurd heq hne.2
  · cases heq

theorem switch_ends (h : k.Inv xIdleTask lists) : (perform .vTaskSwitchContext k).Ends
    Lists.call lists (Done xIdleTask .vTaskSwitchContext k lists) := by
  obtain ⟨p, hidle⟩ := h.idle
  have hmem := (h.sound.wf.container_iff _ _).mp hidle
  refine ends_bind (vTaskSwitchContext_ends h.sound ⟨p, List.ne_nil_of_mem hmem⟩
    (fun hsus => ends_pure ?_) fun hsus p r r' t hr hnext ht hitems habove hs => ends_pure ?_)
  · exact Done.of_lists ⟨{ h.sound with }, h.placed, h.free, h.noted, h.pended, h.idle⟩ rfl rfl
      nofun (fun _ => hsus) (.switchPended (k.view lists) hsus)
  rw [← Lists.items_eq hr] at ht
  have htp : k.uxPriority t = p := h.sound.priority_eq ht
  have hready := (h.sound.wf.container_iff _ _).mpr ht
  have hmax : ∀ t', lists.container (.xStateListItem t') =
      some (some (.pxReadyTasksLists (k.uxPriority t'))) → k.uxPriority t' ≤ p := fun t' ht' => by
    by_contra hlt
    have hmem' := (h.sound.wf.container_iff _ _).mp ht'
    rw [habove _ (not_le.mp hlt)] at hmem'
    cases hmem'
  refine ⟨⟨hs, h.placed, h.free, h.noted, h.pended, h.idle⟩, rfl, ?_, fun _ _ hne => absurd rfl hne,
    fun _ _ _ => ⟨?_, fun t' ht' => ?_⟩, fun hor => ?_, fun _ _ n t' p' ht' hne hlen => ?_⟩
  · refine TaskView.Step.switch (k.view lists) hsus t (h.sound.status_ready hready)
      fun t' ht' => ?_
    rw [htp]
    exact hmax t' ((h.sound.status_eq_ready (h.placed t')).mp ht')
  · exact htp.symm ▸ hready
  · exact (hmax t' ht').trans_eq htp.symm
  · exact (hor.elim (fun hne => hne rfl) fun hne => hne hsus).elim
  · have hmem' := (h.sound.wf.container_iff _ _).mp ht'
    rw [Lists.wait, Lists.wait, Lists.rota_turn]
    dsimp only
    rw [htp]
    by_cases hpp : p' = p
    · subst hpp
      rw [Lists.items_eq hr] at hmem' hlen
      rw [if_pos rfl, if_pos rfl, hr]
      exact r.wait_next hmem' hlen hnext fun heq => hne (TaskItem.xStateListItem.inj heq).symm
    · rw [if_neg fun heq => hpp (TaskList.pxReadyTasksLists.inj heq),
        if_neg fun heq => hpp heq.symm]
      exact le_rfl

/-- A task that has blocked itself. -/
theorem Blocked.done {a : TaskAction Q} {status : TaskStatus} {event : Option (Option (TaskList Q))}
    {k' : Kernel T Q} {lists' : TaskLists T Q} {waits : TaskWait Q} {xTicksToWait : TickType}
    (hb : Blocked k lists status event k' lists') (h : k.Inv xIdleTask lists)
    (hp : k.CanBlock xIdleTask xTicksToWait lists) (hstatus : status ≠ .ready)
    (hwaits : waitsFor lists' k.pxCurrentTCB = waits)
    (hstep : TaskView.Step k.uxPriority a (k.view lists)
      ((k.view lists).set k.pxCurrentTCB status waits)) :
    Done xIdleTask a k lists (true, k') lists' := by
  have hsus : k'.uxSchedulerSuspended ≠ 0 := hb.frame.suspended ▸ hp.suspended
  refine ⟨⟨hb.sound, fun t => ?_, fun t p ht => ?_, fun heq => absurd heq hsus,
    fun heq => absurd heq hsus, ?_⟩, hb.frame.priority, ?_, nofun, nofun, fun _ n t p _ ht => ?_,
    fun _ hzero => absurd hzero hp.suspended⟩
  · by_cases ht : t = k.pxCurrentTCB
    · rw [ht]
      exact hb.placed
    · rw [hb.state t ht]
      exact h.placed t
  · by_cases hcur : t = k.pxCurrentTCB
    · subst hcur
      exact absurd (hb.current.symm.trans (hb.sound.status_ready ht)) hstatus
    · rw [hb.event_others t hcur]
      rw [hb.state t hcur] at ht
      exact h.free t p ht
  · rw [hb.state _ hp.not_idle.symm]
    exact h.idle
  · have hview : k'.view lists' = (k.view lists).set k.pxCurrentTCB status waits := by
      refine TaskView.ext hb.now (congrArg UInt32.toNat hb.frame.pended) hb.frame.suspended
        hb.frame.current (funext fun t => ?_) (funext fun t => ?_)
      · change k'.status lists' t = Function.update (k.status lists) k.pxCurrentTCB status t
        rw [Function.update_apply]
        split
        next ht => rw [ht, hb.current]
        next ht => exact hb.others t ht
      · change waitsFor lists' t = Function.update (waitsFor lists) k.pxCurrentTCB waits t
        rw [Function.update_apply]
        split
        next ht => rw [ht, hwaits]
        next ht => exact waitsFor_congr (hb.event_others t ht)
    rw [hview]
    exact hstep
  · refine hb.wait_le n t p fun hcur => ?_
    subst hcur
    exact hstatus (hb.current.symm.trans (hb.sound.status_ready ht))

/-- A task that blocks is not ready. -/
theorem TaskStatus.blocking_ne_ready {now : ℕ} {xTicksToWait : TickType} {b : Bool} :
    TaskStatus.blocking now xTicksToWait b ≠ .ready := by
  rw [blocking]
  split <;> simp

theorem delay_ends {xTicksToWait : TickType} (h : k.Inv xIdleTask lists)
    (hp : k.CanBlock xIdleTask xTicksToWait lists) :
    (perform (.prvAddCurrentTaskToDelayedList xTicksToWait) k).Ends Lists.call lists
      (Done xIdleTask (.prvAddCurrentTaskToDelayedList xTicksToWait) k lists) := by
  refine ends_bind (prvAddCurrentTaskToDelayedList_ends h.sound
    ((h.sound.wf.container_iff _ _).mp hp.ready) hp.wait fun k' lists' hb =>
      ends_pure (hb.done h hp TaskStatus.blocking_ne_ready (waitsFor_nothing ?_)
        (.delay _ _ (h.sound.status_ready hp.ready))))
  rw [hb.event_current]
  exact h.free _ _ hp.ready

theorem wait_ends {q : Q} {xTicksToWait : TickType} (h : k.Inv xIdleTask lists)
    (hp : k.CanBlock xIdleTask xTicksToWait lists) :
    (perform (.vTaskPlaceOnEventList q xTicksToWait) k).Ends Lists.call lists
      (Done xIdleTask (.vTaskPlaceOnEventList q xTicksToWait) k lists) :=
  ends_bind (vTaskPlaceOnEventList_ends h.sound ((h.sound.wf.container_iff _ _).mp hp.ready)
    (h.free _ _ hp.ready) hp.wait fun _ _ hb => ends_pure
      (hb.done h hp TaskStatus.blocking_ne_ready (waitsFor_eq_event.mpr hb.event_current)
        (.wait _ _ _ (h.sound.status_ready hp.ready))))

theorem waitRestricted_ends {q : Q} {xTicksToWait : TickType} {xWaitIndefinitely : Bool}
    (h : k.Inv xIdleTask lists) (hp : k.Permits xIdleTask lists
      (.vTaskPlaceOnEventListRestricted q xTicksToWait xWaitIndefinitely)) :
    (perform (.vTaskPlaceOnEventListRestricted q xTicksToWait xWaitIndefinitely) k).Ends
      Lists.call lists
      (Done xIdleTask (.vTaskPlaceOnEventListRestricted q xTicksToWait xWaitIndefinitely) k
        lists) := by
  obtain ⟨hempty, hp⟩ := hp
  exact ends_bind (vTaskPlaceOnEventListRestricted_ends h.sound
    ((h.sound.wf.container_iff _ _).mp hp.ready) (h.free _ _ hp.ready) hp.wait hempty
    fun _ _ hb => ends_pure (hb.done h hp TaskStatus.blocking_ne_ready
      (waitsFor_eq_event.mpr hb.event_current)
      (.waitRestricted _ _ _ _ (h.sound.status_ready hp.ready))))

/-- The lower the value of the event item, the higher the priority. -/
theorem le_of_eventItemValue_le : ∀ {p p' : Fin configMaxPriorities},
    eventItemValue p ≤ eventItemValue p' → p' ≤ p := by
  decide

omit [DecidableEq T] [DecidableEq Q] in
/-- The first task in the list of an event has the highest priority of those that wait for it. -/
theorem priority_le_of_head {soon : ℕ} {q : Q} {t t' : T} (h : k.Sound soon lists)
    (ht : (lists.items (.pxEventList q)).head? = some (.xEventListItem t))
    (ht' : waitsFor lists t' = .event q) : k.uxPriority t' ≤ k.uxPriority t := by
  have hmem := (h.wf.container_iff _ _).mp (waitsFor_eq_event.mp ht')
  obtain ⟨m, hm⟩ := List.head?_eq_some_iff.mp ht
  have hsorted := h.sorted (.pxEventList q) trivial
  rw [hm] at hmem hsorted
  rcases List.mem_cons.mp hmem with heq | hmem
  · rw [TaskItem.xEventListItem.inj heq]
  · have hle := (List.pairwise_cons.mp hsorted).1 _ hmem
    rw [h.eventValue, h.eventValue] at hle
    exact le_of_eventItemValue_le hle

theorem wake_ends {q : Q} (h : k.Inv xIdleTask lists)
    (hp : k.Permits xIdleTask lists (.xTaskRemoveFromEventList q)) :
    (perform (.xTaskRemoveFromEventList q) k).Ends Lists.call lists
      (Done xIdleTask (.xTaskRemoveFromEventList q) k lists) := by
  obtain ⟨i, m, hitems⟩ :=
    List.exists_cons_of_ne_nil (show lists.items (.pxEventList q) ≠ [] from hp)
  have hi : i ∈ lists.items (.pxEventList q) := by
    rw [hitems]
    exact List.mem_cons_self
  obtain ⟨t, rfl⟩ := h.sound.exists_event hi (.inr ⟨q, rfl⟩)
  have hhead : (lists.items (.pxEventList q)).head? = some (.xEventListItem t) := by
    rw [hitems]
    rfl
  obtain ⟨l, hl⟩ := h.placed t
  have hwaits : waitsFor lists t = .event q :=
    waitsFor_eq_event.mpr ((h.sound.wf.container_iff _ _).mpr hi)
  have hmax : ∀ t', waitsFor lists t' = .event q → k.uxPriority t' ≤ k.uxPriority t :=
    fun t' ht' => priority_le_of_head h.sound hhead ht'
  refine xTaskRemoveFromEventList_ends h.sound hhead
    ((h.sound.wf.container_iff _ _).mp hl) fun b top y lists' hs hdone hquiet => ?_
  have hnot : k.status lists t ≠ .ready := fun hready => by
    rw [waitsFor_of_ready h.sound (h.placed t) h.free hready] at hwaits
    cases hwaits
  by_cases hsus : k.uxSchedulerSuspended = 0
  · rw [if_pos hsus] at hdone
    have hwoken : Woken k (fun t' => t' = t) (b = false) lists lists' :=
      ⟨hdone, fun t' ht' => ht' ▸ hnot, fun hb t' ht' => ht' ▸ (hquiet hb).2⟩
    refine hwoken.done h ⟨hs, hdone.placed h.placed, hdone.free h.free,
      fun _ => hdone.not_noted fun t _ => h.noted hsus t, h.pended, hdone.stays_ready h.idle⟩
      rfl rfl nofun (fun hb hy => (hquiet hb).1.symm.trans hy) ?_
    have hview : { k with uxTopReadyPriority := top, xYieldPendings := y }.view lists' =
        (k.view lists).set t .ready .nothing := by
      refine TaskView.ext rfl rfl rfl rfl (funext fun t' => ?_) (funext fun t' => ?_)
      · change k.status lists' t' = Function.update (k.status lists) t .ready t'
        rw [Function.update_apply]
        split
        next ht => exact hs.status_ready (hdone.state t' ht)
        next ht =>
          exact k.status_congr (hdone.state_of_not t' ht) (congrFun hdone.value _) rfl rfl rfl
      · change waitsFor lists' t' = Function.update (waitsFor lists) t .nothing t'
        rw [Function.update_apply]
        split
        next ht => exact waitsFor_nothing (hdone.event t' ht)
        next ht => exact waitsFor_congr (hdone.event_of_not t' ht)
    rw [hview]
    exact .wake _ hsus q t hwaits hmax
  · rw [if_neg hsus] at hdone
    refine ⟨⟨hs, fun t' => ?_, fun t' p ht' => ?_, fun heq => absurd heq hsus,
      fun heq => absurd heq hsus, ?_⟩, rfl, ?_, fun hb hy _ => (hquiet hb).1.symm.trans hy,
      fun _ _ hleads => ⟨?_, fun t' ht' => ?_⟩, fun _ n t' p _ _ => hdone.wait_le n t' p,
      fun heq => nomatch heq⟩
    · rw [hdone.state]
      exact h.placed t'
    · rw [hdone.state] at ht'
      have hfree := h.free t' p ht'
      rw [hdone.event, if_neg]
      · exact hfree
      · rintro rfl
        cases hfree.symm.trans (waitsFor_eq_event.mp hwaits)
    · obtain ⟨p, hidle⟩ := h.idle
      exact ⟨p, (hdone.state _).trans hidle⟩
    · have hview : { k with uxTopReadyPriority := top, xYieldPendings := y }.view lists' =
          (k.view lists).set t ((k.view lists).status t) .noted := by
        refine TaskView.ext rfl rfl rfl rfl (funext fun t' => ?_) (funext fun t' => ?_)
        · change k.status lists' t' = Function.update (k.status lists) t (k.status lists t) t'
          rw [Function.update_eq_self]
          exact k.status_congr (hdone.state t') (congrFun hdone.value _) rfl rfl rfl
        · change waitsFor lists' t' = Function.update (waitsFor lists) t .noted t'
          rw [Function.update_apply]
          split
          next ht => exact waitsFor_eq_noted.mpr ((hdone.event t').trans (if_pos ht))
          next ht => exact waitsFor_congr ((hdone.event t').trans (if_neg ht))
      rw [hview]
      exact .wakePended _ hsus q t hwaits hmax
    · exact (hdone.state _).trans (hleads nofun).ready
    · rw [hdone.state] at ht'
      exact (hleads nofun).le t' ht'

/-- **Each call comes to an end, keeps what holds between two calls, and does what it is for.** -/
theorem perform_ends {a : TaskAction Q} (h : k.Inv xIdleTask lists)
    (hp : k.Permits xIdleTask lists a) :
    (perform a k).Ends Lists.call lists (Done xIdleTask a k lists) := by
  cases a with
  | vTaskSuspendAll =>
    have hne : k.uxSchedulerSuspended + 1 ≠ 0 := Nat.succ_ne_zero _
    exact ends_pure (Done.of_lists ⟨{ h.sound with }, h.placed, h.free, fun heq => absurd heq hne,
      fun heq => absurd heq hne, h.idle⟩ rfl rfl (fun hy => ⟨hy, nofun⟩) nofun
      (.suspend (k.view lists)))
  | xTaskResumeAll => exact resume_ends h hp
  | xTaskIncrementTick => exact tick_ends h hp
  | vTaskSwitchContext => exact switch_ends h
  | prvAddCurrentTaskToDelayedList xTicksToWait => exact delay_ends h hp
  | vTaskPlaceOnEventList q xTicksToWait => exact wait_ends h hp
  | vTaskPlaceOnEventListRestricted q xTicksToWait xWaitIndefinitely =>
    exact waitRestricted_ends h hp
  | xTaskRemoveFromEventList q => exact wake_ends h hp

end Perform

end CubesatPipeline
