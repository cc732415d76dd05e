import CubesatPipeline.TaskStatus

/-!
# Waiting, resuming, and choosing a task

What the other functions of the scheduler do: a task is put on the list of what it waits for,
the first task of such a list is taken off it, the scheduler is resumed, and the task to run is
chosen. While the scheduler is suspended a task that is taken off a list is only noted, and the
ticks are only counted; resuming makes such tasks ready, and then does the ticks one by one, so
the tasks that were due in the meantime are made ready as well.
-/

namespace CubesatPipeline

open Program

variable {T Q : Type} [DecidableEq T] [DecidableEq Q] {k k' : Kernel T Q} {soon : ℕ}
  {lists lists' : TaskLists T Q}

/-! ### Waiting -/

section Wait

/-- The current task blocks, once its event item is in the list of what it waits for. -/
theorem Blocked.ends_of_enter {P : Kernel T Q → TaskLists T Q → Prop} {q : Q}
    {xTicksToWait : TickType} {xCanBlockIndefinitely : Bool} {l : TaskList Q}
    {lists₁ : TaskLists T Q} (h : k.Sound (k.xTickCount.toNat + 1) lists)
    (hcurrent : .xStateListItem k.pxCurrentTCB ∈ lists.items l) (hwait : xTicksToWait ≠ 0)
    (h₁ : lists.With (.xEventListItem k.pxCurrentTCB) (.pxEventList q) lists₁)
    (hsorted : (lists₁.items (.pxEventList q)).Pairwise fun a b => lists.value a ≤ lists.value b)
    (hP : ∀ k' lists', Blocked k lists (.blocking k.now xTicksToWait xCanBlockIndefinitely)
      (some (some (.pxEventList q))) k' lists' → P k' lists') :
    (prvAddCurrentTaskToDelayedList k xTicksToWait xCanBlockIndefinitely).Ends Lists.call lists₁
      P := by
  have hs₁ := h.enter h₁ nofun (fun _ _ => .inr ⟨q, rfl⟩) (fun _ => h₁.value ▸ hsorted) nofun nofun
  have hstate : ∀ t, lists₁.container (.xStateListItem t) = lists.container (.xStateListItem t) :=
    fun t => by rw [h₁.container, if_neg (by simp)]
  have hstatus : ∀ t, k.status lists₁ t = k.status lists t := fun t =>
    Kernel.status_congr (hstate t) (congrFun h₁.value _) rfl rfl rfl
  refine prvAddCurrentTaskToDelayedList_ends hs₁ (h₁.mem_iff.mpr (.inr hcurrent)) hwait
    fun k' lists' hb => hP k' lists' ⟨hb.sound, hb.frame, hb.now, fun t ht => ?_,
      fun t ht => ?_, ?_, hb.placed, hb.current, fun t ht => ?_, fun n t p ht => ?_⟩
  · exact (hb.state t ht).trans (hstate t)
  · rw [hb.event_others t ht, h₁.container, if_neg fun heq => ht (TaskItem.xEventListItem.inj heq)]
  · rw [hb.event_current, h₁.container, if_pos rfl]
  · exact (hb.others t ht).trans (hstatus t)
  · refine (hb.wait_le n t p ht).trans ?_
    rw [Lists.wait, h₁.rota (.pxReadyTasksLists p) (by simp)]
    exact le_rfl

/-- **The current task waits for something**, for some ticks or for ever. -/
theorem vTaskPlaceOnEventList_ends {P : Kernel T Q → TaskLists T Q → Prop} {q : Q}
    {xTicksToWait : TickType} {l : TaskList Q} (h : k.Sound (k.xTickCount.toNat + 1) lists)
    (hcurrent : .xStateListItem k.pxCurrentTCB ∈ lists.items l)
    (hfree : lists.container (.xEventListItem k.pxCurrentTCB) = some none)
    (hwait : xTicksToWait ≠ 0)
    (hP : ∀ k' lists', Blocked k lists (.blocking k.now xTicksToWait true)
      (some (some (.pxEventList q))) k' lists' → P k' lists') :
    (vTaskPlaceOnEventList k q xTicksToWait).Ends Lists.call lists P :=
  ends_bind (vListInsert_ends h.wf (h.initialised _) hfree (h.sorted (.pxEventList q) trivial)
    fun _ h₁ hsorted => Blocked.ends_of_enter h hcurrent hwait h₁ hsorted hP)

/-- **The task of the timers waits**, as the only task in its list. -/
theorem vTaskPlaceOnEventListRestricted_ends {P : Kernel T Q → TaskLists T Q → Prop} {q : Q}
    {xTicksToWait : TickType} {xWaitIndefinitely : Bool} {l : TaskList Q}
    (h : k.Sound (k.xTickCount.toNat + 1) lists)
    (hcurrent : .xStateListItem k.pxCurrentTCB ∈ lists.items l)
    (hfree : lists.container (.xEventListItem k.pxCurrentTCB) = some none)
    (hwait : (if xWaitIndefinitely then portMaxDelay else xTicksToWait) ≠ 0)
    (hempty : lists.items (.pxEventList q) = [])
    (hP : ∀ k' lists', Blocked k lists (.blocking k.now
        (if xWaitIndefinitely then portMaxDelay else xTicksToWait) xWaitIndefinitely)
      (some (some (.pxEventList q))) k' lists' → P k' lists') :
    (vTaskPlaceOnEventListRestricted k q xTicksToWait xWaitIndefinitely).Ends Lists.call lists
      P := by
  refine ends_bind (vListInsertEnd_ends h.wf (h.initialised _) hfree fun lists₁ h₁ _ =>
    Blocked.ends_of_enter h hcurrent hwait h₁ ?_ hP)
  have hone := h₁.perm
  rw [hempty] at hone
  rw [List.perm_singleton.mp hone]
  exact List.pairwise_singleton _ _

/-- **A task has been noted to be ready**, and no other task has been touched. -/
structure Noted (t : T) (lists lists' : TaskLists T Q) : Prop where
  state : ∀ t', lists'.container (.xStateListItem t') = lists.container (.xStateListItem t')
  event : ∀ t', lists'.container (.xEventListItem t') =
    if t' = t then some (some .xPendingReadyList) else lists.container (.xEventListItem t')
  value : lists'.value = lists.value
  wait_le : ∀ n t' p, lists'.wait n (.pxReadyTasksLists p) (.xStateListItem t') ≤
    lists.wait n (.pxReadyTasksLists p) (.xStateListItem t')

omit [DecidableEq Q] in
theorem noted_of_enter {t : T} {lists₁ : TaskLists T Q}
    (h₁ : lists.Without (.xEventListItem t) lists₁)
    (h₂ : lists₁.With (.xEventListItem t) .xPendingReadyList lists') : Noted t lists lists' := by
  refine ⟨fun t' => ?_, fun t' => ?_, h₂.value.trans h₁.value, fun n t' p => ?_⟩
  · rw [h₂.container, if_neg (by simp), h₁.container, if_neg (by simp)]
  · rw [h₂.container, h₁.container]
    simp only [TaskItem.xEventListItem.injEq]
    split <;> rfl
  · have hne : TaskItem.xEventListItem t ≠ .xStateListItem t' := by simp
    rw [Lists.wait, h₂.rota (.pxReadyTasksLists p) (by simp)]
    exact h₁.wait_le hne n

/-- **The first task that waits for something is made ready**, or is noted while the scheduler is
suspended. -/
theorem xTaskRemoveFromEventList_ends {P : Bool × Kernel T Q → TaskLists T Q → Prop} {q : Q}
    {t : T} {l : TaskList Q} (h : k.Sound soon lists)
    (ht : (lists.items (.pxEventList q)).head? = some (.xEventListItem t))
    (hplaced : .xStateListItem t ∈ lists.items l)
    (hP : ∀ b top y lists',
      { k with uxTopReadyPriority := top, xYieldPendings := y }.Sound soon lists' →
      (if k.uxSchedulerSuspended = 0 then Readied k.uxPriority (fun t' => t' = t) lists lists'
        else Noted t lists lists') →
      (b = false → y = k.xYieldPendings ∧ k.uxPriority t ≤ k.uxPriority k.pxCurrentTCB) →
      P (b, { k with uxTopReadyPriority := top, xYieldPendings := y }) lists') :
    (xTaskRemoveFromEventList k q).Ends Lists.call lists P := by
  have hmem : .xEventListItem t ∈ lists.items (.pxEventList q) := List.mem_of_head? ht
  rw [xTaskRemoveFromEventList]
  refine ends_bind (listGetOwnerOfHeadEntry_ends ht ?_)
  rw [h.eventOwner]
  refine ends_bind (listRemoveItem_ends h.wf hmem fun lists₁ h₁ => ends_bind ?_)
  have hs₁ := h.without h₁
  -- whether to yield is all that is left to do
  suffices hyield : ∀ top lists', { k with uxTopReadyPriority := top }.Sound soon lists' →
      (if k.uxSchedulerSuspended = 0 then Readied k.uxPriority (fun t' => t' = t) lists lists'
        else Noted t lists lists') →
      Program.Ends Lists.call (if k.uxPriority k.pxCurrentTCB < k.uxPriority t then
          return (true, { k with uxTopReadyPriority := top, xYieldPendings := true })
        else return (false, { k with uxTopReadyPriority := top }) :
          TaskProgram T Q (Bool × Kernel T Q)) lists' P by
    split
    next hrunning =>
      refine ends_bind (listRemoveItem_ends (l := l) hs₁.wf ?_ fun lists₂ h₂ => ?_)
      · exact (h₁.mem_iff h.wf).mpr ⟨nofun, hplaced⟩
      have hs₂ := hs₁.without h₂
      refine prvAddTaskToReadyList_ends hs₂ (by rw [h₂.container, if_pos rfl])
        fun lists₃ h₃ hend hs₃ => ?_
      obtain ⟨top, htop, -⟩ := taskRecordReadyPriority_eq k (k.uxPriority t)
      rw [htop] at hs₃ ⊢
      refine hyield top lists₃ hs₃ ?_
      rw [if_pos hrunning]
      exact readied_single h₁ h₂ (.inr ⟨rfl, rfl⟩) h₃ hend
    next hsuspended =>
      refine ends_bind (vListInsertEnd_ends hs₁.wf (hs₁.initialised _)
        (by rw [h₁.container, if_pos rfl]) fun lists₂ h₂ _ => ends_pure ?_)
      have hs₂ := hs₁.enter h₂ nofun (fun _ _ => .inl rfl) (fun hl => hl.elim) nofun nofun
      refine hyield k.uxTopReadyPriority lists₂ hs₂ ?_
      rw [if_neg hsuspended]
      exact noted_of_enter h₁ h₂
  intro top lists' hs hdone
  split
  · exact ends_pure (hP true top true lists' { hs with } hdone nofun)
  next hle =>
    exact ends_pure (hP false top k.xYieldPendings lists' hs hdone fun _ => ⟨rfl, not_lt.mp hle⟩)

end Wait

/-! ### Resuming -/

section Resume

/-- The tasks that have been noted to be ready. -/
def IsNoted (lists : TaskLists T Q) (t : T) : Prop :=
  .xEventListItem t ∈ lists.items .xPendingReadyList

/-- **The tasks that have been noted are made ready.** The induction is on the turns that are
left; the list gets shorter with each. -/
theorem movePendingTasks_ends {turns : ℕ} {b : Bool} (soon : ℕ)
    {P : Bool × Kernel T Q → TaskLists T Q → Prop} (h : k.Sound soon lists)
    (hplaced : ∀ t, IsNoted lists t → ∃ l, .xStateListItem t ∈ lists.items l)
    (hturns : (lists.items .xPendingReadyList).length < turns)
    (hP : ∀ b' top y lists',
      { k with uxTopReadyPriority := top, xYieldPendings := y }.Sound soon lists' →
      Readied k.uxPriority (IsNoted lists) lists lists' →
      (y = false → k.xYieldPendings = false ∧
        ∀ t, IsNoted lists t → k.uxPriority t ≤ k.uxPriority k.pxCurrentTCB) →
      P (b', { k with uxTopReadyPriority := top, xYieldPendings := y }) lists') :
    (movePendingTasks turns k b).Ends Lists.call lists P := by
  induction turns generalizing k lists b with
  | zero => exact absurd hturns (Nat.not_lt_zero _)
  | succ turns ih =>
    rw [movePendingTasks]
    refine ends_bind (listListIsEmpty_ends (h.initialised _) ?_)
    cases hitems : lists.items .xPendingReadyList with
    | nil =>
      rw [List.isEmpty_nil, if_pos rfl]
      have hno : ∀ t, ¬ IsNoted lists t := fun t ht => by
        rw [IsNoted, hitems] at ht
        cases ht
      exact ends_pure (hP b k.uxTopReadyPriority k.xYieldPendings lists h (.refl hno)
        fun hy => ⟨hy, fun t ht => absurd ht (hno t)⟩)
    | cons i m =>
      rw [List.isEmpty_cons, if_neg Bool.false_ne_true]
      have hi : i ∈ lists.items .xPendingReadyList := by
        rw [hitems]
        exact List.mem_cons_self
      obtain ⟨t, rfl⟩ := h.exists_event hi (.inl rfl)
      obtain ⟨l, hl⟩ := hplaced t hi
      refine ends_bind (listGetOwnerOfHeadEntry_ends (by rw [hitems]; rfl) ?_)
      rw [h.eventOwner]
      refine ends_bind (listRemoveItem_ends h.wf hi fun lists₁ h₁ => ?_)
      have hs₁ := h.without h₁
      refine ends_bind (listRemoveItem_ends (l := l) hs₁.wf
        ((h₁.mem_iff h.wf).mpr ⟨nofun, hl⟩) fun lists₂ h₂ => ?_)
      have hs₂ := hs₁.without h₂
      refine ends_bind (prvAddTaskToReadyList_ends hs₂ (by rw [h₂.container, if_pos rfl])
        fun lists₃ h₃ hend hs₃ => ?_)
      obtain ⟨top, htop, -⟩ := taskRecordReadyPriority_eq k (k.uxPriority t)
      rw [htop] at hs₃ ⊢
      have hready := readied_single h₁ h₂ (.inr ⟨rfl, rfl⟩) h₃ hend
      have hnoted : ∀ t', IsNoted lists₃ t' ↔ t' ≠ t ∧ IsNoted lists t' := fun t' => by
        rw [IsNoted, h₃.items .xPendingReadyList nofun, h₂.mem_iff hs₁.wf, h₁.mem_iff h.wf]
        simp [IsNoted]
      obtain ⟨y, hy, hquiet⟩ : ∃ y, (if k.uxPriority k.pxCurrentTCB < k.uxPriority t then
          { k with uxTopReadyPriority := top, xYieldPendings := true }
          else { k with uxTopReadyPriority := top }) =
            { k with uxTopReadyPriority := top, xYieldPendings := y } ∧
          (y = false → k.xYieldPendings = false ∧
            k.uxPriority t ≤ k.uxPriority k.pxCurrentTCB) := by
        split
        · exact ⟨true, rfl, nofun⟩
        next hle => exact ⟨k.xYieldPendings, rfl, fun hy => ⟨hy, not_lt.mp hle⟩⟩
      dsimp only
      rw [hy]
      refine ih (k := { k with uxTopReadyPriority := top, xYieldPendings := y }) { hs₃ with }
        (fun t' ht' => ?_) ?_ fun b' top' y' lists' hs' hreadied hquiet' => ?_
      · obtain ⟨hne, hnoted'⟩ := (hnoted t').mp ht'
        obtain ⟨l', hl'⟩ := hplaced t' hnoted'
        refine ⟨l', h₃.mem_iff.mpr (.inr ((h₂.mem_iff hs₁.wf).mpr ⟨?_, (h₁.mem_iff h.wf).mpr
          ⟨nofun, hl'⟩⟩))⟩
        exact fun heq => hne (TaskItem.xStateListItem.inj heq)
      · have hlen := List.length_erase_of_mem hi
        have hle := List.length_erase_le (a := TaskItem.xStateListItem t)
          (l := (lists.items .xPendingReadyList).erase (.xEventListItem t))
        have hpos := List.length_pos_of_mem hi
        rw [h₃.items .xPendingReadyList nofun, h₂.items, h₁.items]
        omega
      · have hnoted' : ∀ t', IsNoted lists t' ↔ t' = t ∨ IsNoted lists₃ t' := fun t' => by
          rw [hnoted]
          constructor
          · intro ht'
            by_cases heq : t' = t
            · exact .inl heq
            · exact .inr ⟨heq, ht'⟩
          · rintro (rfl | ⟨-, ht'⟩)
            · exact hi
            · exact ht'
        refine hP b' top' y' lists' hs' ((hready.trans hreadied).congr hnoted') fun hy' => ?_
        obtain ⟨hy, hbelow⟩ := hquiet' hy'
        obtain ⟨hyield, hle⟩ := hquiet hy
        refine ⟨hyield, fun t' ht' => ?_⟩
        rcases (hnoted' t').mp ht' with rfl | ht'
        · exact hle
        · exact hbelow t' ht'

/-- **The ticks that were counted are done**, one after the other. -/
theorem processPendedTicks_ends {P : Kernel T Q → TaskLists T Q → Prop} {n : ℕ}
    (hrunning : k.uxSchedulerSuspended = 0) (h : k.Sound (k.xTickCount.toNat + 1) lists)
    (hP : ∀ k' lists', k'.Sound (k'.xTickCount.toNat + 1) lists' → k.Frame k' →
      k'.now = k.now + n → (∃ W, Woken k W (k'.xYieldPendings = false) lists lists') →
      (k'.xYieldPendings = false → k.xYieldPendings = false) →
      (∀ t, k'.status lists' t = (k.status lists t).after k'.now) → P k' lists') :
    (processPendedTicks n k).Ends Lists.call lists P := by
  induction n generalizing k lists with
  | zero =>
    exact ends_pure (hP k lists h ⟨rfl, rfl, rfl, rfl⟩ (Nat.add_zero _).symm
      ⟨fun _ => False, .refl fun _ => id, fun _ => False.elim, fun _ _ => False.elim⟩ id
      fun t => h.status_after.symm)
  | succ n ih =>
    rw [processPendedTicks]
    refine ends_bind (xTaskIncrementTick_ends hrunning h
      fun b k₁ lists₁ hs₁ hframe₁ hnow₁ hyield₁ ⟨W₁, hwoken₁⟩ hquiet₁ hstatus₁ => ?_)
    obtain ⟨y, hy, hyb⟩ : ∃ y, (if b = true then { k₁ with xYieldPendings := true } else k₁) =
        { k₁ with xYieldPendings := y } ∧ (y = false → b = false) := by
      split
      · exact ⟨true, rfl, nofun⟩
      next hb => exact ⟨k₁.xYieldPendings, rfl, fun _ => Bool.eq_false_iff.mpr hb⟩
    dsimp only
    rw [hy]
    refine ih (k := { k₁ with xYieldPendings := y }) (hframe₁.suspended.trans hrunning)
      { hs₁ with } fun k₂ lists₂ hs₂ hframe₂ hnow₂ ⟨W₂, hwoken₂⟩ hquiet₂ hstatus₂ => ?_
    have hnow : k₂.now = k.now + (n + 1) := by
      rw [hnow₂]
      change k₁.now + n = _
      rw [hnow₁]
      omega
    have hstay : ∀ t, k.status lists t = .ready → k₁.status lists₁ t = .ready := fun t ht => by
      rw [hstatus₁ t, ht]
      rfl
    have hframe : k.Frame { k₁ with xYieldPendings := y } := { hframe₁ with }
    obtain ⟨W, -, hwoken⟩ := hwoken₁.trans hwoken₂ hframe₁.priority hframe₁.current hstay
      fun hk₂ => hyb (hquiet₂ hk₂)
    refine hP k₂ lists₂ hs₂ (hframe.trans hframe₂) hnow ⟨W, hwoken⟩
      (fun hk₂ => hquiet₁ (hyb (hquiet₂ hk₂))) fun t => ?_
    rw [hstatus₂ t]
    change (k₁.status lists₁ t).after k₂.now = _
    rw [hstatus₁ t, TaskStatus.after_after (by omega)]

/-- **The scheduler is resumed.** When it is not suspended any more, the tasks that were noted are
ready, and so are the tasks that became due in the meantime. -/
theorem xTaskResumeAll_ends {P : Bool × Kernel T Q → TaskLists T Q → Prop}
    (hsuspended : k.uxSchedulerSuspended ≠ 0) (h : k.Sound (k.xTickCount.toNat + 1) lists)
    (hplaced : ∀ t, IsNoted lists t → ∃ l, .xStateListItem t ∈ lists.items l)
    (hnoted : ∀ t, IsNoted lists t → k.status lists t ≠ .ready)
    (hstill : k.uxSchedulerSuspended ≠ 1 →
      P (false, { k with uxSchedulerSuspended := k.uxSchedulerSuspended - 1 }) lists)
    (hresumed : k.uxSchedulerSuspended = 1 → ∀ b (k' : Kernel T Q) lists',
      k'.Sound (k'.xTickCount.toNat + 1) lists' → k'.pxCurrentTCB = k.pxCurrentTCB →
      k'.uxPriority = k.uxPriority → k'.uxSchedulerSuspended = 0 → k'.xPendedTicks = 0 →
      k'.now = k.now + k.xPendedTicks.toNat →
      (∃ W, (∀ t, IsNoted lists t → W t) ∧ Woken k W (b = false) lists lists') →
      (b = false → k.xYieldPendings = false ∧ k'.xYieldPendings = false) →
      (∀ t, IsNoted lists t → k'.status lists' t = .ready) →
      (∀ t, ¬ IsNoted lists t → k'.status lists' t = (k.status lists t).after k'.now) →
      P (b, k') lists') :
    (xTaskResumeAll k).Ends Lists.call lists P := by
  rw [xTaskResumeAll]
  refine ends_bind (ends_assert (bne_iff_ne.mpr hsuspended) ?_)
  dsimp only
  split
  next hzero =>
    have hone : k.uxSchedulerSuspended = 1 := by omega
    refine ends_bind (listCurrentListLength_ends (h.initialised _) ?_)
    refine ends_bind (movePendingTasks_ends (k.xTickCount.toNat + 1) { h with } hplaced
      (Nat.lt_succ_self _) fun moved top y lists₁ hs₁ hreadied₁ hquiet₁ => ?_)
    refine ends_bind ?_
    -- the bound for the next wake time is right, whether it was reset or not
    suffices hticks : ∀ next, { k with
        uxSchedulerSuspended := k.uxSchedulerSuspended - 1
        uxTopReadyPriority := top
        xYieldPendings := y
        xNextTaskUnblockTime := next }.Sound (k.xTickCount.toNat + 1) lists₁ →
        Program.Ends Lists.call (do
          let k ← processPendedTicks k.xPendedTicks.toNat { k with
            uxSchedulerSuspended := k.uxSchedulerSuspended - 1
            uxTopReadyPriority := top
            xYieldPendings := y
            xNextTaskUnblockTime := next }
          let k := { k with xPendedTicks := 0 }
          return (k.xYieldPendings, k)) lists₁ P by
      split
      · refine prvResetNextTaskUnblockTime_ends (k.xTickCount.toNat + 1)
          (fun v hv => { hs₁ with next := hv }) (fun v hs => hticks v hs)
          (hs₁.initialised _) (hs₁.sorted _ hs₁.isSorted_delayed)
      · exact ends_pure (hticks k.xNextTaskUnblockTime hs₁)
    intro next hs₁'
    refine ends_bind (processPendedTicks_ends hzero hs₁'
      fun k₂ lists₂ hs₂ hframe hnow ⟨W, hwoken₂⟩ hquiet₂ hstatus => ends_pure ?_)
    have hstatus' : ∀ t, k₂.status lists₂ t = (k.status lists₁ t).after k₂.now := hstatus
    have hstatus₁ : ∀ t, ¬ IsNoted lists t → k.status lists₁ t = k.status lists t := fun t ht =>
      Kernel.status_congr (hreadied₁.state_of_not t ht) (congrFun hreadied₁.value _) rfl rfl rfl
    have hwoken₁ : Woken k (IsNoted lists) (y = false) lists lists₁ :=
      ⟨hreadied₁, hnoted, fun hy => (hquiet₁ hy).2⟩
    obtain ⟨W', hW', hwoken⟩ := hwoken₁.trans hwoken₂ rfl rfl
      (fun t ht => (hstatus₁ t fun hn => hnoted t hn ht).trans ht) hquiet₂
    refine hresumed hone _ { k₂ with xPendedTicks := 0 } lists₂ { hs₂ with } hframe.current
      hframe.priority (hframe.suspended.trans hzero) rfl hnow ⟨W', hW', hwoken⟩
      (fun hy => ⟨(hquiet₁ (hquiet₂ hy)).1, hy⟩) (fun t ht => ?_) fun t ht => ?_
    · change k₂.status lists₂ t = _
      have hready : k.status lists₁ t = .ready := hs₁.status_ready (hreadied₁.state t ht)
      rw [hstatus' t, hready]
      rfl
    · change k₂.status lists₂ t = (k.status lists t).after k₂.now
      rw [hstatus' t, hstatus₁ t ht]
  next hpos => exact ends_pure (hstill (by omega))

end Resume

/-! ### Choosing a task -/

section Switch

omit [DecidableEq T] in
/-- The place of a list of ready tasks can be moved. -/
theorem Kernel.Sound.turn (h : k.Sound soon lists) {p : Fin configMaxPriorities}
    {r : Rota (TaskItem T)} (hr : r.items = lists.items (.pxReadyTasksLists p)) :
    k.Sound soon (lists.turn (.pxReadyTasksLists p) r) := by
  have hitems : ∀ l, (lists.turn (.pxReadyTasksLists p) r).items l = lists.items l := fun l => by
    rw [Lists.items_turn]
    split
    next hl => rw [hr, hl]
    next hl => rfl
  exact {
    wf := h.wf.turn (by rw [hr])
    registered := h.registered
    initialised := fun l => by
      rw [Lists.rota_turn]
      split
      · rfl
      · exact h.initialised l
    stateOwner := h.stateOwner
    eventOwner := h.eventOwner
    delayed := h.delayed
    state_mem := fun t l => by rw [hitems]; exact h.state_mem t l
    event_mem := fun t l => by rw [hitems]; exact h.event_mem t l
    eventValue := h.eventValue
    sorted := fun l hl => by rw [hitems]; exact h.sorted l hl
    due := fun t => by rw [hitems]; exact h.due t
    next := fun t => by rw [hitems]; exact h.next t
    top := fun p' t => by rw [hitems]; exact h.top p' t }

/-- The highest priority that has a ready task. -/
theorem highestPriority_ends {P : Fin configMaxPriorities → TaskLists T Q → Prop} {p : ℕ}
    {hp : p < configMaxPriorities} (h : k.Sound soon lists)
    (hready : ∃ p' : Fin configMaxPriorities, p'.1 ≤ p ∧ lists.items (.pxReadyTasksLists p') ≠ [])
    (habove : ∀ p' : Fin configMaxPriorities, p < p'.1 →
      lists.items (.pxReadyTasksLists p') = [])
    (hP : ∀ p', lists.items (.pxReadyTasksLists p') ≠ [] →
      (∀ p'', p' < p'' → lists.items (.pxReadyTasksLists p'') = []) → P p' lists) :
    (highestPriority p hp : TaskProgram T Q _).Ends Lists.call lists P := by
  induction p with
  | zero =>
    have hne : lists.items (.pxReadyTasksLists ⟨0, hp⟩) ≠ [] := by
      obtain ⟨p', hle, hne⟩ := hready
      obtain rfl : p' = ⟨0, hp⟩ := Fin.ext (Nat.le_zero.mp hle)
      exact hne
    refine ends_bind (listListIsEmpty_ends (h.initialised _) ?_)
    exact ends_bind (ends_assert (by simpa using hne) (ends_pure (hP _ hne habove)))
  | succ p ih =>
    refine ends_bind (listListIsEmpty_ends (h.initialised _) ?_)
    by_cases hempty : lists.items (.pxReadyTasksLists ⟨p + 1, hp⟩) = []
    · rw [hempty, List.isEmpty_nil, if_pos rfl]
      refine ih ?_ fun p' hlt => ?_
      · obtain ⟨p', hle, hne⟩ := hready
        refine ⟨p', Nat.le_of_lt_succ (lt_of_le_of_ne hle fun heq => hne ?_), hne⟩
        rw [show p' = ⟨p + 1, hp⟩ from Fin.ext heq]
        exact hempty
      · rcases Nat.eq_or_lt_of_le hlt with heq | hlt
        · rw [show p' = ⟨p + 1, hp⟩ from Fin.ext heq.symm]
          exact hempty
        · exact habove p' hlt
    · rw [if_neg (by simpa using hempty)]
      exact ends_pure (hP _ hempty habove)

/-- **The next task of the highest priority runs**, and is the last in turn from then on. -/
theorem vTaskSwitchContext_ends {P : Kernel T Q → TaskLists T Q → Prop} (h : k.Sound soon lists)
    (hready : ∃ p, lists.items (.pxReadyTasksLists p) ≠ [])
    (hsuspended : k.uxSchedulerSuspended ≠ 0 → P { k with xYieldPendings := true } lists)
    (hP : k.uxSchedulerSuspended = 0 → ∀ p r r' t,
      lists.rota (.pxReadyTasksLists p) = some r → r.next = some (.xStateListItem t, r') →
      .xStateListItem t ∈ r.items → r'.items = r.items →
      (∀ p', p < p' → lists.items (.pxReadyTasksLists p') = []) →
      { k with xYieldPendings := false, pxCurrentTCB := t, uxTopReadyPriority := p }.Sound soon
        (lists.turn (.pxReadyTasksLists p) r') →
      P { k with xYieldPendings := false, pxCurrentTCB := t, uxTopReadyPriority := p }
        (lists.turn (.pxReadyTasksLists p) r')) :
    (vTaskSwitchContext k).Ends Lists.call lists P := by
  rw [vTaskSwitchContext]
  split
  next hsus => exact ends_pure (hsuspended hsus)
  next hrunning =>
    have hstate : ∀ p, ∀ i ∈ lists.items (.pxReadyTasksLists p), ∃ t, i = .xStateListItem t :=
      fun p i hi => h.exists_state hi nofun nofun
    have hbelow : ∀ p, lists.items (.pxReadyTasksLists p) ≠ [] → p ≤ k.uxTopReadyPriority := by
      intro p hne
      obtain ⟨i, hi⟩ := List.exists_mem_of_ne_nil _ hne
      obtain ⟨t, rfl⟩ := hstate p i hi
      exact h.top p t hi
    refine ends_bind (highestPriority_ends h ?_ (fun p hlt => ?_) fun p hne habove => ?_)
    · obtain ⟨p, hne⟩ := hready
      exact ⟨p, hbelow p hne, hne⟩
    · by_contra hne
      exact absurd hlt (not_lt.mpr (hbelow p hne))
    · obtain ⟨r, hr⟩ := Option.isSome_iff_exists.mp (h.initialised (.pxReadyTasksLists p))
      rw [Lists.items_eq hr] at hne
      obtain ⟨i, r', hnext, hi, hitems⟩ := r.exists_next hne
      obtain ⟨t, rfl⟩ := hstate p i (by rw [Lists.items_eq hr]; exact hi)
      refine ends_bind (listGetOwnerOfNextEntry_ends hr hnext (ends_pure ?_))
      rw [h.stateOwner]
      refine hP (not_not.mp hrunning) p r r' t hr hnext hi hitems habove ?_
      have hs := h.turn (p := p) (r := r') (by rw [hitems, Lists.items_eq hr])
      refine { hs with top := fun p' t' ht' => ?_ }
      have hmem : .xStateListItem t' ∈ lists.items (.pxReadyTasksLists p') := by
        rw [Lists.items_turn] at ht'
        split at ht'
        next heq => rwa [heq, Lists.items_eq hr, ← hitems]
        next hneq => exact ht'
      by_contra hlt
      rw [habove p' (not_le.mp hlt)] at hmem
      cases hmem

end Switch

end CubesatPipeline
