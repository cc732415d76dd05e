import CubesatPipeline.TaskInvariant

/-!
# What the functions of the scheduler do

One lemma for each call of the lists, and from these one for each function: it comes to an end,
what the scheduler keeps holds then, and the state of each task is as it was, but for the
tasks that the function is about (`CubesatPipeline.Readied`).
-/

namespace CubesatPipeline

open Program

variable {T Q : Type}

/-! ### The calls of the lists -/

section Calls

variable [DecidableEq T] {lists : TaskLists T Q} {l : TaskList Q} {i : TaskItem T}

/-- An item that is in no list can be taken out as well. -/
theorem without_self {c : Option (TaskList Q)} (hwf : lists.WF) (hi : lists.container i = some c)
    (hc : c = none) : lists.Without i lists := by
  subst hc
  have hno : ∀ l, i ∉ lists.items l := fun l hmem => by
    cases hi.symm.trans ((hwf.container_iff i l).mpr hmem)
  refine ⟨hwf, fun l => (List.erase_of_not_mem (hno l)).symm,
    fun l => (Lists.map_remove (hno l)).symm, fun j => ?_, rfl, rfl⟩
  · split
    next hj => rw [hj, hi]
    next hj => rfl

variable [DecidableEq Q]

theorem listCurrentListLength_ends {P : ℕ → TaskLists T Q → Prop} (h : (lists.rota l).isSome)
    (hP : P (lists.items l).length lists) :
    (listCurrentListLength l : TaskProgram T Q ℕ).Ends Lists.call lists P := by
  obtain ⟨r, hr⟩ := Option.isSome_iff_exists.mp h
  refine ends_ask (r := (lists.items l).length) ?_ hP
  rw [Lists.call, hr, Lists.items_eq hr]
  rfl

theorem listListIsEmpty_ends {P : Bool → TaskLists T Q → Prop} (h : (lists.rota l).isSome)
    (hP : P (lists.items l).isEmpty lists) :
    (listListIsEmpty l : TaskProgram T Q Bool).Ends Lists.call lists P := by
  refine ends_bind (listCurrentListLength_ends h (ends_pure ?_))
  have hempty : ((lists.items l).length == 0) = (lists.items l).isEmpty := by
    cases lists.items l <;> rfl
  rw [hempty]
  exact hP

theorem listGetOwnerOfHeadEntry_ends {P : T → TaskLists T Q → Prop}
    (hi : (lists.items l).head? = some i) (hP : P (lists.owner i) lists) :
    (listGetOwnerOfHeadEntry l : TaskProgram T Q T).Ends Lists.call lists P := by
  refine ends_ask (r := lists.owner i) ?_ hP
  rw [Lists.call, hi]
  rfl

theorem listGetOwnerOfNextEntry_ends {P : T → TaskLists T Q → Prop} {r r' : Rota (TaskItem T)}
    (hr : lists.rota l = some r) (hnext : r.next = some (i, r'))
    (hP : P (lists.owner i) (lists.turn l r')) :
    (listGetOwnerOfNextEntry l : TaskProgram T Q T).Ends Lists.call lists P := by
  refine ends_ask (r := lists.owner i) ?_ hP
  rw [Lists.call, Lists.next, hr, Option.bind_eq_bind, Option.bind_some, hnext]
  rfl

theorem listGetItemValueOfHeadEntry_ends {P : TickType → TaskLists T Q → Prop}
    (h : (lists.rota l).isSome) (hi : (lists.items l).head? = some i)
    (hP : P (lists.value i) lists) :
    (listGetItemValueOfHeadEntry l : TaskProgram T Q TickType).Ends Lists.call lists P := by
  obtain ⟨r, hr⟩ := Option.isSome_iff_exists.mp h
  refine ends_ask (r := lists.value i) ?_ hP
  rw [Lists.items_eq hr] at hi
  rw [Lists.call, hr, Option.map_some, hi]
  rfl

theorem listGetListItemValue_ends {P : TickType → TaskLists T Q → Prop}
    (hP : P (lists.value i) lists) :
    (listGetListItemValue i : TaskProgram T Q TickType).Ends Lists.call lists P :=
  ends_ask (r := lists.value i) rfl hP

theorem listSetListItemValue_ends {P : Unit → TaskLists T Q → Prop} {v : TickType}
    (hP : P () { lists with value := Function.update lists.value i v }) :
    (listSetListItemValue i v : TaskProgram T Q Unit).Ends Lists.call lists P :=
  ends_ask (r := ()) rfl hP

theorem listListItemContainer_ends {P : Option (TaskList Q) → TaskLists T Q → Prop}
    {c : Option (TaskList Q)} (hi : lists.container i = some c) (hP : P c lists) :
    (listListItemContainer i : TaskProgram T Q _).Ends Lists.call lists P := by
  refine ends_ask (r := c) ?_ hP
  rw [Lists.call, hi]
  rfl

theorem listRemoveItem_ends {P : Unit → TaskLists T Q → Prop} (hwf : lists.WF)
    (hi : i ∈ lists.items l) (hP : ∀ lists', lists.Without i lists' → P () lists') :
    (listRemoveItem i : TaskProgram T Q Unit).Ends Lists.call lists P := by
  obtain ⟨lists', hout, hwithout⟩ := Lists.exists_remove hwf hi
  have hcall : (ask (ListCall.uxListRemove i) : TaskProgram T Q ℕ).Ends Lists.call lists
      fun _ s => P () s := ⟨_, lists', by rw [run_ask]; exact hout, hP lists' hwithout⟩
  exact hcall.bind fun _ _ h => ends_pure h

theorem vListInsertEnd_ends {P : Unit → TaskLists T Q → Prop} (hwf : lists.WF)
    (h : (lists.rota l).isSome) (hi : lists.container i = some none)
    (hP : ∀ lists', lists.With i l lists' →
      lists'.rota l = (lists.rota l).map (Rota.insertEnd i) → P () lists') :
    (vListInsertEnd l i : TaskProgram T Q Unit).Ends Lists.call lists P := by
  obtain ⟨r, hr⟩ := Option.isSome_iff_exists.mp h
  obtain ⟨lists', hin, hwith, hend⟩ := Lists.exists_insertEnd hwf hr hi
  refine ends_ask (r := ()) ?_ (hP lists' hwith (by rw [hend, hr]; rfl))
  rw [Lists.call, hin]
  rfl

/-- A list in order is in order after `vListInsert`. -/
theorem vListInsert_ends {P : Unit → TaskLists T Q → Prop} (hwf : lists.WF)
    (h : (lists.rota l).isSome) (hi : lists.container i = some none)
    (hsorted : (lists.items l).Pairwise fun a b => lists.value a ≤ lists.value b)
    (hP : ∀ lists', lists.With i l lists' →
      ((lists'.items l).Pairwise fun a b => lists.value a ≤ lists.value b) → P () lists') :
    (vListInsert l i : TaskProgram T Q Unit).Ends Lists.call lists P := by
  obtain ⟨r, hr⟩ := Option.isSome_iff_exists.mp h
  obtain ⟨lists', hin, hwith, hitems⟩ := Lists.exists_insert hwf hr hi
  refine ends_ask (r := ()) ?_ (hP lists' hwith ?_)
  · rw [Lists.call, hin]
    rfl
  · rw [hitems]
    exact Lists.pairwise_insert hsorted

theorem removeFromItsEventList_ends {P : Unit → TaskLists T Q → Prop} {t : T} (hwf : lists.WF)
    (hreg : ∃ c, lists.container (.xEventListItem t) = some c)
    (hP : ∀ lists', lists.Without (.xEventListItem t) lists' → P () lists') :
    (removeFromItsEventList t : TaskProgram T Q Unit).Ends Lists.call lists P := by
  obtain ⟨c, hc⟩ := hreg
  refine ends_bind (listListItemContainer_ends hc ?_)
  cases c with
  | none => exact ends_pure (hP lists (without_self hwf hc rfl))
  | some l => exact listRemoveItem_ends hwf ((hwf.container_iff _ _).mp hc) hP

end Calls

/-! ### Tasks that are made ready -/

section Readied

/-- **The tasks of `W` have been made ready**, and no other task has been touched, or has to wait
longer for its turn. -/
structure Readied [DecidableEq T] (uxPriority : T → Fin configMaxPriorities) (W : T → Prop)
    (lists lists' : TaskLists T Q) : Prop where
  state : ∀ t, W t → lists'.container (.xStateListItem t) =
    some (some (.pxReadyTasksLists (uxPriority t)))
  event : ∀ t, W t → lists'.container (.xEventListItem t) = some none
  state_of_not : ∀ t, ¬ W t → lists'.container (.xStateListItem t) =
    lists.container (.xStateListItem t)
  event_of_not : ∀ t, ¬ W t → lists'.container (.xEventListItem t) =
    lists.container (.xEventListItem t)
  value : lists'.value = lists.value
  wait_le : ∀ n t p, ¬ W t →
    lists.container (.xStateListItem t) = some (some (.pxReadyTasksLists p)) →
    lists'.wait n (.pxReadyTasksLists p) (.xStateListItem t) ≤
      lists.wait n (.pxReadyTasksLists p) (.xStateListItem t)

variable [DecidableEq T] {uxPriority : T → Fin configMaxPriorities} {W W' : T → Prop}
  {lists lists₁ lists₂ lists₃ : TaskLists T Q} {t : T}

theorem Readied.refl (hW : ∀ t, ¬ W t) : Readied uxPriority W lists lists where
  state t ht := absurd ht (hW t)
  event t ht := absurd ht (hW t)
  state_of_not _ _ := rfl
  event_of_not _ _ := rfl
  value := rfl
  wait_le _ _ _ _ _ := le_rfl

theorem Readied.congr (h : Readied uxPriority W lists lists₁) (hW : ∀ t, W' t ↔ W t) :
    Readied uxPriority W' lists lists₁ := by
  rwa [show W' = W from funext fun t => propext (hW t)]

theorem Readied.trans (h : Readied uxPriority W lists lists₁)
    (h' : Readied uxPriority W' lists₁ lists₂) :
    Readied uxPriority (fun t => W t ∨ W' t) lists lists₂ := by
  refine ⟨fun t ht => ?_, fun t ht => ?_, fun t ht => ?_, fun t ht => ?_,
    h'.value.trans h.value, fun n t p ht hp => ?_⟩
  · by_cases ht' : W' t
    · exact h'.state t ht'
    · exact (h'.state_of_not t ht').trans (h.state t (ht.resolve_right ht'))
  · by_cases ht' : W' t
    · exact h'.event t ht'
    · exact (h'.event_of_not t ht').trans (h.event t (ht.resolve_right ht'))
  · rw [not_or] at ht
    exact (h'.state_of_not t ht.2).trans (h.state_of_not t ht.1)
  · rw [not_or] at ht
    exact (h'.event_of_not t ht.2).trans (h.event_of_not t ht.1)
  · rw [not_or] at ht
    exact (h'.wait_le n t p ht.2 ((h.state_of_not t ht.1).trans hp)).trans (h.wait_le n t p ht.1 hp)

/-- A task is made ready: both items are taken out, and the state item is put into the ready
list. -/
theorem readied_single {i j : TaskItem T} (h₁ : lists.Without i lists₁)
    (h₂ : lists₁.Without j lists₂)
    (hij : i = .xStateListItem t ∧ j = .xEventListItem t ∨
      i = .xEventListItem t ∧ j = .xStateListItem t)
    (h₃ : lists₂.With (.xStateListItem t) (.pxReadyTasksLists (uxPriority t)) lists₃)
    (hend : lists₃.rota (.pxReadyTasksLists (uxPriority t)) =
      (lists₂.rota (.pxReadyTasksLists (uxPriority t))).map (Rota.insertEnd (.xStateListItem t))) :
    Readied uxPriority (fun t' => t' = t) lists lists₃ := by
  refine ⟨fun t' ht => ?_, fun t' ht => ?_, fun t' ht => ?_, fun t' ht => ?_,
    h₃.value.trans (h₂.value.trans h₁.value), fun n t' p ht hp => ?_⟩
  · rw [h₃.container, if_pos (by rw [ht]), ht]
  · rw [h₃.container, h₂.container, h₁.container, ht]
    rcases hij with ⟨rfl, rfl⟩ | ⟨rfl, rfl⟩ <;> simp
  · rw [h₃.container, h₂.container, h₁.container]
    rcases hij with ⟨rfl, rfl⟩ | ⟨rfl, rfl⟩ <;> simp [ht]
  · rw [h₃.container, h₂.container, h₁.container]
    rcases hij with ⟨rfl, rfl⟩ | ⟨rfl, rfl⟩ <;> simp [ht]
  · have hne : i ≠ .xStateListItem t' ∧ j ≠ .xStateListItem t' := by
      rcases hij with ⟨rfl, rfl⟩ | ⟨rfl, rfl⟩ <;> simp [Ne.symm ht]
    have hmem : .xStateListItem t' ∈ lists₂.items (.pxReadyTasksLists p) := by
      rw [← h₂.wf.container_iff, h₂.container, if_neg hne.2.symm, h₁.container, if_neg hne.1.symm]
      exact hp
    exact (h₃.wait_le hend hmem n).trans ((h₂.wait_le hne.2 n).trans (h₁.wait_le hne.1 n))

end Readied

/-! ### The functions -/

section Functions

variable [DecidableEq T] [DecidableEq Q] {k : Kernel T Q} {soon : ℕ} {lists : TaskLists T Q} {t : T}

omit [DecidableEq T] [DecidableEq Q] in
/-- Only the bound on the ready priorities is written. -/
theorem taskRecordReadyPriority_eq (k : Kernel T Q) (p : Fin configMaxPriorities) :
    ∃ top, taskRecordReadyPriority k p = { k with uxTopReadyPriority := top } ∧
      k.uxTopReadyPriority ≤ top ∧ p ≤ top := by
  rw [taskRecordReadyPriority]
  split
  next hlt => exact ⟨p, rfl, hlt.le, le_rfl⟩
  next hge => exact ⟨k.uxTopReadyPriority, rfl, le_rfl, not_lt.mp hge⟩

theorem prvAddTaskToReadyList_ends {P : Kernel T Q → TaskLists T Q → Prop}
    (h : k.Sound soon lists) (ht : lists.container (.xStateListItem t) = some none)
    (hP : ∀ lists', lists.With (.xStateListItem t) (.pxReadyTasksLists (k.uxPriority t)) lists' →
      lists'.rota (.pxReadyTasksLists (k.uxPriority t)) =
        (lists.rota (.pxReadyTasksLists (k.uxPriority t))).map
          (Rota.insertEnd (.xStateListItem t)) →
      (taskRecordReadyPriority k (k.uxPriority t)).Sound soon lists' →
        P (taskRecordReadyPriority k (k.uxPriority t)) lists') :
    (prvAddTaskToReadyList k t).Ends Lists.call lists P := by
  rw [prvAddTaskToReadyList]
  obtain ⟨top, hk', htop, hle⟩ := taskRecordReadyPriority_eq k (k.uxPriority t)
  rw [hk'] at hP ⊢
  have h' : { k with uxTopReadyPriority := top }.Sound soon lists :=
    h.mono le_rfl rfl rfl rfl h.next htop
  refine ends_bind (vListInsertEnd_ends h.wf (h.initialised _) ht
    fun lists' hin hend => ends_pure ?_)
  refine hP lists' hin hend (h'.enter hin (fun t' ht' => ?_) (fun t' ht' => ?_)
    (fun hl => hl.elim) (fun t' _ hl => ?_) fun p hp => ?_)
  · rw [← TaskItem.xStateListItem.inj ht']
    exact .inl rfl
  · cases ht'
  · exact absurd hl (h'.delayed_ne (l := .pxReadyTasksLists _) ⟨nofun, nofun⟩).1
  · obtain rfl := TaskList.pxReadyTasksLists.inj hp
    exact hle

/-- The bound is right again after `prvResetNextTaskUnblockTime`, whatever it was before. -/
theorem prvResetNextTaskUnblockTime_ends {P : Kernel T Q → TaskLists T Q → Prop} (soon : ℕ)
    (h : ∀ v, (∀ t, .xStateListItem t ∈ lists.items k.pxDelayedTaskList →
      v ≤ lists.value (.xStateListItem t)) → { k with xNextTaskUnblockTime := v }.Sound soon lists)
    (hP : ∀ v, { k with xNextTaskUnblockTime := v }.Sound soon lists →
      P { k with xNextTaskUnblockTime := v } lists)
    (hinit : (lists.rota k.pxDelayedTaskList).isSome)
    (hsorted : (lists.items k.pxDelayedTaskList).Pairwise fun i j =>
      lists.value i ≤ lists.value j) :
    (prvResetNextTaskUnblockTime k).Ends Lists.call lists P := by
  refine ends_bind (listListIsEmpty_ends hinit ?_)
  cases hitems : lists.items k.pxDelayedTaskList with
  | nil =>
    rw [List.isEmpty_nil, if_pos rfl]
    refine ends_pure (hP _ (h _ fun t ht => ?_))
    rw [hitems] at ht
    cases ht
  | cons i m =>
    rw [List.isEmpty_cons, if_neg Bool.false_ne_true]
    refine ends_bind (listGetItemValueOfHeadEntry_ends hinit (by rw [hitems]; rfl) ?_)
    refine ends_pure (hP _ (h _ fun t ht => ?_))
    rw [hitems] at ht hsorted
    rcases List.mem_cons.mp ht with rfl | ht
    · exact UInt32.le_refl _
    · exact (List.pairwise_cons.mp hsorted).1 _ ht

/-- The tasks that are due. -/
def Kernel.Due (k : Kernel T Q) (lists : TaskLists T Q) (t : T) : Prop :=
  .xStateListItem t ∈ lists.items k.pxDelayedTaskList ∧
    lists.value (.xStateListItem t) = k.xTickCount

/-- **The loop of `xTaskIncrementTick` makes the tasks ready that are due**, and no other. The
induction is on the turns that are left; the delayed list gets shorter with each. -/
theorem unblockTasks_ends {turns : ℕ} {b : Bool} {P : Bool × Kernel T Q → TaskLists T Q → Prop}
    (h : k.Sound k.xTickCount.toNat lists)
    (hturns : (lists.items k.pxDelayedTaskList).length < turns)
    (hP : ∀ b' lists' top next,
      { k with uxTopReadyPriority := top, xNextTaskUnblockTime := next }.Sound
        (k.xTickCount.toNat + 1) lists' → Readied k.uxPriority (k.Due lists) lists lists' →
      (b' = false → ∀ t, k.Due lists t → k.uxPriority t ≤ k.uxPriority k.pxCurrentTCB) →
      (b' = false → b = false) →
      P (b', { k with uxTopReadyPriority := top, xNextTaskUnblockTime := next }) lists') :
    (unblockTasks turns k b).Ends Lists.call lists P := by
  induction turns generalizing k lists b with
  | zero => exact absurd hturns (Nat.not_lt_zero _)
  | succ turns ih =>
    rw [unblockTasks]
    refine ends_bind (listListIsEmpty_ends (h.initialised _) ?_)
    cases hitems : lists.items k.pxDelayedTaskList with
    | nil =>
      rw [List.isEmpty_nil, if_pos rfl]
      have hno : ∀ t, .xStateListItem t ∉ lists.items k.pxDelayedTaskList := fun t => by
        rw [hitems]
        exact List.not_mem_nil
      refine ends_pure (hP b lists k.uxTopReadyPriority portMaxDelay ?_
        (.refl fun t ht => hno t ht.1) (fun _ t ht => absurd ht.1 (hno t)) id)
      exact { h with
        due := fun t ht => absurd ht (hno t)
        next := fun t ht => absurd ht (hno t) }
    | cons i m =>
      rw [List.isEmpty_cons, if_neg Bool.false_ne_true]
      have hi : i ∈ lists.items k.pxDelayedTaskList := by
        rw [hitems]
        exact List.mem_cons_self
      have hsorted := h.sorted _ h.isSorted_delayed
      obtain ⟨t, rfl⟩ := h.exists_delayed hi
      refine ends_bind (listGetOwnerOfHeadEntry_ends (by rw [hitems]; rfl) ?_)
      rw [h.stateOwner]
      refine ends_bind (listGetListItemValue_ends ?_)
      split
      next hlt =>
        -- the first task is not due, and so no other is
        have hall : ∀ t', .xStateListItem t' ∈ lists.items k.pxDelayedTaskList →
            lists.value (.xStateListItem t) ≤ lists.value (.xStateListItem t') := fun t' ht' => by
          rw [hitems] at ht' hsorted
          rcases List.mem_cons.mp ht' with heq | ht'
          · rw [heq]
            exact UInt32.le_refl _
          · exact (List.pairwise_cons.mp hsorted).1 _ ht'
        have hlt' := UInt32.lt_iff_toNat_lt.mp hlt
        have hno : ∀ t', ¬ k.Due lists t' := fun t' ht' => by
          have hle := UInt32.le_iff_toNat_le.mp (hall t' ht'.1)
          rw [ht'.2] at hle
          omega
        refine ends_pure (hP b lists k.uxTopReadyPriority _ ?_ (.refl hno)
          (fun _ t' ht' => absurd ht' (hno t')) id)
        refine { h with
          due := fun t' ht' => ?_
          next := hall }
        have hle := UInt32.le_iff_toNat_le.mp (hall t' ht')
        omega
      next hge =>
        -- the first task is due
        have hdue : lists.value (.xStateListItem t) = k.xTickCount := by
          have hle := h.due t hi
          have hge' := UInt32.le_iff_toNat_le.mp (UInt32.not_lt.mp hge)
          exact UInt32.toNat_inj.mp (le_antisymm hge' hle)
        refine ends_bind (listRemoveItem_ends h.wf hi fun lists₁ h₁ => ?_)
        have hs₁ := h.without h₁
        refine ends_bind (removeFromItsEventList_ends hs₁.wf (hs₁.registered _) fun lists₂ h₂ => ?_)
        have hs₂ := hs₁.without h₂
        have hfree : lists₂.container (.xStateListItem t) = some none := by
          rw [h₂.container, h₁.container]
          simp
        refine ends_bind (prvAddTaskToReadyList_ends hs₂ hfree fun lists₃ h₃ hend hs₃ => ?_)
        obtain ⟨top, htop, -⟩ := taskRecordReadyPriority_eq k (k.uxPriority t)
        rw [htop] at hs₃ ⊢
        have hne : k.pxDelayedTaskList ≠ .pxReadyTasksLists (k.uxPriority t) :=
          (h.delayed_ne (l := .pxReadyTasksLists _) ⟨nofun, nofun⟩).1.symm
        have hmem : ∀ t', .xStateListItem t' ∈ lists₃.items k.pxDelayedTaskList ↔
            t' ≠ t ∧ .xStateListItem t' ∈ lists.items k.pxDelayedTaskList := fun t' => by
          rw [h₃.items _ hne, h₂.mem_iff hs₁.wf, h₁.mem_iff h.wf]
          simp
        have hready := readied_single h₁ h₂ (.inl ⟨rfl, rfl⟩) h₃ hend
        refine ih (k := { k with uxTopReadyPriority := top }) hs₃ ?_ ?_
        · have hlen := List.length_erase_of_mem hi
          have hle := List.length_erase_le (a := TaskItem.xEventListItem t)
            (l := (lists.items k.pxDelayedTaskList).erase (.xStateListItem t))
          have hpos := List.length_pos_of_mem hi
          dsimp only
          rw [h₃.items _ hne, h₂.items, h₁.items]
          omega
        · intro b' lists' top' next hs' hreadied hbelow hb
          have hvalue : lists₃.value = lists.value := hready.value
          have hdue' : ∀ t', k.Due lists t' ↔ t' = t ∨ k.Due lists₃ t' := fun t' => by
            constructor
            · rintro ⟨ht', heq⟩
              by_cases htt : t' = t
              · exact .inl htt
              · exact .inr ⟨(hmem t').mpr ⟨htt, ht'⟩, by rw [hvalue]; exact heq⟩
            · rintro (rfl | ⟨ht', heq⟩)
              · exact ⟨hi, hdue⟩
              · rw [hvalue] at heq
                exact ⟨((hmem t').mp ht').2, heq⟩
          refine hP b' lists' top' next hs' ((hready.trans hreadied).congr hdue')
            (fun hb' t' ht' => ?_) fun hb' => (Bool.or_eq_false_iff.mp (hb hb')).1
          rcases (hdue' t').mp ht' with rfl | ht'
          · exact not_lt.mp (of_decide_eq_false (Bool.or_eq_false_iff.mp (hb hb')).2)
          · exact hbelow hb' t' ht'

/-- Nothing is left to wake in the delayed list when the tick count wraps around, and the lists
can be switched. -/
theorem taskSwitchDelayedLists_ends {P : Kernel T Q → TaskLists T Q → Prop}
    (h : k.Sound (2 ^ 32) lists)
    (hP : ∀ k' : Kernel T Q, k'.Sound 0 lists →
      (∃ v, k' = { k with
        pxDelayedTaskList := k.pxOverflowDelayedTaskList
        pxOverflowDelayedTaskList := k.pxDelayedTaskList
        xNumOfOverflows := k.xNumOfOverflows + 1
        xNextTaskUnblockTime := v }) → P k' lists) :
    (taskSwitchDelayedLists k).Ends Lists.call lists P := by
  have hempty : lists.items k.pxDelayedTaskList = [] := by
    refine List.eq_nil_iff_forall_not_mem.mpr fun i hi => ?_
    obtain ⟨t, rfl⟩ := h.exists_delayed hi
    exact absurd (h.due t hi) (Nat.not_le.mpr (lists.value (.xStateListItem t)).toNat_lt)
  refine ends_bind (listListIsEmpty_ends (h.initialised _) ?_)
  rw [hempty]
  refine ends_bind (ends_assert rfl ?_)
  refine prvResetNextTaskUnblockTime_ends 0 (fun v hv => ?_) (fun v hs => hP _ hs ⟨v, rfl⟩)
    (h.initialised _) (h.sorted _ h.isSorted_overflow)
  refine { h with
    delayed := ?_
    state_mem := fun t l ht => ?_
    due := fun t ht => Nat.zero_le _
    next := hv }
  · rcases h.delayed with ⟨h₁, h₂⟩ | ⟨h₁, h₂⟩
    · exact .inr ⟨h₂, h₁⟩
    · exact .inl ⟨h₂, h₁⟩
  · rcases h.state_mem t l ht with hl | hl | hl | hl
    · exact .inl hl
    · exact .inr (.inr (.inl hl))
    · exact .inr (.inl hl)
    · exact .inr (.inr (.inr hl))

end Functions

end CubesatPipeline
