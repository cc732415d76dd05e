import CubesatPipeline.TaskSteps

/-!
# When a task is ready

What the lists of the scheduler are for: each task is ready, or is blocked until a time, or is
suspended (`CubesatPipeline.Kernel.status`). Times are counted on from the start, in all natural
numbers (`CubesatPipeline.Kernel.now`); a wake time in the lists is only what is left of one
when the tick count wraps around, and the list that it is in tells how often it does before.

A tick makes ready the tasks that are blocked until then, and each function changes the state of
the tasks that it is about, and of no other.
-/

namespace CubesatPipeline

open Program

/-- **The state of a task.** -/
inductive TaskStatus where
  | ready
  | blocked (wake : ℕ)
  | suspended
  deriving DecidableEq

/-- What has become of a state by a time, if only time has passed. -/
def TaskStatus.after (now : ℕ) : TaskStatus → TaskStatus
  | .ready => .ready
  | .blocked wake => if wake ≤ now then .ready else .blocked wake
  | .suspended => .suspended

/-- Time passes on. -/
theorem TaskStatus.after_after {m n : ℕ} (h : m ≤ n) (s : TaskStatus) :
    (s.after m).after n = s.after n := by
  cases s with
  | ready => rfl
  | suspended => rfl
  | blocked wake =>
    by_cases hm : wake ≤ m
    · rw [after, if_pos hm, after, after, if_pos (hm.trans h)]
    · rw [after, if_neg hm]

variable {T Q : Type} [DecidableEq Q]

/-- The ticks that have been processed. -/
def Kernel.now (k : Kernel T Q) : ℕ := k.xNumOfOverflows * 2 ^ 32 + k.xTickCount.toNat

/-- **The state of a task**, by the list that its state item is in. -/
def Kernel.status (k : Kernel T Q) (lists : TaskLists T Q) (t : T) : TaskStatus :=
  let pxContainer := (lists.container (.xStateListItem t)).join
  let xItemValue := lists.value (.xStateListItem t)
  if pxContainer = some k.pxDelayedTaskList then
    .blocked (k.xNumOfOverflows * 2 ^ 32 + xItemValue.toNat)
  else if pxContainer = some k.pxOverflowDelayedTaskList then
    .blocked ((k.xNumOfOverflows + 1) * 2 ^ 32 + xItemValue.toNat)
  else if pxContainer = some .xSuspendedTaskList then .suspended
  else .ready

namespace Kernel

variable {k k' : Kernel T Q} {soon : ℕ} {lists lists' : TaskLists T Q} {t : T}

theorem status_congr (hc : lists'.container (.xStateListItem t) =
    lists.container (.xStateListItem t))
    (hv : lists'.value (.xStateListItem t) = lists.value (.xStateListItem t))
    (hd : k'.pxDelayedTaskList = k.pxDelayedTaskList)
    (ho : k'.pxOverflowDelayedTaskList = k.pxOverflowDelayedTaskList)
    (hn : k'.xNumOfOverflows = k.xNumOfOverflows) : k'.status lists' t = k.status lists t := by
  rw [status, status, hc, hv, hd, ho, hn]

theorem status_delayed
    (hc : lists.container (.xStateListItem t) = some (some k.pxDelayedTaskList)) :
    k.status lists t =
      .blocked (k.xNumOfOverflows * 2 ^ 32 + (lists.value (.xStateListItem t)).toNat) := by
  rw [status, hc]
  exact if_pos rfl

namespace Sound

theorem status_overflow (h : k.Sound soon lists)
    (hc : lists.container (.xStateListItem t) = some (some k.pxOverflowDelayedTaskList)) :
    k.status lists t =
      .blocked ((k.xNumOfOverflows + 1) * 2 ^ 32 + (lists.value (.xStateListItem t)).toNat) := by
  have hne : (some k.pxOverflowDelayedTaskList : Option (TaskList Q)) ≠
      some k.pxDelayedTaskList := fun heq => h.delayed_ne_overflow (Option.some.inj heq).symm
  rw [status, hc]
  simp [hne]

theorem status_suspended (h : k.Sound soon lists)
    (hc : lists.container (.xStateListItem t) = some (some .xSuspendedTaskList)) :
    k.status lists t = .suspended := by
  obtain ⟨h₁, h₂⟩ := h.delayed_ne (l := .xSuspendedTaskList) ⟨nofun, nofun⟩
  rw [status, hc]
  simp [h₁, h₂]

theorem status_ready (h : k.Sound soon lists) {p : Fin configMaxPriorities}
    (hc : lists.container (.xStateListItem t) = some (some (.pxReadyTasksLists p))) :
    k.status lists t = .ready := by
  obtain ⟨h₁, h₂⟩ := h.delayed_ne (l := .pxReadyTasksLists p) ⟨nofun, nofun⟩
  rw [status, hc]
  simp [h₁, h₂]

/-- A task in no delayed list does not wait for a time. -/
theorem after_of_not_delayed (h : k.Sound soon lists) {n : ℕ}
    (hcur : lists.container (.xStateListItem t) ≠ some (some k.pxDelayedTaskList))
    (hovf : lists.container (.xStateListItem t) ≠ some (some k.pxOverflowDelayedTaskList)) :
    (k.status lists t).after n = k.status lists t := by
  obtain ⟨c, hc⟩ := h.registered (.xStateListItem t)
  rw [hc] at hcur hovf
  rw [status, hc]
  simp only [Option.join_some]
  rw [if_neg fun heq => hcur (congrArg some heq), if_neg fun heq => hovf (congrArg some heq)]
  split <;> rfl

/-- **What a tick does to the state of a task**, once the tick count is written: the tasks that
are due are made ready. -/
theorem status_readied_due [DecidableEq T] (h : k.Sound k.xTickCount.toNat lists)
    (h' : k'.Sound (k.xTickCount.toNat + 1) lists')
    (hd : k'.pxDelayedTaskList = k.pxDelayedTaskList)
    (ho : k'.pxOverflowDelayedTaskList = k.pxOverflowDelayedTaskList)
    (hn : k'.xNumOfOverflows = k.xNumOfOverflows)
    (hreadied : Readied k.uxPriority (k.Due lists) lists lists') :
    k'.status lists' t = (k.status lists t).after k.now := by
  by_cases hdue : k.Due lists t
  · rw [h'.status_ready (hreadied.state t hdue),
      status_delayed ((h.wf.container_iff _ _).mpr hdue.1), hdue.2, TaskStatus.after]
    exact (if_pos le_rfl).symm
  · have hsame : k'.status lists' t = k.status lists t :=
      status_congr (hreadied.state_of_not t hdue) (congrFun hreadied.value _) hd ho hn
    rw [hsame]
    have htick := k.xTickCount.toNat_lt
    by_cases hcur : lists.container (.xStateListItem t) = some (some k.pxDelayedTaskList)
    · have hmem := (h.wf.container_iff _ _).mp hcur
      have hle := h.due t hmem
      have hne : (lists.value (.xStateListItem t)).toNat ≠ k.xTickCount.toNat := fun heq =>
        hdue ⟨hmem, UInt32.toNat_inj.mp heq⟩
      rw [status_delayed hcur, TaskStatus.after, if_neg]
      rw [now]
      omega
    · by_cases hovf : lists.container (.xStateListItem t) = some (some k.pxOverflowDelayedTaskList)
      · rw [h.status_overflow hovf, TaskStatus.after, if_neg]
        rw [now]
        omega
      · exact (h.after_of_not_delayed hcur hovf).symm

/-- Between two ticks no task is blocked until a time that has passed. -/
theorem status_after (h : k.Sound (k.xTickCount.toNat + 1) lists) :
    (k.status lists t).after k.now = k.status lists t := by
  have htick := k.xTickCount.toNat_lt
  by_cases hcur : lists.container (.xStateListItem t) = some (some k.pxDelayedTaskList)
  · have hle := h.due t ((h.wf.container_iff _ _).mp hcur)
    rw [status_delayed hcur, TaskStatus.after, if_neg]
    rw [now]
    omega
  · by_cases hovf : lists.container (.xStateListItem t) = some (some k.pxOverflowDelayedTaskList)
    · rw [h.status_overflow hovf, TaskStatus.after, if_neg]
      rw [now]
      omega
    · exact h.after_of_not_delayed hcur hovf

end Sound

end Kernel

/-! ### A tick -/

section Tick

variable [DecidableEq T] {k : Kernel T Q} {lists : TaskLists T Q}

/-- The tick count is written, and the lists are switched when it wraps around. No time of
waking changes with it. -/
theorem advance_ends {P : Kernel T Q → TaskLists T Q → Prop}
    (h : k.Sound (k.xTickCount.toNat + 1) lists)
    (hP : ∀ k' : Kernel T Q, k'.Sound k'.xTickCount.toNat lists → k.Frame k' →
      k'.now = k.now + 1 → k'.xYieldPendings = k.xYieldPendings →
      (∀ t, k'.status lists t = k.status lists t) → P k' lists) :
    (if k.xTickCount + 1 = 0 then
        taskSwitchDelayedLists { k with xTickCount := k.xTickCount + 1 }
      else pure { k with xTickCount := k.xTickCount + 1 } :
        TaskProgram T Q (Kernel T Q)).Ends Lists.call lists P := by
  have htick := k.xTickCount.toNat_lt
  have hadd : (k.xTickCount + 1).toNat = (k.xTickCount.toNat + 1) % 2 ^ 32 :=
    UInt32.toNat_add _ _
  split
  next hzero =>
    -- the count wraps around, and what was to come after that is now to come
    have htoNat : (k.xTickCount + 1).toNat = 0 := by
      rw [hzero]
      rfl
    have hmax : k.xTickCount.toNat + 1 = 2 ^ 32 := by omega
    have h₁ : { k with xTickCount := k.xTickCount + 1 }.Sound (2 ^ 32) lists := by
      rw [← hmax]
      exact { h with }
    refine taskSwitchDelayedLists_ends h₁ fun k' hs hk' => ?_
    obtain ⟨v, rfl⟩ := hk'
    refine hP _ (by dsimp only; rw [htoNat]; exact hs) ⟨rfl, rfl, rfl, rfl⟩ ?_ rfl fun t => ?_
    · simp only [Kernel.now, htoNat]
      omega
    · have hne : lists.container (.xStateListItem t) ≠ some (some k.pxDelayedTaskList) := by
        intro hc
        have hle := h.due t ((h.wf.container_iff _ _).mp hc)
        have hlt := (lists.value (.xStateListItem t)).toNat_lt
        omega
      have hjoin : (lists.container (.xStateListItem t)).join ≠ some k.pxDelayedTaskList :=
        fun heq => hne (Option.join_eq_some_iff.mp heq)
      simp only [Kernel.status]
      rw [if_neg hjoin, if_neg hjoin]
  next hpos =>
    have hlt : (k.xTickCount + 1).toNat = k.xTickCount.toNat + 1 := by
      have hne : (k.xTickCount + 1).toNat ≠ 0 := fun heq =>
        hpos (UInt32.toNat_inj.mp (heq.trans UInt32.toNat_zero.symm))
      omega
    refine ends_pure (hP _ (by dsimp only; rw [hlt]; exact { h with }) ⟨rfl, rfl, rfl, rfl⟩ ?_
      rfl fun t => rfl)
    simp only [Kernel.now, hlt]
    omega

/-- **Tasks that were not ready have been made ready**, and unless a switch is asked for none of
them comes before the current task. -/
structure Woken (k : Kernel T Q) (W : T → Prop) (quiet : Prop) (lists lists' : TaskLists T Q) :
    Prop extends Readied k.uxPriority W lists lists' where
  not_ready : ∀ t, W t → k.status lists t ≠ .ready
  quiet : quiet → ∀ t, W t → k.uxPriority t ≤ k.uxPriority k.pxCurrentTCB

/-- Some tasks are woken, and then others. -/
theorem Woken.trans {k₁ : Kernel T Q} {W W' : T → Prop} {quiet quiet' : Prop}
    {lists₁ lists₂ : TaskLists T Q} (h : Woken k W quiet lists lists₁)
    (h' : Woken k₁ W' quiet' lists₁ lists₂) (hpriority : k₁.uxPriority = k.uxPriority)
    (hcurrent : k₁.pxCurrentTCB = k.pxCurrentTCB)
    (hstay : ∀ t, k.status lists t = .ready → k₁.status lists₁ t = .ready)
    (hquiet : quiet' → quiet) : ∃ W'', (∀ t, W t → W'' t) ∧ Woken k W'' quiet' lists lists₂ := by
  refine ⟨_, fun t => .inl, h.toReadied.trans (hpriority ▸ h'.toReadied),
    fun t ht heq => ?_, fun hq t ht => ?_⟩
  · rcases ht with ht | ht
    · exact h.not_ready t ht heq
    · exact h'.not_ready t ht (hstay t heq)
  · rcases ht with ht | ht
    · exact h.quiet (hquiet hq) t ht
    · rw [← hpriority, ← hcurrent]
      exact h'.quiet hq t ht

/-- **What a tick does**, when the scheduler is not suspended. -/
theorem xTaskIncrementTick_ends {P : Bool × Kernel T Q → TaskLists T Q → Prop}
    (hsuspended : k.uxSchedulerSuspended = 0) (h : k.Sound (k.xTickCount.toNat + 1) lists)
    (hP : ∀ b k' lists', k'.Sound (k'.xTickCount.toNat + 1) lists' → k.Frame k' →
      k'.now = k.now + 1 → k'.xYieldPendings = k.xYieldPendings →
      (∃ W, Woken k W (b = false) lists lists') → (b = false → k.xYieldPendings = false) →
      (∀ t, k'.status lists' t = (k.status lists t).after k'.now) → P (b, k') lists') :
    (xTaskIncrementTick k).Ends Lists.call lists P := by
  rw [xTaskIncrementTick, if_pos hsuspended]
  refine ends_bind (advance_ends h fun k₁ h₁ hframe hnow hyield hstatus => ?_)
  refine ends_bind (listCurrentListLength_ends (h₁.initialised _) ?_)
  refine ends_bind ?_
  -- the tasks that are due have been made ready, by the loop or because there are none
  suffices hloop : ∀ b' lists' top next,
      { k₁ with uxTopReadyPriority := top, xNextTaskUnblockTime := next }.Sound
        (k₁.xTickCount.toNat + 1) lists' → Readied k₁.uxPriority (k₁.Due lists) lists lists' →
      (b' = false → ∀ t, k₁.Due lists t → k₁.uxPriority t ≤ k₁.uxPriority k₁.pxCurrentTCB) →
      Program.Ends Lists.call (do
        let uxReady ← listCurrentListLength (.pxReadyTasksLists (k₁.uxPriority k₁.pxCurrentTCB))
        return (b' || decide (1 < uxReady) || k₁.xYieldPendings,
          { k₁ with uxTopReadyPriority := top, xNextTaskUnblockTime := next })) lists' P by
    split
    next hnext =>
      exact unblockTasks_ends h₁ (Nat.lt_succ_self _)
        fun b' lists' top next hs hreadied hquiet _ => hloop b' lists' top next hs hreadied hquiet
    next hnext =>
      have hlt : ∀ t, .xStateListItem t ∈ lists.items k₁.pxDelayedTaskList →
          k₁.xTickCount.toNat < (lists.value (.xStateListItem t)).toNat := fun t ht =>
        (UInt32.lt_iff_toNat_lt.mp (UInt32.not_le.mp hnext)).trans_le
          (UInt32.le_iff_toNat_le.mp (h₁.next t ht))
      have hno : ∀ t, ¬ k₁.Due lists t := fun t ht => by
        have hlt' := hlt t ht.1
        rw [ht.2] at hlt'
        exact lt_irrefl _ hlt'
      exact ends_pure (hloop false lists k₁.uxTopReadyPriority k₁.xNextTaskUnblockTime
        { h₁ with due := hlt } (.refl hno) fun _ t ht => absurd ht (hno t))
  intro b' lists' top next hs hreadied hquiet
  refine ends_bind (listCurrentListLength_ends (hs.initialised _) (ends_pure ?_))
  refine hP _ _ lists' hs ⟨hframe.1, hframe.2, hframe.3, hframe.4⟩ hnow hyield
    ⟨k₁.Due lists, hframe.priority ▸ hreadied, fun t ht heq => ?_, fun hb t ht => ?_⟩
    (fun hb => ?_) fun t => ?_
  · rw [← hstatus t, Kernel.status_delayed ((h.wf.container_iff _ _).mpr ht.1)] at heq
    cases heq
  · rw [← hframe.priority, ← hframe.current]
    exact hquiet (Bool.or_eq_false_iff.mp (Bool.or_eq_false_iff.mp hb).1).1 t ht
  · rw [← hyield]
    exact (Bool.or_eq_false_iff.mp hb).2
  · rw [← hstatus t]
    exact h₁.status_readied_due hs rfl rfl rfl hreadied

end Tick

/-! ### Blocking -/

section Block

variable [DecidableEq T] {k : Kernel T Q} {lists lists₁ : TaskLists T Q}

/-- **Only the current task has been moved**, and of it only the state item. -/
structure MovedCurrent (k : Kernel T Q) (lists lists' : TaskLists T Q) : Prop where
  state : ∀ t, t ≠ k.pxCurrentTCB → lists'.container (.xStateListItem t) =
    lists.container (.xStateListItem t)
  event : ∀ t, lists'.container (.xEventListItem t) = lists.container (.xEventListItem t)
  value : ∀ t, t ≠ k.pxCurrentTCB → lists'.value (.xStateListItem t) =
    lists.value (.xStateListItem t)
  wait_le : ∀ n t p, t ≠ k.pxCurrentTCB →
    lists'.wait n (.pxReadyTasksLists p) (.xStateListItem t) ≤
      lists.wait n (.pxReadyTasksLists p) (.xStateListItem t)

section Moved

variable {lists' : TaskLists T Q} {l : TaskList Q}

omit [DecidableEq Q] in
theorem movedCurrent_without (h : lists.Without (.xStateListItem k.pxCurrentTCB) lists') :
    MovedCurrent k lists lists' := by
  refine ⟨fun t ht => ?_, fun t => ?_, fun t _ => congrFun h.value _, fun n t p ht => ?_⟩
  · rw [h.container, if_neg fun heq => ht (TaskItem.xStateListItem.inj heq)]
  · rw [h.container, if_neg nofun]
  · exact h.wait_le (fun heq => ht (TaskItem.xStateListItem.inj heq).symm) n

omit [DecidableEq Q] in
theorem MovedCurrent.setValue (h : MovedCurrent k lists lists₁) (v : TickType) :
    MovedCurrent k lists { lists₁ with
      value := Function.update lists₁.value (.xStateListItem k.pxCurrentTCB) v } := by
  refine ⟨h.state, h.event, fun t ht => ?_, h.wait_le⟩
  have hne : TaskItem.xStateListItem t ≠ .xStateListItem k.pxCurrentTCB := fun heq =>
    ht (TaskItem.xStateListItem.inj heq)
  exact (Function.update_of_ne hne ..).trans (h.value t ht)

omit [DecidableEq Q] in
theorem MovedCurrent.enter (h : MovedCurrent k lists lists₁)
    (hin : lists₁.With (.xStateListItem k.pxCurrentTCB) l lists')
    (hl : ∀ p, l ≠ .pxReadyTasksLists p) : MovedCurrent k lists lists' := by
  refine ⟨fun t ht => ?_, fun t => ?_, fun t ht => ?_, fun n t p ht => ?_⟩
  · rw [hin.container, if_neg fun heq => ht (TaskItem.xStateListItem.inj heq)]
    exact h.state t ht
  · rw [hin.container, if_neg nofun]
    exact h.event t
  · rw [hin.value]
    exact h.value t ht
  · rw [Lists.wait, hin.rota _ (hl p).symm]
    exact h.wait_le n t p ht

end Moved

/-- A sum that wraps around. -/
theorem toNat_add_of_lt {a b : TickType} (h : a + b < a) :
    2 ^ 32 + (a + b).toNat = a.toNat + b.toNat := by
  have hadd : (a + b).toNat = (a.toNat + b.toNat) % 2 ^ 32 := UInt32.toNat_add a b
  have hlt := UInt32.lt_iff_toNat_lt.mp h
  have ha := a.toNat_lt
  have hb := b.toNat_lt
  omega

/-- A sum that does not. -/
theorem toNat_add_of_not_lt {a b : TickType} (h : ¬ a + b < a) :
    (a + b).toNat = a.toNat + b.toNat := by
  have hadd : (a + b).toNat = (a.toNat + b.toNat) % 2 ^ 32 := UInt32.toNat_add a b
  have hle := UInt32.le_iff_toNat_le.mp (UInt32.not_lt.mp h)
  have ha := a.toNat_lt
  have hb := b.toNat_lt
  omega

/-- What becomes of a task that blocks. -/
def TaskStatus.blocking (now : ℕ) (xTicksToWait : TickType) (xCanBlockIndefinitely : Bool) :
    TaskStatus :=
  if xTicksToWait = portMaxDelay ∧ xCanBlockIndefinitely then .suspended
  else .blocked (now + xTicksToWait.toNat)

/-- **What blocking does**: the current task is in its new state and waits for `event`, and the
other tasks are as they were. -/
structure Blocked (k : Kernel T Q) (lists : TaskLists T Q) (status : TaskStatus)
    (event : Option (Option (TaskList Q))) (k' : Kernel T Q) (lists' : TaskLists T Q) : Prop where
  sound : k'.Sound (k'.xTickCount.toNat + 1) lists'
  frame : k.Frame k'
  now : k'.now = k.now
  state : ∀ t, t ≠ k.pxCurrentTCB → lists'.container (.xStateListItem t) =
    lists.container (.xStateListItem t)
  event_others : ∀ t, t ≠ k.pxCurrentTCB → lists'.container (.xEventListItem t) =
    lists.container (.xEventListItem t)
  event_current : lists'.container (.xEventListItem k.pxCurrentTCB) = event
  placed : ∃ l, lists'.container (.xStateListItem k.pxCurrentTCB) = some (some l)
  current : k'.status lists' k.pxCurrentTCB = status
  others : ∀ t, t ≠ k.pxCurrentTCB → k'.status lists' t = k.status lists t
  wait_le : ∀ n t p, t ≠ k.pxCurrentTCB →
    lists'.wait n (.pxReadyTasksLists p) (.xStateListItem t) ≤
      lists.wait n (.pxReadyTasksLists p) (.xStateListItem t)

/-- The state item of the current task has been put where it belongs. -/
theorem blocked_of_enter {status : TaskStatus} {k' : Kernel T Q} {lists' : TaskLists T Q}
    {l : TaskList Q} (hmoved : MovedCurrent k lists lists₁)
    (hin : lists₁.With (.xStateListItem k.pxCurrentTCB) l lists')
    (hl : ∀ p, l ≠ .pxReadyTasksLists p)
    (hsound : k'.Sound (k'.xTickCount.toNat + 1) lists')
    (hk' : ∃ next aborted, k' = { k with
      xNextTaskUnblockTime := next, ucDelayAborted := aborted })
    (hstatus : lists'.container (.xStateListItem k.pxCurrentTCB) = some (some l) →
      k'.status lists' k.pxCurrentTCB = status) :
    Blocked k lists status (lists.container (.xEventListItem k.pxCurrentTCB)) k' lists' := by
  have hcontainer : lists'.container (.xStateListItem k.pxCurrentTCB) = some (some l) := by
    rw [hin.container, if_pos rfl]
  have hmoved' := hmoved.enter hin hl
  obtain ⟨next, aborted, rfl⟩ := hk'
  exact ⟨hsound, ⟨rfl, rfl, rfl, rfl⟩, rfl, hmoved'.state, fun t _ => hmoved'.event t,
    hmoved'.event _, ⟨l, hcontainer⟩, hstatus hcontainer,
    fun t ht => Kernel.status_congr (hmoved'.state t ht) (hmoved'.value t ht) rfl rfl rfl,
    hmoved'.wait_le⟩

/-- **The current task blocks**, for some ticks or for ever. -/
theorem prvAddCurrentTaskToDelayedList_ends {P : Kernel T Q → TaskLists T Q → Prop}
    {xTicksToWait : TickType} {xCanBlockIndefinitely : Bool} {l : TaskList Q}
    (h : k.Sound (k.xTickCount.toNat + 1) lists)
    (hcurrent : .xStateListItem k.pxCurrentTCB ∈ lists.items l) (hwait : xTicksToWait ≠ 0)
    (hP : ∀ k' lists', Blocked k lists (.blocking k.now xTicksToWait xCanBlockIndefinitely)
      (lists.container (.xEventListItem k.pxCurrentTCB)) k' lists' → P k' lists') :
    (prvAddCurrentTaskToDelayedList k xTicksToWait xCanBlockIndefinitely).Ends Lists.call lists
      P := by
  rw [prvAddCurrentTaskToDelayedList]
  set aborted := Function.update k.ucDelayAborted k.pxCurrentTCB false
  have h₀ : { k with ucDelayAborted := aborted }.Sound (k.xTickCount.toNat + 1) lists :=
    { h with }
  refine ends_bind (listRemoveItem_ends h.wf hcurrent fun lists₁ h₁ => ?_)
  have hs₁ := h₀.without h₁
  have hmoved : MovedCurrent k lists lists₁ := movedCurrent_without h₁
  have hfree : lists₁.container (.xStateListItem k.pxCurrentTCB) = some none := by
    rw [h₁.container, if_pos rfl]
  split
  next hforever =>
    refine ends_bind (vListInsertEnd_ends hs₁.wf (hs₁.initialised _) hfree fun lists₂ h₂ _ =>
      ends_pure (hP _ lists₂ ?_))
    have hs₂ := hs₁.enter h₂ (fun _ _ => .inr (.inr (.inr rfl))) (fun _ heq => by cases heq)
      (fun hl => hl.elim)
      (fun _ _ hl => absurd hl (hs₁.delayed_ne (l := .xSuspendedTaskList) ⟨nofun, nofun⟩).1)
      (fun _ hl => by cases hl)
    refine blocked_of_enter hmoved h₂ nofun hs₂ ⟨_, _, rfl⟩ fun hin => ?_
    rw [hs₂.status_suspended hin, TaskStatus.blocking, if_pos hforever]
  next hticks =>
    refine ends_bind (listSetListItemValue_ends ?_)
    have hs₂ := hs₁.setValue hfree (k.xTickCount + xTicksToWait)
    have hmoved₂ := hmoved.setValue (k.xTickCount + xTicksToWait)
    set lists₂ : TaskLists T Q := { lists₁ with
      value := Function.update lists₁.value (.xStateListItem k.pxCurrentTCB)
        (k.xTickCount + xTicksToWait) }
    have hvalue : lists₂.value (.xStateListItem k.pxCurrentTCB) = k.xTickCount + xTicksToWait :=
      Function.update_self ..
    have hfree₂ : lists₂.container (.xStateListItem k.pxCurrentTCB) = some none := hfree
    have hpos : xTicksToWait.toNat ≠ 0 := fun heq =>
      hwait (UInt32.toNat_inj.mp (heq.trans UInt32.toNat_zero.symm))
    split
    next hwrap =>
      -- the wake time is after the next wrap
      have hsum : 2 ^ 32 + (k.xTickCount + xTicksToWait).toNat =
          k.xTickCount.toNat + xTicksToWait.toNat := toNat_add_of_lt hwrap
      refine ends_bind (vListInsert_ends hs₂.wf (hs₂.initialised _) hfree₂
        (hs₂.sorted _ hs₂.isSorted_overflow) fun lists₃ h₃ hsorted =>
          ends_pure (hP _ lists₃ ?_))
      have hne : ∀ p, k.pxOverflowDelayedTaskList ≠ .pxReadyTasksLists p := fun p =>
        (hs₂.delayed_ne (l := .pxReadyTasksLists p) ⟨nofun, nofun⟩).2.symm
      have hs₃ := hs₂.enter h₃ (fun _ _ => .inr (.inr (.inl rfl))) (fun _ heq => by cases heq)
        (fun _ => h₃.value ▸ hsorted) (fun _ _ hl => absurd hl.symm hs₂.delayed_ne_overflow)
        (fun p hl => absurd hl (hne p))
      refine blocked_of_enter hmoved₂ h₃ hne hs₃ ⟨_, _, rfl⟩ fun hin => ?_
      refine (hs₃.status_overflow hin).trans ?_
      rw [TaskStatus.blocking, if_neg hticks, h₃.value, hvalue, Kernel.now, Nat.add_mul,
        Nat.one_mul, Nat.add_assoc, Nat.add_assoc, hsum]
    next hnowrap =>
      have hsum : (k.xTickCount + xTicksToWait).toNat =
          k.xTickCount.toNat + xTicksToWait.toNat := toNat_add_of_not_lt hnowrap
      refine ends_bind (vListInsert_ends hs₂.wf (hs₂.initialised _) hfree₂
        (hs₂.sorted _ hs₂.isSorted_delayed) fun lists₃ h₃ hsorted => ends_pure ?_)
      obtain ⟨next, hnext, hle, hle'⟩ : ∃ next : TickType,
          (if k.xTickCount + xTicksToWait < k.xNextTaskUnblockTime then
            { k with
              xNextTaskUnblockTime := k.xTickCount + xTicksToWait, ucDelayAborted := aborted }
          else { k with ucDelayAborted := aborted }) =
            { k with xNextTaskUnblockTime := next, ucDelayAborted := aborted } ∧
          next ≤ k.xTickCount + xTicksToWait ∧ next ≤ k.xNextTaskUnblockTime := by
        split
        next hlt => exact ⟨_, rfl, UInt32.le_refl _, UInt32.le_of_lt hlt⟩
        next hge => exact ⟨k.xNextTaskUnblockTime, rfl, UInt32.not_lt.mp hge, UInt32.le_refl _⟩
      have hs₂' : { k with xNextTaskUnblockTime := next, ucDelayAborted := aborted }.Sound
          (k.xTickCount.toNat + 1) lists₂ :=
        hs₂.mono le_rfl rfl rfl rfl (fun t ht => UInt32.le_trans hle' (hs₂.next t ht)) le_rfl
      have hne : ∀ p, k.pxDelayedTaskList ≠ .pxReadyTasksLists p := fun p =>
        (hs₂.delayed_ne (l := .pxReadyTasksLists p) ⟨nofun, nofun⟩).1.symm
      have hs₃ := hs₂'.enter h₃ (fun _ _ => .inr (.inl rfl)) (fun _ heq => by cases heq)
        (fun _ => h₃.value ▸ hsorted)
        (fun _ _ _ => ⟨by rw [hvalue, hsum]; omega, by rw [hvalue]; exact hle⟩)
        (fun p hl => absurd hl (hne p))
      dsimp only
      rw [hnext]
      refine hP _ lists₃ (blocked_of_enter hmoved₂ h₃ hne hs₃ ⟨_, _, rfl⟩ fun hin => ?_)
      refine (Kernel.status_delayed hin).trans ?_
      rw [TaskStatus.blocking, if_neg hticks, h₃.value, hvalue, hsum, Kernel.now, Nat.add_assoc]

end Block

end CubesatPipeline
