import CubesatPipeline.Rota
import CubesatPipeline.TaskCode

/-!
# What the scheduler keeps

`CubesatPipeline.Kernel.Sound` says which lists the items of the tasks can be in, that the
lists are in order, and that `xNextTaskUnblockTime` and `uxTopReadyPriority` are bounds for what
they stand for. It does not say that a task is in any list: while a task is being moved its
items are in none, and the rest holds all the same. So it is kept by each call that the
functions of the scheduler make, and from that by each function.

`soon` is the least tick count that a task in the current delayed list can wake at: between
two ticks it is one more than the tick count, and while a tick is processed the tick count
itself.
-/

namespace CubesatPipeline

open Program

/-- The lists of tasks. -/
abbrev TaskLists (T Q : Type) : Type := Lists (TaskItem T) (TaskList Q) T

/-- The value of the event item of a task: the higher the priority, the lower. -/
def eventItemValue (uxPriority : Fin configMaxPriorities) : TickType :=
  UInt32.ofNat (configMaxPriorities - uxPriority)

/-- The lists that are kept in order. -/
def TaskList.IsSorted {Q : Type} : TaskList Q → Prop
  | .xDelayedTaskList1 | .xDelayedTaskList2 | .pxEventList _ => True
  | _ => False

variable {T Q : Type}

/-- **What the scheduler keeps.** -/
structure Kernel.Sound (k : Kernel T Q) (soon : ℕ) (lists : TaskLists T Q) : Prop where
  wf : lists.WF
  registered : ∀ i, ∃ c, lists.container i = some c
  initialised : ∀ l, (lists.rota l).isSome
  stateOwner : ∀ t, lists.owner (.xStateListItem t) = t
  eventOwner : ∀ t, lists.owner (.xEventListItem t) = t
  delayed : k.pxDelayedTaskList = .xDelayedTaskList1 ∧
      k.pxOverflowDelayedTaskList = .xDelayedTaskList2 ∨
    k.pxDelayedTaskList = .xDelayedTaskList2 ∧ k.pxOverflowDelayedTaskList = .xDelayedTaskList1
  state_mem : ∀ t l, .xStateListItem t ∈ lists.items l →
    l = .pxReadyTasksLists (k.uxPriority t) ∨ l = k.pxDelayedTaskList ∨
      l = k.pxOverflowDelayedTaskList ∨ l = .xSuspendedTaskList
  event_mem : ∀ t l, .xEventListItem t ∈ lists.items l →
    l = .xPendingReadyList ∨ ∃ q, l = .pxEventList q
  eventValue : ∀ t, lists.value (.xEventListItem t) = eventItemValue (k.uxPriority t)
  sorted : ∀ l, l.IsSorted → (lists.items l).Pairwise fun i j => lists.value i ≤ lists.value j
  due : ∀ t, .xStateListItem t ∈ lists.items k.pxDelayedTaskList →
    soon ≤ (lists.value (.xStateListItem t)).toNat
  next : ∀ t, .xStateListItem t ∈ lists.items k.pxDelayedTaskList →
    k.xNextTaskUnblockTime ≤ lists.value (.xStateListItem t)
  top : ∀ p t, .xStateListItem t ∈ lists.items (.pxReadyTasksLists p) →
    p ≤ k.uxTopReadyPriority

/-- What the passing of time leaves alone. -/
structure Kernel.Frame (k k' : Kernel T Q) : Prop where
  current : k'.pxCurrentTCB = k.pxCurrentTCB
  priority : k'.uxPriority = k.uxPriority
  suspended : k'.uxSchedulerSuspended = k.uxSchedulerSuspended
  pended : k'.xPendedTicks = k.xPendedTicks

theorem Kernel.Frame.trans {k k' k'' : Kernel T Q} (h : k.Frame k') (h' : k'.Frame k'') :
    k.Frame k'' :=
  ⟨h'.current.trans h.current, h'.priority.trans h.priority, h'.suspended.trans h.suspended,
    h'.pended.trans h.pended⟩

namespace Kernel.Sound

variable {k k' : Kernel T Q} {soon soon' : ℕ} {lists lists' : TaskLists T Q} {t : T}
  {i : TaskItem T} {l : TaskList Q}

/-- The current delayed list is one of the two. -/
theorem isSorted_delayed (h : k.Sound soon lists) : k.pxDelayedTaskList.IsSorted := by
  rcases h.delayed with ⟨h, -⟩ | ⟨h, -⟩ <;> rw [h] <;> trivial

theorem isSorted_overflow (h : k.Sound soon lists) : k.pxOverflowDelayedTaskList.IsSorted := by
  rcases h.delayed with ⟨-, h⟩ | ⟨-, h⟩ <;> rw [h] <;> trivial

theorem delayed_ne_overflow (h : k.Sound soon lists) :
    k.pxDelayedTaskList ≠ k.pxOverflowDelayedTaskList := by
  rcases h.delayed with ⟨h₁, h₂⟩ | ⟨h₁, h₂⟩ <;> rw [h₁, h₂] <;> exact nofun

/-- A delayed list is no other list. -/
theorem delayed_ne (h : k.Sound soon lists) {l : TaskList Q}
    (hl : l ≠ .xDelayedTaskList1 ∧ l ≠ .xDelayedTaskList2) :
    l ≠ k.pxDelayedTaskList ∧ l ≠ k.pxOverflowDelayedTaskList := by
  rcases h.delayed with ⟨h₁, h₂⟩ | ⟨h₁, h₂⟩ <;> rw [h₁, h₂]
  · exact hl
  · exact hl.symm

/-- Only the state items of tasks are in the lists that tell their state. -/
theorem exists_state (h : k.Sound soon lists) (hi : i ∈ lists.items l)
    (hp : l ≠ .xPendingReadyList) (hq : ∀ q, l ≠ .pxEventList q) :
    ∃ t, i = .xStateListItem t := by
  cases i with
  | xStateListItem t => exact ⟨t, rfl⟩
  | xEventListItem t =>
    rcases h.event_mem t l hi with hl | ⟨q, hl⟩
    · exact absurd hl hp
    · exact absurd hl (hq q)

/-- The current delayed list is a list of state items. -/
theorem exists_delayed (h : k.Sound soon lists) (hi : i ∈ lists.items k.pxDelayedTaskList) :
    ∃ t, i = .xStateListItem t := by
  refine h.exists_state hi (h.delayed_ne (l := .xPendingReadyList) ⟨nofun, nofun⟩).1.symm
    fun q => ?_
  exact (h.delayed_ne (l := .pxEventList q) ⟨nofun, nofun⟩).1.symm

/-- Only the event items of tasks are in the lists of what is waited for. -/
theorem exists_event (h : k.Sound soon lists) (hi : i ∈ lists.items l)
    (hl : l = .xPendingReadyList ∨ ∃ q, l = .pxEventList q) : ∃ t, i = .xEventListItem t := by
  cases i with
  | xEventListItem t => exact ⟨t, rfl⟩
  | xStateListItem t =>
    exfalso
    have hdelayed := h.delayed
    have hmem := h.state_mem t l hi
    rcases hl with rfl | ⟨q, rfl⟩ <;> rcases hdelayed with ⟨h₁, h₂⟩ | ⟨h₁, h₂⟩ <;>
      rw [h₁, h₂] at hmem <;> simp at hmem

/-- A weaker bound, and other variables. -/
theorem mono (h : k.Sound soon lists) (hsoon : soon' ≤ soon)
    (hdelayed : k'.pxDelayedTaskList = k.pxDelayedTaskList)
    (hoverflow : k'.pxOverflowDelayedTaskList = k.pxOverflowDelayedTaskList)
    (hpriority : k'.uxPriority = k.uxPriority)
    (hnext : ∀ t, .xStateListItem t ∈ lists.items k.pxDelayedTaskList →
      k'.xNextTaskUnblockTime ≤ lists.value (.xStateListItem t))
    (htop : k.uxTopReadyPriority ≤ k'.uxTopReadyPriority) : k'.Sound soon' lists where
  wf := h.wf
  registered := h.registered
  initialised := h.initialised
  stateOwner := h.stateOwner
  eventOwner := h.eventOwner
  delayed := by rw [hdelayed, hoverflow]; exact h.delayed
  state_mem := by rw [hdelayed, hoverflow, hpriority]; exact h.state_mem
  event_mem := h.event_mem
  eventValue := by rw [hpriority]; exact h.eventValue
  sorted := h.sorted
  due := by rw [hdelayed]; exact fun t ht => hsoon.trans (h.due t ht)
  next := by rw [hdelayed]; exact hnext
  top := fun p t ht => (h.top p t ht).trans htop

variable [DecidableEq T]

/-- An item can be taken out. -/
theorem without (h : k.Sound soon lists) (hout : lists.Without i lists') :
    k.Sound soon lists' where
  wf := hout.wf
  registered j := by
    rw [hout.container j]
    split
    · exact ⟨none, rfl⟩
    · exact h.registered j
  initialised l := by rw [hout.initialised l]; exact h.initialised l
  stateOwner := by rw [hout.owner]; exact h.stateOwner
  eventOwner := by rw [hout.owner]; exact h.eventOwner
  delayed := h.delayed
  state_mem t l ht := h.state_mem t l ((hout.mem_iff h.wf).mp ht).2
  event_mem t l ht := h.event_mem t l ((hout.mem_iff h.wf).mp ht).2
  eventValue := by rw [hout.value]; exact h.eventValue
  sorted l hl := by
    rw [hout.value, hout.items l]
    exact (h.sorted l hl).sublist List.erase_sublist
  due t ht := by rw [hout.value]; exact h.due t ((hout.mem_iff h.wf).mp ht).2
  next t ht := by rw [hout.value]; exact h.next t ((hout.mem_iff h.wf).mp ht).2
  top p t ht := h.top p t ((hout.mem_iff h.wf).mp ht).2

/-- The value of a state item can be written while it is in no list. -/
theorem setValue (h : k.Sound soon lists) (ht : lists.container (.xStateListItem t) = some none)
    (v : TickType) : k.Sound soon
      { lists with value := Function.update lists.value (.xStateListItem t) v } := by
  have hno : ∀ l, .xStateListItem t ∉ lists.items l := fun l hmem => by
    cases ht.symm.trans ((h.wf.container_iff _ l).mpr hmem)
  have hvalue : ∀ l, ∀ j ∈ lists.items l,
      Function.update lists.value (.xStateListItem t) v j = lists.value j := by
    intro l j hj
    refine Function.update_of_ne ?_ ..
    rintro rfl
    exact hno l hj
  refine { h with
    wf := ⟨h.wf.1, h.wf.2⟩
    eventValue := fun t' => ?_
    sorted := fun l hl => ?_
    due := fun t' ht' => ?_
    next := fun t' ht' => ?_ }
  · have hne : TaskItem.xEventListItem t' ≠ .xStateListItem t := nofun
    exact (Function.update_of_ne hne v lists.value).trans (h.eventValue t')
  · refine (h.sorted l hl).imp_of_mem fun {a b} ha hb hab => ?_
    dsimp only
    rwa [hvalue l a ha, hvalue l b hb]
  · dsimp only
    rw [hvalue _ _ ht']
    exact h.due t' ht'
  · dsimp only
    rw [hvalue _ _ ht']
    exact h.next t' ht'

variable [DecidableEq Q]

/-- An item can be put in where it belongs. -/
theorem enter (h : k.Sound soon lists) (hin : lists.With i l lists')
    (hstate : ∀ t, i = .xStateListItem t → l = .pxReadyTasksLists (k.uxPriority t) ∨
      l = k.pxDelayedTaskList ∨ l = k.pxOverflowDelayedTaskList ∨ l = .xSuspendedTaskList)
    (hevent : ∀ t, i = .xEventListItem t → l = .xPendingReadyList ∨ ∃ q, l = .pxEventList q)
    (hsorted : l.IsSorted → (lists'.items l).Pairwise fun a b => lists.value a ≤ lists.value b)
    (hdue : ∀ t, i = .xStateListItem t → l = k.pxDelayedTaskList →
      soon ≤ (lists.value i).toNat ∧ k.xNextTaskUnblockTime ≤ lists.value i)
    (htop : ∀ p, l = .pxReadyTasksLists p → p ≤ k.uxTopReadyPriority) :
    k.Sound soon lists' where
  wf := hin.wf
  registered j := by
    rw [hin.container j]
    split
    · exact ⟨some l, rfl⟩
    · exact h.registered j
  initialised l := by rw [hin.initialised l]; exact h.initialised l
  stateOwner := by rw [hin.owner]; exact h.stateOwner
  eventOwner := by rw [hin.owner]; exact h.eventOwner
  delayed := h.delayed
  state_mem t l' ht := by
    rcases hin.mem_iff.mp ht with ⟨hi, rfl⟩ | ht
    · exact hstate t hi.symm
    · exact h.state_mem t l' ht
  event_mem t l' ht := by
    rcases hin.mem_iff.mp ht with ⟨hi, rfl⟩ | ht
    · exact hevent t hi.symm
    · exact h.event_mem t l' ht
  eventValue := by rw [hin.value]; exact h.eventValue
  sorted l' hl := by
    rw [hin.value]
    by_cases heq : l' = l
    · subst heq
      exact hsorted hl
    · rw [hin.items l' heq]
      exact h.sorted l' hl
  due t ht := by
    rw [hin.value]
    rcases hin.mem_iff.mp ht with ⟨hi, hl⟩ | ht
    · rw [hi]
      exact (hdue t hi.symm hl.symm).1
    · exact h.due t ht
  next t ht := by
    rw [hin.value]
    rcases hin.mem_iff.mp ht with ⟨hi, hl⟩ | ht
    · rw [hi]
      exact (hdue t hi.symm hl.symm).2
    · exact h.next t ht
  top p t ht := by
    rcases hin.mem_iff.mp ht with ⟨-, hl⟩ | ht
    · exact htop p hl.symm
    · exact h.top p t ht

end Kernel.Sound

end CubesatPipeline
