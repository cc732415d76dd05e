import CubesatPipeline.KernelList
import CubesatPipeline.Lib.Transition
import CubesatPipeline.TaskStart

/-!
# The scheduler on its memory

The scheduler as a system that takes steps (`CubesatPipeline.TaskSys`): its variables, the memory
of its lists, and whether a switch has been asked for. It starts from any memory, and then the
calls come in any order, as ticks and other interrupts make them come
(`CubesatPipeline.TaskSys.Runs`).

In each state that it reaches the memory holds lists in which all is as it has to be between two
calls (`CubesatPipeline.TaskSys.Good`), so each call comes to an end and does what it is for
(`CubesatPipeline.TaskSys.Good.fire`).
-/

namespace CubesatPipeline

open Program Transition

variable {T Q : Type}

/-! ### The system -/

section System

/-- **What the scheduler is set up for**: the tasks, their priorities, and what they can wait
for. Each task is created once. -/
structure TaskConfig (T Q : Type) where
  uxPriority : T → Fin configMaxPriorities
  events : List Q
  tasks : List T
  xIdleTask : T
  xTimerTask : T
  mem_events : ∀ q, q ∈ events
  nodup : (tasks ++ [xIdleTask, xTimerTask]).Nodup
  mem_tasks : ∀ t, t ∈ tasks ++ [xIdleTask, xTimerTask]

/-- **The scheduler**, on its memory. -/
structure TaskSys (T Q : Type) where
  kernel : Kernel T Q
  mem : ListMem (TaskItem T) (TaskList Q) T
  asked : Bool

variable [DecidableEq T] [DecidableEq Q]

/-- The start, on any memory. -/
def TaskSys.start (c : TaskConfig T Q) (mem : ListMem (TaskItem T) (TaskList Q) T) :
    Option (TaskSys T Q) := do
  let (kernel, mem) ←
    (startKernel c.uxPriority c.events c.tasks c.xIdleTask c.xTimerTask).run ListMem.call mem
  let kernel ← kernel
  return ⟨kernel, mem, false⟩

/-- A switch that has been asked for is done by `vTaskSwitchContext`. -/
def TaskAction.keeps : TaskAction Q → Bool → Bool
  | .vTaskSwitchContext, _ => false
  | _, asked => asked

/-- **One call.** -/
def TaskSys.fire (xIdleTask : T) (a : TaskAction Q) (s : TaskSys T Q) : Option (TaskSys T Q) := do
  let (isAllowed, mem) ← (allowed xIdleTask a s.kernel).run ListMem.call s.mem
  if isAllowed then
    let ((asks, kernel), mem) ← (perform a s.kernel).run ListMem.call mem
    return ⟨kernel, mem, a.keeps s.asked || asks⟩
  else none

/-- What the memory says of the items. -/
def ListMem.lists (mem : ListMem (TaskItem T) (TaskList Q) T) : TaskLists T Q :=
  ⟨fun i => mem.xItemValue (.item i), mem.pvOwner, fun i => some (mem.pxContainer i),
    fun _ => none⟩

/-- **How the system is seen.** -/
def TaskSys.view (s : TaskSys T Q) : TaskView T Q := s.kernel.view s.mem.lists

end System

/-! ### What holds of the system -/

section Good

variable [DecidableEq T] [DecidableEq Q] {c : TaskConfig T Q} {s s' : TaskSys T Q}
  {lists : TaskLists T Q} {a : TaskAction Q}

/-- **What holds of the system**, with the lists that the memory holds. -/
structure TaskSys.Good (c : TaskConfig T Q) (s : TaskSys T Q) (lists : TaskLists T Q) : Prop where
  holds : s.mem.Holds lists
  inv : s.kernel.Inv c.xIdleTask lists
  priority : s.kernel.uxPriority = c.uxPriority
  leads : s.asked = false → s.kernel.xYieldPendings = false → s.kernel.Leads lists

/-- Programs come to an end on the memory as they do on the lists. -/
theorem ListMem.Holds.ends {α : Type} {mem : ListMem (TaskItem T) (TaskList Q) T}
    {P : α → TaskLists T Q → Prop} {p : TaskProgram T Q α} (h : mem.Holds lists)
    (hp : p.Ends Lists.call lists P) :
    ∃ r mem' lists', p.run ListMem.call mem = some (r, mem') ∧ mem'.Holds lists' ∧ P r lists' :=
  hp.of_simulates h fun _ _ _ _ _ hholds hc => hholds.call hc

namespace TaskSys.Good

omit [DecidableEq T] in
/-- The system is seen as its lists are. -/
theorem view_eq (h : s.Good c lists) : s.view = s.kernel.view lists := by
  have hcontainer : ∀ i, (s.mem.lists.container i).join = (lists.container i).join := fun i => by
    obtain ⟨o, ho⟩ := h.inv.sound.registered i
    rw [ho]
    exact h.holds.container i o ho
  have hvalue : ∀ i, s.mem.lists.value i = lists.value i := h.holds.value
  refine TaskView.ext rfl rfl rfl rfl (funext fun t => ?_) (funext fun t => ?_)
  · change s.kernel.status s.mem.lists t = s.kernel.status lists t
    rw [Kernel.status, Kernel.status, hcontainer, hvalue]
  · change waitsFor s.mem.lists t = waitsFor lists t
    rw [waitsFor, waitsFor, hcontainer]

/-- **Whether a call is made can be told**, and a call that is made does what it is for. -/
theorem fire (h : s.Good c lists) (a : TaskAction Q) :
    ∃ isAllowed mem, (allowed c.xIdleTask a s.kernel).run ListMem.call s.mem =
        some (isAllowed, mem) ∧
      (isAllowed = true → ∃ s' asks lists', s.fire c.xIdleTask a = some s' ∧ s'.Good c lists' ∧
        Done c.xIdleTask a s.kernel lists (asks, s'.kernel) lists') := by
  obtain ⟨isAllowed, mem, lists₁, hallowed, hholds, rfl, hpermits⟩ :=
    h.holds.ends (allowed_ends (a := a) h.inv)
  refine ⟨isAllowed, mem, hallowed, fun hyes => ?_⟩
  obtain ⟨⟨asks, kernel⟩, mem', lists', hperform, hholds', hdone⟩ :=
    hholds.ends (perform_ends h.inv (hpermits.mp hyes))
  refine ⟨⟨kernel, mem', a.keeps s.asked || asks⟩, asks, lists', ?_,
    ⟨hholds', hdone.inv, hdone.priority.trans h.priority, fun hasked hyield => ?_⟩, hdone⟩
  · rw [TaskSys.fire, hallowed]
    simp [hyes, hperform]
  · obtain ⟨hkeeps, hasks⟩ := Bool.or_eq_false_iff.mp hasked
    refine hdone.leads hasks hyield fun ha => h.leads ?_ (hdone.quiet hasks hyield ha)
    cases a with
    | vTaskSwitchContext => exact absurd rfl ha
    | _ => exact hkeeps

/-- A call that has been made was a call that is made. -/
theorem of_fire (h : s.Good c lists) (hfire : s.fire c.xIdleTask a = some s') :
    ∃ asks lists', s'.Good c lists' ∧
      Done c.xIdleTask a s.kernel lists (asks, s'.kernel) lists' := by
  obtain ⟨isAllowed, mem, hallowed, hdone⟩ := h.fire a
  cases isAllowed with
  | false =>
    rw [TaskSys.fire, hallowed] at hfire
    cases hfire
  | true =>
    obtain ⟨s₁, asks, lists', hs₁, hgood, hdone⟩ := hdone rfl
    obtain rfl := Option.some.inj (hs₁.symm.trans hfire)
    exact ⟨asks, lists', hgood, hdone⟩

/-- What is seen of a call. -/
theorem step (h : s.Good c lists) (hfire : s.fire c.xIdleTask a = some s') :
    TaskView.Step c.uxPriority a s.view s'.view := by
  obtain ⟨asks, lists', hgood, hdone⟩ := h.of_fire hfire
  rw [h.view_eq, hgood.view_eq, ← h.priority]
  exact hdone.step

end TaskSys.Good

/-- **The system starts.** -/
theorem TaskSys.exists_start (c : TaskConfig T Q) (mem : ListMem (TaskItem T) (TaskList Q) T) :
    ∃ s lists, TaskSys.start c mem = some s ∧ s.Good c lists ∧ s.view = .start s.view.current := by
  obtain ⟨o, mem', lists, hrun, hholds, k, rfl, hinv, hpriority, hleads, hview⟩ :=
    ListMem.holds_start.ends (startKernel_ends (fun i => mem.xItemValue (.item i)) mem.pvOwner
      c.mem_events c.nodup c.mem_tasks)
  have hgood : (⟨k, mem', false⟩ : TaskSys T Q).Good c lists :=
    ⟨hholds, hinv, hpriority, fun _ _ => hleads⟩
  refine ⟨⟨k, mem', false⟩, lists, ?_, hgood, ?_⟩
  · rw [TaskSys.start, hrun]
    rfl
  · rw [hgood.view_eq]
    exact hview

/-- **The states of the scheduler**: those that it reaches, started on some memory. -/
def TaskSys.Runs (c : TaskConfig T Q) (s : TaskSys T Q) : Prop :=
  ∃ mem s₀, TaskSys.start c mem = some s₀ ∧ Reachable (TaskSys.fire c.xIdleTask) s₀ s

theorem TaskSys.Runs.step (h : s.Runs c) (hfire : s.fire c.xIdleTask a = some s') : s'.Runs c := by
  obtain ⟨mem, s₀, hstart, hreach⟩ := h
  exact ⟨mem, s₀, hstart, hreach.step hfire⟩

/-- What holds of the system holds of each state it reaches. -/
theorem TaskSys.Runs.good (h : s.Runs c) : ∃ lists, s.Good c lists := by
  obtain ⟨mem, s₀, hstart, hreach⟩ := h
  obtain ⟨s₁, lists, hs₁, hgood, -⟩ := TaskSys.exists_start c mem
  obtain rfl := Option.some.inj (hs₁.symm.trans hstart)
  refine hreach.invariant (P := fun s => ∃ lists, s.Good c lists) ⟨lists, hgood⟩ ?_
  rintro a s₁ s₂ ⟨lists₁, h₁⟩ hfire
  obtain ⟨-, lists₂, h₂, -⟩ := h₁.of_fire hfire
  exact ⟨lists₂, h₂⟩

/-- What is seen of a call, in a state that is reached. -/
theorem TaskSys.Runs.view_step (h : s.Runs c) (hfire : s.fire c.xIdleTask a = some s') :
    TaskView.Step c.uxPriority a s.view s'.view := by
  obtain ⟨lists, hgood⟩ := h.good
  exact hgood.step hfire

/-- No task is suspended that does not wait for anything. -/
theorem TaskSys.Runs.noneSuspended (h : s.Runs c) : s.view.NoneSuspended := by
  obtain ⟨mem, s₀, hstart, hreach⟩ := id h
  obtain ⟨s₁, lists, hs₁, -, hview⟩ := TaskSys.exists_start c mem
  obtain rfl := Option.some.inj (hs₁.symm.trans hstart)
  have hinv : s.Runs c ∧ s.view.NoneSuspended := by
    refine hreach.invariant (P := fun s => s.Runs c ∧ s.view.NoneSuspended)
      ⟨⟨mem, s₁, hstart, .init⟩, fun t ht => ?_⟩ fun a s₂ s₃ ⟨hruns, hnone⟩ hfire =>
        ⟨hruns.step hfire, hnone.step (hruns.view_step hfire)⟩
    rw [hview] at ht
    cases ht
  exact hinv.2

end Good

end CubesatPipeline
