import CubesatPipeline.QueueSteps
import CubesatPipeline.TaskAborts

/-!
# The calls of the scheduler, from the queues

What the code of the queues asks of the scheduler, over what is seen of it: a call that may be
made (`CubesatPipeline.TaskSys.Shows.call`), the waking of one task that waits
(`CubesatPipeline.TaskSys.Shows.wakeWaiting`) or of as many as were counted
(`CubesatPipeline.TaskSys.Shows.wakeCounted`), and the check of a time-out
(`CubesatPipeline.xTaskCheckForTimeOut_spec`).
-/

namespace CubesatPipeline

open Program

/-! ### Taking tasks off a list -/

section Freed

variable {T Q : Type} {uxPriority : T → Fin configMaxPriorities} {q : Q} {n : ℕ}
  {v v' v'' : TaskView T Q} {W W' : Finset T}

namespace TaskView

/-- Nobody is woken. -/
theorem Freed.nobody (h : n = 0 ∨ ∀ t, v.waits t ≠ .event q) : v.Freed uxPriority q n v ∅ where
  now := rfl
  pended := rfl
  suspended := rfl
  current := rfl
  waited t ht := absurd ht (Finset.notMem_empty t)
  awake t ht := absurd ht (Finset.notMem_empty t)
  status _ _ := rfl
  waits _ _ := rfl
  card := h.imp Eq.symm id
  le t ht := absurd ht (Finset.notMem_empty t)

variable [DecidableEq T]

/-- One of those who wait is woken, and none of them has a higher priority. -/
theorem Freed.of_step [DecidableEq Q]
    (h : Step uxPriority (.xTaskRemoveFromEventList q) v v') :
    ∃ t, v.Freed uxPriority q 1 v' {t} := by
  have hset : ∀ (t : T) (status : TaskStatus) (waits : TaskWait Q), v.waits t = .event q →
      (∀ t', v.waits t' = .event q → uxPriority t' ≤ uxPriority t) → waits ≠ .event q →
      (waits = .noted ∧ status = v.status t ∨ waits = .nothing ∧ status = .ready) →
      v.Freed uxPriority q 1 (v.set t status waits) {t} := by
    intro t status waits ht hmax hne hawake
    have hstatus : (v.set t status waits).status t = status := Function.update_self ..
    have hwaits : (v.set t status waits).waits t = waits := Function.update_self ..
    refine ⟨rfl, rfl, rfl, rfl, fun t' ht' => ?_, fun t' ht' => ?_, fun t' ht' => ?_,
      fun t' ht' => ?_, .inl (Finset.card_singleton t), fun t' ht' t'' ht'' => ?_⟩
    · rw [Finset.mem_singleton.mp ht', ht]
    · rw [Finset.mem_singleton.mp ht', hstatus, hwaits]
      exact hawake
    · exact Function.update_of_ne (Finset.notMem_singleton.mp ht') ..
    · exact Function.update_of_ne (Finset.notMem_singleton.mp ht') ..
    · rw [Finset.mem_singleton.mp ht']
      by_cases heq : t'' = t
      · rw [heq]
      · have hother : (v.set t status waits).waits t'' = v.waits t'' :=
          Function.update_of_ne heq ..
        exact hmax t'' (hother.symm.trans ht'')
  cases h with
  | wake _ _ _ t ht hmax => exact ⟨t, hset t _ _ ht hmax nofun (.inr ⟨rfl, rfl⟩)⟩
  | wakePended _ _ _ t ht hmax => exact ⟨t, hset t _ _ ht hmax nofun (.inl ⟨rfl, rfl⟩)⟩

/-- **One task is woken, and then the others.** -/
theorem Freed.step {t : T} (h : v.Freed uxPriority q 1 v' {t})
    (h' : v'.Freed uxPriority q n v'' W) : v.Freed uxPriority q (n + 1) v'' (insert t W) := by
  have hnot : t ∉ W := fun hw => by
    rcases h.awake t (Finset.mem_singleton_self t) with ⟨hnoted, -⟩ | ⟨hnothing, -⟩
    · cases hnoted.symm.trans (h'.waited t hw)
    · cases hnothing.symm.trans (h'.waited t hw)
  have hother : ∀ t', t' ∈ W → t' ∉ ({t} : Finset T) := fun t' hw heq =>
    hnot (Finset.mem_singleton.mp heq ▸ hw)
  refine ⟨h'.now.trans h.now, h'.pended.trans h.pended, h'.suspended.trans h.suspended,
    h'.current.trans h.current, fun t' ht' => ?_, fun t' ht' => ?_, fun t' ht' => ?_,
    fun t' ht' => ?_, ?_, fun t' ht' t'' ht'' => ?_⟩
  · rcases Finset.mem_insert.mp ht' with rfl | hw
    · exact h.waited t' (Finset.mem_singleton_self t')
    · rw [← h.waits t' (hother t' hw)]
      exact h'.waited t' hw
  · rcases Finset.mem_insert.mp ht' with rfl | hw
    · rw [h'.status t' hnot, h'.waits t' hnot]
      exact h.awake t' (Finset.mem_singleton_self t')
    · rw [← h.status t' (hother t' hw)]
      exact h'.awake t' hw
  · obtain ⟨hne, hw⟩ := not_or.mp fun hor => ht' (Finset.mem_insert.mpr hor)
    rw [h'.status t' hw, h.status t' (Finset.notMem_singleton.mpr hne)]
  · obtain ⟨hne, hw⟩ := not_or.mp fun hor => ht' (Finset.mem_insert.mpr hor)
    rw [h'.waits t' hw, h.waits t' (Finset.notMem_singleton.mpr hne)]
  · refine h'.card.imp_left fun hcard => ?_
    rw [Finset.card_insert_of_notMem hnot, hcard]
  · rcases Finset.mem_insert.mp ht' with rfl | hw
    · exact h.le t' (Finset.mem_singleton_self t') t'' (h'.eases.event t'' q ht'')
    · exact h'.le t' hw t'' ht''

end TaskView

end Freed

/-! ### Calls -/

section Calls

variable {T Q : Type} [DecidableEq T] [DecidableEq Q] {c : TaskConfig T Q} {s : TaskSys T Q}
  {v : TaskView T Q} {a : TaskAction Q}

/-- **What is seen of the scheduler.** -/
structure TaskSys.Shows (c : TaskConfig T Q) (s : TaskSys T Q) (v : TaskView T Q) : Prop where
  good : ∃ lists, s.Good c lists ∧ s.kernel.view lists = v
  aborted : s.kernel.NoneAborted

/-- A call that may be made, over the lists that the memory holds. -/
theorem TaskSys.Good.call {lists : TaskLists T Q} (h : s.Good c lists)
    (haborted : s.kernel.NoneAborted) (hp : s.kernel.Permits c.xIdleTask lists a) :
    ∃ asks s' v', s.call a = some (asks, s') ∧ s'.Shows c v' ∧
      TaskView.Step c.uxPriority a (s.kernel.view lists) v' := by
  obtain ⟨⟨asks, kernel⟩, mem', lists', hperform, hholds', hdone⟩ :=
    h.holds.ends (perform_ends h.inv hp)
  refine ⟨asks, ⟨kernel, mem', a.keeps s.asked || asks⟩, _, ?_, ⟨⟨lists', ⟨hholds', hdone.inv,
    hdone.priority.trans h.priority, fun hasked hyield => ?_⟩, rfl⟩, ?_⟩,
    h.priority ▸ hdone.step⟩
  · rw [TaskSys.call, hperform]
    rfl
  · obtain ⟨hkeeps, hasks⟩ := Bool.or_eq_false_iff.mp hasked
    refine hdone.leads hasks hyield fun ha => h.leads ?_ (hdone.quiet hasks hyield ha)
    cases a with
    | vTaskSwitchContext => exact absurd rfl ha
    | _ => exact hkeeps
  · exact (perform_returns haborted a).of_run hperform

namespace TaskSys.Shows

/-- **A call that may be made** does what it is for. -/
theorem call (h : s.Shows c v)
    (hp : ∀ lists, s.Good c lists → s.kernel.view lists = v →
      s.kernel.Permits c.xIdleTask lists a) :
    ∃ asks s' v', s.call a = some (asks, s') ∧ s'.Shows c v' ∧
      TaskView.Step c.uxPriority a v v' := by
  obtain ⟨lists, hgood, rfl⟩ := h.good
  exact hgood.call h.aborted (hp lists hgood rfl)

/-- Whether any task waits. -/
theorem isEmpty (h : s.Shows c v) (q : Q) :
    ∃ b mem, (listListIsEmpty (.pxEventList q)).run ListMem.call s.mem = some (b, mem) ∧
      TaskSys.Shows c { s with mem := mem } v ∧ (b = true → ∀ t, v.waits t ≠ .event q) ∧
      (b = false → ∃ asks s' v' t,
        TaskSys.call (.xTaskRemoveFromEventList q) { s with mem := mem } = some (asks, s') ∧
          s'.Shows c v' ∧ v.Freed c.uxPriority q 1 v' {t}) := by
  obtain ⟨lists, hgood, rfl⟩ := h.good
  obtain ⟨b, mem, lists', hrun, hholds, rfl, rfl⟩ :=
    hgood.holds.ends (listListIsEmpty_ends (P := fun b lists' =>
      lists' = lists ∧ b = (lists.items (.pxEventList q)).isEmpty)
      (hgood.inv.sound.initialised (.pxEventList q)) ⟨rfl, rfl⟩)
  have hgood' : TaskSys.Good c { s with mem := mem } lists' :=
    ⟨hholds, hgood.inv, hgood.priority, hgood.leads⟩
  refine ⟨_, mem, hrun, ⟨⟨lists', hgood', rfl⟩, h.aborted⟩, fun hempty t ht => ?_,
    fun hempty => ?_⟩
  · have hmem := (hgood.inv.sound.wf.container_iff _ _).mp (waitsFor_eq_event.mp ht)
    rw [List.isEmpty_iff.mp hempty] at hmem
    cases hmem
  · obtain ⟨asks, s', v', hcall, hshows, hstep⟩ :=
      hgood'.call (a := .xTaskRemoveFromEventList q) h.aborted
        (List.isEmpty_eq_false_iff.mp hempty)
    obtain ⟨t, hfreed⟩ := TaskView.Freed.of_step hstep
    exact ⟨asks, s', v', t, hcall, hshows, hfreed⟩

/-- **A task that waits is woken**, if any does, and none that waits has a higher priority. -/
theorem wakeWaiting (h : s.Shows c v) (q : Q) :
    ∃ woken s' v' W, s.wakeWaiting q = some (woken, s') ∧ s'.Shows c v' ∧
      v.Freed c.uxPriority q 1 v' W := by
  obtain ⟨b, mem, hrun, hshows, hempty, hwakes⟩ := h.isEmpty q
  cases b with
  | true =>
    refine ⟨false, { s with mem := mem }, v, ∅, ?_, hshows, .nobody (.inr (hempty rfl))⟩
    rw [TaskSys.wakeWaiting, hrun]
    rfl
  | false =>
    obtain ⟨asks, s', v', t, hcall, hshows', hfreed⟩ := hwakes rfl
    refine ⟨asks, s', v', {t}, ?_, hshows', hfreed⟩
    rw [TaskSys.wakeWaiting, hrun]
    exact hcall

omit [DecidableEq T] in
/-- A switch that is asked for later is not seen. -/
theorem missedYield (h : s.Shows c v) :
    TaskSys.Shows c { s with kernel := vTaskMissedYield s.kernel } v := by
  obtain ⟨lists, hgood, rfl⟩ := h.good
  have hinv := hgood.inv
  exact ⟨⟨lists, ⟨hgood.holds, ⟨{ hinv.sound with }, hinv.placed, hinv.free, hinv.noted,
    hinv.pended, hinv.idle⟩, hgood.priority, fun _ hyield => by cases hyield⟩, rfl⟩, h.aborted⟩

/-- **As many tasks are woken as were counted**, or all that wait. -/
theorem wakeCounted (h : s.Shows c v) (q : Q) (cLock : ℕ) :
    ∃ s' v' W, s.wakeCounted q cLock = some s' ∧ s'.Shows c v' ∧
      v.Freed c.uxPriority q cLock v' W := by
  induction cLock generalizing s v with
  | zero => exact ⟨s, v, ∅, rfl, h, .nobody (.inl rfl)⟩
  | succ cLock ih =>
    obtain ⟨b, mem, hrun, hshows, hempty, hwakes⟩ := h.isEmpty q
    cases b with
    | true =>
      refine ⟨{ s with mem := mem }, v, ∅, ?_, hshows, .nobody (.inr (hempty rfl))⟩
      rw [TaskSys.wakeCounted, hrun]
      rfl
    | false =>
      obtain ⟨woken, s₁, v₁, t, hcall, hshows₁, hfreed⟩ := hwakes rfl
      have hshows₂ : TaskSys.Shows c
          (if woken then { s₁ with kernel := vTaskMissedYield s₁.kernel } else s₁) v₁ := by
        split
        · exact hshows₁.missedYield
        · exact hshows₁
      obtain ⟨s', v', W, hrest, hshows', hfreed'⟩ := ih hshows₂
      refine ⟨s', v', insert t W, ?_, hshows', hfreed.step hfreed'⟩
      rw [TaskSys.wakeCounted, hrun]
      change (TaskSys.call (.xTaskRemoveFromEventList q) { s with mem := mem } >>= _) = _
      rw [hcall]
      exact hrest

end TaskSys.Shows

end Calls

/-! ### Time-outs -/

section TimeOuts

variable {T Q : Type} [DecidableEq T] {k k' : Kernel T Q} {o o' : TimeOut} {n n' : TickType}
  {b : Bool}

omit [DecidableEq T] in
/-- The ticks that are seen to have passed are not more than those that have. -/
theorem elapsed_le (hentered : o.entered ≤ k.now) :
    o.entered + (k.xTickCount - o.xTimeOnEntering).toNat ≤ k.now := by
  have htick := k.xTickCount.toNat_lt
  have htime := o.xTimeOnEntering.toNat_lt
  have hnow : k.now = k.xNumOfOverflows * 2 ^ 32 + k.xTickCount.toNat := rfl
  have hset : o.entered = o.xOverflowCount * 2 ^ 32 + o.xTimeOnEntering.toNat := rfl
  have hsub := UInt32.toNat_sub k.xTickCount o.xTimeOnEntering
  omega

omit [DecidableEq T] in
/-- After a wrap that leaves the tick count where it was or past it, all the time is over. -/
theorem wrapped_le (hentered : o.entered ≤ k.now) (hne : k.xNumOfOverflows ≠ o.xOverflowCount)
    (hle : o.xTimeOnEntering ≤ k.xTickCount) : o.entered + n.toNat ≤ k.now := by
  have htick := k.xTickCount.toNat_lt
  have htime := o.xTimeOnEntering.toNat_lt
  have hn := n.toNat_lt
  have hnow : k.now = k.xNumOfOverflows * 2 ^ 32 + k.xTickCount.toNat := rfl
  have hset : o.entered = o.xOverflowCount * 2 ^ 32 + o.xTimeOnEntering.toNat := rfl
  rw [UInt32.le_iff_toNat_le] at hle
  omega

/-- **A time-out is never up too early**, and a task that waits for ever never stops waiting. -/
theorem xTaskCheckForTimeOut_spec (haborted : k.NoneAborted) (hentered : o.entered ≤ k.now)
    (hpos : n ≠ 0) (h : xTaskCheckForTimeOut k o n = (b, o', n', k')) :
    k' = k ∧
      (b = true → n ≠ portMaxDelay ∧ o.entered + n.toNat ≤ k.now ∧ n' = 0 ∧ o' = o) ∧
      (b = false → n' ≠ 0 ∧ o'.entered ≤ k.now ∧ (n = portMaxDelay ∧ n' = portMaxDelay ∨
        n ≠ portMaxDelay ∧ n' ≠ portMaxDelay ∧
          o.entered + n.toNat ≤ o'.entered + n'.toNat)) := by
  have helapsed := elapsed_le hentered
  rw [xTaskCheckForTimeOut, if_neg (by rw [haborted]; exact Bool.false_ne_true)] at h
  split at h
  next hmax =>
    obtain ⟨rfl, rfl, rfl, rfl⟩ := h
    exact ⟨rfl, nofun, fun _ => ⟨hpos, hentered, .inl ⟨hmax, hmax⟩⟩⟩
  next hmax =>
    split at h
    next hwrapped =>
      obtain ⟨rfl, rfl, rfl, rfl⟩ := h
      exact ⟨rfl, fun _ => ⟨hmax, wrapped_le hentered hwrapped.1 hwrapped.2, rfl, rfl⟩, nofun⟩
    next =>
      split at h
      next hlt =>
        obtain ⟨rfl, rfl, rfl, rfl⟩ := h
        have hleft : (n - (k.xTickCount - o.xTimeOnEntering)).toNat =
            n.toNat - (k.xTickCount - o.xTimeOnEntering).toNat :=
          UInt32.toNat_sub_of_le _ _ (UInt32.le_of_lt hlt)
        rw [UInt32.lt_iff_toNat_lt] at hlt
        have hbound := UInt32.le_iff_toNat_le.mp (le_portMaxDelay n)
        have hne : n.toNat ≠ portMaxDelay.toNat := fun heq => hmax (UInt32.toNat_inj.mp heq)
        refine ⟨rfl, nofun, fun _ => ⟨fun hzero => ?_, le_rfl, .inr ⟨hmax, fun heq => ?_, ?_⟩⟩⟩
        · rw [hzero] at hleft
          change 0 = _ at hleft
          omega
        · rw [heq] at hleft
          omega
        · change o.entered + n.toNat ≤ k.now + _
          omega
      next hle =>
        obtain ⟨rfl, rfl, rfl, rfl⟩ := h
        rw [UInt32.lt_iff_toNat_lt] at hle
        exact ⟨rfl, fun _ => ⟨hmax, by omega, rfl, rfl⟩, nofun⟩

end TimeOuts

end CubesatPipeline
