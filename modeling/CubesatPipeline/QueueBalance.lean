import CubesatPipeline.QueueInvariant

/-!
# No wake-up is lost

As long as some task waits for an item, no more items lie in the queue than tasks are going to
look for them; and likewise for room (`CubesatPipeline.Stocked`). There is one rule for each kind
of step: one that serves a queue and wakes a task, one that is only counted, one by which a task
begins to wait, and one by which the queue is unlocked.
-/

namespace CubesatPipeline

open WaitingRoom

/-! ### What is there to take -/

section Stock

variable {T U : Type} {c : QueueConfig T U} {pxQueue : U} {op : QueueOp}
  {items items' : List (List UInt8)} {reply : QueueReply}

/-- What is there for those who wait in a list. -/
def QueueConfig.left (c : QueueConfig T U) (items : List (List UInt8)) : QueueEvent U → ℕ
  | .xTasksWaitingToSend pxQueue => c.uxLength pxQueue - items.length
  | .xTasksWaitingToReceive _ => items.length

theorem QueueView.stock_eq (v : QueueView T U) (e : QueueEvent U) :
    v.stock c e = c.left (v.items e.pxQueue) e := by
  cases e <;> rfl

namespace QueueConfig

/-- **What can come of a call.** -/
inductive Serves (c : QueueConfig T U) (pxQueue : U) :
    QueueOp → List (List UInt8) → QueueReply → List (List UInt8) → Prop
  | sent {item : List UInt8} {xCopyPosition : CopyPosition} {items items' : List (List UInt8)}
    (hroom : items.length < c.uxLength pxQueue) (hlen : items'.length = items.length + 1) :
    Serves c pxQueue (.xQueueGenericSend item xCopyPosition) items .pass items'
  | overwrote {item : List UInt8} {items : List (List UInt8)} (hone : c.uxLength pxQueue = 1) :
    Serves c pxQueue (.xQueueGenericSend item .overwrite) items .pass [item]
  | full {item : List UInt8} {xCopyPosition : CopyPosition} {items : List (List UInt8)}
    (hfull : c.uxLength pxQueue ≤ items.length) :
    Serves c pxQueue (.xQueueGenericSend item xCopyPosition) items .errQueueFull items
  | received (item : List UInt8) (items : List (List UInt8)) :
    Serves c pxQueue .xQueueReceive (item :: items) (.item item) items
  | peeked (item : List UInt8) (items : List (List UInt8)) :
    Serves c pxQueue .xQueuePeek (item :: items) (.item item) (item :: items)
  | receivedNone : Serves c pxQueue .xQueueReceive [] .errQueueEmpty []
  | peekedNone : Serves c pxQueue .xQueuePeek [] .errQueueEmpty []

theorem serves (h : c.serve pxQueue op items = some (reply, items')) :
    c.Serves pxQueue op items reply items' := by
  cases op with
  | xQueueGenericSend item xCopyPosition =>
    cases xCopyPosition with
    | sendToBack =>
      simp only [serve, QueueOp.call, itemsCall] at h
      split_ifs at h with hitem hroom
      · obtain ⟨rfl, rfl⟩ := Prod.mk.inj (Option.some.inj h)
        exact .sent hroom List.length_append
      · obtain ⟨rfl, rfl⟩ := Prod.mk.inj (Option.some.inj h)
        exact .full (not_lt.mp hroom)
    | sendToFront =>
      simp only [serve, QueueOp.call, itemsCall] at h
      split_ifs at h with hitem hroom
      · obtain ⟨rfl, rfl⟩ := Prod.mk.inj (Option.some.inj h)
        exact .sent hroom rfl
      · obtain ⟨rfl, rfl⟩ := Prod.mk.inj (Option.some.inj h)
        exact .full (not_lt.mp hroom)
    | overwrite =>
      simp only [serve, QueueOp.call, itemsCall] at h
      split_ifs at h with hallowed
      obtain ⟨rfl, rfl⟩ := Prod.mk.inj (Option.some.inj h)
      exact .overwrote hallowed.2.1
  | xQueueReceive =>
    cases items with
    | nil =>
      obtain ⟨rfl, rfl⟩ := Prod.mk.inj (Option.some.inj h)
      exact .receivedNone
    | cons item items =>
      obtain ⟨rfl, rfl⟩ := Prod.mk.inj (Option.some.inj h)
      exact .received item items
  | xQueuePeek =>
    cases items with
    | nil =>
      obtain ⟨rfl, rfl⟩ := Prod.mk.inj (Option.some.inj h)
      exact .peekedNone
    | cons item items =>
      obtain ⟨rfl, rfl⟩ := Prod.mk.inj (Option.some.inj h)
      exact .peeked item items

/-- A call that is not served found nothing. -/
theorem Serves.left_eq_zero (h : c.Serves pxQueue op items reply items')
    (hrefused : reply.served = false) : c.left items (op.waitsIn pxQueue) = 0 := by
  cases h with
  | full hfull => exact Nat.sub_eq_zero_of_le hfull
  | receivedNone | peekedNone => rfl
  | _ => cases hrefused

theorem Serves.length_le (h : c.Serves pxQueue op items reply items')
    (hle : items.length ≤ c.uxLength pxQueue) : items'.length ≤ c.uxLength pxQueue := by
  cases h with
  | sent hroom hlen => omega
  | overwrote hone => exact hone.ge
  | received item items => exact (Nat.le_succ _).trans hle
  | _ => exact hle

/-- **Whoever is served adds at most one unit** for the others. -/
theorem Serves.left_wakes_le (h : c.Serves pxQueue op items reply items') :
    c.left items' (op.wakes pxQueue) ≤ c.left items (op.wakes pxQueue) + 1 := by
  cases h with
  | sent hroom hlen => exact hlen.le
  | overwrote hone => exact Nat.le_add_left _ _
  | received item items =>
    simp only [QueueOp.wakes, left, List.length_cons]
    omega
  | _ => exact Nat.le_succ _

/-- **Whoever is served takes a unit**, or leaves none, unless it only looks. -/
theorem Serves.left_waitsIn (h : c.Serves pxQueue op items reply items')
    (hserved : reply.served = true) (hop : op ≠ .xQueuePeek) :
    c.left items' (op.waitsIn pxQueue) = 0 ∨
      c.left items' (op.waitsIn pxQueue) + 1 ≤ c.left items (op.waitsIn pxQueue) := by
  cases h with
  | sent hroom hlen =>
    simp only [QueueOp.waitsIn, left]
    omega
  | overwrote hone =>
    simp only [QueueOp.waitsIn, left, hone]
    exact .inl rfl
  | received item items => exact .inr le_rfl
  | peeked => exact absurd rfl hop
  | _ => cases hserved

theorem Serves.of_peek (h : c.Serves pxQueue .xQueuePeek items reply items') : items' = items := by
  cases h <;> rfl

end QueueConfig

end Stock

/-! ### Nobody waits for nothing -/

section Stocked

variable {T U : Type} [DecidableEq T] {c : QueueConfig T U} {v v' : QueueView T U}
  {e : QueueEvent U}

/-- All tasks. -/
def TaskConfig.all {Q : Type} (c : TaskConfig T Q) : Finset T :=
  (c.tasks ++ [c.xIdleTask, c.xTimerTask]).toFinset

theorem TaskConfig.mem_all {Q : Type} (c : TaskConfig T Q) (t : T) : t ∈ c.all :=
  List.mem_toFinset.mpr (c.mem_tasks t)

theorem TaskConfig.card_all {Q : Type} (c : TaskConfig T Q) :
    c.all.card = c.uxTaskGetNumberOfTasks :=
  List.toFinset_card_of_nodup c.nodup

/-- The tasks that wait in a list. -/
def QueueView.waiting [DecidableEq U] (c : QueueConfig T U) (v : QueueView T U)
    (e : QueueEvent U) : Finset T :=
  c.all.filter fun t => v.tasks.waits t = .event e

/-- The tasks that are going to look for what those in a list wait for. -/
noncomputable def QueueView.looking (c : QueueConfig T U) (v : QueueView T U) (e : QueueEvent U) :
    Finset T :=
  @Finset.filter T (fun t => (v.frames t).looksIn e ∧ v.tasks.waits t ≠ .event e)
    (Classical.decPred _) c.all

theorem mem_waiting [DecidableEq U] {t : T} : t ∈ v.waiting c e ↔ v.tasks.waits t = .event e := by
  rw [QueueView.waiting, Finset.mem_filter]
  exact and_iff_right (c.mem_all t)

theorem mem_looking {t : T} : t ∈ v.looking c e ↔
    (v.frames t).looksIn e ∧ v.tasks.waits t ≠ .event e := by
  simp [QueueView.looking, c.mem_all]

variable [DecidableEq U]

/-- The task is about to put itself into a list. -/
def Frame.placesIn (e : QueueEvent U) : Frame U → Prop
  | returned _ => False
  | inside f => f.point = .place ∧ f.request.waitsIn = some e

/-- **Nobody waits for nothing.** A task that is about to wait has found nothing but what was
counted since. -/
structure Stocked (c : QueueConfig T U) (v : QueueView T U) : Prop where
  bounded : ∀ pxQueue, (v.items pxQueue).length ≤ c.uxLength pxQueue
  placing : ∀ e, (v.frames v.tasks.current).placesIn e →
    v.stock c e ≤ (v.lock e).getD 0 ∨ c.uxTaskGetNumberOfTasks ≤ (v.lock e).getD 0
  balanced : ∀ e, Balanced c.uxTaskGetNumberOfTasks (v.stock c e) ((v.lock e).getD 0)
    (v.waiting c e) (v.looking c e)

/-- No task begins to wait. -/
def QueueView.Keeps (v v' : QueueView T U) : Prop :=
  ∀ t e, v'.tasks.waits t = .event e → v.tasks.waits t = .event e

theorem waiting_subset (h : v.Keeps v') (e : QueueEvent U) : v'.waiting c e ⊆ v.waiting c e :=
  fun t ht => mem_waiting.mpr (h t e (mem_waiting.mp ht))

omit [DecidableEq U] in
theorem mem_looking_of_mem {t : T} (h : v.Keeps v') (ht : t ∈ v.looking c e)
    (hlooks : (v.frames t).looksIn e → (v'.frames t).looksIn e) : t ∈ v'.looking c e :=
  mem_looking.mpr ⟨hlooks (mem_looking.mp ht).1, fun hw => (mem_looking.mp ht).2 (h t e hw)⟩

/-- **Nothing is taken or added**, and a task only stops looking when there is nothing. -/
theorem Stocked.keeps (h : Stocked c v) (hk : v.Keeps v') (hitems : v'.items = v.items)
    (hlock : ∀ e, (v'.lock e).getD 0 = (v.lock e).getD 0)
    (hplacing : ∀ e, (v'.frames v'.tasks.current).placesIn e →
      v.stock c e ≤ (v.lock e).getD 0 ∨ c.uxTaskGetNumberOfTasks ≤ (v.lock e).getD 0)
    (hlooks : ∀ e t, (v.frames t).looksIn e → (v'.frames t).looksIn e ∨ v.stock c e = 0) :
    Stocked c v' := by
  have hstock : ∀ e, v'.stock c e = v.stock c e := fun e => by
    rw [v'.stock_eq, v.stock_eq, hitems]
  refine ⟨fun pxQueue => by rw [hitems]; exact h.bounded pxQueue, fun e hplace => ?_, fun e => ?_⟩
  · rw [hstock, hlock]
    exact hplacing e hplace
  · rw [hstock, hlock]
    by_cases hzero : v.stock c e = 0
    · rw [hzero]
      exact .none
    · exact (h.balanced e).mono (waiting_subset hk e) fun t ht =>
        mem_looking_of_mem hk ht fun hl => (hlooks e t hl).resolve_right hzero

/-! ### Waking -/

variable {n : ℕ} {woken : Finset T}

omit [DecidableEq U] in
/-- Those who are woken are going to look. -/
theorem mem_looking_of_woken {t : T}
    (hsched : Sched v.tasks v.frames) (hfreed : v.tasks.Freed c.uxPriority e n v'.tasks woken)
    (hlooks : (v.frames t).restsIn e → (v'.frames t).looksIn e) (ht : t ∈ woken) :
    t ∈ v'.looking c e := by
  refine mem_looking.mpr ⟨hlooks (hsched.rests t e (hfreed.waited t ht)), fun hw => ?_⟩
  rcases hfreed.awake t ht with ⟨hnoted, -⟩ | ⟨hnothing, -⟩
  · cases hnoted.symm.trans hw
  · cases hnothing.symm.trans hw

omit [DecidableEq U] in
/-- Those who look do not wait. -/
theorem disjoint_looking_woken (hfreed : v.tasks.Freed c.uxPriority e n v'.tasks woken) :
    Disjoint (v.looking c e) woken :=
  Finset.disjoint_left.mpr fun t hl hw => (mem_looking.mp hl).2 (hfreed.waited t hw)

theorem Freed.card_or (hfreed : v.tasks.Freed c.uxPriority e n v'.tasks woken) :
    woken.card = n ∨ v'.waiting c e = ∅ :=
  hfreed.card.imp_right fun hnone => Finset.eq_empty_of_forall_notMem fun t ht =>
    hnone t (mem_waiting.mp ht)

/-- There are not more tasks than there are. -/
theorem Freed.card_le (hfreed : v.tasks.Freed c.uxPriority e n v'.tasks woken) :
    woken.card + (v'.waiting c e).card ≤ c.uxTaskGetNumberOfTasks := by
  have hdisj : Disjoint woken (v'.waiting c e) := Finset.disjoint_left.mpr fun t hw ht => by
    rcases hfreed.awake t hw with ⟨hnoted, -⟩ | ⟨hnothing, -⟩
    · cases hnoted.symm.trans (mem_waiting.mp ht)
    · cases hnothing.symm.trans (mem_waiting.mp ht)
  rw [← Finset.card_union_of_disjoint hdisj, ← c.card_all]
  exact Finset.card_le_card fun t _ => c.mem_all t

omit [DecidableEq T] [DecidableEq U] in
theorem Frame.restsIn.looksIn {frame : Frame U} (h : frame.restsIn e) : frame.looksIn e := by
  cases frame with
  | returned => exact h.elim
  | inside f =>
    obtain ⟨request, n, o, point⟩ := f
    obtain ⟨hrests, hwaits⟩ := h
    refine ⟨?_, hwaits⟩
    cases point <;> first | exact hrests | rfl

/-- **A queue is unlocked**, and as many tasks are woken as were counted. -/
theorem Stocked.unlock (h : Stocked c v) (hsched : Sched v.tasks v.frames)
    (hfreed : v.tasks.Freed c.uxPriority e ((v.lock e).getD 0) v'.tasks woken)
    (hitems : v'.items = v.items) (hlock : v'.lock = Function.update v.lock e none)
    (hplacing : ∀ e, ¬ (v'.frames v'.tasks.current).placesIn e)
    (hlooks : ∀ e t, (v.frames t).looksIn e → (v'.frames t).looksIn e) : Stocked c v' := by
  have hk : v.Keeps v' := hfreed.eases.event
  have hstock : ∀ e, v'.stock c e = v.stock c e := fun e => by
    rw [v'.stock_eq, v.stock_eq, hitems]
  refine ⟨fun pxQueue => by rw [hitems]; exact h.bounded pxQueue,
    fun e hplace => absurd hplace (hplacing e), fun e' => ?_⟩
  have hmono : v.looking c e' ⊆ v'.looking c e' := fun t ht =>
    mem_looking_of_mem hk ht (hlooks e' t)
  rw [hstock, hlock]
  by_cases he : e' = e
  -- as many are woken as were counted, or nobody waits any more
  · subst he
    rw [Function.update_self]
    exact (h.balanced e').opened (waiting_subset hk e')
      (Finset.union_subset hmono fun t ht => mem_looking_of_woken hsched hfreed
        (fun hrests => hlooks e' t hrests.looksIn) ht)
      (disjoint_looking_woken hfreed) (Freed.card_or hfreed) (Freed.card_le hfreed)
  · rw [Function.update_of_ne he]
    exact (h.balanced e').mono (waiting_subset hk e') hmono

/-- **The task that runs begins to wait.** -/
theorem Stocked.place (h : Stocked c v) (hitems : v'.items = v.items) (hlock : v'.lock = v.lock)
    (hplaces : (v.frames v.tasks.current).placesIn e)
    (hplacing : ∀ e, ¬ (v'.frames v'.tasks.current).placesIn e)
    (hwaits : ∀ t e', e' ≠ e → v'.tasks.waits t = .event e' → v.tasks.waits t = .event e')
    (hlooks : ∀ e' t, e' ≠ e → (v.frames t).looksIn e' → (v'.frames t).looksIn e') :
    Stocked c v' := by
  have hstock : ∀ e, v'.stock c e = v.stock c e := fun e => by
    rw [v'.stock_eq, v.stock_eq, hitems]
  refine ⟨fun pxQueue => by rw [hitems]; exact h.bounded pxQueue,
    fun e hplace => absurd hplace (hplacing e), fun e' => ?_⟩
  rw [hstock, hlock]
  by_cases he : e' = e
  -- the queue was examined after it was locked, so what there is was counted since
  · subst he
    exact .rest (h.placing e' hplaces)
  · refine (h.balanced e').mono (fun t ht => mem_waiting.mpr (hwaits t e' he (mem_waiting.mp ht)))
      fun t ht => ?_
    obtain ⟨hl, hw⟩ := mem_looking.mp ht
    exact mem_looking.mpr ⟨hlooks e' t he hl, fun hw' => hw (hwaits t e' he hw')⟩

/-! ### Being served -/

variable {pxQueue : U} {op : QueueOp} {reply : QueueReply} {items : List (List UInt8)}

omit [DecidableEq T] in
/-- What is only looked at stays as it is. -/
theorem stock_of_peek (hserves : c.Serves pxQueue op (v.items pxQueue) reply items)
    (hitems : v'.items = Function.update v.items pxQueue items) (hpeek : op = .xQueuePeek)
    (e : QueueEvent U) : v'.stock c e = v.stock c e := by
  subst hpeek
  rw [v'.stock_eq, v.stock_eq, hitems, hserves.of_peek, Function.update_eq_self]

omit [DecidableEq T] in
/-- Whoever is served adds at most one unit. -/
theorem stock_wakes_le (hserves : c.Serves pxQueue op (v.items pxQueue) reply items)
    (hitems : v'.items = Function.update v.items pxQueue items) :
    v'.stock c (op.wakes pxQueue) ≤ v.stock c (op.wakes pxQueue) + 1 := by
  have hqueue : (op.wakes pxQueue).pxQueue = pxQueue := by cases op <;> rfl
  rw [v'.stock_eq, v.stock_eq, hitems, hqueue, Function.update_self]
  exact hserves.left_wakes_le

omit [DecidableEq T] in
/-- **There is no more for those in the other lists**, and one unit less for those who wait for
what was taken. -/
theorem stock_le_of_ne (hserves : c.Serves pxQueue op (v.items pxQueue) reply items)
    (hserved : reply.served = true) (hitems : v'.items = Function.update v.items pxQueue items)
    (hne : e ≠ op.wakes pxQueue) : v'.stock c e ≤ v.stock c e ∧
      (e = op.waitsIn pxQueue → v'.stock c e = 0 ∨ v'.stock c e + 1 ≤ v.stock c e) := by
  by_cases hpeek : op = .xQueuePeek
  · refine ⟨(stock_of_peek hserves hitems hpeek e).le, fun heq => absurd heq ?_⟩
    subst hpeek
    exact hne
  by_cases hqueue : e.pxQueue = pxQueue
  · have hown : e = op.waitsIn pxQueue := by
      subst hqueue
      cases op <;> cases e <;> first | rfl | exact absurd rfl hne | exact absurd rfl hpeek
    have htakes := hserves.left_waitsIn hserved hpeek
    rw [v'.stock_eq, v.stock_eq, hitems, hqueue, Function.update_self, hown]
    exact ⟨by omega, fun _ => htakes⟩
  · rw [v'.stock_eq, v.stock_eq, hitems, Function.update_of_ne hqueue]
    refine ⟨le_rfl, fun heq => absurd ?_ hqueue⟩
    subst heq
    cases op <;> rfl

theorem length_update_le (h : Stocked c v)
    (hserves : c.Serves pxQueue op (v.items pxQueue) reply items) (u : U) :
    (Function.update v.items pxQueue items u).length ≤ c.uxLength u := by
  by_cases hu : u = pxQueue
  · subst hu
    rw [Function.update_self]
    exact hserves.length_le (h.bounded u)
  · rw [Function.update_of_ne hu]
    exact h.bounded u

/-- **An interrupt does something with a locked queue.** -/
theorem Stocked.count (h : Stocked c v)
    (hserves : c.Serves pxQueue op (v.items pxQueue) reply items)
    (hserved : reply.served = true) (hlocked : v.lock (op.wakes pxQueue) = some n)
    (htasks : v'.tasks = v.tasks) (hframes : v'.frames = v.frames)
    (hitems : v'.items = Function.update v.items pxQueue items)
    (hlock : v'.lock = Function.update v.lock (op.wakes pxQueue)
      (some (if n < c.uxTaskGetNumberOfTasks then n + 1 else n))) : Stocked c v' := by
  have hwaiting : ∀ e, v'.waiting c e = v.waiting c e := fun e => by
    rw [QueueView.waiting, QueueView.waiting, htasks]
  have hlooking : ∀ e, v'.looking c e = v.looking c e := fun e => by
    rw [QueueView.looking, QueueView.looking, htasks, hframes]
  have hwakes := stock_wakes_le hserves hitems
  have hcounted : (v.lock (op.wakes pxQueue)).getD 0 = n := by
    rw [hlocked]
    rfl
  refine ⟨fun u => by rw [hitems]; exact length_update_le h hserves u, fun e hplace => ?_,
    fun e => ?_⟩
  · rw [hframes, htasks] at hplace
    have hplacing := h.placing e hplace
    rw [hlock]
    by_cases he : e = op.wakes pxQueue
    · subst he
      rw [hcounted] at hplacing
      rw [Function.update_self, Option.getD_some]
      -- the count stops at the number of the tasks, which is enough for all that wait
      split <;> omega
    · have hle := (stock_le_of_ne hserves hserved hitems he).1
      rw [Function.update_of_ne he]
      omega
  · have hbalanced := h.balanced e
    rw [hwaiting, hlooking, hlock]
    by_cases he : e = op.wakes pxQueue
    · subst he
      rw [hcounted] at hbalanced
      rw [Function.update_self, Option.getD_some]
      exact hbalanced.count.of_card (Finset.Subset.refl _) fun _ => Nat.add_le_add_right hwakes _
    · rw [Function.update_of_ne he]
      exact hbalanced.of_card (Finset.Subset.refl _) fun _ =>
        Nat.add_le_add_right (stock_le_of_ne hserves hserved hitems he).1 _

/-- **An action serves a queue**, and wakes a task that waits for that, if any does. No other
task stops looking, and the one that is served only looked for what it has. -/
theorem Stocked.serve (h : Stocked c v) (hsched : Sched v.tasks v.frames)
    (hserves : c.Serves pxQueue op (v.items pxQueue) reply items)
    (hserved : reply.served = true)
    (hfreed : v.tasks.Freed c.uxPriority (op.wakes pxQueue) 1 v'.tasks woken)
    (hitems : v'.items = Function.update v.items pxQueue items) (hlock : v'.lock = v.lock)
    (hplacing : ∀ e, (v'.frames v'.tasks.current).placesIn e →
      e ≠ op.wakes pxQueue ∧ (v.frames v.tasks.current).placesIn e)
    (t : T) (ht : t ∉ woken ∨ v'.frames t = v.frames t)
    (hother : ∀ t', t' ≠ t → v'.frames t' = v.frames t')
    (hself : v'.frames t = v.frames t ∨ ∀ e, (v.frames t).looksIn e → e = op.waitsIn pxQueue) :
    Stocked c v' := by
  have hk : v.Keeps v' := hfreed.eases.event
  have hlooks : ∀ e t', t' ≠ t → t' ∈ v.looking c e → t' ∈ v'.looking c e := fun e t' hne hl =>
    mem_looking_of_mem hk hl fun hlooks => by rw [hother t' hne]; exact hlooks
  have hlooksSelf : ∀ e, e ≠ op.waitsIn pxQueue → v.looking c e ⊆ v'.looking c e := by
    intro e hne t' hl
    by_cases heq : t' = t
    · subst heq
      rcases hself with hframe | hown
      · exact mem_looking_of_mem hk hl fun hlooks => by rw [hframe]; exact hlooks
      · exact absurd (hown e (mem_looking.mp hl).1) hne
    · exact hlooks e t' heq hl
  have hwoken : woken ⊆ v'.looking c (op.wakes pxQueue) := fun t' ht' => by
    have hsame : v'.frames t' = v.frames t' := by
      by_cases heq : t' = t
      · subst heq
        exact ht.resolve_left fun hnot => hnot ht'
      · exact hother t' heq
    exact mem_looking_of_woken hsched hfreed (fun hrests => hsame ▸ hrests.looksIn) ht'
  refine ⟨fun u => by rw [hitems]; exact length_update_le h hserves u, fun e hplace => ?_,
    fun e => ?_⟩
  · obtain ⟨hne, hplaces⟩ := hplacing e hplace
    have hcounted := h.placing e hplaces
    have hle := (stock_le_of_ne hserves hserved hitems hne).1
    rw [hlock]
    omega
  · rw [hlock]
    by_cases hwakes : e = op.wakes pxQueue
    · subst hwakes
      by_cases hpeek : op = .xQueuePeek
      -- a task that peeks wakes the next one for the item that it leaves
      · rw [stock_of_peek hserves hitems hpeek]
        exact Balanced.peek (a := t) (h.balanced _) (waiting_subset hk _)
          (fun t' ht' hne => (Finset.mem_union.mp ht').elim (hlooks _ t' hne) fun hw => hwoken hw)
          (disjoint_looking_woken hfreed) (Freed.card_or hfreed)
      · have hne : op.wakes pxQueue ≠ op.waitsIn pxQueue := by
          cases op <;> first | exact absurd rfl hpeek | (simp [QueueOp.wakes, QueueOp.waitsIn])
        refine ((h.balanced _).add (waiting_subset hk _)
          (Finset.union_subset (hlooksSelf _ hne) hwoken) (disjoint_looking_woken hfreed)
          (Freed.card_or hfreed)).of_card (Finset.Subset.refl _) fun _ => ?_
        exact Nat.add_le_add_right (stock_wakes_le hserves hitems) _
    · have hle := stock_le_of_ne hserves hserved hitems hwakes
      by_cases hown : e = op.waitsIn pxQueue
      -- one task less looks, for one unit less
      · rcases hle.2 hown with hzero | htakes
        · rw [hzero]
          exact .none
        · refine Balanced.take (a := t) ?_ (waiting_subset hk e)
            fun t' ht' hne => hlooks e t' hne ht'
          exact (h.balanced e).of_card (Finset.Subset.refl _) fun _ =>
            Nat.add_le_add_right htakes _
      · refine (h.balanced e).of_card (waiting_subset hk e) fun _ => ?_
        exact Nat.add_le_add hle.1 (Finset.card_le_card (hlooksSelf e hown))

end Stocked

end CubesatPipeline
