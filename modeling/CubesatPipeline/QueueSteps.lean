import CubesatPipeline.QueueBalance

/-!
# What every action keeps

The invariant of the queues and the tasks that wait for them (`CubesatPipeline.QueueView.Inv`),
and that every action keeps it (`CubesatPipeline.QueueView.Step.inv`).
-/

namespace CubesatPipeline

open WaitingRoom

/-! ### Frames -/

section Frames

variable {T U : Type} {c : QueueConfig T U} {now now' : ℕ} {t : T} {f f' : CallFrame U}
  {v : QueueView T U} {frame : Frame U} {e : QueueEvent U}

/-- The task is on its way to block itself. -/
def CallPoint.waits : CallPoint → Bool
  | vTaskSuspendAll | prvLockQueue | xTaskCheckForTimeOut | examine | place => true
  | _ => false

/-- The time-out is going to be checked. -/
def CallPoint.timed : CallPoint → Bool
  | vTaskSuspendAll | prvLockQueue | xTaskCheckForTimeOut => true
  | _ => false

/-- Where a task can be that delays itself. -/
def CallPoint.ofDelay : CallPoint → Bool
  | head | vTaskSuspendAll | place | xTaskResumeAll .blocked | yield (.leave _)
  | yielded (.leave _) => true
  | _ => false

/-- **What holds of a call.** -/
structure CallFrame.Proper (c : QueueConfig T U) (now : ℕ) (t : T) (f : CallFrame U) : Prop where
  request : f.request.Proper c t
  waits : f.point.waits = true → f.xTicksToWait ≠ 0
  asked : f.xTicksToWait ≠ 0 → f.request.xTicksToWait ≠ 0
  timed : f.point.timed = true → f.request.waitsIn = none ∨ f.xTimeOut.isSome = true
  entered : ∀ o, f.xTimeOut = some o → o.entered ≤ now
  delays : f.request.waitsIn = none → f.point.ofDelay = true

namespace CallFrame

theorem Proper.mono (h : f.Proper c now t) (hle : now ≤ now') : f.Proper c now' t :=
  { h with entered := fun o ho => (h.entered o ho).trans hle }

/-- The task goes on to another point. -/
theorem Proper.move (h : f.Proper c now t) {point : CallPoint}
    (hwaits : point.waits = true → f.point.waits = true)
    (htimed : point.timed = true → f.point.timed = true)
    (hdelays : f.request.waitsIn = none → point.ofDelay = true) :
    CallFrame.Proper c now t { f with point := point } where
  request := h.request
  waits hp := h.waits (hwaits hp)
  asked := h.asked
  timed hp := h.timed (htimed hp)
  entered := h.entered
  delays := hdelays

/-- The task goes on to a point from which it does not block itself. -/
theorem Proper.past (h : f.Proper c now t) {point : CallPoint} (hwaits : point.waits = false)
    (hdelays : f.request.waitsIn = none → point.ofDelay = true) :
    CallFrame.Proper c now t { f with point := point } := by
  have htimed : point.timed = true → point.waits = true := fun hp => by
    cases point <;> first | rfl | cases hp
  refine h.move (fun hp => ?_) (fun hp => ?_) hdelays
  · cases hwaits.symm.trans hp
  · cases hwaits.symm.trans (htimed hp)

theorem Proper.next (h : f.Proper c now t) {next : NextPoint}
    (hdelays : f.request.waitsIn = none → ∃ reply, next = .leave reply)
    (hframe : f.next next = .inside f') : f'.Proper c now t := by
  cases next with
  | leave => cases hframe
  | head | recheck =>
    obtain rfl := Frame.inside.inj hframe
    refine h.past rfl fun hnone => ?_
    obtain ⟨reply, heq⟩ := hdelays hnone
    cases heq

/-- The time to wait that is asked for is not zero unless the call does not wait. -/
theorem Proper.request_ne (h : f.Proper c now t) (hpos : f.xTicksToWait ≠ 0) :
    t ≠ c.xIdleTask := by
  intro heq
  have hproper := h.request
  have hasked := h.asked hpos
  cases hrequest : f.request with
  | queue pxQueue op n =>
    rw [hrequest] at hproper hasked
    exact hasked (hproper.2 heq)
  | vTaskDelay n =>
    rw [hrequest] at hproper hasked
    exact hasked (hproper heq)

namespace Moves

theorem proper (hm : f.Moves c now v (.inside f')) (h : f.Proper c now t) :
    f'.Proper c now t := by
  have hqueue : ∀ {pxQueue op n point}, f.request = .queue pxQueue op n →
      f.request.waitsIn = none → CallPoint.ofDelay point = true := fun hr hnone => by
    rw [hr] at hnone
    cases hnone
  have hpoint : ∀ {point}, f.point = point → point.ofDelay = false →
      f.request.waitsIn ≠ none := fun heq hfalse hnone => by
    cases hfalse.symm.trans (heq ▸ h.delays hnone)
  generalize hframe : Frame.inside f' = frame at hm
  cases hm with
  | refuse | empty => cases hframe
  | wait hp hr hserve hrefused hpos htime =>
    obtain rfl := Frame.inside.inj hframe
    refine ⟨h.request, fun _ => hpos, h.asked, fun _ => .inr rfl, fun o ho => ?_, hqueue hr⟩
    obtain rfl := Option.some.inj ho
    rcases htime with hset | ⟨-, hnow⟩
    · exact h.entered _ hset
    · exact hnow.le
  | delayZero hp hr hzero =>
    obtain rfl := Frame.inside.inj hframe
    exact h.past rfl fun _ => rfl
  | delay hp hr hpos =>
    obtain rfl := Frame.inside.inj hframe
    refine ⟨h.request, fun _ => hpos, h.asked, fun _ => .inl ?_, h.entered, fun _ => rfl⟩
    change f.request.waitsIn = none
    rw [hr]
    rfl
  | inTime hp htime hpos hentered hleft =>
    obtain rfl := Frame.inside.inj hframe
    refine ⟨h.request, fun _ => hpos, fun _ => h.asked (h.waits (by rw [hp]; rfl)), nofun,
      fun o ho => ?_, fun hnone => absurd hnone (hpoint hp rfl)⟩
    obtain rfl := Option.some.inj ho
    exact hentered
  | timeUp hp htime hmax hup =>
    obtain rfl := Frame.inside.inj hframe
    exact ⟨h.request, nofun, fun hne => absurd rfl hne, nofun, h.entered,
      fun hnone => absurd hnone (hpoint hp rfl)⟩
  | mustWait hp hr | again hp hr | notEmpty hp hr =>
    obtain rfl := Frame.inside.inj hframe
    exact h.move (by simp [CallPoint.waits, hp]) (by simp [CallPoint.timed]) (hqueue hr)
  | yielded hp =>
    rename_i next
    refine h.next (fun hnone => ?_) hframe.symm
    have hdelays := h.delays hnone
    rw [hp] at hdelays
    cases next with
    | leave reply => exact ⟨reply, rfl⟩
    | head | recheck => cases hdelays

/-- A task stops looking only when there is nothing. -/
theorem looks (h : f.Moves c now v frame) (hl : (Frame.inside f).looksIn e) :
    frame.looksIn e ∨ v.stock c e = 0 := by
  obtain ⟨hlooks, hwaits⟩ := hl
  cases h with
  | refuse hp hr hserve hrefused | wait hp hr hserve hrefused =>
    rw [hr] at hwaits
    obtain rfl := Option.some.inj hwaits
    right
    have hqueue : ∀ (op : QueueOp) (pxQueue : U), (op.waitsIn pxQueue).pxQueue = pxQueue :=
      fun op _ => by cases op <;> rfl
    rw [v.stock_eq, hqueue]
    exact (QueueConfig.serves hserve).left_eq_zero hrefused
  | delayZero hp hr | delay hp hr =>
    rw [hr] at hwaits
    cases hwaits
  | yielded hp =>
    rename_i next
    rw [hp] at hlooks
    cases next with
    | head => exact .inl ⟨rfl, hwaits⟩
    | recheck | leave => cases hlooks
  | inTime hp | timeUp hp | mustWait hp | again hp | empty hp | notEmpty hp =>
    rw [hp] at hlooks
    cases hlooks

/-- A task blocks itself only when there was nothing. -/
theorem places (h : f.Moves c now v frame) (hp : frame.placesIn e) : v.stock c e = 0 := by
  cases h with
  | mustWait _ hr hstock =>
    have hwaits : f.request.waitsIn = some e := hp.2
    rw [hr] at hwaits
    obtain rfl := Option.some.inj hwaits
    exact hstock
  | refuse | empty => exact hp.elim
  | yielded hpoint =>
    rename_i next
    cases next with
    | leave => exact hp.elim
    | head | recheck => cases hp.1
  | _ => cases hp.1

end Moves

end CallFrame

theorem delays_inside (f : CallFrame U) (point : CallPoint) :
    (Frame.inside { f with point := point }).delays = (Frame.inside f).delays := by
  obtain ⟨request, m, o, point'⟩ := f
  cases request <;> rfl

/-- A task suspends the scheduler just if it does so where it is. -/
theorem suspends_of_point {point : CallPoint} (hframe : frame = .inside f)
    (hpoint : f.point = point) : frame.suspends = point.suspends := by
  rw [hframe, ← hpoint]
  rfl

theorem active_of_point {point : CallPoint} (hframe : frame = .inside f)
    (hpoint : f.point = point) : frame.active = point.active := by
  rw [hframe, ← hpoint]
  rfl

theorem looks_of_point {point : CallPoint} (hframe : frame = .inside f)
    (hpoint : f.point = point) (hl : frame.looksIn e) :
    point.looks = true ∧ f.request.waitsIn = some e := by
  rw [hframe] at hl
  rw [← hpoint]
  exact hl

theorem Frame.placesIn.suspends (h : frame.placesIn e) : frame.suspends = true := by
  cases frame with
  | returned => exact h.elim
  | inside f => exact suspends_of_point rfl h.1

end Frames

/-! ### The invariant -/

section Inv

variable {T U : Type} [DecidableEq T] [DecidableEq U] {c : QueueConfig T U}
  {v v' : QueueView T U} {a : QueueAction U}

/-- **What holds in every state.** -/
structure QueueView.Inv (c : QueueConfig T U) (v : QueueView T U) : Prop where
  sched : Sched v.tasks v.frames
  suspends : Suspends v.tasks v.frames
  locks : Locks c.uxTaskGetNumberOfTasks v.lock (v.frames v.tasks.current)
  stocked : Stocked c v
  proper : ∀ t f, v.frames t = .inside f → f.Proper c v.tasks.now t

namespace QueueView.Inv

variable {frame : Frame U} {f : CallFrame U} {tasks : TaskView T (QueueEvent U)}
  {items : U → List (List UInt8)} {lock : QueueEvent U → Option ℕ}

omit [DecidableEq U] in
theorem event_of_set {t t' : T} {status : TaskStatus} {waits : TaskWait (QueueEvent U)}
    {e : QueueEvent U} (hw : (tasks.set t status waits).waits t' = .event e) :
    waits = .event e ∨ tasks.waits t' = .event e := by
  by_cases ht : t' = t
  · subst ht
    have hself : (tasks.set t' status waits).waits t' = waits := Function.update_self ..
    exact .inl (hself.symm.trans hw)
  · have hother : (tasks.set t status waits).waits t' = tasks.waits t' :=
      Function.update_of_ne ht ..
    exact .inr (hother.symm.trans hw)

omit [DecidableEq U] in
/-- Where the task that runs is, when it has gone on. -/
theorem frame_current (v : QueueView T U) (hcurrent : tasks.current = v.tasks.current) :
    Function.update v.frames v.tasks.current frame tasks.current = frame := by
  rw [hcurrent, Function.update_self]

omit [DecidableEq U] in
theorem places_goOn (v : QueueView T U) (hcurrent : tasks.current = v.tasks.current)
    {e : QueueEvent U}
    (hp : (Function.update v.frames v.tasks.current frame tasks.current).placesIn e) :
    frame.placesIn e := by
  rwa [frame_current v hcurrent] at hp

omit [DecidableEq U] in
theorem looks_goOn {P : QueueEvent U → Prop}
    (hself : ∀ e, (v.frames v.tasks.current).looksIn e → frame.looksIn e ∨ P e)
    (e : QueueEvent U) (t : T) (hl : (v.frames t).looksIn e) :
    (Function.update v.frames v.tasks.current frame t).looksIn e ∨ P e := by
  by_cases ht : t = v.tasks.current
  · subst ht
    rw [Function.update_self]
    exact hself e hl
  · rw [Function.update_of_ne ht]
    exact .inl hl

/-- **The task that runs goes on**, and the others are where they were. -/
theorem goOn (h : v.Inv c) (hcurrent : tasks.current = v.tasks.current)
    (hnow : v.tasks.now ≤ tasks.now)
    (hsched : Sched tasks (Function.update v.frames v.tasks.current frame))
    (hsuspended : tasks.suspended = if frame.suspends then 1 else 0)
    (hlocks : Locks c.uxTaskGetNumberOfTasks lock frame)
    (hstocked : Stocked c ⟨tasks, items, lock, Function.update v.frames v.tasks.current frame⟩)
    (hproper : ∀ f', frame = .inside f' → f'.Proper c tasks.now v.tasks.current) :
    Inv c ⟨tasks, items, lock, Function.update v.frames v.tasks.current frame⟩ where
  sched := hsched
  suspends := h.suspends.update hcurrent hsuspended
  locks := by
    change Locks _ lock (Function.update v.frames v.tasks.current frame tasks.current)
    rw [frame_current v hcurrent]
    exact hlocks
  stocked := hstocked
  proper := (Function.forall_update_iff v.frames fun t frame =>
    ∀ f', frame = .inside f' → f'.Proper c tasks.now t).mpr
      ⟨hproper, fun t _ f' hf' => (h.proper t f' hf').mono hnow⟩

/-- The task that runs calls something. -/
theorem request (h : v.Inv c) {r : TaskRequest U}
    (hreturned : (v.frames v.tasks.current).isReturned = true)
    (hproper : r.Proper c v.tasks.current) :
    (v.goOn (.inside ⟨r, r.xTicksToWait, none, .head⟩)).Inv c := by
  obtain ⟨reply, hframe⟩ : ∃ reply, v.frames v.tasks.current = .returned reply := by
    cases hframe : v.frames v.tasks.current with
    | returned reply => exact ⟨reply, rfl⟩
    | inside f =>
      rw [hframe] at hreturned
      cases hreturned
  have hsuspends : (v.frames v.tasks.current).suspends = false := by
    rw [hframe]
    rfl
  refine h.goOn rfl le_rfl (h.sched.move (by rw [hframe]; rfl) _)
    (h.suspends.suspended_eq_zero hsuspends) (h.locks.of_suspends hsuspends rfl)
    (h.stocked.keeps (fun _ _ => id) rfl (fun _ => rfl) (fun e hp => ?_)
      (looks_goOn fun e hl => ?_)) fun f' hf' => ?_
  · cases (places_goOn v rfl hp).1
  · rw [hframe] at hl
    exact hl.elim
  · obtain rfl := Frame.inside.inj hf'
    exact ⟨hproper, nofun, id, nofun, nofun, fun _ => rfl⟩

/-- The task that runs does something that no other task sees. -/
theorem move (h : v.Inv c) (hframe : v.frames v.tasks.current = .inside f)
    (hmoves : f.Moves c v.tasks.now v frame) : (v.goOn frame).Inv c := by
  refine h.goOn rfl le_rfl (h.sched.move (by rw [hframe]; exact hmoves.active) _) ?_
    (h.locks.of_iff fun e => by rw [hframe]; exact hmoves.locks e)
    (h.stocked.keeps (fun _ _ => id) rfl (fun _ => rfl) (fun e hp => ?_)
      (looks_goOn fun e hl => ?_)) fun f' hf' => ?_
  · rw [h.suspends.suspended, hframe, hmoves.suspends]
    rfl
  · rw [hmoves.places (places_goOn v rfl hp)]
    exact .inl (Nat.zero_le _)
  · rw [hframe] at hl
    exact hmoves.looks hl
  · subst hf'
    exact hmoves.proper (h.proper _ f hframe)

/-- The scheduler is suspended. -/
theorem suspend (h : v.Inv c) (hframe : v.frames v.tasks.current = .inside f)
    (hpoint : f.point = .vTaskSuspendAll)
    (htasks : TaskView.Step c.uxPriority .vTaskSuspendAll v.tasks tasks) :
    Inv c { v.goOn (.inside { f with point := f.request.suspended }) with tasks := tasks } := by
  have hsuspends : (v.frames v.tasks.current).suspends = false :=
    suspends_of_point hframe hpoint
  have hproper := h.proper _ f hframe
  have heases := htasks.eases (.inl rfl)
  have hzero := h.suspends.suspended_eq_zero hsuspends
  have hactive : (v.frames v.tasks.current).active = true :=
    active_of_point hframe hpoint
  cases htasks with
  | suspend =>
    -- nothing is locked yet: only the task that suspends the scheduler locks anything
    refine h.goOn rfl le_rfl ((h.sched.eases heases rfl).move hactive _) ?_ ?_
      (h.stocked.keeps heases.event rfl (fun _ => rfl) (fun e hp => ?_)
        (looks_goOn fun e hl => ?_)) fun f' hf' => ?_
    · change v.tasks.suspended + 1 = _
      rw [hzero]
      cases f.request <;> rfl
    · refine ⟨fun e => ?_, h.locks.le⟩
      change (v.lock e).isSome = true ↔ _
      rw [h.locks.eq_none hsuspends e]
      cases hrequest : f.request <;> cases e <;>
        simp [Frame.locks, CallPoint.locksTx, CallPoint.locksRx, TaskRequest.pxQueue,
          TaskRequest.suspended]
    · obtain ⟨hplace, hwaits⟩ := places_goOn v rfl hp
      cases hrequest : f.request with
      | queue => simp [hrequest, TaskRequest.suspended] at hplace
      | vTaskDelay => simp [hrequest, TaskRequest.waitsIn] at hwaits
    · cases (looks_of_point hframe hpoint hl).1
    · obtain rfl := Frame.inside.inj hf'
      refine hproper.move (fun _ => by rw [hpoint]; rfl) (fun _ => by rw [hpoint]; rfl)
        fun hnone => ?_
      cases hrequest : f.request with
      | queue =>
        rw [hrequest] at hnone
        cases hnone
      | vTaskDelay => rfl

/-- The queue is locked. -/
theorem locking (h : v.Inv c) {pxQueue : U} {op : QueueOp} {n : TickType}
    (hframe : v.frames v.tasks.current = .inside f) (hpoint : f.point = .prvLockQueue)
    (hrequest : f.request = .queue pxQueue op n) :
    Inv c { v.goOn (.inside { f with point := .xTaskCheckForTimeOut }) with
      lock := fun e => if e.pxQueue = pxQueue then some ((v.lock e).getD 0) else v.lock e } := by
  refine h.goOn rfl le_rfl (h.sched.move ?_ _) ?_
    ((hframe ▸ h.locks).locking hpoint hrequest)
    (h.stocked.keeps (fun _ _ => id) rfl (fun e => ?_) (fun e hp => ?_)
      (looks_goOn fun e hl => ?_)) fun f' hf' => ?_
  · exact active_of_point hframe hpoint
  · exact h.suspends.suspended_eq_one (suspends_of_point hframe hpoint)
  · change (if e.pxQueue = pxQueue then some ((v.lock e).getD 0) else v.lock e).getD 0 = _
    split <;> rfl
  · cases (places_goOn v rfl hp).1
  · cases (looks_of_point hframe hpoint hl).1
  · obtain rfl := Frame.inside.inj hf'
    refine (h.proper _ f hframe).move (fun _ => by rw [hpoint]; rfl)
      (fun _ => by rw [hpoint]; rfl) fun hnone => ?_
    rw [hrequest] at hnone
    cases hnone

/-- The task that runs waits for the queue. -/
theorem place (h : v.Inv c) {pxQueue : U} {op : QueueOp} {n : TickType}
    (hframe : v.frames v.tasks.current = .inside f) (hpoint : f.point = .place)
    (hrequest : f.request = .queue pxQueue op n)
    (htasks : TaskView.Step c.uxPriority
      (.vTaskPlaceOnEventList (op.waitsIn pxQueue) f.xTicksToWait) v.tasks tasks) :
    Inv c { v.goOn (.inside { f with point := .unlockTx .blocked }) with tasks := tasks } := by
  have hwaitsIn : f.request.waitsIn = some (op.waitsIn pxQueue) := by
    rw [hrequest]
    rfl
  have hsuspends : (v.frames v.tasks.current).suspends = true :=
    suspends_of_point hframe hpoint
  cases htasks with
  | wait =>
    refine h.goOn rfl le_rfl (h.sched.place TaskStatus.blocking_ne_ready rfl rfl (fun e he => ?_)
      fun _ => by simp) (h.suspends.suspended_eq_one hsuspends) (h.locks.of_iff fun e => ?_)
      (h.stocked.place rfl rfl (e := op.waitsIn pxQueue) ?_ (fun e hp => ?_) (fun t e he hw => ?_)
        fun e t _ hl => ?_) fun f' hf' => ?_
    · obtain rfl := TaskWait.event.inj he
      exact ⟨rfl, hwaitsIn⟩
    · rw [hframe]
      cases e <;> simp [Frame.locks, hpoint, CallPoint.locksTx, CallPoint.locksRx]
    · rw [hframe]
      exact ⟨hpoint, hwaitsIn⟩
    · cases (places_goOn v rfl hp).1
    · rcases event_of_set hw with heq | hw
      · exact absurd (TaskWait.event.inj heq).symm he
      · exact hw
    · refine (looks_goOn (P := fun _ => False) (fun e' hl' => ?_) e t hl).resolve_right id
      cases (looks_of_point hframe hpoint hl').1
    · obtain rfl := Frame.inside.inj hf'
      refine (h.proper _ f hframe).past rfl fun hnone => ?_
      cases hwaitsIn.symm.trans hnone

/-- The task that runs delays itself. -/
theorem placeDelay (h : v.Inv c) {n : TickType} (hframe : v.frames v.tasks.current = .inside f)
    (hpoint : f.point = .place) (hrequest : f.request = .vTaskDelay n)
    (htasks : TaskView.Step c.uxPriority (.prvAddCurrentTaskToDelayedList f.xTicksToWait)
      v.tasks tasks) :
    Inv c
      { v.goOn (.inside { f with point := .xTaskResumeAll .blocked }) with tasks := tasks } := by
  have hsuspends : (v.frames v.tasks.current).suspends = true :=
    suspends_of_point hframe hpoint
  have hdelays : (Frame.inside { f with point := .xTaskResumeAll .blocked }).delays = true := by
    obtain ⟨request, m, o, point⟩ := f
    subst hrequest
    rfl
  cases htasks with
  | delay =>
    refine h.goOn rfl le_rfl (h.sched.place TaskStatus.blocking_ne_ready rfl rfl
      (fun e he => by cases he) fun hfalse => ?_) (h.suspends.suspended_eq_one hsuspends)
      (h.locks.of_iff fun e => ?_)
      (h.stocked.keeps (fun t e hw => ?_) rfl (fun _ => rfl) (fun e hp => ?_)
        (looks_goOn fun e hl => ?_)) fun f' hf' => ?_
    · cases hdelays.symm.trans hfalse
    · rw [hframe]
      cases e <;> simp [Frame.locks, hrequest, TaskRequest.pxQueue]
    · exact (event_of_set hw).resolve_left (by simp)
    · cases (places_goOn v rfl hp).1
    · rw [hframe] at hl
      have hwaits := hl.2
      rw [hrequest] at hwaits
      cases hwaits
    · obtain rfl := Frame.inside.inj hf'
      exact (h.proper _ f hframe).past rfl fun _ => rfl

/-- One half of the queue is unlocked. -/
theorem unlock (h : v.Inv c) {e : QueueEvent U} {point : CallPoint} {woken : Finset T}
    (hframe : v.frames v.tasks.current = .inside f) (hunlocks : f.Unlocks e point)
    (hfreed : v.tasks.Freed c.uxPriority e ((v.lock e).getD 0) tasks woken) :
    Inv c { v.goOn (.inside { f with point := point }) with
      tasks := tasks, lock := Function.update v.lock e none } := by
  have hsuspends : (v.frames v.tasks.current).suspends = true := by
    rw [hframe]
    cases hunlocks with
    | tx hpoint | rx hpoint => exact suspends_of_point rfl hpoint
  have hsched : Sched tasks
      (Function.update v.frames v.tasks.current (.inside { f with point := point })) := by
    have heased := h.sched.eases hfreed.eases hfreed.current
    rw [← hfreed.current]
    cases hunlocks with
    | tx hpoint hrequest | rx hpoint hrequest =>
      rename_i outcome
      cases outcome with
      -- the task that runs may itself be one of those that are woken
      | blocked =>
        refine heased.goOn rfl rfl (fun e hrests => ?_) ?_
        · rw [hfreed.current, hframe] at hrests
          exact ⟨rfl, hrests.2⟩
        · rw [hfreed.current, hframe, delays_inside]
      | again | timedOut =>
        refine heased.move ?_ _
        rw [hfreed.current]
        exact active_of_point hframe hpoint
  refine h.goOn hfreed.current hfreed.now.ge hsched ?_ ((hframe ▸ h.locks).unlock hunlocks)
    (h.stocked.unlock h.sched hfreed rfl rfl (fun e hp => ?_) fun e t hl =>
      (looks_goOn (P := fun _ => False) (fun e' hl' => .inl ?_) e t hl).resolve_right id)
    fun f' hf' => ?_
  · rw [hfreed.suspended, h.suspends.suspended_eq_one hsuspends]
    cases hunlocks <;> rfl
  · have hplace := (places_goOn v hfreed.current hp).1
    cases hunlocks <;> cases hplace
  · rw [hframe] at hl'
    obtain ⟨hlooks, hwaits⟩ := hl'
    refine ⟨?_, hwaits⟩
    cases hunlocks with
    | tx hpoint hrequest | rx hpoint hrequest =>
      rename_i outcome
      rw [hpoint] at hlooks
      cases outcome <;> exact hlooks
  · obtain rfl := Frame.inside.inj hf'
    rw [hfreed.now]
    cases hunlocks with
    | tx hpoint hrequest | rx hpoint hrequest =>
      refine (h.proper _ f hframe).past rfl fun hnone => ?_
      rw [hrequest] at hnone
      cases hnone

/-- The scheduler is resumed. -/
theorem resume (h : v.Inv c) {outcome : Outcome} (hframe : v.frames v.tasks.current = .inside f)
    (hpoint : f.point = .xTaskResumeAll outcome)
    (htasks : TaskView.Step c.uxPriority .xTaskResumeAll v.tasks tasks)
    (hnext : frame = .inside { f with point := .yield (f.request.after outcome) } ∨
      outcome ≠ .blocked ∧ frame = f.next (f.request.after outcome)) :
    Inv c { v.goOn frame with tasks := tasks } := by
  have hsuspends : (v.frames v.tasks.current).suspends = true :=
    suspends_of_point hframe hpoint
  have hone := h.suspends.suspended_eq_one hsuspends
  have heases := htasks.eases (.inr (.inl rfl))
  have hproper := h.proper _ f hframe
  have hcurrent : tasks.current = v.tasks.current := by cases htasks <;> rfl
  have hzero : tasks.suspended = 0 := by
    cases htasks with
    | resumeNested hlt => omega
    | resume => rfl
  have heased := h.sched.eases heases hcurrent
  have hquiet : ∀ next, (f.next next).suspends = false ∧ ∀ e, ¬ (f.next next).placesIn e := by
    intro next
    cases next with
    | leave => exact ⟨rfl, fun e => id⟩
    | head | recheck => exact ⟨rfl, fun e hp => by cases hp.1⟩
  have hfalse : frame.suspends = false ∧ ∀ e, ¬ frame.placesIn e := by
    rcases hnext with rfl | ⟨-, rfl⟩
    · exact ⟨rfl, fun e hp => by cases hp.1⟩
    · exact hquiet _
  have hsched : Sched tasks (Function.update v.frames v.tasks.current frame) := by
    rw [← hcurrent]
    by_cases hblocked : outcome = .blocked
    -- a task that has blocked itself yields, and need not be ready until it is chosen
    · subst hblocked
      obtain rfl := hnext.resolve_right fun hne => hne.1 rfl
      refine heased.goOn rfl rfl (fun e hrests => ?_) ?_
      · rw [hcurrent, hframe] at hrests
        obtain ⟨-, hwaits⟩ := hrests
        refine ⟨?_, hwaits⟩
        cases hrequest : f.request with
        | queue => simp [TaskRequest.after, CallPoint.rests]
        | vTaskDelay =>
          rw [hrequest] at hwaits
          cases hwaits
      · rw [hcurrent, hframe, delays_inside]
    · refine heased.move ?_ _
      rw [hcurrent, active_of_point hframe hpoint]
      cases outcome with
      | blocked => exact absurd rfl hblocked
      | again | timedOut => rfl
  refine h.goOn hcurrent htasks.now_le hsched ?_ (h.locks.of_iff fun e => ?_)
    (h.stocked.keeps heases.event rfl (fun _ => rfl)
      (fun e hp => absurd (places_goOn v hcurrent hp) (hfalse.2 e)) (looks_goOn fun e hl => ?_))
    fun f' hf' => ?_
  · rw [hzero, hfalse.1]
    rfl
  · refine iff_of_false (fun hl => Bool.false_ne_true (hfalse.1.symm.trans hl.suspends)) ?_
    rw [hframe]
    cases e <;> simp [Frame.locks, hpoint, CallPoint.locksTx, CallPoint.locksRx]
  · obtain ⟨hlooks, hwaits⟩ := looks_of_point hframe hpoint hl
    cases outcome with
    | again | timedOut => cases hlooks
    | blocked =>
      obtain rfl := hnext.resolve_right fun hne => hne.1 rfl
      refine .inl ⟨?_, hwaits⟩
      cases hrequest : f.request with
      | queue => simp [TaskRequest.after, CallPoint.looks, CallPoint.rests]
      | vTaskDelay =>
        rw [hrequest] at hwaits
        cases hwaits
  · have hdelays : f.request.waitsIn = none → ∃ reply, f.request.after outcome = .leave reply := by
      intro hnone
      cases hrequest : f.request with
      | queue =>
        rw [hrequest] at hnone
        cases hnone
      | vTaskDelay => exact ⟨.pass, rfl⟩
    refine CallFrame.Proper.mono ?_ htasks.now_le
    rcases hnext with rfl | ⟨-, rfl⟩
    · obtain rfl := Frame.inside.inj hf'
      refine hproper.past rfl fun hnone => ?_
      obtain ⟨reply, heq⟩ := hdelays hnone
      rw [heq]
      rfl
    · exact hproper.next hdelays hf'

/-- While no task suspends the scheduler, nothing is locked, whoever runs. -/
theorem locks_of_zero (h : v.Inv c) (hzero : v.tasks.suspended = 0) {frame : Frame U}
    (hframe : frame.suspends = false) : Locks c.uxTaskGetNumberOfTasks v.lock frame :=
  h.locks.of_suspends (h.suspends.suspends_eq hzero _) hframe

/-- The task that runs lets others run. -/
theorem yield (h : v.Inv c) {next : NextPoint} (hframe : v.frames v.tasks.current = .inside f)
    (hpoint : f.point = .yield next)
    (htasks : TaskView.Step c.uxPriority .vTaskSwitchContext v.tasks tasks) :
    Inv c { v.goOn (.inside { f with point := .yielded next }) with tasks := tasks } := by
  have hsuspends : (v.frames v.tasks.current).suspends = false :=
    suspends_of_point hframe hpoint
  have hzero := h.suspends.suspended_eq_zero hsuspends
  have heases := htasks.eases (.inr (.inr (.inr rfl)))
  have hproper := h.proper _ f hframe
  have hsus : Suspends tasks
      (Function.update v.frames v.tasks.current (.inside { f with point := .yielded next })) :=
    h.suspends.yield htasks hzero rfl
  have hzero' : tasks.suspended = 0 := by
    cases htasks with
    | switch | switchPended => exact hzero
  refine ⟨h.sched.yield htasks hzero rfl (fun e hrests => ?_) ?_, hsus,
    h.locks_of_zero hzero (hsus.suspends_eq hzero' _),
    h.stocked.keeps heases.event rfl (fun _ => rfl) (fun e hp => ?_) (looks_goOn fun e hl => ?_),
    (Function.forall_update_iff v.frames fun t frame =>
      ∀ f', frame = .inside f' → f'.Proper c tasks.now t).mpr
        ⟨fun f' hf' => ?_, fun t _ f' hf' => (h.proper t f' hf').mono htasks.now_le⟩⟩
  · rw [hframe] at hrests
    obtain ⟨hrests, hwaits⟩ := hrests
    refine ⟨?_, hwaits⟩
    rw [hpoint] at hrests
    cases next <;> exact hrests
  · rw [hframe, delays_inside]
  · exact absurd ((hsus.suspends_eq hzero' _).symm.trans hp.suspends) Bool.false_ne_true
  · obtain ⟨hlooks, hwaits⟩ := looks_of_point hframe hpoint hl
    refine .inl ⟨?_, hwaits⟩
    cases next <;> exact hlooks
  · obtain rfl := Frame.inside.inj hf'
    refine CallFrame.Proper.mono (hproper.past rfl fun hnone => ?_) htasks.now_le
    have hdelays := hproper.delays hnone
    rw [hpoint] at hdelays
    cases next <;> exact hdelays

/-- A tick. -/
theorem tick (h : v.Inv c)
    (htasks : TaskView.Step c.uxPriority .xTaskIncrementTick v.tasks tasks) :
    Inv c { v with tasks := tasks } := by
  have heases := htasks.eases (.inr (.inr (.inl rfl)))
  have hcurrent : tasks.current = v.tasks.current := by cases htasks <;> rfl
  have hsuspended : tasks.suspended = v.tasks.suspended := by cases htasks <;> rfl
  refine ⟨h.sched.eases heases hcurrent, h.suspends.of_eq hcurrent hsuspended,
    (congrArg v.frames hcurrent).symm ▸ h.locks,
    h.stocked.keeps heases.event rfl (fun _ => rfl) (fun e hp => h.stocked.placing e ?_)
      fun _ _ => .inl, fun t f hf => (h.proper t f hf).mono htasks.now_le⟩
  exact hcurrent ▸ hp

/-- A switch that an interrupt makes. -/
theorem switch (h : v.Inv c)
    (htasks : TaskView.Step c.uxPriority .vTaskSwitchContext v.tasks tasks) :
    Inv c { v with tasks := tasks } := by
  have heases := htasks.eases (.inr (.inr (.inr rfl)))
  have hsched := h.sched.switch htasks
  have hsus := h.suspends.switch htasks
  cases htasks with
  | switchPended => exact h
  | switch _ hzero =>
    exact ⟨hsched, hsus, h.locks_of_zero hzero (hsus.suspends_eq hzero _),
      h.stocked.keeps heases.event rfl (fun _ => rfl) (fun e hp =>
        absurd ((hsus.suspends_eq hzero _).symm.trans hp.suspends) Bool.false_ne_true)
        fun _ _ => .inl, h.proper⟩

/-- The task that runs is served, and wakes a task. -/
theorem serve (h : v.Inv c) {pxQueue : U} {op : QueueOp} {n : TickType} {reply : QueueReply}
    {items : List (List UInt8)} {woken : Finset T}
    (hframe : v.frames v.tasks.current = .inside f) (hpoint : f.point = .head)
    (hrequest : f.request = .queue pxQueue op n)
    (hserve : c.serve pxQueue op (v.items pxQueue) = some (reply, items))
    (hserved : reply.served = true)
    (hfreed : v.tasks.Freed c.uxPriority (op.wakes pxQueue) 1 tasks woken)
    (hleaves : frame = .returned reply ∨
      frame = .inside { f with point := .yield (.leave reply) }) :
    Inv c { v.goOn frame with
      tasks := tasks, items := Function.update v.items pxQueue items } := by
  have hsuspends : (v.frames v.tasks.current).suspends = false :=
    suspends_of_point hframe hpoint
  have hactive : (v.frames v.tasks.current).active = true :=
    active_of_point hframe hpoint
  have hquiet : frame.suspends = false ∧ ∀ e, ¬ frame.placesIn e := by
    rcases hleaves with rfl | rfl
    · exact ⟨rfl, fun e => id⟩
    · exact ⟨rfl, fun e hp => by cases hp.1⟩
  have hnot : v.tasks.current ∉ woken := fun hw => by
    have hnothing := h.sched.nothing _ (h.sched.active hactive)
    cases hnothing.symm.trans (hfreed.waited _ hw)
  refine h.goOn hfreed.current hfreed.now.ge ?_ ?_ (h.locks.of_suspends hsuspends hquiet.1)
    (h.stocked.serve h.sched (QueueConfig.serves hserve) hserved hfreed rfl rfl
      (fun e hp => absurd (places_goOn v hfreed.current hp) (hquiet.2 e)) v.tasks.current
      (.inl hnot) (fun t ht => Function.update_of_ne ht ..) (.inr fun e hl => ?_)) fun f' hf' => ?_
  · rw [← hfreed.current]
    exact (h.sched.eases hfreed.eases hfreed.current).move
      (by rw [hfreed.current]; exact hactive) _
  · rw [hfreed.suspended, h.suspends.suspended_eq_zero hsuspends, hquiet.1]
    rfl
  · rw [hframe] at hl
    have hwaits := hl.2
    rw [hrequest] at hwaits
    exact (Option.some.inj hwaits).symm
  · rcases hleaves with rfl | rfl
    · cases hf'
    · obtain rfl := Frame.inside.inj hf'
      rw [hfreed.now]
      exact (h.proper _ f hframe).past rfl fun _ => rfl

/-- An interrupt is served, and wakes a task. -/
theorem serveISR (h : v.Inv c) {pxQueue : U} {op : QueueOp} {reply : QueueReply}
    {items : List (List UInt8)} {woken : Finset T} (ha : a.fromISR = some (pxQueue, op))
    (hunlocked : v.lock (op.wakes pxQueue) = none)
    (hserve : c.serve pxQueue op (v.items pxQueue) = some (reply, items))
    (hserved : reply.served = true)
    (hfreed : v.tasks.Freed c.uxPriority (op.wakes pxQueue) 1 tasks woken) :
    Inv c { v with tasks := tasks, items := Function.update v.items pxQueue items } := by
  have hlocks : Locks c.uxTaskGetNumberOfTasks v.lock (v.frames tasks.current) :=
    (congrArg v.frames hfreed.current).symm ▸ h.locks
  refine ⟨h.sched.eases hfreed.eases hfreed.current,
    h.suspends.of_eq hfreed.current hfreed.suspended, hlocks,
    h.stocked.serve h.sched (QueueConfig.serves hserve) hserved hfreed rfl rfl
      (fun e hp => ?_) v.tasks.current (.inr rfl) (fun _ _ => rfl) (.inl rfl),
    fun t f hf => (h.proper t f hf).mono hfreed.now.ge⟩
  have hplaces : (v.frames v.tasks.current).placesIn e := hfreed.current ▸ hp
  refine ⟨?_, hplaces⟩
  rintro rfl
  -- a task that is about to wait has locked the queue
  have hlocked := (h.locks.locked (op.wakes pxQueue)).mpr ?_
  · rw [hunlocked] at hlocked
    cases hlocked
  · cases hframe : v.frames v.tasks.current with
    | returned =>
      rw [hframe] at hplaces
      exact hplaces.elim
    | inside f =>
      rw [hframe] at hplaces
      obtain ⟨hpoint, hwaits⟩ := hplaces
      cases hrequest : f.request with
      | vTaskDelay =>
        rw [hrequest] at hwaits
        cases hwaits
      | queue pxQueue' op' n =>
        rw [hrequest] at hwaits
        have hqueue : pxQueue' = pxQueue := by
          cases op <;> cases op' <;>
            simp_all [TaskRequest.waitsIn, QueueOp.waitsIn, QueueOp.wakes]
        subst hqueue
        cases op <;> simp [QueueOp.wakes, Frame.locks, hpoint, hrequest, CallPoint.locksTx,
          CallPoint.locksRx, TaskRequest.pxQueue]

/-- What an interrupt does is counted. -/
theorem countISR (h : v.Inv c) {pxQueue : U} {op : QueueOp} {reply : QueueReply}
    {items : List (List UInt8)} {n : ℕ} (hlocked : v.lock (op.wakes pxQueue) = some n)
    (hserve : c.serve pxQueue op (v.items pxQueue) = some (reply, items))
    (hserved : reply.served = true) :
    Inv c { v with
      items := Function.update v.items pxQueue items
      lock := Function.update v.lock (op.wakes pxQueue)
        (some (if n < c.uxTaskGetNumberOfTasks then n + 1 else n)) } :=
  ⟨h.sched, h.suspends, h.locks.count hlocked,
    h.stocked.count (QueueConfig.serves hserve) hserved hlocked rfl rfl rfl rfl, h.proper⟩

end QueueView.Inv

/-- **Every action keeps it.** -/
theorem QueueView.Step.inv (hstep : QueueView.Step c a v v') (h : v.Inv c) : v'.Inv c := by
  cases hstep with
  | request _ _ hreturned hproper => exact h.request hreturned hproper
  | move _ hframe hmoves => exact h.move hframe hmoves
  | serve _ hframe hpoint hrequest hserve hserved hfreed hleaves =>
    exact h.serve hframe hpoint hrequest hserve hserved hfreed hleaves
  | suspend _ hframe hpoint htasks => exact h.suspend hframe hpoint htasks
  | lock _ hframe hpoint hrequest => exact h.locking hframe hpoint hrequest
  | place _ hframe hpoint hrequest htasks => exact h.place hframe hpoint hrequest htasks
  | placeDelay _ hframe hpoint hrequest htasks => exact h.placeDelay hframe hpoint hrequest htasks
  | unlock _ hframe hunlocks hfreed => exact h.unlock hframe hunlocks hfreed
  | resume _ hframe hpoint htasks hnext => exact h.resume hframe hpoint htasks hnext
  | yield _ hframe hpoint htasks => exact h.yield hframe hpoint htasks
  | tick _ htasks => exact h.tick htasks
  | switch _ htasks => exact h.switch htasks
  | serveISR _ ha hunlocked hserve hserved hfreed =>
    exact h.serveISR ha hunlocked hserve hserved hfreed
  | countISR _ ha hlocked hserve hserved => exact h.countISR hlocked hserve hserved
  | refuseISR => exact h

/-- It holds at the start. -/
theorem QueueView.inv_start {t : T} {reply : QueueReply} :
    QueueView.Inv c ⟨.start t, fun _ => [], fun _ => none, fun _ => .returned reply⟩ where
  sched := ⟨fun _ _ => rfl, fun _ => rfl, nofun, fun _ _ => .inl rfl, fun _ _ => rfl⟩
  suspends := ⟨rfl, fun _ _ => rfl⟩
  locks := ⟨fun e => iff_of_false Bool.false_ne_true (by cases e <;> exact id), nofun⟩
  stocked := by
    refine ⟨fun _ => Nat.zero_le _, nofun, fun e => ?_⟩
    have hnone : QueueView.waiting c
        ⟨.start t, fun _ => [], fun _ => none, fun _ => .returned reply⟩ e = ∅ :=
      Finset.eq_empty_of_forall_notMem fun t' ht' => by cases mem_waiting.mp ht'
    rw [hnone]
    exact balanced_start
  proper := nofun

/-- **No wake-up is lost**: while the scheduler is not suspended and some task waits, no more is
there than tasks are going to look for it, and these tasks are ready. -/
theorem QueueView.Inv.noLostWakeUp (h : v.Inv c) (hzero : v.tasks.suspended = 0)
    (hnoted : ∀ t, v.tasks.waits t ≠ .noted) {e : QueueEvent U} {t : T}
    (ht : v.tasks.waits t = .event e) :
    ∃ looking : Finset T, v.stock c e ≤ looking.card ∧
      ∀ t' ∈ looking, v.tasks.status t' = .ready ∧ (v.frames t').looksIn e := by
  have hnone := h.locks.eq_none (h.suspends.suspends_eq hzero _) e
  have hbalanced := h.stocked.balanced e
  rw [hnone] at hbalanced
  refine ⟨v.looking c e, hbalanced.le ?_ ⟨t, mem_waiting.mpr ht⟩, fun t' ht' => ?_⟩
  · rw [← c.card_all]
    exact Finset.card_pos.mpr ⟨t, c.mem_all t⟩
  · obtain ⟨hlooks, hne⟩ := mem_looking.mp ht'
    refine ⟨?_, hlooks⟩
    have hdelays : (v.frames t').delays = false := by
      cases hframe : v.frames t' with
      | returned => rfl
      | inside f =>
        obtain ⟨request, m, o, point⟩ := f
        rw [hframe] at hlooks
        cases request with
        | queue => rfl
        | vTaskDelay => cases hlooks.2
    refine (h.sched.awake t' hdelays).resolve_right fun hwaits => ?_
    cases hw : v.tasks.waits t' with
    | nothing => exact hwaits hw
    | noted => exact hnoted t' hw
    | event e' =>
      -- it would wait in the list that it is going to look for
      have hrests := h.sched.rests t' e' hw
      cases hframe : v.frames t' with
      | returned =>
        rw [hframe] at hlooks
        exact hlooks.elim
      | inside f =>
        rw [hframe] at hlooks hrests
        obtain rfl := Option.some.inj (hlooks.2.symm.trans hrests.2)
        exact hne hw

end Inv

end CubesatPipeline
