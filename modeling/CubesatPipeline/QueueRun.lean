import CubesatPipeline.QueueCalls

/-!
# The code of the queues does what it is for

Each action that may happen comes to an end and is a step of what is seen
(`CubesatPipeline.QueueSys.Shows.fire`), but for an assertion on what is counted while a queue is
locked, which can fail only with more tasks than that type can count. There is one lemma for each
part of the code.
-/

namespace CubesatPipeline

/-! ### What is seen of the queues -/

section Shows

variable {T U : Type} {c : QueueConfig T U} {pxQueue : U} {op : QueueOp}
  {items items' : List (List UInt8)} {reply : QueueReply} {q : KernelQueue} {tx rx : Option ℕ}

/-- How what is counted is stored. -/
def lockValue : Option ℕ → ℤ
  | none => queueUnlocked
  | some n => n

theorem toNat_lockValue (l : Option ℕ) : (lockValue l).toNat = l.getD 0 := by
  cases l <;> rfl

theorem lockValue_eq_unlocked {l : Option ℕ} : lockValue l = queueUnlocked ↔ l = none := by
  cases l with
  | none => exact iff_of_true rfl rfl
  | some n =>
    refine iff_of_false (fun heq => ?_) nofun
    change (n : ℤ) = -1 at heq
    omega

/-- **What is seen of a queue.** -/
structure KernelQueue.Shows (c : QueueConfig T U) (pxQueue : U) (q : KernelQueue)
    (items : List (List UInt8)) (tx rx : Option ℕ) : Prop where
  storage : q.storage.Holds (c.uxLength pxQueue) (c.uxItemSize pxQueue) items
  tx : q.cTxLock = lockValue tx
  rx : q.cRxLock = lockValue rx

/-- What may be done to a queue is answered. -/
theorem QueueConfig.exists_serve
    (hproper : op.Proper (c.uxLength pxQueue) (c.uxItemSize pxQueue))
    (items : List (List UInt8)) :
    ∃ reply items', c.serve pxQueue op items = some (reply, items') := by
  cases op with
  | xQueueGenericSend item xCopyPosition =>
    obtain ⟨hitem, hone⟩ := hproper
    cases xCopyPosition with
    | sendToBack | sendToFront => exact ⟨_, _, if_pos hitem⟩
    | overwrite => exact ⟨_, _, if_pos ⟨hitem, hone rfl⟩⟩
  | xQueueReceive | xQueuePeek =>
    cases items with
    | nil | cons => exact ⟨_, _, rfl⟩

/-- A call that is not served changes nothing. -/
theorem QueueConfig.Serves.refused (h : c.Serves pxQueue op items reply items')
    (hrefused : reply.served = false) : items' = items := by
  cases h with
  | full | receivedNone | peekedNone => rfl
  | _ => cases hrefused

/-- **The storage of a queue is served as its items are.** -/
theorem KernelQueue.Shows.call (h : q.Shows c pxQueue items tx rx)
    (hproper : op.Proper (c.uxLength pxQueue) (c.uxItemSize pxQueue)) :
    ∃ reply storage items', q.storage.call op.call = some (reply, storage) ∧
      c.serve pxQueue op items = some (reply, items') ∧
      KernelQueue.Shows c pxQueue { q with storage := storage } items' tx rx := by
  obtain ⟨reply, items', hserve⟩ := c.exists_serve hproper items
  obtain ⟨storage, hcall, hholds⟩ := h.storage.call (c.fits pxQueue) hserve
  exact ⟨reply, storage, items', hcall, hserve, hholds, h.tx, h.rx⟩

variable [DecidableEq T]

/-- **What is seen of the system.** -/
structure QueueSys.Shows [DecidableEq U] (c : QueueConfig T U) (s : QueueSys T U)
    (v : QueueView T U) : Prop where
  tasks : s.sched.Shows c.toTaskConfig v.tasks
  frames : s.frames = v.frames
  queues : ∀ pxQueue, (s.queues pxQueue).Shows c pxQueue (v.items pxQueue)
    (v.lock (.xTasksWaitingToReceive pxQueue)) (v.lock (.xTasksWaitingToSend pxQueue))

variable [DecidableEq U] {s : QueueSys T U} {v : QueueView T U}

namespace QueueSys.Shows

omit [DecidableEq T] in
theorem current (h : s.Shows c v) : s.current = v.tasks.current := by
  obtain ⟨lists, -, hview⟩ := h.tasks.good
  rw [← hview]
  rfl

omit [DecidableEq T] in
theorem suspended (h : s.Shows c v) :
    s.sched.kernel.uxSchedulerSuspended = v.tasks.suspended := by
  obtain ⟨lists, -, hview⟩ := h.tasks.good
  rw [← hview]
  rfl

omit [DecidableEq T] in
theorem now (h : s.Shows c v) : s.sched.kernel.now = v.tasks.now := by
  obtain ⟨lists, -, hview⟩ := h.tasks.good
  rw [← hview]
  rfl

/-- The task that runs goes on. -/
theorem goOn (h : s.Shows c v) {sched : TaskSys T (QueueEvent U)} {queues : U → KernelQueue}
    {frame : Frame U} {tasks : TaskView T (QueueEvent U)} {items : U → List (List UInt8)}
    {lock : QueueEvent U → Option ℕ} (htasks : sched.Shows c.toTaskConfig tasks)
    (hqueues : ∀ pxQueue, (queues pxQueue).Shows c pxQueue (items pxQueue)
      (lock (.xTasksWaitingToReceive pxQueue)) (lock (.xTasksWaitingToSend pxQueue))) :
    (s.goOn sched queues frame).Shows c
      ⟨tasks, items, lock, Function.update v.frames v.tasks.current frame⟩ where
  tasks := htasks
  frames := by
    change Function.update s.frames s.current frame = _
    rw [h.current, h.frames]
  queues := hqueues

omit [DecidableEq T] in
/-- One of the queues is changed. -/
theorem set (h : s.Shows c v) {pxQueue : U} {q : KernelQueue} (items : U → List (List UInt8))
    (lock : QueueEvent U → Option ℕ)
    (hq : q.Shows c pxQueue (items pxQueue) (lock (.xTasksWaitingToReceive pxQueue))
      (lock (.xTasksWaitingToSend pxQueue)))
    (hitems : ∀ u, u ≠ pxQueue → items u = v.items u)
    (hlock : ∀ e : QueueEvent U, e.pxQueue ≠ pxQueue → lock e = v.lock e) (u : U) :
    (s.set pxQueue q u).Shows c u (items u) (lock (.xTasksWaitingToReceive u))
      (lock (.xTasksWaitingToSend u)) := by
  by_cases hu : u = pxQueue
  · subst hu
    rw [QueueSys.set, Function.update_self]
    exact hq
  · rw [QueueSys.set, Function.update_of_ne hu, hitems u hu, hlock (.xTasksWaitingToReceive u) hu,
      hlock (.xTasksWaitingToSend u) hu]
    exact h.queues u

omit [DecidableEq T] in
/-- The items of one queue are changed. -/
theorem setItems (h : s.Shows c v) {pxQueue : U} {q : KernelQueue} {items : List (List UInt8)}
    (hq : q.Shows c pxQueue items (v.lock (.xTasksWaitingToReceive pxQueue))
      (v.lock (.xTasksWaitingToSend pxQueue))) (u : U) :
    (s.set pxQueue q u).Shows c u (Function.update v.items pxQueue items u)
      (v.lock (.xTasksWaitingToReceive u)) (v.lock (.xTasksWaitingToSend u)) :=
  h.set _ v.lock (by rw [Function.update_self]; exact hq) (fun _ hu => Function.update_of_ne hu ..)
    (fun _ _ => rfl) u

omit [DecidableEq T] in
/-- The items of one queue are changed, and what is counted in one of its lists. -/
theorem setLock (h : s.Shows c v) (pxQueue : U) {e : QueueEvent U} {l : Option ℕ}
    {q : KernelQueue} {items : List (List UInt8)} (he : e.pxQueue = pxQueue)
    (hq : q.Shows c pxQueue items (Function.update v.lock e l (.xTasksWaitingToReceive pxQueue))
      (Function.update v.lock e l (.xTasksWaitingToSend pxQueue))) (u : U) :
    (s.set pxQueue q u).Shows c u (Function.update v.items pxQueue items u)
      (Function.update v.lock e l (.xTasksWaitingToReceive u))
      (Function.update v.lock e l (.xTasksWaitingToSend u)) :=
  h.set _ (Function.update v.lock e l) (by rw [Function.update_self]; exact hq)
    (fun _ hu => Function.update_of_ne hu ..)
    (fun e' he' => Function.update_of_ne (by rintro rfl; exact he' he) ..) u

end QueueSys.Shows

end Shows

/-! ### The parts of the code -/

section Parts

variable {T U : Type} [DecidableEq T] [DecidableEq U] {c : QueueConfig T U} {s : QueueSys T U}
  {v : QueueView T U} {a : QueueAction U}

/-- **Something comes to an end**, and what is seen of it is a step. -/
def QueueSys.Follows (c : QueueConfig T U) (a : QueueAction U) (v : QueueView T U)
    (o : Option (QueueSys T U)) : Prop :=
  ∃ s' v', o = some s' ∧ s'.Shows c v' ∧ QueueView.Step c a v v'

/-- The same, or the assertion on the count of a lock fails, which is too small for the tasks. -/
def QueueSys.FollowsOrAsserts (c : QueueConfig T U) (a : QueueAction U) (v : QueueView T U)
    (o : Option (QueueSys T U)) : Prop :=
  o = none ∧ queueInt8Max.toNat < c.uxTaskGetNumberOfTasks ∨ QueueSys.Follows c a v o

namespace QueueSys.Shows

variable {request : TaskRequest U} {pxQueue : U} {op : QueueOp} {n m : TickType}
  {o : Option TimeOut} {outcome : Outcome} {next : NextPoint}

/-- The task does something by itself. -/
theorem moves (h : s.Shows c v) {f : CallFrame U} {frame : Frame U} {queues : U → KernelQueue}
    (hqueues : ∀ pxQueue, (queues pxQueue).Shows c pxQueue (v.items pxQueue)
      (v.lock (.xTasksWaitingToReceive pxQueue)) (v.lock (.xTasksWaitingToSend pxQueue)))
    (hframe : v.frames v.tasks.current = .inside f)
    (hmoves : f.Moves c v.tasks.now v frame) :
    QueueSys.Follows c .step v (some (s.goOn s.sched queues frame)) :=
  ⟨_, _, rfl, h.goOn h.tasks hqueues, .move v hframe hmoves⟩

/-- The head of the loop. -/
theorem head (h : s.Shows c v) (hinv : v.Inv c)
    (hframe : v.frames v.tasks.current = .inside ⟨.queue pxQueue op n, m, o, .head⟩) :
    QueueSys.Follows c .step v (s.head ⟨.queue pxQueue op n, m, o, .head⟩) := by
  obtain ⟨reply, storage, items, hcall, hserve, hqueue⟩ :=
    (h.queues pxQueue).call (hinv.proper _ _ hframe).request.1
  cases hserved : reply.served with
  | true =>
    obtain ⟨woken, sched, tasks, W, hwake, htasks, hfreed⟩ :=
      h.tasks.wakeWaiting (op.wakes pxQueue)
    have heq : s.head ⟨.queue pxQueue op n, m, o, .head⟩ = some (s.goOn sched
        (s.set pxQueue { s.queues pxQueue with storage := storage })
        (if woken then .inside ⟨.queue pxQueue op n, m, o, .yield (.leave reply)⟩
        else .returned reply)) := by
      simp only [QueueSys.head, hcall, hwake, Option.bind_eq_bind, Option.bind_some, hserved,
        if_true]
      rfl
    refine ⟨_, _, heq, h.goOn htasks (h.setItems hqueue),
      .serve v hframe rfl rfl hserve hserved hfreed ?_⟩
    cases woken with
    | true => exact .inr rfl
    | false => exact .inl rfl
  | false =>
    have hsame := (QueueConfig.serves hserve).refused hserved
    subst hsame
    have hqueues := h.setItems hqueue
    rw [Function.update_eq_self] at hqueues
    by_cases hzero : m = 0
    · have heq : s.head ⟨.queue pxQueue op n, m, o, .head⟩ = some (s.goOn s.sched
          (s.set pxQueue { s.queues pxQueue with storage := storage }) (.returned reply)) := by
        simp only [QueueSys.head, hcall, Option.bind_eq_bind, Option.bind_some, hserved, hzero]
        rfl
      rw [heq]
      exact h.moves hqueues hframe (.refuse rfl rfl hserve hserved hzero)
    · have heq : s.head ⟨.queue pxQueue op n, m, o, .head⟩ = some (s.goOn s.sched
          (s.set pxQueue { s.queues pxQueue with storage := storage })
          (.inside ⟨.queue pxQueue op n, m,
            some (o.getD (vTaskInternalSetTimeOutState s.sched.kernel)), .vTaskSuspendAll⟩)) := by
        simp only [QueueSys.head, hcall, Option.bind_eq_bind, Option.bind_some, hserved, hzero]
        rfl
      rw [heq]
      refine h.moves hqueues hframe (.wait rfl rfl hserve hserved hzero ?_)
      cases o with
      | none => exact .inr ⟨rfl, h.now⟩
      | some o => exact .inl rfl

/-- The scheduler is suspended. -/
theorem suspendAll (h : s.Shows c v)
    (hframe : v.frames v.tasks.current = .inside ⟨request, m, o, .vTaskSuspendAll⟩) :
    QueueSys.Follows c .step v (s.step ⟨request, m, o, .vTaskSuspendAll⟩) := by
  obtain ⟨asks, sched, tasks, hcall, htasks, hstep⟩ :=
    h.tasks.call (a := .vTaskSuspendAll) fun _ _ _ => trivial
  refine ⟨s.goOn sched s.queues (.inside ⟨request, m, o, request.suspended⟩), _, ?_,
    h.goOn htasks h.queues, .suspend v hframe rfl hstep⟩
  simp only [QueueSys.step, hcall, Option.bind_eq_bind, Option.bind_some]
  rfl

/-- The queue is locked. -/
theorem locking (h : s.Shows c v)
    (hframe : v.frames v.tasks.current = .inside ⟨.queue pxQueue op n, m, o, .prvLockQueue⟩) :
    QueueSys.Follows c .step v (s.step ⟨.queue pxQueue op n, m, o, .prvLockQueue⟩) := by
  have hqueue := h.queues pxQueue
  have hlock : ∀ l : Option ℕ, (if lockValue l = queueUnlocked then queueLockedUnmodified
      else lockValue l) = lockValue (some (l.getD 0)) := by
    intro l
    cases l with
    | none => rfl
    | some n => exact if_neg fun heq => by cases lockValue_eq_unlocked.mp heq
  have hlocked : (prvLockQueue (s.queues pxQueue)).Shows c pxQueue (v.items pxQueue)
      (some ((v.lock (.xTasksWaitingToReceive pxQueue)).getD 0))
      (some ((v.lock (.xTasksWaitingToSend pxQueue)).getD 0)) := by
    refine ⟨hqueue.storage, ?_, ?_⟩
    · rw [← hlock, ← hqueue.tx]
      rfl
    · rw [← hlock, ← hqueue.rx]
      rfl
  refine ⟨_, _, rfl, h.goOn h.tasks fun u => ?_, .lock v hframe rfl rfl⟩
  exact h.set v.items (fun e => if e.pxQueue = pxQueue then some ((v.lock e).getD 0) else v.lock e)
    (by simpa [QueueEvent.pxQueue] using hlocked) (fun _ _ => rfl) (fun e he => if_neg he) u

/-- The check of the time-out. -/
theorem check (h : s.Shows c v) (hinv : v.Inv c)
    (hframe : v.frames v.tasks.current =
      .inside ⟨.queue pxQueue op n, m, o, .xTaskCheckForTimeOut⟩) :
    QueueSys.Follows c .step v (s.check ⟨.queue pxQueue op n, m, o, .xTaskCheckForTimeOut⟩) := by
  have hproper := hinv.proper _ _ hframe
  obtain ⟨o, rfl⟩ : ∃ o', o = some o' :=
    Option.isSome_iff_exists.mp ((hproper.timed rfl).resolve_left nofun)
  rcases hresult : xTaskCheckForTimeOut s.sched.kernel o m with ⟨timedOut, o', m', kernel⟩
  obtain ⟨hkernel, hup, hleft⟩ := xTaskCheckForTimeOut_spec h.tasks.aborted
    (h.now ▸ hproper.entered o rfl) (hproper.waits rfl) hresult
  rw [h.now] at hup hleft
  have heq : s.check ⟨.queue pxQueue op n, m, some o, .xTaskCheckForTimeOut⟩ =
      some (s.goOn s.sched s.queues (.inside ⟨.queue pxQueue op n, m', some o',
        if timedOut then .unlockTx .timedOut else .examine⟩)) := by
    simp only [QueueSys.check, Option.bind_eq_bind, Option.bind_some, hresult]
    rw [hkernel]
    rfl
  rw [heq]
  cases timedOut with
  | true =>
    obtain ⟨hmax, hle, rfl, rfl⟩ := hup rfl
    exact h.moves h.queues hframe (.timeUp rfl rfl hmax hle)
  | false =>
    obtain ⟨hpos, hentered, hor⟩ := hleft rfl
    exact h.moves h.queues hframe (.inTime rfl rfl hpos hentered hor)

/-- The second look at the queue. -/
theorem examine (h : s.Shows c v) (hinv : v.Inv c)
    (hframe : v.frames v.tasks.current = .inside ⟨.queue pxQueue op n, m, o, .examine⟩) :
    QueueSys.Follows c .step v
      (some (s.examine ⟨.queue pxQueue op n, m, o, .examine⟩ pxQueue op)) := by
  have hholds := (h.queues pxQueue).storage
  rw [QueueSys.examine]
  cases hmust : op.mustWait (s.queues pxQueue).storage with
  | false =>
    refine h.moves h.queues hframe (.again rfl rfl ?_)
    cases op with
    | xQueueGenericSend =>
      have hroom : (s.queues pxQueue).storage.uxMessagesWaiting ≠
          (s.queues pxQueue).storage.uxLength := beq_eq_false_iff_ne.mp hmust
      rw [hholds.waiting_eq, hholds.length_eq] at hroom
      exact Nat.sub_pos_of_lt ((hinv.stocked.bounded pxQueue).lt_of_ne hroom)
    | xQueueReceive | xQueuePeek =>
      have hany : (s.queues pxQueue).storage.uxMessagesWaiting ≠ 0 := beq_eq_false_iff_ne.mp hmust
      rw [hholds.waiting_eq] at hany
      exact Nat.pos_of_ne_zero hany
  | true =>
    refine h.moves h.queues hframe (.mustWait rfl rfl ?_)
    cases op with
    | xQueueGenericSend =>
      have hfull : (s.queues pxQueue).storage.uxMessagesWaiting =
          (s.queues pxQueue).storage.uxLength := beq_iff_eq.mp hmust
      rw [hholds.waiting_eq, hholds.length_eq] at hfull
      exact Nat.sub_eq_zero_of_le hfull.ge
    | xQueueReceive | xQueuePeek =>
      have hempty : (s.queues pxQueue).storage.uxMessagesWaiting = 0 := beq_iff_eq.mp hmust
      rwa [hholds.waiting_eq] at hempty

/-- The task that runs may block itself. -/
theorem canBlock (h : s.Shows c v) (hinv : v.Inv c)
    (hframe : v.frames v.tasks.current = .inside ⟨request, m, o, .place⟩)
    (lists : TaskLists T (QueueEvent U)) (hgood : s.sched.Good c.toTaskConfig lists)
    (hview : s.sched.kernel.view lists = v.tasks) :
    s.sched.kernel.CanBlock c.xIdleTask m lists := by
  have hproper := hinv.proper _ _ hframe
  have hready : v.tasks.status v.tasks.current = .ready :=
    hinv.sched.active (by rw [hframe]; rfl)
  refine ⟨?_, hproper.waits rfl, ?_, ?_⟩
  · rw [h.suspended, hinv.suspends.suspended_eq_one (by rw [hframe]; rfl)]
    exact Nat.one_ne_zero
  · rw [← QueueSys.current, h.current]
    exact hproper.request_ne (hproper.waits rfl)
  · rw [← hview] at hready
    exact (hgood.inv.sound.status_eq_ready (hgood.inv.placed _)).mp hready

/-- The task blocks itself. -/
theorem place (h : s.Shows c v) (hinv : v.Inv c)
    (hframe : v.frames v.tasks.current = .inside ⟨.queue pxQueue op n, m, o, .place⟩) :
    QueueSys.Follows c .step v (s.place ⟨.queue pxQueue op n, m, o, .place⟩) := by
  obtain ⟨asks, sched, tasks, hcall, htasks, hstep⟩ :=
    h.tasks.call (a := .vTaskPlaceOnEventList (op.waitsIn pxQueue) m) (h.canBlock hinv hframe)
  refine ⟨s.goOn sched s.queues (.inside ⟨.queue pxQueue op n, m, o, .unlockTx .blocked⟩), _, ?_,
    h.goOn htasks h.queues, .place v hframe rfl rfl hstep⟩
  simp only [QueueSys.place, hcall, Option.bind_eq_bind, Option.bind_some]
  rfl

/-- The task delays itself. -/
theorem placeDelay (h : s.Shows c v) (hinv : v.Inv c)
    (hframe : v.frames v.tasks.current = .inside ⟨.vTaskDelay n, m, o, .place⟩) :
    QueueSys.Follows c .step v (s.place ⟨.vTaskDelay n, m, o, .place⟩) := by
  obtain ⟨asks, sched, tasks, hcall, htasks, hstep⟩ :=
    h.tasks.call (a := .prvAddCurrentTaskToDelayedList m) (h.canBlock hinv hframe)
  have hone : s.sched.kernel.uxSchedulerSuspended = 1 := by
    rw [h.suspended, hinv.suspends.suspended_eq_one (by rw [hframe]; rfl)]
  refine ⟨s.goOn sched s.queues (.inside ⟨.vTaskDelay n, m, o, .xTaskResumeAll .blocked⟩), _, ?_,
    h.goOn htasks h.queues, .placeDelay v hframe rfl rfl hstep⟩
  simp only [QueueSys.place, hone, if_true, hcall, Option.bind_eq_bind, Option.bind_some]
  rfl

/-- One half of `prvUnlockQueue`. -/
theorem unlock (h : s.Shows c v) {f : CallFrame U} {e : QueueEvent U} {point : CallPoint}
    {cLock : ℤ} {q : KernelQueue} (hframe : v.frames v.tasks.current = .inside f)
    (hunlocks : f.Unlocks e point) (he : e.pxQueue = pxQueue)
    (hlock : cLock = lockValue (v.lock e))
    (hq : q.Shows c pxQueue (v.items pxQueue)
      (Function.update v.lock e none (.xTasksWaitingToReceive pxQueue))
      (Function.update v.lock e none (.xTasksWaitingToSend pxQueue))) :
    QueueSys.Follows c .step v (s.unlock f pxQueue e cLock q point) := by
  obtain ⟨sched, tasks, W, hwake, htasks, hfreed⟩ := h.tasks.wakeCounted e cLock.toNat
  have heq : s.unlock f pxQueue e cLock q point =
      some (s.goOn sched (s.set pxQueue q) (.inside { f with point := point })) := by
    simp only [QueueSys.unlock, hwake, Option.bind_eq_bind, Option.bind_some]
    rfl
  have hqueues := h.setLock pxQueue he hq
  rw [Function.update_eq_self] at hqueues
  rw [hlock, toNat_lockValue] at hfreed
  exact ⟨_, _, heq, h.goOn htasks hqueues, .unlock v hframe hunlocks hfreed⟩

/-- The first half of `prvUnlockQueue`. -/
theorem unlockTx (h : s.Shows c v)
    (hframe : v.frames v.tasks.current = .inside ⟨.queue pxQueue op n, m, o, .unlockTx outcome⟩) :
    QueueSys.Follows c .step v
      (s.unlockTx ⟨.queue pxQueue op n, m, o, .unlockTx outcome⟩ pxQueue outcome) := by
  have hqueue := h.queues pxQueue
  refine h.unlock hframe (.tx rfl rfl) rfl hqueue.tx ⟨hqueue.storage, ?_, ?_⟩
  · rw [Function.update_self]
    rfl
  · rw [Function.update_of_ne (by simp)]
    exact hqueue.rx

/-- The second half. -/
theorem unlockRx (h : s.Shows c v)
    (hframe : v.frames v.tasks.current = .inside ⟨.queue pxQueue op n, m, o, .unlockRx outcome⟩) :
    QueueSys.Follows c .step v
      (s.unlockRx ⟨.queue pxQueue op n, m, o, .unlockRx outcome⟩ pxQueue outcome) := by
  have hqueue := h.queues pxQueue
  refine h.unlock hframe (.rx rfl rfl) rfl hqueue.rx ⟨hqueue.storage, ?_, ?_⟩
  · rw [Function.update_of_ne (by simp)]
    exact hqueue.tx
  · rw [Function.update_self]
    rfl

/-- The scheduler is resumed. -/
theorem resume (h : s.Shows c v) (hinv : v.Inv c)
    (hframe : v.frames v.tasks.current = .inside ⟨request, m, o, .xTaskResumeAll outcome⟩) :
    QueueSys.Follows c .step v (s.resume ⟨request, m, o, .xTaskResumeAll outcome⟩ outcome) := by
  obtain ⟨yielded, sched, tasks, hcall, htasks, hstep⟩ :=
    h.tasks.call (a := .xTaskResumeAll) fun lists _ _ => by
      change s.sched.kernel.uxSchedulerSuspended ≠ 0
      rw [h.suspended, hinv.suspends.suspended_eq_one (by rw [hframe]; rfl)]
      exact Nat.one_ne_zero
  have heq : s.resume ⟨request, m, o, .xTaskResumeAll outcome⟩ outcome =
      some (s.goOn sched s.queues (if outcome.yields yielded then
        .inside ⟨request, m, o, .yield (request.after outcome)⟩
      else CallFrame.next ⟨request, m, o, .xTaskResumeAll outcome⟩ (request.after outcome))) := by
    simp only [QueueSys.resume, hcall, Option.bind_eq_bind, Option.bind_some]
    rfl
  refine ⟨_, _, heq, h.goOn htasks h.queues, .resume v hframe rfl hstep ?_⟩
  cases outcome with
  | blocked => exact .inl rfl
  | again | timedOut =>
    cases yielded with
    | true => exact .inl rfl
    | false => exact .inr ⟨by simp, rfl⟩

/-- The task lets others run. -/
theorem yield (h : s.Shows c v)
    (hframe : v.frames v.tasks.current = .inside ⟨request, m, o, .yield next⟩) :
    QueueSys.Follows c .step v (s.step ⟨request, m, o, .yield next⟩) := by
  obtain ⟨asks, sched, tasks, hcall, htasks, hstep⟩ :=
    h.tasks.call (a := .vTaskSwitchContext) fun _ _ _ => trivial
  refine ⟨s.goOn sched s.queues (.inside ⟨request, m, o, .yielded next⟩), _, ?_,
    h.goOn htasks h.queues, .yield v hframe rfl hstep⟩
  cases request <;>
  · simp only [QueueSys.step, hcall, Option.bind_eq_bind, Option.bind_some]
    rfl

/-- The last look at the queue. -/
theorem recheck (h : s.Shows c v)
    (hframe : v.frames v.tasks.current = .inside ⟨.queue pxQueue op n, m, o, .recheck⟩) :
    QueueSys.Follows c .step v (s.step ⟨.queue pxQueue op n, m, o, .recheck⟩) := by
  have hholds := (h.queues pxQueue).storage
  cases hempty : prvIsQueueEmpty (s.queues pxQueue).storage with
  | false =>
    have heq : s.step ⟨.queue pxQueue op n, m, o, .recheck⟩ =
        some (s.goOn s.sched s.queues (.inside ⟨.queue pxQueue op n, m, o, .head⟩)) := by
      simp only [QueueSys.step, hempty]
      rfl
    rw [heq]
    refine h.moves h.queues hframe (.notEmpty rfl rfl fun hitems => ?_)
    have hany : (s.queues pxQueue).storage.uxMessagesWaiting ≠ 0 := beq_eq_false_iff_ne.mp hempty
    rw [hholds.waiting_eq, hitems] at hany
    exact hany rfl
  | true =>
    have heq : s.step ⟨.queue pxQueue op n, m, o, .recheck⟩ =
        some (s.goOn s.sched s.queues (.returned .errQueueEmpty)) := by
      simp only [QueueSys.step, hempty, if_true]
    rw [heq]
    refine h.moves h.queues hframe (.empty rfl rfl ?_)
    have hzero : (s.queues pxQueue).storage.uxMessagesWaiting = 0 := beq_iff_eq.mp hempty
    rw [hholds.waiting_eq] at hzero
    exact List.length_eq_zero_iff.mp hzero

/-- **A step of the task that runs.** -/
theorem step (h : s.Shows c v) (hinv : v.Inv c) {f : CallFrame U}
    (hframe : v.frames v.tasks.current = .inside f) :
    QueueSys.Follows c .step v (s.step f) := by
  obtain ⟨request, m, o, point⟩ := f
  cases request with
  | vTaskDelay n =>
    have hdelays := (hinv.proper _ _ hframe).delays rfl
    cases point with
    | head =>
      by_cases hzero : m = 0
      · have heq : s.step ⟨.vTaskDelay n, m, o, .head⟩ = some (s.goOn s.sched s.queues
            (.inside ⟨.vTaskDelay n, m, o, .yield (.leave .pass)⟩)) := by
          simp only [QueueSys.step, QueueSys.head, hzero, if_true]
        rw [heq]
        exact h.moves h.queues hframe (.delayZero rfl rfl hzero)
      · have heq : s.step ⟨.vTaskDelay n, m, o, .head⟩ = some (s.goOn s.sched s.queues
            (.inside ⟨.vTaskDelay n, m, o, .vTaskSuspendAll⟩)) := by
          simp only [QueueSys.step, QueueSys.head, hzero, if_false]
        rw [heq]
        exact h.moves h.queues hframe (.delay rfl rfl hzero)
    | vTaskSuspendAll => exact h.suspendAll hframe
    | place => exact h.placeDelay hinv hframe
    | xTaskResumeAll => exact h.resume hinv hframe
    | yield => exact h.yield hframe
    | yielded => exact h.moves h.queues hframe (.yielded rfl)
    | _ => cases hdelays
  | queue pxQueue op n =>
    cases point with
    | head => exact h.head hinv hframe
    | vTaskSuspendAll => exact h.suspendAll hframe
    | prvLockQueue => exact h.locking hframe
    | xTaskCheckForTimeOut => exact h.check hinv hframe
    | examine => exact h.examine hinv hframe
    | place => exact h.place hinv hframe
    | unlockTx => exact h.unlockTx hframe
    | unlockRx => exact h.unlockRx hframe
    | xTaskResumeAll => exact h.resume hinv hframe
    | yield => exact h.yield hframe
    | yielded => exact h.moves h.queues hframe (.yielded rfl)
    | recheck => exact h.recheck hframe

/-! ### Interrupts -/

/-- A count goes up to the number of the tasks, unless its type does not hold that many. -/
theorem prvIncrementQueueLock_eq (uxNumberOfTasks n : ℕ) :
    prvIncrementQueueLock uxNumberOfTasks (lockValue (some n)) = none ∧
        queueInt8Max.toNat < uxNumberOfTasks ∨
      prvIncrementQueueLock uxNumberOfTasks (lockValue (some n)) =
        some (lockValue (some (if n < uxNumberOfTasks then n + 1 else n))) := by
  rw [prvIncrementQueueLock, toNat_lockValue, Option.getD_some]
  split
  next hlt =>
    by_cases hmax : lockValue (some n) = queueInt8Max
    · rw [if_pos hmax]
      refine .inl ⟨rfl, ?_⟩
      rwa [← hmax]
    · rw [if_neg hmax]
      exact .inr rfl
  next => exact .inr rfl

/-- **What an interrupt does with a queue.** Only a count that its type does not hold is asserted
against. -/
theorem fromISR (h : s.Shows c v) {a : QueueAction U} {cLock : ℤ}
    {increment : ℕ → KernelQueue → ℤ → Option KernelQueue} (put : KernelQueue → ℤ → KernelQueue)
    (ha : a.fromISR = some (pxQueue, op))
    (hproper : op.Proper (c.uxLength pxQueue) (c.uxItemSize pxQueue))
    (hlock : cLock = lockValue (v.lock (op.wakes pxQueue)))
    (hincrement : ∀ n q cLock, increment n q cLock = (prvIncrementQueueLock n cLock).map (put q))
    (hput : ∀ q items l, KernelQueue.Shows c pxQueue q items
      (v.lock (.xTasksWaitingToReceive pxQueue)) (v.lock (.xTasksWaitingToSend pxQueue)) →
      (put q (lockValue l)).Shows c pxQueue items
        (Function.update v.lock (op.wakes pxQueue) l (.xTasksWaitingToReceive pxQueue))
        (Function.update v.lock (op.wakes pxQueue) l (.xTasksWaitingToSend pxQueue))) :
    QueueSys.FollowsOrAsserts c a v (s.fromISR c pxQueue op cLock increment) := by
  obtain ⟨reply, storage, items, hcall, hserve, hqueue⟩ := (h.queues pxQueue).call hproper
  cases hserved : reply.served with
  | false =>
    have hsame := (QueueConfig.serves hserve).refused hserved
    subst hsame
    have hqueues := h.setItems hqueue
    rw [Function.update_eq_self] at hqueues
    refine .inr ⟨{ s with queues := s.set pxQueue { s.queues pxQueue with storage := storage } },
      v, ?_, ⟨h.tasks, h.frames, hqueues⟩, .refuseISR v ha hserve hserved⟩
    simp only [QueueSys.fromISR, hcall, Option.bind_eq_bind, Option.bind_some, hserved]
    rfl
  | true =>
    cases hlocked : v.lock (op.wakes pxQueue) with
    | none =>
      obtain ⟨woken, sched, tasks, W, hwake, htasks, hfreed⟩ :=
        h.tasks.wakeWaiting (op.wakes pxQueue)
      refine .inr ⟨{ s with
        sched := sched
        queues := s.set pxQueue { s.queues pxQueue with storage := storage } },
        { v with tasks := tasks, items := Function.update v.items pxQueue items }, ?_,
        ⟨htasks, h.frames, h.setItems hqueue⟩, .serveISR v ha hlocked hserve hserved hfreed⟩
      rw [hlocked] at hlock
      simp only [QueueSys.fromISR, hcall, Option.bind_eq_bind, Option.bind_some, hserved, if_true,
        lockValue_eq_unlocked.mpr, hlock, hwake]
      rfl
    | some n =>
      rw [hlocked] at hlock
      have hfrom : s.fromISR c pxQueue op cLock increment =
          (prvIncrementQueueLock c.uxTaskGetNumberOfTasks (lockValue (some n))).map fun cLock =>
            { s with queues :=
                s.set pxQueue (put { s.queues pxQueue with storage := storage } cLock) } := by
        have hne : lockValue (some n) ≠ queueUnlocked := fun heq => by
          cases lockValue_eq_unlocked.mp heq
        rw [QueueSys.fromISR, hcall, hlock]
        simp only [Option.bind_eq_bind, Option.bind_some, hserved, if_true, if_neg hne, hincrement]
        cases prvIncrementQueueLock c.uxTaskGetNumberOfTasks (lockValue (some n)) <;> rfl
      rw [hfrom]
      rcases prvIncrementQueueLock_eq c.uxTaskGetNumberOfTasks n with ⟨hnone, hmax⟩ | hsome
      · rw [hnone]
        exact .inl ⟨rfl, hmax⟩
      · have hwakes : (op.wakes pxQueue).pxQueue = pxQueue := by cases op <;> rfl
        rw [hsome]
        exact .inr ⟨_, { v with
          items := Function.update v.items pxQueue items
          lock := Function.update v.lock (op.wakes pxQueue)
            (some (if n < c.uxTaskGetNumberOfTasks then n + 1 else n)) }, rfl,
          ⟨h.tasks, h.frames, h.setLock pxQueue hwakes (hput _ _ _ hqueue)⟩,
          .countISR v ha hlocked hserve hserved⟩

theorem sendFromISR (h : s.Shows c v) {item : List UInt8} {xCopyPosition : CopyPosition}
    (hproper : (QueueOp.xQueueGenericSend item xCopyPosition).Proper (c.uxLength pxQueue)
      (c.uxItemSize pxQueue)) :
    QueueSys.FollowsOrAsserts c (.xQueueGenericSendFromISR pxQueue item xCopyPosition) v
      (s.xQueueGenericSendFromISR c pxQueue item xCopyPosition) := by
  refine h.fromISR (fun q cTxLock => { q with cTxLock := cTxLock }) rfl hproper
    (h.queues pxQueue).tx (fun _ _ _ => rfl) fun q items l hq => ⟨hq.storage, ?_, ?_⟩
  · rw [QueueOp.wakes, Function.update_self]
  · rw [QueueOp.wakes, Function.update_of_ne (by simp)]
    exact hq.rx

theorem receiveFromISR (h : s.Shows c v) (pxQueue : U) :
    QueueSys.FollowsOrAsserts c (.xQueueReceiveFromISR pxQueue) v
      (s.xQueueReceiveFromISR c pxQueue) := by
  refine h.fromISR (fun q cRxLock => { q with cRxLock := cRxLock }) rfl trivial
    (h.queues pxQueue).rx (fun _ _ _ => rfl) fun q items l hq => ⟨hq.storage, ?_, ?_⟩
  · rw [QueueOp.wakes, Function.update_of_ne (by simp)]
    exact hq.tx
  · rw [QueueOp.wakes, Function.update_self]

/-! ### Actions -/

/-- What is no interrupt comes to an end. -/
theorem perform (h : s.Shows c v) (hinv : v.Inv c) (ha : s.Allowed c a)
    (hno : a.fromISR = none) : QueueSys.Follows c a v (s.perform c a) := by
  cases a with
  | request r =>
    obtain ⟨hreturned, hproper⟩ := ha
    rw [h.frames, h.current] at hreturned
    rw [h.current] at hproper
    have hzero : s.sched.kernel.uxSchedulerSuspended = 0 := by
      rw [h.suspended]
      refine hinv.suspends.suspended_eq_zero ?_
      cases hframe : v.frames v.tasks.current with
      | returned => rfl
      | inside f =>
        rw [hframe] at hreturned
        cases hreturned
    have hasserts : r.asserts s.sched.kernel.uxSchedulerSuspended = true := by
      rw [hzero]
      cases r <;> rfl
    refine ⟨_, _, if_pos hasserts, h.goOn h.tasks h.queues, .request v r hreturned hproper⟩
  | step =>
    have hinside : (v.frames v.tasks.current).isReturned = false := by
      rw [← h.frames, ← h.current]
      exact ha
    cases hframe : v.frames v.tasks.current with
    | returned =>
      rw [hframe] at hinside
      cases hinside
    | inside f =>
      have hf : s.frames s.current = .inside f := by rw [h.frames, h.current, hframe]
      rw [QueueSys.perform, hf]
      exact h.step hinv hframe
  | xTaskIncrementTick =>
    obtain ⟨asks, sched, tasks, hcall, htasks, hstep⟩ :=
      h.tasks.call (a := .xTaskIncrementTick) fun _ _ _ => ha
    refine ⟨{ s with sched := sched }, { v with tasks := tasks }, ?_, ⟨htasks, h.frames, h.queues⟩,
      .tick v hstep⟩
    simp only [QueueSys.perform, hcall, Option.bind_eq_bind, Option.bind_some]
    rfl
  | vTaskSwitchContext =>
    obtain ⟨asks, sched, tasks, hcall, htasks, hstep⟩ :=
      h.tasks.call (a := .vTaskSwitchContext) fun _ _ _ => trivial
    refine ⟨{ s with sched := sched }, { v with tasks := tasks }, ?_, ⟨htasks, h.frames, h.queues⟩,
      .switch v hstep⟩
    simp only [QueueSys.perform, hcall, Option.bind_eq_bind, Option.bind_some]
    rfl
  | xQueueGenericSendFromISR | xQueueReceiveFromISR => cases hno

/-- **An action that may happen comes to an end**, and what is seen of it is a step. The only
assertion that can fail is the one on the count of a lock, and it does not fail while there are no
more tasks than the count can hold. -/
theorem fire (h : s.Shows c v) (hinv : v.Inv c) (ha : s.Allowed c a) :
    QueueSys.FollowsOrAsserts c a v (s.fire c a) := by
  rw [QueueSys.fire, if_pos ha]
  cases a with
  | xQueueGenericSendFromISR pxQueue item xCopyPosition => exact h.sendFromISR ha
  | xQueueReceiveFromISR pxQueue => exact h.receiveFromISR pxQueue
  | _ => exact .inr (h.perform hinv ha rfl)

/-- What is seen of an action that has happened is a step. -/
theorem of_fire (h : s.Shows c v) (hinv : v.Inv c) {s' : QueueSys T U}
    (hfire : s.fire c a = some s') : ∃ v', s'.Shows c v' ∧ QueueView.Step c a v v' := by
  have ha : s.Allowed c a := by
    by_contra hnot
    rw [QueueSys.fire, if_neg hnot] at hfire
    cases hfire
  rcases h.fire hinv ha with ⟨hnone, -⟩ | ⟨s₁, v', hs₁, hshows, hstep⟩
  · cases hnone.symm.trans hfire
  · obtain rfl := Option.some.inj (hs₁.symm.trans hfire)
    exact ⟨v', hshows, hstep⟩

end QueueSys.Shows

end Parts

end CubesatPipeline
