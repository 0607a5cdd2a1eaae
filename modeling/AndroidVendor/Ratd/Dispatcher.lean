import Mathlib.Data.Fintype.Basic
import AndroidVendor.Lib.Machine
import AndroidVendor.Ratd.SubFlows

/-!
# The dispatcher threads and those who wake them

Each dispatcher of ratd waits on the condition variable of its queue while the queue is empty and
its `quit` flag is not set. It tests both before it locks the mutex; `Enqueue` inserts under the
semaphore and broadcasts under the mutex, and the two `finish` functions set the flag and broadcast
under the mutex. A producer that does all of it between the test and the wait wakes nobody.

## Conventions

* A step is one read of `quit` or of a bound of the queue, one region of the semaphore or of the
  mutex, or one end of the wait. The dispatcher holds the mutex across steps where it is at `wait`
  or `unlock`; a region of another thread is not entered then.
* `front` is written by the dispatcher only, so the order in which it reads the two bounds does not
  matter.
* What is in the queue, and what the dispatcher does with it, is left out.
* `leaving` counts the threads that have set `s_mp_dispatch` to 0 and not yet released the queue.

## Main results

* `Queue.step_cases`: what a dispatcher does, as far as its way to the wait goes.
* `Attentive.step`: what a step keeps, where no wake-up goes out in vain.
* `no_lost_wakeup`: the runs in which a dispatcher never sleeps through one.
-/

namespace AndroidVendor.Ratd.Dispatcher

/-- `QUEUE_MAXSIZE`. -/
def queueMaxsize : ℕ := 1000 * 10

/-- The next step of a dispatcher in `task_mpMsgQueueDispatch`; `rear` remembers `Q->front`. -/
inductive Pc
  | dead
  | create
  | outer
  | inner
  | front
  | rear (front : ℕ)
  | lock
  | wait
  | blocked
  | woken
  | unlock
  | test
  | dequeue
  | clear
  deriving DecidableEq, Repr

/-- `Q_MP_DISPATCH[i]` with its dispatcher. -/
structure Queue where
  pBase : Bool := false
  front : ℕ := 0
  rear : ℕ := 0
  quit : Bool := false
  mutex : Bool := false
  /-- `s_mp_dispatch[i]` is not 0. -/
  dispatch : Bool := false
  pc : Pc := .dead
  leaving : ℕ := 0
  deriving DecidableEq, Repr

/-- `EmptyQueue`. -/
def Queue.Empty (q : Queue) : Prop := q.front = q.rear

instance (q : Queue) : Decidable q.Empty := inferInstanceAs (Decidable (_ = _))

/-- `FullQueue`. -/
def Queue.Full (q : Queue) : Prop := q.front = (q.rear + 1) % queueMaxsize

instance (q : Queue) : Decidable q.Full := inferInstanceAs (Decidable (_ = _))

/-- `pthread_cond_broadcast`. -/
def Queue.broadcast (q : Queue) : Queue := if q.pc = .blocked then { q with pc := .woken } else q

/-- The next step of a producer, and the queues that are left to it. -/
inductive Task
  | idle
  | insert (i : ℕ)
  | broadcast (i : ℕ)
  | check (is : List ℕ)
  | flag (i : ℕ) (is : List ℕ)
  deriving DecidableEq, Repr

/-- The three queues, and `n` producers. -/
structure State (n : ℕ) where
  queue : ℕ → Queue
  task : Fin n → Task

variable {n : ℕ}

def State.init (n : ℕ) : State n where
  queue := fun _ => {}
  task := fun _ => .idle

def State.setQueue (s : State n) (i : ℕ) (q : Queue) : State n :=
  { s with queue := Function.update s.queue i q }

def State.goto (s : State n) (p : Fin n) (task : Task) : State n :=
  { s with task := Function.update s.task p task }

/-- The next step of a dispatcher. -/
def Queue.step (q : Queue) : Option Queue :=
  match q.pc with
  | .dead => none
  | .create =>
    some { q with pBase := true, front := 0, rear := 0, quit := false, mutex := false, pc := .outer }
  | .outer => some { q with pc := if q.quit then .clear else .inner }
  | .inner => some { q with pc := if q.quit then .test else .front }
  | .front => some { q with pc := .rear q.front }
  | .rear front => some { q with pc := if front = q.rear then .lock else .test }
  | .lock => if q.mutex then none else some { q with mutex := true, pc := .wait }
  | .wait => some { q with mutex := false, pc := .blocked }
  | .blocked => none
  | .woken => if q.mutex then none else some { q with mutex := true, pc := .unlock }
  | .unlock => some { q with mutex := false, pc := .inner }
  | .test => some { q with pc := if q.quit then .clear else .dequeue }
  | .dequeue =>
    if q.pBase = false ∨ q.Empty then some { q with pc := .outer }
    else some { q with front := (q.front + 1) % queueMaxsize, pc := .outer }
  | .clear => some { q with dispatch := false, leaving := q.leaving + 1, pc := .dead }

/-- `Enqueue` under the semaphore. -/
def Queue.insert (q : Queue) : Queue := { q with rear := (q.rear + 1) % queueMaxsize }

/-- The next step of a producer; `netStatus` is what `Enqueue` reads of `g_netStatus`. -/
def State.producerStep (s : State n) (p : Fin n) (netStatus : Bool) : Option (State n) :=
  match s.task p with
  | .idle => none
  | .insert i =>
    if (s.queue i).pBase = false ∨ (s.queue i).Full ∨ netStatus = false then some (s.goto p .idle)
    else some ((s.setQueue i (s.queue i).insert).goto p (.broadcast i))
  | .broadcast i =>
    if (s.queue i).mutex then none
    else some ((s.setQueue i (s.queue i).broadcast).goto p .idle)
  | .check [] => some (s.goto p .idle)
  | .check (i :: is) =>
    some (s.goto p (if (s.queue i).dispatch then .flag i is else .check is))
  | .flag i is =>
    if (s.queue i).mutex then none
    else some ((s.setQueue i { s.queue i with quit := true }.broadcast).goto p (.check is))

/-- What can happen next: a producer enters `Enqueue`, `finishsubflowDispathTask` or
`finishAllDisPathTask`, or goes on; a dispatcher is started by `task_queue`, goes on, or wakes
without a broadcast; or a thread that has left its loop releases its queue. -/
inductive Op (n : ℕ)
  | enqueue (p : Fin n) (i : ℕ)
  | finishsubflowDispathTask (p : Fin n) (numberType : ℕ)
  | finishAllDisPathTask (p : Fin n)
  | producer (p : Fin n) (netStatus : Bool)
  | taskQueue (i : ℕ)
  | dispatcher (i : ℕ)
  | wake (i : ℕ)
  | destroyQueue (i : ℕ)
  deriving DecidableEq

def Op.step : Op n → State n → Option (State n)
  | .enqueue p i, s => if s.task p = .idle then some (s.goto p (.insert i)) else none
  | .finishsubflowDispathTask p numberType, s =>
    if s.task p = .idle then some (s.goto p (.check (pickFlow numberType).toList)) else none
  | .finishAllDisPathTask p, s =>
    if s.task p = .idle then some (s.goto p (.check [0, 1, 2])) else none
  | .producer p netStatus, s => s.producerStep p netStatus
  | .taskQueue i, s =>
    if (s.queue i).dispatch then none
    else some (s.setQueue i { s.queue i with dispatch := true, pc := .create })
  | .dispatcher i, s => (s.queue i).step.map (s.setQueue i)
  | .wake i, s =>
    if (s.queue i).pc = .blocked then some (s.setQueue i { s.queue i with pc := .woken }) else none
  | .destroyQueue i, s =>
    if 0 < (s.queue i).leaving then
      some (s.setQueue i { s.queue i with pBase := false, leaving := (s.queue i).leaving - 1 })
    else none

/-- The wait of dispatcher `i` has no reason left, and no broadcast is to come. -/
structure LostWakeup (s : State n) (i : ℕ) : Prop where
  blocked : (s.queue i).pc = .blocked
  reason : ¬ (s.queue i).Empty ∨ (s.queue i).quit = true
  silent : ∀ p, s.task p ≠ .broadcast i

/-- The dispatcher need not look after the queue, or somebody is going to tell it. -/
def State.Rested (s : State n) (i : ℕ) (others : Fin n → Prop) : Prop :=
  (s.queue i).Empty ∧ (s.queue i).quit = false ∨ ∃ p, others p ∧ s.task p = .broadcast i

/-- A wake-up does not fall between the test of a dispatcher and its wait: no broadcast for a queue
when the dispatcher is about to lock the mutex, unless there is nothing to tell or another broadcast
is to come; nor is the flag set then, unless another broadcast is to come, or after the flag was
read, unless the bounds are still to be read and differ. -/
def Task.Audible (s : State n) (p : Fin n) : Task → Prop
  | .broadcast i => (s.queue i).pc = .lock → s.Rested i (· ≠ p)
  | .flag i _ =>
    ((s.queue i).pc = .lock → ∃ p', s.task p' = .broadcast i) ∧
      ((s.queue i).pc = .front ∨ (s.queue i).pc = .rear (s.queue i).front → ¬ (s.queue i).Empty)
  | _ => True

def Op.Audible (s : State n) : Op n → Prop
  | .producer p _ => (s.task p).Audible s p
  | _ => True

instance (s : State n) (i : ℕ) (others : Fin n → Prop) [DecidablePred others] :
    Decidable (s.Rested i others) :=
  inferInstanceAs (Decidable (_ ∨ _))

instance (s : State n) (p : Fin n) : ∀ task : Task, Decidable (task.Audible s p)
  | .broadcast i => inferInstanceAs (Decidable ((s.queue i).pc = .lock → s.Rested i (· ≠ p)))
  | .flag _ _ => inferInstanceAs (Decidable (_ ∧ _))
  | .idle | .insert _ | .check _ => isTrue trivial

instance (s : State n) : ∀ op : Op n, Decidable (op.Audible s)
  | .producer p _ => inferInstanceAs (Decidable ((s.task p).Audible s p))
  | .enqueue _ _ | .finishsubflowDispathTask _ _ | .finishAllDisPathTask _ | .taskQueue _
  | .dispatcher _ | .wake _ | .destroyQueue _ => isTrue trivial

variable {s t : State n} {i j : ℕ} {p : Fin n} {others : Fin n → Prop}

/-- What holds of dispatcher `i` at the places on its way to the wait. -/
structure Attentive (s : State n) (i : ℕ) : Prop where
  reading : (s.queue i).pc = .front ∨ (∃ f, (s.queue i).pc = .rear f) →
    (s.queue i).quit = false ∨ ¬ (s.queue i).Empty
  bound : ∀ f, (s.queue i).pc = .rear f → f = (s.queue i).front
  rested : (s.queue i).pc = .lock ∨ (s.queue i).pc = .wait ∨ (s.queue i).pc = .blocked →
    s.Rested i fun _ => True
  held : (s.queue i).pc = .wait ∨ (s.queue i).pc = .unlock → (s.queue i).mutex = true

theorem attentive_init (i : ℕ) : Attentive (State.init n) i where
  reading h := by rcases h with h | ⟨f, h⟩ <;> cases h
  bound f h := nomatch h
  rested h := by rcases h with h | h | h <;> cases h
  held h := by rcases h with h | h <;> cases h

@[simp] theorem State.setQueue_queue (s : State n) (i j : ℕ) (q : Queue) :
    (s.setQueue i q).queue j = if j = i then q else s.queue j :=
  Function.update_apply s.queue i q j

@[simp] theorem State.goto_queue (s : State n) (p : Fin n) (task : Task) :
    (s.goto p task).queue = s.queue := rfl

@[simp] theorem State.goto_task (s : State n) (p p' : Fin n) (task : Task) :
    (s.goto p task).task p' = if p' = p then task else s.task p' :=
  Function.update_apply s.task p task p'

/-- The queue is as it was, and whoever was to broadcast is still to. -/
theorem Attentive.congr (h : Attentive s i) (hqueue : t.queue i = s.queue i)
    (htask : ∀ p, s.task p = .broadcast i → t.task p = .broadcast i) : Attentive t i := by
  refine ⟨?_, ?_, fun hpc => ?_, ?_⟩
  · rw [hqueue]
    exact h.reading
  · rw [hqueue]
    exact h.bound
  · rw [hqueue] at hpc
    rcases h.rested hpc with hempty | ⟨p, -, hp⟩
    · exact .inl (hqueue ▸ hempty)
    · exact .inr ⟨p, trivial, htask p hp⟩
  · rw [hqueue]
    exact h.held

/-- A producer that was not to broadcast goes on to something else. -/
theorem Attentive.goto (h : Attentive s i) (hp : s.task p ≠ .broadcast i) (task : Task) :
    Attentive (s.goto p task) i := by
  refine h.congr rfl fun p' hp' => ?_
  rw [State.goto_task, if_neg fun hpp : p' = p => hp (hpp ▸ hp')]
  exact hp'

/-- A step of another dispatcher, or on another queue. -/
theorem Attentive.setQueue_ne (h : Attentive s i) (hij : i ≠ j) (q : Queue) :
    Attentive (s.setQueue j q) i :=
  h.congr (by rw [State.setQueue_queue, if_neg hij]) fun _ hp => hp

/-- The dispatcher is not on its way to the wait, and where it leaves the wait it has the mutex. -/
def Queue.Away (q : Queue) : Prop :=
  (q.pc = .unlock → q.mutex = true) ∧ q.pc ∉ [Pc.front, .lock, .wait, .blocked] ∧
    ∀ f, q.pc ≠ .rear f

/-- At a place that is not on the way to the wait there is nothing to show. -/
theorem attentive_of_away (h : (t.queue i).Away) : Attentive t i := by
  obtain ⟨hheld, hpc, hrear⟩ := h
  simp only [List.mem_cons, List.not_mem_nil, or_false, not_or] at hpc
  obtain ⟨hfront, hlock, hwait, hblocked⟩ := hpc
  exact ⟨fun h => h.elim (absurd · hfront) fun ⟨f, h⟩ => absurd h (hrear f),
    fun f h => absurd h (hrear f),
    fun h => h.elim (absurd · hlock) (·.elim (absurd · hwait) (absurd · hblocked)),
    fun h => h.elim (absurd · hwait) hheld⟩

/-! ### The dispatcher -/

/-- **A step of a dispatcher**: to a place that is not on the way to the wait, or one further on that
way. -/
theorem Queue.step_cases {q q' : Queue} (hq : q.step = some q') :
    q'.Away ∨ (q.quit = false ∧ q' = { q with pc := .front }) ∨
      (q.pc = .front ∧ q' = { q with pc := .rear q.front }) ∨
      (q.pc = .rear q.rear ∧ q' = { q with pc := .lock }) ∨
      (q.pc = .lock ∧ q' = { q with mutex := true, pc := .wait }) ∨
      (q.pc = .wait ∧ q' = { q with mutex := false, pc := .blocked }) := by
  rw [Queue.step] at hq
  cases hpc : q.pc with
  | dead =>
    rw [hpc] at hq
    cases hq
  | create =>
    rw [hpc] at hq
    obtain rfl := Option.some.inj hq
    exact .inl (by simp [Away])
  | outer =>
    rw [hpc] at hq
    obtain rfl := Option.some.inj hq
    cases q.quit <;> exact .inl (by simp [Away])
  | inner =>
    rw [hpc] at hq
    obtain rfl := Option.some.inj hq
    cases hquit : q.quit with
    | true => exact .inl (by simp [Away])
    | false => exact .inr (.inl ⟨rfl, by simp⟩)
  | front =>
    rw [hpc] at hq
    exact .inr (.inr (.inl ⟨rfl, (Option.some.inj hq).symm⟩))
  | rear f =>
    rw [hpc] at hq
    obtain rfl := Option.some.inj hq
    by_cases hempty : f = q.rear
    · exact .inr (.inr (.inr (.inl ⟨congrArg Pc.rear hempty, by simp [hempty]⟩)))
    · exact .inl (by simp [Away, hempty])
  | lock =>
    rw [hpc] at hq
    obtain ⟨-, hq⟩ := Option.ite_none_left_eq_some.mp hq
    exact .inr (.inr (.inr (.inr (.inl ⟨rfl, (Option.some.inj hq).symm⟩))))
  | wait =>
    rw [hpc] at hq
    exact .inr (.inr (.inr (.inr (.inr ⟨rfl, (Option.some.inj hq).symm⟩))))
  | blocked =>
    rw [hpc] at hq
    cases hq
  | woken =>
    rw [hpc] at hq
    obtain ⟨-, hq⟩ := Option.ite_none_left_eq_some.mp hq
    obtain rfl := Option.some.inj hq
    exact .inl (by simp [Away])
  | unlock =>
    rw [hpc] at hq
    obtain rfl := Option.some.inj hq
    exact .inl (by simp [Away])
  | test =>
    rw [hpc] at hq
    obtain rfl := Option.some.inj hq
    cases q.quit <;> exact .inl (by simp [Away])
  | dequeue =>
    rw [hpc] at hq
    dsimp only at hq
    split at hq
    · obtain rfl := Option.some.inj hq
      exact .inl (by simp [Away])
    · obtain rfl := Option.some.inj hq
      exact .inl (by simp [Away])
  | clear =>
    rw [hpc] at hq
    obtain rfl := Option.some.inj hq
    exact .inl (by simp [Away])

theorem Attentive.dispatcher (h : Attentive s i) {q : Queue} (hq : (s.queue i).step = some q) :
    Attentive (s.setQueue i q) i := by
  have hself : (s.setQueue i q).queue i = q := by rw [State.setQueue_queue, if_pos rfl]
  have hrested (hempty : q.front = (s.queue i).front ∧ q.rear = (s.queue i).rear ∧
      q.quit = (s.queue i).quit) (hs : s.Rested i fun _ => True) :
      (s.setQueue i q).Rested i fun _ => True := by
    rw [State.Rested, hself, Queue.Empty, hempty.1, hempty.2.1, hempty.2.2]
    exact hs
  rcases Queue.step_cases hq with haway | ⟨hquit, rfl⟩ | ⟨hpc, rfl⟩ | ⟨hpc, rfl⟩ | ⟨hpc, rfl⟩ | ⟨hpc, rfl⟩
  · exact attentive_of_away (hself.symm ▸ haway)
  · refine ⟨fun _ => .inl ?_, ?_, ?_, ?_⟩ <;> rw [hself] <;> simp [hquit]
  · refine ⟨fun _ => ?_, fun f hf => ?_, ?_, ?_⟩ <;> rw [hself] at *
    · exact h.reading (.inl hpc)
    · exact (Pc.rear.inj hf).symm
    · simp
    · simp
  · have hempty := (h.bound _ hpc).symm
    have hquit := (h.reading (.inr ⟨_, hpc⟩)).resolve_right fun hne => hne hempty
    refine ⟨?_, ?_, fun _ => hrested ⟨rfl, rfl, rfl⟩ (.inl ⟨hempty, hquit⟩), ?_⟩ <;> rw [hself] <;> simp
  · refine ⟨?_, ?_, fun _ => hrested ⟨rfl, rfl, rfl⟩ (h.rested (.inl hpc)), ?_⟩ <;> rw [hself] <;> simp
  · refine ⟨?_, ?_, fun _ => hrested ⟨rfl, rfl, rfl⟩ (h.rested (.inr (.inl hpc))), ?_⟩ <;>
      rw [hself] <;> simp

/-! ### The producers -/

theorem Queue.broadcast_of_ne {q : Queue} (h : q.pc ≠ .blocked) : q.broadcast = q := if_neg h

theorem Queue.broadcast_of_blocked {q : Queue} (h : q.pc = .blocked) :
    q.broadcast = { q with pc := .woken } := if_pos h

/-- A producer that works on another queue. -/
theorem Attentive.other (h : Attentive s i) (hij : i ≠ j) (hp : s.task p ≠ .broadcast i)
    (q : Queue) (task : Task) : Attentive ((s.setQueue j q).goto p task) i :=
  (h.setQueue_ne hij q).goto hp task

/-- After an insert the queue is not empty, and its producer is going to broadcast. -/
theorem Attentive.insert (h : Attentive s i) (hfull : ¬ (s.queue i).Full) :
    Attentive ((s.setQueue i (s.queue i).insert).goto p (.broadcast i)) i := by
  have hself : ((s.setQueue i (s.queue i).insert).goto p (.broadcast i)).queue i =
      (s.queue i).insert := by
    rw [State.goto_queue, State.setQueue_queue, if_pos rfl]
  refine ⟨fun _ => .inr ?_, fun f hf => ?_, fun _ => .inr ⟨p, trivial, ?_⟩, fun hpc => ?_⟩
  · rw [hself]
    exact hfull
  · rw [hself] at hf ⊢
    exact h.bound f hf
  · rw [State.goto_task, if_pos rfl]
  · rw [hself] at hpc ⊢
    exact h.held hpc

/-- Whoever wakes the blocked dispatcher leaves it on its way out of the wait. -/
theorem attentive_woken {q : Queue} {task : Task} (hq : q.pc = .woken) :
    Attentive ((s.setQueue i q).goto p task) i := by
  have hself : ((s.setQueue i q).goto p task).queue i = q := by
    rw [State.goto_queue, State.setQueue_queue, if_pos rfl]
  refine attentive_of_away ?_
  rw [hself, Queue.Away, hq]
  simp

/-- A region of the mutex that finds the dispatcher neither in the wait nor at its lock leaves what
the dispatcher goes by, unless it sets the flag. -/
theorem Attentive.region (h : Attentive s i) {quit : Bool} {task : Task}
    (hmutex : (s.queue i).mutex = false) (hblocked : (s.queue i).pc ≠ .blocked)
    (hreading : (s.queue i).pc = .front ∨ (∃ f, (s.queue i).pc = .rear f) →
      quit = false ∨ ¬ (s.queue i).Empty)
    (hlock : (s.queue i).pc = .lock →
      (s.queue i).Empty ∧ quit = false ∨ ∃ p', p' ≠ p ∧ s.task p' = .broadcast i) :
    Attentive ((s.setQueue i { s.queue i with quit := quit }).goto p task) i := by
  have hself : ((s.setQueue i { s.queue i with quit := quit }).goto p task).queue i =
      { s.queue i with quit := quit } := by
    rw [State.goto_queue, State.setQueue_queue, if_pos rfl]
  refine ⟨fun hpc => ?_, fun f hf => ?_, fun hpc => ?_, fun hpc => ?_⟩
  · rw [hself] at hpc ⊢
    exact hreading hpc
  · rw [hself] at hf ⊢
    exact h.bound f hf
  · rw [hself] at hpc
    rcases hpc with hpc | hpc | hpc
    · rcases hlock hpc with hempty | ⟨p', hne, hp'⟩
      · exact .inl (by rw [hself]; exact hempty)
      · refine .inr ⟨p', trivial, ?_⟩
        rw [State.goto_task, if_neg hne]
        exact hp'
    · exact absurd (h.held (.inl hpc)) (by simp [hmutex])
    · exact absurd hpc hblocked
  · rw [hself] at hpc ⊢
    exact h.held hpc

theorem Attentive.broadcast (h : Attentive s i) (hmutex : (s.queue i).mutex = false)
    (hlock : (s.queue i).pc = .lock → s.Rested i (· ≠ p)) :
    Attentive ((s.setQueue i (s.queue i).broadcast).goto p .idle) i := by
  by_cases hpc : (s.queue i).pc = .blocked
  · exact attentive_woken (by rw [Queue.broadcast_of_blocked hpc])
  · rw [Queue.broadcast_of_ne hpc]
    exact h.region hmutex hpc h.reading hlock

theorem Attentive.flag (h : Attentive s i) {is : List ℕ} (hp : s.task p = .flag i is)
    (hmutex : (s.queue i).mutex = false)
    (hreading : (s.queue i).pc = .front ∨ (∃ f, (s.queue i).pc = .rear f) → ¬ (s.queue i).Empty)
    (hlock : (s.queue i).pc = .lock → ∃ p', s.task p' = .broadcast i) :
    Attentive ((s.setQueue i { s.queue i with quit := true }.broadcast).goto p (.check is)) i := by
  by_cases hpc : (s.queue i).pc = .blocked
  · exact attentive_woken (by rw [Queue.broadcast_of_blocked (by exact hpc)])
  · rw [Queue.broadcast_of_ne (by exact hpc)]
    refine h.region hmutex hpc (fun hr => .inr (hreading hr)) fun hl => .inr ?_
    obtain ⟨p', hp'⟩ := hlock hl
    refine ⟨p', ?_, hp'⟩
    rintro rfl
    rw [hp] at hp'
    cases hp'

theorem Attentive.producerStep (h : Attentive s i) {netStatus : Bool}
    (haudible : (Op.producer p netStatus).Audible s) (ht : s.producerStep p netStatus = some t) :
    Attentive t i := by
  rw [State.producerStep] at ht
  rw [Op.Audible] at haudible
  cases hp : s.task p with
  | idle =>
    rw [hp] at ht
    cases ht
  | insert j =>
    rw [hp] at ht
    dsimp only at ht
    split at ht
    · obtain rfl := Option.some.inj ht
      exact h.goto (by simp [hp]) .idle
    · next hfull =>
      obtain rfl := Option.some.inj ht
      rcases eq_or_ne i j with rfl | hij
      · exact h.insert fun hf => hfull (.inr (.inl hf))
      · exact h.other hij (by simp [hp]) _ _
  | broadcast j =>
    rw [hp] at ht haudible
    dsimp only at ht
    split at ht
    · cases ht
    next hmutex =>
    obtain rfl := Option.some.inj ht
    rcases eq_or_ne i j with rfl | hij
    · exact h.broadcast (by simpa using hmutex) haudible
    · refine h.other hij ?_ _ _
      rw [hp]
      exact fun hji => hij (Task.broadcast.inj hji).symm
  | check is =>
    cases is with
    | nil =>
      rw [hp] at ht
      obtain rfl := Option.some.inj ht
      exact h.goto (by simp [hp]) _
    | cons j is =>
      rw [hp] at ht
      obtain rfl := Option.some.inj ht
      exact h.goto (by simp [hp]) _
  | flag j is =>
    rw [hp] at ht haudible
    dsimp only at ht
    split at ht
    · cases ht
    next hmutex =>
    obtain rfl := Option.some.inj ht
    rcases eq_or_ne i j with rfl | hij
    · refine h.flag hp (by simpa using hmutex) ?_ haudible.1
      rintro (hf | ⟨f, hf⟩)
      · exact haudible.2 (.inl hf)
      · exact haudible.2 (.inr (h.bound f hf ▸ hf))
    · exact h.other hij (by simp [hp]) _ _

/-- Where no wake-up goes out in vain, a step leaves every dispatcher attentive. -/
theorem Attentive.step {op : Op n} (h : Attentive s i) (haudible : op.Audible s)
    (ht : op.step s = some t) : Attentive t i := by
  cases op with
  | enqueue p j =>
    obtain ⟨hidle, ht⟩ := Option.ite_none_right_eq_some.mp ht
    obtain rfl := Option.some.inj ht
    exact h.goto (by simp [hidle]) _
  | finishsubflowDispathTask p numberType =>
    obtain ⟨hidle, ht⟩ := Option.ite_none_right_eq_some.mp ht
    obtain rfl := Option.some.inj ht
    exact h.goto (by simp [hidle]) _
  | finishAllDisPathTask p =>
    obtain ⟨hidle, ht⟩ := Option.ite_none_right_eq_some.mp ht
    obtain rfl := Option.some.inj ht
    exact h.goto (by simp [hidle]) _
  | producer p netStatus => exact h.producerStep haudible ht
  | taskQueue j =>
    obtain ⟨-, ht⟩ := Option.ite_none_left_eq_some.mp ht
    obtain rfl := Option.some.inj ht
    rcases eq_or_ne i j with rfl | hij
    · exact attentive_of_away (by simp [Queue.Away])
    · exact h.setQueue_ne hij _
  | dispatcher j =>
    obtain ⟨q, hq, rfl⟩ := Option.map_eq_some_iff.mp ht
    rcases eq_or_ne i j with rfl | hij
    · exact h.dispatcher hq
    · exact h.setQueue_ne hij q
  | wake j =>
    obtain ⟨-, ht⟩ := Option.ite_none_right_eq_some.mp ht
    obtain rfl := Option.some.inj ht
    rcases eq_or_ne i j with rfl | hij
    · exact attentive_of_away (by simp [Queue.Away])
    · exact h.setQueue_ne hij _
  | destroyQueue j =>
    obtain ⟨-, ht⟩ := Option.ite_none_right_eq_some.mp ht
    obtain rfl := Option.some.inj ht
    rcases eq_or_ne i j with rfl | hij
    · refine ⟨?_, ?_, ?_, ?_⟩ <;> simp only [State.Rested, State.setQueue_queue, if_pos]
      · exact h.reading
      · exact h.bound
      · exact h.rested
      · exact h.held
    · exact h.setQueue_ne hij _

/-! ### Runs -/

theorem Attentive.not_lostWakeup (h : Attentive s i) : ¬ LostWakeup s i := by
  rintro ⟨hblocked, hreason, hsilent⟩
  rcases h.rested (.inr (.inr hblocked)) with ⟨hempty, hquit⟩ | ⟨p, -, hp⟩
  · rcases hreason with hne | hquit'
    · exact hne hempty
    · exact absurd (hquit.symm.trans hquit') (by decide)
  · exact hsilent p hp

/-- **No dispatcher sleeps with packets in its queue or its flag set and nobody about to wake it**,
in a run where no wake-up falls between its test and its wait. -/
theorem no_lost_wakeup {ops : List (Op n)}
    (hrun : Machine.Guarded Op.step (fun _ s op => op.Audible s) (State.init n) ops s) (i : ℕ) :
    ¬ LostWakeup s i :=
  have hattentive : Attentive s i := by
    refine Machine.Guarded.inv (I := fun _ s => Attentive s i) ?_ (attentive_init i) hrun
    intro ops op s t h haudible ht
    exact h.step haudible ht
  hattentive.not_lostWakeup

/-- The only producer puts a packet into the queue while the dispatcher waits, and is heard. -/
theorem no_lost_wakeup_one : ∃ s, Machine.run Op.step
    [.taskQueue 0, .dispatcher 0, .dispatcher 0, .dispatcher 0, .dispatcher 0, .dispatcher 0,
      .dispatcher 0, .dispatcher 0, .enqueue 0 0, .producer 0 true, .producer 0 true]
    (State.init 1) = some s ∧ ¬ LostWakeup s 0 := by
  obtain ⟨s, hs⟩ : ∃ s, Machine.run Op.step
      [.taskQueue 0, .dispatcher 0, .dispatcher 0, .dispatcher 0, .dispatcher 0, .dispatcher 0,
        .dispatcher 0, .dispatcher 0, .enqueue 0 0, .producer 0 true, .producer 0 true]
      (State.init 1) = some s := Option.isSome_iff_exists.mp (by decide +kernel)
  exact ⟨s, hs, no_lost_wakeup (Machine.Meets.guarded (by decide +kernel) hs) 0⟩

/-- The packet goes in, and the broadcast out, between the test of the dispatcher and its lock. -/
theorem lost_wakeup : ∃ s, Machine.run Op.step
    [.taskQueue 0, .dispatcher 0, .dispatcher 0, .dispatcher 0, .dispatcher 0, .dispatcher 0,
      .enqueue 0 0, .producer 0 true, .producer 0 true, .dispatcher 0, .dispatcher 0]
    (State.init 1) = some s ∧ LostWakeup s 0 := by
  have hrun : (Machine.run Op.step
      [.taskQueue 0, .dispatcher 0, .dispatcher 0, .dispatcher 0, .dispatcher 0, .dispatcher 0,
        .enqueue 0 0, .producer 0 true, .producer 0 true, .dispatcher 0, .dispatcher 0]
      (State.init 1)).map (fun s => (s.queue 0, s.task 0)) =
        some ({ pBase := true, rear := 1, dispatch := true, pc := .blocked }, .idle) := by
    decide +kernel
  obtain ⟨s, hs, hqueue⟩ := Option.map_eq_some_iff.mp hrun
  obtain ⟨hq, ht⟩ := Prod.mk.inj hqueue
  refine ⟨s, hs, by rw [hq], .inl (by rw [hq]; decide), fun p => ?_⟩
  rw [Subsingleton.elim p 0, ht]
  decide

end AndroidVendor.Ratd.Dispatcher
