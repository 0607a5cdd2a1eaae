import Mathlib.Data.List.Sort
import Mathlib.Order.RelClasses

/-!
# Queues of timers

What a timer is started with never changes: its name and when it is due. It waits until the clock
has passed that time, is then pending, and fires when its turn comes. The waiting timers are kept
in the order of their times, so those that are due are a prefix of them.

`all` are the timers of the queue wherever they are. Starting adds one and nothing else adds or
drops any; `Sorted` is kept by every operation.
-/

/-- `(a, t)` is the timer `a`, due at `t`. -/
structure TimerQueue (α β : Type*) where
  waiting : List (α × β) := []
  pending : List (α × β) := []
  fired : List (α × β) := []

namespace TimerQueue

variable {α β : Type*} [LinearOrder β] {q : TimerQueue α β} {x : α × β} {now : β}

def all (q : TimerQueue α β) : List (α × β) := q.waiting ++ q.pending ++ q.fired

/-- No later than. -/
abbrev Before : α × β → α × β → Prop := Order.Preimage Prod.snd (· ≤ ·)

/-- A new timer waits before those that are due at its time or later. -/
def start (q : TimerQueue α β) (x : α × β) : TimerQueue α β :=
  { q with waiting := q.waiting.orderedInsert Before x }

/-- What is due before `now` becomes pending. -/
def expire (q : TimerQueue α β) (now : β) : TimerQueue α β :=
  { q with
    waiting := q.waiting.filter (now ≤ ·.2)
    pending := q.pending ++ q.waiting.filter (·.2 < now) }

/-- The first pending timer fires, if there is one. -/
def fire (q : TimerQueue α β) : TimerQueue α β :=
  match q.pending with
  | [] => q
  | x :: xs => { q with pending := xs, fired := q.fired ++ [x] }

def Sorted (q : TimerQueue α β) : Prop := q.waiting.Pairwise Before

theorem start_waiting (q : TimerQueue α β) (x : α × β) : (q.start x).waiting =
    q.waiting.takeWhile (·.2 < x.2) ++ x :: q.waiting.dropWhile (·.2 < x.2) := by
  have hlt : (fun b : α × β => decide ¬ Before x b) = fun b => decide (b.2 < x.2) := by
    funext b
    exact decide_eq_decide.mpr not_le
  rw [start, List.orderedInsert_eq_take_drop, hlt]

theorem Sorted.start (h : q.Sorted) (x : α × β) : (q.start x).Sorted := h.orderedInsert x _

theorem Sorted.expire (h : q.Sorted) (now : β) : (q.expire now).Sorted := h.filter _

theorem Sorted.fire (h : q.Sorted) : q.fire.Sorted := by
  rw [TimerQueue.fire]
  split <;> exact h

theorem all_start : (q.start x).all.Perm (x :: q.all) :=
  ((q.waiting.perm_orderedInsert Before x).append_right _).append_right _

theorem all_expire : (q.expire now).all.Perm q.all := by
  have hsplit : (q.waiting.filter (now ≤ ·.2) ++ q.waiting.filter (·.2 < now)).Perm q.waiting := by
    have hnot : (fun x : α × β => !decide (now ≤ x.2)) = fun x => decide (x.2 < now) := by
      funext x
      rw [← decide_not]
      exact decide_eq_decide.mpr not_le
    rw [← hnot]
    exact List.filter_append_perm _ _
  have hmove : (q.waiting.filter (now ≤ ·.2) ++ (q.pending ++ q.waiting.filter (·.2 < now))).Perm
      (q.waiting.filter (now ≤ ·.2) ++ q.waiting.filter (·.2 < now) ++ q.pending) := by
    rw [List.append_assoc]
    exact List.perm_append_comm.append_left _
  exact (hmove.trans (hsplit.append_right _)).append_right _

omit [LinearOrder β] in
theorem all_fire : q.fire.all.Perm q.all := by
  rw [fire]
  split
  · exact .refl _
  · next x xs hpending =>
    rw [all, all, hpending, List.append_assoc, List.append_assoc]
    refine List.Perm.append_left _ ?_
    rw [← List.append_assoc, List.cons_append]
    exact List.perm_append_singleton x _

/-- Where the first waiting timer is not due, none is. -/
theorem expire_of_le {xs : List (α × β)} (h : (x :: xs).Pairwise Before) (hx : now ≤ x.2) :
    (x :: xs).filter (now ≤ ·.2) = x :: xs ∧ (x :: xs).filter (·.2 < now) = [] := by
  have hall : ∀ y ∈ x :: xs, now ≤ y.2 := by
    intro y hy
    rcases List.mem_cons.mp hy with rfl | hy
    · exact hx
    · exact hx.trans (List.rel_of_pairwise_cons h hy)
  exact ⟨List.filter_eq_self.mpr fun y hy => decide_eq_true (hall y hy),
    List.filter_eq_nil_iff.mpr fun y hy => by simpa using hall y hy⟩

/-! ### Runs -/

inductive Op (α β : Type*)
  | start (x : α × β)
  | expire (now : β)
  | fire

def Op.apply (q : TimerQueue α β) : Op α β → TimerQueue α β
  | .start x => q.start x
  | .expire now => q.expire now
  | .fire => q.fire

/-- The timers that the operation starts. -/
def Op.starts : Op α β → List (α × β)
  | .start x => [x]
  | _ => []

theorem Sorted.run (h : q.Sorted) (ops : List (Op α β)) : (ops.foldl Op.apply q).Sorted := by
  induction ops generalizing q with
  | nil => exact h
  | cons op ops ih =>
    cases op with
    | start x => exact ih (h.start x)
    | expire now => exact ih (h.expire now)
    | fire => exact ih h.fire

/-- No timer is lost and none is there twice: the timers are those that were started. -/
theorem all_run (ops : List (Op α β)) :
    (ops.foldl Op.apply q).all.Perm (q.all ++ ops.flatMap Op.starts) := by
  induction ops generalizing q with
  | nil => rw [List.flatMap_nil, List.append_nil]; exact .refl _
  | cons op ops ih =>
    refine ih.trans ?_
    rw [List.flatMap_cons, ← List.append_assoc]
    refine List.Perm.append_right _ ?_
    cases op with
    | start x => exact all_start.trans (List.perm_append_singleton x _).symm
    | expire now => exact all_expire.trans (List.append_nil _ ▸ .refl _)
    | fire => exact all_fire.trans (List.append_nil _ ▸ .refl _)

end TimerQueue
