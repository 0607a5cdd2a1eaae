import AndroidVendor.Ratd.Queue

/-!
# The loops over a queue

The loops compare `i % maxsize` with `rear`, and so end after as many rounds as there are entries.
The entry that they use is `pBase + i`, without the modulus: in a queue whose entries go on at the
front of the array, the loops go on behind its end.

## Main results

* `walk_visited`: a loop ends, and which indices it uses.
* `Inside.run`: the indices of the queue itself.
* `traversal_iff`: when a loop goes through the entries of the queue, and through nothing else.
-/

namespace AndroidVendor.Ratd

open RingQueue SerialRing

namespace Queue

/-! ### Runs -/

/-- A call of `Enqueue` or of `Dequeue`. -/
inductive Op
  | enqueue (netStatus : Bool) (val : ElemType)
  | dequeue

def Op.step (Q : Queue) : Op → Queue
  | .enqueue netStatus val => (Q.enqueue netStatus val).1
  | .dequeue => Q.dequeue.1

/-- The array is there, and the two ends are in it. -/
structure Inside (maxsize : ℕ) (Q : Queue) : Prop where
  pBase : Q.pBase.isSome
  front : Q.front < maxsize
  rear : Q.rear < maxsize
  maxsize_eq : Q.maxsize = maxsize

variable {Q : Queue} {maxsize : ℕ} {ops : List Op} {cell heap : ℕ → ElemType}
  {hit : ElemType → Option ElemType} {early : Bool} {buffer : Option ℕ}

theorem Inside.step (h : Inside maxsize Q) (op : Op) : Inside maxsize (op.step Q) := by
  obtain ⟨cell, hcell⟩ := Option.isSome_iff_exists.mp h.pBase
  have hpos : 0 < Q.maxsize := h.maxsize_eq ▸ Nat.zero_lt_of_lt h.front
  cases op with
  | enqueue netStatus val =>
    rw [Op.step, enqueue, hcell]
    dsimp only
    split
    · exact h
    · exact ⟨rfl, h.front, h.maxsize_eq ▸ Nat.mod_lt _ hpos, h.maxsize_eq⟩
  | dequeue =>
    rw [Op.step, dequeue, hcell]
    dsimp only
    split
    · exact h
    · exact ⟨rfl, h.maxsize_eq ▸ Nat.mod_lt _ hpos, h.rear, h.maxsize_eq⟩

theorem Inside.run (h : Inside maxsize Q) (ops : List Op) :
    Inside maxsize (ops.foldl Op.step Q) := by
  induction ops generalizing Q with
  | nil => exact h
  | cons op ops ih => exact ih (h.step op)

theorem inside_create (hmax : 0 < maxsize) (heap : ℕ → ElemType) :
    Inside maxsize (createQueue maxsize heap) :=
  ⟨rfl, hmax, hmax, rfl⟩

/-! ### One loop -/

/-- Where a loop stops early. -/
def stops (cell : ℕ → ElemType) (hit : ElemType → Option ElemType) (early : Bool) (i : ℕ) : Bool :=
  early && (hit (cell i)).isSome

/-- The loop from any round on, while it is `n` rounds from `rear`. -/
theorem loop_visited {w : Walk} {n : ℕ} (hreturned : w.returned = false)
    (hcell : ∀ j, w.i ≤ j → w.cell j = cell j) (hne : ∀ k < n, (w.i + k) % Q.maxsize ≠ Q.rear)
    (hend : (w.i + n) % Q.maxsize = Q.rear) :
    ∃ w', Loop.whileLoop (fun w => ¬ w.returned ∧ w.i % Q.maxsize ≠ Q.rear)
        (fun w => some (w.body hit early)) n w = some w' ∧
      w'.visited = w.visited ++ upTo (stops cell hit early) (List.range' w.i n) := by
  induction n generalizing w with
  | zero =>
    refine ⟨w, by rw [Loop.whileLoop, if_neg fun h => h.2 hend], ?_⟩
    rw [List.range'_zero, upTo, List.append_nil]
  | succ n ih =>
    have hcond : ¬ w.returned ∧ w.i % Q.maxsize ≠ Q.rear :=
      ⟨by simp [hreturned], hne 0 (Nat.succ_pos n)⟩
    have hnext : ∀ k < n, (w.i + 1 + k) % Q.maxsize ≠ Q.rear := by
      intro k hk
      rw [Nat.add_right_comm]
      exact hne (k + 1) (Nat.succ_lt_succ hk)
    have hlast : (w.i + 1 + n) % Q.maxsize = Q.rear := by
      rw [Nat.add_right_comm]
      exact hend
    rw [Loop.whileLoop, if_pos hcond, Option.bind_some, List.range'_succ, upTo, Walk.body,
      hcell w.i le_rfl]
    cases hhit : hit (cell w.i) with
    | none =>
      have hstop : stops cell hit early w.i = false := by simp [stops, hhit]
      obtain ⟨w', hw', hvisited⟩ := ih (w := { w with i := w.i + 1, visited := w.visited ++ [w.i] })
        hreturned (fun j hj => hcell j (Nat.le_of_succ_le hj)) hnext hlast
      exact ⟨w', hw', by rw [hvisited, hstop, List.append_assoc]; rfl⟩
    | some e =>
      cases early with
      | true =>
        have hstop : stops cell hit true w.i = true := by simp [stops, hhit]
        refine ⟨_, Loop.whileLoop_of_not (by simp) n, ?_⟩
        rw [hstop, if_pos rfl]
      | false =>
        have hstop : stops cell hit false w.i = false := rfl
        have hrest : ∀ j, w.i + 1 ≤ j → Function.update w.cell w.i e j = cell j := by
          intro j hj
          rw [Function.update_of_ne (by omega)]
          exact hcell j (Nat.le_of_succ_le hj)
        obtain ⟨w', hw', hvisited⟩ := ih
          (w := ⟨w.i + 1, Function.update w.cell w.i e, w.hits ++ [cell w.i], false,
            w.visited ++ [w.i]⟩) rfl hrest hnext hlast
        exact ⟨w', hw', by rw [hvisited, hstop, List.append_assoc]; rfl⟩

/-- **A loop ends**; it counts up from `front`, as many rounds as there are entries or to the entry
at which it returns. -/
theorem walk_visited (h : Inside maxsize Q) (cell : ℕ → ElemType)
    (hit : ElemType → Option ElemType) (early : Bool) :
    ∃ w, Q.walk cell hit early (dist maxsize Q.front Q.rear) = some w ∧ w.visited =
      upTo (stops cell hit early) (List.range' Q.front (dist maxsize Q.front Q.rear)) := by
  refine loop_visited rfl (fun _ _ => rfl) (fun k hk => ?_) ?_
  · rw [h.maxsize_eq]
    have hlt : k < maxsize := hk.trans (dist_lt (Nat.zero_lt_of_lt h.front) _ _)
    intro heq
    have hdist := (dist_eq_iff (x := Q.front) (y := Q.rear) hlt).mpr
      (by rw [heq, Nat.mod_eq_of_lt h.rear])
    rw [Nat.mod_eq_of_lt h.front, Nat.mod_eq_of_lt h.rear] at hdist
    exact hk.ne' hdist
  · rw [h.maxsize_eq]
    exact tail_add_dist h.front h.rear

/-! ### The three functions -/

/-- A call of one of the functions that go through the queue. -/
inductive Traversal
  | resetElemFlagInQueue (buffer : Option ℕ) (release : Bool)
  | dequeFreeReTransBuffer (buffer : Option ℕ)
  | releaseQueueBuffs

def Traversal.run (Q : Queue) (fuel : ℕ) : Traversal → Option Outcome
  | .resetElemFlagInQueue buffer release => Q.resetElemFlagInQueue buffer release fuel
  | .dequeFreeReTransBuffer buffer => Q.dequeFreeReTransBuffer buffer fuel
  | .releaseQueueBuffs => Q.releaseQueueBuffs fuel

/-- The entry at the index `i` has the buffer. -/
def hasBuffer (Q : Queue) (buffer : Option ℕ) (i : ℕ) : Bool :=
  match Q.pBase with
  | none => false
  | some cell => (cell i).bufferAddr = buffer

/-- The indices of the entries, from the oldest one on. -/
def live (Q : Queue) : List ℕ := indices Q.maxsize Q.front Q.rear

/-- The entries that the call is about: for `ResetElemFlagInQueue` up to the first that has the
buffer, for the others all of them, and none where there is no buffer to look for. -/
def Traversal.expected (Q : Queue) : Traversal → List ℕ
  | .resetElemFlagInQueue buffer _ => upTo (Q.hasBuffer buffer) Q.live
  | .dequeFreeReTransBuffer none => []
  | .dequeFreeReTransBuffer (some _) => Q.live
  | .releaseQueueBuffs => Q.live

/-- The indices `l` are those expected, each once, and all in the array. -/
def Through (Q : Queue) (expected l : List ℕ) : Prop :=
  l = expected ∧ l.Nodup ∧ ∀ i ∈ l, i < Q.maxsize

/-- The call returns, and has gone through its entries and nothing else. -/
def Traversal.Right (Q : Queue) (c : Traversal) : Prop :=
  ∃ fuel r, c.run Q fuel = some r ∧ Q.Through (c.expected Q) r.visited

/-- The call goes nowhere, or returns before the end of the array. -/
def Traversal.EndsBefore (Q : Queue) : Traversal → Prop
  | .resetElemFlagInQueue buffer _ => ∃ i, Q.front ≤ i ∧ i < Q.maxsize ∧ Q.hasBuffer buffer i = true
  | .dequeFreeReTransBuffer buffer => buffer = none
  | .releaseQueueBuffs => False

theorem upTo_never (is : List ℕ) : upTo (stops cell hit false) is = is :=
  upTo_eq_self fun _ _ => rfl

theorem hasBuffer_eq_stops (hcell : Q.pBase = some cell) (release : Bool) : Q.hasBuffer buffer =
    stops cell
      (fun e => if e.bufferAddr = buffer then some { e with release := release } else none) true := by
  funext i
  rw [hasBuffer, hcell, stops, Bool.true_and]
  by_cases hi : (cell i).bufferAddr = buffer <;> simp [hi]

/-- What a function that goes through the queue has visited. -/
theorem exists_walk_iff (h : Inside maxsize Q) {f : Walk → Outcome}
    (hf : ∀ w, (f w).visited = w.visited) {P : List ℕ → Prop} :
    (∃ fuel r, (Q.walk cell hit early fuel).map f = some r ∧ P r.visited) ↔
      P (upTo (stops cell hit early) (List.range' Q.front (dist maxsize Q.front Q.rear))) := by
  obtain ⟨w, hw, hvisited⟩ := walk_visited h cell hit early
  constructor
  · rintro ⟨fuel, r, hr, hP⟩
    obtain ⟨w', hw', rfl⟩ := Option.map_eq_some_iff.mp hr
    -- the same loop, with fuel for both
    have heq : w' = w := by
      rcases Nat.le_total fuel (dist maxsize Q.front Q.rear) with hle | hle
      · exact Option.some.inj ((Loop.whileLoop_mono hle hw').symm.trans hw)
      · exact Option.some.inj (hw'.symm.trans (Loop.whileLoop_mono hle hw))
    rwa [hf, heq, hvisited] at hP
  · intro hP
    exact ⟨_, f w, by rw [hw, Option.map_some], by rwa [hf, hvisited]⟩

theorem through_iff (h : Inside maxsize Q) (stop : ℕ → Bool) :
    Q.Through (upTo stop Q.live) (upTo stop (List.range' Q.front (dist maxsize Q.front Q.rear))) ↔
      Q.front ≤ Q.rear ∨ Q.rear = 0 ∨ ∃ i, Q.front ≤ i ∧ i < Q.maxsize ∧ stop i = true := by
  have hnodup := (upTo_sublist stop _).nodup
    (List.nodup_range' (s := Q.front) (n := dist maxsize Q.front Q.rear))
  rw [Through, and_iff_right hnodup, live, h.maxsize_eq]
  exact upTo_range'_iff h.front h.rear

theorem through_live_iff (h : Inside maxsize Q) :
    Q.Through Q.live (List.range' Q.front (dist maxsize Q.front Q.rear)) ↔
      Q.front ≤ Q.rear ∨ Q.rear = 0 := by
  have hiff := through_iff h fun _ => false
  simpa [upTo_eq_self] using hiff

/-- **A call goes through its entries** if and only if they end before the array does, or the call
does. -/
theorem Traversal.right_iff (h : Inside maxsize Q) (c : Traversal) :
    c.Right Q ↔ Q.front ≤ Q.rear ∨ Q.rear = 0 ∨ c.EndsBefore Q := by
  obtain ⟨cell, hcell⟩ := Option.isSome_iff_exists.mp h.pBase
  match c with
  | .resetElemFlagInQueue buffer release =>
    rw [Right, expected, EndsBefore, ← through_iff h, hasBuffer_eq_stops hcell release]
    simp only [run, Queue.resetElemFlagInQueue, hcell]
    exact exists_walk_iff h (by intro; rfl)
  | .dequeFreeReTransBuffer none =>
    refine iff_of_true ⟨0, Q.untouched, ?_, rfl, List.nodup_nil, nofun⟩ (.inr (.inr rfl))
    simp [run, Queue.dequeFreeReTransBuffer]
  | .dequeFreeReTransBuffer (some b) =>
    rw [Right, expected, EndsBefore, ← or_assoc, or_iff_left (Option.some_ne_none b),
      ← through_live_iff h]
    simp only [run, Queue.dequeFreeReTransBuffer, hcell]
    refine (exists_walk_iff h (by intro; rfl)).trans ?_
    rw [upTo_never]
  | .releaseQueueBuffs =>
    rw [Right, expected, EndsBefore, or_false, ← through_live_iff h]
    simp only [run, Queue.releaseQueueBuffs, hcell]
    refine (exists_walk_iff h (by intro; rfl)).trans ?_
    rw [upTo_never]

/-- **Every traversal of every queue that `Enqueue` and `Dequeue` lead to.** -/
theorem traversal_iff (hmax : 0 < maxsize) (heap : ℕ → ElemType) (ops : List Op) (c : Traversal) :
    c.Right (ops.foldl Op.step (createQueue maxsize heap)) ↔
      (ops.foldl Op.step (createQueue maxsize heap)).front ≤
          (ops.foldl Op.step (createQueue maxsize heap)).rear ∨
        (ops.foldl Op.step (createQueue maxsize heap)).rear = 0 ∨
        c.EndsBefore (ops.foldl Op.step (createQueue maxsize heap)) :=
  c.right_iff ((inside_create hmax heap).run ops)

/-- Three packets were queued, and the first of them has been sent. -/
theorem traversal_short : Traversal.Right
    ([.enqueue true ⟨0, some 64, 10, false, false⟩, .enqueue true ⟨0, some 96, 10, true, false⟩,
        .enqueue true ⟨0, some 128, 10, false, false⟩, .dequeue].foldl Op.step
      (createQueue queueMaxsize fun _ => .zero))
    (.dequeFreeReTransBuffer (some 96)) :=
  (traversal_iff (by decide) _ _ _).mpr (.inl (by decide))

/-- A packet that is sent at once. -/
def passThrough (val : ElemType) : List Op := [.enqueue true val, .dequeue]

theorem passThrough_ends (h : Inside maxsize Q) (hempty : Q.front = Q.rear)
    (hroom : Q.rear + 1 < maxsize) (val : ElemType) :
    ((passThrough val).foldl Op.step Q).front = Q.front + 1 ∧
      ((passThrough val).foldl Op.step Q).rear = Q.rear + 1 := by
  obtain ⟨cell, hcell⟩ := Option.isSome_iff_exists.mp h.pBase
  have hmod : (Q.rear + 1) % Q.maxsize = Q.rear + 1 := Nat.mod_eq_of_lt (h.maxsize_eq ▸ hroom)
  simp [passThrough, Op.step, enqueue, dequeue, full, empty, hcell, hempty, hmod]

/-- After `n` packets that were sent at once. -/
theorem passThrough_run (h : Inside maxsize Q) (hempty : Q.front = Q.rear) (val : ElemType) (n : ℕ)
    (hroom : Q.rear + n < maxsize) :
    Inside maxsize ((List.replicate n (passThrough val)).flatten.foldl Op.step Q) ∧
      ((List.replicate n (passThrough val)).flatten.foldl Op.step Q).front = Q.front + n ∧
      ((List.replicate n (passThrough val)).flatten.foldl Op.step Q).rear = Q.rear + n := by
  induction n generalizing Q with
  | zero => exact ⟨h, rfl, rfl⟩
  | succ n ih =>
    obtain ⟨hfront, hrear⟩ := passThrough_ends h hempty (by omega) val
    rw [List.replicate_succ, List.flatten_cons, List.foldl_append]
    obtain ⟨hin, hf, hr⟩ := ih (h.run (passThrough val)) (by omega) (by omega)
    exact ⟨hin, by omega, by omega⟩

/-- `n` packets are sent at once, and two wait. -/
def wrappedOps (n : ℕ) : List Op :=
  (List.replicate n (passThrough ⟨0, some 64, 10, false, false⟩)).flatten ++
    [.enqueue true ⟨0, some 96, 10, false, false⟩, .enqueue true ⟨0, some 128, 10, false, false⟩]

/-- One of the two is at the end of the array and one at its front. -/
theorem wrapped_not_right {n : ℕ} (hn : 1 < n) (heap : ℕ → ElemType) (b : ℕ) :
    ¬ Traversal.Right ((wrappedOps n).foldl Op.step (createQueue (n + 1) heap))
      (.dequeFreeReTransBuffer (some b)) := by
  obtain ⟨hin, hfront, hrear⟩ := passThrough_run (inside_create (Nat.succ_pos n) heap) rfl
    ⟨0, some 64, 10, false, false⟩ n (by simp [createQueue])
  rw [wrappedOps, List.foldl_append]
  generalize List.foldl Op.step (createQueue (n + 1) heap) _ = Q at hin hfront hrear ⊢
  obtain ⟨cell, hcell⟩ := Option.isSome_iff_exists.mp hin.pBase
  have hf : Q.front = n := hfront.trans (Nat.zero_add n)
  have hr : Q.rear = n := hrear.trans (Nat.zero_add n)
  refine fun hright => absurd ((Traversal.right_iff (hin.run _) _).mp hright) ?_
  have hn0 : n ≠ 0 := by omega
  have hn1 : n ≠ 1 := by omega
  have hmod : 1 % (n + 1) = 1 := Nat.mod_eq_of_lt (by omega)
  simp [Op.step, enqueue, full, hcell, hf, hr, hin.maxsize_eq, Traversal.EndsBefore, hn, hn0, hn1, hmod]

/-- With the array that the dispatchers have: the loop that looks for the second packet goes on
behind its end. -/
theorem traversal_wrapped : ¬ Traversal.Right
    ((wrappedOps 9999).foldl Op.step (createQueue queueMaxsize fun _ => .zero))
    (.dequeFreeReTransBuffer (some 128)) :=
  wrapped_not_right (by decide) _ 128

end Queue

end AndroidVendor.Ratd
