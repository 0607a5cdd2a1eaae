import AndroidVendor.Ratd.QueueWalk

/-!
# The entries of a queue

What the functions of `queue.c` do to the entries that are in the queue, and what the loops do to
each cell.

## Main results

* `entries_enqueue`, `entries_dequeue`
* `walk_marks` — a loop that goes on to the end, cell by cell
* `dequeFreeReTransBuffer_spec` — what is left of a buffer in the queue, and when it is freed
-/

namespace AndroidVendor.Ratd

open RingQueue SerialRing

/-- The entry is going to be sent, and has the buffer `a`. -/
def ElemType.Refers (a : ℕ) (e : ElemType) : Prop := e.bufferAddr = some a ∧ e.justNotSend = false

instance (a : ℕ) : DecidablePred (ElemType.Refers a) := fun _ => inferInstanceAs (Decidable (_ ∧ _))

namespace Queue

variable {Q : Queue} {maxsize : ℕ} {cell : ℕ → ElemType} {hit : ElemType → Option ElemType}
  {early : Bool} {a : ℕ}

/-- The entries, oldest first. -/
def entries (Q : Queue) : List ElemType :=
  match Q.pBase with
  | none => []
  | some cell => contents Q.maxsize cell Q.front Q.rear

theorem entries_eq (hcell : Q.pBase = some cell) :
    Q.entries = contents Q.maxsize cell Q.front Q.rear := by
  rw [entries, hcell]

theorem entries_create (maxsize : ℕ) (heap : ℕ → ElemType) : (createQueue maxsize heap).entries = [] := by
  rw [entries_eq (Q := createQueue maxsize heap) rfl]
  exact contents_self ..

/-- **`Enqueue`.** -/
theorem entries_enqueue (h : Inside maxsize Q) (netStatus : Bool) (val : ElemType) :
    Inside maxsize (Q.enqueue netStatus val).1 ∧
      if (Q.enqueue netStatus val).2 then
        (Q.enqueue netStatus val).1.entries = Q.entries ++ [{ val with justNotSend := false }]
      else (Q.enqueue netStatus val).1 = Q := by
  refine ⟨h.step (.enqueue netStatus val), ?_⟩
  obtain ⟨cell, hcell⟩ := Option.isSome_iff_exists.mp h.pBase
  rw [enqueue, hcell]
  dsimp only
  split
  · rw [if_neg Bool.false_ne_true]
  · next hroom =>
    have hfull : (Q.rear + 1) % maxsize ≠ Q.front := by
      intro heq
      simp [full, h.maxsize_eq, heq] at hroom
    rw [if_pos rfl, entries_eq hcell, entries, h.maxsize_eq]
    exact contents_push h.front h.rear hfull _

/-- **`Dequeue`.** -/
theorem entries_dequeue (h : Inside maxsize Q) {e : ElemType} (he : Q.dequeue.2 = some e) :
    Inside maxsize Q.dequeue.1 ∧ Q.entries = e :: Q.dequeue.1.entries := by
  refine ⟨h.step .dequeue, ?_⟩
  obtain ⟨cell, hcell⟩ := Option.isSome_iff_exists.mp h.pBase
  rw [dequeue, hcell] at he ⊢
  dsimp only at he ⊢
  split at he
  · cases he
  next hne =>
  rw [if_neg hne]
  cases he
  have hne' : Q.front ≠ Q.rear := fun heq => hne (by simp [empty, heq])
  rw [entries_eq hcell, entries, h.maxsize_eq]
  exact contents_cons h.front h.rear hne'

/-! ### What a loop does to the cells -/

/-- A loop on its way: what it has used of the array is behind it, and done with. -/
structure Marked (cell : ℕ → ElemType) (hit : ElemType → Option ElemType) (w : Walk) : Prop where
  behind : ∀ j ∈ w.visited, j < w.i
  cell_eq : ∀ j, w.cell j = if j ∈ w.visited then (hit (cell j)).getD (cell j) else cell j
  hits : w.hits = [] ↔ ∀ j ∈ w.visited, hit (cell j) = none

theorem Marked.body {w : Walk} (h : Marked cell hit w) (early : Bool) :
    Marked cell hit (w.body hit early) := by
  have hnew : w.i ∉ w.visited := fun hmem => lt_irrefl _ (h.behind _ hmem)
  have hcell : w.cell w.i = cell w.i := by rw [h.cell_eq, if_neg hnew]
  have hbehind : ∀ j ∈ w.visited ++ [w.i], j < w.i + 1 := fun j hj => by
    rcases List.mem_append.mp hj with hj | hj
    · exact (h.behind j hj).trans (Nat.lt_succ_self _)
    · rw [List.mem_singleton.mp hj]
      exact Nat.lt_succ_self _
  have hmem : ∀ {j}, j ≠ w.i → (j ∈ w.visited ++ [w.i] ↔ j ∈ w.visited) := fun hj => by simp [hj]
  rw [Walk.body, hcell]
  cases hhit : hit (cell w.i) with
  | none =>
    refine ⟨hbehind, fun j => ?_, ?_⟩
    · dsimp only
      by_cases hj : j = w.i
      · rw [hj, hcell, hhit, Option.getD_none, ite_self]
      · rw [h.cell_eq, if_congr (hmem hj) rfl rfl]
    · simp only [h.hits, List.mem_append, List.mem_singleton, or_imp, forall_and, forall_eq, hhit,
        and_true]
  | some e =>
    refine ⟨hbehind, fun j => ?_, ?_⟩
    · dsimp only
      by_cases hj : j = w.i
      · rw [hj, Function.update_self, if_pos (by simp), hhit, Option.getD_some]
      · rw [Function.update_of_ne hj, h.cell_eq, if_congr (hmem hj) rfl rfl]
    · simp only [List.append_eq_nil_iff, List.cons_ne_self, and_false, List.mem_append,
        List.mem_singleton, or_imp, forall_and, forall_eq, hhit, reduceCtorEq]

/-- **A loop, cell by cell.** -/
theorem walk_marks {fuel : ℕ} {w : Walk} (hw : Q.walk cell hit early fuel = some w) :
    Marked cell hit w := by
  refine (Loop.whileLoop_inv (Marked cell hit) (fun w w' h _ hbody => ?_) ?_ hw).1
  · cases hbody
    exact h.body early
  · exact ⟨fun _ hj => absurd hj List.not_mem_nil, fun j => (if_neg List.not_mem_nil).symm, by simp⟩

/-- It has fuel enough. -/
theorem walk_total (h : Inside maxsize Q) (cell : ℕ → ElemType) (hit : ElemType → Option ElemType)
    (early : Bool) : ∃ w, Q.walk cell hit early Q.maxsize = some w ∧ w.visited =
      upTo (stops cell hit early) (List.range' Q.front (dist maxsize Q.front Q.rear)) := by
  obtain ⟨w, hw, hvisited⟩ := walk_visited h cell hit early
  have hle : dist maxsize Q.front Q.rear ≤ Q.maxsize := by
    rw [h.maxsize_eq]
    exact (dist_lt (Nat.zero_lt_of_lt h.front) _ _).le
  exact ⟨w, Loop.whileLoop_mono hle hw, hvisited⟩

/-! ### The functions that look for a buffer -/

/-- The entry at the index `i` is going to be sent, and has the buffer `a`. -/
def RefersAt (Q : Queue) (a i : ℕ) : Prop := ∃ cell, Q.pBase = some cell ∧ (cell i).Refers a

instance (Q : Queue) (a : ℕ) : DecidablePred (Q.RefersAt a) := fun i =>
  inferInstanceAs (Decidable (∃ cell ∈ Q.pBase, (cell i).Refers a))

/-- The loop of `DequeFreeReTransBuffer` comes by such an entry: it counts on from `front`, as many
cells as there are entries. -/
def Meets (Q : Queue) (a : ℕ) : Prop :=
  ∃ i, Q.front ≤ i ∧ i < Q.front + dist Q.maxsize Q.front Q.rear ∧ Q.RefersAt a i

instance (Q : Queue) (a : ℕ) : Decidable (Q.Meets a) :=
  decidable_of_iff (∃ i < Q.front + dist Q.maxsize Q.front Q.rear, Q.front ≤ i ∧ Q.RefersAt a i)
    (exists_congr fun _ => and_left_comm)

/-- Such an entry waits at the front of the array, where the queue goes on behind its end. -/
def Wraps (Q : Queue) (a : ℕ) : Prop := Q.rear < Q.front ∧ ∃ i < Q.rear, Q.RefersAt a i

theorem refersAt_iff (hcell : Q.pBase = some cell) {i : ℕ} : Q.RefersAt a i ↔ (cell i).Refers a := by
  constructor
  · rintro ⟨c, hc, h⟩
    exact Option.some.inj (hcell.symm.trans hc) ▸ h
  · exact fun h => ⟨cell, hcell, h⟩

/-- The entries of the queue that have the buffer. -/
def copies (Q : Queue) (a : ℕ) : List ElemType := Q.entries.filter (·.bufferAddr = some a)

/-- A loop leaves the queue with the same ends. -/
theorem Inside.setCells (h : Inside maxsize Q) (cell : ℕ → ElemType) :
    Inside maxsize { Q with pBase := some cell } :=
  ⟨rfl, h.front, h.rear, h.maxsize_eq⟩

theorem copies_eq (hcell : Q.pBase = some cell) :
    Q.copies a = ((indices Q.maxsize Q.front Q.rear).map cell).filter (·.bufferAddr = some a) := by
  rw [copies, entries_eq hcell, contents_eq_map]

/-- Entries with the buffer `b` were changed, and still have it. Other buffers are left as they are. -/
theorem copies_congr {cell' : ℕ → ElemType} {b : ℕ} (hcell : Q.pBase = some cell)
    (h : ∀ j, cell' j = cell j ∨ (cell j).bufferAddr = some b ∧ (cell' j).bufferAddr = some b)
    (hne : a ≠ b) : ({ Q with pBase := some cell' } : Queue).copies a = Q.copies a := by
  have hother : ∀ e : ElemType, e.bufferAddr = some b → ¬ e.bufferAddr = some a := fun e he ha =>
    hne (Option.some.inj (ha.symm.trans he))
  rw [copies_eq hcell, copies_eq rfl]
  generalize indices Q.maxsize Q.front Q.rear = is
  induction is with
  | nil => rfl
  | cons i is ih =>
    rw [List.map_cons, List.map_cons, List.filter_cons, List.filter_cons, ih]
    rcases h i with heq | ⟨hb, hb'⟩
    · rw [heq]
    · rw [if_neg (by simpa using hother _ hb'), if_neg (by simpa using hother _ hb)]

/-- What a loop leaves of the cells that it does not look for. -/
theorem Marked.cell_cases {w : Walk} (h : Marked cell hit w) (j : ℕ) :
    w.cell j = cell j ∨ hit (cell j) = some (w.cell j) := by
  rw [h.cell_eq]
  split
  · cases hhit : hit (cell j) with
    | none => exact .inl rfl
    | some e => exact .inr rfl
  · exact .inl rfl

/-- **`ResetElemFlagInQueue`** changes entries with the buffer only. -/
theorem resetElemFlagInQueue_spec (h : Inside maxsize Q) (b : ℕ) (release : Bool) :
    ∃ o, Q.resetElemFlagInQueue (some b) release Q.maxsize = some o ∧ Inside maxsize o.queue ∧
      ∀ a, a ≠ b → o.queue.copies a = Q.copies a := by
  obtain ⟨cell, hcell⟩ := Option.isSome_iff_exists.mp h.pBase
  obtain ⟨w, hw, -⟩ := walk_total h cell
    (fun e => if e.bufferAddr = some b then some { e with release := release } else none) true
  rw [resetElemFlagInQueue, hcell]
  dsimp only
  rw [hw, Option.map_some]
  refine ⟨_, rfl, h.setCells w.cell, fun a => copies_congr hcell fun j => ?_⟩
  rcases (walk_marks hw).cell_cases j with heq | hhit
  · exact .inl heq
  · obtain ⟨hb, heq⟩ := Option.ite_none_right_eq_some.mp hhit
    exact .inr ⟨hb, Option.some.inj heq ▸ hb⟩

/-- What the loop of `DequeFreeReTransBuffer` does to an entry. -/
def markUnsent (b : ℕ) (e : ElemType) : Option ElemType :=
  if e.Refers b then some { e with justNotSend := true } else none

theorem markUnsent_eq_none {b : ℕ} {e : ElemType} : markUnsent b e = none ↔ ¬ e.Refers b := by
  rw [markUnsent, ite_eq_right_iff]
  exact ⟨fun h hrefers => Option.some_ne_none _ (h hrefers), fun h hrefers => absurd hrefers h⟩

theorem dequeFreeReTransBuffer_eq (hcell : Q.pBase = some cell) (b fuel : ℕ) :
    Q.dequeFreeReTransBuffer (some b) fuel = (Q.walk cell (markUnsent b) false fuel).map fun w =>
      { queue := { Q with pBase := some w.cell }
        found := !w.hits.isEmpty
        freed := if w.hits = [] then [] else [some b]
        visited := w.visited } := by
  simp only [dequeFreeReTransBuffer, hcell]
  rfl

theorem Marked.refers {b : ℕ} {w : Walk} (h : Marked cell (markUnsent b) w) (j : ℕ) :
    (w.cell j).Refers b ↔ (cell j).Refers b ∧ j ∉ w.visited := by
  rw [h.cell_eq]
  split
  · next hj =>
    refine iff_of_false (fun hr => ?_) fun hr => hr.2 hj
    rw [markUnsent] at hr
    split at hr
    · exact absurd hr.2 (by simp)
    · next hnot => exact hnot hr
  · next hj => exact (and_iff_left hj).symm

/-- **`DequeFreeReTransBuffer`**: it frees the buffer if it comes by an entry that is going to be
sent, and then no such entry is left but those at the front of the array. -/
theorem dequeFreeReTransBuffer_spec (h : Inside maxsize Q) (b : ℕ) :
    ∃ o, Q.dequeFreeReTransBuffer (some b) Q.maxsize = some o ∧ Inside maxsize o.queue ∧
      (o.freed = [some b] ∧ Q.Meets b ∨ o.freed = [] ∧ ¬ Q.Meets b) ∧
      (∀ a, a ≠ b → o.queue.copies a = Q.copies a) ∧
      o.queue.entries.countP (ElemType.Refers b) ≤ Q.entries.countP (ElemType.Refers b) ∧
      (∀ e ∈ o.queue.entries, ∃ e' ∈ Q.entries, e.bufferAddr = e'.bufferAddr ∧ e.release = e'.release) ∧
      ((∃ e ∈ o.queue.entries, e.Refers b) ↔ Q.Wraps b) := by
  obtain ⟨cell, hcell⟩ := Option.isSome_iff_exists.mp h.pBase
  obtain ⟨w, hw, hvisited⟩ := walk_total h cell (markUnsent b) false
  have hmarks := walk_marks hw
  have hmem : ∀ j, j ∈ w.visited ↔ Q.front ≤ j ∧ j < Q.front + dist Q.maxsize Q.front Q.rear := fun j => by
    rw [hvisited, upTo_never, List.mem_range'_1, h.maxsize_eq]
  have hmeets : w.hits ≠ [] ↔ Q.Meets b := by
    rw [Ne, hmarks.hits, not_forall]
    refine exists_congr fun j => ?_
    rw [Classical.not_imp, hmem, markUnsent_eq_none, not_not, refersAt_iff hcell, and_assoc]
  rw [dequeFreeReTransBuffer_eq hcell, hw, Option.map_some]
  refine ⟨_, rfl, h.setCells w.cell, ?_, fun a => copies_congr hcell fun j => ?_, ?_, ?_, ?_⟩
  · rw [← hmeets]
    by_cases hhits : w.hits = []
    · exact .inr ⟨if_pos hhits, not_not.mpr hhits⟩
    · exact .inl ⟨if_neg hhits, hhits⟩
  · rcases hmarks.cell_cases j with heq | hhit
    · exact .inl heq
    · obtain ⟨⟨hb, -⟩, heq⟩ := Option.ite_none_right_eq_some.mp hhit
      exact .inr ⟨hb, Option.some.inj heq ▸ hb⟩
  · rw [entries_eq hcell, entries_eq rfl, contents_eq_map, contents_eq_map, List.countP_map,
      List.countP_map]
    refine List.countP_mono_left fun j _ hj => ?_
    simp only [Function.comp_apply, decide_eq_true_eq] at hj ⊢
    exact ((hmarks.refers j).mp hj).1
  · rw [entries_eq hcell, entries_eq rfl, contents_eq_map, contents_eq_map, List.forall_mem_map]
    refine fun j hj => ⟨cell j, List.mem_map_of_mem hj, ?_⟩
    rcases hmarks.cell_cases j with heq | hhit
    · rw [heq]
      exact ⟨rfl, rfl⟩
    · rw [← Option.some.inj (Option.ite_none_right_eq_some.mp hhit).2]
      exact ⟨rfl, rfl⟩
  · -- what is left was not visited
    have hfront : Q.front < Q.maxsize := h.maxsize_eq ▸ h.front
    have hrear : Q.rear < Q.maxsize := h.maxsize_eq ▸ h.rear
    simp only [entries, contents_eq_map, List.mem_map, exists_exists_and_eq_and, hmarks.refers, hmem,
      mem_indices hfront hrear, Wraps, refersAt_iff hcell]
    constructor
    · rintro ⟨j, ⟨hle, -, hlt⟩ | ⟨hwrap, hlt⟩, hr, hout⟩
      · exact absurd ⟨hle, hlt⟩ hout
      · exact ⟨hwrap, j, hlt, hr⟩
    · rintro ⟨hwrap, j, hlt, hr⟩
      exact ⟨j, .inr ⟨hwrap, hlt⟩, hr, fun hin => by omega⟩

end Queue

end AndroidVendor.Ratd
