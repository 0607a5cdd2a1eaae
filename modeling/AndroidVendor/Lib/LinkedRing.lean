import Mathlib.Data.Set.Defs
import Mathlib.Data.List.Nodup
import Mathlib.Logic.Function.Basic

/-!
# Circular doubly linked lists

Nodes with two links each, either of which may be null, and the two operations of a list that is
threaded through them: a node is inserted before another one, or unlinked. Nothing in the links
says which list a node is in; `Ring a as` says that the nodes `as` are linked in this order between
the sentinel `a` and itself, and `Rings` that all linked nodes are in one of two such rings.

A set of nodes is `Closed` when no node outside of it has a next node in it: a walk that begins
outside never enters, whatever is done to the other links.
-/

namespace LinkedRing

/-- `none` is the null link. -/
structure Links (α : Type*) where
  next : α → Option α
  prev : α → Option α

namespace Links

variable {α : Type*} {l l' : Links α} {a b x y z : α} {as bs : List α} {S : Set α}

section Operations

variable [DecidableEq α]

/-- Links `x` before `a`, one assignment after the other; fails at a null link. -/
def insertBefore (l : Links α) (x a : α) : Option (Links α) :=
  (l.prev a).map fun p =>
    { next := Function.update (Function.update l.next x (some a)) p (some x)
      prev := Function.update (Function.update l.prev x (some p)) a (some x) }

/-- Takes `x` out of the list that it is in, if any. -/
def unlink (l : Links α) (x : α) : Links α :=
  match l.next x, l.prev x with
  | some n, some p =>
    { next := Function.update (Function.update l.next p (some n)) x none
      prev := Function.update (Function.update l.prev n (some p)) x none }
  | _, _ => l

/-- Forgets the links of `x`, and leaves those to `x` alone. -/
def clear (l : Links α) (x : α) : Links α :=
  { next := Function.update l.next x none, prev := Function.update l.prev x none }

end Operations

/-! ### Rings -/

def Adj (l : Links α) (x y : α) : Prop := l.next x = some y ∧ l.prev y = some x

/-- From `x` over the nodes of the list to `y`. -/
def Path (l : Links α) : α → List α → α → Prop
  | x, [], y => l.Adj x y
  | x, b :: bs, y => l.Adj x b ∧ l.Path b bs y

/-- `next` leads from `x` over `as` to `y`, whatever the links back are. -/
def Leads (l : Links α) : α → List α → α → Prop
  | x, [], y => l.next x = some y
  | x, b :: bs, y => l.next x = some b ∧ l.Leads b bs y

/-- The nodes `as`, between the sentinel `a` and itself. -/
structure Ring (l : Links α) (a : α) (as : List α) : Prop where
  nodup : (a :: as).Nodup
  path : l.Path a as a

theorem Path.congr (h : l.Path x as y) (hnext : ∀ z ∈ x :: as, l'.next z = l.next z)
    (hprev : ∀ z ∈ as ++ [y], l'.prev z = l.prev z) : l'.Path x as y := by
  induction as generalizing x with
  | nil =>
    exact ⟨(hnext x (by simp)).trans h.1, (hprev y (by simp)).trans h.2⟩
  | cons b bs ih =>
    refine ⟨⟨(hnext x (by simp)).trans h.1.1, (hprev b (by simp)).trans h.1.2⟩, ih h.2 ?_ ?_⟩
    · exact fun z hz => hnext z (List.mem_cons_of_mem _ hz)
    · exact fun z hz => hprev z (List.mem_cons_of_mem _ hz)

theorem Ring.congr (h : l.Ring a as) (hnext : ∀ z ∈ a :: as, l'.next z = l.next z)
    (hprev : ∀ z ∈ a :: as, l'.prev z = l.prev z) : l'.Ring a as := by
  refine ⟨h.nodup, h.path.congr hnext fun z hz => hprev z ?_⟩
  rcases List.mem_append.mp hz with hz | hz
  · exact List.mem_cons_of_mem _ hz
  · exact List.mem_singleton.mp hz ▸ List.mem_cons_self

theorem Ring.next_eq (h : l.Ring a as) : l.next a = some (as.headD a) := by
  cases as with
  | nil => exact h.path.1
  | cons b bs => exact h.path.1.1

theorem Ring.next_head (h : l.Ring a (x :: as)) : l.next x = some (as.headD a) := by
  cases as with
  | nil => exact h.path.2.1
  | cons b bs => exact h.path.2.1.1

/-- Every node of a ring has a next one in it. -/
theorem Path.exists_next (h : l.Path x as y) (hz : z ∈ x :: as) :
    ∃ w ∈ as ++ [y], l.next z = some w := by
  induction as generalizing x with
  | nil =>
    obtain rfl := List.mem_singleton.mp hz
    exact ⟨y, by simp, h.1⟩
  | cons b bs ih =>
    rcases List.mem_cons.mp hz with rfl | hz
    · exact ⟨b, by simp, h.1.1⟩
    · obtain ⟨w, hw, hnext⟩ := ih h.2 hz
      exact ⟨w, List.mem_cons_of_mem _ hw, hnext⟩

theorem path_append_cons : l.Path x (as ++ b :: bs) y ↔ l.Path x as b ∧ l.Path b bs y := by
  induction as generalizing x with
  | nil => rfl
  | cons c cs ih => exact (and_congr_right fun _ => ih).trans and_assoc.symm

/-- The first node is taken out. -/
theorem Ring.unlink_head [DecidableEq α] (h : l.Ring a (x :: as)) : (l.unlink x).Ring a as := by
  obtain ⟨⟨hnext, hprev⟩, hpath⟩ := h.path
  obtain ⟨hahead, hxas, has⟩ : a ∉ x :: as ∧ x ∉ as ∧ as.Nodup := by
    simpa only [List.nodup_cons] using h.nodup
  obtain ⟨hax, haas⟩ : a ≠ x ∧ a ∉ as := by simpa only [List.mem_cons, not_or] using hahead
  refine ⟨List.nodup_cons.mpr ⟨haas, has⟩, ?_⟩
  rw [unlink, h.next_head, hprev]
  cases as with
  | nil => simp [Path, Adj, hax]
  | cons b bs =>
    have hbx : b ≠ x := ne_of_mem_of_not_mem List.mem_cons_self hxas
    refine ⟨by simp [Adj, hax, hbx], hpath.2.congr ?_ ?_⟩
    · intro z hz
      simp [ne_of_mem_of_not_mem hz haas, ne_of_mem_of_not_mem hz hxas]
    · intro z hz
      have hb : b ∉ bs ++ [a] := by
        have hba : b ≠ a := ne_of_mem_of_not_mem List.mem_cons_self haas
        simp [(List.nodup_cons.mp has).1, hba]
      have hx : x ∉ bs ++ [a] := by
        have hxbs : x ∉ bs := fun h => hxas (List.mem_cons_of_mem b h)
        simp [hxbs, Ne.symm hax]
      simp [ne_of_mem_of_not_mem hz hb, ne_of_mem_of_not_mem hz hx]

theorem Path.exists_prev (h : l.Path x as y) : ∃ p ∈ x :: as, l.prev y = some p := by
  induction as generalizing x with
  | nil => exact ⟨x, List.mem_cons_self, h.2⟩
  | cons b bs ih =>
    obtain ⟨p, hp, hprev⟩ := ih h.2
    exact ⟨p, List.mem_cons_of_mem _ hp, hprev⟩

theorem Ring.exists_next (h : l.Ring a as) (hz : z ∈ a :: as) :
    ∃ w ∈ a :: as, l.next z = some w := by
  obtain ⟨w, hw, hnext⟩ := h.path.exists_next hz
  exact ⟨w, by simpa [or_comm] using hw, hnext⟩

theorem Ring.exists_prev (h : l.Ring a (as ++ bs)) : ∃ p ∈ a :: as, l.prev (bs.headD a) = some p := by
  cases bs with
  | nil => simpa using h.path.exists_prev
  | cons c cs => exact (path_append_cons.mp h.path).1.exists_prev

/-- The links of all nodes but those of `as` are the same. -/
def AgreeOff (l l' : Links α) (as : List α) : Prop :=
  ∀ z ∉ as, l'.next z = l.next z ∧ l'.prev z = l.prev z

/-- A ring is not changed by what is done to other nodes. -/
theorem Ring.of_agreeOff (h : l.Ring a as) (hagree : l.AgreeOff l' bs)
    (hdisj : (a :: as).Disjoint bs) : l'.Ring a as :=
  h.congr (fun z hz => (hagree z (hdisj hz)).1) fun z hz => (hagree z (hdisj hz)).2

/-- Before the node that a path leads to. -/
theorem Path.insertBefore_end [DecidableEq α] (h : l.Path x as y) (hx : (x :: as).Nodup)
    (hz : z ∉ x :: as) (hy : y ∉ as) (hzy : z ≠ y) (hl : l.insertBefore z y = some l') :
    l'.Path x (as ++ [z]) y := by
  obtain ⟨p, hp, rfl⟩ := Option.map_eq_some_iff.mp hl
  induction as generalizing x with
  | nil =>
    obtain rfl : x = p := Option.some.inj (h.2.symm.trans hp)
    have hzx : z ≠ x := by simpa using hz
    simp [Path, Adj, hzx, hzy]
  | cons b bs ih =>
    obtain ⟨hxbs, hbs⟩ := List.nodup_cons.mp hx
    obtain ⟨hzx, hzbs⟩ : z ≠ x ∧ z ∉ b :: bs := by simpa using hz
    obtain ⟨q, hq, hprev⟩ := h.2.exists_prev
    obtain rfl : q = p := Option.some.inj (hprev.symm.trans hp)
    have hqx : q ≠ x := ne_of_mem_of_not_mem hq hxbs
    have hbz : b ≠ z := ne_of_mem_of_not_mem List.mem_cons_self hzbs
    have hby : b ≠ y := ne_of_mem_of_not_mem List.mem_cons_self hy
    refine ⟨?_, ih h.2 hbs hzbs fun hmem => hy (List.mem_cons_of_mem b hmem)⟩
    obtain ⟨hnext, hback⟩ := h.1
    simp [Adj, hnext, hback, hqx.symm, hzx.symm, hbz, hby]

theorem insertBefore_next [DecidableEq α] (hl : l.insertBefore x a = some l')
    (hp : l.prev a = some y) (hzx : z ≠ x) (hzy : z ≠ y) : l'.next z = l.next z := by
  obtain ⟨p, hp', rfl⟩ := Option.map_eq_some_iff.mp hl
  obtain rfl : y = p := Option.some.inj (hp.symm.trans hp')
  simp [hzx, hzy]

theorem insertBefore_prev [DecidableEq α] (hl : l.insertBefore x a = some l') (hzx : z ≠ x)
    (hza : z ≠ a) : l'.prev z = l.prev z := by
  obtain ⟨p, -, rfl⟩ := Option.map_eq_some_iff.mp hl
  simp [hzx, hza]

/-- A node is put into a ring, at any place in it. -/
theorem Ring.insertBefore [DecidableEq α] (h : l.Ring a (as ++ bs)) (hx : x ∉ a :: (as ++ bs)) :
    ∃ l', l.insertBefore x (bs.headD a) = some l' ∧ l'.Ring a (as ++ x :: bs) ∧
      l.AgreeOff l' (x :: a :: (as ++ bs)) := by
  obtain ⟨p, hp, hprev⟩ := h.exists_prev
  obtain ⟨l', hl⟩ : ∃ l', l.insertBefore x (bs.headD a) = some l' :=
    ⟨_, by rw [Links.insertBefore, hprev]; rfl⟩
  have hnodup : ((a :: as) ++ bs).Nodup := h.nodup
  obtain ⟨hfront, hbs, hdisj⟩ := List.nodup_append.mp hnodup
  have hxfront : x ∉ a :: as := fun hmem => hx (List.mem_append_left bs hmem)
  have hhead : bs.headD a ∈ a :: (as ++ bs) := by
    cases bs with
    | nil => exact List.mem_cons_self
    | cons c cs => simp
  refine ⟨l', hl, ⟨?_, ?_⟩, fun z hz => ?_⟩
  · have hperm : (a :: (as ++ x :: bs)).Perm (x :: a :: (as ++ bs)) :=
      (List.perm_middle.cons a).trans (List.Perm.swap x a _)
    exact hperm.nodup_iff.mpr (List.nodup_cons.mpr ⟨hx, h.nodup⟩)
  · have hxa : x ≠ a := fun hxa => hxfront (hxa ▸ List.mem_cons_self)
    cases bs with
    | nil =>
      rw [List.append_nil] at h
      exact h.path.insertBefore_end hfront hxfront (List.nodup_cons.mp hfront).1 hxa hl
    | cons c cs =>
      obtain ⟨hbefore, hafter⟩ := path_append_cons.mp h.path
      have hxbs : x ∉ c :: cs := fun hmem => hx (List.mem_append_right (a :: as) hmem)
      have hxc : x ≠ c := fun hxc => hxbs (hxc ▸ List.mem_cons_self)
      have hnot : ∀ z ∈ c :: cs, z ∉ a :: as := fun z hz hmem => hdisj z hmem z hz rfl
      have hcas : c ∉ as := fun hmem => hnot c List.mem_cons_self (List.mem_cons_of_mem a hmem)
      rw [← List.singleton_append, ← List.append_assoc]
      refine path_append_cons.mpr ⟨hbefore.insertBefore_end hfront hxfront hcas hxc hl, ?_⟩
      refine hafter.congr (fun z hz => ?_) fun z hz => ?_
      · exact insertBefore_next hl hprev (ne_of_mem_of_not_mem hz hxbs)
          (ne_of_mem_of_not_mem hp (hnot z hz)).symm
      · have hcz : c ∉ cs ++ [a] := by
          have hca : c ≠ a := fun hca => hnot c List.mem_cons_self (hca ▸ List.mem_cons_self)
          simpa [hca] using (List.nodup_cons.mp hbs).1
        have hxz : x ∉ cs ++ [a] := by
          simpa [hxa] using fun hmem => hxbs (List.mem_cons_of_mem c hmem)
        exact insertBefore_prev hl (ne_of_mem_of_not_mem hz hxz) (ne_of_mem_of_not_mem hz hcz)
  · obtain ⟨hzx, hz⟩ := not_or.mp (mt List.mem_cons.mpr hz)
    have hzp : z ≠ p := fun hzp => hz (List.mem_append_left bs (hzp ▸ hp))
    exact ⟨insertBefore_next hl hprev hzx hzp,
      insertBefore_prev hl hzx fun hzh => hz (hzh ▸ hhead)⟩

theorem Ring.unlink_head_agreeOff [DecidableEq α] (h : l.Ring a (x :: as)) :
    l.AgreeOff (l.unlink x) (a :: x :: as) := by
  intro z hz
  have hza : z ≠ a := fun hza => hz (hza ▸ List.mem_cons_self)
  have hzx : z ≠ x := fun hzx => hz (hzx ▸ List.mem_cons_of_mem a List.mem_cons_self)
  have hzn : z ≠ as.headD a := by
    rintro rfl
    cases as with
    | nil => exact hza rfl
    | cons b bs => exact hz (by simp)
  rw [unlink, h.next_head, h.path.1.2]
  exact ⟨by simp only [Function.update_of_ne hzx, Function.update_of_ne hza],
    by simp only [Function.update_of_ne hzx, Function.update_of_ne hzn]⟩

theorem Ring.unlink_head_next [DecidableEq α] (h : l.Ring a (x :: as)) :
    (l.unlink x).next x = none := by
  rw [unlink, h.next_head, h.path.1.2]
  exact Function.update_self ..

/-! ### Two rings -/

/-- Two rings with no node in common; every other node is linked nowhere. -/
structure Rings (l : Links α) (a : α) (as : List α) (b : α) (bs : List α) : Prop where
  left : l.Ring a as
  right : l.Ring b bs
  disjoint : (a :: as).Disjoint (b :: bs)
  unlinked : ∀ z, z ∉ a :: as → z ∉ b :: bs → l.next z = none

namespace Rings

variable {cs : List α}

theorem symm (h : l.Rings a as b bs) : l.Rings b bs a as :=
  ⟨h.right, h.left, fun _ hb ha => h.disjoint ha hb, fun z hb ha => h.unlinked z ha hb⟩

theorem not_mem (h : l.Rings a as b bs) (hz : l.next z = none) : z ∉ a :: as ∧ z ∉ b :: bs := by
  constructor <;> intro hmem
  · obtain ⟨w, -, hw⟩ := h.left.exists_next hmem
    simp [hz] at hw
  · obtain ⟨w, -, hw⟩ := h.right.exists_next hmem
    simp [hz] at hw

/-- An unlinked node is put into the first ring. -/
theorem insertBefore [DecidableEq α] (h : l.Rings a (as ++ cs) b bs) (hx : l.next x = none) :
    ∃ l', l.insertBefore x (cs.headD a) = some l' ∧ l'.Rings a (as ++ x :: cs) b bs := by
  obtain ⟨hxleft, hxright⟩ := h.not_mem hx
  obtain ⟨l', hl, hring, hagree⟩ := h.left.insertBefore hxleft
  have hdisj : (b :: bs).Disjoint (x :: a :: (as ++ cs)) := by
    intro z hb hz
    rcases List.mem_cons.mp hz with rfl | hz
    · exact hxright hb
    · exact h.disjoint hz hb
  have hsub : ∀ z, z ∈ x :: a :: (as ++ cs) ↔ z ∈ a :: (as ++ x :: cs) := by
    intro z
    simp only [List.mem_cons, List.mem_append]
    tauto
  refine ⟨l', hl, hring, h.right.of_agreeOff hagree hdisj, fun z ha hb => ?_, fun z ha hb => ?_⟩
  · exact hdisj hb ((hsub z).mpr ha)
  · have hz : z ∉ x :: a :: (as ++ cs) := mt (hsub z).mp ha
    rw [(hagree z hz).1]
    exact h.unlinked z (fun hmem => hz (List.mem_cons_of_mem x hmem)) hb

/-- The first node is taken out of the first ring. -/
theorem unlink_head [DecidableEq α] (h : l.Rings a (x :: as) b bs) :
    (l.unlink x).Rings a as b bs ∧ (l.unlink x).next x = none := by
  have hagree := h.left.unlink_head_agreeOff
  have hright := h.right.of_agreeOff hagree fun z hb ha => h.disjoint ha hb
  refine ⟨⟨h.left.unlink_head, hright, fun z ha hb => ?_, fun z ha hb => ?_⟩,
    h.left.unlink_head_next⟩
  · rcases List.mem_cons.mp ha with rfl | ha
    · exact h.disjoint List.mem_cons_self hb
    · exact h.disjoint (List.mem_cons_of_mem a (List.mem_cons_of_mem x ha)) hb
  · by_cases hzx : z = x
    · exact hzx ▸ h.left.unlink_head_next
    · have hz : z ∉ a :: x :: as := by
        simp only [List.mem_cons, not_or] at ha ⊢
        exact ⟨ha.1, hzx, ha.2⟩
      rw [(hagree z hz).1]
      exact h.unlinked z hz hb

/-- The first node of the first ring becomes the last one of the second. -/
theorem move_head [DecidableEq α] (h : l.Rings a (x :: as) b bs) :
    ∃ l', (l.unlink x).insertBefore x b = some l' ∧ l'.Rings a as b (bs ++ [x]) := by
  obtain ⟨hrings, hx⟩ := h.unlink_head
  have hend : (l.unlink x).Rings b (bs ++ []) a as := by
    rw [List.append_nil]
    exact hrings.symm
  obtain ⟨l', hl, hmoved⟩ := hend.insertBefore hx
  exact ⟨l', hl, hmoved.symm⟩

end Rings

/-! ### Closed sets -/

/-- No node outside of `S` has its next one in `S`. -/
def Closed (l : Links α) (S : Set α) : Prop := ∀ y ∉ S, ∀ z, l.next y = some z → z ∉ S

/-- Nor its previous one. -/
def Apart (l : Links α) (S : Set α) : Prop :=
  l.Closed S ∧ ∀ y ∉ S, ∀ z, l.prev y = some z → z ∉ S

variable [DecidableEq α]

/-- The links of `x` do not count when it is inserted elsewhere. -/
theorem closed_insertBefore (h : ∀ y ∉ S, y ≠ x → ∀ z, l.next y = some z → z ∉ S) (ha : a ∉ S)
    (hx : x ∉ S) (hl : l.insertBefore x a = some l') : l'.Closed S := by
  obtain ⟨p, -, rfl⟩ := Option.map_eq_some_iff.mp hl
  intro y hy z hz
  simp only [Function.update_apply] at hz
  split at hz
  · exact Option.some.inj hz ▸ hx
  · split at hz
    · exact Option.some.inj hz ▸ ha
    · next hyx => exact h y hy hyx z hz

theorem closed_clear (h : ∀ y ∉ S, y ≠ x → ∀ z, l.next y = some z → z ∉ S) :
    (l.clear x).Closed S := by
  intro y hy z hz
  simp only [Links.clear, Function.update_apply] at hz
  split at hz
  · cases hz
  · next hyx => exact h y hy hyx z hz

theorem Closed.unlink (h : l.Closed S) (hx : x ∉ S) : (l.unlink x).Closed S := by
  rw [Links.unlink]
  split
  · next n p hn hp =>
    intro y hy z hz
    simp only [Function.update_apply] at hz
    split at hz
    · cases hz
    · split at hz
      · exact Option.some.inj hz ▸ h x hx n hn
      · exact h y hy z hz
  · exact h

/-- What is inserted outside of a set that is apart leaves the links in the set alone. -/
theorem Apart.insertBefore (h : l.Apart S) (ha : a ∉ S) (hx : x ∉ S)
    (hl : l.insertBefore x a = some l') :
    l'.Apart S ∧ ∀ z ∈ S, l'.next z = l.next z ∧ l'.prev z = l.prev z := by
  have hclosed : l'.Closed S := closed_insertBefore (fun y hy _ => h.1 y hy) ha hx hl
  obtain ⟨p, hp, rfl⟩ := Option.map_eq_some_iff.mp hl
  have hpS : p ∉ S := h.2 a ha p hp
  refine ⟨⟨hclosed, fun y hy z hz => ?_⟩, fun z hz => ?_⟩
  · simp only [Function.update_apply] at hz
    split at hz
    · exact Option.some.inj hz ▸ hx
    · split at hz
      · exact Option.some.inj hz ▸ hpS
      · exact h.2 y hy z hz
  · have hne : ∀ w ∉ S, z ≠ w := fun w hw h => hw (h ▸ hz)
    simp [hne a ha, hne x hx, hne p hpS]

/-- A ring that nothing else points into is so when its first node has been taken out. -/
theorem Ring.apart_unlink_head (h : l.Ring a (x :: as)) (hapart : l.Apart { z | z ∈ a :: x :: as }) :
    (l.unlink x).Apart { z | z ∈ a :: as } := by
  have hmem : ∀ y : α, y ∉ a :: as → y ≠ x → y ∉ a :: x :: as := by
    intro y hy hyx hyas
    simp only [List.mem_cons, not_or] at hy hyas
    rcases hyas with hya | hyx' | hyas
    · exact hy.1 hya
    · exact hyx hyx'
    · exact hy.2 hyas
  have hsub : ∀ z : α, z ∉ a :: x :: as → z ∉ a :: as := by
    intro z hz hzas
    simp only [List.mem_cons, not_or] at hz hzas
    rcases hzas with hza | hzas
    · exact hz.1 hza
    · exact hz.2.2 hzas
  have hnext : as.headD a ∈ a :: as := by
    cases as with
    | nil => exact List.mem_cons_self
    | cons b bs => exact List.mem_cons_of_mem _ List.mem_cons_self
  rw [unlink, h.next_head, h.path.1.2]
  constructor
  · intro y hy z hz
    simp only [Function.update_apply] at hz
    split at hz
    · cases hz
    · next hyx =>
      split at hz
      · next hya => exact absurd (hya ▸ List.mem_cons_self) hy
      · exact hsub z (hapart.1 y (hmem y hy hyx) z hz)
  · intro y hy z hz
    simp only [Function.update_apply] at hz
    split at hz
    · cases hz
    · next hyx =>
      split at hz
      · next hyn => exact absurd (hyn ▸ hnext) hy
      · exact hsub z (hapart.2 y (hmem y hy hyx) z hz)

theorem Apart.clear (h : l.Apart S) (hx : x ∉ S) :
    (l.clear x).Apart S ∧ ∀ z ∈ S, (l.clear x).next z = l.next z ∧ (l.clear x).prev z = l.prev z := by
  refine ⟨⟨closed_clear fun y hy _ => h.1 y hy, fun y hy z hz => ?_⟩, fun z hz => ?_⟩
  · simp only [Links.clear, Function.update_apply] at hz
    split at hz
    · cases hz
    · exact h.2 y hy z hz
  · have hne : z ≠ x := fun h => hx (h ▸ hz)
    simp [Links.clear, hne]

end Links

end LinkedRing
