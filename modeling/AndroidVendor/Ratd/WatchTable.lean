import AndroidVendor.Lib.Machine
import AndroidVendor.Ratd.McwillEvent

/-!
# The watch table

The table, the descriptor set, the index of an event and `g_nfds` say the same thing in four ways.
Adding an event takes the first slot that is free or has its descriptor, so a hole in front of a
descriptor that is being watched lets it in a second time; and an event that was added for a
descriptor which another one holds has an index that outlives the other's.

## Main results

* `WatchOp.consistent_iff`: when a step keeps the four in agreement.
* `watch_consistent_iff`: the runs that do.
-/

namespace AndroidVendor.Ratd.McwillEvent

open LinkedRing

inductive WatchOp
  | add (e : ℕ)
  | del (e : ℕ)
  | ready (rfds : ℤ → Bool) (n : ℤ)

def WatchOp.step : WatchOp → State → Option State
  | .add e, s => s.eventAdd e
  | .del e, s => s.eventDel e
  | .ready rfds n, s => s.processReadReadies rfds n

/-- A descriptor is in the table once, its bit is set exactly if it is, and the index of the event
and `g_nfds` go with it. -/
structure Consistent (s : State) : Prop where
  once : ∀ i j e f, s.watchTable i = some e → s.watchTable j = some f → s.fd e = s.fd f → i = j
  bit : ∀ d, s.readFds d = true ↔ ∃ i e, s.watchTable i = some e ∧ s.fd e = d
  index : ∀ i e, s.watchTable i = some e → s.index e = i.val
  lt_nfds : ∀ i e, s.watchTable i = some e → s.fd e < s.nfds

/-- The descriptor of `e` is watched. -/
def State.Watched (s : State) (e : ℕ) : Prop := ∃ j f, s.watchTable j = some f ∧ s.fd f = s.fd e

/-- No slot is free in front of the one that has the descriptor; the slot that the index names has
the descriptor, or is empty and the descriptor is not watched. -/
def WatchOp.Respects (s : State) : WatchOp → Prop
  | .add e =>
    ∀ i j f, s.watchTable i = none → s.watchTable j = some f → s.fd f = s.fd e → j < i
  | .del e => ∀ i, s.slotOf e = some i →
    (∃ f, s.watchTable i = some f ∧ s.fd f = s.fd e) ∨ s.watchTable i = none ∧ ¬ s.Watched e
  | .ready _ _ => True

instance (s : State) (e : ℕ) : Decidable (s.Watched e) :=
  decidable_of_iff (∃ j, ∃ f ∈ s.watchTable j, s.fd f = s.fd e) Iff.rfl

instance (s : State) : (op : WatchOp) → Decidable (op.Respects s)
  | .add e => decidable_of_iff
      (∀ i j, s.watchTable i = none → ∀ f ∈ s.watchTable j, s.fd f = s.fd e → j < i)
      ⟨fun h i j f hi hj => h i j hi f hj, fun h i j hi f hj => h i j f hi hj⟩
  | .del e => decidable_of_iff (∀ i ∈ s.slotOf e,
      (∃ f ∈ s.watchTable i, s.fd f = s.fd e) ∨ s.watchTable i = none ∧ ¬ s.Watched e) Iff.rfl
  | .ready _ _ => isTrue trivial

variable {s t : State} {e : ℕ} {i : Fin maxFdEvents}

/-! ### The operations -/

@[simp] theorem State.setEv_fd (s : State) (e f : ℕ) (v : Event) :
    (s.setEv e v).fd f = if f = e then v.fd else s.fd f := by
  simp only [State.fd, State.setEv, Function.update_apply, Addr.event.injEq]
  split <;> rfl

@[simp] theorem State.setEv_index (s : State) (e f : ℕ) (v : Event) :
    (s.setEv e v).index f = if f = e then v.index else s.index f := by
  simp only [State.index, State.setEv, Function.update_apply, Addr.event.injEq]
  split <;> rfl

/-- The events keep their descriptors. -/
theorem State.unwatch_fd (s : State) (e f : ℕ) (i : Fin maxFdEvents) :
    (s.unwatch e i).fd f = s.fd f := by
  refine (s.setEv_fd e f _).trans ?_
  split
  · next h => exact h ▸ rfl
  · rfl

/-- A fold that only grows is at least what it starts with, and at least what an element makes of
any value. -/
theorem le_foldl {α : Type*} {g : ℤ → α → ℤ} (hg : ∀ n a, n ≤ g n a) (as : List α) (n : ℤ) :
    n ≤ as.foldl g n := by
  induction as generalizing n with
  | nil => exact le_rfl
  | cons a as ih => exact (hg n a).trans (ih _)

theorem le_foldl_of_mem {α : Type*} {g : ℤ → α → ℤ} (hg : ∀ n a, n ≤ g n a) {as : List α} {a : α}
    (ha : a ∈ as) {m : ℤ} (hm : ∀ n, m ≤ g n a) (n : ℤ) : m ≤ as.foldl g n := by
  induction as generalizing n with
  | nil => cases ha
  | cons b as ih =>
    rw [List.foldl_cons]
    rcases List.mem_cons.mp ha with rfl | ha
    · exact (hm n).trans (le_foldl hg as _)
    · exact ih ha _

/-- `removeWatch` finds no greater descriptor than the one it returns. -/
theorem State.le_maxFd (h : s.watchTable i = some e) : s.fd e ≤ s.maxFd := by
  refine le_foldl_of_mem (fun n j => ?_) (List.mem_finRange i) (fun n => ?_) 0
  · split
    · split <;> omega
    · exact le_rfl
  · rw [h]
    dsimp only
    split <;> omega

/-- What `removeWatch` leaves. -/
structure Removed (s : State) (e : ℕ) (i : Fin maxFdEvents) (t : State) : Prop where
  table : t.watchTable = Function.update s.watchTable i none
  fd : t.fd = s.fd
  index : ∀ f, t.index f = if f = e then -1 else s.index f
  bits : t.readFds = Function.update s.readFds (s.fd e) false
  nfds : t.nfds = s.nfds ∨ ∀ j f, t.watchTable j = some f → t.fd f < t.nfds

theorem State.removeWatch_spec (h : s.removeWatch e i = some t) : Removed s e i t := by
  rw [State.removeWatch] at h
  split at h
  swap
  · cases h
  split at h
  · obtain rfl := Option.some.inj h
    refine ⟨rfl, funext fun f => s.unwatch_fd e f i, fun f => s.setEv_index e f _, rfl, .inr ?_⟩
    exact fun j f hj => Int.lt_add_one_of_le (State.le_maxFd hj)
  · obtain rfl := Option.some.inj h
    exact ⟨rfl, funext fun f => s.unwatch_fd e f i, fun f => s.setEv_index e f _, rfl, .inl rfl⟩

/-- The first slot that `mcwill_event_add` can take. -/
theorem State.find_takes (h : (List.finRange maxFdEvents).find? (s.Takes e) = some i) :
    s.Takes e i = true ∧ ∀ j < i, s.Takes e j = false := by
  obtain ⟨htake, k, hk, hki, hbefore⟩ := List.find?_eq_some_iff_getElem.mp h
  rw [List.getElem_finRange] at hki
  refine ⟨htake, fun j hj => ?_⟩
  have hjk : j.val < k := by
    subst hki
    exact hj
  simpa using hbefore j.val hjk

/-! ### One step -/

/-- Taking `e` out of slot `i` is right where the slot has its descriptor, and where it is empty and
nothing else has. -/
theorem Consistent.removed_iff (h : Consistent s) (hr : Removed s e i t) :
    Consistent t ↔
      (∃ f, s.watchTable i = some f ∧ s.fd f = s.fd e) ∨ s.watchTable i = none ∧ ¬ s.Watched e := by
  have htable (j : Fin maxFdEvents) (f : ℕ) :
      t.watchTable j = some f ↔ j ≠ i ∧ s.watchTable j = some f := by
    rw [hr.table, Function.update_apply]
    split
    · next hj => simp [hj]
    · next hj => simp [hj]
  have hbits (d : ℤ) : t.readFds d = true ↔ d ≠ s.fd e ∧ s.readFds d = true := by
    rw [hr.bits, Function.update_apply]
    split
    · next hd => simp [hd]
    · next hd => simp [hd]
  constructor
  · intro ht
    cases hi : s.watchTable i with
    | some f =>
      refine .inl ⟨f, rfl, ?_⟩
      by_contra hne
      have hset : t.readFds (s.fd f) = true := (hbits _).mpr ⟨hne, (h.bit _).mpr ⟨i, f, hi, rfl⟩⟩
      obtain ⟨j, f', hj, hf'⟩ := (ht.bit _).mp hset
      rw [htable] at hj
      rw [hr.fd] at hf'
      exact hj.1 (h.once j i f' f hj.2 hi hf')
    | none =>
      refine .inr ⟨rfl, ?_⟩
      rintro ⟨j, f, hj, hf⟩
      have hji : j ≠ i := by
        rintro rfl
        exact nomatch hi.symm.trans hj
      have hset := (ht.bit (s.fd f)).mpr ⟨j, f, (htable j f).mpr ⟨hji, hj⟩, congrFun hr.fd f⟩
      exact ((hbits _).mp hset).1 hf
  · intro hslot
    have hother : ∀ j f, j ≠ i → s.watchTable j = some f → s.fd f ≠ s.fd e := by
      intro j f hji hj hf
      rcases hslot with ⟨f', hi, hf'⟩ | ⟨-, hnot⟩
      · exact hji (h.once j i f f' hj hi (hf.trans hf'.symm))
      · exact hnot ⟨j, f, hj, hf⟩
    refine ⟨fun j k f g hj hk hfg => ?_, fun d => ?_, fun j f hj => ?_, fun j f hj => ?_⟩
    · rw [hr.fd] at hfg
      exact h.once j k f g ((htable j f).mp hj).2 ((htable k g).mp hk).2 hfg
    · rw [hbits, h.bit]
      constructor
      · rintro ⟨hd, j, f, hj, rfl⟩
        refine ⟨j, f, (htable j f).mpr ⟨?_, hj⟩, congrFun hr.fd f⟩
        rintro rfl
        rcases hslot with ⟨f', hi, hf'⟩ | ⟨hi, -⟩
        · exact hd (Option.some.inj (hj.symm.trans hi) ▸ hf')
        · exact nomatch hi.symm.trans hj
      · rintro ⟨j, f, hj, rfl⟩
        rw [htable] at hj
        rw [hr.fd]
        exact ⟨hother j f hj.1 hj.2, j, f, hj.2, rfl⟩
    · rw [htable] at hj
      have hfe : f ≠ e := fun hfe => hother j f hj.1 hj.2 (hfe ▸ rfl)
      rw [hr.index, if_neg hfe]
      exact h.index j f hj.2
    · rcases hr.nfds with hn | hlt
      · rw [hn, hr.fd]
        exact h.lt_nfds j f ((htable j f).mp hj).2
      · exact hlt j f hj

theorem Consistent.eventDel_iff (h : Consistent s) (hstep : s.eventDel e = some t) :
    Consistent t ↔ (WatchOp.del e).Respects s := by
  rw [State.eventDel] at hstep
  cases hslot : s.slotOf e with
  | none =>
    rw [hslot] at hstep
    obtain rfl := Option.some.inj hstep
    exact iff_of_true ⟨h.once, h.bit, h.index, h.lt_nfds⟩ fun i hi => nomatch hslot.symm.trans hi
  | some i =>
    rw [hslot] at hstep
    have h' : Consistent { s with deleted := s.deleted ++ [e] } :=
      ⟨h.once, h.bit, h.index, h.lt_nfds⟩
    rw [h'.removed_iff (State.removeWatch_spec hstep), WatchOp.Respects]
    simp only [hslot, Option.some.injEq, forall_eq']
    exact Iff.rfl

@[simp] theorem State.setIndex_fd (s : State) (e : ℕ) (k : ℤ) :
    (s.setEv e { s.ev (.event e) with index := k }).fd = s.fd := by
  funext f
  rw [State.setEv_fd]
  split
  · next h => exact h ▸ rfl
  · rfl

/-- An event that is added for a descriptor in slot `i` only gets the index. -/
theorem Consistent.setIndex (h : Consistent s) {f : ℕ} (hi : s.watchTable i = some f)
    (hf : s.fd f = s.fd e) : Consistent (s.setEv e { s.ev (.event e) with index := i.val }) := by
  refine ⟨?_, ?_, fun j g hj => ?_, ?_⟩
  · rw [State.setIndex_fd]
    exact h.once
  · rw [State.setIndex_fd]
    exact h.bit
  · rw [State.setEv_index]
    split
    · next hge =>
      obtain rfl := h.once j i g f hj hi (hge ▸ hf.symm)
      rfl
    · exact h.index j g hj
  · rw [State.setIndex_fd]
    exact h.lt_nfds

/-- What `mcwill_event_add` leaves when it takes the free slot `i`. -/
structure Added (s : State) (e : ℕ) (i : Fin maxFdEvents) (t : State) : Prop where
  table : t.watchTable = Function.update s.watchTable i (some e)
  fd : t.fd = s.fd
  index : ∀ f, t.index f = if f = e then (i.val : ℤ) else s.index f
  bits : t.readFds = Function.update s.readFds (s.fd e) true
  nfds : s.nfds ≤ t.nfds ∧ s.fd e < t.nfds

/-- A free slot is right where the descriptor is not watched yet. -/
theorem Consistent.added_iff (h : Consistent s) (ha : Added s e i t) (hi : s.watchTable i = none) :
    Consistent t ↔ ¬ s.Watched e := by
  have htable (j : Fin maxFdEvents) (f : ℕ) :
      t.watchTable j = some f ↔ j = i ∧ f = e ∨ s.watchTable j = some f := by
    rw [ha.table, Function.update_apply]
    split
    · next hj => simp [hj, hi, eq_comm]
    · next hj => simp [hj]
  constructor
  · rintro ht ⟨j, f, hj, hf⟩
    have hji := ht.once j i f e ((htable j f).mpr (.inr hj)) ((htable i e).mpr (.inl ⟨rfl, rfl⟩))
      (by rw [ha.fd, hf])
    subst hji
    exact nomatch hi.symm.trans hj
  · intro hnot
    have hnew : ∀ j f, s.watchTable j = some f → s.fd f ≠ s.fd e :=
      fun j f hj hf => hnot ⟨j, f, hj, hf⟩
    refine ⟨fun j k f g hj hk hfg => ?_, fun d => ?_, fun j f hj => ?_, fun j f hj => ?_⟩
    · rw [ha.fd] at hfg
      rcases (htable j f).mp hj with ⟨rfl, rfl⟩ | hj <;> rcases (htable k g).mp hk with ⟨rfl, rfl⟩ | hk
      · rfl
      · exact absurd hfg.symm (hnew k g hk)
      · exact absurd hfg (hnew j f hj)
      · exact h.once j k f g hj hk hfg
    · rw [ha.bits, Function.update_apply, ha.fd]
      split
      · next hd => exact iff_of_true rfl ⟨i, e, (htable i e).mpr (.inl ⟨rfl, rfl⟩), hd.symm⟩
      · next hd =>
        rw [h.bit]
        constructor
        · rintro ⟨j, f, hj, hf⟩
          exact ⟨j, f, (htable j f).mpr (.inr hj), hf⟩
        · rintro ⟨j, f, hj, hf⟩
          rcases (htable j f).mp hj with ⟨-, rfl⟩ | hj
          · exact absurd hf.symm hd
          · exact ⟨j, f, hj, hf⟩
    · rw [ha.index]
      rcases (htable j f).mp hj with ⟨rfl, rfl⟩ | hj
      · rw [if_pos rfl]
      · rw [if_neg fun hfe => hnew j f hj (congrArg s.fd hfe)]
        exact h.index j f hj
    · rw [ha.fd]
      rcases (htable j f).mp hj with ⟨-, rfl⟩ | hj
      · exact ha.nfds.2
      · exact lt_of_lt_of_le (h.lt_nfds j f hj) ha.nfds.1

theorem Consistent.eventAdd_iff (h : Consistent s) (hstep : s.eventAdd e = some t) :
    Consistent t ↔ (WatchOp.add e).Respects s := by
  rw [State.eventAdd] at hstep
  cases hfind : (List.finRange maxFdEvents).find? (s.Takes e) with
  | none =>
    rw [hfind] at hstep
    obtain rfl := Option.some.inj hstep
    refine iff_of_true h fun i j f hi => ?_
    have := List.find?_eq_none.mp hfind i (List.mem_finRange i)
    simp [State.Takes, hi] at this
  | some i =>
    obtain ⟨htake, hbefore⟩ := State.find_takes hfind
    -- neither a free slot nor the descriptor is in front of the slot that is taken
    have hle : ∀ j, s.Takes e j = true → i ≤ j := by
      intro j hj
      by_contra hlt
      exact absurd ((hbefore j (not_le.mp hlt)).symm.trans hj) Bool.false_ne_true
    have htakes : ∀ j f, s.watchTable j = some f → s.fd f = s.fd e → s.Takes e j = true :=
      fun j f hj hf => by simp [State.Takes, hj, hf]
    have hfree : ∀ j, s.watchTable j = none → s.Takes e j = true :=
      fun j hj => by simp [State.Takes, hj]
    rw [hfind] at hstep
    cases hi : s.watchTable i with
    | some f =>
      have hf : s.fd f = s.fd e := by simpa [State.Takes, hi] using htake
      simp only [hi] at hstep
      obtain rfl := Option.some.inj hstep
      refine iff_of_true (h.setIndex hi hf) fun k j g hk hj hg => ?_
      obtain rfl := h.once j i g f hj hi (hg.trans hf.symm)
      refine lt_of_le_of_ne (hle k (hfree k hk)) fun hjk => ?_
      subst hjk
      exact nomatch hi.symm.trans hk
    | none =>
      simp only [hi] at hstep
      split at hstep
      swap
      · cases hstep
      obtain rfl := Option.some.inj hstep
      have hadded : Added s e i { s.setEv e { s.ev (.event e) with index := i.val } with
          watchTable := Function.update s.watchTable i (some e)
          readFds := Function.update s.readFds (s.fd e) true
          nfds := if s.nfds ≤ s.fd e then s.fd e + 1 else s.nfds } := by
        refine ⟨rfl, State.setIndex_fd s e _, fun f => State.setEv_index s e f _, rfl, ?_⟩
        dsimp only
        split <;> omega
      rw [h.added_iff hadded hi, WatchOp.Respects]
      constructor
      · exact fun hnot k j f _ hj hf => absurd ⟨j, f, hj, hf⟩ hnot
      · rintro hall ⟨j, f, hj, hf⟩
        exact absurd (hall i j f hi hj hf) (not_lt.mpr (hle j (htakes j f hj hf)))

theorem State.addToList_congr {a : Addr} (h : s.addToList e a = some t) :
    ∃ links, t = { s with links := links } := by
  obtain ⟨links, -, rfl⟩ := Option.map_eq_some_iff.mp h
  exact ⟨links, rfl⟩

theorem Consistent.readReadies (rfds : ℤ → Bool) {is : List (Fin maxFdEvents)} {n : ℤ}
    (h : Consistent s) (hstep : s.readReadies rfds is n = some t) : Consistent t := by
  induction is generalizing s n with
  | nil => exact Option.some.inj hstep ▸ h
  | cons i is ih =>
    rw [State.readReadies] at hstep
    split at hstep
    · exact Option.some.inj hstep ▸ h
    cases hi : s.watchTable i with
    | none =>
      rw [hi] at hstep
      exact ih h hstep
    | some e =>
      simp only [hi] at hstep
      split at hstep
      · cases hstep
      split at hstep
      swap
      · exact ih h hstep
      obtain ⟨u, hu, hrest⟩ := Option.bind_eq_some_iff.mp hstep
      obtain ⟨links, rfl⟩ := State.addToList_congr hu
      have hlinked : Consistent { s with links := links } := ⟨h.once, h.bit, h.index, h.lt_nfds⟩
      split at hrest
      · exact ih hlinked hrest
      · obtain ⟨v, hv, hrest⟩ := Option.bind_eq_some_iff.mp hrest
        exact ih ((hlinked.removed_iff (State.removeWatch_spec hv)).mpr (.inl ⟨e, hi, rfl⟩)) hrest

/-- **One step**, out of a state in which the four agree, leads to another one exactly where it
respects what is in the table. -/
theorem WatchOp.consistent_iff (op : WatchOp) (h : Consistent s) (hstep : op.step s = some t) :
    Consistent t ↔ op.Respects s := by
  cases op with
  | add e => exact h.eventAdd_iff hstep
  | del e => exact h.eventDel_iff hstep
  | ready rfds n => exact iff_of_true (h.readReadies rfds hstep) trivial

/-! ### Every step answers -/

/-- Descriptors that fit a descriptor set, and a list to put the ready ones in. -/
structure Usable (s : State) : Prop where
  fd : ∀ e, ValidFd (s.fd e)
  linked : (s.links.prev .pendingList).isSome

theorem Usable.removeWatch (h : Usable s) (e : ℕ) (i : Fin maxFdEvents) :
    ∃ t, s.removeWatch e i = some t ∧ Usable t := by
  have hunwatch : Usable (s.unwatch e i) :=
    ⟨fun f => (s.unwatch_fd e f i).symm ▸ h.fd f, h.linked⟩
  rw [State.removeWatch, if_pos (h.fd e)]
  split
  · exact ⟨_, rfl, hunwatch.fd, hunwatch.linked⟩
  · exact ⟨_, rfl, hunwatch⟩

theorem Usable.addToList (h : Usable s) (e : ℕ) :
    ∃ t, s.addToList e .pendingList = some t ∧ Usable t := by
  obtain ⟨p, hp⟩ := Option.isSome_iff_exists.mp h.linked
  obtain ⟨links, hlinks, hlinked⟩ : ∃ links,
      s.links.insertBefore (.event e) .pendingList = some links ∧
        (links.prev .pendingList).isSome := by
    rw [Links.insertBefore, hp]
    exact ⟨_, rfl, by simp⟩
  exact ⟨{ s with links := links }, by rw [State.addToList, hlinks]; rfl, h.fd, hlinked⟩

theorem Usable.readReadies (rfds : ℤ → Bool) (is : List (Fin maxFdEvents)) (n : ℤ) (h : Usable s) :
    ∃ t, s.readReadies rfds is n = some t ∧ Usable t := by
  induction is generalizing s n with
  | nil => exact ⟨s, rfl, h⟩
  | cons i is ih =>
    rw [State.readReadies]
    split
    · exact ⟨s, rfl, h⟩
    cases hi : s.watchTable i with
    | none => exact ih n h
    | some e =>
      simp only [not_true_eq_false, h.fd e, if_false]
      split
      swap
      · exact ih n h
      obtain ⟨u, hu, husable⟩ := h.addToList e
      rw [hu, Option.bind_some]
      split
      · exact ih _ husable
      · obtain ⟨v, hv, hv'⟩ := husable.removeWatch e i
        rw [hv, Option.bind_some]
        exact ih _ hv'

theorem Usable.step (op : WatchOp) (h : Usable s) : ∃ t, op.step s = some t ∧ Usable t := by
  cases op with
  | add e =>
    rw [WatchOp.step, State.eventAdd]
    have hset (k : ℤ) : ∀ f, ValidFd ((s.setEv e { s.ev (.event e) with index := k }).fd f) := by
      rw [State.setIndex_fd]
      exact h.fd
    split
    · exact ⟨s, rfl, h⟩
    · dsimp only
      split
      · rw [if_pos (h.fd e)]
        exact ⟨_, rfl, hset _, h.linked⟩
      · exact ⟨_, rfl, hset _, h.linked⟩
  | del e =>
    rw [WatchOp.step, State.eventDel]
    have hdeleted : Usable { s with deleted := s.deleted ++ [e] } := ⟨h.fd, h.linked⟩
    split
    · exact ⟨_, rfl, hdeleted⟩
    · exact hdeleted.removeWatch e _
  | ready rfds n => exact h.readReadies rfds _ n

/-! ### Runs -/

variable {events : ℕ} {ev : ℕ → Event}

theorem consistent_init : Consistent (State.init events ev) where
  once _ _ _ _ h := nomatch h
  bit _ := iff_of_false Bool.false_ne_true fun ⟨_, _, h, _⟩ => nomatch h
  index _ _ h := nomatch h
  lt_nfds _ _ h := nomatch h

theorem usable_init (hfd : ∀ e, ValidFd (ev e).fd) : Usable (State.init events ev) where
  fd := hfd
  linked := rfl

/-- **The table, the set, the indices and `g_nfds` agree in every state of a run** if and only if
each of its steps respects what is in the table. -/
theorem watch_consistent_iff (hfd : ∀ e, ValidFd (ev e).fd) (ops : List WatchOp) :
    (∀ pre, pre <+: ops →
        ∃ t, Machine.run WatchOp.step pre (State.init events ev) = some t ∧ Consistent t) ↔
      Machine.Meets WatchOp.step (fun _ s op => op.Respects s) [] ops (State.init events ev) :=
  Machine.forall_prefix_iff_meets (fun op _ h => h.step op)
    (fun op _ _ _ h hstep => op.consistent_iff h hstep) (usable_init hfd) consistent_init

/-- Two events, for the descriptors 5 and 6. -/
def twoEvents (e : ℕ) : Event where
  fd := if e = 0 then 5 else 6
  index := -1
  persist := true
  timeout := ⟨0, 0⟩
  func := true

theorem validFd_twoEvents (e : ℕ) : ValidFd (twoEvents e).fd := by
  change ValidFd (if e = 0 then 5 else 6)
  split <;> decide

/-- A run with a deletion in it. -/
theorem watch_consistent_two : ∃ t, Machine.run WatchOp.step
    [.add 0, .add 1, .del 0, .add 0, .ready (fun d => d == 6) 1] (State.init 2 twoEvents) = some t ∧
      Consistent t :=
  (watch_consistent_iff validFd_twoEvents _).mpr (by decide +kernel) _ List.prefix_rfl

/-- Descriptor 6 is added again when the slot in front of it has become free. -/
theorem watch_twice : ¬ ∃ t,
    Machine.run WatchOp.step [.add 0, .add 1, .del 0, .add 1] (State.init 2 twoEvents) = some t ∧
      Consistent t := by
  rintro ⟨t, ht, hc⟩
  have htable : (Machine.run WatchOp.step [.add 0, .add 1, .del 0, .add 1]
      (State.init 2 twoEvents)).map (fun t => (t.watchTable 0, t.watchTable 1)) =
        some (some 1, some 1) := by
    decide +kernel
  rw [ht, Option.map_some, Option.some.injEq, Prod.mk.injEq] at htable
  exact absurd (hc.once 0 1 1 1 htable.1 htable.2 rfl) (by decide)

end AndroidVendor.Ratd.McwillEvent
