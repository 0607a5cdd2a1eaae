import Mathlib.Data.Set.Insert
import AndroidVendor.Ratd.McwillEvent

/-!
# The pass over the pending events

`firePending` takes the next event down before it calls the current one. A callback that sets a
pending event anew, or makes a timer of it, takes it out of the list without unlinking it, and the
pass is lost: it never comes back to the sentinel. A callback that deletes a pending event changes
nothing in the list, and the event is called all the same.

## Main results

* `Call.step_isSome_iff`: the calls that return.
* `fireFrom_lost`: a pass that has left the list never ends.
* `fireFrom_iff`: the passes that end, and with what.
* `firePending_iff`: when each pending event is called once, and no deleted one is.
-/

namespace AndroidVendor.Ratd.McwillEvent

open LinkedRing LinkedRing.Links

/-- `pending_list` and the events in it. -/
def inList (pending : List ℕ) : Set Addr := { a | a ∈ Addr.pendingList :: pending.map .event }

/-- The pending list holds `pending`, and nothing else has a link into it. -/
structure PendingList (s : State) (pending : List ℕ) : Prop where
  ring : s.links.Ring .pendingList (pending.map .event)
  apart : s.links.Apart (inList pending)

/-- One turn for each event, which is called unless it was deleted before; then the list is
empty. -/
structure Dispatched (pending : List ℕ) (t : State) : Prop where
  turns : t.turns.map Turn.ev = pending.map .event
  called : ∀ x ∈ t.turns, x.called = !x.deleted
  empty : t.links.Ring .pendingList []

/-! ### What the callbacks do -/

/-- The call forgets or overwrites the links of none of the events. -/
def Call.Spares (pending : List ℕ) : Call → Prop
  | .set e _ _ _ => e ∉ pending
  | .timerAdd e tv _ => tv = none ∨ e ∉ pending
  | _ => True

instance (pending : List ℕ) : (c : Call) → Decidable (c.Spares pending)
  | .set e _ _ _ => inferInstanceAs (Decidable (e ∉ pending))
  | .timerAdd e tv _ => inferInstanceAs (Decidable (tv = none ∨ e ∉ pending))
  | .add _ => isTrue trivial
  | .del _ => isTrue trivial

/-- The search of `mcwill_timer_add` does not stop at `x`. -/
def State.Passes (s : State) (timeout : Timeval) (x : Addr) : Prop :=
  (s.ev x).timeout.lt timeout = true ∧ x ≠ .timerList

/-- From `timer_list` on the search comes to `a`, before it meets a null link. -/
def State.SearchEnds (s : State) (timeout : Timeval) (a : Addr) : Prop :=
  ∃ xs, xs.length < s.events + 2 ∧ s.links.Leads .timerList xs a ∧ (∀ x ∈ xs, s.Passes timeout x) ∧
    ¬ s.Passes timeout a

/-- The call returns. The macros of the descriptor set want a descriptor; the search for the place of
a timer wants a timer list that leads it to one, with a link back. -/
def Call.Returns (s : State) : Call → Prop
  | .set .. => True
  | .add e => ∀ i, (List.finRange maxFdEvents).find? (s.Takes e) = some i → s.watchTable i = none →
    ValidFd (s.fd e)
  | .del e => (s.slotOf e).isSome → ValidFd (s.fd e)
  | .timerAdd e tv now => ∀ i ∈ tv, ∃ a, (s.setEv e
    { s.ev (.event e) with fd := -1, timeout := now.add i }).SearchEnds (now.add i) a ∧
      (s.links.prev a).isSome

/-- The event that the call deletes. -/
def Call.deletes : Call → List ℕ
  | .del e => [e]
  | _ => []

section Script

variable (func : ℕ → Bool) (script : ℕ → List Call)

/-- The calls of the turn `k`, with the event `e`. -/
def callsAt (k e : ℕ) : List Call := if func e then script k else []

/-- The events deleted in the turns from `k` on. -/
def deletions : ℕ → List ℕ → List ℕ
  | _, [] => []
  | k, e :: es => (callsAt func script k e).flatMap Call.deletes ++ deletions (k + 1) es

/-- A turn, or a call of its callback. -/
inductive Step
  | turn (e : ℕ)
  | call (c : Call)

def Step.step : Step → State → Option State
  | .turn e, s => some (s.turn (.event e))
  | .call c, s => c.step s

def Step.Returns (s : State) : Step → Prop
  | .turn _ => True
  | .call c => c.Returns s

/-- The turns from `k` on and their calls, one after the other. -/
def schedule : ℕ → List ℕ → List Step
  | _, [] => []
  | k, e :: es => .turn e :: ((callsAt func script k e).map .call ++ schedule (k + 1) es)

/-- No callback sets or times an event that is still pending; an event has a callback exactly if no
callback before its turn deletes it. -/
structure Orderly (pending : List ℕ) : Prop where
  spares : ∀ pre e post, pending = pre ++ e :: post →
    ∀ c ∈ callsAt func script pre.length e, c.Spares post
  deletes : ∀ pre e post, pending = pre ++ e :: post →
    (func e = true ↔ e ∉ deletions func script 0 pre)

end Script

variable {s t : State} {e k : ℕ} {a : Addr} {pending rest : List ℕ} {c : Call} {cs : List Call}
  {func : ℕ → Bool} {script : ℕ → List Call} {S : Set Addr}

theorem not_mem_inList (he : e ∉ pending) : .event e ∉ inList pending := by
  simpa [inList] using he

theorem timerList_not_mem : .timerList ∉ inList pending := by
  simp [inList]

/-! ### The calls and the links -/

theorem State.eventAdd_links (h : s.eventAdd e = some t) :
    t.links = s.links ∧ (∀ a, (t.ev a).func = (s.ev a).func) ∧ t.turns = s.turns ∧
      t.deleted = s.deleted := by
  have hfunc (k : ℤ) (a : Addr) :
      ((s.setEv e { s.ev (.event e) with index := k }).ev a).func = (s.ev a).func := by
    simp only [State.setEv, Function.update_apply]
    split
    · next ha => exact ha ▸ rfl
    · rfl
  rw [State.eventAdd] at h
  split at h
  · exact Option.some.inj h ▸ ⟨rfl, fun _ => rfl, rfl, rfl⟩
  · dsimp only at h
    split at h
    · split at h
      · exact Option.some.inj h ▸ ⟨rfl, hfunc _, rfl, rfl⟩
      · cases h
    · exact Option.some.inj h ▸ ⟨rfl, hfunc _, rfl, rfl⟩

theorem State.eventDel_links (h : s.eventDel e = some t) :
    t.links = s.links ∧ (∀ a, (t.ev a).func = (s.ev a).func) ∧ t.turns = s.turns ∧
      t.deleted = s.deleted ++ [e] := by
  rw [State.eventDel] at h
  split at h
  · exact Option.some.inj h ▸ ⟨rfl, fun _ => rfl, rfl, rfl⟩
  · next i _ =>
    have hfunc (a : Addr) :
        (({ s with deleted := s.deleted ++ [e] }.unwatch e i).ev a).func = (s.ev a).func := by
      simp only [State.unwatch, State.setEv, Function.update_apply]
      split
      · next ha => exact ha ▸ rfl
      · rfl
    rw [State.removeWatch] at h
    split at h
    · split at h
      · exact Option.some.inj h ▸ ⟨rfl, hfunc, rfl, rfl⟩
      · exact Option.some.inj h ▸ ⟨rfl, hfunc, rfl, rfl⟩
    · cases h

/-- A search that starts outside of a closed set stays outside. -/
theorem State.search_not_mem (hclosed : s.links.Closed S) {tv : Timeval} {fuel : ℕ} {w : Option Addr}
    (hw : ∀ z, w = some z → z ∉ S) (h : s.search tv fuel w = some a) : a ∉ S := by
  induction fuel generalizing w with
  | zero => cases h
  | succ fuel ih =>
    cases w with
    | none => cases h
    | some z =>
      rw [State.search] at h
      split at h
      · exact ih (hclosed z (hw z rfl)) h
      · exact Option.some.inj h ▸ hw z rfl

/-- A timer is linked in front of a node that the search of the timer list has come to. -/
theorem State.timerAdd_links {tv : Option Timeval} {now : Timeval}
    (h : s.timerAdd e tv now = some t) :
    (tv = none ∧ t = s) ∨ tv ≠ none ∧ (∃ a, s.links.insertBefore (.event e) a = some t.links ∧
      ∀ S : Set Addr, s.links.Closed S → .timerList ∉ S → a ∉ S) ∧
      (∀ b ≠ .event e, (t.ev b).func = (s.ev b).func) ∧ t.turns = s.turns ∧
      t.deleted = s.deleted := by
  cases tv with
  | none => exact .inl ⟨rfl, (Option.some.inj h).symm⟩
  | some tv =>
    obtain ⟨a, ha, hlink⟩ := Option.bind_eq_some_iff.mp h
    obtain ⟨links, hlinks, rfl⟩ := Option.map_eq_some_iff.mp hlink
    refine .inr ⟨nofun, ⟨a, hlinks, fun S hclosed htimer => ?_⟩, fun b hb => ?_, rfl, rfl⟩
    · exact State.search_not_mem (s := s.setEv e _) hclosed (hclosed _ htimer) ha
    · exact congrArg Event.func (Function.update_of_ne hb _ _)

/-! ### Which calls return -/

theorem State.search_eq_some_iff {timeout : Timeval} {fuel : ℕ} {z : Addr} :
    s.search timeout fuel (s.links.next z) = some a ↔ ∃ xs, xs.length < fuel ∧
      s.links.Leads z xs a ∧ (∀ x ∈ xs, s.Passes timeout x) ∧ ¬ s.Passes timeout a := by
  induction fuel generalizing z with
  | zero => exact iff_of_false nofun fun ⟨xs, hlen, _⟩ => Nat.not_lt_zero _ hlen
  | succ fuel ih =>
    cases hz : s.links.next z with
    | none =>
      refine iff_of_false nofun ?_
      rintro ⟨xs, -, hleads, -⟩
      cases xs with
      | nil => exact nomatch hz.symm.trans hleads
      | cons x xs => exact nomatch hz.symm.trans hleads.1
    | some y =>
      rw [State.search]
      by_cases hy : s.Passes timeout y
      · rw [if_pos (show _ ∧ _ from hy), ih]
        constructor
        · rintro ⟨xs, hlen, hleads, hpass, hend⟩
          exact ⟨y :: xs, Nat.succ_lt_succ hlen, ⟨hz, hleads⟩, List.forall_mem_cons.mpr ⟨hy, hpass⟩,
            hend⟩
        · rintro ⟨xs, hlen, hleads, hpass, hend⟩
          cases xs with
          | nil => exact absurd (Option.some.inj (hz.symm.trans hleads) ▸ hy) hend
          | cons x xs =>
            obtain rfl := Option.some.inj (hz.symm.trans hleads.1)
            exact ⟨xs, Nat.lt_of_succ_lt_succ hlen, hleads.2, (List.forall_mem_cons.mp hpass).2, hend⟩
      · rw [if_neg (show ¬ (_ ∧ _) from hy)]
        constructor
        · intro ha
          obtain rfl := Option.some.inj ha
          exact ⟨[], Nat.succ_pos fuel, hz, nofun, hy⟩
        · rintro ⟨xs, -, hleads, hpass, -⟩
          cases xs with
          | nil => exact hz.symm.trans hleads
          | cons x xs =>
            obtain rfl := Option.some.inj (hz.symm.trans hleads.1)
            exact absurd (hpass y List.mem_cons_self) hy

theorem Call.step_isSome_iff (c : Call) (s : State) : (c.step s).isSome ↔ c.Returns s := by
  cases c with
  | set e fd persist func => exact iff_of_true rfl trivial
  | add e =>
    rw [Call.step, State.eventAdd, Call.Returns]
    cases hfind : (List.finRange maxFdEvents).find? (s.Takes e) with
    | none =>
      refine iff_of_true rfl fun i hi => ?_
      cases hi
    | some i =>
      dsimp only
      cases hslot : s.watchTable i with
      | some f =>
        refine iff_of_true rfl fun j hj hfree => ?_
        obtain rfl := Option.some.inj hj
        cases hslot.symm.trans hfree
      | none =>
        by_cases hfd : ValidFd (s.fd e)
        · exact iff_of_true (by rw [if_pos hfd]; rfl) fun _ _ _ => hfd
        · exact iff_of_false (by rw [if_neg hfd]; exact Bool.false_ne_true) fun h => hfd (h i rfl hslot)
  | del e =>
    rw [Call.step, State.eventDel, Call.Returns]
    cases hslot : s.slotOf e with
    | none => exact iff_of_true rfl fun h => absurd h Bool.false_ne_true
    | some i =>
      dsimp only
      rw [State.removeWatch]
      by_cases hfd : ValidFd (s.fd e)
      · refine iff_of_true ?_ fun _ => hfd
        rw [if_pos (show ValidFd (State.fd { s with deleted := s.deleted ++ [e] } e) from hfd)]
        split <;> rfl
      · refine iff_of_false ?_ fun h => hfd (h rfl)
        rw [if_neg (show ¬ ValidFd (State.fd { s with deleted := s.deleted ++ [e] } e) from hfd)]
        exact Bool.false_ne_true
  | timerAdd e tv now =>
    cases tv with
    | none =>
      refine iff_of_true rfl fun i hi => ?_
      cases hi
    | some i =>
      set u := s.setEv e { s.ev (.event e) with fd := -1, timeout := now.add i } with hu
      have hsearch (a : Addr) : u.search (now.add i) (s.events + 2) (s.links.next .timerList) =
          some a ↔ u.SearchEnds (now.add i) a :=
        State.search_eq_some_iff (s := u)
      have hadd (a : Addr) : (u.addToList e a).isSome ↔ (s.links.prev a).isSome := by
        rw [State.addToList, insertBefore, Option.isSome_map, Option.isSome_map]
        rfl
      change ((u.search (now.add i) (s.events + 2) (s.links.next .timerList)).bind
        (u.addToList e)).isSome ↔ _
      rw [Option.isSome_bind, Option.any_eq_true]
      simp only [hsearch, hadd, Call.Returns]
      refine ⟨fun h j hj => ?_, fun h => h i rfl⟩
      obtain rfl := Option.mem_some.mp hj
      exact h

theorem Step.step_isSome_iff (x : Step) (s : State) : (x.step s).isSome ↔ x.Returns s := by
  cases x with
  | turn e => exact iff_of_true rfl trivial
  | call c => exact c.step_isSome_iff s

/-! ### A pass that is lost -/

/-- The pass is at `w`, from where no link leads back to `pending_list`. -/
def Lost (s : State) (w : Option Addr) : Prop :=
  ∃ S : Set Addr, .pendingList ∈ S ∧ .timerList ∉ S ∧ s.links.Closed S ∧ ∀ z, w = some z → z ∉ S

theorem Lost.call {w : Option Addr} (h : Lost s w) (hc : c.step s = some t) : Lost t w := by
  obtain ⟨S, hpending, htimer, hclosed, hw⟩ := h
  have hshrink (e : ℕ) : ∀ y ∉ S \ {.event e}, y ≠ .event e → ∀ z, s.links.next y = some z →
      z ∉ S \ {.event e} := by
    intro y hy hye z hz hzS
    exact hclosed y (fun hyS => hy ⟨hyS, hye⟩) z hz hzS.1
  have hlost {e : ℕ} (ht : t.links.Closed (S \ {.event e})) : Lost t w :=
    ⟨S \ {.event e}, ⟨hpending, fun h => nomatch h⟩, fun h => htimer h.1, ht,
      fun z hz hzS => hw z hz hzS.1⟩
  cases c with
  | set e fd persist func =>
    obtain rfl := Option.some.inj hc
    exact hlost (e := e) (closed_clear (hshrink e))
  | add e => exact ⟨S, hpending, htimer, (State.eventAdd_links hc).1.symm ▸ hclosed, hw⟩
  | del e => exact ⟨S, hpending, htimer, (State.eventDel_links hc).1.symm ▸ hclosed, hw⟩
  | timerAdd e tv now =>
    rcases State.timerAdd_links hc with ⟨-, rfl⟩ | ⟨-, ⟨a, hlink, ha⟩, -⟩
    · exact ⟨S, hpending, htimer, hclosed, hw⟩
    · exact hlost (closed_insertBefore (hshrink e) (fun h => ha S hclosed htimer h.1)
        (fun h => h.2 rfl) hlink)

theorem Lost.calls {w : Option Addr} (h : Lost s w) (hrun : Machine.run Call.step cs s = some t) :
    Lost t w :=
  Machine.run_inv (I := fun s => Lost s w) (fun _ _ _ h hc => h.call hc) h hrun

/-- A pass that has left the list never ends. -/
theorem fireFrom_lost {w : Option Addr} (fuel : ℕ) (h : Lost s w) :
    fireFrom script fuel k w s = none := by
  induction fuel generalizing k w s with
  | zero => rfl
  | succ fuel ih =>
    cases w with
    | none => rfl
    | some a =>
      obtain ⟨S, hpending, htimer, hclosed, hw⟩ := h
      have haS : a ∉ S := hw a rfl
      have ha : a ≠ .pendingList := fun h => haS (h ▸ hpending)
      have hturn : Lost (s.turn a) (s.links.next a) :=
        ⟨S, hpending, htimer, hclosed.unlink haS, hclosed a haS⟩
      rw [fireFrom, if_neg ha]
      cases hrun : Machine.run Call.step (if (s.ev a).func then script k else []) (s.turn a) with
      | none => rfl
      | some t => exact ih (hturn.calls hrun)

/-! ### A pass that stays in the list -/

theorem PendingList.head (h : PendingList s pending) :
    s.links.next .pendingList = some ((pending.map .event).headD .pendingList) :=
  h.ring.next_eq

theorem PendingList.turn (h : PendingList s (e :: rest)) :
    PendingList (s.turn (.event e)) rest ∧
      s.links.next (.event e) = (s.turn (.event e)).links.next .pendingList := by
  have hring : (s.turn (.event e)).links.Ring .pendingList (rest.map .event) := h.ring.unlink_head
  exact ⟨⟨hring, h.ring.apart_unlink_head h.apart⟩, h.ring.next_head.trans hring.next_eq.symm⟩

/-- What a call leaves alone, and that it notes a deletion. -/
structure Left (pending : List ℕ) (deleted : List ℕ) (s t : State) : Prop where
  list : PendingList t pending
  func : ∀ e ∈ pending, t.func e = s.func e
  turns : t.turns = s.turns
  deleted : t.deleted = s.deleted ++ deleted

theorem PendingList.call (h : PendingList s pending) (hspares : c.Spares pending)
    (hc : c.step s = some t) : Left pending c.deletes s t := by
  have hframe {e : ℕ} (he : e ∉ pending) (v : Event) : ∀ f ∈ pending,
      (Function.update s.ev (.event e) v (.event f)).func = (s.ev (.event f)).func := by
    intro f hf
    have hne : Addr.event f ≠ .event e := fun h => he (Addr.event.inj h ▸ hf)
    rw [Function.update_of_ne hne]
  cases c with
  | set e fd persist func =>
    obtain rfl := Option.some.inj hc
    obtain ⟨hapart, hlinks⟩ := h.apart.clear (not_mem_inList hspares)
    exact ⟨⟨h.ring.congr (fun z hz => (hlinks z hz).1) fun z hz => (hlinks z hz).2, hapart⟩,
      hframe hspares _, rfl, (List.append_nil _).symm⟩
  | add e =>
    obtain ⟨hlinks, hfunc, hturns, hdeleted⟩ := State.eventAdd_links hc
    exact ⟨⟨hlinks ▸ h.ring, hlinks ▸ h.apart⟩, fun f _ => hfunc _, hturns,
      hdeleted.trans (List.append_nil _).symm⟩
  | del e =>
    obtain ⟨hlinks, hfunc, hturns, hdeleted⟩ := State.eventDel_links hc
    exact ⟨⟨hlinks ▸ h.ring, hlinks ▸ h.apart⟩, fun f _ => hfunc _, hturns, hdeleted⟩
  | timerAdd e tv now =>
    rcases State.timerAdd_links hc with ⟨-, rfl⟩ | ⟨htv, ⟨a, hlink, ha⟩, hfunc, hturns, hdeleted⟩
    · exact ⟨h, fun _ _ => rfl, rfl, (List.append_nil _).symm⟩
    · have he : e ∉ pending := hspares.resolve_left htv
      obtain ⟨hapart, hlinks⟩ := h.apart.insertBefore (ha _ h.apart.1 timerList_not_mem)
        (not_mem_inList he) hlink
      have hne : ∀ f ∈ pending, Addr.event f ≠ .event e := fun f hf h => he (Addr.event.inj h ▸ hf)
      exact ⟨⟨h.ring.congr (fun z hz => (hlinks z hz).1) fun z hz => (hlinks z hz).2, hapart⟩,
        fun f hf => hfunc _ (hne f hf), hturns, hdeleted.trans (List.append_nil _).symm⟩

/-- Up to a pending event `e`, no link leads to the events behind it but its own. -/
theorem PendingList.behind {r₁ r₂ : List ℕ} (h : PendingList s (r₁ ++ e :: r₂)) :
    (∀ y ∉ inList r₂, y ≠ .event e → ∀ z, s.links.next y = some z → z ∉ inList r₂) ∧
      .event e ∉ inList r₂ ∧ ∀ z, s.links.next .pendingList = some z → z ∉ inList r₂ := by
  have hpath := h.ring.path
  have hnodup := h.ring.nodup
  rw [List.map_append, List.map_cons] at hpath hnodup
  -- the nodes before `e`, and `e` itself, are not among those behind it
  have hfront : ∀ z ∈ r₁.map Addr.event ++ [.event e], z ∉ inList r₂ := by
    intro z hz hzr
    have hsplit :
        (Addr.pendingList :: ((r₁.map Addr.event ++ [.event e]) ++ r₂.map .event)).Nodup := by
      simpa using hnodup
    rcases List.mem_cons.mp hzr with rfl | hzr
    · exact (List.nodup_cons.mp hsplit).1 (List.mem_append_left _ hz)
    · exact (List.nodup_append.mp (List.nodup_cons.mp hsplit).2).2.2 z hz z hzr rfl
  have hnext : ∀ y ∈ Addr.pendingList :: r₁.map .event, ∀ z, s.links.next y = some z →
      z ∉ inList r₂ := by
    intro y hy z hz
    obtain ⟨w, hw, hyw⟩ := (path_append_cons.mp hpath).1.exists_next hy
    exact Option.some.inj (hyw.symm.trans hz) ▸ hfront w hw
  refine ⟨fun y hy hye z hz => ?_, hfront _ (by simp), hnext _ List.mem_cons_self⟩
  by_cases hyp : y ∈ inList (r₁ ++ e :: r₂)
  · refine hnext y ?_ z hz
    simp only [inList, Set.mem_ofPred_eq, List.mem_cons, List.map_append, List.map_cons,
      List.mem_append, not_or] at hyp hy ⊢
    tauto
  · intro hzr
    refine h.apart.1 y hyp z hz ?_
    simp only [inList, Set.mem_ofPred_eq, List.mem_cons, List.map_append, List.map_cons,
      List.mem_append] at hzr ⊢
    tauto

/-- A call that does not spare the pending events loses the pass. -/
theorem PendingList.lost (h : PendingList s pending) (hspares : ¬ c.Spares pending)
    (hc : c.step s = some t) : Lost t (s.links.next .pendingList) := by
  cases c with
  | set e fd persist func =>
    obtain ⟨r₁, r₂, rfl⟩ := List.append_of_mem (not_not.mp hspares)
    obtain ⟨hclosed, -, hhead⟩ := h.behind
    obtain rfl := Option.some.inj hc
    exact ⟨inList r₂, List.mem_cons_self, timerList_not_mem, closed_clear hclosed, hhead⟩
  | add e => exact absurd trivial hspares
  | del e => exact absurd trivial hspares
  | timerAdd e tv now =>
    obtain ⟨htv, he⟩ := not_or.mp hspares
    obtain ⟨r₁, r₂, rfl⟩ := List.append_of_mem (not_not.mp he)
    obtain ⟨hclosed, hself, hhead⟩ := h.behind
    rcases State.timerAdd_links hc with ⟨hnone, -⟩ | ⟨-, ⟨a, hlink, ha⟩, -⟩
    · exact absurd hnone htv
    · have haout : a ∉ inList r₂ := fun har => by
        refine ha _ h.apart.1 timerList_not_mem ?_
        simp only [inList, Set.mem_ofPred_eq, List.mem_cons, List.map_append, List.map_cons,
          List.mem_append] at har ⊢
        tauto
      exact ⟨inList r₂, List.mem_cons_self, timerList_not_mem,
        closed_insertBefore hclosed haout hself hlink, hhead⟩

theorem PendingList.calls (h : PendingList s pending) (hspares : ∀ c ∈ cs, c.Spares pending)
    (hrun : Machine.run Call.step cs s = some t) :
    Left pending (cs.flatMap Call.deletes) s t := by
  induction cs generalizing s with
  | nil =>
    obtain rfl := Option.some.inj hrun
    exact ⟨h, fun _ _ => rfl, rfl, (List.append_nil _).symm⟩
  | cons c cs ih =>
    obtain ⟨u, hu, ht⟩ := Option.bind_eq_some_iff.mp hrun
    have hfirst := h.call (hspares c List.mem_cons_self) hu
    have hrest := ih hfirst.list (fun c' hc' => hspares c' (List.mem_cons_of_mem _ hc')) ht
    refine ⟨hrest.list, fun e he => (hrest.func e he).trans (hfirst.func e he),
      hrest.turns.trans hfirst.turns, ?_⟩
    rw [hrest.deleted, hfirst.deleted, List.flatMap_cons, List.append_assoc]

theorem PendingList.lost_of_calls (h : PendingList s pending)
    (hspares : ¬ ∀ c ∈ cs, c.Spares pending) (hrun : Machine.run Call.step cs s = some t) :
    Lost t (s.links.next .pendingList) := by
  induction cs generalizing s with
  | nil => exact absurd (fun c hc => nomatch hc) hspares
  | cons c cs ih =>
    obtain ⟨u, hu, ht⟩ := Option.bind_eq_some_iff.mp hrun
    by_cases hc : c.Spares pending
    · have hfirst := (h.call hc hu).list
      rw [h.head, ← hfirst.head]
      refine ih hfirst (fun hall => hspares fun c' hc' => ?_) ht
      rcases List.mem_cons.mp hc' with rfl | hc'
      · exact hc
      · exact hall c' hc'
    · exact (h.lost hc hu).calls ht

/-! ### The pass -/

/-- Over the ways to cut a nonempty list in three. -/
theorem forall_split_cons {α : Type*} {x : α} {xs : List α} {P : List α → α → List α → Prop} :
    (∀ pre y post, x :: xs = pre ++ y :: post → P pre y post) ↔
      P [] x xs ∧ ∀ pre y post, xs = pre ++ y :: post → P (x :: pre) y post := by
  constructor
  · exact fun h => ⟨h [] x xs rfl, fun pre y post hs => h (x :: pre) y post (by rw [hs]; rfl)⟩
  · rintro ⟨hhead, htail⟩ pre y post hs
    cases pre with
    | nil =>
      obtain ⟨rfl, rfl⟩ := List.cons_eq_cons.mp hs
      exact hhead
    | cons z pre =>
      obtain ⟨rfl, rfl⟩ := List.cons_eq_cons.mp hs
      exact htail pre y post rfl

theorem turn_func (hfunc : ∀ f ∈ e :: rest, s.func f = func f) :
    (if (s.ev (.event e)).func then script k else []) = callsAt func script k e := by
  change (if s.func e then script k else []) = callsAt func script k e
  rw [hfunc e List.mem_cons_self]
  rfl

theorem run_schedule_cons (s : State) (e : ℕ) (rest : List ℕ) :
    Machine.run Step.step (schedule func script k (e :: rest)) s =
      (Machine.run Call.step (callsAt func script k e) (s.turn (.event e))).bind
        (Machine.run Step.step (schedule func script (k + 1) rest)) := by
  rw [schedule, Machine.run, Step.step, Option.bind_some, Machine.run_append]
  congr 1
  generalize s.turn (.event e) = u
  induction callsAt func script k e generalizing u with
  | nil => rfl
  | cons c cs ih =>
    rw [List.map_cons, Machine.run, Machine.run]
    exact congrArg _ (funext ih)

/-- **The passes that end** are those in which no callback touches what is still pending, and then
they are the turns and their calls one after the other. -/
theorem fireFrom_iff {Q : State → Prop} (h : PendingList s pending)
    (hfunc : ∀ f ∈ pending, s.func f = func f) :
    (∃ fuel t, fireFrom script fuel k (s.links.next .pendingList) s = some t ∧ Q t) ↔
      (∀ pre e post, pending = pre ++ e :: post →
        ∀ c ∈ callsAt func script (k + pre.length) e, c.Spares post) ∧
      ∃ t, Machine.run Step.step (schedule func script k pending) s = some t ∧ Q t := by
  induction pending generalizing k s with
  | nil =>
    have hspares : ∀ pre e post, ([] : List ℕ) = pre ++ e :: post →
        ∀ c ∈ callsAt func script (k + pre.length) e, c.Spares post :=
      fun pre e post hs => absurd hs.symm (by simp)
    rw [h.head, and_iff_right hspares]
    constructor
    · rintro ⟨fuel, t, ht, hQ⟩
      cases fuel with
      | zero => cases ht
      | succ fuel => exact ⟨t, ht, hQ⟩
    · rintro ⟨t, ht, hQ⟩
      exact ⟨1, t, ht, hQ⟩
  | cons e rest ih =>
    obtain ⟨hturn, hnext⟩ := h.turn
    have hturnfunc : ∀ f ∈ rest, (s.turn (.event e)).func f = func f :=
      fun f hf => hfunc f (List.mem_cons_of_mem _ hf)
    have hround (fuel : ℕ) : fireFrom script (fuel + 1) k (s.links.next .pendingList) s =
        (Machine.run Call.step (callsAt func script k e) (s.turn (.event e))).bind
          (fireFrom script fuel (k + 1) ((s.turn (.event e)).links.next .pendingList)) := by
      rw [h.head, ← hnext]
      exact congrArg (fun cs => (Machine.run Call.step cs _).bind _) (turn_func hfunc)
    have hsplit := @forall_split_cons ℕ e rest
      (fun pre y post => ∀ c ∈ callsAt func script (k + pre.length) y, c.Spares post)
    rw [hsplit, run_schedule_cons]
    simp only [List.length_nil, Nat.add_zero, List.length_cons, ← Nat.add_assoc,
      Nat.add_right_comm k _ 1]
    cases hrun : Machine.run Call.step (callsAt func script k e) (s.turn (.event e)) with
    | none =>
      refine iff_of_false ?_ fun ⟨_, t, ht, _⟩ => nomatch ht
      rintro ⟨fuel, t, ht, -⟩
      cases fuel with
      | zero => cases ht
      | succ fuel =>
        rw [hround, hrun] at ht
        cases ht
    | some u =>
      by_cases hspares : ∀ c ∈ callsAt func script k e, c.Spares rest
      · have hleft := hturn.calls hspares hrun
        have hih := ih (k := k + 1) hleft.list fun f hf => (hleft.func f hf).trans (hturnfunc f hf)
        rw [and_iff_right hspares, Option.bind_some, ← hih, hleft.list.head, ← hturn.head]
        constructor
        · rintro ⟨fuel, t, ht, hQ⟩
          cases fuel with
          | zero => cases ht
          | succ fuel =>
            rw [hround, hrun] at ht
            exact ⟨fuel, t, ht, hQ⟩
        · rintro ⟨fuel, t, ht, hQ⟩
          exact ⟨fuel + 1, t, by rw [hround, hrun]; exact ht, hQ⟩
      · refine iff_of_false ?_ fun hall => hspares hall.1.1
        rintro ⟨fuel, t, ht, -⟩
        cases fuel with
        | zero => cases ht
        | succ fuel =>
          rw [hround, hrun, Option.bind_some,
            fireFrom_lost fuel (hturn.lost_of_calls hspares hrun)] at ht
          cases ht

/-- What the turns and their calls leave. -/
theorem PendingList.schedule (h : PendingList s pending)
    (hfunc : ∀ f ∈ pending, s.func f = func f)
    (hspares : ∀ pre e post, pending = pre ++ e :: post →
      ∀ c ∈ callsAt func script (k + pre.length) e, c.Spares post)
    (hrun : Machine.run Step.step (schedule func script k pending) s = some t) :
    PendingList t [] ∧ ∃ turns, t.turns = s.turns ++ turns ∧
      turns.map Turn.ev = pending.map .event ∧
      ((∀ x ∈ turns, x.called = !x.deleted) ↔ ∀ pre e post, pending = pre ++ e :: post →
        (func e = true ↔ e ∉ s.deleted ++ deletions func script k pre)) := by
  induction pending generalizing k s with
  | nil =>
    obtain rfl := Option.some.inj hrun
    refine ⟨h, [], (List.append_nil _).symm, rfl, iff_of_true (fun x hx => nomatch hx) ?_⟩
    exact fun pre e post hs => absurd hs.symm (by simp)
  | cons e rest ih =>
    rw [run_schedule_cons] at hrun
    obtain ⟨u, hu, ht⟩ := Option.bind_eq_some_iff.mp hrun
    obtain ⟨hhead, htail⟩ := forall_split_cons.mp hspares
    have hleft := h.turn.1.calls hhead hu
    have hrest : ∀ f ∈ rest, u.func f = func f := fun f hf =>
      (hleft.func f hf).trans (hfunc f (List.mem_cons_of_mem _ hf))
    obtain ⟨hempty, turns, hturns, hev, hcalled⟩ := ih hleft.list hrest
      (fun pre f post hs => by
        have := htail pre f post hs
        rwa [List.length_cons, ← Nat.add_assoc, Nat.add_right_comm] at this) ht
    refine ⟨hempty, ⟨.event e, s.func e, s.isDeleted (.event e)⟩ :: turns, ?_, ?_, ?_⟩
    · rw [hturns, hleft.turns, State.turn, List.append_assoc]
      rfl
    · rw [List.map_cons, hev, List.map_cons]
    · have hself : (s.func e = !s.isDeleted (.event e)) ↔
          (func e = true ↔ e ∉ s.deleted ++ deletions func script k []) := by
        rw [hfunc e List.mem_cons_self, deletions, List.append_nil]
        simp only [State.isDeleted]
        by_cases hd : e ∈ s.deleted <;> simp [hd]
      rw [List.forall_mem_cons, forall_split_cons, hcalled, hleft.deleted]
      simp only [hself, deletions, List.append_assoc]
      exact Iff.rfl

/-- **A pass is right** (it ends, every pending event has had one turn and was called in it unless
it was deleted before, and the list is empty) if and only if the callbacks are orderly and every call
that they make, in the state in which they make it, is one that returns. -/
theorem firePending_iff (h : PendingList s pending) (script : ℕ → List Call) :
    (∃ fuel t, firePending script fuel s = some t ∧ Dispatched pending t) ↔
      Orderly s.func script pending ∧ Machine.Meets Step.step (fun _ u x => x.Returns u) []
        (schedule s.func script 0 pending) s.fresh := by
  have hfresh : PendingList s.fresh pending := ⟨h.ring, h.apart⟩
  rw [← Machine.run_isSome_iff Step.step_isSome_iff]
  refine (fireFrom_iff (k := 0) hfresh fun f _ => rfl).trans ?_
  simp only [Nat.zero_add]
  constructor
  · rintro ⟨hspares, t, ht, hd⟩
    obtain ⟨-, turns, hturns, -, hcalled⟩ := hfresh.schedule (fun f _ => rfl)
      (fun pre e post hs => by rw [Nat.zero_add]; exact hspares pre e post hs) ht
    rw [State.fresh, List.nil_append] at hturns
    exact ⟨⟨hspares, hcalled.mp (hturns ▸ hd.called)⟩, Option.isSome_iff_exists.mpr ⟨t, ht⟩⟩
  · rintro ⟨horderly, hsome⟩
    obtain ⟨t, ht⟩ := Option.isSome_iff_exists.mp hsome
    obtain ⟨hempty, turns, hturns, hev, hcalled⟩ := hfresh.schedule (fun f _ => rfl)
      (fun pre e post hs => by rw [Nat.zero_add]; exact horderly.spares pre e post hs) ht
    rw [State.fresh, List.nil_append] at hturns
    exact ⟨horderly.spares, t, ht, hturns ▸ hev, hturns ▸ hcalled.mpr horderly.deletes, hempty.ring⟩

/-- The events 0 and 1 are pending. -/
def twoPending : State :=
  { State.init 2 fun e => ⟨e + 5, e, true, ⟨0, 0⟩, true⟩ with
    links :=
      { next := fun
          | .timerList => some .timerList
          | .pendingList => some (.event 0)
          | .event 0 => some (.event 1)
          | .event 1 => some .pendingList
          | _ => none
        prev := fun
          | .timerList => some .timerList
          | .pendingList => some (.event 1)
          | .event 0 => some .pendingList
          | .event 1 => some (.event 0)
          | _ => none } }

theorem twoPending_list : PendingList twoPending [0, 1] := by
  have hapart (f : Addr → Option Addr) (htimer : f .timerList = some .timerList)
      (hevent : ∀ n, f (.event (n + 2)) = none) : ∀ y ∉ inList [0, 1], ∀ z, f y = some z →
        z ∉ inList [0, 1] := by
    intro y hy z hz
    match y with
    | .timerList => exact Option.some.inj (htimer.symm.trans hz) ▸ timerList_not_mem
    | .pendingList => exact absurd List.mem_cons_self hy
    | .event 0 => exact absurd (by simp [inList]) hy
    | .event 1 => exact absurd (by simp [inList]) hy
    | .event (n + 2) => exact nomatch (hevent n).symm.trans hz
  exact ⟨⟨by decide, ⟨rfl, rfl⟩, ⟨rfl, rfl⟩, rfl, rfl⟩,
    hapart _ rfl fun _ => rfl, hapart _ rfl fun _ => rfl⟩

/-- The callback of the first event sets the event itself anew and starts a timer with it. -/
theorem firePending_two : ∃ fuel t,
    firePending
      (fun k => if k = 0 then [.set 0 (-1) false true, .timerAdd 0 (some ⟨1, 0⟩) ⟨5, 0⟩] else [])
        fuel twoPending = some t ∧ Dispatched [0, 1] t := by
  have hruns : (Machine.run Step.step (schedule twoPending.func (fun k => if k = 0 then
      [.set 0 (-1) false true, .timerAdd 0 (some ⟨1, 0⟩) ⟨5, 0⟩] else []) 0 [0, 1])
      twoPending.fresh).isSome := by
    decide +kernel
  refine (firePending_iff twoPending_list _).mpr
    ⟨⟨?_, ?_⟩, (Machine.run_isSome_iff Step.step_isSome_iff).mp hruns⟩
  · refine forall_split_cons.mpr ⟨by decide, forall_split_cons.mpr ⟨by decide, ?_⟩⟩
    exact fun pre e post hs => absurd hs.symm (by simp)
  · refine forall_split_cons.mpr ⟨by decide, forall_split_cons.mpr ⟨by decide, ?_⟩⟩
    exact fun pre e post hs => absurd hs.symm (by simp)

/-- The callback of the first event deletes the second one, sets it anew and adds it. -/
theorem firePending_set : ¬ ∃ fuel t,
    firePending (fun k => if k = 0 then [.del 1, .set 1 7 true true, .add 1] else []) fuel twoPending =
      some t ∧ Dispatched [0, 1] t := by
  intro h
  have hfresh : PendingList twoPending.fresh [0, 1] := ⟨twoPending_list.ring, twoPending_list.apart⟩
  have hspares := ((fireFrom_iff hfresh fun f _ => rfl).mp h).1 [] 0 [1] rfl
    (.set 1 7 true true) (by decide)
  exact hspares (by simp)

end AndroidVendor.Ratd.McwillEvent
