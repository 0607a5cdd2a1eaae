import AndroidVendor.Lib.TimerQueue
import AndroidVendor.Ratd.McwillEvent

/-!
# The timer list

`mcwill_timer_add` walks along the timer list to the first timer that is not due before the new
one, `processTimeouts` takes timers from the front of the list to the end of the pending list, and
`firePending` takes them from there. The lists are a queue of timers: `Holds` says which, and each
operation of the library does to the lists what the operation of the queue does.

## Main results

* `State.search_eq`: where the walk ends.
* `Holds.timerAdd`, `Holds.processTimeouts`, `Holds.fire`: the operations.
* `timers_run`: every run, with no timer lost and none in two places.
-/

namespace AndroidVendor.Ratd

/-- In microseconds. -/
def Timeval.micros (t : Timeval) : ℤ := t.sec * 1000000 + t.usec

/-- `tv_usec` is less than a second. -/
def Timeval.Normal (t : Timeval) : Prop := 0 ≤ t.usec ∧ t.usec < 1000000

instance (t : Timeval) : Decidable t.Normal := inferInstanceAs (Decidable (_ ∧ _))

theorem Timeval.lt_iff {a b : Timeval} (ha : a.Normal) (hb : b.Normal) :
    a.lt b = decide (a.micros < b.micros) := by
  obtain ⟨ha0, ha1⟩ := ha
  obtain ⟨hb0, hb1⟩ := hb
  rw [Timeval.lt, micros, micros]
  split <;> exact decide_eq_decide.mpr (by omega)

theorem Timeval.add_normal {a b : Timeval} (ha : a.Normal) (hb : b.Normal) :
    (a.add b).Normal ∧ (a.add b).micros = a.micros + b.micros := by
  obtain ⟨ha0, ha1⟩ := ha
  obtain ⟨hb0, hb1⟩ := hb
  rw [Timeval.add]
  split <;> simp only [Normal, micros] <;> omega

namespace McwillEvent

open LinkedRing LinkedRing.Links

/-! ### Operations -/

/-- What happens to the timers: one is added, the timers are processed at a time, or the first
pending event is taken from its list and called. -/
inductive TimerOp
  | timerAdd (e : ℕ) (tv : Option Timeval) (now : Timeval)
  | processTimeouts (now : Timeval)
  | fire
  deriving DecidableEq, Repr

/-- What `firePending` does with the first pending event before it calls it. -/
def State.fire (s : State) : Option State :=
  (s.links.next .pendingList).map fun a => if a = .pendingList then s else s.turn a

def TimerOp.step : TimerOp → State → Option State
  | .timerAdd e tv now, s => s.timerAdd e tv now
  | .processTimeouts now, s => s.processTimeouts now
  | .fire, s => s.fire

/-- The event is linked in no list, and the clock and the interval are normalised. -/
def TimerOp.Fits (s : State) : TimerOp → Prop
  | .timerAdd e tv now =>
    e < s.events ∧ s.links.next (.event e) = none ∧ now.Normal ∧ ∀ i ∈ tv, i.Normal
  | .processTimeouts now => now.Normal
  | .fire => True

instance (s : State) : (op : TimerOp) → Decidable (op.Fits s)
  | .timerAdd .. => inferInstanceAs (Decidable (_ ∧ _ ∧ _ ∧ _))
  | .processTimeouts _ => inferInstanceAs (Decidable (Timeval.Normal _))
  | .fire => isTrue trivial

/-- The operation on a queue of timers; a timer is due at the time of the clock and its interval
together. -/
def TimerOp.queueOps : TimerOp → List (TimerQueue.Op ℕ ℤ)
  | .timerAdd e (some i) now => [.start (e, now.micros + i.micros)]
  | .timerAdd _ none _ => []
  | .processTimeouts now => [.expire now.micros]
  | .fire => [.fire]

/-- The timers that the operation adds. -/
def TimerOp.adds : TimerOp → List (ℕ × ℤ)
  | .timerAdd e (some i) now => [(e, now.micros + i.micros)]
  | _ => []

/-! ### The lists -/

def State.timeout (s : State) (e : ℕ) : Timeval := (s.ev (.event e)).timeout

/-- The nodes of a list of timers. -/
def nodes (xs : List (ℕ × ℤ)) : List Addr := xs.map fun x => .event x.1

/-- The timer list and the pending list hold the timers of `q`, in this order and each in one place,
and no other event is linked. -/
structure Holds (s : State) (q : TimerQueue ℕ ℤ) : Prop where
  rings : s.links.Rings .timerList (nodes q.waiting) .pendingList (nodes q.pending)
  fired : s.turns.map Turn.ev = nodes q.fired
  bound : ∀ x ∈ q.waiting, x.1 < s.events
  timeout : ∀ x ∈ q.waiting, (s.timeout x.1).Normal ∧ (s.timeout x.1).micros = x.2
  sorted : q.Sorted

variable {s t : State} {q : TimerQueue ℕ ℤ} {e : ℕ} {now i : Timeval} {op : TimerOp}
  {ops : List TimerOp}

@[simp] theorem nodes_nil : nodes [] = [] := rfl

@[simp] theorem nodes_cons (x : ℕ × ℤ) (xs : List (ℕ × ℤ)) :
    nodes (x :: xs) = .event x.1 :: nodes xs := rfl

@[simp] theorem nodes_append (xs ys : List (ℕ × ℤ)) : nodes (xs ++ ys) = nodes xs ++ nodes ys :=
  List.map_append

/-- No two waiting timers are of one event. -/
theorem Holds.nodup (h : Holds s q) : (q.waiting.map Prod.fst).Nodup := by
  have hnodup : (nodes q.waiting).Nodup := (List.nodup_cons.mp h.rings.left.nodup).2
  rw [nodes, ← Function.comp_def Addr.event, ← List.map_map] at hnodup
  exact hnodup.of_map _

/-- There is fuel enough for a walk along the timer list. -/
theorem Holds.length_le (h : Holds s q) : q.waiting.length ≤ s.events := by
  have hsub : q.waiting.map Prod.fst ⊆ List.range s.events := by
    intro e he
    obtain ⟨x, hx, rfl⟩ := List.mem_map.mp he
    exact List.mem_range.mpr (h.bound x hx)
  simpa using (List.subperm_of_subset h.nodup hsub).length_le

/-- Nothing is waiting or pending after `mcwill_event_init`. -/
theorem Holds.init (events : ℕ) (ev : ℕ → Event) : Holds (State.init events ev) {} := by
  refine ⟨⟨⟨by simp, rfl, rfl⟩, ⟨by simp, rfl, rfl⟩, by simp, fun z hz hz' => ?_⟩, rfl, nofun, nofun,
    .nil⟩
  cases z with
  | timerList => exact absurd List.mem_cons_self hz
  | pendingList => exact absurd List.mem_cons_self hz'
  | event e => rfl

/-! ### Adding a timer -/

/-- The search ends at the first timer that is not due before the new one, or at the sentinel. -/
theorem State.search_eq {a : Addr} {xs : List (ℕ × ℤ)} {T : Timeval} {d : ℤ} {fuel : ℕ}
    (h : s.links.Path a (nodes xs) .timerList)
    (hlt : ∀ x ∈ xs, (s.timeout x.1).lt T = decide (x.2 < d)) (hfuel : xs.length < fuel) :
    s.search T fuel (s.links.next a) =
      some ((nodes (xs.dropWhile (·.2 < d))).headD .timerList) := by
  induction xs generalizing a fuel with
  | nil =>
    obtain ⟨n, rfl⟩ := Nat.exists_eq_succ_of_ne_zero (Nat.ne_zero_of_lt hfuel)
    rw [show s.links.next a = some .timerList from h.1]
    simp [State.search]
  | cons x xs ih =>
    obtain ⟨n, rfl⟩ := Nat.exists_eq_succ_of_ne_zero (Nat.ne_zero_of_lt hfuel)
    have hx : (s.ev (.event x.1)).timeout.lt T = decide (x.2 < d) := hlt x List.mem_cons_self
    have hne : Addr.event x.1 ≠ .timerList := nofun
    rw [show s.links.next a = some (.event x.1) from h.1.1, State.search, hx]
    by_cases hd : x.2 < d
    · have hdrop : (x :: xs).dropWhile (·.2 < d) = xs.dropWhile (·.2 < d) := by simp [hd]
      rw [if_pos ⟨decide_eq_true hd, hne⟩, hdrop]
      exact ih h.2 (fun y hy => hlt y (List.mem_cons_of_mem x hy)) (Nat.lt_of_succ_lt_succ hfuel)
    · have hdrop : (x :: xs).dropWhile (·.2 < d) = x :: xs := by simp [hd]
      rw [if_neg fun hand => hd (of_decide_eq_true hand.1), hdrop]
      rfl

/-- The new timer waits in front of those that are due at its time or later. -/
theorem Holds.timerAdd (h : Holds s q) (he : e < s.events)
    (hnext : s.links.next (.event e) = none) (hnow : now.Normal) (hi : i.Normal) :
    ∃ t, s.timerAdd e (some i) now = some t ∧
      Holds t (q.start (e, now.micros + i.micros)) := by
  obtain ⟨hT, hmicros⟩ := Timeval.add_normal hnow hi
  obtain ⟨hewait, hepend⟩ := h.rings.not_mem hnext
  set d := now.micros + i.micros with hd
  set u := s.setEv e { s.ev (.event e) with fd := -1, timeout := now.add i } with hu
  have htimeout : ∀ x ∈ q.waiting, u.timeout x.1 = s.timeout x.1 := by
    intro x hx
    have hne : Addr.event x.1 ≠ .event e := fun heq =>
      hewait (List.mem_cons_of_mem _ (heq ▸ List.mem_map_of_mem hx))
    exact congrArg Event.timeout (Function.update_of_ne hne _ _)
  have hself : u.timeout e = now.add i := by simp [hu, State.timeout, State.setEv]
  have hlt : ∀ x ∈ q.waiting, (u.timeout x.1).lt (now.add i) = decide (x.2 < d) := by
    intro x hx
    obtain ⟨hnormal, hdue⟩ := h.timeout x hx
    rw [htimeout x hx, Timeval.lt_iff hnormal hT, hdue, hmicros]
  have hfuel : q.waiting.length < u.events + 2 := by
    have := h.length_le
    exact Nat.lt_add_right 1 (Nat.lt_succ_of_le this)
  have hsearch := State.search_eq (s := u) h.rings.left.path hlt hfuel
  -- the list, cut where the search ends
  have hcut : nodes q.waiting = nodes (q.waiting.takeWhile (·.2 < d)) ++
      nodes (q.waiting.dropWhile (·.2 < d)) := by
    rw [← nodes_append, List.takeWhile_append_dropWhile]
  obtain ⟨l', hl, hrings⟩ := (hcut ▸ h.rings).insertBefore hnext
  refine ⟨{ u with links := l' }, ?_, ⟨?_, h.fired, fun x hx => ?_, fun x hx => ?_, h.sorted.start _⟩⟩
  · have hadd : u.addToList e ((nodes (q.waiting.dropWhile (·.2 < d))).headD .timerList) =
        some { u with links := l' } := congrArg (Option.map _) hl
    exact (congrArg (·.bind (u.addToList e)) hsearch).trans hadd
  · rw [TimerQueue.start_waiting, nodes_append, nodes_cons]
    exact hrings
  · rcases (List.mem_orderedInsert _).mp hx with rfl | hx
    · exact he
    · exact h.bound x hx
  · rcases (List.mem_orderedInsert _).mp hx with rfl | hx
    · exact ⟨hself ▸ hT, hself ▸ hmicros⟩
    · exact htimeout x hx ▸ h.timeout x hx

/-! ### Processing the timers -/

/-- From the front of the timer list to the end of the pending list. -/
theorem Holds.processFrom {fuel : ℕ} (h : Holds s q) (hnow : now.Normal)
    (hfuel : q.waiting.length < fuel) :
    ∃ t, State.processFrom now fuel (s.links.next .timerList) s = some t ∧
      Holds t (q.expire now.micros) := by
  obtain ⟨waiting, pending, fired⟩ := q
  induction waiting generalizing pending s fuel with
  | nil =>
    obtain ⟨n, rfl⟩ := Nat.exists_eq_succ_of_ne_zero (Nat.ne_zero_of_lt hfuel)
    rw [h.rings.left.next_eq]
    refine ⟨s, by simp [State.processFrom], ?_⟩
    rw [TimerQueue.expire, List.filter_nil, List.filter_nil, List.append_nil]
    exact h
  | cons x xs ih =>
    obtain ⟨n, rfl⟩ := Nat.exists_eq_succ_of_ne_zero (Nat.ne_zero_of_lt hfuel)
    have hne : Addr.event x.1 ≠ .timerList := nofun
    have hlt : (s.ev (.event x.1)).timeout.lt now = decide (x.2 < now.micros) := by
      obtain ⟨hnormal, hdue⟩ := h.timeout x List.mem_cons_self
      rw [← hdue]
      exact Timeval.lt_iff hnormal hnow
    have hhead : s.links.next .timerList = some (.event x.1) := h.rings.left.path.1.1
    rw [hhead, State.processFrom, hlt]
    by_cases hdue : x.2 < now.micros
    · obtain ⟨l', hl, hrings⟩ := h.rings.move_head
      have hnext : s.links.next (.event x.1) = l'.next .timerList :=
        h.rings.left.next_head.trans hrings.left.next_eq.symm
      rw [if_pos ⟨hne, decide_eq_true hdue⟩, hl, Option.bind_some, hnext]
      have hmoved : Holds { s with links := l' } ⟨xs, pending ++ [x], fired⟩ :=
        ⟨by rw [nodes_append]; exact hrings, h.fired,
          fun y hy => h.bound y (List.mem_cons_of_mem x hy),
          fun y hy => h.timeout y (List.mem_cons_of_mem x hy), h.sorted.of_cons⟩
      have hexpire : TimerQueue.expire ⟨xs, pending ++ [x], fired⟩ now.micros =
          TimerQueue.expire ⟨x :: xs, pending, fired⟩ now.micros := by
        simp [TimerQueue.expire, hdue]
      rw [← hexpire]
      exact ih _ hmoved (Nat.lt_of_succ_lt_succ hfuel)
    · obtain ⟨hall, hnone⟩ := TimerQueue.expire_of_le h.sorted (not_lt.mp hdue)
      refine ⟨s, if_neg fun hand => hdue (of_decide_eq_true hand.2), ?_⟩
      rw [TimerQueue.expire, hall, hnone, List.append_nil]
      exact h

theorem Holds.processTimeouts (h : Holds s q) (hnow : now.Normal) :
    ∃ t, s.processTimeouts now = some t ∧ Holds t (q.expire now.micros) :=
  h.processFrom hnow (Nat.lt_add_right 1 (Nat.lt_succ_of_le h.length_le))

/-- The turn of the first pending event. -/
theorem Holds.fire (h : Holds s q) : ∃ t, s.fire = some t ∧ Holds t q.fire := by
  rw [State.fire, h.rings.right.next_eq]
  refine ⟨_, rfl, ?_⟩
  obtain ⟨waiting, pending, fired⟩ := q
  cases pending with
  | nil => exact h
  | cons x xs =>
    refine ⟨h.rings.symm.unlink_head.1.symm, ?_, h.bound, h.timeout, h.sorted⟩
    change (s.turn (.event x.1)).turns.map Turn.ev = nodes (fired ++ [x])
    rw [State.turn, List.map_append, nodes_append, h.fired]
    rfl

/-! ### Runs -/

/-- Each operation does to the lists what its counterpart does to the queue. -/
theorem Holds.step (h : Holds s q) (hfits : op.Fits s) :
    ∃ t, op.step s = some t ∧ Holds t (op.queueOps.foldl TimerQueue.Op.apply q) := by
  cases op with
  | timerAdd e tv now =>
    obtain ⟨he, hnext, hnow, hi⟩ := hfits
    cases tv with
    | none => exact ⟨s, rfl, h⟩
    | some i => exact h.timerAdd he hnext hnow (hi i rfl)
  | processTimeouts now => exact h.processTimeouts hfits
  | fire => exact h.fire

theorem Holds.run (h : Holds s q) {past : List TimerOp}
    (hfits : Machine.Meets TimerOp.step (fun _ s op => op.Fits s) past ops s) :
    ∃ t, Machine.run TimerOp.step ops s = some t ∧
      Holds t ((ops.flatMap TimerOp.queueOps).foldl TimerQueue.Op.apply q) := by
  induction ops generalizing s q past with
  | nil => exact ⟨s, rfl, h⟩
  | cons op ops ih =>
    obtain ⟨u, hu, hheld⟩ := h.step hfits.1
    obtain ⟨t, ht, hend⟩ := ih hheld (hfits.2 u hu)
    refine ⟨t, by rw [Machine.run, hu, Option.bind_some, ht], ?_⟩
    rw [List.flatMap_cons, List.foldl_append]
    exact hend

theorem flatMap_starts : (ops.flatMap TimerOp.queueOps).flatMap TimerQueue.Op.starts =
    ops.flatMap TimerOp.adds := by
  rw [List.flatMap_assoc]
  congr 1
  funext op
  match op with
  | .timerAdd e (some i) now => rfl
  | .timerAdd e none now => rfl
  | .processTimeouts now => rfl
  | .fire => rfl

/-- **Every run of the timers.** The two lists stay circular; the waiting timers are in the order of
their times; the timers that are waiting, pending or fired are those that were added, each once; and
processing takes what is due before the clock from the one list to the end of the other. -/
theorem timers_run {events : ℕ} {ev : ℕ → Event}
    (hfits : Machine.Meets TimerOp.step (fun _ s op => op.Fits s) [] ops (State.init events ev)) :
    ∃ t q, Machine.run TimerOp.step ops (State.init events ev) = some t ∧ Holds t q ∧
      q.waiting.Pairwise (fun x y => x.2 ≤ y.2) ∧
      (q.waiting ++ q.pending ++ q.fired).Perm (ops.flatMap TimerOp.adds) ∧
      ∀ now : Timeval, now.Normal → ∃ t', t.processTimeouts now = some t' ∧ Holds t'
        { q with
          waiting := q.waiting.filter (now.micros ≤ ·.2)
          pending := q.pending ++ q.waiting.filter (·.2 < now.micros) } := by
  obtain ⟨t, ht, hend⟩ := (Holds.init events ev).run hfits
  refine ⟨t, _, ht, hend, (Holds.init events ev).sorted.run _, ?_, fun now hnow => hend.processTimeouts hnow⟩
  rw [← flatMap_starts]
  exact TimerQueue.all_run _

/-- A timer that is started later is due earlier, and is started again when it has fired. -/
theorem timers_run_restart : ∃ t q,
    Machine.run TimerOp.step
      [.timerAdd 0 (some ⟨2, 0⟩) ⟨5, 0⟩, .timerAdd 1 (some ⟨0, 900000⟩) ⟨5, 200000⟩,
        .processTimeouts ⟨6, 500000⟩, .fire, .timerAdd 1 (some ⟨0, 900000⟩) ⟨6, 500000⟩]
      (State.init 2 fun e => ⟨e + 5, e, true, ⟨0, 0⟩, true⟩) = some t ∧ Holds t q ∧
      q.waiting.Pairwise (fun x y => x.2 ≤ y.2) ∧
      (q.waiting ++ q.pending ++ q.fired).Perm [(0, 7000000), (1, 6100000), (1, 7400000)] ∧
      ∀ now : Timeval, now.Normal → ∃ t', t.processTimeouts now = some t' ∧ Holds t'
        { q with
          waiting := q.waiting.filter (now.micros ≤ ·.2)
          pending := q.pending ++ q.waiting.filter (·.2 < now.micros) } :=
  timers_run (by decide +kernel)

end McwillEvent

end AndroidVendor.Ratd
