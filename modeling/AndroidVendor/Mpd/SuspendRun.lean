import AndroidVendor.Mpd.ResendRun
import AndroidVendor.Mpd.Suspend

/-!
# Is a subflow that stalls reported?

The check runs once per tick and compares for equality, so it sees a time-out only if the packet is
the oldest at that very tick. A packet that becomes the oldest later, because the packets before it
were acknowledged late, is never reported.

## Main results

* `PeriodOp.step` — a session and its check, one check per tick
* `suspend_run` — no subflow stalls without a report in a run in which no packet becomes the oldest
  after its time-out
* `suspend_misses` — a run in which one does
-/

namespace AndroidVendor

namespace Mpd

open Machine TxWin UserInfo

/-! ### The session and its check -/

/-- An operation of the session, or the check. -/
inductive PeriodOp
  | session (op : Op)
  | timeoutTxWinSuspend
  deriving DecidableEq

/-- The session, and whether the check of this tick is done. -/
structure Period where
  user : UserInfo
  checked : Bool

/-- Every tick is followed by one check, at any point before the next tick. -/
def PeriodOp.step : PeriodOp → Period → Option Period
  | .session .tick, p => if p.checked then (Op.tick.step p.user).map fun u => ⟨u, false⟩ else none
  | .session op, p => (op.step p.user).map fun u => ⟨u, p.checked⟩
  | .timeoutTxWinSuspend, p =>
    if p.checked then none else some ⟨p.user.timeoutTxWinSuspend, true⟩

/-- An exception is notified for subflow `flowId`. -/
def Action.notifies (flowId : ℕ) : Action → Bool
  | .exception netType _ => netType == flowId
  | _ => false

/-- The observer: whether an exception was notified for the subflow of a packet since the packet
came into the window. -/
def Period.note (p q : Period) (told : ℕ → ℕ → Bool) : ℕ → ℕ → Bool := fun f i =>
  decide (((q.user.txWindow f).dataNode i).pData = ((p.user.txWindow f).dataNode i).pData) &&
    (told f i || (p.user.asked q.user).any (·.notifies f))

/-- The session with its check and its observer. -/
def reported : PeriodOp → Period × (ℕ → ℕ → Bool) → Option (Period × (ℕ → ℕ → Bool)) :=
  observe PeriodOp.step fun _ => Period.note

section Stalled

variable {s t : Period × (ℕ → ℕ → Bool)} {op : PeriodOp} {f i : ℕ}

/-- Subflow `f` is active, and its oldest packet was sent more than 500 ticks ago, without an
exception for the subflow since. -/
def Stalled (s : Period × (ℕ → ℕ → Bool)) (f : ℕ) : Prop :=
  schdGetFlowValid s.1.user f = true ∧ (s.1.user.txWindow f).beginNode.pData ≠ none ∧
    (s.1.user.txWindow f).beginNode.t1 + 500 < s.1.user.time ∧
    s.2 f (s.1.user.txWindow f).pTxBegin = false

instance (s : Period × (ℕ → ℕ → Bool)) (f : ℕ) : Decidable (Stalled s f) :=
  inferInstanceAs (Decidable (_ ∧ _ ∧ _ ∧ _))

/-- A check that will come finds the packet in node `i` of `f` before its time-out or at it, if an
exception has not been notified yet. -/
def InView (s : Period × (ℕ → ℕ → Bool)) (f i : ℕ) : Prop :=
  ((s.1.user.txWindow f).dataNode i).pData = none ∨ s.2 f i = true ∨
    s.1.user.time + (if s.1.checked then 1 else 0) ≤ ((s.1.user.txWindow f).dataNode i).t1 + 500

instance (s : Period × (ℕ → ℕ → Bool)) (f i : ℕ) : Decidable (InView s f i) :=
  inferInstanceAs (Decidable (_ ∨ _ ∨ _))

/-- The clock does not start anew, and a packet that becomes the oldest is one that a check will
still find. -/
def PeriodOp.Punctual (s : Period × (ℕ → ℕ → Bool)) : PeriodOp → Prop
  | .session .tick => s.1.user.time + 1 < 4294967296
  | .session op => ∀ p ∈ op.promoted s.1.user, InView s p.1 p.2
  | .timeoutTxWinSuspend => True

theorem step_session {o : Op} (hop : o ≠ .tick) (p : Period) :
    (PeriodOp.session o).step p = (o.step p.user).map fun u => ⟨u, p.checked⟩ := by
  cases o with
  | tick => exact absurd rfl hop
  | _ => rfl

theorem punctual_session {o : Op} (hop : o ≠ .tick) :
    (PeriodOp.session o).Punctual s ↔ ∀ p ∈ o.promoted s.1.user, InView s p.1 p.2 := by
  cases o with
  | tick => exact absurd rfl hop
  | _ => exact Iff.rfl

theorem note_eq_true {p q : Period} {told : ℕ → ℕ → Bool} : p.note q told f i = true ↔
    ((q.user.txWindow f).dataNode i).pData = ((p.user.txWindow f).dataNode i).pData ∧
      (told f i = true ∨ ∃ a ∈ p.user.asked q.user, a.notifies f = true) := by
  rw [Period.note, Bool.and_eq_true, decide_eq_true_iff, Bool.or_eq_true, List.any_eq_true]

instance (s : Period × (ℕ → ℕ → Bool)) (op : PeriodOp) : Decidable (op.Punctual s) :=
  match op with
  | .session o =>
    if h : o = .tick then
      decidable_of_iff (s.1.user.time + 1 < 4294967296) (by rw [h]; exact Iff.rfl)
    else decidable_of_iff _ (punctual_session h).symm
  | .timeoutTxWinSuspend => isTrue trivial

/-! ### The invariant -/

/-- Every time-out is 500 ticks after its packet was sent. -/
def Dated (_ : ℕ) (d : DataNode) : Prop := d.pData ≠ none → d.toDataAck = u32 (d.t1 + 500)

theorem dated_nodeInv : NodeInv Dated where
  none _ _ hnone hsome := absurd hnone hsome
  mark _ _ _ _ h := h
  put _ _ _ _ _ _ _ _ := rfl

/-- A check will find the oldest packet of every active subflow. -/
structure Attended (s : Period × (ℕ → ℕ → Bool)) : Prop where
  nodes : TxOk s.1.user ∧ AllNodes Dated s.1.user
  time_lt : s.1.user.time < 4294967296
  oldest : ∀ f < 3, schdGetFlowValid s.1.user f = true → InView s f (s.1.user.txWindow f).pTxBegin

theorem Attended.not_stalled (h : Attended s) (hf : f < 3) : ¬ Stalled s f := by
  rintro ⟨hvalid, hsome, hlate, htold⟩
  rcases h.oldest f hf hvalid with hnone | htold' | hdue
  · exact hsome hnone
  · exact Bool.false_ne_true (htold.symm.trans htold')
  · rw [beginNode] at hlate
    omega

/-- A packet that stays in its node stays in view. -/
theorem InView.keep (h : InView s f i)
    (hkeeps : ((s.1.user.txWindow f).dataNode i).Keeps ((t.1.user.txWindow f).dataNode i))
    (htime : t.1.user.time + (if t.1.checked then 1 else 0) ≤
      s.1.user.time + (if s.1.checked then 1 else 0))
    (hnote : t.2 = s.1.note t.1 s.2) : InView t f i := by
  by_cases hsome : ((t.1.user.txWindow f).dataNode i).pData = none
  · exact .inl hsome
  have hdata := hkeeps.pData hsome
  rcases h with hnone | htold | hdue
  · exact absurd (hdata.trans hnone) hsome
  · right
    left
    rw [hnote, note_eq_true]
    exact ⟨hdata, .inl htold⟩
  · right
    right
    rw [hkeeps.t1 hsome]
    exact htime.trans hdue

theorem Attended.session {o : Op} {v : UserInfo} (h : Attended s) (hop : o ≠ .tick)
    (hview : ∀ p ∈ o.promoted s.1.user, InView s p.1 p.2) (hs : o.step s.1.user = some v) :
    Attended (⟨v, s.1.checked⟩, s.1.note ⟨v, s.1.checked⟩ s.2) := by
  have htime := step_time h.nodes.1 hop hs
  refine ⟨dated_nodeInv.kept.step h.nodes hs, htime.trans_lt h.time_lt, fun f hf hvalid => ?_⟩
  dsimp only at hvalid ⊢
  by_cases hsome : (v.txWindow f).beginNode.pData = none
  · exact .inl hsome
  rcases step_succeeds h.nodes.1 hs f hvalid hsome with hnew | ⟨hkeeps, hplace⟩
  · -- a packet that was just sent
    right
    right
    dsimp only
    rw [beginNode] at hnew
    rw [hnew, htime]
    split <;> omega
  · have hview' : InView s f (v.txWindow f).pTxBegin := by
      rcases hplace with ⟨hbegin, hold⟩ | hpromoted
      · rw [hbegin]
        exact h.oldest f hf hold
      · exact hview _ hpromoted
    exact hview'.keep hkeeps (by dsimp only; rw [htime]) rfl

theorem Attended.tick (h : Attended s) (hchecked : s.1.checked = true)
    (htime : s.1.user.time + 1 < 4294967296) :
    Attended (⟨{ s.1.user with time := u32 (s.1.user.time + 1) }, false⟩,
      s.1.note ⟨{ s.1.user with time := u32 (s.1.user.time + 1) }, false⟩ s.2) := by
  have hclock : u32 (s.1.user.time + 1) = s.1.user.time + 1 := Nat.mod_eq_of_lt htime
  refine ⟨⟨h.nodes.1.congr rfl, h.nodes.2.congr fun _ => rfl⟩, ?_, fun f hf hvalid => ?_⟩
  · dsimp only
    rw [hclock]
    exact htime
  · refine (h.oldest f hf hvalid).keep (.refl _) ?_ rfl
    dsimp only
    rw [hclock, hchecked]
    simp

theorem Attended.check (h : Attended s) (hchecked : s.1.checked = false) :
    Attended (⟨s.1.user.timeoutTxWinSuspend, true⟩,
      s.1.note ⟨s.1.user.timeoutTxWinSuspend, true⟩ s.2) := by
  obtain ⟨as, heq, hexception⟩ := timeoutTxWinSuspend_exception s.1.user
  rw [heq]
  have hasked : s.1.user.asked (s.1.user.emit as) = as := asked_eq rfl
  refine ⟨⟨h.nodes.1.congr rfl, h.nodes.2.congr fun _ => rfl⟩, h.time_lt, fun f hf hvalid => ?_⟩
  change InView _ f (s.1.user.txWindow f).pTxBegin
  by_cases hexpires : s.1.user.Expires f
  · -- the exception is notified now
    right
    left
    rw [note_eq_true, hasked]
    exact ⟨rfl, .inr ⟨_, (hexception f hf).mpr hexpires, beq_self_eq_true f⟩⟩
  rcases h.oldest f hf hvalid with hnone | htold | hdue
  · exact .inl hnone
  · right
    left
    rw [note_eq_true]
    exact ⟨rfl, .inl htold⟩
  · by_cases hsome : (s.1.user.txWindow f).beginNode.pData = none
    · exact .inl hsome
    right
    right
    change s.1.user.time + 1 ≤ (s.1.user.txWindow f).beginNode.t1 + 500
    rw [hchecked] at hdue
    change s.1.user.time + 0 ≤ (s.1.user.txWindow f).beginNode.t1 + 500 at hdue
    -- the time-out is not now, and it has not passed
    have hdated : (s.1.user.txWindow f).beginNode.toDataAck =
        u32 ((s.1.user.txWindow f).beginNode.t1 + 500) := h.nodes.2 f _ hsome
    obtain ⟨b, n, hspans⟩ := h.nodes.1 f
    have hstate := (hspans.sound (s.1.user.txWindow f).pTxBegin).mpr hsome
    have hlt := h.time_lt
    by_contra hnow
    have heq : s.1.user.time = (s.1.user.txWindow f).beginNode.t1 + 500 := by omega
    refine hexpires ⟨hvalid, hstate, ?_⟩
    rw [hdated, ← heq]
    exact Nat.mod_eq_of_lt hlt

theorem Attended.step (h : Attended s) (hop : op.Punctual s) (hs : reported op s = some t) :
    Attended t := by
  obtain ⟨hstep, hnote⟩ := observe_eq_some.mp hs
  obtain ⟨q, told⟩ := t
  dsimp only at hstep hnote
  subst hnote
  cases op with
  | session o =>
    by_cases htick : o = .tick
    · subst htick
      rw [PeriodOp.step] at hstep
      split at hstep
      · next hchecked =>
        cases hstep
        exact h.tick hchecked hop
      · cases hstep
    · rw [step_session htick] at hstep
      obtain ⟨v, hv, rfl⟩ := Option.map_eq_some_iff.mp hstep
      exact h.session htick ((punctual_session htick).mp hop) hv
  | timeoutTxWinSuspend =>
    rw [PeriodOp.step] at hstep
    split at hstep
    · cases hstep
    · next hchecked =>
      cases hstep
      exact h.check (Bool.eq_false_of_not_eq_true hchecked)

end Stalled

/-- **No subflow stalls unreported.** In every run in which the clock does not start anew and a
packet that becomes the oldest is one that a check will still find: no active subflow has an oldest
packet that was sent more than 500 ticks ago without an exception since. -/
theorem suspend_run {u₀ : UserInfo} {checked : Bool} {s : Period × (ℕ → ℕ → Bool)}
    {ops : List PeriodOp} (h₀ : ∀ f, u₀.txWindow f = {}) (htime : u₀.time < 4294967296)
    (hrun : Guarded reported (fun _ s op => op.Punctual s) (⟨u₀, checked⟩, fun _ _ => false) ops s)
    {f : ℕ} (hf : f < 3) : ¬ Stalled s f := by
  have hinv : Attended s := by
    refine Guarded.inv (I := fun _ s => Attended s) ?_ ?_ hrun
    · intro _ op s t h hop hs
      exact h.step hop hs
    refine ⟨⟨fun f => ?_, fun f i hsome => ?_⟩, htime, fun f _ _ => .inl ?_⟩
    · rw [h₀ f]
      exact ⟨0, 0, spans_clear⟩
    · rw [h₀ f] at hsome
      exact absurd rfl hsome
    · rw [h₀ f]
  exact hinv.not_stalled hf

/-- An acknowledgement of everything before SSN 1. -/
def secondNext : Msg := ⟨3, [0x55, 48, 0, 0, 0, 0, 0, 1, 0, 0, 0, 0]⟩

/-- The second of two packets becomes the oldest in time. -/
theorem suspend_run_in_time : ∃ s, run reported ((twoPackets 0).map .session ++
      [.session .tick, .timeoutTxWinSuspend, .session (.recv secondNext)])
      (⟨UserInfo.ready, true⟩, fun _ _ => false) = some s ∧
    (s.1.user.txWindow 0).pTxBegin = 1 ∧ ¬ Stalled s 0 := by
  have heval : (run reported ((twoPackets 0).map .session ++
      [.session .tick, .timeoutTxWinSuspend, .session (.recv secondNext)])
      (⟨UserInfo.ready, true⟩, fun _ _ => false)).map (fun s => (s.1.user.txWindow 0).pTxBegin) =
        some 1 := by decide +kernel
  have hmeets : Meets reported (fun _ s op => op.Punctual s) [] ((twoPackets 0).map .session ++
      [.session .tick, .timeoutTxWinSuspend, .session (.recv secondNext)])
      (⟨UserInfo.ready, true⟩, fun _ _ => false) := by decide +kernel
  obtain ⟨s, hs, hbegin⟩ := Option.map_eq_some_iff.mp heval
  exact ⟨s, hs, hbegin, suspend_run (fun _ => rfl) (by decide) (hmeets.guarded hs) (by decide)⟩

/-! ### A packet that becomes the oldest too late -/

/-- `n` ticks, each with its check. -/
def rounds : ℕ → List PeriodOp
  | 0 => []
  | n + 1 => rounds n ++ [.session .tick, .timeoutTxWinSuspend]

theorem count_rounds (n : ℕ) : (rounds n).count (.session .tick) = n := by
  induction n with
  | zero => rfl
  | succ n ih =>
    rw [rounds, List.count_append, ih]
    rfl

section Rounds

variable {s : Period × (ℕ → ℕ → Bool)} {n : ℕ}

/-- None of the next `n` ticks is the time-out of an oldest packet. -/
def Idle (n : ℕ) (s : Period × (ℕ → ℕ → Bool)) : Prop :=
  s.1.checked = true ∧ s.1.user.time + n < 4294967296 ∧
    ∀ f ∈ [0, 1, 2], (s.1.user.txWindow f).beginNode.transState = .dataInit ∨
      (s.1.user.txWindow f).beginNode.toDataAck ≤ s.1.user.time ∨
      s.1.user.time + n < (s.1.user.txWindow f).beginNode.toDataAck

instance (n : ℕ) (s : Period × (ℕ → ℕ → Bool)) : Decidable (Idle n s) :=
  inferInstanceAs (Decidable (_ ∧ _ ∧ _))

/-- The state after `n` ticks in which nothing happens. -/
def later (n : ℕ) (s : Period × (ℕ → ℕ → Bool)) : Period × (ℕ → ℕ → Bool) :=
  (⟨{ s.1.user with time := s.1.user.time + n }, s.1.checked⟩, s.2)

/-- Nothing happens to the packets, and nothing is asked for. -/
theorem note_idle {p q : Period} (told : ℕ → ℕ → Bool) (hw : q.user.txWindow = p.user.txWindow)
    (hout : q.user.out = p.user.out) : p.note q told = told := by
  have hasked : p.user.asked q.user = [] := asked_eq (by rw [hout, List.append_nil])
  funext f i
  rw [Period.note, hasked, hw]
  simp

theorem run_rounds (h : Idle n s) : run reported (rounds n) s = some (later n s) := by
  induction n with
  | zero => rfl
  | succ n ih =>
    obtain ⟨hchecked, htime, hidle⟩ := h
    have hrun := ih
      ⟨hchecked, by omega, fun f hf => (hidle f hf).imp id (Or.imp id fun hlt => by omega)⟩
    have htick : reported (.session .tick) (later n s) =
        some (⟨{ s.1.user with time := s.1.user.time + (n + 1) }, false⟩, s.2) := by
      refine observe_eq_some.mpr ⟨?_, (note_idle s.2 rfl rfl).symm⟩
      rw [PeriodOp.step, if_pos (show (later n s).1.checked = true from hchecked)]
      change some _ = some _
      have hclock : u32 (s.1.user.time + n + 1) = s.1.user.time + (n + 1) :=
        Nat.mod_eq_of_lt (by omega)
      rw [← hclock]
      rfl
    have hcheck : reported .timeoutTxWinSuspend
        (⟨{ s.1.user with time := s.1.user.time + (n + 1) }, false⟩, s.2) =
          some (later (n + 1) s) := by
      have hnone : ({ s.1.user with time := s.1.user.time + (n + 1) } : UserInfo).timeoutTxWinSuspend =
          { s.1.user with time := s.1.user.time + (n + 1) } := by
        rw [timeoutTxWinSuspend_eq, List.flatMap_eq_nil_iff.mpr]
        · simp [UserInfo.emit]
        · intro f hf
          refine if_neg ?_
          rintro ⟨-, hstate, hdue⟩
          dsimp only at hstate hdue
          change (s.1.user.txWindow f).beginNode.toDataAck = _ at hdue
          rcases hidle f hf with hinit | hpast | hlater
          · exact hstate hinit
          · omega
          · omega
      refine observe_eq_some.mpr ⟨?_, ?_⟩
      · rw [PeriodOp.step, if_neg Bool.false_ne_true, hnone, later, hchecked]
      · exact (note_idle s.2 rfl rfl).symm
    rw [rounds, run_append, hrun, Option.bind_some, run, htick, Option.bind_some, run, hcheck]
    rfl

end Rounds

/-- The first packet times out at tick 500, and this is reported. The second one is sent right
after, and becomes the oldest when the first is acknowledged, 501 ticks later: nobody will ever see
its time-out. -/
theorem suspend_misses : ∃ ops s,
    run reported ops (⟨UserInfo.ready, true⟩, fun _ _ => false) = some s ∧
      ops.count (.session .tick) < 4294967296 ∧ Stalled s 0 := by
  have heval : ((run reported [.session (.send (some 0) ⟨1, List.replicate 12 0⟩ 12)]
      (⟨UserInfo.ready, true⟩, fun _ _ => false)).bind fun s => (run reported [.session .tick,
        .timeoutTxWinSuspend, .session (.send (some 0) ⟨2, List.replicate 12 0⟩ 12)]
        (later 499 s)).bind fun t => (run reported [.session (.recv secondNext)] (later 501 t)).map
          fun r => (decide (Idle 499 s), decide (Idle 501 t), decide (Stalled r 0))) =
      some (true, true, true) := by decide +kernel
  obtain ⟨s, hs, heval⟩ := Option.bind_eq_some_iff.mp heval
  obtain ⟨t, ht, heval⟩ := Option.bind_eq_some_iff.mp heval
  obtain ⟨r, hr, hproj⟩ := Option.map_eq_some_iff.mp heval
  simp only [Prod.mk.injEq, decide_eq_true_eq] at hproj
  obtain ⟨hidle, hidle', hstalled⟩ := hproj
  refine ⟨[.session (.send (some 0) ⟨1, List.replicate 12 0⟩ 12)] ++ (rounds 499 ++ ([.session .tick,
    .timeoutTxWinSuspend, .session (.send (some 0) ⟨2, List.replicate 12 0⟩ 12)] ++ (rounds 501 ++
      [.session (.recv secondNext)]))), r, ?_, ?_, hstalled⟩
  · rw [run_append, hs, Option.bind_some, run_append, run_rounds hidle, Option.bind_some, run_append,
      ht, Option.bind_some, run_append, run_rounds hidle', Option.bind_some, hr]
  · simp only [List.count_append, count_rounds]
    decide +kernel

end Mpd

end AndroidVendor
