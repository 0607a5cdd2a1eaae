import AndroidVendor.Mpd.SchdChoice

/-!
# The quota of a subflow

`MPD_TrafficControl` sets the limit of a flow once a period and `MPD_SCHD_ChooseStream` counts how
often the flow is chosen. `SchdOp` is everything that may happen in between: the session going on in
any way, new rates, the two functions, and `MPD_TrafficCtlInit`. An observer counts, for every flow,
how often it was chosen since the last period check.

The flow is stopped by the call that finds its quota used up, and that call may still choose it. It
does not where a better flow has something left (`SchdInfo.Outrun`).

## Main results

* `Within.step` — what one step does to the count of a flow and its quota
* `quota_run` — a flow under traffic control is chosen at most `throuputLimit` times between two
  period checks, if at each call every quota that is used up is that of a flow that is outrun
* `quota_run_succ` — in any run it is chosen once more at most
-/

namespace AndroidVendor

namespace Mpd

/-- What can happen to the session, as the scheduler sees it. `setRate` is any of the functions that
measure the subflows. -/
inductive SchdOp
  | session (op : Op)
  | setRate (flowId : Fin 3) (r : SchdRate)
  | trafficCtlInit
  | trafficControl
  | chooseStream
  deriving DecidableEq

def SchdOp.step : SchdOp → SchdInfo → Option SchdInfo
  | .session op, s => (op.step s.user).map fun u => { s with user := u }
  | .setRate flowId r, s => some (s.setRate flowId r)
  | .trafficCtlInit, s => some s.trafficCtlInit
  | .trafficControl, s => some s.trafficControl
  | .chooseStream, s => some s.chooseStream.2

/-- How often each flow was chosen since the last period check. -/
def SchdOp.count (op : SchdOp) (s _s' : SchdInfo) (chosen : ℕ → ℕ) : ℕ → ℕ :=
  match op with
  | .chooseStream => Function.update chosen s.chooseStream.1 (chosen s.chooseStream.1 + 1)
  | .trafficControl => if s.PeriodCheck then fun _ => 0 else chosen
  | _ => chosen

namespace SchdInfo

variable {s : SchdInfo} {f k : ℕ}

/-- A better flow than `j` has something left, and the delays of both fit. -/
def Outrun (s : SchdInfo) (j : ℕ) : Prop :=
  ∃ f < 3, s.Left f ∧ ¬ s.Exhausted f ∧ s.DelayFits f ∧ s.DelayFits j ∧ s.Ahead f j

instance (s : SchdInfo) (j : ℕ) : Decidable (s.Outrun j) := inferInstanceAs (Decidable (∃ f < 3, _))

/-- A flow that is outrun is not picked. -/
theorem Outrun.not_pick (h : s.Outrun k) : ¬ s.Pick k := by
  obtain ⟨f, -, hf, -, hfits, hfits', hahead⟩ := h
  exact hahead.not_pick hf hfits hfits'

end SchdInfo

/-- A call of `MPD_SCHD_ChooseStream` that finds a used-up quota of a flow that is not stopped yet and
not outrun. -/
def SchdOp.Overruns (op : SchdOp) (s : SchdInfo) : Prop :=
  op = .chooseStream ∧ ∃ f < 3, s.Left f ∧ s.Exhausted f ∧ ¬ s.Outrun f

instance (op : SchdOp) (s : SchdInfo) : Decidable (op.Overruns s) :=
  inferInstanceAs (Decidable (_ ∧ ∃ f < 3, _))

namespace SchdInfo

variable {s : SchdInfo} {f k : ℕ}

/-! ### What a call does to the tables -/

theorem flags_chooseStream (s : SchdInfo) (f : ℕ) :
    (s.chooseStream.2.traffic f).isTrafficCtl = (s.traffic f).isTrafficCtl ∧
      (s.chooseStream.2.traffic f).throuputLimit = (s.traffic f).throuputLimit ∧
      (s.chooseStream.2.traffic f).pktCntTx =
        (if f = s.chooseStream.1 then u32 ((s.traffic f).pktCntTx + 1) else (s.traffic f).pktCntTx) ∧
      ((s.traffic f).isPktTxStop = true → (s.chooseStream.2.traffic f).isPktTxStop = true) := by
  have h := progress_chooseStream s
  rw [chooseStream]
  dsimp only
  generalize [0, 1, 2].foldl SchdInfo.chooseFlow
    ⟨{ s with isMpStopSched := true }, 255, 4294967295⟩ = c at *
  have hold : (c.info.traffic f).isTrafficCtl = (s.traffic f).isTrafficCtl ∧
      (c.info.traffic f).throuputLimit = (s.traffic f).throuputLimit ∧
      (c.info.traffic f).pktCntTx = (s.traffic f).pktCntTx ∧
      ((s.traffic f).isPktTxStop = true → (c.info.traffic f).isPktTxStop = true) := by
    rw [h.traffic f]
    split
    · exact ⟨rfl, rfl, rfl, fun _ => rfl⟩
    · exact ⟨rfl, rfl, rfl, id⟩
  rw [countChosen]
  simp only [setTraffic, setRate, touch, Function.update_apply]
  by_cases heq : f = c.result
  · rw [if_pos heq, if_pos heq, ← heq]
    exact ⟨hold.1, hold.2.1, by rw [hold.2.2.1], hold.2.2.2⟩
  · rw [if_neg heq, if_neg heq]
    exact hold

theorem limitFlow_traffic_ne {rateAvg lossPktCnt sendPktCnt : ℕ} (hf : f ≠ k) :
    (s.limitFlow k rateAvg lossPktCnt sendPktCnt).traffic f = s.traffic f := by
  rw [limitFlow]
  dsimp only
  split
  · exact Function.update_of_ne hf ..
  split
  · split
    · exact Function.update_of_ne hf ..
    · exact Function.update_of_ne hf ..
  · rfl

/-- A limit is 10, what the rate gives, or the old one. -/
theorem limitFlow_limit_le {rateAvg lossPktCnt sendPktCnt b : ℕ} (hb : 42949672 ≤ b)
    (h : (s.traffic k).throuputLimit ≤ b) :
    ((s.limitFlow k rateAvg lossPktCnt sendPktCnt).traffic k).throuputLimit ≤ b := by
  have hcut : u32 (rateAvg * (s.traffic k).scaleFactor) / 100 ≤ 42949672 := by
    rw [u32]
    omega
  rw [limitFlow]
  dsimp only
  generalize u32 (rateAvg * (s.traffic k).scaleFactor) / 100 = limit at *
  split
  · dsimp only [setTraffic]
    rw [Function.update_self]
    dsimp only
    split <;> omega
  split
  · split
    · dsimp only [setTraffic]
      rw [Function.update_self]
      dsimp only
      split <;> omega
    · dsimp only [setTraffic]
      rw [Function.update_self]
      exact h
  · exact h

theorem trafficControlFlow_ne (hf : f ≠ k) : (s.trafficControlFlow k).traffic f = s.traffic f := by
  rw [trafficControlFlow]
  split
  · rfl
  · dsimp only [setTraffic]
    rw [Function.update_of_ne hf, limitFlow_traffic_ne hf]
    exact Function.update_of_ne hf ..

/-- A flow that is checked starts the period with nothing counted. -/
theorem trafficControlFlow_self (s : SchdInfo) (k : ℕ) {b : ℕ} (hb : 42949672 ≤ b)
    (h : (s.traffic k).throuputLimit ≤ b) :
    (s.trafficControlFlow k).traffic k = s.traffic k ∨
      ((s.trafficControlFlow k).traffic k).pktCntTx = 0 ∧
        ((s.trafficControlFlow k).traffic k).throuputLimit ≤ b := by
  rw [trafficControlFlow]
  split
  · exact .inl rfl
  · refine .inr ?_
    dsimp only [setTraffic]
    rw [Function.update_self]
    refine ⟨rfl, limitFlow_limit_le hb ?_⟩
    dsimp only
    rw [Function.update_self, accelerate]
    split <;> exact h

end SchdInfo

/-! ### The invariant -/

/-- A flow that was chosen `chosen` times in this period. Under traffic control that is counted, and
the count is past the limit by `e` at most, the flow being stopped then. -/
structure FlowTraffic.Within (e : ℕ) (t : FlowTraffic) (chosen : ℕ) : Prop where
  limit : t.throuputLimit ≤ 4294967294
  quota : t.isTrafficCtl = true → chosen ≤ t.pktCntTx ∧ t.pktCntTx ≤ t.throuputLimit + e ∧
    (t.pktCntTx = t.throuputLimit + 1 → t.isPktTxStop = true)

/-- Every flow is within its quota, or `e` past it. -/
def Within (e : ℕ) (s : SchdInfo) (chosen : ℕ → ℕ) : Prop :=
  ∀ f < 3, (s.traffic f).Within e (chosen f)

section Step

variable {e : ℕ} {s s' : SchdInfo} {chosen : ℕ → ℕ}

theorem FlowTraffic.within_uncontrolled {t : FlowTraffic} {c : ℕ}
    (hl : t.throuputLimit ≤ 4294967294) (ht : t.isTrafficCtl = false) : t.Within e c :=
  ⟨hl, fun hc => by simp [ht] at hc⟩

theorem within_init (e : ℕ) (s : SchdInfo) (chosen : ℕ → ℕ) : Within e s.trafficCtlInit chosen := by
  intro f hf
  rw [SchdInfo.trafficCtlInit]
  dsimp only
  rw [if_pos hf]
  exact FlowTraffic.within_uncontrolled (by decide) rfl

/-- A new period. -/
theorem Within.restart (h : Within e s chosen) : Within e s fun _ => 0 := fun f hf =>
  ⟨(h f hf).limit, fun hc => ⟨Nat.zero_le _, ((h f hf).quota hc).2⟩⟩

theorem Within.trafficControlFlow (h : Within e s fun _ => 0) (k : ℕ) :
    Within e (s.trafficControlFlow k) fun _ => 0 := by
  intro f hf
  by_cases hk : f = k
  · subst hk
    rcases s.trafficControlFlow_self f (by omega) (h f hf).limit with heq | ⟨hcnt, hlimit⟩
    · rw [heq]
      exact h f hf
    · exact ⟨hlimit, fun _ => ⟨Nat.zero_le _, by omega, by omega⟩⟩
  · rw [SchdInfo.trafficControlFlow_ne hk]
    exact h f hf

theorem Within.trafficControl (h : Within e s chosen) :
    Within e s.trafficControl (if s.PeriodCheck then fun _ => 0 else chosen) := by
  rw [SchdInfo.trafficControl]
  split
  · intro f hf
    dsimp only
    rw [if_pos hf]
    exact FlowTraffic.within_uncontrolled (h f hf).limit rfl
  split
  · have hstart : Within e { s with
        isAllFlowTrafficCtl := true, throuputTotal := 0, isMpStopSched := false } fun _ => 0 :=
      fun f hf => h.restart f hf
    exact ((hstart.trafficControlFlow 0).trafficControlFlow 1).trafficControlFlow 2
  · exact h

/-- The call that chooses a flow counts it. -/
theorem Within.chooseStream (h : Within e s chosen) (he : e ≤ 1)
    (hC : e = 0 → ¬ SchdOp.chooseStream.Overruns s) :
    Within e s.chooseStream.2
      (Function.update chosen s.chooseStream.1 (chosen s.chooseStream.1 + 1)) := by
  intro f hf
  obtain ⟨hctl, hlimit, hcnt, hkeep⟩ := s.flags_chooseStream f
  refine ⟨hlimit ▸ (h f hf).limit, fun hc => ?_⟩
  rw [hctl] at hc
  have hl := (h f hf).limit
  obtain ⟨hle, hbound, hstop⟩ := (h f hf).quota hc
  rw [hcnt, hlimit]
  by_cases heq : f = s.chooseStream.1
  · rw [if_pos heq, ← heq, Function.update_self]
    have hpick : s.Pick f := by
      rw [heq]
      exact s.chooseStream_fst.resolve_right fun h255 => by omega
    -- a flow that is chosen was not stopped, so it is not past its limit yet
    have hroom : (s.traffic f).pktCntTx ≤ (s.traffic f).throuputLimit := by
      have := mt (fun hp => ⟨hc, hstop hp⟩) hpick.1.2
      omega
    have hcut : u32 ((s.traffic f).pktCntTx + 1) = (s.traffic f).pktCntTx + 1 := by
      rw [u32]
      omega
    rw [hcut]
    refine ⟨by omega, ?_, fun hp => ?_⟩
    · rcases Nat.lt_or_ge (s.traffic f).pktCntTx (s.traffic f).throuputLimit with hlt | hge
      · omega
      · have hone : e ≠ 0 := fun h0 =>
          hC h0 ⟨rfl, f, hf, hpick.1, ⟨hc, hge⟩, fun hout => hout.not_pick hpick⟩
        omega
    · exact ((s.stopped_chooseStream hpick.1.1).mpr (.inr ⟨hc, by omega⟩)).2
  · rw [if_neg heq, Function.update_of_ne heq]
    exact ⟨hle, hbound, fun hp => hkeep (hstop hp)⟩

/-- **One step** keeps every flow within its quota, or one past it if the call that stops a flow may
choose it. -/
theorem Within.step {op : SchdOp} (h : Within e s chosen) (he : e ≤ 1) (hC : e = 0 → ¬ op.Overruns s)
    (hs : op.step s = some s') : Within e s' (op.count s s' chosen) := by
  cases op with
  | session op =>
    obtain ⟨u, -, rfl⟩ := Option.map_eq_some_iff.mp hs
    exact h
  | setRate flowId r =>
    obtain rfl := Option.some.inj hs
    exact h
  | trafficCtlInit =>
    obtain rfl := Option.some.inj hs
    exact within_init e s chosen
  | trafficControl =>
    obtain rfl := Option.some.inj hs
    exact h.trafficControl
  | chooseStream =>
    obtain rfl := Option.some.inj hs
    exact h.chooseStream he hC

end Step

/-! ### Runs -/

open Machine

variable {s₀ s : SchdInfo} {ops : List SchdOp}

theorem within_run {e : ℕ} {C : List SchdOp → SchdInfo × (ℕ → ℕ) → SchdOp → Prop} {chosen : ℕ → ℕ}
    (he : e ≤ 1) (hC : ∀ past p op, C past p op → e = 0 → ¬ SchdOp.Overruns op p.1)
    (hrun : Guarded (observe SchdOp.step SchdOp.count) C (s₀.trafficCtlInit, fun _ => 0) ops
      (s, chosen)) : Within e s chosen := by
  refine Guarded.inv (I := fun _ p => Within e p.1 p.2) ?_ (within_init e s₀ _) hrun
  intro past op p p' h hCp hs
  obtain ⟨hstep, hnote⟩ := observe_eq_some.mp hs
  rw [hnote]
  exact h.step he (hC past p op hCp) hstep

/-- **The quota.** In every run in which each call finds quotas that are used up only where the flow
is stopped or outrun, a flow under traffic control is chosen at most `throuputLimit` times between
two period checks. -/
theorem quota_run (s₀ s : SchdInfo) (chosen : ℕ → ℕ) (ops : List SchdOp)
    (hrun : Guarded (observe SchdOp.step SchdOp.count) (fun _ p op => ¬ SchdOp.Overruns op p.1)
      (s₀.trafficCtlInit, fun _ => 0) ops (s, chosen))
    (f : ℕ) (hf : f < 3) (hctl : (s.traffic f).isTrafficCtl = true) :
    chosen f ≤ (s.traffic f).throuputLimit := by
  obtain ⟨hle, hbound, -⟩ := (within_run (e := 0) (by omega) (fun _ _ _ h _ => h) hrun f hf).quota hctl
  exact hle.trans hbound

/-- Six packets go out on subflow `f`, five of them are reported missing, and a period check puts the
subflow under traffic control. -/
def lossy (f : Fin 3) : List SchdOp :=
  [.session (.setFlowValid f true)] ++
    List.replicate 6 (.session (.send (some f) ⟨1, List.replicate 12 0⟩ 12)) ++
    [.session (.recv ⟨2, MPDHeader.encode
      { flag := 0x55, fragment := 0, stream := 0, length := 5, dsn := 0, ssn := 0, ack := 0 } 0 ++
      [1, 8, 1, 0, 0, 5, 0, 5]⟩), .trafficControl]

/-- The subflow is chosen twice after that. -/
theorem quota_run_two : ∃ (s : SchdInfo) (chosen : ℕ → ℕ),
    (s.traffic 0).isTrafficCtl = true ∧ chosen 0 = 2 ∧ chosen 0 ≤ (s.traffic 0).throuputLimit := by
  have heval : ((run (observe SchdOp.step SchdOp.count) (lossy 0 ++ [.chooseStream, .chooseStream])
      (({ g := { isTrafficCtl := true } } : SchdInfo).trafficCtlInit, fun _ => 0)).map fun p =>
        ((p.1.traffic 0).isTrafficCtl, p.2 0)) = some (true, 2) := by decide +kernel
  obtain ⟨⟨s, chosen⟩, hrun, hproj⟩ := Option.map_eq_some_iff.mp heval
  obtain ⟨hctl, hchosen⟩ := Prod.mk.inj hproj
  exact ⟨s, chosen, hctl, hchosen, quota_run _ s chosen _
    ((show Meets (observe SchdOp.step SchdOp.count) (fun _ p op => ¬ SchdOp.Overruns op p.1) [] _ _ by
      decide +kernel).guarded hrun) 0 (by omega) hctl⟩

/-- In any run it is chosen once more at most. -/
theorem quota_run_succ (s₀ s : SchdInfo) (chosen : ℕ → ℕ) (ops : List SchdOp)
    (hrun : run (observe SchdOp.step SchdOp.count) ops (s₀.trafficCtlInit, fun _ => 0) =
      some (s, chosen))
    (f : ℕ) (hf : f < 3) (hctl : (s.traffic f).isTrafficCtl = true) :
    chosen f ≤ (s.traffic f).throuputLimit + 1 := by
  have hwithin : Within 1 s chosen := by
    refine run_inv (I := fun p => Within 1 p.1 p.2) (fun op p p' h hs => ?_) (within_init 1 s₀ _) hrun
    obtain ⟨hstep, hnote⟩ := observe_eq_some.mp hs
    rw [hnote]
    exact h.step le_rfl (fun h0 => absurd h0 (by omega)) hstep
  obtain ⟨hle, hbound, -⟩ := (hwithin f hf).quota hctl
  exact hle.trans hbound

/-- A limit of 116, and the subflow is chosen 117 times. -/
theorem quota_overrun : ∃ (s : SchdInfo) (chosen : ℕ → ℕ),
    run (observe SchdOp.step SchdOp.count) (lossy 0 ++ List.replicate 117 .chooseStream)
      (({ g := { isTrafficCtl := true } } : SchdInfo).trafficCtlInit, fun _ => 0) = some (s, chosen) ∧
      (s.traffic 0).isTrafficCtl = true ∧ (s.traffic 0).throuputLimit = 116 ∧ chosen 0 = 117 := by
  have heval : ((run (observe SchdOp.step SchdOp.count) (lossy 0 ++ List.replicate 117 .chooseStream)
      (({ g := { isTrafficCtl := true } } : SchdInfo).trafficCtlInit, fun _ => 0)).map fun p =>
        ((p.1.traffic 0).isTrafficCtl, (p.1.traffic 0).throuputLimit, p.2 0)) =
      some (true, 116, 117) := by decide +kernel
  obtain ⟨⟨s, chosen⟩, hrun, hproj⟩ := Option.map_eq_some_iff.mp heval
  simp only [Prod.mk.injEq] at hproj
  exact ⟨s, chosen, hrun, hproj⟩

end Mpd

end AndroidVendor
