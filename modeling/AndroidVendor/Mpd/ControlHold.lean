import AndroidVendor.Lib.Hold
import AndroidVendor.Mpd.SchdFrame

/-!
# Traffic control is held for ten checks

`MPD_TrafficControl` looks at every valid subflow once a period. Losses, or a rate that no longer
grows, put the subflow under traffic control. It stays there for ten checks after the last cause,
under a limit that only rises meanwhile. All the code keeps of this is a counter,
`quitTrafficCtlCnt`.

`SchdInfo.verdict` is what a check finds on a subflow; an observer keeps the verdicts. It also keeps
which subflows the last check looked at: `isAllFlowTrafficCtl` and `throuputTotal` speak about these.

## Main results

* `Checked.look`, `trafficControl_checked` — a check is a `Hold.look` at each subflow
* `framing_decided` — nothing else writes what the checks have decided
* `control_run` — every run
-/

namespace AndroidVendor

namespace Mpd

open Machine

/-- What is held of a subflow. -/
def FlowTraffic.hold (t : FlowTraffic) : Hold ℕ := ⟨t.quitTrafficCtlCnt, t.throuputLimit⟩

/-- What the checks have decided. -/
structure Decided where
  flow : ℕ → Hold ℕ
  isTrafficCtl : ℕ → Bool
  isAllFlowTrafficCtl : Bool
  throuputTotal : ℕ
  g : SchdGlobals

namespace SchdInfo

variable {s t : SchdInfo} {k f : ℕ}

def decided (s : SchdInfo) : Decided where
  flow f := (s.traffic f).hold
  isTrafficCtl f := (s.traffic f).isTrafficCtl
  isAllFlowTrafficCtl := s.isAllFlowTrafficCtl
  throuputTotal := s.throuputTotal
  g := s.g

/-- What a check finds on a subflow: whether it has to be controlled, and the limit its rate allows. -/
def verdict (s : SchdInfo) (flowId : ℕ) : Bool × ℕ :=
  let c := s.user.trafficControl flowId
  let t := s.traffic flowId
  let sendPktCnt := distanceSN t.ssnBegin c.ssnEnd
  let rateAvg := u32 (t.pktRateAvg * 3 + 2 * c.pktRate) / 5
  let rateAvg := if rateAvg < c.pktRate then c.pktRate else rateAvg
  (decide ((u32 (sendPktCnt * t.lossThrsh) < u32 (c.pktLossCnt * 100) ∧ 3 < c.pktLossCnt) ∨
      (2 < (accelerate t c.pktRate).acceleratedCnt ∧ (s.rate flowId).txWinEmptyCnt = 0)),
    u32 (rateAvg * nextScaleFactor t c.sackNum c.pktLossCnt sendPktCnt) / 100)

@[simp] theorem setTraffic_self (s : SchdInfo) (k : ℕ) (t : FlowTraffic) :
    (s.setTraffic k t).traffic k = t := Function.update_self ..

/-! ### One check -/

/-- What `limitFlow` decides about, being told the losses. -/
def found (s : SchdInfo) (k rateAvg lossPktCnt sendPktCnt : ℕ) : Bool × ℕ :=
  (decide ((u32 (sendPktCnt * (s.traffic k).lossThrsh) < u32 (lossPktCnt * 100) ∧ 3 < lossPktCnt) ∨
      (2 < (s.traffic k).acceleratedCnt ∧ (s.rate k).txWinEmptyCnt = 0)),
    u32 (rateAvg * (s.traffic k).scaleFactor) / 100)

/-- A flow that was looked at is under control while something is held, and the flags say so. -/
structure Looked (s s' : SchdInfo) (k : ℕ) (v : Bool × ℕ) : Prop where
  hold : (s'.traffic k).hold = (s.traffic k).hold.look 10 10 v
  ctl : (s'.traffic k).isTrafficCtl = decide (0 < (s'.traffic k).quitTrafficCtlCnt)
  all : s'.isAllFlowTrafficCtl = (s.isAllFlowTrafficCtl && (s'.traffic k).isTrafficCtl)

/-- The last part of the check is a look. -/
theorem limitFlow_looked (s : SchdInfo) (k rateAvg lossPktCnt sendPktCnt : ℕ)
    (hoff : (s.traffic k).isTrafficCtl = false) :
    Looked s (s.limitFlow k rateAvg lossPktCnt sendPktCnt) k
      (s.found k rateAvg lossPktCnt sendPktCnt) := by
  rw [limitFlow, found]
  dsimp only
  split
  · next hcause =>
    rw [decide_eq_true hcause]
    refine ⟨?_, by simp, by simp [setTraffic]⟩
    rw [Hold.look_trigger, setTraffic_self, FlowTraffic.hold]
    congr 1
    dsimp only
    split <;> omega
  next hcause =>
  rw [decide_eq_false hcause]
  split
  · next hpos =>
    split
    · next hlt =>
      refine ⟨?_, by simp, by simp [setTraffic]⟩
      rw [Hold.look_rise _ _ hpos hlt, setTraffic_self, FlowTraffic.hold, FlowTraffic.hold]
      congr 1
      dsimp only
      split <;> omega
    · next hge =>
      refine ⟨?_, by simp [hoff], by simp [hoff]⟩
      rw [Hold.look_end _ _ hpos (not_lt.mp hge), setTraffic_self]
      rfl
  · next hzero =>
    have hcount : (s.traffic k).quitTrafficCtlCnt = 0 := by omega
    exact ⟨(Hold.look_idle _ _ hcount).symm, by simp [hoff, hcount], by simp [hoff]⟩

theorem accelerate_frame (t : FlowTraffic) (pktRate : ℕ) :
    (accelerate t pktRate).hold = t.hold ∧ (accelerate t pktRate).isTrafficCtl = t.isTrafficCtl ∧
      (accelerate t pktRate).lossThrsh = t.lossThrsh ∧
      (accelerate t pktRate).scaleFactor = t.scaleFactor ∧
      (accelerate t pktRate).pktRateAvg = t.pktRateAvg := by
  rw [accelerate]
  split <;> exact ⟨rfl, rfl, rfl, rfl, rfl⟩

/-- The counter of `accelerate` depends on three fields only. -/
theorem accelerate_congr (t t' : FlowTraffic) (hhold : t'.hold = t.hold)
    (hpre : t'.pktRatePre = t.pktRatePre) (hcnt : t'.acceleratedCnt = t.acceleratedCnt)
    (pktRate : ℕ) : (accelerate t' pktRate).acceleratedCnt = (accelerate t pktRate).acceleratedCnt := by
  have hquit : t'.quitTrafficCtlCnt = t.quitTrafficCtlCnt := congrArg Hold.count hhold
  rw [accelerate, accelerate, hquit]
  split
  · rw [hpre, hcnt]
  · exact hcnt

/-- **One check of one subflow** is a look at what is held of it. -/
theorem trafficControlFlow_looked (s : SchdInfo) (k : ℕ) (hv : schdGetFlowValid s.user k = true) :
    Looked s (s.trafficControlFlow k) k (s.verdict k) := by
  have hinv : ¬ (!schdGetFlowValid s.user k) = true := by rw [hv]; exact Bool.false_ne_true
  rw [trafficControlFlow, if_neg hinv]
  extract_lets c told t₀ lossPktCnt sendPktCnt t₁ t₂ avg t₃ rateAvg s₁ t₄ s₂
  obtain ⟨hhold, hctl, hthrsh, hscale, havg⟩ := accelerate_frame t₁ c.pktRate
  have hoff : ((s.setTraffic k t₃).traffic k).isTrafficCtl = false := by
    rw [setTraffic_self]
    exact hctl
  have hfound : (s.setTraffic k t₃).found k rateAvg lossPktCnt sendPktCnt = s.verdict k := by
    have hcnt : t₃.acceleratedCnt = (accelerate (s.traffic k) c.pktRate).acceleratedCnt :=
      accelerate_congr (s.traffic k) t₁ rfl rfl rfl c.pktRate
    have hscale' : t₃.scaleFactor = nextScaleFactor (s.traffic k) c.sackNum lossPktCnt sendPktCnt :=
      hscale
    have hthrsh' : t₃.lossThrsh = (s.traffic k).lossThrsh := hthrsh
    rw [found, setTraffic_self, hcnt, hscale', hthrsh']
    have hrate : avg = u32 ((s.traffic k).pktRateAvg * 3 + 2 * c.pktRate) / 5 := by
      show u32 (t₂.pktRateAvg * 3 + 2 * c.pktRate) / 5 = _
      rw [havg]
    have hrate' : rateAvg = if u32 ((s.traffic k).pktRateAvg * 3 + 2 * c.pktRate) / 5 < c.pktRate
        then c.pktRate else u32 ((s.traffic k).pktRateAvg * 3 + 2 * c.pktRate) / 5 := by
      rw [← hrate]
    rw [hrate']
    rfl
  obtain ⟨hlook, hlctl, hall⟩ := limitFlow_looked (s.setTraffic k t₃) k rateAvg lossPktCnt sendPktCnt
    hoff
  rw [setTraffic_self] at hlook
  have hself : s₂.traffic k = { t₄ with pktCntTx := 0 } := setTraffic_self ..
  rw [hfound] at hlook
  refine ⟨?_, ?_, ?_⟩
  · show (s₂.traffic k).hold = _
    rw [hself]
    exact hlook.trans (congrArg (fun h => Hold.look 10 10 h (s.verdict k)) hhold)
  · show (s₂.traffic k).isTrafficCtl = decide (0 < (s₂.traffic k).quitTrafficCtlCnt)
    rw [hself]
    exact hlctl
  · show s₁.isAllFlowTrafficCtl = (s.isAllFlowTrafficCtl && (s₂.traffic k).isTrafficCtl)
    rw [hself]
    exact hall

/-! ### One check of all subflows -/

/-- Nothing that the check of one subflow looks at is written by that of another one. -/
theorem verdict_congr {ks : List ℕ} (h : ControlFrame ks s t) (hk : k ∉ ks) :
    t.verdict k = s.verdict k := by
  rw [verdict, verdict, h.traffic k hk, h.trafficControl k hk, h.rate]

theorem valid_congr {ks : List ℕ} (h : ControlFrame ks s t) (f : ℕ) :
    schdGetFlowValid t.user f = schdGetFlowValid s.user f := by
  rw [schdGetFlowValid, schdGetFlowValid, h.schdPara]

/-- The subflows `fs` have been looked at. -/
structure Checked (fs : List ℕ) (s t : SchdInfo) : Prop where
  frame : ControlFrame fs s t
  looked : ∀ f ∈ fs, schdGetFlowValid s.user f = true →
    (t.traffic f).hold = (s.traffic f).hold.look 10 10 (s.verdict f) ∧
      (t.traffic f).isTrafficCtl = decide (0 < (t.traffic f).quitTrafficCtlCnt)
  passed : ∀ f, schdGetFlowValid s.user f = false → t.traffic f = s.traffic f
  all : t.isAllFlowTrafficCtl = true ↔ s.isAllFlowTrafficCtl = true ∧
    ∀ f ∈ fs.filter (schdGetFlowValid s.user), (t.traffic f).isTrafficCtl = true
  total : s.throuputTotal < 4294967296 → t.throuputTotal = u32 (s.throuputTotal +
    ((fs.filter (schdGetFlowValid s.user)).map fun f => (t.traffic f).throuputLimit).sum)

theorem checked_nil (s : SchdInfo) : Checked [] s s where
  frame := .refl s
  looked _ hf := absurd hf List.not_mem_nil
  passed _ _ := rfl
  all := by simp
  total hlt := (Nat.mod_eq_of_lt hlt).symm

/-- A subflow that is not valid is passed over. -/
theorem Checked.skip {fs : List ℕ} (h : Checked fs s t)
    (hv : schdGetFlowValid s.user k = false) :
    Checked (fs ++ [k]) s (t.trafficControlFlow k) := by
  have hvt : schdGetFlowValid t.user k = false := (valid_congr h.frame k).trans hv
  have hframe := (trafficControlFlow_frame t k).1
  have hpass : t.trafficControlFlow k = t := by
    rw [trafficControlFlow, hvt, if_pos Bool.not_false]
  have hfilter : (fs ++ [k]).filter (schdGetFlowValid s.user) =
      fs.filter (schdGetFlowValid s.user) := by
    rw [List.filter_append, List.filter_singleton, hv, cond_false, List.append_nil]
  rw [hpass] at hframe ⊢
  refine ⟨h.frame.trans hframe, fun f hf hvf => ?_, h.passed, ?_, ?_⟩
  · rcases List.mem_append.mp hf with hf | hf
    · exact h.looked f hf hvf
    · rw [List.mem_singleton.mp hf, hv] at hvf
      exact absurd hvf Bool.false_ne_true
  · rw [hfilter]
    exact h.all
  · rw [hfilter]
    exact h.total

/-- A valid subflow is looked at, and nothing of the others moves. -/
theorem Checked.look {fs : List ℕ} (h : Checked fs s t) (hk : k ∉ fs)
    (hv : schdGetFlowValid s.user k = true) :
    Checked (fs ++ [k]) s (t.trafficControlFlow k) := by
  have hvt : schdGetFlowValid t.user k = true := (valid_congr h.frame k).trans hv
  obtain ⟨hframe, htotal⟩ := trafficControlFlow_frame t k
  obtain ⟨hlook, hctl, hall⟩ := trafficControlFlow_looked t k hvt
  rw [h.frame.traffic k hk, verdict_congr h.frame hk] at hlook
  have hother : ∀ f, f ≠ k → (t.trafficControlFlow k).traffic f = t.traffic f := fun f hf =>
    hframe.traffic f (mt List.mem_singleton.mp hf)
  have hold : ∀ f ∈ fs, (t.trafficControlFlow k).traffic f = t.traffic f := fun f hf =>
    hother f fun heq => hk (heq ▸ hf)
  have hfilter : (fs ++ [k]).filter (schdGetFlowValid s.user) =
      fs.filter (schdGetFlowValid s.user) ++ [k] := by
    rw [List.filter_append, List.filter_singleton, hv, cond_true]
  have hlimits : ((fs.filter (schdGetFlowValid s.user)).map fun f =>
      ((t.trafficControlFlow k).traffic f).throuputLimit) =
      (fs.filter (schdGetFlowValid s.user)).map fun f => (t.traffic f).throuputLimit :=
    List.map_congr_left fun f hf => by rw [hold f (List.mem_of_mem_filter hf)]
  refine ⟨h.frame.trans hframe, fun f hf hvf => ?_, fun f hvf => ?_, ?_, fun hlt => ?_⟩
  · rcases List.mem_append.mp hf with hf | hf
    · rw [hold f hf]
      exact h.looked f hf hvf
    · rw [List.mem_singleton.mp hf]
      exact ⟨hlook, hctl⟩
  · have hfk : f ≠ k := by
      rintro rfl
      rw [hv] at hvf
      exact absurd hvf.symm Bool.false_ne_true
    rw [hother f hfk]
    exact h.passed f hvf
  · rw [hall, Bool.and_eq_true, h.all, hfilter, and_assoc]
    simp only [List.forall_mem_append, List.forall_mem_singleton]
    refine and_congr_right fun _ => and_congr_left fun _ => ?_
    exact forall₂_congr fun f hf => by rw [hold f (List.mem_of_mem_filter hf)]
  · rw [htotal hvt, h.total hlt, hfilter, List.map_append, hlimits, List.sum_append]
    simp only [List.map_cons, List.map_nil, List.sum_cons, List.sum_nil, u32]
    omega

/-- One more subflow. -/
theorem Checked.concat {fs : List ℕ} (h : Checked fs s t) (hk : k ∉ fs) :
    Checked (fs ++ [k]) s (t.trafficControlFlow k) := by
  cases hv : schdGetFlowValid s.user k with
  | false => exact h.skip hv
  | true => exact h.look hk hv

/-- **One check** of `MPD_TrafficControl`. -/
theorem trafficControl_checked (hg : s.g.isTrafficCtl = true) (hdue : s.PeriodCheck) :
    Checked [0, 1, 2]
      { s with isAllFlowTrafficCtl := true, throuputTotal := 0, isMpStopSched := false }
      s.trafficControl := by
  rw [trafficControl, if_neg (by rw [hg]; exact Bool.false_ne_true), if_pos hdue]
  exact (((checked_nil _).concat List.not_mem_nil).concat (by decide)).concat (by decide)

/-! ### What else happens -/

/-- An entry is rewritten that holds what it held. -/
theorem decided_setTraffic {e : FlowTraffic} (hhold : e.hold = (s.traffic k).hold)
    (hctl : e.isTrafficCtl = (s.traffic k).isTrafficCtl) :
    (s.setTraffic k e).decided = s.decided := by
  simp only [decided, setTraffic, Decided.mk.injEq, and_true]
  constructor
  all_goals
    funext f
    rw [Function.update_apply]
    split
    · next hf => simp only [hf, hhold, hctl]
    · rfl

theorem decided_chooseFlow (c : Choice) (k : ℕ) : (chooseFlow c k).info.decided = c.info.decided := by
  have hquota : ∀ s : SchdInfo, (s.checkQuota k).decided = s.decided := by
    intro s
    rw [checkQuota]
    split
    · split
      · exact decided_setTraffic rfl rfl
      · rfl
    · rfl
  have hwait : ∀ (s : SchdInfo) (histNum : ℕ), (s.wCntFlow k histNum).2.decided = s.decided := by
    intro s histNum
    obtain ⟨ds, hds, -⟩ := wCntFlow_eq s k histNum
    rw [hds]
    rfl
  rw [chooseFlow]
  dsimp only
  split
  · rfl
  split
  · rfl
  split
  all_goals
    dsimp only
    rw [hwait]
    exact hquota (c.info.touch k)

/-- A choice, and all that the wait queue does. -/
theorem framing_decided : Framing fun s t => t.decided = s.decided where
  refl _ := rfl
  trans h h' := h'.trans h
  setUser _ _ _ := rfl
  chooseStream s := by
    have hloop : ([0, 1, 2].foldl chooseFlow ⟨{ s with isMpStopSched := true }, 255, 4294967295⟩
        ).info.decided = s.decided := by
      simp only [List.foldl_cons, List.foldl_nil, decided_chooseFlow]
      rfl
    rw [chooseStream, ← hloop]
    generalize [0, 1, 2].foldl chooseFlow ⟨{ s with isMpStopSched := true }, 255, 4294967295⟩ = c
    rw [countChosen]
    exact decided_setTraffic rfl rfl

end SchdInfo

/-! ### The invariant -/

/-- What the observer keeps of the checks. -/
structure Checks where
  /-- What was found on a subflow, the newest first. -/
  verdicts : ℕ → List (Bool × ℕ) := fun _ => []
  /-- The subflows of the last check, if there was one. -/
  flows : Option (List ℕ) := none

/-- What the checks so far have decided. -/
structure Controlled (c : Checks) (d : Decided) : Prop where
  flow : ∀ f < 3, (d.flow f).Since 10 10 (c.verdicts f)
  ctl : ∀ f < 3, d.isTrafficCtl f = decide (0 < (d.flow f).count)
  all : d.isAllFlowTrafficCtl = true ↔ ∃ fs, c.flows = some fs ∧ ∀ f ∈ fs, d.isTrafficCtl f = true
  total : d.throuputTotal = c.flows.elim 500 fun fs => u32 ((fs.map fun f => (d.flow f).level).sum)
  g : d.g.isTrafficCtl = true

theorem controlled_init (s : SchdInfo) (hg : s.g.isTrafficCtl = true) :
    Controlled {} s.trafficCtlInit.decided where
  flow f hf := by
    refine Hold.since_nil ?_
    show (if f < 3 then ({} : FlowTraffic) else s.traffic f).quitTrafficCtlCnt = 0
    rw [if_pos hf]
  ctl f hf := by
    show (if f < 3 then ({} : FlowTraffic) else s.traffic f).isTrafficCtl =
      decide (0 < (if f < 3 then ({} : FlowTraffic) else s.traffic f).quitTrafficCtlCnt)
    rw [if_pos hf]
    rfl
  all := ⟨nofun, nofun⟩
  total := rfl
  g := hg

/-- What a check leaves behind. -/
def Checks.after (c : Checks) (s : SchdInfo) : Checks where
  verdicts f :=
    if f ∈ [0, 1, 2].filter (schdGetFlowValid s.user) then s.verdict f :: c.verdicts f
    else c.verdicts f
  flows := some ([0, 1, 2].filter (schdGetFlowValid s.user))

/-- **One check.** -/
theorem Controlled.trafficControl {c : Checks} {s : SchdInfo} (h : Controlled c s.decided)
    (hdue : s.PeriodCheck) : Controlled (c.after s) s.trafficControl.decided := by
  have hcheck := SchdInfo.trafficControl_checked h.g hdue
  have hfs : ∀ f < 3, f ∈ [0, 1, 2] := by
    intro f hf
    simp only [List.mem_cons, List.not_mem_nil, or_false]
    omega
  have hmem : ∀ f, f ∈ [0, 1, 2].filter (schdGetFlowValid s.user) →
      f < 3 ∧ schdGetFlowValid s.user f = true := by
    intro f hf
    obtain ⟨hf, hv⟩ := List.mem_filter.mp hf
    simp only [List.mem_cons, List.not_mem_nil, or_false] at hf
    exact ⟨by omega, hv⟩
  constructor
  · intro f hf
    show ((s.trafficControl.traffic f).hold).Since 10 10 (if _ then _ else _)
    by_cases hv : schdGetFlowValid s.user f = true
    · rw [if_pos (List.mem_filter.mpr ⟨hfs f hf, hv⟩), (hcheck.looked f (hfs f hf) hv).1]
      exact (h.flow f hf).look (by omega) _
    · rw [if_neg fun hin => hv (hmem f hin).2, hcheck.passed f (Bool.eq_false_of_not_eq_true hv)]
      exact h.flow f hf
  · intro f hf
    show (s.trafficControl.traffic f).isTrafficCtl =
      decide (0 < (s.trafficControl.traffic f).quitTrafficCtlCnt)
    by_cases hv : schdGetFlowValid s.user f = true
    · exact (hcheck.looked f (hfs f hf) hv).2
    · rw [hcheck.passed f (Bool.eq_false_of_not_eq_true hv)]
      exact h.ctl f hf
  · refine hcheck.all.trans ?_
    constructor
    · rintro ⟨-, hall⟩
      exact ⟨_, rfl, hall⟩
    · rintro ⟨fs, hfs, hall⟩
      obtain rfl := Option.some.inj hfs
      exact ⟨rfl, hall⟩
  · refine (hcheck.total (by show 0 < 4294967296; omega)).trans ?_
    show u32 (0 + _) = u32 _
    rw [Nat.zero_add]
    rfl
  · show s.trafficControl.g.isTrafficCtl = true
    rw [hcheck.frame.g]
    exact h.g

/-- Between the checks nothing happens. -/
theorem SchdInfo.trafficControl_idle {s : SchdInfo} (hg : s.g.isTrafficCtl = true)
    (hdue : ¬ s.PeriodCheck) : s.trafficControl = s := by
  rw [SchdInfo.trafficControl, if_neg (by rw [hg]; exact Bool.false_ne_true), if_neg hdue]

/-! ### Sessions -/

namespace Session

theorem decided_checkTxwinEmpty (s : Session) : s.checkTxwinEmpty.schd.decided = s.schd.decided := by
  have hflow : ∀ (v : Session) (k : ℕ), (v.checkTxwinEmptyFlow k).schd.decided = v.schd.decided := by
    intro v k
    rw [checkTxwinEmptyFlow]
    split <;> rfl
  rw [checkTxwinEmpty]
  split
  · simp only [List.foldl_cons, List.foldl_nil, hflow]
  · rfl

theorem decided_pktAvgUpdate (s : Session) : s.pktAvgUpdate.schd.decided = s.schd.decided := by
  have hflow : ∀ (v : Session) (k : ℕ), (v.pktAvgUpdateFlow k).schd.decided = v.schd.decided := by
    intro v k
    rw [pktAvgUpdateFlow]
    split
    · rfl
    dsimp only
    split <;> rfl
  rw [pktAvgUpdate]
  split
  · simp only [List.foldl_cons, List.foldl_nil, hflow]
  · rfl

theorem decided_delayUpdate (s : Session) : s.delayUpdate.schd.decided = s.schd.decided := by
  have hflow : ∀ (v : Session) (k : ℕ), (v.delayUpdateFlow k).schd.decided = v.schd.decided := by
    intro v k
    rw [delayUpdateFlow]
    split <;> rfl
  rw [delayUpdate]
  split
  · simp only [List.foldl_cons, List.foldl_nil, hflow]
  · rfl

theorem decided_rttUpdate (s : Session) : s.rttUpdate.schd.decided = s.schd.decided := by
  have hflow : ∀ (v : Session) (k : ℕ), (v.rttUpdateFlow k).schd.decided = v.schd.decided := by
    intro v k
    rw [rttUpdateFlow]
    split
    · rfl
    split
    · rfl
    dsimp only
    split <;> rfl
  rw [rttUpdate]
  split
  · simp only [List.foldl_cons, List.foldl_nil, hflow]
  · rfl

theorem decided_checkNoTraffic (s : Session) : s.checkNoTraffic.schd.decided = s.schd.decided := by
  have hflow : ∀ (c : Bool × Session) (k : ℕ),
      (checkNoTrafficFlow c k).2.schd.decided = c.2.schd.decided := by
    intro c k
    rw [checkNoTrafficFlow]
    dsimp only
    split
    · rfl
    split
    · rfl
    split
    · rfl
    split <;> rfl
  rw [checkNoTraffic]
  split
  · have hloop : ([0, 1, 2].foldl checkNoTrafficFlow (true, s)).2.schd.decided = s.schd.decided := by
      simp only [List.foldl_cons, List.foldl_nil, hflow]
    generalize [0, 1, 2].foldl checkNoTrafficFlow (true, s) = c at hloop
    obtain ⟨isNoTraffic, t⟩ := c
    dsimp only
    split <;> exact hloop
  · rfl

end Session

/-- The observer. -/
def SessionOp.check (op : SessionOp) (s _s' : Session) (c : Checks) : Checks :=
  match op with
  | .subFlowStateInd deviceId _ => if deviceId = 0 then {} else c
  | .periodCheck time =>
    let i := (s.setTime time).checkTxwinEmpty.schd
    if i.PeriodCheck then c.after i else c
  | .parseMPData _ | .sendNewTransData _ => c

variable {s s' : Session} {c : Checks}

/-- **One step** of a session. -/
theorem Controlled.step {op : SessionOp} (h : Controlled c s.schd.decided)
    (hs : op.step s = some s') : Controlled (op.check s s' c) s'.schd.decided := by
  cases op with
  | parseMPData m =>
    obtain ⟨u, -, rfl⟩ := Option.map_eq_some_iff.mp hs
    exact h
  | sendNewTransData data =>
    cases hs
    have hframe := SchdInfo.framing_decided.transNewData s.wait data data.data.length
    exact (congrArg (Controlled c) hframe).mpr h
  | subFlowStateInd deviceId state =>
    rw [SessionOp.step, Session.stateInd] at hs
    obtain ⟨u, -, hs⟩ := Option.bind_eq_some_iff.mp hs
    dsimp only at hs
    rw [SessionOp.check]
    split at hs
    · next hzero =>
      obtain ⟨w, hw, rfl⟩ := Option.map_eq_some_iff.mp hs
      rw [if_pos hzero]
      have hframe := SchdInfo.framing_decided.clearWaitQueue hw
      refine controlled_init w.schd ?_
      exact ((congrArg (Controlled c) hframe).mpr h).g
    · next hone =>
      cases hs
      rw [if_neg hone]
      exact h
  | periodCheck time =>
    rw [SessionOp.step, Session.periodTurn] at hs
    dsimp only at hs
    have h₁ : Controlled c (s.setTime time).checkTxwinEmpty.schd.decided := by
      rw [Session.decided_checkTxwinEmpty]
      exact h
    rw [SessionOp.check]
    generalize (s.setTime time).checkTxwinEmpty = v at h₁ hs ⊢
    obtain ⟨w, hw, hs⟩ := Option.bind_eq_some_iff.mp hs
    obtain ⟨u, -, rfl⟩ := Option.map_eq_some_iff.mp hs
    -- of the rest of the turn nothing is decided
    have hrest : w.schd.decided = v.schd.trafficControl.decided := by
      have hframe := SchdInfo.framing_decided.doSendWaitQueueData hw
      refine hframe.trans ?_
      exact ((v.setSchd v.schd.trafficControl).pktAvgUpdate.decided_delayUpdate).trans
        (Session.decided_pktAvgUpdate _)
    rw [Session.decided_rttUpdate, Session.decided_checkNoTraffic]
    refine (congrArg (Controlled _) hrest).mpr ?_
    split
    · next hdue => exact h₁.trafficControl hdue
    · next hdue =>
      rw [SchdInfo.trafficControl_idle h₁.g hdue]
      exact h₁

/-- **Traffic control is held for ten checks.** In every run of a session a subflow is under traffic
control just as long as one of its last ten checks gave cause for it, and its limit is the largest
that was found since the last cause. All subflows of the last check count as controlled when each of
them is, and the total is the sum of their limits. -/
theorem control_run (mem : Session) (hg : mem.schd.g.isTrafficCtl = true) (uid time : ℕ)
    (ops : List SessionOp) (s : Session) (c : Checks)
    (hrun : run (observe SessionOp.step SessionOp.check) ops (mem.userInfoInit uid time, {}) =
      some (s, c)) :
    (∀ f < 3, ((s.schd.traffic f).isTrafficCtl = true ↔
        ∃ l, Hold.since (c.verdicts f) = some l ∧ l.length ≤ 10) ∧
      ∀ l, Hold.since (c.verdicts f) = some l → l.length ≤ 10 →
        (s.schd.traffic f).throuputLimit = l.foldr max 10) ∧
      (s.schd.isAllFlowTrafficCtl = true ↔
        ∃ fs, c.flows = some fs ∧ ∀ f ∈ fs, (s.schd.traffic f).isTrafficCtl = true) ∧
      s.schd.throuputTotal =
        c.flows.elim 500 fun fs => u32 ((fs.map fun f => (s.schd.traffic f).throuputLimit).sum) := by
  have hstart : Controlled {} (mem.userInfoInit uid time).schd.decided :=
    ⟨fun _ _ => Hold.since_nil rfl, fun _ _ => rfl, ⟨nofun, nofun⟩, rfl, hg⟩
  have h : Controlled c s.schd.decided := by
    refine run_inv (I := fun p : Session × Checks => Controlled p.2 p.1.schd.decided)
      (fun op p p' h hs => ?_) hstart hrun
    obtain ⟨hstep, hnote⟩ := observe_eq_some.mp hs
    rw [hnote]
    exact h.step hstep
  refine ⟨fun f hf => ⟨?_, fun l hl hle => ((h.flow f hf).lasts l hl hle).2⟩, h.all, h.total⟩
  have hctl : (s.schd.traffic f).isTrafficCtl = decide (0 < (s.schd.decided.flow f).count) :=
    h.ctl f hf
  rw [hctl, decide_eq_true_iff]
  exact (h.flow f hf).count_pos

/-- Six packets go out on subflow 0 and five of them are reported missing; two checks come. -/
def lossySession : List SessionOp :=
  [.subFlowStateInd 1 3] ++ .replicate 6 (.sendNewTransData ⟨1, .replicate 12 0⟩) ++
    [.parseMPData ⟨2, MPDHeader.encode
      { flag := 0x55, fragment := 0, stream := 0, length := 5, dsn := 0, ssn := 0, ack := 0 } 0 ++
      [1, 8, 1, 0, 0, 5, 0, 5]⟩, .periodCheck 100, .periodCheck 200]

/-- The second check finds no cause, and a smaller limit. -/
theorem control_run_lossy : ∃ (s : Session) (c : Checks),
    Hold.since (c.verdicts 0) = some [72, 116] ∧ (s.schd.traffic 0).isTrafficCtl = true ∧
      (s.schd.traffic 0).throuputLimit = [72, 116].foldr max 10 ∧
      s.schd.isAllFlowTrafficCtl = true ∧ s.schd.throuputTotal = 116 := by
  have heval : (run (observe SessionOp.step SessionOp.check) lossySession
      (({ wait := { schd := { g := { isTrafficCtl := true } } } } : Session).userInfoInit 0 0, {})).map
      (fun p => (Hold.since (p.2.verdicts 0), p.1.schd.isAllFlowTrafficCtl, p.1.schd.throuputTotal)) =
      some (some [72, 116], true, 116) := by
    decide +kernel
  obtain ⟨⟨s, c⟩, hrun, hproj⟩ := Option.map_eq_some_iff.mp heval
  obtain ⟨hsince, hrest⟩ := Prod.mk.inj hproj
  obtain ⟨hall, htotal⟩ := Prod.mk.inj hrest
  have h := control_run _ rfl 0 0 lossySession s c hrun
  have hflow := h.1 0 (by omega)
  exact ⟨s, c, hsince, hflow.1.mpr ⟨_, hsince, by decide⟩, hflow.2 _ hsince (by decide), hall, htotal⟩

end Mpd

end AndroidVendor
