import AndroidVendor.Mpd.DaemonRun
import AndroidVendor.Mpd.SchdFrame

/-!
# The measures stay within bounds

The rate and the delay of a subflow are running averages, kept in 32 bits: no average leaves the
bounds of what is averaged. The rate never falls below 38, so that no function divides by zero, and
the delay never reaches 0: the branch of `MPD_SCHD_ChooseStream` for a rate of 0 and that of
`MPD_SCHD_DelayUpdate` for a delay of 0 are never taken.

## Main results

* `le_nextPktAvg`, `nextPktAvg_le`, `nextInhertDelay_bounds` — one step of the averages
* `SchdInfo.Keeps` — what the rest of a session does to the measures
* `measures_run` — the bounds, for every session in every run of MPD
-/

namespace AndroidVendor

namespace Mpd

open UserInfo Machine

/-! ### The averages -/

theorem le_nextPktAvg (r : SchdRate) (pktCnt : ℕ) : 38 ≤ Session.nextPktAvg r pktCnt := by
  have hraise : ∀ avg : ℕ, 38 ≤ if avg < 38 then max (avg * 3 / 2) 38 else avg := by
    intro avg
    split
    · exact Nat.le_max_right ..
    · omega
  exact hraise _

theorem nextPktAvg_le {A : ℕ} (hA : 128 ≤ A) {r : SchdRate} {pktCnt : ℕ} (hr : r.pktAvg ≤ A)
    (hc : u32 (pktCnt * 100) / 50 ≤ A) : Session.nextPktAvg r pktCnt ≤ A := by
  have havg : u32 (r.pktAvg * 3 + 2 * (u32 (pktCnt * 100) / 50)) / 5 ≤ A := by
    have hle : u32 (r.pktAvg * 3 + 2 * (u32 (pktCnt * 100) / 50)) ≤
        r.pktAvg * 3 + 2 * (u32 (pktCnt * 100) / 50) := Nat.mod_le _ _
    omega
  rw [Session.nextPktAvg]
  generalize u32 (r.pktAvg * 3 + 2 * (u32 (pktCnt * 100) / 50)) / 5 = pktAvg at havg ⊢
  have hmax : (if 0 < r.txWinEmptyCnt then (if r.pktAvg < pktAvg then pktAvg else r.pktAvg)
      else pktAvg) ≤ A := by
    split
    · split <;> omega
    · exact havg
  generalize (if 0 < r.txWinEmptyCnt then (if r.pktAvg < pktAvg then pktAvg else r.pktAvg)
    else pktAvg) = avg at hmax ⊢
  split
  · refine Nat.max_le.mpr ⟨?_, ?_⟩ <;> omega
  · exact hmax

theorem nextInhertDelay_bounds {B delay rtt : ℕ} (hB : 5 ≤ B) (hpos : 1 ≤ delay)
    (hdelay : delay ≤ B) (hrtt : rtt ≤ B) :
    1 ≤ Session.nextInhertDelay delay rtt ∧ Session.nextInhertDelay delay rtt ≤ B := by
  rw [Session.nextInhertDelay, if_neg (by omega)]
  have hgrow : u32 (delay * 9 + rtt) ≤ delay * 9 + rtt := Nat.mod_le _ _
  have hshrink : u32 (delay + rtt) ≤ delay + rtt := Nat.mod_le _ _
  have havg : (if delay ≤ rtt then u32 (delay * 9 + rtt) / 10 else u32 (delay + rtt) / 2) ≤ B := by
    split <;> omega
  generalize (if delay ≤ rtt then u32 (delay * 9 + rtt) / 10 else u32 (delay + rtt) / 2) = avg
    at havg ⊢
  dsimp only
  split <;> omega

/-! ### What the rest of a session keeps -/

/-- Rates and delays are as they were, and nothing was divided by zero. -/
structure SchdInfo.Keeps (s t : SchdInfo) : Prop where
  rate : ∀ f, (t.rate f).pktAvg = (s.rate f).pktAvg
  delays : HasDelays (fun g => (s.user.schdPara g).inhertDelay) t.user
  divisors : ∃ ds, t.divisors = s.divisors ++ ds ∧ ∀ d ∈ ds, d ≠ 0

section Keeps

variable {s t r : SchdInfo} {f : ℕ}

theorem SchdInfo.Keeps.refl (s : SchdInfo) : s.Keeps s :=
  ⟨fun _ => rfl, hasDelays_self s.user, [], (List.append_nil _).symm, by simp⟩

theorem SchdInfo.Keeps.trans (h : s.Keeps t) (h' : t.Keeps r) : s.Keeps r where
  rate f := (h'.rate f).trans (h.rate f)
  delays g := (h'.delays g).trans (h.delays g)
  divisors := by
    obtain ⟨ds, hds, hne⟩ := h.divisors
    obtain ⟨ds', hds', hne'⟩ := h'.divisors
    refine ⟨ds ++ ds', by rw [hds', hds, List.append_assoc], fun d hd => ?_⟩
    exact (List.mem_append.mp hd).elim (hne d) (hne' d)

/-- A step of the session itself. -/
theorem SchdInfo.Keeps.setUser (s : SchdInfo) {u : UserInfo}
    (hu : HasDelays (fun g => (s.user.schdPara g).inhertDelay) u) : s.Keeps { s with user := u } :=
  ⟨fun _ => rfl, hu, [], (List.append_nil _).symm, by simp⟩

/-- An entry that keeps its rate is rewritten. -/
theorem SchdInfo.Keeps.setRate (s : SchdInfo) {k : ℕ} {e : SchdRate}
    (he : e.pktAvg = (s.rate k).pktAvg) : s.Keeps (s.setRate k e) where
  rate f := by
    show (Function.update s.rate k e f).pktAvg = (s.rate f).pktAvg
    by_cases hf : f = k
    · rw [hf, Function.update_self, he]
    · rw [Function.update_of_ne hf]
  delays := hasDelays_self s.user
  divisors := ⟨[], (List.append_nil _).symm, by simp⟩

theorem SchdInfo.Keeps.chooseStream (s : SchdInfo) : s.Keeps s.chooseStream.2 := by
  have h := progress_chooseStream s
  rw [SchdInfo.chooseStream]
  dsimp only
  generalize [0, 1, 2].foldl SchdInfo.chooseFlow
    ⟨{ s with isMpStopSched := true }, 255, 4294967295⟩ = c at h
  have hloop : s.Keeps c.info := ⟨fun f => by rw [h.rate], fun g => by rw [h.schdPara], h.divisors⟩
  have hcount := Keeps.setRate (c.info.touch c.result) (k := c.result) (e :=
    { (c.info.touch c.result).rate c.result with
      pktChooseCnt := u32 (((c.info.touch c.result).rate c.result).pktChooseCnt + 1)
      isSendPkt := true }) rfl
  exact hloop.trans ⟨hcount.rate, hcount.delays, hcount.divisors⟩

theorem SchdInfo.framing_keeps : SchdInfo.Framing SchdInfo.Keeps where
  refl := .refl
  trans h := h.trans
  setUser s _ := .setUser s
  chooseStream := .chooseStream

end Keeps

/-! ### The invariant -/

namespace Session

variable {A B : ℕ} {s t : Session} {f : ℕ}

/-- The measures of a session, with rates up to `A` and delays up to `B`. -/
structure Measured (A B : ℕ) (s : Session) : Prop where
  rate : ∀ f < 3, 38 ≤ (s.schd.rate f).pktAvg ∧ (s.schd.rate f).pktAvg ≤ A
  delay : ∀ f < 3, 1 ≤ (s.user.schdPara f).inhertDelay ∧ (s.user.schdPara f).inhertDelay ≤ B
  factor : ∀ f < 3, (s.flow f).modifyFactor ≤ 263
  divisors : ∀ d ∈ s.schd.divisors, d ≠ 0

/-- What is averaged next lies within the bounds. -/
def Paced (A B : ℕ) (s : Session) : Prop :=
  ∀ f < 3, u32 ((s.user.schdPara f).pktCnt * 100) / 50 ≤ A ∧
    u32 ((s.user.schdPara f).rttNew * 10) ≤ B ∧ u32 (s.rtts f) ≤ B

instance (A B : ℕ) (s : Session) : Decidable (s.Paced A B) :=
  inferInstanceAs (Decidable (∀ _ < _, _))

/-- Whatever is averaged, it is a number of 32 bits. -/
theorem paced_always (s : Session) : s.Paced 85899345 4294967295 := by
  have hu32 : ∀ x, u32 x ≤ 4294967295 := fun x =>
    Nat.le_of_lt_succ (Nat.mod_lt x (by omega : 0 < 4294967296))
  intro f _
  exact ⟨Nat.div_le_div_right (c := 50) (hu32 _), hu32 _, hu32 _⟩

theorem Paced.congr (h : s.Paced A B) (hp : t.user.schdPara = s.user.schdPara)
    (hr : t.rtts = s.rtts) : t.Paced A B := by
  intro f hf
  rw [hp, hr]
  exact h f hf

/-- An entry is rewritten that counts no more packets, and no slower ones. -/
theorem Paced.setSchdPara (h : s.Paced A B) (k : ℕ) {p : SchdStreamPara}
    (ht : t.user.schdPara = Function.update s.user.schdPara k p)
    (hc : p.pktCnt = 0 ∨ p.pktCnt = (s.user.schdPara k).pktCnt)
    (hr : p.rttNew = (s.user.schdPara k).rttNew) (hrtts : t.rtts = s.rtts) : t.Paced A B := by
  intro f hf
  rw [ht, hrtts]
  by_cases hfk : f = k
  · subst hfk
    obtain ⟨hcnt, hrtt⟩ := h f hf
    rw [Function.update_self, hr]
    refine ⟨?_, hrtt⟩
    rcases hc with hc | hc
    · rw [hc]
      exact Nat.zero_le _
    · rw [hc]
      exact hcnt
  · rw [Function.update_of_ne hfk]
    exact h f hf

theorem Measured.keeps (h : s.Measured A B) (hk : s.schd.Keeps t.schd)
    (hf : ∀ f, (t.flow f).modifyFactor = (s.flow f).modifyFactor) : t.Measured A B where
  rate f hf := by
    rw [hk.rate f]
    exact h.rate f hf
  delay f hf := by
    have hd : (t.user.schdPara f).inhertDelay = (s.user.schdPara f).inhertDelay := hk.delays f
    rw [hd]
    exact h.delay f hf
  factor f hf' := by
    rw [hf f]
    exact h.factor f hf'
  divisors d hd := by
    obtain ⟨ds, hds, hne⟩ := hk.divisors
    rw [hds] at hd
    exact (List.mem_append.mp hd).elim (h.divisors d) (hne d)

/-- A step of the windows. -/
theorem Measured.setUser (h : s.Measured A B) {u : UserInfo}
    (hu : HasDelays (fun g => (s.user.schdPara g).inhertDelay) u) : (s.setUser u).Measured A B :=
  h.keeps (.setUser s.schd hu) (fun _ => rfl)

theorem Measured.checkTxwinEmpty (h : s.Measured A B) (hp : s.Paced A B) :
    s.checkTxwinEmpty.Measured A B ∧ s.checkTxwinEmpty.Paced A B := by
  have hflow : ∀ (v : Session) (k : ℕ), v.Measured A B ∧ v.Paced A B →
      (v.checkTxwinEmptyFlow k).Measured A B ∧ (v.checkTxwinEmptyFlow k).Paced A B := by
    intro v k hv
    rw [checkTxwinEmptyFlow]
    split
    · exact ⟨hv.1.keeps (.setRate v.schd rfl) (fun _ => rfl), hv.2.congr rfl rfl⟩
    · exact hv
  rw [Session.checkTxwinEmpty]
  split
  · exact hflow _ 2 (hflow _ 1 (hflow s 0 ⟨h, hp⟩))
  · exact ⟨h, hp⟩

theorem Measured.trafficControl (h : s.Measured A B) (hp : s.Paced A B) :
    (s.setSchd s.schd.trafficControl).Measured A B ∧
      (s.setSchd s.schd.trafficControl).Paced A B := by
  have hframe := SchdInfo.trafficControl_frame s.schd
  refine ⟨h.keeps ⟨fun f => by rw [schd_setSchd, hframe.rate], ?_, [], ?_, by simp⟩ (fun _ => rfl),
    hp.congr hframe.schdPara rfl⟩
  · exact (hasDelays_self s.user).congr hframe.schdPara
  · rw [schd_setSchd, hframe.divisors, List.append_nil]

/-- The rate of one subflow is measured. -/
theorem Measured.pktAvgUpdateFlow (hA : 128 ≤ A) (hA' : A ≤ 85899345) (h : s.Measured A B)
    (hp : s.Paced A B) {k : ℕ} (hk : k < 3) :
    (s.pktAvgUpdateFlow k).Measured A B ∧ (s.pktAvgUpdateFlow k).Paced A B := by
  have hlow := le_nextPktAvg (s.schd.rate k) (s.user.schdPara k).pktCnt
  have hhigh := nextPktAvg_le hA (h.rate k hk).2 (hp k hk).1
  rw [Session.pktAvgUpdateFlow]
  split
  · exact ⟨h, hp⟩
  dsimp only
  generalize nextPktAvg (s.schd.rate k) (s.user.schdPara k).pktCnt = avg at hlow hhigh ⊢
  -- what the factor is divided by
  have hdiv : 38 ≤ (if 0 < (s.schd.rate k).txWinEmptyCnt then u32 (avg * 6) / 5 else avg) := by
    have hcut : u32 (avg * 6) = avg * 6 := Nat.mod_eq_of_lt (by omega)
    rw [hcut]
    split <;> omega
  generalize (if 0 < (s.schd.rate k).txWinEmptyCnt then u32 (avg * 6) / 5 else avg) = pktAvgTmp
    at hdiv ⊢
  rw [if_pos (by omega)]
  have hfactor : u32 10000 / pktAvgTmp ≤ 263 := by
    refine (Nat.div_le_div_left hdiv (by omega)).trans ?_
    decide
  refine ⟨⟨fun f hf => ?_, fun f hf => ?_, fun f hf => ?_, fun d hd => ?_⟩, ?_⟩
  · simp only [Session.schd, Session.setUser, WaitInfo.setUser, Session.setSchd, Session.setFlow,
      SchdInfo.setRate, SchdInfo.divide, Function.update_apply]
    split
    · exact ⟨hlow, hhigh⟩
    · exact h.rate f hf
  · simp only [Session.setUser, WaitInfo.setUser, Session.user, UserInfo.setSchdPara,
      Session.setSchd, Session.setFlow, Session.schd, SchdInfo.setRate, SchdInfo.divide,
      Function.update_apply]
    split
    · next heq => exact heq ▸ h.delay f hf
    · exact h.delay f hf
  · simp only [Session.setUser, Session.setSchd, Session.setFlow, SchdInfo.divide,
      Function.update_apply]
    split
    · exact hfactor
    · exact h.factor f hf
  · simp only [Session.schd, Session.setUser, WaitInfo.setUser, Session.setSchd, Session.setFlow,
      SchdInfo.setRate, SchdInfo.divide, List.mem_append, List.mem_singleton] at hd
    rcases hd with hd | rfl
    · exact h.divisors d hd
    · omega
  · exact hp.setSchdPara k rfl (.inl rfl) rfl rfl

theorem Measured.pktAvgUpdate (hA : 128 ≤ A) (hA' : A ≤ 85899345) (h : s.Measured A B)
    (hp : s.Paced A B) : s.pktAvgUpdate.Measured A B ∧ s.pktAvgUpdate.Paced A B := by
  rw [Session.pktAvgUpdate]
  split
  · obtain ⟨h₀, hp₀⟩ := h.pktAvgUpdateFlow hA hA' hp (k := 0) (by omega)
    obtain ⟨h₁, hp₁⟩ := h₀.pktAvgUpdateFlow hA hA' hp₀ (k := 1) (by omega)
    exact h₁.pktAvgUpdateFlow hA hA' hp₁ (by omega)
  · exact ⟨h, hp⟩

/-- The delay of one subflow is set to a value within the bounds. -/
theorem Measured.setDelay (h : s.Measured A B) {k : ℕ} {p : SchdStreamPara}
    (ht : t.user.schdPara = Function.update s.user.schdPara k p)
    (hpos : 1 ≤ p.inhertDelay) (hle : p.inhertDelay ≤ B)
    (hrate : t.schd.rate = s.schd.rate) (hdiv : t.schd.divisors = s.schd.divisors)
    (hfactor : ∀ f, (t.flow f).modifyFactor = (s.flow f).modifyFactor) : t.Measured A B where
  rate f hf := by
    rw [hrate]
    exact h.rate f hf
  delay f hf := by
    rw [ht, Function.update_apply]
    split
    · exact ⟨hpos, hle⟩
    · exact h.delay f hf
  factor f hf := by
    rw [hfactor f]
    exact h.factor f hf
  divisors := by
    rw [hdiv]
    exact h.divisors

/-- Only what is remembered of a subflow is rewritten. -/
theorem setFlow_factor {k : ℕ} {m : FlowMeasure} (hm : m.modifyFactor = (s.flow k).modifyFactor)
    (f : ℕ) : ((s.setFlow k m).flow f).modifyFactor = (s.flow f).modifyFactor := by
  show (Function.update s.flow k m f).modifyFactor = (s.flow f).modifyFactor
  rw [Function.update_apply]
  split
  · next heq => rw [heq, hm]
  · rfl

theorem Measured.delayUpdate (hB : 5 ≤ B) (h : s.Measured A B) (hp : s.Paced A B) :
    s.delayUpdate.Measured A B ∧ s.delayUpdate.Paced A B := by
  have hflow : ∀ (v : Session) (k : ℕ), k < 3 → v.Measured A B ∧ v.Paced A B →
      (v.delayUpdateFlow k).Measured A B ∧ (v.delayUpdateFlow k).Paced A B := by
    intro v k hk hv
    rw [delayUpdateFlow]
    dsimp only
    split
    · obtain ⟨hpos, hle⟩ :=
        nextInhertDelay_bounds hB (hv.1.delay k hk).1 (hv.1.delay k hk).2 (hv.2 k hk).2.1
      exact ⟨hv.1.setDelay rfl hpos hle rfl rfl (setFlow_factor rfl),
        hv.2.setSchdPara k rfl (.inr rfl) rfl rfl⟩
    · exact hv
  rw [Session.delayUpdate]
  split
  · exact hflow _ 2 (by omega) (hflow _ 1 (by omega) (hflow s 0 (by omega) ⟨h, hp⟩))
  · exact ⟨h, hp⟩

/-- One answer of `GetRTTC` is used up at most. -/
theorem Measured.rttUpdateFlow (h : s.Measured A B) {n : ℕ} (hr : ∀ i < n + 1, u32 (s.rtts i) ≤ B)
    (k : ℕ) :
    (s.rttUpdateFlow k).Measured A B ∧ ∀ i < n, u32 ((s.rttUpdateFlow k).rtts i) ≤ B := by
  rw [Session.rttUpdateFlow]
  split
  · exact ⟨h, fun i hi => hr i (by omega)⟩
  split
  · exact ⟨h.keeps (.refl _) (setFlow_factor rfl), fun i hi => hr i (by omega)⟩
  dsimp only
  split
  · next hpos =>
    exact ⟨h.setDelay rfl hpos (hr 0 (by omega)) rfl rfl (fun _ => rfl),
      fun i hi => hr (i + 1) (by omega)⟩
  · exact ⟨⟨h.rate, h.delay, h.factor, h.divisors⟩, fun i hi => hr (i + 1) (by omega)⟩

theorem Measured.rttUpdate (h : s.Measured A B) (hr : ∀ i < 3, u32 (s.rtts i) ≤ B) :
    s.rttUpdate.Measured A B := by
  rw [Session.rttUpdate]
  split
  · obtain ⟨h₀, hr₀⟩ := h.rttUpdateFlow hr 0
    obtain ⟨h₁, hr₁⟩ := h₀.rttUpdateFlow hr₀ 1
    exact (h₁.rttUpdateFlow (n := 0) hr₁ 2).1
  · exact h

theorem Measured.checkNoTraffic (h : s.Measured A B) :
    s.checkNoTraffic.Measured A B ∧ s.checkNoTraffic.rtts = s.rtts := by
  have hflow : ∀ (c : Bool × Session) (k : ℕ), c.2.Measured A B ∧ c.2.rtts = s.rtts →
      (checkNoTrafficFlow c k).2.Measured A B ∧ (checkNoTrafficFlow c k).2.rtts = s.rtts := by
    intro c k hc
    have hmark : ∀ m : FlowMeasure, m.modifyFactor = (c.2.flow k).modifyFactor →
        (c.2.setFlow k m).Measured A B ∧ (c.2.setFlow k m).rtts = s.rtts :=
      fun m hm => ⟨hc.1.keeps (.refl _) (setFlow_factor hm), hc.2⟩
    rw [checkNoTrafficFlow]
    dsimp only
    split
    · exact hc
    split
    · exact hmark _ rfl
    split
    · exact hmark _ rfl
    split
    · exact hmark _ rfl
    · exact hc
  rw [Session.checkNoTraffic]
  split
  · have hloop := hflow _ 2 (hflow _ 1 (hflow (true, s) 0 ⟨h, rfl⟩))
    dsimp only [List.foldl_cons, List.foldl_nil]
    split
    · exact ⟨hloop.1.setUser ((hasDelays_self _).congr rfl), hloop.2⟩
    · exact hloop
  · exact ⟨h, rfl⟩

/-! ### Steps -/

theorem Measured.periodTurn (hA : 128 ≤ A) (hA' : A ≤ 85899345) (hB : 5 ≤ B)
    (h : s.Measured A B) (hp : s.Paced A B) (ht : s.periodTurn = some t) : t.Measured A B := by
  rw [Session.periodTurn] at ht
  dsimp only at ht
  obtain ⟨h₁, hp₁⟩ := h.checkTxwinEmpty hp
  obtain ⟨h₂, hp₂⟩ := h₁.trafficControl hp₁
  obtain ⟨h₃, hp₃⟩ := h₂.pktAvgUpdate hA hA' hp₂
  obtain ⟨h₄, hp₄⟩ := h₃.delayUpdate hB hp₃
  obtain ⟨w, hw, ht⟩ := Option.bind_eq_some_iff.mp ht
  obtain ⟨u, hu, rfl⟩ := Option.map_eq_some_iff.mp ht
  have h₅ := h₄.keeps (t := { (s.checkTxwinEmpty.setSchd
    s.checkTxwinEmpty.schd.trafficControl).pktAvgUpdate.delayUpdate with wait := w })
    (SchdInfo.framing_keeps.doSendWaitQueueData hw) (fun _ => rfl)
  have hrtts : ∀ f < 3, u32 ((s.checkTxwinEmpty.setSchd
    s.checkTxwinEmpty.schd.trafficControl).pktAvgUpdate.delayUpdate.rtts f) ≤ B :=
    fun f hf => (hp₄ f hf).2.2
  generalize (s.checkTxwinEmpty.setSchd
    s.checkTxwinEmpty.schd.trafficControl).pktAvgUpdate.delayUpdate = v at h₅ hu hrtts ⊢
  have hsuspend : HasDelays (fun g => (w.schd.user.schdPara g).inhertDelay)
      w.schd.user.timeoutTxWinSuspend := by
    rw [UserInfo.timeoutTxWinSuspend_eq]
    exact (hasDelays_self _).congr rfl
  have hu' := (HasDelays.rxFree _).frame.dataWinTimeOutCheck hsuspend hu
  have hrest := ((HasDelays.rxFree _).checkAck hu'.sackPeriodSend).txWinRetransCheck
  obtain ⟨h₆, hr₆⟩ := (h₅.setUser hrest).checkNoTraffic
  refine h₆.rttUpdate ?_
  rw [hr₆]
  exact hrtts

theorem Measured.stateInd {deviceId state : ℕ} (h : s.Measured A B)
    (ht : s.stateInd deviceId state = some t) : t.Measured A B := by
  rw [Session.stateInd] at ht
  obtain ⟨u, hu, ht⟩ := Option.bind_eq_some_iff.mp ht
  have hforget : ∀ (v : Session) (fs : List ℕ) (f : ℕ),
      ((v.forget fs).flow f).modifyFactor = (v.flow f).modifyFactor := by
    intro v fs f
    rw [forget]
    dsimp only
    split <;> rfl
  have h₁ := (h.setUser ((hasDelays_self _).doSubFlowStateInd hu)).keeps
    (t := (s.setUser u).forget (s.clearedFlows deviceId state)) (.refl _) (hforget _ _)
  dsimp only at ht
  split at ht
  · obtain ⟨w, hw, rfl⟩ := Option.map_eq_some_iff.mp ht
    refine h₁.keeps ((SchdInfo.framing_keeps.clearWaitQueue hw).trans ?_) (fun _ => rfl)
    exact ⟨fun _ => rfl, fun _ => rfl, [], (List.append_nil _).symm, by simp⟩
  · cases ht
    exact h₁

end Session

/-- At a tick the session is `Paced`. -/
def SessionOp.Paced (A B : ℕ) (s : Session) : SessionOp → Prop
  | .periodCheck _ => s.Paced A B
  | _ => True

variable {A B : ℕ} {s t : Session}

/-- **One step** keeps the measures within their bounds. -/
theorem Session.Measured.step {op : SessionOp} (hA : 128 ≤ A) (hA' : A ≤ 85899345) (hB : 5 ≤ B)
    (h : s.Measured A B) (hp : op.Paced A B s) (hs : op.step s = some t) : t.Measured A B := by
  cases op with
  | parseMPData m =>
    obtain ⟨u, hu, rfl⟩ := Option.map_eq_some_iff.mp hs
    exact h.setUser ((hasDelays_self _).doParseMPData hu)
  | sendNewTransData data =>
    cases hs
    exact h.keeps (SchdInfo.framing_keeps.transNewData s.wait data _) (fun _ => rfl)
  | subFlowStateInd deviceId state => exact h.stateInd hs
  | periodCheck time =>
    have h₁ : (s.setTime time).Measured A B := h.setUser ((hasDelays_self _).congr rfl)
    exact h₁.periodTurn hA hA' hB (Session.Paced.congr hp rfl rfl) hs

/-- A session starts with a rate of 128 and a delay of 5 on every subflow. -/
theorem measured_init (hA : 128 ≤ A) (hB : 5 ≤ B) (mem : Session) (uid time : ℕ) :
    (mem.userInfoInit uid time).Measured A B where
  rate _ _ := ⟨by show 38 ≤ 128; omega, hA⟩
  delay _ _ := ⟨by show 1 ≤ 5; omega, hB⟩
  factor _ _ := by show 100 ≤ 263; omega
  divisors _ hd := absurd hd List.not_mem_nil

/-! ### Runs of MPD -/

/-- At a tick all sessions are `Paced`. -/
def DaemonOp.Paced (A B : ℕ) (d : Daemon) : DaemonOp → Prop
  | .periodCheck => ∀ i < 100, ∀ s ∈ d.pUserInfo i, s.Paced A B
  | _ => True

instance (A B : ℕ) (d : Daemon) : DecidablePred (DaemonOp.Paced A B d)
  | .periodCheck => inferInstanceAs (Decidable (∀ i < 100, ∀ s ∈ d.pUserInfo i, s.Paced A B))
  | .creatUserSession .. | .deleteUserSession _ | .parseMPData .. | .sendNewTransData ..
  | .subFlowStateInd .. => isTrue trivial

theorem DaemonOp.label_start {op : DaemonOp} {d : Daemon} {i : ℕ}
    (h : op.label d = .start i s) : ∃ mem uid, s = Session.userInfoInit mem uid d.time := by
  cases op with
  | creatUserSession uid mem =>
    unfold DaemonOp.label at h
    dsimp only at h
    split at h
    · next mem _ =>
      obtain ⟨-, rfl⟩ := FamilyOp.start.inj h
      exact ⟨mem, uid, rfl⟩
    · exact nomatch h
  | deleteUserSession | parseMPData | sendNewTransData | subFlowStateInd | periodCheck =>
    exact nomatch h

/-- A call that meets the condition gives to each session a step that does. -/
theorem DaemonOp.Paced.session {op : DaemonOp} {d : Daemon} (hp : op.Paced A B d) {i : ℕ}
    (hi : i < 100) {a : SessionOp} (ha : op.label d = .one i a ∨ op.label d = .all a)
    (hs : d.pUserInfo i = some s) : a.Paced A B s := by
  cases op with
  | creatUserSession uid mem =>
    unfold DaemonOp.label at ha
    dsimp only at ha
    split at ha <;> simp at ha
  | deleteUserSession => simp [DaemonOp.label] at ha
  | parseMPData | sendNewTransData | subFlowStateInd =>
    simp only [DaemonOp.label, FamilyOp.one.injEq, reduceCtorEq, or_false] at ha
    rw [← ha.2]
    trivial
  | periodCheck =>
    simp only [DaemonOp.label, reduceCtorEq, FamilyOp.all.injEq, false_or] at ha
    rw [← ha]
    exact hp i hi s hs

/-- The measures of all sessions stay within bounds, if what is averaged does. -/
theorem measured_guarded (hA : 128 ≤ A) (hA' : A ≤ 85899345) (hB : 5 ≤ B) {ops : List DaemonOp}
    {d : Daemon} (hrun : Guarded DaemonOp.step (fun _ d op => op.Paced A B d) {} ops d) {i : ℕ}
    (hs : d.pUserInfo i = some s) : s.Measured A B := by
  have hinv : ∃ history, Tabled d history ∧ ∀ i s, d.pUserInfo i = some s → s.Measured A B := by
    refine hrun.inv (I := fun _ d => ∃ history, Tabled d history ∧
      ∀ i s, d.pUserInfo i = some s → s.Measured A B) ?_ ⟨[], tabled_init, fun _ _ => nofun⟩
    rintro ops op d d' ⟨history, htab, hmeas⟩ hp hstep
    refine ⟨_, htab.step hstep, fun i s hs => ?_⟩
    rw [htab.acts hstep i] at hs
    refine FamilyOp.acts_inv (hmeas i) (fun s hstart => ?_) (fun a t t' ha ht ht' => ?_) hs
    · obtain ⟨mem, uid, rfl⟩ := DaemonOp.label_start hstart
      exact measured_init hA hB mem uid d.time
    · have hi : i < 100 := by
        by_contra hout
        rw [htab.inside i (by omega)] at ht
        exact nomatch ht
      exact (hmeas i t ht).step hA hA' hB (hp.session hi ha ht) ht'
  obtain ⟨-, -, hall⟩ := hinv
  exact hall i s hs

/-- **The measures stay within bounds.** In every run of MPD the rates of a session are at least 38
and its delays at least 1, and no function divides by zero. If what is averaged at the ticks stays
below `A` and `B`, so do the averages. -/
theorem measures_run (ops : List DaemonOp) (d : Daemon) (hrun : run DaemonOp.step ops {} = some d)
    (i : ℕ) (s : Session) (hs : d.pUserInfo i = some s) :
    s.Measured 85899345 4294967295 ∧ ∀ A B, 128 ≤ A → A ≤ 85899345 → 5 ≤ B →
      Meets DaemonOp.step (fun _ d op => op.Paced A B d) [] ops {} → s.Measured A B := by
  have hall : ∀ A B, 128 ≤ A → A ≤ 85899345 → 5 ≤ B →
      Meets DaemonOp.step (fun _ d op => op.Paced A B d) [] ops {} → s.Measured A B :=
    fun A B hA hA' hB hmeets => measured_guarded hA hA' hB (hmeets.guarded hrun) hs
  refine ⟨hall _ _ (by omega) (by omega) (by omega) (.of_forall fun _ d op _ => ?_), hall⟩
  cases op with
  | periodCheck => exact fun _ _ s _ => s.paced_always
  | creatUserSession | deleteUserSession | parseMPData | sendNewTransData | subFlowStateInd =>
    trivial

/-- Subflow 0 sends a packet, which is confirmed two ticks later, and is measured once. -/
def oneConfirmed : List DaemonOp :=
  [.creatUserSession 0 (some {}), .subFlowStateInd 0 1 3, .sendNewTransData 0 ⟨1, .replicate 12 0⟩,
    .periodCheck, .periodCheck, .parseMPData 0 ⟨2, [0x55, 48, 0, 0, 0, 0, 0, 1, 0, 0, 0, 0]⟩] ++
    .replicate 50 .periodCheck

theorem measures_run_one : ∃ (d : Daemon) (s : Session), d.pUserInfo 0 = some s ∧
    (s.user.schdPara 0).inhertDelay = 6 ∧ s.schd.divisors = [128, 153] ∧
    s.Measured 85899345 4294967295 ∧ s.Measured 128 20 := by
  have heval : ((run DaemonOp.step oneConfirmed {}).bind fun d => d.pUserInfo 0).map
      (fun s => ((s.user.schdPara 0).inhertDelay, s.schd.divisors)) = some (6, [128, 153]) := by
    decide +kernel
  obtain ⟨s, hs, hproj⟩ := Option.map_eq_some_iff.mp heval
  obtain ⟨d, hrun, hs⟩ := Option.bind_eq_some_iff.mp hs
  obtain ⟨hdelay, hdivisors⟩ := Prod.mk.inj hproj
  have h := measures_run oneConfirmed d hrun 0 s hs
  exact ⟨d, s, hs, hdelay, hdivisors, h.1,
    h.2 128 20 (by omega) (by omega) (by omega) (by decide +kernel)⟩

end Mpd

end AndroidVendor
