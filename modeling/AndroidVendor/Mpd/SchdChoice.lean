import AndroidVendor.Mpd.Schd

/-!
# Which subflow is chosen

`MPD_SCHD_ChooseStream` looks at the subflows in order and keeps the first one with the least delay.
Three things keep it from being a sound choice. The delays are compared as cut to 32 bits; a flow
that has used up its quota is stopped by the very call that may still choose it; and when no flow is
left, the code goes on to count `INVALID_STREAM` as chosen, in tables of three entries.

## Main results

* `Progress.chooseFlow` — one turn of the loop
* `cutDelay_eq` — delays that fit are not cut
* `chooseStream_iff` — the choice is sound on every table with a flow left, delays that fit, and no
  used-up quota that is not behind one with something left; with delays that fit, on no other
-/

namespace AndroidVendor

namespace Mpd

namespace SchdInfo

/-! ### The table a choice finds -/

/-- The packets `MPD_getHistAcnt` counts as not sent. -/
def hist (s : SchdInfo) (f : ℕ) : ℕ :=
  ((s.user.txWindow f).getHistAcnt s.user.time (s.rate f).pktAvg).1

/-- A subflow that may be chosen as far as its state goes. -/
def Valid (s : SchdInfo) (f : ℕ) : Prop := f < 3 ∧ schdGetFlowValid s.user f = true

/-- Traffic control has stopped the flow. -/
def Stopped (s : SchdInfo) (f : ℕ) : Prop :=
  (s.traffic f).isTrafficCtl = true ∧ (s.traffic f).isPktTxStop = true

/-- The flow has used up its quota. -/
def Exhausted (s : SchdInfo) (f : ℕ) : Prop :=
  (s.traffic f).isTrafficCtl = true ∧ (s.traffic f).throuputLimit ≤ (s.traffic f).pktCntTx

/-- The flow may be chosen: it is valid, and traffic control has not stopped it. -/
def Left (s : SchdInfo) (f : ℕ) : Prop := s.Valid f ∧ ¬ s.Stopped f

/-- What is taken off the packets of the flow: `g_MminusPkt` for subflow 0. -/
def minusPkt (s : SchdInfo) (f : ℕ) : ℕ := if f = 0 then s.g.mminusPkt else 0

/-- The predicted delay: `InhertDelay`, and the packets not sent over `PktAvg`, less what subflow 0
is allowed. Nothing is added where no rate is known. -/
def predicted (s : SchdInfo) (f : ℕ) : ℕ :=
  s.baseDelay f + s.hist f * 1000 / (s.rate f).pktAvg - s.minusPkt f * 1000 / (s.rate f).pktAvg

/-- The predicted delay of the flow and what goes into it fit 32 bits, and it is not the number that
the comparison starts with. -/
def DelayFits (s : SchdInfo) (f : ℕ) : Prop :=
  s.hist f * 1000 < 4294967296 ∧ s.minusPkt f * 1000 < 4294967296 ∧
    s.baseDelay f + s.hist f * 1000 / (s.rate f).pktAvg < 4294967296 ∧ s.predicted f < 4294967295

/-- Flow `f` is better than flow `j`: its predicted delay is less, or it is the same and the flow
comes first. -/
def Ahead (s : SchdInfo) (f j : ℕ) : Prop :=
  s.predicted f < s.predicted j ∨ s.predicted f = s.predicted j ∧ f < j

/-- Such a delay in 32 bits. -/
def cutSum (base histNum pktAvg minus : ℕ) : ℕ :=
  if 0 < pktAvg then u32 (base + u32 (histNum * 1000) / pktAvg) - u32 (minus * 1000) / pktAvg
  else base

/-- The predicted delay in 32 bits. -/
def cutDelay (s : SchdInfo) (f : ℕ) : ℕ :=
  cutSum (s.baseDelay f) (s.hist f) (s.rate f).pktAvg (s.minusPkt f)

/-- The first of the flows left with the least delay in 32 bits, if that is below `minWCnt`. -/
def Pick (s : SchdInfo) (f : ℕ) : Prop :=
  s.Left f ∧ s.cutDelay f < 4294967295 ∧
    ∀ j, s.Left j → s.cutDelay f ≤ s.cutDelay j ∧ (j < f → s.cutDelay f < s.cutDelay j)

instance (s : SchdInfo) (f : ℕ) : Decidable (s.Valid f) := inferInstanceAs (Decidable (_ ∧ _))

instance (s : SchdInfo) (f : ℕ) : Decidable (s.Stopped f) := inferInstanceAs (Decidable (_ ∧ _))

instance (s : SchdInfo) (f : ℕ) : Decidable (s.Exhausted f) := inferInstanceAs (Decidable (_ ∧ _))

instance (s : SchdInfo) (f : ℕ) : Decidable (s.Left f) := inferInstanceAs (Decidable (_ ∧ _))

instance (s : SchdInfo) (f : ℕ) : Decidable (s.DelayFits f) := inferInstanceAs (Decidable (_ ∧ _))

instance (s : SchdInfo) (f j : ℕ) : Decidable (s.Ahead f j) := inferInstanceAs (Decidable (_ ∨ _))

/-- Delays that fit into 32 bits are not cut. -/
theorem cutDelay_eq {s : SchdInfo} {f : ℕ} (h : s.DelayFits f) : s.cutDelay f = s.predicted f := by
  obtain ⟨hhist, hminus, hsum, -⟩ := h
  rw [cutDelay, cutSum, predicted]
  simp only [u32, Nat.mod_eq_of_lt hhist, Nat.mod_eq_of_lt hminus, Nat.mod_eq_of_lt hsum]
  split
  · rfl
  · next hzero =>
    rw [Nat.eq_zero_of_not_pos hzero]
    simp

/-! ### The first least key -/

/-- What a search for the first least key below `top` has found among the first `k` flows: flow
`result`, with key `least`; or nothing. -/
def Leads (P : ℕ → Prop) (key : ℕ → ℕ) (top k result least : ℕ) : Prop :=
  (result = 255 ∧ least = top ∧ ∀ j < k, P j → top ≤ key j) ∨
    (result < k ∧ P result ∧ least = key result ∧ least < top ∧
      ∀ j < k, P j → least ≤ key j ∧ (j < result → least < key j))

section Leads

variable {P : ℕ → Prop} {key : ℕ → ℕ} {top k result least : ℕ}

theorem leads_init (P : ℕ → Prop) (key : ℕ → ℕ) (top : ℕ) : Leads P key top 0 255 top :=
  .inl ⟨rfl, rfl, fun _ hj => absurd hj (Nat.not_lt_zero _)⟩

theorem Leads.least_le (h : Leads P key top k result least) : least ≤ top := by
  rcases h with ⟨-, hl, -⟩ | ⟨-, -, -, hl, -⟩ <;> omega

theorem Leads.le_key (h : Leads P key top k result least) {j : ℕ} (hj : j < k) (hP : P j) :
    least ≤ key j := by
  rcases h with ⟨-, hl, hall⟩ | ⟨-, -, -, -, hall⟩
  · exact hl ▸ hall j hj hP
  · exact (hall j hj hP).1

/-- A flow that does not count, or whose key is not less. -/
theorem Leads.skip (h : Leads P key top k result least) (hskip : P k → least ≤ key k) :
    Leads P key top (k + 1) result least := by
  rcases h with ⟨hr, hl, hall⟩ | ⟨hr, hP, hl, hlt, hall⟩
  · refine .inl ⟨hr, hl, fun j hj hPj => ?_⟩
    rcases Nat.lt_succ_iff_lt_or_eq.mp hj with hj | rfl
    · exact hall j hj hPj
    · exact hl ▸ hskip hPj
  · refine .inr ⟨by omega, hP, hl, hlt, fun j hj hPj => ?_⟩
    rcases Nat.lt_succ_iff_lt_or_eq.mp hj with hj | rfl
    · exact hall j hj hPj
    · exact ⟨hskip hPj, by omega⟩

/-- A flow that takes the lead. -/
theorem Leads.take (h : Leads P key top k result least) (hP : P k) (hlt : key k < least) :
    Leads P key top (k + 1) k (key k) := by
  have htop := h.least_le
  refine .inr ⟨by omega, hP, rfl, by omega, fun j hj hPj => ?_⟩
  rcases Nat.lt_succ_iff_lt_or_eq.mp hj with hj | rfl
  · have := h.le_key hj hPj
    omega
  · exact ⟨le_rfl, by omega⟩

end Leads

/-! ### One turn of the loop -/

theorem wCntFlow_eq (s : SchdInfo) (f histNum : ℕ) :
    ∃ ds, (s.wCntFlow f histNum).2 = { s with divisors := s.divisors ++ ds } ∧ ∀ d ∈ ds, d ≠ 0 := by
  rw [wCntFlow]
  dsimp only [divide]
  split
  · next hpos =>
    have hne : (s.rate f).pktAvg ≠ 0 := by omega
    split
    · refine ⟨[(s.rate f).pktAvg, (s.rate f).pktAvg], by simp, ?_⟩
      simpa using hne
    · refine ⟨[(s.rate f).pktAvg], rfl, ?_⟩
      simpa using hne
  · exact ⟨[], by simp, by simp⟩

theorem wCntFlow_fst (s : SchdInfo) (f histNum : ℕ) :
    (s.wCntFlow f histNum).1 =
      cutSum (s.baseDelay f) histNum (s.rate f).pktAvg (s.minusPkt f) := by
  rw [wCntFlow, cutSum, minusPkt]
  dsimp only [divide]
  split
  · split
    · next h =>
      rw [if_pos h.1]
      dsimp only
      split <;> omega
    · next h =>
      by_cases hf : f = 0
      · have hzero : s.g.mminusPkt = 0 := not_not.mp fun hne => h ⟨hf, hne⟩
        simp [hf, hzero, u32]
      · simp [hf, u32]
  · rfl

/-- How far the loop has come: it has stopped the flows with nothing left among the first `k`,
counted their histories, and found the first least delay. -/
structure Progress (s : SchdInfo) (k : ℕ) (c : Choice) : Prop where
  schdPara : c.info.user.schdPara = s.user.schdPara
  time : c.info.user.time = s.user.time
  txWindow : ∀ f, k ≤ f → c.info.user.txWindow f = s.user.txWindow f
  rate : c.info.rate = s.rate
  g : c.info.g = s.g
  traffic : ∀ f, c.info.traffic f =
    if f < k ∧ s.Valid f ∧ ¬ s.Stopped f ∧ s.Exhausted f then
      { s.traffic f with isPktTxStop := true }
    else s.traffic f
  leads : Leads s.Left s.cutDelay 4294967295 k c.result c.minWCnt
  touched : ∃ ts, c.info.touched = s.touched ++ ts ∧ ∀ i ∈ ts, i < 3
  divisors : ∃ ds, c.info.divisors = s.divisors ++ ds ∧ ∀ d ∈ ds, d ≠ 0

section Turn

variable {s : SchdInfo} {k : ℕ} {c : Choice}

theorem progress_init (s : SchdInfo) :
    Progress s 0 ⟨{ s with isMpStopSched := true }, 255, 4294967295⟩ where
  schdPara := rfl
  time := rfl
  txWindow _ _ := rfl
  rate := rfl
  g := rfl
  traffic f := by rw [if_neg (fun h => absurd h.1 (Nat.not_lt_zero f))]
  leads := leads_init _ _ _
  touched := ⟨[], by simp, by simp⟩
  divisors := ⟨[], by simp, by simp⟩

/-- A flow that is invalid or stopped is passed over. -/
theorem Progress.pass (h : Progress s k c) (hk : k < 3) (hout : ¬ s.Left k) :
    Progress s (k + 1) { c with info := c.info.touch k } where
  schdPara := h.schdPara
  time := h.time
  txWindow f hf := h.txWindow f (by omega)
  rate := h.rate
  g := h.g
  traffic f := by
    refine (h.traffic f).trans (if_congr ?_ rfl rfl)
    refine ⟨fun hf => ⟨by omega, hf.2⟩, fun hf => ⟨?_, hf.2⟩⟩
    rcases Nat.lt_succ_iff_lt_or_eq.mp hf.1 with hlt | rfl
    · exact hlt
    · exact absurd ⟨hf.2.1, hf.2.2.1⟩ hout
  leads := h.leads.skip fun hP => absurd hP hout
  touched := by
    obtain ⟨ts, hts, hall⟩ := h.touched
    refine ⟨ts ++ [k], by rw [touch, hts, List.append_assoc], ?_⟩
    simpa [or_imp, forall_and] using ⟨hall, hk⟩
  divisors := h.divisors

/-- Only the quota of the flow itself is looked at. -/
theorem checkQuota_traffic (s : SchdInfo) (f j : ℕ) :
    (s.checkQuota f).traffic j =
      if j = f ∧ s.Exhausted f then { s.traffic f with isPktTxStop := true } else s.traffic j := by
  rw [checkQuota]
  dsimp only
  by_cases hctl : (s.traffic f).isTrafficCtl
  · rw [if_pos hctl]
    by_cases hlim : (s.traffic f).throuputLimit ≤ (s.traffic f).pktCntTx
    · rw [if_pos hlim]
      by_cases hj : j = f
      · rw [if_pos ⟨hj, hctl, hlim⟩, hj, setTraffic]
        exact Function.update_self ..
      · rw [if_neg (fun h => hj h.1), setTraffic]
        exact Function.update_of_ne hj ..
    · rw [if_neg hlim, if_neg (fun h => hlim h.2.2)]
  · rw [if_neg hctl, if_neg (fun h => hctl h.2.1)]

theorem checkQuota_frame (s : SchdInfo) (f : ℕ) :
    (s.checkQuota f).user = s.user ∧ (s.checkQuota f).rate = s.rate ∧ (s.checkQuota f).g = s.g ∧
      (s.checkQuota f).touched = s.touched ∧ (s.checkQuota f).divisors = s.divisors := by
  rw [checkQuota]
  split
  · split <;> exact ⟨rfl, rfl, rfl, rfl, rfl⟩
  · exact ⟨rfl, rfl, rfl, rfl, rfl⟩

theorem getHistAcnt_frame (u : UserInfo) (f pktAvg : ℕ) :
    (u.getHistAcnt f pktAvg).2.schdPara = u.schdPara ∧ (u.getHistAcnt f pktAvg).2.time = u.time ∧
      ∀ j, j ≠ f → (u.getHistAcnt f pktAvg).2.txWindow j = u.txWindow j := by
  rw [UserInfo.getHistAcnt]
  exact ⟨rfl, rfl, fun j hj => UserInfo.txWindow_setTxWindow_of_ne u _ hj⟩

/-- **One turn of the loop.** -/
theorem Progress.chooseFlow (h : Progress s k c) (hk : k < 3) :
    Progress s (k + 1) (chooseFlow c k) := by
  have ht : c.info.traffic k = s.traffic k := by
    rw [h.traffic, if_neg (fun hk' => absurd hk'.1 (lt_irrefl k))]
  have hvalid : schdGetFlowValid (c.info.touch k).user k = schdGetFlowValid s.user k := by
    simp only [schdGetFlowValid, touch, h.schdPara]
  rw [SchdInfo.chooseFlow]
  dsimp only
  rw [hvalid]
  split
  · next hinv => exact h.pass hk fun hP => by simp [hP.1.2] at hinv
  next hv =>
  have hv : s.Valid k := ⟨hk, by simpa using hv⟩
  split
  · next hstop => exact h.pass hk fun hP => hP.2 (by rwa [touch, ht] at hstop)
  next hns =>
  have hns : ¬ s.Stopped k := by rwa [touch, ht] at hns
  obtain ⟨hu, hr, hg, htc, hd⟩ := checkQuota_frame (c.info.touch k) k
  have htraffic := checkQuota_traffic (c.info.touch k) k
  generalize (c.info.touch k).checkQuota k = v at *
  have hwin : v.user.txWindow k = s.user.txWindow k := by
    rw [hu]
    exact h.txWindow k le_rfl
  have hrate : v.rate = s.rate := hr.trans h.rate
  have htime : v.user.time = s.user.time := by
    rw [hu]
    exact h.time
  have hhist : (v.user.getHistAcnt k (v.rate k).pktAvg).1 = s.hist k := by
    rw [UserInfo.getHistAcnt, hist, hwin, hrate, htime]
  obtain ⟨hsch, htm, hoth⟩ := getHistAcnt_frame v.user k (v.rate k).pktAvg
  generalize v.user.getHistAcnt k (v.rate k).pktAvg = q at *
  obtain ⟨histNum, user⟩ := q
  dsimp only at hhist hsch htm hoth ⊢
  subst hhist
  obtain ⟨ds, hds, hne⟩ := wCntFlow_eq { v with user := user } k (s.hist k)
  have hfst : ({ v with user := user }.wCntFlow k (s.hist k)).1 = s.cutDelay k := by
    rw [wCntFlow_fst, cutDelay, baseDelay, baseDelay, minusPkt, minusPkt]
    dsimp only
    rw [hsch, hu, hg, hrate]
    simp only [touch, h.schdPara, h.g]
  generalize { v with user := user }.wCntFlow k (s.hist k) = p at *
  obtain ⟨wCnt, w⟩ := p
  dsimp only at hds hfst ⊢
  subst hds hfst
  have hprog : ∀ r m, Leads s.Left s.cutDelay 4294967295 (k + 1) r m →
      Progress s (k + 1) ⟨{ v with user := user, divisors := v.divisors ++ ds }, r, m⟩ := by
    intro r m hleads
    refine ⟨?_, htm.trans htime, fun f hf => ?_, hrate, hg.trans h.g, fun f => ?_, hleads, ?_, ?_⟩
    · rw [hsch, hu]
      exact h.schdPara
    · rw [hoth f (by omega), hu]
      exact h.txWindow f (by omega)
    · have hex : (c.info.touch k).Exhausted k ↔ s.Exhausted k := by
        rw [Exhausted, Exhausted, touch, ht]
      rw [htraffic]
      by_cases hf : f = k
      · subst hf
        rw [touch, ht]
        exact if_congr ⟨fun he => ⟨by omega, hv, hns, hex.mp he.2⟩, fun he => ⟨rfl, hex.mpr he.2.2.2⟩⟩
          rfl rfl
      · rw [if_neg (fun he => hf he.1), touch, h.traffic]
        exact if_congr ⟨fun he => ⟨by omega, he.2⟩, fun he => ⟨by omega, he.2⟩⟩ rfl rfl
    · obtain ⟨ts, hts, hall⟩ := h.touched
      refine ⟨ts ++ [k], by rw [htc, touch, hts, List.append_assoc], ?_⟩
      simpa [or_imp, forall_and] using ⟨hall, hk⟩
    · obtain ⟨ds', hds', hall⟩ := h.divisors
      refine ⟨ds' ++ ds, by rw [hd, touch, hds', List.append_assoc], ?_⟩
      simpa [or_imp, forall_and] using ⟨hall, hne⟩
  split
  · next hlt => exact hprog _ _ (h.leads.take ⟨hv, hns⟩ hlt)
  · next hge => exact hprog _ _ (h.leads.skip fun _ => by omega)

theorem progress_chooseStream (s : SchdInfo) :
    Progress s 3 ([0, 1, 2].foldl SchdInfo.chooseFlow
      ⟨{ s with isMpStopSched := true }, 255, 4294967295⟩) :=
  (((progress_init s).chooseFlow (by omega)).chooseFlow (by omega)).chooseFlow (by omega)

end Turn

/-! ### The choice -/

/-- Nothing about any flow has changed. -/
structure Untouched (s s' : SchdInfo) : Prop where
  rate : s'.rate = s.rate
  traffic : s'.traffic = s.traffic
  schdPara : s'.user.schdPara = s.user.schdPara
  txWindow : s'.user.txWindow = s.user.txWindow

/-- Flow `r` is valid, not stopped, and its predicted delay is minimal among such flows; `s` is the
table the choice was made on, `s'` what it left. -/
def Chooses (s s' : SchdInfo) (r : ℕ) : Prop :=
  s.Valid r ∧ ¬ s'.Stopped r ∧ ∀ j, s.Valid j → ¬ s'.Stopped j → s.predicted r ≤ s.predicted j

/-- What a choice should be: `INVALID_STREAM`, and nothing touched, or a minimal flow; inside the
tables; without a division by zero. -/
structure SoundChoice (s : SchdInfo) : Prop where
  result : (s.chooseStream.1 = 255 ∧ Untouched s s.chooseStream.2) ∨
    Chooses s s.chooseStream.2 s.chooseStream.1
  touched : ∃ ts, s.chooseStream.2.touched = s.touched ++ ts ∧ ∀ i ∈ ts, i < 3
  divisors : ∃ ds, s.chooseStream.2.divisors = s.divisors ++ ds ∧ ∀ d ∈ ds, d ≠ 0

/-- Every flow that has used up its quota is behind one that has something left. -/
def RoomFirst (s : SchdInfo) : Prop :=
  ∀ j, s.Left j → s.Exhausted j → ∃ f, s.Left f ∧ ¬ s.Exhausted f ∧ s.Ahead f j

/-- Some flow is left, the delays fit, and no quota that is used up matters. -/
structure SoundTable (s : SchdInfo) : Prop where
  fits : ∀ f, s.Left f → s.DelayFits f
  left : ∃ f, s.Left f
  room : s.RoomFirst

variable {s : SchdInfo} {f r : ℕ}

/-- A flow is not picked before a better one. -/
theorem Ahead.not_pick {j : ℕ} (h : s.Ahead f j) (hf : s.Left f) (hfits : s.DelayFits f)
    (hfits' : s.DelayFits j) : ¬ s.Pick j := by
  rintro ⟨-, -, hall⟩
  have hle := hall f hf
  rw [cutDelay_eq hfits, cutDelay_eq hfits'] at hle
  rcases h with hlt | ⟨heq, hlt⟩ <;> omega

/-- Any other flow is worse than the one that is picked. -/
theorem Pick.ahead {j : ℕ} (h : s.Pick f) (hj : s.Left j) (hne : j ≠ f) (hfits : s.DelayFits f)
    (hfits' : s.DelayFits j) : s.Ahead f j := by
  have hle := h.2.2 j hj
  rw [cutDelay_eq hfits, cutDelay_eq hfits'] at hle
  rw [Ahead]
  omega

/-- What `MPD_SCHD_ChooseStream` answers. -/
theorem chooseStream_fst (s : SchdInfo) :
    s.Pick s.chooseStream.1 ∨
      s.chooseStream.1 = 255 ∧ ∀ j, s.Left j → 4294967295 ≤ s.cutDelay j := by
  have h := progress_chooseStream s
  rw [chooseStream]
  dsimp only
  generalize [0, 1, 2].foldl SchdInfo.chooseFlow
    ⟨{ s with isMpStopSched := true }, 255, 4294967295⟩ = c at *
  rcases h.leads with ⟨hr, -, hall⟩ | ⟨hr, hP, hl, hlt, hall⟩
  · exact .inr ⟨hr, fun j hj => hall j hj.1.1 hj⟩
  · exact .inl ⟨hP, hl ▸ hlt, fun j hj => hl ▸ hall j hj.1.1 hj⟩

/-- Afterwards the flows are stopped that were before, and those found with nothing left. -/
theorem stopped_chooseStream (hv : s.Valid f) :
    s.chooseStream.2.Stopped f ↔ s.Stopped f ∨ s.Exhausted f := by
  have h := progress_chooseStream s
  rw [chooseStream]
  dsimp only
  generalize [0, 1, 2].foldl SchdInfo.chooseFlow
    ⟨{ s with isMpStopSched := true }, 255, 4294967295⟩ = c at *
  have hkept : (c.info.countChosen c.result).Stopped f ↔ c.info.Stopped f := by
    rw [Stopped, Stopped, countChosen]
    simp only [setTraffic, setRate, touch, Function.update_apply]
    split
    · next heq => rw [heq]
    · rfl
  rw [hkept, Stopped, h.traffic f]
  by_cases hs : s.Stopped f
  · rw [if_neg (fun hc => hc.2.2.1 hs)]
    exact iff_of_true hs (.inl hs)
  by_cases he : s.Exhausted f
  · rw [if_pos ⟨hv.1, hv, hs, he⟩]
    exact iff_of_true ⟨he.1, rfl⟩ (.inr he)
  · rw [if_neg (fun hc => he hc.2.2.2)]
    exact iff_of_false hs (fun hc => hc.elim hs he)

/-- Of the session itself only histories are written, which keeps what counting one keeps. -/
theorem chooseStream_user {P : UserInfo → Prop} (hP : ∀ u f pktAvg, P u → P (u.getHistAcnt f pktAvg).2)
    (h : P s.user) : P s.chooseStream.2.user := by
  have hturn : ∀ (c : Choice) (k : ℕ), P c.info.user → P (SchdInfo.chooseFlow c k).info.user := by
    intro c k hc
    have hquota := (checkQuota_frame (c.info.touch k) k).1
    rw [SchdInfo.chooseFlow]
    dsimp only
    split
    · exact hc
    split
    · exact hc
    obtain ⟨ds, hds, -⟩ := wCntFlow_eq
      { (c.info.touch k).checkQuota k with
        user := (((c.info.touch k).checkQuota k).user.getHistAcnt k
          (((c.info.touch k).checkQuota k).rate k).pktAvg).2 } k
      (((c.info.touch k).checkQuota k).user.getHistAcnt k
        (((c.info.touch k).checkQuota k).rate k).pktAvg).1
    split
    all_goals
      dsimp only
      rw [hds, hquota]
      exact hP _ _ _ hc
  exact hturn _ 2 (hturn _ 1 (hturn _ 0 h))

/-- The index of the answer is looked at, whatever it is. -/
theorem touched_chooseStream (s : SchdInfo) :
    ∃ ts, s.chooseStream.2.touched = s.touched ++ (ts ++ [s.chooseStream.1]) ∧ ∀ i ∈ ts, i < 3 := by
  obtain ⟨ts, hts, hall⟩ := (progress_chooseStream s).touched
  refine ⟨ts, ?_, hall⟩
  rw [chooseStream, ← List.append_assoc, ← hts]
  rfl

theorem divisors_chooseStream (s : SchdInfo) :
    ∃ ds, s.chooseStream.2.divisors = s.divisors ++ ds ∧ ∀ d ∈ ds, d ≠ 0 :=
  (progress_chooseStream s).divisors

/-- With a flow left and delays that fit, a flow is picked. -/
theorem pick_chooseStream (hleft : s.Left f) (hfits : s.DelayFits f) : s.Pick s.chooseStream.1 := by
  refine (chooseStream_fst s).resolve_right fun h255 => ?_
  have hle := h255.2 f hleft
  rw [cutDelay_eq hfits] at hle
  exact absurd hfits.2.2.2 (Nat.not_lt.mpr hle)

/-- Afterwards the flows are left that were, and have something left. -/
theorem left_chooseStream (hv : s.Valid f) :
    ¬ s.chooseStream.2.Stopped f ↔ s.Left f ∧ ¬ s.Exhausted f := by
  rw [stopped_chooseStream hv, not_or, Left, and_iff_right hv]

/-- A sound table has a flow picked that has something left. -/
theorem SoundTable.sound (h : s.SoundTable) : s.SoundChoice := by
  obtain ⟨ts, hts, hall⟩ := touched_chooseStream s
  obtain ⟨f, hf⟩ := h.left
  have hpick := pick_chooseStream hf (h.fits f hf)
  have hroom : ¬ s.Exhausted s.chooseStream.1 := by
    intro hex
    obtain ⟨j, hj, -, hahead⟩ := h.room _ hpick.1 hex
    exact hahead.not_pick hj (h.fits j hj) (h.fits _ hpick.1) hpick
  refine ⟨.inr ⟨hpick.1.1, (left_chooseStream hpick.1.1).mpr ⟨hpick.1, hroom⟩, fun j hv hns => ?_⟩,
    ⟨_, hts, ?_⟩, divisors_chooseStream s⟩
  · have hj := ((left_chooseStream hv).mp hns).1
    by_cases hne : j = s.chooseStream.1
    · rw [hne]
    · rcases hpick.ahead hj hne (h.fits _ hpick.1) (h.fits j hj) with hlt | ⟨heq, -⟩
      · exact hlt.le
      · exact heq.le
  · simpa [or_imp, forall_and] using ⟨hall, hpick.1.1.1⟩

/-- A sound choice is one of three flows, and that has something left. -/
theorem SoundChoice.table (h : s.SoundChoice) (hfits : ∀ f, s.Left f → s.DelayFits f) :
    s.SoundTable := by
  obtain ⟨ts, hts, -⟩ := touched_chooseStream s
  obtain ⟨ts', hts', hall'⟩ := h.touched
  have hlt : s.chooseStream.1 < 3 := by
    rw [hts, List.append_cancel_left_eq] at hts'
    exact hall' _ (hts' ▸ by simp)
  obtain ⟨hv, hns, -⟩ := h.result.resolve_left fun h255 => by omega
  have hpick := (chooseStream_fst s).resolve_right fun h255 => by omega
  have hroom := ((left_chooseStream hv).mp hns).2
  refine ⟨hfits, ⟨_, hpick.1⟩, fun j hj hex => ⟨_, hpick.1, hroom, ?_⟩⟩
  exact hpick.ahead hj (fun heq => hroom (heq ▸ hex)) (hfits _ hpick.1) (hfits j hj)

end SchdInfo

end Mpd

end AndroidVendor
