import AndroidVendor.Mpd.Delays
import AndroidVendor.Mpd.Quota
import AndroidVendor.Mpd.WaitQueue

/-!
# What the wait queue does to the scheduler

Nothing but steps of the session itself that leave its delays alone, and choices of a subflow. A
relation that these keep is kept by the functions that put packets into the wait queue and take them
out.

## Main results

* `SchdInfo.Framing` — such a relation
* `SchdInfo.Framing.transNewData`, `SchdInfo.Framing.doSendWaitQueueData`,
  `SchdInfo.Framing.clearWaitQueue` — the functions of the queue
-/

namespace AndroidVendor

namespace Mpd

open UserInfo

/-! ### Traffic control -/

namespace SchdInfo

theorem limitFlow_frame (s : SchdInfo) (k rateAvg lossPktCnt sendPktCnt : ℕ) :
    (s.limitFlow k rateAvg lossPktCnt sendPktCnt).rate = s.rate ∧
      (s.limitFlow k rateAvg lossPktCnt sendPktCnt).user = s.user ∧
      (s.limitFlow k rateAvg lossPktCnt sendPktCnt).divisors = s.divisors ∧
      (s.limitFlow k rateAvg lossPktCnt sendPktCnt).g = s.g ∧
      (s.limitFlow k rateAvg lossPktCnt sendPktCnt).throuputTotal = s.throuputTotal := by
  rw [limitFlow]
  dsimp only
  split
  · exact ⟨rfl, rfl, rfl, rfl, rfl⟩
  split
  · split <;> exact ⟨rfl, rfl, rfl, rfl, rfl⟩
  · exact ⟨rfl, rfl, rfl, rfl, rfl⟩

/-- What the traffic control leaves alone; of its own counters, those of the flows outside of `ks`. -/
structure ControlFrame (ks : List ℕ) (s s' : SchdInfo) : Prop where
  rate : s'.rate = s.rate
  schdPara : s'.user.schdPara = s.user.schdPara
  divisors : s'.divisors = s.divisors
  g : s'.g = s.g
  trafficControl : ∀ f, f ∉ ks → s'.user.trafficControl f = s.user.trafficControl f
  traffic : ∀ f, f ∉ ks → s'.traffic f = s.traffic f

theorem ControlFrame.refl (s : SchdInfo) : ControlFrame [] s s :=
  ⟨rfl, rfl, rfl, rfl, fun _ _ => rfl, fun _ _ => rfl⟩

theorem ControlFrame.trans {ks ls : List ℕ} {s s' s'' : SchdInfo} (h : ControlFrame ks s s')
    (h' : ControlFrame ls s' s'') : ControlFrame (ks ++ ls) s s'' where
  rate := h'.rate.trans h.rate
  schdPara := h'.schdPara.trans h.schdPara
  divisors := h'.divisors.trans h.divisors
  g := h'.g.trans h.g
  trafficControl f hf := by
    rw [List.mem_append, not_or] at hf
    exact (h'.trafficControl f hf.2).trans (h.trafficControl f hf.1)
  traffic f hf := by
    rw [List.mem_append, not_or] at hf
    exact (h'.traffic f hf.2).trans (h.traffic f hf.1)

theorem trafficControlFlow_frame (s : SchdInfo) (k : ℕ) :
    ControlFrame [k] s (s.trafficControlFlow k) ∧
      (schdGetFlowValid s.user k = true → (s.trafficControlFlow k).throuputTotal =
        u32 (s.throuputTotal + ((s.trafficControlFlow k).traffic k).throuputLimit)) := by
  have htraffic : ∀ f, f ∉ [k] → (s.trafficControlFlow k).traffic f = s.traffic f := fun f hf =>
    trafficControlFlow_ne (List.ne_of_not_mem_cons hf)
  by_cases hv : (!schdGetFlowValid s.user k) = true
  · rw [trafficControlFlow, if_pos hv]
    refine ⟨⟨rfl, rfl, rfl, rfl, fun _ _ => rfl, fun _ _ => rfl⟩, fun hvalid => ?_⟩
    rw [hvalid] at hv
    exact absurd hv Bool.false_ne_true
  · rw [trafficControlFlow, if_neg hv] at htraffic ⊢
    extract_lets c told t₀ lossPktCnt sendPktCnt t₁ t₂ avg t₃ rateAvg s₁ t₄ s₂
    obtain ⟨hrate, huser, hdiv, hg, htotal⟩ :=
      limitFlow_frame (s.setTraffic k t₃) k rateAvg lossPktCnt sendPktCnt
    have hpara : s₁.user.schdPara = s.user.schdPara := congrArg UserInfo.schdPara huser
    refine ⟨⟨hrate, hpara, hdiv, hg, fun f hf => ?_, htraffic⟩, fun _ => ?_⟩
    · have hne : f ≠ k := List.ne_of_not_mem_cons hf
      show Function.update s₁.user.trafficControl k _ f = _
      rw [Function.update_of_ne hne]
      exact congrArg (fun u => UserInfo.trafficControl u f) huser
    · have hself : s₂.traffic k = { t₄ with pktCntTx := 0 } := Function.update_self ..
      show u32 (s₁.throuputTotal + t₄.throuputLimit) =
        u32 (s.throuputTotal + (s₂.traffic k).throuputLimit)
      rw [hself, htotal]
      rfl

/-- The traffic control looks at the rates and writes none of them. -/
theorem trafficControl_frame (s : SchdInfo) : ControlFrame [0, 1, 2] s s.trafficControl := by
  rw [trafficControl]
  split
  · refine ⟨rfl, rfl, rfl, rfl, fun _ _ => rfl, fun f hf => if_neg fun hlt => hf ?_⟩
    simp only [List.mem_cons, List.not_mem_nil, or_false]
    omega
  split
  · generalize hs₀ : ({ s with
      isAllFlowTrafficCtl := true, throuputTotal := 0, isMpStopSched := false } : SchdInfo) = s₀
    have hstart : ControlFrame [] s s₀ := by
      rw [← hs₀]
      exact ⟨rfl, rfl, rfl, rfl, fun _ _ => rfl, fun _ _ => rfl⟩
    exact ((hstart.trans (trafficControlFlow_frame s₀ 0).1).trans
      (trafficControlFlow_frame _ 1).1).trans (trafficControlFlow_frame _ 2).1
  · exact ⟨rfl, rfl, rfl, rfl, fun _ _ => rfl, fun _ _ => rfl⟩

end SchdInfo

/-! ### The wait queue -/

namespace WaitInfo.DrainState

theorem prepare_schdPara (d : DrainState) (u : UserInfo) (data : Msg) (length : ℕ) :
    (d.prepare u data length).2.schdPara = u.schdPara := by
  rw [prepare]
  split
  · have hsplit := splitDataMem_schdPara u data length
    rw [split]
    generalize u.splitDataMem data length = r at hsplit
    obtain ⟨frag, u'⟩ := r
    cases frag with
    | none =>
      dsimp only at hsplit ⊢
      split <;> exact hsplit
    | some frag => exact hsplit
  · rfl

theorem send_schdPara (d : DrainState) (u : UserInfo) (f : ℕ) (data : Msg) (length : ℕ) :
    (d.send u f data length).2.2.schdPara = u.schdPara := by
  rw [send]
  split
  · exact sendBlock_schdPara u f data length 0
  · dsimp only
    rw [sendBlock_schdPara]
    exact sendBlock_schdPara u f d.dataFrag.first 1012 1

end WaitInfo.DrainState

/-- A relation that a step of the session, its delays as they were, and a choice keep. -/
structure SchdInfo.Framing (R : SchdInfo → SchdInfo → Prop) : Prop where
  refl : ∀ s, R s s
  trans : ∀ {s t r}, R s t → R t r → R s r
  setUser : ∀ (s : SchdInfo) {u : UserInfo},
    HasDelays (fun g => (s.user.schdPara g).inhertDelay) u → R s { s with user := u }
  chooseStream : ∀ s : SchdInfo, R s s.chooseStream.2

namespace SchdInfo.Framing

variable {R : SchdInfo → SchdInfo → Prop} {w w' : WaitInfo}

theorem transNewData (h : Framing R) (w : WaitInfo) (data : Msg) (length : ℕ) :
    R w.schd (w.transNewData data length).schd := by
  rw [WaitInfo.transNewData]
  split
  · exact h.setUser w.schd ((hasDelays_self _).congr rfl)
  split
  · rw [WaitInfo.putWait]
    dsimp only
    split
    · exact h.setUser w.schd ((hasDelays_self _).congr rfl)
    · exact h.refl _
  · refine h.trans (h.chooseStream w.schd) (h.setUser _ ?_)
    exact (hasDelays_self _).doSendNewTransData _ data length

theorem turn (h : Framing R) (d : WaitInfo.DrainState) : R d.info.schd d.turn.info.schd := by
  rw [WaitInfo.DrainState.turn]
  dsimp only
  split
  · exact h.refl _
  split
  · exact h.chooseStream _
  · refine h.trans (h.chooseStream d.info.schd) (h.setUser _ ?_)
    refine HasDelays.congr ?_ (WaitInfo.DrainState.send_schdPara ..)
    refine HasDelays.congr ?_ (WaitInfo.DrainState.prepare_schdPara ..)
    exact (hasDelays_self d.info.schd.chooseStream.2.user).congr rfl

theorem doSendWaitQueueData (h : Framing R) (hw : w.doSendWaitQueueData = some w') :
    R w.schd w'.schd := by
  rw [WaitInfo.doSendWaitQueueData] at hw
  split at hw
  · cases hw
    exact h.refl _
  · obtain ⟨d, hd, rfl⟩ := Option.map_eq_some_iff.mp hw
    refine (Loop.whileLoop_inv (fun d : WaitInfo.DrainState => R w.schd d.info.schd)
      (fun a a' ha _ hbody => ?_) (h.refl _) hd).1
    cases hbody
    exact h.trans ha (h.turn a)

theorem clearWaitQueue (h : Framing R) (hw : w.clearWaitQueue = some w') : R w.schd w'.schd := by
  rw [WaitInfo.clearWaitQueue] at hw
  obtain ⟨w₁, h₁, rfl⟩ := Option.map_eq_some_iff.mp hw
  rw [WaitInfo.clearNodes] at h₁
  refine (Loop.whileLoop_inv (fun v : WaitInfo => R w.schd v.schd)
    (fun a a' ha _ hbody => ?_) (h.refl _) h₁).1
  cases hbody
  exact h.trans ha (h.setUser a.schd ((hasDelays_self _).congr rfl))

end SchdInfo.Framing

end Mpd

end AndroidVendor
