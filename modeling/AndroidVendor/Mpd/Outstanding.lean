import AndroidVendor.Mpd.TxRun

/-!
# What the scheduler counts

`MPD_getTxWinUnackCnt` and `MPD_getHistAcnt` (`mpd_tx.c`): how many packets of a subflow are
outstanding, and how many of these have not left the device yet, by the rate `PktAvg` of the
subflow.

The first is the difference of two SSNs taken in `int` and stored into a `U32`; the second subtracts
what the subflow can have sent since `lastTxTime`, a product that is cut to 32 bits before it is
divided. `HistOp` is the session with the second function called at any moment and for any rate,
because it writes `histA` and `lastTxTime` back.

## Main results

* `outstanding_iff` — over every run, both counts are exact if and only if the window is empty, or
  its SSNs do not straddle 65535 and the product that was cut cannot be told from the exact one
* `Spans.ssnCount_eq` — what is counted when the SSNs straddle 65535
-/

namespace AndroidVendor

namespace Mpd

namespace TxWin

/-- `pPrevNode`: the node before `pTxNext`. -/
def prevNode (w : TxWin) : DataNode := w.dataNode (if w.pTxNext = 0 then 1023 else w.pTxNext - 1)

/-- `pPrevNode->SSN - pTxBegin->SSN + 1`, stored into a `U32`. -/
def ssnCount (w : TxWin) : ℕ := u32 (w.prevNode.ssn + 1 + 4294967296 - w.beginNode.ssn)

/-- `g_time - lastTxTime`, on a clock of 32 bits. -/
def elapsed (w : TxWin) (time : ℕ) : ℕ := SerialRing.dist 4294967296 w.lastTxTime time

/-- `MPD_getHistAcnt` on one window; `pktAvg` is the rate of its subflow. -/
def getHistAcnt (w : TxWin) (time pktAvg : ℕ) : ℕ × TxWin :=
  if w.pTxNext = w.pTxBegin ∨ w.histA = 0 then (0, { w with lastTxTime := time, histA := 0 })
  else
    let txCnt := u32 (w.elapsed time * pktAvg) / 100
    let histNew :=
      if 0 < txCnt then if txCnt < w.histA then w.histA - txCnt else 0 else w.histA
    let cnt := w.ssnCount
    let histNew := if cnt < histNew then cnt else histNew
    (histNew, if histNew ≠ w.histA then { w with lastTxTime := time, histA := histNew } else w)

end TxWin

namespace UserInfo

/-- `MPD_getTxWinUnackCnt`. -/
def getTxWinUnackCnt (u : UserInfo) (flowId : ℕ) : ℕ :=
  let w := u.txWindow flowId
  if w.pTxNext ≠ w.pTxBegin then w.ssnCount else 0

/-- `MPD_getHistAcnt`. -/
def getHistAcnt (u : UserInfo) (flowId pktAvg : ℕ) : ℕ × UserInfo :=
  let (hist, w) := (u.txWindow flowId).getHistAcnt u.time pktAvg
  (hist, u.setTxWindow flowId w)

end UserInfo

/-- The session, and the scheduler asking for a history in between. -/
inductive HistOp
  | session (op : Op)
  | getHistAcnt (flowId : Fin 3) (pktAvg : ℕ)
  deriving DecidableEq

def HistOp.step : HistOp → UserInfo → Option UserInfo
  | .session op, u => op.step u
  | .getHistAcnt flowId pktAvg, u => some (u.getHistAcnt flowId pktAvg).2

/-! ### One window -/

namespace TxWin

variable {w : TxWin} {b n time pktAvg : ℕ}

/-- What the history should be: the packets outstanding, less those the subflow had the time to
send. -/
def exactHist (w : TxWin) (time pktAvg : ℕ) : ℕ :=
  if w.span = 0 then 0 else min w.span (w.histA - w.elapsed time * pktAvg / 100)

/-- The newest SSN is not below the oldest one. -/
def Unwrapped (w : TxWin) : Prop := w.beginNode.ssn ≤ w.prevNode.ssn

/-- Cutting the product to 32 bits does not matter: it fits; or enough of it is left to use up the
history; or the history exceeds what is outstanding by all of it. -/
def Fits (w : TxWin) (time pktAvg : ℕ) : Prop :=
  w.elapsed time * pktAvg < 4294967296 ∨
    w.histA ≤ w.elapsed time * pktAvg % 4294967296 / 100 ∨
    w.span + w.elapsed time * pktAvg / 100 ≤ w.histA

instance (w : TxWin) : Decidable w.Unwrapped := inferInstanceAs (Decidable (_ ≤ _))

instance (w : TxWin) (time pktAvg : ℕ) : Decidable (w.Fits time pktAvg) :=
  inferInstanceAs (Decidable (_ ∨ _))

theorem Spans.prevNode_ssn (h : Spans w b n) (hlt : b < n) : w.prevNode.ssn = (n - 1) % 65536 := by
  have hidx : (if w.pTxNext = 0 then 1023 else w.pTxNext - 1) = (n - 1) % 1024 := by
    rw [h.next_eq]
    split <;> omega
  rw [prevNode, hidx, h.num (n - 1) (by omega) (by omega)]

theorem Spans.empty_iff (h : Spans w b n) : w.pTxNext = w.pTxBegin ↔ w.span = 0 := by
  have hle := h.le
  have hsize := h.size
  rw [h.span_eq, h.next_eq, h.begin_eq]
  constructor
  · intro heq
    have := SerialRing.cell_inj heq (by omega) (by omega)
    omega
  · intro hz
    rw [show n = b by omega]

/-- A window whose SSNs straddle 65535 is counted 65536 short, modulo 2³². -/
theorem Spans.ssnCount_eq (h : Spans w b n) (hlt : b < n) :
    w.ssnCount = if w.Unwrapped then w.span else 4294967296 + w.span - 65536 := by
  have hsize := h.size
  have hwrap : w.Unwrapped ↔ b % 65536 ≤ (n - 1) % 65536 := by
    rw [Unwrapped, h.prevNode_ssn hlt, h.begin_ssn]
  rw [ssnCount, h.prevNode_ssn hlt, h.begin_ssn, h.span_eq, u32]
  split
  · next hu =>
    have := hwrap.mp hu
    omega
  · next hu =>
    have := mt hwrap.mpr hu
    omega

theorem Spans.ssnCount_iff (h : Spans w b n) (hlt : b < n) : w.ssnCount = w.span ↔ w.Unwrapped := by
  rw [h.ssnCount_eq hlt]
  split
  · next hu => exact iff_of_true rfl hu
  · next hu => exact iff_of_false (by omega) hu

/-- What is left of a product after cutting and dividing is too little unless nothing was cut. -/
theorem cut_div (x : ℕ) : u32 x / 100 ≤ x / 100 ∧ (u32 x / 100 = x / 100 ↔ x < 4294967296) := by
  rw [u32]
  omega

/-- The result of `MPD_getHistAcnt`, with its cases put together. -/
theorem getHistAcnt_fst (w : TxWin) (time pktAvg : ℕ) (hne : w.pTxNext ≠ w.pTxBegin) :
    (w.getHistAcnt time pktAvg).1 =
      min w.ssnCount (w.histA - u32 (w.elapsed time * pktAvg) / 100) := by
  rw [getHistAcnt]
  split
  · next hz =>
    have hz : w.histA = 0 := hz.resolve_left hne
    rw [hz, Nat.zero_sub, Nat.min_zero]
  · dsimp only
    generalize u32 (w.elapsed time * pktAvg) / 100 = txCnt
    have hleft : (if 0 < txCnt then if txCnt < w.histA then w.histA - txCnt else 0 else w.histA) =
        w.histA - txCnt := by
      split
      · split <;> omega
      · omega
    rw [hleft]
    split <;> omega

theorem Spans.getHistAcnt_iff (h : Spans w b n) (hlt : b < n) (hu : w.Unwrapped) :
    (w.getHistAcnt time pktAvg).1 = w.exactHist time pktAvg ↔ w.Fits time pktAvg := by
  have hspan : w.span ≠ 0 := by rw [h.span_eq]; omega
  have hne : w.pTxNext ≠ w.pTxBegin := fun heq => hspan (h.empty_iff.mp heq)
  have hcut := cut_div (w.elapsed time * pktAvg)
  rw [getHistAcnt_fst w time pktAvg hne, (h.ssnCount_iff hlt).mpr hu, exactHist, if_neg hspan, Fits]
  rw [u32] at hcut ⊢
  generalize w.elapsed time * pktAvg = x at *
  generalize x % 4294967296 / 100 = y at *
  omega

/-- Both counts of a window. -/
theorem Spans.exact_iff (h : Spans w b n) :
    ((if w.pTxNext ≠ w.pTxBegin then w.ssnCount else 0) = w.span ∧
        (w.getHistAcnt time pktAvg).1 = w.exactHist time pktAvg) ↔
      w.span = 0 ∨ (w.Unwrapped ∧ w.Fits time pktAvg) := by
  by_cases hz : w.span = 0
  · have heq := h.empty_iff.mpr hz
    refine iff_of_true ⟨?_, ?_⟩ (.inl hz)
    · rw [if_neg (not_not.mpr heq), hz]
    · rw [getHistAcnt, if_pos (.inl heq), exactHist, if_pos hz]
  · have hne : w.pTxNext ≠ w.pTxBegin := fun heq => hz (h.empty_iff.mp heq)
    have hlt : b < n := by
      rw [h.span_eq] at hz
      omega
    rw [if_pos hne, h.ssnCount_iff hlt, or_iff_right hz]
    exact and_congr_right fun hu => h.getHistAcnt_iff hlt hu

/-- Only the history and its time are written back. -/
theorem Spans.getHistAcnt (h : Spans w b n) (time pktAvg : ℕ) :
    Spans (w.getHistAcnt time pktAvg).2 b n := by
  rw [TxWin.getHistAcnt]
  split
  · exact h.congr rfl rfl rfl rfl
  · dsimp only
    generalize (if w.ssnCount < _ then w.ssnCount else _) = histNew
    split
    · exact h.congr rfl rfl rfl rfl
    · exact h

end TxWin

/-! ### Runs -/

namespace UserInfo

open TxWin

variable {u u' u₀ : UserInfo} {f k : ℕ}

theorem TxOk.getHistAcnt (h : TxOk u) (f pktAvg : ℕ) : TxOk (u.getHistAcnt f pktAvg).2 := by
  obtain ⟨b, n, hs⟩ := h f
  rw [UserInfo.getHistAcnt]
  refine h.of_flow (fun j hj => txWindow_setTxWindow_of_ne u _ hj) ⟨b, n, ?_⟩
  rw [txWindow_setTxWindow]
  exact hs.getHistAcnt u.time pktAvg

theorem TxOk.histStep {op : HistOp} (h : TxOk u) (hs : op.step u = some u') : TxOk u' := by
  cases op with
  | session op => exact h.step hs
  | getHistAcnt f pktAvg =>
    obtain rfl := Option.some.inj hs
    exact h.getHistAcnt f pktAvg

/-- A window into which `k` packets were sent and nothing was acknowledged holds the last 1023. -/
theorem sent_run (h₀ : ∀ f, u₀.txWindow f = {}) (k : ℕ) :
    ∃ u, Machine.run HistOp.step
        (List.replicate k (.session (.send (some 0) ⟨1, List.replicate 12 0⟩ 12))) u₀ = some u ∧
      ∃ b, (b + 1023 = k ∨ b = 0 ∧ k ≤ 1023) ∧ Spans (u.txWindow 0) b k := by
  induction k with
  | zero => exact ⟨u₀, rfl, 0, .inr ⟨rfl, by omega⟩, by rw [h₀]; exact spans_clear⟩
  | succ k ih =>
    obtain ⟨u, hu, b, hb, hs⟩ := ih
    have hstart : Spans (({ u with lastPackageTime := u32 (u.time + 6000) } : UserInfo).txWindow 0)
        b k := by
      dsimp only
      exact hs
    obtain ⟨-, -, b', hb', hs', -⟩ := sendBlock_spec hstart ⟨1, List.replicate 12 0⟩ 12 0
    refine ⟨(u.doSendNewTransData (some 0) ⟨1, List.replicate 12 0⟩ 12).2, ?_, b', ?_, hs'⟩
    · rw [List.replicate_succ', Machine.run_concat, hu]
      rfl
    · rw [hb']
      split <;> omega

end UserInfo

open UserInfo TxWin

variable {u u₀ : UserInfo} {ops : List HistOp}

theorem reached_txOk (h₀ : ∀ f, u₀.txWindow f = {}) (hrun : Machine.run HistOp.step ops u₀ = some u) :
    TxOk u :=
  Machine.run_inv (fun _ _ _ h hs => h.histStep hs)
    (fun f => by rw [h₀ f]; exact ⟨0, 0, spans_clear⟩) hrun

/-- **Outstanding packets are counted exactly** if and only if the window is empty, or its SSNs do
not straddle 65535 and the product of time and rate is small enough for 32 bits or cut without
effect. -/
theorem outstanding_iff (u₀ u : UserInfo) (ops : List HistOp) (h₀ : ∀ f, u₀.txWindow f = {})
    (hrun : Machine.run HistOp.step ops u₀ = some u) (f pktAvg : ℕ) :
    (u.getTxWinUnackCnt f = (u.txWindow f).span ∧
        (u.getHistAcnt f pktAvg).1 = (u.txWindow f).exactHist u.time pktAvg) ↔
      (u.txWindow f).span = 0 ∨
        ((u.txWindow f).Unwrapped ∧ (u.txWindow f).Fits u.time pktAvg) := by
  obtain ⟨b, n, hs⟩ := reached_txOk h₀ hrun f
  exact hs.exact_iff

/-- A session that has sent one packet, one tick ago. -/
theorem outstanding_one :
    ∃ u : UserInfo,
      Machine.run HistOp.step [.session (.send (some 0) ⟨1, List.replicate 12 0⟩ 12), .session .tick]
        {} = some u ∧
      u.getTxWinUnackCnt 0 = (u.txWindow 0).span ∧
      (u.getHistAcnt 0 128).1 = (u.txWindow 0).exactHist u.time 128 :=
  ⟨_, rfl, (outstanding_iff {} _
    [.session (.send (some 0) ⟨1, List.replicate 12 0⟩ 12), .session .tick] (fun _ => rfl) rfl 0
    128).mpr (.inr ⟨by decide, by decide⟩)⟩

/-- After 65537 packets without an acknowledgement, 1023 are outstanding and the scheduler is told
4294902783. -/
theorem outstanding_straddling :
    ∃ u : UserInfo, Machine.run HistOp.step
        (List.replicate 65537 (.session (.send (some 0) ⟨1, List.replicate 12 0⟩ 12))) {} = some u ∧
      (u.txWindow 0).span = 1023 ∧ u.getTxWinUnackCnt 0 = 4294902783 := by
  obtain ⟨u, hrun, b, hb, hs⟩ := @sent_run {} (fun _ => rfl) 65537
  obtain rfl : b = 64514 := by omega
  have hspan : (u.txWindow 0).span = 1023 := by rw [hs.span_eq]
  have hne : (u.txWindow 0).pTxNext ≠ (u.txWindow 0).pTxBegin := fun heq => by
    rw [hs.empty_iff] at heq
    omega
  have hwrap : ¬ (u.txWindow 0).Unwrapped := by
    rw [Unwrapped, hs.prevNode_ssn (by omega), hs.begin_ssn]
    omega
  refine ⟨u, hrun, hspan, ?_⟩
  rw [getTxWinUnackCnt, if_pos hne, hs.ssnCount_eq (by omega), if_neg hwrap, hspan]

end Mpd

end AndroidVendor
