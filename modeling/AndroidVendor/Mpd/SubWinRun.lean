import AndroidVendor.Lib.Machine
import AndroidVendor.Mpd.SubWinInvariant

/-!
# Runs of one rx sub window

The operations the session performs on the sub window of one subflow, in any order and with any
arguments: a packet arrives, the data window hands one of the subflow's packets to the transport, it
drives `RxBegin` forward, an acknowledgement is sent, the subflow is shut down.

## Main results

* `subWin_run` — every run answers and keeps the representation invariant, stated on the fields the
  code keeps; `RxBegin` does not overtake `RxNext`; a node in range that is marked received was
  added since it entered the window
-/

namespace AndroidVendor

namespace Mpd

open Machine

/-- What happens to one rx sub window. -/
inductive SubWinOp
  /-- `MPD_SubWinAddNode`. -/
  | addNode (ssn : UInt16)
  /-- The data window posts a packet of the subflow: `dataWinSSN = SsnPlus(SSN)`. -/
  | posted (ssn : UInt16)
  /-- The sub window part of `MPD_DataWinRxBeginMove`. -/
  | followDataWin
  /-- `MPD_ClearSubWin`. -/
  | clear
  /-- `MPD_GetSubFlowAck` and `MPD_SubWinCreateSack` record the acknowledgement they send. -/
  | sentAck (ack : UInt16)
  deriving DecidableEq

def SubWinOp.step : SubWinOp → RxSubWin → Option RxSubWin
  | .addNode ssn, w => some (w.addNode ssn.toNat)
  | .posted ssn, w => some { w with dataWinSSN := ssnPlus ssn.toNat }
  | .followDataWin, w => w.followDataWin
  | .clear, _ => some {}
  | .sentAck ack, w => some { w with sentAck := ack.toNat }

namespace RxSubWin

variable {w w' : RxSubWin} {b n : ℕ}

/-- How many nodes lie from `RxBegin` to `RxNext`. -/
def span (w : RxSubWin) : ℕ := SerialRing.dist 1024 w.rxBegin w.rxNext

/-- The representation invariant, on the fields of the window. -/
structure WellFormed (w : RxSubWin) : Prop where
  begin_lt : w.rxBegin < 1024
  next_lt : w.rxNext < 1024
  /-- Consecutive SSNs from `RxBegin` to `RxNext`. -/
  consecutive : ∀ i ≤ w.span, (w.win ((w.rxBegin + i) % 1024)).ssn = (w.beginNode.ssn + i) % 65536
  /-- Each node at its index. -/
  index : ∀ i ≤ w.span, (w.rxBegin + i) % 1024 = (w.win ((w.rxBegin + i) % 1024)).ssn % 1024
  /-- The SSNs span no more than the nodes do, so `RxBegin` is not past `RxNext`. -/
  ordered : distanceSN w.beginNode.ssn w.nextNode.ssn = w.span
  size : w.span ≤ 1023
  next_un : w.nextNode.status = .unReceived
  begin_un : w.rxBegin ≠ w.rxNext → w.beginNode.status = .unReceived

/-- The node of `ssn` lies in `[RxBegin, RxNext)`. -/
def InWindow (w : RxSubWin) (ssn : ℕ) : Prop :=
  distanceSN w.beginNode.ssn ssn < distanceSN w.beginNode.ssn w.nextNode.ssn

/-- The node of `ssn` lies in the window and is marked `Received`. -/
def HasReceived (w : RxSubWin) (ssn : ℕ) : Prop :=
  w.InWindow ssn ∧ (w.win (ssn % 1024)).status = .received

theorem status_eq_unReceived {s : NodeStatus} (h1 : s ≠ .received) (h2 : s ≠ .receiveComplete) :
    s = .unReceived := by
  cases s <;> simp_all

theorem Spans.span_eq (h : Spans w b n) : w.span = n - b := by
  rw [span, h.begin_eq, h.next_eq]
  exact SerialRing.dist_of_le h.le h.size

/-- A window at rest is well formed. -/
theorem Rests.wellFormed (h : Rests w b n) : WellFormed w := by
  have hspan := h.span_eq
  have hsize := h.size
  have hle := h.le
  have hcell : ∀ i, (w.rxBegin + i) % 1024 = (b + i) % 1024 := fun i => by
    rw [h.begin_eq]
    exact Nat.mod_add_mod b 1024 i
  have hnum : ∀ i ≤ w.span, (w.win ((w.rxBegin + i) % 1024)).ssn = (b + i) % 65536 := by
    intro i hi
    rw [hcell]
    exact h.num (b + i) (by omega) (by omega)
  refine ⟨?_, ?_, fun i hi => ?_, fun i hi => ?_, ?_, by omega, ?_, fun _ => ?_⟩
  · rw [h.begin_eq]
    omega
  · rw [h.next_eq]
    omega
  · rw [hnum i hi, h.begin_ssn]
    omega
  · rw [hnum i hi, hcell]
    omega
  · rw [h.begin_ssn, h.next_ssn, hspan]
    exact distanceSN_of_le hle (by omega)
  · rw [nextNode, h.next_eq]
    exact status_eq_unReceived h.next_un (h.plain n hle le_rfl)
  · rw [beginNode, h.begin_eq]
    exact status_eq_unReceived h.begin_un (h.plain b le_rfl hle)

theorem Spans.inWindow_iff (h : Spans w b n) {ssn : ℕ} (hs : ssn < 65536) :
    w.InWindow ssn ↔ ∃ x, b ≤ x ∧ x < n ∧ x % 65536 = ssn := by
  have hsize := h.size
  have hle := h.le
  obtain ⟨x, hbx, hxb, rfl⟩ := SerialRing.exists_position hs b
  rw [InWindow, h.begin_ssn, h.next_ssn, distanceSN_of_le hbx hxb, distanceSN_of_le hle (by omega)]
  constructor
  · intro hlt
    exact ⟨x, hbx, by omega, rfl⟩
  · rintro ⟨y, hby, hyn, hy⟩
    obtain rfl := SerialRing.cell_inj hy (by omega) (by omega)
    omega

theorem Spans.hasReceived_iff (h : Spans w b n) {ssn : ℕ} (hs : ssn < 65536) :
    w.HasReceived ssn ↔ ∃ x, b ≤ x ∧ x < n ∧ x % 65536 = ssn ∧ Marked w x := by
  have hcell : ∀ x, x % 65536 = ssn → (Marked w x ↔ (w.win (ssn % 1024)).status = .received) := by
    rintro x rfl
    rw [Marked, show x % 65536 % 1024 = x % 1024 by omega]
  rw [HasReceived, h.inWindow_iff hs]
  constructor
  · rintro ⟨⟨x, hbx, hxn, hx⟩, hm⟩
    exact ⟨x, hbx, hxn, hx, (hcell x hx).mpr hm⟩
  · rintro ⟨x, hbx, hxn, hx, hm⟩
    exact ⟨⟨x, hbx, hxn, hx⟩, (hcell x hx).mp hm⟩

/-- What every run keeps. -/
structure Kept (w : RxSubWin) : Prop where
  rests : ∃ b n, Rests w b n
  dataWin_lt : w.dataWinSSN < 65536

theorem kept_clear : Kept {} :=
  ⟨⟨0, 0, ⟨rfl, rfl, le_rfl, by omega, fun x _ hx => by simp [Nat.le_zero.mp hx],
    fun x _ _ => by simp⟩, by simp [Marked], by simp [Marked]⟩, by decide⟩

/-- One operation, in terms of positions: the positions go forward, except where the window starts
anew, and only the addition of a node marks one. -/
theorem step_kept (op : SubWinOp) (h : Kept w) :
    ∃ w', op.step w = some w' ∧ Kept w' ∧
      (op ≠ .clear → ¬ w.looksClear →
        distanceSN w.beginNode.ssn w'.beginNode.ssn ≤ distanceSN w.beginNode.ssn w'.nextNode.ssn) ∧
      ∀ ssn : UInt16, w'.HasReceived ssn.toNat →
        w.HasReceived ssn.toNat ∨ op = .addNode ssn := by
  obtain ⟨⟨b, n, hr⟩, hd⟩ := h
  have hsize := hr.size
  have hle := hr.le
  have hself : distanceSN w.beginNode.ssn w.beginNode.ssn ≤
      distanceSN w.beginNode.ssn w.nextNode.ssn := by
    rw [hr.begin_ssn, distanceSN_of_le le_rfl (by omega), Nat.sub_self]
    exact Nat.zero_le _
  cases op with
  | addNode ssn =>
    have hs : ssn.toNat < 65536 := ssn.toNat_lt
    obtain ⟨t, hbt, htb, ht⟩ := SerialRing.exists_position hs b
    by_cases hc : w.looksClear
    · obtain ⟨hrest, hdata⟩ := addNode_of_looksClear w hc t
      rw [ht] at hrest hdata
      refine ⟨_, rfl, ⟨⟨_, _, hrest⟩, by rw [hdata]; exact hd⟩, fun _ hn => absurd hc hn, ?_⟩
      intro s hm
      obtain ⟨x, h1, h2, -⟩ := (hrest.hasReceived_iff s.toNat_lt).mp hm
      omega
    · obtain ⟨b', n', hrest, harr, hdata⟩ := addNode_spec hr hc hbt htb
      rw [ht] at hrest harr hdata
      have hbb := harr.begin_le
      have hle' := hrest.le
      have hnn := harr.next_eq
      refine ⟨_, rfl, ⟨⟨_, _, hrest⟩, by rw [hdata]; exact hd⟩, fun _ _ => ?_, ?_⟩
      · have hn' : n' < b + 65536 := by
          split at hnn <;> omega
        rw [hr.begin_ssn, hrest.begin_ssn, hrest.next_ssn, distanceSN_of_le hbb (by omega),
          distanceSN_of_le (hbb.trans hle') hn']
        omega
      · intro s hm
        obtain ⟨x, h1, h2, hx, hm⟩ := (hrest.hasReceived_iff s.toNat_lt).mp hm
        rcases (harr.marked x h1 h2).mp hm with ⟨hxn, hm⟩ | ⟨rfl, -⟩
        · exact .inl ((hr.hasReceived_iff s.toNat_lt).mpr ⟨x, hbb.trans h1, hxn, hx, hm⟩)
        · exact .inr (congrArg _ (UInt16.toNat_inj.mp (ht.symm.trans hx)))
  | posted ssn =>
    refine ⟨_, rfl, ⟨⟨b, n, ⟨hr.begin_eq, hr.next_eq, hle, hsize, hr.num, hr.plain⟩, hr.next_un,
      hr.begin_un⟩, Nat.mod_lt _ (by omega)⟩, fun _ _ => hself, fun s hm => .inl hm⟩
  | followDataWin =>
    obtain ⟨b', hb, hn, heq, hrest, -⟩ := followDataWin_spec hr hd
    refine ⟨_, heq, ⟨⟨b', n, hrest⟩, hd⟩, fun _ _ => ?_, fun s hm => .inl ?_⟩
    · rw [hr.begin_ssn, hrest.begin_ssn, hrest.next_ssn, distanceSN_of_le hb (by omega),
        distanceSN_of_le hle (by omega)]
      omega
    · obtain ⟨x, h1, h2, hx, hm⟩ := (hrest.hasReceived_iff s.toNat_lt).mp hm
      exact (hr.hasReceived_iff s.toNat_lt).mpr ⟨x, hb.trans h1, h2, hx, hm⟩
  | clear =>
    refine ⟨_, rfl, kept_clear, fun hne => absurd rfl hne, fun s hm => ?_⟩
    exact absurd hm.1 (by simp [InWindow, beginNode, nextNode, distanceSN, SerialRing.dist])
  | sentAck ack =>
    refine ⟨_, rfl, ⟨⟨b, n, ⟨hr.begin_eq, hr.next_eq, hle, hsize, hr.num, hr.plain⟩, hr.next_un,
      hr.begin_un⟩, hd⟩, fun _ _ => hself, fun s hm => .inl hm⟩

/-- Every run from a cleared window answers. -/
theorem kept_run (ops : List SubWinOp) : ∃ w, run SubWinOp.step ops {} = some w ∧ Kept w := by
  have hanswer : ∀ op w, Kept w → ∃ w', SubWinOp.step op w = some w' ∧ Kept w' :=
    fun op w hw => (step_kept op hw).imp fun w' h => ⟨h.1, h.2.1⟩
  exact run_total hanswer kept_clear ops

end RxSubWin

open RxSubWin

/-- **The sub window over a run.** From a cleared window, whatever happens to it in whatever order:
every operation ends, the representation invariant holds, `RxBegin` stays at or before `RxNext`
while both advance, and a node in range is marked `Received` only if exactly its SSN was added and
has been in range from then on. -/
theorem subWin_run (ops : List SubWinOp) :
    ∃ w, run SubWinOp.step ops {} = some w ∧ w.WellFormed ∧
      (∀ op w', op ≠ .clear → ¬ w.looksClear → SubWinOp.step op w = some w' →
        distanceSN w.beginNode.ssn w'.beginNode.ssn ≤ distanceSN w.beginNode.ssn w'.nextNode.ssn) ∧
      ∀ ssn : UInt16, w.HasReceived ssn.toNat →
        ∃ pre post, ops = pre ++ .addNode ssn :: post ∧
          ∀ mid, mid <+: post →
            ∃ w', run SubWinOp.step (pre ++ .addNode ssn :: mid) {} = some w' ∧
              w'.HasReceived ssn.toNat := by
  have hstep : ∀ op w w', Kept w → SubWinOp.step op w = some w' → Kept w' := by
    intro op w w' hw hop
    obtain ⟨w'', hw'', hkept, -⟩ := step_kept op hw
    obtain rfl : w'' = w' := Option.some.inj (hw''.symm.trans hop)
    exact hkept
  obtain ⟨w, hrun, hkept⟩ := kept_run ops
  refine ⟨w, hrun, ?_, ?_, ?_⟩
  · obtain ⟨b, n, hr⟩ := hkept.rests
    exact hr.wellFormed
  · intro op w' hop hc hw'
    obtain ⟨w'', hw'', -, hord, -⟩ := step_kept op hkept
    obtain rfl : w'' = w' := Option.some.inj (hw''.symm.trans hw')
    exact hord hop hc
  · intro ssn hm
    refine run_since (P := fun w => w.HasReceived ssn.toNat) hstep ?_ kept_clear ?_ hrun hm
    · intro op w w' hw hop hm'
      obtain ⟨w'', hw'', -, -, hmark⟩ := step_kept op hw
      obtain rfl : w'' = w' := Option.some.inj (hw''.symm.trans hop)
      exact hmark ssn hm'
    · rintro ⟨hin, -⟩
      exact absurd hin (by simp [InWindow, beginNode, nextNode, distanceSN, SerialRing.dist])

end Mpd

end AndroidVendor
