import AndroidVendor.Mpd.Basic

/-!
# The rx sub window

`stRxSubWin` and its operations (`mpd_rx.c`): the receiver's record of which SSNs of one subflow
have arrived, from which it acknowledges.

The loops here all count: the one that moves `RxBegin` compares it with `RxNext`, and the one that
extends the window runs exactly `DISTANCESN(next, node)` times, so these are structural recursions.
Only the loop that chases `dataWinSSN` has no such bound in its text.
-/

namespace AndroidVendor

namespace Mpd

open Loop

namespace RxSubWin

/-- The node at `RxBegin`. -/
def beginNode (w : RxSubWin) : RxSubWinNode := w.win w.rxBegin

/-- The node at `RxNext`. -/
def nextNode (w : RxSubWin) : RxSubWinNode := w.win w.rxNext

def setNode (w : RxSubWin) (index : ℕ) (n : RxSubWinNode) : RxSubWin :=
  { w with win := Function.update w.win index n }

/-- The loop of `MPD_SubWinRxBeginMove`: skip what has been received. -/
def skipReceived : ℕ → RxSubWin → RxSubWin
  | 0, w => w
  | k + 1, w =>
    if w.beginNode.status = .received ∧ w.rxBegin ≠ w.rxNext then
      skipReceived k { w with rxBegin := subWinPlus w.rxBegin }
    else w

/-- `MPD_SubWinRxBeginMove`. The loop stops at `RxNext`, less than one turn away. -/
def rxBeginMove (w : RxSubWin) (forceMove : Bool) : RxSubWin :=
  skipReceived 1024 (if forceMove then { w with rxBegin := subWinPlus w.rxBegin } else w)

/-- `MPD_SubWinRxNextMove`: one more node; a full window gives up its oldest. -/
def rxNextMove (w : RxSubWin) : RxSubWin :=
  let ssn := w.nextNode.ssn
  let w := { w with rxNext := subWinPlus w.rxNext }
  let w := if w.rxNext = w.rxBegin then w.rxBeginMove true else w
  w.setNode w.rxNext ⟨.unReceived, ssnPlus ssn⟩

/-- The loop of `MPD_SubWinAddNode` that extends the window up to `ssn`. -/
def extendTo (ssn : ℕ) : ℕ → RxSubWin → RxSubWin
  | 0, w => w
  | k + 1, w => if ssn ≠ w.nextNode.ssn then extendTo ssn k w.rxNextMove else w

/-- The window is in the state `MPD_ClearSubWin` leaves: empty, at slot 0, SSN 0. The code takes
this for a window that was cleared, but a window that has received everything up to SSN 65535 looks
the same. -/
def looksClear (w : RxSubWin) : Prop := w.rxBegin = 0 ∧ w.rxNext = 0 ∧ w.beginNode.ssn = 0

instance (w : RxSubWin) : Decidable w.looksClear := inferInstanceAs (Decidable (_ ∧ _ ∧ _))

/-- The re-anchoring of a clear window at the first packet. -/
def anchor (w : RxSubWin) (ssn : ℕ) : RxSubWin :=
  { w with rxBegin := ssn % 1024, rxNext := ssn % 1024 }.setNode (ssn % 1024) ⟨.unReceived, ssn⟩

/-- The three-way branch of `MPD_SubWinAddNode` on where `ssn` lies. -/
def place (w : RxSubWin) (ssn : ℕ) : RxSubWin :=
  if distanceSN ssn w.beginNode.ssn < distanceSN w.beginNode.ssn ssn then w
  else if distanceSN w.nextNode.ssn ssn ≤ distanceSN ssn w.nextNode.ssn then
    let w := extendTo ssn (distanceSN w.nextNode.ssn ssn) w
    (w.setNode w.rxNext ⟨.received, w.nextNode.ssn⟩).rxNextMove
  else w.setNode (ssn % 1024) ⟨.received, (w.win (ssn % 1024)).ssn⟩

/-- `MPD_SubWinAddNode`, on the window of the packet's subflow. -/
def addNode (w : RxSubWin) (ssn : ℕ) : RxSubWin :=
  ((if w.looksClear then w.anchor ssn else w).place ssn).rxBeginMove false

/-- `RxBegin` has not reached `dataWinSSN`, which lies ahead of it. -/
def behindDataWin (w : RxSubWin) : Prop :=
  w.beginNode.ssn ≠ w.dataWinSSN ∧ distanceSN w.beginNode.ssn w.dataWinSSN < 32767

instance : DecidablePred behindDataWin := fun _ => inferInstanceAs (Decidable (_ ∧ _))

/-- The loop of `MPD_DataWinRxBeginMove` that moves `RxBegin` up to `dataWinSSN`. -/
def chaseDataWin : ℕ → RxSubWin → Option RxSubWin :=
  whileLoop behindDataWin fun w => some { w with rxBegin := subWinPlus w.rxBegin }

/-- The sub window part of `MPD_DataWinRxBeginMove`, for one valid subflow. -/
def followDataWin (w : RxSubWin) : Option RxSubWin :=
  if distanceSN w.beginNode.ssn w.nextNode.ssn < distanceSN w.beginNode.ssn w.dataWinSSN then some w
  else (chaseDataWin 1024 w).map (·.rxBeginMove false)

end RxSubWin

end Mpd

end AndroidVendor
