import AndroidVendor.Mpd.DataWin
import AndroidVendor.Mpd.SubWinRun

/-!
# The receiver, unrolled

What the receive side is for, without the ring: a tape of slots, one for every DSN of the unbounded
stream, of which the window `[rxBegin, rxNext)` is being filled. Slots leave at the front, handed
over or given up, and enter blank at the end. No number wraps and no slot is used twice.

`Tape.Step` lists what can happen to the tape while no packet is being stored, `Tape.Arrives` the
ways a packet can be disposed of. Everything the code does is a sequence of these
(`AndroidVendor.Mpd.TapeRefinement`), so what they preserve holds of the code.
-/

namespace AndroidVendor

namespace Mpd

namespace RxDataWinNode

/-- What is asked for when a complete slot leaves at the front. -/
def passActions (n : RxDataWinNode) (mem : Option ℕ) : List Action :=
  if n.fragment = 0 then
    (if n.flag ≠ .sended then n.postHead .inOrder else []) ++ [.access (.flow n.stream)]
  else if n.fragment = 3 then
    n.postMerged mem ++ [.access (.flow n.stream)] ++ n.freePtrs.map .free
  else []

/-- A slot that holds nothing and waits for its time to run. -/
structure Blank (n : RxDataWinNode) : Prop where
  status : n.status = .unReceived
  timeOut : n.timeOut = false
  fragment : n.fragment = 0
  flag : n.flag = .unChecked

theorem Blank.wiped (dsn : ℕ) : Blank { dsn := dsn } := ⟨rfl, rfl, rfl, rfl⟩

theorem Blank.not_ready {n : RxDataWinNode} (h : Blank n) : ¬ n.Ready := by
  simp [Ready, h.status, h.timeOut]

/-- Two slots that differ in their clock, in having timed out, in having been looked at, or in
having lost their subflow. -/
structure Same (n n' : RxDataWinNode) : Prop where
  status : n'.status = n.status
  fragment : n'.fragment = n.fragment
  mpdHeadLen : n'.mpdHeadLen = n.mpdHeadLen
  dsn : n'.dsn = n.dsn
  ssn : n'.ssn = n.ssn
  msgLen : n'.msgLen = n.msgLen
  msgPtr : n'.msgPtr = n.msgPtr
  sended : n'.flag = .sended ↔ n.flag = .sended
  unChecked : n'.flag = .unChecked → n.flag = .unChecked
  blank : n.status = .unReceived → n'.flag = n.flag
  stream : n'.stream = n.stream ∨ n'.stream = 3

end RxDataWinNode

/-- The receive side of a session, its data window unrolled. -/
structure Tape where
  rxBegin : ℕ
  rxNext : ℕ
  cell : ℕ → RxDataWinNode
  sub : ℕ → RxSubWin
  valid : ℕ → Bool
  out : List Action

namespace Tape

def setCell (T : Tape) (p : ℕ) (n : RxDataWinNode) : Tape :=
  { T with cell := Function.update T.cell p n }

def emit (T : Tape) (as : List Action) : Tape := { T with out := T.out ++ as }

def setSub (T : Tape) (i : ℕ) (w : RxSubWin) : Tape :=
  { T with sub := Function.update T.sub i w }

@[simp] theorem emit_nil (T : Tape) : T.emit [] = T := by
  rw [emit, List.append_nil]

/-- The slot at the front. -/
def head (T : Tape) : RxDataWinNode := T.cell T.rxBegin

/-- The sub windows after a packet of slot `n` was handed over. -/
def note (T : Tape) (n : RxDataWinNode) : Tape :=
  if T.valid n.stream then
    T.setSub n.stream { T.sub n.stream with dataWinSSN := ssnPlus n.ssn }
  else T

/-- The slot at the front is complete and is handed over. -/
def pass (T : Tape) (mem : Option ℕ) : Tape :=
  let n := T.head
  let T' := T.emit (n.passActions mem)
  let T' := if n.fragment = 0 ∨ n.fragment = 3 then T'.note n else T'
  { T' with rxBegin := T.rxBegin + 1 }

section Fields

variable (T : Tape) (n : RxDataWinNode) (mem : Option ℕ)

@[simp] theorem note_rxNext : (T.note n).rxNext = T.rxNext := by rw [note]; split <;> rfl

@[simp] theorem note_cell : (T.note n).cell = T.cell := by rw [note]; split <;> rfl

@[simp] theorem note_valid : (T.note n).valid = T.valid := by rw [note]; split <;> rfl

@[simp] theorem note_out : (T.note n).out = T.out := by rw [note]; split <;> rfl

@[simp] theorem pass_rxBegin : (T.pass mem).rxBegin = T.rxBegin + 1 := rfl

@[simp] theorem pass_rxNext : (T.pass mem).rxNext = T.rxNext := by
  simp only [pass]
  split <;> simp [emit]

@[simp] theorem pass_cell : (T.pass mem).cell = T.cell := by
  simp only [pass]
  split <;> simp [emit]

@[simp] theorem pass_valid : (T.pass mem).valid = T.valid := by
  simp only [pass]
  split <;> simp [emit]

@[simp] theorem pass_out : (T.pass mem).out = T.out ++ T.head.passActions mem := by
  simp only [pass]
  split <;> simp [emit]

theorem note_sub : (T.note n).sub = if T.valid n.stream then
    Function.update T.sub n.stream { T.sub n.stream with dataWinSSN := ssnPlus n.ssn }
    else T.sub := by
  rw [note]
  split <;> rfl

theorem pass_sub : (T.pass mem).sub =
    if (T.head.fragment = 0 ∨ T.head.fragment = 3) then (T.note T.head).sub else T.sub := by
  simp only [pass]
  split
  · rw [note_sub, note_sub]
    rfl
  · rfl

end Fields

/-- The slot at the front is given up. -/
def drop (T : Tape) : Tape :=
  { T.emit (T.head.freePtrs.map .free) with rxBegin := T.rxBegin + 1 }

/-- A blank slot enters at the end. -/
def grow (T : Tape) : Tape :=
  { T.setCell (T.rxNext + 1) { dsn := (T.rxNext + 1) % 65536 } with rxNext := T.rxNext + 1 }

@[simp] theorem drop_rxBegin (T : Tape) : T.drop.rxBegin = T.rxBegin + 1 := rfl

@[simp] theorem drop_rxNext (T : Tape) : T.drop.rxNext = T.rxNext := rfl

@[simp] theorem grow_rxBegin (T : Tape) : T.grow.rxBegin = T.rxBegin := rfl

@[simp] theorem grow_rxNext (T : Tape) : T.grow.rxNext = T.rxNext + 1 := rfl

theorem grow_cell (T : Tape) (p : ℕ) :
    T.grow.cell p = if p = T.rxNext + 1 then { dsn := (T.rxNext + 1) % 65536 } else T.cell p :=
  Function.update_apply _ _ _ _

@[simp] theorem grow_cell_next (T : Tape) :
    T.grow.cell (T.rxNext + 1) = { dsn := (T.rxNext + 1) % 65536 } :=
  Function.update_self _ _ _

theorem grow_cell_of_le (T : Tape) {p : ℕ} (h : p ≤ T.rxNext) : T.grow.cell p = T.cell p :=
  Function.update_of_ne (by omega) _ _

/-- What happens to the tape apart from packets being stored: slots leave, are timed or marked, the
sub windows move, subflows come and go, and what is not the receive side's business is asked for.
`A` says what may be asked for; a slot that loses its subflow will be asked for subflow 3. -/
inductive Step (A : Action → Prop) : Tape → Tape → Prop
  | pass {T : Tape} (mem : Option ℕ) (h : T.rxBegin < T.rxNext)
      (hc : T.head.status = .receiveComplete) : Step A T (T.pass mem)
  | drop {T : Tape} (h : T.rxBegin < T.rxNext) (hc : T.head.status ≠ .receiveComplete) :
      Step A T T.drop
  | touch {T : Tape} {p : ℕ} {n : RxDataWinNode} (hb : T.rxBegin ≤ p) (hn : p ≤ T.rxNext)
      (h : (T.cell p).Same n) (lost : n.stream ≠ (T.cell p).stream → A (.access (.flow 3))) :
      Step A T (T.setCell p n)
  | sub {T : Tape} {i : ℕ} {w : RxSubWin} (op : SubWinOp) (h : op.step (T.sub i) = some w) :
      Step A T (T.setSub i w)
  | acked {T : Tape} (ack : ℕ → ℕ) :
      Step A T { T with sub := fun i => { T.sub i with sentAck := ack i } }
  | flows {T : Tape} (valid : ℕ → Bool) : Step A T { T with valid := valid }
  | other {T : Tape} {as : List Action} (h : ∀ a ∈ as, A a) : Step A T (T.emit as)

/-- Any number of steps. -/
abbrev Steps (A : Action → Prop) : Tape → Tape → Prop := Relation.ReflTransGen (Step A)

/-- A step of a window that is being extended: a blank slot may enter at its end. -/
inductive Widen (A : Action → Prop) : Tape → Tape → Prop
  | step {T T' : Tape} (h : Step A T T') : Widen A T T'
  | grow {T : Tape} (h : T.rxNext + 1 < T.rxBegin + 4096) : Widen A T T.grow

abbrev Widens (A : Action → Prop) : Tape → Tape → Prop := Relation.ReflTransGen (Widen A)

theorem Steps.widens {A : Action → Prop} {T T' : Tape} (h : Steps A T T') : Widens A T T' :=
  Relation.ReflTransGen.mono (fun _ _ hs => Widen.step hs) T T' h

/-- The window is empty at a multiple of 65536: the code takes it for one that was cleared. -/
def LooksClear (T : Tape) : Prop := T.rxBegin = T.rxNext ∧ T.rxBegin % 65536 = 0

/-- A packet behind the window is handed over as it is. -/
def late (T : Tape) (node : MPDNodeInfo) : Tape :=
  (T.emit [.post .outOfWindow node.dsn node.msgPtr node.msgLen node.mpdHeadLen]).setSub node.stream
    { T.sub node.stream with dataWinSSN := ssnPlus node.ssn }

/-- A packet is freed. -/
def refuse (T : Tape) (m : Msg) : Tape := T.emit [.free m]

/-- A packet is stored in slot `p`. -/
def put (T : Tape) (p : ℕ) (node : MPDNodeInfo) (time : ℕ) : Tape :=
  (T.emit [.access (.frag node.fragIndex)]).setCell p ((T.cell p).put node time)

@[simp] theorem setCell_rxBegin (T : Tape) (p : ℕ) (n : RxDataWinNode) :
    (T.setCell p n).rxBegin = T.rxBegin := rfl

@[simp] theorem setCell_rxNext (T : Tape) (p : ℕ) (n : RxDataWinNode) :
    (T.setCell p n).rxNext = T.rxNext := rfl

theorem setCell_cell (T : Tape) (p q : ℕ) (n : RxDataWinNode) :
    (T.setCell p n).cell q = if q = p then n else T.cell q := Function.update_apply _ _ _ _

/-- A slot inside the window is touched: the slot at `RxNext` is as it was. -/
theorem setCell_next_blank {T : Tape} {p : ℕ} {n : RxDataWinNode} (hn : p < T.rxNext)
    (hblank : (T.cell T.rxNext).Blank) :
    ((T.setCell p n).cell (T.setCell p n).rxNext).Blank := by
  rw [setCell_rxNext, setCell_cell, if_neg (by omega)]
  exact hblank

/-- The slot at the front is not ready, nor is what is written over it. -/
theorem setCell_head_idle {T : Tape} {p : ℕ} {n : RxDataWinNode} (hidle : ¬ T.head.Ready)
    (hn : ¬ (T.cell p).Ready → ¬ n.Ready) : ¬ (T.setCell p n).head.Ready := by
  rw [head, setCell_cell, setCell_rxBegin]
  split
  · next heq =>
    rw [head, heq] at hidle
    exact hn hidle
  · exact hidle

@[simp] theorem put_rxBegin (T : Tape) (p : ℕ) (node : MPDNodeInfo) (time : ℕ) :
    (T.put p node time).rxBegin = T.rxBegin := rfl

@[simp] theorem put_rxNext (T : Tape) (p : ℕ) (node : MPDNodeInfo) (time : ℕ) :
    (T.put p node time).rxNext = T.rxNext := rfl

theorem put_cell (T : Tape) (p q : ℕ) (node : MPDNodeInfo) (time : ℕ) :
    (T.put p node time).cell q = if q = p then (T.cell p).put node time else T.cell q :=
  Function.update_apply _ _ _ _

/-- A window that looks clear is moved to where the packet is. Its slot keeps whatever else it
held, `stale`. -/
def anchor (T : Tape) (t : ℕ) (node : MPDNodeInfo) (stale : RxDataWinNode) : Tape :=
  { T.setCell t { stale with dsn := node.dsn, flag := .unChecked } with rxBegin := t, rxNext := t }

/-- How a packet that has arrived is disposed of: handed over, freed, stored inside the window,
stored behind it once it reaches that far, or stored alone at position `t` of a window that looks
clear, in the slot `stale`. -/
inductive Arrives (A : Action → Prop) (node : MPDNodeInfo) (stale : RxDataWinNode) (t : ℕ) :
    Tape → Tape → Prop
  | late {T : Tape} (d : ℕ) (hc : ¬ T.LooksClear) (hd : 0 < d) (hd' : d ≤ 1000)
      (h : (node.dsn + d) % 65536 = T.rxBegin % 65536) : Arrives A node stale t T (T.late node)
  | refuse {T : Tape} : Arrives A node stale t T (T.refuse node.msgPtr)
  | store {T : Tape} {p time : ℕ} (hb : T.rxBegin ≤ p) (hn : p < T.rxNext)
      (hp : p % 65536 = node.dsn) (hdup : ¬ (T.cell p).Duplicate node) :
      Arrives A node stale t T (T.put p node time)
  | extend {T T₁ T' : Tape} {time : ℕ} (hc : ¬ T.LooksClear) (hT : Widens A T T₁)
      (hle : T.rxNext ≤ T₁.rxNext) (hfar : T₁.rxNext ≤ T.rxNext + 1999)
      (hp : T₁.rxNext % 65536 = node.dsn) (hblank : (T₁.cell T₁.rxNext).Blank)
      (hT' : Widens A (T₁.put T₁.rxNext node time) T') (hnext : T'.rxNext = T₁.rxNext + 1) :
      Arrives A node stale t T T'
  | anchor {T : Tape} {time : ℕ} (hc : T.LooksClear) (ht : t % 65536 = node.dsn) :
      Arrives A node stale t T (((T.anchor t node stale).put t node time).grow)

/-- The packet of slot `p` is handed over ahead of order. -/
def early (T : Tape) (p : ℕ) : Tape :=
  (T.setCell p { T.cell p with flag := .sended }).emit ((T.cell p).postHead .early)

/-- One slot of the window is looked at for a pure acknowledgement. -/
inductive Look (A : Action → Prop) : Tape → Tape → Prop
  | step {T T' : Tape} (h : Step A T T') : Look A T T'
  | early {T : Tape} {p : ℕ} {m : Msg} (hb : T.rxBegin ≤ p) (hn : p < T.rxNext)
      (hc : (T.cell p).status = .receiveComplete) (hf : (T.cell p).flag = .unChecked)
      (hm : (T.cell p).msgPtr 0 = some m) (hack : (T.cell p).LooksPureAck m) :
      Look A T (T.early p)

/-- The slots from `p` on that will be looked into, with what they will be asked for. -/
def Allows (T : Tape) (A : Action → Prop) (p : ℕ) : Prop :=
  ∀ q m, p ≤ q → q < T.rxNext → (T.cell q).status = .receiveComplete →
    (T.cell q).flag = .unChecked → (T.cell q).msgPtr 0 = some m →
    ∀ a ∈ (T.cell q).checkReads m, A a

theorem Allows.touched {A : Action → Prop} {T : Tape} {p : ℕ} (h : T.Allows A p) (n : RxDataWinNode) :
    (T.setCell p n).Allows A (p + 1) := by
  intro q m hq hqn hc hf hm
  rw [setCell_cell, if_neg (by omega)] at hc hf hm ⊢
  exact h q m (by omega) hqn hc hf hm

/-- The window is cleared. -/
def clear (T : Tape) : Tape :=
  { T with rxBegin := 0, rxNext := 0, cell := fun _ => {} }

end Tape

end Mpd

end AndroidVendor
