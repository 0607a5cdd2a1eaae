import AndroidVendor.Lib.Machine
import AndroidVendor.Mpd.TapeSession

/-!
# Invariants of the tape

What any number of tape steps keeps: the window fits the ring and only moves forward, and a property
of the slots that does not depend on clocks and marks stays with them. The results about what is
handed over, freed and accessed are built from these.

## Main results

* `Tape.Cells.step`, `Tape.Cells.widens`, `Tape.Cells.put`, `Tape.Cells.anchor` — a property of
  every slot from `RxBegin` to `RxNext`
* `Tape.Keeps` — what every step of the tape keeps, with its rules for what the session does
* `guarded_tape` — the induction over a run of the session, on its tape
-/

namespace AndroidVendor

namespace Mpd

open Machine Relation

namespace Tape

variable {T T' : Tape} {A : Action → Prop} {node : MPDNodeInfo} {P : ℕ → RxDataWinNode → Prop}

/-! ### The bounds of the window -/

/-- The window fits the ring. -/
structure Window (T : Tape) : Prop where
  le : T.rxBegin ≤ T.rxNext
  size : T.rxNext < T.rxBegin + 4096

theorem Step.bounds (h : Step A T T') : T.rxBegin ≤ T'.rxBegin ∧ T'.rxNext = T.rxNext := by
  cases h with
  | pass mem hlt hc => exact ⟨Nat.le_succ _, pass_rxNext T mem⟩
  | drop hlt hc => exact ⟨Nat.le_succ _, rfl⟩
  | _ => exact ⟨le_rfl, rfl⟩

theorem Step.window (h : Step A T T') (hw : T.Window) : T'.Window := by
  obtain ⟨hle, hsize⟩ := hw
  cases h with
  | pass mem hlt hc =>
    refine ⟨?_, ?_⟩
    · rw [pass_rxNext, pass_rxBegin]
      exact hlt
    · rw [pass_rxNext, pass_rxBegin]
      omega
  | drop hlt hc =>
    refine ⟨hlt, ?_⟩
    rw [drop_rxNext, drop_rxBegin]
    omega
  | _ => exact ⟨hle, hsize⟩

theorem Steps.bounds (h : Steps A T T') : T.rxBegin ≤ T'.rxBegin ∧ T'.rxNext = T.rxNext := by
  induction h with
  | refl => exact ⟨le_rfl, rfl⟩
  | tail _ hs ih =>
    obtain ⟨hb, hn⟩ := hs.bounds
    exact ⟨ih.1.trans hb, hn.trans ih.2⟩

theorem Widen.begin_le (h : Widen A T T') : T.rxBegin ≤ T'.rxBegin := by
  cases h with
  | step h => exact h.bounds.1
  | grow h => exact le_rfl

theorem Widen.window (h : Widen A T T') (hw : T.Window) : T'.Window := by
  cases h with
  | step h => exact h.window hw
  | grow h => exact ⟨hw.le.trans (Nat.le_succ _), h⟩

theorem Widens.begin_le (h : Widens A T T') : T.rxBegin ≤ T'.rxBegin := by
  induction h with
  | refl => exact le_rfl
  | tail _ hs ih => exact ih.trans hs.begin_le

/-! ### Properties of the slots -/

/-- Every slot from `RxBegin` to `RxNext` has the property `P`, which may depend on the position the
slot stands for. -/
def Cells (P : ℕ → RxDataWinNode → Prop) (T : Tape) : Prop :=
  ∀ p, T.rxBegin ≤ p → p ≤ T.rxNext → P p (T.cell p)

/-- `P` does not depend on clocks and marks, nor, where `A` lets a slot lose it, on the subflow. A
wiped slot has it. -/
structure Steady (A : Action → Prop) (P : ℕ → RxDataWinNode → Prop) : Prop where
  same : ∀ p n n', P p n → n.Same n' → (n'.stream ≠ n.stream → A (.access (.flow 3))) → P p n'
  wiped : ∀ p dsn, P p { dsn := dsn }

theorem Cells.step (h : T.Cells P) (hP : Steady A P) (hs : Step A T T') : T'.Cells P := by
  cases hs with
  | pass mem hlt hc =>
    intro p hb hn
    rw [pass_rxBegin] at hb
    rw [pass_rxNext] at hn
    rw [pass_cell]
    exact h p (by omega) hn
  | drop hlt hc => exact fun p hb hn => h p ((Nat.le_succ _).trans hb) hn
  | touch hb hn hsame hlost =>
    intro q hq hqn
    rw [setCell_cell]
    split
    · next heq => exact heq ▸ hP.same _ _ _ (h _ hb hn) hsame hlost
    · exact h q hq hqn
  | _ => exact h

theorem Cells.grow (h : T.Cells P) (hP : ∀ p dsn, P p { dsn := dsn }) : T.grow.Cells P := by
  intro p hb hn
  rw [grow_cell]
  split
  · next heq => exact hP p _
  · next hne =>
    rw [grow_rxNext] at hn
    exact h p hb (by omega)

theorem Cells.widens (h : T.Cells P) (hP : Steady A P) (hs : Widens A T T') : T'.Cells P := by
  induction hs with
  | refl => exact h
  | tail _ hs ih =>
    cases hs with
    | step hs => exact ih.step hP hs
    | grow _ => exact ih.grow hP.wiped

theorem Cells.put {p time : ℕ} (h : T.Cells P) (hput : P p ((T.cell p).put node time)) :
    (T.put p node time).Cells P := by
  intro q hq hqn
  rw [put_cell]
  split
  · next heq => exact heq ▸ hput
  · exact h q hq hqn

/-- The window of a packet that found it looking clear: its slot, and a wiped one. -/
theorem Cells.anchor {t time : ℕ} {stale : RxDataWinNode} (hP : ∀ p dsn, P p { dsn := dsn })
    (hput : P t (({ stale with dsn := node.dsn, flag := .unChecked } : RxDataWinNode).put node
      time)) :
    (((T.anchor t node stale).put t node time).grow).Cells P := by
  refine Cells.grow (fun p hb hn => ?_) hP
  obtain rfl : p = t := Nat.le_antisymm hn hb
  rw [put_cell, if_pos rfl, Tape.anchor, setCell]
  dsimp only
  rw [Function.update_self]
  exact hput

/-- The slot of a packet that is handed over ahead of order is marked. -/
theorem Cells.early {p : ℕ} (h : T.Cells P) (hmark : P p { T.cell p with flag := .sended }) :
    (T.early p).Cells P := by
  intro q hq hqn
  simp only [Tape.early, Tape.emit, setCell_cell]
  split
  · next heq => exact heq ▸ hmark
  · exact h q hq hqn

theorem Cells.clear (T : Tape) (hP : ∀ p dsn, P p { dsn := dsn }) : T.clear.Cells P :=
  fun p _ _ => hP p 0

/-! ### Properties of the tape -/

/-- What every step keeps, and every blank slot that enters. -/
structure Keeps (A : Action → Prop) (J : Tape → Prop) : Prop where
  step : ∀ T T', J T → Step A T T' → J T'
  grow : ∀ T, J T → T.rxNext + 1 < T.rxBegin + 4096 → J T.grow

variable {J : Tape → Prop}

theorem Keeps.steps (hJ : Keeps A J) (h : J T) (hs : Steps A T T') : J T' := by
  induction hs with
  | refl => exact h
  | tail _ hs ih => exact hJ.step _ _ ih hs

theorem Keeps.widens (hJ : Keeps A J) (h : J T) (hs : Widens A T T') : J T' := by
  induction hs with
  | refl => exact h
  | tail _ hs ih =>
    cases hs with
    | step hs => exact hJ.step _ _ ih hs
    | grow hlt => exact hJ.grow _ ih hlt

theorem Keeps.looks (hJ : Keeps A J) (hearly : ∀ T p m, J T → T.rxBegin ≤ p → p < T.rxNext →
      (T.cell p).status = .receiveComplete → (T.cell p).flag = .unChecked →
      (T.cell p).msgPtr 0 = some m → (T.cell p).LooksPureAck m → J (T.early p))
    (h : J T) (hs : ReflTransGen (Look A) T T') : J T' := by
  induction hs with
  | refl => exact h
  | tail _ hs ih =>
    cases hs with
    | step hs => exact hJ.step _ _ ih hs
    | early hb hn hc hf hm hack => exact hearly _ _ _ ih hb hn hc hf hm hack

/-- No slot has two fragments of which the first looks like a pure acknowledgement. -/
def Plain (_ : ℕ) (n : RxDataWinNode) : Prop :=
  n.status = .receiveComplete → n.flag = .unChecked → ∀ m, n.msgPtr 0 = some m →
    n.LooksPureAck m → n.fragment = 0

theorem steady_plain (A : Action → Prop) : Steady A Plain where
  same p n n' h hsame _ hc hf m hm hack := by
    rw [hsame.fragment]
    refine h (hsame.status ▸ hc) (hsame.unChecked hf) m (hsame.msgPtr ▸ hm) ?_
    rwa [RxDataWinNode.LooksPureAck, hsame.mpdHeadLen] at hack
  wiped p dsn hc := by cases hc

/-- What is known of the slots before they are looked at is known of the one that is handed over. -/
theorem Keeps.looks_cells (hJ : Keeps A J) (hP : Steady A P)
    (hmark : ∀ p n, P p n → P p { n with flag := .sended })
    (hearly : ∀ T p m, J T → T.Cells P → T.rxBegin ≤ p → p < T.rxNext →
      (T.cell p).status = .receiveComplete → (T.cell p).flag = .unChecked →
      (T.cell p).msgPtr 0 = some m → (T.cell p).LooksPureAck m → J (T.early p))
    (h : J T) (hcells : T.Cells P) (hs : ReflTransGen (Look A) T T') : J T' := by
  have hboth : Keeps A fun T => J T ∧ T.Cells P := by
    refine ⟨fun T T' h hs => ⟨hJ.step T T' h.1 hs, h.2.step hP hs⟩,
      fun T h hlt => ⟨hJ.grow T h.1 hlt, h.2.grow hP.wiped⟩⟩
  refine (hboth.looks (fun T p m h hb hn hc hf hm hack => ⟨?_, ?_⟩) ⟨h, hcells⟩ hs).1
  · exact hearly T p m h.1 h.2 hb hn hc hf hm hack
  · exact h.2.early (hmark p _ (h.2 p hb hn.le))

/-- Only unfragmented packets are handed over ahead of order. -/
theorem Keeps.looks_plain (hJ : Keeps A J) (hearly : ∀ T p m, J T → T.rxBegin ≤ p → p < T.rxNext →
      (T.cell p).status = .receiveComplete → (T.cell p).flag = .unChecked →
      (T.cell p).msgPtr 0 = some m → (T.cell p).fragment = 0 → J (T.early p))
    (h : J T) (hplain : T.Cells Plain) (hs : ReflTransGen (Look A) T T') : J T' := by
  refine hJ.looks_cells (steady_plain A) (fun p n _ _ hsended => ?_)
    (fun T p m hT hcells hb hn hc hf hm hack => ?_) h hplain hs
  · cases hsended
  · exact hearly T p m hT hb hn hc hf hm (hcells p hb hn.le hc hf m hm hack)

/-- What a datagram does, given what becomes of a packet that is refused or that arrives. -/
theorem Keeps.recv {J' : Tape → Prop} (hJ : Keeps A J) (hJ' : Keeps A J') {u : UserInfo} {m : Msg}
    {t : ℕ} (h : J T) (hrefuse : ∀ S, J S → J' (S.refuse m))
    (harrives : ∀ as S, (∀ a ∈ as, A a) → J (T.emit as) → u.Accepts m →
      Arrives A m.node (u.rxDataWin.win (m.header.dsn % 4096)) t (T.emit as) S → J' S)
    (hs : Op.Moves A u t (.recv m) T T') : J' T' := by
  obtain ⟨as, has, hmove⟩ := hs
  have hemit : J (T.emit as) := hJ.step _ _ h (.other has)
  rcases hmove with rfl | ⟨hacc, S, harr, hsteps⟩
  · exact hrefuse _ hemit
  · exact hJ'.steps (harrives as S has hemit hacc harr) hsteps

/-- What anything but a datagram does. -/
theorem Keeps.quiet (hJ : Keeps A J) {u : UserInfo} {op : Op} {t : ℕ} (h : J T)
    (hrecv : ∀ m, op ≠ .recv m)
    (hlook : op = .checkAck → u.rxDataWin.newData → ReflTransGen (Look A) T T' → J T')
    (hclear : op = .clearDataWin → ∀ S, S.rxBegin = S.rxNext → (S.cell S.rxNext).Blank → J S →
      J S.clear)
    (hs : op.Moves A u t T T') : J T' := by
  cases op with
  | recv m => exact absurd rfl (hrecv m)
  | checkAck =>
    cases hnew : u.rxDataWin.newData with
    | false => exact hs.2 hnew ▸ h
    | true => exact hlook rfl hnew hs.1
  | clearDataWin =>
    obtain ⟨S, hsteps, hempty, hblank, rfl⟩ := hs
    exact hclear rfl S hempty hblank (hJ.steps h hsteps)
  | _ => exact hJ.steps h hs

/-- **The log only grows.** -/
theorem keeps_log (A : Action → Prop) (log : List Action) : Keeps A fun T => log <+: T.out where
  step T T' h hs := by
    cases hs with
    | pass mem hlt hc =>
      rw [pass_out]
      exact h.trans (List.prefix_append _ _)
    | drop hlt hc => exact h.trans (List.prefix_append _ _)
    | other has => exact h.trans (List.prefix_append _ _)
    | _ => exact h
  grow _ h _ := h

theorem Arrives.log {node : MPDNodeInfo} {stale : RxDataWinNode} {t : ℕ} {log : List Action}
    (hs : Arrives A node stale t T T') (h : log <+: T.out) : log <+: T'.out := by
  cases hs with
  | late => exact h.trans (List.prefix_append _ _)
  | refuse => exact h.trans (List.prefix_append _ _)
  | store hb hn => exact h.trans (List.prefix_append _ _)
  | @extend T₁ _ time hc hT hle hfar hp hblank hT' =>
    have h₁ : log <+: T₁.out := (keeps_log A log).widens h hT
    have hput : log <+: (T₁.put T₁.rxNext node time).out := h₁.trans (List.prefix_append _ _)
    exact (keeps_log A log).widens hput hT'
  | anchor hc ht => exact h.trans (List.prefix_append _ _)

theorem moves_log {u : UserInfo} {op : Op} {t : ℕ} {log : List Action} (hs : op.Moves A u t T T')
    (h : log <+: T.out) : log <+: T'.out := by
  have hJ := keeps_log A log
  by_cases hop : ∃ m, op = .recv m
  · obtain ⟨m, rfl⟩ := hop
    exact hJ.recv hJ h (fun _ hS => hS.trans (List.prefix_append _ _))
      (fun _ _ _ hS _ harr => harr.log hS) hs
  · refine hJ.quiet h (fun m hm => hop ⟨m, hm⟩) (fun _ _ hlook => ?_) (fun _ _ _ _ hS => hS) hs
    exact hJ.looks (fun _ _ _ hS _ _ _ _ _ _ => hS.trans (List.prefix_append _ _)) h hlook

end Tape

/-! ### Runs of the session -/

/-- The session with all windows cleared, which has asked for nothing yet. -/
def UserInfo.cleared (u : UserInfo) : UserInfo :=
  { u with rxDataWin := {}, rxSubWin := fun _ => {}, txWindow := fun _ => {}, out := [] }

/-- The tape of such a session. -/
def Tape.blank (valid : ℕ → Bool) : Tape := ⟨0, 0, fun _ => {}, fun _ => {}, valid, []⟩

theorem Tape.blank_window (valid : ℕ → Bool) : (Tape.blank valid).Window :=
  ⟨le_rfl, Nat.zero_lt_succ 4095⟩

namespace UserInfo

variable {F : ℕ → Prop} {B : Access → Prop} {C : List Op → UserInfo → Op → Prop}
  {I : List Op → Tape → Prop} {u₀ u : UserInfo} {ops : List Op}

theorem atRest_cleared (u : UserInfo) :
    AtRest u.cleared (Tape.blank fun i => (u.schdPara i).isValid) := by
  refine ⟨⟨⟨rfl, le_rfl, ?_, ?_, ?_, rfl, rfl, rfl, fun _ => RxSubWin.kept_clear⟩, rfl, rfl⟩,
    .wiped 0, ?_⟩
  · exact Nat.zero_lt_succ 4095
  · intro p _ hp
    exact absurd hp (Nat.not_lt_zero p)
  · intro p _ hp
    rw [show p = 0 from Nat.le_zero.mp hp]
    rfl
  · simp [Tape.blank, Tape.head, RxDataWinNode.Ready]

theorem AtRest.window {T : Tape} (h : AtRest u T) : T.Window := ⟨h.le, h.size⟩

/-- **Induction over a run.** What every step that meets the condition keeps of the tape, every run
keeps whose steps do. `t` chooses the position of a packet that finds the window looking clear. -/
theorem guarded_tape (t : List Op → UserInfo → Op → ℕ)
    (hfit : ∀ ops u op, C ops u op → op.Fits F B u)
    (ht : ∀ ops u m, C ops u (.recv m) → u.Accepts m → u.rxDataWin.looksClear →
      t ops u (.recv m) % 65536 = m.header.dsn)
    (hstep : ∀ ops u op u' T T', AtRest u T → AtRest u' T' → I ops T → C ops u op →
      op.Moves (SideAction F B) u (t ops u op) T T' → I (ops ++ [op]) T')
    (h₀ : ∀ valid, I [] (Tape.blank valid)) (h : Guarded Op.step C u₀.cleared ops u) :
    ∃ T, AtRest u T ∧ I ops T := by
  have hown : Own F u₀.cleared := by
    rintro m ⟨f, i, hm⟩
    cases hm
  have hinv : ∃ T, AtRest u T ∧ Own F u ∧ TxOk u ∧ I ops T := by
    refine Guarded.inv (I := fun ops u => ∃ T, AtRest u T ∧ Own F u ∧ TxOk u ∧ I ops T) ?_ ?_ h
    · rintro ops op u u' ⟨T, hT, hown, htx, hI⟩ hC hs
      obtain ⟨T', hT', hmoves, hown', htx'⟩ := step_tape (t := t ops u op) hT hown htx
        (hfit ops u op hC) (fun m hm => by subst hm; exact ht ops u m hC) hs
      exact ⟨T', hT', hown', htx', hstep ops u op u' T T' hT hT' hI hC hmoves⟩
    · exact ⟨_, atRest_cleared u₀, hown, fun _ => ⟨0, 0, TxWin.spans_clear⟩, h₀ _⟩
  obtain ⟨T, hT, -, -, hI⟩ := hinv
  exact ⟨T, hT, hI⟩

end UserInfo

end Mpd

end AndroidVendor
