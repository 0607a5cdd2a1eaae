import AndroidVendor.Mpd.SendLog
import AndroidVendor.Mpd.SlotInv
import AndroidVendor.Mpd.StateIndRun

/-!
# The receive side and the transmit buffers

The slots of the data window hold buffers that were received. As long as the transmit buffers are
others, whatever the receive side frees is none of them.

## Main results

* `slotInv_foreign` — no slot ever holds a transmit buffer
* `RxQuiet` — what the operations of the receive side ask for, with a rule for each
-/

namespace AndroidVendor

namespace Mpd

open Loop Relation UserInfo

variable {F : ℕ → Prop}

/-! ### Slots -/

/-- The slot holds no buffer of `F`. -/
def RxDataWinNode.Foreign (F : ℕ → Prop) (n : RxDataWinNode) : Prop :=
  ∀ i m, n.msgPtr i = some m → ¬ F m.addr

theorem RxDataWinNode.Foreign.put {n : RxDataWinNode} {node : MPDNodeInfo} (h : n.Foreign F)
    (hF : ¬ F node.msgPtr.addr) (time : ℕ) : (n.put node time).Foreign F := by
  intro i m hm
  simp only [RxDataWinNode.put, Function.update_apply] at hm
  split at hm
  · cases hm
    exact hF
  · exact h i m hm

theorem slotInv_foreign (F : ℕ → Prop) :
    SlotInv (fun node => ¬ F node.msgPtr.addr) (RxDataWinNode.Foreign F) where
  wiped _ _ _ hm := by cases hm
  mark _ _ _ _ _ _ h := h
  put _ _ time h hF := h.put hF time

theorem RxDataWinNode.Foreign.freePtrs {n : RxDataWinNode} (h : n.Foreign F) :
    ∀ a ∈ n.freePtrs.map Action.free, a.Quiet F := by
  intro a ha
  obtain ⟨m, hm, rfl⟩ := List.mem_map.mp ha
  have hptr : ∃ i, n.msgPtr i = some m := by
    rw [RxDataWinNode.freePtrs] at hm
    split at hm
    · cases hm
    split at hm
    · exact ⟨0, Option.mem_toList.mp hm⟩
    · obtain ⟨i, -, hi⟩ := List.mem_flatMap.mp hm
      split at hi
      · exact ⟨i, Option.mem_toList.mp hi⟩
      · cases hi
  obtain ⟨i, hi⟩ := hptr
  exact h i m hi

theorem RxDataWinNode.quiet_postHead {n : RxDataWinNode} {site : PostSite} :
    ∀ a ∈ n.postHead site, a.Quiet F := by
  intro a ha
  obtain ⟨m, -, rfl⟩ := List.mem_map.mp ha
  trivial

theorem RxDataWinNode.Foreign.passActions {n : RxDataWinNode} (h : n.Foreign F) (mem : Option ℕ) :
    ∀ a ∈ n.passActions mem, a.Quiet F := by
  intro a ha
  rw [RxDataWinNode.passActions] at ha
  split at ha
  · rcases List.mem_append.mp ha with ha | ha
    · split at ha
      · exact quiet_postHead a ha
      · cases ha
    · rw [List.mem_singleton.mp ha]
      trivial
  split at ha
  · rcases List.mem_append.mp ha with ha | ha
    · rcases List.mem_append.mp ha with ha | ha
      · rw [RxDataWinNode.postMerged.eq_def] at ha
        rcases List.mem_cons.mp ha with rfl | ha
        · trivial
        rcases List.mem_cons.mp ha with rfl | ha
        · trivial
        split at ha
        · rw [List.mem_singleton.mp ha]
          trivial
        · cases ha
      · rw [List.mem_singleton.mp ha]
        trivial
    · exact h.freePtrs a ha
  · cases ha

/-! ### The tape -/

/-- The slots hold no buffer of `F`, and since the log was `log` nothing was asked for one. -/
structure Tape.QuietSince (F : ℕ → Prop) (log : List Action) (T : Tape) : Prop where
  window : T.Window
  cells : T.Cells fun _ => RxDataWinNode.Foreign F
  out : ∃ as, T.out = log ++ as ∧ ∀ a ∈ as, a.Quiet F

namespace Tape.QuietSince

variable {log : List Action} {T T' : Tape} {A : Action → Prop}

theorem emit {as : List Action} (h : T.QuietSince F log) (has : ∀ a ∈ as, a.Quiet F) :
    (T.emit as).QuietSince F log where
  window := ⟨h.window.le, h.window.size⟩
  cells := h.cells
  out := by
    obtain ⟨bs, hout, hbs⟩ := h.out
    refine ⟨bs ++ as, ?_, fun a ha => (List.mem_append.mp ha).elim (hbs a) (has a)⟩
    rw [Tape.emit, hout, List.append_assoc]

theorem steady (F : ℕ → Prop) (A : Action → Prop) :
    Tape.Steady A fun _ => RxDataWinNode.Foreign F where
  same _ _ _ h hsame _ i m hm := h i m (hsame.msgPtr ▸ hm)
  wiped _ _ _ _ hm := by cases hm

theorem keeps (hA : ∀ a, A a → a.Quiet F) : Tape.Keeps A (Tape.QuietSince F log) where
  step T T' h hs := by
    refine ⟨hs.window h.window, h.cells.step (steady F A) hs, ?_⟩
    have hemit : ∀ as, (∀ a ∈ as, a.Quiet F) → ∃ bs, T.out ++ as = log ++ bs ∧ ∀ a ∈ bs, a.Quiet F :=
      fun as has => (h.emit has).out
    cases hs with
    | pass mem hlt hc =>
      rw [Tape.pass_out]
      exact hemit _ ((h.cells _ le_rfl hlt.le).passActions mem)
    | drop hlt hc => exact hemit _ (h.cells _ le_rfl hlt.le).freePtrs
    | other has => exact hemit _ fun a ha => hA a (has a ha)
    | _ => exact h.out
  grow T h hlt :=
    ⟨⟨h.window.le.trans (Nat.le_succ _), hlt⟩, h.cells.grow (steady F A).wiped, h.out⟩

theorem put {p time : ℕ} {node : MPDNodeInfo} (h : T.QuietSince F log) (hb : T.rxBegin ≤ p)
    (hn : p ≤ T.rxNext) (hF : ¬ F node.msgPtr.addr) : (T.put p node time).QuietSince F log where
  window := ⟨h.window.le, h.window.size⟩
  cells := h.cells.put ((h.cells p hb hn).put hF time)
  out := (h.emit fun a ha => by rw [List.mem_singleton.mp ha]; trivial).out

/-- A packet that was received comes to the data window. -/
theorem arrives {node : MPDNodeInfo} {stale : RxDataWinNode} {t : ℕ} (hA : ∀ a, A a → a.Quiet F)
    (h : T.QuietSince F log) (hstale : stale.Foreign F) (hF : ¬ F node.msgPtr.addr)
    (hs : Tape.Arrives A node stale t T T') : T'.QuietSince F log := by
  have hemit : ∀ x : Action, x.Quiet F → (T.emit [x]).QuietSince F log := fun x hx =>
    h.emit fun a ha => by rwa [List.mem_singleton.mp ha]
  cases hs with
  | late =>
    have hpost := hemit (.post .outOfWindow node.dsn node.msgPtr node.msgLen node.mpdHeadLen) trivial
    exact ⟨⟨h.window.le, h.window.size⟩, h.cells, hpost.out⟩
  | refuse => exact hemit (.free node.msgPtr) hF
  | store hb hn => exact h.put hb hn.le hF
  | extend hc hT hle hfar hp hblank hT' =>
    have h₁ := (keeps hA).widens h hT
    exact (keeps hA).widens (h₁.put h₁.window.le le_rfl hF) hT'
  | @anchor time hc ht =>
    have hput := hemit (.access (.frag node.fragIndex)) trivial
    exact ⟨⟨Nat.le_succ _, by show t + 1 < t + 4096; omega⟩,
      .anchor (steady F A).wiped (RxDataWinNode.Foreign.put hstale hF _), hput.out⟩

end Tape.QuietSince

/-! ### The operations -/

section Ops

variable {u v : UserInfo} {T : Tape} {m : Msg}

/-- A step of the receive side: it leaves the tx windows alone, no slot holds a buffer of `F`
afterwards, and nothing was asked for one. -/
structure RxQuiet (F : ℕ → Prop) (u v : UserInfo) : Prop where
  txWindow : v.txWindow = u.txWindow
  slots : AllSlots (RxDataWinNode.Foreign F) v
  out : ∃ as, v.out = u.out ++ as ∧ ∀ a ∈ as, a.Quiet F

theorem UserInfo.AtRest.quietSince (hT : AtRest u T) (h : AllSlots (RxDataWinNode.Foreign F) u) :
    T.QuietSince F u.out where
  window := hT.window
  cells p hb hn := by
    rw [← hT.toRefines.cell' hb hn]
    exact h _
  out := ⟨[], by rw [hT.out, List.append_nil], fun _ ha => absurd ha List.not_mem_nil⟩

theorem RxQuiet.of_tape (hw : v.txWindow = u.txWindow) (hslots : AllSlots (RxDataWinNode.Foreign F) v)
    (hT : AtRest v T) (h : T.QuietSince F u.out) : RxQuiet F u v :=
  ⟨hw, hslots, hT.out ▸ h.out⟩

theorem RxQuiet.parseData (hT : AtRest u T) (h : AllSlots (RxDataWinNode.Foreign F) u)
    (hm : ¬ F m.addr) (hp : u.parseData m = some v) : RxQuiet F u v := by
  have hs := hT.quietSince h
  obtain ⟨v', T', hv, hT', hcases⟩ := parseData_spec (A := Action.Quiet F) (t := m.header.dsn) hT
    trivial m fun _ _ => Nat.mod_eq_of_lt (m.word_lt 2)
  obtain rfl := Option.some.inj (hv.symm.trans hp)
  refine .of_tape (RxStep.parseData hp).txWindow ((slotInv_foreign F).parseData h hm hp) hT' ?_
  rcases hcases with ⟨-, rfl⟩ | ⟨-, T₁, harr, hsteps⟩
  · refine hs.emit fun a ha => ?_
    rw [List.mem_singleton.mp ha]
    exact hm
  · exact (Tape.QuietSince.keeps fun a ha => ha).steps (hs.arrives (fun a ha => ha) (h _) hm harr) hsteps

theorem RxQuiet.dataWinTimeOutCheck (hT : AtRest u T) (h : AllSlots (RxDataWinNode.Foreign F) u)
    (hs : u.dataWinTimeOutCheck = some v) : RxQuiet F u v := by
  obtain ⟨v', T', hv, hT', hsteps⟩ := dataWinTimeOutCheck_spec (A := Action.Quiet F) hT
  obtain rfl := Option.some.inj (hv.symm.trans hs)
  exact .of_tape (RxStep.dataWinTimeOutCheck hs).txWindow
    ((slotInv_foreign F).dataWinTimeOutCheck h hs) hT'
    ((Tape.QuietSince.keeps fun a ha => ha).steps (hT.quietSince h) hsteps)

theorem RxQuiet.checkAck (hT : AtRest u T) (h : AllSlots (RxDataWinNode.Foreign F) u) :
    RxQuiet F u u.checkAck := by
  have hreads : ∀ n : RxDataWinNode, ∀ m, ∀ a ∈ n.checkReads m, a.Quiet F := by
    intro n m a ha
    rw [RxDataWinNode.checkReads] at ha
    split at ha
    · obtain ⟨i, -, rfl⟩ := List.mem_map.mp ha
      trivial
    · rw [List.mem_singleton.mp ha]
      trivial
  obtain ⟨T', hT', hlook, -⟩ := checkAck_spec (A := Action.Quiet F) hT
    fun _ q m _ _ _ _ _ => hreads (T.cell q) m
  refine .of_tape (RxStep.checkAck u).txWindow ((slotInv_foreign F).checkAck h) hT' ?_
  refine (Tape.QuietSince.keeps fun a ha => ha).looks (fun S p m hS hb hn _ _ _ _ => ?_)
    (hT.quietSince h) hlook
  refine ⟨⟨hS.window.le, hS.window.size⟩, hS.cells.early ?_,
    (hS.emit RxDataWinNode.quiet_postHead).out⟩
  exact hS.cells p hb hn.le

theorem RxQuiet.changeDataWinFlowId (hT : AtRest u T) (h : AllSlots (RxDataWinNode.Foreign F) u)
    (f : ℕ) : RxQuiet F u (u.changeDataWinFlowId f) := by
  obtain ⟨T', hT', hsteps⟩ := changeDataWinFlowId_spec (A := Action.Quiet F) hT (f := f)
    fun _ _ _ _ _ => trivial
  exact .of_tape (RxStep.changeFlowIdFrom _ _ _).txWindow
    ((slotInv_foreign F).changeFlowIdFrom h _ _ _) hT'
    ((Tape.QuietSince.keeps fun a ha => ha).steps (hT.quietSince h) hsteps)

theorem RxQuiet.clearDataWin (hT : AtRest u T) (h : AllSlots (RxDataWinNode.Foreign F) u)
    (hs : u.clearDataWin = some v) : RxQuiet F u v := by
  obtain ⟨v', T', hv, hsteps, -, -, hT'⟩ := clearDataWin_spec (A := Action.Quiet F) hT
  obtain rfl := Option.some.inj (hv.symm.trans hs)
  refine ⟨(RxStep.clearDataWin hs).txWindow, (slotInv_foreign F).clearDataWin hs, ?_⟩
  have hquiet := (Tape.QuietSince.keeps (A := Action.Quiet F) fun a ha => ha).steps
    (hT.quietSince h) hsteps
  have hout : v'.out = T'.out := hT'.out.symm
  rw [hout]
  exact hquiet.out

end Ops

end Mpd

end AndroidVendor
