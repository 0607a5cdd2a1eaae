import AndroidVendor.Mpd.Slots

/-!
# What the log says about slots

A property `G` of everything the session asks for, kept by way of a property `Q` of the packets its
slots record. `LogRules` are the facts about `G` and `Q` that do not depend on a run; what a packet
that arrives has to satisfy is asked of each step.

## Main results

* `LoggedAt.recv`, `LoggedAt.quiet` — a step of the session keeps `G` of the log and `Q` of the slots
-/

namespace AndroidVendor

namespace Mpd

open Relation

/-- Packets with the property `Q` are disposed of by actions with the property `G`. -/
structure LogRules (A : Action → Prop) (Q : ℕ → MPDNodeInfo → Prop) (G : Action → Prop) : Prop where
  other : ∀ a, A a → G a
  lost : ∀ p node, A (.access (.flow 3)) → Q p node → Q p { node with stream := 3 }
  free : ∀ m, G (.free m)
  pass : ∀ p n mem, Filed Q p n → n.status = .receiveComplete → ∀ a ∈ n.passActions mem, G a

/-- The slots record packets with the property `Q`, and all actions so far have the property `G`. -/
structure LoggedAt (Q : ℕ → MPDNodeInfo → Prop) (G : Action → Prop) (T : Tape) : Prop where
  window : T.Window
  filed : T.Cells (Filed Q)
  log : ∀ a ∈ T.out, G a

namespace LoggedAt

variable {A : Action → Prop} {Q : ℕ → MPDNodeInfo → Prop} {G : Action → Prop} {T T' : Tape}
  {p time : ℕ} {node : MPDNodeInfo} {m : Msg} {u : UserInfo}

theorem blank (Q : ℕ → MPDNodeInfo → Prop) (G : Action → Prop) (valid : ℕ → Bool) :
    LoggedAt Q G (Tape.blank valid) :=
  ⟨Tape.blank_window valid, fun p _ _ => Filed.wiped Q p 0, fun _ ha => absurd ha List.not_mem_nil⟩

theorem emit {as : List Action} (h : LoggedAt Q G T) (has : ∀ a ∈ as, G a) :
    LoggedAt Q G (T.emit as) where
  window := ⟨h.window.le, h.window.size⟩
  filed := h.filed
  log a ha := (List.mem_append.mp ha).elim (h.log a) (has a)

theorem keeps (hR : LogRules A Q G) : Tape.Keeps A (LoggedAt Q G) where
  step T T' h hs := by
    have hwindow := hs.window h.window
    have hfiled := h.filed.step (Filed.steady hR.lost) hs
    refine ⟨hwindow, hfiled, fun a ha => ?_⟩
    cases hs with
    | pass mem hlt hc =>
      rw [Tape.pass_out] at ha
      exact (List.mem_append.mp ha).elim (h.log a)
        (hR.pass T.rxBegin T.head mem (h.filed _ le_rfl hlt.le) hc a)
    | drop hlt hc =>
      rcases List.mem_append.mp ha with ha | ha
      · exact h.log a ha
      · obtain ⟨m, -, rfl⟩ := List.mem_map.mp ha
        exact hR.free m
    | other has => exact (List.mem_append.mp ha).elim (h.log a) fun ha => hR.other a (has a ha)
    | _ => exact h.log a ha
  grow T h hlt :=
    ⟨⟨h.window.le.trans (Nat.le_succ _), hlt⟩, h.filed.grow (Filed.wiped Q), h.log⟩

/-- A fragment that is about to be joined has the property with the header of the one that comes. -/
def Joinable (Q : ℕ → MPDNodeInfo → Prop) (p : ℕ) (n : RxDataWinNode) (node : MPDNodeInfo) : Prop :=
  node.fragment ≠ 0 → n.status = .received → ∀ i m, n.Holds i → n.msgPtr i = some m →
    Q p (n.record i m) → Q p { n.record i m with
      stream := node.stream, ssn := node.ssn, mpdHeadLen := node.mpdHeadLen }

theorem put (h : LoggedAt Q G T) (hb : T.rxBegin ≤ p) (hn : p ≤ T.rxNext)
    (hf : node.fragment < 3) (hp : node.dsn = p % 65536) (hq : Q p node)
    (hfrag : G (.access (.frag node.fragIndex))) (hdup : ¬ (T.cell p).Duplicate node)
    (hjoin : Joinable Q p (T.cell p) node) : LoggedAt Q G (T.put p node time) where
  window := ⟨h.window.le, h.window.size⟩
  filed := h.filed.put ((h.filed p hb hn).put time hdup hf hp hq hjoin)
  log a ha := (List.mem_append.mp ha).elim (h.log a) fun ha => List.mem_singleton.mp ha ▸ hfrag

/-- **A packet arrives.** -/
theorem arrives {t : ℕ} {stale : RxDataWinNode} (hR : LogRules A Q G) (h : LoggedAt Q G T)
    (hf : m.header.fragment < 3) (hq : ∀ p, m.header.dsn = p % 65536 → Q p m.node)
    (hfrag : G (.access (.frag m.node.fragIndex)))
    (hlate : ∀ d, ¬ T.LooksClear → 0 < d → d ≤ 1000 →
      (m.header.dsn + d) % 65536 = T.rxBegin % 65536 →
      G (.post .outOfWindow m.node.dsn m m.node.msgLen m.node.mpdHeadLen))
    (hjoin : ∀ p, T.rxBegin ≤ p → p < T.rxNext → p % 65536 = m.header.dsn →
      Joinable Q p (T.cell p) m.node)
    (hfresh : T.LooksClear → m.header.fragment ≠ 0 →
      stale.fragment = 0 ∨ stale.fragment = m.header.fragment)
    (hs : Tape.Arrives A m.node stale t T T') : LoggedAt Q G T' := by
  cases hs with
  | late d hc hd hd' hdsn =>
    refine ⟨⟨h.window.le, h.window.size⟩, h.filed, fun a ha => ?_⟩
    exact (List.mem_append.mp ha).elim (h.log a) fun ha =>
      List.mem_singleton.mp ha ▸ hlate d hc hd hd' hdsn
  | refuse => exact h.emit fun a ha => List.mem_singleton.mp ha ▸ hR.free m
  | @store p time hb hn hp hdup =>
    exact h.put hb hn.le hf hp.symm (hq p hp.symm) hfrag hdup (hjoin p hb hn hp)
  | @extend T₁ _ time hc hT hle hfar hp hblank hT' hnext =>
    have h₁ := (keeps hR).widens h hT
    have hdup : ¬ (T₁.cell T₁.rxNext).Duplicate m.node := by
      simp [RxDataWinNode.Duplicate, hblank.status]
    have hput : LoggedAt Q G (T₁.put T₁.rxNext m.node time) :=
      h₁.put h₁.window.le le_rfl hf hp.symm (hq _ hp.symm) hfrag hdup fun _ hst => by
        rw [hblank.status] at hst
        cases hst
    exact (keeps hR).widens hput hT'
  | @anchor time hc ht =>
    refine ⟨⟨Nat.le_succ _, by show t + 1 < t + 4096; omega⟩, ?_, fun a ha => ?_⟩
    · exact Tape.Cells.anchor (Filed.wiped Q)
        (Filed.put_stale _ time hf (hfresh hc) ht.symm (hq t ht.symm))
    · exact (List.mem_append.mp ha).elim (h.log a) fun ha => List.mem_singleton.mp ha ▸ hfrag

/-- A packet is handed over ahead of order. -/
theorem early (h : LoggedAt Q G T) (hb : T.rxBegin ≤ p) (hn : p < T.rxNext)
    (hpost : ∀ a ∈ (T.cell p).postHead .early, G a) : LoggedAt Q G (T.early p) := by
  obtain ⟨hidle, hpart, hwhole, hnum, hptr⟩ := h.filed p hb hn.le
  refine ⟨⟨h.window.le, h.window.size⟩, h.filed.early ⟨hidle, hpart, hwhole, hnum, hptr⟩, ?_⟩
  exact fun a ha => (List.mem_append.mp ha).elim (h.log a) (hpost a)

/-- **A datagram.** What its packet has to satisfy is said in terms of the session it finds. -/
theorem recv {t : ℕ} (hR : LogRules A Q G) (hT : UserInfo.AtRest u T) (h : LoggedAt Q G T)
    (hf : u.Accepts m → m.header.fragment < 3)
    (hq : u.Accepts m → ∀ p, m.header.dsn = p % 65536 → Q p m.node)
    (hfrag : u.Accepts m → G (.access (.frag m.node.fragIndex)))
    (hlate : u.Accepts m → u.HandsLate m →
      G (.post .outOfWindow m.node.dsn m m.node.msgLen m.node.mpdHeadLen))
    (hjoin : u.Accepts m → ∀ p n, u.Meets m n → Joinable Q p n m.node)
    (hfresh : u.Accepts m → u.FreshSlot m) (hmoves : Op.Moves A u t (.recv m) T T') :
    LoggedAt Q G T' := by
  refine (keeps hR).recv (keeps hR) h (fun S hS => hS.emit fun a ha => ?_)
    (fun as S has hemit hacc harr => ?_) hmoves
  · exact List.mem_singleton.mp ha ▸ hR.free m
  · refine hemit.arrives hR (hf hacc) (hq hacc) (hfrag hacc) (fun d hc hd hd' hdsn => ?_)
      (fun p hb hn hp h0 hst => ?_) (fun hc => ?_) harr
    · exact hlate hacc (hT.handsLate hc hd hd' hdsn)
    · exact hjoin hacc p _ (hT.meets hb hn hp hst) h0 hst
    · exact hfresh hacc (hT.looksClear_iff.mpr hc)

/-- **Anything but a datagram.** -/
theorem quiet {op : Op} {t : ℕ} (hR : LogRules A Q G) (h : LoggedAt Q G T)
    (hrecv : ∀ m, op ≠ .recv m)
    (hlook : op = .checkAck → u.rxDataWin.newData → ReflTransGen (Tape.Look A) T T' →
      LoggedAt Q G T')
    (hmoves : op.Moves A u t T T') : LoggedAt Q G T' :=
  (keeps hR).quiet h hrecv hlook (fun _ S _ _ hS => ⟨⟨le_rfl, Nat.zero_lt_succ 4095⟩,
    Tape.Cells.clear S (Filed.wiped Q), hS.log⟩) hmoves

end LoggedAt

end Mpd

end AndroidVendor
