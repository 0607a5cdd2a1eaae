import AndroidVendor.Lib.Shelf
import AndroidVendor.Mpd.TxSend

/-!
# Who has the transmit buffers

A buffer that is put into a tx window is given back when its node goes: acknowledged, reported in a
block, pushed out of a full window, cleared. The account of a step of the transmit side says which
buffers it gave back, which it handed to a subflow queue, and that the two and what the windows
still hold balance.

## Main results

* `Acct` — the account of a step on one tx window
* `processACK_acct`, `clearTxWin_acct` — what an acknowledgement and a clear give back
* `Handed` — a node goes to its subflow queue, or is marked, and keeps its data
-/

namespace AndroidVendor

namespace Mpd

open Loop TxWin

/-! ### Buffers -/

/-- The buffer a node holds. -/
def DataNode.kept (d : DataNode) : Multiset ℕ := d.pData.elim 0 fun m => {m.addr}

/-- The buffers a tx window holds. -/
def TxWin.kept (w : TxWin) : Multiset ℕ := Shelf.total 1024 fun i => (w.dataNode i).kept

theorem TxWin.kept_eq (w : TxWin) : w.kept = Shelf.total 1024 fun i => (w.dataNode i).kept := rfl

attribute [irreducible] TxWin.kept

/-- The buffers the tx windows of the subflows hold. -/
def UserInfo.kept (u : UserInfo) : Multiset ℕ :=
  (u.txWindow 0).kept + (u.txWindow 1).kept + (u.txWindow 2).kept

/-- The buffer an action gives back. -/
def Action.frees : Action → Multiset ℕ
  | .free m => {m.addr}
  | .freeResend m _ => {m.addr}
  | _ => 0

/-- The buffer an action hands to a subflow queue. -/
def Action.sends : Action → Multiset ℕ
  | .send _ m _ _ _ => {m.addr}
  | _ => 0

def freesOf (as : List Action) : Multiset ℕ := (as.map Action.frees).sum

def sendsOf (as : List Action) : Multiset ℕ := (as.map Action.sends).sum

section Lists

variable {as bs : List Action} {a : ℕ}

@[simp] theorem freesOf_nil : freesOf [] = 0 := rfl

@[simp] theorem sendsOf_nil : sendsOf [] = 0 := rfl

@[simp] theorem freesOf_append : freesOf (as ++ bs) = freesOf as + freesOf bs := by
  rw [freesOf, List.map_append, List.sum_append]
  rfl

@[simp] theorem sendsOf_append : sendsOf (as ++ bs) = sendsOf as + sendsOf bs := by
  rw [sendsOf, List.map_append, List.sum_append]
  rfl

@[simp] theorem freesOf_cons (x : Action) : freesOf (x :: as) = x.frees + freesOf as := rfl

@[simp] theorem sendsOf_cons (x : Action) : sendsOf (x :: as) = x.sends + sendsOf as := rfl

theorem freesOf_eq_zero (h : ∀ a ∈ as, a.frees = 0) : freesOf as = 0 :=
  List.sum_eq_zero (List.forall_mem_map.mpr h)

theorem sendsOf_eq_zero (h : ∀ a ∈ as, a.sends = 0) : sendsOf as = 0 :=
  List.sum_eq_zero (List.forall_mem_map.mpr h)

end Lists

variable {d : DataNode} {w : TxWin} {b n i x : ℕ}

theorem kept_default : ({} : DataNode).kept = 0 := rfl

theorem DataNode.kept_of_none (h : d.pData = none) : d.kept = 0 := by rw [kept, h, Option.elim_none]

theorem DataNode.kept_of_some {m : Msg} (h : d.pData = some m) : d.kept = {m.addr} := by
  rw [kept, h, Option.elim_some]

/-- A node that goes gives back what it holds. -/
theorem freesOf_releases (hd : Sound d) (f : ℕ) : freesOf (d.releases f) = d.kept := by
  rw [DataNode.releases]
  split
  · next hinit => rw [DataNode.kept_of_none (hd.none_iff.mp hinit), freesOf_nil]
  · cases h : d.pData with
    | none => rw [DataNode.kept_of_none h]; rfl
    | some m =>
      rw [DataNode.kept_of_some h, Option.toList_some, List.map_singleton, freesOf_cons, freesOf_nil,
        add_zero, DataNode.release]
      split <;> rfl

theorem sendsOf_releases (f : ℕ) : sendsOf (d.releases f) = 0 := by
  rw [DataNode.releases]
  split
  · rfl
  · cases d.pData with
    | none => rfl
    | some m =>
      rw [Option.toList_some, List.map_singleton, DataNode.release]
      split <;> rfl

namespace TxWin

theorem mem_kept {a : ℕ} : a ∈ w.kept ↔ ∃ i < 1024, a ∈ (w.dataNode i).kept := by
  rw [kept_eq]
  exact Shelf.mem_total

theorem kept_congr {w' : TxWin} (h : ∀ i, (w'.dataNode i).pData = (w.dataNode i).pData) :
    w'.kept = w.kept := by
  rw [kept_eq, kept_eq]
  refine congrArg _ (funext fun i => ?_)
  rw [DataNode.kept, h i]
  rfl

/-- A node is rewritten. -/
theorem kept_setNode (hi : i < 1024) (d : DataNode) :
    (w.setNode i d).kept + (w.dataNode i).kept = w.kept + d.kept := by
  have hring : (fun j => ((w.setNode i d).dataNode j).kept) =
      Function.update (fun j => (w.dataNode j).kept) i d.kept := by
    funext j
    by_cases hj : j = i
    · rw [hj, setNode_self, Function.update_self]
    · rw [setNode_of_ne w hj, Function.update_of_ne hj]
  rw [kept_eq, kept_eq, hring]
  exact Shelf.total_update hi d.kept

theorem kept_default : ({} : TxWin).kept = 0 := by
  rw [kept_eq]
  exact Shelf.total_empty fun _ _ => rfl

/-- The shape of a tx window: the invariant, nodes that were never used or were cleared since, and
the newest packet at a node of the window. -/
structure Shape (w : TxWin) (b n : ℕ) : Prop extends Spans w b n where
  blank : ∀ x, n < x → x < b + 1024 → (w.dataNode (x % 1024)).ssn = 0
  last : ∀ i ∈ w.pTxLast, i < 1024

theorem shape_clear : Shape {} 0 0 := ⟨spans_clear, fun _ _ _ => rfl, fun _ h => nomatch h⟩

theorem Shape.congr {w' : TxWin} (h : Shape w b n) (hb : w'.pTxBegin = w.pTxBegin)
    (hn : w'.pTxNext = w.pTxNext) (hs : w'.subflowSn = w.subflowSn)
    (hd : w'.dataNode = w.dataNode) (hl : w'.pTxLast = w.pTxLast) : Shape w' b n :=
  ⟨h.toSpans.congr hb hn hs hd, hd ▸ h.blank, hl ▸ h.last⟩

/-- A node is rewritten without touching its SSN, keeping its data or giving it back. -/
theorem Shape.rewrite (h : Shape w b n) (i : ℕ) (hd : Sound d) (hs : d.ssn = (w.dataNode i).ssn)
    (hp : (w.dataNode i).pData = none → d.pData = none) : Shape (w.setNode i d) b n := by
  refine ⟨h.toSpans.rewrite i hd hs hp, fun x hn hx => ?_, h.last⟩
  simp only [setNode, Function.update_apply]
  split
  · next heq => rw [hs, ← heq, h.blank x hn hx]
  · exact h.blank x hn hx

/-- The oldest node goes. -/
theorem Shape.release (h : Shape w b n) (hlt : b < n) : Shape w.beginInc (b + 1) n := by
  refine ⟨h.toSpans.release hlt, fun x hn hx => ?_, h.last⟩
  simp only [beginInc, setNode, h.begin_eq, Function.update_apply]
  split
  · rfl
  · next hne =>
    rcases Nat.lt_or_ge x (b + 1024) with hlt' | hge
    · exact h.blank x hn hlt'
    · exact absurd (by rw [show x = b + 1024 by omega]; simp) hne

theorem Shape.kept_beginInc (h : Shape w b n) :
    w.beginInc.kept + w.beginNode.kept = w.kept := by
  have hset := kept_setNode (w := w) (i := w.pTxBegin) (by rw [h.begin_eq]; omega) {}
  rw [Mpd.kept_default, add_zero] at hset
  rw [show w.beginInc.kept = (w.setNode w.pTxBegin {}).kept from kept_congr fun _ => rfl]
  exact hset

/-- An empty window holds nothing. -/
theorem Shape.kept_of_empty (h : Shape w n n) : w.kept = 0 := by
  rw [kept_eq]
  refine Shelf.total_empty fun i hi => DataNode.kept_of_none ?_
  obtain ⟨x, hn, hx, rfl⟩ := SerialRing.exists_position hi n
  exact h.idle x hn hx

/-- The SSN of the node lies in the block from `left` to `right`. -/
def InEdges (left right : ℕ) (d : DataNode) : Prop :=
  distanceSN left d.ssn ≤ distanceSN left right

instance (left right : ℕ) : DecidablePred (InEdges left right) :=
  fun _ => inferInstanceAs (Decidable (_ ≤ _))

/-- The SSN of the node lies in a block of the SACK. -/
def Reported (m : Msg) (d : DataNode) : Prop :=
  ∃ k < UserInfo.numSack (m.byte 13), InEdges (m.word (16 + 4 * k)) (m.word (18 + 4 * k)) d

instance (m : Msg) : DecidablePred (Reported m) :=
  fun _ => inferInstanceAs (Decidable (∃ _ < _, _))

/-- The SSN of the node is acknowledged by `ack`. -/
def Acked (w : TxWin) (ack : ℕ) (d : DataNode) : Prop :=
  distanceSN w.beginNode.ssn d.ssn < distanceSN w.beginNode.ssn ack ∧
    distanceSN w.beginNode.ssn ack ≤ distanceSN w.beginNode.ssn w.nextNode.ssn

instance (w : TxWin) (ack : ℕ) : DecidablePred (Acked w ack) :=
  fun _ => inferInstanceAs (Decidable (_ ∧ _))

end TxWin

namespace UserInfo

variable {u v s t : UserInfo} {f c : ℕ} {P : DataNode → Prop} {as : List Action}

/-! ### Accounts -/

/-- The account of a step from `u` to `v` on the tx window of `f`. It asked for `as`; it gave back
buffers of nodes with `P` only, no other node lost its data, every buffer it handed on is still
there, and nothing was lost. -/
structure Acct (u : UserInfo) (f : ℕ) (P : DataNode → Prop) (as : List Action) (v : UserInfo) :
    Prop where
  out : v.out = u.out ++ as
  others : ∀ j, j ≠ f → v.txWindow j = u.txWindow j
  balance : freesOf as + (v.txWindow f).kept = (u.txWindow f).kept
  frees : ∀ a ∈ as, a.frees ≠ 0 → ∃ i < 1024,
    a ∈ ((u.txWindow f).dataNode i).releases f ∧ P ((u.txWindow f).dataNode i)
  sends : ∀ a ∈ sendsOf as, a ∈ (v.txWindow f).kept
  keeps : ∀ i, ((v.txWindow f).dataNode i).pData = ((u.txWindow f).dataNode i).pData ∨
    P ((u.txWindow f).dataNode i)

theorem Acct.refl (u : UserInfo) (f : ℕ) (P : DataNode → Prop) : Acct u f P [] u where
  out := (List.append_nil _).symm
  others _ _ := rfl
  balance := by rw [freesOf_nil, zero_add]
  frees _ h := absurd h List.not_mem_nil
  sends _ h := absurd h (Multiset.notMem_zero _)
  keeps _ := .inl rfl

/-- Book-keeping: no data moves. -/
theorem Acct.congr (h : Acct u f P as s) (hout : t.out = s.out)
    (hoth : ∀ j, j ≠ f → t.txWindow j = s.txWindow j)
    (hdata : ∀ i, ((t.txWindow f).dataNode i).pData = ((s.txWindow f).dataNode i).pData) :
    Acct u f P as t where
  out := hout.trans h.out
  others j hj := (hoth j hj).trans (h.others j hj)
  balance := by rw [kept_congr hdata, h.balance]
  frees := h.frees
  sends a ha := by
    rw [kept_congr hdata]
    exact h.sends a ha
  keeps i := (h.keeps i).imp_left (hdata i).trans

/-- Actions that move no buffer. -/
theorem Acct.idle {bs : List Action} (h : Acct u f P as s) (hout : t.out = s.out ++ bs)
    (hw : ∀ j, j ≠ f → t.txWindow j = s.txWindow j)
    (hdata : ∀ i, ((t.txWindow f).dataNode i).pData = ((s.txWindow f).dataNode i).pData)
    (hbs : ∀ a ∈ bs, a.frees = 0 ∧ a.sends = 0) : Acct u f P (as ++ bs) t where
  out := by rw [hout, h.out, List.append_assoc]
  others j hj := (hw j hj).trans (h.others j hj)
  balance := by
    rw [freesOf_append, freesOf_eq_zero fun a ha => (hbs a ha).1, add_zero, kept_congr hdata,
      h.balance]
  frees a ha hfree := by
    rcases List.mem_append.mp ha with ha | ha
    · exact h.frees a ha hfree
    · exact absurd (hbs a ha).1 hfree
  sends a ha := by
    rw [sendsOf_append, sendsOf_eq_zero fun a ha => (hbs a ha).2, add_zero] at ha
    rw [kept_congr hdata]
    exact h.sends a ha
  keeps i := (h.keeps i).imp_left (hdata i).trans

/-- The oldest node goes, which is as it was. -/
theorem Acct.release (h : Acct u f P as s) (hsends : sendsOf as = 0)
    (hs : Shape (s.txWindow f) c n)
    (hnode : (s.txWindow f).beginNode = (u.txWindow f).dataNode (c % 1024))
    (hP : P ((u.txWindow f).dataNode (c % 1024)))
    (hw : t.txWindow = Function.update s.txWindow f (s.txWindow f).beginInc)
    (hout : t.out = s.out ++ (s.txWindow f).beginNode.releases f) :
    Acct u f P (as ++ (s.txWindow f).beginNode.releases f) t := by
  have hwf : t.txWindow f = (s.txWindow f).beginInc := by rw [hw, Function.update_self]
  refine ⟨by rw [hout, h.out, List.append_assoc], fun j hj => ?_, ?_, fun a ha hfree => ?_,
    fun a ha => ?_, fun i => ?_⟩
  · rw [hw, Function.update_of_ne hj]
    exact h.others j hj
  · have hsound : Sound (s.txWindow f).beginNode := hs.sound _
    rw [freesOf_append, freesOf_releases hsound, hwf, add_assoc, add_comm (DataNode.kept _),
      hs.kept_beginInc]
    exact h.balance
  · rcases List.mem_append.mp ha with ha | ha
    · exact h.frees a ha hfree
    · exact ⟨c % 1024, Nat.mod_lt _ (by decide), hnode ▸ ha, hP⟩
  · rw [sendsOf_append, hsends, sendsOf_releases, add_zero] at ha
    exact absurd ha (Multiset.notMem_zero _)
  · by_cases hi : i = c % 1024
    · exact .inr (hi ▸ hP)
    · refine (h.keeps i).imp_left fun hkeep => ?_
      rw [hwf, beginInc, hs.begin_eq]
      exact (congrArg DataNode.pData (setNode_of_ne _ hi _)).trans hkeep

/-! ### Acknowledgements and clears -/

/-- `MPD_processACK` gives back the nodes that are acknowledged. -/
theorem processACK_acct {ack fs : ℕ} (h : Shape (u.txWindow f) b n) (hack : ack < 65536)
    (hp : u.processACK f ack fs = some v) :
    ∃ as b', b ≤ b' ∧ Acct u f (fun d => fs ≠ 0 ∧ (u.txWindow f).Acked ack d) as v ∧
      Shape (v.txWindow f) b' n := by
  have hsize := h.size
  have hle := h.le
  rw [processACK] at hp
  split at hp
  · cases hp
    exact ⟨[], b, le_rfl, .refl u f _, h⟩
  next hskip =>
  dsimp only at hp
  set u₀ := u.setTxWindow f { u.txWindow f with ackTimeOutcnt := 0 } with hu₀
  have hw₀ : u₀.txWindow f = { u.txWindow f with ackTimeOutcnt := 0 } := txWindow_setTxWindow ..
  have h₀ : Shape (u₀.txWindow f) b n := by
    rw [hw₀]
    exact h.congr rfl rfl rfl rfl rfl
  have hacct₀ : Acct u f (fun d => fs ≠ 0 ∧ (u.txWindow f).Acked ack d) [] u₀ :=
    (Acct.refl u f _).congr rfl (fun j hj => txWindow_setTxWindow_of_ne u _ hj)
      fun i => by rw [hw₀]
  split at hp
  · obtain rfl : u₀ = v := Option.some.inj hp
    exact ⟨[], b, le_rfl, hacct₀, h₀⟩
  next hin =>
  obtain ⟨a, hba, hab, ha⟩ := SerialRing.exists_position hack b
  have hdist : distanceSN (b % 65536) ack = a - b := by rw [← ha, distanceSN_of_le hba hab]
  have hdistn : distanceSN (b % 65536) (n % 65536) = n - b := distanceSN_of_le hle (by omega)
  rw [h₀.begin_ssn, h₀.next_ssn, hdist, hdistn] at hin
  obtain ⟨s, hs, rfl⟩ := Option.map_eq_some_iff.mp hp
  -- round by round, up to position `a`
  let I : UserInfo → Prop := fun s => ∃ c as, b ≤ c ∧ c ≤ a ∧ Shape (s.txWindow f) c n ∧
    (∀ x, c ≤ x → x < b + 1024 →
      (s.txWindow f).dataNode (x % 1024) = (u.txWindow f).dataNode (x % 1024)) ∧
    Acct u f (fun d => fs ≠ 0 ∧ (u.txWindow f).Acked ack d) as s ∧ sendsOf as = 0
  have hround : ∀ s s', I s → AckPending f ack s → some (s.ackOldest f) = some s' → I s' := by
    rintro s s' ⟨c, as, hbc, hca, hshape, hsame, hacct, hsends⟩ hgo hbody
    cases hbody
    have hlt : c < a := by
      refine lt_of_le_of_ne hca fun heq => hgo.2 ?_
      rw [hshape.begin_ssn, heq, ha, distanceSN, SerialRing.dist_self]
    have hnode : (s.txWindow f).beginNode = (u.txWindow f).dataNode (c % 1024) := by
      rw [TxWin.beginNode, hshape.begin_eq]
      exact hsame c le_rfl (by omega)
    have hP : fs ≠ 0 ∧ (u.txWindow f).Acked ack ((u.txWindow f).dataNode (c % 1024)) := by
      refine ⟨fun h0 => hskip (.inr h0), ?_, ?_⟩
      · rw [h.begin_ssn, hdist, h.num c hbc (by omega), distanceSN_of_le hbc (by omega)]
        omega
      · rw [h.begin_ssn, h.next_ssn, hdist, hdistn]
        omega
    obtain ⟨hw, hout, -⟩ := ackOldest_spec (A := fun _ => True) s f
    refine ⟨c + 1, _, by omega, hlt, ?_, fun x hcx hx => ?_,
      hacct.release hsends hshape hnode hP hw hout, ?_⟩
    · rw [hw, Function.update_self]
      exact hshape.release (by omega)
    · rw [hw, Function.update_self, beginInc]
      change ((s.txWindow f).setNode _ _).dataNode (x % 1024) = _
      rw [setNode_of_ne _ (by
        rw [hshape.begin_eq]
        exact SerialRing.cell_ne (by omega) (by omega) (by omega))]
      exact hsame x (by omega) hx
    · rw [sendsOf_append, hsends, sendsOf_releases, add_zero]
  obtain ⟨⟨c, as, hbc, -, hshape, -, hacct, -⟩, -⟩ := whileLoop_inv I hround
    ⟨b, [], le_rfl, hba, h₀, fun x _ _ => by rw [hw₀], hacct₀, rfl⟩ hs
  refine ⟨as, c, hbc, hacct.congr ?_ (fun j _ => by rw [moveSsnEnd_txWindow])
    (fun i => by rw [moveSsnEnd_txWindow]), by rwa [moveSsnEnd_txWindow]⟩
  rw [moveSsnEnd]
  split <;> rfl

/-- `MPD_clearTxWin` gives back everything. -/
theorem clearTxWin_acct (h : Shape (u.txWindow f) b n) :
    ∃ as, Acct u f (fun _ => True) as (u.clearTxWin f) ∧ Shape ((u.clearTxWin f).txWindow f) 0 0 := by
  have hloop : ∀ (k : ℕ) (s : UserInfo) (c : ℕ) (as : List Action), b ≤ c → n < c + k →
      Shape (s.txWindow f) c n →
      (∀ x, c ≤ x → x < b + 1024 →
        (s.txWindow f).dataNode (x % 1024) = (u.txWindow f).dataNode (x % 1024)) →
      Acct u f (fun _ => True) as s → sendsOf as = 0 →
      ∃ as', Acct u f (fun _ => True) as' (clearTxNodes f k s) ∧ sendsOf as' = 0 ∧
        ((clearTxNodes f k s).txWindow f).kept = 0 := by
    intro k
    induction k with
    | zero =>
      intro s c as _ hk hshape
      have := hshape.le
      omega
    | succ k ih =>
      intro s c as hbc hk hshape hsame hacct hsends
      have hsize := h.size
      have hcn := hshape.le
      rw [clearTxNodes]
      split
      · next hgo =>
        have hlt : c < n := by
          refine lt_of_le_of_ne hcn fun heq => hgo ?_
          rw [hshape.begin_eq, hshape.next_eq, heq]
        have hnode : (s.txWindow f).beginNode = (u.txWindow f).dataNode (c % 1024) := by
          rw [TxWin.beginNode, hshape.begin_eq]
          exact hsame c le_rfl (by omega)
        have hw := txRelease_txWindow s f
        refine ih _ (c + 1) _ (by omega) (by omega) ?_ (fun x hcx hx => ?_)
          (hacct.release hsends hshape hnode trivial hw (txRelease_out s f)) ?_
        · rw [hw, Function.update_self]
          exact hshape.release hlt
        · rw [hw, Function.update_self, beginInc]
          change ((s.txWindow f).setNode _ _).dataNode (x % 1024) = _
          rw [setNode_of_ne _ (by
            rw [hshape.begin_eq]
            exact SerialRing.cell_ne (by omega) (by omega) (by omega))]
          exact hsame x (by omega) hx
        · rw [sendsOf_append, hsends, sendsOf_releases, add_zero]
      · next hstop =>
        have heq : c = n := by
          by_contra hne
          refine hstop ?_
          rw [hshape.begin_eq, hshape.next_eq]
          exact SerialRing.cell_ne hne (by omega) (by omega)
        subst heq
        exact ⟨as, hacct, hsends, hshape.kept_of_empty⟩
  have hle := h.le
  have hsize := h.size
  obtain ⟨as, hacct, hsends, hempty⟩ := hloop 1024 u b [] le_rfl (by omega) h (fun _ _ _ => rfl)
    (.refl u f _) rfl
  rw [UserInfo.clearTxWin]
  have hclear : ((clearTxNodes f 1024 u).setTxWindow f {}).txWindow f = {} :=
    txWindow_setTxWindow _ _ _
  refine ⟨as, ⟨hacct.out, fun j hj => ?_, ?_, hacct.frees, fun a ha => ?_,
    fun _ => .inr trivial⟩, ?_⟩
  · rw [txWindow_setTxWindow_of_ne _ _ hj]
    exact hacct.others j hj
  · rw [hclear, TxWin.kept_default, ← hempty]
    exact hacct.balance
  · rw [hsends] at ha
    exact absurd ha (Multiset.notMem_zero _)
  · rw [hclear]
    exact shape_clear

/-! ### Handing a node on -/

/-- The node at `i` keeps its SSN and its data, and nothing but its buffer may go to a queue. -/
structure Handed (s : UserInfo) (f i : ℕ) (bs : List Action) (t : UserInfo) : Prop where
  out : t.out = s.out ++ bs
  others : ∀ j, j ≠ f → t.txWindow j = s.txWindow j
  window : ∃ d : DataNode, (t.txWindow f).dataNode = Function.update (s.txWindow f).dataNode i d ∧
    d.ssn = ((s.txWindow f).dataNode i).ssn ∧ d.pData = ((s.txWindow f).dataNode i).pData ∧ Sound d
  ends : (t.txWindow f).pTxBegin = (s.txWindow f).pTxBegin ∧
    (t.txWindow f).pTxNext = (s.txWindow f).pTxNext ∧
    (t.txWindow f).subflowSn = (s.txWindow f).subflowSn ∧
    (t.txWindow f).pTxLast = (s.txWindow f).pTxLast
  frees : ∀ a ∈ bs, a.frees = 0
  sends : ∀ a ∈ sendsOf bs, a ∈ ((s.txWindow f).dataNode i).kept

section Handed

variable {bs : List Action}

theorem Handed.refl (hd : Sound ((s.txWindow f).dataNode i)) : Handed s f i [] s where
  out := (List.append_nil _).symm
  others _ _ := rfl
  window := ⟨_, (Function.update_eq_self i _).symm, rfl, rfl, hd⟩
  ends := ⟨rfl, rfl, rfl, rfl⟩
  frees _ h := absurd h List.not_mem_nil
  sends _ h := absurd h (Multiset.notMem_zero _)

theorem Handed.shape (h : Handed s f i bs t) (hs : Shape (s.txWindow f) b n) :
    Shape (t.txWindow f) b n := by
  obtain ⟨d, hnodes, hssn, hdata, hsound⟩ := h.window
  refine (hs.rewrite i hsound hssn fun hnone => by rw [hdata, hnone]).congr h.ends.1 h.ends.2.1
    h.ends.2.2.1 hnodes h.ends.2.2.2

theorem Handed.node_of_ne (h : Handed s f i bs t) {j : ℕ} (hj : j ≠ i) :
    (t.txWindow f).dataNode j = (s.txWindow f).dataNode j := by
  obtain ⟨d, hnodes, -⟩ := h.window
  rw [hnodes, Function.update_of_ne hj]

theorem Handed.pData (h : Handed s f i bs t) (j : ℕ) :
    ((t.txWindow f).dataNode j).pData = ((s.txWindow f).dataNode j).pData := by
  by_cases hj : j = i
  · obtain ⟨d, hnodes, -, hdata, -⟩ := h.window
    rw [hnodes, hj, Function.update_self, hdata]
  · rw [h.node_of_ne hj]

theorem Handed.ssn (h : Handed s f i bs t) (j : ℕ) :
    ((t.txWindow f).dataNode j).ssn = ((s.txWindow f).dataNode j).ssn := by
  by_cases hj : j = i
  · obtain ⟨d, hnodes, hssn, -⟩ := h.window
    rw [hnodes, hj, Function.update_self, hssn]
  · rw [h.node_of_ne hj]

theorem Handed.acct (h : Handed s f i bs t) (hi : i < 1024) (hacct : Acct u f P as s) :
    Acct u f P (as ++ bs) t where
  out := by rw [h.out, hacct.out, List.append_assoc]
  others j hj := (h.others j hj).trans (hacct.others j hj)
  balance := by
    rw [freesOf_append, freesOf_eq_zero h.frees, add_zero, kept_congr h.pData, hacct.balance]
  frees a ha hfree := by
    rcases List.mem_append.mp ha with ha | ha
    · exact hacct.frees a ha hfree
    · exact absurd (h.frees a ha) hfree
  sends a ha := by
    rw [kept_congr h.pData]
    rw [sendsOf_append, Multiset.mem_add] at ha
    rcases ha with ha | ha
    · exact hacct.sends a ha
    · exact mem_kept.mpr ⟨i, hi, h.sends a ha⟩
  keeps j := (hacct.keeps j).imp_left (h.pData j).trans

/-- `MPD_callMPCToRetrans`. -/
theorem callMPCToRetrans_handed (hd : Sound ((s.txWindow f).dataNode i)) :
    ∃ bs, Handed s f i bs (s.callMPCToRetrans f i) := by
  obtain ⟨hist, hw⟩ := callMPCToRetrans_txWindow s f i
  have hwf : (s.callMPCToRetrans f i).txWindow f = { s.txWindow f with histA := hist } := by
    rw [hw, Function.update_self]
  have hout : ∃ bs, (s.callMPCToRetrans f i).out = s.out ++ bs ∧ (∀ a ∈ bs, a.frees = 0) ∧
      ∀ a ∈ sendsOf bs, a ∈ ((s.txWindow f).dataNode i).kept := by
    rw [callMPCToRetrans]
    dsimp only
    split
    · exact ⟨[], (List.append_nil _).symm, fun _ h => absurd h List.not_mem_nil,
        fun _ h => absurd h (Multiset.notMem_zero _)⟩
    · next m hm =>
      refine ⟨[.send (getDeviceId f) m ((s.txWindow f).dataNode i).payloadLen false (s.sends 0)],
        rfl, fun a ha => ?_, fun a ha => ?_⟩
      · obtain rfl := List.mem_singleton.mp ha
        rfl
      · rw [DataNode.kept_of_some hm]
        exact ha
  obtain ⟨bs, hout, hfree, hsend⟩ := hout
  refine ⟨bs, hout, fun j hj => by rw [hw, Function.update_of_ne hj],
    ⟨(s.txWindow f).dataNode i, ?_, rfl, rfl, hd⟩, ?_, hfree, hsend⟩
  · rw [hwf, Function.update_eq_self]
  · rw [hwf]
    exact ⟨rfl, rfl, rfl, rfl⟩

/-- A handed node is marked as sent again. -/
theorem Handed.mark {w : TxWin} (h : Handed s f i bs t)
    (hnode : ((s.txWindow f).dataNode i).transState ≠ .dataInit)
    (hsound : Sound ((s.txWindow f).dataNode i)) (tr cnt out : ℕ)
    (hw : w = { (t.txWindow f).setNode i { (t.txWindow f).dataNode i with
      transState := .sacked, toRetrans := tr } with retransCnt := cnt, timeOutRetCnt := out }) :
    Handed s f i bs (t.setTxWindow f w) := by
  obtain ⟨d, hnodes, hssn, hdata, -⟩ := h.window
  have hself : (t.txWindow f).dataNode i = d := by rw [hnodes, Function.update_self]
  refine ⟨h.out, fun j hj => (txWindow_setTxWindow_of_ne _ _ hj).trans (h.others j hj),
    ⟨{ d with transState := .sacked, toRetrans := tr }, ?_, hssn, hdata, ?_⟩, ?_, h.frees, h.sends⟩
  · rw [txWindow_setTxWindow, hw, hself, setNode]
    change Function.update (t.txWindow f).dataNode i _ = _
    rw [hnodes, Function.update_idem]
  · rw [Sound]
    change _ ↔ d.pData ≠ none
    rw [hdata]
    exact ⟨fun _ => hsound.mp hnode, fun _ => by simp⟩
  · rw [txWindow_setTxWindow, hw]
    exact h.ends

/-- A round over a gap. -/
theorem sackGapNode_handed (hd : Sound ((s.txWindow f).dataNode i)) :
    ∃ bs, Handed s f i bs (s.sackGapNode f i) := by
  rw [sackGapNode]
  dsimp only
  generalize hs₁ : (if ((s.txWindow f).dataNode i).transState = .waitingAck then
    s.setTrafficControl f { s.trafficControl f with
      pktLossCnt := u32 ((s.trafficControl f).pktLossCnt + 1) } else s) = s₁
  have hw₁ : s₁.txWindow = s.txWindow := by
    rw [← hs₁]
    split <;> rfl
  have hout₁ : s₁.out = s.out := by
    rw [← hs₁]
    split <;> rfl
  have hfirst : ∀ {bs t}, Handed s₁ f i bs t → Handed s f i bs t := by
    rintro bs t ⟨h1, h2, h3, h4, h5, h6⟩
    rw [hw₁] at h2 h3 h4 h6
    exact ⟨h1.trans (by rw [hout₁]), h2, h3, h4, h5, h6⟩
  split
  · next hstate =>
    have hnode : ((s.txWindow f).dataNode i).transState ≠ .dataInit := by
      intro h0
      simp [h0] at hstate
    obtain ⟨bs, h⟩ := callMPCToRetrans_handed (s := s₁) (f := f) (i := i) (by rw [hw₁]; exact hd)
    refine ⟨bs, ?_⟩
    have hmark := (hfirst h).mark hnode hd
      (u32 ((s₁.callMPCToRetrans f i).time + if f = 0 then 10 else 6))
      (u16 (((s₁.callMPCToRetrans f i).txWindow f).retransCnt + 1))
      ((s₁.callMPCToRetrans f i).txWindow f).timeOutRetCnt rfl
    exact ⟨hmark.out, hmark.others, hmark.window, hmark.ends, hmark.frees, hmark.sends⟩
  · exact ⟨[], hfirst (.refl (by rw [hw₁]; exact hd))⟩

end Handed

end UserInfo

end Mpd

end AndroidVendor
