import AndroidVendor.Mpd.SackCustody

/-!
# What a send gives back

A packet that goes into a full tx window pushes the oldest one out; a long packet is split, and its
two fragments push out two.

## Main results

* `sendBlock_acct` — the account of one packet or fragment
* `Ledger` — the account of a call over the three subflows
* `doSendNewTransData_ledger`, `txWinRetransCheck_ledger`, `Acct.ledger` — the calls
-/

namespace AndroidVendor

namespace Mpd

open Loop TxWin

namespace UserInfo

variable {u v s t : UserInfo} {w : TxWin} {f b n i x : ℕ} {P : DataNode → Prop}
  {as : List Action}

/-! ### One packet -/

/-- `MPD_callMPCToSend`. -/
theorem callMPCToSend_handed (hd : Sound ((s.txWindow f).dataNode i)) :
    ∃ bs, Handed s f i bs (s.callMPCToSend f i).2 := by
  rw [callMPCToSend]
  dsimp only
  cases hm : ((s.txWindow f).dataNode i).pData with
  | none => exact ⟨[], .refl hd⟩
  | some m =>
    dsimp only
    generalize hr : onSendMPDataComplete s f m ((s.txWindow f).dataNode i).payloadLen false = r
    obtain ⟨ok, s₁⟩ := r
    have hw₁ : s₁.txWindow = s.txWindow := (congrArg (fun r => r.2.txWindow) hr).symm
    have hout₁ : s₁.out = s.out ++ [.send (getDeviceId f) m
        ((s.txWindow f).dataNode i).payloadLen false (s.sends 0)] :=
      (congrArg (fun r => r.2.out) hr).symm
    have hfree : ∀ a ∈ [Action.send (getDeviceId f) m ((s.txWindow f).dataNode i).payloadLen false
        (s.sends 0)], a.frees = 0 := by
      intro a ha
      obtain rfl := List.mem_singleton.mp ha
      rfl
    have hsend : ∀ a ∈ sendsOf [.send (getDeviceId f) m ((s.txWindow f).dataNode i).payloadLen false
        (s.sends 0)], a ∈ ((s.txWindow f).dataNode i).kept := by
      intro a ha
      rw [DataNode.kept_of_some hm]
      exact ha
    cases ok with
    | true =>
      refine ⟨_, hout₁, fun j hj => ?_, ⟨{ (s.txWindow f).dataNode i with
        pData := some m, transState := .waitingAck }, ?_, rfl, hm.symm, by simp [Sound]⟩, ?_, hfree,
        hsend⟩
      · simp only [if_true]
        rw [txWindow_setTxWindow_of_ne _ _ hj, hw₁]
      · simp only [if_true, txWindow_setTxWindow, hw₁, setNode]
      · simp [hw₁, setNode]
    | false =>
      refine ⟨_, hout₁, fun j _ => by simp [hw₁], ⟨(s.txWindow f).dataNode i, ?_, rfl, rfl, hd⟩, ?_,
        hfree, hsend⟩
      · simp [hw₁]
      · simp [hw₁]

/-- A packet comes into the window: it holds what it held, less the oldest packet if it was full,
and the buffer of the new one. -/
theorem kept_push {w' : TxWin} {b' : ℕ} {m : Msg} (h : Spans w b n) (h' : Spans w' b' (n + 1))
    (hb' : b' = if n + 1 = b + 1024 then b + 1 else b)
    (hm : (w'.dataNode (n % 1024)).pData = some m)
    (hsame : ∀ x, b' ≤ x → x < n → (w'.dataNode (x % 1024)).pData = (w.dataNode (x % 1024)).pData) :
    (if n + 1 = b + 1024 then w.beginNode.kept else 0) + w'.kept = w.kept + {m.addr} := by
  have hle := h.le
  have hsize := h.size
  let ring : ℕ → Multiset ℕ := fun i => (w.dataNode i).kept
  have hn : n % 1024 < 1024 := Nat.mod_lt _ (by decide)
  have hb : b % 1024 < 1024 := Nat.mod_lt _ (by decide)
  have hempty : ring (n % 1024) = 0 := DataNode.kept_of_none (h.idle n le_rfl (by omega))
  have hnew : Shelf.total 1024 (Function.update ring (n % 1024) {m.addr}) + ring (n % 1024) = _ :=
    Shelf.total_update hn {m.addr}
  rw [hempty, add_zero] at hnew
  rw [kept_eq, kept_eq]
  split
  · next hfull =>
    rw [if_pos hfull] at hb'
    have hne : n % 1024 ≠ b % 1024 := SerialRing.cell_ne (by omega) (by omega) (by omega)
    have hcells : ∀ i < 1024, (w'.dataNode i).kept =
        Function.update (Function.update ring (n % 1024) {m.addr}) (b % 1024) 0 i := by
      intro i hi
      obtain ⟨x, hbx, hx, rfl⟩ := SerialRing.exists_position hi b'
      rcases Nat.lt_trichotomy x n with hlt | rfl | hgt
      · rw [Function.update_of_ne (SerialRing.cell_ne (by omega) (by omega) (by omega)),
          Function.update_of_ne (SerialRing.cell_ne (by omega) (by omega) (by omega)),
          DataNode.kept, hsame x hbx hlt]
        rfl
      · rw [Function.update_of_ne hne, Function.update_self, DataNode.kept_of_some hm]
      · rw [show x = b + 1024 by omega, Nat.add_mod_right, Function.update_self]
        refine DataNode.kept_of_none ?_
        have hidle := h'.idle (b + 1024) (by omega) (by omega)
        rwa [Nat.add_mod_right] at hidle
    have hold : Shelf.total 1024 (Function.update (Function.update ring (n % 1024) {m.addr})
      (b % 1024) 0) + _ = _ := Shelf.total_update hb 0
    rw [Function.update_of_ne hne.symm, add_zero, hnew] at hold
    rw [Shelf.total_congr hcells, ← hold, add_comm, beginNode, h.begin_eq]
  · next hroom =>
    rw [if_neg hroom] at hb'
    have hcells : ∀ i < 1024, (w'.dataNode i).kept = Function.update ring (n % 1024) {m.addr} i := by
      intro i hi
      obtain ⟨x, hbx, hx, rfl⟩ := SerialRing.exists_position hi b'
      rcases Nat.lt_trichotomy x n with hlt | rfl | hgt
      · rw [Function.update_of_ne (SerialRing.cell_ne (by omega) (by omega) (by omega)),
          DataNode.kept, hsame x hbx hlt]
        rfl
      · rw [Function.update_self, DataNode.kept_of_some hm]
      · rw [Function.update_of_ne (SerialRing.cell_ne (by omega) (by omega) (by omega)),
          DataNode.kept_of_none (h'.idle x hgt hx)]
        exact (DataNode.kept_of_none (h.idle x hgt.le (by omega))).symm
    rw [Shelf.total_congr hcells, zero_add, hnew]

/-- **The account of one packet.** A full window gives back its oldest, and the new buffer is in the
window. -/
theorem sendBlock_acct (h : Shape (u.txWindow f) b n) (data : Msg) (len frag : ℕ)
    (hv : (u.sendBlock f data len frag).2 = v) :
    ∃ as b', b' = (if n + 1 = b + 1024 then b + 1 else b) ∧ Shape (v.txWindow f) b' (n + 1) ∧
      v.out = u.out ++ as ∧ (∀ j, j ≠ f → v.txWindow j = u.txWindow j) ∧
      freesOf as + (v.txWindow f).kept = (u.txWindow f).kept + {data.addr} ∧
      (∀ a ∈ as, a.frees ≠ 0 → n + 1 = b + 1024 ∧ a ∈ (u.txWindow f).beginNode.releases f) ∧
      (∀ a ∈ sendsOf as, a = data.addr) ∧
      ((v.txWindow f).dataNode (n % 1024)).kept = {data.addr} ∧
      ∀ x, b' ≤ x → x < n →
        (v.txWindow f).dataNode (x % 1024) = (u.txWindow f).dataNode (x % 1024) := by
  have hle := h.le
  have hsize := h.size
  obtain ⟨hssn, -, hwin, hout⟩ := fillMPDHeader_spec u f data frag
  have haddr : (u.fillMPDHeader f data frag).1.addr = data.addr := rfl
  rw [sendBlock] at hv
  generalize hr : u.fillMPDHeader f data frag = r at *
  obtain ⟨data', u₁⟩ := r
  dsimp only at hssn hwin hout haddr hv
  have hsn : u16 ((u.txWindow f).subflowSn + 1) = (n + 1) % 65536 := by
    rw [h.sn_eq, u16]
    omega
  rw [hsn] at hwin
  have hw₁ : u₁.txWindow f = { u.txWindow f with subflowSn := (n + 1) % 65536 } := by
    rw [hwin, Function.update_self]
  have hssn' : data'.header.ssn = n % 65536 := by
    rw [hssn, h.sn_eq]
    omega
  obtain ⟨hidx, hoth₂, hout₂, b', hb', hs₂, hdata, -, hlast, hsame⟩ :=
    putDataToTxWin_spec len h.toSpans hw₁ hssn'
  generalize hr₂ : u₁.putDataToTxWin f data' len = r₂ at *
  obtain ⟨index, u₂⟩ := r₂
  dsimp only at hidx hoth₂ hout₂ hs₂ hdata hlast hsame hv
  subst hidx
  have h₂ : Shape (u₂.txWindow f) b' (n + 1) := by
    refine ⟨hs₂, fun x hnx hx => ?_, fun i hi => ?_⟩
    · have hb : b ≤ b' ∧ (b' ≠ b → n + 1 = b + 1024 ∧ b' = b + 1) := by
        rw [hb']
        split <;> omega
      rw [hsame x (by omega) (by omega) (by omega) (by omega)]
      exact h.blank x (by omega) (by omega)
    · rw [hlast, Option.mem_some_iff] at hi
      omega
  obtain ⟨bs, hh⟩ := callMPCToSend_handed (s := u₂) (f := f) (i := n % 1024) (hs₂.sound _)
  rw [hv] at hh
  have hnode : ((v.txWindow f).dataNode (n % 1024)).pData = some data' := by rw [hh.pData, hdata]
  have hkept : ((v.txWindow f).dataNode (n % 1024)).kept = {data.addr} := by
    rw [DataNode.kept_of_some hnode, haddr]
  have hsame' : ∀ x, b' ≤ x → x < n →
      (v.txWindow f).dataNode (x % 1024) = (u.txWindow f).dataNode (x % 1024) := by
    intro x hbx hxn
    have hb : b ≤ b' := by
      rw [hb']
      split <;> omega
    rw [hh.node_of_ne (SerialRing.cell_ne (by omega) (by omega) (by omega)),
      hsame x hbx (by omega) (by omega) (by omega)]
  have hrel : freesOf (if n + 1 = b + 1024 then (u.txWindow f).beginNode.releases f else []) =
      if n + 1 = b + 1024 then (u.txWindow f).beginNode.kept else 0 := by
    split
    · exact freesOf_releases (h.sound _) f
    · rfl
  refine ⟨(if n + 1 = b + 1024 then (u.txWindow f).beginNode.releases f else []) ++ bs, b', hb',
    hh.shape h₂, ?_, fun j hj => ?_, ?_, fun a ha hfree => ?_, fun a ha => ?_, hkept, hsame'⟩
  · rw [hh.out, hout₂, hout, List.append_assoc]
  · rw [hh.others j hj, hoth₂ j hj, hwin, Function.update_of_ne hj]
  · have hpush := kept_push h.toSpans (hh.shape h₂).toSpans hb' hnode
      fun x hbx hxn => by rw [hsame' x hbx hxn]
    rw [freesOf_append, freesOf_eq_zero hh.frees, add_zero, hrel, hpush, haddr]
  · rcases List.mem_append.mp ha with ha | ha
    · split at ha
      · next hfull => exact ⟨hfull, ha⟩
      · exact absurd ha List.not_mem_nil
    · exact absurd (hh.frees a ha) hfree
  · have hzero : sendsOf (if n + 1 = b + 1024 then (u.txWindow f).beginNode.releases f else []) =
        0 := by
      split
      · exact sendsOf_releases f
      · rfl
    rw [sendsOf_append, hzero, zero_add] at ha
    have hmem := hh.sends a ha
    rw [DataNode.kept_of_some hdata, haddr] at hmem
    exact Multiset.mem_singleton.mp hmem

/-! ### The account of a call -/

/-- The tx windows keep their shape. -/
def Shapes (u : UserInfo) : Prop := ∀ f, ∃ b n, Shape (u.txWindow f) b n

theorem Shapes.of_flow (h : Shapes u) (hoth : ∀ j, j ≠ f → v.txWindow j = u.txWindow j)
    (hf : ∃ b n, Shape (v.txWindow f) b n) : Shapes v := by
  intro j
  by_cases hjf : j = f
  · exact hjf ▸ hf
  · rw [hoth j hjf]
    exact h j

/-- The account of a call over the three subflows. It was given the buffers `new`; it gave back such
a buffer or that of a node with `P`; every buffer it handed on is in a window; nothing was lost. -/
structure Ledger (u : UserInfo) (new : Multiset ℕ) (P : ℕ → DataNode → Prop) (as : List Action)
    (v : UserInfo) : Prop where
  out : v.out = u.out ++ as
  shapes : Shapes v
  balance : freesOf as + v.kept = u.kept + new
  frees : ∀ a ∈ as, a.frees ≠ 0 → (∃ m, a = .free m ∧ m.addr ∈ new) ∨
    ∃ g < 3, ∃ i < 1024, a ∈ ((u.txWindow g).dataNode i).releases g ∧ P g ((u.txWindow g).dataNode i)
  sends : ∀ a ∈ sendsOf as, a ∈ v.kept

variable {Q : ℕ → DataNode → Prop} {new : Multiset ℕ}

theorem kept_of_flow (hf : f < 3) (hoth : ∀ j, j ≠ f → v.txWindow j = u.txWindow j) :
    v.kept + (u.txWindow f).kept = u.kept + (v.txWindow f).kept := by
  rw [UserInfo.kept, UserInfo.kept]
  obtain rfl | rfl | rfl : f = 0 ∨ f = 1 ∨ f = 2 := by omega
  · rw [hoth 1 (by decide), hoth 2 (by decide)]
    abel
  · rw [hoth 0 (by decide), hoth 2 (by decide)]
    abel
  · rw [hoth 0 (by decide), hoth 1 (by decide)]
    abel

theorem mem_kept_of_flow {a : ℕ} (hf : f < 3) (h : a ∈ (u.txWindow f).kept) : a ∈ u.kept := by
  rw [UserInfo.kept, Multiset.mem_add, Multiset.mem_add]
  obtain rfl | rfl | rfl : f = 0 ∨ f = 1 ∨ f = 2 := by omega
  · exact .inl (.inl h)
  · exact .inl (.inr h)
  · exact .inr h

theorem Ledger.refl (h : Shapes u) : Ledger u 0 Q [] u :=
  ⟨(List.append_nil _).symm, h, by rw [freesOf_nil, zero_add, add_zero],
    fun _ ha => absurd ha List.not_mem_nil, fun _ ha => absurd ha (Multiset.notMem_zero _)⟩

/-- Balance on one window is balance on the three. -/
theorem balance_of_flow (hf : f < 3) (hoth : ∀ j, j ≠ f → v.txWindow j = u.txWindow j)
    (h : freesOf as + (v.txWindow f).kept = (u.txWindow f).kept + new) :
    freesOf as + v.kept = u.kept + new := by
  have hflow := kept_of_flow hf hoth
  refine add_right_cancel (b := (u.txWindow f).kept) ?_
  rw [add_assoc, hflow, add_left_comm, h, add_assoc, add_comm new]

/-- A step on one subflow. -/
theorem Acct.ledger (h : Acct u f P as v) (hf : f < 3) (hu : Shapes u)
    (hv : ∃ b n, Shape (v.txWindow f) b n) : Ledger u 0 (fun g d => g = f ∧ P d) as v where
  out := h.out
  shapes := hu.of_flow h.others hv
  balance := balance_of_flow hf h.others (by rw [h.balance, add_zero])
  frees a ha hfree := by
    obtain ⟨i, hi, hmem, hP⟩ := h.frees a ha hfree
    exact .inr ⟨f, hf, i, hi, hmem, rfl, hP⟩
  sends a ha := mem_kept_of_flow hf (h.sends a ha)

theorem Ledger.imp {Q' : ℕ → DataNode → Prop} (h : Ledger u new Q as v)
    (hQ : ∀ g d, Q g d → Q' g d) : Ledger u new Q' as v :=
  { h with
    frees := fun a ha hfree => (h.frees a ha hfree).imp_right
      fun ⟨g, hg, i, hi, hmem, hP⟩ => ⟨g, hg, i, hi, hmem, hQ _ _ hP⟩ }

/-- A step that gives nothing back comes after. -/
theorem Ledger.concat {bs : List Action} (h : Ledger u new Q as v)
    (h' : Ledger v 0 (fun _ _ => False) bs t) : Ledger u new Q (as ++ bs) t := by
  have hfree : ∀ a ∈ bs, a.frees = 0 := by
    intro a ha
    by_contra hne
    rcases h'.frees a ha hne with ⟨m, -, hm⟩ | ⟨-, -, -, -, -, hF⟩
    · exact Multiset.notMem_zero _ hm
    · exact hF
  have hkept : t.kept = v.kept := by
    have hb := h'.balance
    rwa [freesOf_eq_zero hfree, zero_add, add_zero] at hb
  refine ⟨by rw [h'.out, h.out, List.append_assoc], h'.shapes, ?_, fun a ha hne => ?_,
    fun a ha => ?_⟩
  · rw [freesOf_append, freesOf_eq_zero hfree, add_zero, hkept, h.balance]
  · rcases List.mem_append.mp ha with ha | ha
    · exact h.frees a ha hne
    · exact absurd (hfree a ha) hne
  · rw [sendsOf_append, Multiset.mem_add] at ha
    rcases ha with ha | ha
    · rw [hkept]
      exact h.sends a ha
    · exact h'.sends a ha

/-! ### The retransmission of the newest packet -/

theorem txWinRetransFlow_acct (h : Shape (u.txWindow f) b n) :
    ∃ as, Acct u f (fun _ => False) as (u.txWinRetransFlow f) ∧
      Shape ((u.txWinRetransFlow f).txWindow f) b n := by
  rw [txWinRetransFlow]
  split
  · exact ⟨[], .refl u f _, h⟩
  split
  · refine ⟨[], (Acct.refl u f _).congr rfl (fun j hj => txWindow_setTxWindow_of_ne _ _ hj)
      fun i => by rw [txWindow_setTxWindow], ?_⟩
    rw [txWindow_setTxWindow]
    exact h.congr rfl rfl rfl rfl rfl
  split
  · exact ⟨[], .refl u f _, h⟩
  next last hlast =>
  dsimp only
  split
  · next hgo =>
    obtain ⟨bs, hh⟩ := callMPCToRetrans_handed (s := u) (f := f) (i := last) (h.sound _)
    have hmark := hh.mark hgo.1 (h.sound _)
      (u32 ((u.callMPCToRetrans f last).time + if f = 0 then 10 else 6))
      ((u.callMPCToRetrans f last).txWindow f).retransCnt
      (u16 (((u.callMPCToRetrans f last).txWindow f).timeOutRetCnt + 1)) rfl
    exact ⟨bs, hmark.acct (h.last last hlast) (.refl u f _), hmark.shape h⟩
  · exact ⟨[], .refl u f _, h⟩

theorem txWinRetransFlow_ledger (hu : Shapes u) (hf : f < 3) :
    ∃ as, Ledger u 0 (fun _ _ => False) as (u.txWinRetransFlow f) := by
  obtain ⟨b, n, h⟩ := hu f
  obtain ⟨as, hacct, hshape⟩ := txWinRetransFlow_acct h
  exact ⟨as, (hacct.ledger hf hu ⟨b, n, hshape⟩).imp fun _ _ hF => hF.2⟩

theorem txWinRetransCheck_ledger (hu : Shapes u) :
    ∃ as, Ledger u 0 (fun _ _ => False) as u.txWinRetransCheck := by
  rw [txWinRetransCheck]
  split
  · obtain ⟨as₀, h₀⟩ := txWinRetransFlow_ledger hu (f := 0) (by decide)
    obtain ⟨as₁, h₁⟩ := txWinRetransFlow_ledger h₀.shapes (f := 1) (by decide)
    obtain ⟨as₂, h₂⟩ := txWinRetransFlow_ledger h₁.shapes (f := 2) (by decide)
    exact ⟨_, (h₀.concat h₁).concat h₂⟩
  · exact ⟨[], .refl hu⟩

/-! ### New data -/

/-- The node is pushed out when `k` packets more come into the window. -/
def PushedOut (w : TxWin) (k : ℕ) (d : DataNode) : Prop :=
  distanceSN w.beginNode.ssn d.ssn + 1023 < distanceSN w.beginNode.ssn w.nextNode.ssn + k

instance (w : TxWin) (k : ℕ) : DecidablePred (PushedOut w k) :=
  fun _ => inferInstanceAs (Decidable (_ < _))

/-- The buffers a send asks for. -/
def sendAllocs (u : UserInfo) (flowId : Option ℕ) (length : ℕ) : Multiset ℕ :=
  if flowId.isSome ∧ 1480 ≤ length then
    (u.allocs 0).elim 0 fun first => {first} + (u.allocs 1).elim 0 fun last => {last}
  else 0

theorem mem_freesOf {m : Msg} (h : .free m ∈ as) : m.addr ∈ freesOf as := by
  obtain ⟨l, r, rfl⟩ := List.append_of_mem h
  rw [freesOf_append, freesOf_cons, Multiset.mem_add, Multiset.mem_add]
  exact .inr (.inl (Multiset.mem_singleton_self _))

theorem pushedOut_of_full {k b' : ℕ} (h : Shape w b n) (hbb : b ≤ b') (hbn : b' ≤ n)
    (hfull : b' + 1024 ≤ n + k) : PushedOut w k (w.dataNode (b' % 1024)) := by
  have hsize := h.size
  have hle := h.le
  rw [PushedOut, h.begin_ssn, h.next_ssn, h.num b' hbb hbn, distanceSN_of_le hbb (by omega),
    distanceSN_of_le hle (by omega)]
  omega

section Send

variable {bs : List Action} {u₁ : UserInfo}

/-- A packet that goes out whole, after buffers that are given back at once. -/
theorem sendBlock_ledger (hu : Shapes u) (hf : f < 3) (hw : u₁.txWindow = u.txWindow)
    (hout : u₁.out = u.out ++ bs) (hbs : ∀ a ∈ bs, ∃ m, a = .free m) (data : Msg) (len frag : ℕ) :
    ∃ as, Ledger u (freesOf bs + {data.addr}) (fun g d => g = f ∧ PushedOut (u.txWindow g) 1 d)
      (bs ++ as) (u₁.sendBlock f data len frag).2 := by
  obtain ⟨b, n, h⟩ := hu f
  have hle := h.le
  rw [← hw] at h
  obtain ⟨as, b', -, hshape, hout', hoth, hbal, hfrees, hsends, hnode, -⟩ :=
    sendBlock_acct h data len frag rfl
  rw [hw] at hoth hbal hfrees h
  have hnone : sendsOf bs = 0 := sendsOf_eq_zero fun a ha => by
    obtain ⟨m, rfl⟩ := hbs a ha
    rfl
  refine ⟨as, by rw [hout', hout, List.append_assoc], hu.of_flow hoth ⟨_, _, hshape⟩, ?_,
    fun a ha hfree => ?_, fun a ha => ?_⟩
  · have hflow := balance_of_flow hf hoth hbal
    rw [freesOf_append, add_assoc, hflow]
    abel
  · rcases List.mem_append.mp ha with ha | ha
    · obtain ⟨m, rfl⟩ := hbs a ha
      exact .inl ⟨m, rfl, Multiset.mem_add.mpr (.inl (mem_freesOf ha))⟩
    · obtain ⟨hfull, hmem⟩ := hfrees a ha hfree
      rw [beginNode, h.begin_eq] at hmem
      exact .inr ⟨f, hf, b % 1024, Nat.mod_lt _ (by decide), hmem, rfl,
        pushedOut_of_full h le_rfl hle (by omega)⟩
  · rw [sendsOf_append, hnone, zero_add] at ha
    obtain rfl := hsends a ha
    exact mem_kept_of_flow hf (mem_kept.mpr ⟨n % 1024, Nat.mod_lt _ (by decide),
      hnode ▸ Multiset.mem_singleton_self _⟩)

/-- A packet that goes out in two fragments. -/
theorem sendBlocks_ledger (hu : Shapes u) (hf : f < 3) (hw : u₁.txWindow = u.txWindow)
    (hout : u₁.out = u.out ++ bs) (hbs : ∀ a ∈ bs, ∃ m, a = .free m) (first last : Msg)
    (len₁ len₂ frag₁ frag₂ : ℕ) {u₂ : UserInfo}
    (hw₂ : u₂.txWindow = (u₁.sendBlock f first len₁ frag₁).2.txWindow)
    (hout₂ : u₂.out = (u₁.sendBlock f first len₁ frag₁).2.out) :
    ∃ as, Ledger u (freesOf bs + {first.addr} + {last.addr})
      (fun g d => g = f ∧ PushedOut (u.txWindow g) 2 d) (bs ++ as)
      (u₂.sendBlock f last len₂ frag₂).2 := by
  obtain ⟨b, n, h⟩ := hu f
  have hle := h.le
  have hsize := h.size
  rw [← hw] at h
  obtain ⟨as₁, b₁, hb₁, hshape₁, hout₁, hoth₁, hbal₁, hfrees₁, hsends₁, hnode₁, hsame₁⟩ :=
    sendBlock_acct h first len₁ frag₁ rfl
  rw [← hw₂] at hshape₁ hoth₁ hbal₁ hnode₁ hsame₁
  rw [← hout₂] at hout₁
  obtain ⟨as₂, b₂, hb₂, hshape₂, hout₃, hoth₂, hbal₂, hfrees₂, hsends₂, hnode₂, hsame₂⟩ :=
    sendBlock_acct hshape₁ last len₂ frag₂ rfl
  rw [hw] at hoth₁ hbal₁ hfrees₁ hsame₁ h
  have hbb : b ≤ b₁ ∧ b₁ ≤ b + 1 ∧ b₁ ≤ n ∧ (n + 1 + 1 = b₁ + 1024 → b₁ < n) ∧ b₂ ≤ n := by
    rw [hb₂, hb₁]
    split <;> split <;> omega
  generalize (u₂.sendBlock f last len₂ frag₂).2 = v at hshape₂ hout₃ hoth₂ hbal₂ hnode₂ hsame₂ ⊢
  have hoth : ∀ j, j ≠ f → v.txWindow j = u.txWindow j :=
    fun j hj => (hoth₂ j hj).trans (hoth₁ j hj)
  have hbal : freesOf (as₁ ++ as₂) + (v.txWindow f).kept =
      (u.txWindow f).kept + ({first.addr} + {last.addr}) := by
    rw [freesOf_append, add_assoc, hbal₂, ← add_assoc, hbal₁, add_assoc]
  have hnone : sendsOf bs = 0 := sendsOf_eq_zero fun a ha => by
    obtain ⟨m, rfl⟩ := hbs a ha
    rfl
  refine ⟨as₁ ++ as₂, ?_, hu.of_flow hoth ⟨_, _, hshape₂⟩, ?_, fun a ha hfree => ?_, fun a ha => ?_⟩
  · rw [hout₃, hout₁, hout]
    simp only [List.append_assoc]
  · have hflow := balance_of_flow hf hoth hbal
    rw [freesOf_append, add_assoc, hflow]
    abel
  · rcases List.mem_append.mp ha with ha | ha
    · obtain ⟨m, rfl⟩ := hbs a ha
      exact .inl ⟨m, rfl, Multiset.mem_add.mpr (.inl (Multiset.mem_add.mpr
        (.inl (mem_freesOf ha))))⟩
    rcases List.mem_append.mp ha with ha | ha
    · obtain ⟨hfull, hmem⟩ := hfrees₁ a ha hfree
      rw [beginNode, h.begin_eq] at hmem
      exact .inr ⟨f, hf, b % 1024, Nat.mod_lt _ (by decide), hmem, rfl,
        pushedOut_of_full h le_rfl hle (by omega)⟩
    · -- the second fragment pushes out a packet that was there before the first
      obtain ⟨hfull, hmem⟩ := hfrees₂ a ha hfree
      rw [beginNode, hshape₁.begin_eq, hsame₁ b₁ le_rfl (hbb.2.2.2.1 hfull)] at hmem
      exact .inr ⟨f, hf, b₁ % 1024, Nat.mod_lt _ (by decide), hmem, rfl,
        pushedOut_of_full h hbb.1 hbb.2.2.1 (by omega)⟩
  · refine mem_kept_of_flow hf ?_
    rw [sendsOf_append, hnone, zero_add, sendsOf_append, Multiset.mem_add] at ha
    rcases ha with ha | ha
    · obtain rfl := hsends₁ a ha
      refine mem_kept.mpr ⟨n % 1024, Nat.mod_lt _ (by decide), ?_⟩
      rw [hsame₂ n hbb.2.2.2.2 (Nat.lt_succ_self n), hnode₁]
      exact Multiset.mem_singleton_self _
    · obtain rfl := hsends₂ a ha
      exact mem_kept.mpr ⟨(n + 1) % 1024, Nat.mod_lt _ (by decide),
        hnode₂ ▸ Multiset.mem_singleton_self _⟩

end Send

/-- What a split asks for and gives back at once. -/
theorem splitDataMem_cases (s : UserInfo) (data : Msg) {length : ℕ} (hlen : 1480 ≤ length) :
    (∃ frag s', s.splitDataMem data length = (some frag, s') ∧ s'.txWindow = s.txWindow ∧
        s'.out = s.out ++ [.free data] ∧ s.allocs 0 = some frag.first.addr ∧
        s.allocs 1 = some frag.last.addr) ∨
      ∃ bs s', s.splitDataMem data length = (none, s') ∧ s'.txWindow = s.txWindow ∧
        s'.out = s.out ++ bs ∧ (bs = [] ∨ ∃ m, bs = [.free m] ∧ s.allocs 0 = some m.addr) ∧
        freesOf bs = (s.allocs 0).elim 0 (fun first => {first}) ∧
        (s.allocs 0 = none ∨ s.allocs 1 = none) := by
  rw [splitDataMem, if_neg (by omega)]
  dsimp only [msgMemCreat]
  cases h₀ : s.allocs 0 with
  | none =>
    exact .inr ⟨[], _, rfl, rfl, (List.append_nil _).symm, .inl rfl, rfl, .inl rfl⟩
  | some first =>
    dsimp only
    cases h₁ : s.allocs (0 + 1) with
    | none =>
      refine .inr ⟨_, _, rfl, rfl, rfl, .inr ⟨_, rfl, rfl⟩, ?_, .inr rfl⟩
      rw [freesOf_cons, freesOf_nil, add_zero]
      rfl
    | some last => exact .inl ⟨_, _, rfl, rfl, rfl, rfl, rfl⟩

/-- A buffer that is not sent is freed. -/
theorem ledger_back (hu : Shapes u) (data : Msg) (hnew : new = 0) :
    Ledger u ({data.addr} + new) Q [.free data] (u.emit [.free data]) := by
  subst hnew
  refine ⟨rfl, hu, ?_, fun a ha _ => ?_, fun a ha => absurd ha (Multiset.notMem_zero _)⟩
  · rw [freesOf_cons, freesOf_nil, add_zero, add_zero, add_comm]
    rfl
  · obtain rfl := List.mem_singleton.mp ha
    exact .inl ⟨data, rfl, by simp⟩

/-- `MPD_DoSendNewTransData`. -/
theorem doSendNewTransData_ledger (hu : Shapes u) {flowId : Option ℕ} (hf : ∀ f ∈ flowId, f < 3)
    (data : Msg) (length : ℕ) :
    ∃ as, Ledger u ({data.addr} + u.sendAllocs flowId length)
      (fun g d => flowId = some g ∧ PushedOut (u.txWindow g) (u.sendCount length) d) as
      (u.doSendNewTransData flowId data length).2 := by
  rw [UserInfo.doSendNewTransData.eq_def]
  split
  · refine ⟨_, ledger_back hu data ?_⟩
    rw [sendAllocs, if_neg (by omega)]
  split
  · exact ⟨_, ledger_back hu data (if_neg (by simp))⟩
  next hlen flow =>
  have hf' : flow < 3 := hf flow rfl
  dsimp only
  set u₀ : UserInfo := { u with lastPackageTime := u32 (u.time + 6000) } with hu₀
  have hone : ∀ d : DataNode, PushedOut (u.txWindow flow) 1 d →
      PushedOut (u.txWindow flow) (u.sendCount length) d := by
    intro d hd
    rw [PushedOut] at hd ⊢
    rw [sendCount]
    split <;> omega
  by_cases hlong : 1480 ≤ length
  · rw [if_pos hlong]
    rcases splitDataMem_cases u₀ data hlong with
      ⟨frag, s', hsplit, hw, hout, h₀, h₁⟩ | ⟨bs, s', hsplit, hw, hout, hone', hfrees, hnone⟩
    · rw [hsplit]
      dsimp only
      obtain ⟨as, hledger⟩ := sendBlocks_ledger hu hf' hw hout
        (fun a ha => ⟨data, List.mem_singleton.mp ha⟩) frag.first frag.last 1012
        (length - 1012 + 12) 1 2
        (show ({ (s'.sendBlock flow frag.first 1012 1).2 with
          txDataSn := u16 ((s'.sendBlock flow frag.first 1012 1).2.txDataSn + 65535) } :
            UserInfo).txWindow = _ from rfl) rfl
      refine ⟨[.free data] ++ as, ?_⟩
      have hnew : {data.addr} + u.sendAllocs (some flow) length =
          freesOf [.free data] + {frag.first.addr} + {frag.last.addr} := by
        rw [sendAllocs, if_pos ⟨rfl, hlong⟩, show u.allocs 0 = _ from h₀,
          show u.allocs 1 = _ from h₁, Option.elim_some, Option.elim_some, freesOf_cons, freesOf_nil,
          add_zero, add_assoc]
        rfl
      rw [hnew]
      refine hledger.imp fun g d hd => ⟨congrArg some hd.1.symm, ?_⟩
      rw [sendCount, if_pos ⟨hlong, by rw [show u.allocs 0 = _ from h₀]; rfl,
        by rw [show u.allocs 1 = _ from h₁]; rfl⟩]
      exact hd.2
    · rw [hsplit]
      dsimp only
      have hbs : ∀ a ∈ bs, ∃ m, a = .free m := by
        rcases hone' with rfl | ⟨m, rfl, -⟩
        · exact fun _ ha => absurd ha List.not_mem_nil
        · exact fun a ha => ⟨m, List.mem_singleton.mp ha⟩
      obtain ⟨as, hledger⟩ := sendBlock_ledger hu hf' hw hout hbs data length 0
      refine ⟨bs ++ as, ?_⟩
      have hnew : {data.addr} + u.sendAllocs (some flow) length = freesOf bs + {data.addr} := by
        rw [sendAllocs, if_pos ⟨rfl, hlong⟩, hfrees, add_comm]
        change _ + _ = (u.allocs 0).elim 0 _ + _
        rcases hnone with h0 | h1
        · rw [show u.allocs 0 = none from h0, Option.elim_none, Option.elim_none]
        · rw [show u.allocs 1 = none from h1, Option.elim_none]
          cases u.allocs 0 <;> simp
      rw [hnew]
      refine hledger.imp fun g d hd => ⟨congrArg some hd.1.symm, ?_⟩
      obtain ⟨rfl, hd⟩ := hd
      exact hone d hd
  · rw [if_neg hlong]
    dsimp only
    obtain ⟨as, hledger⟩ := sendBlock_ledger hu hf' (show u₀.txWindow = u.txWindow from rfl)
      (List.append_nil _).symm (fun _ h => absurd h List.not_mem_nil) data length 0
    refine ⟨[] ++ as, ?_⟩
    have hnew : {data.addr} + u.sendAllocs (some flow) length = freesOf [] + {data.addr} := by
      rw [sendAllocs, if_neg (fun h => hlong h.2), freesOf_nil, add_zero, zero_add]
    rw [hnew]
    refine hledger.imp fun g d hd => ⟨congrArg some hd.1.symm, ?_⟩
    obtain ⟨rfl, hd⟩ := hd
    exact hone d hd

end UserInfo

end Mpd

end AndroidVendor
