import AndroidVendor.Mpd.Custody

/-!
# What a SACK gives back

`MPD_parserSACK` walks a cursor over the ring of nodes. Started at an acknowledgement it may start
on a node that is idle, and comes to the window from behind; `Walk` follows it through one turn of
the ring. A SACK whose edges it never meets keeps it walking for ever, and then there is nothing to
say.

## Main results

* `Walk.gap`, `Walk.block` — where the two loops stop
* `parserSACK_acct` — the nodes a SACK gives back lie in its blocks
-/

namespace AndroidVendor

namespace Mpd

open Loop TxWin

namespace UserInfo

variable {u v s t : UserInfo} {w : TxWin} {f b n i x : ℕ} {P : DataNode → Prop}
  {as : List Action}

/-! ### The cursor -/

/-- A round over a block: the node gives its data back. -/
theorem sackBlockNode_cleared (h : Shape (s.txWindow f) b n) (i : ℕ) :
    (s.sackBlockNode f i).out = s.out ++ ((s.txWindow f).dataNode i).releases f ∧
      (∀ j, j ≠ f → (s.sackBlockNode f i).txWindow j = s.txWindow j) ∧
      ∃ d, (s.sackBlockNode f i).txWindow f = (s.txWindow f).setNode i d ∧
        d.ssn = ((s.txWindow f).dataNode i).ssn ∧ d.pData = none ∧ Sound d := by
  have hd : Sound ((s.txWindow f).dataNode i) := h.sound i
  have hself : (s.txWindow f).setNode i ((s.txWindow f).dataNode i) = s.txWindow f := by
    rw [setNode, Function.update_eq_self]
  rw [sackBlockNode]
  dsimp only
  split
  · next hinit =>
    refine ⟨?_, fun _ _ => rfl, _, hself.symm, rfl, hd.none_iff.mp hinit, hd⟩
    rw [DataNode.releases, if_pos hinit, List.append_nil]
  next hstate =>
  split
  · next hnone => exact absurd (hd.none_iff.mpr hnone) hstate
  · next m hm =>
    refine ⟨?_, fun j hj => ?_, { (s.txWindow f).dataNode i with
      pData := none, transState := .dataInit }, ?_, rfl, rfl, by simp [Sound]⟩
    · rw [DataNode.releases, if_neg hstate, hm]
      simp [UserInfo.emit, UserInfo.setTxWindow]
    · rw [countConfirmed_txWindow, txWindow_setTxWindow_of_ne _ _ hj]
      simp [UserInfo.emit]
    · rw [countConfirmed_txWindow, txWindow_setTxWindow]
      simp [UserInfo.emit]

/-- The cursor over the nodes stands at position `p` of a turn that starts behind `pTxNext`: first
the idle nodes, then the window, each packet one turn later than it was put there. The nodes from
the cursor on are as they were, and every buffer that was handed on sits before it. -/
structure Walk (u : UserInfo) (f b n : ℕ) (P : DataNode → Prop) (p : ℕ) (s : UserInfo × ℕ) :
    Prop where
  cell : s.2 = p % 1024
  after : n < p
  upto : p ≤ n + 1024
  shape : Shape (s.1.txWindow f) b n
  ssn : ∀ i, ((s.1.txWindow f).dataNode i).ssn = ((u.txWindow f).dataNode i).ssn
  rest : ∀ x, p ≤ x → x ≤ n + 1024 →
    (s.1.txWindow f).dataNode (x % 1024) = (u.txWindow f).dataNode (x % 1024)
  acct : ∃ as, Acct u f P as s.1 ∧ ∀ a ∈ sendsOf as, ∃ x, n < x ∧ x < p ∧
    a ∈ ((s.1.txWindow f).dataNode (x % 1024)).kept

section Walk

variable {p l r : ℕ} {z z' : UserInfo × ℕ}

theorem Walk.gapNode (h : Walk u f b n P p z) (hp : p < n + 1024) :
    Walk u f b n P (p + 1) (z.1.sackGapNode f z.2, txPlus z.2) := by
  have hafter := h.after
  have hcell := h.cell
  obtain ⟨as, hacct, hsends⟩ := h.acct
  obtain ⟨bs, hh⟩ := sackGapNode_handed (s := z.1) (f := f) (i := z.2) (h.shape.sound _)
  have hkept : ∀ j, (((z.1.sackGapNode f z.2).txWindow f).dataNode j).kept =
      ((z.1.txWindow f).dataNode j).kept := by
    intro j
    rw [DataNode.kept, hh.pData j]
    rfl
  refine ⟨?_, by omega, hp, hh.shape h.shape, fun i => (hh.ssn i).trans (h.ssn i),
    fun x hpx hx => ?_, as ++ bs, hh.acct ?_ hacct, fun a ha => ?_⟩
  · rw [hcell, txPlus_mod]
  · rw [hh.node_of_ne (by
      rw [hcell]
      exact SerialRing.cell_ne (by omega) (by omega) (by omega))]
    exact h.rest x (by omega) hx
  · rw [hcell]
    exact Nat.mod_lt _ (by decide)
  · rw [sendsOf_append, Multiset.mem_add] at ha
    rcases ha with ha | ha
    · obtain ⟨x, hnx, hxp, hx⟩ := hsends a ha
      exact ⟨x, hnx, by omega, (hkept _).symm ▸ hx⟩
    · refine ⟨p, hafter, by omega, ?_⟩
      rw [hkept, ← hcell]
      exact hh.sends a ha

theorem Walk.blockNode (h : Walk u f b n P p z) (hp : p < n + 1024)
    (hP : ((u.txWindow f).dataNode (p % 1024)).pData = none ∨
      P ((u.txWindow f).dataNode (p % 1024))) :
    Walk u f b n P (p + 1) (z.1.sackBlockNode f z.2, txPlus z.2) := by
  have hafter := h.after
  have hcell := h.cell
  have hnode : (z.1.txWindow f).dataNode z.2 = (u.txWindow f).dataNode (p % 1024) := by
    rw [hcell]
    exact h.rest p le_rfl hp.le
  obtain ⟨as, hacct, hsends⟩ := h.acct
  obtain ⟨hout, hoth, d, hw, hssn, hdata, hsound⟩ := sackBlockNode_cleared h.shape z.2
  have hlt : z.2 < 1024 := by
    rw [hcell]
    exact Nat.mod_lt _ (by decide)
  have hne : ∀ x, n < x → x ≤ n + 1024 → x ≠ p →
      ((z.1.sackBlockNode f z.2).txWindow f).dataNode (x % 1024) =
        (z.1.txWindow f).dataNode (x % 1024) := by
    intro x hnx hx hxp
    rw [hw, setNode_of_ne _ (by
      rw [hcell]
      exact SerialRing.cell_ne hxp (by omega) (by omega))]
  have hrel : ∀ a ∈ sendsOf (as ++ ((z.1.txWindow f).dataNode z.2).releases f), ∃ x, n < x ∧
      x < p ∧ a ∈ (((z.1.sackBlockNode f z.2).txWindow f).dataNode (x % 1024)).kept := by
    intro a ha
    rw [sendsOf_append, sendsOf_releases, add_zero] at ha
    obtain ⟨x, hnx, hxp, hx⟩ := hsends a ha
    exact ⟨x, hnx, hxp, (hne x hnx (by omega) (by omega)).symm ▸ hx⟩
  refine ⟨?_, by omega, hp, ?_, fun i => ?_, fun x hpx hx => ?_,
    as ++ ((z.1.txWindow f).dataNode z.2).releases f, ⟨?_, fun j hj => ?_, ?_, fun a ha hfree => ?_,
      fun a ha => ?_, fun i => ?_⟩, fun a ha => ?_⟩
  · rw [hcell, txPlus_mod]
  · rw [hw]
    exact h.shape.rewrite z.2 hsound hssn fun _ => hdata
  · rw [hw]
    by_cases hi : i = z.2
    · rw [hi, setNode_self, hssn, h.ssn]
    · rw [setNode_of_ne _ hi, h.ssn]
  · rw [hne x (by omega) hx (by omega)]
    exact h.rest x (by omega) hx
  · rw [hout, hacct.out, List.append_assoc]
  · rw [hoth j hj, hacct.others j hj]
  · have hset := kept_setNode (w := z.1.txWindow f) hlt d
    rw [DataNode.kept_of_none hdata, add_zero] at hset
    rw [freesOf_append, freesOf_releases (h.shape.sound _), hw, add_assoc,
      add_comm (DataNode.kept _), hset, hacct.balance]
  · rcases List.mem_append.mp ha with ha | ha
    · exact hacct.frees a ha hfree
    · rw [hnode] at ha
      refine ⟨p % 1024, Nat.mod_lt _ (by decide), ha, hP.resolve_left fun hnone => ?_⟩
      rw [DataNode.releases, hnone] at ha
      split at ha <;> exact absurd ha List.not_mem_nil
  · obtain ⟨x, -, -, hx⟩ := hrel a ha
    exact mem_kept.mpr ⟨x % 1024, Nat.mod_lt _ (by decide), hx⟩
  · rw [hw]
    by_cases hi : i = z.2
    · rw [hi, setNode_self, hdata, hcell]
      exact hP.imp_left Eq.symm
    · rw [setNode_of_ne _ hi]
      exact hacct.keeps i
  · obtain ⟨x, hnx, hxp, hx⟩ := hrel a ha
    exact ⟨x, hnx, by omega, hx⟩

end Walk

theorem distanceSN_zero {a : ℕ} (ha : a < 65536) : distanceSN 0 a = a := by
  have h := distanceSN_of_le (x := 0) (y := a) (Nat.zero_le _) (by omega)
  rwa [Nat.zero_mod, Nat.mod_eq_of_lt ha, Nat.sub_zero] at h

theorem eq_of_distanceSN {a l : ℕ} (ha : a < 65536) (hl : l < 65536) (h : distanceSN a l = 0) :
    a = l := by
  obtain ⟨y, hay, hy, rfl⟩ := SerialRing.exists_position hl a
  have hdist := distanceSN_of_le hay hy
  rw [Nat.mod_eq_of_lt ha, h] at hdist
  obtain rfl : a = y := by omega
  exact (Nat.mod_eq_of_lt ha).symm

/-- The SSNs of a turn that starts behind `pTxNext`: none at the idle nodes, then the window. -/
theorem turn_ssn (h : Shape w b n) (hnx : n < x) (hx : x ≤ n + 1024) :
    (x < b + 1024 ∧ (w.dataNode (x % 1024)).ssn = 0 ∧ (w.dataNode (x % 1024)).pData = none) ∨
      ∃ y, x = y + 1024 ∧ b ≤ y ∧ y ≤ n ∧ (w.dataNode (x % 1024)).ssn = y % 65536 := by
  rcases Nat.lt_or_ge x (b + 1024) with hlt | hge
  · exact .inl ⟨hlt, h.blank x hnx hlt, h.idle x hnx.le hlt⟩
  · obtain ⟨y, rfl⟩ := Nat.exists_eq_add_of_le' (show 1024 ≤ x by omega)
    refine .inr ⟨y, rfl, by omega, by omega, ?_⟩
    rw [Nat.add_mod_right]
    exact h.num y (by omega) (by omega)

theorem turn_ssn_lt (h : Shape w b n) (hnx : n < x) (hx : x ≤ n + 1024) :
    (w.dataNode (x % 1024)).ssn < 65536 := by
  rcases turn_ssn h hnx hx with ⟨-, hs, -⟩ | ⟨y, -, -, -, hs⟩ <;> rw [hs]
  · decide
  · exact Nat.mod_lt _ (by decide)

/-- A node whose SSN is not zero is a node of the window. -/
theorem exists_of_ssn_ne (h : Shape w b n) (hi : i < 1024) (hs : (w.dataNode i).ssn ≠ 0) :
    ∃ y, b ≤ y ∧ y ≤ n ∧ i = y % 1024 ∧ (w.dataNode i).ssn = y % 65536 := by
  obtain ⟨x, hnx, hx, rfl⟩ := SerialRing.exists_position hi (n + 1)
  rcases turn_ssn h (x := x) (by omega) (by omega) with ⟨-, hzero, -⟩ | ⟨y, rfl, hby, hyn, hy⟩
  · exact absurd hzero hs
  · exact ⟨y, hby, hyn, by omega, hy⟩

section Walk

variable {p l r : ℕ} {z z' : UserInfo × ℕ}

theorem Walk.ssnAt (h : Walk u f b n P p z) :
    z.1.ssnAt f z.2 = ((u.txWindow f).dataNode (p % 1024)).ssn := by
  rw [UserInfo.ssnAt, h.ssn, h.cell]

/-- Wherever a loop of the SACK stops, the SSNs are what they were. -/
theorem Walk.numbered {cond : UserInfo × ℕ → Prop} [DecidablePred cond]
    {body : UserInfo → ℕ → ℕ → UserInfo} {k : ℕ} (h : Walk u f b n P p z)
    (hbody : ∀ (s : UserInfo) (i : ℕ), Shape (s.txWindow f) b n →
      Shape ((body s f i).txWindow f) b n ∧
        ∀ j, (((body s f i).txWindow f).dataNode j).ssn = ((s.txWindow f).dataNode j).ssn)
    (hrun : whileLoop cond (fun s => some (body s.1 f s.2, txPlus s.2)) k z = some z') :
    z'.2 < 1024 ∧ z'.1.ssnAt f z'.2 = ((u.txWindow f).dataNode z'.2).ssn := by
  obtain ⟨⟨hcell, -, hssn⟩, -⟩ := whileLoop_inv (fun s : UserInfo × ℕ => s.2 < 1024 ∧
    Shape (s.1.txWindow f) b n ∧
      ∀ j, ((s.1.txWindow f).dataNode j).ssn = ((u.txWindow f).dataNode j).ssn)
    (fun s s' hI _ hs => by
      cases hs
      obtain ⟨hshape, hsame⟩ := hbody s.1 s.2 hI.2.1
      refine ⟨?_, hshape, fun j => (hsame j).trans (hI.2.2 j)⟩
      have hlt := hI.1
      simp only [txPlus]
      split <;> omega)
    ⟨by rw [h.cell]; exact Nat.mod_lt _ (by decide), h.shape, h.ssn⟩ hrun
  exact ⟨hcell, hssn _⟩

/-- The loop over a gap stops at the left edge. -/
theorem Walk.gap (hu : Shape (u.txWindow f) b n) (h : Walk u f b n P p z) (hl : l < 65536)
    (hguard : distanceSN (z.1.ssnAt f z.2) l <
      distanceSN (z.1.ssnAt f z.2) (z.1.txWindow f).nextNode.ssn)
    (hrun : sackGap f l z = some z') :
    ∃ p', Walk u f b n P p' z' ∧ p' < n + 1024 ∧
      ((u.txWindow f).dataNode (p' % 1024)).ssn = l ∧ (p' < b + 1024 → p' = p) := by
  have hle := hu.le
  have hsize := hu.size
  have hnext := h.shape.next_ssn
  rw [h.ssnAt, hnext] at hguard
  -- where the left edge is
  have hstop : ∃ q, p ≤ q ∧ q < n + 1024 ∧ ((u.txWindow f).dataNode (q % 1024)).ssn = l ∧
      (l = 0 → p < b + 1024 → q = p) := by
    rcases turn_ssn hu h.after h.upto with ⟨hidle, hzero, -⟩ | ⟨y, rfl, hby, hyn, hy⟩
    · rw [hzero, distanceSN_zero hl, distanceSN_zero (Nat.mod_lt _ (by decide))] at hguard
      by_cases hl0 : l = 0
      · exact ⟨p, le_rfl, by omega, by rw [hzero, hl0], fun _ _ => rfl⟩
      · obtain ⟨hcell, hssn⟩ := h.numbered (fun s i hs => by
          obtain ⟨bs, hh⟩ := sackGapNode_handed (s := s) (f := f) (i := i) (hs.sound i)
          exact ⟨hh.shape hs, hh.ssn⟩) hrun
        have hend := (whileLoop_inv (fun _ => True) (fun _ _ _ _ _ => trivial) trivial hrun).2
        have hend' : distanceSN (z'.1.ssnAt f z'.2) l = 0 := not_not.mp hend
        rw [hssn] at hend'
        obtain ⟨x, hnx, hx, hcell'⟩ := SerialRing.exists_position hcell (n + 1)
        have hlt := turn_ssn_lt hu (x := x) (by omega) (by omega)
        rw [hcell'] at hlt
        have heq := eq_of_distanceSN hlt hl hend'
        obtain ⟨y, hby, hyn, hi, hy⟩ := exists_of_ssn_ne hu hcell (by omega)
        refine ⟨y + 1024, by omega, ?_, by rw [Nat.add_mod_right, ← hi, heq], fun h0 => absurd h0 hl0⟩
        have hne : y ≠ n := by
          rintro rfl
          omega
        omega
    · obtain ⟨x, hyx, hx, rfl⟩ := SerialRing.exists_position hl y
      rw [hy, distanceSN_of_le hyx hx, distanceSN_of_le hyn (by omega)] at hguard
      refine ⟨x + 1024, by omega, by omega, ?_, fun _ hlt => by omega⟩
      rw [Nat.add_mod_right]
      exact hu.num x (by omega) (by omega)
  obtain ⟨q, hpq, hqn, hq, hq0⟩ := hstop
  obtain ⟨⟨p', hpp', hp'q, hwalk⟩, hend⟩ := whileLoop_inv
    (fun s => ∃ p', p ≤ p' ∧ p' ≤ q ∧ Walk u f b n P p' s)
    (fun s s' hI hgo hs => by
      cases hs
      obtain ⟨p', hpp', hp'q, hwalk⟩ := hI
      have hne : p' ≠ q := by
        rintro rfl
        refine hgo ?_
        rw [hwalk.ssnAt, hq]
        exact SerialRing.dist_self _
      exact ⟨p' + 1, by omega, by omega, hwalk.gapNode (by omega)⟩)
    ⟨p, le_rfl, hpq, h⟩ hrun
  have hend' : distanceSN (z'.1.ssnAt f z'.2) l = 0 := not_not.mp hend
  rw [hwalk.ssnAt] at hend'
  have hssn := eq_of_distanceSN (turn_ssn_lt hu hwalk.after hwalk.upto) hl hend'
  refine ⟨p', hwalk, by omega, hssn, fun hidle => ?_⟩
  rcases turn_ssn hu hwalk.after hwalk.upto with ⟨-, hzero, -⟩ | ⟨y, rfl, hby, -, -⟩
  · have := hq0 (by omega) (by omega)
    omega
  · omega

/-- The loop over the block from `l` to `r` comes from position `p` no further than to `q`, and gives
back nodes of the block on the way. -/
structure BlockStop (u : UserInfo) (f n l r p q : ℕ) : Prop where
  le : p ≤ q
  upto : q ≤ n + 1024
  stops : ¬ distanceSN ((u.txWindow f).dataNode (q % 1024)).ssn r < 32767
  gives : ∀ x, p ≤ x → x < q → ((u.txWindow f).dataNode (x % 1024)).pData = none ∨
    InEdges l r ((u.txWindow f).dataNode (x % 1024))

/-- From a node of the window: behind the right edge. -/
theorem blockStop_window (hu : Shape (u.txWindow f) b n) {y : ℕ} (hby : b ≤ y) (hyn : y ≤ n)
    (hr : r < 65536) (hguard : distanceSN (y % 65536) r < distanceSN (y % 65536) (n % 65536)) :
    ∃ q, BlockStop u f n (y % 65536) r (y + 1024) q := by
  have hsize := hu.size
  obtain ⟨e, hye, hey, rfl⟩ := SerialRing.exists_position hr y
  rw [distanceSN_of_le hye hey, distanceSN_of_le hyn (by omega)] at hguard
  refine ⟨e + 1 + 1024, by omega, by omega, ?_, fun x hpx hx => .inr ?_⟩
  · rw [Nat.add_mod_right, hu.num (e + 1) (by omega) (by omega),
      distanceSN_of_lt (by omega) (by omega)]
    omega
  · obtain ⟨v, rfl⟩ := Nat.exists_eq_add_of_le' (show 1024 ≤ x by omega)
    rw [Nat.add_mod_right, InEdges, hu.num v (by omega) (by omega),
      distanceSN_of_le (by omega) (by omega), distanceSN_of_le hye hey]
    omega

/-- From an idle node, where the loop goes on: at the first node of the window that stops it. The
right edge is the node before that one. -/
theorem blockStop_idle (hu : Shape (u.txWindow f) b n) (hnp : n < p) (hp : p < b + 1024)
    (hp0 : p % 1024 = 0) (hr : r < n % 65536) {y : ℕ} (hby : b ≤ y) (hyn : y ≤ n)
    (hend : ¬ distanceSN (y % 65536) r < 32767) : ∃ q, BlockStop u f n 0 r p q := by
  have hle := hu.le
  have hsize := hu.size
  have hex : ∃ k, b ≤ k ∧ ¬ distanceSN (k % 65536) r < 32767 := ⟨y, hby, hend⟩
  obtain ⟨hbk, hk⟩ := Nat.find_spec hex
  have hmin : ∀ k, b ≤ k → k < Nat.find hex → distanceSN (k % 65536) r < 32767 :=
    fun k hbk hlt => not_not.mp fun hne => Nat.find_min hex hlt ⟨hbk, hne⟩
  have hky : Nat.find hex ≤ y := Nat.find_min' hex ⟨hby, hend⟩
  generalize Nat.find hex = k at hbk hk hmin hky
  refine ⟨k + 1024, by omega, by omega, ?_, fun x hpx hx => ?_⟩
  · rw [Nat.add_mod_right, hu.num k hbk (by omega)]
    exact hk
  rcases turn_ssn hu (x := x) (by omega) (by omega) with ⟨-, -, hnone⟩ | ⟨v, rfl, hbv, hvn, hv⟩
  · exact .inl hnone
  · refine .inr ?_
    have hprev := hmin (k - 1) (by omega) (by omega)
    obtain ⟨e, hke, hek, rfl⟩ := SerialRing.exists_position (show r < 65536 by omega) (k - 1)
    rw [distanceSN_of_le hke hek] at hprev
    have hlast : e = k - 1 := by
      by_contra hne
      refine hk ?_
      rw [distanceSN_of_le (by omega) (by omega)]
      omega
    rw [InEdges, hv, distanceSN_zero (Nat.mod_lt _ (by decide)),
      distanceSN_zero (Nat.mod_lt _ (by decide))]
    omega

/-- Where the loop stops, if it does. -/
theorem Walk.blockStop (hu : Shape (u.txWindow f) b n) (h : Walk u f b n P p z) (hr : r < 65536)
    (hp0 : p < b + 1024 → p % 1024 = 0)
    (hguard : distanceSN (z.1.ssnAt f z.2) r <
      distanceSN (z.1.ssnAt f z.2) (z.1.txWindow f).nextNode.ssn)
    (hrun : sackBlockRun f r z = some z') :
    ∃ q, BlockStop u f n ((u.txWindow f).dataNode (p % 1024)).ssn r p q := by
  rw [h.ssnAt, h.shape.next_ssn] at hguard
  rcases turn_ssn hu h.after h.upto with ⟨hidle, hzero, -⟩ | ⟨y, rfl, hby, hyn, hy⟩
  · rw [hzero, distanceSN_zero hr, distanceSN_zero (Nat.mod_lt _ (by decide))] at hguard
    rw [hzero]
    rcases Nat.lt_or_ge r 32767 with hlow | hhigh
    · obtain ⟨hcell', hssn⟩ := h.numbered (fun s i hs => by
        obtain ⟨-, -, d, hw, hd, hdata, hsound⟩ := sackBlockNode_cleared hs i
        rw [hw]
        refine ⟨hs.rewrite i hsound hd fun _ => hdata, fun j => ?_⟩
        by_cases hj : j = i
        · rw [hj, setNode_self, hd]
        · rw [setNode_of_ne _ hj]) hrun
      have hend := (whileLoop_inv (fun _ => True) (fun _ _ _ _ _ => trivial) trivial hrun).2
      rw [InBlock, hssn] at hend
      obtain ⟨y, hby, hyn, -, hy⟩ := exists_of_ssn_ne hu hcell' fun h0 => hend (by
        rw [h0, distanceSN_zero hr]
        exact hlow)
      rw [hy] at hend
      exact blockStop_idle hu h.after hidle (hp0 hidle) hguard hby hyn hend
    · refine ⟨p, le_rfl, h.upto, ?_, fun x hpx hx => absurd hpx (by omega)⟩
      rw [hzero, distanceSN_zero hr]
      omega
  · rw [hy] at hguard ⊢
    exact blockStop_window hu hby hyn hr hguard

/-- The loop over a block stops behind the right edge, or where it started. -/
theorem Walk.block (hu : Shape (u.txWindow f) b n) (h : Walk u f b n P p z) (hr : r < 65536)
    (hl : ((u.txWindow f).dataNode (p % 1024)).ssn = l) (hp0 : p < b + 1024 → p % 1024 = 0)
    (hP : ∀ d, InEdges l r d → P d)
    (hguard : distanceSN (z.1.ssnAt f z.2) r <
      distanceSN (z.1.ssnAt f z.2) (z.1.txWindow f).nextNode.ssn)
    (hrun : sackBlockRun f r z = some z') :
    ∃ p', Walk u f b n P p' z' ∧ (p' < b + 1024 → p' % 1024 = 0) := by
  have hafter := h.after
  obtain ⟨q, hstop⟩ := h.blockStop hu hr hp0 hguard hrun
  have hpq := hstop.le
  have hqn := hstop.upto
  rw [hl] at hstop
  obtain ⟨⟨p', hpp', hp'q, hwalk⟩, hend⟩ := whileLoop_inv
    (fun s => ∃ p', p ≤ p' ∧ p' ≤ q ∧ Walk u f b n P p' s)
    (fun s s' hI hgo hs => by
      cases hs
      obtain ⟨p', hpp', hp'q, hwalk⟩ := hI
      have hne : p' ≠ q := by
        rintro rfl
        refine hstop.stops ?_
        rw [← hwalk.ssnAt]
        exact hgo
      exact ⟨p' + 1, by omega, by omega, hwalk.blockNode (by omega)
        ((hstop.gives p' hpp' (by omega)).imp_right (hP _))⟩)
    ⟨p, le_rfl, hpq, h⟩ hrun
  rw [InBlock, hwalk.ssnAt] at hend
  refine ⟨p', hwalk, fun hidle' => ?_⟩
  rcases turn_ssn hu hwalk.after hwalk.upto with ⟨-, hzero', -⟩ | ⟨y, rfl, hby, -, -⟩
  · -- an idle node stops the loop at once or not at all
    rw [hzero', distanceSN_zero hr] at hend
    have hp : p < b + 1024 := by omega
    suffices hpp : p' = p by
      rw [hpp]
      exact hp0 hp
    by_contra hne
    have hzero : ((u.txWindow f).dataNode (p % 1024)).ssn = 0 := hu.blank p hafter hp
    have hgo : whileLoop (InBlock f r) (fun s => some (s.1.sackBlockNode f s.2, txPlus s.2)) 1024 z =
        some z := by
      refine whileLoop_of_not ?_ _
      rw [InBlock, h.ssnAt, hzero, distanceSN_zero hr]
      exact hend
    obtain rfl : z = z' := Option.some.inj (hgo.symm.trans hrun)
    have hle := hu.le
    refine hne (SerialRing.cell_inj (N := 1024) ?_ ?_ ?_)
    · rw [← hwalk.cell, h.cell]
    · omega
    · have := h.upto
      omega
  · omega

/-- A block of the SACK. -/
theorem Walk.sackBlock (hu : Shape (u.txWindow f) b n) (h : Walk u f b n P p z) (hl : l < 65536)
    (hr : r < 65536) (hp0 : p < b + 1024 → p % 1024 = 0) (hP : ∀ d, InEdges l r d → P d)
    (hrun : sackBlock f z l r = some z') :
    ∃ p', Walk u f b n P p' z' ∧ (p' < b + 1024 → p' % 1024 = 0) := by
  rw [UserInfo.sackBlock] at hrun
  split at hrun
  · next hguard =>
    obtain ⟨y, hgap, hrun⟩ := Option.bind_eq_some_iff.mp hrun
    obtain ⟨p', hwalk, -, hssn, hidle⟩ := h.gap hu hl hguard hgap
    have hp0' : p' < b + 1024 → p' % 1024 = 0 := by
      intro hlt
      have heq := hidle hlt
      exact heq ▸ hp0 (heq ▸ hlt)
    split at hrun
    · next hguard' =>
      rw [show (z.1.txWindow f).nextNode.ssn = (y.1.txWindow f).nextNode.ssn by
        rw [h.shape.next_ssn, hwalk.shape.next_ssn]] at hguard'
      exact hwalk.block hu hr hssn hp0' hP hguard' hrun
    · cases hrun
      exact ⟨p', hwalk, hp0'⟩
  · cases hrun
    exact ⟨p, h, hp0⟩

/-- The blocks of a SACK, one after the other. -/
theorem Walk.sackBlocks {is : List ℕ} {le re : ℕ → ℕ} (hu : Shape (u.txWindow f) b n)
    (h : Walk u f b n P p z) (hl : ∀ i, le i < 65536) (hr : ∀ i, re i < 65536)
    (hp0 : p < b + 1024 → p % 1024 = 0) (hP : ∀ i ∈ is, ∀ d, InEdges (le i) (re i) d → P d)
    (hrun : is.foldlM (fun s i => UserInfo.sackBlock f s (le i) (re i)) z = some z') :
    ∃ p', Walk u f b n P p' z' := by
  induction is generalizing z p with
  | nil =>
    cases hrun
    exact ⟨p, h⟩
  | cons i is ih =>
    rw [List.foldlM_cons] at hrun
    obtain ⟨y, hy, hrun⟩ := Option.bind_eq_some_iff.mp hrun
    obtain ⟨p', hwalk, hp0'⟩ :=
      h.sackBlock hu (hl i) (hr i) hp0 (hP i (List.mem_cons_self ..)) hy
    exact ih hwalk hp0' (fun j hj => hP j (List.mem_cons_of_mem _ hj)) hrun

end Walk

/-- `MPD_parserSACK` gives back nodes that a block reports, and hands nodes before them to their
queue again. -/
theorem parserSACK_acct {m : Msg} {ack : ℕ} (h : Shape (u.txWindow f) b n)
    (hp : u.parserSACK f m ack = some v) :
    ∃ as, Acct u f (Reported m) as v ∧ Shape (v.txWindow f) b n := by
  have hle := h.le
  have hsize := h.size
  rw [parserSACK] at hp
  split at hp
  · cases hp
    exact ⟨[], .refl u f _, h⟩
  dsimp only at hp
  set u₁ := (u.setTrafficControl f { u.trafficControl f with
    sackNum := u32 ((u.trafficControl f).sackNum + 1) }).emit
    [.access (.read 12 m.data.length), .access (.read 13 m.data.length),
      .access (.read 14 m.data.length), .access (.sub (m.byte 13) 4)] with hu₁
  have hw₁ : u₁.txWindow = u.txWindow := rfl
  have hacct₁ : ∃ as, Acct u f (Reported m) as u₁ ∧ sendsOf as = 0 :=
    ⟨_, (Acct.refl u f _).idle rfl (fun _ _ => rfl) (fun _ => rfl)
      (by simp [Action.frees, Action.sends]), rfl⟩
  obtain ⟨as, hacct₁, hsends⟩ := hacct₁
  split at hp
  · obtain rfl : u₁ = v := Option.some.inj hp
    exact ⟨as, hacct₁, h⟩
  set u₂ := (u₁.emit (sackReads m (numSack (m.byte 13)))).setTxWindow f
    { u.txWindow f with retransCnt := 0 } with hu₂
  have hw₂ : u₂.txWindow f = { u.txWindow f with retransCnt := 0 } := txWindow_setTxWindow ..
  have h₂ : Shape (u₂.txWindow f) b n := by
    rw [hw₂]
    exact h.congr rfl rfl rfl rfl rfl
  have hreads : ∀ a ∈ sackReads m (numSack (m.byte 13)), a.frees = 0 ∧ a.sends = 0 := by
    intro a ha
    obtain ⟨i, -, rfl⟩ := List.mem_map.mp ha
    exact ⟨rfl, rfl⟩
  have hacct₂ : Acct u f (Reported m) (as ++ sackReads m (numSack (m.byte 13))) u₂ :=
    hacct₁.idle rfl (fun j hj => txWindow_setTxWindow_of_ne _ _ hj) (fun i => by rw [hw₂]; rfl) hreads
  split at hp
  · obtain rfl : u₂ = v := Option.some.inj hp
    exact ⟨_, hacct₂, h₂⟩
  next hknown =>
  obtain ⟨s, hs, rfl⟩ := Option.map_eq_some_iff.mp hp
  -- the position of the node the cursor starts at
  have hstart : ∃ p, (if m.byte 14 = 0 then ack % 1024 else (u.txWindow f).pTxBegin) = p % 1024 ∧
      n < p ∧ p ≤ n + 1024 ∧ (p < b + 1024 → p % 1024 = 0) := by
    split
    · next hfirst =>
      obtain ⟨p, hnp, hpn, hcell⟩ :=
        SerialRing.exists_position (Nat.mod_lt ack (show 0 < 1024 by decide)) (n + 1)
      refine ⟨p, hcell.symm, hnp, by omega, fun hidle => ?_⟩
      have hack : ((u.txWindow f).dataNode (ack % 1024)).ssn = ack :=
        not_not.mp fun hne => hknown ⟨hfirst, hne⟩
      rw [← hcell, h.blank p hnp hidle] at hack
      rw [hcell, ← hack]
    · exact ⟨b + 1024, by rw [Nat.add_mod_right, h.begin_eq], by omega, by omega, fun hlt => by omega⟩
  obtain ⟨p, hcell, hnp, hpn, hp0⟩ := hstart
  have hwalk : Walk u f b n (Reported m) p
      (u₂, if m.byte 14 = 0 then ack % 1024 else (u.txWindow f).pTxBegin) := by
    refine ⟨hcell, hnp, hpn, h₂, fun i => by rw [hw₂], fun x _ _ => by rw [hw₂], _, hacct₂,
      fun a ha => ?_⟩
    rw [sendsOf_append, hsends, sendsOf_eq_zero fun a ha => (hreads a ha).2] at ha
    exact absurd ha (Multiset.notMem_zero _)
  obtain ⟨p', hdone⟩ := hwalk.sackBlocks h (fun i => m.word_lt _) (fun i => m.word_lt _) hp0
    (fun i hi d hd => ⟨i, List.mem_range.mp hi, hd⟩) hs
  obtain ⟨bs, hacct, -⟩ := hdone.acct
  refine ⟨bs, hacct.congr ?_ (fun j _ => by rw [moveSsnEnd_txWindow])
    (fun i => by rw [moveSsnEnd_txWindow]), by rw [moveSsnEnd_txWindow]; exact hdone.shape⟩
  rw [moveSsnEnd]
  split <;> rfl

end UserInfo

end Mpd

end AndroidVendor
