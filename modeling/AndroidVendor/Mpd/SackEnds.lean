import AndroidVendor.Mpd.SackRun

/-!
# Which SACKs end

A cursor in the window always finds its way. One that starts on an idle node does so at SSN 0, the
only number an idle node carries, and `SackEnds` says for which blocks it comes to rest.

## Main results

* `Walk.sackBlocks_isSome_iff` — the blocks of a SACK, from an idle node
* `sackEnds_run` — in every state a session reaches, which SACKs end
-/

namespace AndroidVendor

namespace Mpd

open Loop TxWin UserInfo

/-- The blocks lead a cursor from an idle node, with SSN 0, to an end, in a window from SSN `first`
to SSN `next`. A block that starts at or beyond `next` is passed over. One that starts at 0 and ends
at or beyond `next`, or half a turn away, leaves the cursor where it is; if it ends nearer, the
cursor stops in the window unless the end is too far behind `first`. From any other block the cursor
goes looking for the left edge, which is there only from `first` on. -/
def SackEnds (first next : ℕ) : List SackV → Prop
  | [] => True
  | (left, right) :: sack =>
    if left < next then
      if left = 0 then
        if right < next ∧ right < 32767 then first ≤ right + 32769 else SackEnds first next sack
      else first ≤ left
    else SackEnds first next sack

instance SackEnds.instDecidable (first next : ℕ) : DecidablePred (SackEnds first next)
  | [] => isTrue trivial
  | (left, right) :: sack =>
    have := instDecidable first next sack
    inferInstanceAs (Decidable (if left < next then
      if left = 0 then
        if right < next ∧ right < 32767 then first ≤ right + 32769 else SackEnds first next sack
      else first ≤ left
    else SackEnds first next sack))

/-- Slot 0 of the ring lies outside the window. -/
def TxWin.ZeroIdle (w : TxWin) : Prop := w.span < SerialRing.dist 1024 w.pTxBegin 0

instance : DecidablePred TxWin.ZeroIdle := fun _ => inferInstanceAs (Decidable (_ < _))

namespace UserInfo

variable {u : UserInfo} {f b n p : ℕ} {sack : List SackV} {z z' : UserInfo × ℕ}

/-- From a node of the window every list of blocks ends. -/
theorem sackBlocks_isSome (h : Spans (z.1.txWindow f) b n) (hcell : z.2 = p % 1024) (hb : b ≤ p)
    (hn : p ≤ n) (hedges : ∀ e ∈ sack, e.1 < 65536 ∧ e.2 < 65536) :
    (sack.foldlM (fun s e => sackBlock f s e.1 e.2) z).isSome := by
  have hsweep : Sweep z.1 f b n p [] [] z :=
    ⟨hcell, hn, h, fun _ _ => rfl, rfl, fun x hx => absurd hx List.not_mem_nil,
      fun x _ _ => by simp [swept], [], (List.append_nil _).symm, rfl,
      fun a ha => absurd ha List.not_mem_nil⟩
  obtain ⟨y, hy, -⟩ := sackBlocks_sweep (t := ⟨p, [], []⟩) hsweep hb hedges
  rw [hy]
  rfl

/-- An idle node at SSN 0 means that no SSN of the window wraps. -/
theorem Walk.idle_ssn (h : Walk u f b n (fun _ => True) p z) (hp : p < b + 1024) (hp0 : p % 1024 = 0)
    {x : ℕ} (hbx : b ≤ x) (hxn : x ≤ n) :
    b % 65536 + (x - b) = x % 65536 ∧ x % 65536 + (n - x) = n % 65536 := by
  have hafter := h.after
  omega

/-- The loop over a gap, from an idle node. -/
theorem Walk.gap_isSome_iff (hu : Shape (u.txWindow f) b n)
    (h : Walk u f b n (fun _ => True) p z) (hp : p < b + 1024) (hp0 : p % 1024 = 0) {l : ℕ}
    (hl : l < n % 65536) (hl0 : l ≠ 0) :
    (sackGap f l z).isSome ↔ b % 65536 ≤ l := by
  have hafter := h.after
  have hsize := hu.size
  have hle := hu.le
  have hl' : l < 65536 := by omega
  constructor
  · intro hsome
    obtain ⟨z', hrun⟩ := Option.isSome_iff_exists.mp hsome
    obtain ⟨hcell, hssn⟩ := h.numbered (fun s i hs => by
      obtain ⟨bs, hh⟩ := sackGapNode_handed (s := s) (f := f) (i := i) (hs.sound i)
      exact ⟨hh.shape hs, hh.ssn⟩) hrun
    have hend := (whileLoop_inv (fun _ => True) (fun _ _ _ _ _ => trivial) trivial hrun).2
    have hend' : distanceSN (z'.1.ssnAt f z'.2) l = 0 := not_not.mp hend
    rw [hssn] at hend'
    obtain ⟨x, hnx, hx, hcell'⟩ := SerialRing.exists_position hcell (n + 1)
    have hlt := turn_ssn_lt hu (x := x) (by omega) (by omega)
    rw [hcell'] at hlt
    have heq := eq_of_distanceSN hlt hl' hend'
    obtain ⟨y, hby, hyn, -, hy⟩ := exists_of_ssn_ne hu hcell (by omega)
    have hwrap := h.idle_ssn hp hp0 hby hyn
    omega
  · intro hbl
    -- the node of the left edge
    obtain ⟨y, hby, hyn, hy⟩ : ∃ y, b ≤ y ∧ y < n ∧ y % 65536 = l := by
      have hwrap := h.idle_ssn hp hp0 le_rfl hle
      refine ⟨b + (l - b % 65536), by omega, by omega, ?_⟩
      have hwrap' := h.idle_ssn hp hp0 (x := b + (l - b % 65536)) (by omega) (by omega)
      omega
    have hq : ((u.txWindow f).dataNode ((y + 1024) % 1024)).ssn = l := by
      rw [Nat.add_mod_right, hu.num y hby hyn.le, hy]
    obtain ⟨t, ht, -⟩ := sackGap_total
      (fun s => ∃ p', p ≤ p' ∧ p' ≤ y + 1024 ∧ Walk u f b n (fun _ => True) p' s)
      (fun s => SerialRing.dist 1024 s.2 ((y + 1024) % 1024))
      (by
        rintro s ⟨p', hpp', hp'q, hwalk⟩ hgo
        have hne : p' ≠ y + 1024 := by
          rintro rfl
          refine hgo ?_
          rw [hwalk.ssnAt, hq]
          exact SerialRing.dist_self _
        have hwalk' := hwalk.gapNode (by omega)
        refine ⟨⟨p' + 1, by omega, by omega, hwalk'⟩, ?_⟩
        rw [hwalk'.cell, hwalk.cell, SerialRing.dist_of_le (by omega) (by omega),
          SerialRing.dist_of_le (by omega) (by omega)]
        omega)
      ⟨p, le_rfl, by omega, h⟩
      (by rw [h.cell, SerialRing.dist_of_le (by omega) (by omega)]; omega)
    rw [ht]
    rfl

/-- The loop over a block, from an idle node. -/
theorem Walk.block_isSome_iff (hu : Shape (u.txWindow f) b n)
    (h : Walk u f b n (fun _ => True) p z) (hp : p < b + 1024) (hp0 : p % 1024 = 0) {r : ℕ}
    (hr : r < n % 65536) (hr' : r < 32767) :
    (sackBlockRun f r z).isSome ↔ b % 65536 ≤ r + 32769 := by
  have hafter := h.after
  have hsize := hu.size
  have hle := hu.le
  have hr'' : r < 65536 := by omega
  constructor
  · intro hsome
    obtain ⟨z', hrun⟩ := Option.isSome_iff_exists.mp hsome
    obtain ⟨hcell, hssn⟩ := h.numbered (fun s i hs => by
      obtain ⟨-, -, d, hw, hd, hdata, hsound⟩ := sackBlockNode_cleared hs i
      rw [hw]
      refine ⟨hs.rewrite i hsound hd fun _ => hdata, fun j => ?_⟩
      by_cases hj : j = i
      · rw [hj, setNode_self, hd]
      · rw [setNode_of_ne _ hj]) hrun
    have hend := (whileLoop_inv (fun _ => True) (fun _ _ _ _ _ => trivial) trivial hrun).2
    rw [InBlock, hssn] at hend
    obtain ⟨y, hby, hyn, -, hy⟩ := exists_of_ssn_ne hu hcell fun h0 => hend (by
      rw [h0, distanceSN_zero hr'']
      exact hr')
    have hwrap := h.idle_ssn hp hp0 hby hyn
    rw [hy] at hend
    by_contra hfar
    refine hend ?_
    have hdist := distanceSN_of_lt (x := y % 65536) (y := r) (by omega) (by omega)
    rw [Nat.mod_mod, Nat.mod_eq_of_lt hr''] at hdist
    omega
  · intro hnear
    -- the node that stops it: behind the right edge, or the first of the window
    obtain ⟨y, hby, hyn, hy⟩ : ∃ y, b ≤ y ∧ y ≤ n ∧ ¬ distanceSN (y % 65536) r < 32767 := by
      have hwrap := h.idle_ssn hp hp0 le_rfl hle
      rcases Nat.lt_or_ge r (b % 65536) with hlt | hge
      · refine ⟨b, le_rfl, hle, ?_⟩
        have hdist := distanceSN_of_lt (x := b % 65536) (y := r) hlt (by omega)
        rw [Nat.mod_mod, Nat.mod_eq_of_lt hr''] at hdist
        omega
      · refine ⟨b + (r + 1 - b % 65536), by omega, by omega, ?_⟩
        have hwrap' := h.idle_ssn hp hp0 (x := b + (r + 1 - b % 65536)) (by omega) (by omega)
        have hdist := distanceSN_of_lt (x := r + 1) (y := r) (by omega) (by omega)
        rw [Nat.mod_eq_of_lt hr'', Nat.mod_eq_of_lt (show r + 1 < 65536 by omega)] at hdist
        rw [show (b + (r + 1 - b % 65536)) % 65536 = r + 1 by omega]
        omega
    have hq : ((u.txWindow f).dataNode ((y + 1024) % 1024)).ssn = y % 65536 := by
      rw [Nat.add_mod_right, hu.num y hby hyn]
    obtain ⟨t, ht, -⟩ := sackBlockRun_total
      (fun s => ∃ p', p ≤ p' ∧ p' ≤ y + 1024 ∧ Walk u f b n (fun _ => True) p' s)
      (fun s => SerialRing.dist 1024 s.2 ((y + 1024) % 1024))
      (by
        rintro s ⟨p', hpp', hp'q, hwalk⟩ hgo
        have hne : p' ≠ y + 1024 := by
          rintro rfl
          refine hy ?_
          rw [← hq, ← hwalk.ssnAt]
          exact hgo
        have hwalk' := hwalk.blockNode (by omega) (.inr trivial)
        refine ⟨⟨p' + 1, by omega, by omega, hwalk'⟩, ?_⟩
        rw [hwalk'.cell, hwalk.cell, SerialRing.dist_of_le (by omega) (by omega),
          SerialRing.dist_of_le (by omega) (by omega)]
        omega)
      ⟨p, le_rfl, by omega, h⟩
      (by rw [h.cell, SerialRing.dist_of_le (by omega) (by omega)]; omega)
    rw [ht]
    rfl

/-- Once the cursor is in the window, the rest ends. -/
theorem Walk.inside (h : Walk u f b n (fun _ => True) p z) (hin : b + 1024 ≤ p)
    (hedges : ∀ e ∈ sack, e.1 < 65536 ∧ e.2 < 65536) :
    (sack.foldlM (fun s e => UserInfo.sackBlock f s e.1 e.2) z).isSome := by
  have hafter := h.after
  have hupto := h.upto
  refine sackBlocks_isSome (p := p - 1024) h.shape.toSpans ?_ (by omega) (by omega) hedges
  rw [h.cell]
  omega

/-- One block, from an idle node. -/
theorem Walk.sackBlock_eq (hu : Shape (u.txWindow f) b n) (h : Walk u f b n (fun _ => True) p z)
    (hp : p < b + 1024) {l : ℕ} (hl : l < 65536) (r : ℕ) :
    UserInfo.sackBlock f z l r = if l < n % 65536 then (sackGap f l z).bind fun s =>
      if distanceSN (s.1.ssnAt f s.2) r < distanceSN (s.1.ssnAt f s.2) (n % 65536) then
        sackBlockRun f r s
      else some s
    else some z := by
  have hzero : z.1.ssnAt f z.2 = 0 := by rw [h.ssnAt, hu.blank p h.after hp]
  rw [UserInfo.sackBlock, hzero, h.shape.next_ssn, distanceSN_zero hl,
    distanceSN_zero (Nat.mod_lt _ (by decide))]

/-- A block that starts at SSN 0 has no gap to pass over. -/
theorem Walk.sackBlock_zero (hu : Shape (u.txWindow f) b n)
    (h : Walk u f b n (fun _ => True) p z) (hp : p < b + 1024) (hn : 0 < n % 65536) {r : ℕ}
    (hr : r < 65536) :
    UserInfo.sackBlock f z 0 r = if r < n % 65536 then sackBlockRun f r z else some z := by
  have hzero : z.1.ssnAt f z.2 = 0 := by rw [h.ssnAt, hu.blank p h.after hp]
  have hgap : sackGap f 0 z = some z := by
    refine whileLoop_of_not ?_ _
    rw [InGap, hzero]
    simp [distanceSN]
  rw [h.sackBlock_eq hu hp (by decide), if_pos hn, hgap, Option.bind_some, hzero,
    distanceSN_zero hr, distanceSN_zero (Nat.mod_lt _ (by decide))]

/-- A block that the cursor stops in, from an idle node: it stops in the window. -/
theorem Walk.afterBlock_isSome (hu : Shape (u.txWindow f) b n)
    (h : Walk u f b n (fun _ => True) p z) (hp : p < b + 1024) (hp0 : p % 1024 = 0) {r : ℕ}
    (hr : r < n % 65536) (hr' : r < 32767) {y : UserInfo × ℕ} (hy : sackBlockRun f r z = some y)
    (hedges : ∀ e ∈ sack, e.1 < 65536 ∧ e.2 < 65536) :
    (sack.foldlM (fun s e => UserInfo.sackBlock f s e.1 e.2) y).isSome := by
  have hr'' : r < 65536 := by omega
  have hblank := hu.blank p h.after hp
  have hzero : z.1.ssnAt f z.2 = 0 := by rw [h.ssnAt, hblank]
  obtain ⟨p', hwalk, -⟩ := h.block hu hr'' (l := 0) hblank (fun _ => hp0) (fun _ _ => trivial) (by
    rw [hzero, h.shape.next_ssn, distanceSN_zero hr'', distanceSN_zero (Nat.mod_lt _ (by decide))]
    exact hr) hy
  have hend := (whileLoop_inv (fun _ => True) (fun _ _ _ _ _ => trivial) trivial hy).2
  refine hwalk.inside ?_ hedges
  by_contra hidle
  refine hend ?_
  rw [InBlock, hwalk.ssnAt, hu.blank p' hwalk.after (by omega), distanceSN_zero hr'']
  exact hr'

/-- A gap that the cursor gets over, from an idle node: its end is in the window, and from there the
whole block does what is left of it. -/
theorem Walk.afterGap_isSome (hu : Shape (u.txWindow f) b n)
    (h : Walk u f b n (fun _ => True) p z) (hp : p < b + 1024) {l r : ℕ} (hl : l < n % 65536)
    (hl0 : l ≠ 0) {y : UserInfo × ℕ} (hy : sackGap f l z = some y)
    (hedges : ∀ e ∈ (l, r) :: sack, e.1 < 65536 ∧ e.2 < 65536) :
    (((l, r) :: sack).foldlM (fun s e => UserInfo.sackBlock f s e.1 e.2) z).isSome := by
  have hafter := h.after
  have hle := hu.le
  have hsize := hu.size
  have hl' : l < 65536 := by omega
  have hzero : z.1.ssnAt f z.2 = 0 := by rw [h.ssnAt, hu.blank p h.after hp]
  obtain ⟨p', hwalk, hp'n, hssn, -⟩ := h.gap hu hl' (by
    rw [hzero, h.shape.next_ssn, distanceSN_zero hl', distanceSN_zero (Nat.mod_lt _ (by decide))]
    exact hl) hy
  have hin : b + 1024 ≤ p' := by
    by_contra hlt
    exact hl0 (hssn.symm.trans (hu.blank p' hwalk.after (by omega)))
  have hagain := hwalk.inside hin hedges
  have hgap : sackGap f l y = some y := by
    refine whileLoop_of_not ?_ _
    rw [InGap, hwalk.ssnAt, hssn]
    simp [distanceSN]
  have hahead : distanceSN l l < distanceSN l (n % 65536) := by
    obtain ⟨q, rfl⟩ := Nat.exists_eq_add_of_le' (show 1024 ≤ p' by omega)
    rw [Nat.add_mod_right, hu.num q (by omega) (by omega)] at hssn
    rw [← hssn, distanceSN_of_le le_rfl (by omega), distanceSN_of_le (by omega) (by omega)]
    omega
  rw [List.foldlM_cons, UserInfo.sackBlock, hwalk.ssnAt, hssn, hwalk.shape.next_ssn,
    if_pos hahead, hgap, Option.bind_some] at hagain
  rw [List.foldlM_cons, h.sackBlock_eq hu hp hl', if_pos hl, hy]
  exact hagain

/-- **The blocks of a SACK, from an idle node.** -/
theorem Walk.sackBlocks_isSome_iff (hu : Shape (u.txWindow f) b n)
    (h : Walk u f b n (fun _ => True) p z) (hp : p < b + 1024) (hp0 : p % 1024 = 0)
    (hedges : ∀ e ∈ sack, e.1 < 65536 ∧ e.2 < 65536) :
    (sack.foldlM (fun s e => UserInfo.sackBlock f s e.1 e.2) z).isSome ↔
      SackEnds (b % 65536) (n % 65536) sack := by
  have hzero : z.1.ssnAt f z.2 = 0 := by rw [h.ssnAt, hu.blank p h.after hp]
  induction sack with
  | nil => exact iff_of_true rfl trivial
  | cons e sack ih =>
    obtain ⟨hl, hr⟩ := hedges e (List.mem_cons_self ..)
    have hrest : ∀ e' ∈ sack, e'.1 < 65536 ∧ e'.2 < 65536 :=
      fun e' he' => hedges e' (List.mem_cons_of_mem _ he')
    obtain ⟨l, r⟩ := e
    dsimp only at hl hr
    rw [SackEnds]
    by_cases hgo : l < n % 65536
    swap
    · -- the block is passed over
      rw [List.foldlM_cons, h.sackBlock_eq hu hp hl, if_neg hgo, if_neg hgo]
      exact ih hrest
    rw [if_pos hgo]
    by_cases hl0 : l = 0
    swap
    · rw [if_neg hl0, ← h.gap_isSome_iff hu hp hp0 hgo hl0]
      constructor
      · rw [List.foldlM_cons, h.sackBlock_eq hu hp hl, if_pos hgo]
        intro hsome
        obtain ⟨t, ht⟩ := Option.isSome_iff_exists.mp hsome
        obtain ⟨x, hx, -⟩ := Option.bind_eq_some_iff.mp ht
        obtain ⟨y, hy, -⟩ := Option.bind_eq_some_iff.mp hx
        rw [hy]
        rfl
      · intro hsome
        obtain ⟨y, hy⟩ := Option.isSome_iff_exists.mp hsome
        exact h.afterGap_isSome hu hp hgo hl0 hy hedges
    subst hl0
    rw [if_pos rfl, List.foldlM_cons, h.sackBlock_zero hu hp hgo hr]
    by_cases hrn : r < n % 65536
    swap
    · rw [if_neg hrn, if_neg fun h => hrn h.1]
      exact ih hrest
    rw [if_pos hrn]
    by_cases hr' : r < 32767
    swap
    · have hblock : sackBlockRun f r z = some z := by
        refine whileLoop_of_not ?_ _
        rw [InBlock, hzero, distanceSN_zero hr]
        exact hr'
      rw [if_neg fun h => hr' h.2, hblock]
      exact ih hrest
    rw [if_pos ⟨hrn, hr'⟩, ← h.block_isSome_iff hu hp hp0 hrn hr']
    constructor
    · intro hsome
      obtain ⟨t, ht⟩ := Option.isSome_iff_exists.mp hsome
      obtain ⟨y, hy, -⟩ := Option.bind_eq_some_iff.mp ht
      rw [hy]
      rfl
    · intro hsome
      obtain ⟨y, hy⟩ := Option.isSome_iff_exists.mp hsome
      rw [hy]
      exact h.afterBlock_isSome hu hp hp0 hrn hr' hy hrest

/-- The session when `MPD_parserSACK` comes to the blocks. -/
def sackEntry (u : UserInfo) (f : ℕ) (m : Msg) : UserInfo :=
  (((u.setTrafficControl f { u.trafficControl f with
    sackNum := u32 ((u.trafficControl f).sackNum + 1) }).emit
    [.access (.read 12 m.data.length), .access (.read 13 m.data.length),
      .access (.read 14 m.data.length), .access (.sub (m.byte 13) 4)]).emit
    (sackReads m (numSack (m.byte 13)))).setTxWindow f { u.txWindow f with retransCnt := 0 }

/-- A SACK that is not turned away, and whose cursor finds its node. -/
theorem parserSACK_eq {m : Msg} {ack : ℕ} (hf : f < 3)
    (hblocks : ¬ (m.byte 12 ≠ 1 ∨ 11 < numSack (m.byte 13) ∨ numSack (m.byte 13) = 0))
    (hknown : ¬ (m.byte 14 = 0 ∧ ((u.txWindow f).dataNode (ack % 1024)).ssn ≠ ack)) :
    u.parserSACK f m ack =
      (m.sackBlocks.foldlM (fun s e => UserInfo.sackBlock f s e.1 e.2) (u.sackEntry f m,
        if m.byte 14 = 0 then ack % 1024 else (u.txWindow f).pTxBegin)).map
          fun s => s.1.moveSsnEnd f (s.1.ssnAt f s.2) := by
  rw [Msg.sackBlocks, if_neg hblocks, List.foldlM_map, parserSACK, if_neg (by omega)]
  dsimp only
  rw [if_neg hblocks]
  exact if_neg hknown

theorem sackEntry_walk (hu : Shape (u.txWindow f) b n) (hn : n < p) (hp : p ≤ n + 1024) (m : Msg) :
    Walk u f b n (fun _ => True) p (u.sackEntry f m, p % 1024) := by
  have hw : (u.sackEntry f m).txWindow f = { u.txWindow f with retransCnt := 0 } :=
    txWindow_setTxWindow ..
  have hreads : ∀ a ∈ [.access (.read 12 m.data.length), .access (.read 13 m.data.length),
      .access (.read 14 m.data.length), .access (.sub (m.byte 13) 4)] ++
      sackReads m (numSack (m.byte 13)), a.frees = 0 ∧ a.sends = 0 := by
    intro a ha
    rcases List.mem_append.mp ha with ha | ha
    · simp only [List.mem_cons, List.not_mem_nil, or_false] at ha
      rcases ha with rfl | rfl | rfl | rfl <;> exact ⟨rfl, rfl⟩
    · obtain ⟨i, -, rfl⟩ := List.mem_map.mp ha
      exact ⟨rfl, rfl⟩
  refine ⟨rfl, hn, hp, ?_, fun i => by rw [hw], fun x _ _ => by rw [hw], _,
    (Acct.refl u f _).idle ?_ (fun j hj => txWindow_setTxWindow_of_ne _ _ hj) (fun i => by rw [hw])
      hreads, fun a ha => ?_⟩
  · rw [hw]
    exact hu.congr rfl rfl rfl rfl rfl
  · exact List.append_assoc ..
  · rw [sendsOf_append, sendsOf_nil, zero_add, sendsOf_eq_zero fun a ha => (hreads a ha).2] at ha
    exact absurd ha (Multiset.notMem_zero _)

end UserInfo

/-- **Which SACKs end.** In every state a session reaches, `MPD_parserSACK` ends on a SACK unless
the SACK continues another one, its acknowledgement is 0, slot 0 of the ring lies outside the
window, and its blocks lead the cursor nowhere. -/
theorem sackEnds_run {u₀ u : UserInfo} {ops : List Op} {f ack fs : ℕ} (hu : Reaches u₀ ops f ack fs u)
    (hf : f < 3) (m : Msg) (ack' : ℕ) :
    (u.parserSACK f m ack').isSome ↔
      (m.byte 14 = 0 → ack' = 0 → (u.txWindow f).ZeroIdle →
        SackEnds (u.txWindow f).beginNode.ssn (u.txWindow f).nextNode.ssn m.sackBlocks) := by
  obtain ⟨b, n, h⟩ := hu.shapes f
  have hle := h.le
  have hsize := h.size
  rw [h.begin_ssn, h.next_ssn]
  by_cases hfirst : m.byte 14 = 0
  swap
  · obtain ⟨v, hv, -⟩ := parserSACK_sweep_oldest h.toSpans hf hfirst ack'
    rw [hv]
    exact iff_of_true rfl fun h0 => absurd h0 hfirst
  obtain ⟨p, hnp, hpn, hcell⟩ :=
    SerialRing.exists_position (Nat.mod_lt ack' (show 0 < 1024 by decide)) (n + 1)
  have hearly : ((u.txWindow f).dataNode (ack' % 1024)).ssn ≠ ack' →
      (u.parserSACK f m ack').isSome := by
    intro hne
    rw [parserSACK, if_neg (by omega)]
    dsimp only
    split
    · rfl
    · rw [if_pos ⟨hfirst, hne⟩]
      rfl
  rcases turn_ssn h (x := p) (by omega) (by omega) with ⟨hidle, hzero, -⟩ | ⟨y, rfl, hby, hyn, hy⟩
  · -- the cursor starts on an idle node
    rw [hcell] at hzero
    by_cases hack : ack' = 0
    swap
    · exact iff_of_true (hearly (by rw [hzero]; exact fun h => hack h.symm))
        fun _ h0 => absurd h0 hack
    subst hack
    have hp0 : p % 1024 = 0 := hcell
    have hzeroIdle : (u.txWindow f).ZeroIdle := by
      have hdist := @SerialRing.dist_of_le 1024 b p (by omega) hidle
      rw [hp0] at hdist
      rw [ZeroIdle, h.toSpans.span_eq, h.begin_eq, hdist]
      omega
    by_cases hblocks : m.byte 12 ≠ 1 ∨ 11 < numSack (m.byte 13) ∨ numSack (m.byte 13) = 0
    · refine iff_of_true ?_ fun _ _ _ => ?_
      · rw [parserSACK, if_neg (by omega)]
        dsimp only
        rw [if_pos hblocks]
        rfl
      · rw [Msg.sackBlocks, if_pos hblocks]
        exact trivial
    have hwalk := sackEntry_walk h (p := p) hnp (by omega) m
    rw [parserSACK_eq hf hblocks (fun hne => hne.2 hzero), if_pos hfirst, Option.isSome_map,
      show 0 % 1024 = p % 1024 from hp0.symm, hwalk.sackBlocks_isSome_iff h hidle hp0 sackBlocks_lt]
    exact ⟨fun hends _ _ _ => hends, fun hends => hends hfirst rfl hzeroIdle⟩
  · -- it starts in the window, or finds that its node is another's
    rw [hcell] at hy
    have hin : ∀ hack : ack' = 0, ¬ (u.txWindow f).ZeroIdle := by
      rintro rfl hidle
      have hy0 : y % 1024 = 0 := by omega
      have hdist := @SerialRing.dist_of_le 1024 b y hby (by omega)
      rw [hy0] at hdist
      rw [ZeroIdle, h.toSpans.span_eq, h.begin_eq, hdist] at hidle
      omega
    refine iff_of_true ?_ fun _ hack hidle => absurd hidle (hin hack)
    by_cases hack : ack' = y % 65536
    · obtain ⟨v, hv, -⟩ := @parserSACK_sweep _ _ _ _ m ack' _ h.toSpans hf hby hyn
        (by rw [if_pos hfirst, hack])
      rw [hv]
      rfl
    · exact hearly (by rw [hy]; exact fun h => hack h.symm)

/-- Five packets are sent and acknowledged on subflow `f`, five more are outstanding. -/
def fiveOfTen (f : Fin 3) : List Op := List.replicate 10 (.send (some f) ⟨1, List.replicate 12 0⟩ 12)

/-- A SACK that continues another one, with the acknowledgement 0 and one block from SSN 7. -/
def continues (left : ℕ) : Msg :=
  ⟨3, List.replicate 12 0 ++ [1, 8, 0, 0, 0, UInt8.ofNat left, 0, UInt8.ofNat left]⟩

theorem fiveOfTen_reaches : ∃ u, Reaches {} (fiveOfTen 0) 0 5 1 u ∧ (u.txWindow 0).ZeroIdle ∧
    (u.txWindow 0).beginNode.ssn = 5 ∧ (u.txWindow 0).nextNode.ssn = 10 := by
  have heval : ((Machine.run Op.step (fiveOfTen 0) {}).bind fun s => s.processACK 0 5 1).map
      (fun u => (decide (u.txWindow 0).ZeroIdle, (u.txWindow 0).beginNode.ssn,
        (u.txWindow 0).nextNode.ssn)) = some (true, 5, 10) := by decide +kernel
  obtain ⟨u, hu, hproj⟩ := Option.map_eq_some_iff.mp heval
  obtain ⟨s, hs, hack⟩ := Option.bind_eq_some_iff.mp hu
  simp only [Prod.mk.injEq, decide_eq_true_eq] at hproj
  exact ⟨u, ⟨fun _ => rfl, ⟨s, hs, hack⟩, by decide⟩, hproj⟩

/-- The left edge is in the window, and the SACK ends. -/
theorem sackEnds_run_found : ∃ u, Reaches {} (fiveOfTen 0) 0 5 1 u ∧
    (u.parserSACK 0 (continues 7) 0).isSome := by
  obtain ⟨u, hu, -, hbegin, hnext⟩ := fiveOfTen_reaches
  refine ⟨u, hu, (sackEnds_run hu (by decide) (continues 7) 0).mpr fun _ _ _ => ?_⟩
  rw [hbegin, hnext]
  decide +kernel

/-- The left edge is behind the window, and the cursor goes round for ever. -/
theorem sackEnds_never : ∃ u, Reaches {} (fiveOfTen 0) 0 5 1 u ∧
    u.parserSACK 0 (continues 1) 0 = none := by
  obtain ⟨u, hu, hidle, hbegin, hnext⟩ := fiveOfTen_reaches
  refine ⟨u, hu, Option.not_isSome_iff_eq_none.mp fun hends => ?_⟩
  have hlost := (sackEnds_run hu (by decide) (continues 1) 0).mp hends (by decide) rfl hidle
  rw [hbegin, hnext] at hlost
  exact absurd hlost (by decide +kernel)

end Mpd

end AndroidVendor
