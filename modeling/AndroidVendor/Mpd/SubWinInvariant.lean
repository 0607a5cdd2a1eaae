import AndroidVendor.Mpd.SubWin

/-!
# The representation invariant of the rx sub window

The window is read against the unbounded stream of SSNs of its subflow: `Spans w b n` says that the
nodes from `RxBegin` to `RxNext` stand for the positions `b, …, n`. Every operation is described by
where it takes `b` and `n` and by what it does to the nodes in between, and everything else about
the window follows from these descriptions.

## Main results

* `addNode_spec`, `followDataWin_spec` — what an arrival and a data window driven move do
-/

namespace AndroidVendor

namespace Mpd

open Loop

variable {x y : ℕ}

theorem distanceSN_of_le (h : x ≤ y) (hy : y < x + 65536) :
    distanceSN (x % 65536) (y % 65536) = y - x :=
  SerialRing.dist_of_le h hy

theorem distanceSN_of_lt (h : y < x) (hx : x < y + 65536) :
    distanceSN (x % 65536) (y % 65536) = 65536 - (x - y) :=
  SerialRing.dist_of_lt h hx

theorem subWinPlus_mod (x : ℕ) : subWinPlus (x % 1024) = (x + 1) % 1024 := SerialRing.succ_mod x

theorem ssnPlus_mod (x : ℕ) : ssnPlus (x % 65536) = (x + 1) % 65536 := SerialRing.succ_mod x

namespace RxSubWin

variable {w w' : RxSubWin} {b n : ℕ}

/-- The nodes from `RxBegin` to `RxNext` stand for the positions `b, …, n` of the subflow. -/
structure Spans (w : RxSubWin) (b n : ℕ) : Prop where
  begin_eq : w.rxBegin = b % 1024
  next_eq : w.rxNext = n % 1024
  le : b ≤ n
  size : n < b + 1024
  /-- Consecutive SSNs, each at its index. -/
  num : ∀ x, b ≤ x → x ≤ n → (w.win (x % 1024)).ssn = x % 65536
  /-- A sub window node is never `ReceiveComplete`. -/
  plain : ∀ x, b ≤ x → x ≤ n → (w.win (x % 1024)).status ≠ .receiveComplete

/-- Position `x` is marked received. -/
def Marked (w : RxSubWin) (x : ℕ) : Prop := (w.win (x % 1024)).status = .received

/-- A window at rest: nothing received at `RxNext`, nor at `RxBegin`. -/
structure Rests (w : RxSubWin) (b n : ℕ) : Prop extends Spans w b n where
  next_un : ¬ Marked w n
  begin_un : ¬ Marked w b

theorem Spans.begin_ssn (h : Spans w b n) : w.beginNode.ssn = b % 65536 := by
  rw [beginNode, h.begin_eq, h.num b le_rfl h.le]

theorem Spans.next_ssn (h : Spans w b n) : w.nextNode.ssn = n % 65536 := by
  rw [nextNode, h.next_eq, h.num n h.le le_rfl]

theorem Spans.shift (h : Spans w b n) (k : ℕ) : Spans w (b + 65536 * k) (n + 65536 * k) where
  begin_eq := by rw [h.begin_eq]; omega
  next_eq := by rw [h.next_eq]; omega
  le := Nat.add_le_add_right h.le _
  size := by have := h.size; omega
  num x hb hn := by
    obtain ⟨y, rfl⟩ : ∃ y, x = y + 65536 * k := ⟨x - 65536 * k, by omega⟩
    rw [show (y + 65536 * k) % 1024 = y % 1024 by omega, h.num y (by omega) (by omega)]
    omega
  plain x hb hn := by
    obtain ⟨y, rfl⟩ : ∃ y, x = y + 65536 * k := ⟨x - 65536 * k, by omega⟩
    rw [show (y + 65536 * k) % 1024 = y % 1024 by omega]
    exact h.plain y (by omega) (by omega)

theorem marked_shift (x k : ℕ) : Marked w (x + 65536 * k) ↔ Marked w x := by
  rw [Marked, Marked, show (x + 65536 * k) % 1024 = x % 1024 by omega]

theorem Rests.shift (h : Rests w b n) (k : ℕ) : Rests w (b + 65536 * k) (n + 65536 * k) :=
  ⟨h.toSpans.shift k, by rw [marked_shift]; exact h.next_un, by rw [marked_shift]; exact h.begin_un⟩

/-! ### Moving `RxBegin` -/

/-- The loop of `MPD_SubWinRxBeginMove` skips marked nodes and stops at `RxNext` at the latest. -/
theorem skipReceived_spec {k : ℕ} (hb : w.rxBegin = b % 1024) (hn : w.rxNext = n % 1024)
    (hle : b ≤ n) (hsize : n < b + 1024) (hk : n - b ≤ k) :
    ∃ b', b ≤ b' ∧ b' ≤ n ∧ skipReceived k w = { w with rxBegin := b' % 1024 } ∧
      (∀ x, b ≤ x → x < b' → Marked w x) ∧ (b' = n ∨ ¬ Marked w b') := by
  induction k generalizing w b with
  | zero =>
    refine ⟨b, le_rfl, hle, ?_, fun x h1 h2 => absurd h2 (by omega), .inl (by omega)⟩
    rw [skipReceived, ← hb]
  | succ k ih =>
    by_cases hm : Marked w b
    · by_cases hbn : b = n
      · refine ⟨b, le_rfl, hle, ?_, fun x h1 h2 => absurd h2 (by omega), .inl hbn⟩
        rw [skipReceived, if_neg (by rw [hb, hn, hbn]; simp), ← hb]
      · have hgo : w.beginNode.status = .received ∧ w.rxBegin ≠ w.rxNext := by
          refine ⟨by rw [beginNode, hb]; exact hm, ?_⟩
          rw [hb, hn]
          exact SerialRing.cell_ne hbn (by omega) hsize
        obtain ⟨b', h1, h2, h3, h4, h5⟩ := ih (w := { w with rxBegin := subWinPlus w.rxBegin })
          (b := b + 1) (by rw [hb, subWinPlus_mod]) hn (by omega) (by omega) (by omega)
        refine ⟨b', by omega, h2, ?_, fun x hx hx' => ?_, h5⟩
        · rw [skipReceived, if_pos hgo, h3]
        · rcases Nat.lt_or_ge b x with hlt | hge
          · exact h4 x (by omega) hx'
          · obtain rfl : x = b := by omega
            exact hm
    · refine ⟨b, le_rfl, hle, ?_, fun x h1 h2 => absurd h2 (by omega), .inr hm⟩
      rw [skipReceived, if_neg (fun h => hm (by rw [Marked, ← hb]; exact h.1)), ← hb]

theorem Spans.drop (h : Spans w b n) {b' : ℕ} (hb : b ≤ b') (hn : b' ≤ n) :
    Spans { w with rxBegin := b' % 1024 } b' n where
  begin_eq := rfl
  next_eq := h.next_eq
  le := hn
  size := by have := h.size; omega
  num x h1 h2 := h.num x (hb.trans h1) h2
  plain x h1 h2 := h.plain x (hb.trans h1) h2

/-- `MPD_SubWinRxBeginMove` without force, in a window whose next node is not marked. -/
theorem rxBeginMove_spec (h : Spans w b n) (hn : ¬ Marked w n) :
    ∃ b', b ≤ b' ∧ b' ≤ n ∧ w.rxBeginMove false = { w with rxBegin := b' % 1024 } ∧
      Rests (w.rxBeginMove false) b' n ∧ ∀ x, b ≤ x → x < b' → Marked w x := by
  obtain ⟨b', h1, h2, h3, h4, h5⟩ :=
    skipReceived_spec (k := 1024) h.begin_eq h.next_eq h.le h.size (by have := h.size; omega)
  have heq : w.rxBeginMove false = { w with rxBegin := b' % 1024 } := by
    simpa [rxBeginMove] using h3
  refine ⟨b', h1, h2, heq, ?_, h4⟩
  rw [heq]
  exact ⟨h.drop h1 h2, hn, h5.elim (fun he => he ▸ hn) id⟩

/-! ### Moving `RxNext` -/

/-- How `w'` at `b', n'` came out of `w` at `b, n` without any node being marked: a node in the
window holds what it held, a new one is not marked, and one that fell out was marked or fell out
because the ring is too short for the window. -/
structure Slid (w : RxSubWin) (b n : ℕ) (w' : RxSubWin) (b' n' : ℕ) : Prop where
  begin_le : b ≤ b'
  next_le : n ≤ n'
  marked : ∀ x, b' ≤ x → x < n' → (Marked w' x ↔ x ≤ n ∧ Marked w x)
  dropped : ∀ x, b ≤ x → x < b' → (x ≤ n ∧ Marked w x) ∨ x + 1024 ≤ n'

theorem slid_refl (w : RxSubWin) (b n : ℕ) : Slid w b n w b n :=
  ⟨le_rfl, le_rfl, fun _ _ hx => ⟨fun hm => ⟨hx.le, hm⟩, And.right⟩,
    fun _ h1 h2 => absurd (h1.trans_lt h2) (by omega)⟩

/-- `MPD_SubWinRxNextMove`: the window grows by one node. A full one drops its oldest node and
whatever marked nodes follow it. -/
theorem rxNextMove_spec (h : Spans w b n) :
    ∃ b', Spans w.rxNextMove b' (n + 1) ∧ ¬ Marked w.rxNextMove (n + 1) ∧
      Slid w b n w.rxNextMove b' (n + 1) ∧
      w.rxNextMove.dataWinSSN = w.dataWinSSN := by
  have hsize := h.size
  have hle := h.le
  -- where `RxBegin` stands before the new node is written
  obtain ⟨b', hb1, hb2, hmove, hdrop, hsz⟩ : ∃ b', b ≤ b' ∧ b' ≤ n + 1 ∧
      (if ({ w with rxNext := subWinPlus w.rxNext } : RxSubWin).rxNext = w.rxBegin then
        ({ w with rxNext := subWinPlus w.rxNext } : RxSubWin).rxBeginMove true
        else { w with rxNext := subWinPlus w.rxNext }) =
        { w with rxBegin := b' % 1024, rxNext := (n + 1) % 1024 } ∧
      (∀ x, b ≤ x → x < b' → (x ≤ n ∧ Marked w x) ∨ x + 1024 ≤ n + 1) ∧
      n + 1 < b' + 1024 := by
    by_cases hfull : n + 1 = b + 1024
    · obtain ⟨b', h1, h2, h3, h4, -⟩ := skipReceived_spec (k := 1024) (b := b + 1) (n := n + 1)
        (w := { w with rxBegin := subWinPlus w.rxBegin, rxNext := subWinPlus w.rxNext })
        (by simp only [h.begin_eq, subWinPlus_mod]) (by simp only [h.next_eq, subWinPlus_mod])
        (by omega) (by omega) (by omega)
      refine ⟨b', by omega, h2, ?_, fun x hx hx' => ?_, by omega⟩
      · rw [if_pos (by rw [h.begin_eq, h.next_eq, subWinPlus_mod, hfull]; simp)]
        simp only [rxBeginMove, if_true, h3]
        rw [h.next_eq, subWinPlus_mod]
      · rcases Nat.lt_or_ge b x with hlt | hge
        · exact .inl ⟨by omega, h4 x (by omega) hx'⟩
        · exact .inr (by omega)
    · refine ⟨b, le_rfl, by omega, ?_, fun x hx hx' => absurd hx' (by omega), by omega⟩
      rw [if_neg, h.next_eq, subWinPlus_mod, ← h.begin_eq]
      rw [h.next_eq, subWinPlus_mod, h.begin_eq]
      exact SerialRing.cell_ne (by omega) (by omega) (by omega)
  have heq : w.rxNextMove = { w with
      rxBegin := b' % 1024, rxNext := (n + 1) % 1024,
      win := Function.update w.win ((n + 1) % 1024) ⟨.unReceived, (n + 1) % 65536⟩ } := by
    simp only [rxNextMove, setNode] at hmove ⊢
    rw [hmove, h.next_ssn, ssnPlus_mod]
  have hcell : ∀ x, b' ≤ x → x ≤ n → w.rxNextMove.win (x % 1024) = w.win (x % 1024) := by
    intro x h1 h2
    rw [heq]
    exact Function.update_of_ne (SerialRing.cell_ne (by omega) (by omega) (by omega)) _ _
  have hnew : w.rxNextMove.win ((n + 1) % 1024) = ⟨.unReceived, (n + 1) % 65536⟩ := by
    rw [heq]
    simp
  have hun : ¬ Marked w.rxNextMove (n + 1) := by
    rw [Marked, hnew]
    simp
  refine ⟨b', ⟨by rw [heq], by rw [heq], hb2, hsz, ?_, ?_⟩, hun, ⟨hb1, by omega, ?_, hdrop⟩,
    by rw [heq]⟩
  · intro x h1 h2
    rcases Nat.lt_or_ge n x with hlt | hge
    · obtain rfl : x = n + 1 := by omega
      rw [hnew]
    · rw [hcell x h1 hge]
      exact h.num x (by omega) hge
  · intro x h1 h2
    rcases Nat.lt_or_ge n x with hlt | hge
    · obtain rfl : x = n + 1 := by omega
      rw [hnew]
      simp
    · rw [hcell x h1 hge]
      exact h.plain x (by omega) hge
  · intro x h1 h2
    have hxn : x ≤ n := by omega
    rw [Marked, hcell x h1 hxn]
    exact ⟨fun hm => ⟨hxn, hm⟩, And.right⟩

theorem Slid.trans {w₁ w₂ : RxSubWin} {b₁ n₁ b₂ n₂ : ℕ} (h : Slid w b n w₁ b₁ n₁)
    (h' : Slid w₁ b₁ n₁ w₂ b₂ n₂) (hun : ¬ Marked w n) (hun₁ : ¬ Marked w₁ n₁) :
    Slid w b n w₂ b₂ n₂ where
  begin_le := h.begin_le.trans h'.begin_le
  next_le := h.next_le.trans h'.next_le
  marked x hb hn := by
    have hb₁ := h'.begin_le.trans hb
    rw [h'.marked x hb hn]
    constructor
    · rintro ⟨hle, hm⟩
      have hne : x ≠ n₁ := by
        rintro rfl
        exact hun₁ hm
      exact (h.marked x hb₁ (by omega)).mp hm
    · rintro ⟨hle, hm⟩
      have hne : x ≠ n := by
        rintro rfl
        exact hun hm
      have hlt : x < n₁ := by have := h.next_le; omega
      exact ⟨hlt.le, (h.marked x hb₁ hlt).mpr ⟨hle, hm⟩⟩
  dropped x hb hb' := by
    rcases Nat.lt_or_ge x b₁ with hlt | hge
    · have := h'.next_le
      exact (h.dropped x hb hlt).imp_right (by omega)
    · rcases h'.dropped x hge hb' with ⟨hle, hm⟩ | hover
      · have hne : x ≠ n₁ := by
          rintro rfl
          exact hun₁ hm
        exact .inl ((h.marked x hge (by omega)).mp hm)
      · exact .inr hover

/-- The loop of `MPD_SubWinAddNode` brings `RxNext` to the arriving position. -/
theorem extendTo_spec {k : ℕ} (h : Spans w b n) (hun : ¬ Marked w n) (hk : k < 65536) :
    ∃ b', Spans (extendTo ((n + k) % 65536) k w) b' (n + k) ∧
      ¬ Marked (extendTo ((n + k) % 65536) k w) (n + k) ∧
      Slid w b n (extendTo ((n + k) % 65536) k w) b' (n + k) ∧
      (extendTo ((n + k) % 65536) k w).dataWinSSN = w.dataWinSSN := by
  induction k generalizing w b n with
  | zero => exact ⟨b, h, hun, slid_refl w b n, rfl⟩
  | succ k ih =>
    have hgo : (n + (k + 1)) % 65536 ≠ w.nextNode.ssn := by
      rw [h.next_ssn]
      exact SerialRing.cell_ne (by omega) (by omega) (by omega)
    obtain ⟨b₁, hs, hun₁, hslid, hd⟩ := rxNextMove_spec h
    obtain ⟨b₂, hs₂, hun₂, hslid₂, hd₂⟩ := ih hs hun₁ (by omega)
    rw [extendTo, if_pos hgo]
    rw [show n + 1 + k = n + (k + 1) by omega] at hs₂ hun₂ hslid₂ hd₂
    exact ⟨b₂, hs₂, hun₂, hslid.trans hslid₂ hun hun₁, hd₂.trans hd⟩

/-! ### Writing one node -/

theorem setReceived_win (h : Spans w b n) (hx : b ≤ x) (hxn : x ≤ n) (hy : b ≤ y) (hyn : y ≤ n) :
    (w.setNode (x % 1024) ⟨.received, x % 65536⟩).win (y % 1024) =
      if y = x then ⟨.received, x % 65536⟩ else w.win (y % 1024) := by
  have hsize := h.size
  exact SerialRing.update_cell hx (by omega) hy (by omega)

theorem Spans.setReceived (h : Spans w b n) (hx : b ≤ x) (hxn : x ≤ n) :
    Spans (w.setNode (x % 1024) ⟨.received, x % 65536⟩) b n where
  begin_eq := h.begin_eq
  next_eq := h.next_eq
  le := h.le
  size := h.size
  num y hb hn := by
    rw [setReceived_win h hx hxn hb hn]
    split
    · next heq => rw [heq]
    · exact h.num y hb hn
  plain y hb hn := by
    rw [setReceived_win h hx hxn hb hn]
    split
    · simp
    · exact h.plain y hb hn

theorem marked_setReceived (h : Spans w b n) (hx : b ≤ x) (hxn : x ≤ n) (hy : b ≤ y)
    (hyn : y ≤ n) :
    Marked (w.setNode (x % 1024) ⟨.received, x % 65536⟩) y ↔ y = x ∨ Marked w y := by
  rw [Marked, setReceived_win h hx hxn hy hyn, Marked]
  split
  · next heq => simp [heq]
  · next hne => simp [hne]

/-! ### An arrival -/

/-- What the arrival of position `t` does to a window at `b, n`: it is marked, the window reaches
past it, and what leaves the window at the old end was marked or did not fit. -/
structure Arrived (w : RxSubWin) (b n t : ℕ) (w' : RxSubWin) (b' n' : ℕ) : Prop where
  begin_le : b ≤ b'
  next_eq : n' = if t ≤ b + 32768 then max n (t + 1) else n
  marked : ∀ x, b' ≤ x → x < n' →
    (Marked w' x ↔ (x < n ∧ Marked w x) ∨ (x = t ∧ t ≤ b + 32768))
  dropped : ∀ x, b ≤ x → x < b' →
    (x < n ∧ Marked w x) ∨ (x = t ∧ t ≤ b + 32768) ∨ (x + 1024 ≤ n' ∧ t ≤ b + 32768)

/-- `RxBegin` moves after the node was placed: the nodes it skips are marked. -/
theorem Arrived.skip {t b₁ n₁ b' : ℕ} (h : Arrived w b n t w' b₁ n₁) (hb : b₁ ≤ b')
    (hn : b' ≤ n₁) (hskip : ∀ x, b₁ ≤ x → x < b' → Marked w' x) :
    Arrived w b n t { w' with rxBegin := b' % 1024 } b' n₁ where
  begin_le := h.begin_le.trans hb
  next_eq := h.next_eq
  marked x hx hxn := h.marked x (hb.trans hx) hxn
  dropped x hx hx' := by
    rcases Nat.lt_or_ge x b₁ with hlt | hge
    · exact h.dropped x hx hlt
    · exact ((h.marked x hge (by omega)).mp (hskip x hge hx')).imp_right .inl

/-- `MPD_SubWinAddNode` has put position `t` into a window at `b, n`, or left it out. -/
def Placed (w : RxSubWin) (b n t : ℕ) (w' : RxSubWin) : Prop :=
  ∃ b' n', Spans w' b' n' ∧ ¬ Marked w' n' ∧ Arrived w b n t w' b' n' ∧
    w'.dataWinSSN = w.dataWinSSN

/-- `t` is behind the window if it is more than half a turn ahead of `RxBegin`. -/
theorem behind_iff {t : ℕ} (ht : b ≤ t) (ht' : t < b + 65536) :
    distanceSN (t % 65536) (b % 65536) < distanceSN (b % 65536) (t % 65536) ↔ ¬ t ≤ b + 32768 := by
  have hback : distanceSN (t % 65536) (b % 65536) = if t = b then 0 else 65536 - (t - b) := by
    split
    · next heq => rw [heq, distanceSN_of_le le_rfl (by omega), Nat.sub_self]
    · exact distanceSN_of_lt (by omega) (by omega)
  rw [hback, distanceSN_of_le ht ht']
  split <;> omega

/-- Behind the window nothing happens. -/
theorem place_behind {t : ℕ} (h : Spans w b n) (hun : ¬ Marked w n) (ht : b ≤ t)
    (ht' : t < b + 65536) (hleft : ¬ t ≤ b + 32768) : Placed w b n t (w.place (t % 65536)) := by
  have heq : w.place (t % 65536) = w := by
    rw [place, h.begin_ssn, if_pos ((behind_iff ht ht').mpr hleft)]
  rw [heq]
  refine ⟨b, n, h, hun, ⟨le_rfl, by rw [if_neg hleft], ?_, ?_⟩, rfl⟩
  · intro x hx hxn
    simp [hxn, hleft]
  · intro x hx hx'
    omega

/-- Inside the window one node is written. -/
theorem place_inside {t : ℕ} (h : Spans w b n) (hun : ¬ Marked w n) (ht : b ≤ t) (htn : t < n) :
    Placed w b n t (w.place (t % 65536)) := by
  have hsize := h.size
  have hle := h.le
  have hleft : t ≤ b + 32768 := by omega
  have hgo := fun hlt => (behind_iff ht (by omega)).mp hlt hleft
  have hin : ¬ distanceSN (n % 65536) (t % 65536) ≤ distanceSN (t % 65536) (n % 65536) := by
    rw [distanceSN_of_lt htn (by omega), distanceSN_of_le htn.le (by omega)]
    omega
  have heq : w.place (t % 65536) = w.setNode (t % 1024) ⟨.received, t % 65536⟩ := by
    rw [place, h.begin_ssn, h.next_ssn, if_neg hgo, if_neg hin,
      show t % 65536 % 1024 = t % 1024 by omega, h.num t ht htn.le]
  rw [heq]
  refine ⟨b, n, h.setReceived ht htn.le, ?_, ⟨le_rfl, ?_, ?_, ?_⟩, rfl⟩
  · rw [marked_setReceived h ht htn.le hle le_rfl]
    rintro (hnt | hm)
    · omega
    · exact hun hm
  · rw [if_pos hleft]
    omega
  · intro x hx hxn
    rw [marked_setReceived h ht htn.le hx hxn.le]
    tauto
  · intro x hx hx'
    omega

/-- At or beyond `RxNext` the window is extended, and the new node is written and pushed. -/
theorem place_beyond {k : ℕ} (h : Spans w b n) (hun : ¬ Marked w n) (hleft : n + k ≤ b + 32768) :
    Placed w b n (n + k) (w.place ((n + k) % 65536)) := by
  have hle := h.le
  have hgo := fun hlt => (behind_iff (show b ≤ n + k by omega) (by omega)).mp hlt hleft
  have hright : distanceSN (n % 65536) ((n + k) % 65536) ≤
      distanceSN ((n + k) % 65536) (n % 65536) := by
    rw [distanceSN_of_le (Nat.le_add_right n k) (by omega)]
    rcases Nat.eq_zero_or_pos k with rfl | hpos
    · omega
    · rw [distanceSN_of_lt (by omega) (by omega)]
      omega
  obtain ⟨b₁, hs₁, hun₁, hslid, hd⟩ := extendTo_spec (k := k) h hun (by omega)
  have heq : w.place ((n + k) % 65536) =
      ((extendTo ((n + k) % 65536) k w).setNode ((n + k) % 1024)
        ⟨.received, (n + k) % 65536⟩).rxNextMove := by
    rw [place, h.begin_ssn, h.next_ssn, if_neg hgo, if_pos hright,
      distanceSN_of_le (Nat.le_add_right n k) (by omega), Nat.add_sub_cancel_left]
    simp only [hs₁.next_ssn, hs₁.next_eq]
  obtain ⟨b', hs', hun', hslid', hd'⟩ := rxNextMove_spec (hs₁.setReceived hs₁.le le_rfl)
  have hiff := fun x hx hxn => marked_setReceived (y := x) hs₁ hs₁.le le_rfl hx hxn
  -- the marks once the arriving node, at the end of the extended window, is written
  have hbelow : ∀ x, x ≤ n → Marked w x → x < n := fun x hxn hm =>
    lt_of_le_of_ne hxn (fun hne => hun (hne ▸ hm))
  have hmarked : ∀ x, b₁ ≤ x → x ≤ n + k →
      ((x ≤ n + k ∧ (x = n + k ∨ Marked (extendTo ((n + k) % 65536) k w) x)) ↔
        (x < n ∧ Marked w x) ∨ (x = n + k ∧ n + k ≤ b + 32768)) := by
    intro x hx hxn
    rcases Nat.eq_or_lt_of_le hxn with rfl | hlt
    · simp [hleft]
    · rw [hslid.marked x hx hlt]
      constructor
      · rintro ⟨-, rfl | ⟨hxn', hm⟩⟩
        · omega
        · exact .inl ⟨hbelow x hxn' hm, hm⟩
      · rintro (⟨hxn', hm⟩ | ⟨rfl, -⟩)
        · exact ⟨hxn, .inr ⟨hxn'.le, hm⟩⟩
        · omega
  rw [heq]
  refine ⟨b', n + k + 1, hs', hun', ⟨hslid.begin_le.trans hslid'.begin_le, ?_, ?_, ?_⟩,
    hd'.trans hd⟩
  · rw [if_pos hleft]
    omega
  · intro x hx hxn
    have hx₁ := hslid'.begin_le.trans hx
    rw [hslid'.marked x hx hxn, hiff x hx₁ (by omega)]
    exact hmarked x hx₁ (by omega)
  · intro x hx hx'
    rcases Nat.lt_or_ge x b₁ with hlt | hge
    · rcases hslid.dropped x hx hlt with ⟨hxn, hm⟩ | hover
      · exact .inl ⟨hbelow x hxn hm, hm⟩
      · exact .inr (.inr ⟨by omega, hleft⟩)
    · rcases hslid'.dropped x hge hx' with ⟨hxn, hm⟩ | hover
      · exact ((hmarked x hge hxn).mp ⟨hxn, (hiff x hge hxn).mp hm⟩).imp_right .inl
      · exact .inr (.inr ⟨by omega, hleft⟩)

/-- The three branches of `MPD_SubWinAddNode`. Every SSN is the residue of one position `t` less
than a turn ahead of `RxBegin`; it lies behind the window if it is more than half a turn ahead. -/
theorem place_spec {t : ℕ} (h : Spans w b n) (hun : ¬ Marked w n) (ht : b ≤ t)
    (ht' : t < b + 65536) : Placed w b n t (w.place (t % 65536)) := by
  by_cases hleft : t ≤ b + 32768
  · rcases Nat.lt_or_ge t n with htn | htn
    · exact place_inside h hun ht htn
    · obtain ⟨k, rfl⟩ := Nat.exists_eq_add_of_le htn
      exact place_beyond h hun hleft
  · exact place_behind h hun ht ht' hleft

/-- A window that looks clear is empty, at a multiple of 65536. -/
theorem Spans.of_looksClear (h : Spans w b n) (hc : w.looksClear) : b = n ∧ b % 65536 = 0 := by
  obtain ⟨hb, hn, hs⟩ := hc
  have hsize := h.size
  have hle := h.le
  rw [h.begin_ssn] at hs
  rw [h.begin_eq] at hb
  rw [h.next_eq] at hn
  omega

/-- Re-anchoring is the same as having waited, empty, at the arriving position all along. -/
theorem anchor_rests (w : RxSubWin) (t : ℕ) : Rests (w.anchor (t % 65536)) t t where
  begin_eq := by simp only [anchor, setNode]; omega
  next_eq := by simp only [anchor, setNode]; omega
  le := le_rfl
  size := by omega
  num x hb hn := by
    obtain rfl : x = t := by omega
    simp [anchor, setNode]
  plain x hb hn := by
    obtain rfl : x = t := by omega
    simp [anchor, setNode]
  next_un := by simp [Marked, anchor, setNode]
  begin_un := by simp [Marked, anchor, setNode]

/-- `MPD_SubWinAddNode` on a window that is not taken for a cleared one. -/
theorem addNode_spec {t : ℕ} (h : Rests w b n) (hc : ¬ w.looksClear) (ht : b ≤ t)
    (ht' : t < b + 65536) :
    ∃ b' n', Rests (w.addNode (t % 65536)) b' n' ∧
      Arrived w b n t (w.addNode (t % 65536)) b' n' ∧
      (w.addNode (t % 65536)).dataWinSSN = w.dataWinSSN := by
  obtain ⟨b₁, n', hs, hun, harr, hd⟩ := place_spec h.toSpans h.next_un ht ht'
  obtain ⟨b', hb, hn, heq, hrest, hskip⟩ := rxBeginMove_spec hs hun
  rw [addNode, if_neg hc]
  exact ⟨b', n', hrest, by rw [heq]; exact harr.skip hb hn hskip, by rw [heq]; exact hd⟩

/-- `MPD_SubWinAddNode` on a window that is, or looks, cleared: whatever arrives is in order. -/
theorem addNode_of_looksClear (w : RxSubWin) (hc : w.looksClear) (t : ℕ) :
    Rests (w.addNode (t % 65536)) (t + 1) (t + 1) ∧
      (w.addNode (t % 65536)).dataWinSSN = w.dataWinSSN := by
  have ha := anchor_rests w t
  obtain ⟨b₁, n', hs, hun, harr, hd⟩ := place_spec ha.toSpans ha.next_un le_rfl (by omega)
  obtain ⟨b', hb, hn, heq, hrest, hskip⟩ := rxBeginMove_spec hs hun
  have harr' := harr.skip hb hn hskip
  rw [← heq] at harr'
  have hn' : n' = t + 1 := by
    rw [harr'.next_eq, if_pos (by omega)]
    omega
  subst hn'
  -- the arriving node is the only one, and it is received, so `RxBegin` passes it
  have hb' : b' = t + 1 := by
    by_contra hne
    have hbt : b' = t := by
      have := harr'.begin_le
      omega
    exact hrest.begin_un (by
      rw [hbt]
      exact (harr'.marked t (by omega) (by omega)).mpr (.inr ⟨rfl, by omega⟩))
  rw [addNode, if_pos hc]
  exact ⟨hb' ▸ hrest, by rw [heq]; exact hd⟩

/-! ### Following the data window -/

theorem chaseDataWin_spec {p k : ℕ} (h : Spans w b n) (hp : b ≤ p) (hpn : p ≤ n)
    (hd : w.dataWinSSN = p % 65536) (hk : p - b ≤ k) :
    chaseDataWin k w = some { w with rxBegin := p % 1024 } := by
  unfold chaseDataWin
  have hsize := h.size
  induction k generalizing w b with
  | zero =>
    obtain rfl : p = b := by omega
    rw [whileLoop_of_not (by simp [behindDataWin, h.begin_ssn, hd]), ← h.begin_eq]
  | succ k ih =>
    rcases Nat.eq_or_lt_of_le hp with rfl | hlt
    · rw [whileLoop_of_not (by simp [behindDataWin, h.begin_ssn, hd]), ← h.begin_eq]
    · have hgo : w.behindDataWin := by
        rw [behindDataWin, h.begin_ssn, hd, distanceSN_of_le hp (by omega)]
        exact ⟨SerialRing.cell_ne (by omega) (by omega) (by omega), by omega⟩
      have hdrop : Spans { w with rxBegin := (b + 1) % 1024 } (b + 1) n :=
        h.drop (by omega) (by omega)
      rw [← subWinPlus_mod, ← h.begin_eq] at hdrop
      rw [whileLoop, if_pos hgo, Option.bind_some]
      exact ih hdrop hlt hd (by omega) (by omega)

/-- The sub window part of `MPD_DataWinRxBeginMove` moves `RxBegin` up to `dataWinSSN`, if that
lies in the window, and then over what has been received. -/
theorem followDataWin_spec (h : Rests w b n) (hd : w.dataWinSSN < 65536) :
    ∃ b', b ≤ b' ∧ b' ≤ n ∧ w.followDataWin = some { w with rxBegin := b' % 1024 } ∧
      Rests { w with rxBegin := b' % 1024 } b' n ∧
      ∀ x, b ≤ x → x < b' →
        Marked w x ∨ ∃ p, p % 65536 = w.dataWinSSN ∧ b ≤ p ∧ p ≤ n ∧ x < p := by
  have hsize := h.size
  obtain ⟨p, hbp, hpb, hp⟩ := SerialRing.exists_position hd b
  by_cases hfar : distanceSN w.beginNode.ssn w.nextNode.ssn <
      distanceSN w.beginNode.ssn w.dataWinSSN
  · refine ⟨b, le_rfl, h.le, ?_, ?_, fun x h1 h2 => absurd h2 (by omega)⟩
    · rw [followDataWin, if_pos hfar, ← h.begin_eq]
    · rw [← h.begin_eq]
      exact h
  · have hpn : p ≤ n := by
      have hle := h.le
      rw [h.begin_ssn, h.next_ssn, ← hp, distanceSN_of_le hle (by omega),
        distanceSN_of_le hbp hpb] at hfar
      omega
    have hchase := chaseDataWin_spec (k := 1024) h.toSpans hbp hpn hp.symm (by omega)
    have hs := h.toSpans.drop hbp hpn
    obtain ⟨b', h1, h2, heq, hrest, hskip⟩ := rxBeginMove_spec hs h.next_un
    rw [heq] at hrest
    refine ⟨b', hbp.trans h1, h2, ?_, hrest, fun x hx hx' => ?_⟩
    · rw [followDataWin, if_neg hfar, hchase, Option.map_some, heq]
    · rcases Nat.lt_or_ge x p with hlt | hge
      · exact .inr ⟨p, hp, hbp, hpn, hlt⟩
      · exact .inl (hskip x hge hx')

end RxSubWin

end Mpd

end AndroidVendor
