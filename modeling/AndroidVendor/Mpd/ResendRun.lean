import AndroidVendor.Mpd.Delivery
import AndroidVendor.Mpd.ResendTurn

/-!
# How often a packet is sent again

An observer of the session keeps the history of every packet of the tx windows: when it was sent
again, and how often by the timer. The code keeps of it the deadline in the node and the counter of
the window, and these are enough for the limits.

## Main results

* `Op.Limited` — the limits on one step
* `resend_run` — every step of every run keeps them, if deadlines are 32-bit numbers
* `resend_wraps` — and only then
-/

namespace AndroidVendor

namespace Mpd

open Machine TxWin UserInfo

/-! ### The history of a packet -/

/-- When a packet was sent again, and how often by the timer. -/
structure History where
  times : List ℕ := []
  tail : ℕ := 0

/-- What `op` asked for on the way from `u` to `v`. -/
def UserInfo.asked (u v : UserInfo) : List Action := v.out.drop u.out.length

/-- How often the packet in node `i` of `f` is sent again on the way from `u` to `v`. -/
def UserInfo.resends (u v : UserInfo) (f i : ℕ) : ℕ :=
  ((u.txWindow f).dataNode i).handed f (u.asked v)

/-- The observer: the history of a packet starts when its buffer comes into the window. -/
def Op.note (op : Op) (u v : UserInfo) (H : ℕ → ℕ → History) : ℕ → ℕ → History := fun f i =>
  if ((v.txWindow f).dataNode i).pData = ((u.txWindow f).dataNode i).pData then
    { times := if u.resends v f i = 0 then (H f i).times else u.time :: (H f i).times
      tail := (H f i).tail + op.tail (u.resends v f i) }
  else {}

/-- The packet is one between `pTxBegin` and `pTxNext` that still has its data. -/
def UserInfo.Outstanding (u : UserInfo) (f : ℕ) (m : Msg) : Prop :=
  ∃ k < (u.txWindow f).span, ((u.txWindow f).nodeAt k).pData = some m

/-- The limits on what a step sends again, for packets with the histories `H`. -/
structure Op.Limited (H : ℕ → ℕ → History) (op : Op) (u v : UserInfo) : Prop where
  /-- A SACK sends a packet again once, and not within the gap since the last time. -/
  gap : ∀ m, op = .recv m → ∀ f i, u.resends v f i ≠ 0 →
    u.resends v f i = 1 ∧ ∀ t ∈ (H f i).times, t + retransGap f ≤ u.time
  /-- The timer sends a packet again three times at most. -/
  tail : op = .txWinRetransCheck → ∀ f i, (H f i).tail + u.resends v f i ≤ 3
  /-- Only outstanding packets are sent again, and not after their data was given back. -/
  outstanding : (∀ f d l, op ≠ .send f d l) → Mpd.Ordered (u.asked v) ∧
    ∀ a ∈ u.asked v, ∀ dev m, a.hands dev m = true → ∃ f, dev = getDeviceId f ∧ u.Outstanding f m

/-- What the code keeps of the histories. -/
structure Tracked (u : UserInfo) (H : ℕ → ℕ → History) : Prop where
  past : ∀ f i, ∀ t ∈ (H f i).times, t ≤ u.time
  marked : ∀ f i, ((u.txWindow f).dataNode i).pData ≠ none → ∀ t ∈ (H f i).times,
    ((u.txWindow f).dataNode i).transState = .sacked ∧
      t + retransGap f ≤ ((u.txWindow f).dataNode i).toRetrans
  tail_le : ∀ f i, (H f i).tail ≤ 3
  last : ∀ f i, (u.txWindow f).pTxLast = some i →
    (H f i).tail ≤ (u.txWindow f).timeOutRetCnt - 1

section Tracked

variable {u v : UserInfo} {H : ℕ → ℕ → History} {op : Op} {as : List Action} {f i : ℕ}

theorem asked_eq (h : v.out = u.out ++ as) : u.asked v = as := by
  rw [UserInfo.asked, h, List.drop_left]

/-- What the timer adds to a history, the counter of the window allows for. -/
theorem Tracked.tail_add (h : Tracked u H) (ht : Turn op u as v) (f i : ℕ) :
    (H f i).tail + op.tail (((u.txWindow f).dataNode i).handed f as) ≤ 3 := by
  have hle := h.tail_le f i
  have hnode := ht.nodes f i
  have honce := hnode.once
  rcases Nat.eq_zero_or_pos (op.tail (((u.txWindow f).dataNode i).handed f as)) with hzero | hpos
  · omega
  cases op with
  | txWinRetransCheck =>
    change 0 < ((u.txWindow f).dataNode i).handed f as at hpos
    change (H f i).tail + ((u.txWindow f).dataNode i).handed f as ≤ 3
    obtain ⟨-, hlast, -, hlt⟩ := hnode.allowed (by omega)
    have htail := h.last f i hlast
    omega
  | _ => exact absurd hpos (Nat.lt_irrefl 0)

theorem Tracked.step (h : Tracked u H) (hop : op.InTime u) (ht : Turn op u as v) :
    Tracked v (op.note u v H) := by
  have hcount : ∀ f i, u.resends v f i = ((u.txWindow f).dataNode i).handed f as := by
    intro f i
    rw [UserInfo.resends, asked_eq ht.out]
  have htime := ht.time
  constructor
  · intro f i t hmem
    rw [Op.note] at hmem
    split at hmem
    · dsimp only at hmem
      split at hmem
      · exact (h.past f i t hmem).trans htime
      · rcases List.mem_cons.mp hmem with rfl | hmem
        · exact htime
        · exact (h.past f i t hmem).trans htime
    · exact absurd hmem List.not_mem_nil
  · intro f i hsome t hmem
    have hnode := ht.nodes f i
    rw [Op.note] at hmem
    split at hmem
    · next hdata =>
      dsimp only at hmem
      have hsome' : ((u.txWindow f).dataNode i).pData ≠ none := hdata ▸ hsome
      split at hmem
      · next hzero =>
        obtain ⟨hstate, hretrans⟩ := hnode.calm hdata hsome' (hcount f i ▸ hzero)
        rw [hstate, hretrans]
        exact h.marked f i hsome' t hmem
      · next hne =>
        rw [hcount] at hne
        obtain ⟨hstate, hretrans⟩ := hnode.marked hdata hne
        have hgap := hop.gap (hnode.allowed hne)
        refine ⟨hstate, ?_⟩
        rw [hretrans, u32, Nat.mod_eq_of_lt hgap]
        rcases List.mem_cons.mp hmem with rfl | hmem
        · exact le_rfl
        · exact Nat.add_le_add_right (h.past f i t hmem) _
    · exact absurd hmem List.not_mem_nil
  · intro f i
    rw [Op.note]
    split
    · rw [hcount]
      exact h.tail_add ht f i
    · exact Nat.zero_le 3
  · intro f i hlast
    rw [Op.note]
    split
    · next hdata =>
      rw [hcount]
      rcases ht.last f i hlast with hne | ⟨hlast', hcnt⟩
      · exact absurd hdata hne
      have htail := h.last f i hlast'
      change (H f i).tail + op.tail (((u.txWindow f).dataNode i).handed f as) ≤ _
      rcases Nat.eq_zero_or_pos (op.tail (((u.txWindow f).dataNode i).handed f as)) with hzero | hpos
      · omega
      cases op with
      | txWinRetransCheck =>
        change 0 < ((u.txWindow f).dataNode i).handed f as at hpos
        obtain ⟨-, -, hstarted, -⟩ := (ht.nodes f i).allowed (by omega)
        omega
      | _ => exact absurd hpos (Nat.lt_irrefl 0)
    · exact Nat.zero_le _

theorem Tracked.limited (h : Tracked u H) (htx : TxOk u) (hu : u.Tagged) (ht : Turn op u as v)
    (horder : (∀ f d l, op ≠ .send f d l) → Orderly u as) : op.Limited H u v := by
  have hcount : ∀ f i, u.resends v f i = ((u.txWindow f).dataNode i).handed f as := by
    intro f i
    rw [UserInfo.resends, asked_eq ht.out]
  constructor
  · rintro m rfl f i hne
    have hnode := ht.nodes f i
    have honce := hnode.once
    rw [hcount] at hne ⊢
    refine ⟨by omega, fun t hmem => ?_⟩
    obtain ⟨-, -, -, hdue⟩ := hnode.allowed hne
    obtain ⟨hstate, hretrans⟩ := h.marked f i (DataNode.data_of_handed hne) t hmem
    rcases hdue with hwait | ⟨-, hle⟩
    · rw [hstate] at hwait
      cases hwait
    · exact hretrans.trans hle
  · rintro rfl f i
    rw [hcount]
    exact h.tail_add ht f i
  · intro hne
    obtain ⟨hheld, hordered⟩ := horder hne
    rw [asked_eq ht.out]
    refine ⟨hordered, fun a ha dev m hhands => ?_⟩
    obtain ⟨f, i, hdev, hm⟩ := hheld a ha dev m hhands
    obtain ⟨b, n, hs⟩ := htx f
    obtain ⟨x, hbx, hxn, rfl, -⟩ := hu.position hs hm
    refine ⟨f, hdev, x - b, ?_, ?_⟩
    · rw [hs.span_eq]
      omega
    · rw [hs.nodeAt, Nat.add_sub_cancel' hbx]
      exact hm

end Tracked

/-- The session and its observer. -/
def watched : Op → UserInfo × (ℕ → ℕ → History) → Option (UserInfo × (ℕ → ℕ → History)) :=
  observe Op.step Op.note

/-- **How often a packet is sent again.** In every run whose deadlines are 32-bit numbers, every
step keeps the limits: a SACK sends a packet again no sooner than 10 ticks (6 on the other subflows)
after it was sent again the last time, the timer does so three times at most, and both leave alone
what was acknowledged or given back. -/
theorem resend_run {u₀ u v : UserInfo} {H : ℕ → ℕ → History} {ops : List Op} {op : Op}
    (h₀ : ∀ f, u₀.txWindow f = {})
    (hrun : Guarded watched (fun _ s op => op.InTime s.1) (u₀, fun _ _ => {}) ops (u, H))
    (hop : op.InTime u) (hs : op.step u = some v) : op.Limited H u v := by
  have hinv : (TxOk u ∧ u.Tagged) ∧ Tracked u H := by
    refine Guarded.inv (I := fun _ s => (TxOk s.1 ∧ s.1.Tagged) ∧ Tracked s.1 s.2) ?_ ?_ hrun
    · rintro ops op s t ⟨htx, htrack⟩ hop hstep
      obtain ⟨hstep, hnote⟩ := observe_eq_some.mp hstep
      obtain ⟨as, hturn, -⟩ := step_turn htx.1 htx.2 hop hstep
      rw [hnote]
      exact ⟨tagged_kept.step htx hstep, htrack.step hop hturn⟩
    · refine ⟨⟨fun f => ?_, fun f i m hm => ?_⟩, ?_⟩
      · rw [h₀ f]
        exact ⟨0, 0, spans_clear⟩
      · rw [h₀ f] at hm
        cases hm
      · constructor
        · intro f i t hmem
          exact absurd hmem List.not_mem_nil
        · intro f i _ t hmem
          exact absurd hmem List.not_mem_nil
        · intro f i
          exact Nat.zero_le 3
        · intro f i _
          exact Nat.zero_le _
  obtain ⟨as, hturn, horder⟩ := step_turn hinv.1.1 hinv.1.2 hop hs
  exact hinv.2.limited hinv.1.1 hinv.1.2 hturn horder

/-- An acknowledgement of SSN 0, with a SACK of one block from 1 to 1. -/
def firstMissing : Msg :=
  ⟨3, [0x55, 80, 0, 0, 0, 0, 0, 0, 0, 0, 0, 0, 1, 8, 1, 0, 0, 1, 0, 1]⟩

/-- Ten ticks after it was sent again, the first of two packets may be sent again once more. -/
theorem resend_run_ten : ∃ u v H,
    Guarded watched (fun _ s op => op.InTime s.1) (UserInfo.ready, fun _ _ => {})
      (twoPackets 0 ++ [.recv firstMissing] ++ List.replicate 10 .tick) (u, H) ∧
    (Op.recv firstMissing).step u = some v ∧ (Op.recv firstMissing).Limited H u v ∧
      (H 0 0).times = [0] ∧ u.resends v 0 0 = 1 := by
  have heval : ((run watched (twoPackets 0 ++ [.recv firstMissing] ++ List.replicate 10 .tick)
      (UserInfo.ready, fun _ _ => {})).bind fun s => ((Op.recv firstMissing).step s.1).map fun v =>
        ((s.2 0 0).times, s.1.resends v 0 0, s.1.time)) = some ([0], 1, 10) := by decide +kernel
  have hmeets : Meets watched (fun _ s op => op.InTime s.1) []
      (twoPackets 0 ++ [.recv firstMissing] ++ List.replicate 10 .tick)
      (UserInfo.ready, fun _ _ => {}) := by decide +kernel
  obtain ⟨⟨u, H⟩, hu, heval⟩ := Option.bind_eq_some_iff.mp heval
  obtain ⟨v, hv, hproj⟩ := Option.map_eq_some_iff.mp heval
  simp only [Prod.mk.injEq] at hproj
  obtain ⟨htimes, hagain, htime⟩ := hproj
  have hrun := hmeets.guarded hu
  have hop : (Op.recv firstMissing).InTime u := by
    intro _ _
    rw [htime]
    decide
  exact ⟨u, v, H, hrun, hv, resend_run (fun _ => rfl) hrun hop hv, htimes, hagain⟩

/-- Five ticks before the clock starts anew the deadline is one of the past: a second SACK of the
same tick sends the packet again, though no tick of the run lets the clock start anew. -/
theorem resend_wraps : ∃ u v H,
    Guarded watched (fun _ s op => op = .tick → s.1.time + 1 < 4294967296)
      ({ UserInfo.ready with time := 4294967291 }, fun _ _ => {})
      (twoPackets 0 ++ [.recv firstMissing]) (u, H) ∧
    (Op.recv firstMissing).step u = some v ∧ ¬ (Op.recv firstMissing).Limited H u v := by
  have heval : ((run watched (twoPackets 0 ++ [.recv firstMissing])
      ({ UserInfo.ready with time := 4294967291 }, fun _ _ => {})).bind fun s =>
        ((Op.recv firstMissing).step s.1).map fun v =>
          ((s.2 0 0).times, s.1.resends v 0 0, s.1.time)) =
      some ([4294967291], 1, 4294967291) := by decide +kernel
  have hmeets : Meets watched (fun _ s op => op = .tick → s.1.time + 1 < 4294967296) []
      (twoPackets 0 ++ [.recv firstMissing])
      ({ UserInfo.ready with time := 4294967291 }, fun _ _ => {}) := by decide +kernel
  obtain ⟨⟨u, H⟩, hu, heval⟩ := Option.bind_eq_some_iff.mp heval
  obtain ⟨v, hv, hproj⟩ := Option.map_eq_some_iff.mp heval
  simp only [Prod.mk.injEq] at hproj
  obtain ⟨htimes, hagain, htime⟩ := hproj
  refine ⟨u, v, H, hmeets.guarded hu, hv, fun hlimited => ?_⟩
  obtain ⟨-, hgap⟩ := hlimited.gap firstMissing rfl 0 0 (by rw [hagain]; decide)
  have hle := hgap 4294967291 (by rw [htimes]; exact List.mem_singleton_self _)
  rw [htime] at hle
  exact absurd hle (by decide)

end Mpd

end AndroidVendor
