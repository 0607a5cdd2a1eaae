import Mathlib.Algebra.Order.BigOperators.Group.Finset
import AndroidVendor.Audio.InRead

/-!
# What the audio input stream makes of a message

The two lengths that a message announces are not held against anything, and of each the last byte is
added without a mask, so with its sign where `char` has one. A call is proper exactly where the
message nevertheless fits `recv_buf`, is received as a whole, and has the samples that it announces.

## Main results

* `Reception.loop_of_completes`, `Reception.loop_of_breaks`, `Reception.loop_ends`: the receive
  loop.
* `inRead_proper_iff`: when a call is proper.
-/

namespace AndroidVendor.Audio

/-! ### What a call should leave -/

/-- Of the first `recvLen` bytes, those of the message that the stream begins with. -/
def Peer.own (p : Peer) (recvLen : ℕ) : List UInt8 :=
  p.unread.take (min recvLen (lengthField p.unread + 4))

/-- At most `bytes` are copied and returned, and what is copied was received for this message. -/
structure Proper (bytes : ℕ) (p : Peer) (r : Returned) : Prop where
  ret_nonneg : 0 ≤ r.ret
  ret_le : r.ret ≤ bytes
  copied_le : r.copied ≤ bytes
  received : r.copied = 0 ∨ speakDataSize - 2 + r.copied ≤ (p.own r.recvLen).length
  buffer_eq : r.buffer =
    ((p.own r.recvLen).drop (speakDataSize - 2)).take r.copied ++ .replicate (bytes - r.copied) 0

/-! ### What the two ends have to offer -/

/-- How many bytes the first `recv` returns; `none` for −1. -/
def Peer.first (p : Peer) : Option ℕ :=
  (p.answers 0).map fun n => min (min n socketBuffer) p.unread.length

/-- How many bytes the answers let through, `n` in the first `recv` and the rest in `k` others. -/
def Peer.allowed (p : Peer) (n k : ℕ) : ℕ :=
  n + ∑ i ∈ Finset.range k, (p.answers (i + 1)).getD 0

/-- `k` calls after the first one do not fail. -/
def Peer.Answers (p : Peer) (k : ℕ) : Prop := ∀ i < k, (p.answers (i + 1)).isSome

/-- After `n` bytes, `recv` fails before there are `total`, and with no more than `recv_buf`
holds. -/
def Peer.Breaks (p : Peer) (n total : ℕ) : Prop :=
  ∃ k, p.Answers k ∧ p.answers (k + 1) = none ∧
    min (p.allowed n k) p.unread.length < total ∧
    min (p.allowed n k) p.unread.length ≤ socketBuffer

/-- After `n` bytes, all `total` arrive, and `recv_buf` holds them. -/
def Peer.Completes (p : Peer) (n total : ℕ) : Prop :=
  total ≤ n ∨
    total ≤ socketBuffer ∧ total ≤ p.unread.length ∧ ∃ k, p.Answers k ∧ total ≤ p.allowed n k

/-- Where the first `received` bytes are samples, those that are copied are among these bytes and
belong to the message. -/
def Peer.HasSamples (abi : Abi) (p : Peer) (bytes received : ℕ) : Prop :=
  marked (p.unread.take received) 8 0x04 0x51 →
    min (abi.dataLen (p.unread.take received)) bytes = 0 ∨
      speakDataSize - 2 + min (abi.dataLen (p.unread.take received)) bytes ≤ (p.own received).length

/-- A call that begins with the head of a message is cut short by a failing `recv`, or finds all of
the message and in it the samples that are copied. -/
def Peer.Fits (abi : Abi) (p : Peer) (bytes : ℕ) : Prop :=
  ∀ n, p.first = some n → 6 ≤ n → marked p.unread 0 0x7e 0xa5 →
    ¬ abi.Overflows p.unread ∧
      (p.Breaks n (abi.total p.unread) ∨
        p.Completes n (abi.total p.unread) ∧ p.HasSamples abi bytes (max n (abi.total p.unread)))

/-! ### The buffer -/

variable {abi : Abi} {p : Peer} {n k L total fuel bytes : ℕ} {r r' : Reception}

/-- `recv_buf` after `L` bytes. -/
def Peer.filled (p : Peer) (L : ℕ) : List UInt8 :=
  p.unread.take L ++ .replicate (socketBuffer - L) 0

theorem Peer.length_filled (hL : L ≤ p.unread.length) (hle : L ≤ socketBuffer) :
    (p.filled L).length = socketBuffer := by
  simp [Peer.filled, Nat.min_eq_left hL, hle]

/-- The bytes beyond the first `L` read as in a buffer of which nothing else was received. -/
theorem Peer.getD_filled (L i : ℕ) : (p.filled L).getD i 0 = (p.unread.take L).getD i 0 := by
  simp only [Peer.filled, List.getD_eq_getElem?_getD]
  by_cases hi : i < (p.unread.take L).length
  · rw [List.getElem?_append_left hi]
  · rw [List.getElem?_append_right (Nat.le_of_not_lt hi), List.getElem?_replicate,
      List.getElem?_eq_none (Nat.le_of_not_lt hi)]
    split <;> rfl

theorem field_congr {buf buf' : List UInt8} (k : ℕ)
    (h : ∀ i < 4, buf.getD (k + i) 0 = buf'.getD (k + i) 0) : abi.field buf k = abi.field buf' k := by
  simp only [Abi.field, h 0 (by decide), h 1 (by decide), h 2 (by decide), h 3 (by decide)]

theorem marked_congr {buf buf' : List UInt8} {k : ℕ} (a b : UInt8)
    (h : ∀ i < 2, buf.getD (k + i) 0 = buf'.getD (k + i) 0) :
    marked buf k a b = marked buf' k a b := by
  have h0 := h 0 (by decide)
  rw [Nat.add_zero] at h0
  simp only [marked, h0, h 1 (by decide)]

theorem Peer.getD_take {i : ℕ} (hi : i < L) : (p.unread.take L).getD i 0 = p.unread.getD i 0 := by
  simp [List.getD_eq_getElem?_getD, hi]

/-- Writing the next bytes of the stream behind the first `L`. -/
theorem Peer.write_filled (m : ℕ) (hL : L ≤ p.unread.length) :
    (p.filled L).take L ++ (p.unread.drop L).take m ++
      (p.filled L).drop (L + ((p.unread.drop L).take m).length) =
    p.filled (L + ((p.unread.drop L).take m).length) := by
  have hlen : (p.unread.take L).length = L := by simp [hL]
  have htake : (p.filled L).take L = p.unread.take L := List.take_left' hlen
  have hdrop (d : ℕ) : (p.filled L).drop (L + d) = .replicate (socketBuffer - (L + d)) 0 := by
    rw [Peer.filled, ← List.drop_drop, List.drop_left' hlen, List.drop_replicate, Nat.sub_sub]
  have hdata : (p.unread.drop L).take m =
      (p.unread.drop L).take ((p.unread.drop L).take m).length := by
    rw [List.length_take, ← List.take_take, List.take_length]
  rw [htake, hdrop, Peer.filled]
  congr 1
  rw [List.take_add]
  exact congrArg _ hdata

/-! ### The receive loop -/

/-- `L` bytes were received, in `k` calls after the first. -/
structure Reception.At (p : Peer) (k L : ℕ) (r : Reception) : Prop where
  status : r.status = .receiving
  recvLen : r.recvLen = L
  recvBuf : r.recvBuf = p.filled L
  unread : r.peer.unread = p.unread.drop L
  answers : ∀ i, r.peer.answers i = p.answers (k + i)
  le : L ≤ socketBuffer
  le_length : L ≤ p.unread.length

theorem Reception.At.of_cleared (p : Peer) : (Reception.cleared p).At p 0 0 where
  status := rfl
  recvLen := rfl
  recvBuf := by simp [Reception.cleared, Peer.filled]
  unread := rfl
  answers i := by rw [Nat.zero_add]; rfl
  le := Nat.zero_le _
  le_length := Nat.zero_le _

theorem Reception.At.recv_none (h : r.At p k L) (hk : p.answers k = none) (len : ℕ) :
    (r.recv len).status = .failed ∧ (r.recv len).recvLen = L := by
  have hans : r.peer.answers 0 = none := (h.answers 0).trans hk
  simp only [Reception.recv, Peer.recv, hans, Option.map_none]
  exact ⟨trivial, h.recvLen⟩

/-- The number of bytes after one more `recv` of `len` bytes that is answered with `a`. -/
def Peer.upTo (p : Peer) (L a len : ℕ) : ℕ := min (L + min a len) p.unread.length

theorem Reception.At.recv_some (h : r.At p k L) {a : ℕ} (hk : p.answers k = some a) (len : ℕ) :
    if p.upTo L a len ≤ socketBuffer then (r.recv len).At p (k + 1) (p.upTo L a len)
    else (r.recv len).status = .outOfRange := by
  have hans : r.peer.answers 0 = some a := (h.answers 0).trans hk
  have hle := h.le_length
  have hlen : L + ((p.unread.drop L).take (min a len)).length = p.upTo L a len := by
    rw [List.length_take, List.length_drop, Peer.upTo]
    omega
  have hcap : r.recvBuf.length = socketBuffer := by
    rw [h.recvBuf, Peer.length_filled h.le_length h.le]
  simp only [Reception.recv, Peer.recv, hans, Option.map_some, Option.getD_some, h.unread,
    h.recvLen, hcap, hlen]
  split
  · next hfits =>
    refine ⟨h.status, rfl, ?_, ?_, ?_, hfits, Nat.min_le_right _ _⟩
    · rw [h.recvBuf, ← hlen]
      exact Peer.write_filled _ h.le_length
    · rw [List.drop_drop]
      by_cases hend : L + min a len ≤ p.unread.length
      · rw [Peer.upTo, Nat.min_eq_left hend]
      · rw [Peer.upTo, Nat.min_eq_right (Nat.le_of_not_le hend), List.drop_length,
          List.drop_eq_nil_of_le (Nat.le_of_not_le hend)]
    · intro i
      rw [h.answers, Nat.add_assoc, Nat.add_comm 1 i]
  · rfl

/-- The number of bytes after `k` more calls, of `total` at most. -/
def Peer.got (p : Peer) (n total k : ℕ) : ℕ := min (min (p.allowed n k) total) p.unread.length

theorem Peer.allowed_succ {a : ℕ} (hk : p.answers (k + 1) = some a) :
    p.allowed n (k + 1) = p.allowed n k + a := by
  rw [Peer.allowed, Peer.allowed, Finset.sum_range_succ, hk, Option.getD_some, Nat.add_assoc]

theorem Peer.got_mono {j : ℕ} (h : j ≤ k) : p.got n total j ≤ p.got n total k := by
  have hsum : p.allowed n j ≤ p.allowed n k :=
    Nat.add_le_add_left (Finset.sum_le_sum_of_subset (Finset.range_subset_range.mpr h)) n
  simp only [Peer.got]
  omega

theorem Peer.upTo_got {a : ℕ} (hk : p.answers (k + 1) = some a) (hlt : p.got n total k < total) :
    p.upTo (p.got n total k) a (total - p.got n total k) = p.got n total (k + 1) := by
  simp only [Peer.upTo, Peer.got, Peer.allowed_succ hk] at hlt ⊢
  omega

theorem Reception.loop_succ (h : r.Lacks total) (fuel : ℕ) :
    r.loop total (fuel + 1) = (r.recv (total - r.recvLen)).loop total fuel := by
  simp [Reception.loop, Loop.whileLoop, h]

theorem Reception.loop_of_not (h : ¬ r.Lacks total) (fuel : ℕ) : r.loop total fuel = some r :=
  Loop.whileLoop_of_not h fuel

/-- One round of the loop that leaves the buffer intact. -/
theorem Reception.At.round (h : r.At p (k + 1) (p.got n total k)) (hlt : p.got n total k < total)
    (hk : (p.answers (k + 1)).isSome) (hle : p.got n total (k + 1) ≤ socketBuffer) :
    ∃ r' : Reception, r'.At p (k + 1 + 1) (p.got n total (k + 1)) ∧
      ∀ fuel, r.loop total (fuel + 1) = r'.loop total fuel := by
  obtain ⟨a, ha⟩ := Option.isSome_iff_exists.mp hk
  have hrecv := h.recv_some ha (total - p.got n total k)
  rw [Peer.upTo_got ha hlt, if_pos hle] at hrecv
  refine ⟨_, hrecv, fun fuel => ?_⟩
  rw [Reception.loop_succ ⟨h.status, h.recvLen ▸ hlt⟩, h.recvLen]

theorem Reception.At.loop_done (h : r.At p k L) (hle : total ≤ L) (fuel : ℕ) :
    r.loop total fuel = some r :=
  Reception.loop_of_not (fun hlacks => absurd (h.recvLen ▸ hlacks.2) (Nat.not_lt.mpr hle)) fuel

theorem Reception.At.begins (h : r.At p 1 n) (hn : n < total) :
    r.At p (0 + 1) (p.got n total 0) := by
  have hzero : p.got n total 0 = n := by
    have := h.le_length
    simp only [Peer.got, Peer.allowed, Finset.range_zero, Finset.sum_empty]
    omega
  rw [hzero]
  exact h

/-- All of the message arrives. -/
theorem Reception.loop_of_completes (h : r.At p 1 n) (hc : p.Completes n total) :
    ∃ fuel k r', r.loop total fuel = some r' ∧ r'.At p k (max n total) := by
  by_cases hn : total ≤ n
  · exact ⟨0, 1, r, h.loop_done hn 0, (Nat.max_eq_left hn).symm ▸ h⟩
  obtain ⟨hfits, hlen, k, hans, hall⟩ := hc.resolve_left hn
  have hend : p.got n total k = total := by
    simp only [Peer.got]
    omega
  have hgot (j : ℕ) : p.got n total j ≤ total := by
    simp only [Peer.got]
    omega
  have hrun : ∀ d j, j + d = k → ∀ r : Reception, r.At p (j + 1) (p.got n total j) →
      ∃ fuel k' r', r.loop total fuel = some r' ∧ r'.At p k' total := by
    intro d
    induction d with
    | zero =>
      rintro j rfl r hr
      rw [Nat.add_zero] at hend
      exact ⟨0, j + 1, r, hr.loop_done hend.ge 0, hend ▸ hr⟩
    | succ d ih =>
      intro j hj r hr
      rcases (hgot j).eq_or_lt with heq | hlt
      · exact ⟨0, j + 1, r, hr.loop_done heq.ge 0, heq ▸ hr⟩
      · obtain ⟨r', hr', hloop⟩ :=
          hr.round hlt (hans j (by omega)) (Nat.le_trans (hgot (j + 1)) hfits)
        obtain ⟨fuel, k', t, ht, hat⟩ := ih (j + 1) (by omega) r' hr'
        exact ⟨fuel + 1, k', t, (hloop fuel).trans ht, hat⟩
  rw [Nat.max_eq_right (Nat.le_of_not_le hn)]
  exact hrun k 0 (Nat.zero_add k) r (h.begins (Nat.lt_of_not_le hn))

/-- A `recv` fails half-way. -/
theorem Reception.loop_of_breaks (h : r.At p 1 n) (hb : p.Breaks n total) :
    ∃ fuel r', r.loop total fuel = some r' ∧ r'.status = .failed := by
  obtain ⟨k, hans, hnone, hlt, hfits⟩ := hb
  have hend : p.got n total k < total ∧ p.got n total k ≤ socketBuffer := by
    simp only [Peer.got]
    omega
  have hn : n < total := by
    have := h.le_length
    have : n ≤ p.allowed n k := Nat.le_add_right _ _
    omega
  have hrun : ∀ d j, j + d = k → ∀ r : Reception, r.At p (j + 1) (p.got n total j) →
      ∃ fuel r', r.loop total fuel = some r' ∧ r'.status = .failed := by
    intro d
    induction d with
    | zero =>
      rintro j rfl r hr
      rw [Nat.add_zero] at hnone hend
      have hfailed := (hr.recv_none hnone (total - r.recvLen)).1
      have hlacks : r.Lacks total := ⟨hr.status, hr.recvLen ▸ hend.1⟩
      refine ⟨1, r.recv (total - r.recvLen), ?_, hfailed⟩
      rw [Reception.loop_succ hlacks]
      exact Reception.loop_of_not (fun hover => absurd (hfailed.symm.trans hover.1) (by decide)) 0
    | succ d ih =>
      intro j hj r hr
      have hlt : p.got n total j < total :=
        Nat.lt_of_le_of_lt (Peer.got_mono (by omega)) hend.1
      have hle : p.got n total (j + 1) ≤ socketBuffer :=
        Nat.le_trans (Peer.got_mono (by omega)) hend.2
      obtain ⟨r', hr', hloop⟩ := hr.round hlt (hans j (by omega)) hle
      obtain ⟨fuel, t, ht, hstatus⟩ := ih (j + 1) (by omega) r' hr'
      exact ⟨fuel + 1, t, (hloop fuel).trans ht, hstatus⟩
  exact hrun k 0 (Nat.zero_add k) r (h.begins hn)

/-- What the loop can end with: the message, a failure, or an access behind the buffer. -/
theorem Reception.loop_ends (h : r.At p 1 n) (hloop : r.loop total fuel = some r') :
    r'.status = .outOfRange ∨ r'.status = .failed ∧ p.Breaks n total ∨
      ∃ k, r'.At p k (max n total) ∧ p.Completes n total := by
  by_cases hn : total ≤ n
  · rw [h.loop_done hn fuel, Option.some.injEq] at hloop
    exact .inr (.inr ⟨1, (Nat.max_eq_left hn).symm ▸ hloop ▸ h, .inl hn⟩)
  have hinv := Loop.whileLoop_inv
    (fun r : Reception => r.status = .outOfRange ∨ r.status = .failed ∧ p.Breaks n total ∨
      ∃ j, p.Answers j ∧ r.At p (j + 1) (p.got n total j))
    ?_ (.inr (.inr ⟨0, fun _ hi => absurd hi (Nat.not_lt_zero _), h.begins (Nat.lt_of_not_le hn)⟩))
    hloop
  · obtain ⟨hI, hover⟩ := hinv
    rcases hI with hout | hfail | ⟨j, hans, hat⟩
    · exact .inl hout
    · exact .inr (.inl hfail)
    · have hge : total ≤ p.got n total j := by
        by_contra hlt
        exact hover ⟨hat.status, hat.recvLen ▸ Nat.lt_of_not_le hlt⟩
      have hle := hat.le
      have hend : p.got n total j = total ∧ total ≤ p.unread.length ∧ total ≤ p.allowed n j := by
        simp only [Peer.got] at hge ⊢
        omega
      refine .inr (.inr ⟨j + 1, ?_, .inr ⟨hend.1 ▸ hle, hend.2.1, j, hans, hend.2.2⟩⟩)
      rw [Nat.max_eq_right (Nat.le_of_not_le hn), ← hend.1]
      exact hat
  · rintro s s' hs ⟨hstatus, hlt⟩ hbody
    obtain rfl := Option.some.inj hbody
    rcases hs with hout | hfail | ⟨j, hans, hat⟩
    · exact absurd (hstatus.symm.trans hout) (by decide)
    · exact absurd (hstatus.symm.trans hfail.1) (by decide)
    · rw [hat.recvLen] at hlt ⊢
      cases hj : p.answers (j + 1) with
      | none =>
        refine .inr (.inl ⟨(hat.recv_none hj _).1, j, hans, hj, ?_, ?_⟩)
        · simp only [Peer.got] at hlt
          omega
        · have := hat.le
          simp only [Peer.got] at this hlt
          omega
      | some a =>
        have hrecv := hat.recv_some hj (total - p.got n total j)
        rw [Peer.upTo_got hj hlt] at hrecv
        split at hrecv
        · refine .inr (.inr ⟨j + 1, fun i hi => ?_, hrecv⟩)
          rcases Nat.lt_succ_iff_lt_or_eq.mp hi with hi | rfl
          · exact hans i hi
          · rw [hj]; rfl
        · exact .inl hrecv

/-! ### The lengths -/

/-- What a client reads is an `int`. -/
theorem inBufferSize_lt (channelMask sampleRate : UInt32) :
    inBufferSize channelMask sampleRate < 2 ^ 31 := by
  have h (a : UInt32) : (a / 1000).toNat < 2 ^ 31 := by
    have := a.toNat_lt
    rw [UInt32.toNat_div]
    exact Nat.lt_of_le_of_lt (Nat.div_le_div_right this.le) (by decide)
  rw [inBufferSize]
  split <;> exact h _

/-! ### Copying -/

theorem ssize_of_lt (abi : Abi) (h : bytes < 2 ^ 31) : abi.ssize bytes = bytes := by
  have hbits : ∀ w, 32 ≤ w → (BitVec.ofNat w bytes).toInt = bytes := by
    intro w hw
    have hpow : 2 ^ 32 ≤ 2 ^ w := Nat.pow_le_pow_right (by decide) hw
    have hnat : (BitVec.ofNat w bytes).toNat = bytes := by
      rw [BitVec.toNat_ofNat, Nat.mod_eq_of_lt (by omega)]
    rw [BitVec.toInt_eq_toNat_of_lt (by omega), hnat]
  rw [Abi.ssize]
  split
  · exact hbits 64 (by decide)
  · exact hbits 32 le_rfl

/-- Nothing was copied. -/
theorem proper_of_copied_eq_zero {r : Returned} (hret : 0 ≤ r.ret ∧ r.ret ≤ bytes)
    (hcopied : r.copied = 0) (hbuffer : r.buffer = .replicate bytes 0) : Proper bytes p r where
  ret_nonneg := hret.1
  ret_le := hret.2
  copied_le := hcopied ▸ Nat.zero_le _
  received := .inl hcopied
  buffer_eq := by simp [hcopied, hbuffer]

theorem nothing_proper (p : Peer) (bytes recvLen : ℕ) (opens : Bool) :
    ∃ r, nothing bytes recvLen opens = .returned r ∧ Proper bytes p r :=
  ⟨_, rfl, proper_of_copied_eq_zero ⟨le_rfl, Int.natCast_nonneg _⟩ rfl rfl⟩

theorem Peer.marked_filled (k L : ℕ) (a b : UInt8) :
    marked (p.filled L) k a b = marked (p.unread.take L) k a b :=
  marked_congr a b fun _ _ => Peer.getD_filled _ _

theorem Peer.dataLen_filled (L : ℕ) :
    abi.dataLen (p.filled L) = abi.dataLen (p.unread.take L) := by
  rw [Abi.dataLen, Abi.dataLen, field_congr 14 fun _ _ => Peer.getD_filled _ _]

/-- The copied bytes, where all of them were received for the message. -/
theorem Peer.take_filled {m : ℕ} (hm : speakDataSize - 2 + m ≤ (p.own L).length) :
    ((p.filled L).drop (speakDataSize - 2)).take m =
      ((p.own L).drop (speakDataSize - 2)).take m := by
  rw [Peer.own, List.length_take] at hm
  have hown : ((p.own L).drop (speakDataSize - 2)).take m =
      (p.unread.drop (speakDataSize - 2)).take m := by
    rw [Peer.own, List.drop_take, List.take_take]
    congr 1
    omega
  have hlen : m ≤ ((p.unread.take L).drop (speakDataSize - 2)).length := by
    rw [List.length_drop, List.length_take]
    omega
  have hhead : speakDataSize - 2 ≤ (p.unread.take L).length := by
    rw [List.length_take]
    omega
  rw [hown, Peer.filled, List.drop_append_of_le_length hhead, List.take_append_of_le_length hlen,
    List.drop_take, List.take_take]
  congr 1
  omega

/-- The copy is proper where the bytes were received for the message. -/
theorem Reception.At.copy_proper_iff (h : r.At p k L) {m : ℕ} (hm : m ≤ bytes)
    (hbytes : bytes < 2 ^ 31) :
    (∃ r', r.copy abi bytes m m = .returned r' ∧ Proper bytes p r') ↔
      m = 0 ∨ speakDataSize - 2 + m ≤ (p.own L).length := by
  have hown : (p.own L).length ≤ socketBuffer :=
    Nat.le_trans (List.length_take_le _ _) (Nat.le_trans (Nat.min_le_left _ _) h.le)
  have hcap : r.recvBuf.length = socketBuffer := by
    rw [h.recvBuf, Peer.length_filled h.le_length h.le]
  constructor
  · rintro ⟨r', hcopy, hproper⟩
    rw [Reception.copy] at hcopy
    split at hcopy
    · obtain rfl := Outcome.returned.inj hcopy
      exact h.recvLen ▸ hproper.received
    · cases hcopy
  · intro hm'
    have hfits : speakDataSize - 2 + m ≤ r.recvBuf.length := by
      rw [hcap]
      rcases hm' with rfl | hle
      · decide
      · exact Nat.le_trans hle hown
    rw [Reception.copy, if_pos hfits]
    refine ⟨_, rfl, ?_, ?_, hm, h.recvLen.symm ▸ hm', ?_⟩
    · rw [ssize_of_lt abi (by omega)]
      exact Int.natCast_nonneg m
    · rw [ssize_of_lt abi (by omega)]
      exact Int.ofNat_le.mpr hm
    · dsimp only
      rw [h.recvLen, h.recvBuf, List.drop_replicate]
      rcases hm' with rfl | hle
      · rw [List.take_zero, List.take_zero]
      · rw [Peer.take_filled hle]

/-- What is done with a message is proper where it has the samples that it announces. -/
theorem Reception.At.handle_proper_iff (h : r.At p k L) (hbytes : bytes < 2 ^ 31) :
    (∃ r', r.handle abi bytes = .returned r' ∧ Proper bytes p r') ↔ p.HasSamples abi bytes L := by
  rw [Reception.handle, Peer.HasSamples, h.recvBuf, Peer.marked_filled, Peer.marked_filled,
    Peer.dataLen_filled]
  by_cases hspeak : marked (p.unread.take L) 8 0x04 0x51
  · rw [if_pos hspeak, forall_prop_of_true hspeak,
      ← h.copy_proper_iff (Nat.min_le_right _ bytes) hbytes]
    rcases Nat.lt_trichotomy (abi.dataLen (p.unread.take L)) bytes with hlt | heq | hgt
    · rw [if_neg hlt.ne, if_neg (Nat.not_lt.mpr hlt.le), Nat.min_eq_left hlt.le]
    · rw [if_pos heq, Nat.min_eq_right heq.ge]
    · rw [if_neg hgt.ne', if_pos hgt, Nat.min_eq_right hgt.le]
  · rw [if_neg hspeak]
    refine iff_of_true ?_ fun hspeak' => absurd hspeak' hspeak
    split <;> exact nothing_proper p bytes r.recvLen _

/-! ### The call -/

/-- The first `recv`. -/
theorem Peer.first_recv (p : Peer) {n : ℕ} (hfirst : p.first = some n) :
    ((Reception.cleared p).recv socketBuffer).At p 1 n := by
  obtain ⟨a, ha, rfl⟩ := Option.map_eq_some_iff.mp hfirst
  have hrecv := (Reception.At.of_cleared p).recv_some ha socketBuffer
  have hupTo : p.upTo 0 a socketBuffer = min (min a socketBuffer) p.unread.length := by
    rw [Peer.upTo, Nat.zero_add]
  rw [hupTo, if_pos (by omega)] at hrecv
  exact hrecv

/-- A failed or short first `recv` ends the call. -/
theorem inRead_of_first (fuel bytes : ℕ) (hfirst : ∀ n, p.first = some n → n < 6) :
    ∃ n, inRead abi fuel true bytes p = some (nothing bytes n false) := by
  refine ⟨_, (if_pos rfl).trans (if_pos ?_)⟩
  cases hn : p.first with
  | none =>
    have hans : p.answers 0 = none := Option.map_eq_none_iff.mp hn
    have hstatus := ((Reception.At.of_cleared p).recv_none hans socketBuffer).1
    exact .inl fun h => absurd (h.symm.trans hstatus) (by decide)
  | some n => exact .inr ((p.first_recv hn).recvLen ▸ hfirst n hn)

/-- Otherwise the call goes by the head of the stream. -/
theorem inRead_of_six_le (fuel bytes : ℕ) (hfirst : p.first = some n) (hsix : 6 ≤ n) :
    inRead abi fuel true bytes p =
      if marked p.unread 0 0x7e 0xa5 then
        if abi.Overflows p.unread then some .outOfRange
        else (((Reception.cleared p).recv socketBuffer).loop (abi.total p.unread) fuel).map
          fun r => r.finish abi bytes
      else some (nothing bytes n false) := by
  have hat := p.first_recv hfirst
  have hhead (i : ℕ) (hi : i < 6) :
      ((Reception.cleared p).recv socketBuffer).recvBuf.getD i 0 = p.unread.getD i 0 := by
    rw [hat.recvBuf, Peer.getD_filled, Peer.getD_take (Nat.lt_of_lt_of_le hi hsix)]
  have hmark : marked ((Reception.cleared p).recv socketBuffer).recvBuf 0 0x7e 0xa5 =
      marked p.unread 0 0x7e 0xa5 :=
    marked_congr _ _ fun i hi => hhead (0 + i) (by omega)
  have hall : abi.allLen ((Reception.cleared p).recv socketBuffer).recvBuf =
      abi.allLen p.unread := by
    rw [Abi.allLen, Abi.allLen, field_congr 2 fun i hi => hhead (2 + i) (by omega)]
  have hover : abi.Overflows ((Reception.cleared p).recv socketBuffer).recvBuf ↔
      abi.Overflows p.unread := by
    rw [Abi.Overflows, Abi.Overflows, hall]
  have htotal : abi.total ((Reception.cleared p).recv socketBuffer).recvBuf =
      abi.total p.unread := by
    rw [Abi.total, Abi.total, hall]
  have hgo : ¬ (((Reception.cleared p).recv socketBuffer).status ≠ .receiving ∨
      ((Reception.cleared p).recv socketBuffer).recvLen < 6) := by
    rw [hat.recvLen]
    exact not_or.mpr ⟨fun h => h hat.status, Nat.not_lt.mpr hsix⟩
  rw [inRead, if_pos rfl]
  dsimp only
  rw [if_neg hgo, hmark, htotal, hat.recvLen]
  simp only [hover]

theorem fits_of_proper {r : Returned} (hbytes : bytes < 2 ^ 31)
    (hr : inRead abi fuel true bytes p = some (.returned r)) (hproper : Proper bytes p r) :
    p.Fits abi bytes := by
  intro n hfirst hsix hmarked
  rw [inRead_of_six_le fuel bytes hfirst hsix, if_pos hmarked] at hr
  split at hr
  · cases hr
  next hover =>
  refine ⟨hover, ?_⟩
  obtain ⟨t, hloop, hfinish⟩ := Option.map_eq_some_iff.mp hr
  rcases Reception.loop_ends (p.first_recv hfirst) hloop with hout | ⟨hfail, hb⟩ | ⟨k, ht, hc⟩
  · rw [Reception.finish, hout] at hfinish
    cases hfinish
  · exact .inl hb
  · rw [Reception.finish, ht.status] at hfinish
    exact .inr ⟨hc, (ht.handle_proper_iff hbytes).mp ⟨r, hfinish, hproper⟩⟩

theorem exists_proper_of_fits (hbytes : bytes < 2 ^ 31) (hfits : p.Fits abi bytes) :
    ∃ fuel r, inRead abi fuel true bytes p = some (.returned r) ∧ Proper bytes p r := by
  have hnothing (h : ∃ n, inRead abi 0 true bytes p = some (nothing bytes n false)) :
      ∃ fuel r, inRead abi fuel true bytes p = some (.returned r) ∧ Proper bytes p r := by
    obtain ⟨n, hn⟩ := h
    obtain ⟨r, hr, hproper⟩ := nothing_proper p bytes n false
    exact ⟨0, r, hn.trans (congrArg some hr), hproper⟩
  by_cases hfirst : ∃ n, p.first = some n ∧ 6 ≤ n
  swap
  · push Not at hfirst
    exact hnothing (inRead_of_first 0 bytes hfirst)
  obtain ⟨n, hfirst, hsix⟩ := hfirst
  have hread (fuel : ℕ) : inRead abi fuel true bytes p = _ :=
    inRead_of_six_le fuel bytes hfirst hsix
  by_cases hmarked : marked p.unread 0 0x7e 0xa5
  swap
  · exact hnothing ⟨n, (hread 0).trans (if_neg hmarked)⟩
  obtain ⟨hover, hb | ⟨hc, hsamples⟩⟩ := hfits n hfirst hsix hmarked
  · obtain ⟨fuel, t, hloop, hfail⟩ := Reception.loop_of_breaks (p.first_recv hfirst) hb
    obtain ⟨r, hr, hproper⟩ := nothing_proper p bytes t.recvLen false
    refine ⟨fuel, r, ?_, hproper⟩
    rw [hread, if_pos hmarked, if_neg hover, hloop, Option.map_some, Reception.finish, hfail]
    exact congrArg some hr
  · obtain ⟨fuel, k, t, hloop, ht⟩ := Reception.loop_of_completes (p.first_recv hfirst) hc
    obtain ⟨r, hr, hproper⟩ := (ht.handle_proper_iff hbytes).mpr hsamples
    refine ⟨fuel, r, ?_, hproper⟩
    rw [hread, if_pos hmarked, if_neg hover, hloop, Option.map_some, Reception.finish, ht.status]
    exact congrArg some hr

/-- **A call of `in_read` is proper** (it returns, within the bounds of `recv_buf`, a number of at
most `bytes` bytes that were received for the message) if and only if what it finds on the socket
fits. -/
theorem inRead_proper_iff (abi : Abi) (hbytes : bytes < 2 ^ 31) (isConnectCc : Bool) (p : Peer) :
    (∃ fuel r, inRead abi fuel isConnectCc bytes p = some (.returned r) ∧ Proper bytes p r) ↔
      (isConnectCc → p.Fits abi bytes) := by
  cases isConnectCc with
  | false =>
    refine iff_of_true ⟨0, _, rfl, proper_of_copied_eq_zero ?_ rfl rfl⟩
      fun h => absurd h Bool.false_ne_true
    rw [ssize_of_lt abi hbytes]
    exact ⟨Int.natCast_nonneg _, le_rfl⟩
  | true =>
    rw [forall_prop_of_true rfl]
    constructor
    · rintro ⟨fuel, r, hr, hproper⟩
      exact fits_of_proper hbytes hr hproper
    · exact exists_proper_of_fits hbytes

/-- The ABI of ARM, 64 bits wide. -/
def arm64 : Abi := ⟨false, true⟩

/-- A message of 24 bytes, four of them samples, that announces `dataLen` samples. -/
def speech (dataLen : UInt8) : List UInt8 :=
  [0x7e, 0xa5, 0, 0, 0, 0x14, 0, 2, 4, 0x51, 0, 0, 0, 0, 0, 0, 0, dataLen, 1, 2, 3, 4, 0x7e, 0x0d]

/-- A message with four samples, read at 8000 Hz. -/
theorem inRead_proper_four : ∃ fuel r,
    inRead arm64 fuel true (inBufferSize 16 8000) ⟨speech 4, fun _ => some 100⟩ =
        some (.returned r) ∧
      Proper (inBufferSize 16 8000) ⟨speech 4, fun _ => some 100⟩ r := by
  refine (inRead_proper_iff arm64 (inBufferSize_lt 16 8000) true _).mpr fun _ n hn _ _ => ?_
  obtain rfl := Option.some.inj hn
  exact ⟨by decide, .inr ⟨.inl (by decide), fun _ => .inr (by decide)⟩⟩

/-- Where 64 samples are announced and 4 are there, 64 bytes are copied, on every target. -/
theorem not_proper_speech : WellFormed (speech 64) ∧
    ∀ abi : Abi, ¬ ∃ fuel r,
      inRead abi fuel true (inBufferSize 16 8000) ⟨speech 64, fun _ => some 100⟩ =
          some (.returned r) ∧
        Proper (inBufferSize 16 8000) ⟨speech 64, fun _ => some 100⟩ r := by
  refine ⟨by decide +kernel, ?_⟩
  rintro ⟨charSigned, lp64⟩ ⟨fuel, r, hr, hproper⟩
  have hfits := fits_of_proper (inBufferSize_lt 16 8000) hr hproper
  have hfirst : (Peer.mk (speech 64) fun _ => some 100).first = some 24 := by decide +kernel
  rcases (hfits 24 hfirst (by decide) (by decide +kernel)).2 with ⟨k, -, hnone, -⟩ | ⟨-, hsamples⟩
  · cases hnone
  · have htotal : Abi.total ⟨charSigned, lp64⟩ (speech 64) = 24 := by
      cases charSigned <;> cases lp64 <;> decide +kernel
    have hdata : Abi.dataLen ⟨charSigned, lp64⟩ ((speech 64).take 24) = 64 := by
      cases charSigned <;> cases lp64 <;> decide +kernel
    rw [htotal] at hsamples
    have hcovered := hsamples (by decide +kernel)
    rw [Nat.max_self, hdata] at hcovered
    revert hcovered
    decide +kernel

end AndroidVendor.Audio
