import AndroidVendor.Webcam.FlySocket

/-!
# Delivery of the video frames

The loop keeps in step with the messages as long as the first `recv` of a message returns at least
its header and nothing of its end mark, and the end mark comes in one piece. `Kept` says where in
the stream the loop then stands.
-/

namespace AndroidVendor.Webcam

open Machine

variable {s s' : State} {m : VideoMessage} {ms done rest : List VideoMessage} {r : Reading}
  {t : List UInt8} {n : ℕ}

/-! ### Reading the header back -/

/-- All before the payload. -/
def VideoMessage.head (m : VideoMessage) : List UInt8 :=
  [0x7e, 0xa5] ++ be32 (m.payload.length + 26) ++ m.middle ++ be16 m.width ++ be16 m.height ++
    be64 m.time.toNat

theorem bytes_eq (m : VideoMessage) : m.bytes = m.head ++ m.payload ++ [0x7e, 0x0d] := rfl

theorem head_length (m : VideoMessage) : m.head.length = 28 := by
  simp [VideoMessage.head, be64, be32, be16, m.middle_length]

theorem bytes_length (m : VideoMessage) : m.bytes.length = m.payload.length + 30 := by
  rw [bytes_eq, List.length_append, List.length_append, head_length]
  show 28 + m.payload.length + 2 = m.payload.length + 30
  omega

/-- The ten bytes in the middle by name. -/
theorem exists_middle (m : VideoMessage) : ∃ b₀ b₁ b₂ b₃ b₄ b₅ b₆ b₇ b₈ b₉,
    m.middle = [b₀, b₁, b₂, b₃, b₄, b₅, b₆, b₇, b₈, b₉] := by
  match hm : m.middle, m.middle_length with
  | [b₀, b₁, b₂, b₃, b₄, b₅, b₆, b₇, b₈, b₉], _ =>
    exact ⟨b₀, b₁, b₂, b₃, b₄, b₅, b₆, b₇, b₈, b₉, rfl⟩

theorem head_marks (m : VideoMessage) (t : List UInt8) :
    (m.head ++ t).getD 0 0 = 0x7e ∧ (m.head ++ t).getD 1 0 = 0xa5 := ⟨rfl, rfl⟩

theorem dataSize_head (m : VideoMessage) (t : List UInt8) :
    dataSize (m.head ++ t) = m.payload.length + 26 := by
  have hlt := m.size_lt
  simp only [dataSize, byte, VideoMessage.head, be32, be16, List.cons_append, List.nil_append,
    List.append_assoc, List.getD_cons_succ, List.getD_cons_zero, UInt8.toNat_ofNat',
    Nat.shiftRight_eq_div_pow]
  omega

theorem width_head (m : VideoMessage) (t : List UInt8) : width (m.head ++ t) = m.width := by
  have hlt := m.width_lt
  obtain ⟨b₀, b₁, b₂, b₃, b₄, b₅, b₆, b₇, b₈, b₉, hm⟩ := exists_middle m
  simp only [width, byte, VideoMessage.head, hm, be32, be16, List.cons_append, List.nil_append,
    List.getD_cons_succ, List.getD_cons_zero, UInt8.toNat_ofNat',
    Nat.shiftRight_eq_div_pow]
  omega

theorem height_head (m : VideoMessage) (t : List UInt8) : height (m.head ++ t) = m.height := by
  have hlt := m.height_lt
  obtain ⟨b₀, b₁, b₂, b₃, b₄, b₅, b₆, b₇, b₈, b₉, hm⟩ := exists_middle m
  simp only [height, byte, VideoMessage.head, hm, be32, be16, List.cons_append, List.nil_append,
    List.getD_cons_succ, List.getD_cons_zero, UInt8.toNat_ofNat',
    Nat.shiftRight_eq_div_pow]
  omega

/-- The time field begins at byte 20. -/
theorem drop_head (m : VideoMessage) (t : List UInt8) :
    (m.head ++ t).drop 20 = be64 m.time.toNat ++ t := by
  obtain ⟨b₀, b₁, b₂, b₃, b₄, b₅, b₆, b₇, b₈, b₉, hm⟩ := exists_middle m
  rw [VideoMessage.head, hm]
  rfl

theorem be16_eq_zero (h : be16 n = [0, 0]) : n % 2 ^ 16 = 0 := by
  have h₀ := congrArg (fun l => (l.getD 0 0).toNat) h
  have h₁ := congrArg (fun l => (l.getD 1 0).toNat) h
  simp only [be16, List.getD_cons_succ, List.getD_cons_zero, UInt8.toNat_ofNat',
    Nat.shiftRight_eq_div_pow] at h₀ h₁
  change n / 2 ^ 8 % 2 ^ 8 = 0 at h₀
  change n % 2 ^ 8 = 0 at h₁
  omega

theorem be32_eq_zero (h : be32 n = [0, 0, 0, 0]) (hlt : n < 2 ^ 32) : n = 0 := by
  have h₀ : be16 (n >>> 16) = [0, 0] := congrArg (List.take 2) h
  have h₁ : be16 n = [0, 0] := congrArg (List.drop 2) h
  have hhigh := be16_eq_zero h₀
  have hlow := be16_eq_zero h₁
  rw [Nat.shiftRight_eq_div_pow] at hhigh
  omega

/-- The high half of the time is zero. -/
theorem time_lt (h : ((m.head ++ t).drop 20).take 4 = [0, 0, 0, 0]) : m.time.toNat < 2 ^ 32 := by
  rw [drop_head] at h
  have hlt := m.time.toNat_lt
  have hhigh : be32 (m.time.toNat >>> 32) = [0, 0, 0, 0] := h
  have hzero := be32_eq_zero hhigh (by rw [Nat.shiftRight_eq_div_pow]; omega)
  rw [Nat.shiftRight_eq_div_pow] at hzero
  omega

/-- The shifts that stay inside an `int` do what they are meant to. -/
theorem shiftInt_low (b : UInt8) :
    shiftInt b 24 &&& 0x00000000ff000000 = .ofNat (b.toNat * 2 ^ 24) ∧
      shiftInt b 16 &&& 0x0000000000ff0000 = .ofNat (b.toNat * 2 ^ 16) ∧
      shiftInt b 8 &&& 0x000000000000ff00 = .ofNat (b.toNat * 2 ^ 8) ∧
      shiftInt b 0 &&& 0x00000000000000ff = .ofNat b.toNat := by
  have hall : ∀ k < 256,
      shiftInt (.ofNat k) 24 &&& 0x00000000ff000000 = .ofNat ((UInt8.ofNat k).toNat * 2 ^ 24) ∧
      shiftInt (.ofNat k) 16 &&& 0x0000000000ff0000 = .ofNat ((UInt8.ofNat k).toNat * 2 ^ 16) ∧
      shiftInt (.ofNat k) 8 &&& 0x000000000000ff00 = .ofNat ((UInt8.ofNat k).toNat * 2 ^ 8) ∧
      shiftInt (.ofNat k) 0 &&& 0x00000000000000ff = .ofNat (UInt8.ofNat k).toNat := by
    decide +kernel
  have := hall b.toNat b.toNat_lt
  rwa [UInt8.ofNat_toNat] at this

theorem getD_head (m : VideoMessage) (t : List UInt8) (k : ℕ) :
    (m.head ++ t).getD (20 + k) 0 = (be64 m.time.toNat ++ t).getD k 0 := by
  rw [← drop_head, List.getD_eq_getElem?_getD, List.getD_eq_getElem?_getD, List.getElem?_drop]

theorem fTime_head (m : VideoMessage) (t : List UInt8) (hlt : m.time.toNat < 2 ^ 32) :
    fTime (m.head ++ t) = m.time := by
  have hhigh : m.time.toNat >>> 32 = 0 := by
    rw [Nat.shiftRight_eq_div_pow]
    omega
  have hbytes : ∀ k, (m.head ++ t).getD (20 + k) 0 =
      ([0, 0, 0, 0] ++ be32 m.time.toNat ++ t).getD k 0 := by
    intro k
    rw [getD_head, be64, hhigh]
    rfl
  have hzero : ∀ n ∈ [56, 48, 40, 32], shiftInt 0 n = 0 := by decide
  have h24 := (shiftInt_low (.ofNat (m.time.toNat >>> 16 >>> 8))).1
  have h16 := (shiftInt_low (.ofNat (m.time.toNat >>> 16))).2.1
  have h8 := (shiftInt_low (.ofNat (m.time.toNat >>> 8))).2.2.1
  have h0 := (shiftInt_low (.ofNat m.time.toNat)).2.2.2
  rw [fTime, hbytes 0, hbytes 1, hbytes 2, hbytes 3, hbytes 4, hbytes 5, hbytes 6, hbytes 7]
  show (shiftInt 0 56 &&& _) + (shiftInt 0 48 &&& _) + (shiftInt 0 40 &&& _) +
    (shiftInt 0 32 &&& _) + (shiftInt (.ofNat (m.time.toNat >>> 16 >>> 8)) 24 &&& _) +
    (shiftInt (.ofNat (m.time.toNat >>> 16)) 16 &&& _) +
    (shiftInt (.ofNat (m.time.toNat >>> 8)) 8 &&& _) + (shiftInt (.ofNat m.time.toNat) 0 &&& _) =
    m.time
  rw [h24, h16, h8, h0, hzero 56 (by decide), hzero 48 (by decide), hzero 40 (by decide),
    hzero 32 (by decide)]
  have hsum : (UInt8.ofNat (m.time.toNat >>> 16 >>> 8)).toNat * 2 ^ 24 +
      (UInt8.ofNat (m.time.toNat >>> 16)).toNat * 2 ^ 16 +
      (UInt8.ofNat (m.time.toNat >>> 8)).toNat * 2 ^ 8 + (UInt8.ofNat m.time.toNat).toNat =
      m.time.toNat := by
    simp only [UInt8.toNat_ofNat', Nat.shiftRight_eq_div_pow]
    omega
  simp only [UInt64.zero_and, UInt64.zero_add, ← UInt64.ofNat_add, hsum, UInt64.ofNat_toNat]

/-! ### The condition -/

/-- What keeps the loop in step with the messages. A first `recv` brings the header and nothing of
the end mark, of a message whose size the loop takes and whose time has no high half; the connection
does not end inside a message; and the end mark comes in one piece when it is asked for. -/
def Pc.InStep (input : List UInt8) : Pc → Answer → Prop
  | .header, .bytes n =>
    28 ≤ n ∧ n ≤ dataSize input + 2 ∧ dataSize input ≤ maxDataSize ∧
      (input.drop 20).take 4 = [0, 0, 0, 0]
  | .data _, answer => answer ≠ .failed
  | .tail _, answer => answer = .bytes 2
  | _, _ => True

def InStep (_past : List Answer) (s : State) (answer : Answer) : Prop :=
  s.pc.InStep s.input answer

instance (input : List UInt8) : ∀ (pc : Pc) (answer : Answer), Decidable (pc.InStep input answer)
  | .header, .bytes n => inferInstanceAs (Decidable (28 ≤ n ∧ n ≤ dataSize input + 2 ∧
      dataSize input ≤ maxDataSize ∧ (input.drop 20).take 4 = [0, 0, 0, 0]))
  | .data _, answer => inferInstanceAs (Decidable (answer ≠ .failed))
  | .tail _, answer => inferInstanceAs (Decidable (answer = .bytes 2))
  | .header, .again | .header, .failed | .clear, _ | .exited, _ => isTrue trivial

instance (past : List Answer) (s : State) (answer : Answer) : Decidable (InStep past s answer) :=
  inferInstanceAs (Decidable (s.pc.InStep s.input answer))

/-! ### The invariant -/

/-- The variables while the message `m` is being read. -/
structure ReadingOf (m : VideoMessage) (r : Reading) : Prop where
  dataSize : r.dataSize = m.payload.length + 26
  width : r.width = m.width
  height : r.height = m.height
  fTime : r.fTime = m.time
  header_le : 28 ≤ r.recvLen
  le_data : r.recvLen ≤ m.payload.length + 28
  temp : r.temp = m.payload.take (r.recvLen - 28)
  size_le : m.payload.length + 26 ≤ maxDataSize

/-- The stream of the messages from here on. -/
def streamOf (ms : List VideoMessage) : List UInt8 := (ms.map VideoMessage.bytes).flatten

/-- Where the loop stands in the messages that are left. -/
def Standing (pc : Pc) (input : List UInt8) (rest : List VideoMessage) : Prop :=
  match pc with
  | .header | .exited => input = streamOf rest
  | .clear => False
  | .data r =>
    ∃ m rest', rest = m :: rest' ∧ ReadingOf m r ∧ r.recvLen < m.payload.length + 28 ∧
      r.willReadLen ≤ m.payload.length + 28 - r.recvLen ∧
      input = m.bytes.drop r.recvLen ++ streamOf rest'
  | .tail r =>
    ∃ m rest', rest = m :: rest' ∧ ReadingOf m r ∧ r.recvLen = m.payload.length + 28 ∧
      input = [0x7e, 0x0d] ++ streamOf rest'

/-- The messages `done` have been delivered, the rest is still to be read. -/
structure Kept (s : State) (done rest : List VideoMessage) : Prop where
  delivered : s.delivered = done.map VideoMessage.frame
  accesses : ∀ a ∈ s.accesses, a.InBounds
  standing : Standing s.pc s.input rest

theorem streamOf_cons (m : VideoMessage) (ms : List VideoMessage) :
    streamOf (m :: ms) = m.bytes ++ streamOf ms := rfl

/-! ### Steps -/

theorem State.recv_eq_some {max : ℕ} {x : List UInt8 × State} (h : s.recv max n = some x) :
    0 < n ∧ n ≤ max ∧ n ≤ s.input.length ∧
      x = (s.input.take n, { s with input := s.input.drop n }) := by
  rw [State.recv] at h
  split at h
  · rename_i hn
    exact ⟨hn.1, hn.2.1, hn.2.2, (Option.some.inj h).symm⟩
  · exact nomatch h

/-- Without overflow the sizes are what they are meant to be. -/
theorem tempSize_eq (hlt : m.payload.length + 26 < 2 ^ 32) :
    tempSize (m.payload.length + 26) = m.payload.length := by
  rw [tempSize]
  omega

theorem frameSize_eq (h : m.payload.length + 26 ≤ maxDataSize) :
    frameSize m.width m.height = m.payload.length := by
  have hlen := m.payload_length
  rw [maxDataSize] at h
  have hmod : m.width * m.height * 3 % 2 ^ 32 = m.width * m.height * 3 :=
    Nat.mod_eq_of_lt (by omega)
  rw [frameSize, hmod, hlen]
  exact if_pos (by omega)

/-- The chunk has brought the loop to where it asks for more data or for the end mark. -/
theorem ReadingOf.standing (h : ReadingOf m r)
    (hinput : t = m.bytes.drop r.recvLen ++ streamOf rest) : Standing r.next t (m :: rest) := by
  rw [Reading.next, h.dataSize]
  split
  · rename_i hlt
    refine ⟨m, rest, rfl, ⟨rfl, h.width, h.height, h.fTime, h.header_le, h.le_data, h.temp,
      h.size_le⟩, hlt, ?_, hinput⟩
    exact Nat.min_le_right r.willReadLen (m.payload.length + 28 - r.recvLen)
  · rename_i hge
    have hlen : r.recvLen = m.payload.length + 28 := by
      have := h.le_data
      omega
    refine ⟨m, rest, rfl, h, hlen, ?_⟩
    have hdrop : m.bytes.drop (m.payload.length + 28) = [0x7e, 0x0d] := by
      rw [bytes_eq, List.drop_left' (by rw [List.length_append, head_length]; omega)]
    rw [hinput, hlen, hdrop]

theorem Kept.headerStep (h : Kept s done rest) (hpc : s.pc = .header) {x : List UInt8 × State}
    (hC : Pc.header.InStep s.input (.bytes n)) (hrecv : s.recv readBufSize n = some x) :
    Kept (x.2.gotHeader x.1) done rest := by
  have hstand := h.standing
  rw [hpc] at hstand
  obtain ⟨h28, hle, hmax, htime⟩ := hC
  obtain ⟨-, -, hlen, rfl⟩ := State.recv_eq_some hrecv
  cases rest with
  | nil =>
    rw [show s.input = [] from hstand] at hlen
    exact absurd hlen (by show ¬ n ≤ 0; omega)
  | cons m rest =>
    have hinput : s.input = m.head ++ (m.payload ++ [0x7e, 0x0d] ++ streamOf rest) := by
      rw [show s.input = _ from hstand, streamOf_cons, bytes_eq]
      simp only [List.append_assoc]
    rw [hinput, dataSize_head] at hle hmax
    rw [hinput] at htime
    have hhead := head_length m
    have hchunk : s.input.take n = m.head ++ m.payload.take (n - 28) := by
      rw [hinput, List.take_append, hhead, List.take_of_length_le (by omega), List.append_assoc,
        List.take_append_of_le_length (by omega)]
    have hdrop : s.input.drop n = m.bytes.drop n ++ streamOf rest := by
      rw [show s.input = m.bytes ++ streamOf rest from hstand,
        List.drop_append_of_le_length (by rw [bytes_length]; omega)]
    have hclen : (s.input.take n).length = n := List.length_take_of_le hlen
    have hreading : ReadingOf m
        { dataSize := dataSize (s.input.take n), width := width (s.input.take n)
          height := height (s.input.take n), fTime := fTime (s.input.take n)
          temp := (s.input.take n).drop 28, recvLen := (s.input.take n).length
          willReadLen := readBufSize } := by
      constructor
      · rw [hchunk, dataSize_head]
      · rw [hchunk, width_head]
      · rw [hchunk, height_head]
      · rw [hchunk, fTime_head m _ (time_lt htime)]
      · rw [hclen]
        exact h28
      · rw [hclen]
        exact hle
      · rw [hclen, hchunk, List.drop_left' hhead]
      · exact hmax
    have hgot : State.gotHeader { s with input := s.input.drop n } (s.input.take n) =
        { s with
          input := s.input.drop n
          pc := Reading.next
            { dataSize := dataSize (s.input.take n), width := width (s.input.take n)
              height := height (s.input.take n), fTime := fTime (s.input.take n)
              temp := (s.input.take n).drop 28, recvLen := (s.input.take n).length
              willReadLen := readBufSize }
          accesses := s.accesses ++
            [⟨tempSize (dataSize (s.input.take n)), 0, (s.input.take n).length - 28⟩] } := by
      have hmarks := head_marks m (m.payload.take (n - 28))
      rw [← hchunk] at hmarks
      rw [State.gotHeader, if_neg (by rw [hclen]; omega),
        if_neg (not_or.mpr ⟨not_not_intro hmarks.1, not_not_intro hmarks.2⟩),
        if_neg (by rw [hchunk, dataSize_head]; omega)]
    rw [hgot]
    refine ⟨h.delivered, ?_, ?_⟩
    · intro a ha
      rcases List.mem_append.mp ha with ha | ha
      · exact h.accesses a ha
      · rw [List.mem_singleton.mp ha, hclen, hchunk, dataSize_head, tempSize_eq m.size_lt]
        show 0 + (n - 28) ≤ m.payload.length
        omega
    · refine hreading.standing ?_
      rw [hclen]
      exact hdrop

theorem Kept.dataStep (h : Kept s done rest) (hpc : s.pc = .data r) {x : List UInt8 × State}
    (hrecv : s.recv r.willReadLen n = some x) : Kept (x.2.gotData r x.1) done rest := by
  have hstand := h.standing
  rw [hpc] at hstand
  obtain ⟨m, rest, rfl, hr, hlt, hwill, hinput⟩ := hstand
  obtain ⟨-, hmax, hlen, rfl⟩ := State.recv_eq_some hrecv
  have h28 := hr.header_le
  have hbytes : m.bytes.drop r.recvLen = m.payload.drop (r.recvLen - 28) ++ [0x7e, 0x0d] := by
    rw [bytes_eq, List.append_assoc, List.drop_append, head_length,
      List.drop_eq_nil_of_le (by rw [head_length]; exact h28), List.nil_append,
      List.drop_append_of_le_length (by omega)]
  have hchunk : s.input.take n = (m.payload.drop (r.recvLen - 28)).take n := by
    rw [hinput, hbytes, List.append_assoc, List.take_append_of_le_length]
    rw [List.length_drop]
    omega
  have hclen : (s.input.take n).length = n := List.length_take_of_le hlen
  have htemp : r.temp.length = r.recvLen - 28 := by
    rw [hr.temp, List.length_take]
    omega
  have hreading : ReadingOf m (r.copied (s.input.take n)) := by
    refine ⟨hr.dataSize, hr.width, hr.height, hr.fTime, ?_, ?_, ?_, hr.size_le⟩
    · exact Nat.le_trans h28 (Nat.le_add_right _ _)
    · show r.recvLen + (s.input.take n).length ≤ _
      omega
    · show r.temp ++ s.input.take n = m.payload.take (r.recvLen + (s.input.take n).length - 28)
      rw [hclen, hr.temp, hchunk, ← List.take_add]
      congr 1
      omega
  refine ⟨h.delivered, ?_, ?_⟩
  · intro a ha
    rcases List.mem_append.mp ha with ha | ha
    · exact h.accesses a ha
    · rw [List.mem_singleton.mp ha, hr.dataSize, tempSize_eq m.size_lt]
      show r.temp.length + (s.input.take n).length ≤ m.payload.length
      omega
  · refine hreading.standing ?_
    show s.input.drop n = m.bytes.drop (r.recvLen + (s.input.take n).length) ++ streamOf rest
    rw [hclen, hinput, List.drop_append_of_le_length, List.drop_drop]
    rw [List.length_drop, bytes_length]
    omega

theorem Kept.tailStep (h : Kept s done rest) (hpc : s.pc = .tail r) {x : List UInt8 × State}
    (hrecv : s.recv 2 2 = some x) :
    ∃ m rest', rest = m :: rest' ∧ Kept (x.2.gotTail r x.1) (done ++ [m]) rest' := by
  have hstand := h.standing
  rw [hpc] at hstand
  obtain ⟨m, rest', rfl, hr, hlen, hinput⟩ := hstand
  obtain ⟨-, -, -, rfl⟩ := State.recv_eq_some hrecv
  have htake : s.input.take 2 = [0x7e, 0x0d] := by rw [hinput]; rfl
  have hdrop : s.input.drop 2 = streamOf rest' := by rw [hinput]; rfl
  have hsize : frameSize r.width r.height = m.payload.length := by
    rw [hr.width, hr.height, frameSize_eq hr.size_le]
  have htemp : r.temp.take m.payload.length = m.payload := by
    rw [hr.temp, hlen, Nat.add_sub_cancel, List.take_length, List.take_length]
  have hle := hr.size_le
  refine ⟨m, rest', rfl, ?_, ?_, ?_⟩
  · show (State.gotTail _ r (s.input.take 2)).delivered = _
    rw [htake, List.map_append, ← h.delivered]
    show s.delivered ++ [VideoFrame.mk r.width r.height r.fTime (r.temp.take _)] = _
    rw [hsize, htemp, hr.width, hr.height, hr.fTime]
    rfl
  · show ∀ a ∈ (State.gotTail _ r (s.input.take 2)).accesses, a.InBounds
    rw [htake]
    intro a ha
    rcases List.mem_append.mp ha with ha | ha
    · exact h.accesses a ha
    · rw [List.mem_singleton.mp ha, hsize]
      show 0 + m.payload.length ≤ 4096 * 4096 * 3 / 2
      rw [maxDataSize] at hle
      omega
  · show Standing (State.gotTail _ r (s.input.take 2)).pc _ rest'
    rw [htake]
    exact hdrop

/-- What is still to come is shorter than the messages that are left. -/
theorem Kept.nothing_left (h : Kept s done rest) (hnil : s.input = []) : rest = [] := by
  cases rest with
  | nil => rfl
  | cons m rest =>
    have hstand := h.standing
    have hb : m.bytes ≠ [] := by
      intro hm
      have := bytes_length m
      rw [hm] at this
      exact absurd this (by simp)
    cases hpc : s.pc with
    | header =>
      rw [hpc, hnil] at hstand
      exact absurd (List.append_eq_nil_iff.mp hstand.symm).1 hb
    | exited =>
      rw [hpc, hnil] at hstand
      exact absurd (List.append_eq_nil_iff.mp hstand.symm).1 hb
    | clear =>
      rw [hpc] at hstand
      exact hstand.elim
    | data r =>
      rw [hpc, hnil] at hstand
      obtain ⟨m', rest', hcons, -, hlt, -, hinput⟩ := hstand
      have hdrop := (List.append_eq_nil_iff.mp hinput.symm).1
      have := congrArg List.length hdrop
      rw [List.length_drop, bytes_length] at this
      simp only [List.length_nil] at this
      omega
    | tail r =>
      rw [hpc, hnil] at hstand
      obtain ⟨m', rest', -, -, -, hinput⟩ := hstand
      exact nomatch hinput

theorem Kept.delivers (h : Kept s done rest) (hms : ms = done ++ rest) : Delivers ms s := by
  refine ⟨?_, ?_, h.accesses⟩
  · rw [h.delivered, hms, List.map_append]
    exact List.prefix_append _ _
  · intro hnil
    rw [h.delivered, hms, h.nothing_left hnil, List.append_nil]

theorem Kept.step (h : Kept s done rest) {answer : Answer} (hC : s.pc.InStep s.input answer)
    (hs : answer.step s = some s') :
    ∃ done' rest', done ++ rest = done' ++ rest' ∧ Kept s' done' rest' := by
  cases hpc : s.pc with
  | header =>
    have hstand := h.standing
    rw [hpc] at hC hstand
    cases answer with
    | bytes n =>
      simp only [Answer.step, hpc] at hs
      obtain ⟨x, hrecv, rfl⟩ := Option.map_eq_some_iff.mp hs
      exact ⟨done, rest, rfl, h.headerStep hpc hC hrecv⟩
    | again =>
      simp only [Answer.step, hpc] at hs
      obtain rfl := Option.some.inj hs
      exact ⟨done, rest, rfl, h⟩
    | failed =>
      simp only [Answer.step, hpc] at hs
      obtain rfl := Option.some.inj hs
      exact ⟨done, rest, rfl, h.delivered, h.accesses, hstand⟩
  | clear =>
    have hstand := h.standing
    rw [hpc] at hstand
    exact hstand.elim
  | data r =>
    rw [hpc] at hC
    cases answer with
    | bytes n =>
      simp only [Answer.step, hpc] at hs
      obtain ⟨x, hrecv, rfl⟩ := Option.map_eq_some_iff.mp hs
      exact ⟨done, rest, rfl, h.dataStep hpc hrecv⟩
    | again =>
      simp only [Answer.step, hpc] at hs
      obtain rfl := Option.some.inj hs
      exact ⟨done, rest, rfl, h⟩
    | failed => exact absurd rfl hC
  | tail r =>
    rw [hpc] at hC
    obtain rfl : answer = .bytes 2 := hC
    simp only [Answer.step, hpc] at hs
    obtain ⟨x, hrecv, rfl⟩ := Option.map_eq_some_iff.mp hs
    obtain ⟨m, rest', rfl, hnext⟩ := h.tailStep hpc hrecv
    exact ⟨done ++ [m], rest', by rw [List.append_assoc, List.singleton_append], hnext⟩
  | exited =>
    simp only [Answer.step, hpc] at hs
    exact nomatch hs

theorem kept_opened (ms : List VideoMessage) : Kept (.opened (streamOf ms)) [] ms where
  delivered := rfl
  accesses _ ha := nomatch ha
  standing := rfl

/-- On any messages, and for any answers that keep to `InStep`, every frame is delivered once and in
order, and nothing is written outside its buffer. -/
theorem flySocket_run (ms : List VideoMessage) {answers : List Answer} {t : State}
    (hrun : Guarded Answer.step InStep (.opened (streamOf ms)) answers t) : Delivers ms t := by
  have hkept : ∃ done rest, ms = done ++ rest ∧ Kept t done rest := by
    refine hrun.inv (I := fun _ s => ∃ done rest, ms = done ++ rest ∧ Kept s done rest) ?_
      ⟨[], ms, rfl, kept_opened ms⟩
    rintro past answer s s' ⟨done, rest, hms, h⟩ hC hs
    obtain ⟨done', rest', hsame, h'⟩ := h.step hC hs
    exact ⟨done', rest', hms.trans hsame, h'⟩
  obtain ⟨done, rest, hms, h⟩ := hkept
  exact h.delivers hms

/-- Two by two pixels, at time 5. -/
def smallMessage : VideoMessage where
  middle := [0x00, 0x02, 0x04, 0x50, 0x00, 0x00, 0x00, 0x00, 0x00, 0x01]
  width := 2
  height := 2
  time := 5
  payload := [0x10, 0x20, 0x30, 0x40, 0x50, 0x60]
  middle_length := rfl
  width_lt := by decide
  height_lt := by decide
  payload_length := rfl
  size_lt := by decide

/-- Two messages, the second one cut inside its payload. -/
theorem flySocket_run_two :
    (run Answer.step [.bytes 34, .bytes 2, .again, .bytes 30, .again, .bytes 4, .bytes 2]
        (.opened (streamOf [smallMessage, smallMessage]))).map (·.delivered) =
      some [smallMessage.frame, smallMessage.frame] ∧
    ∀ t, run Answer.step [.bytes 34, .bytes 2, .again, .bytes 30, .again, .bytes 4, .bytes 2]
        (.opened (streamOf [smallMessage, smallMessage])) = some t →
      Delivers [smallMessage, smallMessage] t := by
  have hmeets : Meets Answer.step InStep []
      [.bytes 34, .bytes 2, .again, .bytes 30, .again, .bytes 4, .bytes 2]
      (.opened (streamOf [smallMessage, smallMessage])) := by
    decide +kernel
  exact ⟨by decide +kernel, fun t ht => flySocket_run _ (hmeets.guarded ht)⟩

/-- A message that one `recv` returns whole: the end mark is copied behind `tempData`, and then it
is waited for. -/
theorem flySocket_whole :
    ∃ t, run Answer.step [.bytes 36] (.opened (streamOf [smallMessage])) = some t ∧
      ¬ Delivers [smallMessage] t := by
  have hrun : (run Answer.step [.bytes 36] (.opened (streamOf [smallMessage]))).map
      (fun t => (t.delivered, t.input, t.accesses)) = some ([], [], [⟨6, 0, 8⟩]) := by
    decide +kernel
  obtain ⟨t, ht, hvals⟩ := Option.map_eq_some_iff.mp hrun
  obtain ⟨hdelivered, hvals⟩ := Prod.mk.inj hvals
  obtain ⟨hinput, -⟩ := Prod.mk.inj hvals
  refine ⟨t, ht, ?_⟩
  rintro ⟨-, hall, -⟩
  have hlost := hall hinput
  rw [hdelivered] at hlost
  exact nomatch hlost

end AndroidVendor.Webcam
