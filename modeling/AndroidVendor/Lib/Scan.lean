import Mathlib.Algebra.Ring.Int.Defs
import Mathlib.Data.List.DropRight

/-!
# Formatted scans

`strstr` and `sscanf` on texts of bytes, for formats of literal characters, decimal conversions and
scansets. A scan stops at the first directive that does not match; it returns what the conversions
before it have found.
-/

namespace Scan

/-- The byte of an ASCII character. -/
def ascii (c : Char) : UInt8 := .ofNat c.toNat

/-- The suffix of `s` that begins with the first occurrence of `pat`. -/
def strstr (pat : List UInt8) : List UInt8 → Option (List UInt8)
  | [] => if pat = [] then some [] else none
  | b :: s => if pat <+: b :: s then some (b :: s) else strstr pat s

inductive Directive
  | lit (b : UInt8)
  | int
  | set (p : UInt8 → Bool)
  | skip (p : UInt8 → Bool)

/-- The value of a `%d` or of a `%[...]`. -/
inductive Value
  | int (v : ℤ)
  | str (s : List UInt8)
  deriving DecidableEq, Repr

def isSpace (b : UInt8) : Bool := b == 32 || (9 ≤ b && b ≤ 13)

def isDigit (b : UInt8) : Bool := ascii '0' ≤ b && b ≤ ascii '9'

/-- The number that the digits write. -/
def digitsValue (s : List UInt8) : ℕ := s.foldl (fun n b => n * 10 + (b.toNat - 48)) 0

/-- Optional blanks, an optional sign, and at least one digit. -/
def scanInt (s : List UInt8) : Option (ℤ × List UInt8) :=
  let s := s.dropWhile isSpace
  let negative := s.head? == some (ascii '-')
  let s := if negative || s.head? == some (ascii '+') then s.tail else s
  let digits := s.takeWhile isDigit
  if digits = [] then none
  else some (if negative then -(digitsValue digits : ℤ) else digitsValue digits, s.dropWhile isDigit)

def scan : List Directive → List UInt8 → List Value
  | [], _ => []
  | .lit b :: fmt, s => if s.head? = some b then scan fmt s.tail else []
  | .int :: fmt, s =>
    match scanInt s with
    | none => []
    | some (v, rest) => .int v :: scan fmt rest
  | .set p :: fmt, s =>
    if s.takeWhile p = [] then [] else .str (s.takeWhile p) :: scan fmt (s.dropWhile p)
  | .skip p :: fmt, s => if s.takeWhile p = [] then [] else scan fmt (s.dropWhile p)

variable {pat s found : List UInt8} {fmt : List Directive}

theorem strstr_prefix (h : strstr pat s = some found) : pat <+: found := by
  induction s with
  | nil =>
    rw [strstr] at h
    split at h
    · rename_i hpat
      rw [hpat]
      exact List.nil_prefix
    · exact nomatch h
  | cons b s ih =>
    rw [strstr] at h
    split at h
    · rename_i hpre
      obtain rfl := Option.some.inj h
      exact hpre
    · exact ih h

theorem strstr_suffix (h : strstr pat s = some found) : found <:+ s := by
  induction s with
  | nil =>
    rw [strstr] at h
    split at h
    · obtain rfl := Option.some.inj h
      exact List.suffix_rfl
    · exact nomatch h
  | cons b s ih =>
    rw [strstr] at h
    split at h
    · obtain rfl := Option.some.inj h
      exact List.suffix_rfl
    · exact (ih h).trans (List.suffix_cons b s)

/-- A text in front that has not even the first byte of `pat`. -/
theorem strstr_skip {b : UInt8} {pre : List UInt8} (h : b ∉ pre) :
    strstr (b :: pat) (pre ++ s) = strstr (b :: pat) s := by
  induction pre with
  | nil => rfl
  | cons b' pre ih =>
    obtain ⟨hne, hpre⟩ := not_or.mp (mt List.mem_cons.mpr h)
    rw [List.cons_append, strstr, if_neg fun hp => hne (List.cons_prefix_cons.mp hp).1]
    exact ih hpre

theorem strstr_self (h : pat ≠ []) : strstr pat (pat ++ s) = some (pat ++ s) := by
  cases pat with
  | nil => exact absurd rfl h
  | cons b pat =>
    rw [List.cons_append, strstr]
    exact if_pos (List.prefix_append (b :: pat) s)

variable {v : Value} {p : UInt8 → Bool}

/-- Behind literal characters a scan finds what it finds behind them in the text. -/
theorem head?_scan_lits {lits : List UInt8} :
    (scan (lits.map .lit ++ fmt) s).head? = some v ↔
      ∃ t, s = lits ++ t ∧ (scan fmt t).head? = some v := by
  induction lits generalizing s with
  | nil => exact ⟨fun h => ⟨s, rfl, h⟩, fun ⟨t, hs, h⟩ => hs ▸ h⟩
  | cons b lits ih =>
    rw [List.map_cons, List.cons_append, scan]
    constructor
    · intro h
      split at h
      · rename_i hb
        obtain ⟨t, ht, hv⟩ := ih.mp h
        obtain ⟨s', rfl⟩ := List.head?_eq_some_iff.mp hb
        exact ⟨t, congrArg (b :: ·) ht, hv⟩
      · exact nomatch h
    · rintro ⟨t, rfl, hv⟩
      rw [List.cons_append, List.head?_cons, if_pos rfl]
      exact ih.mpr ⟨t, rfl, hv⟩

theorem head?_scan_int :
    (scan (.int :: fmt) s).head? = some v ↔ ∃ n rest, scanInt s = some (n, rest) ∧ v = .int n := by
  rw [scan]
  cases hs : scanInt s with
  | none => exact ⟨fun h => (nomatch h), fun ⟨_, _, h, _⟩ => nomatch h⟩
  | some found =>
    obtain ⟨n, rest⟩ := found
    constructor
    · intro h
      exact ⟨n, rest, rfl, (Option.some.inj h).symm⟩
    · rintro ⟨n', rest', h, rfl⟩
      obtain ⟨rfl, rfl⟩ := Prod.mk.inj (Option.some.inj h)
      rfl

theorem head?_scan_set :
    (scan (.set p :: fmt) s).head? = some v ↔ s.takeWhile p ≠ [] ∧ v = .str (s.takeWhile p) := by
  rw [scan]
  split
  · rename_i hs
    exact ⟨fun h => (nomatch h), fun h => absurd hs h.1⟩
  · rename_i hs
    exact ⟨fun h => ⟨hs, (Option.some.inj h).symm⟩, fun h => congrArg some h.2.symm⟩

theorem head?_scan_skip :
    (scan (.skip p :: fmt) s).head? = some v ↔
      s.takeWhile p ≠ [] ∧ (scan fmt (s.dropWhile p)).head? = some v := by
  rw [scan]
  split
  · rename_i hs
    exact ⟨fun h => (nomatch h), fun h => absurd hs h.1⟩
  · rename_i hs
    exact ⟨fun h => ⟨hs, h⟩, fun h => h.2⟩

theorem scanInt_dropWhile : scanInt (s.dropWhile isSpace) = scanInt s := by
  rw [scanInt, scanInt, List.dropWhile_idempotent]

theorem scanInt_suffix {n : ℤ} {rest : List UInt8} (h : scanInt s = some (n, rest)) : rest <:+ s := by
  simp only [scanInt, Option.ite_none_left_eq_some, Option.some.injEq,
    Prod.mk.injEq] at h
  rw [← h.2.2]
  refine (List.dropWhile_suffix _).trans ?_
  split
  · exact (List.tail_suffix _).trans (List.dropWhile_suffix _)
  · exact List.dropWhile_suffix _

/-- A string that is found is a piece of the text. -/
theorem scan_subset {w : List UInt8} (h : .str w ∈ scan fmt s) : w ⊆ s := by
  induction fmt generalizing s with
  | nil => exact absurd h List.not_mem_nil
  | cons d fmt ih =>
    cases d with
    | lit b =>
      rw [scan] at h
      split at h
      · exact List.Subset.trans (ih h) (List.tail_suffix s).subset
      · exact absurd h List.not_mem_nil
    | int =>
      rw [scan] at h
      cases hs : scanInt s with
      | none =>
        rw [hs] at h
        exact absurd h List.not_mem_nil
      | some found =>
        rw [hs] at h
        rcases List.mem_cons.mp h with heq | h
        · exact nomatch heq
        · exact List.Subset.trans (ih h) (scanInt_suffix hs).subset
    | set p =>
      rw [scan] at h
      split at h
      · exact absurd h List.not_mem_nil
      · rcases List.mem_cons.mp h with heq | h
        · obtain rfl := Value.str.inj heq
          exact (List.takeWhile_prefix p).subset
        · exact List.Subset.trans (ih h) (List.dropWhile_suffix p).subset
    | skip p =>
      rw [scan] at h
      split at h
      · exact absurd h List.not_mem_nil
      · exact List.Subset.trans (ih h) (List.dropWhile_suffix p).subset

/-- The narrower of two sets takes as much as the wider one when all of that is in it. -/
theorem takeWhile_eq_takeWhile {q : UInt8 → Bool} (hq : ∀ b, q b = true → p b = true) :
    s.takeWhile q = s.takeWhile p ↔ ∀ b ∈ s.takeWhile p, q b = true := by
  constructor
  · intro h b hb
    exact List.mem_takeWhile_imp (h ▸ hb)
  · intro h
    induction s with
    | nil => rfl
    | cons b s ih =>
      cases hb : p b with
      | false =>
        have hqb : q b = false := Bool.eq_false_iff.mpr fun hqb => by simp [hq b hqb] at hb
        rw [List.takeWhile_cons_of_neg (by simp [hqb]), List.takeWhile_cons_of_neg (by simp [hb])]
      | true =>
        rw [List.takeWhile_cons_of_pos hb] at h ⊢
        rw [List.takeWhile_cons_of_pos (h b List.mem_cons_self)]
        exact congrArg _ (ih fun b' hb' => h b' (List.mem_cons_of_mem _ hb'))

/-- A property of all bytes can be checked by evaluation. -/
theorem forall_byte {q : UInt8 → Prop} (h : ∀ n < 256, q (.ofNat n)) (b : UInt8) : q b := by
  have hb := h b.toNat b.toNat_lt
  rwa [UInt8.ofNat_toNat] at hb

/-! ### Printed numbers -/

/-- The digits of a number. -/
def decimal (n : ℕ) : List UInt8 :=
  if n < 10 then [.ofNat (48 + n)] else decimal (n / 10) ++ [.ofNat (48 + n % 10)]

/-- `%d`, printed. -/
def printInt (n : ℤ) : List UInt8 := if n < 0 then ascii '-' :: decimal n.natAbs else decimal n.natAbs

theorem isDigit_ofNat {d : ℕ} (hd : d < 10) : isDigit (.ofNat (48 + d)) = true :=
  (by decide : ∀ d < 10, isDigit (.ofNat (48 + d)) = true) d hd

theorem toNat_digit {d : ℕ} (hd : d < 10) : (UInt8.ofNat (48 + d)).toNat - 48 = d := by
  rw [UInt8.toNat_ofNat_of_lt' (by change 48 + d < 256; omega)]
  omega

theorem isDigit_decimal (n : ℕ) : ∀ b ∈ decimal n, isDigit b = true := by
  induction n using Nat.strong_induction_on with
  | _ n ih =>
    intro b hb
    rw [decimal] at hb
    split at hb
    · next hn =>
      rw [List.mem_singleton.mp hb]
      exact isDigit_ofNat hn
    · rcases List.mem_append.mp hb with hb | hb
      · exact ih (n / 10) (by omega) b hb
      · rw [List.mem_singleton.mp hb]
        exact isDigit_ofNat (by omega)

theorem decimal_ne_nil (n : ℕ) : decimal n ≠ [] := by
  rw [decimal]
  split <;> simp

theorem digitsValue_decimal (n : ℕ) : digitsValue (decimal n) = n := by
  induction n using Nat.strong_induction_on with
  | _ n ih =>
    rw [decimal]
    split
    · next hn =>
      rw [digitsValue, List.foldl_cons, List.foldl_nil, toNat_digit hn]
      omega
    · have hpre := ih (n / 10) (by omega)
      rw [digitsValue] at hpre ⊢
      rw [List.foldl_append, hpre, List.foldl_cons, List.foldl_nil, toNat_digit (by omega)]
      omega

/-- A sign, which no digit is. -/
theorem not_digit_sign {b : UInt8} (hb : isDigit b = true) :
    b ≠ ascii '-' ∧ b ≠ ascii '+' ∧ isSpace b = false :=
  forall_byte (q := fun b => isDigit b = true → b ≠ ascii '-' ∧ b ≠ ascii '+' ∧ isSpace b = false)
    (by decide +kernel) b hb

variable {rest : List UInt8}

theorem takeWhile_decimal (hrest : ∀ b, rest.head? = some b → isDigit b = false) (n : ℕ) :
    (decimal n ++ rest).takeWhile isDigit = decimal n ∧
      (decimal n ++ rest).dropWhile isDigit = rest := by
  have hnil : rest.takeWhile isDigit = [] ∧ rest.dropWhile isDigit = rest := by
    cases rest with
    | nil => exact ⟨rfl, rfl⟩
    | cons b rest =>
      have hb := hrest b rfl
      exact ⟨List.takeWhile_cons_of_neg (by simp [hb]), List.dropWhile_cons_of_neg (by simp [hb])⟩
  rw [List.takeWhile_append_of_pos (isDigit_decimal n),
    List.dropWhile_append_of_pos (isDigit_decimal n),
    hnil.1, hnil.2, List.append_nil]
  exact ⟨rfl, rfl⟩

/-- What is printed is scanned back. -/
theorem scanInt_printInt (hrest : ∀ b, rest.head? = some b → isDigit b = false) (n : ℤ) :
    scanInt (printInt n ++ rest) = some (n, rest) := by
  obtain ⟨htake, hdrop⟩ := takeWhile_decimal hrest n.natAbs
  obtain ⟨b, ds, hds⟩ := List.exists_cons_of_ne_nil (decimal_ne_nil n.natAbs)
  obtain ⟨hminus, hplus, hspace⟩ :=
    not_digit_sign (isDigit_decimal n.natAbs b (by rw [hds]; exact List.mem_cons_self))
  rw [printInt]
  split
  · next hneg =>
    have hblank : (ascii '-' :: decimal n.natAbs ++ rest).dropWhile isSpace =
        ascii '-' :: (decimal n.natAbs ++ rest) := rfl
    rw [scanInt, hblank]
    simp only [List.head?_cons, beq_self_eq_true, Bool.true_or, if_true, List.tail_cons, htake, hdrop,
      decimal_ne_nil, if_false, digitsValue_decimal]
    congr 2
    omega
  · next hpos =>
    have hblank : (decimal n.natAbs ++ rest).dropWhile isSpace = decimal n.natAbs ++ rest := by
      rw [hds, List.cons_append, List.dropWhile_cons_of_neg (by simp [hspace])]
    have hsign : (decimal n.natAbs ++ rest).head? = some b := by rw [hds]; rfl
    have hm : (some b == some (ascii '-')) = false := by simp [hminus]
    have hp : (some b == some (ascii '+')) = false := by simp [hplus]
    rw [scanInt, hblank]
    simp only [hsign, hm, hp, Bool.false_or, Bool.false_eq_true, if_false, htake, hdrop,
      decimal_ne_nil, digitsValue_decimal]
    congr 2
    omega

end Scan
