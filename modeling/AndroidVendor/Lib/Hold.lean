import Mathlib.Data.Option.Basic
import Mathlib.Order.Lattice

/-!
# Holding a level

A hold is triggered at some looks and lasts for `n` of them, the one that triggered it included; a
trigger in between starts it anew. It carries a level, which starts at or above `floor` and only
rises while the hold lasts. A counter is all that is kept of the past: `Hold.Since` says what it
stands for.

## Main results

* `Hold.Since.look` — one more look
-/

namespace AndroidVendor

variable {α : Type*} {n : ℕ} {floor : α}

/-- The counter of the looks since the trigger, with the level; 0 while nothing is held. -/
structure Hold (α : Type*) where
  count : ℕ
  level : α

namespace Hold

/-- A look with what it finds: whether it triggers the hold, and a level. -/
def look [Max α] (n : ℕ) (floor : α) (h : Hold α) (v : Bool × α) : Hold α :=
  if v.1 then ⟨1, max v.2 floor⟩
  else if h.count = 0 then h
  else if h.count < n then ⟨h.count + 1, max v.2 h.level⟩
  else ⟨0, h.level⟩

section Look

variable [Max α] (h : Hold α) (x : α)

theorem look_trigger : h.look n floor (true, x) = ⟨1, max x floor⟩ := rfl

theorem look_idle (hzero : h.count = 0) : h.look n floor (false, x) = h := if_pos hzero

theorem look_rise (hpos : 0 < h.count) (hlt : h.count < n) :
    h.look n floor (false, x) = ⟨h.count + 1, max x h.level⟩ := by
  rw [look, if_neg Bool.false_ne_true, if_neg hpos.ne', if_pos hlt]

theorem look_end (hpos : 0 < h.count) (hge : n ≤ h.count) :
    h.look n floor (false, x) = ⟨0, h.level⟩ := by
  rw [look, if_neg Bool.false_ne_true, if_neg hpos.ne', if_neg hge.not_gt]

end Look

/-- The levels found since the last trigger, the newest first. -/
def since : List (Bool × α) → Option (List α)
  | [] => none
  | (true, x) :: _ => some [x]
  | (false, x) :: vs => (since vs).map (x :: ·)

theorem length_since_pos {vs : List (Bool × α)} {l : List α} (h : since vs = some l) :
    0 < l.length := by
  cases vs with
  | nil => exact nomatch h
  | cons v vs =>
    obtain ⟨_ | _, x⟩ := v
    · obtain ⟨l', -, rfl⟩ := Option.map_eq_some_iff.mp h
      exact Nat.succ_pos _
    · obtain rfl := Option.some.inj h
      exact Nat.one_pos

variable [Max α]

/-- The hold after these looks, the newest first. -/
structure Since (n : ℕ) (floor : α) (h : Hold α) (vs : List (Bool × α)) : Prop where
  lasts : ∀ l, since vs = some l → l.length ≤ n → h.count = l.length ∧ h.level = l.foldr max floor
  ended : (∀ l, since vs = some l → n < l.length) → h.count = 0

theorem since_nil {h : Hold α} (hcount : h.count = 0) : Since n floor h [] :=
  ⟨fun _ hl => (nomatch hl), fun _ => hcount⟩

/-- Something is held just as long as the last trigger is one of the last `n` looks. -/
theorem Since.count_pos {h : Hold α} {vs : List (Bool × α)} (hs : Since n floor h vs) :
    0 < h.count ↔ ∃ l, since vs = some l ∧ l.length ≤ n := by
  constructor
  · intro hpos
    by_contra hout
    have hzero : h.count = 0 := hs.ended fun l hl => by
      by_contra hle
      exact hout ⟨l, hl, by omega⟩
    omega
  · rintro ⟨l, hl, hle⟩
    rw [(hs.lasts l hl hle).1]
    exact length_since_pos hl

/-- **One more look.** -/
theorem Since.look (hn : 0 < n) {h : Hold α} {vs : List (Bool × α)} (hs : Since n floor h vs)
    (v : Bool × α) : Since n floor (h.look n floor v) (v :: vs) := by
  obtain ⟨_ | _, x⟩ := v
  · constructor
    · intro l hl hle
      obtain ⟨l', hl', rfl⟩ := Option.map_eq_some_iff.mp hl
      rw [List.length_cons] at hle
      obtain ⟨hcount, hlevel⟩ := hs.lasts l' hl' (by omega)
      have hpos := length_since_pos hl'
      rw [h.look_rise x (by omega) (by omega), hcount, hlevel]
      exact ⟨rfl, rfl⟩
    · intro hout
      rcases Nat.eq_zero_or_pos h.count with hzero | hpos
      · rw [h.look_idle x hzero, hzero]
      · -- were the hold to last, its trigger would be one of the last `n` looks
        obtain ⟨l, hl, hle⟩ := hs.count_pos.mp hpos
        have hgt : n < (x :: l).length := hout (x :: l) (by rw [since, hl]; rfl)
        rw [List.length_cons] at hgt
        have hcount := (hs.lasts l hl hle).1
        rw [h.look_end x hpos (by omega)]
  · rw [look_trigger]
    constructor
    · intro l hl _
      obtain rfl := Option.some.inj hl
      exact ⟨rfl, rfl⟩
    · intro hout
      have hlt := hout [x] rfl
      rw [List.length_singleton] at hlt
      omega

end Hold

end AndroidVendor
