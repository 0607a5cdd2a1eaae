import Mathlib.Logic.Function.Basic
import AndroidVendor.Lib.Machine

/-!
# Families of machines

Machines of one kind under names: members come and go, one of them takes a step, or all of them take
the same step. `life i ops` is what the member `i` remembers of it: how it started, and the steps
that were its own. The member is what a machine by itself makes of that.

## Main results

* `family_eq` — a member is a run of the steps of its life
* `FamilyOp.acts_inv` — what holds of members when they start, and is kept by a step, is kept by all
  that can happen to a family
-/

namespace Machine

variable {ι α σ : Type*} {step : α → σ → Option σ}

/-- What can happen to a family. -/
inductive FamilyOp (ι α σ : Type*)
  | idle
  | one (i : ι) (op : α)
  | all (op : α)
  | start (i : ι) (s : σ)
  | stop (i : ι)

section Member

variable [DecidableEq ι]

/-- What becomes of the member `i`. A step that is not answered leaves no member. -/
def FamilyOp.acts (step : α → σ → Option σ) (i : ι) (x : Option σ) : FamilyOp ι α σ → Option σ
  | .idle => x
  | .one j op => if i = j then x.bind (step op) else x
  | .all op => x.bind (step op)
  | .start j s => if i = j then some s else x
  | .stop j => if i = j then none else x

/-- The family after all of `ops`, from nothing. -/
def family (step : α → σ → Option σ) (ops : List (FamilyOp ι α σ)) (i : ι) : Option σ :=
  ops.foldl (fun x op => op.acts step i x) none

theorem family_concat (ops : List (FamilyOp ι α σ)) (op : FamilyOp ι α σ) (i : ι) :
    family step (ops ++ [op]) i = op.acts step i (family step ops i) := by
  rw [family, List.foldl_append]
  rfl

/-- What `op` adds to the life of the member `i`. -/
def FamilyOp.lives (i : ι) (x : Option (σ × List α)) : FamilyOp ι α σ → Option (σ × List α)
  | .idle => x
  | .one j op => if i = j then x.map fun p => (p.1, p.2 ++ [op]) else x
  | .all op => x.map fun p => (p.1, p.2 ++ [op])
  | .start j s => if i = j then some (s, []) else x
  | .stop j => if i = j then none else x

/-- The state the member `i` started in and the steps that it was given since, if it is there. -/
def life (ops : List (FamilyOp ι α σ)) (i : ι) : Option (σ × List α) :=
  ops.foldl (fun x op => op.lives i x) none

theorem life_concat (ops : List (FamilyOp ι α σ)) (op : FamilyOp ι α σ) (i : ι) :
    life (ops ++ [op]) i = op.lives i (life ops i) := by
  rw [life, List.foldl_append]
  rfl

/-- One more step of a life. -/
theorem bind_run_concat (x : Option (σ × List α)) (op : α) :
    (x.map fun p => (p.1, p.2 ++ [op])).bind (fun p => run step p.2 p.1) =
      (x.bind fun p => run step p.2 p.1).bind (step op) := by
  cases x with
  | none => rfl
  | some p =>
    rw [Option.map_some, Option.bind_some, Option.bind_some]
    exact run_concat

/-- A member is a run of the steps of its life. -/
theorem family_eq (ops : List (FamilyOp ι α σ)) (i : ι) :
    family step ops i = (life ops i).bind fun p => run step p.2 p.1 := by
  induction ops using List.reverseRecOn with
  | nil => rfl
  | append_singleton ops op ih =>
    rw [family_concat, life_concat, ih]
    cases op with
    | idle => rfl
    | one j op =>
      rw [FamilyOp.acts, FamilyOp.lives]
      split
      · exact (bind_run_concat _ op).symm
      · rfl
    | all op => exact (bind_run_concat _ op).symm
    | start j s =>
      rw [FamilyOp.acts, FamilyOp.lives]
      split <;> rfl
    | stop j =>
      rw [FamilyOp.acts, FamilyOp.lives]
      split <;> rfl

/-- What holds of members when they start, and is kept by their steps, holds of a member after one
more step of the family. -/
theorem FamilyOp.acts_inv {I : σ → Prop} {x : Option σ} {i : ι} {op : FamilyOp ι α σ}
    (hx : ∀ s, x = some s → I s) (hstart : ∀ s, op = .start i s → I s)
    (hstep : ∀ a s s', op = .one i a ∨ op = .all a → x = some s → step a s = some s' → I s')
    {s : σ} (hs : op.acts step i x = some s) : I s := by
  have hbind : ∀ a, (op = .one i a ∨ op = .all a) → x.bind (step a) = some s → I s := by
    intro a ha hs
    obtain ⟨s₀, hs₀, hs⟩ := Option.bind_eq_some_iff.mp hs
    exact hstep a s₀ s ha hs₀ hs
  cases op with
  | idle => exact hx s hs
  | one j a =>
    rw [FamilyOp.acts] at hs
    split at hs
    · next hij => exact hbind a (.inl (hij ▸ rfl)) hs
    · exact hx s hs
  | all a => exact hbind a (.inr rfl) hs
  | start j s₀ =>
    rw [FamilyOp.acts] at hs
    split at hs
    · next hij => exact hstart s (by rw [hij, Option.some.inj hs])
    · exact hx s hs
  | stop j =>
    rw [FamilyOp.acts] at hs
    split at hs
    · exact absurd hs.symm (Option.some_ne_none s)
    · exact hx s hs

end Member

end Machine
