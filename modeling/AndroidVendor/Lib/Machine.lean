import Mathlib.Data.List.Induction
import Mathlib.Data.Option.Basic

/-!
# Machines and their runs

A machine is a step function that may fail to answer. A run feeds it a list of operations. The rules
below take what one step preserves to what a run preserves; `run_since` does so for a fact that only
one kind of operation can bring about, and finds in the run the operation that did.
-/

namespace Machine

variable {α σ : Type*} {step : α → σ → Option σ} {s t : σ} {op : α} {ops : List α}

/-- The state after all of `ops`. -/
def run (step : α → σ → Option σ) : List α → σ → Option σ
  | [], s => some s
  | op :: ops, s => (step op s).bind (run step ops)

@[simp] theorem run_nil : run step [] s = some s := rfl

theorem run_append (xs ys : List α) : run step (xs ++ ys) s = (run step xs s).bind (run step ys) := by
  induction xs generalizing s with
  | nil => rfl
  | cons op xs ih =>
    rw [List.cons_append, run, run, Option.bind_assoc]
    exact congrArg _ (funext fun s' => ih)

theorem run_concat : run step (ops ++ [op]) s = (run step ops s).bind (step op) := by
  rw [run_append]
  refine congrArg _ (funext fun s' => ?_)
  rw [run]
  cases step op s' <;> rfl

/-- An invariant of the step is an invariant of every run that answers. -/
theorem run_inv {I : σ → Prop} (hstep : ∀ op s s', I s → step op s = some s' → I s') (hs : I s)
    (hrun : run step ops s = some t) : I t := by
  induction ops generalizing s with
  | nil =>
    rw [run_nil, Option.some.injEq] at hrun
    exact hrun ▸ hs
  | cons op ops ih =>
    obtain ⟨s', hs', ht⟩ := Option.bind_eq_some_iff.mp hrun
    exact ih (hstep op s s' hs hs') ht

/-- Where the step answers under its invariant, every run answers. -/
theorem run_total {I : σ → Prop} (hstep : ∀ op s, I s → ∃ s', step op s = some s' ∧ I s')
    (hs : I s) (ops : List α) : ∃ t, run step ops s = some t ∧ I t := by
  induction ops generalizing s with
  | nil => exact ⟨s, rfl, hs⟩
  | cons op ops ih =>
    obtain ⟨s', hs', hI⟩ := hstep op s hs
    obtain ⟨t, ht, hIt⟩ := ih hI
    exact ⟨t, by rw [run, hs', Option.bind_some, ht], hIt⟩

/-- A fact that no step but `op` brings about, and that holds after a run, was brought about by an
`op` of that run and has held ever since. -/
theorem run_since {I P : σ → Prop} (hstep : ∀ op s s', I s → step op s = some s' → I s')
    (hP : ∀ op' s s', I s → step op' s = some s' → P s' → P s ∨ op' = op) (hs : I s) (hnot : ¬ P s)
    (hrun : run step ops s = some t) (ht : P t) :
    ∃ pre post, ops = pre ++ op :: post ∧
      ∀ mid, mid <+: post → ∃ s', run step (pre ++ op :: mid) s = some s' ∧ P s' := by
  induction ops using List.reverseRecOn generalizing t with
  | nil =>
    rw [run_nil, Option.some.injEq] at hrun
    exact absurd (hrun ▸ ht) hnot
  | append_singleton ops op' ih =>
    have hlast := hrun
    rw [run_concat] at hlast
    obtain ⟨u, hu, htu⟩ := Option.bind_eq_some_iff.mp hlast
    rcases hP op' u t (run_inv hstep hs hu) htu ht with hPu | rfl
    · obtain ⟨pre, post, rfl, hsince⟩ := ih hu hPu
      refine ⟨pre, post ++ [op'], by simp, fun mid hmid => ?_⟩
      rcases List.prefix_concat_iff.mp hmid with rfl | hmid
      · exact ⟨t, by simpa using hrun, ht⟩
      · exact hsince mid hmid
    · refine ⟨ops, [], rfl, fun mid hmid => ?_⟩
      obtain rfl : mid = [] := List.prefix_nil.mp hmid
      exact ⟨t, hrun, ht⟩

/-! ### Watching a machine -/

section Observe

variable {η : Type*} {note : α → σ → σ → η → η}

/-- The machine with an observer, who notes something about every step and never steps in. -/
def observe (step : α → σ → Option σ) (note : α → σ → σ → η → η) (op : α) (s : σ × η) :
    Option (σ × η) :=
  (step op s.1).map fun t => (t, note op s.1 t s.2)

theorem observe_eq_some {s t : σ × η} :
    observe step note op s = some t ↔ step op s.1 = some t.1 ∧ t.2 = note op s.1 t.1 s.2 := by
  rw [observe, Option.map_eq_some_iff]
  constructor
  · rintro ⟨t₁, ht, rfl⟩
    exact ⟨ht, rfl⟩
  · rintro ⟨ht, hn⟩
    exact ⟨t.1, ht, by rw [← hn]⟩

end Observe

/-! ### Runs under a condition -/

/-- The run of `ops` leads from `s` to `t`, and every step of it meets `C`: a condition on the
operations before it, the state it finds and the operation itself. -/
inductive Guarded (step : α → σ → Option σ) (C : List α → σ → α → Prop) (s : σ) :
    List α → σ → Prop
  | nil : Guarded step C s [] s
  | concat {ops : List α} {op : α} {t t' : σ} (h : Guarded step C s ops t) (hC : C ops t op)
      (hs : step op t = some t') : Guarded step C s (ops ++ [op]) t'

variable {C : List α → σ → α → Prop}

/-- An invariant that the step keeps under the condition, and that may speak about the past, holds
of every run that meets the condition. -/
theorem Guarded.inv {I : List α → σ → Prop}
    (hstep : ∀ ops op t t', I ops t → C ops t op → step op t = some t' → I (ops ++ [op]) t')
    (hs : I [] s) (h : Guarded step C s ops t) : I ops t := by
  induction h with
  | nil => exact hs
  | concat _ hC hs' ih => exact hstep _ _ _ _ ih hC hs'

theorem Guarded.mono {C' : List α → σ → α → Prop} (hC : ∀ ops t op, C ops t op → C' ops t op)
    (h : Guarded step C s ops t) : Guarded step C' s ops t := by
  induction h with
  | nil => exact .nil
  | concat _ hop hs ih => exact ih.concat (hC _ _ _ hop) hs

/-- And each step of such a run may count on it. -/
theorem Guarded.and_inv {I : List α → σ → Prop}
    (hstep : ∀ ops op t t', I ops t → C ops t op → step op t = some t' → I (ops ++ [op]) t')
    (hs : I [] s) (h : Guarded step C s ops t) :
    Guarded step (fun ops t op => C ops t op ∧ I ops t) s ops t := by
  induction h with
  | nil => exact .nil
  | concat h hC hs' ih => exact ih.concat ⟨hC, h.inv hstep hs⟩ hs'

/-- Every step that the operations `ops` take from `s` meets `C`, after the operations `past`. -/
def Meets (step : α → σ → Option σ) (C : List α → σ → α → Prop) : List α → List α → σ → Prop
  | _, [], _ => True
  | past, op :: ops, s =>
    C past s op ∧ ∀ s', step op s = some s' → Meets step C (past ++ [op]) ops s'

/-- Over decidable conditions a concrete list of operations can be checked by evaluation. -/
instance Meets.instDecidable [∀ past s op, Decidable (C past s op)] :
    ∀ past ops s, Decidable (Meets step C past ops s)
  | _, [], _ => isTrue trivial
  | past, op :: ops, s =>
    have : Decidable (∀ s', step op s = some s' → Meets step C (past ++ [op]) ops s') :=
      match step op s with
      | none => isTrue fun _ h' => nomatch h'
      | some s' =>
        match instDecidable (past ++ [op]) ops s' with
        | isTrue hC => isTrue fun _ h' => Option.some.inj h' ▸ hC
        | isFalse hC => isFalse fun hall => hC (hall s' rfl)
    inferInstanceAs (Decidable (_ ∧ _))

theorem Guarded.append {past : List α} {s₀ : σ} (h : Guarded step C s₀ past s)
    (hC : Meets step C past ops s) (hrun : run step ops s = some t) :
    Guarded step C s₀ (past ++ ops) t := by
  induction ops generalizing past s with
  | nil =>
    rw [run_nil, Option.some.injEq] at hrun
    rw [List.append_nil]
    exact hrun ▸ h
  | cons op ops ih =>
    obtain ⟨s', hs', ht⟩ := Option.bind_eq_some_iff.mp hrun
    rw [← List.singleton_append, ← List.append_assoc]
    exact ih (h.concat hC.1 hs') (hC.2 s' hs') ht

theorem Meets.guarded (hC : Meets step C [] ops s) (hrun : run step ops s = some t) :
    Guarded step C s ops t :=
  Guarded.append .nil hC hrun

theorem Meets.of_forall {past : List α} (h : ∀ past s, ∀ op ∈ ops, C past s op) :
    Meets step C past ops s := by
  induction ops generalizing past s with
  | nil => trivial
  | cons op ops ih =>
    exact ⟨h past s op List.mem_cons_self,
      fun _ _ => ih fun past s op hmem => h past s op (List.mem_cons_of_mem _ hmem)⟩

theorem Meets.mono {C' : List α → σ → α → Prop} {past : List α}
    (hC : ∀ past s, ∀ op ∈ ops, C past s op → C' past s op) (h : Meets step C past ops s) :
    Meets step C' past ops s := by
  induction ops generalizing past s with
  | nil => trivial
  | cons op ops ih =>
    exact ⟨hC past s op List.mem_cons_self h.1,
      fun t ht => ih (fun past s op hmem => hC past s op (List.mem_cons_of_mem _ hmem)) (h.2 t ht)⟩

/-- Where `C` says when a step answers, a run answers exactly if it meets `C`. -/
theorem run_isSome_iff {C : σ → α → Prop} {past : List α}
    (hstep : ∀ op s, (step op s).isSome ↔ C s op) :
    (run step ops s).isSome ↔ Meets step (fun _ s op => C s op) past ops s := by
  induction ops generalizing past s with
  | nil => exact iff_of_true rfl trivial
  | cons op ops ih =>
    rw [run, Meets, ← hstep]
    cases hs : step op s with
    | none => exact iff_of_false Bool.false_ne_true fun h => Bool.false_ne_true h.1
    | some s' =>
      rw [Option.bind_some, @ih s' (past ++ [op])]
      refine ⟨fun h => ⟨rfl, fun t ht => ?_⟩, fun h => h.2 s' rfl⟩
      exact Option.some.inj ht ▸ h

/-- A run meets the condition as far as it goes, and from there on. -/
theorem meets_append {past xs ys : List α} :
    Meets step C past (xs ++ ys) s ↔
      Meets step C past xs s ∧ ∀ t, run step xs s = some t → Meets step C (past ++ xs) ys t := by
  induction xs generalizing past s with
  | nil => simp [Meets]
  | cons op xs ih =>
    have happ : past ++ [op] ++ xs = past ++ op :: xs := List.append_assoc ..
    rw [List.cons_append, Meets, Meets, and_assoc]
    refine and_congr_right fun _ => ?_
    constructor
    · intro h
      refine ⟨fun s' hs' => (ih.mp (h s' hs')).1, fun t ht => ?_⟩
      obtain ⟨s', hs', ht'⟩ := Option.bind_eq_some_iff.mp ht
      exact happ ▸ (ih.mp (h s' hs')).2 t ht'
    · rintro ⟨hxs, hys⟩ s' hs'
      refine ih.mpr ⟨hxs s' hs', fun t ht => happ ▸ hys t ?_⟩
      rw [run, hs', Option.bind_some, ht]

/-- A run that meets the condition meets it at each of its steps. -/
theorem Meets.last {past : List α} (h : Meets step C past (ops ++ [op]) s)
    (hrun : run step ops s = some t) : C (past ++ ops) t op :=
  ((meets_append.mp h).2 t hrun).1

/-- An invariant that the step keeps under the condition holds after a run that meets it. -/
theorem Meets.inv {I : σ → Prop} {past : List α}
    (hstep : ∀ past s op t, I s → C past s op → step op s = some t → I t)
    (h : Meets step C past ops s) (hrun : run step ops s = some t) (hs : I s) : I t := by
  induction ops generalizing past s with
  | nil =>
    rw [run_nil, Option.some.injEq] at hrun
    exact hrun ▸ hs
  | cons op ops ih =>
    obtain ⟨s', hs', ht⟩ := Option.bind_eq_some_iff.mp hrun
    exact ih (h.2 s' hs') ht (hstep past s op s' hs h.1 hs')

/-- Conditions that agree wherever `I` holds are met by the same runs, when the steps that meet them
keep `I`. -/
theorem meets_iff_of_kept {C' : List α → σ → α → Prop} {I : List α → σ → Prop} {past : List α}
    (hkept : ∀ past s op t, I past s → C past s op → step op s = some t → I (past ++ [op]) t)
    (hC : ∀ past s op, I past s → (C past s op ↔ C' past s op)) (hI : I past s) :
    Meets step C past ops s ↔ Meets step C' past ops s := by
  induction ops generalizing past s with
  | nil => exact Iff.rfl
  | cons op ops ih =>
    rw [Meets, Meets, ← hC past s op hI]
    refine and_congr_right fun hop => forall_congr' fun t => ?_
    constructor
    · intro h ht
      exact (ih (hkept past s op t hI hop ht)).mp (h ht)
    · intro h ht
      exact (ih (hkept past s op t hI hop ht)).mpr (h ht)

theorem meets_and {C' : List α → σ → α → Prop} {past : List α} :
    Meets step (fun past s op => C past s op ∧ C' past s op) past ops s ↔
      Meets step C past ops s ∧ Meets step C' past ops s := by
  induction ops generalizing past s with
  | nil => exact (and_self_iff).symm
  | cons op ops ih =>
    rw [Meets, Meets, Meets, and_and_and_comm]
    refine and_congr_right fun _ => ?_
    rw [← forall_and]
    refine forall_congr' fun t => ?_
    rw [← imp_and]
    exact imp_congr_right fun _ => ih

/-- Conditions that agree under an invariant that the runs meeting `N` have. -/
theorem meets_iff_of_guard {N C' : List α → σ → α → Prop} {I : List α → σ → Prop} {past : List α}
    (hkept : ∀ past s op t, I past s → N past s op → step op s = some t → I (past ++ [op]) t)
    (hC : ∀ past s op, I past s → (C past s op ↔ C' past s op)) (hI : I past s)
    (hN : Meets step N past ops s) : Meets step C past ops s ↔ Meets step C' past ops s := by
  have hiff : Meets step (fun past s op => N past s op ∧ C past s op) past ops s ↔
      Meets step (fun past s op => N past s op ∧ C' past s op) past ops s :=
    meets_iff_of_kept (fun past s op t hI hop => hkept past s op t hI hop.1)
      (fun past s op hI => and_congr_right fun _ => hC past s op hI) hI
  rwa [meets_and, meets_and, and_iff_right hN, and_iff_right hN] at hiff

/-- A run stays good as long as its steps meet `C`, and once it is bad it stays so. -/
theorem good_or_bad {N : List α → σ → α → Prop} {G B : σ → Prop} {past : List α}
    (hgood : ∀ past s op t, G s → N past s op → step op s = some t →
      (C past s op → G t) ∧ (¬ C past s op → B t))
    (hbad : ∀ past s op t, B s → N past s op → step op s = some t → B t)
    (hN : Meets step N past ops s) (hrun : run step ops s = some t) (hs : G s) :
    Meets step C past ops s ∧ G t ∨ ¬ Meets step C past ops s ∧ B t := by
  induction ops generalizing past s with
  | nil =>
    rw [run_nil, Option.some.injEq] at hrun
    exact .inl ⟨trivial, hrun ▸ hs⟩
  | cons op ops ih =>
    obtain ⟨s', hs', ht⟩ := Option.bind_eq_some_iff.mp hrun
    obtain ⟨hstay, hfall⟩ := hgood past s op s' hs hN.1 hs'
    by_cases hC : C past s op
    · have hiff : Meets step C past (op :: ops) s ↔ Meets step C (past ++ [op]) ops s' := by
        refine ⟨fun h => h.2 s' hs', fun h => ⟨hC, fun u hu => ?_⟩⟩
        exact Option.some.inj (hs'.symm.trans hu) ▸ h
      rw [hiff]
      exact ih (hN.2 s' hs') ht (hstay hC)
    · exact .inr ⟨fun h => hC h.1, (hN.2 s' hs').inv hbad ht (hfall hC)⟩

/-- Where every step answers, and a step out of a state with `I` leads to one exactly if it meets
the condition, the runs that meet it are those of which every state has `I`. -/
theorem forall_prefix_iff_meets {C : σ → α → Prop} {J I : σ → Prop} {past : List α}
    (hJ : ∀ op s, J s → ∃ t, step op s = some t ∧ J t)
    (hstep : ∀ op s t, J s → I s → step op s = some t → (I t ↔ C s op)) (hJs : J s) (hI : I s) :
    (∀ pre, pre <+: ops → ∃ t, run step pre s = some t ∧ I t) ↔
      Meets step (fun _ s op => C s op) past ops s := by
  induction ops generalizing past s with
  | nil =>
    refine iff_of_true (fun pre hpre => ⟨s, ?_, hI⟩) trivial
    rw [List.prefix_nil.mp hpre, run_nil]
  | cons op ops ih =>
    obtain ⟨u, hs, hJu⟩ := hJ op s hJs
    have hu : I u ↔ C s op := hstep op s u hJs hI hs
    have hrun (pre : List α) : run step (op :: pre) s = run step pre u := by
      rw [run, hs, Option.bind_some]
    constructor
    · intro hall
      obtain ⟨u', hu', hIu⟩ := hall [op] (by simp)
      rw [hrun, run_nil, Option.some.injEq] at hu'
      subst hu'
      refine ⟨hu.mp hIu, fun t ht => ?_⟩
      obtain rfl := Option.some.inj (hs.symm.trans ht)
      refine (ih hJu hIu).mp fun pre hpre => ?_
      rw [← hrun]
      exact hall (op :: pre) (List.cons_prefix_cons.mpr ⟨rfl, hpre⟩)
    · rintro ⟨hC, hrest⟩ pre hpre
      cases pre with
      | nil => exact ⟨s, rfl, hI⟩
      | cons op' pre =>
        obtain ⟨rfl, hpre'⟩ := List.cons_prefix_cons.mp hpre
        rw [hrun]
        exact (ih hJu (hu.mpr hC)).mpr (hrest u hs) pre hpre'

/-- Where the runs that meet `N` have `J`, and a step out of a state with `I` leads to one exactly if
it meets the condition, the runs that meet it are those of which every state has `I`. -/
theorem forall_prefix_iff_of_guard {N : List α → σ → α → Prop} {J I : σ → Prop} {past : List α}
    (hJ : ∀ past s op t, J s → N past s op → step op s = some t → J t)
    (hC : ∀ past s op, J s → I s → N past s op → (C past s op ↔ ∀ t, step op s = some t → I t))
    (hJs : J s) (hI : I s) (hN : Meets step N past ops s) :
    (∀ pre t, pre <+: ops → run step pre s = some t → I t) ↔ Meets step C past ops s := by
  induction ops generalizing past s with
  | nil =>
    refine iff_of_true (fun pre t hpre ht => ?_) trivial
    rw [List.prefix_nil.mp hpre, run_nil, Option.some.injEq] at ht
    exact ht ▸ hI
  | cons op ops ih =>
    have hiff := hC past s op hJs hI hN.1
    constructor
    · intro hall
      have hkeeps : ∀ u, step op s = some u → I u := fun u hu =>
        hall [op] u (by simp) (by rw [run, hu, Option.bind_some, run_nil])
      refine ⟨hiff.mpr hkeeps, fun u hu => ?_⟩
      refine (ih (hJ past s op u hJs hN.1 hu) (hkeeps u hu) (hN.2 u hu)).mp fun pre t hpre ht => ?_
      exact hall (op :: pre) t (List.cons_prefix_cons.mpr ⟨rfl, hpre⟩)
        (by rw [run, hu, Option.bind_some, ht])
    · rintro ⟨hop, hrest⟩ pre t hpre ht
      cases pre with
      | nil =>
        rw [run_nil, Option.some.injEq] at ht
        exact ht ▸ hI
      | cons op' pre =>
        obtain ⟨rfl, hpre'⟩ := List.cons_prefix_cons.mp hpre
        obtain ⟨u, hu, htu⟩ := Option.bind_eq_some_iff.mp ht
        exact (ih (hJ past s _ u hJs hN.1 hu) (hiff.mp hop u hu) (hN.2 u hu)).mpr (hrest u hu) pre t
          hpre' htu

/-- Under an invariant of the step, conditions that agree are met by the same runs. -/
theorem meets_iff_of_inv {C' : List α → σ → α → Prop} {I : List α → σ → Prop} {past : List α}
    (hinv : ∀ past s op t, I past s → step op s = some t → I (past ++ [op]) t)
    (hC : ∀ past s op, I past s → (C past s op ↔ C' past s op)) (hI : I past s) :
    Meets step C past ops s ↔ Meets step C' past ops s :=
  meets_iff_of_kept (fun past s op t hI _ => hinv past s op t hI) hC hI

end Machine
