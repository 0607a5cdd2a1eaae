import AndroidVendor.Ratd.FreedOnce

/-!
# Entries with a freed buffer

MPD frees a buffer at once (`MPD_MsgMemfree`) unless it was sent again, and looks for no entry with
it. `DequeFreeReTransBuffer` does look, but not at the entry that the dispatcher has taken out, and
behind the end of the array instead of at its front.

## Main results

* `Books.noDangling_step` — the steps after which still no entry has a freed buffer
* `noDangling_run` — the runs in which no entry ever has one
-/

namespace AndroidVendor.Ratd.SendQueues

open Mpd Machine Queue

variable {F : ℕ → Prop} {s t : System} {a : ℕ}

/-- No entry that is still going to be sent has a transmit buffer that was freed. -/
def System.NoDangling (F : ℕ → Prop) (s : System) : Prop :=
  ∀ a, F a → some a ∈ s.freed → ¬ s.Waiting a

/-- No queue takes a buffer that MPD has given back. -/
theorem Told.queuedOn_eq_zero {as bs : List Action} (h : Told F (as ++ bs)) (hF : F a)
    (hback : a ∈ freesOf as) (f : ℕ) : queuedOn f a bs = 0 := by
  refine List.countP_eq_zero.mpr fun x hx hqueues => ?_
  obtain ⟨pre, post, rfl⟩ := List.append_of_mem hx
  have hfair := h (as ++ pre) x post (by rw [List.append_assoc])
  cases x with
  | send deviceId m len release ok =>
    obtain rfl := beq_iff_eq.mp (Bool.and_eq_true_iff.mp (Bool.and_eq_true_iff.mp hqueues).1).2
    rw [Action.Fair] at hfair
    split at hfair
    · exact hfair hF
    · refine hfair.2 ?_
      rw [freesOf_append, Multiset.mem_add]
      exact .inl hback
  | _ => cases hqueues

@[simp] theorem setQueue_written (s : System) (g : ℕ) (Q : Queue) (f : ℕ) :
    ((s.setQueue g Q).flow f).written = (s.flow f).written := by
  rw [System.setQueue]
  dsimp only
  by_cases hf : f = g
  · rw [hf, Function.update_self]
  · rw [Function.update_of_ne hf]

theorem perform_written {netStatus : Bool} {x : Action} (hp : s.perform netStatus x = some t) (f : ℕ) :
    (t.flow f).written = (s.flow f).written := by
  cases x with
  | send deviceId m len release ok =>
    obtain ⟨⟨t', ok'⟩, hput, hok⟩ := Option.bind_eq_some_iff.mp hp
    cases (Option.ite_none_right_eq_some.mp hok).2
    rw [System.putMsgToSendQueue] at hput
    split at hput
    · cases hput
      exact setQueue_written s _ _ f
    split at hput
    · obtain ⟨o, -, heq⟩ := Option.map_eq_some_iff.mp hput
      cases heq
      exact setQueue_written s _ _ f
    · cases hput
      rfl
  | freeResend m g =>
    rw [System.perform, System.freeResendBuf] at hp
    split at hp
    · obtain ⟨o, -, rfl⟩ := Option.map_eq_some_iff.mp hp
      exact setQueue_written s _ _ f
    · cases hp
      rfl
  | _ =>
    cases hp
    rfl

/-- What a dispatcher is done with stays so. -/
theorem Event.step_written {e : Event} (hs : e.step s = some t) (f : ℕ) :
    (s.flow f).written <+: (t.flow f).written := by
  cases e with
  | call e allocs sends =>
    obtain ⟨u, -, rfl⟩ := Option.map_eq_some_iff.mp (Option.ite_none_right_eq_some.mp hs).2
    exact List.prefix_rfl
  | act netStatus =>
    rw [Event.step] at hs
    split at hs
    · cases hs
    obtain ⟨t', ht', rfl⟩ := Option.map_eq_some_iff.mp hs
    exact (perform_written ht' f) ▸ List.prefix_rfl
  | dequeue g =>
    rw [Event.step, System.dequeue] at hs
    split at hs
    · cases hs
    obtain ⟨e, -, rfl⟩ := Option.map_eq_some_iff.mp hs
    dsimp only
    by_cases hf : f = g
    · rw [hf, Function.update_self]
    · rw [Function.update_of_ne hf]
  | write g =>
    obtain ⟨e, -, rfl⟩ := Option.map_eq_some_iff.mp hs
    dsimp only
    by_cases hf : f = g
    · rw [hf, Function.update_self]
      exact List.prefix_append _ _
    · rw [Function.update_of_ne hf]

/-- An entry with a buffer that MPD has given back has waited before. -/
theorem Books.waiting_of_waiting (h : Books F s) {e : Event} (hs : e.step s = some t) (ht : Books F t)
    (hF : F a) (hback : a ∈ freesOf s.done) (hw : t.Waiting a) : s.Waiting a := by
  obtain ⟨x, hdone, hmove⟩ := h.moved hs
  by_contra hnone
  refine SendQueues.not_waiting_iff.mpr (fun f => ?_) hw
  have hnew : queuedOn f a x = 0 := Told.queuedOn_eq_zero (hdone ▸ ht.told_done) hF hback f
  have hle := (hmove f).le a hF
  have hwritten : (s.flow f).written.countP (ElemType.Refers a) ≤
      (t.flow f).written.countP (ElemType.Refers a) :=
    (Event.step_written hs f).sublist.countP_le
  have hbefore := SendQueues.not_waiting_iff.mp hnone f
  rw [Flow.ahead_count, Flow.ahead_count] at hle
  omega

/-- **After which steps no entry has a freed buffer.** -/
theorem Books.noDangling_step (h : Books F s) (hwithin : s.Within F) (hsafe : s.NoDangling F)
    {past : List Event} {e : Event} (hnames : e.Named F past s) :
    e.WritesFirst F past s ↔ ∀ t, e.step s = some t → t.NoDangling F := by
  rw [← h.safe_iff past e, Event.Safe]
  refine forall₂_congr fun t hs => ?_
  obtain ⟨l, -, hfreed, -⟩ := h.freed_step past hs
  rw [freesSafely_of_append hfreed]
  constructor
  · intro hnew a hF hmem
    rw [hfreed, List.mem_append] at hmem
    rcases hmem with hold | hl
    · have hback : a ∈ freesOf s.done :=
        Multiset.count_pos.mp ((List.count_pos_iff.mpr hold).trans_le (hwithin a hF))
      exact fun hw => hsafe a hF hold (h.waiting_of_waiting hs (h.step hnames hs) hF hback hw)
    · exact hnew a hF hl
  · intro hall a hF hl
    exact hall a hF (hfreed ▸ List.mem_append_right _ hl)

/-- **Use after free.** In every state of a run of MPD and the dispatchers no entry that is still
going to be sent has a freed buffer, exactly if MPD frees buffers only after they were written, and
the entries that `DequeFreeReTransBuffer` is to take back are where it looks. -/
theorem noDangling_run (F : ℕ → Prop) (u : UserInfo) (heap : ℕ → ℕ → ElemType) {events : List Event}
    (hnames : Meets Event.step (Event.Named F) [] events (System.start u heap)) :
    (∀ pre t, pre <+: events → run Event.step pre (System.start u heap) = some t → t.NoDangling F) ↔
      Meets Event.step (Event.WritesFirst F) [] events (System.start u heap) :=
  forall_prefix_iff_of_guard (J := fun s => Books F s ∧ s.Within F)
    (fun past _ _ _ h hN hs => ⟨h.1.step hN hs, h.1.within_step h.2 past hs⟩)
    (fun _ _ _ h hsafe hN => h.1.noDangling_step h.2 hsafe hN)
    ⟨books_start F u heap, fun _ _ => le_rfl⟩ (fun _ _ hmem => absurd hmem List.not_mem_nil) hnames

theorem noDangling_run_exchange :
    (run Event.step (exchange 0 1) (System.start {} fun _ _ => ⟨0, none, 0, false, false⟩)).map (·.freed) =
        some [some 1, some 2] ∧
      ∀ pre t, pre <+: exchange 0 1 →
        run Event.step pre (System.start {} fun _ _ => ⟨0, none, 0, false, false⟩) = some t →
          t.NoDangling (· = 1) :=
  ⟨by decide +kernel, (noDangling_run (· = 1) {} _ (exchange_named _ _)).mpr exchange_writesFirst⟩

/-- The subflow goes down while its first packet waits. -/
def closedEarly (f : Fin 3) (deviceId : ℕ) : List Event :=
  [.call (.stateInd deviceId 3) (fun _ => none) fun _ => true,
    .call (.traffic (.send (some f) ⟨1, List.replicate 20 0⟩ 20)) (fun _ => none) fun _ => true,
    .act true, .call (.stateInd deviceId 0) (fun _ => none) fun _ => true, .act true]

/-- `MPD_clearTxWin` frees the packet, and the dispatcher is going to write it. -/
theorem noDangling_run_closedEarly :
    Meets Event.step (Event.Named (· = 1)) [] (closedEarly 0 1)
        (System.start {} fun _ _ => ⟨0, none, 0, false, false⟩) ∧
      ∃ t, run Event.step (closedEarly 0 1)
        (System.start {} fun _ _ => ⟨0, none, 0, false, false⟩) = some t ∧ ¬ t.NoDangling (· = 1) := by
  constructor
  · refine firstSend_named _ _ fun past s e he => ?_
    simp only [List.mem_cons, List.not_mem_nil, or_false] at he
    rcases he with rfl | rfl | rfl
    all_goals first
      | trivial
      | rintro op ⟨⟩
  · have heval : (run Event.step (closedEarly 0 1)
        (System.start {} fun _ _ => ⟨0, none, 0, false, false⟩)).map
          (fun t => decide (some 1 ∈ t.freed ∧ ∃ e ∈ (t.flow 0).ahead, e.Refers 1)) = some true := by
      decide +kernel
    obtain ⟨t, hrun, hproj⟩ := Option.map_eq_some_iff.mp heval
    obtain ⟨hfreed, e, he, hrefers⟩ := of_decide_eq_true hproj
    exact ⟨t, hrun, fun hsafe => hsafe 1 rfl hfreed ⟨0, e, he, hrefers⟩⟩

end AndroidVendor.Ratd.SendQueues
