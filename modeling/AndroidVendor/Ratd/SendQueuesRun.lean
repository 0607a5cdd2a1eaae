import AndroidVendor.Mpd.SendLogRun
import AndroidVendor.Ratd.QueueEntries
import AndroidVendor.Ratd.SendQueues

/-!
# Transmit buffers between MPD and the dispatchers

A transmit buffer belongs to a node of a tx window, and to the entries of a queue that have it. Of
the entries that the queues took of it, each waits, is about to be written, or is written, until MPD
gives the buffer back.

`F` is the set of the names of transmit buffers; see `Op.Fresh` for what is asked of names.

## Main results

* `Books` — what every step keeps
* `useAfterFree_run` — when MPD frees no buffer that a dispatcher is still going to write
-/

namespace AndroidVendor.Ratd.SendQueues

open Mpd Machine Queue

variable {F : ℕ → Prop} {s t : System} {a f : ℕ}

/-! ### The books of one subflow -/

/-- What the dispatcher is still going to look at. -/
def Flow.ahead (fl : Flow) : List ElemType := fl.elem.toList ++ fl.queue.entries

/-- How many entries with the buffer the queue took, as far as they are going to be sent or were. -/
def Flow.count (fl : Flow) (a : ℕ) : ℕ := (fl.written ++ fl.ahead).countP (ElemType.Refers a)

/-- An entry that is still going to be sent has the buffer. -/
def System.Waiting (s : System) (a : ℕ) : Prop := ∃ f, ∃ e ∈ (s.flow f).ahead, e.Refers a

/-- The queue of subflow `f` takes the buffer `a`. -/
def queuesOn (f a : ℕ) : Action → Bool
  | .send deviceId m _ _ ok => ok && m.addr == a && deviceId / 2 == f
  | _ => false

/-- How often it took it. -/
def queuedOn (f a : ℕ) (as : List Action) : ℕ := as.countP (queuesOn f a)

/-- The queue is in order, and does not free transmit buffers. -/
structure Flow.Sound (F : ℕ → Prop) (fl : Flow) : Prop where
  inside : Inside queueMaxsize fl.queue
  lent : ∀ a, F a → ∀ e ∈ fl.ahead, e.bufferAddr = some a → e.release = false

/-- From `fl` to `fl'`: `new` entries with each buffer are taken, and none is lost but of those that
are gone. -/
structure Flow.Move (F : ℕ → Prop) (new : ℕ → ℕ) (gone : ℕ → Prop) (fl fl' : Flow) : Prop where
  sound : fl.Sound F → fl'.Sound F
  le : ∀ a, F a → fl'.count a ≤ fl.count a + new a
  eq : ∀ a, F a → ¬ gone a → fl'.count a = fl.count a + new a

variable {fl fl' : Flow} {new : ℕ → ℕ} {gone : ℕ → Prop}

theorem Flow.Move.refl (hnew : ∀ a, F a → new a = 0) : Flow.Move F new gone fl fl where
  sound h := h
  le a _ := Nat.le_add_right _ _
  eq a hF _ := by rw [hnew a hF, Nat.add_zero]

theorem Flow.count_eq (fl : Flow) (a : ℕ) : fl.count a =
    fl.written.countP (ElemType.Refers a) + fl.elem.toList.countP (ElemType.Refers a) +
      fl.queue.entries.countP (ElemType.Refers a) := by
  rw [count, ahead, List.countP_append, List.countP_append, Nat.add_assoc]

theorem Flow.mem_ahead {e : ElemType} : e ∈ fl.ahead ↔ fl.elem = some e ∨ e ∈ fl.queue.entries := by
  rw [ahead, List.mem_append, Option.mem_toList]

/-- Entries that have the buffer are all there is to count. -/
theorem countP_refers_copies (Q : Queue) (a : ℕ) :
    Q.entries.countP (ElemType.Refers a) = (Q.copies a).countP (ElemType.Refers a) := by
  rw [Queue.copies, List.countP_filter]
  refine List.countP_congr fun e _ => ?_
  simp only [decide_eq_true_eq, Bool.and_eq_true]
  exact ⟨fun h => ⟨h, h.1⟩, fun h => h.1⟩

/-- The queue changes, and what it holds of transmit buffers does not. -/
theorem Flow.Move.setQueue {Q : Queue} (hin : Inside queueMaxsize Q)
    (hlent : ∀ e ∈ Q.entries, ∀ a, F a → e.bufferAddr = some a →
      ∃ e' ∈ fl.queue.entries, e'.bufferAddr = some a ∧ e.release = e'.release)
    (hle : ∀ a, F a → Q.entries.countP (ElemType.Refers a) ≤ fl.queue.entries.countP (ElemType.Refers a))
    (heq : ∀ a, F a → ¬ gone a → Q.copies a = fl.queue.copies a) :
    Flow.Move F (fun _ => 0) gone fl { fl with queue := Q } where
  sound h := by
    refine ⟨hin, fun a hF e he ha => ?_⟩
    rcases Flow.mem_ahead.mp he with helem | hentry
    · exact h.lent a hF e (Flow.mem_ahead.mpr (.inl helem)) ha
    · obtain ⟨e', hmem, ha', hrel⟩ := hlent e hentry a hF ha
      exact hrel.trans (h.lent a hF e' (Flow.mem_ahead.mpr (.inr hmem)) ha')
  le a hF := by
    have := hle a hF
    rw [Flow.count_eq, Flow.count_eq]
    dsimp only
    omega
  eq a hF hgone := by
    rw [Flow.count_eq, Flow.count_eq, Nat.add_zero]
    dsimp only
    rw [countP_refers_copies Q, heq a hF hgone, ← countP_refers_copies]

/-- No entry with a transmit buffer is touched. -/
theorem Flow.Move.of_copies {Q : Queue} (hin : Inside queueMaxsize Q)
    (h : ∀ a, F a → Q.copies a = fl.queue.copies a) :
    Flow.Move F (fun _ => 0) gone fl { fl with queue := Q } := by
  refine .setQueue hin (fun e he a hF ha => ⟨e, ?_, ha, rfl⟩) (fun a hF => ?_) fun a hF _ => h a hF
  · have hcopies : e ∈ Q.copies a := List.mem_filter.mpr ⟨he, by simpa using ha⟩
    rw [h a hF] at hcopies
    exact (List.mem_filter.mp hcopies).1
  · rw [countP_refers_copies, h a hF, ← countP_refers_copies]

/-- The queue takes an entry. -/
theorem Flow.Move.enqueue {Q : Queue} {val : ElemType} (hin : Inside queueMaxsize Q)
    (hentries : Q.entries = fl.queue.entries ++ [val])
    (hval : ∀ a, F a → val.bufferAddr = some a → val.release = false) :
    Flow.Move F (fun a => if val.Refers a then 1 else 0) gone fl { fl with queue := Q } := by
  have hcount : ∀ a, ({ fl with queue := Q } : Flow).count a =
      fl.count a + if val.Refers a then 1 else 0 := by
    intro a
    rw [Flow.count_eq, Flow.count_eq, hentries, List.countP_append, List.countP_singleton,
      ← Nat.add_assoc]
    simp only [decide_eq_true_eq]
  refine ⟨fun h => ⟨hin, fun a hF e he ha => ?_⟩, fun a _ => (hcount a).le,
    fun a _ _ => hcount a⟩
  rcases Flow.mem_ahead.mp he with helem | hentry
  · exact h.lent a hF e (Flow.mem_ahead.mpr (.inl helem)) ha
  · rw [hentries] at hentry
    rcases List.mem_append.mp hentry with hentry | hentry
    · exact h.lent a hF e (Flow.mem_ahead.mpr (.inr hentry)) ha
    · rw [List.mem_singleton.mp hentry] at ha ⊢
      exact hval a hF ha

/-- The dispatcher takes an entry out. -/
theorem Flow.Move.dequeue {e : ElemType} (h : Inside queueMaxsize fl.queue) (hidle : fl.elem = none)
    (he : fl.queue.dequeue.2 = some e) :
    Flow.Move F (fun _ => 0) gone fl
      { fl with queue := fl.queue.dequeue.1, elem := if e.justNotSend then none else some e } := by
  obtain ⟨hin, hentries⟩ := entries_dequeue h he
  have hcount : ∀ a, ({ fl with queue := fl.queue.dequeue.1
                                elem := if e.justNotSend then none else some e } : Flow).count a =
      fl.count a := by
    intro a
    rw [Flow.count_eq, Flow.count_eq, hentries, hidle]
    cases hjust : e.justNotSend with
    | true => simp [ElemType.Refers, hjust]
    | false =>
      simp only [Bool.false_eq_true, if_false, Option.toList_some, Option.toList_none, List.countP_cons,
        List.countP_nil]
      omega
  refine ⟨fun hs => ⟨hin, fun a hF e' he' ha => ?_⟩, fun a _ => (hcount a).le, fun a _ _ => hcount a⟩
  refine hs.lent a hF e' (Flow.mem_ahead.mpr (.inr ?_)) ha
  rw [hentries]
  rcases Flow.mem_ahead.mp he' with helem | hentry
  · dsimp only at helem
    split at helem
    · cases helem
    · exact Option.some.inj helem ▸ List.mem_cons_self
  · exact List.mem_cons_of_mem e hentry

/-- The dispatcher writes its entry. -/
theorem Flow.Move.write {e : ElemType} (he : fl.elem = some e) :
    Flow.Move F (fun _ => 0) gone fl { fl with elem := none, written := fl.written ++ [e] } := by
  have hcount : ∀ a, ({ fl with elem := none, written := fl.written ++ [e] } : Flow).count a =
      fl.count a := by
    intro a
    rw [Flow.count_eq, Flow.count_eq, he]
    simp [List.countP_append]
  refine ⟨fun h => ⟨h.inside, fun a hF e' he' => h.lent a hF e' ?_⟩, fun a _ => (hcount a).le,
    fun a _ _ => hcount a⟩
  rcases Flow.mem_ahead.mp he' with helem | hentry
  · cases helem
  · exact Flow.mem_ahead.mpr (.inr hentry)

/-! ### The books of the system -/

/-- The session is in order, and the subflows are; the queues took what MPD asked for, and nothing of
it is lost as long as MPD has not given it back. -/
structure Books (F : ℕ → Prop) (s : System) : Prop where
  session : Transmits F [] s.user
  log : s.user.out = s.done ++ s.todo
  sound : ∀ f, (s.flow f).Sound F
  le : ∀ f a, F a → (s.flow f).count a ≤ queuedOn f a s.done
  eq : ∀ f a, F a → a ∉ freesOf s.done → (s.flow f).count a = queuedOn f a s.done

@[simp] theorem queuedOn_append (f a : ℕ) (as bs : List Action) :
    queuedOn f a (as ++ bs) = queuedOn f a as + queuedOn f a bs :=
  List.countP_append

/-- MPD asks for `x`, and the subflows move as it says. -/
theorem Books.next (h : Books F s) {x : List Action} (hsession : Transmits F [] t.user)
    (hlog : t.user.out = t.done ++ t.todo) (hdone : t.done = s.done ++ x)
    (hflow : ∀ f, Flow.Move F (queuedOn f · x) (· ∈ freesOf x) (s.flow f) (t.flow f)) :
    Books F t where
  session := hsession
  log := hlog
  sound f := (hflow f).sound (h.sound f)
  le f a hF := by
    have hle := (hflow f).le a hF
    have hold := h.le f a hF
    rw [hdone, queuedOn_append]
    omega
  eq f a hF hnot := by
    rw [hdone, freesOf_append, Multiset.mem_add, not_or] at hnot
    rw [hdone, queuedOn_append, (hflow f).eq a hF hnot.2, h.eq f a hF hnot.1]

/-- What MPD asks for next is right. -/
theorem Books.fair (h : Books F s) {x : Action} {todo : List Action} (hs : s.todo = x :: todo) :
    x.Fair F s.done :=
  h.session.story.told s.done x todo (by rw [h.log, hs])

/-- One subflow moves, and the others stay as they are. -/
theorem forall_move {x : List Action} {g : ℕ} {fl : Flow}
    (hg : Flow.Move F (queuedOn g · x) (· ∈ freesOf x) (s.flow g) fl)
    (hothers : ∀ f, f ≠ g → ∀ a, F a → queuedOn f a x = 0) (f : ℕ) :
    Flow.Move F (queuedOn f · x) (· ∈ freesOf x) (s.flow f) (Function.update s.flow g fl f) := by
  by_cases hf : f = g
  · subst hf
    rwa [Function.update_self]
  · rw [Function.update_of_ne hf]
    exact .refl (hothers f hf)

/-- What one action of MPD leaves as it is, and what it does to the subflows. -/
structure Performed (F : ℕ → Prop) (s : System) (x : Action) (t : System) : Prop where
  user : t.user = s.user
  done : t.done = s.done
  flow : ∀ f, Flow.Move F (queuedOn f · [x]) (· ∈ freesOf [x]) (s.flow f) (t.flow f)

theorem queuedOn_singleton_eq_zero {x : Action} (h : queuesOn f a x = false) : queuedOn f a [x] = 0 := by
  rw [queuedOn, List.countP_singleton, h]
  rfl

theorem performed_putMsgToSendQueue (hs : ∀ f, (s.flow f).Sound F) {deviceId len : ℕ} {m : Msg}
    {netStatus release ok : Bool} (hF : release = true → ¬ F m.addr)
    (hp : s.putMsgToSendQueue netStatus (deviceId / 2) (some m.addr) len release = some (t, ok)) :
    Performed F s (.send deviceId m len release ok) t := by
  set val : ElemType := ⟨(deviceId / 2 : ℕ), some m.addr, len, release, false⟩ with hval
  have hinside := (hs (deviceId / 2)).inside
  obtain ⟨hin, hentries⟩ := entries_enqueue hinside netStatus val
  have hothers : ∀ ok, ∀ f, f ≠ deviceId / 2 → ∀ a, F a →
      queuedOn f a [.send deviceId m len release ok] = 0 := fun ok f hf a _ => by
    refine queuedOn_singleton_eq_zero ?_
    simp [queuesOn, hf.symm]
  have hrefused : ∀ f a, queuedOn f a [.send deviceId m len release false] = 0 := fun f a =>
    queuedOn_singleton_eq_zero (by simp [queuesOn])
  rw [System.putMsgToSendQueue, ← hval] at hp
  split at hp
  · next hok =>
    rw [if_pos hok] at hentries
    obtain ⟨rfl, rfl⟩ := Prod.mk.inj (Option.some.inj hp)
    refine ⟨rfl, rfl, forall_move ?_ (hothers true)⟩
    have hmove : Flow.Move F (fun a => if val.Refers a then 1 else 0)
        (· ∈ freesOf [.send deviceId m len release true]) (s.flow (deviceId / 2))
        { s.flow (deviceId / 2) with queue := ((s.flow (deviceId / 2)).queue.enqueue netStatus val).1 } :=
      .enqueue hin hentries fun a ha heq => by
        rw [hval] at heq ⊢
        cases release with
        | false => rfl
        | true => exact absurd (Option.some.inj heq ▸ ha) (hF rfl)
    convert hmove using 2 with a
    rw [queuedOn, List.countP_singleton]
    simp [queuesOn, ElemType.Refers, hval]
  · next hno =>
    split at hp
    · next hrelease =>
      -- the entries with that buffer, and no other, are looked at
      obtain ⟨o, ho, hino, hcopies⟩ := resetElemFlagInQueue_spec hinside m.addr release
      rw [ho, Option.map_some] at hp
      obtain ⟨rfl, rfl⟩ := Prod.mk.inj (Option.some.inj hp)
      refine ⟨rfl, rfl, forall_move ?_ (hothers false)⟩
      have hmove : Flow.Move F (fun _ => 0) (· ∈ freesOf [.send deviceId m len release false])
          (s.flow (deviceId / 2)) { s.flow (deviceId / 2) with queue := o.queue } :=
        .of_copies hino fun a ha => hcopies a fun heq => hF hrelease (heq ▸ ha)
      convert hmove using 2 with a
      exact hrefused _ a
    · obtain ⟨rfl, rfl⟩ := Prod.mk.inj (Option.some.inj hp)
      exact ⟨rfl, rfl, fun f => .refl fun a _ => hrefused f a⟩

theorem performed_freeResendBuf (hs : ∀ f, (s.flow f).Sound F) {m : Msg} {g : ℕ}
    (hp : s.freeResendBuf (some m.addr) g = some t) : Performed F s (.freeResend m g) t := by
  have hnone : ∀ f a, queuedOn f a [.freeResend m g] = 0 := fun f a => queuedOn_singleton_eq_zero rfl
  rw [System.freeResendBuf] at hp
  split at hp
  · obtain ⟨o, ho, hino, -, hcopies, hle, hback, -⟩ :=
      dequeFreeReTransBuffer_spec (hs g).inside m.addr
    obtain ⟨o', ho', rfl⟩ := Option.map_eq_some_iff.mp hp
    obtain rfl := Option.some.inj (ho'.symm.trans ho)
    refine ⟨rfl, rfl, forall_move ?_ fun f _ a _ => hnone f a⟩
    have hmove : Flow.Move F (fun _ => 0) (· ∈ freesOf [.freeResend m g]) (s.flow g)
        { s.flow g with queue := o'.queue } := by
      refine .setQueue hino (fun e he a _ ha => ?_) (fun a _ => ?_) fun a _ hgone => hcopies a ?_
      · obtain ⟨e', he', haddr, hrel⟩ := hback e he
        exact ⟨e', he', haddr ▸ ha, hrel⟩
      · by_cases hne : a = m.addr
        · exact hne ▸ hle
        · rw [countP_refers_copies, hcopies a hne, ← countP_refers_copies]
      · rintro rfl
        exact hgone (Multiset.mem_singleton_self _)
    convert hmove using 2 with a
    exact hnone g a
  · cases hp
    exact ⟨rfl, rfl, fun f => .refl fun a _ => hnone f a⟩

/-- **One action of MPD.** -/
theorem Books.performed (h : Books F s) {x : Action} {todo : List Action} {netStatus : Bool}
    (hs : s.todo = x :: todo) (hp : s.perform netStatus x = some t) : Performed F s x t := by
  have hfair := h.fair hs
  have hsame : ∀ x : Action, (∀ f a, queuesOn f a x = false) → s.flow = t.flow → ∀ f,
      Flow.Move F (queuedOn f · [x]) (· ∈ freesOf [x]) (s.flow f) (t.flow f) := fun x hx heq f =>
    heq ▸ .refl fun a _ => queuedOn_singleton_eq_zero (hx f a)
  cases x with
  | free m =>
    cases hp
    exact ⟨rfl, rfl, hsame _ (fun _ _ => rfl) rfl⟩
  | freeResend m g => exact performed_freeResendBuf h.sound hp
  | send deviceId m len release ok =>
    obtain ⟨⟨t', ok'⟩, hput, hok⟩ := Option.bind_eq_some_iff.mp hp
    obtain ⟨hokk, heq⟩ := Option.ite_none_right_eq_some.mp hok
    cases heq
    dsimp only at hokk
    subst hokk
    refine performed_putMsgToSendQueue h.sound (fun hrel => ?_) hput
    rw [Action.Fair, if_pos hrel] at hfair
    exact hfair
  | _ =>
    cases hp
    exact ⟨rfl, rfl, hsame _ (fun _ _ => rfl) rfl⟩

/-! ### Runs -/

/-- What the names of the buffers of an event have to be. -/
def Event.Named (F : ℕ → Prop) (_ : List Event) (s : System) : Event → Prop
  | .call e allocs sends => ∀ op, e = .traffic op →
      op.Fresh F { s.user with allocs := allocs, sends := sends }
  | _ => True

/-- How the subflows move in a step. -/
theorem Books.moved (h : Books F s) {e : Event} (hs : e.step s = some t) :
    ∃ x, t.done = s.done ++ x ∧
      ∀ f, Flow.Move F (queuedOn f · x) (· ∈ freesOf x) (s.flow f) (t.flow f) := by
  cases e with
  | call e allocs sends =>
    obtain ⟨u, -, rfl⟩ := Option.map_eq_some_iff.mp (Option.ite_none_right_eq_some.mp hs).2
    exact ⟨[], (List.append_nil _).symm, fun f => .refl fun _ _ => rfl⟩
  | act netStatus =>
    rw [Event.step] at hs
    split at hs
    · cases hs
    next x todo htodo =>
    obtain ⟨t', ht', rfl⟩ := Option.map_eq_some_iff.mp hs
    exact ⟨[x], rfl, (h.performed htodo ht').flow⟩
  | dequeue f =>
    rw [Event.step, System.dequeue] at hs
    split at hs
    · cases hs
    next hidle =>
    obtain ⟨e, he, rfl⟩ := Option.map_eq_some_iff.mp hs
    exact ⟨[], (List.append_nil _).symm,
      forall_move (.dequeue (h.sound f).inside (by simpa using hidle) he) fun _ _ _ _ => rfl⟩
  | write f =>
    obtain ⟨e, he, rfl⟩ := Option.map_eq_some_iff.mp hs
    exact ⟨[], (List.append_nil _).symm, forall_move (.write he) fun _ _ _ _ => rfl⟩

/-- What the session has to say after a step. -/
theorem Books.session_step (h : Books F s) {past : List Event} {e : Event} (hnames : e.Named F past s)
    (hs : e.step s = some t) : Transmits F [] t.user ∧ t.user.out = t.done ++ t.todo := by
  cases e with
  | call e allocs sends =>
    obtain ⟨htodo, hs⟩ := Option.ite_none_right_eq_some.mp hs
    obtain ⟨u, hu, rfl⟩ := Option.map_eq_some_iff.mp hs
    have hstart : Transmits F s.user.out { s.user with allocs := allocs, sends := sends } := by
      have hcongr := h.session.congr (v := { s.user with allocs := allocs, sends := sends }) rfl rfl
        (fun _ => rfl) rfl rfl
      exact ⟨hcongr.rest, hcongr.tx, hcongr.slots, hcongr.story, List.prefix_refl _⟩
    have hend := hstart.event hnames hu
    refine ⟨⟨hend.rest, hend.tx, hend.slots, hend.story, List.nil_prefix⟩, ?_⟩
    obtain ⟨as, hout⟩ := hend.grown
    show u.out = s.done ++ u.out.drop s.user.out.length
    rw [← hout, List.drop_left, h.log, htodo, List.append_nil]
  | act netStatus =>
    rw [Event.step] at hs
    split at hs
    · cases hs
    next x todo htodo =>
    obtain ⟨t', ht', rfl⟩ := Option.map_eq_some_iff.mp hs
    have hp := h.performed htodo ht'
    refine ⟨?_, ?_⟩
    · show Transmits F [] t'.user
      exact hp.user ▸ h.session
    · show t'.user.out = (s.done ++ [x]) ++ todo
      rw [hp.user, h.log, htodo, List.append_assoc, List.singleton_append]
  | dequeue f =>
    rw [Event.step, System.dequeue] at hs
    split at hs
    · cases hs
    obtain ⟨e, -, rfl⟩ := Option.map_eq_some_iff.mp hs
    exact ⟨h.session, h.log⟩
  | write f =>
    obtain ⟨e, -, rfl⟩ := Option.map_eq_some_iff.mp hs
    exact ⟨h.session, h.log⟩

/-- **One step of the system.** -/
theorem Books.step (h : Books F s) {past : List Event} {e : Event} (hnames : e.Named F past s)
    (hs : e.step s = some t) : Books F t := by
  obtain ⟨hsession, hlog⟩ := h.session_step hnames hs
  obtain ⟨x, hdone, hflow⟩ := h.moved hs
  exact h.next hsession hlog hdone hflow

theorem books_start (F : ℕ → Prop) (u : UserInfo) (heap : ℕ → ℕ → ElemType) :
    Books F (System.start u heap) := by
  have hahead : ∀ f, ((System.start u heap).flow f).ahead = [] := fun f => by
    show [] ++ (createQueue queueMaxsize (heap f)).entries = []
    rw [entries_create, List.append_nil]
  have hcount : ∀ f a, ((System.start u heap).flow f).count a = 0 := fun f a => by
    rw [Flow.count, hahead]
    rfl
  refine ⟨.created F u, rfl, fun f => ⟨inside_create (by decide) (heap f), fun a _ e he => ?_⟩,
    fun f a _ => (hcount f a).le, fun f a _ _ => hcount f a⟩
  rw [hahead] at he
  exact absurd he List.not_mem_nil

/-- **Runs of the system.** -/
theorem books_run {u : UserInfo} {heap : ℕ → ℕ → ElemType} {events : List Event}
    (hnames : Meets Event.step (Event.Named F) [] events (System.start u heap))
    (hrun : run Event.step events (System.start u heap) = some t) : Books F t := by
  refine hnames.inv (I := Books F) ?_ hrun (books_start F u heap)
  exact fun _ _ _ _ h hN hs => h.step hN hs

/-! ### Freed while it waits -/

/-- No transmit buffer that is freed on the way from `s` to `t` is one that an entry still going to
be sent has. -/
def FreesSafely (F : ℕ → Prop) (s t : System) : Prop :=
  ∀ a, F a → some a ∈ t.freed.drop s.freed.length → ¬ t.Waiting a

def Event.Safe (F : ℕ → Prop) (_ : List Event) (s : System) (e : Event) : Prop :=
  ∀ t, e.step s = some t → FreesSafely F s t

/-- A buffer that goes to `free` has been written, if a queue took it. One for which
`DequeFreeReTransBuffer` finds an entry is not about to be written, and no entry waits where the loop
does not come by. -/
def System.WritesFirst (F : ℕ → Prop) (s : System) : Action → Prop
  | .free m => F m.addr → Mpd.copies m.addr s.done ≠ 0 → ∃ f, ∃ e ∈ (s.flow f).written, e.Refers m.addr
  | .freeResend m flowId => (s.flow flowId).queue.Meets m.addr →
      (∀ e ∈ (s.flow flowId).elem, ¬ e.Refers m.addr) ∧ ¬ (s.flow flowId).queue.Wraps m.addr
  | _ => True

def Event.WritesFirst (F : ℕ → Prop) (_ : List Event) (s : System) : Event → Prop
  | .act _ => ∀ x ∈ s.todo.head?, s.WritesFirst F x
  | _ => True

theorem queuesOn_eq (f a : ℕ) (x : Action) :
    queuesOn f a x = true ↔ x.Queues a = true ∧ queuesOn f a x = true := by
  refine ⟨fun hx => ⟨?_, hx⟩, And.right⟩
  cases x with
  | send => exact (Bool.and_eq_true_iff.mp hx).1
  | _ => cases hx

theorem queuedOn_le (f a : ℕ) (as : List Action) : queuedOn f a as ≤ Mpd.copies a as :=
  List.countP_mono_left fun x _ hx => ((queuesOn_eq f a x).mp hx).1

/-- No action puts the buffer into two queues. -/
theorem queuedOn_add_le {g : ℕ} (hne : f ≠ g) (a : ℕ) (as : List Action) :
    queuedOn f a as + queuedOn g a as ≤ Mpd.copies a as := by
  induction as with
  | nil => exact le_rfl
  | cons x as ih =>
    have hf := queuesOn_eq f a x
    have hg := queuesOn_eq g a x
    have hboth : ¬ (queuesOn f a x = true ∧ queuesOn g a x = true) := by
      rintro ⟨h₁, h₂⟩
      cases x with
      | send deviceId =>
        have hf := beq_iff_eq.mp (Bool.and_eq_true_iff.mp h₁).2
        have hg := beq_iff_eq.mp (Bool.and_eq_true_iff.mp h₂).2
        exact hne (hf.symm.trans hg)
      | _ => cases h₁
    rw [queuedOn, queuedOn, Mpd.copies, List.countP_cons, List.countP_cons, List.countP_cons]
    rw [queuedOn, queuedOn, Mpd.copies] at ih
    split <;> split <;> split <;> simp_all <;> omega

theorem exists_queuedOn {as : List Action} (h : Mpd.copies a as ≠ 0) : ∃ f, queuedOn f a as ≠ 0 := by
  obtain ⟨x, hx, hqueues⟩ := List.countP_pos_iff.mp (Nat.pos_of_ne_zero h)
  cases x with
  | send deviceId m len release ok =>
    refine ⟨deviceId / 2, (List.countP_pos_iff.mpr ⟨_, hx, ?_⟩).ne'⟩
    exact Bool.and_eq_true_iff.mpr ⟨hqueues, beq_self_eq_true _⟩
  | _ => cases hqueues

theorem Flow.ahead_count (fl : Flow) (a : ℕ) :
    fl.count a = fl.written.countP (ElemType.Refers a) + fl.ahead.countP (ElemType.Refers a) :=
  List.countP_append

theorem not_waiting_iff : ¬ s.Waiting a ↔ ∀ f, (s.flow f).ahead.countP (ElemType.Refers a) = 0 := by
  simp only [System.Waiting, not_exists, not_and, List.countP_eq_zero, decide_eq_true_eq]

/-- A buffer that MPD has not given back, and that was handed on once at most. -/
theorem Books.not_waiting_iff (h : Books F s) (hF : F a) (hkept : a ∉ freesOf s.done)
    (honce : Mpd.copies a s.done ≤ 1) : ¬ s.Waiting a ↔
      (Mpd.copies a s.done ≠ 0 → ∃ f, ∃ e ∈ (s.flow f).written, e.Refers a) := by
  rw [SendQueues.not_waiting_iff]
  have hcount : ∀ f, (s.flow f).written.countP (ElemType.Refers a) +
      (s.flow f).ahead.countP (ElemType.Refers a) = queuedOn f a s.done := fun f => by
    rw [← Flow.ahead_count, h.eq f a hF hkept]
  constructor
  · intro hnone hcopies
    obtain ⟨f, hf⟩ := exists_queuedOn hcopies
    have hpos : 0 < (s.flow f).written.countP (ElemType.Refers a) := by
      have := hcount f
      have := hnone f
      omega
    obtain ⟨e, he, hrefers⟩ := List.countP_pos_iff.mp hpos
    exact ⟨f, e, he, of_decide_eq_true hrefers⟩
  · intro hwritten g
    have hg := hcount g
    have hle := queuedOn_le g a s.done
    by_cases hcopies : Mpd.copies a s.done = 0
    · omega
    obtain ⟨f, e, he, hrefers⟩ := hwritten hcopies
    have hpos : 0 < (s.flow f).written.countP (ElemType.Refers a) :=
      List.countP_pos_iff.mpr ⟨e, he, decide_eq_true hrefers⟩
    have hf := hcount f
    by_cases hfg : f = g
    · subst hfg
      omega
    · have := queuedOn_add_le hfg a s.done
      omega

/-- `netType / 2` is the subflow. -/
theorem getDeviceId_div : ∀ f < 3, getDeviceId f / 2 = f := by decide

/-- Where every copy went to the queue of `f`, no other subflow has one. -/
theorem Books.not_ahead (h : Books F s) (hF : F a) (hf : f < 3) (hplain : ∀ x ∈ s.done, x.Plain f a)
    {g : ℕ} (hne : g ≠ f) : ∀ e ∈ (s.flow g).ahead, ¬ e.Refers a := by
  have hzero : queuedOn g a s.done = 0 := by
    refine List.countP_eq_zero.mpr fun x hx hqueues => ?_
    cases x with
    | send deviceId m len release ok =>
      obtain ⟨hboth, hdev⟩ := Bool.and_eq_true_iff.mp hqueues
      have haddr := beq_iff_eq.mp (Bool.and_eq_true_iff.mp hboth).2
      obtain ⟨rfl, -⟩ := hplain _ hx haddr
      exact hne ((beq_iff_eq.mp hdev).symm.trans (getDeviceId_div f hf))
    | _ => cases hqueues
  have hle := h.le g a hF
  rw [Flow.ahead_count] at hle
  intro e he hrefers
  have hpos : 0 < (s.flow g).ahead.countP (ElemType.Refers a) :=
    List.countP_pos_iff.mpr ⟨e, he, decide_eq_true hrefers⟩
  omega

/-- `Free_ResendBuf` frees the buffer exactly if it finds an entry, and what it leaves. -/
theorem freeResendBuf_waiting (h : Books F s) {m : Msg} {todo : List Action}
    (hs : s.todo = .freeResend m f :: todo) (hp : s.freeResendBuf (some m.addr) f = some t) :
    (t.freed = s.freed ++ [some m.addr] ∧ (s.flow f).queue.Meets m.addr ∨
        t.freed = s.freed ∧ ¬ (s.flow f).queue.Meets m.addr) ∧
      (t.Waiting m.addr ↔ (∃ e ∈ (s.flow f).elem, e.Refers m.addr) ∨ (s.flow f).queue.Wraps m.addr) := by
  obtain ⟨hF, hf, -, -, hplain⟩ := h.fair hs
  rw [System.freeResendBuf, if_pos hf] at hp
  obtain ⟨o, ho, -, hfreed, -, -, -, hwraps⟩ := dequeFreeReTransBuffer_spec (h.sound f).inside m.addr
  obtain ⟨o', ho', rfl⟩ := Option.map_eq_some_iff.mp hp
  obtain rfl := Option.some.inj (ho'.symm.trans ho)
  refine ⟨?_, ?_⟩
  · rcases hfreed with ⟨hfree, hmeets⟩ | ⟨hfree, hmeets⟩
    · exact .inl ⟨congrArg (s.freed ++ ·) hfree, hmeets⟩
    · exact .inr ⟨(congrArg (s.freed ++ ·) hfree).trans (List.append_nil _), hmeets⟩
  · rw [← hwraps]
    constructor
    · rintro ⟨g, e, he, hrefers⟩
      by_cases hg : g = f
      · subst hg
        rw [show (((s.setQueue g o'.queue).free o'.freed).flow g) =
          { s.flow g with queue := o'.queue } from Function.update_self ..] at he
        rcases Flow.mem_ahead.mp he with helem | hentry
        · exact .inl ⟨e, helem, hrefers⟩
        · exact .inr ⟨e, hentry, hrefers⟩
      · rw [show (((s.setQueue f o'.queue).free o'.freed).flow g) = s.flow g from
          Function.update_of_ne hg ..] at he
        exact absurd hrefers (h.not_ahead hF hf hplain hg e he)
    · intro hleft
      refine ⟨f, ?_⟩
      rw [show (((s.setQueue f o'.queue).free o'.freed).flow f) =
        { s.flow f with queue := o'.queue } from Function.update_self ..]
      rcases hleft with ⟨e, helem, hrefers⟩ | ⟨e, hentry, hrefers⟩
      · exact ⟨e, Flow.mem_ahead.mpr (.inl helem), hrefers⟩
      · exact ⟨e, Flow.mem_ahead.mpr (.inr hentry), hrefers⟩

/-- What is freed otherwise is no transmit buffer. -/
theorem perform_freed {x : Action} {netStatus : Bool} (hp : s.perform netStatus x = some t)
    (hfair : x.Fair F s.done) (hfree : ∀ m, x ≠ .free m) (hresend : ∀ m f, x ≠ .freeResend m f) :
    ∃ l, t.freed = s.freed ++ l ∧ ∀ a, F a → some a ∉ l := by
  have hnothing : ∃ l, s.freed = s.freed ++ l ∧ ∀ a, F a → some a ∉ l :=
    ⟨[], (List.append_nil _).symm, fun _ _ => List.not_mem_nil⟩
  cases x with
  | free m => exact absurd rfl (hfree m)
  | freeResend m f => exact absurd rfl (hresend m f)
  | send deviceId m len release ok =>
    obtain ⟨⟨t', ok'⟩, hput, hok⟩ := Option.bind_eq_some_iff.mp hp
    cases (Option.ite_none_right_eq_some.mp hok).2
    rw [System.putMsgToSendQueue] at hput
    split at hput
    · cases hput
      exact hnothing
    split at hput
    · next hrelease =>
      obtain ⟨o, -, heq⟩ := Option.map_eq_some_iff.mp hput
      cases heq
      refine ⟨if o.found then [] else [some m.addr], rfl, fun a hF hmem => ?_⟩
      rw [Action.Fair, if_pos hrelease] at hfair
      split at hmem
      · cases hmem
      · exact hfair (Option.some.inj (List.mem_singleton.mp hmem) ▸ hF)
    · cases hput
      exact hnothing
  | _ =>
    cases hp
    exact hnothing

theorem freesSafely_of_append {l : List (Option ℕ)} (ht : t.freed = s.freed ++ l) :
    FreesSafely F s t ↔ ∀ a, F a → some a ∈ l → ¬ t.Waiting a := by
  rw [FreesSafely, ht, List.drop_left]

/-- `MPD_MsgMemfree`. -/
theorem Books.free_safe_iff (h : Books F s) {m : Msg} {todo : List Action}
    (hs : s.todo = .free m :: todo) :
    FreesSafely F s (s.free [some m.addr]) ↔ s.WritesFirst F (.free m) := by
  have hfair := h.fair hs
  rw [freesSafely_of_append (t := s.free [some m.addr]) rfl]
  simp only [List.mem_singleton, Option.some.injEq]
  constructor
  · intro hsafe hF
    exact (h.not_waiting_iff hF (hfair hF).1 (hfair hF).2).mp (hsafe _ hF rfl)
  · rintro hwrites a hF rfl
    exact (h.not_waiting_iff hF (hfair hF).1 (hfair hF).2).mpr (hwrites hF)

/-- `MPD_RetransMsgMemfree`. -/
theorem Books.freeResend_safe_iff (h : Books F s) {m : Msg} {todo : List Action}
    (hs : s.todo = .freeResend m f :: todo) (hp : s.freeResendBuf (some m.addr) f = some t) :
    FreesSafely F s t ↔ s.WritesFirst F (.freeResend m f) := by
  have hF := (h.fair hs).1
  obtain ⟨⟨hfreed, hmeets⟩ | ⟨hfreed, hmeets⟩, hwaiting⟩ := freeResendBuf_waiting h hs hp
  · rw [freesSafely_of_append hfreed]
    simp only [List.mem_singleton, Option.some.injEq]
    constructor
    · intro hsafe _
      have hleft := fun hl => hsafe _ hF rfl (hwaiting.mpr hl)
      exact ⟨fun e he hr => hleft (.inl ⟨e, he, hr⟩), fun hw => hleft (.inr hw)⟩
    · rintro hwrites a - rfl hw
      obtain ⟨hhand, hwraps⟩ := hwrites hmeets
      rcases hwaiting.mp hw with ⟨e, he, hr⟩ | hw
      · exact hhand e he hr
      · exact hwraps hw
  · refine iff_of_true ?_ fun h => absurd h hmeets
    rw [freesSafely_of_append (hfreed.trans (List.append_nil _).symm)]
    exact fun _ _ hmem => absurd hmem List.not_mem_nil

theorem freeResendBuf_total (h : Books F s) {m : Msg} : ∃ t, s.freeResendBuf (some m.addr) f = some t := by
  rw [System.freeResendBuf]
  split
  · obtain ⟨o, ho, -⟩ := dequeFreeReTransBuffer_spec (h.sound f).inside m.addr
    exact ⟨_, Option.map_eq_some_iff.mpr ⟨o, ho, rfl⟩⟩
  · exact ⟨s, rfl⟩

/-- **Where MPD frees a transmit buffer.** -/
theorem Books.act_safe_iff (h : Books F s) {past : List Event} {x : Action} {todo : List Action}
    {netStatus : Bool} (hs : s.todo = x :: todo) :
    (Event.act netStatus).Safe F past s ↔ s.WritesFirst F x := by
  have hfair := h.fair hs
  have hstep : (Event.act netStatus).Safe F past s ↔
      ∀ t, s.perform netStatus x = some t → FreesSafely F s t := by
    rw [Event.Safe, Event.step, hs]
    simp only [Option.map_eq_some_iff, forall_exists_index, and_imp, forall_apply_eq_imp_iff₂]
    exact Iff.rfl
  rw [hstep]
  have hother : s.WritesFirst F x → (∀ m, x ≠ .free m) → (∀ m f, x ≠ .freeResend m f) →
      ((∀ t, s.perform netStatus x = some t → FreesSafely F s t) ↔ s.WritesFirst F x) := by
    intro hwrites hfree hresend
    refine iff_of_true (fun t hp => ?_) hwrites
    obtain ⟨l, hl, hnot⟩ := perform_freed hp hfair hfree hresend
    exact (freesSafely_of_append hl).mpr fun a hF hmem => absurd hmem (hnot a hF)
  cases x with
  | free m =>
    rw [← h.free_safe_iff hs, System.perform]
    simp
  | freeResend m f =>
    obtain ⟨t, ht⟩ := freeResendBuf_total h (m := m) (f := f)
    rw [← h.freeResend_safe_iff hs ht, System.perform, ht]
    simp
  | _ => exact hother trivial (fun _ => by simp) fun _ _ => by simp

theorem Books.safe_iff (h : Books F s) (past : List Event) (e : Event) :
    e.Safe F past s ↔ e.WritesFirst F past s := by
  have hquiet : (∀ t, e.step s = some t → ∀ a, F a → some a ∉ t.freed.drop s.freed.length) →
      e.Safe F past s := fun hno t hs a hF hmem => absurd hmem (hno t hs a hF)
  cases e with
  | call e allocs sends =>
    refine iff_of_true (hquiet fun t hs a _ hmem => ?_) trivial
    obtain ⟨u, -, rfl⟩ := Option.map_eq_some_iff.mp (Option.ite_none_right_eq_some.mp hs).2
    rw [List.drop_length] at hmem
    cases hmem
  | act netStatus =>
    cases hs : s.todo with
    | nil =>
      refine iff_of_true (fun t ht => ?_) fun x hx => ?_
      · rw [Event.step, hs] at ht
        cases ht
      · rw [hs] at hx
        cases hx
    | cons x todo =>
      rw [h.act_safe_iff hs, Event.WritesFirst, hs]
      simp
  | dequeue f =>
    refine iff_of_true (hquiet fun t hs a _ hmem => ?_) trivial
    rw [Event.step, System.dequeue] at hs
    split at hs
    · cases hs
    obtain ⟨e, -, rfl⟩ := Option.map_eq_some_iff.mp hs
    rw [List.drop_length] at hmem
    cases hmem
  | write f =>
    refine iff_of_true (hquiet fun t hs a hF hmem => ?_) trivial
    obtain ⟨e, he, rfl⟩ := Option.map_eq_some_iff.mp hs
    dsimp only at hmem
    rw [List.drop_left] at hmem
    -- the dispatcher frees only what was lent to it
    split at hmem
    · next hrelease =>
      have hlent := (h.sound f).lent a hF e (Flow.mem_ahead.mpr (.inl he))
        (List.mem_singleton.mp hmem).symm
      rw [hlent] at hrelease
      cases hrelease
    · cases hmem

/-- **Use after free.** In a run of MPD and the dispatchers, MPD frees no transmit buffer that a
dispatcher is still going to write, exactly if it frees buffers only after they were written, and the
entries that `DequeFreeReTransBuffer` is to take back are where it looks. -/
theorem useAfterFree_run (F : ℕ → Prop) (u : UserInfo) (heap : ℕ → ℕ → ElemType) {events : List Event}
    (hnames : Meets Event.step (Event.Named F) [] events (System.start u heap)) :
    Meets Event.step (Event.Safe F) [] events (System.start u heap) ↔
      Meets Event.step (Event.WritesFirst F) [] events (System.start u heap) := by
  exact meets_iff_of_guard (I := fun _ s => Books F s) (fun _ _ _ _ h hN hs => h.step hN hs)
    (fun past _ e h => h.safe_iff past e) (books_start F u heap) hnames

/-- Subflow `f` comes up under `deviceId`; a packet goes out on it, and is written. -/
def onePacket (f : Fin 3) (deviceId : ℕ) : List Event :=
  [.call (.stateInd deviceId 3) (fun _ => none) fun _ => true,
    .call (.traffic (.send (some f) ⟨1, List.replicate 20 0⟩ 20)) (fun _ => none) fun _ => true,
    .act true, .dequeue f, .write f]

/-- Buffer 1 is the only one that is sent. -/
theorem firstSend_named (u : UserInfo) (heap : ℕ → ℕ → ElemType) {events : List Event}
    (h : ∀ past s, ∀ e ∈ events, e.Named (· = 1) past s) :
    Meets Event.step (Event.Named (· = 1)) []
      (.call (.stateInd 1 3) (fun _ => none) (fun _ => true) ::
        .call (.traffic (.send (some 0) ⟨1, List.replicate 20 0⟩ 20)) (fun _ => none) (fun _ => true) ::
        events) (System.start u heap) := by
  refine ⟨nofun, fun s₁ hs₁ => ⟨?_, fun _ _ => .of_forall h⟩⟩
  rintro op ⟨⟩
  have hbooks : Books (fun _ => False) s₁ := by
    have hnames : (Event.call (.stateInd 1 3) (fun _ => none) fun _ => true).Named (fun _ => False) []
        (System.start u heap) := nofun
    exact (books_start _ u heap).step hnames hs₁
  have hout : s₁.user.out = [] := by
    rw [Event.step] at hs₁
    obtain ⟨v, hv, rfl⟩ := Option.map_eq_some_iff.mp (Option.ite_none_right_eq_some.mp hs₁).2
    cases hv
    rfl
  refine ⟨List.nodup_singleton 1, fun a ha => List.mem_singleton.mp ha, fun a _ => ?_⟩
  exact (hbooks.session.unheard hout a).congr rfl rfl

theorem onePacket_named (u : UserInfo) (heap : ℕ → ℕ → ElemType) {events : List Event}
    (h : ∀ past s, ∀ e ∈ events, e.Named (· = 1) past s) :
    Meets Event.step (Event.Named (· = 1)) [] (onePacket 0 1 ++ events) (System.start u heap) := by
  refine firstSend_named u heap fun past s e he => ?_
  rcases List.mem_append.mp he with he | he
  · simp only [List.mem_cons, List.not_mem_nil, or_false] at he
    rcases he with rfl | rfl | rfl <;> trivial
  · exact h past s e he

/-- And then it is acknowledged. -/
def exchange (f : Fin 3) (deviceId : ℕ) : List Event :=
  onePacket f deviceId ++ .call (.traffic (.recv ⟨2, MPDHeader.encode
    { flag := 0x55, fragment := 0, stream := f, length := 3, dsn := 0, ssn := 0, ack := 1 } 0⟩))
    (fun _ => none) (fun _ => true) :: List.replicate 12 (.act true)

theorem exchange_named (u : UserInfo) (heap : ℕ → ℕ → ElemType) :
    Meets Event.step (Event.Named (· = 1)) [] (exchange 0 1) (System.start u heap) := by
  refine onePacket_named u heap fun past s e he => ?_
  rcases List.mem_cons.mp he with rfl | he
  · rintro op ⟨⟩
    show (2 : ℕ) ≠ 1
    decide
  · rw [List.eq_of_mem_replicate he]
    trivial

/-- What MPD asks for next is no more than to free buffers, and buffer 1 was written. -/
def System.afterWrite (s : System) : Action → Bool
  | .free _ => decide (∃ e ∈ (s.flow 0).written, e.Refers 1)
  | .freeResend .. => false
  | _ => true

theorem exchange_writesFirst : Meets Event.step (Event.WritesFirst (· = 1)) [] (exchange 0 1)
    (System.start {} fun _ _ => ⟨0, none, 0, false, false⟩) := by
  have hwritten : Meets Event.step (fun _ s _ => ∀ x ∈ s.todo.head?, s.afterWrite x = true) []
      (exchange 0 1) (System.start {} fun _ _ => ⟨0, none, 0, false, false⟩) := by
    decide +kernel
  refine hwritten.mono fun past s e _ h => ?_
  cases e with
  | act netStatus =>
    intro x hx
    have hx' := h x hx
    cases x with
    | free m =>
      rintro hm -
      exact ⟨0, hm ▸ of_decide_eq_true hx'⟩
    | freeResend => cases hx'
    | _ => trivial
  | _ => trivial

theorem useAfterFree_run_exchange :
    (run Event.step (exchange 0 1) (System.start {} fun _ _ => ⟨0, none, 0, false, false⟩)).map (·.freed) =
        some [some 1, some 2] ∧
      Meets Event.step (Event.Safe (· = 1)) [] (exchange 0 1)
        (System.start {} fun _ _ => ⟨0, none, 0, false, false⟩) :=
  ⟨by decide +kernel, (useAfterFree_run (· = 1) {} _ (exchange_named _ _)).mpr exchange_writesFirst⟩

end AndroidVendor.Ratd.SendQueues
