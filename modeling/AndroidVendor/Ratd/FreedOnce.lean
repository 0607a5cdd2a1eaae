import AndroidVendor.Ratd.SendQueuesRun

/-!
# Transmit buffers that are not freed

`MPD_RetransMsgMemfree` leaves it to `DequeFreeReTransBuffer` to free the buffer, which does so when
it comes by an entry that has it. If the entries were all sent, or wait behind the end of the array,
nobody frees the buffer: MPD has forgotten it.

## Main results

* `Books.freed_step` — what a step frees, and what it gives back
* `leaked_run` — a buffer that leaked is never freed
* `freed_run` — when a buffer that MPD is done with was freed
* `freedOnce_run` — when every buffer that MPD is done with was freed
-/

namespace AndroidVendor.Ratd.SendQueues

open Mpd Machine Queue

variable {F : ℕ → Prop} {s t : System} {a f : ℕ}

/-- Every buffer that was sent, and that no tx window holds any more, was freed once. -/
def System.FreedOnce (s : System) : Prop :=
  ∀ deviceId m len ok, .send deviceId m len false ok ∈ s.user.out → ¬ s.user.HasBuffer m.addr →
    s.freed.count (some m.addr) = 1

/-- `DequeFreeReTransBuffer` comes by an entry with the buffer. -/
def System.Finds (s : System) : Action → Prop
  | .freeResend m flowId => (s.flow flowId).queue.Meets m.addr
  | _ => True

instance (s : System) : DecidablePred s.Finds
  | .freeResend m flowId => inferInstanceAs (Decidable ((s.flow flowId).queue.Meets m.addr))
  | .free _ | .send .. | .post .. | .postMerged .. | .exception .. | .access _ => isTrue trivial

def Event.Finds (_ : List Event) (s : System) : Event → Prop
  | .act _ => ∀ x ∈ s.todo.head?, s.Finds x
  | _ => True

instance (past : List Event) (s : System) : DecidablePred (Event.Finds past s)
  | .act _ => inferInstanceAs (Decidable (∀ x ∈ s.todo.head?, s.Finds x))
  | .call .. | .dequeue _ | .write _ => isTrue trivial

/-- What one action of MPD frees. -/
theorem Books.freed_act (h : Books F s) {x : Action} {todo : List Action} {netStatus : Bool}
    (hs : s.todo = x :: todo) (hp : s.perform netStatus x = some t) :
    ∃ l, t.freed = s.freed ++ l ∧ (s.Finds x → ∀ a, F a → l.count (some a) = (freesOf [x]).count a) ∧
      (¬ s.Finds x → l = [] ∧ ∃ m f, x = .freeResend m f) := by
  have hfair := h.fair hs
  have hone : ∀ m : Msg, ∀ a : ℕ, [some m.addr].count (some a) = ({m.addr} : Multiset ℕ).count a := by
    intro m a
    rw [List.count_singleton, Multiset.count_singleton]
    refine if_congr ?_ rfl rfl
    rw [beq_iff_eq, Option.some.injEq]
    exact eq_comm
  cases x with
  | free m =>
    cases hp
    exact ⟨[some m.addr], rfl, fun _ a _ => hone m a, fun hno => absurd trivial hno⟩
  | freeResend m f =>
    obtain ⟨⟨hfreed, hmeets⟩ | ⟨hfreed, hmeets⟩, -⟩ := freeResendBuf_waiting h hs hp
    · exact ⟨[some m.addr], hfreed, fun _ a _ => hone m a, fun hno => absurd hmeets hno⟩
    · exact ⟨[], hfreed.trans (List.append_nil _).symm, fun hfinds => absurd hfinds hmeets,
        fun _ => ⟨rfl, m, f, rfl⟩⟩
  | _ =>
    obtain ⟨l, hl, hnot⟩ := perform_freed hp hfair (fun _ => by simp) fun _ _ => by simp
    exact ⟨l, hl, fun _ a hF => List.count_eq_zero.mpr (hnot a hF), fun hno => absurd trivial hno⟩

/-- **What a step frees.** -/
theorem Books.freed_step (h : Books F s) (past : List Event) {e : Event} (hs : e.step s = some t) :
    ∃ l x, t.freed = s.freed ++ l ∧ t.done = s.done ++ x ∧
      (e.Finds past s → ∀ a, F a → l.count (some a) = (freesOf x).count a) ∧
      (¬ e.Finds past s → l = [] ∧ ∃ m f, x = [.freeResend m f] ∧ x.head? = s.todo.head?) := by
  cases e with
  | call e allocs sends =>
    obtain ⟨u, -, rfl⟩ := Option.map_eq_some_iff.mp (Option.ite_none_right_eq_some.mp hs).2
    exact ⟨[], [], (List.append_nil _).symm, (List.append_nil _).symm, fun _ _ _ => rfl,
      fun hno => absurd trivial hno⟩
  | act netStatus =>
    rw [Event.step] at hs
    split at hs
    · cases hs
    next x todo htodo =>
    obtain ⟨t', ht', rfl⟩ := Option.map_eq_some_iff.mp hs
    obtain ⟨l, hl, hfinds, hno⟩ := h.freed_act htodo ht'
    have hiff : (Event.act netStatus).Finds past s ↔ s.Finds x := by
      rw [Event.Finds, htodo]
      simp
    rw [hiff]
    refine ⟨l, [x], hl, rfl, hfinds, fun hn => ?_⟩
    obtain ⟨hnil, m, f, rfl⟩ := hno hn
    exact ⟨hnil, m, f, rfl, by rw [htodo]; rfl⟩
  | dequeue f =>
    rw [Event.step, System.dequeue] at hs
    split at hs
    · cases hs
    obtain ⟨e, -, rfl⟩ := Option.map_eq_some_iff.mp hs
    exact ⟨[], [], (List.append_nil _).symm, (List.append_nil _).symm, fun _ _ _ => rfl,
      fun hno => absurd trivial hno⟩
  | write f =>
    obtain ⟨e, he, rfl⟩ := Option.map_eq_some_iff.mp hs
    refine ⟨_, [], rfl, (List.append_nil _).symm, fun _ a hF => ?_, fun hno => absurd trivial hno⟩
    refine List.count_eq_zero.mpr fun hmem => ?_
    split at hmem
    · next hrelease =>
      have hlent := (h.sound f).lent a hF e (Flow.mem_ahead.mpr (.inl he))
        (List.mem_singleton.mp hmem).symm
      rw [hlent] at hrelease
      cases hrelease
    · cases hmem

/-- What was given back was freed. -/
def System.Settled (F : ℕ → Prop) (s : System) : Prop :=
  ∀ a, F a → s.freed.count (some a) = (freesOf s.done).count a

/-- Nothing was freed that was not given back. -/
def System.Within (F : ℕ → Prop) (s : System) : Prop :=
  ∀ a, F a → s.freed.count (some a) ≤ (freesOf s.done).count a

/-- The buffer `a` was sent and given back, and not freed. -/
structure System.Leaked (F : ℕ → Prop) (s : System) (a : ℕ) : Prop where
  name : F a
  sent : a ∈ sendsOf s.done
  back : a ∈ freesOf s.done
  kept : some a ∉ s.freed

/-- Some buffer leaked. -/
def System.Leaks (F : ℕ → Prop) (s : System) : Prop := ∃ a, s.Leaked F a

theorem System.Settled.within (h : s.Settled F) : s.Within F := fun a hF => (h a hF).le

theorem Books.within_step (h : Books F s) (hwithin : s.Within F) (past : List Event) {e : Event}
    (hs : e.step s = some t) : t.Within F := by
  obtain ⟨l, x, hfreed, hdone, hfinds, hno⟩ := h.freed_step past hs
  intro a hF
  have hl : l.count (some a) ≤ (freesOf x).count a := by
    by_cases hf : e.Finds past s
    · exact (hfinds hf a hF).le
    · rw [(hno hf).1]
      exact Nat.zero_le _
  rw [hfreed, hdone, List.count_append, freesOf_append, Multiset.count_add]
  exact Nat.add_le_add (hwithin a hF) hl

/-- `DequeFreeReTransBuffer` comes by no entry with the buffer, and it leaks. -/
theorem Books.leaked (h : Books F s) (hwithin : s.Within F) (past : List Event) {e : Event}
    (hs : e.step s = some t) (hn : ¬ e.Finds past s) :
    ∃ m f, s.todo.head? = some (.freeResend m f) ∧ t.Leaked F m.addr := by
  obtain ⟨l, x, hfreed, hdone, -, hno⟩ := h.freed_step past hs
  obtain ⟨rfl, m, f, rfl, hhead⟩ := hno hn
  obtain ⟨todo, htodo⟩ := List.head?_eq_some_iff.mp hhead.symm
  obtain ⟨hF, -, hkept, hsent, -⟩ := h.fair htodo
  refine ⟨m, f, hhead.symm, hF, ?_, ?_, ?_⟩
  · rw [hdone, sendsOf_append, Multiset.mem_add]
    exact .inl hsent
  · rw [hdone, freesOf_append, Multiset.mem_add]
    exact .inr (Multiset.mem_singleton_self _)
  · rw [hfreed, List.append_nil, ← List.count_eq_zero, ← Nat.le_zero]
    exact (hwithin _ hF).trans (Multiset.count_eq_zero.mpr hkept).le

theorem Books.settled_step (h : Books F s) (hset : s.Settled F) (past : List Event) {e : Event}
    (hs : e.step s = some t) :
    (e.Finds past s → t.Settled F) ∧ (¬ e.Finds past s → t.Leaks F) := by
  refine ⟨fun hf a hF => ?_, fun hn => ?_⟩
  · obtain ⟨l, x, hfreed, hdone, hfinds, -⟩ := h.freed_step past hs
    rw [hfreed, hdone, List.count_append, freesOf_append, Multiset.count_add, hset a hF, hfinds hf a hF]
  · obtain ⟨m, -, -, hleaked⟩ := h.leaked hset.within past hs hn
    exact ⟨m.addr, hleaked⟩

theorem Books.told_done (h : Books F s) : Told F s.done := fun pre x post heq =>
  h.session.story.told pre x (post ++ s.todo) (by rw [h.log, heq, List.append_assoc, List.cons_append])

/-- A buffer that leaked is never freed: MPD gives no buffer back twice. -/
theorem Books.leaked_step (h : Books F s) (hleaked : s.Leaked F a) (past : List Event) {e : Event}
    (hs : e.step s = some t) (ht : Books F t) : t.Leaked F a := by
  obtain ⟨hF, hsent, hback, hnot⟩ := hleaked
  obtain ⟨l, x, hfreed, hdone, hfinds, hno⟩ := h.freed_step past hs
  have hx : (freesOf x).count a = 0 := by
    have hle := ht.told_done.count_freesOf_le hF
    have hpos := Multiset.count_pos.mpr hback
    rw [hdone, freesOf_append, Multiset.count_add] at hle
    omega
  refine ⟨hF, ?_, ?_, ?_⟩
  · rw [hdone, sendsOf_append, Multiset.mem_add]
    exact .inl hsent
  · rw [hdone, freesOf_append, Multiset.mem_add]
    exact .inl hback
  · rw [hfreed, List.mem_append, not_or]
    refine ⟨hnot, ?_⟩
    by_cases hf : e.Finds past s
    · rw [← List.count_eq_zero, hfinds hf a hF, hx]
    · rw [(hno hf).1]
      exact List.not_mem_nil

/-- From a leak on: the buffer that `DequeFreeReTransBuffer` did not find is not freed. -/
theorem leaked_run {u : UserInfo} {heap : ℕ → ℕ → ElemType} {pre post : List Event} {netStatus : Bool}
    {m : Msg} (hnames : Meets Event.step (Event.Named F) [] (pre ++ .act netStatus :: post)
      (System.start u heap)) (hpre : run Event.step pre (System.start u heap) = some s)
    (hpost : run Event.step (.act netStatus :: post) s = some t)
    (hhead : s.todo.head? = some (.freeResend m f)) (hmeets : ¬ (s.flow f).queue.Meets m.addr) :
    t.Leaked F m.addr := by
  obtain ⟨hnamesPre, hnamesPost⟩ := meets_append.mp hnames
  have hact := hnamesPost s hpre
  obtain ⟨s', hs', ht⟩ := Option.bind_eq_some_iff.mp hpost
  have hbefore : Books F s ∧ s.Within F := by
    refine hnamesPre.inv (I := fun s => Books F s ∧ s.Within F) ?_ hpre
      ⟨books_start F u heap, fun a _ => le_rfl⟩
    exact fun past s e s' h hN hs => ⟨h.1.step hN hs, h.1.within_step h.2 past hs⟩
  have hnot : ¬ (Event.act netStatus).Finds pre s := fun hfinds => hmeets (hfinds _ hhead)
  obtain ⟨m', f', hhead', hleaked⟩ := hbefore.1.leaked hbefore.2 pre hs' hnot
  obtain ⟨rfl, rfl⟩ := Action.freeResend.inj (Option.some.inj (hhead.symm.trans hhead'))
  have hafter : Books F t ∧ t.Leaked F m.addr := by
    refine (hact.2 s' hs').inv (I := fun s => Books F s ∧ s.Leaked F m.addr) ?_ ht
      ⟨hbefore.1.step hact.1 hs', hleaked⟩
    intro past s e s' h hN hs
    have hbooks := h.1.step hN hs
    exact ⟨hbooks, h.1.leaked_step h.2 past hs hbooks⟩
  exact hafter.2

/-- What was given back is in no tx window. -/
theorem Books.gone (h : Books F s) (hback : a ∈ freesOf s.done) : ¬ s.user.HasBuffer a := by
  rintro ⟨f, i, hheld⟩
  refine (h.session.story.custody f i a hheld).kept ?_
  rw [h.log, freesOf_append, Multiset.mem_add]
  exact .inl hback

/-- What was sent, and is in no tx window any more, was given back once. -/
theorem Books.back_once (h : Books F s) (htodo : s.todo = []) {deviceId len : ℕ} {m : Msg} {ok : Bool}
    (hsent : .send deviceId m len false ok ∈ s.user.out) (hgone : ¬ s.user.HasBuffer m.addr) :
    F m.addr ∧ m.addr ∈ sendsOf s.done ∧ (freesOf s.done).count m.addr = 1 := by
  have hout : s.user.out = s.done := by rw [h.log, htodo, List.append_nil]
  obtain ⟨pre, post, heq⟩ := List.append_of_mem hsent
  have hfair := h.session.story.told pre _ post heq
  rw [Action.Fair, if_neg Bool.false_ne_true] at hfair
  have hback := (h.session.story.settled deviceId m len ok hsent).resolve_left hgone
  rw [hout] at hback heq
  refine ⟨hfair.1, ?_, le_antisymm (h.told_done.count_freesOf_le hfair.1) (Multiset.count_pos.mpr hback)⟩
  rw [heq, sendsOf_append, Multiset.mem_add]
  exact .inr (Multiset.mem_cons_self _ _)

theorem Books.freedOnce (h : Books F s) (hset : s.Settled F) (htodo : s.todo = []) : s.FreedOnce := by
  intro deviceId m len ok hsent hgone
  obtain ⟨hF, -, hone⟩ := h.back_once htodo hsent hgone
  rw [hset _ hF, hone]

theorem mem_sendsOf {as : List Action} (h : a ∈ sendsOf as) :
    ∃ deviceId m len release ok, .send deviceId m len release ok ∈ as ∧ m.addr = a := by
  induction as with
  | nil => exact absurd h (Multiset.notMem_zero a)
  | cons x as ih =>
    rw [sendsOf_cons, Multiset.mem_add] at h
    rcases h with h | h
    · cases x with
      | send deviceId m len release ok =>
        exact ⟨deviceId, m, len, release, ok, List.mem_cons_self, (Multiset.mem_singleton.mp h).symm⟩
      | _ => exact absurd h (Multiset.notMem_zero a)
    · obtain ⟨deviceId, m, len, release, ok, hmem, haddr⟩ := ih h
      exact ⟨deviceId, m, len, release, ok, List.mem_cons_of_mem x hmem, haddr⟩

theorem Books.not_freedOnce (h : Books F s) (hleaks : s.Leaks F) (htodo : s.todo = []) :
    ¬ s.FreedOnce := by
  have hout : s.user.out = s.done := by rw [h.log, htodo, List.append_nil]
  obtain ⟨a, hF, hsent, hback, hnot⟩ := hleaks
  obtain ⟨deviceId, m, len, release, ok, hmem, rfl⟩ := mem_sendsOf hsent
  obtain ⟨pre, post, heq⟩ := List.append_of_mem hmem
  have hfair := h.told_done pre _ post heq
  cases release with
  | true =>
    rw [Action.Fair, if_pos rfl] at hfair
    exact absurd hF hfair
  | false =>
    intro honce
    have hnone : ¬ s.user.HasBuffer m.addr := by
      rintro ⟨f, i, hheld⟩
      exact (h.session.story.custody f i _ hheld).kept (hout ▸ hback)
    have hone := honce deviceId m len ok (hout ▸ hmem) hnone
    rw [List.count_eq_zero.mpr hnot] at hone
    exact zero_ne_one hone

/-- `DequeFreeReTransBuffer` comes by an entry with `a`, if it is `a` that is left to it. -/
def System.FindsBuffer (s : System) (a : ℕ) : Action → Prop
  | .freeResend m flowId => m.addr = a → (s.flow flowId).queue.Meets a
  | _ => True

instance (s : System) (a : ℕ) : DecidablePred (s.FindsBuffer a)
  | .freeResend m flowId => inferInstanceAs (Decidable (m.addr = a → (s.flow flowId).queue.Meets a))
  | .free _ | .send .. | .post .. | .postMerged .. | .exception .. | .access _ => isTrue trivial

def Event.FindsBuffer (a : ℕ) (_ : List Event) (s : System) : Event → Prop
  | .act _ => ∀ x ∈ s.todo.head?, s.FindsBuffer a x
  | _ => True

instance (a : ℕ) (past : List Event) (s : System) : DecidablePred (Event.FindsBuffer a past s)
  | .act _ => inferInstanceAs (Decidable (∀ x ∈ s.todo.head?, s.FindsBuffer a x))
  | .call .. | .dequeue _ | .write _ => isTrue trivial

theorem Event.Finds.buffer {past : List Event} {e : Event} (h : e.Finds past s) (a : ℕ) :
    e.FindsBuffer a past s := by
  cases e with
  | act netStatus =>
    intro x hx
    cases x with
    | freeResend m f =>
      rintro rfl
      exact h _ hx
    | _ => trivial
  | _ => trivial

theorem Event.findsBuffer_iff {past : List Event} {e : Event} (h : ¬ e.Finds past s) {m : Msg}
    (hhead : s.todo.head? = some (.freeResend m f)) : e.FindsBuffer a past s ↔ a ≠ m.addr := by
  cases e with
  | act netStatus =>
    constructor
    · rintro hbuffer rfl
      refine h fun x hx => ?_
      obtain rfl := Option.some.inj (hhead.symm.trans hx)
      exact hbuffer _ hhead rfl
    · intro hne x hx
      obtain rfl := Option.some.inj (hhead.symm.trans hx)
      exact fun haddr => absurd haddr.symm hne
  | _ => exact absurd trivial h

/-- Of one buffer: what is given back in a step is freed in it, or never. -/
theorem Books.buffer_step (h : Books F s) (hwithin : s.Within F) (hF : F a)
    (hset : s.freed.count (some a) = (freesOf s.done).count a) (past : List Event) {e : Event}
    (hs : e.step s = some t) :
    (e.FindsBuffer a past s → t.freed.count (some a) = (freesOf t.done).count a) ∧
      (¬ e.FindsBuffer a past s → t.Leaked F a) := by
  obtain ⟨l, x, hfreed, hdone, hfinds, hno⟩ := h.freed_step past hs
  have hcount : l.count (some a) = (freesOf x).count a →
      t.freed.count (some a) = (freesOf t.done).count a := fun hl => by
    rw [hfreed, hdone, List.count_append, freesOf_append, Multiset.count_add, hset, hl]
  by_cases hf : e.Finds past s
  · exact ⟨fun _ => hcount (hfinds hf a hF), fun hn => absurd (hf.buffer a) hn⟩
  · obtain ⟨rfl, m, f, rfl, hhead⟩ := hno hf
    obtain ⟨m', f', hhead', hleaked⟩ := h.leaked hwithin past hs hf
    obtain ⟨rfl, rfl⟩ := Action.freeResend.inj (Option.some.inj (hhead.trans hhead'))
    rw [Event.findsBuffer_iff hf hhead', not_not]
    refine ⟨fun hne => hcount ?_, fun heq => heq ▸ hleaked⟩
    exact (Multiset.count_eq_zero.mpr fun hmem => hne (Multiset.mem_singleton.mp hmem)).symm

/-- **No transmit leak.** A buffer that was sent, and that no tx window holds any more, was freed
once, exactly if `DequeFreeReTransBuffer` came by an entry with it when MPD left it to that. -/
theorem freed_run (F : ℕ → Prop) (u : UserInfo) (heap : ℕ → ℕ → ElemType) {events : List Event}
    (hnames : Meets Event.step (Event.Named F) [] events (System.start u heap))
    (hrun : run Event.step events (System.start u heap) = some t) (htodo : t.todo = [])
    {deviceId len : ℕ} {m : Msg} {ok : Bool} (hsent : .send deviceId m len false ok ∈ t.user.out)
    (hgone : ¬ t.user.HasBuffer m.addr) :
    t.freed.count (some m.addr) = 1 ↔
      Meets Event.step (Event.FindsBuffer m.addr) [] events (System.start u heap) := by
  obtain ⟨hF, -, hone⟩ := (books_run hnames hrun).back_once htodo hsent hgone
  have hcases := good_or_bad (C := Event.FindsBuffer m.addr)
    (G := fun s => (Books F s ∧ s.Within F) ∧
      s.freed.count (some m.addr) = (freesOf s.done).count m.addr)
    (B := fun s => Books F s ∧ s.Leaked F m.addr) (fun past s e t h hN hs => ?_)
    (fun past s e t h hN hs => ?_) hnames hrun ⟨⟨books_start F u heap, fun _ _ => le_rfl⟩, rfl⟩
  · rcases hcases with ⟨hmeets, -, hset⟩ | ⟨hnot, -, hleaked⟩
    · exact iff_of_true (hset.trans hone) hmeets
    · refine iff_of_false (fun hcount => ?_) hnot
      rw [List.count_eq_zero.mpr hleaked.kept] at hcount
      exact zero_ne_one hcount
  · have ht := h.1.1.step hN hs
    obtain ⟨hgood, hbad⟩ := h.1.1.buffer_step h.1.2 hF h.2 past hs
    exact ⟨fun hf => ⟨⟨ht, h.1.1.within_step h.1.2 past hs⟩, hgood hf⟩, fun hn => ⟨ht, hbad hn⟩⟩
  · have ht := h.1.step hN hs
    exact ⟨ht, h.1.leaked_step h.2 past hs ht⟩

/-- The packet is written, and is sent again after 30 ticks. -/
def resent (f : Fin 3) (deviceId : ℕ) (events : List Event) : List Event :=
  onePacket f deviceId ++ ([.call (.traffic .txWinRetransCheck) (fun _ => none) fun _ => true] ++
    List.replicate 30 (.call (.traffic .tick) (fun _ => none) fun _ => true) ++
    [.call (.traffic .txWinRetransCheck) (fun _ => none) fun _ => true, .act true] ++ events)

/-- The subflow is closed while the second copy waits, and MPD leaves the buffer to
`DequeFreeReTransBuffer`. -/
def reclaimed (f : Fin 3) (deviceId : ℕ) : List Event :=
  resent f deviceId [.call (.stateInd deviceId 0) (fun _ => none) fun _ => true, .act true]

/-- The subflow is closed when both copies are written. -/
def closed (f : Fin 3) (deviceId : ℕ) : List Event :=
  resent f deviceId [.dequeue f, .write f, .call (.stateInd deviceId 0) (fun _ => none) fun _ => true,
    .act true]

theorem resent_named (u : UserInfo) (heap : ℕ → ℕ → ElemType) {events : List Event}
    (h : ∀ past s, ∀ e ∈ events, e.Named (· = 1) past s) :
    Meets Event.step (Event.Named (· = 1)) [] (resent 0 1 events) (System.start u heap) := by
  refine onePacket_named u heap fun past s e he => ?_
  rcases List.mem_append.mp he with he | he
  · simp only [List.mem_append, List.mem_cons, List.mem_replicate, List.not_mem_nil, or_false] at he
    rcases he with (rfl | ⟨-, rfl⟩) | rfl | rfl
    all_goals first
      | trivial
      | rintro op ⟨⟩
        trivial
  · exact h past s e he

theorem closed_named (u : UserInfo) (heap : ℕ → ℕ → ElemType) :
    Meets Event.step (Event.Named (· = 1)) [] (closed 0 1) (System.start u heap) := by
  refine resent_named u heap fun past s e he => ?_
  simp only [List.mem_cons, List.not_mem_nil, or_false] at he
  rcases he with rfl | rfl | rfl | rfl
  all_goals first
    | trivial
    | rintro op ⟨⟩

theorem reclaimed_named (u : UserInfo) (heap : ℕ → ℕ → ElemType) :
    Meets Event.step (Event.Named (· = 1)) [] (reclaimed 0 1) (System.start u heap) := by
  refine resent_named u heap fun past s e he => ?_
  simp only [List.mem_cons, List.not_mem_nil, or_false] at he
  rcases he with rfl | rfl
  all_goals first
    | trivial
    | rintro op ⟨⟩

/-- The packet as it goes out. -/
def firstMsg (f : Fin 3) : Msg :=
  ⟨1, MPDHeader.encode ⟨0x55, 0, f, 3, 0, 0, 0⟩ 0 ++ List.replicate 8 0⟩

/-- The copy that waits is taken back, and the buffer freed with it. -/
theorem freed_run_reclaimed : ∃ t : System, run Event.step (reclaimed 0 1)
    (System.start {} fun _ _ => ⟨0, none, 0, false, false⟩) = some t ∧
      .freeResend (firstMsg 0) 0 ∈ t.done ∧ t.freed.count (some 1) = 1 := by
  have heval : (run Event.step (reclaimed 0 1)
      (System.start {} fun _ _ => ⟨0, none, 0, false, false⟩)).map (fun t => (t.todo,
        decide (.send 1 (firstMsg 0) 20 false true ∈ t.user.out),
        decide (.freeResend (firstMsg 0) 0 ∈ t.done ∧ 1 ∈ freesOf t.done))) = some ([], true, true) := by
    decide +kernel
  obtain ⟨t, hrun, hproj⟩ := Option.map_eq_some_iff.mp heval
  obtain ⟨htodo, hboth⟩ := Prod.mk.inj hproj
  obtain ⟨hsent, hback⟩ := Prod.mk.inj hboth
  obtain ⟨hleft, hback⟩ := of_decide_eq_true hback
  have hnames := reclaimed_named {} fun _ _ => ⟨0, none, 0, false, false⟩
  refine ⟨t, hrun, hleft, ?_⟩
  refine (freed_run (· = 1) {} _ hnames hrun htodo (of_decide_eq_true hsent) ?_).mpr ?_
  · exact (books_run hnames hrun).gone hback
  · decide +kernel

/-- The subflow is closed when both copies are written, and all queues are empty. -/
theorem closed_left : ∃ s t : System,
    run Event.step (resent 0 1 [.dequeue 0, .write 0, .call (.stateInd 1 0) (fun _ => none) fun _ => true])
        (System.start {} fun _ _ => ⟨0, none, 0, false, false⟩) = some s ∧
      s.todo = [.freeResend (firstMsg 0) 0] ∧ ¬ (s.flow 0).queue.Meets 1 ∧
      run Event.step (closed 0 1) (System.start {} fun _ _ => ⟨0, none, 0, false, false⟩) = some t ∧
      t.todo = [] ∧ .send 1 (firstMsg 0) 20 false true ∈ t.user.out ∧ ∀ f < 3, (t.flow f).ahead = [] := by
  have hleft : (run Event.step
      (resent 0 1 [.dequeue 0, .write 0, .call (.stateInd 1 0) (fun _ => none) fun _ => true])
      (System.start {} fun _ _ => ⟨0, none, 0, false, false⟩)).map
        (fun s => (s.todo, decide ((s.flow 0).queue.Meets 1))) =
          some ([.freeResend (firstMsg 0) 0], false) := by
    decide +kernel
  have hend : (run Event.step (closed 0 1)
      (System.start {} fun _ _ => ⟨0, none, 0, false, false⟩)).map
        (fun t => (t.todo, decide (.send 1 (firstMsg 0) 20 false true ∈ t.user.out),
          decide (∀ f ∈ List.range 3, (t.flow f).ahead.length = 0))) = some ([], true, true) := by
    decide +kernel
  obtain ⟨s, hs, hproj⟩ := Option.map_eq_some_iff.mp hleft
  obtain ⟨hhead, hmeets⟩ := Prod.mk.inj hproj
  obtain ⟨t, ht, hproj⟩ := Option.map_eq_some_iff.mp hend
  obtain ⟨htodo, hboth⟩ := Prod.mk.inj hproj
  obtain ⟨hsent, hempty⟩ := Prod.mk.inj hboth
  refine ⟨s, t, hs, hhead, of_decide_eq_false hmeets, ht, htodo, of_decide_eq_true hsent, ?_⟩
  exact fun f hf => List.length_eq_zero_iff.mp (of_decide_eq_true hempty f (List.mem_range.mpr hf))

/-- Nothing waits any more, and the buffer was not freed. -/
theorem freed_run_closed :
    Meets Event.step (Event.Named (· = 1)) [] (closed 0 1)
        (System.start {} fun _ _ => ⟨0, none, 0, false, false⟩) ∧
      ∃ t : System, run Event.step (closed 0 1)
        (System.start {} fun _ _ => ⟨0, none, 0, false, false⟩) = some t ∧ t.todo = [] ∧
        (∀ f < 3, (t.flow f).ahead = []) ∧ .send 1 (firstMsg 0) 20 false true ∈ t.user.out ∧
        ¬ t.user.HasBuffer 1 ∧ t.freed.count (some 1) ≠ 1 := by
  have hnames := closed_named {} fun _ _ => ⟨0, none, 0, false, false⟩
  obtain ⟨s, t, hs, hhead, hmeets, hrun, htodo, hsent, hempty⟩ := closed_left
  have hlast : run Event.step [.act true] s = some t := by
    rw [show closed 0 1 = resent 0 1 [.dequeue 0, .write 0,
      .call (.stateInd 1 0) (fun _ => none) fun _ => true] ++ [.act true] from rfl, run_append, hs] at hrun
    exact hrun
  have hleaked : t.Leaked (· = 1) 1 :=
    leaked_run (m := firstMsg 0) hnames hs hlast (congrArg List.head? hhead) hmeets
  refine ⟨hnames, t, hrun, htodo, hempty, hsent, (books_run hnames hrun).gone hleaked.back, ?_⟩
  rw [List.count_eq_zero.mpr hleaked.kept]
  exact zero_ne_one

/-- **Leaks.** After a run of MPD and the dispatchers, every buffer that was sent and that no tx
window holds any more was freed once, exactly if `DequeFreeReTransBuffer` came by an entry each time
MPD left a buffer to it. A buffer that was left to it when it came by none is never freed. -/
theorem freedOnce_run (F : ℕ → Prop) (u : UserInfo) (heap : ℕ → ℕ → ElemType) {events : List Event}
    (hnames : Meets Event.step (Event.Named F) [] events (System.start u heap))
    (hrun : run Event.step events (System.start u heap) = some t) :
    (t.todo = [] →
      (t.FreedOnce ↔ Meets Event.step Event.Finds [] events (System.start u heap))) ∧
    ∀ pre post netStatus s m f, events = pre ++ .act netStatus :: post →
      run Event.step pre (System.start u heap) = some s → s.todo.head? = some (.freeResend m f) →
        ¬ (s.flow f).queue.Meets m.addr → some m.addr ∉ t.freed := by
  constructor
  · intro htodo
    have hstart : (System.start u heap).Settled F := fun a _ => rfl
    have hcases := good_or_bad (C := Event.Finds) (G := fun s => Books F s ∧ s.Settled F)
      (B := fun s => Books F s ∧ s.Leaks F) (fun past s e t h hN hs => ?_)
      (fun past s e t h hN hs => ?_) hnames hrun ⟨books_start F u heap, hstart⟩
    · rcases hcases with ⟨hmeets, hbooks, hset⟩ | ⟨hnot, hbooks, hleaks⟩
      · exact iff_of_true (hbooks.freedOnce hset htodo) hmeets
      · exact iff_of_false (hbooks.not_freedOnce hleaks htodo) hnot
    · have ht := h.1.step hN hs
      obtain ⟨hgood, hbad⟩ := h.1.settled_step h.2 past hs
      exact ⟨fun hf => ⟨ht, hgood hf⟩, fun hn => ⟨ht, hbad hn⟩⟩
    · have ht := h.1.step hN hs
      obtain ⟨a, hleaked⟩ := h.2
      exact ⟨ht, a, h.1.leaked_step hleaked past hs ht⟩
  · rintro pre post netStatus s m f rfl hpre hhead hmeets
    refine (leaked_run hnames hpre ?_ hhead hmeets).kept
    rwa [run_append, hpre] at hrun

/-- A packet that is sent once and acknowledged is freed once. Of one that is sent again nothing
waits any more when the subflow is closed, and its buffer leaks. -/
theorem freedOnce_run_exchange :
    (∃ t : System, .send 1 ⟨1, MPDHeader.encode ⟨0x55, 0, 0, 3, 0, 0, 0⟩ 0 ++ List.replicate 8 0⟩ 20
      false true ∈ t.user.out ∧ t.FreedOnce) ∧
    ∃ t : System, run Event.step (closed 0 1) (System.start {} fun _ _ => ⟨0, none, 0, false, false⟩) =
      some t ∧ ¬ t.FreedOnce ∧ some 1 ∉ t.freed := by
  constructor
  · have heval : (run Event.step (exchange 0 1)
        (System.start {} fun _ _ => ⟨0, none, 0, false, false⟩)).map
          (fun t => (t.todo, decide (.send 1 (firstMsg 0) 20 false true ∈ t.user.out))) =
            some ([], true) := by
      decide +kernel
    obtain ⟨t, hrun, hproj⟩ := Option.map_eq_some_iff.mp heval
    obtain ⟨htodo, hsent⟩ := Prod.mk.inj hproj
    exact ⟨t, of_decide_eq_true hsent,
      ((freedOnce_run (· = 1) {} _ (exchange_named _ _) hrun).1 htodo).mpr (by decide +kernel)⟩
  · obtain ⟨s, t, hs, hhead, hmeets, hrun, htodo, -, -⟩ := closed_left
    have hleaks := freedOnce_run (· = 1) {} _ (closed_named _ _) hrun
    have hhead' := congrArg List.head? hhead
    refine ⟨t, hrun, fun honce => ?_, hleaks.2 _ [] true s _ 0 rfl hs hhead' hmeets⟩
    exact hmeets (Meets.last ((hleaks.1 htodo).mp honce) hs _ hhead')

end AndroidVendor.Ratd.SendQueues
