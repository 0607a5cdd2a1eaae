import AndroidVendor.Zebra.EventLoop

/-!
# Delivery of the input events

A round that finds a complete event of plain shape takes exactly that event out of the buffer and
leaves the buffer to be written to. `Kept` says so of every state: the events taken so far and those
in the buffer are the events received, in this order.
-/

namespace AndroidVendor.Zebra

open Framing Machine

variable {s s' : State} {stream pending event t : List UInt8} {n : ℕ}

/-! ### Events and their lengths -/

theorem getD_take_append {k : ℕ} (hk : k < n) (hn : n ≤ stream.length) :
    (stream.take n ++ t).getD k 0 = stream.getD k 0 := by
  rw [List.getD_eq_getElem?_getD, List.getD_eq_getElem?_getD,
    List.getElem?_append_left (by rw [List.length_take]; omega), List.getElem?_take_of_lt hk]

theorem isTouch_take_append (hn : 4 ≤ n) (hle : n ≤ stream.length) :
    isTouch (stream.take n ++ t) = isTouch stream := by
  rw [isTouch, isTouch, getD_take_append (by omega) hle, getD_take_append (by omega) hle]

theorem isKey_take_append (hn : 4 ≤ n) (hle : n ≤ stream.length) :
    isKey (stream.take n ++ t) = isKey stream := by
  rw [isKey, isKey, getD_take_append (by omega) hle, getD_take_append (by omega) hle]

theorem isTouch_take (hn : 4 ≤ n) (hle : n ≤ stream.length) :
    isTouch (stream.take n) = isTouch stream := by
  rw [← isTouch_take_append hn hle (t := []), List.append_nil]

theorem isKey_take (hn : 4 ≤ n) (hle : n ≤ stream.length) :
    isKey (stream.take n) = isKey stream := by
  rw [← isKey_take_append hn hle (t := []), List.append_nil]

theorem lengthField_take_append (hn : 8 ≤ n) (hle : n ≤ stream.length) :
    lengthField (stream.take n ++ t) = lengthField stream := by
  rw [lengthField, lengthField, getD_take_append (by omega) hle, getD_take_append (by omega) hle,
    getD_take_append (by omega) hle, getD_take_append (by omega) hle]

theorem eventLength_take_append (hn : 8 ≤ n) (hle : n ≤ stream.length) :
    eventLength (stream.take n ++ t) = eventLength stream := by
  rw [eventLength, eventLength, isTouch_take_append (by omega) hle,
    isKey_take_append (by omega) hle, lengthField_take_append hn hle]

theorem le_eventLength (head : List UInt8) : 8 ≤ eventLength head := by
  rw [eventLength]
  split
  · omega
  · split
    · omega
    · omega

theorem firstEvent_eq_some (h : firstEvent stream = some n) :
    n = eventLength stream ∧ n ≤ stream.length := by
  rw [firstEvent] at h
  split at h
  · rename_i hle
    obtain rfl := Option.some.inj h
    exact ⟨rfl, hle.2⟩
  · exact nomatch h

theorem delimits_firstEvent : Delimits firstEvent where
  pos stream n h := by
    have := le_eventLength stream
    rw [(firstEvent_eq_some h).1]
    omega
  le stream n h := (firstEvent_eq_some h).2
  own stream n t h := by
    obtain ⟨rfl, hle⟩ := firstEvent_eq_some h
    have h8 := le_eventLength stream
    have hsame : eventLength (stream.take (eventLength stream) ++ t) = eventLength stream :=
      eventLength_take_append h8 hle
    have hlen : (stream.take (eventLength stream) ++ t).length = eventLength stream + t.length := by
      rw [List.length_append, List.length_take, Nat.min_eq_left hle]
    rw [firstEvent, hsame, hlen]
    exact if_pos ⟨by omega, by omega⟩

/-! ### The condition -/

/-- A touch event has a width and a height; an event of another type has nothing behind its head. -/
def Plain (event : List UInt8) : Prop :=
  (isTouch event = true → word event 22 ≠ 0 ∧ word event 24 ≠ 0) ∧
    (isTouch event = false → isKey event = false → lengthField event = 8)

instance (event : List UInt8) : Decidable (Plain event) :=
  inferInstanceAs (Decidable (_ ∧ _))

/-- What keeps the loop in step with the stream: a byte string fits behind what is in the buffer,
its events are plain, and a round finds nothing or a complete event. -/
def Orderly (_past : List Op) (s : State) : Op → Prop
  | .notifyEvent event =>
    s.eventBuf.position + event.length ≤ 1024 ∧
      ∀ e ∈ messages firstEvent (s.received ++ event), Plain e
  | .runRound =>
    s.eventBuf.position = 0 ∨ firstEvent (s.eventBuf.hb.take s.eventBuf.position) ≠ none

instance (past : List Op) (s : State) : ∀ op, Decidable (Orderly past s op)
  | .notifyEvent event =>
    inferInstanceAs (Decidable (s.eventBuf.position + event.length ≤ 1024 ∧
      ∀ e ∈ messages firstEvent (s.received ++ event), Plain e))
  | .runRound =>
    inferInstanceAs (Decidable (s.eventBuf.position = 0 ∨
      firstEvent (s.eventBuf.hb.take s.eventBuf.position) ≠ none))

/-! ### One round -/

theorem touchEvent_isSome (hw : word t 6 ≠ 0) (hh : word t 8 ≠ 0) :
    ∃ e, touchEvent t = some e := by
  rw [touchEvent]
  simp only [hw, hh, or_self, if_false]
  split
  · exact ⟨_, rfl⟩
  · exact ⟨_, rfl⟩
  · exact ⟨_, rfl⟩

theorem word_drop (event : List UInt8) (m k : ℕ) : word (event.drop m) k = word event (m + k) := by
  rw [word, word, List.getD_eq_getElem?_getD, List.getD_eq_getElem?_getD, List.getElem?_drop,
    List.getElem?_drop, ← List.getD_eq_getElem?_getD, ← List.getD_eq_getElem?_getD, Nat.add_assoc]

/-- What a round makes of a complete event. -/
structure Advanced (s : State) (pending : List UInt8) (n : ℕ) (s' : State) : Prop where
  holds : s'.eventBuf.Holds (pending.drop n)
  capacity : s'.eventBuf.capacity = s.eventBuf.capacity
  received : s'.received = s.received
  taken : s'.taken = s.taken ++ pending.take n
  dispatched : s'.dispatched = s.dispatched ++ (toDispatch (pending.take n)).toList

/-- The head of a complete event is read, and the rest of the round follows. -/
theorem runRound_eq_runBody (hb : s.eventBuf.Holds pending) (h16 : 16 ≤ pending.length) :
    ∃ b, s.runRound = (s.took (pending.take 16) b).runBody (pending.take 16) ∧
      b.Reads (pending.drop 16) ∧ b.capacity = s.eventBuf.capacity := by
  have hpos : s.eventBuf.position ≠ 0 := by
    rw [← hb.length]
    omega
  obtain ⟨b, hget, hreads, hcap⟩ := hb.flip.get h16
  refine ⟨b, ?_, hreads, hcap⟩
  rw [State.runRound, if_neg hpos]
  simp only [hget]

/-- A round that reads `m` bytes behind the head, and no more. -/
theorem Advanced.of_get {b : ByteBuffer UInt8} {m : ℕ} (hreads : b.Reads (pending.drop 16))
    (hcap : b.capacity = s.eventBuf.capacity) (hm : 16 + m ≤ pending.length) (e : List Event)
    (he : (toDispatch (pending.take (16 + m))).toList = e) :
    ∃ b', b.get m = some ((pending.take (16 + m)).drop 16, b') ∧
      Advanced s pending (16 + m)
        { s with
          eventBuf := b'.compact
          taken := s.taken ++ pending.take 16 ++ (pending.take (16 + m)).drop 16
          dispatched := s.dispatched ++ e } := by
  have hbody : (pending.drop 16).take m = (pending.take (16 + m)).drop 16 := by
    rw [List.drop_take, Nat.add_sub_cancel_left]
  obtain ⟨b', hget, hreads', hcap'⟩ := hreads.get (n := m) (by rw [List.length_drop]; omega)
  rw [hbody] at hget
  rw [List.drop_drop] at hreads'
  refine ⟨b', hget, hreads'.compact.1, ?_, rfl, ?_, by rw [he]⟩
  · show b'.compact.capacity = s.eventBuf.capacity
    rw [hreads'.compact.2, hcap', hcap]
  · show s.taken ++ pending.take 16 ++ (pending.take (16 + m)).drop 16 =
      s.taken ++ pending.take (16 + m)
    rw [List.append_assoc, ← hbody, ← List.take_add]

theorem runRound_advances (hb : s.eventBuf.Holds pending) (hn : firstEvent pending = some n)
    (hplain : Plain (pending.take n)) : Advanced s pending n s.runRound := by
  obtain ⟨hlen, hle⟩ := firstEvent_eq_some hn
  have h8 := le_eventLength pending
  have htouch : isTouch (pending.take n) = isTouch pending := isTouch_take (by omega) hle
  have hkey : isKey (pending.take n) = isKey pending := isKey_take (by omega) hle
  have hfield : lengthField (pending.take n) = lengthField pending := by
    rw [← lengthField_take_append (t := []) (by omega) hle, List.append_nil]
  have h16 : 16 ≤ n := by
    rw [hlen, eventLength]
    split
    · omega
    · rename_i hT
      split
      · omega
      · rename_i hK
        have := hplain.2 (htouch.trans (Bool.eq_false_iff.mpr hT))
          (hkey.trans (Bool.eq_false_iff.mpr hK))
        omega
  obtain ⟨b, hround, hreads, hcap⟩ := runRound_eq_runBody hb (Nat.le_trans h16 hle)
  have htouch16 : isTouch (pending.take 16) = isTouch pending := isTouch_take (by omega) (by omega)
  have hkey16 : isKey (pending.take 16) = isKey pending := isKey_take (by omega) (by omega)
  rw [hround, State.runBody, htouch16, hkey16]
  rw [eventLength] at hlen
  cases hT : isTouch pending with
  | true =>
    rw [hT, if_pos rfl] at hlen
    subst hlen
    obtain ⟨hw, hh⟩ := hplain.1 (by rw [htouch, hT])
    obtain ⟨e, he⟩ := touchEvent_isSome (t := (pending.take 26).drop 16)
      (by rw [word_drop]; exact hw) (by rw [word_drop]; exact hh)
    have hdisp : (toDispatch (pending.take 26)).toList = [e] := by
      rw [toDispatch, htouch, hT, if_pos rfl, he]
      rfl
    obtain ⟨b', hget, hadv⟩ := Advanced.of_get (m := 10) hreads hcap hle [e] hdisp
    have hget' : (s.took (pending.take 16) b).eventBuf.get 10 = _ := hget
    simp only [if_true, hget', he]
    exact hadv
  | false =>
    have hne : ¬ false = true := Bool.false_ne_true
    rw [hT, if_neg hne] at hlen
    rw [if_neg hne]
    cases hK : isKey pending with
    | true =>
      rw [hK, if_pos rfl] at hlen
      subst hlen
      have hdisp : (toDispatch (pending.take 18)).toList =
          [keyEvent ((pending.take 18).drop 16)] := by
        rw [toDispatch, htouch, hT, if_neg hne, hkey, hK]
        rfl
      obtain ⟨b', hget, hadv⟩ := Advanced.of_get (m := 2) hreads hcap hle _ hdisp
      have hget' : (s.took (pending.take 16) b).eventBuf.get 2 = _ := hget
      simp only [if_true, hget']
      exact hadv
    | false =>
      rw [hK, if_neg hne] at hlen
      have hplain8 := hplain.2 (by rw [htouch, hT]) (by rw [hkey, hK])
      obtain rfl : n = 16 := by omega
      have hdisp : (toDispatch (pending.take 16)).toList = [] := by
        rw [toDispatch, htouch, hT, if_neg hne, hkey, hK, if_neg hne]
        rfl
      rw [if_neg hne]
      refine ⟨hreads.compact.1, ?_, rfl, rfl, ?_⟩
      · show b.compact.capacity = s.eventBuf.capacity
        rw [hreads.compact.2, hcap]
      · rw [hdisp, List.append_nil]
        rfl

/-! ### Runs -/

/-- The events in `done` have been taken and injected; `pending` is in the buffer. -/
structure Kept (s : State) (done : List (List UInt8)) (pending : List UInt8) : Prop where
  holds : s.eventBuf.Holds pending
  capacity : s.eventBuf.capacity = 1024
  received : s.received = s.taken ++ pending
  taken : ∀ t, messages firstEvent (s.taken ++ t) = done ++ messages firstEvent t
  dispatched : s.dispatched = done.filterMap toDispatch
  plain : ∀ e ∈ messages firstEvent pending, Plain e

theorem kept_new : Kept .new [] [] where
  holds := ByteBuffer.holds_allocate 1024 0
  capacity := by
    show (List.replicate 1024 (0 : UInt8)).length = 1024
    rw [List.length_replicate]
  received := rfl
  taken _ := rfl
  dispatched := rfl
  plain := by
    intro e he
    rw [messages_of_none rfl] at he
    exact nomatch he

/-- A stream whose first event is complete. -/
theorem messages_of_first (hn : firstEvent stream = some n) :
    messages firstEvent stream = stream.take n :: messages firstEvent (stream.drop n) := by
  have := messages_append delimits_firstEvent (delimits_firstEvent.take hn) (stream.drop n)
  rwa [List.take_append_drop] at this

theorem Kept.runRound {done : List (List UInt8)} (h : Kept s done pending)
    (hn : firstEvent pending = some n) :
    Kept s.runRound (done ++ [pending.take n]) (pending.drop n) := by
  have hmsgs := messages_of_first hn
  have hadv := runRound_advances h.holds hn (h.plain _ (by rw [hmsgs]; exact List.mem_cons_self))
  constructor
  · exact hadv.holds
  · rw [hadv.capacity, h.capacity]
  · rw [hadv.received, hadv.taken, h.received, List.append_assoc, List.take_append_drop]
  · intro t
    rw [hadv.taken, List.append_assoc, h.taken,
      messages_append delimits_firstEvent (delimits_firstEvent.take hn), List.append_assoc,
      List.singleton_append]
  · rw [hadv.dispatched, h.dispatched, List.filterMap_append]
    congr 1
  · intro e he
    exact h.plain e (by rw [hmsgs]; exact List.mem_cons_of_mem _ he)

theorem Kept.notifyEvent {done : List (List UInt8)} (h : Kept s done pending)
    (hfit : s.eventBuf.position + event.length ≤ 1024)
    (hplain : ∀ e ∈ messages firstEvent (s.received ++ event), Plain e) :
    Kept (s.notifyEvent event) done (pending ++ event) := by
  have hlen := h.holds.length
  obtain ⟨b, hput, hholds, hcap⟩ := h.holds.put
    (show pending.length + event.length ≤ s.eventBuf.capacity by rw [h.capacity]; omega)
  have hnotify : s.notifyEvent event =
      { s with eventBuf := b, received := s.received ++ event } := by
    rw [State.notifyEvent, if_neg (by omega)]
    simp only [hput]
  rw [hnotify]
  constructor
  · exact hholds
  · exact hcap.trans h.capacity
  · show s.received ++ event = s.taken ++ (pending ++ event)
    rw [h.received, List.append_assoc]
  · exact h.taken
  · exact h.dispatched
  · intro e he
    refine hplain e ?_
    rw [h.received, List.append_assoc, h.taken]
    exact List.mem_append_right _ he

/-- With nobody writing, the rounds inject what is complete in the buffer. -/
theorem Kept.drains {done : List (List UInt8)} (h : Kept s done pending) :
    ∃ n, (State.runRound^[n] s).dispatched = events s.received := by
  have hevents : events s.received =
      done.filterMap toDispatch ++ (messages firstEvent pending).filterMap toDispatch := by
    rw [events, h.received, h.taken, List.filterMap_append]
  induction hl : pending.length using Nat.strongRecOn generalizing s done pending with
  | ind l ih =>
    cases hn : firstEvent pending with
    | none =>
      refine ⟨0, ?_⟩
      rw [Function.iterate_zero, id, h.dispatched, hevents, messages_of_none hn]
      exact (List.append_nil _).symm
    | some n =>
      have hpos := delimits_firstEvent.pos _ _ hn
      have hle := delimits_firstEvent.le _ _ hn
      have hnext := h.runRound hn
      have hreceived : s.runRound.received = s.received :=
        (runRound_advances h.holds hn (h.plain _ (by
          rw [messages_of_first hn]
          exact List.mem_cons_self))).received
      obtain ⟨k, hk⟩ := ih (pending.drop n).length (by rw [List.length_drop]; omega) hnext
        (by rw [events, hnext.received, hnext.taken, List.filterMap_append]) rfl
      refine ⟨k + 1, ?_⟩
      rw [Function.iterate_succ_apply, hk, hreceived]

theorem Kept.delivers {done : List (List UInt8)} (h : Kept s done pending) : Delivers s := by
  refine ⟨?_, ?_, h.drains⟩
  · rw [h.received]
    exact List.prefix_append _ _
  · rw [events, h.received, h.taken, List.filterMap_append, h.dispatched]
    exact List.prefix_append _ _

/-- In every interleaving of calls and rounds that keeps to `Orderly`, the events of the stream are
injected exactly once, in their order. -/
theorem eventLoop_run {ops : List Op} {t : State} (hrun : Guarded Op.step Orderly .new ops t) :
    Delivers t := by
  have hkept : ∃ done pending, Kept t done pending := by
    refine hrun.inv (I := fun _ s => ∃ done pending, Kept s done pending) ?_ ⟨[], [], kept_new⟩
    rintro past op s s' ⟨done, pending, h⟩ hC hs
    cases op with
    | notifyEvent event =>
      obtain rfl := Option.some.inj hs
      exact ⟨done, pending ++ event, h.notifyEvent hC.1 hC.2⟩
    | runRound =>
      obtain rfl := Option.some.inj hs
      by_cases hpos : s.eventBuf.position = 0
      · rw [State.runRound, if_pos hpos]
        exact ⟨done, pending, h⟩
      · have hfirst := hC.resolve_left hpos
        rw [h.holds.2.2] at hfirst
        obtain ⟨n, hn⟩ := Option.ne_none_iff_exists'.mp hfirst
        exact ⟨_, _, h.runRound hn⟩
  obtain ⟨done, pending, h⟩ := hkept
  exact h.delivers

/-- The back key. -/
def keyBytes : List UInt8 :=
  [0xEE, 0xAA, 0x03, 0x02, 0x00, 0x00, 0x00, 0x0A, 0x00, 0x00, 0x00, 0x00, 0x00, 0x00, 0x00, 0x00,
    0x00, 0x9E]

/-- A touch event. -/
def touchBytes : List UInt8 :=
  [0xEE, 0xAA, 0x03, 0x01, 0x00, 0x00, 0x00, 0x12, 0x00, 0x00, 0x00, 0x00, 0x00, 0x00, 0x00, 0x00,
    0x00, 0x01, 0x00, 0x64, 0x00, 0xC8, 0x02, 0xD0, 0x05, 0xA0]

/-- Two byte strings that end inside and at an event, and then the rounds. -/
theorem eventLoop_run_split :
    (run Op.step [.notifyEvent (keyBytes ++ touchBytes.take 5), .notifyEvent (touchBytes.drop 5),
        .runRound, .runRound] .new).map (·.dispatched) =
      some [.key 4, .touch actionMove 150 300 1] ∧
    ∀ t, run Op.step [.notifyEvent (keyBytes ++ touchBytes.take 5),
        .notifyEvent (touchBytes.drop 5), .runRound, .runRound] .new = some t → Delivers t := by
  have hmeets : Meets Op.step Orderly [] [.notifyEvent (keyBytes ++ touchBytes.take 5),
      .notifyEvent (touchBytes.drop 5), .runRound, .runRound] .new := by
    decide +kernel
  exact ⟨by decide +kernel, fun t ht => eventLoop_run (hmeets.guarded ht)⟩

/-- A round between the two parts of an event: the buffer stays in read mode, the second part is
written over the first, and the event is never injected. -/
theorem eventLoop_truncated :
    ∃ t, run Op.step [.notifyEvent (keyBytes.take 10), .runRound, .notifyEvent (keyBytes.drop 10),
        .runRound] .new = some t ∧ ¬ Delivers t := by
  have hrun : (run Op.step [.notifyEvent (keyBytes.take 10), .runRound,
      .notifyEvent (keyBytes.drop 10), .runRound] .new).map
        (fun t => (decide (t.runRound = t), t.dispatched, events t.received)) =
      some (true, [], [.key 4]) := by
    decide +kernel
  obtain ⟨t, ht, hvals⟩ := Option.map_eq_some_iff.mp hrun
  obtain ⟨hfix, hvals⟩ := Prod.mk.inj hvals
  obtain ⟨hdisp, hevents⟩ := Prod.mk.inj hvals
  refine ⟨t, ht, ?_⟩
  rintro ⟨-, -, n, hn⟩
  rw [Function.iterate_fixed (of_decide_eq_true hfix), hdisp, hevents] at hn
  exact nomatch hn

end AndroidVendor.Zebra
