import Mathlib.Data.List.Nodup
import AndroidVendor.Audio.OutWrite

/-!
# Framing of the audio output stream

The messages stay whole as long as three things are kept: `sendOpenStream`, which runs without the
mutex, does not meet it locked; what a short send left unfinished is the last on its connection; and
a message is continued on the connection it was begun on.
-/

namespace AndroidVendor.Audio

open Framing Machine

variable {s s' : State} {w : Write} {i j : ℕ} {pc : Pc} {answer : Option ℕ} {h : List UInt8}

/-! ### Messages -/

/-- The bytes of `send_play`: only `send_play[13]` to `send_play[15]` are ever assigned. -/
def Play (p : List UInt8) : Prop :=
  ∃ a b c, p = [0x7e, 0xa5, 0x00, 0x00, 0x00, 0x12, 0x00, 0x02,
    0x04, 0x4a, 0x00, 0x00, 0x00, a, b, c, 0x00, 0x02, 0x00, 0x02, 0x7e, 0x0d]

theorem Play.wellFormed {p : List UInt8} (hp : Play p) : WellFormed p := by
  obtain ⟨a, b, c, rfl⟩ := hp
  exact ⟨by simp, rfl, by simp [lengthField], rfl⟩

theorem Play.set {p : List UInt8} (hp : Play p) {k : ℕ} (hk : k = 13 ∨ k = 14 ∨ k = 15)
    (v : UInt8) : Play (p.set k v) := by
  obtain ⟨a, b, c, rfl⟩ := hp
  rcases hk with rfl | rfl | rfl
  · exact ⟨v, b, c, rfl⟩
  · exact ⟨a, v, c, rfl⟩
  · exact ⟨a, b, v, rfl⟩

/-- A complete head of the message of `w`. -/
def HeadOf (w : Write) (h : List UInt8) : Prop :=
  h.length = 18 ∧ h.take 2 = [0x7e, 0xa5] ∧ lengthField h = w.buffer.length + 16

theorem lengthField_append (h t : List UInt8) (hlen : 6 ≤ h.length) :
    lengthField (h ++ t) = lengthField h := by
  have hget : ∀ k, k < 6 → (h ++ t).getD k 0 = h.getD k 0 := by
    intro k hk
    rw [List.getD_eq_getElem?_getD, List.getD_eq_getElem?_getD, List.getElem?_append_left (by omega)]
  rw [lengthField, lengthField, hget 2 (by omega), hget 3 (by omega), hget 4 (by omega),
    hget 5 (by omega)]

theorem HeadOf.wellFormed (hh : HeadOf w h) : WellFormed (h ++ w.buffer ++ sendTail) := by
  obtain ⟨hlen, htake, hfield⟩ := hh
  have htail : sendTail.length = 2 := rfl
  have hall : (h ++ w.buffer ++ sendTail).length = w.buffer.length + 20 := by
    rw [List.length_append, List.length_append, hlen, htail]
    omega
  refine ⟨by omega, ?_, ?_, ?_⟩
  · rw [List.append_assoc, List.take_append_of_le_length (by omega), htake]
  · rw [List.append_assoc, lengthField_append _ _ (by omega), hfield, ← List.append_assoc, hall]
    omega
  · rw [hall, List.drop_left' (by rw [List.length_append, hlen]; omega)]
    rfl

/-- Four bytes hold a number below `2 ^ 32`. -/
theorem bytes_sum {n : ℕ} (hn : n < 2 ^ 32) :
    (UInt8.ofNat (n >>> 24)).toNat * 2 ^ 24 + (UInt8.ofNat (n >>> 16)).toNat * 2 ^ 16 +
      (UInt8.ofNat (n >>> 8)).toNat * 2 ^ 8 + (UInt8.ofNat n).toNat = n := by
  simp only [UInt8.toNat_ofNat', Nat.shiftRight_eq_div_pow]
  omega

/-- `send_head` keeps its length and its start mark. -/
def HeadShape (h : List UInt8) : Prop := h.length = 18 ∧ h.take 2 = [0x7e, 0xa5]

theorem headFields_index {f : ℕ × UInt8} (hf : f ∈ headFields w) : 2 ≤ f.1 ∧ f.1 < 18 := by
  simp only [headFields, List.mem_cons, List.not_mem_nil, or_false] at hf
  rcases hf with rfl | rfl | rfl | rfl | rfl | rfl | rfl | rfl | rfl | rfl | rfl | rfl <;>
    simp

/-- Two assignments to one byte are the same assignment. -/
theorem headFields_inj {f g : ℕ × UInt8} (hf : f ∈ headFields w) (hg : g ∈ headFields w)
    (h : f.1 = g.1) : f = g := by
  have hnodup : ((headFields w).map Prod.fst).Nodup := by
    simp only [headFields, List.map_cons, List.map_nil]
    decide
  exact List.inj_on_of_nodup_map hnodup hf hg h

theorem HeadShape.set (hh : HeadShape h) {f : ℕ × UInt8} (hf : f ∈ headFields w) :
    HeadShape (h.set f.1 f.2) := by
  refine ⟨by rw [List.length_set, hh.1], ?_⟩
  rw [List.take_set_of_le (headFields_index hf).1, hh.2]

/-- The assignments that are not left to do have been done. -/
def Filled (w : Write) (todo : List (ℕ × UInt8)) (h : List UInt8) : Prop :=
  todo <:+ headFields w ∧ ∀ f ∈ headFields w, f ∈ todo ∨ h[f.1]? = some f.2

theorem Filled.all (w : Write) (h : List UInt8) : Filled w (headFields w) h :=
  ⟨List.suffix_rfl, fun _ hf => .inl hf⟩

theorem Filled.set {f : ℕ × UInt8} {todo : List (ℕ × UInt8)} (hfill : Filled w (f :: todo) h)
    (hh : HeadShape h) : Filled w todo (h.set f.1 f.2) := by
  have hf : f ∈ headFields w := hfill.1.subset List.mem_cons_self
  refine ⟨(List.suffix_cons f todo).trans hfill.1, ?_⟩
  intro g hg
  by_cases hfg : f.1 = g.1
  · obtain rfl := headFields_inj hf hg hfg
    refine .inr (List.getElem?_set_self ?_)
    rw [hh.1]
    exact (headFields_index hf).2
  · rcases hfill.2 g hg with hmem | hset
    · rcases List.mem_cons.mp hmem with rfl | hmem
      · exact absurd rfl hfg
      · exact .inl hmem
    · exact .inr (by rw [List.getElem?_set_ne hfg, hset])

theorem Filled.headOf (hfill : Filled w [] h) (hh : HeadShape h) (hw : w.buffer.length < 2 ^ 31) :
    HeadOf w h := by
  have hlen : (playDataSize + w.buffer.length - 4) % 2 ^ 32 = w.buffer.length + 16 := by
    rw [playDataSize]
    omega
  have hget : ∀ f ∈ headFields w, h.getD f.1 0 = f.2 := by
    intro f hf
    rcases hfill.2 f hf with hnil | hset
    · exact absurd hnil List.not_mem_nil
    · rw [List.getD_eq_getElem?_getD, hset, Option.getD_some]
  have h2 : h.getD 2 0 = .ofNat ((w.buffer.length + 16) >>> 24) := by
    rw [← hlen]
    exact hget (2, _) (.head _)
  have h3 : h.getD 3 0 = .ofNat ((w.buffer.length + 16) >>> 16) := by
    rw [← hlen]
    exact hget (3, _) (.tail _ (.head _))
  have h4 : h.getD 4 0 = .ofNat ((w.buffer.length + 16) >>> 8) := by
    rw [← hlen]
    exact hget (4, _) (.tail _ (.tail _ (.head _)))
  have h5 : h.getD 5 0 = .ofNat (w.buffer.length + 16) := by
    rw [← hlen]
    exact hget (5, _) (.tail _ (.tail _ (.tail _ (.head _))))
  refine ⟨hh.1, hh.2, ?_⟩
  rw [lengthField, h2, h3, h4, h5, bytes_sum (by omega)]

/-! ### The condition -/

/-- A step of `sendOpenStream` that touches `sendMutex_cc` or the socket finds the mutex free, and
writes nothing behind an unfinished message. -/
def OpensFree (s : State) (answer : Option ℕ) : OpenPc → Prop
  | .enter | .leave => s.sendMutex = false
  | .send => s.sendMutex = false ∧ (writes answer = true → s.cut = false)
  | _ => True

/-- What keeps the messages whole, asked of the next step of a thread: nothing is written behind an
unfinished message, and a message is continued where it was begun. -/
def Pc.Exclusive (s : State) (answer : Option ℕ) : Pc → Prop
  | .opening pc _ => OpensFree s answer pc
  | .fill [] _ => writes answer = true → s.cut = false
  | .body _ on | .tail _ on => writes answer = true → s.cut = false ∧ on = s.conn
  | _ => True

def CcPc.Exclusive (s : State) (answer : Option ℕ) : CcPc → Prop
  | .opening pc => OpensFree s answer pc
  | _ => True

def Exclusive (_past : List Op) (s : State) : Op → Prop
  | .outWrite _ w => w.buffer.length < 2 ^ 31
  | .openStream _ => True
  | .thread i answer => (s.thread i).Exclusive s answer
  | .cc answer => s.ccThread.Exclusive s answer

instance (s : State) (answer : Option ℕ) : ∀ pc, Decidable (OpensFree s answer pc)
  | .enter | .leave => inferInstanceAs (Decidable (s.sendMutex = false))
  | .send => inferInstanceAs (Decidable (_ ∧ (writes answer = true → s.cut = false)))
  | .id | .rateHigh | .rateLow => isTrue trivial

instance (s : State) (answer : Option ℕ) : ∀ pc : Pc, Decidable (pc.Exclusive s answer)
  | .opening pc _ => inferInstanceAs (Decidable (OpensFree s answer pc))
  | .fill [] _ => inferInstanceAs (Decidable (writes answer = true → s.cut = false))
  | .body _ on | .tail _ on =>
    inferInstanceAs (Decidable (writes answer = true → s.cut = false ∧ on = s.conn))
  | .idle | .count _ | .choose _ | .take _ | .compare _ | .connected _ | .lock _
  | .fill (_ :: _) _ | .unlock => isTrue trivial

instance (s : State) (answer : Option ℕ) : ∀ pc : CcPc, Decidable (pc.Exclusive s answer)
  | .opening pc => inferInstanceAs (Decidable (OpensFree s answer pc))
  | .top | .dial | .linked | .check | .closing | .receive => isTrue trivial

instance (past : List Op) (s : State) : ∀ op, Decidable (Exclusive past s op)
  | .outWrite _ w => inferInstanceAs (Decidable (w.buffer.length < 2 ^ 31))
  | .openStream _ => isTrue trivial
  | .thread i answer => inferInstanceAs (Decidable ((s.thread i).Exclusive s answer))
  | .cc answer => inferInstanceAs (Decidable (s.ccThread.Exclusive s answer))

/-! ### The invariant -/

/-- Between the lock and the unlock of `out_write`. -/
def Pc.holds : Pc → Bool
  | .fill .. | .body .. | .tail .. | .unlock => true
  | _ => false

/-- The arguments of the call. -/
def Pc.write? : Pc → Option Write
  | .idle | .unlock => none
  | .opening _ next => next
  | .count w | .choose w | .take w | .compare w | .connected w | .lock w => some w
  | .fill _ w | .body w _ | .tail w _ => some w

/-- The connection on which the call has begun its message. -/
def Pc.on? : Pc → Option ℕ
  | .body _ on | .tail _ on => some on
  | _ => none

/-- What the call has written of its message. -/
def Pc.Begun (part : List UInt8) : Pc → Prop
  | .body w _ => HeadOf w part
  | .tail w _ => ∃ h, HeadOf w h ∧ part = h ++ w.buffer
  | _ => False

/-- The stream is whole messages, and what the call that is under way on this connection has written
of its own. -/
def Balanced (s : State) (stream : List UInt8) : Prop :=
  ∃ t part, Whole WellFormed t ∧ stream = t ++ part ∧
    (part = [] ∧ (∀ i, (s.thread i).on? ≠ some s.conn) ∨
      ∃ i, (s.thread i).on? = some s.conn ∧ (s.thread i).Begun part)

/-- How many connections there have been. -/
def State.dialled (s : State) : ℕ := s.closed.length + s.wire.toList.length

/-- Where the threads stand. -/
structure Placed (s : State) : Prop where
  /-- The mutex is locked while a thread is between lock and unlock, -/
  locked : ∀ i, (s.thread i).holds = true → s.sendMutex = true
  /-- and no two threads are. -/
  alone : ∀ i j, (s.thread i).holds = true → (s.thread j).holds = true → i = j
  play : Play s.sendPlay
  head : HeadShape s.sendHead
  filled : ∀ i todo w, s.thread i = .fill todo w → Filled w todo s.sendHead
  small : ∀ i w, (s.thread i).write? = some w → w.buffer.length < 2 ^ 31
  /-- A message under way was begun on a connection that there was, -/
  begun : ∀ i on, (s.thread i).on? = some on → on < s.dialled
  /-- and a new connection is made only where there is none. -/
  unlinked : s.isConnectCc = false → s.ccThread ≠ .linked → s.ccThread ≠ .closing → s.wire = none
  dialling : s.ccThread = .dial → s.isConnectCc = false

/-- And what the streams are. -/
structure Sound (s : State) : Prop extends Placed s where
  closed : ∀ stream ∈ s.closed, Framed WellFormed stream
  cut : ∀ stream, s.wire = some stream → s.cut = true → Framed WellFormed stream
  wire : ∀ stream, s.wire = some stream → s.cut = false → Balanced s stream

theorem Pc.holds_of_on {on : ℕ} (h : pc.on? = some on) : pc.holds = true := by
  cases pc <;> first | rfl | exact nomatch h

theorem Pc.Begun.begins {part : List UInt8} (h : pc.Begun part) :
    ∃ m, WellFormed m ∧ part <+: m := by
  cases pc with
  | body w on =>
    refine ⟨_, HeadOf.wellFormed h, ?_⟩
    rw [List.append_assoc]
    exact List.prefix_append _ _
  | tail w on =>
    obtain ⟨hd, hh, rfl⟩ := h
    exact ⟨_, hh.wellFormed, List.prefix_append _ _⟩
  | _ => exact h.elim

theorem Balanced.framed {stream : List UInt8} (h : Balanced s stream) :
    Framed WellFormed stream := by
  obtain ⟨t, part, ht, rfl, ⟨rfl, -⟩ | ⟨i, -, hi⟩⟩ := h
  · rw [List.append_nil]
    exact ht.framed
  · obtain ⟨m, hm, hpre⟩ := hi.begins
    exact ht.framed_append hm hpre

/-- The property follows from the invariant. -/
theorem Sound.framedStreams (h : Sound s) : FramedStreams s := by
  intro stream hmem
  rcases List.mem_append.mp hmem with hmem | hmem
  · exact h.closed stream hmem
  · have hw : s.wire = some stream := by simpa using hmem
    cases hcut : s.cut with
    | true => exact h.cut stream hw hcut
    | false => exact (h.wire stream hw hcut).framed

theorem Sound.opened (rtmpID : UInt8) (out : StubStreamOut) : Sound (.opened rtmpID out) where
  locked _ h := nomatch h
  alone _ _ h := nomatch h
  play := ⟨0x00, 0x3e, 0x80, rfl⟩
  head := ⟨rfl, rfl⟩
  filled _ _ _ h := nomatch h
  small _ _ h := nomatch h
  begun _ _ h := nomatch h
  unlinked _ _ _ := rfl
  dialling h := nomatch h
  closed _ h := nomatch h
  cut _ h := nomatch h
  wire _ h := nomatch h

/-! ### What the invariant says of the stream -/

theorem Sound.framed_wire (h : Sound s) {stream : List UInt8} (hw : s.wire = some stream) :
    Framed WellFormed stream :=
  h.framedStreams stream (List.mem_append_right _ (by simp [hw]))

theorem Sound.free (h : Sound s) (hm : s.sendMutex = false) (i : ℕ) :
    (s.thread i).holds = false := by
  cases hi : (s.thread i).holds with
  | false => rfl
  | true => exact absurd (h.locked i hi) (by simp [hm])

/-- Nobody has begun a message on this connection. -/
theorem Sound.whole (h : Sound s) {stream : List UInt8} (hw : s.wire = some stream)
    (hcut : s.cut = false) (hnone : ∀ i, (s.thread i).on? ≠ some s.conn) :
    Whole WellFormed stream := by
  obtain ⟨t, part, ht, rfl, ⟨rfl, -⟩ | ⟨i, hi, -⟩⟩ := h.wire stream hw hcut
  · rwa [List.append_nil]
  · exact absurd hi (hnone i)

theorem Sound.whole_of_free (h : Sound s) {stream : List UInt8} (hw : s.wire = some stream)
    (hcut : s.cut = false) (hm : s.sendMutex = false) : Whole WellFormed stream := by
  refine h.whole hw hcut fun i hi => ?_
  exact absurd (Pc.holds_of_on hi) (by simp [h.free hm i])

theorem Sound.whole_of_holds (h : Sound s) {stream : List UInt8} (hw : s.wire = some stream)
    (hcut : s.cut = false) (hi : (s.thread i).holds = true)
    (hon : (s.thread i).on? ≠ some s.conn) : Whole WellFormed stream := by
  refine h.whole hw hcut fun j hj => ?_
  obtain rfl := h.alone i j hi (Pc.holds_of_on hj)
  exact hon hj

/-- The message under way on this connection is that of the thread that holds the mutex. -/
theorem Sound.under_way (h : Sound s) {stream : List UInt8} (hw : s.wire = some stream)
    (hcut : s.cut = false) (hi : (s.thread i).on? = some s.conn) :
    ∃ t part, Whole WellFormed t ∧ stream = t ++ part ∧ (s.thread i).Begun part := by
  obtain ⟨t, part, ht, rfl, ⟨-, hnone⟩ | ⟨j, hj, hbegun⟩⟩ := h.wire stream hw hcut
  · exact absurd hi (hnone i)
  · obtain rfl := h.alone i j (Pc.holds_of_on hi) (Pc.holds_of_on hj)
    exact ⟨t, part, ht, rfl, hbegun⟩

/-! ### Moving a thread -/

@[simp] theorem State.goto_thread (s : State) (i : ℕ) (pc : Pc) : (s.goto i pc).thread i = pc :=
  Function.update_self ..

theorem State.goto_thread_of_ne (s : State) (pc : Pc) (hij : j ≠ i) :
    (s.goto i pc).thread j = s.thread j :=
  Function.update_of_ne hij ..

/-- What is to be shown when thread `i` moves to `pc`. -/
theorem Placed.goto (h : Placed s)
    (hlock : pc.holds = true → s.sendMutex = true ∧ ∀ j, j ≠ i → (s.thread j).holds = false)
    (hfill : ∀ todo w, pc = .fill todo w → Filled w todo s.sendHead)
    (hsmall : ∀ w, pc.write? = some w → w.buffer.length < 2 ^ 31)
    (hon : ∀ on, pc.on? = some on → on < s.dialled) : Placed (s.goto i pc) where
  locked j hj := by
    by_cases hji : j = i
    · subst hji
      rw [State.goto_thread] at hj
      exact (hlock hj).1
    · rw [State.goto_thread_of_ne s pc hji] at hj
      exact h.locked j hj
  alone j k hj hk := by
    by_cases hji : j = i <;> by_cases hki : k = i
    · rw [hji, hki]
    · rw [hji, State.goto_thread] at hj
      rw [State.goto_thread_of_ne s pc hki] at hk
      exact absurd hk (by simp [(hlock hj).2 k hki])
    · rw [hki, State.goto_thread] at hk
      rw [State.goto_thread_of_ne s pc hji] at hj
      exact absurd hj (by simp [(hlock hk).2 j hji])
    · rw [State.goto_thread_of_ne s pc hji] at hj
      rw [State.goto_thread_of_ne s pc hki] at hk
      exact h.alone j k hj hk
  play := h.play
  head := h.head
  filled j todo w hj := by
    by_cases hji : j = i
    · subst hji
      rw [State.goto_thread] at hj
      exact hfill todo w hj
    · rw [State.goto_thread_of_ne s pc hji] at hj
      exact h.filled j todo w hj
  small j w hj := by
    by_cases hji : j = i
    · subst hji
      rw [State.goto_thread] at hj
      exact hsmall w hj
    · rw [State.goto_thread_of_ne s pc hji] at hj
      exact h.small j w hj
  begun j on hj := by
    by_cases hji : j = i
    · subst hji
      rw [State.goto_thread] at hj
      exact hon on hj
    · rw [State.goto_thread_of_ne s pc hji] at hj
      exact h.begun j on hj
  unlinked := h.unlinked
  dialling := h.dialling

/-- A thread that has no message on this connection, before and after, does not matter to it. -/
theorem Balanced.goto {stream : List UInt8} (h : Balanced s stream)
    (hold : (s.thread i).on? ≠ some s.conn) (hnew : pc.on? ≠ some s.conn) :
    Balanced (s.goto i pc) stream := by
  obtain ⟨t, part, ht, rfl, ⟨hpart, hnone⟩ | ⟨j, hj, hbegun⟩⟩ := h
  · refine ⟨t, part, ht, rfl, .inl ⟨hpart, fun j => ?_⟩⟩
    by_cases hji : j = i
    · subst hji
      rw [State.goto_thread]
      exact hnew
    · rw [State.goto_thread_of_ne s pc hji]
      exact hnone j
  · have hji : j ≠ i := by
      rintro rfl
      exact hold hj
    refine ⟨t, part, ht, rfl, .inr ⟨j, ?_, ?_⟩⟩
    · rw [State.goto_thread_of_ne s pc hji]
      exact hj
    · rw [State.goto_thread_of_ne s pc hji]
      exact hbegun

theorem Pc.on_of_not_holds (h : pc.holds = false) : pc.on? = none := by
  cases pc <;> first | rfl | exact nomatch h

theorem Pc.ne_fill_of_not_holds (h : pc.holds = false) (todo : List (ℕ × UInt8)) (w : Write) :
    pc ≠ .fill todo w := by
  rintro rfl
  exact nomatch h

/-- A step outside the locked part. -/
theorem Sound.goto_outside (h : Sound s) (hold : (s.thread i).holds = false)
    (hnew : pc.holds = false) (hsmall : ∀ w, pc.write? = some w → w.buffer.length < 2 ^ 31) :
    Sound (s.goto i pc) := by
  refine ⟨h.toPlaced.goto ?_ ?_ hsmall ?_, h.closed, h.cut, ?_⟩
  · intro hpc
    exact absurd hpc (by simp [hnew])
  · intro todo w hpc
    exact absurd hpc (Pc.ne_fill_of_not_holds hnew todo w)
  · intro on hon
    exact absurd hon (by simp [Pc.on_of_not_holds hnew])
  · intro stream hw hcut
    refine (h.wire stream hw hcut).goto ?_ ?_
    · simp [Pc.on_of_not_holds hold]
    · simp [Pc.on_of_not_holds hnew]

/-! ### Sends -/

theorem State.send_cases {data : List UInt8} (hs : s.send data answer = some s') :
    answer = none ∧ s' = s ∨
      ∃ n stream, answer = some n ∧ s.wire = some stream ∧ n ≤ data.length ∧
        s' = { s with wire := some (stream ++ data.take n) } := by
  cases answer with
  | none => exact .inl ⟨rfl, (Option.some.inj hs).symm⟩
  | some n =>
    rw [State.send] at hs
    split at hs
    · exact nomatch hs
    · rename_i stream hw
      split at hs
      · rename_i hle
        exact .inr ⟨n, stream, rfl, hw, hle, (Option.some.inj hs).symm⟩
      · exact nomatch hs

theorem Placed.rewire (h : Placed s) {wire : Option (List UInt8)} (cut : Bool)
    (hsome : wire.isSome = s.wire.isSome) : Placed { s with wire := wire, cut := cut } where
  locked := h.locked
  alone := h.alone
  play := h.play
  head := h.head
  filled := h.filled
  small := h.small
  begun i on hon := by
    have hlen : wire.toList.length = s.wire.toList.length := by
      cases wire <;> cases hs : s.wire <;> simp_all
    have := h.begun i on hon
    rw [State.dialled] at this ⊢
    rwa [hlen]
  unlinked hc hl hcl := by
    have hnone := h.unlinked hc hl hcl
    rw [hnone, Option.isSome_none] at hsome
    exact Option.not_isSome_iff_eq_none.mp (by simp [hsome])
  dialling := h.dialling

/-- A send of the thread that holds the mutex, which stays within the locked part. -/
theorem Sound.sent (h : Sound s) {wire : Option (List UInt8)} {cut : Bool}
    (hsome : wire.isSome = s.wire.isSome) (hold : (s.thread i).holds = true)
    (hfill : ∀ todo w, pc ≠ .fill todo w)
    (hsmall : ∀ w, pc.write? = some w → (s.thread i).write? = some w)
    (hon : ∀ on, pc.on? = some on → on < s.dialled)
    (hcut : ∀ stream, wire = some stream → cut = true → Framed WellFormed stream)
    (hwire : ∀ stream, wire = some stream → cut = false →
      Balanced ({ s with wire := wire, cut := cut }.goto i pc) stream) :
    Sound ({ s with wire := wire, cut := cut }.goto i pc) := by
  have hplaced := h.toPlaced.rewire cut hsome
  refine ⟨hplaced.goto ?_ ?_ ?_ ?_, h.closed, hcut, hwire⟩
  · intro _
    refine ⟨h.locked i hold, fun j hji => ?_⟩
    cases hj : (s.thread j).holds with
    | false => rfl
    | true => exact absurd (h.alone j i hj hold) hji
  · intro todo w hpc
    exact absurd hpc (hfill todo w)
  · intro w hw
    exact h.small i w (hsmall w hw)
  · intro on hpc
    have hlen : wire.toList.length = s.wire.toList.length := by
      cases wire <;> cases hs : s.wire <;> simp_all
    have := hon on hpc
    rw [State.dialled] at this ⊢
    rwa [hlen]

/-! ### `sendOpenStream` -/

/-- What a step of `sendOpenStream` leaves as it was. -/
theorem State.openStep_frame {pc : OpenPc} {next : Option OpenPc}
    (hs : s.openStep answer pc = some (s', next)) :
    s'.thread = s.thread ∧ s'.ccThread = s.ccThread ∧ s'.isConnectCc = s.isConnectCc ∧
      s'.closed = s.closed := by
  cases pc with
  | send =>
    obtain ⟨s₁, hs₁, heq⟩ := Option.map_eq_some_iff.mp hs
    obtain ⟨rfl, -⟩ := Prod.mk.inj heq
    rcases State.send_cases hs₁ with ⟨-, rfl⟩ | ⟨n, stream, -, -, -, rfl⟩
    · exact ⟨rfl, rfl, rfl, rfl⟩
    · exact ⟨rfl, rfl, rfl, rfl⟩
  | _ =>
    obtain ⟨rfl, -⟩ := Prod.mk.inj (Option.some.inj hs)
    exact ⟨rfl, rfl, rfl, rfl⟩

theorem Sound.freeMutex (h : Sound s) (hm : s.sendMutex = false) :
    Sound { s with sendMutex := false } := by
  have hsame : { s with sendMutex := false } = s := by rw [← hm]
  rwa [hsame]

theorem Sound.stamp (h : Sound s) {k : ℕ} (hk : k = 13 ∨ k = 14 ∨ k = 15) (v : UInt8) :
    Sound { s with sendPlay := s.sendPlay.set k v } :=
  { h with play := h.play.set hk v }

/-- With the mutex free the message of `sendOpenStream` begins behind whole messages. -/
theorem Sound.openSend (h : Sound s) (hm : s.sendMutex = false)
    (hcut : writes answer = true → s.cut = false) (hs : s.send s.sendPlay answer = some s') :
    Sound { s' with cut := s.cut || (writes answer && short s.sendPlay answer) } := by
  rcases State.send_cases hs with ⟨rfl, rfl⟩ | ⟨n, stream, rfl, hw, hle, rfl⟩
  · rw [writes, Bool.false_and, Bool.or_false]
    exact h
  · have hsome : (some (stream ++ s.sendPlay.take n)).isSome = s.wire.isSome := by rw [hw]; rfl
    rcases Nat.eq_zero_or_pos n with rfl | hpos
    · have hwrites : writes (some 0) = false := rfl
      rw [List.take_zero, List.append_nil, ← hw, hwrites, Bool.false_and, Bool.or_false]
      exact h
    · have hwrites : writes (some n) = true := decide_eq_true hpos
      have hwhole := h.whole_of_free hw (hcut hwrites) hm
      have hbegun : ∀ i, (s.thread i).on? ≠ some s.conn := by
        intro i
        simp [Pc.on_of_not_holds (h.free hm i)]
      refine ⟨h.toPlaced.rewire _ hsome, h.closed, ?_, ?_⟩
      · rintro _ ⟨⟩ -
        exact hwhole.framed_append h.play.wellFormed (List.take_prefix n _)
      · rintro _ ⟨⟩ hwholly
        rw [hcut hwrites, hwrites, Bool.false_or, Bool.true_and] at hwholly
        have hall : s.sendPlay.length ≤ n := Nat.le_of_not_lt (of_decide_eq_false hwholly)
        rw [List.take_of_length_le hall]
        exact ⟨stream ++ s.sendPlay, [], hwhole.append h.play.wellFormed, by simp,
          .inl ⟨rfl, hbegun⟩⟩

theorem Sound.openStep (h : Sound s) {pc : OpenPc} {next : Option OpenPc}
    (hC : OpensFree s answer pc) (hs : s.openStep answer pc = some (s', next)) : Sound s' := by
  cases pc with
  | enter =>
    obtain ⟨rfl, -⟩ := Prod.mk.inj (Option.some.inj hs)
    exact h.freeMutex hC
  | id =>
    obtain ⟨rfl, -⟩ := Prod.mk.inj (Option.some.inj hs)
    exact h.stamp (.inl rfl) _
  | rateHigh =>
    obtain ⟨rfl, -⟩ := Prod.mk.inj (Option.some.inj hs)
    exact h.stamp (.inr (.inl rfl)) _
  | rateLow =>
    obtain ⟨rfl, -⟩ := Prod.mk.inj (Option.some.inj hs)
    exact h.stamp (.inr (.inr rfl)) _
  | send =>
    obtain ⟨s₁, hs₁, heq⟩ := Option.map_eq_some_iff.mp hs
    obtain ⟨rfl, -⟩ := Prod.mk.inj heq
    exact h.openSend hC.1 hC.2 hs₁
  | leave =>
    obtain ⟨rfl, -⟩ := Prod.mk.inj (Option.some.inj hs)
    exact h.freeMutex hC

/-! ### `out_write` -/

theorem Sound.countFailure (h : Sound (s.goto i pc)) (answer : Option ℕ) :
    Sound ((s.countFailure answer).goto i pc) := by
  rw [State.countFailure]
  split
  · exact { h with }
  · exact h

theorem Sound.lockStep (h : Sound s) (hi : s.thread i = .lock w) (hm : s.sendMutex = false) :
    Sound ({ s with sendMutex := true }.goto i (.fill (headFields w) w)) := by
  have hplaced : Placed { s with sendMutex := true } := { h.toPlaced with locked := fun _ _ => rfl }
  refine ⟨hplaced.goto ?_ ?_ ?_ ?_, h.closed, h.cut, ?_⟩
  · intro _
    exact ⟨rfl, fun j _ => h.free hm j⟩
  · rintro _ _ ⟨⟩
    exact .all w _
  · rintro _ ⟨⟩
    exact h.small i w (by rw [hi, Pc.write?])
  · intro on hon
    exact nomatch hon
  · intro stream hw hcut
    refine Balanced.goto (s := { s with sendMutex := true }) (h.wire stream hw hcut) ?_ ?_
    · rw [hi]
      exact nofun
    · exact nofun

theorem Sound.fillStep (h : Sound s) {f : ℕ × UInt8} {todo : List (ℕ × UInt8)}
    (hi : s.thread i = .fill (f :: todo) w) :
    Sound ({ s with sendHead := s.sendHead.set f.1 f.2 }.goto i (.fill todo w)) := by
  have hfill := h.filled i _ w hi
  have hset := hfill.set h.head
  have hholds : (s.thread i).holds = true := by rw [hi, Pc.holds]
  have hother : ∀ j, (s.thread j).holds = true → j = i := fun j hj => h.alone j i hj hholds
  have hplaced : Placed { s with sendHead := s.sendHead.set f.1 f.2 } :=
    { h.toPlaced with
      head := h.head.set (hfill.1.subset List.mem_cons_self)
      filled := by
        intro j todo' w' hj
        obtain rfl : j = i := hother j (by rw [show s.thread j = _ from hj, Pc.holds])
        obtain ⟨rfl, rfl⟩ := Pc.fill.inj (hi.symm.trans hj)
        exact ⟨hfill.1, fun g hg => (hset.2 g hg).imp_left (List.mem_cons_of_mem f)⟩ }
  refine ⟨hplaced.goto ?_ ?_ ?_ ?_, h.closed, h.cut, ?_⟩
  · intro _
    refine ⟨h.locked i hholds, fun j hji => ?_⟩
    cases hj : (s.thread j).holds with
    | false => rfl
    | true => exact absurd (hother j hj) hji
  · rintro _ _ ⟨⟩
    exact hset
  · rintro _ ⟨⟩
    exact h.small i w (by rw [hi, Pc.write?])
  · intro on hon
    exact nomatch hon
  · intro stream hw hcut
    refine Balanced.goto (s := { s with sendHead := s.sendHead.set f.1 f.2 })
      (h.wire stream hw hcut) ?_ ?_
    · rw [hi]
      exact nofun
    · exact nofun

/-- An answer that `out_write` takes for a failure has written nothing. -/
theorem failed_of_le {n : ℕ} {data : List UInt8} (hn : n ≤ data.length)
    (hlen : data.length < 2 ^ 31) : failed (some n) = false := by
  rw [failed, Nat.mod_eq_of_lt (by omega)]
  exact decide_eq_false (by omega)

theorem Sound.headStep (h : Sound s) (hi : s.thread i = .fill [] w)
    (hcut : writes answer = true → s.cut = false) (hs : s.send s.sendHead answer = some s') :
    Sound (({ s' with cut := s.cut || (!failed answer && short s.sendHead answer) }.countFailure
      answer).goto i (if failed answer then .unlock else .body w s.conn)) := by
  refine Sound.countFailure ?_ answer
  have hholds : (s.thread i).holds = true := by rw [hi, Pc.holds]
  have hsmall : w.buffer.length < 2 ^ 31 := h.small i w (by rw [hi, Pc.write?])
  have hhead : HeadOf w s.sendHead := (h.filled i [] w hi).headOf h.head hsmall
  have hoff : (s.thread i).on? ≠ some s.conn := by
    rw [hi]
    exact nofun
  rcases State.send_cases hs with ⟨rfl, rfl⟩ | ⟨n, stream, rfl, hw, hle, rfl⟩
  · -- nothing is sent, and the call returns
    have hfail : failed none = true := rfl
    rw [hfail, Bool.not_true, Bool.false_and, Bool.or_false, if_pos rfl]
    refine h.sent rfl hholds (fun _ _ => nofun) (fun _ hw => nomatch hw) (fun _ hon => nomatch hon)
      h.cut fun stream hw hc => (h.wire stream hw hc).goto hoff nofun
  · rw [failed_of_le hle (by rw [h.head.1]; decide), Bool.not_false, Bool.true_and,
      if_neg Bool.false_ne_true]
    have hlink : s.conn < s.dialled := by simp [State.conn, State.dialled, hw]
    refine h.sent (by rw [hw]; rfl) hholds (fun _ _ => nofun) ?_ ?_ ?_ ?_
    · rintro _ ⟨⟩
      rw [hi, Pc.write?]
    · rintro _ ⟨⟩
      exact hlink
    · rintro _ ⟨⟩ -
      rcases Nat.eq_zero_or_pos n with rfl | hpos
      · rw [List.take_zero, List.append_nil]
        exact h.framed_wire hw
      · have hwhole := h.whole_of_holds hw (hcut (decide_eq_true hpos)) hholds hoff
        exact hwhole.framed_append hhead.wellFormed
          ((List.take_prefix n _).trans (by rw [List.append_assoc]; exact List.prefix_append _ _))
    · rintro _ ⟨⟩ hc
      obtain ⟨hc, hshort⟩ := Bool.or_eq_false_iff.mp hc
      have hall : s.sendHead.length ≤ n := Nat.le_of_not_lt (of_decide_eq_false hshort)
      rw [List.take_of_length_le hall]
      refine ⟨stream, s.sendHead, h.whole_of_holds hw hc hholds hoff, rfl, .inr ⟨i, ?_, ?_⟩⟩
      · rw [State.goto_thread]
        rfl
      · rw [State.goto_thread]
        exact hhead

/-- The thread that holds the mutex sends the next piece `data` of its message and moves to `pc`:
either the message is then complete, or it has got that much longer. -/
theorem Sound.pieceStep (h : Sound s) {data : List UInt8} {on : ℕ}
    (hold : (s.thread i).on? = some on)
    (hbegins : ∀ part, (s.thread i).Begun part → ∃ m, WellFormed m ∧ part ++ data <+: m)
    (hC : writes answer = true → s.cut = false ∧ on = s.conn)
    (hs : s.send data answer = some s') (hfill : ∀ todo w, pc ≠ .fill todo w)
    (hsmall : ∀ w, pc.write? = some w → (s.thread i).write? = some w)
    (hon : ∀ on', pc.on? = some on' → on' = on)
    (hdone : short data answer = false → ∀ part, (s.thread i).Begun part →
      pc.on? = some on ∧ pc.Begun (part ++ data) ∨ pc.on? = none ∧ WellFormed (part ++ data)) :
    Sound (({ s' with cut := s.cut || (on == s.conn && short data answer) }.countFailure
      answer).goto i pc) := by
  refine Sound.countFailure ?_ answer
  have hholds : (s.thread i).holds = true := Pc.holds_of_on hold
  have hlink : ∀ on', pc.on? = some on' → on' < s.dialled := by
    intro on' hpc
    rw [hon on' hpc]
    exact h.begun i on hold
  have haway : on ≠ s.conn → pc.on? ≠ some s.conn ∧ (s.thread i).on? ≠ some s.conn := by
    intro hne
    refine ⟨fun hpc => hne (hon _ hpc).symm, fun hi => hne ?_⟩
    exact Option.some.inj (hold.symm.trans hi)
  rcases State.send_cases hs with ⟨rfl, rfl⟩ | ⟨n, stream, rfl, hw, hle, rfl⟩
  · refine h.sent rfl hholds hfill hsmall hlink (fun stream hw _ => h.framed_wire hw) ?_
    intro stream hw hc
    obtain ⟨hc, hne⟩ := Bool.or_eq_false_iff.mp hc
    rw [short, Bool.and_true, beq_eq_false_iff_ne] at hne
    exact (h.wire stream hw hc).goto (haway hne).2 (haway hne).1
  · refine h.sent (by rw [hw]; rfl) hholds hfill hsmall hlink ?_ ?_
    · rintro _ ⟨⟩ -
      rcases Nat.eq_zero_or_pos n with rfl | hpos
      · rw [List.take_zero, List.append_nil]
        exact h.framed_wire hw
      · obtain ⟨hc, rfl⟩ := hC (decide_eq_true hpos)
        obtain ⟨t, part, ht, rfl, hbegun⟩ := h.under_way hw hc hold
        obtain ⟨m, hm, hpre⟩ := hbegins part hbegun
        rw [List.append_assoc]
        refine ht.framed_append hm (List.IsPrefix.trans ?_ hpre)
        exact List.prefix_append_right_inj part |>.mpr (List.take_prefix n data)
    · rintro _ ⟨⟩ hmark
      obtain ⟨hc, hshort⟩ := Bool.or_eq_false_iff.mp hmark
      by_cases hconn : on = s.conn
      · subst hconn
        rw [beq_self_eq_true, Bool.true_and] at hshort
        have hall : data.length ≤ n := Nat.le_of_not_lt (of_decide_eq_false hshort)
        obtain ⟨t, part, ht, rfl, hbegun⟩ := h.under_way hw hc hold
        rw [List.take_of_length_le hall, List.append_assoc]
        rcases hdone hshort part hbegun with ⟨hpc, hmore⟩ | ⟨hpc, hm⟩
        · refine ⟨t, part ++ data, ht, rfl, .inr ⟨i, ?_, ?_⟩⟩
          · rw [State.goto_thread]
            exact hpc
          · rw [State.goto_thread]
            exact hmore
        · refine ⟨t ++ (part ++ data), [], ht.append hm, by simp, .inl ⟨rfl, fun j => ?_⟩⟩
          by_cases hji : j = i
          · subst hji
            rw [State.goto_thread, hpc]
            exact nofun
          · rw [State.goto_thread_of_ne _ pc hji]
            intro hj
            exact hji (h.alone j i (Pc.holds_of_on hj) hholds)
      · have hnothing : n = 0 := by
          refine Nat.eq_zero_of_not_pos fun hpos => ?_
          exact hconn (hC (decide_eq_true hpos)).2
        rw [hnothing, List.take_zero, List.append_nil]
        exact (h.wire stream hw hc).goto (haway hconn).2 (haway hconn).1

theorem Sound.bodyStep (h : Sound s) {on : ℕ} (hi : s.thread i = .body w on)
    (hC : writes answer = true → s.cut = false ∧ on = s.conn)
    (hs : s.send w.buffer answer = some s') :
    Sound (({ s' with cut := s.cut || (on == s.conn && short w.buffer answer) }.countFailure
      answer).goto i (if failed answer then .unlock else .tail w on)) := by
  have hsmall : w.buffer.length < 2 ^ 31 := h.small i w (by rw [hi, Pc.write?])
  refine h.pieceStep (by rw [hi, Pc.on?]) ?_ hC hs ?_ ?_ ?_ ?_
  · rw [hi]
    intro part hpart
    exact ⟨_, HeadOf.wellFormed hpart, List.prefix_append _ _⟩
  · intro todo w'
    split <;> exact nofun
  · rw [hi]
    split
    · exact nofun
    · exact fun _ => id
  · split
    · exact nofun
    · rintro on' ⟨⟩
      rfl
  · intro hshort part hpart
    rw [hi] at hpart
    rcases State.send_cases hs with ⟨rfl, -⟩ | ⟨n, stream, rfl, -, hle, -⟩
    · exact nomatch hshort
    · rw [failed_of_le hle hsmall, if_neg Bool.false_ne_true]
      exact .inl ⟨rfl, part, hpart, rfl⟩

theorem Sound.tailStep (h : Sound s) {on : ℕ} (hi : s.thread i = .tail w on)
    (hC : writes answer = true → s.cut = false ∧ on = s.conn)
    (hs : s.send sendTail answer = some s') :
    Sound (({ s' with cut := s.cut || (on == s.conn && short sendTail answer) }.countFailure
      answer).goto i .unlock) := by
  refine h.pieceStep (by rw [hi, Pc.on?]) ?_ hC hs (fun _ _ => nofun) nofun nofun ?_
  · rw [hi]
    rintro part ⟨hd, hh, rfl⟩
    exact ⟨_, hh.wellFormed, List.prefix_rfl⟩
  · rw [hi]
    rintro - part ⟨hd, hh, rfl⟩
    exact .inr ⟨rfl, hh.wellFormed⟩

theorem Sound.unlockStep (h : Sound s) (hi : s.thread i = .unlock) :
    Sound ({ s with sendMutex := false }.goto i .idle) := by
  have hholds : (s.thread i).holds = true := by rw [hi, Pc.holds]
  have hidle : Sound (s.goto i .idle) := by
    refine ⟨h.toPlaced.goto nofun (fun _ _ => nofun) nofun nofun, h.closed, h.cut, ?_⟩
    intro stream hw hcut
    refine (h.wire stream hw hcut).goto ?_ nofun
    rw [hi]
    exact nofun
  refine { hidle with locked := ?_ }
  intro j hj
  by_cases hji : j = i
  · subst hji
    rw [State.goto_thread] at hj
    exact nomatch hj
  · rw [State.goto_thread_of_ne _ _ hji] at hj
    exact absurd (h.alone j i hj hholds) hji

/-! ### Runs -/

theorem Sound.threadStep (h : Sound s)
    (hC : (s.thread i).Exclusive s answer) (hs : s.threadStep i answer = some s') : Sound s' := by
  have hsmall : ∀ w, (s.thread i).write? = some w → w.buffer.length < 2 ^ 31 := h.small i
  rw [State.threadStep] at hs
  cases hi : s.thread i with
  | idle =>
    rw [hi] at hs
    exact nomatch hs
  | count w =>
    simp only [hi] at hs hsmall
    have hout : (s.thread i).holds = false := congrArg Pc.holds hi
    split at hs
    · obtain rfl := Option.some.inj hs
      have hcount : Sound { s with newOutStreamCount := s.newOutStreamCount + 1 } := { h with }
      exact hcount.goto_outside hout rfl hsmall
    · obtain rfl := Option.some.inj hs
      have hcount : Sound { s with newOutStreamCount := 0 } := { h with }
      exact hcount.goto_outside hout rfl hsmall
  | choose w =>
    simp only [hi] at hs hsmall
    obtain rfl := Option.some.inj hs
    refine h.goto_outside (congrArg Pc.holds hi) ?_ ?_
    · split <;> rfl
    · split <;> exact hsmall
  | take w =>
    simp only [hi] at hs hsmall
    obtain rfl := Option.some.inj hs
    have hcurrent : Sound { s with currentOut := w.out } := { h with }
    exact hcurrent.goto_outside (congrArg Pc.holds hi) rfl hsmall
  | opening pc next =>
    rw [hi] at hC
    simp only [hi] at hs hsmall
    obtain ⟨⟨s₁, pc'⟩, hopen, rfl⟩ := Option.map_eq_some_iff.mp hs
    have hframe := State.openStep_frame hopen
    refine (h.openStep hC hopen).goto_outside ?_ ?_ ?_
    · rw [hframe.1, hi]
      rfl
    · cases pc' <;> cases next <;> rfl
    · cases pc' <;> cases next <;> exact hsmall
  | compare w =>
    simp only [hi] at hs hsmall
    obtain rfl := Option.some.inj hs
    refine h.goto_outside (congrArg Pc.holds hi) ?_ ?_
    · split <;> rfl
    · split
      · exact nofun
      · exact hsmall
  | connected w =>
    simp only [hi] at hs hsmall
    obtain rfl := Option.some.inj hs
    refine h.goto_outside (congrArg Pc.holds hi) ?_ ?_
    · split <;> rfl
    · split
      · exact hsmall
      · exact nofun
  | lock w =>
    simp only [hi] at hs
    split at hs
    · exact nomatch hs
    · rename_i hm
      obtain rfl := Option.some.inj hs
      exact h.lockStep hi (Bool.eq_false_iff.mpr hm)
  | fill todo w =>
    cases todo with
    | nil =>
      rw [hi] at hC
      simp only [hi] at hs
      obtain ⟨s₁, hsend, rfl⟩ := Option.map_eq_some_iff.mp hs
      exact h.headStep hi hC hsend
    | cons f todo =>
      simp only [hi] at hs
      obtain rfl := Option.some.inj hs
      exact h.fillStep hi
  | body w on =>
    rw [hi] at hC
    simp only [hi] at hs
    obtain ⟨s₁, hsend, rfl⟩ := Option.map_eq_some_iff.mp hs
    exact h.bodyStep hi hC hsend
  | tail w on =>
    rw [hi] at hC
    simp only [hi] at hs
    obtain ⟨s₁, hsend, rfl⟩ := Option.map_eq_some_iff.mp hs
    exact h.tailStep hi hC hsend
  | unlock =>
    simp only [hi] at hs
    obtain rfl := Option.some.inj hs
    exact h.unlockStep hi

/-- Closing the connection: its stream is done, and no message is under way on the next. -/
theorem Sound.closingStep (h : Sound s) :
    Sound { s with
      wire := none, cut := false, closed := s.closed ++ s.wire.toList, ccThread := .receive } where
  locked := h.locked
  alone := h.alone
  play := h.play
  head := h.head
  filled := h.filled
  small := h.small
  begun i on hon := by
    have := h.begun i on hon
    rw [State.dialled] at this ⊢
    simpa using this
  unlinked _ _ _ := rfl
  dialling hd := nomatch hd
  closed := by
    intro stream hmem
    exact h.framedStreams stream hmem
  cut _ hw := nomatch hw
  wire _ hw := nomatch hw

/-- A new connection: nothing is on it, and nobody has begun a message there. -/
theorem Sound.dialStep (h : Sound s) (hd : s.ccThread = .dial) :
    Sound { s with wire := some [], ccThread := .linked } := by
  have hnone : s.wire = none := by
    refine h.unlinked (h.dialling hd) ?_ ?_ <;> rw [hd] <;> exact nofun
  have hold : ∀ i on, (s.thread i).on? = some on → on < s.conn := by
    intro i on hon
    have := h.begun i on hon
    rw [State.dialled, hnone] at this
    exact this
  refine ⟨{ h.toPlaced with begun := ?_, unlinked := ?_, dialling := nofun }, h.closed, ?_, ?_⟩
  · intro i on hon
    exact Nat.lt_succ_of_lt (hold i on hon)
  · intro _ hl
    exact absurd rfl hl
  · rintro _ ⟨⟩ -
    exact whole_nil.framed
  · rintro _ ⟨⟩ -
    refine ⟨[], [], whole_nil, rfl, .inl ⟨rfl, fun i hi => ?_⟩⟩
    exact Nat.lt_irrefl _ (hold i _ hi)

theorem Sound.ccStep (h : Sound s) (hC : s.ccThread.Exclusive s answer)
    (hs : s.ccStep answer = some s') : Sound s' := by
  cases hcc : s.ccThread with
  | top =>
    simp only [State.ccStep, hcc] at hs
    split at hs
    · obtain rfl := Option.some.inj hs
      rename_i hconn
      exact { h with unlinked := fun hf => absurd hf (by simp [hconn]), dialling := nofun }
    · obtain rfl := Option.some.inj hs
      rename_i hconn
      have hf : s.isConnectCc = false := Bool.eq_false_iff.mpr hconn
      have hnone : s.wire = none := by
        refine h.unlinked hf ?_ ?_ <;> rw [hcc] <;> exact nofun
      exact { h with unlinked := fun _ _ _ => hnone, dialling := fun _ => hf }
  | dial =>
    simp only [State.ccStep, hcc] at hs
    cases answer with
    | none =>
      obtain rfl := Option.some.inj hs
      have hnone : s.wire = none := by
        refine h.unlinked (h.dialling hcc) ?_ ?_ <;> rw [hcc] <;> exact nofun
      exact { h with unlinked := fun _ _ _ => hnone, dialling := nofun }
    | some _ =>
      obtain rfl := Option.some.inj hs
      exact h.dialStep hcc
  | linked =>
    simp only [State.ccStep, hcc] at hs
    obtain rfl := Option.some.inj hs
    exact { h with unlinked := nofun, dialling := nofun }
  | opening pc =>
    rw [hcc] at hC
    simp only [State.ccStep, hcc] at hs
    obtain ⟨⟨s₁, pc'⟩, hopen, rfl⟩ := Option.map_eq_some_iff.mp hs
    have hnext := h.openStep hC hopen
    obtain ⟨-, hcc₁, -, -⟩ := State.openStep_frame hopen
    refine { hnext with unlinked := ?_, dialling := ?_ }
    · intro hf _ _
      refine hnext.unlinked hf ?_ ?_ <;> rw [hcc₁, hcc] <;> exact nofun
    · cases pc' <;> exact nofun
  | check =>
    simp only [State.ccStep, hcc] at hs
    split at hs
    · obtain rfl := Option.some.inj hs
      exact { h with unlinked := fun _ _ hcl => absurd rfl hcl, dialling := nofun }
    · obtain rfl := Option.some.inj hs
      refine { h with unlinked := ?_, dialling := nofun }
      intro hf _ _
      refine h.unlinked hf ?_ ?_ <;> rw [hcc] <;> exact nofun
  | closing =>
    simp only [State.ccStep, hcc] at hs
    obtain rfl := Option.some.inj hs
    exact h.closingStep
  | receive =>
    simp only [State.ccStep, hcc] at hs
    have hun : s.isConnectCc = false → s.wire = none := by
      intro hf
      refine h.unlinked hf ?_ ?_ <;> rw [hcc] <;> exact nofun
    split at hs
    · obtain rfl := Option.some.inj hs
      exact { h with unlinked := fun hf _ _ => hun hf, dialling := nofun }
    · obtain rfl := Option.some.inj hs
      exact { h with unlinked := fun hf _ _ => hun hf, dialling := nofun }

theorem Sound.step (h : Sound s) {op : Op} (hC : Exclusive [] s op) (hs : op.step s = some s') :
    Sound s' := by
  cases op with
  | outWrite i w =>
    rw [Op.step] at hs
    split at hs
    · obtain rfl := Option.some.inj hs
      rename_i hi
      refine h.goto_outside (congrArg Pc.holds hi) rfl ?_
      rintro _ ⟨⟩
      exact hC
    · exact nomatch hs
  | openStream i =>
    rw [Op.step] at hs
    split at hs
    · obtain rfl := Option.some.inj hs
      rename_i hi
      exact h.goto_outside (congrArg Pc.holds hi) rfl nofun
    · exact nomatch hs
  | thread i answer => exact h.threadStep hC hs
  | cc answer => exact h.ccStep hC hs

/-- In every interleaving whose steps keep to `Exclusive`, every connection carries whole messages
and possibly the beginning of one more. -/
theorem outWrite_run (rtmpID : UInt8) (out : StubStreamOut) {ops : List Op} {t : State}
    (hrun : Guarded Op.step Exclusive (.opened rtmpID out) ops t) : FramedStreams t := by
  have hsound : Sound t := by
    refine hrun.inv (I := fun _ s => Sound s) ?_ (.opened rtmpID out)
    intro past op s s' h hC hs
    exact h.step hC hs
  exact hsound.framedStreams

/-- Messages with the same first six bytes are equally long. -/
theorem WellFormed.length_eq {m m' : List UInt8} (hm : WellFormed m) (hm' : WellFormed m')
    (h : m.take 6 = m'.take 6) : m.length = m'.length := by
  have hfield : lengthField m = lengthField m' := by
    rw [← List.take_append_drop 6 m, ← List.take_append_drop 6 m', h,
      lengthField_append _ _ (by rw [List.length_take]; have := hm'.1; omega),
      lengthField_append _ _ (by rw [List.length_take]; have := hm'.1; omega)]
  have h8 := hm.1
  have h8' := hm'.1
  rw [hm.2.2.1, hm'.2.2.1] at hfield
  omega

/-- A stream that begins like the message `m`, but whose first `m.length` bytes are none. -/
theorem not_framed {stream m : List UInt8} (hm : WellFormed m) (h : stream.take 6 = m.take 6)
    (hle : m.length ≤ stream.length) (hnot : ¬ WellFormed (stream.take m.length)) :
    ¬ Framed WellFormed stream := by
  intro hs
  refine hnot (hs.take (k := 6) ?_ (by decide) (fun _ _ => WellFormed.length_eq) hm h hle)
  intro m' hm'
  have := hm'.1
  omega

/-- One stream, mono samples at 16000 Hz. -/
def speaker : StubStreamOut :=
  { ptr := 1, format := pcm16Bit, channelMask := 1, sampleRate := 16000 }

/-- Up to the head of the first message, on a connection just made. -/
def headSent : List Op :=
  [.cc none, .cc (some 0), .cc none, .outWrite 1 ⟨speaker, [0x11]⟩] ++
    List.replicate 17 (.thread 1 none) ++ [.thread 1 (some 18)]

/-- The rest of the message. -/
def messageSent : List Op :=
  [.thread 1 (some 1), .thread 1 (some 2), .thread 1 none]

/-- The message of the socket thread. -/
def openSent : List Op :=
  [.cc none, .cc none, .cc none, .cc none, .cc (some 22), .cc none]

theorem outWrite_run_message :
    (run Op.step (headSent ++ messageSent ++ openSent) (.opened 0 speaker)).isSome = true ∧
      ∀ t, run Op.step (headSent ++ messageSent ++ openSent) (.opened 0 speaker) = some t →
        FramedStreams t := by
  have hmeets : Meets Op.step Exclusive [] (headSent ++ messageSent ++ openSent)
      (.opened 0 speaker) := by
    decide +kernel
  exact ⟨by decide +kernel, fun t ht => outWrite_run 0 speaker (hmeets.guarded ht)⟩

/-- The message of the socket thread between the head and the samples of the other. -/
theorem outWrite_torn :
    ∃ t, run Op.step (headSent ++ openSent ++ messageSent) (.opened 0 speaker) = some t ∧
      ¬ FramedStreams t := by
  have hwire : (run Op.step (headSent ++ openSent ++ messageSent) (.opened 0 speaker)).map (·.wire) =
      some (some ([0x7e, 0xa5, 0x00, 0x00, 0x00, 0x11, 0x00, 0x02, 0x04, 0x4b, 0x01, 0x22, 0x3e, 0x80,
        0x00, 0x00, 0x00, 0x01] ++ sendPlay ++ [0x11] ++ sendTail)) := by
    decide +kernel
  obtain ⟨t, ht, hstream⟩ := Option.map_eq_some_iff.mp hwire
  refine ⟨t, ht, fun hall => ?_⟩
  refine not_framed (m := [0x7e, 0xa5, 0x00, 0x00, 0x00, 0x11, 0x00, 0x02, 0x04, 0x4b, 0x01, 0x22,
    0x3e, 0x80, 0x00, 0x00, 0x00, 0x01, 0x11, 0x7e, 0x0d]) ?_ ?_ ?_ ?_
    (hall _ (List.mem_append_right _ (by rw [hstream]; exact List.mem_singleton_self _)))
  · decide +kernel
  · decide +kernel
  · decide +kernel
  · decide +kernel

end AndroidVendor.Audio
