import AndroidVendor.Mpd.NodeInv
import AndroidVendor.Mpd.SendCustody

/-!
# What the log says of a transmit buffer

A buffer that is put into a tx window goes to the queue of its subflow at once, and again each time
the packet is sent again; when its node goes, it is given back. `MPD_MsgMemfree` is for a packet that
was sent once at most, `MPD_RetransMsgMemfree` for the others, and names the queue that copies of the
packet went to. After that nothing is asked for it any more.

`F` is the set of the addresses of such buffers. An address names one allocation: what is allocated
later in the same place has another name.

## Main definitions

* `copies` — how often a queue took the buffer
* `Told` — the log is as described above
* `Story` — the log is told, and says of the buffers in the tx windows what their nodes say

## Main results

* `Story.gives`, `Story.again`, `Story.put`, `Story.drop`, `Story.quiet` — the five ways to go on
* `Story.frame` — an acknowledgement and a SACK
-/

namespace AndroidVendor

namespace Mpd

open Loop TxWin UserInfo

/-! ### The log -/

/-- A queue takes the buffer `a`. -/
def Action.Queues (a : ℕ) : Action → Bool
  | .send _ m _ _ ok => ok && m.addr == a
  | _ => false

/-- How often a queue took the buffer `a`. -/
def copies (a : ℕ) (as : List Action) : ℕ := as.countP (Action.Queues a)

/-- If the action hands on the buffer `a`, then to the queue of subflow `f`, which is not to free
it. -/
def Action.Plain (f a : ℕ) : Action → Prop
  | .send deviceId m _ release _ => m.addr = a → deviceId = getDeviceId f ∧ release = false
  | _ => True

/-- The action is right after `pre`. -/
def Action.Fair (F : ℕ → Prop) (pre : List Action) : Action → Prop
  | .free m => F m.addr → m.addr ∉ freesOf pre ∧ copies m.addr pre ≤ 1
  | .freeResend m flowId => F m.addr ∧ flowId < 3 ∧ m.addr ∉ freesOf pre ∧ m.addr ∈ sendsOf pre ∧
      ∀ x ∈ pre, x.Plain flowId m.addr
  | .send _ m _ release _ => if release then ¬ F m.addr else F m.addr ∧ m.addr ∉ freesOf pre
  | _ => True

/-- Every action of the log is right after those before it. -/
def Told (F : ℕ → Prop) (as : List Action) : Prop :=
  ∀ pre x post, as = pre ++ x :: post → x.Fair F pre

/-- The action does not concern a transmit buffer. -/
def Action.Quiet (F : ℕ → Prop) : Action → Prop
  | .free m => ¬ F m.addr
  | .freeResend .. => False
  | .send _ m _ release _ => release = true ∧ ¬ F m.addr
  | _ => True

section Log

variable {F : ℕ → Prop} {as bs : List Action} {a f : ℕ} {x : Action}

@[simp] theorem copies_append : copies a (as ++ bs) = copies a as + copies a bs :=
  List.countP_append

theorem copies_singleton_le (a : ℕ) (x : Action) : copies a [x] ≤ 1 := by
  rw [copies, List.countP_singleton]
  split <;> omega

theorem mem_sendsOf_of_mem {deviceId len : ℕ} {m : Msg} {release ok : Bool}
    (h : .send deviceId m len release ok ∈ as) : m.addr ∈ sendsOf as := by
  obtain ⟨l, r, rfl⟩ := List.append_of_mem h
  rw [sendsOf_append, sendsOf_cons, Multiset.mem_add, Multiset.mem_add]
  exact .inr (.inl (Multiset.mem_singleton_self _))

/-- A buffer that was not handed on is in no queue. -/
theorem copies_eq_zero (h : a ∉ sendsOf as) : copies a as = 0 := by
  refine List.countP_eq_zero.mpr fun x hx hqueues => h ?_
  cases x with
  | send deviceId m len release ok =>
    simp only [Action.Queues, Bool.and_eq_true, beq_iff_eq] at hqueues
    exact hqueues.2 ▸ mem_sendsOf_of_mem hx
  | _ => cases hqueues

theorem plain_of_notMem (h : a ∉ sendsOf as) (f : ℕ) : ∀ x ∈ as, x.Plain f a := by
  intro x hx
  cases x with
  | send deviceId m len release ok => exact fun heq => absurd (heq ▸ mem_sendsOf_of_mem hx) h
  | _ => trivial

theorem Told.append (h : Told F as) (hbs : ∀ pre x post, bs = pre ++ x :: post → x.Fair F (as ++ pre)) :
    Told F (as ++ bs) := by
  intro pre x post heq
  rcases List.append_eq_append_iff.mp heq with ⟨l, rfl, hl⟩ | ⟨l, hl, hr⟩
  · exact hbs l x post hl
  · cases l with
    | nil =>
      obtain rfl : as = pre := by simpa using hl
      have h0 := hbs [] x post hr.symm
      rwa [List.append_nil] at h0
    | cons y l =>
      obtain ⟨rfl, -⟩ := List.cons.inj hr
      exact h pre x l hl

theorem Told.concat (h : Told F as) (hx : x.Fair F as) : Told F (as ++ [x]) := by
  refine h.append fun pre y post heq => ?_
  cases pre with
  | nil =>
    obtain ⟨rfl, -⟩ := List.cons.inj heq
    rwa [List.append_nil]
  | cons z pre =>
    obtain ⟨-, hnil⟩ := List.cons.inj heq
    simp at hnil

theorem told_nil : Told F [] := fun pre x post h => by simp at h

/-- A quiet action is right anywhere. -/
theorem Action.Quiet.fair (h : x.Quiet F) (pre : List Action) : x.Fair F pre := by
  cases x with
  | free m => exact fun hF => absurd hF h
  | freeResend => exact h.elim
  | send deviceId m len release ok =>
    rw [Action.Fair, if_pos h.1]
    exact h.2
  | _ => trivial

theorem notMem_freesOf_of_quiet (h : ∀ x ∈ as, x.Quiet F) (ha : F a) : a ∉ freesOf as := by
  induction as with
  | nil => exact Multiset.notMem_zero a
  | cons x as ih =>
    rw [freesOf_cons, Multiset.mem_add, not_or]
    refine ⟨fun hmem => ?_, ih fun y hy => h y (List.mem_cons_of_mem x hy)⟩
    have hx := h x List.mem_cons_self
    cases x with
    | free m => exact hx (Multiset.mem_singleton.mp hmem ▸ ha)
    | freeResend => exact hx
    | _ => exact Multiset.notMem_zero a hmem

/-- Nor is a transmit buffer handed on. -/
theorem notMem_sendsOf_of_quiet (h : ∀ x ∈ as, x.Quiet F) (ha : F a) : a ∉ sendsOf as := by
  induction as with
  | nil => exact Multiset.notMem_zero a
  | cons x as ih =>
    rw [sendsOf_cons, Multiset.mem_add, not_or]
    refine ⟨fun hmem => ?_, ih fun y hy => h y (List.mem_cons_of_mem x hy)⟩
    have hx := h x List.mem_cons_self
    cases x with
    | send deviceId m len release ok => exact hx.2 (Multiset.mem_singleton.mp hmem ▸ ha)
    | _ => exact Multiset.notMem_zero a hmem

theorem Told.quiet (h : Told F as) (hbs : ∀ x ∈ bs, x.Quiet F) : Told F (as ++ bs) :=
  h.append fun _ x _ heq => (hbs x (heq ▸ List.mem_append_right _ List.mem_cons_self)).fair _

theorem card_freesOf_singleton (x : Action) : (freesOf [x]).card ≤ 1 := by
  cases x with
  | free m => exact le_rfl
  | freeResend m f => exact le_rfl
  | _ => exact Nat.zero_le 1

/-- What is given back now was not given back before. -/
theorem Action.Fair.notMem_freesOf {pre : List Action}
    (h : x.Fair F pre) (hF : F a) (hmem : a ∈ freesOf [x]) : a ∉ freesOf pre := by
  cases x with
  | free m =>
    obtain rfl := Multiset.mem_singleton.mp hmem
    exact (h hF).1
  | freeResend m f =>
    obtain rfl := Multiset.mem_singleton.mp hmem
    exact h.2.2.1
  | _ => exact absurd hmem (Multiset.notMem_zero a)

/-- No buffer is given back twice. -/
theorem Told.count_freesOf_le (h : Told F as) (hF : F a) :
    (freesOf as).count a ≤ 1 := by
  induction as using List.reverseRecOn with
  | nil => exact Nat.zero_le 1
  | append_singleton as x ih =>
    have has : (freesOf as).count a ≤ 1 := ih fun pre y post heq =>
      h pre y (post ++ [x]) (by rw [heq, List.append_assoc, List.cons_append])
    have hone : (freesOf [x]).count a ≤ 1 := (Multiset.count_le_card a _).trans (card_freesOf_singleton x)
    rw [freesOf_append, Multiset.count_add]
    by_cases hmem : a ∈ freesOf [x]
    · rw [Multiset.count_eq_zero.mpr ((h as x [] rfl).notMem_freesOf hF hmem), Nat.zero_add]
      exact hone
    · rw [Multiset.count_eq_zero.mpr hmem, Nat.add_zero]
      exact has

end Log

/-! ### The buffers in the tx windows -/

/-- What the log says of a buffer that a node of subflow `f` in this state holds. -/
structure InCustody (F : ℕ → Prop) (f : ℕ) (state : TransState) (as : List Action) (a : ℕ) :
    Prop where
  own : F a
  flow : f < 3
  kept : a ∉ freesOf as
  sent : a ∈ sendsOf as
  plain : ∀ x ∈ as, x.Plain f a
  once : state ≠ .sacked → copies a as ≤ 1

namespace UserInfo

/-- A tx window holds the buffer. -/
def HasBuffer (u : UserInfo) (a : ℕ) : Prop := ∃ f i, a ∈ ((u.txWindow f).dataNode i).kept

/-- The session has not heard of the buffer. -/
structure Unheard (u : UserInfo) (a : ℕ) : Prop where
  freed : a ∉ freesOf u.out
  sent : a ∉ sendsOf u.out
  held : ¬ u.HasBuffer a

/-- The log is told, and says of the buffers in the tx windows what their nodes say: no two of them
are the same, and one that was handed on and is not there any more was given back. -/
structure Story (F : ℕ → Prop) (u : UserInfo) : Prop where
  told : Told F u.out
  inside : ∀ f i, ((u.txWindow f).dataNode i).kept ≠ 0 → i < 1024
  custody : ∀ f i, ∀ a ∈ ((u.txWindow f).dataNode i).kept,
    InCustody F f ((u.txWindow f).dataNode i).transState u.out a
  apart : ∀ f i g j, ∀ a ∈ ((u.txWindow f).dataNode i).kept,
    a ∈ ((u.txWindow g).dataNode j).kept → f = g ∧ i = j
  settled : ∀ deviceId m len ok, .send deviceId m len false ok ∈ u.out →
    u.HasBuffer m.addr ∨ m.addr ∈ freesOf u.out

end UserInfo

section Story

variable {F : ℕ → Prop} {u v : UserInfo} {f i a : ℕ} {as bs : List Action} {state : TransState}
  {m : Msg}

/-- Actions about other buffers. -/
theorem InCustody.append (h : InCustody F f state as a) (hfree : a ∉ freesOf bs)
    (hsend : a ∉ sendsOf bs) : InCustody F f state (as ++ bs) a where
  own := h.own
  flow := h.flow
  kept hmem := by
    rw [freesOf_append, Multiset.mem_add] at hmem
    exact hmem.elim h.kept hfree
  sent := by
    rw [sendsOf_append, Multiset.mem_add]
    exact .inl h.sent
  plain x hx := (List.mem_append.mp hx).elim (h.plain x) (plain_of_notMem hsend f x)
  once hstate := by
    rw [copies_append, copies_eq_zero hsend, Nat.add_zero]
    exact h.once hstate

/-- The buffer is handed to the queue of its subflow once more. -/
theorem InCustody.again {ok : Bool} {len : ℕ} (h : InCustody F f state as m.addr) :
    InCustody F f .sacked (as ++ [.send (getDeviceId f) m len false ok]) m.addr where
  own := h.own
  flow := h.flow
  kept := by
    rw [freesOf_append, Multiset.mem_add, not_or]
    exact ⟨h.kept, Multiset.notMem_zero _⟩
  sent := by
    rw [sendsOf_append, Multiset.mem_add]
    exact .inl h.sent
  plain x hx := by
    rcases List.mem_append.mp hx with hx | hx
    · exact h.plain x hx
    · obtain rfl := List.mem_singleton.mp hx
      exact fun _ => ⟨rfl, rfl⟩
  once hstate := absurd rfl hstate

/-- A node is released as its custody says. -/
theorem InCustody.fair {d : DataNode} (h : InCustody F f d.transState as m.addr) :
    (d.release f m).Fair F as := by
  rw [DataNode.release]
  split
  · exact ⟨h.own, h.flow, h.kept, h.sent, h.plain⟩
  · next hstate => exact fun _ => ⟨h.kept, h.once hstate⟩

/-! ### Going on -/

theorem DataNode.kept_eq_zero {d : DataNode} : d.kept = 0 ↔ d.pData = none := by
  cases hm : d.pData with
  | none => exact iff_of_true (DataNode.kept_of_none hm) rfl
  | some m =>
    rw [DataNode.kept_of_some hm]
    exact iff_of_false (Multiset.singleton_ne_zero _) (Option.some_ne_none m)

/-- Both nodes hold the same buffer in the same state, or none. -/
structure DataNode.SameBuffer (d e : DataNode) : Prop where
  kept : e.kept = d.kept
  state : e.kept ≠ 0 → e.transState = d.transState

theorem DataNode.SameBuffer.refl (d : DataNode) : d.SameBuffer d := ⟨rfl, fun _ => rfl⟩

theorem DataNode.SameBuffer.of_none {d e : DataNode} (hd : d.pData = none) (he : e.pData = none) :
    d.SameBuffer e := by
  rw [← DataNode.kept_eq_zero] at hd he
  exact ⟨he.trans hd.symm, fun h => absurd he h⟩

namespace UserInfo

/-- The tx windows hold the same buffers. -/
def SameBuffers (u v : UserInfo) : Prop :=
  ∀ f i, ((u.txWindow f).dataNode i).SameBuffer ((v.txWindow f).dataNode i)

theorem SameBuffers.hasBuffer (h : SameBuffers u v) : v.HasBuffer a ↔ u.HasBuffer a := by
  simp only [HasBuffer, (h _ _).kept]

/-- Nothing happens to a transmit buffer. -/
theorem Story.quiet (h : Story F u) (hw : SameBuffers u v) (hout : v.out = u.out ++ as)
    (has : ∀ x ∈ as, x.Quiet F) : Story F v where
  told := hout ▸ h.told.quiet has
  inside f i hne := h.inside f i ((hw f i).kept ▸ hne)
  custody f i a ha := by
    have hne : ((v.txWindow f).dataNode i).kept ≠ 0 := fun h0 => by
      rw [h0] at ha
      exact Multiset.notMem_zero a ha
    rw [(hw f i).state hne, hout]
    rw [(hw f i).kept] at ha
    have hold := h.custody f i a ha
    exact hold.append (notMem_freesOf_of_quiet has hold.own) (notMem_sendsOf_of_quiet has hold.own)
  apart f i g j a ha hb := by
    rw [(hw f i).kept] at ha
    rw [(hw g j).kept] at hb
    exact h.apart f i g j a ha hb
  settled deviceId m len ok hmem := by
    rw [hout] at hmem ⊢
    rw [hw.hasBuffer, freesOf_append, Multiset.mem_add, ← or_assoc]
    rcases List.mem_append.mp hmem with hmem | hmem
    · exact .inl (h.settled deviceId m len ok hmem)
    · exact absurd (has _ hmem).1 Bool.false_ne_true

/-- Something is asked for the buffer `b`. The others stay where they are. -/
theorem Story.about {b : ℕ} {x : Action} (h : Story F u) (hi : i < 1024)
    (hout : v.out = u.out ++ [x])
    (hfair : x.Fair F u.out) (hfrees : ∀ a ∈ freesOf [x], a = b) (hsends : ∀ a ∈ sendsOf [x], a = b)
    (hothers : ∀ g j a, a ≠ b → (a ∈ ((v.txWindow g).dataNode j).kept →
      ((v.txWindow g).dataNode j).transState = ((u.txWindow g).dataNode j).transState) ∧
      (a ∈ ((v.txWindow g).dataNode j).kept ↔ a ∈ ((u.txWindow g).dataNode j).kept))
    (hself : ∀ g j, b ∈ ((v.txWindow g).dataNode j).kept →
      (g = f ∧ j = i) ∧ InCustody F g ((v.txWindow g).dataNode j).transState v.out b)
    (hsettled : v.HasBuffer b ∨ b ∈ freesOf v.out) : Story F v where
  told := hout ▸ h.told.concat hfair
  inside g j hne := by
    obtain ⟨a, ha⟩ := Multiset.exists_mem_of_ne_zero hne
    by_cases hab : a = b
    · subst hab
      obtain ⟨⟨-, rfl⟩, -⟩ := hself g j ha
      exact hi
    · refine h.inside g j fun h0 => ?_
      rw [(hothers g j a hab).2, h0] at ha
      exact Multiset.notMem_zero a ha
  custody g j a ha := by
    by_cases hab : a = b
    · subst hab
      exact (hself g j ha).2
    · obtain ⟨hstate, hiff⟩ := hothers g j a hab
      rw [hstate ha, hout]
      exact (h.custody g j a (hiff.mp ha)).append (fun hmem => hab (hfrees a hmem))
        fun hmem => hab (hsends a hmem)
  apart g j g' j' a ha ha' := by
    by_cases hab : a = b
    · subst hab
      obtain ⟨⟨rfl, rfl⟩, -⟩ := hself g j ha
      obtain ⟨⟨rfl, rfl⟩, -⟩ := hself g' j' ha'
      exact ⟨rfl, rfl⟩
    · exact h.apart g j g' j' a ((hothers g j a hab).2.mp ha) ((hothers g' j' a hab).2.mp ha')
  settled deviceId m len ok hmem := by
    by_cases hab : m.addr = b
    · exact hab ▸ hsettled
    rw [hout] at hmem ⊢
    rcases List.mem_append.mp hmem with hmem | hmem
    · rcases h.settled deviceId m len ok hmem with ⟨g, j, ha⟩ | hfreed
      · exact .inl ⟨g, j, (hothers g j _ hab).2.mpr ha⟩
      · rw [freesOf_append, Multiset.mem_add]
        exact .inr (.inl hfreed)
    · exact absurd (hsends _ (mem_sendsOf_of_mem hmem)) hab

/-- The node at `i` of the tx window of `f` becomes `e`, `as` is asked for, and no other node
changes. -/
structure Change (f : ℕ) (u : UserInfo) (i : ℕ) (e : DataNode) (as : List Action) (v : UserInfo) :
    Prop where
  node : ∀ g j, (v.txWindow g).dataNode j = if g = f ∧ j = i then e else (u.txWindow g).dataNode j
  out : v.out = u.out ++ as

theorem Change.of_nodes {e : DataNode}
    (hnodes : (v.txWindow f).dataNode = Function.update (u.txWindow f).dataNode i e)
    (hothers : ∀ g, g ≠ f → v.txWindow g = u.txWindow g) (hout : v.out = u.out ++ as) :
    Change f u i e as v := by
  refine ⟨fun g j => ?_, hout⟩
  by_cases hg : g = f
  · subst hg
    rw [hnodes, Function.update_apply]
    simp
  · rw [hothers g hg, if_neg fun h => hg h.1]

theorem Round.change {e : DataNode} (hr : Round f u i e as v) : Change f u i e as v :=
  .of_nodes hr.nodes hr.others hr.out

/-- A node gives its data back. -/
theorem Story.gives {e : DataNode} (h : Story F u) (hd : Sound ((u.txWindow f).dataNode i))
    (he : e.pData = none) (hr : Change f u i e (((u.txWindow f).dataNode i).releases f) v) :
    Story F v := by
  have hnode := hr.node
  cases hm : ((u.txWindow f).dataNode i).pData with
  | none =>
    have hnothing : ((u.txWindow f).dataNode i).releases f = [] := by
      rw [DataNode.releases, if_pos (hd.none_iff.mpr hm)]
    refine h.quiet (fun g j => ?_) (hr.out.trans (congrArg _ hnothing)) fun x hx =>
      absurd hx List.not_mem_nil
    rw [hnode]
    split
    · next heq =>
      obtain ⟨rfl, rfl⟩ := heq
      exact .of_none hm he
    · exact .refl _
  | some m =>
    have hrel : ((u.txWindow f).dataNode i).releases f = [((u.txWindow f).dataNode i).release f m] := by
      rw [DataNode.releases, if_neg fun h0 => by simp [hd.none_iff.mp h0] at hm, hm]
      rfl
    have hfreed : freesOf [((u.txWindow f).dataNode i).release f m] = {m.addr} := by
      rw [← hrel, freesOf_releases hd, DataNode.kept_of_some hm]
    have hsent : sendsOf [((u.txWindow f).dataNode i).release f m] = 0 := by
      rw [← hrel, sendsOf_releases]
    have hmem : m.addr ∈ ((u.txWindow f).dataNode i).kept := by
      rw [DataNode.kept_of_some hm]
      exact Multiset.mem_singleton_self _
    have hgone : e.kept = 0 := DataNode.kept_of_none he
    have hself : ∀ g j, m.addr ∉ ((v.txWindow g).dataNode j).kept := by
      intro g j hb
      rw [hnode] at hb
      split at hb
      · rw [hgone] at hb
        exact Multiset.notMem_zero _ hb
      · next hne => exact hne (h.apart g j f i _ hb hmem)
    have hi : i < 1024 := h.inside f i fun h0 => by
      rw [h0] at hmem
      exact Multiset.notMem_zero _ hmem
    refine h.about (b := m.addr) (f := f) hi (hr.out.trans (congrArg _ hrel))
      (h.custody f i _ hmem).fair (fun a ha => ?_) (fun a ha => ?_) (fun g j a hab => ?_)
      (fun g j hb => absurd hb (hself g j)) (.inr ?_)
    · rw [hfreed] at ha
      exact Multiset.mem_singleton.mp ha
    · rw [hsent] at ha
      exact absurd ha (Multiset.notMem_zero _)
    · rw [hnode]
      split
      · next heq =>
        obtain ⟨rfl, rfl⟩ := heq
        rw [hgone, DataNode.kept_of_some hm, Multiset.mem_singleton]
        exact ⟨fun ha => absurd ha (Multiset.notMem_zero _),
          iff_of_false (Multiset.notMem_zero _) hab⟩
      · exact ⟨fun _ => rfl, Iff.rfl⟩
    · rw [hr.out, hrel, freesOf_append, hfreed, Multiset.mem_add]
      exact .inr (Multiset.mem_singleton_self _)

/-- A node is handed to the queue of its subflow once more. -/
theorem Story.again {e : DataNode} {len : ℕ} {ok : Bool} (h : Story F u)
    (hm : ((u.txWindow f).dataNode i).pData = some m)
    (hr : Change f u i e [.send (getDeviceId f) m len false ok] v) (hdata : e.pData = some m)
    (hstate : e.transState = .sacked) : Story F v := by
  have hnode := hr.node
  have hkept : e.kept = ((u.txWindow f).dataNode i).kept := by
    rw [DataNode.kept_of_some hm, DataNode.kept_of_some hdata]
  have hmem : m.addr ∈ ((u.txWindow f).dataNode i).kept := by
    rw [DataNode.kept_of_some hm]
    exact Multiset.mem_singleton_self _
  have hold := h.custody f i _ hmem
  have hi : i < 1024 := h.inside f i fun h0 => by
    rw [h0] at hmem
    exact Multiset.notMem_zero _ hmem
  refine h.about (b := m.addr) (f := f) hi hr.out ?_ (fun a ha => absurd ha (Multiset.notMem_zero _))
    (fun a ha => Multiset.mem_singleton.mp ha) (fun g j a hab => ?_) (fun g j hb => ?_)
    (.inl ⟨f, i, ?_⟩)
  · exact ⟨hold.own, hold.kept⟩
  · rw [hnode]
    split
    · next heq =>
      obtain ⟨rfl, rfl⟩ := heq
      rw [DataNode.kept_of_some hdata, DataNode.kept_of_some hm, Multiset.mem_singleton]
      exact ⟨fun ha => absurd ha hab, Iff.rfl⟩
    · exact ⟨fun _ => rfl, Iff.rfl⟩
  · have hplace : g = f ∧ j = i := by
      rw [hnode] at hb
      split at hb
      · next heq => exact heq
      · exact h.apart g j f i _ hb hmem
    refine ⟨hplace, ?_⟩
    obtain ⟨rfl, rfl⟩ := hplace
    rw [hnode, if_pos ⟨rfl, rfl⟩, hstate, hr.out]
    exact hold.again
  · rw [hnode, if_pos ⟨rfl, rfl⟩, hkept]
    exact hmem

/-- A new packet comes into a tx window and goes to the queue of the subflow. -/
theorem Story.put {len : ℕ} {ok : Bool} (h : Story F u) (hnew : u.Unheard m.addr) (hF : F m.addr)
    (hf : f < 3) (hi : i < 1024) (hold : ((u.txWindow f).dataNode i).pData = none)
    (hdata : ((v.txWindow f).dataNode i).kept = {m.addr})
    (hothers : ∀ g j, (g ≠ f ∨ j ≠ i) →
      ((u.txWindow g).dataNode j).SameBuffer ((v.txWindow g).dataNode j))
    (hout : v.out = u.out ++ [.send (getDeviceId f) m len false ok]) : Story F v := by
  have hempty : ((u.txWindow f).dataNode i).kept = 0 := DataNode.kept_of_none hold
  have hmem : m.addr ∈ ((v.txWindow f).dataNode i).kept := by
    rw [hdata]
    exact Multiset.mem_singleton_self _
  refine h.about (b := m.addr) (f := f) hi hout ⟨hF, hnew.freed⟩
    (fun a ha => absurd ha (Multiset.notMem_zero _)) (fun a ha => Multiset.mem_singleton.mp ha)
    (fun g j a hab => ?_) (fun g j hb => ?_) (.inl ⟨f, i, hmem⟩)
  · by_cases hplace : g = f ∧ j = i
    · obtain ⟨rfl, rfl⟩ := hplace
      rw [hdata, hempty, Multiset.mem_singleton]
      exact ⟨fun ha => absurd ha hab, iff_of_false hab (Multiset.notMem_zero _)⟩
    · have hsame := hothers g j (not_and_or.mp hplace)
      rw [hsame.kept]
      refine ⟨fun ha => hsame.state fun h0 => ?_, Iff.rfl⟩
      rw [← hsame.kept, h0] at ha
      exact Multiset.notMem_zero _ ha
  · have hplace : g = f ∧ j = i := by
      by_contra hplace
      rw [(hothers g j (not_and_or.mp hplace)).kept] at hb
      exact hnew.held ⟨g, j, hb⟩
    refine ⟨hplace, ?_⟩
    obtain ⟨rfl, rfl⟩ := hplace
    refine ⟨hF, hf, ?_, ?_, fun x hx => ?_, fun _ => ?_⟩
    · rw [hout, freesOf_append, Multiset.mem_add, not_or]
      exact ⟨hnew.freed, Multiset.notMem_zero _⟩
    · rw [hout, sendsOf_append, Multiset.mem_add]
      exact .inr (Multiset.mem_singleton_self _)
    · rw [hout] at hx
      rcases List.mem_append.mp hx with hx | hx
      · exact plain_of_notMem hnew.sent g x hx
      · obtain rfl := List.mem_singleton.mp hx
        exact fun _ => ⟨rfl, rfl⟩
    · rw [hout, copies_append, copies_eq_zero hnew.sent, Nat.zero_add]
      exact copies_singleton_le _ _

/-- A buffer that never comes into a tx window is given back. -/
theorem Story.drop (h : Story F u) (hnew : u.Unheard m.addr) (hw : SameBuffers u v)
    (hout : v.out = u.out ++ [.free m]) : Story F v := by
  have hcopies : copies m.addr u.out = 0 := copies_eq_zero hnew.sent
  have hno : ∀ g j, m.addr ∉ ((v.txWindow g).dataNode j).kept := fun g j hb =>
    hnew.held ⟨g, j, (hw g j).kept ▸ hb⟩
  refine h.about (b := m.addr) (f := 0) (i := 0) (by decide) hout (fun _ => ⟨hnew.freed, by omega⟩)
    (fun a ha => Multiset.mem_singleton.mp ha) (fun a ha => absurd ha (Multiset.notMem_zero _))
    (fun g j a hab => ⟨fun ha => (hw g j).state fun h0 => ?_, by rw [(hw g j).kept]⟩)
    (fun g j hb => absurd hb (hno g j)) (.inr ?_)
  · rw [h0] at ha
    exact Multiset.notMem_zero _ ha
  · rw [hout, freesOf_append, Multiset.mem_add]
    exact .inr (Multiset.mem_singleton_self _)

/-! ### Acknowledgements -/

theorem Story.counts (h : Story F u) (hc : Counts u v) : Story F v := by
  obtain ⟨as, hout, has⟩ := hc.out
  refine h.quiet (fun f i => ?_) hout fun x hx => ?_
  · rw [(hc.windows f).nodes]
    exact .refl _
  · obtain ⟨y, rfl⟩ := has x hx
    trivial

/-- What a datagram does to the window of its subflow. -/
theorem Story.frame (F : ℕ → Prop) (f : ℕ) :
    SackFrame f fun u => (∀ i, Sound ((u.txWindow f).dataNode i)) ∧ Story F u where
  counts u v h hc := by
    refine ⟨fun i => ?_, h.2.counts hc⟩
    rw [(hc.windows f).nodes]
    exact h.1 i
  sound u i h := h.1 i
  gives u i e v h he hsound hr := by
    refine ⟨fun j => ?_, h.2.gives (h.1 i) he hr.change⟩
    rw [hr.nodes, Function.update_apply]
    split
    · exact hsound
    · exact h.1 j
  again u i d len ok v h hdue hdata hr := by
    rw [DataNode.missed, if_pos hdue] at hr
    refine ⟨fun j => ?_, h.2.again hdata hr.change hdata rfl⟩
    rw [hr.nodes, Function.update_apply]
    split
    · simp [Sound, hdata]
    · exact h.1 j

end UserInfo

end Story

end Mpd

end AndroidVendor
