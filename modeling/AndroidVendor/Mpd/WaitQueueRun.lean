import AndroidVendor.Mpd.Fragments
import AndroidVendor.Mpd.SchdChoice
import AndroidVendor.Mpd.WaitQueue

/-!
# What becomes of a packet that waits

The abstract wait queue is a list of packets, and `Queued s ps` says that the ring of `s` holds the
packets `ps`, oldest first. A packet leaves it sent, evicted by one that finds the ring full, or
when the queue is cleared. An observer writes down what was put into the queue, what left it and
how, and what the queues of the subflows took of what `MPD_DoSendWaitQueueData` handed to them.

`isFragment` is never cleared: after a packet was split, a round that does not split its own sends
the fragments of the last one that was, and the packet it took is gone. A packet that the queue of
the subflow refuses is gone as well, for `SEND_FAIL` only ends the loop. `CleanTurn` says that
neither happens, and that the length fits the sixteen bits the tx window has for it.

## Main results

* `Queued.turn`, `Queued.putWait`, `Queued.clear` — the ring refines the list
* `carried_turn` — what the subflow takes in one round
* `waitQueue_run` — the queue is first in, first out, and every packet that leaves it sent was
  taken by a subflow once, whole or in its two fragments
-/

namespace AndroidVendor

namespace Mpd

open UserInfo TxWin Machine

namespace WaitInfo

/-! ### What is handed over for one packet -/

/-- A packet, or its two fragments: the bytes behind its header, and their length. -/
def Carried (data : Msg) (sent : List (ℕ × Msg × ℕ)) : Prop :=
  (∃ f dsn ssn m, sent = [(getDeviceId f, m, data.data.length)] ∧
    Part m 0 f dsn ssn (data.data.drop 12)) ∨
  ∃ f dsn ssn first last,
    sent = [(getDeviceId f, first, 1012), (getDeviceId f, last, data.data.length - 1000)] ∧
      Part first 1 f dsn ssn ((data.data.drop 12).take 1000) ∧
      Part last 2 f dsn ((ssn + 1) % 65536) ((data.data.drop 12).drop 1000)

theorem Carried.lengths {data : Msg} {sent : List (ℕ × Msg × ℕ)} (h : Carried data sent) :
    sent.map (fun a => a.2.2) = [data.data.length] ∨
      sent.map (fun a => a.2.2) = [1012, data.data.length - 1000] := by
  rcases h with ⟨f, dsn, ssn, m, rfl, -⟩ | ⟨f, dsn, ssn, first, last, rfl, -⟩
  · exact .inl rfl
  · exact .inr rfl

/-- There is memory for the two fragments of a packet that needs them. -/
def Splits (u : UserInfo) (length : ℕ) : Prop :=
  1480 ≤ length ∧ (u.allocs 0).isSome = true ∧ (u.allocs 1).isSome = true

instance (u : UserInfo) (length : ℕ) : Decidable (Splits u length) :=
  inferInstanceAs (Decidable (_ ∧ _))

section Send

variable {u : UserInfo} {d : DrainState} {f : ℕ} {data : Msg} {length : ℕ}

theorem TxOk.send (h : TxOk u) (d : DrainState) (f : ℕ) (data : Msg) (length : ℕ) :
    TxOk (d.send u f data length).2.2 := by
  rw [DrainState.send]
  split
  · exact h.sendBlock f data length 0
  · refine TxOk.sendBlock ?_ f d.dataFrag.last d.lastBlockLength 2
    exact (h.sendBlock f d.dataFrag.first 1012 1).congr rfl

/-- A packet goes out whole. -/
theorem carried_send_whole (h : TxOk u) (hf : f < 3) (hfrag : d.isFragment = false)
    (hlen : data.data.length < 65536) (htaken : u.sends 0 = true) :
    ∃ as, (d.send u f data data.data.length).2.2.out = u.out ++ as ∧
      Carried data (as.filterMap Action.queued) := by
  obtain ⟨b, n, hs⟩ := h f
  obtain ⟨m, hout, hpart, -⟩ :=
    sendBlock_part hs hf (by decide : 0 < 3) data data.data.length
  rw [List.append_assoc, htaken] at hout
  generalize has : _ ++ [Action.send (getDeviceId f) m _ false true] = as at hout
  refine ⟨as, ?_, .inl ⟨f, _, _, m, ?_, hpart⟩⟩
  · rw [DrainState.send, if_pos (by rw [hfrag]; rfl)]
    exact hout
  · rw [← has, List.filterMap_append, (sent_evicted _ _ _).2, List.nil_append]
    simp only [List.filterMap_cons, List.filterMap_nil, Action.queued]
    rw [u16, Nat.mod_eq_of_lt hlen]

/-- A packet goes out in two fragments. -/
theorem carried_send_parts (h : TxOk u) (hf : f < 3) (hfrag : d.isFragment = true)
    (hlo : 1480 ≤ data.data.length) (hhi : data.data.length < 66536)
    (hfirst : d.dataFrag.first.data.drop 12 = (data.data.drop 12).take 1000)
    (hlast : d.dataFrag.last.data.drop 12 = (data.data.drop 12).drop 1000)
    (hlen : d.lastBlockLength = data.data.length - 1012 + 12) (htaken : u.sends 0 = true)
    (htaken' : u.sends 1 = true) :
    ∃ as, (d.send u f data data.data.length).2.2.out = u.out ++ as ∧
      Carried data (as.filterMap Action.queued) := by
  obtain ⟨b, n, hs⟩ := h f
  obtain ⟨m, m', as, hout, -, hsent, hpart, hpart', -⟩ :=
    sendBlock_twice hs hf d.dataFrag.first d.dataFrag.last 1012 d.lastBlockLength
  refine ⟨as, ?_, .inr ⟨f, _, n % 65536, m, m', ?_, hfirst ▸ hpart, ?_⟩⟩
  · rw [DrainState.send, if_neg (by rw [hfrag]; decide)]
    exact hout
  · rw [hsent htaken htaken', hlen, u16, u16]
    have hmod : (data.data.length - 1012 + 12) % 65536 = data.data.length - 1000 := by omega
    rw [hmod]
  · rw [Nat.mod_add_mod, ← hlast]
    exact hpart'

/-- Splitting asks no queue. -/
theorem splitDataMem_sends (u : UserInfo) (data : Msg) (length : ℕ) :
    (u.splitDataMem data length).2.sends = u.sends := by
  rw [splitDataMem]
  split
  · rfl
  dsimp only [msgMemCreat]
  split
  · rfl
  · split <;> rfl

/-- What splitting leaves alone. -/
theorem prepare_frame (d : DrainState) (u : UserInfo) (data : Msg) (length : ℕ) :
    (d.prepare u data length).1.info = d.info ∧ (d.prepare u data length).1.queueIdx = d.queueIdx ∧
      (d.prepare u data length).2.txWindow = u.txWindow ∧
      (d.prepare u data length).2.sends = u.sends := by
  have hsplit : (u.splitDataMem data length).2.txWindow = u.txWindow ∧
      (u.splitDataMem data length).2.sends = u.sends :=
    ⟨(aside_splitDataMem u data length).txWindow, splitDataMem_sends u data length⟩
  rw [DrainState.prepare]
  split
  · rw [DrainState.split]
    generalize u.splitDataMem data length = r at hsplit
    obtain ⟨frag, u'⟩ := r
    cases frag with
    | some frag => exact ⟨rfl, rfl, hsplit⟩
    | none => cases u.allocs 0 <;> exact ⟨rfl, rfl, hsplit⟩
  · exact ⟨rfl, rfl, rfl, rfl⟩

/-- The packet is split. -/
theorem prepare_splits (d : DrainState) (h : Splits u data.data.length) :
    (d.prepare u data data.data.length).1.isFragment = true ∧
      (d.prepare u data data.data.length).1.dataFrag.first.data.drop 12 =
        (data.data.drop 12).take 1000 ∧
      (d.prepare u data data.data.length).1.dataFrag.last.data.drop 12 =
        (data.data.drop 12).drop 1000 ∧
      (d.prepare u data data.data.length).1.lastBlockLength = data.data.length - 1012 + 12 ∧
      (d.prepare u data data.data.length).2.out = u.out ++ [.free data] := by
  obtain ⟨a, ha⟩ := Option.isSome_iff_exists.mp h.2.1
  obtain ⟨c, hc⟩ := Option.isSome_iff_exists.mp h.2.2
  obtain ⟨first, last, v, hsplit, -, -, -, hout, -, -, hfirst, hlast⟩ := splitDataMem_some ha hc h.1
  rw [DrainState.prepare, if_pos h.1, DrainState.split, hsplit]
  exact ⟨rfl, hfirst, hlast, rfl, hout⟩

/-- The packet is not split. -/
theorem prepare_not_splits (d : DrainState) (h : ¬ Splits u data.data.length) :
    (d.prepare u data data.data.length).1.isFragment = d.isFragment ∧
      ∃ as, (d.prepare u data data.data.length).2.out = u.out ++ as ∧
        as.filterMap Action.queued = [] := by
  rw [DrainState.prepare]
  split
  · next hlo =>
    have hnone : u.allocs 0 = none ∨ u.allocs 1 = none := by
      by_contra hsome
      rw [not_or, ← ne_eq, ← ne_eq, Option.ne_none_iff_isSome, Option.ne_none_iff_isSome] at hsome
      exact h ⟨hlo, hsome⟩
    obtain ⟨v, hsplit, -, -, hout⟩ := splitDataMem_none hnone hlo
    rw [DrainState.split, hsplit]
    have hfree : ((u.allocs 0).toList.map fun a =>
        Action.free ⟨a, data.slice 0 1012⟩).filterMap Action.queued = [] := by
      cases u.allocs 0 <;> rfl
    cases u.allocs 0 <;> exact ⟨rfl, _, hout, hfree⟩
  · exact ⟨rfl, [], (List.append_nil _).symm, rfl⟩

end Send

/-! ### The ring and the list -/

/-- A packet as it waits. -/
def waitNode (m : Msg) : WaitSendNode := ⟨some m, m.data.length⟩

/-- The ring holds the packets `ps`, oldest first. -/
structure Queued (s : WaitInfo) (ps : List Msg) : Prop where
  tail_lt : s.pDataWaiteTail < 512
  head_lt : s.pDataWaiteHead < 512
  waiting : RingQueue.contents 512 s.dataWaitQueue s.pDataWaiteTail s.pDataWaiteHead = ps.map waitNode
  tx : TxOk s.schd.user

/-- The packets that wait. -/
def packets (s : WaitInfo) : List Msg :=
  (RingQueue.contents 512 s.dataWaitQueue s.pDataWaiteTail s.pDataWaiteHead).filterMap (·.pData)

section Queue

variable {s : WaitInfo} {d : DrainState} {ps rest : List Msg} {m data : Msg}

theorem Queued.packets_eq (h : Queued s ps) : s.packets = ps := by
  rw [packets, h.waiting, List.filterMap_map]
  exact List.filterMap_some

theorem Queued.nonempty (h : Queued s ps) : ps ≠ [] ↔ s.pDataWaiteHead ≠ s.pDataWaiteTail := by
  have hnil := @RingQueue.contents_eq_nil _ _ s.dataWaitQueue _ _ h.tail_lt h.head_lt
  rw [h.waiting, List.map_eq_nil_iff] at hnil
  rw [ne_eq, hnil, ne_eq, eq_comm]

/-- The oldest packet is at `pDataWaiteTail`. -/
theorem Queued.oldest (h : Queued s (m :: rest)) :
    s.dataWaitQueue s.pDataWaiteTail = waitNode m ∧
      RingQueue.contents 512 s.dataWaitQueue (waitPlus s.pDataWaiteTail) s.pDataWaiteHead =
        rest.map waitNode := by
  have hne : s.pDataWaiteTail ≠ s.pDataWaiteHead := (h.nonempty.mp (by simp)).symm
  have hcons := h.waiting
  rw [RingQueue.contents_cons h.tail_lt h.head_lt hne, List.map_cons] at hcons
  exact List.cons.inj hcons

/-- A session in which the ring is as it was. -/
theorem Queued.congr {s' : WaitInfo} (h : Queued s ps) (hq : s'.dataWaitQueue = s.dataWaitQueue)
    (hh : s'.pDataWaiteHead = s.pDataWaiteHead) (ht : s'.pDataWaiteTail = s.pDataWaiteTail)
    (htx : TxOk s'.schd.user) : Queued s' ps := by
  refine ⟨ht ▸ h.tail_lt, hh ▸ h.head_lt, ?_, htx⟩
  rw [hq, hh, ht]
  exact h.waiting

theorem chooseStream_lt (s : SchdInfo) (h : s.chooseStream.1 ≠ 255) : s.chooseStream.1 < 3 :=
  (s.chooseStream_fst.resolve_right fun h255 => h h255.1).1.1.1

theorem chooseStream_frame {s : SchdInfo} (h : TxOk s.user) :
    TxOk s.chooseStream.2.user ∧ s.chooseStream.2.user.out = s.user.out ∧
      s.chooseStream.2.user.allocs = s.user.allocs ∧ s.chooseStream.2.user.sends = s.user.sends :=
  SchdInfo.chooseStream_user
    (P := fun u => TxOk u ∧ u.out = s.user.out ∧ u.allocs = s.user.allocs ∧ u.sends = s.user.sends)
    (fun _ f pktAvg hu => ⟨hu.1.getHistAcnt f pktAvg, hu.2⟩) ⟨h, rfl, rfl, rfl⟩

/-! ### One round -/

/-- The session a round sends from. -/
def DrainState.sender (d : DrainState) : UserInfo :=
  { d.info.schd.chooseStream.2.user with
    lastPackageTime := u32 (d.info.schd.chooseStream.2.user.time + 6000) }

theorem DrainState.sender_frame (d : DrainState) :
    d.sender.txWindow = d.info.schd.chooseStream.2.user.txWindow ∧
      d.sender.out = d.info.schd.chooseStream.2.user.out ∧
      d.sender.allocs = d.info.schd.chooseStream.2.user.allocs ∧
      d.sender.sends = d.info.schd.chooseStream.2.user.sends := by
  rw [DrainState.sender]
  generalize d.info.schd.chooseStream.2.user = u
  exact ⟨rfl, rfl, rfl, rfl⟩

theorem TxOk.prepare (h : TxOk d.info.schd.chooseStream.2.user) (m : Msg) (length : ℕ) :
    TxOk (d.prepare d.sender m length).2 :=
  h.congr ((prepare_frame d d.sender m length).2.2.1.trans d.sender_frame.1)

/-- A round that finds a flow takes the packet. -/
theorem turn_sends (hnode : d.info.dataWaitQueue d.queueIdx = waitNode m)
    (hflow : d.info.schd.chooseStream.1 ≠ 255) :
    d.turn.info.dataWaitQueue =
        Function.update d.info.dataWaitQueue d.queueIdx { waitNode m with pData := none } ∧
      d.turn.info.pDataWaiteHead = d.info.pDataWaiteHead ∧
      d.turn.info.pDataWaiteTail = waitPlus d.queueIdx ∧ d.turn.queueIdx = waitPlus d.queueIdx ∧
      d.turn.info.schd.user =
        ((d.prepare d.sender m m.data.length).1.send (d.prepare d.sender m m.data.length).2
          d.info.schd.chooseStream.1 m m.data.length).2.2 := by
  obtain ⟨hinfo, hidx, -⟩ := prepare_frame d d.sender m m.data.length
  rw [DrainState.turn, hnode]
  dsimp only [waitNode]
  rw [if_neg hflow]
  rw [DrainState.sender] at hinfo hidx ⊢
  dsimp only at hinfo hidx ⊢
  rw [hinfo, hidx]
  exact ⟨rfl, rfl, rfl, rfl, rfl⟩

/-- One that finds none leaves it. -/
theorem turn_stays (hnode : d.info.dataWaitQueue d.queueIdx = waitNode m)
    (hflow : d.info.schd.chooseStream.1 = 255) :
    d.turn =
      { d with info := { d.info with schd := d.info.schd.chooseStream.2 }, goesOn := false } := by
  rw [DrainState.turn, hnode]
  dsimp only [waitNode]
  rw [if_pos hflow]

theorem Queued.turn (h : Queued d.info (m :: rest)) (hidx : d.queueIdx = d.info.pDataWaiteTail) :
    if d.info.schd.chooseStream.1 = 255 then Queued d.turn.info (m :: rest) ∧ d.turn.goesOn = false
    else Queued d.turn.info rest ∧ d.turn.queueIdx = d.turn.info.pDataWaiteTail := by
  obtain ⟨hnode, hrest⟩ := h.oldest
  rw [← hidx] at hnode
  obtain ⟨htx, -⟩ := chooseStream_frame h.tx
  split
  · next hflow =>
    rw [turn_stays hnode hflow]
    exact ⟨h.congr rfl rfl rfl htx, rfl⟩
  · next hflow =>
    obtain ⟨hqueue, hhead, htail, hnext, huser⟩ := turn_sends hnode hflow
    refine ⟨⟨?_, ?_, ?_, ?_⟩, hnext.trans htail.symm⟩
    · rw [htail]
      exact Nat.mod_lt _ (by decide)
    · rw [hhead]
      exact h.head_lt
    · rw [hqueue, hhead, htail, hidx, waitPlus]
      exact (RingQueue.contents_update_tail h.tail_lt h.head_lt _).trans hrest
    · rw [huser]
      exact TxOk.send (TxOk.prepare htx m m.data.length) _ _ _ _

/-- A round that sends what it took: it splits the packet, or no earlier round has split one; the
length fits; and the queue of the subflow takes what it is given. -/
def DrainState.CleanTurn (d : DrainState) : Prop :=
  d.info.schd.chooseStream.1 ≠ 255 → d.info.schd.user.sends 0 = true ∧
    if Splits d.info.schd.user (d.info.dataWaitQueue d.queueIdx).len then
      (d.info.dataWaitQueue d.queueIdx).len < 66536 ∧ d.info.schd.user.sends 1 = true
    else d.isFragment = false ∧ (d.info.dataWaitQueue d.queueIdx).len < 65536

instance (d : DrainState) : Decidable d.CleanTurn := inferInstanceAs (Decidable (_ → _))

/-- **What the subflow takes in one round.** -/
theorem carried_turn (htx : TxOk d.info.schd.user)
    (hnode : d.info.dataWaitQueue d.queueIdx = waitNode m)
    (hflow : d.info.schd.chooseStream.1 ≠ 255) (hclean : d.CleanTurn) :
    ∃ as, d.turn.info.schd.user.out = d.info.schd.user.out ++ as ∧
      Carried m (as.filterMap Action.queued) := by
  obtain ⟨htx', hout, hallocs, hsends⟩ := chooseStream_frame htx
  have hf := chooseStream_lt _ hflow
  obtain ⟨htaken, hclean⟩ := hclean hflow
  rw [hnode] at hclean
  obtain ⟨-, -, -, -, huser⟩ := turn_sends hnode hflow
  have hsender : d.sender.out = d.info.schd.user.out := d.sender_frame.2.1.trans hout
  have hsplits : Splits d.sender m.data.length ↔ Splits d.info.schd.user m.data.length := by
    rw [Splits, Splits, d.sender_frame.2.2.1, hallocs]
  have hanswers : (d.prepare d.sender m m.data.length).2.sends = d.info.schd.user.sends :=
    ((prepare_frame d d.sender m m.data.length).2.2.2.trans d.sender_frame.2.2.2).trans hsends
  have hprep := TxOk.prepare htx' m m.data.length
  rw [huser]
  split at hclean
  · next hs =>
    have hs' := hsplits.mpr hs
    obtain ⟨hfrag, hfirst, hlast, hlen, hfree⟩ := prepare_splits d hs'
    obtain ⟨as, has, hcarried⟩ := carried_send_parts hprep hf hfrag hs.1 hclean.1 hfirst hlast hlen
      (hanswers ▸ htaken) (hanswers ▸ hclean.2)
    refine ⟨.free m :: as, ?_, hcarried⟩
    rw [has, hfree, hsender, List.append_assoc]
    rfl
  · next hs =>
    obtain ⟨hfrag, as', hfree, hnone⟩ := prepare_not_splits d (mt hsplits.mp hs)
    obtain ⟨as, has, hcarried⟩ :=
      carried_send_whole hprep hf (hfrag.trans hclean.1) hclean.2 (hanswers ▸ htaken)
    refine ⟨as' ++ as, ?_, ?_⟩
    · rw [has, hfree, hsender, List.append_assoc]
    · rw [List.filterMap_append, hnone, List.nil_append]
      exact hcarried

/-! ### One call -/

/-- Every round of the call is clean. -/
def CleanDrain : ℕ → DrainState → Prop
  | 0, _ => True
  | n + 1, d => d.Going → d.CleanTurn ∧ CleanDrain n d.turn

instance CleanDrain.instDecidable : ∀ n d, Decidable (CleanDrain n d)
  | 0, _ => isTrue trivial
  | n + 1, d =>
    have := instDecidable n d.turn
    inferInstanceAs (Decidable (_ → _ ∧ _))

/-- The first packets of the queue go, and in clean rounds they are what the subflows take. -/
theorem Queued.drain {n : ℕ} {d' : DrainState} (h : Queued d.info ps)
    (hidx : d.goesOn = true → d.queueIdx = d.info.pDataWaiteTail)
    (hw : Loop.whileLoop DrainState.Going (fun d => some d.turn) n d = some d') :
    ∃ gone rest, ps = gone ++ rest ∧ Queued d'.info rest ∧
      (CleanDrain n d → ∃ as groups, d'.info.schd.user.out = d.info.schd.user.out ++ as ∧
        as.filterMap Action.queued = groups.flatten ∧ List.Forall₂ Carried gone groups) := by
  induction n generalizing d ps with
  | zero =>
    rw [Loop.whileLoop] at hw
    obtain ⟨-, heq⟩ := Option.ite_none_left_eq_some.mp hw
    obtain rfl := Option.some.inj heq
    exact ⟨[], ps, rfl, h, fun _ => ⟨[], [], (List.append_nil _).symm, rfl, .nil⟩⟩
  | succ n ih =>
    by_cases hgo : d.Going
    · have hbody : (fun d : DrainState => some d.turn) d = some d.turn := rfl
      rw [Loop.whileLoop_succ_of hgo hbody] at hw
      obtain ⟨m, rest, rfl⟩ := List.exists_cons_of_ne_nil (h.nonempty.mpr hgo.2)
      have hnode := h.oldest.1
      rw [← hidx hgo.1] at hnode
      have hturn := h.turn (hidx hgo.1)
      split at hturn
      · next hflow =>
        obtain ⟨gone, rest', heq, hq, hout⟩ := ih hturn.1 (fun hg => by simp [hturn.2] at hg) hw
        refine ⟨gone, rest', heq, hq, fun hclean => ?_⟩
        obtain ⟨as, groups, has, hrest⟩ := hout (hclean hgo).2
        refine ⟨as, groups, ?_, hrest⟩
        rw [has, turn_stays hnode hflow]
        exact congrArg (· ++ as) (chooseStream_frame h.tx).2.1
      · next hflow =>
        obtain ⟨gone, rest', rfl, hq, hout⟩ := ih hturn.1 (fun _ => hturn.2) hw
        refine ⟨m :: gone, rest', rfl, hq, fun hclean => ?_⟩
        obtain ⟨as, has, hcarried⟩ := carried_turn h.tx hnode hflow (hclean hgo).1
        obtain ⟨bs, groups, hbs, hgroups, hall⟩ := hout (hclean hgo).2
        refine ⟨as ++ bs, as.filterMap Action.queued :: groups, ?_, ?_, .cons hcarried hall⟩
        · rw [hbs, has, List.append_assoc]
        · rw [List.filterMap_append, hgroups, List.flatten_cons]
    · rw [Loop.whileLoop_of_not hgo, Option.some.injEq] at hw
      subst hw
      exact ⟨[], ps, rfl, h, fun _ => ⟨[], [], (List.append_nil _).symm, rfl, .nil⟩⟩

/-- The loop ends: every round takes a packet or is the last. -/
theorem Queued.drain_total (h : Queued s ps) :
    ∃ d', Loop.whileLoop DrainState.Going (fun d => some d.turn) 512 s.drainStart = some d' := by
  have hlen : ps.length < 512 := by
    have hdist := SerialRing.dist_lt (M := 512) (by decide) s.pDataWaiteTail s.pDataWaiteHead
    have hcount := congrArg List.length h.waiting
    rw [RingQueue.length_contents, List.length_map] at hcount
    rwa [hcount] at hdist
  have hround : ∀ d : DrainState,
      (∃ qs, Queued d.info qs ∧ (d.goesOn = true → d.queueIdx = d.info.pDataWaiteTail)) → d.Going →
      ∃ d', some d.turn = some d' ∧
        (∃ qs, Queued d'.info qs ∧ (d'.goesOn = true → d'.queueIdx = d'.info.pDataWaiteTail)) ∧
        (if d'.goesOn then d'.info.packets.length else 0) <
          if d.goesOn then d.info.packets.length else 0 := by
    rintro d ⟨qs, hq, hidx⟩ hgo
    obtain ⟨m, rest, rfl⟩ := List.exists_cons_of_ne_nil (hq.nonempty.mpr hgo.2)
    have hturn := hq.turn (hidx hgo.1)
    rw [if_pos hgo.1, hq.packets_eq]
    split at hturn
    · refine ⟨_, rfl, ⟨_, hturn.1, fun hg => by simp [hturn.2] at hg⟩, ?_⟩
      rw [hturn.2, if_neg (by decide)]
      exact Nat.succ_pos _
    · refine ⟨_, rfl, ⟨_, hturn.1, fun _ => hturn.2⟩, ?_⟩
      rw [hturn.1.packets_eq]
      split
      · exact Nat.lt_succ_self _
      · exact Nat.succ_pos _
  obtain ⟨d', hd', -⟩ := Loop.whileLoop_total _ _ hround (n := 512) (s := s.drainStart)
    ⟨ps, h, fun _ => rfl⟩ (by
      rw [drainStart, if_pos rfl, h.packets_eq]
      exact hlen.le)
  exact ⟨d', hd'⟩

/-- A call that may schedule and finds a flow takes the oldest packet at least. -/
theorem Queued.takes (h : Queued s (m :: rest)) (hstop : s.schd.isMpStopSched = false)
    (hflow : s.schd.chooseStream.1 ≠ 255) :
    ∃ s' gone rest', s.doSendWaitQueueData = some s' ∧ rest = gone ++ rest' ∧ Queued s' rest' := by
  obtain ⟨d', hd'⟩ := h.drain_total
  have hgo : s.drainStart.Going := ⟨rfl, h.nonempty.mp (by simp)⟩
  obtain ⟨n, d, -, hd, hrest⟩ := Loop.whileLoop_eq_some_of hgo hd'
  obtain rfl := Option.some.inj hd
  have hturn := Queued.turn (d := s.drainStart) h rfl
  have hstart : s.drainStart.info.schd.chooseStream.1 ≠ 255 := hflow
  rw [if_neg hstart] at hturn
  obtain ⟨gone, rest', heq, hq, -⟩ := hturn.1.drain (fun _ => hturn.2) hrest
  refine ⟨d'.info, gone, rest', ?_, heq, hq⟩
  rw [doSendWaitQueueData, if_neg (by rw [hstop]; decide), hd', Option.map_some]

/-! ### The other calls -/

/-- A packet is put in; with 511 packets waiting the oldest goes. -/
theorem Queued.putWait (h : Queued s ps) (data : Msg) :
    ∃ gone rest, ps = gone ++ rest ∧
      Queued (s.putWait data data.data.length) (rest ++ [data]) := by
  have hmap : ∀ qs : List Msg, qs.map waitNode ++ [waitNode data] = (qs ++ [data]).map waitNode := by
    intro qs
    rw [List.map_append, List.map_singleton]
  rw [WaitInfo.putWait]
  dsimp only
  split
  · next hfull =>
    have hne : s.pDataWaiteHead ≠ s.pDataWaiteTail := by
      have hhead := h.head_lt
      dsimp only [waitPlus, setNode] at hfull
      omega
    obtain ⟨m, rest, rfl⟩ := List.exists_cons_of_ne_nil (h.nonempty.mpr hne)
    refine ⟨[m], rest, rfl, Nat.mod_lt _ (by decide), Nat.mod_lt _ (by decide), ?_, h.tx.congr rfl⟩
    dsimp only [freeNode, setNode, setUser, waitPlus] at hfull ⊢
    rw [RingQueue.contents_update_tail h.tail_lt (Nat.mod_lt _ (by decide)),
      RingQueue.contents_push_full h.tail_lt h.head_lt (by decide) hfull, h.waiting, List.map_cons,
      List.cons_append, List.tail_cons]
    exact hmap rest
  · next hroom =>
    refine ⟨[], ps, rfl, h.tail_lt, Nat.mod_lt _ (by decide), ?_, h.tx.congr rfl⟩
    rw [← hmap, ← h.waiting]
    exact RingQueue.contents_push h.tail_lt h.head_lt hroom _

theorem Queued.clear {s' : WaitInfo} (h : Queued s ps) (hc : s.clearWaitQueue = some s') :
    Queued s' [] := by
  rw [clearWaitQueue, clearNodes] at hc
  obtain ⟨t, ht, rfl⟩ := Option.map_eq_some_iff.mp hc
  have htx : TxOk t.schd.user := by
    refine (Loop.whileLoop_inv (fun t : WaitInfo => TxOk t.schd.user) ?_ h.tx ht).1
    intro t t' htx _ hstep
    obtain rfl := Option.some.inj hstep
    exact htx.congr rfl
  have hzero : 0 < 512 := by decide
  exact ⟨hzero, hzero, RingQueue.contents_self .., htx⟩

/-- `MPD_TrafficControl` does not look into the tx windows. -/
theorem trafficControl_txWindow (s : SchdInfo) : s.trafficControl.user.txWindow = s.user.txWindow := by
  have hlimit : ∀ (s : SchdInfo) k r l n, (s.limitFlow k r l n).user = s.user := by
    intro s k r l n
    rw [SchdInfo.limitFlow]
    dsimp only
    split
    · rfl
    split
    · split <;> rfl
    · rfl
  have hflow : ∀ (s : SchdInfo) k, (s.trafficControlFlow k).user.txWindow = s.user.txWindow := by
    intro s k
    rw [SchdInfo.trafficControlFlow]
    split
    · rfl
    · dsimp only [UserInfo.setTrafficControl, SchdInfo.setTraffic]
      rw [hlimit]
  rw [SchdInfo.trafficControl]
  split
  · rfl
  split
  · exact (hflow _ 2).trans ((hflow _ 1).trans (hflow _ 0))
  · rfl

end Queue

end WaitInfo

/-! ### The fate of a packet -/

/-- How a packet leaves the queue. -/
inductive Fate
  | sent
  | evicted
  | cleared
  deriving DecidableEq, Repr

/-- What the observer has written down. -/
structure Fates where
  /-- The packets that were put into the queue. -/
  put : List Msg := []
  /-- Those that left it, in this order. -/
  left : List (Msg × Fate) := []
  /-- What the subflows took of what `MPD_DoSendWaitQueueData` handed to them. -/
  sent : List (ℕ × Msg × ℕ) := []

/-- The packets that were sent from the queue, in this order. -/
def Fates.drained (h : Fates) : List Msg :=
  h.left.filterMap fun p => if p.2 = .sent then some p.1 else none

/-- The oldest packets of `s` leave, until as many are left as in `s'`, or one less if one came. -/
def Fates.leave (h : Fates) (s : WaitInfo) (n : ℕ) (fate : Fate) : Fates :=
  { h with left := h.left ++ (s.packets.take n).map fun m => (m, fate) }

def WaitOp.note (op : WaitOp) (s s' : WaitInfo) (h : Fates) : Fates :=
  match op with
  | .transNewData data =>
    if 12 ≤ data.data.length ∧ s.Gated then
      { h.leave s (s.packets.length + 1 - s'.packets.length) .evicted with put := h.put ++ [data] }
    else h
  | .clear => h.leave s s.packets.length .cleared
  | .doSendWaitQueueData =>
    { h.leave s (s.packets.length - s'.packets.length) .sent with
      sent := h.sent ++
        (s'.schd.user.out.drop s.schd.user.out.length).filterMap Action.queued }
  | _ => h

/-- A call of `MPD_DoSendWaitQueueData` whose rounds are clean, or another operation. -/
def WaitOp.Clean (op : WaitOp) (s : WaitInfo) : Prop :=
  op = .doSendWaitQueueData → s.schd.isMpStopSched = false → WaitInfo.CleanDrain 512 s.drainStart

instance (op : WaitOp) (s : WaitInfo) : Decidable (op.Clean s) := inferInstanceAs (Decidable (_ → _))

/-- The books of the observer, `ps` being the packets that wait. -/
structure Fates.Right (r : Fates) (ps : List Msg) : Prop where
  put : r.put = r.left.map Prod.fst ++ ps
  sent : ∃ groups, r.sent = groups.flatten ∧ List.Forall₂ WaitInfo.Carried r.drained groups

section Account

open WaitInfo

variable {s s' : WaitInfo} {r : Fates} {ps gone rest : List Msg} {fate : Fate}

theorem Fates.leave_eq (r : Fates) (h : s.Queued (gone ++ rest)) (fate : Fate) {n : ℕ}
    (hn : n = gone.length) : r.leave s n fate =
      { r with left := r.left ++ gone.map fun m => (m, fate) } := by
  rw [leave, h.packets_eq, hn, List.take_left]

theorem Fates.drained_append (r : Fates) (gone : List Msg) (fate : Fate) :
    Fates.drained { r with left := r.left ++ gone.map fun m => (m, fate) } =
      r.drained ++ if fate = .sent then gone else [] := by
  rw [drained, drained, List.filterMap_append, List.filterMap_map]
  congr 1
  split
  · next hf =>
    subst hf
    exact List.filterMap_some
  · next hf => exact List.filterMap_eq_nil_iff.mpr fun m _ => if_neg hf

theorem Fates.Right.leave_put (h : r.Right (gone ++ rest)) (fate : Fate) :
    r.put = (r.left ++ gone.map fun m => (m, fate)).map Prod.fst ++ rest := by
  rw [List.map_append, List.map_map, h.put, List.append_assoc]
  congr 2
  exact (List.map_id gone).symm

/-- Packets leave the queue unsent. -/
theorem Fates.Right.leave (h : r.Right (gone ++ rest)) (hf : fate ≠ .sent) :
    Fates.Right { r with left := r.left ++ gone.map fun m => (m, fate) } rest where
  put := h.leave_put fate
  sent := by
    rw [r.drained_append, if_neg hf, List.append_nil]
    exact h.sent

/-- Packets leave it sent. -/
theorem Fates.Right.send (h : r.Right (gone ++ rest)) {groups : List (List (ℕ × Msg × ℕ))}
    (hall : List.Forall₂ Carried gone groups) :
    Fates.Right { r with
      left := r.left ++ gone.map fun m => (m, Fate.sent), sent := r.sent ++ groups.flatten } rest where
  put := h.leave_put .sent
  sent := by
    obtain ⟨groups', hsent, hall'⟩ := h.sent
    refine ⟨groups' ++ groups, by rw [List.flatten_append, ← hsent], ?_⟩
    have hdrained := r.drained_append gone .sent
    rw [if_pos rfl] at hdrained
    rw [Fates.drained] at hdrained ⊢
    rw [hdrained]
    exact List.rel_append hall' hall

/-- A packet comes. -/
theorem Fates.Right.arrive (h : r.Right ps) (data : Msg) :
    Fates.Right { r with put := r.put ++ [data] } (ps ++ [data]) where
  put := by rw [h.put, List.append_assoc]
  sent := h.sent

/-- **One step** keeps the books right. -/
theorem Fates.Right.step {op : WaitOp} (h : r.Right ps) (hq : s.Queued ps) (hclean : op.Clean s)
    (hs : op.step s = some s') : ∃ qs, s'.Queued qs ∧ (op.note s s' r).Right qs := by
  cases op with
  | session op =>
    obtain ⟨u, hu, rfl⟩ := Option.map_eq_some_iff.mp hs
    exact ⟨ps, hq.congr rfl rfl rfl (hq.tx.step hu), h⟩
  | setRate flowId rate =>
    obtain rfl := Option.some.inj hs
    exact ⟨ps, hq.congr rfl rfl rfl hq.tx, h⟩
  | trafficControl =>
    obtain rfl := Option.some.inj hs
    exact ⟨ps, hq.congr rfl rfl rfl (hq.tx.congr (trafficControl_txWindow s.schd)), h⟩
  | clear =>
    obtain ⟨t, ht, rfl⟩ := Option.map_eq_some_iff.mp hs
    have hcleared := hq.clear ht
    rw [← List.append_nil ps] at h hq
    refine ⟨[], hcleared.congr rfl rfl rfl (hcleared.tx.congr rfl), ?_⟩
    rw [WaitOp.note, r.leave_eq hq .cleared (by rw [hq.packets_eq, List.append_nil])]
    exact h.leave (by decide)
  | transNewData data =>
    obtain rfl := Option.some.inj hs
    rw [WaitOp.note, WaitInfo.transNewData]
    by_cases hlen : data.data.length < 12
    · rw [if_pos hlen, if_neg (fun hc => by omega)]
      exact ⟨ps, hq.congr rfl rfl rfl (hq.tx.congr rfl), h⟩
    rw [if_neg hlen]
    by_cases hgate : s.Gated
    · rw [if_pos hgate, if_pos ⟨by omega, hgate⟩]
      obtain ⟨gone, rest, rfl, hput⟩ := hq.putWait data
      refine ⟨rest ++ [data], hput, ?_⟩
      rw [r.leave_eq hq .evicted (by
        rw [hq.packets_eq, hput.packets_eq, List.length_append, List.length_append,
          List.length_singleton]
        omega)]
      exact (h.leave (by decide)).arrive data
    · rw [if_neg hgate, if_neg (fun hc => hgate hc.2)]
      obtain ⟨htx, -⟩ := chooseStream_frame hq.tx
      exact ⟨ps, hq.congr rfl rfl rfl (htx.doSendNewTransData _ data _), h⟩
  | doSendWaitQueueData =>
    rw [WaitOp.step, WaitInfo.doSendWaitQueueData] at hs
    by_cases hstop : s.schd.isMpStopSched = true
    · rw [if_pos hstop] at hs
      obtain rfl := Option.some.inj hs
      have hq' : s.Queued ([] ++ ps) := hq
      refine ⟨ps, hq, ?_⟩
      rw [WaitOp.note, r.leave_eq hq' .sent (by simp)]
      simpa using h
    · rw [if_neg hstop] at hs
      obtain ⟨d, hd, rfl⟩ := Option.map_eq_some_iff.mp hs
      obtain ⟨gone, rest, rfl, hrest, hout⟩ := hq.drain (d := s.drainStart) (fun _ => rfl) hd
      obtain ⟨as, groups, has, hgroups, hall⟩ :=
        hout (hclean rfl (Bool.eq_false_iff.mpr hstop))
      refine ⟨rest, hrest, ?_⟩
      rw [WaitOp.note, r.leave_eq hq .sent (by
        rw [hq.packets_eq, hrest.packets_eq, List.length_append]
        omega)]
      have hnew : d.info.schd.user.out.drop s.schd.user.out.length = as := by
        rw [has]
        exact List.drop_left
      rw [hnew, hgroups]
      exact h.send hall

end Account

/-! ### Runs -/

/-- **The wait queue.** In every run whose calls of `MPD_DoSendWaitQueueData` are clean: what was
put into the queue left it in order or waits in order; what left it sent was taken by the subflows in
order, each packet once, whole or in its two fragments; and a call that may schedule and finds a flow
takes the oldest packet. -/
theorem waitQueue_run (x : SchdInfo) (hx : ∀ f, x.user.txWindow f = {}) (ops : List WaitOp)
    (s : WaitInfo) (r : Fates)
    (hrun : Guarded (observe WaitOp.step WaitOp.note) (fun _ p op => WaitOp.Clean op p.1)
      ({ schd := x }, {}) ops (s, r)) :
    r.put = r.left.map Prod.fst ++ s.packets ∧
      (∃ groups, r.sent = groups.flatten ∧ List.Forall₂ WaitInfo.Carried r.drained groups) ∧
      ∀ m rest, s.packets = m :: rest → s.schd.isMpStopSched = false → s.schd.chooseStream.1 ≠ 255 →
        ∃ s' gone, s.doSendWaitQueueData = some s' ∧ rest = gone ++ s'.packets := by
  have hbooks : ∃ ps, s.Queued ps ∧ r.Right ps := by
    refine Guarded.inv (I := fun _ p => ∃ ps, p.1.Queued ps ∧ p.2.Right ps) ?_ ?_ hrun
    · rintro past op p p' ⟨ps, hq, h⟩ hclean hs
      obtain ⟨hstep, hnote⟩ := observe_eq_some.mp hs
      rw [hnote]
      exact h.step hq hclean hstep
    · have hzero : 0 < 512 := by decide
      exact ⟨[], ⟨hzero, hzero, RingQueue.contents_self ..,
        fun f => ⟨0, 0, by rw [hx f]; exact spans_clear⟩⟩, rfl, [], rfl, .nil⟩
  obtain ⟨ps, hq, h⟩ := hbooks
  rw [hq.packets_eq]
  refine ⟨h.put, h.sent, ?_⟩
  rintro m rest rfl hstop hflow
  obtain ⟨s', gone, rest', hs', heq, hq'⟩ := hq.takes hstop hflow
  exact ⟨s', gone, hs', by rw [hq'.packets_eq]; exact heq⟩

/-- A session with traffic control on, whose subflow 0 has used up its quota in this period. -/
def exhausted : SchdInfo where
  user := { schdPara := fun f => { isValid := decide (f = 0) } }
  traffic := fun _ => { isTrafficCtl := true, isPktTxStop := true }
  isMpStopSched := true
  g := { isTrafficCtl := true }

/-- Two packets are put into the queue, the next period begins, and the queue is sent. -/
def putTwo (first second : Msg) : List WaitOp :=
  [.transNewData first, .transNewData second, .trafficControl, .doSendWaitQueueData]

/-- A packet of 20 bytes. -/
def shortPacket : Msg := ⟨8, .replicate 20 2⟩

/-- Two short packets go out. -/
theorem waitQueue_run_short : ∃ (s : WaitInfo) (r : Fates),
    r.put = [shortPacket, shortPacket] ∧ s.packets = [] ∧
      r.put = r.left.map Prod.fst ++ s.packets ∧
      ∃ groups, r.sent = groups.flatten ∧ List.Forall₂ WaitInfo.Carried r.drained groups := by
  have heval : ((run (observe WaitOp.step WaitOp.note) (putTwo shortPacket shortPacket)
      ({ schd := exhausted }, {})).map fun p => (p.2.put, p.1.packets)) =
      some ([shortPacket, shortPacket], []) := by
    decide +kernel
  obtain ⟨⟨s, r⟩, hrun, hproj⟩ := Option.map_eq_some_iff.mp heval
  obtain ⟨hput, hempty⟩ := Prod.mk.inj hproj
  obtain ⟨hall, hsent, -⟩ := waitQueue_run exhausted (fun _ => rfl) _ s r
    ((show Meets (observe WaitOp.step WaitOp.note) (fun _ p op => WaitOp.Clean op p.1) []
      (putTwo shortPacket shortPacket) _ by decide +kernel).guarded hrun)
  exact ⟨s, r, hput, hempty, hall, hsent⟩

/-- A long packet and a short one: the fragments of the first go out twice, the second does not. A
short packet that the queue of the subflow refuses does not go out either, and is gone. -/
theorem waitQueue_mixed :
    (∃ (s : WaitInfo) (r : Fates), run (observe WaitOp.step WaitOp.note)
        (putTwo longPacket shortPacket) ({ schd := exhausted }, {}) = some (s, r) ∧
      r.drained = [longPacket, shortPacket] ∧
      r.sent.map (fun a => a.2.2) = [1012, 480, 1012, 480] ∧
      ¬ ∃ groups, r.sent = groups.flatten ∧ List.Forall₂ WaitInfo.Carried r.drained groups) ∧
    ∃ (s : WaitInfo) (r : Fates), run (observe WaitOp.step WaitOp.note)
        (putTwo shortPacket shortPacket)
        ({ schd := { exhausted with user := { exhausted.user with sends := fun _ => false } } }, {}) =
          some (s, r) ∧
      r.drained = [shortPacket] ∧ r.sent = [] ∧
      ¬ ∃ groups, r.sent = groups.flatten ∧ List.Forall₂ WaitInfo.Carried r.drained groups := by
  constructor
  · have heval : ((run (observe WaitOp.step WaitOp.note) (putTwo longPacket shortPacket)
        ({ schd := exhausted }, {})).map fun p => (p.2.drained, p.2.sent.map fun a => a.2.2)) =
        some ([longPacket, shortPacket], [1012, 480, 1012, 480]) := by
      decide +kernel
    obtain ⟨⟨s, r⟩, hrun, hproj⟩ := Option.map_eq_some_iff.mp heval
    obtain ⟨hdrained, hsent⟩ := Prod.mk.inj hproj
    refine ⟨s, r, hrun, hdrained, hsent, ?_⟩
    rintro ⟨groups, hflat, hall⟩
    rw [hdrained] at hall
    cases hall with
    | cons hlong hrest =>
      cases hrest with
      | cons hshort hnil =>
        cases hnil
        have hl := hlong.lengths
        have hs := hshort.lengths
        rw [hflat, List.flatten_cons, List.flatten_singleton, List.map_append] at hsent
        rw [length_longPacket] at hl
        rw [show shortPacket.data.length = 20 from rfl] at hs
        rcases hl with hl | hl <;> rcases hs with hs | hs <;> rw [hl, hs] at hsent <;>
          exact absurd hsent (by decide)
  · have heval : ((run (observe WaitOp.step WaitOp.note) (putTwo shortPacket shortPacket)
        ({ schd := { exhausted with user := { exhausted.user with sends := fun _ => false } } },
          {})).map fun p => (p.2.drained, p.2.sent)) = some ([shortPacket], []) := by
      decide +kernel
    obtain ⟨⟨s, r⟩, hrun, hproj⟩ := Option.map_eq_some_iff.mp heval
    obtain ⟨hdrained, hsent⟩ := Prod.mk.inj hproj
    refine ⟨s, r, hrun, hdrained, hsent, ?_⟩
    rintro ⟨groups, hflat, hall⟩
    rw [hdrained] at hall
    cases hall with
    | cons hshort hnil =>
      cases hnil
      have hs := hshort.lengths
      rw [hsent, List.flatten_singleton] at hflat
      rw [← hflat] at hs
      rcases hs with hs | hs <;> exact absurd hs (by simp)

end Mpd

end AndroidVendor
