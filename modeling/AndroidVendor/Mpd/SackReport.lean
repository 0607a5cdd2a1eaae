import AndroidVendor.Lib.Runs
import AndroidVendor.Mpd.SackExact
import AndroidVendor.Mpd.SubWinRun
import Mathlib.Data.List.GetD

/-!
# What a SACK reports

`MPD_SubWinCreateSack` writes the maximal runs of received nodes, eleven to a message. A message
whose buffer `MPD_MsgMemCreat` refuses is left out, and the next one goes on as if it had been sent.

## Main definitions

* `Reported` — one message, as the peer reads it
* `ReportsRuns` — the messages of one call

## Main results

* `subWinSendSackPacketMsg_reported` — what is written is what is read back
* `subWinCreateSack_exact` — one call, on a window at rest
-/

namespace AndroidVendor

namespace Mpd

open Runs RxSubWin UserInfo

/-! ### Reading a message back -/

/-- The datagram `m` of `datalen` bytes acknowledges `ack` on subflow `index` and reports the blocks
`sack`; `MPD_parserSACK` finds `firstSack` in it, if there are any. -/
structure Says (m : Msg) (datalen index ack firstSack : ℕ) (sack : List SackV) : Prop where
  length_eq : m.data.length = datalen
  header_length : m.header.length * 4 = datalen
  short : datalen ≤ 60
  stream_eq : m.header.stream = index
  ack_eq : m.header.ack = ack
  blocks_eq : m.sackBlocks = sack
  first_eq : sack ≠ [] → m.byte 14 = firstSack

section Reading

variable {addr n k : ℕ} {pre post : List UInt8} {sack : List SackV}

theorem byte_append (k : ℕ) :
    (⟨addr, pre ++ post⟩ : Msg).byte (pre.length + k) = (⟨addr, post⟩ : Msg).byte k := by
  rw [Msg.byte, Msg.byte, List.getD_append_right _ _ _ _ (Nat.le_add_right ..),
    Nat.add_sub_cancel_left]

theorem word_append (k : ℕ) :
    (⟨addr, pre ++ post⟩ : Msg).word (pre.length + k) = (⟨addr, post⟩ : Msg).word k := by
  rw [Msg.word, Msg.word, byte_append, Nat.add_assoc, byte_append]

theorem word_bytes16 (hn : n < 65536) : (⟨addr, bytes16 n ++ post⟩ : Msg).word 0 = n := by
  simp only [Msg.word, Msg.byte, bytes16, List.cons_append, List.nil_append, List.getD_cons_zero,
    List.getD_cons_succ, UInt8.toNat_ofNat']
  omega

variable (addr) in
/-- The blocks are read back as they were written. -/
theorem read_blocks (hedges : ∀ e ∈ sack, e.1 < 65536 ∧ e.2 < 65536) :
    (List.range sack.length).map (fun i =>
      ((⟨addr, sack.flatMap fun e => bytes16 e.1 ++ bytes16 e.2⟩ : Msg).word (4 * i),
        (⟨addr, sack.flatMap fun e => bytes16 e.1 ++ bytes16 e.2⟩ : Msg).word (2 + 4 * i))) =
      sack := by
  induction sack with
  | nil => rfl
  | cons e sack ih =>
    obtain ⟨hleft, hright⟩ := hedges e List.mem_cons_self
    rw [List.length_cons, List.range_succ_eq_map, List.map_cons, List.map_map, List.flatMap_cons]
    have htail : ∀ k, (⟨addr, (bytes16 e.1 ++ bytes16 e.2) ++
        sack.flatMap fun e => bytes16 e.1 ++ bytes16 e.2⟩ : Msg).word (4 + k) =
        (⟨addr, sack.flatMap fun e => bytes16 e.1 ++ bytes16 e.2⟩ : Msg).word k :=
      fun k => word_append k
    refine congrArg₂ List.cons (Prod.ext ?_ ?_) ?_
    · dsimp only
      rw [List.append_assoc]
      exact word_bytes16 hleft
    · dsimp only
      rw [List.append_assoc, show 2 + 4 * 0 = (bytes16 e.1).length + 0 from rfl, word_append]
      exact word_bytes16 hright
    · refine Eq.trans (List.map_congr_left fun i _ => ?_) (ih fun e' he' =>
        hedges e' (List.mem_cons_of_mem _ he'))
      dsimp only [Function.comp]
      rw [show 4 * i.succ = 4 + 4 * i by omega, show 2 + (4 + 4 * i) = 4 + (2 + 4 * i) by omega,
        htail, htail]

theorem length_blocks :
    (sack.flatMap fun e => bytes16 e.1 ++ bytes16 e.2).length = 4 * sack.length := by
  induction sack with
  | nil => rfl
  | cons e sack ih =>
    rw [List.flatMap_cons, List.length_append, ih, List.length_cons, List.length_append,
      length_bytes16, length_bytes16]
    omega

theorem numSack_four {num : ℕ} (h : num ≤ 11) : numSack (4 + 4 * num) = num := by
  rw [numSack]
  omega

end Reading

/-- The length `MPD_SubWinSendSackPacketMsg` computes for `num` blocks. -/
def sackMsgLen (num : ℕ) : ℕ := (12 + (if num ≠ 0 then 8 + (num - 1) * 4 else 0) + 3) / 4 * 4

theorem sackMsgLen_eq (num : ℕ) : sackMsgLen num = if num = 0 then 12 else 16 + 4 * num := by
  rw [sackMsgLen]
  by_cases h : num = 0
  · rw [if_pos h, if_neg (not_not_intro h)]
  · rw [if_neg h, if_pos h]
    omega

/-- Its header. -/
def sackHeader (index msgLen ack : ℕ) : MPDHeader where
  flag := 0x55
  fragment := 0
  stream := index
  length := msgLen / 4
  dsn := 0
  ssn := 0
  ack := ack

/-- The message it composes. -/
def sackMsg (uid addr index ack firstSack : ℕ) (sack : List SackV) : Msg where
  addr := addr
  data := (sackHeader index (sackMsgLen sack.length) ack).encode uid ++
    if sack.length ≠ 0 then sackBytes sack firstSack else []

theorem sackMsgLen_le {num : ℕ} (h : num ≤ 11) : sackMsgLen num ≤ 60 := by
  rw [sackMsgLen_eq]
  split <;> omega

theorem sackMsg_header {uid addr index ack firstSack : ℕ} {sack : List SackV}
    (hnum : sack.length ≤ 11) (hindex : index < 4) (hack : ack < 65536) :
    (sackMsg uid addr index ack firstSack sack).header =
      sackHeader index (sackMsgLen sack.length) ack := by
  have hshort := sackMsgLen_le hnum
  rw [sackMsg, header_encode]
  refine MPDHeader.mk.injEq .. |>.mpr ⟨rfl, rfl, Nat.mod_eq_of_lt hindex, ?_, rfl, rfl,
    Nat.mod_eq_of_lt hack⟩
  exact Nat.mod_eq_of_lt (show sackMsgLen sack.length / 4 < 16 by omega)

/-- The SACK behind the header, byte by byte. -/
theorem sackMsg_sack (uid addr index ack : ℕ) {firstSack : ℕ} {sack : List SackV} (hne : sack ≠ [])
    (hnum : sack.length ≤ 11) (hedges : ∀ e ∈ sack, e.1 < 65536 ∧ e.2 < 65536)
    (hfirst : firstSack < 256) :
    (sackMsg uid addr index ack firstSack sack).data.length = 16 + 4 * sack.length ∧
      (sackMsg uid addr index ack firstSack sack).sackBlocks = sack ∧
      (sackMsg uid addr index ack firstSack sack).byte 14 = firstSack := by
  have hpos : sack.length ≠ 0 := fun h => hne (List.length_eq_zero_iff.mp h)
  rw [sackMsg, if_pos hpos, sackBytes, ← List.append_assoc]
  set pre := (sackHeader index (sackMsgLen sack.length) ack).encode uid ++
    [1, UInt8.ofNat (4 + 4 * sack.length), UInt8.ofNat firstSack, 0] with hpre
  have hsixteen : pre.length = 16 := rfl
  have htag : ∀ post, (⟨addr, pre ++ post⟩ : Msg).byte 12 = 1 := fun _ => rfl
  have hnumByte : ∀ post, (⟨addr, pre ++ post⟩ : Msg).byte 13 = 4 + 4 * sack.length := by
    intro post
    refine Eq.trans (b := (UInt8.ofNat (4 + 4 * sack.length)).toNat) rfl ?_
    rw [UInt8.toNat_ofNat']
    omega
  have hfirstByte : ∀ post, (⟨addr, pre ++ post⟩ : Msg).byte 14 = firstSack := by
    intro post
    refine Eq.trans (b := (UInt8.ofNat firstSack).toNat) rfl ?_
    rw [UInt8.toNat_ofNat']
    omega
  refine ⟨?_, ?_, hfirstByte _⟩
  · rw [List.length_append, length_blocks, hsixteen]
  · rw [Msg.sackBlocks, htag, hnumByte, numSack_four hnum, if_neg (by omega)]
    refine Eq.trans (List.map_congr_left fun i _ => ?_) (read_blocks addr hedges)
    rw [show 16 + 4 * i = pre.length + 4 * i by rw [hsixteen],
      show 18 + 4 * i = pre.length + (2 + 4 * i) by rw [hsixteen]; omega, word_append, word_append]

/-- A message of `MPD_SubWinSendSackPacketMsg`, read as `MPD_DoParseMPData` and `MPD_parserSACK`
do. -/
theorem sackMsg_says {uid addr index ack firstSack : ℕ} {sack : List SackV} (hnum : sack.length ≤ 11)
    (hedges : ∀ e ∈ sack, e.1 < 65536 ∧ e.2 < 65536) (hindex : index < 4) (hack : ack < 65536)
    (hfirst : firstSack < 256) :
    Says (sackMsg uid addr index ack firstSack sack) (sackMsgLen sack.length) index ack firstSack
      sack := by
  have hheader : (sackMsg uid addr index ack firstSack sack).header = _ :=
    sackMsg_header hnum hindex hack
  have hshort := sackMsgLen_le hnum
  have hlen := sackMsgLen_eq sack.length
  have hfour : sackMsgLen sack.length / 4 * 4 = sackMsgLen sack.length := by
    have : sackMsgLen sack.length % 4 = 0 := Nat.mul_mod_left ..
    omega
  have hbytes : (sackMsg uid addr index ack firstSack sack).data.length = sackMsgLen sack.length ∧
      (sackMsg uid addr index ack firstSack sack).sackBlocks = sack ∧
      (sack ≠ [] → (sackMsg uid addr index ack firstSack sack).byte 14 = firstSack) := by
    by_cases hne : sack = []
    · subst hne
      refine ⟨rfl, ?_, fun h => absurd rfl h⟩
      rw [Msg.sackBlocks, if_pos]
      exact .inl (show ¬ (0 : ℕ) = 1 by decide)
    · obtain ⟨hbytes, hblocks, hbyte⟩ := sackMsg_sack uid addr index ack hne hnum hedges
        hfirst
      rw [if_neg fun h => hne (List.length_eq_zero_iff.mp h)] at hlen
      exact ⟨hbytes.trans hlen.symm, hblocks, fun _ => hbyte⟩
  refine ⟨hbytes.1, ?_, hshort, ?_, ?_, hbytes.2.1, hbytes.2.2⟩
  · rw [hheader]
    exact hfour
  · rw [hheader]
    rfl
  · rw [hheader]
    rfl

/-! ### The messages of one call -/

/-- The blocks that report runs of positions. -/
def blocksOf (runs : List (ℕ × ℕ)) : List SackV := runs.map fun r => (r.1 % 65536, r.2 % 65536)

/-- The SSN following the last run of a list, or that of position `b` if it is empty. -/
def ackBehind (b : ℕ) (runs : List (ℕ × ℕ)) : ℕ := (runs.getLast?.elim b fun r => r.2 + 1) % 65536

/-- One message: nothing without a buffer, else one datagram handed to the subflow. -/
def Reported (index ack firstSack : ℕ) (runs : List (ℕ × ℕ)) (as : List Action) :
    Option ℕ → Prop
  | none => as = []
  | some addr => ∃ m datalen ok, as = [.send (getDeviceId index) m datalen true ok] ∧
      m.addr = addr ∧ Says m datalen index ack firstSack (blocksOf runs)

/-- `as` are the messages for `chunks`, from the buffers that `allocs` gives: the first acknowledges
position `b` and carries `firstSack = 1`, each later one what follows the runs before it. -/
structure ReportsRuns (index b : ℕ) (chunks : List (List (ℕ × ℕ))) (allocs : ℕ → Option ℕ)
    (as : List Action) : Prop where
  parts : ∃ parts : List (List Action), as = parts.flatten ∧ parts.length = chunks.length ∧
    ∀ k runs part, chunks[k]? = some runs → parts[k]? = some part →
      Reported index (ackBehind b (chunks.take k).flatten) (if k = 0 then 1 else 0) runs part
        (allocs k)

/-- The datagrams among `as` have the flag and the length of what they report. -/
def WellMade (as : List Action) : Prop :=
  ∀ m ∈ queued as, m.header.flag = 0x55 ∧ m.data.length = sackMsgLen m.sackBlocks.length

/-- The runs, eleven to a message; without runs there is one message. -/
structure Elevens (runs : List (ℕ × ℕ)) (chunks : List (List (ℕ × ℕ))) : Prop where
  flatten_eq : chunks.flatten = runs
  full : ∀ c ∈ chunks.dropLast, c.length = 11
  le : ∀ c ∈ chunks, c.length ≤ 11
  length_eq : chunks.length = max 1 ((runs.length + 10) / 11)

section Messages

variable {u : UserInfo} {index b ack firstSack : ℕ} {runs cur : List (ℕ × ℕ)}
  {full chunks : List (List (ℕ × ℕ))} {allocs : ℕ → Option ℕ} {as part : List Action}

theorem length_blocksOf : (blocksOf runs).length = runs.length := List.length_map _

theorem blocksOf_lt : ∀ e ∈ blocksOf runs, e.1 < 65536 ∧ e.2 < 65536 := by
  intro e he
  obtain ⟨r, -, rfl⟩ := List.mem_map.mp he
  exact ⟨Nat.mod_lt _ (by decide), Nat.mod_lt _ (by decide)⟩

theorem ackBehind_lt : ackBehind b runs < 65536 := Nat.mod_lt _ (by decide)

theorem ackBehind_append (r : ℕ × ℕ) : ackBehind b (runs ++ [r]) = (r.2 + 1) % 65536 := by
  rw [ackBehind, List.getLast?_append, List.getLast?_singleton]
  rfl

theorem wellMade_nil : WellMade [] := fun _ h => absurd h List.not_mem_nil

theorem WellMade.append (h : WellMade as) (hpart : WellMade part) : WellMade (as ++ part) := by
  intro m hm
  rw [queued_append] at hm
  exact (List.mem_append.mp hm).elim (h m) (hpart m)

/-- `MPD_SubWinSendSackPacketMsg`: nothing but the transmission, its buffer and its time. -/
theorem subWinSendSackPacketMsg_reported (hnum : runs.length ≤ 11) (hindex : index < 4)
    (hack : ack < 65536) (hfirst : firstSack < 256) :
    ∃ part, (u.subWinSendSackPacketMsg ack (blocksOf runs) index firstSack).out = u.out ++ part ∧
      Reported index ack firstSack runs part (u.allocs 0) ∧ WellMade part ∧
      (u.subWinSendSackPacketMsg ack (blocksOf runs) index firstSack).rxSubWin = u.rxSubWin ∧
      ∀ j, (u.subWinSendSackPacketMsg ack (blocksOf runs) index firstSack).allocs j =
        u.allocs (j + 1) := by
  rw [subWinSendSackPacketMsg]
  cases halloc : u.allocs 0 with
  | none => exact ⟨[], by simp [msgMemCreat, halloc], rfl, wellMade_nil,
      by simp [msgMemCreat, halloc], by simp [msgMemCreat, halloc]⟩
  | some addr =>
    have hnum' : (blocksOf runs).length ≤ 11 := by rwa [length_blocksOf]
    have hword : Says (sackMsg u.uid addr index ack firstSack (blocksOf runs)) _ index ack firstSack
        (blocksOf runs) := sackMsg_says hnum' blocksOf_lt hindex hack hfirst
    refine ⟨[.send (getDeviceId index) (sackMsg u.uid addr index ack firstSack (blocksOf runs))
      (sackMsgLen (blocksOf runs).length) true (u.sends 0)], ?_, ⟨_, _, _, rfl, rfl, hword⟩,
      fun m hm => ?_, ?_, fun j => ?_⟩
    · simp only [msgMemCreat, halloc]
      rfl
    · obtain rfl := List.mem_singleton.mp hm
      exact ⟨congrArg MPDHeader.flag (sackMsg_header hnum' hindex hack),
        by rw [hword.length_eq, hword.blocks_eq]⟩
    all_goals
      simp only [msgMemCreat, halloc]
      rfl

theorem reportsRuns_nil : ReportsRuns index b [] allocs [] :=
  ⟨[], rfl, rfl, fun _ _ _ h => absurd h (by simp)⟩

theorem ReportsRuns.append (h : ReportsRuns index b chunks allocs as)
    (hpart : Reported index (ackBehind b chunks.flatten) (if chunks.length = 0 then 1 else 0) cur part
      (allocs chunks.length)) :
    ReportsRuns index b (chunks ++ [cur]) allocs (as ++ part) := by
  obtain ⟨parts, rfl, hlen, hparts⟩ := h.parts
  refine ⟨parts ++ [part], by rw [List.flatten_append, List.flatten_singleton],
    by rw [List.length_append, List.length_append, hlen]; rfl, fun k runs p hk hp => ?_⟩
  rcases Nat.lt_trichotomy k chunks.length with hlt | rfl | hgt
  · rw [List.getElem?_append_left hlt] at hk
    rw [List.getElem?_append_left (hlen ▸ hlt)] at hp
    rw [List.take_append_of_le_length hlt.le]
    exact hparts k runs p hk hp
  · rw [List.getElem?_concat_length] at hk
    rw [← hlen, List.getElem?_concat_length] at hp
    rw [List.take_left, ← Option.some.inj hk, ← Option.some.inj hp]
    exact hpart
  · rw [List.getElem?_eq_none (by rw [List.length_append, List.length_singleton]; omega)] at hk
    exact nomatch hk

end Messages

/-! ### The encoder -/

namespace UserInfo

section Encoder

variable {u v : UserInfo} {index b i n left : ℕ} {full : List (List (ℕ × ℕ))} {cur : List (ℕ × ℕ)}
  {z : UserInfo × SackState}

/-- `v` came out of `u` by sending the messages for `full`. -/
structure HasSent (u : UserInfo) (index b : ℕ) (full : List (List (ℕ × ℕ))) (v : UserInfo) : Prop where
  win_eq : (v.rxSubWin index).win = (u.rxSubWin index).win
  begin_eq : (v.rxSubWin index).rxBegin = (u.rxSubWin index).rxBegin
  allocs_eq : ∀ j, v.allocs j = u.allocs (full.length + j)
  out_eq : ∃ as, v.out = u.out ++ as ∧ ReportsRuns index b full u.allocs as ∧ WellMade as

theorem HasSent.send (h : HasSent u index b full v) (hcur : cur.length ≤ 11) (hindex : index < 4) :
    HasSent u index b (full ++ [cur]) (v.subWinSendSackPacketMsg (ackBehind b full.flatten)
      (blocksOf cur) index (if full.length = 0 then 1 else 0)) := by
  obtain ⟨part, hout, hpart, hmade, hwin, hallocs⟩ := subWinSendSackPacketMsg_reported (u := v) hcur hindex
    (show ackBehind b full.flatten < 65536 from ackBehind_lt)
    (show (if full.length = 0 then 1 else 0) < 256 by split <;> decide)
  obtain ⟨as, has, hreports, hmade'⟩ := h.out_eq
  refine ⟨by rw [hwin, h.win_eq], by rw [hwin, h.begin_eq], fun j => ?_, as ++ part, ?_, ?_,
    hmade'.append hmade⟩
  · rw [hallocs, List.length_append, List.length_singleton, h.allocs_eq]
    exact congrArg u.allocs (by omega)
  · rw [hout, has, List.append_assoc]
  · rw [h.allocs_eq] at hpart
    exact hreports.append hpart

theorem HasSent.sentAck (h : HasSent u index b full v) (ack : ℕ) :
    HasSent u index b full (v.setRxSubWin index { v.rxSubWin index with sentAck := ack }) := by
  have hsub : (v.setRxSubWin index { v.rxSubWin index with sentAck := ack }).rxSubWin index =
      { v.rxSubWin index with sentAck := ack } := Function.update_self ..
  exact ⟨by rw [hsub]; exact h.win_eq, by rw [hsub]; exact h.begin_eq, h.allocs_eq, h.out_eq⟩

/-- The loop of `MPD_SubWinCreateSack` at position `i`. -/
structure Encoding (u : UserInfo) (index b i : ℕ) (full : List (List (ℕ × ℕ))) (cur : List (ℕ × ℕ))
    (left : ℕ) (z : UserInfo × SackState) : Prop where
  sent : HasSent u index b full z.1
  scanned : Scanned (Marked (u.rxSubWin index)) b i (full.flatten ++ cur) left
  full_eq : ∀ c ∈ full, c.length = 11
  short : cur.length < 11
  sack_eq : z.2.sack = blocksOf cur
  left_eq : Marked (u.rxSubWin index) i → z.2.left = left % 65536
  ack_eq : z.2.ack = ackBehind b full.flatten
  first_eq : z.2.firstSack = if full.length = 0 then 1 else 0

/-- One round. -/
theorem createSackNode_encoding (h : Encoding u index b i full cur left z)
    (hspans : Spans (u.rxSubWin index) b n) (hb : b ≤ i) (hn : i < n) (hindex : index < 4) :
    ∃ full' cur' left', Encoding u index b (i + 1) full' cur' left'
      (createSackNode index (i % 1024) z) := by
  have hnode : ∀ x, ((z.1.rxSubWin index).win (x % 1024)) = (u.rxSubWin index).win (x % 1024) :=
    fun x => congrFun h.sent.win_eq _
  have hmark : ∀ x, ((z.1.rxSubWin index).win (x % 1024)).status = .received ↔
      Marked (u.rxSubWin index) x := fun x => by rw [hnode]; rfl
  have hssn : ∀ x, b ≤ x → x ≤ n → ((z.1.rxSubWin index).win (x % 1024)).ssn = x % 65536 :=
    fun x h1 h2 => by rw [hnode]; exact hspans.num x h1 h2
  have hplain : ∀ x, b ≤ x → x ≤ n → ((z.1.rxSubWin index).win (x % 1024)).status ≠
      .receiveComplete := fun x h1 h2 => by rw [hnode]; exact hspans.plain x h1 h2
  have hiff : ((z.1.rxSubWin index).win (i % 1024)).status =
      ((z.1.rxSubWin index).win ((i + 1) % 1024)).status ↔
      (Marked (u.rxSubWin index) i ↔ Marked (u.rxSubWin index) (i + 1)) := by
    rw [← hmark, ← hmark]
    have h1 := hplain i hb hn.le
    have h2 := hplain (i + 1) (by omega) hn
    revert h1 h2
    cases ((z.1.rxSubWin index).win (i % 1024)).status <;>
      cases ((z.1.rxSubWin index).win ((i + 1) % 1024)).status <;> simp
  rw [createSackNode]
  simp only [subWinPlus_mod]
  split
  · next hsame =>
    have hsame := hiff.mp hsame
    exact ⟨full, cur, left, h.sent, h.scanned.same hsame, h.full_eq, h.short, h.sack_eq,
      fun hm => h.left_eq (hsame.mpr hm), h.ack_eq, h.first_eq⟩
  next hdiff =>
  have hdiff := mt hiff.mpr hdiff
  split
  · next hrise =>
    have hnext := (hmark (i + 1)).mp hrise
    have hi : ¬ Marked (u.rxSubWin index) i := fun hm => hdiff (iff_of_true hm hnext)
    exact ⟨full, cur, i + 1, h.sent, h.scanned.rise hb hi hnext, h.full_eq, h.short, h.sack_eq,
      fun _ => hssn (i + 1) (by omega) hn, h.ack_eq, h.first_eq⟩
  · next hfall =>
    have hnext : ¬ Marked (u.rxSubWin index) (i + 1) := mt (hmark (i + 1)).mpr hfall
    have hi : Marked (u.rxSubWin index) i := by
      by_contra hm
      exact hdiff (iff_of_false hm hnext)
    have hscanned := h.scanned.fall hi hnext
    have hblocks : z.2.sack ++ [(z.2.left, ((z.1.rxSubWin index).win (i % 1024)).ssn)] =
        blocksOf (cur ++ [(left, i)]) := by
      rw [h.sack_eq, h.left_eq hi, hssn i hb hn.le, blocksOf, blocksOf, List.map_append]
      rfl
    rw [hblocks, length_blocksOf, List.length_append, List.length_singleton]
    rw [List.append_assoc] at hscanned
    split
    · next heleven =>
      -- the eleventh block: the message goes out
      have hlen : (cur ++ [(left, i)]).length = 11 := by
        rw [List.length_append, List.length_singleton]
        have := h.short
        omega
      have hsent := h.sent.send hlen.le hindex
      rw [← h.ack_eq, ← h.first_eq] at hsent
      have hack : ackBehind b (full ++ [cur ++ [(left, i)]]).flatten = (i + 1) % 65536 := by
        rw [List.flatten_append, List.flatten_singleton, ← List.append_assoc, ackBehind_append]
      refine ⟨full ++ [cur ++ [(left, i)]], [], left, hsent.sentAck _, ?_, ?_, by decide, rfl,
        fun hm => absurd hm hnext, ?_, ?_⟩
      · rw [List.flatten_append, List.flatten_singleton, List.append_nil]
        exact hscanned
      · intro c hc
        rcases List.mem_append.mp hc with hc | hc
        · exact h.full_eq c hc
        · rw [List.mem_singleton.mp hc, hlen]
      · rw [hack, congrFun hsent.win_eq, hspans.num (i + 1) (by omega) hn]
      · rw [List.length_append, List.length_singleton, if_neg (Nat.succ_ne_zero _)]
    · next hshort =>
      refine ⟨full, cur ++ [(left, i)], left, h.sent, hscanned, h.full_eq, ?_, rfl,
        fun hm => absurd hm hnext, h.ack_eq, h.first_eq⟩
      rw [List.length_append, List.length_singleton]
      omega

/-- The loop. -/
theorem createSackFrom_encoding {cnt : ℕ} (h : Encoding u index b i full cur left z)
    (hspans : Spans (u.rxSubWin index) b n) (hb : b ≤ i) (hn : i + cnt = n) (hindex : index < 4) :
    ∃ full' cur' left', Encoding u index b n full' cur' left'
      (createSackFrom index cnt (i % 1024) z) := by
  induction cnt generalizing i full cur left z with
  | zero =>
    obtain rfl : i = n := hn
    exact ⟨full, cur, left, h⟩
  | succ cnt ih =>
    obtain ⟨full', cur', left', hround⟩ := createSackNode_encoding h hspans hb (by omega) hindex
    rw [createSackFrom, subWinPlus_mod]
    exact ih hround (by omega) (by omega)

theorem encoding_start (hb : ¬ Marked (u.rxSubWin index) b)
    (hack : ((u.rxSubWin index).win (u.rxSubWin index).rxBegin).ssn = b % 65536) :
    Encoding u index b b [] [] 0
      (u, { ack := ((u.rxSubWin index).win (u.rxSubWin index).rxBegin).ssn }) where
  sent := ⟨rfl, rfl, fun j => congrArg u.allocs (by simp), [], (List.append_nil _).symm,
    reportsRuns_nil, wellMade_nil⟩
  scanned := Scanned.start hb
  full_eq _ hc := absurd hc List.not_mem_nil
  short := by decide
  sack_eq := rfl
  left_eq hm := absurd hm hb
  ack_eq := hack
  first_eq := rfl

end Encoder

end UserInfo

/-! ### One call -/

section Call

variable {u : UserInfo} {index b n : ℕ} {full : List (List (ℕ × ℕ))} {cur : List (ℕ × ℕ)}

theorem length_flatten_full (h : ∀ c ∈ full, c.length = 11) :
    full.flatten.length = 11 * full.length := by
  induction full with
  | nil => rfl
  | cons c full ih =>
    rw [List.flatten_cons, List.length_append, h c List.mem_cons_self,
      ih fun d hd => h d (List.mem_cons_of_mem _ hd), List.length_cons]
    omega

/-- The blocks that are left over make one more message, and so does nothing at all. -/
theorem elevens_concat (hfull : ∀ c ∈ full, c.length = 11) (hcur : cur.length < 11)
    (hlast : cur ≠ [] ∨ full = []) : Elevens (full.flatten ++ cur) (full ++ [cur]) where
  flatten_eq := by rw [List.flatten_append, List.flatten_singleton]
  full c hc := hfull c (by rwa [List.dropLast_concat] at hc)
  le c hc := by
    rcases List.mem_append.mp hc with hc | hc
    · exact (hfull c hc).le
    · rw [List.mem_singleton.mp hc]
      exact hcur.le
  length_eq := by
    have hlen := length_flatten_full hfull
    rw [List.length_append, List.length_append, hlen, List.length_singleton]
    rcases hlast with hne | rfl
    · have hpos := List.length_pos_iff.mpr hne
      omega
    · rw [List.length_nil]
      omega

theorem elevens_full (hfull : ∀ c ∈ full, c.length = 11) (hne : full ≠ []) :
    Elevens full.flatten full where
  flatten_eq := rfl
  full c hc := hfull c (List.dropLast_subset _ hc)
  le c hc := (hfull c hc).le
  length_eq := by
    have hlen := length_flatten_full hfull
    have hpos := List.length_pos_iff.mpr hne
    rw [hlen]
    omega

theorem createSackMsgs_reports (hw : Rests (u.rxSubWin index) b n) (hindex : index < 4) :
    ∃ runs chunks as, Lists (Marked (u.rxSubWin index)) b n runs ∧ Elevens runs chunks ∧
      ReportsRuns index b chunks u.allocs as ∧ WellMade as ∧
      (u.createSackMsgs index).out = u.out ++ as := by
  have hbegin : ((u.rxSubWin index).win (u.rxSubWin index).rxBegin).ssn = b % 65536 := hw.begin_ssn
  have hcnt : SerialRing.dist 1024 (u.rxSubWin index).rxBegin (u.rxSubWin index).rxNext = n - b := by
    rw [hw.begin_eq, hw.next_eq]
    exact SerialRing.dist_of_le hw.le hw.size
  obtain ⟨full, cur, left, hloop⟩ := @createSackFrom_encoding u index b b n 0 [] [] _ (n - b)
    (encoding_start hw.begin_un hbegin) hw.toSpans le_rfl (by have := hw.le; omega) hindex
  rw [createSackMsgs]
  dsimp only
  rw [hcnt, hw.begin_eq]
  rw [hw.begin_eq] at hloop
  set z := createSackFrom index (n - b) (b % 1024)
    (u, { ack := ((u.rxSubWin index).win (b % 1024)).ssn })
  have hlists := hloop.scanned.lists hw.next_un
  have hmore : (0 < z.2.sack.length ∨ z.2.firstSack ≠ 0) ↔ (cur ≠ [] ∨ full = []) := by
    rw [hloop.sack_eq, length_blocksOf, List.length_pos_iff, hloop.first_eq]
    by_cases hf : full = [] <;> simp [hf]
  by_cases hlast : cur ≠ [] ∨ full = []
  · obtain ⟨as, hout, hreports, hmade⟩ := (hloop.sent.send hloop.short.le hindex).out_eq
    rw [← hloop.ack_eq, ← hloop.first_eq, ← hloop.sack_eq] at hout
    rw [if_pos (hmore.mpr hlast)]
    exact ⟨_, _, as, hlists, elevens_concat hloop.full_eq hloop.short hlast, hreports, hmade, hout⟩
  · obtain ⟨hcur, hfull⟩ := not_or.mp hlast
    obtain rfl := not_not.mp hcur
    obtain ⟨as, hout, hreports, hmade⟩ := hloop.sent.out_eq
    rw [if_neg (mt hmore.mp hlast)]
    rw [List.append_nil] at hlists
    exact ⟨_, _, as, hlists, elevens_full hloop.full_eq hfull, hreports, hmade, hout⟩

/-- `MPD_SubWinCreateSack` has nothing new to say, and said it a moment ago or often enough. -/
def SackReturnsEarly (u : UserInfo) (index : ℕ) : Prop :=
  u.sackQuiet index ∧
    (u.time < u32 ((u.txWindow index).lastSendPktTime + 100) ∨
      u.time < u32 ((u.txWindow index).lastSendAckTime + 100) ∨
      u32 (u.activeFlowNum * 2) < u32 (u.totalToAckNum + 1))

theorem subWinCreateSack_reports (hw : Rests (u.rxSubWin index) b n) (hindex : index < 3)
    (hloud : ¬ SackReturnsEarly u index) :
    ∃ runs chunks as, Lists (Marked (u.rxSubWin index)) b n runs ∧ Elevens runs chunks ∧
      ReportsRuns index b chunks u.allocs as ∧ WellMade as ∧
      (u.subWinCreateSack index).out = u.out ++ as := by
  have hmsgs : ∃ num, u.subWinCreateSack index =
      ({ u with totalToAckNum := num } : UserInfo).createSackMsgs index := by
    rw [subWinCreateSack]
    dsimp only
    by_cases hquiet : u.sackQuiet index
    · have hnone := fun h => hloud ⟨hquiet, h⟩
      obtain ⟨h1, h2, h3⟩ := (not_or.trans (and_congr_right' not_or)).mp hnone
      exact ⟨_, by rw [if_pos hquiet, if_neg h1, if_neg h2, if_neg h3]⟩
    · exact ⟨0, if_neg hquiet⟩
  obtain ⟨num, hnum⟩ := hmsgs
  rw [hnum]
  exact createSackMsgs_reports (u := { u with totalToAckNum := num }) hw (by omega)

/-- **One call of `MPD_SubWinCreateSack`.** On a window at rest, unless it returns early, it writes
one message for every eleven maximal runs of received SSNs in `[RxBegin, RxNext)`, in order, and one
if there are none; those for which there was a buffer are sent. -/
theorem subWinCreateSack_exact (hw : Rests (u.rxSubWin index) b n) (hindex : index < 3)
    (hloud : ¬ SackReturnsEarly u index) :
    ∃ runs chunks as, Lists (Marked (u.rxSubWin index)) b n runs ∧ Elevens runs chunks ∧
      ReportsRuns index b chunks u.allocs as ∧ (u.subWinCreateSack index).out = u.out ++ as := by
  obtain ⟨runs, chunks, as, hlists, helevens, hreports, -, hout⟩ :=
    subWinCreateSack_reports hw hindex hloud
  exact ⟨runs, chunks, as, hlists, helevens, hreports, hout⟩

theorem addNode_ten : Rests (({} : RxSubWin).addNode 10) 11 11 ∧
    ¬ (({} : RxSubWin).addNode 10).looksClear :=
  ⟨(addNode_of_looksClear {} (by decide) 10).1, by decide +kernel⟩

theorem rests_addNode_twelve {w : RxSubWin} (h : Rests w 11 11 ∧ ¬ w.looksClear) :
    ∃ b n, Rests (w.addNode 12) b n := by
  obtain ⟨b, n, hrests, -⟩ := addNode_spec h.1 h.2 (show 11 ≤ 12 by decide) (by omega)
  exact ⟨b, n, hrests⟩

/-- SSN 10 has come first, then 12: 11 is missing. -/
theorem exists_missing : ∃ w b n, Rests w b n ∧ b % 65536 = 11 ∧ w.rxBegin ≠ w.rxNext ∧
    w.HasReceived 12 ∧
    (subWinCreateSack { rxSubWin := fun _ => w, allocs := fun _ => none } 0).out = [] := by
  obtain ⟨b, n, hrests⟩ := rests_addNode_twelve addNode_ten
  refine ⟨_, b, n, hrests, hrests.begin_ssn.symm.trans (by decide +kernel), by decide +kernel, ?_,
    by decide +kernel⟩
  rw [HasReceived, InWindow]
  decide +kernel

theorem subWinCreateSack_exact_one : ∃ w b n runs chunks as, Rests w b n ∧ w.HasReceived 12 ∧
    Lists (Marked w) b n runs ∧ Elevens runs chunks ∧ ReportsRuns 0 b chunks some as ∧
    (subWinCreateSack { rxSubWin := fun _ => w } 0).out = as := by
  obtain ⟨w, b, n, hrests, -, hspan, hreceived, -⟩ := exists_missing
  obtain ⟨runs, chunks, as, hruns, helevens, hreports, hout⟩ :=
    subWinCreateSack_exact (u := { rxSubWin := fun _ => w }) hrests (show 0 < 3 by decide)
      (fun h => hspan h.1.1)
  exact ⟨w, b, n, runs, chunks, as, hrests, hreceived, hruns, helevens, hreports, hout⟩

/-- Without a buffer nothing is sent, whatever there is to report. -/
theorem subWinCreateSack_noBuffer : ∃ u b n, Rests (u.rxSubWin 0) b n ∧ ¬ SackReturnsEarly u 0 ∧
    (u.rxSubWin 0).HasReceived 12 ∧ (u.subWinCreateSack 0).out = u.out := by
  obtain ⟨w, b, n, hrests, -, hspan, hreceived, hout⟩ := exists_missing
  exact ⟨{ rxSubWin := fun _ => w, allocs := fun _ => none }, b, n, hrests,
    fun h => hspan h.1.1, hreceived, hout⟩

end Call

end Mpd

end AndroidVendor
