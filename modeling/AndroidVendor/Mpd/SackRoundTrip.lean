import AndroidVendor.Mpd.AckFrame
import AndroidVendor.Mpd.SackReport

/-!
# A SACK there and back

What `MPD_SubWinCreateSack` writes at one end of a subflow, `MPD_DoParseMPData` reads at the other:
all messages of one call, fed in the order in which they were written to a tx window that covers the
sub window.

Positions are SSNs counted on without wrapping, the same ones at both ends.

## Main results

* `SackTrace.run_runs` — the trace of blocks that report runs in order
* `decoded_next` — one message
* `sack_roundTrip` — all messages of one call
-/

namespace AndroidVendor

namespace Mpd

open Machine Runs TxWin UserInfo

/-! ### The trace of runs -/

section Trace

variable {n x : ℕ} {runs : List (ℕ × ℕ)} {t : SackTrace}

/-- Runs in order, from `p` on and before `n`. -/
structure InRow (p n : ℕ) (runs : List (ℕ × ℕ)) : Prop where
  sorted : runs.Pairwise fun r s => r.2 < s.1
  ge : ∀ r ∈ runs, p ≤ r.1
  le : ∀ r ∈ runs, r.1 ≤ r.2
  lt : ∀ r ∈ runs, r.2 < n

/-- The position following the last run of a list, or `b` if it is empty. -/
def behind (b : ℕ) (runs : List (ℕ × ℕ)) : ℕ := runs.getLast?.elim b fun r => r.2 + 1

theorem behind_cons (b : ℕ) (r : ℕ × ℕ) (runs : List (ℕ × ℕ)) :
    behind b (r :: runs) = behind (r.2 + 1) runs := by
  cases runs with
  | nil => rfl
  | cons s runs => rw [behind, behind, List.getLast?_cons_cons, List.getLast?_cons]; rfl

theorem behind_concat (b : ℕ) (runs : List (ℕ × ℕ)) (r : ℕ × ℕ) :
    behind b (runs ++ [r]) = r.2 + 1 := by
  rw [behind, List.getLast?_concat]
  rfl

theorem InRow.left {p : ℕ} {runs' : List (ℕ × ℕ)} (h : InRow p n (runs ++ runs')) :
    InRow p n runs where
  sorted := (List.pairwise_append.mp h.sorted).1
  ge r hr := h.ge r (List.mem_append_left _ hr)
  le r hr := h.le r (List.mem_append_left _ hr)
  lt r hr := h.lt r (List.mem_append_left _ hr)

/-- What follows a number of runs. -/
theorem InRow.behind {p : ℕ} {done : List (ℕ × ℕ)} (h : InRow p n (done ++ runs)) (hn : p ≤ n) :
    InRow (behind p done) n runs ∧ p ≤ Mpd.behind p done ∧ Mpd.behind p done ≤ n := by
  obtain ⟨-, hsorted, hbetween⟩ := List.pairwise_append.mp h.sorted
  have hright : ∀ r ∈ runs, r.1 ≤ r.2 ∧ r.2 < n := fun r hr =>
    ⟨h.le r (List.mem_append_right _ hr), h.lt r (List.mem_append_right _ hr)⟩
  rcases List.eq_nil_or_concat' done with rfl | ⟨front, last, rfl⟩
  · exact ⟨h, le_rfl, hn⟩
  · have hlast : last ∈ front ++ [last] := List.mem_append_right _ (List.mem_singleton_self last)
    have hge := h.ge last (List.mem_append_left _ hlast)
    have hle := h.le last (List.mem_append_left _ hlast)
    have hlt := h.lt last (List.mem_append_left _ hlast)
    rw [behind_concat]
    exact ⟨⟨hsorted, fun r hr => hbetween last hlast r hr, fun r hr => (hright r hr).1,
      fun r hr => (hright r hr).2⟩, by omega, hlt⟩

/-- A run ahead in the window: the gap before it, and the run. -/
theorem SackTrace.block_run {r : ℕ × ℕ} (hcur : t.cursor ≤ r.1) (hle : r.1 ≤ r.2) (hn : r.2 < n)
    (hsize : n < t.cursor + 1024) :
    t.block n (r.1 % 65536, r.2 % 65536) =
      ⟨r.2 + 1, t.gaps ++ List.range' t.cursor (r.1 - t.cursor),
        t.blocks ++ List.range' r.1 (r.2 + 1 - r.1)⟩ := by
  rw [SackTrace.block]
  dsimp only
  rw [distanceSN_of_le hcur (by omega), distanceSN_of_le hle (by omega), Nat.add_sub_cancel' hcur,
    Nat.add_sub_cancel' hle, if_pos (hle.trans_lt hn), if_pos hn]

/-- Blocks that report runs in order take the cursor behind the last one. The positions passed in
blocks are those of the runs, and none of these was passed in a gap. -/
theorem SackTrace.run_runs (h : InRow t.cursor n runs) (hsize : n < t.cursor + 1024) :
    (t.run n (blocksOf runs)).cursor = behind t.cursor runs ∧
      (∀ x, x ∈ (t.run n (blocksOf runs)).blocks ↔ x ∈ t.blocks ∨ Inside runs x) ∧
      ∀ x ∈ (t.run n (blocksOf runs)).gaps, x ∈ t.gaps ∨ (t.cursor ≤ x ∧ ¬ Inside runs x) := by
  induction runs generalizing t with
  | nil => exact ⟨rfl, fun x => by simp [SackTrace.run, blocksOf], fun x hx => .inl hx⟩
  | cons r runs ih =>
    obtain ⟨hfirst, hsorted⟩ := List.pairwise_cons.mp h.sorted
    have hcur := h.ge r List.mem_cons_self
    have hle := h.le r List.mem_cons_self
    have hlt := h.lt r List.mem_cons_self
    have hblock := SackTrace.block_run hcur hle hlt hsize
    have hrest : InRow (r.2 + 1) n runs :=
      ⟨hsorted, fun s hs => hfirst s hs, fun s hs => h.le s (List.mem_cons_of_mem _ hs),
        fun s hs => h.lt s (List.mem_cons_of_mem _ hs)⟩
    have hrun : t.run n (blocksOf (r :: runs)) =
        (t.block n (r.1 % 65536, r.2 % 65536)).run n (blocksOf runs) := rfl
    rw [hrun, hblock]
    obtain ⟨hcursor, hblocks, hgaps⟩ :=
      ih (t := ⟨r.2 + 1, t.gaps ++ List.range' t.cursor (r.1 - t.cursor),
        t.blocks ++ List.range' r.1 (r.2 + 1 - r.1)⟩) hrest (by dsimp only; omega)
    dsimp only at hcursor hblocks hgaps
    refine ⟨by rw [hcursor, behind_cons], fun x => ?_, fun x hx => ?_⟩
    · rw [hblocks, List.mem_append, List.mem_range'_1, inside_cons, or_assoc]
      have hiff : (r.1 ≤ x ∧ x < r.1 + (r.2 + 1 - r.1)) ↔ r.1 ≤ x ∧ x ≤ r.2 := by omega
      rw [hiff]
    · rcases hgaps x hx with hx | ⟨hge, hnot⟩
      · rcases List.mem_append.mp hx with hx | hx
        · exact .inl hx
        · -- the gap before the first run
          rw [List.mem_range'_1] at hx
          refine .inr ⟨hx.1, ?_⟩
          rintro ⟨s, hs, hsx, -⟩
          rcases List.mem_cons.mp hs with rfl | hs
          · omega
          · have := hfirst s hs
            omega
      · refine .inr ⟨by omega, ?_⟩
        rw [inside_cons, not_or]
        exact ⟨by omega, hnot⟩

end Trace

/-! ### One message -/

section Message

variable {s u v : UserInfo} {f b n p datalen : ℕ} {m : Msg} {done runs : List (ℕ × ℕ)}

theorem Says.isAck {ack first : ℕ} (h : Says m datalen f ack first (blocksOf runs)) : m.IsAck := by
  rw [Msg.IsAck, h.length_eq]
  exact h.header_length

/-- There is a SACK in the datagram if it reports something. -/
theorem Says.hasSack {ack first : ℕ} (h : Says m datalen f ack first (blocksOf runs))
    (hlen : m.data.length = sackMsgLen m.sackBlocks.length) : m.HasSack ↔ runs ≠ [] := by
  have hdatalen := h.length_eq
  have hnode : m.node.mpdHeadLen = datalen := h.header_length
  rw [h.blocks_eq, length_blocksOf, sackMsgLen_eq] at hlen
  have hshort := h.short
  rw [Msg.HasSack, hnode, u32, ← List.length_pos_iff]
  split at hlen <;> omega

theorem parseAck_parts (hack : m.IsAck) :
    ∃ u₁ : UserInfo, u₁.txWindow = u.txWindow ∧ u₁.schdPara = u.schdPara ∧ u.parseAck m =
      ((u₁.processACK m.header.stream m.header.ack m.firstSack).bind fun t =>
        if m.HasSack then t.parserSACK m.header.stream m m.header.ack else some t).map
          fun t => t.emit [.free m] := by
  rw [UserInfo.parseAck]
  by_cases hhas : m.HasSack
  · have hfirst : m.firstSack = m.byte 14 := if_pos ⟨hack, hhas⟩
    rw [hfirst]
    simp only [if_pos hhas]
    exact ⟨(u.emit [.access (.sub m.node.mpdHeadLen 12)]).emit (m.headReads [14]), rfl, rfl, rfl⟩
  · have hfirst : m.firstSack = 1 := if_neg fun h => hhas h.2
    rw [hfirst]
    simp only [if_neg hhas, Option.bind_fun_some]
    exact ⟨u.emit [.access (.sub m.node.mpdHeadLen 12)], rfl, rfl, rfl⟩

/-- A datagram without data, of an active subflow: the acknowledgement, then the SACK. -/
theorem doParseMPData_ack (hflag : m.header.flag = 0x55)
    (hvalid : schdGetFlowValid u m.header.stream = true) (hack : m.IsAck) :
    ∃ u₁ : UserInfo, u₁.txWindow = u.txWindow ∧ u₁.schdPara = u.schdPara ∧ u.doParseMPData m =
      ((u₁.processACK m.header.stream m.header.ack m.firstSack).bind fun t =>
        if m.HasSack then t.parserSACK m.header.stream m m.header.ack else some t).map
          fun t => t.emit [.free m] := by
  have hrej : ∀ w : UserInfo, w.schdPara = u.schdPara → ¬ w.Rejects m := by
    rintro w hw (h | h)
    · exact h hflag
    · rw [schdGetFlowValid, hw] at h
      exact absurd (hvalid.symm.trans h) (by decide)
  set u₀ := (u.emit (m.headReads [0, 1])).emit [.access (.flow m.header.stream)] with hu₀
  obtain ⟨u₁, hw, hp, heq⟩ := parseAck_parts (u := { u₀.emit (m.headReads [2, 3, 4, 5, 6, 7]) with
    lastPackageTime := u32 (u₀.time + 6000) }) hack
  refine ⟨u₁, hw, hp, Eq.trans ?_ heq⟩
  rw [UserInfo.doParseMPData, if_pos hflag]
  dsimp only
  rw [← hu₀, if_neg (hrej u₀ rfl), if_pos hack]

/-- The session `v` after `s` has read that `RxBegin` is at position `b` and that the runs `done`
were received. -/
structure Decoded (s : UserInfo) (f b n : ℕ) (done : List (ℕ × ℕ)) (v : UserInfo) : Prop where
  spans : Spans (v.txWindow f) b n
  valid : schdGetFlowValid v f = true
  data : ∀ x, b ≤ x → x < n → ((v.txWindow f).dataNode (x % 1024)).pData =
    if Inside done x then none else ((s.txWindow f).dataNode (x % 1024)).pData

theorem Decoded.congr (h : Decoded s f b n done v) (hw : u.txWindow = v.txWindow)
    (hp : u.schdPara = v.schdPara) : Decoded s f b n done u where
  spans := by
    rw [hw]
    exact h.spans
  valid := by
    rw [schdGetFlowValid, hp]
    exact h.valid
  data := by
    rw [hw]
    exact h.data

/-- The acknowledgement of the first message. -/
theorem processACK_decodes {t first : ℕ} (hfirst : first ≠ 0) (h : Spans (s.txWindow f) t n)
    (hvalid : schdGetFlowValid s f = true) (hf : f < 3) (hb : t ≤ b) (hn : b ≤ n) :
    ∃ v, s.processACK f (b % 65536) first = some v ∧ Decoded s f b n [] v := by
  obtain ⟨v, b', hv, hstep, -, hrel, hsame, hexact⟩ :=
    processACK_spec (A := fun _ => True) first h (Nat.mod_lt b (by decide))
  have hsize := h.size
  have heq : b' = b := by
    rcases Nat.eq_or_lt_of_le hb with rfl | hlt
    · have hle := hrel.begin_le
      have hspan := hrel.spans.le
      rcases hsame with rfl | hmod
      · rfl
      · exact SerialRing.cell_inj hmod (by omega) (by omega)
    · exact hexact (by omega) hfirst b hlt hn rfl
  rw [heq] at hrel
  refine ⟨v, hv, hrel.spans, (hstep.valid f).trans hvalid, fun x hbx hxn => ?_⟩
  rw [if_neg not_inside_nil, hrel.kept x hbx (by omega)]

/-- The SACK of a message. -/
theorem parserSACK_decodes (ack : ℕ) (h : Decoded s f b n done v) (hf : f < 3) (hbp : b ≤ p)
    (hcur : if m.byte 14 = 0 then ack = p % 65536 else p = b) (hpn : p ≤ n)
    (hruns : InRow p n runs) (hblocks : m.sackBlocks = blocksOf runs) :
    ∃ w, v.parserSACK f m ack = some w ∧ Decoded s f b n (done ++ runs) w := by
  have hsize := h.spans.size
  obtain ⟨w, hw, hsweep⟩ := parserSACK_sweep h.spans hf hbp hpn hcur
  have hstep := (parserSACK_spec (A := fun _ => True) h.spans (fun _ _ => trivial) hw).step
  obtain ⟨-, hmem, hgaps⟩ :=
    SackTrace.run_runs (t := ⟨p, [], []⟩) hruns (show n < p + 1024 by omega)
  rw [hblocks] at hsweep
  refine ⟨w, hw, hsweep.spans, (hstep.valid f).trans h.valid, fun x hbx hxn => ?_⟩
  have hmissed : ∀ d : DataNode, (d.missed f v.time).pData = d.pData := by
    intro d
    rw [DataNode.missed]
    split <;> rfl
  have hdata := h.data x hbx hxn
  rw [hsweep.nodes x hbx (by omega), swept]
  split
  · next hx =>
    -- in a gap
    obtain ⟨-, hnot⟩ := (hgaps x hx).resolve_left List.not_mem_nil
    rw [hmissed, hdata]
    simp only [inside_append, hnot, or_false]
  · split
    · next hx =>
      -- in a block
      have hin := ((hmem x).mp hx).resolve_left List.not_mem_nil
      rw [if_pos (inside_append.mpr (.inr hin)), DataNode.cleared]
    · next hx =>
      have hnot : ¬ Inside runs x := fun hin => hx ((hmem x).mpr (.inr hin))
      rw [hdata]
      simp only [inside_append, hnot, or_false]

/-- The first message of a call. -/
theorem decoded_first {t : ℕ} (h : Spans (s.txWindow f) t n) (hvalid : schdGetFlowValid s f = true)
    (hf : f < 3) (hb : t ≤ b) (hn : b ≤ n) (hword : Says m datalen f (b % 65536) 1 (blocksOf runs))
    (hmade : m.header.flag = 0x55 ∧ m.data.length = sackMsgLen m.sackBlocks.length)
    (hrow : InRow b n runs) :
    ∃ v, s.doParseMPData m = some v ∧ Decoded s f b n runs v := by
  have hiff := hword.hasSack hmade.2
  have hfirst : m.firstSack = 1 := by
    rw [Msg.firstSack]
    split
    · next hsack => exact hword.first_eq (by simpa [blocksOf] using hiff.mp hsack.2)
    · rfl
  have hstream := hword.stream_eq
  obtain ⟨u₁, hw, hp, heq⟩ :=
    doParseMPData_ack hmade.1 (by rwa [hstream] : schdGetFlowValid s m.header.stream = true)
      hword.isAck
  rw [hstream, hword.ack_eq, hfirst] at heq
  have hvalid₁ : schdGetFlowValid u₁ f = true := by
    rw [schdGetFlowValid, hp]
    exact hvalid
  obtain ⟨v, hv, hdec⟩ := processACK_decodes one_ne_zero (hw ▸ h) hvalid₁ hf hb hn
  have hdec : Decoded s f b n [] v := ⟨hdec.spans, hdec.valid, hw ▸ hdec.data⟩
  rw [hv, Option.bind_some] at heq
  split at heq
  · next hhas =>
    have hbyte := hword.first_eq (by simpa [blocksOf] using hiff.mp hhas)
    obtain ⟨w, hw', hdec'⟩ := parserSACK_decodes (b % 65536) hdec hf le_rfl
      (by rw [if_neg (by omega)]) hn hrow hword.blocks_eq
    rw [hw', Option.map_some] at heq
    exact ⟨_, heq, hdec'.congr rfl rfl⟩
  · next hhas =>
    obtain rfl : runs = [] := not_not.mp (mt hiff.mpr hhas)
    exact ⟨_, heq, hdec.congr rfl rfl⟩

/-- A later message of a call. -/
theorem decoded_next (h : Decoded s f b n done v) (hf : f < 3) (hne : runs ≠ [])
    (hword : Says m datalen f (ackBehind b done) 0 (blocksOf runs))
    (hmade : m.header.flag = 0x55 ∧ m.data.length = sackMsgLen m.sackBlocks.length)
    (hrow : InRow b n (done ++ runs)) :
    ∃ w, v.doParseMPData m = some w ∧ Decoded s f b n (done ++ runs) w := by
  have hhas := (hword.hasSack hmade.2).mpr hne
  have hbyte := hword.first_eq (by simpa [blocksOf] using hne)
  have hfirst : m.firstSack = 0 := by rw [Msg.firstSack, if_pos ⟨hword.isAck, hhas⟩, hbyte]
  have hstream := hword.stream_eq
  obtain ⟨u₁, hw, hp, heq⟩ :=
    doParseMPData_ack hmade.1 (by rw [hstream]; exact h.valid) hword.isAck
  rw [hstream, hword.ack_eq, hfirst, processACK, if_pos (.inr rfl), Option.bind_some,
    if_pos hhas] at heq
  obtain ⟨hrest, hge, hle⟩ := hrow.behind h.spans.le
  obtain ⟨w, hw', hdec⟩ := parserSACK_decodes (ackBehind b done) (h.congr hw hp) hf hge
    (by rw [if_pos hbyte]; rfl) hle hrest hword.blocks_eq
  rw [hw', Option.map_some] at heq
  exact ⟨_, heq, hdec.congr rfl rfl⟩

end Message

/-! ### The messages of a call -/

section Call

variable {s u : UserInfo} {f b n : ℕ} {runs : List (ℕ × ℕ)} {chunks : List (List (ℕ × ℕ))}
  {allocs : ℕ → Option ℕ} {as : List Action} {ms : List Msg}

/-- One datagram for every part, if every part hands over one. -/
theorem queued_parts {parts : List (List Action)} {R : ℕ → List (ℕ × ℕ) → Msg → Prop}
    (hlen : parts.length = chunks.length)
    (hparts : ∀ k runs part, chunks[k]? = some runs → parts[k]? = some part →
      ∃ m, queued part = [m] ∧ R k runs m) :
    (queued parts.flatten).length = chunks.length ∧
      ∀ k runs m, chunks[k]? = some runs → (queued parts.flatten)[k]? = some m → R k runs m := by
  induction parts generalizing chunks R with
  | nil =>
    obtain rfl := List.length_eq_zero_iff.mp hlen.symm
    exact ⟨rfl, fun k runs m hk => absurd hk (by simp)⟩
  | cons part parts ih =>
    cases chunks with
    | nil => exact absurd hlen (Nat.succ_ne_zero _)
    | cons c chunks =>
      obtain ⟨m, hm, hR⟩ := hparts 0 c part rfl rfl
      obtain ⟨hlen', hrest⟩ := ih (R := fun k => R (k + 1)) (Nat.succ.inj hlen)
        fun k runs part hk hp => hparts (k + 1) runs part hk hp
      rw [List.flatten_cons, queued_append, hm, List.singleton_append]
      refine ⟨congrArg Nat.succ hlen', fun k runs m' hk hm' => ?_⟩
      cases k with
      | zero =>
        obtain rfl := Option.some.inj hk
        obtain rfl := Option.some.inj hm'
        exact hR
      | succ k => exact hrest k runs m' hk hm'

/-- With a buffer for each of them, there is one datagram for every message. -/
theorem ReportsRuns.messages (h : ReportsRuns f b chunks allocs as)
    (halloc : ∀ j, (allocs j).isSome) :
    (queued as).length = chunks.length ∧
      ∀ k runs m, chunks[k]? = some runs → (queued as)[k]? = some m →
        ∃ datalen, Says m datalen f (ackBehind b (chunks.take k).flatten) (if k = 0 then 1 else 0)
          (blocksOf runs) := by
  obtain ⟨parts, rfl, hlen, hparts⟩ := h.parts
  refine queued_parts (R := fun k runs m => ∃ datalen, Says m datalen f
    (ackBehind b (chunks.take k).flatten) (if k = 0 then 1 else 0) (blocksOf runs)) hlen
    fun k runs part hk hp => ?_
  have hreported := hparts k runs part hk hp
  obtain ⟨addr, haddr⟩ := Option.isSome_iff_exists.mp (halloc k)
  rw [haddr] at hreported
  obtain ⟨m, datalen, ok, rfl, -, hword⟩ := hreported
  exact ⟨m, rfl, datalen, hword⟩

/-- Only a message that stands alone reports nothing. -/
theorem Elevens.ne_nil (h : Elevens runs chunks) {k : ℕ} (hk : chunks[k]? = some []) : k = 0 := by
  obtain ⟨hlt, hget⟩ := List.getElem?_eq_some_iff.mp hk
  have hnotFull : ¬ k < chunks.dropLast.length := by
    intro hk'
    have hmem : [] ∈ chunks.dropLast := by
      rw [← hget, ← List.getElem_dropLast hk']
      exact List.getElem_mem hk'
    exact absurd (h.full _ hmem) (by decide)
  rw [List.length_dropLast] at hnotFull
  -- it is the last one, and the others are full
  have hsplit : chunks = chunks.dropLast ++ [[]] := by
    have hne : chunks ≠ [] := List.ne_nil_of_length_pos (by omega)
    have hlast : chunks.getLast hne = [] := by
      rw [List.getLast_eq_getElem, ← hget]
      congr 1
      omega
    rw [← hlast, List.dropLast_append_getLast]
  have hlen := length_flatten_full h.full
  have hflat := h.flatten_eq
  rw [hsplit, List.flatten_append, List.flatten_singleton, List.append_nil] at hflat
  have hcount := h.length_eq
  rw [← hflat, hlen, List.length_dropLast] at hcount
  omega

/-- The messages of a call, one after the other. -/
theorem decoded_run {t : ℕ} (h : Spans (s.txWindow f) t n) (hvalid : schdGetFlowValid s f = true)
    (hf : f < 3) (hb : t ≤ b) (hn : b ≤ n) (hrow : InRow b n chunks.flatten)
    (hlen : ms.length = chunks.length) (hne : ∀ k, chunks[k]? = some [] → k = 0)
    (hmade : ∀ m ∈ ms, m.header.flag = 0x55 ∧ m.data.length = sackMsgLen m.sackBlocks.length)
    (hword : ∀ k runs m, chunks[k]? = some runs → ms[k]? = some m →
      ∃ datalen, Says m datalen f (ackBehind b (chunks.take k).flatten) (if k = 0 then 1 else 0)
        (blocksOf runs)) {k : ℕ} (hk : k < chunks.length) :
    ∃ v, run Op.step ((ms.take (k + 1)).map .recv) s = some v ∧
      Decoded s f b n (chunks.take (k + 1)).flatten v := by
  induction k with
  | zero =>
    obtain ⟨c, hc⟩ : ∃ c, chunks[0]? = some c := ⟨_, List.getElem?_eq_getElem hk⟩
    obtain ⟨m, hm⟩ : ∃ m, ms[0]? = some m := ⟨_, List.getElem?_eq_getElem (hlen ▸ hk)⟩
    obtain ⟨datalen, hword⟩ := hword 0 c m hc hm
    have hcs : chunks.take 1 = [c] := by rw [List.take_add_one, hc]; rfl
    have hms : ms.take 1 = [m] := by rw [List.take_add_one, hm]; rfl
    have hrow₁ : InRow b n c := by
      have hsplit := List.take_append_drop 1 chunks
      rw [hcs] at hsplit
      rw [← hsplit, List.flatten_append, List.flatten_singleton] at hrow
      exact hrow.left
    obtain ⟨v, hv, hdec⟩ := decoded_first h hvalid hf hb hn hword
      (hmade m (List.mem_of_getElem? hm)) hrow₁
    rw [hcs, hms, List.flatten_singleton]
    exact ⟨v, by rw [List.map_singleton, ← List.nil_append [_], run_concat]; exact hv, hdec⟩
  | succ k ih =>
    obtain ⟨v, hv, hdec⟩ := ih (Nat.lt_of_succ_lt hk)
    obtain ⟨c, hc⟩ : ∃ c, chunks[k + 1]? = some c := ⟨_, List.getElem?_eq_getElem hk⟩
    obtain ⟨m, hm⟩ : ∃ m, ms[k + 1]? = some m := ⟨_, List.getElem?_eq_getElem (hlen ▸ hk)⟩
    obtain ⟨datalen, hword⟩ := hword (k + 1) c m hc hm
    rw [if_neg (Nat.succ_ne_zero k)] at hword
    have hcs : (chunks.take (k + 2)).flatten = (chunks.take (k + 1)).flatten ++ c := by
      rw [List.take_add_one, hc, List.flatten_append, Option.toList_some, List.flatten_singleton]
    have hms : ms.take (k + 2) = ms.take (k + 1) ++ [m] := by
      rw [List.take_add_one, hm, Option.toList_some]
    have hrow' : InRow b n ((chunks.take (k + 1)).flatten ++ c) := by
      have hsplit := List.take_append_drop (k + 2) chunks
      rw [← hsplit, List.flatten_append, hcs] at hrow
      exact hrow.left
    obtain ⟨w, hw, hdec'⟩ := decoded_next hdec hf
      (fun hnil => Nat.succ_ne_zero k (hne (k + 1) (hnil ▸ hc))) hword
      (hmade m (List.mem_of_getElem? hm)) hrow'
    rw [hcs, hms, List.map_append, List.map_singleton, run_concat, hv, Option.bind_some]
    exact ⟨w, hw, hdec'⟩

end Call

/-! ### Both ends -/

/-- `a` is `b` or comes before it, among sequence numbers. -/
def SerialLE (a b : ℕ) : Prop := distanceSN a b < 32768

instance (a b : ℕ) : Decidable (SerialLE a b) := inferInstanceAs (Decidable (_ < _))

/-- `txBegin` is not behind `RxBegin`, nor `RxNext` behind `txNext`. Both would hold of two windows
on opposite sides of the number space; `meets` excludes them. -/
structure Covers (t : TxWin) (w : RxSubWin) : Prop where
  begin_le : SerialLE t.beginNode.ssn w.beginNode.ssn
  next_le : SerialLE w.nextNode.ssn t.nextNode.ssn
  meets : SerialLE w.beginNode.ssn t.nextNode.ssn

theorem TxWin.Spans.shift {w : TxWin} {b n : ℕ} (h : Spans w b n) (k : ℕ) :
    Spans w (b + 65536 * k) (n + 65536 * k) where
  begin_eq := by rw [h.begin_eq]; omega
  next_eq := by rw [h.next_eq]; omega
  sn_eq := by rw [h.sn_eq]; omega
  le := Nat.add_le_add_right h.le _
  size := by have := h.size; omega
  num x hb hn := by
    have hnum := h.num (x - 65536 * k) (by omega) (by omega)
    rw [show (x - 65536 * k) % 1024 = x % 1024 by omega] at hnum
    omega
  sound := h.sound
  idle x hn hb := by
    have hidle := h.idle (x - 65536 * k) (by omega) (by omega)
    rwa [show (x - 65536 * k) % 1024 = x % 1024 by omega] at hidle

/-- Positions for both windows. -/
theorem Covers.positions {t : TxWin} {w : RxSubWin} {b n : ℕ} (h : Covers t w) (ht : t.WellFormed)
    (hw : RxSubWin.Rests w b n) :
    ∃ k c d, RxSubWin.Rests w (b + 65536 * k) (n + 65536 * k) ∧ Spans t c d ∧
      c ≤ b + 65536 * k ∧ n + 65536 * k ≤ d := by
  have hspans := ht.spans.shift b
  have hge : b ≤ t.beginNode.ssn + 65536 * b := by omega
  generalize t.beginNode.ssn + 65536 * b = c, t.beginNode.ssn + t.span + 65536 * b = d
    at hspans hge
  obtain ⟨x, hcx, hxc, hx⟩ :=
    SerialRing.exists_position (Nat.mod_lt b (show 0 < 65536 by decide)) c
  obtain ⟨k, rfl⟩ : ∃ k, x = b + 65536 * k := ⟨(x - b) / 65536, by omega⟩
  have hrests := hw.shift k
  have hbegin := h.begin_le
  have hnext := h.next_le
  have hmeets := h.meets
  rw [SerialLE, hspans.begin_ssn, hrests.begin_ssn, distanceSN_of_le hcx (by omega)] at hbegin
  rw [SerialLE, hspans.next_ssn, hrests.begin_ssn] at hmeets
  rw [SerialLE, hspans.next_ssn, hrests.next_ssn] at hnext
  have hsize := hspans.size
  have hsize' := hrests.size
  have hle := hspans.le
  have hle' := hrests.le
  refine ⟨k, c, d, hrests, hspans, hcx, ?_⟩
  by_contra hlt
  rcases Nat.lt_or_ge d (b + 65536 * k) with hbehind | hahead
  · rw [distanceSN_of_lt hbehind (by omega)] at hmeets
    omega
  · rw [distanceSN_of_lt (by omega) (by omega)] at hnext
    omega

/-- **A SACK there and back.** All messages of one call of `MPD_SubWinCreateSack`, read in order by
`MPD_DoParseMPData` at a session whose tx window covers the sub window: `txBegin` becomes the node of
`RxBegin`, no outstanding packet that was received holds data any more, and every other one holds
what it held. -/
theorem sack_roundTrip (u s : UserInfo) (f b n : ℕ) (hf : f < 3)
    (hw : RxSubWin.Rests (u.rxSubWin f) b n) (hloud : ¬ SackReturnsEarly u f)
    (halloc : ∀ j, (u.allocs j).isSome) (hs : (s.txWindow f).WellFormed)
    (hvalid : schdGetFlowValid s f = true) (hcov : Covers (s.txWindow f) (u.rxSubWin f)) :
    ∃ as v, (u.subWinCreateSack f).out = u.out ++ as ∧
      run Op.step ((queued as).map .recv) s = some v ∧
      (v.txWindow f).pTxBegin = (u.rxSubWin f).beginNode.ssn % 1024 ∧
      (v.txWindow f).pTxNext = (s.txWindow f).pTxNext ∧
      ∀ i < (v.txWindow f).span,
        let d := (v.txWindow f).nodeAt i
        d.ssn = ((u.rxSubWin f).beginNode.ssn + i) % 65536 ∧
          ((u.rxSubWin f).HasReceived d.ssn → d.pData = none) ∧
          (¬ (u.rxSubWin f).HasReceived d.ssn →
            d.pData = ((s.txWindow f).dataNode (d.ssn % 1024)).pData) := by
  obtain ⟨k, t, e, hrests, hspans, hb, hn⟩ := hcov.positions hs hw
  generalize b + 65536 * k = b at *
  generalize n + 65536 * k = n at *
  obtain ⟨runs, chunks, as, hlists, helevens, hreports, hmade, hout⟩ :=
    subWinCreateSack_reports hrests hf hloud
  obtain ⟨hlen, hword⟩ := hreports.messages halloc
  have hle := hrests.le
  have hrow : InRow b e chunks.flatten := by
    rw [helevens.flatten_eq]
    refine ⟨hlists.sorted, fun r hr => ((hlists.mem_iff r).mp hr).ge,
      fun r hr => ((hlists.mem_iff r).mp hr).le, fun r hr => ?_⟩
    have hlt := ((hlists.mem_iff r).mp hr).lt
    omega
  have hpos : chunks.length - 1 < chunks.length := by
    have := helevens.length_eq
    omega
  obtain ⟨v, hv, hdec⟩ := decoded_run hspans hvalid hf hb (by omega) hrow hlen
    (fun _ hk => helevens.ne_nil hk) hmade hword hpos
  have hall : chunks.length - 1 + 1 = chunks.length := by omega
  rw [hall, ← hlen, List.take_length] at hv
  rw [hall, List.take_length, helevens.flatten_eq] at hdec
  have hsize := hdec.spans.size
  refine ⟨as, v, hout, hv, ?_, ?_, fun i hi => ?_⟩
  · rw [hdec.spans.begin_eq, hrests.begin_ssn]
    omega
  · rw [hdec.spans.next_eq, hspans.next_eq]
  · rw [hdec.spans.span_eq] at hi
    dsimp only
    have hssn : ((v.txWindow f).nodeAt i).ssn = (b + i) % 65536 := by
      rw [hdec.spans.nodeAt, hdec.spans.num (b + i) (by omega) (by omega)]
    -- the receiver's mark, by position
    have hreceived : (u.rxSubWin f).HasReceived ((b + i) % 65536) ↔ Inside runs (b + i) := by
      have hcell : (b + i) % 65536 % 1024 = (b + i) % 1024 := by omega
      rw [RxSubWin.HasReceived, RxSubWin.InWindow, hrests.begin_ssn, hrests.next_ssn,
        distanceSN_of_le (Nat.le_add_right b i) (by omega),
        distanceSN_of_le hle (by omega), hcell]
      constructor
      · rintro ⟨hlt, hmark⟩
        exact (hlists.inside_iff (Nat.le_add_right b i) (by omega)).mpr hmark
      · intro hin
        have hlt : b + i < n := by
          obtain ⟨r, hr, -, hir⟩ := hin
          have := ((hlists.mem_iff r).mp hr).lt
          omega
        exact ⟨by omega, (hlists.inside_iff (Nat.le_add_right b i) (by omega)).mp hin⟩
    have hdata := hdec.data (b + i) (Nat.le_add_right b i) (by omega)
    rw [hssn, hreceived, hdec.spans.nodeAt]
    refine ⟨?_, fun hin => ?_, fun hin => ?_⟩
    · rw [hrests.begin_ssn]
      omega
    · rw [hdata, if_pos hin]
    · rw [hdata, if_neg hin, show (b + i) % 65536 % 1024 = (b + i) % 1024 by omega]

/-- The packets with even SSNs up to 24 arrive. -/
def everyOther : List SubWinOp := (List.range 13).map fun i => .addNode (UInt16.ofNat (2 * i))

/-- Twenty-six packets go out on subflow `f`. -/
def twentySix (f : Fin 3) : List Op := List.replicate 26 (.send (some f) ⟨1, List.replicate 12 0⟩ 12)

/-- Twelve runs are missing their neighbours, one more than a message has room for. The peer gives up
what was there before 1, and what the second message reports. -/
theorem sack_roundTrip_twelve : ∃ w s as v, run SubWinOp.step everyOther {} = some w ∧
    run Op.step (twentySix 0) { schdPara := fun _ => { isValid := true } } = some s ∧
    (subWinCreateSack { rxSubWin := fun _ => w } 0).out = as ∧ (queued as).length = 2 ∧
    run Op.step ((queued as).map .recv) s = some v ∧ (v.txWindow 0).pTxBegin = 1 ∧
    ((v.txWindow 0).nodeAt 23).ssn = 24 ∧ ((v.txWindow 0).nodeAt 23).pData = none := by
  have hevalS : (run Op.step (twentySix 0) { schdPara := fun _ => { isValid := true } }).map
      (fun s => (schdGetFlowValid s 0, (s.txWindow 0).beginNode.ssn, (s.txWindow 0).nextNode.ssn,
        (s.txWindow 0).pTxNext)) = some (true, 0, 26, 26) := by
    decide +kernel
  obtain ⟨s, hs, hproj⟩ := Option.map_eq_some_iff.mp hevalS
  simp only [Prod.mk.injEq] at hproj
  obtain ⟨hvalid, hbegin, hnext, hlast⟩ := hproj
  have hwell := (txWin_run _ s (twentySix 0) (fun _ => rfl) hs 0).1
  have hevalW : (run SubWinOp.step everyOther {}).map (fun w => ((w.beginNode.ssn, w.nextNode.ssn),
      decide (w.rxBegin = w.rxNext), (w.win 24).status,
      (queued (subWinCreateSack { rxSubWin := fun _ => w } 0).out).length)) =
        some ((1, 25), false, .received, 2) := by
    decide +kernel
  obtain ⟨w, hw, ⟨b, n, hrests⟩, -⟩ := RxSubWin.kept_run everyOther
  rw [hw, Option.map_some, Option.some.injEq] at hevalW
  simp only [Prod.mk.injEq] at hevalW
  obtain ⟨⟨hwbegin, hwnext⟩, hspan, hstatus, hlen⟩ := hevalW
  have hcov : Covers (s.txWindow 0) w := by
    constructor
    · rw [hbegin, hwbegin]
      decide
    · rw [hwnext, hnext]
      decide
    · rw [hwbegin, hnext]
      decide
  obtain ⟨as, v, hout, hv, htxBegin, htxNext, hdata⟩ :=
    sack_roundTrip { rxSubWin := fun _ => w } s 0 b n (by decide) hrests
      (fun h => of_decide_eq_false hspan h.1.1) (fun _ => rfl) hwell hvalid hcov
  have hv1 : (v.txWindow 0).pTxBegin = 1 := htxBegin.trans (congrArg (· % 1024) hwbegin)
  have hv26 : (v.txWindow 0).pTxNext = 26 := htxNext.trans hlast
  have hmem : 23 < (v.txWindow 0).span := by
    rw [TxWin.span, hv1, hv26]
    decide
  obtain ⟨hssn, hgone, -⟩ := hdata 23 hmem
  dsimp only at hssn hgone
  rw [hwbegin] at hssn
  have hreceived : w.HasReceived 24 := by
    refine ⟨?_, hstatus⟩
    rw [RxSubWin.InWindow, hwbegin, hwnext]
    decide
  refine ⟨w, s, as, v, hw, hs, hout, ?_, hv, hv1, hssn, hgone (hssn ▸ hreceived)⟩
  rw [← hlen, hout]
  rfl

end Mpd

end AndroidVendor
