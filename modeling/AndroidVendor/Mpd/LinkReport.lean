import AndroidVendor.Mpd.LinkArrival
import AndroidVendor.Mpd.SackRoundTrip
import AndroidVendor.Mpd.WholePackets

/-!
# What a report promises

A report that is on its way was true when it was written: everything before `RxBegin` entitles the
sender to give it up, and what its blocks name had entered the sub window. What is on record only
grows, so it stays true however late the report arrives, and however often.

## Main results

* `Promise` — what one report means, read by itself; `Promise.mono` keeps it
* `Link.RxSettled.promises` — every report of `MPD_SackPeriodSend` keeps its promise
-/

namespace AndroidVendor

namespace Mpd

open Runs RxSubWin UserInfo

/-- The datagram `m` about subflow `f`, read as one that was written when `RxBegin` stood at `b`: what
comes before `b` may be given up, and what it reports was accepted. -/
structure Promise (R : RxRecord) (out : List Action) (f b : ℕ) (m : Msg) : Prop where
  stream : m.header.stream = f
  below : ∀ x, 65536 ≤ x → x < b → R.Covered out f x
  ack : m.firstSack ≠ 0 → m.header.ack = b % 65536
  blocks : m.HasSack → ∀ d : DataNode, d.ssn < 65536 → TxWin.Reported m d →
    ∃ x, b ≤ x ∧ x < b + 1024 ∧ x % 65536 = d.ssn ∧ (f, x) ∈ R.accepted

section Reading

variable {R R' : RxRecord} {out out' : List Action} {f b n first datalen : ℕ} {m : Msg} {w : RxSubWin}
  {runs : List (ℕ × ℕ)} {chunks : List (List (ℕ × ℕ))} {as : List Action} {allocs : ℕ → Option ℕ}

theorem Promise.mono (h : Promise R out f b m) (hg : RxRecord.Grows R out R' out') :
    Promise R' out' f b m where
  stream := h.stream
  below x hx hb := hg.covered (h.below x hx hb)
  ack := h.ack
  blocks hs d hd hr := by
    obtain ⟨x, hbx, hxb, hx, hacc⟩ := h.blocks hs d hd hr
    exact ⟨x, hbx, hxb, hx, hg.accepted.subset hacc⟩

/-- The buffer it is read from does not matter. -/
theorem Promise.moved (h : Promise R out f b m) (addr : ℕ) : Promise R out f b ⟨addr, m.data⟩ :=
  ⟨h.stream, h.below, h.ack, h.blocks⟩

theorem slice_all (m : Msg) : m.slice 0 m.data.length = m.data := by
  rw [m.slice_eq (Nat.zero_add _).le, List.drop_zero, List.take_length]

/-- A node that is reported lies in a run of the message. -/
theorem Says.inside {ack : ℕ} (h : Says m datalen f ack first (blocksOf runs)) (hne : runs ≠ [])
    (hle : ∀ r ∈ runs, r.1 ≤ r.2 ∧ r.2 < r.1 + 65536) {d : DataNode} (hd : d.ssn < 65536)
    (hr : TxWin.Reported m d) : ∃ x, x % 65536 = d.ssn ∧ Inside runs x := by
  obtain ⟨k, hk, hin⟩ := hr
  have hblocks := h.blocks_eq
  rw [Msg.sackBlocks] at hblocks
  split at hblocks
  · exact absurd (List.map_eq_nil_iff.mp hblocks.symm) hne
  have hmem : (m.word (16 + 4 * k), m.word (18 + 4 * k)) ∈ blocksOf runs := by
    rw [← hblocks]
    exact List.mem_map.mpr ⟨k, List.mem_range.mpr hk, rfl⟩
  obtain ⟨r, hr, heq⟩ := List.mem_map.mp hmem
  obtain ⟨hleft, hright⟩ := Prod.mk.inj heq
  obtain ⟨h12, h21⟩ := hle r hr
  obtain ⟨x, hrx, hxr, hx⟩ := SerialRing.exists_position hd r.1
  rw [TxWin.InEdges, ← hleft, ← hright, ← hx, distanceSN_of_le hrx hxr,
    distanceSN_of_le h12 h21] at hin
  exact ⟨x, hx, r, hr, hrx, by omega⟩

/-- One message of a call. -/
theorem RxSubWin.Justified.promise {top k : ℕ} (h : Justified R out f top w b n)
    (hlists : Lists (Marked w) b n runs) (helevens : Elevens runs chunks) {cur : List (ℕ × ℕ)}
    (hk : chunks[k]? = some cur)
    (hsaid : Says m datalen f (ackBehind b (chunks.take k).flatten) (if k = 0 then 1 else 0)
      (blocksOf cur))
    (hlen : m.data.length = sackMsgLen m.sackBlocks.length) : Promise R out f b m := by
  have hsize := h.rests.size
  have hsub : ∀ r ∈ cur, IsRun (Marked w) b n r := by
    intro r hr
    refine (hlists.mem_iff r).mp ?_
    rw [← helevens.flatten_eq]
    exact List.mem_flatten.mpr ⟨cur, List.mem_of_getElem? hk, hr⟩
  refine ⟨hsaid.stream_eq, h.below, fun hfirst => ?_, fun hhas d hd hr => ?_⟩
  · -- only the first message of a call says so
    suffices hzero : k = 0 by
      subst hzero
      exact hsaid.ack_eq
    by_contra hne
    have hcur : cur ≠ [] := fun hnil => hne (helevens.ne_nil (hnil ▸ hk))
    refine hfirst ?_
    rw [Msg.firstSack, if_pos ⟨hsaid.isAck, (hsaid.hasSack hlen).mpr hcur⟩,
      hsaid.first_eq (fun hnil => hcur (List.map_eq_nil_iff.mp hnil)), if_neg hne]
  · obtain ⟨x, hx, r, hr, hrx, hxr⟩ := hsaid.inside ((hsaid.hasSack hlen).mp hhas)
      (fun r hr => ⟨(hsub r hr).le, by have := (hsub r hr).lt; have := (hsub r hr).ge; omega⟩) hd hr
    have hrun := hsub r hr
    have hge := hrun.ge
    have hlt := hrun.lt
    exact ⟨x, by omega, by omega, hx, h.marked x (by omega) (by omega) (hrun.all x hrx hxr)⟩

/-- Every message that a queue took. -/
theorem RxSubWin.Justified.promises {top : ℕ} (h : Justified R out f top w b n)
    (hlists : Lists (Marked w) b n runs) (helevens : Elevens runs chunks)
    (hreports : ReportsRuns f b chunks allocs as) (hmade : WellMade as) {data : List UInt8}
    (hdata : data ∈ as.filterMap Action.wire) : Promise R out f b ⟨0, data⟩ := by
  obtain ⟨a, ha, hwire⟩ := List.mem_filterMap.mp hdata
  obtain ⟨parts, rfl, hlen, hparts⟩ := hreports.parts
  obtain ⟨part, hpart, hmem⟩ := List.mem_flatten.mp ha
  obtain ⟨k, hk, rfl⟩ := List.getElem_of_mem hpart
  have hcur : chunks[k]? = some chunks[k] := List.getElem?_eq_getElem (hlen ▸ hk)
  have hreported := hparts k _ _ hcur (List.getElem?_eq_getElem hk)
  cases halloc : allocs k with
  | none =>
    rw [halloc] at hreported
    rw [hreported] at hmem
    exact absurd hmem List.not_mem_nil
  | some addr =>
    rw [halloc] at hreported
    obtain ⟨m, datalen, ok, heq, -, hsaid⟩ := hreported
    rw [heq, List.mem_singleton] at hmem
    subst hmem
    have hm := (hmade m (List.mem_filterMap.mpr ⟨_, ha, rfl⟩)).2
    cases ok with
    | false => cases hwire
    | true =>
      obtain rfl : m.slice 0 datalen = data := Option.some.inj hwire
      rw [← hsaid.length_eq, slice_all]
      exact (h.promise hlists helevens hcur hsaid hm).moved 0

end Reading

/-! ### `MPD_SackPeriodSend` -/

theorem subWinCreateSack_quiet {u : UserInfo} {f : ℕ} (h : SackReturnsEarly u f) :
    (u.subWinCreateSack f).out = u.out := by
  rw [subWinCreateSack]
  dsimp only
  rw [if_pos h.1]
  split
  · rfl
  split
  · rfl
  next hpkt hack => rw [if_pos ((h.2.resolve_left hpkt).resolve_left hack)]

namespace Link

variable {L : Link} {u : UserInfo} {f : ℕ}

/-- The receiver has become `u` in the course of `MPD_SackPeriodSend`. -/
structure Reporting (L : Link) (u : UserInfo) : Prop where
  sub : ∃ ack : ℕ → ℕ, u.rxSubWin = fun f => { L.receiver.rxSubWin f with sentAck := ack f }
  out : ∃ as, u.out = L.receiver.out ++ as ∧ ∀ data ∈ as.filterMap Action.wire,
    Promise L.record L.receiver.out (wireHeader data).stream (L.front (wireHeader data).stream)
      ⟨0, data⟩

theorem Reporting.createSack (h : L.RxSettled) (hu : L.Reporting u) (hf : f < 3) :
    L.Reporting (u.subWinCreateSack f) := by
  obtain ⟨ack, hack⟩ := hu.sub
  obtain ⟨as, hout, has⟩ := hu.out
  have hside := (txSide_writer (F := fun _ => True) (B := fun _ => True) u).subWinCreateSack
    (f := f) trivial (.refl fun _ _ => trivial)
  obtain ⟨ack', hack'⟩ := hside.sub
  refine ⟨⟨ack', by rw [hack', hack]⟩, ?_⟩
  by_cases hquiet : SackReturnsEarly u f
  · exact ⟨as, (subWinCreateSack_quiet hquiet).trans hout, has⟩
  have hsub : Justified L.record L.receiver.out f (L.next f) (u.rxSubWin f) (L.front f) (L.next f) := by
    rw [hack]
    exact (h.subs f).sentAck _
  obtain ⟨runs, chunks, bs, hlists, helevens, hreports, hmade, hbs⟩ :=
    subWinCreateSack_reports hsub.rests hf hquiet
  refine ⟨as ++ bs, by rw [hbs, hout, List.append_assoc], fun data hdata => ?_⟩
  rw [List.filterMap_append] at hdata
  rcases List.mem_append.mp hdata with hdata | hdata
  · exact has data hdata
  · have hpromise := hsub.promises hlists helevens hreports hmade hdata
    have hstream : (wireHeader data).stream = f := hpromise.stream
    rw [hstream]
    exact hpromise

/-- **Every report keeps its promise.** -/
theorem RxSettled.promises (h : L.RxSettled) (e : Answers) :
    ∀ r ∈ onWire (fun h => L.front h.stream)
      ((L.receiver.facing e).sackPeriodSend.out.drop L.receiver.out.length),
      Promise L.record L.receiver.out r.flow r.pos ⟨0, r.data⟩ := by
  have hflow : ∀ u i, i < 3 → L.Reporting u →
      L.Reporting (if schdGetFlowValid u i then u.subWinCreateSack i else u) := by
    intro u i hi hu
    split
    · exact hu.createSack h hi
    · exact hu
  have hstart : L.Reporting (L.receiver.facing e) :=
    ⟨⟨fun f => (L.receiver.rxSubWin f).sentAck, rfl⟩, [], (List.append_nil _).symm,
      fun _ hd => absurd hd List.not_mem_nil⟩
  have hall : L.Reporting (L.receiver.facing e).sackPeriodSend := by
    rw [UserInfo.sackPeriodSend]
    split
    · obtain ⟨hsub, hout⟩ := hflow _ 2 (by decide) (hflow _ 1 (by decide) (hflow _ 0 (by decide) hstart))
      exact ⟨hsub, hout⟩
    · exact hstart
  obtain ⟨as, hout, has⟩ := hall.out
  intro r hr
  rw [hout, List.drop_left] at hr
  obtain ⟨data, hdata, rfl⟩ := List.mem_map.mp hr
  exact has data hdata

end Link

end Mpd

end AndroidVendor
