import AndroidVendor.Mpd.AckFrame
import AndroidVendor.Mpd.Link
import AndroidVendor.Mpd.SendCustody

/-!
# The sending end of a link

The tx window of a subflow stands at the position of the next packet, and a packet on the channel is
labelled with the position it was given. A report makes the sender give up two kinds of packets: those
before the position it acknowledges, and those in its blocks.

## Main results

* `Link.TxSettled` — the invariant of the sender, kept by every operation
* `Link.TxSettled.givenUp` — what the sender gives up on a report
-/

namespace AndroidVendor

namespace Mpd

open TxWin

/-! ### Positions -/

theorem lastPosition_mod {count ssn : ℕ} (hssn : ssn < 65536) (hcount : 65536 ≤ count) :
    lastPosition count ssn % 65536 = ssn := by
  have hlt : distanceSN ssn (count % 65536) < 65536 := SerialRing.dist_lt (by decide) _ _
  have hdist := (SerialRing.dist_eq_iff (x := ssn) (y := count) hlt).mp
    (by rw [Nat.mod_eq_of_lt hssn]; rfl)
  rw [lastPosition]
  omega

/-- A packet that is in the window holds its position. -/
theorem TxWin.Holds.inside {w : TxWin} {b n x : ℕ} (hh : w.Holds n x) (h : Shape w b n) :
    b ≤ x ∧ (w.dataNode (x % 1024)).ssn = x % 65536 := by
  obtain ⟨hlt, hge, hdata⟩ := hh
  have hle := h.le
  have hbx : b ≤ x := by
    by_contra hout
    have hidle := h.idle (x + 1024) hge (by omega)
    rw [Nat.add_mod_right] at hidle
    rw [hidle] at hdata
    cases hdata
  exact ⟨hbx, h.num x hbx hlt.le⟩

namespace UserInfo

variable {u v : UserInfo} {m : Msg} {f b n k : ℕ}

/-! ### What the operations do to one window -/

/-- The tx windows stand at the positions `count`. -/
def Stands (u : UserInfo) (count : ℕ → ℕ) : Prop :=
  ∀ f, ∃ b, 65536 ≤ b ∧ Shape (u.txWindow f) b (count f)

theorem Stands.congr {count : ℕ → ℕ} (h : u.Stands count) (hw : v.txWindow = u.txWindow) :
    v.Stands count := by
  intro f
  rw [hw]
  exact h f

theorem Stands.of_flow {count count' : ℕ → ℕ} (h : u.Stands count)
    (hoth : ∀ j, j ≠ f → v.txWindow j = u.txWindow j) (hcount : ∀ j, j ≠ f → count' j = count j)
    (hf : ∃ b, 65536 ≤ b ∧ Shape (v.txWindow f) b (count' f)) : v.Stands count' := by
  intro j
  by_cases hj : j = f
  · exact hj ▸ hf
  · rw [hoth j hj, hcount j hj]
    exact h j

theorem Stands.sendBlock {count : ℕ → ℕ} (h : u.Stands count) (f : ℕ) (data : Msg) (len frag : ℕ) :
    (u.sendBlock f data len frag).2.Stands (Function.update count f (count f + 1)) := by
  obtain ⟨b, hb, hs⟩ := h f
  obtain ⟨-, b', hb', hs', -, hoth, -⟩ := sendBlock_acct hs data len frag rfl
  refine h.of_flow hoth (fun j hj => Function.update_of_ne hj ..) ⟨b', ?_, ?_⟩
  · rw [hb']
    split <;> omega
  · rw [Function.update_self]
    exact hs'

/-- The windows stand at most `k` positions further on. -/
def StandsWithin (u : UserInfo) (count : ℕ → ℕ) (k : ℕ) : Prop :=
  ∃ count', (∀ f, count f ≤ count' f ∧ count' f ≤ count f + k) ∧ u.Stands count'

theorem StandsWithin.sendBlock {count : ℕ → ℕ} (h : u.StandsWithin count k) (f : ℕ) (data : Msg)
    (len frag : ℕ) : (u.sendBlock f data len frag).2.StandsWithin count (k + 1) := by
  obtain ⟨count', hcount, hu⟩ := h
  refine ⟨_, fun g => ?_, hu.sendBlock f data len frag⟩
  have hg := hcount g
  rw [Function.update_apply]
  split
  · next heq =>
    subst heq
    omega
  · omega

theorem Stands.doSendNewTransData {count : ℕ → ℕ} (h : u.Stands count) (flowId : Option ℕ)
    (data : Msg) (length : ℕ) : (u.doSendNewTransData flowId data length).2.StandsWithin count 2 := by
  have hstart : u.StandsWithin count 0 := ⟨count, fun _ => ⟨le_rfl, le_rfl⟩, h⟩
  have haside : ∀ k (s t : UserInfo), s.StandsWithin count k → Aside s t → t.StandsWithin count k := by
    intro k s t hs hst
    obtain ⟨count', hcount, hu⟩ := hs
    exact ⟨count', hcount, hu.congr hst.txWindow⟩
  have hblock : ∀ f ∈ flowId, ∀ k (s : UserInfo) (d : Msg) (len frag : ℕ),
      s.StandsWithin count k → (s.sendBlock f d len frag).2.StandsWithin count (k + 1) :=
    fun f _ k s d len frag hs => hs.sendBlock f d len frag
  obtain ⟨k, hk, count', hcount, hv⟩ := doSendNewTransData_blocks haside hblock hstart data length
  have hle := u.sendCount_le length
  refine ⟨count', fun f => ?_, hv⟩
  have hf := hcount f
  omega

theorem Stands.txWinRetransFlow {count : ℕ → ℕ} (h : u.Stands count) (f : ℕ) :
    (u.txWinRetransFlow f).Stands count := by
  obtain ⟨b, hb, hs⟩ := h f
  obtain ⟨_, hacct, hs'⟩ := txWinRetransFlow_acct hs
  exact h.of_flow hacct.others (fun _ _ => rfl) ⟨b, hb, hs'⟩

theorem Stands.txWinRetransCheck {count : ℕ → ℕ} (h : u.Stands count) :
    u.txWinRetransCheck.Stands count := by
  rw [UserInfo.txWinRetransCheck]
  split
  · exact ((h.txWinRetransFlow 0).txWinRetransFlow 1).txWinRetransFlow 2
  · exact h

/-- The acknowledgement of a datagram gives up packets before the position it names. -/
theorem Stands.processACK {count : ℕ → ℕ} {ack fs : ℕ} (h : u.Stands count) (hack : ack < 65536)
    (hp : u.processACK f ack fs = some v) :
    v.Stands count ∧ ∀ g x, (u.txWindow g).Holds (count g) x → ¬ (v.txWindow g).Holds (count g) x →
      g = f ∧ fs ≠ 0 ∧ ∃ a, a % 65536 = ack ∧ x < a ∧ a ≤ count g ∧ count g < a + 1024 := by
  obtain ⟨b, hb, hs⟩ := h f
  obtain ⟨_, b', hbb, hacct, hs'⟩ := processACK_acct hs hack hp
  refine ⟨h.of_flow hacct.others (fun _ _ => rfl) ⟨b', hb.trans hbb, hs'⟩, fun g x hx hlost => ?_⟩
  by_cases hg : g = f
  swap
  · rw [hacct.others g hg] at hlost
    exact absurd hx hlost
  subst hg
  obtain ⟨hbx, hnum⟩ := hx.inside hs
  obtain ⟨hxn, hnx, hdata⟩ := hx
  have hle := hs.le
  have hsize := hs.size
  obtain ⟨hfs, hin, hmost⟩ := (hacct.keeps (x % 1024)).resolve_left fun heq =>
    hlost ⟨hxn, hnx, heq ▸ hdata⟩
  obtain ⟨a, hba, hab, rfl⟩ := SerialRing.exists_position hack b
  rw [hs.begin_ssn, hnum, distanceSN_of_le hbx (by omega), distanceSN_of_le hba hab] at hin
  rw [hs.begin_ssn, hs.next_ssn, distanceSN_of_le hba hab, distanceSN_of_le hle (by omega)] at hmost
  exact ⟨rfl, hfs, a, rfl, by omega, by omega, by omega⟩

/-- Its SACK gives up packets in the blocks. -/
theorem Stands.parserSACK {count : ℕ → ℕ} {ack : ℕ} (h : u.Stands count)
    (hp : u.parserSACK f m ack = some v) :
    v.Stands count ∧ ∀ g x, (u.txWindow g).Holds (count g) x → ¬ (v.txWindow g).Holds (count g) x →
      g = f ∧ ∃ d : DataNode, d.ssn = x % 65536 ∧ TxWin.Reported m d := by
  obtain ⟨b, hb, hs⟩ := h f
  obtain ⟨_, hacct, hs'⟩ := parserSACK_acct hs hp
  refine ⟨h.of_flow hacct.others (fun _ _ => rfl) ⟨b, hb, hs'⟩, fun g x hx hlost => ?_⟩
  by_cases hg : g = f
  swap
  · rw [hacct.others g hg] at hlost
    exact absurd hx hlost
  subst hg
  obtain ⟨hxn, hnx, hdata⟩ := id hx
  exact ⟨rfl, _, (hx.inside hs).2, (hacct.keeps (x % 1024)).resolve_left fun heq =>
    hlost ⟨hxn, hnx, heq ▸ hdata⟩⟩

/-- A datagram arrives. -/
theorem Stands.doParseMPData {count : ℕ → ℕ} (h : u.Stands count)
    (hp : u.doParseMPData m = some v) :
    v.Stands count ∧ ∀ f x, (u.txWindow f).Holds (count f) x → ¬ (v.txWindow f).Holds (count f) x →
      f = m.header.stream ∧
        ((m.firstSack ≠ 0 ∧ ∃ a, a % 65536 = m.header.ack ∧ x < a ∧ a ≤ count f ∧
            count f < a + 1024) ∨
          m.HasSack ∧ ∃ d : DataNode, d.ssn = x % 65536 ∧ TxWin.Reported m d) := by
  obtain ⟨u₁, hu₁, hcases⟩ := doParseMPData_parts hp
  have hcount : u₁.Stands count := fun f => by
    obtain ⟨b, hb, hs⟩ := h f
    have hw := hu₁.windows f
    exact ⟨b, hb, hs.congr hw.pTxBegin hw.pTxNext hw.subflowSn hw.nodes hw.pTxLast⟩
  have hholds : ∀ f x, (u.txWindow f).Holds (count f) x → (u₁.txWindow f).Holds (count f) x := by
    intro f x hx
    rw [Holds, (hu₁.windows f).nodes]
    exact hx
  rcases hcases with ⟨-, rfl⟩ | ⟨-, s, t, hs, ht, hv⟩
  · exact ⟨hcount.congr rfl, fun f x hx hlost => absurd (hholds f x hx) hlost⟩
  have hw : v.txWindow = t.txWindow := by
    rcases hv with rfl | hv
    · rfl
    · exact (RxStep.parseData hv).txWindow
  obtain ⟨hsc, hack⟩ := hcount.processACK (m.word_lt 6) hs
  rcases ht with rfl | ⟨-, hhas, ht⟩
  · refine ⟨hsc.congr hw, fun f x hx hlost => ?_⟩
    rw [hw] at hlost
    obtain ⟨hf, hfs, ha⟩ := hack f x (hholds f x hx) hlost
    exact ⟨hf, .inl ⟨hfs, ha⟩⟩
  · obtain ⟨htc, hsack⟩ := hsc.parserSACK ht
    refine ⟨htc.congr hw, fun f x hx hlost => ?_⟩
    rw [hw] at hlost
    by_cases hkept : (s.txWindow f).Holds (count f) x
    · obtain ⟨hf, hd⟩ := hsack f x hkept hlost
      exact ⟨hf, .inr ⟨hhas, hd⟩⟩
    · obtain ⟨hf, hfs, ha⟩ := hack f x (hholds f x hx) hkept
      exact ⟨hf, .inl ⟨hfs, ha⟩⟩

end UserInfo

/-! ### The sender at rest -/

namespace Link

variable {L : Link} {v : UserInfo}

/-- The invariant of the sender. -/
structure TxSettled (L : Link) : Prop where
  windows : L.sender.Stands L.sent
  packets : ∀ p ∈ L.packets,
    p.flow = (wireHeader p.data).stream ∧ p.pos % 65536 = (wireHeader p.data).ssn

/-- The positions follow the tx windows. -/
theorem setSender_sent {count : ℕ → ℕ} (h : L.sender.Stands L.sent)
    (hcount : ∀ f, L.sent f ≤ count f ∧ count f < L.sent f + 65536) (hv : v.Stands count) :
    (L.setSender v).sent = count := by
  funext f
  obtain ⟨b, -, hs⟩ := h f
  obtain ⟨b', -, hs'⟩ := hv f
  obtain ⟨hle, hlt⟩ := hcount f
  show L.sent f + distanceSN _ _ = _
  rw [hs.sn_eq, hs'.sn_eq, distanceSN_of_le hle hlt]
  omega

/-- An operation is over, in which less than a turn was sent. -/
theorem TxSettled.setSender {count : ℕ → ℕ} (h : L.TxSettled)
    (hcount : ∀ f, L.sent f ≤ count f ∧ count f < L.sent f + 65536) (hv : v.Stands count) :
    (L.setSender v).TxSettled := by
  have hsent := setSender_sent h.windows hcount hv
  refine ⟨by rw [hsent]; exact hv, fun p hp => ?_⟩
  rcases List.mem_append.mp hp with hp | hp
  · exact h.packets p hp
  obtain ⟨data, -, rfl⟩ := List.mem_map.mp hp
  obtain ⟨b, hb, hs⟩ := hv (wireHeader data).stream
  refine ⟨rfl, lastPosition_mod ((⟨0, data⟩ : Msg).word_lt 4) ?_⟩
  have hle := hs.le
  change 65536 ≤ (L.setSender v).sent (wireHeader data).stream
  rw [hsent]
  exact hb.trans hle

end Link

end Mpd

end AndroidVendor
