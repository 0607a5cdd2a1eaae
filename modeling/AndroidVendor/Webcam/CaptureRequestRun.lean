import Mathlib.Algebra.Order.Ring.Nat
import AndroidVendor.Webcam.CaptureRequest

/-!
# What becomes of the capture requests

A call of `EnqueueRequest` takes the first free buffer, but the buffer stays free until the call is
over; it publishes its request in the buffer before any output buffer is filled; and
`DequeueRequest` always looks at the first buffer. So the requests are delivered as long as no call
begins on the buffer of another one, none ends on a buffer other than the first, and
`DequeueRequest` comes neither between the rounds of a call on the first buffer nor after such a
call has failed in them.

## Main results

* `Tidy`: what then holds of the buffers and the calls.
* `Tidy.step`: each step keeps it.
* `requests_run`: every such run delivers.
-/

namespace AndroidVendor.Webcam.CaptureRequest

open Machine

/-- The call is between two rounds of its loop. -/
def State.Filling (s : State) (r : ℕ) : Prop :=
  s.Underway r ∧ 0 < (s.calls r).filled ∧ (s.calls r).filled < (s.calls r).streams

instance (s : State) (r : ℕ) : Decidable (s.Filling r) := inferInstanceAs (Decidable (_ ∧ _))

/-- The conditions on the three regions that look at the buffers. -/
def Op.Fits (s : State) : Op → Prop
  | .start _ => ∀ r < s.started, s.Underway r → s.freeIndex ≠ some (s.calls r).index
  | .finish r => (s.calls r).index = 0
  | .dequeue => (∀ r < s.started, s.Filling r → (s.calls r).index ≠ 0) ∧
      ∀ r ∈ (s.buffers 0).request, (s.calls r).phase ≠ .failed
  | _ => True

instance (s : State) : (op : Op) → Decidable (op.Fits s)
  | .start _ => inferInstanceAs (Decidable (∀ r < s.started, _))
  | .finish r => inferInstanceAs (Decidable ((s.calls r).index = 0))
  | .dequeue => inferInstanceAs
      (Decidable ((∀ r < s.started, _) ∧ ∀ r ∈ (s.buffers 0).request, _))
  | .queryFails _ => isTrue trivial
  | .fill _ _ => isTrue trivial

/-- The buffer of the call holds the request. -/
def State.Holds (s : State) (r : ℕ) : Prop := (s.buffers (s.calls r).index).request = some r

instance (s : State) (r : ℕ) : Decidable (s.Holds r) := inferInstanceAs (Decidable (_ = _))

/-- How often the request was returned, and the once that it will be. -/
def State.account (s : State) (r : ℕ) : ℕ := s.timesReturned r + if s.Holds r then 1 else 0

/-- A request that is filled is in the buffer of its call or was returned, once. -/
structure CallOk (s : State) (r : ℕ) : Prop where
  new : s.started ≤ r → (s.calls r).phase = .failed ∧ s.timesReturned r = 0
  bounded : (s.calls r).filled ≤ (s.calls r).streams
  begun : (s.calls r).phase = .underway → s.Holds r → 0 < (s.calls r).filled
  reserved : (s.calls r).phase = .underway → (s.buffers (s.calls r).index).active = false
  filling : (s.calls r).phase = .underway → (s.calls r).filled < (s.calls r).streams →
    s.timesReturned r = 0
  filled : (s.calls r).phase = .underway → s.allFilled r = true → 0 < (s.calls r).filled →
    s.account r = 1
  succeeded : (s.calls r).phase = .succeeded → s.account r = 1 ∧ (s.calls r).index = 0 ∧
    (s.Holds r → (s.buffers (s.calls r).index).active = true)
  complete : (s.calls r).phase = .succeeded → s.allFilled r = true

/-- No two calls that are under way have the same buffer. -/
structure Tidy (s : State) : Prop where
  size : 0 < s.size
  published : ∀ i r, (s.buffers i).request = some r → r < s.started ∧ (s.calls r).index = i
  calls : ∀ r, CallOk s r
  apart : ∀ r r', (s.calls r).phase = .underway → (s.calls r').phase = .underway →
    (s.calls r).index = (s.calls r').index → r = r'
  returned : ∀ x ∈ s.returned, x.filled = true

variable {s t : State} {r r' i n : ℕ} {c : EnqueueCall} {b : RequestContext} {op : Op} {ops : List Op}

@[simp] theorem setCall_self : (s.setCall r c).calls r = c := Function.update_self ..

@[simp] theorem setCall_of_ne (h : r' ≠ r) : (s.setCall r c).calls r' = s.calls r' :=
  Function.update_of_ne h ..

@[simp] theorem setBuffer_self : (s.setBuffer i b).buffers i = b := Function.update_self ..

@[simp] theorem setBuffer_of_ne {j : ℕ} (h : j ≠ i) : (s.setBuffer i b).buffers j = s.buffers j :=
  Function.update_of_ne h ..

@[simp] theorem setCall_buffers : (s.setCall r c).buffers = s.buffers := rfl

@[simp] theorem setCall_timesReturned :
    (s.setCall r c).timesReturned r' = s.timesReturned r' := rfl

@[simp] theorem setBuffer_calls : (s.setBuffer i b).calls = s.calls := rfl

@[simp] theorem setBuffer_timesReturned :
    (s.setBuffer i b).timesReturned r' = s.timesReturned r' := rfl

theorem CallOk.of_failed (hphase : (s.calls r).phase = .failed)
    (hbounded : (s.calls r).filled ≤ (s.calls r).streams)
    (hnew : s.started ≤ r → s.timesReturned r = 0) : CallOk s r where
  new := fun hr => ⟨hphase, hnew hr⟩
  bounded := hbounded
  begun := fun h => nomatch hphase.symm.trans h
  reserved := fun h => nomatch hphase.symm.trans h
  filling := fun h => nomatch hphase.symm.trans h
  filled := fun h => nomatch hphase.symm.trans h
  succeeded := fun h => nomatch hphase.symm.trans h
  complete := fun h => nomatch hphase.symm.trans h

theorem account_congr (htimes : t.timesReturned r = s.timesReturned r)
    (hholds : t.Holds r ↔ s.Holds r) : t.account r = s.account r := by
  rw [State.account, State.account, htimes]
  simp only [hholds]

/-- What is said of a call is said of it, its buffer, and how often its request was returned. -/
theorem CallOk.congr (h : CallOk s r) (hcall : t.calls r = s.calls r)
    (hbuffer : t.buffers (s.calls r).index = s.buffers (s.calls r).index)
    (htimes : t.timesReturned r = s.timesReturned r) (hstarted : s.started ≤ t.started) :
    CallOk t r := by
  have hholds : t.Holds r ↔ s.Holds r := by rw [State.Holds, State.Holds, hcall, hbuffer]
  have haccount : t.account r = s.account r := account_congr htimes hholds
  refine ⟨fun hr => ?_, ?_, ?_, ?_, ?_, ?_, ?_, ?_⟩
  · rw [hcall, htimes]
    exact h.new (hstarted.trans hr)
  · rw [hcall]
    exact h.bounded
  · rw [hcall, hholds]
    exact h.begun
  · rw [hcall, hbuffer]
    exact h.reserved
  · rw [hcall, htimes]
    exact h.filling
  · rw [State.allFilled, hcall, haccount]
    exact h.filled
  · rw [hcall, haccount, hbuffer, hholds]
    exact h.succeeded
  · rw [State.allFilled, hcall]
    exact h.complete

/-- A succeeded request is not in a buffer that another call has. -/
theorem Tidy.not_holds (h : Tidy s) (hr : (s.calls r).phase = .underway)
    (hr' : (s.calls r').phase = .succeeded) (hindex : (s.calls r').index = (s.calls r).index) :
    ¬ s.Holds r' := by
  intro hholds
  have hactive := ((h.calls r').succeeded hr').2.2 hholds
  rw [hindex, (h.calls r).reserved hr] at hactive
  cases hactive

/-- What a call does to its buffer leaves the other calls as they are. -/
theorem Tidy.other (h : Tidy s) (hr : (s.calls r).phase = .underway) (hne : r' ≠ r)
    (hcall : t.calls r' = s.calls r') (hstarted : t.started = s.started)
    (hreturned : t.returned = s.returned)
    (hbuffer : ∀ i ≠ (s.calls r).index, t.buffers i = s.buffers i)
    (hrequest : (t.buffers (s.calls r).index).request = some r' →
      (s.buffers (s.calls r).index).request = some r') : CallOk t r' := by
  have htimes : t.timesReturned r' = s.timesReturned r' := by
    rw [State.timesReturned, State.timesReturned, hreturned]
  by_cases hindex : (s.calls r').index = (s.calls r).index
  · cases hphase : (s.calls r').phase with
    | underway => exact absurd (h.apart r' r hphase hr hindex) hne
    | failed =>
      refine .of_failed (hcall ▸ hphase) (hcall ▸ (h.calls r').bounded) fun hnew => ?_
      rw [htimes]
      exact ((h.calls r').new (hstarted ▸ hnew)).2
    | succeeded =>
      have hnot : ¬ s.Holds r' := h.not_holds hr hphase hindex
      have hnot' : ¬ t.Holds r' := by
        rw [State.Holds, hcall, hindex]
        exact fun heq => hnot (by rw [State.Holds, hindex]; exact hrequest heq)
      obtain ⟨haccount, hzero, -⟩ := (h.calls r').succeeded hphase
      have hphase' : (t.calls r').phase = .succeeded := hcall ▸ hphase
      have hunder : (t.calls r').phase ≠ .underway := fun hu => nomatch hphase'.symm.trans hu
      have haccount' : t.account r' = 1 := by
        rw [State.account, if_neg hnot', htimes]
        rwa [State.account, if_neg hnot] at haccount
      refine ⟨fun hnew => ?_, hcall ▸ (h.calls r').bounded, fun hu => absurd hu hunder,
        fun hu => absurd hu hunder, fun hu => absurd hu hunder, fun hu => absurd hu hunder,
        fun _ => ⟨haccount', hcall ▸ hzero, fun hh => absurd hh hnot'⟩, fun _ => ?_⟩
      · exact nomatch hphase.symm.trans ((h.calls r').new (hstarted ▸ hnew)).1
      · rw [State.allFilled, hcall]
        exact (h.calls r').complete hphase
  · exact (h.calls r').congr hcall (hbuffer _ hindex) htimes hstarted.ge

theorem Tidy.init (hn : 0 < n) : Tidy (State.init n) where
  size := hn
  published := nofun
  calls := fun _ => .of_failed rfl le_rfl fun _ => rfl
  apart := fun _ _ h => nomatch h
  returned := nofun

/-- A free buffer is chosen that no call has. -/
theorem Tidy.start (h : Tidy s) (hfits : (Op.start n).Fits s) : Tidy (s.start n) := by
  cases hfree : s.freeIndex with
  | none =>
    rw [State.start, hfree]
    exact h
  | some i =>
    obtain ⟨t, ht⟩ : ∃ t, t = { s.setCall s.started ⟨n, i, 0, .underway⟩ with
      started := s.started + 1 } := ⟨_, rfl⟩
    have hstart : s.start n = t := by rw [State.start, hfree, ht]
    have hinactive : (s.buffers i).active = false := by
      simpa using List.find?_some hfree
    have hself : t.calls s.started = ⟨n, i, 0, .underway⟩ := ht ▸ setCall_self
    have hold : ∀ r, r ≠ s.started → t.calls r = s.calls r := fun r hr => ht ▸ setCall_of_ne hr
    have hchosen : ∀ r, (s.calls r).phase = .underway → (s.calls r).index ≠ i := by
      intro r hphase hindex
      have hr : r < s.started := by
        by_contra hge
        exact nomatch hphase.symm.trans ((h.calls r).new (not_lt.mp hge)).1
      exact hfits r hr ⟨hr, hphase⟩ (hfree.trans (congrArg some hindex.symm))
    have hbuffers : t.buffers = s.buffers := ht ▸ rfl
    have hreturned : t.returned = s.returned := ht ▸ rfl
    have hstarted : t.started = s.started + 1 := ht ▸ rfl
    have htimes : ∀ r, t.timesReturned r = s.timesReturned r := fun r => by
      rw [State.timesReturned, hreturned, State.timesReturned]
    rw [hstart]
    refine ⟨ht ▸ h.size, fun j r hj => ?_, fun r => ?_, fun r r' hr hr' hindex => ?_,
      hreturned ▸ h.returned⟩
    · obtain ⟨hr, hindex⟩ := h.published j r (hbuffers ▸ hj)
      exact ⟨hstarted ▸ Nat.lt_succ_of_lt hr, by rw [hold r hr.ne]; exact hindex⟩
    · by_cases hr : r = s.started
      · have hzero : t.timesReturned r = 0 := by
          rw [htimes]
          exact ((h.calls r).new hr.ge).2
        have hcall : t.calls r = ⟨n, i, 0, .underway⟩ := hr ▸ hself
        -- nobody has published a request that is new
        have hnot : ¬ t.Holds r := by
          rw [State.Holds, hbuffers]
          exact fun hholds => absurd (h.published _ r hholds).1 (hr ▸ lt_irrefl s.started)
        refine ⟨fun hnew => absurd hnew (by omega), ?_, fun _ hholds => absurd hholds hnot,
          fun _ => ?_, fun _ _ => hzero, ?_, ?_, ?_⟩
        · rw [hcall]
          exact Nat.zero_le n
        · rw [hcall, hbuffers]
          exact hinactive
        · rw [hcall]
          exact fun _ _ hpos => absurd hpos (lt_irrefl 0)
        · rw [hcall]
          exact nofun
        · rw [hcall]
          exact nofun
      · refine (h.calls r).congr (hold r hr) (hbuffers ▸ rfl) (htimes r) (by omega)
    · by_cases hrs : r = s.started <;> by_cases hrs' : r' = s.started
      · exact hrs.trans hrs'.symm
      · rw [hrs, hself, hold r' hrs'] at hindex
        rw [hold r' hrs'] at hr'
        exact absurd hindex.symm (hchosen r' hr')
      · rw [hrs', hself, hold r hrs] at hindex
        rw [hold r hrs] at hr
        exact absurd hindex (hchosen r hr)
      · rw [hold r hrs] at hr hindex
        rw [hold r' hrs'] at hr' hindex
        exact h.apart r r' hr hr' hindex

/-- The regions of one call: they change the call and its buffer, and publish no other request. -/
theorem Tidy.touch (h : Tidy s) (hr : s.Underway r) {c : EnqueueCall} {b : RequestContext}
    (ht : t = (s.setBuffer (s.calls r).index b).setCall r c) (hindex : c.index = (s.calls r).index)
    (hrequest : b.request = some r ∨ b.request = (s.buffers (s.calls r).index).request)
    (hcall : CallOk t r) : Tidy t := by
  have hself : t.calls r = c := ht ▸ setCall_self
  have hold : ∀ r' ≠ r, t.calls r' = s.calls r' := fun r' hne => ht ▸ setCall_of_ne hne
  have hbuffer : t.buffers (s.calls r).index = b := ht ▸ setBuffer_self
  have hother : ∀ i ≠ (s.calls r).index, t.buffers i = s.buffers i :=
    fun i hi => ht ▸ setBuffer_of_ne hi
  have hstarted : t.started = s.started := ht ▸ rfl
  have hreturned : t.returned = s.returned := ht ▸ rfl
  have hindexes : ∀ r', (t.calls r').index = (s.calls r').index := by
    intro r'
    by_cases hne : r' = r
    · rw [hne, hself, hindex]
    · rw [hold r' hne]
  have hunder : ∀ r', (t.calls r').phase = .underway → (s.calls r').phase = .underway := by
    intro r' hr'
    by_cases hne : r' = r
    · exact hne ▸ hr.2
    · rwa [hold r' hne] at hr'
  have hrequests : ∀ r' ≠ r, b.request = some r' →
      (s.buffers (s.calls r).index).request = some r' := by
    intro r' hne hb
    rcases hrequest with hrequest | hrequest
    · exact absurd (Option.some.inj (hb.symm.trans hrequest)) hne
    · exact hrequest ▸ hb
  refine ⟨ht ▸ h.size, fun i r' hi => ?_, fun r' => ?_, fun r' r'' hr' hr'' heq => ?_,
    hreturned ▸ h.returned⟩
  · rw [hstarted, hindexes]
    by_cases hne : i = (s.calls r).index
    · rw [hne, hbuffer] at hi
      by_cases hself : r' = r
      · exact ⟨hself ▸ hr.1, by rw [hself, hne]⟩
      · exact hne ▸ h.published _ r' (hrequests r' hself hi)
    · exact h.published i r' (hother i hne ▸ hi)
  · by_cases hne : r' = r
    · exact hne ▸ hcall
    · exact h.other hr.2 hne (hold r' hne) hstarted hreturned hother
        fun hi => hrequests r' hne (hbuffer ▸ hi)
  · rw [hindexes, hindexes] at heq
    exact h.apart r' r'' (hunder r' hr') (hunder r'' hr'') heq

theorem Tidy.queryFails (h : Tidy s) (hs : s.queryFails r = some t) : Tidy t := by
  obtain ⟨⟨hr, -⟩, ht⟩ := Option.ite_none_right_eq_some.mp hs
  obtain rfl := Option.some.inj ht
  refine h.touch hr rfl rfl (.inr rfl) (.of_failed (by rw [setCall_self]) ?_ fun hnew => ?_)
  · rw [setCall_self]
    exact (h.calls r).bounded
  · exact absurd hr.1 (not_lt.mpr hnew)

/-- While there are buffers to fill, the request was not returned; with the last one it is in its
buffer. -/
theorem Tidy.fill {ok : Bool} (h : Tidy s) (hs : s.fill r ok = some t) : Tidy t := by
  obtain ⟨⟨hr, hlt⟩, ht⟩ := Option.ite_none_right_eq_some.mp hs
  have ht := (Option.some.inj ht).symm
  have hzero : t.timesReturned r = 0 := ht ▸ (h.calls r).filling hr.2 hlt
  have hold : ¬ t.started ≤ r := ht ▸ not_le.mpr hr.1
  cases ok with
  | false =>
    refine h.touch hr ht rfl (.inl rfl) (.of_failed (by simp [ht]) ?_ fun _ => hzero)
    simpa [ht] using hlt.le
  | true =>
    have hholds : t.Holds r := by simp [State.Holds, ht]
    have hphase : (t.calls r).phase = .underway := by simpa [ht] using hr.2
    have hdone : (t.calls r).phase ≠ .succeeded := fun hd => nomatch hphase.symm.trans hd
    refine h.touch hr ht rfl (.inl rfl) ⟨fun hnew => absurd hnew hold, ?_, fun _ _ => ?_, fun _ => ?_,
      fun _ _ => hzero, fun _ _ _ => ?_, fun hd => absurd hd hdone, fun hd => absurd hd hdone⟩
    · simpa [ht] using Nat.succ_le_of_lt hlt
    · simp [ht]
    · simpa [ht] using (h.calls r).reserved hr.2
    · rw [State.account, if_pos hholds, hzero]

/-- The call ends on the first buffer. -/
theorem Tidy.finish (h : Tidy s) (hfits : (Op.finish r).Fits s) (hs : s.finish r = some t) :
    Tidy t := by
  obtain ⟨⟨hr, hall, hpos⟩, ht⟩ := Option.ite_none_right_eq_some.mp hs
  have ht := (Option.some.inj ht).symm
  have hold : ¬ t.started ≤ r := ht ▸ not_le.mpr hr.1
  have hphase : (t.calls r).phase = .succeeded := by simp [ht]
  have hunder : (t.calls r).phase ≠ .underway := fun hu => nomatch hphase.symm.trans hu
  have haccount : t.account r = s.account r :=
    account_congr (ht ▸ rfl) (by simp [State.Holds, ht])
  refine h.touch hr ht rfl (.inr rfl) ⟨fun hnew => absurd hnew hold, ?_, fun hu => absurd hu hunder,
    fun hu => absurd hu hunder, fun hu => absurd hu hunder, fun hu => absurd hu hunder,
    fun _ => ⟨?_, ?_, fun _ => ?_⟩, fun _ => ?_⟩
  · simpa [ht] using (h.calls r).bounded
  · rw [haccount]
    exact (h.calls r).filled hr.2 hall hpos
  · rw [ht, setCall_self]
    exact hfits
  · simp [ht]
  · simpa [ht, State.allFilled] using hall

theorem timesReturned_dequeue (hs : s.dequeue = some t) (r : ℕ) : t.timesReturned r =
    s.timesReturned r + if (s.buffers 0).request = some r then 1 else 0 := by
  obtain ⟨-, ht⟩ := Option.ite_none_right_eq_some.mp hs
  rw [← Option.some.inj ht]
  cases hfound : (s.buffers 0).request with
  | none => simp [State.timesReturned]
  | some r' => simp [State.timesReturned, List.count_singleton]

theorem buffers_dequeue (hs : s.dequeue = some t) :
    t.buffers = (s.setBuffer 0 ⟨false, none⟩).buffers := by
  obtain ⟨-, ht⟩ := Option.ite_none_right_eq_some.mp hs
  exact Option.some.inj ht ▸ rfl

/-- A call of `DequeueRequest` that comes neither between the rounds of a call on the first buffer
nor after one that failed finds a request that has been filled, or none. -/
theorem Tidy.allFilled (h : Tidy s) (hfits : Op.dequeue.Fits s) (hr : (s.buffers 0).request = some r) :
    s.allFilled r = true := by
  obtain ⟨hstarted, hindex⟩ := h.published 0 r hr
  have hcall := h.calls r
  have hholds : s.Holds r := by rwa [State.Holds, hindex]
  cases hphase : (s.calls r).phase with
  | underway =>
    have hnot : ¬ s.Filling r := fun hf => hfits.1 r hstarted hf hindex
    have hpos := hcall.begun hphase hholds
    have hge : (s.calls r).streams ≤ (s.calls r).filled := by
      by_contra hlt
      exact hnot ⟨⟨hstarted, hphase⟩, hpos, not_le.mp hlt⟩
    exact beq_iff_eq.mpr (le_antisymm hcall.bounded hge)
  | failed => exact absurd hphase (hfits.2 r hr)
  | succeeded => exact hcall.complete hphase

/-- What is returned was published: the account of a request does not change. -/
theorem Tidy.account_dequeue (h : Tidy s) (hs : s.dequeue = some t) (r : ℕ) :
    t.account r = s.account r := by
  have hcalls : t.calls = s.calls := by
    obtain ⟨-, ht⟩ := Option.ite_none_right_eq_some.mp hs
    exact Option.some.inj ht ▸ rfl
  have hbuffers := buffers_dequeue hs
  have htimes := timesReturned_dequeue hs r
  by_cases hindex : (s.calls r).index = 0
  · have hnot : ¬ t.Holds r := by simp [State.Holds, hcalls, hindex, hbuffers]
    have hiff : s.Holds r ↔ (s.buffers 0).request = some r := by rw [State.Holds, hindex]
    rw [State.account, if_neg hnot, htimes, State.account, Nat.add_zero]
    simp only [hiff]
  · have hother : ¬ (s.buffers 0).request = some r := fun hr => hindex (h.published 0 r hr).2
    refine account_congr ?_ ?_
    · rw [htimes, if_neg hother, Nat.add_zero]
    · rw [State.Holds, State.Holds, hcalls, hbuffers, setBuffer_of_ne hindex]

/-- The request in the first buffer, if there is one, has been filled and is returned. -/
theorem Tidy.dequeue (h : Tidy s) (hfits : Op.dequeue.Fits s) (hs : s.dequeue = some t) :
    Tidy t := by
  obtain ⟨hsize, ht⟩ := Option.ite_none_right_eq_some.mp hs
  have ht := (Option.some.inj ht).symm
  have hcalls : t.calls = s.calls := ht ▸ rfl
  have hstarted : t.started = s.started := ht ▸ rfl
  have hbuffers := buffers_dequeue hs
  have hfirst : t.buffers 0 = ⟨false, none⟩ := hbuffers ▸ setBuffer_self
  have hothers : ∀ i ≠ 0, t.buffers i = s.buffers i := fun i hi => hbuffers ▸ setBuffer_of_ne hi
  have htimes := timesReturned_dequeue hs
  refine ⟨ht ▸ h.size, fun i r hi => ?_, fun r => ?_, fun r r' => ?_, fun x hx => ?_⟩
  · rw [hstarted, hcalls]
    refine h.published i r ?_
    by_cases hzero : i = 0
    · rw [hzero, hfirst] at hi
      cases hi
    · rwa [hothers i hzero] at hi
  · have hcall := h.calls r
    refine ⟨fun hnew => ?_, ?_, fun hu hholds => ?_, fun hu => ?_, fun hu hlt => ?_,
      fun hu hall hpos => ?_, fun hdone => ?_, fun hdone => ?_⟩
    · rw [hstarted] at hnew
      have hother : ¬ (s.buffers 0).request = some r :=
        fun hr => absurd (h.published 0 r hr).1 (not_lt.mpr hnew)
      rw [hcalls, htimes, if_neg hother]
      exact hcall.new hnew
    · rw [hcalls]
      exact hcall.bounded
    · rw [hcalls] at hu ⊢
      by_cases hindex : (s.calls r).index = 0
      · rw [State.Holds, hcalls, hindex, hfirst] at hholds
        cases hholds
      · rw [State.Holds, hcalls, hothers _ hindex] at hholds
        exact hcall.begun hu hholds
    · rw [hcalls] at hu ⊢
      by_cases hindex : (s.calls r).index = 0
      · rw [hindex, hfirst]
      · rw [hothers _ hindex]
        exact hcall.reserved hu
    · rw [hcalls] at hu hlt
      have hother : ¬ (s.buffers 0).request = some r :=
        fun hr => hlt.ne (beq_iff_eq.mp (h.allFilled hfits hr))
      rw [htimes, if_neg hother]
      exact hcall.filling hu hlt
    · rw [hcalls] at hu hpos
      rw [State.allFilled, hcalls] at hall
      rw [h.account_dequeue hs]
      exact hcall.filled hu hall hpos
    · rw [hcalls] at hdone
      obtain ⟨hone, hindex, -⟩ := hcall.succeeded hdone
      refine ⟨h.account_dequeue hs r ▸ hone, hcalls ▸ hindex, fun hholds => ?_⟩
      rw [State.Holds, hcalls, hindex, hfirst] at hholds
      cases hholds
    · rw [hcalls] at hdone
      rw [State.allFilled, hcalls]
      exact hcall.complete hdone
  · rw [hcalls]
    exact h.apart r r'
  · rw [ht] at hx
    rcases List.mem_append.mp hx with hx | hx
    · exact h.returned x hx
    · obtain ⟨r, hr, rfl⟩ := List.mem_map.mp hx
      exact h.allFilled hfits (Option.mem_toList.mp hr)

theorem Tidy.step (h : Tidy s) (hfits : op.Fits s) (hs : op.step s = some t) : Tidy t := by
  cases op with
  | start streams => exact Option.some.inj hs ▸ h.start hfits
  | queryFails r => exact h.queryFails hs
  | fill r ok => exact h.fill hs
  | finish r => exact h.finish hfits hs
  | dequeue => exact h.dequeue hfits hs

/-! ### Delivery -/

/-- One more call of `DequeueRequest` returns what is in the first buffer. -/
theorem Tidy.delivers (h : Tidy s) : s.Delivers := by
  refine ⟨h.returned, fun r hr hphase => ?_⟩
  obtain ⟨haccount, hindex, -⟩ := (h.calls r).succeeded hphase
  rw [State.account] at haccount
  by_cases hholds : s.Holds r
  · have hfirst : (s.buffers 0).request = some r := by rwa [State.Holds, hindex] at hholds
    obtain ⟨t, ht⟩ : ∃ t, s.dequeue = some t := ⟨_, if_pos h.size⟩
    have hrun : run Op.step (List.replicate 1 .dequeue) s = some t := by
      rw [List.replicate_one, run, Op.step, ht, Option.bind_some, run_nil]
    refine ⟨1, t, hrun, ?_⟩
    rw [timesReturned_dequeue ht, if_pos hfirst]
    rwa [if_pos hholds] at haccount
  · rw [if_neg hholds] at haccount
    exact ⟨0, s, rfl, haccount⟩

/-- **The requests are delivered** in every run in which no call begins on the buffer of another
one, each call that ends does so on the first buffer, and `DequeueRequest` comes neither between the
rounds of a call on the first buffer nor upon the request of one that failed. -/
theorem requests_run (hn : 0 < n)
    (h : Guarded Op.step (fun _ s op => op.Fits s) (State.init n) ops t) : t.Delivers := by
  have htidy : Tidy t := by
    refine Guarded.inv (I := fun _ s => Tidy s) ?_ (Tidy.init hn) h
    exact fun _ _ _ _ h hop hs => h.step hop hs
  exact htidy.delivers

/-- What is in no buffer but another one than the first is not returned any more. -/
theorem timesReturned_dequeues (hfirst : (s.buffers 0).request ≠ some r)
    (hrun : run Op.step (List.replicate n .dequeue) s = some t) :
    t.timesReturned r = s.timesReturned r := by
  induction n generalizing s with
  | zero =>
    obtain rfl := Option.some.inj hrun
    rfl
  | succ n ih =>
    obtain ⟨u, hu, ht⟩ := Option.bind_eq_some_iff.mp hrun
    have hnone : (u.buffers 0).request ≠ some r := by
      rw [buffers_dequeue hu, setBuffer_self]
      exact nofun
    rw [ih hnone ht, timesReturned_dequeue hu, if_neg hfirst, Nat.add_zero]

theorem not_delivers_of_early (h : ⟨r, false⟩ ∈ s.returned) : ¬ s.Delivers :=
  fun hall => nomatch hall.filled _ h

theorem not_delivers_of_lost (hr : r < s.started) (hphase : (s.calls r).phase = .succeeded)
    (hfirst : (s.buffers 0).request ≠ some r) (hzero : s.timesReturned r = 0) : ¬ s.Delivers := by
  intro hall
  obtain ⟨n, t, ht, hone⟩ := hall.once r hr hphase
  rw [timesReturned_dequeues hfirst ht, hzero] at hone
  exact Nat.zero_ne_one hone

/-- Two requests, one after the other, of two output buffers and of one. -/
theorem requests_run_two : ∃ t, run Op.step
    [.start 2, .fill 0 true, .fill 0 true, .finish 0, .dequeue, .start 1, .fill 1 true, .finish 1]
    (State.init 2) = some t ∧ t.Delivers := by
  obtain ⟨t, ht⟩ := Option.isSome_iff_exists.mp (show (run Op.step
    [.start 2, .fill 0 true, .fill 0 true, .finish 0, .dequeue, .start 1, .fill 1 true, .finish 1]
    (State.init 2)).isSome = true by decide +kernel)
  exact ⟨t, ht, requests_run (by decide) (Meets.guarded (by decide +kernel) ht)⟩

/-- A request is returned between the two rounds of its loop. A request with one buffer is returned
after its call has failed. The second of two requests comes to the second buffer, and is not
returned. -/
theorem requests_lost :
    (∃ t, run Op.step [.start 2, .fill 0 true, .dequeue] (State.init 1) = some t ∧ ¬ t.Delivers) ∧
      (∃ t, run Op.step [.start 1, .fill 0 false, .dequeue] (State.init 1) = some t ∧ ¬ t.Delivers) ∧
      ∃ t, run Op.step [.start 1, .fill 0 true, .finish 0, .start 1, .fill 1 true, .finish 1]
        (State.init 2) = some t ∧ ¬ t.Delivers := by
  refine ⟨?_, ?_, ?_⟩
  · obtain ⟨t, ht, hearly⟩ := Option.map_eq_some_iff.mp (show (run Op.step
      [.start 2, .fill 0 true, .dequeue] (State.init 1)).map State.returned =
        some [⟨0, false⟩] by decide +kernel)
    exact ⟨t, ht, not_delivers_of_early (hearly ▸ List.mem_singleton_self _)⟩
  · obtain ⟨t, ht, hearly⟩ := Option.map_eq_some_iff.mp (show (run Op.step
      [.start 1, .fill 0 false, .dequeue] (State.init 1)).map State.returned =
        some [⟨0, false⟩] by decide +kernel)
    exact ⟨t, ht, not_delivers_of_early (hearly ▸ List.mem_singleton_self _)⟩
  · obtain ⟨t, ht, hlost⟩ := Option.map_eq_some_iff.mp (show (run Op.step
      [.start 1, .fill 0 true, .finish 0, .start 1, .fill 1 true, .finish 1] (State.init 2)).map
        (fun s => (s.started, (s.calls 1).phase, (s.buffers 0).request, s.timesReturned 1)) =
          some (2, .succeeded, some 0, 0) by decide +kernel)
    obtain ⟨hstarted, hphase, hfirst, hzero⟩ : t.started = 2 ∧ (t.calls 1).phase = .succeeded ∧
        (t.buffers 0).request = some 0 ∧ t.timesReturned 1 = 0 := by
      simpa using hlost
    refine ⟨t, ht, not_delivers_of_lost (hstarted ▸ Nat.one_lt_two) hphase ?_ hzero⟩
    rw [hfirst]
    decide

end AndroidVendor.Webcam.CaptureRequest
