import AndroidVendor.Lib.Family
import AndroidVendor.Mpd.Daemon

/-!
# The sessions of MPD are on their own

MPD is a family of sessions under their addresses. `DaemonOp.label` says what a call means to the
family: a step of one session, a session more or less, or a step of all of them. An observer keeps
the labels; `Machine.life` reads from them what a session was given since it was created.

`MPD_periodCheck` counts the sessions it has served, and stops where `g_totalUserNum` of them were.

## Main results

* `periodLoop_spec` — the loop serves every session once, if it is given their number
* `sessions_run` — in every run a session is what it would be alone, with its own calls and with a
  turn of `MPD_periodCheck` for every tick since it was created; `g_totalUserNum` is the number of
  sessions
-/

namespace AndroidVendor

namespace Mpd

open Machine

/-- What a call means to the sessions. -/
def DaemonOp.label (d : Daemon) : DaemonOp → FamilyOp ℕ SessionOp Session
  | .creatUserSession uid mem =>
    match d.freeIndex, mem with
    | some idx, some mem => .start idx (mem.userInfoInit uid d.time)
    | _, _ => .idle
  | .deleteUserSession addressID => .stop addressID
  | .parseMPData addressID buffer => .one addressID (.parseMPData buffer)
  | .sendNewTransData addressID data => .one addressID (.sendNewTransData data)
  | .subFlowStateInd addressID deviceId state => .one addressID (.subFlowStateInd deviceId state)
  | .periodCheck => .all (.periodCheck (u32 (d.time + 1)))

/-- The observer. -/
def DaemonOp.note (op : DaemonOp) (d _d' : Daemon) (history : List (FamilyOp ℕ SessionOp Session)) :
    List (FamilyOp ℕ SessionOp Session) :=
  history ++ [op.label d]

namespace Daemon

variable {d d' : Daemon} {i j : ℕ} {s : Session}

/-- The number of sessions. -/
def users (d : Daemon) : ℕ := (List.range 100).countP fun idx => (d.pUserInfo idx).isSome

@[simp] theorem setSession_self (d : Daemon) (i : ℕ) (x : Option Session) :
    (d.setSession i x).pUserInfo i = x := Function.update_self ..

theorem setSession_of_ne (d : Daemon) (x : Option Session) (h : j ≠ i) :
    (d.setSession i x).pUserInfo j = d.pUserInfo j := Function.update_of_ne h ..

@[simp] theorem setSession_totalUserNum (d : Daemon) (i : ℕ) (x : Option Session) :
    (d.setSession i x).totalUserNum = d.totalUserNum := rfl

/-- The sessions of two tables stand at the same addresses. -/
theorem users_congr (h : ∀ i, (d'.pUserInfo i).isSome = (d.pUserInfo i).isSome) :
    d'.users = d.users := by
  rw [users, users]
  exact List.countP_congr fun i _ => by rw [h i]

/-- An entry of the table is rewritten. -/
theorem users_setSession (hi : i < 100) (x : Option Session) :
    (d.setSession i x).users + (d.pUserInfo i).toList.length = d.users + x.toList.length := by
  have hsplit : ∀ e : Daemon, e.users = ((List.range 100).erase i).countP
      (fun idx => (e.pUserInfo idx).isSome) + (e.pUserInfo i).toList.length := by
    intro e
    have hperm := (List.perm_cons_erase (List.mem_range.mpr hi)).countP_eq
      fun idx => (e.pUserInfo idx).isSome
    rw [users, hperm, List.countP_cons]
    cases e.pUserInfo i <;> rfl
  have hrest : ((List.range 100).erase i).countP
      (fun idx => ((d.setSession i x).pUserInfo idx).isSome) =
      ((List.range 100).erase i).countP fun idx => (d.pUserInfo idx).isSome := by
    refine List.countP_congr fun j hj => ?_
    rw [setSession_of_ne d x (List.nodup_range.mem_erase_iff.mp hj).1]
  rw [hsplit (d.setSession i x), hsplit d, hrest, setSession_self]
  omega

theorem users_le (d : Daemon) : d.users ≤ 100 := by
  have hle := List.countP_le_length (l := List.range 100) (p := fun idx => (d.pUserInfo idx).isSome)
  rwa [List.length_range] at hle

/-! ### The loop of `MPD_periodCheck` -/

/-- If no more sessions are counted than there are, the loop serves each of them. -/
theorem periodLoop_spec {idxs : List ℕ} {n : ℕ} (hnodup : idxs.Nodup)
    (htotal : d.totalUserNum = n + idxs.countP fun idx => (d.pUserInfo idx).isSome)
    (h : periodLoop idxs n d = some d') :
    d'.time = d.time ∧ d'.totalUserNum = d.totalUserNum ∧
      (∀ i ∈ idxs, d'.pUserInfo i = (d.pUserInfo i).bind Session.periodTurn ∧
        (d'.pUserInfo i).isSome = (d.pUserInfo i).isSome) ∧
      ∀ i, i ∉ idxs → d'.pUserInfo i = d.pUserInfo i := by
  induction idxs generalizing n d with
  | nil =>
    obtain rfl := Option.some.inj h
    exact ⟨rfl, rfl, fun i hi => absurd hi List.not_mem_nil, fun _ _ => rfl⟩
  | cons idx idxs ih =>
    obtain ⟨hout, hnodup⟩ := List.nodup_cons.mp hnodup
    rw [periodLoop] at h
    rw [List.countP_cons] at htotal
    cases hs : d.pUserInfo idx with
    | none =>
      rw [hs] at h htotal
      obtain ⟨htime, hnum, hin, hrest⟩ := ih hnodup htotal h
      refine ⟨htime, hnum, fun i hi => ?_, fun i hi => hrest i fun hmem => hi (.tail _ hmem)⟩
      rcases List.mem_cons.mp hi with rfl | hi
      · rw [hrest i hout, hs]
        exact ⟨rfl, rfl⟩
      · exact hin i hi
    | some s =>
      rw [hs] at h htotal
      simp only [Option.isSome_some, if_true] at htotal
      dsimp only at h
      rw [if_neg (by omega)] at h
      obtain ⟨s', hs', h⟩ := Option.bind_eq_some_iff.mp h
      -- the rest of the table is as it was
      have hsame : ∀ j ∈ idxs, (d.setSession idx (some s')).pUserInfo j = d.pUserInfo j :=
        fun j hj => setSession_of_ne d _ fun heq => hout (heq ▸ hj)
      have hcount : (idxs.countP fun j => ((d.setSession idx (some s')).pUserInfo j).isSome) =
          idxs.countP fun j => (d.pUserInfo j).isSome :=
        List.countP_congr fun j hj => by rw [hsame j hj]
      obtain ⟨htime, hnum, hin, hrest⟩ := ih (n := n + 1) hnodup
        (by rw [setSession_totalUserNum, hcount]; omega) h
      refine ⟨htime, hnum, fun i hi => ?_, fun i hi => ?_⟩
      · rcases List.mem_cons.mp hi with rfl | hi
        · rw [hrest i hout, setSession_self, hs]
          exact ⟨hs'.symm, rfl⟩
        · rw [← hsame i hi]
          exact hin i hi
      · rw [hrest i fun hmem => hi (.tail _ hmem)]
        exact setSession_of_ne d _ fun heq => hi (heq ▸ List.mem_cons_self)

end Daemon

/-! ### The invariant -/

/-- The table after the calls with these labels. -/
structure Tabled (d : Daemon) (history : List (FamilyOp ℕ SessionOp Session)) : Prop where
  sessions : ∀ i, d.pUserInfo i = family SessionOp.step history i
  total : d.totalUserNum = d.users
  inside : ∀ i, 100 ≤ i → d.pUserInfo i = none

section Step

variable {d d' : Daemon} {history : List (FamilyOp ℕ SessionOp Session)}

theorem tabled_init : Tabled {} [] where
  sessions _ := rfl
  total := by decide
  inside _ _ := rfl

/-- The entry at an address is rewritten, and nothing else. -/
theorem Tabled.write (h : Tabled d history) {i : ℕ} (hi : i < 100) (x : Option Session)
    {op : FamilyOp ℕ SessionOp Session} (hp : d'.pUserInfo = (d.setSession i x).pUserInfo)
    (hself : op.acts SessionOp.step i (d.pUserInfo i) = x)
    (hother : ∀ j, j ≠ i → op.acts SessionOp.step j (d.pUserInfo j) = d.pUserInfo j)
    (htotal : d'.totalUserNum + (d.pUserInfo i).toList.length = d.users + x.toList.length) :
    Tabled d' (history ++ [op]) where
  sessions j := by
    rw [hp, family_concat, ← h.sessions j]
    by_cases hj : j = i
    · rw [hj, hself, Daemon.setSession_self]
    · rw [hother j hj, Daemon.setSession_of_ne d x hj]
  total := by
    have hwrite := d.users_setSession hi x
    have husers : d'.users = (d.setSession i x).users := Daemon.users_congr fun j => by rw [hp]
    omega
  inside j hj := by
    rw [hp, Daemon.setSession_of_ne d x (by omega)]
    exact h.inside j hj

/-- Nothing happens to the sessions. -/
theorem Tabled.idle (h : Tabled d history) {op : FamilyOp ℕ SessionOp Session}
    (hp : d'.pUserInfo = d.pUserInfo) (ht : d'.totalUserNum = d.totalUserNum)
    (hop : ∀ j, op.acts SessionOp.step j (d.pUserInfo j) = d.pUserInfo j) :
    Tabled d' (history ++ [op]) where
  sessions j := by rw [hp, family_concat, ← h.sessions j, hop j]
  total := by
    rw [ht, h.total]
    exact (Daemon.users_congr fun j => by rw [hp]).symm
  inside j hj := by
    rw [hp]
    exact h.inside j hj

theorem Tabled.creat (h : Tabled d history) (uid : ℕ) (mem : Option Session) :
    Tabled (d.creatUserSession uid mem).2
      (history ++ [(DaemonOp.creatUserSession uid mem).label d]) := by
  cases hfree : d.freeIndex with
  | none =>
    simp only [Daemon.creatUserSession, DaemonOp.label, hfree]
    exact h.idle rfl rfl fun _ => rfl
  | some idx =>
    cases mem with
    | none =>
      simp only [Daemon.creatUserSession, DaemonOp.label, hfree]
      exact h.idle rfl rfl fun _ => rfl
    | some mem =>
      simp only [Daemon.creatUserSession, DaemonOp.label, hfree]
      have hidx : idx < 100 := List.mem_range.mp (List.mem_of_find?_eq_some hfree)
      have hnone : d.pUserInfo idx = none := by simpa using List.find?_some hfree
      refine h.write hidx _ rfl (if_pos rfl) (fun j hj => if_neg hj) ?_
      have hle := (d.setSession idx (some (mem.userInfoInit uid d.time))).users_le
      have hwrite := d.users_setSession hidx (some (mem.userInfoInit uid d.time))
      have htotal := h.total
      rw [hnone] at hwrite ⊢
      simp only [Option.toList_none, Option.toList_some, List.length_nil, List.length_singleton]
        at hwrite ⊢
      have hcut : u32 (d.totalUserNum + 1) = d.totalUserNum + 1 := by
        rw [u32]
        omega
      rw [hcut]
      omega

theorem Tabled.delete (h : Tabled d history) {addressID : ℕ} (ha : addressID < 100)
    (hs : d.deleteUserSession addressID = some d') :
    Tabled d' (history ++ [.stop addressID]) := by
  rw [Daemon.deleteUserSession] at hs
  -- without a session at the address nothing happens
  have hnothing : d.pUserInfo addressID = none → Tabled d (history ++ [.stop addressID]) := by
    intro hnone
    refine h.idle rfl rfl fun j => ?_
    rw [FamilyOp.acts]
    split
    · next heq => rw [heq, hnone]
    · rfl
  split at hs
  · next hzero =>
    obtain rfl := Option.some.inj hs
    refine hnothing ?_
    have hwrite := d.users_setSession ha none
    have htotal := h.total
    have hlen : (d.pUserInfo addressID).toList.length = 0 := by
      simp only [Option.toList_none, List.length_nil] at hwrite
      omega
    exact Option.toList_eq_nil_iff.mp (List.length_eq_zero_iff.mp hlen)
  · next hne =>
    cases hsome : d.pUserInfo addressID with
    | none =>
      rw [hsome] at hs
      obtain rfl := Option.some.inj hs
      exact hnothing hsome
    | some s =>
      rw [hsome] at hs
      obtain ⟨s', -, rfl⟩ := Option.map_eq_some_iff.mp hs
      refine h.write ha none rfl (if_pos rfl) (fun j hj => if_neg hj) ?_
      have htotal := h.total
      rw [hsome]
      simp only [Option.toList_none, Option.toList_some, List.length_nil, List.length_singleton]
      omega

theorem Tabled.call (h : Tabled d history) {addressID : ℕ} (ha : addressID < 100) {op : SessionOp}
    {lost : List Msg} (hs : d.call addressID op lost = some d') :
    Tabled d' (history ++ [.one addressID op]) := by
  rw [Daemon.call] at hs
  cases hsome : d.pUserInfo addressID with
  | none =>
    rw [hsome] at hs
    obtain rfl := Option.some.inj hs
    refine h.idle rfl rfl fun j => ?_
    rw [FamilyOp.acts]
    split
    · next heq => rw [heq, hsome, Option.bind_none]
    · rfl
  | some s =>
    rw [hsome] at hs
    obtain ⟨s', hstep, rfl⟩ := Option.map_eq_some_iff.mp hs
    refine h.write ha (some s') rfl ?_ (fun j hj => if_neg hj) ?_
    · rw [FamilyOp.acts, if_pos rfl, hsome, Option.bind_some, hstep]
    · rw [Daemon.setSession_totalUserNum, h.total, hsome]
      rfl

theorem Tabled.periodCheck (h : Tabled d history) (hs : d.periodCheck = some d') :
    Tabled d' (history ++ [.all (.periodCheck (u32 (d.time + 1)))]) := by
  have hsome : ∀ i, (d.tick.pUserInfo i).isSome = (d.pUserInfo i).isSome := fun i =>
    Option.isSome_map
  have htotal : d.tick.totalUserNum =
      0 + (List.range 100).countP fun idx => (d.tick.pUserInfo idx).isSome := by
    rw [Nat.zero_add]
    exact h.total.trans (Daemon.users_congr hsome).symm
  obtain ⟨-, hnum, hin, hrest⟩ := Daemon.periodLoop_spec List.nodup_range htotal hs
  have hsome' : ∀ i, (d'.pUserInfo i).isSome = (d.pUserInfo i).isSome := by
    intro i
    rcases Nat.lt_or_ge i 100 with hi | hi
    · rw [(hin i (List.mem_range.mpr hi)).2, hsome i]
    · rw [hrest i (by simpa using hi), hsome i]
  refine ⟨fun i => ?_, ?_, fun i hi => ?_⟩
  · rw [family_concat, ← h.sessions i, FamilyOp.acts]
    rcases Nat.lt_or_ge i 100 with hi | hi
    · rw [(hin i (List.mem_range.mpr hi)).1, Daemon.tick, Option.bind_map]
      rfl
    · rw [hrest i (by simpa using hi), h.inside i hi]
      exact Option.map_eq_none_iff.mpr (h.inside i hi)
  · rw [hnum, Daemon.users_congr hsome']
    exact h.total
  · have hnone := hsome' i
    rw [h.inside i hi] at hnone
    simpa using hnone

/-- **One call** keeps the table. -/
theorem Tabled.step {op : DaemonOp} (h : Tabled d history) (hs : op.step d = some d') :
    Tabled d' (history ++ [op.label d]) := by
  cases op with
  | creatUserSession uid mem =>
    obtain rfl := Option.some.inj hs
    exact h.creat uid mem
  | deleteUserSession addressID =>
    rw [DaemonOp.step, Option.ite_none_right_eq_some] at hs
    exact h.delete hs.1 hs.2
  | parseMPData addressID buffer =>
    rw [DaemonOp.step, Option.ite_none_right_eq_some] at hs
    exact h.call hs.1 hs.2
  | sendNewTransData addressID data =>
    rw [DaemonOp.step, Option.ite_none_right_eq_some] at hs
    exact h.call hs.1 hs.2
  | subFlowStateInd addressID deviceId state =>
    rw [DaemonOp.step, Option.ite_none_right_eq_some] at hs
    exact h.call hs.1 hs.2
  | periodCheck => exact h.periodCheck hs

/-- What a call does to the session at an address. -/
theorem Tabled.acts {op : DaemonOp} (h : Tabled d history) (hs : op.step d = some d') (i : ℕ) :
    d'.pUserInfo i = (op.label d).acts SessionOp.step i (d.pUserInfo i) := by
  rw [(h.step hs).sessions i, family_concat, ← h.sessions i]

end Step

/-! ### Runs -/

theorem tabled_run {ops : List DaemonOp} {d : Daemon} {history : List (FamilyOp ℕ SessionOp Session)}
    (hrun : run (observe DaemonOp.step DaemonOp.note) ops ({}, []) = some (d, history)) :
    Tabled d history := by
  refine run_inv (I := fun p => Tabled p.1 p.2) (fun op p p' h hs => ?_) tabled_init hrun
  obtain ⟨hstep, hnote⟩ := observe_eq_some.mp hs
  rw [hnote]
  exact h.step hstep

/-- **The sessions are on their own.** After every run of MPD `g_totalUserNum` is the number of
sessions, and the session at an address is what its own calls and the ticks since it was created make
of it. -/
theorem sessions_run (ops : List DaemonOp) (d : Daemon)
    (history : List (FamilyOp ℕ SessionOp Session))
    (hrun : run (observe DaemonOp.step DaemonOp.note) ops ({}, []) = some (d, history)) :
    d.totalUserNum = d.users ∧ ∀ i, d.pUserInfo i =
      (life history i).bind fun p => run SessionOp.step p.2 p.1 := by
  have h := tabled_run hrun
  refine ⟨h.total, fun i => ?_⟩
  rw [h.sessions i]
  exact family_eq history i

/-- Two sessions are created, one of them has a packet to send on subflow 0, and the other one is
deleted after a tick. -/
def twoSessions : List DaemonOp :=
  [.creatUserSession 7 (some {}), .creatUserSession 8 (some {}), .subFlowStateInd 1 1 3,
    .sendNewTransData 1 ⟨1, List.replicate 12 0⟩, .periodCheck, .deleteUserSession 0, .periodCheck]

theorem sessions_run_two : ∃ (d : Daemon) (history : List (FamilyOp ℕ SessionOp Session)),
    (d.pUserInfo 0).isNone = true ∧ (d.pUserInfo 1).isSome = true ∧ d.totalUserNum = d.users ∧
      d.pUserInfo 1 = (life history 1).bind fun p => run SessionOp.step p.2 p.1 := by
  have heval : (run (observe DaemonOp.step DaemonOp.note) twoSessions ({}, [])).map
      (fun p => ((p.1.pUserInfo 0).isNone, (p.1.pUserInfo 1).isSome)) = some (true, true) := by
    decide +kernel
  obtain ⟨⟨d, history⟩, hrun, hproj⟩ := Option.map_eq_some_iff.mp heval
  obtain ⟨hnone, hsome⟩ := Prod.mk.inj hproj
  have h := sessions_run twoSessions d history hrun
  exact ⟨d, history, hnone, hsome, h.1, h.2 1⟩

end Mpd

end AndroidVendor
