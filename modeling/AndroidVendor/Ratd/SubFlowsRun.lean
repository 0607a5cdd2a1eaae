import AndroidVendor.Mpd.StateIndRun
import AndroidVendor.Ratd.SubFlows

/-!
# Do ratd and MPD agree on the active subflows?

Which subflows are active is kept three times: in the flow table of ratd, in the flags of MPD's
session and in `activeFlowNum`. The handlers keep the three together where they tell MPD about every
subflow they touch, under its own device. They do not where multipath as a whole is switched while
subflows are active (MPD counts them as gone and keeps their flags), where a mask names more active
subflows than the one that `removeSubFlowsEvent` picks, and where a response comes for a device that
MPD does not know or a dispatcher that cannot be started.

## Main results

* `doSubFlowStateInd_flags` — what MPD makes of a notification
* `message_spec` — what every message keeps
* `agree_run` — when the three agree after every message, over whole runs
-/

namespace AndroidVendor

namespace Mpd

namespace UserInfo

variable {u v : UserInfo} {past : List Event}

/-! ### The flags -/

/-- `activeFlowNum` is the number of subflows with their flag set. -/
def Counted (u : UserInfo) : Prop := u.activeFlowNum = [0, 1, 2].countP (schdGetFlowValid u)

theorem clearDataStream_valid (hv : u.clearDataStream = some v) (i : ℕ) :
    schdGetFlowValid v i = schdGetFlowValid u i := by
  obtain ⟨s, hs, rfl⟩ := Option.map_eq_some_iff.mp hv
  rw [schdGetFlowValid, (RxStep.clearDataWin hs).schdPara]
  rfl

/-- The flags stay when multipath as a whole is switched, and count as none. -/
theorem multipathInd_flags (hv : u.multipathInd = some v) :
    v.activeFlowNum = 0 ∧ ∀ i, schdGetFlowValid v i = schdGetFlowValid u i := by
  obtain ⟨s, hs, rfl⟩ := Option.map_eq_some_iff.mp hv
  refine ⟨rfl, fun i => (clearDataStream_valid hs i).trans ?_⟩
  simp only [List.foldl_cons, List.foldl_nil, clearValidFlow_valid]

theorem shutDown_valid {f : ℕ} {isChange flagOld : Bool}
    (hv : u.shutDown f isChange flagOld = some v) (i : ℕ) :
    schdGetFlowValid v i = schdGetFlowValid u i := by
  have hcleared : ∀ j, schdGetFlowValid (((u.clearTxWin f).clearSubWin f).changeDataWinFlowId f) j =
      schdGetFlowValid u j :=
    (((Apart.refl (f + 1) u).clearTxWin (by omega)).clearSubWin (by omega)).changeDataWinFlowId.valid
  rw [shutDown] at hv
  split at hv
  · obtain ⟨s, hs, rfl⟩ := Option.map_eq_some_iff.mp hv
    have hs' : schdGetFlowValid s i = schdGetFlowValid u i := by
      split at hs
      · cases hs
        exact hcleared i
      · exact (clearDataStream_valid hs i).trans (hcleared i)
    split
    · exact hs'
    · generalize u32 (s.time + 6000) = last
      exact hs'
  · cases hv
    exact hcleared i

/-- What MPD makes of a notification: the flag of the subflow it names is set anew, the others stay,
and they are counted. -/
theorem doSubFlowStateInd_flags {deviceId state : ℕ}
    (hv : u.doSubFlowStateInd deviceId state = some v) :
    (∀ i, schdGetFlowValid v i = if (getSubFlowId deviceId).map (·.val) = some i then
      decide (state = 3) else schdGetFlowValid u i) ∧
    (deviceId = 0 → v.activeFlowNum = 0) ∧
    (deviceId ≠ 0 → (getSubFlowId deviceId).isSome ∨ Counted u → Counted v) := by
  rw [doSubFlowStateInd] at hv
  split at hv
  · next h0 =>
    subst h0
    obtain ⟨hzero, hflags⟩ := multipathInd_flags hv
    exact ⟨hflags, fun _ => hzero, fun hne => absurd rfl hne⟩
  next h0 =>
  split at hv
  · next hf =>
    cases hv
    rw [hf]
    exact ⟨fun _ => rfl, fun h => absurd h h0, fun _ h => h.resolve_left (by simp)⟩
  next f hf =>
  obtain ⟨s, hs, rfl⟩ := Option.map_eq_some_iff.mp hv
  refine ⟨fun i => ?_, fun h => absurd h h0, fun _ _ => rfl⟩
  have hset : schdGetFlowValid s i =
      schdGetFlowValid (u.schdSetFlowValid f (decide (state = 3))) i := by
    split at hs
    · cases hs
      rfl
    · exact shutDown_valid hs i
  refine hset.trans ?_
  rw [hf, Option.map_some]
  by_cases hi : i = f
  · rw [hi, schdSetFlowValid_self, if_pos rfl]
  · rw [schdSetFlowValid_of_ne u _ hi, if_neg fun h => hi (Option.some.inj h).symm]

end UserInfo

end Mpd

namespace Ratd

open Machine Mpd Mpd.UserInfo

variable {h h' : MpcHost} {i : ℕ}

/-! ### What every message keeps -/

/-- The subflow is active, as ratd sees it. -/
def MpcHost.Active (h : MpcHost) (i : ℕ) : Prop := (h.flow i).subMpStatus = 3

instance (h : MpcHost) : DecidablePred h.Active := fun _ => inferInstanceAs (Decidable (_ = _))

/-- ratd and MPD agree. -/
structure MpcHost.Agree (h : MpcHost) : Prop where
  flows : ∀ i < 3, h.Active i ↔ schdGetFlowValid h.mpd i = true
  counted : Counted h.mpd

/-- What every message keeps. -/
structure Sane (h : MpcHost) : Prop where
  sound : ∃ past, UserInfo.Sound past h.mpd
  num : h.subflowNu = [0, 1, 2].countP fun i => h.Active i

theorem mem_flows : i ∈ [0, 1, 2] ↔ i < 3 := by
  simp only [List.mem_cons, List.not_mem_nil, or_false]
  omega

/-- The same subflows are active, for ratd and for MPD. -/
structure MpcHost.Same (h h' : MpcHost) : Prop where
  mpd : h'.mpd = h.mpd
  subflowNu : h'.subflowNu = h.subflowNu
  active : ∀ j, h'.Active j ↔ h.Active j

theorem MpcHost.Same.refl (h : MpcHost) : h.Same h := ⟨rfl, rfl, fun _ => Iff.rfl⟩

theorem MpcHost.Same.trans {h'' : MpcHost} (hs : h.Same h') (hs' : h'.Same h'') : h.Same h'' :=
  ⟨hs'.mpd.trans hs.mpd, hs'.subflowNu.trans hs.subflowNu,
    fun j => (hs'.active j).trans (hs.active j)⟩

/-- The status of one subflow is set. -/
theorem active_setFlow (h : MpcHost) (i j : ℕ) (f : SubFlow) :
    (h.setFlow i f).Active j ↔ if j = i then f.subMpStatus = 3 else h.Active j := by
  rw [MpcHost.Active, MpcHost.setFlow]
  by_cases hj : j = i
  · rw [hj, if_pos rfl]
    exact Iff.of_eq (congrArg (SubFlow.subMpStatus · = 3) (Function.update_self i f h.flow))
  · rw [if_neg hj]
    exact Iff.of_eq (congrArg (SubFlow.subMpStatus · = 3) (Function.update_of_ne hj f h.flow))

theorem MpcHost.Same.setFlow {f : SubFlow} (h : MpcHost)
    (hf : f.subMpStatus = (h.flow i).subMpStatus) : h.Same (h.setFlow i f) := by
  refine ⟨rfl, rfl, fun j => (active_setFlow h i j f).trans ?_⟩
  split
  · next hj => rw [hj, hf, MpcHost.Active]
  · exact Iff.rfl

theorem MpcHost.Same.finishDispatch (h : MpcHost) (i : ℕ) : h.Same (h.finishDispatch i) := by
  rw [MpcHost.finishDispatch]
  split
  · exact .refl h
  · exact .setFlow h rfl

theorem MpcHost.Same.sane (hs : h.Same h') (hsane : Sane h) : Sane h' := by
  refine ⟨hs.mpd ▸ hsane.sound, hs.subflowNu.trans (hsane.num.trans ?_)⟩
  exact List.countP_congr fun j _ => by simp [hs.active j]

theorem MpcHost.Same.agree (hs : h.Same h') : h'.Agree ↔ h.Agree := by
  constructor
  · intro ha
    exact ⟨fun j hj => by rw [← hs.active j, ha.flows j hj, hs.mpd], hs.mpd ▸ ha.counted⟩
  · intro ha
    exact ⟨fun j hj => by rw [hs.active j, ha.flows j hj, hs.mpd], hs.mpd.symm ▸ ha.counted⟩

/-- MPD answers every notification. -/
theorem notify_answers (hs : ∃ past, UserInfo.Sound past h.mpd) (netType netStatus : ℕ) :
    ∃ u, h.mpd.doSubFlowStateInd netType netStatus = some u ∧
      h.notifyMpdNetStatus netType netStatus = some { h with mpd := u } ∧
      ∃ past, UserInfo.Sound past u := by
  obtain ⟨past, hs⟩ := hs
  obtain ⟨u, hu, hsound, -⟩ := stateInd_isolated hs netType netStatus
  have hu : h.mpd.doSubFlowStateInd netType netStatus = some u := hu
  exact ⟨u, hu, by rw [MpcHost.notifyMpdNetStatus, hu, Option.map_some], _, hsound⟩

/-- The device of a flag is its subflow. -/
theorem getSubFlowId_flag :
    ∀ flag ∈ streamFlags, (getSubFlowId flag).map (·.val) = some (flag / 2) := by
  decide

/-- The flag that `pickFlow` follows is set. -/
theorem pickFlow_flagged {n : ℕ} (hp : pickFlow n = some i) :
    ∃ flag ∈ streamFlags, flag &&& n ≠ 0 ∧ flag / 2 = i := by
  simp only [pickFlow, streamFlags, List.foldl_cons, List.foldl_nil] at hp
  split at hp
  · next h4 => exact ⟨4, by decide, h4, Option.some.inj hp⟩
  split at hp
  · next h1 => exact ⟨1, by decide, h1, Option.some.inj hp⟩
  split at hp
  · next h2 => exact ⟨2, by decide, h2, Option.some.inj hp⟩
  · cases hp

/-- The notifications of a mask, one flag after the other. -/
theorem notifyFlags (n : ℕ) {l : List ℕ} (hl : ∀ flag ∈ l, flag ∈ streamFlags)
    (hs : ∃ past, UserInfo.Sound past h.mpd) :
    ∃ u, l.foldlM (fun h flag => if flag &&& n ≠ 0 then h.notifyMpdNetStatus flag 2 else some h) h =
        some { h with mpd := u } ∧
      (∃ past, UserInfo.Sound past u) ∧ (Counted h.mpd → Counted u) ∧
      ∀ j, schdGetFlowValid u j = true ↔
        schdGetFlowValid h.mpd j = true ∧ ∀ flag ∈ l, flag &&& n ≠ 0 → flag / 2 ≠ j := by
  induction l generalizing h with
  | nil => exact ⟨h.mpd, rfl, hs, id, fun j => by simp⟩
  | cons flag l ih =>
    have hrest : ∀ flag ∈ l, flag ∈ streamFlags := fun g hg => hl g (List.mem_cons_of_mem _ hg)
    rw [List.foldlM_cons]
    by_cases hflag : flag &&& n ≠ 0
    · have hdev := getSubFlowId_flag flag (hl flag List.mem_cons_self)
      have h0 : flag ≠ 0 := fun h0 => by simp [h0] at hflag
      obtain ⟨v, hv, hnotify, hsv⟩ := notify_answers hs flag 2
      obtain ⟨hflags, -, hcount⟩ := doSubFlowStateInd_flags hv
      obtain ⟨u, hu, hsu, hcu, hval⟩ := ih hrest (h := { h with mpd := v }) hsv
      refine ⟨u, ?_, hsu, fun hc => hcu (hcount h0 (.inr hc)), fun j => ?_⟩
      · rw [if_pos hflag, hnotify]
        exact hu
      · rw [hval j, hflags j, hdev]
        simp only [List.forall_mem_cons, Option.some.injEq]
        by_cases hj : flag / 2 = j
        · simp [hj, hflag]
        · simp [hj]
    · obtain ⟨u, hu, hsu, hcu, hval⟩ := ih hrest hs
      refine ⟨u, ?_, hsu, hcu, fun j => ?_⟩
      · rw [if_neg hflag]
        exact hu
      · rw [hval j]
        simp [hflag]

/-! ### When they agree afterwards -/

theorem counted_zero (hzero : h.mpd.activeFlowNum = 0) :
    Counted h.mpd ↔ ∀ i < 3, schdGetFlowValid h.mpd i = false := by
  rw [Counted, hzero, eq_comm, List.countP_eq_zero]
  simp only [mem_flows, Bool.not_eq_true]

/-- Multipath as a whole was switched. -/
theorem MpcHost.Agree.switched (ha : h.Agree) (hzero : h'.mpd.activeFlowNum = 0)
    (hval : ∀ i, schdGetFlowValid h'.mpd i = schdGetFlowValid h.mpd i)
    (hact : ∀ i < 3, h'.Active i → h.Active i) : h'.Agree ↔ ∀ i < 3, ¬ h.Active i := by
  constructor
  · intro ha' i hi hactive
    have hoff := (counted_zero hzero).mp ha'.counted i hi
    rw [hval i, (ha.flows i hi).mp hactive] at hoff
    cases hoff
  · intro hnone
    have hoff : ∀ i < 3, schdGetFlowValid h'.mpd i = false := fun i hi => by
      rw [hval i]
      exact Bool.eq_false_iff.mpr fun hv => hnone i hi ((ha.flows i hi).mpr hv)
    refine ⟨fun i hi => ⟨fun hact' => absurd (hact i hi hact') (hnone i hi), fun hv => ?_⟩,
      (counted_zero hzero).mpr hoff⟩
    rw [hoff i hi] at hv
    cases hv

/-- A subflow was marked as active, and the flags stayed. -/
theorem MpcHost.Agree.marked (ha : h.Agree) (hi : i < 3)
    (hact : ∀ j < 3, h'.Active j ↔ j = i ∨ h.Active j)
    (hval : ∀ j, schdGetFlowValid h'.mpd j = schdGetFlowValid h.mpd j)
    (hcount : Counted h'.mpd) : h'.Agree ↔ h.Active i := by
  constructor
  · intro ha'
    rw [ha.flows i hi, ← hval i, ← ha'.flows i hi, hact i hi]
    exact .inl rfl
  · intro hactive
    refine ⟨fun j hj => ?_, hcount⟩
    rw [hact j hj, hval j, ← ha.flows j hj]
    exact or_iff_right_of_imp fun hji => hji ▸ hactive

/-- A subflow was marked as active, and its flag was set. -/
theorem MpcHost.Agree.set (ha : h.Agree) (hact : ∀ j < 3, h'.Active j ↔ j = i ∨ h.Active j)
    (hval : ∀ j, schdGetFlowValid h'.mpd j = if i = j then true else schdGetFlowValid h.mpd j)
    (hcount : Counted h'.mpd) : h'.Agree := by
  refine ⟨fun j hj => ?_, hcount⟩
  rw [hact j hj, hval j, ha.flows j hj]
  by_cases hij : i = j
  · simp [hij]
  · simp [hij, Ne.symm hij]

/-! ### The messages -/

/-- **Everything is released.** -/
theorem toReleaseMpResource_spec (hs : ∃ past, UserInfo.Sound past h.mpd) :
    ∃ h', h.toReleaseMpResource = some h' ∧ Sane h' ∧
      (h.Agree → (h'.Agree ↔ ∀ i < 3, ¬ h.Active i)) := by
  have hsame : h.removeAllSubFlowsEvent.Same h.removeAllSubFlowsEvent.finishAllDisPathTask :=
    ((MpcHost.Same.finishDispatch _ 0).trans (.finishDispatch _ 1)).trans (.finishDispatch _ 2)
  have hremoved : ∀ i < 3, ¬ h.removeAllSubFlowsEvent.Active i := fun i hi hact => by
    simp [MpcHost.Active, MpcHost.removeAllSubFlowsEvent, hi] at hact
  rw [MpcHost.toReleaseMpResource]
  generalize h.removeAllSubFlowsEvent.finishAllDisPathTask = g at hsame
  have hmpd : g.mpd = h.mpd := hsame.mpd
  have hoff : ∀ i < 3, ¬ g.Active i := fun i hi => (hsame.active i).not.mpr (hremoved i hi)
  obtain ⟨u, hu, hnotify, hsu⟩ := notify_answers (h := g) (hmpd ▸ hs) 0 0
  obtain ⟨hval, hzero, -⟩ := doSubFlowStateInd_flags hu
  refine ⟨_, hnotify, ⟨hsu, hsame.subflowNu.trans (List.countP_eq_zero.mpr fun i hi => ?_).symm⟩,
    fun ha => ?_⟩
  · rw [decide_eq_true_eq]
    exact hoff i (mem_flows.mp hi)
  · refine ha.switched (hzero rfl) (fun i => (hval i).trans ?_)
      fun i hi hact => absurd hact (hoff i hi)
    rw [hmpd]
    rfl

/-- The status of the subflow after a response that was granted. -/
def MpcHost.mark (h : MpcHost) (i : ℕ) : MpcHost :=
  (h.setFlow i { h.flow i with subMpStatus := 3 }).updateCurrentSubFlowsNum

theorem active_mark (h : MpcHost) (i j : ℕ) : (h.mark i).Active j ↔ j = i ∨ h.Active j := by
  refine (active_setFlow h i j _).trans ?_
  split
  · next hj => simp [hj]
  · next hj => simp [hj]

theorem sane_mark (hs : ∃ past, UserInfo.Sound past h.mpd) (i : ℕ) : Sane (h.mark i) := ⟨hs, rfl⟩

/-- MPD was told about the subflow of a device. -/
theorem MpcHost.Agree.granted (ha : h.Agree) (hsame : h.Same h') {u : UserInfo}
    {netType : ℕ} (hdev : (getSubFlowId netType).map (·.val) = some i)
    (hu : h'.mpd.doSubFlowStateInd netType 3 = some u) :
    ({ h' with mpd := u }.mark i).Agree := by
  obtain ⟨hval, -, hcount⟩ := doSubFlowStateInd_flags hu
  have hf : (getSubFlowId netType).isSome := by
    rw [← Option.isSome_map, hdev]
    rfl
  have h0 : netType ≠ 0 := by
    rintro rfl
    cases hdev
  refine ha.set (fun j _ => (active_mark _ i j).trans (or_congr_right (hsame.active j)))
    (fun j => (hval j).trans ?_) (hcount h0 (.inl hf))
  rw [hdev, hsame.mpd]
  simp only [Option.some.injEq, decide_true]

/-- A device that MPD does not know. -/
theorem MpcHost.Agree.unknown (ha : h.Agree) (hi : i < 3) (hsame : h.Same h') {u : UserInfo}
    {netType : ℕ} (hdev : getSubFlowId netType = none)
    (hu : h'.mpd.doSubFlowStateInd netType 3 = some u) :
    ({ h' with mpd := u }.mark i).Agree ↔ netType ≠ 0 ∧ h.Active i := by
  obtain ⟨hval, hzero, hcount⟩ := doSubFlowStateInd_flags hu
  have hact : ∀ j < 3, ({ h' with mpd := u }.mark i).Active j ↔ j = i ∨ h.Active j := fun j _ =>
    (active_mark _ i j).trans (or_congr_right (hsame.active j))
  have hval : ∀ j, schdGetFlowValid u j = schdGetFlowValid h.mpd j := fun j => by
    rw [hval j, hdev, hsame.mpd]
    rfl
  by_cases h0 : netType = 0
  · -- every subflow is counted as gone, the one just marked as well
    refine iff_of_false (fun ha' => ?_) fun h => h.1 h0
    have hoff := (counted_zero (h := { h' with mpd := u }.mark i) (hzero h0)).mp ha'.counted i hi
    rw [(ha'.flows i hi).mp ((hact i hi).mpr (.inl rfl))] at hoff
    cases hoff
  · refine (ha.marked hi hact hval (hcount h0 (.inr ?_))).trans (and_iff_right h0).symm
    exact hsame.mpd ▸ ha.counted

/-- What the response to `ADD_SUBFLOW` has to find. -/
def MpcHost.Grants (h : MpcHost) (netType : ℕ) (created : Bool) : Prop :=
  if (h.flow (netType / 2)).mpDispatch = .none then created = true ∨ h.Active (netType / 2)
  else netType ∈ streamFlags ∨ netType ≠ 0 ∧ h.Active (netType / 2)

/-- **A subflow was added.** -/
theorem addSubflowRsp_spec (hsane : Sane h) {netType : ℕ} (hi : netType / 2 < 3)
    (result : ℕ) (opened created : Bool) :
    ∃ h', h.addSubflowRsp netType result opened created = some h' ∧ Sane h' ∧
      (h.Agree → (h'.Agree ↔ (result = 0 → opened = true → h.Grants netType created))) := by
  rw [MpcHost.addSubflowRsp]
  split
  · next hr => exact ⟨h, rfl, hsane, fun ha => iff_of_true ha fun h0 => absurd h0 hr⟩
  next hr =>
  rw [if_neg (by omega)]
  split
  · next ho => exact ⟨h, rfl, hsane, fun ha => iff_of_true ha fun _ h1 => by simp [h1] at ho⟩
  next ho =>
  have ho : opened = true := by simpa using ho
  have hr : result = 0 := by simpa using hr
  simp only [hr, ho, forall_const, MpcHost.Grants]
  split
  · rw [MpcHost.taskQueue]
    cases created with
    | false =>
      refine ⟨h.mark (netType / 2), rfl, sane_mark hsane.sound _, fun ha => ?_⟩
      refine (ha.marked hi (fun j _ => active_mark h _ j) (fun _ => rfl) ha.counted).trans ?_
      simp
    | true =>
      have hsame : h.Same (h.setFlow (netType / 2)
        { h.flow (netType / 2) with mpDispatch := .running, quit := false }) := .setFlow h rfl
      rw [if_pos rfl]
      generalize h.setFlow (netType / 2) _ = g at hsame ⊢
      obtain ⟨u, hu, hnotify, hsu⟩ := notify_answers (hsame.mpd ▸ hsane.sound)
        (getNetTypeFromQ (netType / 2)) 3
      have hdev : ∀ i < 3, (getSubFlowId (getNetTypeFromQ i)).map (·.val) = some i := by decide
      refine ⟨{ g with mpd := u }.mark (netType / 2), ?_, sane_mark hsu _, fun ha => ?_⟩
      · rw [hnotify]
        rfl
      · exact iff_of_true (ha.granted hsame (hdev _ hi) hu) (.inl rfl)
  · have hsame : h.Same (h.setFlow (netType / 2) { h.flow (netType / 2) with quit := false }) :=
      .setFlow h rfl
    generalize h.setFlow (netType / 2) _ = g at hsame ⊢
    obtain ⟨u, hu, hnotify, hsu⟩ := notify_answers (hsame.mpd ▸ hsane.sound) netType 3
    refine ⟨{ g with mpd := u }.mark (netType / 2), ?_, sane_mark hsu _, fun ha => ?_⟩
    · rw [hnotify]
      rfl
    have hdev : ∀ n < 6, if n ∈ streamFlags then (getSubFlowId n).map (·.val) = some (n / 2)
        else getSubFlowId n = none := by decide
    have hdev := hdev netType (by omega)
    split at hdev
    · next hmem => exact iff_of_true (ha.granted hsame hdev hu) (.inl hmem)
    · next hmem => exact (ha.unknown hi hsame hdev hu).trans (or_iff_right hmem).symm

/-- What is left of the table when the subflow that a mask picks was removed. -/
theorem removed_spec (hsane : Sane h) (n : ℕ) :
    ((h.removeSubFlowsEvent n).finishsubflowDispathTask n).mpd = h.mpd ∧
      ((h.removeSubFlowsEvent n).finishsubflowDispathTask n).subflowNu = [0, 1, 2].countP
        (fun i => ((h.removeSubFlowsEvent n).finishsubflowDispathTask n).Active i) ∧
      ∀ j, ((h.removeSubFlowsEvent n).finishsubflowDispathTask n).Active j ↔
        h.Active j ∧ pickFlow n ≠ some j := by
  rw [MpcHost.removeSubFlowsEvent, MpcHost.finishsubflowDispathTask]
  cases pickFlow n with
  | none => exact ⟨rfl, hsane.num, fun j => by simp⟩
  | some i =>
    have hsame := MpcHost.Same.finishDispatch (h.removeSpecifiedSubFlow i) i
    refine ⟨hsame.mpd, ?_, fun j => (hsame.active j).trans ?_⟩
    · refine hsame.subflowNu.trans (List.countP_congr fun j _ => ?_)
      rw [decide_eq_true_eq, decide_eq_true_eq]
      exact (hsame.active j).symm
    · refine (active_setFlow h i j _).trans ?_
      by_cases hj : j = i
      · simp [hj]
      · simp [hj, Ne.symm hj]

/-- **Subflows were deleted.** -/
theorem delSubflow_spec (hsane : Sane h) (n : ℕ) :
    ∃ h', h.delSubflow n = some h' ∧ Sane h' ∧
      (h.Agree → (h'.Agree ↔ ∀ flag ∈ streamFlags, flag &&& n ≠ 0 → pickFlow n ≠ some (flag / 2) →
        ¬ h.Active (flag / 2))) := by
  have hlt : ∀ flag ∈ streamFlags, flag / 2 < 3 := by decide
  rw [MpcHost.delSubflow]
  split
  · next h0 =>
    refine ⟨h, rfl, hsane, fun ha => iff_of_true ha fun flag hflag _ _ => ?_⟩
    have hnone := List.countP_eq_zero.mp (hsane.num.symm.trans (Nat.le_zero.mp h0))
    simpa using hnone (flag / 2) (mem_flows.mpr (hlt flag hflag))
  obtain ⟨hmpd, hnum, hact⟩ := removed_spec hsane n
  generalize (h.removeSubFlowsEvent n).finishsubflowDispathTask n = g at hmpd hnum hact ⊢
  obtain ⟨u, hu, hsu, hcount, hval⟩ := notifyFlags n (fun _ hf => hf) (hmpd ▸ hsane.sound)
  refine ⟨_, hu, ⟨hsu, hnum⟩, fun ha => ?_⟩
  have hflows : ∀ j < 3, (h.Active j ∧ pickFlow n ≠ some j ↔ schdGetFlowValid u j = true) ↔
      ∀ flag ∈ streamFlags, flag &&& n ≠ 0 → flag / 2 = j → pickFlow n ≠ some j → ¬ h.Active j := by
    intro j hj
    rw [hval j, hmpd, ← ha.flows j hj]
    constructor
    · intro hiff flag hflag hset hfj hpick hactive
      exact (hiff.mp ⟨hactive, hpick⟩).2 flag hflag hset hfj
    · intro hnone
      refine and_congr_right fun hactive => ⟨fun hpick flag hflag hset hfj => ?_, fun hno hpick => ?_⟩
      · exact hnone flag hflag hset hfj hpick hactive
      · obtain ⟨flag, hflag, hset, hfj⟩ := pickFlow_flagged hpick
        exact hno flag hflag hset hfj
  constructor
  · intro ha' flag hflag hset hpick
    have hj := hlt flag hflag
    exact (hflows _ hj).mp ((hact _).symm.trans (ha'.flows _ hj)) flag hflag hset rfl hpick
  · intro hnone
    refine ⟨fun j hj => (hact j).trans ((hflows j hj).mpr fun flag hflag hset hfj hpick => ?_),
      hcount (hmpd ▸ ha.counted)⟩
    subst hfj
    exact hnone flag hflag hset hpick

/-! ### Runs -/

/-- ratd at its start, with a new session of MPD. -/
def started (u₀ : UserInfo) : MpcHost := { mpd := { u₀.created with activeFlowNum := 0 } }

theorem sane_started (u₀ : UserInfo) : Sane (started u₀) := by
  obtain ⟨htidy, hoff, hbound⟩ := sound_created u₀
  exact ⟨⟨[], htidy.congr rfl rfl rfl rfl rfl, hoff, hbound⟩, rfl⟩

theorem agree_started (u₀ : UserInfo) : (started u₀).Agree := by
  refine ⟨fun i _ => ?_, rfl⟩
  simp [MpcHost.Active, started, created, schdGetFlowValid]

/-- A message that ratd handles: it names a subflow of the table. The steps of a dispatcher are not
messages that come in. -/
def Message.Handled : Message → Prop
  | .addSubflowRsp netType _ _ _ => netType / 2 < 3
  | .leave _ | .exit _ => False
  | _ => True

/-- Every message that ratd handles is handled to its end, and ratd and MPD agree afterwards. -/
def Message.Agrees (_ : List Message) (h : MpcHost) (m : Message) : Prop :=
  (m.Handled → ∃ h', m.step h = some h') ∧ ∀ h', m.step h = some h' → h'.Agree

/-- Where multipath as a whole is switched, no subflow is active. A mask names no active subflow but
the one that is picked. A subflow that is granted is known to MPD, or its dispatcher is started, or
it is active already. -/
def Message.Fits (_ : List Message) (h : MpcHost) : Message → Prop
  | .enable | .disable => ∀ i < 3, ¬ h.Active i
  | .releaseRsp result => result = 0 → ∀ i < 3, ¬ h.Active i
  | .delSubflow n => ∀ flag ∈ streamFlags, flag &&& n ≠ 0 → pickFlow n ≠ some (flag / 2) →
    ¬ h.Active (flag / 2)
  | .addSubflowRsp netType result opened created =>
    netType / 2 < 3 → result = 0 → opened = true → h.Grants netType created
  | .release | .leave _ | .exit _ => True

/-- One message. -/
theorem message_spec (hs : Sane h) (past : List Message) (m : Message) :
    (m.Handled → ∃ h', m.step h = some h') ∧
      ∀ h', m.step h = some h' → Sane h' ∧ (h.Agree → (h'.Agree ↔ m.Fits past h)) := by
  have hspec : ∀ (m : Message) (P : Prop), (∃ h', m.step h = some h' ∧ Sane h' ∧
      (h.Agree → (h'.Agree ↔ P))) → (m.Handled → ∃ h', m.step h = some h') ∧
      ∀ h', m.step h = some h' → Sane h' ∧ (h.Agree → (h'.Agree ↔ P)) := by
    rintro m P ⟨g, hg, hsane, hiff⟩
    refine ⟨fun _ => ⟨g, hg⟩, fun h' hh' => ?_⟩
    obtain rfl : g = h' := Option.some.inj (hg.symm.trans hh')
    exact ⟨hsane, hiff⟩
  cases m with
  | enable =>
    refine hspec _ _ ?_
    obtain ⟨u, hu, hnotify, hsu⟩ := notify_answers hs.sound 0 1
    obtain ⟨hval, hzero, -⟩ := doSubFlowStateInd_flags hu
    exact ⟨_, hnotify, ⟨hsu, hs.num⟩, fun ha => ha.switched (hzero rfl) hval fun _ _ => id⟩
  | addSubflowRsp netType result opened created =>
    by_cases hi : netType / 2 < 3
    · obtain ⟨h', hh', hsane, hiff⟩ := addSubflowRsp_spec hs hi result opened created
      exact hspec _ _ ⟨h', hh', hsane, fun ha => (hiff ha).trans ⟨fun hg _ => hg, fun hg => hg hi⟩⟩
    · refine ⟨fun hh => absurd hh hi, fun h' hh' => ?_⟩
      rw [Message.step, MpcHost.addSubflowRsp] at hh'
      split at hh'
      · cases hh'
        exact ⟨hs, fun ha => iff_of_true ha fun hlt => absurd hlt hi⟩
      · rw [if_pos (by omega)] at hh'
        cases hh'
  | delSubflow n => exact hspec _ _ (delSubflow_spec hs n)
  | disable => exact hspec _ _ (toReleaseMpResource_spec hs.sound)
  | release => exact hspec _ _ ⟨h, rfl, hs, fun ha => iff_of_true ha trivial⟩
  | releaseRsp result =>
    refine hspec _ _ ?_
    rw [Message.step]
    split
    · next hr =>
      obtain ⟨h', hh', hsane, hiff⟩ := toReleaseMpResource_spec hs.sound
      exact ⟨h', hh', hsane, fun ha => (hiff ha).trans ⟨fun hg _ => hg, fun hg => hg hr⟩⟩
    · next hr => exact ⟨h, rfl, hs, fun ha => iff_of_true ha fun h0 => absurd h0 hr⟩
  | leave fdIndex =>
    refine ⟨fun hh => hh.elim, fun h' hh' => ?_⟩
    rw [Message.step] at hh'
    split at hh'
    · cases hh'
      have hsame := MpcHost.Same.setFlow h (i := fdIndex)
        (f := { h.flow fdIndex with mpDispatch := .leaving }) rfl
      exact ⟨hsame.sane hs, fun ha => iff_of_true (hsame.agree.mpr ha) trivial⟩
    · cases hh'
  | exit fdIndex =>
    refine ⟨fun hh => hh.elim, fun h' hh' => ?_⟩
    rw [Message.step] at hh'
    split at hh'
    · cases hh'
      have hsame := MpcHost.Same.setFlow h (i := fdIndex)
        (f := { h.flow fdIndex with mpDispatch := .none }) rfl
      exact ⟨hsame.sane hs, fun ha => iff_of_true (hsame.agree.mpr ha) trivial⟩
    · cases hh'

/-- A message that is not handled leaves nothing to ask for. -/
theorem fits_of_not_handled {past : List Message} {m : Message} (hm : ¬ m.Handled) :
    m.Fits past h := by
  cases m with
  | addSubflowRsp => exact fun hlt => absurd hlt hm
  | enable => exact absurd trivial hm
  | delSubflow => exact absurd trivial hm
  | disable => exact absurd trivial hm
  | release => exact trivial
  | releaseRsp => exact absurd trivial hm
  | leave => exact trivial
  | exit => exact trivial

theorem agrees_iff (hs : Sane h) (ha : h.Agree) (past : List Message) (m : Message) :
    m.Agrees past h ↔ m.Fits past h := by
  obtain ⟨hanswers, hspec⟩ := message_spec hs past m
  constructor
  · intro hagrees
    by_cases hm : m.Handled
    · obtain ⟨h', hh'⟩ := hanswers hm
      exact ((hspec h' hh').2 ha).mp (hagrees.2 h' hh')
    · exact fits_of_not_handled hm
  · intro hfits
    exact ⟨hanswers, fun h' hh' => ((hspec h' hh').2 ha).mpr hfits⟩

/-- **ratd and MPD agree on the active subflows** after every message of a run exactly if every
message of the run fits what it finds. -/
theorem agree_run (u₀ : UserInfo) (messages : List Message) :
    Meets Message.step Message.Agrees [] messages (started u₀) ↔
      Meets Message.step Message.Fits [] messages (started u₀) :=
  meets_iff_of_kept (I := fun _ h => Sane h ∧ h.Agree)
    (fun past _ m h' hI hagrees hh' =>
      ⟨((message_spec hI.1 past m).2 h' hh').1, hagrees.2 h' hh'⟩)
    (fun past _ m hI => agrees_iff hI.1 hI.2 past m) ⟨sane_started u₀, agree_started u₀⟩

/-- A mask names two active subflows: MPD gives up both, ratd only the one it picks. -/
theorem agree_deleted :
    ¬ Meets Message.step Message.Agrees []
      ([.enable, .addSubflowRsp 1 0 true true, .addSubflowRsp 2 0 true true] ++ [.delSubflow 3])
      (started {}) := by
  have hflags : (run Message.step ([.enable, .addSubflowRsp 1 0 true true,
      .addSubflowRsp 2 0 true true] ++ [.delSubflow 3]) (started {})).map
        (fun h => ((h.flow 1).subMpStatus, schdGetFlowValid h.mpd 1)) = some (3, false) := by
    decide +kernel
  obtain ⟨h', hh', hflags⟩ := Option.map_eq_some_iff.mp hflags
  obtain ⟨hstatus, hvalid⟩ := Prod.mk.inj hflags
  rw [run_concat] at hh'
  obtain ⟨h, hh, hh'⟩ := Option.bind_eq_some_iff.mp hh'
  intro hmeets
  have hflag := (((Meets.last hmeets hh).2 h' hh').flows 1 (by decide)).mp hstatus
  rw [hvalid] at hflag
  cases hflag

end Ratd

end AndroidVendor
