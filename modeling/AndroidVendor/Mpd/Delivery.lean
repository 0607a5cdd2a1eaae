import AndroidVendor.Mpd.TapeInvariant

/-!
# What is handed to the transport

The log of a session read as what the transport gets: the packets posted at the head of the data
window, in their order, and the buffers behind each of them.

`InFlight` is the assumption about the network under which sequence numbers of 16 bits mean
something: the sender numbers its packets, `v m` being the number of the packet in buffer `m`, and
less than 32768 of them are on their way.
-/

namespace AndroidVendor

namespace Mpd

/-- The DSN `MPD_DataWinRxBeginMove` hands over. -/
def Action.inOrderDsn : Action → Option ℕ
  | .post .inOrder dsn .. => some dsn
  | .postMerged dsn .. => some dsn
  | _ => none

/-- The received buffers whose bytes are handed over. -/
def Action.buffers : Action → List Msg
  | .post _ _ m _ _ => [m]
  | .postMerged _ first second _ _ _ => [first, second]
  | _ => []

/-- The DSNs `MPD_DataWinRxBeginMove` has handed over, in their order. -/
def inOrderDsns (out : List Action) : List ℕ := out.filterMap Action.inOrderDsn

/-- The last packet `MPD_DataWinRxBeginMove` has handed over. -/
def lastInOrder (out : List Action) : Option Action :=
  (out.filter fun a => a.inOrderDsn.isSome).getLast?

section Log

variable {out as : List Action} {a : Action}

@[simp] theorem inOrderDsns_append : inOrderDsns (out ++ as) = inOrderDsns out ++ inOrderDsns as :=
  List.filterMap_append

theorem inOrderDsns_of_none (h : ∀ a ∈ as, a.inOrderDsn = none) : inOrderDsns as = [] :=
  List.filterMap_eq_nil_iff.mpr h

theorem lastInOrder_append_of_none (h : ∀ a ∈ as, a.inOrderDsn = none) :
    lastInOrder (out ++ as) = lastInOrder out := by
  have hnil : as.filter (fun a => a.inOrderDsn.isSome) = [] :=
    List.filter_eq_nil_iff.mpr fun a ha => by simp [h a ha]
  rw [lastInOrder, List.filter_append, hnil, List.append_nil, lastInOrder]

theorem lastInOrder_concat (h : a.inOrderDsn.isSome) : lastInOrder (out ++ [a]) = some a := by
  simp [lastInOrder, List.filter_append, h]

theorem lastInOrder_eq_none_iff : lastInOrder out = none ↔ inOrderDsns out = [] := by
  rw [lastInOrder, List.getLast?_eq_none_iff, List.filter_eq_nil_iff, inOrderDsns,
    List.filterMap_eq_nil_iff]
  simp

end Log

theorem RxDataWinNode.put_fragment_ne_zero (n : RxDataWinNode) {node : MPDNodeInfo} (time : ℕ)
    (h : node.fragment ≠ 0) : (n.put node time).fragment ≠ 0 := by
  intro h0
  simp only [RxDataWinNode.put, if_neg h] at h0
  have hbit := congrArg (Nat.testBit · (node.fragment - 1)) h0
  simp [Nat.testBit_or, Nat.testBit_shiftLeft] at hbit

theorem MPDNodeInfo.fragIndex_lt {node : MPDNodeInfo} (h : node.fragment < 3) :
    node.fragIndex < 2 := by
  rw [fragIndex]
  split <;> omega

/-- The two lengths that are taken less the header length before two fragments are merged. -/
def RxDataWinNode.mergeSubs (n : RxDataWinNode) : List Action :=
  [.access (.sub (n.msgLen 0) n.mpdHeadLen), .access (.sub (n.msgLen 1) n.mpdHeadLen)]

/-- Merging posts one buffer if there is memory for it and both fragments are there. -/
theorem RxDataWinNode.postMerged_cases (n : RxDataWinNode) (mem : Option ℕ) :
    n.postMerged mem = n.mergeSubs ∨ ∃ first second addr, n.msgPtr 0 = some first ∧
      n.msgPtr 1 = some second ∧ n.postMerged mem = n.mergeSubs ++
        [.postMerged n.dsn first second (n.merge first second addr) n.mergedLen n.mpdHeadLen] := by
  cases mem with
  | none => exact .inl rfl
  | some addr =>
    cases h₀ : n.msgPtr 0 with
    | none => exact .inl (by simp [postMerged, mergeSubs, h₀])
    | some first =>
      cases h₁ : n.msgPtr 1 with
      | none => exact .inl (by simp [postMerged, mergeSubs, h₀, h₁])
      | some second =>
        exact .inr ⟨first, second, addr, rfl, rfl, by simp [postMerged, mergeSubs, h₀, h₁]⟩

theorem RxDataWinNode.mergeSubs_inOrderDsn {n : RxDataWinNode} {a : Action}
    (h : a ∈ n.mergeSubs) : a.inOrderDsn = none := by
  simp only [mergeSubs, List.mem_cons, List.not_mem_nil, or_false] at h
  rcases h with rfl | rfl <;> rfl

/-- A data packet that arrives is numbered as its DSN says. Nothing that was received is 32768 or
more ahead of it. It is less than 32768 ahead of the last packet that was handed over in order or,
as long as none was, of everything received. Two packets in buffers of their own can have numbers of
their own, whatever bytes they hold. -/
structure InFlight (v : Msg → ℕ) (past : List Op) (u : UserInfo) (m : Msg) : Prop where
  dsn : m.header.dsn = v m % 65536
  notLate : ∀ m', .recv m' ∈ past → ¬ m'.IsAck → v m' < v m + 32768
  notEarly : ∀ a, lastInOrder u.out = some a → ∀ m' ∈ a.buffers, v m < v m' + 32768
  first : lastInOrder u.out = none → ∀ m', .recv m' ∈ past → ¬ m'.IsAck → v m < v m' + 32768

/-- The first packet of all. -/
theorem inFlight_first {v : Msg → ℕ} {u : UserInfo} {m : Msg} (hv : m.header.dsn = v m % 65536)
    (hout : u.out = []) : InFlight v [] u m := by
  refine ⟨hv, fun m' hm' => absurd hm' List.not_mem_nil, fun a ha => ?_,
    fun _ m' hm' => absurd hm' List.not_mem_nil⟩
  rw [hout] at ha
  cases ha

theorem sideAction_inOrderDsn {F : ℕ → Prop} {B : Access → Prop} {a : Action}
    (h : SideAction F B a) : a.inOrderDsn = none := by
  cases a with
  | post => exact h.elim
  | postMerged => exact h.elim
  | _ => rfl

/-- The number of the packet that arrives. -/
def Op.label (v : Msg → ℕ) : Op → ℕ
  | .recv m => v m
  | _ => 0

/-- Any access is allowed. -/
theorem Op.fits_of_send {F : ℕ → Prop} {op : Op} {u : UserInfo}
    (h : ∀ flowId data length, op = .send flowId data length →
      F data.addr ∧ UserInfo.FreshAllocs F u) : op.Fits F (fun _ => True) u := by
  cases op with
  | recv m => exact fun _ _ => trivial
  | checkAck =>
    intro _ n _ _ _ m _ a ha
    rw [RxDataWinNode.checkReads] at ha
    split at ha
    · obtain ⟨i, -, rfl⟩ := List.mem_map.mp ha
      trivial
    · rw [List.mem_singleton.mp ha]
      trivial
  | send flowId data length => exact h flowId data length rfl
  | changeDataWinFlowId flowId => exact fun _ _ _ _ => trivial
  | _ => trivial

theorem Op.fits_true (op : Op) (u : UserInfo) : op.Fits (fun _ => True) (fun _ => True) u :=
  Op.fits_of_send fun _ _ _ _ => ⟨trivial, fun _ _ _ => trivial⟩

/-- A datagram with data, and with no acknowledgement to speak of. -/
def Msg.packet (addr fragment stream dsn ssn : ℕ) (payload : List UInt8) : Msg :=
  ⟨addr, MPDHeader.encode
    { flag := 0x55, fragment := fragment, stream := stream, length := 3, dsn := dsn, ssn := ssn,
      ack := 0 } 0 ++ payload⟩

@[simp] theorem Msg.header_packet (addr fragment stream dsn ssn : ℕ) (payload : List UInt8) :
    (Msg.packet addr fragment stream dsn ssn payload).header =
      ⟨0x55, fragment % 4, stream % 4, 3, dsn % 65536, ssn % 65536, 0⟩ :=
  header_encode ..

/-- A session whose subflows are all there. -/
def UserInfo.ready : UserInfo := { schdPara := fun _ => { isValid := true } }

end Mpd

end AndroidVendor
