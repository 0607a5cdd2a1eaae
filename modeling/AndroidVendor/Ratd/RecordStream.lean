import AndroidVendor.Lib.Machine
import AndroidVendor.Ratd.AppRequest

/-!
# The application command channel

`processAppCommandsCallback` takes records out of a `RecordStream` and decodes each of them. With
`test` defined, as it is, a record is whatever one `read` returns. `processed` is a history: the
requests that have been decoded.

A command is therefore processed when a `read` returns it alone. `commands_iff` says in general
which ways of cutting a stream of commands into reads leave every command to be processed once, in
order.

## Conventions

* Pointers into the buffer are offsets.
* `beyond` is the memory behind the buffer, `garbage` what allocated memory holds.
* A step is one turn of the callback's loop, with what `read` answers in it.
-/

namespace AndroidVendor.Ratd

open Machine Scan

/-! ### Records -/

def headerSize : ℕ := 1

def maxCommandBytes : ℕ := 4096

structure RecordStream where
  buffer : List UInt8
  unconsumed : ℕ
  readEnd : ℕ
  deriving DecidableEq

def RecordStream.new (maxRecordLen : ℕ) : RecordStream where
  buffer := .replicate (maxRecordLen + headerSize) 0
  unconsumed := 0
  readEnd := 0

def RecordStream.bufferEnd (rs : RecordStream) : ℕ := rs.buffer.length

def getEndOfRecord (pBegin pEnd : ℕ) : Option ℕ :=
  if pEnd < pBegin + headerSize then none else some pEnd

/-- The start of the next record. -/
def RecordStream.getNextRecord (rs : RecordStream) : Option (ℕ × RecordStream) :=
  match getEndOfRecord rs.unconsumed rs.readEnd with
  | none => none
  | some recordEnd => some (rs.unconsumed, { rs with unconsumed := recordEnd })

/-- What is not consumed is moved to the front. -/
def RecordStream.compact (rs : RecordStream) : RecordStream :=
  if rs.unconsumed = 0 then rs
  else
    let toMove := rs.readEnd - rs.unconsumed
    { buffer := (rs.buffer.drop rs.unconsumed).take toMove ++ rs.buffer.drop toMove
      unconsumed := 0
      readEnd := toMove }

/-- `read` stores `chunk`. -/
def RecordStream.fill (rs : RecordStream) (chunk : List UInt8) : RecordStream :=
  { rs with
    buffer := rs.buffer.take rs.readEnd ++ chunk ++ rs.buffer.drop (rs.readEnd + chunk.length)
    readEnd := rs.readEnd + chunk.length }

/-! ### The callback -/

/-- A request with the values of its members. -/
abbrev Request : Type := MessageType × List Value

/-- The request that is decoded from a text. -/
def request (garbage : Memory) (buffer : List UInt8) : Option Request :=
  (decodeAppCommandBufferNew buffer garbage).1.map fun r => (r.1, r.1.members.map (·.read r.2))

structure Channel where
  rs : RecordStream
  processed : List Request
  deriving DecidableEq

def Channel.new : Channel := ⟨.new maxCommandBytes, []⟩

/-- `processAppCommandBuffer`, and the buffer is wiped. -/
def Channel.process (s : Channel) (garbage : Memory) (beyond : List UInt8) (record : ℕ) : Channel where
  rs := { s.rs with buffer := .replicate s.rs.buffer.length 0 }
  processed := s.processed ++ (request garbage (s.rs.buffer.drop record ++ beyond)).toList

/-- What `read` answers in a turn of the loop; `record` is a turn that finds a record without it. -/
inductive Op
  | record
  | read (chunk : List UInt8)
  | again
  deriving DecidableEq, Repr

/-- One turn of the loop of `processAppCommandsCallback` with `record_stream_get_next`. It fails at
the assertion, and for an answer that `read` cannot give. -/
def Op.step (garbage : Memory) (beyond : List UInt8) : Op → Channel → Option Channel
  | .record, s => s.rs.getNextRecord.map fun r => { s with rs := r.2 }.process garbage beyond r.1
  | .read chunk, s =>
    if s.rs.getNextRecord = none ∧ ¬ (s.rs.unconsumed = 0 ∧ s.rs.readEnd = s.rs.bufferEnd) ∧
        0 < chunk.length ∧ chunk.length ≤ s.rs.compact.bufferEnd - s.rs.compact.readEnd then
      match (s.rs.compact.fill chunk).getNextRecord with
      | none => some { s with rs := s.rs.compact.fill chunk }
      | some r => some ({ s with rs := r.2 }.process garbage beyond r.1)
    else none
  | .again, s =>
    if s.rs.getNextRecord = none ∧ ¬ (s.rs.unconsumed = 0 ∧ s.rs.readEnd = s.rs.bufferEnd) then
      some { s with rs := s.rs.compact }
    else none

def Op.chunk : Op → Option (List UInt8)
  | .read chunk => some chunk
  | _ => none

/-- The answers that a `read` of the whole buffer can give. -/
def Op.Answers : Op → Prop
  | .record => False
  | .read chunk => 0 < chunk.length ∧ chunk.length ≤ maxCommandBytes + headerSize
  | .again => True

instance : DecidablePred Op.Answers
  | .record => inferInstanceAs (Decidable False)
  | .read _ => inferInstanceAs (Decidable (_ ∧ _))
  | .again => inferInstanceAs (Decidable True)

/-- The text that the decoder finds where a `read` has stored `chunk`: when it fills the buffer, it
goes on behind it. -/
def readText (beyond chunk : List UInt8) : List UInt8 :=
  if chunk.length ≤ maxCommandBytes then chunk else chunk ++ beyond

/-- What is decoded when a `read` has stored `chunk`. -/
def readRequest (garbage : Memory) (beyond chunk : List UInt8) : Option Request :=
  request garbage (readText beyond chunk)

/-- The reads carry the commands: what one of them returns, taken for a text of its own, is no
request or that of the next command. -/
inductive Carried (garbage : Memory) (beyond : List UInt8) :
    List (List UInt8) → List (List UInt8) → Prop
  | done : Carried garbage beyond [] []
  | idle {chunk : List UInt8} {chunks cs : List (List UInt8)}
      (h : readRequest garbage beyond chunk = none) (hrest : Carried garbage beyond chunks cs) :
      Carried garbage beyond (chunk :: chunks) cs
  | command {chunk c : List UInt8} {chunks cs : List (List UInt8)}
      (h : readRequest garbage beyond chunk = request garbage c)
      (hrest : Carried garbage beyond chunks cs) : Carried garbage beyond (chunk :: chunks) (c :: cs)

variable {garbage : Memory} {beyond chunk : List UInt8} {s t : Channel} {ops : List Op}
  {chunks cs : List (List UInt8)} {rs : RecordStream}

/-! ### Runs -/

/-- Nothing is left to consume, and the buffer is wiped. -/
structure Idle (rs : RecordStream) : Prop where
  wiped : rs.buffer = .replicate (maxCommandBytes + headerSize) 0
  consumed : rs.unconsumed = rs.readEnd

theorem Idle.getNextRecord (h : Idle rs) : rs.getNextRecord = none := by
  have hnone : getEndOfRecord rs.unconsumed rs.readEnd = none := by
    rw [getEndOfRecord, h.consumed]
    exact if_pos (Nat.lt_succ_self _)
  rw [RecordStream.getNextRecord, hnone]

theorem Idle.bufferEnd (h : Idle rs) : rs.bufferEnd = maxCommandBytes + headerSize := by
  rw [RecordStream.bufferEnd, h.wiped, List.length_replicate]

/-- The assertion holds. -/
theorem Idle.not_full (h : Idle rs) : ¬ (rs.unconsumed = 0 ∧ rs.readEnd = rs.bufferEnd) := by
  rintro ⟨hzero, hend⟩
  rw [h.bufferEnd, ← h.consumed, hzero] at hend
  exact absurd hend (by decide)

theorem Idle.compact (h : Idle rs) : rs.compact = .new maxCommandBytes := by
  have hconsumed := h.consumed
  obtain ⟨buffer, unconsumed, readEnd⟩ := rs
  obtain rfl : unconsumed = readEnd := hconsumed
  obtain rfl : buffer = _ := h.wiped
  rw [RecordStream.compact]
  split
  · rename_i hzero
    obtain rfl : unconsumed = 0 := hzero
    rfl
  · rw [Nat.sub_self]
    rfl

theorem idle_new : Idle (.new maxCommandBytes) := ⟨rfl, rfl⟩

/-- The record that a `read` leaves in the buffer. -/
theorem getNextRecord_fill (hne : 0 < chunk.length) :
    ((RecordStream.new maxCommandBytes).fill chunk).getNextRecord =
      some (0, { (RecordStream.new maxCommandBytes).fill chunk with unconsumed := chunk.length }) := by
  have hsome : getEndOfRecord 0 (0 + chunk.length) = some chunk.length := by
    rw [getEndOfRecord, Nat.zero_add]
    exact if_neg (Nat.not_lt_of_le hne)
  rw [RecordStream.getNextRecord]
  simp only [RecordStream.fill, RecordStream.new, hsome]

theorem buffer_fill :
    ((RecordStream.new maxCommandBytes).fill chunk).buffer =
      chunk ++ .replicate (maxCommandBytes + headerSize - chunk.length) 0 := by
  rw [RecordStream.fill, RecordStream.new]
  simp only [List.take_zero, List.nil_append, Nat.zero_add, List.drop_replicate]

theorem request_congr {a b : List UInt8} (h : cString a = cString b) :
    request garbage a = request garbage b := by
  rw [request, request, decodeAppCommandBufferNew, decodeAppCommandBufferNew, h]

/-- What is decoded is the text of the `read`. -/
theorem request_fill (hle : chunk.length ≤ maxCommandBytes + headerSize) :
    request garbage (((RecordStream.new maxCommandBytes).fill chunk).buffer ++ beyond) =
      request garbage (readText beyond chunk) := by
  refine request_congr ?_
  rw [buffer_fill, readText]
  split
  · rename_i hroom
    obtain ⟨k, hk⟩ : ∃ k, maxCommandBytes + headerSize - chunk.length = k + 1 :=
      Nat.exists_eq_add_one.mpr (by rw [headerSize]; omega)
    rw [hk, List.replicate_succ, List.append_assoc, List.cons_append, cString, cString,
      List.takeWhile_append]
    split
    · rename_i hall
      rw [List.takeWhile_cons_of_neg (by decide), List.append_nil]
      exact (List.takeWhile_prefix _).eq_of_length hall |>.symm
    · rfl
  · rename_i hfull
    have hzero : maxCommandBytes + headerSize - chunk.length = 0 := by
      rw [headerSize] at hle ⊢
      omega
    rw [hzero, List.replicate_zero, List.append_nil]

/-- A turn of the loop decodes what its `read` returns, and nothing else. -/
theorem step_idle (garbage : Memory) (beyond : List UInt8) {op : Op} (hs : Idle s.rs)
    (hop : op.Answers) :
    ∃ t, op.step garbage beyond s = some t ∧ Idle t.rs ∧
      t.processed = s.processed ++ ([op].filterMap Op.chunk).filterMap (readRequest garbage beyond) := by
  cases op with
  | record => exact hop.elim
  | again =>
    refine ⟨_, if_pos ⟨hs.getNextRecord, hs.not_full⟩, ?_, (List.append_nil _).symm⟩
    show Idle s.rs.compact
    rw [hs.compact]
    exact idle_new
  | read chunk =>
    obtain ⟨hne, hle⟩ := hop
    have hroom : chunk.length ≤ s.rs.compact.bufferEnd - s.rs.compact.readEnd := by
      rw [hs.compact, idle_new.bufferEnd]
      exact hle
    have hwiped : (((RecordStream.new maxCommandBytes).fill chunk).buffer).length =
        maxCommandBytes + headerSize := by
      rw [buffer_fill, List.length_append, List.length_replicate]
      omega
    rw [Op.step, if_pos ⟨hs.getNextRecord, hs.not_full, hne, hroom⟩, hs.compact,
      getNextRecord_fill hne]
    refine ⟨_, rfl, ⟨congrArg (List.replicate · 0) hwiped, (Nat.zero_add _).symm⟩, ?_⟩
    show s.processed ++ (request garbage _).toList = _
    rw [List.drop_zero, request_fill hle]
    refine congrArg (s.processed ++ ·) ?_
    show (readRequest garbage beyond chunk).toList = [chunk].filterMap (readRequest garbage beyond)
    cases hr : readRequest garbage beyond chunk with
    | none => rw [List.filterMap_cons_none hr]; rfl
    | some r => rw [List.filterMap_cons_some hr]; rfl

/-- A run decodes what its reads return, one by one. -/
theorem run_idle (garbage : Memory) (beyond : List UInt8) (hs : Idle s.rs)
    (hops : ∀ op ∈ ops, op.Answers) :
    ∃ t, run (Op.step garbage beyond) ops s = some t ∧
      t.processed = s.processed ++ (ops.filterMap Op.chunk).filterMap (readRequest garbage beyond) := by
  induction ops generalizing s with
  | nil => exact ⟨s, rfl, (List.append_nil _).symm⟩
  | cons op ops ih =>
    obtain ⟨u, hu, hidle, hproc⟩ := step_idle garbage beyond hs (hops op List.mem_cons_self)
    obtain ⟨t, ht, htproc⟩ := ih hidle fun op hop => hops op (List.mem_cons_of_mem _ hop)
    refine ⟨t, by rw [run, hu, Option.bind_some, ht], ?_⟩
    rw [htproc, hproc, List.append_assoc, ← List.filterMap_append, ← List.filterMap_append,
      List.singleton_append]

/-! ### Commands -/

theorem carried_iff (hcs : ∀ c ∈ cs, (request garbage c).isSome) :
    chunks.filterMap (readRequest garbage beyond) =
        cs.filterMap (request garbage) ↔ Carried garbage beyond chunks cs := by
  constructor
  · intro h
    induction chunks generalizing cs with
    | nil =>
      cases cs with
      | nil => exact .done
      | cons c cs =>
        obtain ⟨r, hr⟩ := Option.isSome_iff_exists.mp (hcs c List.mem_cons_self)
        rw [List.filterMap_cons_some hr] at h
        exact nomatch h
    | cons chunk chunks ih =>
      cases hr : readRequest garbage beyond chunk with
      | none =>
        rw [List.filterMap_cons_none hr] at h
        exact .idle hr (ih hcs h)
      | some r =>
        rw [List.filterMap_cons_some hr] at h
        cases cs with
        | nil => exact nomatch h
        | cons c cs =>
          obtain ⟨r', hr'⟩ := Option.isSome_iff_exists.mp (hcs c List.mem_cons_self)
          rw [List.filterMap_cons_some hr'] at h
          obtain ⟨rfl, hrest⟩ := List.cons.inj h
          exact .command (hr.trans hr'.symm)
            (ih (fun c hc => hcs c (List.mem_cons_of_mem _ hc)) hrest)
  · intro h
    induction h with
    | done => rfl
    | idle hr _ ih =>
      rw [List.filterMap_cons_none hr]
      exact ih hcs
    | @command chunk c chunks cs hr _ ih =>
      obtain ⟨r, hc⟩ := Option.isSome_iff_exists.mp (hcs c List.mem_cons_self)
      rw [List.filterMap_cons_some hc, List.filterMap_cons_some (hr.trans hc)]
      exact congrArg (r :: ·) (ih fun c hc => hcs c (List.mem_cons_of_mem _ hc))

/-- Reads of whole commands carry them. -/
theorem carried_whole (hlen : ∀ c ∈ cs, c.length ≤ maxCommandBytes) :
    Carried garbage beyond cs cs := by
  induction cs with
  | nil => exact .done
  | cons c cs ih =>
    refine .command ?_ (ih fun c hc => hlen c (List.mem_cons_of_mem _ hc))
    rw [readRequest, readText, if_pos (hlen c List.mem_cons_self)]

/-- Which ways of cutting a stream of commands into reads leave each of them to be processed once
and in order. -/
theorem commands_iff (garbage : Memory) (beyond : List UInt8) (cs : List (List UInt8))
    (hcs : ∀ c ∈ cs, (request garbage c).isSome) (ops : List Op) (hops : ∀ op ∈ ops, op.Answers) :
    ∃ t, run (Op.step garbage beyond) ops .new = some t ∧
      (t.processed = cs.filterMap (request garbage) ↔
        Carried garbage beyond (ops.filterMap Op.chunk) cs) := by
  obtain ⟨t, ht, hproc⟩ := run_idle garbage beyond (s := .new) idle_new hops
  refine ⟨t, ht, ?_⟩
  rw [hproc]
  exact carried_iff hcs

/-- `messageType` 23, `sessionid` 5. -/
def keepAlive : List UInt8 := ("\x7b\"messageType\":23,\"sessionid\":5\x7d").toList.map ascii

/-- Two commands in two reads. -/
theorem commands_iff_whole :
    Carried (fun _ => 0) [] [keepAlive, keepAlive] [keepAlive, keepAlive] ∧
      ∃ t, run (Op.step (fun _ => 0) []) [.read keepAlive, .again, .read keepAlive] .new = some t ∧
        t.processed = [keepAlive, keepAlive].filterMap (request fun _ => 0) := by
  have hwhole : Carried (fun _ => 0) [] [keepAlive, keepAlive] [keepAlive, keepAlive] :=
    carried_whole (by decide +kernel)
  obtain ⟨t, ht, hiff⟩ := commands_iff (fun _ => 0) [] [keepAlive, keepAlive] (by decide +kernel)
    [.read keepAlive, .again, .read keepAlive] (by decide +kernel)
  exact ⟨hwhole, t, ht, hiff.mpr hwhole⟩

/-- Of two commands in one `read` the second is not processed, and a command in two reads is not
processed at all. -/
theorem commands_lost :
    (∃ t, run (Op.step (fun _ => 0) []) [.read (keepAlive ++ keepAlive)] .new = some t ∧
        t.processed ≠ [keepAlive, keepAlive].filterMap (request fun _ => 0)) ∧
      ∃ t, run (Op.step (fun _ => 0) []) [.read (keepAlive.take 20), .read (keepAlive.drop 20)] .new =
          some t ∧
        t.processed ≠ [keepAlive].filterMap (request fun _ => 0) := by
  have hjoined : (run (Op.step (fun _ => 0) []) [.read (keepAlive ++ keepAlive)] .new).map
      (fun t => decide (t.processed ≠ [keepAlive, keepAlive].filterMap (request fun _ => 0))) =
        some true := by
    decide +kernel
  have hcut : (run (Op.step (fun _ => 0) [])
      [.read (keepAlive.take 20), .read (keepAlive.drop 20)] .new).map
        (fun t => decide (t.processed ≠ [keepAlive].filterMap (request fun _ => 0))) = some true := by
    decide +kernel
  obtain ⟨t, ht, hne⟩ := Option.map_eq_some_iff.mp hjoined
  obtain ⟨u, hu, hne'⟩ := Option.map_eq_some_iff.mp hcut
  exact ⟨⟨t, ht, of_decide_eq_true hne⟩, u, hu, of_decide_eq_true hne'⟩

end AndroidVendor.Ratd
