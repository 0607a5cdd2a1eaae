import AndroidVendor.Ratd.AppRequest

/-!
# Responses to the application

`processAppCommandBuffer` answers a request with texts that name its session, and passes some of the
requests on to the gateway; the encoders of those swap the bytes of members in place.

## Conventions

* What the sockets answer, and what is read of `mpc_host`, is an argument.
* An exception is a notification, not a response: it has no session id. So is what MPD reports.
* The responses are those of the call itself, not those that pass on an answer of the gateway.
-/

namespace AndroidVendor.Ratd

open Scan

/-! ### Byte order -/

/-- The `int` with these four bytes, the low byte first. -/
def intOfBytes (bytes : List UInt8) : ℤ :=
  toInt32 (bytes.foldr (fun b n => b.toNat + n * 2 ^ 8) 0)

/-- `htonl` and `ntohl`. -/
def htonl (v : ℤ) : ℤ := intOfBytes (littleEndian v).reverse

/-- The high byte first. -/
def bigEndian (v : ℤ) : List UInt8 := (littleEndian v).reverse

/-- `r->member = htonl(r->member)`. -/
def Memory.hton (m : Memory) (offset : ℕ) : Memory :=
  m.store offset (littleEndian (htonl (m.int offset)))

/-! ### Requests to the gateway

An encoder returns the message and what it leaves of the request.
-/

/-- `encodeMPSyncInitRequest`, of a struct of its own. -/
def encodeMPSyncInitRequest (sessionId uid : ℤ) : List UInt8 :=
  bigEndian 9 ++ bigEndian sessionId ++ bigEndian 17 ++ bigEndian uid ++ [0]

/-- `encodeTryRequest`. -/
def encodeTryRequest (m : Memory) (uid timeStamp : ℤ) (ttl : UInt16) : List UInt8 × Memory :=
  let m := (m.hton 0).hton 4
  (m.load 0 8 ++ bigEndian 22 ++ bigEndian uid ++ bigEndian timeStamp ++
    [(ttl >>> 8).toUInt8, ttl.toUInt8], m)

/-- `encodeMPReleaseRequest` and `encodeDelRequest`, whose structs and messages have one layout. -/
def encodeMPReleaseRequest (m : Memory) (uid : ℤ) : List UInt8 × Memory :=
  let m := ((m.hton 0).hton 4).hton 8
  (m.load 0 8 ++ bigEndian 22 ++ bigEndian uid ++ m.load 8 4 ++ [m 12, m 13], m)

def encodeDelRequest (m : Memory) (uid : ℤ) : List UInt8 × Memory := encodeMPReleaseRequest m uid

/-- `encodeAddRequest`. -/
def encodeAddRequest (m : Memory) (uid : ℤ) : List UInt8 × Memory :=
  let m := (m.hton 0).hton 4
  (m.load 0 8 ++ bigEndian 25 ++ bigEndian uid ++ bigEndian (m.int 25) ++ [m 8] ++
    bigEndian (m.int 29), m)

/-! ### Texts to the application -/

def str (s : String) : List UInt8 := s.toList.map ascii

/-- `encodeAppRsp`. -/
def encodeAppRsp (messageType sessionId result : ℤ) : List UInt8 :=
  str "[\x7b\"messageType\":" ++ printInt messageType ++ str ",\"sessionid\":" ++ printInt sessionId ++
    str ",\"result\":" ++ printInt result ++ str "\x7d]"

/-- `encodeAppTypeAndSessionId`. -/
def encodeAppTypeAndSessionId (messageType sessionId : ℤ) : List UInt8 :=
  str "[\x7b\"messageType\":" ++ printInt messageType ++ str ",\"sessionid\":" ++ printInt sessionId ++
    str "\x7d]"

/-- `encodeAppRspWithNetType`. -/
def encodeAppRspWithNetType (messageType sessionId netType result : ℤ) : List UInt8 :=
  str "[\x7b\"messageType\":" ++ printInt messageType ++ str ",\"sessionid\":" ++ printInt sessionId ++
    str ",\"netType\":" ++ printInt netType ++ str ",\"result\":" ++ printInt result ++ str "\x7d]"

/-- `encodeExceptionRsp`. -/
def encodeExceptionRsp (messageType exceptionCode netType : ℤ) : List UInt8 :=
  str "[\x7b\"messageType\":" ++ printInt messageType ++ str ",\"exceptionCode\":" ++
    printInt exceptionCode ++ str ",\"netType\":" ++ printInt netType ++ str "\x7d]"

/-- What `processAppCommandBuffer` sends: a response or an exception to the application, a message
to the gateway on one subflow or on all. -/
inductive Sent
  | response (text : List UInt8)
  | exception (text : List UInt8)
  | remote (bytes : List UInt8)
  | remoteAll (bytes : List UInt8)
  deriving DecidableEq, Repr

def echoAppResult (messageType sessionId result : ℤ) : Sent :=
  .response (encodeAppRsp messageType sessionId result)

def echoAppKeepAlive (messageType sessionId : ℤ) : Sent :=
  .response (encodeAppTypeAndSessionId messageType sessionId)

def echoAppResultWithNetType (messageType sessionId netType result : ℤ) : Sent :=
  .response (encodeAppRspWithNetType messageType sessionId netType result)

/-- `MESSAGE_TYPE_EXCEPTION` is 26. -/
def echoAppException (exceptionCode netType : ℤ) : Sent :=
  .exception (encodeExceptionRsp 26 exceptionCode netType)

/-- What `processAppCommandBuffer` reads of ratd and of the world. -/
structure World where
  /-- `mpc_op.uid`. -/
  uid : ℤ
  /-- `mpc_host.subflow_nu`. -/
  subflowNu : ℤ
  /-- `status.commandFd` of the subflow the request names. -/
  commandFd : ℤ
  /-- What `establishUdpSession` returns. -/
  session : ℤ
  /-- What `udp_write` returns for a descriptor above 0. -/
  written : ℤ
  /-- The command session of a subflow that is tried has been up for more than ten seconds. -/
  stale : Bool
  /-- `getTimeStamp`. -/
  timeStamp : ℤ
  /-- `getRTTD`. -/
  rttd : UInt16
  /-- A deletion leaves no subflow. -/
  lastFlow : Bool

def World.udpWrite (w : World) (fd : ℤ) : ℤ := if fd ≤ 0 then -1 else w.written

/-- `RESULT_OK` and `RESULT_FAILED`. -/
def resultOk : ℤ := 0

def resultFailed : ℤ := -1

/-- `EXCEPTION_CODE_MP_SUBFLOW_ERROR` is −1, `EXCEPTION_CODE_MP_TUN_CLOSE` −3 and
`MP_STREAM_FLAG_TUN0` 6. -/
def subflowError (res netType : ℤ) : List Sent :=
  if res = -1 then [echoAppException (-1) netType] else []

def tunClose : Sent := echoAppException (-3) 6

/-- `processAppCommandBuffer` on a decoded request. -/
def processAppCommand (w : World) (t : MessageType) (m : Memory) : List Sent :=
  match t with
  | .configMpReq => [echoAppResult 22 (m.int 4) resultOk]
  | .enableMpReq =>
    if w.session = -1 then [echoAppResult 18 (m.int 4) resultFailed]
    else
      let res := w.udpWrite w.session
      .remote (encodeMPSyncInitRequest (m.int 4) w.uid) ::
        if res < 0 then subflowError res (m.int 8) ++ [echoAppResult 18 (m.int 4) resultFailed] else []
  | .disableMpReq => [tunClose, echoAppResult 20 (m.int 4) resultOk]
  | .releaseMpReq =>
    if w.subflowNu ≤ 0 then [echoAppResultWithNetType 8 (m.int 4) (m 12).toNat resultFailed]
    else [.remoteAll (encodeMPReleaseRequest m w.uid).1]
  | .addSubflowReq =>
    if w.commandFd ≤ 0 ∧ w.session = -1 then
      [echoAppResultWithNetType 2 (m.int 4) (m.int 8) resultFailed]
    else
      let commandFd := if w.commandFd ≤ 0 then w.session else w.commandFd
      let r := encodeAddRequest m w.uid
      let failed := echoAppResultWithNetType 2 (htonl (r.2.int 4)) (r.2.int 8) resultFailed
      if 0 < commandFd then
        let res := w.udpWrite commandFd
        .remote r.1 :: if res < 0 then subflowError res (r.2.int 8) ++ [failed] else []
      else [failed]
  | .delSubflowReq =>
    if w.subflowNu ≤ 0 then [echoAppResultWithNetType 6 (htonl (m.int 4)) (m 12).toNat resultFailed]
    else
      let r := encodeDelRequest m w.uid
      [.remoteAll r.1, echoAppResultWithNetType 6 (htonl (r.2.int 4)) (r.2 12).toNat resultOk] ++
        if w.lastFlow then [tunClose] else []
  | .trySubflowReq =>
    let commandFd := if 0 < w.commandFd ∧ w.stale then -1 else w.commandFd
    if commandFd < 0 ∧ w.session = -1 then
      [echoAppResultWithNetType 4 (m.int 4) (m.int 8) resultFailed]
    else
      let commandFd := if commandFd < 0 then w.session else commandFd
      let r := encodeTryRequest m w.uid w.timeStamp w.rttd
      let res := w.udpWrite commandFd
      .remote r.1 ::
        if res < 0 then
          subflowError res (r.2.int 8) ++
            [echoAppResultWithNetType 4 (htonl (r.2.int 4)) (r.2.int 8) resultFailed]
        else []
  | .keepaliveReq => [echoAppKeepAlive 24 (m.int 4)]
  | .enableMpcLog => []

def processAppCommandBuffer (w : World) (buffer : List UInt8) (garbage : Memory) : List Sent :=
  match (decodeAppCommandBufferNew buffer garbage).1 with
  | none => []
  | some (t, m) => processAppCommand w t m

/-- The session id of a text, read as the decoders do. -/
def Carries (n : ℤ) (text : List UInt8) : Prop := sessionId.convert text = some (.int n)

instance (n : ℤ) (text : List UInt8) : Decidable (Carries n text) :=
  inferInstanceAs (Decidable (_ = _))

variable {n v : ℤ} {m : Memory} {buffer rest : List UInt8} {garbage : Memory}
  {t : MessageType} {w : World} {offset o : ℕ}

/-! ### The session id of a text -/

theorem quote_not_mem_printInt (v : ℤ) : ascii '\"' ∉ printInt v := by
  intro h
  rw [printInt] at h
  split at h
  · rcases List.mem_cons.mp h with h | h
    · exact absurd h (by decide)
    · exact absurd (isDigit_decimal _ _ h) (by decide)
  · exact absurd (isDigit_decimal _ _ h) (by decide)

/-- The beginning of every response. -/
def rspHead (messageType sessionId : ℤ) : List UInt8 :=
  str "[\x7b\"messageType\":" ++ printInt messageType ++ str ",\"sessionid\":" ++ printInt sessionId

theorem strstr_rspHead (messageType sessionId : ℤ) (rest : List UInt8) :
    strstr nodeSessionId (rspHead messageType sessionId ++ rest) =
      some (nodeSessionId ++ ascii ':' :: (printInt sessionId ++ rest)) := by
  have hskip (s : List UInt8) : strstr nodeSessionId (str "[\x7b\"messageType\":" ++ s) =
      strstr nodeSessionId s := rfl
  have hfield (s : List UInt8) : str ",\"sessionid\":" ++ s =
      [ascii ','] ++ (nodeSessionId ++ ascii ':' :: s) := rfl
  rw [rspHead, List.append_assoc, List.append_assoc, List.append_assoc, hskip, hfield]
  rw [nodeSessionId, node, List.cons_append, strstr_skip (quote_not_mem_printInt messageType),
    strstr_skip (by decide)]
  exact strstr_self (List.cons_ne_nil _ _)

/-- A response carries the number that was printed into it. -/
theorem carries_rspHead (hrest : ∀ b, rest.head? = some b → isDigit b = false)
    (messageType : ℤ) : Carries n (rspHead messageType v ++ rest) ↔ v = n := by
  have hconvert : sessionId.convert (rspHead messageType v ++ rest) = some (.int v) := by
    refine convert_eq_some.mpr ⟨_, strstr_rspHead messageType v rest, ?_⟩
    change [intFormat nodeSessionId].findSome? _ = _
    rw [List.findSome?_singleton]
    exact head?_intFormat.mpr ⟨_, v, rest, rfl, scanInt_printInt hrest v, rfl⟩
  rw [Carries, hconvert, Option.some.injEq, Value.int.injEq]

theorem carries_encodeAppRsp (messageType result : ℤ) :
    Carries n (encodeAppRsp messageType v result) ↔ v = n := by
  have hrest (b : UInt8) (hb : (str ",\"result\":" ++ printInt result ++ str "\x7d]").head? = some b) :
      isDigit b = false := by
    obtain rfl : ascii ',' = b := Option.some.inj hb
    decide
  rw [← carries_rspHead hrest messageType, encodeAppRsp, rspHead]
  simp only [List.append_assoc]

theorem carries_encodeAppTypeAndSessionId (messageType : ℤ) :
    Carries n (encodeAppTypeAndSessionId messageType v) ↔ v = n := by
  have hrest (b : UInt8) (hb : (str "\x7d]").head? = some b) : isDigit b = false := by
    obtain rfl : ascii '\x7d' = b := Option.some.inj hb
    decide
  rw [← carries_rspHead hrest messageType, encodeAppTypeAndSessionId, rspHead]

theorem carries_encodeAppRspWithNetType (messageType netType result : ℤ) :
    Carries n (encodeAppRspWithNetType messageType v netType result) ↔ v = n := by
  have hrest (b : UInt8) (hb : (str ",\"netType\":" ++ printInt netType ++ str ",\"result\":" ++
      printInt result ++ str "\x7d]").head? = some b) : isDigit b = false := by
    obtain rfl : ascii ',' = b := Option.some.inj hb
    decide
  rw [← carries_rspHead hrest messageType, encodeAppRspWithNetType, rspHead]
  simp only [List.append_assoc]

/-! ### Swapped members -/

theorem intOfBytes_eq {b₀ b₁ b₂ b₃ : UInt8} :
    intOfBytes [b₀, b₁, b₂, b₃] =
      toInt32 (b₀.toNat + b₁.toNat * 2 ^ 8 + b₂.toNat * 2 ^ 16 + b₃.toNat * 2 ^ 24) := by
  refine congrArg toInt32 ?_
  simp only [List.foldr_cons, List.foldr_nil]
  omega

theorem toInt32_emod (v : ℤ) : toInt32 v % 2 ^ 32 = v % 2 ^ 32 := by
  have hmod := Int.bmod_emod (x := v) (m := 2 ^ 32)
  exact_mod_cast hmod

theorem littleEndian_intOfBytes {b₀ b₁ b₂ b₃ : UInt8} :
    littleEndian (intOfBytes [b₀, b₁, b₂, b₃]) = [b₀, b₁, b₂, b₃] := by
  have h₀ := b₀.toNat_lt
  have h₁ := b₁.toNat_lt
  have h₂ := b₂.toNat_lt
  have h₃ := b₃.toNat_lt
  have hnat : (intOfBytes [b₀, b₁, b₂, b₃] % 2 ^ 32).toNat =
      b₀.toNat + b₁.toNat * 2 ^ 8 + b₂.toNat * 2 ^ 16 + b₃.toNat * 2 ^ 24 := by
    rw [intOfBytes_eq, toInt32_emod]
    omega
  have hbyte {k : ℕ} {b : UInt8} (hk : k % 2 ^ 8 = b.toNat) : UInt8.ofNat k = b := by
    apply UInt8.toNat_inj.mp
    rw [UInt8.toNat_ofNat', hk]
  rw [littleEndian]
  simp only [hnat, Nat.shiftRight_eq_div_pow]
  rw [hbyte (b := b₀) (by omega), hbyte (b := b₁) (by omega), hbyte (b := b₂) (by omega),
    hbyte (b := b₃) (by omega)]

theorem toInt32_toInt32 (v : ℤ) : toInt32 (toInt32 v) = toInt32 v := Int.bmod_bmod

theorem intOfBytes_littleEndian (v : ℤ) : intOfBytes (littleEndian v) = toInt32 v := by
  rw [← Memory.Holds.int (m := (Memory.store (fun _ => 0) 0 (littleEndian v))) Memory.store_holds]
  exact intOfBytes_eq

theorem toInt32_htonl (v : ℤ) : toInt32 (htonl v) = htonl v := by
  rw [htonl, intOfBytes, toInt32_toInt32]

/-- Swapped twice. -/
theorem htonl_htonl (v : ℤ) : htonl (htonl v) = toInt32 v := by
  have hswap : littleEndian (htonl v) = (littleEndian v).reverse := littleEndian_intOfBytes
  rw [htonl, hswap, List.reverse_reverse, intOfBytes_littleEndian]

theorem Memory.int_hton (m : Memory) (o : ℕ) : (m.hton o).int o = htonl (m.int o) :=
  (Memory.Holds.int Memory.store_holds).trans (toInt32_htonl _)

theorem Memory.int_hton_ne (h : offset + 4 ≤ o ∨ o + 4 ≤ offset) :
    (m.hton o).int offset = m.int offset := by
  have hbyte (k : ℕ) (hk : k < 4) : m.hton o (offset + k) = m (offset + k) := by
    rw [Memory.hton, Memory.store, if_neg]
    change ¬(o ≤ offset + k ∧ offset + k < o + 4)
    omega
  rw [Memory.int, Memory.int, hbyte 1 (by decide), hbyte 2 (by decide), hbyte 3 (by decide)]
  rw [← Nat.add_zero offset, hbyte 0 (by decide)]

theorem toInt32_int (m : Memory) (offset : ℕ) : toInt32 (m.int offset) = m.int offset := by
  rw [Memory.int, toInt32_toInt32]

/-- The encoders leave the session id swapped. -/
theorem int_encodeAddRequest (uid : ℤ) : (encodeAddRequest m uid).2.int 4 = htonl (m.int 4) := by
  change ((m.hton 0).hton 4).int 4 = _
  rw [Memory.int_hton, Memory.int_hton_ne (.inr (by decide))]

theorem int_encodeTryRequest (uid timeStamp : ℤ) (ttl : UInt16) :
    (encodeTryRequest m uid timeStamp ttl).2.int 4 = htonl (m.int 4) :=
  int_encodeAddRequest uid

theorem int_encodeDelRequest (uid : ℤ) : (encodeDelRequest m uid).2.int 4 = htonl (m.int 4) := by
  change (((m.hton 0).hton 4).hton 8).int 4 = _
  rw [Memory.int_hton_ne (.inl (by decide)), Memory.int_hton, Memory.int_hton_ne (.inr (by decide))]

/-! ### The session id of a decoded request -/

/-- No other member reaches back to the session id, whatever is stored for it. -/
theorem holds_sessionId {d : Decoding} {found : List (Conversion × Value)} {bytes : List UInt8}
    (hlen : bytes.length = 4)
    (hfound : ∀ p ∈ found, p.1.field.offset = 4 ∧ storedBytes p.2 = bytes ∨ 8 ≤ p.1.field.offset)
    (h : d.memory.Holds 4 bytes ∨ ∃ p ∈ found, p.1.field.offset = 4) :
    (d.storeAll found).memory.Holds 4 bytes := by
  induction found generalizing d with
  | nil => exact h.resolve_right fun ⟨p, hp, _⟩ => nomatch hp
  | cons p found ih =>
    rw [Decoding.storeAll, List.foldl_cons]
    refine ih (fun q hq => hfound q (List.mem_cons_of_mem _ hq)) ?_
    rcases hfound p List.mem_cons_self with ⟨hoffset, hbytes⟩ | hbehind
    · refine .inl ?_
      change (d.memory.store p.1.field.offset (storedBytes p.2)).Holds 4 bytes
      rw [hoffset, hbytes]
      exact Memory.store_holds
    · rcases h with hholds | ⟨q, hq, hoffset⟩
      · exact .inl (hholds.store (.inl (by omega)))
      · rcases List.mem_cons.mp hq with rfl | hq
        · omega
        · exact .inr ⟨q, hq, hoffset⟩

theorem conversions_sessionId (t : MessageType) :
    sessionId ∈ t.conversions ∧ ∀ c ∈ t.conversions, c = sessionId ∨ 8 ≤ c.field.offset := by
  cases t <;> decide +kernel

/-- A decoded request has the session id that its text writes. -/
theorem int_sessionId (hdec : (decodeAppCommandBufferNew buffer garbage).1 = some (t, m))
    (hn : sessionId.written (cString buffer) = some (.int n)) (hrange : InRange n) : m.int 4 = n := by
  have ht : scanMessageType (cString buffer) = some t := by
    cases hs : scanMessageType (cString buffer) with
    | none => simp [decodeAppCommandBufferNew, hs] at hdec
    | some t' => rw [((decoded_iff hs).mp hdec).2.1]
  obtain ⟨hall, -, rfl⟩ := (decoded_iff ht).mp hdec
  obtain ⟨hmem, hothers⟩ := conversions_sessionId t
  obtain ⟨v, hv⟩ := Option.isSome_iff_exists.mp (hall sessionId hmem)
  obtain rfl : v = .int n := Option.some.inj ((written_number rfl hv).symm.trans hn)
  have hholds : ((Decoding.alloc t garbage).storeAll
      (made (cString buffer) t.conversions)).memory.Holds 4 (littleEndian (clamp n)) := by
    refine holds_sessionId rfl (fun p hp => ?_) (.inr ⟨_, made_of_all hall hmem hv, rfl⟩)
    obtain ⟨hpc, hpv⟩ := mem_made hp
    rcases hothers p.1 hpc with heq | hbehind
    · rw [heq, hv] at hpv
      exact .inl ⟨by rw [heq]; rfl, by rw [← Option.some.inj hpv]; rfl⟩
    · exact .inr hbehind
  rw [hholds.int]
  exact toInt32_clamp.mpr hrange

/-! ### All requests -/

/-- A response has the session id `n`. -/
def Sent.Names (n : ℤ) : Sent → Prop
  | .response text => Carries n text
  | .exception _ | .remote _ | .remoteAll _ => True

@[simp] theorem names_echoAppResult (messageType result : ℤ) :
    (echoAppResult messageType v result).Names n ↔ v = n := carries_encodeAppRsp messageType result

@[simp] theorem names_echoAppKeepAlive (messageType : ℤ) :
    (echoAppKeepAlive messageType v).Names n ↔ v = n := carries_encodeAppTypeAndSessionId messageType

@[simp] theorem names_echoAppResultWithNetType (messageType netType result : ℤ) :
    (echoAppResultWithNetType messageType v netType result).Names n ↔ v = n :=
  carries_encodeAppRspWithNetType messageType netType result

@[simp] theorem names_remoteAll (bytes : List UInt8) : (Sent.remoteAll bytes).Names n := trivial

@[simp] theorem names_echoAppException (exceptionCode netType : ℤ) :
    (echoAppException exceptionCode netType).Names n := trivial

theorem names_subflowError (res netType : ℤ) : ∀ sent ∈ subflowError res netType, sent.Names n := by
  rw [subflowError]
  split
  · simp
  · simp

/-- A deletion without a running subflow answers with the bytes of the session id swapped. -/
def Echoes (w : World) (t : MessageType) (n : ℤ) : Prop :=
  t = .delSubflowReq → w.subflowNu ≤ 0 → htonl n = n

instance (w : World) (t : MessageType) (n : ℤ) : Decidable (Echoes w t n) :=
  inferInstanceAs (Decidable (_ → _))

/-- A message that is passed on, and the response if that fails. -/
theorem names_passed {failed : Prop} [Decidable failed] {bytes : List UInt8} {res netType : ℤ}
    {sent : Sent} (h : sent.Names n) :
    ∀ s ∈ Sent.remote bytes :: if failed then subflowError res netType ++ [sent] else [],
      s.Names n := by
  rw [List.forall_mem_cons]
  refine ⟨trivial, ?_⟩
  split
  · rw [List.forall_mem_append, List.forall_mem_singleton]
    exact ⟨names_subflowError res netType, h⟩
  · exact fun s hs => nomatch hs

theorem processAppCommand_iff (w : World) (t : MessageType) (hm : m.int 4 = n) :
    (∀ sent ∈ processAppCommand w t m, sent.Names n) ↔ Echoes w t n := by
  have hback : htonl (htonl (m.int 4)) = n := by rw [htonl_htonl, toInt32_int, hm]
  have hothers (hne : t ≠ .delSubflowReq) : Echoes w t n := fun h => absurd h hne
  cases t with
  | configMpReq => simp [processAppCommand, Echoes, hm]
  | disableMpReq => simp [processAppCommand, Echoes, hm, tunClose]
  | keepaliveReq => simp [processAppCommand, Echoes, hm]
  | enableMpcLog => simp [processAppCommand, Echoes]
  | releaseMpReq =>
    refine iff_of_true ?_ (hothers (by decide))
    rw [processAppCommand]
    split
    · simp [hm]
    · simp
  | enableMpReq =>
    refine iff_of_true ?_ (hothers (by decide))
    rw [processAppCommand]
    split
    · simp [hm]
    · exact names_passed ((names_echoAppResult _ _).mpr hm)
  | addSubflowReq =>
    refine iff_of_true ?_ (hothers (by decide))
    have hfailed : htonl ((encodeAddRequest m w.uid).2.int 4) = n := by
      rw [int_encodeAddRequest, hback]
    rw [processAppCommand]
    dsimp only
    generalize (if w.commandFd ≤ 0 then w.session else w.commandFd) = commandFd
    split
    · simp [hm]
    · split
      · exact names_passed ((names_echoAppResultWithNetType _ _ _).mpr hfailed)
      · simp only [List.forall_mem_singleton, names_echoAppResultWithNetType, hfailed]
  | trySubflowReq =>
    refine iff_of_true ?_ (hothers (by decide))
    have hfailed : htonl ((encodeTryRequest m w.uid w.timeStamp w.rttd).2.int 4) = n := by
      rw [int_encodeTryRequest, hback]
    rw [processAppCommand]
    dsimp only
    generalize (if 0 < w.commandFd ∧ w.stale = true then -1 else w.commandFd) = commandFd
    by_cases hfd : commandFd < 0 ∧ w.session = -1
    · rw [if_pos hfd]
      simp [hm]
    · rw [if_neg hfd]
      exact names_passed ((names_echoAppResultWithNetType _ _ _).mpr hfailed)
  | delSubflowReq =>
    have hdone : htonl ((encodeDelRequest m w.uid).2.int 4) = n := by rw [int_encodeDelRequest, hback]
    rw [processAppCommand]
    by_cases hnone : w.subflowNu ≤ 0
    · rw [if_pos hnone, List.forall_mem_singleton, names_echoAppResultWithNetType, hm]
      exact ⟨fun h _ _ => h, fun h => h rfl hnone⟩
    · rw [if_neg hnone]
      refine iff_of_true ?_ fun _ h => absurd h hnone
      rw [List.forall_mem_append]
      refine ⟨by simp [hdone], ?_⟩
      split
      · simp [tunClose]
      · exact fun s hs => nomatch hs

/-- **Every response to a request has the session id of the request**, except where a deletion finds
no running subflow: then it has that id with its bytes in reverse order. -/
theorem processAppCommandBuffer_iff (w : World)
    (hdec : (decodeAppCommandBufferNew buffer garbage).1 = some (t, m))
    (hn : sessionId.written (cString buffer) = some (.int n)) (hrange : InRange n) :
    (∀ sent ∈ processAppCommandBuffer w buffer garbage, sent.Names n) ↔ Echoes w t n := by
  rw [processAppCommandBuffer, hdec]
  exact processAppCommand_iff w t (int_sessionId hdec hn hrange)

/-- `messageType` 1 for the subflow of `netType` 2, `sessionid` 7. -/
def addSubflow : List UInt8 :=
  ("\x7b\"messageType\":1,\"sessionid\":7,\"netType\":2,\"netTypeName\":\"wifi\",\"token\":1," ++
    "\"band\":1,\"rtt\":1,\"ip\":\"10.0.0.1\"\x7d").toList.map ascii

/-- No subflow is running, and nothing that is written reaches the gateway. -/
def idleWorld : World where
  uid := 1
  subflowNu := 0
  commandFd := -1
  session := 3
  written := -1
  stale := false
  timeStamp := 0
  rttd := 0
  lastFlow := false

/-- The gateway is not reached. -/
theorem addSubflow_echoed : Echoes idleWorld .addSubflowReq 7 ∧
    ∀ sent ∈ processAppCommandBuffer idleWorld addSubflow fun _ => 0, sent.Names 7 := by
  obtain ⟨m, hm⟩ : ∃ m, (decodeAppCommandBufferNew addSubflow fun _ => 0).1 =
      some (.addSubflowReq, m) := by
    have hdec : (decodeAppCommandBufferNew addSubflow fun _ => 0).1.map (·.1) =
        some MessageType.addSubflowReq := by
      decide +kernel
    obtain ⟨r, hr, ht⟩ := Option.map_eq_some_iff.mp hdec
    exact ⟨r.2, by rw [hr, ← ht]⟩
  have hechoes : Echoes idleWorld .addSubflowReq 7 := by decide
  exact ⟨hechoes, (processAppCommandBuffer_iff idleWorld hm (by decide +kernel)
    ⟨by decide, by decide⟩).mpr hechoes⟩

/-- The deletion with `sessionid` 7 is answered with `sessionid` 117440512. -/
theorem delSubflow_swapped :
    ¬ ∀ sent ∈ processAppCommandBuffer idleWorld delSubflow fun _ => 0, sent.Names 7 := by
  obtain ⟨m, hm, hid⟩ : ∃ m, (decodeAppCommandBufferNew delSubflow fun _ => 0).1 =
      some (.delSubflowReq, m) ∧ m.int 4 = 7 := by
    have hdec : (decodeAppCommandBufferNew delSubflow fun _ => 0).1.map (fun r => (r.1, r.2.int 4)) =
        some (MessageType.delSubflowReq, 7) := by
      decide +kernel
    obtain ⟨r, hr, ht⟩ := Option.map_eq_some_iff.mp hdec
    obtain ⟨ht, hid⟩ := Prod.mk.inj ht
    exact ⟨r.2, by rw [hr, ← ht], hid⟩
  rw [processAppCommandBuffer, hm]
  intro h
  exact absurd ((processAppCommand_iff idleWorld .delSubflowReq hid).mp h) (by decide)

end AndroidVendor.Ratd
