import Mathlib.Algebra.Group.Nat.Defs
import Mathlib.Algebra.Ring.Int.Defs
import AndroidVendor.Lib.Scan

/-!
# Application commands

The decoders of `dataparse.c` search a text for the name of a field, scan what follows it, and let
`sscanf` store the value into a packed struct. All of them are `decodeFields` of their own list of
conversions. `processAppCommandBuffer` then uses decoded numbers as indices.

## Conventions

* A request is the memory from the start of its struct on; what is stored behind a field, or behind
  the struct, is in it.
* `writes` is a history: where the conversions have stored.
* A `%d` reads an `intmax_t`, keeping to its range, and stores the low 32 bits.
-/

namespace AndroidVendor.Ratd

open Scan

/-! ### Formats -/

/-- `"name"`, in its quotation marks. -/
def node (name : List Char) : List UInt8 :=
  ascii '\"' :: name.map ascii ++ [ascii '\"']

def nodeMessageType := node ['m', 'e', 's', 's', 'a', 'g', 'e', 'T', 'y', 'p', 'e']
def nodeSessionId := node ['s', 'e', 's', 's', 'i', 'o', 'n', 'i', 'd']
def nodeNetType := node ['n', 'e', 't', 'T', 'y', 'p', 'e']
def nodeToken := node ['t', 'o', 'k', 'e', 'n']
def nodeSubflowIp := node ['i', 'p']
def nodeBand := node ['b', 'a', 'n', 'd']
def nodeRtt := node ['r', 't', 't']
def nodeNetTypeName := node ['n', 'e', 't', 'T', 'y', 'p', 'e', 'N', 'a', 'm', 'e']
def nodeNumberType := node ['n', 'u', 'm', 'b', 'e', 'r', 'T', 'y', 'p', 'e']
def nodeDeleteCause := node ['d', 'e', 'l', 'e', 't', 'e', 'C', 'a', 'u', 's', 'e']
def nodeOperation := node ['o', 'p', 'e', 'r', 'a', 't', 'i', 'o', 'n']
def nodeUid := node ['u', 'i', 'd']
def nodeDns := node ['d', 'n', 's']
def nodeMag := node ['m', 'a', 'g']

/-- `"name":%d`. -/
def intFormat (node : List UInt8) : List Directive :=
  (node ++ [ascii ':']).map .lit ++ [.int]

def isLetter (b : UInt8) : Bool :=
  (ascii 'a' ≤ b && b ≤ ascii 'z') || (ascii 'A' ≤ b && b ≤ ascii 'Z')

/-- `["a-zA-Z: ]`. -/
def beforeAddress (b : UInt8) : Bool :=
  b == ascii '\"' || isLetter b || b == ascii ':' || b == ascii ' '

/-- `[0-9.]`. -/
def inAddress (b : UInt8) : Bool := isDigit b || b == ascii '.'

/-- `%*["a-zA-Z: ]%[0-9.]`; what the formats have behind it stores nothing. -/
def addressFormat : List Directive := [.skip beforeAddress, .set inAddress]

/-- `[^",]`. -/
def inName (b : UInt8) : Bool := b != ascii '\"' && b != ascii ','

/-- `"name":%[^",]`. -/
def nameFormat (node : List UInt8) : List Directive :=
  (node ++ [ascii ':']).map .lit ++ [.set inName]

/-- `"name":%*["]%[^",]`. -/
def quotedNameFormat (node : List UInt8) : List Directive :=
  (node ++ [ascii ':']).map .lit ++ [.skip (· == ascii '\"'), .set inName]

/-! ### Packed structs -/

/-- A member of a packed struct. -/
structure Field where
  offset : ℕ
  size : ℕ
  deriving DecidableEq, Repr

/-- Bytes stored for the member `field`. -/
structure Access where
  field : Field
  len : ℕ
  deriving DecidableEq, Repr

def Access.Inside (a : Access) : Prop := a.len ≤ a.field.size

instance (a : Access) : Decidable a.Inside := inferInstanceAs (Decidable (_ ≤ _))

abbrev Memory := ℕ → UInt8

def Memory.store (m : Memory) (offset : ℕ) (bytes : List UInt8) : Memory :=
  fun k => if offset ≤ k ∧ k < offset + bytes.length then bytes.getD (k - offset) 0 else m k

def Memory.load (m : Memory) (offset size : ℕ) : List UInt8 :=
  (List.range size).map fun k => m (offset + k)

/-- The range of `intmax_t`. -/
def clamp (v : ℤ) : ℤ := max (-2 ^ 63) (min v (2 ^ 63 - 1))

/-- A number cut to a 32-bit `int`. -/
def toInt32 (v : ℤ) : ℤ := v.bmod (2 ^ 32)

/-- The low byte first. -/
def littleEndian (v : ℤ) : List UInt8 :=
  let n := (v % 2 ^ 32).toNat
  [.ofNat n, .ofNat (n >>> 8), .ofNat (n >>> 16), .ofNat (n >>> 24)]

/-- A member of type `__be32`, read as an `int`. -/
def Memory.int (m : Memory) (offset : ℕ) : ℤ :=
  toInt32 ((m offset).toNat + (m (offset + 1)).toNat * 2 ^ 8 + (m (offset + 2)).toNat * 2 ^ 16 +
    (m (offset + 3)).toNat * 2 ^ 24)

/-- A member of type `char[]`, read as a string. -/
def Memory.str (m : Memory) (field : Field) : List UInt8 :=
  (m.load field.offset field.size).takeWhile (· != 0)

/-- What a conversion stores. -/
def storedBytes : Value → List UInt8
  | .int v => littleEndian (clamp v)
  | .str s => s ++ [0]

/-! ### Decoders -/

/-- What stands behind the name of a field. -/
inductive Kind
  | number
  | address
  | name
  deriving DecidableEq, Repr

/-- One `strstr`, and the `sscanf` of what it finds. -/
structure Conversion where
  node : List UInt8
  kind : Kind
  field : Field
  deriving DecidableEq, Repr

/-- The formats, which are tried in turn. -/
def Conversion.formats (c : Conversion) : List (List Directive) :=
  match c.kind with
  | .number => [intFormat c.node]
  | .address => [addressFormat]
  | .name => [nameFormat c.node, quotedNameFormat c.node]

/-- `0 < sscanf(...)` and the value. -/
def Conversion.convert (c : Conversion) (buffer : List UInt8) : Option Value :=
  (strstr c.node buffer).bind fun found => c.formats.findSome? fun fmt => (scan fmt found).head?

/-- The conversions that are made, one after the other until one fails, and their values. -/
def made (buffer : List UInt8) : List Conversion → List (Conversion × Value)
  | [] => []
  | c :: cs =>
    match c.convert buffer with
    | none => []
    | some v => (c, v) :: made buffer cs

structure Decoding where
  memory : Memory
  writes : List Access

def Decoding.store (d : Decoding) (c : Conversion) (v : Value) : Decoding where
  memory := d.memory.store c.field.offset (storedBytes v)
  writes := d.writes ++ [⟨c.field, (storedBytes v).length⟩]

/-- Nested conversions; the result is whether all of them succeed. -/
def decodeFields (buffer : List UInt8) : List Conversion → Decoding → Decoding × Bool
  | [], d => (d, true)
  | c :: cs, d =>
    match c.convert buffer with
    | none => (d, false)
    | some v => decodeFields buffer cs (d.store c v)

def intAt (node : List UInt8) (offset size : ℕ) : Conversion :=
  ⟨node, .number, ⟨offset, size⟩⟩

def addressAt (node : List UInt8) (offset : ℕ) : Conversion := ⟨node, .address, ⟨offset, 16⟩⟩

/-- `netTypeName`, a `char[13]` at 12. -/
def netTypeName : Conversion := ⟨nodeNetTypeName, .name, ⟨12, 13⟩⟩

def sessionId : Conversion := intAt nodeSessionId 4 4

def netType : Conversion := intAt nodeNetType 8 4

/-- The conversions into `struct r_app_disable`. -/
def decodeAppDisableReq : List Conversion := [sessionId]

/-- The conversions into `struct r_app_add`. -/
def decodeAppAddSubFlowReq : List Conversion :=
  [netType, sessionId, intAt nodeToken 25 4, intAt nodeBand 29 4, intAt nodeRtt 33 4,
    addressAt nodeSubflowIp 37, netTypeName]

/-- The conversions into `struct r_app_del`. -/
def decodeAppDelSubFlowReq : List Conversion :=
  [sessionId, intAt nodeNumberType 12 1, intAt nodeToken 8 4, intAt nodeDeleteCause 13 1]

/-- The conversions into `struct r_app_try`. -/
def decodeAppTrySubFlowReq : List Conversion := [netType, sessionId, netTypeName]

/-- The conversions into `struct r_app_mpc_keepalive`. -/
def decodeAppMPCKeepAliveReq : List Conversion := [sessionId]

/-- The conversions into `struct r_app_enable_log`. -/
def decodeAppEnablelogReq : List Conversion := [sessionId, intAt nodeOperation 8 4]

/-- The conversions into `struct r_app_enable`. -/
def decodeAppEnableReq : List Conversion := [netType, sessionId, netTypeName]

/-- The conversions into `struct r_app_config`. -/
def decodeAppConfigReq : List Conversion :=
  [intAt nodeUid 8 4, sessionId, addressAt nodeDns 12, addressAt nodeMag 28]

/-- The conversions into `struct r_app_release_mp`. -/
def decodeAppReleaseMpReq : List Conversion :=
  [sessionId, intAt nodeNumberType 12 1, intAt nodeToken 8 4, intAt nodeDeleteCause 13 1]

/-- The types of message that are decoded. -/
inductive MessageType
  | addSubflowReq
  | trySubflowReq
  | delSubflowReq
  | releaseMpReq
  | enableMpReq
  | disableMpReq
  | configMpReq
  | keepaliveReq
  | enableMpcLog
  deriving DecidableEq, Repr

/-- `enum MESSAGE_TYPE`. -/
def MessageType.toInt : MessageType → ℤ
  | .addSubflowReq => 1
  | .trySubflowReq => 3
  | .delSubflowReq => 5
  | .releaseMpReq => 7
  | .enableMpReq => 17
  | .disableMpReq => 19
  | .configMpReq => 21
  | .keepaliveReq => 23
  | .enableMpcLog => 25

def MessageType.all : List MessageType :=
  [.addSubflowReq, .trySubflowReq, .delSubflowReq, .releaseMpReq, .enableMpReq, .disableMpReq,
    .configMpReq, .keepaliveReq, .enableMpcLog]

/-- The `switch` of `decodeAppCommandBufferNew` and of `processAppCommandBuffer`. -/
def MessageType.ofInt (n : ℤ) : Option MessageType := MessageType.all.find? (·.toInt = n)

def MessageType.conversions : MessageType → List Conversion
  | .addSubflowReq => decodeAppAddSubFlowReq
  | .trySubflowReq => decodeAppTrySubFlowReq
  | .delSubflowReq => decodeAppDelSubFlowReq
  | .releaseMpReq => decodeAppReleaseMpReq
  | .enableMpReq => decodeAppEnableReq
  | .disableMpReq => decodeAppDisableReq
  | .configMpReq => decodeAppConfigReq
  | .keepaliveReq => decodeAppMPCKeepAliveReq
  | .enableMpcLog => decodeAppEnablelogReq

/-- The text up to its end mark. -/
def cString (buffer : List UInt8) : List UInt8 := buffer.takeWhile (· != 0)

/-- `messageType`, a local `int`. -/
def messageTypeConversion : Conversion := intAt nodeMessageType 0 4

/-- What `sscanf` makes of the message type. -/
def scanMessageType (text : List UInt8) : Option MessageType :=
  match messageTypeConversion.convert text with
  | some (.int v) => MessageType.ofInt (toInt32 (clamp v))
  | _ => none

/-- A struct as `malloc` returns it, and its message type stored. -/
def Decoding.alloc (t : MessageType) (garbage : Memory) : Decoding where
  memory := garbage.store 0 (littleEndian t.toInt)
  writes := []

/-- The request, if one is decoded, and what has been written; `garbage` is the allocated memory. -/
def decodeAppCommandBufferNew (buffer : List UInt8) (garbage : Memory) :
    Option (MessageType × Memory) × List Access :=
  let text := cString buffer
  match scanMessageType text with
  | none => (none, [])
  | some t =>
    let r := decodeFields text t.conversions (.alloc t garbage)
    (if r.2 then some (t, r.1.memory) else none, r.1.writes)

/-! ### Dispatch -/

/-- `MAX_SUBFLOWS`, the length of the flow table, of `detectTimeInfo` and of `NETTYPE_INFO`. -/
def maxSubflows : ℕ := 3

/-- The length of `MESSAGE_TYPE_INFO`. -/
def messageTypeInfoLength : ℕ := 28

/-- `sizeof(char *)`. -/
def pointerSize : ℕ := 8

/-- `GetNetType` and `GetMessageInfo` compare the index, as a `size_t`, with the size of their table
in bytes. -/
def infoIndex (length : ℕ) (i : ℤ) : List (ℤ × ℕ) :=
  if i % 2 ^ 64 < length * pointerSize then [(i, length)] else []

/-- The indices of the tables that `processAppCommandBuffer` uses for a request, with the lengths of
the tables. -/
def tableIndices (m : Memory) : List (ℤ × ℕ) :=
  infoIndex messageTypeInfoLength (m.int 0) ++
    match MessageType.ofInt (m.int 0) with
    | some .enableMpReq | some .addSubflowReq | some .trySubflowReq =>
      ((m.int 8).tdiv 2, maxSubflows) :: infoIndex maxSubflows ((m.int 8).tdiv 2)
    | _ => []

end AndroidVendor.Ratd
