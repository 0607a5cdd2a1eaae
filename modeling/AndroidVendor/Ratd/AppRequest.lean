import AndroidVendor.Ratd.AppText

/-!
# Decoded requests

What `decodeAppCommandBufferNew` leaves in memory. As long as every conversion keeps to its member,
the members are apart, and a member holds what its conversion has found: `read_decoded`. From this
`decodeAppCommandBufferNew_iff` reads off for which texts the decoding is safe and exact and the
dispatch stays within its tables.
-/

namespace AndroidVendor.Ratd

open Scan

variable {text buffer bytes bytes' s : List UInt8} {garbage m : Memory} {offset offset' : ℕ}
  {c : Conversion} {cs : List Conversion} {d : Decoding} {v : Value} {t : MessageType}

/-! ### Memory -/

/-- The bytes stand at `offset`. -/
def Memory.Holds (m : Memory) (offset : ℕ) (bytes : List UInt8) : Prop :=
  ∀ i (h : i < bytes.length), m (offset + i) = bytes[i]

theorem Memory.store_holds : (m.store offset bytes).Holds offset bytes := by
  intro i h
  rw [Memory.store, if_pos ⟨Nat.le_add_right _ _, by omega⟩, Nat.add_sub_cancel_left,
    List.getD_eq_getElem?_getD, List.getElem?_eq_getElem h, Option.getD_some]

theorem Memory.Holds.store (h : m.Holds offset bytes)
    (hapart : offset + bytes.length ≤ offset' ∨ offset' + bytes'.length ≤ offset) :
    (m.store offset' bytes').Holds offset bytes := by
  intro i hi
  rw [Memory.store, if_neg (by omega)]
  exact h i hi

/-- The four bytes of a number, read back. -/
theorem Memory.Holds.int {n : ℤ} (h : m.Holds offset (littleEndian n)) : m.int offset = toInt32 n := by
  have h0 : m offset = _ := h 0 (by simp [littleEndian])
  have h1 : m (offset + 1) = _ := h 1 (by simp [littleEndian])
  have h2 : m (offset + 2) = _ := h 2 (by simp [littleEndian])
  have h3 : m (offset + 3) = _ := h 3 (by simp [littleEndian])
  simp only [littleEndian, List.getElem_cons_zero, List.getElem_cons_succ] at h0 h1 h2 h3
  rw [Memory.int, h0, h1, h2, h3]
  have hk : ((n % 2 ^ 32).toNat : ℤ) = n % 2 ^ 32 :=
    Int.toNat_of_nonneg (Int.emod_nonneg n (by decide))
  have hlt : (n % 2 ^ 32).toNat < 2 ^ 32 := by omega
  generalize (n % 2 ^ 32).toNat = k at hk hlt ⊢
  have hsum : (UInt8.ofNat k).toNat + (UInt8.ofNat (k >>> 8)).toNat * 2 ^ 8 +
      (UInt8.ofNat (k >>> 16)).toNat * 2 ^ 16 + (UInt8.ofNat (k >>> 24)).toNat * 2 ^ 24 = k := by
    simp only [UInt8.toNat_ofNat', Nat.shiftRight_eq_div_pow]
    omega
  refine (congrArg toInt32 (by exact_mod_cast hsum)).trans (b := toInt32 k) ?_
  rw [hk, toInt32]
  exact Int.emod_bmod n (2 ^ 32)

/-- A string shorter than its member, read back. -/
theorem Memory.Holds.str {field : Field} (h : m.Holds field.offset (s ++ [0]))
    (hlen : s.length < field.size) (hs : 0 ∉ s) : m.str field = s := by
  obtain ⟨k, hk⟩ := Nat.exists_eq_add_of_lt hlen
  have hload : m.load field.offset field.size =
      s ++ 0 :: (List.range k).map fun i => m (field.offset + (s.length + 1 + i)) := by
    refine List.ext_getElem (by simp [Memory.load, hk]; omega) fun i h1 h2 => ?_
    simp only [Memory.load, List.getElem_map, List.getElem_range]
    rcases Nat.lt_trichotomy i s.length with hi | rfl | hi
    · rw [h i (by simp; omega), List.getElem_append_left hi, List.getElem_append_left hi]
    · rw [h s.length (by simp)]
      simp
    · obtain ⟨j, rfl⟩ := Nat.exists_eq_add_of_lt hi
      rw [List.getElem_append_right (by omega)]
      simp [Nat.add_assoc, Nat.add_comm 1 j]
  rw [Memory.str, hload, List.takeWhile_append_of_pos, List.takeWhile_cons_of_neg (by decide),
    List.append_nil]
  intro b hb
  simpa using fun h0 : b = 0 => hs (h0 ▸ hb)

/-! ### Decoding -/

/-- The stores of conversions with their values. -/
def Decoding.storeAll (d : Decoding) (found : List (Conversion × Value)) : Decoding :=
  found.foldl (fun d p => d.store p.1 p.2) d

theorem decodeFields_eq :
    decodeFields text cs d =
      (d.storeAll (made text cs), cs.all fun c => (c.convert text).isSome) := by
  induction cs generalizing d with
  | nil => rfl
  | cons c cs ih =>
    rw [decodeFields, made, List.all_cons]
    cases hc : c.convert text with
    | none => rfl
    | some v => exact ih

theorem writes_storeAll {found : List (Conversion × Value)} :
    (d.storeAll found).writes =
      d.writes ++ found.map fun p => ⟨p.1.field, (storedBytes p.2).length⟩ := by
  induction found generalizing d with
  | nil => exact (List.append_nil _).symm
  | cons p found ih =>
    rw [Decoding.storeAll, List.foldl_cons, List.map_cons, List.append_cons]
    exact ih

theorem mem_made (h : (c, v) ∈ made text cs) : c ∈ cs ∧ c.convert text = some v := by
  induction cs with
  | nil => exact absurd h List.not_mem_nil
  | cons c' cs ih =>
    rw [made] at h
    cases hc : c'.convert text with
    | none =>
      rw [hc] at h
      exact absurd h List.not_mem_nil
    | some v' =>
      rw [hc] at h
      rcases List.mem_cons.mp h with heq | h
      · obtain ⟨rfl, rfl⟩ := Prod.mk.inj heq
        exact ⟨List.mem_cons_self, hc⟩
      · exact ⟨List.mem_cons_of_mem _ (ih h).1, (ih h).2⟩

/-- When all of them succeed, all of them are made. -/
theorem made_of_all (hall : ∀ c ∈ cs, (c.convert text).isSome) (hc : c ∈ cs)
    (hv : c.convert text = some v) : (c, v) ∈ made text cs := by
  induction cs with
  | nil => exact absurd hc List.not_mem_nil
  | cons c' cs ih =>
    obtain ⟨v', hv'⟩ := Option.isSome_iff_exists.mp (hall c' List.mem_cons_self)
    rw [made, hv']
    rcases List.mem_cons.mp hc with rfl | hc
    · obtain rfl := Option.some.inj (hv.symm.trans hv')
      exact List.mem_cons_self
    · exact List.mem_cons_of_mem _ (ih (fun c hc => hall c (List.mem_cons_of_mem _ hc)) hc)

def Field.Apart (f g : Field) : Prop :=
  f.offset + f.size ≤ g.offset ∨ g.offset + g.size ≤ f.offset

instance (f g : Field) : Decidable (f.Apart g) := inferInstanceAs (Decidable (_ ∨ _))

/-- What a conversion stores keeps to its member. -/
def Fits (p : Conversion × Value) : Prop := (storedBytes p.2).length ≤ p.1.field.size

/-- A member keeps what it holds while others are decoded. -/
theorem storeAll_keeps {found : List (Conversion × Value)} {f : Field}
    (h : d.memory.Holds f.offset bytes) (hlen : bytes.length ≤ f.size)
    (hapart : ∀ p ∈ found, f.Apart p.1.field) (hfits : ∀ p ∈ found, Fits p) :
    (d.storeAll found).memory.Holds f.offset bytes := by
  induction found generalizing d with
  | nil => exact h
  | cons p found ih =>
    rw [Decoding.storeAll, List.foldl_cons]
    refine ih (h.store ?_) (fun q hq => hapart q (List.mem_cons_of_mem _ hq))
      fun q hq => hfits q (List.mem_cons_of_mem _ hq)
    have h1 := hapart p List.mem_cons_self
    have h2 := hfits p List.mem_cons_self
    rw [Fits] at h2
    rcases h1 with h1 | h1
    · exact .inl (by omega)
    · exact .inr (by omega)

theorem storeAll_holds {found : List (Conversion × Value)}
    (hapart : found.Pairwise fun p q => p.1.field.Apart q.1.field) (hfits : ∀ p ∈ found, Fits p)
    (hc : (c, v) ∈ found) :
    (d.storeAll found).memory.Holds c.field.offset (storedBytes v) := by
  induction found generalizing d with
  | nil => exact absurd hc List.not_mem_nil
  | cons p found ih =>
    obtain ⟨hp, hrest⟩ := List.pairwise_cons.mp hapart
    rw [Decoding.storeAll, List.foldl_cons]
    rcases List.mem_cons.mp hc with rfl | hc
    · exact storeAll_keeps Memory.store_holds (hfits _ List.mem_cons_self) hp
        fun q hq => hfits q (List.mem_cons_of_mem _ hq)
    · exact ih hrest (fun q hq => hfits q (List.mem_cons_of_mem _ hq)) hc

/-! ### Members -/

/-- The value of a member. -/
def Conversion.read (c : Conversion) (m : Memory) : Value :=
  match c.kind with
  | .number => .int (if c.field.size = 1 then (m c.field.offset).toNat else m.int c.field.offset)
  | _ => .str (m.str c.field)

theorem read_number (hc : c.kind = .number) (hsize : c.field.size ≠ 1) :
    c.read m = .int (m.int c.field.offset) := by
  rw [Conversion.read, hc]
  exact congrArg Value.int (if_neg hsize)

theorem read_string (hc : c.kind ≠ .number) : c.read m = .str (m.str c.field) := by
  rw [Conversion.read]
  split
  · rename_i h
    exact absurd h hc
  · rfl

/-- What a member of four bytes, or a string, keeps of a value. -/
def kept : Value → Value
  | .int n => .int (toInt32 (clamp n))
  | .str s => .str s

/-- The members of a request, the message type among them. -/
def MessageType.members (t : MessageType) : List Conversion := messageTypeConversion :: t.conversions

theorem members_apart (t : MessageType) :
    t.members.Pairwise fun c c' => c.field.Apart c'.field := by
  cases t <;> decide +kernel

/-- The sizes of the members: numbers of four bytes or one, strings of more than one. -/
theorem members_sizes (t : MessageType) : ∀ c ∈ t.members,
    (c.field.size = 1 → c.kind = .number) ∧
      (c.kind = .number → c.field.size ≠ 1 → c.field.size = 4) := by
  cases t <;> decide +kernel

theorem members_nodes (t : MessageType) : ∀ c ∈ t.members,
    c.kind = .address → ∀ b ∈ c.node, beforeAddress b = true := by
  cases t <;> decide +kernel

theorem convert_kind (h : c.convert text = some v) : c.kind = .number ↔ ∃ n, v = .int n := by
  obtain ⟨found, -, hv⟩ := convert_eq_some.mp h
  rw [Conversion.formats] at hv
  cases hc : c.kind with
  | number =>
    rw [hc, List.findSome?_singleton] at hv
    obtain ⟨_, n, _, _, _, rfl⟩ := head?_intFormat.mp hv
    exact iff_of_true rfl ⟨n, rfl⟩
  | address =>
    rw [hc, List.findSome?_singleton] at hv
    obtain ⟨_, _, rfl⟩ := head?_addressFormat.mp hv
    refine iff_of_false (by decide) ?_
    rintro ⟨n, hint⟩
    cases hint
  | name =>
    refine iff_of_false (by decide) ?_
    rintro ⟨n, rfl⟩
    rw [hc, List.findSome?_cons] at hv
    split at hv
    · rename_i hbare
      obtain rfl := Option.some.inj hv
      obtain ⟨_, _, _, h⟩ := head?_nameFormat.mp hbare
      cases h
    · rw [List.findSome?_singleton] at hv
      obtain ⟨_, _, _, _, h⟩ := head?_quotedNameFormat.mp hv
      cases h

/-- A string that is found has no end mark in it. -/
theorem convert_str (htext : 0 ∉ text) (h : c.convert text = some (.str s)) : 0 ∉ s := by
  obtain ⟨found, hfound, hv⟩ := convert_eq_some.mp h
  obtain ⟨fmt, -, hfmt⟩ := List.exists_of_findSome?_eq_some hv
  intro h0
  have hmem := scan_subset (List.mem_of_mem_head? hfmt) h0
  exact htext ((strstr_suffix hfound).subset hmem)

theorem made_pairwise {R : Conversion → Conversion → Prop} (h : cs.Pairwise R) :
    (made text cs).Pairwise fun p q => R p.1 q.1 := by
  induction cs with
  | nil => exact .nil
  | cons c cs ih =>
    obtain ⟨hc, hcs⟩ := List.pairwise_cons.mp h
    rw [made]
    cases c.convert text with
    | none => exact .nil
    | some v => exact (ih hcs).cons fun p hp => hc p.1 (mem_made hp).1

theorem scanMessageType_eq (ht : scanMessageType text = some t) :
    ∃ n, messageTypeConversion.convert text = some (.int n) ∧ toInt32 (clamp n) = t.toInt := by
  rw [scanMessageType] at ht
  split at ht
  · rename_i n hn
    have hfind := List.find?_some ht
    exact ⟨n, hn, (of_decide_eq_true hfind).symm⟩
  · exact nomatch ht

theorem toInt32_toInt (t : MessageType) : toInt32 t.toInt = t.toInt := by
  cases t <;> decide

/-- A member of a decoded request holds what has been found for it, if every conversion keeps to its
member. -/
theorem read_decoded (garbage : Memory) (htext : 0 ∉ text) (ht : scanMessageType text = some t)
    (hall : ∀ c ∈ t.conversions, (c.convert text).isSome)
    (hfits : ∀ p ∈ made text t.conversions, Fits p) (hc : c ∈ t.members) :
    ∃ v, c.convert text = some v ∧
      c.read ((Decoding.alloc t garbage).storeAll (made text t.conversions)).memory = kept v := by
  obtain ⟨htype, hapart⟩ := List.pairwise_cons.mp (members_apart t)
  rcases List.mem_cons.mp hc with rfl | hc
  · obtain ⟨n, hn, heq⟩ := scanMessageType_eq ht
    refine ⟨.int n, hn, ?_⟩
    have hstart : (Decoding.alloc t garbage).memory.Holds messageTypeConversion.field.offset
        (littleEndian t.toInt) := Memory.store_holds
    have happ : ∀ p ∈ made text t.conversions, messageTypeConversion.field.Apart p.1.field :=
      fun p hp => htype p.1 (mem_made hp).1
    have hholds := storeAll_keeps hstart
      (by simp [littleEndian, messageTypeConversion, intAt]) happ hfits
    rw [read_number rfl (by decide), kept, heq, hholds.int, toInt32_toInt]
  · obtain ⟨v, hv⟩ := Option.isSome_iff_exists.mp (hall c hc)
    refine ⟨v, hv, ?_⟩
    have hmade := made_of_all hall hc hv
    have hlen : (storedBytes v).length ≤ c.field.size := hfits _ hmade
    have hholds := storeAll_holds (d := .alloc t garbage) (made_pairwise hapart) hfits hmade
    have hkind := convert_kind hv
    cases v with
    | int n =>
      have hc : c.kind = .number := hkind.mpr ⟨n, rfl⟩
      have hsize : c.field.size ≠ 1 := fun h1 =>
        absurd (h1 ▸ hlen) (by simp [storedBytes, littleEndian])
      rw [read_number hc hsize, hholds.int, kept]
    | str s =>
      have hc : c.kind ≠ .number := by
        intro hnumber
        obtain ⟨n, hint⟩ := hkind.mp hnumber
        cases hint
      have hlt : s.length < c.field.size := by
        simpa [storedBytes, Nat.succ_le_iff] using hlen
      have hstr := hholds.str hlt (convert_str htext hv)
      rw [read_string hc, hstr, kept]

/-! ### Safety -/

/-- The numbers of a 32-bit `int`. -/
def InRange (n : ℤ) : Prop := -2 ^ 31 ≤ n ∧ n < 2 ^ 31

theorem toInt32_clamp {n : ℤ} : toInt32 (clamp n) = n ↔ InRange n := by
  rw [toInt32, InRange, clamp]
  constructor
  · intro h
    have hlo := Int.le_bmod (x := max (-2 ^ 63) (min n (2 ^ 63 - 1))) (m := 2 ^ 32) (by decide)
    have hhi := Int.bmod_lt (x := max (-2 ^ 63) (min n (2 ^ 63 - 1))) (m := 2 ^ 32) (by decide)
    rw [h] at hlo hhi
    exact ⟨by simpa using hlo, by simpa using hhi⟩
  · rintro ⟨hlo, hhi⟩
    have hclamp : max (-2 ^ 63) (min n (2 ^ 63 - 1)) = n := by omega
    rw [hclamp]
    exact Int.bmod_eq_of_le (by simpa using hlo) (by simpa using hhi)

theorem fits_iff {p : Conversion × Value} (hp : p ∈ made text t.conversions) :
    Fits p ↔ p.1.field.size ≠ 1 ∧ ∀ s, p.2 = .str s → s.length < p.1.field.size := by
  obtain ⟨c, v⟩ := p
  obtain ⟨hc, hv⟩ := mem_made hp
  obtain ⟨hbyte, hfour⟩ := members_sizes t c (List.mem_cons_of_mem _ hc)
  have hkind := convert_kind hv
  rw [Fits]
  cases v with
  | int n =>
    have hfour := hfour (hkind.mpr ⟨n, rfl⟩)
    constructor
    · intro h
      refine ⟨fun h1 => absurd (h1 ▸ h) (by simp [storedBytes, littleEndian]), fun s hs => nomatch hs⟩
    · intro h
      rw [hfour h.1]
      exact Nat.le_refl 4
  | str s =>
    have hlen : (storedBytes (.str s)).length = s.length + 1 := by simp [storedBytes]
    have hsize : c.field.size ≠ 1 := fun h1 => nomatch (hkind.mp (hbyte h1)).choose_spec
    rw [hlen]
    constructor
    · intro h
      exact ⟨hsize, fun s' hs' => Value.str.inj hs' ▸ h⟩
    · intro h
      exact h.2 s rfl

/-- A member keeps the value that is written exactly where its number is in range and its string is
plain. -/
theorem written_eq_kept (hc : c ∈ t.members) (hv : c.convert text = some v) :
    c.written text = some (kept v) ↔
      (∀ n, c.written text = some (.int n) → InRange n) ∧ c.Plain text := by
  have hkind := convert_kind hv
  have hwritten := convert_eq_written (members_nodes t c hc) hv
  cases v with
  | int n =>
    have hnum := written_number (hkind.mpr ⟨n, rfl⟩) hv
    rw [hnum, kept]
    constructor
    · intro h
      refine ⟨fun n' hn' => ?_, hwritten.mp hnum⟩
      obtain rfl := Value.int.inj (Option.some.inj hn')
      exact toInt32_clamp.mp (Value.int.inj (Option.some.inj h)).symm
    · intro h
      rw [toInt32_clamp.mpr (h.1 n rfl)]
  | str s =>
    rw [kept, hwritten]
    refine ⟨fun h => ⟨fun n hn => ?_, h⟩, fun h => h.2⟩
    exact nomatch (hwritten.mpr h).symm.trans hn

theorem ofInt_toInt (t : MessageType) : MessageType.ofInt t.toInt = some t := by
  cases t <;> decide

theorem mem_infoIndex {length : ℕ} {k : ℤ} {i : ℤ × ℕ} (hi : i ∈ infoIndex length k) :
    i = (k, length) := by
  rw [infoIndex] at hi
  split at hi
  · exact List.mem_singleton.mp hi
  · exact absurd hi List.not_mem_nil

theorem tdiv_two {k : ℤ} :
    0 ≤ k.tdiv 2 ∧ k.tdiv 2 < (maxSubflows : ℤ) ↔ -1 ≤ k ∧ k ≤ 5 := by
  simp only [maxSubflows]
  rcases Int.le_total 0 k with hk | hk
  · rw [Int.tdiv_eq_ediv_of_nonneg hk]
    omega
  · obtain ⟨j, rfl⟩ : ∃ j, k = -j := ⟨-k, by omega⟩
    rw [Int.neg_tdiv, Int.tdiv_eq_ediv_of_nonneg (by omega)]
    omega

theorem mem_conversions_netType :
    netType ∈ t.conversions ↔ t = .enableMpReq ∨ t = .addSubflowReq ∨ t = .trySubflowReq := by
  cases t <;> decide +kernel

/-- The tables are indexed within their bounds exactly when the type of network is between −1 and
5. -/
theorem tableIndices_bounded (h : m.int 0 = t.toInt) :
    (∀ i ∈ tableIndices m, 0 ≤ i.1 ∧ i.1 < i.2) ↔
      (netType ∈ t.conversions → -1 ≤ m.int 8 ∧ m.int 8 ≤ 5) := by
  have hinfo : infoIndex messageTypeInfoLength t.toInt = [(t.toInt, 28)] := by cases t <;> decide
  have htype : (0 : ℤ) ≤ t.toInt ∧ t.toInt < (28 : ℕ) := by cases t <;> decide
  rw [tableIndices, h, hinfo, ofInt_toInt, List.singleton_append, List.forall_mem_cons,
    and_iff_right htype]
  generalize m.int 8 = k
  by_cases hnet : netType ∈ t.conversions
  · have hindices : (∀ i ∈ (k.tdiv 2, maxSubflows) :: infoIndex maxSubflows (k.tdiv 2),
        0 ≤ i.1 ∧ i.1 < (i.2 : ℤ)) ↔ -1 ≤ k ∧ k ≤ 5 := by
      rw [List.forall_mem_cons]
      constructor
      · intro hbound
        exact tdiv_two.mp hbound.1
      · intro hrange
        have hbound := tdiv_two.mpr hrange
        refine ⟨hbound, fun i hi => ?_⟩
        rw [mem_infoIndex hi]
        exact hbound
    refine Iff.trans ?_ (hindices.trans (imp_iff_right hnet).symm)
    rcases mem_conversions_netType.mp hnet with rfl | rfl | rfl
    · exact Iff.rfl
    · exact Iff.rfl
    · exact Iff.rfl
  · refine iff_of_true (fun i hi => ?_) fun h => absurd h hnet
    have hne := mt mem_conversions_netType.mpr hnet
    cases t <;> simp at hne hi

/-! ### Requests -/

/-- A decoding is safe and exact: its conversions write only inside their members, a decoded request
has in its members the values that the text writes, and with it the dispatch stays within its
tables. -/
structure Sound (buffer : List UInt8) (garbage : Memory) : Prop where
  inside : ∀ a ∈ (decodeAppCommandBufferNew buffer garbage).2, a.Inside
  exact : ∀ t m, (decodeAppCommandBufferNew buffer garbage).1 = some (t, m) →
    ∀ c ∈ t.members, c.written (cString buffer) = some (c.read m)
  bounded : ∀ t m, (decodeAppCommandBufferNew buffer garbage).1 = some (t, m) →
    ∀ i ∈ tableIndices m, 0 ≤ i.1 ∧ i.1 < i.2

/-- All fields of the request are found. -/
def Complete (text : List UInt8) (t : MessageType) : Prop :=
  ∀ c ∈ t.conversions, (c.convert text).isSome

/-- The commands that are decoded safely and exactly: no number for a member of one byte, strings
shorter than their members; and, if all fields are found, numbers of 32 bits, strings written
plainly and a type of network between −1 and 5. -/
structure Regular (text : List UInt8) (t : MessageType) : Prop where
  wide : ∀ p ∈ made text t.conversions, p.1.field.size ≠ 1
  short : ∀ p ∈ made text t.conversions, ∀ s, p.2 = .str s → s.length < p.1.field.size
  inRange : Complete text t → ∀ c ∈ t.members, ∀ n, c.written text = some (.int n) → InRange n
  plain : Complete text t → ∀ c ∈ t.conversions, c.Plain text
  network : Complete text t → netType ∈ t.conversions →
    ∀ n, netType.written text = some (.int n) → -1 ≤ n ∧ n ≤ 5

theorem decode_eq (ht : scanMessageType (cString buffer) = some t) :
    decodeAppCommandBufferNew buffer garbage =
      (let d := (Decoding.alloc t garbage).storeAll (made (cString buffer) t.conversions)
       (if t.conversions.all fun c => (c.convert (cString buffer)).isSome then
          some (t, d.memory) else none,
        d.writes)) := by
  rw [decodeAppCommandBufferNew]
  simp only [ht, decodeFields_eq]

/-- A request is decoded exactly when all its fields are found. -/
theorem decoded_iff (ht : scanMessageType (cString buffer) = some t) {t' : MessageType} :
    (decodeAppCommandBufferNew buffer garbage).1 = some (t', m) ↔
      Complete (cString buffer) t ∧ t' = t ∧
        m = ((Decoding.alloc t garbage).storeAll (made (cString buffer) t.conversions)).memory := by
  rw [decode_eq ht, Complete, ← List.all_eq_true]
  simp only [Option.ite_none_right_eq_some, Option.some.injEq, Prod.mk.injEq]
  grind

theorem inside_iff (ht : scanMessageType (cString buffer) = some t) :
    (∀ a ∈ (decodeAppCommandBufferNew buffer garbage).2, a.Inside) ↔
      ∀ p ∈ made (cString buffer) t.conversions, Fits p := by
  have hstart : (Decoding.alloc t garbage).writes = [] := rfl
  rw [decode_eq ht]
  simp only [writes_storeAll, hstart, List.nil_append, List.forall_mem_map]
  rfl

theorem cString_end : 0 ∉ cString buffer := fun h => absurd (List.mem_takeWhile_imp h) (by decide)

/-- A member of a decoded request has the value that is written, exactly where the text is regular
there. -/
theorem exact_iff (ht : scanMessageType text = some t) (htext : 0 ∉ text) (hall : Complete text t)
    (hfits : ∀ p ∈ made text t.conversions, Fits p) (hc : c ∈ t.members) :
    c.written text =
        some (c.read ((Decoding.alloc t garbage).storeAll (made text t.conversions)).memory) ↔
      (∀ n, c.written text = some (.int n) → InRange n) ∧ c.Plain text := by
  obtain ⟨v, hv, hread⟩ := read_decoded garbage htext ht hall hfits hc
  rw [hread]
  exact written_eq_kept hc hv

/-- The type of a decoded request. -/
theorem int_messageType (ht : scanMessageType text = some t) (htext : 0 ∉ text)
    (hall : Complete text t) (hfits : ∀ p ∈ made text t.conversions, Fits p) :
    ((Decoding.alloc t garbage).storeAll (made text t.conversions)).memory.int 0 = t.toInt := by
  obtain ⟨v, hv, hread⟩ := read_decoded garbage htext ht hall hfits List.mem_cons_self
  obtain ⟨n, hn, heq⟩ := scanMessageType_eq ht
  obtain rfl := Option.some.inj (hv.symm.trans hn)
  rw [read_number rfl (by decide), kept, heq] at hread
  exact Value.int.inj hread

/-- Which command texts are decoded safely and exactly. -/
theorem decodeAppCommandBufferNew_iff (buffer : List UInt8) (garbage : Memory) :
    Sound buffer garbage ↔
      ∀ t, scanMessageType (cString buffer) = some t → Regular (cString buffer) t := by
  constructor
  · intro h t ht
    have hfits := (inside_iff ht).mp h.inside
    have hwritten : Complete (cString buffer) t → ∀ c ∈ t.members, c.written (cString buffer) =
        some (c.read ((Decoding.alloc t garbage).storeAll (made (cString buffer) t.conversions)).memory) :=
      fun hall => h.exact t _ ((decoded_iff ht).mpr ⟨hall, rfl, rfl⟩)
    refine ⟨fun p hp => ((fits_iff hp).mp (hfits p hp)).1,
      fun p hp => ((fits_iff hp).mp (hfits p hp)).2,
      fun hall c hc => ((exact_iff ht cString_end hall hfits hc).mp (hwritten hall c hc)).1,
      fun hall c hc => ?_, fun hall hnet n hn => ?_⟩
    · have hc := List.mem_cons_of_mem messageTypeConversion hc
      exact ((exact_iff ht cString_end hall hfits hc).mp (hwritten hall c hc)).2
    · have hbound := (tableIndices_bounded (int_messageType ht cString_end hall hfits)).mp
        (h.bounded t _ ((decoded_iff ht).mpr ⟨hall, rfl, rfl⟩)) hnet
      have hmem := hwritten hall netType (List.mem_cons_of_mem _ hnet)
      rw [hn, read_number rfl (by decide)] at hmem
      rw [Value.int.inj (Option.some.inj hmem)]
      exact hbound
  · intro h
    cases ht : scanMessageType (cString buffer) with
    | none =>
      have hnone : decodeAppCommandBufferNew buffer garbage = (none, []) := by
        rw [decodeAppCommandBufferNew]
        simp only [ht]
      refine ⟨?_, ?_, ?_⟩ <;> simp [hnone]
    | some t =>
      have hregular := h t ht
      have hfits : ∀ p ∈ made (cString buffer) t.conversions, Fits p :=
        fun p hp => (fits_iff hp).mpr ⟨hregular.wide p hp, hregular.short p hp⟩
      have hexact : ∀ t' m, (decodeAppCommandBufferNew buffer garbage).1 = some (t', m) →
          ∀ c ∈ t'.members, c.written (cString buffer) = some (c.read m) := by
        intro t' m hdec c hc
        obtain ⟨hall, rfl, rfl⟩ := (decoded_iff ht).mp hdec
        refine (exact_iff ht cString_end hall hfits hc).mpr ⟨hregular.inRange hall c hc, ?_⟩
        rcases List.mem_cons.mp hc with rfl | hc
        · exact fun _ _ => trivial
        · exact hregular.plain hall c hc
      refine ⟨(inside_iff ht).mpr hfits, hexact, fun t' m hdec => ?_⟩
      obtain ⟨hall, rfl, rfl⟩ := (decoded_iff ht).mp hdec
      refine (tableIndices_bounded (int_messageType ht cString_end hall hfits)).mpr fun hnet => ?_
      refine hregular.network hall hnet _ ?_
      rw [hexact _ _ hdec netType (List.mem_cons_of_mem _ hnet), read_number rfl (by decide)]
      rfl

/-- `messageType` 5, `sessionid` 7, `token` 1, `numberType` 2, `deleteCause` 0. -/
def delSubflow : List UInt8 :=
  ("\x7b\"messageType\":5,\"sessionid\":7,\"token\":1,\"numberType\":2,\"deleteCause\":0\x7d").toList.map
    ascii

/-- The command is decoded, with the four bytes of `numberType` written into a member of one
byte. -/
theorem decodeAppCommandBufferNew_overflow :
    (decodeAppCommandBufferNew delSubflow fun _ => 0).1.isSome ∧ ¬ Sound delSubflow fun _ => 0 := by
  have hinside : ¬ ∀ a ∈ (decodeAppCommandBufferNew delSubflow fun _ => 0).2, a.Inside := by
    decide +kernel
  exact ⟨by decide +kernel, fun h => hinside h.inside⟩

end AndroidVendor.Ratd
