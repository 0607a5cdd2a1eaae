import AndroidVendor.Ratd.AppCommand

/-!
# What a command text writes

`Conversion.written` reads the value of a field out of a text the way its author wrote it: behind
the first occurrence of the name and a colon, a number, a string in quotation marks, or a bare
string. The scans of the decoders read something else where the text is not `Plain` at the field,
and `convert_eq_written` says exactly where.
-/

namespace AndroidVendor.Ratd

open Scan

variable {text found s t : List UInt8} {c : Conversion} {v : Value}

/-! ### Written values -/

/-- The text of a value: behind the name and a colon, with blanks around it. -/
def behind (node found : List UInt8) : List UInt8 :=
  let s := (found.drop node.length).dropWhile isSpace
  (if s.head? = some (ascii ':') then s.tail else s).dropWhile isSpace

/-- The characters of a bare string. -/
def inBare (b : UInt8) : Bool :=
  b != ascii '\"' && b != ascii ',' && b != ascii '}' && b != ascii ']'

def isQuote (b : UInt8) : Bool := b == ascii '\"'

/-- A string, in quotation marks or bare. -/
def writtenString (s : List UInt8) : List UInt8 :=
  if s.head? = some (ascii '\"') then s.tail.takeWhile (!isQuote ·) else s.takeWhile inBare

/-- The value that the text writes for the field. -/
def Conversion.written (c : Conversion) (text : List UInt8) : Option Value :=
  (strstr c.node text).bind fun found =>
    match c.kind with
    | .number => (scanInt (behind c.node found)).map fun r => .int r.1
    | _ => some (.str (writtenString (behind c.node found)))

/-- The text of a name, right behind its colon, when the scans read the name that is written: in
quotation marks, not empty and without a comma; or bare, without blanks in front and closed by a
comma. A name of blanks is also read when as many blanks stand before its quotation mark. -/
def PlainName (t : List UInt8) : Prop :=
  if t.head? = some (ascii '\"') then writtenString t ≠ [] ∧ ascii ',' ∉ writtenString t
  else if t.takeWhile isSpace = [] then ∀ b ∈ t.takeWhile inName, inBare b
  else
    (t.dropWhile isSpace).head? = some (ascii '\"') ∧
      writtenString (t.dropWhile isSpace) = t.takeWhile isSpace

/-- An address is a text of digits and dots. -/
def PlainAddress (w : List UInt8) : Prop := w ≠ [] ∧ ∀ b ∈ w, inAddress b

/-- Where the scans read the value that is written. -/
def Conversion.Plain (c : Conversion) (text : List UInt8) : Prop :=
  ∀ found, strstr c.node text = some found →
    match c.kind with
    | .number => True
    | .address => PlainAddress (writtenString (behind c.node found))
    | .name => PlainName (found.drop (c.node.length + 1))

/-! ### What the scans find -/

theorem convert_eq_some : c.convert text = some v ↔
    ∃ found, strstr c.node text = some found ∧
      (c.formats.findSome? fun fmt => (scan fmt found).head?) = some v :=
  Option.bind_eq_some_iff

theorem head?_intFormat {node : List UInt8} : (scan (intFormat node) found).head? = some v ↔
    ∃ t n rest, found = node ++ ascii ':' :: t ∧ scanInt t = some (n, rest) ∧ v = .int n := by
  rw [intFormat, head?_scan_lits]
  constructor
  · rintro ⟨t, rfl, hv⟩
    obtain ⟨n, rest, hn, rfl⟩ := head?_scan_int.mp hv
    exact ⟨t, n, rest, by rw [List.append_assoc]; rfl, hn, rfl⟩
  · rintro ⟨t, n, rest, rfl, hn, rfl⟩
    exact ⟨t, by rw [List.append_assoc]; rfl, head?_scan_int.mpr ⟨n, rest, hn, rfl⟩⟩

theorem head?_nameFormat {node : List UInt8} : (scan (nameFormat node) found).head? = some v ↔
    ∃ t, found = node ++ ascii ':' :: t ∧ t.takeWhile inName ≠ [] ∧ v = .str (t.takeWhile inName) := by
  rw [nameFormat, head?_scan_lits]
  constructor
  · rintro ⟨t, rfl, hv⟩
    exact ⟨t, by rw [List.append_assoc]; rfl, head?_scan_set.mp hv⟩
  · rintro ⟨t, rfl, hv⟩
    exact ⟨t, by rw [List.append_assoc]; rfl, head?_scan_set.mpr hv⟩

theorem head?_quotedNameFormat {node : List UInt8} :
    (scan (quotedNameFormat node) found).head? = some v ↔
      ∃ t, found = node ++ ascii ':' :: t ∧ t.takeWhile isQuote ≠ [] ∧
        (t.dropWhile isQuote).takeWhile inName ≠ [] ∧
          v = .str ((t.dropWhile isQuote).takeWhile inName) := by
  rw [quotedNameFormat, head?_scan_lits]
  constructor
  · rintro ⟨t, rfl, hv⟩
    obtain ⟨hq, hv⟩ := head?_scan_skip.mp hv
    exact ⟨t, by rw [List.append_assoc]; rfl, hq, head?_scan_set.mp hv⟩
  · rintro ⟨t, rfl, hq, hv⟩
    exact ⟨t, by rw [List.append_assoc]; rfl, head?_scan_skip.mpr ⟨hq, head?_scan_set.mpr hv⟩⟩

theorem head?_addressFormat : (scan addressFormat found).head? = some v ↔
    found.takeWhile beforeAddress ≠ [] ∧ (found.dropWhile beforeAddress).takeWhile inAddress ≠ [] ∧
      v = .str ((found.dropWhile beforeAddress).takeWhile inAddress) := by
  rw [addressFormat, head?_scan_skip, head?_scan_set]

/-! ### Numbers -/

theorem behind_colon (node t : List UInt8) :
    behind node (node ++ ascii ':' :: t) = t.dropWhile isSpace := by
  rw [behind, List.drop_left, List.dropWhile_cons_of_neg (by decide), List.head?_cons, if_pos rfl,
    List.tail_cons]

theorem written_number (hc : c.kind = .number) (h : c.convert text = some v) :
    c.written text = some v := by
  obtain ⟨found, hfound, hv⟩ := convert_eq_some.mp h
  rw [Conversion.formats, hc, List.findSome?_singleton] at hv
  obtain ⟨t, n, rest, rfl, hn, rfl⟩ := head?_intFormat.mp hv
  rw [Conversion.written, hfound, Option.bind_some, hc]
  simp only [behind_colon, scanInt_dropWhile, hn, Option.map_some]

/-! ### Addresses -/

theorem space_byte (b : UInt8) :
    isSpace b = true → inAddress b = false ∧ inName b = true ∧ isQuote b = false := by
  revert b
  exact forall_byte (by decide +kernel)

theorem address_byte (b : UInt8) :
    inAddress b = true → beforeAddress b = false ∧ isQuote b = false ∧ inBare b = true := by
  revert b
  exact forall_byte (by decide +kernel)

theorem takeWhile_eq_nil_of_head {p : UInt8 → Bool} (h : ∀ b, s.head? = some b → p b = false) :
    s.takeWhile p = [] := by
  cases s with
  | nil => rfl
  | cons b s => exact List.takeWhile_cons_of_neg (by simp [h b rfl])

/-- Where an address is found, blanks in front of it are skipped. -/
theorem dropWhile_blanks (h : ((s.dropWhile beforeAddress).takeWhile inAddress) ≠ []) :
    (s.dropWhile isSpace).dropWhile beforeAddress = s.dropWhile beforeAddress := by
  induction s with
  | nil => rfl
  | cons b s ih =>
    cases hb : isSpace b with
    | false => rw [List.dropWhile_cons_of_neg (by simp [hb])]
    | true =>
      rw [List.dropWhile_cons_of_pos hb]
      cases hp : beforeAddress b with
      | true =>
        rw [List.dropWhile_cons_of_pos hp] at h ⊢
        exact ih h
      | false =>
        refine absurd ?_ h
        rw [List.dropWhile_cons_of_neg (by simp [hp])]
        refine takeWhile_eq_nil_of_head fun b' hb' => ?_
        exact Option.some.inj hb' ▸ (space_byte b hb).1

theorem dropWhile_head {p : UInt8 → Bool} {b : UInt8} (hb : p b = true) :
    (if s.head? = some b then s.tail else s).dropWhile p = s.dropWhile p := by
  split
  · rename_i h
    obtain ⟨s', rfl⟩ := List.head?_eq_some_iff.mp h
    rw [List.tail_cons, List.dropWhile_cons_of_pos hb]
  · rfl

theorem dropWhile_behind {node : List UInt8} (hnode : ∀ b ∈ node, beforeAddress b = true)
    (h : (((node ++ t).dropWhile beforeAddress).takeWhile inAddress) ≠ []) :
    (behind node (node ++ t)).dropWhile beforeAddress = (node ++ t).dropWhile beforeAddress := by
  have hskip : (node ++ t).dropWhile beforeAddress = t.dropWhile beforeAddress :=
    List.dropWhile_append_of_pos hnode
  have hcolon : beforeAddress (ascii ':') = true := by decide
  rw [hskip] at h ⊢
  have hfirst := dropWhile_blanks h
  have hsecond : (if (t.dropWhile isSpace).head? = some (ascii ':') then (t.dropWhile isSpace).tail
      else t.dropWhile isSpace).dropWhile beforeAddress = t.dropWhile beforeAddress :=
    (dropWhile_head hcolon).trans hfirst
  rw [behind, List.drop_left, dropWhile_blanks (by rwa [hsecond]), hsecond]

/-- An address that is all that `p` takes is found in front. -/
theorem takeWhile_address {p : UInt8 → Bool} (hs : PlainAddress (s.takeWhile p))
    (hp : ∀ b, inAddress b = true → p b = true) :
    (s.dropWhile beforeAddress).takeWhile inAddress = s.takeWhile p := by
  obtain ⟨hne, hall⟩ := hs
  have hdrop : s.dropWhile beforeAddress = s := by
    cases s with
    | nil => rfl
    | cons b s =>
      cases hb : p b with
      | false => exact absurd (List.takeWhile_cons_of_neg (by simp [hb])) hne
      | true =>
        have hmem : b ∈ (b :: s).takeWhile p := by simp [hb]
        exact List.dropWhile_cons_of_neg (by simp [(address_byte b (hall b hmem)).1])
  rw [hdrop]
  exact (takeWhile_eq_takeWhile hp).mpr hall

/-- An address in the text, in quotation marks or bare, is found. -/
theorem takeWhile_writtenString (hw : PlainAddress (writtenString s)) :
    (s.dropWhile beforeAddress).takeWhile inAddress = writtenString s := by
  rw [writtenString] at hw ⊢
  split at hw
  · rename_i hq
    obtain ⟨s', rfl⟩ := List.head?_eq_some_iff.mp hq
    rw [if_pos hq, List.dropWhile_cons_of_pos (by decide)]
    exact takeWhile_address hw fun b hb => by simp [(address_byte b hb).2.1]
  · rename_i hq
    rw [if_neg hq]
    exact takeWhile_address hw fun b hb => (address_byte b hb).2.2

theorem written_address (hc : c.kind = .address) (hnode : ∀ b ∈ c.node, beforeAddress b = true)
    (h : c.convert text = some v) : c.written text = some v ↔ c.Plain text := by
  obtain ⟨found, hfound, hv⟩ := convert_eq_some.mp h
  rw [Conversion.formats, hc, List.findSome?_singleton] at hv
  obtain ⟨-, hne, rfl⟩ := head?_addressFormat.mp hv
  obtain ⟨t, rfl⟩ := strstr_prefix hfound
  rw [Conversion.written, hfound, Option.bind_some, hc]
  have hbehind := dropWhile_behind hnode hne
  rw [← hbehind] at hne ⊢
  constructor
  · intro heq found' hfound'
    obtain rfl := Option.some.inj (hfound.symm.trans hfound')
    rw [hc]
    have hw := Value.str.inj (Option.some.inj heq)
    refine ⟨hw ▸ hne, fun b hb => ?_⟩
    rw [hw] at hb
    exact List.mem_takeWhile_imp hb
  · intro hplain
    have hw := hplain _ hfound
    rw [hc] at hw
    rw [takeWhile_writtenString hw]

/-! ### Names -/

theorem inName_of_inBare (b : UInt8) (hb : inBare b = true) : inName b = true := by
  simp only [inBare, Bool.and_eq_true] at hb
  simp only [inName, Bool.and_eq_true]
  exact hb.1.1

theorem head_ne_quote (h : s.takeWhile inName ≠ []) : s.head? ≠ some (ascii '\"') := by
  intro hq
  obtain ⟨s', rfl⟩ := List.head?_eq_some_iff.mp hq
  exact h (List.takeWhile_cons_of_neg (by decide))

/-- A bare name, or blanks before a quotation mark. -/
theorem plainName_bare (h : t.takeWhile inName ≠ []) :
    writtenString (t.dropWhile isSpace) = t.takeWhile inName ↔ PlainName t := by
  have hhead := head_ne_quote h
  rw [PlainName, if_neg hhead]
  have happ : t.takeWhile isSpace ++ t.dropWhile isSpace = t := List.takeWhile_append_dropWhile
  split
  · rename_i hblanks
    rw [hblanks, List.nil_append] at happ
    rw [happ, writtenString, if_neg hhead]
    exact takeWhile_eq_takeWhile inName_of_inBare
  · rename_i hblanks
    have hscan : t.takeWhile inName = t.takeWhile isSpace ++
        (t.dropWhile isSpace).takeWhile inName := by
      conv_lhs => rw [← happ]
      exact List.takeWhile_append_of_pos fun b hb => (space_byte b (List.mem_takeWhile_imp hb)).2.1
    rw [hscan]
    generalize hd : t.dropWhile isSpace = d
    constructor
    · intro hw
      have hq : d.head? = some (ascii '\"') := by
        by_contra hq
        rw [writtenString, if_neg hq] at hw
        obtain ⟨b, bs, hbs⟩ := List.exists_cons_of_ne_nil hblanks
        have hspace : isSpace b = true :=
          List.mem_takeWhile_imp (hbs ▸ List.mem_cons_self : b ∈ t.takeWhile isSpace)
        have hb : d.head? = some b := by
          cases d with
          | nil => rw [hbs] at hw; exact nomatch hw
          | cons x d =>
            rw [hbs, List.takeWhile_cons] at hw
            split at hw
            · exact congrArg some (List.cons.inj hw).1
            · exact nomatch hw
        have hnot := List.head?_dropWhile_not isSpace t
        rw [hd, hb] at hnot
        simp [hspace] at hnot
      refine ⟨hq, ?_⟩
      obtain ⟨d', rfl⟩ := List.head?_eq_some_iff.mp hq
      rw [hw, List.takeWhile_cons_of_neg (by decide), List.append_nil]
    · rintro ⟨hq, hw⟩
      obtain ⟨d', rfl⟩ := List.head?_eq_some_iff.mp hq
      rw [hw, List.takeWhile_cons_of_neg (by decide), List.append_nil]

/-- A name in quotation marks. -/
theorem plainName_quoted (hbare : t.takeWhile inName = []) (hquote : t.takeWhile isQuote ≠ [])
    (h : (t.dropWhile isQuote).takeWhile inName ≠ []) :
    writtenString (t.dropWhile isSpace) = (t.dropWhile isQuote).takeWhile inName ↔ PlainName t := by
  obtain ⟨r, rfl⟩ : ∃ r, t = ascii '\"' :: r := by
    cases t with
    | nil => exact absurd rfl hquote
    | cons b r =>
      refine ⟨r, congrArg (· :: r) ?_⟩
      by_contra hb
      exact hquote (List.takeWhile_cons_of_neg (by simpa [isQuote] using hb))
  have hname : ∀ b, inName b = true → (!isQuote b) = true := fun b hb => (Bool.and_eq_true_iff.mp hb).1
  have hskip : (ascii '\"' :: r).dropWhile isQuote = r.dropWhile isQuote :=
    List.dropWhile_cons_of_pos (by decide)
  have hkeep : (ascii '\"' :: r).dropWhile isSpace = ascii '\"' :: r :=
    List.dropWhile_cons_of_neg (by decide)
  rw [hskip] at h ⊢
  rw [hkeep, PlainName, List.head?_cons, if_pos rfl, writtenString, List.head?_cons, if_pos rfl,
    List.tail_cons]
  constructor
  · intro hw
    rw [hw]
    refine ⟨h, fun hcomma => ?_⟩
    exact absurd (List.mem_takeWhile_imp hcomma) (by decide)
  · rintro ⟨hne, hcomma⟩
    have hdrop : r.dropWhile isQuote = r := by
      cases r with
      | nil => rfl
      | cons b r =>
        refine List.dropWhile_cons_of_neg fun hb => hne ?_
        exact List.takeWhile_cons_of_neg (by simp [hb])
    rw [hdrop]
    refine ((takeWhile_eq_takeWhile hname).mpr fun b hb => ?_).symm
    have hquote' := List.mem_takeWhile_imp hb
    have hne' : b ≠ ascii ',' := fun heq => hcomma (heq ▸ hb)
    simp only [isQuote, Bool.not_eq_true', beq_eq_false_iff_ne] at hquote'
    simp [inName, hquote', hne']

theorem written_name (hc : c.kind = .name) (h : c.convert text = some v) :
    c.written text = some v ↔ c.Plain text := by
  obtain ⟨found, hfound, hv⟩ := convert_eq_some.mp h
  rw [Conversion.formats, hc] at hv
  obtain ⟨t, rfl, s, hw, rfl⟩ : ∃ t, found = c.node ++ ascii ':' :: t ∧ ∃ s,
      (writtenString (t.dropWhile isSpace) = s ↔ PlainName t) ∧ v = .str s := by
    rw [List.findSome?_cons] at hv
    split at hv
    · rename_i hbare
      obtain rfl := Option.some.inj hv
      obtain ⟨t, rfl, hne, rfl⟩ := head?_nameFormat.mp hbare
      exact ⟨t, rfl, _, plainName_bare hne, rfl⟩
    · rename_i hbare
      rw [List.findSome?_singleton] at hv
      obtain ⟨t, rfl, hquote, hne, rfl⟩ := head?_quotedNameFormat.mp hv
      refine ⟨t, rfl, _, plainName_quoted ?_ hquote hne, rfl⟩
      by_contra hbare'
      rw [head?_nameFormat.mpr ⟨t, rfl, hbare', rfl⟩] at hbare
      exact nomatch hbare
  rw [Conversion.written, hfound, Option.bind_some, hc]
  have hdrop : (c.node ++ ascii ':' :: t).drop (c.node.length + 1) = t := by
    rw [← List.drop_drop, List.drop_left, List.drop_one, List.tail_cons]
  simp only [behind_colon, Option.some.injEq, Value.str.injEq, hw]
  constructor
  · intro hplain found' hfound'
    obtain rfl := Option.some.inj (hfound.symm.trans hfound')
    rw [hc]
    exact hdrop.symm ▸ hplain
  · intro hplain
    have hname := hplain _ hfound
    rw [hc] at hname
    exact hdrop ▸ hname

/-- The value that is found is the value that is written exactly where the text is plain. -/
theorem convert_eq_written (hnode : c.kind = .address → ∀ b ∈ c.node, beforeAddress b = true)
    (h : c.convert text = some v) : c.written text = some v ↔ c.Plain text := by
  cases hc : c.kind with
  | number =>
    refine ⟨fun _ found _ => ?_, fun _ => written_number hc h⟩
    rw [hc]
    trivial
  | address => exact written_address hc (hnode hc) h
  | name => exact written_name hc h

end AndroidVendor.Ratd
