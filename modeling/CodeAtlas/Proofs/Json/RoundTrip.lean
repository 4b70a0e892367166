import CodeAtlas.Json.Parser
import CodeAtlas.Json.Printer
import CodeAtlas.OrderedMap
import CodeAtlas.Proofs.Decimal
import CodeAtlas.Proofs.Text

/-!
Values that are written and read again. The main statement: what is written for a value without
floating-point numbers, in any layout, reads back as the same value, members in the same order. No
written text has a carriage return, so it also survives the unifying of line breaks. What is read from
any text has no name twice in an object.
-/

open CodeAtlas.Json.Parser List

namespace CodeAtlas.Json

variable {rest input : List Char} {value : Json} {members : Members}

/-! ## Characters -/

theorem hexValue?_hexDigit : ∀ digit < 16, hexValue? (hexDigit digit) = some digit := by
  decide

theorem unit?_hexDigits {unit : Nat} (small : unit < 65536) :
    unit? (hexDigit (unit / 4096 % 16)) (hexDigit (unit / 256 % 16)) (hexDigit (unit / 16 % 16))
      (hexDigit (unit % 16)) = some unit := by
  have digit (value : Nat) : hexValue? (hexDigit (value % 16)) = some (value % 16) :=
    hexValue?_hexDigit _ (Nat.mod_lt _ (by decide))
  simp only [unit?, digit, Option.bind_eq_bind, Option.bind_some, Option.pure_def, Option.some.injEq]
  omega

theorem not_surrogate (char : Char) : ¬ (55296 ≤ char.toNat ∧ char.toNat ≤ 57343) := by
  rintro ⟨low, high⟩
  rcases char.valid with small | ⟨big, _⟩
  · have small : char.toNat < 55296 := small
    omega
  · have big : 57343 < char.toNat := big
    omega

theorem toNat_lt (char : Char) : char.toNat < 1114112 := by
  rcases char.valid with small | ⟨_, big⟩
  · have small : char.toNat < 55296 := small
    omega
  · exact big

theorem stringFrom_unit {unit : Nat} (small : unit < 65536) (fuel : Nat) (before rest : List Char)
    (high : ¬ (55296 ≤ unit ∧ unit ≤ 56319)) (low : ¬ (56320 ≤ unit ∧ unit ≤ 57343)) :
    stringFrom (fuel + 1) before (escapeUnit unit ++ rest) =
      stringFrom fuel (Char.ofNat unit :: before) rest := by
  simp [escapeUnit, stringFrom, unit?_hexDigits small, high, low]

theorem stringFrom_units {high low : Nat} (highRange : 55296 ≤ high ∧ high ≤ 56319)
    (lowRange : 56320 ≤ low ∧ low ≤ 57343) (fuel : Nat) (before rest : List Char) :
    stringFrom (fuel + 1) before (escapeUnit high ++ escapeUnit low ++ rest) =
      stringFrom fuel (Char.ofNat (65536 + (high - 55296) * 1024 + (low - 56320)) :: before) rest := by
  have highUnit := @unit?_hexDigits high (by omega)
  have lowUnit := @unit?_hexDigits low (by omega)
  simp [escapeUnit, stringFrom, lowUnit?, highUnit, lowUnit, highRange, lowRange]

theorem stringFrom_escapeCode (char : Char) (fuel : Nat) (before rest : List Char) :
    stringFrom (fuel + 1) before (escapeCode char.toNat ++ rest) =
      stringFrom fuel (char :: before) rest := by
  have noSurrogate := not_surrogate char
  have bounded := toNat_lt char
  rw [escapeCode]
  split
  · rename_i small
    rw [stringFrom_unit small fuel before rest (by omega) (by omega), Char.ofNat_toNat]
  · rw [stringFrom_units (by omega) (by omega)]
    have code : 65536 + (55296 + (char.toNat - 65536) / 1024 - 55296) * 1024 +
        (56320 + (char.toNat - 65536) % 1024 - 56320) = char.toNat := by
      omega
    rw [code, Char.ofNat_toNat]

theorem stringFrom_escapeChar (ascii : Bool) (char : Char) (fuel : Nat) (before rest : List Char) :
    stringFrom (fuel + 1) before (escapeChar ascii char ++ rest) =
      stringFrom fuel (char :: before) rest := by
  unfold escapeChar
  split
  · rfl
  · rfl
  · rfl
  · rfl
  · rfl
  · rename_i notQuote notBackslash _ _ _
    split
    · rename_i isBackspace
      have same : Char.ofNat 8 = char := by
        rw [← beq_iff_eq.mp isBackspace, Char.ofNat_toNat]
      rw [← same]
      rfl
    · split
      · rename_i isFormFeed
        have same : Char.ofNat 12 = char := by
          rw [← beq_iff_eq.mp isFormFeed, Char.ofNat_toNat]
        rw [← same]
        rfl
      · split
        · exact stringFrom_escapeCode char fuel before rest
        · rename_i printable
          have printable : ¬ char.toNat < 32 := by
            intro small
            simp [small] at printable
          have notQuote : char ≠ '"' := notQuote
          have notBackslash : char ≠ '\\' := notBackslash
          simp [stringFrom, notQuote, notBackslash, printable]

theorem stringFrom_escaped (ascii : Bool) (text : List Char) (fuel : Nat) (before rest : List Char)
    (enough : text.length < fuel) :
    stringFrom fuel before (text.flatMap (escapeChar ascii) ++ '"' :: rest) =
      some (String.ofList (before.reverse ++ text), rest) := by
  induction text generalizing fuel before with
  | nil =>
    cases fuel with
    | zero => cases enough
    | succ fuel => simp [stringFrom]
  | cons char text induction =>
    cases fuel with
    | zero => cases enough
    | succ fuel =>
      rw [flatMap_cons, append_assoc, stringFrom_escapeChar,
        induction fuel (char :: before) (by simpa using enough)]
      simp

theorem escapeChar_ne_nil (ascii : Bool) (char : Char) : escapeChar ascii char ≠ [] := by
  unfold escapeChar escapeCode escapeUnit
  split <;> (repeat' split) <;> simp

theorem length_le_escaped (ascii : Bool) (text : List Char) :
    text.length ≤ (text.flatMap (escapeChar ascii)).length := by
  induction text with
  | nil => exact Nat.le_refl 0
  | cons char text induction =>
    have written := length_pos_iff.mpr (escapeChar_ne_nil ascii char)
    rw [flatMap_cons, length_append, length_cons]
    omega

theorem string?_escaped (ascii : Bool) (text : String) (rest : List Char) :
    string? (text.toList.flatMap (escapeChar ascii) ++ '"' :: rest) = some (text, rest) := by
  have enough := length_le_escaped ascii text.toList
  rw [string?, stringFrom_escaped _ _ _ _ _ (by rw [length_append]; omega)]
  simp

/-! ## Blanks -/

theorem skipSpace_of_ne {char : Char} (solid : isSpace char = false) (rest : List Char) :
    skipSpace (char :: rest) = char :: rest := by
  simp [skipSpace, solid]

theorem skipSpace_lineBreak (layout : Layout) (depth : Nat) (rest : List Char) :
    skipSpace (layout.lineBreak depth ++ rest) = skipSpace rest := by
  rw [Layout.lineBreak]
  split
  · rfl
  · rename_i width _
    have spaces : ∀ count, skipSpace (List.replicate count ' ' ++ rest) = skipSpace rest := by
      intro count
      induction count with
      | zero => rfl
      | succ count induction => exact induction
    exact spaces _

theorem exists_between (layout : Layout) (depth : Nat) :
    ∃ blanks, layout.between depth = ',' :: blanks ∧
      ∀ rest, skipSpace (blanks ++ rest) = skipSpace rest := by
  rw [Layout.between]
  split
  · exact ⟨[' '], rfl, fun rest => rfl⟩
  · exact ⟨layout.lineBreak depth, rfl, skipSpace_lineBreak layout depth⟩

/-! ## Numbers -/

/-- What may stand after a whole number: nothing that would go on with it. -/
def Ends (rest : List Char) : Prop :=
  ∀ char, rest.head? = some char →
    isDigit char = false ∧ char ≠ '.' ∧ char ≠ 'e' ∧ char ≠ 'E'

theorem span_digits {digits : List Char} (each : ∀ char ∈ digits, char.isDigit = true)
    (ends : Ends rest) :
    (digits ++ rest).takeWhile isDigit = digits ∧ (digits ++ rest).dropWhile isDigit = rest := by
  induction digits with
  | nil =>
    cases rest with
    | nil => exact ⟨rfl, rfl⟩
    | cons char rest =>
      have stop := (ends char rfl).1
      simp [stop]
  | cons digit digits induction =>
    have isDigit : Parser.isDigit digit = true := each digit mem_cons_self
    have tail := induction fun char member => each char (mem_cons_of_mem digit member)
    simp [isDigit, tail]

theorem wholeDigits_toDigits (value : Nat) (ends : Ends rest) :
    wholeDigits (Nat.toDigits 10 value ++ rest) = (Nat.toDigits 10 value, rest) := by
  rcases Nat.eq_zero_or_pos value with rfl | positive
  · rfl
  · rcases Decimal.exists_first_digit positive with ⟨first, digits, same, notZero⟩
    have each : ∀ char ∈ Nat.toDigits 10 value, char.isDigit = true := fun char member =>
      Nat.isDigit_of_mem_toDigits (by decide) (by decide) member
    have span := span_digits each ends
    rw [wholeDigits, span.1, span.2]
    intro rest' equal
    rw [same] at equal
    cases equal
    exact notZero rfl

theorem number?_intText (value : Int) (ends : Ends rest) :
    Parser.number? ((Decimal.intText value).toList ++ rest) = some (.int value, rest) := by
  have fraction : fractionDigits rest = (none, rest) := by
    rw [fractionDigits]
    intro rest' same
    exact (ends '.' (by rw [same]; rfl)).2.1 rfl
  have exponent : exponentDigits rest = (none, rest) := by
    cases rest with
    | nil => rfl
    | cons char rest =>
      have stop := (ends char rfl).2.2
      simp [exponentDigits, stop.1, stop.2]
  have filled (magnitude : Nat) : (Nat.toDigits 10 magnitude).isEmpty = false := by
    simp [Nat.toDigits_ne_nil]
  have read (magnitude : Nat) : digitsValue (Nat.toDigits 10 magnitude) = magnitude :=
    Decimal.valueFrom_toDigits magnitude
  cases value with
  | ofNat magnitude =>
    have unsigned : (Decimal.intText (.ofNat magnitude)).toList ++ rest =
        Nat.toDigits 10 magnitude ++ rest := by
      rw [Decimal.intText, Decimal.toList_natText]
    have noSign : ∀ tail, Nat.toDigits 10 magnitude ++ rest ≠ '-' :: tail := by
      intro tail same
      rcases digits : Nat.toDigits 10 magnitude with _ | ⟨first, others⟩
      · exact Nat.toDigits_ne_nil digits
      · rw [digits] at same
        cases same
        have isDigit := @Nat.isDigit_of_mem_toDigits 10 magnitude '-' (by decide) (by decide)
          (by rw [digits]; exact mem_cons_self)
        cases isDigit
    rw [unsigned]
    unfold Parser.number?
    split
    rename_i sign
    split at sign
    · rename_i same
      exact absurd same (noSign _)
    · cases sign
      simp [wholeDigits_toDigits magnitude ends, filled, fraction, exponent, read]
  | negSucc magnitude =>
    have signed : (Decimal.intText (.negSucc magnitude)).toList ++ rest =
        '-' :: (Nat.toDigits 10 (magnitude + 1) ++ rest) := by
      rw [Decimal.intText, String.toList_append, Decimal.toList_natText]
      rfl
    rw [signed]
    simp only [Parser.number?, wholeDigits_toDigits (magnitude + 1) ends, filled, fraction,
      exponent, read, Bool.false_eq_true, if_false, if_true]
    rfl

/-! ## Values -/

/-- Values without floating-point numbers, whose objects have each name once. -/
inductive Regular : Json → Prop
  | null : Regular .null
  | bool (value : Bool) : Regular (.bool value)
  | int (value : Int) : Regular (.int value)
  | text (value : String) : Regular (.text value)
  | list {items : List Json} (each : ∀ item ∈ items, Regular item) : Regular (.list items)
  | object {members : Members} (distinct : (members.map Prod.fst).Nodup)
      (each : ∀ entry ∈ members, Regular entry.2) : Regular (.object members)

def memberText (layout : Layout) (depth : Nat) (entry : String × Json) : List Char :=
  quoted layout.ascii entry.1 ++ [':', ' '] ++ chars layout depth entry.2

theorem itemChars_eq_flatMap (layout : Layout) (depth : Nat) : (items : List Json) →
    itemChars layout depth items =
      items.flatMap fun item => layout.between depth ++ chars layout depth item
  | [] => rfl
  | item :: others => by simp [itemChars, itemChars_eq_flatMap layout depth others]

theorem memberChars_eq_flatMap (layout : Layout) (depth : Nat) : (members : Members) →
    memberChars layout depth members =
      members.flatMap fun entry => layout.between depth ++ memberText layout depth entry
  | [] => rfl
  | entry :: others => by
    simp [memberChars, memberText, memberChars_eq_flatMap layout depth others]

/-- What is written for a value starts with a character that is recognized, and is read back whatever
follows, as long as it does not go on with a number. -/
structure Readable (value : Json) : Prop where
  first : ∀ layout depth, ∃ first rest,
    chars layout depth value = first :: rest ∧ isSpace first = false ∧ first ≠ ']'
  read : ∀ layout depth fuel rest, Ends rest → (chars layout depth value).length < fuel →
    value? fuel (chars layout depth value ++ rest) = some (value, rest)

theorem readable_of_succ {value : Json}
    (first : ∀ layout depth, ∃ first rest,
      chars layout depth value = first :: rest ∧ isSpace first = false ∧ first ≠ ']')
    (read : ∀ layout depth fuel rest, Ends rest → (chars layout depth value).length ≤ fuel →
      value? (fuel + 1) (chars layout depth value ++ rest) = some (value, rest)) :
    value.Readable := by
  refine ⟨first, fun layout depth fuel rest ends enough => ?_⟩
  cases fuel with
  | zero => cases enough
  | succ fuel => exact read layout depth fuel rest ends (Nat.le_of_lt_succ enough)

theorem ends_comma (rest : List Char) : Ends (',' :: rest) := by
  rintro char ⟨⟩
  decide

theorem ends_close (layout : Layout) (depth : Nat) {close : Char} (rest : List Char)
    (isClose : close = ']' ∨ close = '\x7d') : Ends (layout.lineBreak depth ++ close :: rest) := by
  rw [Layout.lineBreak]
  split
  · rintro char ⟨⟩
    rcases isClose with rfl | rfl <;> decide
  · rintro char ⟨⟩
    decide

theorem skipSpace_close (layout : Layout) (depth : Nat) {close : Char} (rest : List Char)
    (isClose : close = ']' ∨ close = '\x7d') :
    skipSpace (layout.lineBreak depth ++ close :: rest) = close :: rest := by
  rw [skipSpace_lineBreak]
  rcases isClose with rfl | rfl <;> rfl

/-! ### Lists of entries -/

section Entries

variable {α : Type}

/-- Entries as they are written, without what stands around them. -/
def entriesText (layout : Layout) (depth : Nat) (written : α → List Char) : List α → List Char
  | [] => []
  | entry :: others =>
    written entry ++ others.flatMap fun other => layout.between depth ++ written other

/-- How one entry of a list is read if no number goes on behind it: before the end of the list, and
before a comma with more entries behind it. -/
structure Entered (parse : Nat → List Char → Option (List α × List Char)) (close : Char)
    (written : List Char) (entry : α) : Prop where
  solid : ∀ rest, skipSpace (written ++ rest) = written ++ rest
  last : ∀ {fuel rest after}, Ends rest → written.length < fuel →
    skipSpace rest = close :: after → parse (fuel + 1) (written ++ rest) = some ([entry], after)
  next : ∀ {fuel rest after others final}, Ends rest → written.length < fuel →
    skipSpace rest = ',' :: after → parse fuel (skipSpace after) = some (others, final) →
      parse (fuel + 1) (written ++ rest) = some (entry :: others, final)

variable {parse : Nat → List Char → Option (List α × List Char)} {close : Char}
  {written : α → List Char} {entries : List α}

theorem skipSpace_entries (each : ∀ entry ∈ entries, Entered parse close (written entry) entry)
    (filled : entries ≠ []) (layout : Layout) (depth : Nat) (rest : List Char) :
    skipSpace (entriesText layout depth written entries ++ rest) =
      entriesText layout depth written entries ++ rest := by
  cases entries with
  | nil => exact absurd rfl filled
  | cons entry others =>
    rw [entriesText, append_assoc]
    exact (each entry mem_cons_self).solid _

theorem parse_entries (isClose : close = ']' ∨ close = '\x7d')
    (each : ∀ entry ∈ entries, Entered parse close (written entry) entry) (filled : entries ≠ [])
    (layout : Layout) (inner outer fuel : Nat) (rest : List Char)
    (enough : (entriesText layout inner written entries).length + 2 ≤ fuel) :
    parse fuel (entriesText layout inner written entries ++
      (layout.lineBreak outer ++ close :: rest)) = some (entries, rest) := by
  induction entries generalizing fuel with
  | nil => exact absurd rfl filled
  | cons entry others induction =>
    rcases fuel with _ | fuel
    · omega
    have entered := each entry mem_cons_self
    cases others with
    | nil =>
      rw [entriesText, flatMap_nil, append_nil] at enough ⊢
      exact entered.last (ends_close layout outer rest isClose) (by omega)
        (skipSpace_close layout outer rest isClose)
    | cons next others =>
      rcases exists_between layout inner with ⟨blanks, comma, skipped⟩
      have text : entriesText layout inner written (entry :: next :: others) = written entry ++
          (',' :: (blanks ++ entriesText layout inner written (next :: others))) := by
        simp [entriesText, comma]
      have sizes := congrArg List.length text
      simp only [length_append, length_cons] at sizes
      have later : ∀ entry ∈ next :: others, Entered parse close (written entry) entry :=
        fun entry member => each entry (mem_cons_of_mem _ member)
      have remaining := induction later (cons_ne_nil next others) fuel (by omega)
      rw [text, append_assoc, cons_append]
      refine entered.next (ends_comma _) (by omega) rfl ?_
      rw [append_assoc, skipped, skipSpace_entries later (cons_ne_nil next others), remaining]

theorem readable_of_entries {value : Json} (opening : Char) {written : Layout → Nat → α → List Char}
    (isClose : close = ']' ∨ close = '\x7d') (filled : entries ≠ [])
    (each : ∀ layout depth, ∀ entry ∈ entries,
      Entered parse close (written layout depth entry) entry)
    (text : ∀ layout depth, chars layout depth value =
      opening :: (layout.lineBreak (depth + 1) ++
        (entriesText layout (depth + 1) (written layout (depth + 1)) entries ++
          (layout.lineBreak depth ++ [close]))))
    (opens : isSpace opening = false ∧ opening ≠ ']')
    (read : ∀ layout depth fuel input rest final,
      skipSpace input = entriesText layout depth (written layout depth) entries ++ rest →
      parse fuel (entriesText layout depth (written layout depth) entries ++ rest) =
        some (entries, final) →
      value? (fuel + 1) (opening :: input) = some (value, final)) : value.Readable := by
  apply readable_of_succ fun layout depth => ⟨opening, _, text layout depth, opens⟩
  intro layout depth fuel rest _ enough
  have sizes := congrArg List.length (text layout depth)
  simp only [length_append, length_cons, length_nil] at sizes
  rw [text, cons_append]
  simp only [append_assoc, singleton_append]
  apply read layout (depth + 1) fuel
  · rw [skipSpace_lineBreak, skipSpace_entries (each layout (depth + 1)) filled]
  · exact parse_entries isClose (each layout (depth + 1)) filled layout (depth + 1) depth fuel rest
      (by omega)

end Entries

theorem Readable.skipSpace_chars (readable : value.Readable) (layout : Layout) (depth : Nat)
    (rest : List Char) :
    skipSpace (chars layout depth value ++ rest) = chars layout depth value ++ rest := by
  rcases readable.first layout depth with ⟨first, tail, starts, solid, _⟩
  rw [starts]
  exact skipSpace_of_ne solid _

theorem entered_item {item : Json} (readable : item.Readable) (layout : Layout) (depth : Nat) :
    Entered items? ']' (chars layout depth item) item where
  solid := readable.skipSpace_chars layout depth
  last ends enough closes := by
    simp only [items?, readable.read layout depth _ _ ends enough, closes]
  next ends enough continues further := by
    simp only [items?, readable.read layout depth _ _ ends enough, continues, further,
      Option.map_some]

theorem entered_member {entry : String × Json} (readable : entry.2.Readable) (layout : Layout)
    (depth : Nat) : Entered members? '\x7d' (memberText layout depth entry) entry := by
  have regrouped (rest : List Char) : memberText layout depth entry ++ rest =
      '"' :: (entry.1.toList.flatMap (escapeChar layout.ascii) ++
        '"' :: ':' :: ' ' :: (chars layout depth entry.2 ++ rest)) := by
    simp [memberText, quoted]
  have shorter {fuel : Nat} (enough : (memberText layout depth entry).length < fuel) :
      (chars layout depth entry.2).length < fuel := by
    simp only [memberText, length_append] at enough
    omega
  have colon (tail : List Char) : skipSpace (':' :: tail) = ':' :: tail := rfl
  have blank (rest : List Char) : skipSpace (' ' :: (chars layout depth entry.2 ++ rest)) =
      chars layout depth entry.2 ++ rest :=
    readable.skipSpace_chars layout depth rest
  refine ⟨fun rest => ?_, fun ends enough closes => ?_, fun ends enough continues further => ?_⟩
  · rw [regrouped]
    exact skipSpace_of_ne rfl _
  · have read := readable.read layout depth _ _ ends (shorter enough)
    simp only [regrouped, members?, string?_escaped, colon, blank, read, closes]
  · have read := readable.read layout depth _ _ ends (shorter enough)
    simp only [regrouped, members?, string?_escaped, colon, blank, read, continues, further,
      Option.map_some]

theorem insert_of_not_mem {name : String} (absent : name ∉ members.map Prod.fst) (value : Json) :
    Members.insert name value members = members ++ [(name, value)] := by
  induction members with
  | nil => rfl
  | cons entry rest induction =>
    rcases entry with ⟨other, old⟩
    rw [map_cons, mem_cons, not_or] at absent
    have different : (other == name) = false := by simpa using Ne.symm absent.1
    simp [Members.insert, different, induction absent.2]

theorem ofPairs_of_nodup (distinct : (members.map Prod.fst).Nodup) :
    Members.ofPairs members = members := by
  have collected : ∀ before later : Members, ((before ++ later).map Prod.fst).Nodup →
      later.foldl (fun members entry => Members.insert entry.1 entry.2 members) before =
        before ++ later := by
    intro before later distinct
    induction later generalizing before with
    | nil => simp
    | cons entry rest induction =>
      rcases entry with ⟨name, value⟩
      have absent : name ∉ before.map Prod.fst := by
        rw [map_append, map_cons] at distinct
        intro member
        exact (nodup_append.mp distinct).2.2 _ member _ mem_cons_self rfl
      simp only [foldl_cons, insert_of_not_mem absent]
      rw [induction _ (by simpa using distinct), append_assoc, singleton_append]
  exact collected [] members distinct

theorem word?_digit {first : Char} (isDigit : first.isDigit = true) (rest : List Char) :
    word? (first :: rest) = none := by
  have different := @Decimal.ne_of_isDigit first
  simp [word?, words, Text.Chars.dropLead?, different isDigit]

theorem word?_negative {second : Char} (isDigit : second.isDigit = true) (rest : List Char) :
    word? ('-' :: second :: rest) = none := by
  simp [word?, words, Text.Chars.dropLead?, Decimal.ne_of_isDigit isDigit]

theorem value?_number {first : Char} {rest : List Char} (noWord : word? (first :: rest) = none)
    (noQuote : first ≠ '"') (noList : first ≠ '[') (noObject : first ≠ '\x7b') (fuel : Nat) :
    value? (fuel + 1) (first :: rest) = Parser.number? (first :: rest) := by
  unfold value?
  split
  · contradiction
  · rename_i same
    cases same
    exact absurd rfl noQuote
  · rename_i same
    cases same
    exact absurd rfl noList
  · rename_i same
    cases same
    exact absurd rfl noObject
  · rw [noWord]

/-! One lemma for each kind of value. -/

theorem readable_null : Readable .null :=
  readable_of_succ (fun _ _ => ⟨_, _, rfl, rfl, by decide⟩) fun _ _ _ _ _ _ => rfl

theorem readable_bool (value : Bool) : Readable (.bool value) := by
  cases value with
  | true => exact readable_of_succ (fun _ _ => ⟨_, _, rfl, rfl, by decide⟩) fun _ _ _ _ _ _ => rfl
  | false => exact readable_of_succ (fun _ _ => ⟨_, _, rfl, rfl, by decide⟩) fun _ _ _ _ _ _ => rfl

theorem readable_int (value : Int) : Readable (.int value) := by
  -- A digit comes first, or a sign and then a digit.
  have starts : ∃ first rest, (Decimal.intText value).toList = first :: rest ∧
      (first.isDigit = true ∨ first = '-') ∧ ∀ more, word? (first :: (rest ++ more)) = none := by
    cases value with
    | ofNat magnitude =>
      rcases digits : Nat.toDigits 10 magnitude with _ | ⟨first, others⟩
      · exact absurd digits Nat.toDigits_ne_nil
      · have isDigit := @Nat.isDigit_of_mem_toDigits 10 magnitude first (by decide) (by decide)
          (by rw [digits]; exact mem_cons_self)
        refine ⟨first, others, ?_, .inl isDigit, fun more => word?_digit isDigit _⟩
        rw [Decimal.intText, Decimal.toList_natText, digits]
    | negSucc magnitude =>
      rcases digits : Nat.toDigits 10 (magnitude + 1) with _ | ⟨first, others⟩
      · exact absurd digits Nat.toDigits_ne_nil
      · have isDigit := @Nat.isDigit_of_mem_toDigits 10 (magnitude + 1) first (by decide)
          (by decide) (by rw [digits]; exact mem_cons_self)
        refine ⟨'-', first :: others, ?_, .inr rfl, fun more => word?_negative isDigit _⟩
        rw [Decimal.intText, String.toList_append, Decimal.toList_natText, digits]
        rfl
  rcases starts with ⟨first, digits, text, kind, noWord⟩
  have different {other : Char} (noDigit : other.isDigit = false) (noSign : other ≠ '-') :
      first ≠ other := by
    rcases kind with isDigit | rfl
    · exact (Decimal.ne_of_isDigit isDigit noDigit).symm
    · exact noSign.symm
  apply readable_of_succ
  · intro layout depth
    refine ⟨first, digits, by rw [chars, text], ?_, different rfl (by decide)⟩
    simp [isSpace, different]
  · intro layout depth fuel rest ends _
    have read := number?_intText value ends
    rw [text, cons_append] at read
    rw [chars, text, cons_append, ← read]
    exact value?_number (noWord rest) (different rfl (by decide)) (different rfl (by decide))
      (different rfl (by decide)) fuel

theorem readable_text (value : String) : Readable (.text value) := by
  apply readable_of_succ fun layout depth => ⟨'"', _, by rw [chars, quoted]; rfl, rfl, by decide⟩
  intro layout depth fuel rest _ _
  simp [chars, quoted, value?, string?_escaped]

theorem readable_list {items : List Json} (each : ∀ item ∈ items, item.Readable) :
    Readable (.list items) := by
  cases items with
  | nil =>
    apply readable_of_succ fun _ _ => ⟨'[', _, by rw [chars], rfl, by decide⟩
    exact fun _ _ _ _ _ _ => rfl
  | cons item others =>
    apply readable_of_entries '[' (.inl rfl) (cons_ne_nil item others)
      fun layout depth other member => entered_item (each other member) layout depth
    · intro layout depth
      simp [chars, entriesText, itemChars_eq_flatMap]
    · exact ⟨rfl, by decide⟩
    · intro layout depth fuel input rest final skipped read
      rcases (each item mem_cons_self).first layout depth with
        ⟨char, tail, starts, _, notClose⟩
      rw [value?, skipped]
      split
      · rename_i same
        rw [entriesText, starts] at same
        cases same
        exact absurd rfl notClose
      · rw [read]
        rfl

theorem readable_object (distinct : (members.map Prod.fst).Nodup)
    (each : ∀ entry ∈ members, entry.2.Readable) : Readable (.object members) := by
  cases members with
  | nil =>
    apply readable_of_succ fun _ _ => ⟨'\x7b', _, by rw [chars], rfl, by decide⟩
    exact fun _ _ _ _ _ _ => rfl
  | cons entry others =>
    apply readable_of_entries '\x7b' (.inr rfl) (cons_ne_nil entry others)
      fun layout depth other member => entered_member (each other member) layout depth
    · intro layout depth
      simp [chars, entriesText, memberText, memberChars_eq_flatMap]
    · exact ⟨rfl, by decide⟩
    · intro layout depth fuel input rest final skipped read
      rw [value?, skipped]
      split
      · rename_i same
        rw [entriesText, memberText, quoted] at same
        cases same
      · simp only [read, Option.map_some, ofPairs_of_nodup distinct]

theorem readable_of_regular (regular : value.Regular) : value.Readable := by
  induction regular with
  | null => exact readable_null
  | bool value => exact readable_bool value
  | int value => exact readable_int value
  | text value => exact readable_text value
  | list each induction => exact readable_list induction
  | object distinct each induction => exact readable_object distinct induction

/-- What is written for a value is read back as the value. -/
theorem parse?_render (regular : value.Regular) (layout : Layout) :
    parse? (value.render layout) = some value := by
  have readable := readable_of_regular regular
  have ends : Ends [] := by
    rintro char ⟨⟩
  have read := readable.read layout 0 (2 * (chars layout 0 value).length + 2) [] ends (by omega)
  rcases readable.first layout 0 with ⟨first, rest, starts, solid, _⟩
  have skipped : skipSpace (chars layout 0 value) = chars layout 0 value := by
    rw [starts]
    exact skipSpace_of_ne solid rest
  rw [append_nil] at read
  rw [parse?, render, String.toList_ofList]
  simp only [skipped, read]
  rfl

/-! ## Line breaks -/

theorem return_not_mem_escapeChar (ascii : Bool) (char : Char) : '\r' ∉ escapeChar ascii char := by
  have hexadecimal : ∀ digit < 16, '\r' ≠ hexDigit digit := by decide
  have unit (value : Nat) : '\r' ∉ escapeUnit value := by
    have digit (value : Nat) := hexadecimal (value % 16) (Nat.mod_lt _ (by decide))
    simp [escapeUnit, digit]
  unfold escapeChar
  split
  · decide
  · decide
  · decide
  · decide
  · decide
  · rename_i notReturn _
    split
    · decide
    · split
      · decide
      · split
        · rw [escapeCode]
          split
          · exact unit _
          · simp [unit]
        · simpa using Ne.symm notReturn

theorem return_not_mem_quoted (ascii : Bool) (text : String) : '\r' ∉ quoted ascii text := by
  simp [quoted, return_not_mem_escapeChar]

theorem return_not_mem_lineBreak (layout : Layout) (depth : Nat) : '\r' ∉ layout.lineBreak depth := by
  rw [Layout.lineBreak]
  split
  · simp
  · simp

theorem return_not_mem_between (layout : Layout) (depth : Nat) : '\r' ∉ layout.between depth := by
  rw [Layout.between]
  split
  · decide
  · simp [return_not_mem_lineBreak]

theorem return_not_mem_itemChars {items : List Json} {layout : Layout} {depth : Nat}
    (each : ∀ item ∈ items, '\r' ∉ chars layout depth item) :
    '\r' ∉ itemChars layout depth items := by
  induction items with
  | nil => simp [itemChars]
  | cons item rest induction =>
    have rest := induction fun other member => each other (mem_cons_of_mem item member)
    simp [itemChars, return_not_mem_between, each item mem_cons_self, rest]

theorem return_not_mem_memberChars {layout : Layout} {depth : Nat}
    (each : ∀ entry ∈ members, '\r' ∉ chars layout depth entry.2) :
    '\r' ∉ memberChars layout depth members := by
  induction members with
  | nil => simp [memberChars]
  | cons entry rest induction =>
    have rest := induction fun other member => each other (mem_cons_of_mem entry member)
    simp [memberChars, return_not_mem_between, return_not_mem_quoted, each entry mem_cons_self,
      rest]

theorem return_not_mem_chars (regular : value.Regular) (layout : Layout) (depth : Nat) :
    '\r' ∉ chars layout depth value := by
  induction regular generalizing depth with
  | null => simp [chars]
  | bool value => cases value <;> simp [chars]
  | int value =>
    have digits (magnitude : Nat) : '\r' ∉ (Decimal.natText magnitude).toList := fun member =>
      absurd (Decimal.isDigit_of_mem_natText member) (by decide)
    cases value with
    | ofNat magnitude => exact digits magnitude
    | negSucc magnitude =>
      rw [chars, Decimal.intText, String.toList_append, mem_append, not_or]
      exact ⟨by decide, digits _⟩
  | text value =>
    rw [chars]
    exact return_not_mem_quoted _ _
  | @list items each induction =>
    cases items with
    | nil => simp [chars]
    | cons item others =>
      have rest := return_not_mem_itemChars fun other member =>
        induction other (mem_cons_of_mem item member) (depth + 1)
      simp [chars, return_not_mem_lineBreak, induction item mem_cons_self, rest]
  | @object members distinct each induction =>
    cases members with
    | nil => simp [chars]
    | cons entry others =>
      have rest := return_not_mem_memberChars fun other member =>
        induction other (mem_cons_of_mem entry member) (depth + 1)
      simp [chars, return_not_mem_lineBreak, return_not_mem_quoted,
        induction entry mem_cons_self, rest]

theorem unifyBreaks_render (regular : value.Regular) (layout : Layout) :
    Text.unifyBreaks (value.render layout) = value.render layout := by
  rw [Text.unifyBreaks, render, String.toList_ofList,
    Text.Chars.unifyBreaks_of_free (return_not_mem_chars regular layout 0)]

/-! ## Names in what was parsed -/

theorem nodup_insert (distinct : (members.map Prod.fst).Nodup) (name : String) (value : Json) :
    ((Members.insert name value members).map Prod.fst).Nodup := by
  have same : Members.insert name value members = OrderedMap.insertEntry name value members := by
    clear distinct
    induction members with
    | nil => rfl
    | cons entry rest induction =>
      simp only [Members.insert, OrderedMap.insertEntry, beq_iff_eq, induction]
  rw [same]
  exact OrderedMap.nodup_insertEntry name value distinct

theorem nodup_ofPairs (pairs : List (String × Json)) :
    ((Members.ofPairs pairs).map Prod.fst).Nodup := by
  have collected : ∀ members : Members, (members.map Prod.fst).Nodup →
      ((pairs.foldl (fun members entry => Members.insert entry.1 entry.2 members) members).map
        Prod.fst).Nodup := by
    induction pairs with
    | nil => exact fun members distinct => distinct
    | cons pair rest induction => exact fun members distinct => induction _ (nodup_insert distinct _ _)
  exact collected [] nodup_nil

theorem word?_ne_object :
    word? input ≠ some (.object members, rest) := by
  intro found
  rcases exists_of_findSome?_eq_some found with ⟨⟨word, value⟩, member, matched⟩
  rcases Option.map_eq_some_iff.mp matched with ⟨after, _, same⟩
  cases same
  simp [words] at member

theorem number?_ne_object :
    Parser.number? input ≠ some (.object members, rest) := by
  intro found
  simp only [Parser.number?] at found
  -- Each way through ends with a number or with nothing.
  repeat' split at found
  all_goals cases found

theorem nodup_of_value? {fuel : Nat} (read : value? fuel input = some (.object members, rest)) :
    (members.map Prod.fst).Nodup := by
  cases fuel with
  | zero => cases read
  | succ fuel =>
    rw [value?.eq_def] at read
    simp only at read
    split at read
    · cases read
    · rcases Option.map_eq_some_iff.mp read with ⟨_, _, same⟩
      cases same
    · split at read
      · cases read
      · rcases Option.map_eq_some_iff.mp read with ⟨_, _, same⟩
        cases same
    · split at read
      · cases read
        exact nodup_nil
      · rcases Option.map_eq_some_iff.mp read with ⟨pairs, _, same⟩
        cases same
        exact nodup_ofPairs pairs.1
    · split at read
      · rename_i found word
        cases read
        exact absurd word word?_ne_object
      · exact absurd read number?_ne_object

theorem nodup_of_parse? {text : String} (parsed : parse? text = some (.object members)) :
    (members.map Prod.fst).Nodup := by
  simp only [parse?] at parsed
  split at parsed
  · rename_i value rest read
    split at parsed
    · cases parsed
      exact nodup_of_value? read
    · cases parsed
  · cases parsed

end CodeAtlas.Json
