/-
Printing and parsing.

The text of a value reads as the value, with every number the same `double` and every string the
same bytes; a number that is not finite reads as `null`.  Only the nesting limit keeps a printed
value from being read: a value reads back exactly if it is nested no deeper.
-/

import NetPolicy.Cjson.Strings

namespace NetPolicy.Cjson

open BinaryFormats DecimalNotation

/-! ### Numbers -/

theorem roundTo_of_same {negative : Bool} {value : ℚ} {magnitude : Magnitude binary64}
    (same : Double.same (roundTo binary64 negative value) (.finite negative magnitude) = true) :
    roundTo binary64 negative value = .finite negative magnitude := by
  unfold roundTo at same ⊢
  dsimp only at same ⊢
  split at same
  · rename_i bounded
    rw [dif_pos bounded]
    obtain ⟨units, representable, small⟩ := magnitude
    have equal : binary64.nearest (value * 2 ^ binary64.least) = units := by
      simpa [Double.same] using same
    subst equal
    rfl
  · cases same

theorem fine_seventeen : 2 ^ binary64.precision < 10 ^ 16 := by decide

theorem strtod_finiteText (negative : Bool) (magnitude : Magnitude binary64) :
    strtod binary64 (finiteText negative magnitude) = some (.finite negative magnitude, []) := by
  have short := strtod_magnitudeText 14 negative magnitude
  have long := strtod_magnitudeText 16 negative magnitude
  rw [roundTo_writtenValue fine_seventeen] at long
  unfold finiteText
  simp only [short]
  split
  · rename_i same
    rw [short, roundTo_of_same same]
  · exact long

theorem finiteText_eq (negative : Bool) (magnitude : Magnitude binary64) :
    ∃ after ≤ 16, finiteText negative magnitude =
      signText negative ++ magnitudeText after magnitude := by
  unfold finiteText
  dsimp only
  split
  · split
    · exact ⟨14, by omega, rfl⟩
    · exact ⟨16, le_rfl, rfl⟩
  · exact ⟨16, le_rfl, rfl⟩

theorem signedText_numeric (negative : Bool) (after : Nat) (magnitude : Magnitude binary64) :
    ∀ byte ∈ signText negative ++ magnitudeText after magnitude, isNumeric byte = true := by
  intro byte mem
  rcases List.mem_append.mp mem with sign | mem
  · cases negative with
    | false => cases sign
    | true =>
        obtain rfl := List.mem_singleton.mp sign
        rfl
  · exact magnitudeText_numeric after magnitude byte mem

theorem finiteText_numeric (negative : Bool) (magnitude : Magnitude binary64) :
    ∀ byte ∈ finiteText negative magnitude, isNumeric byte = true := by
  obtain ⟨after, _, text⟩ := finiteText_eq negative magnitude
  rw [text]
  exact signedText_numeric negative after magnitude

theorem finiteText_starts (negative : Bool) (magnitude : Magnitude binary64) :
    ∃ byte rest, finiteText negative magnitude = byte :: rest ∧
      (byte = '-'.toUInt8 ∨ isDigit byte = true) := by
  obtain ⟨after, _, text⟩ := finiteText_eq negative magnitude
  obtain ⟨byte, rest, starts, digit⟩ := magnitudeText_starts after magnitude
  cases negative with
  | false => exact ⟨byte, rest, text.trans starts, .inr digit⟩
  | true => exact ⟨'-'.toUInt8, _, text, .inl rfl⟩

theorem two_pow_least : 2 ^ binary64.least ≤ 10 ^ 324 := by
  have exponent : binary64.least = 10 * 107 + 4 := rfl
  rw [exponent, show 324 = 3 * 107 + 3 from rfl, pow_add, pow_mul, pow_add, pow_mul]
  norm_num

theorem two_pow_bits : 2 ^ binary64.bits ≤ 10 ^ 309 * 2 ^ binary64.least := by
  have exponent : binary64.bits = 10 * 102 + 4 + binary64.least := rfl
  rw [exponent, show 309 = 3 * 102 + 3 from rfl, pow_add, pow_add 2 (10 * 102) 4, pow_mul,
    pow_add 10, pow_mul]
  exact Nat.mul_le_mul_right _ (by norm_num)

theorem length_signedText_le (negative : Bool) {after : Nat} (few : after ≤ 16)
    (magnitude : Magnitude binary64) :
    (signText negative ++ magnitudeText after magnitude).length ≤ 24 := by
  have digits := length_magnitudeText_le two_pow_least two_pow_bits (by omega) (by omega) after
    magnitude
  have sign : (signText negative).length ≤ 1 := by cases negative <;> simp [signText]
  rw [List.length_append]
  omega

theorem length_finiteText_le (negative : Bool) (magnitude : Magnitude binary64) :
    (finiteText negative magnitude).length ≤ 24 := by
  obtain ⟨after, few, text⟩ := finiteText_eq negative magnitude
  rw [text]
  exact length_signedText_le negative few magnitude

/-- A buffer in which a number ends here. -/
def Stops (buffer : List UInt8) : Prop :=
  ∃ byte rest, buffer = byte :: rest ∧ isNumeric byte = false

theorem numberString_of_stops {text rest : List UInt8} (short : text.length ≤ 24)
    (numeric : ∀ byte ∈ text, isNumeric byte = true) (stops : Stops rest) :
    numberString (text ++ rest) = text := by
  obtain ⟨byte, later, rfl, stop⟩ := stops
  obtain ⟨room, more⟩ := Nat.exists_eq_add_of_lt (show text.length < 63 by omega)
  rw [numberString, more, List.take_append, List.take_of_length_le (by omega),
    List.takeWhile_append_of_pos numeric]
  have head : (byte :: later).take (text.length + room + 1 - text.length) =
      byte :: later.take room := by
    rw [show text.length + room + 1 - text.length = room + 1 by omega, List.take_succ_cons]
  rw [head, List.takeWhile_cons_of_neg (by simp [stop]), List.append_nil]

theorem parseNumber_finiteText (negative : Bool) (magnitude : Magnitude binary64)
    {rest : List UInt8} (stops : Stops rest) :
    parseNumber (finiteText negative magnitude ++ rest) =
      some (.number (.finite negative magnitude), rest) := by
  have string := numberString_of_stops (length_finiteText_le negative magnitude)
    (finiteText_numeric negative magnitude) stops
  rw [parseNumber, string, strtod_finiteText]
  simp

/-! ### Values -/

mutual

/-- A value as its text has it: a number that is not finite is printed as `null`. -/
def Item.asPrinted : Item → Item
  | .null => .null
  | .false => .false
  | .true => .true
  | .number (.finite negative magnitude) => .number (.finite negative magnitude)
  | .number (.infinite _) => .null
  | .number .nan => .null
  | .string valuestring => .string valuestring
  | .array child => .array (elementsAsPrinted child)
  | .object child => .object (membersAsPrinted child)

def elementsAsPrinted : List Item → List Item
  | [] => []
  | item :: rest => item.asPrinted :: elementsAsPrinted rest

def membersAsPrinted : List (CString × Item) → List (CString × Item)
  | [] => []
  | (name, item) :: rest => (name, item.asPrinted) :: membersAsPrinted rest

end

def opensValue (byte : UInt8) : Bool :=
  isDigit byte || (bytesOf ['n', 'f', 't', '"', '-', '[', '\x7b']).contains byte

theorem opensValue_of_isDigit {byte : UInt8} (digit : isDigit byte = true) :
    opensValue byte = true := by
  rw [opensValue, digit]
  rfl

theorem text_starts (item : Item) :
    ∃ byte rest, item.text = byte :: rest ∧ opensValue byte = true := by
  cases item with
  | number valuedouble =>
      cases valuedouble with
      | finite negative magnitude =>
          obtain ⟨byte, rest, starts, sign | digit⟩ := finiteText_starts negative magnitude
          · exact ⟨byte, rest, starts, by rw [sign]; rfl⟩
          · exact ⟨byte, rest, starts, opensValue_of_isDigit digit⟩
      | infinite negative => exact ⟨_, _, rfl, rfl⟩
      | nan => exact ⟨_, _, rfl, rfl⟩
  | null => exact ⟨_, _, rfl, rfl⟩
  | false => exact ⟨_, _, rfl, rfl⟩
  | true => exact ⟨_, _, rfl, rfl⟩
  | string valuestring => exact ⟨_, _, rfl, rfl⟩
  | array child => exact ⟨_, _, rfl, rfl⟩
  | object child => exact ⟨_, _, rfl, rfl⟩

theorem skipWhitespace_of_lt {byte : UInt8} (visible : ¬byte ≤ 32) (rest : List UInt8) :
    skipWhitespace (byte :: rest) = byte :: rest := by
  rw [skipWhitespace, List.dropWhile_cons_of_neg (by simpa using visible)]

theorem opensValue_visible {byte : UInt8} (opens : opensValue byte = true) : ¬byte ≤ 32 := by
  rcases Bool.or_eq_true_iff.mp opens with digit | listed
  · simp only [isDigit, Bool.and_eq_true, decide_eq_true_eq, UInt8.le_iff_toNat_le] at digit
    have zero : '0'.toUInt8.toNat = 48 := rfl
    rw [UInt8.le_iff_toNat_le]
    have space : (32 : UInt8).toNat = 32 := rfl
    omega
  · simp only [bytesOf, List.map_cons, List.map_nil, List.contains_eq_mem, List.mem_cons,
      List.not_mem_nil, or_false, decide_eq_true_eq] at listed
    rcases listed with rfl | rfl | rfl | rfl | rfl | rfl | rfl <;> decide

section

variable {α β : Type} {one : List UInt8 → Option (α × List UInt8)} {text : β → List UInt8}
  {result : β → α} {fits : β → Prop} [DecidablePred fits] {close : UInt8}

theorem stops_cons {byte : UInt8} (stop : isNumeric byte = false) (rest : List UInt8) :
    Stops (byte :: rest) := ⟨byte, rest, rfl, stop⟩

theorem parseSeparated_text (stop : isNumeric close = false) (visible : ¬close ≤ 32)
    (notComma : close ≠ ','.toUInt8) {turns : Nat} {items : List β} (nonempty : items ≠ [])
    (enough : items.length ≤ turns)
    (reads : ∀ item ∈ items, ∀ rest, Stops rest →
      one (text item ++ rest) = if fits item then some (result item, rest) else none)
    (rest : List UInt8) :
    parseSeparated one turns (commaSeparated (items.map text) ++ close :: rest) =
      if ∀ item ∈ items, fits item then some (items.map result, close :: rest) else none := by
  induction items generalizing turns with
  | nil => exact absurd rfl nonempty
  | cons item items ih =>
      obtain ⟨turns, rfl⟩ := Nat.exists_eq_succ_of_ne_zero (show turns ≠ 0 by
        rw [List.length_cons] at enough; omega)
      obtain ⟨first, later⟩ := List.forall_mem_cons.mp reads
      cases items with
      | nil =>
          have read := first (close :: rest) (stops_cons stop rest)
          by_cases fit : fits item
          · rw [if_pos fit] at read
            simp [parseSeparated, commaSeparated, read, skipWhitespace_of_lt visible, notComma, fit]
          · rw [if_neg fit] at read
            simp [parseSeparated, commaSeparated, read, fit]
      | cons next items =>
          have stopComma : isNumeric ','.toUInt8 = false := rfl
          have read := first _ (stops_cons stopComma
            (commaSeparated ((next :: items).map text) ++ close :: rest))
          have tail := ih (List.cons_ne_nil _ _) (show (next :: items).length ≤ turns by
            rw [List.length_cons] at enough; omega) later
          have shape : commaSeparated ((item :: next :: items).map text) ++ close :: rest =
              text item ++ ','.toUInt8 ::
                (commaSeparated ((next :: items).map text) ++ close :: rest) := by
            simp [commaSeparated]
          have comma : ¬ ','.toUInt8 ≤ 32 := by decide
          rw [shape, parseSeparated, read]
          by_cases fit : fits item
          · rw [if_pos fit]
            simp only [Option.bind_eq_bind, Option.bind_some, skipWhitespace_of_lt comma, if_true,
              tail]
            by_cases all : ∀ item ∈ next :: items, fits item
            · rw [if_pos all, if_pos (List.forall_mem_cons.mpr ⟨fit, all⟩)]
              rfl
            · rw [if_neg all, if_neg fun both => all (List.forall_mem_cons.mp both).2]
              rfl
          · rw [if_neg fit, if_neg fun both => fit (List.forall_mem_cons.mp both).1]
            rfl

theorem length_le_commaSeparated {texts : List (List UInt8)} (nonempty : ∀ text ∈ texts, text ≠ []) :
    texts.length ≤ (commaSeparated texts).length := by
  induction texts with
  | nil => exact Nat.zero_le _
  | cons text texts ih =>
      obtain ⟨first, later⟩ := List.forall_mem_cons.mp nonempty
      have one : 0 < text.length := List.length_pos_iff.mpr first
      have rest := ih later
      cases texts with
      | nil => exact one
      | cons next texts =>
          simp only [commaSeparated, List.length_append, List.length_cons] at rest ⊢
          omega

/-- A text that stands for itself between brackets. -/
def Opens (close : UInt8) (text : List UInt8) : Prop :=
  ∃ byte rest, text = byte :: rest ∧ ¬byte ≤ 32 ∧ byte ≠ close

theorem commaSeparated_starts {item : List UInt8} {byte : UInt8} {rest : List UInt8}
    (starts : item = byte :: rest) (items : List (List UInt8)) :
    ∃ later, commaSeparated (item :: items) = byte :: later := by
  subst starts
  cases items with
  | nil => exact ⟨rest, rfl⟩
  | cons next items => exact ⟨_, rfl⟩

theorem parseBracketed_text (stop : isNumeric close = false) (visible : ¬close ≤ 32)
    (notComma : close ≠ ','.toUInt8) {items : List β}
    (opens : ∀ item ∈ items, Opens close (text item))
    (reads : ∀ item ∈ items, ∀ rest, Stops rest →
      one (text item ++ rest) = if fits item then some (result item, rest) else none)
    (bracket : UInt8) (rest : List UInt8) :
    parseBracketed one close (bracket :: (commaSeparated (items.map text) ++ close :: rest)) =
      if ∀ item ∈ items, fits item then some (items.map result, rest) else none := by
  rw [parseBracketed, List.drop_succ_cons, List.drop_zero]
  cases items with
  | nil =>
      rw [List.map_nil, commaSeparated, List.nil_append, skipWhitespace_of_lt visible]
      simp
  | cons item items =>
      obtain ⟨byte, later, starts, seen, notClose⟩ := opens item List.mem_cons_self
      obtain ⟨more, first⟩ := commaSeparated_starts starts (items.map text)
      have enough : (item :: items).length ≤ (byte :: (more ++ close :: rest)).length := by
        have texts : ∀ written ∈ (item :: items).map text, written ≠ [] := by
          intro written mem
          obtain ⟨source, sourceMem, rfl⟩ := List.mem_map.mp mem
          obtain ⟨byte, later, starts, _⟩ := opens source sourceMem
          rw [starts]
          exact List.cons_ne_nil _ _
        have short := length_le_commaSeparated texts
        rw [List.length_map, List.map_cons, first] at short
        simp only [List.length_cons, List.length_append] at short ⊢
        omega
      have read :=
        parseSeparated_text stop visible notComma (List.cons_ne_nil item items) enough reads rest
      rw [List.map_cons, first, List.cons_append] at read ⊢
      rw [skipWhitespace_of_lt seen]
      by_cases all : ∀ each ∈ item :: items, fits each
      · rw [if_pos all] at read ⊢
        simp only [if_neg notClose, read, if_true]
      · rw [if_neg all] at read ⊢
        simp only [if_neg notClose, read]

end

theorem parseValue_eq (room : Nat) :
    ∃ array object, parseValue room = parseValueWith array object := by
  cases room with
  | zero => exact ⟨_, _, rfl⟩
  | succ room => exact ⟨_, _, rfl⟩

section

variable (array object : List UInt8 → Option (Item × List UInt8)) (rest : List UInt8)

theorem not_isPrefixOf_of_head {first byte : UInt8} (other : first ≠ byte) (literal : List UInt8) :
    ¬(first :: literal).isPrefixOf (byte :: rest) = true := by
  rw [List.isPrefixOf_cons_cons, beq_false_of_ne other, Bool.false_and]
  exact Bool.false_ne_true

theorem parseValueWith_null :
    parseValueWith array object (bytesOf ['n', 'u', 'l', 'l'] ++ rest) = some (.null, rest) :=
  if_pos (List.isPrefixOf_iff_prefix.mpr (List.prefix_append _ _))

theorem parseValueWith_false :
    parseValueWith array object (bytesOf ['f', 'a', 'l', 's', 'e'] ++ rest) =
      some (.false, rest) := by
  have notNull := not_isPrefixOf_of_head (bytesOf ['a', 'l', 's', 'e'] ++ rest)
    (show 'n'.toUInt8 ≠ 'f'.toUInt8 by decide) (bytesOf ['u', 'l', 'l'])
  exact (if_neg notNull).trans (if_pos (List.isPrefixOf_iff_prefix.mpr (List.prefix_append _ _)))

theorem parseValueWith_true :
    parseValueWith array object (bytesOf ['t', 'r', 'u', 'e'] ++ rest) = some (.true, rest) := by
  have notNull := not_isPrefixOf_of_head (bytesOf ['r', 'u', 'e'] ++ rest)
    (show 'n'.toUInt8 ≠ 't'.toUInt8 by decide) (bytesOf ['u', 'l', 'l'])
  have notFalse := not_isPrefixOf_of_head (bytesOf ['r', 'u', 'e'] ++ rest)
    (show 'f'.toUInt8 ≠ 't'.toUInt8 by decide) (bytesOf ['a', 'l', 's', 'e'])
  exact (if_neg notNull).trans ((if_neg notFalse).trans
    (if_pos (List.isPrefixOf_iff_prefix.mpr (List.prefix_append _ _))))

def notLiteral (byte : UInt8) : Bool := !(bytesOf ['n', 'f', 't']).contains byte

theorem parseValueWith_cons {byte : UInt8} (other : notLiteral byte = true) :
    parseValueWith array object (byte :: rest) =
      if byte = '"'.toUInt8 then
        (parseString (byte :: rest)).map fun read => (.string read.1, read.2)
      else if byte = '-'.toUInt8 ∨ isDigit byte = true then parseNumber (byte :: rest)
      else if byte = '['.toUInt8 then array (byte :: rest)
      else if byte = '\x7b'.toUInt8 then object (byte :: rest)
      else none := by
  simp only [notLiteral, bytesOf, List.map_cons, List.map_nil, List.contains_eq_mem, List.mem_cons,
    List.not_mem_nil, or_false, Bool.not_eq_true', decide_eq_false_iff_not, not_or] at other
  obtain ⟨notN, notF, notT⟩ := other
  have notNull := not_isPrefixOf_of_head rest (Ne.symm notN) (bytesOf ['u', 'l', 'l'])
  have notFalse := not_isPrefixOf_of_head rest (Ne.symm notF) (bytesOf ['a', 'l', 's', 'e'])
  have notTrue := not_isPrefixOf_of_head rest (Ne.symm notT) (bytesOf ['r', 'u', 'e'])
  exact (if_neg notNull).trans ((if_neg notFalse).trans (if_neg notTrue))

theorem notLiteral_of_isDigit {byte : UInt8} (digit : isDigit byte = true) :
    notLiteral byte = true := by
  rw [notLiteral, Bool.not_eq_true', ← Bool.not_eq_true]
  intro listed
  simp only [bytesOf, List.map_cons, List.map_nil, List.contains_eq_mem, List.mem_cons,
    List.not_mem_nil, or_false, decide_eq_true_eq] at listed
  rcases listed with rfl | rfl | rfl <;> exact absurd digit (by decide)

theorem parseValueWith_string (string : CString) :
    parseValueWith array object (stringText string ++ rest) = some (.string string, rest) := by
  have read := parseString_stringText string rest
  rw [stringText, List.cons_append] at read ⊢
  rw [parseValueWith_cons array object _ rfl, if_pos rfl, read]
  rfl

theorem parseValueWith_number (negative : Bool) (magnitude : Magnitude binary64)
    (stops : Stops rest) :
    parseValueWith array object (finiteText negative magnitude ++ rest) =
      some (.number (.finite negative magnitude), rest) := by
  have read := parseNumber_finiteText negative magnitude stops
  obtain ⟨byte, later, starts, first⟩ := finiteText_starts negative magnitude
  rw [starts, List.cons_append] at read ⊢
  have other : notLiteral byte = true ∧ byte ≠ '"'.toUInt8 := by
    rcases first with rfl | digit
    · decide
    · constructor
      · exact notLiteral_of_isDigit digit
      · rintro rfl
        exact absurd digit (by decide)
  rw [parseValueWith_cons array object _ other.1, if_neg other.2, if_pos first, read]

theorem parseValueWith_array (text : List UInt8) :
    parseValueWith array object ('['.toUInt8 :: text) = array ('['.toUInt8 :: text) := by
  rw [parseValueWith_cons array object _ rfl, if_neg (by decide), if_neg (by decide), if_pos rfl]

theorem parseValueWith_object (text : List UInt8) :
    parseValueWith array object ('\x7b'.toUInt8 :: text) = object ('\x7b'.toUInt8 :: text) := by
  rw [parseValueWith_cons array object _ rfl, if_neg (by decide), if_neg (by decide),
    if_neg (by decide), if_pos rfl]

end

theorem elementsAsPrinted_eq (child : List Item) :
    elementsAsPrinted child = child.map Item.asPrinted := by
  induction child with
  | nil => rfl
  | cons item rest ih => rw [elementsAsPrinted, List.map_cons, ih]

def memberAsPrinted (member : CString × Item) : CString × Item :=
  (member.1, member.2.asPrinted)

theorem membersAsPrinted_eq (child : List (CString × Item)) :
    membersAsPrinted child = child.map memberAsPrinted := by
  induction child with
  | nil => rfl
  | cons member rest ih => rw [membersAsPrinted, List.map_cons, ih, memberAsPrinted]

/-- With room for so many arrays and objects, the text of a value reads as the value exactly if
it is nested no deeper. -/
def ReadsBack (item : Item) : Prop :=
  ∀ room rest, Stops rest → parseValue room (item.text ++ rest) =
    if item.depth ≤ room then some (item.asPrinted, rest) else none

theorem readsBack_of_leaf {item : Item} (leaf : item.depth = 0)
    (reads : ∀ array object rest, Stops rest →
      parseValueWith array object (item.text ++ rest) = some (item.asPrinted, rest)) :
    ReadsBack item := by
  intro room rest stops
  obtain ⟨array, object, same⟩ := parseValue_eq room
  rw [same, reads array object rest stops, leaf, if_pos (Nat.zero_le _)]

theorem parseElement_text {item : Item} (readsBack : ReadsBack item) (room : Nat)
    (rest : List UInt8) (stops : Stops rest) :
    parseElement (parseValue room) (item.text ++ rest) =
      if item.depth ≤ room then some (item.asPrinted, rest) else none := by
  obtain ⟨byte, later, starts, opens⟩ := text_starts item
  have read := readsBack room rest stops
  rw [starts, List.cons_append] at read ⊢
  rw [parseElement, skipWhitespace_of_lt (opensValue_visible opens), read]

theorem parseMember_text {member : CString × Item} (readsBack : ReadsBack member.2) (room : Nat)
    (rest : List UInt8) (stops : Stops rest) :
    parseMember (parseValue room) (memberText member ++ rest) =
      if member.2.depth ≤ room then some (memberAsPrinted member, rest) else none := by
  have name := parseString_stringText member.1 (':'.toUInt8 :: (member.2.text ++ rest))
  have value : parseValue room (skipWhitespace (member.2.text ++ rest)) = _ :=
    parseElement_text readsBack room rest stops
  have quote : skipWhitespace (stringText member.1 ++ ':'.toUInt8 :: (member.2.text ++ rest)) =
      stringText member.1 ++ ':'.toUInt8 :: (member.2.text ++ rest) :=
    skipWhitespace_of_lt (by decide) _
  have colon : ¬ ':'.toUInt8 ≤ 32 := by decide
  rw [memberText, List.append_assoc, List.cons_append, parseMember, quote, name]
  simp only [Option.bind_eq_bind, Option.bind_some, skipWhitespace_of_lt colon, if_true, value]
  split <;> rfl

theorem opens_text (item : Item) {close : UInt8} (closes : opensValue close = false) :
    Opens close item.text := by
  obtain ⟨byte, rest, starts, opens⟩ := text_starts item
  refine ⟨byte, rest, starts, opensValue_visible opens, ?_⟩
  rintro rfl
  exact absurd (closes.symm.trans opens) Bool.false_ne_true

theorem readsBack_array {child : List Item} (elements : ∀ item ∈ child, ReadsBack item) :
    ReadsBack (.array child) := by
  intro room rest stops
  have shape : (Item.array child).text ++ rest =
      '['.toUInt8 :: (commaSeparated (child.map Item.text) ++ ']'.toUInt8 :: rest) := by
    rw [Item.text, elementTexts_eq, List.cons_append, List.append_assoc, List.singleton_append]
  rw [shape]
  cases room with
  | zero =>
      have deep : ¬(Item.array child).depth ≤ 0 := Nat.not_succ_le_zero _
      rw [parseValue, parseValueWith_array, if_neg deep]
  | succ room =>
      have opens : ∀ item ∈ child, Opens ']'.toUInt8 item.text := fun item _ => opens_text item rfl
      have read := parseBracketed_text rfl (by decide) (by decide) opens
        (fun item mem => parseElement_text (elements item mem) room) '['.toUInt8 rest
      rw [parseValue, parseValueWith_array, parseArray, read, Item.asPrinted, elementsAsPrinted_eq]
      by_cases shallow : ∀ item ∈ child, item.depth ≤ room
      · rw [if_pos shallow, if_pos (array_depth_le.mpr shallow)]
        rfl
      · rw [if_neg shallow, if_neg fun fits => shallow (array_depth_le.mp fits)]
        rfl

theorem readsBack_object {child : List (CString × Item)}
    (members : ∀ member ∈ child, ReadsBack member.2) : ReadsBack (.object child) := by
  intro room rest stops
  have shape : (Item.object child).text ++ rest =
      '\x7b'.toUInt8 :: (commaSeparated (child.map memberText) ++ '\x7d'.toUInt8 :: rest) := by
    rw [Item.text, memberTexts_eq, List.cons_append, List.append_assoc, List.singleton_append]
  rw [shape]
  cases room with
  | zero =>
      have deep : ¬(Item.object child).depth ≤ 0 := Nat.not_succ_le_zero _
      rw [parseValue, parseValueWith_object, if_neg deep]
  | succ room =>
      have opens : ∀ member ∈ child, Opens '\x7d'.toUInt8 (memberText member) :=
        fun member _ => ⟨_, _, rfl, by decide, by decide⟩
      have read := parseBracketed_text rfl (by decide) (by decide) opens
        (fun member mem => parseMember_text (members member mem) room) '\x7b'.toUInt8 rest
      rw [parseValue, parseValueWith_object, parseObject, read, Item.asPrinted, membersAsPrinted_eq]
      by_cases shallow : ∀ member ∈ child, member.2.depth ≤ room
      · rw [if_pos shallow, if_pos (object_depth_le.mpr shallow)]
        rfl
      · rw [if_neg shallow, if_neg fun fits => shallow (object_depth_le.mp fits)]
        rfl

theorem readsBack (item : Item) : ReadsBack item := by
  induction item using Item.induct with
  | null => exact readsBack_of_leaf rfl fun array object rest _ => parseValueWith_null array object rest
  | false => exact readsBack_of_leaf rfl fun array object rest _ => parseValueWith_false array object rest
  | true => exact readsBack_of_leaf rfl fun array object rest _ => parseValueWith_true array object rest
  | string valuestring =>
      exact readsBack_of_leaf rfl fun array object rest _ =>
        parseValueWith_string array object rest valuestring
  | number valuedouble =>
      refine readsBack_of_leaf rfl fun array object rest stops => ?_
      cases valuedouble with
      | finite negative magnitude =>
          exact parseValueWith_number array object rest negative magnitude stops
      | infinite negative => exact parseValueWith_null array object rest
      | nan => exact parseValueWith_null array object rest
  | array child elements => exact readsBack_array elements
  | object child members => exact readsBack_object members

end NetPolicy.Cjson
