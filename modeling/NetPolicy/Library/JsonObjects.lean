/-
Objects written member by member.

A member is a name between quotes, a colon and the text of its value.  Members whose texts read
back are read in front of anything that follows, so an object of such members is decoded, and
the first string that does not read back is looked up as whatever the reader makes of it.
-/

import NetPolicy.Library.Json

namespace Json

open SeparatedText

/-! ### A numeral -/

def EndsNumber (character : Char) : Prop :=
  character.isDigit = false ∧ character ≠ '.' ∧ character ≠ 'e' ∧ character ≠ 'E'

theorem readWhole_repr (value : Nat) {separator : Char} (ends : EndsNumber separator)
    (rest : List Char) :
    readWhole (value.repr.toList ++ separator :: rest) =
      some (value.repr.toList, separator :: rest) := by
  have digits : ∀ digit ∈ value.repr.toList, digit.isDigit = true := by
    rw [Nat.toList_repr]
    intro digit member
    exact Nat.isDigit_of_mem_toDigits (by decide) (by decide) member
  have stops : ¬separator.isDigit = true := by simp [ends.1]
  have taken : digitsOf (value.repr.toList ++ separator :: rest) = value.repr.toList := by
    rw [digitsOf, List.takeWhile_append_of_pos digits, List.takeWhile_cons_of_neg stops,
      List.append_nil]
  have left : afterDigits (value.repr.toList ++ separator :: rest) = separator :: rest := by
    rw [afterDigits, List.dropWhile_append_of_pos digits, List.dropWhile_cons_of_neg stops]
  have proper : ¬(value.repr.toList = [] ∨
      (value.repr.toList.head? = some '0' ∧ value.repr.toList.length ≠ 1)) := by
    rw [Nat.toList_repr]
    rintro (empty | ⟨zero, long⟩)
    · exact Nat.toDigits_ne_nil empty
    · rw [eq_zero_of_head_toDigits zero] at long
      exact long rfl
  rw [readWhole, taken, left]
  exact if_neg proper

theorem readMagnitude_repr (value : Nat) {separator : Char} (ends : EndsNumber separator)
    (rest : List Char) :
    readMagnitude (value.repr.toList ++ separator :: rest) =
      some (value, 0, separator :: rest) := by
  have noFraction : readFraction (separator :: rest) = some ([], separator :: rest) := by
    rw [readFraction]
    intro more same
    exact ends.2.1 (List.cons.inj same).1
  have noExponent : readExponent (separator :: rest) = some (0, separator :: rest) := by
    unfold readExponent
    exact if_neg (by simp [ends.2.2.1, ends.2.2.2])
  rw [readMagnitude, readWhole_repr value ends]
  simp only [Option.bind_eq_bind, Option.bind_some, noFraction, noExponent, List.append_nil,
    Nat.toList_repr, Nat.ofDigitChars_ten_toDigits, List.length_nil]
  rfl

theorem readNumber_repr (value : Nat) {separator : Char} (ends : EndsNumber separator)
    (rest : List Char) :
    readNumber (value.repr.toList ++ separator :: rest) =
      some (.number value 0, separator :: rest) := by
  have unsigned : ∀ more, value.repr.toList ++ separator :: rest ≠ '-' :: more := by
    intro more same
    obtain ⟨head, tail, shape, digit⟩ := repr_head_isDigit value
    rw [shape, List.cons_append] at same
    rw [(List.cons.inj same).1] at digit
    cases digit
  rw [readNumber, readMagnitude_repr value ends]
  · rfl
  · exact unsigned

/-! ### Members of an object -/

def Reads (text : List Char) (value : Value) : Prop :=
  ∀ fuel separator rest, separator = ',' ∨ separator = '\x7d' →
    (text ++ separator :: rest).length < fuel →
      readValue fuel (text ++ separator :: rest) = some (value, separator :: rest)

theorem readValue_quote (fuel : Nat) (text : List Char) :
    readValue (fuel + 1) ('"' :: text) =
      (readString fuel text).map fun read => (.string read.1, read.2) := by
  simp [readValue, valueFrom, skipBlank, isBlank]

theorem reads_string {text : List Char} (plain : Plain text) :
    Reads ('"' :: text ++ ['"']) (.string text) := by
  intro fuel separator rest _ enough
  cases fuel with
  | zero => omega
  | succ fuel =>
      have shape : '"' :: text ++ ['"'] ++ separator :: rest =
          '"' :: (text ++ '"' :: separator :: rest) := by simp
      rw [shape] at enough ⊢
      simp only [List.length_cons, List.length_append] at enough
      rw [readValue_quote, readString_plain plain (by omega)]
      rfl

theorem readValue_digit {head : Char} (digit : head.isDigit = true) (fuel : Nat)
    (tail : List Char) : readValue (fuel + 1) (head :: tail) = readNumber (head :: tail) := by
  have different {other : Char} (notDigit : other.isDigit = false) : head ≠ other := by
    rintro rfl
    rw [digit] at notDigit
    cases notDigit
  have started : skipBlank (head :: tail) = head :: tail := by
    apply List.dropWhile_cons_of_neg
    have noSpace : head ≠ ' ' := different (by decide)
    have noTab : head ≠ '\t' := different (by decide)
    have noLine : head ≠ '\n' := different (by decide)
    have noReturn : head ≠ '\r' := different (by decide)
    simp [isBlank, noSpace, noTab, noLine, noReturn]
  rw [readValue, started, valueFrom.eq_def]
  split
  case h_7 => rfl
  all_goals
    rename_i same
    exact absurd (List.cons.inj same).1 (different (by decide))

theorem reads_number (value : Nat) : Reads value.repr.toList (.number value 0) := by
  intro fuel separator rest follows enough
  have ends : EndsNumber separator := by
    rcases follows with rfl | rfl <;> exact ⟨by decide, by decide, by decide, by decide⟩
  obtain ⟨head, tail, shape, digit⟩ := repr_head_isDigit value
  cases fuel with
  | zero => omega
  | succ fuel =>
      rw [← readNumber_repr value ends, shape, List.cons_append]
      exact readValue_digit digit fuel (tail ++ separator :: rest)

section Items

variable {α : Type} {close : Char} {item : α} {text : List Char}
  {more : List Char → Option (List α × List Char)}

theorem nextItem_comma (close : Char) (item : α)
    (more : List Char → Option (List α × List Char)) (rest : List Char) :
    nextItem close item more (',' :: rest) =
      (more rest).map fun read => (item :: read.1, read.2) := by
  simp [nextItem, skipBlank, isBlank]

theorem nextItem_brace (item : α) (more : List Char → Option (List α × List Char))
    (rest : List Char) : nextItem '\x7d' item more ('\x7d' :: rest) = some ([item], rest) := by
  simp [nextItem, skipBlank, isBlank]

theorem nextItem_first {rest : List Char} {items : List α}
    (next : nextItem close item more text = some (items, rest)) :
    ∃ later, items = item :: later := by
  unfold nextItem at next
  split at next
  · cases next
  split at next
  · obtain ⟨read, _, same⟩ := Option.map_eq_some_iff.mp next
    cases same
    exact ⟨read.1, rfl⟩
  split at next
  · cases next
    exact ⟨[], rfl⟩
  · cases next

end Items

def memberText (name value : List Char) : List Char := '"' :: (name ++ '"' :: ':' :: value)

theorem readMembers_memberText {name : List Char} (plain : Plain name) {fuel : Nat}
    (enough : name.length < fuel) (rest : List Char) :
    readMembers (fuel + 1) (memberText name rest) =
      (readValue fuel rest).bind fun (value, rest) =>
        nextItem '\x7d' (name, value) (readMembers fuel) rest := by
  have opened : skipBlank (memberText name rest) = memberText name rest := by
    simp [memberText, skipBlank, isBlank]
  have colon : skipBlank (':' :: rest) = ':' :: rest := by simp [skipBlank, isBlank]
  rw [readMembers, opened, memberText]
  simp only [readString_plain plain enough, Option.bind_some, colon]

structure Field where
  name : List Char
  text : List Char
  value : Value
  plain : Plain name
  reads : Reads text value

namespace Field

def member (field : Field) : List Char × Value := (field.name, field.value)

def number (name : List Char) (plain : Plain name) (value : Nat) : Field :=
  { name := name
    text := value.repr.toList
    value := .number value 0
    plain := plain
    reads := reads_number value }

def string (name : List Char) (plain : Plain name) (text : List Char) (textPlain : Plain text) :
    Field :=
  { name := name
    text := '"' :: text ++ ['"']
    value := .string text
    plain := plain
    reads := reads_string textPlain }

theorem readMembers_comma (field : Field) {fuel : Nat} {rest : List Char}
    (enough : (memberText field.name (field.text ++ ',' :: rest)).length < fuel + 1) :
    readMembers (fuel + 1) (memberText field.name (field.text ++ ',' :: rest)) =
      (readMembers fuel rest).map fun read => (field.member :: read.1, read.2) := by
  simp only [memberText, List.length_cons, List.length_append] at enough
  have reads := field.reads fuel ',' rest (Or.inl rfl) (by
    simp only [List.length_append, List.length_cons]
    omega)
  rw [readMembers_memberText field.plain (by omega), reads, Option.bind_some]
  exact nextItem_comma '\x7d' field.member (readMembers fuel) rest

theorem readMembers_close (field : Field) {fuel : Nat} {rest : List Char}
    (enough : (memberText field.name (field.text ++ '\x7d' :: rest)).length < fuel + 1) :
    readMembers (fuel + 1) (memberText field.name (field.text ++ '\x7d' :: rest)) =
      some ([field.member], rest) := by
  simp only [memberText, List.length_cons, List.length_append] at enough
  have reads := field.reads fuel '\x7d' rest (Or.inr rfl) (by
    simp only [List.length_append, List.length_cons]
    omega)
  rw [readMembers_memberText field.plain (by omega), reads, Option.bind_some]
  exact nextItem_brace field.member (readMembers fuel) rest

end Field

def membersText (fields : List Field) (rest : List Char) : List Char :=
  fields.foldr (fun field rest => memberText field.name (field.text ++ ',' :: rest)) rest

theorem membersText_string (fields : List Field) (name : List Char) (plain : Plain name)
    {text : List Char} (textPlain : Plain text) (rest : List Char) :
    membersText (fields ++ [Field.string name plain text textPlain]) rest =
      membersText fields (memberText name ('"' :: (text ++ '"' :: ',' :: rest))) := by
  simp [membersText, Field.string]

theorem readMembers_membersText (fields : List Field) {fuel : Nat} {rest : List Char}
    (enough : (membersText fields rest).length < fuel) :
    ∃ left, rest.length < left ∧
      readMembers fuel (membersText fields rest) =
        (readMembers left rest).map fun read =>
          (fields.map Field.member ++ read.1, read.2) := by
  induction fields generalizing fuel with
  | nil => exact ⟨fuel, enough, by simp [membersText]⟩
  | cons field fields ih =>
      have shape : membersText (field :: fields) rest =
          memberText field.name (field.text ++ ',' :: membersText fields rest) := rfl
      rw [shape] at enough ⊢
      cases fuel with
      | zero => omega
      | succ fuel =>
          have shorter : (membersText fields rest).length < fuel := by
            simp only [memberText, List.length_cons, List.length_append] at enough
            omega
          obtain ⟨left, longer, read⟩ := ih shorter
          refine ⟨left, longer, ?_⟩
          rw [field.readMembers_comma enough, read, Option.map_map]
          rfl

/-! ### A whole object -/

section Objects

variable (fields : List Field) {name : List Char}

theorem membersText_opens (name rest : List Char) :
    ∃ text, membersText fields (memberText name rest) = '"' :: text := by
  cases fields with
  | nil => exact ⟨_, rfl⟩
  | cons field fields => exact ⟨_, rfl⟩

theorem readValue_open (fuel : Nat) (text : List Char) :
    readValue (fuel + 1) ('\x7b' :: '"' :: text) =
      (readMembers fuel ('"' :: text)).map fun read => (.object read.1, read.2) := by
  simp [readValue, valueFrom, itemsFrom, skipBlank, isBlank]

/-- Known members of an object are read first; what the others read as decides. -/
theorem decode_membersText (name rest : List Char) :
    ∃ left, (memberText name rest).length < left ∧
      decode ('\x7b' :: membersText fields (memberText name rest)) =
        (readMembers left (memberText name rest)).bind fun read =>
          if skipBlank read.2 = [] then some (.object (fields.map Field.member ++ read.1))
          else none := by
  obtain ⟨text, opens⟩ := membersText_opens fields name rest
  have enough : (membersText fields (memberText name rest)).length <
      ('\x7b' :: membersText fields (memberText name rest)).length := by simp
  obtain ⟨left, longer, read⟩ := readMembers_membersText fields enough
  refine ⟨left, longer, ?_⟩
  rw [opens] at read ⊢
  rw [decode, readValue_open, read]
  cases readMembers left (memberText name rest) <;> rfl

theorem decode_object (last : Field) :
    decode ('\x7b' :: membersText fields (memberText last.name (last.text ++ ['\x7d']))) =
      some (.object (fields.map Field.member ++ [last.member])) := by
  obtain ⟨left, longer, decoded⟩ := decode_membersText fields last.name (last.text ++ ['\x7d'])
  cases left with
  | zero => omega
  | succ left =>
      rw [decoded, last.readMembers_close longer]
      rfl

/-- A string between quotes behind known members is looked up as what the string reader
makes of it. -/
theorem lookup_of_decode (plain : Plain name) (fresh : name ∉ fields.map Field.name)
    {text rest : List Char} {members : List (List Char × Value)}
    (decoded : decode ('\x7b' :: membersText fields (memberText name ('"' :: (text ++ '"' :: rest))))
      = some (.object members)) :
    ∃ fuel read left, readString fuel (text ++ '"' :: rest) = some (read, left) ∧
      members.lookup name = some (.string read) := by
  obtain ⟨fuel, longer, same⟩ := decode_membersText fields name ('"' :: (text ++ '"' :: rest))
  rw [same] at decoded
  obtain ⟨⟨later, after⟩, readLater, closed⟩ := Option.bind_eq_some_iff.mp decoded
  simp only [memberText, List.length_cons, List.length_append] at longer
  obtain ⟨fuel, rfl⟩ : ∃ less, fuel = less + 2 := ⟨fuel - 2, by omega⟩
  rw [readMembers_memberText plain (by omega), readValue_quote] at readLater
  obtain ⟨⟨value, between⟩, readText, next⟩ := Option.bind_eq_some_iff.mp readLater
  obtain ⟨⟨read, left⟩, readString, stringValue⟩ := Option.map_eq_some_iff.mp readText
  cases stringValue
  refine ⟨fuel, read, left, readString, ?_⟩
  obtain ⟨others, rfl⟩ := nextItem_first next
  split at closed
  · cases closed
    have unknown : (fields.map Field.member).lookup name = none := by
      rw [List.lookup_eq_none_iff]
      intro member known
      obtain ⟨field, inFields, rfl⟩ := List.mem_map.mp known
      have different : name ≠ field.name := by
        rintro rfl
        exact fresh (List.mem_map_of_mem inFields)
      simpa [Field.member] using different
    rw [List.lookup_append, unknown, Option.none_or, List.lookup_cons_self]
  · cases closed

theorem plain_of_lookup (plain : Plain name) (fresh : name ∉ fields.map Field.name)
    {text extra rest : List Char} {members : List (List Char × Value)}
    (decoded : decode ('\x7b' :: membersText fields (memberText name ('"' :: (text ++ '"' :: rest))))
      = some (.object members))
    (recovered : members.lookup name = some (.string (text ++ extra))) :
    Plain text ∧ extra = [] := by
  obtain ⟨fuel, read, left, readText, found⟩ := lookup_of_decode fields plain fresh decoded
  rw [recovered] at found
  cases found
  obtain ⟨textPlain, noExtra, _⟩ := readString_self readText
  exact ⟨textPlain, noExtra⟩

end Objects

theorem lookup_of_mem {members : List (List Char × Value)}
    (distinct : (members.map Prod.fst).Nodup) {member : List Char × Value}
    (known : member ∈ members) : members.lookup member.1 = some member.2 := by
  induction members with
  | nil => cases known
  | cons first others ih =>
      obtain ⟨fresh, othersDistinct⟩ := List.nodup_cons.mp distinct
      rcases List.mem_cons.mp known with rfl | later
      · exact List.lookup_cons_self
      · have different : (member.1 == first.1) = false := by
          rw [beq_eq_false_iff_ne]
          intro same
          exact fresh (same ▸ List.mem_map_of_mem later)
        rw [List.lookup_cons, different]
        exact ih othersDistinct later

end Json
