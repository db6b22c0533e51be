/-
Reading JSON texts.

The reader follows the grammar of the data format: blanks between tokens, strings with their
escapes and without bare control characters, numbers, literals, arrays and objects with their
members in order.  A number is kept as a mantissa and a decimal exponent.  The length of a text
is fuel enough to read it.  A text that stands between quotes as it is reads as itself exactly
if it holds no quote, backslash or control character.
-/

import NetPolicy.Library.SeparatedText

namespace Json

open SeparatedText

inductive Value where
  | null
  | bool (value : Bool)
  | number (mantissa exponent : Int)
  | string (text : List Char)
  | array (elements : List Value)
  | object (members : List (List Char × Value))
deriving Repr

def isBlank (character : Char) : Bool :=
  character == ' ' || character == '\t' || character == '\n' || character == '\r'

def skipBlank (text : List Char) : List Char := text.dropWhile isBlank

/-! ### Strings -/

def hexValue (character : Char) : Option Nat :=
  if '0' ≤ character ∧ character ≤ '9' then some (character.toNat - '0'.toNat)
  else if 'a' ≤ character ∧ character ≤ 'f' then some (character.toNat - 'a'.toNat + 10)
  else if 'A' ≤ character ∧ character ≤ 'F' then some (character.toNat - 'A'.toNat + 10)
  else none

def readHex4 : List Char → Option (Nat × List Char)
  | a :: b :: c :: d :: rest => do
      let first ← hexValue a
      let second ← hexValue b
      let third ← hexValue c
      let fourth ← hexValue d
      some (((first * 16 + second) * 16 + third) * 16 + fourth, rest)
  | _ => none

/-- The code point of `\uXXXX`; the first half of a surrogate pair needs the second. -/
def readUnicode (text : List Char) : Option (Char × List Char) := do
  let (high, rest) ← readHex4 text
  if high < 0xD800 ∨ 0xDFFF < high then some (Char.ofNat high, rest)
  else if 0xDBFF < high then none
  else
    match rest with
    | '\\' :: 'u' :: rest => do
        let (low, rest) ← readHex4 rest
        if 0xDC00 ≤ low ∧ low ≤ 0xDFFF then
          some (Char.ofNat (0x10000 + (high - 0xD800) * 0x400 + (low - 0xDC00)), rest)
        else none
    | _ => none

def simpleEscape : Char → Option Char
  | '"' => some '"'
  | '\\' => some '\\'
  | '/' => some '/'
  | 'b' => some '\x08'
  | 'f' => some '\x0c'
  | 'n' => some '\n'
  | 'r' => some '\r'
  | 't' => some '\t'
  | _ => none

def readEscape : List Char → Option (Char × List Char)
  | [] => none
  | head :: rest =>
      if head = 'u' then readUnicode rest
      else (simpleEscape head).map fun character => (character, rest)

def readString : Nat → List Char → Option (List Char × List Char)
  | 0, _ => none
  | _ + 1, [] => none
  | fuel + 1, head :: rest =>
      if head = '"' then some ([], rest)
      else if head = '\\' then
        match readEscape rest with
        | none => none
        | some (character, rest) =>
            (readString fuel rest).map fun read => (character :: read.1, read.2)
      else if head.toNat < 0x20 then none
      else (readString fuel rest).map fun read => (head :: read.1, read.2)

/-! ### Numbers -/

def digitsOf (text : List Char) : List Char := text.takeWhile Char.isDigit

def afterDigits (text : List Char) : List Char := text.dropWhile Char.isDigit

def readWhole (text : List Char) : Option (List Char × List Char) :=
  let digits := digitsOf text
  if digits = [] ∨ (digits.head? = some '0' ∧ digits.length ≠ 1) then none
  else some (digits, afterDigits text)

def readFraction : List Char → Option (List Char × List Char)
  | '.' :: rest => if digitsOf rest = [] then none else some (digitsOf rest, afterDigits rest)
  | text => some ([], text)

def readSign : List Char → Bool × List Char
  | '-' :: rest => (true, rest)
  | '+' :: rest => (false, rest)
  | text => (false, text)

def readExponent (text : List Char) : Option (Int × List Char) :=
  match text with
  | head :: rest =>
      if head = 'e' ∨ head = 'E' then
        let signed := readSign rest
        (parseDecimal (digitsOf signed.2)).map fun magnitude =>
          (if signed.1 then -(magnitude : Int) else magnitude, afterDigits signed.2)
      else some (0, text)
  | [] => some (0, text)

def readMagnitude (text : List Char) : Option (Nat × Int × List Char) := do
  let (whole, text) ← readWhole text
  let (fraction, text) ← readFraction text
  let (exponent, text) ← readExponent text
  some (Nat.ofDigitChars 10 (whole ++ fraction) 0, exponent - fraction.length, text)

def readNumber (text : List Char) : Option (Value × List Char) :=
  match text with
  | '-' :: rest =>
      (readMagnitude rest).map fun read => (.number (-(read.1 : Int)) read.2.1, read.2.2)
  | text => (readMagnitude text).map fun read => (.number read.1 read.2.1, read.2.2)

/-! ### Values -/

/-- What follows an item of a list: a comma and more of them, or the closing character. -/
def nextItem {α : Type} (close : Char) (item : α)
    (more : List Char → Option (List α × List Char)) (text : List Char) :
    Option (List α × List Char) :=
  match skipBlank text with
  | [] => none
  | head :: rest =>
      if head = ',' then (more rest).map fun read => (item :: read.1, read.2)
      else if head = close then some ([item], rest)
      else none

def itemsFrom {α : Type} (close : Char) (items : List Char → Option (List α × List Char))
    (text : List Char) : Option (List α × List Char) :=
  match skipBlank text with
  | [] => none
  | head :: rest => if head = close then some ([], rest) else items text

def valueFrom (strings : List Char → Option (List Char × List Char))
    (members : List Char → Option (List (List Char × Value) × List Char))
    (elements : List Char → Option (List Value × List Char)) (text : List Char) :
    Option (Value × List Char) :=
  match text with
  | '"' :: rest => (strings rest).map fun read => (.string read.1, read.2)
  | '\x7b' :: rest =>
      (itemsFrom '\x7d' members rest).map fun read => (.object read.1, read.2)
  | '[' :: rest => (itemsFrom ']' elements rest).map fun read => (.array read.1, read.2)
  | 't' :: 'r' :: 'u' :: 'e' :: rest => some (.bool true, rest)
  | 'f' :: 'a' :: 'l' :: 's' :: 'e' :: rest => some (.bool false, rest)
  | 'n' :: 'u' :: 'l' :: 'l' :: rest => some (.null, rest)
  | text => readNumber text

mutual

/-- A value and what follows it.  The fuel bounds the depth of the calls. -/
def readValue : Nat → List Char → Option (Value × List Char)
  | 0, _ => none
  | fuel + 1, text =>
      valueFrom (readString fuel) (readMembers fuel) (readElements fuel) (skipBlank text)

def readMembers : Nat → List Char → Option (List (List Char × Value) × List Char)
  | 0, _ => none
  | fuel + 1, text =>
      match skipBlank text with
      | '"' :: rest =>
          (readString fuel rest).bind fun (name, rest) =>
            match skipBlank rest with
            | ':' :: rest =>
                (readValue fuel rest).bind fun (value, rest) =>
                  nextItem '\x7d' (name, value) (readMembers fuel) rest
            | _ => none
      | _ => none

def readElements : Nat → List Char → Option (List Value × List Char)
  | 0, _ => none
  | fuel + 1, text =>
      (readValue fuel text).bind fun (value, rest) =>
        nextItem ']' value (readElements fuel) rest

end

/-- A value with nothing but blanks around it, whatever fuel it takes to read it. -/
def Decodes (text : List Char) (value : Value) : Prop :=
  ∃ fuel rest, readValue fuel text = some (value, rest) ∧ skipBlank rest = []

def decode (text : List Char) : Option Value :=
  match readValue (text.length + 1) text with
  | none => none
  | some (value, rest) => if skipBlank rest = [] then some value else none

/-! ### A text between quotes -/

def PlainChar (character : Char) : Prop :=
  character ≠ '"' ∧ character ≠ '\\' ∧ 0x20 ≤ character.toNat

instance (character : Char) : Decidable (PlainChar character) :=
  inferInstanceAs (Decidable (_ ∧ _ ∧ _))

def Plain (text : List Char) : Prop := ∀ character ∈ text, PlainChar character

instance (text : List Char) : Decidable (Plain text) :=
  inferInstanceAs (Decidable (∀ character ∈ text, _))

section Strings

variable {fuel : Nat} {text rest : List Char}

theorem readString_quote (fuel : Nat) (rest : List Char) :
    readString (fuel + 1) ('"' :: rest) = some ([], rest) := by
  rw [readString, if_pos rfl]

theorem readString_plainChar {head : Char} (plain : PlainChar head) (fuel : Nat)
    (rest : List Char) :
    readString (fuel + 1) (head :: rest) =
      (readString fuel rest).map fun read => (head :: read.1, read.2) := by
  rw [readString, if_neg plain.1, if_neg plain.2.1, if_neg (Nat.not_lt.mpr plain.2.2)]

theorem readString_plain (plain : Plain text) (enough : text.length < fuel) (rest : List Char) :
    readString fuel (text ++ '"' :: rest) = some (text, rest) := by
  induction text generalizing fuel with
  | nil =>
      cases fuel with
      | zero => omega
      | succ fuel => exact readString_quote fuel rest
  | cons head tail ih =>
      cases fuel with
      | zero => omega
      | succ fuel =>
          have headPlain := plain head List.mem_cons_self
          have tailPlain : Plain tail := fun other member =>
            plain other (List.mem_cons_of_mem head member)
          rw [List.cons_append, readString_plainChar headPlain,
            ih tailPlain (Nat.lt_of_succ_lt_succ enough)]
          rfl

theorem readHex4_sound {value : Nat} (read : readHex4 text = some (value, rest)) :
    ∃ digits, text = digits ++ rest ∧ '"' ∉ digits := by
  have notHex : hexValue '"' = none := by decide
  have different {character : Char} {digit : Nat} (hex : hexValue character = some digit) :
      '"' ≠ character := by
    rintro rfl
    rw [notHex] at hex
    cases hex
  match text, read with
  | a :: b :: c :: d :: tail, read =>
      simp only [readHex4, Option.bind_eq_bind, Option.bind_eq_some_iff, Option.some.injEq,
        Prod.mk.injEq] at read
      obtain ⟨first, hexA, second, hexB, third, hexC, fourth, hexD, _, rfl⟩ := read
      refine ⟨[a, b, c, d], rfl, ?_⟩
      simp [different hexA, different hexB, different hexC, different hexD]

theorem readUnicode_sound {character : Char} (read : readUnicode text = some (character, rest)) :
    ∃ digits, text = digits ++ rest ∧ '"' ∉ digits := by
  simp only [readUnicode, Option.bind_eq_bind, Option.bind_eq_some_iff] at read
  obtain ⟨⟨high, tail⟩, readHigh, read⟩ := read
  obtain ⟨digits, rfl, quoteFree⟩ := readHex4_sound readHigh
  dsimp only at read
  split at read
  · simp only [Option.some.injEq, Prod.mk.injEq] at read
    obtain ⟨_, rfl⟩ := read
    exact ⟨digits, rfl, quoteFree⟩
  split at read
  · cases read
  split at read
  · simp only [Option.bind_eq_some_iff] at read
    obtain ⟨⟨low, last⟩, readLow, read⟩ := read
    obtain ⟨lowDigits, rfl, lowFree⟩ := readHex4_sound readLow
    dsimp only at read
    split at read
    · simp only [Option.some.injEq, Prod.mk.injEq] at read
      obtain ⟨_, rfl⟩ := read
      refine ⟨digits ++ '\\' :: 'u' :: lowDigits, by simp, ?_⟩
      simp [quoteFree, lowFree]
    · cases read
  · cases read

theorem readEscape_sound {character : Char} (read : readEscape text = some (character, rest)) :
    ∃ escape, text = escape ++ rest ∧ escape ≠ [] ∧ ('"' ∈ escape → character = '"') := by
  cases text with
  | nil => cases read
  | cons head tail =>
      rw [readEscape] at read
      split at read
      · rename_i unicode
        obtain ⟨digits, rfl, quoteFree⟩ := readUnicode_sound read
        refine ⟨head :: digits, rfl, List.cons_ne_nil head digits, ?_⟩
        intro member
        rcases List.mem_cons.mp member with same | inDigits
        · rw [unicode] at same
          cases same
        · exact absurd inDigits quoteFree
      · obtain ⟨decoded, simple, same⟩ := Option.map_eq_some_iff.mp read
        cases same
        refine ⟨[head], rfl, List.cons_ne_nil head [], ?_⟩
        intro member
        rw [← List.mem_singleton.mp member] at simple
        exact (Option.some.inj simple).symm

theorem escape_before_quote {escape after : List Char} (quoteFree : '"' ∉ escape)
    (split : text ++ '"' :: rest = escape ++ after) :
    ∃ tail, text = escape ++ tail ∧ after = tail ++ '"' :: rest := by
  rcases List.append_eq_append_iff.mp split with ⟨more, rfl, ahead⟩ | ⟨tail, rfl, same⟩
  · cases more with
    | nil => exact ⟨[], by simp, by simpa using ahead.symm⟩
    | cons head more =>
        have quote : '"' = head := (List.cons.inj ahead).1
        exact absurd (by simp [← quote]) quoteFree
  · exact ⟨tail, rfl, same⟩

theorem readString_cons {head : Char} {read left : List Char}
    (turned : readString (fuel + 1) (head :: text) = some (read, left)) :
    (head = '"' ∧ read = [] ∧ left = text) ∨
      (∃ character after later, head = '\\' ∧ readEscape text = some (character, after) ∧
        readString fuel after = some (later, left) ∧ read = character :: later) ∨
      (PlainChar head ∧ ∃ later, readString fuel text = some (later, left) ∧
        read = head :: later) := by
  rw [readString] at turned
  split at turned
  · rename_i quote
    cases turned
    exact Or.inl ⟨quote, rfl, rfl⟩
  rename_i noQuote
  split at turned
  · rename_i backslash
    cases escaped : readEscape text with
    | none =>
        rw [escaped] at turned
        cases turned
    | some decoded =>
        rw [escaped] at turned
        obtain ⟨later, readLater, same⟩ := Option.map_eq_some_iff.mp turned
        cases same
        exact Or.inr (Or.inl ⟨decoded.1, decoded.2, later.1, backslash, rfl, readLater, rfl⟩)
  rename_i noBackslash
  split at turned
  · cases turned
  rename_i noControl
  obtain ⟨later, readLater, same⟩ := Option.map_eq_some_iff.mp turned
  cases same
  exact Or.inr (Or.inr ⟨⟨noQuote, noBackslash, Nat.not_lt.mp noControl⟩, later.1, readLater, rfl⟩)

/-- An escape takes more characters than it gives: behind it the reader has more to return
than it has left.  `ahead` is what has been taken and is still to be returned. -/
theorem escape_falls_behind {ahead extra tail after read : List Char} {character : Char}
    (quoteFree : '"' ∉ ahead)
    (escaped : readEscape (tail ++ '"' :: rest) = some (character, after))
    (same : ahead ++ ('\\' :: tail ++ extra) = character :: read) :
    ∃ further remaining, further ≠ [] ∧ '"' ∉ further ∧ after = remaining ++ '"' :: rest ∧
      read = further ++ (remaining ++ extra) := by
  obtain ⟨escape, split, nonempty, decodes⟩ := readEscape_sound escaped
  have escapeFree : '"' ∉ escape := by
    intro member
    rw [decodes member] at same
    cases ahead with
    | nil => cases (List.cons.inj same).1
    | cons first more => exact quoteFree (by rw [(List.cons.inj same).1]; simp)
  obtain ⟨remaining, rfl, rfl⟩ := escape_before_quote escapeFree split
  refine ⟨(ahead ++ '\\' :: escape).tail, remaining, ?_, ?_, rfl, ?_⟩
  · have longer := List.length_pos_iff.mpr nonempty
    rw [← List.length_pos_iff, List.length_tail, List.length_append, List.length_cons]
    omega
  · intro member
    have whole := List.mem_of_mem_tail member
    simp [quoteFree, escapeFree] at whole
  · rw [← List.tail_append_of_ne_nil (by simp)]
    simpa using (congrArg List.tail same).symm

theorem readString_ahead {ahead extra left : List Char} (quoteFree : '"' ∉ ahead)
    (turned : readString fuel (text ++ '"' :: rest) = some (ahead ++ (text ++ extra), left)) :
    ahead = [] ∧ Plain text ∧ extra = [] ∧ left = rest := by
  induction fuel generalizing text ahead with
  | zero => cases turned
  | succ fuel ih =>
      cases text with
      | nil =>
          rw [List.nil_append, readString_quote] at turned
          obtain ⟨nothing, sameRest⟩ := Prod.mk.inj (Option.some.inj turned)
          obtain ⟨noAhead, noExtra⟩ := List.append_eq_nil_iff.mp nothing.symm
          exact ⟨noAhead, by simp [Plain], noExtra, sameRest.symm⟩
      | cons head tail =>
          rw [List.cons_append] at turned
          rcases readString_cons turned with
            ⟨_, ended, _⟩ | ⟨character, after, read, rfl, escaped, readLater, same⟩ |
              ⟨plain, read, readLater, same⟩
          · exact absurd ended (by simp)
          · obtain ⟨further, remaining, nonempty, furtherFree, rfl, rfl⟩ :=
              escape_falls_behind quoteFree escaped same
            exact absurd (ih furtherFree readLater).1 nonempty
          · cases ahead with
            | nil =>
                obtain ⟨_, rfl⟩ := List.cons.inj same
                obtain ⟨_, tailPlain, noExtra, sameRest⟩ := ih quoteFree readLater
                exact ⟨rfl, List.forall_mem_cons.mpr ⟨plain, tailPlain⟩, noExtra, sameRest⟩
            | cons first more =>
                obtain ⟨_, rfl⟩ := List.cons.inj same
                have moreFree : '"' ∉ more := fun member =>
                  quoteFree (List.mem_cons_of_mem first member)
                have nextFree : '"' ∉ more ++ [head] := by simp [moreFree, Ne.symm plain.1]
                have nextRead : readString fuel (tail ++ '"' :: rest) =
                    some (more ++ [head] ++ (tail ++ extra), left) := by
                  simpa using readLater
                obtain ⟨caughtUp, _⟩ := ih nextFree nextRead
                simp at caughtUp

/-- A text between quotes reads as itself, or as something longer, only if it is plain. -/
theorem readString_self {extra left : List Char}
    (turned : readString fuel (text ++ '"' :: rest) = some (text ++ extra, left)) :
    Plain text ∧ extra = [] ∧ left = rest := by
  have nothingAhead : '"' ∉ ([] : List Char) := List.not_mem_nil
  exact (readString_ahead nothingAhead turned).2

end Strings

/-! ### Enough fuel -/

theorem readString_escape {character : Char} {text after : List Char}
    (escaped : readEscape text = some (character, after)) (fuel : Nat) :
    readString (fuel + 1) ('\\' :: text) =
      (readString fuel after).map fun read => (character :: read.1, read.2) := by
  rw [readString, if_neg (by decide), if_pos rfl, escaped]

/-- What a reader leaves is no longer than what it was given, and a turn more than it has
taken characters is enough for the same result. -/
structure Settled {α : Type} (reader : Nat → List Char → Option (α × List Char))
    (text : List Char) (result : α × List Char) : Prop where
  shorter : result.2.length ≤ text.length
  again : ∀ more, text.length < result.2.length + more → reader more text = some result

theorem Settled.intro {α : Type} {reader : Nat → List Char → Option (α × List Char)}
    {text : List Char} {result : α × List Char} (shorter : result.2.length ≤ text.length)
    (again : ∀ more, text.length ≤ result.2.length + more → reader (more + 1) text = some result) :
    Settled reader text result := by
  refine ⟨shorter, ?_⟩
  intro more enough
  cases more with
  | zero => omega
  | succ more => exact again more (Nat.le_of_lt_succ enough)

theorem readString_settled {fuel : Nat} {text : List Char} {result : List Char × List Char}
    (done : readString fuel text = some result) : Settled readString text result := by
  induction fuel generalizing text result with
  | zero => cases done
  | succ fuel ih =>
      cases text with
      | nil => cases done
      | cons head tail =>
          obtain ⟨read, left⟩ := result
          rcases readString_cons done with
            ⟨rfl, rfl, rfl⟩ | ⟨character, after, later, rfl, escaped, readLater, rfl⟩ |
              ⟨plain, later, readLater, rfl⟩
          · exact Settled.intro (Nat.le_succ _) fun more _ => readString_quote more left
          · obtain ⟨shorter, again⟩ := ih readLater
            obtain ⟨escape, rfl, _⟩ := readEscape_sound escaped
            dsimp only at shorter again
            have grown : (escape ++ after).length = escape.length + after.length :=
              List.length_append
            refine Settled.intro (by simp only [List.length_cons]; omega) ?_
            intro more enough
            simp only [List.length_cons] at enough
            rw [readString_escape escaped, again more (by omega)]
            rfl
          · obtain ⟨shorter, again⟩ := ih readLater
            dsimp only at shorter again
            refine Settled.intro (by simp only [List.length_cons]; omega) ?_
            intro more enough
            simp only [List.length_cons] at enough
            rw [readString_plainChar plain, again more (by omega)]
            rfl

theorem length_skipBlank (text : List Char) : (skipBlank text).length ≤ text.length :=
  (List.dropWhile_suffix _).length_le

theorem length_afterDigits (text : List Char) : (afterDigits text).length ≤ text.length :=
  (List.dropWhile_suffix _).length_le

theorem readFraction_shorter {text digits rest : List Char}
    (read : readFraction text = some (digits, rest)) : rest.length ≤ text.length := by
  unfold readFraction at read
  split at read
  · rename_i tail
    split at read
    · cases read
    · cases read
      exact Nat.le_succ_of_le (length_afterDigits tail)
  · cases read
    exact Nat.le_refl _

theorem length_readSign (text : List Char) : (readSign text).2.length ≤ text.length := by
  unfold readSign
  split
  · exact Nat.le_succ _
  · exact Nat.le_succ _
  · exact Nat.le_refl _

theorem readExponent_shorter {text rest : List Char} {exponent : Int}
    (read : readExponent text = some (exponent, rest)) : rest.length ≤ text.length := by
  unfold readExponent at read
  split at read
  · rename_i head tail
    split at read
    · obtain ⟨magnitude, _, same⟩ := Option.map_eq_some_iff.mp read
      cases same
      exact Nat.le_succ_of_le (Nat.le_trans (length_afterDigits _) (length_readSign tail))
    · cases read
      exact Nat.le_refl _
  · cases read
    exact Nat.le_refl _

theorem readMagnitude_shorter {text rest : List Char} {mantissa : Nat} {exponent : Int}
    (read : readMagnitude text = some (mantissa, exponent, rest)) : rest.length ≤ text.length := by
  simp only [readMagnitude, Option.bind_eq_bind, Option.bind_eq_some_iff] at read
  obtain ⟨⟨whole, behindWhole⟩, readWhole, ⟨fraction, behindFraction⟩, readFraction,
    ⟨power, left⟩, readExponent, same⟩ := read
  cases same
  have first : behindWhole.length ≤ text.length := by
    unfold Json.readWhole at readWhole
    dsimp only at readWhole
    split at readWhole
    · cases readWhole
    · cases readWhole
      exact length_afterDigits text
  exact Nat.le_trans (readExponent_shorter readExponent)
    (Nat.le_trans (readFraction_shorter readFraction) first)

theorem readNumber_shorter {text rest : List Char} {value : Value}
    (read : readNumber text = some (value, rest)) : rest.length ≤ text.length := by
  unfold readNumber at read
  split at read
  · obtain ⟨⟨mantissa, exponent, left⟩, magnitude, same⟩ := Option.map_eq_some_iff.mp read
    cases same
    exact Nat.le_succ_of_le (readMagnitude_shorter magnitude)
  · obtain ⟨⟨mantissa, exponent, left⟩, magnitude, same⟩ := Option.map_eq_some_iff.mp read
    cases same
    exact readMagnitude_shorter magnitude

theorem nextItem_settled {α : Type} {close : Char} {item : α} {text : List Char}
    {reader : Nat → List Char → Option (List α × List Char)} {fuel : Nat}
    {result : List α × List Char}
    (items : ∀ {text result}, reader fuel text = some result → Settled reader text result)
    (done : nextItem close item (reader fuel) text = some result) :
    result.2.length < text.length ∧ ∀ more, text.length ≤ result.2.length + more →
      nextItem close item (reader more) text = some result := by
  have trimmed := length_skipBlank text
  unfold nextItem at done ⊢
  cases shape : skipBlank text with
  | nil =>
      rw [shape] at done
      cases done
  | cons head rest =>
      rw [shape, List.length_cons] at trimmed
      rw [shape] at done
      dsimp only at done ⊢
      split at done
      · rename_i comma
        obtain ⟨read, readMore, rfl⟩ := Option.map_eq_some_iff.mp done
        obtain ⟨shorter, again⟩ := items readMore
        refine ⟨by dsimp only; omega, ?_⟩
        intro more enough
        dsimp only at enough
        rw [if_pos comma, again more (by omega)]
        rfl
      · rename_i noComma
        split at done
        · rename_i closed
          cases done
          refine ⟨trimmed, ?_⟩
          intro more _
          rw [if_neg noComma, if_pos closed]
        · cases done

theorem itemsFrom_settled {α : Type} {close : Char} {text : List Char}
    {reader : Nat → List Char → Option (List α × List Char)} {fuel : Nat}
    {result : List α × List Char}
    (items : ∀ {text result}, reader fuel text = some result → Settled reader text result)
    (done : itemsFrom close (reader fuel) text = some result) :
    result.2.length ≤ text.length ∧ ∀ more, text.length < result.2.length + more →
      itemsFrom close (reader more) text = some result := by
  have trimmed := length_skipBlank text
  unfold itemsFrom at done ⊢
  cases shape : skipBlank text with
  | nil =>
      rw [shape] at done
      cases done
  | cons head rest =>
      rw [shape, List.length_cons] at trimmed
      rw [shape] at done
      dsimp only at done ⊢
      split at done
      · rename_i closed
        cases done
        exact ⟨Nat.le_of_succ_le trimmed, fun _ _ => if_pos closed⟩
      · rename_i opened
        obtain ⟨shorter, again⟩ := items done
        refine ⟨shorter, ?_⟩
        intro more enough
        rw [if_neg opened]
        exact again more enough

theorem valueFrom_settled {fuel : Nat} {text : List Char} {result : Value × List Char}
    (members : ∀ {text result}, readMembers fuel text = some result →
      Settled readMembers text result)
    (elements : ∀ {text result}, readElements fuel text = some result →
      Settled readElements text result)
    (done : valueFrom (readString fuel) (readMembers fuel) (readElements fuel) text =
      some result) :
    result.2.length ≤ text.length ∧ ∀ more, text.length ≤ result.2.length + more →
      valueFrom (readString more) (readMembers more) (readElements more) text =
        some result := by
  rw [valueFrom.eq_def] at done
  split at done
  · obtain ⟨read, readText, rfl⟩ := Option.map_eq_some_iff.mp done
    obtain ⟨shorter, again⟩ := readString_settled readText
    simp only [List.length_cons]
    refine ⟨by omega, ?_⟩
    intro more enough
    rw [valueFrom, again more (by omega)]
    rfl
  · obtain ⟨read, readItems, rfl⟩ := Option.map_eq_some_iff.mp done
    obtain ⟨shorter, again⟩ := itemsFrom_settled members readItems
    simp only [List.length_cons]
    refine ⟨by omega, ?_⟩
    intro more enough
    rw [valueFrom, again more (by omega)]
    rfl
  · obtain ⟨read, readItems, rfl⟩ := Option.map_eq_some_iff.mp done
    obtain ⟨shorter, again⟩ := itemsFrom_settled elements readItems
    simp only [List.length_cons]
    refine ⟨by omega, ?_⟩
    intro more enough
    rw [valueFrom, again more (by omega)]
    rfl
  · cases done
    exact ⟨by simp only [List.length_cons]; omega, fun _ _ => rfl⟩
  · cases done
    exact ⟨by simp only [List.length_cons]; omega, fun _ _ => rfl⟩
  · cases done
    exact ⟨by simp only [List.length_cons]; omega, fun _ _ => rfl⟩
  · refine ⟨readNumber_shorter done, ?_⟩
    intro more _
    rw [valueFrom, done]
    all_goals assumption

theorem readMembers_settled {fuel : Nat}
    (values : ∀ {text result}, readValue fuel text = some result → Settled readValue text result)
    (members : ∀ {text result}, readMembers fuel text = some result →
      Settled readMembers text result)
    {text : List Char} {result : List (List Char × Value) × List Char}
    (done : readMembers (fuel + 1) text = some result) : Settled readMembers text result := by
  have trimmed := length_skipBlank text
  rw [readMembers] at done
  split at done
  · rename_i rest shape
    obtain ⟨⟨name, behindName⟩, readName, done⟩ := Option.bind_eq_some_iff.mp done
    dsimp only at done
    split at done
    · rename_i behindColon colon
      obtain ⟨⟨value, behindValue⟩, readValue, next⟩ := Option.bind_eq_some_iff.mp done
      obtain ⟨nameShorter, nameAgain⟩ := readString_settled readName
      obtain ⟨valueShorter, valueAgain⟩ := values readValue
      obtain ⟨nextShorter, nextAgain⟩ := nextItem_settled members next
      have colonShorter := length_skipBlank behindName
      rw [colon, List.length_cons] at colonShorter
      rw [shape, List.length_cons] at trimmed
      dsimp only at nameShorter nameAgain valueShorter valueAgain nextShorter nextAgain
      refine Settled.intro (by omega) ?_
      intro more enough
      rw [readMembers, shape]
      simp only [nameAgain more (by omega), Option.bind_some, colon, valueAgain more (by omega)]
      exact nextAgain more (by omega)
    · cases done
  · cases done

theorem readElements_settled {fuel : Nat}
    (values : ∀ {text result}, readValue fuel text = some result → Settled readValue text result)
    (elements : ∀ {text result}, readElements fuel text = some result →
      Settled readElements text result)
    {text : List Char} {result : List Value × List Char}
    (done : readElements (fuel + 1) text = some result) : Settled readElements text result := by
  rw [readElements] at done
  obtain ⟨⟨value, behindValue⟩, readValue, next⟩ := Option.bind_eq_some_iff.mp done
  obtain ⟨valueShorter, valueAgain⟩ := values readValue
  obtain ⟨nextShorter, nextAgain⟩ := nextItem_settled elements next
  dsimp only at valueShorter valueAgain nextShorter nextAgain
  refine Settled.intro (by omega) ?_
  intro more enough
  rw [readElements, valueAgain more (by omega), Option.bind_some]
  exact nextAgain more (by omega)

theorem readers_settled (fuel : Nat) :
    (∀ {text result}, readValue fuel text = some result → Settled readValue text result) ∧
      (∀ {text result}, readMembers fuel text = some result → Settled readMembers text result) ∧
      ∀ {text result}, readElements fuel text = some result → Settled readElements text result := by
  induction fuel with
  | zero => exact ⟨nofun, nofun, nofun⟩
  | succ fuel ih =>
      obtain ⟨values, members, elements⟩ := ih
      refine ⟨?_, readMembers_settled values members, readElements_settled values elements⟩
      intro text result done
      rw [readValue] at done
      obtain ⟨shorter, again⟩ := valueFrom_settled members elements done
      have trimmed := length_skipBlank text
      refine Settled.intro (by omega) ?_
      intro more enough
      rw [readValue]
      exact again more (by omega)

/-- The fuel of `decode` is no bound on what it can read. -/
theorem decodes_iff {text : List Char} {value : Value} :
    Decodes text value ↔ decode text = some value := by
  unfold Decodes decode
  constructor
  · rintro ⟨fuel, rest, read, blank⟩
    have settled := (readers_settled fuel).1 read
    rw [settled.again (text.length + 1) (by dsimp only; omega)]
    exact if_pos blank
  · intro decoded
    split at decoded
    · cases decoded
    · rename_i read rest done
      split at decoded
      · rename_i blank
        cases decoded
        exact ⟨_, rest, done, blank⟩
      · cases decoded

end Json
