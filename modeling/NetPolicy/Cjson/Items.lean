/-
The values of `cjson.c`.

A number is a `double`, a string ends at its first NUL, and the members of an object keep their
order.  The text of a value is what printing it without formatting gives; a number is printed
with fifteen digits if they read back as the number and with seventeen otherwise.
-/

import NetPolicy.Library.DecimalNotation
import NetPolicy.Library.RustText

namespace NetPolicy.Cjson

open BinaryFormats DecimalNotation RustText

/-! ### Numbers -/

def binary64 : Format where
  precision := 53
  least := 1074
  bits := 2098
  precise := by decide

abbrev Double := Number binary64

/-- The comparison `==`: the two zeros are the same number. -/
def Double.same : Double → Double → Bool
  | .finite negative magnitude, .finite otherNegative otherMagnitude =>
      magnitude.units == otherMagnitude.units &&
        (negative == otherNegative || magnitude.units == 0)
  | .infinite negative, .infinite otherNegative => negative == otherNegative
  | _, _ => false

def intMin : Int := -2147483648
def intMax : Int := 2147483647

def Double.truncate : Double → Int
  | .finite negative magnitude => if negative then -magnitude.floor else magnitude.floor
  | _ => 0

/-- The `valueint` of a number, saturated; a NaN has no value as an integer. -/
def Double.valueint : Double → Int
  | .finite negative magnitude =>
      max intMin (min intMax (Double.truncate (.finite negative magnitude)))
  | .infinite negative => if negative then intMin else intMax
  | .nan => 0

/-! ### Values -/

structure CString where
  bytes : List UInt8
  noNul : 0 ∉ bytes
deriving DecidableEq

def CString.ofBuffer (buffer : List UInt8) : CString where
  bytes := buffer.takeWhile (· ≠ 0)
  noNul := fun mem => by simpa using List.mem_takeWhile_imp mem

inductive Item where
  | null
  | false
  | true
  | number (valuedouble : Double)
  | string (valuestring : CString)
  | array (child : List Item)
  | object (child : List (CString × Item))

theorem Item.induct {motive : Item → Prop} (null : motive .null) (false : motive .false)
    (true : motive .true) (number : ∀ valuedouble, motive (.number valuedouble))
    (string : ∀ valuestring, motive (.string valuestring))
    (array : ∀ child, (∀ item ∈ child, motive item) → motive (.array child))
    (object : ∀ child, (∀ member ∈ child, motive member.2) → motive (.object child))
    (item : Item) : motive item := by
  refine @Item.rec motive (fun child => ∀ item ∈ child, motive item)
    (fun child => ∀ member ∈ child, motive member.2) (fun member => motive member.2)
    null false true number string array object ?_ ?_ ?_ ?_ ?_ item
  · exact List.forall_mem_nil _
  · exact fun head tail first later => List.forall_mem_cons.mpr ⟨first, later⟩
  · exact List.forall_mem_nil _
  · exact fun head tail first later => List.forall_mem_cons.mpr ⟨first, later⟩
  · exact fun name item holds => holds

mutual

/-- How many arrays and objects are around the innermost value. -/
def Item.depth : Item → Nat
  | .array child => depthOfElements child + 1
  | .object child => depthOfMembers child + 1
  | _ => 0

def depthOfElements : List Item → Nat
  | [] => 0
  | item :: rest => max item.depth (depthOfElements rest)

def depthOfMembers : List (CString × Item) → Nat
  | [] => 0
  | (_, item) :: rest => max item.depth (depthOfMembers rest)

end

/-! ### Texts -/

def bytesOf (text : List Char) : List UInt8 := text.map Char.toUInt8

def hexDigit (value : Nat) : UInt8 :=
  if value < 10 then UInt8.ofNat ('0'.toNat + value) else UInt8.ofNat ('a'.toNat + (value - 10))

/-- A character as `print_string_ptr` writes it. -/
def escape (byte : UInt8) : List UInt8 :=
  if byte > 31 ∧ byte ≠ '"'.toUInt8 ∧ byte ≠ '\\'.toUInt8 then [byte]
  else
    '\\'.toUInt8 ::
      (if byte = '\\'.toUInt8 then ['\\'.toUInt8]
      else if byte = '"'.toUInt8 then ['"'.toUInt8]
      else if byte = 8 then ['b'.toUInt8]
      else if byte = 12 then ['f'.toUInt8]
      else if byte = 10 then ['n'.toUInt8]
      else if byte = 13 then ['r'.toUInt8]
      else if byte = 9 then ['t'.toUInt8]
      else
        ['u'.toUInt8, '0'.toUInt8, '0'.toUInt8, hexDigit (byte.toNat / 16),
          hexDigit (byte.toNat % 16)])

def stringText (string : CString) : List UInt8 :=
  '"'.toUInt8 :: (string.bytes.flatMap escape ++ ['"'.toUInt8])

/-- `%1.15g`, and `%1.17g` if that does not read back as the number. -/
def finiteText (negative : Bool) (magnitude : Magnitude binary64) : List UInt8 :=
  let short := signText negative ++ magnitudeText 14 magnitude
  match strtod binary64 short with
  | some (test, _) =>
      if Double.same test (.finite negative magnitude) then short
      else signText negative ++ magnitudeText 16 magnitude
  | none => signText negative ++ magnitudeText 16 magnitude

def numberText : Double → List UInt8
  | .finite negative magnitude => finiteText negative magnitude
  | _ => bytesOf ['n', 'u', 'l', 'l']

def commaSeparated : List (List UInt8) → List UInt8
  | [] => []
  | [text] => text
  | text :: next :: rest => text ++ ','.toUInt8 :: commaSeparated (next :: rest)

mutual

def Item.text : Item → List UInt8
  | .null => bytesOf ['n', 'u', 'l', 'l']
  | .false => bytesOf ['f', 'a', 'l', 's', 'e']
  | .true => bytesOf ['t', 'r', 'u', 'e']
  | .number valuedouble => numberText valuedouble
  | .string valuestring => stringText valuestring
  | .array child => '['.toUInt8 :: (commaSeparated (elementTexts child) ++ [']'.toUInt8])
  | .object child => '\x7b'.toUInt8 :: (commaSeparated (memberTexts child) ++ ['\x7d'.toUInt8])

def elementTexts : List Item → List (List UInt8)
  | [] => []
  | item :: rest => item.text :: elementTexts rest

def memberTexts : List (CString × Item) → List (List UInt8)
  | [] => []
  | (name, item) :: rest => (stringText name ++ ':'.toUInt8 :: item.text) :: memberTexts rest

end

def memberText (member : CString × Item) : List UInt8 :=
  stringText member.1 ++ ':'.toUInt8 :: member.2.text

theorem elementTexts_eq (child : List Item) : elementTexts child = child.map Item.text := by
  induction child with
  | nil => rfl
  | cons item rest ih => rw [elementTexts, List.map_cons, ih]

theorem memberTexts_eq (child : List (CString × Item)) :
    memberTexts child = child.map memberText := by
  induction child with
  | nil => rfl
  | cons member rest ih => rw [memberTexts, List.map_cons, ih, memberText]

theorem array_depth_le {child : List Item} {room : Nat} :
    (Item.array child).depth ≤ room + 1 ↔ ∀ item ∈ child, item.depth ≤ room := by
  rw [Item.depth, Nat.add_le_add_iff_right]
  induction child with
  | nil => simp [depthOfElements]
  | cons item rest ih => rw [depthOfElements, max_le_iff, List.forall_mem_cons, ih]

theorem object_depth_le {child : List (CString × Item)} {room : Nat} :
    (Item.object child).depth ≤ room + 1 ↔ ∀ member ∈ child, member.2.depth ≤ room := by
  rw [Item.depth, Nat.add_le_add_iff_right]
  induction child with
  | nil => simp [depthOfMembers]
  | cons member rest ih => rw [depthOfMembers, max_le_iff, List.forall_mem_cons, ih]

/-! ### Access -/

def caseInsensitiveEq (left right : CString) : Bool :=
  left.bytes.map toAsciiLowercase == right.bytes.map toAsciiLowercase

def Item.getObjectItem (item : Item) (name : CString) : Option Item :=
  match item with
  | .object child => (child.find? fun member => caseInsensitiveEq name member.1).map Prod.snd
  | _ => none

/-- The children that `cJSON_GetArraySize` and `cJSON_GetArrayItem` go through. -/
def Item.children : Item → List Item
  | .array child => child
  | .object child => child.map Prod.snd
  | _ => []

def Item.valuestring? : Item → Option CString
  | .string valuestring => some valuestring
  | _ => none

def Double.zero : Double := roundTo binary64 false 0

/-- Every item has a number, which is zero unless it is given one. -/
def Item.valuedouble : Item → Double
  | .number valuedouble => valuedouble
  | _ => Double.zero

def Item.valueint : Item → Int
  | .number valuedouble => valuedouble.valueint
  | .true => 1
  | _ => 0

end NetPolicy.Cjson
