/-
`cJSON_Parse`.

The buffer is the text with its NUL, and a parser is given what is left of it.  Blanks are
skipped up to the NUL at most, and nothing but the NUL ends the buffer.  A string is first
measured and then decoded, arrays and objects are read element by element, and nesting is
limited.
-/

import NetPolicy.Cjson.Items

namespace NetPolicy.Cjson

open BinaryFormats DecimalNotation

def nestingLimit : Nat := 1000

/-- `buffer_skip_whitespace`; from the end of the buffer it steps back to the NUL. -/
def skipWhitespace (buffer : List UInt8) : List UInt8 :=
  match buffer.dropWhile (· ≤ 32) with
  | [] => [0]
  | rest => rest

/-! ### Numbers and strings -/

/-- The first 63 characters of the buffer, up to one that is in no number. -/
def numberString (buffer : List UInt8) : List UInt8 := (buffer.take 63).takeWhile isNumeric

def parseNumber (buffer : List UInt8) : Option (Item × List UInt8) :=
  (strtod binary64 (numberString buffer)).map fun read =>
    (.number read.1, buffer.drop ((numberString buffer).length - read.2.length))

def hexValue (byte : UInt8) : Option Nat :=
  if '0'.toUInt8 ≤ byte ∧ byte ≤ '9'.toUInt8 then some (byte.toNat - '0'.toNat)
  else if 'A'.toUInt8 ≤ byte ∧ byte ≤ 'F'.toUInt8 then some (10 + byte.toNat - 'A'.toNat)
  else if 'a'.toUInt8 ≤ byte ∧ byte ≤ 'f'.toUInt8 then some (10 + byte.toNat - 'a'.toNat)
  else none

/-- Four digits; anything else reads as 0. -/
def parseHex4 (a b c d : UInt8) : Nat :=
  match hexValue a, hexValue b, hexValue c, hexValue d with
  | some a, some b, some c, some d => ((a * 16 + b) * 16 + c) * 16 + d
  | _, _, _, _ => 0

def laterByte (codepoint : Nat) : UInt8 := UInt8.ofNat ((codepoint ||| 0x80) &&& 0xBF)

def firstByte (codepoint firstByteMark : Nat) : UInt8 :=
  UInt8.ofNat ((codepoint ||| firstByteMark) &&& 0xFF)

def utf8Encode (codepoint : Nat) : Option (List UInt8) :=
  if codepoint < 0x80 then some [UInt8.ofNat (codepoint &&& 0x7F)]
  else if codepoint < 0x800 then some [firstByte (codepoint >>> 6) 0xC0, laterByte codepoint]
  else if codepoint < 0x10000 then
    some [firstByte (codepoint >>> 12) 0xE0, laterByte (codepoint >>> 6), laterByte codepoint]
  else if codepoint ≤ 0x10FFFF then
    some [firstByte (codepoint >>> 18) 0xF0, laterByte (codepoint >>> 12),
      laterByte (codepoint >>> 6), laterByte codepoint]
  else none

/-- One or two sequences `\uXXXX` in front of a literal: its bytes, and how long it is. -/
def utf16LiteralToUtf8 (input : List UInt8) : Option (List UInt8 × Nat) :=
  match input with
  | _ :: _ :: a :: b :: c :: d :: later =>
      let firstCode := parseHex4 a b c d
      if 0xDC00 ≤ firstCode ∧ firstCode ≤ 0xDFFF then none
      else if 0xD800 ≤ firstCode ∧ firstCode ≤ 0xDBFF then
        match later with
        | slash :: letter :: a :: b :: c :: d :: _ =>
            let secondCode := parseHex4 a b c d
            if slash ≠ '\\'.toUInt8 ∨ letter ≠ 'u'.toUInt8 then none
            else if secondCode < 0xDC00 ∨ 0xDFFF < secondCode then none
            else
              (utf8Encode (0x10000 + (((firstCode &&& 0x3FF) <<< 10) ||| (secondCode &&& 0x3FF)))).map
                fun bytes => (bytes, 12)
        | _ => none
      else (utf8Encode firstCode).map fun bytes => (bytes, 6)
  | _ => none

/-- What `parse_string` measures behind the opening quote. -/
structure Literal where
  inner : List UInt8
  skipped : Nat
  rest : List UInt8
deriving DecidableEq, Repr

def Literal.after (literal : Literal) (bytes : List UInt8) (skipped : Nat) : Literal :=
  { literal with inner := bytes ++ literal.inner, skipped := literal.skipped + skipped }

/-- The loop up to the closing quote: a backslash takes the next character with it. -/
def measure : List UInt8 → Option Literal
  | [] => none
  | byte :: rest =>
      if byte = '"'.toUInt8 then some ⟨[], 0, rest⟩
      else if byte = '\\'.toUInt8 then
        match rest with
        | [] => none
        | next :: rest => (measure rest).map fun literal => literal.after [byte, next] 1
      else (measure rest).map fun literal => literal.after [byte] 0

def Literal.allocated (literal : Literal) : Nat := literal.inner.length + 1 - literal.skipped + 1

def simpleEscape (byte : UInt8) : Option UInt8 :=
  if byte = 'b'.toUInt8 then some 8
  else if byte = 'f'.toUInt8 then some 12
  else if byte = 'n'.toUInt8 then some 10
  else if byte = 'r'.toUInt8 then some 13
  else if byte = 't'.toUInt8 then some 9
  else if byte = '"'.toUInt8 ∨ byte = '\\'.toUInt8 ∨ byte = '/'.toUInt8 then some byte
  else none

/-- One turn of the decoding loop: the bytes written, and how many are read for them.  Behind
the last character the loop still sees the closing quote. -/
def decodeStep (byte : UInt8) (rest : List UInt8) : Option (List UInt8 × Nat) :=
  if byte ≠ '\\'.toUInt8 then some ([byte], 1)
  else
    match simpleEscape (rest.headD '"'.toUInt8) with
    | some character => some ([character], 2)
    | none =>
        if rest.headD '"'.toUInt8 = 'u'.toUInt8 then utf16LiteralToUtf8 (byte :: rest) else none

/-- The decoding loop, for at most so many turns: what it writes, and whether it gets to the
end. -/
def decode : Nat → List UInt8 → List UInt8 × Bool
  | _, [] => ([], true)
  | 0, _ :: _ => ([], false)
  | turns + 1, byte :: rest =>
      match decodeStep byte rest with
      | none => ([], false)
      | some (written, read) =>
          let later := decode turns ((byte :: rest).drop read)
          (written ++ later.1, later.2)

def parseString (buffer : List UInt8) : Option (CString × List UInt8) :=
  match buffer with
  | [] => none
  | byte :: rest =>
      if byte = '"'.toUInt8 then
        match measure rest with
        | none => none
        | some literal =>
            let output := decode literal.inner.length literal.inner
            if output.2 then some (CString.ofBuffer output.1, literal.rest) else none
      else none

/-! ### Values -/

section

variable {α : Type} (one : List UInt8 → Option (α × List UInt8))

def parseSeparated : Nat → List UInt8 → Option (List α × List UInt8)
  | 0, _ => none
  | turns + 1, buffer => do
      let (first, buffer) ← one buffer
      match skipWhitespace buffer with
      | [] => none
      | byte :: rest =>
          if byte = ','.toUInt8 then do
            let (later, buffer) ← parseSeparated turns rest
            some (first :: later, buffer)
          else some ([first], byte :: rest)

def parseBracketed (close : UInt8) (buffer : List UInt8) : Option (List α × List UInt8) :=
  match skipWhitespace (buffer.drop 1) with
  | [] => none
  | byte :: rest =>
      if byte = close then some ([], rest)
      else
        match parseSeparated one (byte :: rest).length (byte :: rest) with
        | some (read, byte :: rest) => if byte = close then some (read, rest) else none
        | _ => none

end

section

variable (value : List UInt8 → Option (Item × List UInt8))

def parseElement (buffer : List UInt8) : Option (Item × List UInt8) :=
  value (skipWhitespace buffer)

def parseMember (buffer : List UInt8) : Option ((CString × Item) × List UInt8) := do
  let (name, buffer) ← parseString (skipWhitespace buffer)
  match skipWhitespace buffer with
  | [] => none
  | byte :: rest =>
      if byte = ':'.toUInt8 then do
        let (item, buffer) ← value (skipWhitespace rest)
        some ((name, item), buffer)
      else none

def parseArray (buffer : List UInt8) : Option (Item × List UInt8) :=
  (parseBracketed (parseElement value) ']'.toUInt8 buffer).map fun read => (.array read.1, read.2)

def parseObject (buffer : List UInt8) : Option (Item × List UInt8) :=
  (parseBracketed (parseMember value) '\x7d'.toUInt8 buffer).map fun read => (.object read.1, read.2)

end

def parseValueWith (array object : List UInt8 → Option (Item × List UInt8)) (buffer : List UInt8) :
    Option (Item × List UInt8) :=
  if (bytesOf ['n', 'u', 'l', 'l']).isPrefixOf buffer then some (.null, buffer.drop 4)
  else if (bytesOf ['f', 'a', 'l', 's', 'e']).isPrefixOf buffer then some (.false, buffer.drop 5)
  else if (bytesOf ['t', 'r', 'u', 'e']).isPrefixOf buffer then some (.true, buffer.drop 4)
  else
    match buffer with
    | [] => none
    | byte :: rest =>
        if byte = '"'.toUInt8 then
          (parseString (byte :: rest)).map fun read => (.string read.1, read.2)
        else if byte = '-'.toUInt8 ∨ isDigit byte = true then parseNumber (byte :: rest)
        else if byte = '['.toUInt8 then array (byte :: rest)
        else if byte = '\x7b'.toUInt8 then object (byte :: rest)
        else none

/-- A value with room for so many arrays and objects around the innermost value. -/
def parseValue : Nat → List UInt8 → Option (Item × List UInt8)
  | 0 => parseValueWith (fun _ => none) (fun _ => none)
  | room + 1 => parseValueWith (parseArray (parseValue room)) (parseObject (parseValue room))

def skipUtf8Bom (buffer : List UInt8) : List UInt8 :=
  if 4 < buffer.length ∧ [0xEF, 0xBB, 0xBF].isPrefixOf buffer then buffer.drop 3 else buffer

/-- Whatever follows the value is not looked at. -/
def parse (text : CString) : Option Item :=
  (parseValue nestingLimit (skipWhitespace (skipUtf8Bom (text.bytes ++ [0])))).map Prod.fst

end NetPolicy.Cjson
