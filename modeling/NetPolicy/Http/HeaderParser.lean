/-
One request line and header block.

The tokenizer is the external `httparse`: it is a parameter that carries what it
documents, a decision that later bytes do not revise.  Everything after it is
translated from the codec: the request target, the framing fields with their
conflict checks, and the host.
-/

import Mathlib.Data.List.TakeWhile
import NetPolicy.Library.RustText

namespace NetPolicy.Http

open RustText

/-! ### The request target -/

structure RequestTarget where
  host : String
  path : String
deriving DecidableEq, Repr

/-- The characters before the first separator, all of them if there is none. -/
def before (separator : Char) (text : List Char) : List Char :=
  text.takeWhile (· ≠ separator)

def stripScheme (target : List Char) : Option (List Char) :=
  (target.dropPrefix? "http://".toList).orElse fun _ => target.dropPrefix? "https://".toList

def parseRequestTarget (target : String) : RequestTarget :=
  match stripScheme target.toList with
  | some rest =>
      let authority := before '/' rest
      let pathAndQuery := rest.drop authority.length
      { host := String.ofList (before ':' authority)
        path := String.ofList (before '?' pathAndQuery) }
  | none => { host := "", path := String.ofList (before '?' target.toList) }

example : parseRequestTarget "https://1.2.3.4:8888/platform/service?cluster=123" =
    { host := "1.2.3.4", path := "/platform/service" } := by decide

/-! ### The tokenizer -/

structure RawRequest where
  method : Option String
  path : Option String
  headers : List (String × List UInt8)
deriving DecidableEq, Repr

inductive ParseStatus where
  | complete (consumed : Nat) (request : RawRequest)
  | incomplete
  | error
deriving DecidableEq, Repr

abbrev Tokenizer := Nat → List UInt8 → ParseStatus

/-- The tokenizer with what it documents: a complete block lies within the buffer and is
not changed by bytes behind it, and malformed input stays malformed. -/
structure Httparse where
  parse : Nat → List UInt8 → ParseStatus
  complete_bound : ∀ {room buffer consumed request},
    parse room buffer = .complete consumed request → 0 < consumed ∧ consumed ≤ buffer.length
  complete_append : ∀ {room buffer consumed request} (more : List UInt8),
    parse room buffer = .complete consumed request →
      parse room (buffer ++ more) = .complete consumed request
  error_append : ∀ {room buffer} (more : List UInt8),
    parse room buffer = .error → parse room (buffer ++ more) = .error

instance : Coe Httparse Tokenizer := ⟨Httparse.parse⟩

def maxHeaders : Nat := 100

def asciiBytes (text : String) : List UInt8 := text.toList.map fun char => UInt8.ofNat char.toNat

def Httparse.single (block : List UInt8) (nonempty : 0 < block.length) (request : RawRequest) :
    Httparse where
  parse := fun _ buffer =>
    if block <+: buffer then .complete block.length request
    else if buffer <+: block then .incomplete
    else .error
  complete_bound := by
    intro room buffer consumed request complete
    split at complete
    · rename_i starts
      cases complete
      exact ⟨nonempty, starts.length_le⟩
    · split at complete <;> cases complete
  complete_append := by
    intro room buffer consumed request more complete
    split at complete
    · rename_i starts
      cases complete
      rw [if_pos (starts.trans (List.prefix_append buffer more))]
    · split at complete <;> cases complete
  error_append := by
    intro room buffer more error
    split at error
    · cases error
    split at error
    · cases error
    rename_i notStarts notBegun
    -- were either a beginning of the other, the buffer would have been one already
    have notStartsGrown : ¬block <+: buffer ++ more := by
      intro starts
      rcases Nat.le_total block.length buffer.length with shorter | longer
      · exact notStarts
          (List.prefix_of_prefix_length_le starts (List.prefix_append buffer more) shorter)
      · exact notBegun
          (List.prefix_of_prefix_length_le (List.prefix_append buffer more) starts longer)
    have notBegunGrown : ¬buffer ++ more <+: block := by
      intro begun
      exact notBegun ((List.prefix_append buffer more).trans begun)
    rw [if_neg notStartsGrown, if_neg notBegunGrown]

theorem Httparse.single_parse (block : List UInt8) (nonempty : 0 < block.length)
    (request : RawRequest) (room : Nat) :
    (Httparse.single block nonempty request).parse room block =
      .complete block.length request := by
  change (if block <+: block then _ else _) = _
  rw [if_pos (List.prefix_refl block)]

/-! ### The header block -/

structure HeaderParseResult where
  method : String
  path : String
  host : String
  fields : List (String × String)
  contentLength : Option Nat
  chunked : Bool
  consumed : Nat
deriving DecidableEq, Repr

structure HeaderScan where
  fields : List (String × String)
  contentLength : Option Nat
  chunked : Bool
deriving DecidableEq, Repr

def nameIs (name expected : String) : Bool := eqIgnoreAsciiCase name.toList expected.toList

/-- One field.  A Content-Length that is no number or that differs from an
earlier one is an error. -/
def scanField (scan : HeaderScan) (name : String) (bytes : List UInt8) :
    Except Unit HeaderScan :=
  let value := fromUtf8Lossy bytes
  let fields := scan.fields ++ [(name, String.ofList value)]
  if nameIs name "content-length" then
    match usizeFromStrRadix 10 (trim value) with
    | none => .error ()
    | some length =>
        match scan.contentLength with
        | none => .ok { scan with fields := fields, contentLength := some length }
        | some existing =>
            if existing ≠ length then .error ()
            else .ok { scan with fields := fields, contentLength := some length }
  else if nameIs name "transfer-encoding" &&
      eqIgnoreAsciiCase (trim value) "chunked".toList then
    .ok { scan with fields := fields, chunked := true }
  else .ok { scan with fields := fields }

def scanFields (headers : List (String × List UInt8)) : Except Unit HeaderScan :=
  headers.foldlM (fun scan header => scanField scan header.1 header.2)
    { fields := [], contentLength := none, chunked := false }

def beforeLastColon (value : List Char) : List Char :=
  if ':' ∈ value then ((value.reverse.dropWhile (· ≠ ':')).drop 1).reverse else value

def resolveHost (targetHost : String) (fields : List (String × String)) : String :=
  if targetHost ≠ "" then targetHost
  else
    match fields.find? fun field => nameIs field.1 "host" with
    | some field => String.ofList (beforeLastColon field.2.toList)
    | none => ""

/-- `Ok(None)` is a block that is not complete yet. -/
def tryParseHeaders (parse : Tokenizer) (buf : List UInt8) :
    Except Unit (Option HeaderParseResult) :=
  match parse maxHeaders buf with
  | .incomplete => .ok none
  | .error => .error ()
  | .complete consumed request =>
      let method := request.method.getD ""
      let target := parseRequestTarget (request.path.getD "")
      match scanFields request.headers with
      | .error () => .error ()
      | .ok scan =>
          if scan.chunked && scan.contentLength.isSome then .error ()
          else
            .ok (some
              { method := method
                path := target.path
                host := resolveHost target.host scan.fields
                fields := scan.fields
                contentLength := scan.contentLength
                chunked := scan.chunked
                consumed := consumed })

/-! ### Targets, fields and hosts -/

theorem before_of_not_mem {separator : Char} {text : List Char} (free : separator ∉ text) :
    before separator text = text :=
  List.takeWhile_eq_self_iff.mpr fun _ member =>
    decide_eq_true fun same => free (same ▸ member)

theorem before_separator {separator : Char} {text : List Char} (free : separator ∉ text)
    (rest : List Char) : before separator (text ++ separator :: rest) = text := by
  have plain : ∀ character ∈ text, decide (character ≠ separator) = true :=
    fun character member => decide_eq_true fun same => free (same ▸ member)
  rw [before, List.takeWhile_append_of_pos plain, List.takeWhile_cons_of_neg (by simp),
    List.append_nil]

theorem parseRequestTarget_origin {target : String} {rest : List Char}
    (absolute : target.toList = '/' :: rest) :
    parseRequestTarget target = { host := "", path := String.ofList (before '?' target.toList) } := by
  have schemeless : stripScheme target.toList = none := by
    rw [absolute]
    rfl
  rw [parseRequestTarget, schemeless]

theorem scanField_fields {scan next : HeaderScan} {name : String} {bytes : List UInt8}
    (scanned : scanField scan name bytes = .ok next) :
    next.fields = scan.fields ++ [(name, String.ofList (fromUtf8Lossy bytes))] := by
  unfold scanField at scanned
  dsimp only at scanned
  split at scanned
  · split at scanned
    · cases scanned
    split at scanned
    · cases scanned
      rfl
    split at scanned
    · cases scanned
    · cases scanned
      rfl
  split at scanned
  · cases scanned
    rfl
  · cases scanned
    rfl

theorem scanFields_fields {headers : List (String × List UInt8)} {scan : HeaderScan}
    (scanned : scanFields headers = .ok scan) :
    scan.fields = headers.map fun header => (header.1, String.ofList (fromUtf8Lossy header.2)) := by
  have every : ∀ (headers : List (String × List UInt8)) (start last : HeaderScan),
      headers.foldlM (fun scan header => scanField scan header.1 header.2) start = .ok last →
        last.fields = start.fields ++
          headers.map fun header => (header.1, String.ofList (fromUtf8Lossy header.2)) := by
    intro headers
    induction headers with
    | nil =>
        intro start last done
        cases done
        rw [List.map_nil, List.append_nil]
    | cons header rest ih =>
        intro start last done
        rw [List.foldlM_cons] at done
        cases first : scanField start header.1 header.2 with
        | error =>
            rw [first] at done
            cases done
        | ok next =>
            rw [first] at done
            rw [ih next last done, scanField_fields first, List.append_assoc, List.map_cons]
            rfl
  exact every headers _ scan scanned

theorem beforeLastColon_eq_iff (text : List Char) : beforeLastColon text = text ↔ ':' ∉ text := by
  unfold beforeLastColon
  split
  · rename_i colon
    refine iff_of_false ?_ (not_not_intro colon)
    intro same
    have cut : 0 < (text.reverse.dropWhile (· ≠ ':')).length := by
      rw [List.length_pos_iff, Ne, List.dropWhile_eq_nil_iff]
      intro none
      have differs := none ':' (List.mem_reverse.mpr colon)
      simp at differs
    have shorter : (text.reverse.dropWhile (· ≠ ':')).length ≤ text.reverse.length :=
      (List.dropWhile_sublist _).length_le
    have lengths := congrArg List.length same
    rw [List.length_reverse, List.length_drop] at lengths
    rw [List.length_reverse] at shorter
    omega
  · rename_i plain
    exact iff_of_true rfl plain

theorem tryParseHeaders_complete {parse : Tokenizer} {buffer : List UInt8}
    {result : HeaderParseResult} (parsed : tryParseHeaders parse buffer = .ok (some result)) :
    ∃ request, parse maxHeaders buffer = .complete result.consumed request := by
  unfold tryParseHeaders at parsed
  cases status : parse maxHeaders buffer with
  | incomplete =>
      rw [status] at parsed
      cases parsed
  | error =>
      rw [status] at parsed
      cases parsed
  | complete consumed request =>
      simp only [status] at parsed
      split at parsed
      · cases parsed
      split at parsed <;> cases parsed
      exact ⟨request, rfl⟩

/-! ### A decision is not revised -/

variable (httparse : Httparse)

theorem tryParseHeaders_bound {buffer : List UInt8} {result : HeaderParseResult}
    (parsed : tryParseHeaders httparse buffer = .ok (some result)) :
    0 < result.consumed ∧ result.consumed ≤ buffer.length := by
  obtain ⟨request, complete⟩ := tryParseHeaders_complete parsed
  exact httparse.complete_bound complete

theorem tryParseHeaders_append {buffer : List UInt8}
    (decided : tryParseHeaders httparse buffer ≠ .ok none) (more : List UInt8) :
    tryParseHeaders httparse (buffer ++ more) = tryParseHeaders httparse buffer := by
  unfold tryParseHeaders at decided ⊢
  cases status : httparse.parse maxHeaders buffer with
  | incomplete =>
      rw [status] at decided
      exact absurd rfl decided
  | error => rw [httparse.error_append more status]
  | complete consumed request => rw [httparse.complete_append more status]

end NetPolicy.Http
