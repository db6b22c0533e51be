/-
What the header fields decide about the body.

The loop over the fields keeps one length and one flag.  Both are determined by which
fields occur, not by their order or letter case: the block is rejected exactly if the
lengths are unreadable, differ, or stand beside a chunked coding.  A coding counts only as
the whole value of its field, so a list that ends in `chunked` is not seen.
-/

import Mathlib.Data.List.Forall2
import NetPolicy.Http.BodyFraming
import NetPolicy.Http.HeaderParser

namespace NetPolicy.Http

open RustText

/-! ### Framing fields -/

abbrev Field := String × List UInt8

namespace Field

def isContentLength (field : Field) : Bool := nameIs field.1 "content-length"

def isTransferEncoding (field : Field) : Bool := nameIs field.1 "transfer-encoding"

def length? (field : Field) : Option Nat :=
  usizeFromStrRadix 10 (trim (fromUtf8Lossy field.2))

def announcesChunked (field : Field) : Bool :=
  field.isTransferEncoding && eqIgnoreAsciiCase (trim (fromUtf8Lossy field.2)) "chunked".toList

theorem not_announcesChunked {field : Field} (length : field.isContentLength = true) :
    field.announcesChunked = false := by
  have named : field.1.toList.map Char.toLower = "content-length".toList.map Char.toLower :=
    eq_of_beq length
  have other : field.isTransferEncoding = false := by
    rw [isTransferEncoding, nameIs, eqIgnoreAsciiCase, named]
    decide
  rw [announcesChunked, other, Bool.false_and]

end Field

/-! ### One field of the loop -/

/-- What the loop has gathered is determined by the fields it has passed. -/
structure Gathered (seen : List Field) (scan : HeaderScan) : Prop where
  chunked : scan.chunked = seen.any Field.announcesChunked
  lengths : ∀ field ∈ seen, field.isContentLength = true →
    field.length? = scan.contentLength ∧ field.length? ≠ none
  announced : scan.contentLength ≠ none → ∃ field ∈ seen, field.isContentLength = true

def LengthConflict (fields : List Field) : Prop :=
  (∃ field ∈ fields, field.isContentLength = true ∧ field.length? = none) ∨
    ∃ first ∈ fields, ∃ second ∈ fields, first.isContentLength = true ∧
      second.isContentLength = true ∧ first.length? ≠ second.length?

theorem scanField_contentLength {scan : HeaderScan} {field : Field} {length : Nat}
    (named : field.isContentLength = true) (number : field.length? = some length)
    (agrees : scan.contentLength = none ∨ scan.contentLength = some length) :
    ∃ next, scanField scan field.1 field.2 = .ok next ∧ next.chunked = scan.chunked ∧
      next.contentLength = some length := by
  unfold Field.isContentLength at named
  unfold Field.length? at number
  unfold scanField
  dsimp only
  rw [if_pos named, number]
  rcases agrees with first | again
  · rw [first]
    exact ⟨_, rfl, rfl, rfl⟩
  · rw [again]
    dsimp only
    rw [if_neg (not_not_intro rfl)]
    exact ⟨_, rfl, rfl, rfl⟩

theorem scanField_conflict {scan : HeaderScan} {field : Field}
    (named : field.isContentLength = true)
    (conflict : field.length? = none ∨
      ∃ length, scan.contentLength = some length ∧ field.length? ≠ some length) :
    scanField scan field.1 field.2 = .error () := by
  unfold Field.isContentLength at named
  unfold Field.length? at conflict
  unfold scanField
  dsimp only
  rw [if_pos named]
  cases number : usizeFromStrRadix 10 (trim (fromUtf8Lossy field.2)) with
  | none => rfl
  | some value =>
      rw [number] at conflict
      rcases conflict with unreadable | ⟨length, earlier, differs⟩
      · cases unreadable
      · rw [earlier]
        dsimp only
        rw [if_pos fun same => differs (congrArg some same.symm)]

theorem scanField_other (scan : HeaderScan) {field : Field}
    (named : field.isContentLength = false) :
    ∃ next, scanField scan field.1 field.2 = .ok next ∧
      next.chunked = (scan.chunked || field.announcesChunked) ∧
      next.contentLength = scan.contentLength := by
  unfold Field.isContentLength at named
  unfold scanField Field.announcesChunked Field.isTransferEncoding
  dsimp only
  rw [named, if_neg Bool.false_ne_true]
  split
  · rename_i chunked
    rw [chunked, Bool.or_true]
    exact ⟨_, rfl, rfl, rfl⟩
  · rename_i other
    rw [Bool.eq_false_iff.mpr other, Bool.or_false]
    exact ⟨_, rfl, rfl, rfl⟩

theorem Gathered.contentLength {seen : List Field} {scan next : HeaderScan} {field : Field}
    {length : Nat} (gathered : Gathered seen scan) (named : field.isContentLength = true)
    (number : field.length? = some length)
    (agrees : scan.contentLength = none ∨ scan.contentLength = some length)
    (chunked : next.chunked = scan.chunked) (known : next.contentLength = some length) :
    Gathered (seen ++ [field]) next := by
  constructor
  · rw [chunked, gathered.chunked, List.any_append, List.any_cons, List.any_nil,
      Field.not_announcesChunked named, Bool.false_or, Bool.or_false]
  · intro other member isLength
    rw [known]
    rcases List.mem_append.mp member with before | here
    · obtain ⟨same, readable⟩ := gathered.lengths other before isLength
      rcases agrees with first | again
      · exact absurd (same.trans first) readable
      · exact ⟨same.trans again, readable⟩
    · rw [List.mem_singleton.mp here, number]
      exact ⟨rfl, nofun⟩
  · intro _
    exact ⟨field, List.mem_append_right seen (List.mem_singleton.mpr rfl), named⟩

theorem Gathered.other {seen : List Field} {scan next : HeaderScan} {field : Field}
    (gathered : Gathered seen scan) (named : field.isContentLength = false)
    (chunked : next.chunked = (scan.chunked || field.announcesChunked))
    (kept : next.contentLength = scan.contentLength) : Gathered (seen ++ [field]) next := by
  constructor
  · rw [chunked, gathered.chunked, List.any_append, List.any_cons, List.any_nil, Bool.or_false]
  · intro other member isLength
    rw [kept]
    rcases List.mem_append.mp member with before | here
    · exact gathered.lengths other before isLength
    · rw [List.mem_singleton.mp here, named] at isLength
      cases isLength
  · intro known
    obtain ⟨other, before, isLength⟩ := gathered.announced (kept ▸ known)
    exact ⟨other, List.mem_append_left [field] before, isLength⟩

theorem scanField_gathers {seen : List Field} {scan : HeaderScan} (gathered : Gathered seen scan)
    (field : Field) :
    (∃ next, scanField scan field.1 field.2 = .ok next ∧ Gathered (seen ++ [field]) next) ∨
      (scanField scan field.1 field.2 = .error () ∧ LengthConflict (seen ++ [field])) := by
  have last : field ∈ seen ++ [field] := List.mem_append_right seen (List.mem_singleton.mpr rfl)
  cases named : field.isContentLength with
  | false =>
      obtain ⟨next, scanned, chunked, kept⟩ := scanField_other scan named
      exact .inl ⟨next, scanned, gathered.other named chunked kept⟩
  | true =>
      have goesOn : ∀ length, field.length? = some length →
          (scan.contentLength = none ∨ scan.contentLength = some length) →
          ∃ next, scanField scan field.1 field.2 = .ok next ∧ Gathered (seen ++ [field]) next := by
        intro length number agrees
        obtain ⟨next, scanned, chunked, known⟩ := scanField_contentLength named number agrees
        exact ⟨next, scanned, gathered.contentLength named number agrees chunked known⟩
      cases number : field.length? with
      | none =>
          exact .inr ⟨scanField_conflict named (.inl number), .inl ⟨field, last, named, number⟩⟩
      | some length =>
          cases earlier : scan.contentLength with
          | none => exact .inl (goesOn length number (.inl earlier))
          | some value =>
              by_cases same : value = length
              · exact .inl (goesOn length number (.inr (earlier.trans (congrArg some same))))
              · have differs : field.length? ≠ some value := by
                  rw [number]
                  exact fun equal => same (Option.some.inj equal).symm
                obtain ⟨other, before, isLength⟩ := gathered.announced (by rw [earlier]; nofun)
                have first : other.length? = some value :=
                  (gathered.lengths other before isLength).1.trans earlier
                refine .inr ⟨scanField_conflict named (.inr ⟨value, earlier, differs⟩),
                  .inr ⟨other, List.mem_append_left [field] before, field, last, isLength, named, ?_⟩⟩
                rw [first]
                exact differs.symm

/-! ### The loop -/

theorem LengthConflict.append {seen : List Field} (conflict : LengthConflict seen)
    (rest : List Field) : LengthConflict (seen ++ rest) := by
  rcases conflict with ⟨field, member, unreadable⟩ | ⟨first, inSeen, second, alsoSeen, differ⟩
  · exact .inl ⟨field, List.mem_append_left rest member, unreadable⟩
  · exact .inr ⟨first, List.mem_append_left rest inSeen, second,
      List.mem_append_left rest alsoSeen, differ⟩

theorem Gathered.not_lengthConflict {fields : List Field} {scan : HeaderScan}
    (gathered : Gathered fields scan) : ¬LengthConflict fields := by
  intro conflict
  rcases conflict with ⟨field, member, named, unreadable⟩ |
    ⟨first, inFields, second, alsoInFields, firstNamed, secondNamed, differ⟩
  · exact (gathered.lengths field member named).2 unreadable
  · exact differ ((gathered.lengths first inFields firstNamed).1.trans
      (gathered.lengths second alsoInFields secondNamed).1.symm)

theorem scanFields_gathers (fields : List Field) :
    (∃ scan, scanFields fields = .ok scan ∧ Gathered fields scan) ∨
      (scanFields fields = .error () ∧ LengthConflict fields) := by
  have every : ∀ (rest seen : List Field) (scan : HeaderScan), Gathered seen scan →
      (∃ last, rest.foldlM (fun scan header => scanField scan header.1 header.2) scan = .ok last ∧
        Gathered (seen ++ rest) last) ∨
      (rest.foldlM (fun scan header => scanField scan header.1 header.2) scan = .error () ∧
        LengthConflict (seen ++ rest)) := by
    intro rest
    induction rest with
    | nil =>
        intro seen scan gathered
        rw [List.append_nil]
        exact .inl ⟨scan, rfl, gathered⟩
    | cons field rest ih =>
        intro seen scan gathered
        rw [List.foldlM_cons, List.append_cons]
        rcases scanField_gathers gathered field with ⟨next, scanned, further⟩ | ⟨failed, conflict⟩
        · rw [scanned]
          exact ih (seen ++ [field]) next further
        · rw [failed]
          exact .inr ⟨rfl, conflict.append rest⟩
  have nothing : Gathered [] { fields := [], contentLength := none, chunked := false } :=
    ⟨rfl, nofun, fun known => absurd rfl known⟩
  exact every fields [] _ nothing

/-! ### Blocks -/

/-- A block that the tokenizer completes. -/
structure CompletedBlock (parse : Tokenizer) where
  buf : List UInt8
  consumed : Nat
  request : RawRequest
  completed : parse maxHeaders buf = .complete consumed request

def FramingConflict (fields : List Field) : Prop :=
  LengthConflict fields ∨
    ((∃ field ∈ fields, field.isContentLength = true) ∧
      ∃ field ∈ fields, field.announcesChunked = true)

/-- The framing of an accepted block, as its fields determine it. -/
structure FramedBy (fields : List Field) (contentLength : Option Nat) (chunked : Bool) : Prop where
  length : ∀ value, contentLength = some value ↔
    ∃ field ∈ fields, field.isContentLength = true ∧ field.length? = some value
  coding : chunked = true ↔ ∃ field ∈ fields, field.announcesChunked = true

theorem Gathered.framedBy {fields : List Field} {scan : HeaderScan}
    (gathered : Gathered fields scan) : FramedBy fields scan.contentLength scan.chunked := by
  constructor
  · intro value
    constructor
    · intro known
      obtain ⟨field, member, named⟩ := gathered.announced (by rw [known]; nofun)
      exact ⟨field, member, named, (gathered.lengths field member named).1.trans known⟩
    · intro present
      obtain ⟨field, member, named, number⟩ := present
      exact (gathered.lengths field member named).1.symm.trans number
  · rw [gathered.chunked, List.any_eq_true]

theorem Gathered.framingConflict_iff {fields : List Field} {scan : HeaderScan}
    (gathered : Gathered fields scan) :
    FramingConflict fields ↔ (scan.chunked && scan.contentLength.isSome) = true := by
  have lengths : scan.contentLength.isSome = true ↔
      ∃ field ∈ fields, field.isContentLength = true := by
    rw [Option.isSome_iff_ne_none]
    constructor
    · exact gathered.announced
    · intro present missing
      obtain ⟨field, member, named⟩ := present
      obtain ⟨same, readable⟩ := gathered.lengths field member named
      exact readable (same.trans missing)
  rw [FramingConflict, or_iff_right gathered.not_lengthConflict, Bool.and_eq_true, lengths,
    gathered.framedBy.coding, and_comm]

variable {parse : Tokenizer}

namespace CompletedBlock

theorem outcome (block : CompletedBlock parse) :
    (FramingConflict block.request.headers ∧ tryParseHeaders parse block.buf = .error ()) ∨
      (¬FramingConflict block.request.headers ∧
        ∃ result, tryParseHeaders parse block.buf = .ok (some result) ∧
          FramedBy block.request.headers result.contentLength result.chunked) := by
  unfold tryParseHeaders
  rw [block.completed]
  dsimp only
  rcases scanFields_gathers block.request.headers with ⟨scan, scanned, gathered⟩ | ⟨failed, conflict⟩
  · rw [scanned]
    dsimp only
    by_cases both : (scan.chunked && scan.contentLength.isSome) = true
    · rw [if_pos both]
      exact .inl ⟨gathered.framingConflict_iff.mpr both, rfl⟩
    · rw [if_neg both]
      exact .inr ⟨fun conflict => both (gathered.framingConflict_iff.mp conflict), _, rfl,
        gathered.framedBy⟩
  · rw [failed]
    exact .inl ⟨.inl conflict, rfl⟩

theorem rejected_iff (block : CompletedBlock parse) :
    tryParseHeaders parse block.buf = .error () ↔ FramingConflict block.request.headers := by
  rcases block.outcome with ⟨conflict, failed⟩ | ⟨free, result, accepted, framed⟩
  · exact iff_of_true failed conflict
  · rw [accepted]
    exact iff_of_false nofun free

theorem framedBy {block : CompletedBlock parse} {result : HeaderParseResult}
    (accepted : tryParseHeaders parse block.buf = .ok (some result)) :
    FramedBy block.request.headers result.contentLength result.chunked := by
  rcases block.outcome with ⟨conflict, failed⟩ | ⟨free, other, same, framed⟩
  · rw [failed] at accepted
    cases accepted
  · rw [same] at accepted
    cases accepted
    exact framed

end CompletedBlock

/-! ### Order and letter case -/

def Field.Recased (left right : Field) : Prop :=
  nameIs left.1 right.1 = true ∧
    left.2.map toAsciiLowercase = right.2.map toAsciiLowercase

def Rearranged (left right : List Field) : Prop :=
  ∃ middle, left.Perm middle ∧ List.Forall₂ Field.Recased middle right

namespace Field.Recased

variable {left right : Field} (recased : Field.Recased left right)
include recased

theorem nameIs_eq (expected : String) : nameIs left.1 expected = nameIs right.1 expected := by
  have named : left.1.toList.map Char.toLower = right.1.toList.map Char.toLower :=
    eq_of_beq recased.1
  rw [nameIs, nameIs, eqIgnoreAsciiCase, eqIgnoreAsciiCase, named]

theorem value_eq :
    (trim (fromUtf8Lossy left.2)).map Char.toLower =
      (trim (fromUtf8Lossy right.2)).map Char.toLower := by
  rw [← trim_toLower, ← trim_toLower, fromUtf8Lossy_recased recased.2]

theorem isContentLength_eq : left.isContentLength = right.isContentLength :=
  recased.nameIs_eq "content-length"

theorem length?_eq : left.length? = right.length? := by
  rw [Field.length?, Field.length?, ← usizeFromStrRadix_toLower, recased.value_eq,
    usizeFromStrRadix_toLower]

theorem announcesChunked_eq : left.announcesChunked = right.announcesChunked := by
  rw [Field.announcesChunked, Field.announcesChunked, Field.isTransferEncoding,
    Field.isTransferEncoding, recased.nameIs_eq, eqIgnoreAsciiCase, eqIgnoreAsciiCase,
    recased.value_eq]

end Field.Recased

theorem exists_of_forall₂ {α β : Type} {related : α → β → Prop} {left : List α} {right : List β}
    (pairs : List.Forall₂ related left right) {item : α} (member : item ∈ left) :
    ∃ other ∈ right, related item other := by
  induction pairs with
  | nil => cases member
  | cons pair _ ih =>
      rcases List.mem_cons.mp member with here | later
      · exact ⟨_, List.mem_cons_self, here ▸ pair⟩
      · obtain ⟨other, found, same⟩ := ih later
        exact ⟨other, List.mem_cons_of_mem _ found, same⟩

namespace Rearranged

variable {left right : List Field} (rearranged : Rearranged left right)
include rearranged

theorem exists_iff {property : Field → Prop}
    (invariant : ∀ {first second}, Field.Recased first second →
      (property first ↔ property second)) :
    (∃ field ∈ left, property field) ↔ ∃ field ∈ right, property field := by
  obtain ⟨middle, permuted, recased⟩ := rearranged
  constructor
  · intro present
    obtain ⟨field, member, holds⟩ := present
    obtain ⟨other, found, same⟩ := exists_of_forall₂ recased (permuted.mem_iff.mp member)
    exact ⟨other, found, (invariant same).mp holds⟩
  · intro present
    obtain ⟨field, member, holds⟩ := present
    obtain ⟨other, found, same⟩ := exists_of_forall₂ recased.flip member
    exact ⟨other, permuted.mem_iff.mpr found, (invariant same).mpr holds⟩

theorem lengthConflict_iff : LengthConflict left ↔ LengthConflict right := by
  apply or_congr
  · apply rearranged.exists_iff
    intro first second recased
    rw [recased.isContentLength_eq, recased.length?_eq]
  · -- the second field of the pair is moved for a fixed first one
    have moved : ∀ first : Field,
        (∃ second ∈ left, first.isContentLength = true ∧ second.isContentLength = true ∧
          first.length? ≠ second.length?) ↔
        ∃ second ∈ right, first.isContentLength = true ∧ second.isContentLength = true ∧
          first.length? ≠ second.length? := by
      intro first
      apply rearranged.exists_iff
      intro second third recased
      rw [recased.isContentLength_eq, recased.length?_eq]
    simp only [moved]
    apply rearranged.exists_iff
    intro first second recased
    rw [recased.isContentLength_eq, recased.length?_eq]

theorem framingConflict_iff : FramingConflict left ↔ FramingConflict right := by
  apply or_congr rearranged.lengthConflict_iff
  apply and_congr
  · apply rearranged.exists_iff
    intro first second recased
    rw [recased.isContentLength_eq]
  · apply rearranged.exists_iff
    intro first second recased
    rw [recased.announcesChunked_eq]

theorem framedBy {contentLength : Option Nat} {chunked : Bool}
    (framed : FramedBy right contentLength chunked) : FramedBy left contentLength chunked := by
  constructor
  · intro value
    rw [framed.length]
    apply (rearranged.exists_iff _).symm
    intro first second recased
    rw [recased.isContentLength_eq, recased.length?_eq]
  · rw [framed.coding]
    apply (rearranged.exists_iff _).symm
    intro first second recased
    rw [recased.announcesChunked_eq]

end Rearranged

theorem FramedBy.unique {fields : List Field} {first second : HeaderParseResult}
    (firstFramed : FramedBy fields first.contentLength first.chunked)
    (secondFramed : FramedBy fields second.contentLength second.chunked) :
    (first.contentLength, first.chunked) = (second.contentLength, second.chunked) := by
  have lengths : first.contentLength = second.contentLength := by
    apply Option.ext
    intro value
    rw [firstFramed.length, secondFramed.length]
  have codings : first.chunked = second.chunked := by
    rw [Bool.eq_iff_iff, firstFramed.coding, secondFramed.coding]
  rw [lengths, codings]

def framing (parsed : Except Unit (Option HeaderParseResult)) :
    Except Unit (Option (Option Nat × Bool)) :=
  parsed.map fun block => block.map fun result => (result.contentLength, result.chunked)

theorem CompletedBlock.framing_rearranged {block other : CompletedBlock parse}
    (rearranged : Rearranged block.request.headers other.request.headers) :
    framing (tryParseHeaders parse block.buf) = framing (tryParseHeaders parse other.buf) := by
  rcases block.outcome with ⟨conflict, failed⟩ | ⟨free, result, accepted, framed⟩
  · rw [failed, other.rejected_iff.mpr (rearranged.framingConflict_iff.mp conflict)]
  · rcases other.outcome with ⟨conflict, _⟩ | ⟨_, otherResult, alsoAccepted, otherFramed⟩
    · exact absurd (rearranged.framingConflict_iff.mpr conflict) free
    · rw [accepted, alsoAccepted]
      exact congrArg (fun pair => Except.ok (some pair))
        (framed.unique (rearranged.framedBy otherFramed))

/-- A completed block is rejected exactly if its framing fields are in conflict.  Otherwise
the length is the common value of its Content-Length fields and the coding is chunked
exactly if a Transfer-Encoding field is just that.  Neither order nor letter case of the
fields matters. -/
theorem framing_of_completed_block (block : CompletedBlock parse) :
    (tryParseHeaders parse block.buf = .error () ↔ FramingConflict block.request.headers) ∧
      (¬FramingConflict block.request.headers →
        ∃ result, tryParseHeaders parse block.buf = .ok (some result) ∧
          FramedBy block.request.headers result.contentLength result.chunked) ∧
      ∀ other : CompletedBlock parse,
        Rearranged block.request.headers other.request.headers →
          framing (tryParseHeaders parse block.buf) =
            framing (tryParseHeaders parse other.buf) := by
  refine ⟨block.rejected_iff, ?_, fun other rearranged => CompletedBlock.framing_rearranged rearranged⟩
  intro free
  rcases block.outcome with ⟨conflict, _⟩ | ⟨_, accepted⟩
  · exact absurd conflict free
  · exact accepted

/-! ### Lists of codings -/

def trimOws (text : List Char) : List Char :=
  let blank := fun character : Char => character == ' ' || character == '\t'
  ((text.dropWhile blank).reverse.dropWhile blank).reverse

/-- The transfer codings of a block in the order in which they were applied: every
Transfer-Encoding field is a list, and empty elements do not count. -/
def transferCodings (fields : List Field) : List (List Char) :=
  ((fields.filter Field.isTransferEncoding).flatMap fun field =>
    ((fromUtf8Lossy field.2).splitOn ',').map trimOws).filter (· ≠ [])

def finallyChunked (fields : List Field) : Bool :=
  (transferCodings fields).getLast?.any fun coding => eqIgnoreAsciiCase coding "chunked".toList

/-- A completed block whose final transfer coding is chunked. -/
structure ChunkedBlock (parse : Tokenizer) extends CompletedBlock parse where
  final : finallyChunked request.headers = true

/-- The chunked coding is not ignored: an accepted block is framed by it, and a length
beside it is an error. -/
def ChunkedBlock.Respected (block : ChunkedBlock parse) : Prop :=
  (∀ result, tryParseHeaders parse block.buf = .ok (some result) →
      result.chunked = true ∧
        BodyFraming.start result.contentLength result.chunked = .chunkedSize) ∧
    ((∃ field ∈ block.request.headers, Field.isContentLength field = true) →
      tryParseHeaders parse block.buf = .error ())

/-- The coding is respected exactly if a field has `chunked` as its whole value, unless the
lengths alone are reason to reject the block. -/
theorem chunked_respected_iff (block : ChunkedBlock parse) :
    block.Respected ↔
      (∃ field ∈ block.request.headers, Field.announcesChunked field = true) ∨
        LengthConflict block.request.headers := by
  have rejected := block.toCompletedBlock.rejected_iff
  constructor
  · intro respected
    rcases block.toCompletedBlock.outcome with ⟨conflict, _⟩ | ⟨_, result, accepted, framed⟩
    · rcases conflict with lengths | ⟨_, coding⟩
      · exact .inr lengths
      · exact .inl coding
    · exact .inl (framed.coding.mp (respected.1 result accepted).1)
  · intro seen
    rcases seen with coding | lengths
    · constructor
      · intro result accepted
        have chunked : result.chunked = true :=
          (CompletedBlock.framedBy accepted).coding.mpr coding
        rw [chunked]
        exact ⟨rfl, rfl⟩
      · intro length
        exact rejected.mpr (.inr ⟨length, coding⟩)
    · have failed := rejected.mpr (.inl lengths)
      constructor
      · intro result accepted
        rw [failed] at accepted
        cases accepted
      · intro _
        exact failed

/-- A request whose body is compressed and then chunked, and that also has a length. -/
def compressedRequest : RawRequest :=
  { method := some "POST"
    path := some "/"
    headers := [("Transfer-Encoding", asciiBytes "gzip, chunked"),
      ("Content-Length", asciiBytes "5")] }

def compressedBlock : List UInt8 :=
  asciiBytes "POST / HTTP/1.1\r\nTransfer-Encoding: gzip, chunked\r\nContent-Length: 5\r\n\r\n"

def compressedTokenizer : Tokenizer :=
  Httparse.single compressedBlock (by decide +kernel) compressedRequest

def compressed : ChunkedBlock compressedTokenizer :=
  { buf := compressedBlock
    consumed := compressedBlock.length
    request := compressedRequest
    completed := Httparse.single_parse compressedBlock (by decide +kernel) compressedRequest maxHeaders
    final := by decide +kernel }

theorem compressed_framed_by_length :
    framing (tryParseHeaders compressedTokenizer compressed.buf) = .ok (some (some 5, false)) ∧
      BodyFraming.start (some 5) false = .contentLength 5 ∧ ¬compressed.Respected := by
  have parsed : framing (tryParseHeaders compressedTokenizer compressed.buf) =
      .ok (some (some 5, false)) := by
    decide +kernel
  refine ⟨parsed, rfl, ?_⟩
  intro respected
  have announced : ∃ field ∈ compressed.request.headers, Field.isContentLength field = true := by
    decide +kernel
  rw [respected.2 announced] at parsed
  cases parsed

end NetPolicy.Http
