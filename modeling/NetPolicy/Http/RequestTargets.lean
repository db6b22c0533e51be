/-
Building a request target and reading it back.

A target in absolute form is a scheme, a host, an optional port, a path and an optional
query; one in origin form is a path and an optional query.  The parser ends the authority
at the first slash, not at the query: it gives host and path back for every origin form,
and for an absolute form unless a query follows an empty path.
-/

import NetPolicy.Http.HeaderParser

namespace NetPolicy.Http

/-! ### Targets -/

inductive Scheme where
  | http
  | https
deriving DecidableEq, Repr

def Scheme.text : Scheme → List Char
  | .http => "http://".toList
  | .https => "https://".toList

structure HostName where
  text : List Char
  nonempty : text ≠ []
  plain : ∀ separator ∈ ['/', ':', '?', '#', '@'], separator ∉ text

structure PortNumber where
  text : List Char
  nonempty : text ≠ []
  decimal : ∀ character ∈ text, character.isDigit = true

structure TargetPath where
  text : List Char
  rooted : text = [] ∨ ∃ rest, text = '/' :: rest
  plain : '?' ∉ text ∧ '#' ∉ text

def portText : Option PortNumber → List Char
  | none => []
  | some port => ':' :: port.text

def queryText : Option (List Char) → List Char
  | none => []
  | some query => '?' :: query

structure AbsoluteTarget where
  scheme : Scheme
  host : HostName
  port : Option PortNumber
  path : TargetPath
  query : Option (List Char)

def AbsoluteTarget.body (target : AbsoluteTarget) : List Char :=
  target.host.text ++ portText target.port ++ (target.path.text ++ queryText target.query)

def AbsoluteTarget.text (target : AbsoluteTarget) : String :=
  String.ofList (target.scheme.text ++ target.body)

structure OriginTarget where
  path : TargetPath
  query : Option (List Char)

def OriginTarget.text (target : OriginTarget) : String :=
  String.ofList (target.path.text ++ queryText target.query)

/-! ### Where the authority and the path end -/

theorem drop_before (separator : Char) (text : List Char) :
    text.drop (before separator text).length = text.dropWhile (· ≠ separator) := by
  have split : before separator text ++ text.dropWhile (· ≠ separator) = text :=
    List.takeWhile_append_dropWhile
  calc text.drop (before separator text).length
      = (before separator text ++ text.dropWhile (· ≠ separator)).drop
          (before separator text).length := by rw [split]
    _ = text.dropWhile (· ≠ separator) := List.drop_left

theorem before_append {separator : Char} {text : List Char} (free : separator ∉ text)
    (rest : List Char) : before separator (text ++ rest) = text ++ before separator rest :=
  List.takeWhile_append_of_pos fun _ member => decide_eq_true fun same => free (same ▸ member)

theorem before_cons {separator character : Char} (other : character ≠ separator)
    (rest : List Char) :
    before separator (character :: rest) = character :: before separator rest :=
  List.takeWhile_cons_of_pos (decide_eq_true other)

theorem stripScheme_text (scheme : Scheme) (rest : List Char) :
    stripScheme (scheme.text ++ rest) = some rest := by
  cases scheme with
  | http =>
      change stripScheme ("http://".toList ++ rest) = some rest
      simp [stripScheme, List.dropPrefix?]
  | https =>
      change stripScheme ("https://".toList ++ rest) = some rest
      simp [stripScheme, List.dropPrefix?]

theorem parseRequestTarget_absolute (scheme : Scheme) (rest : List Char) :
    parseRequestTarget (String.ofList (scheme.text ++ rest)) =
      { host := String.ofList (before ':' (before '/' rest))
        path := String.ofList (before '?' (rest.dropWhile (· ≠ '/'))) } := by
  rw [parseRequestTarget, String.toList_ofList, stripScheme_text]
  dsimp only
  rw [drop_before]

theorem dropWhile_of_not_mem {separator : Char} {text : List Char} (free : separator ∉ text) :
    text.dropWhile (· ≠ separator) = [] :=
  List.dropWhile_eq_nil_iff.mpr fun _ member => decide_eq_true fun same => free (same ▸ member)

theorem dropWhile_append_of_not_mem {separator : Char} {text : List Char}
    (free : separator ∉ text) (rest : List Char) :
    (text ++ rest).dropWhile (· ≠ separator) = rest.dropWhile (· ≠ separator) :=
  List.dropWhile_append_of_pos fun _ member => decide_eq_true fun same => free (same ▸ member)

theorem before_dropWhile_ne_nil {separator other : Char} (different : separator ≠ other)
    {text : List Char} (present : separator ∈ text) :
    before other (text.dropWhile (· ≠ separator)) ≠ [] := by
  induction text with
  | nil => cases present
  | cons character rest ih =>
      by_cases same : character = separator
      · rw [List.dropWhile_cons_of_neg (by simp [same]), same, before_cons different]
        exact List.cons_ne_nil _ _
      · rw [List.dropWhile_cons_of_pos (by simp [same])]
        exact ih ((List.mem_cons.mp present).resolve_left fun equal => same equal.symm)

/-! ### The parts of a target -/

theorem slash_not_mem_authority (host : HostName) (port : Option PortNumber) :
    '/' ∉ host.text ++ portText port := by
  intro member
  rcases List.mem_append.mp member with inHost | inPort
  · exact host.plain '/' (by simp) inHost
  · cases port with
    | none => cases inPort
    | some port =>
        rcases List.mem_cons.mp inPort with colon | inDigits
        · cases colon
        · have digit := port.decimal '/' inDigits
          revert digit
          decide

theorem before_colon_authority (host : HostName) (port : Option PortNumber) :
    before ':' (host.text ++ portText port) = host.text := by
  have colonless : ':' ∉ host.text := host.plain ':' (by simp)
  cases port with
  | none => rw [portText, List.append_nil, before_of_not_mem colonless]
  | some port => exact before_separator colonless port.text

theorem before_question_path (path : TargetPath) (query : Option (List Char)) :
    before '?' (path.text ++ queryText query) = path.text := by
  cases query with
  | none => rw [queryText, List.append_nil, before_of_not_mem path.plain.1]
  | some query => exact before_separator path.plain.1 query

namespace AbsoluteTarget

/-- The target in the parser's eyes: host and path of what is behind the scheme. -/
def ReadsBack (target : AbsoluteTarget) : Prop :=
  before ':' (before '/' target.body) = target.host.text ∧
    before '?' (target.body.dropWhile (· ≠ '/')) = target.path.text

theorem parseRequestTarget_text_iff (target : AbsoluteTarget) :
    parseRequestTarget target.text =
        { host := String.ofList target.host.text, path := String.ofList target.path.text } ↔
      target.ReadsBack := by
  rw [text, parseRequestTarget_absolute, RequestTarget.mk.injEq, String.ofList_inj,
    String.ofList_inj]
  rfl

variable {target : AbsoluteTarget}

theorem readsBack_of_path {rest : List Char} (rooted : target.path.text = '/' :: rest) :
    target.ReadsBack := by
  have slashless := slash_not_mem_authority target.host target.port
  have body : target.body = target.host.text ++ portText target.port ++
      '/' :: (rest ++ queryText target.query) := by
    rw [AbsoluteTarget.body, rooted, List.cons_append]
  constructor
  · rw [body, before_separator slashless, before_colon_authority]
  · rw [body, dropWhile_append_of_not_mem slashless, List.dropWhile_cons_of_neg (by simp),
      ← List.cons_append, ← rooted, before_question_path]

theorem readsBack_of_no_query (empty : target.path.text = []) (none : target.query = none) :
    target.ReadsBack := by
  have slashless := slash_not_mem_authority target.host target.port
  have body : target.body = target.host.text ++ portText target.port := by
    rw [AbsoluteTarget.body, empty, none, queryText, List.nil_append, List.append_nil]
  constructor
  · rw [body, before_of_not_mem slashless, before_colon_authority]
  · rw [body, dropWhile_of_not_mem slashless, empty]
    rfl

/-- With an empty path the query is read as part of the authority, up to its first slash,
and as the path from there on. -/
theorem readsBack_iff_of_query {query : List Char} (empty : target.path.text = [])
    (asked : target.query = some query) :
    target.ReadsBack ↔ target.port.isSome = true ∧ '/' ∉ query := by
  have slashless := slash_not_mem_authority target.host target.port
  have body : target.body = target.host.text ++ portText target.port ++ '?' :: query := by
    rw [AbsoluteTarget.body, empty, asked, queryText, List.nil_append]
  have authority : before '/' target.body =
      target.host.text ++ portText target.port ++ '?' :: before '/' query := by
    rw [body, before_append slashless, before_cons (by decide)]
  have path : before '?' (target.body.dropWhile (· ≠ '/')) = target.path.text ↔ '/' ∉ query := by
    rw [body, dropWhile_append_of_not_mem slashless, List.dropWhile_cons_of_pos (by decide), empty]
    constructor
    · intro nothing present
      exact before_dropWhile_ne_nil (by decide) present nothing
    · intro free
      rw [dropWhile_of_not_mem free]
      rfl
  have colonless : ':' ∉ target.host.text := target.host.plain ':' (by simp)
  have host : before ':' (before '/' target.body) = target.host.text ↔
      target.port.isSome = true := by
    rw [authority]
    cases target.port with
    | none =>
        rw [portText, List.append_nil, before_append colonless, before_cons (by decide)]
        simp
    | some port =>
        rw [portText, List.append_assoc, List.cons_append, before_separator colonless]
        simp
  exact and_congr host path

theorem readsBack_iff (target : AbsoluteTarget) :
    target.ReadsBack ↔ target.path.text ≠ [] ∨ target.query = none ∨
      (target.port.isSome = true ∧ ∀ query, target.query = some query → '/' ∉ query) := by
  rcases target.path.rooted with empty | ⟨rest, rooted⟩
  · cases asked : target.query with
    | none => simp [readsBack_of_no_query empty asked]
    | some query => simp [readsBack_iff_of_query empty asked, empty]
  · simp [readsBack_of_path rooted, rooted]

end AbsoluteTarget

/-! ### Both forms -/

theorem parseRequestTarget_origin_text (target : OriginTarget) :
    parseRequestTarget target.text = { host := "", path := String.ofList target.path.text } := by
  have schemeless : stripScheme (target.path.text ++ queryText target.query) = none := by
    rcases target.path.rooted with empty | ⟨rest, rooted⟩
    · rw [empty]
      cases target.query with
      | none => rfl
      | some query => rfl
    · rw [rooted]
      rfl
  rw [parseRequestTarget, OriginTarget.text, String.toList_ofList, schemeless]
  dsimp only
  rw [before_question_path]

/-- Parsing inverts the building of an absolute form exactly if the path is not empty, or
there is no query, or a port stands before a query without a slash; it inverts the building
of every origin form. -/
theorem parseRequestTarget_inverts_iff (target : AbsoluteTarget) (origin : OriginTarget) :
    (parseRequestTarget target.text =
          { host := String.ofList target.host.text, path := String.ofList target.path.text } ↔
        target.path.text ≠ [] ∨ target.query = none ∨
          (target.port.isSome = true ∧
            ∀ query, target.query = some query → '/' ∉ query)) ∧
      parseRequestTarget origin.text =
        { host := "", path := String.ofList origin.path.text } :=
  ⟨target.parseRequestTarget_text_iff.trans target.readsBack_iff,
    parseRequestTarget_origin_text origin⟩

def AbsoluteTarget.searching : AbsoluteTarget :=
  { scheme := .http
    host := { text := "shop".toList, nonempty := by decide, plain := by simp }
    port := none
    path := { text := [], rooted := .inl rfl, plain := by simp }
    query := some "q=a/b".toList }

theorem parseRequestTarget_searching :
    parseRequestTarget AbsoluteTarget.searching.text = { host := "shop?q=a", path := "/b" } ∧
      AbsoluteTarget.searching.host.text = "shop".toList ∧
      AbsoluteTarget.searching.path.text = [] := by
  decide

end NetPolicy.Http
