/-
One request as HTTP/1 and as HTTP/2.

The HTTP/1 codec cuts the query off the target and everything from the last colon on off
the Host field; the HTTP/2 codec hands `:path` and `:authority` on as they are.  So the
two versions of a request give the policy the same header exactly if it has no query, no
port and no colon in its host, and otherwise some rule list tells them apart.
-/

import NetPolicy.Daemon.Store
import NetPolicy.Http.Http2Requests
import NetPolicy.Http.Pipelining

namespace NetPolicy.Daemon

open NetPolicy.Http RustText

/-! ### Requests and their two forms -/

structure OriginRequest where
  method : String
  host : String
  port : Option String
  path : String
  query : Option String
  absolute : path.toList.head? = some '/'
  unqueried : '?' ∉ path.toList

namespace OriginRequest

def target (request : OriginRequest) : String :=
  match request.query with
  | none => request.path
  | some query => request.path ++ "?" ++ query

def authority (request : OriginRequest) : String :=
  match request.port with
  | none => request.host
  | some port => request.host ++ ":" ++ port

/-- Neither a query nor a port nor a colon in the host. -/
def Bare (request : OriginRequest) : Prop :=
  request.query = none ∧ request.port = none ∧ ':' ∉ request.host.toList

end OriginRequest

/-- The request as an HTTP/1 message: the tokenizer reports its method, its target and its
fields, of which the first Host field has the authority. -/
structure Http1Form (httparse : Httparse) (request : OriginRequest) where
  message : Message httparse
  fields : List (String × List UInt8)
  complete : httparse.parse maxHeaders message.block =
    .complete message.block.length ⟨some request.method, some request.target, fields⟩
  name : String
  named : fields.find? (fun field => nameIs field.1 "host") =
    some (name, toUtf8 request.authority.toList)

/-- The request as an HTTP/2 header block, received at the start of a session. -/
structure Http2Form (nghttp2 : Nghttp2) (request : OriginRequest) where
  stream : List UInt8
  head : RequestHead
  method : head.method = request.method
  path : head.path = request.target
  authority : head.authority = request.authority
  received : nghttp2.recv [] stream = (head.fields, false)

/-! ### What the codecs make of them -/

theorem OriginRequest.target_absolute (request : OriginRequest) :
    ∃ rest, request.target.toList = '/' :: rest := by
  obtain ⟨rest, shape⟩ := List.head?_eq_some_iff.mp request.absolute
  unfold target
  cases request.query with
  | none => exact ⟨rest, shape⟩
  | some query => exact ⟨rest ++ '?' :: query.toList, by simp [shape]⟩

theorem OriginRequest.before_target (request : OriginRequest) :
    String.ofList (before '?' request.target.toList) = request.path := by
  unfold target
  cases request.query with
  | none => rw [before_of_not_mem request.unqueried, String.ofList_toList]
  | some query =>
      have shape : (request.path ++ "?" ++ query).toList = request.path.toList ++ '?' :: query.toList := by
        simp
      rw [shape, before_separator request.unqueried, String.ofList_toList]

theorem Http1Form.parsed_eq {httparse : Httparse} {request : OriginRequest}
    (form : Http1Form httparse request) :
    form.message.parsed.method = request.method ∧ form.message.parsed.path = request.path ∧
      form.message.parsed.host = String.ofList (beforeLastColon request.authority.toList) := by
  obtain ⟨rest, absolute⟩ := request.target_absolute
  have accepted := form.message.accepted
  unfold tryParseHeaders at accepted
  rw [form.complete] at accepted
  simp only [Option.getD_some, parseRequestTarget_origin absolute, request.before_target] at accepted
  cases scanned : scanFields form.fields with
  | error =>
      rw [scanned] at accepted
      cases accepted
  | ok scan =>
      rw [scanned] at accepted
      dsimp only at accepted
      split at accepted
      · cases accepted
      have parsed := Option.some.inj (Except.ok.inj accepted)
      have hostField : scan.fields.find? (fun field => nameIs field.1 "host") =
          some (form.name, request.authority) := by
        rw [scanFields_fields scanned, List.find?_map]
        change (form.fields.find? fun field => nameIs field.1 "host").map _ = _
        rw [form.named, Option.map_some, fromUtf8Lossy_toUtf8, String.ofList_toList]
      have resolved : resolveHost "" scan.fields =
          String.ofList (beforeLastColon request.authority.toList) := by
        rw [resolveHost, if_neg (fun differs => differs rfl), hostField]
      rw [← parsed]
      exact ⟨rfl, rfl, resolved⟩

theorem Http1Form.header_eq {libraries : Libraries} {request : OriginRequest}
    (form : Http1Form libraries.httparse request) :
    (Http1Codec.new.dispatch libraries form.message.bytes).header =
      { method := request.method
        path := request.path
        host := String.ofList (beforeLastColon request.authority.toList)
        parseState := .done } := by
  obtain ⟨method, path, host⟩ := form.parsed_eq
  obtain ⟨failed, returned⟩ := dispatch_messages libraries.httparse.stable [form.message]
    (List.cons_ne_nil _ _)
  rw [List.flatMap_cons, List.flatMap_nil, List.append_nil, List.getLast_singleton] at returned
  have call : Http1Codec.new.parser.dispatch libraries.httparse form.message.bytes = _ := returned
  rw [Http1Codec.dispatch, call, ← method, ← path, ← host]
  rfl

theorem newest_of_filter {name value : String} {events : List HeaderEvent}
    (only : events.filter (fun event => event.name == name) = [⟨name, value⟩]) :
    newest name events = some value := by
  rw [newest, only]
  rfl

theorem Http2Form.header_eq {libraries : Libraries} {request : OriginRequest}
    (form : Http2Form libraries.nghttp2 request) :
    let header := (Http2Codec.new.dispatch libraries form.stream).header
    header.method = request.method ∧ header.path = request.target ∧
      header.host = request.authority := by
  obtain ⟨method, path, host⟩ := foldl_onHeader_values form.head.fields Header.blank
  rw [newest_of_filter form.head.hasMethod, Option.getD_some, form.method] at method
  rw [newest_of_filter form.head.hasPath, Option.getD_some, form.path] at path
  rw [newest_of_filter form.head.hasAuthority, Option.getD_some, form.authority] at host
  have call : (Http2Codec.new.dispatch libraries form.stream).header =
      form.head.fields.foldl Header.onHeader Header.blank := by
    have fresh : ¬Http2Codec.new.header.isComplete = true := by decide
    have received : libraries.nghttp2.recv Http2Codec.new.received form.stream =
        (form.head.fields, false) := form.received
    rw [Http2Codec.dispatch, if_neg fresh, received]
    rfl
  rw [call]
  exact ⟨method, path, host⟩

/-! ### The two headers -/

theorem OriginRequest.path_eq_target_iff (request : OriginRequest) :
    request.path = request.target ↔ request.query = none := by
  unfold target
  cases request.query with
  | none => exact iff_of_true rfl rfl
  | some query =>
      refine iff_of_false ?_ (Option.some_ne_none query)
      intro same
      have lengths := congrArg (fun text => text.toList.length) same
      simp at lengths

theorem OriginRequest.host_eq_authority_iff (request : OriginRequest) :
    String.ofList (beforeLastColon request.authority.toList) = request.authority ↔
      request.port = none ∧ ':' ∉ request.host.toList := by
  have texts : String.ofList (beforeLastColon request.authority.toList) = request.authority ↔
      beforeLastColon request.authority.toList = request.authority.toList := by
    rw [← String.toList_inj, String.toList_ofList]
  rw [texts, beforeLastColon_eq_iff]
  unfold authority
  cases request.port with
  | none => simp
  | some port => simp

theorem eq_of_conditions {left right : String}
    (same : ∀ wanted, (wanted == "" || wanted == left) = (wanted == "" || wanted == right)) :
    left = right := by
  by_cases empty : left = ""
  · have found := same right
    rw [beq_self_eq_true, Bool.or_true, Bool.or_eq_true, beq_iff_eq, beq_iff_eq] at found
    rcases found with none | equal
    · rw [empty, none]
    · exact equal.symm
  · have found := (same left).symm
    rw [beq_self_eq_true, Bool.or_true, Bool.or_eq_true, beq_iff_eq, beq_iff_eq] at found
    rcases found with none | equal
    · exact absurd none empty
    · exact equal

/-- Rule lists see the three values of a header and nothing else. -/
theorem sameAnswers_iff (one two : Header) :
    (∀ rules, matchHttpPolicyRule rules one = matchHttpPolicyRule rules two) ↔
      one.method = two.method ∧ one.path = two.path ∧ one.host = two.host := by
  constructor
  · intro same
    have covered (host method path : String) :
        let rule : HttpRuleInfo := ⟨.ingress, .deny, host, method, path⟩
        rule.covers one = rule.covers two := by
      intro rule
      have answers := same [rule]
      unfold matchHttpPolicyRule at answers
      cases first : rule.covers one <;> cases second : rule.covers two <;>
        simp [first, second, rule] at answers ⊢
    refine ⟨eq_of_conditions fun wanted => ?_, eq_of_conditions fun wanted => ?_,
      eq_of_conditions fun wanted => ?_⟩
    · simpa [HttpRuleInfo.covers] using covered "" wanted ""
    · simpa [HttpRuleInfo.covers] using covered "" "" wanted
    · simpa [HttpRuleInfo.covers] using covered wanted "" ""
  · intro same rules
    have covered : (fun rule : HttpRuleInfo => rule.covers one) = fun rule => rule.covers two := by
      funext rule
      rw [HttpRuleInfo.covers, HttpRuleInfo.covers, same.1, same.2.1, same.2.2]
    rw [matchHttpPolicyRule, matchHttpPolicyRule, covered]

/-- The two versions of a request give the policy the same header, and so the same answer
for every rule list, exactly if the request has no query, no port and no colon in its
host. -/
theorem versions_agree_iff {libraries : Libraries} {request : OriginRequest}
    (first : Http1Form libraries.httparse request)
    (second : Http2Form libraries.nghttp2 request) :
    let one := (Http1Codec.new.dispatch libraries first.message.bytes).header
    let two := (Http2Codec.new.dispatch libraries second.stream).header
    ((one.method = two.method ∧ one.path = two.path ∧ one.host = two.host) ↔ request.Bare) ∧
      ((∀ rules, matchHttpPolicyRule rules one = matchHttpPolicyRule rules two) ↔
        request.Bare) := by
  intro one two
  obtain ⟨method, path, host⟩ := second.header_eq
  have values : (one.method = two.method ∧ one.path = two.path ∧ one.host = two.host) ↔
      request.Bare := by
    rw [show one = _ from first.header_eq, show two.method = _ from method,
      show two.path = _ from path, show two.host = _ from host]
    dsimp only
    rw [request.path_eq_target_iff, request.host_eq_authority_iff, OriginRequest.Bare]
    exact and_iff_right rfl
  exact ⟨values, (sameAnswers_iff one two).trans values⟩

/-! ### A request in both forms -/

section Forms

variable (request : OriginRequest) (block : List UInt8) (nonempty : 0 < block.length)

def formLibraries : Libraries where
  httparse := Httparse.single block nonempty
    ⟨some request.method, some request.target, [("Host", toUtf8 request.authority.toList)]⟩
  llhttp := postLibraries.llhttp
  nghttp2 := frameReader

theorem scanFields_host (value : List UInt8) :
    scanFields [("Host", value)] =
      .ok { fields := [("Host", String.ofList (fromUtf8Lossy value))]
            contentLength := none
            chunked := false } := by
  have other : nameIs "Host" "content-length" = false := by decide
  have another : nameIs "Host" "transfer-encoding" = false := by decide
  rw [scanFields, List.foldlM_cons, scanField]
  simp only [other, another, Bool.false_and, Bool.false_eq_true, if_false]
  rfl

theorem parse_formLibraries : (formLibraries request block nonempty).httparse.parse maxHeaders block =
    .complete block.length
      ⟨some request.method, some request.target, [("Host", toUtf8 request.authority.toList)]⟩ :=
  if_pos (List.prefix_refl block)

def http1Form : Http1Form (formLibraries request block nonempty).httparse request where
  message :=
    { block := block
      parsed :=
        { method := request.method
          path := request.path
          host := String.ofList (beforeLastColon request.authority.toList)
          fields := [("Host", request.authority)]
          contentLength := none
          chunked := false
          consumed := block.length }
      body := []
      accepted := by
        obtain ⟨rest, absolute⟩ := request.target_absolute
        have host : nameIs "Host" "host" = true := by decide
        rw [tryParseHeaders, parse_formLibraries]
        simp only [Option.getD_some, parseRequestTarget_origin absolute, request.before_target,
          scanFields_host, fromUtf8Lossy_toUtf8, String.ofList_toList]
        simp [resolveHost, host]
      whole := rfl
      framed := .absent rfl rfl }
  fields := [("Host", toUtf8 request.authority.toList)]
  complete := parse_formLibraries request block nonempty
  name := "Host"
  named := List.find?_cons_of_pos (show nameIs "Host" "host" = true by decide)

def http2Form (stream : List UInt8)
    (received : frameReader.recv [] stream = ([⟨":method", request.method⟩,
      ⟨":path", request.target⟩, ⟨":scheme", "http"⟩, ⟨":authority", request.authority⟩], false)) :
    Http2Form (formLibraries request block nonempty).nghttp2 request where
  stream := stream
  head :=
    { method := request.method
      path := request.target
      authority := request.authority
      fields := [⟨":method", request.method⟩, ⟨":path", request.target⟩, ⟨":scheme", "http"⟩,
        ⟨":authority", request.authority⟩]
      hasMethod := rfl
      hasPath := rfl
      hasAuthority := rfl }
  method := rfl
  path := rfl
  authority := rfl
  received := received

end Forms

def adminRequest (port query : Option String) : OriginRequest where
  method := "GET"
  host := "h"
  port := port
  path := "/admin"
  query := query
  absolute := by decide
  unqueried := by decide

def adminBlock : List UInt8 := asciiBytes "GET /admin HTTP/1.1\r\nHost: h\r\n\r\n"

def queryBlock : List UInt8 := asciiBytes "GET /admin?x=1 HTTP/1.1\r\nHost: h:80\r\n\r\n"

/-- The preface, a SETTINGS frame and the HEADERS frame of the request. -/
def adminFrames : List UInt8 :=
  http2ConnectionPreface ++ [0, 0, 0, 4, 0, 0, 0, 0, 0] ++ [0, 0, 13, 1, 5, 0, 0, 0, 1] ++
    [0x82] ++ [4, 6] ++ asciiBytes "/admin" ++ [0x86] ++ [1, 1] ++ asciiBytes "h"

def queryFrames : List UInt8 :=
  http2ConnectionPreface ++ [0, 0, 0, 4, 0, 0, 0, 0, 0] ++ [0, 0, 20, 1, 5, 0, 0, 0, 1] ++
    [0x82] ++ [4, 10] ++ asciiBytes "/admin?x=1" ++ [0x86] ++ [1, 4] ++ asciiBytes "h:80"

def adminHttp2 : Http2Form
    (formLibraries (adminRequest none none) adminBlock (by decide)).nghttp2 (adminRequest none none) :=
  http2Form (adminRequest none none) adminBlock (by decide) adminFrames (by decide +kernel)

theorem adminRequest_same_in_both :
    let request := adminRequest none none
    let libraries := formLibraries request adminBlock (by decide)
    let one := http1Form request adminBlock (by decide)
    ∀ rules, matchHttpPolicyRule rules
        (Http1Codec.new.dispatch libraries one.message.bytes).header =
      matchHttpPolicyRule rules (Http2Codec.new.dispatch libraries adminFrames).header :=
  (versions_agree_iff (http1Form (adminRequest none none) adminBlock (by decide)) adminHttp2).2.mpr
    ⟨rfl, rfl, by decide⟩

/-- With a query and a port, a rule that denies the path and one that denies the host
bind HTTP/1 and not HTTP/2. -/
theorem queryRequest_denied_in_http1_only :
    let request := adminRequest (some "80") (some "x=1")
    let libraries := formLibraries request queryBlock (by decide)
    let one := (Http1Codec.new.dispatch libraries
      (http1Form request queryBlock (by decide)).message.bytes).header
    let two := (Http2Codec.new.dispatch libraries
      (http2Form request queryBlock (by decide) queryFrames (by decide +kernel)).stream).header
    let denyPath : HttpRuleInfo := ⟨.ingress, .deny, "", "", "/admin"⟩
    let denyHost : HttpRuleInfo := ⟨.ingress, .deny, "h", "", ""⟩
    matchHttpPolicyRule [denyPath] one = .deny ∧ matchHttpPolicyRule [denyPath] two = .default ∧
      matchHttpPolicyRule [denyHost] one = .deny ∧
      matchHttpPolicyRule [denyHost] two = .default := by
  refine ⟨?_, ?_, ?_, ?_⟩ <;> decide +kernel

end NetPolicy.Daemon
