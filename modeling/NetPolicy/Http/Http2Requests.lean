/-
The requests of an HTTP/2 connection.

The codec keeps one header record for the whole connection: every header callback
overwrites it, whatever stream it is for, and once the method, the path and the
authority are there no later call gives the session anything.  So the calls return
`Done` with one header only, the values standing when the first call ends by which all
three have arrived.  Which requests are surfaced is decided by that header.
-/

import NetPolicy.Http.SegmentMemory

namespace NetPolicy.Http

/-! ### Header callbacks -/

def newest (name : String) (events : List HeaderEvent) : Option String :=
  (events.filter fun event => event.name == name).getLast?.map HeaderEvent.value

theorem newest_cons (name : String) (event : HeaderEvent) (events : List HeaderEvent) :
    newest name (event :: events) =
      (newest name events).or (if event.name = name then some event.value else none) := by
  unfold newest
  rw [List.filter_cons]
  by_cases named : event.name = name
  · rw [if_pos (beq_iff_eq.mpr named), if_pos named, List.getLast?_cons]
    cases (events.filter fun event => event.name == name).getLast? <;> rfl
  · rw [if_neg (fun same => named (beq_iff_eq.mp same)), if_neg named, Option.or_none]

def Header.recorded (header : Header) (event : HeaderEvent) : Header :=
  if event.name = ":method" then { header with method := event.value }
  else if event.name = ":path" then { header with path := event.value }
  else if event.name = ":authority" then { header with host := event.value }
  else header

def Header.settled (header : Header) : Header :=
  if header.isComplete then { header with parseState := .done } else header

theorem onHeader_eq (header : Header) (event : HeaderEvent) :
    header.onHeader event = (header.recorded event).settled := rfl

theorem Header.settled_values (header : Header) :
    header.settled.method = header.method ∧ header.settled.path = header.path ∧
      header.settled.host = header.host := by
  unfold Header.settled
  split <;> exact ⟨rfl, rfl, rfl⟩

theorem Header.recorded_parseState (header : Header) (event : HeaderEvent) :
    (header.recorded event).parseState = header.parseState := by
  unfold Header.recorded
  split
  · rfl
  split
  · rfl
  split <;> rfl

theorem onHeader_values (header : Header) (event : HeaderEvent) :
    (header.onHeader event).method =
        (if event.name = ":method" then event.value else header.method) ∧
      (header.onHeader event).path = (if event.name = ":path" then event.value else header.path) ∧
      (header.onHeader event).host =
        (if event.name = ":authority" then event.value else header.host) := by
  obtain ⟨method, path, host⟩ := (header.recorded event).settled_values
  rw [onHeader_eq, method, path, host]
  -- the three names differ, so at most one of the conditions holds
  unfold Header.recorded
  split
  · rename_i named
    rw [named]
    exact ⟨rfl, (if_neg (by decide)).symm, (if_neg (by decide)).symm⟩
  split
  · rename_i named
    rw [named]
    exact ⟨rfl, rfl, (if_neg (by decide)).symm⟩
  split <;> exact ⟨rfl, rfl, rfl⟩

theorem foldl_onHeader_values (events : List HeaderEvent) (header : Header) :
    (events.foldl Header.onHeader header).method = (newest ":method" events).getD header.method ∧
      (events.foldl Header.onHeader header).path = (newest ":path" events).getD header.path ∧
      (events.foldl Header.onHeader header).host =
        (newest ":authority" events).getD header.host := by
  induction events generalizing header with
  | nil => exact ⟨rfl, rfl, rfl⟩
  | cons event rest ih =>
      have latest (name old : String) : (newest name rest).getD
          (if event.name = name then event.value else old) =
            (newest name (event :: rest)).getD old := by
        rw [newest_cons]
        cases newest name rest with
        | some value => rfl
        | none => by_cases named : event.name = name <;> simp [named]
      obtain ⟨method, path, host⟩ := onHeader_values header event
      rw [List.foldl_cons, (ih _).1, (ih _).2.1, (ih _).2.2, method, path, host, latest, latest,
        latest]
      exact ⟨rfl, rfl, rfl⟩

def headerOf (events : List HeaderEvent) : Header := events.foldl Header.onHeader Header.blank

def known (events : List HeaderEvent) : Bool :=
  (newest ":method" events).isSome && (newest ":path" events).isSome &&
    (newest ":authority" events).isSome

def pseudoFields : List String := [":method", ":path", ":authority"]

def Filled (events : List HeaderEvent) : Prop :=
  ∀ event ∈ events, event.name ∈ pseudoFields → event.value ≠ ""

theorem newest_mem {name value : String} {events : List HeaderEvent}
    (found : newest name events = some value) : ⟨name, value⟩ ∈ events := by
  unfold newest at found
  obtain ⟨event, last, rfl⟩ := Option.map_eq_some_iff.mp found
  have member := List.mem_filter.mp (List.mem_of_getLast? last)
  have named : event.name = name := beq_iff_eq.mp member.2
  rw [← named]
  exact member.1

theorem Header.isComplete_iff (header : Header) :
    header.isComplete = true ↔ header.method ≠ "" ∧ header.path ≠ "" ∧ header.host ≠ "" := by
  simp only [Header.isComplete, Bool.not_eq_true', Bool.or_eq_false_iff, beq_eq_false_iff_ne]
  tauto

theorem isComplete_headerOf {events : List HeaderEvent} (filled : Filled events) :
    (headerOf events).isComplete = known events := by
  have arrived {name : String} (pseudo : name ∈ pseudoFields) :
      (newest name events).getD "" ≠ "" ↔ (newest name events).isSome = true := by
    cases found : newest name events with
    | none => simp
    | some value =>
        have nonempty := filled _ (newest_mem found) pseudo
        simpa using nonempty
  obtain ⟨method, path, host⟩ := foldl_onHeader_values events Header.blank
  rw [Bool.eq_iff_iff, Header.isComplete_iff, headerOf, method, path, host, known,
    Bool.and_eq_true, Bool.and_eq_true]
  change (newest ":method" events).getD "" ≠ "" ∧ (newest ":path" events).getD "" ≠ "" ∧
    (newest ":authority" events).getD "" ≠ "" ↔ _
  rw [arrived (by decide), arrived (by decide), arrived (by decide), and_assoc]

theorem onHeader_parseState (header : Header) (event : HeaderEvent) :
    (header.onHeader event).parseState =
      if (header.onHeader event).isComplete then .done else header.parseState := by
  rw [onHeader_eq, ← header.recorded_parseState event]
  generalize header.recorded event = recorded
  unfold Header.settled
  split
  · rename_i complete
    exact (if_pos complete).symm
  · rfl

theorem onHeader_stays_complete {header : Header} {event : HeaderEvent}
    (filled : event.name ∈ pseudoFields → event.value ≠ "") (complete : header.isComplete = true) :
    (header.onHeader event).isComplete = true := by
  obtain ⟨method, path, host⟩ := onHeader_values header event
  rw [Header.isComplete_iff] at complete ⊢
  obtain ⟨hasMethod, hasPath, hasHost⟩ := complete
  have keeps {name old : String} (pseudo : name ∈ pseudoFields) (nonempty : old ≠ "") :
      (if event.name = name then event.value else old) ≠ "" := by
    split
    · rename_i named
      exact filled (named ▸ pseudo)
    · exact nonempty
  rw [method, path, host]
  exact ⟨keeps (by decide) hasMethod, keeps (by decide) hasPath, keeps (by decide) hasHost⟩

def Header.Consistent (header : Header) : Prop :=
  header.parseState = if header.isComplete then .done else .continue_

theorem foldl_onHeader_consistent {events : List HeaderEvent} (filled : Filled events)
    {header : Header} (consistent : header.Consistent) :
    (events.foldl Header.onHeader header).Consistent := by
  induction events generalizing header with
  | nil => exact consistent
  | cons event rest ih =>
      obtain ⟨first, later⟩ := List.forall_mem_cons.mp filled
      refine ih later ?_
      unfold Header.Consistent at consistent ⊢
      rw [onHeader_parseState]
      by_cases complete : (header.onHeader event).isComplete = true
      · rw [if_pos complete, if_pos complete]
      · have incomplete : ¬header.isComplete = true := fun before =>
          complete (onHeader_stays_complete first before)
        rw [if_neg complete, if_neg complete, consistent, if_neg incomplete]

theorem parseState_headerOf {events : List HeaderEvent} (filled : Filled events) :
    (headerOf events).parseState = if known events then .done else .continue_ := by
  rw [← isComplete_headerOf filled]
  exact foldl_onHeader_consistent filled rfl

/-! ### Requests on a connection -/

/-- The header block of a request: each of the three pseudo-header fields once, among any
other fields. -/
structure RequestHead where
  method : String
  path : String
  authority : String
  fields : List HeaderEvent
  hasMethod : fields.filter (fun event => event.name == ":method") = [⟨":method", method⟩]
  hasPath : fields.filter (fun event => event.name == ":path") = [⟨":path", path⟩]
  hasAuthority :
    fields.filter (fun event => event.name == ":authority") = [⟨":authority", authority⟩]

def RequestHead.Filled (request : RequestHead) : Prop :=
  request.method ≠ "" ∧ request.path ≠ "" ∧ request.authority ≠ ""

def Header.Names (header : Header) (request : RequestHead) : Prop :=
  header.method = request.method ∧ header.path = request.path ∧ header.host = request.authority

/-- The session's callbacks for the requests of a stream: it makes each of them once, in
order, when a certain number of bytes has arrived. -/
structure Delivery (nghttp2 : Nghttp2) (stream : List UInt8) (requests : List RequestHead) where
  delivered : Nat → Nat
  none : delivered 0 = 0
  mono : Monotone delivered
  all : delivered stream.length = (requests.flatMap RequestHead.fields).length
  recv : ∀ received data, received.flatten ++ data <+: stream →
    nghttp2.recv received data =
      (((requests.flatMap RequestHead.fields).take
          (delivered (received.flatten.length + data.length))).drop
        (delivered received.flatten.length), false)

def Http2Codec.dispatchAll (libraries : Libraries) : Http2Codec → List (List UInt8) → List Header
  | _, [] => []
  | codec, segment :: rest =>
      let codec := codec.dispatch libraries segment
      codec.header :: codec.dispatchAll libraries rest

namespace Delivery

variable {nghttp2 : Nghttp2} {stream : List UInt8} {requests : List RequestHead}
  (delivery : Delivery nghttp2 stream requests)

def arrived (bytes : Nat) : List HeaderEvent :=
  (requests.flatMap RequestHead.fields).take (delivery.delivered bytes)

def arrivals : Nat → List (List UInt8) → List (List HeaderEvent)
  | _, [] => []
  | offset, segment :: rest =>
      delivery.arrived (offset + segment.length) :: arrivals (offset + segment.length) rest

theorem mem_arrivals {offset : Nat} {segments : List (List UInt8)} {events : List HeaderEvent}
    (member : events ∈ delivery.arrivals offset segments) :
    ∃ bytes, delivery.arrived bytes = events := by
  induction segments generalizing offset with
  | nil => cases member
  | cons segment rest ih =>
      rcases List.mem_cons.mp member with rfl | later
      · exact ⟨offset + segment.length, rfl⟩
      · exact ih later

/-- What stands when the first call ends by which all three values have arrived. -/
def standing (segments : List (List UInt8)) : Option (List HeaderEvent) :=
  (delivery.arrivals 0 segments).find? known

theorem length_pos_of_standing {segments : List (List UInt8)} {events : List HeaderEvent}
    (stands : delivery.standing segments = some events) : 0 < requests.length := by
  cases requests with
  | nil =>
      obtain ⟨bytes, rfl⟩ := delivery.mem_arrivals (List.mem_of_find?_eq_some stands)
      have unknown := List.find?_some stands
      rw [arrived, List.flatMap_nil, List.take_nil] at unknown
      cases unknown
  | cons request rest => exact Nat.zero_lt_succ _

/-- The header block at a position of the list is completed by a call. -/
def CompletedIn (segments : List (List UInt8)) (index call : Nat) : Prop :=
  delivery.delivered (segments.take call).flatten.length <
      ((requests.take (index + 1)).flatMap RequestHead.fields).length ∧
    ((requests.take (index + 1)).flatMap RequestHead.fields).length ≤
      delivery.delivered (segments.take (call + 1)).flatten.length

/-- A later header block is completed by the same call. -/
def Overtaken (segments : List (List UInt8)) (index : Nat) : Prop :=
  ∃ later, index < later ∧ later < requests.length ∧
    ∃ call < segments.length,
      delivery.CompletedIn segments index call ∧ delivery.CompletedIn segments later call

end Delivery

/-! ### What the calls return -/

theorem filled_requests {requests : List RequestHead}
    (filled : ∀ request ∈ requests, request.Filled) :
    Filled (requests.flatMap RequestHead.fields) := by
  intro event member pseudo
  obtain ⟨request, inside, here⟩ := List.mem_flatMap.mp member
  obtain ⟨method, path, authority⟩ := filled request inside
  -- an event of a pseudo-header field is the one its filter leaves
  have only {name value : String} (named : event.name = name)
      (filtered : request.fields.filter (fun event => event.name == name) = [⟨name, value⟩]) :
      event = ⟨name, value⟩ := by
    have found : event ∈ request.fields.filter (fun event => event.name == name) :=
      List.mem_filter.mpr ⟨here, beq_iff_eq.mpr named⟩
    rw [filtered] at found
    exact List.mem_singleton.mp found
  simp only [pseudoFields, List.mem_cons, List.not_mem_nil, or_false] at pseudo
  rcases pseudo with named | named | named
  · rw [only named request.hasMethod]
    exact method
  · rw [only named request.hasPath]
    exact path
  · rw [only named request.hasAuthority]
    exact authority

theorem dispatchAll_complete (libraries : Libraries) {codec : Http2Codec}
    (complete : codec.header.isComplete = true) (segments : List (List UInt8)) :
    ∀ header ∈ codec.dispatchAll libraries segments, header = codec.header := by
  induction segments with
  | nil => exact nofun
  | cons segment rest ih =>
      have kept : codec.dispatch libraries segment = codec := if_pos complete
      rw [Http2Codec.dispatchAll, kept]
      exact List.forall_mem_cons.mpr ⟨rfl, ih⟩

section Calls

variable {libraries : Libraries} {stream : List UInt8} {requests : List RequestHead}
  (delivery : Delivery libraries.nghttp2 stream requests)

theorem filled_arrived (filled : ∀ request ∈ requests, request.Filled) (bytes : Nat) :
    Filled (delivery.arrived bytes) := fun event member =>
  filled_requests filled event (List.mem_of_mem_take member)

theorem dispatch_incomplete (filled : ∀ request ∈ requests, request.Filled) {codec : Http2Codec}
    {offset : Nat} {segment : List UInt8} (begun : codec.received.flatten.length = offset)
    (within : codec.received.flatten ++ segment <+: stream)
    (header : codec.header = headerOf (delivery.arrived offset))
    (unknown : known (delivery.arrived offset) = false) :
    codec.dispatch libraries segment =
      { received := codec.received ++ [segment]
        header := headerOf (delivery.arrived (offset + segment.length)) } := by
  have incomplete : ¬codec.header.isComplete = true := by
    rw [header, isComplete_headerOf (filled_arrived delivery filled offset), unknown]
    exact Bool.false_ne_true
  have order : delivery.delivered offset ≤ delivery.delivered (offset + segment.length) :=
    delivery.mono (Nat.le_add_right offset segment.length)
  have grown : delivery.arrived offset ++
      (delivery.arrived (offset + segment.length)).drop (delivery.delivered offset) =
        delivery.arrived (offset + segment.length) := by
    have front : delivery.arrived offset =
        (delivery.arrived (offset + segment.length)).take (delivery.delivered offset) := by
      rw [Delivery.arrived, Delivery.arrived, List.take_take, Nat.min_eq_left order]
    rw [front, List.take_append_drop]
  rw [Http2Codec.dispatch, if_neg incomplete, delivery.recv codec.received segment within, begun]
  simp only [Bool.false_eq_true, if_false, header]
  rw [headerOf, ← List.foldl_append]
  exact congrArg (fun events => ({ received := _, header := headerOf events } : Http2Codec)) grown

/-- The calls return `Done` with one header: what stands when the first call ends by
which all three values have arrived. -/
theorem mem_dispatchAll_done_iff (filled : ∀ request ∈ requests, request.Filled)
    {codec : Http2Codec} {segments : List (List UInt8)} {offset : Nat}
    (begun : codec.received.flatten.length = offset)
    (within : codec.received.flatten ++ segments.flatten <+: stream)
    (header : codec.header = headerOf (delivery.arrived offset))
    (unknown : known (delivery.arrived offset) = false) (returned : Header) :
    (returned ∈ codec.dispatchAll libraries segments ∧ returned.parseState = .done) ↔
      ∃ arrived, (delivery.arrivals offset segments).find? known = some arrived ∧
        headerOf arrived = returned := by
  induction segments generalizing codec offset with
  | nil =>
      constructor
      · exact fun both => nomatch both.1
      · exact fun found => nomatch found.choose_spec.1
  | cons segment rest ih =>
      rw [List.flatten_cons, ← List.append_assoc] at within
      have step := dispatch_incomplete delivery filled begun
        ((List.prefix_append _ rest.flatten).trans within) header unknown
      let later : Http2Codec :=
        { received := codec.received ++ [segment]
          header := headerOf (delivery.arrived (offset + segment.length)) }
      have fill := filled_arrived delivery filled (offset + segment.length)
      rw [Http2Codec.dispatchAll, step, Delivery.arrivals, List.find?_cons, List.mem_cons]
      change (returned = later.header ∨ returned ∈ later.dispatchAll libraries rest) ∧ _ ↔ _
      cases standing : known (delivery.arrived (offset + segment.length)) with
      | true =>
          have done : later.header.parseState = .done :=
            (parseState_headerOf fill).trans (if_pos standing)
          have complete : later.header.isComplete = true :=
            (isComplete_headerOf fill).trans standing
          constructor
          · rintro ⟨here | after, finished⟩
            · exact ⟨_, rfl, here.symm⟩
            · exact ⟨_, rfl, (dispatchAll_complete libraries complete rest returned after).symm⟩
          · rintro ⟨arrived, found, rfl⟩
            cases found
            exact ⟨.inl rfl, done⟩
      | false =>
          have waiting : later.header.parseState = .continue_ :=
            (parseState_headerOf fill).trans (if_neg (by rw [standing]; exact Bool.false_ne_true))
          have received : later.received.flatten = codec.received.flatten ++ segment := by
            simp only [later, List.flatten_append, List.flatten_singleton]
          rw [← ih (by rw [received, List.length_append, begun]) (received ▸ within) rfl standing]
          constructor
          · rintro ⟨here | after, finished⟩
            · rw [here, waiting] at finished
              cases finished
            · exact ⟨after, finished⟩
          · rintro ⟨after, finished⟩
            exact ⟨.inr after, finished⟩

/-! ### Which requests are surfaced -/

/-- Every request is returned by some call, unless a later one is completed by the call
that completes it. -/
def Delivery.Surfaced (segments : List (List UInt8)) : Prop :=
  ∀ index (_ : index < requests.length),
    (∃ header ∈ Http2Codec.new.dispatchAll libraries segments,
      header.parseState = .done ∧ header.Names requests[index]) ∨
    delivery.Overtaken segments index

/-- No call returns `Done` with values of different requests. -/
def Unmixed (libraries : Libraries) (requests : List RequestHead) (segments : List (List UInt8)) :
    Prop :=
  ∀ header ∈ Http2Codec.new.dispatchAll libraries segments,
    header.parseState = .done → ∃ request ∈ requests, header.Names request

/-- The values that stand are those of a request. -/
def Stands (arrived : List HeaderEvent) (request : RequestHead) : Prop :=
  newest ":method" arrived = some request.method ∧ newest ":path" arrived = some request.path ∧
    newest ":authority" arrived = some request.authority

theorem names_headerOf_iff {arrived : List HeaderEvent} (standing : known arrived = true)
    (request : RequestHead) : (headerOf arrived).Names request ↔ Stands arrived request := by
  rw [known, Bool.and_eq_true, Bool.and_eq_true, Option.isSome_iff_exists, Option.isSome_iff_exists,
    Option.isSome_iff_exists] at standing
  obtain ⟨⟨⟨method, hasMethod⟩, path, hasPath⟩, authority, hasAuthority⟩ := standing
  obtain ⟨readMethod, readPath, readHost⟩ := foldl_onHeader_values arrived Header.blank
  unfold Header.Names Stands headerOf
  rw [readMethod, readPath, readHost, hasMethod, hasPath, hasAuthority]
  simp only [Option.getD_some, Option.some.injEq]

theorem mem_returned_iff (filled : ∀ request ∈ requests, request.Filled)
    {segments : List (List UInt8)} (cut : segments.flatten = stream) (returned : Header) :
    (returned ∈ Http2Codec.new.dispatchAll libraries segments ∧ returned.parseState = .done) ↔
      ∃ arrived, delivery.standing segments = some arrived ∧ headerOf arrived = returned := by
  have nothing : delivery.arrived 0 = [] := by
    rw [Delivery.arrived, delivery.none, List.take_zero]
  have begun : Http2Codec.new.received.flatten.length = 0 := rfl
  refine mem_dispatchAll_done_iff delivery filled begun ?_ ?_ ?_ returned
  · rw [← cut]
    exact List.prefix_refl _
  · rw [nothing]
    rfl
  · rw [nothing]
    rfl

/-- For every list of request header blocks and every cut of the stream into calls:
all requests are surfaced and none is mixed with another exactly if every request that
is not overtaken has the values that stand when the first call ends by which all three
have arrived. -/
theorem requests_surfaced_iff (filled : ∀ request ∈ requests, request.Filled)
    (segments : List (List UInt8)) (cut : segments.flatten = stream) :
    (delivery.Surfaced segments ∧ Unmixed libraries requests segments) ↔
      ∀ index (_ : index < requests.length),
        (∃ arrived, delivery.standing segments = some arrived ∧ Stands arrived requests[index]) ∨
          delivery.Overtaken segments index := by
  have returned := mem_returned_iff delivery filled cut
  constructor
  · intro holds index inside
    rcases holds.1 index inside with ⟨header, member, done, named⟩ | overtaken
    · obtain ⟨arrived, standing, rfl⟩ := (returned header).mp ⟨member, done⟩
      exact .inl ⟨arrived, standing,
        (names_headerOf_iff (List.find?_some standing) _).mp named⟩
    · exact .inr overtaken
  · intro stands
    constructor
    · intro index inside
      rcases stands index inside with ⟨arrived, standing, values⟩ | overtaken
      · obtain ⟨member, done⟩ := (returned _).mpr ⟨arrived, standing, rfl⟩
        exact .inl ⟨_, member, done,
          (names_headerOf_iff (List.find?_some standing) _).mpr values⟩
      · exact .inr overtaken
    · intro header member done
      obtain ⟨arrived, standing, rfl⟩ := (returned header).mp ⟨member, done⟩
      have there := delivery.length_pos_of_standing standing
      -- nothing follows the last request
      rcases stands (requests.length - 1) (by omega) with ⟨other, found, values⟩ | overtaken
      · rw [standing] at found
        cases found
        exact ⟨_, List.getElem_mem _,
          (names_headerOf_iff (List.find?_some standing) _).mpr values⟩
      · obtain ⟨later, after, inside, -⟩ := overtaken
        omega

end Calls

/-! ### Two requests -/

def getHead : RequestHead where
  method := "GET"
  path := "/a"
  authority := "h"
  fields := [⟨":method", "GET"⟩, ⟨":path", "/a"⟩, ⟨":scheme", "http"⟩, ⟨":authority", "h"⟩]
  hasMethod := rfl
  hasPath := rfl
  hasAuthority := rfl

def putHead : RequestHead where
  method := "PUT"
  path := "/b"
  authority := "i"
  fields := [⟨":method", "PUT"⟩, ⟨":path", "/b"⟩, ⟨":scheme", "http"⟩, ⟨":authority", "i"⟩]
  hasMethod := rfl
  hasPath := rfl
  hasAuthority := rfl

def Delivery.ofFrames {stream : List UInt8} {requests : List RequestHead}
    (fields : fieldsIn stream = requests.flatMap RequestHead.fields)
    (sound : framesAfter stream ≠ .failed) : Delivery frameReader stream requests where
  delivered count := (fieldsIn (stream.take count)).length
  none := rfl
  mono := length_fieldsIn_take_mono stream
  all := by rw [List.take_length, fields]
  recv := by
    intro received data begun
    have front : stream.take received.flatten.length = received.flatten :=
      (List.prefix_iff_eq_take.mp ((List.prefix_append _ data).trans begun)).symm
    have whole : stream.take (received.flatten.length + data.length) =
        received.flatten ++ data := by
      rw [← List.length_append]
      exact (List.prefix_iff_eq_take.mp begun).symm
    rw [recv_frameReader begun sound, front, whole, fields]

/-- The preface, a SETTINGS frame and the HEADERS frame of the first request. -/
def getFrames : List UInt8 :=
  http2ConnectionPreface ++ [0, 0, 0, 4, 0, 0, 0, 0, 0] ++ [0, 0, 9, 1, 5, 0, 0, 0, 1] ++
    [0x82] ++ [4, 2] ++ asciiBytes "/a" ++ [0x86] ++ [1, 1] ++ asciiBytes "h"

def putStart : List UInt8 := [0, 0, 13, 1, 5, 0, 0, 0, 3] ++ [2, 3] ++ asciiBytes "PUT"

def putEnd : List UInt8 := [4, 2] ++ asciiBytes "/b" ++ [0x86] ++ [1, 1] ++ asciiBytes "i"

def twoRequests :
    Delivery postLibraries.nghttp2 (getFrames ++ (putStart ++ putEnd)) [getHead, putHead] :=
  .ofFrames (by decide +kernel) (by decide +kernel)

/-- Both requests in one call: the second is returned, the first is overtaken. -/
theorem twoRequests_surfaced_together :
    twoRequests.Surfaced [getFrames ++ (putStart ++ putEnd)] ∧
      Unmixed postLibraries [getHead, putHead] [getFrames ++ (putStart ++ putEnd)] := by
  refine (requests_surfaced_iff twoRequests ?_ [getFrames ++ (putStart ++ putEnd)] ?_).mpr ?_
  · intro request member
    rcases List.mem_pair.mp member with rfl | rfl
    · exact ⟨by decide, by decide, by decide⟩
    · exact ⟨by decide, by decide, by decide⟩
  · exact List.flatten_singleton
  · intro index inside
    match index, inside with
    | 0, _ =>
        exact .inr ⟨1, by decide, by decide, 0, by decide, ⟨by decide +kernel, by decide +kernel⟩,
          ⟨by decide +kernel, by decide +kernel⟩⟩
    | 1, _ => exact .inl ⟨_, rfl, rfl, rfl, rfl⟩

/-- One request for each call: the second is never returned.  A call that ends inside
the second header block: its method is returned with the path of the first. -/
theorem twoRequests_lost_or_mixed :
    ¬twoRequests.Surfaced [getFrames, putStart ++ putEnd] ∧
      ¬Unmixed postLibraries [getHead, putHead] [getFrames ++ putStart, putEnd] := by
  constructor
  · intro surfaced
    rcases surfaced 1 (by decide) with ⟨header, member, -, named⟩ | ⟨later, after, inside, -⟩
    · have first : header.path = "/a" := by
        have all : ∀ header ∈ Http2Codec.new.dispatchAll postLibraries
          [getFrames, putStart ++ putEnd], header.path = "/a" := by decide +kernel
        exact all header member
      rw [named.2.1] at first
      exact absurd first (by decide)
    · change later < 2 at inside
      omega
  · intro unmixed
    obtain ⟨request, member, named⟩ := unmixed
      { method := "PUT", path := "/a", host := "h", parseState := .done } (by decide +kernel) rfl
    rcases List.mem_pair.mp member with rfl | rfl
    · exact absurd named.1 (by decide)
    · exact absurd named.2.1 (by decide)

end NetPolicy.Http
