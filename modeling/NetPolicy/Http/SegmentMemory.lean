/-
Protocol detection over the batches of a queue.

`onData` keeps a pointer to a segment that decides nothing, and the batch that it points
into is given back when its wake-up ends.  So a stream survives its cuts exactly if its
bytes do, and if every segment that is buffered comes in the batch of the segment that
decides.
-/

import NetPolicy.Http.Detection
import NetPolicy.Http.Http2Frames

namespace NetPolicy.Http

/-! ### Segments one by one -/

namespace StaticConnection

inductive Gives (packet : Packet) (segment : Fragment) (dispatched : List UInt8)
    (next : Watch) : Option Received → Prop where
  | waits (received : Received) (undecided : next.protocol = none)
      (followed : received.connection.held.watch dispatched = next)
      (nothing : received.dispatched = [])
      (kept : received.connection.packet = packet ∨
        received.connection.packet = packet ++ [segment]) :
      Gives packet segment dispatched next (some received)
  | dangles (decided : next.protocol.isSome = true) (buffered : 0 < packet.len)
      (stale : ¬packet.Fresh segment.batch) :
      Gives packet segment dispatched next none
  | forwards (received : Received) (decided : next.protocol.isSome = true)
      (readable : packet.len = 0 ∨ packet.Fresh segment.batch)
      (empty : received.connection.packet = [])
      (followed : received.connection.held.watch (dispatched ++ received.dispatched.flatten) =
        next) :
      Gives packet segment dispatched next (some received)

theorem gives_forward (libraries : Libraries) (connection : StaticConnection) (codec : Codec)
    (segment : Fragment) (dispatched : List UInt8) :
    Gives connection.packet segment dispatched
      ((connection.held.watch dispatched).forwarded codec.protocol segment.bytes)
      (connection.forward libraries codec segment) := by
  by_cases readable : connection.packet.len = 0 ∨ connection.packet.Fresh segment.batch
  · obtain ⟨received, forwarded, held, written, empty⟩ :=
      forward_of_fresh libraries codec readable
    rw [forwarded]
    refine .forwards received rfl readable empty ?_
    have same : received.connection.held =
        (connection.held.forward libraries codec segment.bytes).1 := congrArg Prod.fst held
    rw [written, same]
    exact connection.held.watch_forward libraries codec segment.bytes dispatched
  · rw [not_or] at readable
    have buffered := Nat.pos_of_ne_zero readable.1
    rw [forward_of_stale libraries codec buffered readable.2]
    exact .dangles rfl buffered readable.2

theorem onData_gives (libraries : Libraries) (connection : StaticConnection) (segment : Fragment)
    (dispatched : List UInt8) :
    Gives connection.packet segment dispatched
      ((connection.held.watch dispatched).step libraries.llhttp segment.bytes)
      (connection.onData libraries segment) := by
  rcases connection with ⟨ruleKey, codec, inspector, header, packet⟩
  unfold onData Watch.step
  cases codec with
  | some codec => exact gives_forward libraries _ codec segment dispatched
  | none =>
      have buffers : ∀ bytes : List UInt8,
          Watch.buffered ⟨none, bytes, Packet.bytes packet, dispatched⟩ segment.bytes =
            ⟨none, bytes, Packet.bytes (packet ++ [segment]), dispatched⟩ := by
        intro bytes
        simp [Watch.buffered, Packet.bytes]
      have forwards := fun (next : HttpInspector) (header : Header) (codec : Codec) =>
        gives_forward libraries ⟨ruleKey, none, next, header, packet⟩ codec segment dispatched
      dsimp only [Connection.watch, held, Option.map_none]
      by_cases short : segment.bytes <+: http2ConnectionPreface ∧
          segment.bytes.length < http2ConnectionPreface.length
      · rw [parse_short short.1 short.2, if_pos short, buffers]
        exact .waits _ rfl rfl rfl (Or.inr rfl)
      rw [if_neg short]
      by_cases whole : http2ConnectionPreface <+: segment.bytes
      · rw [parse_preface whole, if_pos whole]
        exact forwards ⟨inspector.fed, .http2⟩ _ (.http2 Http2Codec.new)
      rw [if_neg whole]
      have unlike := unlike_of_not short whole
      by_cases starts : segment.bytes.head?.any isLineEnd = true
      · rw [parse_lineStart unlike starts, if_pos starts]
        exact .waits _ rfl rfl rfl (Or.inl rfl)
      rw [if_neg starts]
      by_cases ends : segment.bytes.any isLineEnd = true
      · rw [parse_line unlike starts ends, if_pos ends]
        by_cases accepted :
            libraries.llhttp.accepts (inspector.fed ++ throughLineEnd segment.bytes) = true
        · simp only [accepted, Watch.saw, if_true]
          exact forwards ⟨_, .http11⟩ _ (.http1 Http1Codec.new)
        · simp only [accepted, Watch.saw]
          exact .waits _ rfl rfl rfl (Or.inl rfl)
      · rw [parse_noLine unlike starts ends, if_neg ends]
        by_cases accepted : libraries.llhttp.accepts (inspector.fed ++ segment.bytes) = true
        · simp only [accepted, Watch.saw, if_true, buffers]
          exact .waits _ rfl rfl rfl (Or.inr rfl)
        · simp only [accepted, Watch.saw]
          exact .waits _ rfl rfl rfl (Or.inl rfl)

def receive (libraries : Libraries) :
    StaticConnection → List Fragment → Option (StaticConnection × List (List UInt8))
  | connection, [] => some (connection, [])
  | connection, segment :: rest => do
      let first ← connection.onData libraries segment
      let later ← first.connection.receive libraries rest
      some (later.1, first.dispatched ++ later.2)

theorem receive_append (libraries : Libraries) (connection : StaticConnection)
    (first second : List Fragment) :
    connection.receive libraries (first ++ second) =
      (connection.receive libraries first).bind fun front =>
        (front.1.receive libraries second).map fun back => (back.1, front.2 ++ back.2) := by
  induction first generalizing connection with
  | nil =>
      rw [List.nil_append, receive, Option.bind_some]
      cases connection.receive libraries second <;> rfl
  | cons segment rest ih =>
      rw [List.cons_append, receive, receive]
      cases connection.onData libraries segment with
      | none => rfl
      | some received =>
          dsimp only [Option.bind_eq_bind, Option.bind_some]
          rw [ih]
          cases received.connection.receive libraries rest with
          | none => rfl
          | some front =>
              dsimp only [Option.bind_some]
              cases front.1.receive libraries second with
              | none => rfl
              | some back =>
                  dsimp only [Option.map_some, Option.bind_some]
                  rw [List.append_assoc]

theorem receive_follows {libraries : Libraries} {connection last : StaticConnection}
    {segments : List Fragment} {calls : List (List UInt8)} (dispatched : List UInt8)
    (received : connection.receive libraries segments = some (last, calls)) :
    last.held.watch (dispatched ++ calls.flatten) =
      Runs.run (Watch.step libraries.llhttp) (connection.held.watch dispatched)
        (segments.map Fragment.bytes) := by
  induction segments generalizing connection dispatched calls with
  | nil =>
      cases received
      rw [List.flatten_nil, List.append_nil]
      rfl
  | cons segment rest ih =>
      have gives := onData_gives libraries connection segment dispatched
      rw [receive] at received
      obtain ⟨first, given, received⟩ := Option.bind_eq_some_iff.mp received
      obtain ⟨⟨middle, later⟩, laterReceived, same⟩ := Option.bind_eq_some_iff.mp received
      cases same
      rw [given] at gives
      rw [List.map_cons, Runs.run_cons, List.flatten_append, ← List.append_assoc,
        ih (dispatched ++ first.dispatched.flatten) laterReceived]
      cases gives with
      | waits _ undecided followed nothing kept =>
          rw [nothing, List.flatten_nil, List.append_nil, followed]
      | forwards _ decided readable empty followed => rw [followed]

/-- Until fragments of an earlier batch are read, a connection holds what it would hold if it
kept their bytes. -/
theorem receive_held {libraries : Libraries} {connection last : StaticConnection}
    {segments : List Fragment} {calls : List (List UInt8)}
    (received : connection.receive libraries segments = some (last, calls)) :
    last.held = Runs.run (fun connection data => (connection.onData libraries data).1)
      connection.held (segments.map Fragment.bytes) := by
  induction segments generalizing connection calls with
  | nil =>
      cases received
      rfl
  | cons segment rest ih =>
      rw [receive] at received
      obtain ⟨first, given, received⟩ := Option.bind_eq_some_iff.mp received
      obtain ⟨⟨middle, later⟩, laterReceived, same⟩ := Option.bind_eq_some_iff.mp received
      cases same
      rw [ih laterReceived, List.map_cons, Runs.run_cons, ← onData_held given]

theorem receive_of_decided (libraries : Libraries) {connection : StaticConnection}
    {dispatched : List UInt8} (decided : (connection.held.watch dispatched).protocol.isSome = true)
    (empty : connection.packet = []) (segments : List Fragment) :
    (connection.receive libraries segments).isSome = true := by
  induction segments generalizing connection dispatched with
  | nil => rfl
  | cons segment rest ih =>
      have gives := onData_gives libraries connection segment dispatched
      obtain ⟨protocol, named⟩ := Option.isSome_iff_exists.mp decided
      have stays : ((connection.held.watch dispatched).step libraries.llhttp
          segment.bytes).protocol = some protocol := Watch.protocol_of_decided named [segment.bytes]
      rw [receive]
      generalize connection.onData libraries segment = outcome at gives ⊢
      cases gives with
      | waits received undecided followed nothing kept =>
          rw [stays] at undecided
          cases undecided
      | dangles _ buffered stale =>
          rw [empty] at buffered
          cases buffered
      | forwards received next readable emptied followed =>
          have later := ih (followed ▸ next) emptied
          obtain ⟨last, found⟩ := Option.isSome_iff_exists.mp later
          rw [Option.bind_eq_bind, Option.bind_some, found]
          rfl

theorem receive_before {libraries : Libraries} (connection : StaticConnection)
    (dispatched : List UInt8) {segments : List Fragment}
    (nonempty : ∀ segment ∈ segments, segment.bytes ≠ [])
    (undecided : (Runs.run (Watch.step libraries.llhttp) (connection.held.watch dispatched)
      (segments.map Fragment.bytes)).protocol = none)
    (all : (Runs.run (Watch.step libraries.llhttp) (connection.held.watch dispatched)
        (segments.map Fragment.bytes)).kept =
      (connection.held.watch dispatched).kept + (segments.map Fragment.bytes).flatten.length) :
    ∃ last, connection.receive libraries segments = some (last, []) ∧
      last.packet = connection.packet ++ segments := by
  induction segments generalizing connection with
  | nil => exact ⟨connection, rfl, (List.append_nil _).symm⟩
  | cons segment rest ih =>
      have segmentSome := List.length_pos_of_ne_nil (nonempty segment List.mem_cons_self)
      have laterSome : ∀ other ∈ rest, other.bytes ≠ [] :=
        fun other member => nonempty other (List.mem_cons_of_mem segment member)
      obtain ⟨keptFirst, keptLater⟩ := Watch.kept_step_of_run all
      have gives := onData_gives libraries connection segment dispatched
      rw [List.map_cons, Runs.run_cons] at undecided
      rw [receive]
      generalize (connection.held.watch dispatched).step libraries.llhttp segment.bytes = next
        at undecided keptFirst keptLater gives
      have waiting : next.protocol = none := by
        cases named : next.protocol with
        | none => rfl
        | some protocol =>
            rw [Watch.protocol_of_decided named] at undecided
            cases undecided
      generalize connection.onData libraries segment = outcome at gives ⊢
      cases gives with
      | waits received _ followed nothing kept =>
          subst followed
          obtain ⟨last, found, packet⟩ := ih received.connection laterSome undecided keptLater
          refine ⟨last, ?_, ?_⟩
          · rw [Option.bind_eq_bind, Option.bind_some, found, nothing]
            rfl
          · rcases kept with same | buffered
            · -- a segment that is not buffered would be missing
              change dispatched.length + received.connection.packet.bytes.length = _ at keptFirst
              rw [same] at keptFirst
              change _ = dispatched.length + connection.packet.bytes.length + _ at keptFirst
              omega
            · rw [packet, buffered, List.append_assoc]
              rfl
      | dangles decided buffered stale =>
          rw [waiting] at decided
          cases decided
      | forwards received decided readable empty followed =>
          rw [waiting] at decided
          cases decided

end StaticConnection

/-! ### Streams -/

def streamOf (segments : List Fragment) : List UInt8 := (segments.map Fragment.bytes).flatten

/-- The codec is of the protocol a single segment would have given, and exactly
the stream was dispatched to it. -/
def KeepsStream (libraries : Libraries) (ruleKey : String) (segments : List Fragment) : Prop :=
  ∃ cut ∈ (StaticConnection.new ruleKey).receive libraries segments,
    ∃ whole ∈ (StaticConnection.new ruleKey).receive libraries [⟨0, streamOf segments⟩],
      cut.1.codec.map Codec.protocol = whole.1.codec.map Codec.protocol ∧
        cut.2.flatten = streamOf segments

instance (libraries : Libraries) (ruleKey : String) (segments : List Fragment) :
    Decidable (KeepsStream libraries ruleKey segments) :=
  inferInstanceAs (Decidable (∃ cut ∈ StaticConnection.receive _ _ _, ∃ whole ∈
    StaticConnection.receive _ _ _, _))

section

variable (libraries : Libraries) (ruleKey : String)

theorem receive_first (first : Fragment) (rest : List Fragment)
    (decided : (Watch.new.step libraries.llhttp first.bytes).protocol.isSome = true ∨ rest = []) :
    ((StaticConnection.new ruleKey).receive libraries (first :: rest)).isSome = true := by
  have gives : StaticConnection.Gives [] first [] (Watch.new.step libraries.llhttp first.bytes)
      ((StaticConnection.new ruleKey).onData libraries first) :=
    StaticConnection.onData_gives libraries (StaticConnection.new ruleKey) first []
  rw [StaticConnection.receive]
  generalize (StaticConnection.new ruleKey).onData libraries first = outcome at gives ⊢
  cases gives with
  | waits received undecided followed nothing kept =>
      rcases decided with decided | rfl
      · rw [undecided] at decided
        cases decided
      · rfl
  | dangles _ buffered stale => cases buffered
  | forwards received next readable empty followed =>
      have later := StaticConnection.receive_of_decided libraries (followed ▸ next) empty rest
      obtain ⟨last, found⟩ := Option.isSome_iff_exists.mp later
      rw [Option.bind_eq_bind, Option.bind_some, found]
      rfl

theorem keepsStream_iff (segments : List Fragment) :
    KeepsStream libraries ruleKey segments ↔
      ((StaticConnection.new ruleKey).receive libraries segments).isSome = true ∧
        (Runs.run (Watch.step libraries.llhttp) Watch.new
            (segments.map Fragment.bytes)).protocol =
          (Watch.new.step libraries.llhttp (streamOf segments)).protocol ∧
        (Runs.run (Watch.step libraries.llhttp) Watch.new
          (segments.map Fragment.bytes)).dispatched = streamOf segments := by
  obtain ⟨whole, single⟩ := Option.isSome_iff_exists.mp
    (receive_first libraries ruleKey ⟨0, streamOf segments⟩ [] (Or.inr rfl))
  have wholeFollows : whole.1.held.watch ([] ++ whole.2.flatten) =
      Watch.new.step libraries.llhttp (streamOf segments) :=
    StaticConnection.receive_follows [] single
  have follows : ∀ cut ∈ (StaticConnection.new ruleKey).receive libraries segments,
      cut.1.held.watch ([] ++ cut.2.flatten) = Runs.run (Watch.step libraries.llhttp) Watch.new
        (segments.map Fragment.bytes) :=
    fun cut received => StaticConnection.receive_follows [] received
  rw [← wholeFollows]
  constructor
  · rintro ⟨cut, received, other, wholeReceived, protocol, bytes⟩
    cases single.symm.trans wholeReceived
    rw [← follows cut received]
    exact ⟨Option.isSome_iff_exists.mpr ⟨cut, received⟩, protocol, bytes⟩
  · rintro ⟨given, protocol, bytes⟩
    obtain ⟨cut, received⟩ := Option.isSome_iff_exists.mp given
    rw [← follows cut received] at protocol bytes
    exact ⟨cut, received, whole, single, protocol, bytes⟩

end

/-! ### When a stream survives -/

/-- The segment with the first line end does not start with it, what `llhttp` sees up to that
line end, which leaves out every segment that begins the preface, begins a valid request line,
and every earlier segment is of the same batch. -/
def LineKept (valid : List UInt8 → Prop) (segments : List Fragment) : Prop :=
  ∃ before segment after, segments = before ++ segment :: after ∧
    (∀ earlier ∈ before, Plain earlier.bytes) ∧ segment.bytes.any isLineEnd = true ∧
    (∀ earlier ∈ before, earlier.batch = segment.batch) ∧
    segment.bytes.head?.any isLineEnd = false ∧
    ∃ line, valid line ∧
      shown (before.map Fragment.bytes) ++ throughLineEnd segment.bytes <+: line

theorem exists_first_lineEnd {segments : List Fragment}
    (ends : (streamOf segments).any isLineEnd = true) :
    ∃ before segment after, segments = before ++ segment :: after ∧
      (∀ earlier ∈ before, Plain earlier.bytes) ∧ segment.bytes.any isLineEnd = true := by
  induction segments with
  | nil => cases ends
  | cons head tail ih =>
      cases line : head.bytes.any isLineEnd with
      | true => exact ⟨[], head, tail, rfl, List.forall_mem_nil _, line⟩
      | false =>
          rw [streamOf, List.map_cons, List.flatten_cons, List.any_append, line,
            Bool.false_or] at ends
          obtain ⟨before, segment, after, rfl, plain, segmentEnds⟩ := ih ends
          exact ⟨head :: before, segment, after, rfl, List.forall_mem_cons.mpr ⟨line, plain⟩,
            segmentEnds⟩

theorem keepsStream_preface (libraries : Libraries) (ruleKey : String) {first : Fragment}
    {rest : List Fragment} (nonempty : ∀ segment ∈ first :: rest, segment.bytes ≠ [])
    (begun : http2ConnectionPreface <+: streamOf (first :: rest)) :
    KeepsStream libraries ruleKey (first :: rest) ↔ 24 ≤ first.bytes.length := by
  have bytesSome : ∀ bytes ∈ first.bytes :: rest.map Fragment.bytes, bytes ≠ [] := by
    rw [← List.map_cons]
    exact List.forall_mem_map.mpr nonempty
  have bytes := run_preface_iff libraries.llhttp bytesSome begun
  rw [keepsStream_iff, step_of_preface libraries.llhttp begun, ← bytes]
  refine and_iff_right_of_imp fun kept => ?_
  have whole : http2ConnectionPreface <+: first.bytes := by
    apply List.prefix_of_prefix_length_le begun
    · rw [streamOf, List.map_cons, List.flatten_cons]
      exact List.prefix_append _ _
    · rw [preface_length]
      exact bytes.mp kept
  apply receive_first
  rw [step_of_preface libraries.llhttp whole]
  exact Or.inl rfl

/-- The segment that decides reads the buffer, so the run comes back exactly if what is buffered
is of its batch. -/
theorem receive_deciding_iff (libraries : Libraries) {connection : StaticConnection}
    {segment : Fragment} (nonempty : ∀ earlier ∈ connection.packet, earlier.bytes ≠ [])
    (decides : ((connection.held.watch []).step libraries.llhttp segment.bytes).protocol.isSome =
      true) (after : List Fragment) :
    (connection.receive libraries (segment :: after)).isSome = true ↔
      ∀ earlier ∈ connection.packet, earlier.batch = segment.batch := by
  rw [StaticConnection.receive]
  have gives := StaticConnection.onData_gives libraries connection segment []
  generalize connection.onData libraries segment = outcome at gives ⊢
  cases gives with
  | waits _ waiting followed nothing kept =>
      rw [waiting] at decides
      cases decides
  | dangles _ buffered stale => exact iff_of_false Bool.false_ne_true stale
  | forwards given decided readable empty followed =>
      refine iff_of_true ?_ ?_
      · have later := StaticConnection.receive_of_decided libraries (followed ▸ decided) empty after
        obtain ⟨final, found⟩ := Option.isSome_iff_exists.mp later
        rw [Option.bind_eq_bind, Option.bind_some, found]
        rfl
      · rcases readable with short | fresh
        · intro earlier member
          have none : connection.packet.bytes = [] := List.eq_nil_of_length_eq_zero short
          exact absurd (List.flatMap_eq_nil_iff.mp none earlier member) (nonempty earlier member)
        · exact fresh

section Kept

variable {libraries : Libraries} {valid : List UInt8 → Prop}
  (judges : libraries.llhttp.Judges valid) (ruleKey : String)

include judges

/-- If every byte survives, the run comes back exactly if the segment that decides comes in
the batch of those before it. -/
theorem receive_line_iff {before after : List Fragment} {segment : Fragment} {line : List UInt8}
    (isValid : valid line) (begins : line <+: streamOf (before ++ segment :: after))
    (nonempty : ∀ other ∈ before ++ segment :: after, other.bytes ≠ [])
    (plain : ∀ earlier ∈ before, Plain earlier.bytes)
    (ends : segment.bytes.any isLineEnd = true)
    (kept : segment.bytes.head?.any isLineEnd = false ∧
      ∃ other, valid other ∧
        shown (before.map Fragment.bytes) ++ throughLineEnd segment.bytes <+: other) :
    ((StaticConnection.new ruleKey).receive libraries (before ++ segment :: after)).isSome =
        true ↔ ∀ earlier ∈ before, earlier.batch = segment.batch := by
  obtain ⟨starts, other, otherValid, otherBegins⟩ := kept
  have beforeSome : ∀ earlier ∈ before, earlier.bytes ≠ [] :=
    fun earlier member => nonempty earlier (List.mem_append_left _ member)
  have bytesSome : ∀ bytes ∈ before.map Fragment.bytes, bytes ≠ [] :=
    List.forall_mem_map.mpr beforeSome
  have bytesPlain : ∀ bytes ∈ before.map Fragment.bytes, Plain bytes :=
    List.forall_mem_map.mpr plain
  have keptBefore := kept_before judges (show Watch.new.protocol = none from rfl) bytesPlain
    otherValid ((List.prefix_append _ _).trans otherBegins)
  have reached := run_before rfl bytesSome bytesPlain keptBefore
  -- the earlier segments are all in the buffer
  have undecided : (Runs.run (Watch.step libraries.llhttp) Watch.new
      (before.map Fragment.bytes)).protocol = none := by
    rw [reached]
    rfl
  obtain ⟨last, received, packet⟩ :=
    StaticConnection.receive_before (StaticConnection.new ruleKey) [] beforeSome undecided
      keptBefore
  have watched : last.held.watch [] = Runs.run (Watch.step libraries.llhttp) Watch.new
      (before.map Fragment.bytes) := StaticConnection.receive_follows [] received
  have inBuffer : last.packet = before := packet
  -- and the segment decides
  have decides : ((last.held.watch []).step libraries.llhttp segment.bytes).protocol =
      some .http11 := by
    have alone : line <+: (before.map Fragment.bytes ++
        segment.bytes :: after.map Fragment.bytes).flatten := by
      rw [streamOf, List.map_append, List.map_cons] at begins
      exact begins
    rw [watched]
    rcases step_at_line judges isValid alone bytesPlain ends undecided
      (by rw [reached]; rfl) with ⟨forwards, -⟩ | ⟨-, lost⟩
    · rw [forwards]
      rfl
    · exact absurd ⟨starts, other, otherValid, otherBegins⟩ lost
  rw [StaticConnection.receive_append, received, Option.bind_some, Option.isSome_map,
    receive_deciding_iff libraries (inBuffer ▸ beforeSome) (decides ▸ rfl) after, inBuffer]

theorem keepsStream_line {segments : List Fragment} {line : List UInt8} (isValid : valid line)
    (nonempty : ∀ segment ∈ segments, segment.bytes ≠ []) (begins : line <+: streamOf segments) :
    KeepsStream libraries ruleKey segments ↔ LineKept valid segments := by
  have bytesSome : ∀ bytes ∈ segments.map Fragment.bytes, bytes ≠ [] :=
    List.forall_mem_map.mpr nonempty
  rw [keepsStream_iff, step_of_line judges isValid begins]
  have survives : ∀ {before segment after}, segments = before ++ segment :: after →
      (∀ earlier ∈ before, Plain earlier.bytes) → segment.bytes.any isLineEnd = true →
      ((((StaticConnection.new ruleKey).receive libraries segments).isSome = true ∧
          (Runs.run (Watch.step libraries.llhttp) Watch.new
            (segments.map Fragment.bytes)).protocol = some .http11 ∧
          (Runs.run (Watch.step libraries.llhttp) Watch.new
            (segments.map Fragment.bytes)).dispatched = streamOf segments) ↔
        (∀ earlier ∈ before, earlier.batch = segment.batch) ∧
          segment.bytes.head?.any isLineEnd = false ∧ ∃ other, valid other ∧
            shown (before.map Fragment.bytes) ++ throughLineEnd segment.bytes <+: other) := by
    rintro before segment after rfl plain ends
    have bytesPlain : ∀ bytes ∈ before.map Fragment.bytes, Plain bytes :=
      List.forall_mem_map.mpr plain
    have cut : (before ++ segment :: after).map Fragment.bytes =
        before.map Fragment.bytes ++ segment.bytes :: after.map Fragment.bytes := by
      rw [List.map_append, List.map_cons]
    rw [cut] at bytesSome
    have bytes := run_line_iff judges isValid (by rw [← cut]; exact begins) bytesSome bytesPlain ends
    rw [← cut] at bytes
    rw [streamOf, bytes]
    exact and_congr_left fun kept => receive_line_iff judges ruleKey isValid begins nonempty plain
      ends kept
  constructor
  · intro keeps
    obtain ⟨before, segment, after, split, plain, ends⟩ :=
      exists_first_lineEnd (through_begins (judges.shape isValid) begins).1
    exact ⟨before, segment, after, split, plain, ends, (survives split plain ends).mp keeps⟩
  · rintro ⟨before, segment, after, split, plain, ends, kept⟩
    exact (survives split plain ends).mpr kept

end Kept

/-- Detection is independent of the cuts exactly for these: an HTTP/2 stream whose
first segment holds the whole preface, and an HTTP/1 stream whose first line end
does not start a segment, whose request line reaches `llhttp` unmutilated and whose
segments up to that line end come in one batch. -/
theorem detection_iff {libraries : Libraries} {valid : List UInt8 → Prop}
    (judges : libraries.llhttp.Judges valid) (ruleKey : String) (segments : List Fragment)
    (nonempty : ∀ segment ∈ segments, segment.bytes ≠ []) :
    (http2ConnectionPreface <+: streamOf segments →
      (KeepsStream libraries ruleKey segments ↔
        ∃ first rest, segments = first :: rest ∧ 24 ≤ first.bytes.length)) ∧
    (∀ line, valid line → line <+: streamOf segments →
      (KeepsStream libraries ruleKey segments ↔ LineKept valid segments)) := by
  constructor
  · intro begun
    cases segments with
    | nil =>
        have bound := begun.length_le
        rw [preface_length] at bound
        cases bound
    | cons first rest =>
        rw [keepsStream_preface libraries ruleKey nonempty begun]
        constructor
        · intro long
          exact ⟨first, rest, rfl, long⟩
        · rintro ⟨_, _, same, long⟩
          cases same
          exact long
  · intro line isValid begins
    exact keepsStream_line judges ruleKey isValid nonempty begins

/-! ### A parser for a few request lines -/

def Llhttp.ofLines (lines : List (List UInt8)) : Llhttp where
  accepts := fun fed => lines.any fun line => fed <+: line ∨ line <+: fed

theorem Llhttp.judges_ofLines {lines : List (List UInt8)}
    (shapes : ∀ line ∈ lines, IsHttp1Line line) : (ofLines lines).Judges (· ∈ lines) where
  shape := fun member => shapes _ member
  accepts_beginning := by
    intro line beginning member begins
    exact List.any_eq_true.mpr ⟨line, member, decide_eq_true (Or.inl begins)⟩
  rejects := by
    intro fed unlike
    refine List.any_eq_false.mpr fun line member accepted => ?_
    rcases of_decide_eq_true accepted with begins | whole
    · exact (unlike line member).1 begins
    · exact (unlike line member).2 whole

theorem isHttp1Line_of_parts (start : List UInt8) (digit : UInt8) (some_ : start ≠ [])
    (digitPlain : isLineEnd digit = false) (startPlain : start.any isLineEnd = false) :
    IsHttp1Line (start ++ asciiBytes " HTTP/1." ++ [digit, crByte, lfByte]) := by
  refine ⟨start, digit, rfl, some_, digitPlain, ?_⟩
  intro byte member
  rw [List.any_eq_false] at startPlain
  exact Bool.eq_false_iff.mpr (startPlain byte member)

def postLine : List UInt8 := asciiBytes "POST /a" ++ asciiBytes " HTTP/1." ++ [49, crByte, lfByte]

def postLibraries : Libraries where
  httparse := putTokenizer
  llhttp := Llhttp.ofLines [postLine]
  nghttp2 := frameReader

theorem judges_postLibraries : postLibraries.llhttp.Judges (· ∈ [postLine]) :=
  Llhttp.judges_ofLines (List.forall_mem_singleton.mpr
    (isHttp1Line_of_parts _ 49 (by decide) (by decide) (by decide)))

/-- A request line cut inside its version, in one batch, and a preface with bytes behind it
that come in another. -/
theorem detection_of_post_and_preface :
    KeepsStream postLibraries "web"
        [⟨7, asciiBytes "POST /a HT"⟩, ⟨7, asciiBytes "TP/1.1\r\n\r\n"⟩] ∧
      KeepsStream postLibraries "web" [⟨7, http2ConnectionPreface ++ [0]⟩, ⟨8, [0, 0]⟩] := by
  have post := (detection_iff judges_postLibraries "web"
    [⟨7, asciiBytes "POST /a HT"⟩, ⟨7, asciiBytes "TP/1.1\r\n\r\n"⟩] (by decide)).2 postLine
    List.mem_cons_self (by decide)
  have preface := (detection_iff judges_postLibraries "web"
    [⟨7, http2ConnectionPreface ++ [0]⟩, ⟨8, [0, 0]⟩] (by decide)).1 (by decide)
  constructor
  · exact post.mpr ⟨[⟨7, asciiBytes "POST /a HT"⟩], ⟨7, asciiBytes "TP/1.1\r\n\r\n"⟩, [], rfl,
      by unfold Plain; decide, by decide, by decide, by decide, postLine, List.mem_cons_self,
      by decide⟩
  · exact preface.mpr ⟨⟨7, http2ConnectionPreface ++ [0]⟩, [⟨8, [0, 0]⟩], rfl, by decide⟩

/-- The first byte of a POST is taken for a beginning of the preface and kept from
`llhttp`; a preface cut after its third byte is taken for a request line; and a request line
whose end comes with the next batch is read from memory that has been given back. -/
theorem detection_loses_cut_streams :
    ¬KeepsStream postLibraries "web"
        [⟨7, asciiBytes "P"⟩, ⟨7, asciiBytes "OST /a HTTP/1.1\r\n\r\n"⟩] ∧
      ¬KeepsStream postLibraries "web"
        [⟨7, http2ConnectionPreface.take 3⟩, ⟨7, http2ConnectionPreface.drop 3⟩] ∧
      ¬KeepsStream postLibraries "web"
        [⟨7, asciiBytes "POST /a HT"⟩, ⟨8, asciiBytes "TP/1.1\r\n\r\n"⟩] := by
  decide +kernel

end NetPolicy.Http
