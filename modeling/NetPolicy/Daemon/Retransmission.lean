/-
A denied request that is sent again.

Once a segment has been denied, the sequence number the flow engine expects lies behind
it, so its retransmission counts as a duplicate and is accepted as it is.  Only where
the engine does not know the flow, or expects nothing further on, is the retransmission
read again; it is denied again if it is read by a connection that stands where the first
one stood, be it the same one or one made after the flow's entry was reaped.
-/

import NetPolicy.Daemon.Mediation

namespace NetPolicy.Daemon

open NetPolicy.Policy NetPolicy.Flow NetPolicy.Http

/-! ### Connections between two requests -/

def isIdle : Codec → Bool
  | .http1 codec => codec.parser == Http1Parser.new
  | .http2 _ => false

/-- An HTTP/1 connection that has read all it was given. -/
def HttpIdle (connection : Connection) : Prop :=
  connection.packet = [] ∧ ∃ codec ∈ connection.codec, isIdle codec = true

/-- A connection that was given nothing. -/
def Untouched (connection : Connection) : Prop :=
  connection.packet = [] ∧ connection.codec = none ∧ connection.inspector = HttpInspector.new

instance (connection : Connection) : Decidable (HttpIdle connection) :=
  inferInstanceAs (Decidable (_ ∧ ∃ codec ∈ connection.codec, _))

instance (connection : Connection) : Decidable (Untouched connection) :=
  inferInstanceAs (Decidable (_ ∧ _))

theorem untouched_new (ruleKey : String) : Untouched (Connection.new ruleKey) := ⟨rfl, rfl, rfl⟩

theorem http1_header_eq (libraries : Libraries) (parser : Http1Parser) (left right : Header)
    (data : List UInt8)
    (done : (Http1Codec.dispatch libraries { parser := parser, header := left }
      data).header.parseState = .done) :
    (Http1Codec.dispatch libraries { parser := parser, header := right } data).header =
      (Http1Codec.dispatch libraries { parser := parser, header := left } data).header := by
  unfold Http1Codec.dispatch at done ⊢
  dsimp only at done ⊢
  cases state : (parser.dispatch libraries.httparse data).header.parseState with
  | error =>
      rw [state] at done
      cases done
  | continue_ =>
      rw [state] at done
      cases done
  | done => rfl

theorem onData_of_idle (libraries : Libraries) {connection : Connection}
    (idle : HttpIdle connection) (data : List UInt8) :
    ∃ header, (connection.onData libraries data).2 =
      (Http1Codec.dispatch libraries { parser := Http1Parser.new, header := header }
        data).header := by
  rcases idle with ⟨empty, codec, stored, isIdle⟩
  cases codec with
  | http1 codec =>
      have parser : codec.parser = Http1Parser.new := beq_iff_eq.mp isIdle
      refine ⟨codec.header, ?_⟩
      rw [← parser]
      simp only [Connection.onData, Option.mem_def.mp stored, Connection.forward, empty]
      rfl
  | http2 codec => cases isIdle

/-- An inspector decides for HTTP/2 on the preface and for HTTP/1.1 on anything else. -/
theorem protocol_of_decided (llhttp : Llhttp) (inspector : HttpInspector) (data : List UInt8)
    (decided : (inspector.parseHttpHeader llhttp data).2 = .done) :
    http2ConnectionPreface <+: data ∧
        (inspector.parseHttpHeader llhttp data).1.protocol = .http2 ∨
      (inspector.parseHttpHeader llhttp data).1.protocol = .http11 := by
  unfold HttpInspector.parseHttpHeader at decided ⊢
  dsimp only at decided ⊢
  split at decided
  · rename_i beginning
    rw [if_pos beginning]
    split at decided
    · cases decided
    · rename_i long
      rw [if_neg long]
      rw [Nat.min_eq_right (Nat.le_of_not_lt long), List.take_length] at beginning
      exact Or.inl ⟨by rw [beginning]; exact List.take_prefix _ _, rfl⟩
  · rename_i differs
    rw [if_neg differs]
    split at decided
    · cases decided
    · rename_i starts
      rw [if_neg starts]
      split at decided
      · rename_i hasLine
        rw [if_pos hasLine]
        split at decided
        · rename_i accepted
          rw [if_pos accepted]
          exact Or.inr rfl
        · cases decided
      · split at decided <;> cases decided

theorem onData_of_untouched (libraries : Libraries) {connection : Connection}
    (untouched : Untouched connection) (data : List UInt8)
    (noPreface : ¬http2ConnectionPreface <+: data)
    (done : (connection.onData libraries data).2.parseState = .done) :
    (connection.onData libraries data).2 =
      (Http1Codec.new.dispatch libraries data).header := by
  rcases untouched with ⟨empty, noCodec, newInspector⟩
  have protocol decided := (protocol_of_decided libraries.llhttp HttpInspector.new data
    decided).resolve_left fun preface => noPreface preface.1
  unfold Connection.onData at done ⊢
  rw [noCodec, newInspector] at done ⊢
  dsimp only at done ⊢
  cases state : (HttpInspector.new.parseHttpHeader libraries.llhttp data).2 with
  | done =>
      simp only [protocol state, createCodec, Connection.forward, empty]
      rfl
  | continue_ => simp only [state, reduceCtorEq] at done
  | error => simp only [state, reduceCtorEq] at done

theorem onData_idle_again (libraries : Libraries) {first second : Connection}
    (ready : Untouched first ∨ HttpIdle first) (idle : HttpIdle second) (data : List UInt8)
    (noPreface : ¬http2ConnectionPreface <+: data)
    (done : (first.onData libraries data).2.parseState = .done) :
    (second.onData libraries data).2 = (first.onData libraries data).2 := by
  rcases onData_of_idle libraries idle data with ⟨header, readAgain⟩
  rw [readAgain]
  rcases ready with untouched | firstIdle
  · have read := onData_of_untouched libraries untouched data noPreface done
    rw [read] at done ⊢
    exact http1_header_eq libraries Http1Parser.new Header.blank header data done
  · rcases onData_of_idle libraries firstIdle data with ⟨firstHeader, read⟩
    rw [read] at done ⊢
    exact http1_header_eq libraries Http1Parser.new firstHeader header data done

theorem createCodec_of_decided (llhttp : Llhttp) (inspector : HttpInspector) (data : List UInt8)
    (decided : (inspector.parseHttpHeader llhttp data).2 = .done) :
    ∃ codec, createCodec (inspector.parseHttpHeader llhttp data).1.protocol = some codec := by
  rcases protocol_of_decided llhttp inspector data decided with ⟨-, protocol⟩ | protocol
  · rw [protocol]
    exact ⟨_, rfl⟩
  · rw [protocol]
    exact ⟨_, rfl⟩

/-- Two connections that have read the same, with nothing buffered. -/
structure SameReading (first second : Connection) : Prop where
  empty : first.packet = [] ∧ second.packet = []
  codec : first.codec = second.codec
  inspector : first.inspector = second.inspector

theorem onData_of_sameReading (libraries : Libraries) {first second : Connection}
    (same : SameReading first second) (data : List UInt8)
    (done : (first.onData libraries data).2.parseState = .done) :
    (second.onData libraries data).2 = (first.onData libraries data).2 := by
  obtain ⟨⟨firstEmpty, secondEmpty⟩, codec, inspector⟩ := same
  unfold Connection.onData at done ⊢
  rw [← codec, ← inspector]
  cases stored : first.codec with
  | some codec => simp only [Connection.forward, firstEmpty, secondEmpty]
  | none =>
      rw [stored] at done
      dsimp only at done ⊢
      have created := createCodec_of_decided libraries.llhttp first.inspector data
      cases state : (first.inspector.parseHttpHeader libraries.llhttp data).2 with
      | done =>
          obtain ⟨codec, created⟩ := created state
          simp only [created, Connection.forward, firstEmpty, secondEmpty]
      | continue_ => simp only [state, reduceCtorEq] at done
      | error => simp only [state, reduceCtorEq] at done

/-- The second connection makes of the bytes what the first made of them: it stands where the
first one stood, or both read an HTTP/1 request from its beginning. -/
def ReadsAlike (first second : Connection) (data : List UInt8) : Prop :=
  SameReading first second ∨
    (Untouched first ∨ HttpIdle first) ∧ HttpIdle second ∧ ¬http2ConnectionPreface <+: data

instance (first second : Connection) : Decidable (SameReading first second) :=
  decidable_of_iff ((first.packet = [] ∧ second.packet = []) ∧ first.codec = second.codec ∧
      first.inspector = second.inspector)
    ⟨fun same => ⟨same.1, same.2.1, same.2.2⟩, fun same => ⟨same.empty, same.codec, same.inspector⟩⟩

instance (first second : Connection) (data : List UInt8) : Decidable (ReadsAlike first second data) :=
  inferInstanceAs (Decidable (_ ∨ _))

theorem sameReading_untouched {first second : Connection} (untouched : Untouched first)
    (also : Untouched second) : SameReading first second :=
  ⟨⟨untouched.1, also.1⟩, untouched.2.1.trans also.2.1.symm, untouched.2.2.trans also.2.2.symm⟩

theorem onData_of_alike (libraries : Libraries) {first second : Connection} {data : List UInt8}
    (alike : ReadsAlike first second data)
    (done : (first.onData libraries data).2.parseState = .done) :
    (second.onData libraries data).2 = (first.onData libraries data).2 := by
  rcases alike with same | ⟨ready, idle, noPreface⟩
  · exact onData_of_sameReading libraries same data done
  · exact onData_idle_again libraries ready idle data noPreface done

theorem ReadsAlike.of_untouched {first other second : Connection} {data : List UInt8}
    (alike : ReadsAlike other second data) (untouched : Untouched first) (also : Untouched other) :
    ReadsAlike first second data := by
  have same := sameReading_untouched untouched also
  rcases alike with ⟨empty, codec, inspector⟩ | ⟨_, idle, noPreface⟩
  · exact Or.inl ⟨⟨untouched.1, empty.2⟩, same.codec.trans codec, same.inspector.trans inspector⟩
  · exact Or.inr ⟨Or.inl untouched, idle, noPreface⟩

/-! ### Denied requests -/

/-- The callback reported a denial under a rule key and sent the packet on rewritten. -/
def Handling.Denies (handling : Handling) (msg : NfqMessage) (ruleKey : String) : Prop :=
  (∃ post ∈ handling.posts, post.action = .deny ∧ post.ruleKey = ruleKey) ∧
    ∃ call ∈ handling.verdicts, call.payload = some (rstTcpLink msg.payload)

instance (handling : Handling) (msg : NfqMessage) (ruleKey : String) :
    Decidable (handling.Denies msg ruleKey) :=
  inferInstanceAs
    (Decidable ((∃ post ∈ handling.posts, _) ∧ ∃ call ∈ handling.verdicts, _))

/-- No verdict replaces the packet's bytes. -/
def Handling.Unchanged (handling : Handling) : Prop :=
  ∀ call ∈ handling.verdicts, call.payload = none

theorem not_denies_of_unchanged {handling : Handling} (unchanged : handling.Unchanged)
    {msg : NfqMessage} {ruleKey : String} : ¬handling.Denies msg ruleKey := by
  rintro ⟨-, call, issued, rewritten⟩
  rw [unchanged call issued] at rewritten
  cases rewritten

theorem unchanged_of_silent {handled : Handling} (silent : handled.verdicts = []) :
    handled.Unchanged := by
  intro call issued
  rw [silent] at issued
  cases issued

theorem unchanged_verdict {handling : Handling} (unchanged : handling.Unchanged) (id : Nat)
    (verdict : NfqVerdict) : (handling.verdict id verdict).Unchanged := by
  intro call issued
  rcases List.mem_append.mp issued with earlier | last
  · exact unchanged call earlier
  · rw [List.mem_singleton.mp last]

theorem unchanged_verdictWithMark {handling : Handling} (unchanged : handling.Unchanged)
    (id : Nat) (verdict : NfqVerdict) (rule : NetPolicyRule) :
    (handling.verdictWithMark id verdict rule none).Unchanged := by
  intro call issued
  rcases List.mem_append.mp issued with earlier | last
  · exact unchanged call earlier
  · rw [List.mem_singleton.mp last]

section Denial

variable (env : Environment) (side : Side) (store : MicroSegEngine) (msg : NfqMessage)
  (tuple : FiveTuple) (decision : PacketDecision) (now : Nat)

/-- The HTTP rules under a key deny what some connection made of the payload. -/
def DeniedAs (ruleKey : String) (connection : Connection) (data : List UInt8) : Prop :=
  (connection.onData env.libraries data).2.parseState = .done ∧
    ∃ rules, (store.httpPolicy side.dir).lookup ruleKey = some rules ∧
      matchHttpPolicyRule rules (connection.onData env.libraries data).2 = .deny

/-- The connection a dispatch gives payload to. -/
def Receives (manager : ConnectionManager) (ruleKey : String) (connection : Connection) : Prop :=
  (manager.micro.lookup decision.connId).map MicrosegEntry.conn = some connection ∨
    manager.micro.lookup decision.connId = none ∧ connection = Connection.new ruleKey

theorem dispatchMicroseg_header (libraries : Libraries) {manager : ConnectionManager}
    {ruleKey : String} {header : Header}
    (completed : (manager.dispatchMicroseg libraries decision msg.payload ruleKey now).header =
      some header) :
    (decision.kind = .data ∨ decision.kind = .unknownData) ∧
      ∃ connection, Receives decision manager ruleKey connection ∧
        (connection.onData libraries (msg.payload.drop decision.payloadOffset)).2 = header ∧
        header.parseState = .done := by
  have inspected (entry : MicrosegEntry)
      (found : (manager.inspect libraries decision entry msg.payload now).header = some header) :
      (entry.conn.onData libraries (msg.payload.drop decision.payloadOffset)).2 = header ∧
        header.parseState = .done := by
    dsimp only [ConnectionManager.inspect] at found
    split at found
    · rename_i done
      rw [Option.some.injEq] at found
      rw [← found]
      exact ⟨rfl, done⟩
    · cases found
  unfold ConnectionManager.dispatchMicroseg at completed
  split at completed
  · cases completed
  · cases completed
  · rename_i unknown
    refine ⟨Or.inr unknown, _, ?_, inspected _ completed⟩
    unfold Receives
    cases manager.micro.lookup decision.connId with
    | none => exact Or.inr ⟨rfl, rfl⟩
    | some entry => exact Or.inl rfl
  · cases completed
  · rename_i data
    split at completed
    · cases completed
    · rename_i entry found
      refine ⟨Or.inl data, entry.conn, ?_, inspected entry completed⟩
      exact Or.inl (by rw [found]; rfl)
  · cases completed

theorem inspectCb_denies (handling : Handling) (fresh : handling.posts = [])
    (unchanged : handling.Unchanged) {stored ruleKey : String}
    (denies : (inspectCb env side store msg tuple stored decision now handling).Denies msg
      ruleKey) :
    stored = ruleKey ∧ (decision.kind = .data ∨ decision.kind = .unknownData) ∧
      ∃ connection, Receives decision handling.manager stored connection ∧
        DeniedAs env side store stored connection
          (msg.payload.drop decision.payloadOffset) := by
  unfold inspectCb at denies
  dsimp only [Handling.dispatch] at denies
  split at denies
  · exact absurd denies (not_denies_of_unchanged (unchanged_verdictWithMark unchanged _ _ _))
  · rename_i header completed
    rcases dispatchMicroseg_header msg decision now env.libraries completed with
      ⟨carries, connection, receives, read, done⟩
    split at denies
    · exact absurd denies (not_denies_of_unchanged (unchanged_verdictWithMark unchanged _ _ _))
    · rename_i rules listed
      split at denies
      · exact absurd denies (not_denies_of_unchanged (unchanged_verdictWithMark unchanged _ _ _))
      · rcases denies.1 with ⟨post, posted, isDenial, key⟩
        dsimp only [Handling.sendMatchMsg, Handling.verdictWithMark] at posted
        rw [fresh, List.nil_append, List.mem_singleton] at posted
        rw [posted] at isDenial key
        refine ⟨key, carries, connection, receives, ?_, rules, listed, ?_⟩
        · rw [read]
          exact done
        · rw [read]
          exact isDenial

theorem trackedCb_denies {handling : Handling} (fresh : handling.posts = [])
    (unchanged : handling.Unchanged) {payload : Bool} {ruleKey : String}
    (denies : (trackedCb env side store msg tuple decision payload now handling).Denies msg
      ruleKey) :
    (decision.kind = .data ∨ decision.kind = .unknownData) ∧
      ∃ stored connection, Receives decision handling.manager stored connection ∧
        DeniedAs env side store ruleKey connection
          (msg.payload.drop decision.payloadOffset) := by
  by_cases closed : decision.kind = .closed
  · rw [trackedCb_closed env side store msg tuple now handling closed] at denies
    exact absurd denies (not_denies_of_unchanged (unchanged_verdictWithMark unchanged _ _ _))
  cases payload with
  | false =>
      rw [trackedCb_silent env side store msg tuple now handling closed] at denies
      exact absurd denies (not_denies_of_unchanged (unchanged_verdictWithMark unchanged _ _ _))
  | true =>
      cases syn : decision.syn with
      | true =>
          rw [trackedCb_syn env side store msg tuple now handling closed syn] at denies
          exact absurd denies (not_denies_of_unchanged (unchanged_verdictWithMark unchanged _ _ _))
      | false =>
          by_cases duplicate : decision.kind = .duplicate
          · rw [trackedCb_duplicate env side store msg tuple now handling duplicate syn] at denies
            exact absurd denies (not_denies_of_unchanged (unchanged_verdict unchanged _ _))
          · rw [trackedCb_inspects env side store msg tuple now handling closed duplicate syn]
              at denies
            rcases inspectCb_denies env side store msg tuple decision now _ fresh unchanged denies
              with ⟨rfl, carries, connection, receives, denied⟩
            exact ⟨carries, _, connection, receives, denied⟩

theorem untrackedCb_denies {handling : Handling} (fresh : handling.posts = [])
    (unchanged : handling.Unchanged) {payload : Bool} {ruleKey : String}
    (denies : (untrackedCb env side store msg tuple decision payload now handling).Denies msg
      ruleKey) :
    (decision.kind = .data ∨ decision.kind = .unknownData) ∧
      ∃ connection,
        Receives decision (handling.manager.microsegTrack decision ruleKey now) ruleKey
          connection ∧
        DeniedAs env side store ruleKey connection
          (msg.payload.drop decision.payloadOffset) := by
  unfold untrackedCb at denies
  split at denies
  · exact absurd denies (not_denies_of_unchanged (unchanged_verdictWithMark unchanged _ _ _))
  dsimp only at denies
  split at denies
  · exact absurd denies (not_denies_of_unchanged (unchanged_verdictWithMark unchanged _ _ _))
  split at denies
  · have posted (answer : MicroMatch) : (handling.sendMatchMsg answer.tuple answer.rule answer.dir
        answer.ruleKey).Unchanged := unchanged
    split at denies
    · exact absurd denies (not_denies_of_unchanged (unchanged_verdict (posted _) _ _))
    · exact absurd denies (not_denies_of_unchanged (unchanged_verdictWithMark (posted _) _ _ _))
  have tracked (manager : ConnectionManager) : (handling.withManager manager).Unchanged :=
    unchanged
  split at denies
  · exact absurd denies (not_denies_of_unchanged (unchanged_verdictWithMark (tracked _) _ _ _))
  · rcases inspectCb_denies env side store msg _ decision now
        (handling.withManager
          (handling.manager.microsegTrack decision
            (matchMicroPolicyRule env.order store tuple side.dir).ruleKey now))
        fresh (tracked _) denies with
      ⟨rfl, carries, connection, receives, denied⟩
    exact ⟨carries, connection, receives, denied⟩

theorem settle_posts (handling : Handling) :
    (settle env msg decision now handling).posts = handling.posts := by
  unfold settle Handling.microsegClose
  split <;> rfl

theorem receives_of_settled {manager : ConnectionManager} (engine : FlowEngine)
    (carries : decision.kind = .data ∨ decision.kind = .unknownData) {ruleKey : String}
    {connection : Connection}
    (receives : Receives decision
      (settle env msg decision now (Handling.start { manager with engine := engine })).manager
      ruleKey connection) :
    (manager.micro.lookup decision.connId).map MicrosegEntry.conn = some connection ∨
      manager.micro.lookup decision.connId = none ∧ Untouched connection := by
  unfold Receives at receives
  rw [settle_of_open env msg decision now _ (carrying_kind carries).1] at receives
  rcases ConnectionManager.microsegTouch_own
    (Handling.start { manager with engine := engine }).manager decision now with ⟨clock, touched⟩
  rw [touched, Option.map_map, Option.map_eq_none_iff] at receives
  rcases receives with kept | ⟨absent, made⟩
  · exact Or.inl kept
  · exact Or.inr ⟨absent, made ▸ untouched_new ruleKey⟩

theorem untouched_of_bound {manager : ConnectionManager} (engine : FlowEngine)
    (carries : decision.kind = .data ∨ decision.kind = .unknownData)
    (untracked : manager.micro.contains decision.connId = false) {ruleKey : String}
    {connection : Connection}
    (receives : Receives decision
      ((settle env msg decision now
        (Handling.start { manager with engine := engine })).manager.microsegTrack decision ruleKey
          now) ruleKey connection) : Untouched connection := by
  have absent : (settle env msg decision now
      (Handling.start { manager with engine := engine })).manager.micro.lookup
        decision.connId = none := by
    apply Table.lookup_eq_none_of_not_contains
    rw [settle_of_open env msg decision now _ (carrying_kind carries).1,
      ConnectionManager.microsegTouch_contains]
    exact untracked
  unfold Receives at receives
  rw [ConnectionManager.microsegTrack_own _ _ _ _ absent] at receives
  rcases receives with made | ⟨impossible, -⟩
  · cases made
    exact untouched_new ruleKey
  · cases impossible

end Denial

/-- A denied request was read by the flow's connection, or by a new one, and the HTTP
rules under the reported key deny it. -/
theorem nfqCb_denies (env : Environment) (side : Side) (store : MicroSegEngine)
    (msg : NfqMessage) (manager : ConnectionManager) (now : Nat) {segment : Segment}
    (parsed : parseSegment msg.payload = some segment) {ruleKey : String}
    (denies : (nfqCb env side store msg manager now).Denies msg ruleKey) :
    ∃ connection,
      ((manager.micro.lookup segment.id).map MicrosegEntry.conn = some connection ∨
        manager.micro.lookup segment.id = none ∧ Untouched connection) ∧
      DeniedAs env side store ruleKey connection (segment.payload msg.payload) := by
  cases bypassed : side.bypasses msg.nfmark with
  | true =>
      rw [nfqCb_bypassed env side store msg manager now bypassed] at denies
      exact absurd denies
        (not_denies_of_unchanged (unchanged_verdict (unchanged_of_silent rfl) _ _))
  | false =>
      rw [nfqCb_segment env side store msg manager now bypassed parsed] at denies
      have named := decision_of_carries manager.engine segment now
      generalize manager.engine.onSegment segment now = next at denies named
      by_cases ignored : next.2.kind = .ignore
      · rw [tcpCb_ignored env side store msg msg.tuple next.2 now _ ignored] at denies
        exact absurd denies
          (not_denies_of_unchanged (unchanged_verdictWithMark (unchanged_of_silent rfl) _ _ _))
      have fresh := settle_posts env msg next.2 now
        (Handling.start { manager with engine := next.1 })
      have unchanged := unchanged_of_silent (settle_verdicts env msg next.2 now
        (Handling.start { manager with engine := next.1 }))
      cases tracked : manager.micro.contains next.2.connId with
      | true =>
          rw [tcpCb_start_tracked env side store msg msg.tuple next.2 now manager next.1 ignored
            tracked] at denies
          rcases trackedCb_denies env side store msg msg.tuple next.2 now fresh unchanged denies
            with ⟨carries, stored, connection, receives, denied⟩
          have own : next.2.connId = segment.id := congrArg PacketDecision.connId (named carries)
          have offset : next.2.payloadOffset = segment.payloadOffset :=
            congrArg PacketDecision.payloadOffset (named carries)
          rw [offset] at denied
          have holder := receives_of_settled env msg next.2 now next.1 carries receives
          rw [own] at holder
          exact ⟨connection, holder, denied⟩
      | false =>
          rw [tcpCb_start_untracked env side store msg msg.tuple next.2 now manager next.1 ignored
            tracked] at denies
          rcases untrackedCb_denies env side store msg msg.tuple next.2 now fresh unchanged denies
            with ⟨carries, connection, receives, denied⟩
          have own : next.2.connId = segment.id := congrArg PacketDecision.connId (named carries)
          have offset : next.2.payloadOffset = segment.payloadOffset :=
            congrArg PacketDecision.payloadOffset (named carries)
          have untouched := untouched_of_bound env msg next.2 now next.1 carries tracked receives
          rw [own] at tracked
          rw [offset] at denied
          exact ⟨connection, Or.inr ⟨Table.lookup_eq_none_of_not_contains tracked, untouched⟩,
            denied⟩

/-! ### Reading a request again -/

def ConnectionManager.connectionFor (manager : ConnectionManager) (id : ConnectionId)
    (ruleKey : String) : Connection :=
  ((manager.micro.lookup id).map MicrosegEntry.conn).getD (Connection.new ruleKey)

/-- The key that payload of a flow is judged under: the one of its connection, or the one of the
rule that the store has for the packet. -/
def ruleKeyFor (env : Environment) (side : Side) (store : MicroSegEngine) (msg : NfqMessage)
    (manager : ConnectionManager) (id : ConnectionId) : Option String :=
  match manager.micro.lookup id with
  | some entry => some entry.conn.ruleKey
  | none =>
      let answer := matchMicroPolicyRule env.order store msg.tuple side.dir
      if answer.rule = .default then none else some answer.ruleKey

theorem connectionFor_of_lookup {manager : ConnectionManager} {id : ConnectionId}
    {entry : MicrosegEntry} (tracked : manager.micro.lookup id = some entry) (ruleKey : String) :
    manager.connectionFor id ruleKey = entry.conn := by
  rw [ConnectionManager.connectionFor, tracked]
  rfl

theorem connectionFor_of_none {manager : ConnectionManager} {id : ConnectionId}
    (untracked : manager.micro.lookup id = none) (ruleKey : String) :
    manager.connectionFor id ruleKey = Connection.new ruleKey := by
  rw [ConnectionManager.connectionFor, untracked]
  rfl

section Again

variable (env : Environment) (side : Side) (store : MicroSegEngine) (msg : NfqMessage)
  (now : Nat) {segment : Segment} {ruleKey : String}

def denialVerdict : VerdictCall :=
  { id := msg.id
    verdict := .accept
    mark := some side.pass.value
    payload := some (rstTcpLink msg.payload) }

theorem inspectCb_rereads (tuple : FiveTuple) {kind : PacketKind} {handling : Handling}
    {entry : MicrosegEntry} (carries : kind = .data ∨ kind = .unknownData)
    (silent : handling.verdicts = [])
    (tracked : handling.manager.micro.lookup segment.id = some entry)
    (denied : DeniedAs env side store ruleKey entry.conn (segment.payload msg.payload)) :
    (inspectCb env side store msg tuple ruleKey (segment.decision kind) now handling).verdicts =
      [denialVerdict side msg] := by
  rcases denied with ⟨done, rules, listed, isDenial⟩
  have read : (handling.manager.inspect env.libraries (segment.decision kind) entry msg.payload
      now).header = some (entry.conn.onData env.libraries (segment.payload msg.payload)).2 :=
    if_pos done
  have header : (handling.manager.dispatchMicroseg env.libraries (segment.decision kind)
      msg.payload ruleKey now).header =
      some (entry.conn.onData env.libraries (segment.payload msg.payload)).2 := by
    unfold ConnectionManager.dispatchMicroseg
    rw [show (segment.decision kind).connId = segment.id from rfl, tracked]
    rcases carries with rfl | rfl
    · exact read
    · exact read
  unfold inspectCb
  dsimp only [Handling.dispatch]
  simp only [header, listed, isDenial, reduceCtorEq, if_false, if_true, Handling.sendMatchMsg,
    Handling.verdictWithMark, silent]
  rfl

theorem settle_lookup (segment : Segment) {kind : PacketKind} (handling : Handling)
    (carries : kind = .data ∨ kind = .unknownData) :
    ∃ clock : Nat → Nat,
      (settle env msg (segment.decision kind) now handling).manager.micro.lookup segment.id =
        (handling.manager.micro.lookup segment.id).map fun entry =>
          { entry with lastSeen := clock entry.lastSeen } := by
  rw [settle_of_open env msg _ now handling (carrying_kind carries).1]
  exact handling.manager.microsegTouch_own (segment.decision kind) now

theorem trackedCb_rereads (tuple : FiveTuple) {kind : PacketKind} {handling : Handling}
    {entry : MicrosegEntry} (carries : kind = .data ∨ kind = .unknownData)
    (noSyn : segment.syn = false) (silent : handling.verdicts = [])
    (tracked : handling.manager.micro.lookup segment.id = some entry)
    (denied : DeniedAs env side store entry.conn.ruleKey entry.conn
      (segment.payload msg.payload)) :
    (trackedCb env side store msg tuple (segment.decision kind) true now handling).verdicts =
      [denialVerdict side msg] := by
  obtain ⟨opened, -, fresh⟩ := carrying_kind carries
  have stored : handling.manager.microsegRuleKey (segment.decision kind) =
      some entry.conn.ruleKey :=
    congrArg (Option.map fun entry : MicrosegEntry => entry.conn.ruleKey) tracked
  rw [trackedCb_inspects env side store msg tuple now _ opened fresh noSyn, stored,
    Option.getD_some]
  exact inspectCb_rereads env side store msg now _ carries silent tracked denied

theorem untrackedCb_rereads (tuple : FiveTuple) {kind : PacketKind} {handling : Handling}
    (carries : kind = .data ∨ kind = .unknownData) (noSyn : segment.syn = false)
    (silent : handling.verdicts = [])
    (untracked : handling.manager.micro.lookup segment.id = none)
    (matched : (matchMicroPolicyRule env.order store tuple side.dir).rule ≠ .default)
    (denied : DeniedAs env side store (matchMicroPolicyRule env.order store tuple side.dir).ruleKey
      (Connection.new (matchMicroPolicyRule env.order store tuple side.dir).ruleKey)
      (segment.payload msg.payload)) :
    (untrackedCb env side store msg tuple (segment.decision kind) true now handling).verdicts =
      [denialVerdict side msg] := by
  have judged : ((store.httpPolicy side.dir).lookup
      (matchMicroPolicyRule env.order store tuple side.dir).ruleKey).getD [] ≠ [] := by
    obtain ⟨_, rules, listed, isDenial⟩ := denied
    rw [listed, Option.getD_some]
    rintro rfl
    cases isDenial
  have noFlag : ¬(segment.decision kind).syn = true := Bool.eq_false_iff.mp noSyn
  rw [untrackedCb, if_neg (by rw [Bool.not_true, Bool.and_false]; exact Bool.false_ne_true)]
  dsimp only
  rw [if_neg matched, if_neg judged, if_neg noFlag]
  exact inspectCb_rereads env side store msg now _ carries silent
    (ConnectionManager.microsegTrack_own _ (segment.decision kind) _ now untracked) denied

theorem tcpCb_rereads {kind : PacketKind} {handling : Handling}
    (carries : kind = .data ∨ kind = .unknownData)
    (parsed : parseSegment msg.payload = some segment) (payload : 0 < segment.payloadLen)
    (noSyn : segment.syn = false) (silent : handling.verdicts = [])
    (key : ruleKeyFor env side store msg handling.manager segment.id = some ruleKey)
    (denied : DeniedAs env side store ruleKey
      (handling.manager.connectionFor segment.id ruleKey) (segment.payload msg.payload)) :
    (tcpCb env side store msg msg.tuple (segment.decision kind) now handling).verdicts =
      [denialVerdict side msg] := by
  have heeded := (carrying_kind carries).2.1
  have present := hasPayload_decision msg (carries.imp_right Or.inr) parsed payload
  have answered : (settle env msg (segment.decision kind) now handling).verdicts = [] := by
    rw [settle_verdicts, silent]
  rcases settle_lookup env msg now segment handling carries with ⟨clock, settled⟩
  unfold ruleKeyFor at key
  cases tracked : handling.manager.micro.lookup segment.id with
  | some entry =>
      rw [connectionFor_of_lookup tracked] at denied
      rw [tracked] at key settled
      cases key
      rw [tcpCb_tracked env side store msg msg.tuple (segment.decision kind) now handling heeded
        (Table.contains_of_lookup tracked), present]
      exact trackedCb_rereads env side store msg now _ carries noSyn answered settled denied
  | none =>
      rw [connectionFor_of_none tracked] at denied
      rw [tracked] at key settled
      dsimp only at key
      split at key
      · cases key
      · rename_i matched
        cases key
        rw [tcpCb_untracked env side store msg msg.tuple (segment.decision kind) now handling heeded
          (Table.not_contains_of_lookup tracked), present]
        exact untrackedCb_rereads env side store msg now _ carries noSyn answered settled matched
          denied

theorem nfqCb_rereads {manager : ConnectionManager}
    (parsed : parseSegment msg.payload = some segment) (payload : 0 < segment.payloadLen)
    (reaches : ReachesConnection manager side msg segment)
    (key : ruleKeyFor env side store msg manager segment.id = some ruleKey)
    (denied : DeniedAs env side store ruleKey (manager.connectionFor segment.id ruleKey)
      (segment.payload msg.payload)) :
    (nfqCb env side store msg manager now).verdicts = [denialVerdict side msg] := by
  rcases reaches with ⟨seen, noSyn, noRst, ordered⟩
  rw [nfqCb_segment env side store msg manager now seen parsed]
  have decides := onSegment_decides manager.engine segment now
  generalize manager.engine.onSegment segment now = next at decides
  cases decides with
  | closed state known ends =>
      rw [noRst, (ordered state known).1] at ends
      rcases ends with impossible | impossible <;> cases impossible
  | duplicate state known noFin noRst behind =>
      have ahead := (ordered state known).2
      omega
  | data state known noFin noRst ahead =>
      exact tcpCb_rereads env side store msg now (Or.inl rfl) parsed payload noSyn rfl key denied
  | ignored unknown rst =>
      rw [noRst] at rst
      cases rst
  | opened unknown noRst syn =>
      rw [noSyn] at syn
      cases syn
  | unknownData unknown noRst noSyn =>
      exact tcpCb_rereads env side store msg now (Or.inr rfl) parsed payload noSyn rfl key denied

end Again

/-! ### Whole runs -/

/-- A later packet of the flow with the same sequence number and payload. -/
structure Repeats (first retry : NfqMessage) (firstSegment retrySegment : Segment) : Prop where
  flow : retrySegment.id = firstSegment.id
  seq : retrySegment.seq = firstSegment.seq
  payload : retrySegment.payload retry.payload = firstSegment.payload first.payload

/-- The retransmission is judged under the rule key of the denial and reaches a connection that
reads it as the first one did; and the rewrite finds a byte to change. -/
structure ReadAgain (env : Environment) (earlier later : DaemonContext) (side : Side)
    (retry : NfqMessage) (segment : Segment) (ruleKey : String) : Prop where
  key : ruleKeyFor env side later.microseg retry later.connMgr segment.id = some ruleKey
  alike : ReadsAlike (earlier.connMgr.connectionFor segment.id ruleKey)
    (later.connMgr.connectionFor segment.id ruleKey) (segment.payload retry.payload)
  reaches : ReachesConnection later.connMgr side retry segment
  bites : RewriteBites retry.payload segment

theorem payloadLen_of_bites {pkg : List UInt8} {segment : Segment}
    (parsed : parseSegment pkg = some segment) (bites : RewriteBites pkg segment) :
    0 < segment.payloadLen := by
  rcases bites with ⟨-, index, -, -, nonzero⟩
  have bounds := bounds_of_parseSegment parsed
  have inside : segment.payloadOffset + index < pkg.length := by
    by_contra outside
    apply nonzero
    unfold peek
    rw [List.getD_eq_getElem?_getD, List.getElem?_eq_none (Nat.le_of_not_lt outside)]
    rfl
  omega

/-- In every run: a request that was denied is not let through when its segment comes
again and is read again, as long as the HTTP rules are the same. -/
theorem denied_stays_denied (env : Environment) (queue : Queue) (before between : List DaemonEvent)
    (first retry : NfqMessage) (firstTime retryTime : Nat) (firstSegment retrySegment : Segment)
    (ruleKey : String)
    (firstParsed : parseSegment first.payload = some firstSegment)
    (retryParsed : parseSegment retry.payload = some retrySegment)
    (denied : ((Runs.run (DaemonContext.step env) DaemonContext.new before).handle env queue first
      firstTime).Denies first ruleKey)
    (repeats : Repeats first retry firstSegment retrySegment)
    (sameRules : (Runs.run (DaemonContext.step env) DaemonContext.new
        (before ++ .packet queue first firstTime :: between)).microseg.httpPolicy queue.side.dir =
      (Runs.run (DaemonContext.step env) DaemonContext.new before).microseg.httpPolicy
        queue.side.dir)
    (readAgain : ReadAgain env (Runs.run (DaemonContext.step env) DaemonContext.new before)
      (Runs.run (DaemonContext.step env) DaemonContext.new
        (before ++ .packet queue first firstTime :: between))
      queue.side retry retrySegment ruleKey) :
    ¬((Runs.run (DaemonContext.step env) DaemonContext.new
        (before ++ .packet queue first firstTime :: between)).handle env queue retry
        retryTime).LetsThrough retry retrySegment := by
  generalize Runs.run (DaemonContext.step env) DaemonContext.new before = earlier
    at denied sameRules readAgain
  generalize Runs.run (DaemonContext.step env) DaemonContext.new
    (before ++ .packet queue first firstTime :: between) = later at sameRules readAgain ⊢
  rw [DaemonContext.handle, Queue.callback_eq] at denied ⊢
  rcases nfqCb_denies env queue.side earlier.microseg first earlier.connMgr firstTime firstParsed
    denied with ⟨connection, reader, done, rules, listed, isDenial⟩
  have alike : ReadsAlike connection (later.connMgr.connectionFor retrySegment.id ruleKey)
      (retrySegment.payload retry.payload) := by
    rw [← repeats.flow] at reader
    rcases reader with stored | ⟨absent, untouched⟩
    · rcases Option.map_eq_some_iff.mp stored with ⟨entry, found, rfl⟩
      rw [← connectionFor_of_lookup found ruleKey]
      exact readAgain.alike
    · refine readAgain.alike.of_untouched untouched ?_
      rw [connectionFor_of_none absent]
      exact untouched_new ruleKey
  -- the same bytes give the same request
  rw [← repeats.payload] at done isDenial
  have again := onData_of_alike env.libraries alike done
  have deniedAgain : DeniedAs env queue.side later.microseg ruleKey
      (later.connMgr.connectionFor retrySegment.id ruleKey)
      (retrySegment.payload retry.payload) := by
    unfold DeniedAs
    rw [again, sameRules]
    exact ⟨done, rules, listed, isDenial⟩
  have verdicts := nfqCb_rereads env queue.side later.microseg retry retryTime retryParsed
    (payloadLen_of_bites retryParsed readAgain.bites) readAgain.reaches readAgain.key deniedAgain
  rintro ⟨call, issued, -, kept⟩
  rw [verdicts, List.mem_singleton] at issued
  rw [issued] at kept
  exact payload_rstTcpLink_ne retryParsed readAgain.bites kept

def getLine : List UInt8 := asciiBytes "GET /a" ++ asciiBytes " HTTP/1." ++ [49, crByte, lfByte]

def getBlock : List UInt8 := getLine ++ asciiBytes "Host: h\r\n\r\n"

def getEnvironment : Environment where
  libraries :=
    { httparse :=
        Httparse.single getBlock (by decide)
          { method := some "GET", path := some "/a", headers := [("Host", asciiBytes "h")] }
      llhttp := Llhttp.ofLines [getLine]
      nghttp2 := frameReader }
  order := .stored

def getMessage : NfqMessage := plainMessage webFlow 101 ackFlag getBlock

def getSegment : Segment := webSegment 101 false false false 28

/-- On a flow whose SYN was never seen the request is denied, and denied again, also after the
flow's entry was reaped. -/
theorem lateRequest_stays_denied :
    let denied := Runs.run (DaemonContext.step getEnvironment) DaemonContext.new
      [.control webPolicy, .packet .input getMessage 0]
    let reaped := Runs.run (DaemonContext.step getEnvironment) DaemonContext.new
      [.control webPolicy, .packet .input getMessage 0, .reap 1000]
    ((Runs.run (DaemonContext.step getEnvironment) DaemonContext.new
      [.control webPolicy]).handle getEnvironment .input getMessage 0).Denies getMessage "web" ∧
    ¬(denied.handle getEnvironment .input getMessage 1).LetsThrough getMessage getSegment ∧
    reaped.connMgr.micro.contains getSegment.id = false ∧
    ¬(reaped.handle getEnvironment .input getMessage 1001).LetsThrough getMessage getSegment := by
  have denied : ((Runs.run (DaemonContext.step getEnvironment) DaemonContext.new
      [.control webPolicy]).handle getEnvironment .input getMessage 0).Denies getMessage "web" := by
    decide +kernel
  refine ⟨denied, ?_, by decide +kernel, ?_⟩
  · exact denied_stays_denied getEnvironment .input [.control webPolicy] [] getMessage getMessage 0
      1 getSegment getSegment "web" (by decide +kernel) (by decide +kernel) denied ⟨rfl, rfl, rfl⟩
      rfl
      { key := by decide +kernel
        alike := by decide +kernel
        reaches := by decide +kernel
        bites := by decide +kernel }
  · exact denied_stays_denied getEnvironment .input [.control webPolicy] [.reap 1000] getMessage
      getMessage 0 1001 getSegment getSegment "web" (by decide +kernel) (by decide +kernel) denied
      ⟨rfl, rfl, rfl⟩ rfl
      { key := by decide +kernel
        alike := by decide +kernel
        reaches := by decide +kernel
        bites := by decide +kernel }

/-- On a flow whose SYN was seen the request is denied, and its retransmission is let
through. -/
theorem deniedRequest_let_through_again :
    let opened := Runs.run (DaemonContext.step getEnvironment) DaemonContext.new
      [.control webPolicy, .packet .input (plainMessage webFlow 100 synFlag []) 0]
    let denied := opened.step getEnvironment (.packet .input getMessage 1)
    parseSegment getMessage.payload = some getSegment ∧
    (opened.handle getEnvironment .input getMessage 1).Denies getMessage "web" ∧
    ¬(opened.handle getEnvironment .input getMessage 1).LetsThrough getMessage getSegment ∧
    (denied.handle getEnvironment .input getMessage 2).LetsThrough getMessage getSegment := by
  decide +kernel

end NetPolicy.Daemon
