/-
A new connection starts without the HTTP state of an earlier one.

An entry of the microsegmentation map is torn down together with the flow engine's
entry, so it cannot outlive its connection as long as no entry is made for a flow the
engine does not know.  Two kinds of packets make such entries: data of a flow whose
SYN was never seen, and a SYN that also closes a known flow.
-/

import NetPolicy.Daemon.Run
import NetPolicy.Http.SegmentMemory

namespace NetPolicy.Daemon

open NetPolicy.Policy NetPolicy.Flow NetPolicy.Http

/-- Payload of a flow the engine does not know. -/
def LateBinds (engine : FlowEngine) (segment : Segment) : Prop :=
  engine.tcbs.contains segment.id = false ∧ segment.rst = false ∧ segment.syn = false ∧
    0 < segment.payloadLen

/-- A SYN with FIN or RST, on a flow the engine knows. -/
def ReopensWhileClosing (engine : FlowEngine) (segment : Segment) : Prop :=
  engine.tcbs.contains segment.id = true ∧ segment.syn = true ∧
    (segment.fin = true ∨ segment.rst = true)

instance (engine : FlowEngine) (segment : Segment) : Decidable (LateBinds engine segment) :=
  inferInstanceAs (Decidable (_ ∧ _))

instance (engine : FlowEngine) (segment : Segment) :
    Decidable (ReopensWhileClosing engine segment) :=
  inferInstanceAs (Decidable (_ ∧ _))

/-- A packet that HTTP rules apply to, on a flow without an entry, is neither late nor a
SYN that closes. -/
def BindsKnownFlows (env : Environment) (daemon : DaemonContext) : DaemonEvent → Prop
  | .packet queue msg _ =>
      ∀ segment ∈ parseSegment msg.payload,
        queue.side.bypasses msg.nfmark = false →
        daemon.connMgr.micro.contains segment.id = false →
        HttpApplies env queue.side daemon.microseg msg.tuple →
        ¬LateBinds daemon.connMgr.engine segment ∧
          ¬ReopensWhileClosing daemon.connMgr.engine segment
  | .reap _ => True
  | .control _ => True

instance (env : Environment) (daemon : DaemonContext) (event : DaemonEvent) :
    Decidable (BindsKnownFlows env daemon event) :=
  match event with
  | .packet _ msg _ => inferInstanceAs (Decidable (∀ segment ∈ parseSegment msg.payload, _))
  | .reap _ => .isTrue trivial
  | .control _ => .isTrue trivial

def EntriesKnown (manager : ConnectionManager) : Prop :=
  ∀ id, manager.micro.contains id = true → manager.engine.tcbs.contains id = true

/-! ### The flow engine forgets only what it closes or evicts -/

theorem onSegment_contains {engine : FlowEngine} {segment : Segment} {now : Nat}
    (opened : (engine.onSegment segment now).2.kind ≠ .closed) {id : ConnectionId}
    (known : engine.tcbs.contains id = true) :
    (engine.onSegment segment now).1.tcbs.contains id = true := by
  have decides := onSegment_decides engine segment now
  generalize engine.onSegment segment now = next at decides opened
  cases decides with
  | closed state flow ends => exact absurd rfl opened
  | duplicate state flow noFin noRst behind => exact known
  | data state flow noFin noRst ahead =>
      dsimp only
      rw [Table.contains_insert, known, Bool.or_true]
  | ignored unknown rst => exact known
  | opened unknown noRst syn =>
      dsimp only [FlowEngine.opened]
      have own : (engine.ownOpened segment now).contains id = true := by
        rw [FlowEngine.ownOpened, Table.contains_insert, known, Bool.or_true]
      split
      · rw [Table.contains_insert, own, Bool.or_true]
      · exact own
  | unknownData unknown noRst noSyn => exact known

theorem entriesKnown_evictStale {manager : ConnectionManager} (known : EntriesKnown manager)
    (now timeout : Nat) : EntriesKnown (manager.evictStale now timeout) := by
  intro id present
  rcases Option.isSome_iff_exists.mp present with ⟨entry, found⟩
  rcases Table.lookup_retain_eq_some.mp found with ⟨survived, -⟩
  rcases Table.lookup_retain_eq_some.mp survived with ⟨stored, notEvicted⟩
  rcases Option.isSome_iff_exists.mp (known id (Table.contains_of_lookup stored)) with
    ⟨state, flow⟩
  rw [FlowEngine.evicts, flow] at notEvicted
  have kept : (manager.evictStale now timeout).engine.tcbs.lookup id = some state :=
    Table.lookup_retain_eq_some.mpr ⟨flow, notEvicted⟩
  exact Table.contains_of_lookup kept

/-! ### Callbacks keep every entry's flow known -/

theorem payloadLen_of_hasPayload {msg : NfqMessage} {segment : Segment}
    (parsed : parseSegment msg.payload = some segment) {kind : PacketKind}
    (payload : hasPayload msg (segment.decision kind) = true) : 0 < segment.payloadLen := by
  have bounds := bounds_of_parseSegment parsed
  have inside : segment.payloadOffset < msg.payload.length := by
    unfold hasPayload at payload
    rw [Bool.and_eq_true, decide_eq_true_eq] at payload
    exact payload.2
  omega

section Packet

variable {env : Environment} {daemon : DaemonContext} {queue : Queue} {msg : NfqMessage}
  {now : Nat} {segment : Segment}

theorem known_of_binds (seen : queue.side.bypasses msg.nfmark = false)
    (parsed : parseSegment msg.payload = some segment)
    (guard : BindsKnownFlows env daemon (.packet queue msg now)) {handling : Handling}
    (sameEntries : handling.manager.micro = daemon.connMgr.micro)
    (binds : Binds env queue.side daemon.microseg msg msg.tuple
      (daemon.connMgr.engine.onSegment segment now).2 handling) :
    (daemon.connMgr.engine.onSegment segment now).1.tcbs.contains
      (daemon.connMgr.engine.onSegment segment now).2.connId = true := by
  have guard := guard segment parsed
  have decides := onSegment_decides daemon.connMgr.engine segment now
  generalize daemon.connMgr.engine.onSegment segment now = next at decides binds
  rcases binds with ⟨heeded, untracked, reaches, applies⟩
  rw [sameEntries] at untracked
  have untracked := Table.not_contains_of_lookup untracked
  cases decides with
  | closed state flow ends =>
      have syn : segment.syn = true := by
        rcases reaches with syn | payload
        · exact syn
        · exact absurd rfl (notClosed_of_hasPayload msg _ payload)
      exact absurd ⟨Table.contains_of_lookup flow, syn, ends⟩ (guard seen untracked applies).2
  | duplicate state flow noFin noRst behind => exact Table.contains_of_lookup flow
  | data state flow noFin noRst ahead =>
      exact Table.contains_of_lookup (Table.lookup_insert_same _ _ _)
  | ignored unknown rst => exact absurd rfl heeded
  | opened unknown noRst syn => exact FlowEngine.opened_own _ segment now
  | unknownData unknown noRst noSyn =>
      have payload : 0 < segment.payloadLen := by
        rcases reaches with syn | payload
        · rw [show (segment.decision .unknownData).syn = segment.syn from rfl, noSyn] at syn
          cases syn
        · exact payloadLen_of_hasPayload parsed payload
      exact absurd ⟨Table.not_contains_of_lookup unknown, noRst, noSyn, payload⟩
        (guard seen untracked applies).1

theorem entriesKnown_segment (known : EntriesKnown daemon.connMgr)
    (seen : queue.side.bypasses msg.nfmark = false)
    (parsed : parseSegment msg.payload = some segment)
    (guard : BindsKnownFlows env daemon (.packet queue msg now)) :
    EntriesKnown (daemon.handle env queue msg now).manager := by
  intro id present
  rw [DaemonContext.handle, Queue.callback_eq,
    nfqCb_segment env queue.side daemon.microseg msg daemon.connMgr now seen parsed] at present ⊢
  rw [tcpCb_engine]
  rcases tcpCb_contains _ _ _ _ _ _ _ _ present with ⟨before, notTorn⟩ | ⟨own, binds⟩
  · have flow := known id before
    by_cases closed : (daemon.connMgr.engine.onSegment segment now).2.kind = .closed
    · -- a closing packet removes the flow's own two entries from both tables
      have ours := onSegment_ids daemon.connMgr.engine segment now
        (by rw [closed]; intro ignored; cases ignored)
      rw [ours.1, ours.2] at notTorn
      have notOwn : id ≠ segment.id := fun same => notTorn ⟨closed, Or.inl same⟩
      have notPeer : id ≠ segment.id.peer := fun same => notTorn ⟨closed, Or.inr same⟩
      dsimp only [Handling.start]
      rw [Table.contains, FlowEngine.onSegment_other _ segment now notOwn notPeer]
      exact flow
    · exact onSegment_contains closed flow
  · rw [own]
    exact known_of_binds seen parsed guard rfl binds

theorem entriesKnown_packet (known : EntriesKnown daemon.connMgr)
    (guard : BindsKnownFlows env daemon (.packet queue msg now)) :
    EntriesKnown (daemon.handle env queue msg now).manager := by
  cases bypassed : queue.side.bypasses msg.nfmark with
  | true =>
      rw [DaemonContext.handle, Queue.callback_eq, nfqCb_bypassed _ _ _ _ _ _ bypassed]
      exact known
  | false =>
      cases parsed : parseSegment msg.payload with
      | none =>
          rw [DaemonContext.handle, Queue.callback_eq,
            nfqCb_manager_of_no_segment _ _ _ _ _ _ parsed]
          exact known
      | some segment => exact entriesKnown_segment known bypassed parsed guard

theorem untracked_of_newConnection (known : EntriesKnown daemon.connMgr)
    {decision : PacketDecision} (decided : daemon.decision queue msg now = some decision)
    (opens : decision.kind = .newConnection) :
    daemon.connMgr.micro.lookup decision.connId = none := by
  rcases decision_eq_some msg now decided (by rw [opens]; decide) with
    ⟨segment, -, -, rfl⟩
  have decides := onSegment_decides daemon.connMgr.engine segment now
  generalize daemon.connMgr.engine.onSegment segment now = next at decides opens
  cases decides with
  | closed state flow ends => cases opens
  | duplicate state flow noFin noRst behind => cases opens
  | data state flow noFin noRst ahead => cases opens
  | ignored unknown rst => cases opens
  | opened unknown noRst syn =>
      cases tracked : daemon.connMgr.micro.contains segment.id with
      | false => exact Table.lookup_eq_none_of_not_contains tracked
      | true =>
          have flow := known segment.id tracked
          rw [Table.contains, unknown] at flow
          cases flow
  | unknownData unknown noRst noSyn => cases opens

theorem untracked_of_closed (guard : BindsKnownFlows env daemon (.packet queue msg now))
    {decision : PacketDecision} (decided : daemon.decision queue msg now = some decision)
    (closes : decision.kind = .closed) {id : ConnectionId}
    (ours : id = decision.connId ∨ id = decision.peerConnId) :
    (daemon.handle env queue msg now).manager.micro.lookup id = none := by
  rcases decision_eq_some msg now decided (by rw [closes]; decide) with
    ⟨segment, seen, parsed, rfl⟩
  cases present : (daemon.handle env queue msg now).manager.micro.contains id with
  | false => exact Table.lookup_eq_none_of_not_contains present
  | true =>
      rw [DaemonContext.handle, Queue.callback_eq,
        nfqCb_segment env queue.side daemon.microseg msg daemon.connMgr now seen parsed] at present
      rcases tcpCb_contains _ _ _ _ _ _ _ _ present with ⟨-, notTorn⟩ | ⟨-, binds⟩
      · exact absurd ⟨closes, ours⟩ notTorn
      · -- binding would need the engine to know the flow it has just removed
        have flow := known_of_binds seen parsed guard rfl binds
        have decides := onSegment_decides daemon.connMgr.engine segment now
        generalize daemon.connMgr.engine.onSegment segment now = next at decides closes flow
        cases decides with
        | closed state stored ends =>
            have removed : ((daemon.connMgr.engine.tcbs.erase segment.id).erase
                segment.id.peer).lookup segment.id = none :=
              Table.lookup_erase_eq_none _ _ (Table.lookup_erase_same _ _)
            rw [show (segment.boundary .closed false).connId = segment.id from rfl,
              Table.contains, removed] at flow
            cases flow
        | duplicate state stored noFin noRst behind => cases closes
        | data state stored noFin noRst ahead => cases closes
        | ignored unknown rst => cases closes
        | opened unknown noRst syn => cases closes
        | unknownData unknown noRst noSyn => cases closes

end Packet

/-! ### Whole runs -/

theorem entriesKnown_step (env : Environment) (daemon : DaemonContext) (event : DaemonEvent)
    (known : EntriesKnown daemon.connMgr) (guard : BindsKnownFlows env daemon event) :
    EntriesKnown (daemon.step env event).connMgr := by
  cases event with
  | packet queue msg now => exact entriesKnown_packet known guard
  | reap now => exact entriesKnown_evictStale known now staleConnectionTimeout
  | control op => exact known

/-- In every run whose packets bind known flows only, a packet that opens a connection
finds no entry for it, and a packet that closes one leaves none for either direction. -/
theorem newConnection_starts_fresh (env : Environment) (events : List DaemonEvent) (queue : Queue)
    (msg : NfqMessage) (now : Nat)
    (meets : Runs.Meets (DaemonContext.step env) (BindsKnownFlows env) DaemonContext.new
      (events ++ [.packet queue msg now]))
    (decision : PacketDecision)
    (decided : (Runs.run (DaemonContext.step env) DaemonContext.new events).decision queue msg
      now = some decision) :
    let before := Runs.run (DaemonContext.step env) DaemonContext.new events
    let after := Runs.run (DaemonContext.step env) DaemonContext.new
      (events ++ [.packet queue msg now])
    (decision.kind = .newConnection →
      before.connMgr.micro.lookup decision.connId = none) ∧
    (decision.kind = .closed →
      after.connMgr.micro.lookup decision.connId = none ∧
        after.connMgr.micro.lookup decision.peerConnId = none) := by
  rcases (Runs.meets_append _ _ _ _ _).mp meets with ⟨earlier, guard, -⟩
  have initial : EntriesKnown DaemonContext.new.connMgr := by
    intro id present
    cases present
  have known := Runs.run_invariant (DaemonContext.step env) (BindsKnownFlows env)
    (fun daemon => EntriesKnown daemon.connMgr)
    (fun daemon event => entriesKnown_step env daemon event) initial earlier
  dsimp only
  rw [Runs.run_append]
  constructor
  · exact untracked_of_newConnection known decided
  · intro closes
    exact ⟨untracked_of_closed guard decided closes (Or.inl rfl),
      untracked_of_closed guard decided closes (Or.inr rfl)⟩

/-! ### One flow -/

def webFlow : ConnectionId :=
  { localIp := 0x0a000001#32, foreignIp := 0x0a000002#32, localPort := 40000, foreignPort := 80 }

/-- Deny requests for `/a` that 10.0.0.1 sends to 10.0.0.2. -/
def webPolicy : ControlOp :=
  .addPolicyRule "web"
    [{ action := .deny
       direction := .ingress
       protocol := .tcp
       httpRules := [{ host := "", method := "", path := "/a" }]
       fromAddresses := ["10.0.0.1"]
       toAddresses := ["10.0.0.2"]
       ports := []
       priority := 1 }]

def finFlag : UInt8 := 1
def synFlag : UInt8 := 2
def ackFlag : UInt8 := 16

def plainMessage (flow : ConnectionId) (seq : Nat) (flags : UInt8) (payload : List UInt8) :
    NfqMessage :=
  { id := 1, nfmark := 0, payload := plainPacket flow seq flags payload }

def plainEnvironment : Environment := { libraries := postLibraries, order := .stored }

def webClosed : PacketDecision :=
  { kind := .closed
    connId := webFlow
    peerConnId := webFlow.peer
    peerIsNew := false
    ipHeaderLen := 0
    payloadOffset := 0
    syn := false }

theorem webFlow_closes_clean :
    let events : List DaemonEvent :=
      [.control webPolicy, .packet .input (plainMessage webFlow 100 synFlag []) 0]
    let fin := plainMessage webFlow 101 finFlag []
    (Runs.run (DaemonContext.step plainEnvironment) DaemonContext.new
      events).connMgr.micro.contains webFlow = true ∧
    (Runs.run (DaemonContext.step plainEnvironment) DaemonContext.new events).decision .input fin
      1 = some webClosed ∧
    (Runs.run (DaemonContext.step plainEnvironment) DaemonContext.new
      (events ++ [.packet .input fin 1])).connMgr.micro.lookup webFlow = none := by
  refine ⟨by decide +kernel, by decide +kernel, ?_⟩
  exact ((newConnection_starts_fresh plainEnvironment
    [.control webPolicy, .packet .input (plainMessage webFlow 100 synFlag []) 0] .input
    (plainMessage webFlow 101 finFlag []) 1 (by decide +kernel) webClosed (by decide +kernel)).2 rfl).1

/-- Data of a flow that was never opened binds an entry; the SYN of the next
connection on the same addresses and ports finds it, and keeps it.  A SYN that closes
a flow its peer opened is bound after the flow was torn down. -/
theorem webFlow_inherits_and_reopens :
    let bound := Runs.run (DaemonContext.step plainEnvironment) DaemonContext.new
      [.control webPolicy, .packet .input (plainMessage webFlow 500 ackFlag [80]) 0]
    let syn := plainMessage webFlow 100 synFlag []
    let known := Runs.run (DaemonContext.step plainEnvironment) DaemonContext.new
      [.control webPolicy, .packet .output (plainMessage webFlow.peer 900 synFlag []) 0]
    let synFin := plainMessage webFlow 101 (synFlag + finFlag) []
    (bound.decision .input syn 1).map PacketDecision.kind = some .newConnection ∧
    ((bound.step plainEnvironment (.packet .input syn 1)).connMgr.micro.lookup webFlow).map
      (fun entry => entry.conn.packet) = some [80] ∧
    (known.decision .input synFin 1).map PacketDecision.kind = some .closed ∧
    (known.step plainEnvironment (.packet .input synFin 1)).connMgr.micro.contains webFlow =
      true := by
  decide +kernel

end NetPolicy.Daemon
