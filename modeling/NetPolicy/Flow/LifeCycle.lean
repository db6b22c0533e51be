/-
The life cycle of flow table entries.

What each kind of decision does to the table, from any state; and over runs, that
entries come and go in pairs as long as nothing is swept, and that a direction without
an entry gets none until its connection sends a SYN.
-/

import NetPolicy.Flow.Connections

namespace NetPolicy.Flow

/-! ### Which entries there are after a decision -/

namespace FlowEngine

variable (engine : FlowEngine) (segment : Segment) (now : Nat)

theorem contains_ownOpened (id : ConnectionId) :
    (engine.ownOpened segment now).contains id =
      (decide (id = segment.id) || engine.tcbs.contains id) :=
  Table.contains_insert engine.tcbs segment.id id _

/-- The own entry is made first, so the peer is new only if it is another direction. -/
theorem peerIsNew_iff :
    engine.peerIsNew segment now = true ↔
      engine.tcbs.contains segment.id.peer = false ∧ segment.id.peer ≠ segment.id := by
  rw [peerIsNew, contains_ownOpened, Bool.not_eq_true', Bool.or_eq_false_iff,
    decide_eq_false_iff_not, and_comm]

theorem contains_opened (id : ConnectionId) :
    (engine.opened segment now).tcbs.contains id =
      (decide (id = segment.id ∨ id = segment.id.peer) || engine.tcbs.contains id) := by
  have own := engine.contains_ownOpened segment now id
  unfold opened
  cases fresh : engine.peerIsNew segment now with
  | true =>
      rw [if_pos rfl, Table.contains_insert, own, Bool.decide_or, Bool.or_left_comm, Bool.or_assoc]
  | false =>
      rw [if_neg Bool.false_ne_true, own, Bool.decide_or]
      by_cases peer : id = segment.id.peer
      · -- the peer was there before, or it is the own direction
        rw [peerIsNew, Bool.not_eq_false', contains_ownOpened] at fresh
        rw [peer, fresh, decide_eq_true rfl, Bool.or_true, Bool.true_or]
      · rw [decide_eq_false peer, Bool.or_false]

theorem contains_closed (id : ConnectionId) :
    ((engine.tcbs.erase segment.id).erase segment.id.peer).contains id =
      (!decide (id = segment.id ∨ id = segment.id.peer) && engine.tcbs.contains id) := by
  rw [Table.contains_erase, Table.contains_erase, Bool.decide_or, Bool.not_or, Bool.and_comm,
    Bool.and_right_comm]

end FlowEngine

/-- What each decision does to the table. -/
structure KeepsLifeCycle (engine next : FlowEngine) (decision : PacketDecision) (now : Nat) :
    Prop where
  opened : decision.kind = .newConnection →
    next.tcbs.contains decision.connId = true ∧ next.tcbs.contains decision.peerConnId = true ∧
      (decision.peerIsNew = true ↔ engine.tcbs.contains decision.peerConnId = false ∧
        decision.peerConnId ≠ decision.connId)
  closed : decision.kind = .closed →
    next.tcbs.contains decision.connId = false ∧ next.tcbs.contains decision.peerConnId = false
  data : decision.kind = .data →
    ∃ state seq, engine.tcbs.lookup decision.connId = some state ∧
      next.tcbs.lookup decision.connId = some { state with seq := seq, lastSeen := now } ∧
      ∀ id, id ≠ decision.connId → next.tcbs.lookup id = engine.tcbs.lookup id
  kept : decision.kind = .duplicate ∨ decision.kind = .unknownData ∨ decision.kind = .ignore →
    next = engine

theorem KeepsLifeCycle.unchanged (engine : FlowEngine) {decision : PacketDecision} (now : Nat)
    (idle : decision.kind = .duplicate ∨ decision.kind = .unknownData ∨ decision.kind = .ignore) :
    KeepsLifeCycle engine engine decision now where
  opened kind := by
    rw [kind] at idle
    simp at idle
  closed kind := by
    rw [kind] at idle
    simp at idle
  data kind := by
    rw [kind] at idle
    simp at idle
  kept _ := rfl

theorem onSegment_lifeCycle (engine : FlowEngine) (segment : Segment) (now : Nat) :
    KeepsLifeCycle engine (engine.onSegment segment now).1 (engine.onSegment segment now).2
      now := by
  have decides := onSegment_decides engine segment now
  generalize engine.onSegment segment now = next at decides
  cases decides with
  | closed state known ends =>
      have own := engine.contains_closed segment segment.id
      have peer := engine.contains_closed segment segment.id.peer
      rw [decide_eq_true (Or.inl rfl), Bool.not_true, Bool.false_and] at own
      rw [decide_eq_true (Or.inr rfl), Bool.not_true, Bool.false_and] at peer
      exact
        { opened := fun kind => by cases kind
          closed := fun _ => ⟨own, peer⟩
          data := fun kind => by cases kind
          kept := fun kind => by rcases kind with kind | kind | kind <;> cases kind }
  | duplicate state known noFin noRst behind => exact .unchanged engine now (Or.inl rfl)
  | data state known noFin noRst ahead =>
      exact
        { opened := fun kind => by cases kind
          closed := fun kind => by cases kind
          data := fun _ => ⟨state, _, known, Table.lookup_insert_same _ _ _,
            fun _ different => Table.lookup_insert_ne _ _ different⟩
          kept := fun kind => by rcases kind with kind | kind | kind <;> cases kind }
  | ignored unknown rst => exact .unchanged engine now (Or.inr (Or.inr rfl))
  | opened unknown noRst syn =>
      have own := engine.contains_opened segment now segment.id
      have peer := engine.contains_opened segment now segment.id.peer
      rw [decide_eq_true (Or.inl rfl), Bool.true_or] at own
      rw [decide_eq_true (Or.inr rfl), Bool.true_or] at peer
      exact
        { opened := fun _ => ⟨own, peer, engine.peerIsNew_iff segment now⟩
          closed := fun kind => by cases kind
          data := fun kind => by cases kind
          kept := fun kind => by rcases kind with kind | kind | kind <;> cases kind }
  | unknownData unknown noRst noSyn => exact .unchanged engine now (Or.inr (Or.inl rfl))

theorem onPacket_lifeCycle (engine : FlowEngine) (bytes : List UInt8) (now : Nat) :
    KeepsLifeCycle engine (engine.onPacket bytes now).1 (engine.onPacket bytes now).2 now := by
  cases parsed : parseSegment bytes with
  | some segment =>
      rw [engine.onPacket_segment parsed]
      exact onSegment_lifeCycle engine segment now
  | none =>
      rw [engine.onPacket_none parsed]
      exact .unchanged engine now (Or.inr (Or.inr rfl))

/-! ### Entries in pairs -/

/-- A direction has an entry exactly when the opposite one has. -/
def Paired (engine : FlowEngine) : Prop :=
  ∀ id, engine.tcbs.contains id.peer = engine.tcbs.contains id

def FlowOp.isSweep : FlowOp → Bool
  | .packet _ _ => false
  | .sweep _ _ => true

theorem paired_onSegment {engine : FlowEngine} (paired : Paired engine) (segment : Segment)
    (now : Nat) : Paired (engine.onSegment segment now).1 := by
  have turned (id : ConnectionId) : decide (id.peer = segment.id ∨ id.peer = segment.id.peer) =
      decide (id = segment.id ∨ id = segment.id.peer) := ofConnection_peer_eq segment.id id
  have decides := onSegment_decides engine segment now
  generalize engine.onSegment segment now = next at decides
  intro id
  cases decides with
  | closed state known ends =>
      rw [engine.contains_closed, engine.contains_closed, turned, paired id]
  | duplicate state known noFin noRst behind => exact paired id
  | data state known noFin noRst ahead =>
      have tracked := Table.contains_of_lookup known
      have kept (other : ConnectionId) (value : FlowState) :
          (engine.tcbs.insert segment.id value).contains other = engine.tcbs.contains other := by
        rw [Table.contains_insert]
        by_cases same : other = segment.id
        · rw [same, tracked, Bool.or_true]
        · rw [decide_eq_false same, Bool.false_or]
      dsimp only
      rw [kept, kept]
      exact paired id
  | ignored unknown rst => exact paired id
  | opened unknown noRst syn =>
      rw [engine.contains_opened, engine.contains_opened, turned, paired id]
  | unknownData unknown noRst noSyn => exact paired id

theorem paired_run (ops : List FlowOp) (unswept : ∀ op ∈ ops, op.isSweep = false) :
    Paired (Runs.run FlowEngine.step FlowEngine.new ops) := by
  refine Runs.run_invariant FlowEngine.step (fun _ op => op.isSweep = false) Paired ?_
    (fun _ => rfl) (Runs.meets_of_forall unswept FlowEngine.new)
  intro engine op paired isPacket
  cases op with
  | packet bytes now =>
      dsimp only [FlowEngine.step]
      cases parsed : parseSegment bytes with
      | some segment =>
          rw [engine.onPacket_segment parsed]
          exact paired_onSegment paired segment now
      | none =>
          rw [engine.onPacket_none parsed]
          exact paired
  | sweep now timeout => cases isPacket

/-! ### Directions without an entry -/

def FlowOp.isSyn (flow : ConnectionId) : FlowOp → Bool
  | .packet bytes _ =>
      (parseSegment bytes).any fun segment => ofConnection flow segment.id && segment.syn
  | .sweep _ _ => false

theorem onSegment_absent {engine : FlowEngine} {id : ConnectionId}
    (absent : engine.tcbs.contains id = false) {segment : Segment}
    (noSyn : (ofConnection id segment.id && segment.syn) = false) (now : Nat) :
    (engine.onSegment segment now).1.tcbs.contains id = false := by
  have decides := onSegment_decides engine segment now
  generalize engine.onSegment segment now = next at decides
  cases decides with
  | closed state known ends => rw [engine.contains_closed, absent, Bool.and_false]
  | duplicate state known noFin noRst behind => exact absent
  | data state known noFin noRst ahead =>
      have notOwn : id ≠ segment.id := by
        rintro rfl
        rw [Table.contains_of_lookup known] at absent
        cases absent
      dsimp only
      rw [Table.contains_insert, decide_eq_false notOwn, Bool.false_or]
      exact absent
  | ignored unknown rst => exact absent
  | opened unknown noRst syn =>
      rw [syn, Bool.and_true, ofConnection_comm] at noSyn
      rw [engine.contains_opened, absent, Bool.or_false]
      exact noSyn
  | unknownData unknown noRst noSyn => exact absent

theorem evictStale_absent {engine : FlowEngine} {id : ConnectionId}
    (absent : engine.tcbs.contains id = false) (now timeout : Nat) :
    (engine.evictStale now timeout).tcbs.contains id = false := by
  have missing := Table.lookup_eq_none_of_not_contains absent
  apply Table.not_contains_of_lookup
  simp only [FlowEngine.evictStale, Table.retain, missing, Option.filter_none]

theorem absent_run {engine : FlowEngine} {id : ConnectionId}
    (absent : engine.tcbs.contains id = false) {ops : List FlowOp}
    (noSyn : ∀ op ∈ ops, op.isSyn id = false) :
    (Runs.run FlowEngine.step engine ops).tcbs.contains id = false := by
  refine Runs.run_invariant FlowEngine.step (fun _ op => op.isSyn id = false)
    (fun current => current.tcbs.contains id = false) ?_ absent
    (Runs.meets_of_forall noSyn engine)
  intro current op stillAbsent quiet
  cases op with
  | packet bytes now =>
      dsimp only [FlowEngine.step]
      cases parsed : parseSegment bytes with
      | some segment =>
          rw [current.onPacket_segment parsed]
          rw [FlowOp.isSyn, parsed, Option.any_some] at quiet
          exact onSegment_absent stillAbsent quiet now
      | none =>
          rw [current.onPacket_none parsed]
          exact stillAbsent
  | sweep now timeout => exact evictStale_absent stillAbsent now timeout

theorem onSegment_unknown {engine : FlowEngine} {segment : Segment}
    (absent : engine.tcbs.contains segment.id = false) (noSyn : segment.syn = false)
    (now : Nat) :
    (engine.onSegment segment now).2.kind = .unknownData ∨
      (engine.onSegment segment now).2.kind = .ignore := by
  have missing := Table.lookup_eq_none_of_not_contains absent
  have decides := onSegment_decides engine segment now
  generalize engine.onSegment segment now = next at decides
  cases decides with
  | closed state known ends => rw [missing] at known; cases known
  | duplicate state known noFin noRst behind => rw [missing] at known; cases known
  | data state known noFin noRst ahead => rw [missing] at known; cases known
  | ignored unknown rst => exact Or.inr rfl
  | opened unknown noRst syn => rw [noSyn] at syn; cases syn
  | unknownData unknown noRst noSyn => exact Or.inl rfl

/-- In every state a run reaches and for every next packet, the decision does to the
table what its kind says; without sweeps the entries stay in pairs; and a packet without
SYN of a direction that has had no entry at some point, and no SYN of its connection
since, is unknown data or ignored. -/
theorem flowTable_lifeCycle (ops : List FlowOp) :
    (∀ (bytes : List UInt8) (now : Nat),
      let engine := Runs.run FlowEngine.step FlowEngine.new ops
      KeepsLifeCycle engine (engine.onPacket bytes now).1 (engine.onPacket bytes now).2 now) ∧
    ((∀ op ∈ ops, op.isSweep = false) → Paired (Runs.run FlowEngine.step FlowEngine.new ops)) ∧
    ∀ (since : List FlowOp) (bytes : List UInt8) (now : Nat) (segment : Segment),
      parseSegment bytes = some segment →
      (Runs.run FlowEngine.step FlowEngine.new ops).tcbs.contains segment.id = false →
      (∀ op ∈ since ++ [.packet bytes now], op.isSyn segment.id = false) →
        let decision := ((Runs.run FlowEngine.step FlowEngine.new (ops ++ since)).onPacket bytes now).2
        decision.kind = .unknownData ∨ decision.kind = .ignore := by
  refine ⟨fun bytes now => onPacket_lifeCycle _ bytes now, paired_run ops, ?_⟩
  intro since bytes now segment parsed absent noSyn
  have stillAbsent := absent_run absent fun op member =>
    noSyn op (List.mem_append_left _ member)
  have plain := noSyn (.packet bytes now) (List.mem_append_right _ (List.mem_singleton_self _))
  have own : ofConnection segment.id segment.id = true := decide_eq_true (Or.inl rfl)
  rw [FlowOp.isSyn, parsed, Option.any_some, own, Bool.true_and] at plain
  rw [Runs.run_append, FlowEngine.onPacket_segment _ parsed]
  exact onSegment_unknown stillAbsent plain now

theorem closedFlow_unknown :
    let finPacket := plainPacket (clientFlow 40000) 8 1 []
    let ackPacket := plainPacket (clientFlow 40000) 9 16 [80]
    let ops : List FlowOp := [.packet (synPacket 40000 7) 0, .packet finPacket 1]
    ((Runs.run FlowEngine.step FlowEngine.new ops).onPacket ackPacket 2).2.kind =
        .unknownData ∨
      ((Runs.run FlowEngine.step FlowEngine.new ops).onPacket ackPacket 2).2.kind = .ignore := by
  intro finPacket ackPacket ops
  exact (flowTable_lifeCycle ops).2.2 [] ackPacket 2
    { id := clientFlow 40000, seq := 9, syn := false, fin := false, rst := false,
      ipHeaderLen := 20, payloadOffset := 40, payloadLen := 1 }
    (by decide +kernel) (by decide +kernel) (by decide +kernel)

/-- A connection of an address and port with itself is its own peer. -/
def selfFlow : ConnectionId :=
  { localIp := 0x0a000001#32, foreignIp := 0x0a000001#32, localPort := 80, foreignPort := 80 }

/-- Its SYN opens it, the peer was absent before, and yet the peer is not reported new. -/
theorem selfFlow_peer_not_new :
    let decision := (FlowEngine.new.onPacket (plainPacket selfFlow 7 2 []) 0).2
    decision.kind = .newConnection ∧
      FlowEngine.new.tcbs.contains decision.peerConnId = false ∧
      decision.peerIsNew = false := by
  decide +kernel

end NetPolicy.Flow
