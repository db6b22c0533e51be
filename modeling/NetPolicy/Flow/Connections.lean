/-
Connections in the flow table.

A connection is a pair of directions, and a packet reads and writes the entries of its
own connection alone.  The part of the table under one connection therefore runs by
itself: the packets of other connections can be left out of a run, and packets of two
connections can change places.
-/

import NetPolicy.Library.Runs
import NetPolicy.Flow.FlowEngine

namespace NetPolicy.Flow

/-! ### The part of the table under a connection -/

def ofConnection (flow id : ConnectionId) : Bool := decide (id = flow ∨ id = flow.peer)

theorem ofConnection_peer {flow id : ConnectionId} (ours : ofConnection flow id = true) :
    ofConnection flow id.peer = true := by
  rcases of_decide_eq_true ours with rfl | rfl
  · exact decide_eq_true (Or.inr rfl)
  · exact decide_eq_true (Or.inl rfl)

theorem ofConnection_peer_eq (flow id : ConnectionId) :
    ofConnection flow id.peer = ofConnection flow id := by
  cases ours : ofConnection flow id with
  | true => exact ofConnection_peer ours
  | false =>
      by_contra peerOurs
      rw [Bool.not_eq_false] at peerOurs
      have back := ofConnection_peer peerOurs
      rw [ConnectionId.peer_peer, ours] at back
      cases back

theorem ofConnection_ne {flow id other : ConnectionId} (ours : ofConnection flow id = true)
    (foreign : ofConnection flow other = false) : id ≠ other ∧ id ≠ other.peer := by
  constructor
  · rintro rfl
    rw [ours] at foreign
    cases foreign
  · rintro rfl
    rw [ofConnection_peer_eq, foreign] at ours
    cases ours

theorem ofConnection_comm (flow id : ConnectionId) : ofConnection flow id = ofConnection id flow := by
  have turned (left right : ConnectionId) (same : left = right.peer) : right = left.peer := by
    rw [same, ConnectionId.peer_peer]
  exact decide_eq_decide.mpr
    ⟨Or.imp Eq.symm (turned id flow), Or.imp Eq.symm (turned flow id)⟩

def restrictEngine (engine : FlowEngine) (keep : ConnectionId → Bool) : FlowEngine :=
  { tcbs := engine.tcbs.restrict keep }

theorem onSegment_restrict (engine : FlowEngine) {keep : ConnectionId → Bool} {segment : Segment}
    (own : keep segment.id = true) (peer : keep segment.id.peer = true) (now : Nat) :
    (restrictEngine engine keep).onSegment segment now =
      (restrictEngine (engine.onSegment segment now).1 keep,
        (engine.onSegment segment now).2) := by
  have ownOpened : (restrictEngine engine keep).ownOpened segment now =
      (engine.ownOpened segment now).restrict keep :=
    (engine.tcbs.restrict_insert own _).symm
  have peerIsNew : (restrictEngine engine keep).peerIsNew segment now =
      engine.peerIsNew segment now := by
    rw [FlowEngine.peerIsNew, ownOpened, Table.contains_restrict _ peer]
    rfl
  have opened : (restrictEngine engine keep).opened segment now =
      restrictEngine (engine.opened segment now) keep := by
    unfold FlowEngine.opened
    rw [ownOpened, peerIsNew]
    cases engine.peerIsNew segment now with
    | true => exact congrArg FlowEngine.mk (Table.restrict_insert _ peer _).symm
    | false => rfl
  have found : (restrictEngine engine keep).tcbs.lookup segment.id =
      engine.tcbs.lookup segment.id := engine.tcbs.lookup_restrict own
  unfold FlowEngine.onSegment
  rw [found, opened, peerIsNew]
  cases engine.tcbs.lookup segment.id with
  | none => cases segment.rst <;> cases segment.syn <;> rfl
  | some state =>
      dsimp only
      split
      · simp only [restrictEngine, Table.restrict_erase]
      · split
        · rfl
        · simp only [restrictEngine, Table.restrict_insert _ own]

theorem restrictEngine_evictStale (engine : FlowEngine) (keep : ConnectionId → Bool) (now timeout : Nat) :
    restrictEngine (engine.evictStale now timeout) keep =
      (restrictEngine engine keep).evictStale now timeout :=
  congrArg FlowEngine.mk (engine.tcbs.restrict_retain fun _ _ => rfl)

theorem restrictEngine_eq_iff {engine image : FlowEngine} {flow : ConnectionId} :
    restrictEngine engine (ofConnection flow) = restrictEngine image (ofConnection flow) ↔
      ∀ id, ofConnection flow id = true → engine.tcbs.lookup id = image.tcbs.lookup id := by
  constructor
  · intro same id ours
    have tables : engine.tcbs.restrict (ofConnection flow) =
        image.tcbs.restrict (ofConnection flow) := congrArg FlowEngine.tcbs same
    rw [← engine.tcbs.lookup_restrict ours, tables, image.tcbs.lookup_restrict ours]
  · intro same
    exact congrArg FlowEngine.mk (Table.restrict_congr same)

/-! ### Runs of the engine -/

inductive FlowOp where
  | packet (bytes : List UInt8) (now : Nat)
  | sweep (now timeout : Nat)
deriving DecidableEq, Repr

namespace FlowEngine

def step (engine : FlowEngine) : FlowOp → FlowEngine
  | .packet bytes now => (engine.onPacket bytes now).1
  | .sweep now timeout => engine.evictStale now timeout

def concerns (flow : ConnectionId) : FlowOp → Bool
  | .packet bytes _ => (parseSegment bytes).any fun segment => ofConnection flow segment.id
  | .sweep _ _ => true

theorem concerns_packet (flow : ConnectionId) {bytes : List UInt8} {segment : Segment}
    (parsed : parseSegment bytes = some segment) (now : Nat) :
    concerns flow (.packet bytes now) = ofConnection flow segment.id := by
  rw [concerns, parsed, Option.any_some]

def answer (flow : ConnectionId) (engine : FlowEngine) : FlowOp → List PacketDecision
  | .packet bytes now =>
      if concerns flow (.packet bytes now) then [(engine.onPacket bytes now).2] else []
  | .sweep _ _ => []

def decisions (flow : ConnectionId) (engine : FlowEngine) (ops : List FlowOp) :
    List PacketDecision :=
  Runs.outputs step (answer flow) engine ops

theorem onPacket_segment (engine : FlowEngine) {bytes : List UInt8} {segment : Segment}
    (parsed : parseSegment bytes = some segment) (now : Nat) :
    engine.onPacket bytes now = engine.onSegment segment now := by
  unfold onPacket
  rw [parsed]

theorem onPacket_none (engine : FlowEngine) {bytes : List UInt8}
    (unparsed : parseSegment bytes = none) (now : Nat) :
    engine.onPacket bytes now = (engine, PacketDecision.ignored) := by
  unfold onPacket
  rw [unparsed]

theorem onPacket_other (engine : FlowEngine) {bytes : List UInt8} (now : Nat)
    {id : ConnectionId}
    (foreign : ∀ segment ∈ parseSegment bytes, id ≠ segment.id ∧ id ≠ segment.id.peer) :
    (engine.onPacket bytes now).1.tcbs.lookup id = engine.tcbs.lookup id := by
  cases parsed : parseSegment bytes with
  | none => rw [engine.onPacket_none parsed]
  | some segment =>
      obtain ⟨notOwn, notPeer⟩ := foreign segment parsed
      rw [engine.onPacket_segment parsed]
      exact engine.onSegment_other segment now notOwn notPeer

end FlowEngine

theorem onSegment_agree {engine image : FlowEngine} {flow : ConnectionId} {segment : Segment}
    (ours : ofConnection flow segment.id = true)
    (agree : restrictEngine engine (ofConnection flow) = restrictEngine image (ofConnection flow))
    (now : Nat) :
    (engine.onSegment segment now).2 = (image.onSegment segment now).2 ∧
      restrictEngine (engine.onSegment segment now).1 (ofConnection flow) =
        restrictEngine (image.onSegment segment now).1 (ofConnection flow) := by
  have peer := ofConnection_peer ours
  have left := onSegment_restrict engine ours peer now
  have right := onSegment_restrict image ours peer now
  rw [agree, right] at left
  exact ⟨(congrArg Prod.snd left).symm, (congrArg Prod.fst left).symm⟩

theorem onPacket_foreign {engine : FlowEngine} {flow : ConnectionId} {bytes : List UInt8}
    {now : Nat} (foreign : FlowEngine.concerns flow (.packet bytes now) = false) :
    restrictEngine (engine.onPacket bytes now).1 (ofConnection flow) =
      restrictEngine engine (ofConnection flow) := by
  rw [restrictEngine_eq_iff]
  intro id ours
  apply engine.onPacket_other now
  intro segment parsed
  apply ofConnection_ne ours
  rw [FlowEngine.concerns_packet flow parsed] at foreign
  exact foreign

theorem step_agree {engine image : FlowEngine} {flow : ConnectionId} {op : FlowOp}
    (concerned : FlowEngine.concerns flow op = true)
    (agree : restrictEngine engine (ofConnection flow) =
      restrictEngine image (ofConnection flow)) :
    engine.answer flow op = image.answer flow op ∧
      restrictEngine (engine.step op) (ofConnection flow) =
        restrictEngine (image.step op) (ofConnection flow) := by
  cases op with
  | packet bytes now =>
      cases parsed : parseSegment bytes with
      | none =>
          dsimp only [FlowEngine.concerns] at concerned
          rw [parsed] at concerned
          cases concerned
      | some segment =>
          have ours := concerned
          rw [FlowEngine.concerns_packet flow parsed] at ours
          obtain ⟨sameDecision, agreeAfter⟩ := onSegment_agree ours agree now
          simp only [FlowEngine.answer, FlowEngine.step, concerned, if_true,
            FlowEngine.onPacket_segment _ parsed]
          exact ⟨congrArg (fun decision => [decision]) sameDecision, agreeAfter⟩
  | sweep now timeout =>
      refine ⟨rfl, ?_⟩
      dsimp only [FlowEngine.step]
      rw [restrictEngine_evictStale, restrictEngine_evictStale, agree]

/-! ### Noninterference -/

/-- A packet of another connection leaves a packet's decision and the entries of its
connection as they are, whichever of the two comes first. -/
theorem onPacket_past (engine : FlowEngine) {own other : List UInt8} {segment : Segment}
    (parsed : parseSegment own = some segment) {otherNow : Nat}
    (foreign : FlowEngine.concerns segment.id (.packet other otherNow) = false) (now : Nat) :
    ((engine.onPacket other otherNow).1.onPacket own now).2 = (engine.onPacket own now).2 ∧
      ∀ id, ofConnection segment.id id = true →
        ((engine.onPacket other otherNow).1.onPacket own now).1.tcbs.lookup id =
          ((engine.onPacket own now).1.onPacket other otherNow).1.tcbs.lookup id := by
  have ours : ofConnection segment.id segment.id = true := decide_eq_true (Or.inl rfl)
  obtain ⟨sameDecision, agree⟩ := onSegment_agree ours (onPacket_foreign foreign) now
  rw [FlowEngine.onPacket_segment _ parsed, FlowEngine.onPacket_segment _ parsed]
  refine ⟨sameDecision, ?_⟩
  rw [← restrictEngine_eq_iff, onPacket_foreign foreign]
  exact agree

theorem onPacket_commute (engine : FlowEngine) {left right : List UInt8}
    {leftSegment rightSegment : Segment} (leftParsed : parseSegment left = some leftSegment)
    (rightParsed : parseSegment right = some rightSegment)
    (different : ofConnection leftSegment.id rightSegment.id = false) (leftNow rightNow : Nat) :
    ((engine.onPacket right rightNow).1.onPacket left leftNow).2 =
        (engine.onPacket left leftNow).2 ∧
      ((engine.onPacket left leftNow).1.onPacket right rightNow).2 =
        (engine.onPacket right rightNow).2 ∧
      ((engine.onPacket left leftNow).1.onPacket right rightNow).1 =
        ((engine.onPacket right rightNow).1.onPacket left leftNow).1 := by
  have rightForeign := FlowEngine.concerns_packet leftSegment.id rightParsed rightNow
  have leftForeign := FlowEngine.concerns_packet rightSegment.id leftParsed leftNow
  rw [different] at rightForeign
  rw [ofConnection_comm, different] at leftForeign
  obtain ⟨leftDecision, leftEntries⟩ := onPacket_past engine leftParsed rightForeign leftNow
  obtain ⟨rightDecision, rightEntries⟩ := onPacket_past engine rightParsed leftForeign rightNow
  refine ⟨leftDecision, rightDecision, congrArg FlowEngine.mk (Table.ext (funext fun id => ?_))⟩
  cases ofLeft : ofConnection leftSegment.id id with
  | true => exact (leftEntries id ofLeft).symm
  | false =>
      cases ofRight : ofConnection rightSegment.id id with
      | true => exact rightEntries id ofRight
      | false =>
          -- an entry of neither connection is never touched
          have untouched {bytes : List UInt8} {segment : Segment}
              (parsed : parseSegment bytes = some segment)
              (foreign : ofConnection segment.id id = false) (current : FlowEngine) (now : Nat) :
              (current.onPacket bytes now).1.tcbs.lookup id = current.tcbs.lookup id := by
            apply current.onPacket_other now
            intro found same
            rw [parsed, Option.mem_some_iff] at same
            rw [← same]
            exact not_or.mp (of_decide_eq_false foreign)
          rw [untouched rightParsed ofRight, untouched leftParsed ofLeft,
            untouched leftParsed ofLeft, untouched rightParsed ofRight]

/-- For every engine and connection: along any run, the decisions on the connection's
packets and its entries at the end are those of the run with only the connection's
packets and all the sweeps; packets of different connections can change places, with the
same decisions and the same table; and a packet changes no entry but those of its own
two directions. -/
theorem connections_do_not_interfere (engine : FlowEngine) :
    (∀ (flow : ConnectionId) (ops : List FlowOp),
      let alone := ops.filter (FlowEngine.concerns flow)
      engine.decisions flow ops = engine.decisions flow alone ∧
        ∀ id, ofConnection flow id = true →
          (Runs.run FlowEngine.step engine ops).tcbs.lookup id =
            (Runs.run FlowEngine.step engine alone).tcbs.lookup id) ∧
    (∀ (left right : List UInt8) (leftSegment rightSegment : Segment) (leftNow rightNow : Nat),
      parseSegment left = some leftSegment → parseSegment right = some rightSegment →
      ofConnection leftSegment.id rightSegment.id = false →
        ((engine.onPacket right rightNow).1.onPacket left leftNow).2 =
            (engine.onPacket left leftNow).2 ∧
          ((engine.onPacket left leftNow).1.onPacket right rightNow).2 =
            (engine.onPacket right rightNow).2 ∧
          ((engine.onPacket left leftNow).1.onPacket right rightNow).1 =
            ((engine.onPacket right rightNow).1.onPacket left leftNow).1) ∧
    ∀ (bytes : List UInt8) (now : Nat) (id : ConnectionId),
      (∀ segment ∈ parseSegment bytes, id ≠ segment.id ∧ id ≠ segment.id.peer) →
        (engine.onPacket bytes now).1.tcbs.lookup id = engine.tcbs.lookup id := by
  refine ⟨?_, ?_, ?_⟩
  · intro flow ops alone
    -- the two runs agree on the connection throughout
    let agree (current image : FlowEngine) : Prop :=
      restrictEngine current (ofConnection flow) = restrictEngine image (ofConnection flow)
    have shown (current image : FlowEngine) (op : FlowOp)
        (concerned : FlowEngine.concerns flow op = true) (agreeing : agree current image) :=
      step_agree concerned agreeing
    have hidden (current image : FlowEngine) (op : FlowOp)
        (foreign : FlowEngine.concerns flow op = false) (agreeing : agree current image) :
        current.answer flow op = [] ∧ agree (current.step op) image := by
      cases op with
      | packet bytes now =>
          refine ⟨?_, (onPacket_foreign foreign).trans agreeing⟩
          rw [FlowEngine.answer, foreign]
          rfl
      | sweep now timeout => cases foreign
    constructor
    · exact Runs.outputs_hiding _ _ _ _ _ agree shown hidden rfl ops
    · rw [← restrictEngine_eq_iff]
      exact Runs.run_hiding FlowEngine.step FlowEngine.step (FlowEngine.concerns flow)
        (fun _ _ => True) agree
        (fun current image op seen agreeing _ => (shown current image op seen agreeing).2)
        (fun current image op unseen agreeing _ => (hidden current image op unseen agreeing).2)
        rfl (Runs.meets_of_forall (fun _ _ => trivial) engine)
  · intro left right leftSegment rightSegment leftNow rightNow leftParsed rightParsed different
    exact onPacket_commute engine leftParsed rightParsed different leftNow rightNow
  · intro bytes now id foreign
    exact engine.onPacket_other now foreign

def clientFlow (port : Nat) : ConnectionId :=
  { localIp := 0x0a000001#32, foreignIp := 0x0a000002#32, localPort := port, foreignPort := 80 }

def synPacket (port seq : Nat) : List UInt8 := plainPacket (clientFlow port) seq 2 []

def synSegment (port seq : Nat) : Segment :=
  { id := clientFlow port
    seq := seq
    syn := true
    fin := false
    rst := false
    ipHeaderLen := 20
    payloadOffset := 40
    payloadLen := 0 }

theorem twoClients_commute :
    ((FlowEngine.new.onPacket (synPacket 40000 7) 0).1.onPacket (synPacket 40001 9) 1).1 =
      ((FlowEngine.new.onPacket (synPacket 40001 9) 1).1.onPacket (synPacket 40000 7) 0).1 := by
  have commute := (connections_do_not_interfere FlowEngine.new).2.1 (synPacket 40000 7)
    (synPacket 40001 9) (synSegment 40000 7) (synSegment 40001 9) 0 1 (by decide +kernel)
    (by decide +kernel) (by decide +kernel)
  exact commute.2.2

end NetPolicy.Flow
