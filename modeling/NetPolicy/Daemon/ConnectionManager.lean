/-
The connection manager: the flow engine and the microsegmentation map beside it.

The map holds one HTTP connection for every flow direction an HTTP policy was found
for.  It has its own life cycle: entries are made by the callbacks, removed when the
engine reports a flow closed or evicted, and aged out by their own clock.  It is keyed
by the four-tuple alone, so both callbacks read and write the same entries.
-/

import NetPolicy.Flow.FlowEngine
import NetPolicy.Http.Connection

namespace NetPolicy.Daemon

open NetPolicy.Flow NetPolicy.Http

/-- `given` records the packets whose payload the connection was given; the code has
no such field and nothing here reads it. -/
structure MicrosegEntry where
  conn : Connection
  lastSeen : Nat
  given : List (List UInt8)
deriving DecidableEq, Repr

def MicrosegEntry.fresh (ruleKey : String) (now : Nat) : MicrosegEntry :=
  { conn := Connection.new ruleKey, lastSeen := now, given := [] }

structure ConnectionManager where
  engine : FlowEngine
  micro : Table ConnectionId MicrosegEntry

structure ReceiveResult where
  tuple : FiveTupleResult
  isTcp : Bool
  decision : PacketDecision
deriving DecidableEq, Repr

/-- What one `DispatchMicroseg` call did: the header it returns, and the connection
and bytes of its `onData` call when it made one. -/
structure Dispatch where
  manager : ConnectionManager
  header : Option Header
  inspected : Option (ConnectionId × List UInt8)

namespace ConnectionManager

def new : ConnectionManager := { engine := FlowEngine.new, micro := Table.empty }

def receive (manager : ConnectionManager) (pkg : List UInt8) (trackTcp : Bool) (now : Nat) :
    ConnectionManager × ReceiveResult :=
  let tuple := parseFiveTuple pkg
  let isTcp := tuple.recognized && tuple.proto == ipprotoTcp
  if isTcp && trackTcp then
    let (engine, decision) := manager.engine.onPacket pkg now
    ({ manager with engine := engine },
      { tuple := tuple, isTcp := isTcp, decision := decision })
  else (manager, { tuple := tuple, isTcp := isTcp, decision := PacketDecision.ignored })

def microsegTracked (manager : ConnectionManager) (decision : PacketDecision) : Bool :=
  manager.micro.contains decision.connId

def microsegRuleKey (manager : ConnectionManager) (decision : PacketDecision) : Option String :=
  (manager.micro.lookup decision.connId).map fun entry => entry.conn.ruleKey

def touchMicroseg (manager : ConnectionManager) (id : ConnectionId) (now : Nat) :
    ConnectionManager :=
  match manager.micro.lookup id with
  | none => manager
  | some entry =>
      { manager with micro := manager.micro.insert id { entry with lastSeen := now } }

def microsegTouch (manager : ConnectionManager) (decision : PacketDecision) (now : Nat) :
    ConnectionManager :=
  if decision.kind = .ignore ∨ decision.kind = .duplicate then manager
  else manager.touchMicroseg decision.connId now

/-- Make an entry for the packet's own direction, unless there is one. -/
def microsegTrack (manager : ConnectionManager) (decision : PacketDecision) (ruleKey : String)
    (now : Nat) : ConnectionManager :=
  if manager.micro.contains decision.connId then manager
  else
    { manager with
      micro := manager.micro.insert decision.connId (MicrosegEntry.fresh ruleKey now) }

def inspect (libraries : Libraries) (manager : ConnectionManager) (decision : PacketDecision)
    (entry : MicrosegEntry) (pkg : List UInt8) (now : Nat) : Dispatch :=
  let data := pkg.drop decision.payloadOffset
  let (conn, header) := entry.conn.onData libraries data
  { manager :=
      { manager with
        micro :=
          manager.micro.insert decision.connId
            { conn := conn, lastSeen := now, given := entry.given ++ [pkg] } }
    header := if header.parseState = .done then some header else none
    inspected := some (decision.connId, data) }

def dispatchMicroseg (libraries : Libraries) (manager : ConnectionManager)
    (decision : PacketDecision) (pkg : List UInt8) (ruleKey : String) (now : Nat) : Dispatch :=
  match decision.kind with
  | .ignore => { manager := manager, header := none, inspected := none }
  | .newConnection =>
      { manager := manager.microsegTrack decision ruleKey now
        header := none
        inspected := none }
  | .unknownData =>
      let entry :=
        (manager.micro.lookup decision.connId).getD (MicrosegEntry.fresh ruleKey now)
      manager.inspect libraries decision entry pkg now
  | .closed =>
      { manager :=
          { manager with
            micro := (manager.micro.erase decision.connId).erase decision.peerConnId }
        header := none
        inspected := none }
  | .data =>
      match manager.micro.lookup decision.connId with
      | none => { manager := manager, header := none, inspected := none }
      | some entry => manager.inspect libraries decision entry pkg now
  | .duplicate => { manager := manager, header := none, inspected := none }

/-- The reaper: what the engine evicts goes, and so does what the map's own clock
finds too old. -/
def evictStale (manager : ConnectionManager) (now timeout : Nat) : ConnectionManager :=
  let micro := manager.micro.retain fun id _ =>
    !manager.engine.evicts now staleConnectionTimeout id
  { engine := manager.engine.evictStale now staleConnectionTimeout
    micro := micro.retain fun _ entry => !decide (timeout ≤ now - entry.lastSeen) }

/-! ### What each operation leaves alone -/

section Frames

variable (libraries : Libraries) (manager : ConnectionManager) (decision : PacketDecision)
  (pkg : List UInt8) (ruleKey : String) (now : Nat)

theorem microsegTouch_engine :
    (manager.microsegTouch decision now).engine = manager.engine := by
  unfold microsegTouch touchMicroseg
  split
  · rfl
  · split <;> rfl

theorem microsegTouch_other {id : ConnectionId} (notOwn : id ≠ decision.connId) :
    (manager.microsegTouch decision now).micro.lookup id = manager.micro.lookup id := by
  unfold microsegTouch touchMicroseg
  split
  · rfl
  · split
    · rfl
    · exact Table.lookup_insert_ne _ _ notOwn

theorem microsegTouch_own :
    ∃ clock : Nat → Nat, (manager.microsegTouch decision now).micro.lookup decision.connId =
      (manager.micro.lookup decision.connId).map fun entry =>
        { entry with lastSeen := clock entry.lastSeen } := by
  unfold microsegTouch touchMicroseg
  split
  · refine ⟨id, ?_⟩
    cases manager.micro.lookup decision.connId <;> rfl
  · refine ⟨fun _ => now, ?_⟩
    cases found : manager.micro.lookup decision.connId with
    | none => exact found
    | some entry => exact Table.lookup_insert_same _ _ _

theorem microsegTouch_contains (id : ConnectionId) :
    (manager.microsegTouch decision now).micro.contains id = manager.micro.contains id := by
  by_cases own : id = decision.connId
  · rcases manager.microsegTouch_own decision now with ⟨clock, lookup⟩
    rw [own, Table.contains, lookup, Option.isSome_map]
    rfl
  · rw [Table.contains, manager.microsegTouch_other decision now own]
    rfl

theorem microsegTrack_engine :
    (manager.microsegTrack decision ruleKey now).engine = manager.engine := by
  unfold microsegTrack
  split <;> rfl

theorem microsegTrack_other {id : ConnectionId} (notOwn : id ≠ decision.connId) :
    (manager.microsegTrack decision ruleKey now).micro.lookup id = manager.micro.lookup id := by
  unfold microsegTrack
  split
  · rfl
  · exact Table.lookup_insert_ne _ _ notOwn

theorem microsegTrack_own (untracked : manager.micro.lookup decision.connId = none) :
    (manager.microsegTrack decision ruleKey now).micro.lookup decision.connId =
      some (MicrosegEntry.fresh ruleKey now) := by
  unfold microsegTrack
  rw [Table.not_contains_of_lookup untracked]
  exact Table.lookup_insert_same _ _ _

theorem dispatchMicroseg_engine :
    (manager.dispatchMicroseg libraries decision pkg ruleKey now).manager.engine =
      manager.engine := by
  unfold dispatchMicroseg
  split
  · rfl
  · exact manager.microsegTrack_engine decision ruleKey now
  · rfl
  · rfl
  · split <;> rfl
  · rfl

theorem dispatchMicroseg_other {id : ConnectionId} (notOwn : id ≠ decision.connId)
    (notPeer : id ≠ decision.peerConnId) :
    (manager.dispatchMicroseg libraries decision pkg ruleKey now).manager.micro.lookup id =
      manager.micro.lookup id := by
  unfold dispatchMicroseg
  split
  · rfl
  · exact manager.microsegTrack_other decision ruleKey now notOwn
  · exact Table.lookup_insert_ne _ _ notOwn
  · dsimp only
    rw [Table.lookup_erase_ne _ notPeer, Table.lookup_erase_ne _ notOwn]
  · split
    · rfl
    · exact Table.lookup_insert_ne _ _ notOwn
  · rfl

theorem dispatchMicroseg_contains (notClosed : decision.kind ≠ .closed)
    (tracked : manager.micro.contains decision.connId = true) (id : ConnectionId) :
    (manager.dispatchMicroseg libraries decision pkg ruleKey now).manager.micro.contains id =
      manager.micro.contains id := by
  have ownKept (value : MicrosegEntry) :
      (manager.micro.insert decision.connId value).contains id = manager.micro.contains id := by
    rw [Table.contains_insert]
    by_cases own : id = decision.connId
    · rw [own, tracked, Bool.or_true]
    · rw [decide_eq_false own, Bool.false_or]
  unfold dispatchMicroseg
  split
  · rfl
  · unfold microsegTrack
    rw [tracked]
    rfl
  · exact ownKept _
  · rename_i closed
    exact absurd closed notClosed
  · split
    · rfl
    · exact ownKept _
  · rfl

end Frames

end ConnectionManager

end NetPolicy.Daemon
