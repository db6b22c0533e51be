/-
Runs of the daemon: packets on both queues, reaper sweeps and control requests.

Everything happens on one thread, one event after another, over one connection
manager and one policy store.  The first half of the file says which part of a
callback a packet reaches and what a callback does to the two tables.
-/

import NetPolicy.Library.Runs
import NetPolicy.Daemon.Callback
import NetPolicy.Daemon.Control

namespace NetPolicy.Daemon

open NetPolicy.Policy NetPolicy.Flow NetPolicy.Http

/-! ### Events -/

inductive Queue where
  | input
  | output
deriving DecidableEq, Repr

def Queue.side : Queue → Side
  | .input => inputSide
  | .output => outputSide

def Queue.callback (env : Environment) : Queue → MicroSegEngine → NfqMessage →
    ConnectionManager → Nat → Handling
  | .input => inputNfqCb env
  | .output => outputNfqCb env

theorem Queue.callback_eq (env : Environment) (queue : Queue) (store : MicroSegEngine)
    (msg : NfqMessage) (manager : ConnectionManager) (now : Nat) :
    queue.callback env store msg manager now = nfqCb env queue.side store msg manager now := by
  cases queue <;> rfl

structure DaemonContext where
  connMgr : ConnectionManager
  microseg : MicroSegEngine

def DaemonContext.new : DaemonContext :=
  { connMgr := ConnectionManager.new, microseg := MicroSegEngine.new }

inductive DaemonEvent where
  | packet (queue : Queue) (msg : NfqMessage) (now : Nat)
  | reap (now : Nat)
  | control (op : ControlOp)
deriving DecidableEq, Repr

def DaemonContext.handle (env : Environment) (daemon : DaemonContext) (queue : Queue)
    (msg : NfqMessage) (now : Nat) : Handling :=
  queue.callback env daemon.microseg msg daemon.connMgr now

def DaemonContext.step (env : Environment) (daemon : DaemonContext) : DaemonEvent → DaemonContext
  | .packet queue msg now => { daemon with connMgr := (daemon.handle env queue msg now).manager }
  | .reap now => { daemon with connMgr := daemon.connMgr.evictStale now staleConnectionTimeout }
  | .control op => { daemon with microseg := daemon.microseg.apply op }

def DaemonContext.decision (daemon : DaemonContext) (queue : Queue) (msg : NfqMessage)
    (now : Nat) : Option PacketDecision :=
  if queue.side.bypasses msg.nfmark ∨ msg.payload.length < 20 then none
  else some (daemon.connMgr.receive msg.payload true now).2.decision

/-! ### Which part of a callback a packet reaches -/

section Paths

variable (env : Environment) (side : Side) (store : MicroSegEngine) (msg : NfqMessage)
  (manager : ConnectionManager) (now : Nat)

def NfqMessage.tuple (msg : NfqMessage) : FiveTuple :=
  FiveTuple.ofResult (parseFiveTuple msg.payload)

/-- A rule matches the packet and HTTP rules are stored under its policy. -/
def HttpApplies (tuple : FiveTuple) : Prop :=
  let answer := matchMicroPolicyRule env.order store tuple side.dir
  answer.rule ≠ .default ∧ ((store.httpPolicy side.dir).lookup answer.ruleKey).getD [] ≠ []

instance (tuple : FiveTuple) : Decidable (HttpApplies env side store tuple) :=
  inferInstanceAs (Decidable (_ ∧ _))

theorem nfqCb_bypassed (bypassed : side.bypasses msg.nfmark = true) :
    nfqCb env side store msg manager now =
      (Handling.start manager).verdict msg.id .accept := by
  unfold nfqCb
  rw [bypassed]
  rfl

theorem receive_segment {pkg : List UInt8} {segment : Segment}
    (parsed : parseSegment pkg = some segment) :
    manager.receive pkg true now =
      ({ manager with engine := (manager.engine.onSegment segment now).1 },
        { tuple := parseFiveTuple pkg
          isTcp := true
          decision := (manager.engine.onSegment segment now).2 }) := by
  rcases parseFiveTuple_of_parseSegment parsed with ⟨recognized, protocol, -⟩
  simp only [ConnectionManager.receive, recognized, protocol, FlowEngine.onPacket, parsed,
    beq_self_eq_true, Bool.and_self, if_true]

theorem nfqCb_segment (seen : side.bypasses msg.nfmark = false) {segment : Segment}
    (parsed : parseSegment msg.payload = some segment) :
    nfqCb env side store msg manager now =
      tcpCb env side store msg msg.tuple (manager.engine.onSegment segment now).2 now
        (Handling.start
          { manager with engine := (manager.engine.onSegment segment now).1 }) := by
  rcases parseFiveTuple_of_parseSegment parsed with ⟨recognized, protocol, -⟩
  have long : ¬msg.payload.length < 20 := by
    have bounds := bounds_of_parseSegment parsed
    omega
  have received := receive_segment manager now parsed
  have tupleProto : (FiveTuple.ofResult (parseFiveTuple msg.payload)).proto = 6 := protocol
  simp only [nfqCb, seen, long, Handling.start, received, recognized, tupleProto, ipprotoUdp,
    ipprotoIcmp, ipprotoTcp, Bool.not_true, Bool.false_eq_true, if_false, Nat.reduceEqDiff,
    or_self, ne_eq, not_true_eq_false]
  rfl

theorem decision_of_segment {daemon : DaemonContext} {queue : Queue} {segment : Segment}
    (seen : queue.side.bypasses msg.nfmark = false)
    (parsed : parseSegment msg.payload = some segment) :
    daemon.decision queue msg now = some (daemon.connMgr.engine.onSegment segment now).2 := by
  have long : ¬msg.payload.length < 20 := by
    have bounds := bounds_of_parseSegment parsed
    omega
  unfold DaemonContext.decision
  rw [if_neg (not_or.mpr ⟨Bool.not_eq_true _ ▸ seen, long⟩),
    receive_segment daemon.connMgr now parsed]

theorem decision_eq_some {daemon : DaemonContext} {queue : Queue} {decision : PacketDecision}
    (decided : daemon.decision queue msg now = some decision)
    (heeded : decision.kind ≠ .ignore) :
    ∃ segment, queue.side.bypasses msg.nfmark = false ∧
      parseSegment msg.payload = some segment ∧
      decision = (daemon.connMgr.engine.onSegment segment now).2 := by
  unfold DaemonContext.decision at decided
  split at decided
  · cases decided
  · rename_i looked
    rw [not_or, Bool.not_eq_true] at looked
    cases decided
    unfold ConnectionManager.receive at heeded ⊢
    dsimp only at heeded ⊢
    split at heeded
    · rename_i tcp
      rw [if_pos tcp]
      cases parsed : parseSegment msg.payload with
      | none =>
          rw [FlowEngine.onPacket, parsed] at heeded
          exact absurd rfl heeded
      | some segment =>
          refine ⟨segment, looked.1, rfl, ?_⟩
          rw [FlowEngine.onPacket, parsed]
    · exact absurd rfl heeded

/-- Every other packet leaves the connection manager as it is, and no connection is given
anything of it. -/
theorem nfqCb_of_no_segment (other : parseSegment msg.payload = none) :
    (nfqCb env side store msg manager now).manager = manager ∧
      (nfqCb env side store msg manager now).inspected = [] := by
  have notTcp : ((parseFiveTuple msg.payload).recognized &&
      (parseFiveTuple msg.payload).proto == ipprotoTcp) = false := by
    rw [Bool.and_eq_false_iff]
    by_contra tcp
    rw [not_or, Bool.not_eq_false, Bool.not_eq_false, beq_iff_eq] at tcp
    rcases parseSegment_isSome_of_recognized tcp.1 tcp.2 with ⟨segment, parsed⟩
    rw [other] at parsed
    cases parsed
  have received : manager.receive msg.payload true now =
      (manager,
        { tuple := parseFiveTuple msg.payload
          isTcp := false
          decision := PacketDecision.ignored }) := by
    simp only [ConnectionManager.receive, notTcp, Bool.false_and, Bool.false_eq_true, if_false]
  unfold nfqCb
  split
  · exact ⟨rfl, rfl⟩
  split
  · exact ⟨rfl, rfl⟩
  simp only [Handling.start, received]
  split
  · exact ⟨rfl, rfl⟩
  rename_i recognized
  split
  · unfold statelessCb
    dsimp only
    split
    · exact ⟨rfl, rfl⟩
    · split <;> exact ⟨rfl, rfl⟩
  · split
    · exact ⟨rfl, rfl⟩
    · rename_i tcp
      rw [ne_eq, not_not] at tcp
      rw [Bool.not_eq_true, Bool.not_eq_false'] at recognized
      have protocol : (parseFiveTuple msg.payload).proto = ipprotoTcp := tcp
      rw [recognized, protocol] at notTcp
      cases notTcp

theorem nfqCb_manager_of_no_segment (other : parseSegment msg.payload = none) :
    (nfqCb env side store msg manager now).manager = manager :=
  (nfqCb_of_no_segment env side store msg manager now other).1

end Paths

/-! ### What the TCP part does to the microsegmentation map -/

section Effects

variable (env : Environment) (side : Side) (store : MicroSegEngine) (msg : NfqMessage)
  (tuple : FiveTuple) (decision : PacketDecision) (now : Nat) (handling : Handling)

theorem inspectCb_manager (ruleKey : String) :
    (inspectCb env side store msg tuple ruleKey decision now handling).manager =
      (handling.manager.dispatchMicroseg env.libraries decision msg.payload ruleKey
        now).manager := by
  unfold inspectCb
  dsimp only [Handling.dispatch]
  split
  · rfl
  · split
    · rfl
    · split <;> rfl

theorem trackedCb_manager (payload : Bool) :
    (trackedCb env side store msg tuple decision payload now handling).manager =
        handling.manager ∨
      decision.kind ≠ .closed ∧
        (trackedCb env side store msg tuple decision payload now handling).manager =
          (handling.manager.dispatchMicroseg env.libraries decision msg.payload
            ((handling.manager.microsegRuleKey decision).getD "") now).manager := by
  unfold trackedCb
  by_cases closed : decision.kind = .closed
  · rw [if_pos closed]
    exact Or.inl rfl
  · rw [if_neg closed]
    split
    · exact Or.inl rfl
    · split
      · exact Or.inl rfl
      · split
        · exact Or.inl rfl
        · exact Or.inr ⟨closed, inspectCb_manager env side store msg tuple decision now handling _⟩

theorem untrackedCb_manager (payload : Bool) :
    (untrackedCb env side store msg tuple decision payload now handling).manager =
        handling.manager ∨
      (decision.syn = true ∨ payload = true) ∧ HttpApplies env side store tuple ∧
        let ruleKey := (matchMicroPolicyRule env.order store tuple side.dir).ruleKey
        let tracked := handling.manager.microsegTrack decision ruleKey now
        (untrackedCb env side store msg tuple decision payload now handling).manager = tracked ∨
          decision.syn = false ∧
          (untrackedCb env side store msg tuple decision payload now handling).manager =
            (tracked.dispatchMicroseg env.libraries decision msg.payload ruleKey
              now).manager := by
  unfold untrackedCb
  by_cases silent : (!decision.syn && !payload) = true
  · rw [if_pos silent]
    exact Or.inl rfl
  · rw [if_neg silent]
    have reaches : decision.syn = true ∨ payload = true := by
      by_contra neither
      rw [not_or, Bool.not_eq_true, Bool.not_eq_true] at neither
      rw [neither.1, neither.2] at silent
      exact silent rfl
    dsimp only
    split
    · exact Or.inl rfl
    · rename_i matched
      split
      · split
        · exact Or.inl rfl
        · exact Or.inl rfl
      · rename_i stored
        refine Or.inr ⟨reaches, ⟨matched, stored⟩, ?_⟩
        cases syn : decision.syn with
        | true => exact Or.inl rfl
        | false =>
            refine Or.inr ⟨rfl, ?_⟩
            exact inspectCb_manager env side store msg _ decision now _ _

/-- The state in which a callback splits into tracked and untracked: the entry's clock
refreshed, a closed flow torn down. -/
def settle : Handling :=
  (handling.withManager (handling.manager.microsegTouch decision now)).microsegClose
    env.libraries decision msg.payload now

theorem settle_engine :
    (settle env msg decision now handling).manager.engine = handling.manager.engine := by
  unfold settle Handling.microsegClose
  split
  · exact (ConnectionManager.dispatchMicroseg_engine ..).trans
      (handling.manager.microsegTouch_engine decision now)
  · exact handling.manager.microsegTouch_engine decision now

theorem settle_other {id : ConnectionId} (notOwn : id ≠ decision.connId)
    (notPeer : id ≠ decision.peerConnId) :
    (settle env msg decision now handling).manager.micro.lookup id =
      handling.manager.micro.lookup id := by
  unfold settle Handling.microsegClose
  split
  · exact (ConnectionManager.dispatchMicroseg_other _ _ _ _ _ _ notOwn notPeer).trans
      (handling.manager.microsegTouch_other decision now notOwn)
  · exact handling.manager.microsegTouch_other decision now notOwn

theorem settle_closed (closed : decision.kind = .closed) {id : ConnectionId}
    (ours : id = decision.connId ∨ id = decision.peerConnId) :
    (settle env msg decision now handling).manager.micro.lookup id = none := by
  unfold settle Handling.microsegClose
  rw [if_pos closed]
  simp only [Handling.dispatch, ConnectionManager.dispatchMicroseg, closed]
  rcases ours with own | peer
  · rw [own]
    exact Table.lookup_erase_eq_none _ _ (Table.lookup_erase_same _ _)
  · rw [peer]
    exact Table.lookup_erase_same _ _

theorem settle_of_open (opened : decision.kind ≠ .closed) :
    (settle env msg decision now handling).manager =
      handling.manager.microsegTouch decision now := by
  unfold settle Handling.microsegClose
  rw [if_neg opened]
  rfl

theorem tcpCb_ignored (ignored : decision.kind = .ignore) :
    tcpCb env side store msg tuple decision now handling =
      handling.verdictWithMark msg.id .accept side.pass none := by
  have untouched : handling.manager.microsegTouch decision now = handling.manager := by
    unfold ConnectionManager.microsegTouch
    rw [if_pos (Or.inl ignored)]
  unfold tcpCb
  dsimp only
  rw [if_pos ignored, untouched]
  rfl

theorem tcpCb_tracked (heeded : decision.kind ≠ .ignore)
    (tracked : handling.manager.microsegTracked decision = true) :
    tcpCb env side store msg tuple decision now handling =
      trackedCb env side store msg tuple decision (hasPayload msg decision) now
        (settle env msg decision now handling) := by
  unfold tcpCb
  dsimp only
  rw [if_neg heeded, if_pos tracked]
  rfl

theorem tcpCb_untracked (heeded : decision.kind ≠ .ignore)
    (untracked : handling.manager.microsegTracked decision = false) :
    tcpCb env side store msg tuple decision now handling =
      untrackedCb env side store msg tuple decision (hasPayload msg decision) now
        (settle env msg decision now handling) := by
  unfold tcpCb
  dsimp only
  rw [if_neg heeded, if_neg (by rw [untracked]; exact Bool.false_ne_true)]
  rfl

theorem tcpCb_start_tracked (manager : ConnectionManager) (engine : FlowEngine)
    (heeded : decision.kind ≠ .ignore)
    (tracked : manager.micro.contains decision.connId = true) :
    tcpCb env side store msg tuple decision now
        (Handling.start { manager with engine := engine }) =
      trackedCb env side store msg tuple decision (hasPayload msg decision) now
        (settle env msg decision now (Handling.start { manager with engine := engine })) :=
  tcpCb_tracked env side store msg tuple decision now _ heeded tracked

theorem tcpCb_start_untracked (manager : ConnectionManager) (engine : FlowEngine)
    (heeded : decision.kind ≠ .ignore)
    (untracked : manager.micro.contains decision.connId = false) :
    tcpCb env side store msg tuple decision now
        (Handling.start { manager with engine := engine }) =
      untrackedCb env side store msg tuple decision (hasPayload msg decision) now
        (settle env msg decision now (Handling.start { manager with engine := engine })) :=
  tcpCb_untracked env side store msg tuple decision now _ heeded untracked

def Binds : Prop :=
  decision.kind ≠ .ignore ∧ handling.manager.micro.lookup decision.connId = none ∧
    (decision.syn = true ∨ hasPayload msg decision = true) ∧ HttpApplies env side store tuple

/-- Everything the TCP part can do to the connection manager. -/
inductive Settles : ConnectionManager → Prop
  | kept : Settles (settle env msg decision now handling).manager
  | ignored (kind : decision.kind = .ignore) : Settles handling.manager
  | inspected (heeded : decision.kind ≠ .ignore) (opened : decision.kind ≠ .closed)
      (tracked : handling.manager.micro.contains decision.connId = true) (ruleKey : String) :
      Settles
        ((settle env msg decision now handling).manager.dispatchMicroseg env.libraries decision
          msg.payload ruleKey now).manager
  | bound (binds : Binds env side store msg tuple decision handling) (ruleKey : String) :
      Settles
        ((settle env msg decision now handling).manager.microsegTrack decision ruleKey now)
  | boundAndInspected (binds : Binds env side store msg tuple decision handling)
      (noSyn : decision.syn = false) (ruleKey : String) :
      Settles
        (((settle env msg decision now handling).manager.microsegTrack decision ruleKey
          now).dispatchMicroseg env.libraries decision msg.payload ruleKey now).manager

theorem tcpCb_settles :
    Settles env side store msg tuple decision now handling
      (tcpCb env side store msg tuple decision now handling).manager := by
  by_cases ignored : decision.kind = .ignore
  · rw [tcpCb_ignored env side store msg tuple decision now handling ignored]
    exact .ignored ignored
  · cases tracked : handling.manager.microsegTracked decision with
    | true =>
        rw [tcpCb_tracked env side store msg tuple decision now handling ignored tracked]
        rcases trackedCb_manager env side store msg tuple decision now
            (settle env msg decision now handling) (hasPayload msg decision) with
          kept | ⟨opened, dispatched⟩
        · rw [kept]
          exact .kept
        · rw [dispatched]
          exact .inspected ignored opened tracked _
    | false =>
        rw [tcpCb_untracked env side store msg tuple decision now handling ignored tracked]
        rcases untrackedCb_manager env side store msg tuple decision now
            (settle env msg decision now handling) (hasPayload msg decision) with
          kept | ⟨reaches, applies, outcome⟩
        · rw [kept]
          exact .kept
        · have binds : Binds env side store msg tuple decision handling :=
            ⟨ignored, Table.lookup_eq_none_of_not_contains tracked, reaches, applies⟩
          rcases outcome with bound | ⟨noSyn, inspected⟩
          · rw [bound]
            exact .bound binds _
          · rw [inspected]
            exact .boundAndInspected binds noSyn _

/-- What settling, dispatching and tracking all keep, the TCP part keeps. -/
theorem tcpCb_observation {β : Type} (observe : ConnectionManager → β)
    (settled : observe (settle env msg decision now handling).manager = observe handling.manager)
    (dispatched : ∀ (manager : ConnectionManager) (ruleKey : String),
      observe (manager.dispatchMicroseg env.libraries decision msg.payload ruleKey now).manager =
        observe manager)
    (tracked : ∀ (manager : ConnectionManager) (ruleKey : String),
      observe (manager.microsegTrack decision ruleKey now) = observe manager) :
    observe (tcpCb env side store msg tuple decision now handling).manager =
      observe handling.manager := by
  have settles := tcpCb_settles env side store msg tuple decision now handling
  generalize (tcpCb env side store msg tuple decision now handling).manager = after at settles
  cases settles with
  | kept => exact settled
  | ignored kind => rfl
  | inspected heeded opened known ruleKey => exact (dispatched _ ruleKey).trans settled
  | bound binds ruleKey => exact (tracked _ ruleKey).trans settled
  | boundAndInspected binds noSyn ruleKey =>
      exact (dispatched _ ruleKey).trans ((tracked _ ruleKey).trans settled)

theorem tcpCb_engine :
    (tcpCb env side store msg tuple decision now handling).manager.engine =
      handling.manager.engine := by
  apply tcpCb_observation env side store msg tuple decision now handling
    ConnectionManager.engine (settle_engine env msg decision now handling)
  · intro manager ruleKey
    exact manager.dispatchMicroseg_engine ..
  · intro manager ruleKey
    exact manager.microsegTrack_engine ..

theorem tcpCb_other {id : ConnectionId} (notOwn : id ≠ decision.connId)
    (notPeer : id ≠ decision.peerConnId) :
    (tcpCb env side store msg tuple decision now handling).manager.micro.lookup id =
      handling.manager.micro.lookup id := by
  apply tcpCb_observation env side store msg tuple decision now handling
    (fun manager => manager.micro.lookup id)
    (settle_other env msg decision now handling notOwn notPeer)
  · intro manager ruleKey
    exact manager.dispatchMicroseg_other _ _ _ _ _ notOwn notPeer
  · intro manager ruleKey
    exact manager.microsegTrack_other _ _ _ notOwn

theorem settle_contains {id : ConnectionId}
    (kept : (settle env msg decision now handling).manager.micro.contains id = true) :
    handling.manager.micro.contains id = true ∧
      ¬(decision.kind = .closed ∧ (id = decision.connId ∨ id = decision.peerConnId)) := by
  by_cases closed : decision.kind = .closed
  · by_cases ours : id = decision.connId ∨ id = decision.peerConnId
    · rw [Table.contains, settle_closed env msg decision now handling closed ours] at kept
      cases kept
    · rw [not_or] at ours
      rw [Table.contains, settle_other env msg decision now handling ours.1 ours.2] at kept
      exact ⟨kept, fun torn => torn.2.elim ours.1 ours.2⟩
  · rw [settle_of_open env msg decision now handling closed,
      ConnectionManager.microsegTouch_contains] at kept
    exact ⟨kept, fun torn => closed torn.1⟩

theorem notClosed_of_hasPayload (payload : hasPayload msg decision = true) :
    decision.kind ≠ .closed := by
  intro closed
  unfold hasPayload at payload
  rw [closed] at payload
  cases payload

/-- An entry is there afterwards because it was there before and was not torn down, or
because the packet bound one. -/
theorem tcpCb_contains {id : ConnectionId}
    (present : (tcpCb env side store msg tuple decision now handling).manager.micro.contains id =
      true) :
    handling.manager.micro.contains id = true ∧
        ¬(decision.kind = .closed ∧ (id = decision.connId ∨ id = decision.peerConnId)) ∨
      id = decision.connId ∧ Binds env side store msg tuple decision handling := by
  have settles := tcpCb_settles env side store msg tuple decision now handling
  generalize (tcpCb env side store msg tuple decision now handling).manager = after
    at settles present
  cases settles with
  | kept => exact Or.inl (settle_contains env msg decision now handling present)
  | ignored kind =>
      refine Or.inl ⟨present, fun torn => ?_⟩
      rw [kind] at torn
      cases torn.1
  | inspected heeded opened tracked ruleKey =>
      have settledTracked :
          (settle env msg decision now handling).manager.micro.contains decision.connId = true := by
        rw [settle_of_open env msg decision now handling opened,
          ConnectionManager.microsegTouch_contains]
        exact tracked
      rw [ConnectionManager.dispatchMicroseg_contains _ _ _ _ _ _ opened settledTracked] at present
      exact Or.inl (settle_contains env msg decision now handling present)
  | bound binds ruleKey =>
      by_cases own : id = decision.connId
      · exact Or.inr ⟨own, binds⟩
      · rw [Table.contains, ConnectionManager.microsegTrack_other _ _ _ _ own] at present
        exact Or.inl (settle_contains env msg decision now handling present)
  | boundAndInspected binds noSyn ruleKey =>
      by_cases own : id = decision.connId
      · exact Or.inr ⟨own, binds⟩
      · have payload : hasPayload msg decision = true := by
          rcases binds.2.2.1 with syn | payload
          · rw [noSyn] at syn
            cases syn
          · exact payload
        have opened := notClosed_of_hasPayload msg decision payload
        have untracked :
            (settle env msg decision now handling).manager.micro.lookup decision.connId = none := by
          apply Table.lookup_eq_none_of_not_contains
          rw [settle_of_open env msg decision now handling opened,
            ConnectionManager.microsegTouch_contains]
          exact Table.not_contains_of_lookup binds.2.1
        have tracked := Table.contains_of_lookup
          (ConnectionManager.microsegTrack_own _ decision ruleKey now untracked)
        rw [ConnectionManager.dispatchMicroseg_contains _ _ _ _ _ _ opened tracked,
          Table.contains, ConnectionManager.microsegTrack_other _ _ _ _ own] at present
        exact Or.inl (settle_contains env msg decision now handling present)

end Effects

end NetPolicy.Daemon
