/-
The egress callback and the verdicts of the ingress callback.

Both callbacks of a daemon write the same two tables, keyed by the four-tuple alone, and
packets between two pods of one node pass through both.  A run is compared with the run
that does not show the egress callback the packets of one connection: what the ingress
callback answers to that connection depends on the part of the tables under its two
directions, so it is the same whenever the hidden packets leave that part alone, and
also when no HTTP rules apply to the connection and the answer comes from the layer 3/4
rules.
-/

import NetPolicy.Flow.Connections
import NetPolicy.Daemon.Mediation

namespace NetPolicy.Daemon

open NetPolicy.Policy NetPolicy.Flow NetPolicy.Http

/-! ### The part of the state under one connection -/

def ConnectionManager.restrict (manager : ConnectionManager) (keep : ConnectionId → Bool) :
    ConnectionManager :=
  { engine := restrictEngine manager.engine keep
    micro := manager.micro.restrict keep }

def Handling.restrict (handling : Handling) (keep : ConnectionId → Bool) : Handling :=
  handling.withManager (handling.manager.restrict keep)

section Restriction

variable {keep : ConnectionId → Bool} (manager : ConnectionManager) {decision : PacketDecision}
  (own : keep decision.connId = true)

include own

theorem microsegTouch_restrict (now : Nat) :
    (manager.restrict keep).microsegTouch decision now =
      (manager.microsegTouch decision now).restrict keep := by
  unfold ConnectionManager.microsegTouch ConnectionManager.touchMicroseg
  split
  · rfl
  · have found : (manager.restrict keep).micro.lookup decision.connId =
        manager.micro.lookup decision.connId := manager.micro.lookup_restrict own
    rw [found]
    cases manager.micro.lookup decision.connId with
    | none => rfl
    | some entry => simp only [ConnectionManager.restrict, Table.restrict_insert _ own]

theorem microsegTrack_restrict (ruleKey : String) (now : Nat) :
    (manager.restrict keep).microsegTrack decision ruleKey now =
      (manager.microsegTrack decision ruleKey now).restrict keep := by
  have found : (manager.restrict keep).micro.contains decision.connId =
      manager.micro.contains decision.connId := manager.micro.contains_restrict own
  unfold ConnectionManager.microsegTrack
  rw [found]
  cases manager.micro.contains decision.connId with
  | true => rfl
  | false =>
      simp only [ConnectionManager.restrict, Bool.false_eq_true, if_false,
        Table.restrict_insert _ own]

theorem dispatchMicroseg_restrict (libraries : Libraries) (pkg : List UInt8) (ruleKey : String)
    (now : Nat) :
    (manager.restrict keep).dispatchMicroseg libraries decision pkg ruleKey now =
      let call := manager.dispatchMicroseg libraries decision pkg ruleKey now
      { call with manager := call.manager.restrict keep } := by
  have found : (manager.restrict keep).micro.lookup decision.connId =
      manager.micro.lookup decision.connId := manager.micro.lookup_restrict own
  have inspected (entry : MicrosegEntry) :
      (manager.restrict keep).inspect libraries decision entry pkg now =
        let call := manager.inspect libraries decision entry pkg now
        { call with manager := call.manager.restrict keep } := by
    simp only [ConnectionManager.inspect, ConnectionManager.restrict, Table.restrict_insert _ own]
  unfold ConnectionManager.dispatchMicroseg
  cases decision.kind with
  | ignore => rfl
  | newConnection =>
      simp only [microsegTrack_restrict manager own]
  | unknownData =>
      dsimp only
      rw [found]
      exact inspected _
  | closed => simp only [ConnectionManager.restrict, Table.restrict_erase]
  | data =>
      dsimp only
      rw [found]
      cases manager.micro.lookup decision.connId with
      | none => rfl
      | some entry => exact inspected entry
  | duplicate => rfl

end Restriction

section Callback

variable (env : Environment) (side : Side) (store : MicroSegEngine) (msg : NfqMessage)
  (tuple : FiveTuple) {keep : ConnectionId → Bool} {decision : PacketDecision}
  (own : keep decision.connId = true) (now : Nat) (handling : Handling)

include own

theorem inspectCb_restrict (ruleKey : String) :
    inspectCb env side store msg tuple ruleKey decision now (handling.restrict keep) =
      (inspectCb env side store msg tuple ruleKey decision now handling).restrict keep := by
  have dispatched : (handling.restrict keep).manager.dispatchMicroseg env.libraries decision
      msg.payload ruleKey now =
        let call := handling.manager.dispatchMicroseg env.libraries decision msg.payload ruleKey now
        { call with manager := call.manager.restrict keep } :=
    dispatchMicroseg_restrict handling.manager own env.libraries msg.payload ruleKey now
  unfold inspectCb
  dsimp only [Handling.dispatch]
  rw [dispatched]
  dsimp only
  cases (handling.manager.dispatchMicroseg env.libraries decision msg.payload ruleKey now).header with
  | none => rfl
  | some header =>
      dsimp only
      cases (store.httpPolicy side.dir).lookup ruleKey with
      | none => rfl
      | some rules =>
          dsimp only
          split <;> rfl

theorem trackedCb_restrict (payload : Bool) :
    trackedCb env side store msg tuple decision payload now (handling.restrict keep) =
      (trackedCb env side store msg tuple decision payload now handling).restrict keep := by
  have ruleKey : (handling.restrict keep).manager.microsegRuleKey decision =
      handling.manager.microsegRuleKey decision :=
    congrArg (Option.map fun entry : MicrosegEntry => entry.conn.ruleKey)
      (handling.manager.micro.lookup_restrict own)
  unfold trackedCb
  rw [ruleKey, inspectCb_restrict env side store msg tuple own now handling]
  split
  · rfl
  · split
    · rfl
    · split
      · rfl
      · split <;> rfl

theorem untrackedCb_restrict (payload : Bool) :
    untrackedCb env side store msg tuple decision payload now (handling.restrict keep) =
      (untrackedCb env side store msg tuple decision payload now handling).restrict keep := by
  unfold untrackedCb
  split
  · rfl
  · dsimp only
    split
    · rfl
    · split
      · split <;> rfl
      · have tracked :
            (handling.restrict keep).withManager
                ((handling.restrict keep).manager.microsegTrack decision
                  (matchMicroPolicyRule env.order store tuple side.dir).ruleKey now) =
              (handling.withManager (handling.manager.microsegTrack decision
                (matchMicroPolicyRule env.order store tuple side.dir).ruleKey now)).restrict keep :=
          congrArg handling.withManager (microsegTrack_restrict handling.manager own _ now)
        rw [tracked]
        split
        · rfl
        · exact inspectCb_restrict env side store msg _ own now _ _

theorem settle_restrict :
    settle env msg decision now (handling.restrict keep) =
      (settle env msg decision now handling).restrict keep := by
  have touched : (handling.restrict keep).withManager
      ((handling.restrict keep).manager.microsegTouch decision now) =
        (handling.withManager (handling.manager.microsegTouch decision now)).restrict keep :=
    congrArg handling.withManager (microsegTouch_restrict handling.manager own now)
  unfold settle Handling.microsegClose
  rw [touched]
  split
  · have closed := dispatchMicroseg_restrict
      (handling.manager.microsegTouch decision now) own env.libraries msg.payload "" now
    simp only [Handling.dispatch, Handling.restrict, Handling.withManager, closed]
  · rfl

theorem tcpCb_restrict :
    tcpCb env side store msg tuple decision now (handling.restrict keep) =
      (tcpCb env side store msg tuple decision now handling).restrict keep := by
  by_cases ignored : decision.kind = .ignore
  · rw [tcpCb_ignored env side store msg tuple decision now _ ignored,
      tcpCb_ignored env side store msg tuple decision now _ ignored]
    rfl
  · have same : (handling.restrict keep).manager.microsegTracked decision =
        handling.manager.microsegTracked decision := handling.manager.micro.contains_restrict own
    cases tracked : handling.manager.microsegTracked decision with
    | true =>
        rw [tcpCb_tracked env side store msg tuple decision now _ ignored (same.trans tracked),
          tcpCb_tracked env side store msg tuple decision now _ ignored tracked,
          settle_restrict env msg own now handling]
        exact trackedCb_restrict env side store msg tuple own now _ _
    | false =>
        rw [tcpCb_untracked env side store msg tuple decision now _ ignored (same.trans tracked),
          tcpCb_untracked env side store msg tuple decision now _ ignored tracked,
          settle_restrict env msg own now handling]
        exact untrackedCb_restrict env side store msg tuple own now _ _

end Callback

/-- A callback answers a packet from the part of the tables under the packet's own
connection, and changes no other part. -/
theorem nfqCb_restrict (env : Environment) (side : Side) (store : MicroSegEngine)
    (msg : NfqMessage) (manager : ConnectionManager) (now : Nat) {segment : Segment}
    (parsed : parseSegment msg.payload = some segment) {keep : ConnectionId → Bool}
    (own : keep segment.id = true) (peer : keep segment.id.peer = true) :
    nfqCb env side store msg (manager.restrict keep) now =
      (nfqCb env side store msg manager now).restrict keep := by
  cases seen : side.bypasses msg.nfmark with
  | true =>
      rw [nfqCb_bypassed env side store msg _ now seen, nfqCb_bypassed env side store msg _ now seen]
      rfl
  | false =>
      rw [nfqCb_segment env side store msg _ now seen parsed,
        nfqCb_segment env side store msg _ now seen parsed]
      have decided : (manager.restrict keep).engine.onSegment segment now =
          (restrictEngine (manager.engine.onSegment segment now).1 keep,
            (manager.engine.onSegment segment now).2) :=
        onSegment_restrict manager.engine own peer now
      rw [decided]
      -- a segment the engine ignores has a decision about no flow at all
      by_cases ignored : (manager.engine.onSegment segment now).2.kind = .ignore
      · rw [tcpCb_ignored env side store msg _ _ now _ ignored,
          tcpCb_ignored env side store msg _ _ now _ ignored]
        rfl
      · have about : keep (manager.engine.onSegment segment now).2.connId = true := by
          rw [(onSegment_ids manager.engine segment now ignored).1]
          exact own
        exact tcpCb_restrict env side store msg _ about now
          (Handling.start { manager with engine := (manager.engine.onSegment segment now).1 })

theorem evictStale_restrict (manager : ConnectionManager) (keep : ConnectionId → Bool)
    (now timeout : Nat) :
    (manager.evictStale now timeout).restrict keep =
      (manager.restrict keep).evictStale now timeout := by
  have evicts (id : ConnectionId) (kept : keep id = true) :
      (restrictEngine manager.engine keep).evicts now staleConnectionTimeout id =
        manager.engine.evicts now staleConnectionTimeout id :=
    congrArg (Option.any (FlowEngine.isStale now staleConnectionTimeout))
      (manager.engine.tcbs.lookup_restrict kept)
  unfold ConnectionManager.evictStale ConnectionManager.restrict
  dsimp only
  rw [restrictEngine_evictStale, Table.restrict_retain _ fun _ _ => rfl]
  congr 2
  apply Table.restrict_retain
  intro id kept
  funext _
  rw [evicts id kept]

theorem nfqCb_foreign (env : Environment) (side : Side) (store : MicroSegEngine)
    (msg : NfqMessage) (manager : ConnectionManager) (now : Nat) {flow : ConnectionId}
    {segment : Segment} (parsed : parseSegment msg.payload = some segment)
    (foreign : ofConnection flow segment.id = false) {id : ConnectionId}
    (ours : ofConnection flow id = true) :
    (nfqCb env side store msg manager now).manager.engine.tcbs.lookup id =
        manager.engine.tcbs.lookup id ∧
      (nfqCb env side store msg manager now).manager.micro.lookup id =
        manager.micro.lookup id := by
  rcases ofConnection_ne ours foreign with ⟨notOwn, notPeer⟩
  cases seen : side.bypasses msg.nfmark with
  | true =>
      rw [nfqCb_bypassed env side store msg _ now seen]
      exact ⟨rfl, rfl⟩
  | false =>
      rw [nfqCb_segment env side store msg _ now seen parsed]
      constructor
      · rw [tcpCb_engine]
        exact manager.engine.onSegment_other segment now notOwn notPeer
      · by_cases ignored : (manager.engine.onSegment segment now).2.kind = .ignore
        · rw [tcpCb_ignored env side store msg _ _ now _ ignored]
          rfl
        · have ids := onSegment_ids manager.engine segment now ignored
          refine tcpCb_other env side store msg _ _ now _ ?_ ?_
          · rw [ids.1]
            exact notOwn
          · rw [ids.2]
            exact notPeer

/-! ### Egress packets that leave no trace -/

/-- The packet changes neither table: it is marked to pass, or the engine does not know
its flow and it neither opens one nor reaches the flow's HTTP connection, or it repeats
what the engine has seen and binds no entry. -/
def Silent (env : Environment) (side : Side) (store : MicroSegEngine)
    (manager : ConnectionManager) (msg : NfqMessage) (segment : Segment) : Prop :=
  side.bypasses msg.nfmark = true ∨
    manager.engine.tcbs.contains segment.id = false ∧
      (segment.rst = true ∨
        segment.syn = false ∧ manager.micro.contains segment.id = false ∧
          (segment.payloadLen = 0 ∨ ¬HttpApplies env side store msg.tuple)) ∨
    ∃ state ∈ manager.engine.tcbs.lookup segment.id,
      segment.fin = false ∧ segment.rst = false ∧ segment.seq < state.seq ∧
        (manager.micro.contains segment.id = true ∨
          segment.syn = false ∧ segment.payloadLen = 0 ∨ ¬HttpApplies env side store msg.tuple)

instance (env : Environment) (side : Side) (store : MicroSegEngine) (manager : ConnectionManager)
    (msg : NfqMessage) (segment : Segment) : Decidable (Silent env side store manager msg segment) :=
  inferInstanceAs
    (Decidable (_ ∨ _ ∨ ∃ state ∈ manager.engine.tcbs.lookup segment.id, _))

theorem microsegTouch_untracked (manager : ConnectionManager) {decision : PacketDecision}
    (untracked : manager.micro.lookup decision.connId = none) (now : Nat) :
    manager.microsegTouch decision now = manager := by
  unfold ConnectionManager.microsegTouch ConnectionManager.touchMicroseg
  rw [untracked]
  split <;> rfl

theorem untrackedCb_keeps (env : Environment) (side : Side) (store : MicroSegEngine)
    (msg : NfqMessage) (tuple : FiveTuple) (decision : PacketDecision) (now : Nat)
    (handling : Handling) (payload : Bool)
    (unbound : decision.syn = false ∧ payload = false ∨ ¬HttpApplies env side store tuple) :
    (untrackedCb env side store msg tuple decision payload now handling).manager =
      handling.manager := by
  rcases untrackedCb_manager env side store msg tuple decision now handling payload with
    kept | ⟨reaches, applies, -⟩
  · exact kept
  · rcases unbound with ⟨noSyn, noPayload⟩ | exempt
    · rw [noSyn, noPayload] at reaches
      rcases reaches with impossible | impossible
      · cases impossible
      · cases impossible
    · exact absurd applies exempt

/-- A duplicate does not even refresh the clock of an entry, and it makes none without
HTTP rules. -/
theorem duplicate_keeps (env : Environment) (side : Side) (store : MicroSegEngine)
    (msg : NfqMessage) (manager : ConnectionManager) (now : Nat) {segment : Segment}
    (parsed : parseSegment msg.payload = some segment)
    (unbound : manager.micro.contains segment.id = true ∨
      segment.syn = false ∧ segment.payloadLen = 0 ∨ ¬HttpApplies env side store msg.tuple) :
    (tcpCb env side store msg msg.tuple (segment.decision .duplicate) now
      (Handling.start manager)).manager = manager := by
  have heeded : (segment.decision .duplicate).kind ≠ .ignore := nofun
  have settled : (settle env msg (segment.decision .duplicate) now
      (Handling.start manager)).manager = manager := settle_of_open env msg _ now _ nofun
  cases tracked : manager.micro.contains segment.id with
  | true =>
      rw [tcpCb_tracked env side store msg msg.tuple (segment.decision .duplicate) now
        (Handling.start manager) heeded tracked]
      have unread : Unread env side store msg.tuple (segment.decision .duplicate)
          (hasPayload msg (segment.decision .duplicate)) true := Or.inr (Or.inr (Or.inl rfl))
      rcases trackedCb_passes env side store msg now msg.tuple unread _ with
        passed | ⟨rule, passed⟩
      · rw [passed]
        exact settled
      · rw [passed]
        exact settled
  | false =>
      have exempt := unbound.resolve_left (by rw [tracked]; exact Bool.false_ne_true)
      rw [tcpCb_untracked env side store msg msg.tuple (segment.decision .duplicate) now
          (Handling.start manager) heeded tracked,
        untrackedCb_keeps env side store msg _ _ now _ _
          (exempt.imp_left fun bare =>
            ⟨bare.1, hasPayload_empty msg .duplicate parsed bare.2⟩)]
      exact settled

theorem unknownData_keeps (env : Environment) (side : Side) (store : MicroSegEngine)
    (msg : NfqMessage) (manager : ConnectionManager) (now : Nat) {segment : Segment}
    (parsed : parseSegment msg.payload = some segment) (noSyn : segment.syn = false)
    (untracked : manager.micro.contains segment.id = false)
    (unbound : segment.payloadLen = 0 ∨ ¬HttpApplies env side store msg.tuple) :
    (tcpCb env side store msg msg.tuple (segment.decision .unknownData) now
      (Handling.start manager)).manager = manager := by
  have heeded : (segment.decision .unknownData).kind ≠ .ignore := nofun
  rw [tcpCb_untracked env side store msg msg.tuple (segment.decision .unknownData) now
      (Handling.start manager) heeded untracked,
    untrackedCb_keeps env side store msg _ _ now _ _
      (unbound.imp_left fun empty =>
        ⟨noSyn, hasPayload_empty msg .unknownData parsed empty⟩),
    settle_of_open env msg _ now _ (by intro closed; cases closed)]
  exact microsegTouch_untracked manager (Table.lookup_eq_none_of_not_contains untracked) now

theorem silent_manager (env : Environment) (side : Side) (store : MicroSegEngine)
    (msg : NfqMessage) (manager : ConnectionManager) (now : Nat) {segment : Segment}
    (parsed : parseSegment msg.payload = some segment)
    (silent : Silent env side store manager msg segment) :
    (nfqCb env side store msg manager now).manager = manager := by
  cases seen : side.bypasses msg.nfmark with
  | true =>
      rw [nfqCb_bypassed env side store msg _ now seen]
      rfl
  | false =>
      have unmarked := silent.resolve_left (by rw [seen]; exact Bool.false_ne_true)
      rw [nfqCb_segment env side store msg _ now seen parsed]
      have decides := onSegment_decides manager.engine segment now
      generalize manager.engine.onSegment segment now = next at decides ⊢
      rcases unmarked with ⟨absent, quiet⟩ | ⟨state, found, noFin, noRst, behind, unbound⟩
      · have unknown := Table.lookup_eq_none_of_not_contains absent
        cases decides with
        | closed state known _ => rw [unknown] at known; cases known
        | duplicate state known _ _ _ => rw [unknown] at known; cases known
        | data state known _ _ _ => rw [unknown] at known; cases known
        | ignored _ _ =>
            rw [tcpCb_ignored env side store msg _ PacketDecision.ignored now _ rfl]
            rfl
        | opened _ noRst syn =>
            rcases quiet with rst | ⟨noSyn, -⟩
            · rw [noRst] at rst
              cases rst
            · rw [noSyn] at syn
              cases syn
        | unknownData _ noRst noSyn =>
            rcases quiet with rst | ⟨-, untracked, unbound⟩
            · rw [noRst] at rst
              cases rst
            · exact unknownData_keeps env side store msg manager now parsed noSyn untracked unbound
      · cases decides with
        | closed _ _ ends =>
            rw [noFin, noRst] at ends
            rcases ends with fin | rst
            · cases fin
            · cases rst
        | duplicate _ _ _ _ _ =>
            exact duplicate_keeps env side store msg manager now parsed unbound
        | data other known _ _ ahead =>
            rw [known, Option.mem_some_iff] at found
            rw [found] at ahead
            omega
        | ignored unknown _ => rw [unknown] at found; cases found
        | opened unknown _ _ => rw [unknown] at found; cases found
        | unknownData unknown _ _ => rw [unknown] at found; cases found

/-! ### Runs without the egress packets of a connection -/

def DaemonEvent.visible (hidden : ConnectionId → Bool) : DaemonEvent → Bool
  | .packet .output msg _ => (parseSegment msg.payload).all fun segment => !hidden segment.id
  | _ => true

def SilentEgress (env : Environment) (hidden : ConnectionId → Bool) (daemon : DaemonContext)
    (event : DaemonEvent) : Prop :=
  match event with
  | .packet .output msg _ => ∀ segment ∈ parseSegment msg.payload, hidden segment.id = true →
      Silent env outputSide daemon.microseg daemon.connMgr msg segment
  | _ => True

instance (env : Environment) (hidden : ConnectionId → Bool) (daemon : DaemonContext)
    (event : DaemonEvent) : Decidable (SilentEgress env hidden daemon event) :=
  match event with
  | .packet .output msg _ =>
      inferInstanceAs (Decidable (∀ segment ∈ parseSegment msg.payload, _))
  | .packet .input _ _ => .isTrue trivial
  | .reap _ => .isTrue trivial
  | .control _ => .isTrue trivial

/-- No HTTP rules apply to the event, if it is a packet of the connection. -/
def PlainFlow (env : Environment) (flow : ConnectionId) (daemon : DaemonContext)
    (event : DaemonEvent) : Prop :=
  match event with
  | .packet queue msg _ => ∀ segment ∈ parseSegment msg.payload,
      ofConnection flow segment.id = true →
        queue.side.bypasses msg.nfmark = true ∨
          ¬HttpApplies env queue.side daemon.microseg msg.tuple
  | _ => True

instance (env : Environment) (flow : ConnectionId) (daemon : DaemonContext)
    (event : DaemonEvent) : Decidable (PlainFlow env flow daemon event) :=
  match event with
  | .packet _ msg _ => inferInstanceAs (Decidable (∀ segment ∈ parseSegment msg.payload, _))
  | .reap _ => .isTrue trivial
  | .control _ => .isTrue trivial

theorem hidden_of_not_visible {hidden : ConnectionId → Bool} {event : DaemonEvent}
    (unseen : event.visible hidden = false) :
    ∃ msg now segment, event = .packet .output msg now ∧
      parseSegment msg.payload = some segment ∧ hidden segment.id = true := by
  cases event with
  | packet queue msg now =>
      cases queue with
      | input => cases unseen
      | output =>
          dsimp only [DaemonEvent.visible] at unseen
          cases parsed : parseSegment msg.payload with
          | none =>
              rw [parsed] at unseen
              cases unseen
          | some segment =>
              rw [parsed, Option.all_some, Bool.not_eq_false'] at unseen
              exact ⟨msg, now, segment, rfl, parsed, unseen⟩
  | reap now => cases unseen
  | control op => cases unseen

/-- The daemons have one store, and tables that agree on a connection. -/
structure Agree (flow : ConnectionId) (daemon image : DaemonContext) : Prop where
  store : daemon.microseg = image.microseg
  tables : daemon.connMgr.restrict (ofConnection flow) = image.connMgr.restrict (ofConnection flow)

theorem nfqCb_foreign_restrict (env : Environment) (side : Side) (store : MicroSegEngine)
    (msg : NfqMessage) (manager : ConnectionManager) (now : Nat) {flow : ConnectionId}
    {segment : Segment} (parsed : parseSegment msg.payload = some segment)
    (foreign : ofConnection flow segment.id = false) :
    (nfqCb env side store msg manager now).manager.restrict (ofConnection flow) =
      manager.restrict (ofConnection flow) := by
  have kept {id : ConnectionId} (ours : ofConnection flow id = true) :=
    nfqCb_foreign env side store msg manager now parsed foreign ours
  exact congrArg₂ ConnectionManager.mk
    (congrArg FlowEngine.mk (Table.restrict_congr fun _ ours => (kept ours).1))
    (Table.restrict_congr fun _ ours => (kept ours).2)

theorem Agree.shown (env : Environment) {flow : ConnectionId} {daemon image : DaemonContext}
    (agree : Agree flow daemon image) (event : DaemonEvent) :
    Agree flow (daemon.step env event) (image.step env event) := by
  cases event with
  | packet queue msg now =>
      refine ⟨agree.store, ?_⟩
      dsimp only [DaemonContext.step, DaemonContext.handle]
      rw [Queue.callback_eq, Queue.callback_eq, ← agree.store]
      cases parsed : parseSegment msg.payload with
      | none =>
          rw [nfqCb_manager_of_no_segment env _ _ msg _ now parsed,
            nfqCb_manager_of_no_segment env _ _ msg _ now parsed]
          exact agree.tables
      | some segment =>
          cases ours : ofConnection flow segment.id with
          | true =>
              have own (manager : ConnectionManager) :=
                congrArg Handling.manager (nfqCb_restrict env queue.side daemon.microseg msg manager
                  now parsed ours (ofConnection_peer ours))
              refine (own daemon.connMgr).symm.trans (Eq.trans ?_ (own image.connMgr))
              rw [agree.tables]
          | false =>
              rw [nfqCb_foreign_restrict env _ _ msg _ now parsed ours,
                nfqCb_foreign_restrict env _ _ msg _ now parsed ours]
              exact agree.tables
  | reap now =>
      refine ⟨agree.store, ?_⟩
      dsimp only [DaemonContext.step]
      rw [evictStale_restrict, evictStale_restrict, agree.tables]
  | control op =>
      exact ⟨congrArg (fun store => MicroSegEngine.apply store op) agree.store, agree.tables⟩

theorem Agree.hidden (env : Environment) {flow : ConnectionId} {daemon image : DaemonContext}
    {hidden : ConnectionId → Bool} (agree : Agree flow daemon image) {event : DaemonEvent}
    (unseen : event.visible hidden = false) (silent : SilentEgress env hidden daemon event) :
    Agree flow (daemon.step env event) image := by
  rcases hidden_of_not_visible unseen with ⟨msg, now, segment, rfl, parsed, isHidden⟩
  have kept : (daemon.handle env .output msg now).manager = daemon.connMgr :=
    silent_manager env outputSide daemon.microseg msg daemon.connMgr now parsed
      (silent segment parsed isHidden)
  refine ⟨agree.store, ?_⟩
  dsimp only [DaemonContext.step]
  rw [kept]
  exact agree.tables

theorem Agree.verdicts (env : Environment) {flow : ConnectionId} {daemon image : DaemonContext}
    (agree : Agree flow daemon image) (side : Side) (msg : NfqMessage) (now : Nat)
    {segment : Segment} (parsed : parseSegment msg.payload = some segment)
    (ours : ofConnection flow segment.id = true) :
    (nfqCb env side daemon.microseg msg daemon.connMgr now).verdicts =
      (nfqCb env side image.microseg msg image.connMgr now).verdicts := by
  have own (manager : ConnectionManager) := congrArg Handling.verdicts
    (nfqCb_restrict env side daemon.microseg msg manager now parsed ours (ofConnection_peer ours))
  rw [← agree.store]
  refine (own daemon.connMgr).symm.trans (Eq.trans ?_ (own image.connMgr))
  rw [agree.tables]

/-! ### Connections without HTTP rules -/

def ConnectionManager.Untracked (manager : ConnectionManager) (flow : ConnectionId) : Prop :=
  ∀ id, ofConnection flow id = true → manager.micro.contains id = false

theorem untracked_nfqCb (env : Environment) (side : Side) (store : MicroSegEngine)
    (msg : NfqMessage) {manager : ConnectionManager} (now : Nat) {flow : ConnectionId}
    (untracked : manager.Untracked flow)
    (plain : ∀ segment ∈ parseSegment msg.payload, ofConnection flow segment.id = true →
      side.bypasses msg.nfmark = true ∨ ¬HttpApplies env side store msg.tuple) :
    (nfqCb env side store msg manager now).manager.Untracked flow := by
  intro id ours
  cases parsed : parseSegment msg.payload with
  | none =>
      rw [nfqCb_manager_of_no_segment env side store msg manager now parsed]
      exact untracked id ours
  | some segment =>
      cases own : ofConnection flow segment.id with
      | false =>
          rw [Table.contains,
            (nfqCb_foreign env side store msg manager now parsed own ours).2]
          exact untracked id ours
      | true =>
          cases seen : side.bypasses msg.nfmark with
          | true =>
              rw [nfqCb_bypassed env side store msg manager now seen]
              exact untracked id ours
          | false =>
              have exempt := (plain segment parsed own).resolve_left
                (by rw [seen]; exact Bool.false_ne_true)
              rw [nfqCb_segment env side store msg manager now seen parsed]
              by_contra present
              rw [Bool.not_eq_false] at present
              rcases tcpCb_contains env side store msg _ _ now _ present with
                ⟨before, -⟩ | ⟨-, binds⟩
              · have absent := untracked id ours
                rw [show manager.micro.contains id = true from before] at absent
                cases absent
              · exact exempt binds.2.2.2

structure BothUntracked (flow : ConnectionId) (daemon image : DaemonContext) : Prop where
  store : daemon.microseg = image.microseg
  first : daemon.connMgr.Untracked flow
  second : image.connMgr.Untracked flow

theorem untracked_step (env : Environment) {flow : ConnectionId} {daemon : DaemonContext}
    (untracked : daemon.connMgr.Untracked flow) {event : DaemonEvent}
    (plain : PlainFlow env flow daemon event) :
    (daemon.step env event).connMgr.Untracked flow := by
  cases event with
  | packet queue msg now =>
      dsimp only [DaemonContext.step, DaemonContext.handle]
      rw [Queue.callback_eq]
      exact untracked_nfqCb env queue.side daemon.microseg msg now untracked plain
  | reap now =>
      intro id ours
      have absent := Table.lookup_eq_none_of_not_contains (untracked id ours)
      apply Table.not_contains_of_lookup
      simp only [DaemonContext.step, ConnectionManager.evictStale, Table.retain, absent,
        Option.filter_none]
  | control op => exact untracked

theorem plainFlow_congr {env : Environment} {flow : ConnectionId} {daemon image : DaemonContext}
    (sameStore : daemon.microseg = image.microseg) {event : DaemonEvent}
    (plain : PlainFlow env flow daemon event) : PlainFlow env flow image event := by
  cases event with
  | packet queue msg now =>
      unfold PlainFlow at plain ⊢
      rw [← sameStore]
      exact plain
  | reap now => trivial
  | control op => trivial

/-- Whether the engine knows the flow makes no difference to whether the packet is
matched.  It does for a SYN with RST, and for payload sent with the FIN. -/
def Indifferent (segment : Segment) : Prop :=
  ¬(segment.syn = true ∧ segment.rst = true) ∧
    ¬(segment.fin = true ∧ segment.rst = false ∧ segment.syn = false ∧ 0 < segment.payloadLen)

instance (segment : Segment) : Decidable (Indifferent segment) :=
  inferInstanceAs (Decidable (_ ∧ _))

section Plain

variable (env : Environment) (side : Side) (store : MicroSegEngine) (msg : NfqMessage)

def plainVerdicts (matched : Bool) : List VerdictCall :=
  let accept (rule : NetPolicyRule) : VerdictCall :=
    { id := msg.id, verdict := .accept, mark := some rule.value, payload := none }
  if matched then
    let answer := matchMicroPolicyRule env.order store msg.tuple side.dir
    if answer.rule = .deny then
      [{ id := msg.id, verdict := .drop, mark := none, payload := none }]
    else [accept .allow]
  else [accept side.pass]

variable (now : Nat)

theorem untrackedCb_plain (exempt : ¬HttpApplies env side store msg.tuple)
    (decision : PacketDecision) (payload : Bool) {handling : Handling}
    (unanswered : handling.verdicts = []) :
    (untrackedCb env side store msg msg.tuple decision payload now handling).verdicts =
      plainVerdicts env side store msg (decision.syn || payload) := by
  unfold untrackedCb plainVerdicts
  have looks : (!decision.syn && !payload) = !(decision.syn || payload) := by
    rw [Bool.not_or]
  rw [looks]
  cases decision.syn || payload with
  | false =>
      rw [if_pos Bool.not_false, if_neg Bool.false_ne_true]
      exact Handling.verdictWithMark_first unanswered _ _ _ _
  | true =>
      rw [if_neg (by decide), if_pos rfl]
      dsimp only
      by_cases default : (matchMicroPolicyRule env.order store msg.tuple side.dir).rule = .default
      · rw [if_pos default, if_neg (by rw [default]; intro deny; cases deny)]
        exact Handling.verdictWithMark_first unanswered _ _ _ _
      · have bare : ((store.httpPolicy side.dir).lookup
            (matchMicroPolicyRule env.order store msg.tuple side.dir).ruleKey).getD [] = [] := by
          by_contra stored
          exact exempt ⟨default, stored⟩
        rw [if_neg default, if_pos bare]
        split
        · dsimp only [Handling.verdict, Handling.sendMatchMsg]
          rw [unanswered]
          rfl
        · exact Handling.verdictWithMark_first unanswered _ _ _ _

theorem Indifferent.closing {segment : Segment} (indifferent : Indifferent segment)
    (ends : segment.fin = true ∨ segment.rst = true) :
    segment.syn = (!segment.rst && (segment.syn || decide (0 < segment.payloadLen))) := by
  rcases indifferent with ⟨noSynRst, noFinData⟩
  cases rst : segment.rst with
  | true =>
      cases syn : segment.syn with
      | true => exact absurd ⟨syn, rst⟩ noSynRst
      | false => rfl
  | false =>
      have fin : segment.fin = true := by
        rw [rst] at ends
        exact ends.resolve_right Bool.false_ne_true
      cases syn : segment.syn with
      | true => rfl
      | false =>
          have empty : ¬0 < segment.payloadLen := fun payload =>
            noFinData ⟨fin, rst, syn, payload⟩
          rw [decide_eq_false empty]
          rfl

/-- Without an entry and without HTTP rules the verdict comes from the packet and the
layer 3/4 rules alone. -/
theorem nfqCb_plain {manager : ConnectionManager} {segment : Segment}
    (seen : side.bypasses msg.nfmark = false)
    (parsed : parseSegment msg.payload = some segment)
    (untracked : manager.micro.contains segment.id = false)
    (exempt : ¬HttpApplies env side store msg.tuple) (indifferent : Indifferent segment) :
    (nfqCb env side store msg manager now).verdicts =
      plainVerdicts env side store msg
        (!segment.rst && (segment.syn || decide (0 < segment.payloadLen))) := by
  rw [nfqCb_segment env side store msg manager now seen parsed]
  have decides := onSegment_decides manager.engine segment now
  generalize manager.engine.onSegment segment now = next at decides
  have unanswered (decision : PacketDecision) (engine : FlowEngine) :
      (settle env msg decision now
        (Handling.start { manager with engine := engine })).verdicts = [] :=
    settle_verdicts env msg decision now _
  -- every path but a reset of an unknown flow ends in the untracked part
  have answered (engine : FlowEngine) (decision : PacketDecision)
      (heeded : decision.kind ≠ .ignore) (own : decision.connId = segment.id) :
      (tcpCb env side store msg msg.tuple decision now
          (Handling.start { manager with engine := engine })).verdicts =
        plainVerdicts env side store msg (decision.syn || hasPayload msg decision) := by
    rw [tcpCb_start_untracked env side store msg _ decision now manager engine heeded
      (by rw [own]; exact untracked)]
    exact untrackedCb_plain env side store msg now exempt decision _ (unanswered _ _)
  cases decides with
  | closed state known ends =>
      rw [answered _ (segment.boundary .closed false) (by intro ignored; cases ignored) rfl]
      congr 1
      have noOffset : hasPayload msg (segment.boundary .closed false) = false := rfl
      rw [noOffset, Bool.or_false]
      exact indifferent.closing ends
  | duplicate state known noFin noRst behind =>
      refine (answered _ (segment.decision .duplicate) (by intro ignored; cases ignored) rfl).trans ?_
      rw [hasPayload_eq msg (Or.inr (Or.inl rfl)) parsed, noRst]
      rfl
  | data state known noFin noRst ahead =>
      rw [answered _ (segment.decision .data) (by intro ignored; cases ignored) rfl,
        hasPayload_eq msg (Or.inl rfl) parsed, noRst]
      rfl
  | ignored unknown rst =>
      rw [tcpCb_ignored env side store msg _ PacketDecision.ignored now _ rfl, rst]
      rfl
  | opened unknown noRst syn =>
      rw [answered _ (segment.boundary .newConnection _) (by intro ignored; cases ignored) rfl,
        noRst, syn]
      have synKept : (segment.boundary .newConnection
          (manager.engine.peerIsNew segment now)).syn = true := syn
      rw [synKept]
      rfl
  | unknownData unknown noRst noSyn =>
      refine (answered _ (segment.decision .unknownData)
        (by intro ignored; cases ignored) rfl).trans ?_
      rw [hasPayload_eq msg (Or.inr (Or.inr rfl)) parsed, noRst]
      rfl

end Plain

theorem BothUntracked.verdicts (env : Environment) {flow : ConnectionId}
    {daemon image : DaemonContext} (untracked : BothUntracked flow daemon image) (side : Side)
    (msg : NfqMessage) (now : Nat) {segment : Segment}
    (parsed : parseSegment msg.payload = some segment)
    (ours : ofConnection flow segment.id = true)
    (plain : side.bypasses msg.nfmark = true ∨ ¬HttpApplies env side daemon.microseg msg.tuple)
    (indifferent : Indifferent segment) :
    (nfqCb env side daemon.microseg msg daemon.connMgr now).verdicts =
      (nfqCb env side image.microseg msg image.connMgr now).verdicts := by
  rw [← untracked.store]
  cases seen : side.bypasses msg.nfmark with
  | true =>
      rw [nfqCb_bypassed env side _ msg _ now seen, nfqCb_bypassed env side _ msg _ now seen]
      rfl
  | false =>
      have exempt := plain.resolve_left (by rw [seen]; exact Bool.false_ne_true)
      rw [nfqCb_plain env side _ msg now seen parsed (untracked.first _ ours) exempt indifferent,
        nfqCb_plain env side _ msg now seen parsed (untracked.second _ ours) exempt indifferent]

/-! ### Isolation -/

def pairRule (action : PolicyAction) (direction : FlowDirection)
    (httpRules : List HttpMatchRule) : PolicyRuleSpec :=
  { action := action
    direction := direction
    protocol := .tcp
    httpRules := httpRules
    fromAddresses := ["10.0.0.1"]
    toAddresses := ["10.0.0.2"]
    ports := []
    priority := 1 }

def denyIngress : ControlOp := .addPolicyRule "in" [pairRule .deny .ingress []]

def inspectEgress : ControlOp :=
  .addPolicyRule "out" [pairRule .allow .egress [{ host := "", method := "", path := "/a" }]]

def webSyn : NfqMessage := plainMessage webFlow 100 synFlag []

def ingressVerdicts (events : List DaemonEvent) : List VerdictCall :=
  let daemon := Runs.run (DaemonContext.step plainEnvironment)
    { connMgr := ConnectionManager.new, microseg := MicroSegEngine.new } events
  (inputNfqCb plainEnvironment daemon.microseg webSyn daemon.connMgr 1).verdicts

end NetPolicy.Daemon
