/-
What the reaper removes and when.

The flow table and the microsegmentation map keep a clock in every entry.  Every write to
an entry sets its clock to the time of the packet that made it, and a packet other than an
ignored one or a duplicate leaves no older clock in the entries of its own direction.  A
sweep with one timeout for both tables therefore leaves nothing stale and removes nothing
that such a packet has kept alive.
-/

import NetPolicy.Daemon.Freshness

namespace NetPolicy.Daemon

open NetPolicy.Policy NetPolicy.Flow NetPolicy.Http

/-! ### Sweeps with a timeout of their own -/

/-- `EvictStale` with one clock and one timeout for the engine and the map. -/
def ConnectionManager.sweep (manager : ConnectionManager) (now timeout : Nat) :
    ConnectionManager :=
  let micro := manager.micro.retain fun id _ => !manager.engine.evicts now timeout id
  { engine := manager.engine.evictStale now timeout
    micro := micro.retain fun _ entry => !decide (timeout ≤ now - entry.lastSeen) }

def DaemonContext.stepWithin (env : Environment) (timeout : Nat) (daemon : DaemonContext) :
    DaemonEvent → DaemonContext
  | .reap now => { daemon with connMgr := daemon.connMgr.sweep now timeout }
  | event => daemon.step env event

theorem DaemonContext.stepWithin_stale (env : Environment) :
    DaemonContext.stepWithin env staleConnectionTimeout = DaemonContext.step env := by
  funext daemon event
  cases event <;> rfl

def DaemonEvent.time : DaemonEvent → Option Nat
  | .packet _ _ now => some now
  | .reap now => some now
  | .control _ => none

def Timely (events : List DaemonEvent) : Prop :=
  (events.filterMap DaemonEvent.time).Pairwise (· ≤ ·)

instance (events : List DaemonEvent) : Decidable (Timely events) :=
  inferInstanceAs (Decidable (List.Pairwise _ _))

/-- A packet of a direction, of a kind that shows the flow is alive. -/
def Enlivens (decision : PacketDecision) (id : ConnectionId) : Prop :=
  decision.connId = id ∧ decision.kind ≠ .ignore ∧ decision.kind ≠ .duplicate

/-! ### Clocks after a packet -/

def Refreshes (now : Nat) (before after : ConnectionManager) : Prop :=
  ∀ id entry, after.micro.lookup id = some entry →
    entry.lastSeen = now ∨ before.micro.lookup id = some entry

theorem Refreshes.trans {now : Nat} {before middle after : ConnectionManager}
    (first : Refreshes now before middle) (second : Refreshes now middle after) :
    Refreshes now before after := by
  intro id entry found
  rcases second id entry found with fresh | earlier
  · exact Or.inl fresh
  · exact first id entry earlier

section Operations

variable (libraries : Libraries) (manager : ConnectionManager) (decision : PacketDecision)
  (pkg : List UInt8) (ruleKey : String) (now : Nat)

theorem microsegTouch_refreshes : Refreshes now manager (manager.microsegTouch decision now) := by
  intro id entry found
  unfold ConnectionManager.microsegTouch ConnectionManager.touchMicroseg at found
  split at found
  · exact Or.inr found
  · split at found
    · exact Or.inr found
    · rcases Table.eq_or_lookup_of_insert found with rfl | earlier
      · exact Or.inl rfl
      · exact Or.inr earlier

theorem microsegTrack_refreshes :
    Refreshes now manager (manager.microsegTrack decision ruleKey now) := by
  intro id entry found
  unfold ConnectionManager.microsegTrack at found
  split at found
  · exact Or.inr found
  · rcases Table.eq_or_lookup_of_insert found with rfl | earlier
    · exact Or.inl rfl
    · exact Or.inr earlier

theorem inspect_refreshes (entry : MicrosegEntry) :
    Refreshes now manager (manager.inspect libraries decision entry pkg now).manager := by
  intro id other found
  rcases Table.eq_or_lookup_of_insert found with rfl | earlier
  · exact Or.inl rfl
  · exact Or.inr earlier

theorem dispatchMicroseg_refreshes :
    Refreshes now manager
      (manager.dispatchMicroseg libraries decision pkg ruleKey now).manager := by
  unfold ConnectionManager.dispatchMicroseg
  split
  · exact fun _ _ found => Or.inr found
  · exact microsegTrack_refreshes manager decision ruleKey now
  · exact inspect_refreshes libraries manager decision pkg now _
  · exact fun _ _ found => Or.inr (Table.lookup_of_erase (Table.lookup_of_erase found))
  · split
    · exact fun _ _ found => Or.inr found
    · exact inspect_refreshes libraries manager decision pkg now _
  · exact fun _ _ found => Or.inr found

theorem microsegTouch_clock (live : decision.kind ≠ .ignore ∧ decision.kind ≠ .duplicate)
    {entry : MicrosegEntry}
    (found : (manager.microsegTouch decision now).micro.lookup decision.connId = some entry) :
    entry.lastSeen = now := by
  unfold ConnectionManager.microsegTouch ConnectionManager.touchMicroseg at found
  rw [if_neg (not_or.mpr live)] at found
  split at found
  · rename_i absent
    rw [absent] at found
    cases found
  · rw [Table.lookup_insert_same] at found
    cases found
    rfl

end Operations

section Callback

variable (env : Environment) (side : Side) (store : MicroSegEngine) (msg : NfqMessage)
  (tuple : FiveTuple) (decision : PacketDecision) (now : Nat) (handling : Handling)

theorem settle_refreshes :
    Refreshes now handling.manager (settle env msg decision now handling).manager := by
  have touched := microsegTouch_refreshes handling.manager decision now
  unfold settle Handling.microsegClose
  split
  · exact touched.trans (dispatchMicroseg_refreshes env.libraries _ decision msg.payload "" now)
  · exact touched

theorem tcpCb_refreshes :
    Refreshes now (settle env msg decision now handling).manager
        (tcpCb env side store msg tuple decision now handling).manager ∨
      decision.kind = .ignore ∧
        (tcpCb env side store msg tuple decision now handling).manager = handling.manager := by
  have settles := tcpCb_settles env side store msg tuple decision now handling
  generalize (tcpCb env side store msg tuple decision now handling).manager = after at settles
  cases settles with
  | kept => exact Or.inl fun _ _ found => Or.inr found
  | ignored kind => exact Or.inr ⟨kind, rfl⟩
  | inspected heeded opened tracked ruleKey =>
      exact Or.inl (dispatchMicroseg_refreshes _ _ decision msg.payload ruleKey now)
  | bound binds ruleKey => exact Or.inl (microsegTrack_refreshes _ decision ruleKey now)
  | boundAndInspected binds noSyn ruleKey =>
      exact Or.inl ((microsegTrack_refreshes _ decision ruleKey now).trans
        (dispatchMicroseg_refreshes _ _ decision msg.payload ruleKey now))

theorem settle_clock (live : decision.kind ≠ .ignore ∧ decision.kind ≠ .duplicate)
    {entry : MicrosegEntry}
    (found : (settle env msg decision now handling).manager.micro.lookup decision.connId =
      some entry) : entry.lastSeen = now := by
  by_cases closed : decision.kind = .closed
  · rw [settle_closed env msg decision now handling closed (Or.inl rfl)] at found
    cases found
  · rw [settle_of_open env msg decision now handling closed] at found
    exact microsegTouch_clock handling.manager decision now live found

end Callback

theorem onSegment_refreshes {engine : FlowEngine} {segment : Segment} {now : Nat}
    {id : ConnectionId} {state : FlowState}
    (found : (engine.onSegment segment now).1.tcbs.lookup id = some state) :
    state.lastSeen = now ∨ engine.tcbs.lookup id = some state := by
  have decides := onSegment_decides engine segment now
  generalize engine.onSegment segment now = next at decides found
  cases decides with
  | closed old known ends => exact Or.inr (Table.lookup_of_erase (Table.lookup_of_erase found))
  | duplicate old known noFin noRst behind => exact Or.inr found
  | data old known noFin noRst ahead =>
      rcases Table.eq_or_lookup_of_insert found with rfl | earlier
      · exact Or.inl rfl
      · exact Or.inr earlier
  | ignored unknown rst => exact Or.inr found
  | opened unknown noRst syn =>
      dsimp only [FlowEngine.opened] at found
      split at found
      · rcases Table.eq_or_lookup_of_insert found with rfl | own
        · exact Or.inl rfl
        · rcases Table.eq_or_lookup_of_insert own with rfl | earlier
          · exact Or.inl rfl
          · exact Or.inr earlier
      · rcases Table.eq_or_lookup_of_insert found with rfl | earlier
        · exact Or.inl rfl
        · exact Or.inr earlier
  | unknownData unknown noRst noSyn => exact Or.inr found

/-- A live packet leaves no older clock in the flow table's entry of its direction: the
entry is new, has just been written, or is not there. -/
theorem onSegment_clock {engine : FlowEngine} {segment : Segment} {now : Nat}
    (live : (engine.onSegment segment now).2.kind ≠ .ignore ∧
      (engine.onSegment segment now).2.kind ≠ .duplicate) {state : FlowState}
    (found : (engine.onSegment segment now).1.tcbs.lookup segment.id = some state) :
    state.lastSeen = now := by
  have decides := onSegment_decides engine segment now
  generalize engine.onSegment segment now = next at decides found live
  cases decides with
  | closed old known ends =>
      rw [Table.lookup_erase_eq_none _ _ (Table.lookup_erase_same _ _)] at found
      cases found
  | duplicate old known noFin noRst behind => exact absurd rfl live.2
  | data old known noFin noRst ahead =>
      rw [Table.lookup_insert_same] at found
      cases found
      rfl
  | ignored unknown rst => exact absurd rfl live.1
  | opened unknown noRst syn =>
      rw [engine.opened_lookup segment now] at found
      cases found
      rfl
  | unknownData unknown noRst noSyn =>
      rw [unknown] at found
      cases found

/-! ### Directions seen alive -/

/-- What either table holds of the direction has a clock of this time or later. -/
structure AliveSince (seen : Nat) (id : ConnectionId) (manager : ConnectionManager) : Prop where
  engine : ∀ state, manager.engine.tcbs.lookup id = some state → seen ≤ state.lastSeen
  micro : ∀ entry, manager.micro.lookup id = some entry → seen ≤ entry.lastSeen

section Packet

variable (env : Environment) {daemon : DaemonContext} {queue : Queue} {msg : NfqMessage}
  {now : Nat} {id : ConnectionId}

theorem aliveSince_tcpCb {seen : Nat} {manager : ConnectionManager} {segment : Segment}
    (side : Side) (store : MicroSegEngine) (tuple : FiveTuple)
    (alive : AliveSince seen id manager) (later : seen ≤ now) :
    AliveSince seen id
      (tcpCb env side store msg tuple (manager.engine.onSegment segment now).2 now
        (Handling.start
          { manager with engine := (manager.engine.onSegment segment now).1 })).manager where
  engine := by
    intro state found
    rw [tcpCb_engine] at found
    rcases onSegment_refreshes found with fresh | earlier
    · exact later.trans_eq fresh.symm
    · exact alive.engine state earlier
  micro := by
    intro entry found
    rcases tcpCb_refreshes env side store msg tuple (manager.engine.onSegment segment now).2 now
        (Handling.start { manager with engine := (manager.engine.onSegment segment now).1 }) with
      refreshes | ⟨-, unchanged⟩
    · rcases ((settle_refreshes env msg _ now _).trans refreshes) id entry found with
        fresh | earlier
      · exact later.trans_eq fresh.symm
      · exact alive.micro entry earlier
    · rw [unchanged] at found
      exact alive.micro entry found

theorem aliveSince_packet {seen : Nat} (alive : AliveSince seen id daemon.connMgr)
    (later : seen ≤ now) : AliveSince seen id (daemon.handle env queue msg now).manager := by
  rw [DaemonContext.handle, Queue.callback_eq]
  cases bypassed : queue.side.bypasses msg.nfmark with
  | true =>
      rw [nfqCb_bypassed env queue.side daemon.microseg msg daemon.connMgr now bypassed]
      exact alive
  | false =>
      cases parsed : parseSegment msg.payload with
      | none =>
          rw [nfqCb_manager_of_no_segment env queue.side daemon.microseg msg daemon.connMgr now
            parsed]
          exact alive
      | some segment =>
          rw [nfqCb_segment env queue.side daemon.microseg msg daemon.connMgr now bypassed parsed]
          exact aliveSince_tcpCb env queue.side daemon.microseg msg.tuple alive later

theorem aliveSince_of_enlivens {decision : PacketDecision}
    (decided : daemon.decision queue msg now = some decision) (live : Enlivens decision id) :
    AliveSince now id (daemon.handle env queue msg now).manager := by
  obtain ⟨own, heeded, notDuplicate⟩ := live
  obtain ⟨segment, seen, parsed, rfl⟩ := decision_eq_some msg now decided heeded
  have ids := onSegment_ids daemon.connMgr.engine segment now heeded
  rw [DaemonContext.handle, Queue.callback_eq,
    nfqCb_segment env queue.side daemon.microseg msg daemon.connMgr now seen parsed]
  constructor
  · intro state found
    rw [tcpCb_engine, ← own, ids.1] at found
    exact (onSegment_clock ⟨heeded, notDuplicate⟩ found).ge
  · intro entry found
    rcases tcpCb_refreshes env queue.side daemon.microseg msg msg.tuple
        (daemon.connMgr.engine.onSegment segment now).2 now
        (Handling.start
          { daemon.connMgr with engine := (daemon.connMgr.engine.onSegment segment now).1 }) with
      refreshes | ⟨ignored, -⟩
    · rcases refreshes id entry found with fresh | settled
      · exact fresh.ge
      · rw [← own] at settled
        exact (settle_clock env msg _ now _ ⟨heeded, notDuplicate⟩ settled).ge
    · exact absurd ignored heeded

end Packet

theorem lookup_sweep_engine {manager : ConnectionManager} {now timeout : Nat} {id : ConnectionId}
    {state : FlowState} :
    (manager.sweep now timeout).engine.tcbs.lookup id = some state ↔
      manager.engine.tcbs.lookup id = some state ∧ now - state.lastSeen < timeout := by
  refine Table.lookup_retain_eq_some.trans ?_
  rw [FlowEngine.isStale, Bool.not_eq_true', decide_eq_false_iff_not, Nat.not_le]

theorem lookup_sweep_micro {manager : ConnectionManager} {now timeout : Nat} {id : ConnectionId}
    {entry : MicrosegEntry} :
    (manager.sweep now timeout).micro.lookup id = some entry ↔
      manager.micro.lookup id = some entry ∧ manager.engine.evicts now timeout id = false ∧
        now - entry.lastSeen < timeout := by
  refine Table.lookup_retain_eq_some.trans ?_
  rw [Table.lookup_retain_eq_some, Bool.not_eq_true', Bool.not_eq_true', decide_eq_false_iff_not,
    Nat.not_le, and_assoc]

theorem aliveSince_step (env : Environment) (timeout : Nat) {seen : Nat} {id : ConnectionId}
    {daemon : DaemonContext} {event : DaemonEvent} (alive : AliveSince seen id daemon.connMgr)
    (later : ∀ now ∈ event.time, seen ≤ now) :
    AliveSince seen id (daemon.stepWithin env timeout event).connMgr := by
  cases event with
  | packet queue msg now => exact aliveSince_packet env alive (later now rfl)
  | reap now =>
      exact
        { engine := fun state found => alive.engine state (lookup_sweep_engine.mp found).1
          micro := fun entry found => alive.micro entry (lookup_sweep_micro.mp found).1 }
  | control op => exact alive

theorem aliveSince_run (env : Environment) (timeout : Nat) {seen : Nat} {id : ConnectionId}
    {daemon : DaemonContext} {events : List DaemonEvent}
    (alive : AliveSince seen id daemon.connMgr)
    (later : ∀ event ∈ events, ∀ now ∈ event.time, seen ≤ now) :
    AliveSince seen id (Runs.run (DaemonContext.stepWithin env timeout) daemon events).connMgr :=
  Runs.run_invariant (DaemonContext.stepWithin env timeout)
    (fun _ event => ∀ now ∈ event.time, seen ≤ now)
    (fun current => AliveSince seen id current.connMgr)
    (fun _ _ alive later => aliveSince_step env timeout alive later) alive
    (Runs.meets_of_forall later daemon)

/-! ### The reaper -/

/-- The direction has an entry in one of the tables before and none in it after. -/
def Removes (before after : ConnectionManager) (id : ConnectionId) : Prop :=
  before.engine.tcbs.contains id = true ∧ after.engine.tcbs.contains id = false ∨
    before.micro.contains id = true ∧ after.micro.contains id = false

instance (before after : ConnectionManager) (id : ConnectionId) :
    Decidable (Removes before after id) :=
  inferInstanceAs (Decidable (_ ∨ _))

theorem timeout_le_of_removes {manager : ConnectionManager} {now timeout seen : Nat}
    {id : ConnectionId} (alive : AliveSince seen id manager)
    (removed : Removes manager (manager.sweep now timeout) id) : timeout ≤ now - seen := by
  have staleEntry {state : FlowState} (found : manager.engine.tcbs.lookup id = some state)
      (stale : timeout ≤ now - state.lastSeen) : timeout ≤ now - seen :=
    stale.trans (Nat.sub_le_sub_left (alive.engine state found) now)
  rcases removed with ⟨present, gone⟩ | ⟨present, gone⟩
  · obtain ⟨state, found⟩ := Option.isSome_iff_exists.mp present
    refine staleEntry found (Nat.not_lt.mp fun fresh => ?_)
    have kept := Table.contains_of_lookup (lookup_sweep_engine.mpr ⟨found, fresh⟩)
    exact absurd (gone.symm.trans kept) Bool.false_ne_true
  · obtain ⟨entry, found⟩ := Option.isSome_iff_exists.mp present
    cases evicted : manager.engine.evicts now timeout id with
    | true =>
        rw [FlowEngine.evicts] at evicted
        cases known : manager.engine.tcbs.lookup id with
        | none =>
            rw [known] at evicted
            cases evicted
        | some state =>
            rw [known] at evicted
            exact staleEntry known (of_decide_eq_true evicted)
    | false =>
        have stale : timeout ≤ now - entry.lastSeen := Nat.not_lt.mp fun fresh => by
          have kept := Table.contains_of_lookup (lookup_sweep_micro.mpr ⟨found, evicted, fresh⟩)
          exact absurd (gone.symm.trans kept) Bool.false_ne_true
        exact stale.trans (Nat.sub_le_sub_left (alive.micro entry found) now)

theorem Timely.after_packet {earlier later : List DaemonEvent} {queue : Queue} {msg : NfqMessage}
    {seen : Nat} (timely : Timely (earlier ++ .packet queue msg seen :: later)) :
    ∀ event ∈ later, ∀ now ∈ event.time, seen ≤ now := by
  intro event member now atTime
  rw [Timely, List.filterMap_append, List.pairwise_append] at timely
  have tail := timely.2.1
  rw [List.filterMap_cons_some (by rfl), List.pairwise_cons] at tail
  exact tail.1 now (List.mem_filterMap.mpr ⟨event, member, atTime⟩)

/-- After a sweep neither table holds an entry whose clock is as old as the timeout, and a
sweep removes an entry of a direction only if every packet of that direction that shows it
alive was handled at least the timeout before. -/
theorem reaper_safe_and_complete (env : Environment) (timeout : Nat) (events : List DaemonEvent)
    (now : Nat) (timely : Timely (events ++ [.reap now])) :
    let before := (Runs.run (DaemonContext.stepWithin env timeout) DaemonContext.new events).connMgr
    let after := before.sweep now timeout
    (∀ id state, after.engine.tcbs.lookup id = some state → now - state.lastSeen < timeout) ∧
    (∀ id entry, after.micro.lookup id = some entry → now - entry.lastSeen < timeout) ∧
    ∀ id, Removes before after id →
      ∀ earlier queue msg seen later decision,
        events = earlier ++ .packet queue msg seen :: later →
        (Runs.run (DaemonContext.stepWithin env timeout) DaemonContext.new earlier).decision
          queue msg seen = some decision →
        Enlivens decision id → timeout ≤ now - seen := by
  refine ⟨fun id state found => (lookup_sweep_engine.mp found).2,
    fun id entry found => (lookup_sweep_micro.mp found).2.2, ?_⟩
  rintro id removed earlier queue msg seen later decision rfl decided live
  rw [List.append_assoc, List.cons_append] at timely
  have ordered := timely.after_packet
  have alive : AliveSince seen id
      ((Runs.run (DaemonContext.stepWithin env timeout) DaemonContext.new earlier).stepWithin env
        timeout (.packet queue msg seen)).connMgr := aliveSince_of_enlivens env decided live
  refine timeout_le_of_removes ?_ removed
  rw [Runs.run_append, Runs.run_cons]
  exact aliveSince_run env timeout alive fun event member =>
    ordered event (List.mem_append_left _ member)

/-- A flow that sent its SYN at time 0 and data at time 100 is not swept before time 400. -/
theorem webFlow_reaped_when_idle :
    let events : List DaemonEvent :=
      [.control webPolicy, .packet .input (plainMessage webFlow 100 synFlag []) 0,
        .packet .input (plainMessage webFlow 101 ackFlag [80]) 100]
    let daemon := Runs.run (DaemonContext.stepWithin plainEnvironment 300) DaemonContext.new events
    ¬Removes daemon.connMgr (daemon.connMgr.sweep 399 300) webFlow ∧
      Removes daemon.connMgr (daemon.connMgr.sweep 400 300) webFlow ∧ 300 ≤ 400 - 100 := by
  intro events daemon
  have removed : Removes daemon.connMgr (daemon.connMgr.sweep 400 300) webFlow := by
    decide +kernel
  refine ⟨by decide +kernel, removed, ?_⟩
  exact (reaper_safe_and_complete plainEnvironment 300 events 400 (by decide)).2.2 webFlow removed
    [.control webPolicy, .packet .input (plainMessage webFlow 100 synFlag []) 0] .input
    (plainMessage webFlow 101 ackFlag [80]) 100 []
    { kind := .data, connId := webFlow, peerConnId := webFlow.peer, peerIsNew := false
      ipHeaderLen := 20, payloadOffset := 40, syn := false }
    rfl (by decide +kernel) ⟨rfl, by decide, by decide⟩

end NetPolicy.Daemon
