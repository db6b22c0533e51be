/-
What the connections behind the entries have been given.

The callbacks log the bytes of every `onData` call they make, and an entry the packets they
came from; the code keeps neither.  A callback changes an entry's connection by the calls of
its log and by nothing else, and in every run the connection of an entry is a new one after
the payloads of the packets that the entry lists, in order and each as often as it is listed.
-/

import NetPolicy.Daemon.Mediation
import NetPolicy.Flow.Delivery

namespace NetPolicy.Daemon

open NetPolicy.Policy NetPolicy.Flow NetPolicy.Http

/-! ### Calls of `onData` -/

def connectionAfter (libraries : Libraries) (connection : Connection)
    (payloads : List (List UInt8)) : Connection :=
  Runs.run (fun connection data => (connection.onData libraries data).1) connection payloads

theorem connectionAfter_append (libraries : Libraries) (connection : Connection)
    (first second : List (List UInt8)) :
    connectionAfter libraries connection (first ++ second) =
      connectionAfter libraries (connectionAfter libraries connection first) second :=
  Runs.run_append _ connection first second

theorem connectionAfter_ruleKey (libraries : Libraries) (connection : Connection)
    (payloads : List (List UInt8)) :
    (connectionAfter libraries connection payloads).ruleKey = connection.ruleKey := by
  induction payloads generalizing connection with
  | nil => rfl
  | cons data rest ih =>
      exact (ih (connection.onData libraries data).1).trans
        (connection.onData_ruleKey libraries data)

def logged (log : List (ConnectionId × List UInt8)) (id : ConnectionId) : List (List UInt8) :=
  (log.filter fun call => call.1 = id).map Prod.snd

theorem logged_append (first second : List (ConnectionId × List UInt8)) (id : ConnectionId) :
    logged (first ++ second) id = logged first id ++ logged second id := by
  rw [logged, List.filter_append, List.map_append]
  rfl

/-- The entry is the earlier one after the calls, which were for the packet. -/
structure MicrosegEntry.Continues (libraries : Libraries) (pkg : List UInt8)
    (calls : List (List UInt8)) (start entry : MicrosegEntry) : Prop where
  conn : entry.conn = connectionAfter libraries start.conn calls
  given : entry.given = start.given ++ calls.map fun _ => pkg

/-- Every entry is one from before, or a new one, after the calls that the log has for it. -/
def Gave (libraries : Libraries) (pkg : List UInt8) (before : ConnectionManager)
    (handling : Handling) : Prop :=
  ∀ id entry, handling.manager.micro.lookup id = some entry →
    ∃ start : MicrosegEntry,
      (before.micro.lookup id = some start ∨
        ∃ ruleKey now, start = MicrosegEntry.fresh ruleKey now) ∧
      start.Continues libraries pkg (logged handling.inspected id) entry

section Steps

variable {libraries : Libraries} {pkg : List UInt8} {before : ConnectionManager}
  {handling : Handling}

theorem Gave.start (libraries : Libraries) (pkg : List UInt8) (manager : ConnectionManager)
    (engine : FlowEngine) :
    Gave libraries pkg manager (Handling.start { manager with engine := engine }) := by
  intro id entry found
  exact ⟨entry, Or.inl found, rfl, (List.append_nil _).symm⟩

theorem Gave.withManager (gave : Gave libraries pkg before handling) {manager : ConnectionManager}
    (keeps : ∀ id entry, manager.micro.lookup id = some entry →
      ∃ start : MicrosegEntry, start.conn = entry.conn ∧ start.given = entry.given ∧
        (handling.manager.micro.lookup id = some start ∨
          logged handling.inspected id = [] ∧
            ∃ ruleKey now, start = MicrosegEntry.fresh ruleKey now)) :
    Gave libraries pkg before (handling.withManager manager) := by
  intro id entry found
  obtain ⟨kept, sameConn, sameGiven, old | ⟨silent, new⟩⟩ := keeps id entry found
  · obtain ⟨start, origin, continues⟩ := gave id kept old
    exact ⟨start, origin, sameConn.symm.trans continues.conn,
      sameGiven.symm.trans continues.given⟩
  · refine ⟨kept, Or.inr new, ?_⟩
    change kept.Continues libraries pkg (logged handling.inspected id) entry
    rw [silent]
    exact ⟨sameConn.symm, by rw [← sameGiven, List.map_nil, List.append_nil]⟩

theorem Gave.touch (gave : Gave libraries pkg before handling) (decision : PacketDecision)
    (now : Nat) :
    Gave libraries pkg before
      (handling.withManager (handling.manager.microsegTouch decision now)) := by
  refine gave.withManager fun id entry found => ?_
  by_cases own : id = decision.connId
  · obtain ⟨clock, lookup⟩ := handling.manager.microsegTouch_own decision now
    rw [own, lookup, Option.map_eq_some_iff] at found
    obtain ⟨kept, old, rfl⟩ := found
    exact ⟨kept, rfl, rfl, Or.inl (own ▸ old)⟩
  · rw [handling.manager.microsegTouch_other decision now own] at found
    exact ⟨entry, rfl, rfl, Or.inl found⟩

theorem Gave.track (gave : Gave libraries pkg before handling) (silent : handling.inspected = [])
    (decision : PacketDecision) (ruleKey : String) (now : Nat) :
    Gave libraries pkg before
      (handling.withManager (handling.manager.microsegTrack decision ruleKey now)) := by
  refine gave.withManager fun id entry found => ?_
  cases old : handling.manager.micro.lookup decision.connId with
  | some kept =>
      rw [ConnectionManager.microsegTrack, if_pos (Table.contains_of_lookup old)] at found
      exact ⟨entry, rfl, rfl, Or.inl found⟩
  | none =>
      by_cases own : id = decision.connId
      · rw [own, handling.manager.microsegTrack_own decision ruleKey now old] at found
        cases found
        exact ⟨_, rfl, rfl, Or.inr ⟨by rw [silent]; rfl, ruleKey, now, rfl⟩⟩
      · rw [handling.manager.microsegTrack_other decision ruleKey now own] at found
        exact ⟨entry, rfl, rfl, Or.inl found⟩

theorem Gave.inspect (gave : Gave libraries pkg before handling) (decision : PacketDecision)
    (entry : MicrosegEntry) (now : Nat)
    (origin : handling.manager.micro.lookup decision.connId = some entry ∨
      logged handling.inspected decision.connId = [] ∧
        ∃ ruleKey now, entry = MicrosegEntry.fresh ruleKey now) :
    let call := handling.manager.inspect libraries decision entry pkg now
    Gave libraries pkg before
      { handling with
        manager := call.manager
        inspected := handling.inspected ++ call.inspected.toList } := by
  intro call id after found
  change (handling.manager.micro.insert decision.connId _).lookup id = some after at found
  change ∃ start : MicrosegEntry, _ ∧ start.Continues libraries pkg
    (logged (handling.inspected ++ [(decision.connId, pkg.drop decision.payloadOffset)]) id) after
  rw [logged_append]
  by_cases own : id = decision.connId
  · subst own
    rw [Table.lookup_insert_same] at found
    cases found
    have here : logged [(decision.connId, pkg.drop decision.payloadOffset)] decision.connId =
        [pkg.drop decision.payloadOffset] := by simp [logged]
    rw [here]
    rcases origin with old | ⟨silent, new⟩
    · obtain ⟨start, source, continues⟩ := gave _ entry old
      refine ⟨start, source, ?_, ?_⟩
      · rw [connectionAfter_append, ← continues.conn]
        rfl
      · rw [List.map_append, ← List.append_assoc, ← continues.given]
        rfl
    · rw [silent]
      exact ⟨entry, Or.inr new, rfl, rfl⟩
  · rw [Table.lookup_insert_ne _ _ own] at found
    obtain ⟨start, source, continues⟩ := gave id after found
    have elsewhere : logged [(decision.connId, pkg.drop decision.payloadOffset)] id = [] := by
      simp [logged, Ne.symm own]
    rw [elsewhere, List.append_nil]
    exact ⟨start, source, continues⟩

theorem Gave.dispatch (gave : Gave libraries pkg before handling) (silent : handling.inspected = [])
    (decision : PacketDecision) (ruleKey : String) (now : Nat) :
    Gave libraries pkg before (handling.dispatch libraries decision pkg ruleKey now).1 := by
  have unlogged (id : ConnectionId) : logged handling.inspected id = [] := by rw [silent]; rfl
  have kept (manager : ConnectionManager)
      (keeps : Gave libraries pkg before (handling.withManager manager)) :
      Gave libraries pkg before
        { handling with
          manager := manager
          dispatches := handling.dispatches ++ [decision.kind]
          inspected := handling.inspected ++ (none : Option (ConnectionId × List UInt8)).toList } := by
    intro id entry found
    obtain ⟨start, origin, continues⟩ := keeps id entry found
    refine ⟨start, origin, ?_⟩
    rw [Option.toList_none, List.append_nil]
    exact continues
  unfold Handling.dispatch ConnectionManager.dispatchMicroseg
  cases decision.kind with
  | ignore => exact kept _ gave
  | newConnection => exact kept _ (gave.track silent decision ruleKey now)
  | unknownData =>
      refine gave.inspect decision _ now ?_
      cases old : handling.manager.micro.lookup decision.connId with
      | some entry => exact Or.inl rfl
      | none => exact Or.inr ⟨unlogged _, ruleKey, now, rfl⟩
  | closed =>
      refine kept _ (gave.withManager fun id entry found => ⟨entry, rfl, rfl, Or.inl ?_⟩)
      exact Table.lookup_of_erase (Table.lookup_of_erase found)
  | data =>
      cases old : handling.manager.micro.lookup decision.connId with
      | none => exact kept _ gave
      | some entry => exact gave.inspect decision entry now (Or.inl old)
  | duplicate => exact kept _ gave

theorem settle_gave (gave : Gave libraries pkg before handling) (silent : handling.inspected = [])
    {env : Environment} {msg : NfqMessage} (same : env.libraries = libraries ∧ msg.payload = pkg)
    (decision : PacketDecision) (now : Nat) :
    Gave libraries pkg before (settle env msg decision now handling) := by
  obtain ⟨rfl, rfl⟩ := same
  unfold settle Handling.microsegClose
  split
  · exact (gave.touch decision now).dispatch silent decision "" now
  · exact gave.touch decision now

end Steps

/-! ### Callbacks -/

section Callbacks

variable (env : Environment) (side : Side) (store : MicroSegEngine) (msg : NfqMessage)
  (tuple : FiveTuple) (decision : PacketDecision) (now : Nat) {before : ConnectionManager}
  {handling : Handling}

theorem inspectCb_gave (gave : Gave env.libraries msg.payload before handling)
    (silent : handling.inspected = []) (ruleKey : String) :
    Gave env.libraries msg.payload before
      (inspectCb env side store msg tuple ruleKey decision now handling) := by
  have dispatched := gave.dispatch silent decision ruleKey now
  unfold inspectCb
  dsimp only
  split
  · exact dispatched
  · split
    · exact dispatched
    · split <;> exact dispatched

theorem trackedCb_gave (gave : Gave env.libraries msg.payload before handling)
    (silent : handling.inspected = []) (payload : Bool) :
    Gave env.libraries msg.payload before
      (trackedCb env side store msg tuple decision payload now handling) := by
  unfold trackedCb
  split
  · exact gave
  · split
    · exact gave
    · split
      · exact gave
      · split
        · exact gave
        · exact inspectCb_gave env side store msg tuple decision now gave silent _

theorem untrackedCb_gave (gave : Gave env.libraries msg.payload before handling)
    (silent : handling.inspected = []) (payload : Bool) :
    Gave env.libraries msg.payload before
      (untrackedCb env side store msg tuple decision payload now handling) := by
  unfold untrackedCb
  split
  · exact gave
  · dsimp only
    split
    · exact gave
    · split
      · split <;> exact gave
      · split
        · exact gave.track silent decision _ now
        · exact inspectCb_gave env side store msg _ decision now
            (gave.track silent decision _ now) silent _

theorem tcpCb_gave (gave : Gave env.libraries msg.payload before handling)
    (silent : handling.inspected = []) :
    Gave env.libraries msg.payload before
      (tcpCb env side store msg tuple decision now handling) := by
  by_cases ignored : decision.kind = .ignore
  · rw [tcpCb_ignored env side store msg tuple decision now handling ignored]
    exact gave
  · have settled := settle_gave gave silent ⟨rfl, rfl⟩ decision now
    have quiet := (settle_inspected env msg decision now handling).trans silent
    cases tracked : handling.manager.microsegTracked decision with
    | true =>
        rw [tcpCb_tracked env side store msg tuple decision now handling ignored tracked]
        exact trackedCb_gave env side store msg tuple decision now settled quiet _
    | false =>
        rw [tcpCb_untracked env side store msg tuple decision now handling ignored tracked]
        exact untrackedCb_gave env side store msg tuple decision now settled quiet _

/-- A callback changes the connections by the `onData` calls it logs and by nothing else. -/
theorem nfqCb_gave (manager : ConnectionManager) :
    Gave env.libraries msg.payload manager (nfqCb env side store msg manager now) := by
  cases parsed : parseSegment msg.payload with
  | none =>
      obtain ⟨kept, silent⟩ := nfqCb_of_no_segment env side store msg manager now parsed
      intro id entry found
      rw [kept] at found
      rw [silent]
      exact ⟨entry, Or.inl found, rfl, (List.append_nil _).symm⟩
  | some segment =>
      cases seen : side.bypasses msg.nfmark with
      | true =>
          rw [nfqCb_bypassed env side store msg manager now seen]
          exact Gave.start env.libraries msg.payload manager manager.engine
      | false =>
          rw [nfqCb_segment env side store msg manager now seen parsed]
          exact tcpCb_gave env side store msg msg.tuple _ now
            (Gave.start env.libraries msg.payload manager _) rfl

end Callbacks

/-! ### Runs -/

/-- The connection of an entry is a new one after the payloads of the packets listed. -/
def MicrosegEntry.Accounts (libraries : Libraries) (entry : MicrosegEntry) : Prop :=
  entry.conn = connectionAfter libraries (Connection.new entry.conn.ruleKey)
    (entry.given.map payloadOf)

theorem logged_handle (env : Environment) (daemon : DaemonContext) (queue : Queue)
    (msg : NfqMessage) (now : Nat) {data : List UInt8} {id : ConnectionId}
    (given : data ∈ logged (daemon.handle env queue msg now).inspected id) :
    data = payloadOf msg.payload := by
  obtain ⟨call, member, rfl⟩ := List.mem_map.mp given
  have issued := List.mem_of_mem_filter member
  rw [DaemonContext.handle, Queue.callback_eq] at issued
  cases parsed : parseSegment msg.payload with
  | none =>
      rw [(nfqCb_of_no_segment env queue.side daemon.microseg msg daemon.connMgr now parsed).2]
        at issued
      cases issued
  | some segment =>
      rw [nfqCb_inspected env queue.side daemon.microseg msg now daemon.connMgr parsed] at issued
      split at issued
      · rw [List.mem_singleton.mp issued, payloadOf, parsed]
        rfl
      · cases issued

theorem MicrosegEntry.Continues.accounts {libraries : Libraries} {pkg : List UInt8}
    {calls : List (List UInt8)} {start entry : MicrosegEntry}
    (continues : start.Continues libraries pkg calls entry) (accounts : start.Accounts libraries)
    (whole : ∀ data ∈ calls, data = payloadOf pkg) : entry.Accounts libraries := by
  have same : calls = (calls.map fun _ => pkg).map payloadOf := by
    rw [List.map_map]
    exact (List.map_id' calls).symm.trans (List.map_congr_left whole)
  have key : entry.conn.ruleKey = start.conn.ruleKey := by
    rw [continues.conn, connectionAfter_ruleKey]
  rw [Accounts, key, continues.given, List.map_append, ← same, connectionAfter_append, ← accounts]
  exact continues.conn

/-- In every run, the connection behind an entry was given the payloads of the packets that
the entry lists, and nothing else. -/
theorem accounts_of_run (env : Environment) (events : List DaemonEvent) {id : ConnectionId}
    {entry : MicrosegEntry}
    (found : (Runs.run (DaemonContext.step env) DaemonContext.new events).connMgr.micro.lookup id =
      some entry) : entry.Accounts env.libraries := by
  refine Runs.run_invariant (DaemonContext.step env) (fun _ _ => True)
    (fun daemon => ∀ id entry, daemon.connMgr.micro.lookup id = some entry →
      entry.Accounts env.libraries) ?_ ?_ (Runs.meets_of_forall (fun _ _ => trivial) _) id entry
      found
  · intro daemon event accounts _ id entry found
    cases event with
    | packet queue msg now =>
        have gave := nfqCb_gave env queue.side daemon.microseg msg now daemon.connMgr
        rw [← Queue.callback_eq] at gave
        obtain ⟨start, old | ⟨ruleKey, time, rfl⟩, continues⟩ := gave id entry found
        · exact continues.accounts (accounts id start old) fun data given =>
            logged_handle env daemon queue msg now given
        · exact continues.accounts rfl fun data given =>
            logged_handle env daemon queue msg now given
    | reap now =>
        obtain ⟨kept, -⟩ := Table.lookup_retain_eq_some.mp found
        exact accounts id entry (Table.lookup_retain_eq_some.mp kept).1
    | control op => exact accounts id entry found
  · intro id entry found
    cases found

end NetPolicy.Daemon
