/-
What one callback issues.

A queue holds the messages it has received until a verdict is given for them; a second
verdict for one id, or a verdict for another id, fails.  Each callback gives one verdict
on every path and dispatches at most once: to tear a closed flow down, or at its end.
The verdict on a SYN that no entry waits for comes from the policy store alone, whatever
the flow table makes of the packet.
-/

import NetPolicy.Daemon.HttpClauses

namespace NetPolicy.Daemon

open NetPolicy.Policy NetPolicy.Flow NetPolicy.Http

/-! ### The queue's pending messages -/

/-- `pending` holds the messages that wait for a verdict, `answered` what was handed back
to the kernel. -/
structure NfqQueue where
  pending : Table Nat NfqMessage
  answered : List (NfqMessage × NfqVerdict)

/-- The message as it goes back: without a mark or without bytes it keeps its own. -/
def VerdictCall.answer (call : VerdictCall) (msg : NfqMessage) : NfqMessage × NfqVerdict :=
  let bytes := call.payload.getD []
  ({ msg with
      nfmark := call.mark.getD msg.nfmark
      payload := if bytes = [] then msg.payload else bytes }, call.verdict)

def NfqQueue.verdictImpl (queue : NfqQueue) (call : VerdictCall) : Except String NfqQueue :=
  match queue.pending.lookup call.id with
  | none => .error ("no pending nfq message with id " ++ toString call.id)
  | some msg =>
      .ok
        { pending := queue.pending.erase call.id
          answered := queue.answered ++ [call.answer msg] }

def NfqQueue.issue (queue : NfqQueue) (calls : List VerdictCall) : Except String NfqQueue :=
  calls.foldlM NfqQueue.verdictImpl queue

theorem NfqQueue.issue_single (queue : NfqQueue) {call : VerdictCall} {msg : NfqMessage}
    (waiting : queue.pending.lookup call.id = some msg) :
    queue.issue [call] =
      .ok
        { pending := queue.pending.erase call.id
          answered := queue.answered ++ [call.answer msg] } := by
  change (queue.verdictImpl call >>= fun next => pure next) = _
  rw [bind_pure, NfqQueue.verdictImpl, waiting]

/-! ### One verdict and one dispatch -/

/-- From one point of a callback to its end: one verdict for the message and the listed
dispatches, each of which gives the connection payload at most once. -/
structure Finishes (msg : NfqMessage) (calls : List PacketKind) (before after : Handling) :
    Prop where
  answered : ∃ call, after.verdicts = before.verdicts ++ [call] ∧ call.id = msg.id
  dispatched : after.dispatches = before.dispatches ++ calls
  given : after.inspected.length ≤ before.inspected.length + calls.length

section Finishes

variable (env : Environment) (side : Side) (store : MicroSegEngine) (msg : NfqMessage)
  (tuple : FiveTuple) (decision : PacketDecision) (now : Nat) (handling : Handling)

theorem finishes_verdict (verdict : NfqVerdict) :
    Finishes msg [] handling (handling.verdict msg.id verdict) :=
  ⟨⟨_, rfl, rfl⟩, (List.append_nil _).symm, Nat.le_refl _⟩

theorem finishes_verdictWithMark (verdict : NfqVerdict) (rule : NetPolicyRule)
    (payload : Option (List UInt8)) :
    Finishes msg [] handling (handling.verdictWithMark msg.id verdict rule payload) :=
  ⟨⟨_, rfl, rfl⟩, (List.append_nil _).symm, Nat.le_refl _⟩

theorem Finishes.of_post {msg : NfqMessage} {calls : List PacketKind} {before after : Handling}
    {tuple : FiveTuple} {action : NetPolicyRule} {dir : FlowDir} {ruleKey : String}
    (finishes : Finishes msg calls (before.sendMatchMsg tuple action dir ruleKey) after) :
    Finishes msg calls before after :=
  ⟨finishes.answered, finishes.dispatched, finishes.given⟩

theorem Finishes.of_withManager {msg : NfqMessage} {calls : List PacketKind}
    {before after : Handling} {manager : ConnectionManager}
    (finishes : Finishes msg calls (before.withManager manager) after) :
    Finishes msg calls before after :=
  ⟨finishes.answered, finishes.dispatched, finishes.given⟩

theorem Finishes.of_dispatch {msg : NfqMessage} {libraries : Libraries}
    {decision : PacketDecision} {pkg : List UInt8} {ruleKey : String} {now : Nat}
    {calls : List PacketKind} {before after : Handling}
    (finishes : Finishes msg calls (before.dispatch libraries decision pkg ruleKey now).1 after) :
    Finishes msg (decision.kind :: calls) before after := by
  refine ⟨finishes.answered, ?_, ?_⟩
  · rw [finishes.dispatched, Handling.dispatch]
    exact List.append_assoc _ [decision.kind] calls
  · have given := finishes.given
    dsimp only [Handling.dispatch] at given
    have once : ∀ item : Option (ConnectionId × List UInt8), item.toList.length ≤ 1 := by
      intro item
      cases item with
      | none => exact Nat.zero_le 1
      | some pair => exact Nat.le_refl 1
    have atMost := once
      (before.manager.dispatchMicroseg libraries decision pkg ruleKey now).inspected
    rw [List.length_append] at given
    rw [List.length_cons]
    omega

theorem statelessCb_finishes :
    Finishes msg [] handling (statelessCb env side store msg tuple handling) := by
  unfold statelessCb
  dsimp only
  split
  · exact finishes_verdictWithMark msg handling _ _ _
  · split
    · exact .of_post (finishes_verdict msg _ _)
    · exact .of_post (finishes_verdictWithMark msg _ _ _ _)

theorem inspectCb_finishes (ruleKey : String) :
    Finishes msg [decision.kind] handling
      (inspectCb env side store msg tuple ruleKey decision now handling) := by
  unfold inspectCb
  dsimp only
  split
  · exact .of_dispatch (finishes_verdictWithMark msg _ _ _ _)
  · split
    · exact .of_dispatch (finishes_verdictWithMark msg _ _ _ _)
    · split
      · exact .of_dispatch (finishes_verdictWithMark msg _ _ _ _)
      · exact .of_dispatch (.of_post (finishes_verdictWithMark msg _ _ _ _))

def Shared (decision : PacketDecision) (payload : Bool) (calls : List PacketKind) : Prop :=
  calls = [] ∨ calls = [decision.kind] ∧ payload = true ∧ decision.syn = false

theorem trackedCb_finishes (payload : Bool) :
    ∃ calls, Shared decision payload calls ∧
      Finishes msg calls handling
        (trackedCb env side store msg tuple decision payload now handling) := by
  have quiet (after : Handling) (finishes : Finishes msg [] handling after) :
      ∃ calls, Shared decision payload calls ∧ Finishes msg calls handling after :=
    ⟨[], Or.inl rfl, finishes⟩
  unfold trackedCb
  split
  · exact quiet _ (finishes_verdictWithMark msg handling _ _ _)
  · split
    · exact quiet _ (finishes_verdictWithMark msg handling _ _ _)
    · rename_i carries
      split
      · exact quiet _ (finishes_verdictWithMark msg handling _ _ _)
      · rename_i noSyn
        split
        · exact quiet _ (finishes_verdict msg handling _)
        · rw [Bool.not_eq_true, Bool.not_eq_false'] at carries
          rw [Bool.not_eq_true] at noSyn
          exact ⟨[decision.kind], Or.inr ⟨rfl, carries, noSyn⟩,
            inspectCb_finishes env side store msg tuple decision now handling _⟩

theorem untrackedCb_finishes (payload : Bool) :
    ∃ calls, Shared decision payload calls ∧
      Finishes msg calls handling
        (untrackedCb env side store msg tuple decision payload now handling) := by
  have quiet (after : Handling) (finishes : Finishes msg [] handling after) :
      ∃ calls, Shared decision payload calls ∧ Finishes msg calls handling after :=
    ⟨[], Or.inl rfl, finishes⟩
  unfold untrackedCb
  dsimp only
  split
  · exact quiet _ (finishes_verdictWithMark msg handling _ _ _)
  · rename_i looked
    split
    · exact quiet _ (finishes_verdictWithMark msg handling _ _ _)
    · split
      · split
        · exact quiet _ (.of_post (finishes_verdict msg _ _))
        · exact quiet _ (.of_post (finishes_verdictWithMark msg _ _ _ _))
      · cases syn : decision.syn with
        | true => exact quiet _ (.of_withManager (finishes_verdictWithMark msg _ _ _ _))
        | false =>
            rw [syn, Bool.not_false, Bool.true_and, Bool.not_eq_true, Bool.not_eq_false'] at looked
            exact ⟨[decision.kind], Or.inr ⟨rfl, looked, syn⟩,
              .of_withManager (inspectCb_finishes env side store msg _ decision now _ _)⟩

def closeCalls (decision : PacketDecision) : List PacketKind :=
  if decision.kind = .closed then [.closed] else []

theorem settle_dispatches :
    (settle env msg decision now handling).dispatches =
      handling.dispatches ++ closeCalls decision := by
  unfold settle Handling.microsegClose closeCalls
  split
  · rename_i closed
    rw [← closed]
    rfl
  · exact (List.append_nil _).symm

theorem Finishes.of_settle {env : Environment} {msg : NfqMessage} {decision : PacketDecision}
    {now : Nat} {handling after : Handling} {calls : List PacketKind}
    (finishes : Finishes msg calls (settle env msg decision now handling) after) :
    Finishes msg (closeCalls decision ++ calls) handling after := by
  refine ⟨?_, ?_, ?_⟩
  · have answered := finishes.answered
    rw [settle_verdicts] at answered
    exact answered
  · rw [finishes.dispatched, settle_dispatches, List.append_assoc]
  · have given := finishes.given
    rw [settle_inspected] at given
    rw [List.length_append]
    omega

theorem tcpCb_finishes :
    ∃ calls, Shared decision (hasPayload msg decision) calls ∧
      Finishes msg (closeCalls decision ++ calls) handling
        (tcpCb env side store msg tuple decision now handling) := by
  by_cases ignored : decision.kind = .ignore
  · have noClose : closeCalls decision = [] := by
      unfold closeCalls
      rw [ignored, if_neg (by intro closed; cases closed)]
    rw [tcpCb_ignored env side store msg tuple decision now handling ignored, noClose]
    exact ⟨[], Or.inl rfl, finishes_verdictWithMark msg handling _ _ _⟩
  · cases tracked : handling.manager.microsegTracked decision with
    | true =>
        rw [tcpCb_tracked env side store msg tuple decision now handling ignored tracked]
        obtain ⟨calls, shared, finishes⟩ := trackedCb_finishes env side store msg tuple decision now
          (settle env msg decision now handling) (hasPayload msg decision)
        exact ⟨calls, shared, finishes.of_settle⟩
    | false =>
        rw [tcpCb_untracked env side store msg tuple decision now handling ignored tracked]
        obtain ⟨calls, shared, finishes⟩ := untrackedCb_finishes env side store msg tuple decision
          now (settle env msg decision now handling) (hasPayload msg decision)
        exact ⟨calls, shared, finishes.of_settle⟩

theorem Shared.carries {decision : PacketDecision} {calls : List PacketKind}
    (shared : Shared decision (hasPayload msg decision) calls) :
    calls = [] ∨ calls = [decision.kind] ∧
      decision.kind ≠ .newConnection ∧ decision.kind ≠ .closed := by
  rcases shared with none | ⟨one, payload, _⟩
  · exact Or.inl none
  · refine Or.inr ⟨one, ?_, notClosed_of_hasPayload msg decision payload⟩
    intro opens
    unfold hasPayload at payload
    rw [opens] at payload
    cases payload

theorem nfqCb_finishes (manager : ConnectionManager) :
    ∃ calls, calls.length ≤ 1 ∧
      Finishes msg calls (Handling.start manager) (nfqCb env side store msg manager now) := by
  have quiet (after : Handling) (finishes : Finishes msg [] (Handling.start manager) after) :
      ∃ calls, calls.length ≤ 1 ∧ Finishes msg calls (Handling.start manager) after :=
    ⟨[], Nat.zero_le 1, finishes⟩
  unfold nfqCb
  dsimp only
  split
  · exact quiet _ (finishes_verdict msg _ _)
  split
  · exact quiet _ (finishes_verdict msg _ _)
  split
  · exact quiet _ (.of_withManager (finishes_verdict msg _ _))
  split
  · exact quiet _ (.of_withManager (statelessCb_finishes env side store msg _ _))
  split
  · exact quiet _ (.of_withManager (finishes_verdict msg _ _))
  obtain ⟨calls, shared, finishes⟩ := tcpCb_finishes env side store msg
    (FiveTuple.ofResult (manager.receive msg.payload true now).2.tuple)
    (manager.receive msg.payload true now).2.decision now
    ((Handling.start manager).withManager (manager.receive msg.payload true now).1)
  refine ⟨_, ?_, .of_withManager finishes⟩
  unfold closeCalls
  rcases shared.carries with none | ⟨one, _, opened⟩
  · rw [none]
    split <;> decide
  · rw [one, if_neg opened]
    exact Nat.le_refl 1

end Finishes

theorem nfqCb_dispatches (env : Environment) {daemon : DaemonContext} {queue : Queue}
    {msg : NfqMessage} {now : Nat} {decision : PacketDecision}
    (decided : daemon.decision queue msg now = some decision) (heeded : decision.kind ≠ .ignore) :
    ∃ calls, Shared decision (hasPayload msg decision) calls ∧
      (nfqCb env queue.side daemon.microseg msg daemon.connMgr now).dispatches =
        closeCalls decision ++ calls := by
  obtain ⟨segment, seen, parsed, decided⟩ := decision_eq_some msg now decided heeded
  rw [nfqCb_segment env queue.side daemon.microseg msg daemon.connMgr now seen parsed, decided]
  obtain ⟨calls, shared, finishes⟩ := tcpCb_finishes env queue.side daemon.microseg msg
    msg.tuple (daemon.connMgr.engine.onSegment segment now).2 now
    (Handling.start
      { daemon.connMgr with engine := (daemon.connMgr.engine.onSegment segment now).1 })
  exact ⟨calls, shared, finishes.dispatched⟩

/-- Every call of a callback issues one verdict, for the message's id, so a message that
waits for its verdict gets it and no other message does.  It dispatches at most once and
gives payload to a connection at most once; a packet that opens a flow is not dispatched,
and one that closes a flow only by the tear-down. -/
theorem one_verdict_one_dispatch (env : Environment) (daemon : DaemonContext) (queue : Queue)
    (msg : NfqMessage) (now : Nat) :
    let handling := daemon.handle env queue msg now
    (∃ call, handling.verdicts = [call] ∧ call.id = msg.id ∧
      ∀ (pending : NfqQueue) (waiting : NfqMessage),
        pending.pending.lookup msg.id = some waiting →
          pending.issue handling.verdicts =
            .ok
              { pending := pending.pending.erase msg.id
                answered := pending.answered ++ [call.answer waiting] }) ∧
      handling.dispatches.length ≤ 1 ∧ handling.inspected.length ≤ 1 ∧
        ∀ decision, daemon.decision queue msg now = some decision →
          (decision.kind = .newConnection → handling.dispatches = []) ∧
            (decision.kind = .closed →
              handling.dispatches = [.closed] ∧
                handling.dispatches =
                  (settle env msg decision now
                    (Handling.start
                      (daemon.connMgr.receive msg.payload true now).1)).dispatches) := by
  dsimp only
  rw [DaemonContext.handle, Queue.callback_eq]
  obtain ⟨calls, few, finishes⟩ :=
    nfqCb_finishes env queue.side daemon.microseg msg now daemon.connMgr
  refine ⟨?_, ?_, ?_, ?_⟩
  · obtain ⟨call, issued, named⟩ := finishes.answered
    refine ⟨call, issued, named, ?_⟩
    intro pending waiting found
    rw [issued, ← named]
    rw [← named] at found
    exact pending.issue_single found
  · rw [finishes.dispatched]
    exact few
  · exact finishes.given.trans (by rw [Handling.start]; exact (Nat.zero_add _).le.trans few)
  · intro decision decided
    constructor
    · intro opens
      obtain ⟨calls, shared, made⟩ := nfqCb_dispatches env decided
        (by rw [opens]; intro ignored; cases ignored)
      rcases shared.carries with none | ⟨_, fresh, _⟩
      · rw [made, none, closeCalls, opens, if_neg (by intro closed; cases closed)]
        rfl
      · exact absurd opens fresh
    · intro closes
      obtain ⟨calls, shared, made⟩ := nfqCb_dispatches env decided
        (by rw [closes]; intro ignored; cases ignored)
      rcases shared.carries with none | ⟨_, _, opened⟩
      · rw [settle_dispatches, made, none, closeCalls, if_pos closes]
        exact ⟨rfl, rfl⟩
      · exact absurd closes opened

def webFin : NfqMessage := plainMessage webFlow 101 finFlag []

def webFinWaiting : NfqQueue :=
  { pending := Table.empty.insert webFin.id webFin, answered := [] }

theorem webFin_answered_once :
    (webOpened.decision .input webFin 1).map PacketDecision.kind = some .closed ∧
      (webOpened.handle plainEnvironment .input webFin 1).dispatches = [.closed] ∧
        (webFinWaiting.issue
          (webOpened.handle plainEnvironment .input webFin 1).verdicts).toOption.isSome = true := by
  have once := one_verdict_one_dispatch plainEnvironment webOpened .input webFin 1
  have closed : (webOpened.decision .input webFin 1).map PacketDecision.kind = some .closed := by
    decide +kernel
  obtain ⟨decision, decided, kind⟩ := Option.map_eq_some_iff.mp closed
  obtain ⟨call, _, _, issued⟩ := once.1
  refine ⟨closed, ((once.2.2.2 decision decided).2 kind).1, ?_⟩
  rw [issued webFinWaiting webFin (Table.lookup_insert_same _ _ _)]
  rfl

/-! ### SYNs of flows without an entry -/

section Syn

variable (env : Environment) (side : Side) (store : MicroSegEngine) (msg : NfqMessage)

def synVerdict : VerdictCall :=
  let answer := matchMicroPolicyRule env.order store msg.tuple side.dir
  let accept (rule : NetPolicyRule) : VerdictCall :=
    { id := msg.id, verdict := .accept, mark := some rule.value, payload := none }
  if answer.rule = .default then accept .allow
  else if store.clauses side.dir answer.ruleKey = [] then
    if answer.rule = .deny then { id := msg.id, verdict := .drop, mark := none, payload := none }
    else accept .allow
  else accept side.pass

theorem synVerdict_drops_iff :
    (synVerdict env side store msg).verdict = .drop ↔
      (matchMicroPolicyRule env.order store msg.tuple side.dir).rule = .deny ∧
        store.clauses side.dir
          (matchMicroPolicyRule env.order store msg.tuple side.dir).ruleKey = [] := by
  unfold synVerdict
  dsimp only
  by_cases default : (matchMicroPolicyRule env.order store msg.tuple side.dir).rule = .default
  · rw [if_pos default, default]
    constructor
    · intro drops
      cases drops
    · intro both
      cases both.1
  · rw [if_neg default]
    by_cases bare : store.clauses side.dir
        (matchMicroPolicyRule env.order store msg.tuple side.dir).ruleKey = []
    · rw [if_pos bare]
      by_cases deny : (matchMicroPolicyRule env.order store msg.tuple side.dir).rule = .deny
      · rw [if_pos deny]
        exact ⟨fun _ => ⟨deny, bare⟩, fun _ => rfl⟩
      · rw [if_neg deny]
        constructor
        · intro drops
          cases drops
        · intro both
          exact absurd both.1 deny
    · rw [if_neg bare]
      constructor
      · intro drops
        cases drops
      · intro both
        exact absurd both.2 bare

theorem untrackedCb_syn {decision : PacketDecision} (syn : decision.syn = true) (payload : Bool)
    (now : Nat) {handling : Handling} (unanswered : handling.verdicts = []) :
    (untrackedCb env side store msg msg.tuple decision payload now handling).verdicts =
      [synVerdict env side store msg] := by
  unfold untrackedCb synVerdict MicroSegEngine.clauses
  rw [syn, if_neg (by rw [Bool.not_true, Bool.false_and]; exact Bool.false_ne_true)]
  dsimp only
  split
  · exact Handling.verdictWithMark_first unanswered _ _ _ _
  · split
    · split
      · dsimp only [Handling.verdict, Handling.sendMatchMsg]
        rw [unanswered]
        rfl
      · exact Handling.verdictWithMark_first unanswered _ _ _ _
    · rw [if_pos rfl]
      exact Handling.verdictWithMark_first unanswered _ _ _ _

/-- Whatever the flow table makes of a SYN, its decision is heeded and keeps the flag. -/
theorem onSegment_syn (engine : FlowEngine) {segment : Segment} (now : Nat)
    (syn : segment.syn = true) (noRst : segment.rst = false) :
    (engine.onSegment segment now).2.kind ≠ .ignore ∧
      (engine.onSegment segment now).2.syn = true := by
  have decides := onSegment_decides engine segment now
  generalize engine.onSegment segment now = next at decides
  cases decides with
  | ignored unknown rst =>
      rw [noRst] at rst
      cases rst
  | _ => exact ⟨(by intro ignored; cases ignored), syn⟩

theorem nfqCb_syn {segment : Segment} (parsed : parseSegment msg.payload = some segment)
    (seen : side.bypasses msg.nfmark = false) (syn : segment.syn = true)
    (noRst : segment.rst = false) {manager : ConnectionManager}
    (untracked : manager.micro.contains segment.id = false) (now : Nat) :
    (nfqCb env side store msg manager now).verdicts = [synVerdict env side store msg] := by
  obtain ⟨heeded, flagged⟩ := onSegment_syn manager.engine now syn noRst
  obtain ⟨own, _⟩ := onSegment_ids manager.engine segment now heeded
  rw [nfqCb_segment env side store msg manager now seen parsed,
    tcpCb_start_untracked env side store msg _ _ now manager _ heeded
      (by rw [own]; exact untracked)]
  exact untrackedCb_syn env side store msg flagged _ now (settle_verdicts env msg _ now _)

end Syn

/-- In any two states of the connection manager that have no entry for it, at any times,
an unmarked SYN without RST gets the same verdict and mark.  It is dropped exactly when
the selected rule denies and no HTTP rules are stored under its key. -/
theorem syn_verdict_from_store (env : Environment) (queue : Queue) (store : MicroSegEngine)
    (msg : NfqMessage) (segment : Segment) (parsed : parseSegment msg.payload = some segment)
    (seen : queue.side.bypasses msg.nfmark = false) (syn : segment.syn = true)
    (noRst : segment.rst = false) (left right : ConnectionManager) (now later : Nat)
    (leftUntracked : left.micro.contains segment.id = false)
    (rightUntracked : right.micro.contains segment.id = false) :
    (queue.callback env store msg left now).verdicts =
        (queue.callback env store msg right later).verdicts ∧
      ((queue.callback env store msg left now).Drops ↔
        (matchMicroPolicyRule env.order store msg.tuple queue.side.dir).rule = .deny ∧
          ((store.httpPolicy queue.side.dir).lookup
            (matchMicroPolicyRule env.order store msg.tuple queue.side.dir).ruleKey).getD [] =
              []) := by
  rw [Queue.callback_eq, Queue.callback_eq, Handling.Drops,
    nfqCb_syn env queue.side store msg parsed seen syn noRst leftUntracked now,
    nfqCb_syn env queue.side store msg parsed seen syn noRst rightUntracked later]
  refine ⟨rfl, ?_⟩
  refine Iff.trans ?_ (synVerdict_drops_iff env queue.side store msg)
  constructor
  · rintro ⟨call, issued, drops⟩
    rw [List.mem_singleton.mp issued] at drops
    exact drops
  · intro drops
    exact ⟨_, List.mem_singleton_self _, drops⟩

theorem deniedSyn_dropped_again :
    let store := MicroSegEngine.new.apply (.addPolicyRule "mixed" [sshRule])
    let opened : ConnectionManager :=
      (inputNfqCb plainEnvironment store sshSyn ConnectionManager.new 0).manager
    (opened.engine.onPacket sshSyn.payload 1).2.kind = .duplicate ∧
      (inputNfqCb plainEnvironment store sshSyn ConnectionManager.new 0).Drops ∧
        (inputNfqCb plainEnvironment store sshSyn opened 1).verdicts =
          (inputNfqCb plainEnvironment store sshSyn ConnectionManager.new 0).verdicts := by
  dsimp only
  have same := syn_verdict_from_store plainEnvironment .input
    (MicroSegEngine.new.apply (.addPolicyRule "mixed" [sshRule])) sshSyn
    { webSegment 100 true false false 0 with id := sshFlow } (by decide +kernel)
    (by decide +kernel) rfl rfl ConnectionManager.new
    (inputNfqCb plainEnvironment (MicroSegEngine.new.apply (.addPolicyRule "mixed" [sshRule]))
      sshSyn ConnectionManager.new 0).manager 0 1 (by decide +kernel) (by decide +kernel)
  refine ⟨by decide +kernel, same.2.mpr (by decide +kernel), same.1.symm⟩

end NetPolicy.Daemon
