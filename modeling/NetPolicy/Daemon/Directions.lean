/-
The HTTP rules a callback consults, and the rules whose keys it consults them under.

A callback consults one map, that of its own direction.  The key is the policy of the
rule that `MatchMicroPolicyRule` answered with, either in this callback or in the one
that made the flow's entry.  The rule that fired need not be of the map's direction: a
reverse match takes the place of the forward one together with its key, and entries are
shared by the two callbacks.  Which of these happens can be told from the rules that the
store held before the packet, and before the one that made the entry.
-/

import NetPolicy.Daemon.Requests

namespace NetPolicy.Daemon

open NetPolicy.Policy NetPolicy.Flow NetPolicy.Http

/-! ### The rule that fired -/

/-- The rule behind an answer of `MatchMicroPolicyRule`: the direction that was asked
for, and whether the reverse match took the place of the forward one. -/
structure Fired where
  asked : FlowDir
  overridden : Bool
  rule : RuleDetail
deriving DecidableEq, Repr

def firedRule (order : IterationOrder RuleDetail) (store : MicroSegEngine) (tuple : FiveTuple)
    (dir : FlowDir) : Option Fired :=
  match matchNetPolicyRule order store tuple dir with
  | none => none
  | some detail =>
      let forward : Fired := { asked := dir, overridden := false, rule := detail }
      if NetPolicyRule.ofValue detail.action = .allow then some forward
      else
        match matchNetPolicyRule order store tuple.reverseTuple (opposite dir) with
        | none => some forward
        | some revDetail =>
            if detail.priority ≤ revDetail.priority then some forward
            else some { asked := dir, overridden := true, rule := revDetail }

namespace Fired

def answer (fired : Fired) (tuple : FiveTuple) : MicroMatch :=
  { rule := NetPolicyRule.ofValue fired.rule.action
    tuple := if fired.overridden then tuple.reverseTuple else tuple
    dir := if fired.overridden then opposite fired.asked else fired.asked
    ruleKey := fired.rule.policyKey }

/-- The rule is of the direction it was found in. -/
def Placed (fired : Fired) : Prop :=
  fired.rule.direction = if fired.overridden then opposite fired.asked else fired.asked

end Fired

section Firing

variable (order : IterationOrder RuleDetail) (store : MicroSegEngine) (tuple : FiveTuple)
  (dir : FlowDir)

theorem matchMicroPolicyRule_eq :
    matchMicroPolicyRule order store tuple dir =
      match firedRule order store tuple dir with
      | none => { rule := .default, tuple := tuple, dir := dir, ruleKey := "" }
      | some fired => fired.answer tuple := by
  unfold matchMicroPolicyRule firedRule
  cases matchNetPolicyRule order store tuple dir with
  | none => rfl
  | some detail =>
      dsimp only
      split
      · rfl
      · cases matchNetPolicyRule order store tuple.reverseTuple (opposite dir) with
        | none => rfl
        | some revDetail =>
            dsimp only
            split
            · rfl
            · rfl

theorem firedRule_of_matched
    (matched : (matchMicroPolicyRule order store tuple dir).rule ≠ .default) :
    ∃ fired, firedRule order store tuple dir = some fired ∧
      fired.rule.policyKey = (matchMicroPolicyRule order store tuple dir).ruleKey := by
  rw [matchMicroPolicyRule_eq] at matched ⊢
  cases found : firedRule order store tuple dir with
  | none =>
      rw [found] at matched
      exact absurd rfl matched
  | some fired => exact ⟨fired, rfl, rfl⟩

theorem matchNetPolicyRule_direction {order : IterationOrder RuleDetail} {store : MicroSegEngine}
    {tuple : FiveTuple} {dir : FlowDir} {live : List Addition} {detail : RuleDetail}
    (represented : Represented store live)
    (found : matchNetPolicyRule order store tuple dir = some detail) : detail.direction = dir := by
  unfold matchNetPolicyRule at found
  split at found
  · cases found
  · obtain ⟨first, member, -, -, copied, -⟩ := matchFiveTuple_eq_some represented.engine found
    rw [copied]
    exact (mem_inDirection.mp member).2

theorem firedRule_placed {order : IterationOrder RuleDetail} {store : MicroSegEngine}
    {tuple : FiveTuple} {dir : FlowDir} {live : List Addition} {fired : Fired}
    (represented : Represented store live)
    (found : firedRule order store tuple dir = some fired) :
    fired.asked = dir ∧ fired.Placed := by
  unfold firedRule at found
  cases forward : matchNetPolicyRule order store tuple dir with
  | none =>
      rw [forward] at found
      cases found
  | some detail =>
      have forwardDir := matchNetPolicyRule_direction represented forward
      rw [forward] at found
      dsimp only at found
      split at found
      · cases found
        exact ⟨rfl, forwardDir⟩
      · cases reverse : matchNetPolicyRule order store tuple.reverseTuple (opposite dir) with
        | none =>
            rw [reverse] at found
            cases found
            exact ⟨rfl, forwardDir⟩
        | some revDetail =>
            rw [reverse] at found
            dsimp only at found
            split at found
            · cases found
              exact ⟨rfl, forwardDir⟩
            · cases found
              exact ⟨rfl, matchNetPolicyRule_direction represented reverse⟩

end Firing

/-! ### Consultations -/

/-- One lookup of HTTP rules: the map, the key, and the rule the key was taken from. -/
structure Consultation where
  map : FlowDir
  key : String
  fired : Option Fired
deriving DecidableEq, Repr

namespace Consultation

/-- The rule that fired is of the direction of the map. -/
def SameDirection (consultation : Consultation) : Prop :=
  ∀ fired ∈ consultation.fired, fired.rule.direction = consultation.map

instance (consultation : Consultation) : Decidable consultation.SameDirection :=
  inferInstanceAs (Decidable (∀ fired ∈ consultation.fired, _))

end Consultation

section Consults

variable (env : Environment) (side : Side) (store : MicroSegEngine) (msg : NfqMessage)

def inspectConsults (ruleKey : String) (fired : Option Fired) (decision : PacketDecision)
    (now : Nat) (handling : Handling) : List Consultation :=
  if (handling.dispatch env.libraries decision msg.payload ruleKey now).2.isSome then
    [{ map := side.dir, key := ruleKey, fired := fired }]
  else []

def trackedConsults (origins : ConnectionId → Option Fired) (decision : PacketDecision)
    (hasPayload : Bool) (now : Nat) (handling : Handling) : List Consultation :=
  if decision.kind = .closed then []
  else if !hasPayload then []
  else if decision.syn then []
  else if decision.kind = .duplicate then []
  else
    let ruleKey := (handling.manager.microsegRuleKey decision).getD ""
    inspectConsults env side msg ruleKey (origins decision.connId) decision now handling

/-- `untrackedCb` looks rules up to see whether there are any, and again for a completed
request. -/
def untrackedConsults (tuple : FiveTuple) (decision : PacketDecision) (hasPayload : Bool)
    (now : Nat) (handling : Handling) : List Consultation :=
  if !decision.syn && !hasPayload then []
  else
    let answer := matchMicroPolicyRule env.order store tuple side.dir
    let fired := firedRule env.order store tuple side.dir
    let first : Consultation := { map := side.dir, key := answer.ruleKey, fired := fired }
    if answer.rule = .default then []
    else if ((store.httpPolicy side.dir).lookup answer.ruleKey).getD [] = [] then [first]
    else
      let handling :=
        handling.withManager (handling.manager.microsegTrack decision answer.ruleKey now)
      if decision.syn then [first]
      else first :: inspectConsults env side msg answer.ruleKey fired decision now handling

def tcpConsults (origins : ConnectionId → Option Fired) (tuple : FiveTuple)
    (decision : PacketDecision) (now : Nat) (handling : Handling) : List Consultation :=
  let settled := settle env msg decision now handling
  if decision.kind = .ignore then []
  else if handling.manager.microsegTracked decision then
    trackedConsults env side msg origins decision (hasPayload msg decision) now settled
  else untrackedConsults env side store msg tuple decision (hasPayload msg decision) now settled

/-! ### Nothing else of the HTTP rules is read -/

/-- The stores hold the same rules under the keys of the consultations. -/
def AgreeOn (left right : MicroSegEngine) (consultations : List Consultation) : Prop :=
  ∀ consultation ∈ consultations,
    (left.httpPolicy consultation.map).lookup consultation.key =
      (right.httpPolicy consultation.map).lookup consultation.key

variable {left right : MicroSegEngine}

theorem inspectCb_congr (tuple : FiveTuple) (ruleKey : String) (fired : Option Fired)
    (decision : PacketDecision) (now : Nat) (handling : Handling)
    (agree : AgreeOn left right
      (inspectConsults env side msg ruleKey fired decision now handling)) :
    inspectCb env side left msg tuple ruleKey decision now handling =
      inspectCb env side right msg tuple ruleKey decision now handling := by
  unfold inspectCb
  unfold inspectConsults at agree
  generalize handling.dispatch env.libraries decision msg.payload ruleKey now = call at agree ⊢
  obtain ⟨after, header⟩ := call
  cases header with
  | none => rfl
  | some header =>
      have same := agree _ (List.mem_singleton_self _)
      dsimp only at same ⊢
      rw [same]

theorem trackedCb_congr (origins : ConnectionId → Option Fired) (tuple : FiveTuple)
    (decision : PacketDecision) (payload : Bool) (now : Nat) (handling : Handling)
    (agree : AgreeOn left right
      (trackedConsults env side msg origins decision payload now handling)) :
    trackedCb env side left msg tuple decision payload now handling =
      trackedCb env side right msg tuple decision payload now handling := by
  unfold trackedCb
  unfold trackedConsults at agree
  split
  · rfl
  · rename_i opened
    rw [if_neg opened] at agree
    split
    · rfl
    · rename_i carries
      rw [if_neg carries] at agree
      split
      · rfl
      · rename_i noSyn
        rw [if_neg noSyn] at agree
        split
        · rfl
        · rename_i fresh
          rw [if_neg fresh] at agree
          exact inspectCb_congr env side msg tuple _ _ decision now handling agree

theorem untrackedCb_congr (rules : left.policyRule = right.policyRule)
    (nodes : left.nodesIp = right.nodesIp) (tuple : FiveTuple) (decision : PacketDecision)
    (payload : Bool) (now : Nat) (handling : Handling)
    (agree : AgreeOn left right
      (untrackedConsults env side left msg tuple decision payload now handling)) :
    untrackedCb env side left msg tuple decision payload now handling =
      untrackedCb env side right msg tuple decision payload now handling := by
  unfold untrackedCb
  unfold untrackedConsults at agree
  rw [← matchMicroPolicyRule_congr rules nodes]
  generalize matchMicroPolicyRule env.order left tuple side.dir = answer at agree ⊢
  split
  · rfl
  · rename_i reaches
    rw [if_neg reaches] at agree
    dsimp only at agree ⊢
    split
    · rfl
    · rename_i matched
      rw [if_neg matched] at agree
      have first : (left.httpPolicy side.dir).lookup answer.ruleKey =
          (right.httpPolicy side.dir).lookup answer.ruleKey := by
        apply agree
          { map := side.dir
            key := answer.ruleKey
            fired := firedRule env.order left tuple side.dir }
        split
        · exact List.mem_singleton_self _
        · split
          · exact List.mem_singleton_self _
          · exact List.mem_cons_self
      rw [← first]
      split
      · rfl
      · rename_i stored
        rw [if_neg stored] at agree
        split
        · rfl
        · rename_i noSyn
          rw [if_neg noSyn] at agree
          apply inspectCb_congr env side msg answer.tuple answer.ruleKey _ decision now
          intro consultation member
          exact agree consultation (List.mem_cons_of_mem _ member)

theorem tcpCb_congr (rules : left.policyRule = right.policyRule)
    (nodes : left.nodesIp = right.nodesIp) (origins : ConnectionId → Option Fired)
    (tuple : FiveTuple) (decision : PacketDecision) (now : Nat) (handling : Handling)
    (agree : AgreeOn left right
      (tcpConsults env side left msg origins tuple decision now handling)) :
    tcpCb env side left msg tuple decision now handling =
      tcpCb env side right msg tuple decision now handling := by
  unfold tcpConsults at agree
  by_cases ignored : decision.kind = .ignore
  · rw [tcpCb_ignored env side left msg tuple decision now handling ignored,
      tcpCb_ignored env side right msg tuple decision now handling ignored]
  · rw [if_neg ignored] at agree
    cases tracked : handling.manager.microsegTracked decision with
    | true =>
        rw [if_pos tracked] at agree
        rw [tcpCb_tracked env side left msg tuple decision now handling ignored tracked,
          tcpCb_tracked env side right msg tuple decision now handling ignored tracked]
        exact trackedCb_congr env side msg origins tuple decision _ now _ agree
    | false =>
        rw [if_neg (by rw [tracked]; exact Bool.false_ne_true)] at agree
        rw [tcpCb_untracked env side left msg tuple decision now handling ignored tracked,
          tcpCb_untracked env side right msg tuple decision now handling ignored tracked]
        exact untrackedCb_congr env side msg rules nodes tuple decision _ now _ agree

end Consults

def DaemonContext.consults (env : Environment) (daemon : DaemonContext)
    (origins : ConnectionId → Option Fired) (queue : Queue) (msg : NfqMessage) (now : Nat) :
    List Consultation :=
  match daemon.decision queue msg now with
  | none => []
  | some decision =>
      tcpConsults env queue.side daemon.microseg msg origins msg.tuple decision now
        (Handling.start (daemon.connMgr.receive msg.payload true now).1)

/-- A callback depends on the HTTP rules only through its consultations. -/
theorem handle_congr (env : Environment) {left right : DaemonContext}
    (sameManager : left.connMgr = right.connMgr)
    (rules : left.microseg.policyRule = right.microseg.policyRule)
    (nodes : left.microseg.nodesIp = right.microseg.nodesIp)
    (origins : ConnectionId → Option Fired) (queue : Queue) (msg : NfqMessage) (now : Nat)
    (agree : AgreeOn left.microseg right.microseg (left.consults env origins queue msg now)) :
    left.handle env queue msg now = right.handle env queue msg now := by
  unfold DaemonContext.handle
  rw [Queue.callback_eq, Queue.callback_eq, ← sameManager]
  unfold DaemonContext.consults DaemonContext.decision at agree
  unfold nfqCb
  dsimp only
  split
  · rfl
  · rename_i seen
    split
    · rfl
    · rename_i long
      rw [if_neg (not_or.mpr ⟨seen, long⟩)] at agree
      split
      · rfl
      · split
        · unfold statelessCb
          rw [matchMicroPolicyRule_congr rules nodes]
        · split
          · rfl
          · have parsed : (left.connMgr.receive msg.payload true now).2.tuple =
                parseFiveTuple msg.payload := by
              unfold ConnectionManager.receive
              dsimp only
              split <;> rfl
            have tuple : FiveTuple.ofResult (left.connMgr.receive msg.payload true now).2.tuple =
                msg.tuple := congrArg FiveTuple.ofResult parsed
            have sameTcp := tcpCb_congr env queue.side msg rules nodes origins msg.tuple
              (left.connMgr.receive msg.payload true now).2.decision now
              (Handling.start (left.connMgr.receive msg.payload true now).1) agree
            rw [← tuple] at sameTcp
            exact sameTcp

/-! ### Keys stored with flows -/

namespace ConnectionManager

def storedKey (manager : ConnectionManager) (id : ConnectionId) : Option String :=
  (manager.micro.lookup id).map fun entry => entry.conn.ruleKey

variable (manager : ConnectionManager) (decision : PacketDecision) (now : Nat)

theorem storedKey_microsegTouch (id : ConnectionId) :
    (manager.microsegTouch decision now).storedKey id = manager.storedKey id := by
  unfold storedKey
  by_cases own : id = decision.connId
  · obtain ⟨clock, touched⟩ := manager.microsegTouch_own decision now
    rw [own, touched, Option.map_map]
    rfl
  · rw [manager.microsegTouch_other decision now own]

theorem storedKey_inspect (libraries : Libraries) {entry : MicrosegEntry} (pkg : List UInt8)
    (found : manager.micro.lookup decision.connId = some entry) (id : ConnectionId) :
    (manager.inspect libraries decision entry pkg now).manager.storedKey id =
      manager.storedKey id := by
  unfold storedKey inspect
  by_cases own : id = decision.connId
  · rw [own, found]
    dsimp only
    rw [Table.lookup_insert_same]
    exact congrArg some (entry.conn.onData_ruleKey libraries (pkg.drop decision.payloadOffset))
  · dsimp only
    rw [Table.lookup_insert_ne _ _ own]

theorem storedKey_dispatchMicroseg (libraries : Libraries) (pkg : List UInt8) (ruleKey : String)
    (opened : decision.kind ≠ .closed)
    (tracked : manager.micro.contains decision.connId = true) (id : ConnectionId) :
    (manager.dispatchMicroseg libraries decision pkg ruleKey now).manager.storedKey id =
      manager.storedKey id := by
  obtain ⟨entry, found⟩ := Option.isSome_iff_exists.mp tracked
  unfold dispatchMicroseg
  rw [found]
  split
  · rfl
  · unfold microsegTrack
    rw [if_pos tracked]
  · exact manager.storedKey_inspect decision now libraries pkg found id
  · rename_i closed
    exact absurd closed opened
  · exact manager.storedKey_inspect decision now libraries pkg found id
  · rfl

theorem storedKey_evictStale (timeout : Nat) {id : ConnectionId} {key : String}
    (stored : (manager.evictStale now timeout).storedKey id = some key) :
    manager.storedKey id = some key := by
  unfold storedKey at stored ⊢
  obtain ⟨entry, kept, named⟩ := Option.map_eq_some_iff.mp stored
  have swept := (Table.lookup_retain_eq_some.mp kept).1
  rw [(Table.lookup_retain_eq_some.mp swept).1]
  exact congrArg some named

end ConnectionManager

section Stored

variable (env : Environment) (side : Side) (store : MicroSegEngine) (msg : NfqMessage)
  (tuple : FiveTuple) (decision : PacketDecision) (now : Nat) (handling : Handling)

theorem settle_storedKey {id : ConnectionId} {key : String}
    (stored : (settle env msg decision now handling).manager.storedKey id = some key) :
    handling.manager.storedKey id = some key := by
  by_cases closed : decision.kind = .closed
  · unfold ConnectionManager.storedKey at stored ⊢
    by_cases ours : id = decision.connId ∨ id = decision.peerConnId
    · rw [settle_closed env msg decision now handling closed ours] at stored
      cases stored
    · rw [not_or] at ours
      rw [settle_other env msg decision now handling ours.1 ours.2] at stored
      exact stored
  · rw [settle_of_open env msg decision now handling closed,
      ConnectionManager.storedKey_microsegTouch] at stored
    exact stored

theorem settle_untracked (absent : handling.manager.micro.lookup decision.connId = none) :
    (settle env msg decision now handling).manager.micro.lookup decision.connId = none := by
  by_cases closed : decision.kind = .closed
  · exact settle_closed env msg decision now handling closed (Or.inl rfl)
  · apply Table.lookup_eq_none_of_not_contains
    rw [settle_of_open env msg decision now handling closed,
      ConnectionManager.microsegTouch_contains]
    exact Table.not_contains_of_lookup absent

theorem settle_microsegTrack_storedKey {ruleKey : String} {id : ConnectionId} {key : String}
    (absent : handling.manager.micro.lookup decision.connId = none)
    (stored : ((settle env msg decision now handling).manager.microsegTrack decision ruleKey
      now).storedKey id = some key) :
    handling.manager.storedKey id = some key ∨ id = decision.connId ∧ key = ruleKey := by
  by_cases own : id = decision.connId
  · rw [own, ConnectionManager.storedKey, ConnectionManager.microsegTrack_own _ _ _ _
      (settle_untracked env msg decision now handling absent)] at stored
    cases stored
    exact Or.inr ⟨own, rfl⟩
  · rw [ConnectionManager.storedKey, ConnectionManager.microsegTrack_other _ _ _ _ own] at stored
    exact Or.inl (settle_storedKey env msg decision now handling stored)

theorem trackedCb_storedKey (tracked : handling.manager.microsegTracked decision = true)
    (payload : Bool) {id : ConnectionId} {key : String}
    (stored : (trackedCb env side store msg tuple decision payload now
      (settle env msg decision now handling)).manager.storedKey id = some key) :
    handling.manager.storedKey id = some key := by
  apply settle_storedKey env msg decision now handling
  rcases trackedCb_manager env side store msg tuple decision now
      (settle env msg decision now handling) payload with kept | ⟨opened, dispatched⟩
  · rw [← kept]
    exact stored
  · have settled : (settle env msg decision now handling).manager.micro.contains
        decision.connId = true := by
      rw [settle_of_open env msg decision now handling opened,
        ConnectionManager.microsegTouch_contains]
      exact tracked
    rw [dispatched, ConnectionManager.storedKey_dispatchMicroseg _ _ _ _ _ _ opened settled]
      at stored
    exact stored

theorem untrackedCb_storedKey (absent : handling.manager.micro.lookup decision.connId = none)
    {id : ConnectionId} {key : String}
    (stored : (untrackedCb env side store msg tuple decision (hasPayload msg decision) now
      (settle env msg decision now handling)).manager.storedKey id = some key) :
    handling.manager.storedKey id = some key ∨
      id = decision.connId ∧ (decision.syn = true ∨ hasPayload msg decision = true) ∧
        HttpApplies env side store tuple ∧
        key = (matchMicroPolicyRule env.order store tuple side.dir).ruleKey := by
  rcases untrackedCb_manager env side store msg tuple decision now
      (settle env msg decision now handling) (hasPayload msg decision) with
    kept | ⟨reaches, applies, outcome⟩
  · rw [kept] at stored
    exact Or.inl (settle_storedKey env msg decision now handling stored)
  · have tracks : ((settle env msg decision now handling).manager.microsegTrack decision
        (matchMicroPolicyRule env.order store tuple side.dir).ruleKey now).storedKey id =
          some key := by
      rcases outcome with bound | ⟨noSyn, inspected⟩
      · rw [← bound]
        exact stored
      · have payload : hasPayload msg decision = true :=
          reaches.resolve_left (by rw [noSyn]; exact Bool.false_ne_true)
        have bound := Table.contains_of_lookup
          (ConnectionManager.microsegTrack_own _ decision
            (matchMicroPolicyRule env.order store tuple side.dir).ruleKey now
            (settle_untracked env msg decision now handling absent))
        rw [inspected, ConnectionManager.storedKey_dispatchMicroseg _ _ _ _ _ _
          (notClosed_of_hasPayload msg decision payload) bound] at stored
        exact stored
    rcases settle_microsegTrack_storedKey env msg decision now handling absent tracks with
      before | ⟨own, named⟩
    · exact Or.inl before
    · exact Or.inr ⟨own, reaches, applies, named⟩

/-- A key is there afterwards because it was there before, or because the packet bound
its flow under the key of the rule that fired. -/
theorem tcpCb_storedKey {id : ConnectionId} {key : String}
    (stored : (tcpCb env side store msg tuple decision now handling).manager.storedKey id =
      some key) :
    handling.manager.storedKey id = some key ∨
      id = decision.connId ∧ Binds env side store msg tuple decision handling ∧
        key = (matchMicroPolicyRule env.order store tuple side.dir).ruleKey := by
  by_cases ignored : decision.kind = .ignore
  · rw [tcpCb_ignored env side store msg tuple decision now handling ignored] at stored
    exact Or.inl stored
  · cases tracked : handling.manager.microsegTracked decision with
    | true =>
        rw [tcpCb_tracked env side store msg tuple decision now handling ignored tracked]
          at stored
        exact Or.inl
          (trackedCb_storedKey env side store msg tuple decision now handling tracked _ stored)
    | false =>
        rw [tcpCb_untracked env side store msg tuple decision now handling ignored tracked]
          at stored
        have absent := Table.lookup_eq_none_of_not_contains tracked
        rcases untrackedCb_storedKey env side store msg tuple decision now handling absent
            stored with before | ⟨own, reaches, applies, named⟩
        · exact Or.inl before
        · exact Or.inr ⟨own, ⟨ignored, absent, reaches, applies⟩, named⟩

end Stored

/-! ### Runs that remember where keys come from -/

instance (env : Environment) (side : Side) (store : MicroSegEngine) (msg : NfqMessage)
    (tuple : FiveTuple) (decision : PacketDecision) (handling : Handling) :
    Decidable (Binds env side store msg tuple decision handling) :=
  inferInstanceAs (Decidable (_ ∧ _ ∧ _ ∧ _))

structure Origin where
  queue : Queue
  tuple : FiveTuple
  store : MicroSegEngine

def Origin.fired (order : IterationOrder RuleDetail) (origin : Origin) : Option Fired :=
  firedRule order origin.store origin.tuple origin.queue.side.dir

/-- A daemon and, beside it, where the key of each flow was bound last. -/
structure Traced where
  daemon : DaemonContext
  origins : ConnectionId → Option Origin

namespace Traced

def new : Traced := { daemon := DaemonContext.new, origins := fun _ => none }

def fired (env : Environment) (traced : Traced) (id : ConnectionId) : Option Fired :=
  (traced.origins id).bind (Origin.fired env.order)

def originsAfter (env : Environment) (traced : Traced) (queue : Queue) (msg : NfqMessage)
    (now : Nat) : ConnectionId → Option Origin :=
  match traced.daemon.decision queue msg now with
  | none => traced.origins
  | some decision =>
      if Binds env queue.side traced.daemon.microseg msg msg.tuple decision
          (Handling.start traced.daemon.connMgr) then
        Function.update traced.origins decision.connId
          (some ⟨queue, msg.tuple, traced.daemon.microseg⟩)
      else traced.origins

def step (env : Environment) (traced : Traced) (event : DaemonEvent) : Traced :=
  { daemon := traced.daemon.step env event
    origins :=
      match event with
      | .packet queue msg now => traced.originsAfter env queue msg now
      | .reap _ => traced.origins
      | .control _ => traced.origins }

def consults (env : Environment) (traced : Traced) : DaemonEvent → List Consultation
  | .packet queue msg now => traced.daemon.consults env (traced.fired env) queue msg now
  | .reap _ => []
  | .control _ => []

/-- The origins are only written down: the daemon runs as it does without them. -/
theorem run_daemon (env : Environment) (events : List DaemonEvent) :
    (Runs.run (step env) new events).daemon =
      Runs.run (DaemonContext.step env) DaemonContext.new events := by
  apply Runs.run_simulation (step env) (DaemonContext.step env) (fun _ _ => True)
    (fun traced daemon => traced.daemon = daemon)
  · intro traced daemon event same _
    rw [← same]
    rfl
  · rfl
  · exact Runs.meets_of_forall (fun _ _ => trivial) _

/-- The store is one that requests lead to, and every stored key is that of a rule that
fired. -/
structure Coherent (env : Environment) (traced : Traced) : Prop where
  store : ∃ live, Represented traced.daemon.microseg live
  keys : ∀ id key, traced.daemon.connMgr.storedKey id = some key →
    ∃ origin fired live, traced.origins id = some origin ∧ Represented origin.store live ∧
      origin.fired env.order = some fired ∧ fired.rule.policyKey = key

end Traced

theorem handle_storedKey (env : Environment) (daemon : DaemonContext) (queue : Queue)
    (msg : NfqMessage) (now : Nat) {id : ConnectionId} {key : String}
    (stored : (daemon.handle env queue msg now).manager.storedKey id = some key) :
    daemon.connMgr.storedKey id = some key ∨
      ∃ decision, daemon.decision queue msg now = some decision ∧ id = decision.connId ∧
        Binds env queue.side daemon.microseg msg msg.tuple decision
          (Handling.start daemon.connMgr) ∧
        key = (matchMicroPolicyRule env.order daemon.microseg msg.tuple
          queue.side.dir).ruleKey := by
  unfold DaemonContext.handle at stored
  rw [Queue.callback_eq] at stored
  cases parsed : parseSegment msg.payload with
  | none =>
      rw [nfqCb_manager_of_no_segment env queue.side daemon.microseg msg daemon.connMgr now
        parsed] at stored
      exact Or.inl stored
  | some segment =>
      cases seen : queue.side.bypasses msg.nfmark with
      | true =>
          rw [nfqCb_bypassed env queue.side daemon.microseg msg daemon.connMgr now seen] at stored
          exact Or.inl stored
      | false =>
          rw [nfqCb_segment env queue.side daemon.microseg msg daemon.connMgr now seen parsed]
            at stored
          rcases tcpCb_storedKey env queue.side daemon.microseg msg msg.tuple _ now _ stored with
            before | ⟨own, binds, named⟩
          · exact Or.inl before
          · exact Or.inr ⟨_, decision_of_segment msg now seen parsed, own, binds, named⟩

namespace Traced

theorem originsAfter_of_binds (env : Environment) (traced : Traced) {queue : Queue}
    {msg : NfqMessage} {now : Nat} {decision : PacketDecision}
    (decided : traced.daemon.decision queue msg now = some decision)
    (binds : Binds env queue.side traced.daemon.microseg msg msg.tuple decision
      (Handling.start traced.daemon.connMgr)) :
    traced.originsAfter env queue msg now decision.connId =
      some ⟨queue, msg.tuple, traced.daemon.microseg⟩ := by
  unfold originsAfter
  rw [decided]
  dsimp only
  rw [if_pos binds, Function.update_self]

theorem originsAfter_of_stored (env : Environment) (traced : Traced) (queue : Queue)
    (msg : NfqMessage) (now : Nat) {id : ConnectionId} {key : String}
    (stored : traced.daemon.connMgr.storedKey id = some key) :
    traced.originsAfter env queue msg now id = traced.origins id := by
  unfold originsAfter
  cases traced.daemon.decision queue msg now with
  | none => rfl
  | some decision =>
      dsimp only
      split
      · rename_i binds
        apply Function.update_of_ne
        intro own
        have absent : traced.daemon.connMgr.micro.lookup decision.connId = none := binds.2.1
        rw [own, ConnectionManager.storedKey, absent] at stored
        cases stored
      · rfl

theorem Coherent.new (env : Environment) : Traced.new.Coherent env :=
  ⟨⟨[], represented_new⟩, fun _ _ stored => nomatch stored⟩

theorem Coherent.step {env : Environment} {traced : Traced} (coherent : traced.Coherent env)
    (event : DaemonEvent) : (traced.step env event).Coherent env := by
  obtain ⟨live, represented⟩ := coherent.store
  cases event with
  | packet queue msg now =>
      constructor
      · exact ⟨live, represented⟩
      · intro id key stored
        rcases handle_storedKey env traced.daemon queue msg now stored with
          before | ⟨decision, decided, own, binds, named⟩
        · obtain ⟨origin, fired, earlier, found, sourced⟩ := coherent.keys id key before
          exact ⟨origin, fired, earlier,
            (originsAfter_of_stored env traced queue msg now before).trans found, sourced⟩
        · obtain ⟨fired, found, policy⟩ := firedRule_of_matched _ _ _ _ binds.2.2.2.1
          refine ⟨⟨queue, msg.tuple, traced.daemon.microseg⟩, fired, live, ?_, represented, found,
            policy.trans named.symm⟩
          rw [own]
          exact originsAfter_of_binds env traced decided binds
  | reap now =>
      constructor
      · exact ⟨live, represented⟩
      · intro id key stored
        exact coherent.keys id key (ConnectionManager.storedKey_evictStale _ _ _ stored)
  | control op =>
      constructor
      · exact represented.apply op
      · exact coherent.keys

end Traced

/-! ### Where the consulted keys come from -/

section Sources

variable (env : Environment) (side : Side) {store : MicroSegEngine} (msg : NfqMessage)
  {live : List Addition} (represented : Represented store live) (tuple : FiveTuple)
  (decision : PacketDecision) (now : Nat) (handling : Handling)

theorem inspectConsults_eq {ruleKey : String} {fired : Option Fired} {consultation : Consultation}
    (member : consultation ∈ inspectConsults env side msg ruleKey fired decision now handling) :
    consultation = { map := side.dir, key := ruleKey, fired := fired } := by
  unfold inspectConsults at member
  split at member
  · exact List.mem_singleton.mp member
  · cases member

theorem trackedConsults_eq {origins : ConnectionId → Option Fired} {payload : Bool}
    {consultation : Consultation}
    (member : consultation ∈ trackedConsults env side msg origins decision payload now handling) :
    decision.kind ≠ .closed ∧ consultation =
      { map := side.dir
        key := (handling.manager.microsegRuleKey decision).getD ""
        fired := origins decision.connId } := by
  unfold trackedConsults at member
  split at member
  · cases member
  · rename_i opened
    split at member
    · cases member
    · split at member
      · cases member
      · split at member
        · cases member
        · exact ⟨opened, inspectConsults_eq env side msg decision now handling member⟩

theorem untrackedConsults_eq {payload : Bool} {consultation : Consultation}
    (member : consultation ∈
      untrackedConsults env side store msg tuple decision payload now handling) :
    (matchMicroPolicyRule env.order store tuple side.dir).rule ≠ .default ∧ consultation =
      { map := side.dir
        key := (matchMicroPolicyRule env.order store tuple side.dir).ruleKey
        fired := firedRule env.order store tuple side.dir } := by
  unfold untrackedConsults at member
  split at member
  · cases member
  · dsimp only at member
    split at member
    · cases member
    · rename_i matched
      refine ⟨matched, ?_⟩
      split at member
      · exact List.mem_singleton.mp member
      · split at member
        · exact List.mem_singleton.mp member
        · rcases List.mem_cons.mp member with first | inspected
          · exact first
          · exact inspectConsults_eq env side msg decision now _ inspected

theorem tcpConsults_eq {origins : ConnectionId → Option Fired} {consultation : Consultation}
    (member : consultation ∈
      tcpConsults env side store msg origins tuple decision now handling) :
    decision.kind ≠ .ignore ∧ consultation.map = side.dir ∧
      (handling.manager.microsegTracked decision = true ∧
          handling.manager.storedKey decision.connId = some consultation.key ∧
          consultation.fired = origins decision.connId ∨
        handling.manager.microsegTracked decision = false ∧
          ∃ fired, firedRule env.order store tuple side.dir = some fired ∧
            fired.rule.policyKey = consultation.key ∧ consultation.fired = some fired) := by
  unfold tcpConsults at member
  dsimp only at member
  split at member
  · cases member
  · rename_i heeded
    split at member
    · rename_i tracked
      obtain ⟨opened, rfl⟩ := trackedConsults_eq env side msg decision now _ member
      obtain ⟨entry, found⟩ := Option.isSome_iff_exists.mp tracked
      have before : handling.manager.storedKey decision.connId = some entry.conn.ruleKey := by
        unfold ConnectionManager.storedKey
        rw [found]
        rfl
      have settled : (settle env msg decision now handling).manager.microsegRuleKey decision =
          some entry.conn.ruleKey := by
        rw [settle_of_open env msg decision now handling opened]
        exact (ConnectionManager.storedKey_microsegTouch _ decision now _).trans before
      refine ⟨heeded, rfl, Or.inl ⟨tracked, ?_, rfl⟩⟩
      rw [settled]
      exact before
    · rename_i untracked
      obtain ⟨matched, rfl⟩ := untrackedConsults_eq env side msg tuple decision now _ member
      obtain ⟨fired, found, key⟩ := firedRule_of_matched _ _ _ _ matched
      exact ⟨heeded, rfl, Or.inr ⟨Bool.eq_false_iff.mpr untracked, fired, found, key, found⟩⟩

end Sources

namespace Traced

/-- Where the key of a packet's flow comes from: the flow's entry, or the packet itself. -/
def source (traced : Traced) (queue : Queue) (msg : NfqMessage) (id : ConnectionId) :
    Option Origin :=
  if traced.daemon.connMgr.micro.contains id then traced.origins id
  else some ⟨queue, msg.tuple, traced.daemon.microseg⟩

theorem Coherent.consults {env : Environment} {traced : Traced} (coherent : traced.Coherent env)
    {event : DaemonEvent} {consultation : Consultation}
    (member : consultation ∈ traced.consults env event) :
    ∃ queue msg now segment origin fired live, event = .packet queue msg now ∧
      parseSegment msg.payload = some segment ∧
      traced.source queue msg segment.id = some origin ∧ Represented origin.store live ∧
      origin.fired env.order = some fired ∧
      consultation = { map := queue.side.dir, key := fired.rule.policyKey, fired := some fired } := by
  cases event with
  | packet queue msg now =>
      change consultation ∈ traced.daemon.consults env (traced.fired env) queue msg now at member
      unfold DaemonContext.consults at member
      cases decided : traced.daemon.decision queue msg now with
      | none =>
          rw [decided] at member
          cases member
      | some decision =>
          rw [decided] at member
          obtain ⟨heeded, map, source⟩ := tcpConsults_eq env queue.side msg msg.tuple decision now _
            member
          obtain ⟨segment, seen, parsed, rfl⟩ := decision_eq_some msg now decided heeded
          have own := (onSegment_ids traced.daemon.connMgr.engine segment now heeded).1
          rcases consultation with ⟨consulted, key, fired⟩
          cases map
          simp only [ConnectionManager.microsegTracked, Handling.start,
            receive_segment traced.daemon.connMgr now parsed, own] at source
          rcases source with ⟨tracked, stored, named⟩ | ⟨untracked, fired, found, policy, named⟩
          · obtain ⟨origin, rule, live, bound, represented, found, policy⟩ :=
              coherent.keys segment.id key stored
            refine ⟨queue, msg, now, segment, origin, rule, live, rfl, parsed, ?_, represented,
              found, ?_⟩
            · rw [source, if_pos tracked]
              exact bound
            · rw [policy, named, Traced.fired, bound, Option.bind_some, found]
          · obtain ⟨live, represented⟩ := coherent.store
            refine ⟨queue, msg, now, segment, ⟨queue, msg.tuple, traced.daemon.microseg⟩, fired,
              live, rfl, parsed, ?_, represented, found, ?_⟩
            · rw [source, if_neg (by rw [untracked]; exact Bool.false_ne_true)]
            · rw [policy, named]
  | reap now => cases member
  | control op => cases member

end Traced

/-! ### Rules that overrule -/

section Overruling

variable {order : IterationOrder RuleDetail} {live : List Addition}

/-- The store holds a rule of the direction for the tuple, which is not from a node. -/
def MicroSegEngine.Covers (store : MicroSegEngine) (tuple : FiveTuple) (dir : FlowDir)
    (rule : RuleDetail) : Prop :=
  store.isNodeIp tuple.srcAddrU32 = false ∧
    store.policyRule.Covers tuple.proto tuple.dstPort tuple.srcAddr tuple.dstAddr dir rule

/-- The rule that answers does not allow, and for the way back the store holds a rule of the
other direction that ranks before every rule it holds for the way there. -/
def Origin.Overruled (order : IterationOrder RuleDetail) (origin : Origin) : Prop :=
  (∃ forward, matchNetPolicyRule order origin.store origin.tuple origin.queue.side.dir =
      some forward ∧ NetPolicyRule.ofValue forward.action ≠ .allow) ∧
    ∃ reverse, origin.store.Covers origin.tuple.reverseTuple (opposite origin.queue.side.dir)
        reverse ∧
      ∀ forward, origin.store.Covers origin.tuple origin.queue.side.dir forward →
        reverse.priority < forward.priority

theorem match_eq_some {store : MicroSegEngine} (represented : Represented store live)
    {tuple : FiveTuple} {dir : FlowDir} {rule : RuleDetail}
    (found : matchNetPolicyRule order store tuple dir = some rule) :
    store.Covers tuple dir rule ∧
      ∀ other, store.Covers tuple dir other → rule.priority ≤ other.priority := by
  unfold matchNetPolicyRule at found
  split at found
  · cases found
  · rename_i pod
    exact ⟨⟨Bool.eq_false_iff.mpr pod, covers_of_match represented.engine found⟩,
      fun other covers => priority_le_of_covers represented.engine found covers.2⟩

theorem exists_match (order : IterationOrder RuleDetail) {store : MicroSegEngine}
    (represented : Represented store live) {tuple : FiveTuple} {dir : FlowDir} {rule : RuleDetail} (covers : store.Covers tuple dir rule) :
    ∃ answer, matchNetPolicyRule order store tuple dir = some answer := by
  unfold matchNetPolicyRule
  rw [if_neg (Bool.eq_false_iff.mp covers.1)]
  exact match_of_covers represented.engine order tuple.srcPort covers.2

theorem overridden_iff {origin : Origin} {fired : Fired}
    (represented : Represented origin.store live) (found : origin.fired order = some fired) :
    fired.overridden = true ↔ origin.Overruled order := by
  unfold Origin.fired firedRule at found
  cases answered : matchNetPolicyRule order origin.store origin.tuple origin.queue.side.dir with
  | none =>
      rw [answered] at found
      cases found
  | some forward =>
      obtain ⟨forwardCovers, forwardLeast⟩ := match_eq_some represented answered
      rw [answered] at found
      dsimp only at found
      split at found
      · rename_i allows
        cases found
        refine iff_of_false Bool.false_ne_true ?_
        rintro ⟨⟨other, same, denies⟩, -⟩
        cases answered.symm.trans same
        exact denies allows
      · rename_i denies
        cases back : matchNetPolicyRule order origin.store origin.tuple.reverseTuple
            (opposite origin.queue.side.dir) with
        | none =>
            rw [back] at found
            cases found
            refine iff_of_false Bool.false_ne_true ?_
            rintro ⟨-, reverse, covers, -⟩
            obtain ⟨answer, some_⟩ := exists_match order represented covers
            rw [back] at some_
            cases some_
        | some reverse =>
            obtain ⟨reverseCovers, reverseLeast⟩ := match_eq_some represented back
            rw [back] at found
            dsimp only at found
            split at found
            · rename_i ranks
              cases found
              refine iff_of_false Bool.false_ne_true ?_
              rintro ⟨-, other, covers, before⟩
              have least := reverseLeast other covers
              have less := before forward forwardCovers
              omega
            · rename_i ranks
              cases found
              refine iff_of_true rfl ⟨⟨forward, answered, denies⟩, reverse, reverseCovers, ?_⟩
              intro other covers
              have least := forwardLeast other covers
              omega

/-- The rule that fired is of a queue's direction if it was found on that queue and not
overruled, or on the other one and overruled. -/
theorem fired_direction_iff {origin : Origin} {fired : Fired}
    (represented : Represented origin.store live) (found : origin.fired order = some fired)
    (queue : Queue) :
    fired.rule.direction = queue.side.dir ↔
      (origin.queue = queue ↔ ¬origin.Overruled order) := by
  obtain ⟨asked, placed⟩ := firedRule_placed represented found
  rw [placed, asked, ← overridden_iff represented found]
  cases fired.overridden <;> cases origin.queue <;> cases queue <;> decide

end Overruling

namespace Traced

/-- Before a packet: its flow has no entry and its own match is not overruled, or its entry was
made on the same queue by a match that was not, or on the other queue by one that was. -/
def Straight (env : Environment) (traced : Traced) : DaemonEvent → Prop
  | .packet queue msg _ =>
      ∀ segment ∈ parseSegment msg.payload, ∀ origin ∈ traced.source queue msg segment.id,
        (origin.queue = queue ↔ ¬origin.Overruled env.order)
  | .reap _ => True
  | .control _ => True

theorem Coherent.sameDirection_iff {env : Environment} {traced : Traced}
    (coherent : traced.Coherent env) (event : DaemonEvent) :
    (∀ consultation ∈ traced.consults env event, consultation.SameDirection) ↔
      (traced.consults env event ≠ [] → traced.Straight env event) := by
  have each : ∀ consultation ∈ traced.consults env event,
      (consultation.SameDirection ↔ traced.Straight env event) := by
    intro consultation member
    obtain ⟨queue, msg, now, segment, origin, fired, live, rfl, parsed, source, represented, found,
      rfl⟩ := coherent.consults member
    unfold Consultation.SameDirection Straight
    simp only [parsed, source, Option.mem_some_iff, forall_eq']
    exact fired_direction_iff represented found queue
  constructor
  · intro same consults
    obtain ⟨consultation, member⟩ := List.exists_mem_of_ne_nil _ consults
    exact (each consultation member).mp (same consultation member)
  · intro straight consultation member
    exact (each consultation member).mpr (straight (List.ne_nil_of_mem member))

def consulted (env : Environment) (events : List DaemonEvent) : List Consultation :=
  Runs.outputs (step env) (consults env) new events

end Traced

/-- In every run, each consulted key is that of a rule that fired.  The rules that fired are of
the directions of the maps consulted if every packet comes straight, and only if every packet
that consults does. -/
theorem consulted_directions_iff (env : Environment) (events : List DaemonEvent) :
    (∀ consultation ∈ Traced.consulted env events,
        ∃ fired, consultation.fired = some fired ∧
          fired.rule.policyKey = consultation.key) ∧
      (Runs.Meets (Traced.step env) (Traced.Straight env) Traced.new events →
        ∀ consultation ∈ Traced.consulted env events, consultation.SameDirection) ∧
      ((∀ consultation ∈ Traced.consulted env events, consultation.SameDirection) ↔
        Runs.Meets (Traced.step env)
          (fun traced event => traced.consults env event ≠ [] → traced.Straight env event)
          Traced.new events) := by
  have coherent := fun traced event (coherent : Traced.Coherent env traced) =>
    coherent.step event
  have exactly : (∀ consultation ∈ Traced.consulted env events, consultation.SameDirection) ↔
      Runs.Meets (Traced.step env)
        (fun traced event => traced.consults env event ≠ [] → traced.Straight env event)
        Traced.new events := by
    rw [Traced.consulted, Runs.forall_mem_outputs_iff]
    exact Runs.meets_iff_of_invariant (Traced.step env)
      (fun traced event met _ => coherent traced event met)
      (fun traced event met _ => met.sameDirection_iff event) (Traced.Coherent.new env)
      (Runs.meets_of_forall (fun _ _ => trivial) _)
  refine ⟨?_, ?_, exactly⟩
  · refine Runs.forall_mem_outputs (Traced.step env) (Traced.consults env) coherent ?_
      (Traced.Coherent.new env) events
    intro traced event coherent consultation member
    obtain ⟨_, _, _, _, _, fired, _, _, _, _, _, _, rfl⟩ := coherent.consults member
    exact ⟨fired, rfl, rfl⟩
  · intro straight
    refine exactly.mpr (straight.mono ?_)
    intro traced event comes _
    exact comes

/-- Deny what 10.0.0.2 sends to 10.0.0.1, before the rules of a lower rank; a second rule
of the policy, for another sender, has HTTP clauses. -/
def replyPolicy : ControlOp :=
  .addPolicyRule "reply"
    [{ sshRule with
        direction := .egress
        fromAddresses := ["10.0.0.2"]
        toAddresses := ["10.0.0.1"]
        ports := [] },
      { httpRule .ingress [pathClause] with fromAddresses := ["10.0.0.9"] }]

/-- The egress rule overrides the ingress one, and the input callback consults the
ingress map under its key.  It finds the clauses of the other sender there and accepts a
packet that both rules deny. -/
theorem sshSyn_consults_reply :
    let events : List DaemonEvent :=
      [.control (.addPolicyRule "ssh" [{ sshRule with priority := 2 }]), .control replyPolicy]
    let packet : DaemonEvent := .packet .input sshSyn 0
    (Traced.consulted plainEnvironment (events ++ [packet])).map
        (fun consultation => (consultation.map, consultation.key,
          consultation.fired.map fun fired => fired.rule.direction)) =
      [(.ingress, "reply", some .egress)] ∧
    ¬(∀ consultation ∈ Traced.consulted plainEnvironment (events ++ [packet]),
      consultation.SameDirection) ∧
    (Runs.run (DaemonContext.step plainEnvironment) DaemonContext.new events).verdicts
        plainEnvironment [packet] =
      [[{ id := 1, verdict := .accept, mark := some 4, payload := none }]] := by
  decide +kernel

end NetPolicy.Daemon
