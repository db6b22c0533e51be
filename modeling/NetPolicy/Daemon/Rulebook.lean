/-
The rulebook.

What the requests so far ask for, line by line in the order they came, and the exempt
sources.  A packet is held against the lines that match it by plain reading; the lines of
the smallest priority number decide, and a line of the opposite direction with a smaller
one takes precedence over anything but an allowance.  As long as no request brings HTTP
rules, every verdict of the daemon is one that the rulebook gives, whatever packets, sweeps
and requests came before.
-/

import NetPolicy.Policy.LinearScan
import NetPolicy.Daemon.Freshness
import NetPolicy.Daemon.Replacement
import NetPolicy.Daemon.VerdictMarks

namespace NetPolicy.Daemon

open NetPolicy.Policy NetPolicy.Flow NetPolicy.Http

/-! ### Lines and decisions -/

structure Rulebook where
  lines : List Addition
  nodes : List Ipv4Addr

namespace Rulebook

def empty : Rulebook := ⟨[], []⟩

/-- Requests as they are meant: a policy replaces the one of its name. -/
def apply (book : Rulebook) : ControlOp → Rulebook
  | .addPolicyRule policyName rules =>
      { book with
        lines := kept (cString policyName) book.lines ++
          taken (cString policyName) (readPart rules) }
  | .deletePolicyRule policyName => { book with lines := kept policyName book.lines }
  | .resetConfig => { book with lines := [] }
  | .updateNodeConfig isDelete nodeIps =>
      { book with
        nodes := nodeIps.foldl
          (fun nodes ip =>
            let address := (parseIpv4Addr (cString ip)).getD 0
            if isDelete then nodes.filter (· ≠ address) else address :: nodes)
          book.nodes }

def matching (book : Rulebook) (tuple : FiveTuple) (dir : FlowDir) : List Addition :=
  if tuple.srcAddrU32 ∈ book.nodes then []
  else linearScan book.lines tuple.proto tuple.dstPort tuple.srcAddr tuple.dstAddr dir

/-- The action of a line is the one of the first line of its policy under its key. -/
def actionOf (book : Rulebook) (line : Addition) : NetPolicyRule :=
  let first :=
    (sharing line.1.key line.1.policyKey (inDirection line.1.direction book.lines)).head?
  NetPolicyRule.ofValue ((first.map fun first => first.1.action).getD line.1.action)

/-- A line of the smallest priority number that matches has the action. -/
def Leads (book : Rulebook) (tuple : FiveTuple) (dir : FlowDir) (priority : Int)
    (action : NetPolicyRule) : Prop :=
  (∃ line ∈ book.matching tuple dir, line.1.priority = priority ∧ book.actionOf line = action) ∧
    ∀ line ∈ book.matching tuple dir, priority ≤ line.1.priority

inductive Decides (book : Rulebook) (tuple : FiveTuple) (dir : FlowDir) : NetPolicyRule → Prop
  | silent (none : book.matching tuple dir = []) : Decides book tuple dir .default
  | allowed {priority : Int} (leads : book.Leads tuple dir priority .allow) :
      Decides book tuple dir .allow
  | stands {priority : Int} {action : NetPolicyRule} (leads : book.Leads tuple dir priority action)
      (other : action ≠ .allow)
      (first : ∀ line ∈ book.matching tuple.reverseTuple (opposite dir),
        priority ≤ line.1.priority) :
      Decides book tuple dir action
  | overridden {priority smaller : Int} {action override : NetPolicyRule}
      (leads : book.Leads tuple dir priority action) (other : action ≠ .allow)
      (reverse : book.Leads tuple.reverseTuple (opposite dir) smaller override)
      (first : smaller < priority) : Decides book tuple dir override

end Rulebook

/-! ### Requests without HTTP rules -/

/-- Every line of the request names a network, and no rule has clauses. -/
def ControlOp.Plain : ControlOp → Prop
  | .addPolicyRule policyName rules =>
      (∀ rule ∈ rules, rule.httpRules = []) ∧
        ∀ line ∈ taken (cString policyName) (readPart rules), line.1.Denoting
  | _ => True

instance (rule : RuleDetail) : Decidable rule.Denoting :=
  decidable_of_iff
    ((denoteNetwork? rule.cidrIp).any (fun network => decide (1 ≤ network.length)) = true)
    (by simp [RuleDetail.Denoting, Option.any_eq_true])

instance : DecidablePred ControlOp.Plain
  | .addPolicyRule _ _ => inferInstanceAs (Decidable (_ ∧ _))
  | .deletePolicyRule _ | .resetConfig | .updateNodeConfig _ _ => .isTrue trivial

/-- What the daemon holds is what the rulebook holds. -/
structure Follows (daemon : DaemonContext) (book : Rulebook) : Prop where
  engine : EngineRepresents daemon.microseg.policyRule book.lines
  denoting : ∀ line ∈ book.lines, line.1.Denoting
  nodes : ∀ ip, daemon.microseg.isNodeIp ip = decide (ip ∈ book.nodes)
  noClauses : ∀ dir key, (daemon.microseg.httpPolicy dir).lookup key = none
  untracked : ∀ id, daemon.connMgr.micro.contains id = false

section Requests

variable {daemon : DaemonContext} {book : Rulebook}

theorem follows_start : Follows DaemonContext.new Rulebook.empty where
  engine := engineRepresents_run []
  denoting _ member := absurd member List.not_mem_nil
  nodes _ := rfl
  noClauses dir _ := by cases dir <;> rfl
  untracked _ := rfl

theorem mem_kept {name : String} {live : List Addition} {line : Addition}
    (member : line ∈ kept name live) : line ∈ live := by
  unfold kept at member
  split at member
  · exact member
  · exact List.mem_of_mem_filter member

theorem deletePolicy_noClauses {store : MicroSegEngine}
    (noClauses : ∀ dir key, (store.httpPolicy dir).lookup key = none) (name : String)
    (dir : FlowDir) (key : String) :
    ((deletePolicy name store).httpPolicy dir).lookup key = none := by
  by_cases same : key = name
  · by_cases named : name = ""
    · rw [deletePolicy, if_pos named]
      exact noClauses dir key
    · rw [same]
      exact deletePolicy_lookup_same store named dir
  · rw [deletePolicy_lookup_other store same]
    exact noClauses dir key

theorem clausesOf_plain {rules : List PolicyRuleSpec} (plain : ∀ rule ∈ rules, rule.httpRules = [])
    (dir : FlowDir) : clausesOf rules dir = [] := by
  rw [clausesOf, List.flatMap_eq_nil_iff]
  intro rule member
  rw [plain rule member, List.map_nil, ite_self]

theorem isNodeIp_write {store : MicroSegEngine} {nodes : List Ipv4Addr}
    (same : ∀ ip, store.isNodeIp ip = decide (ip ∈ nodes)) (isDelete : Bool)
    (address ip : Ipv4Addr) :
    MicroSegEngine.isNodeIp
        { store with
          nodesIp := if isDelete then store.nodesIp.erase address
            else store.nodesIp.insert address () } ip =
      decide (ip ∈ if isDelete then nodes.filter (· ≠ address) else address :: nodes) := by
  have before := same ip
  unfold MicroSegEngine.isNodeIp Table.contains at before ⊢
  cases isDelete with
  | true =>
      by_cases removed : ip = address
      · simp [removed, Table.erase]
      · simp [removed, Table.erase, before]
  | false =>
      by_cases added : ip = address
      · simp [added, Table.insert]
      · simp [added, Table.insert, before]

theorem isNodeIp_updateNodeConfig {store : MicroSegEngine} {nodes : List Ipv4Addr}
    (same : ∀ ip, store.isNodeIp ip = decide (ip ∈ nodes)) (isDelete : Bool)
    (nodeIps : List String) (ip : Ipv4Addr) :
    (updateNodeConfig store isDelete nodeIps).isNodeIp ip =
      decide (ip ∈ nodeIps.foldl
        (fun nodes ip =>
          let address := (parseIpv4Addr (cString ip)).getD 0
          if isDelete then nodes.filter (· ≠ address) else address :: nodes) nodes) := by
  induction nodeIps generalizing store nodes with
  | nil => exact same ip
  | cons text rest ih => exact ih (isNodeIp_write same isDelete _)

theorem httpPolicy_updateNodeConfig (store : MicroSegEngine) (isDelete : Bool)
    (nodeIps : List String) (dir : FlowDir) :
    (updateNodeConfig store isDelete nodeIps).httpPolicy dir = store.httpPolicy dir := by
  unfold updateNodeConfig
  induction nodeIps generalizing store with
  | nil => rfl
  | cons text rest ih =>
      rw [List.foldl_cons, ih]
      cases dir <;> rfl

theorem Follows.control (follows : Follows daemon book) (env : Environment) {op : ControlOp}
    (plain : op.Plain) : Follows (daemon.step env (.control op)) (book.apply op) := by
  cases op with
  | addPolicyRule policyName rules =>
      have grown := addPolicyRule_grown daemon.microseg policyName rules
      have adds := adds_addPolicyRule daemon.microseg policyName rules
      have clean : ∀ dir, clausesOf (seenPart rules) dir = [] := clausesOf_plain
        fun rule member => plain.1 rule (List.mem_of_mem_take member)
      refine ⟨grown.rules _ (deletePolicy_represents follows.engine _), ?_, ?_, ?_,
        follows.untracked⟩
      · intro line member
        rcases List.mem_append.mp member with old | new
        · exact follows.denoting line (mem_kept old)
        · exact plain.2 line new
      · intro ip
        have nodes := adds.nodes.trans (deletePolicy_frame _ daemon.microseg).2.2
        exact (congrArg (fun table => table.contains ip) nodes).trans (follows.nodes ip)
      · intro dir key
        by_cases own : key = cString policyName
        · have after := grown.own dir
          rw [clean dir, extended_nil, deletePolicy_noClauses follows.noClauses] at after
          rw [own]
          exact after
        · exact (grown.others dir key own).trans
            (deletePolicy_noClauses follows.noClauses _ dir key)
  | deletePolicyRule policyName =>
      refine ⟨deletePolicy_represents follows.engine policyName, ?_, ?_, ?_, follows.untracked⟩
      · intro line member
        exact follows.denoting line (mem_kept member)
      · intro ip
        have nodes := (deletePolicy_frame policyName daemon.microseg).2.2
        exact (congrArg (fun table => table.contains ip) nodes).trans (follows.nodes ip)
      · exact deletePolicy_noClauses follows.noClauses policyName
  | resetConfig =>
      refine ⟨follows.engine.apply .clearCfg, ?_, follows.nodes, ?_, follows.untracked⟩
      · intro line member
        cases member
      · intro dir key
        rw [← follows.noClauses dir key]
        cases dir <;> rfl
  | updateNodeConfig isDelete nodeIps =>
      refine ⟨?_, follows.denoting, ?_, ?_, follows.untracked⟩
      · exact (updateNodeConfig_policyRule daemon.microseg isDelete nodeIps).symm ▸ follows.engine
      · exact isNodeIp_updateNodeConfig follows.nodes isDelete nodeIps
      · intro dir key
        exact (congrArg (fun table => table.lookup key)
          (httpPolicy_updateNodeConfig daemon.microseg isDelete nodeIps dir)).trans
          (follows.noClauses dir key)

end Requests

/-! ### Packets and sweeps -/

section Steps

variable {daemon : DaemonContext} {book : Rulebook}

/-- Without clauses no packet makes an entry. -/
theorem Follows.untracked_after (follows : Follows daemon book) (env : Environment) (queue : Queue)
    (msg : NfqMessage) (now : Nat) (id : ConnectionId) :
    (daemon.handle env queue msg now).manager.micro.contains id = false := by
  rw [DaemonContext.handle, Queue.callback_eq]
  cases parsed : parseSegment msg.payload with
  | none =>
      rw [nfqCb_manager_of_no_segment _ _ _ _ _ _ parsed]
      exact follows.untracked id
  | some segment =>
      cases seen : queue.side.bypasses msg.nfmark with
      | true =>
          rw [nfqCb_bypassed _ _ _ _ _ _ seen]
          exact follows.untracked id
      | false =>
          rw [nfqCb_segment _ _ _ _ _ _ seen parsed, ← Bool.not_eq_true]
          intro present
          rcases tcpCb_contains _ _ _ _ _ _ _ _ present with ⟨before, -⟩ | ⟨-, binds⟩
          · exact Bool.false_ne_true ((follows.untracked id).symm.trans before)
          · refine binds.2.2.2.2 ?_
            rw [follows.noClauses]
            rfl

theorem Follows.sweep (follows : Follows daemon book) (env : Environment) (now : Nat) :
    Follows (daemon.step env (.reap now)) book := by
  refine ⟨follows.engine, follows.denoting, follows.nodes, follows.noClauses, fun id => ?_⟩
  rw [← Bool.not_eq_true]
  intro present
  obtain ⟨entry, found⟩ := Option.isSome_iff_exists.mp present
  have before := (Table.lookup_retain_eq_some.mp
    (Table.lookup_retain_eq_some.mp found).1).1
  have absent := follows.untracked id
  rw [Table.contains, before] at absent
  cases absent

def Rulebook.step (book : Rulebook) : DaemonEvent → Rulebook
  | .control op => book.apply op
  | _ => book

def DaemonEvent.Plain : DaemonEvent → Prop
  | .control op => op.Plain
  | _ => True

instance : DecidablePred DaemonEvent.Plain
  | .control op => inferInstanceAs (Decidable op.Plain)
  | .packet _ _ _ | .reap _ => .isTrue trivial

theorem Follows.step (follows : Follows daemon book) (env : Environment) {event : DaemonEvent}
    (plain : event.Plain) : Follows (daemon.step env event) (book.step event) := by
  cases event with
  | packet queue msg now =>
      exact ⟨follows.engine, follows.denoting, follows.nodes, follows.noClauses,
        follows.untracked_after env queue msg now⟩
  | reap now => exact follows.sweep env now
  | control op => exact follows.control env plain

theorem follows_run (env : Environment) {events : List DaemonEvent}
    (plain : ∀ event ∈ events, event.Plain) :
    Follows (Runs.run (DaemonContext.step env) DaemonContext.new events)
      (Runs.run Rulebook.step Rulebook.empty events) :=
  Runs.run_simulation (DaemonContext.step env) Rulebook.step
    (fun _ (event : DaemonEvent) => event.Plain) Follows
    (fun _ _ _ follows plain => follows.step env plain) follows_start
    (Runs.meets_of_forall plain _)

end Steps

/-! ### Matching -/

section Matching

variable {daemon : DaemonContext} {book : Rulebook} {order : IterationOrder RuleDetail}
  {tuple : FiveTuple} {dir : FlowDir}

def FiveTuple.Printed (tuple : FiveTuple) : Prop :=
  tuple.srcAddr = formatIpv4Addr tuple.srcAddrU32 ∧ tuple.dstAddr = formatIpv4Addr tuple.dstAddrU32

theorem FiveTuple.Printed.reverse (printed : tuple.Printed) : tuple.reverseTuple.Printed :=
  ⟨printed.2, printed.1⟩

theorem Follows.agree (follows : Follows daemon book) (printed : tuple.Printed) :
    ∀ line ∈ book.lines,
      EngineMatch line.1 line.2 tuple.proto tuple.dstPort tuple.srcAddr tuple.dstAddr ↔
        plainMatch line tuple.proto tuple.dstPort tuple.srcAddr tuple.dstAddr = true := by
  intro line member
  refine engineMatch_iff_plainMatch (follows.denoting line member) ?_
  rw [printed.1, printed.2]
  cases line.1.direction with
  | ingress => exact congrArg Option.isSome (parseIpv4Addr_format tuple.srcAddrU32)
  | egress => exact congrArg Option.isSome (parseIpv4Addr_format tuple.dstAddrU32)

theorem Follows.least (follows : Follows daemon book) (order : IterationOrder RuleDetail)
    (printed : tuple.Printed) (dir : FlowDir) :
    (daemon.microseg.policyRule.matchFiveTuple order tuple.proto tuple.dstPort tuple.srcPort
        tuple.srcAddr tuple.dstAddr dir).map RuleDetail.priority =
      ((linearScan book.lines tuple.proto tuple.dstPort tuple.srcAddr tuple.dstAddr dir).map
        fun line => line.1.priority).min? :=
  matchFiveTuple_priority follows.engine (follows.agree printed)

theorem line_of_found {engine : RustPolicyEngine} (represents : EngineRepresents engine book.lines)
    {proto dstPort srcPort : Nat} {srcAddr dstAddr : String} {rule : RuleDetail}
    (found : engine.matchFiveTuple order proto dstPort srcPort srcAddr dstAddr dir = some rule) :
    ∃ line ∈ inDirection dir book.lines,
      EngineMatch line.1 line.2 proto dstPort srcAddr dstAddr ∧
        line.1.priority = rule.priority ∧
        book.actionOf line = NetPolicyRule.ofValue rule.action := by
  rw [RustPolicyEngine.matchFiveTuple_eq_findSome?] at found
  obtain ⟨priority, -, atPriority⟩ := List.exists_of_findSome?_eq_some found
  obtain ⟨key, generated, atKey⟩ := List.exists_of_findSome?_eq_some atPriority
  obtain ⟨name, stored, accepted⟩ := RuleChain.matchRuleGroup_eq_some atKey
  obtain ⟨first, -, line, member, ruleEq, -, -, -, lineKey, lineName, ⟨-, firstPriority⟩, fits,
    linePriority⟩ := engineMatch_of_entry represents generated stored accepted
  have rulePriority : rule.priority = priority := by
    rw [ruleEq]
    exact firstPriority
  refine ⟨line, member, fits, linePriority.trans rulePriority.symm, ?_⟩
  rw [(represents.trees dir).entry key name, merged] at stored
  rw [Rulebook.actionOf, lineKey, lineName, (mem_inDirection.mp member).2]
  split at stored
  · cases stored
  · rename_i head rest shared
    rw [shared, ← Option.some.inj stored]
    rfl

theorem Follows.matchNetPolicyRule_none (follows : Follows daemon book) (printed : tuple.Printed)
    (none : matchNetPolicyRule order daemon.microseg tuple dir = none) :
    book.matching tuple dir = [] := by
  unfold matchNetPolicyRule at none
  rw [follows.nodes] at none
  unfold Rulebook.matching
  by_cases exempt : tuple.srcAddrU32 ∈ book.nodes
  · rw [if_pos exempt]
  · rw [if_neg (by simpa using exempt)] at none
    rw [if_neg exempt]
    have least := follows.least order printed dir
    rw [none, Option.map_none] at least
    exact List.map_eq_nil_iff.mp (List.min?_eq_none_iff.mp least.symm)

theorem Follows.matchNetPolicyRule_some (follows : Follows daemon book) (printed : tuple.Printed)
    {rule : RuleDetail} (found : matchNetPolicyRule order daemon.microseg tuple dir = some rule) :
    book.Leads tuple dir rule.priority (NetPolicyRule.ofValue rule.action) := by
  unfold matchNetPolicyRule at found
  rw [follows.nodes] at found
  have examined : tuple.srcAddrU32 ∉ book.nodes := by
    intro exempt
    rw [if_pos (decide_eq_true exempt)] at found
    cases found
  rw [if_neg (by simpa using examined)] at found
  have least := follows.least order printed dir
  rw [found, Option.map_some] at least
  have smallest := (List.min?_eq_some_iff.mp least.symm).2
  unfold Rulebook.Leads Rulebook.matching
  rw [if_neg examined]
  obtain ⟨line, member, fits, priority, action⟩ := line_of_found follows.engine found
  obtain ⟨inBook, direction⟩ := mem_inDirection.mp member
  refine ⟨⟨line, mem_linearScan.mpr ⟨inBook, direction, ?_⟩, priority, action⟩, ?_⟩
  · exact (follows.agree printed line inBook).mp fits
  · intro other listed
    exact smallest _ (List.mem_map_of_mem listed)

theorem Follows.decides (follows : Follows daemon book) (printed : tuple.Printed) :
    book.Decides tuple dir (matchMicroPolicyRule order daemon.microseg tuple dir).rule := by
  unfold matchMicroPolicyRule
  cases found : matchNetPolicyRule order daemon.microseg tuple dir with
  | none => exact .silent (follows.matchNetPolicyRule_none printed found)
  | some rule =>
      have leads := follows.matchNetPolicyRule_some printed found
      dsimp only
      by_cases allows : NetPolicyRule.ofValue rule.action = .allow
      · rw [if_pos allows]
        dsimp only
        rw [allows] at leads ⊢
        exact .allowed leads
      · rw [if_neg allows]
        cases back : matchNetPolicyRule order daemon.microseg tuple.reverseTuple (opposite dir) with
        | none =>
            refine .stands leads allows ?_
            rw [follows.matchNetPolicyRule_none printed.reverse back]
            exact fun _ member => absurd member List.not_mem_nil
        | some reverse =>
            have other := follows.matchNetPolicyRule_some printed.reverse back
            dsimp only
            split
            · rename_i first
              exact .stands leads allows fun line member => first.trans (other.2 line member)
            · rename_i first
              exact .overridden leads allows other (not_le.mp first)

end Matching

/-! ### Verdicts -/

/-- A packet that is denied is dropped; any other passes, and its connection with it. -/
def verdictOf (id : Nat) (answer : NetPolicyRule) : VerdictCall :=
  if answer = .deny then { id := id, verdict := .drop, mark := none, payload := none }
  else { id := id, verdict := .accept, mark := some NetPolicyRule.allow.value, payload := none }

/-- A TCP packet that the flow engine does not ignore, and that opens a flow or has payload. -/
def Heeded (msg : NfqMessage) (decision : PacketDecision) : Prop :=
  decision.kind ≠ .ignore ∧ (decision.syn = true ∨ hasPayload msg decision = true)

/-- The packets that are held against the rules. -/
def Examined (daemon : DaemonContext) (queue : Queue) (msg : NfqMessage) (now : Nat) : Prop :=
  let received := (daemon.connMgr.receive msg.payload true now).2
  queue.side.bypasses msg.nfmark = false ∧ 20 ≤ msg.payload.length ∧
    received.tuple.recognized = true ∧
    (msg.tuple.proto = ipprotoUdp ∨ msg.tuple.proto = ipprotoIcmp ∨
      msg.tuple.proto = ipprotoTcp ∧ Heeded msg received.decision)

section Verdicts

variable {daemon : DaemonContext} {book : Rulebook} (env : Environment) (side : Side)
  (msg : NfqMessage)

theorem statelessCb_verdicts (store : MicroSegEngine) (tuple : FiveTuple) (handling : Handling) :
    (statelessCb env side store msg tuple handling).verdicts =
      handling.verdicts ++
        [verdictOf msg.id (matchMicroPolicyRule env.order store tuple side.dir).rule] := by
  unfold statelessCb verdictOf
  dsimp only
  split
  · rename_i default
    rw [default, if_neg (by decide)]
    rfl
  · split <;> rfl

theorem untrackedCb_verdicts {store : MicroSegEngine}
    (noClauses : ∀ dir key, (store.httpPolicy dir).lookup key = none) (tuple : FiveTuple)
    (decision : PacketDecision) {payload : Bool}
    (heeded : decision.syn = true ∨ payload = true) (now : Nat) (handling : Handling) :
    (untrackedCb env side store msg tuple decision payload now handling).verdicts =
      handling.verdicts ++
        [verdictOf msg.id (matchMicroPolicyRule env.order store tuple side.dir).rule] := by
  have loud : ¬(!decision.syn && !payload) = true := by
    rcases heeded with syn | full
    · simp [syn]
    · simp [full]
  unfold untrackedCb verdictOf
  rw [if_neg loud]
  dsimp only
  split
  · rename_i default
    rw [default, if_neg (by decide)]
    rfl
  · rw [noClauses, Option.getD_none, if_pos rfl]
    split <;> rfl

theorem untrackedCb_silent (store : MicroSegEngine) (tuple : FiveTuple) {decision : PacketDecision}
    {payload : Bool} (silent : ¬(decision.syn = true ∨ payload = true)) (now : Nat)
    (handling : Handling) :
    untrackedCb env side store msg tuple decision payload now handling =
      handling.verdictWithMark msg.id .accept side.pass none := by
  rw [not_or, Bool.not_eq_true, Bool.not_eq_true] at silent
  unfold untrackedCb
  rw [silent.1, silent.2]
  rfl

/-- A packet that is not dropped: one verdict, which accepts it as it is. -/
def PassedOn (handling : Handling) : Prop :=
  ∃ call, handling.verdicts = [call] ∧ call.verdict = .accept ∧ call.payload = none

theorem passedOn_verdict {handling : Handling} (first : handling.verdicts = []) (id : Nat) :
    PassedOn (handling.verdict id .accept) :=
  ⟨_, by rw [Handling.verdict, first, List.nil_append], rfl, rfl⟩

theorem passedOn_mark {handling : Handling} (first : handling.verdicts = []) (id : Nat)
    (rule : NetPolicyRule) : PassedOn (handling.verdictWithMark id .accept rule none) :=
  ⟨_, Handling.verdictWithMark_first first _ _ _ _, rfl, rfl⟩

theorem tcpCb_verdict {store : MicroSegEngine}
    (noClauses : ∀ dir key, (store.httpPolicy dir).lookup key = none) (tuple : FiveTuple)
    (decision : PacketDecision) (now : Nat) {handling : Handling}
    (untracked : handling.manager.microsegTracked decision = false)
    (first : handling.verdicts = []) :
    (Heeded msg decision →
      (tcpCb env side store msg tuple decision now handling).verdicts =
        [verdictOf msg.id (matchMicroPolicyRule env.order store tuple side.dir).rule]) ∧
      (¬Heeded msg decision → PassedOn (tcpCb env side store msg tuple decision now handling)) := by
  have settled := (settle_verdicts env msg decision now handling).trans first
  constructor
  · intro heeded
    rw [tcpCb_untracked _ _ _ _ _ _ _ _ heeded.1 untracked,
      untrackedCb_verdicts env side msg noClauses _ _ heeded.2, settled]
    rfl
  · intro unheeded
    by_cases ignored : decision.kind = .ignore
    · rw [tcpCb_ignored _ _ _ _ _ _ _ _ ignored]
      exact passedOn_mark first _ _
    · rw [tcpCb_untracked _ _ _ _ _ _ _ _ ignored untracked,
        untrackedCb_silent env side msg _ _ (fun loud => unheeded ⟨ignored, loud⟩)]
      exact passedOn_mark settled _ _

theorem micro_receive (manager : ConnectionManager) (pkg : List UInt8) (now : Nat) :
    (manager.receive pkg true now).1.micro = manager.micro := by
  unfold ConnectionManager.receive
  dsimp only
  split <;> rfl

theorem Follows.verdict (follows : Follows daemon book) (queue : Queue) (now : Nat) :
    (Examined daemon queue msg now →
      (daemon.handle env queue msg now).verdicts =
        [verdictOf msg.id
          (matchMicroPolicyRule env.order daemon.microseg msg.tuple queue.side.dir).rule]) ∧
      (¬Examined daemon queue msg now → PassedOn (daemon.handle env queue msg now)) := by
  have tuple := tuple_receive msg now daemon.connMgr
  have micro := micro_receive daemon.connMgr msg.payload now
  rw [DaemonContext.handle, Queue.callback_eq]
  unfold Examined nfqCb
  dsimp only
  rw [show (Handling.start daemon.connMgr).manager = daemon.connMgr from rfl]
  generalize daemon.connMgr.receive msg.payload true now = received at tuple micro ⊢
  rw [tuple]
  cases seen : queue.side.bypasses msg.nfmark with
  | true => exact ⟨fun examined => absurd examined.1 (by decide), fun _ => passedOn_verdict rfl _⟩
  | false =>
      rw [if_neg Bool.false_ne_true]
      by_cases short : msg.payload.length < 20
      · rw [if_pos short]
        exact ⟨fun examined => absurd examined.2.1 (by omega), fun _ => passedOn_verdict rfl _⟩
      rw [if_neg short]
      cases recognized : received.2.tuple.recognized with
      | false =>
          exact ⟨fun examined => absurd examined.2.2.1 (by decide),
            fun _ => passedOn_verdict rfl _⟩
      | true =>
          rw [if_neg (by decide)]
          have long : 20 ≤ msg.payload.length := not_lt.mp short
          by_cases stateless : msg.tuple.proto = ipprotoUdp ∨ msg.tuple.proto = ipprotoIcmp
          · rw [if_pos stateless]
            refine ⟨fun _ => statelessCb_verdicts env _ msg _ _ _, fun unexamined => ?_⟩
            refine absurd ⟨rfl, long, rfl, ?_⟩ unexamined
            exact stateless.imp_right Or.inl
          rw [if_neg stateless]
          by_cases tcp : msg.tuple.proto = ipprotoTcp
          · rw [if_neg (not_not.mpr tcp)]
            have untracked : ((Handling.start daemon.connMgr).withManager
                received.1).manager.microsegTracked received.2.decision = false := by
              change received.1.micro.contains received.2.decision.connId = false
              rw [micro]
              exact follows.untracked _
            obtain ⟨heeded, unheeded⟩ := tcpCb_verdict env queue.side msg follows.noClauses
              msg.tuple received.2.decision now untracked rfl
            constructor
            · intro examined
              rcases examined.2.2.2 with udp | icmp | ⟨-, given⟩
              · exact absurd (Or.inl udp) stateless
              · exact absurd (Or.inr icmp) stateless
              · exact heeded given
            · intro unexamined
              exact unheeded fun given => unexamined ⟨rfl, long, rfl, Or.inr (Or.inr ⟨tcp, given⟩)⟩
          · rw [if_pos tcp]
            refine ⟨fun examined => ?_, fun _ => passedOn_verdict rfl _⟩
            rcases examined.2.2.2 with udp | icmp | ⟨given, -⟩
            · exact absurd (Or.inl udp) stateless
            · exact absurd (Or.inr icmp) stateless
            · exact absurd given tcp

theorem printed_tuple : msg.tuple.Printed := ⟨rfl, rfl⟩

/-- UDP from 10.0.0.1 port 5353 to 10.0.0.2 port 53. -/
def dnsPacket : List UInt8 :=
  [0x45, 0, 0, 28, 0, 0, 0, 0, 64, 17, 0, 0, 10, 0, 0, 1, 10, 0, 0, 2, 20, 233, 0, 53, 0, 8, 0, 0]

def dnsMessage : NfqMessage := { id := 7, nfmark := 0, payload := dnsPacket }

/-- Nothing leaves 10.0.0.1 for the network of 10.0.0.2, except to port 53. -/
def dnsEvents : List DaemonEvent :=
  let rule : PolicyRuleSpec :=
    { action := .deny
      direction := .egress
      protocol := .udp
      httpRules := []
      fromAddresses := ["10.0.0.1"]
      toAddresses := ["10.0.0.0/24"]
      ports := []
      priority := 20 }
  [.control (.addPolicyRule "closed" [rule]),
    .control (.addPolicyRule "dns"
      [{ rule with action := .allow, ports := [⟨53, 53⟩], priority := 10 }])]

end Verdicts

end NetPolicy.Daemon
