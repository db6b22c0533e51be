/-
The policy engine: rule groups, chains, the per-policy tree and the lookup.

Every direction has a chain, keyed by index key, of groups, keyed by policy
name, and a tree that records for each policy name the keys it was added under.
A lookup generates candidate keys from the recorded priorities and prefix
lengths and asks the group of each one in turn.  Which of several matching rules
of one group is found depends on the hash map's iteration order, which is a
parameter here.
-/

import NetPolicy.Library.Containers
import NetPolicy.Library.Runs
import NetPolicy.Policy.Rule

namespace NetPolicy.Policy

/-! ### Groups -/

structure RuleGroup where
  rules : HashMap String RuleDetail

def RuleGroup.new : RuleGroup := ⟨∅⟩

def RuleGroup.addRuleDetail (group : RuleGroup) (rule : RuleDetail) (port : RulePort) :
    RuleGroup :=
  match group.rules.lookup rule.policyKey with
  | none => ⟨group.rules.insert rule.policyKey { rule with ports := [port] }⟩
  | some existing =>
      ⟨group.rules.insert rule.policyKey { existing with ports := existing.ports ++ [port] }⟩

def RuleGroup.deleteRule (group : RuleGroup) (policyName : String) : RuleGroup :=
  ⟨group.rules.erase policyName⟩

def RuleGroup.matchRule (order : IterationOrder RuleDetail) (group : RuleGroup)
    (proto dstPort srcPort : Nat) : Option RuleDetail :=
  (order.visit (HashMap.values group.rules)).find? fun rule => rule.matches proto dstPort srcPort

def RuleGroup.size (group : RuleGroup) : Nat := HashMap.size group.rules

/-! ### Chains -/

structure RuleChain where
  dir : FlowDir
  chain : HashMap String RuleGroup

def RuleChain.new (dir : FlowDir) : RuleChain := ⟨dir, ∅⟩

def RuleChain.size (chain : RuleChain) : Nat := HashMap.size chain.chain

def RuleChain.clear (chain : RuleChain) : RuleChain := { chain with chain := ∅ }

def RuleChain.matchRuleGroup (order : IterationOrder RuleDetail) (chain : RuleChain)
    (key : String) (proto dstPort srcPort : Nat) : Option RuleDetail := do
  let group ← chain.chain.lookup key
  group.matchRule order proto dstPort srcPort

def RuleChain.addRuleToChain (chain : RuleChain) (key : String) (policy : RuleDetail)
    (port : RulePort) : RuleChain :=
  let group := (chain.chain.lookup key).getD RuleGroup.new
  { chain with chain := chain.chain.insert key (group.addRuleDetail policy port) }

def RuleChain.deleteRuleFromChain (chain : RuleChain) (policyName ruleKey : String) :
    RuleChain :=
  match chain.chain.lookup ruleKey with
  | none => chain
  | some group =>
      let remaining := group.deleteRule policyName
      if remaining.size = 0 then { chain with chain := chain.chain.erase ruleKey }
      else { chain with chain := chain.chain.insert ruleKey remaining }

/-! ### Trees -/

structure PolicyTree where
  chain : RuleChain
  tree : HashMap String (HashMap String FlowDir)

def PolicyTree.new (dir : FlowDir) : PolicyTree := ⟨RuleChain.new dir, ∅⟩

def PolicyTree.size (tree : PolicyTree) : Nat := tree.chain.size

def PolicyTree.clear (tree : PolicyTree) : PolicyTree := ⟨tree.chain.clear, ∅⟩

def PolicyTree.addPolicyToChain (tree : PolicyTree) (policy : RuleDetail) (port : RulePort) :
    PolicyTree :=
  let (key, _) := policy.createRuleKey
  let recorded := (tree.tree.lookup policy.policyKey).getD ∅
  { chain := tree.chain.addRuleToChain key policy port
    tree := tree.tree.insert policy.policyKey (recorded.insert key policy.direction) }

def PolicyTree.deletePolicyFromTree (tree : PolicyTree) (name : String) : PolicyTree :=
  match tree.tree.lookup name with
  | none => tree
  | some rules =>
      let remaining : PolicyTree :=
        { chain := rules.keys.foldl (fun chain key => chain.deleteRuleFromChain name key)
            tree.chain
          tree := tree.tree.erase name }
      if HashMap.size remaining.tree = 0 then remaining.clear else remaining

/-! ### The engine -/

structure RustPolicyEngine where
  inputTree : PolicyTree
  outputTree : PolicyTree
  maskCidr : OrderedSet Int
  priority : OrderedSet Int

namespace RustPolicyEngine

def new : RustPolicyEngine :=
  { inputTree := PolicyTree.new .ingress
    outputTree := PolicyTree.new .egress
    maskCidr := OrderedSet.empty.insert 32
    priority := OrderedSet.empty }

def tree (engine : RustPolicyEngine) : FlowDir → PolicyTree
  | .ingress => engine.inputTree
  | .egress => engine.outputTree

def setTree (engine : RustPolicyEngine) (dir : FlowDir) (tree : PolicyTree) :
    RustPolicyEngine :=
  match dir with
  | .ingress => { engine with inputTree := tree }
  | .egress => { engine with outputTree := tree }

def addMaskAndPriority (engine : RustPolicyEngine) (priority mask : Int) : RustPolicyEngine :=
  { engine with
    priority := engine.priority.insert priority
    maskCidr := if mask > 0 ∧ mask ≤ 32 then engine.maskCidr.insert mask else engine.maskCidr }

def addPolicy (engine : RustPolicyEngine) (policy : RuleDetail) (port : RulePort) :
    RustPolicyEngine :=
  let (_, mask) := policy.createRuleKey
  let dir := policy.direction
  (engine.setTree dir ((engine.tree dir).addPolicyToChain policy port)).addMaskAndPriority
    policy.priority mask

def deletePolicy (engine : RustPolicyEngine) (dir : FlowDir) (name : String) :
    RustPolicyEngine :=
  engine.setTree dir ((engine.tree dir).deletePolicyFromTree name)

def clearCfg (engine : RustPolicyEngine) : RustPolicyEngine :=
  { inputTree := engine.inputTree.clear
    outputTree := engine.outputTree.clear
    maskCidr := OrderedSet.empty.insert 32
    priority := OrderedSet.empty }

/-- The candidate keys of one packet: for every priority two keys for the
any-address and two for every prefix length, protocol first and then "0". -/
def createRuleKeyByTuple (engine : RustPolicyEngine) (proto : Nat) (srcAddr dstAddr : String)
    (dir : FlowDir) : List String :=
  let ingress := dir = .ingress
  let cidrAddr := if ingress then srcAddr else dstAddr
  let exactAddr := if ingress then dstAddr else srcAddr
  let protoStr := toString proto
  engine.priority.elements.flatMap fun priority =>
    let protoPfx := toString priority ++ "-" ++ protoStr ++ "-"
    let proto0Pfx := toString priority ++ "-0-"
    let wildcardSuffix :=
      if ingress then "0.0.0.0/32-" ++ exactAddr else exactAddr ++ "-0.0.0.0/32"
    [protoPfx ++ wildcardSuffix, proto0Pfx ++ wildcardSuffix] ++
      engine.maskCidr.elements.flatMap fun mask =>
        let cidr := ipv4CidrToIp cidrAddr mask ++ "/" ++ toString mask
        let cidrSuffix := if ingress then cidr ++ "-" ++ exactAddr else exactAddr ++ "-" ++ cidr
        [protoPfx ++ cidrSuffix, proto0Pfx ++ cidrSuffix]

def matchFiveTuple (order : IterationOrder RuleDetail) (engine : RustPolicyEngine)
    (proto dstPort srcPort : Nat) (srcAddr dstAddr : String) (dir : FlowDir) :
    Option RuleDetail :=
  let tree := engine.tree dir
  if tree.size = 0 then none
  else (engine.createRuleKeyByTuple proto srcAddr dstAddr dir).findSome? fun key =>
    tree.chain.matchRuleGroup order key proto dstPort srcPort

end RustPolicyEngine

/-! ### Histories -/

inductive EngineOp where
  | addPolicy (rule : RuleDetail) (port : RulePort)
  | deletePolicy (dir : FlowDir) (name : String)
  | clearCfg
deriving DecidableEq

def RustPolicyEngine.apply (engine : RustPolicyEngine) : EngineOp → RustPolicyEngine
  | .addPolicy rule port => engine.addPolicy rule port
  | .deletePolicy dir name => engine.deletePolicy dir name
  | .clearCfg => engine.clearCfg

def RustPolicyEngine.run (engine : RustPolicyEngine) (ops : List EngineOp) : RustPolicyEngine :=
  Runs.run RustPolicyEngine.apply engine ops

/-- One `add_policy` call: the rule and its own port argument. -/
abbrev Addition := RuleDetail × RulePort

def Addition.owner (addition : Addition) : FlowDir × String :=
  (addition.1.direction, addition.1.policyKey)

def liveAfter (live : List Addition) : EngineOp → List Addition
  | .addPolicy rule port => live ++ [(rule, port)]
  | .deletePolicy dir name => live.filter fun addition => addition.owner ≠ (dir, name)
  | .clearCfg => []

def liveAdditions (ops : List EngineOp) : List Addition := Runs.run liveAfter [] ops

end NetPolicy.Policy
