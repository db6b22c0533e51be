/-
What the index lookup finds.

`EngineMatch` is the test the index performs on one addition: protocol and exact
address as written, the masked network read the way `parseCidr` reads it, and the
port.  After any history the lookup succeeds exactly when some live addition of
the direction passes that test, and it answers at the smallest priority among
those that do.
-/

import NetPolicy.Policy.Coherence

namespace NetPolicy.Policy

open SeparatedText

/-! ### Candidate keys -/

def RustPolicyEngine.Candidate (engine : RustPolicyEngine) (address ip : String) (mask : Int) :
    Prop :=
  (ip = "0.0.0.0" ∧ mask = 32) ∨ (mask ∈ engine.maskCidr ∧ ip = ipv4CidrToIp address mask)

def RustPolicyEngine.keysAt (engine : RustPolicyEngine) (proto : Nat) (srcAddr dstAddr : String)
    (dir : FlowDir) (priority : Int) : List String :=
  let exact := exactSide dir srcAddr dstAddr
  let address := cidrSide dir srcAddr dstAddr
  [keyText dir priority proto "0.0.0.0" 32 exact, keyText dir priority 0 "0.0.0.0" 32 exact] ++
    engine.maskCidr.elements.flatMap fun mask =>
      [keyText dir priority proto (ipv4CidrToIp address mask) mask exact,
        keyText dir priority 0 (ipv4CidrToIp address mask) mask exact]

theorem RustPolicyEngine.createRuleKeyByTuple_eq (engine : RustPolicyEngine) (proto : Nat)
    (srcAddr dstAddr : String) (dir : FlowDir) :
    engine.createRuleKeyByTuple proto srcAddr dstAddr dir =
      engine.priority.elements.flatMap (engine.keysAt proto srcAddr dstAddr dir) := by
  have ingressAny : "0.0.0.0/32-" = "0.0.0.0" ++ "/" ++ toString (32 : Int) ++ "-" := by decide
  have egressAny : "-0.0.0.0/32" = "-" ++ "0.0.0.0" ++ "/" ++ toString (32 : Int) := by decide
  have zero : ∀ priority : Int, toString priority ++ "-0-" =
      toString priority ++ "-" ++ toString (0 : Nat) ++ "-" := by
    intro priority
    have zeroText : "-0-" = "-" ++ toString (0 : Nat) ++ "-" := by decide
    rw [zeroText]
    simp only [String.append_assoc]
  unfold createRuleKeyByTuple keysAt
  cases dir with
  | ingress =>
      simp only [zero, ingressAny, if_true, keyText, cidrSide, exactSide, String.append_assoc]
  | egress =>
      simp only [zero, egressAny, reduceCtorEq, if_false, keyText, cidrSide, exactSide,
        String.append_assoc]

theorem RustPolicyEngine.mem_keysAt (engine : RustPolicyEngine) (proto : Nat)
    (srcAddr dstAddr : String) (dir : FlowDir) (priority : Int) (key : String) :
    key ∈ engine.keysAt proto srcAddr dstAddr dir priority ↔
      ∃ ip mask, engine.Candidate (cidrSide dir srcAddr dstAddr) ip mask ∧
        ∃ written, (written = proto ∨ written = 0) ∧
          key = keyText dir priority written ip mask (exactSide dir srcAddr dstAddr) := by
  unfold keysAt Candidate
  simp only [List.mem_append, List.mem_cons, List.not_mem_nil, or_false, List.mem_flatMap]
  constructor
  · rintro ((any | anyZero) | ⟨mask, recorded, masked | maskedZero⟩)
    · exact ⟨_, _, Or.inl ⟨rfl, rfl⟩, proto, Or.inl rfl, any⟩
    · exact ⟨_, _, Or.inl ⟨rfl, rfl⟩, 0, Or.inr rfl, anyZero⟩
    · exact ⟨_, mask, Or.inr ⟨recorded, rfl⟩, proto, Or.inl rfl, masked⟩
    · exact ⟨_, mask, Or.inr ⟨recorded, rfl⟩, 0, Or.inr rfl, maskedZero⟩
  · rintro ⟨ip, mask, ⟨rfl, rfl⟩ | ⟨recorded, rfl⟩, written, rfl | rfl, rfl⟩
    · exact Or.inl (Or.inl rfl)
    · exact Or.inl (Or.inr rfl)
    · exact Or.inr ⟨mask, recorded, Or.inl rfl⟩
    · exact Or.inr ⟨mask, recorded, Or.inr rfl⟩

/-! ### The test on one addition -/

/-- The masked text of a rule is a candidate for the packet address. -/
def EngineFits (cidr address : String) : Prop :=
  parseCidr cidr = ("0.0.0.0", 32) ∨
    (0 < (parseCidr cidr).2 ∧ (parseCidr cidr).2 ≤ 32 ∧
      (parseCidr cidr).1 = ipv4CidrToIp address (parseCidr cidr).2)

structure EngineMatch (rule : RuleDetail) (port : RulePort) (proto dstPort : Nat)
    (srcAddr dstAddr : String) : Prop where
  protoFits : rule.proto = 0 ∨ rule.proto = proto
  exactFits : rule.exactIp = exactSide rule.direction srcAddr dstAddr
  networkFits : EngineFits rule.cidrIp (cidrSide rule.direction srcAddr dstAddr)
  portFits : port.Accepts proto dstPort

private theorem format_separators (address : Ipv4Addr) :
    '/' ∉ (formatIpv4Addr address).toList ∧ '-' ∉ (formatIpv4Addr address).toList :=
  ⟨not_mem_formatIpv4Addr (by decide) (by decide) address,
    not_mem_formatIpv4Addr (by decide) (by decide) address⟩

private theorem candidate_separators {engine : RustPolicyEngine} {address ip : String}
    {mask : Int} (candidate : engine.Candidate address ip mask) :
    '/' ∉ ip.toList ∧ '-' ∉ ip.toList := by
  rcases candidate with ⟨rfl, -⟩ | ⟨-, rfl⟩
  · decide
  · exact format_separators _

/-- A key found among a packet's candidates determines every component of the
rule that was stored under it. -/
theorem components_of_key_mem {engine : RustPolicyEngine} {rule : RuleDetail} {proto : Nat}
    {srcAddr dstAddr : String} {priority : Int}
    (member : rule.key ∈ engine.keysAt proto srcAddr dstAddr rule.direction priority) :
    rule.priority = priority ∧ (rule.proto = 0 ∨ rule.proto = proto) ∧
      rule.exactIp = exactSide rule.direction srcAddr dstAddr ∧
      engine.Candidate (cidrSide rule.direction srcAddr dstAddr) (parseCidr rule.cidrIp).1
        (parseCidr rule.cidrIp).2 := by
  rcases (engine.mem_keysAt proto srcAddr dstAddr rule.direction priority rule.key).mp member with
    ⟨ip, mask, candidate, written, protoChoice, keyEq⟩
  have ownSeparators : '/' ∉ (parseCidr rule.cidrIp).1.toList ∧
      '-' ∉ (parseCidr rule.cidrIp).1.toList := format_separators _
  rcases candidate_separators candidate with ⟨slashFree, hyphenFree⟩
  unfold RuleDetail.key at keyEq
  rw [RuleDetail.createRuleKey_eq] at keyEq
  rcases keyText_components_eq ownSeparators.1 slashFree ownSeparators.2 hyphenFree keyEq with
    ⟨priorityEq, protoEq, ipEq, maskEq, exactEq⟩
  refine ⟨priorityEq, ?_, exactEq, ?_⟩
  · rcases protoChoice with same | any
    · exact Or.inr (protoEq.trans same)
    · exact Or.inl (protoEq.trans any)
  · rw [ipEq, maskEq]
    exact candidate

theorem fields_of_key {rule : RuleDetail} {priority mask : Int} {written : Nat}
    {ip exact : String} (separators : '/' ∉ ip.toList ∧ '-' ∉ ip.toList)
    (same : rule.key = keyText rule.direction priority written ip mask exact) :
    rule.priority = priority ∧ rule.createRuleKey.2 = mask := by
  have ownSeparators : '/' ∉ (parseCidr rule.cidrIp).1.toList ∧
      '-' ∉ (parseCidr rule.cidrIp).1.toList := format_separators _
  unfold RuleDetail.key at same
  rw [RuleDetail.createRuleKey_eq] at same ⊢
  obtain ⟨priorityEq, _, _, maskEq, _⟩ := keyText_components_eq ownSeparators.1 separators.1
    ownSeparators.2 separators.2 same
  exact ⟨priorityEq, maskEq⟩

theorem ipv4CidrToIp_separators (address : String) (mask : Int) :
    '/' ∉ (ipv4CidrToIp address mask).toList ∧ '-' ∉ (ipv4CidrToIp address mask).toList :=
  format_separators _

theorem engineFits_of_candidate {engine : RustPolicyEngine} {live : List Addition}
    (represents : EngineRepresents engine live) {cidr address : String}
    (candidate : engine.Candidate address (parseCidr cidr).1 (parseCidr cidr).2) :
    EngineFits cidr address := by
  rcases candidate with ⟨ipEq, maskEq⟩ | ⟨recorded, ipEq⟩
  · exact Or.inl (Prod.ext ipEq maskEq)
  · have range := represents.maskRange _ recorded
    exact Or.inr ⟨range.1, range.2, ipEq⟩

theorem key_mem_of_engineMatch {engine : RustPolicyEngine} {live : List Addition}
    (represents : EngineRepresents engine live) {addition : Addition}
    (member : addition ∈ live) {port : RulePort} {proto dstPort : Nat} {srcAddr dstAddr : String}
    (fits : EngineMatch addition.1 port proto dstPort srcAddr dstAddr) :
    addition.1.key ∈ engine.keysAt proto srcAddr dstAddr addition.1.direction
      addition.1.priority := by
  have maskEq : addition.1.createRuleKey.2 = (parseCidr addition.1.cidrIp).2 := by
    rw [RuleDetail.createRuleKey_eq]
  apply (engine.mem_keysAt _ _ _ _ _ _).mpr
  refine ⟨(parseCidr addition.1.cidrIp).1, (parseCidr addition.1.cidrIp).2, ?_,
    addition.1.proto, fits.protoFits.symm, ?_⟩
  · rcases fits.networkFits with any | ⟨positive, bound, ipEq⟩
    · exact Or.inl ⟨congrArg Prod.fst any, congrArg Prod.snd any⟩
    · right
      refine ⟨?_, ipEq⟩
      rw [← maskEq] at positive bound ⊢
      exact represents.masks addition member positive bound
  · rw [← fits.exactFits]
    exact congrArg Prod.fst (RuleDetail.createRuleKey_eq addition.1)

/-! ### Groups -/

theorem RuleChain.matchRuleGroup_isSome_iff (order : IterationOrder RuleDetail)
    (chain : RuleChain) (key : String) (proto dstPort srcPort : Nat) :
    (chain.matchRuleGroup order key proto dstPort srcPort).isSome = true ↔
      ∃ name rule, chain.entry key name = some rule ∧
        rule.matches proto dstPort srcPort = true := by
  unfold RuleChain.matchRuleGroup RuleChain.entry
  cases chain.chain.lookup key with
  | none => simp
  | some group =>
      simp only [Option.bind_eq_bind, Option.bind_some, RuleGroup.matchRule]
      rw [order.find?_isSome_iff]
      constructor
      · rintro ⟨rule, member, accepted⟩
        rcases (HashMap.mem_values group.rules rule).mp member with ⟨name, found⟩
        exact ⟨name, rule, found, accepted⟩
      · rintro ⟨name, rule, found, accepted⟩
        exact ⟨rule, (HashMap.mem_values group.rules rule).mpr ⟨name, found⟩, accepted⟩

theorem RuleChain.matchRuleGroup_eq_some {order : IterationOrder RuleDetail}
    {chain : RuleChain} {key : String} {proto dstPort srcPort : Nat} {rule : RuleDetail}
    (found : chain.matchRuleGroup order key proto dstPort srcPort = some rule) :
    ∃ name, chain.entry key name = some rule ∧ rule.matches proto dstPort srcPort = true := by
  unfold RuleChain.matchRuleGroup at found
  unfold RuleChain.entry
  cases groupAt : chain.chain.lookup key with
  | none =>
      rw [groupAt] at found
      contradiction
  | some group =>
      rw [groupAt] at found
      rcases order.find?_eq_some_mem _ _ rule found with ⟨member, accepted⟩
      rcases (HashMap.mem_values group.rules rule).mp member with ⟨name, nameAt⟩
      exact ⟨name, nameAt, accepted⟩

/-! ### One priority -/

section Priority

variable {engine : RustPolicyEngine} {live : List Addition} {dir : FlowDir}
  {proto dstPort srcPort : Nat} {srcAddr dstAddr : String} {priority : Int}

theorem engineMatch_of_key (represents : EngineRepresents engine live) {rule : RuleDetail}
    (direction : rule.direction = dir)
    (generated : rule.key ∈ engine.keysAt proto srcAddr dstAddr dir priority)
    {port : RulePort} (accepts : port.Accepts proto dstPort) :
    EngineMatch rule port proto dstPort srcAddr dstAddr ∧ rule.priority = priority := by
  rw [← direction] at generated
  rcases components_of_key_mem generated with ⟨priorityEq, protoFits, exactFits, candidate⟩
  exact
    ⟨{ protoFits := protoFits
       exactFits := exactFits
       networkFits := engineFits_of_candidate represents candidate
       portFits := accepts }, priorityEq⟩

/-- An entry stored under a candidate key and accepted by the port loop carries
the fields of one live addition and the port of another, of the same policy and
under the same key; both pass the test with that port. -/
theorem engineMatch_of_entry (represents : EngineRepresents engine live)
    {key name : String} {rule : RuleDetail}
    (generated : key ∈ engine.keysAt proto srcAddr dstAddr dir priority)
    (stored : (engine.tree dir).chain.entry key name = some rule)
    (accepted : rule.matches proto dstPort srcPort = true) :
    ∃ first ∈ inDirection dir live, ∃ addition ∈ inDirection dir live,
      rule = { first.1 with ports := rule.ports } ∧ addition.2 ∈ rule.ports ∧
      first.1.key = key ∧ first.1.policyKey = name ∧
      addition.1.key = key ∧ addition.1.policyKey = name ∧
      (EngineMatch first.1 addition.2 proto dstPort srcAddr dstAddr ∧
        first.1.priority = priority) ∧
      (EngineMatch addition.1 addition.2 proto dstPort srcAddr dstAddr ∧
        addition.1.priority = priority) := by
  rw [(represents.trees dir).entry key name] at stored
  rcases merged_eq_some stored with ⟨first, firstMember, firstKey, firstName, ruleEq⟩
  have firstDir := (mem_inDirection.mp firstMember).2
  have firstGenerated : first.1.key ∈ engine.keysAt proto srcAddr dstAddr dir priority := by
    rw [firstKey]
    exact generated
  have ports : rule.ports = (sharing key name (inDirection dir live)).map Prod.snd := by
    rw [ruleEq]
  have nonempty : rule.ports ≠ [] := by
    rw [ports]
    exact List.ne_nil_of_mem
      (List.mem_map_of_mem (mem_sharing.mpr ⟨firstMember, firstKey, firstName⟩))
  have ruleProto : rule.proto = 0 ∨ rule.proto = proto := by
    rw [ruleEq]
    rw [← firstDir] at firstGenerated
    exact (components_of_key_mem firstGenerated).2.1
  rcases (rule.matches_iff proto dstPort srcPort ruleProto nonempty).mp accepted with
    ⟨port, portMember, portAccepts⟩
  have listed := portMember
  rw [ports, List.mem_map] at listed
  rcases listed with ⟨addition, additionShared, rfl⟩
  rcases mem_sharing.mp additionShared with ⟨additionMember, additionKey, additionName⟩
  have additionGenerated : addition.1.key ∈ engine.keysAt proto srcAddr dstAddr dir priority := by
    rw [additionKey]
    exact generated
  refine ⟨first, firstMember, addition, additionMember, ?_, portMember, firstKey, firstName,
    additionKey, additionName, engineMatch_of_key represents firstDir firstGenerated portAccepts,
    engineMatch_of_key represents (mem_inDirection.mp additionMember).2 additionGenerated
      portAccepts⟩
  rw [ruleEq]

theorem findSome?_keysAt_isSome (order : IterationOrder RuleDetail) (srcPort : Nat)
    (represents : EngineRepresents engine live) {addition : Addition}
    (member : addition ∈ live) (direction : addition.1.direction = dir)
    (fits : EngineMatch addition.1 addition.2 proto dstPort srcAddr dstAddr) :
    ((engine.keysAt proto srcAddr dstAddr dir addition.1.priority).findSome? fun key =>
      (engine.tree dir).chain.matchRuleGroup order key proto dstPort srcPort).isSome = true := by
  have generated := key_mem_of_engineMatch represents member fits
  rw [direction] at generated
  have inTree : addition ∈ inDirection dir live := mem_inDirection.mpr ⟨member, direction⟩
  have shared : addition ∈ sharing addition.1.key addition.1.policyKey (inDirection dir live) :=
    mem_sharing.mpr ⟨inTree, rfl, rfl⟩
  rw [List.findSome?_isSome_iff]
  refine ⟨addition.1.key, generated, ?_⟩
  rw [RuleChain.matchRuleGroup_isSome_iff]
  cases stored : merged (inDirection dir live) addition.1.key addition.1.policyKey with
  | none =>
      rw [merged_eq_none_iff] at stored
      exact absurd ⟨rfl, rfl⟩ (stored addition inTree)
  | some rule =>
      refine ⟨addition.1.policyKey, rule, ?_, ?_⟩
      · rw [(represents.trees dir).entry, stored]
      · rcases merged_eq_some stored with ⟨first, firstMember, firstKey, -, ruleEq⟩
        have firstGenerated : first.1.key ∈ engine.keysAt proto srcAddr dstAddr
            first.1.direction addition.1.priority := by
          rw [firstKey, (mem_inDirection.mp firstMember).2]
          exact generated
        have firstProto := (components_of_key_mem firstGenerated).2.1
        have portMember : addition.2 ∈ rule.ports := by
          rw [ruleEq]
          exact List.mem_map_of_mem shared
        have ruleProto : rule.proto = 0 ∨ rule.proto = proto := by
          rw [ruleEq]
          exact firstProto
        exact (rule.matches_iff proto dstPort srcPort ruleProto
          (List.ne_nil_of_mem portMember)).mpr ⟨addition.2, portMember, fits.portFits⟩

end Priority

/-! ### The whole lookup -/

theorem RustPolicyEngine.matchFiveTuple_eq_findSome? (order : IterationOrder RuleDetail)
    (engine : RustPolicyEngine) (proto dstPort srcPort : Nat) (srcAddr dstAddr : String)
    (dir : FlowDir) :
    engine.matchFiveTuple order proto dstPort srcPort srcAddr dstAddr dir =
      engine.priority.elements.findSome? fun priority =>
        (engine.keysAt proto srcAddr dstAddr dir priority).findSome? fun key =>
          (engine.tree dir).chain.matchRuleGroup order key proto dstPort srcPort := by
  unfold matchFiveTuple
  dsimp only
  rw [createRuleKeyByTuple_eq, findSome?_flatMap]
  split
  · -- an empty chain answers no key, so the shortcut changes nothing
    rename_i empty
    have silent : ∀ key, (engine.tree dir).chain.matchRuleGroup order key proto dstPort srcPort =
        none := by
      intro key
      have absent := (HashMap.size_eq_zero_iff _).mp empty key
      unfold RuleChain.matchRuleGroup
      rw [absent]
      rfl
    symm
    simp only [List.findSome?_eq_none_iff, silent, implies_true]
  · rfl

theorem matchFiveTuple_eq_some {order : IterationOrder RuleDetail} {engine : RustPolicyEngine}
    {live : List Addition} (represents : EngineRepresents engine live)
    {proto dstPort srcPort : Nat} {srcAddr dstAddr : String} {dir : FlowDir} {rule : RuleDetail}
    (found : engine.matchFiveTuple order proto dstPort srcPort srcAddr dstAddr dir = some rule) :
    ∃ first ∈ inDirection dir live, ∃ addition ∈ inDirection dir live,
      rule = { first.1 with ports := rule.ports } ∧
      addition.1.key = first.1.key ∧ addition.1.policyKey = first.1.policyKey ∧
      addition.1.priority = first.1.priority ∧
      EngineMatch first.1 addition.2 proto dstPort srcAddr dstAddr ∧
      EngineMatch addition.1 addition.2 proto dstPort srcAddr dstAddr ∧
      ∀ other ∈ inDirection dir live,
        EngineMatch other.1 other.2 proto dstPort srcAddr dstAddr →
        rule.priority ≤ other.1.priority := by
  rw [RustPolicyEngine.matchFiveTuple_eq_findSome?] at found
  rcases List.findSome?_eq_some_iff.mp found with
    ⟨smaller, priority, larger, split, atPriority, silent⟩
  rcases List.findSome?_eq_some_iff.mp atPriority with ⟨earlier, key, later, keysEq, atKey, -⟩
  have generated : key ∈ engine.keysAt proto srcAddr dstAddr dir priority := by
    rw [keysEq]
    simp
  rcases RuleChain.matchRuleGroup_eq_some atKey with ⟨name, stored, accepted⟩
  rcases engineMatch_of_entry represents generated stored accepted with
    ⟨first, firstMember, addition, additionMember, ruleEq, -, firstKey, firstName, additionKey,
      additionName, ⟨firstFits, firstPriority⟩, additionFits, additionPriority⟩
  have rulePriority : rule.priority = priority := by
    rw [ruleEq]
    exact firstPriority
  refine ⟨first, firstMember, addition, additionMember, ruleEq, additionKey.trans firstKey.symm,
    additionName.trans firstName.symm, additionPriority.trans firstPriority.symm, firstFits,
    additionFits, ?_⟩
  intro other otherMember otherFits
  rcases mem_inDirection.mp otherMember with ⟨otherLive, otherDir⟩
  -- a smaller priority stands earlier in the increasing list, where nothing answered
  by_contra smallerPriority
  have less : other.1.priority < priority := by
    rw [← rulePriority]
    exact not_le.mp smallerPriority
  have answered := findSome?_keysAt_isSome order srcPort represents otherLive otherDir otherFits
  have listed : other.1.priority ∈ smaller ++ priority :: larger := by
    rw [← split]
    exact represents.priorities other otherLive
  have increasing := engine.priority.increasing
  rw [split] at increasing
  rcases List.mem_append.mp listed with before | after
  · rw [silent other.1.priority before] at answered
    contradiction
  · have above := (List.pairwise_append.mp increasing).2.1
    rcases List.mem_cons.mp after with same | later
    · exact absurd same (ne_of_lt less)
    · exact absurd (List.rel_of_pairwise_cons above later) (not_lt.mpr (le_of_lt less))

theorem matchFiveTuple_isSome (order : IterationOrder RuleDetail) (srcPort : Nat)
    {engine : RustPolicyEngine} {live : List Addition} (represents : EngineRepresents engine live)
    {proto dstPort : Nat} {srcAddr dstAddr : String} {addition : Addition}
    (member : addition ∈ live)
    (fits : EngineMatch addition.1 addition.2 proto dstPort srcAddr dstAddr) :
    ∃ rule, engine.matchFiveTuple order proto dstPort srcPort srcAddr dstAddr
      addition.1.direction = some rule := by
  rw [← Option.isSome_iff_exists, RustPolicyEngine.matchFiveTuple_eq_findSome?,
    List.findSome?_isSome_iff]
  exact ⟨addition.1.priority, represents.priorities addition member,
    findSome?_keysAt_isSome order srcPort represents member rfl fits⟩

/-! ### Rules the trees hold -/

/-- A rule of the direction's tree passes the test with one of its ports. -/
def RustPolicyEngine.Covers (engine : RustPolicyEngine) (proto dstPort : Nat)
    (srcAddr dstAddr : String) (dir : FlowDir) (rule : RuleDetail) : Prop :=
  (∃ key name, (engine.tree dir).chain.entry key name = some rule) ∧
    ∃ port ∈ rule.ports, EngineMatch rule port proto dstPort srcAddr dstAddr

section Covers

variable {order : IterationOrder RuleDetail} {engine : RustPolicyEngine} {live : List Addition}
  (represents : EngineRepresents engine live) {proto dstPort srcPort : Nat}
  {srcAddr dstAddr : String} {dir : FlowDir} {rule other : RuleDetail}

include represents

theorem addition_of_covers (covers : engine.Covers proto dstPort srcAddr dstAddr dir rule) :
    ∃ addition ∈ inDirection dir live,
      EngineMatch addition.1 addition.2 proto dstPort srcAddr dstAddr ∧
        addition.1.priority = rule.priority := by
  obtain ⟨⟨key, name, stored⟩, port, portMember, fits⟩ := covers
  rw [(represents.trees dir).entry key name] at stored
  obtain ⟨first, firstMember, firstKey, firstName, rfl⟩ := merged_eq_some stored
  obtain ⟨addition, shared, rfl⟩ := List.mem_map.mp portMember
  obtain ⟨additionMember, additionKey, -⟩ := mem_sharing.mp shared
  obtain ⟨firstLive, firstDir⟩ := mem_inDirection.mp firstMember
  have firstFits : EngineMatch first.1 addition.2 proto dstPort srcAddr dstAddr :=
    ⟨fits.protoFits, fits.exactFits, fits.networkFits, fits.portFits⟩
  have generated := key_mem_of_engineMatch represents firstLive firstFits
  rw [firstDir, firstKey, ← additionKey] at generated
  exact ⟨addition, additionMember, engineMatch_of_key represents
    (mem_inDirection.mp additionMember).2 generated fits.portFits⟩

theorem covers_of_match
    (found : engine.matchFiveTuple order proto dstPort srcPort srcAddr dstAddr dir = some rule) :
    engine.Covers proto dstPort srcAddr dstAddr dir rule := by
  rw [RustPolicyEngine.matchFiveTuple_eq_findSome?] at found
  obtain ⟨_, priority, _, _, atPriority, _⟩ := List.findSome?_eq_some_iff.mp found
  obtain ⟨_, key, _, keysEq, atKey, _⟩ := List.findSome?_eq_some_iff.mp atPriority
  have generated : key ∈ engine.keysAt proto srcAddr dstAddr dir priority := by
    rw [keysEq]
    simp
  obtain ⟨name, stored, accepted⟩ := RuleChain.matchRuleGroup_eq_some atKey
  obtain ⟨first, _, addition, _, ruleEq, port, _, _, _, _, ⟨fits, _⟩, _⟩ :=
    engineMatch_of_entry represents generated stored accepted
  refine ⟨⟨key, name, stored⟩, addition.2, port, ?_⟩
  rw [ruleEq]
  exact ⟨fits.protoFits, fits.exactFits, fits.networkFits, fits.portFits⟩

theorem priority_le_of_covers
    (found : engine.matchFiveTuple order proto dstPort srcPort srcAddr dstAddr dir = some rule)
    (covers : engine.Covers proto dstPort srcAddr dstAddr dir other) :
    rule.priority ≤ other.priority := by
  obtain ⟨addition, member, fits, priority⟩ := addition_of_covers represents covers
  obtain ⟨_, _, _, _, _, _, _, _, _, _, least⟩ := matchFiveTuple_eq_some represents found
  rw [← priority]
  exact least addition member fits

theorem match_of_covers (order : IterationOrder RuleDetail) (srcPort : Nat)
    (covers : engine.Covers proto dstPort srcAddr dstAddr dir rule) :
    ∃ answer, engine.matchFiveTuple order proto dstPort srcPort srcAddr dstAddr dir =
      some answer := by
  obtain ⟨addition, member, fits, -⟩ := addition_of_covers represents covers
  obtain ⟨additionLive, rfl⟩ := mem_inDirection.mp member
  exact matchFiveTuple_isSome order srcPort represents additionLive fits

end Covers

end NetPolicy.Policy
