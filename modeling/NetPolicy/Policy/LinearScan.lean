/-
The index refines a linear scan.

The scan keeps every live addition whose rule and own port match the packet by
plain reading: text denotes an address or a network, and a network contains
addresses.  When every rule's masked text denotes a network of at least one bit,
the index answers exactly when the scan keeps something, and at the smallest
priority the scan kept.
-/

import NetPolicy.Policy.Lookup

namespace NetPolicy.Policy

/-! ### Plain semantics -/

instance (network : Network) (address : Ipv4Addr) : Decidable (network.Contains address) :=
  inferInstanceAs (Decidable (_ = _))

/-- The text denotes the any-address, or a network that contains the address. -/
def addressFits (text address : String) : Bool :=
  (denoteNetwork? text).any fun network =>
    network = Network.anyAddress ∨
      (parseIpv4Addr address).any fun value => network.Contains value

def plainMatch (addition : Addition) (proto dstPort : Nat) (srcAddr dstAddr : String) : Bool :=
  (addition.1.proto = 0 ∨ addition.1.proto = proto) ∧
    addition.1.exactIp = exactSide addition.1.direction srcAddr dstAddr ∧
    addressFits addition.1.cidrIp (cidrSide addition.1.direction srcAddr dstAddr) ∧
    addition.2.Accepts proto dstPort

def linearScan (live : List Addition) (proto dstPort : Nat) (srcAddr dstAddr : String)
    (dir : FlowDir) : List Addition :=
  live.filter fun addition =>
    addition.1.direction = dir ∧ plainMatch addition proto dstPort srcAddr dstAddr

theorem mem_linearScan {live : List Addition} {proto dstPort : Nat} {srcAddr dstAddr : String}
    {dir : FlowDir} {addition : Addition} :
    addition ∈ linearScan live proto dstPort srcAddr dstAddr dir ↔
      addition ∈ live ∧ addition.1.direction = dir ∧
        plainMatch addition proto dstPort srcAddr dstAddr = true := by
  unfold linearScan
  rw [List.mem_filter, decide_eq_true_eq]

/-! ### The engine's reading of an address -/

theorem parseCidr_eq_any_iff {text : String} {network : Network}
    (denotes : denoteNetwork? text = some network) :
    parseCidr text = ("0.0.0.0", 32) ↔ network = Network.anyAddress := by
  have anyText : "0.0.0.0" = formatIpv4Addr 0 := by decide
  rw [parseCidr_eq_of_denote denotes, anyText, Prod.mk.injEq]
  constructor
  · intro same
    have full : network.length = 32 := by omega
    have zero := formatIpv4Addr_injective same.1
    have unmasked := (and_netMask_eq_iff network.address 0 (by decide : 0 < 32) le_rfl).mp
    rw [full] at zero
    have value := unmasked (by rw [zero]; decide)
    cases network with
    | mk address length bound =>
        cases full
        have addressZero : address = 0 := by
          apply BitVec.eq_of_toNat_eq
          simpa using value
        cases addressZero
        rfl
  · intro any
    rw [any]
    decide

/-- On text that denotes a network of at least one bit, the index test and the
plain reading agree about every well-formed address. -/
theorem engineFits_iff_addressFits {text address : String} {network : Network}
    (denotes : denoteNetwork? text = some network) (positive : 1 ≤ network.length)
    (readable : (parseIpv4Addr address).isSome = true) :
    EngineFits text address ↔ addressFits text address = true := by
  rcases Option.isSome_iff_exists.mp readable with ⟨value, parsed⟩
  have masked : (parseCidr text).1 = ipv4CidrToIp address (parseCidr text).2 ↔
      network.Contains value := by
    rw [parseCidr_eq_of_denote denotes]
    unfold ipv4CidrToIp Network.Contains
    rw [parsed, Option.getD_some, formatIpv4Addr_injective.eq_iff,
      and_netMask_eq_iff _ _ positive network.length_le]
    exact eq_comm
  have range : 0 < (parseCidr text).2 ∧ (parseCidr text).2 ≤ 32 := by
    rw [parseCidr_eq_of_denote denotes]
    have := network.length_le
    constructor <;> dsimp only <;> omega
  unfold EngineFits addressFits
  rw [parseCidr_eq_any_iff denotes, masked, denotes, parsed]
  simp [range]

/-- The masked side of the rule denotes a network of at least one bit. -/
def RuleDetail.Denoting (rule : RuleDetail) : Prop :=
  ∃ network, denoteNetwork? rule.cidrIp = some network ∧ 1 ≤ network.length

theorem engineMatch_iff_plainMatch {addition : Addition} {proto dstPort : Nat}
    {srcAddr dstAddr : String} (denoting : addition.1.Denoting)
    (readable : (parseIpv4Addr (cidrSide addition.1.direction srcAddr dstAddr)).isSome = true) :
    EngineMatch addition.1 addition.2 proto dstPort srcAddr dstAddr ↔
      plainMatch addition proto dstPort srcAddr dstAddr = true := by
  rcases denoting with ⟨network, denotes, positive⟩
  have networkFits := engineFits_iff_addressFits denotes positive readable
  unfold plainMatch
  rw [decide_eq_true_eq]
  constructor
  · intro fits
    exact ⟨fits.protoFits, fits.exactFits, networkFits.mp fits.networkFits, fits.portFits⟩
  · intro fits
    exact
      { protoFits := fits.1
        exactFits := fits.2.1
        networkFits := networkFits.mpr fits.2.2.1
        portFits := fits.2.2.2 }

/-! ### Live additions were added -/

theorem added_of_live {ops : List EngineOp} {addition : Addition}
    (live : addition ∈ liveAdditions ops) : EngineOp.addPolicy addition.1 addition.2 ∈ ops := by
  induction ops using List.reverseRecOn with
  | nil => cases live
  | append_singleton earlier op ih =>
      unfold liveAdditions at live
      rw [Runs.run_append] at live
      rw [List.mem_append, List.mem_singleton]
      cases op with
      | addPolicy rule port =>
          rcases List.mem_append.mp live with before | now
          · exact Or.inl (ih before)
          · rw [List.mem_singleton] at now
            rw [now]
            exact Or.inr rfl
      | deletePolicy dir name => exact Or.inl (ih (List.mem_of_mem_filter live))
      | clearCfg => cases live

/-! ### Refinement -/

section Refinement

variable {order : IterationOrder RuleDetail} {engine : RustPolicyEngine} {live : List Addition}
  {proto dstPort srcPort : Nat} {srcAddr dstAddr : String} {dir : FlowDir}

/-- Where the index test agrees with the plain one on every live addition, the
lookup's priority is the least of the scan's. -/
theorem matchFiveTuple_priority (represents : EngineRepresents engine live)
    (agree : ∀ addition ∈ live,
      EngineMatch addition.1 addition.2 proto dstPort srcAddr dstAddr ↔
        plainMatch addition proto dstPort srcAddr dstAddr = true) :
    (engine.matchFiveTuple order proto dstPort srcPort srcAddr dstAddr dir).map
        RuleDetail.priority =
      ((linearScan live proto dstPort srcAddr dstAddr dir).map
        fun addition => addition.1.priority).min? := by
  cases found : engine.matchFiveTuple order proto dstPort srcPort srcAddr dstAddr dir with
  | none =>
      have empty : linearScan live proto dstPort srcAddr dstAddr dir = [] := by
        rw [List.eq_nil_iff_forall_not_mem]
        intro addition member
        rcases mem_linearScan.mp member with ⟨additionLive, rfl, plain⟩
        rcases matchFiveTuple_isSome order srcPort represents additionLive
          ((agree addition additionLive).mpr plain) with ⟨rule, answer⟩
        rw [found] at answer
        contradiction
      rw [empty]
      rfl
  | some rule =>
      rcases matchFiveTuple_eq_some represents found with
        ⟨first, -, addition, member, ruleEq, -, -, samePriority, -, fits, least⟩
      rcases mem_inDirection.mp member with ⟨additionLive, additionDir⟩
      have priorityEq : addition.1.priority = rule.priority := by
        rw [ruleEq]
        exact samePriority
      symm
      rw [Option.map_some, List.min?_eq_some_iff]
      constructor
      · rw [List.mem_map]
        exact ⟨addition, mem_linearScan.mpr
          ⟨additionLive, additionDir, (agree addition additionLive).mp fits⟩, priorityEq⟩
      · intro priority listed
        rcases List.mem_map.mp listed with ⟨other, kept, rfl⟩
        rcases mem_linearScan.mp kept with ⟨otherLive, otherDir, plain⟩
        exact least other (mem_inDirection.mpr ⟨otherLive, otherDir⟩)
          ((agree other otherLive).mpr plain)

theorem proto_fits_of_candidate (represents : EngineRepresents engine live) {key name : String}
    {rule : RuleDetail}
    (generated : key ∈ engine.createRuleKeyByTuple proto srcAddr dstAddr dir)
    (stored : (engine.tree dir).chain.entry key name = some rule) :
    rule.proto = 0 ∨ rule.proto = proto := by
  rw [RustPolicyEngine.createRuleKeyByTuple_eq, List.mem_flatMap] at generated
  rcases generated with ⟨priority, -, atPriority⟩
  rw [(represents.trees dir).entry key name] at stored
  rcases merged_eq_some stored with ⟨first, firstMember, rfl, -, ruleEq⟩
  rw [← (mem_inDirection.mp firstMember).2] at atPriority
  rw [ruleEq]
  exact (components_of_key_mem atPriority).2.1

end Refinement

/-- Along every history of well-formed additions, the lookup answers at the
smallest priority of the linear scan and is silent exactly when the scan is
empty.  Every stored rule a candidate key reaches already fits the packet's
protocol, so the ICMP override adds nothing, and every live rule's priority and
prefix length are recorded. -/
theorem matchFiveTuple_refines_linearScan (order : IterationOrder RuleDetail)
    (ops : List EngineOp)
    (denoting : ∀ rule port, EngineOp.addPolicy rule port ∈ ops → rule.Denoting)
    (proto dstPort srcPort : Nat) (srcAddr dstAddr : String) (dir : FlowDir)
    (srcReadable : (parseIpv4Addr srcAddr).isSome = true)
    (dstReadable : (parseIpv4Addr dstAddr).isSome = true) :
    ((RustPolicyEngine.new.run ops).matchFiveTuple order proto dstPort srcPort srcAddr dstAddr
        dir).map RuleDetail.priority =
      ((linearScan (liveAdditions ops) proto dstPort srcAddr dstAddr dir).map
        fun addition => addition.1.priority).min? ∧
    (∀ key ∈ (RustPolicyEngine.new.run ops).createRuleKeyByTuple proto srcAddr dstAddr dir,
      ∀ name rule, ((RustPolicyEngine.new.run ops).tree dir).chain.entry key name = some rule →
        rule.proto = 0 ∨ rule.proto = proto) ∧
    (∀ addition ∈ liveAdditions ops,
      addition.1.priority ∈ (RustPolicyEngine.new.run ops).priority ∧
        (parseCidr addition.1.cidrIp).2 ∈ (RustPolicyEngine.new.run ops).maskCidr) := by
  have represents := engineRepresents_run ops
  refine ⟨?_, ?_, ?_⟩
  · apply matchFiveTuple_priority represents
    intro addition live
    apply engineMatch_iff_plainMatch (denoting _ _ (added_of_live live))
    cases addition.1.direction with
    | ingress => exact srcReadable
    | egress => exact dstReadable
  · intro key generated name rule stored
    exact proto_fits_of_candidate represents generated stored
  · intro addition live
    refine ⟨represents.priorities addition live, ?_⟩
    rcases denoting _ _ (added_of_live live) with ⟨network, denotes, positive⟩
    have maskEq : addition.1.createRuleKey.2 = (network.length : Int) := by
      rw [RuleDetail.createRuleKey_eq, parseCidr_eq_of_denote denotes]
    have bound := network.length_le
    rw [parseCidr_eq_of_denote denotes, ← maskEq]
    apply represents.masks addition live
    · rw [maskEq]
      omega
    · rw [maskEq]
      omega

def webRule : RuleDetail :=
  { proto := 6
    priority := 100
    addrType := 0
    direction := .ingress
    action := 1
    actionDsc := "allow"
    policyKey := "web"
    srcIp := "10.0.0.0/8"
    dstIp := "192.168.1.5"
    ports := [] }

def webPort : RulePort := { endPort := 80, port := 80, proto := 6 }

def webHistory : List EngineOp :=
  [.addPolicy webRule webPort,
    .addPolicy { webRule with priority := 7, policyKey := "old" } webPort,
    .addPolicy { webRule with priority := 50, proto := 0, srcIp := "0.0.0.0" } webPort,
    .deletePolicy .ingress "old"]

/-- The narrow rule and the any-address rule both match, and the deleted policy
of higher rank no longer does. -/
theorem webHistory_refines_linearScan :
    ((RustPolicyEngine.new.run webHistory).matchFiveTuple .stored 6 80 40000 "10.1.2.3"
      "192.168.1.5" .ingress).map RuleDetail.priority = some 50 := by
  have denoting : ∀ rule port, EngineOp.addPolicy rule port ∈ webHistory → rule.Denoting := by
    intro rule port member
    unfold webHistory at member
    simp only [List.mem_cons, EngineOp.addPolicy.injEq, List.not_mem_nil, or_false,
      reduceCtorEq] at member
    rcases member with ⟨rfl, -⟩ | ⟨rfl, -⟩ | ⟨rfl, -⟩
    · exact ⟨⟨0x0a000000#32, 8, by decide⟩, by decide, by decide⟩
    · exact ⟨⟨0x0a000000#32, 8, by decide⟩, by decide, by decide⟩
    · exact ⟨Network.anyAddress, by decide, by decide⟩
  have refined := matchFiveTuple_refines_linearScan .stored webHistory denoting 6 80 40000
    "10.1.2.3" "192.168.1.5" .ingress (by decide) (by decide)
  rw [refined.1]
  decide

end NetPolicy.Policy
