/-
Index keys are unambiguous.

A key is the text of five components: priority, protocol, masked network, prefix
length and the address of the other side, which may be any text.  The text of a
direction determines all five, so a rule answers only for the additions that
share them, and a key generated for a packet meets a rule's key only where the
rule's components are the ones the key was generated from.
-/

import NetPolicy.Policy.Lookup

namespace NetPolicy.Policy

structure KeyComponents where
  priority : Int
  proto : Nat
  network : Ipv4Addr
  mask : Int
  exact : String
deriving DecidableEq, Repr

namespace KeyComponents

def text (direction : FlowDir) (components : KeyComponents) : String :=
  keyText direction components.priority components.proto (formatIpv4Addr components.network)
    components.mask components.exact

/-- The network is written without the characters that separate the fields, so
both layouts can be read back. -/
theorem text_injective (direction : FlowDir) : Function.Injective (text direction) := by
  intro left right same
  have slashless : ∀ address : Ipv4Addr, '/' ∉ (formatIpv4Addr address).toList :=
    not_mem_formatIpv4Addr (by decide) (by decide)
  have hyphenless : ∀ address : Ipv4Addr, '-' ∉ (formatIpv4Addr address).toList :=
    not_mem_formatIpv4Addr (by decide) (by decide)
  obtain ⟨priorityEq, protoEq, ipEq, maskEq, exactEq⟩ :=
    keyText_components_eq (slashless left.network) (slashless right.network)
      (hyphenless left.network) (hyphenless right.network) same
  cases left
  cases right
  simp only [KeyComponents.mk.injEq]
  exact ⟨priorityEq, protoEq, formatIpv4Addr_injective ipEq, maskEq, exactEq⟩

end KeyComponents

/-! ### The components of a rule -/

/-- The network address of a text under a prefix length; a text that is no
address counts as `0.0.0.0`. -/
def maskedAddress (address : String) (mask : Int) : Ipv4Addr :=
  (parseIpv4Addr address).getD 0 &&& netMask mask

def RuleDetail.keyMask (rule : RuleDetail) : Int :=
  (splitCidr rule.cidrIp).2

def RuleDetail.keyNetwork (rule : RuleDetail) : Ipv4Addr :=
  maskedAddress (splitCidr rule.cidrIp).1 rule.keyMask

def RuleDetail.keyComponents (rule : RuleDetail) : KeyComponents where
  priority := rule.priority
  proto := rule.proto
  network := rule.keyNetwork
  mask := rule.keyMask
  exact := rule.exactIp

theorem RuleDetail.createRuleKey_text (rule : RuleDetail) :
    rule.createRuleKey.1 = rule.keyComponents.text rule.direction := by
  rw [RuleDetail.createRuleKey_eq]
  rfl

/-! ### The components of a packet's keys -/

/-- What the keys of one priority are made of: any network first, then the
address under every recorded prefix length, each for the packet's protocol and
for protocol 0. -/
def RustPolicyEngine.componentsAt (engine : RustPolicyEngine) (proto : Nat)
    (srcAddr dstAddr : String) (dir : FlowDir) (priority : Int) : List KeyComponents :=
  let exact := exactSide dir srcAddr dstAddr
  let address := cidrSide dir srcAddr dstAddr
  [⟨priority, proto, 0, 32, exact⟩, ⟨priority, 0, 0, 32, exact⟩] ++
    engine.maskCidr.elements.flatMap fun mask =>
      [⟨priority, proto, maskedAddress address mask, mask, exact⟩,
        ⟨priority, 0, maskedAddress address mask, mask, exact⟩]

def RustPolicyEngine.packetComponents (engine : RustPolicyEngine) (proto : Nat)
    (srcAddr dstAddr : String) (dir : FlowDir) : List KeyComponents :=
  engine.priority.elements.flatMap (engine.componentsAt proto srcAddr dstAddr dir)

theorem RustPolicyEngine.keysAt_eq_map (engine : RustPolicyEngine) (proto : Nat)
    (srcAddr dstAddr : String) (dir : FlowDir) (priority : Int) :
    engine.keysAt proto srcAddr dstAddr dir priority =
      (engine.componentsAt proto srcAddr dstAddr dir priority).map (KeyComponents.text dir) := by
  have any : formatIpv4Addr 0 = "0.0.0.0" := by decide
  simp only [keysAt, componentsAt, List.map_append, List.map_cons, List.map_nil,
    List.map_flatMap, KeyComponents.text, any]
  rfl

theorem RustPolicyEngine.createRuleKeyByTuple_eq_map (engine : RustPolicyEngine) (proto : Nat)
    (srcAddr dstAddr : String) (dir : FlowDir) :
    engine.createRuleKeyByTuple proto srcAddr dstAddr dir =
      (engine.packetComponents proto srcAddr dstAddr dir).map (KeyComponents.text dir) := by
  rw [createRuleKeyByTuple_eq, packetComponents, List.map_flatMap]
  congr 1
  funext priority
  exact engine.keysAt_eq_map proto srcAddr dstAddr dir priority

/-! ### Unambiguous keys -/

theorem ruleKeys_unambiguous (dir : FlowDir) :
    (∀ left right : RuleDetail, left.direction = dir → right.direction = dir →
      (left.createRuleKey.1 = right.createRuleKey.1 ↔
        left.priority = right.priority ∧ left.proto = right.proto ∧
          left.keyNetwork = right.keyNetwork ∧ left.keyMask = right.keyMask ∧
          left.exactIp = right.exactIp)) ∧
    ∀ (engine : RustPolicyEngine) (proto : Nat) (srcAddr dstAddr : String),
      engine.createRuleKeyByTuple proto srcAddr dstAddr dir =
        (engine.packetComponents proto srcAddr dstAddr dir).map (KeyComponents.text dir) ∧
      ∀ components ∈ engine.packetComponents proto srcAddr dstAddr dir,
        ∀ rule : RuleDetail, rule.direction = dir →
          (components.text dir = rule.createRuleKey.1 ↔ components = rule.keyComponents) := by
  refine ⟨?_, ?_⟩
  · intro left right leftDir rightDir
    rw [left.createRuleKey_text, right.createRuleKey_text, leftDir, rightDir,
      (KeyComponents.text_injective dir).eq_iff]
    simp only [RuleDetail.keyComponents, KeyComponents.mk.injEq]
  · intro engine proto srcAddr dstAddr
    refine ⟨engine.createRuleKeyByTuple_eq_map proto srcAddr dstAddr dir, ?_⟩
    intro components _ rule ruleDir
    rw [rule.createRuleKey_text, ruleDir, (KeyComponents.text_injective dir).eq_iff]

end NetPolicy.Policy
