/-
Rules, their index keys, and the port test.

A rule's key is text: priority, protocol, masked network and the address of the
other side.  Which side is masked depends on the direction.  The keys of two
rules are equal exactly when these components are.
-/

import NetPolicy.Policy.Ipv4

namespace NetPolicy.Policy

open SeparatedText

inductive FlowDir where
  | ingress
  | egress
deriving DecidableEq, Repr

structure RulePort where
  endPort : Nat
  port : Nat
  proto : Nat
deriving DecidableEq, Repr

structure RuleDetail where
  proto : Nat
  priority : Int
  addrType : Int
  direction : FlowDir
  action : Nat
  actionDsc : String
  policyKey : String
  srcIp : String
  dstIp : String
  ports : List RulePort
deriving DecidableEq, Repr

def ipprotoIcmp : Nat := 1

/-! ### Index keys -/

def RuleDetail.createRuleKey (rule : RuleDetail) : String × Int :=
  match rule.direction with
  | .ingress =>
      let (ip, mask) := parseCidr rule.srcIp
      (toString rule.priority ++ "-" ++ toString rule.proto ++ "-" ++ ip ++ "/" ++
        toString mask ++ "-" ++ rule.dstIp, mask)
  | .egress =>
      let (ip, mask) := parseCidr rule.dstIp
      (toString rule.priority ++ "-" ++ toString rule.proto ++ "-" ++ rule.srcIp ++ "-" ++
        ip ++ "/" ++ toString mask, mask)

/-- The address that is masked, and the one that must be equal. -/
def cidrSide (direction : FlowDir) (source destination : String) : String :=
  match direction with
  | .ingress => source
  | .egress => destination

def exactSide (direction : FlowDir) (source destination : String) : String :=
  match direction with
  | .ingress => destination
  | .egress => source

def RuleDetail.cidrIp (rule : RuleDetail) : String :=
  cidrSide rule.direction rule.srcIp rule.dstIp

def RuleDetail.exactIp (rule : RuleDetail) : String :=
  exactSide rule.direction rule.srcIp rule.dstIp

def keyText (direction : FlowDir) (priority : Int) (proto : Nat) (ip : String) (mask : Int)
    (exact : String) : String :=
  match direction with
  | .ingress =>
      toString priority ++ "-" ++ toString proto ++ "-" ++ ip ++ "/" ++ toString mask ++
        "-" ++ exact
  | .egress =>
      toString priority ++ "-" ++ toString proto ++ "-" ++ exact ++ "-" ++ ip ++ "/" ++
        toString mask

theorem RuleDetail.createRuleKey_eq (rule : RuleDetail) :
    rule.createRuleKey =
      (keyText rule.direction rule.priority rule.proto (parseCidr rule.cidrIp).1
        (parseCidr rule.cidrIp).2 rule.exactIp, (parseCidr rule.cidrIp).2) := by
  unfold createRuleKey cidrIp exactIp cidrSide exactSide keyText
  cases rule.direction <;> rfl

private theorem leading_fields_eq {leftPriority rightPriority : Int}
    {leftProto rightProto : Nat} {leftRest rightRest : List Char}
    (equality :
      (toString leftPriority).toList ++ '-' ::
          (leftProto.repr.toList ++ '-' :: leftRest) =
        (toString rightPriority).toList ++ '-' ::
          (rightProto.repr.toList ++ '-' :: rightRest)) :
    leftPriority = rightPriority ∧ leftProto = rightProto ∧ leftRest = rightRest := by
  rcases signed_fields_eq equality with ⟨priorityEq, afterPriority⟩
  rcases left_fields_eq (not_mem_repr (by decide) leftProto)
    (not_mem_repr (by decide) rightProto) afterPriority with ⟨protoText, restEq⟩
  have protoEq := congrArg parseDecimal protoText
  rw [parseDecimal_repr, parseDecimal_repr] at protoEq
  exact ⟨priorityEq, Option.some.inj protoEq, restEq⟩

/-- A network text with neither a slash nor a hyphen can be read back from the
key in either layout, whatever text stands on the exact side. -/
theorem keyText_components_eq {direction : FlowDir} {leftPriority rightPriority : Int}
    {leftProto rightProto : Nat} {leftIp rightIp : String} {leftMask rightMask : Int}
    {leftExact rightExact : String}
    (leftSlash : '/' ∉ leftIp.toList) (rightSlash : '/' ∉ rightIp.toList)
    (leftHyphen : '-' ∉ leftIp.toList) (rightHyphen : '-' ∉ rightIp.toList)
    (equality : keyText direction leftPriority leftProto leftIp leftMask leftExact =
      keyText direction rightPriority rightProto rightIp rightMask rightExact) :
    leftPriority = rightPriority ∧ leftProto = rightProto ∧ leftIp = rightIp ∧
      leftMask = rightMask ∧ leftExact = rightExact := by
  have characters := congrArg String.toList equality
  cases direction with
  | ingress =>
      simp only [keyText, String.toList_append, Nat.toString_eq_repr, String.reduceToList,
        List.append_assoc, List.cons_append, List.nil_append] at characters
      rcases leading_fields_eq characters with ⟨priorityEq, protoEq, afterProto⟩
      rcases left_fields_eq leftSlash rightSlash afterProto with ⟨ipEq, afterIp⟩
      rcases signed_fields_eq afterIp with ⟨maskEq, exactEq⟩
      exact ⟨priorityEq, protoEq, String.toList_inj.mp ipEq, maskEq, String.toList_inj.mp exactEq⟩
  | egress =>
      simp only [keyText, String.toList_append, Nat.toString_eq_repr, String.reduceToList,
        List.append_assoc, List.cons_append, List.nil_append] at characters
      rcases leading_fields_eq characters with ⟨priorityEq, protoEq, afterProto⟩
      -- the exact side is free text, so the tail is read from the right
      have slashEnds : ∀ mask : Int, '/' ∉ (toString mask).toList :=
        not_mem_signed (by decide) (by decide)
      have regrouped :
          (leftExact.toList ++ '-' :: leftIp.toList) ++ '/' :: (toString leftMask).toList =
            (rightExact.toList ++ '-' :: rightIp.toList) ++
              '/' :: (toString rightMask).toList := by
        simpa using afterProto
      rcases right_fields_eq (slashEnds leftMask) (slashEnds rightMask) regrouped with
        ⟨beforeMask, maskText⟩
      rcases right_fields_eq leftHyphen rightHyphen beforeMask with ⟨exactEq, ipEq⟩
      exact ⟨priorityEq, protoEq, String.toList_inj.mp ipEq, signed_toList_injective maskText,
        String.toList_inj.mp exactEq⟩

/-! ### The port test -/

def portLoop (dstPort : Nat) : List RulePort → Bool → Bool
  | [], isMatch => isMatch
  | port :: rest, isMatch =>
      if port.endPort = 0 then true
      else if dstPort > port.endPort then portLoop dstPort rest isMatch
      else if dstPort < port.port then portLoop dstPort rest isMatch
      else true

def RuleDetail.matches (rule : RuleDetail) (proto dstPort srcPort : Nat) : Bool :=
  let protocol := if proto = ipprotoIcmp then rule.proto else proto
  if ¬(rule.proto = 0 ∨ protocol = rule.proto) then false
  else
    let isMatch := portLoop dstPort rule.ports (rule.ports.isEmpty || proto == ipprotoIcmp)
    if ¬isMatch then false
    else if srcPort = 53 ∨ dstPort = 53 then true
    else true

/-- A port accepts a packet: no upper bound given, in range, or ICMP. -/
def RulePort.Accepts (port : RulePort) (proto dstPort : Nat) : Prop :=
  port.endPort = 0 ∨ (port.port ≤ dstPort ∧ dstPort ≤ port.endPort) ∨ proto = ipprotoIcmp

instance (port : RulePort) (proto dstPort : Nat) : Decidable (port.Accepts proto dstPort) :=
  inferInstanceAs (Decidable (_ ∨ _ ∨ _))

theorem portLoop_eq_true_iff (dstPort : Nat) (ports : List RulePort) (isMatch : Bool) :
    portLoop dstPort ports isMatch = true ↔
      isMatch = true ∨ ∃ port ∈ ports,
        port.endPort = 0 ∨ (port.port ≤ dstPort ∧ dstPort ≤ port.endPort) := by
  induction ports with
  | nil => simp [portLoop]
  | cons port rest ih =>
      unfold portLoop
      by_cases open_ : port.endPort = 0
      · simp [open_]
      · by_cases above : dstPort > port.endPort
        · have outside : ¬(port.port ≤ dstPort ∧ dstPort ≤ port.endPort) := by omega
          simp [open_, above, ih, outside]
        · by_cases below : dstPort < port.port
          · have outside : ¬(port.port ≤ dstPort ∧ dstPort ≤ port.endPort) := by omega
            simp [open_, above, below, ih, outside]
          · have inside : port.port ≤ dstPort ∧ dstPort ≤ port.endPort := by omega
            simp [open_, above, below, inside]

/-- On a rule that has a port and that the protocol already fits, the ICMP
override and the two shortcuts change nothing. -/
theorem RuleDetail.matches_iff (rule : RuleDetail) (proto dstPort srcPort : Nat)
    (fits : rule.proto = 0 ∨ rule.proto = proto) (nonempty : rule.ports ≠ []) :
    rule.matches proto dstPort srcPort = true ↔
      ∃ port ∈ rule.ports, port.Accepts proto dstPort := by
  have passes : rule.proto = 0 ∨
      (if proto = ipprotoIcmp then rule.proto else proto) = rule.proto := by
    rcases fits with any | same
    · exact Or.inl any
    · right
      split
      · rfl
      · exact same.symm
  have notEmpty : rule.ports.isEmpty = false := by
    simpa using nonempty
  have loop := portLoop_eq_true_iff dstPort rule.ports (proto == ipprotoIcmp)
  unfold RuleDetail.matches
  simp only [passes, not_true_eq_false, if_false, notEmpty, Bool.false_or]
  simp only [ite_self]
  have reduced : (if ¬portLoop dstPort rule.ports (proto == ipprotoIcmp) = true then false
      else true) = true ↔ portLoop dstPort rule.ports (proto == ipprotoIcmp) = true := by
    cases portLoop dstPort rule.ports (proto == ipprotoIcmp) <;> simp
  rw [reduced, loop]
  constructor
  · rintro (icmp | ⟨port, member, range⟩)
    · obtain ⟨port, rest, shape⟩ := List.exists_cons_of_ne_nil nonempty
      refine ⟨port, by simp [shape], Or.inr (Or.inr (by simpa using icmp))⟩
    · refine ⟨port, member, ?_⟩
      rcases range with any | inside
      · exact Or.inl any
      · exact Or.inr (Or.inl inside)
  · rintro ⟨port, member, any | inside | icmp⟩
    · exact Or.inr ⟨port, member, Or.inl any⟩
    · exact Or.inr ⟨port, member, Or.inr inside⟩
    · exact Or.inl (by simpa using icmp)

end NetPolicy.Policy
