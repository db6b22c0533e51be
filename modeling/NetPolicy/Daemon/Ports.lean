/-
What becomes of a port range.

The request carries 32-bit bounds, the document numbers that are read as `int`, and the
stored rule 16-bit bounds; an upper bound of zero stands for the lower one in the request
and for any port in the rule.  The module says which ranges keep their meaning on the way.
-/

import NetPolicy.Daemon.Replacement

namespace NetPolicy.Daemon

open NetPolicy.Policy NetPolicy.Flow

/-! ### Meaning and storage -/

namespace PortRange

/-- The ports a request means: up to the upper bound, or just the one port. -/
def Wants (range : PortRange) (dstPort : Nat) : Prop :=
  if range.endPort = 0 then dstPort = range.port
  else range.port ≤ dstPort ∧ dstPort ≤ range.endPort

instance (range : PortRange) (dstPort : Nat) : Decidable (range.Wants dstPort) :=
  inferInstanceAs (Decidable (if range.endPort = 0 then dstPort = range.port
    else range.port ≤ dstPort ∧ dstPort ≤ range.endPort))

/-- What is left of a bound: cut to an `int`, then to 16 bits. -/
def narrowed (bound : Nat) : Nat := min bound 2147483647 % 65536

theorem toU16_valueInt_eq (bound : Nat) : toU16 (valueInt bound) = narrowed bound := by
  unfold toU16 valueInt intMax narrowed
  omega

theorem storedPort_eq (proto : Nat) (range : PortRange) :
    storedPort proto range =
      { endPort := if narrowed range.endPort = 0 then narrowed range.port
          else narrowed range.endPort
        port := narrowed range.port
        proto := proto } := by
  simp only [storedPort, readPort, Option.map_some, Option.getD_some, toU16_valueInt_eq]

/-- The ranges that keep their meaning.  The first are those within 16 bits; the others
keep it by accident: all ports from the lower bound on are meant and stored, or none. -/
def Kept (range : PortRange) : Prop :=
  (range.port ≤ 65535 ∧
      (range.endPort ≤ 65535 ∨ narrowed range.endPort = 65535 ∨
        (narrowed range.endPort = 0 ∧ (range.port = 0 ∨ range.port = 65535)))) ∨
    (65535 < range.port ∧ narrowed range.endPort ≠ 0 ∧
      narrowed range.endPort < narrowed range.port)

instance (range : PortRange) : Decidable range.Kept :=
  inferInstanceAs (Decidable (_ ∨ _))

/-- The stored bounds admit the ports that are meant. -/
def Faithful (range : PortRange) : Prop :=
  ∀ dstPort < 65536,
    ((if narrowed range.endPort = 0 then narrowed range.port else narrowed range.endPort) = 0 ∨
      (narrowed range.port ≤ dstPort ∧
        dstPort ≤ if narrowed range.endPort = 0 then narrowed range.port
          else narrowed range.endPort)) ↔ range.Wants dstPort

variable {range : PortRange}

theorem faithful_of_kept (given : ¬(range.port = 0 ∧ range.endPort = 0)) (kept : range.Kept) :
    range.Faithful := by
  intro dstPort bound
  unfold Kept narrowed at kept
  unfold Wants narrowed
  split <;> split <;> omega

theorem narrowed_bound (bound : Nat) :
    narrowed bound ≤ 65535 ∧ (bound ≤ 65535 → narrowed bound = bound) := by
  unfold narrowed
  omega

theorem kept_of_faithful (faithful : range.Faithful) : range.Kept := by
  obtain ⟨lowBound, lowEq⟩ := narrowed_bound range.port
  obtain ⟨highBound, highEq⟩ := narrowed_bound range.endPort
  -- the stored lower bound and the largest port decide
  have atStored := faithful (narrowed range.port) (by omega)
  have atLast := faithful 65535 (by omega)
  unfold Kept
  unfold Wants at atStored atLast
  generalize narrowed range.port = low at *
  generalize narrowed range.endPort = high at *
  by_cases alone : range.endPort = 0
  · have zero : high = 0 := by omega
    rw [if_pos alone, if_pos zero] at atStored atLast
    omega
  · rw [if_neg alone] at atStored atLast
    by_cases zero : high = 0
    · rw [if_pos zero] at atStored atLast
      omega
    · rw [if_neg zero] at atStored atLast
      omega

theorem faithful_iff_kept (given : ¬(range.port = 0 ∧ range.endPort = 0)) :
    range.Faithful ↔ range.Kept :=
  ⟨kept_of_faithful, faithful_of_kept given⟩

end PortRange

/-! ### The installed rule -/

theorem ports_of_installed {store : MicroSegEngine} {live : List Addition}
    (represents : EngineRepresents store.policyRule live) {policyName : String}
    {rule : PolicyRuleSpec} {range : PortRange} (only : rule.ports = [range]) {dir : FlowDir}
    {key : String} {detail : RuleDetail}
    (alone : ((deletePolicy (cString policyName) store).policyRule.tree dir).chain.entry key
      (cString policyName) = none)
    (installed : ((addPolicyRule store policyName [rule]).1.policyRule.tree dir).chain.entry key
      (cString policyName) = some detail) :
    detail.ports ≠ [] ∧ ∀ port ∈ detail.ports, port = storedPort rule.netProto range := by
  have before := deletePolicy_represents represents (cString policyName)
  have after := (addPolicyRule_grown store policyName [rule]).rules _ before
  rw [(before.trees dir).entry] at alone
  rw [(after.trees dir).entry, inDirection_append, merged_append_of_none alone] at installed
  obtain ⟨first, member, sameKey, sameName, shape⟩ := merged_eq_some installed
  have ports : detail.ports = (sharing key (cString policyName)
      (inDirection dir (taken (cString policyName) (readPart [rule])))).map Prod.snd := by
    rw [shape]
  rw [ports]
  constructor
  · intro empty
    have shared := mem_sharing.mpr ⟨member, sameKey, sameName⟩
    rw [List.map_eq_nil_iff.mp empty] at shared
    cases shared
  · intro port inPorts
    obtain ⟨addition, shared, rfl⟩ := List.mem_map.mp inPorts
    obtain ⟨other, isRead, added, -⟩ := mem_taken.mp (mem_inDirection.mp (mem_sharing.mp shared).1).1
    have same : other = rule := List.mem_singleton.mp ((List.takeWhile_prefix _).subset isRead)
    subst same
    obtain ⟨_, _, asked⟩ := PolicyRuleSpec.contributes_of_mem_added added
    have stored := asked.inPorts
    rw [PolicyRuleSpec.storedPorts, only] at stored
    exact List.mem_singleton.mp stored

/-- The rule installed for a single port range matches exactly the transport packets the
range means, if and only if the range is one of those that keep their meaning. -/
theorem portRange_meaning_iff (ops : List ControlOp) (policyName : String) {rule : PolicyRuleSpec}
    {range : PortRange} (only : rule.ports = [range])
    (given : ¬(range.port = 0 ∧ range.endPort = 0)) {dir : FlowDir} {key : String}
    {detail : RuleDetail}
    (alone : ((deletePolicy (cString policyName) (storeAfter ops)).policyRule.tree dir).chain.entry
      key (cString policyName) = none)
    (installed : ((addPolicyRule (storeAfter ops) policyName [rule]).1.policyRule.tree
      dir).chain.entry key (cString policyName) = some detail)
    {proto : Nat} (transport : proto = ipprotoTcp ∨ proto = ipprotoUdp)
    (fits : detail.proto = 0 ∨ detail.proto = proto) (srcPort : Nat) :
    (∀ dstPort < 65536,
        (detail.matches proto dstPort srcPort = true ↔ range.Wants dstPort)) ↔ range.Kept := by
  obtain ⟨live, represented⟩ := represented_storeAfter ops
  obtain ⟨nonempty, single⟩ := ports_of_installed represented.engine only alone installed
  have notIcmp : proto ≠ ipprotoIcmp := by
    rcases transport with rfl | rfl <;> decide
  have accepts : ∀ dstPort, detail.matches proto dstPort srcPort = true ↔
      (storedPort rule.netProto range).Accepts proto dstPort := by
    intro dstPort
    rw [detail.matches_iff proto dstPort srcPort fits nonempty]
    constructor
    · intro accepted
      obtain ⟨port, member, accepts⟩ := accepted
      exact single port member ▸ accepts
    · intro accepts
      obtain ⟨port, rest, shape⟩ := List.exists_cons_of_ne_nil nonempty
      have member : port ∈ detail.ports := by
        rw [shape]
        exact List.mem_cons_self
      exact ⟨port, member, (single port member).symm ▸ accepts⟩
  rw [← PortRange.faithful_iff_kept given]
  apply forall_congr'
  intro dstPort
  rw [accepts, RulePort.Accepts, PortRange.storedPort_eq, or_iff_left notIcmp]

def entryOf (name : String) (rule : PolicyRuleSpec) (range : PortRange) : RuleDetail :=
  { rule.between name "10.0.0.1" "10.0.0.2" with ports := [storedPort rule.netProto range] }

theorem sshRule_keeps_meaning :
    ((addPolicyRule (storeAfter []) "ssh" [sshRule]).1.policyRule.tree .ingress).chain.entry
        (entryOf "ssh" sshRule ⟨22, 22⟩).key (cString "ssh") =
          some (entryOf "ssh" sshRule ⟨22, 22⟩) ∧
      ∀ dstPort < 65536, ((entryOf "ssh" sshRule ⟨22, 22⟩).matches 6 dstPort 40000 = true ↔
        PortRange.Wants ⟨22, 22⟩ dstPort) := by
  have only : sshRule.ports = [⟨22, 22⟩] := rfl
  have alone : ((deletePolicy (cString "ssh") (storeAfter [])).policyRule.tree
      .ingress).chain.entry (entryOf "ssh" sshRule ⟨22, 22⟩).key (cString "ssh") = none := by
    decide +kernel
  have installed : ((addPolicyRule (storeAfter []) "ssh" [sshRule]).1.policyRule.tree
      .ingress).chain.entry (entryOf "ssh" sshRule ⟨22, 22⟩).key (cString "ssh") =
        some (entryOf "ssh" sshRule ⟨22, 22⟩) := by
    decide +kernel
  refine ⟨installed, ?_⟩
  exact (portRange_meaning_iff [] "ssh" only (by decide) alone installed (.inl rfl)
    (.inr (by decide)) 40000).mpr (by decide)

def beyondRule : PolicyRuleSpec := { sshRule with ports := [⟨65536, 0⟩] }

theorem beyondRule_matches_any_port :
    ((addPolicyRule (storeAfter []) "ssh" [beyondRule]).1.policyRule.tree .ingress).chain.entry
        (entryOf "ssh" beyondRule ⟨65536, 0⟩).key "ssh" =
          some (entryOf "ssh" beyondRule ⟨65536, 0⟩) ∧
      (entryOf "ssh" beyondRule ⟨65536, 0⟩).ports = [{ endPort := 0, port := 0, proto := 6 }] ∧
      (entryOf "ssh" beyondRule ⟨65536, 0⟩).matches 6 22 40000 = true ∧
      ¬PortRange.Wants ⟨65536, 0⟩ 22 := by
  decide +kernel

end NetPolicy.Daemon
