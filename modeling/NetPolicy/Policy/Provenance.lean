/-
Where an answered action comes from.

Two additions of one policy that share a key are stored as one entry: the fields
of the first, the ports of both.  The action of the second is lost, so its port
answers with the action of the first.  A history in which no addition meets an
entry of its own policy and key with another action keeps every action with the
ports it was added with.
-/

import NetPolicy.Policy.AddressSoundness

namespace NetPolicy.Policy

/-! ### Additions that share an entry -/

/-- Additions stored in one entry carry one action. -/
def UniformActions (live : List Addition) : Prop :=
  ∀ left ∈ live, ∀ right ∈ live, left.1.direction = right.1.direction →
    left.1.key = right.1.key → left.1.policyKey = right.1.policyKey →
    left.1.action = right.1.action

/-- What an addition must meet in the engine it is applied to: truthful address
text, and an entry of its policy under its key, if there is one, with its action. -/
def KeepsAction (engine : RustPolicyEngine) : EngineOp → Prop
  | .addPolicy rule _ =>
      TruthfulText rule.cidrIp ∧
        ∀ existing, (engine.tree rule.direction).chain.entry rule.key rule.policyKey =
          some existing → existing.action = rule.action
  | .deletePolicy _ _ => True
  | .clearCfg => True

structure Provenant (engine : RustPolicyEngine) (live : List Addition) : Prop where
  represents : EngineRepresents engine live
  uniform : UniformActions live
  truthful : ∀ addition ∈ live, TruthfulText addition.1.cidrIp

theorem Provenant.empty : Provenant RustPolicyEngine.new [] where
  represents := engineRepresents_run []
  uniform := by
    intro left member
    cases member
  truthful := by
    intro addition member
    cases member

theorem UniformActions.sublist {live remaining : List Addition} (uniform : UniformActions live)
    (kept : ∀ addition ∈ remaining, addition ∈ live) : UniformActions remaining := by
  intro left leftMember right rightMember
  exact uniform left (kept left leftMember) right (kept right rightMember)

theorem Provenant.action_eq {engine : RustPolicyEngine} {live : List Addition}
    (provenant : Provenant engine live) {rule : RuleDetail} {port : RulePort}
    (keeps : KeepsAction engine (.addPolicy rule port)) {addition : Addition}
    (member : addition ∈ live) (direction : addition.1.direction = rule.direction)
    (key : addition.1.key = rule.key) (name : addition.1.policyKey = rule.policyKey) :
    addition.1.action = rule.action := by
  have inTree : addition ∈ inDirection rule.direction live :=
    mem_inDirection.mpr ⟨member, direction⟩
  cases stored : merged (inDirection rule.direction live) rule.key rule.policyKey with
  | none =>
      rw [merged_eq_none_iff] at stored
      exact absurd ⟨key, name⟩ (stored addition inTree)
  | some existing =>
      have entryEq := (provenant.represents.trees rule.direction).entry rule.key rule.policyKey
      have sameAction := keeps.2 existing (entryEq.trans stored)
      rcases merged_eq_some stored with ⟨first, firstMember, firstKey, firstName, existingEq⟩
      rcases mem_inDirection.mp firstMember with ⟨firstLive, firstDir⟩
      have firstAction : first.1.action = rule.action := by
        rw [← sameAction, existingEq]
      rw [← firstAction]
      exact provenant.uniform addition member first firstLive (direction.trans firstDir.symm)
        (key.trans firstKey.symm) (name.trans firstName.symm)

theorem Provenant.apply (engine : RustPolicyEngine) (live : List Addition) (op : EngineOp)
    (provenant : Provenant engine live) (keeps : KeepsAction engine op) :
    Provenant (engine.apply op) (liveAfter live op) := by
  have represents := provenant.represents.apply op
  cases op with
  | addPolicy rule port =>
      refine ⟨represents, ?_, ?_⟩
      · intro left leftMember right rightMember direction key name
        rcases List.mem_append.mp leftMember with leftOld | leftNew
        · rcases List.mem_append.mp rightMember with rightOld | rightNew
          · exact provenant.uniform left leftOld right rightOld direction key name
          · cases List.mem_singleton.mp rightNew
            exact provenant.action_eq keeps leftOld direction key name
        · cases List.mem_singleton.mp leftNew
          rcases List.mem_append.mp rightMember with rightOld | rightNew
          · exact (provenant.action_eq keeps rightOld direction.symm key.symm name.symm).symm
          · cases List.mem_singleton.mp rightNew
            rfl
      · intro addition member
        rcases List.mem_append.mp member with old | new
        · exact provenant.truthful addition old
        · cases List.mem_singleton.mp new
          exact keeps.1
  | deletePolicy dir name =>
      have kept : ∀ addition ∈ liveAfter live (.deletePolicy dir name), addition ∈ live :=
        fun addition member => List.mem_of_mem_filter member
      exact ⟨represents, provenant.uniform.sublist kept,
        fun addition member => provenant.truthful addition (kept addition member)⟩
  | clearCfg =>
      have kept : ∀ addition ∈ liveAfter live .clearCfg, addition ∈ live := by
        intro addition member
        cases member
      exact ⟨represents, provenant.uniform.sublist kept,
        fun addition member => provenant.truthful addition (kept addition member)⟩

theorem provenant_run {ops : List EngineOp}
    (meets : Runs.Meets RustPolicyEngine.apply KeepsAction RustPolicyEngine.new ops) :
    Provenant (RustPolicyEngine.new.run ops) (liveAdditions ops) :=
  Runs.run_simulation RustPolicyEngine.apply liveAfter KeepsAction Provenant Provenant.apply
    Provenant.empty meets

/-! ### Provenance -/

/-- In every history whose additions keep their action, an answer comes from a
live addition of that policy, priority and action whose own addresses, protocol
and port match the packet. -/
theorem matchFiveTuple_provenance (order : IterationOrder RuleDetail) (ops : List EngineOp)
    (meets : Runs.Meets RustPolicyEngine.apply KeepsAction RustPolicyEngine.new ops)
    (proto dstPort srcPort : Nat) (srcAddr dstAddr : String) (dir : FlowDir)
    (srcReadable : (parseIpv4Addr srcAddr).isSome = true)
    (dstReadable : (parseIpv4Addr dstAddr).isSome = true) (rule : RuleDetail)
    (found : (RustPolicyEngine.new.run ops).matchFiveTuple order proto dstPort srcPort srcAddr
      dstAddr dir = some rule) :
    ∃ addition ∈ liveAdditions ops, addition.1.direction = dir ∧
      addition.1.policyKey = rule.policyKey ∧ addition.1.priority = rule.priority ∧
      addition.1.action = rule.action ∧
      plainMatch addition proto dstPort srcAddr dstAddr = true := by
  have provenant := provenant_run meets
  rcases matchFiveTuple_eq_some provenant.represents found with
    ⟨first, firstMember, addition, member, ruleEq, sameKey, sameName, samePriority, -, fits, -⟩
  rcases mem_inDirection.mp firstMember with ⟨firstLive, firstDir⟩
  rcases mem_inDirection.mp member with ⟨live, direction⟩
  have sameAction := provenant.uniform addition live first firstLive
    (direction.trans firstDir.symm) sameKey sameName
  have networkFits : addressFits addition.1.cidrIp
      (cidrSide addition.1.direction srcAddr dstAddr) = true := by
    apply addressFits_of_engineFits (provenant.truthful addition live) _ fits.networkFits
    cases addition.1.direction with
    | ingress => exact srcReadable
    | egress => exact dstReadable
  refine ⟨addition, live, direction, ?_, ?_, ?_, ?_⟩
  · rw [ruleEq]
    exact sameName
  · rw [ruleEq]
    exact samePriority
  · rw [ruleEq]
    exact sameAction
  · unfold plainMatch
    rw [decide_eq_true_eq]
    exact ⟨fits.protoFits, fits.exactFits, networkFits, fits.portFits⟩

def portsHistory : List EngineOp :=
  [.addPolicy webRule webPort, .addPolicy webRule { endPort := 443, port := 443, proto := 6 }]

theorem portsHistory_provenance :
    ∃ rule, (RustPolicyEngine.new.run portsHistory).matchFiveTuple .stored 6 443 40000 "10.1.2.3"
      "192.168.1.5" .ingress = some rule ∧
    ∃ addition ∈ liveAdditions portsHistory, addition.1.direction = .ingress ∧
      addition.1.policyKey = rule.policyKey ∧ addition.1.priority = rule.priority ∧
      addition.1.action = rule.action ∧
      plainMatch addition 6 443 "10.1.2.3" "192.168.1.5" = true := by
  have truthful : TruthfulText webRule.cidrIp :=
    Or.inl ⟨⟨0x0a000000#32, 8, by decide⟩, by decide⟩
  have meets : Runs.Meets RustPolicyEngine.apply KeepsAction RustPolicyEngine.new
      portsHistory := by
    refine ⟨⟨truthful, ?_⟩, ⟨truthful, ?_⟩, trivial⟩
    · intro existing stored
      cases stored
    · intro existing stored
      cases stored
      rfl
  refine ⟨{ webRule with ports := [webPort, { endPort := 443, port := 443, proto := 6 }] },
    by decide, ?_⟩
  exact matchFiveTuple_provenance .stored portsHistory meets 6 443 40000 "10.1.2.3"
    "192.168.1.5" .ingress (by decide) (by decide) _ (by decide)

def mixedHistory : List EngineOp :=
  [.addPolicy webRule webPort,
    .addPolicy { webRule with action := 0, actionDsc := "deny" }
      { endPort := 22, port := 22, proto := 6 }]

/-- The denied port is answered with the action of the allowed one, and no live
addition with that action matches the packet. -/
theorem deniedPort_answered_allow :
    ((RustPolicyEngine.new.run mixedHistory).matchFiveTuple .stored 6 22 40000 "10.1.2.3"
      "192.168.1.5" .ingress).map RuleDetail.action = some 1 ∧
    ¬∃ addition ∈ liveAdditions mixedHistory, addition.1.action = 1 ∧
      plainMatch addition 6 22 "10.1.2.3" "192.168.1.5" = true := by
  decide

end NetPolicy.Policy
