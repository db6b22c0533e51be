/-
Which address texts the index reads truthfully.

Text that denotes no network is still given a key: an unreadable address becomes
0.0.0.0 and an unreadable prefix length 32, and together they are the key of the
any-address.  Only text whose prefix length is a number outside 1..32 is inert.
A text is read truthfully exactly when it denotes a network or is inert.
-/

import NetPolicy.Policy.LinearScan

namespace NetPolicy.Policy

open SeparatedText

/-! ### Truthful texts -/

/-- After the first slash stands an integer outside 1..32. -/
def OutOfRangeLength (text : String) : Prop :=
  ∃ address mask value, cutAt? '/' text.toList = some (address, mask) ∧
    parseI32 mask = some value ∧ ¬(1 ≤ value ∧ value ≤ 32)

def TruthfulText (text : String) : Prop :=
  (∃ network, denoteNetwork? text = some network) ∨ OutOfRangeLength text

theorem splitCidr_outOfRange {text : String} (outOfRange : OutOfRangeLength text) :
    ¬(1 ≤ (splitCidr text).2 ∧ (splitCidr text).2 ≤ 32) := by
  rcases outOfRange with ⟨address, mask, value, cut, parsed, outside⟩
  unfold splitCidr
  rw [cut]
  simpa only [parsed, Option.getD_some] using outside

theorem outOfRange_of_splitCidr {text : String}
    (outside : ¬(1 ≤ (splitCidr text).2 ∧ (splitCidr text).2 ≤ 32)) : OutOfRangeLength text := by
  unfold splitCidr at outside
  cases cut : cutAt? '/' text.toList with
  | none =>
      simp only [cut] at outside
      omega
  | some parts =>
      rcases parts with ⟨address, mask⟩
      simp only [cut] at outside
      cases parsed : parseI32 mask with
      | none =>
          simp only [parsed, Option.getD_none] at outside
          omega
      | some value =>
          simp only [parsed, Option.getD_some] at outside
          exact ⟨address, mask, value, cut, parsed, outside⟩

theorem parseCidr_snd (text : String) : (parseCidr text).2 = (splitCidr text).2 := rfl

theorem not_engineFits_of_outside {text address : String}
    (outside : ¬(1 ≤ (parseCidr text).2 ∧ (parseCidr text).2 ≤ 32)) :
    ¬EngineFits text address := by
  intro fits
  rcases fits with any | ⟨positive, bound, -⟩
  · rw [any] at outside
    exact outside (by decide)
  · exact outside ⟨positive, bound⟩

theorem addressFits_of_engineFits {text address : String} (truthful : TruthfulText text)
    (readable : (parseIpv4Addr address).isSome = true) (fits : EngineFits text address) :
    addressFits text address = true := by
  rcases truthful with ⟨network, denotes⟩ | outOfRange
  · by_cases positive : 1 ≤ network.length
    · exact (engineFits_iff_addressFits denotes positive readable).mp fits
    · -- a prefix length of zero is never among the recorded ones
      apply absurd fits
      apply not_engineFits_of_outside
      rw [parseCidr_eq_of_denote denotes]
      dsimp only
      omega
  · exact absurd fits (not_engineFits_of_outside (splitCidr_outOfRange outOfRange))

theorem exists_engineFits {text : String}
    (range : 1 ≤ (parseCidr text).2 ∧ (parseCidr text).2 ≤ 32) :
    ∃ address, (parseIpv4Addr address).isSome = true ∧ EngineFits text address := by
  refine ⟨(parseCidr text).1, ?_, Or.inr ⟨range.1, range.2, ?_⟩⟩
  · unfold parseCidr
    dsimp only
    rw [parseIpv4Addr_format]
    rfl
  · unfold ipv4CidrToIp
    rw [parseCidr_snd]
    unfold parseCidr
    dsimp only
    rw [parseIpv4Addr_format, Option.getD_some, BitVec.and_assoc, BitVec.and_self]

/-! ### Soundness of the lookup -/

/-- Whatever the history, a rule found with this text on its masked side is found
only for packets whose address the text denotes. -/
def AddressSound (text : String) : Prop :=
  ∀ (order : IterationOrder RuleDetail) (ops : List EngineOp) (proto dstPort srcPort : Nat)
    (srcAddr dstAddr : String) (dir : FlowDir) (rule : RuleDetail),
    (parseIpv4Addr srcAddr).isSome = true → (parseIpv4Addr dstAddr).isSome = true →
    (RustPolicyEngine.new.run ops).matchFiveTuple order proto dstPort srcPort srcAddr dstAddr
      dir = some rule →
    rule.cidrIp = text → addressFits text (cidrSide dir srcAddr dstAddr) = true

theorem addressSound_of_truthful {text : String} (truthful : TruthfulText text) :
    AddressSound text := by
  intro order ops proto dstPort srcPort srcAddr dstAddr dir rule srcReadable dstReadable found
    ruleText
  rcases matchFiveTuple_eq_some (engineRepresents_run ops) found with
    ⟨first, firstMember, addition, -, ruleEq, -, -, -, firstFits, -⟩
  have firstDir := (mem_inDirection.mp firstMember).2
  have firstText : first.1.cidrIp = text := by
    rw [← ruleText, ruleEq]
    rfl
  have fits := firstFits.networkFits
  rw [firstText, firstDir] at fits
  apply addressFits_of_engineFits truthful _ fits
  cases dir with
  | ingress => exact srcReadable
  | egress => exact dstReadable

def openRule (text : String) : RuleDetail :=
  { webRule with proto := 0, srcIp := text }

theorem truthful_of_addressSound {text : String} (sound : AddressSound text) :
    TruthfulText text := by
  by_contra untruthful
  have range : 1 ≤ (parseCidr text).2 ∧ (parseCidr text).2 ≤ 32 := by
    by_contra outside
    exact untruthful (Or.inr (outOfRange_of_splitCidr outside))
  rcases exists_engineFits range with ⟨address, readable, fits⟩
  let ops := [EngineOp.addPolicy (openRule text) webPort]
  have live : (openRule text, webPort) ∈ liveAdditions ops := List.mem_singleton.mpr rfl
  have matching : EngineMatch (openRule text) webPort 6 80 address "192.168.1.5" :=
    { protoFits := Or.inl rfl
      exactFits := rfl
      networkFits := fits
      portFits := by decide }
  rcases matchFiveTuple_isSome .stored 0 (engineRepresents_run ops) live matching with
    ⟨rule, found⟩
  rcases matchFiveTuple_eq_some (engineRepresents_run ops) found with
    ⟨first, firstMember, -, -, ruleEq, -⟩
  have firstEq : first = (openRule text, webPort) :=
    List.mem_singleton.mp (mem_inDirection.mp firstMember).1
  have ruleText : rule.cidrIp = text := by
    rw [ruleEq, firstEq]
    rfl
  have denoted := sound .stored ops 6 80 0 address "192.168.1.5" .ingress rule readable
    (by decide) found ruleText
  unfold addressFits at denoted
  rw [Option.any_eq_true] at denoted
  rcases denoted with ⟨network, denotes, -⟩
  exact untruthful (Or.inl ⟨network, denotes⟩)

/-- The lookup is address-sound for a text exactly when the text denotes a
network or carries an integer prefix length outside 1..32. -/
theorem addressSound_iff_truthfulText (text : String) :
    AddressSound text ↔ TruthfulText text :=
  ⟨truthful_of_addressSound, addressSound_of_truthful⟩

/-- The range 10.0.0.250-256 expands to seven addresses, the last of which has
an octet out of range; its rule is found for a packet from anywhere. -/
theorem outOfRangeOctet_matches_everyone :
    (((RustPolicyEngine.new.run [.addPolicy (openRule "10.0.0.256") webPort]).matchFiveTuple
        .stored 6 80 40000 "203.0.113.9" "192.168.1.5" .ingress).map RuleDetail.cidrIp =
      some "10.0.0.256") ∧
    addressFits "10.0.0.256" "203.0.113.9" = false := by
  decide

end NetPolicy.Policy
