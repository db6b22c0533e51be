/-
Masking at every prefix length.

The engine shifts by `32 - mask`.  The subtraction overflows for masks far below zero, and
the shift wraps around for a mask of zero: a network of all addresses is masked like a
single address, and its prefix length is not recorded.  At every length from 1 to 32
masking decides membership, and the rule is found for every packet that fits it.
-/

import NetPolicy.Policy.LinearScan

namespace NetPolicy.Policy

open SeparatedText

/-! ### The checked computation -/

def checkedSub (left right : Int) : Option Int :=
  if -2147483648 ≤ left - right ∧ left - right ≤ 2147483647 then some (left - right) else none

/-- `parse_cidr` with its subtraction checked: no result where it overflows. -/
def checkedParseCidr (cidr : String) : Option (String × Int) := do
  let amount ← checkedSub 32 (splitCidr cidr).2
  let ip := (parseIpv4Addr (splitCidr cidr).1).getD 0
  let mask := wrappingShl (BitVec.allOnes 32) (amount % 4294967296).toNat
  pure (formatIpv4Addr (ip &&& mask), (splitCidr cidr).2)

theorem checkedParseCidr_eq {cidr : String} (low : -2147483615 ≤ (splitCidr cidr).2)
    (high : (splitCidr cidr).2 ≤ 2147483647) : checkedParseCidr cidr = some (parseCidr cidr) := by
  have fits : checkedSub 32 (splitCidr cidr).2 = some (32 - (splitCidr cidr).2) :=
    if_pos (by omega)
  rw [checkedParseCidr, fits]
  rfl

theorem checkedParseCidr_eq_none {cidr : String} (low : (splitCidr cidr).2 < -2147483615) :
    checkedParseCidr cidr = none := by
  have overflows : checkedSub 32 (splitCidr cidr).2 = none := if_neg (by omega)
  rw [checkedParseCidr, overflows]
  rfl

/-! ### Texts -/

/-- A dotted quad, a slash and any text that reads as an `i32`. -/
structure CidrText where
  net : Ipv4Addr
  maskText : List Char
  mask : Int
  read : parseI32 maskText = some mask

namespace CidrText

def text (cidr : CidrText) : String :=
  formatIpv4Addr cidr.net ++ "/" ++ String.ofList cidr.maskText

theorem mask_le (cidr : CidrText) : cidr.mask ≤ 2147483647 := by
  have range := cidr.read
  unfold parseI32 at range
  rw [Option.filter_eq_some_iff] at range
  exact (of_decide_eq_true range.2).2

theorem cutAt?_text (cidr : CidrText) :
    cutAt? '/' cidr.text.toList = some ((formatIpv4Addr cidr.net).toList, cidr.maskText) := by
  have slashless : '/' ∉ (formatIpv4Addr cidr.net).toList :=
    not_mem_formatIpv4Addr (by decide) (by decide) cidr.net
  have shape : cidr.text.toList = (formatIpv4Addr cidr.net).toList ++ '/' :: cidr.maskText := by
    simp [text, String.toList_append]
  rw [shape, cutAt?_append _ _ _ slashless]

theorem splitCidr_text (cidr : CidrText) :
    splitCidr cidr.text = (formatIpv4Addr cidr.net, cidr.mask) := by
  unfold splitCidr
  rw [cidr.cutAt?_text]
  dsimp only
  rw [cidr.read, String.ofList_toList, Option.getD_some]

def network (cidr : CidrText) (nonnegative : 0 ≤ cidr.mask) (bound : cidr.mask ≤ 32) : Network :=
  { address := cidr.net
    length := cidr.mask.toNat
    length_le := by omega }

theorem parseCidr_text (cidr : CidrText) :
    parseCidr cidr.text = (formatIpv4Addr (cidr.net &&& netMask cidr.mask), cidr.mask) := by
  unfold parseCidr
  rw [cidr.splitCidr_text]
  dsimp only
  rw [parseIpv4Addr_format, Option.getD_some]

/-! ### Membership and matching -/

/-- A prefix length in range is masked correctly: the masked address decides membership,
and a live rule with this text is found for every packet that fits it. -/
structure MaskedCorrectly (cidr : CidrText) (network : Network) : Prop where
  membership : ∀ address : Ipv4Addr, network.Contains address ↔
    ipv4CidrToIp (formatIpv4Addr address) cidr.mask = (parseCidr cidr.text).1
  found : ∀ (order : IterationOrder RuleDetail) (ops : List EngineOp) (rule : RuleDetail)
    (port : RulePort) (proto dstPort srcPort : Nat) (srcAddr dstAddr : String)
    (address : Ipv4Addr), (rule, port) ∈ liveAdditions ops → rule.cidrIp = cidr.text →
    cidrSide rule.direction srcAddr dstAddr = formatIpv4Addr address → network.Contains address →
    (rule.proto = 0 ∨ rule.proto = proto) →
    rule.exactIp = exactSide rule.direction srcAddr dstAddr → port.Accepts proto dstPort →
    ∃ matched, (RustPolicyEngine.new.run ops).matchFiveTuple order proto dstPort srcPort srcAddr
      dstAddr rule.direction = some matched

def Correct (cidr : CidrText) : Prop :=
  (checkedParseCidr cidr.text).isSome = true ∧
    ∀ (nonnegative : 0 ≤ cidr.mask) (bound : cidr.mask ≤ 32),
      cidr.MaskedCorrectly (cidr.network nonnegative bound)

theorem membership_iff (cidr : CidrText) (positive : 0 < cidr.mask) (bound : cidr.mask ≤ 32)
    (address : Ipv4Addr) :
    (cidr.network (Int.le_of_lt positive) bound).Contains address ↔
      ipv4CidrToIp (formatIpv4Addr address) cidr.mask = (parseCidr cidr.text).1 := by
  have length : ((cidr.mask.toNat : Nat) : Int) = cidr.mask := by omega
  have masked := and_netMask_eq_iff address cidr.net
    (by omega : 0 < cidr.mask.toNat) (by omega : cidr.mask.toNat ≤ 32)
  rw [length] at masked
  rw [cidr.parseCidr_text, ipv4CidrToIp, parseIpv4Addr_format, Option.getD_some,
    formatIpv4Addr_injective.eq_iff, masked]
  rfl

theorem maskedCorrectly_of_pos (cidr : CidrText) (positive : 0 < cidr.mask)
    (bound : cidr.mask ≤ 32) :
    cidr.MaskedCorrectly (cidr.network (Int.le_of_lt positive) bound) := by
  constructor
  · exact cidr.membership_iff positive bound
  · intro order ops rule port proto dstPort srcPort srcAddr dstAddr address live text side inside
      protoFits exactFits portFits
    have networkFits : EngineFits rule.cidrIp (cidrSide rule.direction srcAddr dstAddr) := by
      have masked := (cidr.membership_iff positive bound address).mp inside
      have mask : (parseCidr cidr.text).2 = cidr.mask := by rw [cidr.parseCidr_text]
      right
      rw [text, side, mask]
      exact ⟨positive, bound, masked.symm⟩
    have fits : EngineMatch rule port proto dstPort srcAddr dstAddr :=
      { protoFits := protoFits
        exactFits := exactFits
        networkFits := networkFits
        portFits := portFits }
    exact matchFiveTuple_isSome order srcPort (engineRepresents_run ops) live fits

/-- The shift by 32 is a shift by nothing. -/
theorem netMask_zero : netMask 0 = BitVec.allOnes 32 := by decide

/-- Every address is in a network of prefix length zero, but only one is masked to it. -/
theorem not_maskedCorrectly_of_zero {cidr : CidrText} (zero : cidr.mask = 0) (network : Network)
    (length : network.length = 0) : ¬cidr.MaskedCorrectly network := by
  intro correct
  have inside : network.Contains (cidr.net + 1) := by
    have small := (cidr.net + 1).isLt
    have alsoSmall := network.address.isLt
    unfold Network.Contains
    rw [length, Nat.div_eq_of_lt small, Nat.div_eq_of_lt alsoSmall]
  have masked := (correct.membership (cidr.net + 1)).mp inside
  rw [cidr.parseCidr_text, zero, ipv4CidrToIp, parseIpv4Addr_format, Option.getD_some,
    formatIpv4Addr_injective.eq_iff, netMask_zero, BitVec.and_allOnes, BitVec.and_allOnes] at masked
  bv_omega

end CidrText

/-- Parsing and masking are correct exactly if the subtraction does not overflow and the
prefix length is not zero. -/
theorem cidrText_correct_iff (cidr : CidrText) :
    cidr.Correct ↔ -2147483615 ≤ cidr.mask ∧ cidr.mask ≠ 0 := by
  have split : (splitCidr cidr.text).2 = cidr.mask := by rw [cidr.splitCidr_text]
  constructor
  · intro correct
    constructor
    · by_contra low
      have overflows : checkedParseCidr cidr.text = none :=
        checkedParseCidr_eq_none (by rw [split]; omega)
      have parsed := correct.1
      rw [overflows] at parsed
      cases parsed
    · intro zero
      have masked := correct.2 (by omega) (by omega)
      refine CidrText.not_maskedCorrectly_of_zero zero _ ?_ masked
      change cidr.mask.toNat = 0
      omega
  · intro allowed
    obtain ⟨low, nonzero⟩ := allowed
    constructor
    · rw [checkedParseCidr_eq (by rw [split]; exact low) (by rw [split]; exact cidr.mask_le)]
      rfl
    · intro nonnegative bound
      exact cidr.maskedCorrectly_of_pos (by omega) bound

def CidrText.everywhere : CidrText :=
  { net := 0x0A000000
    maskText := ['0']
    mask := 0
    read := by decide }

theorem everywhere_not_found :
    CidrText.everywhere.text = "10.0.0.0/0" ∧
      parseCidr "10.0.0.0/0" = ("10.0.0.0", 0) ∧
      ipv4CidrToIp "203.0.113.9" 0 = "203.0.113.9" ∧
      ((RustPolicyEngine.new.run [.addPolicy { webRule with srcIp := "10.0.0.0/0" }
        webPort]).matchFiveTuple .stored 6 80 40000 "10.0.0.0" "192.168.1.5" .ingress) = none ∧
      checkedParseCidr "10.0.0.0/-2147483648" = none ∧
      ¬CidrText.everywhere.Correct := by
  refine ⟨by decide, by decide, by decide, by decide, by decide, ?_⟩
  intro correct
  exact CidrText.not_maskedCorrectly_of_zero rfl _ rfl (correct.2 (by decide) (by decide))

end NetPolicy.Policy
