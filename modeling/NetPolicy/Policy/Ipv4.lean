/-
IPv4 text and CIDR masking, as the policy engine computes them.

`parseCidr` never fails: an unreadable prefix length reads as 32 and an
unreadable address reads as 0.0.0.0.  The second half of the file gives CIDR
text its usual meaning and relates the masked text to it.
-/

import NetPolicy.Library.SeparatedText
import Mathlib.Data.BitVec

namespace NetPolicy.Policy

open SeparatedText

/-- `u32::from(Ipv4Addr)`: the first octet is the most significant. -/
abbrev Ipv4Addr := BitVec 32

/-! ### Address text -/

/-- One octet of `Ipv4Addr::from_str`: at most three digits, no leading zero. -/
def readOctet (text : List Char) : Option Nat :=
  if text.length ≤ 3 ∧ (text.head? = some '0' → text.length = 1) then
    (parseDecimal text).filter (· < 256)
  else none

def ofOctets (a b c d : Nat) : Ipv4Addr :=
  BitVec.ofNat 32 (((a * 256 + b) * 256 + c) * 256 + d)

/-- `Ipv4Addr::from_str`.  Four octets of at most three digits already bound the
text by the fifteen characters the library checks first. -/
def parseIpv4Addr (text : String) : Option Ipv4Addr :=
  match text.toList.splitOn '.' with
  | [a, b, c, d] => do
      let a ← readOctet a
      let b ← readOctet b
      let c ← readOctet c
      let d ← readOctet d
      pure (ofOctets a b c d)
  | _ => none

def formatIpv4Addr (address : Ipv4Addr) : String :=
  let value := address.toNat
  toString (value / 16777216) ++ "." ++ toString (value / 65536 % 256) ++ "." ++
    toString (value / 256 % 256) ++ "." ++ toString (value % 256)

/-! ### CIDR text -/

/-- `str::parse::<i32>`: an optional sign, at least one digit, in range. -/
def parseI32 (text : List Char) : Option Int :=
  let signed :=
    match text with
    | '-' :: digits => (parseDecimal digits).map fun value => -(value : Int)
    | '+' :: digits => (parseDecimal digits).map fun value => (value : Int)
    | digits => (parseDecimal digits).map fun value => (value : Int)
  signed.filter fun value => -2147483648 ≤ value ∧ value ≤ 2147483647

/-- `u32::wrapping_shl`: the shift amount is taken modulo the width. -/
def wrappingShl (value : BitVec 32) (amount : Nat) : BitVec 32 :=
  value <<< (amount % 32)

def netMask (mask : Int) : BitVec 32 :=
  wrappingShl (BitVec.allOnes 32) ((32 - mask) % 4294967296).toNat

def splitCidr (cidr : String) : String × Int :=
  match cutAt? '/' cidr.toList with
  | some (address, mask) => (String.ofList address, (parseI32 mask).getD 32)
  | none => (cidr, 32)

def parseCidr (cidr : String) : String × Int :=
  let (ipStr, mask) := splitCidr cidr
  let ip := (parseIpv4Addr ipStr).getD 0
  (formatIpv4Addr (ip &&& netMask mask), mask)

def ipv4CidrToIp (ip : String) (mask : Int) : String :=
  formatIpv4Addr ((parseIpv4Addr ip).getD 0 &&& netMask mask)

example : parseCidr "192.168.5.9/16" = ("192.168.0.0", 16) := by decide
example : parseCidr "localhost" = ("0.0.0.0", 32) := by decide

/-! ### Address text is faithful -/

theorem readOctet_repr {value : Nat} (bound : value < 256) :
    readOctet value.repr.toList = some value := by
  have short : value.repr.toList.length ≤ 3 := by
    rw [Nat.toList_repr, Nat.length_toDigits_le_iff (by decide) (by decide)]
    omega
  have noLeadingZero : value.repr.toList.head? = some '0' → value.repr.toList.length = 1 := by
    rw [Nat.toList_repr]
    intro zero
    rw [eq_zero_of_head_toDigits zero]
    rfl
  unfold readOctet
  rw [if_pos ⟨short, noLeadingZero⟩, parseDecimal_repr]
  simp [bound]

theorem formatIpv4Addr_toList (address : Ipv4Addr) :
    (formatIpv4Addr address).toList = ['.'].intercalate
      [(address.toNat / 16777216).repr.toList, (address.toNat / 65536 % 256).repr.toList,
        (address.toNat / 256 % 256).repr.toList, (address.toNat % 256).repr.toList] := by
  simp [formatIpv4Addr, List.intercalate, String.toList_append]

theorem parseIpv4Addr_format (address : Ipv4Addr) :
    parseIpv4Addr (formatIpv4Addr address) = some address := by
  have dotFree : ∀ value : Nat, '.' ∉ Nat.toDigits 10 value := not_mem_toDigits (by decide)
  have bound := address.isLt
  unfold parseIpv4Addr
  rw [formatIpv4Addr_toList, List.splitOn_intercalate]
  · simp only [readOctet_repr (show address.toNat / 16777216 < 256 by omega),
      readOctet_repr (show address.toNat / 65536 % 256 < 256 by omega),
      readOctet_repr (show address.toNat / 256 % 256 < 256 by omega),
      readOctet_repr (show address.toNat % 256 < 256 by omega)]
    change some _ = some _
    congr 1
    apply BitVec.eq_of_toNat_eq
    rw [ofOctets, BitVec.toNat_ofNat]
    omega
  · simp [dotFree]
  · simp

theorem formatIpv4Addr_injective : Function.Injective formatIpv4Addr := by
  intro left right equality
  have parsed := congrArg parseIpv4Addr equality
  rw [parseIpv4Addr_format, parseIpv4Addr_format] at parsed
  exact Option.some.inj parsed

theorem not_mem_formatIpv4Addr {separator : Char} (notDigit : separator.isDigit = false)
    (notDot : separator ≠ '.') (address : Ipv4Addr) :
    separator ∉ (formatIpv4Addr address).toList := by
  have free : ∀ value : Nat, separator ∉ Nat.toDigits 10 value := not_mem_toDigits notDigit
  rw [formatIpv4Addr_toList]
  simp [List.intercalate, free, notDot]

/-! ### Masking -/

private theorem and_allOnes_shiftLeft {width : Nat} (value : BitVec width) (amount : Nat) :
    value &&& (BitVec.allOnes width <<< amount) = (value >>> amount) <<< amount := by
  ext index indexBound
  by_cases low : index < amount
  · simp [low]
  · have restored : amount + (index - amount) = index := by omega
    simp [low, restored, BitVec.getLsbD_eq_getElem indexBound]

/-- Masking with a prefix length keeps exactly the leading bits. -/
theorem and_netMask_eq_iff (left right : Ipv4Addr) {length : Nat}
    (positive : 0 < length) (bound : length ≤ 32) :
    left &&& netMask length = right &&& netMask length ↔
      left.toNat / 2 ^ (32 - length) = right.toNat / 2 ^ (32 - length) := by
  have amount : ((32 - (length : Int)) % 4294967296).toNat % 32 = 32 - length := by omega
  have masked : ∀ value : Ipv4Addr,
      (value &&& netMask length).toNat = value.toNat / 2 ^ (32 - length) * 2 ^ (32 - length) := by
    intro value
    have shifted : value &&& netMask length =
        (value >>> (32 - length)) <<< (32 - length) := by
      unfold netMask wrappingShl
      rw [amount]
      exact and_allOnes_shiftLeft value (32 - length)
    rw [shifted, BitVec.toNat_shiftLeft, BitVec.toNat_ushiftRight, Nat.shiftRight_eq_div_pow, Nat.shiftLeft_eq]
    apply Nat.mod_eq_of_lt
    have := value.isLt
    exact lt_of_le_of_lt (Nat.div_mul_le_self _ _) this
  constructor
  · intro equality
    have values := congrArg BitVec.toNat equality
    rw [masked, masked] at values
    exact Nat.eq_of_mul_eq_mul_right (Nat.two_pow_pos _) values
  · intro equality
    apply BitVec.eq_of_toNat_eq
    rw [masked, masked, equality]
/-! ### What CIDR text denotes -/

/-- An IPv4 network: the addresses that agree with `address` on the leading
`length` bits. -/
structure Network where
  address : Ipv4Addr
  length : Nat
  length_le : length ≤ 32
deriving DecidableEq

def Network.Contains (network : Network) (address : Ipv4Addr) : Prop :=
  address.toNat / 2 ^ (32 - network.length) =
    network.address.toNat / 2 ^ (32 - network.length)

def Network.anyAddress : Network :=
  { address := 0
    length := 32
    length_le := by decide }

/-- A dotted quad denotes one address, `a.b.c.d/m` a network with `m` in range,
and every other text denotes nothing. -/
def denoteNetwork? (text : String) : Option Network :=
  match cutAt? '/' text.toList with
  | none => (parseIpv4Addr text).map fun address => ⟨address, 32, by decide⟩
  | some (address, mask) => do
      let address ← parseIpv4Addr (String.ofList address)
      let mask ← parseI32 mask
      if range : 0 ≤ mask ∧ mask ≤ 32 then some ⟨address, mask.toNat, by omega⟩ else none

theorem splitCidr_eq_of_denote {text : String} {network : Network}
    (denotes : denoteNetwork? text = some network) :
    parseIpv4Addr (splitCidr text).1 = some network.address ∧
      (splitCidr text).2 = network.length := by
  unfold denoteNetwork? at denotes
  unfold splitCidr
  cases cut : cutAt? '/' text.toList with
  | none =>
      simp only [cut, Option.map_eq_some_iff] at denotes
      obtain ⟨address, parsed, rfl⟩ := denotes
      exact ⟨parsed, rfl⟩
  | some parts =>
      simp only [cut, Option.bind_eq_bind, Option.bind_eq_some_iff] at denotes
      obtain ⟨address, parsed, mask, maskParsed, guarded⟩ := denotes
      split at guarded
      · rename_i range
        cases guarded
        refine ⟨parsed, ?_⟩
        simp only [maskParsed, Option.getD_some]
        omega
      · cases guarded

theorem parseCidr_eq_of_denote {text : String} {network : Network}
    (denotes : denoteNetwork? text = some network) :
    parseCidr text =
      (formatIpv4Addr (network.address &&& netMask network.length), (network.length : Int)) := by
  obtain ⟨parsed, maskEq⟩ := splitCidr_eq_of_denote denotes
  simp only [parseCidr, parsed, maskEq, Option.getD_some]

end NetPolicy.Policy
