/-
Overwriting a denied request: `rst_tcp_link` and the TCP checksum.

The source works on raw memory at offsets taken from the packet's own headers.  Here a
read past the end of the packet gives zero and a write past its end does nothing.
-/

import NetPolicy.Flow.Packet

namespace NetPolicy.Daemon

open NetPolicy.Flow

/-! ### Raw access -/

def peek (bytes : List UInt8) (index : Nat) : Nat := (bytes.getD index 0).toNat

def peek16 (bytes : List UInt8) (index : Nat) : Nat :=
  peek bytes index * 256 + peek bytes (index + 1)

def ipHeaderBytes (pkg : List UInt8) : Nat := peek pkg 0 % 16 * 4

def tcpHeaderBytes (pkg : List UInt8) : Nat := peek pkg (ipHeaderBytes pkg + 12) / 16 * 4

def totLen (pkg : List UInt8) : Nat := peek16 pkg 2

/-! ### Checksum -/

/-- The sum of the 16-bit words of a buffer, in the byte order of the machine. -/
def sumWords : List UInt8 → Nat
  | low :: high :: rest => low.toNat + 256 * high.toNat + sumWords rest
  | [last] => last.toNat
  | [] => 0

/-- The carry loop; it ends after fewer rounds than its sum counts. -/
def foldCarries : Nat → Nat → Nat
  | 0, sum => sum
  | fuel + 1, sum =>
      if sum / 65536 = 0 then sum else foldCarries fuel (sum % 65536 + sum / 65536)

def csum (buffer : List UInt8) : Nat :=
  let sum := sumWords buffer
  65535 - foldCarries sum sum

/-- The pseudo header: both addresses as they stand, a zero, the protocol, the length. -/
def pseudoHeader (pkg : List UInt8) (length : Nat) : List UInt8 :=
  (pkg.drop 12).take 8 ++
    [0, UInt8.ofNat (peek pkg 9), UInt8.ofNat (length / 256), UInt8.ofNat (length % 256)]

/-- Packets of 2048 bytes and more do not fit the scratch buffer and get zero. -/
def tcpCsum (pkg : List UInt8) : Nat :=
  if totLen pkg ≥ 2048 then 0
  else
    let length := totLen pkg - ipHeaderBytes pkg
    let segment := (((pkg.drop (ipHeaderBytes pkg)).take length).set 16 0).set 17 0
    csum (pseudoHeader pkg length ++ segment)

/-! ### The rewrite -/

def blank (pkg : List UInt8) (offset count : Nat) : List UInt8 :=
  (List.range (min 8 count)).foldl (fun bytes index => bytes.set (offset + index) 0) pkg

def storeCheck (pkg : List UInt8) (check : Nat) : List UInt8 :=
  let place := ipHeaderBytes pkg + 16
  (pkg.set place (UInt8.ofNat (check % 256))).set (place + 1) (UInt8.ofNat (check / 256))

def rstTcpLink (pkg : List UInt8) : List UInt8 :=
  if peek pkg 0 / 16 ≠ 4 then pkg
  else if peek pkg 9 ≠ 6 then pkg
  else
    let offset := ipHeaderBytes pkg + tcpHeaderBytes pkg
    let blanked := blank pkg offset (totLen pkg - offset)
    storeCheck blanked (tcpCsum blanked)

/-! ### What the rewrite changes -/

theorem peek_set_ne (bytes : List UInt8) {index other : Nat} (value : UInt8)
    (different : index ≠ other) : peek (bytes.set index value) other = peek bytes other := by
  unfold peek
  rw [List.getD_eq_getElem?_getD, List.getD_eq_getElem?_getD, List.getElem?_set_ne different]

theorem peek_set_zero (bytes : List UInt8) (index : Nat) : peek (bytes.set index 0) index = 0 := by
  unfold peek
  rw [List.getD_eq_getElem?_getD, List.getElem?_set_self']
  cases bytes[index]? <;> rfl

theorem peek_blank (pkg : List UInt8) (offset count index : Nat) :
    peek (blank pkg offset count) index =
      if offset ≤ index ∧ index < offset + min 8 count then 0 else peek pkg index := by
  unfold blank
  -- by induction on the number of bytes already blanked
  induction min 8 count with
  | zero =>
      rw [if_neg (by omega)]
      rfl
  | succ blanked ih =>
      rw [List.range_succ, List.foldl_append, List.foldl_cons, List.foldl_nil]
      by_cases last : offset + blanked = index
      · rw [last, peek_set_zero, if_pos (by omega)]
      · rw [peek_set_ne _ _ last, ih]
        by_cases earlier : offset ≤ index ∧ index < offset + blanked
        · rw [if_pos earlier, if_pos (by omega)]
        · rw [if_neg earlier, if_neg (by omega)]

theorem peek_storeCheck (pkg : List UInt8) (check : Nat) {index : Nat}
    (elsewhere : index ≠ ipHeaderBytes pkg + 16 ∧ index ≠ ipHeaderBytes pkg + 17) :
    peek (storeCheck pkg check) index = peek pkg index := by
  unfold storeCheck
  dsimp only
  rw [peek_set_ne _ _ (by omega), peek_set_ne _ _ (by omega)]

theorem byteAt_eq_peek (bytes : List UInt8) (index : Nat) (inside : index < bytes.length) :
    byteAt bytes index inside = peek bytes index := by
  unfold byteAt peek
  rw [List.getD_eq_getElem?_getD, List.getElem?_eq_getElem inside]
  rfl

theorem peek_drop (bytes : List UInt8) (skipped index : Nat) :
    peek (bytes.drop skipped) index = peek bytes (skipped + index) := by
  unfold peek
  rw [List.getD_eq_getElem?_getD, List.getD_eq_getElem?_getD, List.getElem?_drop]

/-- The rewrite and the tracker find the headers and the payload in the same places. -/
theorem offsets_of_parseSegment {pkg : List UInt8} {segment : Segment}
    (parsed : parseSegment pkg = some segment) :
    peek pkg 9 = 6 ∧ 20 ≤ ipHeaderBytes pkg ∧ 20 ≤ tcpHeaderBytes pkg ∧
      segment.payloadOffset = ipHeaderBytes pkg + tcpHeaderBytes pkg := by
  unfold parseSegment parseIpv4Header at parsed
  split at parsed
  · cases parsed
  · rename_i ip ipAt
    split at ipAt
    · dsimp only at ipAt
      split at ipAt
      · cases ipAt
      · rename_i long fits
        cases ipAt
        dsimp only at parsed
        simp only [byteAt_eq_peek] at parsed fits
        split at parsed
        · rename_i tcpProtocol
          rcases Option.map_eq_some_iff.mp parsed with ⟨tcp, tcpAt, rfl⟩
          unfold parseTcpHeader at tcpAt
          split at tcpAt
          · dsimp only at tcpAt
            split at tcpAt
            · cases tcpAt
            · rename_i tcpFits
              cases tcpAt
              simp only [byteAt_eq_peek, peek_drop] at tcpFits ⊢
              rw [not_or] at fits tcpFits
              unfold tcpHeaderBytes ipHeaderBytes
              exact ⟨tcpProtocol, by omega, by omega, rfl⟩
          · cases tcpAt
        · cases parsed
    · cases ipAt

/-- One of the bytes to be overwritten is not zero already, and the packet is one the
rewrite looks at. -/
def RewriteBites (pkg : List UInt8) (segment : Segment) : Prop :=
  peek pkg 0 / 16 = 4 ∧ ∃ index < 8, segment.payloadOffset + index < totLen pkg ∧
    peek pkg (segment.payloadOffset + index) ≠ 0

instance (pkg : List UInt8) (segment : Segment) : Decidable (RewriteBites pkg segment) :=
  inferInstanceAs (Decidable (_ ∧ ∃ index < 8, _))

theorem payload_rstTcpLink_ne {pkg : List UInt8} {segment : Segment}
    (parsed : parseSegment pkg = some segment) (bites : RewriteBites pkg segment) :
    segment.payload (rstTcpLink pkg) ≠ segment.payload pkg := by
  rcases offsets_of_parseSegment parsed with ⟨protocol, ipLong, tcpLong, offset⟩
  rcases bites with ⟨version, index, inReach, inPacket, nonzero⟩
  intro same
  -- the byte in question is zero afterwards
  have sameByte := congrArg (fun bytes => peek bytes index) same
  dsimp only [Segment.payload] at sameByte
  rw [peek_drop, peek_drop] at sameByte
  apply nonzero
  rw [← sameByte]
  have headerKept : ipHeaderBytes (blank pkg (ipHeaderBytes pkg + tcpHeaderBytes pkg)
      (totLen pkg - (ipHeaderBytes pkg + tcpHeaderBytes pkg))) = ipHeaderBytes pkg := by
    unfold ipHeaderBytes
    rw [peek_blank, if_neg]
    unfold ipHeaderBytes at ipLong
    omega
  unfold rstTcpLink
  rw [if_neg (not_not.mpr version), if_neg (not_not.mpr protocol)]
  dsimp only
  rw [peek_storeCheck, peek_blank, if_pos]
  · omega
  · rw [headerKept]
    omega

end NetPolicy.Daemon
