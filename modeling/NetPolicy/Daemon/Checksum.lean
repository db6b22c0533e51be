/-
The checksum of a rewritten packet.

The carry loop keeps a sum's residue modulo 65535, so a sum that counts the complement of
its own fold ends in 65535.  The code sums words in the byte order of the machine and
stores the complement in that order; a receiver sums in network order, which multiplies
the residue by 256 and so gives the same answer.
-/

import NetPolicy.Daemon.Rewrite

namespace NetPolicy.Daemon

/-! ### The carry loop -/

theorem carry_mod (sum : Nat) : (sum % 65536 + sum / 65536) % 65535 = sum % 65535 := by
  omega

theorem foldCarries_spec {fuel sum : Nat} (enough : sum ≤ fuel) :
    foldCarries fuel sum < 65536 ∧ foldCarries fuel sum % 65535 = sum % 65535 ∧
      (0 < sum → 0 < foldCarries fuel sum) := by
  induction fuel generalizing sum with
  | zero =>
      have none : sum = 0 := Nat.le_zero.mp enough
      rw [none]
      exact ⟨by decide, rfl, fun positive => positive⟩
  | succ fuel ih =>
      rw [foldCarries]
      by_cases short : sum / 65536 = 0
      · rw [if_pos short]
        exact ⟨by omega, rfl, fun positive => positive⟩
      · rw [if_neg short]
        -- a round with a carry makes the sum smaller
        obtain ⟨small, residue, positive⟩ := ih (by omega : sum % 65536 + sum / 65536 ≤ fuel)
        exact ⟨small, residue.trans (carry_mod sum), fun _ => positive (by omega)⟩

theorem foldCarries_eq_iff (sum : Nat) :
    foldCarries sum sum = 65535 ↔ 0 < sum ∧ sum % 65535 = 0 := by
  obtain ⟨small, residue, positive⟩ := foldCarries_spec (Nat.le_refl sum)
  constructor
  · intro folded
    rw [folded] at residue
    refine ⟨Nat.pos_of_ne_zero ?_, residue.symm⟩
    intro none
    rw [none] at folded
    cases folded
  · intro multiple
    have nonzero := positive multiple.1
    omega

theorem sum_add_csum (buffer : List UInt8) :
    foldCarries (sumWords buffer + csum buffer) (sumWords buffer + csum buffer) = 65535 := by
  obtain ⟨small, residue, _⟩ := foldCarries_spec (Nat.le_refl (sumWords buffer))
  have check : csum buffer = 65535 - foldCarries (sumWords buffer) (sumWords buffer) := rfl
  rw [foldCarries_eq_iff, check]
  constructor
  · rcases Nat.eq_zero_or_pos (sumWords buffer) with none | positive
    · rw [none]
      decide
    · exact Nat.add_pos_left positive _
  · omega

/-! ### Words -/

theorem sumWords_append {front : List UInt8} (even : front.length % 2 = 0) (rest : List UInt8) :
    sumWords (front ++ rest) = sumWords front + sumWords rest := by
  induction front using sumWords.induct with
  | case1 low high tail ih =>
      rw [List.length_cons, List.length_cons] at even
      rw [List.cons_append, List.cons_append, sumWords, sumWords, ih (by omega)]
      omega
  | case2 last => cases even
  | case3 => rw [List.nil_append, sumWords, Nat.zero_add]

/-- The sum in network byte order; an odd last byte is padded with a zero. -/
def networkSum : List UInt8 → Nat
  | high :: low :: rest => 256 * high.toNat + low.toNat + networkSum rest
  | [last] => 256 * last.toNat
  | [] => 0

theorem networkSum_mod (buffer : List UInt8) :
    networkSum buffer % 65535 = 256 * sumWords buffer % 65535 := by
  induction buffer using networkSum.induct with
  | case1 high low rest ih =>
      rw [networkSum, sumWords]
      omega
  | case2 last => rw [networkSum, sumWords]
  | case3 => rfl

theorem networkSum_pos {buffer : List UInt8} (positive : 0 < sumWords buffer) :
    0 < networkSum buffer := by
  induction buffer using networkSum.induct with
  | case1 high low rest ih =>
      rw [sumWords] at positive
      rw [networkSum]
      omega
  | case2 last =>
      rw [sumWords] at positive
      rw [networkSum]
      omega
  | case3 => cases positive

/-- Both byte orders agree on whether a buffer is checked successfully. -/
theorem networkSum_folds {buffer : List UInt8}
    (folds : foldCarries (sumWords buffer) (sumWords buffer) = 65535) :
    foldCarries (networkSum buffer) (networkSum buffer) = 65535 := by
  rw [foldCarries_eq_iff] at folds ⊢
  have residue := networkSum_mod buffer
  exact ⟨networkSum_pos folds.1, by omega⟩

/-! ### Packets -/

structure TcpPacket where
  bytes : List UInt8
  version : peek bytes 0 / 16 = 4
  protocol : peek bytes 9 = 6
  ihl : 20 ≤ ipHeaderBytes bytes
  doff : 20 ≤ tcpHeaderBytes bytes
  inside : ipHeaderBytes bytes + tcpHeaderBytes bytes ≤ bytes.length
  complete : bytes.length = totLen bytes
  small : totLen bytes < 2048

def tcpSegment (pkg : List UInt8) : List UInt8 :=
  (pkg.drop (ipHeaderBytes pkg)).take (totLen pkg - ipHeaderBytes pkg)

/-- What a receiver sums: the pseudo header and the segment with its checksum. -/
def receiverSum (pkg : List UInt8) : Nat :=
  networkSum (pseudoHeader pkg (totLen pkg - ipHeaderBytes pkg) ++ tcpSegment pkg)

theorem length_blank (pkg : List UInt8) (offset count : Nat) :
    (blank pkg offset count).length = pkg.length := by
  unfold blank
  induction min 8 count with
  | zero => rfl
  | succ blanked ih =>
      rw [List.range_succ, List.foldl_append, List.foldl_cons, List.foldl_nil, List.length_set, ih]

theorem length_storeCheck (pkg : List UInt8) (check : Nat) :
    (storeCheck pkg check).length = pkg.length := by
  unfold storeCheck
  dsimp only
  rw [List.length_set, List.length_set]

theorem getElem?_eq_of_peek {left right : List UInt8} (lengths : left.length = right.length)
    {index : Nat} (values : peek left index = peek right index) : left[index]? = right[index]? := by
  unfold peek at values
  rw [List.getD_eq_getElem?_getD, List.getD_eq_getElem?_getD] at values
  by_cases inside : index < left.length
  · have alsoInside : index < right.length := lengths ▸ inside
    rw [List.getElem?_eq_getElem inside, List.getElem?_eq_getElem alsoInside] at values ⊢
    exact congrArg some (UInt8.toNat_inj.mp values)
  · rw [List.getElem?_eq_none (Nat.le_of_not_lt inside), List.getElem?_eq_none (by omega)]

structure SameHeader (left right : List UInt8) : Prop where
  length : left.length = right.length
  bytes : ∀ index < 20, peek left index = peek right index

namespace SameHeader

variable {left right : List UInt8} (same : SameHeader left right)
include same

theorem ipHeaderBytes_eq : ipHeaderBytes left = ipHeaderBytes right := by
  rw [ipHeaderBytes, ipHeaderBytes, same.bytes 0 (by decide)]

theorem totLen_eq : totLen left = totLen right := by
  rw [totLen, totLen, peek16, peek16, same.bytes 2 (by decide), same.bytes 3 (by decide)]

theorem pseudoHeader_eq (length : Nat) : pseudoHeader left length = pseudoHeader right length := by
  have addresses : (left.drop 12).take 8 = (right.drop 12).take 8 := by
    apply List.ext_getElem?
    intro index
    by_cases low : index < 8
    · rw [List.getElem?_take_of_lt low, List.getElem?_take_of_lt low, List.getElem?_drop,
        List.getElem?_drop, getElem?_eq_of_peek same.length (same.bytes _ (by omega))]
    · rw [List.getElem?_take_eq_none (by omega), List.getElem?_take_eq_none (by omega)]
  rw [pseudoHeader, pseudoHeader, addresses, same.bytes 9 (by decide)]

end SameHeader

/-! ### The stored checksum -/

theorem set_pair {bytes : List UInt8} {index : Nat} (inside : index + 2 ≤ bytes.length)
    (first second : UInt8) :
    (bytes.set index first).set (index + 1) second =
      bytes.take index ++ (first :: second :: bytes.drop (index + 2)) := by
  apply List.ext_getElem?
  intro position
  by_cases before : position < index
  · rw [List.getElem?_set_ne (by omega), List.getElem?_set_ne (by omega),
      List.getElem?_append_left (by rw [List.length_take]; omega), List.getElem?_take_of_lt before]
  · have front : (bytes.take index).length = index := by
      rw [List.length_take]
      omega
    rw [List.getElem?_append_right (by omega), front]
    obtain ⟨offset, rfl⟩ := Nat.exists_eq_add_of_le (Nat.le_of_not_lt before)
    rw [Nat.add_sub_cancel_left]
    match offset with
    | 0 =>
        rw [List.getElem?_set_ne (by omega), Nat.add_zero,
          List.getElem?_set_self (by omega)]
        rfl
    | 1 =>
        rw [List.getElem?_set_self (by rw [List.length_set]; omega)]
        rfl
    | offset + 2 =>
        rw [List.getElem?_set_ne (by omega), List.getElem?_set_ne (by omega),
          List.getElem?_cons_succ, List.getElem?_cons_succ, List.getElem?_drop]
        congr 1
        omega

theorem sumWords_set_pair {front bytes : List UInt8} (even : front.length % 2 = 0) {index : Nat}
    (evenIndex : index % 2 = 0) (inside : index + 2 ≤ bytes.length) (first second : UInt8) :
    sumWords (front ++ (bytes.set index first).set (index + 1) second) =
      sumWords (front ++ (bytes.set index 0).set (index + 1) 0) +
        (first.toNat + 256 * second.toNat) := by
  have taken : (bytes.take index).length % 2 = 0 := by
    rw [List.length_take]
    omega
  rw [set_pair inside, set_pair inside, sumWords_append even, sumWords_append even,
    sumWords_append taken, sumWords_append taken, sumWords, sumWords]
  have zero : (0 : UInt8).toNat = 0 := rfl
  rw [zero]
  omega

theorem csum_le (buffer : List UInt8) : csum buffer ≤ 65535 := Nat.sub_le _ _

theorem tcpSegment_storeCheck {pkg : List UInt8} (check : Nat) (same : SameHeader
    (storeCheck pkg check) pkg) :
    tcpSegment (storeCheck pkg check) =
      ((tcpSegment pkg).set 16 (UInt8.ofNat (check % 256))).set 17 (UInt8.ofNat (check / 256)) := by
  unfold tcpSegment
  rw [same.ipHeaderBytes_eq, same.totLen_eq]
  unfold storeCheck
  dsimp only
  rw [List.drop_set, if_neg (by omega), List.drop_set, if_neg (by omega), List.take_set,
    List.take_set]
  congr 1
  · congr 1
    omega
  · omega

/-! ### The rewritten packet -/

namespace TcpPacket

variable (packet : TcpPacket)

def offset : Nat := ipHeaderBytes packet.bytes + tcpHeaderBytes packet.bytes

def blanked : List UInt8 :=
  blank packet.bytes packet.offset (totLen packet.bytes - packet.offset)

theorem rstTcpLink_eq :
    rstTcpLink packet.bytes = storeCheck packet.blanked (tcpCsum packet.blanked) := by
  rw [rstTcpLink, if_neg (not_not_intro packet.version), if_neg (not_not_intro packet.protocol)]
  rfl

theorem sameHeader_blanked : SameHeader packet.blanked packet.bytes := by
  constructor
  · exact length_blank _ _ _
  · intro index low
    have ihl := packet.ihl
    rw [blanked, peek_blank, if_neg]
    unfold offset
    omega

theorem sameHeader_storeCheck (check : Nat) :
    SameHeader (storeCheck packet.blanked check) packet.blanked := by
  constructor
  · exact length_storeCheck _ _
  · intro index low
    have ihl := packet.ihl
    apply peek_storeCheck
    rw [packet.sameHeader_blanked.ipHeaderBytes_eq]
    omega

theorem length_segment :
    (tcpSegment packet.blanked).length = totLen packet.bytes - ipHeaderBytes packet.bytes := by
  have complete := packet.complete
  rw [tcpSegment, packet.sameHeader_blanked.ipHeaderBytes_eq, packet.sameHeader_blanked.totLen_eq,
    List.length_take, List.length_drop, packet.sameHeader_blanked.length]
  omega

theorem length_pseudoHeader (length : Nat) : (pseudoHeader packet.blanked length).length = 12 := by
  have ihl := packet.ihl
  have inside := packet.inside
  rw [pseudoHeader, List.length_append, List.length_take, List.length_drop,
    packet.sameHeader_blanked.length]
  simp only [List.length_cons, List.length_nil]
  omega

/-- The sum of the rewritten packet is the sum the code computed, with the complement it
stored added. -/
theorem receiver_check :
    foldCarries (receiverSum (rstTcpLink packet.bytes)) (receiverSum (rstTcpLink packet.bytes)) =
      65535 := by
  have header := packet.sameHeader_storeCheck (tcpCsum packet.blanked)
  have front := packet.sameHeader_blanked
  let length := totLen packet.blanked - ipHeaderBytes packet.blanked
  let buffer := pseudoHeader packet.blanked length ++ ((tcpSegment packet.blanked).set 16 0).set 17 0
  have small : ¬totLen packet.blanked ≥ 2048 := by
    rw [front.totLen_eq]
    exact Nat.not_le.mpr packet.small
  have check : tcpCsum packet.blanked = csum buffer := by
    rw [tcpCsum, if_neg small]
    rfl
  have bound := csum_le buffer
  have room : 16 + 2 ≤ (tcpSegment packet.blanked).length := by
    have doff := packet.doff
    have inside := packet.inside
    rw [packet.length_segment, ← packet.complete]
    omega
  have even : (pseudoHeader packet.blanked length).length % 2 = 0 := by
    rw [packet.length_pseudoHeader]
  have lowByte : (UInt8.ofNat (csum buffer % 256)).toNat = csum buffer % 256 := by
    simp
  have highByte : (UInt8.ofNat (csum buffer / 256)).toNat = csum buffer / 256 := by
    rw [UInt8.toNat_ofNat']
    omega
  rw [packet.rstTcpLink_eq]
  apply networkSum_folds
  rw [header.pseudoHeader_eq, header.totLen_eq, header.ipHeaderBytes_eq,
    tcpSegment_storeCheck _ header, check,
    sumWords_set_pair even rfl room, lowByte, highByte, Nat.mod_add_div]
  exact sum_add_csum buffer

end TcpPacket

/-- A denied packet keeps its length, loses at most eight bytes of payload, changes
nowhere else but in its checksum, and passes the receiver's check. -/
theorem rstTcpLink_valid (packet : TcpPacket) :
    (rstTcpLink packet.bytes).length = packet.bytes.length ∧
      (∀ index < min 8 (packet.bytes.length - packet.offset),
        (rstTcpLink packet.bytes)[packet.offset + index]? = some 0) ∧
      (∀ index,
        ¬(packet.offset ≤ index ∧
          index < packet.offset + min 8 (packet.bytes.length - packet.offset)) →
        index ≠ ipHeaderBytes packet.bytes + 16 → index ≠ ipHeaderBytes packet.bytes + 17 →
          (rstTcpLink packet.bytes)[index]? = packet.bytes[index]?) ∧
      foldCarries (receiverSum (rstTcpLink packet.bytes))
        (receiverSum (rstTcpLink packet.bytes)) = 65535 := by
  have front := packet.sameHeader_blanked
  have doff := packet.doff
  have complete := packet.complete
  have lengths : (rstTcpLink packet.bytes).length = packet.bytes.length := by
    rw [packet.rstTcpLink_eq, length_storeCheck, front.length]
  have elsewhere : ∀ index, index ≠ ipHeaderBytes packet.bytes + 16 →
      index ≠ ipHeaderBytes packet.bytes + 17 →
        peek (rstTcpLink packet.bytes) index = peek packet.blanked index := by
    intro index notLow notHigh
    rw [packet.rstTcpLink_eq]
    apply peek_storeCheck
    rw [front.ipHeaderBytes_eq]
    exact ⟨notLow, notHigh⟩
  refine ⟨lengths, ?_, ?_, packet.receiver_check⟩
  · intro index inReach
    have behind : packet.offset = ipHeaderBytes packet.bytes + tcpHeaderBytes packet.bytes := rfl
    have inside : packet.offset + index < (rstTcpLink packet.bytes).length := by omega
    have zero : peek (rstTcpLink packet.bytes) (packet.offset + index) = 0 := by
      rw [elsewhere _ (by omega) (by omega), TcpPacket.blanked, peek_blank, if_pos (by omega)]
    rw [List.getElem?_eq_getElem inside]
    unfold peek at zero
    rw [List.getD_eq_getElem?_getD, List.getElem?_eq_getElem inside] at zero
    exact congrArg some (UInt8.toNat_inj.mp zero)
  · intro index outside notLow notHigh
    apply getElem?_eq_of_peek lengths
    rw [elsewhere index notLow notHigh, TcpPacket.blanked, peek_blank, if_neg]
    omega

def getPacket : TcpPacket where
  bytes :=
    [0x45, 0, 0, 43, 0, 0, 0, 0, 64, 6, 0, 0, 10, 0, 0, 1, 10, 0, 0, 2] ++
      [0, 1, 0, 2, 0, 0, 0, 9, 0, 0, 0, 0, 0x50, 16, 0, 0, 0, 0, 0, 0] ++ [71, 69, 84]
  version := rfl
  protocol := rfl
  ihl := by decide +kernel
  doff := by decide +kernel
  inside := by decide +kernel
  complete := rfl
  small := by decide +kernel

example : (rstTcpLink getPacket.bytes).drop 40 = [0, 0, 0] := by decide +kernel

end NetPolicy.Daemon
