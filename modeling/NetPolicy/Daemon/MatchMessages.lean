/-
Match notifications.

`SendMatchMsg` formats a match as a JSON object into a buffer of 1024 bytes, without escaping
the strings and without looking at their length, and writes it to the listener behind a
prefix of 11 bytes whose last four are the length.  The record fits its buffer and gives every
field back exactly if the strings are plain and short enough; the prefix is right whenever the
record fits.
-/

import NetPolicy.Daemon.Callback
import NetPolicy.Daemon.Replacement
import NetPolicy.Grpc.EventService
import NetPolicy.Library.JsonObjects

namespace NetPolicy.Policy

def FlowDir.value : FlowDir → Nat
  | .ingress => 0
  | .egress => 1

end NetPolicy.Policy

namespace NetPolicy.Daemon

open NetPolicy.Policy NetPolicy.Flow NetPolicy.GrpcBridge RustText SeparatedText Json

/-! ### Formatting a record -/

namespace MatchMsg

/-- The text that the format of `SendMatchMsg` gives.  The fields printed as numbers are of
eight and sixteen bits. -/
def record (msg : MatchMsg) : String :=
  "\x7b\"type\":\"microseg\",\"proto\":" ++ toString msg.tuple.proto ++
    ",\"action\":" ++ toString msg.action.value ++
    ",\"direction\":" ++ toString msg.dir.value ++
    ",\"src_port\":" ++ toString msg.tuple.srcPort ++
    ",\"dst_port\":" ++ toString msg.tuple.dstPort ++
    ",\"src_ip\":\"" ++ cString msg.tuple.srcAddr ++
    "\",\"dst_ip\":\"" ++ cString msg.tuple.dstAddr ++
    "\",\"policy_name\":\"" ++ cString msg.ruleKey ++ "\"\x7d"

def bytes (msg : MatchMsg) : List UInt8 := toUtf8 msg.record.toList

/-- The zeroed buffer after `sprintf`, or `none` if the text and its terminator go past the
end of it. -/
def data (msg : MatchMsg) : Option (List UInt8) :=
  if msg.bytes.length + 1 ≤ 1024 then
    some (msg.bytes ++ List.replicate (1024 - msg.bytes.length) 0)
  else none

def policyMatch (msg : MatchMsg) : PolicyMatch :=
  { protocol := UInt8.ofNat msg.tuple.proto
    action := msg.action.value
    direction := msg.dir.value
    srcPort := UInt16.ofNat msg.tuple.srcPort
    dstPort := UInt16.ofNat msg.tuple.dstPort
    srcIp := msg.tuple.srcAddr
    dstIp := msg.tuple.dstAddr
    policyName := msg.ruleKey }

end MatchMsg

def strlen (data : List UInt8) : Nat := (data.takeWhile (· ≠ 0)).length

def lengthBytes (len : Nat) : List UInt8 :=
  [UInt8.ofNat (len &&& 0xff), UInt8.ofNat ((len >>> 8) &&& 0xff),
    UInt8.ofNat ((len >>> 16) &&& 0xff), UInt8.ofNat ((len >>> 24) &&& 0xff)]

def matchPrefix (len : Nat) : List UInt8 := toUtf8 "#%% pre".toList ++ lengthBytes len

/-! ### Posting it -/

structure Posted where
  published : PolicyMatch
  written : List (List UInt8)
  ret : Int
deriving DecidableEq, Repr

structure PostServer where
  postLinkFd : Int

/-- `SendMatchMsg`, with `write` giving the value that the call on a descriptor returns.  The
strings of the model are valid UTF-8, so the event is always published.  There is no result
where the formatted record leaves its buffer. -/
def PostServer.sendMatchMsg (server : PostServer) (write : Int → List UInt8 → Int)
    (msg : MatchMsg) : Option Posted :=
  if server.postLinkFd ≤ 0 then
    some { published := msg.policyMatch, written := [], ret := 0 }
  else
    msg.data.map fun data =>
      let len := strlen data
      let buf := matchPrefix len
      if write server.postLinkFd buf ≤ 0 then
        { published := msg.policyMatch, written := [buf], ret := -1 }
      else
        { published := msg.policyMatch
          written := [buf, data.take len]
          ret := if write server.postLinkFd (data.take len) ≤ 0 then -1 else 0 }

/-! ### What the listener is to make of it -/

def littleEndian (bytes : List UInt8) : Nat :=
  bytes.foldr (fun byte value => byte.toNat + 256 * value) 0

structure Framed (header body : List UInt8) : Prop where
  size : header.length = 11
  tag : header.take 7 = toUtf8 "#%% pre".toList
  length : littleEndian (header.drop 7) = body.length

namespace MatchMsg

def fields (msg : MatchMsg) : List (List Char × Value) :=
  [("type".toList, .string "microseg".toList),
    ("proto".toList, .number msg.tuple.proto 0),
    ("action".toList, .number msg.action.value 0),
    ("direction".toList, .number msg.dir.value 0),
    ("src_port".toList, .number msg.tuple.srcPort 0),
    ("dst_port".toList, .number msg.tuple.dstPort 0),
    ("src_ip".toList, .string msg.tuple.srcAddr.toList),
    ("dst_ip".toList, .string msg.tuple.dstAddr.toList),
    ("policy_name".toList, .string msg.ruleKey.toList)]

def Recovered (msg : MatchMsg) (body : List UInt8) : Prop :=
  ∃ text members, fromUtf8 body = some text ∧ Decodes text (.object members) ∧
    ∀ field ∈ msg.fields, members.lookup field.1 = some field.2

end MatchMsg

structure LinkedServer extends PostServer where
  linked : 0 < postLinkFd

def completeWrite (_ : Int) (bytes : List UInt8) : Int := bytes.length

/-- The record fits its buffer, and the listener gets it whole: framed, and with every field
to be found in it. -/
def LinkedServer.Delivers (server : LinkedServer) (msg : MatchMsg) : Prop :=
  ∃ header body,
    server.sendMatchMsg completeWrite msg =
      some { published := msg.policyMatch, written := [header, body], ret := 0 } ∧
    Framed header body ∧ msg.Recovered body

/-! ### Framing -/

theorem littleEndian_lengthBytes {len : Nat} (short : len < 2 ^ 32) :
    littleEndian (lengthBytes len) = len := by
  have low (value : Nat) : (UInt8.ofNat (value &&& 0xff)).toNat = value % 256 := by
    have masked : value &&& 0xff = value % 256 := Nat.and_two_pow_sub_one_eq_mod value 8
    rw [masked, toNat_ofNat_byte (Nat.mod_lt value (by decide))]
  simp only [lengthBytes, littleEndian, List.foldr_cons, List.foldr_nil, low,
    Nat.shiftRight_eq_div_pow]
  omega

theorem framed_matchPrefix {body : List UInt8} (short : body.length < 2 ^ 32) :
    Framed (matchPrefix body.length) body := by
  have tag : (toUtf8 "#%% pre".toList).length = 7 := by rw [length_toUtf8]; rfl
  constructor
  · rw [matchPrefix, List.length_append, tag]
    rfl
  · rw [matchPrefix, List.take_left' tag]
  · rw [matchPrefix, List.drop_left' tag, littleEndian_lengthBytes short]

theorem strlen_padded {bytes : List UInt8} (noZero : 0 ∉ bytes) {padding : Nat}
    (padded : 0 < padding) : strlen (bytes ++ List.replicate padding 0) = bytes.length := by
  obtain ⟨padding, rfl⟩ : ∃ less, padding = less + 1 := ⟨padding - 1, by omega⟩
  have nonzero : ∀ byte ∈ bytes, decide (byte ≠ 0) = true := by
    intro byte member
    rw [decide_eq_true_iff]
    rintro rfl
    exact noZero member
  rw [strlen, List.takeWhile_append_of_pos nonzero, List.replicate_succ,
    List.takeWhile_cons_of_neg (by simp), List.append_nil]

/-! ### The bytes of a record -/

theorem nul_not_mem_repr (value : Nat) : '\x00' ∉ value.repr.toList := by
  rw [Nat.toList_repr]
  exact not_mem_toDigits (by decide) value

theorem nul_not_mem_cString (text : String) : '\x00' ∉ (cString text).toList := by
  rw [cString, String.toList_ofList]
  intro member
  exact absurd (List.mem_takeWhile_imp member) (by simp)

theorem cString_append_cut (text : String) :
    ∃ extra, text.toList = (cString text).toList ++ extra := by
  rw [cString, String.toList_ofList]
  exact ⟨_, List.takeWhile_append_dropWhile.symm⟩

theorem cString_of_plain {text : String} (plain : Plain text.toList) : cString text = text := by
  have kept : (cString text).toList = text.toList := by
    rw [cString, String.toList_ofList, List.takeWhile_eq_self_iff]
    intro character member
    rw [decide_eq_true_iff]
    rintro rfl
    exact absurd (plain _ member).2.2 (by decide)
  exact String.toList_inj.mp kept

namespace MatchMsg

def leading (msg : MatchMsg) : List Field :=
  [Field.string "type".toList (by simp [Plain, PlainChar]) "microseg".toList
      (by simp [Plain, PlainChar]),
    Field.number "proto".toList (by simp [Plain, PlainChar]) msg.tuple.proto,
    Field.number "action".toList (by simp [Plain, PlainChar]) msg.action.value,
    Field.number "direction".toList (by simp [Plain, PlainChar]) msg.dir.value,
    Field.number "src_port".toList (by simp [Plain, PlainChar]) msg.tuple.srcPort,
    Field.number "dst_port".toList (by simp [Plain, PlainChar]) msg.tuple.dstPort]

theorem record_toList (msg : MatchMsg) :
    msg.record.toList = '\x7b' :: membersText msg.leading
      (memberText "src_ip".toList ('"' :: ((cString msg.tuple.srcAddr).toList ++ '"' :: ',' ::
        memberText "dst_ip".toList ('"' :: ((cString msg.tuple.dstAddr).toList ++ '"' :: ',' ::
          memberText "policy_name".toList ('"' :: ((cString msg.ruleKey).toList ++ '"' ::
            ['\x7d']))))))) := by
  have numeral (value : Nat) : toString value = value.repr := rfl
  unfold record
  simp only [String.toList_append, String.reduceToList, numeral, leading, membersText, memberText,
    Field.string, Field.number, List.foldr_cons, List.foldr_nil, List.cons_append, List.nil_append,
    List.append_assoc]

theorem nul_not_mem_record (msg : MatchMsg) : '\x00' ∉ msg.record.toList := by
  have numeral (value : Nat) : '\x00' ∉ (toString value).toList := nul_not_mem_repr value
  unfold record
  simp only [String.toList_append, List.mem_append, not_or, nul_not_mem_cString, numeral,
    not_false_eq_true, and_true, String.reduceToList]
  simp

theorem zero_not_mem_bytes (msg : MatchMsg) : 0 ∉ msg.bytes :=
  zero_not_mem_toUtf8 msg.nul_not_mem_record

theorem bytes_ne_nil (msg : MatchMsg) : msg.bytes ≠ [] := by
  intro empty
  have decoded : fromUtf8 msg.bytes = some msg.record.toList := fromUtf8_toUtf8 _
  rw [empty, msg.record_toList] at decoded
  cases decoded

def size (msg : MatchMsg) : Nat :=
  116 + msg.tuple.proto.repr.utf8ByteSize + msg.action.value.repr.utf8ByteSize +
    msg.dir.value.repr.utf8ByteSize + msg.tuple.srcPort.repr.utf8ByteSize +
    msg.tuple.dstPort.repr.utf8ByteSize + msg.tuple.srcAddr.utf8ByteSize +
    msg.tuple.dstAddr.utf8ByteSize + msg.ruleKey.utf8ByteSize

theorem length_bytes_of_plain {msg : MatchMsg} (src : Plain msg.tuple.srcAddr.toList)
    (dst : Plain msg.tuple.dstAddr.toList) (name : Plain msg.ruleKey.toList) :
    msg.bytes.length = msg.size := by
  have numeral (value : Nat) : toString value = value.repr := rfl
  rw [bytes, length_toUtf8]
  unfold record size
  simp only [String.utf8ByteSize_append, numeral, cString_of_plain src,
    cString_of_plain dst, cString_of_plain name]
  -- the parts of the format between its conversions
  change 27 + _ + 10 + _ + 13 + _ + 12 + _ + 12 + _ + 11 + _ + 12 + _ + 17 + _ + 2 = _
  omega

end MatchMsg

theorem LinkedServer.sendMatchMsg_eq (server : LinkedServer) (msg : MatchMsg) :
    server.sendMatchMsg completeWrite msg =
      if msg.bytes.length + 1 ≤ 1024 then
        some { published := msg.policyMatch
               written := [matchPrefix msg.bytes.length, msg.bytes]
               ret := 0 }
      else none := by
  have linked : ¬server.postLinkFd ≤ 0 := Int.not_le.mpr server.linked
  rw [PostServer.sendMatchMsg, if_neg linked, MatchMsg.data]
  split
  · rename_i fits
    have prefixWritten : ¬completeWrite server.postLinkFd (matchPrefix msg.bytes.length) ≤ 0 := by
      have framed : Framed (matchPrefix msg.bytes.length) msg.bytes :=
        framed_matchPrefix (by omega)
      rw [completeWrite, framed.size]
      decide
    have bodyWritten : ¬completeWrite server.postLinkFd msg.bytes ≤ 0 := by
      have nonempty := List.length_pos_iff.mpr msg.bytes_ne_nil
      rw [completeWrite]
      omega
    rw [Option.map_some, strlen_padded msg.zero_not_mem_bytes (by omega)]
    dsimp only
    rw [List.take_left, if_neg prefixWritten, if_neg bodyWritten]
  · rfl

/-! ### Reading a record back -/

namespace MatchMsg

variable {msg : MatchMsg}

theorem srcIp_plain : Plain "src_ip".toList := by simp [Plain, PlainChar]

theorem dstIp_plain : Plain "dst_ip".toList := by simp [Plain, PlainChar]

theorem policyName_plain : Plain "policy_name".toList := by simp [Plain, PlainChar]

/-- The fields in front of the second address, once the first one is plain. -/
def upToSrc (msg : MatchMsg) (src : Plain (cString msg.tuple.srcAddr).toList) : List Field :=
  msg.leading ++ [Field.string "src_ip".toList srcIp_plain _ src]

def upToDst (msg : MatchMsg) (src : Plain (cString msg.tuple.srcAddr).toList)
    (dst : Plain (cString msg.tuple.dstAddr).toList) : List Field :=
  msg.upToSrc src ++ [Field.string "dst_ip".toList dstIp_plain _ dst]

theorem record_upToSrc (src : Plain (cString msg.tuple.srcAddr).toList) :
    msg.record.toList = '\x7b' :: membersText (msg.upToSrc src)
      (memberText "dst_ip".toList ('"' :: ((cString msg.tuple.dstAddr).toList ++ '"' :: ',' ::
        memberText "policy_name".toList ('"' :: ((cString msg.ruleKey).toList ++ '"' ::
          ['\x7d']))))) := by
  rw [upToSrc, membersText_string, record_toList]

theorem record_upToDst (src : Plain (cString msg.tuple.srcAddr).toList)
    (dst : Plain (cString msg.tuple.dstAddr).toList) :
    msg.record.toList = '\x7b' :: membersText (msg.upToDst src dst)
      (memberText "policy_name".toList ('"' :: ((cString msg.ruleKey).toList ++ '"' ::
        ['\x7d']))) := by
  rw [upToDst, membersText_string, record_upToSrc src]

/-- Strings that are found unchanged were plain: the first of them decides where the reader
looks for the second. -/
theorem plain_of_recovered {members : List (List Char × Value)}
    (decoded : decode msg.record.toList = some (.object members))
    (recovered : ∀ field ∈ msg.fields, members.lookup field.1 = some field.2) :
    Plain msg.tuple.srcAddr.toList ∧ Plain msg.tuple.dstAddr.toList ∧
      Plain msg.ruleKey.toList := by
  obtain ⟨srcExtra, srcCut⟩ := cString_append_cut msg.tuple.srcAddr
  obtain ⟨dstExtra, dstCut⟩ := cString_append_cut msg.tuple.dstAddr
  obtain ⟨nameExtra, nameCut⟩ := cString_append_cut msg.ruleKey
  have srcFound := recovered ("src_ip".toList, .string msg.tuple.srcAddr.toList) (by simp [fields])
  have dstFound := recovered ("dst_ip".toList, .string msg.tuple.dstAddr.toList) (by simp [fields])
  have nameFound := recovered ("policy_name".toList, .string msg.ruleKey.toList) (by simp [fields])
  rw [srcCut] at srcFound
  rw [dstCut] at dstFound
  rw [nameCut] at nameFound
  have srcFresh : "src_ip".toList ∉ msg.leading.map Field.name := by
    simp [leading, Field.string, Field.number]
  rw [record_toList] at decoded
  obtain ⟨src, rfl⟩ := plain_of_lookup msg.leading srcIp_plain srcFresh decoded srcFound
  have dstFresh : "dst_ip".toList ∉ (msg.upToSrc src).map Field.name := by
    simp [upToSrc, leading, Field.string, Field.number]
  rw [← record_toList, record_upToSrc src] at decoded
  obtain ⟨dst, rfl⟩ := plain_of_lookup (msg.upToSrc src) dstIp_plain dstFresh decoded dstFound
  have nameFresh : "policy_name".toList ∉ (msg.upToDst src dst).map Field.name := by
    simp [upToDst, upToSrc, leading, Field.string, Field.number]
  rw [← record_upToSrc src, record_upToDst src dst] at decoded
  obtain ⟨name, rfl⟩ :=
    plain_of_lookup (msg.upToDst src dst) policyName_plain nameFresh decoded nameFound
  rw [srcCut, dstCut, nameCut]
  simpa using ⟨src, dst, name⟩

theorem decode_record (src : Plain msg.tuple.srcAddr.toList) (dst : Plain msg.tuple.dstAddr.toList)
    (name : Plain msg.ruleKey.toList) : decode msg.record.toList = some (.object msg.fields) := by
  have srcWhole := cString_of_plain src
  have dstWhole := cString_of_plain dst
  have nameWhole := cString_of_plain name
  have srcPrinted : Plain (cString msg.tuple.srcAddr).toList := by
    rw [srcWhole]
    exact src
  have dstPrinted : Plain (cString msg.tuple.dstAddr).toList := by
    rw [dstWhole]
    exact dst
  have namePrinted : Plain (cString msg.ruleKey).toList := by
    rw [nameWhole]
    exact name
  have last := decode_object (msg.upToDst srcPrinted dstPrinted)
    (Field.string "policy_name".toList policyName_plain _ namePrinted)
  have printed : (Field.string "policy_name".toList policyName_plain _ namePrinted).text ++
      ['\x7d'] = '"' :: ((cString msg.ruleKey).toList ++ '"' :: ['\x7d']) := by
    simp [Field.string]
  rw [record_upToDst srcPrinted dstPrinted, ← printed]
  refine last.trans ?_
  simp only [upToDst, upToSrc, leading, fields, Field.string, Field.number, Field.member,
    List.map_cons, List.map_nil, List.cons_append, List.nil_append, srcWhole, dstWhole, nameWhole]

theorem fields_distinct (msg : MatchMsg) : (msg.fields.map Prod.fst).Nodup := by
  simp [fields]

theorem recovered_bytes_iff :
    msg.Recovered msg.bytes ↔
      Plain msg.tuple.srcAddr.toList ∧ Plain msg.tuple.dstAddr.toList ∧
        Plain msg.ruleKey.toList := by
  constructor
  · rintro ⟨text, members, utf8, decoded, recovered⟩
    rw [bytes, fromUtf8_toUtf8] at utf8
    rw [← Option.some.inj utf8, decodes_iff] at decoded
    exact plain_of_recovered decoded recovered
  · rintro ⟨src, dst, name⟩
    refine ⟨_, _, fromUtf8_toUtf8 msg.record.toList,
      decodes_iff.mpr (decode_record src dst name), ?_⟩
    intro field member
    exact lookup_of_mem msg.fields_distinct member

end MatchMsg

theorem delivers_iff (server : LinkedServer) (msg : MatchMsg) :
    server.Delivers msg ↔ msg.bytes.length + 1 ≤ 1024 ∧ msg.Recovered msg.bytes := by
  rw [LinkedServer.Delivers, server.sendMatchMsg_eq]
  constructor
  · rintro ⟨header, body, sent, _, recovered⟩
    split at sent
    · rename_i fits
      simp only [Option.some.injEq, Posted.mk.injEq, List.cons.injEq, and_true, true_and] at sent
      obtain ⟨rfl, rfl⟩ := sent
      exact ⟨fits, recovered⟩
    · cases sent
  · rintro ⟨fits, recovered⟩
    exact ⟨matchPrefix msg.bytes.length, msg.bytes, if_pos fits, framed_matchPrefix (by omega),
      recovered⟩

/-- A match reaches the listener framed and readable exactly if its strings hold no quote,
backslash or control character and the record leaves room for its terminator. -/
theorem sendMatchMsg_delivers_iff (server : LinkedServer) (msg : MatchMsg) :
    server.Delivers msg ↔
      Plain msg.tuple.srcAddr.toList ∧ Plain msg.tuple.dstAddr.toList ∧
        Plain msg.ruleKey.toList ∧ msg.size + 1 ≤ 1024 := by
  rw [delivers_iff, MatchMsg.recovered_bytes_iff]
  constructor
  · rintro ⟨fits, src, dst, name⟩
    rw [MatchMsg.length_bytes_of_plain src dst name] at fits
    exact ⟨src, dst, name, fits⟩
  · rintro ⟨src, dst, name, fits⟩
    rw [← MatchMsg.length_bytes_of_plain src dst name] at fits
    exact ⟨fits, src, dst, name⟩

/-! ### Names that a request can bring in -/

theorem plainChar_of_isDigit {character : Char} (digit : character.isDigit = true) :
    PlainChar character := by
  have low : '0' ≤ character := by
    simp only [Char.isDigit, Bool.and_eq_true, decide_eq_true_iff] at digit
    exact digit.1
  have bound : '0'.toNat ≤ character.toNat := low
  refine ⟨?_, ?_, Nat.le_trans (by decide) bound⟩
  · rintro rfl
    cases digit
  · rintro rfl
    cases digit

theorem formatIpv4Addr_plain (address : Ipv4Addr) : Plain (formatIpv4Addr address).toList := by
  intro character member
  by_contra special
  have notDigit : character.isDigit = false := by
    rw [Bool.eq_false_iff]
    exact fun digit => special (plainChar_of_isDigit digit)
  have notDot : character ≠ '.' := by
    rintro rfl
    exact special (by decide)
  exact not_mem_formatIpv4Addr notDigit notDot address member

theorem packet_delivers_iff (server : LinkedServer) (result : FiveTupleResult)
    (action : NetPolicyRule) (dir : FlowDir) (ruleKey : String) :
    let msg : MatchMsg :=
      { tuple := FiveTuple.ofResult result, action := action, dir := dir, ruleKey := ruleKey }
    server.Delivers msg ↔ Plain ruleKey.toList ∧ msg.bytes.length + 1 ≤ 1024 := by
  intro msg
  have src : Plain msg.tuple.srcAddr.toList := formatIpv4Addr_plain result.srcAddr
  have dst : Plain msg.tuple.dstAddr.toList := formatIpv4Addr_plain result.dstAddr
  rw [delivers_iff, MatchMsg.recovered_bytes_iff]
  constructor
  · rintro ⟨fits, _, _, name⟩
    exact ⟨name, fits⟩
  · rintro ⟨name, fits⟩
    exact ⟨fits, src, dst, name⟩

def sshDenied (name : String) : MatchMsg :=
  { tuple :=
      { proto := 6
        totLen := 40
        srcPort := 40000
        dstPort := 22
        srcAddrU32 := 0x0a000001
        dstAddrU32 := 0x0a000002
        srcAddr := "10.0.0.1"
        dstAddr := "10.0.0.2" }
    action := .deny
    dir := .ingress
    ruleKey := name }

def listener : LinkedServer := { postLinkFd := 9, linked := by decide }

def repeated (count : Nat) : String := String.ofList (List.replicate count 'a')

theorem repeated_overflows {count : Nat} (long : 1024 ≤ count) :
    ¬(sshDenied (repeated count)).bytes.length + 1 ≤ 1024 := by
  have src : Plain "10.0.0.1".toList := by simp [Plain, PlainChar]
  have dst : Plain "10.0.0.2".toList := by simp [Plain, PlainChar]
  have name : Plain (repeated count).toList := by
    rw [repeated, String.toList_ofList]
    intro character member
    rw [List.eq_of_mem_replicate member]
    decide
  have nameSize : (repeated count).utf8ByteSize = count := by
    have single : 'a'.utf8Size = 1 := rfl
    rw [← length_toUtf8, repeated, String.toList_ofList]
    simp [toUtf8, single]
  have whole : (sshDenied (repeated count)).bytes.length = (sshDenied (repeated count)).size :=
    MatchMsg.length_bytes_of_plain src dst name
  have atLeast : (repeated count).utf8ByteSize ≤ (sshDenied (repeated count)).size :=
    Nat.le_add_left _ _
  omega

/-- Both names are accepted with a rule.  The quote of the first ends the string it stands in;
the second runs over the end of the buffer. -/
theorem unescaped_name_not_delivered :
    (addPolicyRule MicroSegEngine.new "web\"api" [sshRule]).2 = 0 ∧
      ¬listener.Delivers (sshDenied "web\"api") ∧
    (addPolicyRule MicroSegEngine.new (repeated 1024) [sshRule]).2 = 0 ∧
      listener.sendMatchMsg completeWrite (sshDenied (repeated 1024)) = none := by
  have readable : ∀ rule ∈ [sshRule], rule.Readable := by
    intro rule member
    rw [List.mem_singleton.mp member, ← PolicyRuleSpec.isReadable_iff]
    decide +kernel
  have accepted (name : String) : (addPolicyRule MicroSegEngine.new name [sshRule]).2 = 0 := by
    obtain ⟨next, call, _⟩ := addPolicyRule_readable MicroSegEngine.new name readable
    rw [call]
  refine ⟨accepted _, ?_, accepted _, ?_⟩
  · rw [delivers_iff, MatchMsg.recovered_bytes_iff]
    rintro ⟨_, _, _, name⟩
    exact absurd (name '"' (by simp [sshDenied])) (by decide)
  · rw [listener.sendMatchMsg_eq, if_neg (repeated_overflows (Nat.le_refl 1024))]

end NetPolicy.Daemon
