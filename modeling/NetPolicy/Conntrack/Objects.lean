/-
Objects of the connection tracking library.

An object is a record of cells with a bit for each attribute that says whether its cell
has been written.  Cells are shared: an IPv4 address is the first word of the IPv6
address, an ICMP identifier lies where a source port lies, and the ICMP type and code
are the two bytes of a destination port.  Objects are compared and copied attribute by
attribute, and a message is built from the cells alone once the bits let it be built.
-/

import NetPolicy.Policy.Ipv4

namespace NetPolicy.Conntrack

open NetPolicy.Policy

/-! ### Cells and bits -/

inductive Attr where
  | origIpv4Src | origIpv4Dst | replIpv4Src | replIpv4Dst
  | origIpv6Src | origIpv6Dst | replIpv6Src | replIpv6Dst
  | origPortSrc | origPortDst | replPortSrc | replPortDst
  | icmpType | icmpCode | icmpId
  | origL3Proto | replL3Proto | origL4Proto | replL4Proto
  | tcpState | sctpState | dccpState
  | timeout | mark | id | status
  | zone | origZone | replZone
  | secctx | connlabels | connlabelsMask
deriving DecidableEq, Repr

/-- `union __nfct_address`: the IPv4 address is the first word. -/
structure Address where
  v4 : Ipv4Addr
  rest : BitVec 96
deriving DecidableEq, Repr

/-- `union __nfct_l4_dst`: a port in network order is both bytes. -/
structure L4Dst where
  type : UInt8
  code : UInt8
deriving DecidableEq, Repr

structure Tuple where
  src : Address
  dst : Address
  l3protonum : UInt8
  protonum : UInt8
  zone : UInt16
  /-- A source port or an ICMP identifier, in network order. -/
  l4src : UInt16
  l4dst : L4Dst
deriving DecidableEq, Repr

def Tuple.zero : Tuple where
  src := ⟨0, 0⟩
  dst := ⟨0, 0⟩
  l3protonum := 0
  protonum := 0
  zone := 0
  l4src := 0
  l4dst := ⟨0, 0⟩

/-- `struct nf_conntrack`, as far as objects are compared, copied and sent. -/
structure NfConntrack where
  isSet : Attr → Bool
  orig : Tuple
  repl : Tuple
  timeout : UInt32
  mark : UInt32
  status : UInt32
  id : UInt32
  zone : UInt16
  /-- The state byte, which TCP, SCTP and DCCP share. -/
  protoState : UInt8
  secctx : Option (List UInt8)
  connlabels : Option (List UInt32)
  connlabelsMask : Option (List UInt32)

namespace NfConntrack

def new : NfConntrack where
  isSet := fun _ => false
  orig := Tuple.zero
  repl := Tuple.zero
  timeout := 0
  mark := 0
  status := 0
  id := 0
  zone := 0
  protoState := 0
  secctx := none
  connlabels := none
  connlabelsMask := none

def withBit (ct : NfConntrack) (attr : Attr) : NfConntrack :=
  { ct with isSet := fun other => decide (other = attr) || ct.isSet other }

def setOrig (ct : NfConntrack) (attr : Attr) (write : Tuple → Tuple) : NfConntrack :=
  withBit { ct with orig := write ct.orig } attr

def setMark (ct : NfConntrack) (mark : UInt32) : NfConntrack :=
  withBit { ct with mark } .mark

def getMark (ct : NfConntrack) : UInt32 := if ct.isSet .mark then ct.mark else 0

def getZone (ct : NfConntrack) : UInt16 := if ct.isSet .zone then ct.zone else 0

end NfConntrack

/-! ### Protocols -/

def afInet : UInt8 := 2
def afInet6 : UInt8 := 10

def ipprotoIcmp : UInt8 := 1
def ipprotoTcp : UInt8 := 6
def ipprotoUdp : UInt8 := 17
def ipprotoDccp : UInt8 := 33
def ipprotoGre : UInt8 := 47
def ipprotoIcmpv6 : UInt8 := 58
def ipprotoSctp : UInt8 := 132
def ipprotoUdplite : UInt8 := 136

def comparedPorts : List UInt8 :=
  [ipprotoTcp, ipprotoUdp, ipprotoUdplite, ipprotoDccp, ipprotoSctp]

def builtPorts : List UInt8 :=
  [ipprotoUdp, ipprotoTcp, ipprotoSctp, ipprotoDccp, ipprotoGre, ipprotoUdplite]

/-! ### Comparing -/

/-- The flags of `nfct_cmp`; without the first five everything is compared. -/
structure CmpFlags where
  orig : Bool := false
  repl : Bool := false
  timeoutEq : Bool := false
  timeoutGt : Bool := false
  timeoutLt : Bool := false
  mask : Bool := false
  strict : Bool := false
deriving DecidableEq, Repr

def cmpAttr (flags : CmpFlags) (ct1 ct2 : NfConntrack) (attr : Attr) (strict cmp : Bool) : Bool :=
  if ct1.isSet attr && ct2.isSet attr then cmp
  else if !ct1.isSet attr && !ct2.isSet attr then true
  else if flags.mask && ct1.isSet attr then !strict && cmp
  else if flags.strict then !strict && cmp
  else true

structure Direction where
  tuple : NfConntrack → Tuple
  l3Proto : Attr
  l4Proto : Attr
  ipv4Src : Attr
  ipv4Dst : Attr
  ipv6Src : Attr
  ipv6Dst : Attr
  portSrc : Attr
  portDst : Attr
  zone : Attr

def origDirection : Direction where
  tuple := NfConntrack.orig
  l3Proto := .origL3Proto
  l4Proto := .origL4Proto
  ipv4Src := .origIpv4Src
  ipv4Dst := .origIpv4Dst
  ipv6Src := .origIpv6Src
  ipv6Dst := .origIpv6Dst
  portSrc := .origPortSrc
  portDst := .origPortDst
  zone := .origZone

def replDirection : Direction where
  tuple := NfConntrack.repl
  l3Proto := .replL3Proto
  l4Proto := .replL4Proto
  ipv4Src := .replIpv4Src
  ipv4Dst := .replIpv4Dst
  ipv6Src := .replIpv6Src
  ipv6Dst := .replIpv6Dst
  portSrc := .replPortSrc
  portDst := .replPortDst
  zone := .replZone

/-- The ICMP comparisons, which look at the original tuple in both directions. -/
def cmpIcmp (flags : CmpFlags) (ct1 ct2 : NfConntrack) : Bool :=
  cmpAttr flags ct1 ct2 .icmpId true (ct1.orig.l4src == ct2.orig.l4src) &&
    cmpAttr flags ct1 ct2 .icmpCode true (ct1.orig.l4dst.code == ct2.orig.l4dst.code) &&
    cmpAttr flags ct1 ct2 .icmpType true (ct1.orig.l4dst.type == ct2.orig.l4dst.type)

def cmpL4proto (direction : Direction) (flags : CmpFlags) (ct1 ct2 : NfConntrack) : Bool :=
  let left := direction.tuple ct1
  let right := direction.tuple ct2
  if left.protonum != right.protonum then false
  else if left.protonum = ipprotoIcmp ∨ left.protonum = ipprotoIcmpv6 then cmpIcmp flags ct1 ct2
  else if left.protonum ∈ comparedPorts then
    cmpAttr flags ct1 ct2 direction.portSrc true (left.l4src == right.l4src) &&
      cmpAttr flags ct1 ct2 direction.portDst true (left.l4dst == right.l4dst)
  else true

def getTupleZone (direction : Direction) (ct : NfConntrack) : UInt16 :=
  if ct.isSet direction.zone then (direction.tuple ct).zone else 0

def cmpDirection (direction : Direction) (flags : CmpFlags) (ct1 ct2 : NfConntrack) : Bool :=
  let left := direction.tuple ct1
  let right := direction.tuple ct2
  cmpAttr flags ct1 ct2 direction.l3Proto true (left.l3protonum == right.l3protonum) &&
    cmpAttr flags ct1 ct2 direction.l4Proto true (cmpL4proto direction flags ct1 ct2) &&
    cmpAttr flags ct1 ct2 direction.ipv4Src true (left.src.v4 == right.src.v4) &&
    cmpAttr flags ct1 ct2 direction.ipv4Dst true (left.dst.v4 == right.dst.v4) &&
    cmpAttr flags ct1 ct2 direction.ipv6Src true (left.src == right.src) &&
    cmpAttr flags ct1 ct2 direction.ipv6Dst true (left.dst == right.dst) &&
    cmpAttr flags ct1 ct2 direction.zone false
      (getTupleZone direction ct1 == getTupleZone direction ct2)

def cmpOrig : CmpFlags → NfConntrack → NfConntrack → Bool := cmpDirection origDirection

def cmpRepl : CmpFlags → NfConntrack → NfConntrack → Bool := cmpDirection replDirection

def cmpTimeout (flags : CmpFlags) (ct1 ct2 : NfConntrack) : Bool :=
  if !(flags.timeoutEq || flags.timeoutGt || flags.timeoutLt) && ct1.timeout == ct2.timeout then
    true
  else
    (flags.timeoutGt && decide (ct2.timeout < ct1.timeout)) ||
      (flags.timeoutLt && decide (ct1.timeout < ct2.timeout)) ||
      (flags.timeoutEq && ct1.timeout == ct2.timeout)

/-- `__cmp_clabel`: the words that only one mask has are zero and the others agree. -/
def cmpClabel : Option (List UInt32) → Option (List UInt32) → Bool
  | some left, some right =>
      let common := min left.length right.length
      (left.drop common).all (· == 0) && (right.drop common).all (· == 0) &&
        left.take common == right.take common
  | none, none => true
  | _, _ => false

def cmpMeta (flags : CmpFlags) (ct1 ct2 : NfConntrack) : Bool :=
  let state := ct1.protoState == ct2.protoState
  cmpAttr flags ct1 ct2 .id true (ct1.id == ct2.id) &&
    cmpAttr flags ct1 ct2 .mark false (ct1.getMark == ct2.getMark) &&
    cmpAttr flags ct1 ct2 .timeout true (cmpTimeout flags ct1 ct2) &&
    cmpAttr flags ct1 ct2 .status true (ct1.status &&& ct2.status == ct1.status) &&
    cmpAttr flags ct1 ct2 .tcpState true state &&
    cmpAttr flags ct1 ct2 .sctpState true state &&
    cmpAttr flags ct1 ct2 .dccpState true state &&
    cmpAttr flags ct1 ct2 .zone false (ct1.getZone == ct2.getZone) &&
    cmpAttr flags ct1 ct2 .secctx true (ct1.secctx == ct2.secctx) &&
    cmpAttr flags ct1 ct2 .connlabels true (cmpClabel ct1.connlabels ct2.connlabels) &&
    cmpAttr flags ct1 ct2 .connlabelsMask true
      (cmpClabel ct1.connlabelsMask ct2.connlabelsMask)

def nfctCmp (ct1 ct2 : NfConntrack) (flags : CmpFlags) : Bool :=
  if { flags with mask := false, strict := false } = ({} : CmpFlags) then
    cmpMeta flags ct1 ct2 && cmpOrig flags ct1 ct2 && cmpRepl flags ct1 ct2
  else
    (!flags.orig || cmpOrig flags ct1 ct2) && (!flags.repl || cmpRepl flags ct1 ct2)

/-! ### Copying -/

/-- `cp_orig_mask` with the functions of `copy_attr_array` for it. -/
def cpOrigMask : List (Attr × (Tuple → Tuple → Tuple)) :=
  [(.origIpv4Src, fun dest orig => { dest with src := { dest.src with v4 := orig.src.v4 } }),
    (.origIpv4Dst, fun dest orig => { dest with dst := { dest.dst with v4 := orig.dst.v4 } }),
    (.origIpv6Src, fun dest orig => { dest with src := orig.src }),
    (.origIpv6Dst, fun dest orig => { dest with dst := orig.dst }),
    (.origPortSrc, fun dest orig => { dest with l4src := orig.l4src }),
    (.origPortDst, fun dest orig => { dest with l4dst := orig.l4dst }),
    (.icmpType, fun dest orig => { dest with l4dst := { dest.l4dst with type := orig.l4dst.type } }),
    (.icmpCode, fun dest orig => { dest with l4dst := { dest.l4dst with code := orig.l4dst.code } }),
    (.icmpId, fun dest orig => { dest with l4src := orig.l4src }),
    (.origL3Proto, fun dest orig => { dest with l3protonum := orig.l3protonum }),
    (.origL4Proto, fun dest orig => { dest with protonum := orig.protonum })]

def copyAttr (source dest : NfConntrack) (copied : Attr × (Tuple → Tuple → Tuple)) : NfConntrack :=
  if source.isSet copied.1 then
    dest.setOrig copied.1 fun tuple => copied.2 tuple source.orig
  else dest

/-- `nfct_copy` with `NFCT_CP_ORIG`: what the source does not have stays. -/
def nfctCopyOrig (dest source : NfConntrack) : NfConntrack :=
  cpOrigMask.foldl (copyAttr source) dest

/-! ### Messages -/

inductive IpAttrs where
  | v4 (src dst : Ipv4Addr)
  | v6 (src dst : Address)
deriving DecidableEq, Repr

inductive ProtoAttrs where
  | ports (protonum : UInt8) (src : UInt16) (dst : L4Dst)
  | icmp (protonum code type : UInt8) (id : UInt16)
deriving DecidableEq, Repr

structure TupleMessage where
  ip : IpAttrs
  proto : ProtoAttrs
  zone : Option UInt16
deriving DecidableEq, Repr

/-- A request as the kernel reads it, up to the mark. -/
structure CtMessage where
  family : UInt8
  tupleOrig : Option TupleMessage
  tupleReply : Option TupleMessage
  status : Option UInt32
  timeout : Option UInt32
  mark : Option UInt32
deriving DecidableEq, Repr

def buildTupleIp (tuple : Tuple) : Option IpAttrs :=
  if tuple.l3protonum = afInet then some (.v4 tuple.src.v4 tuple.dst.v4)
  else if tuple.l3protonum = afInet6 then some (.v6 tuple.src tuple.dst)
  else none

def buildTupleProto (tuple : Tuple) : Option ProtoAttrs :=
  if tuple.protonum ∈ builtPorts then some (.ports tuple.protonum tuple.l4src tuple.l4dst)
  else if tuple.protonum = ipprotoIcmp ∨ tuple.protonum = ipprotoIcmpv6 then
    some (.icmp tuple.protonum tuple.l4dst.code tuple.l4dst.type tuple.l4src)
  else none

def buildTuple (direction : Direction) (ct : NfConntrack) : Option TupleMessage := do
  let ip ← buildTupleIp (direction.tuple ct)
  let proto ← buildTupleProto (direction.tuple ct)
  pure ⟨ip, proto, if ct.isSet direction.zone then some (direction.tuple ct).zone else none⟩

/-- The bits that put a reply tuple into a message.  Those of ICMP are among them. -/
def replyAttrs : List Attr :=
  [.replIpv4Src, .replIpv4Dst, .replIpv6Src, .replIpv6Dst, .replPortSrc, .replPortDst,
    .replL3Proto, .replL4Proto, .replZone, .icmpType, .icmpCode, .icmpId]

def ipsConfirmed : UInt32 := 8

def buildMeta (ct : NfConntrack) (message : CtMessage) : CtMessage :=
  { message with
    status := if ct.isSet .status then some (ct.status ||| ipsConfirmed) else none
    timeout := if ct.isSet .timeout then some ct.timeout else none
    mark := if ct.isSet .mark then some ct.mark else none }

/-- `nfct_nlmsg_build`: a tuple that cannot be built ends the message where it is. -/
def nlmsgBuild (ct : NfConntrack) : CtMessage :=
  let empty : CtMessage := ⟨ct.orig.l3protonum, none, none, none, none, none⟩
  match buildTuple origDirection ct with
  | none => empty
  | some orig =>
      if replyAttrs.any ct.isSet then
        match buildTuple replDirection ct with
        | none => { empty with tupleOrig := some orig }
        | some reply =>
            buildMeta ct { empty with tupleOrig := some orig, tupleReply := some reply }
      else buildMeta ct { empty with tupleOrig := some orig }

/-- The request of `NFCT_Q_UPDATE`; it goes out whatever the building returned. -/
def buildQueryUpdate (ct : NfConntrack) : Option CtMessage :=
  if ct.isSet .origL3Proto then some (nlmsgBuild ct) else none

/-! ### What copying does -/

section Copying

variable (source dest : NfConntrack)

@[simp] theorem isSet_withBit (ct : NfConntrack) (attr other : Attr) :
    (ct.withBit attr).isSet other = (decide (other = attr) || ct.isSet other) := rfl

theorem copyAttr_repl (copied : Attr × (Tuple → Tuple → Tuple)) :
    (copyAttr source dest copied).repl = dest.repl := by
  unfold copyAttr
  split <;> rfl

theorem isSet_copyAttr (copied : Attr × (Tuple → Tuple → Tuple)) (attr : Attr) :
    (copyAttr source dest copied).isSet attr =
      (dest.isSet attr || decide (attr = copied.1) && source.isSet attr) := by
  unfold copyAttr
  by_cases same : attr = copied.1
  · subst same
    split
    · rename_i there
      simp [NfConntrack.setOrig, there]
    · rename_i missing
      simp [missing]
  · split
    · simp [NfConntrack.setOrig, same]
    · simp [same]

theorem foldl_copyAttr_repl (mask : List (Attr × (Tuple → Tuple → Tuple))) :
    (mask.foldl (copyAttr source) dest).repl = dest.repl := by
  induction mask generalizing dest with
  | nil => rfl
  | cons copied rest ih => rw [List.foldl_cons, ih, copyAttr_repl]

theorem isSet_foldl_copyAttr (mask : List (Attr × (Tuple → Tuple → Tuple))) (attr : Attr) :
    (mask.foldl (copyAttr source) dest).isSet attr =
      (dest.isSet attr || decide (attr ∈ mask.map Prod.fst) && source.isSet attr) := by
  induction mask generalizing dest with
  | nil => simp
  | cons copied rest ih =>
      rw [List.foldl_cons, ih, isSet_copyAttr]
      by_cases same : attr = copied.1
      · simp [same]
        cases source.isSet copied.1 <;> simp
      · have later : attr ∈ (copied :: rest).map Prod.fst ↔ attr ∈ rest.map Prod.fst := by
          rw [List.map_cons, List.mem_cons, or_iff_right same]
        rw [decide_eq_decide.mpr later, decide_eq_false same, Bool.false_and, Bool.or_false]

theorem isSet_nfctCopyOrig (attr : Attr) :
    (nfctCopyOrig dest source).isSet attr =
      (dest.isSet attr || decide (attr ∈ cpOrigMask.map Prod.fst) && source.isSet attr) :=
  isSet_foldl_copyAttr source dest cpOrigMask attr

theorem repl_nfctCopyOrig : (nfctCopyOrig dest source).repl = dest.repl :=
  foldl_copyAttr_repl source dest cpOrigMask

end Copying

end NetPolicy.Conntrack
