/-
A conntrack session: setting a mark on the entries that match a tuple.

A session keeps two objects for its whole life and never resets either.  A call selects
by what it writes into the filter and by what earlier calls left there.  The update object
is copied into entry after entry; the bits of an ICMP entry stay in it, and a message built
from an object with those bits ends before the mark, since the object has no reply tuple.
The abstract session below has no objects: a selection, and whether an ICMP entry has been
met.
-/

import NetPolicy.Conntrack.Objects
import NetPolicy.Library.Runs

namespace NetPolicy.Conntrack

open NetPolicy.Policy

/-! ### The session -/

structure SharedFiveTuple where
  proto : UInt8 := 0
  srcAddr : String := ""
  dstAddr : String := ""
  srcPort : UInt16 := 0
  dstPort : UInt16 := 0
deriving DecidableEq, Repr

def inaddrNone : Ipv4Addr := BitVec.allOnes 32

def inetAddr (text : String) : Ipv4Addr := (parseIpv4Addr text).getD inaddrNone

def portBytes (port : UInt16) : L4Dst := ⟨(port >>> 8).toUInt8, port.toUInt8⟩

structure ConntrackSession where
  filter : NfConntrack
  update : NfConntrack

def openConntrackSession : ConntrackSession := ⟨.new, .new⟩

def NfConntrack.setWhen (ct : NfConntrack) (present : Bool) (attr : Attr)
    (write : Tuple → Tuple) : NfConntrack :=
  if present then ct.setOrig attr write else ct

def writeFilter (filter : NfConntrack) (tuple : SharedFiveTuple) (mark : UInt32) : NfConntrack :=
  let filter := filter.setMark mark
  let filter := filter.setOrig .origL3Proto fun orig => { orig with l3protonum := afInet }
  let filter := filter.setWhen (tuple.proto > 0) .origL4Proto fun orig =>
    { orig with protonum := tuple.proto }
  let filter := filter.setWhen (tuple.srcAddr ≠ "") .origIpv4Src fun orig =>
    { orig with src := { orig.src with v4 := inetAddr tuple.srcAddr } }
  let filter := filter.setWhen (tuple.dstAddr ≠ "") .origIpv4Dst fun orig =>
    { orig with dst := { orig.dst with v4 := inetAddr tuple.dstAddr } }
  let filter := filter.setWhen (tuple.srcPort > 0) .origPortSrc fun orig =>
    { orig with l4src := tuple.srcPort }
  filter.setWhen (tuple.dstPort > 0) .origPortDst fun orig =>
    { orig with l4dst := portBytes tuple.dstPort }

/-- `update_net_session`: the update object after it, and the request it makes. -/
def updateNetSession (filter update ct : NfConntrack) : NfConntrack × Option CtMessage :=
  if !nfctCmp filter ct { orig := true } then (update, none)
  else
    let mark := filter.getMark
    if mark > 100 then (update, none)
    else
      let update := (nfctCopyOrig update ct).setMark mark
      if nfctCmp update ct { mask := true } then (update, none)
      else (update, buildQueryUpdate update)

def dumpAll (filter : NfConntrack) : NfConntrack → List NfConntrack → NfConntrack × List CtMessage
  | update, [] => (update, [])
  | update, ct :: rest =>
      let (update, request) := updateNetSession filter update ct
      let (update, requests) := dumpAll filter update rest
      (update, request.toList ++ requests)

/-- `set_accept_mark`: the requests it makes while the dump runs, and what it returns.  The
dump is what the kernel shows of it, with the error it ends in. -/
def ConntrackSession.setAcceptMark (session : ConntrackSession) (tuple : SharedFiveTuple)
    (mark : UInt32) (dump : List NfConntrack) (failure : Option String) :
    ConntrackSession × List CtMessage × Except String Unit :=
  let filter := writeFilter session.filter tuple mark
  let (update, requests) := dumpAll filter session.update dump
  (⟨filter, update⟩, requests,
    match failure with
    | none => .ok ()
    | some error => .error ("nfct query failed: " ++ error))

/-! ### The kernel's table -/

/-- What identifies an IPv4 entry.  The identifier, type and code of ICMP take the place of
the ports. -/
structure Flow where
  src : Ipv4Addr
  dst : Ipv4Addr
  protonum : UInt8
  l4src : UInt16
  l4dst : L4Dst
deriving DecidableEq, Repr

def Flow.isIcmp (flow : Flow) : Bool := flow.protonum == ipprotoIcmp

def Flow.hasPorts (flow : Flow) : Bool := decide (flow.protonum ∈ builtPorts)

structure Entry where
  flow : Flow
  mark : UInt32
  ipv4 : flow.protonum ≠ ipprotoIcmpv6
deriving DecidableEq

def Entry.withMark (entry : Entry) (mark : UInt32) : Entry := { entry with mark }

def CtMessage.flow? (message : CtMessage) : Option Flow :=
  match message.tupleOrig with
  | some ⟨.v4 src dst, .ports protonum l4src l4dst, _⟩ => some ⟨src, dst, protonum, l4src, l4dst⟩
  | some ⟨.v4 src dst, .icmp protonum code type id, _⟩ =>
      some ⟨src, dst, protonum, id, ⟨type, code⟩⟩
  | _ => none

/-- The entries of one flow get a mark. -/
def assign (table : List Entry) (flow : Flow) (mark : UInt32) : List Entry :=
  table.map fun entry => if entry.flow = flow then entry.withMark mark else entry

/-- The kernel's side of an update.  What it does with a mark for something else than an IPv4
flow is open. -/
structure Ctnetlink where
  receive : List Entry → CtMessage → List Entry
  receive_unmarked : ∀ table (message : CtMessage), message.mark = none →
    receive table message = table
  receive_marked : ∀ table (message : CtMessage) flow mark, message.flow? = some flow →
    message.mark = some mark → receive table message = assign table flow mark

/-- An object that was read from the dump of an entry. -/
structure Shows (ct : NfConntrack) (entry : Entry) : Prop where
  l3Proto : ct.isSet .origL3Proto = true ∧ ct.orig.l3protonum = afInet
  l4Proto : ct.isSet .origL4Proto = true ∧ ct.orig.protonum = entry.flow.protonum
  src : ct.isSet .origIpv4Src = true ∧ ct.orig.src.v4 = entry.flow.src
  dst : ct.isSet .origIpv4Dst = true ∧ ct.orig.dst.v4 = entry.flow.dst
  noIpv6 : ct.isSet .origIpv6Src = false ∧ ct.isSet .origIpv6Dst = false
  ports : ct.isSet .origPortSrc = entry.flow.hasPorts ∧
    ct.isSet .origPortDst = entry.flow.hasPorts
  icmp : ct.isSet .icmpType = entry.flow.isIcmp ∧ ct.isSet .icmpCode = entry.flow.isIcmp ∧
    ct.isSet .icmpId = entry.flow.isIcmp
  layer4 : entry.flow.hasPorts = true ∨ entry.flow.isIcmp = true →
    ct.orig.l4src = entry.flow.l4src ∧ ct.orig.l4dst = entry.flow.l4dst
  mark : ct.getMark = entry.mark

/-- The object that the dump of an entry is parsed into, without the attributes that nothing
here looks at. -/
def Entry.object (entry : Entry) : NfConntrack :=
  { NfConntrack.new with
    isSet := fun attr =>
      match attr with
      | .origL3Proto | .origL4Proto | .origIpv4Src | .origIpv4Dst | .mark => true
      | .origPortSrc | .origPortDst => entry.flow.hasPorts
      | .icmpType | .icmpCode | .icmpId => entry.flow.isIcmp
      | _ => false
    orig :=
      { Tuple.zero with
        src := ⟨entry.flow.src, 0⟩
        dst := ⟨entry.flow.dst, 0⟩
        l3protonum := afInet
        protonum := entry.flow.protonum
        l4src := entry.flow.l4src
        l4dst := entry.flow.l4dst }
    mark := entry.mark }

theorem shows_object (entry : Entry) : Shows entry.object entry where
  l3Proto := ⟨rfl, rfl⟩
  l4Proto := ⟨rfl, rfl⟩
  src := ⟨rfl, rfl⟩
  dst := ⟨rfl, rfl⟩
  noIpv6 := ⟨rfl, rfl⟩
  ports := ⟨rfl, rfl⟩
  icmp := ⟨rfl, rfl, rfl⟩
  layer4 := fun _ => ⟨rfl, rfl⟩
  mark := rfl

/-! ### The abstract session -/

structure Selection where
  proto : Option UInt8 := none
  src : Option Ipv4Addr := none
  dst : Option Ipv4Addr := none
  srcPort : Option UInt16 := none
  dstPort : Option L4Dst := none
deriving DecidableEq, Repr

/-- A call replaces the fields that its tuple has and keeps the others. -/
def Selection.narrow (selection : Selection) (tuple : SharedFiveTuple) : Selection where
  proto := if tuple.proto > 0 then some tuple.proto else selection.proto
  src := if tuple.srcAddr ≠ "" then some (inetAddr tuple.srcAddr) else selection.src
  dst := if tuple.dstAddr ≠ "" then some (inetAddr tuple.dstAddr) else selection.dst
  srcPort := if tuple.srcPort > 0 then some tuple.srcPort else selection.srcPort
  dstPort := if tuple.dstPort > 0 then some (portBytes tuple.dstPort) else selection.dstPort

/-- Ports only count beside a protocol that has them. -/
def Selection.selects (selection : Selection) (flow : Flow) : Bool :=
  (selection.proto.all fun proto => proto == flow.protonum &&
    (!decide (proto ∈ comparedPorts) ||
      selection.srcPort.all (· == flow.l4src) && selection.dstPort.all (· == flow.l4dst))) &&
    selection.src.all (· == flow.src) && selection.dst.all (· == flow.dst)

def Selection.jams (selection : Selection) (jammed : Bool) (flow : Flow) : Bool :=
  jammed || selection.selects flow && flow.isIcmp

def Selection.reaches (selection : Selection) (jammed : Bool) (flow : Flow) : Bool :=
  selection.selects flow && flow.hasPorts && !selection.jams jammed flow

/-- One call over the entries in the order of the dump: a selected entry with ports gets the
mark unless an ICMP entry was selected before it, in this call or in an earlier one. -/
def Selection.sweep (selection : Selection) (mark : UInt32) : Bool → List Entry →
    Bool × List Entry
  | jammed, [] => (jammed, [])
  | jammed, entry :: rest =>
      let (later, entries) := selection.sweep mark (selection.jams jammed entry.flow) rest
      (later, (if selection.reaches jammed entry.flow then entry.withMark mark else entry) :: entries)

structure SessionState where
  selection : Selection := {}
  jammed : Bool := false
deriving DecidableEq, Repr

def SessionState.call (state : SessionState) (tuple : SharedFiveTuple) (mark : UInt32)
    (entries : List Entry) : SessionState × List Entry :=
  let selection := state.selection.narrow tuple
  if mark > 100 then (⟨selection, state.jammed⟩, entries)
  else
    let (jammed, entries) := selection.sweep mark state.jammed entries
    (⟨selection, jammed⟩, entries)

/-! ### Calls while the table is quiet -/

/-- A call while the kernel shows each of its entries once. -/
structure QuietCall where
  tuple : SharedFiveTuple
  mark : UInt32
  entries : List Entry
  distinct : (entries.map Entry.flow).Nodup
  dump : List NfConntrack
  shows : List.Forall₂ Shows dump entries

def QuietCall.on (tuple : SharedFiveTuple) (mark : UInt32) (entries : List Entry)
    (distinct : (entries.map Entry.flow).Nodup) : QuietCall where
  tuple := tuple
  mark := mark
  entries := entries
  distinct := distinct
  dump := entries.map Entry.object
  shows := List.forall₂_map_left_iff.mpr (List.forall₂_same.mpr fun entry _ => shows_object entry)

def ConntrackSession.after (session : ConntrackSession) (call : QuietCall) : ConntrackSession :=
  (session.setAcceptMark call.tuple call.mark call.dump none).1

def ConntrackSession.table (kernel : Ctnetlink) (session : ConntrackSession) (call : QuietCall) :
    List Entry :=
  (session.setAcceptMark call.tuple call.mark call.dump none).2.1.foldl kernel.receive call.entries

def SessionState.after (state : SessionState) (call : QuietCall) : SessionState :=
  (state.call call.tuple call.mark call.entries).1

def SessionState.table (state : SessionState) (call : QuietCall) : List Entry :=
  (state.call call.tuple call.mark call.entries).2

/-! ### Comparing attribute by attribute -/

section Comparing

variable {flags : CmpFlags} {ct1 ct2 : NfConntrack} {attr : Attr} {strict cmp : Bool}

theorem cmpAttr_of_unset (free : flags.strict = false) (unset : ct1.isSet attr = false) :
    cmpAttr flags ct1 ct2 attr strict cmp = true := by
  simp [cmpAttr, free, unset]

theorem cmpAttr_of_set (first : ct1.isSet attr = true) (second : ct2.isSet attr = true) :
    cmpAttr flags ct1 ct2 attr strict cmp = cmp := by
  simp [cmpAttr, first, second]

theorem cmpAttr_plain (second : ct2.isSet attr = true) (free : flags.strict = false) :
    cmpAttr flags ct1 ct2 attr strict cmp = (!ct1.isSet attr || cmp) := by
  cases first : ct1.isSet attr with
  | true => rw [cmpAttr_of_set first second]; rfl
  | false => rw [cmpAttr_of_unset free first]; rfl

end Comparing

/-! ### The filter -/

/-- The filter has the bits and cells of the selection, and no others that are compared. -/
structure FilterHolds (filter : NfConntrack) (selection : Selection) : Prop where
  proto : filter.isSet .origL4Proto = selection.proto.isSome
  protoCell : ∀ proto ∈ selection.proto, filter.orig.protonum = proto
  src : filter.isSet .origIpv4Src = selection.src.isSome
  srcCell : ∀ address ∈ selection.src, filter.orig.src.v4 = address
  dst : filter.isSet .origIpv4Dst = selection.dst.isSome
  dstCell : ∀ address ∈ selection.dst, filter.orig.dst.v4 = address
  srcPort : filter.isSet .origPortSrc = selection.srcPort.isSome
  srcPortCell : ∀ port ∈ selection.srcPort, filter.orig.l4src = port
  dstPort : filter.isSet .origPortDst = selection.dstPort.isSome
  dstPortCell : ∀ port ∈ selection.dstPort, filter.orig.l4dst = port
  noIpv6 : filter.isSet .origIpv6Src = false ∧ filter.isSet .origIpv6Dst = false
  noIcmp : filter.isSet .icmpType = false ∧ filter.isSet .icmpCode = false ∧
    filter.isSet .icmpId = false
  noZone : filter.isSet .origZone = false

theorem filterHolds_new : FilterHolds .new {} := by
  constructor <;> simp [NfConntrack.new]

section Filter

variable {filter : NfConntrack} {selection : Selection} (tuple : SharedFiveTuple) (mark : UInt32)

theorem isSet_setWhen (ct : NfConntrack) (present : Bool) (attr other : Attr)
    (write : Tuple → Tuple) :
    (ct.setWhen present attr write).isSet other =
      (ct.isSet other || present && decide (other = attr)) := by
  cases present with
  | true => exact Bool.or_comm _ _
  | false => simp [NfConntrack.setWhen]

theorem mark_setWhen (ct : NfConntrack) (present : Bool) (attr : Attr) (write : Tuple → Tuple) :
    (ct.setWhen present attr write).mark = ct.mark := by
  cases present <;> rfl

theorem isSet_setOrig (ct : NfConntrack) (attr other : Attr) (write : Tuple → Tuple) :
    (ct.setOrig attr write).isSet other = (decide (other = attr) || ct.isSet other) := rfl

theorem isSet_setMark (ct : NfConntrack) (other : Attr) :
    (ct.setMark mark).isSet other = (decide (other = .mark) || ct.isSet other) := rfl

theorem isSet_writeFilter (attr : Attr) :
    (writeFilter filter tuple mark).isSet attr =
      ((filter.isSet attr || decide (attr = .mark ∨ attr = .origL3Proto)) ||
        decide (tuple.proto > 0) && decide (attr = .origL4Proto) ||
        decide (tuple.srcAddr ≠ "") && decide (attr = .origIpv4Src) ||
        decide (tuple.dstAddr ≠ "") && decide (attr = .origIpv4Dst) ||
        decide (tuple.srcPort > 0) && decide (attr = .origPortSrc) ||
        decide (tuple.dstPort > 0) && decide (attr = .origPortDst)) := by
  have first : (decide (attr = .origL3Proto) || (decide (attr = .mark) || filter.isSet attr)) =
      (filter.isSet attr || decide (attr = .mark ∨ attr = .origL3Proto)) := by
    rw [Bool.decide_or]
    ac_rfl
  simp only [writeFilter, isSet_setWhen, isSet_setOrig, isSet_setMark, first]

theorem getMark_writeFilter : (writeFilter filter tuple mark).getMark = mark := by
  have bit : (writeFilter filter tuple mark).isSet .mark = true := by
    rw [isSet_writeFilter]
    simp
  have cell : (writeFilter filter tuple mark).mark = mark := by
    simp only [writeFilter, mark_setWhen]
    rfl
  rw [NfConntrack.getMark, bit, cell]
  rfl

theorem orig_writeFilter :
    (writeFilter filter tuple mark).orig =
      { filter.orig with
        l3protonum := afInet
        protonum := if tuple.proto > 0 then tuple.proto else filter.orig.protonum
        src := { filter.orig.src with
          v4 := if tuple.srcAddr ≠ "" then inetAddr tuple.srcAddr else filter.orig.src.v4 }
        dst := { filter.orig.dst with
          v4 := if tuple.dstAddr ≠ "" then inetAddr tuple.dstAddr else filter.orig.dst.v4 }
        l4src := if tuple.srcPort > 0 then tuple.srcPort else filter.orig.l4src
        l4dst := if tuple.dstPort > 0 then portBytes tuple.dstPort else filter.orig.l4dst } := by
  simp only [writeFilter, NfConntrack.setWhen, decide_eq_true_eq]
  split_ifs <;> rfl

theorem isSome_replaced {α : Type} {present : Prop} [Decidable present] {bit : Bool} {value : α}
    {held : Option α} (before : bit = held.isSome) :
    (bit || decide present) = (if present then some value else held).isSome := by
  by_cases given : present
  · simp [given]
  · simp [given, before]

theorem cell_replaced {α : Type} {present : Prop} [Decidable present] {cell value : α}
    {held : Option α} (before : ∀ old ∈ held, cell = old) :
    ∀ new ∈ (if present then some value else held), (if present then value else cell) = new := by
  by_cases given : present
  · simp [given]
  · simpa [given] using before

theorem FilterHolds.writeFilter (holds : FilterHolds filter selection) :
    FilterHolds (writeFilter filter tuple mark) (selection.narrow tuple) := by
  constructor
  all_goals
    simp only [isSet_writeFilter, orig_writeFilter, reduceCtorEq, or_self, decide_false,
      decide_true, Bool.and_false, Bool.or_false, Bool.and_true]
  case proto => exact isSome_replaced holds.proto
  case protoCell => exact cell_replaced holds.protoCell
  case src => exact isSome_replaced holds.src
  case srcCell => exact cell_replaced holds.srcCell
  case dst => exact isSome_replaced holds.dst
  case dstCell => exact cell_replaced holds.dstCell
  case srcPort => exact isSome_replaced holds.srcPort
  case srcPortCell => exact cell_replaced holds.srcPortCell
  case dstPort => exact isSome_replaced holds.dstPort
  case dstPortCell => exact cell_replaced holds.dstPortCell
  case noIpv6 => exact holds.noIpv6
  case noIcmp => exact holds.noIcmp
  case noZone => exact holds.noZone

end Filter

/-! ### What the filter lets through -/

section Selecting

variable {filter ct : NfConntrack} {selection : Selection} {entry : Entry}

theorem not_isSome_or {α : Type} [BEq α] {held : Option α} {cell : α}
    (cells : ∀ value ∈ held, cell = value) (other : α) :
    (!held.isSome || cell == other) = held.all (· == other) := by
  cases held with
  | none => rfl
  | some value => rw [cells value rfl]; rfl

theorem hasPorts_of_compared {flow : Flow} (compared : flow.protonum ∈ comparedPorts) :
    flow.hasPorts = true := by
  have inside : comparedPorts.all (fun protonum => decide (protonum ∈ builtPorts)) = true := rfl
  exact List.all_eq_true.mp inside _ compared

theorem cmpL4proto_filter (holds : FilterHolds filter selection) (shows : Shows ct entry)
    {proto : UInt8} (wanted : selection.proto = some proto) :
    cmpL4proto origDirection { orig := true } filter ct =
      (proto == entry.flow.protonum && (!decide (proto ∈ comparedPorts) ||
        selection.srcPort.all (· == entry.flow.l4src) &&
          selection.dstPort.all (· == entry.flow.l4dst))) := by
  have cell : filter.orig.protonum = proto := holds.protoCell proto wanted
  have icmp : cmpIcmp { orig := true } filter ct = true := by
    rw [cmpIcmp, cmpAttr_of_unset rfl holds.noIcmp.2.2, cmpAttr_of_unset rfl holds.noIcmp.2.1,
      cmpAttr_of_unset rfl holds.noIcmp.1]
    rfl
  have portless : proto = ipprotoIcmp ∨ proto = ipprotoIcmpv6 → proto ∉ comparedPorts := by
    rintro (rfl | rfl) <;> decide
  simp only [cmpL4proto, origDirection, cell, shows.l4Proto.2]
  by_cases same : proto = entry.flow.protonum
  · subst same
    simp only [bne_self_eq_false, Bool.false_eq_true, if_false, beq_self_eq_true, Bool.true_and]
    by_cases ping : entry.flow.protonum = ipprotoIcmp ∨ entry.flow.protonum = ipprotoIcmpv6
    · rw [if_pos ping, icmp, decide_eq_false (portless ping)]
      rfl
    · rw [if_neg ping]
      by_cases compared : entry.flow.protonum ∈ comparedPorts
      · have ports := hasPorts_of_compared compared
        obtain ⟨srcCell, dstCell⟩ := shows.layer4 (Or.inl ports)
        rw [if_pos compared, cmpAttr_plain (shows.ports.1.trans ports) rfl,
          cmpAttr_plain (shows.ports.2.trans ports) rfl, holds.srcPort, holds.dstPort,
          not_isSome_or holds.srcPortCell, not_isSome_or holds.dstPortCell, srcCell, dstCell,
          decide_eq_true compared]
        rfl
      · rw [if_neg compared, decide_eq_false compared]
        rfl
  · have apart : (proto != entry.flow.protonum) = true := bne_iff_ne.mpr same
    rw [if_pos apart, beq_eq_false_iff_ne.mpr same]
    rfl

theorem nfctCmp_filter (holds : FilterHolds filter selection)
    (family : filter.isSet .origL3Proto = true ∧ filter.orig.l3protonum = afInet)
    (shows : Shows ct entry) :
    nfctCmp filter ct { orig := true } = selection.selects entry.flow := by
  have flagged : nfctCmp filter ct { orig := true } = cmpOrig { orig := true } filter ct := by
    simp [nfctCmp]
  have proto : (!filter.isSet .origL4Proto || cmpL4proto origDirection { orig := true } filter ct) =
      selection.proto.all fun proto => proto == entry.flow.protonum &&
        (!decide (proto ∈ comparedPorts) || selection.srcPort.all (· == entry.flow.l4src) &&
          selection.dstPort.all (· == entry.flow.l4dst)) := by
    rw [holds.proto]
    cases wanted : selection.proto with
    | none => rfl
    | some proto =>
        rw [cmpL4proto_filter holds shows wanted]
        rfl
  rw [flagged, cmpOrig, cmpDirection]
  simp only [origDirection] at proto ⊢
  rw [cmpAttr_of_set family.1 shows.l3Proto.1, cmpAttr_plain shows.l4Proto.1 rfl,
    cmpAttr_plain shows.src.1 rfl, cmpAttr_plain shows.dst.1 rfl,
    cmpAttr_of_unset rfl holds.noIpv6.1, cmpAttr_of_unset rfl holds.noIpv6.2,
    cmpAttr_of_unset rfl holds.noZone, proto, holds.src, holds.dst,
    not_isSome_or holds.srcCell, not_isSome_or holds.dstCell, family.2, shows.l3Proto.2,
    shows.src.2, shows.dst.2]
  simp [Selection.selects]

end Selecting

/-! ### The update object -/

def foreignAttrs : List Attr :=
  [.origIpv6Src, .origIpv6Dst, .origZone, .replIpv4Src, .replIpv4Dst, .replIpv6Src, .replIpv6Dst,
    .replPortSrc, .replPortDst, .replL3Proto, .replL4Proto, .replZone, .tcpState, .sctpState,
    .dccpState, .timeout, .id, .status, .zone, .secctx, .connlabels, .connlabelsMask]

/-- An update object, with the bits of ICMP if one of the entries copied into it had them. -/
structure UpdateHolds (update : NfConntrack) (jammed : Bool) : Prop where
  repl : update.repl.l3protonum = 0
  icmp : update.isSet .icmpType = jammed ∧ update.isSet .icmpCode = jammed ∧
    update.isSet .icmpId = jammed
  clean : ∀ attr ∈ foreignAttrs, update.isSet attr = false

theorem updateHolds_new : UpdateHolds .new false where
  repl := rfl
  icmp := ⟨rfl, rfl, rfl⟩
  clean := fun _ _ => rfl

/-- The update object for an entry. -/
def touched (update ct : NfConntrack) (mark : UInt32) : NfConntrack :=
  (nfctCopyOrig update ct).setMark mark

section Updating

variable {update ct : NfConntrack} {entry : Entry} {jammed : Bool} {mark : UInt32}

theorem not_hasPorts_of_isIcmp {flow : Flow} (ping : flow.isIcmp = true) :
    flow.hasPorts = false := by
  have proto : flow.protonum = ipprotoIcmp := beq_iff_eq.mp ping
  rw [Flow.hasPorts, proto]
  decide

theorem isSet_touched (attr : Attr) :
    (touched update ct mark).isSet attr = (decide (attr = .mark) ||
      (update.isSet attr || decide (attr ∈ cpOrigMask.map Prod.fst) && ct.isSet attr)) := by
  rw [touched, isSet_setMark, isSet_nfctCopyOrig]

theorem UpdateHolds.touched (holds : UpdateHolds update jammed) (shows : Shows ct entry) :
    UpdateHolds (touched update ct mark) (jammed || entry.flow.isIcmp) := by
  constructor
  case repl =>
    change (nfctCopyOrig update ct).repl.l3protonum = 0
    rw [repl_nfctCopyOrig]
    exact holds.repl
  case icmp =>
    simp only [isSet_touched, holds.icmp, shows.icmp]
    refine ⟨?_, ?_, ?_⟩ <;> simp [cpOrigMask]
  case clean =>
    intro attr foreign
    have mostly : ∀ attr ∈ foreignAttrs, attr = .origIpv6Src ∨ attr = .origIpv6Dst ∨
        attr ∉ cpOrigMask.map Prod.fst := by decide
    have uncopied : attr ∉ cpOrigMask.map Prod.fst ∨ ct.isSet attr = false := by
      rcases mostly attr foreign with rfl | rfl | out
      · exact Or.inr shows.noIpv6.1
      · exact Or.inr shows.noIpv6.2
      · exact Or.inl out
    have unmarked : attr ≠ .mark := by
      rintro rfl
      revert foreign
      decide
    rw [isSet_touched, decide_eq_false unmarked, holds.clean attr foreign]
    rcases uncopied with out | unset
    · rw [decide_eq_false out]
      rfl
    · rw [unset, Bool.and_false]
      rfl

structure Copied (update : NfConntrack) (entry : Entry) (mark : UInt32) : Prop where
  l3Proto : update.isSet .origL3Proto = true ∧ update.orig.l3protonum = afInet
  l4Proto : update.isSet .origL4Proto = true ∧ update.orig.protonum = entry.flow.protonum
  src : update.isSet .origIpv4Src = true ∧ update.orig.src.v4 = entry.flow.src
  dst : update.isSet .origIpv4Dst = true ∧ update.orig.dst.v4 = entry.flow.dst
  ports : entry.flow.hasPorts = true →
    update.isSet .origPortSrc = true ∧ update.isSet .origPortDst = true
  icmp : entry.flow.isIcmp = true → update.isSet .icmpType = true ∧
    update.isSet .icmpCode = true ∧ update.isSet .icmpId = true
  layer4 : entry.flow.hasPorts = true ∨ entry.flow.isIcmp = true →
    update.orig.l4src = entry.flow.l4src ∧ update.orig.l4dst = entry.flow.l4dst
  mark : update.isSet .mark = true ∧ update.mark = mark

theorem isSet_touched_of_shown {attr : Attr} (member : attr ∈ cpOrigMask.map Prod.fst)
    (there : ct.isSet attr = true) : (touched update ct mark).isSet attr = true := by
  rw [isSet_touched, decide_eq_true member, there]
  simp

theorem orig_copyAttr (source dest : NfConntrack) (copied : Attr × (Tuple → Tuple → Tuple)) :
    (copyAttr source dest copied).orig =
      if source.isSet copied.1 then copied.2 dest.orig source.orig else dest.orig := by
  unfold copyAttr
  split <;> rfl

theorem orig_touched (shows : Shows ct entry) :
    (touched update ct mark).orig =
      { update.orig with
        src := { update.orig.src with v4 := ct.orig.src.v4 }
        dst := { update.orig.dst with v4 := ct.orig.dst.v4 }
        l3protonum := ct.orig.l3protonum
        protonum := ct.orig.protonum
        l4src := if entry.flow.hasPorts || entry.flow.isIcmp then ct.orig.l4src
          else update.orig.l4src
        l4dst := if entry.flow.hasPorts || entry.flow.isIcmp then ct.orig.l4dst
          else update.orig.l4dst } := by
  change (nfctCopyOrig update ct).orig = _
  cases ping : entry.flow.isIcmp <;> cases ports : entry.flow.hasPorts <;>
    simp [nfctCopyOrig, cpOrigMask, orig_copyAttr, shows.noIpv6, shows.src.1, shows.dst.1,
      shows.l3Proto.1, shows.l4Proto.1, shows.ports, shows.icmp, ping, ports]

theorem copied_touched (update : NfConntrack) (mark : UInt32) (shows : Shows ct entry) :
    Copied (touched update ct mark) entry mark := by
  constructor
  case l3Proto =>
    rw [orig_touched shows]
    exact ⟨isSet_touched_of_shown (by decide) shows.l3Proto.1, shows.l3Proto.2⟩
  case l4Proto =>
    rw [orig_touched shows]
    exact ⟨isSet_touched_of_shown (by decide) shows.l4Proto.1, shows.l4Proto.2⟩
  case src =>
    rw [orig_touched shows]
    exact ⟨isSet_touched_of_shown (by decide) shows.src.1, shows.src.2⟩
  case dst =>
    rw [orig_touched shows]
    exact ⟨isSet_touched_of_shown (by decide) shows.dst.1, shows.dst.2⟩
  case ports =>
    intro ports
    exact ⟨isSet_touched_of_shown (by decide) (shows.ports.1.trans ports),
      isSet_touched_of_shown (by decide) (shows.ports.2.trans ports)⟩
  case icmp =>
    intro ping
    exact ⟨isSet_touched_of_shown (by decide) (shows.icmp.1.trans ping),
      isSet_touched_of_shown (by decide) (shows.icmp.2.1.trans ping),
      isSet_touched_of_shown (by decide) (shows.icmp.2.2.trans ping)⟩
  case layer4 =>
    intro known
    have some4 : (entry.flow.hasPorts || entry.flow.isIcmp) = true := Bool.or_eq_true_iff.mpr known
    rw [orig_touched shows]
    simp only [some4, if_true]
    exact shows.layer4 known
  case mark =>
    refine ⟨?_, rfl⟩
    rw [isSet_touched]
    rfl

theorem cmpIcmp_touched (shows : Shows ct entry) (ping : entry.flow.isIcmp = true) :
    cmpIcmp { mask := true } (touched update ct mark) ct = true := by
  have copied := copied_touched update mark shows
  obtain ⟨type, code, id⟩ := copied.icmp ping
  obtain ⟨l4src, l4dst⟩ := copied.layer4 (Or.inr ping)
  obtain ⟨l4src', l4dst'⟩ := shows.layer4 (Or.inr ping)
  rw [cmpIcmp, cmpAttr_of_set id (shows.icmp.2.2.trans ping),
    cmpAttr_of_set code (shows.icmp.2.1.trans ping),
    cmpAttr_of_set type (shows.icmp.1.trans ping), l4src, l4dst, l4src', l4dst']
  simp

/-- Stale bits do not count against an entry: the copy agrees with it below the protocol. -/
theorem cmpL4proto_touched (shows : Shows ct entry) :
    cmpL4proto origDirection { mask := true } (touched update ct mark) ct = true := by
  have copied := copied_touched update mark shows
  simp only [cmpL4proto, origDirection, copied.l4Proto.2, shows.l4Proto.2, bne_self_eq_false,
    Bool.false_eq_true, if_false]
  by_cases ping : entry.flow.protonum = ipprotoIcmp
  · rw [if_pos (Or.inl ping)]
    exact cmpIcmp_touched shows (beq_iff_eq.mpr ping)
  · rw [if_neg (not_or.mpr ⟨ping, entry.ipv4⟩)]
    by_cases compared : entry.flow.protonum ∈ comparedPorts
    · have ports := hasPorts_of_compared compared
      obtain ⟨l4src, l4dst⟩ := copied.layer4 (Or.inl ports)
      obtain ⟨l4src', l4dst'⟩ := shows.layer4 (Or.inl ports)
      rw [if_pos compared, cmpAttr_of_set (copied.ports ports).1 (shows.ports.1.trans ports),
        cmpAttr_of_set (copied.ports ports).2 (shows.ports.2.trans ports), l4src, l4dst, l4src',
        l4dst']
      simp
    · rw [if_neg compared]

theorem cmpDirection_of_unset {direction : Direction} {flags : CmpFlags} {ct1 ct2 : NfConntrack}
    (free : flags.strict = false)
    (unset : ∀ attr ∈ [direction.l3Proto, direction.l4Proto, direction.ipv4Src, direction.ipv4Dst,
      direction.ipv6Src, direction.ipv6Dst, direction.zone], ct1.isSet attr = false) :
    cmpDirection direction flags ct1 ct2 = true := by
  simp only [List.forall_mem_cons] at unset
  obtain ⟨l3, l4, src4, dst4, src6, dst6, zone, _⟩ := unset
  rw [cmpDirection, cmpAttr_of_unset free l3, cmpAttr_of_unset free l4, cmpAttr_of_unset free src4,
    cmpAttr_of_unset free dst4, cmpAttr_of_unset free src6, cmpAttr_of_unset free dst6,
    cmpAttr_of_unset free zone]
  rfl

/-- A request is only made for an entry whose mark differs. -/
theorem nfctCmp_touched (holds : UpdateHolds update jammed) (shows : Shows ct entry) :
    nfctCmp (touched update ct mark) ct { mask := true } = (mark == entry.mark) := by
  have copied := copied_touched update mark shows
  have clean : ∀ attr ∈ foreignAttrs, (touched update ct mark).isSet attr = false :=
    (holds.touched shows).clean
  have unset : ∀ {attr : Attr} {strict cmp : Bool}, attr ∈ foreignAttrs →
      cmpAttr { mask := true } (touched update ct mark) ct attr strict cmp = true :=
    fun foreign => cmpAttr_of_unset rfl (clean _ foreign)
  have getMark : (touched update ct mark).getMark = mark := by
    rw [NfConntrack.getMark, copied.mark.1, copied.mark.2]
    rfl
  have marks : cmpAttr { mask := true } (touched update ct mark) ct .mark false
      ((touched update ct mark).getMark == ct.getMark) = (mark == entry.mark) := by
    rw [getMark, shows.mark]
    cases there : ct.isSet .mark with
    | true => exact cmpAttr_of_set copied.mark.1 there
    | false => simp [cmpAttr, copied.mark.1, there]
  have metas : cmpMeta { mask := true } (touched update ct mark) ct = (mark == entry.mark) := by
    rw [cmpMeta, marks, unset (by decide), unset (by decide), unset (by decide), unset (by decide),
      unset (by decide), unset (by decide), unset (by decide), unset (by decide),
      unset (by decide), unset (by decide)]
    simp
  have origs : cmpOrig { mask := true } (touched update ct mark) ct = true := by
    rw [cmpOrig, cmpDirection]
    simp only [cmpL4proto_touched shows]
    simp only [origDirection]
    rw [cmpAttr_of_set copied.l3Proto.1 shows.l3Proto.1,
      cmpAttr_of_set copied.l4Proto.1 shows.l4Proto.1, cmpAttr_of_set copied.src.1 shows.src.1,
      cmpAttr_of_set copied.dst.1 shows.dst.1, unset (by decide), unset (by decide),
      unset (by decide), copied.l3Proto.2, shows.l3Proto.2, copied.src.2, shows.src.2,
      copied.dst.2, shows.dst.2]
    simp
  have repls : cmpRepl { mask := true } (touched update ct mark) ct = true := by
    refine cmpDirection_of_unset rfl ?_
    intro attr member
    refine clean attr ?_
    revert attr
    decide
  rw [nfctCmp, if_pos rfl, metas, origs, repls, Bool.and_true, Bool.and_true]

theorem buildTuple_touched (holds : UpdateHolds update jammed) (shows : Shows ct entry) :
    buildTuple origDirection (touched update ct mark) =
      if entry.flow.hasPorts then
        some ⟨.v4 entry.flow.src entry.flow.dst,
          .ports entry.flow.protonum entry.flow.l4src entry.flow.l4dst, none⟩
      else if entry.flow.isIcmp then
        some ⟨.v4 entry.flow.src entry.flow.dst,
          .icmp entry.flow.protonum entry.flow.l4dst.code entry.flow.l4dst.type entry.flow.l4src,
          none⟩
      else none := by
  have copied := copied_touched update mark shows
  have noZone : (touched update ct mark).isSet .origZone = false :=
    (holds.touched shows).clean _ (by decide)
  have ip : buildTupleIp (touched update ct mark).orig =
      some (.v4 entry.flow.src entry.flow.dst) := by
    rw [buildTupleIp, if_pos copied.l3Proto.2, copied.src.2, copied.dst.2]
  simp only [buildTuple, origDirection, ip, noZone, Option.bind_eq_bind, Option.bind_some]
  rw [buildTupleProto, copied.l4Proto.2]
  cases ports : entry.flow.hasPorts with
  | true =>
      obtain ⟨l4src, l4dst⟩ := copied.layer4 (Or.inl ports)
      rw [if_pos (of_decide_eq_true ports), l4src, l4dst]
      rfl
  | false =>
      rw [if_neg (of_decide_eq_false ports)]
      cases ping : entry.flow.isIcmp with
      | true =>
          obtain ⟨l4src, l4dst⟩ := copied.layer4 (Or.inr ping)
          rw [if_pos (Or.inl (beq_iff_eq.mp ping)), l4src, l4dst]
          rfl
      | false =>
          have plain : entry.flow.protonum ≠ ipprotoIcmp := beq_eq_false_iff_ne.mp ping
          rw [if_neg (not_or.mpr ⟨plain, entry.ipv4⟩)]
          rfl

/-- The request for an entry: it names the entry, and it carries the mark unless an ICMP
entry has been copied into the object. -/
theorem buildQueryUpdate_touched (mark : UInt32) (holds : UpdateHolds update jammed)
    (shows : Shows ct entry) :
    ∃ request, buildQueryUpdate (touched update ct mark) = some request ∧
      (entry.flow.hasPorts = true → request.flow? = some entry.flow) ∧
      request.mark =
        if entry.flow.hasPorts && !(jammed || entry.flow.isIcmp) then some mark else none := by
  have copied := copied_touched update mark shows
  have later : UpdateHolds (touched update ct mark) (jammed || entry.flow.isIcmp) :=
    holds.touched shows
  have noReply : buildTuple replDirection (touched update ct mark) = none := by
    have family : (replDirection.tuple (touched update ct mark)).l3protonum = 0 := later.repl
    rw [buildTuple, buildTupleIp, family]
    rfl
  have replies : replyAttrs.any (touched update ct mark).isSet = (jammed || entry.flow.isIcmp) := by
    have clean := later.clean
    simp only [foreignAttrs, List.forall_mem_cons] at clean
    simp [replyAttrs, later.icmp, clean]
  refine ⟨nlmsgBuild (touched update ct mark), ?_, ?_⟩
  · rw [buildQueryUpdate, if_pos copied.l3Proto.1]
  · rw [nlmsgBuild, buildTuple_touched holds shows, replies, noReply]
    cases ports : entry.flow.hasPorts with
    | true =>
        cases stuck : jammed || entry.flow.isIcmp with
        | true => exact ⟨fun _ => rfl, rfl⟩
        | false =>
            refine ⟨fun _ => rfl, ?_⟩
            simp [buildMeta, copied.mark]
    | false =>
        cases ping : entry.flow.isIcmp with
        | true => simp
        | false => simp

end Updating

/-! ### One entry and its table -/

section Entries

variable {filter update ct : NfConntrack} {selection : Selection} {entry : Entry} {jammed : Bool}

theorem receive_request (kernel : Ctnetlink) {request : CtMessage} {flow : Flow} {mark : UInt32} {reached : Bool}
    (names : reached = true → request.flow? = some flow)
    (carries : request.mark = if reached then some mark else none) (table : List Entry) :
    kernel.receive table request = if reached then assign table flow mark else table := by
  cases reached with
  | false => exact kernel.receive_unmarked table request carries
  | true => exact kernel.receive_marked table request flow mark (names rfl) carries

theorem updateNetSession_spec (held : FilterHolds filter selection)
    (family : filter.isSet .origL3Proto = true ∧ filter.orig.l3protonum = afInet)
    (low : ¬filter.getMark > 100) (holds : UpdateHolds update jammed) (shows : Shows ct entry) :
    UpdateHolds (updateNetSession filter update ct).1 (selection.jams jammed entry.flow) ∧
      ∀ (kernel : Ctnetlink) table,
        (updateNetSession filter update ct).2.toList.foldl kernel.receive table =
          if selection.reaches jammed entry.flow && !(filter.getMark == entry.mark) then
            assign table entry.flow filter.getMark
          else table := by
  rw [updateNetSession, nfctCmp_filter held family shows]
  cases chosen : selection.selects entry.flow with
  | false =>
      have same : selection.jams jammed entry.flow = jammed := by simp [Selection.jams, chosen]
      rw [same, Selection.reaches, chosen]
      exact ⟨holds, fun kernel table => rfl⟩
  | true =>
      have jams : selection.jams jammed entry.flow = (jammed || entry.flow.isIcmp) := by
        rw [Selection.jams, chosen, Bool.true_and]
      obtain ⟨request, built, names, carries⟩ := buildQueryUpdate_touched filter.getMark holds shows
      have unchanged : nfctCmp (touched update ct filter.getMark) ct { mask := true } =
          (filter.getMark == entry.mark) := nfctCmp_touched holds shows
      simp only [touched] at built unchanged
      simp only [Bool.not_true, Bool.false_eq_true, if_false, if_neg low, unchanged, built,
        Selection.reaches, chosen, jams, Bool.true_and]
      cases equal : filter.getMark == entry.mark with
      | true => exact ⟨holds.touched shows, fun kernel table => by simp⟩
      | false =>
          refine ⟨holds.touched shows, fun kernel table => ?_⟩
          have effect := receive_request kernel (fun ports => names (Bool.and_eq_true_iff.mp ports).1)
            carries table
          simpa using effect

end Entries

/-! ### Whole calls -/

section Calls

variable {filter update : NfConntrack} {selection : Selection} {jammed : Bool}

theorem withMark_self {entry : Entry} {mark : UInt32} (same : mark = entry.mark) :
    entry.withMark mark = entry := by
  rw [Entry.withMark, same]

theorem assign_once {before after : List Entry} {entry : Entry}
    (distinct : ((before ++ entry :: after).map Entry.flow).Nodup) (mark : UInt32) :
    assign (before ++ entry :: after) entry.flow mark = before ++ entry.withMark mark :: after := by
  have others : ∀ other ∈ before ++ after, other.flow ≠ entry.flow := by
    intro other member same
    rw [List.map_append, List.map_cons, List.nodup_middle, ← List.map_append] at distinct
    exact (List.nodup_cons.mp distinct).1 (List.mem_map.mpr ⟨other, member, same⟩)
  have kept : ∀ entries : List Entry, (∀ other ∈ entries, other.flow ≠ entry.flow) →
      assign entries entry.flow mark = entries := by
    intro entries apart
    refine (List.map_congr_left ?_).trans (List.map_id entries)
    intro other member
    exact if_neg (apart other member)
  have first := kept before fun other member => others other (List.mem_append_left after member)
  have last := kept after fun other member => others other (List.mem_append_right before member)
  rw [assign] at first last ⊢
  rw [List.map_append, List.map_cons, first, last, if_pos rfl]

/-- The induction over the dump: the entries behind have their marks, those ahead are as they
were shown. -/
theorem dumpAll_spec (held : FilterHolds filter selection)
    (family : filter.isSet .origL3Proto = true ∧ filter.orig.l3protonum = afInet)
    (low : ¬filter.getMark > 100) (holds : UpdateHolds update jammed) {dump : List NfConntrack}
    {entries : List Entry} (shows : List.Forall₂ Shows dump entries) (before : List Entry)
    (distinct : ((before ++ entries).map Entry.flow).Nodup) :
    UpdateHolds (dumpAll filter update dump).1
        (selection.sweep filter.getMark jammed entries).1 ∧
      ∀ kernel : Ctnetlink, (dumpAll filter update dump).2.foldl kernel.receive
          (before ++ entries) =
        before ++ (selection.sweep filter.getMark jammed entries).2 := by
  induction shows generalizing update jammed before with
  | nil => exact ⟨holds, fun _ => rfl⟩
  | @cons ct entry dump entries shown _ ih =>
      obtain ⟨next, effect⟩ := updateNetSession_spec held family low holds shown
      let after := if selection.reaches jammed entry.flow then entry.withMark filter.getMark
        else entry
      have sameFlow : after.flow = entry.flow := by
        simp only [after]
        split <;> rfl
      have turn (kernel : Ctnetlink) : (updateNetSession filter update ct).2.toList.foldl
          kernel.receive (before ++ entry :: entries) = (before ++ [after]) ++ entries := by
        rw [effect kernel, List.append_assoc, List.singleton_append]
        simp only [after]
        cases selection.reaches jammed entry.flow with
        | false => rfl
        | true =>
            cases equal : filter.getMark == entry.mark with
            | true => rw [withMark_self (beq_iff_eq.mp equal)]; rfl
            | false => exact assign_once distinct filter.getMark
      have still : (((before ++ [after]) ++ entries).map Entry.flow).Nodup := by
        simpa [sameFlow] using distinct
      obtain ⟨left, marks⟩ := ih next (before ++ [after]) still
      refine ⟨left, fun kernel => ?_⟩
      rw [dumpAll, List.foldl_append, turn kernel, marks kernel, List.append_assoc]
      rfl

end Calls

/-! ### Runs of calls -/

structure Session.Holds (session : ConntrackSession) (state : SessionState) : Prop where
  filter : FilterHolds session.filter state.selection
  update : UpdateHolds session.update state.jammed

theorem open_holds : Session.Holds openConntrackSession {} := ⟨filterHolds_new, updateHolds_new⟩

theorem dumpAll_high {filter : NfConntrack} (high : filter.getMark > 100) (update : NfConntrack)
    (dump : List NfConntrack) : dumpAll filter update dump = (update, []) := by
  induction dump with
  | nil => rfl
  | cons ct rest ih =>
      have quiet : updateNetSession filter update ct = (update, none) := by
        unfold updateNetSession
        split
        · rfl
        · exact if_pos high
      rw [dumpAll, quiet]
      simp only [ih]
      rfl

section States

variable (state : SessionState) (call : QuietCall)

theorem SessionState.call_high {state : SessionState} {call : QuietCall} (high : call.mark > 100) :
    state.after call = ⟨state.selection.narrow call.tuple, state.jammed⟩ ∧
      state.table call = call.entries := by
  rw [after, table, SessionState.call, if_pos high]
  exact ⟨rfl, rfl⟩

theorem SessionState.call_low {state : SessionState} {call : QuietCall} (low : ¬call.mark > 100) :
    state.after call = ⟨state.selection.narrow call.tuple,
        ((state.selection.narrow call.tuple).sweep call.mark state.jammed call.entries).1⟩ ∧
      state.table call =
        ((state.selection.narrow call.tuple).sweep call.mark state.jammed call.entries).2 := by
  rw [after, table, SessionState.call, if_neg low]
  exact ⟨rfl, rfl⟩

theorem SessionState.selection_after :
    (state.after call).selection = state.selection.narrow call.tuple := by
  by_cases high : call.mark > 100
  · rw [(call_high high).1]
  · rw [(call_low high).1]

theorem SessionState.selection_run (calls : List QuietCall) :
    (Runs.run SessionState.after state calls).selection =
      calls.foldl (fun selection call => selection.narrow call.tuple) state.selection := by
  induction calls generalizing state with
  | nil => rfl
  | cons call rest ih => rw [Runs.run_cons, ih, selection_after, List.foldl_cons]

end States

section Runs

variable {session : ConntrackSession} {state : SessionState}

theorem call_spec (holds : Session.Holds session state) (call : QuietCall) :
    Session.Holds (session.after call) (state.after call) ∧
      ∀ kernel, session.table kernel call = state.table call := by
  let filter := writeFilter session.filter call.tuple call.mark
  have held : FilterHolds filter (state.selection.narrow call.tuple) :=
    holds.filter.writeFilter call.tuple call.mark
  have marked : filter.getMark = call.mark := getMark_writeFilter call.tuple call.mark
  have family : filter.isSet .origL3Proto = true ∧ filter.orig.l3protonum = afInet := by
    simp only [filter, isSet_writeFilter, orig_writeFilter]
    simp
  have after : session.after call = ⟨filter, (dumpAll filter session.update call.dump).1⟩ := rfl
  have table (kernel : Ctnetlink) : session.table kernel call =
      (dumpAll filter session.update call.dump).2.foldl kernel.receive call.entries := rfl
  simp only [after, table]
  by_cases high : call.mark > 100
  · rw [(SessionState.call_high high).1, (SessionState.call_high high).2,
      dumpAll_high (by rw [marked]; exact high)]
    exact ⟨⟨held, holds.update⟩, fun _ => rfl⟩
  · obtain ⟨update, marks⟩ := dumpAll_spec held family (by rw [marked]; exact high)
      holds.update call.shows [] call.distinct
    rw [marked] at update marks
    rw [(SessionState.call_low high).1, (SessionState.call_low high).2]
    exact ⟨⟨held, update⟩, marks⟩

theorem run_holds (calls : List QuietCall) :
    Session.Holds (Runs.run ConntrackSession.after openConntrackSession calls)
      (Runs.run SessionState.after {} calls) := by
  refine Runs.run_simulation _ _ (fun _ _ => True) Session.Holds ?_ open_holds
    (Runs.meets_of_forall (fun _ _ => trivial) _)
  intro session state call holds _
  exact (call_spec holds call).1

/-- Over any calls on a session, with the kernel's table changing at will between them, the
tables that the calls leave are those of the abstract session. -/
theorem setAcceptMark_refines (kernel : Ctnetlink) (calls : List QuietCall) :
    Runs.outputs ConntrackSession.after (fun session call => [session.table kernel call])
        openConntrackSession calls =
      Runs.outputs SessionState.after (fun state call => [state.table call]) {} calls := by
  refine Runs.outputs_simulation _ _ _ _ Session.Holds ?_ open_holds calls
  intro session state call holds
  obtain ⟨next, table⟩ := call_spec holds call
  exact ⟨congrArg (fun entries => [entries]) (table kernel), next⟩

end Runs

end NetPolicy.Conntrack
