/-
Exactly-once delivery of one direction's payload.

The sender's segments arrive in order, with replays in between.  The engine keeps the
next sequence number it expects, modulo 2^32, and takes a smaller number for a replay.
That is right as long as the replayed packet and the next expected byte lie on the same
side of a wrap of the sequence numbers; a replay from before the wrap is taken for data.
-/

import Mathlib.Data.List.GetD
import NetPolicy.Flow.Connections

namespace NetPolicy.Flow

/-! ### Arrivals -/

/-- A packet as it arrives: a segment for the first time, a replay of an earlier segment
by its place in the order of first arrivals, or a replay of the SYN. -/
inductive Arrival where
  | first (bytes : List UInt8) (now : Nat)
  | again (index now : Nat)
  | synAgain (now : Nat)
deriving DecidableEq, Repr

namespace Arrival

def now : Arrival → Nat
  | .first _ now => now
  | .again _ now => now
  | .synAgain now => now

def packet (syn : List UInt8) (seen : List (List UInt8)) : Arrival → List UInt8
  | .first bytes _ => bytes
  | .again index _ => seen.getD index []
  | .synAgain _ => syn

def remember (seen : List (List UInt8)) : Arrival → List (List UInt8)
  | .first bytes _ => seen ++ [bytes]
  | _ => seen

end Arrival

def payloadOf (bytes : List UInt8) : List UInt8 :=
  ((parseSegment bytes).map fun segment => segment.payload bytes).getD []

def classify (syn : List UInt8) : FlowEngine → List (List UInt8) → List Arrival →
    List (Arrival × List UInt8 × PacketKind)
  | _, _, [] => []
  | engine, seen, arrival :: rest =>
      let bytes := arrival.packet syn seen
      let call := engine.onPacket bytes arrival.now
      (arrival, bytes, call.2.kind) :: classify syn call.1 (arrival.remember seen) rest

/-- The payloads of the packets classified as data, one after another. -/
def delivered (classified : List (Arrival × List UInt8 × PacketKind)) : List UInt8 :=
  classified.flatMap fun item => if item.2.2 = .data then payloadOf item.2.1 else []

/-- The sender's stream: the payloads of the first arrivals. -/
def stream (arrivals : List Arrival) : List UInt8 :=
  arrivals.flatMap fun arrival =>
    match arrival with
    | .first bytes _ => payloadOf bytes
    | _ => []

def Distinguished : Arrival × List UInt8 × PacketKind → Prop
  | (.first _ _, _, kind) => kind ≠ .duplicate
  | (.again _ _, bytes, kind) => payloadOf bytes ≠ [] → kind = .duplicate
  | (.synAgain _, _, kind) => kind = .duplicate

def ExactlyOnce (syn : List UInt8) (engine : FlowEngine) (arrivals : List Arrival) : Prop :=
  let classified := classify syn engine [] arrivals
  delivered classified = stream arrivals ∧ ∀ item ∈ classified, Distinguished item

/-! ### The sender -/

def seqSpace : Nat := 4294967296

/-- A data segment of the flow at some offset into the stream. -/
structure SegmentAt (flow : ConnectionId) (isn offset : Nat) (bytes : List UInt8)
    (segment : Segment) : Prop where
  parsed : parseSegment bytes = some segment
  own : segment.id = flow
  noFin : segment.fin = false
  noRst : segment.rst = false
  placed : segment.seq = (isn + 1 + offset) % seqSpace

structure SynOf (flow : ConnectionId) (isn : Nat) (bytes : List UInt8) (segment : Segment) :
    Prop where
  parsed : parseSegment bytes = some segment
  own : segment.id = flow
  syn : segment.syn = true
  noFin : segment.fin = false
  noRst : segment.rst = false
  placed : segment.seq = isn

/-- First arrivals are contiguous from the offset on, and replays are of segments seen. -/
def InOrder (flow : ConnectionId) (isn : Nat) : Nat → Nat → List Arrival → Prop
  | _, _, [] => True
  | offset, count, .first bytes _ :: rest =>
      (∃ segment, SegmentAt flow isn offset bytes segment) ∧
        InOrder flow isn (offset + (payloadOf bytes).length) (count + 1) rest
  | offset, count, .again index _ :: rest => index < count ∧ InOrder flow isn offset count rest
  | offset, count, .synAgain _ :: rest => InOrder flow isn offset count rest

def wraps (isn offset : Nat) : Nat := (isn + 1 + offset) / seqSpace

/-- No packet is replayed after a wrap it was sent before.  `starts` holds the offsets of
the segments seen so far. -/
def ReplaysBeforeWrap (isn : Nat) : Nat → List Nat → List Arrival → Prop
  | _, _, [] => True
  | offset, starts, .first bytes _ :: rest =>
      ReplaysBeforeWrap isn (offset + (payloadOf bytes).length) (starts ++ [offset]) rest
  | offset, starts, .again index _ :: rest =>
      wraps isn (starts.getD index 0) = wraps isn offset ∧
        ReplaysBeforeWrap isn offset starts rest
  | offset, starts, .synAgain _ :: rest =>
      wraps isn offset = 0 ∧ ReplaysBeforeWrap isn offset starts rest

theorem seq_lt_of_same_wraps {isn start offset : Nat} (earlier : start < offset)
    (same : wraps isn start = wraps isn offset) :
    (isn + 1 + start) % seqSpace < (isn + 1 + offset) % seqSpace := by
  unfold wraps seqSpace at *
  omega

theorem seq_le_of_wrapped {isn start offset : Nat} (earlier : start ≤ offset)
    (near : offset < start + seqSpace) (wrapped : wraps isn start ≠ wraps isn offset) :
    (isn + 1 + offset) % seqSpace ≤ (isn + 1 + start) % seqSpace := by
  unfold wraps seqSpace at *
  omega

theorem payloadOf_length {bytes : List UInt8} {segment : Segment}
    (parsed : parseSegment bytes = some segment) :
    (payloadOf bytes).length = segment.payloadLen := by
  have bounds := bounds_of_parseSegment parsed
  rw [payloadOf, parsed, Option.map_some, Option.getD_some, Segment.payload, List.length_drop,
    bounds.2.2]

/-! ### What the engine makes of one packet -/

/-- The engine expects the byte at the offset next. -/
def Expects (engine : FlowEngine) (flow : ConnectionId) (isn offset : Nat) : Prop :=
  ∃ state, engine.tcbs.lookup flow = some state ∧ state.seq = (isn + 1 + offset) % seqSpace

section Packets

variable {engine : FlowEngine} {flow : ConnectionId} {isn offset : Nat} {bytes : List UInt8}
  {segment : Segment} (now : Nat)

theorem onPacket_tracked (expects : Expects engine flow isn offset)
    (parsed : parseSegment bytes = some segment) (own : segment.id = flow)
    (noFin : segment.fin = false) (noRst : segment.rst = false) :
    ∃ state : FlowState, engine.onPacket bytes now =
      if segment.seq < (isn + 1 + offset) % seqSpace then (engine, segment.decision .duplicate)
      else
        ({ tcbs := engine.tcbs.insert flow
            { state with
              seq := FlowEngine.wrappingAdd segment.seq segment.payloadLen
              lastSeen := now } },
          segment.decision .data) := by
  obtain ⟨state, known, tracked⟩ := expects
  refine ⟨state, ?_⟩
  rw [engine.onPacket_segment parsed]
  unfold FlowEngine.onSegment
  rw [own, known]
  dsimp only
  rw [noFin, noRst, if_neg (by decide), tracked]

theorem onPacket_behind (expects : Expects engine flow isn offset)
    (parsed : parseSegment bytes = some segment) (own : segment.id = flow)
    (noFin : segment.fin = false) (noRst : segment.rst = false)
    (behind : segment.seq < (isn + 1 + offset) % seqSpace) :
    engine.onPacket bytes now = (engine, segment.decision .duplicate) := by
  obtain ⟨state, answer⟩ := onPacket_tracked now expects parsed own noFin noRst
  rw [answer, if_pos behind]

theorem onPacket_ahead (expects : Expects engine flow isn offset)
    (parsed : parseSegment bytes = some segment) (own : segment.id = flow)
    (noFin : segment.fin = false) (noRst : segment.rst = false)
    (ahead : (isn + 1 + offset) % seqSpace ≤ segment.seq) :
    (engine.onPacket bytes now).2.kind = .data ∧
      ∃ state, (engine.onPacket bytes now).1.tcbs.lookup flow = some state ∧
        state.seq = (segment.seq + segment.payloadLen) % seqSpace := by
  obtain ⟨state, answer⟩ := onPacket_tracked now expects parsed own noFin noRst
  rw [answer, if_neg (Nat.not_lt.mpr ahead)]
  exact ⟨rfl, _, Table.lookup_insert_same _ _ _, rfl⟩

theorem onPacket_next (expects : Expects engine flow isn offset)
    (next : SegmentAt flow isn offset bytes segment) :
    (engine.onPacket bytes now).2.kind = .data ∧
      Expects (engine.onPacket bytes now).1 flow isn (offset + (payloadOf bytes).length) := by
  obtain ⟨data, state, known, tracked⟩ := onPacket_ahead now expects next.parsed next.own
    next.noFin next.noRst (by rw [next.placed])
  refine ⟨data, state, known, ?_⟩
  rw [tracked, next.placed, payloadOf_length next.parsed, Nat.mod_add_mod, Nat.add_assoc]

theorem expects_of_syn (unknown : engine.tcbs.contains flow = false)
    (opens : SynOf flow isn bytes segment) :
    Expects (engine.onPacket bytes now).1 flow isn 0 := by
  rw [engine.onPacket_segment opens.parsed]
  have absent : engine.tcbs.lookup segment.id = none := by
    rw [opens.own]
    exact Table.lookup_eq_none_of_not_contains unknown
  unfold FlowEngine.onSegment
  rw [absent]
  dsimp only
  rw [opens.noRst, if_neg (by decide), if_pos opens.syn, ← opens.own]
  exact ⟨_, engine.opened_lookup segment now, by rw [opens.placed]; rfl⟩

/-- A replay on the same side of the wraps changes nothing the engine expects, and is a
duplicate unless it carries nothing. -/
theorem onPacket_replay {start : Nat} (expects : Expects engine flow isn offset)
    (old : SegmentAt flow isn start bytes segment)
    (ends : start + (payloadOf bytes).length ≤ offset)
    (same : wraps isn start = wraps isn offset) :
    (payloadOf bytes ≠ [] → (engine.onPacket bytes now).2.kind = .duplicate) ∧
      Expects (engine.onPacket bytes now).1 flow isn offset := by
  rcases Nat.lt_or_ge start offset with earlier | here
  · have behind : segment.seq < (isn + 1 + offset) % seqSpace := by
      rw [old.placed]
      exact seq_lt_of_same_wraps earlier same
    rw [onPacket_behind now expects old.parsed old.own old.noFin old.noRst behind]
    exact ⟨fun _ => rfl, expects⟩
  · -- the replay of an empty segment that nothing has followed yet
    have empty : (payloadOf bytes).length = 0 := by omega
    have atEnd : start = offset := by omega
    subst atEnd
    obtain ⟨_, next⟩ := onPacket_next now expects old
    rw [empty, Nat.add_zero] at next
    exact ⟨fun nonEmpty => absurd (List.eq_nil_of_length_eq_zero empty) nonEmpty, next⟩

theorem onPacket_replay_wrapped {start : Nat} (expects : Expects engine flow isn offset)
    (old : SegmentAt flow isn start bytes segment) (earlier : start ≤ offset)
    (near : offset < start + seqSpace) (wrapped : wraps isn start ≠ wraps isn offset) :
    (engine.onPacket bytes now).2.kind = .data :=
  (onPacket_ahead now expects old.parsed old.own old.noFin old.noRst
    (by rw [old.placed]; exact seq_le_of_wrapped earlier near wrapped)).1

theorem sameWraps_of_duplicate {start : Nat} (expects : Expects engine flow isn offset)
    (old : SegmentAt flow isn start bytes segment) (earlier : start ≤ offset)
    (near : offset < start + seqSpace)
    (duplicate : (engine.onPacket bytes now).2.kind = .duplicate) :
    wraps isn start = wraps isn offset := by
  by_contra wrapped
  rw [onPacket_replay_wrapped now expects old earlier near wrapped] at duplicate
  cases duplicate

theorem onPacket_synAgain (expects : Expects engine flow isn offset)
    (opens : SynOf flow isn bytes segment) (unwrapped : wraps isn offset = 0) :
    engine.onPacket bytes now = (engine, segment.decision .duplicate) := by
  refine onPacket_behind now expects opens.parsed opens.own opens.noFin opens.noRst ?_
  rw [opens.placed]
  unfold wraps seqSpace at *
  omega

theorem onPacket_synAgain_wrapped (expects : Expects engine flow isn offset)
    (opens : SynOf flow isn bytes segment) (inSpace : isn < seqSpace) (near : offset < seqSpace)
    (wrapped : wraps isn offset ≠ 0) : (engine.onPacket bytes now).2.kind = .data := by
  refine (onPacket_ahead now expects opens.parsed opens.own opens.noFin opens.noRst ?_).1
  rw [opens.placed]
  unfold wraps seqSpace at *
  omega

theorem unwrapped_of_duplicate (expects : Expects engine flow isn offset)
    (opens : SynOf flow isn bytes segment) (inSpace : isn < seqSpace) (near : offset < seqSpace)
    (duplicate : (engine.onPacket bytes now).2.kind = .duplicate) : wraps isn offset = 0 := by
  by_contra wrapped
  rw [onPacket_synAgain_wrapped now expects opens inSpace near wrapped] at duplicate
  cases duplicate

end Packets

/-! ### Runs of arrivals -/

structure Seen (flow : ConnectionId) (isn offset : Nat) (seen : List (List UInt8))
    (starts : List Nat) : Prop where
  sameLength : seen.length = starts.length
  placed : ∀ index, index < seen.length →
    starts.getD index 0 + (payloadOf (seen.getD index [])).length ≤ offset ∧
      ∃ segment, SegmentAt flow isn (starts.getD index 0) (seen.getD index []) segment

theorem Seen.push {flow : ConnectionId} {isn offset : Nat} {seen : List (List UInt8)}
    {starts : List Nat} (before : Seen flow isn offset seen starts) {bytes : List UInt8}
    (next : ∃ segment, SegmentAt flow isn offset bytes segment) :
    Seen flow isn (offset + (payloadOf bytes).length) (seen ++ [bytes]) (starts ++ [offset]) := by
  refine ⟨?_, ?_⟩
  · rw [List.length_append, List.length_append, before.sameLength]
    rfl
  · intro index within
    rw [List.length_append, List.length_singleton] at within
    rcases Nat.lt_or_ge index seen.length with old | new
    · obtain ⟨ends, placed⟩ := before.placed index old
      rw [List.getD_append _ _ _ _ old,
        List.getD_append _ _ _ _ (by rw [← before.sameLength]; exact old)]
      exact ⟨by omega, placed⟩
    · have last : index = seen.length := by omega
      subst last
      rw [List.getD_append_right _ _ _ _ (Nat.le_refl _), before.sameLength,
        List.getD_append_right _ _ _ _ (Nat.le_refl _), Nat.sub_self]
      exact ⟨Nat.le_refl _, next⟩

theorem Seen.nil (flow : ConnectionId) (isn offset : Nat) : Seen flow isn offset [] [] :=
  ⟨rfl, by intro index within; cases within⟩

theorem delivered_cons (arrival : Arrival) (bytes : List UInt8) (kind : PacketKind)
    (rest : List (Arrival × List UInt8 × PacketKind)) :
    delivered ((arrival, bytes, kind) :: rest) =
      (if kind = .data then payloadOf bytes else []) ++ delivered rest :=
  List.flatMap_cons

theorem undelivered_of_duplicate {bytes : List UInt8} {kind : PacketKind}
    (duplicate : payloadOf bytes ≠ [] → kind = .duplicate) :
    (if kind = .data then payloadOf bytes else []) = [] := by
  by_cases empty : payloadOf bytes = []
  · rw [empty, ite_self]
  · rw [duplicate empty, if_neg (by intro data; cases data)]

section Delivery

variable {flow : ConnectionId} {isn : Nat} {syn : List UInt8} {opening : Segment}
  (opens : SynOf flow isn syn opening)

include opens

/-- From any point of the stream on: what is delivered is what remains of the stream, and
replays are told from first arrivals. -/
theorem classify_exactlyOnce {arrivals : List Arrival} {engine : FlowEngine} {offset : Nat}
    {seen : List (List UInt8)} {starts : List Nat} (expects : Expects engine flow isn offset)
    (known : Seen flow isn offset seen starts)
    (ordered : InOrder flow isn offset seen.length arrivals)
    (early : ReplaysBeforeWrap isn offset starts arrivals) :
    delivered (classify syn engine seen arrivals) = stream arrivals ∧
      ∀ item ∈ classify syn engine seen arrivals, Distinguished item := by
  induction arrivals generalizing engine offset seen starts with
  | nil => exact ⟨rfl, by intro item member; cases member⟩
  | cons arrival rest ih =>
      cases arrival with
      | first bytes now =>
          obtain ⟨⟨segment, next⟩, ordered⟩ := ordered
          obtain ⟨data, expects⟩ := onPacket_next now expects next
          have remembered : seen.length + 1 = (seen ++ [bytes]).length := by
            rw [List.length_append, List.length_singleton]
          rw [remembered] at ordered
          obtain ⟨same, every⟩ := ih expects (known.push ⟨segment, next⟩) ordered early
          constructor
          · rw [classify]
            dsimp only [Arrival.packet, Arrival.now, Arrival.remember]
            rw [delivered_cons, if_pos data, same]
            rfl
          · refine List.forall_mem_cons.mpr ⟨?_, every⟩
            change (engine.onPacket bytes now).2.kind ≠ .duplicate
            rw [data]
            exact nofun
      | again index now =>
          obtain ⟨within, ordered⟩ := ordered
          obtain ⟨sameTurn, early⟩ := early
          obtain ⟨ends, segment, old⟩ := known.placed index within
          obtain ⟨duplicate, expects⟩ := onPacket_replay now expects old ends sameTurn
          obtain ⟨same, every⟩ := ih expects known ordered early
          constructor
          · rw [classify]
            dsimp only [Arrival.packet, Arrival.now, Arrival.remember]
            rw [delivered_cons, undelivered_of_duplicate duplicate, same]
            rfl
          · exact List.forall_mem_cons.mpr ⟨duplicate, every⟩
      | synAgain now =>
          obtain ⟨unwrapped, early⟩ := early
          have duplicate := onPacket_synAgain now expects opens unwrapped
          obtain ⟨same, every⟩ := ih expects known ordered early
          constructor
          · rw [classify]
            dsimp only [Arrival.packet, Arrival.now, Arrival.remember]
            rw [duplicate, delivered_cons, same]
            rfl
          · rw [classify]
            dsimp only [Arrival.packet, Arrival.now, Arrival.remember]
            rw [duplicate]
            exact List.forall_mem_cons.mpr ⟨rfl, every⟩

/-- Conversely, on a stream of non-empty segments shorter than the sequence space, the
first replay from before a wrap is taken for data. -/
theorem replaysBeforeWrap_of_distinguished (inSpace : isn < seqSpace) {arrivals : List Arrival}
    {engine : FlowEngine} {offset : Nat} {seen : List (List UInt8)} {starts : List Nat}
    (expects : Expects engine flow isn offset) (known : Seen flow isn offset seen starts)
    (ordered : InOrder flow isn offset seen.length arrivals)
    (short : offset + (stream arrivals).length < seqSpace)
    (seenFull : ∀ bytes ∈ seen, payloadOf bytes ≠ [])
    (full : ∀ bytes now, .first bytes now ∈ arrivals → payloadOf bytes ≠ [])
    (every : ∀ item ∈ classify syn engine seen arrivals, Distinguished item) :
    ReplaysBeforeWrap isn offset starts arrivals := by
  induction arrivals generalizing engine offset seen starts with
  | nil => trivial
  | cons arrival rest ih =>
      have fullRest : ∀ bytes now, .first bytes now ∈ rest → payloadOf bytes ≠ [] :=
        fun bytes now member => full bytes now (List.mem_cons_of_mem arrival member)
      have head := every _ List.mem_cons_self
      have tail := fun item member => every item (List.mem_cons_of_mem _ member)
      cases arrival with
      | first bytes now =>
          obtain ⟨⟨segment, next⟩, ordered⟩ := ordered
          obtain ⟨_, expects⟩ := onPacket_next now expects next
          have remembered : seen.length + 1 = (seen ++ [bytes]).length := by
            rw [List.length_append, List.length_singleton]
          rw [remembered] at ordered
          have shortRest :
              offset + (payloadOf bytes).length + (stream rest).length < seqSpace := by
            have streamed : stream (.first bytes now :: rest) = payloadOf bytes ++ stream rest :=
              List.flatMap_cons
            rw [streamed, List.length_append] at short
            omega
          have nextFull : ∀ packet ∈ seen ++ [bytes], payloadOf packet ≠ [] :=
            List.forall_mem_append.mpr
              ⟨seenFull, List.forall_mem_singleton.mpr (full bytes now List.mem_cons_self)⟩
          exact ih expects (known.push ⟨segment, next⟩) ordered shortRest nextFull fullRest tail
      | again index now =>
          obtain ⟨within, ordered⟩ := ordered
          obtain ⟨ends, segment, old⟩ := known.placed index within
          have carries : payloadOf (seen.getD index []) ≠ [] := by
            rw [List.getD_eq_getElem _ _ within]
            exact seenFull _ (List.getElem_mem within)
          have sameTurn : wraps isn (starts.getD index 0) = wraps isn offset :=
            sameWraps_of_duplicate now expects old (by omega) (by omega) (head carries)
          obtain ⟨_, expects⟩ := onPacket_replay now expects old ends sameTurn
          exact ⟨sameTurn, ih expects known ordered short seenFull fullRest tail⟩
      | synAgain now =>
          have unwrapped : wraps isn offset = 0 :=
            unwrapped_of_duplicate now expects opens inSpace (by omega) head
          have unchanged := onPacket_synAgain now expects opens unwrapped
          have expects : Expects (engine.onPacket syn now).1 flow isn offset := by
            rw [unchanged]
            exact expects
          exact ⟨unwrapped, ih expects known ordered short seenFull fullRest tail⟩

/-- A flow's payload is delivered exactly once as long as no packet is replayed after a wrap
of the sequence numbers that it was sent before.  When every segment carries something, the
condition is also necessary. -/
theorem exactlyOnce_without_wrapped_replays (inSpace : isn < seqSpace) (engine : FlowEngine)
    (unknown : engine.tcbs.contains flow = false) (now : Nat) {arrivals : List Arrival}
    (ordered : InOrder flow isn 0 0 arrivals) (short : (stream arrivals).length < 2 ^ 31) :
    (ReplaysBeforeWrap isn 0 [] arrivals →
        ExactlyOnce syn (engine.onPacket syn now).1 arrivals) ∧
      ((∀ bytes now, .first bytes now ∈ arrivals → payloadOf bytes ≠ []) →
        ExactlyOnce syn (engine.onPacket syn now).1 arrivals →
          ReplaysBeforeWrap isn 0 [] arrivals) := by
  have expects := expects_of_syn now unknown opens
  have known := Seen.nil flow isn 0
  constructor
  · intro early
    exact classify_exactlyOnce opens expects known ordered early
  · intro full once
    have inTurn : 0 + (stream arrivals).length < seqSpace := by
      unfold seqSpace
      omega
    exact replaysBeforeWrap_of_distinguished opens inSpace expects known ordered inTurn
      (by intro bytes member; cases member) full once.2

end Delivery

def dataPacket (seq : Nat) (payload : List UInt8) : List UInt8 :=
  plainPacket (clientFlow 40000) seq 24 payload

def dataSegment (seq : Nat) (payload : List UInt8) : Segment :=
  { synSegment 40000 seq with syn := false, payloadLen := payload.length }

/-- Three one-byte segments across the wrap, each replayed before the next turn. -/
def replaysInTurn : List Arrival :=
  [.synAgain 1, .first (dataPacket 4294967294 [97]) 2, .again 0 3,
    .first (dataPacket 4294967295 [98]) 4, .first (dataPacket 0 [99]) 5, .again 2 6]

theorem replaysInTurn_exactlyOnce :
    ExactlyOnce (synPacket 40000 4294967293)
      (FlowEngine.new.onPacket (synPacket 40000 4294967293) 0).1 replaysInTurn := by
  have opens : SynOf (clientFlow 40000) 4294967293 (synPacket 40000 4294967293)
      (synSegment 40000 4294967293) :=
    ⟨by decide +kernel, rfl, rfl, rfl, rfl, rfl⟩
  have ordered : InOrder (clientFlow 40000) 4294967293 0 0 replaysInTurn :=
    ⟨⟨dataSegment 4294967294 [97], by decide +kernel, rfl, rfl, rfl, rfl⟩, by decide,
      ⟨dataSegment 4294967295 [98], by decide +kernel, rfl, rfl, rfl, by decide +kernel⟩,
      ⟨dataSegment 0 [99], by decide +kernel, rfl, rfl, rfl, by decide +kernel⟩, by decide, trivial⟩
  have early : ReplaysBeforeWrap 4294967293 0 [] replaysInTurn :=
    ⟨by decide, by decide, by decide +kernel, trivial⟩
  exact (exactlyOnce_without_wrapped_replays opens (by decide) FlowEngine.new rfl 0 ordered
    (by decide +kernel)).1 early

def replayAcrossWrap : List Arrival := [.first (dataPacket 4294967295 [97]) 1, .again 0 2]

theorem replayAcrossWrap_delivered_twice :
    InOrder (clientFlow 40000) 4294967294 0 0 replayAcrossWrap ∧
      stream replayAcrossWrap = [97] ∧
        delivered (classify (synPacket 40000 4294967294)
          (FlowEngine.new.onPacket (synPacket 40000 4294967294) 0).1 [] replayAcrossWrap) =
            [97, 97] ∧
          ¬ExactlyOnce (synPacket 40000 4294967294)
            (FlowEngine.new.onPacket (synPacket 40000 4294967294) 0).1 replayAcrossWrap := by
  have ordered : InOrder (clientFlow 40000) 4294967294 0 0 replayAcrossWrap :=
    ⟨⟨dataSegment 4294967295 [97], by decide +kernel, rfl, rfl, rfl, rfl⟩, by decide, trivial⟩
  have sent : stream replayAcrossWrap = [97] := by decide +kernel
  have twice : delivered (classify (synPacket 40000 4294967294)
      (FlowEngine.new.onPacket (synPacket 40000 4294967294) 0).1 [] replayAcrossWrap) =
        [97, 97] := by decide +kernel
  refine ⟨ordered, sent, twice, ?_⟩
  intro once
  exact absurd (twice.symm.trans (once.1.trans sent)) (by decide)

end NetPolicy.Flow
