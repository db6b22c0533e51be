/-
Retransmissions on flows whose SYN was not seen.

The flow table recognises retransmissions, and it never holds a flow that was bound
late.  Every copy of such a flow's segment is unknown data, and as long as the flow has
an entry, or HTTP rules apply to it, the flow's connection is given each of them.
-/

import Mathlib.Data.List.GetD
import NetPolicy.Flow.LifeCycle
import NetPolicy.Daemon.Mediation

namespace NetPolicy.Daemon

open NetPolicy.Policy NetPolicy.Flow NetPolicy.Http

/-! ### Sightings of one flow's segments -/

structure Passage where
  queue : Queue
  id : Nat
  nfmark : Nat
  now : Nat
deriving DecidableEq, Repr

def Passage.message (passage : Passage) (bytes : List UInt8) : NfqMessage :=
  { id := passage.id, nfmark := passage.nfmark, payload := bytes }

/-- A segment of the flow for the first time, a replay of one by its place in the order of
first arrivals, or anything else that happens to the daemon. -/
inductive Sighting where
  | first (bytes : List UInt8) (passage : Passage)
  | again (index : Nat) (passage : Passage)
  | other (event : DaemonEvent)
deriving DecidableEq, Repr

namespace Sighting

def copy (seen : List (List UInt8)) : Sighting → Option (Nat × List UInt8 × Passage)
  | .first bytes passage => some (seen.length, bytes, passage)
  | .again index passage => some (index, seen.getD index [], passage)
  | .other _ => none

def event (seen : List (List UInt8)) : Sighting → DaemonEvent
  | .first bytes passage => .packet passage.queue (passage.message bytes) passage.now
  | .again index passage =>
      .packet passage.queue (passage.message (seen.getD index [])) passage.now
  | .other event => event

def remember (seen : List (List UInt8)) : Sighting → List (List UInt8)
  | .first bytes _ => seen ++ [bytes]
  | _ => seen

end Sighting

section Deliveries

variable (env : Environment)

def given (daemon : DaemonContext) (seen : List (List UInt8)) (sighting : Sighting) : List Nat :=
  match sighting.copy seen with
  | none => []
  | some (index, bytes, passage) =>
      (daemon.handle env passage.queue (passage.message bytes) passage.now).inspected.map
        fun _ => index

def deliveries : DaemonContext → List (List UInt8) → List Sighting → List Nat
  | _, _, [] => []
  | daemon, seen, sighting :: rest =>
      given env daemon seen sighting ++
        deliveries (daemon.step env (sighting.event seen)) (sighting.remember seen) rest

/-- A data segment of the flow. -/
def SegmentOf (flow : ConnectionId) (bytes : List UInt8) : Prop :=
  ∃ segment, parseSegment bytes = some segment ∧ segment.id = flow ∧ segment.syn = false

def OfFlow (flow : ConnectionId) : Nat → List Sighting → Prop
  | _, [] => True
  | count, .first bytes _ :: rest => SegmentOf flow bytes ∧ OfFlow flow (count + 1) rest
  | count, .again index _ :: rest => index < count ∧ OfFlow flow count rest
  | count, .other _ :: rest => OfFlow flow count rest

/-- The copy would be given to the flow's connection. -/
def Reads (daemon : DaemonContext) (bytes : List UInt8) (passage : Passage) : Prop :=
  ∃ segment ∈ parseSegment bytes,
    ReachesConnection daemon.connMgr passage.queue.side (passage.message bytes) segment ∧
      0 < segment.payloadLen ∧
      Covered env daemon.microseg daemon.connMgr passage.queue.side (passage.message bytes)
        segment.id

instance (daemon : DaemonContext) (bytes : List UInt8) (passage : Passage) :
    Decidable (Reads env daemon bytes passage) :=
  inferInstanceAs (Decidable (∃ segment ∈ parseSegment bytes, _))

/-- A condition on every replay of a segment whose payload was given before, in the state
the replay meets. -/
def EveryReplay (condition : DaemonContext → List UInt8 → Passage → Prop) :
    DaemonContext → List (List UInt8) → List Nat → List Sighting → Prop
  | _, _, _, [] => True
  | daemon, seen, before, sighting :: rest =>
      (∀ index passage, sighting = .again index passage → index ∈ before →
        condition daemon (seen.getD index []) passage) ∧
      EveryReplay condition (daemon.step env (sighting.event seen)) (sighting.remember seen)
        (before ++ given env daemon seen sighting) rest

theorem given_copy (daemon : DaemonContext) {seen : List (List UInt8)} {sighting : Sighting}
    {index : Nat} {bytes : List UInt8} {passage : Passage}
    (copy : sighting.copy seen = some (index, bytes, passage)) {flow : ConnectionId}
    (segmentOf : SegmentOf flow bytes) :
    given env daemon seen sighting = if Reads env daemon bytes passage then [index] else [] := by
  obtain ⟨segment, parsed, _⟩ := segmentOf
  have reads : Reads env daemon bytes passage ↔
      ReachesConnection daemon.connMgr passage.queue.side (passage.message bytes) segment ∧
        0 < segment.payloadLen ∧
        Covered env daemon.microseg daemon.connMgr passage.queue.side (passage.message bytes)
          segment.id := by
    constructor
    · rintro ⟨other, member, reads⟩
      rw [parsed, Option.mem_some_iff] at member
      rw [member]
      exact reads
    · intro reads
      exact ⟨segment, parsed, reads⟩
  have inspected := nfqCb_inspected env passage.queue.side daemon.microseg
    (passage.message bytes) passage.now daemon.connMgr parsed
  rw [given, copy]
  dsimp only
  rw [DaemonContext.handle, Queue.callback_eq, inspected]
  by_cases read : Reads env daemon bytes passage
  · rw [if_pos read, if_pos (reads.mp read)]
    rfl
  · rw [if_neg read, if_neg fun other => read (reads.mpr other)]
    rfl

theorem segmentOf_getD {flow : ConnectionId} {seen : List (List UInt8)}
    (segments : ∀ bytes ∈ seen, SegmentOf flow bytes) {index : Nat}
    (within : index < seen.length) : SegmentOf flow (seen.getD index []) := by
  rw [List.getD_eq_getElem _ _ within]
  exact segments _ (List.getElem_mem within)

theorem segmentOf_push {flow : ConnectionId} {seen : List (List UInt8)}
    (segments : ∀ bytes ∈ seen, SegmentOf flow bytes) {bytes : List UInt8}
    (next : SegmentOf flow bytes) : ∀ packet ∈ seen ++ [bytes], SegmentOf flow packet := by
  intro packet member
  rcases List.mem_append.mp member with old | new
  · exact segments packet old
  · rw [List.mem_singleton.mp new]
    exact next

theorem record_place {before : List Nat} {index bound : Nat} {reads : Prop} [Decidable reads]
    (distinct : before.Nodup) (bounded : ∀ place ∈ before, place < bound)
    (within : index < bound) (fresh : reads → index ∉ before) :
    (before ++ if reads then [index] else []).Nodup ∧
      ∀ place ∈ before ++ if reads then [index] else [], place < bound := by
  by_cases read : reads
  · rw [if_pos read]
    refine ⟨List.Nodup.append distinct (List.nodup_singleton index) ?_, ?_⟩
    · rw [List.disjoint_singleton]
      exact fresh read
    · intro place member
      rcases List.mem_append.mp member with old | new
      · exact bounded place old
      · rw [List.mem_singleton.mp new]
        exact within
  · rw [if_neg read, List.append_nil]
    exact ⟨distinct, bounded⟩

theorem deliveries_nodup_iff {flow : ConnectionId} {sightings : List Sighting}
    {daemon : DaemonContext} {seen : List (List UInt8)} {before : List Nat}
    (segments : ∀ bytes ∈ seen, SegmentOf flow bytes)
    (ofFlow : OfFlow flow seen.length sightings) (distinct : before.Nodup)
    (bounded : ∀ index ∈ before, index < seen.length) :
    (before ++ deliveries env daemon seen sightings).Nodup ↔
      EveryReplay env (fun daemon bytes passage => ¬Reads env daemon bytes passage) daemon seen
        before sightings := by
  induction sightings generalizing daemon seen before with
  | nil =>
      rw [deliveries, List.append_nil]
      exact ⟨fun _ => trivial, fun _ => distinct⟩
  | cons sighting rest ih =>
      rw [deliveries, ← List.append_assoc, EveryReplay]
      cases sighting with
      | first bytes passage =>
          obtain ⟨next, ofFlow⟩ := ofFlow
          have remembered : seen.length + 1 = (seen ++ [bytes]).length := by
            rw [List.length_append, List.length_singleton]
          rw [remembered] at ofFlow
          have recorded : (before ++ given env daemon seen (.first bytes passage)).Nodup ∧
              ∀ place ∈ before ++ given env daemon seen (.first bytes passage),
                place < (seen ++ [bytes]).length := by
            rw [given_copy env daemon rfl next, ← remembered]
            refine record_place distinct (fun place member => ?_) (Nat.lt_succ_self _)
              (fun _ member => Nat.lt_irrefl _ (bounded seen.length member))
            exact Nat.lt_succ_of_lt (bounded place member)
          refine (ih (segmentOf_push segments next) ofFlow recorded.1 recorded.2).trans ?_
          refine ⟨fun later => ⟨?_, later⟩, fun both => both.2⟩
          intro index other same
          cases same
      | again index passage =>
          obtain ⟨within, ofFlow⟩ := ofFlow
          rw [given_copy env daemon rfl (segmentOf_getD segments within)]
          by_cases clash : index ∈ before ∧ Reads env daemon (seen.getD index []) passage
          · rw [if_pos clash.2]
            constructor
            · intro nodup
              have apart := (List.nodup_append.mp (List.Nodup.of_append_left nodup)).2.2
              exact absurd rfl (apart index clash.1 index (List.mem_singleton_self index))
            · intro both
              exact absurd clash.2 (both.1 index passage rfl clash.1)
          · have recorded := record_place distinct bounded within
              (fun read member => clash ⟨member, read⟩)
            refine (ih segments ofFlow recorded.1 recorded.2).trans ?_
            refine ⟨fun later => ⟨?_, later⟩, fun both => both.2⟩
            intro place other same member read
            cases same
            exact clash ⟨member, read⟩
      | other event =>
          have nothing : given env daemon seen (.other event) = [] := rfl
          rw [nothing, List.append_nil]
          refine (ih segments ofFlow distinct bounded).trans ?_
          refine ⟨fun later => ⟨?_, later⟩, fun both => both.2⟩
          intro index other same
          cases same

end Deliveries

/-! ### Flows without a SYN -/

def DaemonEvent.opens (flow : ConnectionId) : DaemonEvent → Bool
  | .packet queue msg _ =>
      !queue.side.bypasses msg.nfmark &&
        (parseSegment msg.payload).any fun segment => ofConnection flow segment.id && segment.syn
  | _ => false

theorem absent_step (env : Environment) {daemon : DaemonContext} {flow : ConnectionId}
    (absent : daemon.connMgr.engine.tcbs.contains flow = false) {event : DaemonEvent}
    (quiet : event.opens flow = false) :
    (daemon.step env event).connMgr.engine.tcbs.contains flow = false := by
  cases event with
  | packet queue msg now =>
      dsimp only [DaemonContext.step]
      rw [DaemonContext.handle, Queue.callback_eq]
      cases bypassed : queue.side.bypasses msg.nfmark with
      | true =>
          rw [nfqCb_bypassed _ _ _ _ _ _ bypassed]
          exact absent
      | false =>
          cases parsed : parseSegment msg.payload with
          | none =>
              rw [nfqCb_manager_of_no_segment _ _ _ _ _ _ parsed]
              exact absent
          | some segment =>
              rw [DaemonEvent.opens, bypassed, parsed, Option.any_some, Bool.not_false,
                Bool.true_and] at quiet
              rw [nfqCb_segment env queue.side daemon.microseg msg daemon.connMgr now bypassed
                parsed, tcpCb_engine]
              exact onSegment_absent absent quiet now
  | reap now => exact evictStale_absent absent now staleConnectionTimeout
  | control op => exact absent

theorem opens_of_segmentOf {flow : ConnectionId} {bytes : List UInt8}
    (segmentOf : SegmentOf flow bytes) (passage : Passage) :
    (DaemonEvent.packet passage.queue (passage.message bytes) passage.now).opens flow = false := by
  obtain ⟨segment, parsed, _, noSyn⟩ := segmentOf
  have message : parseSegment (passage.message bytes).payload = some segment := parsed
  rw [DaemonEvent.opens, message, Option.any_some, noSyn, Bool.and_false, Bool.and_false]

def Readable (flow : ConnectionId) (bytes : List UInt8) : Prop :=
  ∃ segment, parseSegment bytes = some segment ∧ segment.id = flow ∧ segment.syn = false ∧
    segment.rst = false ∧ 0 < segment.payloadLen

/-- The replay comes marked, or to a flow that has no entry and no HTTP rules. -/
def PassesBy (env : Environment) (flow : ConnectionId) (daemon : DaemonContext)
    (bytes : List UInt8) (passage : Passage) : Prop :=
  passage.queue.side.bypasses passage.nfmark = true ∨
    ¬Covered env daemon.microseg daemon.connMgr passage.queue.side (passage.message bytes) flow

section Late

variable (env : Environment) {flow : ConnectionId}

theorem readable_of_reads {daemon : DaemonContext} {bytes : List UInt8} {passage : Passage}
    (segmentOf : SegmentOf flow bytes) (reads : Reads env daemon bytes passage) :
    Readable flow bytes := by
  obtain ⟨segment, parsed, own, noSyn⟩ := segmentOf
  obtain ⟨other, member, reaches, payload, _⟩ := reads
  rw [parsed, Option.mem_some_iff] at member
  subst member
  exact ⟨segment, parsed, own, noSyn, reaches.2.2.1, payload⟩

theorem readable_of_given {daemon : DaemonContext} {seen : List (List UInt8)}
    {sighting : Sighting} {index : Nat} {bytes : List UInt8} {passage : Passage}
    (copy : sighting.copy seen = some (index, bytes, passage)) (segmentOf : SegmentOf flow bytes)
    {place : Nat} (member : place ∈ given env daemon seen sighting) :
    place = index ∧ Readable flow bytes := by
  rw [given_copy env daemon copy segmentOf] at member
  split at member
  · rename_i reads
    exact ⟨List.mem_singleton.mp member, readable_of_reads env segmentOf reads⟩
  · cases member

/-- On a flow the table does not hold, only a mark or the lack of cover keeps a readable
segment from the connection. -/
theorem reads_iff_of_absent {daemon : DaemonContext} {bytes : List UInt8}
    (absent : daemon.connMgr.engine.tcbs.contains flow = false) (readable : Readable flow bytes)
    (passage : Passage) :
    ¬Reads env daemon bytes passage ↔ PassesBy env flow daemon bytes passage := by
  obtain ⟨segment, parsed, own, noSyn, noRst, payload⟩ := readable
  have unknown := Table.lookup_eq_none_of_not_contains absent
  subst own
  constructor
  · intro unread
    by_contra neither
    rw [PassesBy, not_or, Bool.not_eq_true, not_not] at neither
    refine unread ⟨segment, parsed, ⟨neither.1, noSyn, noRst, ?_⟩, payload, neither.2⟩
    intro state known
    rw [unknown] at known
    cases known
  · rintro either ⟨other, member, reaches, _, covered⟩
    rw [parsed, Option.mem_some_iff] at member
    subst member
    rcases either with marked | uncovered
    · have unmarked : passage.queue.side.bypasses passage.nfmark = false := reaches.1
      rw [unmarked] at marked
      cases marked
    · exact uncovered covered

theorem everyReplay_late_iff {sightings : List Sighting} {daemon : DaemonContext}
    {seen : List (List UInt8)} {before : List Nat}
    (absent : daemon.connMgr.engine.tcbs.contains flow = false)
    (noSyn : ∀ event, .other event ∈ sightings → event.opens flow = false)
    (segments : ∀ bytes ∈ seen, SegmentOf flow bytes)
    (ofFlow : OfFlow flow seen.length sightings)
    (readable : ∀ index ∈ before, index < seen.length ∧ Readable flow (seen.getD index [])) :
    EveryReplay env (fun daemon bytes passage => ¬Reads env daemon bytes passage) daemon seen
        before sightings ↔
      EveryReplay env (PassesBy env flow) daemon seen before sightings := by
  induction sightings generalizing daemon seen before with
  | nil => exact Iff.rfl
  | cons sighting rest ih =>
      have noSynRest : ∀ event, .other event ∈ rest → event.opens flow = false :=
        fun event member => noSyn event (List.mem_cons_of_mem sighting member)
      rw [EveryReplay, EveryReplay]
      refine and_congr ?_ ?_
      · refine forall_congr' fun index => forall_congr' fun passage =>
          forall_congr' fun _ => forall_congr' fun member => ?_
        exact reads_iff_of_absent env absent (readable index member).2 passage
      · cases sighting with
        | first bytes passage =>
            obtain ⟨next, ofFlow⟩ := ofFlow
            have remembered : seen.length + 1 = (seen ++ [bytes]).length := by
              rw [List.length_append, List.length_singleton]
            rw [remembered] at ofFlow
            refine ih (absent_step env absent (opens_of_segmentOf next passage)) noSynRest
              (segmentOf_push segments next) ofFlow ?_
            intro index member
            dsimp only [Sighting.remember]
            rcases List.mem_append.mp member with old | new
            · obtain ⟨within, kept⟩ := readable index old
              rw [List.getD_append _ _ _ _ within, ← remembered]
              exact ⟨Nat.lt_succ_of_lt within, kept⟩
            · obtain ⟨last, kept⟩ := readable_of_given env rfl next new
              rw [last, List.getD_append_right _ _ _ _ (Nat.le_refl _), Nat.sub_self,
                ← remembered]
              exact ⟨Nat.lt_succ_self _, kept⟩
        | again index passage =>
            obtain ⟨within, ofFlow⟩ := ofFlow
            have old := segmentOf_getD segments within
            refine ih (absent_step env absent (opens_of_segmentOf old passage)) noSynRest segments
              ofFlow ?_
            intro place member
            rcases List.mem_append.mp member with earlier | new
            · exact readable place earlier
            · obtain ⟨replayed, kept⟩ := readable_of_given env rfl old new
              rw [replayed]
              exact ⟨within, kept⟩
        | other event =>
            have nothing : given env daemon seen (.other event) = [] := rfl
            rw [nothing, List.append_nil]
            exact ih (absent_step env absent (noSyn event List.mem_cons_self)) noSynRest segments
              ofFlow readable

end Late

/-- For every state of the daemon and every run in which a flow's segments are seen and
replayed, among any other events: each segment's payload is given to the flow's connection
at most once exactly when no segment given before is replayed where it would be read.  On
a flow without a SYN the flow table recognises no replay, so such a replay must come
marked, or after the entry is gone and when no HTTP rules apply. -/
theorem lateSegments_given_once_iff (env : Environment) (daemon : DaemonContext)
    (flow : ConnectionId) (sightings : List Sighting) (ofFlow : OfFlow flow 0 sightings) :
    ((deliveries env daemon [] sightings).Nodup ↔
      EveryReplay env (fun daemon bytes passage => ¬Reads env daemon bytes passage) daemon [] []
        sightings) ∧
    (daemon.connMgr.engine.tcbs.contains flow = false →
      (∀ event, .other event ∈ sightings → event.opens flow = false) →
        ((deliveries env daemon [] sightings).Nodup ↔
          EveryReplay env (PassesBy env flow) daemon [] [] sightings)) := by
  have noSegments : ∀ bytes ∈ ([] : List (List UInt8)), SegmentOf flow bytes := by
    intro bytes member
    cases member
  have once : (deliveries env daemon [] sightings).Nodup ↔ _ :=
    deliveries_nodup_iff env noSegments ofFlow List.nodup_nil
      (by intro index member; cases member)
  refine ⟨once, ?_⟩
  intro absent noSyn
  refine once.trans ?_
  exact everyReplay_late_iff env absent noSyn noSegments ofFlow
    (by intro index member; cases member)

def webInstalled : DaemonContext := DaemonContext.new.step plainEnvironment (.control webPolicy)

def lateBytes (seq : Nat) (payload : List UInt8) : List UInt8 :=
  plainPacket webFlow seq ackFlag payload

def unmarked (now : Nat) : Passage := { queue := .input, id := 1, nfmark := 0, now := now }

theorem segmentOf_lateBytes : SegmentOf webFlow (lateBytes 500 [80]) :=
  ⟨webSegment 500 false false false 1, by decide +kernel, rfl, rfl⟩

/-- Once the policy is deleted and the entry has aged out, a replay is not read. -/
theorem reapedFlow_given_once :
    (deliveries plainEnvironment webInstalled []
      [.first (lateBytes 500 [80]) (unmarked 0), .other (.control (.deletePolicyRule "web")),
        .other (.reap 1000), .again 0 (unmarked 1001)]).Nodup := by
  have once := lateSegments_given_once_iff plainEnvironment webInstalled webFlow
    [.first (lateBytes 500 [80]) (unmarked 0), .other (.control (.deletePolicyRule "web")),
      .other (.reap 1000), .again 0 (unmarked 1001)]
    ⟨segmentOf_lateBytes, Nat.zero_lt_one, trivial⟩
  have noSyn : ∀ event : DaemonEvent,
      Sighting.other event ∈
        [Sighting.first (lateBytes 500 [80]) (unmarked 0),
          .other (.control (.deletePolicyRule "web")), .other (.reap 1000),
          .again 0 (unmarked 1001)] → event.opens webFlow = false := by
    intro event member
    cases event with
    | packet queue msg now => simp at member
    | reap now => rfl
    | control op => rfl
  refine (once.2 (by decide +kernel) noSyn).mpr ⟨?_, ?_, ?_, ?_, trivial⟩
  · intro index passage same
    cases same
  · intro index passage same
    cases same
  · intro index passage same
    cases same
  · intro index passage same member
    cases same
    exact Or.inr (by decide +kernel)

/-- The retransmission of a late-bound flow's first segment is given to the connection
again. -/
theorem lateSegment_given_twice :
    OfFlow webFlow 0
        [.first (lateBytes 500 [80]) (unmarked 0), .again 0 (unmarked 1)] ∧
      webInstalled.connMgr.engine.tcbs.contains webFlow = false ∧
        deliveries plainEnvironment webInstalled []
          [.first (lateBytes 500 [80]) (unmarked 0), .again 0 (unmarked 1)] = [0, 0] :=
  ⟨⟨segmentOf_lateBytes, Nat.zero_lt_one, trivial⟩, by decide +kernel, by decide +kernel⟩

end NetPolicy.Daemon
