/-
Which payload the HTTP connection of a flow gets to see.

A callback gives payload to a flow's connection when the packet gets past the mark, the
flags and the flow table, and the flow has an entry or HTTP rules apply to the packet.
A flow with an entry in the microsegmentation map is under an HTTP policy.  Its payload
is mediated when the callback either does not let it through as it is or gives it to
the flow's connection first.  A bypass mark, a SYN, an RST, a FIN on a known flow and a
sequence number behind the tracked one each lead around the connection.
-/

import NetPolicy.Daemon.Run
import NetPolicy.Daemon.Freshness

namespace NetPolicy.Daemon

open NetPolicy.Policy NetPolicy.Flow NetPolicy.Http

/-! ### Payload and verdicts -/

/-- Some verdict accepts the packet with its payload as it was. -/
def Handling.LetsThrough (handling : Handling) (msg : NfqMessage) (segment : Segment) : Prop :=
  ∃ call ∈ handling.verdicts, call.verdict = .accept ∧
    segment.payload (call.payload.getD msg.payload) = segment.payload msg.payload

instance (handling : Handling) (msg : NfqMessage) (segment : Segment) :
    Decidable (handling.LetsThrough msg segment) :=
  inferInstanceAs (Decidable (∃ call ∈ handling.verdicts, _))

/-- Payload that is let through was given to the flow's connection. -/
def Handling.Mediates (handling : Handling) (msg : NfqMessage) (segment : Segment) : Prop :=
  handling.LetsThrough msg segment →
    (segment.id, segment.payload msg.payload) ∈ handling.inspected

def MicrosegEntry.Retransmits (entry : MicrosegEntry) (msg : NfqMessage) (segment : Segment) :
    Prop :=
  ∃ earlier ∈ entry.given, ∃ first ∈ parseSegment earlier,
    first.seq = segment.seq ∧ first.payload earlier = segment.payload msg.payload

instance (entry : MicrosegEntry) (msg : NfqMessage) (segment : Segment) :
    Decidable (entry.Retransmits msg segment) :=
  inferInstanceAs (Decidable (∃ earlier ∈ entry.given, ∃ first ∈ parseSegment earlier, _))

/-- The packets of a tracked flow whose payload reaches the connection. -/
def ReachesConnection (manager : ConnectionManager) (side : Side) (msg : NfqMessage)
    (segment : Segment) : Prop :=
  side.bypasses msg.nfmark = false ∧ segment.syn = false ∧ segment.rst = false ∧
    ∀ state ∈ manager.engine.tcbs.lookup segment.id,
      segment.fin = false ∧ state.seq ≤ segment.seq

instance (manager : ConnectionManager) (side : Side) (msg : NfqMessage) (segment : Segment) :
    Decidable (ReachesConnection manager side msg segment) :=
  inferInstanceAs (Decidable (_ ∧ _ ∧ _ ∧ ∀ state ∈ manager.engine.tcbs.lookup segment.id, _))

theorem not_mediates_of_accept {handling : Handling} {msg : NfqMessage} {segment : Segment}
    {call : VerdictCall} (issued : call ∈ handling.verdicts) (accepts : call.verdict = .accept)
    (unchanged : call.payload = none) (unseen : handling.inspected = []) :
    ¬handling.Mediates msg segment := by
  intro mediates
  have letsThrough : handling.LetsThrough msg segment := by
    refine ⟨call, issued, accepts, ?_⟩
    rw [unchanged]
    rfl
  have inspected := mediates letsThrough
  rw [unseen] at inspected
  cases inspected

theorem not_mediates_verdict {handling : Handling} (unseen : handling.inspected = [])
    (id : Nat) (msg : NfqMessage) (segment : Segment) :
    ¬(handling.verdict id .accept).Mediates msg segment :=
  not_mediates_of_accept (List.mem_append_right _ (List.mem_singleton_self _)) rfl rfl unseen

theorem not_mediates_verdictWithMark {handling : Handling} (unseen : handling.inspected = [])
    (id : Nat) (rule : NetPolicyRule) (msg : NfqMessage) (segment : Segment) :
    ¬(handling.verdictWithMark id .accept rule none).Mediates msg segment :=
  not_mediates_of_accept (List.mem_append_right _ (List.mem_singleton_self _)) rfl rfl unseen

/-! ### The tail of a callback -/

section Tail

variable (env : Environment) (side : Side) (store : MicroSegEngine) (msg : NfqMessage)
  (decision : PacketDecision) (now : Nat) (handling : Handling)

theorem settle_verdicts : (settle env msg decision now handling).verdicts = handling.verdicts := by
  unfold settle Handling.microsegClose
  split <;> rfl

theorem settle_inspected :
    (settle env msg decision now handling).inspected = handling.inspected := by
  unfold settle Handling.microsegClose
  split
  · rename_i closed
    simp only [Handling.dispatch, ConnectionManager.dispatchMicroseg, closed, Option.toList_none,
      List.append_nil]
    rfl
  · rfl

theorem inspectCb_inspected (tuple : FiveTuple) (ruleKey : String) :
    (inspectCb env side store msg tuple ruleKey decision now handling).inspected =
      handling.inspected ++
        (handling.manager.dispatchMicroseg env.libraries decision msg.payload ruleKey
          now).inspected.toList := by
  unfold inspectCb
  dsimp only [Handling.dispatch]
  split
  · rfl
  · split
    · rfl
    · split <;> rfl

theorem dispatchMicroseg_inspected (libraries : Libraries) (manager : ConnectionManager)
    (ruleKey : String)
    (carries : decision.kind = .unknownData ∨
      decision.kind = .data ∧ manager.micro.contains decision.connId = true) :
    (manager.dispatchMicroseg libraries decision msg.payload ruleKey now).inspected =
      some (decision.connId, msg.payload.drop decision.payloadOffset) := by
  rcases carries with unknown | ⟨data, tracked⟩
  · simp only [ConnectionManager.dispatchMicroseg, unknown]
    rfl
  · rcases Option.isSome_iff_exists.mp tracked with ⟨entry, found⟩
    simp only [ConnectionManager.dispatchMicroseg, data, found]
    rfl

end Tail

/-! ### Payload of a packet -/

section Payload

variable (msg : NfqMessage) {segment : Segment} {kind : PacketKind}

theorem hasPayload_decision (carries : kind = .data ∨ kind = .duplicate ∨ kind = .unknownData)
    (parsed : parseSegment msg.payload = some segment) (payload : 0 < segment.payloadLen) :
    hasPayload msg (segment.decision kind) = true := by
  have bounds := bounds_of_parseSegment parsed
  have inside : segment.payloadOffset < msg.payload.length := by omega
  unfold hasPayload
  rw [Bool.and_eq_true]
  refine ⟨?_, decide_eq_true inside⟩
  rcases carries with rfl | rfl | rfl <;> rfl

theorem hasPayload_empty (kind : PacketKind) (parsed : parseSegment msg.payload = some segment)
    (empty : segment.payloadLen = 0) : hasPayload msg (segment.decision kind) = false := by
  have bounds := bounds_of_parseSegment parsed
  have outside : ¬segment.payloadOffset < msg.payload.length := by omega
  unfold hasPayload
  rw [Bool.and_eq_false_iff]
  exact Or.inr (decide_eq_false outside)

theorem hasPayload_eq (carries : kind = .data ∨ kind = .duplicate ∨ kind = .unknownData)
    (parsed : parseSegment msg.payload = some segment) :
    hasPayload msg (segment.decision kind) = decide (0 < segment.payloadLen) := by
  by_cases payload : 0 < segment.payloadLen
  · rw [hasPayload_decision msg carries parsed payload, decide_eq_true payload]
  · rw [hasPayload_empty msg kind parsed (Nat.eq_zero_of_not_pos payload), decide_eq_false payload]

end Payload

theorem carrying_kind {kind : PacketKind} (carries : kind = .data ∨ kind = .unknownData) :
    kind ≠ .closed ∧ kind ≠ .ignore ∧ kind ≠ .duplicate := by
  rcases carries with rfl | rfl
  · exact ⟨nofun, nofun, nofun⟩
  · exact ⟨nofun, nofun, nofun⟩

theorem decision_of_carries (engine : FlowEngine) (segment : Segment) (now : Nat)
    (carries : (engine.onSegment segment now).2.kind = .data ∨
      (engine.onSegment segment now).2.kind = .unknownData) :
    (engine.onSegment segment now).2 =
      segment.decision (engine.onSegment segment now).2.kind := by
  have decides := onSegment_decides engine segment now
  generalize engine.onSegment segment now = next at decides carries
  cases decides with
  | closed state known ends => rcases carries with impossible | impossible <;> cases impossible
  | duplicate state known noFin noRst behind => rfl
  | data state known noFin noRst ahead => rfl
  | ignored unknown rst => rcases carries with impossible | impossible <;> cases impossible
  | opened unknown noRst syn => rcases carries with impossible | impossible <;> cases impossible
  | unknownData unknown noRst noSyn => rfl

/-! ### When a callback gives payload to a connection -/

/-- The flow has an entry, or the packet would make one. -/
def Covered (env : Environment) (store : MicroSegEngine) (manager : ConnectionManager)
    (side : Side) (msg : NfqMessage) (id : ConnectionId) : Prop :=
  manager.micro.contains id = true ∨ HttpApplies env side store msg.tuple

instance (env : Environment) (store : MicroSegEngine) (manager : ConnectionManager) (side : Side)
    (msg : NfqMessage) (id : ConnectionId) : Decidable (Covered env store manager side msg id) :=
  inferInstanceAs (Decidable (_ ∨ _))

section Reading

variable (env : Environment) (side : Side) (store : MicroSegEngine) (msg : NfqMessage)
  (now : Nat)

/-- Payload-less packets, SYNs and duplicates never get to the connection, nor do packets of
a flow without an entry that no HTTP rules apply to. -/
def Unread (tuple : FiveTuple) (decision : PacketDecision) (payload tracked : Bool) : Prop :=
  payload = false ∨ decision.syn = true ∨ decision.kind = .duplicate ∨
    tracked = false ∧ ¬HttpApplies env side store tuple

theorem trackedCb_passes (tuple : FiveTuple) {decision : PacketDecision} {payload : Bool}
    (unread : Unread env side store tuple decision payload true) (handling : Handling) :
    trackedCb env side store msg tuple decision payload now handling =
        handling.verdict msg.id .accept ∨
      ∃ rule, trackedCb env side store msg tuple decision payload now handling =
        handling.verdictWithMark msg.id .accept rule none := by
  unfold trackedCb
  split
  · exact Or.inr ⟨_, rfl⟩
  · split
    · exact Or.inr ⟨_, rfl⟩
    · rename_i carries
      split
      · exact Or.inr ⟨_, rfl⟩
      · rename_i noSyn
        split
        · exact Or.inl rfl
        · rename_i fresh
          rcases unread with empty | syn | duplicate | ⟨untracked, _⟩
          · rw [empty] at carries
            exact absurd rfl carries
          · exact absurd syn noSyn
          · exact absurd duplicate fresh
          · cases untracked

theorem trackedCb_unread (tuple : FiveTuple) {decision : PacketDecision} {payload : Bool}
    (unread : Unread env side store tuple decision payload true) (handling : Handling) :
    (trackedCb env side store msg tuple decision payload now handling).inspected =
      handling.inspected := by
  rcases trackedCb_passes env side store msg now tuple unread handling with passed | ⟨rule, passed⟩
  · rw [passed]
    rfl
  · rw [passed]
    rfl

theorem untrackedCb_unread (tuple : FiveTuple) {decision : PacketDecision} {payload : Bool}
    (unread : Unread env side store tuple decision payload false) (handling : Handling) :
    (untrackedCb env side store msg tuple decision payload now handling).inspected =
      handling.inspected := by
  unfold untrackedCb
  dsimp only
  split
  · rfl
  · rename_i looked
    split
    · rfl
    · rename_i matched
      split
      · split <;> rfl
      · rename_i stored
        split
        · rfl
        · rename_i noSyn
          rcases unread with empty | syn | duplicate | ⟨_, exempt⟩
          · rw [Bool.not_eq_true] at noSyn
            rw [noSyn, empty] at looked
            exact absurd rfl looked
          · exact absurd syn noSyn
          · rw [inspectCb_inspected, ConnectionManager.dispatchMicroseg, duplicate]
            exact List.append_nil _
          · exact absurd ⟨matched, stored⟩ exempt

theorem untrackedCb_reads {tuple : FiveTuple} {decision : PacketDecision}
    (applies : HttpApplies env side store tuple) (noSyn : decision.syn = false)
    (carries : decision.kind = .data ∨ decision.kind = .unknownData) {handling : Handling}
    (untracked : handling.manager.micro.contains decision.connId = false) :
    (untrackedCb env side store msg tuple decision true now handling).inspected =
      handling.inspected ++ [(decision.connId, msg.payload.drop decision.payloadOffset)] := by
  have entry := Table.contains_of_lookup (handling.manager.microsegTrack_own decision
    (matchMicroPolicyRule env.order store tuple side.dir).ruleKey now
    (Table.lookup_eq_none_of_not_contains untracked))
  unfold untrackedCb
  dsimp only
  rw [noSyn, if_neg (by decide), if_neg applies.1, if_neg applies.2,
    if_neg Bool.false_ne_true, inspectCb_inspected]
  dsimp only [Handling.withManager]
  rw [dispatchMicroseg_inspected msg _ now env.libraries _ _
    (carries.symm.imp_right fun data => ⟨data, entry⟩)]
  rfl

theorem tcpCb_unread (tuple : FiveTuple) {decision : PacketDecision} {handling : Handling}
    (unread : Unread env side store tuple decision (hasPayload msg decision)
      (handling.manager.microsegTracked decision)) :
    (tcpCb env side store msg tuple decision now handling).inspected = handling.inspected := by
  by_cases ignored : decision.kind = .ignore
  · rw [tcpCb_ignored env side store msg tuple decision now handling ignored]
    rfl
  · cases tracked : handling.manager.microsegTracked decision with
    | true =>
        rw [tracked] at unread
        rw [tcpCb_tracked env side store msg tuple decision now handling ignored tracked,
          trackedCb_unread env side store msg now tuple unread, settle_inspected]
    | false =>
        rw [tracked] at unread
        rw [tcpCb_untracked env side store msg tuple decision now handling ignored tracked,
          untrackedCb_unread env side store msg now tuple unread, settle_inspected]

theorem tcpCb_reads {tuple : FiveTuple} {decision : PacketDecision}
    (payload : hasPayload msg decision = true) (noSyn : decision.syn = false)
    (carries : decision.kind = .data ∨ decision.kind = .unknownData) {handling : Handling}
    (covered : handling.manager.micro.contains decision.connId = true ∨
      HttpApplies env side store tuple) :
    (tcpCb env side store msg tuple decision now handling).inspected =
      handling.inspected ++ [(decision.connId, msg.payload.drop decision.payloadOffset)] := by
  obtain ⟨opened, heeded, fresh⟩ := carrying_kind carries
  have settled : (settle env msg decision now handling).manager.micro.contains decision.connId =
      handling.manager.micro.contains decision.connId := by
    rw [settle_of_open env msg decision now handling opened,
      ConnectionManager.microsegTouch_contains]
  cases tracked : handling.manager.micro.contains decision.connId with
  | true =>
      rw [tracked] at settled
      rw [tcpCb_tracked env side store msg tuple decision now handling heeded tracked, payload,
        trackedCb_inspects env side store msg tuple now _ opened fresh noSyn, inspectCb_inspected,
        dispatchMicroseg_inspected msg _ now env.libraries _ _
          (carries.symm.imp_right fun data => ⟨data, settled⟩), settle_inspected]
      rfl
  | false =>
      rw [tracked] at settled
      have applies := covered.resolve_left (by rw [tracked]; exact Bool.false_ne_true)
      rw [tcpCb_untracked env side store msg tuple decision now handling heeded tracked, payload,
        untrackedCb_reads env side store msg now applies noSyn carries settled, settle_inspected]

theorem tcpCb_inspected {kind : PacketKind} (carries : kind = .data ∨ kind = .unknownData)
    {segment : Segment} (parsed : parseSegment msg.payload = some segment)
    (handling : Handling) (unread : handling.inspected = []) :
    (tcpCb env side store msg msg.tuple (segment.decision kind) now handling).inspected =
      if segment.syn = false ∧ 0 < segment.payloadLen ∧
          Covered env store handling.manager side msg segment.id then
        [(segment.id, segment.payload msg.payload)]
      else [] := by
  by_cases payload : 0 < segment.payloadLen
  · have present := hasPayload_decision msg (carries.imp_right Or.inr) parsed payload
    cases syn : segment.syn with
    | true =>
        rw [tcpCb_unread env side store msg now msg.tuple (Or.inr (Or.inl syn)),
          if_neg (fun reads => by cases reads.1)]
        exact unread
    | false =>
        by_cases covered : Covered env store handling.manager side msg segment.id
        · rw [tcpCb_reads env side store msg now present syn carries covered, unread,
            if_pos ⟨rfl, payload, covered⟩]
          rfl
        · rw [if_neg fun reads => covered reads.2.2]
          rw [Covered, not_or, Bool.not_eq_true] at covered
          have unbound : Unread env side store msg.tuple (segment.decision kind)
              (hasPayload msg (segment.decision kind))
              (handling.manager.microsegTracked (segment.decision kind)) :=
            Or.inr (Or.inr (Or.inr covered))
          rw [tcpCb_unread env side store msg now msg.tuple unbound]
          exact unread
  · have absent := hasPayload_empty msg kind parsed (Nat.eq_zero_of_not_pos payload)
    rw [tcpCb_unread env side store msg now msg.tuple (Or.inl absent),
      if_neg (fun reads => payload reads.2.1)]
    exact unread

theorem unread_of_idle {decision : PacketDecision}
    (idle : ¬(decision.kind = .data ∨ decision.kind = .unknownData)) (tuple : FiveTuple)
    (tracked : Bool) :
    Unread env side store tuple decision (hasPayload msg decision) tracked := by
  by_cases duplicate : decision.kind = .duplicate
  · exact Or.inr (Or.inr (Or.inl duplicate))
  · refine Or.inl ?_
    rw [not_or] at idle
    simp [hasPayload, idle, duplicate]

/-- A packet that is not marked gets past the flow table when it brings new payload and no
SYN. -/
theorem reaches_iff_carries (manager : ConnectionManager) (segment : Segment)
    (unmarked : side.bypasses msg.nfmark = false) :
    ReachesConnection manager side msg segment ↔
      ((manager.engine.onSegment segment now).2.kind = .data ∨
        (manager.engine.onSegment segment now).2.kind = .unknownData) ∧ segment.syn = false := by
  have decides := onSegment_decides manager.engine segment now
  generalize manager.engine.onSegment segment now = next at decides
  have idle {kind : PacketKind} (other : kind ≠ .data ∧ kind ≠ .unknownData) :
      ¬((kind = .data ∨ kind = .unknownData) ∧ segment.syn = false) := by
    rintro ⟨data | unknown, -⟩
    · exact other.1 data
    · exact other.2 unknown
  cases decides with
  | closed state known ends =>
      refine iff_of_false (fun reaches => ?_) (idle ⟨nofun, nofun⟩)
      rw [reaches.2.2.1, (reaches.2.2.2 state known).1] at ends
      rcases ends with fin | rst
      · cases fin
      · cases rst
  | duplicate state known noFin noRst behind =>
      refine iff_of_false (fun reaches => ?_) (idle ⟨nofun, nofun⟩)
      have ahead := (reaches.2.2.2 state known).2
      omega
  | data state known noFin noRst ahead =>
      refine ⟨fun reaches => ⟨Or.inl rfl, reaches.2.1⟩, fun carries => ?_⟩
      refine ⟨unmarked, carries.2, noRst, fun found same => ?_⟩
      rw [known, Option.mem_some_iff] at same
      rw [← same]
      exact ⟨noFin, ahead⟩
  | ignored unknown rst =>
      refine iff_of_false (fun reaches => ?_) (idle ⟨nofun, nofun⟩)
      rw [reaches.2.2.1] at rst
      cases rst
  | opened unknown noRst syn =>
      refine iff_of_false (fun reaches => ?_) (idle ⟨nofun, nofun⟩)
      rw [reaches.2.1] at syn
      cases syn
  | unknownData unknown noRst noSyn =>
      refine ⟨fun _ => ⟨Or.inr rfl, noSyn⟩, fun _ => ?_⟩
      refine ⟨unmarked, noSyn, noRst, fun found same => ?_⟩
      rw [unknown] at same
      cases same

/-- A callback gives payload to the flow's connection exactly when the packet gets past the
mark, the flags and the flow table, and the flow is covered. -/
theorem nfqCb_inspected (manager : ConnectionManager) {segment : Segment}
    (parsed : parseSegment msg.payload = some segment) :
    (nfqCb env side store msg manager now).inspected =
      if ReachesConnection manager side msg segment ∧ 0 < segment.payloadLen ∧
          Covered env store manager side msg segment.id then
        [(segment.id, segment.payload msg.payload)]
      else [] := by
  cases marked : side.bypasses msg.nfmark with
  | true =>
      rw [nfqCb_bypassed env side store msg manager now marked, if_neg]
      · rfl
      · intro reads
        rw [reads.1.1] at marked
        cases marked
  | false =>
      have reaches := reaches_iff_carries side msg now manager segment marked
      have whole := decision_of_carries manager.engine segment now
      rw [nfqCb_segment env side store msg manager now marked parsed]
      generalize manager.engine.onSegment segment now = next at reaches whole
      by_cases carries : next.2.kind = .data ∨ next.2.kind = .unknownData
      · rw [whole carries, tcpCb_inspected env side store msg now carries parsed _ rfl]
        refine if_congr (and_congr_left' ?_) rfl rfl
        rw [reaches]
        exact ⟨fun noSyn => ⟨carries, noSyn⟩, fun both => both.2⟩
      · rw [tcpCb_unread env side store msg now msg.tuple
          (unread_of_idle env side store msg carries msg.tuple _), if_neg]
        · rfl
        · intro reads
          exact carries (reaches.mp reads.1).1

theorem not_mediates_unread {decision : PacketDecision} {handling : Handling}
    {segment : Segment} (silent : handling.inspected = [])
    (tracked : decision.kind ≠ .ignore → handling.manager.microsegTracked decision = true)
    (unread : Unread env side store msg.tuple decision (hasPayload msg decision) true) :
    ¬(tcpCb env side store msg msg.tuple decision now handling).Mediates msg segment := by
  by_cases ignored : decision.kind = .ignore
  · rw [tcpCb_ignored env side store msg msg.tuple decision now handling ignored]
    exact not_mediates_verdictWithMark silent _ _ _ _
  · have settled := (settle_inspected env msg decision now handling).trans silent
    rw [tcpCb_tracked env side store msg msg.tuple decision now handling ignored
      (tracked ignored)]
    rcases trackedCb_passes env side store msg now msg.tuple unread
      (settle env msg decision now handling) with passed | ⟨rule, passed⟩
    · rw [passed]
      exact not_mediates_verdict settled _ _ _
    · rw [passed]
      exact not_mediates_verdictWithMark settled _ _ _ _

end Reading

/-! ### Mediation of a tracked flow -/

theorem mediates_iff (env : Environment) (side : Side) (store : MicroSegEngine)
    (msg : NfqMessage) (manager : ConnectionManager) (now : Nat) {segment : Segment}
    (parsed : parseSegment msg.payload = some segment) (payload : 0 < segment.payloadLen)
    (tracked : manager.micro.contains segment.id = true) :
    (nfqCb env side store msg manager now).Mediates msg segment ↔
      ReachesConnection manager side msg segment := by
  by_cases reaches : ReachesConnection manager side msg segment
  · have inspected := nfqCb_inspected env side store msg now manager parsed
    rw [if_pos ⟨reaches, payload, Or.inl tracked⟩] at inspected
    refine iff_of_true (fun _ => ?_) reaches
    rw [inspected]
    exact List.mem_singleton_self _
  · refine iff_of_false ?_ reaches
    cases marked : side.bypasses msg.nfmark with
    | true =>
        rw [nfqCb_bypassed env side store msg manager now marked]
        exact not_mediates_verdict rfl _ _ _
    | false =>
        have carrying := reaches_iff_carries side msg now manager segment marked
        have whole := decision_of_carries manager.engine segment now
        have ids := onSegment_ids manager.engine segment now
        rw [nfqCb_segment env side store msg manager now marked parsed]
        generalize manager.engine.onSegment segment now = next at carrying whole ids
        have unread : Unread env side store msg.tuple next.2 (hasPayload msg next.2) true := by
          by_cases carries : next.2.kind = .data ∨ next.2.kind = .unknownData
          · have flag : next.2.syn = segment.syn := congrArg PacketDecision.syn (whole carries)
            cases syn : segment.syn with
            | true => exact Or.inr (Or.inl (flag.trans syn))
            | false => exact absurd (carrying.mpr ⟨carries, syn⟩) reaches
          · exact unread_of_idle env side store msg carries msg.tuple true
        refine not_mediates_unread env side store msg now rfl (fun heeded => ?_) unread
        have own := (ids heeded).1
        unfold ConnectionManager.microsegTracked
        rw [own]
        exact tracked

/-- In every state of the daemon and for every payload-bearing packet of a tracked flow:
payload that is not a retransmission is mediated exactly when the packet carries no
bypass mark, no SYN and no RST, and on a flow the engine knows also no FIN and a
sequence number not behind the tracked one. -/
theorem payload_mediated_iff (env : Environment) (daemon : DaemonContext) (queue : Queue)
    (msg : NfqMessage) (now : Nat) (segment : Segment) (entry : MicrosegEntry)
    (parsed : parseSegment msg.payload = some segment) (payload : 0 < segment.payloadLen)
    (tracked : daemon.connMgr.micro.lookup segment.id = some entry) :
    (¬entry.Retransmits msg segment → (daemon.handle env queue msg now).Mediates msg segment) ↔
      entry.Retransmits msg segment ∨
        ReachesConnection daemon.connMgr queue.side msg segment := by
  have mediates := mediates_iff env queue.side daemon.microseg msg daemon.connMgr now parsed
    payload (Table.contains_of_lookup tracked)
  rw [DaemonContext.handle, Queue.callback_eq, mediates]
  by_cases retransmits : entry.Retransmits msg segment
  · exact ⟨fun _ => Or.inl retransmits, fun _ fresh => absurd retransmits fresh⟩
  · constructor
    · intro reaches
      exact Or.inr (reaches retransmits)
    · intro either _
      exact either.resolve_left retransmits

def webOpened : DaemonContext :=
  Runs.run (DaemonContext.step plainEnvironment) DaemonContext.new
    [.control webPolicy, .packet .input (plainMessage webFlow 100 synFlag []) 0]

def webSegment (seq : Nat) (syn fin rst : Bool) (payloadLen : Nat) : Segment :=
  { id := webFlow
    seq := seq
    syn := syn
    fin := fin
    rst := rst
    ipHeaderLen := 20
    payloadOffset := 40
    payloadLen := payloadLen }

theorem webData_mediated :
    webOpened.connMgr.micro.lookup webFlow = some (MicrosegEntry.fresh "web" 0) ∧
      (webOpened.handle plainEnvironment .input (plainMessage webFlow 101 ackFlag [80]) 1).Mediates
        (plainMessage webFlow 101 ackFlag [80]) (webSegment 101 false false false 1) := by
  have tracked : webOpened.connMgr.micro.lookup webFlow = some (MicrosegEntry.fresh "web" 0) := by
    decide +kernel
  refine ⟨tracked, ?_⟩
  exact (payload_mediated_iff plainEnvironment webOpened .input
    (plainMessage webFlow 101 ackFlag [80]) 1 (webSegment 101 false false false 1)
    (MicrosegEntry.fresh "web" 0) (by decide +kernel) (by decide) tracked).mpr
    (Or.inr (by decide +kernel)) (by decide +kernel)

/-- The packet's payload is let through and given to no connection. -/
def PassesUnseen (msg : NfqMessage) (segment : Segment) : Prop :=
  parseSegment msg.payload = some segment ∧
    (webOpened.handle plainEnvironment .input msg 1).LetsThrough msg segment ∧
    (webOpened.handle plainEnvironment .input msg 1).inspected = []

instance (msg : NfqMessage) (segment : Segment) : Decidable (PassesUnseen msg segment) :=
  inferInstanceAs (Decidable (_ ∧ _ ∧ _))

/-- The first payload of a tracked flow, coalesced with the FIN, with a SYN, or sent with
a sequence number one too small, is let through and never inspected. -/
theorem webData_unmediated :
    webOpened.connMgr.micro.lookup webFlow = some (MicrosegEntry.fresh "web" 0) ∧
      PassesUnseen (plainMessage webFlow 101 (ackFlag + finFlag) postLine)
        (webSegment 101 false true false 18) ∧
      PassesUnseen (plainMessage webFlow 101 (ackFlag + synFlag) postLine)
        (webSegment 101 true false false 18) ∧
      PassesUnseen (plainMessage webFlow 100 ackFlag postLine)
        (webSegment 100 false false false 18) := by
  decide +kernel

end NetPolicy.Daemon
