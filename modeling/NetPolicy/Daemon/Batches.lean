/-
Receiving from a kernel queue in batches.

`drain_batch` stashes every message it takes from the queue before it knows how the call
will end.  A call that ends in an error returns nothing, and the next call throws away
what is stashed.  So every message that is received gets its verdict exactly if no call
fails after it has received one.
-/

import NetPolicy.Daemon.Verdicts

namespace NetPolicy.Daemon

/-! ### One call -/

inductive IoError where
  | wouldBlock
  | other (errno : Nat)
deriving DecidableEq, Repr

def maxBatch : Nat := 64

/-- What a call leaves behind; `position` counts the calls of `recv_one` so far. -/
structure Drained (M : Type) where
  result : Except IoError (List NfqMessage)
  pending : Table Nat M
  position : Nat

section Drain

variable {M : Type} (recvOne : Nat → Except IoError M) (describe : M → NfqMessage)

def drainLoop : Nat → Table Nat M → List NfqMessage → Nat → Drained M
  | 0, pending, out, position => { result := .ok out, pending := pending, position := position }
  | room + 1, pending, out, position =>
      match recvOne position with
      | .ok msg =>
          drainLoop room (pending.insert (describe msg).id msg) (out ++ [describe msg])
            (position + 1)
      | .error .wouldBlock =>
          { result := .ok out, pending := pending, position := position + 1 }
      | .error (.other errno) =>
          { result := .error (.other errno), pending := pending, position := position + 1 }

/-- Stale messages are dropped first; dropping none changes nothing. -/
def drainBatch (pending : Table Nat M) (position : Nat) : Drained M :=
  drainLoop recvOne describe maxBatch pending.clear [] position

def received : Nat → List M
  | 0 => []
  | position + 1 => received position ++ (recvOne position).toOption.toList

def stash (pending : Table Nat M) (msgs : List M) : Table Nat M :=
  msgs.foldl (fun table msg => table.insert (describe msg).id msg) pending

theorem received_message {position : Nat} {msg : M} (outcome : recvOne position = .ok msg) :
    received recvOne (position + 1) = received recvOne position ++ [msg] := by
  rw [received, outcome]
  rfl

theorem received_error {position : Nat} {error : IoError}
    (outcome : recvOne position = .error error) :
    received recvOne (position + 1) = received recvOne position := by
  rw [received, outcome]
  exact List.append_nil _

theorem drainLoop_spec (room : Nat) (pending : Table Nat M) (out : List NfqMessage)
    (position : Nat) :
    let drained := drainLoop recvOne describe room pending out position
    ∃ msgs, msgs.length ≤ room ∧
      received recvOne drained.position = received recvOne position ++ msgs ∧
      drained.pending = stash describe pending msgs ∧
      (∀ batch, drained.result = .ok batch → batch = out ++ msgs.map describe) ∧
      (0 < room → (msgs = [] ↔ ∃ error, recvOne position = .error error)) := by
  have none {out batch : List NfqMessage}
      (same : (.ok out : Except IoError (List NfqMessage)) = .ok batch) :
      batch = out ++ [].map describe := by
    cases same
    exact (List.append_nil out).symm
  induction room generalizing pending out position with
  | zero => exact ⟨[], Nat.le_refl 0, (List.append_nil _).symm, rfl, fun _ => none, nofun⟩
  | succ room ih =>
      dsimp only
      rw [drainLoop]
      cases outcome : recvOne position with
      | ok msg =>
          obtain ⟨msgs, bound, grown, stashed, returned, -⟩ :=
            ih (pending.insert (describe msg).id msg) (out ++ [describe msg]) (position + 1)
          refine ⟨msg :: msgs, Nat.succ_le_succ bound, ?_, stashed, fun batch result => ?_,
            fun _ => iff_of_false nofun nofun⟩
          · rw [grown, received_message recvOne outcome, List.append_assoc, List.singleton_append]
          · rw [returned batch result, List.append_assoc, List.singleton_append, List.map_cons]
      | error error =>
          have grown := (received_error recvOne outcome).trans (List.append_nil _).symm
          cases error with
          | wouldBlock =>
              exact ⟨[], Nat.zero_le _, grown, rfl, fun _ => none,
                fun _ => iff_of_true rfl ⟨_, rfl⟩⟩
          | other errno =>
              exact ⟨[], Nat.zero_le _, grown, rfl, nofun, fun _ => iff_of_true rfl ⟨_, rfl⟩⟩

/-- Some number of messages, and then an error that is not `WouldBlock`. -/
def FailsAfter (count position : Nat) : Prop :=
  (∀ index < count, ∃ msg, recvOne (position + index) = .ok msg) ∧
    ∃ errno, recvOne (position + count) = .error (.other errno)

theorem failsAfter_succ {count position : Nat} {msg : M} (first : recvOne position = .ok msg) :
    FailsAfter recvOne (count + 1) position ↔ FailsAfter recvOne count (position + 1) := by
  have shifted (index : Nat) : position + (index + 1) = position + 1 + index := by omega
  constructor
  · rintro ⟨messages, failure⟩
    refine ⟨fun index below => ?_, ?_⟩
    · rw [← shifted]
      exact messages (index + 1) (Nat.succ_lt_succ below)
    · rw [← shifted]
      exact failure
  · rintro ⟨messages, failure⟩
    refine ⟨fun index below => ?_, ?_⟩
    · cases index with
      | zero => exact ⟨msg, first⟩
      | succ index =>
          rw [shifted]
          exact messages index (Nat.lt_of_succ_lt_succ below)
    · rw [shifted]
      exact failure

theorem failsAfter_of_error {count position : Nat} {error : IoError}
    (first : recvOne position = .error error) :
    FailsAfter recvOne count position ↔ count = 0 ∧ ∃ errno, error = .other errno := by
  constructor
  · intro fails
    cases count with
    | zero =>
        obtain ⟨errno, failure⟩ := fails.2
        rw [Nat.add_zero, first] at failure
        exact ⟨rfl, errno, Except.error.inj failure⟩
    | succ count =>
        obtain ⟨msg, message⟩ := fails.1 0 (Nat.succ_pos count)
        rw [Nat.add_zero, first] at message
        cases message
  · intro failure
    obtain ⟨rfl, errno, rfl⟩ := failure
    exact ⟨fun index below => absurd below (Nat.not_lt_zero index), errno, first⟩

theorem not_failsAfter_zero {position : Nat} {msg : M} (first : recvOne position = .ok msg) :
    ¬FailsAfter recvOne 0 position := by
  intro fails
  obtain ⟨errno, failure⟩ := fails.2
  rw [Nat.add_zero, first] at failure
  cases failure

theorem drainLoop_error_iff (room : Nat) (pending : Table Nat M) (out : List NfqMessage)
    (position : Nat) :
    (∃ error, (drainLoop recvOne describe room pending out position).result = .error error) ↔
      ∃ count < room, FailsAfter recvOne count position := by
  induction room generalizing pending out position with
  | zero =>
      refine iff_of_false nofun fun within => ?_
      obtain ⟨count, below, _⟩ := within
      exact absurd below (Nat.not_lt_zero count)
  | succ room ih =>
      rw [drainLoop]
      cases outcome : recvOne position with
      | ok msg =>
          dsimp only
          rw [ih]
          constructor
          · intro later
            obtain ⟨count, below, fails⟩ := later
            exact ⟨count + 1, Nat.succ_lt_succ below, (failsAfter_succ recvOne outcome).mpr fails⟩
          · intro now
            obtain ⟨count, below, fails⟩ := now
            cases count with
            | zero => exact absurd fails (not_failsAfter_zero recvOne outcome)
            | succ count =>
                exact ⟨count, Nat.lt_of_succ_lt_succ below,
                  (failsAfter_succ recvOne outcome).mp fails⟩
      | error error =>
          simp only [failsAfter_of_error recvOne outcome]
          cases error with
          | wouldBlock => exact iff_of_false nofun nofun
          | other errno => exact iff_of_true ⟨_, rfl⟩ ⟨0, Nat.succ_pos room, rfl, errno, rfl⟩

/-- The call that starts at a position fails after it has received a message. -/
def Interrupted (position : Nat) : Prop :=
  ∃ count, 0 < count ∧ count < maxBatch ∧ FailsAfter recvOne count position

end Drain

/-! ### Verdicts for a batch -/

def NfqQueue.Keyed (queue : NfqQueue) : Prop :=
  ∀ id msg, queue.pending.lookup id = some msg → msg.id = id

theorem contains_stash (pending : Table Nat NfqMessage) (msgs : List NfqMessage) (id : Nat) :
    (stash (fun msg => msg) pending msgs).contains id = true ↔
      id ∈ msgs.map NfqMessage.id ∨ pending.contains id = true := by
  induction msgs generalizing pending with
  | nil => exact (or_iff_right List.not_mem_nil).symm
  | cons msg rest ih =>
      rw [stash, List.foldl_cons, ← stash, ih, Table.contains_insert, Bool.or_eq_true,
        decide_eq_true_eq, List.map_cons, List.mem_cons, or_left_comm, or_assoc]

theorem keyed_stash (answered : List (NfqMessage × NfqVerdict)) {pending : Table Nat NfqMessage}
    (keyed : ∀ id msg, pending.lookup id = some msg → msg.id = id) (msgs : List NfqMessage) :
    NfqQueue.Keyed { pending := stash (fun msg => msg) pending msgs, answered := answered } := by
  induction msgs generalizing pending with
  | nil => exact keyed
  | cons msg rest ih =>
      refine ih fun id found stored => ?_
      by_cases own : id = msg.id
      · rw [own, Table.lookup_insert_same] at stored
        cases stored
        exact own.symm
      · rw [Table.lookup_insert_ne _ _ own] at stored
        exact keyed id found stored

/-- The verdict calls for a batch, with the errors that were caught on the way. -/
def answerAll (queue : NfqQueue) : List VerdictCall → NfqQueue × List String
  | [] => (queue, [])
  | call :: rest =>
      match queue.verdictImpl call with
      | .ok next => answerAll next rest
      | .error text =>
          let answers := answerAll queue rest
          (answers.1, text :: answers.2)

theorem answerAll_spec {queue : NfqQueue} (keyed : queue.Keyed) {calls : List VerdictCall}
    (waiting : ∀ call ∈ calls, queue.pending.contains call.id = true)
    (different : (calls.map VerdictCall.id).Nodup) :
    let answers := answerAll queue calls
    answers.2 = [] ∧
      (∀ id, answers.1.pending.contains id = true ↔
        id ∉ calls.map VerdictCall.id ∧ queue.pending.contains id = true) ∧
      answers.1.answered.map (fun answer => answer.1.id) =
        queue.answered.map (fun answer => answer.1.id) ++ calls.map VerdictCall.id := by
  induction calls generalizing queue with
  | nil =>
      exact ⟨rfl, fun _ => (and_iff_right List.not_mem_nil).symm, (List.append_nil _).symm⟩
  | cons call rest ih =>
      rw [List.map_cons, List.nodup_cons] at different
      obtain ⟨msg, found⟩ := Option.isSome_iff_exists.mp (waiting call List.mem_cons_self)
      have named : msg.id = call.id := keyed call.id msg found
      let next : NfqQueue :=
        { pending := queue.pending.erase call.id, answered := queue.answered ++ [call.answer msg] }
      have answered : queue.verdictImpl call = .ok next := by rw [NfqQueue.verdictImpl, found]
      have keyedNext : next.Keyed := fun id other stored => keyed id other (Table.lookup_of_erase stored)
      have waitingNext : ∀ later ∈ rest, next.pending.contains later.id = true := by
        intro later member
        have other : later.id ≠ call.id := fun same =>
          different.1 (same ▸ List.mem_map_of_mem member)
        rw [Table.contains_erase, decide_eq_false other,
          waiting later (List.mem_cons_of_mem call member)]
        rfl
      obtain ⟨silent, left, sent⟩ := ih keyedNext waitingNext different.2
      dsimp only
      rw [answerAll, answered]
      refine ⟨silent, fun id => ?_, ?_⟩
      · rw [left, Table.contains_erase, Bool.and_eq_true, Bool.not_eq_true', decide_eq_false_iff_not,
          List.map_cons, List.mem_cons, not_or, and_left_comm, and_assoc]
      · rw [sent, List.map_append, List.append_assoc]
        exact congrArg (_ ++ · :: _) named

/-! ### Calls and verdicts in turn -/

/-- The outcomes of `recv_one`, whose messages have different ids. -/
structure Arrivals where
  recvOne : Nat → Except IoError NfqMessage
  distinct : ∀ {index other first second}, recvOne index = .ok first →
    recvOne other = .ok second → first.id = second.id → index = other

/-- A caller gives each message of a batch one verdict, in any order. -/
structure Caller (σ : Type) where
  answer : σ → List NfqMessage → σ × List VerdictCall
  each : ∀ state batch,
    ((answer state batch).2.map VerdictCall.id).Perm (batch.map NfqMessage.id)

/-- The queue and its caller between two calls, with the batches that were returned and
the errors of verdicts so far. -/
structure Receiver (σ : Type) where
  queue : NfqQueue
  position : Nat
  caller : σ
  batches : List (List NfqMessage)
  errors : List String

def NfqQueue.recvBatch (queue : NfqQueue) (recvOne : Nat → Except IoError NfqMessage)
    (position : Nat) : Drained NfqMessage :=
  drainBatch recvOne (fun msg => { id := msg.id, nfmark := msg.nfmark, payload := msg.payload })
    queue.pending position

theorem NfqQueue.recvBatch_spec (queue : NfqQueue) (recvOne : Nat → Except IoError NfqMessage)
    (position : Nat) :
    let drained := queue.recvBatch recvOne position
    ∃ msgs, msgs.length ≤ maxBatch ∧
      received recvOne drained.position = received recvOne position ++ msgs ∧
      drained.pending = stash (fun msg => msg) Table.empty msgs ∧
      (∀ batch, drained.result = .ok batch → batch = msgs ∧ ¬Interrupted recvOne position) ∧
      ∀ error, drained.result = .error error → (msgs = [] ↔ ¬Interrupted recvOne position) := by
  obtain ⟨msgs, bound, taken, left, returned, first⟩ := drainLoop_spec recvOne
    (fun msg => msg) maxBatch queue.pending.clear [] position
  have fails := drainLoop_error_iff recvOne (fun msg => msg) maxBatch queue.pending.clear []
    position
  refine ⟨msgs, bound, taken, left, fun batch result => ⟨?_, ?_⟩, fun error result => ?_⟩
  · rw [returned batch result, List.map_id_fun', id, List.nil_append]
  · rintro ⟨count, _, below, failsAfter⟩
    obtain ⟨error, failed⟩ := fails.mpr ⟨count, below, failsAfter⟩
    cases result.symm.trans failed
  · rw [first (Nat.succ_pos _)]
    obtain ⟨count, below, failsAfter⟩ := fails.mp ⟨error, result⟩
    constructor
    · rintro ⟨error, failure⟩ ⟨count, positive, _, messages, _⟩
      obtain ⟨msg, message⟩ := messages 0 positive
      rw [Nat.add_zero, failure] at message
      cases message
    · intro smooth
      cases count with
      | zero =>
          obtain ⟨errno, failure⟩ := failsAfter.2
          exact ⟨_, failure⟩
      | succ count => exact absurd ⟨count + 1, Nat.succ_pos count, below, failsAfter⟩ smooth

section Rounds

variable {σ : Type} (arrivals : Arrivals) (caller : Caller σ)

def Receiver.round (receiver : Receiver σ) : Receiver σ :=
  let drained := receiver.queue.recvBatch arrivals.recvOne receiver.position
  let queue := { receiver.queue with pending := drained.pending }
  match drained.result with
  | .error _ => { receiver with queue := queue, position := drained.position }
  | .ok batch =>
      let called := caller.answer receiver.caller batch
      let answers := answerAll queue called.2
      { queue := answers.1
        position := drained.position
        caller := called.1
        batches := receiver.batches ++ [batch]
        errors := receiver.errors ++ answers.2 }

def Receiver.after (start : σ) : Nat → Receiver σ
  | 0 =>
      { queue := { pending := Table.empty, answered := [] }
        position := 0
        caller := start
        batches := []
        errors := [] }
  | rounds + 1 => (Receiver.after start rounds).round arrivals caller

def Receiver.received (receiver : Receiver σ) : List NfqMessage :=
  Daemon.received arrivals.recvOne receiver.position

def Receiver.answeredIds (receiver : Receiver σ) : List Nat :=
  receiver.queue.answered.map fun answer => answer.1.id

/-- Every received message was returned once, in order and in batches of bounded length,
was found when its verdict came, and none is left for the next call. -/
structure Receiver.KeepsAll (receiver : Receiver σ) : Prop where
  returned : receiver.batches.flatten = receiver.received arrivals
  once : (receiver.batches.flatten.map NfqMessage.id).Nodup
  bounded : ∀ batch ∈ receiver.batches, batch.length ≤ maxBatch
  found : receiver.errors = []
  emptied : receiver.queue.pending = Table.empty
  answered : receiver.answeredIds.Perm ((receiver.received arrivals).map NfqMessage.id)

theorem Arrivals.mem_received {position : Nat} {msg : NfqMessage}
    (member : msg ∈ Daemon.received arrivals.recvOne position) :
    ∃ index < position, arrivals.recvOne index = .ok msg := by
  induction position with
  | zero => cases member
  | succ position ih =>
      rw [Daemon.received, List.mem_append] at member
      rcases member with earlier | last
      · obtain ⟨index, below, outcome⟩ := ih earlier
        exact ⟨index, Nat.lt_succ_of_lt below, outcome⟩
      · refine ⟨position, Nat.lt_succ_self position, ?_⟩
        cases outcome : arrivals.recvOne position with
        | error error =>
            rw [outcome] at last
            cases last
        | ok found =>
            rw [outcome] at last
            rw [List.mem_singleton.mp last]

theorem Arrivals.received_nodup (position : Nat) :
    ((Daemon.received arrivals.recvOne position).map NfqMessage.id).Nodup := by
  induction position with
  | zero => exact List.nodup_nil
  | succ position ih =>
      cases outcome : arrivals.recvOne position with
      | error error =>
          rw [received_error arrivals.recvOne outcome]
          exact ih
      | ok msg =>
          rw [received_message arrivals.recvOne outcome, List.map_append, List.map_singleton,
            ← List.concat_eq_append, List.nodup_concat]
          refine ⟨fun repeated => ?_, ih⟩
          obtain ⟨earlier, member, same⟩ := List.mem_map.mp repeated
          obtain ⟨index, below, first⟩ := arrivals.mem_received member
          exact absurd (arrivals.distinct first outcome same) (Nat.ne_of_lt below)

/-- A call that succeeded: its batch is answered and gone. -/
structure Receiver.Succeeds (before after : Receiver σ) (batch : List NfqMessage) : Prop where
  bounded : batch.length ≤ maxBatch
  taken : after.received arrivals = before.received arrivals ++ batch
  returned : after.batches = before.batches ++ [batch]
  silent : after.errors = before.errors
  cleared : after.queue.pending = Table.empty
  answered : after.answeredIds.Perm (before.answeredIds ++ batch.map NfqMessage.id)

/-- A call that failed: what it received stays behind. -/
structure Receiver.Fails (before after : Receiver σ) (msgs : List NfqMessage) : Prop where
  taken : after.received arrivals = before.received arrivals ++ msgs
  returned : after.batches = before.batches
  silent : after.errors = before.errors
  left : after.queue.pending = stash (fun msg => msg) Table.empty msgs
  answered : after.answeredIds = before.answeredIds

theorem Receiver.round_cases (receiver : Receiver σ) :
    (¬Interrupted arrivals.recvOne receiver.position ∧
        ∃ batch, receiver.Succeeds arrivals (receiver.round arrivals caller) batch) ∨
      ∃ msgs, receiver.Fails arrivals (receiver.round arrivals caller) msgs ∧
        (msgs = [] ↔ ¬Interrupted arrivals.recvOne receiver.position) := by
  obtain ⟨msgs, bound, taken, left, success, failure⟩ :=
    receiver.queue.recvBatch_spec arrivals.recvOne receiver.position
  cases result : (receiver.queue.recvBatch arrivals.recvOne receiver.position).result with
  | error error =>
      refine Or.inr ⟨msgs, ?_, failure error result⟩
      unfold Receiver.round
      dsimp only
      rw [result]
      exact ⟨taken, rfl, rfl, left, rfl⟩
  | ok batch =>
      obtain ⟨same, smooth⟩ := success batch result
      refine Or.inl ⟨smooth, msgs, ?_⟩
      have each := caller.each receiver.caller msgs
      -- the ids of the batch are those of its part of the arrivals
      have different : (msgs.map NfqMessage.id).Nodup := by
        have all := arrivals.received_nodup
          (receiver.queue.recvBatch arrivals.recvOne receiver.position).position
        rw [taken, List.map_append] at all
        exact all.of_append_right
      have waits (id : Nat) : (stash (fun msg => msg) Table.empty msgs).contains id = true ↔
          id ∈ msgs.map NfqMessage.id :=
        (contains_stash Table.empty msgs id).trans (or_iff_left Bool.false_ne_true)
      obtain ⟨silent, rest, answered⟩ := answerAll_spec
        (keyed_stash receiver.queue.answered (fun _ _ stored => by cases stored) msgs)
        (fun call member => (waits call.id).mpr (each.mem_iff.mp (List.mem_map_of_mem member)))
        (each.nodup_iff.mpr different)
      unfold Receiver.round
      dsimp only
      rw [result, same, left]
      refine ⟨bound, taken, rfl, ?_, ?_, ?_⟩
      · exact (congrArg (receiver.errors ++ ·) silent).trans (List.append_nil _)
      · refine Table.eq_empty_of_not_contains fun id => Bool.eq_false_of_not_eq_true fun stays => ?_
        obtain ⟨uncalled, waited⟩ := (rest id).mp stays
        exact uncalled (each.mem_iff.mpr ((waits id).mp waited))
      · change List.Perm (List.map _ _) _
        rw [answered]
        exact each.append_left _

theorem Receiver.KeepsAll.succeeds {before after : Receiver σ} {batch : List NfqMessage}
    (keeps : before.KeepsAll arrivals) (succeeds : before.Succeeds arrivals after batch) :
    after.KeepsAll arrivals := by
  have returned : after.batches.flatten = after.received arrivals := by
    rw [succeeds.returned, succeeds.taken, List.flatten_append, keeps.returned,
      List.flatten_singleton]
  refine ⟨returned, ?_, ?_, succeeds.silent.trans keeps.found, succeeds.cleared, ?_⟩
  · rw [returned]
    exact arrivals.received_nodup after.position
  · rw [succeeds.returned]
    intro other member
    rcases List.mem_append.mp member with earlier | last
    · exact keeps.bounded other earlier
    · rw [List.mem_singleton.mp last]
      exact succeeds.bounded
  · rw [succeeds.taken, List.map_append]
    exact succeeds.answered.trans (keeps.answered.append_right _)

theorem Receiver.KeepsAll.fails {before after : Receiver σ} (keeps : before.KeepsAll arrivals)
    (fails : before.Fails arrivals after []) : after.KeepsAll arrivals := by
  have taken := fails.taken
  rw [List.append_nil] at taken
  refine ⟨?_, ?_, ?_, fails.silent.trans keeps.found, fails.left, ?_⟩
  · rw [fails.returned, taken]
    exact keeps.returned
  · rw [fails.returned]
    exact keeps.once
  · rw [fails.returned]
    exact keeps.bounded
  · rw [fails.answered, taken]
    exact keeps.answered

theorem Receiver.KeepsAll.round {receiver : Receiver σ} (keeps : receiver.KeepsAll arrivals)
    (smooth : ¬Interrupted arrivals.recvOne receiver.position) :
    (receiver.round arrivals caller).KeepsAll arrivals := by
  rcases receiver.round_cases arrivals caller with ⟨_, batch, succeeds⟩ | ⟨msgs, fails, none⟩
  · exact keeps.succeeds arrivals succeeds
  · rw [none.mpr smooth] at fails
    exact keeps.fails arrivals fails

/-- What an interrupted call has received is never returned. -/
theorem Receiver.KeepsAll.smooth {receiver : Receiver σ} (keeps : receiver.KeepsAll arrivals)
    (next : (receiver.round arrivals caller).KeepsAll arrivals) :
    ¬Interrupted arrivals.recvOne receiver.position := by
  rcases receiver.round_cases arrivals caller with ⟨smooth, _⟩ | ⟨msgs, fails, none⟩
  · exact smooth
  · apply none.mp
    have returned := next.returned
    rw [fails.returned, fails.taken, keeps.returned] at returned
    exact List.append_cancel_left (returned.symm.trans (List.append_nil _).symm)

end Rounds

/-! ### The daemon as the caller -/

/-- `NfqueueRcvData` after its call: the callback for one message after another.  The clock
is read once for each message. -/
def nfqueueRcvData (env : Environment) (queue : Queue) (clock : Nat → Nat) :
    Nat × DaemonContext → List NfqMessage → (Nat × DaemonContext) × List VerdictCall
  | state, [] => (state, [])
  | (turn, daemon), msg :: rest =>
      let handling := daemon.handle env queue msg (clock turn)
      let answers := nfqueueRcvData env queue clock
        (turn + 1, { daemon with connMgr := handling.manager }) rest
      (answers.1, handling.verdicts ++ answers.2)

theorem nfqueueRcvData_each (env : Environment) (queue : Queue) (clock : Nat → Nat)
    (state : Nat × DaemonContext) (batch : List NfqMessage) :
    (nfqueueRcvData env queue clock state batch).2.map VerdictCall.id =
      batch.map NfqMessage.id := by
  induction batch generalizing state with
  | nil => rfl
  | cons msg rest ih =>
      obtain ⟨turn, daemon⟩ := state
      obtain ⟨calls, _, finishes⟩ :=
        nfqCb_finishes env queue.side daemon.microseg msg (clock turn) daemon.connMgr
      obtain ⟨call, issued, named⟩ := finishes.answered
      rw [nfqueueRcvData, List.map_append, ih, DaemonContext.handle, Queue.callback_eq, issued,
        List.map_cons, ← named]
      rfl

def daemonCaller (env : Environment) (queue : Queue) (clock : Nat → Nat) :
    Caller (Nat × DaemonContext) where
  answer := nfqueueRcvData env queue clock
  each := fun state batch => .of_eq (nfqueueRcvData_each env queue clock state batch)

def interruptedArrivals : Arrivals where
  recvOne
    | 0 => .ok (plainMessage webFlow 100 synFlag [])
    | 1 => .error (.other 28)
    | _ => .error .wouldBlock
  distinct := by
    intro index other first second received another _
    match index, other with
    | 0, 0 => rfl
    | 0, 1 => cases another
    | 0, _ + 2 => cases another
    | 1, _ => cases received
    | _ + 2, _ => cases received

end NetPolicy.Daemon
