/-
What a session does to the marks over its life.

The bits of an ICMP entry stay in the update object, so the first selected ICMP entry is the
last thing that a session does: from there on no call changes a mark, of this entry or of any
other.  `UpdateMark` makes calls with an empty tuple and the mark 0; what they clear is
determined by where the ICMP entries lie in the tables that the session has been shown.
-/

import NetPolicy.Conntrack.Session

namespace NetPolicy.Conntrack

/-! ### After an ICMP entry -/

section Jamming

theorem sweep_of_jammed (selection : Selection) (mark : UInt32) (entries : List Entry) :
    selection.sweep mark true entries = (true, entries) := by
  induction entries with
  | nil => rfl
  | cons entry rest ih =>
      have jams : selection.jams true entry.flow = true := rfl
      have misses : selection.reaches true entry.flow = false := by
        rw [Selection.reaches, jams, Bool.not_true, Bool.and_false]
      rw [Selection.sweep, jams, ih, misses]
      rfl

theorem sweep_jams (selection : Selection) (mark : UInt32) {entries : List Entry} {entry : Entry}
    (member : entry ∈ entries) (chosen : selection.selects entry.flow = true)
    (ping : entry.flow.isIcmp = true) (jammed : Bool) :
    (selection.sweep mark jammed entries).1 = true := by
  induction entries generalizing jammed with
  | nil => cases member
  | cons first rest ih =>
      rcases List.mem_cons.mp member with rfl | later
      · have jams : selection.jams jammed entry.flow = true := by
          rw [Selection.jams, chosen, ping]
          exact Bool.or_true jammed
        rw [Selection.sweep, jams, sweep_of_jammed]
      · exact ih later _

theorem SessionState.call_of_jammed {state : SessionState} (jammed : state.jammed = true)
    (call : QuietCall) :
    (state.after call).jammed = true ∧ state.table call = call.entries := by
  by_cases high : call.mark > 100
  · rw [(call_high high).1]
    exact ⟨jammed, (call_high high).2⟩
  · rw [(call_low high).1, (call_low high).2, jammed, sweep_of_jammed]
    exact ⟨rfl, rfl⟩

def selectionAfter (calls : List QuietCall) : Selection :=
  calls.foldl (fun selection call => selection.narrow call.tuple) {}

/-- Once a call has selected an ICMP entry, no later call of the session changes a mark. -/
theorem table_of_icmp_met (kernel : Ctnetlink) (earlier : List QuietCall) (call : QuietCall)
    (later : List QuietCall) (last : QuietCall) {entry : Entry} (member : entry ∈ call.entries)
    (ping : entry.flow.isIcmp = true) (low : call.mark ≤ 100)
    (chosen : (selectionAfter (earlier ++ [call])).selects entry.flow = true) :
    (Runs.run ConntrackSession.after openConntrackSession (earlier ++ call :: later)).table kernel
      last = last.entries := by
  have met : ((Runs.run SessionState.after {} earlier).after call).jammed = true := by
    rw [(SessionState.call_low (UInt32.not_lt.mpr low)).1, SessionState.selection_run]
    rw [selectionAfter, List.foldl_append] at chosen
    exact sweep_jams _ call.mark member chosen ping _
  have still : (Runs.run SessionState.after {} (earlier ++ call :: later)).jammed = true := by
    rw [Runs.run_append, Runs.run_cons]
    exact Runs.run_invariant SessionState.after (fun _ _ => True) (fun state => state.jammed = true)
      (fun state next jammed _ => (SessionState.call_of_jammed jammed next).1) met
      (Runs.meets_of_forall (fun _ _ => trivial) _)
  rw [(call_spec (run_holds (earlier ++ call :: later)) last).2 kernel]
  exact (SessionState.call_of_jammed still last).2

def plainCtnetlink : Ctnetlink where
  receive table message :=
    match message.flow?, message.mark with
    | some flow, some mark => assign table flow mark
    | _, _ => table
  receive_unmarked table message unmarked := by
    rw [unmarked]
    cases message.flow? <;> rfl
  receive_marked table message flow mark named marked := by rw [named, marked]

def pingEntry : Entry := ⟨⟨0x0a000001, 0x0a000002, ipprotoIcmp, 7, ⟨8, 0⟩⟩, 0, by decide⟩

def webEntry : Entry := ⟨⟨0x0a000001, 0x0a000003, ipprotoTcp, 40000, ⟨0, 80⟩⟩, 1, by decide⟩

theorem table_of_icmp_met_ping :
    (Runs.run ConntrackSession.after openConntrackSession
      [QuietCall.on {} 0 [pingEntry] (by decide)]).table plainCtnetlink
        (QuietCall.on {} 0 [webEntry] (by decide)) = [webEntry] :=
  table_of_icmp_met plainCtnetlink [] (QuietCall.on {} 0 [pingEntry] (by decide)) []
    (QuietCall.on {} 0 [webEntry] (by decide)) (List.mem_singleton.mpr rfl) rfl (by decide) rfl

end Jamming

/-! ### Clearing marks -/

/-- The call that `UpdateMark` makes: every field of the tuple is empty and the mark is 0. -/
def QuietCall.Clears (call : QuietCall) : Prop := call.tuple = {} ∧ call.mark = 0

instance (call : QuietCall) : Decidable call.Clears := inferInstanceAs (Decidable (_ ∧ _))

section Clearing

theorem jams_all (jammed : Bool) (flow : Flow) :
    ({} : Selection).jams jammed flow = (jammed || flow.isIcmp) := rfl

theorem reaches_all (jammed : Bool) (flow : Flow) :
    ({} : Selection).reaches jammed flow = (flow.hasPorts && !jammed) := by
  rw [Selection.reaches, jams_all]
  cases ping : flow.isIcmp with
  | true => rw [not_hasPorts_of_isIcmp ping]; rfl
  | false => rw [Bool.or_false]; rfl

theorem sweep_all_fst (mark : UInt32) (jammed : Bool) (entries : List Entry) :
    (({} : Selection).sweep mark jammed entries).1 =
      (jammed || entries.any fun entry => entry.flow.isIcmp) := by
  induction entries generalizing jammed with
  | nil => exact (Bool.or_false jammed).symm
  | cons entry rest ih =>
      rw [Selection.sweep, jams_all, List.any_cons, ← Bool.or_assoc]
      exact ih _

/-- An entry gets the mark exactly if it has ports and no ICMP entry was met before it. -/
theorem sweep_all_getElem? (mark : UInt32) (jammed : Bool) (entries : List Entry) {index : Nat}
    {entry : Entry} (found : entries[index]? = some entry) :
    (({} : Selection).sweep mark jammed entries).2[index]? =
      some (if entry.flow.hasPorts &&
          !(jammed || (entries.take index).any fun other => other.flow.isIcmp) then
          entry.withMark mark
        else entry) := by
  induction entries generalizing jammed index with
  | nil => simp at found
  | cons first rest ih =>
      rw [Selection.sweep, jams_all, reaches_all]
      cases index with
      | zero =>
          cases found
          simp
      | succ index =>
          rw [List.take_succ_cons, List.any_cons, ← Bool.or_assoc]
          exact ih _ found

theorem SessionState.after_of_clears {state : SessionState} {call : QuietCall}
    (all : state.selection = {}) (clears : call.Clears) :
    state.after call =
      ⟨{}, state.jammed || call.entries.any fun entry => entry.flow.isIcmp⟩ := by
  have low : ¬call.mark > 100 := by rw [clears.2]; decide
  have same : ({} : Selection).narrow {} = {} := rfl
  rw [(call_low low).1, all, clears.1, same, sweep_all_fst]

theorem SessionState.run_of_clears {state : SessionState} {calls : List QuietCall}
    (all : state.selection = {}) (clears : ∀ call ∈ calls, call.Clears) :
    Runs.run SessionState.after state calls =
      ⟨{}, state.jammed || calls.any fun call => call.entries.any fun entry =>
        entry.flow.isIcmp⟩ := by
  induction calls generalizing state with
  | nil =>
      rw [List.any_nil, Bool.or_false, ← all]
      rfl
  | cons call rest ih =>
      have first := after_of_clears all (clears call List.mem_cons_self)
      rw [Runs.run_cons, ih (by rw [first]) fun other member =>
        clears other (List.mem_cons_of_mem call member), first, List.any_cons, Bool.or_assoc]

/-- Over any clearing calls on a session, an entry of the last table has the mark 0 in the end
exactly if it had it, or if it has ports and no ICMP entry was in an earlier table or before
it in the last one. -/
theorem cleared_iff (kernel : Ctnetlink) (calls : List QuietCall) (last : QuietCall)
    (clears : ∀ call ∈ calls, call.Clears) (lastClears : last.Clears) {index : Nat} {entry : Entry}
    (found : last.entries[index]? = some entry) :
    ∃ left,
      ((Runs.run ConntrackSession.after openConntrackSession calls).table kernel last)[index]? =
        some left ∧ left.flow = entry.flow ∧
      (left.mark = 0 ↔ entry.mark = 0 ∨ entry.flow.hasPorts = true ∧
        (∀ call ∈ calls, ∀ other ∈ call.entries, other.flow.isIcmp = false) ∧
        ∀ other ∈ last.entries.take index, other.flow.isIcmp = false) := by
  have low : ¬last.mark > 100 := by rw [lastClears.2]; decide
  have state : Runs.run SessionState.after {} calls = _ := SessionState.run_of_clears rfl clears
  have same : ({} : Selection).narrow {} = {} := rfl
  rw [(call_spec (run_holds calls) last).2 kernel, (SessionState.call_low low).2, state,
    lastClears.1, same, sweep_all_getElem? _ _ _ found, lastClears.2]
  refine ⟨_, rfl, ?_⟩
  split
  · rename_i reached
    refine ⟨rfl, iff_of_true rfl (Or.inr ?_)⟩
    simpa using reached
  · rename_i missed
    refine ⟨rfl, (or_iff_left ?_).symm⟩
    simpa using missed

theorem cleared_iff_web :
    ∃ left, ((Runs.run ConntrackSession.after openConntrackSession []).table plainCtnetlink
        (QuietCall.on {} 0 [webEntry, pingEntry] (by decide)))[0]? = some left ∧
      left.flow = webEntry.flow ∧ left.mark = 0 := by
  have found : (QuietCall.on {} 0 [webEntry, pingEntry] (by decide)).entries[0]? =
      some webEntry := rfl
  obtain ⟨left, there, flow, cleared⟩ := cleared_iff plainCtnetlink []
    (QuietCall.on {} 0 [webEntry, pingEntry] (by decide)) (by simp) (by decide) found
  refine ⟨left, there, flow, cleared.mpr (Or.inr ⟨by decide, by simp, ?_⟩)⟩
  intro other member
  cases member

end Clearing

end NetPolicy.Conntrack
