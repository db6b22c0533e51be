/-
Installation survives most interruptions.

A call can stop between any two of its commands.  What the stops leave is
followed by a machine with five phases: nothing run yet, cleared, the first chain
present, both present, and only the second one present and empty.  From the last
phase the next call does not clear and skips the second group, so outgoing
packets stay unfiltered; from every other one a complete call installs the whole
set.
-/

import Mathlib.Data.List.Induction
import NetPolicy.Iptables.Installation
import NetPolicy.Library.Runs

namespace NetPolicy.Iptables

/-! ### Stopped calls -/

structure Write where
  iMark : Int
  oMark : Int
  stop : Nat
deriving DecidableEq, Repr

def interrupted (table : MangleTable) (call : Write) : MangleTable :=
  table.runAll ((writeCommands call.iMark call.oMark table).take call.stop)

/-! ### The phases -/

inductive Phase where
  | fresh
  | cleared
  | prerouting
  | both
  | output
deriving DecidableEq, Repr

def Phase.installing (stop : Nat) : Phase :=
  if stop = 0 then .cleared else if stop ≤ 6 then .prerouting else .both

def Phase.step : Phase → Nat → Phase
  | .fresh, stop => if stop = 0 then .fresh else installing stop
  | .cleared, stop => installing stop
  | .prerouting, stop => if stop < 2 then .prerouting else installing (stop - 3)
  | .both, stop =>
      if stop < 2 then .both else if stop = 2 then .output else installing (stop - 3)
  | .output, stop => if stop = 0 then .output else .both

/-- A table in which neither a chain nor a rule mentions `TS_ZERO`. -/
structure ForeignTable extends MangleTable where
  unmarked : toMangleTable.mangleTableContains "TS_ZERO" = false

def Represents (foreign : ForeignTable) : Phase → MangleTable → Prop
  | .fresh, table => table = foreign.toMangleTable
  | .cleared, table => table.Emptied ∧ Vacant table
  | .prerouting, table =>
      OwnNames table ∧ table.hasChain tsZeroPrerouting = true ∧ ¬table.Mentions outputNeedle
  | .both, table =>
      OwnNames table ∧ table.hasChain tsZeroPrerouting = true ∧
        table.hasChain tsZeroOutput = true
  | .output, table =>
      table.Emptied ∧ OwnNames table ∧ ¬table.Mentions preroutingNeedle ∧
        table.chains.lookup tsZeroOutput = some []

theorem ForeignTable.vacant (foreign : ForeignTable) : Vacant foreign.toMangleTable := by
  have unmentioned : ¬foreign.toMangleTable.Mentions zeroNeedle := by
    rw [← MangleTable.mangleTableContains_iff]
    exact Bool.eq_false_iff.mp foreign.unmarked
  have longer {needle : Needle} (zero : ∀ {word}, needle.In word → zeroNeedle.In word) :
      ¬foreign.toMangleTable.Mentions needle := by
    rintro ⟨name, rules, found, inName | ⟨rule, member, word, wordMember, inWord⟩⟩
    · exact unmentioned ⟨name, rules, found, Or.inl (zero inName)⟩
    · exact unmentioned
        ⟨name, rules, found, Or.inr ⟨rule, member, word, wordMember, zero inWord⟩⟩
  constructor
  · intro name there inName
    obtain ⟨rules, found⟩ := Option.isSome_iff_exists.mp there
    exact absurd ⟨name, rules, found, Or.inl inName⟩ unmentioned
  · exact longer zero_of_prerouting
  · exact longer zero_of_output

/-! ### A stopped call moves the machine -/

section Stops

variable {table : MangleTable} (iMark oMark : Int)

theorem not_deleteChain_mem_groups (name : String) (stop : Nat) :
    Command.deleteChain name ∉ (preroutingCommands iMark ++ outputCommands oMark).take stop := by
  intro member
  rcases List.mem_append.mp (List.mem_of_mem_take member) with first | second
  · exact not_deleteChain_mem_hookCommands name first
  · exact not_deleteChain_mem_hookCommands name second

theorem newChain_mem_groups {name : String} {stop : Nat}
    (member : Command.newChain name ∈
      (preroutingCommands iMark ++ outputCommands oMark).take stop) :
    name = tsZeroPrerouting ∨ name = tsZeroOutput := by
  rcases List.mem_append.mp (List.mem_of_mem_take member) with first | second
  · exact Or.inl (eq_of_newChain_mem_hookCommands first)
  · exact Or.inr (eq_of_newChain_mem_hookCommands second)

theorem represents_installing (foreign : ForeignTable) (vacant : Vacant table) {stop : Nat}
    (started : 0 < stop) :
    Represents foreign (.installing stop)
      (table.runAll ((preroutingCommands iMark ++ outputCommands oMark).take stop)) := by
  have names : OwnNames (table.runAll
      ((preroutingCommands iMark ++ outputCommands oMark).take stop)) :=
    runAll_ownNames (fun _ member => newChain_mem_groups iMark oMark member) vacant.names
  have first : (table.runAll ((preroutingCommands iMark ++ outputCommands oMark).take
      stop)).hasChain tsZeroPrerouting = true := by
    refine MangleTable.runAll_creates ?_ (not_deleteChain_mem_groups iMark oMark _ stop)
    obtain ⟨later, rfl⟩ := Nat.exists_eq_succ_of_ne_zero (Nat.ne_of_gt started)
    exact List.mem_cons_self
  unfold Phase.installing
  rw [if_neg (Nat.ne_of_gt started)]
  by_cases early : stop ≤ 6
  · rw [if_pos early]
    refine ⟨names, first, ?_⟩
    have within : (preroutingCommands iMark ++ outputCommands oMark).take stop =
        (preroutingCommands iMark).take stop := List.take_append_of_le_length early
    rw [within]
    refine MangleTable.runAll_not_mentions ?_ vacant.noOutput
    intro command member
    exact preroutingCommands_silent iMark command (List.mem_of_mem_take member)
  · rw [if_neg early]
    refine ⟨names, first, MangleTable.runAll_creates ?_
      (not_deleteChain_mem_groups iMark oMark _ stop)⟩
    obtain ⟨later, rfl⟩ := Nat.exists_eq_add_of_le (Nat.lt_of_not_le early)
    simp [preroutingCommands, outputCommands, hookCommands, Nat.add_comm 7 later]

/-- A call that clears first: from the third command on it starts from a cleared table. -/
theorem represents_clearing (foreign : ForeignTable) (names : OwnNames table) {stop : Nat}
    (cleared : 3 ≤ stop) :
    Represents foreign (.installing (stop - 3))
      (table.runAll ((clearIptablesRule ++
        (preroutingCommands iMark ++ outputCommands oMark)).take stop)) := by
  have facts := cleared_facts names
  have split : (clearIptablesRule ++ (preroutingCommands iMark ++ outputCommands oMark)).take
      stop = clearIptablesRule ++
        (preroutingCommands iMark ++ outputCommands oMark).take (stop - 3) := by
    rw [List.take_append, List.take_of_length_le cleared]
    rfl
  rw [split, MangleTable.runAll_append]
  by_cases done : stop - 3 = 0
  · rw [done]
    exact facts
  · exact represents_installing iMark oMark foreign facts.2 (Nat.pos_of_ne_zero done)

/-- Stopped before its second deletion, a call that clears keeps the first chain and
whatever is known of the second. -/
theorem flushed_facts (names : OwnNames table) :
    OwnNames (table.run .flush) ∧
      (table.hasChain tsZeroPrerouting = true →
        (table.run .flush).hasChain tsZeroPrerouting = true) ∧
      (table.hasChain tsZeroOutput = true → (table.run .flush).hasChain tsZeroOutput = true) ∧
      (¬table.Mentions outputNeedle → ¬(table.run .flush).Mentions outputNeedle) := by
  have other : ∀ name, Command.flush ≠ .deleteChain name := by
    intro name same
    cases same
  have own : OwnNames (table.runAll [.flush]) := runAll_ownNames (by simp) names
  refine ⟨own, ?_, ?_, ?_⟩
  · exact fun there => MangleTable.hasChain_run there (other _)
  · exact fun there => MangleTable.hasChain_run there (other _)
  · intro unmentioned mentions
    rcases MangleTable.mentions_run mentions with before | carried
    · exact unmentioned before
    · exact Command.not_carries_flush carried

theorem represents_step_prerouting (foreign : ForeignTable) {call : Write}
    (represents : Represents foreign .prerouting table) :
    Represents foreign (Phase.step .prerouting call.stop) (interrupted table call) := by
  obtain ⟨names, there, unmentioned⟩ := represents
  unfold interrupted
  rw [writeCommands_of_prerouting names there]
  by_cases early : call.stop < 2
  · rw [Phase.step, if_pos early]
    have stopped : call.stop = 0 ∨ call.stop = 1 := by omega
    rcases stopped with idle | flushed
    · rw [idle]
      exact ⟨names, there, unmentioned⟩
    · obtain ⟨own, keepsFirst, _, keepsUnmentioned⟩ := flushed_facts names
      rw [flushed]
      exact ⟨own, keepsFirst there, keepsUnmentioned unmentioned⟩
  · rw [Phase.step, if_neg early]
    by_cases second : call.stop = 2
    · obtain ⟨emptied, own, noPrerouting, output⟩ := unhooked_facts names
      rw [second]
      refine ⟨emptied, own, noPrerouting, not_mentions_output emptied own ?_⟩
      have absent : table.chains.lookup tsZeroOutput = none :=
        MangleTable.lookup_eq_none_of_not_mentions unmentioned
      rw [absent] at output
      exact output
    · exact represents_clearing call.iMark call.oMark foreign names (by omega)

/-- Stopped between the two deletions, a call leaves the second chain, empty. -/
theorem represents_step_both (foreign : ForeignTable) {call : Write}
    (represents : Represents foreign .both table) :
    Represents foreign (Phase.step .both call.stop) (interrupted table call) := by
  obtain ⟨names, there, outputThere⟩ := represents
  unfold interrupted
  rw [writeCommands_of_prerouting names there]
  by_cases early : call.stop < 2
  · rw [Phase.step, if_pos early]
    have stopped : call.stop = 0 ∨ call.stop = 1 := by omega
    rcases stopped with idle | flushed
    · rw [idle]
      exact ⟨names, there, outputThere⟩
    · obtain ⟨own, keepsFirst, keepsSecond, _⟩ := flushed_facts names
      rw [flushed]
      exact ⟨own, keepsFirst there, keepsSecond outputThere⟩
  · rw [Phase.step, if_neg early]
    by_cases second : call.stop = 2
    · obtain ⟨emptied, own, noPrerouting, output⟩ := unhooked_facts names
      rw [if_pos second, second]
      refine ⟨emptied, own, noPrerouting, ?_⟩
      obtain ⟨rules, found⟩ := Option.isSome_iff_exists.mp outputThere
      rw [found] at output
      exact output
    · rw [if_neg second]
      exact represents_clearing call.iMark call.oMark foreign names (by omega)

theorem represents_step_output (foreign : ForeignTable) {call : Write}
    (represents : Represents foreign .output table) :
    Represents foreign (Phase.step .output call.stop) (interrupted table call) := by
  obtain ⟨emptied, names, noPrerouting, empty⟩ := represents
  have there : table.hasChain tsZeroOutput = true := by
    rw [MangleTable.hasChain, empty]
    rfl
  unfold interrupted
  rw [writeCommands_of_unchecked noPrerouting, groupCommands_of_output noPrerouting there,
    Phase.step]
  by_cases idle : call.stop = 0
  · rw [if_pos idle, idle]
    exact ⟨emptied, names, noPrerouting, empty⟩
  · rw [if_neg idle]
    have keeps : ∀ name, Command.deleteChain name ∉
        (preroutingCommands call.iMark).take call.stop := by
      intro name member
      exact not_deleteChain_mem_hookCommands name (List.mem_of_mem_take member)
    refine ⟨runAll_ownNames ?_ names, MangleTable.runAll_creates ?_ (keeps _),
      MangleTable.runAll_hasChain (keeps _) there⟩
    · intro name member
      exact Or.inl (eq_of_newChain_mem_hookCommands (List.mem_of_mem_take member))
    · obtain ⟨later, stopped⟩ := Nat.exists_eq_succ_of_ne_zero idle
      rw [stopped]
      exact List.mem_cons_self

theorem represents_step (foreign : ForeignTable) {phase : Phase} {call : Write}
    (represents : Represents foreign phase table) :
    Represents foreign (phase.step call.stop) (interrupted table call) := by
  cases phase with
  | fresh =>
      cases represents
      unfold interrupted
      rw [writeCommands_of_unchecked foreign.vacant.noPrerouting,
        groupCommands_of_vacant foreign.vacant, Phase.step]
      by_cases idle : call.stop = 0
      · rw [if_pos idle, idle]
        rfl
      · rw [if_neg idle]
        exact represents_installing call.iMark call.oMark foreign foreign.vacant
          (Nat.pos_of_ne_zero idle)
  | cleared =>
      obtain ⟨emptied, vacant⟩ := represents
      unfold interrupted
      rw [writeCommands_of_unchecked vacant.noPrerouting, groupCommands_of_vacant vacant,
        Phase.step]
      by_cases idle : call.stop = 0
      · rw [idle]
        exact ⟨emptied, vacant⟩
      · exact represents_installing call.iMark call.oMark foreign vacant
          (Nat.pos_of_ne_zero idle)
  | prerouting => exact represents_step_prerouting foreign represents
  | both => exact represents_step_both foreign represents
  | output => exact represents_step_output foreign represents

end Stops

def phaseAfter (calls : List Write) : Phase :=
  Runs.run (fun phase (call : Write) => phase.step call.stop) .fresh calls

/-- The machine follows the table through every sequence of stopped calls. -/
theorem represents_phaseAfter (foreign : ForeignTable) (calls : List Write) :
    Represents foreign (phaseAfter calls) (Runs.run interrupted foreign.toMangleTable calls) := by
  have initial : Represents foreign .fresh foreign.toMangleTable := rfl
  refine Runs.run_simulation interrupted (fun phase (call : Write) => phase.step call.stop)
    (fun _ _ => True) (fun table phase => Represents foreign phase table) ?_ initial
    (Runs.meets_of_forall (fun _ _ => trivial) _)
  intro table phase call represents _
  exact represents_step foreign represents

/-! ### A complete call -/

section Complete

variable {table : MangleTable} (iMark oMark : Int)

/-- From the last phase a complete call leaves the second chain as it is, and nothing
that jumps to it. -/
theorem output_unfiltered {foreign : ForeignTable} (represents : Represents foreign .output table) :
    (writeIptableRule iMark oMark table).chains.lookup tsZeroOutput = some [] ∧
      (writeIptableRule iMark oMark table).rulesOf "OUTPUT" = [] := by
  obtain ⟨emptied, _, noPrerouting, empty⟩ := represents
  have there : table.hasChain tsZeroOutput = true := by
    rw [MangleTable.hasChain, empty]
    rfl
  have hooked : Hooked tsZeroPrerouting "PREROUTING" "INPUT" iMark 0 table
      (table.runAll (preroutingCommands iMark)) :=
    hookCommands_hooked (MangleTable.lookup_eq_none_of_not_mentions noPrerouting)
      (by decide) (by decide) (by decide) (by decide) iMark 0
  rw [writeIptableRule_eq_runAll, writeCommands_of_unchecked noPrerouting,
    groupCommands_of_output noPrerouting there]
  refine ⟨?_, ?_⟩
  · rw [hooked.others _ (by decide) (by decide) (by decide), empty]
  · rw [MangleTable.rulesOf, hooked.others _ (by decide) (by decide) (by decide)]
    exact rulesOf_of_emptied emptied "OUTPUT"

theorem installed_iff_of_represents {foreign : ForeignTable} {phase : Phase}
    (represents : Represents foreign phase table) :
    Installed iMark oMark (writeIptableRule iMark oMark table) ↔
      phase ≠ .output ∧ (phase = .fresh → NoMarkRules foreign.toMangleTable) := by
  have emptiedFree {emptiedTable : MangleTable} (emptied : emptiedTable.Emptied) :
      NoMarkRules emptiedTable := by
    intro placed _ member
    rw [rulesOf_of_emptied emptied] at member
    exact List.not_mem_nil member
  have cleared (names : OwnNames table) (there : table.hasChain tsZeroPrerouting = true) :
      Installed iMark oMark (writeIptableRule iMark oMark table) := by
    obtain ⟨emptied, vacant⟩ := cleared_facts names
    rw [writeIptableRule_eq_runAll, writeCommands_of_prerouting names there,
      MangleTable.runAll_append, installed_groups_iff iMark oMark vacant]
    exact emptiedFree emptied
  have written (vacant : Vacant table) :
      Installed iMark oMark (writeIptableRule iMark oMark table) ↔ NoMarkRules table := by
    rw [writeIptableRule_eq_runAll, writeCommands_of_unchecked vacant.noPrerouting,
      groupCommands_of_vacant vacant, installed_groups_iff iMark oMark vacant]
  cases phase with
  | fresh =>
      cases represents
      simp [written foreign.vacant]
  | cleared => simp [written represents.2, emptiedFree represents.1]
  | prerouting => simp [cleared represents.1 represents.2.1]
  | both => simp [cleared represents.1 represents.2.1]
  | output =>
      refine iff_of_false ?_ (by simp)
      intro installed
      have output := installed.output
      rw [(output_unfiltered iMark oMark represents).1] at output
      cases output

end Complete

/-! ### Histories -/

theorem Phase.installing_ne (stop : Nat) :
    Phase.installing stop ≠ .fresh ∧ Phase.installing stop ≠ .output := by
  unfold Phase.installing
  split
  · simp
  · split <;> simp

theorem Phase.step_eq_fresh_iff (phase : Phase) (stop : Nat) :
    phase.step stop = .fresh ↔ phase = .fresh ∧ stop = 0 := by
  cases phase with
  | fresh =>
      simp only [Phase.step]
      split <;> simp [installing_ne, *]
  | cleared => simp [Phase.step, installing_ne]
  | prerouting =>
      simp only [Phase.step]
      split <;> simp [installing_ne]
  | both =>
      simp only [Phase.step]
      split
      · simp
      · split <;> simp [installing_ne]
  | output =>
      simp only [Phase.step]
      split <;> simp

theorem Phase.step_eq_output_iff (phase : Phase) (stop : Nat) :
    phase.step stop = .output ↔ phase = .both ∧ stop = 2 ∨ phase = .output ∧ stop = 0 := by
  cases phase with
  | fresh =>
      simp only [Phase.step]
      split <;> simp [installing_ne]
  | cleared => simp [Phase.step, installing_ne]
  | prerouting =>
      simp only [Phase.step]
      split <;> simp [installing_ne]
  | both =>
      simp only [Phase.step]
      split
      · simp
        omega
      · split <;> simp [installing_ne, *]
  | output =>
      simp only [Phase.step]
      split <;> simp [*]

theorem phaseAfter_concat (calls : List Write) (call : Write) :
    phaseAfter (calls ++ [call]) = (phaseAfter calls).step call.stop :=
  Runs.run_append _ _ calls [call]

theorem phaseAfter_eq_fresh_iff (calls : List Write) :
    phaseAfter calls = .fresh ↔ ∀ call ∈ calls, call.stop = 0 := by
  induction calls using List.reverseRecOn with
  | nil => simp [phaseAfter, Runs.run_nil]
  | append_singleton earlier call ih =>
      rw [phaseAfter_concat, Phase.step_eq_fresh_iff, ih]
      simp [or_imp, forall_and]

theorem phaseAfter_eq_output_iff (calls : List Write) :
    phaseAfter calls = .output ↔ ∃ earlier call later, calls = earlier ++ call :: later ∧
      phaseAfter earlier = .both ∧ call.stop = 2 ∧ ∀ idle ∈ later, idle.stop = 0 := by
  induction calls using List.reverseRecOn with
  | nil => simp [phaseAfter, Runs.run_nil]
  | append_singleton before last ih =>
      rw [phaseAfter_concat, Phase.step_eq_output_iff, ih]
      constructor
      · rintro (⟨both, stopped⟩ | ⟨⟨earlier, call, later, rfl, both, stopped, idles⟩, idle⟩)
        · exact ⟨before, last, [], rfl, both, stopped, by simp⟩
        · refine ⟨earlier, call, later ++ [last], by simp, both, stopped, ?_⟩
          intro other member
          rcases List.mem_append.mp member with inLater | isLast
          · exact idles other inLater
          · rw [List.mem_singleton.mp isLast]
            exact idle
      · rintro ⟨earlier, call, later, split, both, stopped, idles⟩
        -- the stopped call is the last one, or an idle one is
        rcases List.eq_nil_or_concat later with rfl | ⟨middle, final, rfl⟩
        · obtain ⟨rfl, same⟩ := List.append_inj' split rfl
          cases same
          exact Or.inl ⟨both, stopped⟩
        · rw [List.concat_eq_append, ← List.cons_append, ← List.append_assoc] at split
          obtain ⟨rfl, same⟩ := List.append_inj' split rfl
          cases same
          refine Or.inr ⟨⟨earlier, call, middle, rfl, both, stopped, ?_⟩, ?_⟩
          · exact fun idle member => idles idle (by simp [member])
          · exact idles last (by simp)

theorem phase_eq_both_iff {foreign : ForeignTable} {phase : Phase} {table : MangleTable}
    (represents : Represents foreign phase table) :
    phase = .both ↔ table.hasChain tsZeroPrerouting = true ∧ table.hasChain tsZeroOutput = true := by
  have noFirst (unmentioned : ¬table.Mentions preroutingNeedle) :
      ¬table.hasChain tsZeroPrerouting = true :=
    fun there => unmentioned (MangleTable.mentions_of_hasChain there)
  cases phase with
  | fresh =>
      cases represents
      simp [noFirst foreign.vacant.noPrerouting]
  | cleared => simp [noFirst represents.2.noPrerouting]
  | prerouting =>
      have noSecond : ¬table.hasChain tsZeroOutput = true :=
        fun there => represents.2.2 (MangleTable.mentions_of_hasChain there)
      simp [noSecond]
  | both => simp [represents.2.1, represents.2.2]
  | output => simp [noFirst represents.2.2.1]

/-- A call was stopped between its two deletions while both chains were there, and no
command has run since. -/
def Stranded (foreign : ForeignTable) (calls : List Write) : Prop :=
  ∃ earlier call later, calls = earlier ++ call :: later ∧
    (Runs.run interrupted foreign.toMangleTable earlier).hasChain tsZeroPrerouting = true ∧
    (Runs.run interrupted foreign.toMangleTable earlier).hasChain tsZeroOutput = true ∧
    call.stop = 2 ∧ ∀ idle ∈ later, idle.stop = 0

theorem phaseAfter_eq_output_iff_stranded (foreign : ForeignTable) (calls : List Write) :
    phaseAfter calls = .output ↔ Stranded foreign calls := by
  rw [phaseAfter_eq_output_iff]
  unfold Stranded
  simp only [phase_eq_both_iff (represents_phaseAfter foreign _), and_assoc]

/-- After any stopped calls, a complete one leaves the whole set exactly once unless it
finds the second chain stranded or, as the first to run a command, foreign copies of
the mark rules. -/
theorem writeIptableRule_installs_iff (foreign : ForeignTable) (calls : List Write)
    (iMark oMark : Int) :
    Installed iMark oMark
        (writeIptableRule iMark oMark (Runs.run interrupted foreign.toMangleTable calls)) ↔
      ¬Stranded foreign calls ∧
        ((∀ call ∈ calls, call.stop = 0) → NoMarkRules foreign.toMangleTable) := by
  rw [installed_iff_of_represents iMark oMark (represents_phaseAfter foreign calls),
    phaseAfter_eq_fresh_iff, Ne, phaseAfter_eq_output_iff_stranded foreign]

def bareTable : MangleTable where
  chains := ⟨builtinChains.map fun name => ⟨name, []⟩, by
    simp [List.NodupKeys, List.keys, builtinChains]⟩
  builtin := by decide

theorem not_mentions_bareTable : ¬bareTable.Mentions zeroNeedle := by
  have entry : ∀ {name rules}, bareTable.chains.lookup name = some rules →
      name ∈ builtinChains ∧ rules = [] := by
    intro name rules found
    obtain ⟨builtin, member, same⟩ := List.mem_map.mp (AList.mem_lookup_iff.mp found)
    cases same
    exact ⟨member, rfl⟩
  have plain : ∀ name ∈ builtinChains, 'Z' ∉ name.toList := by simp [builtinChains]
  rintro ⟨name, rules, found, inName | ⟨rule, member, _⟩⟩
  · exact plain name (entry found).1 (inName.subset (by simp [zeroNeedle]))
  · rw [(entry found).2] at member
    exact List.not_mem_nil member

def plainTable : ForeignTable where
  toMangleTable := bareTable
  unmarked := by
    rw [Bool.eq_false_iff]
    exact fun found => not_mentions_bareTable
      ((bareTable.mangleTableContains_iff zeroNeedle).mp found)

/-- A complete call, one that stops after `-X TS_ZERO_PREROUTING`, and a complete one:
the output chain is left empty and nothing jumps to it. -/
theorem stopped_clearing_strands_output :
    (writeIptableRule 100 101 (Runs.run interrupted plainTable.toMangleTable
        [⟨100, 101, 12⟩, ⟨100, 101, 2⟩])).chains.lookup tsZeroOutput = some [] ∧
      (writeIptableRule 100 101 (Runs.run interrupted plainTable.toMangleTable
        [⟨100, 101, 12⟩, ⟨100, 101, 2⟩])).rulesOf "OUTPUT" = [] ∧
      ¬Installed 100 101 (writeIptableRule 100 101 (Runs.run interrupted
        plainTable.toMangleTable [⟨100, 101, 12⟩, ⟨100, 101, 2⟩])) := by
  have stranded : phaseAfter [⟨100, 101, 12⟩, ⟨100, 101, 2⟩] = .output := by decide
  have represents := represents_phaseAfter plainTable [⟨100, 101, 12⟩, ⟨100, 101, 2⟩]
  rw [stranded] at represents
  obtain ⟨empty, unreached⟩ := output_unfiltered 100 101 represents
  refine ⟨empty, unreached, ?_⟩
  intro installed
  have output := installed.output
  rw [empty] at output
  cases output

end NetPolicy.Iptables
