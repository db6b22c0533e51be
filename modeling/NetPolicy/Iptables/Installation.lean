/-
Installing the rules.

A call of `write_iptable_rule` looks for its own chains in the listing, clears
the table if the first of them is there, and writes the two groups of rules whose
chain it does not find.  What a call runs depends on the names it finds alone:
both groups in a table without a trace of them, which then has the whole set
exactly once unless some of its rules were there already.
-/

import NetPolicy.Iptables.MangleTable

namespace NetPolicy.Iptables

/-! ### The commands of a call -/

def tsZeroPrerouting : String := "TS_ZERO_PREROUTING"

def tsZeroOutput : String := "TS_ZERO_OUTPUT"

def jumpTo (chain : String) : Rule :=
  { conditions := [], target := some (.chain chain), options := [] }

def restoreMark : Rule :=
  { conditions := [], target := some (.extension "CONNMARK"), options := ["--restore-mark"] }

def saveMark : Rule :=
  { conditions := [], target := some (.extension "CONNMARK"), options := ["--save-mark"] }

def acceptMark (mark : Int) : Rule :=
  { conditions := ["-m", "mark", "--mark", toString mark]
    target := some (.extension "ACCEPT")
    options := [] }

def queueTo (number : Nat) : Rule :=
  { conditions := []
    target := some (.extension "NFQUEUE")
    options := ["--queue-num", toString number, "--queue-bypass"] }

def clearIptablesRule : List Command :=
  [.flush, .deleteChain tsZeroPrerouting, .deleteChain tsZeroOutput]

/-- One group: a chain of its own that is reached from `hook`, and the mark that is
saved in `saving`. -/
def hookCommands (chain hook saving : String) (mark : Int) (queue : Nat) : List Command :=
  [.newChain chain,
    .insertRule hook (jumpTo chain),
    .insertRule hook restoreMark,
    .appendRule chain (acceptMark mark),
    .appendRule chain (queueTo queue),
    .appendRule saving saveMark]

def preroutingCommands (iMark : Int) : List Command :=
  hookCommands tsZeroPrerouting "PREROUTING" "INPUT" iMark 0

def outputCommands (oMark : Int) : List Command :=
  hookCommands tsZeroOutput "OUTPUT" "POSTROUTING" oMark 1

def checkIptablesRule (table : MangleTable) : Bool :=
  table.mangleTableContains tsZeroPrerouting

def writeIptableRule (iMark oMark : Int) (table : MangleTable) : MangleTable :=
  let table :=
    if checkIptablesRule table then table.runAll clearIptablesRule else table
  let table :=
    if !table.mangleTableContains tsZeroPrerouting then table.runAll (preroutingCommands iMark)
    else table
  if !table.mangleTableContains tsZeroOutput then table.runAll (outputCommands oMark)
  else table

def groupCommands (iMark oMark : Int) (table : MangleTable) : List Command :=
  let prerouting :=
    if !table.mangleTableContains tsZeroPrerouting then preroutingCommands iMark else []
  prerouting ++
    if !(table.runAll prerouting).mangleTableContains tsZeroOutput then outputCommands oMark
    else []

def writeCommands (iMark oMark : Int) (table : MangleTable) : List Command :=
  let clearing := if checkIptablesRule table then clearIptablesRule else []
  clearing ++ groupCommands iMark oMark (table.runAll clearing)

theorem writeIptableRule_eq_runAll (iMark oMark : Int) (table : MangleTable) :
    writeIptableRule iMark oMark table = table.runAll (writeCommands iMark oMark table) := by
  have choose : ∀ (test : Bool) (before : MangleTable) (commands : List Command),
      (if test then before.runAll commands else before) =
        before.runAll (if test then commands else []) := by
    intro test before commands
    cases test <;> rfl
  simp only [writeIptableRule, writeCommands, groupCommands, MangleTable.runAll_append, choose]

/-! ### The whole set -/

def jumpRules : List (String × Rule) :=
  [("PREROUTING", jumpTo tsZeroPrerouting), ("OUTPUT", jumpTo tsZeroOutput)]

def markRules : List (String × Rule) :=
  [("PREROUTING", restoreMark), ("INPUT", saveMark), ("OUTPUT", restoreMark),
    ("POSTROUTING", saveMark)]

/-- The rules of one call, each of them once. -/
structure Installed (iMark oMark : Int) (table : MangleTable) : Prop where
  prerouting : table.chains.lookup tsZeroPrerouting = some [acceptMark iMark, queueTo 0]
  output : table.chains.lookup tsZeroOutput = some [acceptMark oMark, queueTo 1]
  jumps : ∀ placed ∈ jumpRules, (table.rulesOf placed.1).count placed.2 = 1
  marks : ∀ placed ∈ markRules, (table.rulesOf placed.1).count placed.2 = 1

/-- No rule that a call places in a built-in chain is there already. -/
def NoMarkRules (table : MangleTable) : Prop :=
  ∀ placed ∈ markRules, placed.2 ∉ table.rulesOf placed.1

/-! ### Looking for the chains -/

def zeroNeedle : Needle where
  text := "TS_ZERO"
  nonempty := by simp
  blankless := by simp
  unbroken := by simp
  foreign := by
    simp only [List.forall_mem_cons, String.reduceToList]
    decide

def preroutingNeedle : Needle where
  text := tsZeroPrerouting
  nonempty := by simp [tsZeroPrerouting]
  blankless := by simp [tsZeroPrerouting]
  unbroken := by simp [tsZeroPrerouting]
  foreign := by
    simp only [tsZeroPrerouting, List.forall_mem_cons, String.reduceToList]
    decide

def outputNeedle : Needle where
  text := tsZeroOutput
  nonempty := by simp [tsZeroOutput]
  blankless := by simp [tsZeroOutput]
  unbroken := by simp [tsZeroOutput]
  foreign := by
    simp only [tsZeroOutput, List.forall_mem_cons, String.reduceToList]
    decide

theorem zero_of_prerouting {word : String} (inside : preroutingNeedle.In word) :
    zeroNeedle.In word := by
  have begins : "TS_ZERO".toList <:+: "TS_ZERO_PREROUTING".toList := by
    simp only [String.reduceToList]
    decide
  exact begins.trans inside

theorem zero_of_output {word : String} (inside : outputNeedle.In word) : zeroNeedle.In word := by
  have begins : "TS_ZERO".toList <:+: "TS_ZERO_OUTPUT".toList := by
    simp only [String.reduceToList]
    decide
  exact begins.trans inside

theorem not_prerouting_in_output : ¬preroutingNeedle.In tsZeroOutput := by
  have apart : ¬"TS_ZERO_PREROUTING".toList <:+: "TS_ZERO_OUTPUT".toList := by
    simp only [String.reduceToList]
    decide
  exact apart

theorem not_output_in_prerouting : ¬outputNeedle.In tsZeroPrerouting := by
  have apart : ¬"TS_ZERO_OUTPUT".toList <:+: "TS_ZERO_PREROUTING".toList := by
    simp only [String.reduceToList]
    decide
  exact apart

def OwnNames (table : MangleTable) : Prop :=
  ∀ name, table.hasChain name = true → zeroNeedle.In name →
    name = tsZeroPrerouting ∨ name = tsZeroOutput

theorem runAll_ownNames {table : MangleTable} {commands : List Command}
    (own : ∀ name, .newChain name ∈ commands → name = tsZeroPrerouting ∨ name = tsZeroOutput)
    (names : OwnNames table) : OwnNames (table.runAll commands) := by
  induction commands generalizing table with
  | nil => exact names
  | cons command rest ih =>
      refine ih (fun name member => own name (List.mem_cons_of_mem command member)) ?_
      intro name there marked
      obtain ⟨rules, found⟩ := Option.isSome_iff_exists.mp there
      rcases MangleTable.run_sound found with ⟨rfl, _⟩ | ⟨earlier, before, _⟩
      · exact own name List.mem_cons_self
      · exact names name (Option.isSome_iff_exists.mpr ⟨earlier, before⟩) marked

/-! ### One group of rules -/

theorem allows_extension {rule : Rule} {extension : String}
    (leaves : rule.target = some (.extension extension)) (table : MangleTable) :
    table.Allows rule := by
  intro name jump
  rw [leaves] at jump
  cases jump

theorem lookup_hookCommands {table : MangleTable} {chain hook saving : String}
    (absent : table.chains.lookup chain = none) (hookOther : hook ≠ chain)
    (savingOther : saving ≠ chain) (apart : saving ≠ hook) (mark : Int) (queue : Nat)
    (other : String) :
    (table.runAll (hookCommands chain hook saving mark queue)).chains.lookup other =
      if other = chain then some [acceptMark mark, queueTo queue]
      else if other = hook then
        (table.chains.lookup hook).map fun rules => restoreMark :: jumpTo chain :: rules
      else if other = saving then
        (table.chains.lookup saving).map fun rules => rules ++ [saveMark]
      else table.chains.lookup other := by
  have jumps : (table.run (.newChain chain)).Allows (jumpTo chain) := by
    intro name jump
    cases jump
    rw [MangleTable.hasChain, MangleTable.lookup_newChain, if_pos rfl]
    rfl
  have accepts : ∀ table : MangleTable, table.Allows (acceptMark mark) := allows_extension rfl
  have queues : ∀ table : MangleTable, table.Allows (queueTo queue) := allows_extension rfl
  have restores : ∀ table : MangleTable, table.Allows restoreMark := allows_extension rfl
  have saves : ∀ table : MangleTable, table.Allows saveMark := allows_extension rfl
  have created : table.rulesOf chain = [] := by
    rw [MangleTable.rulesOf, absent]
    rfl
  simp only [hookCommands, MangleTable.runAll, List.foldl_cons, List.foldl_nil,
    MangleTable.lookup_appendRule _ (saves _), MangleTable.lookup_appendRule _ (queues _),
    MangleTable.lookup_appendRule _ (accepts _), MangleTable.lookup_insertRule _ (restores _),
    MangleTable.lookup_insertRule _ jumps, MangleTable.lookup_newChain, created]
  by_cases own : other = chain
  · simp [own, hookOther.symm, savingOther.symm]
  · by_cases hooked : other = hook
    · simp [hooked, hookOther, apart.symm, Function.comp_def]
    · by_cases saved : other = saving
      · simp [saved, savingOther, apart]
      · simp [own, hooked, saved]

section Groups

variable {chain hook saving : String} {mark : Int} {queue : Nat}

theorem not_deleteChain_mem_hookCommands (name : String) :
    Command.deleteChain name ∉ hookCommands chain hook saving mark queue := by
  simp [hookCommands]

theorem eq_of_newChain_mem_hookCommands {name : String}
    (member : Command.newChain name ∈ hookCommands chain hook saving mark queue) :
    name = chain := by
  simpa [hookCommands] using member

end Groups

theorem not_mentions_of_plain {rule : Rule} (plain : ∀ word ∈ rule.words, 'Z' ∉ word.toList) :
    ¬rule.Mentions outputNeedle := by
  have letter : 'Z' ∈ outputNeedle.text.toList := by simp [outputNeedle, tsZeroOutput]
  rintro ⟨word, member, inside⟩
  exact plain word member (inside.subset letter)

theorem preroutingCommands_silent (iMark : Int) :
    ∀ command ∈ preroutingCommands iMark, ¬command.Carries outputNeedle := by
  have numeral : 'Z' ∉ iMark.repr.toList :=
    SeparatedText.not_mem_signed (by decide) (by decide) iMark
  have jump : ¬(jumpTo tsZeroPrerouting).Mentions outputNeedle := by
    rintro ⟨word, member, inside⟩
    have words : word = "-j" ∨ word = tsZeroPrerouting := by
      simpa [Rule.words, jumpTo, Target.name] using member
    rcases words with rfl | rfl
    · have letter : 'Z' ∈ "-j".toList :=
        inside.subset (by simp [outputNeedle, tsZeroOutput])
      simp at letter
    · exact not_output_in_prerouting inside
  have restore : ¬restoreMark.Mentions outputNeedle :=
    not_mentions_of_plain (by simp [Rule.words, restoreMark, Target.name])
  have accept : ¬(acceptMark iMark).Mentions outputNeedle :=
    not_mentions_of_plain (by simp [Rule.words, acceptMark, Target.name, numeral])
  have queue : ¬(queueTo 0).Mentions outputNeedle :=
    not_mentions_of_plain (by simp [Rule.words, queueTo, Target.name])
  have save : ¬saveMark.Mentions outputNeedle :=
    not_mentions_of_plain (by simp [Rule.words, saveMark, Target.name])
  simp [preroutingCommands, hookCommands, not_output_in_prerouting, jump, restore, accept, queue,
    save]

/-! ### Clearing -/

/-- Neither chain is there, nor any trace of their names. -/
structure Vacant (table : MangleTable) : Prop where
  names : OwnNames table
  noPrerouting : ¬table.Mentions preroutingNeedle
  noOutput : ¬table.Mentions outputNeedle

section Clearing

variable {table : MangleTable}

theorem not_mentions_prerouting (emptied : table.Emptied) (names : OwnNames table)
    (absent : table.chains.lookup tsZeroPrerouting = none) :
    ¬table.Mentions preroutingNeedle := by
  apply emptied.not_mentions
  intro name there inside
  rcases names name there (zero_of_prerouting inside) with rfl | rfl
  · rw [MangleTable.hasChain, absent] at there
    cases there
  · exact not_prerouting_in_output inside

theorem not_mentions_output (emptied : table.Emptied) (names : OwnNames table)
    (absent : table.chains.lookup tsZeroOutput = none) :
    ¬table.Mentions outputNeedle := by
  apply emptied.not_mentions
  intro name there inside
  rcases names name there (zero_of_output inside) with rfl | rfl
  · exact not_output_in_prerouting inside
  · rw [MangleTable.hasChain, absent] at there
    cases there

/-- After two of the three commands only the second chain can be left. -/
theorem unhooked_facts (names : OwnNames table) :
    (table.runAll [.flush, .deleteChain tsZeroPrerouting]).Emptied ∧
      OwnNames (table.runAll [.flush, .deleteChain tsZeroPrerouting]) ∧
      ¬(table.runAll [.flush, .deleteChain tsZeroPrerouting]).Mentions preroutingNeedle ∧
      (table.runAll [.flush, .deleteChain tsZeroPrerouting]).chains.lookup tsZeroOutput =
        (table.chains.lookup tsZeroOutput).map fun _ => [] := by
  have flushed := MangleTable.emptied_flush table
  have emptied := flushed.deleteChain tsZeroPrerouting
  have own : OwnNames (table.runAll [.flush, .deleteChain tsZeroPrerouting]) :=
    runAll_ownNames (by simp) names
  refine ⟨emptied, own, ?_, ?_⟩
  · exact not_mentions_prerouting emptied own (flushed.lookup_deleteChain_self (by decide))
  · rw [← MangleTable.lookup_flush]
    exact MangleTable.lookup_deleteChain_ne (by decide)

theorem cleared_facts (names : OwnNames table) :
    (table.runAll clearIptablesRule).Emptied ∧ Vacant (table.runAll clearIptablesRule) := by
  obtain ⟨unhooked, own, noPrerouting, _⟩ := unhooked_facts names
  have split : table.runAll clearIptablesRule =
      (table.runAll [.flush, .deleteChain tsZeroPrerouting]).run (.deleteChain tsZeroOutput) := rfl
  have emptied : (table.runAll clearIptablesRule).Emptied := by
    rw [split]
    exact unhooked.deleteChain tsZeroOutput
  have names : OwnNames (table.runAll clearIptablesRule) :=
    runAll_ownNames (by simp [clearIptablesRule]) names
  refine ⟨emptied, names, ?_, ?_⟩
  · refine not_mentions_prerouting emptied names ?_
    rw [split, MangleTable.lookup_deleteChain_ne (by decide)]
    exact MangleTable.lookup_eq_none_of_not_mentions noPrerouting
  · refine not_mentions_output emptied names ?_
    rw [split]
    exact unhooked.lookup_deleteChain_self (by decide)

end Clearing

/-! ### What a call runs -/

section Calls

variable {table : MangleTable}

theorem contains_prerouting_iff :
    table.mangleTableContains tsZeroPrerouting = true ↔ table.Mentions preroutingNeedle :=
  table.mangleTableContains_iff preroutingNeedle

theorem contains_output_iff :
    table.mangleTableContains tsZeroOutput = true ↔ table.Mentions outputNeedle :=
  table.mangleTableContains_iff outputNeedle

theorem groupCommands_of_vacant (vacant : Vacant table) (iMark oMark : Int) :
    groupCommands iMark oMark table = preroutingCommands iMark ++ outputCommands oMark := by
  have first : table.mangleTableContains tsZeroPrerouting = false :=
    Bool.eq_false_iff.mpr fun found => vacant.noPrerouting (contains_prerouting_iff.mp found)
  have unmentioned : ¬(table.runAll (preroutingCommands iMark)).Mentions outputNeedle :=
    MangleTable.runAll_not_mentions (preroutingCommands_silent iMark) vacant.noOutput
  have second : (table.runAll (preroutingCommands iMark)).mangleTableContains tsZeroOutput =
      false :=
    Bool.eq_false_iff.mpr fun found => unmentioned (contains_output_iff.mp found)
  simp only [groupCommands, first, second, Bool.not_false, if_true]

theorem writeCommands_of_unchecked (noPrerouting : ¬table.Mentions preroutingNeedle)
    (iMark oMark : Int) :
    writeCommands iMark oMark table = groupCommands iMark oMark table := by
  have unchecked : checkIptablesRule table = false :=
    Bool.eq_false_iff.mpr fun found => noPrerouting (contains_prerouting_iff.mp found)
  simp only [writeCommands, unchecked, Bool.false_eq_true, if_false, List.nil_append]
  rfl

theorem writeCommands_of_prerouting (names : OwnNames table)
    (there : table.hasChain tsZeroPrerouting = true) (iMark oMark : Int) :
    writeCommands iMark oMark table =
      clearIptablesRule ++ (preroutingCommands iMark ++ outputCommands oMark) := by
  have mentioned : table.Mentions preroutingNeedle := MangleTable.mentions_of_hasChain there
  have checked : checkIptablesRule table = true := contains_prerouting_iff.mpr mentioned
  rw [← groupCommands_of_vacant (cleared_facts names).2 iMark oMark]
  simp only [writeCommands, checked, if_true]

/-- With the second chain there and no trace of the first, the second group is skipped. -/
theorem groupCommands_of_output (noPrerouting : ¬table.Mentions preroutingNeedle)
    (there : table.hasChain tsZeroOutput = true) (iMark oMark : Int) :
    groupCommands iMark oMark table = preroutingCommands iMark := by
  have first : table.mangleTableContains tsZeroPrerouting = false :=
    Bool.eq_false_iff.mpr fun found => noPrerouting (contains_prerouting_iff.mp found)
  have stays : (table.runAll (preroutingCommands iMark)).hasChain tsZeroOutput = true :=
    MangleTable.runAll_hasChain (not_deleteChain_mem_hookCommands tsZeroOutput) there
  have mentioned : (table.runAll (preroutingCommands iMark)).Mentions outputNeedle :=
    MangleTable.mentions_of_hasChain stays
  have second : (table.runAll (preroutingCommands iMark)).mangleTableContains tsZeroOutput =
      true := contains_output_iff.mpr mentioned
  simp only [groupCommands, first, second, Bool.not_false, Bool.not_true, Bool.false_eq_true,
    if_true, if_false, List.append_nil]

end Calls

/-! ### Both groups -/

section Complete

variable {table : MangleTable} (iMark oMark : Int)

theorem lookup_builtin (table : MangleTable) {name : String} (builtin : name ∈ builtinChains) :
    table.chains.lookup name = some (table.rulesOf name) := by
  obtain ⟨rules, found⟩ := Option.isSome_iff_exists.mp (table.builtin name builtin)
  rw [MangleTable.rulesOf, found]
  rfl

structure Hooked (chain hook saving : String) (mark : Int) (queue : Nat)
    (before after : MangleTable) : Prop where
  own : after.chains.lookup chain = some [acceptMark mark, queueTo queue]
  hooked : after.rulesOf hook = restoreMark :: jumpTo chain :: before.rulesOf hook
  saved : after.rulesOf saving = before.rulesOf saving ++ [saveMark]
  others : ∀ other, other ≠ chain → other ≠ hook → other ≠ saving →
    after.chains.lookup other = before.chains.lookup other

theorem hookCommands_hooked {chain hook saving : String}
    (absent : table.chains.lookup chain = none) (own : chain ∉ builtinChains)
    (hookBuiltin : hook ∈ builtinChains) (savingBuiltin : saving ∈ builtinChains)
    (apart : saving ≠ hook) (mark : Int) (queue : Nat) :
    Hooked chain hook saving mark queue table
      (table.runAll (hookCommands chain hook saving mark queue)) := by
  have hookOther : hook ≠ chain := by
    rintro rfl
    exact own hookBuiltin
  have savingOther : saving ≠ chain := by
    rintro rfl
    exact own savingBuiltin
  have written := lookup_hookCommands absent hookOther savingOther apart mark queue
  constructor
  · rw [written, if_pos rfl]
  · rw [MangleTable.rulesOf, written, if_neg hookOther, if_pos rfl,
      lookup_builtin table hookBuiltin]
    rfl
  · rw [MangleTable.rulesOf, written, if_neg savingOther, if_neg apart, if_pos rfl,
      lookup_builtin table savingBuiltin]
    rfl
  · intro other notOwn notHook notSaving
    rw [written, if_neg notOwn, if_neg notHook, if_neg notSaving]

theorem not_mem_jump {needle : Needle} (unmentioned : ¬table.Mentions needle) {hook : String}
    (builtin : hook ∈ builtinChains) : jumpTo needle.text ∉ table.rulesOf hook := by
  intro member
  refine unmentioned ⟨hook, _, lookup_builtin table builtin, Or.inr ⟨_, member, needle.text, ?_,
    List.infix_refl _⟩⟩
  simp [Rule.words, jumpTo, Target.name]

theorem count_restore_iff (chain : String) (rules : List Rule) :
    (restoreMark :: jumpTo chain :: rules).count restoreMark = 1 ↔ restoreMark ∉ rules := by
  have different : jumpTo chain ≠ restoreMark := by simp [jumpTo, restoreMark]
  rw [List.count_cons_self, List.count_cons_of_ne different, Nat.succ_inj, List.count_eq_zero]

theorem count_jump_iff (chain : String) (rules : List Rule) :
    (restoreMark :: jumpTo chain :: rules).count (jumpTo chain) = 1 ↔ jumpTo chain ∉ rules := by
  have different : restoreMark ≠ jumpTo chain := by simp [jumpTo, restoreMark]
  rw [List.count_cons_of_ne different, List.count_cons_self, Nat.succ_inj, List.count_eq_zero]

theorem count_save_iff (rules : List Rule) :
    (rules ++ [saveMark]).count saveMark = 1 ↔ saveMark ∉ rules := by
  rw [List.count_append, List.count_singleton_self, Nat.succ_inj, List.count_eq_zero]

theorem Hooked.rulesOf_other {chain hook saving : String} {mark : Int} {queue : Nat}
    {before after : MangleTable} (group : Hooked chain hook saving mark queue before after)
    {other : String} (notOwn : other ≠ chain) (notHook : other ≠ hook)
    (notSaving : other ≠ saving) : after.rulesOf other = before.rulesOf other := by
  rw [MangleTable.rulesOf, group.others other notOwn notHook notSaving]
  rfl

theorem hooked_groups (vacant : Vacant table) (iMark oMark : Int) :
    ∃ middle, Hooked tsZeroPrerouting "PREROUTING" "INPUT" iMark 0 table middle ∧
      Hooked tsZeroOutput "OUTPUT" "POSTROUTING" oMark 1 middle
        (table.runAll (preroutingCommands iMark ++ outputCommands oMark)) := by
  have first : Hooked tsZeroPrerouting "PREROUTING" "INPUT" iMark 0 table
      (table.runAll (preroutingCommands iMark)) :=
    hookCommands_hooked (MangleTable.lookup_eq_none_of_not_mentions vacant.noPrerouting)
      (by decide) (by decide) (by decide) (by decide) iMark 0
  have noOutput : (table.runAll (preroutingCommands iMark)).chains.lookup tsZeroOutput = none := by
    rw [first.others _ (by decide) (by decide) (by decide)]
    exact MangleTable.lookup_eq_none_of_not_mentions vacant.noOutput
  rw [MangleTable.runAll_append]
  exact ⟨_, first,
    hookCommands_hooked noOutput (by decide) (by decide) (by decide) (by decide) oMark 1⟩

/-- Both groups in a table without a trace of the chains: only a rule that was there
before is there twice. -/
theorem installed_groups_iff (vacant : Vacant table) :
    Installed iMark oMark
        (table.runAll (preroutingCommands iMark ++ outputCommands oMark)) ↔
      NoMarkRules table := by
  obtain ⟨middle, first, second⟩ := hooked_groups vacant iMark oMark
  generalize table.runAll (preroutingCommands iMark ++ outputCommands oMark) = final at second ⊢
  have prerouting : final.rulesOf "PREROUTING" =
      restoreMark :: jumpTo tsZeroPrerouting :: table.rulesOf "PREROUTING" := by
    rw [second.rulesOf_other (by decide) (by decide) (by decide), first.hooked]
  have input : final.rulesOf "INPUT" = table.rulesOf "INPUT" ++ [saveMark] := by
    rw [second.rulesOf_other (by decide) (by decide) (by decide), first.saved]
  have output : final.rulesOf "OUTPUT" =
      restoreMark :: jumpTo tsZeroOutput :: table.rulesOf "OUTPUT" := by
    rw [second.hooked, first.rulesOf_other (by decide) (by decide) (by decide)]
  have postrouting : final.rulesOf "POSTROUTING" = table.rulesOf "POSTROUTING" ++ [saveMark] := by
    rw [second.saved, first.rulesOf_other (by decide) (by decide) (by decide)]
  have firstJump : jumpTo tsZeroPrerouting ∉ table.rulesOf "PREROUTING" :=
    not_mem_jump vacant.noPrerouting (by decide)
  have secondJump : jumpTo tsZeroOutput ∉ table.rulesOf "OUTPUT" :=
    not_mem_jump vacant.noOutput (by decide)
  have jumps : ∀ placed ∈ jumpRules, (final.rulesOf placed.1).count placed.2 = 1 := by
    simp only [jumpRules, List.forall_mem_cons, List.not_mem_nil, false_imp_iff, implies_true,
      and_true, prerouting, output, count_jump_iff]
    exact ⟨firstJump, secondJump⟩
  have marks : (∀ placed ∈ markRules, (final.rulesOf placed.1).count placed.2 = 1) ↔
      NoMarkRules table := by
    simp only [NoMarkRules, markRules, List.forall_mem_cons, List.not_mem_nil, false_imp_iff,
      implies_true, and_true, prerouting, input, output, postrouting, count_restore_iff,
      count_save_iff]
  constructor
  · intro installed
    exact marks.mp installed.marks
  · intro free
    exact
      { prerouting := by
          rw [second.others _ (by decide) (by decide) (by decide)]
          exact first.own
        output := second.own
        jumps := jumps
        marks := marks.mpr free }

theorem rulesOf_of_emptied (emptied : table.Emptied) (name : String) : table.rulesOf name = [] := by
  unfold MangleTable.rulesOf
  cases found : table.chains.lookup name with
  | none => rfl
  | some rules => exact emptied name rules found

end Complete

end NetPolicy.Iptables
