/-
The mangle table and the commands that edit it.

A table is a set of chains with their rules; the built-in chains are always
there.  A command that is not legal in a table leaves it as it is.  The listing
is the text of `iptables -t mangle -S`, which the installer searches for chain
names: a name is found in it exactly if a chain is called so or a word of some
rule contains it.
-/

import Mathlib.Data.List.Infix
import NetPolicy.Library.Containers
import NetPolicy.Library.SeparatedText

namespace NetPolicy.Iptables

open SeparatedText

/-! ### Rules and tables -/

inductive Target where
  | chain (name : String)
  | extension (name : String)
deriving DecidableEq, Repr

def Target.name : Target → String
  | .chain name => name
  | .extension name => name

/-- The words before `-j`, the target and the target's own options. -/
structure Rule where
  conditions : List String
  target : Option Target
  options : List String
deriving DecidableEq, Repr

def Rule.words (rule : Rule) : List String :=
  rule.conditions ++
    (match rule.target with
      | none => []
      | some target => ["-j", target.name]) ++ rule.options

def builtinChains : List String := ["PREROUTING", "INPUT", "FORWARD", "OUTPUT", "POSTROUTING"]

structure MangleTable where
  chains : HashMap String (List Rule)
  builtin : ∀ name ∈ builtinChains, (chains.lookup name).isSome = true

namespace MangleTable

def hasChain (table : MangleTable) (name : String) : Bool :=
  (table.chains.lookup name).isSome

def rulesOf (table : MangleTable) (name : String) : List Rule :=
  (table.chains.lookup name).getD []

def Referenced (table : MangleTable) (name : String) : Prop :=
  ∃ entry ∈ table.chains.entries, ∃ rule ∈ entry.2, rule.target = some (.chain name)

instance (table : MangleTable) (name : String) : Decidable (table.Referenced name) :=
  inferInstanceAs (Decidable (∃ entry ∈ table.chains.entries, ∃ rule ∈ entry.2, _))

/-- A user chain that is there, empty and no rule's target. -/
def Deletable (table : MangleTable) (name : String) : Prop :=
  name ∉ builtinChains ∧ table.chains.lookup name = some [] ∧ ¬table.Referenced name

instance (table : MangleTable) (name : String) : Decidable (table.Deletable name) :=
  inferInstanceAs (Decidable (_ ∧ _ ∧ _))

def Allows (table : MangleTable) (rule : Rule) : Prop :=
  ∀ name, rule.target = some (.chain name) → table.hasChain name = true

instance (table : MangleTable) (rule : Rule) : Decidable (table.Allows rule) :=
  match shape : rule.target with
  | none => .isTrue fun _ jump => by rw [shape] at jump; cases jump
  | some (.extension _) => .isTrue fun _ jump => by rw [shape] at jump; cases jump
  | some (.chain name) =>
      decidable_of_iff (table.hasChain name = true)
        ⟨fun there _ jump => by rw [shape] at jump; cases jump; exact there,
          fun allowed => allowed name shape⟩

/-! ### Commands -/

def put (table : MangleTable) (name : String) (rules : List Rule) : MangleTable where
  chains := table.chains.insert name rules
  builtin := by
    intro other member
    rw [HashMap.lookup_insert_eq]
    split
    · rfl
    · exact table.builtin other member

def update (table : MangleTable) (chain : String) (rule : Rule)
    (edit : List Rule → List Rule) : MangleTable :=
  match table.chains.lookup chain with
  | none => table
  | some rules => if table.Allows rule then table.put chain (edit rules) else table

def emptied (table : MangleTable) : MangleTable where
  chains := table.chains.mapValues fun _ => []
  builtin := by
    intro name member
    rw [HashMap.lookup_mapValues, Option.isSome_map]
    exact table.builtin name member

def without (table : MangleTable) (name : String) (user : name ∉ builtinChains) : MangleTable where
  chains := table.chains.erase name
  builtin := by
    intro other member
    have different : other ≠ name := by
      intro same
      rw [same] at member
      exact user member
    rw [HashMap.lookup_erase_eq, if_neg different]
    exact table.builtin other member

end MangleTable

inductive Command where
  | newChain (name : String)
  | insertRule (chain : String) (rule : Rule)
  | appendRule (chain : String) (rule : Rule)
  | flush
  | deleteChain (name : String)
deriving DecidableEq, Repr

namespace MangleTable

def run (table : MangleTable) : Command → MangleTable
  | .newChain name => if table.hasChain name then table else table.put name []
  | .insertRule chain rule => table.update chain rule fun rules => rule :: rules
  | .appendRule chain rule => table.update chain rule fun rules => rules ++ [rule]
  | .flush => table.emptied
  | .deleteChain name =>
      if legal : table.Deletable name then table.without name legal.1 else table

def runAll (table : MangleTable) (commands : List Command) : MangleTable :=
  commands.foldl run table

/-! ### What a command does -/

section Lookups

variable (table : MangleTable)

theorem lookup_newChain (name other : String) :
    (table.run (.newChain name)).chains.lookup other =
      if other = name then some (table.rulesOf name) else table.chains.lookup other := by
  rw [run, rulesOf]
  by_cases there : table.hasChain name = true
  · obtain ⟨rules, found⟩ := Option.isSome_iff_exists.mp there
    rw [if_pos there, found]
    split
    · rename_i same
      rw [same, found]
      rfl
    · rfl
  · have missing : table.chains.lookup name = none := Option.not_isSome_iff_eq_none.mp there
    rw [if_neg there, missing]
    exact HashMap.lookup_insert_eq table.chains name other []

theorem lookup_update {rule : Rule} (allowed : table.Allows rule) (chain other : String)
    (edit : List Rule → List Rule) :
    (table.update chain rule edit).chains.lookup other =
      if other = chain then (table.chains.lookup chain).map edit
      else table.chains.lookup other := by
  unfold update
  cases found : table.chains.lookup chain with
  | none =>
      dsimp only
      split
      · rename_i same
        rw [same, found]
        rfl
      · rfl
  | some rules =>
      dsimp only
      rw [if_pos allowed]
      exact HashMap.lookup_insert_eq table.chains chain other (edit rules)

theorem lookup_insertRule {rule : Rule} (allowed : table.Allows rule) (chain other : String) :
    (table.run (.insertRule chain rule)).chains.lookup other =
      if other = chain then (table.chains.lookup chain).map fun rules => rule :: rules
      else table.chains.lookup other :=
  lookup_update table allowed chain other _

theorem lookup_appendRule {rule : Rule} (allowed : table.Allows rule) (chain other : String) :
    (table.run (.appendRule chain rule)).chains.lookup other =
      if other = chain then (table.chains.lookup chain).map fun rules => rules ++ [rule]
      else table.chains.lookup other :=
  lookup_update table allowed chain other _

theorem lookup_flush (other : String) :
    (table.run .flush).chains.lookup other = (table.chains.lookup other).map fun _ => [] :=
  HashMap.lookup_mapValues table.chains (fun _ => []) other

theorem lookup_deleteChain {name : String} (legal : table.Deletable name) (other : String) :
    (table.run (.deleteChain name)).chains.lookup other =
      if other = name then none else table.chains.lookup other := by
  rw [run, dif_pos legal]
  exact HashMap.lookup_erase_eq table.chains name other

end Lookups

theorem runAll_append (table : MangleTable) (first second : List Command) :
    table.runAll (first ++ second) = (table.runAll first).runAll second :=
  List.foldl_append

end MangleTable

def Command.Writes (rule : Rule) : Command → Prop
  | .insertRule _ written => rule = written
  | .appendRule _ written => rule = written
  | .newChain _ => False
  | .flush => False
  | .deleteChain _ => False

namespace MangleTable

theorem lookup_update_eq (table : MangleTable) (chain other : String) (rule : Rule)
    (edit : List Rule → List Rule) :
    (table.update chain rule edit).chains.lookup other = table.chains.lookup other ∨
      other = chain ∧ (table.update chain rule edit).chains.lookup other =
        (table.chains.lookup other).map edit := by
  by_cases allowed : table.Allows rule
  · rw [lookup_update table allowed]
    by_cases same : other = chain
    · rw [if_pos same, same]
      exact Or.inr ⟨rfl, rfl⟩
    · rw [if_neg same]
      exact Or.inl rfl
  · unfold update
    cases table.chains.lookup chain with
    | none => exact Or.inl rfl
    | some earlier =>
        dsimp only
        rw [if_neg allowed]
        exact Or.inl rfl

theorem update_sound {table : MangleTable} {chain name : String} {written : Rule}
    {edit : List Rule → List Rule} {rules : List Rule}
    (edits : ∀ earlier, ∀ rule ∈ edit earlier, rule ∈ earlier ∨ rule = written)
    (found : (table.update chain written edit).chains.lookup name = some rules) :
    ∃ earlier, table.chains.lookup name = some earlier ∧
      ∀ rule ∈ rules, rule ∈ earlier ∨ rule = written := by
  rcases table.lookup_update_eq chain name written edit with same | ⟨_, edited⟩
  · rw [same] at found
    exact ⟨rules, found, fun _ member => Or.inl member⟩
  · rw [edited] at found
    obtain ⟨earlier, there, rfl⟩ := Option.map_eq_some_iff.mp found
    exact ⟨earlier, there, edits earlier⟩

theorem run_sound {table : MangleTable} {command : Command} {name : String} {rules : List Rule}
    (found : (table.run command).chains.lookup name = some rules) :
    command = .newChain name ∧ rules = [] ∨
      ∃ earlier, table.chains.lookup name = some earlier ∧
        ∀ rule ∈ rules, rule ∈ earlier ∨ command.Writes rule := by
  have kept : table.chains.lookup name = some rules →
      ∃ earlier, table.chains.lookup name = some earlier ∧
        ∀ rule ∈ rules, rule ∈ earlier ∨ command.Writes rule :=
    fun same => ⟨rules, same, fun _ member => Or.inl member⟩
  cases command with
  | newChain created =>
      rw [run] at found
      split at found
      · exact Or.inr (kept found)
      · change (table.chains.insert created []).lookup name = some rules at found
        rw [HashMap.lookup_insert_eq] at found
        split at found
        · rename_i same
          rw [same]
          exact Or.inl ⟨rfl, (Option.some.inj found).symm⟩
        · exact Or.inr (kept found)
  | insertRule chain written =>
      refine Or.inr (update_sound ?_ found)
      intro earlier rule member
      exact (List.mem_cons.mp member).symm
  | appendRule chain written =>
      refine Or.inr (update_sound ?_ found)
      intro earlier rule member
      rcases List.mem_append.mp member with old | new
      · exact Or.inl old
      · exact Or.inr (List.mem_singleton.mp new)
  | flush =>
      rw [lookup_flush] at found
      obtain ⟨earlier, there, rfl⟩ := Option.map_eq_some_iff.mp found
      exact Or.inr ⟨earlier, there, fun _ member => absurd member List.not_mem_nil⟩
  | deleteChain deleted =>
      by_cases legal : table.Deletable deleted
      · rw [lookup_deleteChain table legal] at found
        split at found
        · cases found
        · exact Or.inr (kept found)
      · rw [run, dif_neg legal] at found
        exact Or.inr (kept found)

theorem hasChain_update {table : MangleTable} {name : String} (there : table.hasChain name = true)
    (chain : String) (rule : Rule) (edit : List Rule → List Rule) :
    (table.update chain rule edit).hasChain name = true := by
  unfold hasChain
  rcases table.lookup_update_eq chain name rule edit with same | ⟨_, edited⟩
  · rw [same]
    exact there
  · rw [edited, Option.isSome_map]
    exact there

theorem hasChain_run {table : MangleTable} {name : String} (there : table.hasChain name = true)
    {command : Command} (other : command ≠ .deleteChain name) :
    (table.run command).hasChain name = true := by
  cases command with
  | newChain created =>
      unfold hasChain
      rw [lookup_newChain]
      split
      · rfl
      · exact there
  | insertRule chain rule => exact hasChain_update there chain rule _
  | appendRule chain rule => exact hasChain_update there chain rule _
  | flush =>
      unfold hasChain
      rw [lookup_flush, Option.isSome_map]
      exact there
  | deleteChain deleted =>
      have different : name ≠ deleted := by
        rintro rfl
        exact other rfl
      by_cases legal : table.Deletable deleted
      · unfold hasChain
        rw [lookup_deleteChain table legal, if_neg different]
        exact there
      · rw [run, dif_neg legal]
        exact there

/-! ### The listing -/

def headerWords (name : String) : List String :=
  if name ∈ builtinChains then ["-P", name, "ACCEPT"] else ["-N", name]

/-- The words of `iptables -t mangle -S`, line by line. -/
def lines (table : MangleTable) : List (List String) :=
  (table.chains.entries.map fun entry => headerWords entry.1) ++
    table.chains.entries.flatMap fun entry =>
      entry.2.map fun rule => ["-A", entry.1] ++ rule.words

def listing (table : MangleTable) : List Char :=
  (table.lines.map fun line => [' '].intercalate (line.map String.toList)).flatMap
    fun line => line ++ ['\n']

def mangleTableContains (table : MangleTable) (needle : String) : Bool :=
  decide (needle.toList <:+: table.listing)

end MangleTable

/-- A text that the listing contains only inside a single word that is not one of its own. -/
structure Needle where
  text : String
  nonempty : text.toList ≠ []
  blankless : ' ' ∉ text.toList
  unbroken : '\n' ∉ text.toList
  foreign : ∀ word ∈ ["-P", "-N", "-A", "ACCEPT"], ¬text.toList <:+: word.toList

def Needle.In (needle : Needle) (word : String) : Prop := needle.text.toList <:+: word.toList

instance (needle : Needle) (word : String) : Decidable (needle.In word) :=
  inferInstanceAs (Decidable (_ <:+: _))

def Rule.Mentions (needle : Needle) (rule : Rule) : Prop := ∃ word ∈ rule.words, needle.In word

instance (needle : Needle) (rule : Rule) : Decidable (rule.Mentions needle) :=
  inferInstanceAs (Decidable (∃ word ∈ rule.words, _))

namespace MangleTable

def Mentions (table : MangleTable) (needle : Needle) : Prop :=
  ∃ name rules, table.chains.lookup name = some rules ∧
    (needle.In name ∨ ∃ rule ∈ rules, rule.Mentions needle)

theorem in_headerWords_iff (needle : Needle) (name : String) :
    (∃ word ∈ headerWords name, needle.In word) ↔ needle.In name := by
  have policy : ¬needle.In "-P" := needle.foreign "-P" (by simp)
  have accept : ¬needle.In "ACCEPT" := needle.foreign "ACCEPT" (by simp)
  have new : ¬needle.In "-N" := needle.foreign "-N" (by simp)
  unfold headerWords
  split
  · simp [policy, accept]
  · simp [new]

theorem in_ruleLine_iff (needle : Needle) (name : String) (rule : Rule) :
    (∃ word ∈ ["-A", name] ++ rule.words, needle.In word) ↔
      needle.In name ∨ rule.Mentions needle := by
  have append : ¬needle.In "-A" := needle.foreign "-A" (by simp)
  unfold Rule.Mentions
  simp [append]

theorem mangleTableContains_iff (table : MangleTable) (needle : Needle) :
    table.mangleTableContains needle.text = true ↔ table.Mentions needle := by
  have words : table.mangleTableContains needle.text = true ↔
      ∃ line ∈ table.lines, ∃ word ∈ line, needle.In word := by
    unfold mangleTableContains listing
    rw [decide_eq_true_iff, infix_lines_iff needle.unbroken needle.nonempty]
    simp only [List.mem_map, exists_exists_and_eq_and,
      infix_intercalate_iff needle.blankless needle.nonempty]
    rfl
  rw [words]
  constructor
  · rintro ⟨line, member, contained⟩
    rcases List.mem_append.mp member with header | ruleLine
    · obtain ⟨⟨name, rules⟩, entry, rfl⟩ := List.mem_map.mp header
      exact ⟨name, rules, AList.mem_lookup_iff.mpr entry,
        Or.inl ((in_headerWords_iff needle name).mp contained)⟩
    · obtain ⟨⟨name, rules⟩, entry, inChain⟩ := List.mem_flatMap.mp ruleLine
      obtain ⟨rule, ruleMember, rfl⟩ := List.mem_map.mp inChain
      refine ⟨name, rules, AList.mem_lookup_iff.mpr entry, ?_⟩
      rcases (in_ruleLine_iff needle name rule).mp contained with inName | inRule
      · exact Or.inl inName
      · exact Or.inr ⟨rule, ruleMember, inRule⟩
  · rintro ⟨name, rules, found, inName | ⟨rule, ruleMember, inRule⟩⟩
    · have entry := AList.mem_lookup_iff.mp found
      exact ⟨headerWords name, List.mem_append_left _ (List.mem_map.mpr ⟨_, entry, rfl⟩),
        (in_headerWords_iff needle name).mpr inName⟩
    · have entry := AList.mem_lookup_iff.mp found
      refine ⟨["-A", name] ++ rule.words, List.mem_append_right _ ?_,
        (in_ruleLine_iff needle name rule).mpr (Or.inr inRule)⟩
      exact List.mem_flatMap.mpr ⟨_, entry, List.mem_map.mpr ⟨rule, ruleMember, rfl⟩⟩

theorem lookup_eq_none_of_not_mentions {table : MangleTable} {needle : Needle}
    (unmentioned : ¬table.Mentions needle) : table.chains.lookup needle.text = none := by
  cases found : table.chains.lookup needle.text with
  | none => rfl
  | some rules =>
      exact absurd ⟨needle.text, rules, found, Or.inl (List.infix_refl _)⟩ unmentioned

theorem mentions_of_hasChain {table : MangleTable} {needle : Needle}
    (there : table.hasChain needle.text = true) : table.Mentions needle := by
  obtain ⟨rules, found⟩ := Option.isSome_iff_exists.mp there
  exact ⟨needle.text, rules, found, Or.inl (List.infix_refl _)⟩

def Emptied (table : MangleTable) : Prop :=
  ∀ name rules, table.chains.lookup name = some rules → rules = []

theorem Emptied.not_mentions {table : MangleTable} (emptied : table.Emptied) {needle : Needle}
    (unnamed : ∀ name, table.hasChain name = true → ¬needle.In name) : ¬table.Mentions needle := by
  rintro ⟨name, rules, found, inName | ⟨rule, member, _⟩⟩
  · exact unnamed name (Option.isSome_iff_exists.mpr ⟨rules, found⟩) inName
  · rw [emptied name rules found] at member
    exact absurd member List.not_mem_nil

end MangleTable

def Command.Carries (needle : Needle) (command : Command) : Prop :=
  (∃ name, command = .newChain name ∧ needle.In name) ∨
    ∃ rule, command.Writes rule ∧ rule.Mentions needle

namespace Command

variable {needle : Needle}

@[simp] theorem carries_newChain {name : String} :
    (Command.newChain name).Carries needle ↔ needle.In name := by
  simp [Carries, Writes]

@[simp] theorem carries_insertRule {chain : String} {rule : Rule} :
    (Command.insertRule chain rule).Carries needle ↔ rule.Mentions needle := by
  simp [Carries, Writes]

@[simp] theorem carries_appendRule {chain : String} {rule : Rule} :
    (Command.appendRule chain rule).Carries needle ↔ rule.Mentions needle := by
  simp [Carries, Writes]

@[simp] theorem not_carries_flush : ¬Command.flush.Carries needle := by
  simp [Carries, Writes]

end Command

namespace MangleTable

theorem mentions_run {table : MangleTable} {needle : Needle} {command : Command}
    (mentions : (table.run command).Mentions needle) :
    table.Mentions needle ∨ command.Carries needle := by
  obtain ⟨name, rules, found, inside⟩ := mentions
  rcases run_sound found with ⟨created, rfl⟩ | ⟨earlier, there, sources⟩
  · rcases inside with inName | ⟨rule, member, _⟩
    · exact Or.inr (Or.inl ⟨name, created, inName⟩)
    · exact absurd member List.not_mem_nil
  · rcases inside with inName | ⟨rule, member, inRule⟩
    · exact Or.inl ⟨name, earlier, there, Or.inl inName⟩
    · rcases sources rule member with old | written
      · exact Or.inl ⟨name, earlier, there, Or.inr ⟨rule, old, inRule⟩⟩
      · exact Or.inr (Or.inr ⟨rule, written, inRule⟩)

/-! ### What a run of commands keeps -/

section Runs

variable {table : MangleTable} {commands : List Command}

theorem runAll_hasChain {name : String} (keeps : .deleteChain name ∉ commands)
    (there : table.hasChain name = true) : (table.runAll commands).hasChain name = true := by
  induction commands generalizing table with
  | nil => exact there
  | cons command rest ih =>
      have other : command ≠ .deleteChain name := by
        rintro rfl
        exact keeps List.mem_cons_self
      exact ih (fun member => keeps (List.mem_cons_of_mem command member))
        (hasChain_run there other)

theorem runAll_creates {name : String} (creates : .newChain name ∈ commands)
    (keeps : .deleteChain name ∉ commands) : (table.runAll commands).hasChain name = true := by
  induction commands generalizing table with
  | nil => exact absurd creates List.not_mem_nil
  | cons command rest ih =>
      have later : .deleteChain name ∉ rest :=
        fun member => keeps (List.mem_cons_of_mem command member)
      change ((table.run command).runAll rest).hasChain name = true
      rcases List.mem_cons.mp creates with rfl | inRest
      · have created : (table.run (.newChain name)).hasChain name = true := by
          rw [hasChain, lookup_newChain, if_pos rfl]
          rfl
        exact runAll_hasChain later created
      · exact ih inRest later

theorem runAll_not_mentions {needle : Needle}
    (silent : ∀ command ∈ commands, ¬command.Carries needle)
    (unmentioned : ¬table.Mentions needle) : ¬(table.runAll commands).Mentions needle := by
  induction commands generalizing table with
  | nil => exact unmentioned
  | cons command rest ih =>
      have stepped : ¬(table.run command).Mentions needle := by
        intro mentions
        rcases mentions_run mentions with before | carried
        · exact unmentioned before
        · exact silent command List.mem_cons_self carried
      exact ih (fun other member => silent other (List.mem_cons_of_mem command member)) stepped

end Runs

/-! ### Deleting chains of an emptied table -/

section Deletion

variable {table : MangleTable} {name : String}

theorem emptied_flush (table : MangleTable) : (table.run .flush).Emptied := by
  intro name rules found
  rw [lookup_flush] at found
  obtain ⟨earlier, _, rfl⟩ := Option.map_eq_some_iff.mp found
  rfl

theorem Emptied.deleteChain (emptied : table.Emptied) (name : String) :
    (table.run (.deleteChain name)).Emptied := by
  intro other rules found
  rcases run_sound found with ⟨created, _⟩ | ⟨earlier, there, sources⟩
  · cases created
  · rw [emptied other earlier there] at sources
    refine List.eq_nil_iff_forall_not_mem.mpr ?_
    intro rule member
    rcases sources rule member with old | written
    · exact List.not_mem_nil old
    · exact written

theorem Emptied.deletable (emptied : table.Emptied) (user : name ∉ builtinChains)
    (there : table.hasChain name = true) : table.Deletable name := by
  obtain ⟨rules, found⟩ := Option.isSome_iff_exists.mp there
  refine ⟨user, ?_, ?_⟩
  · rw [found, emptied name rules found]
  · rintro ⟨⟨other, others⟩, entry, rule, member, _⟩
    rw [emptied other others (AList.mem_lookup_iff.mpr entry)] at member
    exact List.not_mem_nil member

/-- Deleting a user chain of an emptied table leaves it absent, whether it was there or not. -/
theorem Emptied.lookup_deleteChain_self (emptied : table.Emptied)
    (user : name ∉ builtinChains) :
    (table.run (.deleteChain name)).chains.lookup name = none := by
  by_cases there : table.hasChain name = true
  · rw [lookup_deleteChain table (emptied.deletable user there), if_pos rfl]
  · have absent : table.chains.lookup name = none := Option.not_isSome_iff_eq_none.mp there
    have illegal : ¬table.Deletable name := by
      rintro ⟨_, found, _⟩
      rw [absent] at found
      cases found
    rw [run, dif_neg illegal, absent]

theorem lookup_deleteChain_ne {other : String} (different : other ≠ name) :
    (table.run (.deleteChain name)).chains.lookup other = table.chains.lookup other := by
  by_cases legal : table.Deletable name
  · rw [lookup_deleteChain table legal, if_neg different]
  · rw [run, dif_neg legal]

end Deletion

end MangleTable

end NetPolicy.Iptables
