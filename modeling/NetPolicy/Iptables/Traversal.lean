/-
What the installed rules do to a packet.

A packet walks the rules of a hook's chain with its own mark and the mark of its
connection.  The rules of a call stand first in the two hooks where a packet enters, so
whatever other rules the table has, a packet takes over the mark of its connection and is
accepted or queued by it; they stand last in the two hooks where it leaves, so the mark is
only kept for a packet that the rules before them let through.
-/

import Mathlib.Control.LawfulFix
import NetPolicy.Iptables.Interruptions

namespace NetPolicy.Iptables

/-! ### Walking a chain -/

structure Marks where
  skb : UInt32
  ct : UInt32
deriving DecidableEq, Repr

inductive Outcome where
  | accept
  | drop
  | queue (number : Nat)
deriving DecidableEq, Repr

inductive Effect where
  | verdict (outcome : Outcome)
  | next
  | leave
deriving DecidableEq, Repr

/-- A walk ends in a verdict, is sent back by a rule, or passes the last rule. -/
inductive Walk where
  | ended (outcome : Outcome) (marks : Marks)
  | left (marks : Marks)
  | passed (marks : Marks)
deriving DecidableEq, Repr

/-- The matches and targets of the kernel.  Those that the installer uses are fixed; what any
other one does is open. -/
structure Extensions where
  accepts : List String → Marks → Bool
  acts : String → List String → Marks → Effect × Marks
  unconditional : ∀ marks, accepts [] marks = true
  markMatch : ∀ (mark : UInt32) marks,
    accepts ["-m", "mark", "--mark", toString (mark.toNat : Int)] marks =
      decide (marks.skb = mark)
  acceptTarget : ∀ marks, acts "ACCEPT" [] marks = (.verdict .accept, marks)
  restoreTarget : ∀ marks,
    acts "CONNMARK" ["--restore-mark"] marks = (.next, { marks with skb := marks.ct })
  saveTarget : ∀ marks,
    acts "CONNMARK" ["--save-mark"] marks = (.next, { marks with ct := marks.skb })
  queueTarget : ∀ (number : Nat) marks,
    acts "NFQUEUE" ["--queue-num", toString number, "--queue-bypass"] marks =
      (.verdict (.queue number), marks)

structure Netfilter extends Extensions where
  walk : MangleTable → List Rule → Marks → Walk
  hook : MangleTable → String → Marks → Outcome × Marks
  walk_nil : ∀ table marks, walk table [] marks = .passed marks
  walk_unmatched : ∀ table {rule : Rule} rest {marks}, accepts rule.conditions marks = false →
    walk table (rule :: rest) marks = walk table rest marks
  walk_untargeted : ∀ table {rule : Rule} rest {marks}, accepts rule.conditions marks = true →
    rule.target = none → walk table (rule :: rest) marks = walk table rest marks
  walk_extension : ∀ table {rule : Rule} rest {marks name},
    accepts rule.conditions marks = true → rule.target = some (.extension name) →
      walk table (rule :: rest) marks =
        match acts name rule.options marks with
        | (.verdict outcome, marks) => .ended outcome marks
        | (.next, marks) => walk table rest marks
        | (.leave, marks) => .left marks
  walk_chain : ∀ table {rule : Rule} rest {marks name}, accepts rule.conditions marks = true →
    rule.target = some (.chain name) →
      walk table (rule :: rest) marks =
        match walk table (table.rulesOf name) marks with
        | .ended outcome marks => .ended outcome marks
        | .left marks => walk table rest marks
        | .passed marks => walk table rest marks
  /-- A packet that comes out of the chain is accepted. -/
  hook_walk : ∀ table name marks, hook table name marks =
    match walk table (table.rulesOf name) marks with
    | .ended outcome marks => (outcome, marks)
    | .left marks => (.accept, marks)
    | .passed marks => (.accept, marks)

section Walking

variable (kernel : Netfilter) (table : MangleTable) (rest : List Rule) (marks : Marks)

/-! ### The rules of a call -/

theorem walk_restoreMark :
    kernel.walk table (restoreMark :: rest) marks =
      kernel.walk table rest { marks with skb := marks.ct } := by
  rw [kernel.walk_extension table rest (kernel.unconditional marks) rfl]
  simp only [restoreMark, kernel.restoreTarget]

theorem walk_saveMark :
    kernel.walk table (saveMark :: rest) marks =
      kernel.walk table rest { marks with ct := marks.skb } := by
  rw [kernel.walk_extension table rest (kernel.unconditional marks) rfl]
  simp only [saveMark, kernel.saveTarget]

theorem walk_jumpTo (chain : String) :
    kernel.walk table (jumpTo chain :: rest) marks =
      match kernel.walk table (table.rulesOf chain) marks with
      | .ended outcome marks => .ended outcome marks
      | .left marks => kernel.walk table rest marks
      | .passed marks => kernel.walk table rest marks :=
  kernel.walk_chain table rest (kernel.unconditional marks) rfl

theorem walk_group (mark : UInt32) (queue : Nat) :
    kernel.walk table [acceptMark mark.toNat, queueTo queue] marks =
      .ended (if marks.skb = mark then .accept else .queue queue) marks := by
  by_cases own : marks.skb = mark
  · have matched : kernel.accepts (acceptMark mark.toNat).conditions marks = true :=
      (kernel.markMatch mark marks).trans (decide_eq_true own)
    rw [kernel.walk_extension table _ matched rfl, if_pos own]
    simp only [acceptMark, kernel.acceptTarget]
  · have unmatched : kernel.accepts (acceptMark mark.toNat).conditions marks = false :=
      (kernel.markMatch mark marks).trans (decide_eq_false own)
    rw [kernel.walk_unmatched table _ unmatched,
      kernel.walk_extension table _ (kernel.unconditional marks) rfl, if_neg own]
    simp only [queueTo, kernel.queueTarget]

/-- Only a walk that passes some rules comes to those after them. -/
theorem walk_append (rules : List Rule) :
    kernel.walk table (rules ++ rest) marks =
      match kernel.walk table rules marks with
      | .ended outcome marks => .ended outcome marks
      | .left marks => .left marks
      | .passed marks => kernel.walk table rest marks := by
  induction rules generalizing marks with
  | nil =>
      rw [kernel.walk_nil]
      rfl
  | cons rule rules ih =>
      rw [List.cons_append]
      cases matched : kernel.accepts rule.conditions marks with
      | false => rw [kernel.walk_unmatched _ _ matched, kernel.walk_unmatched _ _ matched, ih]
      | true =>
          cases shape : rule.target with
          | none =>
              rw [kernel.walk_untargeted _ _ matched shape,
                kernel.walk_untargeted _ _ matched shape, ih]
          | some target =>
              cases target with
              | extension name =>
                  rw [kernel.walk_extension _ _ matched shape,
                    kernel.walk_extension _ _ matched shape]
                  rcases kernel.acts name rule.options marks with ⟨_ | _ | _, after⟩
                  · rfl
                  · exact ih after
                  · rfl
              | chain name =>
                  rw [kernel.walk_chain _ _ matched shape, kernel.walk_chain _ _ matched shape]
                  cases kernel.walk table (table.rulesOf name) marks with
                  | ended outcome after => rfl
                  | left after => exact ih after
                  | passed after => exact ih after

end Walking

/-! ### The hooks after a call -/

/-- A hook where packets enter, with the chain and the queue behind it, and the hook where
they leave. -/
structure HookPair where
  entering : String
  leaving : String
  chain : String
  queue : Nat
deriving DecidableEq, Repr

def inputHooks : HookPair := ⟨"PREROUTING", "INPUT", tsZeroPrerouting, 0⟩

def outputHooks : HookPair := ⟨"OUTPUT", "POSTROUTING", tsZeroOutput, 1⟩

structure Placed (hooks : HookPair) (mark : Int) (before after : MangleTable) : Prop where
  chain : after.rulesOf hooks.chain = [acceptMark mark, queueTo hooks.queue]
  entering : after.rulesOf hooks.entering =
    restoreMark :: jumpTo hooks.chain :: before.rulesOf hooks.entering
  leaving : after.rulesOf hooks.leaving = before.rulesOf hooks.leaving ++ [saveMark]

section Hooks

variable {table : MangleTable}

theorem placed_writeIptableRule (vacant : Vacant table) (iMark oMark : Int) :
    Placed inputHooks iMark table (writeIptableRule iMark oMark table) ∧
      Placed outputHooks oMark table (writeIptableRule iMark oMark table) := by
  obtain ⟨middle, first, second⟩ := hooked_groups vacant iMark oMark
  have written : writeIptableRule iMark oMark table =
      table.runAll (preroutingCommands iMark ++ outputCommands oMark) := by
    rw [writeIptableRule_eq_runAll, writeCommands_of_unchecked vacant.noPrerouting,
      groupCommands_of_vacant vacant]
  rw [written]
  generalize table.runAll (preroutingCommands iMark ++ outputCommands oMark) = final at second ⊢
  refine ⟨⟨?_, ?_, ?_⟩, ⟨?_, ?_, ?_⟩⟩
  · rw [inputHooks, second.rulesOf_other (by decide) (by decide) (by decide), MangleTable.rulesOf,
      first.own]
    rfl
  · rw [inputHooks, second.rulesOf_other (by decide) (by decide) (by decide), first.hooked]
  · rw [inputHooks, second.rulesOf_other (by decide) (by decide) (by decide), first.saved]
  · rw [outputHooks, MangleTable.rulesOf, second.own]
    rfl
  · rw [outputHooks, second.hooked, first.rulesOf_other (by decide) (by decide) (by decide)]
  · rw [outputHooks, second.saved, first.rulesOf_other (by decide) (by decide) (by decide)]

theorem hook_entering (kernel : Netfilter) {hooks : HookPair} {mark : UInt32}
    {before after : MangleTable} (placed : Placed hooks mark.toNat before after) (marks : Marks) :
    kernel.hook after hooks.entering marks =
      (if marks.ct = mark then .accept else .queue hooks.queue, ⟨marks.ct, marks.ct⟩) := by
  rw [kernel.hook_walk, placed.entering, walk_restoreMark, walk_jumpTo, placed.chain, walk_group]

theorem hook_leaving (kernel : Netfilter) {hooks : HookPair} {mark : Int}
    {before after : MangleTable} (placed : Placed hooks mark before after) (marks : Marks) :
    kernel.hook after hooks.leaving marks =
      match kernel.walk after (before.rulesOf hooks.leaving) marks with
      | .ended outcome marks => (outcome, marks)
      | .left marks => (.accept, marks)
      | .passed marks => (.accept, { marks with ct := marks.skb }) := by
  rw [kernel.hook_walk, placed.leaving, walk_append]
  cases kernel.walk after (before.rulesOf hooks.leaving) marks with
  | ended outcome marks => rfl
  | left marks => rfl
  | passed marks =>
      dsimp only
      rw [walk_saveMark, kernel.walk_nil]

end Hooks

def plainExtensions : Extensions where
  accepts
    | [], _ => true
    | ["-m", "mark", "--mark", text], marks =>
        decide (SeparatedText.parseDecimal text.toList = some marks.skb.toNat)
    | _, _ => false
  acts name options marks :=
    if name = "ACCEPT" then (.verdict .accept, marks)
    else if name = "DROP" then (.verdict .drop, marks)
    else if options = ["--restore-mark"] then (.next, { marks with skb := marks.ct })
    else if options = ["--save-mark"] then (.next, { marks with ct := marks.skb })
    else (.verdict (.queue (((options[1]?).bind fun text =>
      SeparatedText.parseDecimal text.toList).getD 0)), marks)
  unconditional _ := rfl
  markMatch mark marks := by
    have text : SeparatedText.parseDecimal (toString (mark.toNat : Int)).toList =
        some mark.toNat := SeparatedText.parseDecimal_repr mark.toNat
    simp only [text, Option.some.injEq, UInt32.toNat_inj, eq_comm]
  acceptTarget _ := rfl
  restoreTarget _ := rfl
  saveTarget _ := rfl
  queueTarget number marks := by
    have text : SeparatedText.parseDecimal (Nat.toDigits 10 number) = some number := by
      rw [← Nat.toList_repr]
      exact SeparatedText.parseDecimal_repr number
    simp [text]

/-- One rule, with the walks that it leads to given. -/
def walkStep (table : MangleTable) (walk : List Rule × Marks → Part Walk) :
    List Rule × Marks → Part Walk
  | ([], marks) => .some (.passed marks)
  | (rule :: rest, marks) =>
      if plainExtensions.accepts rule.conditions marks then
        match rule.target with
        | none => walk (rest, marks)
        | some (.extension name) =>
            match plainExtensions.acts name rule.options marks with
            | (.verdict outcome, marks) => .some (.ended outcome marks)
            | (.next, marks) => walk (rest, marks)
            | (.leave, marks) => .some (.left marks)
        | some (.chain name) =>
            walk (table.rulesOf name, marks) >>= fun
              | .ended outcome marks => .some (.ended outcome marks)
              | .left marks => walk (rest, marks)
              | .passed marks => walk (rest, marks)
      else walk (rest, marks)

theorem walkStep_continuous (table : MangleTable) :
    OmegaCompletePartialOrder.ωScottContinuous (walkStep table) := by
  refine .of_apply₂ fun ⟨rules, marks⟩ => ?_
  cases rules with
  | nil => exact .const
  | cons rule rest =>
      unfold walkStep
      dsimp only
      split
      · split
        · exact .apply _
        · split
          · exact .const
          · exact .apply _
          · exact .const
        · refine OmegaCompletePartialOrder.ContinuousHom.ωScottContinuous.bind (.apply _)
            (.of_apply₂ fun inner => ?_)
          cases inner with
          | ended outcome after => exact .const
          | left after => exact .apply _
          | passed after => exact .apply _
      · exact .apply _

theorem fix_walkStep (table : MangleTable) (rules : List Rule) (marks : Marks) :
    Part.fix (walkStep table) (rules, marks) =
      walkStep table (Part.fix (walkStep table)) (rules, marks) :=
  congrFun (Part.fix_eq_of_ωScottContinuous (walkStep_continuous table)) (rules, marks)

open Classical in
/-- A packet is dropped where chains call each other without end. -/
noncomputable def ending (walk : Part Walk) : Walk := walk.getOrElse (.ended .drop ⟨0, 0⟩)

theorem ending_some (walk : Walk) : ending (.some walk) = walk := by
  rw [ending, Part.getOrElse_some]

theorem ending_none : ending .none = .ended .drop ⟨0, 0⟩ := by
  rw [ending, Part.getOrElse_none]

noncomputable def plainWalk (table : MangleTable) (rules : List Rule) (marks : Marks) : Walk :=
  ending (Part.fix (walkStep table) (rules, marks))

noncomputable def plainNetfilter : Netfilter where
  toExtensions := plainExtensions
  walk := plainWalk
  hook table name marks :=
    match plainWalk table (table.rulesOf name) marks with
    | .ended outcome marks => (outcome, marks)
    | .left marks => (.accept, marks)
    | .passed marks => (.accept, marks)
  walk_nil table marks := by
    rw [plainWalk, fix_walkStep, walkStep, ending_some]
  walk_unmatched table rule rest marks unmatched := by
    rw [plainWalk, fix_walkStep, walkStep, if_neg (by rw [unmatched]; exact Bool.false_ne_true)]
    rfl
  walk_untargeted table rule rest marks matched shape := by
    rw [plainWalk, fix_walkStep, walkStep, if_pos matched, shape]
    rfl
  walk_extension table rule rest marks name matched shape := by
    rw [plainWalk, fix_walkStep, walkStep, if_pos matched, shape]
    dsimp only
    rcases plainExtensions.acts name rule.options marks with ⟨_ | _ | _, after⟩
    · exact ending_some _
    · rfl
    · exact ending_some _
  walk_chain table rule rest marks name matched shape := by
    rw [plainWalk, fix_walkStep, walkStep, if_pos matched, shape, plainWalk]
    dsimp only
    generalize Part.fix (walkStep table) (table.rulesOf name, marks) = inner
    induction inner using Part.induction_on with
    | hnone => simp [ending_none]
    | hsome walk => cases walk <;> simp [ending_some, plainWalk]
  hook_walk table name marks := rfl

def dropSeven : Rule := ⟨["-m", "mark", "--mark", "7"], some (.extension "DROP"), []⟩

/-- Everything is accepted where it enters, and packets with the mark 7 are dropped where they
leave. -/
def guardedTable : ForeignTable where
  chains := ⟨[⟨"PREROUTING", [⟨[], some (.extension "ACCEPT"), []⟩]⟩, ⟨"INPUT", [dropSeven]⟩,
    ⟨"FORWARD", []⟩, ⟨"OUTPUT", [⟨[], some (.extension "ACCEPT"), []⟩]⟩,
    ⟨"POSTROUTING", [dropSeven]⟩], by simp [List.NodupKeys, List.keys]⟩
  builtin := by decide
  unmarked := by decide +kernel

theorem walk_dropSeven (table : MangleTable) (marks : Marks) :
    plainNetfilter.walk table [dropSeven] marks =
      if marks.skb = 7 then .ended .drop marks else .passed marks := by
  by_cases seven : marks.skb = 7
  · have matched : plainNetfilter.accepts dropSeven.conditions marks = true :=
      (plainExtensions.markMatch 7 marks).trans (decide_eq_true seven)
    rw [plainNetfilter.walk_extension table [] matched rfl, if_pos seven]
    rfl
  · have unmatched : plainNetfilter.accepts dropSeven.conditions marks = false :=
      (plainExtensions.markMatch 7 marks).trans (decide_eq_false seven)
    rw [plainNetfilter.walk_unmatched table [] unmatched, plainNetfilter.walk_nil, if_neg seven]

end NetPolicy.Iptables
