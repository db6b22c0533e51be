/-
The two queue callbacks.

`inputNfqCb` and `outputNfqCb` are one procedure with different constants: the
direction, the marks that let a packet through unseen, and the mark given to packets
that are to be seen again.  A callback issues its verdicts to the kernel queue, posts
match messages, and hands payload to the flow's HTTP connection; all of that is
recorded in the order in which it happens.
-/

import NetPolicy.Daemon.ConnectionManager
import NetPolicy.Daemon.Store
import NetPolicy.Daemon.Rewrite

namespace NetPolicy.Daemon

open NetPolicy.Policy NetPolicy.Flow NetPolicy.Http

/-! ### Queue messages and their handling -/

structure NfqMessage where
  id : Nat
  nfmark : Nat
  payload : List UInt8
deriving DecidableEq, Repr

inductive NfqVerdict where
  | accept
  | drop
deriving DecidableEq, Repr

/-- One verdict call.  Without a mark it is `verdict`, with one `verdict_with_mark`;
without bytes the kernel keeps the packet as it is. -/
structure VerdictCall where
  id : Nat
  verdict : NfqVerdict
  mark : Option Nat
  payload : Option (List UInt8)
deriving DecidableEq, Repr

structure MatchMsg where
  tuple : FiveTuple
  action : NetPolicyRule
  dir : FlowDir
  ruleKey : String
deriving DecidableEq, Repr

/-- The effects of handling one message, up to some point. -/
structure Handling where
  manager : ConnectionManager
  verdicts : List VerdictCall
  posts : List MatchMsg
  dispatches : List PacketKind
  inspected : List (ConnectionId × List UInt8)

namespace Handling

def start (manager : ConnectionManager) : Handling :=
  { manager := manager, verdicts := [], posts := [], dispatches := [], inspected := [] }

def withManager (handling : Handling) (manager : ConnectionManager) : Handling :=
  { handling with manager := manager }

def verdict (handling : Handling) (id : Nat) (verdict : NfqVerdict) : Handling :=
  { handling with
    verdicts :=
      handling.verdicts ++ [{ id := id, verdict := verdict, mark := none, payload := none }] }

def verdictWithMark (handling : Handling) (id : Nat) (verdict : NfqVerdict)
    (rule : NetPolicyRule) (payload : Option (List UInt8)) : Handling :=
  { handling with
    verdicts :=
      handling.verdicts ++
        [{ id := id, verdict := verdict, mark := some rule.value, payload := payload }] }

def sendMatchMsg (handling : Handling) (tuple : FiveTuple) (action : NetPolicyRule)
    (dir : FlowDir) (ruleKey : String) : Handling :=
  { handling with
    posts :=
      handling.posts ++ [{ tuple := tuple, action := action, dir := dir, ruleKey := ruleKey }] }

def dispatch (libraries : Libraries) (handling : Handling) (decision : PacketDecision)
    (pkg : List UInt8) (ruleKey : String) (now : Nat) : Handling × Option Header :=
  let call := handling.manager.dispatchMicroseg libraries decision pkg ruleKey now
  ({ handling with
      manager := call.manager
      dispatches := handling.dispatches ++ [decision.kind]
      inspected := handling.inspected ++ call.inspected.toList }, call.header)

def microsegClose (libraries : Libraries) (handling : Handling) (decision : PacketDecision)
    (pkg : List UInt8) (now : Nat) : Handling :=
  if decision.kind = .closed then (handling.dispatch libraries decision pkg "" now).1
  else handling

theorem verdictWithMark_first {handling : Handling} (unanswered : handling.verdicts = [])
    (id : Nat) (verdict : NfqVerdict) (rule : NetPolicyRule) (payload : Option (List UInt8)) :
    (handling.verdictWithMark id verdict rule payload).verdicts =
      [{ id := id, verdict := verdict, mark := some rule.value, payload := payload }] := by
  rw [verdictWithMark, unanswered]
  rfl

end Handling

/-! ### The callbacks -/

/-- The constants in which the callbacks differ. -/
structure Side where
  dir : FlowDir
  bypass : List NetPolicyRule
  pass : NetPolicyRule
deriving DecidableEq, Repr

def inputSide : Side := { dir := .ingress, bypass := [.allow, .allowRsp], pass := .allowReq }

def outputSide : Side := { dir := .egress, bypass := [.allow, .allowReq], pass := .allowRsp }

def Side.bypasses (side : Side) (nfmark : Nat) : Bool :=
  side.bypass.any fun rule => nfmark == rule.value

/-- What the callbacks take from outside: the HTTP parsers and the order in which the
policy engine's hash maps are walked. -/
structure Environment where
  libraries : Libraries
  order : IterationOrder RuleDetail

section Callback

variable (env : Environment) (side : Side) (store : MicroSegEngine) (msg : NfqMessage)

def statelessCb (tuple : FiveTuple) (handling : Handling) : Handling :=
  let answer := matchMicroPolicyRule env.order store tuple side.dir
  if answer.rule = .default then handling.verdictWithMark msg.id .accept .allow none
  else
    let handling := handling.sendMatchMsg answer.tuple answer.rule answer.dir answer.ruleKey
    if answer.rule = .deny then handling.verdict msg.id .drop
    else handling.verdictWithMark msg.id .accept .allow none

/-- The tail shared by tracked and newly tracked flows: give the payload to the
connection and ask the HTTP rules about a completed request. -/
def inspectCb (tuple : FiveTuple) (ruleKey : String) (decision : PacketDecision) (now : Nat)
    (handling : Handling) : Handling :=
  let (handling, header) := handling.dispatch env.libraries decision msg.payload ruleKey now
  match header with
  | none => handling.verdictWithMark msg.id .accept side.pass none
  | some header =>
      match (store.httpPolicy side.dir).lookup ruleKey with
      | none => handling.verdictWithMark msg.id .accept .default none
      | some rules =>
          let rule := matchHttpPolicyRule rules header
          if rule = .default then handling.verdictWithMark msg.id .accept side.pass none
          else
            let handling := handling.sendMatchMsg tuple rule side.dir ruleKey
            let pkg := if rule = .deny then rstTcpLink msg.payload else msg.payload
            handling.verdictWithMark msg.id .accept side.pass (some pkg)

/-- A flow with an entry in the microsegmentation map.  The layer 3/4 rules are not
consulted; the entry's own rule key names the HTTP rules. -/
def trackedCb (tuple : FiveTuple) (decision : PacketDecision) (hasPayload : Bool) (now : Nat)
    (handling : Handling) : Handling :=
  if decision.kind = .closed then handling.verdictWithMark msg.id .accept .allow none
  else if !hasPayload then handling.verdictWithMark msg.id .accept side.pass none
  else if decision.syn then handling.verdictWithMark msg.id .accept side.pass none
  else if decision.kind = .duplicate then handling.verdict msg.id .accept
  else
    let ruleKey := (handling.manager.microsegRuleKey decision).getD ""
    inspectCb env side store msg tuple ruleKey decision now handling

/-- A flow without an entry: match, and start tracking when HTTP rules apply. -/
def untrackedCb (tuple : FiveTuple) (decision : PacketDecision) (hasPayload : Bool) (now : Nat)
    (handling : Handling) : Handling :=
  if !decision.syn && !hasPayload then
    handling.verdictWithMark msg.id .accept side.pass none
  else
    let answer := matchMicroPolicyRule env.order store tuple side.dir
    if answer.rule = .default then handling.verdictWithMark msg.id .accept .allow none
    else if ((store.httpPolicy side.dir).lookup answer.ruleKey).getD [] = [] then
      let handling := handling.sendMatchMsg answer.tuple answer.rule answer.dir answer.ruleKey
      if answer.rule = .deny then handling.verdict msg.id .drop
      else handling.verdictWithMark msg.id .accept .allow none
    else
      let handling :=
        handling.withManager
          (handling.manager.microsegTrack decision answer.ruleKey now)
      if decision.syn then handling.verdictWithMark msg.id .accept side.pass none
      else inspectCb env side store msg answer.tuple answer.ruleKey decision now handling

/-- Only data, duplicates and unknown data carry the offset of their payload. -/
def hasPayload (decision : PacketDecision) : Bool :=
  (decision.kind == .data || decision.kind == .duplicate || decision.kind == .unknownData) &&
    decide (decision.payloadOffset < msg.payload.length)

def tcpCb (tuple : FiveTuple) (decision : PacketDecision) (now : Nat) (handling : Handling) :
    Handling :=
  let tracked := handling.manager.microsegTracked decision
  let handling := handling.withManager (handling.manager.microsegTouch decision now)
  if decision.kind = .ignore then handling.verdictWithMark msg.id .accept side.pass none
  else
    let handling := handling.microsegClose env.libraries decision msg.payload now
    if tracked then
      trackedCb env side store msg tuple decision (hasPayload msg decision) now handling
    else
      untrackedCb env side store msg tuple decision (hasPayload msg decision) now handling

def nfqCb (manager : ConnectionManager) (now : Nat) : Handling :=
  let handling := Handling.start manager
  if side.bypasses msg.nfmark then handling.verdict msg.id .accept
  else if msg.payload.length < 20 then handling.verdict msg.id .accept
  else
    let (manager, result) := handling.manager.receive msg.payload true now
    let handling := handling.withManager manager
    if !result.tuple.recognized then handling.verdict msg.id .accept
    else
      let tuple := FiveTuple.ofResult result.tuple
      if tuple.proto = ipprotoUdp ∨ tuple.proto = ipprotoIcmp then
        statelessCb env side store msg tuple handling
      else if tuple.proto ≠ ipprotoTcp then handling.verdict msg.id .accept
      else tcpCb env side store msg tuple result.decision now handling

/-! ### The paths of a tracked flow -/

section Tracked

variable (tuple : FiveTuple) {decision : PacketDecision} (now : Nat) (handling : Handling)

theorem trackedCb_closed (closed : decision.kind = .closed) (payload : Bool) :
    trackedCb env side store msg tuple decision payload now handling =
      handling.verdictWithMark msg.id .accept .allow none := by
  unfold trackedCb
  rw [if_pos closed]

theorem trackedCb_silent (opened : decision.kind ≠ .closed) :
    trackedCb env side store msg tuple decision false now handling =
      handling.verdictWithMark msg.id .accept side.pass none := by
  unfold trackedCb
  rw [if_neg opened]
  rfl

theorem trackedCb_syn (opened : decision.kind ≠ .closed) (syn : decision.syn = true)
    (payload : Bool) :
    trackedCb env side store msg tuple decision payload now handling =
      handling.verdictWithMark msg.id .accept side.pass none := by
  unfold trackedCb
  rw [if_neg opened, if_pos syn]
  cases payload <;> rfl

theorem trackedCb_duplicate (duplicate : decision.kind = .duplicate)
    (noSyn : decision.syn = false) :
    trackedCb env side store msg tuple decision true now handling =
      handling.verdict msg.id .accept := by
  unfold trackedCb
  rw [if_pos duplicate, noSyn, duplicate]
  rfl

theorem trackedCb_inspects (opened : decision.kind ≠ .closed)
    (fresh : decision.kind ≠ .duplicate) (noSyn : decision.syn = false) :
    trackedCb env side store msg tuple decision true now handling =
      inspectCb env side store msg tuple
        ((handling.manager.microsegRuleKey decision).getD "") decision now handling := by
  unfold trackedCb
  rw [if_neg opened, if_neg fresh, noSyn]
  rfl

end Tracked

end Callback

def inputNfqCb (env : Environment) (store : MicroSegEngine) (msg : NfqMessage)
    (manager : ConnectionManager) (now : Nat) : Handling :=
  nfqCb env inputSide store msg manager now

def outputNfqCb (env : Environment) (store : MicroSegEngine) (msg : NfqMessage)
    (manager : ConnectionManager) (now : Nat) : Handling :=
  nfqCb env outputSide store msg manager now

end NetPolicy.Daemon
