/-
Permissions by mark.

Packets enter, are answered and leave, connections are tracked and forgotten, pods come and
go, and requests change the rules, in any order.  A connection passes unexamined only after an
answer that the rules in force justified.  A policy request takes permissions back through the
conntrack session of the pods it names; no other request does, and none does once that session
has met an ICMP entry.
-/

import NetPolicy.Daemon.PodNetworks
import NetPolicy.Daemon.Rulebook
import NetPolicy.Library.Transitions

namespace NetPolicy.Daemon

open NetPolicy.Policy NetPolicy.Flow NetPolicy.Http NetPolicy.Conntrack

/-! ### Requests -/

/-- A number passes through a `double` on its way: 53 bits, rounded to even. -/
def toDouble (value : Nat) : Nat :=
  let unit := 2 ^ (value.log2 - 52)
  let low := value % unit
  if 2 * low < unit ∨ 2 * low = unit ∧ value / unit % 2 = 0 then value - low
  else value - low + unit

structure AddressEndpoint where
  ip : String
  podId : Nat
deriving DecidableEq, Repr

structure RuleRequest where
  action : PolicyAction
  direction : FlowDirection
  protocol : L4Protocol
  httpRules : List HttpMatchRule
  fromAddresses : List AddressEndpoint
  toAddresses : List AddressEndpoint
  ports : List PortRange
  priority : Int
deriving DecidableEq, Repr

def RuleRequest.spec (rule : RuleRequest) : PolicyRuleSpec where
  action := rule.action
  direction := rule.direction
  protocol := rule.protocol
  httpRules := rule.httpRules
  fromAddresses := rule.fromAddresses.map AddressEndpoint.ip
  toAddresses := rule.toAddresses.map AddressEndpoint.ip
  ports := rule.ports
  priority := rule.priority

/-- The pods that a rule puts into `cgRes`: those of its local side. -/
def RuleRequest.localPods (rule : RuleRequest) : List Nat :=
  match readDirection (flowDirectionToStr rule.direction) with
  | .egress => rule.fromAddresses.map fun endpoint => toDouble endpoint.podId
  | .ingress => rule.toAddresses.map fun endpoint => toDouble endpoint.podId

structure PolicyRequest where
  policyName : String
  rules : List RuleRequest
deriving DecidableEq, Repr

def PolicyRequest.op (request : PolicyRequest) : ControlOp :=
  .addPolicyRule request.policyName (request.rules.map RuleRequest.spec)

/-- `UpdateMark` is only reached when no address range throws. -/
def PolicyRequest.clears (request : PolicyRequest) (store : MicroSegEngine) (pod : Nat) : Bool :=
  decide ((addPolicyRule store request.policyName (request.rules.map RuleRequest.spec)).2 = 0) &&
    decide (pod ∈ request.rules.flatMap RuleRequest.localPods)

/-! ### The system -/

structure World where
  daemon : DaemonContext
  pods : Nat → PodNet

def World.start : World := ⟨DaemonContext.new, fun _ => PodNet.empty⟩

inductive Act where
  | track (pod : Nat) (entry : Entry)
  | expire (pod : Nat) (flow : Conntrack.Flow)
  | enter (pod : Nat) (flow : Conntrack.Flow) (queue : Queue) (id : Nat) (payload : List UInt8)
  | answer (pod index now : Nat)
  | leave (pod index : Nat) (saved : Bool)
  | policy (request : PolicyRequest)
  | deletePolicyRule (policyName : String)
  | resetConfig
  | updateNodeConfig (isDelete : Bool) (nodeIps : List String)
  | reap (now : Nat)
  | podUp (pod : Nat)
  | podDown (pod : Nat)

namespace World

variable (env : Environment)

def setPod (world : World) (pod : Nat) (net : PodNet) : World :=
  { world with pods := Function.update world.pods pod net }

def control (world : World) (op : ControlOp) : World :=
  { world with daemon := world.daemon.step env (.control op) }

/-- The daemon answers a packet that waits: it is dropped, or it goes on with the mark of its
verdict. -/
def answer (world : World) (pod index now : Nat) : Option World :=
  match (world.pods pod).transit[index]? with
  | some ⟨flow, .queued queue msg⟩ =>
      match (world.daemon.handle env queue msg now).verdicts with
      | [call] =>
          let net := world.pods pod
          let transit :=
            match (call.answer msg).2 with
            | .drop => net.transit.eraseIdx index
            | .accept =>
                net.transit.set index ⟨flow, .leaving (UInt32.ofNat (call.answer msg).1.nfmark)⟩
          some
            { daemon := world.daemon.step env (.packet queue msg now)
              pods := Function.update world.pods pod { net with transit := transit } }
      | _ => none
  | _ => none

def step (kernel : Kernel) (world : World) : Act → Option World
  | .track pod entry => (kernel.track (world.pods pod) entry).map (world.setPod pod)
  | .expire pod flow => (kernel.expire (world.pods pod) flow).map (world.setPod pod)
  | .enter pod flow queue id payload =>
      (kernel.enter (world.pods pod) flow queue id payload).map (world.setPod pod)
  | .answer pod index now => world.answer env pod index now
  | .leave pod index saved => (kernel.leave (world.pods pod) index saved).map (world.setPod pod)
  | .policy request =>
      some
        { daemon := world.daemon.step env (.control request.op)
          pods := fun pod =>
            if request.clears world.daemon.microseg pod then
              (world.pods pod).updateMark kernel.toCtnetlink
            else world.pods pod }
  | .deletePolicyRule policyName => some (world.control env (.deletePolicyRule policyName))
  | .resetConfig => some (world.control env .resetConfig)
  | .updateNodeConfig isDelete nodeIps =>
      some (world.control env (.updateNodeConfig isDelete nodeIps))
  | .reap now => some { world with daemon := world.daemon.step env (.reap now) }
  | .podUp pod => some (world.setPod pod (world.pods pod).attach)
  | .podDown pod => some (world.setPod pod (world.pods pod).detach)

end World

/-! ### Answers -/

section Answers

variable {env : Environment} {world next : World} {pod index now : Nat}
  {flow : Conntrack.Flow}

/-- The packet that is answered is of the flow, and the rules in force let it through or it
closes a tracked flow. -/
def Justified (env : Environment) (world : World) (pod index now : Nat)
    (flow : Conntrack.Flow) : Prop :=
  ∃ queue msg, (world.pods pod).transit[index]? = some ⟨flow, .queued queue msg⟩ ∧
    (LetsThrough env queue.side world.daemon.microseg msg.tuple ∨
      ClosesTracked world.daemon.connMgr msg now)

structure Answered (env : Environment) (world next : World) (pod index now : Nat) where
  flow : Conntrack.Flow
  queue : Queue
  msg : NfqMessage
  found : (world.pods pod).transit[index]? = some ⟨flow, .queued queue msg⟩
  mark : Nat
  reason : mark = msg.nfmark ∨ mark = queue.side.pass.value ∨
    mark = NetPolicyRule.default.value ∨ mark = NetPolicyRule.allow.value ∧
      (LetsThrough env queue.side world.daemon.microseg msg.tuple ∨
        ClosesTracked world.daemon.connMgr msg now)
  transit : (next.pods pod).transit = (world.pods pod).transit.eraseIdx index ∨
    (next.pods pod).transit =
      (world.pods pod).transit.set index ⟨flow, .leaving (UInt32.ofNat mark)⟩
  entries : (next.pods pod).entries = (world.pods pod).entries
  session : (next.pods pod).session = (world.pods pod).session
  others : ∀ other, other ≠ pod → next.pods other = world.pods other

theorem answered_of_answer (answered : world.answer env pod index now = some next) :
    Nonempty (Answered env world next pod index now) := by
  unfold World.answer at answered
  split at answered
  · rename_i flow queue msg found
    split at answered
    · rename_i call single
      obtain ⟨issued, verdicts, marks⟩ :=
        nfqCb_marks env queue.side world.daemon.microseg msg now world.daemon.connMgr
      rw [← Queue.callback_eq] at verdicts
      have same : call = issued :=
        List.singleton_inj.mp (single.symm.trans (verdicts.trans (List.nil_append _)))
      rw [← same] at marks
      cases answered
      refine ⟨⟨flow, queue, msg, found, (call.answer msg).1.nfmark, ?_, ?_, ?_, ?_, ?_⟩⟩
      · dsimp only [VerdictCall.answer]
        rcases marks with none | pass | default | ⟨allow, given⟩
        · rw [none]
          exact Or.inl rfl
        · rw [pass]
          exact Or.inr (Or.inl rfl)
        · rw [default]
          exact Or.inr (Or.inr (Or.inl rfl))
        · rw [allow]
          exact Or.inr (Or.inr (Or.inr ⟨rfl, given⟩))
      · dsimp only
        rw [Function.update_self]
        split
        · exact Or.inl rfl
        · exact Or.inr rfl
      · dsimp only
        rw [Function.update_self]
      · dsimp only
        rw [Function.update_self]
      · intro other different
        exact Function.update_of_ne different _ _
    · cases answered
  · cases answered

theorem pass_ne_allow (queue : Queue) : UInt32.ofNat queue.side.pass.value ≠ 1 := by
  cases queue <;> decide

theorem Answered.permits (answered : Answered env world next pod index now)
    (permits : (next.pods pod).Permits flow) :
    (world.pods pod).Permits flow ∨ Justified env world pod index now flow := by
  rcases permits with marked | ⟨packet, member, named, carries⟩
  · refine Or.inl (Or.inl ?_)
    rw [PodNet.markOf, answered.entries] at marked
    exact marked
  · rcases answered.transit with dropped | accepted
    · rw [dropped] at member
      exact Or.inl (Or.inr ⟨packet, List.mem_of_mem_eraseIdx member, named, carries⟩)
    · rw [accepted] at member
      rcases List.mem_or_eq_of_mem_set member with old | new
      · exact Or.inl (Or.inr ⟨packet, old, named, carries⟩)
      · rw [new] at named carries
        have one : UInt32.ofNat answered.mark = 1 := carries
        have same : answered.flow = flow := named
        rcases answered.reason with own | pass | default | ⟨_, given⟩
        · refine Or.inl (Or.inr ⟨_, List.mem_of_getElem? answered.found, same, ?_⟩)
          rw [own] at one
          exact one
        · rw [pass] at one
          exact absurd one (pass_ne_allow _)
        · rw [default] at one
          exact absurd one (by decide)
        · rw [← same]
          exact Or.inr ⟨answered.queue, answered.msg, answered.found, given⟩

end Answers

/-! ### What a step does to one pod -/

section Changes

variable {env : Environment} {kernel : Kernel} {world next : World} {pod : Nat} {act : Act}

theorem pods_setPod (world : World) (pod other : Nat) (net : PodNet) :
    (world.setPod pod net).pods other = if other = pod then net else world.pods other :=
  Function.update_apply ..

inductive PodChange (env : Environment) (kernel : Kernel) (world next : World) (pod : Nat) :
    Act → Prop where
  | tracked {entry : Entry} (done : kernel.track (world.pods pod) entry = some (next.pods pod)) :
      PodChange env kernel world next pod (.track pod entry)
  | expired {flow : Conntrack.Flow}
      (done : kernel.expire (world.pods pod) flow = some (next.pods pod)) :
      PodChange env kernel world next pod (.expire pod flow)
  | entered {flow : Conntrack.Flow} {queue : Queue} {id : Nat} {payload : List UInt8}
      (done : kernel.enter (world.pods pod) flow queue id payload = some (next.pods pod)) :
      PodChange env kernel world next pod (.enter pod flow queue id payload)
  | answered {index now : Nat} (done : Answered env world next pod index now) :
      PodChange env kernel world next pod (.answer pod index now)
  | left {index : Nat} {saved : Bool}
      (done : kernel.leave (world.pods pod) index saved = some (next.pods pod)) :
      PodChange env kernel world next pod (.leave pod index saved)
  | cleared {request : PolicyRequest} (named : request.clears world.daemon.microseg pod = true)
      (done : next.pods pod = (world.pods pod).updateMark kernel.toCtnetlink) :
      PodChange env kernel world next pod (.policy request)
  | attached (done : next.pods pod = (world.pods pod).attach) :
      PodChange env kernel world next pod (.podUp pod)
  | detached (done : next.pods pod = (world.pods pod).detach) :
      PodChange env kernel world next pod (.podDown pod)
  | unchanged {act : Act} (same : next.pods pod = world.pods pod) :
      PodChange env kernel world next pod act

theorem change_of_setPod {changed : Nat} {net : PodNet}
    (own : changed = pod → next.pods pod = net → PodChange env kernel world next pod act)
    (stepped : world.setPod changed net = next) : PodChange env kernel world next pod act := by
  have pods := pods_setPod world changed pod net
  rw [stepped] at pods
  by_cases same : pod = changed
  · rw [if_pos same] at pods
    exact own same.symm pods
  · rw [if_neg same] at pods
    exact .unchanged pods

theorem change_of_map {changed : Nat} {operation : Option PodNet}
    (own : changed = pod → operation = some (next.pods pod) → PodChange env kernel world next pod act)
    (stepped : operation.map (world.setPod changed) = some next) :
    PodChange env kernel world next pod act := by
  obtain ⟨net, done, set⟩ := Option.map_eq_some_iff.mp stepped
  refine change_of_setPod (fun same pods => own same ?_) set
  rw [pods, done]

theorem change_of_step (stepped : world.step env kernel act = some next) (pod : Nat) :
    PodChange env kernel world next pod act := by
  cases act with
  | track changed entry =>
      exact change_of_map (fun same done => by subst same; exact .tracked done) stepped
  | expire changed flow =>
      exact change_of_map (fun same done => by subst same; exact .expired done) stepped
  | enter changed flow queue id payload =>
      exact change_of_map (fun same done => by subst same; exact .entered done) stepped
  | leave changed index saved =>
      exact change_of_map (fun same done => by subst same; exact .left done) stepped
  | answer changed index now =>
      obtain ⟨answered⟩ := answered_of_answer stepped
      by_cases same : pod = changed
      · subst same
        exact .answered answered
      · exact .unchanged (answered.others pod same)
  | policy request =>
      cases stepped
      cases named : request.clears world.daemon.microseg pod with
      | true => exact .cleared named (if_pos named)
      | false => exact .unchanged (if_neg (by rw [named]; decide))
  | podUp changed =>
      refine change_of_setPod (fun same done => ?_) (Option.some.inj stepped)
      subst same
      exact .attached done
  | podDown changed =>
      refine change_of_setPod (fun same done => ?_) (Option.some.inj stepped)
      subst same
      exact .detached done
  | deletePolicyRule policyName | resetConfig | updateNodeConfig isDelete nodeIps | reap now =>
      cases stepped
      exact .unchanged rfl

end Changes

/-! ### Permissions have a reason -/

section Permissions

variable {env : Environment} {kernel : Kernel} {world next last : World} {act : Act} {acts : List Act} {pod : Nat}
  {flow : Conntrack.Flow}

/-- Nothing but an answer with a reason brings a permission about. -/
theorem permits_of_step (stepped : world.step env kernel act = some next)
    (permits : (next.pods pod).Permits flow) :
    (world.pods pod).Permits flow ∨
      ∃ index now, act = .answer pod index now ∧ Justified env world pod index now flow := by
  cases change_of_step stepped pod with
  | tracked done => exact Or.inl (PodNet.permits_of_track done permits)
  | expired done => exact Or.inl (PodNet.permits_of_expire done permits)
  | entered done => exact Or.inl (PodNet.permits_of_enter done permits)
  | left done => exact Or.inl (PodNet.permits_of_leave done permits)
  | @answered index now done =>
      rcases done.permits permits with old | given
      · exact Or.inl old
      · exact Or.inr ⟨index, now, rfl, given⟩
  | cleared named done =>
      rw [done] at permits
      exact Or.inl (PodNet.permits_of_updateMark permits)
  | attached done =>
      rw [done] at permits
      exact Or.inl (PodNet.permits_of_attach permits)
  | detached done =>
      rw [done] at permits
      exact Or.inl (PodNet.permits_of_detach permits)
  | unchanged same =>
      rw [same] at permits
      exact Or.inl permits

def JustifiedIn (env : Environment) (kernel : Kernel) (world : World) (acts : List Act)
    (pod : Nat) (flow : Conntrack.Flow) : Prop :=
  ∃ earlier index now later middle, acts = earlier ++ .answer pod index now :: later ∧
    Transitions.exec (World.step env kernel) world earlier = some middle ∧
    Justified env middle pod index now flow

theorem justified_of_permits (unpermitted : ¬(world.pods pod).Permits flow)
    (executed : Transitions.exec (World.step env kernel) world acts = some last)
    (permits : (last.pods pod).Permits flow) : JustifiedIn env kernel world acts pod flow := by
  obtain ⟨earlier, act, later, middle, next, split, reached, stepped, before, after⟩ :=
    Transitions.exec_turns (fun world : World => (world.pods pod).Permits flow) executed
      unpermitted permits
  rcases permits_of_step stepped after with still | ⟨index, now, rfl, given⟩
  · exact absurd still before
  · exact ⟨earlier, index, now, later, middle, split, reached, given⟩

theorem not_permits_empty (flow : Conntrack.Flow) : ¬PodNet.empty.Permits flow := by
  rintro (none | ⟨_, member, _⟩)
  · cases none
  · cases member

/-- In every run from a state in which the flow has no permission, the start or one after a
revocation, a connection with the accepting mark, whose packets the kernel no longer shows to
the daemon, owes it to an answer in the run that was given while the rules in force let the
packet through, or that closed a tracked flow. -/
theorem unexamined_justified (unpermitted : ¬(world.pods pod).Permits flow)
    (executed : Transitions.exec (World.step env kernel) world acts = some last)
    (marked : (last.pods pod).markOf flow = some 1) :
    JustifiedIn env kernel world acts pod flow := by
  exact justified_of_permits unpermitted executed (Or.inl marked)

def dnsEntry : Entry := ⟨⟨0x0a000001, 0x0a000002, 17, 5353, ⟨0, 53⟩⟩, 0, by decide⟩

def dnsPasses : List Act :=
  [.enter 1 dnsEntry.flow .output 7 dnsPacket, .answer 1 0 0, .leave 1 0 true]

def dnsActs : List Act := [.podUp 1, .track 1 dnsEntry] ++ dnsPasses

def dnsRequest : PolicyRequest where
  policyName := "dns"
  rules :=
    [{ action := .allow
       direction := .egress
       protocol := .udp
       httpRules := []
       fromAddresses := [⟨"10.0.0.1", 1⟩]
       toAddresses := [⟨"10.0.0.2", 2⟩]
       ports := []
       priority := 1 }]

def revokedWorld : World :=
  (Transitions.exec (World.step plainEnvironment plainKernel) World.start
    (dnsActs ++ [.policy dnsRequest])).getD World.start

theorem not_permits_revoked : ¬(revokedWorld.pods 1).Permits dnsEntry.flow := by
  rintro (marked | ⟨packet, member, _⟩)
  · exact absurd marked (by decide +kernel)
  · have none : (revokedWorld.pods 1).transit = [] := rfl
    rw [none] at member
    cases member

theorem unexamined_justified_dns :
    (∃ last, Transitions.exec (World.step plainEnvironment plainKernel) World.start dnsActs =
        some last ∧
      JustifiedIn plainEnvironment plainKernel World.start dnsActs 1 dnsEntry.flow) ∧
    ∃ last, Transitions.exec (World.step plainEnvironment plainKernel) revokedWorld dnsPasses =
        some last ∧
      JustifiedIn plainEnvironment plainKernel revokedWorld dnsPasses 1 dnsEntry.flow := by
  have first : (Transitions.exec (World.step plainEnvironment plainKernel) World.start
      dnsActs).map (fun world => (world.pods 1).markOf dnsEntry.flow) = some (some 1) := rfl
  have again : (Transitions.exec (World.step plainEnvironment plainKernel) revokedWorld
      dnsPasses).map (fun world => (world.pods 1).markOf dnsEntry.flow) = some (some 1) := rfl
  obtain ⟨last, executed, marked⟩ := Option.map_eq_some_iff.mp first
  obtain ⟨later, repeated, remarked⟩ := Option.map_eq_some_iff.mp again
  exact ⟨⟨last, executed, unexamined_justified (not_permits_empty _) executed marked⟩,
    later, repeated, unexamined_justified not_permits_revoked repeated remarked⟩

def dnsWorld : World :=
  (Transitions.exec (World.step plainEnvironment plainKernel) World.start dnsActs).getD World.start

end Permissions

/-! ### Permissions that stay -/

section Permanence

variable {env : Environment} {kernel : Kernel} {world next last : World} {act : Act} {acts : List Act}
  {pod index now : Nat} {flow : Conntrack.Flow}

theorem Answered.unexamined (answered : Answered env world next pod index now)
    (unexamined : (world.pods pod).Unexamined flow) : (next.pods pod).Unexamined flow := by
  have foreign : answered.flow ≠ flow := by
    intro same
    have waiting := unexamined.2 _ (List.mem_of_getElem? answered.found) same
    cases waiting
  refine ⟨?_, fun packet member named => ?_⟩
  · rw [PodNet.markOf, answered.entries]
    exact unexamined.1
  · rcases answered.transit with dropped | accepted
    · rw [dropped] at member
      exact unexamined.2 packet (List.mem_of_mem_eraseIdx member) named
    · rw [accepted] at member
      rcases List.mem_or_eq_of_mem_set member with old | new
      · exact unexamined.2 packet old named
      · rw [new] at named
        exact absurd named foreign

/-- Only an expiry and `UpdateMark` can end an unexamined connection. -/
theorem unexamined_step (stepped : world.step env kernel act = some next)
    (kept : act ≠ .expire pod flow)
    (spared : ∀ request, act = .policy request →
      request.clears world.daemon.microseg pod = true →
      ((world.pods pod).updateMark kernel.toCtnetlink).markOf flow = (world.pods pod).markOf flow)
    (unexamined : (world.pods pod).Unexamined flow) : (next.pods pod).Unexamined flow := by
  cases change_of_step stepped pod with
  | tracked done => exact unexamined.track done
  | expired done =>
      refine unexamined.expire (fun same => kept ?_) done
      rw [same]
  | entered done => exact unexamined.enter done
  | left done => exact unexamined.leave done
  | answered done => exact done.unexamined unexamined
  | cleared named done =>
      rw [done]
      refine ⟨(spared _ rfl named).trans unexamined.1, ?_⟩
      rw [PodNet.transit_updateMark]
      exact unexamined.2
  | attached done =>
      rw [done]
      exact unexamined.attach
  | detached done =>
      rw [done]
      exact unexamined.detach
  | unchanged same =>
      rw [same]
      exact unexamined

def PodNet.Jammed (net : PodNet) : Prop :=
  ∃ session, net.session = some session ∧ session.jammed = true

theorem jammed_step (stepped : world.step env kernel act = some next) (kept : act ≠ .podDown pod)
    (jammed : (world.pods pod).Jammed) : (next.pods pod).Jammed := by
  obtain ⟨session, opened, met⟩ := jammed
  cases change_of_step stepped pod with
  | tracked done => exact ⟨session, (kernel.track_spec done).1.trans opened, met⟩
  | expired done => exact ⟨session, (kernel.expire_spec done).1.trans opened, met⟩
  | entered done => exact ⟨session, (kernel.enter_spec done).1.trans opened, met⟩
  | left done => exact ⟨session, (kernel.leave_spec done).1.trans opened, met⟩
  | answered done => exact ⟨session, done.session.trans opened, met⟩
  | cleared named done =>
      rw [done]
      exact (PodNet.updateMark_of_jammed _ opened met).2
  | attached done =>
      refine ⟨session, ?_, met⟩
      rw [done, PodNet.attach, opened]
      rfl
  | detached done => exact absurd rfl kept
  | unchanged same => exact ⟨session, by rw [same, opened], met⟩

/-- Once the session of a pod has met an ICMP entry, no request at all takes a permission in
the pod back, as long as the pod is up. -/
theorem unexamined_of_jammed (unexamined : (world.pods pod).Unexamined flow)
    (jammed : (world.pods pod).Jammed) (kept : .expire pod flow ∉ acts)
    (up : .podDown pod ∉ acts)
    (executed : Transitions.exec (World.step env kernel) world acts = some last) :
    (last.pods pod).Unexamined flow ∧ (last.pods pod).Jammed := by
  refine Transitions.exec_invariant_of_forall
    (fun world : World => (world.pods pod).Unexamined flow ∧ (world.pods pod).Jammed)
    (· ∈ acts) ?_ ⟨unexamined, jammed⟩ (fun _ member => member) executed
  intro world act next before member stepped
  refine ⟨unexamined_step stepped (fun same => kept (same ▸ member)) ?_ before.1,
    jammed_step stepped (fun same => up (same ▸ member)) before.2⟩
  rintro request rfl clears
  obtain ⟨session, opened, met⟩ := before.2
  rw [PodNet.markOf, (PodNet.updateMark_of_jammed _ opened met).1]
  rfl

def pingedWorld : World :=
  (Transitions.exec (World.step plainEnvironment plainKernel) dnsWorld
    [.track 1 pingEntry, .policy dnsRequest]).getD World.start

theorem unexamined_of_jammed_dns :
    ∃ last, Transitions.exec (World.step plainEnvironment plainKernel) pingedWorld
        [.policy dnsRequest, .enter 1 dnsEntry.flow .output 8 dnsPacket] = some last ∧
      (last.pods 1).Unexamined dnsEntry.flow := by
  have before : (pingedWorld.pods 1).Unexamined dnsEntry.flow := by
    refine ⟨rfl, ?_⟩
    decide +kernel
  obtain ⟨last, executed⟩ : ∃ last, Transitions.exec (World.step plainEnvironment plainKernel) pingedWorld
      [.policy dnsRequest, .enter 1 dnsEntry.flow .output 8 dnsPacket] = some last := ⟨_, rfl⟩
  exact ⟨last, executed,
    (unexamined_of_jammed before ⟨_, rfl, rfl⟩ (by simp) (by simp) executed).1⟩

end Permanence

end NetPolicy.Daemon
