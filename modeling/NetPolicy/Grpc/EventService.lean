/-
The event service: publishers, one bounded queue, and a loop for every subscriber.

A push that finds the queue full discards its oldest event.  Each subscriber loop looks
whether its channel is closed, takes an event from the queue, and sends it into the
channel; the client at the other end receives, and may disconnect between any two of these
steps.  The loops compete for the events, so each event has at most one subscriber.  An
event that a loop has taken for a client that is gone is dropped with the failed send.
-/

import Mathlib.Data.List.Nodup
import Mathlib.Data.List.Perm.Subperm
import Mathlib.Data.List.Range
import NetPolicy.Library.Transitions

namespace NetPolicy.GrpcBridge

/-! ### Events -/

structure PolicyMatchEvent where
  protocol : Int
  action : Int
  direction : Int
  srcPort : Nat
  dstPort : Nat
  srcIp : String
  dstIp : String
  policyName : String
deriving DecidableEq, Repr

def protocolToL4Protocol : UInt8 → Int
  | 6 => 1
  | 17 => 2
  | 1 => 3
  | _ => 0

def netPolicyRuleToProto : Int → Int
  | 1 => 2
  | 2 => 3
  | 0 => 1
  | _ => 0

def flowDirToProto (direction : Int) : Int := if direction = 0 then 1 else 2

structure PolicyMatch where
  protocol : UInt8
  action : Int
  direction : Int
  srcPort : UInt16
  dstPort : UInt16
  srcIp : String
  dstIp : String
  policyName : String
deriving DecidableEq, Repr

def PolicyMatch.event (call : PolicyMatch) : PolicyMatchEvent :=
  { protocol := protocolToL4Protocol call.protocol
    action := netPolicyRuleToProto call.action
    direction := flowDirToProto call.direction
    srcPort := call.srcPort.toNat
    dstPort := call.dstPort.toNat
    srcIp := call.srcIp
    dstIp := call.dstIp
    policyName := call.policyName }

/-- An event and its place in the order of publication, which the code does not store. -/
structure Publication where
  number : Nat
  event : PolicyMatchEvent
deriving DecidableEq, Repr

/-! ### The queue -/

def eventQueueCapacity : Nat := 256

namespace EventQueue

def push (queue : List Publication) (publication : Publication) :
    List Publication × Option Publication :=
  if eventQueueCapacity ≤ queue.length then (queue.tail ++ [publication], queue.head?)
  else (queue ++ [publication], none)

/-- `EventQueue::wait_and_pop` under the lock.  It returns without an event only if the
queue is still empty when the time is up. -/
def waitAndPop : List Publication → Option (Publication × List Publication)
  | [] => none
  | oldest :: rest => some (oldest, rest)

end EventQueue

/-! ### Subscribers -/

/-- Where a subscriber loop is: before `is_closed`, in `wait_and_pop`, in `blocking_send`,
or past the loop. -/
inductive Phase where
  | checking
  | waiting
  | sending (publication : Publication)
  | stopped
deriving DecidableEq, Repr

def Phase.held : Phase → List Publication
  | .sending publication => [publication]
  | .checking => []
  | .waiting => []
  | .stopped => []

/-- A subscriber loop and the channel to its client.  `sent` and `received` only record
what has happened. -/
structure Subscriber where
  phase : Phase
  closed : Bool
  channel : List Publication
  sent : List Publication
  received : List Publication
deriving DecidableEq, Repr

def channelCapacity : Nat := 16

namespace Subscriber

def connected : Subscriber :=
  { phase := .checking, closed := false, channel := [], sent := [], received := [] }

def disconnect (subscriber : Subscriber) : Option Subscriber :=
  if subscriber.closed then none else some { subscriber with closed := true, channel := [] }

def check (subscriber : Subscriber) : Option Subscriber :=
  match subscriber.phase with
  | .checking =>
      some { subscriber with phase := if subscriber.closed then .stopped else .waiting }
  | .waiting => none
  | .sending _ => none
  | .stopped => none

def timeOut (subscriber : Subscriber) : Option Subscriber :=
  match subscriber.phase with
  | .waiting => some { subscriber with phase := .checking }
  | .checking => none
  | .sending _ => none
  | .stopped => none

def receive (subscriber : Subscriber) : Option Subscriber :=
  match subscriber.channel with
  | [] => none
  | next :: rest =>
      some { subscriber with channel := rest, received := subscriber.received ++ [next] }

/-- Everything the loop has taken from the queue, but for a failed send. -/
def owned (subscriber : Subscriber) : List Publication := subscriber.sent ++ subscriber.phase.held

/-- What the client has received and what waits in the channel are the first events that
were sent, and all of them as long as the client is there. -/
structure Delivers (subscriber : Subscriber) : Prop where
  first : subscriber.received ++ subscriber.channel <+: subscriber.sent
  all : subscriber.closed = false → subscriber.received ++ subscriber.channel = subscriber.sent

end Subscriber

/-! ### The service -/

/-- An event discarded by a push, with the queue that the push found. -/
structure Discard where
  oldest : Publication
  found : List Publication
deriving DecidableEq, Repr

/-- The last three fields only record what has happened. -/
structure EventService where
  queue : List Publication
  subscribers : List Subscriber
  published : List Publication
  discarded : List Discard
  dropped : List Publication
deriving DecidableEq, Repr

inductive EventAction where
  | publish (call : PolicyMatch)
  | connect
  | disconnect (index : Nat)
  | check (index : Nat)
  | pop (index : Nat)
  | timeOut (index : Nat)
  | send (index : Nat)
  | receive (index : Nat)
deriving DecidableEq, Repr

namespace EventService

def start : EventService :=
  { queue := [], subscribers := [], published := [], discarded := [], dropped := [] }

def publishPolicyMatch (service : EventService) (call : PolicyMatch) : EventService :=
  let publication := { number := service.published.length, event := call.event }
  let pushed := EventQueue.push service.queue publication
  { service with
    queue := pushed.1
    published := service.published ++ [publication]
    discarded := service.discarded ++
      (pushed.2.map fun oldest => { oldest := oldest, found := service.queue }).toList }

def advance (service : EventService) (index : Nat) (act : Subscriber → Option Subscriber) :
    Option EventService :=
  match service.subscribers[index]? with
  | none => none
  | some subscriber =>
      (act subscriber).map fun next =>
        { service with subscribers := service.subscribers.set index next }

def pop (service : EventService) (index : Nat) : Option EventService :=
  match service.subscribers[index]? with
  | none => none
  | some subscriber =>
      match subscriber.phase, EventQueue.waitAndPop service.queue with
      | .waiting, some (oldest, rest) =>
          some
            { service with
              queue := rest
              subscribers :=
                service.subscribers.set index { subscriber with phase := .sending oldest } }
      | _, _ => none

/-- `blocking_send` waits while the channel is full.  It fails once the client is gone,
and the event goes with it. -/
def send (service : EventService) (index : Nat) : Option EventService :=
  match service.subscribers[index]? with
  | none => none
  | some subscriber =>
      match subscriber.phase with
      | .sending publication =>
          if subscriber.closed then
            some
              { service with
                subscribers := service.subscribers.set index { subscriber with phase := .stopped }
                dropped := service.dropped ++ [publication] }
          else if subscriber.channel.length < channelCapacity then
            some
              { service with
                subscribers :=
                  service.subscribers.set index
                    { subscriber with
                      phase := .checking
                      channel := subscriber.channel ++ [publication]
                      sent := subscriber.sent ++ [publication] } }
          else none
      | .checking => none
      | .waiting => none
      | .stopped => none

def step (service : EventService) : EventAction → Option EventService
  | .publish call => some (service.publishPolicyMatch call)
  | .connect => some { service with subscribers := service.subscribers ++ [.connected] }
  | .disconnect index => service.advance index Subscriber.disconnect
  | .check index => service.advance index Subscriber.check
  | .pop index => service.pop index
  | .timeOut index =>
      if service.queue = [] then service.advance index Subscriber.timeOut else none
  | .send index => service.send index
  | .receive index => service.advance index Subscriber.receive

/-! ### What a step can do -/

structure Seated (service : EventService) (index : Nat) (subscriber : Subscriber)
    (before after : List Subscriber) : Prop where
  subscribers : service.subscribers = before ++ subscriber :: after
  index : before.length = index

theorem seated_of_getElem? {service : EventService} {index : Nat} {subscriber : Subscriber}
    (found : service.subscribers[index]? = some subscriber) :
    ∃ before after, service.Seated index subscriber before after ∧
      ∀ next, service.subscribers.set index next = before ++ next :: after := by
  obtain ⟨inside, here⟩ := List.getElem?_eq_some_iff.mp found
  refine ⟨service.subscribers.take index, service.subscribers.drop (index + 1), ⟨?_, ?_⟩, ?_⟩
  · rw [← here, List.getElem_cons_drop, List.take_append_drop]
  · rw [List.length_take, Nat.min_eq_left (Nat.le_of_lt inside)]
  · intro next
    rw [List.set_eq_take_append_cons_drop, if_pos inside]

inductive Steps (service : EventService) : EventAction → EventService → Prop
  | published (call : PolicyMatch) : Steps service (.publish call) (service.publishPolicyMatch call)
  | connected :
      Steps service .connect { service with subscribers := service.subscribers ++ [.connected] }
  | quiet {action : EventAction} {index : Nat} {subscriber next : Subscriber}
      {before after : List Subscriber} (seated : service.Seated index subscriber before after)
      (sent : next.sent = subscriber.sent) (held : next.phase.held = subscriber.phase.held)
      (delivers : subscriber.Delivers → next.Delivers) (other : ∀ sender, action ≠ .send sender) :
      Steps service action { service with subscribers := before ++ next :: after }
  | popped {index : Nat} {subscriber : Subscriber} {before after : List Subscriber}
      {oldest : Publication} {rest : List Publication}
      (seated : service.Seated index subscriber before after) (waiting : subscriber.phase = .waiting)
      (queue : service.queue = oldest :: rest) :
      Steps service (.pop index)
        { service with
          queue := rest
          subscribers := before ++ { subscriber with phase := .sending oldest } :: after }
  | sent {index : Nat} {subscriber : Subscriber} {before after : List Subscriber}
      {publication : Publication} (seated : service.Seated index subscriber before after)
      (sending : subscriber.phase = .sending publication) (opened : subscriber.closed = false) :
      Steps service (.send index)
        { service with
          subscribers :=
            before ++
              { subscriber with
                phase := .checking
                channel := subscriber.channel ++ [publication]
                sent := subscriber.sent ++ [publication] } :: after }
  | dropped {index : Nat} {subscriber : Subscriber} {before after : List Subscriber}
      {publication : Publication} (seated : service.Seated index subscriber before after)
      (sending : subscriber.phase = .sending publication) (closed : subscriber.closed = true) :
      Steps service (.send index)
        { service with
          subscribers := before ++ { subscriber with phase := .stopped } :: after
          dropped := service.dropped ++ [publication] }

def Quiet (act : Subscriber → Option Subscriber) : Prop :=
  ∀ subscriber next, act subscriber = some next →
    next.sent = subscriber.sent ∧ next.phase.held = subscriber.phase.held ∧
      (subscriber.Delivers → next.Delivers)

theorem quiet_disconnect : Quiet Subscriber.disconnect := by
  intro subscriber next acted
  unfold Subscriber.disconnect at acted
  split at acted
  · cases acted
  · cases acted
    refine ⟨rfl, rfl, fun delivers => ⟨?_, fun opened => nomatch opened⟩⟩
    rw [List.append_nil]
    exact (List.prefix_append _ _).trans delivers.first

theorem quiet_check : Quiet Subscriber.check := by
  intro subscriber next acted
  unfold Subscriber.check at acted
  split at acted
  · rename_i checking
    cases acted
    refine ⟨rfl, ?_, fun delivers => ⟨delivers.first, delivers.all⟩⟩
    rw [checking]
    cases subscriber.closed <;> rfl
  · cases acted
  · cases acted
  · cases acted

theorem quiet_timeOut : Quiet Subscriber.timeOut := by
  intro subscriber next acted
  unfold Subscriber.timeOut at acted
  split at acted
  · rename_i waiting
    cases acted
    rw [waiting]
    exact ⟨rfl, rfl, fun delivers => ⟨delivers.first, delivers.all⟩⟩
  · cases acted
  · cases acted
  · cases acted

theorem quiet_receive : Quiet Subscriber.receive := by
  intro subscriber next acted
  unfold Subscriber.receive at acted
  split at acted
  · cases acted
  · rename_i first rest waits
    cases acted
    have moved : subscriber.received ++ [first] ++ rest =
        subscriber.received ++ subscriber.channel := by
      rw [waits, List.append_assoc, List.singleton_append]
    exact ⟨rfl, rfl, fun delivers => ⟨moved ▸ delivers.first, moved ▸ delivers.all⟩⟩

theorem advance_steps {service next : EventService} {index : Nat} {action : EventAction}
    {act : Subscriber → Option Subscriber} (quiet : Quiet act)
    (other : ∀ sender, action ≠ .send sender) (advanced : service.advance index act = some next) :
    Steps service action next := by
  unfold advance at advanced
  split at advanced
  · cases advanced
  · rename_i subscriber found
    obtain ⟨moved, acted, rfl⟩ := Option.map_eq_some_iff.mp advanced
    obtain ⟨before, after, seated, replaced⟩ := seated_of_getElem? found
    obtain ⟨sent, held, delivers⟩ := quiet subscriber moved acted
    rw [replaced]
    exact .quiet seated sent held delivers other

theorem pop_steps {service next : EventService} {index : Nat}
    (popped : service.pop index = some next) : Steps service (.pop index) next := by
  unfold pop at popped
  split at popped
  · cases popped
  · rename_i subscriber found
    obtain ⟨before, after, seated, replaced⟩ := seated_of_getElem? found
    split at popped
    · rename_i oldest rest waiting taken
      cases popped
      rw [replaced]
      apply Steps.popped seated waiting
      cases queued : service.queue with
      | nil =>
          rw [queued] at taken
          cases taken
      | cons first others =>
          rw [queued] at taken
          cases taken
          rfl
    · cases popped

theorem send_steps {service next : EventService} {index : Nat}
    (sends : service.send index = some next) : Steps service (.send index) next := by
  unfold send at sends
  split at sends
  · cases sends
  · rename_i subscriber found
    obtain ⟨before, after, seated, replaced⟩ := seated_of_getElem? found
    split at sends
    · rename_i publication sending
      split at sends
      · rename_i closed
        cases sends
        rw [replaced]
        exact .dropped seated sending closed
      · rename_i opened
        split at sends
        · cases sends
          rw [replaced]
          exact .sent seated sending (Bool.eq_false_iff.mpr opened)
        · cases sends
    · cases sends
    · cases sends
    · cases sends

theorem step_steps {service next : EventService} {action : EventAction}
    (stepped : service.step action = some next) : Steps service action next := by
  cases action with
  | publish call =>
      cases stepped
      exact .published call
  | connect =>
      cases stepped
      exact .connected
  | disconnect index => exact advance_steps quiet_disconnect (by intro _ same; cases same) stepped
  | check index => exact advance_steps quiet_check (by intro _ same; cases same) stepped
  | pop index => exact pop_steps stepped
  | timeOut index =>
      rw [step] at stepped
      split at stepped
      · exact advance_steps quiet_timeOut (by intro _ same; cases same) stepped
      · cases stepped
  | send index => exact send_steps stepped
  | receive index => exact advance_steps quiet_receive (by intro _ same; cases same) stepped

/-! ### The account of the published events -/

def account (service : EventService) : List Publication :=
  service.queue ++ service.discarded.map Discard.oldest ++
    service.subscribers.flatMap Subscriber.owned

structure Accounted (service : EventService) : Prop where
  numbered : service.published.map Publication.number = List.range service.published.length
  bounded : service.queue.length ≤ eventQueueCapacity
  overflowed : ∀ discard ∈ service.discarded,
    discard.found.length = eventQueueCapacity ∧ discard.found.head? = some discard.oldest
  complete : (service.account ++ service.dropped).Perm service.published
  ordered : ∃ taken, service.published = taken ++ service.queue ∧
    ∀ subscriber ∈ service.subscribers, subscriber.owned.Sublist taken
  delivers : ∀ subscriber ∈ service.subscribers, subscriber.Delivers

theorem accounted_start : start.Accounted where
  numbered := rfl
  bounded := Nat.zero_le _
  overflowed := fun _ member => nomatch member
  complete := .nil
  ordered := ⟨[], rfl, fun _ member => nomatch member⟩
  delivers := fun _ member => nomatch member

/-- A push discards the oldest event exactly if it finds the queue full. -/
theorem publishPolicyMatch_cases {service : EventService}
    (bounded : service.queue.length ≤ eventQueueCapacity) (call : PolicyMatch) :
    ∃ publication : Publication, publication.number = service.published.length ∧
      (service.queue.length < eventQueueCapacity ∧
          service.publishPolicyMatch call =
            { service with
              queue := service.queue ++ [publication]
              published := service.published ++ [publication] } ∨
        ∃ oldest rest, service.queue = oldest :: rest ∧
          service.queue.length = eventQueueCapacity ∧
          service.publishPolicyMatch call =
            { service with
              queue := rest ++ [publication]
              published := service.published ++ [publication]
              discarded :=
                service.discarded ++ [{ oldest := oldest, found := service.queue }] }) := by
  refine ⟨{ number := service.published.length, event := call.event }, rfl, ?_⟩
  unfold publishPolicyMatch EventQueue.push
  dsimp only
  by_cases full : eventQueueCapacity ≤ service.queue.length
  · rw [if_pos full]
    cases queue : service.queue with
    | nil =>
        rw [queue] at full
        cases full
    | cons oldest rest =>
        rw [queue] at full bounded
        exact Or.inr ⟨oldest, rest, rfl, Nat.le_antisymm bounded full, rfl⟩
  · rw [if_neg full, Option.map_none, Option.toList_none, List.append_nil]
    exact Or.inl ⟨Nat.lt_of_not_le full, rfl⟩

theorem numbered_append {published : List Publication} {publication : Publication}
    (numbered : published.map Publication.number = List.range published.length)
    (number : publication.number = published.length) :
    (published ++ [publication]).map Publication.number =
      List.range (published ++ [publication]).length := by
  rw [List.map_append, numbered, List.length_append, List.length_singleton, List.range_succ,
    List.map_singleton, number]

theorem Accounted.append {service : EventService} (accounted : service.Accounted)
    {publication : Publication} (number : publication.number = service.published.length)
    (room : service.queue.length < eventQueueCapacity) :
    Accounted
      { service with
        queue := service.queue ++ [publication]
        published := service.published ++ [publication] } := by
  obtain ⟨taken, split, owned⟩ := accounted.ordered
  refine
    { numbered := numbered_append accounted.numbered number
      bounded := ?_
      overflowed := accounted.overflowed
      complete := ?_
      ordered := ⟨taken, ?_, owned⟩
      delivers := accounted.delivers }
  · rw [List.length_append, List.length_singleton]
    exact room
  · rw [List.perm_iff_count]
    intro other
    have counted := List.perm_iff_count.mp accounted.complete other
    simp only [account, List.count_append] at counted ⊢
    omega
  · dsimp only
    rw [split, List.append_assoc]

theorem Accounted.overflow {service : EventService} (accounted : service.Accounted)
    {publication oldest : Publication} {rest : List Publication}
    (number : publication.number = service.published.length)
    (queue : service.queue = oldest :: rest) (full : service.queue.length = eventQueueCapacity) :
    Accounted
      { service with
        queue := rest ++ [publication]
        published := service.published ++ [publication]
        discarded := service.discarded ++ [{ oldest := oldest, found := service.queue }] } := by
  obtain ⟨taken, split, owned⟩ := accounted.ordered
  refine
    { numbered := numbered_append accounted.numbered number
      bounded := ?_
      overflowed := ?_
      complete := ?_
      ordered := ⟨taken ++ [oldest], ?_, ?_⟩
      delivers := accounted.delivers }
  · rw [queue, List.length_cons] at full
    rw [List.length_append, List.length_singleton]
    exact Nat.le_of_eq full
  · intro discard member
    rcases List.mem_append.mp member with earlier | now
    · exact accounted.overflowed discard earlier
    · rw [List.mem_singleton.mp now]
      exact ⟨full, by rw [queue]; rfl⟩
  · rw [List.perm_iff_count]
    intro other
    have counted := List.perm_iff_count.mp accounted.complete other
    simp only [account, queue, List.count_append, List.count_cons, List.count_nil,
      List.map_append, List.map_singleton] at counted ⊢
    omega
  · dsimp only
    rw [split, queue, List.append_assoc, List.append_assoc]
    rfl
  · intro subscriber member
    exact (owned subscriber member).trans (List.sublist_append_left _ _)

theorem Accounted.publishPolicyMatch {service : EventService} (accounted : service.Accounted)
    (call : PolicyMatch) : (service.publishPolicyMatch call).Accounted := by
  obtain ⟨publication, number, outcome⟩ := publishPolicyMatch_cases accounted.bounded call
  rcases outcome with ⟨room, published⟩ | ⟨oldest, rest, queue, full, published⟩
  · rw [published]
    exact accounted.append number room
  · rw [published]
    exact accounted.overflow number queue full

theorem forall_mem_seated {service : EventService} {index : Nat} {subscriber next : Subscriber}
    {before after : List Subscriber} (seated : service.Seated index subscriber before after)
    {good better : Subscriber → Prop} (every : ∀ other ∈ service.subscribers, good other)
    (kept : ∀ other, good other → better other) (moved : good subscriber → better next) :
    ∀ other ∈ before ++ next :: after, better other := by
  rw [seated.subscribers, List.forall_mem_append, List.forall_mem_cons] at every
  rw [List.forall_mem_append, List.forall_mem_cons]
  exact ⟨fun other member => kept other (every.1 other member), moved every.2.1,
    fun other member => kept other (every.2.2 other member)⟩

theorem Accounted.connect {service : EventService} (accounted : service.Accounted) :
    Accounted { service with subscribers := service.subscribers ++ [.connected] } := by
  obtain ⟨taken, split, owned⟩ := accounted.ordered
  refine
    { numbered := accounted.numbered
      bounded := accounted.bounded
      overflowed := accounted.overflowed
      complete := ?_
      ordered := ⟨taken, split, ?_⟩
      delivers := ?_ }
  · have complete := accounted.complete
    unfold account at complete ⊢
    rw [List.flatMap_append, List.flatMap_singleton]
    exact (List.append_nil (service.subscribers.flatMap Subscriber.owned)).symm ▸ complete
  · rw [List.forall_mem_append, List.forall_mem_singleton]
    exact ⟨owned, List.nil_sublist _⟩
  · rw [List.forall_mem_append, List.forall_mem_singleton]
    exact ⟨accounted.delivers, ⟨List.nil_prefix, fun _ => rfl⟩⟩

/-- A step of one subscriber: what it takes from the queue it owns, and what it no longer
owns is dropped. -/
theorem Accounted.reseat {service : EventService} (accounted : service.Accounted) {index : Nat}
    {subscriber next : Subscriber} {before after : List Subscriber}
    (seated : service.Seated index subscriber before after)
    {gone rest lost dropped : List Publication} (queue : service.queue = gone ++ rest)
    (passed : next.owned ++ lost = subscriber.owned ++ gone)
    (records : dropped = service.dropped ++ lost)
    (delivers : subscriber.Delivers → next.Delivers) :
    Accounted
      { service with
        queue := rest
        subscribers := before ++ next :: after
        dropped := dropped } := by
  obtain ⟨taken, split, owned⟩ := accounted.ordered
  refine
    { numbered := accounted.numbered
      bounded := ?_
      overflowed := accounted.overflowed
      complete := ?_
      ordered := ⟨taken ++ gone, ?_, ?_⟩
      delivers := forall_mem_seated seated accounted.delivers (fun _ kept => kept) delivers }
  · have bounded := accounted.bounded
    rw [queue, List.length_append] at bounded
    exact Nat.le_trans (Nat.le_add_left _ _) bounded
  · rw [List.perm_iff_count]
    intro other
    have counted := List.perm_iff_count.mp accounted.complete other
    have moved := congrArg (List.count other) passed
    simp only [account, seated.subscribers, queue, records, List.flatMap_append,
      List.flatMap_cons, List.count_append] at counted moved ⊢
    omega
  · rw [split, queue, List.append_assoc]
  · refine forall_mem_seated seated owned ?_ ?_
    · intro other kept
      exact kept.trans (List.sublist_append_left _ _)
    · intro kept
      have part : next.owned.Sublist (subscriber.owned ++ gone) :=
        passed ▸ List.sublist_append_left next.owned lost
      exact part.trans (kept.append_right gone)

theorem Accounted.step {service next : EventService} {action : EventAction}
    (accounted : service.Accounted) (stepped : service.step action = some next) :
    next.Accounted := by
  cases step_steps stepped with
  | published call => exact accounted.publishPolicyMatch call
  | connected => exact accounted.connect
  | quiet seated sent held delivers other =>
      apply accounted.reseat seated (List.nil_append _).symm ?_ (List.append_nil _).symm delivers
      unfold Subscriber.owned
      rw [sent, held]
  | @popped index subscriber before after oldest rest seated waiting queue =>
      have head : service.queue = [oldest] ++ rest := queue
      refine accounted.reseat seated head ?_ (List.append_nil _).symm ?_
      · unfold Subscriber.owned
        rw [waiting, Phase.held, Phase.held, List.append_nil, List.append_nil]
      · exact fun kept => ⟨kept.first, kept.all⟩
  | @sent index subscriber before after publication seated sending opened =>
      apply accounted.reseat seated (List.nil_append _).symm ?_ (List.append_nil _).symm
      · intro kept
        have extended : subscriber.received ++ (subscriber.channel ++ [publication]) =
            subscriber.sent ++ [publication] := by
          rw [← List.append_assoc, kept.all opened]
        exact ⟨extended ▸ List.prefix_refl _, fun _ => extended⟩
      · unfold Subscriber.owned
        rw [sending, Phase.held, Phase.held, List.append_nil]
  | dropped seated sending closed =>
      refine accounted.reseat seated (List.nil_append _).symm ?_ rfl ?_
      · unfold Subscriber.owned
        rw [sending, Phase.held, Phase.held, List.append_nil, List.append_nil]
      · exact fun kept => ⟨kept.first, kept.all⟩

theorem accounted_exec {actions : List EventAction} {last : EventService}
    (executed : Transitions.exec step start actions = some last) : last.Accounted :=
  Transitions.exec_invariant (fun accounted stepped => Accounted.step accounted stepped)
    accounted_start executed

/-! ### Where an event is -/

/-- The places of an event that is not dropped; subscribers are named by their order of
connection. -/
inductive Place where
  | queued
  | discarded
  | held (index : Nat)
  | sent (index : Nat)
deriving DecidableEq, Repr

def located (service : EventService) : List (Place × Publication) :=
  service.queue.map (fun publication => (.queued, publication)) ++
    service.discarded.map (fun discard => (.discarded, discard.oldest)) ++
    service.subscribers.zipIdx.flatMap fun (subscriber, index) =>
      subscriber.sent.map (fun publication => (.sent index, publication)) ++
        subscriber.phase.held.map (fun publication => (.held index, publication))

theorem located_account (service : EventService) :
    service.located.map Prod.snd = service.account := by
  have owned : service.subscribers.flatMap Subscriber.owned =
      service.subscribers.zipIdx.flatMap fun (subscriber, _) => subscriber.owned := by
    conv_lhs => rw [← List.zipIdx_map_fst 0 service.subscribers, List.flatMap_map]
  unfold located account
  rw [owned]
  simp [Subscriber.owned, List.map_flatMap, Function.comp_def]

theorem Accounted.place_iff {service : EventService} (accounted : service.Accounted)
    {publication : Publication} (published : publication ∈ service.published) :
    (∃! place, (place, publication) ∈ service.located) ↔ publication ∉ service.dropped := by
  have distinct : (service.account ++ service.dropped).Nodup := by
    rw [accounted.complete.nodup_iff]
    apply List.Nodup.of_map Publication.number
    rw [accounted.numbered]
    exact List.nodup_range
  obtain ⟨placed, -, apart⟩ := List.nodup_append.mp distinct
  rw [← located_account] at placed
  constructor
  · intro somewhere isDropped
    obtain ⟨place, located, -⟩ := somewhere
    have inAccount : publication ∈ service.account := by
      rw [← located_account]
      exact List.mem_map.mpr ⟨_, located, rfl⟩
    exact apart publication inAccount publication isDropped rfl
  · intro kept
    have inAccount := (List.mem_append.mp (accounted.complete.mem_iff.mpr published)).resolve_right
      kept
    rw [← located_account] at inAccount
    obtain ⟨⟨place, _⟩, located, rfl⟩ := List.mem_map.mp inAccount
    refine ⟨place, located, ?_⟩
    intro other elsewhere
    exact congrArg Prod.fst (List.inj_on_of_nodup_map placed elsewhere located rfl)

def SendsOpen (service : EventService) : EventAction → Prop
  | .send index => ∀ subscriber ∈ service.subscribers[index]?, subscriber.closed = false
  | .publish _ => True
  | .connect => True
  | .disconnect _ => True
  | .check _ => True
  | .pop _ => True
  | .timeOut _ => True
  | .receive _ => True

instance (service : EventService) : ∀ action, Decidable (service.SendsOpen action)
  | .send index =>
      inferInstanceAs (Decidable (∀ subscriber ∈ service.subscribers[index]?, _))
  | .publish _ => .isTrue trivial
  | .connect => .isTrue trivial
  | .disconnect _ => .isTrue trivial
  | .check _ => .isTrue trivial
  | .pop _ => .isTrue trivial
  | .timeOut _ => .isTrue trivial
  | .receive _ => .isTrue trivial

theorem Seated.getElem? {service : EventService} {index : Nat} {subscriber : Subscriber}
    {before after : List Subscriber} (seated : service.Seated index subscriber before after) :
    service.subscribers[index]? = some subscriber := by
  rw [seated.subscribers, ← seated.index, List.getElem?_append_right (Nat.le_refl _),
    Nat.sub_self, List.getElem?_cons_zero]

/-- Events are dropped by sends to clients that are gone, and by nothing else. -/
theorem dropped_step {service next : EventService} {action : EventAction}
    (stepped : service.step action = some next) :
    next.dropped = [] ↔ service.dropped = [] ∧ service.SendsOpen action := by
  cases step_steps stepped with
  | published call => exact (and_iff_left trivial).symm
  | connected => exact (and_iff_left trivial).symm
  | quiet seated sent held delivers other =>
      have opened : service.SendsOpen action := by
        cases action with
        | send index => exact absurd rfl (other index)
        | _ => trivial
      exact (and_iff_left opened).symm
  | popped seated waiting queue => exact (and_iff_left trivial).symm
  | @sent index subscriber before after publication seated sending opened =>
      have opens : service.SendsOpen (.send index) := by
        intro other found
        rw [seated.getElem?] at found
        cases found
        exact opened
      exact (and_iff_left opens).symm
  | @dropped index subscriber before after publication seated sending closed =>
      constructor
      · intro empty
        cases List.append_eq_nil_iff.mp empty |>.2
      · intro opens
        have opened := opens.2 subscriber seated.getElem?
        rw [closed] at opened
        cases opened

/-- In every interleaving: the queue is never longer than its capacity; events are
discarded as the oldest of a full queue; a client receives the first of the events that
were sent to it, and they were sent in the order of publication.  Every published event
is in exactly one place, exactly if no send finds its client gone. -/
theorem events_accounted_iff {actions : List EventAction} {last : EventService}
    (executed : Transitions.exec step start actions = some last) :
    last.queue.length ≤ eventQueueCapacity ∧
      (∀ discard ∈ last.discarded,
        discard.found.length = eventQueueCapacity ∧
          discard.found.head? = some discard.oldest) ∧
      last.published.map Publication.number = List.range last.published.length ∧
      (∀ subscriber ∈ last.subscribers,
        subscriber.received <+: subscriber.sent ∧ subscriber.sent.Sublist last.published) ∧
      ((∀ publication ∈ last.published, ∃! place, (place, publication) ∈ last.located) ↔
        Transitions.Along step SendsOpen start actions) := by
  have accounted := accounted_exec executed
  have none : last.dropped = [] ↔ Transitions.Along step SendsOpen start actions := by
    have along := Transitions.exec_along_iff (fun stepped => dropped_step stepped) executed
    exact along.trans (and_iff_right rfl)
  refine ⟨accounted.bounded, accounted.overflowed, accounted.numbered, ?_, ?_⟩
  · intro subscriber member
    obtain ⟨taken, split, owned⟩ := accounted.ordered
    constructor
    · exact (List.prefix_append _ _).trans (accounted.delivers subscriber member).first
    · rw [split]
      have sent : subscriber.sent.Sublist subscriber.owned := List.sublist_append_left _ _
      exact (sent.trans (owned subscriber member)).trans (List.sublist_append_left _ _)
  · rw [← none]
    constructor
    · intro everywhere
      rw [List.eq_nil_iff_forall_not_mem]
      intro publication isDropped
      have published : publication ∈ last.published :=
        accounted.complete.mem_iff.mp (List.mem_append_right _ isDropped)
      exact (accounted.place_iff published).mp (everywhere publication published) isDropped
    · intro empty publication published
      rw [accounted.place_iff published, empty]
      exact List.not_mem_nil

def sshMatch : PolicyMatch :=
  { protocol := 6
    action := 0
    direction := 0
    srcPort := 40000
    dstPort := 22
    srcIp := "10.0.0.1"
    dstIp := "10.0.0.2"
    policyName := "ssh" }

def takenEvent : List EventAction := [.connect, .check 0, .publish sshMatch, .pop 0]

theorem sshMatch_delivered :
    ∃ last, Transitions.exec step start (takenEvent ++ [.send 0, .receive 0]) = some last ∧
      last.published.length = 1 ∧
      ∀ publication ∈ last.published, ∃! place, (place, publication) ∈ last.located := by
  have one : (Transitions.exec step start (takenEvent ++ [.send 0, .receive 0])).map
      (fun last => last.published.length) = some 1 := by decide
  obtain ⟨last, executed, published⟩ := Option.map_eq_some_iff.mp one
  have opened : Transitions.Along step SendsOpen start (takenEvent ++ [.send 0, .receive 0]) := by
    decide
  exact ⟨last, executed, published, (events_accounted_iff executed).2.2.2.2.mpr opened⟩

/-- The client disconnects before the send: the event is gone, although nothing was
discarded. -/
theorem sshMatch_dropped :
    (Transitions.exec step start (takenEvent ++ [.disconnect 0, .send 0])).map
        (fun last => (last.published.map Publication.event, last.located, last.discarded)) =
      some ([sshMatch.event], [], []) := by
  decide

end EventService

end NetPolicy.GrpcBridge
