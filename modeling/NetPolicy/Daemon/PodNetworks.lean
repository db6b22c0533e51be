/-
The network of a pod.

A packet that enters a pod takes over the mark of its connection.  With the accepting mark
it passes without the daemon seeing it; otherwise it is queued, answered, and on leaving it
leaves the mark of its answer to the connection.  A clearing call of the conntrack session
takes marks back.  Nothing else in the network gives a connection the accepting mark or
takes it away, except that the connection is forgotten.
-/

import NetPolicy.Conntrack.MarkUpdates
import NetPolicy.Daemon.Run
import NetPolicy.Iptables.Traversal

namespace NetPolicy.Daemon

open NetPolicy.Policy NetPolicy.Flow NetPolicy.Http NetPolicy.Conntrack

/-! ### Pods -/

/-- A conntrack session that has only made clearing calls, and whether it has met an ICMP
entry. -/
structure PodSession where
  session : ConntrackSession
  jammed : Bool
  holds : Session.Holds session ⟨{}, jammed⟩

def PodSession.opened : PodSession := ⟨openConntrackSession, false, open_holds⟩

inductive Stage where
  | queued (queue : Queue) (msg : NfqMessage)
  | leaving (mark : UInt32)
deriving DecidableEq, Repr

/-- A packet between the hook where it enters and the one where it leaves. -/
structure Transit where
  flow : Conntrack.Flow
  stage : Stage
deriving DecidableEq, Repr

structure PodNet where
  session : Option PodSession
  entries : List Entry
  distinct : (entries.map Entry.flow).Nodup
  transit : List Transit

theorem flows_sweep (selection : Selection) (mark : UInt32) (jammed : Bool) (entries : List Entry) :
    (selection.sweep mark jammed entries).2.map Entry.flow = entries.map Entry.flow := by
  induction entries generalizing jammed with
  | nil => rfl
  | cons entry rest ih =>
      rw [Selection.sweep, List.map_cons, List.map_cons, ih]
      split <;> rfl

namespace PodNet

def empty : PodNet := ⟨none, [], List.nodup_nil, []⟩

def markOf (net : PodNet) (flow : Conntrack.Flow) : Option UInt32 :=
  (net.entries.find? fun entry => entry.flow = flow).map Entry.mark

def clearing (net : PodNet) : QuietCall := QuietCall.on {} 0 net.entries net.distinct

theorem clears_clearing (net : PodNet) : net.clearing.Clears := ⟨rfl, rfl⟩

theorem table_clearing (kernel : Ctnetlink) (net : PodNet) (pod : PodSession) :
    pod.session.table kernel net.clearing =
      (({} : Selection).sweep 0 pod.jammed net.entries).2 := by
  have low : ¬net.clearing.mark > 100 := by
    change ¬(0 : UInt32) > 100
    decide
  rw [(call_spec pod.holds net.clearing).2 kernel, (SessionState.call_low low).2]
  rfl

def updateMark (kernel : Ctnetlink) (net : PodNet) : PodNet :=
  match net.session with
  | none => net
  | some pod =>
      { net with
        session := some
          { session := pod.session.after net.clearing
            jammed := pod.jammed || net.entries.any fun entry => entry.flow.isIcmp
            holds := by
              have next := (call_spec pod.holds net.clearing).1
              rw [SessionState.after_of_clears rfl net.clears_clearing] at next
              exact next }
        entries := pod.session.table kernel net.clearing
        distinct := by
          rw [table_clearing, flows_sweep]
          exact net.distinct }

/-- Where a packet goes that has taken over a mark.  Nobody listens in a pod without resources,
and the queue is then passed by. -/
def stageOf (net : PodNet) (mark : UInt32) (queue : Queue) (id : Nat) (payload : List UInt8) :
    Stage :=
  if mark = 1 ∨ net.session.isNone then .leaving mark
  else .queued queue { id := id, nfmark := mark.toNat, payload := payload }

/-- Closing a queue drops the packets that wait in it. -/
def detach (net : PodNet) : PodNet :=
  { net with
    session := none
    transit := net.transit.filter fun packet =>
      match packet.stage with
      | .queued _ _ => false
      | .leaving _ => true }

def attach (net : PodNet) : PodNet :=
  { net with session := some (net.session.getD .opened) }

end PodNet

/-- What the kernel does in the network of a pod.  Whether it does it is open, and so is the
order in which it keeps the entries. -/
structure Kernel extends Ctnetlink where
  enter : PodNet → Conntrack.Flow → Queue → Nat → List UInt8 → Option PodNet
  leave : PodNet → Nat → Bool → Option PodNet
  track : PodNet → Entry → Option PodNet
  expire : PodNet → Conntrack.Flow → Option PodNet
  /-- A packet takes over the mark of its connection. -/
  enter_spec : ∀ {net next : PodNet} {flow queue id payload},
    enter net flow queue id payload = some next →
      next.session = net.session ∧ next.markOf = net.markOf ∧
        ∃ mark, net.markOf flow = some mark ∧
          next.transit = net.transit ++ [⟨flow, net.stageOf mark queue id payload⟩]
  /-- A packet passes the rule that saves its mark or does not. -/
  leave_spec : ∀ {net next : PodNet} {index saved}, leave net index saved = some next →
    next.session = net.session ∧ ∃ flow mark, net.transit[index]? = some ⟨flow, .leaving mark⟩ ∧
      next.transit = net.transit.eraseIdx index ∧
      next.markOf = fun other =>
        if saved = true ∧ other = flow then (net.markOf other).map fun _ => mark
        else net.markOf other
  /-- A connection is tracked without a mark. -/
  track_spec : ∀ {net next : PodNet} {entry : Entry}, track net entry = some next →
    next.session = net.session ∧ next.transit = net.transit ∧ net.markOf entry.flow = none ∧
      next.markOf = Function.update net.markOf entry.flow (some 0)
  /-- Only a connection without packets on their way is forgotten. -/
  expire_spec : ∀ {net next : PodNet} {flow}, expire net flow = some next →
    next.session = net.session ∧ next.transit = net.transit ∧
      (∀ packet ∈ net.transit, packet.flow ≠ flow) ∧
      next.markOf = Function.update net.markOf flow none

@[simp]
theorem PodNet.transit_updateMark (kernel : Ctnetlink) (net : PodNet) :
    (net.updateMark kernel).transit = net.transit := by
  unfold updateMark
  split <;> rfl

/-! ### The hooks -/

section Hooks

open NetPolicy.Iptables

def Queue.hooks : Queue → HookPair
  | .input => inputHooks
  | .output => outputHooks

def Stage.ofHook (queue : Queue) (id : Nat) (payload : List UInt8) :
    Outcome × Iptables.Marks → Option Stage
  | (.accept, marks) => some (.leaving marks.skb)
  | (.queue number, marks) =>
      if number = queue.hooks.queue then
        some (.queued queue { id := id, nfmark := marks.skb.toNat, payload := payload })
      else none
  | (.drop, _) => none

/-- The hooks that `PodUp` writes send a packet where the kernel is required to. -/
theorem stageOf_hooks (netfilter : Netfilter) {table after : MangleTable} (vacant : Vacant table)
    (written : writeIptableRule 1 1 table = after) {net : PodNet}
    (up : net.session.isSome = true) (queue : Queue) (id : Nat) (payload : List UInt8)
    (skb mark : UInt32) :
    Stage.ofHook queue id payload (netfilter.hook after queue.hooks.entering ⟨skb, mark⟩) =
      some (net.stageOf mark queue id payload) := by
  obtain ⟨input, output⟩ := placed_writeIptableRule vacant (1 : UInt32).toNat (1 : UInt32).toNat
  have placed : Placed queue.hooks (1 : UInt32).toNat table after := by
    rw [← written]
    cases queue with
    | input => exact input
    | output => exact output
  have listening : net.session.isNone = false := by
    rw [← Option.not_isSome, up]
    rfl
  rw [hook_entering netfilter placed, PodNet.stageOf, listening]
  by_cases one : mark = 1
  · simp [one, Stage.ofHook]
  · simp [one, Stage.ofHook]

end Hooks

/-! ### Marks of connections -/

section Marks

variable {flow other : Conntrack.Flow} {mark : UInt32}

theorem find?_map_flow (entries : List Entry) {change : Entry → Entry}
    (kept : ∀ entry, (change entry).flow = entry.flow) (flow : Conntrack.Flow) :
    (entries.map change).find? (fun entry => entry.flow = flow) =
      (entries.find? fun entry => entry.flow = flow).map change := by
  rw [List.find?_map]
  simp only [Function.comp_def, kept]

theorem find?_sweep (jammed : Bool) (entries : List Entry) :
    ∃ reached : Bool, ((({} : Selection).sweep mark jammed entries).2.find? fun entry =>
        entry.flow = flow) =
      (entries.find? fun entry => entry.flow = flow).map fun entry =>
        if reached then entry.withMark mark else entry := by
  induction entries generalizing jammed with
  | nil => exact ⟨false, rfl⟩
  | cons entry rest ih =>
      have kept : (if ({} : Selection).reaches jammed entry.flow then entry.withMark mark
          else entry).flow = entry.flow := by
        split <;> rfl
      rw [Selection.sweep]
      dsimp only
      by_cases named : entry.flow = flow
      · refine ⟨({} : Selection).reaches jammed entry.flow, ?_⟩
        rw [List.find?_cons_of_pos (by rw [kept]; exact decide_eq_true named),
          List.find?_cons_of_pos (by simpa using named)]
        rfl
      · rw [List.find?_cons_of_neg (by rw [kept]; simpa using named),
          List.find?_cons_of_neg (by simpa using named)]
        exact ih _

theorem sweep_of_no_icmp {entries : List Entry}
    (noPing : ∀ entry ∈ entries, entry.flow.isIcmp = false) :
    (({} : Selection).sweep mark false entries).2 =
      entries.map fun entry => if entry.flow.hasPorts then entry.withMark mark else entry := by
  induction entries with
  | nil => rfl
  | cons entry rest ih =>
      rw [Selection.sweep, jams_all, reaches_all, noPing entry List.mem_cons_self]
      dsimp only
      rw [Bool.or_false, ih fun other member => noPing other (List.mem_cons_of_mem entry member),
        Bool.not_false, Bool.and_true, List.map_cons]

end Marks

namespace PodNet

variable {net next : PodNet} {flow other : Conntrack.Flow}

/-- `UpdateMark` only takes marks away. -/
theorem markOf_updateMark (kernel : Ctnetlink) (net : PodNet) (flow : Conntrack.Flow) :
    ∃ reached : Bool, (net.updateMark kernel).markOf flow =
      (net.markOf flow).map fun mark => if reached then 0 else mark := by
  unfold updateMark
  cases shape : net.session with
  | none => exact ⟨false, by simp⟩
  | some pod =>
      obtain ⟨reached, found⟩ := find?_sweep pod.jammed net.entries
      refine ⟨reached, ?_⟩
      dsimp only [markOf]
      rw [table_clearing kernel net pod, found, Option.map_map, Option.map_map]
      congr 1
      funext entry
      cases reached <;> rfl

theorem updateMark_of_jammed (kernel : Ctnetlink) {pod : PodSession}
    (open_ : net.session = some pod) (jammed : pod.jammed = true) :
    (net.updateMark kernel).entries = net.entries ∧
      ∃ later, (net.updateMark kernel).session = some later ∧ later.jammed = true := by
  unfold updateMark
  rw [open_]
  refine ⟨?_, _, rfl, ?_⟩
  · dsimp only
    rw [table_clearing kernel net pod, jammed, sweep_of_jammed]
  · dsimp only
    rw [jammed]
    rfl

theorem markOf_updateMark_of_clear (kernel : Ctnetlink) {pod : PodSession}
    (open_ : net.session = some pod) (clear : pod.jammed = false) (noPing : ∀ entry ∈ net.entries, entry.flow.isIcmp = false)
    (ports : flow.hasPorts = true) : (net.updateMark kernel).markOf flow ≠ some 1 := by
  have kept : ∀ entry : Entry,
      (if entry.flow.hasPorts then entry.withMark 0 else entry).flow = entry.flow := by
    intro entry
    split <;> rfl
  unfold updateMark markOf
  rw [open_]
  dsimp only
  rw [table_clearing kernel net pod, clear, sweep_of_no_icmp noPing, find?_map_flow _ kept,
    Option.map_map]
  cases found : net.entries.find? fun entry => entry.flow = flow with
  | none => simp
  | some entry =>
      have named : entry.flow = flow := by simpa using List.find?_some found
      simp [named, ports, Entry.withMark]

end PodNet

/-! ### What lets a connection pass -/

def Stage.mark : Stage → UInt32
  | .queued _ msg => UInt32.ofNat msg.nfmark
  | .leaving mark => mark

/-- The accepting mark is on the connection or on one of its packets. -/
def PodNet.Permits (net : PodNet) (flow : Conntrack.Flow) : Prop :=
  net.markOf flow = some 1 ∨
    ∃ packet ∈ net.transit, packet.flow = flow ∧ packet.stage.mark = 1

namespace PodNet

variable {kernel : Kernel} {net next : PodNet} {flow other : Conntrack.Flow}

theorem permits_of_updateMark (permits : (net.updateMark kernel.toCtnetlink).Permits flow) :
    net.Permits flow := by
  rcases permits with marked | moving
  · obtain ⟨reached, markOf⟩ := net.markOf_updateMark kernel.toCtnetlink flow
    rw [markOf] at marked
    obtain ⟨mark, before, after⟩ := Option.map_eq_some_iff.mp marked
    cases reached with
    | true =>
        have zero : (0 : UInt32) = 1 := after
        exact absurd zero (by decide)
    | false => exact Or.inl (before.trans (congrArg some after))
  · rw [transit_updateMark] at moving
    exact Or.inr moving

theorem stageOf_mark (net : PodNet) (mark : UInt32) (queue : Queue) (id : Nat)
    (payload : List UInt8) : (net.stageOf mark queue id payload).mark = mark := by
  unfold stageOf
  split
  · rfl
  · exact UInt32.ofNat_toNat

theorem permits_of_enter {queue : Queue} {id : Nat} {payload : List UInt8}
    (entered : kernel.enter net other queue id payload = some next)
    (permits : next.Permits flow) : net.Permits flow := by
  obtain ⟨-, marks, mark, marked, transit⟩ := kernel.enter_spec entered
  rcases permits with there | ⟨packet, member, named, carries⟩
  · exact Or.inl (marks ▸ there)
  · rw [transit] at member
    rcases List.mem_append.mp member with old | new
    · exact Or.inr ⟨packet, old, named, carries⟩
    · rw [List.mem_singleton.mp new] at named carries
      rw [stageOf_mark] at carries
      dsimp only at named
      rw [named, carries] at marked
      exact Or.inl marked

theorem permits_of_leave {index : Nat} {saved : Bool}
    (left : kernel.leave net index saved = some next) (permits : next.Permits flow) :
    net.Permits flow := by
  obtain ⟨-, leaver, mark, found, transit, marks⟩ := kernel.leave_spec left
  rcases permits with marked | ⟨packet, member, named, carries⟩
  · rw [marks] at marked
    dsimp only at marked
    split at marked
    · rename_i saves
      obtain ⟨_, _, one⟩ := Option.map_eq_some_iff.mp marked
      exact Or.inr ⟨_, List.mem_of_getElem? found, saves.2.symm, one⟩
    · exact Or.inl marked
  · rw [transit] at member
    exact Or.inr ⟨packet, List.mem_of_mem_eraseIdx member, named, carries⟩

theorem permits_of_track {entry : Entry} (tracked : kernel.track net entry = some next)
    (permits : next.Permits flow) : net.Permits flow := by
  obtain ⟨-, transit, -, marks⟩ := kernel.track_spec tracked
  rcases permits with marked | moving
  · rw [marks, Function.update_apply] at marked
    split at marked
    · exact absurd (Option.some.inj marked) (by decide)
    · exact Or.inl marked
  · rw [transit] at moving
    exact Or.inr moving

theorem permits_of_expire (expired : kernel.expire net other = some next)
    (permits : next.Permits flow) : net.Permits flow := by
  obtain ⟨-, transit, -, marks⟩ := kernel.expire_spec expired
  rcases permits with marked | moving
  · rw [marks, Function.update_apply] at marked
    split at marked
    · cases marked
    · exact Or.inl marked
  · rw [transit] at moving
    exact Or.inr moving

theorem permits_of_attach (permits : net.attach.Permits flow) : net.Permits flow :=
  permits

theorem permits_of_detach (permits : net.detach.Permits flow) : net.Permits flow := by
  rcases permits with marked | ⟨packet, member, facts⟩
  · exact Or.inl marked
  · exact Or.inr ⟨packet, List.mem_of_mem_filter member, facts⟩

end PodNet

/-! ### Permissions that stay -/

/-- The connection carries the accepting mark, and no packet of it waits for an answer or
leaves with another mark. -/
def PodNet.Unexamined (net : PodNet) (flow : Conntrack.Flow) : Prop :=
  net.markOf flow = some 1 ∧
    ∀ packet ∈ net.transit, packet.flow = flow → packet.stage = .leaving 1

namespace PodNet

variable {kernel : Kernel} {net next : PodNet} {flow other : Conntrack.Flow}

theorem Unexamined.enter {queue : Queue} {id : Nat} {payload : List UInt8}
    (unexamined : net.Unexamined flow)
    (entered : kernel.enter net other queue id payload = some next) : next.Unexamined flow := by
  obtain ⟨-, marks, mark, marked, transit⟩ := kernel.enter_spec entered
  refine ⟨marks ▸ unexamined.1, fun packet member named => ?_⟩
  rw [transit] at member
  rcases List.mem_append.mp member with old | new
  · exact unexamined.2 packet old named
  · rw [List.mem_singleton.mp new] at named ⊢
    have same : other = flow := named
    rw [same, unexamined.1] at marked
    rw [← Option.some.inj marked, stageOf, if_pos (Or.inl rfl)]

theorem Unexamined.leave {index : Nat} {saved : Bool} (unexamined : net.Unexamined flow)
    (left : kernel.leave net index saved = some next) : next.Unexamined flow := by
  obtain ⟨-, leaver, mark, found, transit, marks⟩ := kernel.leave_spec left
  refine ⟨?_, fun packet member => unexamined.2 packet ?_⟩
  · rw [marks]
    dsimp only
    split
    · rename_i saves
      have one := unexamined.2 _ (List.mem_of_getElem? found) saves.2.symm
      rw [unexamined.1, Option.map_some, Stage.leaving.inj one]
    · exact unexamined.1
  · rw [transit] at member
    exact List.mem_of_mem_eraseIdx member

theorem Unexamined.track {entry : Entry} (unexamined : net.Unexamined flow)
    (tracked : kernel.track net entry = some next) : next.Unexamined flow := by
  obtain ⟨-, transit, fresh, marks⟩ := kernel.track_spec tracked
  have different : flow ≠ entry.flow := by
    rintro rfl
    rw [unexamined.1] at fresh
    cases fresh
  refine ⟨?_, transit ▸ unexamined.2⟩
  rw [marks, Function.update_of_ne different]
  exact unexamined.1

theorem Unexamined.expire (unexamined : net.Unexamined flow) (different : other ≠ flow)
    (expired : kernel.expire net other = some next) : next.Unexamined flow := by
  obtain ⟨-, transit, -, marks⟩ := kernel.expire_spec expired
  refine ⟨?_, transit ▸ unexamined.2⟩
  rw [marks, Function.update_of_ne different.symm]
  exact unexamined.1

theorem Unexamined.detach (unexamined : net.Unexamined flow) : net.detach.Unexamined flow :=
  ⟨unexamined.1, fun packet member => unexamined.2 packet (List.mem_of_mem_filter member)⟩

theorem Unexamined.attach (unexamined : net.Unexamined flow) : net.attach.Unexamined flow :=
  unexamined

end PodNet

/-! ### A kernel -/

section PlainKernel

variable {flow other : Conntrack.Flow}

theorem flows_assign (table : List Entry) (flow : Conntrack.Flow) (mark : UInt32) :
    (assign table flow mark).map Entry.flow = table.map Entry.flow := by
  rw [assign, List.map_map]
  refine List.map_congr_left fun entry _ => ?_
  dsimp only [Function.comp_apply]
  split <;> rfl

theorem find?_assign (entries : List Entry) (mark : UInt32) :
    ((assign entries flow mark).find? fun entry => entry.flow = other).map Entry.mark =
      if other = flow then
        ((entries.find? fun entry => entry.flow = other).map Entry.mark).map fun _ => mark
      else (entries.find? fun entry => entry.flow = other).map Entry.mark := by
  have kept : ∀ entry : Entry,
      (if entry.flow = flow then entry.withMark mark else entry).flow = entry.flow := by
    intro entry
    split <;> rfl
  rw [assign, find?_map_flow entries kept, Option.map_map]
  cases found : entries.find? fun entry => entry.flow = other with
  | none => simp
  | some entry =>
      have named : entry.flow = other := by simpa using List.find?_some found
      by_cases same : other = flow
      · simp [named, same, Entry.withMark]
      · simp [named, same]

theorem find?_forget (entries : List Entry) :
    ((entries.filter fun entry => entry.flow ≠ flow).find? fun entry => entry.flow = other) =
      if other = flow then none else entries.find? fun entry => entry.flow = other := by
  rw [List.find?_filter]
  split
  · rename_i same
    simp [same]
  · rename_i different
    congr 1
    funext entry
    by_cases named : entry.flow = other
    · simp [named, different]
    · simp [named]

def plainKernel : Kernel where
  toCtnetlink := plainCtnetlink
  enter net flow queue id payload :=
    (net.markOf flow).map fun mark =>
      { net with transit := net.transit ++ [⟨flow, net.stageOf mark queue id payload⟩] }
  leave net index saved :=
    match net.transit[index]? with
    | some ⟨flow, .leaving mark⟩ =>
        some
          { net with
            entries := if saved then assign net.entries flow mark else net.entries
            distinct := by
              split
              · rw [flows_assign]
                exact net.distinct
              · exact net.distinct
            transit := net.transit.eraseIdx index }
    | _ => none
  track net entry :=
    if fresh : entry.mark = 0 ∧ entry.flow ∉ net.entries.map Entry.flow then
      some
        { net with
          entries := entry :: net.entries
          distinct := List.nodup_cons.mpr ⟨fresh.2, net.distinct⟩ }
    else none
  expire net flow :=
    if ∀ packet ∈ net.transit, packet.flow ≠ flow then
      some
        { net with
          entries := net.entries.filter fun entry => entry.flow ≠ flow
          distinct := net.distinct.sublist (List.filter_sublist.map Entry.flow) }
    else none
  enter_spec {net next flow queue id payload} entered := by
    obtain ⟨mark, marked, rfl⟩ := Option.map_eq_some_iff.mp entered
    exact ⟨rfl, rfl, mark, marked, rfl⟩
  leave_spec {net next index saved} left := by
    split at left
    · rename_i flow mark found
      cases left
      refine ⟨rfl, flow, mark, found, rfl, funext fun other => ?_⟩
      cases saved with
      | false => simp [PodNet.markOf]
      | true =>
          dsimp only [PodNet.markOf]
          rw [if_pos rfl, find?_assign]
          simp
    · cases left
  track_spec {net next entry} tracked := by
    split at tracked
    · rename_i fresh
      cases tracked
      have unknown : net.markOf entry.flow = none := by
        refine Option.map_eq_none_iff.mpr (List.find?_eq_none.mpr fun other member => ?_)
        exact fun same => fresh.2 (List.mem_map.mpr ⟨other, member, of_decide_eq_true same⟩)
      refine ⟨rfl, rfl, unknown, funext fun flow => ?_⟩
      rw [Function.update_apply]
      split
      · rename_i same
        simp [PodNet.markOf, same, fresh.1]
      · rename_i different
        simp [PodNet.markOf, Ne.symm different]
    · cases tracked
  expire_spec {net next flow} expired := by
    split at expired
    · rename_i idle
      cases expired
      refine ⟨rfl, rfl, idle, funext fun other => ?_⟩
      rw [Function.update_apply, PodNet.markOf, find?_forget]
      split <;> rfl
    · cases expired

end PlainKernel

end NetPolicy.Daemon
