/-
The registrations of the event loop.

`epoll_wait` hands out pointers to the callbacks of ready descriptors, up to twenty at a
time, and the loop calls them one after another.  One of them runs the control requests;
`PodDown` frees the two callbacks of a pod, and a pointer to one of them that stands
later in the same list is called all the same.
-/

import NetPolicy.Library.Runs
import NetPolicy.Library.Tables
import NetPolicy.Policy.Rule

namespace NetPolicy.Daemon

open NetPolicy.Policy

/-! ### Callbacks and pods -/

/-- The functions that are registered, with the queue that `nfq_res_` leads to. -/
inductive Handler where
  | procAcceptPostLinkEvent
  | dispatchGrpcRustQueueEvent
  | reaperTimerEvent
  | nfqueueRcvData (pod : Nat) (dir : FlowDir)
deriving DecidableEq, Repr

structure RcvEpollCb where
  fd : Nat
  handler : Handler
deriving DecidableEq, Repr

structure NfqResInfo where
  inputQueue : Option Nat
  outputQueue : Option Nat
  inputCb : Option Nat
  outputCb : Option Nat
deriving DecidableEq, Repr

def NfqResInfo.init : NfqResInfo :=
  { inputQueue := none, outputQueue := none, inputCb := none, outputCb := none }

def NfqResInfo.queue (res : NfqResInfo) : FlowDir → Option Nat
  | .ingress => res.inputQueue
  | .egress => res.outputQueue

def NfqResInfo.cb (res : NfqResInfo) : FlowDir → Option Nat
  | .ingress => res.inputCb
  | .egress => res.outputCb

/-- `callbacks` are the ones that are allocated, `interest` is what `epoll` watches.  An
address stands for one allocation and a descriptor for one opening, so neither comes
back. -/
structure EventLoop where
  callbacks : Table Nat RcvEpollCb
  interest : List (Nat × Nat)
  resData : Table Nat NfqResInfo
  nextFd : Nat
  nextCb : Nat

inductive InitOutcome where
  | inputQueueFails
  | outputQueueFails
  | conntrackFails
  | inputEventFails
  | outputEventFails
  | succeeds
deriving DecidableEq, Repr

/-- The control requests; `entered` tells whether `set_ns` succeeds.  The requests about
policies, nodes and dumps register nothing. -/
inductive Request where
  | podUp (pod : Nat) (entered : Bool) (outcome : InitOutcome)
  | podDown (pod : Nat)
  | other
deriving DecidableEq, Repr

/-- A pointer that `epoll_wait` returned, and the requests that are found in the queue if
it is that of the control callback. -/
structure Ready where
  address : Nat
  requests : List Request
deriving DecidableEq, Repr

namespace EventLoop

def epollAdd (loop : EventLoop) (fd address : Nat) : EventLoop :=
  { loop with interest := loop.interest ++ [(fd, address)] }

def epollDel (loop : EventLoop) (fd : Nat) : EventLoop :=
  { loop with interest := loop.interest.filter fun entry => entry.1 ≠ fd }

def deleteCb (loop : EventLoop) (address : Nat) : EventLoop :=
  { loop with callbacks := loop.callbacks.erase address }

def openQueues (loop : EventLoop) (queues : Nat) : EventLoop :=
  { loop with nextFd := loop.nextFd + queues }

def newCbs (loop : EventLoop) (pod inputFd outputFd : Nat) : EventLoop :=
  { loop with
    callbacks :=
      (loop.callbacks.insert loop.nextCb
        { fd := inputFd, handler := .nfqueueRcvData pod .ingress }).insert (loop.nextCb + 1)
        { fd := outputFd, handler := .nfqueueRcvData pod .egress }
    nextCb := loop.nextCb + 2 }

/-- The addresses of the callbacks, or none after an error. -/
def addEpollEvent (loop : EventLoop) (pod inputFd outputFd : Nat) (outcome : InitOutcome) :
    EventLoop × Option (Nat × Nat) :=
  let nfqInput := loop.nextCb
  let nfqOutput := loop.nextCb + 1
  let allocated := loop.newCbs pod inputFd outputFd
  match outcome with
  | .inputEventFails => ((allocated.deleteCb nfqInput).deleteCb nfqOutput, none)
  | .outputEventFails =>
      (((allocated.epollAdd inputFd nfqInput).deleteCb nfqInput).deleteCb nfqOutput, none)
  | _ =>
      ((allocated.epollAdd inputFd nfqInput).epollAdd outputFd nfqOutput,
        some (nfqInput, nfqOutput))

def freeResource (loop : EventLoop) (res : NfqResInfo) : EventLoop :=
  let input := res.inputQueue.elim loop loop.epollDel
  let output := res.outputQueue.elim input input.epollDel
  let first := res.inputCb.elim output output.deleteCb
  res.outputCb.elim first first.deleteCb

def initNfqueue (loop : EventLoop) (pod : Nat) (outcome : InitOutcome) : EventLoop × Int :=
  match loop.resData.lookup pod with
  | some _ => (loop, 0)
  | none =>
      let inputFd := loop.nextFd
      let outputFd := loop.nextFd + 1
      let queues := { NfqResInfo.init with inputQueue := some inputFd, outputQueue := some outputFd }
      match outcome with
      | .inputQueueFails => (loop.freeResource NfqResInfo.init, -6)
      | .outputQueueFails =>
          ((loop.openQueues 1).freeResource { NfqResInfo.init with inputQueue := some inputFd }, -6)
      | .conntrackFails => ((loop.openQueues 2).freeResource queues, -6)
      | _ =>
          match (loop.openQueues 2).addEpollEvent pod inputFd outputFd outcome with
          | (failed, none) => (failed.freeResource queues, -6)
          | (watched, some (inputCb, outputCb)) =>
              ({ watched with
                  resData := watched.resData.insert pod
                    { queues with inputCb := some inputCb, outputCb := some outputCb } }, 0)

def podUp (loop : EventLoop) (pod : Nat) (entered : Bool) (outcome : InitOutcome) :
    EventLoop × Int :=
  if entered then loop.initNfqueue pod outcome else (loop, -1)

def deleteNfQueRes (loop : EventLoop) (pod : Nat) : EventLoop × Int :=
  match loop.resData.lookup pod with
  | none => (loop, 0)
  | some res =>
      let freed := loop.freeResource res
      ({ freed with resData := freed.resData.erase pod }, 0)

def request (loop : EventLoop) : Request → EventLoop
  | .podUp pod entered outcome => (loop.podUp pod entered outcome).1
  | .podDown pod => (loop.deleteNfQueRes pod).1
  | .other => loop

def requests (loop : EventLoop) (requests : List Request) : EventLoop :=
  Runs.run request loop requests

def start : EventLoop :=
  { callbacks :=
      ((Table.empty.insert 0 { fd := 0, handler := .procAcceptPostLinkEvent }).insert 1
        { fd := 1, handler := .dispatchGrpcRustQueueEvent }).insert 2
        { fd := 2, handler := .reaperTimerEvent }
    interest := [(0, 0), (1, 1), (2, 2)]
    resData := Table.empty
    nextFd := 3
    nextCb := 3 }

/-! ### What is allocated, watched and held -/

/-- What is watched are the callbacks that are allocated, each by its own descriptor, and
a pod that is up holds the callbacks of its queues. -/
structure Coherent (loop : EventLoop) : Prop where
  bounded : ∀ {address cb}, loop.callbacks.lookup address = some cb →
    address < loop.nextCb ∧ cb.fd < loop.nextFd
  watched : ∀ {fd address}, (fd, address) ∈ loop.interest ↔
    ∃ cb, loop.callbacks.lookup address = some cb ∧ cb.fd = fd
  distinct : ∀ {address other cb found}, loop.callbacks.lookup address = some cb →
    loop.callbacks.lookup other = some found → cb.fd = found.fd → address = other
  owned : ∀ {address cb pod dir}, loop.callbacks.lookup address = some cb →
    cb.handler = .nfqueueRcvData pod dir →
      ∃ res, loop.resData.lookup pod = some res ∧ res.cb dir = some address
  held : ∀ {pod res}, loop.resData.lookup pod = some res → ∀ dir, ∃ address cb,
    res.cb dir = some address ∧ res.queue dir = some cb.fd ∧
      loop.callbacks.lookup address = some cb ∧ cb.handler = .nfqueueRcvData pod dir

variable {loop : EventLoop}

theorem coherent_start : start.Coherent := by
  have callback {address : Nat} {cb : RcvEpollCb}
      (found : start.callbacks.lookup address = some cb) :
      address = cb.fd ∧ cb.fd < 3 ∧ ∀ pod dir, cb.handler ≠ .nfqueueRcvData pod dir := by
    by_cases second : address = 2
    · cases second
      cases found
      exact ⟨rfl, by decide, nofun⟩
    by_cases first : address = 1
    · cases first
      cases found
      exact ⟨rfl, by decide, nofun⟩
    by_cases zeroth : address = 0
    · cases zeroth
      cases found
      exact ⟨rfl, by decide, nofun⟩
    rw [start, Table.lookup_insert_ne _ _ second, Table.lookup_insert_ne _ _ first,
      Table.lookup_insert_ne _ _ zeroth] at found
    cases found
  refine ⟨?_, ?_, ?_, ?_, nofun⟩
  · intro address cb found
    obtain ⟨same, below, _⟩ := callback found
    exact ⟨same ▸ below, below⟩
  · intro fd address
    constructor
    · intro member
      simp only [start, List.mem_cons, Prod.mk.injEq, List.not_mem_nil, or_false] at member
      rcases member with ⟨rfl, rfl⟩ | ⟨rfl, rfl⟩ | ⟨rfl, rfl⟩
      all_goals exact ⟨_, rfl, rfl⟩
    · rintro ⟨cb, found, rfl⟩
      obtain ⟨same, below, _⟩ := callback found
      have three : cb.fd = 0 ∨ cb.fd = 1 ∨ cb.fd = 2 := by omega
      rw [same]
      rcases three with zeroth | first | second
      · rw [zeroth]
        exact List.mem_cons_self
      · rw [first]
        exact List.mem_cons_of_mem _ List.mem_cons_self
      · rw [second]
        exact List.mem_cons_of_mem _ (List.mem_cons_of_mem _ List.mem_cons_self)
  · intro address other cb found first second same
    rw [(callback first).1, (callback second).1, same]
  · intro address cb pod dir found queue
    exact absurd queue ((callback found).2.2 pod dir)

/-! ### Freeing the resources of a pod -/

def podOf (loop : EventLoop) (address : Nat) : Option Nat :=
  (loop.callbacks.lookup address).bind fun cb =>
    match cb.handler with
    | .nfqueueRcvData pod _ => some pod
    | _ => none

theorem podOf_eq_some {address pod : Nat} : loop.podOf address = some pod ↔
    ∃ cb dir, loop.callbacks.lookup address = some cb ∧ cb.handler = .nfqueueRcvData pod dir := by
  rw [podOf, Option.bind_eq_some_iff]
  constructor
  · rintro ⟨cb, found, serves⟩
    cases handler : cb.handler with
    | nfqueueRcvData other dir =>
        rw [handler] at serves
        cases serves
        exact ⟨cb, dir, found, handler⟩
    | procAcceptPostLinkEvent =>
        rw [handler] at serves
        cases serves
    | dispatchGrpcRustQueueEvent =>
        rw [handler] at serves
        cases serves
    | reaperTimerEvent =>
        rw [handler] at serves
        cases serves
  · rintro ⟨cb, dir, found, handler⟩
    exact ⟨cb, found, by rw [handler]⟩

structure Up (loop : EventLoop) (pod : Nat) (res : NfqResInfo) (input output : Nat)
    (inputCb outputCb : RcvEpollCb) : Prop where
  res_eq : res = ⟨some inputCb.fd, some outputCb.fd, some input, some output⟩
  inputFound : loop.callbacks.lookup input = some inputCb
  outputFound : loop.callbacks.lookup output = some outputCb
  podOf_iff : ∀ address, loop.podOf address = some pod ↔ address = input ∨ address = output

theorem Coherent.up (coherent : loop.Coherent) {pod : Nat} {res : NfqResInfo}
    (stored : loop.resData.lookup pod = some res) :
    ∃ input output inputCb outputCb, loop.Up pod res input output inputCb outputCb := by
  obtain ⟨input, inputCb, inputHeld, inputFd, inputFound, inputServes⟩ :=
    coherent.held stored .ingress
  obtain ⟨output, outputCb, outputHeld, outputFd, outputFound, outputServes⟩ :=
    coherent.held stored .egress
  refine ⟨input, output, inputCb, outputCb, ?_, inputFound, outputFound, fun address => ?_⟩
  · rcases res with ⟨inputQueue, outputQueue, first, second⟩
    cases inputHeld
    cases inputFd
    cases outputHeld
    cases outputFd
    rfl
  · rw [podOf_eq_some]
    constructor
    · rintro ⟨cb, dir, found, serves⟩
      obtain ⟨other, again, held⟩ := coherent.owned found serves
      cases stored.symm.trans again
      cases dir with
      | ingress => exact Or.inl (Option.some.inj (held.symm.trans inputHeld))
      | egress => exact Or.inr (Option.some.inj (held.symm.trans outputHeld))
    · rintro (same | same)
      · exact ⟨inputCb, .ingress, same ▸ inputFound, inputServes⟩
      · exact ⟨outputCb, .egress, same ▸ outputFound, outputServes⟩

theorem Up.fd_iff {pod input output address : Nat} {res : NfqResInfo}
    {inputCb outputCb cb : RcvEpollCb} (up : loop.Up pod res input output inputCb outputCb)
    (coherent : loop.Coherent) (found : loop.callbacks.lookup address = some cb) :
    cb.fd = inputCb.fd ∨ cb.fd = outputCb.fd ↔ loop.podOf address = some pod := by
  rw [up.podOf_iff]
  constructor
  · intro watched
    rcases watched with isInput | isOutput
    · exact Or.inl (coherent.distinct found up.inputFound isInput)
    · exact Or.inr (coherent.distinct found up.outputFound isOutput)
  · intro own
    rcases own with isInput | isOutput
    · rw [isInput, up.inputFound] at found
      cases found
      exact Or.inl rfl
    · rw [isOutput, up.outputFound] at found
      cases found
      exact Or.inr rfl

theorem lookup_deleteNfQueRes (coherent : loop.Coherent) (pod address : Nat) :
    (loop.deleteNfQueRes pod).1.callbacks.lookup address =
      if loop.podOf address = some pod then none else loop.callbacks.lookup address := by
  unfold deleteNfQueRes
  cases stored : loop.resData.lookup pod with
  | none =>
      rw [if_neg]
      intro serves
      obtain ⟨cb, dir, found, handler⟩ := podOf_eq_some.mp serves
      obtain ⟨res, held, _⟩ := coherent.owned found handler
      cases stored.symm.trans held
  | some res =>
      obtain ⟨input, output, inputCb, outputCb, up⟩ := coherent.up stored
      rw [up.res_eq]
      change ((loop.callbacks.erase input).erase output).lookup address = _
      by_cases serves : loop.podOf address = some pod
      · rw [if_pos serves]
        rcases (up.podOf_iff address).mp serves with same | same
        · rw [same]
          exact Table.lookup_erase_eq_none _ _ (Table.lookup_erase_same _ _)
        · rw [same]
          exact Table.lookup_erase_same _ _
      · obtain ⟨notInput, notOutput⟩ := not_or.mp (mt (up.podOf_iff address).mpr serves)
        rw [if_neg serves, Table.lookup_erase_ne _ notOutput, Table.lookup_erase_ne _ notInput]

theorem deleteNfQueRes_eq_some (coherent : loop.Coherent) {pod address : Nat} {cb : RcvEpollCb} :
    (loop.deleteNfQueRes pod).1.callbacks.lookup address = some cb ↔
      loop.callbacks.lookup address = some cb ∧ loop.podOf address ≠ some pod := by
  rw [lookup_deleteNfQueRes coherent]
  by_cases serves : loop.podOf address = some pod
  · rw [if_pos serves]
    exact iff_of_false nofun fun kept => kept.2 serves
  · rw [if_neg serves]
    exact (and_iff_left serves).symm

theorem Coherent.deleteNfQueRes (coherent : loop.Coherent) (pod : Nat) :
    (loop.deleteNfQueRes pod).1.Coherent := by
  have kept {address : Nat} {cb : RcvEpollCb} :
      (loop.deleteNfQueRes pod).1.callbacks.lookup address = some cb ↔
        loop.callbacks.lookup address = some cb ∧ loop.podOf address ≠ some pod :=
    deleteNfQueRes_eq_some coherent
  cases stored : loop.resData.lookup pod with
  | none =>
      unfold EventLoop.deleteNfQueRes
      rw [stored]
      exact coherent
  | some res =>
      obtain ⟨input, output, inputCb, outputCb, up⟩ := coherent.up stored
      have rest : (loop.deleteNfQueRes pod).1 =
          { loop with
            callbacks := (loop.deleteNfQueRes pod).1.callbacks
            interest := (loop.interest.filter fun entry => entry.1 ≠ inputCb.fd).filter fun entry =>
              entry.1 ≠ outputCb.fd
            resData := loop.resData.erase pod } := by
        unfold EventLoop.deleteNfQueRes
        rw [stored, up.res_eq]
        rfl
      rw [rest]
      refine ⟨fun found => coherent.bounded (kept.mp found).1, ?_,
        fun first second => coherent.distinct (kept.mp first).1 (kept.mp second).1, ?_, ?_⟩
      · intro fd address
        simp only [List.mem_filter, decide_eq_true_eq, coherent.watched, and_assoc]
        constructor
        · intro member
          obtain ⟨⟨cb, found, rfl⟩, neither⟩ := member
          have others := mt (up.fd_iff coherent found).mpr (not_or.mpr neither)
          exact ⟨cb, kept.mpr ⟨found, others⟩, rfl⟩
        · intro member
          obtain ⟨cb, found, rfl⟩ := member
          obtain ⟨before, others⟩ := kept.mp found
          exact ⟨⟨cb, before, rfl⟩, not_or.mp (mt (up.fd_iff coherent before).mp others)⟩
      · intro address cb owner dir found serves
        obtain ⟨before, others⟩ := kept.mp found
        have different : owner ≠ pod := by
          intro same
          exact others (podOf_eq_some.mpr ⟨cb, dir, before, same ▸ serves⟩)
        obtain ⟨other, held, callback⟩ := coherent.owned before serves
        exact ⟨other, (Table.lookup_erase_ne _ different).trans held, callback⟩
      · intro owner other held dir
        have different : owner ≠ pod := by
          intro same
          rw [same, Table.lookup_erase_same] at held
          cases held
        obtain ⟨address, cb, callback, queue, found, serves⟩ :=
          coherent.held (Table.lookup_of_erase held) dir
        refine ⟨address, cb, callback, queue, kept.mpr ⟨found, fun serving => ?_⟩, serves⟩
        rw [podOf_eq_some.mpr ⟨cb, dir, found, serves⟩] at serving
        exact different (Option.some.inj serving)

/-! ### Setting up the resources of a pod -/

theorem Coherent.unwatched (coherent : loop.Coherent) {fd : Nat} (fresh : loop.nextFd ≤ fd) :
    (loop.interest.filter fun entry => entry.1 ≠ fd) = loop.interest := by
  refine List.filter_eq_self.mpr fun entry member => decide_eq_true fun same => ?_
  obtain ⟨cb, found, own⟩ := coherent.watched.mp (show (entry.1, entry.2) ∈ _ from member)
  have below := (coherent.bounded found).2
  omega

theorem Coherent.unallocated (coherent : loop.Coherent) {address : Nat}
    (fresh : loop.nextCb ≤ address) : loop.callbacks.lookup address = none := by
  cases found : loop.callbacks.lookup address with
  | none => rfl
  | some cb =>
      have below := (coherent.bounded found).1
      omega

theorem Coherent.erase_newCbs (coherent : loop.Coherent) (pod inputFd outputFd : Nat) :
    (((loop.newCbs pod inputFd outputFd).callbacks.erase loop.nextCb).erase (loop.nextCb + 1)) =
      loop.callbacks := by
  apply Table.ext
  funext address
  by_cases second : address = loop.nextCb + 1
  · rw [second, Table.lookup_erase_same, coherent.unallocated (Nat.le_succ _)]
  rw [Table.lookup_erase_ne _ second]
  by_cases first : address = loop.nextCb
  · rw [first, Table.lookup_erase_same, coherent.unallocated (Nat.le_refl _)]
  rw [Table.lookup_erase_ne _ first, newCbs, Table.lookup_insert_ne _ _ second,
    Table.lookup_insert_ne _ _ first]

/-- A pod that could not be set up has used up some numbers and left nothing else. -/
theorem initNfqueue_fails (coherent : loop.Coherent) (pod : Nat) {outcome : InitOutcome}
    (failed : outcome ≠ .succeeds) :
    ∃ fds cbs, (loop.initNfqueue pod outcome).1 =
      { loop with nextFd := loop.nextFd + fds, nextCb := loop.nextCb + cbs } := by
  have input := coherent.unwatched (Nat.le_refl loop.nextFd)
  have output := coherent.unwatched (Nat.le_succ loop.nextFd)
  have erased := coherent.erase_newCbs pod loop.nextFd (loop.nextFd + 1)
  unfold initNfqueue
  cases stored : loop.resData.lookup pod with
  | some res => exact ⟨0, 0, rfl⟩
  | none =>
      cases outcome with
      | inputQueueFails => exact ⟨0, 0, rfl⟩
      | outputQueueFails =>
          refine ⟨1, 0, ?_⟩
          change EventLoop.mk _ (loop.interest.filter _) _ _ _ = _
          rw [input]
          rfl
      | conntrackFails =>
          refine ⟨2, 0, ?_⟩
          change EventLoop.mk _ ((loop.interest.filter _).filter _) _ _ _ = _
          rw [input, output]
          rfl
      | inputEventFails =>
          refine ⟨2, 2, ?_⟩
          change EventLoop.mk (((loop.newCbs pod loop.nextFd (loop.nextFd + 1)).callbacks.erase
            loop.nextCb).erase (loop.nextCb + 1)) ((loop.interest.filter _).filter _) _ _ _ = _
          rw [input, output, erased]
          rfl
      | outputEventFails =>
          refine ⟨2, 2, ?_⟩
          change EventLoop.mk (((loop.newCbs pod loop.nextFd (loop.nextFd + 1)).callbacks.erase
            loop.nextCb).erase (loop.nextCb + 1))
            (((loop.interest ++ [(loop.nextFd, loop.nextCb)]).filter _).filter _) _ _ _ = _
          rw [List.filter_append, input, List.filter_cons_of_neg (by simp), List.filter_nil,
            List.append_nil, output, erased]
          rfl
      | succeeds => exact absurd rfl failed

theorem Coherent.advance (coherent : loop.Coherent) (fds cbs : Nat) :
    Coherent { loop with nextFd := loop.nextFd + fds, nextCb := loop.nextCb + cbs } := by
  refine ⟨fun found => ?_, coherent.watched, coherent.distinct, coherent.owned, coherent.held⟩
  obtain ⟨address, fd⟩ := coherent.bounded found
  exact ⟨Nat.lt_add_right cbs address, Nat.lt_add_right fds fd⟩

def withPod (loop : EventLoop) (pod : Nat) : EventLoop :=
  { callbacks := (loop.newCbs pod loop.nextFd (loop.nextFd + 1)).callbacks
    interest := loop.interest ++ [(loop.nextFd, loop.nextCb)] ++
      [(loop.nextFd + 1, loop.nextCb + 1)]
    resData := loop.resData.insert pod
      ⟨some loop.nextFd, some (loop.nextFd + 1), some loop.nextCb, some (loop.nextCb + 1)⟩
    nextFd := loop.nextFd + 2
    nextCb := loop.nextCb + 2 }

theorem initNfqueue_succeeds {pod : Nat} (down : loop.resData.lookup pod = none) :
    (loop.initNfqueue pod .succeeds).1 = loop.withPod pod := by
  unfold initNfqueue
  rw [down]
  rfl

def offset : FlowDir → Nat
  | .ingress => 0
  | .egress => 1

theorem lookup_withPod_new (loop : EventLoop) (pod : Nat) (dir : FlowDir) :
    (loop.withPod pod).callbacks.lookup (loop.nextCb + offset dir) =
      some { fd := loop.nextFd + offset dir, handler := .nfqueueRcvData pod dir } := by
  cases dir with
  | ingress =>
      exact (Table.lookup_insert_ne _ _ (Nat.ne_of_lt (Nat.lt_succ_self _))).trans
        (Table.lookup_insert_same _ _ _)
  | egress => exact Table.lookup_insert_same _ _ _

theorem lookup_withPod_old (loop : EventLoop) (pod : Nat) {address : Nat}
    (old : address < loop.nextCb) :
    (loop.withPod pod).callbacks.lookup address = loop.callbacks.lookup address :=
  (Table.lookup_insert_ne _ _ (by omega)).trans (Table.lookup_insert_ne _ _ (by omega))

theorem Coherent.withPod_cases (coherent : loop.Coherent) {pod address : Nat} {cb : RcvEpollCb}
    (found : (loop.withPod pod).callbacks.lookup address = some cb) :
    (∃ dir, address = loop.nextCb + offset dir ∧
        cb = { fd := loop.nextFd + offset dir, handler := .nfqueueRcvData pod dir }) ∨
      address < loop.nextCb ∧ cb.fd < loop.nextFd ∧
        loop.callbacks.lookup address = some cb := by
  have new (dir : FlowDir) (same : address = loop.nextCb + offset dir) :
      ∃ dir, address = loop.nextCb + offset dir ∧
        cb = { fd := loop.nextFd + offset dir, handler := .nfqueueRcvData pod dir } := by
    rw [same, lookup_withPod_new] at found
    exact ⟨dir, same, (Option.some.inj found).symm⟩
  by_cases second : address = loop.nextCb + 1
  · exact Or.inl (new .egress second)
  by_cases first : address = loop.nextCb
  · exact Or.inl (new .ingress first)
  have before : loop.callbacks.lookup address = some cb := by
    change ((loop.callbacks.insert _ _).insert _ _).lookup address = _ at found
    rw [Table.lookup_insert_ne _ _ second, Table.lookup_insert_ne _ _ first] at found
    exact found
  exact Or.inr ⟨(coherent.bounded before).1, (coherent.bounded before).2, before⟩

theorem mem_interest_withPod (loop : EventLoop) (pod : Nat) (entry : Nat × Nat) :
    entry ∈ (loop.withPod pod).interest ↔ entry ∈ loop.interest ∨
      ∃ dir, entry = (loop.nextFd + offset dir, loop.nextCb + offset dir) := by
  rw [withPod, List.mem_append, List.mem_append, List.mem_singleton, List.mem_singleton, or_assoc]
  refine or_congr_right ⟨?_, ?_⟩
  · rintro (input | output)
    · exact ⟨.ingress, input⟩
    · exact ⟨.egress, output⟩
  · rintro ⟨dir, same⟩
    cases dir with
    | ingress => exact Or.inl same
    | egress => exact Or.inr same

theorem offset_lt (dir : FlowDir) : offset dir < 2 := by
  cases dir <;> decide

theorem offset_injective {dir other : FlowDir} (same : offset dir = offset other) :
    dir = other := by
  cases dir <;> cases other <;> first | rfl | cases same

theorem Coherent.withPod (coherent : loop.Coherent) {pod : Nat}
    (down : loop.resData.lookup pod = none) : (loop.withPod pod).Coherent := by
  have kept {address : Nat} {cb : RcvEpollCb} (found : loop.callbacks.lookup address = some cb) :
      (loop.withPod pod).callbacks.lookup address = some cb :=
    (lookup_withPod_old loop pod (coherent.bounded found).1).trans found
  refine ⟨?_, ?_, ?_, ?_, ?_⟩
  · intro address cb found
    change address < loop.nextCb + 2 ∧ cb.fd < loop.nextFd + 2
    rcases coherent.withPod_cases found with ⟨dir, rfl, rfl⟩ | ⟨below, fd, _⟩
    · have small := offset_lt dir
      exact ⟨by omega, by dsimp only; omega⟩
    · omega
  · intro fd address
    rw [mem_interest_withPod, coherent.watched]
    constructor
    · rintro (⟨cb, found, same⟩ | ⟨dir, same⟩)
      · exact ⟨cb, kept found, same⟩
      · cases same
        exact ⟨_, lookup_withPod_new loop pod dir, rfl⟩
    · rintro ⟨cb, found, same⟩
      rcases coherent.withPod_cases found with ⟨dir, rfl, rfl⟩ | ⟨_, _, before⟩
      · exact Or.inr ⟨dir, by rw [← same]⟩
      · exact Or.inl ⟨cb, before, same⟩
  · intro address other cb found first second same
    rcases coherent.withPod_cases first with ⟨dir, rfl, rfl⟩ | ⟨_, below, firstBefore⟩
    · rcases coherent.withPod_cases second with ⟨otherDir, rfl, rfl⟩ | ⟨_, otherBelow, _⟩
      · rw [offset_injective (Nat.add_left_cancel same)]
      · dsimp only at same
        omega
    · rcases coherent.withPod_cases second with ⟨otherDir, rfl, rfl⟩ | ⟨_, _, secondBefore⟩
      · dsimp only at same
        omega
      · exact coherent.distinct firstBefore secondBefore same
  · intro address cb owner dir found serves
    rcases coherent.withPod_cases found with ⟨newDir, rfl, rfl⟩ | ⟨_, _, before⟩
    · cases serves
      refine ⟨_, Table.lookup_insert_same _ _ _, ?_⟩
      cases dir <;> rfl
    · obtain ⟨res, held, callback⟩ := coherent.owned before serves
      have different : owner ≠ pod := by
        intro same
        rw [same, down] at held
        cases held
      exact ⟨res, (Table.lookup_insert_ne _ _ different).trans held, callback⟩
  · intro owner res held dir
    by_cases same : owner = pod
    · rw [same] at held ⊢
      have stored := (Table.lookup_insert_same _ _ _).symm.trans held
      cases stored
      refine ⟨_, _, ?_, ?_, lookup_withPod_new loop pod dir, rfl⟩
      · cases dir <;> rfl
      · cases dir <;> rfl
    · obtain ⟨address, cb, callback, queue, found, serves⟩ :=
        coherent.held ((Table.lookup_insert_ne _ _ same).symm.trans held) dir
      exact ⟨address, cb, callback, queue, kept found, serves⟩

/-! ### Requests -/

/-- What requests leave of the callbacks there were: all but those of pods taken down. -/
structure Leaves (loop : EventLoop) (requests : List Request) (after : EventLoop) : Prop where
  coherent : after.Coherent
  grown : loop.nextCb ≤ after.nextCb
  lookup : ∀ {address}, address < loop.nextCb → ∀ cb,
    after.callbacks.lookup address = some cb ↔ loop.callbacks.lookup address = some cb ∧
      ∀ pod dir, cb.handler = .nfqueueRcvData pod dir → .podDown pod ∉ requests

theorem nextCb_freeResource (loop : EventLoop) (res : NfqResInfo) :
    (loop.freeResource res).nextCb = loop.nextCb := by
  rcases res with ⟨_ | inputFd, _ | outputFd, _ | input, _ | output⟩ <;> rfl

theorem Coherent.podDown (coherent : loop.Coherent) (pod : Nat) :
    loop.Leaves [.podDown pod] (loop.deleteNfQueRes pod).1 := by
  refine ⟨coherent.deleteNfQueRes pod, ?_, fun {address} _ cb => ?_⟩
  · unfold EventLoop.deleteNfQueRes
    split
    · exact Nat.le_refl _
    · exact (nextCb_freeResource loop _).ge
  · rw [deleteNfQueRes_eq_some coherent]
    refine and_congr_right fun found => ?_
    constructor
    · intro others owner dir serves down
      cases List.mem_singleton.mp down
      exact others (podOf_eq_some.mpr ⟨cb, dir, found, serves⟩)
    · intro stays serving
      obtain ⟨other, dir, again, serves⟩ := podOf_eq_some.mp serving
      cases found.symm.trans again
      exact stays pod dir serves List.mem_cons_self

theorem Leaves.of_same {request : Request} {after : EventLoop} (coherent : after.Coherent)
    (grown : loop.nextCb ≤ after.nextCb) (keeps : ∀ pod, request ≠ .podDown pod)
    (same : ∀ {address}, address < loop.nextCb →
      after.callbacks.lookup address = loop.callbacks.lookup address) :
    loop.Leaves [request] after := by
  refine ⟨coherent, grown, fun old cb => ?_⟩
  rw [same old]
  refine (and_iff_left fun pod dir _ down => keeps pod ?_).symm
  exact (List.mem_singleton.mp down).symm

theorem Coherent.podUp (coherent : loop.Coherent) (pod : Nat) (entered : Bool)
    (outcome : InitOutcome) :
    loop.Leaves [.podUp pod entered outcome] (loop.podUp pod entered outcome).1 := by
  have unchanged : loop.Leaves [.podUp pod entered outcome] loop :=
    .of_same coherent (Nat.le_refl _) nofun fun _ => rfl
  cases entered with
  | false => exact unchanged
  | true =>
      change loop.Leaves _ (loop.initNfqueue pod outcome).1
      by_cases succeeds : outcome = .succeeds
      · rw [succeeds] at unchanged ⊢
        cases stored : loop.resData.lookup pod with
        | some res =>
            unfold initNfqueue
            rw [stored]
            exact unchanged
        | none =>
            rw [initNfqueue_succeeds stored]
            exact .of_same (coherent.withPod stored) (Nat.le_add_right _ 2) nofun
              (lookup_withPod_old loop pod)
      · obtain ⟨fds, cbs, failed⟩ := initNfqueue_fails coherent pod succeeds
        rw [failed]
        exact .of_same (coherent.advance fds cbs) (Nat.le_add_right _ cbs) nofun fun _ => rfl

theorem Coherent.request (coherent : loop.Coherent) (request : Request) :
    loop.Leaves [request] (loop.request request) := by
  cases request with
  | podUp pod entered outcome => exact coherent.podUp pod entered outcome
  | podDown pod => exact coherent.podDown pod
  | other => exact .of_same coherent (Nat.le_refl _) nofun fun _ => rfl

theorem Coherent.requests (coherent : loop.Coherent) (requests : List Request) :
    loop.Leaves requests (loop.requests requests) := by
  induction requests generalizing loop with
  | nil => exact ⟨coherent, Nat.le_refl _, fun _ cb => (and_iff_left nofun).symm⟩
  | cons request rest ih =>
      have first := coherent.request request
      have later := ih first.coherent
      refine ⟨later.coherent, first.grown.trans later.grown, fun old cb => ?_⟩
      refine (later.lookup (old.trans_le first.grown) cb).trans ?_
      rw [first.lookup old cb, and_assoc]
      refine and_congr_right fun _ => ?_
      constructor
      · rintro ⟨notFirst, notLater⟩ pod dir serves down
        rcases List.mem_cons.mp down with same | member
        · exact notFirst pod dir serves (same ▸ List.mem_cons_self)
        · exact notLater pod dir serves member
      · intro none
        refine ⟨fun pod dir serves down => ?_, fun pod dir serves down => ?_⟩
        · exact none pod dir serves (List.mem_cons.mpr (Or.inl (List.mem_singleton.mp down)))
        · exact none pod dir serves (List.mem_cons_of_mem request down)

/-! ### Lists of ready callbacks -/

def handlerOf (loop : EventLoop) (address : Nat) : Option Handler :=
  (loop.callbacks.lookup address).map RcvEpollCb.handler

/-- One callback.  Packets, the sweep and the clients of the post server change no
registration. -/
def invoke (loop : EventLoop) (ready : Ready) : EventLoop :=
  if loop.handlerOf ready.address = some .dispatchGrpcRustQueueEvent then
    loop.requests ready.requests
  else loop

def wakeup (loop : EventLoop) (events : List Ready) : EventLoop := Runs.run invoke loop events

/-- The callback is watched and has not been freed. -/
def Registered (loop : EventLoop) (ready : Ready) : Prop :=
  loop.callbacks.contains ready.address = true ∧
    ∃ entry ∈ loop.interest, entry.2 = ready.address

instance (loop : EventLoop) (ready : Ready) : Decidable (loop.Registered ready) :=
  inferInstanceAs (Decidable (_ ∧ ∃ entry ∈ loop.interest, _))

/-- What `epoll_wait` may return: at most twenty of the watched callbacks, in any order. -/
def Returned (loop : EventLoop) (events : List Ready) : Prop :=
  events.length ≤ 20 ∧ (events.map Ready.address).Nodup ∧
    ∀ event ∈ events, ∃ entry ∈ loop.interest, entry.2 = event.address

instance (loop : EventLoop) (events : List Ready) : Decidable (loop.Returned events) :=
  inferInstanceAs
    (Decidable (_ ∧ List.Nodup _ ∧ ∀ event ∈ events, ∃ entry ∈ loop.interest, _))

/-- The first is the control callback and takes down the pod whose queue the second
serves. -/
def takesDown (loop : EventLoop) (event later : Ready) : Bool :=
  decide (loop.handlerOf event.address = some .dispatchGrpcRustQueueEvent) &&
    (loop.podOf later.address).any fun pod => decide (.podDown pod ∈ event.requests)

theorem takesDown_eq_true {event later : Ready} : loop.takesDown event later = true ↔
    loop.handlerOf event.address = some .dispatchGrpcRustQueueEvent ∧
      ∃ cb, loop.callbacks.lookup later.address = some cb ∧
        ∃ pod dir, cb.handler = .nfqueueRcvData pod dir ∧ .podDown pod ∈ event.requests := by
  rw [takesDown, Bool.and_eq_true, decide_eq_true_eq, Option.any_eq_true]
  refine and_congr_right fun _ => ⟨?_, ?_⟩
  · rintro ⟨pod, serving, down⟩
    obtain ⟨cb, dir, found, serves⟩ := podOf_eq_some.mp serving
    exact ⟨cb, found, pod, dir, serves, of_decide_eq_true down⟩
  · rintro ⟨cb, found, pod, dir, serves, down⟩
    exact ⟨pod, podOf_eq_some.mpr ⟨cb, dir, found, serves⟩, decide_eq_true down⟩

theorem takesDown_congr {loop other : EventLoop} {event later : Ready}
    (first : loop.callbacks.lookup event.address = other.callbacks.lookup event.address)
    (second : loop.callbacks.lookup later.address = other.callbacks.lookup later.address) :
    loop.takesDown event later = other.takesDown event later := by
  have handlers : loop.handlerOf event.address = other.handlerOf event.address := by
    rw [handlerOf, first]
    rfl
  have pods : loop.podOf later.address = other.podOf later.address := by
    rw [podOf, second]
    rfl
  rw [takesDown, handlers, pods]
  rfl

theorem Coherent.registered_iff (coherent : loop.Coherent) (ready : Ready) :
    loop.Registered ready ↔ ∃ cb, loop.callbacks.lookup ready.address = some cb := by
  constructor
  · rintro ⟨allocated, _⟩
    exact Option.isSome_iff_exists.mp allocated
  · rintro ⟨cb, found⟩
    exact ⟨Table.contains_of_lookup found, (cb.fd, ready.address),
      coherent.watched.mpr ⟨cb, found, rfl⟩, rfl⟩

theorem Coherent.invoke (coherent : loop.Coherent) (event : Ready) :
    (loop.invoke event).Coherent ∧ loop.nextCb ≤ (loop.invoke event).nextCb := by
  unfold EventLoop.invoke
  split
  · exact ⟨(coherent.requests event.requests).coherent, (coherent.requests event.requests).grown⟩
  · exact ⟨coherent, Nat.le_refl _⟩

theorem Coherent.lookup_invoke (coherent : loop.Coherent) (event : Ready) {ready : Ready}
    (old : ready.address < loop.nextCb) (cb : RcvEpollCb) :
    (loop.invoke event).callbacks.lookup ready.address = some cb ↔
      loop.callbacks.lookup ready.address = some cb ∧ loop.takesDown event ready = false := by
  rw [← Bool.not_eq_true, takesDown_eq_true]
  by_cases control : loop.handlerOf event.address = some .dispatchGrpcRustQueueEvent
  · rw [EventLoop.invoke, if_pos control, (coherent.requests event.requests).lookup old cb]
    refine and_congr_right fun found => ?_
    constructor
    · rintro stays ⟨_, other, again, pod, dir, serves, down⟩
      cases found.symm.trans again
      exact stays pod dir serves down
    · intro none pod dir serves down
      exact none ⟨control, cb, found, pod, dir, serves, down⟩
  · rw [EventLoop.invoke, if_neg control]
    exact (and_iff_left fun taken => control taken.1).symm

/-- In one pass every callback that is called is registered exactly if all were at its
start and none of them takes down a later one. -/
theorem Coherent.meets_registered (coherent : loop.Coherent) {events : List Ready}
    (old : ∀ event ∈ events, event.address < loop.nextCb) :
    Runs.Meets EventLoop.invoke Registered loop events ↔
      (∀ event ∈ events, loop.Registered event) ∧
        events.Pairwise fun event later => loop.takesDown event later = false := by
  induction events generalizing loop with
  | nil => exact iff_of_true trivial ⟨nofun, List.Pairwise.nil⟩
  | cons event rest ih =>
      obtain ⟨coherentNext, grown⟩ := coherent.invoke event
      have oldRest : ∀ later ∈ rest, later.address < loop.nextCb :=
        fun later member => old later (List.mem_cons_of_mem event member)
      have survives : ∀ later ∈ rest, (loop.invoke event).Registered later ↔
          loop.Registered later ∧ loop.takesDown event later = false := by
        intro later member
        rw [coherentNext.registered_iff, coherent.registered_iff]
        simp only [coherent.lookup_invoke event (oldRest later member), exists_and_right]
      -- what survives has kept its callback, so it takes down the same
      have pairs (registered : ∀ later ∈ rest, (loop.invoke event).Registered later) :
          (rest.Pairwise fun first second =>
              (loop.invoke event).takesDown first second = false) ↔
            rest.Pairwise fun first second => loop.takesDown first second = false := by
        have same : ∀ later ∈ rest, (loop.invoke event).callbacks.lookup later.address =
            loop.callbacks.lookup later.address := by
          intro later member
          obtain ⟨cb, found⟩ := (coherentNext.registered_iff later).mp (registered later member)
          rw [found, ((coherent.lookup_invoke event (oldRest later member) cb).mp found).1]
        refine List.Pairwise.iff_of_mem fun {first second} firstMember secondMember => ?_
        rw [takesDown_congr (same first firstMember) (same second secondMember)]
      have step := ih coherentNext fun later member => (oldRest later member).trans_le grown
      rw [Runs.Meets, step, List.forall_mem_cons, List.pairwise_cons, and_assoc]
      refine and_congr_right fun _ => ?_
      constructor
      · rintro ⟨registered, apart⟩
        have both : ∀ later ∈ rest, _ := fun later member =>
          (survives later member).mp (registered later member)
        exact ⟨fun later member => (both later member).1, fun later member => (both later member).2,
          (pairs registered).mp apart⟩
      · rintro ⟨registered, spared, apart⟩
        have stays : ∀ later ∈ rest, (loop.invoke event).Registered later := fun later member =>
          (survives later member).mpr ⟨registered later member, spared later member⟩
        exact ⟨stays, (pairs stays).mpr apart⟩

theorem Coherent.returned (coherent : loop.Coherent) {events : List Ready}
    (returned : loop.Returned events) :
    ∀ event ∈ events, loop.Registered event ∧ event.address < loop.nextCb := by
  intro event member
  obtain ⟨entry, watched, same⟩ := returned.2.2 event member
  obtain ⟨cb, found, _⟩ := coherent.watched.mp (show (entry.1, entry.2) ∈ _ from watched)
  rw [same] at found
  exact ⟨(coherent.registered_iff event).mpr ⟨cb, found⟩, (coherent.bounded found).1⟩

theorem Coherent.wakeup (coherent : loop.Coherent) (events : List Ready) :
    (loop.wakeup events).Coherent := by
  refine Runs.run_invariant EventLoop.invoke (fun _ _ => True) Coherent ?_ coherent
    (Runs.meets_of_forall (fun _ _ => trivial) loop)
  exact fun _ event coherent _ => (coherent.invoke event).1

/-- For every run of the loop, whatever `epoll_wait` returns and whatever requests are
executed: every callback that is called is registered at that moment exactly if no list
has a control callback that takes down a pod before a callback of that pod. -/
theorem callbacks_registered_iff (lists : List (List Ready))
    (returned : Runs.Meets wakeup Returned start lists) :
    Runs.Meets wakeup (Runs.Meets EventLoop.invoke Registered) start lists ↔
      Runs.Meets wakeup
        (fun loop events => events.Pairwise fun event later => loop.takesDown event later = false)
        start lists := by
  refine Runs.meets_iff_of_invariant wakeup
    (fun _ events coherent _ => coherent.wakeup events) ?_ coherent_start returned
  intro loop events coherent returned
  have initially := coherent.returned returned
  rw [coherent.meets_registered fun event member => (initially event member).2]
  exact and_iff_right fun event member => (initially event member).1

/-- A pod comes up, gets a packet, and goes down in the same pass after the packet. -/
theorem podDown_after_packet_registered :
    Runs.Meets wakeup (Runs.Meets EventLoop.invoke Registered) start
      [[⟨1, [.podUp 7 true .succeeds]⟩], [⟨3, []⟩, ⟨1, [.podDown 7]⟩]] :=
  (callbacks_registered_iff _ (by decide)).mpr (by decide)

/-- In the other order the callback of its queue is called after it has been freed. -/
theorem podDown_before_packet_freed :
    let lists : List (List Ready) :=
      [[⟨1, [.podUp 7 true .succeeds]⟩], [⟨1, [.podDown 7]⟩, ⟨3, []⟩]]
    Runs.Meets wakeup Returned start lists ∧
      ¬Runs.Meets wakeup (Runs.Meets EventLoop.invoke Registered) start lists ∧
      let loop := (start.wakeup [⟨1, [.podUp 7 true .succeeds]⟩]).invoke ⟨1, [.podDown 7]⟩
      ¬loop.Registered ⟨3, []⟩ ∧ loop.callbacks.contains 3 = false := by
  decide

end EventLoop

end NetPolicy.Daemon
