/-
The queue between the control RPCs and the event loop.

Any number of threads push work items: each appends its item under the lock, adds one to
the event counter, and waits until the item's promise is fulfilled.  The event loop is
woken while the counter is positive.  It reads the counter until it is zero, drains the
queue, and runs the drained items one after another; a promise is fulfilled also if the
work throws.  The appending and the counting are two steps, as are the reading and the
draining, and the steps of all parties interleave freely.
-/

import Mathlib.Data.List.Nodup
import Mathlib.Data.List.Perm.Subperm
import Mathlib.Data.List.Range
import Mathlib.Logic.Function.Basic
import NetPolicy.Library.Transitions

namespace NetPolicy.GrpcBridge

/-! ### Items, threads and the event loop -/

inductive Thrown where
  | exception (what : String)
  | unknown
deriving DecidableEq, Repr

/-- `number` stands for the item's address. -/
structure GrpcDispatchItem (δ : Type) where
  number : Nat
  work : δ → δ × Option Thrown

inductive Producer where
  | idle
  | appended (number : Nat)
  | waiting (number : Nat)
deriving DecidableEq, Repr

/-- Where `DispatchGrpcRustQueueEvent` is; `reading` tells whether a read has succeeded,
`finishing` is between the work of an item and its promise. -/
inductive Consumer (δ : Type) where
  | polling
  | reading (seen : Bool)
  | emptied
  | running (batch : List (GrpcDispatchItem δ))
  | finishing (item : GrpcDispatchItem δ) (batch : List (GrpcDispatchItem δ))

/-- The last five fields only record what has happened. -/
structure System (ι δ : Type) where
  producers : ι → Producer
  queue : List (GrpcDispatchItem δ)
  counter : Nat
  consumer : Consumer δ
  done : List Nat
  daemon : δ
  log : List String
  pushed : List (GrpcDispatchItem δ)
  woken : List Nat
  ran : List (GrpcDispatchItem δ)
  resumed : List Nat

inductive Action (ι δ : Type) where
  | push (thread : ι) (work : δ → δ × Option Thrown)
  | wake (thread : ι)
  | resume (thread : ι)
  | consume

def Thrown.logged : Thrown → String
  | .exception what => "grpc dispatch closure threw: " ++ what
  | .unknown => "grpc dispatch closure threw an unknown exception"

namespace System

variable {ι δ : Type}

def start (daemon : δ) : System ι δ :=
  { producers := fun _ => .idle
    queue := []
    counter := 0
    consumer := .polling
    done := []
    daemon := daemon
    log := []
    pushed := []
    woken := []
    ran := []
    resumed := [] }

variable [DecidableEq ι]

def push (system : System ι δ) (thread : ι) (work : δ → δ × Option Thrown) : System ι δ :=
  let item := { number := system.pushed.length, work := work }
  { system with
    producers := Function.update system.producers thread (.appended item.number)
    queue := system.queue ++ [item]
    pushed := system.pushed ++ [item] }

def wake (system : System ι δ) (thread : ι) (number : Nat) : System ι δ :=
  { system with
    producers := Function.update system.producers thread (.waiting number)
    counter := system.counter + 1
    woken := system.woken ++ [number] }

def resume (system : System ι δ) (thread : ι) (number : Nat) : System ι δ :=
  { system with
    producers := Function.update system.producers thread .idle
    resumed := system.resumed ++ [number] }

omit [DecidableEq ι] in
/-- The work of one item, with what is thrown caught and logged. -/
def runItem (system : System ι δ) (item : GrpcDispatchItem δ) (batch : List (GrpcDispatchItem δ)) :
    System ι δ :=
  let worked := item.work system.daemon
  { system with
    daemon := worked.1
    log := system.log ++ (worked.2.map Thrown.logged).toList
    ran := system.ran ++ [item]
    consumer := .finishing item batch }

omit [DecidableEq ι] in
/-- The event loop waits in `epoll_wait` while the counter is zero.  A read takes the
whole counter, and fails if it is zero. -/
def consume (system : System ι δ) : Option (System ι δ) :=
  match system.consumer with
  | .polling =>
      if 0 < system.counter then some { system with consumer := .reading false } else none
  | .reading _ =>
      if 0 < system.counter then some { system with counter := 0, consumer := .reading true }
      else some { system with consumer := .emptied }
  | .emptied => some { system with queue := [], consumer := .running system.queue }
  | .running [] => some { system with consumer := .polling }
  | .running (item :: batch) => some (system.runItem item batch)
  | .finishing item batch =>
      some { system with done := system.done ++ [item.number], consumer := .running batch }

def step (system : System ι δ) : Action ι δ → Option (System ι δ)
  | .push thread work =>
      match system.producers thread with
      | .idle => some (system.push thread work)
      | _ => none
  | .wake thread =>
      match system.producers thread with
      | .appended number => some (system.wake thread number)
      | _ => none
  | .resume thread =>
      match system.producers thread with
      | .waiting number =>
          if number ∈ system.done then some (system.resume thread number) else none
      | _ => none
  | .consume => system.consume

/-! ### What a step can do -/

omit [DecidableEq ι] in
inductive Consumes (system : System ι δ) : System ι δ → Prop where
  | ready : system.consumer = .polling → 0 < system.counter →
      Consumes system { system with consumer := .reading false }
  | read (seen : Bool) : system.consumer = .reading seen → 0 < system.counter →
      Consumes system { system with counter := 0, consumer := .reading true }
  | readFails (seen : Bool) : system.consumer = .reading seen → system.counter = 0 →
      Consumes system { system with consumer := .emptied }
  | drain : system.consumer = .emptied →
      Consumes system { system with queue := [], consumer := .running system.queue }
  | poll : system.consumer = .running [] → Consumes system { system with consumer := .polling }
  | run (item : GrpcDispatchItem δ) (batch : List (GrpcDispatchItem δ)) :
      system.consumer = .running (item :: batch) → Consumes system (system.runItem item batch)
  | fulfil (item : GrpcDispatchItem δ) (batch : List (GrpcDispatchItem δ)) :
      system.consumer = .finishing item batch →
        Consumes system
          { system with done := system.done ++ [item.number], consumer := .running batch }

omit [DecidableEq ι] in
theorem consumes_of_consume {system next : System ι δ} (consumed : system.consume = some next) :
    system.Consumes next := by
  unfold consume at consumed
  split at consumed
  · rename_i position
    split at consumed
    · rename_i positive
      cases consumed
      exact .ready position positive
    · cases consumed
  · rename_i seen position
    split at consumed
    · rename_i positive
      cases consumed
      exact .read seen position positive
    · rename_i zero
      cases consumed
      exact .readFails seen position (Nat.eq_zero_of_not_pos zero)
  · rename_i position
    cases consumed
    exact .drain position
  · rename_i position
    cases consumed
    exact .poll position
  · rename_i item batch position
    cases consumed
    exact .run item batch position
  · rename_i item batch position
    cases consumed
    exact .fulfil item batch position

inductive Steps (system : System ι δ) : Action ι δ → System ι δ → Prop where
  | push (thread : ι) (work : δ → δ × Option Thrown) : system.producers thread = .idle →
      Steps system (.push thread work) (system.push thread work)
  | wake (thread : ι) (number : Nat) : system.producers thread = .appended number →
      Steps system (.wake thread) (system.wake thread number)
  | resume (thread : ι) (number : Nat) : system.producers thread = .waiting number →
      number ∈ system.done → Steps system (.resume thread) (system.resume thread number)
  | consume {next : System ι δ} : system.Consumes next → Steps system .consume next

theorem steps_of_step {system next : System ι δ} {action : Action ι δ}
    (stepped : system.step action = some next) : system.Steps action next := by
  unfold step at stepped
  cases action with
  | push thread work =>
      dsimp only at stepped
      split at stepped
      · rename_i free
        cases stepped
        exact .push thread work free
      · cases stepped
  | wake thread =>
      dsimp only at stepped
      split at stepped
      · rename_i number held
        cases stepped
        exact .wake thread number held
      · cases stepped
  | resume thread =>
      dsimp only at stepped
      split at stepped
      · rename_i number held
        split at stepped
        · rename_i fulfilled
          cases stepped
          exact .resume thread number held fulfilled
        · cases stepped
      · cases stepped
  | consume => exact .consume (consumes_of_consume stepped)

/-! ### The order of the items -/

end System

def Consumer.batch {δ : Type} : Consumer δ → List (GrpcDispatchItem δ)
  | .polling => []
  | .reading _ => []
  | .emptied => []
  | .running batch => batch
  | .finishing _ batch => batch

def Consumer.unfulfilled {δ : Type} : Consumer δ → List Nat
  | .polling => []
  | .reading _ => []
  | .emptied => []
  | .running _ => []
  | .finishing item _ => [item.number]

namespace System

variable {ι δ : Type} [DecidableEq ι]

omit [DecidableEq ι] in
/-- An item is in one place at any time, and the places follow the order of the pushes. -/
structure Ordered (initial : δ) (system : System ι δ) : Prop where
  order : system.ran ++ system.consumer.batch ++ system.queue = system.pushed
  numbered : system.pushed.map GrpcDispatchItem.number = List.range system.pushed.length
  fulfilled : system.done ++ system.consumer.unfulfilled =
    system.ran.map GrpcDispatchItem.number
  resumed : ∀ number ∈ system.resumed, number ∈ system.done
  daemon : system.daemon = system.ran.foldl (fun daemon item => (item.work daemon).1) initial

omit [DecidableEq ι] in
theorem Ordered.consumes {initial : δ} {system next : System ι δ}
    (ordered : system.Ordered initial) (consumes : system.Consumes next) :
    next.Ordered initial := by
  obtain ⟨order, numbered, fulfilled, resumed, daemon⟩ := ordered
  cases consumes with
  | ready polling positive =>
      rw [polling] at order fulfilled
      exact ⟨order, numbered, fulfilled, resumed, daemon⟩
  | read seen reading positive =>
      rw [reading] at order fulfilled
      exact ⟨order, numbered, fulfilled, resumed, daemon⟩
  | readFails seen reading zero =>
      rw [reading] at order fulfilled
      exact ⟨order, numbered, fulfilled, resumed, daemon⟩
  | drain emptied =>
      rw [emptied] at order fulfilled
      refine ⟨?_, numbered, fulfilled, resumed, daemon⟩
      rw [Consumer.batch, List.append_nil] at order
      exact (List.append_nil _).trans order
  | poll returning =>
      rw [returning] at order fulfilled
      exact ⟨order, numbered, fulfilled, resumed, daemon⟩
  | run item batch running =>
      rw [running] at order fulfilled
      refine ⟨?_, numbered, ?_, resumed, ?_⟩
      · change system.ran ++ [item] ++ batch ++ system.queue = system.pushed
        rw [List.append_assoc system.ran, List.singleton_append]
        exact order
      · change system.done ++ [item.number] = (system.ran ++ [item]).map _
        rw [Consumer.unfulfilled, List.append_nil] at fulfilled
        rw [fulfilled, List.map_append, List.map_singleton]
      · change (item.work system.daemon).1 = (system.ran ++ [item]).foldl _ initial
        rw [List.foldl_append, ← daemon]
        rfl
  | fulfil item batch finishing =>
      rw [finishing] at order fulfilled
      refine ⟨order, numbered, (List.append_nil _).trans fulfilled, ?_, daemon⟩
      exact fun number member => List.mem_append_left _ (resumed number member)

theorem Ordered.step {initial : δ} {system next : System ι δ} {action : Action ι δ}
    (ordered : system.Ordered initial) (steps : system.Steps action next) :
    next.Ordered initial := by
  cases steps with
  | push thread work free =>
      refine ⟨?_, ?_, ordered.fulfilled, ordered.resumed, ordered.daemon⟩
      · change system.ran ++ system.consumer.batch ++ (system.queue ++ [_]) = system.pushed ++ [_]
        rw [← List.append_assoc, ordered.order]
      · change (system.pushed ++ [_]).map _ = List.range (system.pushed ++ [_]).length
        rw [List.map_append, ordered.numbered, List.length_append, List.length_singleton,
          List.range_succ, List.map_singleton]
  | wake thread number held =>
      exact ⟨ordered.order, ordered.numbered, ordered.fulfilled, ordered.resumed, ordered.daemon⟩
  | resume thread number held kept =>
      refine ⟨ordered.order, ordered.numbered, ordered.fulfilled, ?_, ordered.daemon⟩
      intro other member
      rcases List.mem_append.mp member with earlier | last
      · exact ordered.resumed other earlier
      · rw [List.mem_singleton.mp last]
        exact kept
  | consume consumes => exact ordered.consumes consumes

/-! ### The threads -/

end System

def Producer.item : Producer → Option Nat
  | .idle => none
  | .appended number => some number
  | .waiting number => some number

section Threads

variable {ι : Type}

/-- Each item belongs to one thread, which counts it once and is resumed for it once. -/
structure Threaded (producers : ι → Producer) (pushed : Nat) (woken resumed : List Nat) :
    Prop where
  appended : ∀ {thread number}, producers thread = .appended number →
    number < pushed ∧ number ∉ woken
  waiting : ∀ {thread number}, producers thread = .waiting number →
    number ∈ woken ∧ number ∉ resumed
  exclusive : ∀ {thread other number}, (producers thread).item = some number →
    (producers other).item = some number → thread = other
  wokenPushed : ∀ number ∈ woken, number < pushed
  resumedWoken : ∀ number ∈ resumed, number ∈ woken
  wokenOnce : woken.Nodup
  resumedOnce : resumed.Nodup

variable {producers : ι → Producer} {pushed : Nat} {woken resumed : List Nat}

theorem Threaded.item_lt (threaded : Threaded producers pushed woken resumed) {thread : ι}
    {number : Nat} (held : (producers thread).item = some number) : number < pushed := by
  cases state : producers thread with
  | idle =>
      rw [state] at held
      cases held
  | appended other =>
      rw [state] at held
      cases held
      exact (threaded.appended state).1
  | waiting other =>
      rw [state] at held
      cases held
      exact threaded.wokenPushed number (threaded.waiting state).1

variable [DecidableEq ι]

theorem update_cases {thread other : ι} {value found : Producer}
    (state : Function.update producers thread value other = found) :
    other = thread ∧ value = found ∨ other ≠ thread ∧ producers other = found := by
  by_cases same : other = thread
  · rw [same, Function.update_self] at state
    exact Or.inl ⟨same, state⟩
  · rw [Function.update_of_ne same] at state
    exact Or.inr ⟨same, state⟩

theorem Threaded.push (threaded : Threaded producers pushed woken resumed) (thread : ι) :
    Threaded (Function.update producers thread (.appended pushed)) (pushed + 1) woken resumed := by
  refine ⟨?_, ?_, ?_, ?_, threaded.resumedWoken, threaded.wokenOnce, threaded.resumedOnce⟩
  · intro other number state
    rcases update_cases state with ⟨_, same⟩ | ⟨_, before⟩
    · cases same
      exact ⟨Nat.lt_succ_self pushed,
        fun member => Nat.lt_irrefl pushed (threaded.wokenPushed pushed member)⟩
    · obtain ⟨below, uncounted⟩ := threaded.appended before
      exact ⟨Nat.lt_succ_of_lt below, uncounted⟩
  · intro other number state
    rcases update_cases state with ⟨_, same⟩ | ⟨_, before⟩
    · cases same
    · exact threaded.waiting before
  · intro first second number firstHeld secondHeld
    -- no other thread has an item with the new number
    have fresh {other : ι} (held : (producers other).item = some pushed) : False :=
      Nat.lt_irrefl pushed (threaded.item_lt held)
    by_cases firstSame : first = thread
    · by_cases secondSame : second = thread
      · rw [firstSame, secondSame]
      · rw [firstSame, Function.update_self] at firstHeld
        rw [Function.update_of_ne secondSame] at secondHeld
        cases firstHeld
        exact (fresh secondHeld).elim
    · rw [Function.update_of_ne firstSame] at firstHeld
      by_cases secondSame : second = thread
      · rw [secondSame, Function.update_self] at secondHeld
        cases secondHeld
        exact (fresh firstHeld).elim
      · rw [Function.update_of_ne secondSame] at secondHeld
        exact threaded.exclusive firstHeld secondHeld
  · exact fun number member => Nat.lt_succ_of_lt (threaded.wokenPushed number member)

theorem Threaded.wake (threaded : Threaded producers pushed woken resumed) {thread : ι}
    {number : Nat} (held : producers thread = .appended number) :
    Threaded (Function.update producers thread (.waiting number)) pushed (woken ++ [number])
      resumed := by
  obtain ⟨below, uncounted⟩ := threaded.appended held
  have item (other : ι) : (Function.update producers thread (.waiting number) other).item =
      (producers other).item := by
    by_cases same : other = thread
    · rw [same, Function.update_self, held]
      rfl
    · rw [Function.update_of_ne same]
  refine ⟨?_, ?_, ?_, ?_, ?_, ?_, threaded.resumedOnce⟩
  · intro other found state
    rcases update_cases state with ⟨_, impossible⟩ | ⟨different, before⟩
    · cases impossible
    · obtain ⟨belowFound, uncountedFound⟩ := threaded.appended before
      refine ⟨belowFound, fun member => ?_⟩
      rcases List.mem_append.mp member with earlier | last
      · exact uncountedFound earlier
      · rw [List.mem_singleton.mp last] at before
        exact different (threaded.exclusive (congrArg Producer.item before)
          (congrArg Producer.item held))
  · intro other found state
    rcases update_cases state with ⟨_, same⟩ | ⟨_, before⟩
    · cases same
      exact ⟨List.mem_append_right _ List.mem_cons_self,
        fun member => uncounted (threaded.resumedWoken number member)⟩
    · obtain ⟨counted, unresumed⟩ := threaded.waiting before
      exact ⟨List.mem_append_left _ counted, unresumed⟩
  · intro first second found firstHeld secondHeld
    rw [item] at firstHeld secondHeld
    exact threaded.exclusive firstHeld secondHeld
  · intro found member
    rcases List.mem_append.mp member with earlier | last
    · exact threaded.wokenPushed found earlier
    · rw [List.mem_singleton.mp last]
      exact below
  · exact fun found member => List.mem_append_left _ (threaded.resumedWoken found member)
  · rw [← List.concat_eq_append, List.nodup_concat]
    exact ⟨uncounted, threaded.wokenOnce⟩

theorem Threaded.resume (threaded : Threaded producers pushed woken resumed) {thread : ι}
    {number : Nat} (held : producers thread = .waiting number) :
    Threaded (Function.update producers thread .idle) pushed woken (resumed ++ [number]) := by
  obtain ⟨counted, unresumed⟩ := threaded.waiting held
  have item {other : ι} {found : Nat}
      (state : (Function.update producers thread .idle other).item = some found) :
      (producers other).item = some found := by
    by_cases same : other = thread
    · rw [same, Function.update_self] at state
      cases state
    · rw [Function.update_of_ne same] at state
      exact state
  refine ⟨?_, ?_, ?_, threaded.wokenPushed, ?_, threaded.wokenOnce, ?_⟩
  · intro other found state
    rcases update_cases state with ⟨_, impossible⟩ | ⟨_, before⟩
    · cases impossible
    · exact threaded.appended before
  · intro other found state
    rcases update_cases state with ⟨_, impossible⟩ | ⟨different, before⟩
    · cases impossible
    · obtain ⟨countedFound, unresumedFound⟩ := threaded.waiting before
      refine ⟨countedFound, fun member => ?_⟩
      rcases List.mem_append.mp member with earlier | last
      · exact unresumedFound earlier
      · rw [List.mem_singleton.mp last] at before
        exact different (threaded.exclusive (congrArg Producer.item before)
          (congrArg Producer.item held))
  · exact fun firstHeld secondHeld => threaded.exclusive (item firstHeld) (item secondHeld)
  · intro found member
    rcases List.mem_append.mp member with earlier | last
    · exact threaded.resumedWoken found earlier
    · rw [List.mem_singleton.mp last]
      exact counted
  · rw [← List.concat_eq_append, List.nodup_concat]
    exact ⟨unresumed, threaded.resumedOnce⟩

omit [DecidableEq ι] in
theorem Threaded.resumed_le (threaded : Threaded producers pushed woken resumed) :
    resumed.length ≤ woken.length :=
  (List.subperm_of_subset threaded.resumedOnce threaded.resumedWoken).length_le

theorem length_lt_of_missing {number : Nat} {some all : List Nat} (once : some.Nodup)
    (within : ∀ other ∈ some, other ∈ all) (member : number ∈ all) (missing : number ∉ some) :
    some.length < all.length :=
  (List.subperm_of_subset (List.nodup_cons.mpr ⟨missing, once⟩)
    (List.cons_subset.mpr ⟨member, within⟩)).length_le

omit [DecidableEq ι] in
theorem Threaded.woken_lt (threaded : Threaded producers pushed woken resumed) {thread : ι}
    {number : Nat} (held : producers thread = .appended number) : woken.length < pushed := by
  obtain ⟨below, uncounted⟩ := threaded.appended held
  have fewer := length_lt_of_missing threaded.wokenOnce
    (fun other member => List.mem_range.mpr (threaded.wokenPushed other member))
    (List.mem_range.mpr below) uncounted
  rw [List.length_range] at fewer
  exact fewer

omit [DecidableEq ι] in
theorem Threaded.resumed_lt (threaded : Threaded producers pushed woken resumed) {thread : ι}
    {number : Nat} (held : producers thread = .waiting number) :
    resumed.length < woken.length :=
  length_lt_of_missing threaded.resumedOnce threaded.resumedWoken (threaded.waiting held).1
    (threaded.waiting held).2

end Threads

/-! ### Wake-ups -/

def Consumer.HasRead {δ : Type} : Consumer δ → Prop
  | .polling => False
  | .reading seen => seen = true
  | .emptied => True
  | .running _ => False
  | .finishing _ _ => False

namespace System

variable {ι δ : Type}

/-- No item is in the queue without someone who is bound to see to it. -/
structure Wakeful (system : System ι δ) : Prop where
  pending : system.queue ≠ [] → 0 < system.counter ∨ system.consumer.HasRead ∨
    ∃ thread number, system.producers thread = .appended number
  called : system.consumer = .reading false → 0 < system.counter

theorem Wakeful.consumes {system next : System ι δ} (wakeful : system.Wakeful)
    (consumes : system.Consumes next) : next.Wakeful := by
  obtain ⟨pending, called⟩ := wakeful
  cases consumes with
  | ready polling positive => exact ⟨fun _ => Or.inl positive, fun _ => positive⟩
  | read seen reading positive => exact ⟨fun _ => Or.inr (Or.inl rfl), nofun⟩
  | readFails seen reading zero => exact ⟨fun _ => Or.inr (Or.inl trivial), nofun⟩
  | drain emptied => exact ⟨fun nonempty => absurd rfl nonempty, nofun⟩
  | poll returning =>
      rw [returning] at pending
      exact ⟨pending, nofun⟩
  | run item batch running =>
      rw [running] at pending
      exact ⟨pending, nofun⟩
  | fulfil item batch finishing =>
      rw [finishing] at pending
      exact ⟨pending, nofun⟩

variable [DecidableEq ι]

theorem Wakeful.step {system next : System ι δ} {action : Action ι δ} (wakeful : system.Wakeful)
    (steps : system.Steps action next) : next.Wakeful := by
  cases steps with
  | push thread work free =>
      refine ⟨fun _ => Or.inr (Or.inr ⟨thread, system.pushed.length, ?_⟩), wakeful.called⟩
      exact Function.update_self ..
  | wake thread number held =>
      exact ⟨fun _ => Or.inl (Nat.succ_pos _), fun _ => Nat.succ_pos _⟩
  | resume thread number held kept =>
      refine ⟨fun nonempty => ?_, wakeful.called⟩
      rcases wakeful.pending nonempty with positive | read | ⟨other, found, appended⟩
      · exact Or.inl positive
      · exact Or.inr (Or.inl read)
      · have different : other ≠ thread := by
          intro same
          rw [same, held] at appended
          cases appended
        exact Or.inr (Or.inr ⟨other, found, (Function.update_of_ne different ..).trans appended⟩)
  | consume consumes => exact wakeful.consumes consumes

/-! ### Every interleaving -/

structure Sound (initial : δ) (system : System ι δ) : Prop where
  ordered : system.Ordered initial
  threaded : Threaded system.producers system.pushed.length system.woken system.resumed
  wakeful : system.Wakeful

omit [DecidableEq ι] in
theorem sound_start (daemon : δ) : (start daemon : System ι δ).Sound daemon where
  ordered := ⟨rfl, rfl, rfl, nofun, rfl⟩
  threaded := ⟨nofun, nofun, nofun, nofun, nofun, List.nodup_nil, List.nodup_nil⟩
  wakeful := ⟨fun nonempty => absurd rfl nonempty, nofun⟩

theorem threaded_step {system next : System ι δ} {action : Action ι δ}
    (threaded : Threaded system.producers system.pushed.length system.woken system.resumed)
    (steps : system.Steps action next) :
    Threaded next.producers next.pushed.length next.woken next.resumed := by
  cases steps with
  | push thread work free =>
      change Threaded _ (system.pushed ++ [_]).length _ _
      rw [List.length_append, List.length_singleton]
      exact threaded.push thread
  | wake thread number held => exact threaded.wake held
  | resume thread number held kept => exact threaded.resume held
  | consume consumes => cases consumes <;> exact threaded

theorem Sound.step {initial : δ} {system next : System ι δ} {action : Action ι δ}
    (sound : system.Sound initial) (stepped : system.step action = some next) :
    next.Sound initial :=
  have steps := steps_of_step stepped
  ⟨sound.ordered.step steps, threaded_step sound.threaded steps, sound.wakeful.step steps⟩

/-- If only new requests can go on, all items have run and all threads are resumed. -/
theorem Sound.settled {initial : δ} {system : System ι δ} (sound : system.Sound initial)
    (stuck : ∀ action next, system.step action = some next → ∃ thread work,
      action = .push thread work) :
    system.ran = system.pushed ∧ ∀ thread, system.producers thread = .idle := by
  have counted (thread : ι) (number : Nat) : system.producers thread ≠ .appended number := by
    intro held
    obtain ⟨other, work, impossible⟩ := stuck (.wake thread) (system.wake thread number)
      (by rw [System.step, held])
    cases impossible
  have consumed : system.consume = none := by
    cases consumes : system.consume with
    | none => rfl
    | some next =>
        obtain ⟨thread, work, impossible⟩ := stuck .consume next consumes
        cases impossible
  -- the event loop waits only in `epoll_wait`, and only while the counter is zero
  have waits : system.consumer = .polling ∧ system.counter = 0 := by
    unfold System.consume at consumed
    split at consumed
    · rename_i polling
      split at consumed
      · cases consumed
      · rename_i zero
        exact ⟨polling, Nat.eq_zero_of_not_pos zero⟩
    · split at consumed <;> cases consumed
    all_goals cases consumed
  obtain ⟨polling, zero⟩ := waits
  have drained : system.queue = [] := by
    by_contra nonempty
    rcases sound.wakeful.pending nonempty with positive | read | ⟨thread, number, held⟩
    · omega
    · rw [polling] at read
      exact read
    · exact counted thread number held
  have order := sound.ordered.order
  rw [polling, drained, List.append_nil, Consumer.batch, List.append_nil] at order
  refine ⟨order, fun thread => ?_⟩
  cases held : system.producers thread with
  | idle => rfl
  | appended number => exact absurd held (counted thread number)
  | waiting number =>
      have fulfilled : number ∈ system.done := by
        have all := sound.ordered.fulfilled
        rw [polling, Consumer.unfulfilled, List.append_nil, order,
          sound.ordered.numbered] at all
        rw [all, List.mem_range]
        exact sound.threaded.wokenPushed number (sound.threaded.waiting held).1
      obtain ⟨other, work, impossible⟩ := stuck (.resume thread) (system.resume thread number)
        (by rw [System.step, held]; exact if_pos fulfilled)
      cases impossible

end System

/-! ### Termination -/

/-- Steps the event loop still has before it, with two for each item it holds. -/
def Consumer.weight {δ : Type} : Consumer δ → Nat
  | .polling => 1
  | .reading false => 0
  | .reading true => 4
  | .emptied => 3
  | .running batch => 2 + 2 * batch.length
  | .finishing _ batch => 3 + 2 * batch.length

namespace System

variable {ι δ : Type} [DecidableEq ι]

omit [DecidableEq ι] in
/-- A bound on the steps that are left without further pushes: a positive counter calls
for one more pass of the event loop. -/
def remaining (system : System ι δ) : Nat :=
  7 * (system.pushed.length - system.woken.length) +
    (system.woken.length - system.resumed.length) +
    (if 0 < system.counter then 5 else 0) + 2 * system.queue.length + system.consumer.weight

omit [DecidableEq ι] in
theorem remaining_consumes {system next : System ι δ} (wakeful : system.Wakeful)
    (consumes : system.Consumes next) : next.remaining < system.remaining := by
  unfold remaining
  cases consumes with
  | ready polling positive =>
      rw [polling]
      exact Nat.lt_succ_self _
  | read seen reading positive =>
      rw [reading, if_pos positive, if_neg (Nat.lt_irrefl 0)]
      cases seen with
      | false =>
          dsimp only [Consumer.weight]
          omega
      | true =>
          dsimp only
          omega
  | readFails seen reading zero =>
      -- the first read of a pass does not fail
      cases seen with
      | false =>
          have positive := wakeful.called reading
          omega
      | true =>
          rw [reading]
          exact Nat.lt_succ_self _
  | drain emptied =>
      rw [emptied]
      dsimp only [Consumer.weight]
      rw [List.length_nil]
      omega
  | poll returning =>
      rw [returning]
      exact Nat.lt_succ_self _
  | run item batch running =>
      have lighter : 3 + 2 * batch.length < 2 + 2 * (batch.length + 1) := by omega
      rw [running]
      exact Nat.add_lt_add_left lighter _
  | fulfil item batch finishing =>
      have lighter : 2 + 2 * batch.length < 3 + 2 * batch.length := by omega
      rw [finishing]
      exact Nat.add_lt_add_left lighter _

theorem remaining_step {initial : δ} {system next : System ι δ} {action : Action ι δ}
    (sound : system.Sound initial) (other : ∀ thread work, action ≠ .push thread work)
    (stepped : system.step action = some next) : next.remaining < system.remaining := by
  have unresumed := sound.threaded.resumed_le
  cases steps_of_step stepped with
  | push thread work free => exact absurd rfl (other thread work)
  | wake thread number held =>
      have uncounted := sound.threaded.woken_lt held
      dsimp only [remaining, wake]
      rw [List.length_append, List.length_singleton, if_pos (Nat.succ_pos _)]
      omega
  | resume thread number held kept =>
      have waiting := sound.threaded.resumed_lt held
      dsimp only [remaining, resume]
      rw [List.length_append, List.length_singleton]
      omega
  | consume consumes => exact remaining_consumes sound.wakeful consumes

/-- In every interleaving the items run in the order of the pushes, each once; a thread is
resumed after its item has run; and an item in the queue is never forgotten: the counter
is positive, or the event loop has read it and is about to drain, or a thread is about to
count.  Without further pushes every interleaving ends, with all items run. -/
theorem grpcDispatch_exactly_once (daemon : δ) {actions : List (Action ι δ)}
    {system : System ι δ}
    (executed : Transitions.exec System.step (start daemon) actions = some system) :
    (system.ran ++ system.consumer.batch ++ system.queue = system.pushed ∧
        (system.pushed.map GrpcDispatchItem.number).Nodup ∧
        system.daemon =
          system.ran.foldl (fun daemon item => (item.work daemon).1) daemon) ∧
      (∀ number ∈ system.resumed, number ∈ system.ran.map GrpcDispatchItem.number) ∧
      (system.queue ≠ [] → 0 < system.counter ∨ system.consumer.HasRead ∨
        ∃ thread number, system.producers thread = .appended number) ∧
      ((∀ action next, system.step action = some next → ∃ thread work,
          action = .push thread work) →
        system.ran = system.pushed ∧ ∀ thread, system.producers thread = .idle) ∧
      ∀ later last, (∀ action ∈ later, ∀ thread work, action ≠ .push thread work) →
        Transitions.exec System.step system later = some last →
          later.length ≤ system.remaining := by
  have sound : system.Sound daemon :=
    Transitions.exec_invariant Sound.step (sound_start daemon) executed
  refine ⟨⟨sound.ordered.order, ?_, sound.ordered.daemon⟩, ?_, sound.wakeful.pending,
    sound.settled, ?_⟩
  · rw [sound.ordered.numbered]
    exact List.nodup_range
  · intro number resumed
    rw [← sound.ordered.fulfilled]
    exact List.mem_append_left _ (sound.ordered.resumed number resumed)
  · intro later last others continued
    have bounded := Transitions.exec_length_le Sound.step remaining_step sound others continued
    omega

/-- Two threads; the second counts its item while the event loop reads for the first, and
its work throws. -/
def twoThreads : List (Action Bool (List Nat)) :=
  [.push false fun daemon => (daemon ++ [10], none),
    .push true fun daemon => (daemon ++ [20], some (.exception "bad policy")),
    .wake false, .consume, .consume, .wake true, .consume, .consume, .consume, .consume, .consume,
    .resume false, .consume, .consume, .consume, .resume true]

theorem twoThreads_served :
    ∃ system, Transitions.exec System.step (start []) twoThreads = some system ∧
      system.daemon = [10, 20] ∧
      system.log = ["grpc dispatch closure threw: bad policy"] ∧ system.resumed = [0, 1] ∧
      ∀ number ∈ system.resumed, number ∈ system.ran.map GrpcDispatchItem.number := by
  have executed : Transitions.exec System.step (start []) twoThreads = some _ := rfl
  exact ⟨_, executed, rfl, rfl, rfl, (grpcDispatch_exactly_once [] executed).2.1⟩

end System

end NetPolicy.GrpcBridge
