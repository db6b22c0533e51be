/-
Protocol detection and how a stream is cut.

What detection does with a stream is followed on four things: the protocol of the
codec, the bytes `llhttp` has seen, the bytes buffered and the bytes dispatched.
A segment that makes the inspector report an error is dropped, and nothing brings
it back, so detection keeps a stream exactly when no segment meets an error and
the right codec is created.
-/

import NetPolicy.Http.Connection
import NetPolicy.Library.Runs
import Mathlib.Data.List.Infix

namespace NetPolicy.Http

/-! ### Request lines -/

/-- A request line of HTTP/1.0 or 1.1 with its CRLF: some text, the version, and
no other line end. -/
def IsHttp1Line (line : List UInt8) : Prop :=
  ∃ start digit, line = start ++ asciiBytes " HTTP/1." ++ [digit, crByte, lfByte] ∧
    start ≠ [] ∧ isLineEnd digit = false ∧ ∀ byte ∈ start, isLineEnd byte = false

/-- What is assumed of `llhttp_execute`: it accepts every beginning of a valid request
line, and reports an error on bytes that do not begin as one. -/
structure Llhttp.Judges (llhttp : Llhttp) (valid : List UInt8 → Prop) : Prop where
  shape : ∀ {line}, valid line → IsHttp1Line line
  accepts_beginning : ∀ {line beginning}, valid line → beginning <+: line →
    llhttp.accepts beginning = true
  rejects : ∀ {fed}, (∀ line, valid line → ¬fed <+: line ∧ ¬line <+: fed) →
    llhttp.accepts fed = false

/-! ### Following a connection -/

def Codec.protocol : Codec → Protocol
  | .http1 _ => .http11
  | .http2 _ => .http2

structure Watch where
  protocol : Option Protocol
  fed : List UInt8
  packet : List UInt8
  dispatched : List UInt8

def Connection.watch (connection : Connection) (dispatched : List UInt8) : Watch :=
  { protocol := connection.codec.map Codec.protocol
    fed := connection.inspector.fed
    packet := connection.packet
    dispatched := dispatched }

namespace Watch

def new : Watch := { protocol := none, fed := [], packet := [], dispatched := [] }

def forwarded (watch : Watch) (protocol : Protocol) (data : List UInt8) : Watch :=
  { watch with
    protocol := some protocol
    packet := []
    dispatched := watch.dispatched ++ watch.packet ++ data }

def buffered (watch : Watch) (data : List UInt8) : Watch :=
  { watch with packet := watch.packet ++ data }

def saw (watch : Watch) (data : List UInt8) : Watch :=
  { watch with fed := watch.fed ++ data }

def step (llhttp : Llhttp) (watch : Watch) (data : List UInt8) : Watch :=
  match watch.protocol with
  | some protocol => watch.forwarded protocol data
  | none =>
      if data <+: http2ConnectionPreface ∧ data.length < http2ConnectionPreface.length then
        watch.buffered data
      else if http2ConnectionPreface <+: data then watch.forwarded .http2 data
      else if data.head?.any isLineEnd then watch
      else if data.any isLineEnd then
        let seen := watch.saw (throughLineEnd data)
        if llhttp.accepts seen.fed then seen.forwarded .http11 data else seen
      else
        let seen := watch.saw data
        if llhttp.accepts seen.fed then seen.buffered data else seen

def kept (watch : Watch) : Nat := watch.dispatched.length + watch.packet.length

end Watch

theorem take_eq_take_iff (data : List UInt8) :
    http2ConnectionPreface.take (min data.length http2ConnectionPreface.length) =
        data.take (min data.length http2ConnectionPreface.length) ↔
      data <+: http2ConnectionPreface ∨ http2ConnectionPreface <+: data := by
  rcases Nat.le_total data.length http2ConnectionPreface.length with shorter | longer
  · rw [Nat.min_eq_left shorter, List.take_length]
    constructor
    · intro same
      left
      rw [← same]
      exact List.take_prefix _ _
    · intro either
      rcases either with begins | begun
      · exact (List.prefix_iff_eq_take.mp begins).symm
      · have same := begun.eq_of_length_le shorter
        rw [← same, List.take_length]
  · rw [Nat.min_eq_right longer, List.take_length]
    constructor
    · intro same
      right
      rw [same]
      exact List.take_prefix _ _
    · intro either
      rcases either with begins | begun
      · have same := begins.eq_of_length_le longer
        rw [← same, List.take_length]
      · exact List.prefix_iff_eq_take.mp begun

theorem Connection.watch_forward (libraries : Libraries) (connection : Connection) (codec : Codec)
    (data dispatched : List UInt8) :
    (connection.forward libraries codec data).1.watch (dispatched ++ (connection.packet ++ data)) =
      (connection.watch dispatched).forwarded codec.protocol data := by
  have same : ∀ (codec : Codec) (data : List UInt8),
      (codec.dispatch libraries data).protocol = codec.protocol := by
    intro codec data
    cases codec <;> rfl
  unfold Connection.forward Connection.watch Watch.forwarded
  dsimp only
  rw [Option.map_some, same, List.append_assoc]
  split
  · rfl
  · rw [same]

section Segments

variable {llhttp : Llhttp} {inspector : HttpInspector} {data : List UInt8}

/-- The segment is neither a beginning of the preface nor begun by it. -/
def Unlike (data : List UInt8) : Prop :=
  ¬(data <+: http2ConnectionPreface ∨ http2ConnectionPreface <+: data)

theorem parse_short (begins : data <+: http2ConnectionPreface)
    (short : data.length < http2ConnectionPreface.length) :
    inspector.parseHttpHeader llhttp data = (inspector, .continue_) := by
  unfold HttpInspector.parseHttpHeader
  rw [if_pos ((take_eq_take_iff data).mpr (Or.inl begins)), if_pos short]

theorem parse_preface (begun : http2ConnectionPreface <+: data) :
    inspector.parseHttpHeader llhttp data = ({ inspector with protocol := .http2 }, .done) := by
  unfold HttpInspector.parseHttpHeader
  rw [if_pos ((take_eq_take_iff data).mpr (Or.inr begun)),
    if_neg (Nat.not_lt.mpr begun.length_le)]

theorem parse_lineStart (unlike : Unlike data) (starts : data.head?.any isLineEnd = true) :
    inspector.parseHttpHeader llhttp data = (inspector, .error) := by
  unfold HttpInspector.parseHttpHeader
  rw [if_neg (mt (take_eq_take_iff data).mp unlike), if_pos starts]

theorem parse_line (unlike : Unlike data) (starts : ¬data.head?.any isLineEnd = true)
    (ends : data.any isLineEnd = true) :
    inspector.parseHttpHeader llhttp data =
      if llhttp.accepts (inspector.fed ++ throughLineEnd data) then
        ({ fed := inspector.fed ++ throughLineEnd data, protocol := .http11 }, .done)
      else ({ inspector with fed := inspector.fed ++ throughLineEnd data }, .error) := by
  unfold HttpInspector.parseHttpHeader
  rw [if_neg (mt (take_eq_take_iff data).mp unlike), if_neg starts, if_pos ends]

theorem parse_noLine (unlike : Unlike data) (starts : ¬data.head?.any isLineEnd = true)
    (ends : ¬data.any isLineEnd = true) :
    inspector.parseHttpHeader llhttp data =
      if llhttp.accepts (inspector.fed ++ data) then
        ({ inspector with fed := inspector.fed ++ data }, .continue_)
      else ({ inspector with fed := inspector.fed ++ data }, .error) := by
  unfold HttpInspector.parseHttpHeader
  rw [if_neg (mt (take_eq_take_iff data).mp unlike), if_neg starts, if_neg ends]

theorem unlike_of_not (short : ¬(data <+: http2ConnectionPreface ∧
      data.length < http2ConnectionPreface.length))
    (whole : ¬http2ConnectionPreface <+: data) : Unlike data := by
  intro either
  rcases either with begins | begun
  · apply short
    refine ⟨begins, Nat.lt_of_not_le ?_⟩
    intro long
    rw [begins.eq_of_length_le long] at whole
    exact whole List.prefix_rfl
  · exact whole begun

end Segments

/-! ### What one segment can do -/

namespace Watch

variable {llhttp : Llhttp} {watch : Watch} {data : List UInt8}

def Refuses (llhttp : Llhttp) (watch : Watch) (data : List UInt8) : Prop :=
  Unlike data ∧
    (data.head?.any isLineEnd = true ∨
      data.any isLineEnd = true ∧ llhttp.accepts (watch.fed ++ throughLineEnd data) = false ∨
      data.any isLineEnd = false ∧ llhttp.accepts (watch.fed ++ data) = false)

inductive Detects (llhttp : Llhttp) (watch : Watch) (data : List UInt8) : Watch → Prop where
  | beginsPreface (begins : data <+: http2ConnectionPreface)
      (short : data.length < http2ConnectionPreface.length) :
      Detects llhttp watch data (watch.buffered data)
  | hasPreface (begun : http2ConnectionPreface <+: data) :
      Detects llhttp watch data (watch.forwarded .http2 data)
  | endsLine (unlike : Unlike data) (starts : data.head?.any isLineEnd = false)
      (ends : data.any isLineEnd = true)
      (accepted : llhttp.accepts (watch.fed ++ throughLineEnd data) = true) :
      Detects llhttp watch data ((watch.saw (throughLineEnd data)).forwarded .http11 data)
  | extendsLine (unlike : Unlike data) (ends : data.any isLineEnd = false)
      (accepted : llhttp.accepts (watch.fed ++ data) = true) :
      Detects llhttp watch data ((watch.saw data).buffered data)
  | refused (seen : List UInt8) (refuses : watch.Refuses llhttp data) :
      Detects llhttp watch data (watch.saw seen)

theorem step_detects (llhttp : Llhttp) (data : List UInt8) (undecided : watch.protocol = none) :
    Detects llhttp watch data (watch.step llhttp data) := by
  have sawFed : ∀ bytes, (watch.saw bytes).fed = watch.fed ++ bytes := fun bytes => rfl
  have unseen : watch = watch.saw [] := by
    unfold saw
    rw [List.append_nil]
  unfold step
  rw [undecided]
  dsimp only
  by_cases short : data <+: http2ConnectionPreface ∧ data.length < http2ConnectionPreface.length
  · rw [if_pos short]
    exact .beginsPreface short.1 short.2
  rw [if_neg short]
  by_cases whole : http2ConnectionPreface <+: data
  · rw [if_pos whole]
    exact .hasPreface whole
  rw [if_neg whole]
  have unlike := unlike_of_not short whole
  cases starts : data.head?.any isLineEnd with
  | true =>
      rw [if_pos rfl]
      have refused : Detects llhttp watch data (watch.saw []) :=
        .refused [] ⟨unlike, Or.inl starts⟩
      rw [← unseen] at refused
      exact refused
  | false =>
      rw [if_neg Bool.false_ne_true]
      cases ends : data.any isLineEnd with
      | true =>
          rw [if_pos rfl, sawFed]
          cases accepted : llhttp.accepts (watch.fed ++ throughLineEnd data) with
          | true =>
              rw [if_pos rfl]
              exact .endsLine unlike starts ends accepted
          | false =>
              rw [if_neg Bool.false_ne_true]
              exact .refused _ ⟨unlike, Or.inr (Or.inl ⟨ends, accepted⟩)⟩
      | false =>
          rw [if_neg Bool.false_ne_true, sawFed]
          cases accepted : llhttp.accepts (watch.fed ++ data) with
          | true =>
              rw [if_pos rfl]
              exact .extendsLine unlike ends accepted
          | false =>
              rw [if_neg Bool.false_ne_true]
              exact .refused _ ⟨unlike, Or.inr (Or.inr ⟨ends, accepted⟩)⟩

/-! ### What is dropped stays dropped -/

theorem kept_forwarded (protocol : Protocol) :
    (watch.forwarded protocol data).kept = watch.kept + data.length := by
  simp only [kept, forwarded, List.length_append, List.length_nil]
  omega

theorem kept_buffered : (watch.buffered data).kept = watch.kept + data.length := by
  simp only [kept, buffered, List.length_append]
  omega

theorem kept_step_le : (watch.step llhttp data).kept ≤ watch.kept + data.length := by
  cases decided : watch.protocol with
  | some protocol =>
      unfold step
      rw [decided]
      exact Nat.le_of_eq (kept_forwarded protocol)
  | none =>
      have detects := step_detects llhttp data decided
      generalize watch.step llhttp data = next at detects
      cases detects with
      | beginsPreface begins short => exact Nat.le_of_eq kept_buffered
      | hasPreface begun => exact Nat.le_of_eq (kept_forwarded _)
      | endsLine unlike starts ends accepted => exact Nat.le_of_eq (kept_forwarded _)
      | extendsLine unlike ends accepted => exact Nat.le_of_eq kept_buffered
      | refused seen refuses => exact Nat.le_add_right _ _

theorem kept_run_le (llhttp : Llhttp) (watch : Watch) (segments : List (List UInt8)) :
    (Runs.run (step llhttp) watch segments).kept ≤ watch.kept + segments.flatten.length := by
  induction segments generalizing watch with
  | nil => exact Nat.le_refl _
  | cons segment segments ih =>
      have first : (watch.step llhttp segment).kept ≤ _ := kept_step_le
      have later := ih (watch.step llhttp segment)
      rw [Runs.run_cons, List.flatten_cons, List.length_append]
      omega

theorem kept_step_of_run {segment : List UInt8} {segments : List (List UInt8)}
    (all : (Runs.run (step llhttp) watch (segment :: segments)).kept =
      watch.kept + (segment :: segments).flatten.length) :
    (watch.step llhttp segment).kept = watch.kept + segment.length ∧
      (Runs.run (step llhttp) (watch.step llhttp segment) segments).kept =
        (watch.step llhttp segment).kept + segments.flatten.length := by
  have first : (watch.step llhttp segment).kept ≤ _ := kept_step_le
  have later := kept_run_le llhttp (watch.step llhttp segment) segments
  rw [Runs.run_cons, List.flatten_cons, List.length_append] at all
  omega

theorem kept_of_append {first second : List (List UInt8)}
    (all : (Runs.run (step llhttp) watch (first ++ second)).kept =
      watch.kept + (first ++ second).flatten.length) :
    (Runs.run (step llhttp) watch first).kept = watch.kept + first.flatten.length ∧
      (Runs.run (step llhttp) (Runs.run (step llhttp) watch first) second).kept =
        (Runs.run (step llhttp) watch first).kept + second.flatten.length := by
  have early := kept_run_le llhttp watch first
  have late := kept_run_le llhttp (Runs.run (step llhttp) watch first) second
  rw [Runs.run_append, List.flatten_append, List.length_append] at all
  omega

theorem protocol_of_decided {protocol : Protocol} (decided : watch.protocol = some protocol)
    (segments : List (List UInt8)) :
    (Runs.run (step llhttp) watch segments).protocol = some protocol := by
  induction segments generalizing watch with
  | nil => exact decided
  | cons segment segments ih =>
      have forwards : watch.step llhttp segment = watch.forwarded protocol segment := by
        unfold step
        rw [decided]
      rw [Runs.run_cons, forwards]
      exact ih rfl

theorem run_of_decided {protocol : Protocol} (decided : watch.protocol = some protocol)
    (empty : watch.packet = []) (segments : List (List UInt8)) :
    Runs.run (step llhttp) watch segments =
      { watch with dispatched := watch.dispatched ++ segments.flatten } := by
  induction segments generalizing watch with
  | nil => rw [List.flatten_nil, List.append_nil]; rfl
  | cons segment segments ih =>
      have forwards : watch.step llhttp segment = watch.forwarded protocol segment := by
        unfold step
        rw [decided]
      rw [Runs.run_cons, forwards, ih rfl rfl]
      unfold forwarded
      rw [empty, decided, List.append_nil, List.append_assoc, List.flatten_cons]

end Watch

/-! ### Streams that begin with the preface -/

theorem preface_length : http2ConnectionPreface.length = 24 := by decide

/-- Only the tenth byte of the preface equals its first, and the next one differs
from its second. -/
theorem preface_no_border : ∀ position : Fin 24, 1 ≤ position.val →
    http2ConnectionPreface[position.val]? = http2ConnectionPreface[0]? →
      position.val = 9 ∧ http2ConnectionPreface[10]? ≠ http2ConnectionPreface[1]? := by
  decide +kernel

theorem getElem?_of_begins {left right : List UInt8} (begins : left <+: right) {index : Nat}
    (bound : index < left.length) : right[index]? = left[index]? := by
  rcases begins with ⟨rest, rfl⟩
  exact List.getElem?_append_left bound

section Preface

variable {segment rest : List UInt8} {position : Nat}

theorem segment_in_preface (aligned : http2ConnectionPreface.drop position <+: segment ++ rest)
    {index : Nat} (inSegment : index < segment.length) (inPreface : position + index < 24) :
    segment[index]? = http2ConnectionPreface[position + index]? := by
  have bound : index < (http2ConnectionPreface.drop position).length := by
    rw [List.length_drop, preface_length]
    omega
  have read := getElem?_of_begins aligned bound
  rw [List.getElem?_append_left inSegment, List.getElem?_drop] at read
  exact read

/-- Inside the preface no segment of two bytes looks like its beginning. -/
theorem single_of_like (aligned : http2ConnectionPreface.drop position <+: segment ++ rest)
    (nonempty : segment ≠ []) (started : 1 ≤ position) (inside : position < 24)
    (like : segment <+: http2ConnectionPreface ∨ http2ConnectionPreface <+: segment) :
    position = 9 ∧ segment.length = 1 := by
  have someByte : 0 < segment.length := List.length_pos_of_ne_nil nonempty
  have reads : ∀ index, index < segment.length → index < 24 →
      segment[index]? = http2ConnectionPreface[index]? := by
    intro index inSegment inPreface
    rcases like with begins | begun
    · exact (getElem?_of_begins begins inSegment).symm
    · exact getElem?_of_begins begun (by rw [preface_length]; exact inPreface)
  have first := segment_in_preface aligned someByte (by omega)
  rw [reads 0 someByte (by omega)] at first
  rcases preface_no_border ⟨position, inside⟩ started first.symm with ⟨rfl, differs⟩
  refine ⟨rfl, ?_⟩
  by_contra longer
  have second := segment_in_preface aligned (show 1 < segment.length by omega) (by omega)
  rw [reads 1 (by omega) (by omega)] at second
  exact differs second.symm

theorem within_of_no_lineEnd (aligned : http2ConnectionPreface.drop position <+: segment ++ rest)
    (inside : position < 24) (plain : segment.any isLineEnd = false) :
    position + segment.length < 24 := by
  by_contra beyond
  have last := segment_in_preface aligned (show 23 - position < segment.length by omega) (by omega)
  have lineFeed : http2ConnectionPreface[position + (23 - position)]? = some lfByte := by
    have index : position + (23 - position) = 23 := by omega
    rw [index]
    decide
  rw [lineFeed] at last
  have member := List.mem_of_getElem? last
  rw [List.any_eq_false] at plain
  exact plain lfByte member (by decide)

end Preface

/-- A stream whose preface was cut is either truncated or read as HTTP/1. -/
theorem preface_cut {llhttp : Llhttp} {watch : Watch} {segments : List (List UInt8)}
    {position : Nat} (undecided : watch.protocol = none)
    (nonempty : ∀ segment ∈ segments, segment ≠ []) (started : 1 ≤ position)
    (inside : position < 24)
    (aligned : http2ConnectionPreface.drop position <+: segments.flatten)
    (all : (Runs.run (Watch.step llhttp) watch segments).kept =
      watch.kept + segments.flatten.length) :
    (Runs.run (Watch.step llhttp) watch segments).protocol ≠ some .http2 := by
  -- along the segments the position stays inside the preface until one is refused
  -- or taken for a request line
  induction segments generalizing watch position with
  | nil =>
      have bound := aligned.length_le
      rw [List.length_drop, preface_length, List.flatten_nil, List.length_nil] at bound
      omega
  | cons segment segments ih =>
      have segmentSome := nonempty segment List.mem_cons_self
      have laterSome : ∀ later ∈ segments, later ≠ [] :=
        fun later member => nonempty later (List.mem_cons_of_mem segment member)
      obtain ⟨keptFirst, keptLater⟩ := Watch.kept_step_of_run all
      have someByte : 0 < segment.length := List.length_pos_of_ne_nil segmentSome
      rw [List.flatten_cons] at aligned
      have advance : position + segment.length < 24 →
          http2ConnectionPreface.drop (position + segment.length) <+: segments.flatten := by
        intro within
        have dropped := aligned.drop segment.length
        rw [List.drop_drop, List.drop_left] at dropped
        exact dropped
      have detects := Watch.step_detects llhttp segment undecided
      rw [Runs.run_cons]
      generalize watch.step llhttp segment = next at detects keptFirst keptLater
      cases detects with
      | beginsPreface begins short =>
          obtain ⟨rfl, single⟩ :=
            single_of_like aligned segmentSome started inside (Or.inl begins)
          exact ih undecided laterSome (by omega) (by omega) (advance (by omega)) keptLater
      | hasPreface begun =>
          have single := single_of_like aligned segmentSome started inside (Or.inr begun)
          have long := begun.length_le
          rw [preface_length] at long
          omega
      | endsLine unlike starts ends accepted =>
          rw [Watch.run_of_decided rfl rfl]
          intro same
          cases same
      | extendsLine unlike ends accepted =>
          have within := within_of_no_lineEnd aligned inside ends
          exact ih undecided laterSome (by omega) within (advance within) keptLater
      | refused seen refuses =>
          change watch.kept = watch.kept + segment.length at keptFirst
          omega

theorem kept_of_dispatched {llhttp : Llhttp} {segments : List (List UInt8)}
    (dispatched : (Runs.run (Watch.step llhttp) Watch.new segments).dispatched =
      segments.flatten) :
    (Runs.run (Watch.step llhttp) Watch.new segments).kept =
      Watch.new.kept + segments.flatten.length := by
  have bound := Watch.kept_run_le llhttp Watch.new segments
  have start : Watch.new.kept = 0 := rfl
  rw [start] at bound ⊢
  unfold Watch.kept at bound ⊢
  rw [dispatched] at bound ⊢
  omega

theorem step_of_preface (llhttp : Llhttp) {data : List UInt8}
    (begun : http2ConnectionPreface <+: data) :
    Watch.new.step llhttp data = Watch.new.forwarded .http2 data := by
  have long : ¬(data <+: http2ConnectionPreface ∧
      data.length < http2ConnectionPreface.length) := by
    intro short
    have := begun.length_le
    omega
  unfold Watch.step
  dsimp only [Watch.new]
  rw [if_neg long, if_pos begun]

theorem run_preface_iff (llhttp : Llhttp) {first : List UInt8} {rest : List (List UInt8)}
    (nonempty : ∀ segment ∈ first :: rest, segment ≠ [])
    (begun : http2ConnectionPreface <+: (first :: rest).flatten) :
    ((Runs.run (Watch.step llhttp) Watch.new (first :: rest)).protocol = some .http2 ∧
        (Runs.run (Watch.step llhttp) Watch.new (first :: rest)).dispatched =
          (first :: rest).flatten) ↔
      24 ≤ first.length := by
  constructor
  · intro keeps
    by_contra short
    have begins : first <+: http2ConnectionPreface := by
      apply List.prefix_of_prefix_length_le _ begun
      · rw [preface_length]
        omega
      · rw [List.flatten_cons]
        exact List.prefix_append _ _
    have lengthLt : first.length < http2ConnectionPreface.length := by
      rw [preface_length]
      omega
    have stepEq : Watch.new.step llhttp first = Watch.new.buffered first := by
      unfold Watch.step
      dsimp only [Watch.new]
      rw [if_pos ⟨begins, lengthLt⟩]
    have someByte := List.length_pos_of_ne_nil (nonempty first List.mem_cons_self)
    obtain ⟨-, keptLater⟩ := Watch.kept_step_of_run (kept_of_dispatched keeps.2)
    have aligned : http2ConnectionPreface.drop first.length <+: rest.flatten := by
      have dropped := begun.drop first.length
      rw [List.flatten_cons, List.drop_left] at dropped
      exact dropped
    rw [stepEq] at keptLater
    rw [Runs.run_cons, stepEq] at keeps
    exact preface_cut rfl
      (fun later member => nonempty later (List.mem_cons_of_mem first member)) someByte
      (by omega) aligned keptLater keeps.1
  · intro long
    have whole : http2ConnectionPreface <+: first := by
      apply List.prefix_of_prefix_length_le begun
      · rw [List.flatten_cons]
        exact List.prefix_append _ _
      · rw [preface_length]
        exact long
    rw [Runs.run_cons, step_of_preface llhttp whole, Watch.run_of_decided rfl rfl]
    exact ⟨rfl, rfl⟩

/-! ### Streams that begin with a request line -/

def Plain (bytes : List UInt8) : Prop := bytes.any isLineEnd = false

theorem Plain.not_ends {bytes : List UInt8} (plain : Plain bytes) :
    ¬bytes.any isLineEnd = true :=
  Bool.eq_false_iff.mp plain

theorem plain_append {left right : List UInt8} :
    Plain (left ++ right) ↔ Plain left ∧ Plain right := by
  unfold Plain
  rw [List.any_append, Bool.or_eq_false_iff]

theorem plain_flatten {segments : List (List UInt8)}
    (every : ∀ segment ∈ segments, Plain segment) : Plain segments.flatten := by
  induction segments with
  | nil => rfl
  | cons segment segments ih =>
      rw [List.flatten_cons, plain_append]
      exact ⟨every segment List.mem_cons_self,
        ih fun later member => every later (List.mem_cons_of_mem segment member)⟩

theorem plain_split_eq {left right : List UInt8} {leftEnd rightEnd : UInt8}
    {leftRest rightRest : List UInt8} (leftPlain : Plain left) (rightPlain : Plain right)
    (leftLine : isLineEnd leftEnd = true) (rightLine : isLineEnd rightEnd = true)
    (same : left ++ leftEnd :: leftRest = right ++ rightEnd :: rightRest) : left = right := by
  induction left generalizing right with
  | nil =>
      cases right with
      | nil => rfl
      | cons byte right =>
          rw [List.nil_append, List.cons_append, List.cons.injEq] at same
          rw [same.1] at leftLine
          unfold Plain at rightPlain
          rw [List.any_cons, leftLine] at rightPlain
          cases rightPlain
  | cons byte left ih =>
      unfold Plain at leftPlain
      rw [List.any_cons, Bool.or_eq_false_iff] at leftPlain
      cases right with
      | nil =>
          rw [List.nil_append, List.cons_append, List.cons.injEq] at same
          rw [same.1, rightLine] at leftPlain
          cases leftPlain.1
      | cons other right =>
          unfold Plain at rightPlain
          rw [List.any_cons, Bool.or_eq_false_iff] at rightPlain
          rw [List.cons_append, List.cons_append, List.cons.injEq] at same
          rw [same.1, ih leftPlain.2 rightPlain.2 same.2]

theorem exists_line {data : List UInt8} (ends : data.any isLineEnd = true) :
    ∃ text byte rest, data = text ++ byte :: rest ∧ Plain text ∧ isLineEnd byte = true ∧
      throughLineEnd data = text ++ [byte] := by
  induction data with
  | nil => cases ends
  | cons head tail ih =>
      cases line : isLineEnd head with
      | true =>
          refine ⟨[], head, tail, rfl, rfl, line, ?_⟩
          unfold throughLineEnd
          rw [List.takeWhile_cons_of_neg (by rw [line]; decide)]
          rfl
      | false =>
          rw [List.any_cons, line, Bool.false_or] at ends
          obtain ⟨text, byte, rest, rfl, plain, byteLine, through⟩ := ih ends
          refine ⟨head :: text, byte, rest, rfl, ?_, byteLine, ?_⟩
          · unfold Plain
            rw [List.any_cons, line]
            exact plain
          · unfold throughLineEnd at through ⊢
            dsimp only at through ⊢
            rw [List.takeWhile_cons_of_pos (by rw [line]; rfl), List.length_cons,
              List.take_succ_cons, through]
            rfl

theorem IsHttp1Line.split {line : List UInt8} (shape : IsHttp1Line line) :
    ∃ text digit, line = text ++ [49, 46, digit] ++ [crByte, lfByte] ∧
      Plain (text ++ [49, 46, digit]) := by
  obtain ⟨start, digit, rfl, -, digitPlain, startPlain⟩ := shape
  refine ⟨start ++ asciiBytes " HTTP/", digit, ?_, ?_⟩
  · have version : asciiBytes " HTTP/1." = asciiBytes " HTTP/" ++ [49, 46] := by decide
    rw [version]
    simp only [List.append_assoc, List.cons_append, List.nil_append]
  · rw [plain_append, plain_append]
    refine ⟨⟨?_, by unfold Plain; decide⟩, ?_⟩
    · unfold Plain
      rw [List.any_eq_false]
      intro byte member
      rw [startPlain byte member]
      exact Bool.false_ne_true
    · unfold Plain
      simp only [List.any_cons, List.any_nil, digitPlain]
      decide

/-- The segment that ends an HTTP/1 request line is unlike the preface: the text
before its line end is of version 1. -/
theorem unlike_of_line {before segment after line : List UInt8} (shape : IsHttp1Line line)
    (begins : line <+: before ++ segment ++ after) (beforePlain : Plain before)
    (ends : segment.any isLineEnd = true) : Unlike segment := by
  have opening : http2ConnectionPreface.take 15 = asciiBytes "PRI * HTTP/" ++ [50, 46, 48] ++
      [crByte] := by decide
  intro like
  have starts : http2ConnectionPreface.take 15 <+: segment := by
    rcases like with begun | whole
    · apply List.prefix_of_prefix_length_le (List.take_prefix _ _) begun
      by_contra short
      have within : segment <+: http2ConnectionPreface.take 14 := by
        apply List.prefix_of_prefix_length_le begun (List.take_prefix _ _)
        rw [List.length_take, preface_length] at short ⊢
        omega
      have plain : Plain (http2ConnectionPreface.take 14) := by
        unfold Plain
        decide
      obtain ⟨rest, split⟩ := within
      rw [← split, plain_append] at plain
      exact absurd ends plain.1.not_ends
    · exact (List.take_prefix _ _).trans whole
  obtain ⟨text, digit, rfl, linePlain⟩ := shape.split
  obtain ⟨tail, rfl⟩ := starts
  obtain ⟨rest, same⟩ := begins
  rw [opening] at same
  have regrouped : (text ++ [49, 46, digit]) ++ crByte :: (lfByte :: rest) =
      (before ++ asciiBytes "PRI * HTTP/" ++ [50, 46, 48]) ++ crByte :: (tail ++ after) := by
    simpa only [List.append_assoc, List.cons_append, List.nil_append] using same
  have otherPlain : Plain (before ++ asciiBytes "PRI * HTTP/" ++ [50, 46, 48]) := by
    rw [plain_append, plain_append]
    exact ⟨⟨beforePlain, by unfold Plain; decide⟩, by unfold Plain; decide⟩
  have texts := plain_split_eq linePlain otherPlain (by decide) (by decide) regrouped
  have versions := (List.append_inj' texts rfl).2
  cases versions

theorem Llhttp.Judges.accepts_iff {llhttp : Llhttp} {valid : List UInt8 → Prop}
    (judges : llhttp.Judges valid) {fed : List UInt8} (plain : Plain fed.dropLast) :
    llhttp.accepts fed = true ↔ ∃ line, valid line ∧ fed <+: line := by
  constructor
  · intro accepted
    by_contra none
    have rejected : llhttp.accepts fed = false := by
      apply judges.rejects
      intro line isValid
      refine ⟨fun begins => none ⟨line, isValid, begins⟩, ?_⟩
      intro whole
      -- a whole line has a carriage return before its last byte
      obtain ⟨text, digit, rfl, -⟩ := (judges.shape isValid).split
      obtain ⟨rest, rfl⟩ := whole
      have early : Plain ((text ++ [49, 46, digit] ++ [crByte]) ++ (lfByte :: rest).dropLast) := by
        rw [← List.dropLast_append_of_ne_nil (by simp)]
        simpa only [List.append_assoc, List.cons_append, List.nil_append] using plain
      rw [plain_append, plain_append] at early
      have carriage := early.1.2
      unfold Plain at carriage
      revert carriage
      decide
    rw [rejected] at accepted
    cases accepted
  · rintro ⟨line, isValid, begins⟩
    exact judges.accepts_beginning isValid begins

/-- The segments that reach `llhttp`: those that do not begin the preface. -/
def shown (segments : List (List UInt8)) : List UInt8 :=
  (segments.filter fun segment => ¬segment <+: http2ConnectionPreface).flatten

theorem shown_cons_of_begins {segment : List UInt8} {segments : List (List UInt8)}
    (begins : segment <+: http2ConnectionPreface) :
    shown (segment :: segments) = shown segments := by
  unfold shown
  rw [List.filter_cons_of_neg (by simpa using begins)]

theorem shown_cons_of_unlike {segment : List UInt8} {segments : List (List UInt8)}
    (unlike : Unlike segment) : shown (segment :: segments) = segment ++ shown segments := by
  unfold shown
  rw [List.filter_cons_of_pos (by simpa using fun begins => unlike (Or.inl begins)),
    List.flatten_cons]

theorem plain_shown {segments : List (List UInt8)}
    (every : ∀ segment ∈ segments, Plain segment) : Plain (shown segments) :=
  plain_flatten fun segment member => every segment (List.mem_of_mem_filter member)

theorem not_plain_preface : ¬Plain http2ConnectionPreface := by
  unfold Plain
  decide

theorem Plain.not_prefaced {segment : List UInt8} (plain : Plain segment) :
    ¬http2ConnectionPreface <+: segment := by
  rintro ⟨rest, rfl⟩
  exact not_plain_preface (plain_append.mp plain).1

section BeforeTheLineEnd

variable {llhttp : Llhttp} {watch : Watch} {segments : List (List UInt8)}

theorem run_before (undecided : watch.protocol = none)
    (nonempty : ∀ segment ∈ segments, segment ≠ [])
    (plain : ∀ segment ∈ segments, Plain segment)
    (all : (Runs.run (Watch.step llhttp) watch segments).kept =
      watch.kept + segments.flatten.length) :
    Runs.run (Watch.step llhttp) watch segments =
      { watch with fed := watch.fed ++ shown segments
                   packet := watch.packet ++ segments.flatten } := by
  induction segments generalizing watch with
  | nil =>
      rw [Runs.run_nil]
      simp [shown]
  | cons segment segments ih =>
      have segmentPlain := plain segment List.mem_cons_self
      have segmentSome := List.length_pos_of_ne_nil (nonempty segment List.mem_cons_self)
      obtain ⟨keptFirst, keptLater⟩ := Watch.kept_step_of_run all
      have later := fun (undecided : (watch.step llhttp segment).protocol = none) =>
        ih undecided (fun other member => nonempty other (List.mem_cons_of_mem segment member))
          (fun other member => plain other (List.mem_cons_of_mem segment member)) keptLater
      have detects := Watch.step_detects llhttp segment undecided
      rw [Runs.run_cons]
      generalize watch.step llhttp segment = next at detects keptFirst keptLater later
      cases detects with
      | beginsPreface begins short =>
          rw [later undecided, shown_cons_of_begins begins]
          simp only [Watch.buffered, List.flatten_cons, List.append_assoc]
      | hasPreface begun => exact absurd begun segmentPlain.not_prefaced
      | endsLine unlike starts ends accepted => exact absurd ends segmentPlain.not_ends
      | extendsLine unlike ends accepted =>
          rw [later undecided, shown_cons_of_unlike unlike]
          simp only [Watch.buffered, Watch.saw, List.flatten_cons, List.append_assoc]
      | refused seen refuses =>
          change watch.kept = watch.kept + segment.length at keptFirst
          omega

theorem kept_before {valid : List UInt8 → Prop} (judges : llhttp.Judges valid)
    (undecided : watch.protocol = none)
    (plain : ∀ segment ∈ segments, Plain segment) {line : List UInt8}
    (isValid : valid line) (begins : watch.fed ++ shown segments <+: line) :
    (Runs.run (Watch.step llhttp) watch segments).kept =
      watch.kept + segments.flatten.length := by
  induction segments generalizing watch with
  | nil => rfl
  | cons segment segments ih =>
      have segmentPlain := plain segment List.mem_cons_self
      have laterPlain : ∀ other ∈ segments, Plain other :=
        fun other member => plain other (List.mem_cons_of_mem segment member)
      have detects := Watch.step_detects llhttp segment undecided
      rw [Runs.run_cons, List.flatten_cons, List.length_append]
      generalize watch.step llhttp segment = next at detects
      cases detects with
      | beginsPreface beginsPreface short =>
          rw [shown_cons_of_begins beginsPreface] at begins
          have later : (Runs.run (Watch.step llhttp) (watch.buffered segment) segments).kept =
              (watch.buffered segment).kept + segments.flatten.length :=
            ih undecided laterPlain begins
          rw [later, Watch.kept_buffered, Nat.add_assoc]
      | hasPreface begun => exact absurd begun segmentPlain.not_prefaced
      | endsLine unlike starts ends accepted => exact absurd ends segmentPlain.not_ends
      | extendsLine unlike ends accepted =>
          rw [shown_cons_of_unlike unlike, ← List.append_assoc] at begins
          have later : (Runs.run (Watch.step llhttp) ((watch.saw segment).buffered segment)
              segments).kept = ((watch.saw segment).buffered segment).kept +
                segments.flatten.length :=
            ih undecided laterPlain begins
          rw [later, Watch.kept_buffered, Nat.add_assoc]
          rfl
      | refused seen refuses =>
          obtain ⟨unlike, reason⟩ := refuses
          rw [shown_cons_of_unlike unlike, ← List.append_assoc] at begins
          have accepted := judges.accepts_beginning isValid
            ((List.prefix_append (watch.fed ++ segment) (shown segments)).trans begins)
          rcases reason with starts | ⟨ends, -⟩ | ⟨-, rejected⟩
          · obtain ⟨byte, first, line⟩ := Option.any_eq_true .. |>.mp starts
            have some := List.any_eq_true.mpr ⟨byte, List.mem_of_head? first, line⟩
            exact absurd some segmentPlain.not_ends
          · exact absurd ends segmentPlain.not_ends
          · rw [accepted] at rejected
            cases rejected

end BeforeTheLineEnd

section RequestLine

variable {llhttp : Llhttp} {valid : List UInt8 → Prop} (judges : llhttp.Judges valid)
  {before after : List (List UInt8)} {segment line : List UInt8}

include judges

theorem step_at_line (isValid : valid line)
    (begins : line <+: (before ++ segment :: after).flatten)
    (plain : ∀ earlier ∈ before, Plain earlier) (ends : segment.any isLineEnd = true)
    {watch : Watch} (undecided : watch.protocol = none) (seen : watch.fed = shown before) :
    watch.step llhttp segment =
        (watch.saw (throughLineEnd segment)).forwarded .http11 segment ∧
      (segment.head?.any isLineEnd = false ∧
        ∃ other, valid other ∧ shown before ++ throughLineEnd segment <+: other) ∨
    (watch.step llhttp segment).kept = watch.kept ∧
      ¬(segment.head?.any isLineEnd = false ∧
        ∃ other, valid other ∧ shown before ++ throughLineEnd segment <+: other) := by
  have unlike : Unlike segment := by
    have within : line <+: before.flatten ++ segment ++ after.flatten := by
      rw [List.append_assoc, ← List.flatten_cons, ← List.flatten_append]
      exact begins
    exact unlike_of_line (judges.shape isValid) within (plain_flatten plain) ends
  have accepts : llhttp.accepts (watch.fed ++ throughLineEnd segment) = true ↔
      ∃ other, valid other ∧ shown before ++ throughLineEnd segment <+: other := by
    rw [seen]
    apply judges.accepts_iff
    obtain ⟨text, byte, rest, -, textPlain, -, through⟩ := exists_line ends
    rw [through, ← List.append_assoc, List.dropLast_concat, plain_append]
    exact ⟨plain_shown plain, textPlain⟩
  have detects := Watch.step_detects llhttp segment undecided
  generalize watch.step llhttp segment = next at detects
  cases detects with
  | beginsPreface begun short => exact absurd (Or.inl begun) unlike
  | hasPreface begun => exact absurd (Or.inr begun) unlike
  | endsLine _ starts _ accepted => exact Or.inl ⟨rfl, starts, accepts.mp accepted⟩
  | extendsLine _ open_ accepted =>
      rw [ends] at open_
      cases open_
  | refused bytes refuses =>
      right
      refine ⟨rfl, ?_⟩
      rintro ⟨starts, accepted⟩
      rw [← accepts] at accepted
      rcases refuses.2 with lineStart | ⟨-, rejected⟩ | ⟨open_, -⟩
      · rw [starts] at lineStart
        cases lineStart
      · rw [accepted] at rejected
        cases rejected
      · rw [ends] at open_
        cases open_

theorem run_line_iff (isValid : valid line)
    (begins : line <+: (before ++ segment :: after).flatten)
    (nonempty : ∀ other ∈ before ++ segment :: after, other ≠ [])
    (plain : ∀ earlier ∈ before, Plain earlier) (ends : segment.any isLineEnd = true) :
    ((Runs.run (Watch.step llhttp) Watch.new (before ++ segment :: after)).protocol =
          some .http11 ∧
        (Runs.run (Watch.step llhttp) Watch.new (before ++ segment :: after)).dispatched =
          (before ++ segment :: after).flatten) ↔
      segment.head?.any isLineEnd = false ∧
        ∃ other, valid other ∧ shown before ++ throughLineEnd segment <+: other := by
  have beforeSome : ∀ other ∈ before, other ≠ [] :=
    fun other member => nonempty other (List.mem_append_left _ member)
  have segmentSome := List.length_pos_of_ne_nil
    (nonempty segment (List.mem_append_right _ List.mem_cons_self))
  let buffered : Watch := { Watch.new with fed := shown before, packet := before.flatten }
  have atLine := step_at_line judges isValid begins plain ends (show buffered.protocol = none from rfl)
    (show buffered.fed = shown before from rfl)
  constructor
  · intro keeps
    obtain ⟨keptBefore, keptLater⟩ := Watch.kept_of_append (kept_of_dispatched keeps.2)
    have reached : Runs.run (Watch.step llhttp) Watch.new before = buffered :=
      run_before rfl beforeSome plain keptBefore
    rw [reached] at keptLater
    rcases atLine with ⟨-, kept⟩ | ⟨dropped, -⟩
    · exact kept
    · have first := (Watch.kept_step_of_run keptLater).1
      omega
  · intro kept
    rcases atLine with ⟨forwards, -⟩ | ⟨-, lost⟩
    · obtain ⟨-, other, otherValid, otherBegins⟩ := kept
      have shownBegins : Watch.new.fed ++ shown before <+: other :=
        (List.prefix_append (shown before) (throughLineEnd segment)).trans otherBegins
      have reached : Runs.run (Watch.step llhttp) Watch.new before = buffered :=
        run_before rfl beforeSome plain
          (kept_before judges rfl plain otherValid shownBegins)
      rw [Runs.run_append, reached, Runs.run_cons, forwards, Watch.run_of_decided rfl rfl]
      refine ⟨rfl, ?_⟩
      rw [List.flatten_append, List.flatten_cons]
      exact List.append_assoc _ _ _
    · exact absurd kept lost

omit judges in
theorem through_begins {data : List UInt8} (shape : IsHttp1Line line) (begins : line <+: data) :
    data.any isLineEnd = true ∧ data.head?.any isLineEnd = false ∧
      throughLineEnd data <+: line := by
  obtain ⟨text, digit, rfl, linePlain⟩ := shape.split
  obtain ⟨rest, rfl⟩ := begins
  have ends : (text ++ [49, 46, digit] ++ [crByte, lfByte] ++ rest).any isLineEnd = true := by
    rw [List.any_append, List.any_append]
    have line : [crByte, lfByte].any isLineEnd = true := by decide
    rw [line, Bool.or_true, Bool.true_or]
  refine ⟨ends, ?_, ?_⟩
  · unfold Plain at linePlain
    rw [List.any_eq_false] at linePlain
    cases text with
    | nil => exact Bool.eq_false_iff.mpr (linePlain 49 List.mem_cons_self)
    | cons byte text => exact Bool.eq_false_iff.mpr (linePlain byte List.mem_cons_self)
  · obtain ⟨start, byte, later, split, startPlain, byteLine, through⟩ := exists_line ends
    have regrouped : (text ++ [49, 46, digit]) ++ crByte :: (lfByte :: rest) =
        start ++ byte :: later := by
      rw [← split]
      simp only [List.append_assoc, List.cons_append, List.nil_append]
    have startEq := plain_split_eq linePlain startPlain (by decide) byteLine regrouped
    rw [← startEq, List.append_cancel_left_eq, List.cons.injEq] at regrouped
    rw [through, ← startEq, ← regrouped.1]
    exact ⟨[lfByte], by simp only [List.append_assoc, List.cons_append, List.nil_append]⟩

theorem step_of_line (isValid : valid line) {data : List UInt8} (begins : line <+: data) :
    (Watch.new.step llhttp data).protocol = some .http11 := by
  obtain ⟨ends, starts, through⟩ := through_begins (judges.shape isValid) begins
  have alone : line <+: ([] ++ data :: []).flatten := by
    rw [List.nil_append, List.flatten_singleton]
    exact begins
  rcases step_at_line judges isValid alone (fun earlier member => nomatch member) ends
    (show Watch.new.protocol = none from rfl) (show Watch.new.fed = shown [] from rfl) with
    ⟨forwards, -⟩ | ⟨-, lost⟩
  · rw [forwards]
    rfl
  · exact absurd ⟨starts, line, isValid, through⟩ lost

end RequestLine

end NetPolicy.Http
