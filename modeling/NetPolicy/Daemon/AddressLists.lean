/-
Expanding an address list.

An address list has addresses, networks and ranges of the last octet.  Everything that is
not a range is kept as it is.  The bounds of a range are read as `int` and counted
through; nothing keeps them within an octet, and a sign before the first bound is taken
for the dash of the range.
-/

import NetPolicy.Daemon.Requests

namespace NetPolicy.Daemon

open NetPolicy.Policy SeparatedText

/-! ### The loop of a range -/

/-- `for (int i = first; i <= last; ++i)` turn by turn: the counter is compared, used and
increased, which is not defined for the largest `int`.  No fuel is no answer. -/
def rangeLoop (base : String) (last : Int) : Nat → Int → Option (Except Fault (List String))
  | 0, _ => none
  | fuel + 1, counter =>
      if counter ≤ last then
        if counter = intMax then some (.error .signedOverflow)
        else
          (rangeLoop base last fuel (counter + 1)).map fun later =>
            later.map fun items => (base ++ toString counter) :: items
      else some (.ok [])

theorem rangeItems_of_gt {base : String} {first last : Int} (empty : last < first) :
    rangeItems base first last = .ok [] := by
  have nothing : (last - first + 1).toNat = 0 := by omega
  rw [rangeItems, if_neg (by omega), nothing]
  rfl

theorem rangeItems_of_le {base : String} {first last : Int} (turns : first ≤ last)
    (bounded : first ≠ intMax) :
    rangeItems base first last =
      (rangeItems base (first + 1) last).map fun items => (base ++ toString first) :: items := by
  unfold rangeItems
  by_cases top : last = intMax
  · have room : first < intMax := by omega
    rw [if_pos ⟨top, turns⟩, if_pos ⟨top, by omega⟩]
    rfl
  · have count : (last - first + 1).toNat = (last - (first + 1) + 1).toNat + 1 := by omega
    rw [if_neg fun both => top both.1, if_neg fun both => top both.1, count,
      List.range_succ_eq_map, List.map_cons, List.map_map]
    have start : first + ((0 : Nat) : Int) = first := by omega
    have shifted : (fun step : Nat => base ++ toString (first + step)) ∘ Nat.succ =
        fun step : Nat => base ++ toString (first + 1 + step) := by
      funext step
      have same : first + ((step + 1 : Nat) : Int) = first + 1 + step := by omega
      change base ++ toString (first + ((step + 1 : Nat) : Int)) = _
      rw [same]
    rw [start, shifted]
    rfl

theorem rangeLoop_eq {base : String} {first last : Int} (firstMax : first ≤ intMax)
    (lastMax : last ≤ intMax) {fuel : Nat} (enough : (last - first + 1).toNat < fuel) :
    rangeLoop base last fuel first = some (rangeItems base first last) := by
  induction fuel generalizing first with
  | zero => exact absurd enough (Nat.not_lt_zero _)
  | succ fuel ih =>
      rw [rangeLoop]
      by_cases turns : first ≤ last
      · rw [if_pos turns]
        by_cases top : first = intMax
        · rw [if_pos top, rangeItems, if_pos ⟨by omega, turns⟩]
        · rw [if_neg top, ih (by omega) (by omega), rangeItems_of_le turns top]
          rfl
      · rw [if_neg turns, rangeItems_of_gt (by omega)]

/-! ### Numbers -/

theorem repr_decimal {value : Nat} {character : Char} (member : character ∈ value.repr.toList) :
    character.isDigit = true := by
  rw [Nat.toList_repr] at member
  exact Nat.isDigit_of_mem_toDigits (by decide) (by decide) member

theorem not_special_of_isDigit {character : Char} (digit : character.isDigit = true) :
    isCSpace character = false ∧ character ≠ '-' ∧ character ≠ '+' := by
  refine ⟨?_, ?_, ?_⟩
  · rw [Bool.eq_false_iff]
    intro space
    simp only [isCSpace, Bool.or_eq_true, beq_iff_eq] at space
    rcases space with ((((rfl | rfl) | rfl) | rfl) | rfl) | rfl <;> exact absurd digit (by decide)
  · intro dash
    rw [dash] at digit
    exact absurd digit (by decide)
  · intro plus
    rw [plus] at digit
    exact absurd digit (by decide)

theorem signOf_digit {first : Char} (digit : first.isDigit = true) (rest : List Char) :
    signOf (first :: rest) = (false, first :: rest) := by
  obtain ⟨_, notDash, notPlus⟩ := not_special_of_isDigit digit
  unfold signOf
  split
  · rename_i same
    exact absurd (List.cons.inj same).1 notDash
  · rename_i same
    exact absurd (List.cons.inj same).1 notPlus
  · rfl

theorem stoi_eq {text digits : List Char} {negative : Bool} {magnitude : Nat}
    (signed : signOf (text.dropWhile isCSpace) = (negative, digits))
    (number : parseDecimal (digits.takeWhile Char.isDigit) = some magnitude)
    (fits : intMin ≤ (if negative then -(magnitude : Int) else magnitude) ∧
      (if negative then -(magnitude : Int) else magnitude) ≤ intMax) :
    stoi text = .ok (if negative then -(magnitude : Int) else magnitude) := by
  simp only [stoi, signed, number]
  exact if_pos fits

theorem parseDecimal_takeWhile_repr (value : Nat) :
    parseDecimal (value.repr.toList.takeWhile Char.isDigit) = some value := by
  have whole : value.repr.toList.takeWhile Char.isDigit = value.repr.toList :=
    List.takeWhile_eq_self_iff.mpr fun _ member => repr_decimal member
  rw [whole, parseDecimal_repr]

theorem stoi_repr {value : Nat} (fits : (value : Int) ≤ intMax) :
    stoi value.repr.toList = .ok value := by
  have low : intMin ≤ (value : Int) := by
    unfold intMin
    omega
  have signed : signOf (value.repr.toList.dropWhile isCSpace) = (false, value.repr.toList) := by
    cases text : value.repr.toList with
    | nil => rfl
    | cons first rest =>
        have digit := repr_decimal (text ▸ List.mem_cons_self : first ∈ value.repr.toList)
        rw [List.dropWhile_cons_of_neg (by simp [(not_special_of_isDigit digit).1]),
          signOf_digit digit]
  exact stoi_eq signed (parseDecimal_takeWhile_repr value) ⟨low, fits⟩

theorem stoi_minus_repr {value : Nat} (fits : intMin ≤ -(value : Int)) :
    stoi ('-' :: value.repr.toList) = .ok (-(value : Int)) := by
  have high : -(value : Int) ≤ intMax := by
    unfold intMax
    omega
  have signed : signOf (('-' :: value.repr.toList).dropWhile isCSpace) =
      (true, value.repr.toList) := by
    rw [List.dropWhile_cons_of_neg (by decide)]
    rfl
  exact stoi_eq signed (parseDecimal_takeWhile_repr value) ⟨fits, high⟩

theorem stoi_toString {value : Int} (low : intMin ≤ value) (high : value ≤ intMax) :
    stoi (toString value).toList = .ok value := by
  cases value with
  | ofNat magnitude => exact stoi_repr high
  | negSucc magnitude =>
      change stoi ("-" ++ (magnitude + 1).repr).toList = _
      rw [String.toList_append]
      exact stoi_minus_repr low

/-! ### Items -/

structure CInt where
  value : Int
  low : intMin ≤ value
  high : value ≤ intMax

structure SingleText where
  text : List Char
  nonempty : text ≠ []
  commaFree : ',' ∉ text
  dashFree : '-' ∉ text

structure OctetRange where
  a : Fin 256
  b : Fin 256
  c : Fin 256
  first : CInt
  last : CInt

inductive AddressItem where
  | single (text : SingleText)
  | range (range : OctetRange)

def SingleText.quad (address : Ipv4Addr) : SingleText :=
  { text := (formatIpv4Addr address).toList
    nonempty := by
      intro empty
      have parsed := parseIpv4Addr_format address
      rw [parseIpv4Addr, empty] at parsed
      cases parsed
    commaFree := not_mem_formatIpv4Addr (by decide) (by decide) address
    dashFree := not_mem_formatIpv4Addr (by decide) (by decide) address }

theorem not_mem_cidrText {separator : Char} (notDigit : separator.isDigit = false)
    (notDot : separator ≠ '.') (notSlash : separator ≠ '/') (network : Network) :
    separator ∉ (formatIpv4Addr network.address).toList ++ '/' :: network.length.repr.toList := by
  intro member
  rcases List.mem_append.mp member with inAddress | behind
  · exact not_mem_formatIpv4Addr notDigit notDot network.address inAddress
  · rcases List.mem_cons.mp behind with slash | inLength
    · exact notSlash slash
    · exact not_mem_repr notDigit network.length inLength

def SingleText.cidr (network : Network) : SingleText :=
  { text := (formatIpv4Addr network.address).toList ++ '/' :: network.length.repr.toList
    nonempty := by simp
    commaFree := not_mem_cidrText (by decide) (by decide) (by decide) network
    dashFree := not_mem_cidrText (by decide) (by decide) (by decide) network }

namespace OctetRange

def base (range : OctetRange) : List Char :=
  range.a.val.repr.toList ++ '.' :: (range.b.val.repr.toList ++ '.' ::
    (range.c.val.repr.toList ++ ['.']))

def text (range : OctetRange) : List Char :=
  range.base ++ (toString range.first.value).toList ++ '-' :: (toString range.last.value).toList

def expand (range : OctetRange) : List String :=
  (List.range (range.last.value - range.first.value + 1).toNat).map fun (step : Nat) =>
    String.ofList range.base ++ toString (range.first.value + step)

end OctetRange

namespace AddressItem

def text : AddressItem → List Char
  | .single kept => kept.text
  | .range counted => counted.text

def expand : AddressItem → List String
  | .single kept => [String.ofList kept.text]
  | .range counted => counted.expand

end AddressItem

def addressListText (items : List AddressItem) : String :=
  String.ofList ([','].intercalate (items.map AddressItem.text))

/-! ### One item -/

theorem parseIpItem_single (single : SingleText) :
    parseIpItem single.text = .ok [String.ofList single.text] := by
  have plain : ¬single.text.contains '-' = true := by
    rw [List.contains_iff_mem]
    exact single.dashFree
  rw [parseIpItem, if_neg plain]

namespace OctetRange

variable (range : OctetRange)

theorem not_mem_base {separator : Char} (notDigit : separator.isDigit = false)
    (notDot : separator ≠ '.') : separator ∉ range.base := by
  simp [base, not_mem_toDigits notDigit, notDot]

theorem count_base : range.base.count '.' = 3 := by
  have free : ∀ value : Nat, (Nat.toDigits 10 value).count '.' = 0 := fun value =>
    List.count_eq_zero.mpr (not_mem_toDigits (by decide) value)
  simp [base, List.count_append, free]

theorem lastOctet_base {digits : List Char} (dotFree : '.' ∉ digits) :
    ((range.base ++ digits).reverse.takeWhile (· ≠ '.')).reverse = digits := by
  have plain : ∀ character ∈ digits.reverse, decide (character ≠ '.') = true := fun character member =>
    decide_eq_true fun same => dotFree (same ▸ List.mem_reverse.mp member)
  have ends : range.base.reverse.takeWhile (· ≠ '.') = [] := by
    simp [base]
  rw [List.reverse_append, List.takeWhile_append_of_pos plain, ends, List.append_nil,
    List.reverse_reverse]

/-- The item is cut at its first dash, and what stands before it behind its last dot. -/
theorem parseIpItem_cut {digits : List Char} (dashFree : '-' ∉ digits) (dotFree : '.' ∉ digits)
    (rest : List Char) :
    parseIpItem (range.base ++ digits ++ '-' :: rest) = (do
      let first ← stoi digits
      let last ← stoi rest
      rangeItems (String.ofList range.base) first last) := by
  have plain : ∀ character ∈ range.base ++ digits, decide (character ≠ '-') = true := by
    intro character member
    apply decide_eq_true
    intro same
    subst same
    rcases List.mem_append.mp member with inBase | inDigits
    · exact range.not_mem_base (by decide) (by decide) inBase
    · exact dashFree inDigits
  have start : (range.base ++ digits ++ '-' :: rest).takeWhile (· ≠ '-') = range.base ++ digits := by
    rw [List.takeWhile_append_of_pos plain, List.takeWhile_cons_of_neg (by simp), List.append_nil]
  have behind : ((range.base ++ digits ++ '-' :: rest).dropWhile (· ≠ '-')).drop 1 = rest := by
    rw [List.dropWhile_append_of_pos plain, List.dropWhile_cons_of_neg (by simp)]
    rfl
  have dashed : (range.base ++ digits ++ '-' :: rest).contains '-' = true := by
    rw [List.contains_iff_mem]
    exact List.mem_append_right _ List.mem_cons_self
  have dots : (range.base ++ digits).count '.' = 3 := by
    rw [List.count_append, count_base, List.count_eq_zero.mpr dotFree]
  have front : (range.base ++ digits).take ((range.base ++ digits).length - digits.length) =
      range.base := by
    rw [List.length_append, Nat.add_sub_cancel, List.take_left]
  rw [parseIpItem, if_pos dashed]
  dsimp only
  rw [start, behind, if_pos dots, range.lastOctet_base dotFree, front]

theorem parseIpItem_text (counted : 0 ≤ range.first.value) :
    parseIpItem range.text =
      rangeItems (String.ofList range.base) range.first.value range.last.value := by
  obtain ⟨first, known⟩ := Int.eq_ofNat_of_zero_le counted
  have digits : (toString range.first.value).toList = first.repr.toList := by
    rw [known]
    rfl
  have bound : (first : Int) ≤ intMax := known ▸ range.first.high
  rw [text, digits, range.parseIpItem_cut (not_mem_repr (by decide) first)
    (not_mem_repr (by decide) first), stoi_repr bound,
    stoi_toString range.last.low range.last.high, known]
  rfl

/-- The sign of the first bound is taken for the dash: there is no first bound left. -/
theorem parseIpItem_text_negative (negative : range.first.value < 0) :
    parseIpItem range.text = .error .invalidArgument := by
  have signed : ∃ digits, (toString range.first.value).toList = '-' :: digits := by
    cases known : range.first.value with
    | ofNat magnitude =>
        rw [known] at negative
        exact absurd (Int.natCast_nonneg magnitude) (Int.not_le.mpr negative)
    | negSucc magnitude =>
        refine ⟨(magnitude + 1).repr.toList, ?_⟩
        change ("-" ++ (magnitude + 1).repr).toList = _
        rw [String.toList_append]
        rfl
  obtain ⟨digits, shape⟩ := signed
  have cut : range.text = range.base ++ [] ++ '-' ::
      (digits ++ '-' :: (toString range.last.value).toList) := by
    rw [text, shape, List.append_nil, List.append_assoc, List.cons_append]
  rw [cut, range.parseIpItem_cut List.not_mem_nil List.not_mem_nil]
  rfl

theorem rangeItems_eq_expand
    (finite : range.last.value < range.first.value ∨ range.last.value ≤ 255) :
    rangeItems (String.ofList range.base) range.first.value range.last.value =
      .ok range.expand := by
  have high := range.first.high
  unfold rangeItems
  rw [if_neg (by unfold intMax at *; omega)]
  rfl

/-! ### Dotted quads -/

theorem toList_address (octet : Nat) :
    (String.ofList range.base ++ octet.repr).toList =
      ['.'].intercalate [range.a.val.repr.toList, range.b.val.repr.toList,
        range.c.val.repr.toList, octet.repr.toList] := by
  simp [base, List.intercalate, String.toList_append]

theorem readOctet_repr_eq_none {octet : Nat} (large : 256 ≤ octet) :
    readOctet octet.repr.toList = none := by
  unfold readOctet
  split
  · rw [parseDecimal_repr]
    exact Option.filter_some_neg (by simpa using large)
  · rfl

theorem isSome_parseIpv4Addr_iff (octet : Nat) :
    (parseIpv4Addr (String.ofList range.base ++ octet.repr)).isSome = true ↔ octet < 256 := by
  have dotFree : ∀ value : Nat, '.' ∉ Nat.toDigits 10 value := not_mem_toDigits (by decide)
  unfold parseIpv4Addr
  rw [toList_address, List.splitOn_intercalate]
  · simp only [readOctet_repr range.a.isLt, readOctet_repr range.b.isLt,
      readOctet_repr range.c.isLt]
    by_cases small : octet < 256
    · rw [readOctet_repr small]
      exact iff_of_true rfl small
    · rw [readOctet_repr_eq_none (Nat.le_of_not_lt small)]
      exact iff_of_false Bool.false_ne_true small
  · simp [dotFree]
  · simp

/-- A counted range gives dotted quads only if it is empty or ends within an octet. -/
theorem expand_valid_iff (counted : 0 ≤ range.first.value) :
    (∀ address ∈ range.expand, (parseIpv4Addr address).isSome = true) ↔
      range.last.value < range.first.value ∨ range.last.value ≤ 255 := by
  have octetOf : ∀ step : Nat, String.ofList range.base ++ toString (range.first.value + step) =
      String.ofList range.base ++ (range.first.value + step).toNat.repr := by
    intro step
    obtain ⟨octet, known⟩ := Int.eq_ofNat_of_zero_le (by omega : 0 ≤ range.first.value + step)
    rw [known]
    rfl
  constructor
  · intro valid
    by_cases empty : range.last.value < range.first.value
    · exact .inl empty
    · right
      -- the last address of the range
      have member := valid _ (List.mem_map.mpr
        ⟨(range.last.value - range.first.value).toNat, List.mem_range.mpr (by omega), rfl⟩)
      rw [octetOf, isSome_parseIpv4Addr_iff] at member
      omega
  · intro small address member
    obtain ⟨step, within, rfl⟩ := List.mem_map.mp member
    have bound := List.mem_range.mp within
    rw [octetOf, isSome_parseIpv4Addr_iff]
    omega

end OctetRange

/-! ### The list -/

namespace AddressItem

theorem not_mem_comma (item : AddressItem) : ',' ∉ item.text := by
  cases item with
  | single kept => exact kept.commaFree
  | range counted =>
      have numbers : ∀ value : Int, ',' ∉ (toString value).toList := fun value =>
        not_mem_signed (by decide) (by decide) value
      intro member
      rcases List.mem_append.mp member with front | behind
      · rcases List.mem_append.mp front with inBase | inFirst
        · exact counted.not_mem_base (by decide) (by decide) inBase
        · exact numbers counted.first.value inFirst
      · rcases List.mem_cons.mp behind with dash | inLast
        · cases dash
        · exact numbers counted.last.value inLast

theorem text_ne_nil (item : AddressItem) : item.text ≠ [] := by
  cases item with
  | single kept => exact kept.nonempty
  | range counted => simp [AddressItem.text, OctetRange.text]

end AddressItem

theorem commaItems_text (items : List AddressItem) :
    commaItems ([','].intercalate (items.map AddressItem.text)) = items.map AddressItem.text := by
  cases items with
  | nil => rfl
  | cons item rest =>
      have split : ([','].intercalate ((item :: rest).map AddressItem.text)).splitOn ',' =
          (item :: rest).map AddressItem.text := by
        apply List.splitOn_intercalate
        · intro text member
          obtain ⟨other, _, rfl⟩ := List.mem_map.mp member
          exact other.not_mem_comma
        · exact List.cons_ne_nil _ _
      have whole : ((item :: rest).map AddressItem.text).getLast? ≠ some [] := by
        intro last
        obtain ⟨other, _, empty⟩ := List.mem_map.mp (List.mem_of_getLast? last)
        exact other.text_ne_nil empty
      unfold commaItems
      rw [split, if_neg whole]

theorem parseIpItems_eq_ok {items : List AddressItem}
    (each : ∀ item ∈ items, parseIpItem item.text = .ok item.expand) :
    parseIpItems (items.map AddressItem.text) = .ok (items.flatMap AddressItem.expand) := by
  induction items with
  | nil => rfl
  | cons item rest ih =>
      have later := ih fun other member => each other (List.mem_cons_of_mem item member)
      rw [List.map_cons, parseIpItems, each item List.mem_cons_self, later]
      rfl

/-- The list is expanded to what it says, and every range to dotted quads. -/
def ExpandsExactly (items : List AddressItem) : Prop :=
  parseIpString (addressListText items) = .ok (items.flatMap AddressItem.expand) ∧
    ∀ range, .range range ∈ items →
      ∀ address ∈ range.expand, (parseIpv4Addr address).isSome = true

/-- The expansion is exact exactly if every range starts at a number that is not negative
and is empty or ends within an octet. -/
theorem expandsExactly_iff (items : List AddressItem) :
    ExpandsExactly items ↔
      ∀ range, .range range ∈ items → 0 ≤ range.first.value ∧
        (range.last.value < range.first.value ∨ range.last.value ≤ 255) := by
  have whole : parseIpString (addressListText items) =
      parseIpItems (items.map AddressItem.text) := by
    rw [parseIpString, addressListText, String.toList_ofList, commaItems_text]
  constructor
  · intro expands range member
    have counted : 0 ≤ range.first.value := by
      by_contra negative
      have legible := legible_of_parseIpItems (whole.symm.trans expands.1) range.text
        (List.mem_map.mpr ⟨.range range, member, rfl⟩)
      obtain ⟨here, parsed⟩ := legible
      rw [range.parseIpItem_text_negative (Int.not_le.mp negative)] at parsed
      cases parsed
    exact ⟨counted, (range.expand_valid_iff counted).mp (expands.2 range member)⟩
  · intro bounded
    constructor
    · rw [whole]
      apply parseIpItems_eq_ok
      intro item member
      cases item with
      | single kept => exact parseIpItem_single kept
      | range counted =>
          obtain ⟨positive, finite⟩ := bounded counted member
          exact (counted.parseIpItem_text positive).trans (counted.rangeItems_eq_expand finite)
    · intro range member
      obtain ⟨positive, finite⟩ := bounded range member
      exact (range.expand_valid_iff positive).mpr finite

/-- An item of each kind. -/
example :
    let range : OctetRange :=
      { a := 10
        b := 0
        c := 0
        first := { value := 7, low := by decide, high := by decide }
        last := { value := 8, low := by decide, high := by decide } }
    parseIpString (addressListText
        [.single (.quad 0x0a000001#32), .range range,
          .single (.cidr { address := 0x0a000000#32, length := 8, length_le := by decide })]) =
      .ok ["10.0.0.1", "10.0.0.7", "10.0.0.8", "10.0.0.0/8"] := by
  decide +kernel

def overlongRange : OctetRange :=
  { a := 10
    b := 0
    c := 0
    first := { value := 255, low := by decide, high := by decide }
    last := { value := 256, low := by decide, high := by decide } }

theorem overlongRange_expanded :
    addressListText [.range overlongRange] = "10.0.0.255-256" ∧
      parseIpString "10.0.0.255-256" = .ok ["10.0.0.255", "10.0.0.256"] ∧
      ¬ExpandsExactly [.range overlongRange] := by
  refine ⟨by decide, by decide, ?_⟩
  intro expands
  have valid : (parseIpv4Addr "10.0.0.256").isSome = true :=
    expands.2 overlongRange List.mem_cons_self "10.0.0.256" (by decide)
  revert valid
  decide

end NetPolicy.Daemon
