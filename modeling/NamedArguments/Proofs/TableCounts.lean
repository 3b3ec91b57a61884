import NamedArguments.NamedFunction
import NamedArguments.Proofs.NumberOrder
import NamedArguments.Proofs.SchemaCirculation
import NamedArguments.Schema.Table

/-! Tables with any two numbers as counts. Counts need not be whole, and one that
is not-a-number is neither below zero nor too great. The bounds of the two parts
are cut, clipped and, below zero, counted from the end; yet the second part begins
where the first one ends, because both are cut there by the same number. -/
namespace NamedArguments.Schema

/-- How many optional keywords a number declares. -/
def declaredNumber (optional : Binary64) : Binary64 :=
  if optional.isBelow (.ofNat 0) then .ofInt (-1) + -optional else optional

/-- Whether counts are refused for a table with so many entries. -/
def outruns (entries : Nat) (required optional : Binary64) : Bool :=
  required.isBelow (.ofNat 0) ||
    (Binary64.ofNat entries).isBelow (required + declaredNumber optional)

theorem isBelow?_numbers (x y : Binary64) :
    (Value.number x).isBelow? (.number y) = some (x.isBelow y) := by
  simp only [Value.isBelow?, Value.plainValue?, Value.plainBelow?, Value.placeBeside?,
    Value.quantity?, Option.map_some, Quantity.place?, Binary64.isBelow]
  cases x.place? <;> cases y.place? <;> rfl

theorem isAbove?_numbers (x y : Binary64) :
    (Value.number x).isAbove? (.number y) = some (y.isBelow x) := isBelow?_numbers y x

theorem sum?_number (x y : Binary64) :
    (Value.number x).sum? (.number y) = some (.number (x + y)) := rfl

theorem optionalCount?_number (y : Binary64) :
    optionalCount? (.number y) = some (.number (declaredNumber y)) := by
  have double : (Value.number y).double? = some y := rfl
  rw [optionalCount?, countAllowsRest?, zero, isBelow?_numbers, declaredNumber]
  cases y.isBelow (.ofNat 0) with
  | true => simp only [double, Option.map_some, ↓reduceIte]
  | false => simp only [Bool.false_eq_true, ↓reduceIte]

theorem overruns?_numbers (identity : Identity) (items : List Value) (x y : Binary64) :
    overruns? (.list identity items) (.number x) (.number (declaredNumber y)) =
      some (outruns items.length x y) := by
  rw [overruns?, zero, isBelow?_numbers, outruns, sum?_number, Value.length?]
  cases x.isBelow (.ofNat 0) with
  | true => rfl
  | false => simp only [isAbove?_numbers, Bool.false_or]

/-- Whatever numbers the counts are, they are refused, or the schema is defined
from two parts of the table. -/
theorem ofTable_numbers (identity : Identity) (items : List Value) (x y : Binary64) :
    ofTable (.list identity items) (.number x) (.number y) =
      if outruns items.length x y = true then
        .error (.schema (.tableLength (.number (.ofNat items.length)) (.number x)
          (.number (declaredNumber y))))
      else
        define (.list .merged (between items (.ofNat 0) x))
          (.list .merged (between items x (x + declaredNumber y)))
          (.bool (y.isBelow (.ofNat 0))) := by
  have allows : countAllowsRest? (.number y) = some (y.isBelow (.ofNat 0)) := isBelow?_numbers _ _
  have parts (start stop : Binary64) : entries? (.list identity items) (.number start)
      (.number stop) = some (.list .merged (between items start stop)) := rfl
  simp only [ofTable, allows, optionalCount?_number, overruns?_numbers]
  cases outruns items.length x y with
  | true => rfl
  | false =>
    simp only [sum?_number, Option.bind_some, zero, parts, Bool.false_eq_true, ↓reduceIte]

theorem position_zero (length : Nat) : (Binary64.ofNat 0).position length = 0 := by
  rw [Binary64.position_of_isAt (Binary64.isAt_ofNat (by decide)), Nat.zero_min]

/-- The entries that counts take: all up to the greater one of the two bounds. -/
def entriesTaken (items : List Value) (required optional : Binary64) : List Value :=
  items.take (max (required.position items.length)
    ((required + declaredNumber optional).position items.length))

/-- The two parts of a table are those into which the bound between them cuts the
entries that are taken. -/
theorem between_entriesTaken (items : List Value) (x y : Binary64) :
    between items (.ofNat 0) x = (entriesTaken items x y).take (x.position items.length) ∧
      between items x (x + declaredNumber y) =
        (entriesTaken items x y).drop (x.position items.length) := by
  rw [between, between, position_zero, List.drop_zero, entriesTaken]
  generalize x.position items.length = first
  generalize (x + declaredNumber y).position items.length = last
  constructor
  · rw [List.take_take, Nat.min_eq_left (Nat.le_max_left ..)]
  · by_cases ordered : first ≤ last
    · rw [Nat.max_eq_right ordered]
    · -- The second part is empty where its end lies before its start.
      have backward : last ≤ first := Nat.le_of_not_le ordered
      rw [Nat.max_eq_left backward, List.drop_eq_nil_of_le (List.length_take_le ..),
        List.drop_eq_nil_of_le (Nat.le_trans (List.length_take_le ..) backward)]

/-- Decoding goes through where the counts are not refused and take distinct keywords. -/
theorem ofTable_numbers_eq_ok_iff {identity : Identity} {items : List Value} {x y : Binary64}
    {made : Schema} :
    ofTable (.list identity items) (.number x) (.number y) = .ok made ↔
      made = ofLists ((entriesTaken items x y).take (x.position items.length))
          ((entriesTaken items x y).drop (x.position items.length)) (.bool (y.isBelow (.ofNat 0))) ∧
        outruns items.length x y = false ∧ DistinctKeywords (entriesTaken items x y) := by
  obtain ⟨before, behind⟩ := between_entriesTaken items x y
  rw [ofTable_numbers, before, behind]
  cases outruns items.length x y with
  | true => simp only [↓reduceIte, reduceCtorEq, false_and, and_false]
  | false =>
    simp only [Bool.false_eq_true, ↓reduceIte, true_and]
    rw [define_lists_eq_ok_iff, List.take_append_drop]
    rfl

/-- Decoding takes the front of a table, whatever numbers the counts are. It goes
through exactly where the counts are not refused and take distinct keywords. The
schema is then these entries cut in two: its keywords are the entries taken, from
which the table goes on. -/
theorem front_exact (identity : Identity) (items : List Value) (x y : Binary64) :
    let decoded := ofTable (.list identity items) (.number x) (.number y)
    let front := entriesTaken items x y
    let first := x.position items.length
    let schema := ofLists (front.take first) (front.drop first) (.bool (y.isBelow (.ofNat 0)))
    (decoded = .ok schema ↔ outruns items.length x y = false ∧ DistinctKeywords front) ∧
      ∀ made, decoded = .ok made →
        made = schema ∧ made.keywords = .ok front ∧ front <+: items := by
  intro decoded front first schema
  refine ⟨ofTable_numbers_eq_ok_iff.trans (and_iff_right rfl), fun made gone => ?_⟩
  obtain ⟨rfl, -⟩ := ofTable_numbers_eq_ok_iff.mp gone
  refine ⟨rfl, ?_, List.take_prefix _ _⟩
  show Except.ok (front.take first ++ front.drop first) = Except.ok front
  rw [List.take_append_drop]

/-- Nothing and the greatest number below zero as counts. Its count comes to minus one
when it is rounded, so the second part ends one entry before the end of the table: it
is counted from there, and still begins where the first part ends. -/
theorem front_exact_from_end :
    let entries : List Value := [.text "name", .text "key", .text "mode"]
    let decoded := ofTable (.list .merged entries) (.number (.ofNat 0)) (.number (.finite true 1))
    let schema := ofLists [] [.text "name", .text "key"] (.bool true)
    decoded = .ok schema ∧ schema.keywords = .ok [.text "name", .text "key"] ∧
      [.text "name", .text "key"] <+: entries := by
  intro entries decoded schema
  have first : (Binary64.ofNat 0).position 3 = 0 := position_zero 3
  have last : (Binary64.ofNat 0 + declaredNumber (.finite true 1)).position 3 = 2 := by
    decide +kernel
  have front : entriesTaken entries (.ofNat 0) (.finite true 1) = [.text "name", .text "key"] := by
    rw [entriesTaken, show entries.length = 3 from rfl, first, last]
    rfl
  have rest : (Binary64.finite true 1).isBelow (.ofNat 0) = true := by decide +kernel
  have fits : outruns 3 (.ofNat 0) (.finite true 1) = false := by decide +kernel
  have distinct : DistinctKeywords [.text "name", .text "key"] :=
    ⟨by simp [Value.namesArgument, Keyword.ofValue?], by simp [Value.key]⟩
  obtain ⟨accepted, whole⟩ := front_exact .merged entries (.ofNat 0) (.finite true 1)
  rw [show entries.length = 3 from rfl, first, rest, front] at accepted whole
  have gone := accepted.mpr ⟨fits, distinct⟩
  exact ⟨gone, (whole _ gone).2⟩

/-- Lists are shorter than the least integer that may be inexact. -/
theorem greatestLength_lt_exactBound : NamedFunction.greatestLength < Binary64.exactBound := by
  decide

theorem ofInt_minusOne : Binary64.ofInt (-1) = .finite true (1 * Binary64.one) := by
  rw [Binary64.ofInt, decide_eq_true (by decide : (-1 : Int) < 0), Int.natAbs_neg, Int.natAbs_one]
  exact Binary64.ofUnits_of_lt (by decide) true

/-- A count of optional keywords is not negative, except for numbers between minus
one and zero, whose count is. -/
theorem nonnegative_declaredNumber {y : Binary64} (number : y ≠ .nan)
    (apart : ¬ ((Binary64.ofInt (-1)).isBelow y = true ∧ y.isBelow (.ofNat 0) = true)) :
    (declaredNumber y).Nonnegative := by
  unfold declaredNumber
  cases negative : y.isBelow (.ofNat 0) with
  | false => exact Binary64.nonnegative_of_not_isBelow_zero number negative
  | true =>
    rw [if_pos rfl]
    have least : (Binary64.ofInt (-1)).isBelow y = false := by
      simpa only [negative, and_true, Bool.not_eq_true] using apart
    rw [ofInt_minusOne] at least ⊢
    rw [Binary64.isBelow, Binary64.place?_zero] at negative
    cases y with
    | nan => exact absurd rfl number
    | infinite sign =>
      cases sign with
      | false => cases negative
      | true => exact .infinite
    | finite sign units =>
      simp only [Binary64.place?, Binary64.Place.isBelow, decide_eq_true_eq] at negative
      simp only [Binary64.isBelow, Binary64.place?, Binary64.Place.isBelow,
        decide_eq_false_iff_not, Int.not_lt] at least
      cases sign with
      | false => exact absurd negative (Int.not_lt.mpr (Int.natCast_nonneg units))
      | true =>
        rw [Binary64.signed_true, Binary64.signed_true] at least
        have sum : 0 ≤ Binary64.signed true (1 * Binary64.one) + Binary64.signed false units := by
          rw [Binary64.signed_true, Binary64.signed_false]
          omega
        exact Binary64.nonnegative_add sum

/-- A count of required keywords above the length of a table is refused over the
length, unless the optional count is not-a-number or lies between minus one and zero.
For any optional count it is refused exactly where the sum of the counts, as it is
rounded, is above the length. -/
theorem excess_refused (identity : Identity) (items : List Value) (x y : Binary64)
    (short : items.length ≤ NamedFunction.greatestLength) (encoded : x.Encoded)
    (above : x.exceeds items.length = true) :
    let decoded := ofTable (.list identity items) (.number x) (.number y)
    let fault : SchemaFault := .tableLength (.number (.ofNat items.length)) (.number x)
      (.number (declaredNumber y))
    (y ≠ .nan → ¬ ((Binary64.ofInt (-1)).isBelow y = true ∧ y.isBelow (.ofNat 0) = true) →
      decoded = .error (.schema fault)) ∧
    (decoded = .error (.schema fault) ↔ (x + declaredNumber y).exceeds items.length = true) := by
  intro decoded fault
  have inside : items.length < Binary64.exactBound :=
    Nat.lt_of_le_of_lt short greatestLength_lt_exactBound
  have counted : outruns items.length x y = (x + declaredNumber y).exceeds items.length := by
    rw [outruns, Binary64.not_isBelow_zero_of_exceeds above, Bool.false_or,
      Binary64.exceeds_eq_isBelow inside]
  have refused : decoded = .error (.schema fault) ↔
      (x + declaredNumber y).exceeds items.length = true := by
    simp only [decoded, ofTable_numbers, counted]
    cases (x + declaredNumber y).exceeds items.length with
    | true => simp only [↓reduceIte, fault]
    | false =>
      simp only [Bool.false_eq_true, ↓reduceIte, iff_false]
      intro failed
      obtain ⟨index, offence, same, first⟩ := define_lists_eq_error_iff.mp failed
      cases same
      have offends : Offence _ index (.tableLength _ _ _) := first.1
      cases offends
  exact ⟨fun number apart => refused.mpr
    (Binary64.exceeds_add encoded (nonnegative_declaredNumber number apart) above), refused⟩

/-- Two required entries of one and a count of minus one are refused. -/
theorem excess_refused_rest_allowed :
    (Binary64.ofNat 2).exceeds 1 = true ∧
      ofTable (.list .merged [.text "name"]) (.number (.ofNat 2)) (.number (.ofInt (-1))) =
        .error (.schema (.tableLength (.number (.ofNat 1)) (.number (.ofNat 2))
          (.number (.ofNat 0)))) := by
  have encoded : (Binary64.ofNat 2).Encoded := ⟨0x4000000000000000, by decide +kernel⟩
  have above : (Binary64.ofNat 2).exceeds 1 = true := by decide +kernel
  have none : declaredNumber (.ofInt (-1)) = .ofNat 0 := by decide +kernel
  have refused := (excess_refused .merged [.text "name"] (.ofNat 2) (.ofInt (-1)) (by decide)
    encoded above).1 (by decide +kernel) (by decide +kernel)
  rw [none] at refused
  exact ⟨above, refused⟩

/-- Beside a count that is not-a-number two required entries of one are taken for
what there is. -/
theorem excess_accepted :
    (Binary64.ofNat 2).exceeds 1 = true ∧
      ofTable (.list .merged [.text "name"]) (.number (.ofNat 2)) (.number .nan) =
        .ok (ofLists [.text "name"] [] (.bool false)) := by
  have first : (Binary64.ofNat 2).position 1 = 1 := by decide +kernel
  have front : entriesTaken [.text "name"] (.ofNat 2) .nan = [.text "name"] := by
    rw [entriesTaken, show [Value.text "name"].length = 1 from rfl, first]
    exact List.take_of_length_le (Nat.le_max_left ..)
  have distinct : DistinctKeywords [.text "name"] :=
    ⟨by simp [Value.namesArgument, Keyword.ofValue?], by simp⟩
  refine ⟨by decide +kernel, ofTable_numbers_eq_ok_iff.mpr ?_⟩
  rw [show [Value.text "name"].length = 1 from rfl, first, front]
  exact ⟨rfl, by decide +kernel, distinct⟩

end NamedArguments.Schema
