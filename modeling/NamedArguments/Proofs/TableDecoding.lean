import NamedArguments.Proofs.TableCounts

/-! Schemas as tables with two counts. The count of optional keywords is below
zero where other keys are allowed, so that one number says both. Decoding takes
the entries up to the sum of the counts, cuts them where the first count says
and checks nothing behind them; what it gives is encoded by the same entries and
the same counts. -/
namespace NamedArguments.Schema

/-- The count that says how many keywords are optional and whether others are
allowed. -/
def encodedCount (optional : Nat) (others : Bool) : Int :=
  if others then -1 - optional else optional

/-- How many keywords are optional by a count. -/
def declaredCount (count : Int) : Int := if count < 0 then -1 - count else count

theorem declaredCount_nonneg (count : Int) : 0 ≤ declaredCount count := by
  unfold declaredCount
  split <;> omega

theorem declaredCount_encodedCount (optional : Nat) (others : Bool) :
    declaredCount (encodedCount optional others) = optional := by
  unfold declaredCount encodedCount
  cases others with
  | false =>
    simp only [Bool.false_eq_true, ↓reduceIte]
    split <;> omega
  | true =>
    simp only [↓reduceIte]
    split <;> omega

theorem encodedCount_lt_zero (optional : Nat) (others : Bool) :
    decide (encodedCount optional others < 0) = others := by
  unfold encodedCount
  cases others with
  | false => simp
  | true =>
    simp only [↓reduceIte, decide_eq_true_eq]
    omega

theorem encodedCount_declaredCount (count : Int) :
    encodedCount (declaredCount count).toNat (decide (count < 0)) = count := by
  unfold declaredCount encodedCount
  by_cases negative : count < 0
  · simp only [negative, decide_true, ↓reduceIte]
    omega
  · simp only [negative, decide_false, Bool.false_eq_true, ↓reduceIte]
    omega

theorem countsAs_place {y : Binary64} {n : Int} (counts : y.CountsAs n) :
    ∃ place, y.place? = some place := by
  rcases counts with exact | ⟨rfl | ⟨units, rfl, -⟩, -⟩
  · exact ⟨_, exact⟩
  · exact ⟨_, rfl⟩
  · exact ⟨_, rfl⟩

/-- A lesser integer lies below a number as it lies below what that counts as. -/
theorem isBelow_of_countsAs {x y : Binary64} {m n : Int} (exact : x.IsAt m)
    (small : m < Binary64.exactBound) (counts : y.CountsAs n) : x.isBelow y = decide (m < n) := by
  obtain ⟨place, there⟩ := countsAs_place counts
  have here : x.place? = some _ := exact
  rw [Binary64.isBelow, here, there]
  exact Binary64.isBelow_of_countsAs exact small counts here there

/-- An integer allows others where it is below zero. -/
theorem isBelow_zero {x : Binary64} {n : Int} (exact : x.IsAt n) :
    x.isBelow (.ofNat 0) = decide (n < 0) := by
  have positive : (0 : Int) < Binary64.one := by exact_mod_cast Binary64.one_pos
  have here : x.place? = some _ := exact
  rw [Binary64.isBelow, here, Binary64.place?_zero]
  simp only [Binary64.Place.isBelow, decide_eq_decide]
  constructor
  · intro below
    by_cases negative : n < 0
    · exact negative
    · exact absurd below (Int.not_lt.mpr (Int.mul_nonneg (by omega) (by omega)))
  · intro negative
    exact Int.mul_neg_of_neg_of_pos negative positive

/-- The optional count as it is worked out: subtracting from minus one may round,
but not below what lists can hold. -/
theorem countsAs_declaredNumber {y : Binary64} {c : Int} (exact : y.IsAt c) :
    (declaredNumber y).CountsAs (declaredCount c) := by
  have minusOne : (Binary64.ofInt (-1)).IsAt (-1) := Binary64.isAt_ofInt (by decide)
  unfold declaredNumber declaredCount
  rw [isBelow_zero exact]
  by_cases negative : c < 0
  · rw [decide_eq_true negative, if_pos rfl, if_pos negative]
    have sum := Binary64.countsAs_add_of_isAt minusOne (Binary64.isAt_neg exact) (by omega)
    rwa [← Int.sub_eq_add_neg] at sum
  · rw [decide_eq_false negative, if_neg Bool.false_ne_true, if_neg negative]
    exact Or.inl exact

/-- Counts are refused where the first is below zero or their sum is above the
length of the table. -/
theorem outruns_exact {entries : Nat} {x y : Binary64} {r c : Int}
    (short : entries ≤ NamedFunction.greatestLength) (exactRequired : x.IsAt r)
    (exactOptional : y.IsAt c) :
    outruns entries x y = decide (r < 0 ∨ entries < r + declaredCount c) := by
  have inside : entries < Binary64.exactBound := Nat.lt_of_le_of_lt short greatestLength_lt_exactBound
  unfold outruns
  rw [isBelow_zero exactRequired]
  by_cases negative : r < 0
  · simp [negative]
  · have sum := Binary64.countsAs_add exactRequired (countsAs_declaredNumber exactOptional)
      (by omega) (declaredCount_nonneg c)
    have above := isBelow_of_countsAs (Binary64.isAt_ofNat inside) (by omega) sum
    simp only [negative, decide_false, Bool.false_or, false_or]
    exact above

/-- Entries between two natural numbers. -/
theorem between_exact (items : List Value) {x y : Binary64} {m n : Nat} (first : x.IsAt m)
    (last : y.IsAt n) (inside : n ≤ items.length) :
    between items x y = (items.take n).drop m := by
  rw [between, Binary64.position_of_isAt first, Binary64.position_of_isAt last,
    Nat.min_eq_left inside]
  by_cases within : m ≤ items.length
  · rw [Nat.min_eq_left within]
  · have short : (items.take n).length ≤ items.length := List.length_take_le' n items
    rw [Nat.min_eq_right (by omega), List.drop_eq_nil_of_le short,
      List.drop_eq_nil_of_le (by omega)]

/-- Counts that ask for too much are refused with both of them and the length. -/
theorem ofTable_of_overrun (identity : Identity) {items : List Value} {x y : Binary64} {r c : Int}
    (short : items.length ≤ NamedFunction.greatestLength) (exactRequired : x.IsAt r)
    (exactOptional : y.IsAt c) (beyond : r < 0 ∨ items.length < r + declaredCount c) :
    ∃ count : Binary64, count.CountsAs (declaredCount c) ∧
      ofTable (.list identity items) (.number x) (.number y) =
        .error (.schema (.tableLength (.number (.ofNat items.length)) (.number x)
          (.number count))) := by
  refine ⟨declaredNumber y, countsAs_declaredNumber exactOptional, ?_⟩
  rw [ofTable_numbers, outruns_exact short exactRequired exactOptional, decide_eq_true beyond,
    if_pos rfl]

/-- Counts that stay within a table cut its front in two. -/
theorem ofTable_of_within {identity : Identity} {items : List Value} {x y : Binary64} {r c : Int}
    (short : items.length ≤ NamedFunction.greatestLength) (exactRequired : x.IsAt r)
    (exactOptional : y.IsAt c) (within : ¬ (r < 0 ∨ items.length < r + declaredCount c)) :
    ofTable (.list identity items) (.number x) (.number y) =
      define (.list .merged (items.take r.toNat))
        (.list .merged ((items.drop r.toNat).take (declaredCount c).toNat))
        (.bool (decide (c < 0))) := by
  have small : items.length < Binary64.exactBound :=
    Nat.lt_of_le_of_lt short greatestLength_lt_exactBound
  have nonnegative := declaredCount_nonneg c
  rw [ofTable_numbers, outruns_exact short exactRequired exactOptional, decide_eq_false within,
    if_neg Bool.false_ne_true, isBelow_zero exactOptional]
  -- Counts within the table are below the bound, so nothing has been rounded.
  have exactCount : (declaredNumber y).IsAt (declaredCount c) := by
    rcases countsAs_declaredNumber exactOptional with exact | ⟨-, large⟩
    · exact exact
    · omega
  have sum : (x + declaredNumber y).IsAt (r + declaredCount c) :=
    Binary64.isAt_add exactRequired exactCount (by omega)
  generalize declaredCount c = declared at *
  obtain ⟨m, rfl⟩ := Int.eq_ofNat_of_zero_le (by omega : 0 ≤ r)
  obtain ⟨n, rfl⟩ := Int.eq_ofNat_of_zero_le nonnegative
  have last : (x + declaredNumber y).IsAt (m + n : Nat) := sum
  have zero : (Binary64.ofNat 0).IsAt (0 : Nat) := Binary64.isAt_ofNat (by decide)
  have front := between_exact items zero exactRequired (by omega)
  have middle := between_exact items exactRequired last (by omega)
  rw [List.drop_take, Nat.add_sub_cancel_left] at middle
  rw [front, middle, List.drop_zero, Int.toNat_natCast, Int.toNat_natCast]

/-- Decoding is refused over the length where the counts ask for too much, and
only there: what offends among the entries has other reasons. -/
theorem ofTable_lengthFault_iff {identity : Identity} {items : List Value} {x y : Binary64}
    {r c : Int} (short : items.length ≤ NamedFunction.greatestLength) (exactRequired : x.IsAt r)
    (exactOptional : y.IsAt c) :
    (∃ fault, ofTable (.list identity items) (.number x) (.number y) = .error (.schema fault) ∧
      fault.reason.value = .text "table_length") ↔ r < 0 ∨ items.length < r + declaredCount c := by
  constructor
  · rintro ⟨fault, failed, reason⟩
    by_cases beyond : r < 0 ∨ items.length < r + declaredCount c
    · exact beyond
    · rw [ofTable_of_within short exactRequired exactOptional beyond,
        define_lists_eq_error_iff] at failed
      obtain ⟨index, offence, stated, first⟩ := failed
      cases stated
      rcases first.1.payload with ⟨nameless, -⟩ | ⟨repeated, -⟩
      · simp [nameless] at reason
      · simp [repeated] at reason
  · intro beyond
    obtain ⟨count, -, failed⟩ :=
      ofTable_of_overrun identity short exactRequired exactOptional beyond
    exact ⟨_, failed, rfl⟩

/-- The front of a table is the two parts that it is cut into, and their lengths
say what the counts were. -/
theorem cut_exact {items : List Value} {r c : Int}
    (within : ¬ (r < 0 ∨ items.length < r + declaredCount c)) :
    let required := items.take r.toNat
    let optional := (items.drop r.toNat).take (declaredCount c).toNat
    items.take (r + declaredCount c).toNat = required ++ optional ∧ required.length = r ∧
      encodedCount optional.length (decide (c < 0)) = c := by
  intro required optional
  have nonnegative := declaredCount_nonneg c
  have front : required.length = r.toNat := List.length_take_of_le (by omega)
  have rest : optional.length = (declaredCount c).toNat := by
    apply List.length_take_of_le
    rw [List.length_drop]
    omega
  refine ⟨?_, by omega, ?_⟩
  · rw [Int.toNat_add (by omega) nonnegative, List.take_add]
  · rw [rest]
    exact encodedCount_declaredCount c

/-- A valid schema is what its keywords and its counts decode to. -/
theorem ofTable_encoded {required optional table : List Value} {others : Bool} {x y : Binary64}
    (identity : Identity) (short : table.length ≤ NamedFunction.greatestLength)
    (exactRequired : x.IsAt required.length)
    (exactOptional : y.IsAt (encodedCount optional.length others))
    (declared : (ofLists required optional (.bool others)).keywords = .ok table)
    (valid : (ofLists required optional (.bool others)).validate = .ok ()) :
    ofTable (.list identity table) (.number x) (.number y) =
      .ok (ofLists required optional (.bool others)) := by
  obtain rfl : required ++ optional = table := Except.ok.inj declared
  rw [ofTable_of_within short exactRequired exactOptional]
  · rw [declaredCount_encodedCount, encodedCount_lt_zero, Int.toNat_natCast, Int.toNat_natCast,
      List.take_left, List.drop_left, List.take_length]
    exact define_lists_eq_ok_iff.mpr ⟨rfl, (validate_ofLists_iff _ _ _).mp valid⟩
  · rw [declaredCount_encodedCount, List.length_append]
    omega

/-- Decoding a table undoes encoding, and encoding undoes decoding. The keywords
of a valid schema with their counts decode to this schema. For any list and
integer counts, decoding is refused over the length exactly where the first
count is below zero or both together are above the length. Otherwise the entries
that the counts take are all that is checked; where they are distinct keywords,
they are cut where the first count says, and what has been decoded is encoded by
them and by the same counts. -/
theorem table_exact :
    (∀ (required optional table : List Value) (others : Bool) (identity : Identity)
        (x y : Binary64),
      table.length ≤ NamedFunction.greatestLength →
      x.IsAt required.length → y.IsAt (encodedCount optional.length others) →
      let schema := ofLists required optional (.bool others)
      schema.keywords = .ok table → schema.validate = .ok () →
        ofTable (.list identity table) (.number x) (.number y) = .ok schema) ∧
    ∀ (identity : Identity) (items : List Value) (x y : Binary64) (r c : Int),
      items.length ≤ NamedFunction.greatestLength → x.IsAt r → y.IsAt c →
      let declared := declaredCount c
      let decoded := ofTable (.list identity items) (.number x) (.number y)
      let taken := items.take (r + declared).toNat
      let required := items.take r.toNat
      let optional := (items.drop r.toNat).take declared.toNat
      let schema := ofLists required optional (.bool (decide (c < 0)))
      ((∃ fault, decoded = .error (.schema fault) ∧
          fault.reason.value = .text "table_length") ↔ r < 0 ∨ items.length < r + declared) ∧
      (r < 0 ∨ items.length < r + declared →
        ∃ count : Binary64, count.CountsAs declared ∧
          decoded = .error (.schema (.tableLength (.number (.ofNat items.length)) (.number x)
            (.number count)))) ∧
      (¬ (r < 0 ∨ items.length < r + declared) →
        (decoded = .ok schema ↔ DistinctKeywords taken) ∧
        (∀ fault, decoded = .error fault ↔
          ∃ index offence, fault = .schema offence ∧ FirstOffence taken index offence) ∧
        ∀ made, decoded = .ok made → made = schema ∧ made.keywords = .ok taken ∧
          required.length = r ∧ encodedCount optional.length (decide (c < 0)) = c) := by
  constructor
  · intro required optional table others identity x y short exactRequired exactOptional
      schema declared valid
    exact ofTable_encoded identity short exactRequired exactOptional declared valid
  · intro identity items x y r c short exactRequired exactOptional declared decoded taken required
      optional schema
    refine ⟨ofTable_lengthFault_iff short exactRequired exactOptional,
      ofTable_of_overrun identity short exactRequired exactOptional, fun within => ?_⟩
    obtain ⟨cut, front, rest⟩ := cut_exact within
    have same : decoded = define (.list .merged required) (.list .merged optional)
        (.bool (decide (c < 0))) := ofTable_of_within short exactRequired exactOptional within
    have both : taken = required ++ optional := cut
    rw [both, same]
    refine ⟨define_lists_eq_ok_iff.trans (and_iff_right rfl),
      fun fault => define_lists_eq_error_iff, fun made gone => ?_⟩
    obtain ⟨stands, -⟩ := define_lists_eq_ok_iff.mp gone
    exact ⟨stands, by rw [stands]; rfl, front, rest⟩

/-- One required entry of three and a count of minus two, which takes one more
and allows others: the third entry repeats the first, which does not matter. With
a count of minus three it would be taken, and with minus four the table is too
short. What the first two entries make up decodes to itself. -/
theorem table_exact_rest_allowed :
    let entries : List Value := [.text "name", .text "key", .text "name"]
    let decoded (count : Int) := ofTable (.list .merged entries) (.number (.ofNat 1))
      (.number (.ofInt count))
    let schema := ofLists [.text "name"] [.text "key"] (.bool true)
    decoded (-2) = .ok schema ∧
      decoded (-3) = .error (.schema (.repeated (.text "name"))) ∧
      (∃ fault, decoded (-4) = .error (.schema fault) ∧
        fault.reason.value = .text "table_length") ∧
      ofTable (.list .merged [.text "name", .text "key"]) (.number (.ofNat 1))
        (.number (.ofInt (-2))) = .ok schema := by
  intro entries decoded schema
  have one : (Binary64.ofNat 1).IsAt (1 : Nat) := Binary64.isAt_ofNat (by decide)
  have count (n : Nat) (small : n < Binary64.exactBound) : (Binary64.ofInt (-n)).IsAt (-n) :=
    Binary64.isAt_ofInt (by omega)
  obtain ⟨encoded, general⟩ := table_exact
  have short : entries.length ≤ NamedFunction.greatestLength := by decide
  have distinct : DistinctKeywords [.text "name", .text "key"] :=
    ⟨by simp [Value.namesArgument, Keyword.ofValue?], by simp [Value.key]⟩
  refine ⟨?_, ?_, ?_, ?_⟩
  · have within := (general .merged entries _ _ 1 (-2) short one (count 2 (by decide))).2.2
    exact (within (by decide)).1.mpr distinct
  · have within := (general .merged entries _ _ 1 (-3) short one (count 3 (by decide))).2.2
    have found : firstFault [] entries = some (.repeated (.text "name")) := by
      simp [entries, firstFault, Keyword.ofValue?, Value.inKeys, Value.sameKey, Value.key]
    obtain ⟨index, first⟩ := (firstFault_eq_some_iff _ _).mp found
    exact ((within (by decide)).2.1 _).mpr ⟨index, _, rfl, first⟩
  · have beyond := (general .merged entries _ _ 1 (-4) short one (count 4 (by decide))).1
    exact beyond.mpr (by decide)
  · exact encoded [.text "name"] [.text "key"] _ true .merged _ _ (by decide) one
      (count 2 (by decide)) rfl ((validate_ofLists_iff _ _ _).mpr distinct)

end NamedArguments.Schema
