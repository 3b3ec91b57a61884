import NamedArguments.Proofs.SchemaValidity

/-! The faults that list keys. A list of keywords is printed and listed as it
is; in any other list the first key that names nothing is the fault. -/
namespace NamedArguments

/-- A list of keys is made of keywords, or has a first key that is none. -/
theorem keywords_or_nameless (keys : List Value) :
    (∃ keywords : List Keyword, keys = keywords.map Keyword.value) ∨
      ∃ (keywords : List Keyword) (key : Value) (rest : List Value),
        keys = keywords.map Keyword.value ++ key :: rest ∧ key.namesArgument = false := by
  induction keys with
  | nil => exact Or.inl ⟨[], rfl⟩
  | cons key rest ih =>
    cases names : key.namesArgument with
    | false => exact Or.inr ⟨[], key, rest, rfl, names⟩
    | true =>
      obtain ⟨keyword, rfl⟩ := namesArgument_iff.mp names
      rcases ih with ⟨keywords, rfl⟩ | ⟨keywords, other, after, rfl, nameless⟩
      · exact Or.inl ⟨keyword :: keywords, rfl⟩
      · exact Or.inr ⟨keyword :: keywords, other, after, rfl, nameless⟩

@[simp] theorem printedName_value (keyword : Keyword) :
    keyword.value.printedName = .ok keyword.name := by
  simp [Value.printedName]

theorem printedName_nameless {key : Value} (nameless : key.namesArgument = false) :
    key.printedName = .error (.ofNonKeyword key) := by
  have unnamed : Keyword.ofValue? key = none := by simpa [Value.namesArgument] using nameless
  simp [Value.printedName, unnamed]

theorem printedNames_keywords (keywords : List Keyword) :
    printedNames (keywords.map Keyword.value) = .ok (keywords.map Keyword.name) := by
  induction keywords with
  | nil => rfl
  | cons keyword rest ih => simp [printedNames, ih]

theorem printedNames_nameless (keywords : List Keyword) {key : Value} (rest : List Value)
    (nameless : key.namesArgument = false) :
    printedNames (keywords.map Keyword.value ++ key :: rest) = .error (.ofNonKeyword key) := by
  induction keywords with
  | nil => simp [printedNames, printedName_nameless nameless]
  | cons keyword others ih => simp [printedNames, ih]

namespace Fault

@[simp] theorem ofMissing_value (keyword : Keyword) :
    ofMissing keyword.value = .ok (.missing keyword) := by
  simp [ofMissing]

/-- Rejected keywords are listed all and in order. -/
theorem rejected_keywords (reason : Reason) (state : Listing → Fault) (keywords : List Keyword) :
    rejected reason state (keywords.map Keyword.value) = .ok (state (.keywords keywords)) := by
  have listed : (keywords.map Keyword.value).filterMap Keyword.ofValue? = keywords := by
    have back : Keyword.ofValue? ∘ Keyword.value = some := funext Keyword.ofValue?_value
    rw [List.filterMap_map, back, List.filterMap_some]
  simp [rejected, Reason.describe, printedNames_keywords, listed]

/-- Otherwise the fault is that of the first key that names nothing. -/
theorem rejected_nameless (reason : Reason) (state : Listing → Fault) (keywords : List Keyword)
    {key : Value} (rest : List Value) (nameless : key.namesArgument = false) :
    rejected reason state (keywords.map Keyword.value ++ key :: rest) =
      .error (.ofNonKeyword key) := by
  simp [rejected, Reason.describe, printedNames_nameless keywords rest nameless]

theorem ofNonKeyword_of_typeName {key : Value} {typeName : String}
    (printable : key.typeName? = some typeName) : ofNonKeyword key = .wrongType key typeName := by
  simp [ofNonKeyword, printable]

/-- Keys left over raise one fault that lists them, or one for a key that names
nothing. -/
theorem raised_ofUnknown (keys : List Value) :
    (∃ listing, raised (ofUnknown keys) = .unknown listing) ∨
      (∃ key typeName, raised (ofUnknown keys) = .wrongType key typeName) ∨
      raised (ofUnknown keys) = .unsupported := by
  rcases keywords_or_nameless keys with ⟨keywords, rfl⟩ | ⟨keywords, key, rest, rfl, nameless⟩
  · exact Or.inl ⟨.keywords keywords, by simp [ofUnknown, rejected_keywords, raised]⟩
  · right
    rw [ofUnknown, rejected_nameless _ _ _ _ nameless, raised]
    cases printable : key.typeName? with
    | some typeName => exact Or.inl ⟨key, typeName, ofNonKeyword_of_typeName printable⟩
    | none => exact Or.inr (by simp [ofNonKeyword, printable])

end Fault
end NamedArguments
