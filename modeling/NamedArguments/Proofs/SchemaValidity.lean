import NamedArguments.Schema

/-! A schema made of lists passes its check exactly when every declared key is
a keyword and no two declared keys are the same. -/
namespace NamedArguments

/-- Every key can name an argument, and no two are the same key. -/
structure DistinctKeywords (keys : List Value) : Prop where
  named : ∀ key ∈ keys, key.namesArgument = true
  distinct : (keys.map Value.key).Nodup

theorem namesArgument_iff {v : Value} :
    v.namesArgument = true ↔ ∃ keyword : Keyword, keyword.value = v := by
  constructor
  · intro names
    obtain ⟨keyword, same⟩ := Option.isSome_iff_exists.mp names
    exact ⟨keyword, Keyword.value_of_ofValue? same⟩
  · rintro ⟨keyword, rfl⟩
    simp [Value.namesArgument]

theorem distinctKeywords_nil : DistinctKeywords [] := ⟨by simp, by simp⟩

theorem distinctKeywords_cons {key : Value} {rest : List Value} :
    DistinctKeywords (key :: rest) ↔
      key.namesArgument = true ∧ key.key ∉ rest.map Value.key ∧ DistinctKeywords rest := by
  constructor
  · rintro ⟨named, distinct⟩
    obtain ⟨fresh, distinctRest⟩ := List.nodup_cons.mp distinct
    exact ⟨named key (by simp), fresh,
      ⟨fun other member => named other (List.mem_cons_of_mem _ member), distinctRest⟩⟩
  · rintro ⟨names, fresh, rest⟩
    refine ⟨?_, List.nodup_cons.mpr ⟨fresh, rest.distinct⟩⟩
    intro other member
    rcases List.mem_cons.mp member with rfl | member
    · exact names
    · exact rest.named other member

theorem DistinctKeywords.perm {keys others : List Value} (distinct : DistinctKeywords keys)
    (rearranged : keys.Perm others) : DistinctKeywords others where
  named := fun key member => distinct.named key (rearranged.mem_iff.mpr member)
  distinct := (rearranged.map Value.key).nodup_iff.mp distinct.distinct

namespace Schema

/-- Nothing is at fault with keys that are distinct keywords outside those seen
before, and with no others. -/
theorem firstFault_eq_none_iff (seen keys : List Value) :
    firstFault seen keys = none ↔
      DistinctKeywords keys ∧ ∀ key ∈ keys, key.key ∉ seen.map Value.key := by
  induction keys generalizing seen with
  | nil => simp [firstFault, distinctKeywords_nil]
  | cons key rest ih =>
    rw [distinctKeywords_cons]
    cases named : Keyword.ofValue? key with
    | none => simp [firstFault, named, Value.namesArgument]
    | some keyword =>
      have names : key.namesArgument = true := by simp [Value.namesArgument, named]
      by_cases held : key.inKeys seen = true
      · have member := Value.inKeys_iff.mp held
        simp only [firstFault, named, held, ↓reduceIte, reduceCtorEq, false_iff]
        rintro ⟨_, unseen⟩
        exact unseen key (by simp) member
      · have fresh : key.key ∉ seen.map Value.key := fun member => held (Value.inKeys_iff.mpr member)
        simp only [firstFault, named, if_neg held, ih, List.map_cons, List.mem_cons, not_or]
        constructor
        · rintro ⟨distinct, unseen⟩
          refine ⟨⟨names, ?_, distinct⟩, ?_⟩
          · intro member
            obtain ⟨other, inside, same⟩ := List.mem_map.mp member
            exact (unseen other inside).1 same
          · rintro other (rfl | inside)
            · exact fresh
            · exact (unseen other inside).2
        · rintro ⟨⟨_, apart, distinct⟩, unseen⟩
          refine ⟨distinct, fun other inside => ⟨?_, unseen other (Or.inr inside)⟩⟩
          exact fun same => apart (List.mem_map.mpr ⟨other, inside, same⟩)

/-- A schema of lists is valid exactly when its keys are distinct keywords. -/
theorem validate_ofLists_iff (required optional : List Value) (others : Value) :
    (ofLists required optional others).validate = .ok () ↔
      DistinctKeywords (required ++ optional) := by
  have exact := firstFault_eq_none_iff [] (required ++ optional)
  simp only [List.map_nil, List.not_mem_nil, not_false_eq_true, implies_true, and_true] at exact
  rw [← exact]
  simp only [validate, keywords, ofLists, Part.sequence?]
  cases firstFault [] (required ++ optional) <;> simp

theorem total_ofLists (required optional : List Value) (others : Value) :
    (ofLists required optional others).total = .ok (.count (required.length + optional.length)) :=
  rfl

end Schema
end NamedArguments
