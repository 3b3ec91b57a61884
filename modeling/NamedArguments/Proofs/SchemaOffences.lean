import NamedArguments.Proofs.KeywordMessages

/-! What is wrong with the keys of a schema, place by place. A key offends where
it is no keyword, or where it is the same keyword as one before it. The check of
a schema reports the first place at which a key offends, and nothing else makes
it fail. -/
namespace NamedArguments

/-- Two keywords are the same: texts unit by unit, symbols by identity. -/
def Keyword.Same : Keyword → Keyword → Prop
  | .text s, .text t => Text.toUnits s.toList = Text.toUnits t.toList
  | .symbol id _, .symbol other _ => id = other
  | .absent, .absent => True
  | _, _ => False

theorem Keyword.key_eq_iff_same (first second : Keyword) :
    first.value.key = second.value.key ↔ first.Same second := by
  cases first with
  | text s =>
    cases second with
    | text t =>
      simp only [value, Value.key, Key.text.injEq, Same]
      constructor
      · intro same
        rw [same]
      · intro same
        have chars := congrArg Text.ofUnits same
        rw [Text.ofUnits_toUnits, Text.ofUnits_toUnits] at chars
        exact String.toList_inj.mp chars
    | _ => simp [value, Value.key, Same]
  | _ => cases second <;> simp [value, Value.key, Same]

/-- What is the same key as a keyword is a keyword. -/
theorem Keyword.of_key_eq {v : Value} {keyword : Keyword} (same : v.key = keyword.value.key) :
    ∃ first : Keyword, first.value = v ∧ first.Same keyword := by
  have names : v.namesArgument = true := by
    cases keyword <;> cases v <;> first | rfl | simp [value, Value.key] at same
  obtain ⟨first, rfl⟩ := namesArgument_iff.mp names
  exact ⟨first, rfl, (key_eq_iff_same first keyword).mp same⟩

/-- Distinct keywords are keywords no two of which are the same. -/
theorem distinctKeywords_iff_pairwise (keys : List Value) :
    DistinctKeywords keys ↔
      ∃ keywords : List Keyword, keys = keywords.map Keyword.value ∧
        keywords.Pairwise fun first second => ¬ first.Same second := by
  have apart : ∀ keywords : List Keyword, ((keywords.map Keyword.value).map Value.key).Nodup ↔
      keywords.Pairwise fun first second => ¬ first.Same second := by
    intro keywords
    rw [List.Nodup, List.pairwise_map, List.pairwise_map]
    simp only [Ne, Keyword.key_eq_iff_same]
  constructor
  · intro distinct
    rcases keywords_or_nameless keys with ⟨keywords, rfl⟩ | ⟨keywords, key, rest, rfl, nameless⟩
    · exact ⟨keywords, rfl, (apart keywords).mp distinct.distinct⟩
    · have names := distinct.named key (by simp)
      rw [nameless] at names
      cases names
  · rintro ⟨keywords, rfl, different⟩
    refine ⟨fun key member => ?_, (apart keywords).mpr different⟩
    obtain ⟨keyword, -, rfl⟩ := List.mem_map.mp member
    exact namesArgument_iff.mpr ⟨keyword, rfl⟩

namespace Schema

/-- What is wrong with the key at an index. -/
inductive Offence (keys : List Value) (index : Nat) : SchemaFault → Prop where
  | nameless {v : Value} (here : keys[index]? = some v) (names : v.namesArgument = false) :
      Offence keys index (.notKeyword v.kind)
  | repeated {keyword first : Keyword} {earlier : Nat} (here : keys[index]? = some keyword.value)
      (before : earlier < index) (there : keys[earlier]? = some first.value)
      (same : first.Same keyword) : Offence keys index (.repeated keyword)

/-- The key at an index offends, and no key before it does. -/
def FirstOffence (keys : List Value) (index : Nat) (fault : SchemaFault) : Prop :=
  Offence keys index fault ∧ ∀ earlier < index, ∀ other, ¬ Offence keys earlier other

/-- A key that is no keyword is not named by its fault, and a repeated one is. -/
theorem Offence.payload {keys : List Value} {index : Nat} {fault : SchemaFault}
    (offends : Offence keys index fault) :
    (fault.reason.value = .text "invalid_keyword" ∧ fault.keyword = .undefined) ∨
      (fault.reason.value = .text "duplicate_keyword" ∧ keys[index]? = some fault.keyword) := by
  cases offends with
  | nameless _ _ => exact Or.inl ⟨rfl, rfl⟩
  | repeated here _ _ _ => exact Or.inr ⟨rfl, here⟩

/-- A key offends in one way only. -/
theorem Offence.unique {keys : List Value} {index : Nat} {fault other : SchemaFault}
    (offends : Offence keys index fault) (too : Offence keys index other) : fault = other := by
  cases offends with
  | nameless here names =>
    cases too with
    | nameless stands _ =>
      rw [here] at stands
      cases stands
      rfl
    | repeated stands _ _ _ =>
      rw [here] at stands
      cases stands
      rw [namesArgument_iff.mpr ⟨_, rfl⟩] at names
      cases names
  | repeated here _ _ _ =>
    cases too with
    | nameless stands names =>
      rw [here] at stands
      cases stands
      rw [namesArgument_iff.mpr ⟨_, rfl⟩] at names
      cases names
    | repeated stands _ _ _ =>
      rw [here, Option.some.injEq] at stands
      have named := congrArg Keyword.ofValue? stands
      rw [Keyword.ofValue?_value, Keyword.ofValue?_value] at named
      cases named
      rfl

theorem FirstOffence.unique {keys : List Value} {index place : Nat} {fault other : SchemaFault}
    (offends : FirstOffence keys index fault) (too : FirstOffence keys place other) :
    index = place ∧ fault = other := by
  rcases Nat.lt_trichotomy index place with before | rfl | behind
  · exact absurd offends.1 (too.2 index before fault)
  · exact ⟨rfl, offends.1.unique too.1⟩
  · exact absurd too.1 (offends.2 place behind other)

/-- Distinct keywords do not offend. -/
theorem not_offence_of_distinct {keys : List Value} (distinct : DistinctKeywords keys) (index : Nat)
    (fault : SchemaFault) : ¬ Offence keys index fault := by
  intro offends
  cases offends with
  | nameless here names =>
    rw [distinct.named _ (List.mem_of_getElem? here)] at names
    cases names
  | @repeated keyword first earlier here before there same =>
    have keyHere : (keys.map Value.key)[index]? = some keyword.value.key := by
      rw [List.getElem?_map, here, Option.map_some]
    have keyThere : (keys.map Value.key)[earlier]? = some keyword.value.key := by
      rw [List.getElem?_map, there, Option.map_some, (Keyword.key_eq_iff_same _ _).mpr same]
    obtain ⟨inside, stands⟩ := List.getElem?_eq_some_iff.mp keyHere
    obtain ⟨insideToo, standsToo⟩ := List.getElem?_eq_some_iff.mp keyThere
    exact List.pairwise_iff_getElem.mp distinct.distinct earlier index insideToo inside before
      (standsToo.trans stands.symm)

/-- A keyword that stands nowhere before does not offend. -/
theorem not_offence_of_fresh {before rest : List Value} {keyword : Keyword}
    (fresh : keyword.value.key ∉ before.map Value.key) (fault : SchemaFault) :
    ¬ Offence (before ++ keyword.value :: rest) before.length fault := by
  have place : (before ++ keyword.value :: rest)[before.length]? = some keyword.value := by simp
  intro offends
  cases offends with
  | nameless here names =>
    rw [place] at here
    cases here
    rw [namesArgument_iff.mpr ⟨keyword, rfl⟩] at names
    cases names
  | @repeated other first earlier here earlierThan there same =>
    rw [place, Option.some.injEq] at here
    rw [List.getElem?_append_left earlierThan] at there
    apply fresh
    rw [here, ← (Keyword.key_eq_iff_same _ _).mpr same]
    exact List.mem_map_of_mem (List.mem_of_getElem? there)

/-- The check goes on as long as no key offends, with the keys before as those
that it has seen. -/
theorem firstOffence_of_firstFault {before keys seen : List Value} {fault : SchemaFault}
    (same : ∀ k, k ∈ seen.map Value.key ↔ k ∈ before.map Value.key)
    (fine : ∀ earlier < before.length, ∀ other, ¬ Offence (before ++ keys) earlier other)
    (found : firstFault seen keys = some fault) :
    ∃ index, FirstOffence (before ++ keys) index fault := by
  induction keys generalizing before seen with
  | nil => cases found
  | cons key rest ih =>
    have place : (before ++ key :: rest)[before.length]? = some key := by simp
    cases named : Keyword.ofValue? key with
    | none =>
      simp only [firstFault, named, Option.some.injEq] at found
      subst found
      exact ⟨before.length, .nameless place (by simp [Value.namesArgument, named]), fine⟩
    | some keyword =>
      have stands := Keyword.value_of_ofValue? named
      subst stands
      by_cases held : keyword.value.inKeys seen = true
      · simp only [firstFault, named, held, ↓reduceIte, Option.some.injEq] at found
        subst found
        obtain ⟨v, member, twin⟩ :=
          List.mem_map.mp ((same _).mp (Value.inKeys_iff.mp held))
        obtain ⟨first, rfl, alike⟩ := Keyword.of_key_eq twin
        obtain ⟨earlier, inside, stood⟩ := List.getElem_of_mem member
        have there : (before ++ keyword.value :: rest)[earlier]? = some first.value := by
          rw [List.getElem?_append_left inside, List.getElem?_eq_getElem inside, stood]
        exact ⟨before.length, .repeated place inside there alike, fine⟩
      · simp only [firstFault, named, if_neg held] at found
        have fresh : keyword.value.key ∉ before.map Value.key := by
          intro member
          exact held (Value.inKeys_iff.mpr ((same _).mpr member))
        have longer : before ++ keyword.value :: rest = (before ++ [keyword.value]) ++ rest := by
          simp
        rw [longer]
        apply ih _ _ found
        · intro k
          simp only [List.map_cons, List.mem_cons, same, List.map_append, List.map_nil,
            List.mem_append, List.not_mem_nil, or_false]
          exact or_comm
        · intro earlier inside other
          rw [← longer]
          rw [List.length_append, List.length_singleton] at inside
          by_cases last : earlier = before.length
          · rw [last]
            exact not_offence_of_fresh fresh other
          · exact fine earlier (by omega) other

/-- The check reports the first key that offends. -/
theorem firstFault_eq_some_iff (keys : List Value) (fault : SchemaFault) :
    firstFault [] keys = some fault ↔ ∃ index, FirstOffence keys index fault := by
  have reported : ∀ {other}, firstFault [] keys = some other →
      ∃ index, FirstOffence keys index other := fun {other} found =>
    @firstOffence_of_firstFault [] keys [] other (by simp) (by simp) found
  constructor
  · exact reported
  · rintro ⟨index, first⟩
    cases found : firstFault [] keys with
    | none =>
      have distinct := ((firstFault_eq_none_iff [] keys).mp found).1
      exact absurd first.1 (not_offence_of_distinct distinct index fault)
    | some other =>
      obtain ⟨place, firstToo⟩ := reported found
      rw [(first.unique firstToo).2]

/-- A schema of lists fails its check with the fault of its first key that offends. -/
theorem validate_eq_error_iff (required optional : List Value) (others : Value) (fault : Fault) :
    (ofLists required optional others).validate = .error fault ↔
      ∃ index offence, fault = .schema offence ∧
        FirstOffence (required ++ optional) index offence := by
  have declared : (ofLists required optional others).keywords = .ok (required ++ optional) := rfl
  have exact := firstFault_eq_some_iff (required ++ optional)
  simp only [validate, declared]
  cases found : firstFault [] (required ++ optional) with
  | none =>
    simp only [reduceCtorEq, false_iff]
    rintro ⟨index, offence, -, first⟩
    rw [(exact offence).mpr ⟨index, first⟩] at found
    cases found
  | some offence =>
    obtain ⟨index, first⟩ := (exact offence).mp found
    simp only [Except.error.injEq]
    constructor
    · rintro rfl
      exact ⟨index, offence, rfl, first⟩
    · rintro ⟨place, other, rfl, firstToo⟩
      rw [(first.unique firstToo).2]

end Schema
end NamedArguments
