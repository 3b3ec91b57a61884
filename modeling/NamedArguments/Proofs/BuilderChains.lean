import Mathlib.Data.List.Perm.Basic
import NamedArguments.Proofs.SchemaCirculation
import NamedArguments.Schema.Chain

/-! Chains of builder steps against the definition from the lists that they come to.
A chain ends at the first key that is declared a second time, in whatever step that
is. Where there is none, it is left to the definition to refuse keys that are no
keywords. So both ways refuse the same declarations; but a chain has to print the
key that it ends at, and one that names nothing cannot be printed. -/
namespace NamedArguments.Builder

/-- The first key that is declared already: before the list, or in front of it there.
Up to it no key is declared twice. -/
def FirstRepeat (declared keys : List Value) (key : Value) : Prop :=
  ∃ front rest, keys = front ++ key :: rest ∧ ((declared ++ front).map Value.key).Nodup ∧
    key.key ∈ (declared ++ front).map Value.key

/-- The fault of a repeated key. Saying so takes its name. -/
def repeatFault (key : Value) : Fault :=
  match Keyword.ofValue? key with
  | some keyword => .schema (.alreadyDeclared keyword)
  | none => .ofNonKeyword key

@[simp] theorem repeatFault_value (keyword : Keyword) :
    repeatFault keyword.value = .schema (.alreadyDeclared keyword) := by
  simp [repeatFault]

/-- A repeated key is a fault of the schema where it is a keyword, and only there. -/
theorem repeatFault_schema_iff (key : Value) :
    (∃ offence, repeatFault key = .schema offence) ↔ key.namesArgument = true := by
  unfold repeatFault Value.namesArgument Fault.ofNonKeyword
  cases Keyword.ofValue? key with
  | some keyword => simp
  | none => cases key.typeName? <;> simp

/-- Keys one of which is declared already are not all different. -/
theorem not_nodup_of_held {declared front rest : List Value} {key : Value}
    (held : key.key ∈ (declared ++ front).map Value.key) :
    ¬ ((declared ++ (front ++ key :: rest)).map Value.key).Nodup := by
  rw [← List.append_assoc, List.map_append, List.map_cons]
  intro distinct
  exact (List.nodup_append.mp distinct).2.2 _ held _ List.mem_cons_self rfl

theorem FirstRepeat.not_nodup {declared keys : List Value} {key : Value}
    (repeats : FirstRepeat declared keys key) : ¬ ((declared ++ keys).map Value.key).Nodup := by
  obtain ⟨front, rest, rfl, -, held⟩ := repeats
  exact not_nodup_of_held held

/-- Keys behind a repeated one do not matter. -/
theorem FirstRepeat.append {declared keys : List Value} {key : Value}
    (repeats : FirstRepeat declared keys key) (more : List Value) :
    FirstRepeat declared (keys ++ more) key := by
  obtain ⟨front, rest, rfl, distinct, held⟩ := repeats
  exact ⟨front, rest ++ more, by simp, distinct, held⟩

/-- Keys declared before a list may as well stand in it. -/
theorem FirstRepeat.prepend {declared keys rest : List Value} {key : Value}
    (repeats : FirstRepeat (declared ++ keys) rest key) :
    FirstRepeat declared (keys ++ rest) key := by
  obtain ⟨front, more, rfl, distinct, held⟩ := repeats
  rw [List.append_assoc] at distinct held
  exact ⟨keys ++ front, more, by simp, distinct, held⟩

/-- The keys up to another one do not run past a repeated one. -/
theorem eq_of_held {declared front between rest more : List Value} {key other : Value}
    (held : key.key ∈ (declared ++ front).map Value.key)
    (distinct : ((declared ++ (front ++ between)).map Value.key).Nodup)
    (split : key :: rest = between ++ other :: more) : key = other := by
  cases between with
  | nil => exact (List.cons.inj split).1
  | cons first others =>
    obtain ⟨rfl, -⟩ := List.cons.inj split
    exact absurd distinct (not_nodup_of_held held)

theorem FirstRepeat.unique {declared keys : List Value} {key other : Value}
    (repeats : FirstRepeat declared keys key) (too : FirstRepeat declared keys other) :
    key = other := by
  obtain ⟨front, rest, rfl, distinct, held⟩ := repeats
  obtain ⟨frontToo, restToo, same, distinctToo, heldToo⟩ := too
  -- One of the two fronts is the longer one.
  rcases List.append_eq_append_iff.mp same with ⟨between, rfl, split⟩ | ⟨between, rfl, split⟩
  · exact eq_of_held held distinctToo split
  · exact (eq_of_held heldToo distinct split).symm

/-- The check of a step finds the first key that is declared already. The keys that
it goes by are the ones declared, in any order. -/
theorem firstRepeat_cases {seen declared : List Value} (keys : List Value)
    (same : ∀ k, k ∈ seen.map Value.key ↔ k ∈ declared.map Value.key)
    (distinct : (declared.map Value.key).Nodup) :
    (firstRepeat seen keys = none ∧ ((declared ++ keys).map Value.key).Nodup) ∨
      ∃ key, FirstRepeat declared keys key ∧ firstRepeat seen keys = some (repeatFault key) := by
  induction keys generalizing seen declared with
  | nil => exact Or.inl ⟨rfl, by rwa [List.append_nil]⟩
  | cons key rest ih =>
    by_cases held : key.inKeys seen = true
    · right
      have member : key.key ∈ declared.map Value.key := (same _).mp (Value.inKeys_iff.mp held)
      refine ⟨key, ⟨[], rest, rfl, ?_, ?_⟩, ?_⟩
      · rwa [List.append_nil]
      · rwa [List.append_nil]
      · simp only [firstRepeat, held, ↓reduceIte, repeatFault]
        cases Keyword.ofValue? key <;> rfl
    · have fresh : key.key ∉ declared.map Value.key := fun member =>
        held (Value.inKeys_iff.mpr ((same _).mpr member))
      have grown : ((declared ++ [key]).map Value.key).Nodup := by
        rw [List.map_append, List.map_singleton]
        exact List.nodup_append.mpr ⟨distinct, by simp, by
          rintro k member _ single rfl
          exact fresh (List.mem_singleton.mp single ▸ member)⟩
      have sameGrown : ∀ k, k ∈ (key :: seen).map Value.key ↔
          k ∈ (declared ++ [key]).map Value.key := by
        intro k
        simp only [List.map_cons, List.mem_cons, same, List.map_append, List.map_nil,
          List.mem_append, List.not_mem_nil, or_false]
        exact or_comm
      have further : firstRepeat seen (key :: rest) = firstRepeat (key :: seen) rest := by
        rw [firstRepeat, if_neg held]
      rw [further]
      rcases ih sameGrown grown with ⟨found, whole⟩ | ⟨other, repeats, found⟩
      · exact Or.inl ⟨found, by rwa [List.append_assoc, List.singleton_append] at whole⟩
      · exact Or.inr ⟨other, repeats.prepend, found⟩

/-- The keys that steps declare are those of their two lists. -/
theorem keys_perm (steps : List Step) :
    (steps.flatMap Step.requiredKeys ++ steps.flatMap Step.optionalKeys).Perm
      (steps.flatMap Step.keys) := by
  have split : Step.keys = fun step : Step => step.requiredKeys ++ step.optionalKeys := by
    funext step
    cases step <;> simp [Step.keys, Step.requiredKeys, Step.optionalKeys]
  rw [split]
  exact List.flatMap_append_perm steps _ _

/-- A builder that has taken steps holds what they come to. -/
structure Holds (b : Builder) (steps : List Step) : Prop where
  requiredKeys : b.requiredKeys = steps.flatMap Step.requiredKeys
  optionalKeys : b.optionalKeys = steps.flatMap Step.optionalKeys
  others : b.others.orElse (.bool false) = lastWord steps

theorem holds_empty : empty.Holds [] := ⟨rfl, rfl, rfl⟩

theorem Holds.declared_iff {b : Builder} {steps : List Step} (holds : b.Holds steps) (k : Key) :
    k ∈ b.declared.map Value.key ↔ k ∈ (steps.flatMap Step.keys).map Value.key := by
  rw [declared, holds.requiredKeys, holds.optionalKeys]
  exact ((keys_perm steps).map Value.key).mem_iff

/-- A builder with what a step adds, which it may have declared already. -/
def extended (b : Builder) (step : Step) : Builder where
  requiredKeys := b.requiredKeys ++ step.requiredKeys
  optionalKeys := b.optionalKeys ++ step.optionalKeys
  others :=
    match step with
    | .others allowed => (b.setOthers allowed).others
    | _ => b.others

/-- All steps are checked alike. -/
theorem perform_eq (b : Builder) (step : Step) :
    b.perform step =
      match firstRepeat b.declared step.keys with
      | some fault => .error fault
      | none => .ok (b.extended step) := by
  cases step with
  | required keys =>
    simp only [perform, addRequired, Step.keys]
    cases firstRepeat b.declared keys <;> simp [extended, Step.requiredKeys, Step.optionalKeys]
  | optional keys =>
    simp only [perform, addOptional, Step.keys]
    cases firstRepeat b.declared keys <;> simp [extended, Step.requiredKeys, Step.optionalKeys]
  | others allowed =>
    simp [perform, setOthers, extended, firstRepeat, Step.keys, Step.requiredKeys,
      Step.optionalKeys]

theorem lastWord_concat (steps : List Step) (allowed : Value) :
    lastWord (steps ++ [.others allowed]) =
      (if allowed matches .undefined then .bool true else allowed).orElse (.bool false) := by
  cases allowed <;> simp [lastWord, Step.words, Value.orElse, Value.isGiven]

theorem Holds.extended {b : Builder} {steps : List Step} (holds : b.Holds steps) (step : Step) :
    (b.extended step).Holds (steps ++ [step]) where
  requiredKeys := by simp [Builder.extended, holds.requiredKeys]
  optionalKeys := by simp [Builder.extended, holds.optionalKeys]
  others := by
    cases step with
    | others allowed => exact (lastWord_concat steps allowed).symm
    | _ => simpa [Builder.extended, lastWord, Step.words] using holds.others

/-- A step is refused over its first key that is declared already, or the builder
then holds what it adds as well. -/
theorem perform_cases {b : Builder} {steps : List Step} (holds : b.Holds steps)
    (distinct : ((steps.flatMap Step.keys).map Value.key).Nodup) (step : Step) :
    (∃ next, b.perform step = .ok next ∧ next.Holds (steps ++ [step]) ∧
        ((steps.flatMap Step.keys ++ step.keys).map Value.key).Nodup) ∨
      ∃ key, FirstRepeat (steps.flatMap Step.keys) step.keys key ∧
        b.perform step = .error (repeatFault key) := by
  rw [perform_eq]
  rcases firstRepeat_cases step.keys holds.declared_iff distinct with
    ⟨fine, whole⟩ | ⟨key, repeats, found⟩
  · rw [fine]
    exact Or.inl ⟨b.extended step, rfl, holds.extended step, whole⟩
  · rw [found]
    exact Or.inr ⟨key, repeats, rfl⟩

/-- Further steps go through, or the chain ends at the first key among theirs that
is declared already. -/
theorem after_cases {b : Builder} {steps : List Step} (holds : b.Holds steps)
    (distinct : ((steps.flatMap Step.keys).map Value.key).Nodup) (more : List Step) :
    (∃ made, b.after more = .ok made ∧ made.Holds (steps ++ more) ∧
        ((steps.flatMap Step.keys ++ more.flatMap Step.keys).map Value.key).Nodup) ∨
      ∃ key, FirstRepeat (steps.flatMap Step.keys) (more.flatMap Step.keys) key ∧
        b.after more = .error (repeatFault key) := by
  induction more generalizing b steps with
  | nil =>
    rw [List.append_nil, List.flatMap_nil, List.append_nil]
    exact Or.inl ⟨b, rfl, holds, distinct⟩
  | cons step rest ih =>
    have keys : (steps ++ [step]).flatMap Step.keys = steps.flatMap Step.keys ++ step.keys := by
      simp
    rw [List.flatMap_cons]
    rcases perform_cases holds distinct step with
      ⟨next, taken, held, whole⟩ | ⟨key, repeats, refused⟩
    · simp only [after, taken]
      rw [← keys] at whole
      rcases ih held whole with ⟨made, went, heldAll, all⟩ | ⟨key, repeats, refused⟩
      · rw [keys, List.append_assoc] at all
        rw [List.append_assoc] at heldAll
        exact Or.inl ⟨made, went, heldAll, all⟩
      · rw [keys] at repeats
        exact Or.inr ⟨key, repeats.prepend, refused⟩
    · simp only [after, refused]
      exact Or.inr ⟨key, repeats.append _, rfl⟩

/-- A chain from nothing goes through where no key is declared twice. -/
theorem after_empty_cases (steps : List Step) :
    (∃ made, empty.after steps = .ok made ∧ made.Holds steps ∧
        ((steps.flatMap Step.keys).map Value.key).Nodup) ∨
      ∃ key, FirstRepeat [] (steps.flatMap Step.keys) key ∧
        empty.after steps = .error (repeatFault key) :=
  after_cases holds_empty List.nodup_nil steps

/-- No step fails exactly where no key is declared twice. -/
theorem after_empty_ok_iff (steps : List Step) :
    (∃ made, empty.after steps = .ok made) ↔ ((steps.flatMap Step.keys).map Value.key).Nodup := by
  rcases after_empty_cases steps with ⟨made, went, -, distinct⟩ | ⟨key, repeats, refused⟩
  · exact ⟨fun _ => distinct, fun _ => ⟨made, went⟩⟩
  · simp only [refused, reduceCtorEq, exists_false, false_iff]
    exact repeats.not_nodup

theorem holds_of_after {steps : List Step} {b : Builder} (went : empty.after steps = .ok b) :
    b.Holds steps ∧ ((steps.flatMap Step.keys).map Value.key).Nodup := by
  rcases after_empty_cases steps with ⟨made, went', holds, distinct⟩ | ⟨key, -, refused⟩
  · cases went.symm.trans went'
    exact ⟨holds, distinct⟩
  · cases went.symm.trans refused

/-- What a step is refused over, once the steps before it have gone through. -/
theorem perform_eq_error_iff {steps : List Step} {b : Builder} (went : empty.after steps = .ok b)
    (step : Step) (fault : Fault) :
    b.perform step = .error fault ↔
      ∃ key, FirstRepeat (steps.flatMap Step.keys) step.keys key ∧ fault = repeatFault key := by
  obtain ⟨holds, distinct⟩ := holds_of_after went
  rcases perform_cases holds distinct step with ⟨next, taken, -, whole⟩ | ⟨key, repeats, refused⟩
  · simp only [taken, reduceCtorEq, false_iff, not_exists, not_and]
    exact fun key repeats => absurd whole repeats.not_nodup
  · rw [refused, Except.error.injEq]
    constructor
    · rintro rfl
      exact ⟨key, repeats, rfl⟩
    · rintro ⟨other, repeatsToo, rfl⟩
      rw [repeats.unique repeatsToo]

/-- A step is refused where it has a key that is declared before it or stands in front
of that key. -/
theorem perform_fails_iff {steps : List Step} {b : Builder} (went : empty.after steps = .ok b)
    (step : Step) :
    (∃ fault, b.perform step = .error fault) ↔ ∃ front key rest,
      step.keys = front ++ key :: rest ∧
        key.key ∈ (steps.flatMap Step.keys ++ front).map Value.key := by
  obtain ⟨holds, distinct⟩ := holds_of_after went
  rcases perform_cases holds distinct step with ⟨next, taken, -, whole⟩ | ⟨key, repeats, refused⟩
  · simp only [taken, reduceCtorEq, exists_false, false_iff, not_exists, not_and]
    intro front key rest split held
    rw [split] at whole
    exact not_nodup_of_held held whole
  · obtain ⟨front, rest, split, -, held⟩ := repeats
    exact iff_of_true ⟨_, refused⟩ ⟨front, key, rest, split, held⟩

theorem FirstRepeat.mem {declared keys : List Value} {key : Value}
    (repeats : FirstRepeat declared keys key) : key ∈ keys := by
  obtain ⟨front, rest, rfl, -, -⟩ := repeats
  simp

theorem Holds.lastWord_given {b : Builder} {steps : List Step} (holds : b.Holds steps) :
    (lastWord steps).orElse (.bool false) = lastWord steps := by
  rw [← holds.others]
  cases b.others <;> rfl

theorem Holds.finish {b : Builder} {steps : List Step} (holds : b.Holds steps) :
    b.finish = Schema.define (.list .merged (steps.flatMap Step.requiredKeys))
      (.list .merged (steps.flatMap Step.optionalKeys)) (lastWord steps) := by
  rw [Builder.finish, holds.requiredKeys, holds.optionalKeys, Schema.define_lists,
    Schema.define_lists, holds.others, holds.lastWord_given]

/-- Keywords that no step repeats are what the definition accepts. -/
theorem distinctKeywords_steps (steps : List Step) :
    DistinctKeywords (steps.flatMap Step.requiredKeys ++ steps.flatMap Step.optionalKeys) ↔
      DistinctKeywords (steps.flatMap Step.keys) :=
  ⟨fun distinct => distinct.perm (keys_perm steps),
    fun distinct => distinct.perm (keys_perm steps).symm⟩

/-- A chain gives a schema exactly where the definition from its lists does, and
otherwise fails with the first key that is declared twice, or as the definition does
if there is none. -/
theorem build_cases (steps : List Step) :
    (((steps.flatMap Step.keys).map Value.key).Nodup ∧
        build steps = Schema.define (.list .merged (steps.flatMap Step.requiredKeys))
          (.list .merged (steps.flatMap Step.optionalKeys)) (lastWord steps)) ∨
      ∃ key, FirstRepeat [] (steps.flatMap Step.keys) key ∧
        build steps = .error (repeatFault key) := by
  rcases after_empty_cases steps with ⟨made, went, holds, distinct⟩ | ⟨key, repeats, refused⟩
  · refine Or.inl ⟨distinct, ?_⟩
    simp only [build, went, holds.finish]
  · refine Or.inr ⟨key, repeats, ?_⟩
    simp only [build, refused]

/-- Steps in another order, in which those of one kind keep theirs. -/
def Reordered (steps other : List Step) : Prop :=
  ∀ request, other.filter (·.request = request) = steps.filter (·.request = request)

theorem Reordered.flatMap {steps other : List Step} (reordered : Reordered steps other)
    (request : Step.Request) {part : Step → List Value}
    (only : ∀ step : Step, step.request ≠ request → part step = []) :
    other.flatMap part = steps.flatMap part := by
  have filtered (all : List Step) :
      all.flatMap part = (all.filter (·.request = request)).flatMap part := by
    induction all with
    | nil => rfl
    | cons step rest ih =>
      by_cases same : step.request = request
      · simp [same, ih]
      · simp [same, ih, only step same]
  rw [filtered other, filtered steps, reordered request]

theorem Reordered.requiredKeys {steps other : List Step} (reordered : Reordered steps other) :
    other.flatMap Step.requiredKeys = steps.flatMap Step.requiredKeys :=
  reordered.flatMap .required fun step others => by
    cases step <;> first | rfl | exact absurd rfl others

theorem Reordered.optionalKeys {steps other : List Step} (reordered : Reordered steps other) :
    other.flatMap Step.optionalKeys = steps.flatMap Step.optionalKeys :=
  reordered.flatMap .optional fun step others => by
    cases step <;> first | rfl | exact absurd rfl others

theorem Reordered.lastWord {steps other : List Step} (reordered : Reordered steps other) :
    Builder.lastWord other = Builder.lastWord steps := by
  have words : other.flatMap Step.words = steps.flatMap Step.words :=
    reordered.flatMap .others fun step apart => by
      cases step <;> first | rfl | exact absurd rfl apart
  rw [Builder.lastWord, Builder.lastWord, words]

theorem Reordered.keys_perm {steps other : List Step} (reordered : Reordered steps other) :
    (other.flatMap Step.keys).Perm (steps.flatMap Step.keys) := by
  have both := (Builder.keys_perm other).symm
  rw [reordered.requiredKeys, reordered.optionalKeys] at both
  exact both.trans (Builder.keys_perm steps)

/-- A chain of keywords is refused by the step that repeats one, over the first it
repeats. No step is refused exactly where the definition accepts the lists that the
steps come to, and then finishing the chain gives what the definition gives, with the
last word on other keys. So steps may change places as long as those of one kind keep
their order. -/
theorem chain_exact (steps : List Step)
    (named : ∀ step ∈ steps, ∀ key ∈ step.keys, key.namesArgument = true) :
    let required := steps.flatMap Step.requiredKeys
    let optional := steps.flatMap Step.optionalKeys
    let schema := Schema.ofLists required optional (lastWord steps)
    (∀ (before more : List Step) (step : Step) (b : Builder),
      steps = before ++ step :: more → empty.after before = .ok b →
        let declared := before.flatMap Step.keys
        ((∃ fault, b.perform step = .error fault) ↔ ∃ front key rest,
          step.keys = front ++ key :: rest ∧ key.key ∈ (declared ++ front).map Value.key) ∧
        ∀ fault, b.perform step = .error fault ↔ ∃ keyword : Keyword,
          FirstRepeat declared step.keys keyword.value ∧
            fault = .schema (.alreadyDeclared keyword)) ∧
    (∀ (x y : Identity) (others : Value), (∃ b, empty.after steps = .ok b) ↔
      ∃ made, Schema.define (.list x required) (.list y optional) others = .ok made) ∧
    (∀ b, empty.after steps = .ok b → b.finish = .ok schema ∧
      ∀ x y : Identity, Schema.define (.list x required) (.list y optional) (lastWord steps) =
        .ok schema) ∧
    ∀ other, Reordered steps other →
      ((∃ b, empty.after other = .ok b) ↔ ∃ b, empty.after steps = .ok b) ∧
      ∀ b c, empty.after steps = .ok b → empty.after other = .ok c → c.finish = b.finish := by
  intro required optional schema
  have keywords : ∀ key ∈ steps.flatMap Step.keys, key.namesArgument = true := by
    intro key member
    obtain ⟨step, taken, inside⟩ := List.mem_flatMap.mp member
    exact named step taken key inside
  have accepted : ((steps.flatMap Step.keys).map Value.key).Nodup ↔
      DistinctKeywords (required ++ optional) :=
    Iff.trans ⟨fun distinct => ⟨keywords, distinct⟩, DistinctKeywords.distinct⟩
      (distinctKeywords_steps steps).symm
  refine ⟨fun before more step b same went => ⟨perform_fails_iff went step, fun fault => ?_⟩,
    fun x y others => ?_, fun b went => ?_, fun other reordered => ⟨?_, fun b c went gone => ?_⟩⟩
  · rw [perform_eq_error_iff went]
    constructor
    · rintro ⟨key, repeats, rfl⟩
      have names := named step (by rw [same]; simp) key repeats.mem
      obtain ⟨keyword, rfl⟩ := namesArgument_iff.mp names
      exact ⟨keyword, repeats, repeatFault_value keyword⟩
    · rintro ⟨keyword, repeats, rfl⟩
      exact ⟨keyword.value, repeats, (repeatFault_value keyword).symm⟩
  · rw [after_empty_ok_iff, accepted]
    simp only [Schema.define_lists_eq_ok_iff, exists_eq_left, required, optional]
  · obtain ⟨holds, distinct⟩ := holds_of_after went
    have defined (x y : Identity) :
        Schema.define (.list x required) (.list y optional) (lastWord steps) = .ok schema := by
      rw [Schema.define_lists_eq_ok_iff, holds.lastWord_given]
      exact ⟨rfl, accepted.mp distinct⟩
    exact ⟨holds.finish.trans (defined _ _), defined⟩
  · rw [after_empty_ok_iff, after_empty_ok_iff]
    exact (reordered.keys_perm.map Value.key).nodup_iff
  · rw [(holds_of_after went).1.finish, (holds_of_after gone).1.finish, reordered.requiredKeys,
      reordered.optionalKeys, reordered.lastWord]

/-- Two required steps around others, with two words on other keys. In another order
they come to the same schema, and a further step may not repeat a key. -/
theorem chain_exact_reordered :
    let steps : List Step := [.optional [.text "mode"], .others .null, .required [.text "name"],
      .others .undefined, .required [.text "key"]]
    let sorted : List Step := [.required [.text "name"], .required [.text "key"],
      .optional [.text "mode"], .others .null, .others .undefined]
    let schema := Schema.ofLists [.text "name", .text "key"] [.text "mode"] (.bool true)
    Reordered steps sorted ∧
      ∃ b c, empty.after steps = .ok b ∧ empty.after sorted = .ok c ∧
        b.finish = .ok schema ∧ c.finish = .ok schema ∧
        b.perform (.required [.text "size", .text "mode"]) =
          .error (.schema (.alreadyDeclared (.text "mode"))) := by
  intro steps sorted schema
  have named : ∀ step ∈ steps, ∀ key ∈ step.keys, key.namesArgument = true := by
    simp [steps, Step.keys, Value.namesArgument, Keyword.ofValue?]
  have alike : Reordered steps sorted := by
    intro request
    cases request <;> rfl
  have distinct : ((steps.flatMap Step.keys).map Value.key).Nodup := by
    simp [steps, Step.keys, Value.key]
  obtain ⟨b, went⟩ := (after_empty_ok_iff steps).mpr distinct
  obtain ⟨-, -, finished, moved⟩ := chain_exact steps named
  obtain ⟨accepted, same⟩ := moved sorted alike
  obtain ⟨c, gone⟩ := accepted.mpr ⟨b, went⟩
  have made : b.finish = .ok schema := (finished b went).1
  refine ⟨alike, b, c, went, gone, made, (same b c went gone).trans made, ?_⟩
  -- The further step is the last one of a longer chain.
  have further : ∀ step ∈ steps ++ [.required [.text "size", .text "mode"]],
      ∀ key ∈ step.keys, key.namesArgument = true := by
    simp [steps, Step.keys, Value.namesArgument, Keyword.ofValue?]
  have repeats : FirstRepeat (steps.flatMap Step.keys) [.text "size", .text "mode"]
      (Keyword.text "mode").value := by
    refine ⟨[.text "size"], [], rfl, ?_, ?_⟩
    · simp [steps, Step.keys, Value.key]
    · simp [steps, Step.keys, Value.key, Keyword.value]
  obtain ⟨refused, -⟩ := chain_exact _ further
  exact ((refused steps [] _ b rfl went).2 _).mpr ⟨.text "mode", repeats, rfl⟩

/-- A chain and the definition from its lists refuse the same declarations. The fault
of a chain is one of the schema, except where the first key that is declared a second
time is no keyword. -/
theorem build_faults_exact (steps : List Step) :
    let required := steps.flatMap Step.requiredKeys
    let optional := steps.flatMap Step.optionalKeys
    (∀ (x y : Identity) (others : Value), (∃ fault, build steps = .error fault) ↔
      ∃ fault, Schema.define (.list x required) (.list y optional) others = .error fault) ∧
    ∀ fault, build steps = .error fault →
      ((∃ offence, fault = .schema offence) ↔
        ∀ key, FirstRepeat [] (steps.flatMap Step.keys) key → key.namesArgument = true) := by
  intro required optional
  rcases build_cases steps with ⟨distinct, same⟩ | ⟨key, repeats, refused⟩
  · refine ⟨fun x y others => ?_, fun fault failed => ?_⟩
    · rw [same]
      simp only [Schema.define_lists_eq_error_iff]
      rfl
    · rw [same] at failed
      obtain ⟨-, offence, rfl, -⟩ := Schema.define_lists_eq_error_iff.mp failed
      exact iff_of_true ⟨offence, rfl⟩ fun key repeats => absurd distinct repeats.not_nodup
  · refine ⟨fun x y others => iff_of_true ⟨_, refused⟩ ?_, fun fault failed => ?_⟩
    · cases defined : Schema.define (.list x required) (.list y optional) others with
      | error fault => exact ⟨fault, rfl⟩
      | ok made =>
        have distinct := (Schema.define_lists_eq_ok_iff.mp defined).2
        exact absurd ((distinctKeywords_steps steps).mp distinct).distinct repeats.not_nodup
    · cases refused.symm.trans failed
      rw [repeatFault_schema_iff]
      exact ⟨fun names other too => repeats.unique too ▸ names, fun all => all key repeats⟩

/-- A key that is no keyword may be repeated behind one that is: the keyword is what
the chain ends at. -/
theorem build_faults_exact_nameless :
    let required : List Value := [.null, .text "name"]
    let optional : List Value := [.text "name", .null]
    let steps : List Step := [.required required, .others .null, .optional optional]
    FirstRepeat [] (steps.flatMap Step.keys) (.text "name") ∧
      (∃ offence, build steps = .error (.schema offence)) ∧
      ∃ fault, Schema.define (.list .merged required) (.list .merged optional) .null =
        .error fault := by
  intro required optional steps
  have repeats : FirstRepeat [] (steps.flatMap Step.keys) (.text "name") :=
    ⟨[.null, .text "name"], [.null], rfl, by simp [Value.key], by simp⟩
  obtain ⟨alike, kinds⟩ := build_faults_exact steps
  have failed : build steps = .error (.schema (.alreadyDeclared (.text "name"))) := rfl
  obtain ⟨offence, same⟩ := (kinds _ failed).mpr fun key too => too.unique repeats ▸ rfl
  exact ⟨repeats, ⟨offence, failed.trans (congrArg _ same)⟩,
    (alike .merged .merged .null).mp ⟨_, failed⟩⟩

/-- A chain ends at a repeated null with a complaint about null. The definition
complains of a key that is no keyword. -/
theorem nameless_repeat_unprintable :
    build [.required [.null, .null]] = .error (.wrongType .null "null") ∧
      Schema.define (.list .merged [.null, .null]) (.list .merged []) .undefined =
        .error (.schema (.notKeyword "object")) :=
  ⟨rfl, rfl⟩

end NamedArguments.Builder
