import NamedArguments.Extraction

/-! Extractions over mappings that answer alike. Two mappings match when states
that are alike answer the same and lead to states that are alike; what they say
when a key is removed is left open, and their lists of keys need only be alike
too. An extraction then takes the same course over both, because it never uses
the answer to a removal and does not go by the order of the keys. -/
namespace NamedArguments

variable {σ τ : Type}

/-- Lists of keys are alike in a way that stays when keys are left out of both,
and that tells of how many they are. -/
structure Listings (listing : List Value → List Value → Prop) : Prop where
  filter : ∀ {one other : List Value} (kept : Value → Bool),
    listing one other → listing (one.filter kept) (other.filter kept)
  length : ∀ {one other : List Value}, listing one other → one.length = other.length

/-- A mapping answers as another does in states that are alike. Answers to
removals need not agree. -/
structure Mapping.Matches (one : Mapping σ) (other : Mapping τ) (like : σ → τ → Prop)
    (listing : List Value → List Value → Prop) : Prop where
  lookup : ∀ key {s : σ} {t : τ}, like s t →
    (one.lookup key s).1 = (other.lookup key t).1 ∧ like (one.lookup key s).2 (other.lookup key t).2
  erase : ∀ key {s : σ} {t : τ}, like s t → like (one.erase key s).2 (other.erase key t).2
  size : ∀ {s : σ} {t : τ}, like s t →
    (one.size s).1 = (other.size t).1 ∧ like (one.size s).2 (other.size t).2
  keys : ∀ {s : σ} {t : τ}, like s t →
    listing (one.keys s).1 (other.keys t).1 ∧ like (one.keys s).2 (other.keys t).2

/-- Two mappings match, or there is none on either side. -/
inductive Mapping.MatchesIfAny (like : σ → τ → Prop) (listing : List Value → List Value → Prop) :
    Option (Mapping σ) → Option (Mapping τ) → Prop where
  | none : MatchesIfAny like listing none none
  | some {one : Mapping σ} {other : Mapping τ} (matching : one.Matches other like listing) :
      MatchesIfAny like listing (some one) (some other)

namespace Extraction

/-- Extractions over two mappings have come equally far. -/
structure Progress.Like (like : σ → τ → Prop) (one : Progress σ) (other : Progress τ) : Prop where
  mapping : like one.mapping other.mapping
  buffer : one.buffer = other.buffer
  found : one.found = other.found

/-- Extractions end in the same way, or with faults of unknown keys that are alike. -/
inductive SameOutcome (listing : List Value → List Value → Prop) :
    Except Fault Nat → Except Fault Nat → Prop where
  | same (outcome : Except Fault Nat) : SameOutcome listing outcome outcome
  | unknown {one other : List Value} (alike : listing one other) :
      SameOutcome listing (.error (Fault.raised (Fault.ofUnknown one)))
        (.error (Fault.raised (Fault.ofUnknown other)))

structure Ending.Like (like : σ → τ → Prop) (listing : List Value → List Value → Prop)
    (one : Ending σ) (other : Ending τ) : Prop where
  outcome : SameOutcome listing one.outcome other.outcome
  mapping : like one.mapping other.mapping
  buffer : one.buffer = other.buffer
  report : one.report = other.report

structure Result.Like (like : σ → τ → Prop) (listing : List Value → List Value → Prop)
    (one : Result σ) (other : Result τ) : Prop where
  outcome : SameOutcome listing one.outcome other.outcome
  mapping : like one.mapping other.mapping
  buffer : one.buffer = other.buffer
  store : one.store = other.store
  lines : one.lines = other.lines

section
variable {like : σ → τ → Prop} {listing : List Value → List Value → Prop}
  {m : Option (Mapping σ)} {n : Option (Mapping τ)} {one : Progress σ} {other : Progress τ}

theorem lookUp_alike (matching : Mapping.MatchesIfAny like listing m n) (consume : Bool)
    (key : Value) {s : σ} {t : τ} (alike : like s t) :
    (lookUp m consume key s).1 = (lookUp n consume key t).1 ∧
      like (lookUp m consume key s).2 (lookUp n consume key t).2 := by
  cases matching with
  | none => exact ⟨rfl, alike⟩
  | some matching =>
    obtain ⟨answer, after⟩ := matching.lookup key alike
    simp only [lookUp, answer]
    split
    · exact ⟨rfl, matching.erase key after⟩
    · exact ⟨rfl, after⟩

theorem visit_alike (matching : Mapping.MatchesIfAny like listing m n) (modes : Modes)
    (slot : Option Nat) (key : Value) (alike : one.Like like other) :
    (visit m modes slot key one).1 = (visit n modes slot key other).1 ∧
      (visit m modes slot key one).2.Like like (visit n modes slot key other).2 := by
  obtain ⟨answer, after⟩ := lookUp_alike matching modes.consume key alike.mapping
  refine ⟨answer, after, ?_, ?_⟩
  · simp only [visit, answer, alike.buffer]
  · simp only [visit, answer, alike.found]

theorem requiredPass_alike (matching : Mapping.MatchesIfAny like listing m n) (modes : Modes)
    (index : Nat) (keys : List Value) (alike : one.Like like other) :
    (requiredPass m modes index keys one).2 = (requiredPass n modes index keys other).2 ∧
      (requiredPass m modes index keys one).1.Like like
        (requiredPass n modes index keys other).1 := by
  induction keys generalizing index one other with
  | nil => exact ⟨rfl, alike⟩
  | cons key rest ih =>
    obtain ⟨answer, after⟩ := visit_alike matching modes (some index) key alike
    simp only [requiredPass, answer]
    split
    · exact ⟨rfl, after⟩
    · exact ih (index + 1) after

theorem optionalPass_alike (matching : Mapping.MatchesIfAny like listing m n) (modes : Modes)
    (base : Extent) (index : Nat) (keys : List Value) (alike : one.Like like other) :
    (optionalPass m modes base index keys one).2 = (optionalPass n modes base index keys other).2 ∧
      (optionalPass m modes base index keys one).1.Like like
        (optionalPass n modes base index keys other).1 := by
  induction keys generalizing index one other with
  | nil => exact ⟨rfl, alike⟩
  | cons key rest ih =>
    simp only [optionalPass]
    cases base.slot? index with
    | some slot => exact ih (index + 1) (visit_alike matching modes slot key alike).2
    | none =>
      have after := lookUp_alike matching modes.consume key alike.mapping
      exact ⟨rfl, after.2, alike.buffer, alike.found⟩

theorem failWith_alike (fault : Fault) (report : Option String) (alike : one.Like like other) :
    (failWith one fault report).Like like listing (failWith other fault report) :=
  ⟨.same _, alike.mapping, alike.buffer, rfl⟩

theorem succeed_alike (modes : Modes) (total : Extent) (alike : one.Like like other) :
    (succeed modes total one).Like like listing (succeed modes total other) := by
  refine ⟨?_, alike.mapping, ?_, ?_⟩
  · simp only [succeed, alike.found]
    exact .same _
  · simp only [succeed, alike.found, alike.buffer]
  · simp only [succeed, alike.found]

theorem missingKey_alike (key : Value) (alike : one.Like like other) :
    (missingKey one key).Like like listing (missingKey other key) := by
  unfold missingKey
  cases key.printedName with
  | error fault => exact failWith_alike fault none alike
  | ok name => exact failWith_alike _ _ alike

theorem leftOver_alike (listings : Listings listing) {keys others : List Value}
    (listed : listing keys others) (alike : one.Like like other) :
    (leftOver one keys).Like like listing (leftOver other others) :=
  ⟨.unknown listed, alike.mapping, alike.buffer, by
    simp only [leftOver, failWith, listings.length listed]⟩

theorem checkRest_alike (listings : Listings listing) {m : Mapping σ} {n : Mapping τ}
    (matching : m.Matches n like listing) (modes : Modes) (schema : Schema) (total : Extent)
    (alike : one.Like like other) :
    (checkRest m modes schema total one).Like like listing
      (checkRest n modes schema total other) := by
  obtain ⟨size, asked⟩ := matching.size alike.mapping
  have sized : (askSize m modes one).1 = (askSize n modes other).1 ∧
      (askSize m modes one).2.Like like (askSize n modes other).2 :=
    ⟨by simp only [askSize, size, alike.found], asked, alike.buffer, alike.found⟩
  unfold checkRest
  split
  · exact succeed_alike modes total alike
  · revert sized
    rcases askSize m modes one with ⟨exceeds, one⟩
    rcases askSize n modes other with ⟨_, other⟩
    rintro ⟨rfl, alike⟩
    cases exceeds with
    | false => exact succeed_alike modes total alike
    | true =>
      cases schema.keywords with
      | error fault => exact failWith_alike fault none alike
      | ok declared =>
        obtain ⟨keys, listed⟩ := matching.keys alike.mapping
        exact leftOver_alike listings (listings.filter _ keys) ⟨listed, alike.buffer, alike.found⟩

theorem afterRequired_alike (listings : Listings listing)
    (matching : Mapping.MatchesIfAny like listing m n) (modes : Modes) (schema : Schema)
    (total : Extent) (alike : one.Like like other) :
    (afterRequired m modes schema total one).Like like listing
      (afterRequired n modes schema total other) := by
  cases matching with
  | none => exact succeed_alike modes total alike
  | some matching =>
    simp only [afterRequired]
    cases schema.optional.visited? with
    | none => exact failWith_alike _ none alike
    | some optional =>
      have passed := optionalPass_alike (.some matching) modes schema.required.base 0 optional alike
      simp only
      revert passed
      rcases optionalPass (some _) modes schema.required.base 0 optional one with ⟨one, placed⟩
      rcases optionalPass (some _) modes schema.required.base 0 optional other with ⟨other, _⟩
      rintro ⟨rfl, alike⟩
      cases placed with
      | true => exact checkRest_alike listings matching modes schema total alike
      | false => exact failWith_alike _ none alike

theorem run_alike (listings : Listings listing)
    (matching : Mapping.MatchesIfAny like listing m n) (checked : Bool) (modes : Modes)
    (schema : Schema) (total : Extent) (buffer : Option Buffer) {s : σ} {t : τ} (alike : like s t) :
    (run checked m modes schema total buffer s).Like like listing
      (run checked n modes schema total buffer t) := by
  have start : Progress.Like like { mapping := s, buffer, found := 0 }
      { mapping := t, buffer, found := 0 } := ⟨alike, rfl, rfl⟩
  unfold run
  split
  · exact failWith_alike _ none start
  · cases schema.required.visited? with
    | none => exact failWith_alike _ none start
    | some required =>
      have passed := requiredPass_alike matching modes 0 required start
      simp only
      revert passed
      rcases requiredPass m modes 0 required { mapping := s, buffer, found := 0 } with ⟨one, missing⟩
      rcases requiredPass n modes 0 required { mapping := t, buffer, found := 0 } with ⟨other, _⟩
      rintro ⟨rfl, alike⟩
      cases missing with
      | none => exact afterRequired_alike listings matching modes schema total alike
      | some key => exact missingKey_alike key alike

/-- An extraction takes the same course over mappings that match, from states
that are alike. -/
theorem underSettings_alike (listings : Listings listing)
    (matching : Mapping.MatchesIfAny like listing m n) (around : Settings.Surroundings)
    (store : Settings.Store) (schema : Schema) (buffer : Option Buffer) (request : Request)
    {s : σ} {t : τ} (alike : like s t) :
    (underSettings around store m schema buffer request s).Like like listing
      (underSettings around store n schema buffer request t) := by
  unfold underSettings
  cases schema.total with
  | error fault => exact ⟨.same _, alike, rfl, rfl, rfl⟩
  | ok total =>
    cases Settings.ensure around store with
    | error fault => exact ⟨.same _, alike, rfl, rfl, rfl⟩
    | ok loading =>
      obtain ⟨outcome, mapping, buffer, report⟩ := run_alike listings matching
        (checksBuffers loading.1) (request.modes buffer) schema total buffer alike
      exact ⟨outcome, mapping, buffer, rfl, by simp only [report]⟩

end

end Extraction

/-- A mapping answers as another does, each of its states as the state that it
shows there. Answers to removals need not agree. -/
structure Mapping.Mirrors (image : Mapping τ) (original : Mapping σ) (view : τ → σ) : Prop where
  lookup : ∀ key state,
    original.lookup key (view state) = (image.lookup key state).map id view
  erase : ∀ key state, (original.erase key (view state)).2 = view (image.erase key state).2
  size : ∀ state, original.size (view state) = (image.size state).map id view
  keys : ∀ state, original.keys (view state) = (image.keys state).map id view

/-- A mapping that answers removals in a way of its own. -/
def Mapping.answeringRemovals (m : Mapping σ) (answer : Value → σ → Bool) : Mapping σ :=
  { m with erase := fun key state => (answer key state, (m.erase key state).2) }

theorem Mapping.mirrors_answeringRemovals (m : Mapping σ) (answer : Value → σ → Bool) :
    (m.answeringRemovals answer).Mirrors m id :=
  ⟨fun _ _ => rfl, fun _ _ => rfl, fun _ => rfl, fun _ => rfl⟩

theorem Mapping.mirrors_recorded (m : Mapping σ) : m.recorded.Mirrors m Prod.fst :=
  ⟨fun _ _ => rfl, fun _ _ => rfl, fun _ => rfl, fun _ => rfl⟩

/-- A mapping matches what it mirrors, down to the order of its keys. -/
theorem Mapping.Mirrors.matching {image : Mapping τ} {original : Mapping σ} {view : τ → σ}
    (mirrors : image.Mirrors original view) :
    original.Matches image (fun s t => s = view t) Eq := by
  refine ⟨?_, ?_, ?_, ?_⟩
  · rintro key _ t rfl
    simp [mirrors.lookup]
  · rintro key _ t rfl
    exact mirrors.erase key t
  · rintro _ t rfl
    simp [mirrors.size]
  · rintro _ t rfl
    simp [mirrors.keys]

theorem listings_eq : Listings Eq :=
  ⟨fun kept same => congrArg (List.filter kept) same, fun same => congrArg List.length same⟩

namespace Extraction

/-- The same result over another mapping. -/
def Result.map (view : τ → σ) (result : Result τ) : Result σ :=
  { result with mapping := view result.mapping }

theorem SameOutcome.eq {outcome ended : Except Fault Nat} (same : SameOutcome Eq outcome ended) :
    outcome = ended := by
  cases same with
  | same => rfl
  | unknown alike => rw [alike]

theorem Result.Like.eq_map {view : τ → σ} {one : Result σ} {other : Result τ}
    (alike : one.Like (fun s t => s = view t) Eq other) : one = other.map view := by
  obtain ⟨outcome, mapping, buffer, store, lines⟩ := one
  obtain ⟨ended, rfl, rfl, rfl, rfl⟩ := alike
  obtain rfl := ended.eq
  rfl

/-- An extraction ends the same over a mapping and over one that mirrors it. -/
theorem underSettings_mirrored {image : Mapping τ} {original : Mapping σ} {view : τ → σ}
    (mirrors : image.Mirrors original view) (around : Settings.Surroundings)
    (store : Settings.Store) (schema : Schema) (buffer : Option Buffer) (request : Request)
    (state : τ) :
    underSettings around store (some original) schema buffer request (view state) =
      (underSettings around store (some image) schema buffer request state).map view :=
  (underSettings_alike listings_eq (.some mirrors.matching) around store schema buffer request
    rfl).eq_map

/-- Noting the questions makes no difference to an extraction. -/
theorem underSettings_recorded (around : Settings.Surroundings) (store : Settings.Store)
    (m : Option (Mapping σ)) (schema : Schema) (buffer : Option Buffer) (request : Request)
    (state : σ) (earlier : List Call) :
    (underSettings around store (m.map Mapping.recorded) schema buffer request (state, earlier)).map
      Prod.fst = underSettings around store m schema buffer request state := by
  have matching : Mapping.MatchesIfAny (fun (s : σ) (t : σ × List Call) => s = t.1) Eq m
      (m.map Mapping.recorded) := by
    cases m with
    | none => exact .none
    | some mapping => exact .some mapping.mirrors_recorded.matching
  exact (underSettings_alike listings_eq matching around store schema buffer request
    rfl).eq_map.symm

end Extraction
end NamedArguments
