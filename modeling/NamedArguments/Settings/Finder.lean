import NamedArguments.Fault

/-!
Looking for a configuration file. What making ready for the search comes to, and
what the search comes to, is given: either may throw, and the search may find a
file with the value that it holds. Only an object is settings. What is thrown while
making ready stops the loading of settings. What the search throws is told in a
message instead, and that may throw once more.
-/
namespace NamedArguments.Settings

/-- A file that a search comes upon. -/
structure Found where
  path : String
  config : Value
  isEmpty : Bool

/-- What a search throws, by how it can be told: whether it is a failure, and what
comes of writing its message and the value itself into a text. -/
structure Thrown where
  isFailure : Bool
  message : Except Value String
  text : Except Value String

/-- What is told of a thrown value: the message of a failure, and any other value by
its text. -/
def Thrown.reason (thrown : Thrown) : Except Value String :=
  if thrown.isFailure then thrown.message else thrown.text

/-- What looking for a configuration file comes to with the files as they are:
making ready for the search, and the search itself. -/
structure Finder where
  start : Except Value Unit
  find : Except Thrown (Option Found)

/-- There is no configuration file. -/
def Finder.empty : Finder := { start := .ok (), find := .ok none }

/-- What a search comes to: settings, where they stand, and why a file that
was met could not be loaded. -/
structure FileLayer where
  settings : Value
  origin : Option String
  failure : Option String

/-- No settings. -/
def FileLayer.none (failure : Option String) : FileLayer :=
  { settings := Value.plain .merged [], origin := .none, failure }

/-- The layer that a file gives which is found. Only an object is settings; anything
else counts as none, silently. -/
def Found.layer (found : Found) : FileLayer :=
  if !found.isEmpty && found.config.isRecord then
    { settings := found.config, origin := some found.path, failure := none }
  else .none none

/-- The layer that the files give. Where the search throws there are no settings but
the reason, and where that cannot be told there is no layer at all. -/
def Finder.layer (finder : Finder) : Except Fault FileLayer :=
  match finder.start with
  | .error thrown => .error (.thrown thrown)
  | .ok () =>
    match finder.find with
    | .error thrown =>
      match thrown.reason with
      | .ok reason => .ok (.none (some reason))
      | .error again => .error (.thrown again)
    | .ok (some found) => .ok found.layer
    | .ok none => .ok (.none none)

/-- A layer is that of a file that is found, or it is empty: because nothing is found, or
because the search throws what can be told. -/
theorem Finder.layer_ok {finder : Finder} {found : FileLayer} (given : finder.layer = .ok found) :
    finder.start = .ok () ∧
      ((∃ file, finder.find = .ok (some file) ∧ found = file.layer) ∨
        (finder.find = .ok none ∧ found = .none none) ∨
        ∃ thrown reason, finder.find = .error thrown ∧ thrown.reason = .ok reason ∧
          found = .none (some reason)) := by
  unfold layer at given
  split at given
  · cases given
  next ready =>
    refine ⟨ready, ?_⟩
    split at given
    next thrown failed =>
      split at given <;> cases given
      next reason told => exact Or.inr (Or.inr ⟨thrown, reason, failed, told, rfl⟩)
    next file met =>
      cases given
      exact Or.inl ⟨file, met, rfl⟩
    next nothing =>
      cases given
      exact Or.inr (Or.inl ⟨nothing, rfl⟩)

/-- A value gets out of a search: it is thrown while making ready, or while telling
what the search has thrown. -/
inductive Finder.Surfaces (finder : Finder) (thrown : Value) : Prop where
  | start (stuck : finder.start = .error thrown)
  | telling {first : Thrown} (ready : finder.start = .ok ()) (failed : finder.find = .error first)
      (untold : first.reason = .error thrown)

theorem Finder.layer_error {finder : Finder} {fault : Fault} :
    finder.layer = .error fault ↔ ∃ thrown, finder.Surfaces thrown ∧ fault = .thrown thrown := by
  constructor
  · intro stuck
    unfold layer at stuck
    split at stuck
    next thrown start =>
      cases stuck
      exact ⟨thrown, .start start, rfl⟩
    next ready =>
      split at stuck
      next first failed =>
        split at stuck
        · cases stuck
        next again untold =>
          cases stuck
          exact ⟨again, .telling ready failed untold, rfl⟩
      · cases stuck
      · cases stuck
  · rintro ⟨thrown, surfaces, rfl⟩
    cases surfaces with
    | start stuck => simp only [layer, stuck]
    | telling ready failed untold => simp only [layer, ready, failed, untold]

/-- A search gives a layer just where nothing gets out of it. -/
theorem Finder.exists_layer {finder : Finder} :
    (∃ found, finder.layer = .ok found) ↔ ∀ thrown, ¬ finder.Surfaces thrown := by
  constructor
  · rintro ⟨found, given⟩ thrown surfaces
    cases given.symm.trans (layer_error.mpr ⟨thrown, surfaces, rfl⟩)
  · intro clear
    cases given : finder.layer with
    | ok found => exact ⟨found, rfl⟩
    | error fault =>
      obtain ⟨thrown, surfaces, _⟩ := layer_error.mp given
      exact absurd surfaces (clear thrown)

end NamedArguments.Settings
