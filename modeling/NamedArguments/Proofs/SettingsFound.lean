import NamedArguments.Proofs.SettingsHistory
import NamedArguments.Proofs.EnvironmentTrees

/-! What an operation finds that reads the settings. The four layers in effect are
told from what has happened if the settings are loaded, and otherwise are those
that the reading itself would load. -/
namespace NamedArguments

open Settings (Loaded Environment Finder ObjectTree combine combineRefused)

/-- The settings of the file that are in effect, or that would be loaded. -/
def fileFound (now : Session) : List Event → Value
  | [] => now.around.finder.settings
  | loading :: _ => loading.before.around.finder.settings

/-- What sets have made up to the last that went through, which is in effect. -/
def programFound (events : List Event) : Value := laid (untilLastSet events)

/-- The environment as it was last read, or as it would be read. -/
def environmentFound (now : Session) : List Event → Environment
  | [] => now.around.environment
  | loading :: rest => (lastReading loading (loading :: rest)).before.around.environment

theorem Settings.Found.isRecord_layer (found : Settings.Found) :
    found.layer.settings.isRecord = true := by
  unfold layer
  split
  next object => exact (Bool.and_eq_true_iff.mp object).2
  next => rfl

/-- Whatever a search comes to, what it gives as settings is an object. -/
theorem Settings.Finder.isRecord_settings (finder : Finder) : finder.settings.isRecord = true := by
  unfold settings
  split
  next found given =>
    obtain ⟨-, ⟨file, -, rfl⟩ | ⟨-, rfl⟩ | ⟨_, _, -, -, rfl⟩⟩ := layer_ok given
    · exact file.isRecord_layer
    · rfl
    · rfl
  next => rfl

theorem isRecord_fileFound (now : Session) (since : List Event) :
    (fileFound now since).isRecord = true := by
  cases since <;> exact Finder.isRecord_settings _

theorem isRecord_programFound (since : List Event) : (programFound since).isRecord = true := by
  unfold programFound laid
  induction (untilLastSet since).filterMap Event.values? using List.reverseRecOn with
  | nil => rfl
  | append_singleton sets values ih =>
    rw [List.foldl_concat, Settings.lay]
    split
    · exact ih
    · exact Settings.isRecord_layer _ _

/-- What is in effect for an operation that reads is made of the layers found. -/
theorem effective_found (around : Settings.Surroundings) (operations : List Operation)
    {loaded : Loaded} {lines : List Line} :
    let since := sinceLoaded ((Session.fresh around).events operations)
    let now := (Session.fresh around).after operations
    Settings.ensure now.around now.store = .ok (loaded, lines) →
      loaded.file = fileFound now since ∧
        loaded.effective =
          combine (fileFound now since) (programFound since) (environmentFound now since) := by
  intro since now ready
  rcases told_of_run around operations with
    ⟨nothing, remains, store⟩ | ⟨loading, rest, told, happened, store, tells⟩
  · rw [show now.store = .unloaded remains from store] at ready
    obtain ⟨found, given, _, rfl, _⟩ := Settings.load_ok.mp ready
    simp only [since, nothing, fileFound, Finder.settings_of_layer given, true_and]
    rfl
  · rw [show now.store = .loaded told from store] at ready
    cases ready
    have effect := tells.effect
    rw [tells.file] at effect
    simp only [since, happened]
    exact ⟨tells.file, effect⟩

/-- Trees can be laid over one another. -/
theorem Settings.combineRefused_trees {file program : Value} (fileHeld : ObjectTree file)
    (held : ObjectTree program) (environment : Environment) :
    combineRefused file program environment = false := by
  simp [combineRefused, layerRefused_tree _ fileHeld, layerRefused_tree _ held,
    layerRefused_tree _ (objectTree_environmentLayer environment)]

/-- Where there are no files, settings can be loaded. -/
theorem Settings.load_without_files (environment : Environment) (before : Remains) :
    ∃ loaded, load ⟨environment, .empty⟩ before = .ok (loaded, []) :=
  ⟨_, load_ok.mpr ⟨.none none, rfl, combineRefused_trees objectTree_empty objectTree_empty _, rfl,
    rfl⟩⟩

/-- Settings are found that are loaded, or that the files give as a tree. -/
theorem exists_found (around : Settings.Surroundings) (operations : List Operation) :
    let since := sinceLoaded ((Session.fresh around).events operations)
    let now := (Session.fresh around).after operations
    ObjectTree (fileFound now since) →
      (since = [] → ∃ found, now.around.finder.layer = .ok found) →
      ∃ loaded lines, Settings.ensure now.around now.store = .ok (loaded, lines) := by
  intro since now tree given
  rcases told_of_run around operations with
    ⟨nothing, remains, store⟩ | ⟨loading, rest, told, happened, store, tells⟩
  · obtain ⟨found, layered⟩ := given nothing
    simp only [since, nothing, fileFound, Finder.settings_of_layer layered] at tree
    have fits := Settings.combineRefused_trees tree Settings.objectTree_empty now.around.environment
    rw [show now.store = .unloaded remains from store]
    exact ⟨_, _, Settings.load_ok.mpr ⟨found, layered, fits, rfl, rfl⟩⟩
  · rw [show now.store = .loaded told from store]
    exact ⟨told, [], rfl⟩

namespace Session

variable {session : Session} {loaded : Loaded} {lines : List Line}

/-- What is read at a path. -/
theorem perform_get (ready : Settings.ensure session.around session.store = .ok (loaded, lines))
    (path : String) :
    (session.perform (.get path)).answer =
      if loaded.refuses path then .fault .unsupported else .value (loaded.at path) := by
  rw [perform_of_loading rfl ready]
  simp only [Effect.behind, perform, accessed, Settings.get, Settings.readAt, ensure_opened]
  cases loaded.refuses path <;> rfl

/-- Whether what is read at a path holds. -/
theorem perform_has (ready : Settings.ensure session.around session.store = .ok (loaded, lines))
    (path : String) :
    (session.perform (.has path)).answer =
      if loaded.refuses path then .fault .unsupported else .flag (loaded.at path).isTruthy := by
  rw [perform_of_loading rfl ready]
  simp only [Effect.behind, perform, accessed, Settings.has, Settings.readAt, ensure_opened]
  cases loaded.refuses path <;> rfl

end Session
end NamedArguments
