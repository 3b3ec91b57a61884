import NamedArguments.Proofs.EnvironmentTrees
import NamedArguments.Proofs.LayerAlgebra
import NamedArguments.Proofs.LayeredLookup
import NamedArguments.Proofs.SessionSteps

/-! Sets one after the other, where files and sets give trees. Such sets never go
wrong on settings that can be loaded, and what is in effect after them depends on
the program's layer as a tree alone. So the algebra of layers tells when a set
comes to nothing and when two sets come to one. -/
namespace NamedArguments

namespace Settings

/-- Settings whose layers are trees. -/
structure Loaded.Trees (loaded : Loaded) : Prop where
  file : ObjectTree loaded.file
  program : ObjectTree loaded.programmatic

/-- Files that give a tree of settings, or none. -/
def GivesTree (finder : Finder) : Prop := ObjectTree finder.settings

variable {loaded : Loaded} {environment : Environment} {file program other values : Value}

/-- What is in effect depends on the program's layer as a tree. -/
theorem combine_congr (fileHeld : ObjectTree file) (held : ObjectTree program)
    (heldToo : ObjectTree other) (same : SameTree program other) (environment : Environment) :
    SameTree (combine file program environment) (combine file other environment) := by
  have lower := objectTree_layer objectTree_defaults.tree fileHeld
  have top := objectTree_environmentLayer environment
  exact layer_congr (isRecord_layer _ _)
    (layer_congr (isRecord_layer _ _) (.refl lower.tree) same held heldToo) (.refl top.tree) top top

theorem objectTree_foldl (held : ObjectTree program) {sets : List Value}
    (trees : ∀ values ∈ sets, ObjectTree values) : ObjectTree (sets.foldl layer program) := by
  induction sets generalizing program with
  | nil => exact held
  | cons values rest ih =>
    exact ih (objectTree_layer held.tree (trees values (by simp))) fun other member =>
      trees other (List.mem_cons_of_mem _ member)

/-- The settings that a set of a tree leads to. -/
def Loaded.laid (loaded : Loaded) (values : Value) (environment : Environment) : Loaded :=
  { loaded with
    programmatic := layer loaded.programmatic values
    effective := combine loaded.file (layer loaded.programmatic values) environment }

theorem Loaded.Trees.laid (trees : loaded.Trees) (held : ObjectTree values) :
    (loaded.laid values environment).Trees :=
  ⟨trees.file, objectTree_layer trees.program.tree held⟩

theorem Loaded.Trees.extend (trees : loaded.Trees) (held : ObjectTree values)
    (environment : Environment) :
    loaded.extend values environment = (.ok (), loaded.laid values environment) := by
  have given : values.isGiven = true := by
    obtain ⟨identity, parent, _, same⟩ := held.plain
    rw [same]
    rfl
  have laid := objectTree_layer trees.program.tree held
  have fits := combineRefused_trees trees.file laid environment
  simp only [Loaded.extend, given, layerRefused_tree _ held, fits, Bool.not_true, Bool.or_false,
    Bool.false_eq_true, if_false]
  rfl

theorem upheld_trees : Session.Upheld GivesTree ObjectTree Loaded.Trees where
  load held load := by
    obtain ⟨found, given, _, rfl, _⟩ := load_ok.mp load
    exact ⟨Finder.settings_of_layer given ▸ held, objectTree_empty⟩
  extend trees held := by
    rw [trees.extend held]
    exact trees.laid held

/-- The program's layer, which is empty before settings are loaded. -/
def programOf (store : Store) : Value := (store.settings?.map Loaded.programmatic).getD empty

theorem programOf_ensure {around : Surroundings} {store : Store} {lines : List Line}
    (ready : ensure around store = .ok (loaded, lines)) :
    programOf store = loaded.programmatic := by
  cases store with
  | unloaded remains =>
    obtain ⟨_, _, _, rfl, _⟩ := load_ok.mp ready
    rfl
  | loaded known =>
    cases ready
    rfl

end Settings

namespace Session

open Settings

variable {session : Session} {loaded : Loaded}

/-- A set of a tree is done, and the next operation finds the settings extended. -/
theorem answers_opened_set (trees : loaded.Trees) {values : Value} (held : ObjectTree values)
    (more : List Operation) :
    (session.opened loaded).answers (.set values :: more) =
      .done :: (session.opened (loaded.laid values session.around.environment)).answers more :=
  answers_opened_done (trees.extend held session.around.environment) more

/-- Operations that set one thing after the other and then look at all settings. -/
def setsThenAll (sets : List Value) : List Operation := sets.map .set ++ [.all]

theorem answers_opened_sets (trees : loaded.Trees)
    (inEffect : loaded.effective =
      combine loaded.file loaded.programmatic session.around.environment)
    (sets : List Value) (held : ∀ values ∈ sets, ObjectTree values) :
    (session.opened loaded).answers (setsThenAll sets) =
      sets.map (fun _ => .done) ++ [.value (combine loaded.file
        (sets.foldl layer loaded.programmatic) session.around.environment)] := by
  induction sets generalizing loaded with
  | nil => exact congrArg (fun v => [Answer.value v]) inEffect
  | cons values rest ih =>
    have first := held values (by simp)
    have laid := ih (trees.laid first) rfl fun other member =>
      held other (List.mem_cons_of_mem _ member)
    rw [setsThenAll, List.map_cons, List.cons_append, answers_opened_set trees first]
    exact congrArg (Answer.done :: ·) laid

/-- Sets of trees are done, and bring all of the program's layer into effect. -/
theorem answers_sets {lines : List Line}
    (ready : Settings.ensure session.around session.store = .ok (loaded, lines))
    (trees : loaded.Trees) {sets : List Value} (some : sets ≠ [])
    (held : ∀ values ∈ sets, ObjectTree values) :
    session.answers (setsThenAll sets) =
      sets.map (fun _ => .done) ++ [.value (combine loaded.file
        (sets.foldl layer loaded.programmatic) session.around.environment)] := by
  cases sets with
  | nil => exact absurd rfl some
  | cons values rest =>
    have first := held values (by simp)
    have extended : (loaded.laid values session.around.environment).Trees := trees.laid first
    have laid := answers_opened_sets extended rfl rest fun other member =>
      held other (List.mem_cons_of_mem _ member)
    rw [setsThenAll, List.map_cons, List.cons_append, answers_of_loading rfl ready,
      answers_opened_set trees first]
    exact congrArg (Answer.done :: ·) laid

/-- Sets and looks that cannot load the settings. -/
theorem answers_unloaded {stop : Stop}
    (stuck : Settings.ensure session.around session.store = .error stop) (sets : List Value) :
    session.answers (setsThenAll sets) = (setsThenAll sets).map fun _ => .fault stop.fault := by
  have each : ∀ (operation : Operation) (more : List Operation) {session : Session},
      Settings.ensure session.around session.store = .error stop → operation.accesses = true →
      operation.answerUnloaded stop.fault = .fault stop.fault →
      session.answers (operation :: more) = .fault stop.fault ::
        { session with store := .unloaded stop.remains }.answers more := by
    intro operation more session stuck uses faulty
    obtain ⟨same, -, answer⟩ := perform_of_unloaded uses stuck
    simp only [answers, events, List.map_cons, Event.effect, answer, same, faulty]
  induction sets generalizing session with
  | nil => exact each .all [] stuck rfl rfl
  | cons values rest ih =>
    exact (each (.set values) _ stuck rfl rfl).trans (congrArg _ (ih (ensure_remains stuck)))

/-- Two series of sets, each followed by a look at all settings, come to the same:
all sets are done and what is in effect is the same tree, or the settings cannot be
loaded and every operation gives that fault. -/
def AgreeAfter (session : Session) (sets others : List Value) : Prop :=
  (∃ v w, session.answers (setsThenAll sets) = sets.map (fun _ => .done) ++ [.value v] ∧
    session.answers (setsThenAll others) = others.map (fun _ => .done) ++ [.value w] ∧
    SameTree v w) ∨
  ∃ stop, Settings.ensure session.around session.store = .error stop ∧
    ∀ series ∈ [sets, others],
      session.answers (setsThenAll series) = (setsThenAll series).map fun _ => .fault stop.fault

/-- Series that make the same tree of the program's layer agree. -/
theorem agreeAfter_of_sameTree
    (holds : session.Holds GivesTree Loaded.Trees) {sets others : List Value}
    (some : sets ≠ []) (someToo : others ≠ [])
    (held : ∀ values ∈ sets ++ others, ObjectTree values)
    (same : SameTree (sets.foldl layer (programOf session.store))
      (others.foldl layer (programOf session.store))) : session.AgreeAfter sets others := by
  cases ready : Settings.ensure session.around session.store with
  | error stop => exact Or.inr ⟨stop, ready, fun series _ => answers_unloaded ready series⟩
  | ok result =>
    obtain ⟨loaded, lines⟩ := result
    have trees := holds.ensure upheld_trees ready
    have here : ∀ values ∈ sets, ObjectTree values := fun values member =>
      held values (List.mem_append_left _ member)
    have there : ∀ values ∈ others, ObjectTree values := fun values member =>
      held values (List.mem_append_right _ member)
    rw [programOf_ensure ready] at same
    refine Or.inl ⟨_, _, answers_sets ready trees some here,
      answers_sets ready trees someToo there, ?_⟩
    exact combine_congr trees.file (objectTree_foldl trees.program here)
      (objectTree_foldl trees.program there) same _

theorem tree_programOf (holds : session.Holds GivesTree Loaded.Trees) :
    ObjectTree (programOf session.store) := by
  unfold programOf
  cases found : session.store with
  | unloaded => exact objectTree_empty
  | loaded loaded => exact (holds.store loaded found).program

end Session

open Settings

/-- Trees can be laid over one another and make trees. A layer laid twice is laid
once, and layers may be laid in groups where the one between does not clash with the
others. So in any session whose files and sets give trees, a set that is repeated
changes nothing, and two sets come to one of both layers, unless the first clashes
with the second and what the program had set before. -/
theorem layers_algebra :
    (∀ lower upper, ObjectTree lower → ObjectTree upper →
      layerRefused lower upper = false ∧ ObjectTree (layer lower upper)) ∧
    (∀ t s, ObjectTree t → ObjectTree s → SameTree (layer (layer t s) s) (layer t s)) ∧
    (∀ a b c, ObjectTree a → ObjectTree b → ObjectTree c → ¬ Clash a b c →
      SameTree (layer (layer a b) c) (layer a (layer b c))) ∧
    ∀ (around : Surroundings) (operations : List Operation),
      GivesTree around.finder → (∀ finder, .files finder ∈ operations → GivesTree finder) →
      (∀ values, .set values ∈ operations → ObjectTree values) →
      let now := (Session.fresh around).after operations
      (∀ v, ObjectTree v → now.AgreeAfter [v, v] [v]) ∧
      ∀ a b, ObjectTree a → ObjectTree b → ¬ Clash (programOf now.store) a b →
        now.AgreeAfter [a, b] [layer a b] := by
  refine ⟨?_, fun t s below above => layer_again below above, fun a b c first second third peace =>
    layer_assoc first second third peace, ?_⟩
  · exact fun lower upper below above =>
      ⟨layerRefused_tree lower above, objectTree_layer below.tree above⟩
  · intro around operations file finders sets now
    have start : (Session.fresh around).Holds GivesTree Loaded.Trees := ⟨file, nofun⟩
    have holds := start.after upheld_trees sets finders
    have program := Session.tree_programOf holds
    refine ⟨fun v held => ?_, fun a b first second peace => ?_⟩
    · exact Session.agreeAfter_of_sameTree holds (by simp) (by simp) (by simp [held])
        (layer_again program held)
    · refine Session.agreeAfter_of_sameTree holds (by simp) (by simp) ?_
        (layer_assoc program first second peace)
      simpa using ⟨first, second, objectTree_layer first.tree second⟩

/-- After a set of a color, a level and a flag are set. Neither is in the way of
the other, since all that the flag has is no object. -/
theorem layers_algebra_flag :
    let color := Value.plain (.written 0) [("log", .plain (.written 1) [("color", .text "red")])]
    let level := Value.plain (.written 2) [("log", .plain (.written 3) [("level", .text "info")])]
    let flag := Value.plain (.written 4) [("debug", .bool true)]
    let now := (Session.fresh ⟨[], .empty⟩).after [.set color]
    (∀ v ∈ [color, level, flag], ObjectTree v) ∧ ¬ Clash (programOf now.store) level flag ∧
      SameTree (layer (layer color level) level) (layer color level) ∧
      SameTree (layer (layer color level) flag) (layer color (layer level flag)) ∧
      now.AgreeAfter [level, level] [level] ∧ now.AgreeAfter [level, flag] [layer level flag] := by
  intro color level flag now
  have within : ∀ (identity : Identity) (name : String) (v : Value), name ≠ Value.parentName →
      Tree v → ObjectTree (.plain identity [(name, v)]) := fun identity _ _ apart =>
    objectTree_single identity apart
  have first : ObjectTree color :=
    within _ "log" _ (by decide) (within _ "color" _ (by decide) (.leaf rfl)).tree
  have second : ObjectTree level :=
    within _ "log" _ (by decide) (within _ "level" _ (by decide) (.leaf rfl)).tree
  have third : ObjectTree flag := within _ "debug" _ (by decide) (.leaf rfl)
  have peace : ∀ low, ¬ Clash low level flag := by
    rintro low ⟨path, u, v, w, -, -, middle, bare, high, object⟩
    cases path with
    | nil =>
      cases middle
      cases bare
    | cons name rest =>
      obtain ⟨leaf, found, reached⟩ := Option.bind_eq_some_iff.mp high
      obtain ⟨-, rfl⟩ : name = "debug" ∧ leaf = .bool true := by
        simpa [flag, Value.plain, Value.ownMembers, Members.lookup_cons, eq_comm] using found
      cases rest with
      | nil =>
        cases reached
        cases object
      | cons => cases reached
  obtain ⟨-, again, grouped, sessions⟩ := layers_algebra
  obtain ⟨repeated, joined⟩ := sessions ⟨[], .empty⟩ [.set color] objectTree_empty (by simp)
    (by simpa using first)
  exact ⟨by simpa using ⟨first, second, third⟩, peace _, again _ _ first second,
    grouped _ _ _ first second third (peace _), repeated _ second,
    joined _ _ second third (peace _)⟩

end NamedArguments
