import Mathlib.Data.List.Chain
import NamedArguments.Proofs.SettingTrees
import NamedArguments.Settings.Environment

/-! What an environment gives is a tree of settings. Double underscores in the
name of a variable are read as dots, so no segment of a path has two of them in
a row; hence none is the parent's name, and each assignment keeps to own members. -/
namespace NamedArguments.Settings

/-- No two underscores stand side by side. -/
def Spaced (cs : List Char) : Prop := cs.IsChain fun a b => ¬ (a = '_' ∧ b = '_')

theorem Spaced.no_pair {cs : List Char} (spaced : Spaced cs) : ¬ ['_', '_'] <:+: cs := by
  intro pair
  have pair : Spaced ['_', '_'] := List.IsChain.infix spaced pair
  rw [Spaced] at pair
  exact absurd pair (by decide)

theorem spaced_dotUnderscores (cs : List Char) :
    Spaced (dotUnderscores cs) ∧ ((dotUnderscores cs).head? = some '_' → cs.head? = some '_') := by
  fun_induction dotUnderscores cs with
  | case1 rest ih =>
    exact ⟨List.isChain_cons.mpr ⟨by simp, ih.1⟩, by simp⟩
  | case2 c rest single ih =>
    refine ⟨List.isChain_cons.mpr ⟨?_, ih.1⟩, by simp⟩
    rintro next follows ⟨rfl, rfl⟩
    obtain ⟨tail, rfl⟩ := List.head?_eq_some_iff.mp (ih.2 follows)
    exact single tail rfl rfl
  | case3 => exact ⟨.nil, by simp⟩

/-- The first of the pieces between dots starts the text, and all of them stand
in it. -/
theorem splitDots_pieces (cs : List Char) :
    ∃ first rest, splitDots cs = first :: rest ∧ first <+: cs ∧ ∀ piece ∈ rest, piece <:+: cs := by
  fun_induction splitDots cs with
  | case1 => exact ⟨[], [], rfl, List.prefix_refl _, by simp⟩
  | case2 rest ih =>
    obtain ⟨first, others, split, starts, inside⟩ := ih
    refine ⟨[], splitDots rest, rfl, List.nil_prefix, fun piece member => ?_⟩
    rw [split] at member
    rcases List.mem_cons.mp member with rfl | member
    · exact starts.isInfix.trans (List.suffix_cons _ _).isInfix
    · exact (inside piece member).trans (List.suffix_cons _ _).isInfix
  | case3 c rest _ none ih =>
    obtain ⟨first, others, split, _⟩ := ih
    rw [split] at none
    cases none
  | case4 c rest _ piece pieces found ih =>
    obtain ⟨first, others, split, starts, inside⟩ := ih
    rw [split] at found
    obtain ⟨rfl, rfl⟩ := List.cons.inj found
    exact ⟨c :: first, others, rfl, (List.prefix_cons_inj c).mpr starts, fun piece member =>
      (inside piece member).trans (List.suffix_cons _ _).isInfix⟩

theorem infix_of_mem_splitDots {cs piece : List Char} (member : piece ∈ splitDots cs) :
    piece <:+: cs := by
  obtain ⟨first, rest, split, starts, inside⟩ := splitDots_pieces cs
  rw [split] at member
  rcases List.mem_cons.mp member with rfl | member
  · exact starts.isInfix
  · exact inside piece member

theorem spaced_segment {name : String} {path : List String}
    (names : variablePath? name = some path) : ∀ segment ∈ path, Spaced segment.toList := by
  obtain ⟨rest, _, rfl⟩ := Option.map_eq_some_iff.mp names
  intro segment member
  obtain ⟨piece, inside, rfl⟩ := List.mem_map.mp member
  rw [String.toList_ofList]
  exact List.IsChain.infix (spaced_dotUnderscores (Text.lower rest)).1 (infix_of_mem_splitDots inside)

/-- No variable names a setting under the parent's name. -/
theorem variablePath?_apart {name : String} {path : List String}
    (names : variablePath? name = some path) : ∀ segment ∈ path, segment ≠ Value.parentName := by
  rintro segment member rfl
  have begins : ['_', '_'] <:+: Value.parentName.toList := ⟨[], "proto__".toList, by decide⟩
  exact (spaced_segment names _ member).no_pair begins

theorem bare_variableValue (text : String) : (variableValue text).isRecord = false := by
  unfold variableValue
  split
  · rfl
  · split
    · rfl
    · split <;> rfl

/-- A property that an object keeps when members are assigned that have it, too. -/
structure Lasting (lasts : Value → Prop) : Prop where
  empty : lasts empty
  own : ∀ {v : Value} {name : String} {w : Value},
    lasts v → v.ownMembers.lookup name = some w → lasts w
  assign : ∀ {v : Value} {name : String} {w : Value},
    lasts v → name ≠ Value.parentName → lasts w → lasts (v.assign name w)

theorem lasting_tree : Lasting Tree :=
  ⟨objectTree_empty.tree, fun tree found => tree.own found,
    fun tree apart grown => tree.assign apart grown⟩

variable {tree value grown loaded : Value} {path : List String} {environment : Environment}

theorem Lasting.put? {lasts : Value → Prop} (lasting : Lasting lasts) (held : lasts tree)
    (new : lasts value) (apart : ∀ segment ∈ path, segment ≠ Value.parentName)
    (put : put? tree value path = some grown) : lasts grown := by
  induction path generalizing tree grown with
  | nil =>
    cases put
    exact held
  | cons segment rest ih =>
    have name := apart segment (by simp)
    have names : ∀ other ∈ rest, other ≠ Value.parentName :=
      fun other member => apart other (List.mem_cons_of_mem _ member)
    cases rest with
    | nil =>
      cases put
      exact lasting.assign held name new
    | cons next deeper =>
      rw [Settings.put?] at put
      split at put
      next own found =>
        obtain ⟨below, inside, rfl⟩ := Option.map_eq_some_iff.mp put
        refine lasting.assign held name (ih ?_ names inside)
        cases own.isRecord with
        | true => exact lasting.own held found
        | false => exact lasting.empty
      next =>
        split at put
        · cases put
        · obtain ⟨below, inside, rfl⟩ := Option.map_eq_some_iff.mp put
          exact lasting.assign held name (ih lasting.empty names inside)
      next => simp

theorem Lasting.loadFrom? {lasts : Value → Prop} (lasting : Lasting lasts)
    (leaf : ∀ text, lasts (variableValue text)) (held : lasts tree)
    (load : loadFrom? tree environment = some loaded) : lasts loaded := by
  induction environment generalizing tree with
  | nil =>
    cases load
    exact held
  | cons entry rest ih =>
    obtain ⟨name, text⟩ := entry
    rw [Settings.loadFrom?] at load
    split at load
    next => exact ih held load
    next path names =>
      split at load
      next grown put => exact ih (lasting.put? held (leaf text) (variablePath?_apart names) put) load
      next => cases load

/-- An environment gives what lasts. -/
theorem Lasting.environmentLayer {lasts : Value → Prop} (lasting : Lasting lasts)
    (leaf : ∀ text, lasts (variableValue text)) (environment : Environment) :
    lasts (environmentLayer environment) := by
  unfold Settings.environmentLayer
  cases load : Settings.loadFrom? Settings.empty environment with
  | some loaded => exact lasting.loadFrom? leaf lasting.empty load
  | none => exact lasting.empty

/-- Setting a value below a name assigns the name. -/
theorem put?_assign {segment : String} {rest : List String}
    (put : put? tree value (segment :: rest) = some grown) :
    ∃ below, grown = tree.assign segment below := by
  cases rest with
  | nil =>
    cases put
    exact ⟨value, rfl⟩
  | cons next deeper =>
    rw [put?] at put
    · split at put
      · obtain ⟨below, _, rfl⟩ := Option.map_eq_some_iff.mp put
        exact ⟨below, rfl⟩
      · split at put
        · cases put
        · obtain ⟨below, _, rfl⟩ := Option.map_eq_some_iff.mp put
          exact ⟨below, rfl⟩
    · simp

theorem isRecord_put? (put : put? tree value path = some grown) :
    grown.isRecord = tree.isRecord := by
  cases path with
  | nil =>
    cases put
    rfl
  | cons segment rest =>
    obtain ⟨below, rfl⟩ := put?_assign put
    exact isRecord_assign tree segment below

theorem isRecord_loadFrom? (load : loadFrom? tree environment = some loaded) :
    loaded.isRecord = tree.isRecord := by
  induction environment generalizing tree with
  | nil =>
    cases load
    rfl
  | cons entry rest ih =>
    rw [loadFrom?] at load
    split at load
    next => exact ih load
    next =>
      split at load
      next grown put => exact (ih load).trans (isRecord_put? put)
      next => cases load

/-- An environment gives a tree of settings. -/
theorem objectTree_environmentLayer (environment : Environment) :
    ObjectTree (environmentLayer environment) := by
  have leaf : ∀ text, Tree (variableValue text) := fun text => .leaf (bare_variableValue text)
  refine ⟨lasting_tree.environmentLayer leaf environment, ?_⟩
  unfold environmentLayer
  cases load : loadFrom? empty environment with
  | some loaded => exact isRecord_loadFrom? load
  | none => rfl

/-- Setting a value below a name changes nothing under other names. -/
theorem lookup_put? {key : String} (apart : ∀ segment ∈ path, segment ≠ Value.parentName)
    (other : path.head? ≠ some key) (put : put? tree value path = some grown) :
    grown.ownMembers.lookup key = tree.ownMembers.lookup key := by
  cases path with
  | nil =>
    cases put
    rfl
  | cons segment rest =>
    have asked : key ≠ segment := fun same => other (by simp [same])
    obtain ⟨below, rfl⟩ := put?_assign put
    exact lookup_assign_of_ne (apart segment (by simp)) asked below

/-- No variable names a setting under a name. -/
def Environment.Avoids (environment : Environment) (key : String) : Prop :=
  ∀ entry ∈ environment, ∀ path, variablePath? entry.1 = some path → path.head? ≠ some key

theorem lookup_loadFrom? {key : String} (free : environment.Avoids key)
    (load : loadFrom? tree environment = some loaded) :
    loaded.ownMembers.lookup key = tree.ownMembers.lookup key := by
  induction environment generalizing tree with
  | nil =>
    cases load
    rfl
  | cons entry rest ih =>
    obtain ⟨name, text⟩ := entry
    have later : Environment.Avoids rest key := fun other member =>
      free other (List.mem_cons_of_mem _ member)
    rw [loadFrom?] at load
    split at load
    next => exact ih later load
    next path names =>
      split at load
      next grown put =>
        exact (ih later load).trans
          (lookup_put? (variablePath?_apart names) (free (name, text) (by simp) path names) put)
      next => cases load

/-- An environment has nothing under a name that it avoids. -/
theorem lookup_environmentLayer {key : String} (free : environment.Avoids key) :
    (environmentLayer environment).ownMembers.lookup key = none := by
  unfold environmentLayer
  cases load : loadFrom? empty environment with
  | some loaded => exact lookup_loadFrom? free load
  | none => rfl

end NamedArguments.Settings
