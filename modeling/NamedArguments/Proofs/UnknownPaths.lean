import NamedArguments.Proofs.KeptParents
import NamedArguments.Proofs.LayeredLookup
import NamedArguments.Proofs.SettingsFound

/-! Paths that no source defines. As long as parents are kept, laying layers over one
another makes no member that none of them has: what own members lead to in the
settings in effect, they lead to in some source. So a path that no source defines
ends at a name that is not an object's own, and reads as undefined unless the object
lends that name, as it lends those that it inherits. -/
namespace NamedArguments

/-- Whether an object answers for a name under which it has no member itself: by what
it inherits or has without listing it, by what is worked out from it, or with its
parent. -/
def Value.lends (v : Value) (name : String) : Bool :=
  (v.ownMembers.lookup name).isNone &&
    ((v.find? name).isSome || (v.workedOutBy? name).isSome ||
      (name == parentName && v.isRooted))

namespace Settings

/-- Own members lead along the whole path. -/
def Defines : List String → Value → Prop
  | [], _ => True
  | name :: rest, v => ∃ new, (name, new) ∈ v.ownMembers ∧ Defines rest new

/-- On the way along own members an object lends the next name. -/
def Lent (v : Value) (path : List String) : Prop :=
  ∃ before name after object, path = before ++ name :: after ∧
    held? before v = some object ∧ object.isRecord = true ∧ object.lends name = true

variable {made members : Members} {old new lower upper v w : Value} {name : String}
  {path : List String}

theorem not_defines_of_bare (bare : v.isRecord = false) (some : path ≠ []) : ¬ Defines path v := by
  cases path with
  | nil => exact absurd rfl some
  | cons name rest =>
    rintro ⟨new, member, -⟩
    cases v <;> simp_all [Value.ownMembers, Value.isRecord]

/-- What is defined under a name of a layer, is so in what the name had or is given. -/
theorem defines_overlay (inside : old.isRecord = true → new.isRecord = true →
      Defines path (overlayMembers (.ancestor .record) old.ownMembers new.ownMembers) →
        Defines path (.plain .merged old.ownMembers) ∨ Defines path (.plain .merged new.ownMembers))
    (defined : Defines path (overlay old new)) : Defines path old ∨ Defines path new := by
  cases below : old.isRecord with
  | false =>
    rw [overlay_bare below] at defined
    exact Or.inr defined
  | true =>
    cases above : new.isRecord with
    | false =>
      rw [overlay_leaf above] at defined
      exact Or.inr defined
    | true =>
      rw [overlay_records below above] at defined
      cases path with
      | nil => exact Or.inl trivial
      | cons => exact inside below above defined

/-- Laying members over others defines no path that neither of them does. -/
theorem defines_overlayMembers (keeps : KeepsParents made members)
    (defined : Defines path (overlayMembers (.ancestor .record) made members)) :
    Defines path (.plain .merged made) ∨ Defines path (.plain .merged members) := by
  induction keeps generalizing path with
  | nil => exact Or.inl defined
  | @member made rest name new own below later ihBelow ih =>
    rw [overlayMembers_member own] at defined
    cases path with
    | nil => exact Or.inl trivial
    | cons asked deeper =>
      rcases ih defined with ⟨given, member, further⟩ | ⟨given, member, further⟩
      · rcases Members.mem_define member with same | old
        · obtain ⟨rfl, rfl⟩ := Prod.mk.inj same
          rcases defines_overlay (fun below above => ihBelow below above) further with
            inside | inside
          · cases found : made.lookup asked with
            | some held =>
              rw [madeUnder, found, Option.getD_some] at inside
              exact Or.inl ⟨held, Members.mem_of_lookup found, inside⟩
            | none =>
              rw [madeUnder, found, Option.getD_none] at inside
              have ends : deeper = [] := by
                by_contra more
                exact not_defines_of_bare rfl more inside
              subst ends
              exact Or.inr ⟨new, List.mem_cons_self, trivial⟩
          · exact Or.inr ⟨new, List.mem_cons_self, inside⟩
        · exact Or.inl ⟨given, old, further⟩
      · exact Or.inr ⟨given, List.mem_cons_of_mem _ member, further⟩
  | ignored missing unfit given _ ih =>
    rw [overlayMembers_ignored missing unfit given] at defined
    refine (ih defined).imp_right fun inside => ?_
    cases path with
    | nil => trivial
    | cons asked deeper =>
      obtain ⟨given, member, further⟩ := inside
      exact ⟨given, List.mem_cons_of_mem _ member, further⟩

theorem defines_layer (object : upper.isRecord = true)
    (keeps : KeepsParents lower.ownMembers upper.ownMembers)
    (defined : Defines path (layer lower upper)) : Defines path lower ∨ Defines path upper := by
  rw [layer, enumerable_record object] at defined
  cases path with
  | nil => exact Or.inl trivial
  | cons name rest => exact defines_overlayMembers keeps defined

/-- What is neither an object's own nor lent is not there, and asking for it is not
refused. -/
theorem member_of_not_lent (missing : v.ownMembers.lookup name = none)
    (unlent : v.lends name = false) :
    v.member name = .undefined ∧ v.refusesReading name = false := by
  simp only [Value.lends, missing, Option.isNone_none, Bool.true_and, Bool.or_eq_false_iff,
    Option.isSome_eq_false_iff, Option.isNone_iff_eq_none, Bool.and_eq_false_imp,
    beq_iff_eq] at unlent
  obtain ⟨⟨nowhere, unworked⟩, other⟩ := unlent
  refine ⟨?_, by simp [Value.refusesReading, unworked]⟩
  have unrooted : ¬ (name = Value.parentName ∧ v.isRooted = true) := by
    rintro ⟨parent, rooted⟩
    rw [other parent] at rooted
    cases rooted
  simp [Value.member, nowhere, unrooted]

/-- A path that is not defined leads nowhere unless something on the way is lent. -/
theorem follow_of_not_defines (undefined : ¬ Defines path v) (unlent : ¬ Lent v path) :
    follow v path = .undefined ∧ followRefused v path = false := by
  induction path generalizing v with
  | nil => exact absurd trivial undefined
  | cons name rest ih =>
    cases object : v.isRecord with
    | false => simp [follow, followRefused, object]
    | true =>
      cases found : v.ownMembers.lookup name with
      | none =>
        have here : v.lends name = false := by
          by_contra lends
          exact unlent ⟨[], name, rest, v, rfl, rfl, object, by simpa using lends⟩
        obtain ⟨nothing, unrefused⟩ := member_of_not_lent found here
        rw [follow, followRefused, object, nothing, unrefused]
        cases rest <;> simp [follow, followRefused, Value.isRecord]
      | some w =>
        obtain ⟨-, read, readable⟩ := member_of_lookup found
        have below : ¬ Lent w rest := by
          rintro ⟨before, next, after, last, split, way, lends⟩
          exact unlent ⟨name :: before, next, after, last, by rw [split, List.cons_append],
            by simp [held?, found, way], lends⟩
        have further :=
          ih (fun defined => undefined ⟨w, Members.mem_of_lookup found, defined⟩) below
        simpa [follow, followRefused, object, read, readable] using further

/-- Where all that is on the way is plain, nothing but what all objects inherit is lent. -/
theorem not_lent_of_tree (tree : Tree v) (own : ∀ segment ∈ path, Uninherited segment) :
    ¬ Lent v path := by
  rintro ⟨before, name, after, object, rfl, way, record, lends⟩
  have there : Tree object := by
    clear own
    induction before generalizing v with
    | nil => exact Option.some.inj way ▸ tree
    | cons first rest ih =>
      obtain ⟨w, found, further⟩ := Option.bind_eq_some_iff.mp way
      exact ih (tree.own found) further
  obtain ⟨identity, parent, ordinary, same⟩ := ObjectTree.plain ⟨there, record⟩
  have segment := own name (by simp)
  have unlent : parent.find? name = none ∧ parent.workedOutBy? name = none := by
    rcases ordinary with rfl | rfl
    · refine ⟨segment.unoffered, ?_⟩
      simp [Value.workedOutBy?, Family.worksOut?, Family.line, Family.workedOutNames]
    · exact ⟨rfl, rfl⟩
  rw [same, Value.lends, Bool.and_eq_true] at lends
  obtain ⟨missing, answers⟩ := lends
  have none : object.ownMembers.lookup name = none := Option.isNone_iff_eq_none.mp missing
  simp [find?_plain ordinary, Value.workedOutBy?, none, unlent, segment.unparented] at answers

end Settings

open Settings (Surroundings Loaded ParentsKept Defines Lent defaults environmentLayer segments)

/-- In every session in which parents are kept, a path that no source defines reads as
undefined, unless it meets a name that an object on the way lends. -/
theorem unknown_paths_undefined (around : Surroundings) (operations : List Operation)
    (path : String) :
    let since := sinceLoaded ((Session.fresh around).events operations)
    let now := (Session.fresh around).after operations
    let file := fileFound now since
    let program := programFound since
    let environment := environmentFound now since
    ParentsKept file program →
    (∀ source ∈ [defaults, file, program, environmentLayer environment],
      ¬ Defines (segments path) source) →
    ∀ loaded lines, Settings.ensure now.around now.store = .ok (loaded, lines) →
      ¬ Lent loaded.effective (segments path) →
        (now.perform (.get path)).answer = .value .undefined ∧
          (now.perform (.has path)).answer = .flag false := by
  intro since now file program environment kept nowhere loaded lines ready unlent
  obtain ⟨-, effect⟩ := effective_found around operations ready
  have above := Settings.objectTree_environmentLayer environment
  have undefined : ¬ Defines (segments path) loaded.effective := by
    rw [effect]
    intro defined
    rcases Settings.defines_layer above.object (above.tree.keepsParents _) defined with
      defined | inside
    · rcases Settings.defines_layer (isRecord_programFound since) kept.above defined with
        defined | inside
      · rcases Settings.defines_layer (isRecord_fileFound now since) kept.below defined with
          inside | inside
        · exact nowhere defaults (by simp) inside
        · exact nowhere file (by simp) inside
      · exact nowhere program (by simp) inside
    · exact nowhere _ (by simp) inside
  obtain ⟨reads, unrefused⟩ := Settings.follow_of_not_defines undefined unlent
  have refuses : loaded.refuses path = false := unrefused
  have nothing : loaded.at path = .undefined := reads
  rw [Session.perform_get ready, Session.perform_has ready, refuses, nothing]
  exact ⟨rfl, rfl⟩

/-- Nothing lies below a setting that is no object. -/
theorem unknown_paths_undefined_deeper :
    let values := Value.plain (.written 0) [("log", .plain (.written 1) [("level", .text "info")])]
    let now := (Session.fresh ⟨[], .empty⟩).after [.set values]
    segments "log.level.deeper" = ["log", "level", "deeper"] ∧
      (now.perform (.get "log.level.deeper")).answer = .value .undefined ∧
      (now.perform (.has "log.level.deeper")).answer = .flag false := by
  intro values now
  have split : segments "log.level.deeper" = ["log", "level", "deeper"] := by rfl
  have set : programFound (sinceLoaded ((Session.fresh ⟨[], .empty⟩).events [.set values])) =
      .plain .merged [("log", .plain (.written 1) [("level", .text "info")])] := rfl
  have level : Settings.ObjectTree (.plain (.written 1) [("level", .text "info")]) :=
    Settings.objectTree_single _ (by decide) (.leaf rfl)
  have program : Settings.ObjectTree
      (programFound (sinceLoaded ((Session.fresh ⟨[], .empty⟩).events [.set values]))) := by
    rw [set]
    exact Settings.objectTree_single _ (by decide) level.tree
  have lower := Settings.objectTree_layer Settings.objectTree_defaults.tree
    Settings.objectTree_empty
  have effect := Settings.objectTree_layer (Settings.objectTree_layer lower.tree program).tree
    (Settings.objectTree_environmentLayer [])
  have names : ∀ segment ∈ segments "log.level.deeper", Settings.Uninherited segment := by
    rw [split]
    intro segment member
    simp only [List.mem_cons, List.not_mem_nil, or_false] at member
    rcases member with rfl | rfl | rfl <;> exact ⟨rfl, by decide⟩
  refine ⟨split, unknown_paths_undefined ⟨[], .empty⟩ [.set values] "log.level.deeper"
    ⟨Settings.objectTree_empty.tree.keepsParents _, program.tree.keepsParents _⟩ ?_ _ [] rfl
    (Settings.not_lent_of_tree effect.tree names)⟩
  rw [split, set]
  intro source member
  have one : source ∈ [defaults, Settings.empty,
      .plain .merged [("log", .plain (.written 1) [("level", .text "info")])], Settings.empty] :=
    member
  simp only [List.mem_cons, List.not_mem_nil, or_false] at one
  rcases one with rfl | rfl | rfl | rfl <;>
    simp [Defines, defaults, Settings.empty, Value.plain, Value.ownMembers]

/-- What all objects inherit is read under paths that no source defines. -/
theorem inherited_member_read :
    ¬ ∀ (around : Surroundings) (operations : List Operation) (path : String)
      (loaded : Loaded) (lines : List Line),
      let since := sinceLoaded ((Session.fresh around).events operations)
      let now := (Session.fresh around).after operations
      Settings.ensure now.around now.store = .ok (loaded, lines) →
      (∀ source ∈ [defaults, fileFound now since, programFound since,
          environmentLayer (environmentFound now since)], ¬ Defines (segments path) source) →
      (now.perform (.get path)).answer = .value .undefined ∧
        (now.perform (.has path)).answer = .flag false := by
  intro unknown
  have split : segments "toString" = ["toString"] := by rfl
  have nowhere : ∀ source ∈ [defaults, Settings.empty, Settings.empty, Settings.empty],
      ¬ Defines (segments "toString") source := by
    rw [split]
    simp [Defines, defaults, Settings.empty, Value.plain, Value.ownMembers]
  obtain ⟨claimed, -⟩ := unknown ⟨[], .empty⟩ [] "toString" _ [] rfl nowhere
  have found : ((Session.fresh ⟨[], .empty⟩).perform (.get "toString")).answer =
      .value (.builtin "toString") := rfl
  exact absurd (found.symm.trans claimed) (by simp)

end NamedArguments
