import NamedArguments.Proofs.EnvironmentTrees
import NamedArguments.Proofs.LayerAlgebra
import NamedArguments.Proofs.SettingsFound

/-! What variables set is what is read. A variable puts its value at the end of its
path and leaves everything there that is read along paths which part from its own.
So the value stays until a variable comes whose path does not part from it, and
since the environment lies uppermost, no other layer hides it. An environment in
which all paths part from one another gives the same in every order: what lies on
the way to some value, and nothing else. -/
namespace NamedArguments

namespace Settings

/-- Two paths part: neither begins with the other. -/
def Part (path other : List String) : Prop := ¬ path <+: other ∧ ¬ other <+: path

/-- The paths of two variables part, if both have one. -/
def PathsPart (one other : String × String) : Prop :=
  ∀ path more, variablePath? one.1 = some path → variablePath? other.1 = some more →
    Part path more

instance (path other : List String) : Decidable (Part path other) :=
  inferInstanceAs (Decidable (_ ∧ _))

theorem part_cons {a b : String} {path other : List String} :
    Part (a :: path) (b :: other) ↔ (a = b → Part path other) := by
  unfold Part
  rw [List.cons_prefix_cons, List.cons_prefix_cons, eq_comm (a := b)]
  tauto

theorem Part.symm {path other : List String} (part : Part path other) : Part other path :=
  And.symm part

theorem Part.ne_nil {path other : List String} (part : Part path other) : path ≠ [] := by
  rintro rfl
  exact part.1 List.nil_prefix

theorem PathsPart.symm {one other : String × String} (part : PathsPart one other) :
    PathsPart other one :=
  fun path more first second => (part more path second first).symm

theorem Part.pathsPart {one other : String × String} {path more : List String}
    (part : Part path more) (first : variablePath? one.1 = some path)
    (second : variablePath? other.1 = some more) : PathsPart one other := by
  intro _ _ here there
  rw [first] at here
  rw [second] at there
  cases here
  cases there
  exact part

variable {tree value grown loaded v w : Value} {name : String} {path other : List String}
  {environment : Environment}

/-! ## One variable -/

theorem ObjectTree.lookup_assign (held : ObjectTree tree) (apart : name ≠ Value.parentName)
    (new : Value) (asked : String) :
    (tree.assign name new).ownMembers.lookup asked =
      if asked = name then some new else tree.ownMembers.lookup asked := by
  obtain ⟨identity, parent, _, same⟩ := held.plain
  rw [same, assign_of_ne apart]
  exact Members.lookup_define _ _ _ _

/-- The object in which an assignment goes on below a name. -/
def startAt (tree : Value) (name : String) : Value :=
  if (under tree name).isRecord then under tree name else empty

theorem objectTree_startAt (held : ObjectTree tree) (name : String) :
    ObjectTree (startAt tree name) := by
  unfold startAt
  split
  next object => exact ⟨held.tree.tree_under name, object⟩
  next => exact objectTree_empty

theorem held?_startAt (tree : Value) (name : String) (more : path ≠ []) :
    held? path (startAt tree name) = held? (name :: path) tree := by
  have bare : held? path empty = none := by
    cases path with
    | nil => exact absurd rfl more
    | cons => rfl
  unfold startAt under
  cases found : tree.ownMembers.lookup name with
  | none => simp [held?, found, Value.isRecord, bare]
  | some own =>
    cases object : own.isRecord with
    | true => simp [held?, found, object]
    | false => simp [held?, found, object, bare, held?_bare object more]

/-- In a tree no way leads into an object that is inherited. -/
theorem put?_cons (held : ObjectTree tree) (apart : name ≠ Value.parentName) (more : path ≠ []) :
    put? tree value (name :: path) =
      (put? (startAt tree name) value path).map (tree.assign name) := by
  obtain ⟨identity, parent, ordinary, same⟩ := held.plain
  cases path with
  | nil => exact absurd rfl more
  | cons next deeper =>
    rw [put?, startAt, under]
    · cases found : tree.ownMembers.lookup name with
      | none =>
        have inherited : (tree.member name).isRecord = false := by
          rw [same]
          exact bare_member_of_not_own ordinary apart found
        have nowhere : (none.getD Value.undefined).isRecord = false := rfl
        simp only [inherited, nowhere, Bool.false_eq_true, if_false]
      | some own => rfl
    · simp

/-- What setting a value makes of a tree. The value is at the end of the path, what
lies along paths that part from it stays, and nothing new is there but what lies on
the way. -/
structure Puts (tree : Value) (path : List String) (value grown : Value) : Prop where
  reads : held? path grown = some value
  keeps : ∀ other, Part path other → held? other grown = held? other tree
  origin : ∀ other, (held? other grown).isSome = true →
    other <+: path ∨ (held? other tree).isSome = true

theorem puts_here (tree : Value) (bare : value.isRecord = false) : Puts tree [] value value where
  reads := rfl
  keeps _ part := absurd rfl part.ne_nil
  origin other there := by
    by_cases nothing : other = []
    · exact Or.inl (nothing ▸ List.nil_prefix)
    · rw [held?_bare bare nothing] at there
      cases there

/-- What is set below a name is set in the tree. -/
theorem Puts.below (held : ObjectTree tree) (apart : name ≠ Value.parentName) {below : Value}
    (puts : Puts (startAt tree name) path value below) :
    Puts tree (name :: path) value (tree.assign name below) := by
  have looked := held.lookup_assign apart below
  refine ⟨by simpa [held?, looked] using puts.reads, fun other part => ?_, fun other there => ?_⟩
  · cases other with
    | nil => exact absurd rfl part.symm.ne_nil
    | cons first more =>
      by_cases same : first = name
      · subst same
        have further := part_cons.mp part rfl
        rw [← held?_startAt tree first further.symm.ne_nil, ← puts.keeps more further]
        simp [held?, looked]
      · simp [held?, looked, same]
  · cases other with
    | nil => exact Or.inl List.nil_prefix
    | cons first more =>
      by_cases same : first = name
      · subst same
        by_cases nothing : more = []
        · exact Or.inl (nothing ▸ List.cons_prefix_cons.mpr ⟨rfl, List.nil_prefix⟩)
        · have inside := puts.origin more (by simpa [held?, looked] using there)
          rw [held?_startAt tree first nothing] at inside
          exact inside.imp_left fun before => List.cons_prefix_cons.mpr ⟨rfl, before⟩
      · exact Or.inr (by simpa [held?, looked, same] using there)

/-- Setting a value in a tree always succeeds. -/
theorem put?_reads (held : ObjectTree tree) (bare : value.isRecord = false)
    (apart : ∀ segment ∈ path, segment ≠ Value.parentName) (some : path ≠ []) :
    ∃ grown, put? tree value path = .some grown ∧ Puts tree path value grown := by
  induction path generalizing tree with
  | nil => exact absurd rfl some
  | cons name rest ih =>
    have named := apart name (by simp)
    cases rest with
    | nil => exact ⟨_, rfl, (puts_here _ bare).below held named⟩
    | cons next deeper =>
      obtain ⟨below, put, puts⟩ := ih (objectTree_startAt held name)
        (fun other member => apart other (List.mem_cons_of_mem _ member)) (by simp)
      refine ⟨_, ?_, puts.below held named⟩
      rw [put?_cons held named (by simp), put]
      rfl

/-! ## All variables -/

/-- A path begins the path of some variable, so that it lies on the way to what the
variable sets. -/
def Environment.Leads (environment : Environment) (path : List String) : Prop :=
  ∃ entry ∈ environment, ∃ full, variablePath? entry.1 = some full ∧ path <+: full

theorem variablePath?_ne_nil (names : variablePath? name = some path) : path ≠ [] := by
  obtain ⟨rest, _, rfl⟩ := Option.map_eq_some_iff.mp names
  obtain ⟨first, others, split, _⟩ := splitDots_pieces (dotUnderscores (Text.lower rest))
  simp [split]

/-- The path of a variable can be written with dots. -/
theorem exists_segments_eq (names : variablePath? name = some path) :
    ∃ dotted, segments dotted = path := by
  obtain ⟨rest, _, rfl⟩ := Option.map_eq_some_iff.mp names
  exact ⟨String.ofList (dotUnderscores (Text.lower rest)), by rw [segments, String.toList_ofList]⟩

/-- Loading an environment into a tree always succeeds. What lies along paths that
part from those of all variables stays, and nothing new is there but what lies on
the way to some value. -/
theorem loadFrom?_reads (held : ObjectTree tree) (environment : Environment) :
    ∃ loaded, loadFrom? tree environment = some loaded ∧ ObjectTree loaded ∧
      (∀ path, (∀ entry ∈ environment, ∀ full, variablePath? entry.1 = some full →
        Part full path) → held? path loaded = held? path tree) ∧
      ∀ path, (held? path loaded).isSome = true →
        environment.Leads path ∨ (held? path tree).isSome = true := by
  induction environment generalizing tree with
  | nil => exact ⟨tree, rfl, held, fun _ _ => rfl, fun _ there => Or.inr there⟩
  | cons entry rest ih =>
    obtain ⟨name, text⟩ := entry
    have later {path : List String} : Environment.Leads rest path →
        Environment.Leads ((name, text) :: rest) path :=
      fun ⟨entry, member, leads⟩ => ⟨entry, List.mem_cons_of_mem _ member, leads⟩
    rw [loadFrom?]
    cases names : variablePath? name with
    | none =>
      obtain ⟨loaded, load, object, keeps, origin⟩ := ih held
      exact ⟨loaded, load, object,
        fun path parts =>
          keeps path fun entry member => parts entry (List.mem_cons_of_mem _ member),
        fun path there => (origin path there).imp_left later⟩
    | some full =>
      have apart := variablePath?_apart names
      obtain ⟨grown, put, puts⟩ :=
        put?_reads held (bare_variableValue text) apart (variablePath?_ne_nil names)
      have object : ObjectTree grown :=
        ⟨lasting_tree.put? held.tree (.leaf (bare_variableValue text)) apart put,
          (isRecord_put? put).trans held.object⟩
      obtain ⟨loaded, load, object, keeps, origin⟩ := ih object
      simp only [put]
      refine ⟨loaded, load, object, fun path parts => ?_, fun path there => ?_⟩
      · rw [keeps path fun entry member => parts entry (List.mem_cons_of_mem _ member)]
        exact puts.keeps path (parts (name, text) List.mem_cons_self full names)
      · rcases origin path there with leads | before
        · exact Or.inl (later leads)
        · exact (puts.origin path before).imp_left fun starts =>
            ⟨(name, text), List.mem_cons_self, full, names, starts⟩

theorem loadFrom?_append (tree : Value) (before after : Environment) :
    loadFrom? tree (before ++ after) =
      (loadFrom? tree before).bind fun loaded => loadFrom? loaded after := by
  induction before generalizing tree with
  | nil => rfl
  | cons entry rest ih =>
    rw [List.cons_append, loadFrom?, loadFrom?]
    split
    next => exact ih tree
    next =>
      split
      next => exact ih _
      next => rfl

/-- What a variable sets is there unless a later variable has a path that does not
part from its own. -/
theorem held?_environmentLayer {before after : Environment} {text : String}
    (names : variablePath? name = some path)
    (later : ∀ entry ∈ after, PathsPart (name, text) entry) :
    held? path (environmentLayer (before ++ (name, text) :: after)) =
      some (variableValue text) := by
  have apart := variablePath?_apart names
  obtain ⟨start, earlier, object, -, -⟩ := loadFrom?_reads objectTree_empty before
  obtain ⟨grown, put, puts⟩ :=
    put?_reads object (bare_variableValue text) apart (variablePath?_ne_nil names)
  have objectToo : ObjectTree grown :=
    ⟨lasting_tree.put? object.tree (.leaf (bare_variableValue text)) apart put,
      (isRecord_put? put).trans object.object⟩
  obtain ⟨loaded, load, -, keeps, -⟩ := loadFrom?_reads objectToo after
  have all : loadFrom? empty (before ++ (name, text) :: after) = some loaded := by
    simp only [loadFrom?_append, earlier, Option.bind_some, loadFrom?, names, put, load]
  rw [environmentLayer, all, Option.getD_some, ← puts.reads]
  exact keeps path fun entry member full other => (later entry member path full names other).symm

/-- Nothing is there but what lies on the way to some value. -/
theorem leads_of_held? (some : path ≠ [])
    (there : (held? path (environmentLayer environment)).isSome = true) :
    environment.Leads path := by
  obtain ⟨loaded, load, -, -, origin⟩ := loadFrom?_reads objectTree_empty environment
  rw [environmentLayer, load, Option.getD_some] at there
  refine (origin path there).resolve_right fun before => ?_
  cases path with
  | nil => exact some rfl
  | cons name rest => simp [held?, empty, Value.plain, Value.ownMembers] at before

/-- The uppermost layer's values are not hidden by anything below. -/
theorem held?_layer (lower : Value) {upper : Value} (above : ObjectTree upper)
    (found : held? path upper = some v) (bare : v.isRecord = false) :
    held? path (layer lower upper) = some v := by
  induction path generalizing lower upper with
  | nil =>
    cases found
    rw [above.object] at bare
    cases bare
  | cons name rest ih =>
    obtain ⟨new, own, further⟩ := Option.bind_eq_some_iff.mp found
    have laid := lookup_layer lower above name
    rw [own] at laid
    rw [held?, laid, Option.bind_some]
    cases object : new.isRecord with
    | false => rw [overlay_leaf object, further]
    | true =>
      have tree : ObjectTree new := ⟨above.tree.own own, object⟩
      cases below : ((lower.ownMembers.lookup name).getD .undefined).isRecord with
      | false => rw [overlay_bare below, further]
      | true =>
        rw [overlay_objects below tree]
        exact ih _ tree further

/-! ## Orders of an environment -/

/-- The same but for the order of members, at every depth. -/
inductive SameMembers : Value → Value → Prop where
  | leaf {v : Value} (bare : v.isRecord = false) : SameMembers v v
  | objects {identity : Identity} {parent : Value} {members others : Members}
      (names : (members.map Prod.fst).Perm (others.map Prod.fst))
      (inside : ∀ name v w, members.lookup name = some v → others.lookup name = some w →
        SameMembers v w) :
      SameMembers (.object identity parent members) (.object identity parent others)

/-- Objects as laying settings over one another makes them, down to leaves. -/
inductive Grown : Value → Prop where
  | leaf {v : Value} (bare : v.isRecord = false) : Grown v
  | object {members : Members} (distinct : (members.map Prod.fst).Nodup)
      (inside : ∀ name v, members.lookup name = some v → Grown v) : Grown (.plain .merged members)

theorem Grown.own (grown : Grown v) (found : v.ownMembers.lookup name = some w) : Grown w := by
  cases grown with
  | leaf bare => cases v <;> simp_all [Value.ownMembers, Value.isRecord]
  | object _ inside => exact inside name w found

theorem lasting_grown : Lasting Grown where
  empty := .object .nil nofun
  own := Grown.own
  assign := by
    intro v name w grown apart new
    cases grown with
    | leaf bare =>
      rw [assign_bare bare]
      exact .leaf bare
    | object distinct inside =>
      rw [Value.plain, assign_of_ne apart]
      refine .object (Members.nodup_names_define name w distinct) fun asked u found => ?_
      rw [Members.lookup_define] at found
      split at found
      · cases found
        exact new
      · exact inside asked u found

/-- What has been made alike and holds the same is the same but for the order. -/
theorem SameTree.sameMembers {one other : Value} (same : SameTree one other) (first : Grown one)
    (second : Grown other) : SameMembers one other := by
  induction same with
  | leaf bare => exact .leaf bare
  | objects object too names inside ih =>
    cases first with
    | leaf bare =>
      rw [bare] at object
      cases object
    | object distinct made =>
      cases second with
      | leaf bare =>
        rw [bare] at too
        cases too
      | object distinctToo madeToo =>
        refine .objects ?_ fun name v w here there =>
          ih name v w here there (made name v here) (madeToo name w there)
        refine (List.perm_ext_iff_of_nodup distinct distinctToo).mpr fun name => ?_
        rw [Members.mem_names_iff, Members.mem_names_iff]
        exact Bool.eq_iff_iff.mp (names name)

/-- Trees that agree on what lies along each path are the same. -/
theorem sameTree_of_held? {one other : Value} (first : Tree one) (second : Tree other)
    (there : ∀ path, (held? path one).isSome = (held? path other).isSome)
    (alike : ∀ path v, v.isRecord = false → (held? path one = some v ↔ held? path other = some v)) :
    SameTree one other := by
  induction first using Tree.induction generalizing other with
  | leaf v bare =>
    have same : other = v := Option.some.inj ((alike [] v bare).mp rfl)
    rw [same]
    exact .leaf bare
  | object v held ih =>
    have object : other.isRecord = true := by
      cases object : other.isRecord with
      | true => rfl
      | false =>
        have same : v = other := Option.some.inj ((alike [] other object).mpr rfl)
        rw [← same, held.object] at object
        cases object
    refine .objects held.object object (fun name => ?_) fun name u w here too => ?_
    · simpa [held?] using there [name]
    · refine ih name u here (second.own too) (fun path => ?_) fun path => ?_
      · simpa [held?, here, too] using there (name :: path)
      · simpa [held?, here, too] using alike (name :: path)

theorem held?_of_mem (parts : environment.Pairwise PathsPart) {entry : String × String}
    (member : entry ∈ environment) (names : variablePath? entry.1 = some path) :
    held? path (environmentLayer environment) = some (variableValue entry.2) := by
  obtain ⟨before, after, rfl⟩ := List.append_of_mem member
  have later := (List.pairwise_cons.mp (List.pairwise_append.mp parts).2.1).1
  exact held?_environmentLayer names later

/-- If all paths part, what lies on the way to some value is there, and nothing else. -/
theorem isSome_held?_iff (parts : environment.Pairwise PathsPart) (path : List String) :
    (held? path (environmentLayer environment)).isSome = true ↔
      path = [] ∨ environment.Leads path := by
  refine ⟨fun there => or_iff_not_imp_left.mpr fun some => leads_of_held? some there, ?_⟩
  rintro (rfl | ⟨entry, member, full, names, more, rfl⟩)
  · rfl
  · have found := held?_of_mem parts member names
    rw [held?_append] at found
    obtain ⟨v, there, -⟩ := Option.bind_eq_some_iff.mp found
    rw [there]
    rfl

/-- If all paths part, what is no object is the value of a variable with that path. -/
theorem exists_entry_of_bare (parts : environment.Pairwise PathsPart)
    (found : held? path (environmentLayer environment) = some v) (bare : v.isRecord = false) :
    ∃ entry ∈ environment, variablePath? entry.1 = some path ∧ variableValue entry.2 = v := by
  have something : path ≠ [] := by
    rintro rfl
    cases found
    rw [(objectTree_environmentLayer environment).object] at bare
    cases bare
  obtain ⟨entry, member, full, names, more, rfl⟩ := leads_of_held? something (by rw [found]; rfl)
  have reads := held?_of_mem parts member names
  rw [held?_append, found, Option.bind_some] at reads
  have ends : more = [] := by
    by_contra deeper
    rw [held?_bare bare deeper] at reads
    cases reads
  subst ends
  rw [List.append_nil] at names
  exact ⟨entry, member, names, (Option.some.inj reads).symm⟩

theorem Environment.Leads.of_perm {other : Environment} (same : environment.Perm other)
    (leads : environment.Leads path) : other.Leads path := by
  obtain ⟨entry, member, leads⟩ := leads
  exact ⟨entry, same.mem_iff.mp member, leads⟩

/-- A value that an environment gives is given by it in every order. -/
theorem bare_of_perm {other : Environment} (same : environment.Perm other)
    (parts : environment.Pairwise PathsPart) (partsToo : other.Pairwise PathsPart)
    (found : held? path (environmentLayer environment) = some v) (bare : v.isRecord = false) :
    held? path (environmentLayer other) = some v := by
  obtain ⟨entry, member, names, rfl⟩ := exists_entry_of_bare parts found bare
  exact held?_of_mem partsToo (same.mem_iff.mp member) names

/-- If all paths part, an environment gives the same in every order. -/
theorem sameMembers_of_perm {other : Environment} (same : environment.Perm other)
    (parts : environment.Pairwise PathsPart) :
    SameMembers (environmentLayer environment) (environmentLayer other) := by
  have partsToo : other.Pairwise PathsPart :=
    (same.pairwise_iff fun part => part.symm).mp parts
  have leaf : ∀ text, Grown (variableValue text) := fun text => .leaf (bare_variableValue text)
  refine SameTree.sameMembers (sameTree_of_held? (objectTree_environmentLayer environment).tree
    (objectTree_environmentLayer other).tree (fun path => ?_) fun path v bare => ?_)
    (lasting_grown.environmentLayer leaf environment) (lasting_grown.environmentLayer leaf other)
  · rw [Bool.eq_iff_iff, isSome_held?_iff parts, isSome_held?_iff partsToo]
    exact or_congr_right ⟨.of_perm same, .of_perm same.symm⟩
  · exact ⟨fun here => bare_of_perm same parts partsToo here bare,
      fun here => bare_of_perm same.symm partsToo parts here bare⟩

end Settings

open Settings (Environment PathsPart SameMembers variablePath? variableValue environmentLayer
  layer follow segments)

end NamedArguments
