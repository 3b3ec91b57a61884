import NamedArguments.Proofs.ContainedLoading
import NamedArguments.Proofs.EnvironmentReading

/-! Loading an environment object by object gives the layer that settings are read
from. In the course of a loading every object is reached along one path only, so an
assignment shows at the end of its path and nowhere else, as in a tree. -/
namespace NamedArguments.Settings

/-- What is seen along paths: whether something is there, and a value that is no
object as it is. -/
abbrev Outline := List String → Option (Option Value)

/-- An outline once a value is set at the end of a path, with objects on the way. -/
def Outline.set (outline : Outline) (full : List String) (value : Value) : Outline := fun path =>
  if path = full then some (some value)
  else if full <+: path then none
  else if path <+: full then some none
  else outline path

/-- A value that is no object. -/
def leaf? (v : Value) : Option Value := if v.isRecord then none else some v

def Content.leaf? : Content → Option Value
  | .object _ => none
  | .value v => some v

def outline (tree : Value) : Outline := fun path => (held? path tree).map leaf?

def Heap.outline (heap : Heap) (root : Reference) : Outline := fun path =>
  (heap.reach? (.object root) path).map Content.leaf?

/-- Setting a value in a tree shows at the end of its path. -/
theorem outline_put? {tree value : Value} {full : List String} (held : ObjectTree tree)
    (bare : value.isRecord = false) (apart : ∀ segment ∈ full, segment ≠ Value.parentName)
    (some : full ≠ []) :
    ∃ grown, put? tree value full = .some grown ∧ ObjectTree grown ∧
      outline grown = (outline tree).set full value := by
  obtain ⟨grown, put, puts⟩ := put?_reads held bare apart some
  refine ⟨grown, put, ⟨lasting_tree.put? held.tree (.leaf bare) apart put,
    (isRecord_put? put).trans held.object⟩, funext fun path => ?_⟩
  simp only [outline, Outline.set]
  by_cases same : path = full
  · simp [same, puts.reads, leaf?, bare]
  by_cases beyond : full <+: path
  · obtain ⟨more, rfl⟩ := beyond
    have nothing : held? more value = none := held?_bare bare (by simpa using same)
    simp [held?_append, puts.reads, nothing, same]
  by_cases within : path <+: full
  · obtain ⟨more, rfl⟩ := within
    have reads := puts.reads
    rw [held?_append] at reads
    obtain ⟨v, there, further⟩ := Option.bind_eq_some_iff.mp reads
    have object : v.isRecord = true := by
      by_contra leaf
      rw [held?_bare (by simpa using leaf) (by simpa using same)] at further
      cases further
    simp [there, leaf?, object, same, beyond]
  · simp [puts.keeps path ⟨beyond, within⟩, same, beyond, within]

/-! ## Paths of own members -/

namespace Heap

variable {heap : Heap} {root ref : Reference} {number : Nat} {name : String} {content : Content}
  {path front : List String}

theorem reach?_append (heap : Heap) (content : Content) (path more : List String) :
    heap.reach? content (path ++ more) = (heap.reach? content path).bind (heap.reach? · more) := by
  induction path generalizing content with
  | nil => rfl
  | cons segment rest ih =>
    cases content with
    | value v => rfl
    | object ref =>
      simp only [List.cons_append, reach?, Option.bind_assoc]
      exact congrArg _ (funext fun next => ih next)

theorem reach?_make (heap : Heap) (content : Content) (path : List String) :
    heap.make.2.reach? content path = heap.reach? content path := by
  induction path generalizing content with
  | nil => rfl
  | cons segment rest ih =>
    cases content with
    | value v => rfl
    | object ref =>
      simp only [reach?, own_make]
      exact congrArg _ (funext fun next => ih next)

/-- An assignment changes nothing along a path that does not go through it. -/
theorem reach?_assign_of_apart (there : number < heap.made.length) (apart : name ≠ Value.parentName)
    (content start : Content) (passes : ∀ front back, path = front ++ name :: back →
      heap.reach? start front ≠ some (.object (.made number))) :
    (heap.assign (.made number) name content).reach? start path = heap.reach? start path := by
  induction path generalizing start with
  | nil => rfl
  | cons segment rest ih =>
    cases start with
    | value v => rfl
    | object ref =>
      have elsewhere : ¬ (ref = .made number ∧ segment = name) := by
        rintro ⟨rfl, rfl⟩
        exact passes [] rest rfl rfl
      simp only [reach?, lookup_assign there apart, if_neg elsewhere]
      refine Option.bind_congr fun next held => ih next fun front back split through => ?_
      refine passes (segment :: front) back (by rw [split]; rfl) ?_
      rw [reach?, held]
      exact through

/-- Every object below a root is one that was made, and lies on one path only. -/
structure Arranged (heap : Heap) (root : Reference) : Prop where
  there : ∀ path ref, heap.reach? (.object root) path = some (.object ref) →
    ∃ number, ref = .made number ∧ number < heap.made.length
  once : ∀ path other ref, heap.reach? (.object root) path = some (.object ref) →
    heap.reach? (.object root) other = some (.object ref) → path = other

/-- What can be assigned so that objects stay arranged: a value, or an object without
members that is reached nowhere yet. -/
def Unlinked (heap : Heap) (root : Reference) : Content → Prop
  | .value _ => True
  | .object ref => (∃ number, ref = .made number ∧ number < heap.made.length) ∧ heap.own ref = [] ∧
    ∀ path, heap.reach? (.object root) path ≠ some (.object ref)

/-- Below a root, an assignment is seen at the end of one path. -/
theorem Arranged.reach?_assign (arranged : Arranged heap root)
    (reached : heap.reach? (.object root) front = some (.object (.made number)))
    (apart : name ≠ Value.parentName) (unlinked : heap.Unlinked root content)
    (path : List String) :
    (heap.assign (.made number) name content).reach? (.object root) path =
      if path = front ++ [name] then some content
      else if front ++ [name] <+: path then none
      else heap.reach? (.object root) path := by
  obtain ⟨_, same, there⟩ := arranged.there front _ reached
  cases same
  have goes : (heap.assign (.made number) name content).reach? (.object root) (front ++ [name]) =
      some content := by
    -- The way to the object does not go through it, as it would then lie on two paths.
    have kept : (heap.assign (.made number) name content).reach? (.object root) front =
        heap.reach? (.object root) front := by
      refine reach?_assign_of_apart there apart content _ fun before back split through => ?_
      have short := congrArg List.length (arranged.once _ _ _ through reached)
      have long := congrArg List.length split
      simp only [List.length_append, List.length_cons] at long
      omega
    simp [reach?_append, kept, reached, reach?, lookup_assign there apart]
  by_cases same : path = front ++ [name]
  · rw [if_pos same, same, goes]
  rw [if_neg same]
  by_cases beyond : front ++ [name] <+: path
  · obtain ⟨more, rfl⟩ := beyond
    rw [if_pos (List.prefix_append _ _), reach?_append, goes, Option.bind_some]
    cases more with
    | nil => exact absurd (List.append_nil _) same
    | cons segment rest =>
      cases content with
      | value v => rfl
      | object fresh =>
        obtain ⟨-, without, nowhere⟩ := unlinked
        have other : fresh ≠ .made number := fun same => nowhere front (same ▸ reached)
        simp [reach?, lookup_assign there apart, other, without]
  · rw [if_neg beyond]
    refine reach?_assign_of_apart there apart content _ fun before back split through => ?_
    refine beyond ⟨back, ?_⟩
    rw [← arranged.once _ _ _ through reached, split]
    simp

theorem length_assign (heap : Heap) (number : Nat) (apart : name ≠ Value.parentName)
    (content : Content) :
    (heap.assign (.made number) name content).made.length = heap.made.length := by
  simp [assign_made heap number apart]

theorem Bare.assign (bare : heap.Bare) (number : Nat) (apart : name ≠ Value.parentName)
    (content : Content) : (heap.assign (.made number) name content).Bare := by
  rw [assign_made heap number apart]
  exact bare

/-- An object reached after an assignment is the one assigned, or was reached before. -/
theorem Arranged.reached_assign (arranged : Arranged heap root)
    (reached : heap.reach? (.object root) front = some (.object (.made number)))
    (apart : name ≠ Value.parentName) (unlinked : heap.Unlinked root content)
    (found : (heap.assign (.made number) name content).reach? (.object root) path =
      some (.object ref)) :
    path = front ++ [name] ∧ content = .object ref ∨
      heap.reach? (.object root) path = some (.object ref) := by
  rw [arranged.reach?_assign reached apart unlinked] at found
  split at found
  next here => exact Or.inl ⟨here, Option.some.inj found⟩
  next =>
    split at found
    · cases found
    · exact Or.inr found

theorem Arranged.assign (arranged : Arranged heap root)
    (reached : heap.reach? (.object root) front = some (.object (.made number)))
    (apart : name ≠ Value.parentName) (unlinked : heap.Unlinked root content) :
    Arranged (heap.assign (.made number) name content) root := by
  refine ⟨fun path ref found => ?_, fun path other ref found too => ?_⟩
  · rw [length_assign heap number apart]
    rcases arranged.reached_assign reached apart unlinked found with ⟨-, rfl⟩ | before
    · exact unlinked.1
    · exact arranged.there path ref before
  · rcases arranged.reached_assign reached apart unlinked found with ⟨here, rfl⟩ | before
    · rcases arranged.reached_assign reached apart unlinked too with ⟨there, -⟩ | before
      · rw [here, there]
      · exact absurd before (unlinked.2.2 other)
    · rcases arranged.reached_assign reached apart unlinked too with ⟨-, rfl⟩ | beforeToo
      · exact absurd before (unlinked.2.2 path)
      · exact arranged.once path other ref before beforeToo

theorem Arranged.make (arranged : Arranged heap root) : Arranged heap.make.2 root := by
  refine ⟨fun path ref found => ?_, fun path other ref found too => ?_⟩
  · rw [reach?_make] at found
    obtain ⟨number, same, there⟩ := arranged.there path ref found
    exact ⟨number, same, by simp [Heap.make]; omega⟩
  · rw [reach?_make] at found too
    exact arranged.once path other ref found too

/-- An object just made is reached nowhere. -/
theorem Arranged.unlinked (arranged : Arranged heap root) :
    heap.make.2.Unlinked root (.object heap.make.1) := by
  refine ⟨⟨_, rfl, by simp [Heap.make]⟩, by simp [own, Heap.make], fun path found => ?_⟩
  rw [reach?_make] at found
  obtain ⟨number, same, there⟩ := arranged.there path _ found
  cases same
  exact Nat.lt_irrefl _ there

/-- There is nothing below an object just made. -/
theorem reach?_made (heap : Heap) (path : List String) :
    heap.make.2.reach? (.object heap.make.1) path =
      if path = [] then some (.object heap.make.1) else none := by
  cases path with
  | nil => rfl
  | cons segment rest => simp [reach?, own, Heap.make]

theorem arranged_made (heap : Heap) : heap.make.2.Arranged heap.make.1 := by
  have alone : ∀ path ref, heap.make.2.reach? (.object heap.make.1) path = some (.object ref) →
      path = [] ∧ ref = heap.make.1 := by
    intro path ref found
    rw [reach?_made] at found
    split at found <;> cases found
    exact ⟨‹path = []›, rfl⟩
  refine ⟨fun path ref found => ?_, fun path other ref found too => ?_⟩
  · exact ⟨_, (alone path ref found).2, by simp [Heap.make]⟩
  · rw [(alone path ref found).1, (alone other ref too).1]

theorem outline_made (heap : Heap) : heap.make.2.outline heap.make.1 = Settings.outline empty := by
  funext path
  rw [outline, reach?_made]
  cases path <;> rfl

/-- There are objects all along the way to an object. -/
theorem outline_of_prefix (reached : heap.reach? (.object root) front = some (.object ref))
    (way : path <+: front) : heap.outline root path = some none := by
  obtain ⟨more, rfl⟩ := way
  rw [reach?_append] at reached
  obtain ⟨content, there, further⟩ := Option.bind_eq_some_iff.mp reached
  cases content with
  | object next => simp [outline, there, Content.leaf?]
  | value v => cases more <;> cases further

/-- Beyond a member that holds no object there is nothing. -/
theorem outline_of_blocked (reached : heap.reach? (.object root) front = some (.object ref))
    (blocked : ∀ next, (heap.own ref).lookup name ≠ some (.object next))
    (beyond : front ++ [name] <+: path) (apart : path ≠ front ++ [name]) :
    heap.outline root path = none := by
  obtain ⟨more, rfl⟩ := beyond
  cases more with
  | nil => exact absurd (List.append_nil _) apart
  | cons segment rest =>
    rw [outline, List.append_assoc, reach?_append, reached]
    cases held : (heap.own ref).lookup name with
    | none => simp [reach?, held]
    | some content =>
      cases content with
      | value v => simp [reach?, held]
      | object next => exact absurd held (blocked next)

/-- An object made where there is none hides only what is no object there. -/
theorem Arranged.make_assign (arranged : Arranged heap root)
    (reached : heap.reach? (.object root) front = some (.object (.made number)))
    (apart : name ≠ Value.parentName)
    (blocked : ∀ next, (heap.own (.made number)).lookup name ≠ some (.object next)) :
    let grown := heap.make.2.assign (.made number) name (.object heap.make.1)
    Arranged grown root ∧
      grown.reach? (.object root) (front ++ [name]) = some (.object heap.make.1) ∧
      ∀ path, path ≠ front ++ [name] → grown.outline root path = heap.outline root path := by
  have reachedToo := (reach?_make heap (.object root) front).trans reached
  have seen := arranged.make.reach?_assign reachedToo apart arranged.unlinked
  refine ⟨arranged.make.assign reachedToo apart arranged.unlinked, (seen _).trans (if_pos rfl),
    fun path other => ?_⟩
  rw [outline, seen, if_neg other]
  split
  next beyond => exact (outline_of_blocked reached blocked beyond other).symm
  next => rw [reach?_make, outline]

end Heap

/-! ## Loading -/

/-- Setting a value hides all that differs on its way or beyond its end. -/
theorem Outline.set_congr {outline other : Outline} {full : List String} {value : Value}
    (same : ∀ path, ¬ full <+: path → ¬ path <+: full → outline path = other path) :
    outline.set full value = other.set full value := by
  funext path
  unfold set
  split
  · rfl
  · split
    · rfl
    · split
      · rfl
      next beyond within => exact same path beyond within

/-- Assigning a value at the end of a path shows at its end, as in a tree. -/
theorem Assembly.outline_assignAt {assembly : Assembly} {root ref : Reference}
    {front rest : List String} (bare : assembly.heap.Bare) (arranged : assembly.heap.Arranged root)
    (reached : assembly.heap.reach? (.object root) front = some (.object ref)) (value : Value)
    (apart : ∀ segment ∈ rest, segment ≠ Value.parentName) (more : rest ≠ []) :
    ∃ assigned, assembly.assignAt? ref value rest = some assigned ∧ assigned.heap.Bare ∧
      assigned.heap.Arranged root ∧
      assigned.heap.outline root = (assembly.heap.outline root).set (front ++ rest) value := by
  induction rest generalizing assembly ref front with
  | nil => exact absurd rfl more
  | cons segment rest ih =>
    have here := apart segment List.mem_cons_self
    have later := fun other member => apart other (List.mem_cons_of_mem segment member)
    obtain ⟨number, rfl, there⟩ := arranged.there front ref reached
    cases rest with
    | nil =>
      have unlinked : assembly.heap.Unlinked root (.value value) := trivial
      refine ⟨_, rfl, bare.assign number here _, arranged.assign reached here unlinked,
        funext fun path => ?_⟩
      simp only [Assembly.assign, Heap.outline, arranged.reach?_assign reached here unlinked,
        Outline.set]
      split
      · rfl
      · split
        · rfl
        · split
          next same _ way =>
            have within := (List.prefix_concat_iff.mp way).resolve_left same
            exact Heap.outline_of_prefix reached within
          next => rfl
    | cons following deeper =>
      have split : front ++ segment :: following :: deeper =
          (front ++ [segment]) ++ following :: deeper := by simp
      rcases Assembly.descend?_cases bare (.made number) here with
        ⟨next, held, into⟩ | ⟨blocked, into⟩
      · have reachedNext : assembly.heap.reach? (.object root) (front ++ [segment]) =
            some (.object next) := by
          simp [Heap.reach?_append, reached, Heap.reach?, held]
        obtain ⟨assigned, done, bareToo, arrangedToo, shows⟩ :=
          @ih (assembly.enter next) _ _ bare arranged reachedNext later (by simp)
        exact ⟨assigned, (assignAt?_of_descend value (by simp) into).trans done, bareToo, arrangedToo,
          split ▸ shows⟩
      · -- An object is made on the way, which hides what stood there before.
        obtain ⟨arrangedMade, reachedMade, elsewhere⟩ := arranged.make_assign reached here blocked
        have bareMade : assembly.heap.make.2.Bare := bare
        obtain ⟨assigned, done, bareToo, arrangedToo, shows⟩ :=
          @ih ((assembly.make.2.assign (.made number) segment (.object assembly.make.1)).enter
            assembly.make.1) _ _ (bareMade.assign number here _) arrangedMade reachedMade later
            (by simp)
        refine ⟨assigned, (assignAt?_of_descend value (by simp) into).trans done, bareToo,
          arrangedToo, ?_⟩
        rw [shows, split]
        refine Outline.set_congr fun path _ within => elsewhere path ?_
        rintro rfl
        exact within (List.prefix_append _ _)

/-- Loading variables object by object goes along with loading them into a tree. -/
theorem Assembly.outline_assignAll {assembly : Assembly} {root : Reference} {tree : Value}
    (bare : assembly.heap.Bare) (arranged : assembly.heap.Arranged root) (held : ObjectTree tree)
    (alike : assembly.heap.outline root = outline tree) (environment : Environment) :
    ∃ loaded grown, assembly.assignAll? root environment = some loaded ∧
      loadFrom? tree environment = some grown ∧ loaded.heap.outline root = outline grown := by
  induction environment generalizing assembly tree with
  | nil => exact ⟨assembly, tree, rfl, rfl, alike⟩
  | cons entry rest ih =>
    obtain ⟨name, text⟩ := entry
    rw [Assembly.assignAll?, loadFrom?]
    cases names : variablePath? name with
    | none => exact ih bare arranged held alike
    | some path =>
      have apart := variablePath?_apart names
      have more := variablePath?_ne_nil names
      have start : assembly.heap.reach? (.object root) [] = some (.object root) := rfl
      obtain ⟨assigned, done, bareToo, arrangedToo, shows⟩ :=
        outline_assignAt bare arranged start (variableValue text) apart more
      obtain ⟨grown, put, object, sets⟩ := outline_put? held (bare_variableValue text) apart more
      simp only [done, put]
      exact ih bareToo arrangedToo object (by rw [shows, sets, alike]; rfl)

/-- What a loading makes is seen to be the layer that the environment gives. -/
theorem Heap.load?_outline {heap : Heap} (bare : heap.Bare) (environment : Environment) :
    ∃ loaded, heap.load? environment = some (heap.make.1, loaded) ∧
      loadFrom? empty environment = some (environmentLayer environment) ∧
      loaded.heap.outline heap.make.1 = Settings.outline (environmentLayer environment) := by
  obtain ⟨loaded, grown, done, grows, shows⟩ :=
    @Assembly.outline_assignAll (Assembly.make { heap, moves := [] }).2 _ _ bare heap.arranged_made
      objectTree_empty heap.outline_made environment
  have layer : environmentLayer environment = grown := by rw [environmentLayer, grows, Option.getD_some]
  rw [layer]
  exact ⟨loaded, load?_of_assignAll done, grows, shows⟩

/-! ## Names of variables -/

theorem afterMark?_append (mark rest : List Char) : afterMark? mark (mark ++ rest) = some rest := by
  induction mark with
  | nil => rfl
  | cons m mark ih => simp [afterMark?, ih]

/-- A name that starts with the mark names a setting, whatever comes after it. -/
theorem exists_variablePath? (rest : String) :
    ∃ path, variablePath? (environmentMark ++ rest) = some path := by
  rw [variablePath?, String.toList_append, afterMark?_append]
  exact ⟨_, rfl⟩

/-- Whatever the variables are called, a loading keeps to itself: no segment of their
paths has two underscores in a row or is the parent's name, so that nothing is entered
or assigned to but what has been made before in the same loading, and the ancestor of
all objects stays as it is. What has been made is then the layer that the environment
gives. -/
theorem loading_keeps_to_itself :
    (∀ rest : String, ∃ path, variablePath? (environmentMark ++ rest) = some path ∧ path ≠ [] ∧
      ∀ segment ∈ path, ¬ ['_', '_'] <:+: segment.toList ∧ segment ≠ Value.parentName) ∧
    ∀ (heap : Heap) (environment : Environment), heap.Bare →
      ∃ loaded, heap.load? environment = some (heap.make.1, loaded) ∧ Contained heap loaded ∧
        (∀ move ∈ loaded.moves, move.ref ≠ .ancestor) ∧
        loadFrom? empty environment = some (environmentLayer environment) ∧
        loaded.heap.outline heap.make.1 = outline (environmentLayer environment) := by
  refine ⟨fun rest => ?_, fun heap environment bare => ?_⟩
  · obtain ⟨path, names⟩ := exists_variablePath? rest
    exact ⟨path, names, variablePath?_ne_nil names, fun segment member =>
      ⟨(spaced_segment names segment member).no_pair, variablePath?_apart names segment member⟩⟩
  · obtain ⟨loaded, done, contained⟩ := Heap.load?_contained bare environment
    obtain ⟨_, again, loads, shows⟩ := Heap.load?_outline bare environment
    rw [done] at again
    cases again
    exact ⟨loaded, done, contained, fun _ => contained.ref_ne_ancestor, loads, shows⟩

/-- A name that would spell the parent's with underscores names members of its own, and
what every object inherits, here under one of these names, is left alone. -/
theorem crafted_name_keeps_to_itself :
    let heap : Heap := ⟨[("proto", .value (.bool true))], [[("debug", .value (.bool true))]]⟩
    let environment : Environment := [("KWARGS___PROTO____POLLUTED", "yes"), ("KWARGS_PROTO__A", "")]
    heap.Bare ∧
      variablePath? "KWARGS___PROTO____POLLUTED" = some ["", "proto", "", "polluted"] ∧
      ∃ loaded, heap.load? environment = some (.made 1, loaded) ∧
        loaded.heap.ancestor = [("proto", .value (.bool true))] ∧
        loaded.heap.own (.made 0) = [("debug", .value (.bool true))] ∧
        (∀ move ∈ loaded.moves, move.ref ≠ .ancestor) ∧
        loaded.heap.outline (.made 1) = outline (environmentLayer environment) := by
  have bare : Heap.Bare
      ⟨[("proto", .value (.bool true))], [[("debug", .value (.bool true))]]⟩ := by
    intro name next found
    rw [List.lookup_cons] at found
    split at found <;> cases found
  obtain ⟨loaded, done, contained, apart, -, shows⟩ := loading_keeps_to_itself.2 _
    [("KWARGS___PROTO____POLLUTED", "yes"), ("KWARGS_PROTO__A", "")] bare
  exact ⟨bare, by rfl, loaded, done, contained.ancestor, contained.before 0 (by decide), apart, shows⟩

end NamedArguments.Settings
