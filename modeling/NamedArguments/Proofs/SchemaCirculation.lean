import NamedArguments.Holdings
import NamedArguments.Proofs.SchemaOffences

/-! Schemas in circulation. A schema comes from lists, a table or a builder, and
in each case it has passed the check. It keeps to it for good, because its lists
are copies that nobody can add to; the lists that it was made from may grow. On
a shelf nothing of this shows: defining a schema over holdings puts the same
object there as defining it from values, and adding to a list that is one half
of one schema is adding to that half. -/
namespace NamedArguments

namespace Schema

/-- A list given to a definition, or nothing, has keys. -/
@[simp] theorem givenKeys_list (identity : Identity) (keys : List Value) :
    givenKeys (.list identity keys) = .ok keys := rfl

/-- Defining from lists is checking what they make up. -/
theorem define_lists (a b : Identity) (required optional : List Value) (others : Value) :
    define (.list a required) (.list b optional) others =
      ((ofLists required optional (others.orElse (.bool false))).validate).map fun _ =>
        ofLists required optional (others.orElse (.bool false)) := by
  simp only [define, givenKeys_list]
  cases (ofLists required optional (others.orElse (.bool false))).validate <;> rfl

/-- Distinct keywords, and no others, are defined as they are. -/
theorem define_lists_eq_ok_iff {a b : Identity} {required optional : List Value} {others : Value}
    {made : Schema} :
    define (.list a required) (.list b optional) others = .ok made ↔
      made = ofLists required optional (others.orElse (.bool false)) ∧
        DistinctKeywords (required ++ optional) := by
  rw [define_lists, ← validate_ofLists_iff required optional (others.orElse (.bool false))]
  cases (ofLists required optional (others.orElse (.bool false))).validate with
  | error fault => simp [Except.map]
  | ok checked => simp [Except.map, eq_comm]

/-- Defining from lists fails with the fault of the first key that offends. -/
theorem define_lists_eq_error_iff {a b : Identity} {required optional : List Value} {others : Value}
    {fault : Fault} :
    define (.list a required) (.list b optional) others = .error fault ↔
      ∃ index offence, fault = .schema offence ∧
        FirstOffence (required ++ optional) index offence := by
  rw [define_lists, ← validate_eq_error_iff required optional (others.orElse (.bool false))]
  cases (ofLists required optional (others.orElse (.bool false))).validate <;> simp [Except.map]

/-- A definition gives a schema of lists that has passed the check. -/
theorem define_eq_ok {required optional others : Value} {schema : Schema}
    (defined : define required optional others = .ok schema) :
    ∃ requiredKeys optionalKeys,
      schema = .ofLists requiredKeys optionalKeys (others.orElse (.bool false)) ∧
        DistinctKeywords (requiredKeys ++ optionalKeys) := by
  unfold define at defined
  cases first : givenKeys required with
  | error fault => simp [first] at defined
  | ok requiredKeys =>
    cases second : givenKeys optional with
    | error fault => simp [first, second] at defined
    | ok optionalKeys =>
      cases checked : (ofLists requiredKeys optionalKeys (others.orElse (.bool false))).validate with
      | error fault => simp [first, second, checked] at defined
      | ok passed =>
        simp only [first, second, checked, Except.ok.injEq] at defined
        exact ⟨requiredKeys, optionalKeys, defined.symm, (validate_ofLists_iff _ _ _).mp checked⟩

/-- What is decoded from a table has been defined from parts of it. -/
theorem define_of_ofTable {table required optional : Value} {schema : Schema}
    (decoded : ofTable table required optional = .ok schema) :
    ∃ requiredKeys optionalKeys others, define requiredKeys optionalKeys others = .ok schema := by
  unfold ofTable at decoded
  split at decoded
  · split at decoded
    · cases decoded
    · split at decoded
      · exact ⟨_, _, _, decoded⟩
      · cases decoded
    · cases decoded
  · cases decoded

end Schema

/-- Whatever a schema is made from, it is one of lists that has passed the check. -/
theorem Recipe.schema_eq_ok {recipe : Recipe} {schema : Schema} (made : recipe.schema = .ok schema) :
    ∃ required optional others, schema = .ofLists required optional others ∧
      DistinctKeywords (required ++ optional) := by
  obtain ⟨requiredKeys, optionalKeys, others, defined⟩ : ∃ requiredKeys optionalKeys others,
      Schema.define requiredKeys optionalKeys others = .ok schema := by
    cases recipe with
    | lists required optional others => exact ⟨_, _, _, made⟩
    | table entries required optional => exact Schema.define_of_ofTable made
    | builder built =>
      exact ⟨.list .merged built.requiredKeys, .list .merged built.optionalKeys, built.others, made⟩
  obtain ⟨required, optional, same, distinct⟩ := Schema.define_eq_ok defined
  exact ⟨required, optional, _, same, distinct⟩

namespace Holdings

/-- Frozen lists stay as they are, and schemas keep their places and lists. -/
structure Keeps (before after : Holdings) : Prop where
  frozen : ∀ (id : Nat) list, before.lists[id]? = some list → list.frozen = true →
    after.lists[id]? = some list
  schemas : before.schemas <+: after.schemas

theorem Keeps.refl (held : Holdings) : held.Keeps held :=
  ⟨fun _ _ found _ => found, List.prefix_refl _⟩

theorem Keeps.trans {before middle after : Holdings} (first : before.Keeps middle)
    (second : middle.Keeps after) : before.Keeps after where
  frozen := fun id list found frozen =>
    second.frozen id list (first.frozen id list found frozen) frozen
  schemas := first.schemas.trans second.schemas

theorem getElem?_append_of_some {α : Type} {before : List α} {index : Nat} {x : α} (more : List α)
    (found : before[index]? = some x) : (before ++ more)[index]? = some x :=
  (List.getElem?_append_left (List.getElem?_eq_some_iff.mp found).1).trans found

/-- Only a list that is not frozen can be added to. -/
theorem append_cases {held after : Holdings} {id : Nat} {key : Value}
    (appended : held.append id key = .ok after) :
    ∃ items, held.lists[id]? = some ⟨items, false⟩ ∧
      after = { held with lists := held.lists.set id ⟨items ++ [key], false⟩ } := by
  unfold append at appended
  split at appended
  next items found =>
    cases appended
    exact ⟨items, found, rfl⟩
  next => cases appended

theorem keeps_perform (held : Holdings) (deed : Deed) : held.Keeps (held.perform deed) := by
  cases deed with
  | list items =>
    exact ⟨fun id list found _ => getElem?_append_of_some _ found, List.prefix_refl _⟩
  | append id key =>
    simp only [perform]
    split
    next after appended =>
      obtain ⟨items, stands, rfl⟩ := append_cases appended
      refine ⟨fun other list found frozen => ?_, List.prefix_refl _⟩
      have apart : id ≠ other := by
        rintro rfl
        rw [stands, Option.some.injEq] at found
        rw [← found] at frozen
        cases frozen
      exact (List.getElem?_set_ne apart).trans found
    next => exact .refl held
  | assemble required optional others =>
    simp only [perform]
    split
    · exact ⟨fun _ _ found _ => found, List.prefix_append _ _⟩
    · exact .refl held
  | define source =>
    simp only [perform]
    split
    · exact ⟨fun id list found _ => getElem?_append_of_some _ found, List.prefix_append _ _⟩
    · exact .refl held

theorem keeps_after (held : Holdings) (deeds : List Deed) : held.Keeps (held.after deeds) := by
  induction deeds generalizing held with
  | nil => exact .refl held
  | cons deed rest ih => exact (keeps_perform held deed).trans (ih _)

/-- Every schema has lists that are there, and a frozen one has frozen lists of
distinct keywords. -/
structure Sound (held : Holdings) : Prop where
  there : ∀ linked ∈ held.schemas,
    linked.required < held.lists.length ∧ linked.optional < held.lists.length
  frozen : ∀ linked ∈ held.schemas, linked.frozen = true →
    ∃ required optional, held.lists[linked.required]? = some ⟨required, true⟩ ∧
      held.lists[linked.optional]? = some ⟨optional, true⟩ ∧
        DistinctKeywords (required ++ optional)

theorem sound_empty : empty.Sound := ⟨nofun, nofun⟩

/-- The schemas that there were remain sound. -/
theorem Sound.kept {before after : Holdings} (sound : before.Sound) (keeps : before.Keeps after)
    (longer : before.lists.length ≤ after.lists.length) (linked : LinkedSchema)
    (member : linked ∈ before.schemas) :
    (linked.required < after.lists.length ∧ linked.optional < after.lists.length) ∧
      (linked.frozen = true → ∃ required optional,
        after.lists[linked.required]? = some ⟨required, true⟩ ∧
          after.lists[linked.optional]? = some ⟨optional, true⟩ ∧
            DistinctKeywords (required ++ optional)) := by
  obtain ⟨first, second⟩ := sound.there linked member
  refine ⟨⟨by omega, by omega⟩, fun frozen => ?_⟩
  obtain ⟨required, optional, requiredHeld, optionalHeld, distinct⟩ :=
    sound.frozen linked member frozen
  exact ⟨required, optional, keeps.frozen _ _ requiredHeld rfl, keeps.frozen _ _ optionalHeld rfl,
    distinct⟩

theorem sound_perform {held : Holdings} (sound : held.Sound) (deed : Deed) :
    (held.perform deed).Sound := by
  have keeps := keeps_perform held deed
  cases deed with
  | list items =>
    have kept := sound.kept keeps (by simp [perform])
    exact ⟨fun linked member => (kept linked member).1, fun linked member => (kept linked member).2⟩
  | append id key =>
    simp only [perform] at keeps ⊢
    cases appended : held.append id key with
    | error fault => exact sound
    | ok after =>
      simp only [appended] at keeps
      obtain ⟨items, -, rfl⟩ := append_cases appended
      have kept := sound.kept keeps (by simp)
      exact ⟨fun linked member => (kept linked member).1, fun linked member => (kept linked member).2⟩
  | assemble required optional others =>
    simp only [perform]
    split
    next inside =>
      refine ⟨fun linked member => ?_, fun linked member frozen => ?_⟩
      · rcases List.mem_append.mp member with before | made
        · exact sound.there linked before
        · rw [List.mem_singleton.mp made]
          exact inside
      · rcases List.mem_append.mp member with before | made
        · exact sound.frozen linked before frozen
        · rw [List.mem_singleton.mp made] at frozen
          cases frozen
    next => exact sound
  | define source =>
    simp only [perform] at keeps ⊢
    split
    next schema made =>
      simp only [made] at keeps
      obtain ⟨required, optional, others, rfl, distinct⟩ := Recipe.schema_eq_ok made
      have kept := sound.kept keeps (by simp [adopt])
      -- The two lists of the schema that is made stand behind all others.
      have first : (held.adopt (.ofLists required optional others)).lists[held.lists.length]? =
          some ⟨required, true⟩ := by simp [adopt, copy, Schema.ofLists, Part.sequence?]
      have second : (held.adopt (.ofLists required optional others)).lists[held.lists.length + 1]? =
          some ⟨optional, true⟩ := by simp [adopt, copy, Schema.ofLists, Part.sequence?]
      refine ⟨fun linked member => ?_, fun linked member frozen => ?_⟩
      · rcases List.mem_append.mp member with before | made
        · exact (kept linked before).1
        · rw [List.mem_singleton.mp made]
          exact ⟨(List.getElem?_eq_some_iff.mp first).1, (List.getElem?_eq_some_iff.mp second).1⟩
      · rcases List.mem_append.mp member with before | made
        · exact (kept linked before).2 frozen
        · rw [List.mem_singleton.mp made]
          exact ⟨required, optional, first, second, distinct⟩
    next => exact sound

theorem sound_after {held : Holdings} (sound : held.Sound) (deeds : List Deed) :
    (held.after deeds).Sound := by
  induction deeds generalizing held with
  | nil => exact sound
  | cons deed rest ih => exact ih (sound_perform sound deed)

/-- What stands on the shelf is a schema that is held, as it reads at present. -/
theorem held_shelf_iff (held : Holdings) (id : Nat) (object : HeldSchema) :
    held.shelf.held[id]? = some object ↔
      ∃ linked, held.schemas[id]? = some linked ∧ object = ⟨held.schema linked, linked.frozen⟩ := by
  simp only [shelf, List.getElem?_map, Option.map_eq_some_iff]
  exact exists_congr fun linked => and_congr_right fun _ => eq_comm

theorem items_of_held {held : Holdings} {id : Nat} {list : HeldList}
    (found : held.lists[id]? = some list) : held.items id = list.items := by
  simp [items, found]

/-- A frozen object of sound holdings satisfies the check and stays as it is. -/
theorem Sound.frozen_object {before after : Holdings} (sound : before.Sound)
    (keeps : before.Keeps after) {id : Nat} {object : HeldSchema}
    (found : before.shelf.held[id]? = some object) (frozen : object.frozen = true) :
    object.schema.validate = .ok () ∧ after.shelf.held[id]? = some object := by
  obtain ⟨linked, stands, rfl⟩ := (held_shelf_iff _ _ _).mp found
  obtain ⟨required, optional, first, second, distinct⟩ :=
    sound.frozen linked (List.mem_of_getElem? stands) frozen
  have reads : before.schema linked = .ofLists required optional linked.others := by
    rw [schema, items_of_held first, items_of_held second]
  have readsAfter : after.schema linked = .ofLists required optional linked.others := by
    rw [schema, items_of_held (keeps.frozen _ _ first rfl),
      items_of_held (keeps.frozen _ _ second rfl)]
  constructor
  · simp only [reads]
    exact (Schema.validate_ofLists_iff _ _ _).mpr distinct
  · obtain ⟨more, same⟩ := keeps.schemas
    refine (held_shelf_iff _ _ _).mpr ⟨linked, ?_, by rw [reads, readsAfter]⟩
    rw [← same]
    exact getElem?_append_of_some more stands

/-- Further lists change nothing about the schemas there are. -/
theorem schema_of_longer {held : Holdings} (sound : held.Sound) (more : List HeldList)
    (schemas : List LinkedSchema) {linked : LinkedSchema} (member : linked ∈ held.schemas) :
    Holdings.schema { lists := held.lists ++ more, schemas } linked = held.schema linked := by
  obtain ⟨first, second⟩ := sound.there linked member
  simp only [schema, items, List.getElem?_append_left first, List.getElem?_append_left second]

/-- A definition over holdings does to the shelf what the definition from its
values does. -/
theorem shelf_define {held : Holdings} (sound : held.Sound) (source : Source) (program : Program)
    (same : program.shelf = held.shelf) :
    (held.perform (.define source)).shelf =
      (program.perform (.define (held.recipe source))).shelf := by
  simp only [perform, Program.perform]
  cases made : (held.recipe source).schema with
  | error fault => exact same.symm
  | ok schema =>
    obtain ⟨required, optional, others, rfl, -⟩ := Recipe.schema_eq_ok made
    simp only [same, Shelf.add, shelf, adopt, List.map_append, List.map_cons, List.map_nil]
    congr 2
    · exact List.map_congr_left fun linked member => by rw [schema_of_longer sound _ _ member]
    · simp [Holdings.schema, items, copy, Schema.ofLists, Part.sequence?]

/-- A frozen schema refuses a key on either side. -/
theorem push_frozen {held : Holdings} (sound : held.Sound) {place : Nat} {linked : LinkedSchema}
    (which : Half) (key : Value) (stands : held.schemas[place]? = some linked)
    (frozen : linked.frozen = true) :
    held.append (linked.half which) key = .error .unsupported ∧
      held.shelf.push (some place) which key = .error .unsupported := by
  obtain ⟨required, optional, first, second, -⟩ :=
    sound.frozen linked (List.mem_of_getElem? stands) frozen
  have object : held.shelf.held[place]? = some ⟨held.schema linked, true⟩ :=
    (held_shelf_iff _ _ _).mpr ⟨linked, stands, by rw [frozen]⟩
  constructor
  · cases which <;> simp [append, LinkedSchema.half, first, second]
  · cases which <;>
      simp [Shelf.push, Shelf.get?, object, Schema.half, schema, Schema.ofLists]

/-- The items of lists once one of them has others. -/
theorem items_set {held : Holdings} {id : Nat} (list : HeldList) (there : id < held.lists.length)
    (schemas : List LinkedSchema) (other : Nat) :
    Holdings.items { lists := held.lists.set id list, schemas } other =
      if other = id then list.items else held.items other := by
  by_cases same : other = id
  · subst same
    simp [items, there]
  · simp [items, List.getElem?_set_ne (Ne.symm same), same]

/-- Adding to a list that is one half of one schema, and nothing else besides,
does to the shelf what pushing onto that half does. -/
theorem shelf_append {held after : Holdings} {place : Nat} {linked : LinkedSchema} {which : Half}
    {key : Value} (stands : held.schemas[place]? = some linked) (growing : linked.frozen = false)
    (alone : ∀ (other : Nat) (too : LinkedSchema) (side : Half), held.schemas[other]? = some too →
      too.half side = linked.half which → other = place ∧ side = which)
    (appended : held.append (linked.half which) key = .ok after) :
    ∃ answer, held.shelf.push (some place) which key = .ok (answer, after.shelf) := by
  obtain ⟨items, found, rfl⟩ := append_cases appended
  have inside := (List.getElem?_eq_some_iff.mp found).1
  have object : held.shelf.held[place]? = some ⟨held.schema linked, false⟩ :=
    (held_shelf_iff _ _ _).mpr ⟨linked, stands, by rw [growing]⟩
  have keys : (held.schema linked).half which = .keys items := by
    rw [← show held.items (linked.half which) = items from items_of_held found]
    cases which <;> rfl
  refine ⟨.number (.ofNat (items.length + 1)), ?_⟩
  simp only [Shelf.push, Shelf.get?, Option.bind_some, object, keys, Bool.false_eq_true, ↓reduceIte,
    Except.ok.injEq, Prod.mk.injEq, true_and]
  congr 1
  refine List.ext_getElem? fun index => ?_
  simp only [shelf, List.getElem?_set, List.getElem?_map, List.length_map]
  by_cases same : place = index
  · subst same
    have short := (List.getElem?_eq_some_iff.mp stands).1
    rw [if_pos rfl, if_pos short, stands, Option.map_some, growing]
    cases which with
    | required =>
      have apart : linked.optional ≠ linked.required := fun meet =>
        nomatch (alone place linked .optional stands meet).2
      have here : linked.required < held.lists.length := inside
      simp only [schema, Schema.withHalf, Schema.ofLists, LinkedSchema.half, items_set _ here,
        ↓reduceIte, if_neg apart]
    | optional =>
      have apart : linked.required ≠ linked.optional := fun meet =>
        nomatch (alone place linked .required stands meet).2
      have here : linked.optional < held.lists.length := inside
      simp only [schema, Schema.withHalf, Schema.ofLists, LinkedSchema.half, items_set _ here,
        ↓reduceIte, if_neg apart]
  · rw [if_neg same]
    cases other : held.schemas[index]? with
    | none => rfl
    | some too =>
      have first : too.required ≠ linked.half which := fun meet =>
        same (alone index too .required other meet).1.symm
      have second : too.optional ≠ linked.half which := fun meet =>
        same (alone index too .optional other meet).1.symm
      simp only [Option.map_some, schema, items_set _ inside, if_neg first, if_neg second]

end Holdings

/-- A definition from lists goes through exactly where all keys are keywords no
two of which are the same, and then gives a schema of just these lists.
Otherwise it fails with the fault of the first key that is no keyword or is the
same as one before it, and so does the check of a schema of these lists. What
any definition adds to a program's schemas is frozen. From then on it satisfies
the check and stays as it is, whatever the program does with its lists. -/
theorem definitions_exact :
    (∀ (a b : Identity) (required optional : List Value) (others : Value),
      let keys := required ++ optional
      let schema := Schema.ofLists required optional (others.orElse (.bool false))
      let defined := Schema.define (.list a required) (.list b optional) others
      (defined = .ok schema ↔
        ∃ keywords : List Keyword, keys = keywords.map Keyword.value ∧
          keywords.Pairwise fun first second => ¬ first.Same second) ∧
      (∀ made, defined = .ok made → made = schema) ∧
      (∀ fault, defined = .error fault ↔
        ∃ index offence, fault = .schema offence ∧ Schema.FirstOffence keys index offence) ∧
      (∀ index offence, Schema.Offence keys index offence →
        (offence.reason.value = .text "invalid_keyword" ∧ offence.keyword = .undefined) ∨
          (offence.reason.value = .text "duplicate_keyword" ∧
            keys[index]? = some offence.keyword)) ∧
      ∀ fault, (Schema.ofLists required optional others).validate = .error fault ↔
        defined = .error fault) ∧
    ∀ deeds : List Deed,
      let held := Holdings.empty.after deeds
      (∀ source schema, (held.recipe source).schema = .ok schema →
        (held.perform (.define source)).shelf.held = held.shelf.held ++ [⟨schema, true⟩]) ∧
      ∀ (id : Nat) object, held.shelf.held[id]? = some object → object.frozen = true →
        object.schema.validate = .ok () ∧
          ∀ more, (held.after more).shelf.held[id]? = some object := by
  constructor
  · intro a b required optional others keys schema defined
    refine ⟨?_, fun made gone => ?_, fun fault => ?_, fun index offence => Schema.Offence.payload,
      fun fault => ?_⟩
    · rw [← distinctKeywords_iff_pairwise, Schema.define_lists_eq_ok_iff]
      exact and_iff_right rfl
    · exact (Schema.define_lists_eq_ok_iff.mp gone).1
    · exact Schema.define_lists_eq_error_iff
    · rw [Schema.validate_eq_error_iff]
      exact Schema.define_lists_eq_error_iff.symm
  · intro deeds held
    have sound : held.Sound := Holdings.sound_after Holdings.sound_empty deeds
    refine ⟨fun source schema made => ?_, fun id object found frozen => ⟨?_, fun more => ?_⟩⟩
    · have program := Holdings.shelf_define sound source
        { Program.fresh ⟨[], .empty⟩ with shelf := held.shelf } rfl
      rw [program]
      simp only [Program.perform, made, Shelf.add]
    · exact (sound.frozen_object (.refl held) found frozen).1
    · exact (sound.frozen_object (Holdings.keeps_after held more) found frozen).2

/-- Two names with nothing sensible between them: the second place offends. A
schema made from a list of one name does not grow with the list. -/
theorem definitions_exact_grown :
    let deeds : List Deed :=
      [.list [.text "name"], .define (.lists (.list 0) (.value .undefined) .undefined)]
    Schema.define (.list .merged [.text "name", .null]) (.list .merged [.text "name"]) .undefined =
        .error (.schema (.notKeyword "object")) ∧
      ((Holdings.empty.after deeds).after [.append 0 (.text "name")]).items 0 =
        [.text "name", .text "name"] ∧
      ((Holdings.empty.after deeds).after [.append 0 (.text "name")]).shelf.held[0]? =
        some ⟨.ofLists [.text "name"] [] (.bool false), true⟩ ∧
      (Schema.ofLists [.text "name"] [] (.bool false)).validate = .ok () := by
  intro deeds
  obtain ⟨exact, circulating⟩ := definitions_exact
  refine ⟨?_, rfl, ?_⟩
  · obtain ⟨-, -, failed, -, -⟩ :=
      exact .merged .merged [.text "name", .null] [.text "name"] .undefined
    apply (failed _).mpr
    refine ⟨1, _, rfl, @Schema.Offence.nameless _ 1 .null rfl rfl, fun earlier before other offends => ?_⟩
    obtain rfl : earlier = 0 := by omega
    cases offends with
    | nameless here names =>
      cases here
      cases names
    | repeated _ earlier _ _ => cases earlier
  · have object := (circulating deeds).2 0 ⟨.ofLists [.text "name"] [] (.bool false), true⟩ rfl rfl
    exact ⟨object.2 _, object.1⟩

end NamedArguments
