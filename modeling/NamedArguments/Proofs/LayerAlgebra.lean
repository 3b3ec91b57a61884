import NamedArguments.Proofs.SettingTrees

/-! The algebra of layers that are trees. Trees are compared by what they hold
under each path, in whatever order and whatever objects they are made of. A layer
laid twice is laid once. Three layers may be laid in two groups, unless the one in
the middle has something else where the others have objects: laid first on the
lowest it hides that object for good, laid under the highest it leaves no trace. -/
namespace NamedArguments.Settings

/-- The same leaves under the same names. -/
inductive SameTree : Value → Value → Prop where
  | leaf {v : Value} (bare : v.isRecord = false) : SameTree v v
  | objects {one other : Value} (object : one.isRecord = true) (too : other.isRecord = true)
      (names : ∀ name, (one.ownMembers.lookup name).isSome = (other.ownMembers.lookup name).isSome)
      (inside : ∀ name v w, one.ownMembers.lookup name = some v →
        other.ownMembers.lookup name = some w → SameTree v w) :
      SameTree one other

/-- Two objects hold the same under a name. -/
def SameUnder (one other : Value) (name : String) : Prop :=
  Option.Rel SameTree (one.ownMembers.lookup name) (other.ownMembers.lookup name)

variable {one other another old new lower upper : Value} {name : String}

theorem SameUnder.eq_some (same : SameUnder one other name) {v w : Value}
    (here : one.ownMembers.lookup name = some v) (there : other.ownMembers.lookup name = some w) :
    SameTree v w := by
  rw [SameUnder, here, there] at same
  cases same with
  | some same => exact same

/-- Objects are the same trees if they are under each name. -/
theorem SameTree.of_under (object : one.isRecord = true) (too : other.isRecord = true)
    (same : ∀ name, SameUnder one other name) : SameTree one other := by
  refine .objects object too (fun name => ?_) fun name v w here there =>
    (same name).eq_some here there
  have under : Option.Rel SameTree _ _ := same name
  revert under
  generalize one.ownMembers.lookup name = here, other.ownMembers.lookup name = there
  rintro (_ | _) <;> rfl

theorem SameTree.under (same : SameTree one other) (object : one.isRecord = true) (name : String) :
    SameUnder one other name := by
  cases same with
  | leaf bare =>
    rw [bare] at object
    cases object
  | objects _ _ names inside =>
    have both := names name
    unfold SameUnder
    cases here : one.ownMembers.lookup name <;> cases there : other.ownMembers.lookup name
    case none.none => exact .none
    case some.some => exact .some (inside name _ _ here there)
    all_goals simp [here, there] at both

theorem SameTree.isRecord (same : SameTree one other) : one.isRecord = other.isRecord := by
  cases same with
  | leaf => rfl
  | objects object too => rw [object, too]

/-- Trees by what they hold under each name. -/
@[elab_as_elim]
theorem Tree.induction {motive : (v : Value) → Tree v → Prop}
    (leaf : ∀ v (bare : v.isRecord = false), motive v (.leaf bare))
    (object : ∀ v (held : ObjectTree v),
      (∀ name w (found : v.ownMembers.lookup name = some w), motive w (held.tree.own found)) →
        motive v held.tree) {v : Value} (tree : Tree v) : motive v tree := by
  induction tree with
  | leaf bare => exact leaf _ bare
  | object ordinary distinct unparented inside ih =>
    exact object _ ⟨.object ordinary distinct unparented inside, rfl⟩ fun name w found =>
      ih (name, w) (Members.mem_of_lookup found)

theorem SameTree.refl (tree : Tree one) : SameTree one one := by
  induction tree using Tree.induction with
  | leaf v bare => exact .leaf bare
  | object v held ih =>
    refine .objects held.object held.object (fun _ => rfl) fun name v w here there => ?_
    rw [here] at there
    cases there
    exact ih name v here

theorem SameTree.symm (same : SameTree one other) : SameTree other one := by
  induction same with
  | leaf bare => exact .leaf bare
  | objects object too names _ ih =>
    exact .objects too object (fun name => (names name).symm) fun name v w here there =>
      ih name w v there here

theorem SameTree.trans (same : SameTree one other) (more : SameTree other another) :
    SameTree one another := by
  induction same generalizing another with
  | leaf => exact more
  | objects object too names _ ih =>
    cases more with
    | leaf bare =>
      rw [bare] at too
      cases too
    | objects _ last names' inside =>
      refine .objects object last (fun name => (names name).trans (names' name)) ?_
      intro name v w here there
      have some : (List.lookup name _).isSome = true := (names name).symm.trans (by rw [here]; rfl)
      obtain ⟨u, between⟩ := Option.isSome_iff_exists.mp some
      exact ih name v u here between (inside name u w between there)

/-! ## Laying layers over one another -/

theorem overlay_undefined (new : Value) : overlay .undefined new = new := overlay_bare rfl

/-- What an object holds under a name, or undefined. -/
def under (v : Value) (name : String) : Value := (v.ownMembers.lookup name).getD .undefined

theorem under_of_lookup (found : one.ownMembers.lookup name = some new) : under one name = new := by
  rw [under, found, Option.getD_some]

theorem Tree.tree_under (tree : Tree one) (name : String) : Tree (under one name) := by
  unfold under
  cases found : one.ownMembers.lookup name with
  | some v => exact tree.own found
  | none => exact .leaf rfl

theorem SameUnder.sameTree (same : SameUnder one other name) :
    SameTree (under one name) (under other name) := by
  revert same
  unfold SameUnder under
  generalize one.ownMembers.lookup name = here, other.ownMembers.lookup name = there
  rintro (same | _)
  · exact same
  · exact .leaf rfl

/-- Where the upper layer has something, it is laid over what the lower one has;
elsewhere the lower layer shows. -/
theorem lookup_layer_cases (lower : Value) (above : ObjectTree upper) (name : String) :
    (upper.ownMembers.lookup name = none ∧
      (layer lower upper).ownMembers.lookup name = lower.ownMembers.lookup name) ∨
    ∃ new, upper.ownMembers.lookup name = some new ∧ Tree new ∧
      (layer lower upper).ownMembers.lookup name = some (overlay (under lower name) new) := by
  rw [lookup_layer lower above]
  cases given : upper.ownMembers.lookup name with
  | none => exact Or.inl ⟨rfl, rfl⟩
  | some new => exact Or.inr ⟨new, rfl, above.tree.own given, rfl⟩

/-- Layers that are the same trees come to the same over the same trees. -/
theorem overlay_congr (below : SameTree one other) (above : SameTree old new) (first : Tree old)
    (second : Tree new) : SameTree (overlay one old) (overlay other new) := by
  induction above generalizing one other with
  | leaf bare =>
    rw [overlay_leaf bare, overlay_leaf bare]
    exact .leaf bare
  | @objects old new object too names inside ih =>
    cases lower : one.isRecord with
    | false =>
      rw [overlay_bare lower, overlay_bare (below.isRecord.symm.trans lower)]
      exact .objects object too names inside
    | true =>
      have held : ObjectTree old := ⟨first, object⟩
      have heldToo : ObjectTree new := ⟨second, too⟩
      rw [overlay_objects lower held, overlay_objects (below.isRecord.symm.trans lower) heldToo]
      refine .of_under (isRecord_layer _ _) (isRecord_layer _ _) fun name => ?_
      have both := names name
      have same := below.under lower name
      rcases lookup_layer_cases one held name with ⟨missing, here⟩ | ⟨v, given, tree, here⟩ <;>
        rcases lookup_layer_cases other heldToo name with ⟨lacks, there⟩ | ⟨w, has, treeToo, there⟩
      · rwa [SameUnder, here, there]
      · simp [missing, has] at both
      · simp [given, lacks] at both
      · rw [SameUnder, here, there]
        exact .some (ih name v w given has same.sameTree tree treeToo)

theorem layer_congr (object : one.isRecord = true) (below : SameTree one other)
    (above : SameTree old new) (first : ObjectTree old) (second : ObjectTree new) :
    SameTree (layer one old) (layer other new) := by
  rw [← overlay_objects object first, ← overlay_objects (below.isRecord.symm.trans object) second]
  exact overlay_congr below above first.tree second.tree

theorem SameUnder.of_eq (tree : Tree other)
    (same : one.ownMembers.lookup name = other.ownMembers.lookup name) :
    SameUnder one other name := by
  rw [SameUnder, same]
  cases found : other.ownMembers.lookup name with
  | none => exact .none
  | some v => exact .some (.refl (tree.own found))

theorem objectTree_overlay (lower : Tree old) (held : ObjectTree new) :
    ObjectTree (overlay old new) := by
  cases object : old.isRecord with
  | false => exact overlay_bare object ▸ held
  | true => exact overlay_objects object held ▸ objectTree_layer lower held

/-- Whatever an object gives a name is there once it is laid, over something. -/
theorem overlay_gives (lower : Tree old) (held : ObjectTree new) {v : Value}
    (given : new.ownMembers.lookup name = some v) :
    ∃ before, Tree before ∧ (overlay old new).ownMembers.lookup name = some (overlay before v) := by
  cases object : old.isRecord with
  | false =>
    refine ⟨.undefined, .leaf rfl, ?_⟩
    rw [overlay_bare object, given, overlay_undefined]
  | true =>
    refine ⟨under old name, lower.tree_under name, ?_⟩
    rw [overlay_objects object held, lookup_layer old held, given]
    rfl

/-- A value laid over something twice is laid over it once. -/
theorem overlay_again (upper : Tree new) (lower : Tree old) :
    SameTree (overlay (overlay old new) new) (overlay old new) := by
  induction upper using Tree.induction generalizing old with
  | leaf v bare =>
    rw [overlay_leaf bare, overlay_leaf bare]
    exact .leaf bare
  | object v held ih =>
    have made := objectTree_overlay lower held
    rw [overlay_objects made.object held]
    refine .of_under (isRecord_layer _ _) made.object fun name => ?_
    rcases lookup_layer_cases (overlay old v) held name with ⟨_, shows⟩ | ⟨w, given, _, laid⟩
    · exact .of_eq made.tree shows
    · obtain ⟨before, tree, found⟩ := overlay_gives lower held given
      rw [SameUnder, laid, under_of_lookup found, found]
      exact .some (ih name w given tree)

/-- A layer laid twice is laid once. -/
theorem layer_again (below : ObjectTree lower) (above : ObjectTree upper) :
    SameTree (layer (layer lower upper) upper) (layer lower upper) := by
  have again := overlay_again above.tree below.tree
  rwa [overlay_objects below.object above, overlay_objects (isRecord_layer _ _) above] at again

/-- What a path of own members leads to. -/
def held? : List String → Value → Option Value
  | [], v => some v
  | name :: rest, v => (v.ownMembers.lookup name).bind (held? rest)

section

variable {v w : Value} {path : List String}

theorem held?_bare (bare : v.isRecord = false) (more : path ≠ []) : held? path v = none := by
  cases path with
  | nil => exact absurd rfl more
  | cons name rest =>
    have none : v.ownMembers = [] := by
      cases v <;> simp_all [Value.ownMembers, Value.isRecord]
    simp [held?, none]

theorem held?_append (path more : List String) (v : Value) :
    held? (path ++ more) v = (held? path v).bind (held? more) := by
  induction path generalizing v with
  | nil => rfl
  | cons name rest ih =>
    have further : held? (rest ++ more) = fun v => (held? rest v).bind (held? more) := funext ih
    rw [List.cons_append, held?, held?, further, Option.bind_assoc]

/-- Own members are what is read, and reading them is never refused. -/
theorem member_of_lookup (found : v.ownMembers.lookup name = some w) :
    v.isRecord = true ∧ v.member name = w ∧ v.refusesReading name = false := by
  cases v with
  | object identity parent members =>
    have held : members.lookup name = some w := found
    exact ⟨rfl, member_of_own held, by simp [Value.refusesReading, Value.workedOutBy?, held]⟩
  | _ => cases found

theorem follow_of_held? (found : held? path v = some w) :
    follow v path = w ∧ followRefused v path = false := by
  induction path generalizing v with
  | nil =>
    cases found
    exact ⟨rfl, rfl⟩
  | cons name rest ih =>
    obtain ⟨u, own, further⟩ := Option.bind_eq_some_iff.mp found
    obtain ⟨object, read, readable⟩ := member_of_lookup own
    obtain ⟨reached, unrefused⟩ := ih further
    simp only [follow, followRefused, object, read, readable, reached, unrefused, if_true,
      Bool.or_self, Bool.and_false, and_self]

end

/-- Somewhere the lowest and the highest layer both hold objects, and the one
between them has something else. -/
def Clash (low middle high : Value) : Prop :=
  ∃ path u v w, held? path low = some u ∧ u.isRecord = true ∧
    held? path middle = some v ∧ v.isRecord = false ∧ held? path high = some w ∧ w.isRecord = true

theorem Clash.here (low : one.isRecord = true) (middle : other.isRecord = false)
    (high : another.isRecord = true) : Clash one other another :=
  ⟨[], one, other, another, rfl, low, rfl, middle, rfl, high⟩

/-- A clash under a name is one of the objects that hold the name. -/
theorem Clash.below {u v w : Value} (clash : Clash u v w)
    (low : one.ownMembers.lookup name = some u) (middle : other.ownMembers.lookup name = some v)
    (high : another.ownMembers.lookup name = some w) : Clash one other another := by
  obtain ⟨path, u', v', w', first, object, second, bare, third, too⟩ := clash
  refine ⟨name :: path, u', v', w', ?_, object, ?_, bare, ?_, too⟩
  · rw [held?, low, Option.bind_some, first]
  · rw [held?, middle, Option.bind_some, second]
  · rw [held?, high, Option.bind_some, third]

/-- Three layers come to the same under a name in both groupings, if what they all
have there does. Where one of them lacks the name the other two meet alone. -/
theorem sameUnder_layers {low middle high : Value} (first : ObjectTree low)
    (second : ObjectTree middle) (third : ObjectTree high) (name : String)
    (inner : ∀ l m h, low.ownMembers.lookup name = some l → middle.ownMembers.lookup name = some m →
      high.ownMembers.lookup name = some h →
        SameTree (overlay (overlay l m) h) (overlay l (overlay m h))) :
    SameUnder (layer (layer low middle) high) (layer low (layer middle high)) name := by
  have upper := objectTree_layer second.tree third
  have whole := (objectTree_layer first.tree upper).tree
  have grouped := lookup_layer (layer low middle) third name
  have nested := lookup_layer low upper name
  rw [lookup_layer low second] at grouped
  rw [lookup_layer middle third] at nested
  cases highest : high.ownMembers.lookup name with
  | none =>
    refine .of_eq whole ?_
    rw [grouped, nested, highest]
  | some h =>
    cases between : middle.ownMembers.lookup name with
    | none =>
      refine .of_eq whole ?_
      simp [grouped, nested, highest, between, overlay_undefined]
    | some m =>
      cases lowest : low.ownMembers.lookup name with
      | none =>
        refine .of_eq whole ?_
        simp [grouped, nested, highest, between, lowest, overlay_undefined]
      | some l =>
        have same := inner l m h lowest between highest
        simpa [SameUnder, grouped, nested, highest, between, lowest] using same

/-- Three values may be laid over one another in two groups. -/
theorem overlay_assoc {low middle high : Value} (first : Tree low) (second : Tree middle)
    (third : Tree high) (peace : ¬ Clash low middle high) :
    SameTree (overlay (overlay low middle) high) (overlay low (overlay middle high)) := by
  induction third using Tree.induction generalizing low middle with
  | leaf v bare =>
    rw [overlay_leaf bare, overlay_leaf bare, overlay_leaf bare]
    exact .leaf bare
  | object v held ih =>
    cases objectLow : low.isRecord with
    | false =>
      rw [overlay_bare objectLow, overlay_bare objectLow]
      exact .refl (tree_overlay held.tree middle second)
    | true =>
      cases objectMiddle : middle.isRecord with
      | false => exact absurd (Clash.here objectLow objectMiddle held.object) peace
      | true =>
        have heldMiddle : ObjectTree middle := ⟨second, objectMiddle⟩
        rw [overlay_objects objectLow heldMiddle, overlay_objects objectMiddle held,
          overlay_objects objectLow (objectTree_layer second held),
          overlay_objects (isRecord_layer _ _) held]
        refine .of_under (isRecord_layer _ _) (isRecord_layer _ _) fun name => ?_
        refine sameUnder_layers ⟨first, objectLow⟩ heldMiddle held name ?_
        intro l m h lowest between highest
        have inner : ¬ Clash l m h := fun clash => peace (clash.below lowest between highest)
        exact ih name h highest (first.own lowest) (second.own between) inner

/-- Three layers may be laid in two groups, unless the one in the middle clashes
with the others. -/
theorem layer_assoc {low middle high : Value} (first : ObjectTree low) (second : ObjectTree middle)
    (third : ObjectTree high) (peace : ¬ Clash low middle high) :
    SameTree (layer (layer low middle) high) (layer low (layer middle high)) := by
  have grouped := overlay_assoc first.tree second.tree third.tree peace
  have both := objectTree_layer second.tree third
  rwa [overlay_objects first.object second, overlay_objects second.object third,
    overlay_objects first.object both, overlay_objects (isRecord_layer _ _) third] at grouped

end NamedArguments.Settings
