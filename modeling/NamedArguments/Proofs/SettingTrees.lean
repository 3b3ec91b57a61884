import NamedArguments.Settings.Path
import NamedArguments.Settings.Layer
import NamedArguments.Proofs.MemberOrder

/-! Trees of settings: plain objects down to leaves that are no objects, with no
member under the parent's name. On trees the members of objects are all that
counts. A path reads own members only, laying one tree over another gives a tree
again, and neither is ever refused. -/
namespace NamedArguments

namespace Settings

/-- Plain objects down to leaves that are no objects. -/
inductive Tree : Value → Prop where
  | leaf {v : Value} (bare : v.isRecord = false) : Tree v
  | object {identity : Identity} {parent : Value} {members : Members}
      (ordinary : parent = .ancestor .record ∨ parent = .null)
      (distinct : (members.map Prod.fst).Nodup)
      (unparented : Value.parentName ∉ members.map Prod.fst)
      (inside : ∀ member ∈ members, Tree member.2) :
      Tree (.object identity parent members)

/-- A tree that is an object. -/
structure ObjectTree (v : Value) : Prop where
  tree : Tree v
  object : v.isRecord = true

/-- No member that every object inherits has the name. -/
structure Uninherited (name : String) : Prop where
  unoffered : Family.record.offers? name = none
  unparented : name ≠ Value.parentName

theorem objectTree_empty : ObjectTree empty := ⟨.object (Or.inl rfl) .nil (by simp) (by simp), rfl⟩

theorem objectTree_single (identity : Identity) {name : String} (apart : name ≠ Value.parentName)
    {v : Value} (tree : Tree v) : ObjectTree (.plain identity [(name, v)]) :=
  ⟨.object (Or.inl rfl) (by simp) (by simpa using apart.symm) (by simpa using tree), rfl⟩

theorem held?_record (name : String) :
    Family.record.held? name =
      if name = "constructor" then some (.builtin Family.record.className)
      else if Family.record.functionNames.contains name then some (.builtin name)
      else none := rfl

/-- All that ordinary objects inherit is functions. -/
theorem offers?_record (name : String) :
    Family.record.offers? name = none ∨ ∃ own, Family.record.offers? name = some (.builtin own) := by
  simp only [Family.offers?, Family.line, List.findSome?_cons, List.findSome?_nil, held?_record]
  split
  next heldValue held =>
    right
    split at held
    · exact ⟨_, held.symm⟩
    · split at held
      · exact ⟨_, held.symm⟩
      · simp at held
  next => exact Or.inl rfl

variable {identity : Identity} {parent : Value} {members : Members} {name : String} {v : Value}

theorem find?_plain (ordinary : parent = .ancestor .record ∨ parent = .null) :
    (Value.object identity parent members).find? name = (members.lookup name).or (parent.find? name) := by
  have unlisted : Value.unlisted? parent members name = none := by
    rcases ordinary with rfl | rfl <;> simp [Value.unlisted?]
  cases found : members.lookup name <;> simp [Value.find?, found, unlisted]

theorem member_of_own (found : members.lookup name = some v) :
    (Value.object identity parent members).member name = v := by
  simp [Value.member, Value.find?, found]

/-- What a plain object does not have itself is a function, or nothing. -/
theorem bare_member_of_not_own (ordinary : parent = .ancestor .record ∨ parent = .null)
    (apart : name ≠ Value.parentName) (missing : members.lookup name = none) :
    ((Value.object identity parent members).member name).isRecord = false := by
  rw [Value.member, find?_plain ordinary, missing, Option.none_or]
  rcases ordinary with rfl | rfl
  · rcases offers?_record name with none | ⟨own, builtin⟩
    · simp [Value.find?, none, apart, Value.isRecord]
    · simp [Value.find?, builtin, Value.isRecord]
  · simp [Value.find?, apart, Value.isRecord]

/-- A plain object is read under its own names only, unless a name is inherited
by all objects. -/
theorem member_plain (ordinary : parent = .ancestor .record ∨ parent = .null)
    (own : Uninherited name) :
    (Value.object identity parent members).member name = (members.lookup name).getD .undefined := by
  cases found : members.lookup name with
  | some v => exact member_of_own found
  | none =>
    rw [Value.member, find?_plain ordinary, found, Option.none_or]
    rcases ordinary with rfl | rfl <;>
      simp [Value.find?, own.unoffered, own.unparented]

theorem refusesReading_plain (ordinary : parent = .ancestor .record ∨ parent = .null) :
    (Value.object identity parent members).refusesReading name = false := by
  have unworked : parent.workedOutBy? name = none := by
    rcases ordinary with rfl | rfl
    · simp [Value.workedOutBy?, Family.worksOut?, Family.line, Family.workedOutNames]
    · rfl
  have unread : (Value.object identity parent members).workedOutBy? name = none := by
    simp [Value.workedOutBy?, unworked]
  simp [Value.refusesReading, unread]

theorem settles_made (made : Members) :
    (Value.object identity (.ancestor .record) made).settles name = false := by
  have unsettled : Family.record.settles name = false := by
    simp [Family.settles, Family.line]
  simp [Value.settles, unsettled]

theorem assign_of_ne (apart : name ≠ Value.parentName) :
    (Value.object identity parent members).assign name v =
      .object identity parent (Members.define members name v) := by
  simp [Value.assign, Value.replacesParent, apart]

theorem assign_bare (bare : v.isRecord = false) (name : String) (new : Value) :
    v.assign name new = v := by
  cases v <;> simp_all [Value.assign, Value.isRecord]

/-- An assignment changes nothing under other names. -/
theorem lookup_assign_of_ne (apart : name ≠ Value.parentName) {asked : String}
    (other : asked ≠ name) (new : Value) :
    (v.assign name new).ownMembers.lookup asked = v.ownMembers.lookup asked := by
  cases v with
  | object identity parent members =>
    rw [assign_of_ne apart]
    exact (Members.lookup_define members name asked new).trans (if_neg other)
  | _ => rfl

/-- Members without a name twice and without the parent's. -/
structure Named (members : Members) : Prop where
  distinct : (members.map Prod.fst).Nodup
  unparented : Value.parentName ∉ members.map Prod.fst

theorem Named.define (named : Named members) (apart : name ≠ Value.parentName) (v : Value) :
    Named (Members.define members name v) := by
  refine ⟨Members.nodup_names_define name v named.distinct, fun held => ?_⟩
  obtain ⟨member, inside, same⟩ := List.mem_map.mp held
  rcases Members.mem_define inside with rfl | old
  · exact apart same
  · exact named.unparented (List.mem_map.mpr ⟨member, old, same⟩)

/-- Members as a tree has them. -/
structure TreeMembers (members : Members) : Prop where
  distinct : (members.map Prod.fst).Nodup
  unparented : Value.parentName ∉ members.map Prod.fst
  inside : ∀ member ∈ members, Tree member.2

theorem TreeMembers.define (own : TreeMembers members) (apart : name ≠ Value.parentName)
    (new : Tree v) : TreeMembers (Members.define members name v) := by
  obtain ⟨distinct, unparented⟩ := Named.define ⟨own.distinct, own.unparented⟩ apart v
  refine ⟨distinct, unparented, fun member held => ?_⟩
  rcases Members.mem_define held with rfl | old
  · exact new
  · exact own.inside member old

theorem Tree.treeMembers (tree : Tree v) : TreeMembers v.ownMembers := by
  cases tree with
  | leaf bare =>
    have none : v.ownMembers = [] := by
      cases v <;> simp_all [Value.ownMembers, Value.isRecord]
    rw [none]
    exact ⟨.nil, by simp, by simp⟩
  | object _ distinct unparented inside => exact ⟨distinct, unparented, inside⟩

theorem TreeMembers.tree (own : TreeMembers members)
    (ordinary : parent = .ancestor .record ∨ parent = .null) :
    Tree (.object identity parent members) :=
  .object ordinary own.distinct own.unparented own.inside

theorem Tree.own (tree : Tree v) {w : Value} (found : v.ownMembers.lookup name = some w) : Tree w :=
  tree.treeMembers.inside (name, w) (Members.mem_of_lookup found)

theorem Tree.assign (tree : Tree v) (apart : name ≠ Value.parentName) {new : Value}
    (grown : Tree new) : Tree (v.assign name new) := by
  cases tree with
  | leaf bare =>
    rw [assign_bare bare]
    exact .leaf bare
  | object ordinary distinct unparented inside =>
    rw [assign_of_ne apart]
    exact (TreeMembers.define ⟨distinct, unparented, inside⟩ apart grown).tree ordinary

theorem isRecord_assign (v : Value) (name : String) (new : Value) :
    (v.assign name new).isRecord = v.isRecord := by
  unfold Value.assign
  split
  · split <;> rfl
  · rfl

/-- Objects in trees are plain. -/
theorem ObjectTree.plain (held : ObjectTree v) :
    ∃ identity parent, (parent = .ancestor .record ∨ parent = .null) ∧
      v = .object identity parent v.ownMembers := by
  obtain ⟨tree, object⟩ := held
  cases tree with
  | leaf bare => simp [bare] at object
  | @object identity parent members ordinary _ _ _ => exact ⟨identity, parent, ordinary, rfl⟩

/-- Trees are read under own names. -/
theorem ObjectTree.member (held : ObjectTree v) (own : Uninherited name) :
    v.member name = (v.ownMembers.lookup name).getD .undefined := by
  obtain ⟨identity, parent, ordinary, same⟩ := held.plain
  rw [same]
  exact member_plain ordinary own

/-- Along names that objects do not inherit trees lead to trees. -/
theorem ObjectTree.tree_member (held : ObjectTree v) (own : Uninherited name) :
    Tree (v.member name) := by
  rw [held.member own]
  cases found : v.ownMembers.lookup name with
  | some w => exact held.tree.own found
  | none => exact .leaf rfl

/-- What is read of an object in the making, before a member is given to it, is
a tree, too. -/
theorem tree_before (own : TreeMembers members) (apart : name ≠ Value.parentName) :
    Tree ((Value.object identity (.ancestor .record) members).member name) := by
  cases found : members.lookup name with
  | some v =>
    rw [member_of_own found]
    exact own.inside (name, v) (Members.mem_of_lookup found)
  | none => exact .leaf (bare_member_of_not_own (Or.inl rfl) apart found)

theorem overlay_bare {old new : Value} (bare : old.isRecord = false) : overlay old new = new := by
  cases new <;> simp [overlay, bare]

theorem overlay_leaf {old new : Value} (bare : new.isRecord = false) : overlay old new = new := by
  cases new <;> simp_all [overlay, Value.isRecord]

theorem overlay_objects {old new : Value} (below : old.isRecord = true) (above : ObjectTree new) :
    overlay old new = layer old new := by
  obtain ⟨tree, object⟩ := above
  cases tree with
  | leaf bare => simp [bare] at object
  | object => simp [overlay, below, layer, Value.enumerable]

/-- What an object in the making inherits is nothing that a value is laid over. -/
theorem overlay_member_made (made : Members) (apart : name ≠ Value.parentName) (new : Value) :
    overlay ((Value.object identity (.ancestor .record) made).member name) new =
      overlay ((made.lookup name).getD .undefined) new := by
  cases found : made.lookup name with
  | some old => rw [member_of_own found, Option.getD_some]
  | none =>
    rw [overlay_bare (bare_member_of_not_own (Or.inl rfl) apart found), Option.getD_none,
      overlay_bare rfl]

/-- One member after the other is given to an object in the making, each laid
over what the object has under its name so far. -/
theorem overlayMembers_cons {made rest : Members} {new : Value}
    (apart : name ≠ Value.parentName) :
    overlayMembers (.ancestor .record) made ((name, new) :: rest) =
      overlayMembers (.ancestor .record)
        (Members.define made name
          (overlay ((Value.object .merged (.ancestor .record) made).member name) new)) rest := by
  simp only [overlayMembers, assign_of_ne apart]
  rfl

/-- Laying members over others makes an object. -/
theorem overlayMembers_made (parent : Value) (made members : Members) :
    ∃ own others, overlayMembers parent made members = .object .merged own others := by
  induction members generalizing parent made with
  | nil => exact ⟨parent, made, rfl⟩
  | cons member rest ih => exact ih _ _

theorem layer_made (lower upper : Value) :
    ∃ parent members, layer lower upper = .object .merged parent members :=
  overlayMembers_made _ _ _

theorem isRecord_layer (lower upper : Value) : (layer lower upper).isRecord = true := by
  obtain ⟨parent, members, made⟩ := layer_made lower upper
  rw [made]
  rfl

/-- Laying trees over trees makes trees. -/
theorem tree_overlayMembers (made members : Members) (own : TreeMembers made)
    (unparented : Value.parentName ∉ members.map Prod.fst)
    (inside : ∀ member ∈ members, ∀ old, Tree old → Tree (overlay old member.2)) :
    Tree (overlayMembers (.ancestor .record) made members) := by
  induction members generalizing made with
  | nil => exact own.tree (Or.inl rfl)
  | cons member rest ih =>
    obtain ⟨name, new⟩ := member
    rw [List.map_cons, List.mem_cons, not_or] at unparented
    have apart : name ≠ Value.parentName := fun same => unparented.1 same.symm
    rw [overlayMembers_cons apart]
    exact ih _ (own.define apart (inside (name, new) (by simp) _ (tree_before own apart)))
      unparented.2 fun member held => inside member (List.mem_cons_of_mem _ held)

theorem tree_overlay {new : Value} (tree : Tree new) (old : Value) (below : Tree old) :
    Tree (overlay old new) := by
  induction tree generalizing old with
  | leaf bare =>
    rw [overlay_leaf bare]
    exact .leaf bare
  | object ordinary distinct unparented inside ih =>
    cases object : old.isRecord with
    | false =>
      rw [overlay_bare object]
      exact .object ordinary distinct unparented inside
    | true =>
      simp only [overlay, object, ↓reduceIte]
      exact tree_overlayMembers _ _ below.treeMembers unparented fun member held old => ih member held old

theorem objectTree_layer {lower upper : Value} (below : Tree lower) (above : ObjectTree upper) :
    ObjectTree (layer lower upper) := by
  refine ⟨?_, isRecord_layer lower upper⟩
  obtain ⟨tree, object⟩ := above
  cases tree with
  | leaf bare => simp [bare] at object
  | object _ _ unparented inside =>
    exact tree_overlayMembers _ _ below.treeMembers unparented fun member held old =>
      tree_overlay (inside member held) old

/-- What an object in the making has under a name once members are laid over
it: the value that it is given is laid over the value that it had. -/
theorem lookup_overlayMembers (made members : Members) (asked : String)
    (distinct : (members.map Prod.fst).Nodup)
    (unparented : Value.parentName ∉ members.map Prod.fst) :
    (overlayMembers (.ancestor .record) made members).ownMembers.lookup asked =
      match members.lookup asked with
      | some new => some (overlay ((made.lookup asked).getD .undefined) new)
      | none => made.lookup asked := by
  induction members generalizing made with
  | nil => rfl
  | cons member rest ih =>
    obtain ⟨name, new⟩ := member
    rw [List.map_cons, List.nodup_cons] at distinct
    rw [List.map_cons, List.mem_cons, not_or] at unparented
    have apart : name ≠ Value.parentName := fun same => unparented.1 same.symm
    rw [overlayMembers_cons apart, ih _ distinct.2 unparented.2, Members.lookup_define,
      Members.lookup_cons]
    by_cases same : asked = name
    · subst same
      have fresh := Members.lookup_of_not_mem distinct.1
      simp [fresh, overlay_member_made made apart]
    · simp [same]

/-- The own members of a tree laid over an object. -/
theorem lookup_layer (lower : Value) {upper : Value} (above : ObjectTree upper) (asked : String) :
    (layer lower upper).ownMembers.lookup asked =
      match upper.ownMembers.lookup asked with
      | some new => some (overlay ((lower.ownMembers.lookup asked).getD .undefined) new)
      | none => lower.ownMembers.lookup asked := by
  obtain ⟨identity, parent, ordinary, same⟩ := above.plain
  have members := above.tree.treeMembers
  have listed : upper.enumerable = upper.ownMembers := by
    rw [same]
    rfl
  rw [layer, listed]
  exact lookup_overlayMembers _ _ asked members.distinct members.unparented

/-- A tree can be laid over anything. -/
theorem membersRefused_tree (made members : Members)
    (unparented : Value.parentName ∉ members.map Prod.fst)
    (inside : ∀ member ∈ members, ∀ old, overlayRefused old member.2 = false) :
    membersRefused (.ancestor .record) made members = false := by
  induction members generalizing made with
  | nil => rfl
  | cons member rest ih =>
    obtain ⟨name, new⟩ := member
    rw [List.map_cons, List.mem_cons, not_or] at unparented
    have apart : name ≠ Value.parentName := fun same => unparented.1 same.symm
    simp only [membersRefused, refusesReading_plain (Or.inl rfl), settles_made,
      inside (name, new) (by simp), assign_of_ne apart, Bool.false_or]
    exact ih _ unparented.2 fun member held => inside member (List.mem_cons_of_mem _ held)

theorem overlayRefused_tree {new : Value} (tree : Tree new) (old : Value) :
    overlayRefused old new = false := by
  induction tree generalizing old with
  | @leaf v bare => cases v <;> simp_all [overlayRefused, Value.isRecord]
  | object _ _ unparented _ ih =>
    simp only [overlayRefused, membersRefused_tree _ _ unparented fun member held old =>
      ih member held old, Bool.and_false]

theorem layerRefused_tree (lower : Value) {upper : Value} (above : ObjectTree upper) :
    layerRefused lower upper = false := by
  obtain ⟨tree, object⟩ := above
  cases tree with
  | leaf bare => simp [bare] at object
  | object _ _ unparented inside =>
    exact membersRefused_tree _ _ unparented fun member held old =>
      overlayRefused_tree (inside member held) old

/-- Reading a tree along names that objects do not inherit is never refused. -/
theorem followRefused_tree (tree : Tree v) (path : List String)
    (own : ∀ segment ∈ path, Uninherited segment) : followRefused v path = false := by
  induction path generalizing v with
  | nil => rfl
  | cons segment rest ih =>
    cases object : v.isRecord with
    | false => simp [followRefused, object]
    | true =>
      obtain ⟨identity, parent, ordinary, same⟩ := ObjectTree.plain ⟨tree, object⟩
      have unrefused : v.refusesReading segment = false := by
        rw [same]
        exact refusesReading_plain ordinary
      have further := ObjectTree.tree_member ⟨tree, object⟩ (own segment (by simp))
      simp [followRefused, object, unrefused,
        ih further fun other member => own other (List.mem_cons_of_mem _ member)]

theorem follow_append (v : Value) (path deeper : List String) :
    follow v (path ++ deeper) = follow (follow v path) deeper := by
  induction path generalizing v with
  | nil => rfl
  | cons segment rest ih =>
    simp only [List.cons_append, follow]
    split
    · exact ih _
    · cases deeper <;> simp [follow, Value.isRecord]

end Settings
end NamedArguments
