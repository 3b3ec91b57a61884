import NamedArguments.Proofs.KeptParents

/-! Values without the members under the parent's name. Leaving these out, at every
depth, changes nothing that is read under other names. It goes with laying layers
over one another as long as parents are kept, so that such members are either data
that nobody else looks at or not there at all. Members stand in the order in which
objects enumerate them: those whose names spell positions come first. -/
namespace NamedArguments

namespace Members

/-- Names that spell list positions stand in front of all others. -/
def Ranked (members : Members) : Prop :=
  ∃ front back, members = front ++ back ∧ (∀ member ∈ front, isIndex member = true) ∧
    ∀ member ∈ back, isIndex member = false

theorem ranked_nil : Ranked [] := ⟨[], [], rfl, nofun, nofun⟩

theorem Ranked.define {members : Members} (ranked : Ranked members) (name : String) (v : Value) :
    Ranked (define members name v) := by
  obtain ⟨front, back, rfl, indexed, others⟩ := ranked
  unfold Members.define
  split
  · have same (old : String × Value) : isIndex (overwrite name v old) = isIndex old := by
      rw [isIndex, overwrite_name, isIndex]
    rw [List.map_append]
    refine ⟨_, _, rfl, fun member held => ?_, fun member held => ?_⟩
    · obtain ⟨old, inside, rfl⟩ := List.mem_map.mp held
      exact (same old).trans (indexed old inside)
    · obtain ⟨old, inside, rfl⟩ := List.mem_map.mp held
      exact (same old).trans (others old inside)
  · cases spelled : Text.position? name with
    | none =>
      refine ⟨front, back ++ [(name, v)], by simp [place, spelled], indexed, fun member held => ?_⟩
      rcases List.mem_append.mp held with old | new
      · exact others member old
      · rw [List.mem_singleton.mp new, isIndex, spelled]
        rfl
    | some n =>
      have plain : ∀ member ∈ back, Text.position? member.1 = none := fun member held => by
        simpa [isIndex] using others member held
      refine ⟨_, back, place_append front spelled plain v, fun member held => ?_, others⟩
      rcases List.mem_append.mp held with taken | later
      · exact indexed member (List.takeWhile_subset _ taken)
      · rcases List.mem_cons.mp later with rfl | dropped
        · rw [isIndex, spelled]
          rfl
        · exact indexed member (List.dropWhile_subset _ dropped)

end Members

namespace Value

mutual

/-- A value without the members under the parent's name, at every depth. -/
def bared : Value → Value
  | .list identity items => .list identity (baredItems items)
  | .object identity parent members => .object identity parent (baredMembers members)
  | v => v
termination_by structural v => v

def baredItems : List Value → List Value
  | [] => []
  | v :: rest => v.bared :: baredItems rest
termination_by structural items => items

def baredMembers : List (String × Value) → Members
  | [] => []
  | (name, v) :: rest =>
    if name = parentName then baredMembers rest else (name, v.bared) :: baredMembers rest
termination_by structural members => members

end

mutual

theorem bared_bared : ∀ v : Value, v.bared.bared = v.bared
  | .list identity items => by simp only [bared, baredItems_baredItems items]
  | .object identity parent members => by simp only [bared, baredMembers_baredMembers members]
  | .undefined | .null | .bool _ | .number _ | .bigint _ | .text _ | .symbol .. | .absent
  | .function _ | .builtin _ | .ancestor _ => rfl

theorem baredItems_baredItems : ∀ items : List Value,
    baredItems (baredItems items) = baredItems items
  | [] => rfl
  | v :: rest => by simp only [baredItems, bared_bared v, baredItems_baredItems rest]

theorem baredMembers_baredMembers : ∀ members : List (String × Value),
    baredMembers (baredMembers members) = baredMembers members
  | [] => rfl
  | (name, v) :: rest => by
    by_cases same : name = parentName
    · simp only [baredMembers, same, if_true, baredMembers_baredMembers rest]
    · simp only [baredMembers, same, if_false, bared_bared v, baredMembers_baredMembers rest]

end

theorem isRecord_bared (v : Value) : v.bared.isRecord = v.isRecord := by
  cases v <;> rfl

theorem isGiven_bared (v : Value) : v.bared.isGiven = v.isGiven := by
  cases v <;> rfl

theorem isTruthy_bared (v : Value) : v.bared.isTruthy = v.isTruthy := by
  cases v <;> rfl

theorem bared_of_unfit {v : Value} (unfit : v.isParent = false) : v.bared = v := by
  cases v with
  | list | object => cases unfit
  | _ => rfl

theorem ownMembers_bared (v : Value) : v.bared.ownMembers = baredMembers v.ownMembers := by
  cases v <;> rfl

theorem baredMembers_append (members more : Members) :
    baredMembers (members ++ more) = baredMembers members ++ baredMembers more := by
  induction members with
  | nil => rfl
  | cons member rest ih =>
    rw [List.cons_append, baredMembers, baredMembers, ih]
    split <;> rfl

theorem lookup_baredMembers {name : String} (apart : name ≠ parentName) (members : Members) :
    (baredMembers members).lookup name = (members.lookup name).map bared := by
  induction members with
  | nil => rfl
  | cons member rest ih =>
    obtain ⟨own, v⟩ := member
    rw [baredMembers, Members.lookup_cons]
    split
    next same =>
      rw [ih, if_neg fun asked => apart (asked.trans same)]
    next =>
      rw [Members.lookup_cons, ih]
      split <;> rfl

theorem lookup_baredMembers_parentName (members : Members) :
    (baredMembers members).lookup parentName = none := by
  induction members with
  | nil => rfl
  | cons member rest ih =>
    rw [baredMembers]
    split
    next => exact ih
    next apart => rw [Members.lookup_cons, if_neg (Ne.symm apart), ih]

/-! ## Assigning -/

theorem any_baredMembers {name : String} (apart : name ≠ parentName) (members : Members) :
    (baredMembers members).any (·.1 == name) = members.any (·.1 == name) := by
  rw [← Members.isSome_lookup, ← Members.isSome_lookup, lookup_baredMembers apart,
    Option.isSome_map]

theorem baredMembers_overwrite {name : String} (apart : name ≠ parentName) (v : Value)
    (members : Members) :
    baredMembers (members.map (Members.overwrite name v)) =
      (baredMembers members).map (Members.overwrite name v.bared) := by
  induction members with
  | nil => rfl
  | cons member rest ih =>
    obtain ⟨own, old⟩ := member
    by_cases same : own = name
    · subst same
      simp [Members.overwrite, baredMembers, apart, ih]
    · by_cases parent : own = parentName
      · simp [Members.overwrite, baredMembers, parent, ih, apart.symm]
      · simp [Members.overwrite, baredMembers, parent, ih, same]

/-- Members whose names spell positions all stay. -/
theorem baredMembers_indexed {front : Members}
    (indexed : ∀ member ∈ front, Members.isIndex member = true) :
    baredMembers front = front.map fun member => (member.1, member.2.bared) := by
  induction front with
  | nil => rfl
  | cons member rest ih =>
    have apart : member.1 ≠ parentName := by
      intro same
      have spelled := indexed member List.mem_cons_self
      rw [Members.isIndex, same] at spelled
      exact absurd spelled (by decide)
    rw [baredMembers, if_neg apart, List.map_cons,
      ih fun other held => indexed other (List.mem_cons_of_mem _ held)]

theorem isIndex_of_mem_baredMembers {back : Members}
    (others : ∀ member ∈ back, Members.isIndex member = false) :
    ∀ member ∈ baredMembers back, Members.isIndex member = false := by
  induction back with
  | nil => exact others
  | cons first rest ih =>
    have later := ih fun member held => others member (List.mem_cons_of_mem _ held)
    rw [baredMembers]
    split
    · exact later
    · refine List.forall_mem_cons.mpr ⟨?_, later⟩
      exact others first List.mem_cons_self

/-- Defining a member under another name goes with leaving members out. -/
theorem baredMembers_define {members : Members} {name : String} (ranked : members.Ranked)
    (apart : name ≠ parentName) (v : Value) :
    baredMembers (members.define name v) = (baredMembers members).define name v.bared := by
  unfold Members.define
  rw [any_baredMembers apart]
  split
  · exact baredMembers_overwrite apart v members
  · obtain ⟨front, back, rfl, indexed, others⟩ := ranked
    cases spelled : Text.position? name with
    | none => simp [Members.place, spelled, baredMembers_append, baredMembers, apart]
    | some n =>
      have plain : ∀ back : Members, (∀ member ∈ back, Members.isIndex member = false) →
          ∀ member ∈ back, Text.position? member.1 = none := fun back others member held => by
        simpa [Members.isIndex] using others member held
      have left := isIndex_of_mem_baredMembers others
      have taken : baredMembers (front.takeWhile (Members.precedes n)) = _ :=
        baredMembers_indexed fun member held => indexed member (List.takeWhile_subset _ held)
      have dropped : baredMembers (front.dropWhile (Members.precedes n)) = _ :=
        baredMembers_indexed fun member held => indexed member (List.dropWhile_subset _ held)
      have same : (Members.precedes n ∘ fun member => (member.1, member.2.bared)) =
          Members.precedes n := rfl
      rw [Members.place_append front spelled (plain back others) v, baredMembers_append,
        baredMembers_append front back, Members.place_append _ spelled (plain _ left) v.bared,
        baredMembers_append, baredMembers, if_neg apart, taken, dropped,
        baredMembers_indexed indexed, List.takeWhile_map, List.dropWhile_map, same]

theorem baredMembers_define_parentName {members : Members}
    (held : (members.lookup parentName).isSome = true) (v : Value) :
    baredMembers (members.define parentName v) = baredMembers members := by
  rw [Members.define, ← Members.isSome_lookup, if_pos held]
  clear held
  induction members with
  | nil => rfl
  | cons member rest ih =>
    by_cases same : member.1 = parentName
    · simp only [List.map_cons, same, if_true, baredMembers, ih]
    · simp only [List.map_cons, same, if_false, baredMembers, ih]

theorem baredItems_eq_map (items : List Value) : baredItems items = items.map bared := by
  induction items with
  | nil => rfl
  | cons v rest ih => rw [baredItems, ih, List.map_cons]

theorem toString_ne_parentName (n : Nat) : toString n ≠ parentName := by
  intro same
  have digits : ∀ c ∈ parentName.toList, Text.isDigit c = true := by
    rw [← same, Nat.toString_eq_ofList_toDigits, String.toList_ofList]
    exact fun c => Text.isDigit_of_mem_toDigits
  have underscore : '_' ∈ parentName.toList := .head _
  exact absurd (digits _ underscore) (by decide)

theorem baredMembers_numbered (n : Nat) (items : List Value) :
    baredMembers (numbered n items) = numbered n (items.map bared) := by
  induction items generalizing n with
  | nil => rfl
  | cons v rest ih =>
    rw [numbered, baredMembers, if_neg (toString_ne_parentName n), ih, List.map_cons, numbered]

theorem enumerable_bared (v : Value) : v.bared.enumerable = baredMembers v.enumerable := by
  cases v with
  | list identity items =>
    simp only [bared, enumerable, baredMembers_numbered, baredItems_eq_map]
  | text s =>
    simp only [bared, enumerable, baredMembers_numbered, List.map_map]
    rfl
  | _ => rfl

/-! ## Reading -/

theorem patternFlags_bared (members : Members) :
    patternFlags (baredMembers members) = patternFlags members := by
  unfold patternFlags
  congr 1
  refine List.filterMap_congr fun option listed => ?_
  have apart : option.1 ≠ parentName := by
    revert option
    decide
  rw [lookup_baredMembers apart]
  cases members.lookup option.1 with
  | none => rfl
  | some v => simp only [Option.map_some, isTruthy_bared]

theorem unlisted?_bared (parent : Value) (members : Members) (name : String) :
    unlisted? parent (baredMembers members) name = unlisted? parent members name := by
  unfold unlisted?
  rw [patternFlags_bared]

variable {v : Value} {name : String}

/-- What is read under another name is the same, up to such members in it. -/
theorem member_bared (object : v.isRecord = true) (apart : name ≠ parentName) :
    (v.bared.member name).bared = (v.member name).bared := by
  cases v with
  | object identity parent members =>
    have looked := lookup_baredMembers apart members
    cases found : members.lookup name with
    | some own =>
      rw [found, Option.map_some] at looked
      simp only [bared, member, find?, looked, found, bared_bared]
    | none =>
      rw [found, Option.map_none] at looked
      simp only [bared, member, find?, looked, found, unlisted?_bared, apart, false_and, if_false]
  | ancestor => rfl
  | _ => cases object

theorem refusesReading_bared (object : v.isRecord = true) (apart : name ≠ parentName) :
    v.bared.refusesReading name = v.refusesReading name := by
  cases v with
  | object identity parent members =>
    have answers (family : Family) :
        (Value.object identity parent (baredMembers members)).answersFor family =
          (Value.object identity parent members).answersFor family := by
      cases parent <;> rfl
    simp only [bared, refusesReading, workedOutBy?, lookup_baredMembers apart members,
      Option.isSome_map, answers]
  | ancestor => rfl
  | _ => cases object

end Value

namespace Settings

theorem follow_bared {path : List String} (apart : Value.parentName ∉ path) (v : Value) :
    (follow v.bared path).bared = (follow v path).bared := by
  induction path generalizing v with
  | nil => exact v.bared_bared
  | cons segment rest ih =>
    obtain ⟨first, later⟩ := List.ne_and_not_mem_of_not_mem_cons apart
    rw [follow, follow, Value.isRecord_bared]
    split
    next object => rw [← ih later, Value.member_bared object first.symm, ih later]
    next => rfl

theorem followRefused_bared {path : List String} (apart : Value.parentName ∉ path) (v : Value) :
    followRefused v.bared path = followRefused v path := by
  induction path generalizing v with
  | nil => rfl
  | cons segment rest ih =>
    obtain ⟨first, later⟩ := List.ne_and_not_mem_of_not_mem_cons apart
    rw [followRefused, followRefused, Value.isRecord_bared]
    cases object : v.isRecord with
    | false => rfl
    | true =>
      rw [Value.refusesReading_bared object first.symm, ← ih later (v.bared.member segment),
        Value.member_bared object first.symm, ih later]

/-! ## Layers -/

/-- The values that a value is made of. -/
def partsOf : Value → List Value
  | .list _ items => items
  | .object _ _ members => members.map Prod.snd
  | _ => []

/-- The members of every object in a value stand in their order. -/
inductive InOrder : Value → Prop where
  | intro {v : Value} (ranked : v.ownMembers.Ranked) (inside : ∀ part ∈ partsOf v, InOrder part) :
      InOrder v

/-- Members in their order, and so are theirs. -/
structure MembersInOrder (members : Members) : Prop where
  ranked : members.Ranked
  inside : ∀ member ∈ members, InOrder member.2

variable {made members : Members} {old new lower upper v : Value} {name : String}

theorem InOrder.own (order : InOrder v) : MembersInOrder v.ownMembers := by
  obtain ⟨ranked, inside⟩ := order
  refine ⟨ranked, fun member held => ?_⟩
  cases v with
  | object => exact inside member.2 (List.mem_map_of_mem held)
  | _ => cases held

theorem MembersInOrder.object (order : MembersInOrder members) (identity : Identity)
    (parent : Value) : InOrder (.object identity parent members) := by
  refine .intro order.ranked fun part held => ?_
  obtain ⟨member, inside, rfl⟩ := List.mem_map.mp held
  exact order.inside member inside

/-- Members whose names spell no positions are in order as they are. -/
theorem inOrder_plain (identity : Identity)
    (named : ∀ member ∈ members, Members.isIndex member = false)
    (inside : ∀ member ∈ members, InOrder member.2) : InOrder (.plain identity members) :=
  MembersInOrder.object ⟨⟨[], members, rfl, nofun, named⟩, inside⟩ _ _

theorem inOrder_of_unfit (unfit : v.isParent = false) : InOrder v := by
  have none : v.ownMembers = [] ∧ partsOf v = [] := by
    cases v <;> first | exact ⟨rfl, rfl⟩ | cases unfit
  exact .intro (none.1 ▸ Members.ranked_nil) (by simp [none.2])

theorem MembersInOrder.define (order : MembersInOrder members) (name : String) (new : InOrder v) :
    MembersInOrder (members.define name v) := by
  refine ⟨order.ranked.define name v, fun member held => ?_⟩
  rcases Members.mem_define held with rfl | before
  · exact new
  · exact order.inside member before

theorem MembersInOrder.under (order : MembersInOrder made) (name : String) :
    InOrder (madeUnder made name) := by
  unfold madeUnder
  cases found : made.lookup name with
  | none => exact inOrder_of_unfit rfl
  | some v => exact order.inside (name, v) (Members.mem_of_lookup found)

theorem mem_numbered {n : Nat} {items : List Value} {member : String × Value}
    (held : member ∈ Value.numbered n items) : member.2 ∈ items := by
  induction items generalizing n with
  | nil => cases held
  | cons v rest ih =>
    rcases List.mem_cons.mp held with rfl | later
    · exact List.mem_cons_self
    · exact List.mem_cons_of_mem _ (ih later)

theorem InOrder.enumerable (order : InOrder v) : ∀ member ∈ v.enumerable, InOrder member.2 := by
  intro member held
  cases v with
  | object => exact order.own.inside member held
  | list identity items =>
    obtain ⟨-, inside⟩ := order
    exact inside member.2 (mem_numbered held)
  | text s =>
    obtain ⟨u, -, same⟩ := List.mem_map.mp (mem_numbered held)
    exact same ▸ inOrder_of_unfit rfl
  | _ => cases held

/-- A value is laid over another alike with such members and without them, if the
members of the two are. -/
theorem overlay_bared (order : InOrder new)
    (inside : old.isRecord = true → new.isRecord = true →
      InOrder (overlayMembers (.ancestor .record) old.ownMembers new.ownMembers) ∧
        (overlayMembers (.ancestor .record) old.ownMembers new.ownMembers).bared =
          overlayMembers (.ancestor .record) (Value.baredMembers old.ownMembers)
            (Value.baredMembers new.ownMembers)) :
    InOrder (overlay old new) ∧ (overlay old new).bared = overlay old.bared new.bared := by
  have belowBared := old.isRecord_bared
  have aboveBared := new.isRecord_bared
  cases below : old.isRecord with
  | false =>
    rw [overlay_bare below, overlay_bare (belowBared.trans below)]
    exact ⟨order, rfl⟩
  | true =>
    cases above : new.isRecord with
    | false =>
      rw [overlay_leaf above, overlay_leaf (aboveBared.trans above)]
      exact ⟨order, rfl⟩
    | true =>
      rw [overlay_records below above,
        overlay_records (belowBared.trans below) (aboveBared.trans above),
        Value.ownMembers_bared, Value.ownMembers_bared]
      exact inside below above

/-- Where parents are kept, laying members over others goes with leaving out those
under the parent's name. -/
theorem KeepsParents.bared (keeps : KeepsParents made members) (own : MembersInOrder made)
    (given : ∀ member ∈ members, InOrder member.2) :
    InOrder (overlayMembers (.ancestor .record) made members) ∧
      (overlayMembers (.ancestor .record) made members).bared =
        overlayMembers (.ancestor .record) (Value.baredMembers made)
          (Value.baredMembers members) := by
  induction keeps with
  | nil => exact ⟨own.object _ _, rfl⟩
  | @member made rest name new named below later ihBelow ih =>
    have second := given (name, new) List.mem_cons_self
    obtain ⟨order, laid⟩ := overlay_bared second fun below above =>
      ihBelow below above (own.under name).own second.own.inside
    obtain ⟨whole, same⟩ := ih (own.define name order) fun member held =>
      given member (List.mem_cons_of_mem _ held)
    rw [overlayMembers_member named]
    refine ⟨whole, same.trans ?_⟩
    by_cases parent : name = Value.parentName
    · subst parent
      rw [Value.baredMembers_define_parentName (named.resolve_left (not_not_intro rfl)),
        Value.baredMembers, if_pos rfl]
    · have before : madeUnder (Value.baredMembers made) name = (madeUnder made name).bared := by
        simp only [madeUnder, Value.lookup_baredMembers parent]
        cases made.lookup name <;> rfl
      rw [Value.baredMembers_define own.ranked parent, laid, Value.baredMembers, if_neg parent,
        overlayMembers_member (Or.inl parent), before]
  | ignored missing unfit present later ih =>
    rw [overlayMembers_ignored missing unfit present, Value.baredMembers, if_pos rfl]
    exact ih own fun member held => given member (List.mem_cons_of_mem _ held)

/-- A layer is laid over another alike with such members and without them. -/
theorem layer_bared (first : InOrder lower) (second : InOrder upper)
    (keeps : KeepsParents lower.ownMembers upper.enumerable) :
    InOrder (layer lower upper) ∧ (layer lower upper).bared = layer lower.bared upper.bared := by
  rw [layer, layer, Value.ownMembers_bared, Value.enumerable_bared]
  exact keeps.bared first.own second.enumerable

mutual

/-- Without such members parents are kept wherever a value is laid. -/
theorem keepsParents_bared : ∀ (v : Value) (made : Members), KeepsParents made v.bared.ownMembers
  | .object _ _ members, made => keepsParents_baredMembers members made
  | .list .., _ | .undefined, _ | .null, _ | .bool _, _ | .number _, _ | .bigint _, _ | .text _, _
  | .symbol .., _ | .absent, _ | .function _, _ | .builtin _, _ | .ancestor _, _ => .nil

theorem keepsParents_baredMembers : ∀ (members : List (String × Value)) (made : Members),
    KeepsParents made (Value.baredMembers members)
  | [], _ => .nil
  | (name, v) :: rest, made => by
    rw [Value.baredMembers]
    split
    next => exact keepsParents_baredMembers rest made
    next apart =>
      exact .member (Or.inl apart) (fun _ _ => keepsParents_bared v _)
        (keepsParents_baredMembers rest _)

end

/-! ## The layers of the settings -/

/-- What has no such members and stands in order. -/
structure Settled (v : Value) : Prop where
  order : InOrder v
  bare : v.bared = v

theorem lasting_settled : Lasting Settled where
  empty := ⟨.intro Members.ranked_nil nofun, rfl⟩
  own := by
    rintro v name w ⟨order, bare⟩ found
    refine ⟨order.own.inside (name, w) (Members.mem_of_lookup found), ?_⟩
    have same : Value.baredMembers v.ownMembers = v.ownMembers := by
      rw [← Value.ownMembers_bared, bare]
    by_cases parent : name = Value.parentName
    · have missing := Value.lookup_baredMembers_parentName v.ownMembers
      rw [same, ← parent, found] at missing
      cases missing
    · have looked := Value.lookup_baredMembers parent v.ownMembers
      rw [same, found] at looked
      exact (Option.some.inj looked).symm
  assign := by
    rintro v name w ⟨order, bare⟩ apart ⟨orderToo, bareToo⟩
    cases v with
    | object identity parent members =>
      have same : Value.baredMembers members = members := (Value.object.inj bare).2.2
      have own : MembersInOrder members := order.own
      rw [assign_of_ne apart]
      refine ⟨(own.define name orderToo).object _ _, ?_⟩
      rw [Value.bared, Value.baredMembers_define own.ranked apart, bareToo, same]
    | _ => exact ⟨order, bare⟩

theorem unfit_variableValue (text : String) : (variableValue text).isParent = false := by
  unfold variableValue
  split
  · rfl
  · split
    · rfl
    · split <;> rfl

theorem settled_environmentLayer (environment : Environment) :
    Settled (environmentLayer environment) := by
  refine lasting_settled.environmentLayer (fun text => ?_) environment
  have unfit := unfit_variableValue text
  exact ⟨inOrder_of_unfit unfit, Value.bared_of_unfit unfit⟩

theorem settled_defaults : Settled defaults := by
  have leaf {v : Value} (unfit : v.isParent = false) : InOrder v := inOrder_of_unfit unfit
  have level : InOrder (.plain .merged [("level", .text "warn")]) :=
    inOrder_plain _ (by decide) (by simpa using leaf rfl)
  exact ⟨inOrder_plain _ (by decide) (by simpa using ⟨leaf rfl, leaf rfl, level⟩), rfl⟩

variable {file program : Value}

/-- Settings are made alike with such members and without them. -/
theorem combine_bared (kept : ParentsKept file program) (fileOrder : InOrder file)
    (programOrder : InOrder program) (fileObject : file.isRecord = true)
    (programObject : program.isRecord = true) (environment : Environment) :
    (combine file program environment).bared =
      combine file.bared program.bared environment := by
  have env := settled_environmentLayer environment
  have object := objectTree_environmentLayer environment
  have lower := layer_bared settled_defaults.order fileOrder
    (enumerable_record fileObject ▸ kept.below)
  have middle := layer_bared lower.1 programOrder (enumerable_record programObject ▸ kept.above)
  have whole := layer_bared middle.1 env.order
    (enumerable_record object.object ▸ object.tree.keepsParents _)
  rw [combine, combine, whole.2, middle.2, lower.2, settled_defaults.bare, env.bare]

theorem parentsKept_bared (file program : Value) : ParentsKept file.bared program.bared :=
  ⟨keepsParents_bared _ _, keepsParents_bared _ _⟩

end Settings
end NamedArguments
