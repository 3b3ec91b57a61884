import NamedArguments.Proofs.LatestSet

/-! Layers in which parents are kept. A member under the parent's name is laid like
any other where an object has a member so called already, and is ignored where it
is a value that nothing can inherit from. If it is never met otherwise, every
object in the making keeps the parent that it started with, and then nothing is
ever refused. Trees keep parents wherever they are laid. -/
namespace NamedArguments.Settings

/-- What an object in the making has under a name, or undefined. -/
abbrev madeUnder (made : Members) (name : String) : Value := (made.lookup name).getD .undefined

/-- Members are laid over those of an object in the making, one after the other, and
neither that object nor one below it is given another parent. -/
inductive KeepsParents : Members → Members → Prop where
  | nil {made : Members} : KeepsParents made []
  /-- A member is laid over what the object has under its name. -/
  | member {made rest : Members} {name : String} {new : Value}
      (own : name ≠ Value.parentName ∨ (made.lookup name).isSome = true)
      (below : (madeUnder made name).isRecord = true → new.isRecord = true →
        KeepsParents (madeUnder made name).ownMembers new.ownMembers)
      (later : KeepsParents (Members.define made name (overlay (madeUnder made name) new)) rest) :
      KeepsParents made ((name, new) :: rest)
  /-- What can be no parent is not made one. -/
  | ignored {made rest : Members} {new : Value} (missing : made.lookup Value.parentName = none)
      (unfit : new.isParent = false) (given : new ≠ .null) (later : KeepsParents made rest) :
      KeepsParents made ((Value.parentName, new) :: rest)

variable {made members rest : Members} {name : String} {old new lower upper v : Value}

/-- An assignment to a name that an object has itself defines the member. -/
theorem assign_own (own : name ≠ Value.parentName ∨ (made.lookup name).isSome = true) (v : Value) :
    (Value.object .merged (.ancestor .record) made).assign name v =
      .plain .merged (Members.define made name v) := by
  by_cases apart : name = Value.parentName
  · obtain ⟨held, found⟩ := Option.isSome_iff_exists.mp (own.resolve_left (not_not_intro apart))
    simp [Value.assign, Value.replacesParent, find?_plain (Or.inl rfl), found, Value.plain]
  · exact assign_of_ne apart

/-- An assignment to the parent's name that is ignored. -/
theorem assign_ignored (missing : made.lookup Value.parentName = none) (unfit : v.isParent = false)
    (given : v ≠ .null) :
    (Value.object .merged (.ancestor .record) made).assign Value.parentName v =
      .plain .merged made := by
  have same : Value.newParent (.ancestor .record) v = .ancestor .record := by
    cases v <;> simp_all [Value.newParent]
  simp [Value.assign, replacesParent_made missing, same, Value.plain]

/-- What is read before a member is defined is what the object has itself, or nothing
that a value could be laid over. -/
theorem member_own_or_bare (own : name ≠ Value.parentName ∨ (made.lookup name).isSome = true) :
    (Value.object .merged (.ancestor .record) made).member name = madeUnder made name ∨
      ((Value.object .merged (.ancestor .record) made).member name).isRecord = false ∧
        (madeUnder made name).isRecord = false := by
  unfold madeUnder
  cases found : made.lookup name with
  | some held => exact Or.inl (member_of_own found)
  | none =>
    have apart := own.resolve_right (by simp [found])
    exact Or.inr ⟨bare_member_of_not_own (Or.inl rfl) apart found, rfl⟩

theorem overlay_member_own (own : name ≠ Value.parentName ∨ (made.lookup name).isSome = true)
    (new : Value) :
    overlay ((Value.object .merged (.ancestor .record) made).member name) new =
      overlay (madeUnder made name) new := by
  rcases member_own_or_bare own with same | ⟨bare, nothing⟩
  · rw [same]
  · rw [overlay_bare bare, overlay_bare nothing]

theorem bare_of_unfit (unfit : v.isParent = false) : v.isRecord = false := by
  cases v <;> simp_all [Value.isParent, Value.isRecord]

theorem overlayMembers_member (own : name ≠ Value.parentName ∨ (made.lookup name).isSome = true) :
    overlayMembers (.ancestor .record) made ((name, new) :: rest) =
      overlayMembers (.ancestor .record)
        (Members.define made name (overlay (madeUnder made name) new)) rest := by
  simp only [overlayMembers, overlay_member_own own, assign_own own]
  rfl

theorem overlayMembers_ignored (missing : made.lookup Value.parentName = none)
    (unfit : new.isParent = false) (given : new ≠ .null) :
    overlayMembers (.ancestor .record) made ((Value.parentName, new) :: rest) =
      overlayMembers (.ancestor .record) made rest := by
  simp only [overlayMembers, overlay_leaf (bare_of_unfit unfit),
    assign_ignored missing unfit given]
  rfl

theorem overlay_records (below : old.isRecord = true) (above : new.isRecord = true) :
    overlay old new = overlayMembers (.ancestor .record) old.ownMembers new.ownMembers := by
  cases new with
  | object identity parent members => simp [overlay, below, Value.ownMembers]
  | ancestor family => simp [overlay, below, above, Value.ownMembers, overlayMembers, Value.plain]
  | _ => cases above

/-- Objects enumerate their own members. -/
theorem enumerable_record (object : v.isRecord = true) : v.enumerable = v.ownMembers := by
  cases v <;> first | rfl | cases object

/-- Where parents are kept nothing is refused. -/
theorem KeepsParents.unrefused (keeps : KeepsParents made members) :
    membersRefused (.ancestor .record) made members = false := by
  induction keeps with
  | nil => rfl
  | @member made rest name new own below later ihBelow ih =>
    have fits : overlayRefused ((Value.object .merged (.ancestor .record) made).member name) new =
        false := by
      cases new with
      | object identity parent members =>
        rw [overlayRefused, Bool.and_eq_false_imp]
        intro object
        rcases member_own_or_bare own with same | ⟨bare, -⟩
        · rw [same] at object ⊢
          exact ihBelow object rfl
        · rw [bare] at object
          cases object
      | _ => rfl
    simp only [membersRefused, refusesReading_plain (Or.inl rfl), settles_made, fits,
      overlay_member_own own, assign_own own, Bool.false_or]
    exact ih
  | @ignored made rest new missing unfit given later ih =>
    have fits : ∀ old, overlayRefused old new = false := by
      intro old
      cases new <;> simp_all [overlayRefused, Value.isParent]
    simp only [membersRefused, refusesReading_plain (Or.inl rfl), settles_made, fits,
      overlay_leaf (bare_of_unfit unfit), assign_ignored missing unfit given, Bool.false_or]
    exact ih

theorem keepsParents_of_unparented (made : Members)
    (unparented : Value.parentName ∉ members.map Prod.fst)
    (inside : ∀ member ∈ members, ∀ made, KeepsParents made member.2.ownMembers) :
    KeepsParents made members := by
  induction members generalizing made with
  | nil => exact .nil
  | cons member rest ih =>
    rw [List.map_cons, List.mem_cons, not_or] at unparented
    have apart : member.1 ≠ Value.parentName := fun same => unparented.1 same.symm
    refine .member (Or.inl apart) (fun _ _ => inside member List.mem_cons_self _) ?_
    exact ih _ unparented.2 fun other held => inside other (List.mem_cons_of_mem _ held)

/-- Trees keep parents. -/
theorem Tree.keepsParents (tree : Tree v) (made : Members) : KeepsParents made v.ownMembers := by
  induction tree generalizing made with
  | @leaf v bare =>
    have none : v.ownMembers = [] := by
      cases v <;> simp_all [Value.ownMembers, Value.isRecord]
    rw [none]
    exact .nil
  | object _ _ unparented _ ih => exact keepsParents_of_unparented made unparented ih

/-- Parents are kept when the file is laid over the defaults, and the program's layer
over both. -/
structure ParentsKept (file program : Value) : Prop where
  below : KeepsParents defaults.ownMembers file.ownMembers
  above : KeepsParents (layer defaults file).ownMembers program.ownMembers

/-- Where parents are kept, all layers fit. -/
theorem ParentsKept.fits {file program : Value} (kept : ParentsKept file program)
    (fileObject : file.isRecord = true) (programObject : program.isRecord = true)
    (environment : Environment) : combineRefused file program environment = false := by
  refine combineRefused_eq_false_iff.mpr ⟨?_, ?_, ?_⟩
  · rw [layerRefused, enumerable_record fileObject]
    exact kept.below.unrefused
  · rw [layerRefused, enumerable_record programObject]
    exact kept.above.unrefused
  · exact layerRefused_tree _ (objectTree_environmentLayer environment)

end NamedArguments.Settings
