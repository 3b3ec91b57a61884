import NamedArguments.Proofs.EnvironmentTrees
import NamedArguments.Settings.Assembly

/-! A loading keeps to itself. Where the ancestor of all objects offers no object and
no path goes through the parent's name, every object that is entered or assigned to
has been made before in the same loading. So nothing else changes, the ancestor
included, and every loading comes to its end. -/
namespace NamedArguments.Settings

namespace Heap

variable {heap : Heap} {ref next : Reference} {name segment : String} {content : Content}

theorem replacesParent_of_ne (heap : Heap) (ref : Reference) (apart : name ≠ Value.parentName) :
    heap.replacesParent ref name = false := by
  simp [replacesParent, apart]

/-- An object just made is without members, as what is not there at all. -/
theorem own_make (heap : Heap) (ref : Reference) : heap.make.2.own ref = heap.own ref := by
  cases ref with
  | ancestor => rfl
  | made number =>
    simp only [own, make, List.getElem?_append]
    split
    next => rfl
    next beyond =>
      rw [List.getElem?_eq_none (Nat.le_of_not_lt beyond)]
      cases number - heap.made.length <;> rfl

/-- An assignment to an object that was made gives it a member. -/
theorem assign_made (heap : Heap) (number : Nat) (apart : name ≠ Value.parentName)
    (content : Content) :
    heap.assign (.made number) name content =
      { heap with made := heap.made.modify number ((name, content) :: ·) } := by
  simp only [assign, replacesParent_of_ne heap _ apart, Bool.false_eq_true, if_false]

theorem own_assign {number : Nat} (there : number < heap.made.length)
    (apart : name ≠ Value.parentName) (content : Content) (ref : Reference) :
    (heap.assign (.made number) name content).own ref =
      if ref = .made number then (name, content) :: heap.own ref else heap.own ref := by
  rw [assign_made heap number apart]
  cases ref with
  | ancestor => rfl
  | made other =>
    simp only [own, List.getElem?_modify, Reference.made.injEq]
    by_cases same : number = other
    · subst same
      simp [List.getElem?_eq_getElem there]
    · simp [same, Ne.symm same]

/-- Nothing else is found elsewhere, or under another name. -/
theorem lookup_assign {number : Nat} (there : number < heap.made.length)
    (apart : name ≠ Value.parentName) (content : Content) (ref : Reference) (asked : String) :
    ((heap.assign (.made number) name content).own ref).lookup asked =
      if ref = .made number ∧ asked = name then some content else (heap.own ref).lookup asked := by
  rw [own_assign there apart]
  by_cases here : ref = .made number
  · by_cases member : asked = name
    · simp [here, member]
    · simp [here, List.lookup_cons, beq_eq_false_iff_ne.mpr member, member]
  · simp [here]

/-- The ancestor offers no object by what has been assigned to it, as it offers none of
its own. -/
def Bare (heap : Heap) : Prop := ∀ name next, heap.ancestor.lookup name ≠ some (.object next)

/-- An object that a member reads as is an own member. -/
theorem read_eq_object (bare : heap.Bare) (apart : name ≠ Value.parentName)
    (found : heap.read ref name = .object next) :
    (heap.own ref).lookup name = some (.object next) := by
  unfold read at found
  split at found
  next content held => rw [held, found]
  next =>
    rw [if_neg apart] at found
    split at found
    next content offered => exact absurd (found ▸ offered) (bare name next)
    next => cases found

theorem read_of_own (held : (heap.own ref).lookup name = some content) :
    heap.read ref name = content := by
  simp [read, held]

end Heap

/-- A segment leads into an object that is held there, or else into one made now. -/
theorem Assembly.descend?_cases {assembly : Assembly} {segment : String} (bare : assembly.heap.Bare)
    (ref : Reference) (apart : segment ≠ Value.parentName) :
    (∃ next, (assembly.heap.own ref).lookup segment = some (.object next) ∧
      assembly.descend? ref segment = some (next, assembly.enter next)) ∨
    (∀ next, (assembly.heap.own ref).lookup segment ≠ some (.object next)) ∧
      assembly.descend? ref segment = some (assembly.make.1,
        (assembly.make.2.assign ref segment (.object assembly.make.1)).enter assembly.make.1) := by
  unfold descend?
  cases found : assembly.heap.read ref segment with
  | object next => exact Or.inl ⟨next, Heap.read_eq_object bare apart found, rfl⟩
  | value v =>
    refine Or.inr ⟨fun next held => ?_, ?_⟩
    · rw [Heap.read_of_own held] at found
      cases found
    · simp only [Heap.replacesParent_of_ne _ _ apart, Bool.false_eq_true, if_false]

theorem Assembly.assignAt?_of_descend {assembly descended : Assembly} {ref next : Reference}
    {segment : String} {rest : List String} (value : Value) (more : rest ≠ [])
    (into : assembly.descend? ref segment = some (next, descended)) :
    assembly.assignAt? ref value (segment :: rest) = descended.assignAt? next value rest := by
  rw [assignAt?, into]
  simpa using more

theorem Heap.load?_of_assignAll {heap : Heap} {loaded : Assembly} {environment : Environment}
    (done : (Assembly.make { heap, moves := [] }).2.assignAll? heap.make.1 environment =
      some loaded) : heap.load? environment = some (heap.make.1, loaded) := by
  rw [load?]
  exact congrArg (Option.map fun loaded => (heap.make.1, loaded)) done

/-! ## Moves -/

/-- Each move makes the object that it concerns, or comes after the one that made it. -/
def Grounded (moves : List Move) : Prop := ∀ later move earlier, moves = later ++ move :: earlier →
  move = .makes move.ref ∨ .makes move.ref ∈ earlier

theorem grounded_nil : Grounded [] := fun later move earlier split => by simp at split

theorem Grounded.cons {moves : List Move} {move : Move} (grounded : Grounded moves)
    (next : move = .makes move.ref ∨ .makes move.ref ∈ moves) : Grounded (move :: moves) := by
  intro later other earlier split
  cases later with
  | nil =>
    cases split
    exact next
  | cons last later => exact grounded later other earlier (List.cons.inj split).2

theorem Grounded.makes_mem {moves : List Move} {move : Move} (grounded : Grounded moves)
    (member : move ∈ moves) : .makes move.ref ∈ moves := by
  obtain ⟨later, earlier, split⟩ := List.append_of_mem member
  rcases grounded later move earlier split with makes | before
  · exact makes ▸ member
  · rw [split]
    exact List.mem_append_right later (List.mem_cons_of_mem move before)

/-- A loading that keeps to itself: it has entered and assigned to nothing but what
it has made, which refers to nothing else, and all else is as it was. -/
structure Contained (start : Heap) (assembly : Assembly) : Prop where
  ancestor : assembly.heap.ancestor = start.ancestor
  longer : start.made.length ≤ assembly.heap.made.length
  before : ∀ number < start.made.length, assembly.heap.own (.made number) = start.own (.made number)
  fresh : ∀ ref, .makes ref ∈ assembly.moves →
    ∃ number, ref = .made number ∧ start.made.length ≤ number ∧ number < assembly.heap.made.length
  closed : ∀ ref, .makes ref ∈ assembly.moves → ∀ name next,
    (assembly.heap.own ref).lookup name = some (.object next) → .makes next ∈ assembly.moves
  grounded : Grounded assembly.moves

namespace Contained

variable {start : Heap} {assembly descended assigned loaded : Assembly} {ref next : Reference}
  {name segment : String} {content : Content} {path : List String}

theorem begun (start : Heap) : Contained start { heap := start, moves := [] } where
  ancestor := rfl
  longer := Nat.le_refl _
  before _ _ := rfl
  fresh _ made := absurd made List.not_mem_nil
  closed _ made := absurd made List.not_mem_nil
  grounded := grounded_nil

theorem bare (contained : Contained start assembly) (bare : start.Bare) : assembly.heap.Bare := by
  intro name next
  rw [contained.ancestor]
  exact bare name next

theorem make (contained : Contained start assembly) : Contained start assembly.make.2 where
  ancestor := contained.ancestor
  longer := by
    have longer := contained.longer
    simp only [Assembly.make, Heap.make, List.length_append, List.length_singleton]
    omega
  before number old := (Heap.own_make _ _).trans (contained.before number old)
  fresh ref made := by
    simp only [Assembly.make, Heap.make, List.length_append, List.length_singleton]
    rcases List.mem_cons.mp made with new | earlier
    · cases new
      exact ⟨_, rfl, contained.longer, Nat.lt_succ_self _⟩
    · obtain ⟨number, same, late, there⟩ := contained.fresh ref earlier
      exact ⟨number, same, late, Nat.lt_succ_of_lt there⟩
  closed ref made name next found := by
    have found := (Heap.own_make assembly.heap ref) ▸ found
    rcases List.mem_cons.mp made with new | earlier
    · cases new
      simp [Heap.own] at found
    · exact List.mem_cons_of_mem _ (contained.closed ref earlier name next found)
  grounded := contained.grounded.cons (Or.inl rfl)

theorem enter (contained : Contained start assembly) (own : .makes ref ∈ assembly.moves) :
    Contained start (assembly.enter ref) where
  ancestor := contained.ancestor
  longer := contained.longer
  before := contained.before
  fresh other made := contained.fresh other (by simpa [Assembly.enter] using made)
  closed other made name next found := by
    have earlier : Move.makes other ∈ assembly.moves := by simpa [Assembly.enter] using made
    exact List.mem_cons_of_mem _ (contained.closed other earlier name next found)
  grounded := contained.grounded.cons (Or.inr own)

theorem assign (contained : Contained start assembly) (own : .makes ref ∈ assembly.moves)
    (apart : name ≠ Value.parentName)
    (holds : ∀ next, content = .object next → .makes next ∈ assembly.moves) :
    Contained start (assembly.assign ref name content) := by
  obtain ⟨number, rfl, late, there⟩ := contained.fresh ref own
  refine ⟨?_, ?_, fun other old => ?_, fun other made => ?_, fun other made asked next found => ?_,
    contained.grounded.cons (Or.inr own)⟩
  · exact (congrArg Heap.ancestor (Heap.assign_made _ _ apart _)).trans contained.ancestor
  · simpa [Assembly.assign, Heap.assign_made _ _ apart] using contained.longer
  · rw [Assembly.assign, Heap.own_assign there apart, if_neg, contained.before other old]
    rintro same
    cases same
    omega
  · simpa [Assembly.assign, Heap.assign_made _ _ apart] using
      contained.fresh other (by simpa [Assembly.assign] using made)
  · have earlier : Move.makes other ∈ assembly.moves := by simpa [Assembly.assign] using made
    rw [Assembly.assign, Heap.lookup_assign there apart] at found
    refine List.mem_cons_of_mem _ ?_
    split at found
    next => exact holds next (Option.some.inj found)
    next => exact contained.closed other earlier asked next found

/-- No move concerns the ancestor. -/
theorem ref_ne_ancestor (contained : Contained start assembly) {move : Move}
    (member : move ∈ assembly.moves) : move.ref ≠ .ancestor := by
  obtain ⟨number, same, -⟩ := contained.fresh _ (contained.grounded.makes_mem member)
  simp [same]

/-- What a segment leads into has been made in the loading. -/
theorem descend (contained : Contained start assembly) (bare : start.Bare)
    (own : .makes ref ∈ assembly.moves) (apart : segment ≠ Value.parentName) :
    ∃ next descended, assembly.descend? ref segment = some (next, descended) ∧
      Contained start descended ∧ .makes next ∈ descended.moves ∧
      assembly.moves <:+ descended.moves := by
  rcases Assembly.descend?_cases (contained.bare bare) ref apart with
    ⟨next, found, into⟩ | ⟨-, into⟩
  · have made := contained.closed ref own segment next found
    exact ⟨next, _, into, contained.enter made, List.mem_cons_of_mem _ made, List.suffix_cons _ _⟩
  · have new : Move.makes assembly.make.1 ∈ assembly.make.2.moves := List.mem_cons_self
    have given : Contained start (assembly.make.2.assign ref segment (.object assembly.make.1)) :=
      contained.make.assign (List.mem_cons_of_mem _ own) apart fun next same => by
        cases same
        exact new
    have kept := List.mem_cons_of_mem (.assigns ref segment) new
    exact ⟨_, _, into, given.enter kept, List.mem_cons_of_mem _ kept,
      (List.suffix_cons _ _).trans ((List.suffix_cons _ _).trans (List.suffix_cons _ _))⟩

/-- Assigning a value at a path of which no segment is the parent's name comes to its
end. -/
theorem assignAt (contained : Contained start assembly) (bare : start.Bare)
    (own : .makes ref ∈ assembly.moves) (value : Value)
    (apart : ∀ segment ∈ path, segment ≠ Value.parentName) :
    ∃ assigned, assembly.assignAt? ref value path = some assigned ∧ Contained start assigned ∧
      assembly.moves <:+ assigned.moves := by
  induction path generalizing assembly ref with
  | nil => exact ⟨assembly, rfl, contained, List.suffix_refl _⟩
  | cons segment rest ih =>
    have here := apart segment List.mem_cons_self
    cases rest with
    | nil =>
      exact ⟨_, rfl, contained.assign own here (fun _ same => by cases same), List.suffix_cons _ _⟩
    | cons following deeper =>
      obtain ⟨next, descended, into, kept, made, earlier⟩ := contained.descend bare own here
      obtain ⟨assigned, done, keptToo, later⟩ :=
        ih kept made fun other member => apart other (List.mem_cons_of_mem _ member)
      exact ⟨assigned, (Assembly.assignAt?_of_descend value (by simp) into).trans done, keptToo,
        earlier.trans later⟩

theorem assignAll (contained : Contained start assembly) (bare : start.Bare)
    (own : .makes ref ∈ assembly.moves) (environment : Environment) :
    ∃ loaded, assembly.assignAll? ref environment = some loaded ∧ Contained start loaded := by
  induction environment generalizing assembly with
  | nil => exact ⟨assembly, rfl, contained⟩
  | cons entry rest ih =>
    obtain ⟨name, text⟩ := entry
    rw [Assembly.assignAll?]
    cases names : variablePath? name with
    | none => exact ih contained own
    | some path =>
      obtain ⟨assigned, done, kept, later⟩ :=
        contained.assignAt bare own (variableValue text) (variablePath?_apart names)
      simp only [done]
      exact ih kept (later.subset own)

end Contained

/-- Every loading comes to its end, and keeps to itself. -/
theorem Heap.load?_contained {heap : Heap} (bare : heap.Bare) (environment : Environment) :
    ∃ loaded, heap.load? environment = some (heap.make.1, loaded) ∧ Contained heap loaded := by
  obtain ⟨loaded, done, contained⟩ :=
    (Contained.begun heap).make.assignAll bare List.mem_cons_self environment
  exact ⟨loaded, load?_of_assignAll done, contained⟩

/-- What the parent's name would do in a path: the ancestor is assigned to, and
every object reads what it has been given. -/
theorem assignAt?_through_parent {assembly : Assembly} {number : Nat} {name : String} (value : Value)
    (unparented : (assembly.heap.own (.made number)).lookup Value.parentName = none)
    (apart : name ≠ Value.parentName) :
    ∃ assigned, assembly.assignAt? (.made number) value [Value.parentName, name] = some assigned ∧
      ∀ other, (assembly.heap.own (.made other)).lookup name = none →
        assigned.heap.read (.made other) name = .value value := by
  have leads : assembly.heap.read (.made number) Value.parentName = .object .ancestor := by
    simp [Heap.read, unparented, Reference.parent]
  have into : assembly.descend? (.made number) Value.parentName =
      some (.ancestor, assembly.enter .ancestor) := by
    simp only [Assembly.descend?, leads]
  refine ⟨(assembly.enter .ancestor).assign .ancestor name (.value value),
    Assembly.assignAt?_of_descend value (by simp) into, fun other missing => ?_⟩
  have own : ((assembly.heap.assign .ancestor name (.value value)).own (.made other)).lookup name =
      none := by
    simpa [Heap.assign, Heap.replacesParent_of_ne _ _ apart, Heap.own] using missing
  have given : (assembly.heap.assign .ancestor name (.value value)).ancestor =
      (name, .value value) :: assembly.heap.ancestor := by
    simp [Heap.assign, Heap.replacesParent_of_ne _ _ apart]
  simp [Assembly.assign, Assembly.enter, Heap.read, own, given, apart]

end NamedArguments.Settings
