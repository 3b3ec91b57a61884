import Mathlib.Data.List.Induction
import Mathlib.Data.List.Nodup
import NamedArguments.Value.OwnMembers

/-! Own members in the order in which they are enumerated, against the order in
which they were defined. Members that are noted as they come leave a name where
it came first; a record puts the names that spell list positions in front, by
the positions, and leaves the others as they came. Both take the last value
given to a name, and neither holds a name twice. -/
namespace NamedArguments

namespace Text

theorem readDigits_cons (n : Nat) (c : Char) (rest : List Char) :
    readDigits n (c :: rest) = readDigits (n * 10 + (c.toNat - '0'.toNat)) rest := by
  -- An ordinary unfolding would count the difference down.
  with_unfolding_all rfl

theorem readDigits_eq_ofDigitChars (n : Nat) (cs : List Char) :
    readDigits n cs = Nat.ofDigitChars 10 cs n := by
  induction cs generalizing n with
  | nil => exact Nat.ofDigitChars_nil.symm
  | cons c rest ih => rw [readDigits_cons, ih, Nat.ofDigitChars_cons, Nat.mul_comm]

theorem isDigit_of_mem_toDigits {n : Nat} {c : Char} (member : c ∈ Nat.toDigits 10 n) :
    isDigit c = true := by
  have digit := Nat.isDigit_of_mem_toDigits (by decide) (by decide) member
  simp only [Char.isDigit, isDigit, Char.le_def, Bool.and_eq_true, decide_eq_true_eq] at digit ⊢
  exact digit

theorem decimal?_toDigits (n : Nat) : decimal? (Nat.toDigits 10 n) = some n := by
  have digits : (Nat.toDigits 10 n).all isDigit = true :=
    List.all_eq_true.mpr fun c member => isDigit_of_mem_toDigits member
  rw [decimal?, if_pos ⟨Nat.toDigits_ne_nil, digits⟩, readDigits_eq_ofDigitChars,
    Nat.ofDigitChars_ten_toDigits]

theorem toString_injective : Function.Injective (toString : Nat → String) := by
  intro m n same
  have digits := congrArg String.toList same
  simp only [Nat.toString_eq_ofList_toDigits, String.toList_ofList] at digits
  simpa [decimal?_toDigits] using congrArg decimal? digits

/-- Only the usual spelling of a number spells a list position. -/
theorem position?_eq_some_iff {name : String} {n : Nat} :
    position? name = some n ↔ name = toString n ∧ n < positionLimit := by
  constructor
  · intro spelled
    unfold position? at spelled
    split at spelled
    · split at spelled
      next inside =>
        cases spelled
        refine ⟨?_, inside.1⟩
        rw [Nat.toString_eq_ofList_toDigits, inside.2, String.ofList_toList]
      next => cases spelled
    · cases spelled
  · rintro ⟨rfl, inside⟩
    have digits : (toString n).toList = Nat.toDigits 10 n := by
      rw [Nat.toString_eq_ofList_toDigits, String.toList_ofList]
    simp only [position?, digits, decimal?_toDigits, inside, and_self, if_true]

end Text

namespace Members

/-- A member with a new value if it goes by the name. -/
def overwrite (name : String) (v : Value) (member : String × Value) : String × Value :=
  if member.1 = name then (name, v) else member

@[simp] theorem overwrite_name (name : String) (v : Value) (member : String × Value) :
    (overwrite name v member).1 = member.1 := by
  unfold overwrite
  split
  next same => exact same.symm
  next => rfl

theorem names_overwrite (name : String) (v : Value) (members : Members) :
    (members.map (overwrite name v)).map Prod.fst = members.map Prod.fst := by
  have names : Prod.fst ∘ overwrite name v = Prod.fst := funext (overwrite_name name v)
  rw [List.map_map, names]

theorem place_perm (members : Members) (name : String) (v : Value) :
    (place members name v).Perm ((name, v) :: members) := by
  unfold place
  split
  next n _ =>
    refine List.perm_middle.trans ?_
    rw [List.takeWhile_append_dropWhile]
  next => exact List.perm_append_singleton _ _

theorem mem_define {members : Members} {name : String} {v : Value} {member : String × Value}
    (held : member ∈ define members name v) : member = (name, v) ∨ member ∈ members := by
  unfold define at held
  split at held
  · obtain ⟨old, inside, replaced⟩ := List.mem_map.mp held
    split at replaced
    · exact Or.inl replaced.symm
    · exact Or.inr (replaced ▸ inside)
  · exact List.mem_cons.mp ((place_perm members name v).mem_iff.mp held)

theorem names_define_of_any {members : Members} {name : String}
    (held : members.any (·.1 == name) = true) (v : Value) :
    (define members name v).map Prod.fst = members.map Prod.fst := by
  rw [define, if_pos held]
  exact names_overwrite name v members

theorem nodup_names_define {members : Members} (name : String) (v : Value)
    (distinct : (members.map Prod.fst).Nodup) : ((define members name v).map Prod.fst).Nodup := by
  by_cases held : members.any (·.1 == name) = true
  · rwa [names_define_of_any held]
  · rw [define, if_neg held, ((place_perm members name v).map Prod.fst).nodup_iff, List.map_cons,
      List.nodup_cons]
    refine ⟨fun inside => held ?_, distinct⟩
    obtain ⟨member, found, same⟩ := List.mem_map.mp inside
    exact List.any_eq_true.mpr ⟨member, found, by simpa using same⟩

theorem mem_of_lookup {members : Members} {name : String} {v : Value}
    (found : members.lookup name = some v) : (name, v) ∈ members := by
  obtain ⟨before, after, split, -⟩ := List.lookup_eq_some_iff.mp found
  simp [split]

theorem lookup_of_not_mem {members : Members} {name : String}
    (fresh : name ∉ members.map Prod.fst) : members.lookup name = none := by
  refine List.lookup_eq_none_iff.mpr fun member held => ?_
  have apart : name ≠ member.1 := fun same =>
    fresh (List.mem_map.mpr ⟨member, held, same.symm⟩)
  simpa using apart

theorem mem_names_iff {members : Members} {name : String} :
    name ∈ members.map Prod.fst ↔ (members.lookup name).isSome = true := by
  rw [isSome_lookup, List.any_eq_true, List.mem_map]
  simp

/-- A name that is there once is found where it is. -/
theorem mem_iff_lookup {members : Members} (distinct : (members.map Prod.fst).Nodup)
    {name : String} {v : Value} : (name, v) ∈ members ↔ members.lookup name = some v := by
  refine ⟨fun inside => ?_, mem_of_lookup⟩
  induction members with
  | nil => cases inside
  | cons member rest ih =>
    obtain ⟨fresh, distinct⟩ := List.nodup_cons.mp distinct
    rw [lookup_cons]
    rcases List.mem_cons.mp inside with rfl | later
    · exact if_pos rfl
    · have apart : name ≠ member.1 := by
        rintro rfl
        exact fresh (List.mem_map.mpr ⟨(member.1, v), later, rfl⟩)
      rw [if_neg apart]
      exact ih distinct later

/-- Notes a member: one of that name keeps its place and takes the value, any
other comes last. -/
def note (members : Members) (name : String) (v : Value) : Members :=
  if members.any (·.1 == name) then members.map (overwrite name v) else members ++ [(name, v)]

/-- Members noted one after the other. -/
def noted (pairs : List (String × Value)) : Members :=
  pairs.foldl (fun members pair => note members pair.1 pair.2) []

/-- Whether the name of a member spells a list position. -/
def isIndex (member : String × Value) : Bool := (Text.position? member.1).isSome

/-- Both names spell list positions, the first one a lower position. -/
def Below (one other : String × Value) : Prop :=
  ∃ m n, Text.position? one.1 = some m ∧ Text.position? other.1 = some n ∧ m < n

theorem Below.trans {one other another : String × Value} (lower : Below one other)
    (higher : Below other another) : Below one another := by
  obtain ⟨m, n, first, second, before⟩ := lower
  obtain ⟨_, k, again, third, behind⟩ := higher
  rw [second] at again
  cases again
  exact ⟨m, k, first, third, Nat.lt_trans before behind⟩

theorem filter_map_overwrite (name : String) (v : Value) (kept : String → Bool) (members : Members) :
    (members.map (overwrite name v)).filter (fun member => kept member.1) =
      (members.filter fun member => kept member.1).map (overwrite name v) := by
  simp only [List.filter_map, Function.comp_def, overwrite_name]

/-- Members behind those whose names spell positions do not bear on the place of another. -/
theorem place_append (front : Members) {rest : Members} {name : String} {n : Nat}
    (spelled : Text.position? name = some n)
    (others : ∀ member ∈ rest, Text.position? member.1 = none) (v : Value) :
    place (front ++ rest) name v =
      (front.takeWhile (precedes n) ++ (name, v) :: front.dropWhile (precedes n)) ++ rest := by
  simp only [place, spelled]
  induction front with
  | nil =>
    cases rest with
    | nil => rfl
    | cons first rest => simp [precedes, others first List.mem_cons_self]
  | cons first front ih =>
    by_cases before : precedes n first = true
    · simp only [List.cons_append, List.takeWhile_cons_of_pos before,
        List.dropWhile_cons_of_pos before, ih]
    · simp only [List.cons_append, List.takeWhile_cons_of_neg before,
        List.dropWhile_cons_of_neg before, List.nil_append]

/-- A new member placed by its position among members in ascending order. -/
theorem below_place {front : Members} (ascending : front.Pairwise Below) {name : String} {n : Nat}
    (spelled : Text.position? name = some n)
    (indexed : ∀ member ∈ front, isIndex member = true) (fresh : ∀ member ∈ front, member.1 ≠ name)
    (v : Value) :
    (front.takeWhile (precedes n) ++ (name, v) :: front.dropWhile (precedes n)).Pairwise Below := by
  induction front with
  | nil => simp
  | cons first rest ih =>
    obtain ⟨above, ascending⟩ := List.pairwise_cons.mp ascending
    obtain ⟨m, position⟩ := Option.isSome_iff_exists.mp (indexed first List.mem_cons_self)
    by_cases lower : m < n
    · have before : precedes n first = true := by simp [precedes, position, lower]
      rw [List.takeWhile_cons_of_pos before, List.dropWhile_cons_of_pos before, List.cons_append]
      refine List.pairwise_cons.mpr ⟨fun member inside => ?_, ih ascending ?_ ?_⟩
      · rcases List.mem_append.mp inside with taken | later
        · exact above member (List.takeWhile_subset _ taken)
        · rcases List.mem_cons.mp later with rfl | dropped
          · exact ⟨m, n, position, spelled, lower⟩
          · exact above member (List.dropWhile_subset _ dropped)
      · exact fun member inside => indexed member (List.mem_cons_of_mem _ inside)
      · exact fun member inside => fresh member (List.mem_cons_of_mem _ inside)
    · have behind : ¬ precedes n first = true := by simp [precedes, position, lower]
      have apart : n ≠ m := by
        rintro rfl
        have same := (Text.position?_eq_some_iff.mp position).1
        have also := (Text.position?_eq_some_iff.mp spelled).1
        exact fresh first List.mem_cons_self (same.trans also.symm)
      have higher : Below (name, v) first := ⟨n, m, spelled, position, by omega⟩
      rw [List.takeWhile_cons_of_neg behind, List.dropWhile_cons_of_neg behind, List.nil_append]
      refine List.pairwise_cons.mpr
        ⟨fun member inside => ?_, List.pairwise_cons.mpr ⟨above, ascending⟩⟩
      rcases List.mem_cons.mp inside with rfl | later
      · exact higher
      · exact higher.trans (above member later)

/-- Members of a record in their order, with those noted: in front, by their
positions, the ones whose names spell positions, and behind them the others as
they were noted. -/
structure Arranged (front members noted : Members) : Prop where
  split : members = front ++ noted.filter fun member => !isIndex member
  indexed : front.Perm (noted.filter isIndex)
  ascending : front.Pairwise Below

theorem arranged_nil : Arranged [] [] [] := ⟨rfl, .nil, .nil⟩

namespace Arranged
variable {front members noted : Members} {name : String}

theorem perm (arranged : Arranged front members noted) : members.Perm noted := by
  rw [arranged.split]
  exact (arranged.indexed.append_right _).trans (List.filter_append_perm isIndex noted)

theorem any_eq (arranged : Arranged front members noted) (name : String) :
    members.any (·.1 == name) = noted.any (·.1 == name) :=
  arranged.perm.any_eq

/-- A name that is there keeps its place in both orders. -/
theorem overwrite (arranged : Arranged front members noted) (name : String) (v : Value) :
    Arranged (front.map (Members.overwrite name v)) (members.map (Members.overwrite name v))
      (noted.map (Members.overwrite name v)) := by
  refine ⟨?_, ?_, ?_⟩
  · rw [arranged.split, List.map_append]
    congr 1
    exact (filter_map_overwrite name v (fun own => !(Text.position? own).isSome) noted).symm
  · refine (arranged.indexed.map _).trans (.of_eq ?_)
    exact (filter_map_overwrite name v (fun own => (Text.position? own).isSome) noted).symm
  · rw [List.pairwise_map]
    simp only [Below, overwrite_name]
    exact arranged.ascending

/-- A new name is placed by its position, if it spells one, or comes last. -/
theorem place (arranged : Arranged front members noted) (fresh : noted.any (·.1 == name) = false)
    (v : Value) : ∃ front, Arranged front (members.place name v) (noted ++ [(name, v)]) := by
  cases spelled : Text.position? name with
  | none =>
    refine ⟨front, ?_, ?_, arranged.ascending⟩
    · simp [Members.place, arranged.split, isIndex, spelled]
    · simpa [isIndex, spelled] using arranged.indexed
  | some n =>
    have others : ∀ member ∈ noted.filter (fun member => !isIndex member),
        Text.position? member.1 = none := by
      intro member inside
      simpa [isIndex] using (List.mem_filter.mp inside).2
    have inside : ∀ member ∈ front, member ∈ noted ∧ isIndex member = true := fun member held =>
      List.mem_filter.mp (arranged.indexed.mem_iff.mp held)
    have apart : ∀ member ∈ front, member.1 ≠ name := fun member held same =>
      absurd (beq_iff_eq.mpr same) (List.any_eq_false.mp fresh member (inside member held).1)
    refine ⟨_, ?_, ?_, below_place arranged.ascending spelled (fun member held =>
      (inside member held).2) apart v⟩
    · rw [arranged.split, place_append front spelled others v]
      simp [isIndex, spelled]
    · refine List.perm_middle.trans ?_
      rw [List.takeWhile_append_dropWhile]
      simpa [isIndex, spelled] using
        (arranged.indexed.cons (name, v)).trans (List.perm_append_singleton _ _).symm

end Arranged

theorem noted_concat (pairs : List (String × Value)) (pair : String × Value) :
    noted (pairs ++ [pair]) = (noted pairs).note pair.1 pair.2 := by
  simp [noted]

theorem ofList_concat (pairs : List (String × Value)) (pair : String × Value) :
    ofList (pairs ++ [pair]) = (ofList pairs).define pair.1 pair.2 := by
  simp [ofList]

theorem Arranged.define {front members noted : Members} (arranged : Arranged front members noted)
    (name : String) (v : Value) :
    ∃ front, Arranged front (members.define name v) (noted.note name v) := by
  have same := arranged.any_eq name
  simp only [Members.define, note, same]
  cases held : noted.any (·.1 == name) with
  | true => exact ⟨_, arranged.overwrite name v⟩
  | false => exact arranged.place held v

/-- A record has the members that were noted. -/
theorem arranged_ofList (pairs : List (String × Value)) :
    ∃ front, Arranged front (ofList pairs) (noted pairs) := by
  induction pairs using List.reverseRecOn with
  | nil => exact ⟨[], arranged_nil⟩
  | append_singleton pairs pair ih =>
    obtain ⟨front, arranged⟩ := ih
    rw [ofList_concat, noted_concat]
    exact arranged.define pair.1 pair.2

theorem names_ofList (pairs : List (String × Value)) : ((ofList pairs).map Prod.fst).Nodup := by
  induction pairs using List.reverseRecOn with
  | nil => exact List.nodup_nil
  | append_singleton pairs pair ih =>
    rw [ofList_concat]
    exact nodup_names_define pair.1 pair.2 ih

/-- Members with names of their own are noted as they are. -/
theorem noted_eq {members : Members} (distinct : (members.map Prod.fst).Nodup) :
    noted members = members := by
  induction members using List.reverseRecOn with
  | nil => rfl
  | append_singleton members member ih =>
    rw [List.map_append, List.map_singleton] at distinct
    obtain ⟨before, -, apart⟩ := List.nodup_append.mp distinct
    have fresh : members.any (·.1 == member.1) = false := by
      refine List.any_eq_false.mpr fun other held same => ?_
      exact apart _ (List.mem_map_of_mem held) _ List.mem_cons_self (beq_iff_eq.mp same)
    rw [noted_concat, ih before, note, fresh]
    rfl

/-- The last value given to a name counts. -/
theorem lookup_ofList (pairs : List (String × Value)) (name : String) :
    (ofList pairs).lookup name = pairs.reverse.lookup name := by
  induction pairs using List.reverseRecOn with
  | nil => rfl
  | append_singleton pairs pair ih =>
    rw [ofList_concat, lookup_define, ih, List.reverse_concat, lookup_cons]

end Members
end NamedArguments
