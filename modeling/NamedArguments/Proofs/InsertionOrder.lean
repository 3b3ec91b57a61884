import NamedArguments.Proofs.ArgumentHistory

/-! Arguments as an insertion-ordered mapping. After any changes the entries are
those of the live keys, one for each, in the order in which these came alive,
and each holds the value that was set last. Which keys are one and the same is
said kind by kind. -/
namespace NamedArguments

namespace Value

/-- The identity of what has one. -/
def identity? : Value → Option Identity
  | .list identity _ => some identity
  | .object identity _ _ => some identity
  | _ => none

/-- When two values are one key. Not-a-number is one with itself, as every value
is; beyond that the two zeros are one, and a symbol, a list or an object is told
by its identity and by nothing that it holds. -/
inductive SameKey : Value → Value → Prop where
  | itself (v : Value) : SameKey v v
  | zeros (negative other : Bool) :
      SameKey (.number (.finite negative 0)) (.number (.finite other 0))
  | symbols (id : String) (description other : Option String) :
      SameKey (.symbol id description) (.symbol id other)
  | references {a b : Value} (identity : Identity) (first : a.identity? = some identity)
      (second : b.identity? = some identity) : SameKey a b

theorem sameKey_numbers {x y : Binary64} (same : x.unsignedZero = y.unsignedZero) :
    SameKey (.number x) (.number y) := by
  cases x with
  | nan => cases y <;> cases same; exact .itself _
  | infinite negative => cases y <;> cases same; exact .itself _
  | finite negative units =>
    cases y with
    | nan => cases same
    | infinite other => cases same
    | finite other count =>
      simp only [Binary64.unsignedZero, Binary64.finite.injEq] at same
      obtain ⟨signs, rfl⟩ := same
      by_cases zero : units = 0
      · subst zero
        exact .zeros negative other
      · have nonzero : (units != 0) = true := by simpa using zero
        rw [nonzero, Bool.and_true, Bool.and_true] at signs
        subst signs
        exact .itself _

theorem key_eq_of_identity {v : Value} {identity : Identity}
    (identified : v.identity? = some identity) : v.key = .reference identity := by
  cases v <;> cases identified <;> rfl

theorem sameKey_of_reference {a b : Value} {identity : Identity}
    (identified : a.identity? = some identity) (same : a.key = b.key) : SameKey a b := by
  rw [key_eq_of_identity identified] at same
  cases b with
  | list other items =>
    cases same
    exact .references _ identified rfl
  | object other parent members =>
    cases same
    exact .references _ identified rfl
  | _ => cases same

/-- Keys are compared as the kinds of values have it. -/
theorem sameKey_exact (a b : Value) : a.sameKey b = true ↔ SameKey a b := by
  rw [sameKey_iff]
  constructor
  · intro same
    cases a with
    | list identity items => exact sameKey_of_reference rfl same
    | object identity parent members => exact sameKey_of_reference rfl same
    | number x =>
      cases b with
      | number y => exact sameKey_numbers (Key.number.inj same)
      | _ => cases same
    | symbol id description =>
      cases b with
      | symbol other named =>
        cases same
        exact .symbols id description named
      | _ => cases same
    | _ =>
      cases b <;> cases same
      exact .itself _
  · intro same
    cases same with
    | itself => rfl
    | zeros negative other => simp [key, Binary64.unsignedZero]
    | symbols => rfl
    | references identity first second =>
      exact (key_eq_of_identity first).trans (key_eq_of_identity second).symm

end Value

namespace Tracks
variable {history : List Change} {args : ArgumentMap}

/-- Entries stand in the order in which the lives of their keys began. -/
theorem ordered (tracks : Tracks history args) :
    args.toList.Pairwise fun earlier later => ∀ moment other,
      LiveSince history earlier.1 moment → LiveSince history later.1 other → moment < other := by
  rw [ArgumentMap.toList, List.pairwise_map]
  refine (List.pairwise_map.mp args.ascending).imp_of_mem ?_
  intro earlier later member behind lower moment other lives also
  obtain ⟨began, tells⟩ := tracks.tells earlier member
  obtain ⟨followed, tellsToo⟩ := tracks.tells later behind
  rw [lives.unique tells.lives, also.unique tellsToo.lives]
  exact (birth_lt_birth_iff tells.stamp tellsToo.stamp).mpr lower

/-- A live key has one entry, which holds what the key stands for. -/
theorem listed (tracks : Tracks history args) {key value : Value}
    (stands : standing history key = some value) :
    args.toList.countP (fun pair => key.sameKey pair.1) = 1 ∧ args.lookup key = value := by
  obtain ⟨entry, member, same⟩ :=
    ArgumentMap.has_iff.mp (tracks.holds key ⟨value, stands⟩)
  obtain ⟨moment, tells⟩ := tracks.tells entry member
  have holds : entry.value = value := by
    have both := tells.value.symm.trans ((standing_congr history same).symm.trans stands)
    exact Option.some.inj both
  refine ⟨?_, (ArgumentMap.lookup_of_mem member same).trans holds⟩
  rw [ArgumentMap.toList, List.countP_map]
  exact ArgumentMap.countP_sameKey member same

theorem lookup_eq (tracks : Tracks history args) (key : Value) :
    args.lookup key = (standing history key).getD .absent := by
  cases stands : standing history key with
  | some value => exact (tracks.listed stands).2
  | none =>
    have absent : args.entry? key = none := by
      simpa [ArgumentMap.has] using (tracks.standing_eq_none_iff key).mp stands
    simp [ArgumentMap.lookup, absent]

end Tracks

/-- The keys and values that arguments are made from, where these are given as one value. -/
def givenPairs (entries : Value) : List (Value × Value) :=
  (entries.sequence?.bind (·.mapM ArgumentMap.pairOf?)).getD []

theorem ofEntries_ok {entries : Value} {start : ArgumentMap}
    (made : ArgumentMap.ofEntries entries = .ok start) : start = .ofList (givenPairs entries) := by
  unfold ArgumentMap.ofEntries at made
  split at made
  · cases made
    rfl
  · split at made
    next pairs given =>
      cases made
      rw [givenPairs, given, Option.getD_some]
    next => cases made

/-- Arguments are an insertion-ordered mapping, whatever they are made from and
however they are changed afterwards. They list each live key once, in the form
in which it was given when it came alive and with the value set last, in the
order in which the keys came alive; all other questions are answered as the
listing says, and removing a key takes its own entry away and no other. -/
theorem listing_exact (entries : Value) (start : ArgumentMap) (changes : List Change)
    (made : ArgumentMap.ofEntries entries = .ok start) :
    let args := start.after changes
    let history := (givenPairs entries).map (fun pair => .set pair.1 pair.2) ++ changes
    (∀ a b : Value, a.sameKey b = true ↔ a.SameKey b) ∧
    (∀ pair ∈ args.toList, standing history pair.1 = some pair.2 ∧
      ∃ moment given value, LiveSince history pair.1 moment ∧
        history[moment]? = some (.set given value) ∧ pair.1 = given.asStored) ∧
    (∀ key, Live history key → args.toList.countP (fun pair => key.sameKey pair.1) = 1) ∧
    (args.toList.Pairwise fun earlier later => ∀ moment other,
      LiveSince history earlier.1 moment → LiveSince history later.1 other → moment < other) ∧
    args.keys = args.toList.map Prod.fst ∧ args.size = args.toList.length ∧
    ∀ key, (args.has key = true ↔ Live history key) ∧
      args.lookup key = (standing history key).getD .absent ∧
      (∀ value, value ≠ .absent → (args.lookup key = value ↔ standing history key = some value)) ∧
      ((args.erase key).1 = true ↔ Live history key) ∧
      (args.erase key).2.toList = args.toList.filter fun pair => !key.sameKey pair.1 := by
  intro args history
  have grown : args = ArgumentMap.empty.after history := by
    rw [ArgumentMap.after_append, ← ArgumentMap.ofList_eq_after, ← ofEntries_ok made]
  have tracks : Tracks history args := grown ▸ tracks_after history
  refine ⟨Value.sameKey_exact, ?_, ?_, tracks.ordered, ?_, ?_, ?_⟩
  · intro pair member
    obtain ⟨entry, inside, rfl⟩ := List.mem_map.mp member
    obtain ⟨moment, tells⟩ := tracks.tells entry inside
    obtain ⟨given, value, set, stored⟩ := tells.key
    exact ⟨tells.value, moment, given, value, tells.lives, set, stored⟩
  · rintro key ⟨value, stands⟩
    exact (tracks.listed stands).1
  · simp [ArgumentMap.keys, ArgumentMap.toList]
  · simp [ArgumentMap.size, ArgumentMap.toList]
  · intro key
    have answer := tracks.lookup_eq key
    refine ⟨(tracks.live_iff key).symm, answer, ?_, (tracks.live_iff key).symm, ?_⟩
    · intro value given
      rw [answer]
      cases standing history key with
      | some other => simp
      | none => simpa using given.symm
    · simp [ArgumentMap.toList, List.filter_map, Function.comp_def]

/-- A name, not-a-number and zero are given, the zero as the negative one; then
the name is removed and set again, to undefined, and not-a-number is set anew. -/
theorem listing_exact_again :
    let pair (key value : Value) : Value := .list .merged [key, value]
    let entries : Value := .list .merged [pair (.text "name") .null, pair (.number .nan) .null,
      pair (.number (.finite true 0)) .null]
    let changes : List Change := [.erase (.text "name"), .set (.text "name") .undefined,
      .set (.number .nan) (.bool true)]
    ∃ start, ArgumentMap.ofEntries entries = .ok start ∧
      (start.after changes).toList = [(.number .nan, .bool true), (.number (.finite false 0), .null),
        (.text "name", .undefined)] ∧
      (start.after changes).lookup (.text "name") = .undefined ∧
      (start.after changes).has (.text "name") = true ∧
      ((start.after changes).erase (.number .nan)).2.toList =
        [(.number (.finite false 0), .null), (.text "name", .undefined)] := by
  intro pair entries changes
  refine ⟨_, rfl, rfl, ?_⟩
  obtain ⟨-, -, -, -, -, -, questions⟩ := listing_exact entries _ changes rfl
  have live : Live ((givenPairs entries).map (fun pair => .set pair.1 pair.2) ++ changes)
      (.text "name") := ⟨.undefined, rfl⟩
  obtain ⟨has, lookup, -⟩ := questions (.text "name")
  obtain ⟨-, -, -, -, removed⟩ := questions (.number .nan)
  exact ⟨lookup, has.mpr live, removed⟩

end NamedArguments
