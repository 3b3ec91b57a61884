import Mathlib.Data.List.Permutation
import NamedArguments.ArgumentMap.Walk
import NamedArguments.Proofs.ArgumentHistory

/-! What walkers show of arguments that change under them. A walker shows lives
of keys, each at most once and in the order in which they began; a key that is
removed and set again is shown again. It comes to its end when it has shown all
keys that are live by then, and stays there. What a walker has shown is told
from the steps taken, and the places of cursors are held against it. -/
namespace NamedArguments

namespace Walk

/-- A walk over arguments with a past, after steps. -/
def run (past : List Change) (steps : List Step) : Walk :=
  (Walk.of (ArgumentMap.empty.after past)).after steps

/-- All changes that the arguments of a walk have gone through. -/
def changes (past : List Change) (steps : List Step) : List Change :=
  past ++ steps.filterMap Step.change?

/-- What a walker shows if it goes on now. -/
def sight? (past : List Change) (steps : List Step) (index : Nat) : Option Sight :=
  ((run past steps).perform (.next index)).1

/-- A step was taken, and something held just before. -/
def Taken (steps : List Step) (step : Step) (before : List Step → Prop) : Prop :=
  ∃ earlier later, steps = earlier ++ step :: later ∧ before earlier

/-- A walker has shown the life of a key that began at a moment. -/
def Shown (past : List Change) (steps : List Step) (index moment : Nat) : Prop :=
  Taken steps (.next index) fun earlier => ∃ key,
    (sight? past earlier index).bind Sight.key? = some key ∧
      LiveSince (changes past earlier) key moment

/-- A walker has come to its end. -/
def Finished (past : List Change) (steps : List Step) (index : Nat) : Prop :=
  Taken steps (.next index) fun earlier => sight? past earlier index = some .done

theorem taken_concat (steps : List Step) (step wanted : Step) (before : List Step → Prop) :
    Taken (steps ++ [step]) wanted before ↔
      Taken steps wanted before ∨ (step = wanted ∧ before steps) := by
  constructor
  · rintro ⟨earlier, later, split, held⟩
    rcases List.eq_nil_or_concat later with rfl | ⟨between, last, rfl⟩
    · obtain ⟨rfl, same⟩ := List.append_inj' split rfl
      exact Or.inr ⟨List.singleton_injective same, held⟩
    · rw [List.concat_eq_append, ← List.cons_append, ← List.append_assoc] at split
      obtain ⟨rfl, -⟩ := List.append_inj' split rfl
      exact Or.inl ⟨earlier, between, rfl, held⟩
  · rintro (⟨earlier, later, rfl, held⟩ | ⟨rfl, held⟩)
    · exact ⟨earlier, later ++ [step], by simp, held⟩
    · exact ⟨steps, [], rfl, held⟩

theorem run_concat (past : List Change) (steps : List Step) (step : Step) :
    run past (steps ++ [step]) = ((run past steps).perform step).2 :=
  after_concat _ steps step

theorem changes_concat_change (past : List Change) (steps : List Step) (change : Change) :
    changes past (steps ++ [.change change]) = changes past steps ++ [change] := by
  simp [changes, Step.change?]

theorem changes_concat_idle (past : List Change) (steps : List Step) {step : Step}
    (idle : step.change? = none) : changes past (steps ++ [step]) = changes past steps := by
  simp [changes, idle]

theorem args_perform_idle (walk : Walk) {step : Step} (idle : step.change? = none) :
    (walk.perform step).2.args = walk.args := by
  cases step with
  | change made => cases idle
  | start facet => rfl
  | next index =>
    simp only [perform]
    split <;> rfl

/-- The arguments of a walk are what all their changes make of them. -/
theorem tracks_run (past : List Change) (steps : List Step) :
    Tracks (changes past steps) (run past steps).args := by
  induction steps using List.reverseRecOn with
  | nil =>
    rw [changes, List.filterMap_nil, List.append_nil]
    exact tracks_after past
  | append_singleton steps step ih =>
    rw [run_concat]
    cases made : step.change? with
    | none =>
      rw [changes_concat_idle past steps made, args_perform_idle _ made]
      exact ih
    | some change =>
      cases step with
      | change given =>
        rw [changes_concat_change]
        exact ih.change given
      | start facet => cases made
      | next index => cases made

end Walk

/-- How a cursor goes on: not at all once it is done, else to the first entry
that it has not passed, or to its end where it has passed them all. -/
theorem Cursor.next_cases (cursor : Cursor) (args : ArgumentMap) :
    (cursor.done = true ∧ cursor.next args = (none, cursor)) ∨
    (cursor.done = false ∧ (∀ entry ∈ args.entries, entry.stamp < cursor.position) ∧
      cursor.next args = (none, { cursor with done := true })) ∨
    (cursor.done = false ∧ ∃ entry ∈ args.entries, cursor.position ≤ entry.stamp ∧
      (∀ other ∈ args.entries, cursor.position ≤ other.stamp → entry.stamp ≤ other.stamp) ∧
      cursor.next args = (some entry, { cursor with position := entry.stamp + 1 })) := by
  cases done : cursor.done with
  | true => exact Or.inl ⟨rfl, by simp [next, done]⟩
  | false =>
    cases ahead : cursor.ahead? args with
    | none =>
      refine Or.inr (Or.inl ⟨rfl, ?_, by simp [next, done, ahead]⟩)
      intro entry member
      simpa using List.find?_eq_none.mp ahead entry member
    | some entry =>
      refine Or.inr (Or.inr ⟨rfl, entry, List.mem_of_find?_eq_some ahead, ?_, ?_,
        by simp [next, done, ahead]⟩)
      · simpa using List.find?_some ahead
      · intro other member beyond
        obtain ⟨-, before, after, split, passed⟩ := List.find?_eq_some_iff_append.mp ahead
        have ascending := args.ascending
        rw [split] at member ascending
        rcases List.mem_append.mp member with early | late
        · have missed := passed other early
          simp only [Bool.not_eq_true', decide_eq_false_iff_not] at missed
          exact absurd beyond missed
        · rcases List.mem_cons.mp late with rfl | later
          · exact Nat.le_refl _
          · rw [List.map_append, List.map_cons] at ascending
            have behind := (List.pairwise_append.mp ascending).2.1
            exact Nat.le_of_lt ((List.pairwise_cons.mp behind).1 other.stamp
              (List.mem_map.mpr ⟨other, later, rfl⟩))

namespace Walk

/-- The place of a walker; one that is still to set out stands at the start. -/
def place (walk : Walk) (index : Nat) : Cursor :=
  ((walk.walkers[index]?).map Walker.cursor).getD .start

/-- The place of a walker says what it has shown: every entry that it has passed
and that is still there, and nothing that it has not passed. -/
structure Followed (past : List Change) (steps : List Step) (index : Nat) (cursor : Cursor) :
    Prop where
  done : cursor.done = true ↔ Finished past steps index
  within : cursor.position ≤ (run past steps).args.next
  passed : ∀ entry ∈ (run past steps).args.entries, entry.stamp < cursor.position →
    ∀ moment, (births (changes past steps))[entry.stamp]? = some moment → Shown past steps index moment
  shown : ∀ moment, Shown past steps index moment →
    ∃ stamp < cursor.position, (births (changes past steps))[stamp]? = some moment

variable {past : List Change} {steps : List Step} {index : Nat} {cursor : Cursor}

/-- A step that shows nothing of a walker adds nothing to what it has shown. -/
theorem shown_concat_silent {step : Step}
    (silent : step = .next index → sight? past steps index = none) (moment : Nat) :
    Shown past (steps ++ [step]) index moment ↔ Shown past steps index moment := by
  rw [Shown, taken_concat]
  refine or_iff_left ?_
  rintro ⟨same, key, seen, -⟩
  rw [silent same] at seen
  cases seen

theorem finished_concat_silent {step : Step}
    (silent : step = .next index → sight? past steps index = none) :
    Finished past (steps ++ [step]) index ↔ Finished past steps index := by
  rw [Finished, taken_concat]
  refine or_iff_left ?_
  rintro ⟨same, ended⟩
  rw [silent same] at ended
  cases ended

/-- Entries after a change have the stamps of entries before it, or the next one. -/
theorem stamp_of_mem_change {args : ArgumentMap} {change : Change} {entry : MapEntry}
    (member : entry ∈ (args.change change).entries) :
    entry.stamp = args.next ∨ ∃ before ∈ args.entries, before.stamp = entry.stamp := by
  cases change with
  | set key value =>
    by_cases held : args.has key = true
    · rw [ArgumentMap.change, (ArgumentMap.set_of_has held value).1] at member
      obtain ⟨before, was, rfl⟩ := List.mem_map.mp member
      refine Or.inr ⟨before, was, ?_⟩
      rw [MapEntry.overwrite]
      split <;> rfl
    · rw [ArgumentMap.change, (ArgumentMap.set_of_not_has held value).1] at member
      rcases List.mem_append.mp member with was | new
      · exact Or.inr ⟨entry, was, rfl⟩
      · rw [List.mem_singleton.mp new]
        exact Or.inl rfl
  | erase key => exact Or.inr ⟨entry, (List.mem_filter.mp member).1, rfl⟩

theorem next_le_next_change (args : ArgumentMap) (change : Change) :
    args.next ≤ (args.change change).next := by
  cases change with
  | set key value =>
    by_cases held : args.has key = true
    · exact Nat.le_of_eq (ArgumentMap.set_of_has held value).2.symm
    · exact Nat.le_of_lt (Nat.lt_of_succ_le (Nat.le_of_eq (ArgumentMap.set_of_not_has held value).2.symm))
  | erase key => exact Nat.le_refl _

namespace Followed

theorem change (followed : Followed past steps index cursor) (change : Change) :
    Followed past (steps ++ [.change change]) index cursor := by
  have args : (run past (steps ++ [.change change])).args = (run past steps).args.change change := by
    rw [run_concat]
    rfl
  have silent : Step.change change = .next index → sight? past steps index = none := nofun
  refine ⟨?_, ?_, ?_, ?_⟩
  · rw [finished_concat_silent silent]
    exact followed.done
  · rw [args]
    exact Nat.le_trans followed.within (next_le_next_change _ change)
  · intro entry member lower moment born
    rw [shown_concat_silent silent]
    rw [args] at member
    rw [changes_concat_change] at born
    -- An entry that the change adds has the next stamp, which no cursor has passed.
    have old : entry.stamp ≠ (run past steps).args.next :=
      Nat.ne_of_lt (Nat.lt_of_lt_of_le lower followed.within)
    obtain ⟨before, was, same⟩ := (stamp_of_mem_change member).resolve_left old
    obtain ⟨began, tells⟩ := (tracks_run past steps).tells before was
    rw [← same, birth_concat tells.stamp change] at born
    cases born
    exact followed.passed before was (same ▸ lower) _ tells.stamp
  · intro moment shown
    rw [shown_concat_silent silent] at shown
    obtain ⟨stamp, lower, born⟩ := followed.shown moment shown
    refine ⟨stamp, lower, ?_⟩
    rw [changes_concat_change]
    exact birth_concat born change

/-- A step that changes nothing and shows nothing of the walker leaves all as it is. -/
theorem idle (followed : Followed past steps index cursor) {step : Step}
    (idle : step.change? = none)
    (silent : step = .next index → sight? past steps index = none) :
    Followed past (steps ++ [step]) index cursor := by
  have args : (run past (steps ++ [step])).args = (run past steps).args := by
    rw [run_concat, args_perform_idle _ idle]
  refine ⟨?_, ?_, ?_, ?_⟩
  · rw [finished_concat_silent silent]
    exact followed.done
  · rw [args]
    exact followed.within
  · intro entry member lower moment born
    rw [args] at member
    rw [changes_concat_idle past steps idle] at born
    rw [shown_concat_silent silent]
    exact followed.passed entry member lower moment born
  · intro moment shown
    rw [shown_concat_silent silent] at shown
    rw [changes_concat_idle past steps idle]
    exact followed.shown moment shown

/-- A walker that goes on and comes to its end, or is there already. -/
theorem ended (followed : Followed past steps index cursor)
    (sight : sight? past steps index = some .done) :
    Followed past (steps ++ [.next index]) index { cursor with done := true } := by
  have idle : (Step.next index).change? = none := rfl
  have args : (run past (steps ++ [.next index])).args = (run past steps).args := by
    rw [run_concat, args_perform_idle _ idle]
  have same : ∀ moment, Shown past (steps ++ [.next index]) index moment ↔
      Shown past steps index moment := by
    intro moment
    rw [Shown, taken_concat]
    refine or_iff_left ?_
    rintro ⟨-, key, seen, -⟩
    rw [sight] at seen
    cases seen
  refine ⟨?_, ?_, ?_, ?_⟩
  · rw [Finished, taken_concat]
    exact iff_of_true rfl (Or.inr ⟨rfl, sight⟩)
  · rw [args]
    exact followed.within
  · intro entry member lower moment born
    rw [args] at member
    rw [changes_concat_idle past steps idle] at born
    exact (same moment).mpr (followed.passed entry member lower moment born)
  · intro moment shown
    rw [changes_concat_idle past steps idle]
    exact followed.shown moment ((same moment).mp shown)

/-- A walker that goes on to the first entry that it has not passed. -/
theorem moved (followed : Followed past steps index cursor) {entry : MapEntry}
    (member : entry ∈ (run past steps).args.entries) (beyond : cursor.position ≤ entry.stamp)
    (first : ∀ other ∈ (run past steps).args.entries,
      cursor.position ≤ other.stamp → entry.stamp ≤ other.stamp)
    (sight : (sight? past steps index).bind Sight.key? = some entry.key) :
    Followed past (steps ++ [.next index]) index { cursor with position := entry.stamp + 1 } := by
  have idle : (Step.next index).change? = none := rfl
  have args : (run past (steps ++ [.next index])).args = (run past steps).args := by
    rw [run_concat, args_perform_idle _ idle]
  obtain ⟨began, tells⟩ := (tracks_run past steps).tells entry member
  have shows : ∀ moment, Shown past (steps ++ [.next index]) index moment ↔
      Shown past steps index moment ∨ moment = began := by
    intro moment
    rw [Shown, taken_concat]
    refine or_congr Iff.rfl ⟨?_, ?_⟩
    · rintro ⟨-, key, seen, lives⟩
      cases sight.symm.trans seen
      exact lives.unique tells.lives
    · rintro rfl
      exact ⟨rfl, entry.key, sight, tells.lives⟩
  refine ⟨?_, ?_, ?_, ?_⟩
  · rw [Finished, taken_concat]
    refine followed.done.trans (or_iff_left ?_).symm
    rintro ⟨-, ended⟩
    rw [ended] at sight
    cases sight
  · rw [args]
    exact (run past steps).args.used entry member
  · intro other inside lower moment born
    rw [args] at inside
    rw [changes_concat_idle past steps idle] at born
    rcases Nat.lt_or_ge other.stamp cursor.position with before | ahead
    · exact (shows moment).mpr (Or.inl (followed.passed other inside before moment born))
    · -- The move passes the first entry ahead and no other.
      have same : entry.stamp = other.stamp :=
        Nat.le_antisymm (first other inside ahead) (Nat.le_of_lt_succ lower)
      rw [← same, tells.stamp] at born
      cases born
      exact (shows _).mpr (Or.inr rfl)
  · intro moment shown
    rw [changes_concat_idle past steps idle]
    rcases (shows moment).mp shown with before | rfl
    · obtain ⟨stamp, lower, born⟩ := followed.shown moment before
      exact ⟨stamp, Nat.lt_of_lt_of_le lower (Nat.le_succ_of_le beyond), born⟩
    · exact ⟨entry.stamp, Nat.lt_succ_self _, tells.stamp⟩

end Followed

/-- A walker's sight is that of what its cursor comes to. -/
theorem sight?_of_walker {walker : Walker}
    (walking : (run past steps).walkers[index]? = some walker) :
    sight? past steps index =
      some (walker.facet.sight (walker.cursor.next (run past steps).args).1) := by
  simp only [sight?, perform, walking, Walker.next]

theorem place_of_walker {walk : Walk} {walker : Walker}
    (walking : walk.walkers[index]? = some walker) : walk.place index = walker.cursor := by
  rw [place, walking]
  rfl

@[simp] theorem key?_sight (facet : Facet) (entry : Option MapEntry) :
    (facet.sight entry).key? = entry.map MapEntry.key := by
  cases facet <;> cases entry <;> rfl

theorem sight_none (facet : Facet) : facet.sight none = .done := by
  cases facet <;> rfl

/-- Going on moves the walker's own cursor and nobody else's. -/
theorem place_next {walk : Walk} {walker : Walker} (number : Nat)
    (walking : walk.walkers[number]? = some walker) (index : Nat) :
    (walk.perform (.next number)).2.place index =
      if index = number then (walker.cursor.next walk.args).2 else walk.place index := by
  have inside := (List.getElem?_eq_some_iff.mp walking).1
  simp only [perform, walking, place, Walker.next]
  by_cases same : index = number
  · subst same
    rw [List.getElem?_set_self inside, if_pos rfl]
    rfl
  · rw [List.getElem?_set_ne (Ne.symm same), if_neg same]

theorem place_start (walk : Walk) (facet : Facet) (index : Nat) :
    (walk.perform (.start facet)).2.place index = walk.place index := by
  simp only [perform, place]
  rcases Nat.lt_trichotomy index walk.walkers.length with inside | rfl | beyond
  · rw [List.getElem?_append_left inside]
  · rw [List.getElem?_concat_length, List.getElem?_eq_none (Nat.le_refl _)]
    rfl
  · have after : (walk.walkers ++ [Walker.start facet]).length ≤ index := by
      rw [List.length_append, List.length_singleton]
      exact beyond
    rw [List.getElem?_eq_none after, List.getElem?_eq_none (Nat.le_of_lt beyond)]

/-- Whatever the next step is, the place of a walker goes on saying what it has
shown. -/
theorem followed_step (followed : Followed past steps index ((run past steps).place index))
    (step : Step) :
    Followed past (steps ++ [step]) index ((run past (steps ++ [step])).place index) := by
  rw [run_concat]
  cases step with
  | change given => exact followed.change given
  | start facet =>
    rw [place_start]
    exact followed.idle rfl nofun
  | next number =>
    cases walking : (run past steps).walkers[number]? with
    | none =>
      have still : ((run past steps).perform (.next number)).2 = run past steps := by
        simp only [perform, walking]
      rw [still]
      refine followed.idle rfl ?_
      rintro ⟨⟩
      simp only [sight?, perform, walking]
    | some walker =>
      rw [place_next number walking]
      by_cases same : index = number
      · subst same
        rw [if_pos rfl]
        have sight := sight?_of_walker walking
        rw [place_of_walker walking] at followed
        rcases walker.cursor.next_cases (run past steps).args with
          ⟨done, next⟩ | ⟨-, -, next⟩ | ⟨-, entry, member, beyond, first, next⟩
        · rw [next, sight_none] at sight
          rw [next]
          simpa only [← done] using followed.ended sight
        · rw [next, sight_none] at sight
          rw [next]
          exact followed.ended sight
        · rw [next] at sight
          rw [next]
          exact followed.moved member beyond first (by simp [sight])
      · rw [if_neg same]
        refine followed.idle rfl ?_
        rintro ⟨⟩
        exact absurd rfl same

theorem followed_run (past : List Change) (steps : List Step) (index : Nat) :
    Followed past steps index ((run past steps).place index) := by
  induction steps using List.reverseRecOn with
  | nil =>
    have untaken : ∀ (step : Step) (before : List Step → Prop), ¬ Taken [] step before := by
      rintro step before ⟨earlier, later, split, -⟩
      simp at split
    refine ⟨?_, Nat.zero_le _, ?_, ?_⟩
    · exact iff_of_false Bool.false_ne_true (untaken _ _)
    · intro entry member lower
      exact absurd lower (Nat.not_lt_zero _)
    · intro moment shown
      exact absurd shown (untaken _ _)
  | append_singleton steps step ih => exact followed_step ih step

/-- What a walker shows when it goes on, whatever has been done to the arguments
and by other walkers before. A key in sight is live, and with it goes the value
that it stands for. Its life began later than all that the walker has shown, so
none is shown twice and they are shown in their order. The walker comes to its
end just when it has shown the lives of all keys that are live by then, and from
then on it is at its end, whatever is added. -/
theorem sights_exact (past : List Change) (steps : List Step) (index : Nat) (walker : Walker)
    (walking : (run past steps).walkers[index]? = some walker) :
    let history := changes past steps
    ∃ sight, sight? past steps index = some sight ∧
      (walker.facet = .keys → sight = .done ∨ ∃ key, sight = .key key) ∧
      (walker.facet = .entries → sight = .done ∨
        ∃ key value, sight = .entry key value ∧ standing history key = some value) ∧
      (∀ key, sight.key? = some key → ∃ moment, LiveSince history key moment ∧
        ∀ earlier, Shown past steps index earlier → earlier < moment) ∧
      (¬ Finished past steps index →
        (sight = .done ↔ ∀ key moment, LiveSince history key moment → Shown past steps index moment)) ∧
      (Finished past steps index → sight = .done) := by
  intro history
  have tracks := tracks_run past steps
  have followed := followed_run past steps index
  rw [place_of_walker walking] at followed
  refine ⟨_, sight?_of_walker walking, ?_⟩
  rcases walker.cursor.next_cases (run past steps).args with
    ⟨done, next⟩ | ⟨going, all, next⟩ | ⟨going, entry, member, beyond, -, next⟩
  · rw [next, sight_none]
    refine ⟨fun _ => Or.inl rfl, fun _ => Or.inl rfl, nofun, ?_, fun _ => rfl⟩
    intro unfinished
    exact absurd (followed.done.mp done) unfinished
  · rw [next, sight_none]
    refine ⟨fun _ => Or.inl rfl, fun _ => Or.inl rfl, nofun, fun _ => iff_of_true rfl ?_, fun _ => rfl⟩
    intro key moment lives
    obtain ⟨entry, member, same⟩ := ArgumentMap.has_iff.mp (tracks.holds key lives.live)
    obtain ⟨began, tells⟩ := tracks.tells entry member
    rw [(lives.congr same).unique tells.lives]
    exact followed.passed entry member (all entry member) began tells.stamp
  · obtain ⟨began, tells⟩ := tracks.tells entry member
    have later : ∀ earlier, Shown past steps index earlier → earlier < began := by
      intro earlier shown
      obtain ⟨stamp, lower, born⟩ := followed.shown earlier shown
      exact (birth_lt_birth_iff born tells.stamp).mpr (Nat.lt_of_lt_of_le lower beyond)
    have sighted : (walker.facet.sight (some entry)).key? = some entry.key := key?_sight _ _
    have more : walker.facet.sight (some entry) ≠ .done := by
      intro done
      rw [done] at sighted
      cases sighted
    rw [next]
    refine ⟨?_, ?_, ?_, fun _ => iff_of_false more ?_, ?_⟩
    · intro facet
      rw [facet]
      exact Or.inr ⟨entry.key, rfl⟩
    · intro facet
      rw [facet]
      exact Or.inr ⟨entry.key, entry.value, rfl, tells.value⟩
    · intro key seen
      cases sighted.symm.trans seen
      exact ⟨began, tells.lives, later⟩
    · intro all
      exact Nat.lt_irrefl _ (later began (all entry.key began tells.lives))
    · intro finished
      rw [followed.done.mpr finished] at going
      cases going

/-- A name that is removed and set again is shown again, behind the age; and once
the walker has come to its end, a city that is added is not shown. -/
theorem sights_exact_again :
    let name := Value.text "name"
    let past : List Change := [.set name .null, .set (.text "age") .null]
    let steps : List Step := [.start .entries, .next 0, .change (.erase name),
      .change (.set name (.bool true)), .next 0]
    let late := steps ++ [.next 0] ++ [.next 0, .change (.set (.text "city") .null)]
    sight? past [.start .entries] 0 = some (.entry name .null) ∧
      sight? past steps 0 = some (.entry name (.bool true)) ∧
      (∃ moment, LiveSince (changes past steps) name moment ∧
        ∀ earlier, Shown past steps 0 earlier → earlier < moment) ∧
      sight? past late 0 = some .done := by
  intro name past steps late
  have shows : sight? past steps 0 = some (.entry name (.bool true)) := by cbv
  refine ⟨by cbv, shows, ?_, ?_⟩
  · have walking : (run past steps).walkers[0]? = some ⟨.entries, ⟨2, false⟩⟩ := by cbv
    obtain ⟨sight, seen, -, -, later, -⟩ := sights_exact past steps 0 _ walking
    cases shows.symm.trans seen
    exact later name rfl
  · have walking : (run past late).walkers[0]? = some ⟨.entries, ⟨3, true⟩⟩ := by cbv
    obtain ⟨sight, seen, -, -, -, -, ended⟩ := sights_exact past late 0 _ walking
    have comes : sight? past (steps ++ [.next 0]) 0 = some .done := by cbv
    have finished : Finished past late 0 := by
      refine ⟨steps ++ [.next 0], [.change (.set (.text "city") .null)], ?_, ?_⟩
      · rfl
      · exact comes
    rw [seen, ended finished]

end Walk
end NamedArguments
