import Mathlib.Data.List.Induction
import NamedArguments.ArgumentMap.Change
import NamedArguments.Proofs.ArgumentLookup

/-! What arguments hold, told from the changes that they have gone through. The
last change of a key says whether it is live and what it stands for. Its place
comes from the change that made it live after it was last absent; a key that is
removed and set again begins another life, and each life is known by the moment
at which it began. Stamps count these moments. -/
namespace NamedArguments

/-- What a key stands for after changes, if it is live: its last change says so. -/
def standing (history : List Change) (key : Value) : Option Value :=
  (history.reverse.find? fun change => key.sameKey change.key).bind Change.value?

def Live (history : List Change) (key : Value) : Prop := ∃ value, standing history key = some value

/-- A key was set at a moment when it was not live, and was not removed since. -/
structure LiveSince (history : List Change) (key : Value) (moment : Nat) : Prop where
  set : ∃ given value, history[moment]? = some (.set given value) ∧ key.key = given.key
  fresh : standing (history.take moment) key = none
  kept : ∀ change ∈ history.drop (moment + 1), key.key = change.key.key → change.value?.isSome = true

theorem standing_concat (history : List Change) (change : Change) (key : Value) :
    standing (history ++ [change]) key =
      if key.sameKey change.key then change.value? else standing history key := by
  rw [standing, List.reverse_append, List.reverse_singleton, List.singleton_append, List.find?_cons]
  cases same : key.sameKey change.key with
  | true => simp
  | false => simp [standing]

theorem standing_congr (history : List Change) {key other : Value} (same : key.key = other.key) :
    standing history key = standing history other := by
  simp only [standing, Value.sameKey, same]

namespace LiveSince
variable {history : List Change} {key : Value} {moment : Nat}

theorem congr (lives : LiveSince history key moment) {other : Value} (same : key.key = other.key) :
    LiveSince history other moment := by
  refine ⟨?_, (standing_congr _ same) ▸ lives.fresh, ?_⟩
  · simpa only [same] using lives.set
  · simpa only [same] using lives.kept

theorem lt_length (lives : LiveSince history key moment) : moment < history.length := by
  obtain ⟨given, value, set, -⟩ := lives.set
  exact (List.getElem?_eq_some_iff.mp set).1

/-- A life goes on through changes that do not remove its key. -/
theorem concat (lives : LiveSince history key moment) (change : Change)
    (kept : key.key = change.key.key → change.value?.isSome = true) :
    LiveSince (history ++ [change]) key moment := by
  have inside := lives.lt_length
  refine ⟨?_, ?_, ?_⟩
  · rw [List.getElem?_append_left inside]
    exact lives.set
  · rw [List.take_append_of_le_length (Nat.le_of_lt inside)]
    exact lives.fresh
  · rw [List.drop_append_of_le_length inside]
    intro later member same
    rcases List.mem_append.mp member with before | new
    · exact lives.kept later before same
    · obtain rfl := List.mem_singleton.mp new
      exact kept same

/-- A life that is there at the end was there all the time since it began. -/
theorem take (lives : LiveSince history key moment) {time : Nat} (later : moment < time) :
    LiveSince (history.take time) key moment := by
  refine ⟨?_, ?_, ?_⟩
  · rw [List.getElem?_take_of_lt later]
    exact lives.set
  · rw [List.take_take, Nat.min_eq_left (Nat.le_of_lt later)]
    exact lives.fresh
  · intro change member same
    rw [List.drop_take] at member
    exact lives.kept change (List.mem_of_mem_take member) same

theorem live (lives : LiveSince history key moment) : Live history key := by
  obtain ⟨given, value, set, same⟩ := lives.set
  obtain ⟨inside, held⟩ := List.getElem?_eq_some_iff.mp set
  -- The last change of the key is the one that began its life, or a later one that keeps it.
  have split : history = history.take moment ++ .set given value :: history.drop (moment + 1) := by
    rw [← held, List.getElem_cons_drop, List.take_append_drop]
  rw [Live, standing, split, List.reverse_append, List.reverse_cons, List.append_assoc,
    List.find?_append]
  cases later : (history.drop (moment + 1)).reverse.find? fun change => key.sameKey change.key with
  | some change =>
    have member := List.mem_reverse.mp (List.mem_of_find?_eq_some later)
    have about : key.key = change.key.key := by simpa using List.find?_some later
    obtain ⟨given, gives⟩ := Option.isSome_iff_exists.mp (lives.kept change member about)
    exact ⟨given, by simpa using gives⟩
  | none => exact ⟨value, by simp [Value.sameKey, Change.key, same, Change.value?]⟩

/-- A key has one life at a time. -/
theorem unique (lives : LiveSince history key moment) {other : Nat}
    (also : LiveSince history key other) : moment = other := by
  have apart : ∀ {first second : Nat}, LiveSince history key first → LiveSince history key second →
      ¬ first < second := by
    intro first second lives also before
    obtain ⟨value, stands⟩ := (lives.take before).live
    rw [also.fresh] at stands
    cases stands
  exact Nat.le_antisymm (Nat.not_lt.mp (apart also lives)) (Nat.not_lt.mp (apart lives also))

end LiveSince

/-- Setting a key that is not live begins a life of it. -/
theorem liveSince_last {history : List Change} {key given : Value} (value : Value)
    (fresh : standing history key = none) (same : key.key = given.key) :
    LiveSince (history ++ [.set given value]) key history.length := by
  refine ⟨⟨given, value, by simp, same⟩, ?_, ?_⟩
  · rw [List.take_left]
    exact fresh
  · intro change member
    simp at member

/-- Whether the change at a moment makes its key live. -/
def beginsLife (history : List Change) (moment : Nat) : Bool :=
  match history[moment]? with
  | some (.set key _) => (standing (history.take moment) key).isNone
  | _ => false

/-- The moments at which lives began, in their order. -/
def births (history : List Change) : List Nat :=
  (List.range history.length).filter (beginsLife history)

theorem births_ascending (history : List Change) : (births history).Pairwise (· < ·) :=
  List.pairwise_lt_range.filter _

theorem births_concat (history : List Change) (change : Change) :
    births (history ++ [change]) =
      births history ++
        if beginsLife (history ++ [change]) history.length then [history.length] else [] := by
  have before : ∀ moment ∈ List.range history.length,
      beginsLife (history ++ [change]) moment = beginsLife history moment := by
    intro moment member
    have inside := List.mem_range.mp member
    rw [beginsLife, beginsLife, List.getElem?_append_left inside,
      List.take_append_of_le_length (Nat.le_of_lt inside)]
  rw [births, List.length_append, List.length_singleton, List.range_succ, List.filter_append,
    List.filter_congr before, births, List.filter_singleton, Bool.cond_eq_ite]

theorem beginsLife_last_set (history : List Change) (key value : Value) :
    beginsLife (history ++ [.set key value]) history.length = (standing history key).isNone := by
  simp [beginsLife]

theorem beginsLife_last_erase (history : List Change) (key : Value) :
    beginsLife (history ++ [.erase key]) history.length = false := by
  simp [beginsLife]

/-- A stamp means the same life however long the history grows. -/
theorem birth_concat {history : List Change} {stamp moment : Nat}
    (born : (births history)[stamp]? = some moment) (change : Change) :
    (births (history ++ [change]))[stamp]? = some moment := by
  have inside := (List.getElem?_eq_some_iff.mp born).1
  rw [births_concat, List.getElem?_append_left inside]
  exact born

theorem birth_lt_birth_iff {history : List Change} {stamp other moment later : Nat}
    (born : (births history)[stamp]? = some moment)
    (also : (births history)[other]? = some later) : moment < later ↔ stamp < other := by
  obtain ⟨inside, rfl⟩ := List.getElem?_eq_some_iff.mp born
  obtain ⟨within, rfl⟩ := List.getElem?_eq_some_iff.mp also
  have ascending := List.pairwise_iff_getElem.mp (births_ascending history)
  constructor
  · intro before
    rcases Nat.lt_trichotomy stamp other with lower | same | higher
    · exact lower
    · subst same
      exact absurd before (Nat.lt_irrefl _)
    · exact absurd before (Nat.lt_asymm (ascending other stamp within inside higher))
  · intro lower
    exact ascending stamp other inside within lower

namespace ArgumentMap
variable {args : ArgumentMap} {key : Value}

theorem has_iff : args.has key = true ↔ ∃ entry ∈ args.entries, key.key = entry.key.key := by
  simp only [has, entry?, List.find?_isSome, Value.sameKey_iff]

theorem set_of_has (held : args.has key = true) (value : Value) :
    (args.set key value).entries = args.entries.map (MapEntry.overwrite key value) ∧
      (args.set key value).next = args.next := by
  simp only [set, held, ↓reduceDIte, and_self]

theorem set_of_not_has (absent : ¬ args.has key = true) (value : Value) :
    (args.set key value).entries = args.entries ++ [⟨args.next, key.asStored, value⟩] ∧
      (args.set key value).next = args.next + 1 := by
  simp only [set, absent, Bool.false_eq_true, ↓reduceDIte, and_self]

theorem key_overwrite (key value : Value) (entry : MapEntry) :
    (entry.overwrite key value).key = entry.key := by
  rw [MapEntry.overwrite]
  split <;> rfl

theorem has_set (args : ArgumentMap) (key value other : Value) :
    (args.set key value).has other = true ↔ other.key = key.key ∨ args.has other = true := by
  by_cases held : args.has key = true
  · obtain ⟨entry, member, same⟩ := has_iff.mp held
    have entries : (args.set key value).has other = true ↔ args.has other = true := by
      rw [has_iff, has_iff, (set_of_has held value).1]
      simp only [List.mem_map, exists_exists_and_eq_and, key_overwrite]
    rw [entries, has_iff]
    constructor
    · exact Or.inr
    · rintro (alike | found)
      · exact ⟨entry, member, alike.trans same⟩
      · exact found
  · have entries := (set_of_not_has held value).1
    simp only [has_iff, entries, List.mem_append, List.mem_singleton, or_and_right, exists_or,
      exists_eq_left, Value.key_asStored]
    exact or_comm

theorem has_erase (args : ArgumentMap) (key other : Value) :
    (args.erase key).2.has other = true ↔ other.key ≠ key.key ∧ args.has other = true := by
  simp only [has_iff, entries_erase, List.mem_filter, Bool.not_eq_true', ← Bool.not_eq_true,
    Value.sameKey_iff]
  constructor
  · rintro ⟨entry, ⟨member, apart⟩, same⟩
    exact ⟨fun alike => apart (alike.symm.trans same), entry, member, same⟩
  · rintro ⟨apart, entry, member, same⟩
    exact ⟨entry, ⟨member, fun alike => apart (same.trans alike.symm)⟩, same⟩

end ArgumentMap

/-- An entry tells of a life of its key: of the moment at which it began, by its
stamp, of the key that was given then, and of the value that was set last. -/
structure Tells (history : List Change) (entry : MapEntry) (moment : Nat) : Prop where
  stamp : (births history)[entry.stamp]? = some moment
  key : ∃ given value, history[moment]? = some (.set given value) ∧ entry.key = given.asStored
  lives : LiveSince history entry.key moment
  value : standing history entry.key = some entry.value

/-- Arguments hold an entry for each key that lives, and no others. -/
structure Tracks (history : List Change) (args : ArgumentMap) : Prop where
  next : args.next = (births history).length
  tells : ∀ entry ∈ args.entries, ∃ moment, Tells history entry moment
  holds : ∀ key, Live history key → args.has key = true

/-- An entry goes on telling of its key's life through changes of other keys. -/
theorem Tells.concat {history : List Change} {entry : MapEntry} {moment : Nat}
    (tells : Tells history entry moment) {change : Change}
    (apart : change.key.key ≠ entry.key.key) : Tells (history ++ [change]) entry moment := by
  obtain ⟨given, value, set, stored⟩ := tells.key
  refine ⟨birth_concat tells.stamp change, ⟨given, value, ?_, stored⟩, ?_, ?_⟩
  · rw [List.getElem?_append_left tells.lives.lt_length]
    exact set
  · exact tells.lives.concat change fun same => absurd same.symm apart
  · have other : ¬ entry.key.sameKey change.key = true := fun same =>
      apart (Value.sameKey_iff.mp same).symm
    rw [standing_concat, if_neg other]
    exact tells.value

/-- An overwritten entry tells of the same life with the new value. -/
theorem Tells.overwrite {history : List Change} {entry : MapEntry} {moment : Nat}
    (tells : Tells history entry moment) (key value : Value) :
    Tells (history ++ [.set key value]) (entry.overwrite key value) moment := by
  by_cases same : key.key = entry.key.key
  · have hit : key.sameKey entry.key = true := Value.sameKey_iff.mpr same
    have about : entry.key.sameKey key = true := Value.sameKey_iff.mpr same.symm
    obtain ⟨given, first, set, stored⟩ := tells.key
    rw [MapEntry.overwrite, if_pos hit]
    refine ⟨birth_concat tells.stamp _, ⟨given, first, ?_, stored⟩, ?_, ?_⟩
    · rw [List.getElem?_append_left tells.lives.lt_length]
      exact set
    · exact tells.lives.concat _ fun _ => rfl
    · rw [standing_concat]
      exact if_pos about
  · have missed : ¬ key.sameKey entry.key = true := fun hit => same (Value.sameKey_iff.mp hit)
    rw [MapEntry.overwrite, if_neg missed]
    exact tells.concat same

namespace Tracks
variable {history : List Change} {args : ArgumentMap}

theorem live_iff (tracks : Tracks history args) (key : Value) :
    Live history key ↔ args.has key = true := by
  constructor
  · exact tracks.holds key
  · intro held
    obtain ⟨entry, member, same⟩ := ArgumentMap.has_iff.mp held
    obtain ⟨moment, tells⟩ := tracks.tells entry member
    exact ⟨entry.value, (standing_congr history same).trans tells.value⟩

theorem standing_eq_none_iff (tracks : Tracks history args) (key : Value) :
    standing history key = none ↔ ¬ args.has key = true := by
  rw [← tracks.live_iff key, Live, ← Option.isSome_iff_exists, Option.not_isSome_iff_eq_none]

theorem start : Tracks [] .empty :=
  ⟨rfl, by simp [ArgumentMap.empty], by simp [Live, standing]⟩

/-- A key that is live after one more change is held after it. -/
theorem holds_concat (tracks : Tracks history args) (change : Change) (key : Value)
    (live : Live (history ++ [change]) key) : (args.change change).has key = true := by
  obtain ⟨value, stands⟩ := live
  rw [standing_concat] at stands
  by_cases about : key.sameKey change.key = true
  · rw [if_pos about] at stands
    cases change with
    | set given value =>
      exact (ArgumentMap.has_set args given value key).mpr (Or.inl (Value.sameKey_iff.mp about))
    | erase given => cases stands
  · rw [if_neg about] at stands
    have apart : key.key ≠ change.key.key := fun same => about (Value.sameKey_iff.mpr same)
    have before := tracks.holds key ⟨value, stands⟩
    cases change with
    | set given value => exact (ArgumentMap.has_set args given value key).mpr (Or.inr before)
    | erase given => exact (ArgumentMap.has_erase args given key).mpr ⟨apart, before⟩

/-- Setting a live key begins no life. -/
theorem set_held (tracks : Tracks history args) {key : Value} (held : args.has key = true)
    (value : Value) : Tracks (history ++ [.set key value]) (args.set key value) := by
  obtain ⟨entries, next⟩ := ArgumentMap.set_of_has held value
  have unborn : ¬ beginsLife (history ++ [.set key value]) history.length = true := by
    rw [beginsLife_last_set, Option.isNone_iff_eq_none, tracks.standing_eq_none_iff, not_not]
    exact held
  refine ⟨?_, ?_, tracks.holds_concat (.set key value)⟩
  · rw [next, births_concat, if_neg unborn, List.append_nil]
    exact tracks.next
  · intro entry member
    rw [entries] at member
    obtain ⟨before, was, rfl⟩ := List.mem_map.mp member
    obtain ⟨moment, tells⟩ := tracks.tells before was
    exact ⟨moment, tells.overwrite key value⟩

/-- Setting any other key begins a life, and the next stamp stands for it. -/
theorem set_fresh (tracks : Tracks history args) {key : Value} (absent : ¬ args.has key = true)
    (value : Value) : Tracks (history ++ [.set key value]) (args.set key value) := by
  obtain ⟨entries, next⟩ := ArgumentMap.set_of_not_has absent value
  have fresh := (tracks.standing_eq_none_iff key).mpr absent
  have born : births (history ++ [.set key value]) = births history ++ [history.length] := by
    rw [births_concat, beginsLife_last_set, fresh]
    rfl
  refine ⟨?_, ?_, tracks.holds_concat (.set key value)⟩
  · rw [next, born, List.length_append, List.length_singleton, tracks.next]
  · intro entry member
    rw [entries] at member
    rcases List.mem_append.mp member with was | new
    · obtain ⟨moment, tells⟩ := tracks.tells entry was
      refine ⟨moment, tells.concat fun same => absent ?_⟩
      exact ArgumentMap.has_iff.mpr ⟨entry, was, same⟩
    · obtain rfl := List.mem_singleton.mp new
      have stored : key.key = key.asStored.key := (Value.key_asStored key).symm
      refine ⟨history.length, ?_, ⟨key, value, by simp, rfl⟩, ?_, ?_⟩
      · rw [born, tracks.next, List.getElem?_concat_length]
      · exact (liveSince_last value fresh rfl).congr stored
      · rw [← standing_congr _ stored, standing_concat]
        exact if_pos (Value.sameKey_iff.mpr rfl)

/-- Removing a key ends its life and keeps all others. -/
theorem erase (tracks : Tracks history args) (key : Value) :
    Tracks (history ++ [.erase key]) (args.erase key).2 := by
  have unborn : ¬ beginsLife (history ++ [.erase key]) history.length = true := by
    simp [beginsLife_last_erase]
  refine ⟨?_, ?_, tracks.holds_concat (.erase key)⟩
  · rw [births_concat, if_neg unborn, List.append_nil]
    exact tracks.next
  · intro entry member
    rw [ArgumentMap.entries_erase] at member
    obtain ⟨was, kept⟩ := List.mem_filter.mp member
    obtain ⟨moment, tells⟩ := tracks.tells entry was
    refine ⟨moment, tells.concat fun same => ?_⟩
    have hit : key.sameKey entry.key = true := Value.sameKey_iff.mpr same
    rw [hit] at kept
    cases kept

/-- Whatever a change does to arguments is what it adds to their history. -/
theorem change (tracks : Tracks history args) (change : Change) :
    Tracks (history ++ [change]) (args.change change) := by
  cases change with
  | set key value =>
    by_cases held : args.has key = true
    · exact tracks.set_held held value
    · exact tracks.set_fresh held value
  | erase key => exact tracks.erase key

end Tracks

/-- Arguments are what their history tells. -/
theorem tracks_after (history : List Change) : Tracks history (ArgumentMap.empty.after history) := by
  induction history using List.reverseRecOn with
  | nil => exact Tracks.start
  | append_singleton history change ih =>
    rw [ArgumentMap.after_concat]
    exact ih.change change

end NamedArguments
