import NamedArguments.Extraction
import NamedArguments.Proofs.ExtractionPasses
import NamedArguments.Proofs.KeywordMessages

/-! The exits of an extraction from arguments. Whether it ends at the buffer,
at a missing key, at keys left over or with a count is said of the arguments
as they were handed over, and each exit comes with all that is left behind. The
check for leftovers compares sizes only; that it agrees with the entries rests
on the keys of the schema being different. -/
namespace NamedArguments.Extraction
open Settings (Surroundings Store Loaded)

/-- The arguments that a caller hands over; without a mapping there are none. -/
def handed (args : Option ArgumentMap) : ArgumentMap := args.getD .empty

/-- Extraction from arguments that may be left out. -/
def extract (around : Surroundings) (store : Store) (args : Option ArgumentMap) (schema : Schema)
    (buffer : Option Buffer) (request : Request) : Result ArgumentMap :=
  underSettings around store (args.map fun _ => ArgumentMap.mapping) schema buffer request
    (handed args)

/-- Settings in use when no source gives any. -/
def untouched : Loaded :=
  { file := Settings.empty, programmatic := Settings.empty, effective := Settings.defaults
    origin := none }

/-- There is a buffer if values are written, and any buffer has one slot for
each keyword. -/
def Fits (modes : Modes) (buffer : Option Buffer) (declared : Nat) : Prop :=
  (modes.write = true → buffer.isSome = true) ∧
    ∀ slots, buffer = some slots → slots.length = declared

/-- The keys that a schema does not declare, in insertion order. -/
def unknownKeys (args : ArgumentMap) (declared : List Value) : List Value :=
  args.keys.filter fun key => !key.inKeys declared

/-- Some entry is not the entry of a declared key that is found. -/
def Surplus (args : ArgumentMap) (declared : List Value) : Prop :=
  ∃ entry ∈ args.entries, ¬ (entry.key.inKeys declared = true ∧ entry.value ≠ .absent)

/-- The keys looked for when no required one is missing: without a mapping the
optional ones are not. -/
def sought (args : Option ArgumentMap) (required optional : List Value) : List Value :=
  if args.isSome then required ++ optional else required

/-- A buffer once a count is reached: the answers are recorded, and the slots
from the count on are cleared. -/
def settled (modes : Modes) (buffer : Option Buffer) (values : List Value) (count total : Nat) :
    Option Buffer :=
  if modes.write then
    buffer.map fun slots => clear (slots.writeAll 0 values) count (total - count)
  else buffer

/-- How an extraction ends, said of what it starts from. -/
inductive Exit (checked : Bool) (args : Option ArgumentMap) (modes : Modes)
    (required optional : List Value) (others : Value) (buffer : Option Buffer) :
    Ending ArgumentMap → Prop where
  | unfit (fault : SchemaFault) (checks : checked = true)
      (faulty : bufferFault modes buffer (.count (required.length + optional.length)) = some fault) :
      Exit checked args modes required optional others buffer
        { outcome := .error (.schema fault), mapping := handed args, buffer, report := none }
  | missing (fits : checked = true → Fits modes buffer (required.length + optional.length))
      (before after : List Value) (keyword : Keyword)
      (declared : required = before ++ keyword.value :: after)
      (found : ∀ key ∈ before, (handed args).finds key = true)
      (absent : (handed args).finds keyword.value = false) :
      Exit checked args modes required optional others buffer
        { outcome := .error (.missing keyword)
          mapping := taken modes (handed args) (before ++ [keyword.value])
          buffer := recorded modes buffer 0
            ((before ++ [keyword.value]).map (handed args).lookup)
          report := some ("missing required keyword '" ++ keyword.name ++ "'") }
  | leftOver (fits : checked = true → Fits modes buffer (required.length + optional.length))
      (present : args.isSome = true) (found : ∀ key ∈ required, (handed args).finds key = true)
      (closed : others.isTruthy = false) (surplus : Surplus (handed args) (required ++ optional)) :
      Exit checked args modes required optional others buffer
        { outcome := .error (Fault.raised
            (Fault.ofUnknown (unknownKeys (handed args) (required ++ optional))))
          mapping := taken modes (handed args) (required ++ optional)
          buffer := recorded modes buffer 0 ((required ++ optional).map (handed args).lookup)
          report := some (toString (unknownKeys (handed args) (required ++ optional)).length ++
            " unknown keyword(s) left after extraction") }
  | counted (fits : checked = true → Fits modes buffer (required.length + optional.length))
      (found : ∀ key ∈ required, (handed args).finds key = true)
      (complete : others.isTruthy = true ∨ ¬ Surplus (handed args) (required ++ optional)) :
      Exit checked args modes required optional others buffer
        { outcome := .ok ((required ++ optional).countP (handed args).finds)
          mapping := taken modes (handed args) (required ++ optional)
          buffer := settled modes buffer ((sought args required optional).map (handed args).lookup)
            ((required ++ optional).countP (handed args).finds) (required.length + optional.length)
          report := some (summary modes ((required ++ optional).countP (handed args).finds)
            (.count (required.length + optional.length))) }

theorem bufferFault_eq_none_iff (modes : Modes) (buffer : Option Buffer) (declared : Nat) :
    bufferFault modes buffer (.count declared) = none ↔ Fits modes buffer declared := by
  cases buffer with
  | none => simp [bufferFault, Fits]
  | some slots =>
    have same : declared = slots.length ↔ slots.length = declared := eq_comm
    simp [bufferFault, Fits, Extent.isCount, same]

theorem not_fits_of_fault {modes : Modes} {buffer : Option Buffer} {declared : Nat}
    {fault : SchemaFault} (faulty : bufferFault modes buffer (.count declared) = some fault) :
    ¬ Fits modes buffer declared := by
  intro fits
  rw [(bufferFault_eq_none_iff modes buffer declared).mpr fits] at faulty
  cases faulty

/-- With a buffer in order nothing but the modes keeps an extraction idle. -/
theorem idle_of_orderly {checked : Bool} {fits idle : Prop} (orderly : checked = true → fits)
    (unmoved : idle ∨ (checked = true ∧ ¬ fits)) : idle := by
  rcases unmoved with idle | ⟨checks, unfit⟩
  · exact idle
  · exact absurd (orderly checks) unfit

/-- What is listed of the keys that remain after all declared ones are visited. -/
theorem unknownKeys_taken (modes : Modes) (args : ArgumentMap) (declared : List Value) :
    (taken modes args declared).keys.filter (fun key => !key.inKeys declared) =
      unknownKeys args declared := by
  cases consuming : modes.consume with
  | false => simp [taken, consuming, unknownKeys]
  | true =>
    simp only [taken, consuming, ↓reduceIte, unknownKeys, ArgumentMap.keys, List.filter_map,
      ArgumentMap.entries_without, List.filter_filter]
    congr 1
    refine List.filter_congr fun entry member => ?_
    rw [ArgumentMap.inKeys_found declared member]
    cases inside : entry.key.inKeys declared <;> simp [inside]

private theorem removed_pos_iff_surplus (args : ArgumentMap) (declared : List Value) :
    0 < (args.without (declared.filter args.finds)).size ↔ Surplus args declared := by
  simp only [ArgumentMap.size, List.length_pos_iff_exists_mem, ArgumentMap.entries_without,
    List.mem_filter, Surplus]
  refine exists_congr fun entry => and_congr_right fun member => ?_
  rw [ArgumentMap.inKeys_found declared member, Bool.not_eq_true', ← Bool.not_eq_true,
    Bool.and_eq_true, Bool.not_eq_true', ← Bool.not_eq_true, isAbsent_iff]

/-- Too many keys are left exactly where some entry is not the entry of a
declared key that is found, whether or not found keys were removed. -/
theorem allowance_lt_size_iff (modes : Modes) (args : ArgumentMap) (declared : List Value)
    (distinct : (declared.map Value.key).Nodup) :
    allowance modes (declared.countP args.finds) < (taken modes args declared).size ↔
      Surplus args declared := by
  rw [← removed_pos_iff_surplus]
  cases consuming : modes.consume with
  | true => simp [allowance, taken, consuming]
  | false =>
    have sizes := ArgumentMap.size_without_found args declared distinct
    simp only [allowance, taken, consuming, Bool.false_eq_true, ↓reduceIte]
    omega

/-- Either all keys are found or there is a first one that is not. -/
theorem all_found_or_missing (args : ArgumentMap) (keys : List Value) :
    (∀ key ∈ keys, args.finds key = true) ∨
      ∃ before key after, keys = before ++ key :: after ∧
        (∀ other ∈ before, args.finds other = true) ∧ args.finds key = false := by
  cases first : keys.find? fun key => !args.finds key with
  | none =>
    refine Or.inl fun key member => ?_
    simpa using List.find?_eq_none.mp first key member
  | some key =>
    obtain ⟨missing, before, after, split, found⟩ := List.find?_eq_some_iff_append.mp first
    exact Or.inr ⟨before, key, after, split, fun other member => by simpa using found other member,
      by simpa using missing⟩

theorem find?_missing {args : ArgumentMap} {before after : List Value} {key : Value}
    (found : ∀ other ∈ before, args.finds other = true) (missing : args.finds key = false) :
    (before ++ key :: after).find? (fun other => !args.finds other) = some key :=
  List.find?_eq_some_iff_append.mpr
    ⟨by simp [missing], before, after, rfl, fun other member => by simp [found other member]⟩

theorem find?_none {args : ArgumentMap} {keys : List Value}
    (found : ∀ key ∈ keys, args.finds key = true) :
    keys.find? (fun key => !args.finds key) = none :=
  List.find?_eq_none.mpr fun key member => by simp [found key member]

/-- How far an extraction has come once it has visited some keys. -/
def reached (modes : Modes) (args : ArgumentMap) (buffer : Option Buffer) (keys : List Value) :
    Progress ArgumentMap :=
  { mapping := taken modes args keys
    buffer := recorded modes buffer 0 (keys.map args.lookup)
    found := keys.countP args.finds }

private theorem distinct_left {keys others : List Value}
    (distinct : ((keys ++ others).map Value.key).Nodup) : (keys.map Value.key).Nodup := by
  rw [List.map_append] at distinct
  exact (List.nodup_append.mp distinct).1

theorem visitAll_start (modes : Modes) (args : ArgumentMap) (buffer : Option Buffer)
    (keys : List Value) (distinct : (keys.map Value.key).Nodup) :
    visitAll (some ArgumentMap.mapping) modes 0 keys { mapping := args, buffer, found := 0 } =
      reached modes args buffer keys := by
  rw [visitAll_arguments modes 0 keys distinct]
  simp [reached]

/-- The check for leftovers, after all declared keys are visited, fails exactly
on a surplus. -/
theorem checkRest_reached (modes : Modes) (args : ArgumentMap) (buffer : Option Buffer)
    (required optional : List Value) (others : Value) (total : Extent)
    (distinct : ((required ++ optional).map Value.key).Nodup) :
    let now := reached modes args buffer (required ++ optional)
    let ending := checkRest ArgumentMap.mapping modes (.ofLists required optional others) total now
    (others.isTruthy = true ∨ ¬ Surplus args (required ++ optional) →
      ending = succeed modes total now) ∧
      (others.isTruthy = false → Surplus args (required ++ optional) →
        ending = leftOver now (unknownKeys args (required ++ optional))) := by
  have exceeds := allowance_lt_size_iff modes args (required ++ optional) distinct
  have sized : askSize ArgumentMap.mapping modes (reached modes args buffer (required ++ optional)) =
      (decide (allowance modes ((required ++ optional).countP args.finds) <
          (taken modes args (required ++ optional)).size),
        reached modes args buffer (required ++ optional)) := rfl
  have declared : (Schema.ofLists required optional others).keywords = .ok (required ++ optional) := rfl
  have listed : askKeys ArgumentMap.mapping (required ++ optional)
        (reached modes args buffer (required ++ optional)) =
      (unknownKeys args (required ++ optional), reached modes args buffer (required ++ optional)) :=
    Prod.ext (unknownKeys_taken modes args (required ++ optional)) rfl
  constructor
  · rintro (allowed | complete)
    · exact if_pos allowed
    · rw [decide_eq_false (mt exceeds.mp complete)] at sized
      simp only [checkRest, sized, ite_self]
  · intro closed surplus
    rw [decide_eq_true (exceeds.mpr surplus)] at sized
    have refused : ¬ (Schema.ofLists required optional others).others.isTruthy = true := by
      simp [Schema.ofLists, closed]
    simp only [checkRest, if_neg refused, sized, declared, listed]

theorem succeed_reached (modes : Modes) (args : ArgumentMap) (buffer : Option Buffer)
    (keys : List Value) (total : Nat) :
    succeed modes (.count total) (reached modes args buffer keys) =
      { outcome := .ok (keys.countP args.finds)
        mapping := taken modes args keys
        buffer := settled modes buffer (keys.map args.lookup) (keys.countP args.finds) total
        report := some (summary modes (keys.countP args.finds) (.count total)) } := by
  cases writing : modes.write <;> cases buffer <;>
    simp [succeed, reached, recorded, settled, Extent.beyond, writing]

private theorem requiredPass_handed (args : Option ArgumentMap) (modes : Modes) (keys : List Value)
    (now : Progress ArgumentMap) (start : now.mapping = handed args) :
    requiredPass (args.map fun _ => ArgumentMap.mapping) modes 0 keys now =
      requiredPass (some ArgumentMap.mapping) modes 0 keys now := by
  cases args with
  | none => exact requiredPass_nothing modes 0 keys now start
  | some held => rfl

/-- Once all required keys are found, an extraction ends at keys left over or
with a count. -/
theorem afterRequired_exit (checked : Bool) (args : Option ArgumentMap) (modes : Modes)
    (required optional : List Value) (others : Value) (buffer : Option Buffer)
    (fits : checked = true → Fits modes buffer (required.length + optional.length))
    (distinct : ((required ++ optional).map Value.key).Nodup)
    (found : ∀ key ∈ required, (handed args).finds key = true) :
    Exit checked args modes required optional others buffer
      (afterRequired (args.map fun _ => ArgumentMap.mapping) modes
        (.ofLists required optional others) (.count (required.length + optional.length))
        (reached modes (handed args) buffer required)) := by
  cases args with
  | none =>
    -- Nothing is found in no arguments, so there are no required keys.
    cases required with
    | cons key rest => simpa [handed] using found key (by simp)
    | nil =>
      have complete : ¬ Surplus (handed none) ([] ++ optional) := by
        rintro ⟨entry, member, _⟩
        cases member
      have ended : Exit checked none modes [] optional others buffer _ :=
        .counted fits found (Or.inr complete)
      have uncounted : optional.countP (handed none).finds = 0 := by
        simp [handed, List.countP_eq_zero]
      have untaken : optional.filter (handed none).finds = [] := by
        simp [handed, List.filter_eq_nil_iff]
      have finished := succeed_reached modes (handed none) buffer [] (0 + optional.length)
      simp only [Option.map_none, afterRequired, List.length_nil, finished]
      simpa [taken, sought, uncounted, untaken] using ended
  | some held =>
    have visited : afterRequired (some ArgumentMap.mapping) modes (.ofLists required optional others)
        (.count (required.length + optional.length)) (reached modes held buffer required) =
        checkRest ArgumentMap.mapping modes (.ofLists required optional others)
          (.count (required.length + optional.length))
          (reached modes held buffer (required ++ optional)) := by
      have distinctRequired := distinct_left distinct
      have whole := visitAll_append (some ArgumentMap.mapping) modes 0 required optional
        { mapping := held, buffer, found := 0 }
      rw [visitAll_start _ _ _ _ distinct, visitAll_start _ _ _ _ distinctRequired] at whole
      have base : (Part.keys required).base = .count required.length := rfl
      have slots := optionalPass_eq_visitAll (some ArgumentMap.mapping) modes required.length 0
        optional (reached modes held buffer required)
      simp only [afterRequired, Schema.ofLists, Part.visited?, base, slots, whole, Nat.add_zero,
        Nat.zero_add]
    obtain ⟨completes, overflows⟩ := checkRest_reached modes held buffer required optional others
      (.count (required.length + optional.length)) distinct
    rw [Option.map_some, show handed (some held) = held from rfl, visited]
    by_cases complete : others.isTruthy = true ∨ ¬ Surplus held (required ++ optional)
    · rw [completes complete, succeed_reached]
      exact .counted fits found complete
    · obtain ⟨closed, surplus⟩ := not_or.mp complete
      rw [Bool.not_eq_true] at closed
      rw [overflows closed (not_not.mp surplus)]
      exact .leftOver fits rfl found closed (not_not.mp surplus)

/-- Every extraction from a valid schema takes one of the exits. -/
theorem run_exit (checked : Bool) (args : Option ArgumentMap) (modes : Modes)
    (required optional : List Value) (others : Value) (buffer : Option Buffer)
    (valid : DistinctKeywords (required ++ optional)) :
    Exit checked args modes required optional others buffer
      (run checked (args.map fun _ => ArgumentMap.mapping) modes (.ofLists required optional others)
        (.count (required.length + optional.length)) buffer (handed args)) := by
  have distinctRequired := distinct_left valid.distinct
  have visited : (Schema.ofLists required optional others).required.visited? = some required := rfl
  have pass := requiredPass_handed args modes required
    { mapping := handed args, buffer, found := 0 } rfl
  unfold run
  split
  next fault faulty =>
    cases checked with
    | false => simp at faulty
    | true => exact .unfit fault rfl faulty
  next unfaulty =>
    have fits : checked = true → Fits modes buffer (required.length + optional.length) := by
      intro checks
      rw [if_pos checks] at unfaulty
      exact (bufferFault_eq_none_iff _ _ _).mp unfaulty
    simp only [visited, pass]
    rcases all_found_or_missing (handed args) required with
      found | ⟨before, key, after, split, found, missing⟩
    · rw [requiredPass_found modes 0 required distinctRequired _ found,
        visitAll_start modes _ buffer required distinctRequired]
      exact afterRequired_exit checked args modes required optional others buffer fits valid.distinct
        found
    · subst split
      obtain ⟨keyword, rfl⟩ := namesArgument_iff.mp (valid.named key (by simp))
      have distinctBefore : ((before ++ [keyword.value]).map Value.key).Nodup :=
        distinctRequired.sublist (List.Sublist.map _ (by simp))
      rw [requiredPass_missing modes 0 before keyword.value after distinctBefore _ found missing,
        visitAll_start modes _ buffer _ distinctBefore]
      have ended : Exit checked args modes (before ++ keyword.value :: after) optional others buffer _ :=
        .missing fits before after keyword rfl found missing
      simpa [missingKey, failWith, Fault.raised, reached] using ended

/-- An extraction whose settings load ends at one of the exits, with the lines
of the loading followed by its report. -/
theorem extract_exit (around : Surroundings) (store : Store) (loaded : Loaded) (lines : List Line)
    (args : Option ArgumentMap) (required optional : List Value) (others : Value)
    (buffer : Option Buffer) (request : Request)
    (valid : (Schema.ofLists required optional others).validate = .ok ())
    (loads : Settings.ensure around store = .ok (loaded, lines)) :
    ∃ ending, Exit (checksBuffers loaded) args (request.modes buffer) required optional others
        buffer ending ∧
      extract around store args (.ofLists required optional others) buffer request =
        { outcome := ending.outcome, mapping := ending.mapping, buffer := ending.buffer
          store := .loaded loaded, lines := lines ++ reportLines around loaded ending.report } := by
  have distinct := (Schema.validate_ofLists_iff required optional others).mp valid
  refine ⟨_, run_exit (checksBuffers loaded) args (request.modes buffer) required optional others
    buffer distinct, ?_⟩
  simp only [extract, underSettings, Schema.total_ofLists, loads]

end NamedArguments.Extraction
