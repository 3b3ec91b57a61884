import NamedArguments.Proofs.ExtractionExits

/-! What holds of extractions from schemas of lists, whatever a mapping answers
and even if the schema is not valid. A success leaves no declared slot
unassigned, also in a buffer that starts too short: the passes assign at least
as many slots as they find keys, and clearing assigns all others. The fault of a
schema is raised for the buffer alone, before the mapping is asked anything. -/
namespace NamedArguments.Extraction

variable {σ : Type}

/-- Visiting keys records one answer for each, and finds no more than them. -/
theorem visitAll_recorded (m : Option (Mapping σ)) (modes : Modes) (index : Nat)
    (keys : List Value) (now : Progress σ) :
    ∃ answers : List Value, answers.length = keys.length ∧
      (visitAll m modes index keys now).buffer = recorded modes now.buffer index answers ∧
      (visitAll m modes index keys now).found ≤ now.found + keys.length := by
  induction keys generalizing index now with
  | nil =>
    refine ⟨[], rfl, ?_, Nat.le_refl _⟩
    cases buffer : now.buffer <;> simp [visitAll, recorded, Buffer.writeAll, buffer]
  | cons key rest ih =>
    obtain ⟨answers, many, written, few⟩ := ih (index + 1) (visit m modes (some index) key now).2
    have counted : (visit m modes (some index) key now).2.found ≤ now.found + 1 := by
      simp only [visit]
      split <;> omega
    refine ⟨(visit m modes (some index) key now).1 :: answers, by simp [many], ?_, ?_⟩
    · rw [visitAll, written, recorded_cons]
      rfl
    · rw [visitAll, List.length_cons]
      omega

/-- A required pass that misses no key has visited them all. -/
theorem requiredPass_complete {m : Option (Mapping σ)} {modes : Modes} {index : Nat}
    {keys : List Value} {now after : Progress σ}
    (passed : requiredPass m modes index keys now = (after, none)) :
    after = visitAll m modes index keys now := by
  induction keys generalizing index now with
  | nil => exact (congrArg Prod.fst passed).symm
  | cons key rest ih =>
    cases absent : (visit m modes (some index) key now).1.isAbsent with
    | true => simp [requiredPass, absent] at passed
    | false =>
      rw [visitAll]
      exact ih (by simpa [requiredPass, absent] using passed)

/-- How a run ends, as far as it can be told without knowing the mapping. -/
inductive Verdict (checked : Bool) (modes : Modes) (total : Nat) (buffer : Option Buffer)
    (state : σ) : Ending σ → Prop where
  | unfit (fault : SchemaFault) (checks : checked = true)
      (faulty : bufferFault modes buffer (.count total) = some fault) :
      Verdict checked modes total buffer state
        (failWith { mapping := state, buffer, found := 0 } (.schema fault) none)
  | missing (fits : checked = true → Fits modes buffer total) (now : Progress σ) (key : Value) :
      Verdict checked modes total buffer state (missingKey now key)
  | leftOver (fits : checked = true → Fits modes buffer total) (now : Progress σ)
      (keys : List Value) : Verdict checked modes total buffer state (leftOver now keys)
  | counted (fits : checked = true → Fits modes buffer total) (now : Progress σ)
      (answers : List Value) (written : now.buffer = recorded modes buffer 0 answers)
      (few : now.found ≤ answers.length) (bounded : answers.length ≤ total) :
      Verdict checked modes total buffer state (succeed modes (.count total) now)

/-- The check for others ends as a success, or with keys left over. -/
theorem checkRest_cases (mapping : Mapping σ) (modes : Modes) (required optional : List Value)
    (others : Value) (total : Extent) (now : Progress σ) :
    let ending := checkRest mapping modes (.ofLists required optional others) total now
    (∃ state, ending = succeed modes total { now with mapping := state }) ∨
      ∃ after keys, ending = leftOver after keys := by
  intro ending
  cases allowed : others.isTruthy with
  | true => exact Or.inl ⟨now.mapping, if_pos allowed⟩
  | false =>
    have closed : ¬ (Schema.ofLists required optional others).others.isTruthy = true := by
      simp [Schema.ofLists, allowed]
    have declared : (Schema.ofLists required optional others).keywords = .ok (required ++ optional) :=
      rfl
    cases size : askSize mapping modes now with
    | mk exceeds asked =>
      have kept : asked = { now with mapping := asked.mapping } := by
        cases size
        rfl
      cases exceeds with
      | false =>
        refine Or.inl ⟨asked.mapping, ?_⟩
        rw [← kept]
        simp only [ending, checkRest, if_neg closed, size]
      | true =>
        cases listed : askKeys mapping (required ++ optional) asked with
        | mk unknown after =>
          refine Or.inr ⟨after, unknown, ?_⟩
          simp only [ending, checkRest, if_neg closed, size, declared, listed]

/-- Once no required key is missing, a run ends with keys left over or as a
success that assigns no more slots than are declared. -/
theorem afterRequired_verdict (checked : Bool) (m : Option (Mapping σ)) (modes : Modes)
    (required optional : List Value) (others : Value) (buffer : Option Buffer) (state : σ)
    (fits : checked = true → Fits modes buffer (required.length + optional.length)) :
    Verdict checked modes (required.length + optional.length) buffer state
      (afterRequired m modes (.ofLists required optional others)
        (.count (required.length + optional.length))
        (visitAll m modes 0 required { mapping := state, buffer, found := 0 })) := by
  cases m with
  | none =>
    -- Optional keys are not visited without a mapping, and their slots are cleared.
    obtain ⟨answers, many, written, few⟩ :=
      visitAll_recorded none modes 0 required { mapping := state, buffer, found := 0 }
    have bounded : answers.length ≤ required.length + optional.length := by omega
    refine .counted fits _ answers written ?_ bounded
    rw [many]
    simpa using few
  | some mapping =>
    have base : (Part.keys required).base = .count required.length := rfl
    have slots := optionalPass_eq_visitAll (some mapping) modes required.length 0 optional
      (visitAll (some mapping) modes 0 required { mapping := state, buffer, found := 0 })
    have whole := visitAll_append (some mapping) modes 0 required optional
      { mapping := state, buffer, found := 0 }
    obtain ⟨answers, many, written, few⟩ :=
      visitAll_recorded (some mapping) modes 0 (required ++ optional)
        { mapping := state, buffer, found := 0 }
    rw [Nat.zero_add] at whole
    simp only [afterRequired, Schema.ofLists, Part.visited?, base, slots, Nat.add_zero, ← whole]
    rcases checkRest_cases mapping modes required optional others
        (.count (required.length + optional.length))
        (visitAll (some mapping) modes 0 (required ++ optional)
          { mapping := state, buffer, found := 0 }) with ⟨asked, ended⟩ | ⟨now, keys, ended⟩
    · rw [Schema.ofLists] at ended
      rw [ended]
      rw [List.length_append] at many few
      exact .counted fits _ answers written (by simpa [many] using few) (Nat.le_of_eq many)
    · rw [Schema.ofLists] at ended
      rw [ended]
      exact .leftOver fits now keys

/-- Every run over lists comes to a verdict. -/
theorem run_verdict (checked : Bool) (m : Option (Mapping σ)) (modes : Modes)
    (required optional : List Value) (others : Value) (buffer : Option Buffer) (state : σ) :
    Verdict checked modes (required.length + optional.length) buffer state
      (run checked m modes (.ofLists required optional others)
        (.count (required.length + optional.length)) buffer state) := by
  have visited : (Schema.ofLists required optional others).required.visited? = some required := rfl
  unfold run
  split
  next fault faulty =>
    cases checked with
    | false => simp at faulty
    | true => exact .unfit fault rfl faulty
  next unfaulty =>
    have fits : checked = true → Fits modes buffer (required.length + optional.length) := by
      intro checks
      rw [if_pos checks] at unfaulty
      exact (bufferFault_eq_none_iff _ _ _).mp unfaulty
    cases pass : requiredPass m modes 0 required { mapping := state, buffer, found := 0 } with
    | mk after absent =>
      simp only [visited, pass]
      cases absent with
      | some key => exact .missing fits after key
      | none =>
        simp only [requiredPass_complete pass]
        exact afterRequired_verdict checked m modes required optional others buffer state fits

/-- A success in writing mode leaves every declared slot assigned, and the
buffer no longer than it was or than there are slots declared. -/
theorem run_assigned {checked : Bool} {m : Option (Mapping σ)} {modes : Modes}
    {required optional : List Value} {others : Value} {slots : Buffer} {state : σ} {found : Nat}
    (writing : modes.write = true)
    (ended : (run checked m modes (.ofLists required optional others)
      (.count (required.length + optional.length)) (some slots) state).outcome = .ok found) :
    ∃ after, (run checked m modes (.ofLists required optional others)
        (.count (required.length + optional.length)) (some slots) state).buffer = some after ∧
      after.length = max slots.length (required.length + optional.length) ∧
      ∀ index < required.length + optional.length, (after.slot index).isSome = true := by
  have verdict := run_verdict checked m modes required optional others (some slots) state
  generalize run checked m modes (.ofLists required optional others)
    (.count (required.length + optional.length)) (some slots) state = ending at ended verdict ⊢
  cases verdict with
  | unfit fault => cases ended
  | missing fits now key =>
    unfold missingKey at ended
    split at ended <;> cases ended
  | leftOver fits now keys => cases ended
  | counted fits now answers written few bounded =>
    -- The answers kept and the markers behind them are one for each declared slot.
    have filled := filled_clear (Buffer.filled_writeAll slots answers) few bounded
    have whole : (answers.take now.found ++
        List.replicate (required.length + optional.length - now.found) Value.absent).length =
          required.length + optional.length := by
      rw [List.length_append, List.length_take_of_le few, List.length_replicate]
      omega
    refine ⟨clear (slots.writeAll 0 answers) now.found
      (required.length + optional.length - now.found), ?_, ?_, ?_⟩
    · simp [succeed, written, recorded, writing, Extent.beyond]
    · rw [filled.length, whole]
    · intro index inside
      rw [← whole] at inside
      rw [filled.front index _ (List.getElem?_eq_getElem inside)]
      rfl

theorem ofNonKeyword_ne_schema (v : Value) (fault : SchemaFault) :
    Fault.ofNonKeyword v ≠ .schema fault := by
  unfold Fault.ofNonKeyword
  split <;> nofun

theorem missingKey_outcome_ne (now : Progress σ) (key : Value) (fault : SchemaFault) :
    (missingKey now key).outcome ≠ .error (.schema fault) := by
  intro raised
  cases named : Keyword.ofValue? key with
  | some keyword =>
    simp [missingKey, Value.printedName, named, failWith, Fault.ofMissing, Fault.raised] at raised
  | none =>
    simp only [missingKey, Value.printedName, named, failWith, Except.error.injEq] at raised
    exact ofNonKeyword_ne_schema key fault raised

theorem leftOver_outcome_ne (now : Progress σ) (keys : List Value) (fault : SchemaFault) :
    (leftOver now keys).outcome ≠ .error (.schema fault) := by
  intro raised
  simp only [leftOver, failWith, Except.error.injEq] at raised
  rcases Fault.raised_ofUnknown keys with ⟨listing, same⟩ | ⟨key, typeName, same⟩ | same <;>
    rw [same] at raised <;> cases raised

/-- The fault of a schema means a checked buffer that does not fit. -/
theorem run_schemaFault_iff (checked : Bool) (m : Option (Mapping σ)) (modes : Modes)
    (required optional : List Value) (others : Value) (buffer : Option Buffer) (state : σ) :
    (∃ fault, (run checked m modes (.ofLists required optional others)
        (.count (required.length + optional.length)) buffer state).outcome =
          .error (.schema fault)) ↔
      checked = true ∧ ¬ Fits modes buffer (required.length + optional.length) := by
  have verdict := run_verdict checked m modes required optional others buffer state
  generalize run checked m modes (.ofLists required optional others)
    (.count (required.length + optional.length)) buffer state = ending at verdict ⊢
  constructor
  · rintro ⟨fault, raised⟩
    cases verdict with
    | unfit given checks faulty => exact ⟨checks, not_fits_of_fault faulty⟩
    | missing fits now key => exact absurd raised (missingKey_outcome_ne now key fault)
    | leftOver fits now keys => exact absurd raised (leftOver_outcome_ne now keys fault)
    | counted fits now answers => cases raised
  · rintro ⟨checks, unfit⟩
    cases verdict with
    | unfit fault checks faulty => exact ⟨fault, rfl⟩
    | missing fits now key => exact absurd (fits checks) unfit
    | leftOver fits now keys => exact absurd (fits checks) unfit
    | counted fits now answers => exact absurd (fits checks) unfit

end NamedArguments.Extraction
