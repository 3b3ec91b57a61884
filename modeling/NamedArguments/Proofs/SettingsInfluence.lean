import NamedArguments.Proofs.ExtractionVerdicts
import NamedArguments.Proofs.MappingMirrors
import NamedArguments.Proofs.SessionSteps

/-! What settings have to do with an extraction. They decide whether its buffer
is held against the schema, which comes before anything else is done, and
whether its report is written, which comes after everything else. A buffer that
is refused leaves no trace, and in no other way do two sets of settings make a
difference to what is extracted. -/
namespace NamedArguments.Extraction
open Settings (Surroundings Store Loaded)

variable {σ : Type}

theorem checksBuffers_eq_false_iff (loaded : Loaded) :
    checksBuffers loaded = false ↔ loaded.at "checks" = .text "none" := by
  unfold checksBuffers
  rw [Bool.not_eq_false']
  constructor
  · intro matched
    split at matched
    next named => exact named
    next => cases matched
  · intro named
    simp [named]

theorem checksBuffers_iff (loaded : Loaded) :
    checksBuffers loaded = true ↔ loaded.at "checks" ≠ .text "none" := by
  rw [Ne, ← checksBuffers_eq_false_iff, Bool.not_eq_false]

/-- What can be wrong with a buffer. -/
theorem bufferFault_eq_some_iff (modes : Modes) (buffer : Option Buffer) (declared : Nat)
    (fault : SchemaFault) :
    bufferFault modes buffer (.count declared) = some fault ↔
      (buffer = none ∧ modes.write = true ∧ fault = .missingBuffer) ∨
        ∃ slots, buffer = some slots ∧ slots.length ≠ declared ∧
          fault = .bufferLength slots.length (.count declared) := by
  cases buffer with
  | none =>
    cases writing : modes.write with
    | false => simp [bufferFault, writing]
    | true =>
      simp only [bufferFault, writing, ↓reduceIte, Option.some.injEq, true_and, reduceCtorEq,
        false_and, exists_false, or_false]
      exact eq_comm
  | some slots =>
    by_cases same : declared = slots.length
    · simp [bufferFault, Extent.isCount, same]
    · have apart : slots.length ≠ declared := Ne.symm same
      simp only [bufferFault, Extent.isCount, beq_iff_eq, same, ↓reduceIte, Option.some.injEq,
        reduceCtorEq, false_and, false_or, exists_eq_left', ne_eq, apart, not_false_eq_true, true_and]
      exact eq_comm

/-- A run whose buffer is in order does not depend on whether it is checked. -/
theorem run_of_fits {checked : Bool} {modes : Modes} {buffer : Option Buffer} {declared : Nat}
    (fits : checked = true → Fits modes buffer declared) (m : Option (Mapping σ)) (schema : Schema)
    (state : σ) :
    run checked m modes schema (.count declared) buffer state =
      run false m modes schema (.count declared) buffer state := by
  have orderly : (if checked then bufferFault modes buffer (.count declared) else none) = none := by
    split
    next checks => exact (bufferFault_eq_none_iff _ _ _).mpr (fits checks)
    next => rfl
  simp only [run, orderly, Bool.false_eq_true, ↓reduceIte]

/-- A run whose checked buffer is at fault ends where it starts. -/
theorem run_of_fault {modes : Modes} {buffer : Option Buffer} {declared : Nat} {fault : SchemaFault}
    (faulty : bufferFault modes buffer (.count declared) = some fault) (m : Option (Mapping σ))
    (schema : Schema) (state : σ) :
    run true m modes schema (.count declared) buffer state =
      failWith { mapping := state, buffer, found := 0 } (.schema fault) none := by
  simp only [run, ↓reduceIte, faulty]

/-- The faults of a schema that a run can end with are those of its buffer. -/
theorem run_schemaFault_exact (checked : Bool) (m : Option (Mapping σ)) (modes : Modes)
    (required optional : List Value) (others : Value) (buffer : Option Buffer) (state : σ)
    (fault : SchemaFault) :
    (run checked m modes (.ofLists required optional others)
        (.count (required.length + optional.length)) buffer state).outcome =
          .error (.schema fault) ↔
      checked = true ∧
        bufferFault modes buffer (.count (required.length + optional.length)) = some fault := by
  constructor
  · intro raised
    obtain ⟨checks, unfit⟩ := (run_schemaFault_iff checked m modes required optional others buffer
      state).mp ⟨fault, raised⟩
    rw [← bufferFault_eq_none_iff] at unfit
    obtain ⟨actual, faulty⟩ := Option.ne_none_iff_exists'.mp unfit
    rw [checks, run_of_fault faulty] at raised
    cases raised
    exact ⟨checks, faulty⟩
  · rintro ⟨rfl, faulty⟩
    rw [run_of_fault faulty]
    rfl

/-- An extraction over lists whose settings load is a run, with the lines of the
loading followed by its report. -/
theorem underSettings_loaded {around : Surroundings} {store : Store} {loaded : Loaded}
    {lines : List Line} (loads : Settings.ensure around store = .ok (loaded, lines))
    (m : Option (Mapping σ)) (required optional : List Value) (others : Value)
    (buffer : Option Buffer) (request : Request) (state : σ) :
    let ending := run (checksBuffers loaded) m (request.modes buffer)
      (.ofLists required optional others) (.count (required.length + optional.length)) buffer state
    underSettings around store m (.ofLists required optional others) buffer request state =
      { outcome := ending.outcome, mapping := ending.mapping, buffer := ending.buffer
        store := .loaded loaded, lines := lines ++ reportLines around loaded ending.report } := by
  simp only [underSettings, Schema.total_ofLists, loads]

/-- The fault of a schema is raised exactly where settings do not switch the
check off and values are to be written without a buffer, or a buffer is given
that does not have one slot for each declared keyword, whether or not it would
be written. Then nothing is asked of the mapping, which stays as it was, as the
buffer does; and nothing is reported. -/
theorem buffer_check_exact (around : Surroundings) (store : Store) (loaded : Loaded)
    (lines : List Line) (m : Option (Mapping σ)) (required optional : List Value) (others : Value)
    (buffer : Option Buffer) (request : Request) (state : σ) (earlier : List Call)
    (loads : Settings.ensure around store = .ok (loaded, lines)) :
    let schema := Schema.ofLists required optional others
    let declared := required.length + optional.length
    let writing := (request.write.orElse (.bool buffer.isSome)).isTruthy
    let result := underSettings around store m schema buffer request state
    let noted := underSettings around store (m.map Mapping.recorded) schema buffer request
      (state, earlier)
    (∀ fault, result.outcome = .error (.schema fault) ↔
      loaded.at "checks" ≠ .text "none" ∧
        ((buffer = none ∧ writing = true ∧ fault = .missingBuffer) ∨
          ∃ slots, buffer = some slots ∧ slots.length ≠ declared ∧
            fault = .bufferLength slots.length (.count declared))) ∧
    (∀ fault, result.outcome = .error (.schema fault) →
      (buffer = none ∧ fault.reason.value = .text "missing_buffer" ∨
          buffer ≠ none ∧ fault.reason.value = .text "buffer_length") ∧
        result.mapping = state ∧ result.buffer = buffer ∧ result.lines = lines ∧
        noted.outcome = result.outcome ∧ noted.mapping = (state, earlier)) ∧
    (loaded.at "checks" = .text "none" → ∀ fault, result.outcome ≠ .error (.schema fault)) := by
  intro schema declared writing result noted
  have ran : result = _ :=
    underSettings_loaded loads m required optional others buffer request state
  have ranNoted : noted = _ := underSettings_loaded loads (m.map Mapping.recorded) required optional
    others buffer request (state, earlier)
  have exact : ∀ fault, result.outcome = .error (.schema fault) ↔
      checksBuffers loaded = true ∧
        bufferFault (request.modes buffer) buffer (.count declared) = some fault := by
    intro fault
    rw [ran]
    apply run_schemaFault_exact
  refine ⟨fun fault => ?_, fun fault raised => ?_, fun off fault raised => ?_⟩
  · rw [exact, checksBuffers_iff, bufferFault_eq_some_iff]
    rfl
  · obtain ⟨checks, faulty⟩ := (exact fault).mp raised
    rw [raised, ran, ranNoted, checks, run_of_fault faulty, run_of_fault faulty]
    refine ⟨?_, rfl, rfl, by simp [failWith, reportLines], rfl, rfl⟩
    rcases (bufferFault_eq_some_iff _ _ _ _).mp faulty with
      ⟨rfl, -, rfl⟩ | ⟨slots, rfl, -, rfl⟩
    · exact Or.inl ⟨rfl, rfl⟩
    · exact Or.inr ⟨Option.some_ne_none slots, rfl⟩
  · obtain ⟨checks, -⟩ := (exact fault).mp raised
    rw [(checksBuffers_eq_false_iff loaded).mpr off] at checks
    cases checks

/-- A name and an age take two slots. No buffer for values that are to be
written, three slots that are not even to be written, and the same three slots
once the check is switched off. -/
theorem buffer_check_exact_each_way :
    let unchecked : Loaded :=
      { untouched with effective := Value.plain .merged [("checks", .text "none")] }
    let result (loaded : Loaded) (buffer : Option Buffer) (write : Value) :=
      underSettings ⟨[], .empty⟩ (.loaded loaded) (some ArgumentMap.mapping)
        (.ofLists [.text "name"] [.text "age"] (.bool false)) buffer
        { write, consume := .undefined } (.ofList [(.text "name", .null)])
    (result untouched none (.text "yes")).outcome = .error (.schema .missingBuffer) ∧
      (result untouched (some (.unassigned 3)) (.bool false)).outcome =
        .error (.schema (.bufferLength 3 (.count 2))) ∧
      (result untouched (some (.unassigned 3)) (.bool false)).mapping =
        .ofList [(.text "name", .null)] ∧
      ∀ fault, (result unchecked (some (.unassigned 3)) (.bool false)).outcome ≠
        .error (.schema fault) := by
  intro unchecked result
  have exact := fun loaded buffer write => buffer_check_exact ⟨[], .empty⟩ (.loaded loaded) loaded []
    (some ArgumentMap.mapping) [.text "name"] [.text "age"] (.bool false) buffer
    { write, consume := .undefined } (.ofList [(.text "name", .null)]) [] rfl
  have checks : untouched.at "checks" ≠ .text "none" := by
    rw [← checksBuffers_iff]
    rfl
  have long : (result untouched (some (.unassigned 3)) (.bool false)).outcome =
      .error (.schema (.bufferLength 3 (.count 2))) :=
    ((exact untouched (some (.unassigned 3)) (.bool false)).1 _).mpr
      ⟨checks, Or.inr ⟨_, rfl, by decide, rfl⟩⟩
  refine ⟨?_, long, ?_, ?_⟩
  · exact ((exact untouched none (.text "yes")).1 _).mpr ⟨checks, Or.inl ⟨rfl, rfl, rfl⟩⟩
  · exact ((exact untouched (some (.unassigned 3)) (.bool false)).2.1 _ long).2.1
  · exact (exact unchecked (some (.unassigned 3)) (.bool false)).2.2 rfl

@[simp] theorem logger_scope : logger.scope = "keywords" := rfl

@[simp] theorem logger_ownWriter : logger.ownWriter = false := rfl

/-- Writing a report cannot fail and changes no settings, whatever stands for a
threshold in them. It makes one line or none. -/
theorem report_written (around : Surroundings) (loaded : Loaded) (message : String) :
    let access := logger.write around (.loaded loaded) .debug message
    access.outcome = .ok [] ∧ access.store = .loaded loaded ∧
      (access.lines = [] ∨ access.lines = [Line.of "keywords" .debug message]) := by
  intro access
  have asked : ∃ shown, logger.enabled around (.loaded loaded) Level.debug.name =
      { outcome := .ok shown, store := .loaded loaded, lines := [] } := ⟨_, rfl⟩
  obtain ⟨shown, asked⟩ := asked
  refine ⟨?_, ?_, ?_⟩
  · rw [Logger.write_outcome, asked]
    simp [Except.map, logger]
  · rw [Logger.write_store, asked]
  · cases shown with
    | false => exact Or.inl (by simp only [access, Logger.write, asked])
    | true => exact Or.inr (by simp [access, Logger.write, asked])

/-- Two sessions whose settings load. If the check of the buffer is switched off
in both or in neither, or would find the buffer in order, then an extraction
answers the same in both, leaves the same buffer and the same mapping, and asks
the same of it in the same order. Both have the same report to write, which
cannot fail under any settings; whether it becomes a line is all that remains
open, besides the lines of the loading. -/
theorem settings_immaterial (here there : Session) (loaded other : Loaded) (lines more : List Line)
    (m : Option (Mapping σ)) (required optional : List Value) (others : Value)
    (buffer : Option Buffer) (request : Request) (state : σ) (earlier : List Call)
    (loads : Settings.ensure here.around here.store = .ok (loaded, lines))
    (loadsThere : Settings.ensure there.around there.store = .ok (other, more))
    (alike : (loaded.at "checks" = .text "none" ↔ other.at "checks" = .text "none") ∨
      Fits (request.modes buffer) buffer (required.length + optional.length)) :
    let schema := Schema.ofLists required optional others
    let extraction (session : Session) :=
      underSettings session.around session.store m schema buffer request state
    let noted (session : Session) :=
      underSettings session.around session.store (m.map Mapping.recorded) schema buffer request
        (state, earlier)
    (extraction here).outcome = (extraction there).outcome ∧
      (extraction here).buffer = (extraction there).buffer ∧
      (extraction here).mapping = (extraction there).mapping ∧
      (noted here).mapping = (noted there).mapping ∧
      (∀ session, (noted session).map Prod.fst = extraction session) ∧
      (extraction here).store = .loaded loaded ∧ (extraction there).store = .loaded other ∧
      ∃ report,
        (extraction here).lines = lines ++ reportLines here.around loaded report ∧
        (extraction there).lines = more ++ reportLines there.around other report ∧
        ∀ message, report = some message → ∀ (around : Surroundings) (settings : Loaded),
          let access := logger.write around (.loaded settings) .debug message
          access.outcome = .ok [] ∧ access.store = .loaded settings ∧
            (access.lines = [] ∨ access.lines = [Line.of "keywords" .debug message]) := by
  intro schema extraction noted
  -- The settings enter a run only as the word on the check.
  have same : ∀ {τ : Type} (m : Option (Mapping τ)) (state : τ),
      run (checksBuffers loaded) m (request.modes buffer) schema
          (.count (required.length + optional.length)) buffer state =
        run (checksBuffers other) m (request.modes buffer) schema
          (.count (required.length + optional.length)) buffer state := by
    intro τ m state
    rcases alike with agree | fits
    · have checks : checksBuffers loaded = checksBuffers other := by
        apply Bool.eq_iff_iff.mpr
        rw [checksBuffers_iff, checksBuffers_iff]
        exact not_congr agree
      rw [checks]
    · rw [run_of_fits (fun _ => fits)]
      exact (run_of_fits (fun _ => fits) m schema state).symm
  have ranHere : extraction here = _ :=
    underSettings_loaded loads m required optional others buffer request state
  have ranThere : extraction there = _ :=
    underSettings_loaded loadsThere m required optional others buffer request state
  have notedHere : noted here = _ := underSettings_loaded loads (m.map Mapping.recorded) required
    optional others buffer request (state, earlier)
  have notedThere : noted there = _ := underSettings_loaded loadsThere (m.map Mapping.recorded)
    required optional others buffer request (state, earlier)
  rw [ranHere, ranThere, notedHere, notedThere, same m, same (m.map Mapping.recorded)]
  refine ⟨rfl, rfl, rfl, rfl, fun session => ?_, rfl, rfl, _, rfl, rfl,
    fun message _ around settings => report_written around settings message⟩
  exact underSettings_recorded session.around session.store m schema buffer request state earlier

/-- A name is missing from a host's mapping that claims infinitely many entries.
Settings that switch debugging on and hold junk as a word on the check make a
line of it, and no other difference to settings that were never touched. -/
theorem settings_immaterial_debug :
    let loud : Loaded :=
      { untouched with
        effective := Value.plain .merged [("debug", .bool true), ("checks", .null)] }
    let extraction (loaded : Loaded) := underSettings ⟨[], .empty⟩ (.loaded loaded)
      (some (hostMapping { sticky := true, size := some (.infinite false) }))
      (.ofLists [.text "name"] [.text "age"] (.bool false)) none .silent
      (.ofList [(.text "age", .null)])
    (extraction untouched).outcome = (extraction loud).outcome ∧
      (extraction untouched).mapping = (extraction loud).mapping ∧
      (extraction untouched).lines = [] ∧
      (extraction loud).lines =
        [Line.of "keywords" .debug "missing required keyword 'name'"] := by
  intro loud extraction
  have checks : checksBuffers untouched = true ∧ checksBuffers loud = true := ⟨rfl, rfl⟩
  rw [checksBuffers_iff, checksBuffers_iff] at checks
  obtain ⟨outcome, -, mapping, -, -, -, -, -⟩ := settings_immaterial ⟨⟨[], .empty⟩, .loaded untouched⟩
    ⟨⟨[], .empty⟩, .loaded loud⟩ untouched loud [] []
    (some (hostMapping { sticky := true, size := some (.infinite false) })) [.text "name"]
    [.text "age"] (.bool false) none .silent (.ofList [(.text "age", .null)]) [] rfl rfl
    (Or.inl ⟨fun off => absurd off checks.1, fun off => absurd off checks.2⟩)
  exact ⟨outcome, mapping, rfl, rfl⟩

end NamedArguments.Extraction
