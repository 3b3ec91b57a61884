import NamedArguments.Proofs.SettingsInfluence

/-! What an extraction writes to the console. Behind the check of the buffer each
of its three ways to end makes one report: of a count, of a key that is missing,
or of keys left over, and the last one is made before the fault is stated, which
may turn into another. A report is written as one line at the lowest severity, so
that it shows under the lowest threshold and no other. -/
namespace NamedArguments.Extraction
open Settings (Surroundings Loaded)

variable {σ : Type}

/-- The keys outside a schema that a mapping names when it is asked. -/
def undeclared (mapping : Mapping σ) (declared : List Value) (asked : σ) : List Value :=
  (mapping.keys asked).1.filter fun key => !key.inKeys declared

/-- What is reported of an extraction that gets past the check of its buffer,
beside its outcome and the state in which it leaves the mapping. -/
inductive Reported (m : Option (Mapping σ)) (modes : Modes) (required optional : List Value) :
    Except Fault Nat → σ → String → Prop where
  | counted (found : Nat) (left : σ) :
      Reported m modes required optional (.ok found) left
        ((if modes.consume then "extracted " else "probed ") ++ toString found ++ "/" ++
          toString (required.length + optional.length) ++ " keywords" ++
          if modes.write then "" else " without recording values")
  | missing (keyword : Keyword) (declared : keyword.value ∈ required) (left : σ) :
      Reported m modes required optional (.error (.missing keyword)) left
        ("missing required keyword '" ++ keyword.name ++ "'")
  /-- The keys are asked for last, and whatever fault they raise, their number is
  reported. -/
  | leftOver {mapping : Mapping σ} (given : m = some mapping) (asked : σ) :
      Reported m modes required optional
        (.error (Fault.raised (Fault.ofUnknown (undeclared mapping (required ++ optional) asked))))
        (mapping.keys asked).2
        (toString (undeclared mapping (required ++ optional) asked).length ++
          " unknown keyword(s) left after extraction")

/-- A report is written under the lowest threshold only. -/
theorem reportLines_some (around : Surroundings) (loaded : Loaded) (message : String) :
    reportLines around loaded (some message) =
      if loaded.threshold = .debug then [Line.of "keywords" .debug message] else [] := by
  have asked : logger.enabled around (.loaded loaded) Level.debug.name =
      { outcome := .ok (decide (loaded.threshold = .debug)), store := .loaded loaded, lines := [] } := by
    have reaches : ∀ threshold : Level, (Standing.ofName Level.debug.name).reaches
        (.ofLevel threshold) = decide (threshold = .debug) := by
      intro threshold
      cases threshold <;> rfl
    rw [← reaches]
    rfl
  by_cases low : loaded.threshold = .debug <;> simp [reportLines, Logger.write, asked, low]

/-- The key that a required pass misses is one of those it was to visit. -/
theorem mem_of_requiredPass {m : Option (Mapping σ)} {modes : Modes} {index : Nat}
    {keys : List Value} {now after : Progress σ} {key : Value}
    (passed : requiredPass m modes index keys now = (after, some key)) : key ∈ keys := by
  induction keys generalizing index now with
  | nil => cases passed
  | cons first rest ih =>
    cases absent : (visit m modes (some index) first now).1.isAbsent with
    | true =>
      simp only [requiredPass, absent, if_true, Prod.mk.injEq, Option.some.injEq] at passed
      exact passed.2 ▸ List.mem_cons_self
    | false =>
      exact List.mem_cons_of_mem _ (ih (by simpa [requiredPass, absent] using passed))

variable {m : Option (Mapping σ)} {modes : Modes} {required optional : List Value}

/-- A success reports its count. -/
theorem succeed_reported (now : Progress σ) :
    let ending := succeed modes (.count (required.length + optional.length)) now
    ∃ message, ending.report = some message ∧
      Reported m modes required optional ending.outcome ending.mapping message :=
  ⟨_, rfl, .counted now.found now.mapping⟩

/-- The check for other keys reports a success, or how many there are. -/
theorem checkRest_reported (mapping : Mapping σ) (others : Value) (now : Progress σ) :
    let ending := checkRest mapping modes (.ofLists required optional others)
      (.count (required.length + optional.length)) now
    ∃ message, ending.report = some message ∧
      Reported (some mapping) modes required optional ending.outcome ending.mapping message := by
  have declared : (Schema.ofLists required optional others).keywords = .ok (required ++ optional) :=
    rfl
  simp only [checkRest]
  split
  · exact succeed_reported now
  · split
    next asked _ => exact succeed_reported asked
    next asked _ =>
      simp only [declared]
      exact ⟨_, rfl, .leftOver rfl asked.mapping⟩

/-- Once no required key is missing, the outcome is reported. -/
theorem afterRequired_reported (others : Value) (now : Progress σ) :
    let ending := afterRequired m modes (.ofLists required optional others)
      (.count (required.length + optional.length)) now
    ∃ message, ending.report = some message ∧
      Reported m modes required optional ending.outcome ending.mapping message := by
  cases m with
  | none => exact succeed_reported now
  | some mapping =>
    have visited : (Schema.ofLists required optional others).optional.visited? = some optional := rfl
    have base : (Schema.ofLists required optional others).required.base = .count required.length :=
      rfl
    simp only [afterRequired, visited, base, optionalPass_eq_visitAll]
    exact checkRest_reported mapping others _

/-- Every run that gets past the check of the buffer makes one report. -/
theorem run_reported {checked : Bool} {buffer : Option Buffer} (others : Value) (state : σ)
    (valid : DistinctKeywords (required ++ optional))
    (fits : checked = true → Fits modes buffer (required.length + optional.length)) :
    let ending := run checked m modes (.ofLists required optional others)
      (.count (required.length + optional.length)) buffer state
    ∃ message, ending.report = some message ∧
      Reported m modes required optional ending.outcome ending.mapping message := by
  have visited : (Schema.ofLists required optional others).required.visited? = some required := rfl
  rw [run_of_fits fits]
  simp only [run, Bool.false_eq_true, if_false, visited]
  rcases passed : requiredPass m modes 0 required { mapping := state, buffer, found := 0 } with
    ⟨after, missing⟩
  cases missing with
  | none => exact afterRequired_reported others after
  | some key =>
    have inside := mem_of_requiredPass passed
    obtain ⟨keyword, rfl⟩ := namesArgument_iff.mp (valid.named key (List.mem_append_left _ inside))
    simp only [missingKey, printedName_value, Fault.ofMissing_value, Fault.raised, failWith]
    exact ⟨_, rfl, .missing keyword inside after.mapping⟩

/-- An extraction on loaded settings whose buffer is in order, or not checked,
writes the one line that its outcome calls for if the threshold is the lowest, and
none otherwise. One that is refused for its buffer writes nothing. -/
theorem one_line_exact (around : Surroundings) (loaded : Loaded) (m : Option (Mapping σ))
    (required optional : List Value) (others : Value) (buffer : Option Buffer) (request : Request)
    (state : σ) (valid : (Schema.ofLists required optional others).validate = .ok ()) :
    let modes := request.modes buffer
    let fits := Fits modes buffer (required.length + optional.length)
    let result := underSettings around (.loaded loaded) m (.ofLists required optional others) buffer
      request state
    ((checksBuffers loaded = true → fits) →
      ∃ message, Reported m modes required optional result.outcome result.mapping message ∧
        result.lines =
          if loaded.threshold = .debug then [Line.of "keywords" .debug message] else []) ∧
    (checksBuffers loaded = true → ¬ fits →
      (∃ fault, result.outcome = .error (.schema fault)) ∧ result.lines = []) := by
  intro modes fits result
  have ready : Settings.ensure around (.loaded loaded) = .ok (loaded, []) := rfl
  have ran : result = _ := underSettings_loaded ready m required optional others buffer request
    state
  rw [ran]
  refine ⟨fun orderly => ?_, fun checks unfit => ?_⟩
  · have distinct := (Schema.validate_ofLists_iff required optional others).mp valid
    obtain ⟨message, report, reported⟩ := run_reported (m := m) others state distinct orderly
    refine ⟨message, reported, ?_⟩
    rw [report, reportLines_some, List.nil_append]
  · obtain ⟨fault, faulty⟩ :=
      Option.ne_none_iff_exists'.mp (mt (bufferFault_eq_none_iff _ _ _).mp unfit)
    rw [checks, run_of_fault faulty]
    exact ⟨⟨fault, rfl⟩, rfl⟩

/-- A name and a number are handed over where only a name is declared, and settings
switch debugging on. That number cannot be printed as a key, but it is counted; and
a buffer with no slot for the name is refused in silence. -/
theorem one_line_exact_nameless :
    let loud : Loaded :=
      { untouched with effective := Value.plain .merged [("debug", .bool true)] }
    let args := ArgumentMap.ofList [(.text "name", .null), (.number .nan, .null)]
    let result (buffer : Option Buffer) := underSettings ⟨[], .empty⟩ (.loaded loud)
      (some ArgumentMap.mapping) (.ofLists [.text "name"] [] (.bool false)) buffer .silent args
    (Schema.ofLists [.text "name"] [] (.bool false)).validate = .ok () ∧
      (result none).outcome = .error (.wrongType (.number .nan) "number") ∧
      (∃ message, Reported (some ArgumentMap.mapping) { write := false, consume := false }
        [.text "name"] [] (result none).outcome (result none).mapping message ∧
        (result none).lines = [Line.of "keywords" .debug message] ∧
        message = "1 unknown keyword(s) left after extraction") ∧
      (result (some (.unassigned 0))).lines = [] := by
  intro loud args result
  have valid : (Schema.ofLists [.text "name"] [] (.bool false)).validate = .ok () := rfl
  have exact := fun buffer => one_line_exact ⟨[], .empty⟩ loud (some ArgumentMap.mapping) [.text "name"]
    [] (.bool false) buffer .silent args valid
  have low : loud.threshold = .debug := rfl
  have shown : (result none).lines =
      [Line.of "keywords" .debug "1 unknown keyword(s) left after extraction"] := by
    decide +kernel
  refine ⟨valid, rfl, ?_, ((exact (some (.unassigned 0))).2 rfl ?_).2⟩
  · obtain ⟨message, reported, written⟩ := (exact none).1 fun _ => ⟨by decide, by simp⟩
    rw [if_pos low] at written
    have same := congrArg (List.map Line.text) (written.symm.trans shown)
    exact ⟨message, reported, written, by simpa [Line.of] using same⟩
  · rintro ⟨-, slots⟩
    exact absurd (slots _ rfl) (by decide)

end NamedArguments.Extraction
