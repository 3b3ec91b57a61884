import NamedArguments.Proofs.ExtractionExits
import NamedArguments.Proofs.MappingMirrors

/-! What an extraction asks of a mapping that may answer anything. Declared keys
are looked up in schema order, and where keys are consumed a found key is
removed before the next one is looked up. Behind them come at most one question
for the size and one for the remaining keys. Which of these questions are put
follows from the answers, so questions and answers are described together. -/
namespace NamedArguments

variable {σ : Type}

/-- A question with the answer that a mapping gave. -/
inductive Exchange where
  | lookup (key answer : Value)
  | erase (key : Value) (answer : Bool)
  | size (answer : MappingSize)
  | keys (answer : List Value)

namespace Mapping

/-- Puts a question to a mapping. -/
def ask (m : Mapping σ) (state : σ) : Call → Exchange × σ
  | .lookup key => (m.lookup key state).map (.lookup key) id
  | .erase key => (m.erase key state).map (.erase key) id
  | .size => (m.size state).map .size id
  | .keys => (m.keys state).map .keys id

/-- Puts questions to a mapping, one after the other. -/
def interview (m : Mapping σ) (state : σ) : List Call → List Exchange × σ
  | [] => ([], state)
  | call :: rest =>
    let (exchange, after) := m.ask state call
    (m.interview after rest).map (exchange :: ·) id

theorem interview_append (m : Mapping σ) (state : σ) (first second : List Call) :
    m.interview state (first ++ second) =
      (m.interview (m.interview state first).2 second).map ((m.interview state first).1 ++ ·) id := by
  induction first generalizing state with
  | nil => rfl
  | cons call rest ih =>
    simp only [List.cons_append, interview, ih]
    rfl

end Mapping

namespace Extraction
open Settings (Surroundings Store Loaded)

/-- What is exchanged over keys in their order, and the answers to the look-ups:
a key that is found is removed at once if keys are consumed. -/
inductive Inquiry (consume : Bool) : List Value → List Value → List Exchange → Prop where
  | nothing : Inquiry consume [] [] []
  | left {key answer : Value} {keys answers : List Value} {exchanges : List Exchange}
      (kept : consume = false ∨ answer = .absent) (rest : Inquiry consume keys answers exchanges) :
      Inquiry consume (key :: keys) (answer :: answers) (.lookup key answer :: exchanges)
  | removed {key answer : Value} {keys answers : List Value} {exchanges : List Exchange}
      (reply : Bool) (consuming : consume = true) (found : answer ≠ .absent)
      (rest : Inquiry consume keys answers exchanges) :
      Inquiry consume (key :: keys) (answer :: answers)
        (.lookup key answer :: .erase key reply :: exchanges)

/-- How many of the answers to look-ups are values. -/
def given (answers : List Value) : Nat := answers.countP fun answer => !answer.isAbsent

/-- All that is exchanged in an extraction, with its outcome. -/
inductive Proceeding (consume : Bool) (required optional : List Value) (others : Value) :
    List Exchange → Except Fault Nat → Prop where
  /-- Nothing is asked behind the first required key that is not found. -/
  | missing {before after answers : List Value} {keyword : Keyword} {exchanges : List Exchange}
      (declared : required = before ++ keyword.value :: after) (found : .absent ∉ answers)
      (asked : Inquiry consume (before ++ [keyword.value]) (answers ++ [.absent]) exchanges) :
      Proceeding consume required optional others exchanges (.error (.missing keyword))
  /-- A schema that takes other keys does not ask for the size. -/
  | unlimited {answers more : List Value} {exchanges further : List Exchange}
      (found : .absent ∉ answers) (asked : Inquiry consume required answers exchanges)
      (sought : Inquiry consume optional more further) (takesOthers : others.isTruthy = true) :
      Proceeding consume required optional others (exchanges ++ further)
        (.ok (given (answers ++ more)))
  /-- A size within the permitted number ends the questions. -/
  | complete {answers more : List Value} {exchanges further : List Exchange} {size : MappingSize}
      (found : .absent ∉ answers) (asked : Inquiry consume required answers exchanges)
      (sought : Inquiry consume optional more further) (closed : others.isTruthy = false)
      (within : size.exceeds (if consume then 0 else given (answers ++ more)) = false) :
      Proceeding consume required optional others (exchanges ++ further ++ [.size size])
        (.ok (given (answers ++ more)))
  /-- After a size beyond that number the keys are asked for, and there is a fault. -/
  | overfull {answers more keys : List Value} {exchanges further : List Exchange}
      {size : MappingSize} {fault : Fault}
      (found : .absent ∉ answers) (asked : Inquiry consume required answers exchanges)
      (sought : Inquiry consume optional more further) (closed : others.isTruthy = false)
      (beyond : size.exceeds (if consume then 0 else given (answers ++ more)) = true) :
      Proceeding consume required optional others
        (exchanges ++ further ++ [.size size, .keys keys]) (.error fault)

private theorem isAbsent_eq_false_iff {v : Value} : v.isAbsent = false ↔ v ≠ .absent := by
  rw [← Bool.not_eq_true, isAbsent_iff]

theorem Inquiry.append {consume : Bool} {keys others answers more : List Value}
    {exchanges further : List Exchange} (first : Inquiry consume keys answers exchanges)
    (second : Inquiry consume others more further) :
    Inquiry consume (keys ++ others) (answers ++ more) (exchanges ++ further) := by
  induction first with
  | nothing => exact second
  | left kept _ ih => exact .left kept ih
  | removed reply consuming found _ ih => exact .removed reply consuming found ih

/-- Progress that was made by asking for keys, with the calls noted on the way. -/
structure Asked (m : Mapping σ) (consume : Bool) (now after : Progress (σ × List Call))
    (keys answers : List Value) (calls : List Call) : Prop where
  mapping : after.mapping = ((m.interview now.mapping.1 calls).2, now.mapping.2 ++ calls)
  inquiry : Inquiry consume keys answers (m.interview now.mapping.1 calls).1
  found : after.found = now.found + given answers

theorem Asked.nothing (m : Mapping σ) (consume : Bool) (now : Progress (σ × List Call)) :
    Asked m consume now now [] [] [] :=
  ⟨by simp [Mapping.interview], .nothing, rfl⟩

theorem Asked.append {m : Mapping σ} {consume : Bool} {now middle after : Progress (σ × List Call)}
    {keys others answers more : List Value} {calls further : List Call}
    (first : Asked m consume now middle keys answers calls)
    (second : Asked m consume middle after others more further) :
    Asked m consume now after (keys ++ others) (answers ++ more) (calls ++ further) := by
  obtain ⟨mapping, inquiry, found⟩ := second
  rw [first.mapping] at mapping inquiry
  refine ⟨?_, ?_, ?_⟩
  · rw [mapping, Mapping.interview_append, List.append_assoc]
    rfl
  · rw [Mapping.interview_append]
    exact first.inquiry.append inquiry
  · simp only [found, first.found, given, List.countP_append]
    omega

/-- A visit looks its key up, and removes it if it is found and keys are consumed. -/
theorem visit_asked (m : Mapping σ) (modes : Modes) (slot : Option Nat) (key : Value)
    (now : Progress (σ × List Call)) :
    ∃ calls, Asked m modes.consume now (visit (some m.recorded) modes slot key now).2 [key]
      [(visit (some m.recorded) modes slot key now).1] calls := by
  by_cases removing : modes.consume = true ∧ (m.lookup key now.mapping.1).1 ≠ .absent
  · obtain ⟨consuming, found⟩ := removing
    have present := isAbsent_eq_false_iff.mpr found
    have visited : visit (some m.recorded) modes slot key now =
        ((m.lookup key now.mapping.1).1,
          { mapping := ((m.erase key (m.lookup key now.mapping.1).2).2,
              now.mapping.2 ++ [.lookup key] ++ [.erase key])
            buffer := record modes now.buffer slot (m.lookup key now.mapping.1).1
            found := now.found + 1 }) := by
      simp [visit, lookUp, Mapping.recorded, consuming, present]
    rw [visited]
    exact ⟨[.lookup key, .erase key], by simp [Mapping.interview, Mapping.ask],
      .removed _ consuming found .nothing, by simp [given, present]⟩
  · have kept : modes.consume = false ∨ (m.lookup key now.mapping.1).1 = .absent := by
      rcases not_and_or.mp removing with probing | absent
      · exact Or.inl (by simpa using probing)
      · exact Or.inr (not_not.mp absent)
    have still : (modes.consume && !(m.lookup key now.mapping.1).1.isAbsent) = false := by
      rcases kept with probing | absent
      · simp [probing]
      · simp [absent, Value.isAbsent]
    have visited : visit (some m.recorded) modes slot key now =
        ((m.lookup key now.mapping.1).1,
          { mapping := ((m.lookup key now.mapping.1).2, now.mapping.2 ++ [.lookup key])
            buffer := record modes now.buffer slot (m.lookup key now.mapping.1).1
            found := if (m.lookup key now.mapping.1).1.isAbsent then now.found
              else now.found + 1 }) := by
      simp [visit, lookUp, Mapping.recorded, still]
    rw [visited]
    refine ⟨[.lookup key], by simp [Mapping.interview, Mapping.ask], .left kept .nothing, ?_⟩
    cases absent : (m.lookup key now.mapping.1).1.isAbsent <;> simp [given, absent]

theorem visitAll_asked (m : Mapping σ) (modes : Modes) (index : Nat) (keys : List Value)
    (now : Progress (σ × List Call)) :
    ∃ answers calls, Asked m modes.consume now
      (visitAll (some m.recorded) modes index keys now) keys answers calls := by
  induction keys generalizing index now with
  | nil => exact ⟨[], [], Asked.nothing m modes.consume now⟩
  | cons key rest ih =>
    obtain ⟨calls, first⟩ := visit_asked m modes (some index) key now
    obtain ⟨answers, further, second⟩ :=
      ih (index + 1) (visit (some m.recorded) modes (some index) key now).2
    exact ⟨_, _, first.append second⟩

/-- The required pass asks for keys until one is not found. -/
theorem requiredPass_asked (m : Mapping σ) (modes : Modes) (index : Nat) (keys : List Value)
    (now : Progress (σ × List Call)) :
    (∃ after answers calls,
      requiredPass (some m.recorded) modes index keys now = (after, none) ∧
        .absent ∉ answers ∧ Asked m modes.consume now after keys answers calls) ∨
    (∃ before key rest after answers calls, keys = before ++ key :: rest ∧
      requiredPass (some m.recorded) modes index keys now = (after, some key) ∧
        .absent ∉ answers ∧
        Asked m modes.consume now after (before ++ [key]) (answers ++ [.absent]) calls) := by
  induction keys generalizing index now with
  | nil => exact Or.inl ⟨now, [], [], rfl, by simp, Asked.nothing m modes.consume now⟩
  | cons key rest ih =>
    obtain ⟨calls, first⟩ := visit_asked m modes (some index) key now
    rcases visited : visit (some m.recorded) modes (some index) key now with ⟨answer, middle⟩
    rw [visited] at first
    simp only [requiredPass, visited]
    cases absent : answer.isAbsent with
    | true =>
      obtain rfl := isAbsent_iff.mp absent
      exact Or.inr ⟨[], key, rest, middle, [], calls, rfl, by simp, by simp, first⟩
    | false =>
      have value := isAbsent_eq_false_iff.mp absent
      simp only [Bool.false_eq_true, ↓reduceIte]
      rcases ih (index + 1) middle with
        ⟨after, answers, further, passed, found, second⟩ |
        ⟨before, missing, behind, after, answers, further, split, passed, found, second⟩
      · exact Or.inl ⟨after, answer :: answers, calls ++ further, passed,
          by simp [found, value.symm], first.append second⟩
      · exact Or.inr ⟨key :: before, missing, behind, after, answer :: answers, calls ++ further,
          by rw [split, List.cons_append], passed, by simp [found, value.symm],
          first.append second⟩

/-- What is asked once all declared keys are looked up. -/
theorem checkRest_proceeds (m : Mapping σ) (modes : Modes) (required optional : List Value)
    (others : Value) (total : Extent) {start middle after : Progress (σ × List Call)}
    {answers more : List Value} {calls further : List Call} (fresh : start.found = 0)
    (found : .absent ∉ answers) (asked : Asked m modes.consume start middle required answers calls)
    (sought : Asked m modes.consume middle after optional more further) :
    let ending := checkRest m.recorded modes (.ofLists required optional others) total after
    ∃ put, ending.mapping = ((m.interview start.mapping.1 put).2, start.mapping.2 ++ put) ∧
      Proceeding modes.consume required optional others (m.interview start.mapping.1 put).1
        ending.outcome := by
  have inquiry := sought.inquiry
  rw [asked.mapping] at inquiry
  obtain ⟨mapping, -, counted⟩ := asked.append sought
  rw [fresh, Nat.zero_add] at counted
  have permitted : allowance modes after.found =
      if modes.consume then 0 else given (answers ++ more) := by
    rw [allowance, counted]
  obtain ⟨now, reached⟩ : ∃ now, (m.interview start.mapping.1 (calls ++ further)).2 = now := ⟨_, rfl⟩
  rw [reached] at mapping
  -- Whatever is asked last, the exchanges over the declared keys stand in front of it.
  have asking : ∀ last, m.interview start.mapping.1 (calls ++ further ++ last) =
      (m.interview now last).map (((m.interview start.mapping.1 calls).1 ++
        (m.interview (m.interview start.mapping.1 calls).2 further).1) ++ ·) id := by
    intro last
    rw [Mapping.interview_append, reached, Mapping.interview_append]
    rfl
  cases taking : others.isTruthy with
  | true =>
    have ended : checkRest m.recorded modes (.ofLists required optional others) total after =
        succeed modes total after := if_pos taking
    have talked := asking []
    rw [List.append_nil] at talked
    refine ⟨calls ++ further, ?_, ?_⟩
    · rw [ended, reached]
      exact mapping
    · rw [ended, talked]
      simp only [succeed, counted, Mapping.interview, Prod.map_apply, List.append_nil]
      exact .unlimited found asked.inquiry inquiry taking
  | false =>
    have refused : ¬ (Schema.ofLists required optional others).others.isTruthy = true := by
      simp [Schema.ofLists, taking]
    have sized : askSize m.recorded modes after =
        ((m.size now).1.exceeds (allowance modes after.found),
          { after with
            mapping := ((m.size now).2, start.mapping.2 ++ (calls ++ further) ++ [.size]) }) := by
      simp only [askSize, mapping, Mapping.recorded]
    cases beyond : (m.size now).1.exceeds (allowance modes after.found) with
    | false =>
      rw [beyond] at sized
      rw [permitted] at beyond
      have ended : checkRest m.recorded modes (.ofLists required optional others) total after =
          succeed modes total { after with
            mapping := ((m.size now).2, start.mapping.2 ++ (calls ++ further) ++ [.size]) } := by
        simp only [checkRest, if_neg refused, sized]
      refine ⟨calls ++ further ++ [.size], ?_, ?_⟩
      · rw [ended, asking, List.append_assoc start.mapping.2]
        rfl
      · rw [ended, asking]
        simp only [succeed, counted]
        exact .complete found asked.inquiry inquiry taking beyond
    | true =>
      rw [beyond] at sized
      rw [permitted] at beyond
      have declared : (Schema.ofLists required optional others).keywords =
        .ok (required ++ optional) := rfl
      obtain ⟨fault, ended⟩ : ∃ fault,
          checkRest m.recorded modes (.ofLists required optional others) total after =
            failWith { after with
                mapping := ((m.keys (m.size now).2).2,
                  start.mapping.2 ++ (calls ++ further) ++ [.size] ++ [.keys]) }
              fault (checkRest m.recorded modes (.ofLists required optional others) total
                after).report := by
        simp only [checkRest, if_neg refused, sized, declared]
        exact ⟨_, rfl⟩
      refine ⟨calls ++ further ++ [.size, .keys], ?_, ?_⟩
      · rw [ended, asking, List.append_assoc, List.append_assoc start.mapping.2]
        rfl
      · rw [ended, asking]
        exact .overfull found asked.inquiry inquiry taking beyond

/-- All that an extraction asks once the buffer is found in order. -/
theorem run_proceeds (checked : Bool) (m : Mapping σ) (modes : Modes)
    (required optional : List Value) (others : Value) (buffer : Option Buffer) (state : σ)
    (earlier : List Call) (valid : DistinctKeywords (required ++ optional))
    (fits : checked = true → Fits modes buffer (required.length + optional.length)) :
    let ending := run checked (some m.recorded) modes (.ofLists required optional others)
      (.count (required.length + optional.length)) buffer (state, earlier)
    ∃ calls, ending.mapping = ((m.interview state calls).2, earlier ++ calls) ∧
      Proceeding modes.consume required optional others (m.interview state calls).1
        ending.outcome := by
  have orderly : (if checked then
      bufferFault modes buffer (.count (required.length + optional.length)) else none) = none := by
    split
    next checks => exact (bufferFault_eq_none_iff _ _ _).mpr (fits checks)
    next => rfl
  have requiredKeys : (Schema.ofLists required optional others).required.visited? = some required :=
    rfl
  simp only [run, orderly, requiredKeys]
  rcases requiredPass_asked m modes 0 required
      { mapping := (state, earlier), buffer, found := 0 } with
    ⟨after, answers, calls, passed, found, asked⟩ |
    ⟨before, key, rest, after, answers, calls, split, passed, found, asked⟩
  · obtain ⟨more, further, sought⟩ := visitAll_asked m modes required.length optional after
    have optionalKeys : (Schema.ofLists required optional others).optional.visited? =
      some optional := rfl
    have base : (Schema.ofLists required optional others).required.base = .count required.length :=
      rfl
    simp only [passed, afterRequired, optionalKeys, base, optionalPass_eq_visitAll, Nat.add_zero]
    exact checkRest_proceeds m modes required optional others _ rfl found asked sought
  · subst split
    obtain ⟨keyword, rfl⟩ := namesArgument_iff.mp (valid.named key (by simp))
    simp only [passed, missingKey, printedName_value, Fault.ofMissing_value, Fault.raised,
      failWith]
    exact ⟨calls, asked.mapping, .missing rfl found asked.inquiry⟩

/-- The questions of an extraction that finds the settings and the buffer in
order. Together with the answers that the mapping gives to just these questions
they are one of the proceedings; what is answered to a removal has no effect on
anything, and neither has noting the questions. -/
theorem questions_exact (around : Surroundings) (store : Store) (loaded : Loaded)
    (lines : List Line) (m : Mapping σ) (state : σ) (earlier : List Call)
    (required optional : List Value) (others : Value) (buffer : Option Buffer) (request : Request)
    (valid : (Schema.ofLists required optional others).validate = .ok ())
    (loads : Settings.ensure around store = .ok (loaded, lines))
    (fits : checksBuffers loaded = true →
      Fits (request.modes buffer) buffer (required.length + optional.length)) :
    let schema := Schema.ofLists required optional others
    let result := underSettings around store (some m.recorded) schema buffer request (state, earlier)
    (∃ calls, result.mapping = ((m.interview state calls).2, earlier ++ calls) ∧
      Proceeding (request.modes buffer).consume required optional others (m.interview state calls).1
        result.outcome) ∧
    result.map Prod.fst = underSettings around store (some m) schema buffer request state ∧
    ∀ answer : Value → σ → Bool,
      underSettings around store (some (m.answeringRemovals answer)) schema buffer request state =
        underSettings around store (some m) schema buffer request state := by
  refine ⟨?_, ?_, fun answer => ?_⟩
  · have distinct := (Schema.validate_ofLists_iff required optional others).mp valid
    simp only [underSettings, Schema.total_ofLists, loads]
    exact run_proceeds (checksBuffers loaded) m (request.modes buffer) required optional others
      buffer state earlier distinct fits
  · exact (underSettings_mirrored m.mirrors_recorded around store _ buffer request
      (state, earlier)).symm
  · exact (underSettings_mirrored (m.mirrors_answeringRemovals answer) around store
      (.ofLists required optional others) buffer request state).symm

/-- A host's mapping that removes nothing and always claims infinitely many
entries: the name is found and removed, the age is not found, and then both the
size and the keys are asked for. -/
theorem questions_exact_stubborn :
    let host := hostMapping { sticky := true, size := some (.infinite false) }
    let args := ArgumentMap.ofList [(.text "name", .null)]
    let schema := Schema.ofLists [.text "name"] [.text "age"] (.bool false)
    let result := underSettings ⟨[], .empty⟩ (.loaded untouched) (some host.recorded) schema
      (some (.unassigned 2)) .silent (args, [])
    schema.validate = .ok () ∧
      result.mapping.2 = [.lookup (.text "name"), .erase (.text "name"), .lookup (.text "age"),
        .size, .keys] ∧
      Proceeding true [.text "name"] [.text "age"] (.bool false)
        (host.interview args result.mapping.2).1 result.outcome := by
  intro host args schema result
  have valid : schema.validate = .ok () := rfl
  have fits : checksBuffers untouched = true → Fits (Request.silent.modes (some (.unassigned 2)))
      (some (.unassigned 2)) ([Value.text "name"].length + [Value.text "age"].length) :=
    fun _ => ⟨fun _ => rfl, fun slots same => by cases same; rfl⟩
  obtain ⟨⟨calls, noted, proceeding⟩, -⟩ := questions_exact ⟨[], .empty⟩ (.loaded untouched) untouched []
    host args [] [.text "name"] [.text "age"] (.bool false) (some (.unassigned 2)) .silent valid rfl
    fits
  have same : result.mapping.2 = calls := congrArg Prod.snd noted
  refine ⟨valid, rfl, ?_⟩
  rw [same]
  exact proceeding

end Extraction
end NamedArguments
