import NamedArguments.Session

/-! What single operations do to a session. An operation that uses the settings
loads them first and then goes on as if they had been loaded; if they cannot be
loaded it does nothing. On loaded settings only setting and resetting change
them, and no operation looks at its surroundings except for a set, which reads
the environment. -/
namespace NamedArguments

open Settings (Surroundings Finder Store Loaded Access)

namespace Operation

/-- Whether an operation uses the settings. A logger with a threshold of its own
does not, and neither does an extraction whose schema has no length. -/
def accesses : Operation → Bool
  | .get _ | .has _ | .all | .origin | .set _ => true
  | .log logger _ _ => !logger.level.isGiven
  | .extract _ schema _ _ _ => schema.total.toBool
  | .reset | .environment _ | .files _ => false

/-- Whether an operation is one of those that only read settings. -/
def reads : Operation → Bool
  | .get _ | .has _ | .all | .origin => true
  | _ => false

def isSet : Operation → Bool
  | .set _ => true
  | _ => false

def isReset : Operation → Bool
  | .reset => true
  | _ => false

section

variable {logger : Logger} {severity : Level} {message : String} {σ : Type}
  {m : Option (Mapping σ)} {schema : Schema} {buffer : Option Buffer}
  {request : Extraction.Request} {state : σ}

theorem inherits_of_accesses (uses : (log logger severity message).accesses = true) :
    logger.level.isGiven = false := by
  simpa [accesses] using uses

theorem fixed_of_idle (idle : (log logger severity message).accesses = false) :
    logger.level.isGiven = true := by
  simpa [accesses] using idle

theorem total_of_accesses (uses : (extract m schema buffer request state).accesses = true) :
    ∃ total, schema.total = .ok total := by
  cases counted : schema.total with
  | ok total => exact ⟨total, rfl⟩
  | error fault => simp [accesses, counted, Except.toBool] at uses

theorem fault_of_idle (idle : (extract m schema buffer request state).accesses = false) :
    ∃ fault, schema.total = .error fault := by
  cases counted : schema.total with
  | ok total => simp [accesses, counted, Except.toBool] at idle
  | error fault => exact ⟨fault, rfl⟩

end

end Operation

/-- What a loading that goes through comes to. -/
theorem Settings.load_ok {around : Surroundings} {before : Remains} {loaded : Loaded}
    {lines : List Line} :
    load around before = .ok (loaded, lines) ↔
      ∃ found, around.finder.layer = .ok found ∧
        combineRefused found.settings empty around.environment = false ∧
        loaded =
          { file := found.settings, programmatic := empty
            effective := combine found.settings empty around.environment
            origin := found.origin.or before.origin } ∧
        lines = found.warning := by
  unfold load
  cases around.finder.layer with
  | error fault => simp
  | ok found =>
    cases refused : combineRefused found.settings empty around.environment with
    | true => simp [refused]
    | false =>
      simp only [refused, Bool.false_eq_true, if_false, Except.ok.injEq, Prod.mk.injEq,
        exists_eq_left', true_and]
      exact and_congr eq_comm eq_comm

/-- What a loading that stops comes to: it gets no layer of the files, or one that
cannot be laid over the defaults. -/
theorem Settings.load_error {around : Surroundings} {before : Remains} {stop : Stop} :
    load around before = .error stop ↔
      (∃ fault, around.finder.layer = .error fault ∧
        stop = { fault, remains := before, lines := [] }) ∨
      ∃ found, around.finder.layer = .ok found ∧
        combineRefused found.settings empty around.environment = true ∧
        stop =
          { fault := .unsupported
            remains := { file := found.settings, origin := found.origin.or before.origin }
            lines := found.warning } := by
  unfold load
  cases around.finder.layer with
  | error fault =>
    simp only [Except.error.injEq, exists_eq_left', reduceCtorEq, false_and, exists_false, or_false]
    exact eq_comm
  | ok found =>
    cases refused : combineRefused found.settings empty around.environment with
    | true =>
      simp only [refused, if_true, Except.error.injEq, Except.ok.injEq, exists_eq_left',
        reduceCtorEq, false_and, exists_false, false_or, true_and]
      exact eq_comm
    | false => simp [refused]

/-- Another loading from what a stopped one leaves stops in the same way. -/
theorem Settings.load_remains {around : Surroundings} {before : Remains} {stop : Stop}
    (stopped : load around before = .error stop) : load around stop.remains = .error stop := by
  refine load_error.mpr ((load_error.mp stopped).imp ?_ ?_)
  · rintro ⟨fault, missing, rfl⟩
    exact ⟨fault, missing, rfl⟩
  · rintro ⟨found, given, refused, rfl⟩
    refine ⟨found, given, refused, ?_⟩
    rw [Option.or_assoc.symm, Option.or_self]

/-- Settings that cannot be loaded cannot be loaded again. -/
theorem Settings.ensure_remains {around : Surroundings} {store : Store} {stop : Stop}
    (stuck : ensure around store = .error stop) :
    ensure around (.unloaded stop.remains) = .error stop := by
  cases store with
  | unloaded before => exact load_remains stuck
  | loaded => cases stuck

/-- What earlier loadings have left does not decide whether one goes through. -/
theorem Settings.toBool_load (around : Surroundings) (before other : Remains) :
    (load around before).toBool = (load around other).toBool := by
  unfold load
  cases around.finder.layer with
  | error fault => rfl
  | ok found =>
    dsimp only
    split <;> rfl

/-- Whether an answer is that something went wrong. -/
def Answer.isFault : Answer → Bool
  | .fault _ | .extracted (.error _) _ _ => true
  | _ => false

/-- What an operation answers that uses the settings and cannot load them. -/
def Operation.answerUnloaded (fault : Fault) : Operation → Answer
  | .extract _ _ buffer _ state => .extracted (.error fault) state buffer
  | _ => .fault fault

theorem Operation.isFault_answerUnloaded (operation : Operation) (fault : Fault) :
    (operation.answerUnloaded fault).isFault = true := by
  cases operation <;> rfl

/-- An effect behind lines that were written before. -/
def Effect.behind (effect : Effect) (lines : List Line) : Effect :=
  { effect with lines := lines ++ effect.lines }

/-- Writing a message does to the settings what asking for the threshold does. -/
theorem Logger.write_store (logger : Logger) (around : Surroundings) (store : Store)
    (severity : Level) (message : String) :
    (logger.write around store severity message).store =
      (logger.enabled around store severity.name).store := by
  unfold Logger.write
  dsimp only
  split
  · rfl
  · rfl
  · split <;> rfl

/-- Whether a message reaches a logger's own writer is all that asking for the
threshold decides. -/
theorem Logger.write_outcome (logger : Logger) (around : Surroundings) (store : Store)
    (severity : Level) (message : String) :
    (logger.write around store severity message).outcome =
      (logger.enabled around store severity.name).outcome.map fun shown =>
        if shown && logger.ownWriter then [Line.of logger.scope severity message] else [] := by
  unfold Logger.write
  dsimp only
  split
  next asked => simp [asked, Except.map]
  next asked => simp [asked, Except.map]
  next asked => cases own : logger.ownWriter <;> simp [asked, Except.map]

/-- A logger with a threshold of its own leaves the settings alone. -/
theorem Logger.enabled_store_of_level {logger : Logger} (fixed : logger.level.isGiven = true)
    (around : Surroundings) (store : Store) (severity : String) :
    (logger.enabled around store severity).store = store := by
  simp only [Logger.enabled, fixed, if_true]
  split <;> rfl

namespace Session

/-- The session with its settings loaded. -/
def opened (session : Session) (loaded : Loaded) : Session :=
  { session with store := .loaded loaded }

/-- Loaded settings are at hand. -/
@[simp]
theorem ensure_opened (session : Session) (loaded : Loaded) :
    Settings.ensure (session.opened loaded).around (session.opened loaded).store =
      .ok (loaded, []) := rfl

/-- Settings that are not at hand are loaded. -/
theorem ensure_of_unloaded {session : Session} {remains : Settings.Remains}
    (store : session.store = .unloaded remains) :
    Settings.ensure session.around session.store = Settings.load session.around remains := by
  rw [store, Settings.ensure]

theorem opened_of_loaded {session : Session} {loaded : Loaded}
    (store : session.store = .loaded loaded) : session.opened loaded = session := by
  rw [opened, ← store]

/-- Whether an operation has to load the settings first. -/
def opens (session : Session) (operation : Operation) : Bool :=
  operation.accesses && session.store.settings?.isNone

/-- The settings after an attempt to load them. -/
def loading (session : Session) : Store :=
  match Settings.ensure session.around session.store with
  | .error stop => .unloaded stop.remains
  | .ok (loaded, _) => .loaded loaded

variable {session : Session} {operation : Operation} {loaded : Loaded}

theorem operation_mem_of_event {operations : List Operation} {event : Event}
    (happens : event ∈ session.events operations) : event.operation ∈ operations := by
  induction operations generalizing session with
  | nil => cases happens
  | cons operation rest ih =>
    rcases List.mem_cons.mp happens with rfl | inside
    · exact List.mem_cons_self
    · exact List.mem_cons_of_mem _ (ih inside)

/-- An operation that cannot load the settings does no more than to try. -/
theorem perform_of_unloaded {stop : Settings.Stop} (uses : operation.accesses = true)
    (stuck : Settings.ensure session.around session.store = .error stop) :
    (session.perform operation).session = { session with store := .unloaded stop.remains } ∧
      (session.perform operation).lines = stop.lines ∧
      (session.perform operation).answer = operation.answerUnloaded stop.fault := by
  cases operation with
  | log logger severity message =>
    have inherited := Operation.inherits_of_accesses uses
    simp [perform, accessed, Logger.write, Logger.enabled, inherited, Settings.read, stuck,
      Settings.Stop.access, Operation.answerUnloaded]
  | extract m schema buffer request state =>
    obtain ⟨total, counted⟩ := Operation.total_of_accesses uses
    simp [perform, Extraction.underSettings, counted, stuck, Operation.answerUnloaded]
  | _ =>
    simp_all [Operation.accesses, perform, accessed, Settings.get, Settings.has, Settings.all,
      Settings.origin, Settings.set, Settings.read, Settings.readAt, Settings.Stop.access,
      Operation.answerUnloaded]

/-- An operation that uses the settings does what it does on loaded ones, behind
the lines of the loading. -/
theorem perform_of_loading {lines : List Line} (uses : operation.accesses = true)
    (ready : Settings.ensure session.around session.store = .ok (loaded, lines)) :
    session.perform operation = ((session.opened loaded).perform operation).behind lines := by
  cases operation with
  | log logger severity message =>
    have inherited := Operation.inherits_of_accesses uses
    simp only [perform, accessed, Logger.write, Logger.enabled, inherited, Settings.read, ready,
      ensure_opened, Effect.behind]
    cases (Standing.ofName severity.name).reaches (.ofLevel loaded.threshold) <;>
      cases logger.ownWriter <;> simp [opened]
  | extract m schema buffer request state =>
    obtain ⟨total, counted⟩ := Operation.total_of_accesses uses
    simp only [perform, Extraction.underSettings, counted, ready, ensure_opened, Effect.behind]
    simp [opened]
  | reset | environment | files => simp [Operation.accesses] at uses
  | _ =>
    simp only [perform, accessed, Settings.get, Settings.has, Settings.all,
      Settings.origin, Settings.set, Settings.read, Settings.readAt, ready, ensure_opened,
      Effect.behind]
    simp [opened]

/-- An operation that does not use the settings leaves them as they are, unless
it is a reset. -/
theorem perform_of_idle (session : Session) (idle : operation.accesses = false)
    (kept : operation.isReset = false) :
    (session.perform operation).session.store = session.store := by
  cases operation with
  | log logger severity message =>
    have fixed := Operation.fixed_of_idle idle
    simp only [perform, accessed, Logger.write_store, Logger.enabled_store_of_level fixed]
  | extract m schema buffer request state =>
    obtain ⟨fault, uncounted⟩ := Operation.fault_of_idle idle
    simp [perform, Extraction.underSettings, uncounted]
  | environment | files => rfl
  | _ => simp_all [Operation.accesses, Operation.isReset]

/-- Where the program runs does not matter to an operation that does not use the
settings. -/
theorem perform_of_idle_around (session : Session) (idle : operation.accesses = false)
    (around : Surroundings) :
    ({ session with around }.perform operation).answer = (session.perform operation).answer ∧
      ({ session with around }.perform operation).lines = (session.perform operation).lines := by
  cases operation with
  | log logger severity message =>
    have fixed := Operation.fixed_of_idle idle
    have asked : logger.enabled around session.store severity.name =
        logger.enabled session.around session.store severity.name := by
      simp only [Logger.enabled, fixed, if_true]
    simp only [perform, accessed, Logger.write, asked, and_self]
  | extract m schema buffer request state =>
    obtain ⟨fault, uncounted⟩ := Operation.fault_of_idle idle
    simp [perform, Extraction.underSettings, uncounted]
  | reset | environment | files => exact ⟨rfl, rfl⟩
  | _ => simp [Operation.accesses] at idle

/-- Reading does nothing but load the settings. -/
theorem perform_of_reads (reads : operation.reads = true) :
    (session.perform operation).session = { session with store := session.loading } := by
  unfold loading
  cases operation with
  | get | has | all | origin =>
    simp only [perform, accessed, Settings.get, Settings.has, Settings.all, Settings.origin,
      Settings.read, Settings.readAt]
    cases Settings.ensure session.around session.store <;> rfl
  | _ => cases reads

/-! ## On loaded settings -/

section Opened

variable (session : Session) (loaded : Loaded)

/-- Only a set or a reset changes loaded settings. -/
theorem opened_perform_store (notSet : operation.isSet = false)
    (notReset : operation.isReset = false) :
    ((session.opened loaded).perform operation).session.store = .loaded loaded := by
  cases uses : operation.accesses with
  | false => exact perform_of_idle _ uses notReset
  | true =>
    cases operation with
    | log logger severity message =>
      have inherited := Operation.inherits_of_accesses uses
      simp [perform, accessed, Logger.write_store, Logger.enabled, inherited, Settings.read]
    | extract m schema buffer request state =>
      obtain ⟨total, counted⟩ := Operation.total_of_accesses uses
      simp [perform, Extraction.underSettings, counted]
    | get | has | all | origin => rfl
    | _ => simp_all [Operation.accesses, Operation.isSet, Operation.isReset]

theorem opened_perform_set (values : Value) :
    ((session.opened loaded).perform (.set values)).session.store =
      .loaded (loaded.extend values session.around.environment).2 := rfl

/-- What can be wrong with a set on loaded settings is that they cannot be extended. -/
theorem opened_perform_set_answer (values : Value) :
    ((session.opened loaded).perform (.set values)).answer.isFault =
      !(loaded.extend values session.around.environment).1.toBool := by
  simp only [perform, accessed, Settings.set, ensure_opened]
  simp only [opened]
  cases (loaded.extend values session.around.environment).1 <;> rfl

/-- On loaded settings it does not matter what files there are. -/
theorem opened_perform_finder (operation : Operation) (finder : Finder) :
    let here := (session.opened loaded).perform operation
    let there := ({ session with around := { session.around with finder } }.opened loaded).perform
      operation
    there.answer = here.answer ∧ there.session.store = here.session.store ∧
      there.lines = here.lines := by
  cases operation <;> exact ⟨rfl, rfl, rfl⟩

/-- On loaded settings only a set looks at the surroundings. -/
theorem opened_perform_around (operation : Operation) (around : Surroundings)
    (notSet : operation.isSet = false) :
    (({ session with around }.opened loaded).perform operation).answer =
      ((session.opened loaded).perform operation).answer := by
  cases operation with
  | set => cases notSet
  | _ => rfl

/-- Nothing but a set looks at the program's layer; all else looks at what is in
effect. -/
theorem opened_perform_program (program : Value) (unset : operation.isSet = false) :
    ((session.opened { loaded with programmatic := program }).perform operation).answer =
      ((session.opened loaded).perform operation).answer := by
  cases operation with
  | set => cases unset
  | log logger severity message =>
    have asked : (logger.enabled session.around
          (.loaded { loaded with programmatic := program }) severity.name).outcome =
        (logger.enabled session.around (.loaded loaded) severity.name).outcome := by
      unfold Logger.enabled
      split
      · split <;> rfl
      · rfl
    simp only [perform, accessed, Logger.write_outcome, opened, asked]
  | extract m schema buffer request state =>
    simp only [perform, Extraction.underSettings]
    cases schema.total <;> rfl
  | _ => rfl

/-- Where an operation leaves a session does not depend on the settings. -/
theorem opened_perform_place (other : Loaded) :
    ((session.opened other).perform operation).session.around =
      ((session.opened loaded).perform operation).session.around := by
  cases operation <;> rfl

end Opened

/-! ## Runs -/

/-- Operations that neither set nor reset leave loaded settings as they are, and
each answers as it would have at once. -/
theorem events_of_loaded {operations : List Operation} {event : Event}
    (store : session.store = .loaded loaded)
    (quiet : ∀ operation ∈ operations, operation.isSet = false ∧ operation.isReset = false)
    (happens : event ∈ session.events operations) :
    event.before.store = .loaded loaded ∧
      event.effect.answer = (session.perform event.operation).answer := by
  induction operations generalizing session with
  | nil => cases happens
  | cons operation rest ih =>
    have later : ∀ operation ∈ rest, operation.isSet = false ∧ operation.isReset = false :=
      fun other member => quiet other (List.mem_cons_of_mem _ member)
    obtain ⟨unset, kept⟩ := quiet operation (by simp)
    rcases List.mem_cons.mp happens with rfl | inside
    · exact ⟨store, rfl⟩
    · have after : (session.perform operation).session.store = .loaded loaded := by
        rw [← opened_of_loaded store]
        exact opened_perform_store session loaded unset kept
      obtain ⟨found, answer⟩ := ih after later inside
      have isQuiet := later event.operation (operation_mem_of_event inside)
      refine ⟨found, answer.trans ?_⟩
      have here := opened_perform_around session loaded event.operation
        (session.perform operation).session.around isQuiet.1
      rw [opened_of_loaded store] at here
      rw [← here, ← opened_of_loaded after]
      rfl

/-- Files of a sort are around, and settings that are loaded are of a sort. -/
structure Holds (files : Finder → Prop) (settings : Loaded → Prop) (session : Session) :
    Prop where
  finder : files session.around.finder
  store : ∀ loaded, session.store = .loaded loaded → settings loaded

/-- Files of a sort give settings of a sort, which stay so when values of a sort
are set. -/
structure Upheld (files : Finder → Prop) (values : Value → Prop)
    (settings : Loaded → Prop) : Prop where
  load : ∀ {around before loaded lines}, files around.finder →
    Settings.load around before = .ok (loaded, lines) → settings loaded
  extend : ∀ {loaded : Loaded} {new environment}, settings loaded → values new →
    settings (loaded.extend new environment).2

section

variable {files : Finder → Prop} {values : Value → Prop} {settings : Loaded → Prop}

theorem Holds.ensure {lines : List Line} (upheld : Upheld files values settings)
    (holds : session.Holds files settings)
    (ready : Settings.ensure session.around session.store = .ok (loaded, lines)) :
    settings loaded := by
  cases found : session.store with
  | unloaded remains =>
    rw [found] at ready
    exact upheld.load holds.finder ready
  | loaded known =>
    rw [found] at ready
    cases ready
    exact holds.store loaded found

theorem perform_finder (session : Session) (operation : Operation) :
    (session.perform operation).session.around.finder =
      match operation with
      | .files finder => finder
      | _ => session.around.finder := by
  cases operation <;> rfl

/-- Loaded settings stay of their sort whatever is done, unless it drops them. -/
theorem Upheld.opened (upheld : Upheld files values settings)
    (before : settings loaded) (kept : operation.isReset = false)
    (sets : ∀ new, operation = .set new → values new) {next : Loaded}
    (store : ((session.opened loaded).perform operation).session.store = .loaded next) :
    settings next := by
  cases set : operation.isSet with
  | false =>
    have same := (opened_perform_store session loaded set kept).symm.trans store
    cases same
    exact before
  | true =>
    cases operation with
    | set new =>
      have same := (opened_perform_set session loaded new).symm.trans store
      cases same
      exact upheld.extend before (sets new rfl)
    | _ => cases set

/-- One more operation upholds what files and sets uphold. -/
theorem Holds.perform (upheld : Upheld files values settings) (holds : session.Holds files settings)
    (sets : ∀ new, operation = .set new → values new)
    (brings : ∀ finder, operation = .files finder → files finder) :
    (session.perform operation).session.Holds files settings := by
  refine ⟨?_, fun next store => ?_⟩
  · rw [perform_finder]
    split
    next finder => exact brings finder rfl
    next => exact holds.finder
  · cases kept : operation.isReset with
    | true =>
      cases operation with
      | reset => cases store
      | _ => cases kept
    | false =>
      cases uses : operation.accesses with
      | false =>
        rw [perform_of_idle session uses kept] at store
        exact holds.store next store
      | true =>
        cases ready : Settings.ensure session.around session.store with
        | error stop =>
          rw [(perform_of_unloaded uses ready).1] at store
          cases store
        | ok result =>
          rw [perform_of_loading uses ready] at store
          exact upheld.opened (holds.ensure upheld ready) kept sets store

/-- What files and sets uphold holds after any run. -/
theorem Holds.after (upheld : Upheld files values settings) {operations : List Operation}
    (holds : session.Holds files settings) (sets : ∀ new, .set new ∈ operations → values new)
    (brings : ∀ finder, .files finder ∈ operations → files finder) :
    (session.after operations).Holds files settings := by
  induction operations generalizing session with
  | nil => exact holds
  | cons operation rest ih =>
    refine ih (holds.perform upheld (fun new same => sets new ?_) fun finder same =>
      brings finder ?_) (fun new member => sets new (List.mem_cons_of_mem _ member))
      fun finder member => brings finder (List.mem_cons_of_mem _ member)
    · exact same ▸ List.mem_cons_self
    · exact same ▸ List.mem_cons_self

end

/-- The answers that operations get. -/
def answers (session : Session) (operations : List Operation) : List Answer :=
  (session.events operations).map (·.effect.answer)

/-- The first operation that uses the settings loads them for those that follow. -/
theorem answers_of_loading {lines : List Line}
    (uses : operation.accesses = true)
    (ready : Settings.ensure session.around session.store = .ok (loaded, lines))
    (more : List Operation) :
    session.answers (operation :: more) = (session.opened loaded).answers (operation :: more) := by
  simp only [answers, events, List.map_cons, Event.effect, perform_of_loading uses ready,
    Effect.behind]

/-- A set that goes through is done, and the next operation finds the settings extended. -/
theorem answers_opened_done {values : Value} {next : Loaded}
    (extended : loaded.extend values session.around.environment = (.ok (), next))
    (more : List Operation) :
    (session.opened loaded).answers (.set values :: more) =
      .done :: (session.opened next).answers more := by
  have performed : (session.opened loaded).perform (.set values) =
      { answer := .done, session := session.opened next, lines := [] } := by
    simp only [perform, accessed, Settings.set, ensure_opened]
    simp only [opened, extended]
  simp only [answers, events, List.map_cons, Event.effect, performed]

/-- Sessions that differ at most in the program's layer, which need not be in
effect. -/
def Alike (one other : Session) : Prop :=
  one = other ∨
    ∃ loaded program, other.store = .loaded loaded ∧
      one = other.opened { loaded with programmatic := program }

theorem Alike.perform {one other : Session} (alike : one.Alike other)
    (unset : operation.isSet = false) :
    (one.perform operation).answer = (other.perform operation).answer ∧
      (one.perform operation).session.Alike (other.perform operation).session := by
  rcases alike with rfl | ⟨loaded, program, store, rfl⟩
  · exact ⟨rfl, Or.inl rfl⟩
  · rw [← opened_of_loaded store]
    refine ⟨opened_perform_program other loaded program unset, ?_⟩
    cases kept : operation.isReset with
    | true =>
      cases operation with
      | reset => exact Or.inl rfl
      | _ => cases kept
    | false =>
      refine Or.inr ⟨loaded, program, opened_perform_store other loaded unset kept, ?_⟩
      exact Session.ext (opened_perform_place _ _ _) (opened_perform_store _ _ unset kept)

/-- Sessions alike give the same answers until a set. -/
theorem Alike.answers {one other : Session} {operations : List Operation}
    (alike : one.Alike other) (unset : ∀ operation ∈ operations, operation.isSet = false) :
    one.answers operations = other.answers operations := by
  induction operations generalizing one other with
  | nil => rfl
  | cons operation rest ih =>
    obtain ⟨answer, still⟩ := alike.perform (unset operation (by simp))
    have later := ih still fun other member => unset other (List.mem_cons_of_mem _ member)
    exact List.cons_eq_cons.mpr ⟨answer, later⟩

end Session
end NamedArguments
