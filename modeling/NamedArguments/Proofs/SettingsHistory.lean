import NamedArguments.Proofs.SessionSteps
import Mathlib.Data.List.DropRight

/-! What settings come to, told from what has happened. Of the past only what
follows the last reset matters, from the first access on whose loading went
through: that access says what the file gave, every set since adds to the
program's layer, and the last set that went through, or else the loading, says
what the environment was and how much of the program's layer is in effect. -/
namespace NamedArguments

open Settings (Surroundings Store Remains Loaded Finder layer layerRefused combine empty)

/-- The settings that the files give, none where they give no layer. -/
def Settings.Finder.settings (finder : Finder) : Value :=
  match finder.layer with
  | .ok found => found.settings
  | .error _ => Settings.empty

theorem Settings.Finder.settings_of_layer {finder : Finder} {found : FileLayer}
    (given : finder.layer = .ok found) : finder.settings = found.settings := by
  rw [settings, given]

/-- The program's layer after a set. Values that cannot be laid over it are
dropped. -/
def Settings.lay (program values : Value) : Value :=
  if !values.isGiven || layerRefused program values then program else layer program values

namespace Event

/-- The values that a set is given. -/
def values? (event : Event) : Option Value :=
  match event.operation with
  | .set values => some values
  | _ => none

/-- A set that goes through. -/
def sets (event : Event) : Bool := event.operation.isSet && !event.effect.answer.isFault

/-- A set that goes wrong although it is given values. -/
def isFutile (event : Event) : Bool :=
  event.values?.any Value.isGiven && event.effect.answer.isFault

/-- An access to settings that can be loaded, whatever earlier loadings have left. -/
def loads (event : Event) : Bool :=
  event.operation.accesses &&
    (Settings.load event.before.around { file := empty, origin := none }).toBool

end Event

/-- What has happened since the last reset. -/
def sinceReset (events : List Event) : List Event :=
  events.rtakeWhile fun event => !event.operation.isReset

/-- What has happened since the settings were loaded, beginning with the access
that loaded them; nothing if they are not. -/
def sinceLoaded (events : List Event) : List Event :=
  (sinceReset events).dropWhile fun event => !event.loads

/-- What has happened up to the last set that went through. -/
def untilLastSet (events : List Event) : List Event :=
  events.rdropWhile fun event => !event.sets

/-- What sets make of the program's layer, one after the other. -/
def laid (events : List Event) : Value :=
  (events.filterMap Event.values?).foldl Settings.lay empty

/-- The event at which the environment was last read: the last set that went
through, or else the loading. -/
def lastReading (loading : Event) (events : List Event) : Event :=
  (events.filter Event.sets).getLast?.getD loading

/-- What the sets that went through alone would make of the program's layer. -/
def laidBySets (events : List Event) : Value :=
  ((events.filter Event.sets).filterMap Event.values?).foldl layer empty

/-- The four layers after the events since the settings were loaded: the defaults,
the file at the loading, the program's, and the environment when it was last read. -/
def mergedOf (program : List Event → Value) : List Event → Option Value
  | [] => none
  | loading :: rest =>
    some (layer (layer (layer Settings.defaults loading.before.around.finder.settings)
        (program (loading :: rest)))
      (Settings.environmentLayer
        (lastReading loading (loading :: rest)).before.around.environment))

section Lists

variable {events : List Event} {event : Event}

theorem sinceLoaded_concat_reset (forgets : event.operation.isReset = true) :
    sinceLoaded (events ++ [event]) = [] := by
  unfold sinceLoaded sinceReset
  rw [List.rtakeWhile_concat_neg _ _ _ (by simp [forgets])]
  rfl

theorem sinceLoaded_concat_of_loaded (kept : event.operation.isReset = false)
    (loaded : sinceLoaded events ≠ []) :
    sinceLoaded (events ++ [event]) = sinceLoaded events ++ [event] := by
  unfold sinceLoaded sinceReset at *
  rw [List.rtakeWhile_concat_pos _ _ _ (by simp [kept]), List.dropWhile_append]
  simp [loaded]

theorem sinceLoaded_concat_of_unloaded (kept : event.operation.isReset = false)
    (unloaded : sinceLoaded events = []) :
    sinceLoaded (events ++ [event]) = if event.loads then [event] else [] := by
  unfold sinceLoaded sinceReset at *
  rw [List.rtakeWhile_concat_pos _ _ _ (by simp [kept]), List.dropWhile_append]
  cases loads : event.loads <;> simp [unloaded, loads]

theorem untilLastSet_concat (events : List Event) (event : Event) :
    untilLastSet (events ++ [event]) =
      if event.sets then events ++ [event] else untilLastSet events := by
  unfold untilLastSet
  cases sets : event.sets with
  | true => exact List.rdropWhile_concat_neg _ _ _ (by simp [sets])
  | false => exact List.rdropWhile_concat_pos _ _ _ (by simp [sets])

theorem laid_concat (events : List Event) (event : Event) :
    laid (events ++ [event]) =
      match event.values? with
      | some values => Settings.lay (laid events) values
      | none => laid events := by
  unfold laid
  cases given : event.values? <;> simp [given]

theorem laidBySets_concat (events : List Event) (event : Event) :
    laidBySets (events ++ [event]) =
      match if event.sets then event.values? else none with
      | some values => layer (laidBySets events) values
      | none => laidBySets events := by
  unfold laidBySets
  cases sets : event.sets <;> cases given : event.values? <;> simp [sets, given]

theorem lastReading_concat (loading : Event) (events : List Event) (event : Event) :
    lastReading loading (events ++ [event]) =
      if event.sets then event else lastReading loading events := by
  unfold lastReading
  cases sets : event.sets <;> simp [sets]

end Lists

/-- Loaded settings are what the access that loaded them and the events from
there on make of them. -/
structure Told (loading : Event) (events : List Event) (loaded : Loaded) : Prop where
  file : loaded.file = loading.before.around.finder.settings
  program : loaded.programmatic = laid events
  effect : loaded.effective =
    combine loaded.file (laid (untilLastSet events))
      (lastReading loading events).before.around.environment
  /-- Unless a set has gone wrong that was given values, the sets that went
  through have made the program's layer, and all of it is in effect. -/
  clean : (∀ event ∈ events, event.isFutile = false) →
    laid (untilLastSet events) = laid events ∧ laid events = laidBySets events
  /-- And it can be laid over the file's. -/
  fits : (∀ event ∈ events, event.isFutile = false) →
    layerRefused (layer Settings.defaults loaded.file) loaded.programmatic = false

/-- Layers that can be laid over one another. -/
theorem Settings.combineRefused_eq_false_iff {file program : Value}
    {environment : Settings.Environment} :
    Settings.combineRefused file program environment = false ↔
      layerRefused Settings.defaults file = false ∧
        layerRefused (layer Settings.defaults file) program = false ∧
        layerRefused (layer (layer Settings.defaults file) program)
          (Settings.environmentLayer environment) = false := by
  simp [Settings.combineRefused, and_assoc]

/-- What a set comes to on loaded settings. -/
theorem Settings.Loaded.extend_cases (loaded : Loaded) (values : Value)
    (environment : Settings.Environment) :
    ((∃ fault, (loaded.extend values environment).1 = .error fault) ∧
      (loaded.extend values environment).2 =
        { loaded with programmatic := lay loaded.programmatic values }) ∨
    ((loaded.extend values environment).1 = .ok () ∧
      lay loaded.programmatic values = layer loaded.programmatic values ∧
      combineRefused loaded.file (lay loaded.programmatic values) environment = false ∧
      (loaded.extend values environment).2 =
        { loaded with
          programmatic := lay loaded.programmatic values
          effective :=
            combine loaded.file (lay loaded.programmatic values) environment }) := by
  unfold extend lay
  split
  · exact Or.inl ⟨⟨_, rfl⟩, rfl⟩
  · dsimp only
    split
    · exact Or.inl ⟨⟨_, rfl⟩, rfl⟩
    next fits => exact Or.inr ⟨rfl, rfl, by simpa using fits, rfl⟩

/-- A set adds to the program's layer and touches neither what the file gave nor its
name. -/
theorem Settings.Loaded.extend_layers (loaded : Loaded) (values : Value)
    (environment : Settings.Environment) :
    (loaded.extend values environment).2.file = loaded.file ∧
      (loaded.extend values environment).2.programmatic = lay loaded.programmatic values ∧
      (loaded.extend values environment).2.origin = loaded.origin := by
  rcases loaded.extend_cases values environment with ⟨_, next⟩ | ⟨_, _, _, next⟩ <;>
    rw [next] <;> exact ⟨rfl, rfl, rfl⟩

namespace Told

variable {loading event : Event} {events : List Event} {loaded : Loaded}

/-- Right after the settings are loaded. -/
theorem initial {before : Remains} {lines : List Line}
    (load : Settings.load loading.before.around before = .ok (loaded, lines)) :
    Told loading [] loaded := by
  obtain ⟨found, given, fits, rfl, _⟩ := Settings.load_ok.mp load
  exact { file := (Settings.Finder.settings_of_layer given).symm, program := rfl, effect := rfl
          clean := fun _ => ⟨rfl, rfl⟩
          fits := fun _ => (Settings.combineRefused_eq_false_iff.mp fits).2.1 }

/-- What is no set changes nothing. -/
theorem other (told : Told loading events loaded) (none : event.values? = none)
    (unset : event.sets = false) : Told loading (events ++ [event]) loaded where
  file := told.file
  program := by
    rw [laid_concat, none]
    exact told.program
  effect := by
    rw [untilLastSet_concat, lastReading_concat, unset]
    exact told.effect
  clean harmless := by
    rw [untilLastSet_concat, laid_concat, laidBySets_concat, none, unset]
    exact told.clean fun e member => harmless e (List.mem_append_left _ member)
  fits harmless := told.fits fun e member => harmless e (List.mem_append_left _ member)

/-- A set that goes wrong may change the program's layer, but not what is in
effect. -/
theorem failed (told : Told loading events loaded) {values : Value}
    (given : event.values? = some values) (fault : event.effect.answer.isFault = true) :
    Told loading (events ++ [event])
      { loaded with programmatic := Settings.lay loaded.programmatic values } := by
  have unset : event.sets = false := by simp [Event.sets, fault]
  -- Where no set is futile, this one was given nothing.
  have same : (∀ e ∈ events ++ [event], e.isFutile = false) → ∀ program,
      Settings.lay program values = program := by
    intro harmless program
    have nothing : values.isGiven = false := by
      simpa [Event.isFutile, given, fault] using harmless event (by simp)
    simp [Settings.lay, nothing]
  refine { file := told.file, program := ?_, effect := ?_, clean := ?_, fits := ?_ }
  · rw [laid_concat, given, ← told.program]
  · rw [untilLastSet_concat, lastReading_concat, unset]
    exact told.effect
  · intro harmless
    have before := told.clean fun e member => harmless e (List.mem_append_left _ member)
    rw [untilLastSet_concat, laid_concat, laidBySets_concat, given, unset]
    exact ⟨before.1.trans (same harmless _).symm, (same harmless _).trans before.2⟩
  · intro harmless
    rw [same harmless]
    exact told.fits fun e member => harmless e (List.mem_append_left _ member)

/-- A set that goes through brings all of the program's layer into effect. -/
theorem done (told : Told loading events loaded) {values : Value}
    (given : event.values? = some values) (sets : event.sets = true)
    (fits : Settings.lay loaded.programmatic values = layer loaded.programmatic values)
    (whole : Settings.combineRefused loaded.file (Settings.lay loaded.programmatic values)
      event.before.around.environment = false) :
    Told loading (events ++ [event])
      { loaded with
        programmatic := Settings.lay loaded.programmatic values
        effective := combine loaded.file (Settings.lay loaded.programmatic values)
          event.before.around.environment } := by
  have all : untilLastSet (events ++ [event]) = events ++ [event] := by
    rw [untilLastSet_concat, sets, if_pos rfl]
  have now : laid (events ++ [event]) = Settings.lay loaded.programmatic values := by
    rw [laid_concat, given, ← told.program]
  refine { file := told.file, program := now.symm, effect := ?_, clean := ?_,
           fits := fun _ => (Settings.combineRefused_eq_false_iff.mp whole).2.1 }
  · rw [all, now, lastReading_concat, sets, if_pos rfl]
  · intro harmless
    have before := told.clean fun e member => harmless e (List.mem_append_left _ member)
    refine ⟨by rw [all], ?_⟩
    rw [now, fits, told.program, before.2, laidBySets_concat, sets, if_pos rfl, given]

/-- One more event that finds the settings loaded, or loads them, and is no
reset. -/
theorem step (told : Told loading events loaded) {lines : List Line}
    (acts : event.effect = ((event.before.opened loaded).perform event.operation).behind lines)
    (kept : event.operation.isReset = false) :
    ∃ next, event.effect.session.store = .loaded next ∧ Told loading (events ++ [event]) next := by
  cases set : event.operation.isSet with
  | false =>
    have none : event.values? = none := by
      unfold Event.values?
      split
      next values action => simp [action, Operation.isSet] at set
      next => rfl
    refine ⟨loaded, ?_, told.other none (by simp [Event.sets, set])⟩
    rw [acts]
    exact Session.opened_perform_store _ _ set kept
  | true =>
    obtain ⟨values, action⟩ : ∃ values, event.operation = .set values := by
      cases action : event.operation with
      | set values => exact ⟨values, rfl⟩
      | _ => simp [action, Operation.isSet] at set
    have given : event.values? = some values := by simp [Event.values?, action]
    have store : event.effect.session.store =
        .loaded (loaded.extend values event.before.around.environment).2 := by
      rw [acts, action]
      exact Session.opened_perform_set _ _ values
    have answer : event.effect.answer.isFault =
        !(loaded.extend values event.before.around.environment).1.toBool := by
      rw [acts, action]
      exact Session.opened_perform_set_answer _ _ values
    rcases loaded.extend_cases values event.before.around.environment with
      ⟨⟨fault, wrong⟩, next⟩ | ⟨right, fits, whole, next⟩
    · refine ⟨_, store, ?_⟩
      rw [next]
      exact told.failed given (by rw [answer, wrong]; rfl)
    · refine ⟨_, store, ?_⟩
      rw [next]
      exact told.done given (by rw [Event.sets, answer, right, set]; rfl) fits whole

/-- One more event that finds no settings loaded and is no reset. -/
theorem first {remains : Remains} (unloaded : event.before.store = .unloaded remains)
    (kept : event.operation.isReset = false) :
    (event.loads = false ∧ ∃ left, event.effect.session.store = .unloaded left) ∨
      (event.loads = true ∧
        ∃ loaded, event.effect.session.store = .loaded loaded ∧ Told event [event] loaded) := by
  have ensured := Session.ensure_of_unloaded unloaded
  have loads : event.loads =
      (event.operation.accesses && (Settings.load event.before.around remains).toBool) :=
    congrArg (event.operation.accesses && ·) (Settings.toBool_load _ _ _)
  cases uses : event.operation.accesses with
  | false =>
    refine Or.inl ⟨by simp [Event.loads, uses], remains, ?_⟩
    rw [← unloaded]
    exact Session.perform_of_idle _ uses kept
  | true =>
    cases load : Settings.load event.before.around remains with
    | error stop =>
      refine Or.inl ⟨by simp [loads, load, Except.toBool], stop.remains, ?_⟩
      exact congrArg Session.store (Session.perform_of_unloaded uses (ensured.trans load)).1
    | ok result =>
      obtain ⟨loaded, lines⟩ := result
      refine Or.inr ⟨by simp [loads, uses, load, Except.toBool], ?_⟩
      exact (initial load).step (Session.perform_of_loading uses (ensured.trans load)) kept

end Told

/-- Settings are loaded just when some access since the last reset could load
them, and then they are what has happened since makes of them. -/
theorem told_of_run (around : Surroundings) (operations : List Operation) :
    let events := (Session.fresh around).events operations
    let now := (Session.fresh around).after operations
    (sinceLoaded events = [] ∧ ∃ remains, now.store = .unloaded remains) ∨
      ∃ loading rest loaded, sinceLoaded events = loading :: rest ∧ now.store = .loaded loaded ∧
        Told loading (loading :: rest) loaded := by
  induction operations using List.reverseRecOn with
  | nil => exact Or.inl ⟨rfl, _, rfl⟩
  | append_singleton operations operation ih =>
    intro events now
    let event : Event := ⟨(Session.fresh around).after operations, operation⟩
    have grown : events = (Session.fresh around).events operations ++ [event] :=
      Session.events_append _ _ _
    have reached : now = event.effect.session := Session.after_append _ _ _
    rw [grown, reached]
    cases forgets : event.operation.isReset with
    | true =>
      refine Or.inl ⟨sinceLoaded_concat_reset forgets, ?_⟩
      cases operation with
      | reset => exact ⟨_, rfl⟩
      | _ => cases forgets
    | false =>
      rcases ih with ⟨nothing, remains, unloaded⟩ | ⟨loading, rest, loaded, since, store, told⟩
      · rw [sinceLoaded_concat_of_unloaded forgets nothing]
        rcases Told.first (show event.before.store = .unloaded remains from unloaded) forgets with
          ⟨no, empty⟩ | ⟨yes, loaded⟩
        · exact Or.inl ⟨by simp [no], empty⟩
        · obtain ⟨loaded, store, told⟩ := loaded
          exact Or.inr ⟨event, [], loaded, by simp [yes], store, told⟩
      · have acts : event.effect =
            ((event.before.opened loaded).perform event.operation).behind [] := by
          rw [Session.opened_of_loaded store]
          rfl
        obtain ⟨next, after, more⟩ := told.step acts forgets
        have longer := sinceLoaded_concat_of_loaded forgets (since.trans_ne (List.cons_ne_nil _ _))
        exact Or.inr ⟨loading, rest ++ [event], next, by rw [longer, since]; rfl, after, more⟩

/-- A set of nothing goes wrong, and leaves the settings as reading them does. -/
theorem Session.perform_set_of_missing {session : Session} {values : Value}
    (missing : values.isGiven = false) :
    (session.perform (.set values)).answer.isFault = true ∧
      (session.perform (.set values)).session = { session with store := session.loading } := by
  have refused : ∀ loaded environment,
      Settings.Loaded.extend loaded values environment = (.error .unsupported, loaded) := by
    intro loaded environment
    simp [Settings.Loaded.extend, missing]
  unfold Session.loading
  simp only [Session.perform, Session.accessed, Settings.set]
  cases Settings.ensure session.around session.store with
  | error stop => exact ⟨rfl, rfl⟩
  | ok result => simp [refused, Answer.isFault]

/-- A set that goes wrong leaves a session that nothing but a set can tell from one
in which the settings were read. -/
theorem Session.perform_set_of_fault {session : Session} {values : Value}
    (wrong : (session.perform (.set values)).answer.isFault = true) :
    (session.perform (.set values)).session.Alike { session with store := session.loading } := by
  cases ready : Settings.ensure session.around session.store with
  | error stop =>
    left
    rw [(Session.perform_of_unloaded rfl ready).1, Session.loading, ready]
  | ok result =>
    obtain ⟨loaded, lines⟩ := result
    rw [Session.perform_of_loading rfl ready] at wrong ⊢
    have answer := Session.opened_perform_set_answer session loaded values
    rcases loaded.extend_cases values session.around.environment with
      ⟨_, next⟩ | ⟨right, _, _, _⟩
    · refine Or.inr ⟨loaded, Settings.lay loaded.programmatic values, ?_, ?_⟩
      · rw [Session.loading, ready]
      · exact Session.ext rfl
          ((Session.opened_perform_set _ _ values).trans (congrArg Store.loaded next))
    · have fine : ((session.opened loaded).perform (.set values)).answer.isFault = false := by
        rw [answer, right]
        rfl
      exact absurd (fine.symm.trans wrong) Bool.false_ne_true

/-! ## The file's name -/

/-- The name of the file that a search gives settings from. -/
def Settings.Finder.origin? (finder : Finder) : Option String :=
  match finder.layer with
  | .ok found => found.origin
  | .error _ => none

/-- The name of the file, whether or not the settings are loaded. -/
def Settings.Store.origin : Store → Option String
  | .unloaded remains => remains.origin
  | .loaded settings => settings.origin

/-- The names that searches have given when settings were to be loaded. -/
def originsMet (events : List Event) : List String :=
  (events.filter fun event => event.before.opens event.operation).filterMap
    (·.before.around.finder.origin?)

theorem originsMet_concat (events : List Event) (event : Event) :
    originsMet (events ++ [event]) =
      originsMet events ++
        (if event.before.opens event.operation then event.before.around.finder.origin?
          else none).toList := by
  unfold originsMet
  cases opens : event.before.opens event.operation <;>
    cases named : event.before.around.finder.origin? <;> simp [opens, named]

namespace Session

variable {session : Session} {operation : Operation}

/-- What is done to loaded settings does not change the file's name, unless it drops
them. -/
theorem opened_perform_origin (session : Session) (loaded : Loaded)
    (kept : operation.isReset = false) :
    ((session.opened loaded).perform operation).session.store.origin = loaded.origin := by
  cases set : operation.isSet with
  | false => rw [opened_perform_store session loaded set kept, Store.origin]
  | true =>
    cases operation with
    | set values =>
      rw [opened_perform_set, Store.origin]
      exact (loaded.extend_layers values _).2.2
    | _ => cases set

/-- The file's name changes where settings are to be loaded and a search gives another
one, even if the loading goes wrong. -/
theorem perform_origin (kept : operation.isReset = false) :
    (session.perform operation).session.store.origin =
      if session.opens operation then
        session.around.finder.origin?.or session.store.origin
      else session.store.origin := by
  cases uses : operation.accesses with
  | false => simp [opens, uses, perform_of_idle session uses kept]
  | true =>
    cases store : session.store with
    | loaded loaded =>
      have same := opened_perform_origin session loaded kept
      have waits : session.opens operation = false := by simp [opens, store]
      rw [opened_of_loaded store] at same
      rw [waits, if_neg Bool.false_ne_true]
      exact same
    | unloaded before =>
      have tries : session.opens operation = true := by simp [opens, uses, store]
      have ensured := ensure_of_unloaded store
      rw [if_pos tries]
      cases load : Settings.load session.around before with
      | error stop =>
        rw [(perform_of_unloaded uses (ensured.trans load)).1]
        rcases Settings.load_error.mp load with ⟨fault, missing, rfl⟩ | ⟨found, given, _, rfl⟩
        · simp [Store.origin, Finder.origin?, missing]
        · simp [Store.origin, Finder.origin?, given]
      | ok result =>
        obtain ⟨loaded, lines⟩ := result
        rw [perform_of_loading uses (ensured.trans load)]
        obtain ⟨found, given, _, rfl, _⟩ := Settings.load_ok.mp load
        refine (opened_perform_origin session _ kept).trans ?_
        simp [Finder.origin?, given, Store.origin]

end Session

/-- The name that is reported for the configuration file, after any run, is the last
that a search has given since the last reset when settings were to be loaded. A loading
that goes wrong behind the search leaves it. -/
theorem origin_of_run (around : Surroundings) (operations : List Operation) :
    ((Session.fresh around).after operations).store.origin =
      (originsMet (sinceReset ((Session.fresh around).events operations))).getLast? := by
  induction operations using List.reverseRecOn with
  | nil => rfl
  | append_singleton operations operation ih =>
    let event : Event := ⟨(Session.fresh around).after operations, operation⟩
    have grown : (Session.fresh around).events (operations ++ [operation]) =
        (Session.fresh around).events operations ++ [event] := Session.events_append _ _ _
    have reached : (Session.fresh around).after (operations ++ [operation]) =
        event.effect.session := Session.after_append _ _ _
    rw [grown, reached, sinceReset]
    cases forgets : event.operation.isReset with
    | true =>
      rw [List.rtakeWhile_concat_neg _ _ _ (by simp [forgets])]
      cases operation with
      | reset => rfl
      | _ => cases forgets
    | false =>
      rw [List.rtakeWhile_concat_pos _ _ _ (by simp [forgets]), originsMet_concat,
        Event.effect, Session.perform_origin forgets]
      change ((Session.fresh around).after operations).store.origin =
        (originsMet (List.rtakeWhile _ _)).getLast? at ih
      cases opens : event.before.opens event.operation <;>
        cases named : event.before.around.finder.origin? <;> simp [event, ih]

-- A file that is gone keeps its name where its settings could not be laid over the defaults.
example :
    let log := Value.plain (.written 1) [("__proto__", .function "f"), ("name", .text "x")]
    let file : Settings.Found :=
      { path := ".kwargsrc.cjs", config := .plain (.written 0) [("log", log)], isEmpty := false }
    let around : Surroundings := ⟨[], { start := .ok (), find := .ok (some file) }⟩
    let gone := (Session.fresh around).after [.all, .files .empty]
    (gone.perform .origin).answer = .name (some ".kwargsrc.cjs") := by rfl

/-- What settings come to after any run that starts from a reset. They are the
four layers laid over one another, where the program's is what sets have made up to
the last that went through; those that went through make it alone unless one has
gone wrong that was given values. The file's name is the last that a search has given
when settings were to be loaded. Loaded settings stay as they are and answer alike
until a set or a reset. A set of nothing, and an access whose loading goes wrong,
leave the session that reading leaves; any other set that goes wrong leaves one
that answers alike until the next set. -/
theorem settings_from_history (around : Surroundings) (operations : List Operation) :
    let events := (Session.fresh around).events operations
    let now := (Session.fresh around).after operations
    now.store.settings?.map (·.effective) = mergedOf (laid ∘ untilLastSet) (sinceLoaded events) ∧
    ((∀ event ∈ sinceLoaded events, event.isFutile = false) →
      now.store.settings?.map (·.effective) = mergedOf laidBySets (sinceLoaded events)) ∧
    now.store.origin = (originsMet (sinceReset events)).getLast? ∧
    (∀ loaded later, now.store = .loaded loaded →
      (∀ operation ∈ later, operation.isSet = false ∧ operation.isReset = false) →
      ∀ event ∈ now.events later, event.before.store = .loaded loaded ∧
        event.effect.answer = (now.perform event.operation).answer) ∧
    (∀ read : Operation, read.reads = true →
      (∀ values : Value, values.isGiven = false →
        (now.perform (.set values)).answer.isFault = true ∧
          (now.perform (.set values)).session = (now.perform read).session) ∧
      (∀ (access : Operation) (stop : Settings.Stop), access.accesses = true →
        Settings.ensure now.around now.store = .error stop →
        (now.perform access).answer.isFault = true ∧
          (now.perform access).session = (now.perform read).session) ∧
      (∀ (values : Value) (later : List Operation),
        (now.perform (.set values)).answer.isFault = true →
        (∀ operation ∈ later, operation.isSet = false) →
        (now.perform (.set values)).session.answers later =
          (now.perform read).session.answers later)) := by
  intro events now
  have run := told_of_run around operations
  refine ⟨?_, ?_, origin_of_run around operations, ?_, ?_⟩
  · rcases run with ⟨nothing, remains, store⟩ | ⟨loading, rest, loaded, since, store, told⟩
    · simp only [now, events, nothing, store]
      rfl
    · simp only [now, events, since, store, Store.settings?_loaded, Option.map_some, told.effect, told.file]
      rfl
  · intro clean
    rcases run with ⟨nothing, remains, store⟩ | ⟨loading, rest, loaded, since, store, told⟩
    · simp only [now, events, nothing, store]
      rfl
    · rw [since] at clean
      obtain ⟨all, made⟩ := told.clean clean
      simp only [now, events, since, store, Store.settings?_loaded, Option.map_some, told.effect, told.file, all, made]
      rfl
  · intro loaded later store quiet event happens
    exact Session.events_of_loaded store quiet happens
  · intro read reads
    rw [Session.perform_of_reads reads]
    refine ⟨fun values missing => Session.perform_set_of_missing missing, ?_, ?_⟩
    · intro access stop uses stuck
      obtain ⟨same, _, wrong⟩ := Session.perform_of_unloaded uses stuck
      refine ⟨?_, ?_⟩
      · rw [wrong]
        exact access.isFault_answerUnloaded stop.fault
      · rw [same, Session.loading, stuck]
    · intro values later wrong unset
      exact (Session.perform_set_of_fault wrong).answers unset

/-- After a set of null the sets that went through still tell what is in effect, and
another one is no more than a reading. Nor is an access that a search stops. -/
theorem settings_from_history_null :
    let operations : List Operation :=
      [.set (.plain (.written 0) [("debug", .bool true)]), .set .null, .files .empty]
    let events := (Session.fresh ⟨[], .empty⟩).events operations
    let now := (Session.fresh ⟨[], .empty⟩).after operations
    let stuck := Session.fresh ⟨[], { start := .error .null, find := .ok none }⟩
    ((∀ event ∈ sinceLoaded events, event.isFutile = false) ∧
        now.store.settings?.map (·.effective) = mergedOf laidBySets (sinceLoaded events)) ∧
      (Value.null.isGiven = false ∧
        (now.perform (.set .null)).session = (now.perform .all).session) ∧
      (∃ stop, Settings.ensure stuck.around stuck.store = .error stop) ∧
        (stuck.perform (.has "debug")).session = (stuck.perform .all).session := by
  intro operations events now stuck
  have clean : ∀ event ∈ sinceLoaded events, event.isFutile = false := by
    have none : (sinceLoaded events).all (fun event => !event.isFutile) = true := by rfl
    simpa using none
  obtain ⟨_, told, _, _, instead⟩ := settings_from_history ⟨[], .empty⟩ operations
  obtain ⟨_, _, _, _, stopped⟩ := settings_from_history stuck.around []
  exact ⟨⟨clean, told clean⟩, ⟨rfl, ((instead .all rfl).1 .null rfl).2⟩, ⟨_, rfl⟩,
    ((stopped .all rfl).2.1 (.has "debug") _ rfl rfl).2⟩

/-- A set whose values cannot be laid over the defaults, since an object with a
function for its parent may not be given a name, and one that would follow it
without fault. -/
def unfittingSets : List Operation :=
  [.set (.plain (.written 0)
      [("a", .bool true),
        ("log", .plain (.written 1) [("__proto__", .function "f"), ("name", .text "x")])]),
    .set (.plain (.written 2) [("log", .text "quiet")])]

/-- The sets that went through do not always tell what is in effect: what a set
leaves that goes wrong comes into effect with the next that goes through. -/
theorem futile_set_comes_into_effect :
    ¬ ∀ (around : Surroundings) (operations : List Operation),
      ((Session.fresh around).after operations).store.settings?.map (·.effective) =
        mergedOf laidBySets (sinceLoaded ((Session.fresh around).events operations)) := by
  intro told
  have kept : (((Session.fresh ⟨[], .empty⟩).after unfittingSets).store.settings?.map (·.effective)).map
      (Settings.follow · ["a"]) = some (.bool true) := by rfl
  have left : (mergedOf laidBySets (sinceLoaded ((Session.fresh ⟨[], .empty⟩).events
      unfittingSets))).map (Settings.follow · ["a"]) = some .undefined := by rfl
  have equal := congrArg (Option.map (Settings.follow · ["a"])) (told ⟨[], .empty⟩ unfittingSets)
  rw [kept, left] at equal
  simp at equal

end NamedArguments
