import NamedArguments.Settings.Search
import NamedArguments.Proofs.SettingsFound

/-! A configuration file that fails to load costs a warning and no more. A run is
held against the run in which every search that throws finds nothing instead: all
answers and settings are the same, and so is what is written, except for one line
at the access that loads the settings. This takes searches that can start and that
throw what can be told. What else is thrown gets out, at every access anew. -/
namespace NamedArguments

open Settings (Surroundings Store Remains Loaded Finder FileLayer Thrown empty)

namespace Settings

/-- The search, or one that finds nothing where something is thrown. -/
def Finder.mended (finder : Finder) : Finder :=
  match finder.start, finder.find with
  | .ok (), .ok _ => finder
  | _, _ => .empty

def Surroundings.mended (around : Surroundings) : Surroundings :=
  { around with finder := around.finder.mended }

/-- What is written about a configuration file that fails to load. -/
def Finder.warning (finder : Finder) : List Line :=
  match finder.layer with
  | .ok found => found.warning
  | .error _ => []

variable {finder : Finder} {found : FileLayer} {reason : String}

theorem Finder.layer_of_reason {thrown : Thrown} (ready : finder.start = .ok ())
    (failed : finder.find = .error thrown) (told : thrown.reason = .ok reason) :
    finder.layer = .ok (.none (some reason)) := by
  simp only [layer, ready, failed, told]

theorem Found.failure_layer (found : Found) : found.layer.failure = none := by
  unfold layer
  split <;> rfl

/-- A layer is what a search that does not throw gives, or else empty. -/
theorem Finder.layer_cases (given : finder.layer = .ok found) :
    finder.mended = finder ∧ found.failure = none ∨
      finder.mended = .empty ∧ ∃ reason, found = .none (some reason) := by
  obtain ⟨ready, ⟨file, met, rfl⟩ | ⟨nothing, rfl⟩ | ⟨thrown, reason, failed, -, rfl⟩⟩ :=
    layer_ok given
  · exact Or.inl ⟨by rw [mended, ready, met], file.failure_layer⟩
  · exact Or.inl ⟨by rw [mended, ready, nothing], rfl⟩
  · exact Or.inr ⟨by rw [mended, ready, failed], reason, rfl⟩

/-- Nothing fails in a mended search, which gives the same settings. -/
theorem Finder.layer_mended (given : finder.layer = .ok found) :
    finder.mended.layer = .ok { found with failure := none } := by
  rcases layer_cases given with ⟨same, silent⟩ | ⟨bare, reason, rfl⟩
  · rw [same, given, ← silent]
  · rw [bare]
    rfl

/-- A mended search always gives a layer, and never fails. -/
theorem Finder.silent_mended (finder : Finder) :
    ∃ found, finder.mended.layer = .ok found ∧ found.failure = none := by
  cases given : finder.layer with
  | ok found => exact ⟨_, layer_mended given, rfl⟩
  | error fault =>
    have bare : finder.mended = .empty := by
      obtain ⟨thrown, surfaces, _⟩ := layer_error.mp given
      unfold mended
      cases surfaces with
      | start stuck => rw [stuck]
      | telling ready failed untold => rw [ready, failed]
    exact ⟨.none none, by rw [bare]; rfl, rfl⟩

/-- In spite of a file that fails the settings are loaded, with nothing in the
place of the file's. -/
theorem load_of_failure {around : Surroundings} (before : Remains)
    (given : around.finder.layer = .ok (.none (some reason))) :
    load around before = .ok
      ({ file := empty, programmatic := empty, effective := combine empty empty around.environment
         origin := before.origin },
        [Line.of "config" .warn (failureMessage reason)]) :=
  load_ok.mpr ⟨_, given, combineRefused_trees objectTree_empty objectTree_empty _, rfl, rfl⟩

/-- Where nothing gets out of a search, loading comes to the same as with the mended
one, but for the warning. -/
theorem load_mended {around : Surroundings} (before : Remains)
    (clear : ∀ thrown, ¬ around.finder.Surfaces thrown) :
    (∃ stop, load around before = .error stop ∧ load around.mended before = .error stop ∧
        around.finder.warning = []) ∨
      ∃ loaded, load around before = .ok (loaded, around.finder.warning) ∧
        load around.mended before = .ok (loaded, []) := by
  obtain ⟨found, given⟩ := Finder.exists_layer.mpr clear
  have mended := Finder.layer_mended given
  have warning : around.finder.warning = found.warning := by rw [Finder.warning, given]
  rw [warning]
  cases refused : combineRefused found.settings empty around.environment with
  | false =>
    exact Or.inr ⟨_, load_ok.mpr ⟨found, given, refused, rfl, rfl⟩,
      load_ok.mpr ⟨_, mended, refused, rfl, rfl⟩⟩
  | true =>
    -- What cannot be laid over the defaults is not empty, so no file has failed.
    have silent : found.failure = none := by
      rcases Finder.layer_cases given with ⟨_, silent⟩ | ⟨_, reason, rfl⟩
      · exact silent
      · cases (combineRefused_trees objectTree_empty objectTree_empty _).symm.trans refused
    have unwarned : found.warning = [] := by rw [FileLayer.warning, silent]; rfl
    refine Or.inl ⟨_, load_error.mpr (Or.inr ⟨found, given, refused, rfl⟩),
      load_error.mpr (Or.inr ⟨_, mended, refused, ?_⟩), unwarned⟩
    rw [unwarned]
    rfl

end Settings

/-- The operation with any search mended that it brings. -/
def Operation.mended : Operation → Operation
  | .files finder => .files finder.mended
  | operation => operation

namespace Session

def mended (session : Session) : Session := { session with around := session.around.mended }

/-- The warning of an operation: that of the search, if the operation is the one
to load the settings. -/
def warning (session : Session) (operation : Operation) : List Line :=
  if session.opens operation then session.around.finder.warning else []

/-- If an operation has to load the settings, nothing gets out of the search. -/
def Clear (session : Session) (operation : Operation) : Prop :=
  session.opens operation = true → ∀ thrown, ¬ session.around.finder.Surfaces thrown

variable {session : Session} {operation : Operation}

/-- On loaded settings files do not matter. -/
theorem opened_perform_mended (session : Session) (loaded : Loaded) (operation : Operation) :
    ((session.mended.opened loaded).perform operation).answer =
        ((session.opened loaded).perform operation).answer ∧
      ((session.mended.opened loaded).perform operation).session.store =
        ((session.opened loaded).perform operation).session.store ∧
      ((session.mended.opened loaded).perform operation).lines =
        ((session.opened loaded).perform operation).lines :=
  opened_perform_finder session loaded operation session.around.finder.mended

/-- An operation that uses the settings, held against the mended session. -/
theorem perform_mended_of_accesses (clear : session.Clear operation)
    (uses : operation.accesses = true) :
    (session.mended.perform operation).answer = (session.perform operation).answer ∧
      (session.mended.perform operation).session.store =
        (session.perform operation).session.store ∧
      (session.perform operation).lines =
        session.warning operation ++ (session.mended.perform operation).lines := by
  cases store : session.store with
  | loaded loaded =>
    have mendedStore : session.mended.store = .loaded loaded := store
    obtain ⟨answer, same, lines⟩ := opened_perform_mended session loaded operation
    rw [opened_of_loaded store, opened_of_loaded mendedStore] at answer same lines
    exact ⟨answer, same, by simp [warning, opens, store, lines]⟩
  | unloaded remains =>
    have opens : session.opens operation = true := by simp [opens, store, uses]
    have warns : session.warning operation = session.around.finder.warning := if_pos opens
    have here := ensure_of_unloaded store
    have there : Settings.ensure session.mended.around session.mended.store =
        Settings.load session.around.mended remains := ensure_of_unloaded store
    rw [warns]
    rcases Settings.load_mended remains (clear opens) with
      ⟨stop, load, mendedLoad, silent⟩ | ⟨loaded, load, mendedLoad⟩
    · obtain ⟨left, noLines, fails⟩ := perform_of_unloaded uses (here.trans load)
      obtain ⟨left', noLines', fails'⟩ := perform_of_unloaded uses (there.trans mendedLoad)
      refine ⟨fails'.trans fails.symm, ?_, ?_⟩
      · rw [left, left']
      · rw [noLines, noLines', silent]
        rfl
    · rw [perform_of_loading uses (here.trans load),
        perform_of_loading uses (there.trans mendedLoad)]
      obtain ⟨answer, same, lines⟩ := opened_perform_mended session loaded operation
      exact ⟨answer, same, congrArg (session.around.finder.warning ++ ·) lines.symm⟩

/-- An operation, held against the mended session: its answer is the same and what
it leaves behind is the same, mended; it may warn besides. -/
theorem perform_mended (clear : session.Clear operation) :
    (session.mended.perform operation.mended).answer = (session.perform operation).answer ∧
      (session.mended.perform operation.mended).session =
        (session.perform operation).session.mended ∧
      (session.perform operation).lines =
        session.warning operation ++ (session.mended.perform operation.mended).lines := by
  have place : (session.mended.perform operation.mended).session.around =
      (session.perform operation).session.mended.around := by
    cases operation <;> rfl
  cases uses : operation.accesses with
  | true =>
    have same : operation.mended = operation := by
      cases operation with
      | files => cases uses
      | _ => rfl
    obtain ⟨answer, store, lines⟩ := perform_mended_of_accesses clear uses
    rw [same] at place ⊢
    exact ⟨answer, Session.ext place store, lines⟩
  | false =>
    have quiet : session.warning operation = [] := by simp [warning, opens, uses]
    obtain ⟨answer, lines⟩ := perform_of_idle_around session uses session.around.mended
    rw [quiet]
    cases operation with
    | reset | environment | files => exact ⟨rfl, rfl, rfl⟩
    | log | extract =>
      refine ⟨answer, Session.ext place ?_, lines.symm⟩
      exact (perform_of_idle _ uses rfl).trans (perform_of_idle session uses rfl).symm
    | _ => cases uses

theorem mended_after {operations : List Operation}
    (clear : ∀ event ∈ session.events operations, event.before.Clear event.operation) :
    session.mended.after (operations.map Operation.mended) = (session.after operations).mended := by
  induction operations generalizing session with
  | nil => rfl
  | cons operation rest ih =>
    obtain ⟨_, same, _⟩ := perform_mended (clear ⟨session, operation⟩ List.mem_cons_self)
    rw [List.map_cons, after, same]
    exact ih fun event member => clear event (List.mem_cons_of_mem _ member)

/-- What gets out of the search stops an operation that has to load the settings,
and all stays as it was. -/
theorem perform_of_surfaces {thrown : Value} (opens : session.opens operation = true)
    (surfaces : session.around.finder.Surfaces thrown) :
    (session.perform operation).answer = operation.answerUnloaded (.thrown thrown) ∧
      (session.perform operation).session = session ∧ (session.perform operation).lines = [] := by
  obtain ⟨uses, unloaded⟩ := Bool.and_eq_true_iff.mp opens
  cases store : session.store with
  | loaded loaded => simp [store] at unloaded
  | unloaded remains =>
    have stuck := (ensure_of_unloaded store).trans (Settings.load_error.mpr
      (Or.inl ⟨_, Finder.layer_error.mpr ⟨thrown, surfaces, rfl⟩, rfl⟩))
    obtain ⟨left, quiet, fails⟩ := perform_of_unloaded uses stuck
    rw [← store] at left
    exact ⟨fails, left, quiet⟩

end Session

/-- In every run in which nothing gets out of the searches that load settings, no
answer and no settings tell a configuration file that fails to load from none. Such a
file is written about once: when the settings are loaded, which are then made of the
other sources. What does get out of a search is what the access comes to that was to
load the settings; nothing is written and nothing changes. -/
theorem broken_file_warned_about (around : Surroundings) (operations : List Operation)
    (operation : Operation) :
    let events := (Session.fresh around).events operations
    let now := (Session.fresh around).after operations
    let spared := (Session.fresh around.mended).after (operations.map Operation.mended)
    ((∀ event ∈ (Session.fresh around).events (operations ++ [operation]),
        event.before.Clear event.operation) →
      (∃ found, spared.around.finder.layer = .ok found ∧ found.failure = none) ∧
      (now.perform operation).answer = (spared.perform operation.mended).answer ∧
      (now.perform operation).session.store = (spared.perform operation.mended).session.store ∧
      (now.perform operation).lines =
        (if operation.accesses && (sinceLoaded events).isEmpty then now.around.finder.warning
          else []) ++ (spared.perform operation.mended).lines) ∧
    (∀ thrown reason, now.around.finder.start = .ok () →
      now.around.finder.find = .error thrown → thrown.reason = .ok reason →
      now.around.finder.warning = [Line.of "config" .warn (Settings.failureMessage reason)] ∧
      ∀ before, Settings.load now.around before = .ok
        ({ file := empty, programmatic := empty
           effective := Settings.combine empty empty now.around.environment
           origin := before.origin },
          now.around.finder.warning)) ∧
    ∀ thrown, operation.accesses = true → sinceLoaded events = [] →
      now.around.finder.Surfaces thrown →
      (now.perform operation).answer = operation.answerUnloaded (.thrown thrown) ∧
      (now.perform operation).session = now ∧ (now.perform operation).lines = [] := by
  intro events now spared
  have unloaded : now.store.settings?.isNone = (sinceLoaded events).isEmpty := by
    rcases told_of_run around operations with
      ⟨nothing, remains, store⟩ | ⟨_, _, loaded, since, store, _⟩
    · simp [now, events, nothing, store]
    · simp [now, events, since, store]
  refine ⟨fun clear => ?_, fun thrown reason ready failed told => ?_, ?_⟩
  · rw [Session.events_append] at clear
    have here : spared = now.mended :=
      Session.mended_after fun event member => clear event (List.mem_append_left _ member)
    have last : now.Clear operation :=
      clear ⟨now, operation⟩ (List.mem_append_right _ List.mem_cons_self)
    obtain ⟨answer, session, lines⟩ := Session.perform_mended last
    rw [here]
    refine ⟨Finder.silent_mended _, answer.symm, ?_, ?_⟩
    · rw [session]
      rfl
    · rw [lines, Session.warning, Session.opens, unloaded]
  · have given := Finder.layer_of_reason ready failed told
    have warns : now.around.finder.warning =
        [Line.of "config" .warn (Settings.failureMessage reason)] := by
      rw [Finder.warning, given]
      rfl
    rw [warns]
    exact ⟨rfl, fun before => Settings.load_of_failure before given⟩
  · intro thrown uses nothing surfaces
    refine Session.perform_of_surfaces ?_ surfaces
    rw [Session.opens, uses, unloaded, nothing]
    rfl

/-- After a reset a file that does not parse is warned about again. Where the file is a
manifest, what the parser throws is all that an access comes to. -/
theorem broken_file_warned_about_again :
    let failure := Settings.failure "JSONError" "unexpected end"
    let finderOf := fun name => Settings.Folder.finder [(name, .malformed failure)]
    let here := Session.fresh ⟨[], finderOf ".kwargsrc.json"⟩
    let there := Session.fresh ⟨[], finderOf "package.json"⟩
    let operations : List Operation := [.get "checks", .all, .reset]
    (∀ event ∈ here.events (operations ++ [.get "checks"]), event.before.Clear event.operation) ∧
      ((here.after operations).perform (.get "checks")).lines =
        [Line.of "config" .warn "failed to load config file: unexpected end"] ∧
      ((there.after operations).perform (.get "checks")).answer = .fault (.thrown failure) := by
  intro failure finderOf here there operations
  have layered : (finderOf ".kwargsrc.json").layer = .ok (.none (some "unexpected end")) := by rfl
  have clear := Finder.exists_layer.mp ⟨_, layered⟩
  have all : ∀ event ∈ here.events (operations ++ [.get "checks"]),
      event.before.Clear event.operation := by
    simp only [operations, List.cons_append, List.nil_append, Session.events, List.forall_mem_cons]
    exact ⟨fun _ => clear, fun _ => clear, fun _ => clear, fun _ => clear, by simp⟩
  obtain ⟨told, -, -⟩ := broken_file_warned_about ⟨[], finderOf ".kwargsrc.json"⟩ operations
    (.get "checks")
  obtain ⟨-, -, stops⟩ := broken_file_warned_about ⟨[], finderOf "package.json"⟩ operations
    (.get "checks")
  exact ⟨all, (told all).2.2.2, (stops failure rfl rfl (.start rfl)).1⟩

/-- A manifest that does not parse stops every access instead. -/
theorem broken_manifest_surfaces :
    ¬ ∀ (around : Surroundings) (operations : List Operation) (operation : Operation),
      (((Session.fresh around).after operations).perform operation).answer =
        (((Session.fresh around.mended).after (operations.map Operation.mended)).perform
          operation.mended).answer := by
  intro same
  let folder : Settings.Folder :=
    [("package.json", .malformed (Settings.failure "JSONError" "unexpected end"))]
  let around : Surroundings := ⟨[], folder.finder⟩
  have fails : ((Session.fresh around).perform (.get "checks")).answer.isFault = true := by rfl
  have reads : ((Session.fresh around.mended).perform (.get "checks")).answer.isFault = false := by
    rfl
  have equal := congrArg Answer.isFault (same around [] (.get "checks"))
  exact Bool.false_ne_true (reads.symm.trans (equal.symm.trans fails))

end NamedArguments
