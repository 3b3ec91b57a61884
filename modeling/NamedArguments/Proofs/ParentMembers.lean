import NamedArguments.Proofs.BaredValues
import NamedArguments.Proofs.SettingsFound

/-! Members under the parent's name in settings. A run is held against the run in
which they are left out of all that is set and of the files' settings. As long as no
layer replaces a parent, the two sessions stay alike: the settings of the second are
those of the first without such members, and what is read along other names is the
same but for them. -/
namespace NamedArguments

open Settings (Surroundings Store Remains Loaded Finder FileLayer Environment InOrder KeepsParents
  ParentsKept layer defaults empty segments)

/-- Files that give the same settings, but without members under the parent's name, or
fail alike. -/
structure Settings.Finder.Bares (finder bared : Finder) : Prop where
  layer : bared.layer.map FileLayer.settings = finder.layer.map (·.settings.bared)
  order : InOrder finder.settings

/-- An operation, and the one that takes its place where such members are left out. -/
inductive Operation.Bares : Operation → Operation → Prop where
  | set {values : Value} (order : InOrder values) : Bares (.set values) (.set values.bared)
  | files {finder bared : Finder} (same : finder.Bares bared) : Bares (.files finder) (.files bared)
  | other {operation : Operation} (unset : operation.isSet = false)
      (unmoved : ∀ finder, operation ≠ .files finder) : Bares operation operation

/-- What is read, the same but for members under the parent's name. -/
inductive Answer.SameRead : Answer → Answer → Prop where
  | value {v w : Value} (same : v.bared = w.bared) : SameRead (.value v) (.value w)
  | fault (fault : Fault) : SameRead (.fault fault) (.fault fault)

/-- Settings whose objects have their members in order, and the settings without the
members under the parent's name. -/
structure Settings.Loaded.Bares (loaded bared : Loaded) : Prop where
  file : bared.file = loaded.file.bared
  program : bared.programmatic = loaded.programmatic.bared
  effect : bared.effective = loaded.effective.bared
  fileOrder : InOrder loaded.file
  fileObject : loaded.file.isRecord = true
  programOrder : InOrder loaded.programmatic

/-- Settings before they are loaded, or loaded settings of which the second lack such
members. -/
inductive Settings.Store.Bares : Store → Store → Prop where
  | unloaded (remains other : Remains) : Bares (.unloaded remains) (.unloaded other)
  | loaded {settings bared : Loaded} (same : settings.Bares bared) :
      Bares (.loaded settings) (.loaded bared)

/-- Sessions alike but for members under the parent's name. -/
structure Session.Bares (session bared : Session) : Prop where
  environment : bared.around.environment = session.around.environment
  finder : session.around.finder.Bares bared.around.finder
  store : session.store.Bares bared.store

namespace Session

/-- The file's settings: those that are loaded, or would be. -/
def fileAtHand (session : Session) : Value :=
  match session.store with
  | .loaded loaded => loaded.file
  | .unloaded _ => session.around.finder.settings

/-- What the program has set. -/
def programAtHand (session : Session) : Value :=
  match session.store with
  | .loaded loaded => loaded.programmatic
  | .unloaded _ => empty

/-- The settings that an operation finds have the layers at hand. -/
theorem layersAtHand {session : Session} {loaded : Loaded} {lines : List Line}
    (ready : Settings.ensure session.around session.store = .ok (loaded, lines)) :
    loaded.file = session.fileAtHand ∧ loaded.programmatic = session.programAtHand := by
  cases store : session.store with
  | loaded known =>
    rw [store] at ready
    cases ready
    simp [fileAtHand, programAtHand, store]
  | unloaded remains =>
    rw [store] at ready
    obtain ⟨found, given, -, rfl, -⟩ := Settings.load_ok.mp ready
    simp [fileAtHand, programAtHand, store, Finder.settings_of_layer given]

end Session

/-- An event lays no layers by which a parent is replaced: neither the file's over the
defaults, nor values over the program's, nor both over one another. -/
structure Event.KeepsParents (event : Event) : Prop where
  file : event.operation.accesses = true →
    Settings.KeepsParents defaults.ownMembers event.before.fileAtHand.ownMembers
  set : ∀ values, event.operation = .set values →
    Settings.KeepsParents event.before.programAtHand.ownMembers values.enumerable ∧
      ParentsKept event.before.fileAtHand (layer event.before.programAtHand values)

namespace Settings

variable {loaded bared : Loaded} {values : Value} {environment : Environment}

theorem settled_empty : Settled empty := lasting_settled.empty

/-- What layers that fit come to when values are set. -/
theorem Loaded.extend_of_fits (given : values.isGiven = true)
    (fits : layerRefused loaded.programmatic values = false)
    (whole : combineRefused loaded.file (layer loaded.programmatic values) environment = false) :
    (loaded.extend values environment).2 =
      { loaded with
        programmatic := layer loaded.programmatic values
        effective := combine loaded.file (layer loaded.programmatic values) environment } := by
  simp [extend, given, fits, whole]

/-- Both searches give a layer, or neither does, for the same reason. -/
theorem Finder.Bares.layers {finder other : Finder} (same : finder.Bares other) :
    (∃ fault, finder.layer = .error fault ∧ other.layer = .error fault) ∨
      ∃ found foundToo, finder.layer = .ok found ∧ other.layer = .ok foundToo ∧
        foundToo.settings = found.settings.bared := by
  have alike := same.layer
  cases given : finder.layer with
  | error fault =>
    cases givenToo : other.layer with
    | error faultToo =>
      rw [given, givenToo] at alike
      cases alike
      exact Or.inl ⟨fault, rfl, rfl⟩
    | ok foundToo => simp [given, givenToo, Except.map] at alike
  | ok found =>
    cases givenToo : other.layer with
    | error faultToo => simp [given, givenToo, Except.map] at alike
    | ok foundToo =>
      rw [given, givenToo] at alike
      exact Or.inr ⟨found, foundToo, rfl, rfl, Except.ok.inj alike⟩

/-- Loading comes to the same but for such members. -/
theorem load_bared {around other : Surroundings} (same : around.finder.Bares other.finder)
    (environment : other.environment = around.environment)
    (keeps : KeepsParents defaults.ownMembers around.finder.settings.ownMembers)
    (before beforeToo : Remains) :
    (∃ stop stopToo, load around before = .error stop ∧ load other beforeToo = .error stopToo ∧
        stopToo.fault = stop.fault) ∨
      ∃ loaded lines bared more, load around before = .ok (loaded, lines) ∧
        load other beforeToo = .ok (bared, more) ∧ loaded.Bares bared := by
  rcases same.layers with ⟨fault, given, givenToo⟩ | ⟨found, foundToo, given, givenToo, settings⟩
  · exact Or.inl ⟨_, _, load_error.mpr (Or.inl ⟨fault, given, rfl⟩),
      load_error.mpr (Or.inl ⟨fault, givenToo, rfl⟩), rfl⟩
  · have object := around.finder.isRecord_settings
    have order := same.order
    rw [Finder.settings_of_layer given] at object order keeps
    have kept : ParentsKept found.settings empty := ⟨keeps, .nil⟩
    have fits := kept.fits object rfl around.environment
    have fitsToo := (parentsKept_bared found.settings empty).fits
      ((Value.isRecord_bared _).trans object) rfl around.environment
    rw [settled_empty.bare, ← settings, ← environment] at fitsToo
    refine Or.inr ⟨_, _, _, _, load_ok.mpr ⟨found, given, fits, rfl, rfl⟩,
      load_ok.mpr ⟨foundToo, givenToo, fitsToo, rfl, rfl⟩,
      settings, rfl, ?_, order, object, settled_empty.order⟩
    rw [combine_bared kept order settled_empty.order object rfl, settled_empty.bare, settings,
      environment]

/-- A set comes to the same but for such members. -/
theorem Loaded.Bares.extend (same : loaded.Bares bared) (order : InOrder values)
    (keeps : KeepsParents loaded.programmatic.ownMembers values.enumerable)
    (kept : ParentsKept loaded.file (layer loaded.programmatic values)) :
    (loaded.extend values environment).2.Bares (bared.extend values.bared environment).2 := by
  cases given : values.isGiven with
  | false =>
    have missing := values.isGiven_bared.trans given
    simpa [Loaded.extend, given, missing] using same
  | true =>
    obtain ⟨laid, alike⟩ := layer_bared same.programOrder order keeps
    have object := isRecord_layer loaded.programmatic values
    have fits : layerRefused bared.programmatic values.bared = false := by
      rw [layerRefused, Value.enumerable_bared]
      exact (keepsParents_baredMembers _ _).unrefused
    have whole : combineRefused bared.file (layer bared.programmatic values.bared) environment =
        false := by
      rw [same.file, same.program, ← alike]
      exact (parentsKept_bared _ _).fits ((Value.isRecord_bared _).trans same.fileObject)
        ((Value.isRecord_bared _).trans object) environment
    rw [loaded.extend_of_fits given keeps.unrefused (kept.fits same.fileObject object environment),
      bared.extend_of_fits (values.isGiven_bared.trans given) fits whole]
    refine ⟨same.file, by rw [same.program, alike], ?_, same.fileOrder, same.fileObject, laid⟩
    rw [combine_bared kept same.fileOrder laid same.fileObject object, alike, same.file,
      same.program]

end Settings

namespace Session

variable {session bared : Session} {operation other : Operation}

/-- The settings that an operation finds are the same but for such members. -/
theorem Bares.ensure (same : session.Bares bared)
    (keeps : KeepsParents defaults.ownMembers session.fileAtHand.ownMembers) :
    (∃ stop stopToo, Settings.ensure session.around session.store = .error stop ∧
        Settings.ensure bared.around bared.store = .error stopToo ∧ stopToo.fault = stop.fault) ∨
      ∃ loaded lines baredLoaded more,
        Settings.ensure session.around session.store = .ok (loaded, lines) ∧
        Settings.ensure bared.around bared.store = .ok (baredLoaded, more) ∧
        loaded.Bares baredLoaded := by
  obtain ⟨around, store⟩ := session
  obtain ⟨others, baredStore⟩ := bared
  obtain ⟨environment, finder, stores⟩ := same
  cases stores with
  | loaded alike => exact Or.inr ⟨_, _, _, _, rfl, rfl, alike⟩
  | unloaded remains other => exact Settings.load_bared finder environment keeps remains other

/-- Operations in one another's place leave the same store but for such members. -/
theorem Bares.perform_store (same : session.Bares bared) (place : operation.Bares other)
    (keeps : Event.KeepsParents ⟨session, operation⟩) :
    (session.perform operation).session.store.Bares (bared.perform other).session.store := by
  cases uses : operation.accesses with
  | false =>
    cases place with
    | set => cases uses
    | files => exact same.store
    | other unset unmoved =>
      cases kept : operation.isReset with
      | true =>
        cases operation with
        | reset => exact .unloaded _ _
        | _ => cases kept
      | false =>
        rw [perform_of_idle session uses kept, perform_of_idle bared uses kept]
        exact same.store
  | true =>
    have usesToo : other.accesses = true := by
      cases place with
      | set | files => exact uses
      | other => exact uses
    rcases same.ensure (keeps.file uses) with ⟨stop, stopToo, stuck, stuckToo, -⟩ |
      ⟨loaded, lines, baredLoaded, more, ready, readyToo, alike⟩
    · rw [(perform_of_unloaded uses stuck).1, (perform_of_unloaded usesToo stuckToo).1]
      exact .unloaded _ _
    · rw [perform_of_loading uses ready, perform_of_loading usesToo readyToo]
      simp only [Effect.behind]
      cases place with
      | set order =>
        obtain ⟨orderly, kept⟩ := keeps.set _ rfl
        obtain ⟨file, program⟩ := layersAtHand ready
        rw [opened_perform_set, opened_perform_set, same.environment]
        rw [← program] at orderly kept
        rw [← file] at kept
        exact .loaded (alike.extend order orderly kept)
      | files => cases uses
      | other unset unmoved =>
        have kept : operation.isReset = false := by
          cases operation with
          | reset => cases uses
          | _ => rfl
        rw [opened_perform_store _ _ unset kept, opened_perform_store _ _ unset kept]
        exact .loaded alike

theorem Bares.perform (same : session.Bares bared) (place : operation.Bares other)
    (keeps : Event.KeepsParents ⟨session, operation⟩) :
    (session.perform operation).session.Bares (bared.perform other).session := by
  refine ⟨?_, ?_, same.perform_store place keeps⟩
  · cases place with
    | set | files => exact same.environment
    | other =>
      cases operation with
      | environment => rfl
      | _ => exact same.environment
  · rw [perform_finder, perform_finder]
    cases place with
    | set => exact same.finder
    | files alike => exact alike
    | other unset unmoved =>
      cases operation with
      | files finder => exact absurd rfl (unmoved finder)
      | _ => exact same.finder

theorem Bares.after {operations others : List Operation} (same : session.Bares bared)
    (places : List.Forall₂ Operation.Bares operations others)
    (keeps : ∀ event ∈ session.events operations, event.KeepsParents) :
    (session.after operations).Bares (bared.after others) := by
  induction places generalizing session bared with
  | nil => exact same
  | cons place _ ih =>
    obtain ⟨first, later⟩ := List.forall_mem_cons.mp keeps
    exact ih (same.perform place first) later

/-- What is read along other names is the same but for such members. -/
theorem Bares.get {path : String} (same : session.Bares bared)
    (apart : Value.parentName ∉ segments path)
    (keeps : KeepsParents defaults.ownMembers session.fileAtHand.ownMembers) :
    (session.perform (.get path)).answer.SameRead (bared.perform (.get path)).answer := by
  rcases same.ensure keeps with ⟨stop, stopToo, stuck, stuckToo, fault⟩ |
    ⟨loaded, lines, baredLoaded, more, ready, readyToo, alike⟩
  · rw [(perform_of_unloaded rfl stuck).2.2, (perform_of_unloaded rfl stuckToo).2.2, fault]
    exact .fault stop.fault
  · rw [perform_get ready, perform_get readyToo]
    have refused : baredLoaded.refuses path = loaded.refuses path := by
      rw [Loaded.refuses, alike.effect, Settings.followRefused_bared apart]
      rfl
    rw [refused]
    cases loaded.refuses path with
    | true => exact .fault _
    | false =>
      refine .value ?_
      rw [Loaded.at, Loaded.at, alike.effect, Settings.follow_bared apart]

end Session

/-- In every run that replaces no parent, members under the parent's name are inert:
what is read along other names is the same, but for such members in it, as in the run
in which they are left out of all that is set and of the files' settings. -/
theorem parent_members_inert (around others : Surroundings) (operations places : List Operation)
    (path : String) (environment : others.environment = around.environment)
    (finder : around.finder.Bares others.finder)
    (run : List.Forall₂ Operation.Bares operations places)
    (apart : Value.parentName ∉ segments path)
    (keeps : ∀ event ∈ (Session.fresh around).events (operations ++ [.get path]),
      event.KeepsParents) :
    (((Session.fresh around).after operations).perform (.get path)).answer.SameRead
      (((Session.fresh others).after places).perform (.get path)).answer := by
  have start : (Session.fresh around).Bares (Session.fresh others) := ⟨environment, finder, .unloaded _ _⟩
  rw [Session.events_append] at keeps
  have reached := start.after run fun event happens => keeps event (List.mem_append_left _ happens)
  have last := keeps ⟨(Session.fresh around).after operations, .get path⟩
    (List.mem_append_right _ List.mem_cons_self)
  exact reached.get apart (last.file rfl)

theorem bares_empty : Settings.Finder.Bares .empty .empty := ⟨rfl, Settings.settled_empty.order⟩

/-- An object under the parent's name is data where there is nothing below, and a plain value
under that name is ignored where there are the defaults. -/
theorem parent_members_inert_custom :
    let data := Value.plain (.written 1)
      [("__proto__", .plain (.written 2) [("color", .text "red")]), ("a", .bool true)]
    let log := Value.plain (.written 3) [("__proto__", .bool true), ("level", .text "info")]
    let values := Value.plain (.written 0) [("custom", data), ("log", log)]
    let session := (Session.fresh ⟨[], .empty⟩).after [.set values]
    let bared := (Session.fresh ⟨[], .empty⟩).after [.set values.bared]
    Value.parentName ∉ segments "custom" ∧ (session.perform (.get "custom")).answer = .value data ∧
      Answer.SameRead (.value data) (bared.perform (.get "custom")).answer := by
  intro data log values session bared
  have leaf {v : Value} (unfit : v.isParent = false) : InOrder v :=
    Settings.inOrder_of_unfit unfit
  have color : InOrder (.plain (.written 2) [("color", .text "red")]) :=
    Settings.inOrder_plain _ (by decide) (by simpa using leaf rfl)
  have dataOrder : InOrder data :=
    Settings.inOrder_plain _ (by decide) (by simpa using ⟨color, leaf rfl⟩)
  have logOrder : InOrder log :=
    Settings.inOrder_plain _ (by decide) (by simpa using ⟨leaf rfl, leaf rfl⟩)
  have order : InOrder values :=
    Settings.inOrder_plain _ (by decide) (by simpa using ⟨dataOrder, logOrder⟩)
  have overDefault : KeepsParents [("level", .text "warn")] log.ownMembers :=
    .ignored rfl rfl nofun (.member (Or.inl (by decide)) (fun _ => nofun) .nil)
  let start := Session.fresh ⟨[], .empty⟩
  have keeps : ∀ event ∈ start.events ([.set values] ++ [.get "custom"]),
      event.KeepsParents := by
    have reading : Event.KeepsParents ⟨session, .get "custom"⟩ := by
      obtain ⟨loaded, ready⟩ := Settings.load_without_files [] ⟨empty, none⟩
      have found : Settings.ensure start.around start.store = .ok (loaded, []) := ready
      have store : session.store = .loaded (loaded.extend values []).2 := by
        change (start.perform (.set values)).session.store = _
        rw [Session.perform_of_loading rfl found]
        rfl
      have bare : session.fileAtHand = empty := by
        rw [Session.fileAtHand, store]
        exact (loaded.extend_layers values []).1.trans (Session.layersAtHand found).1
      exact { file := fun _ => bare ▸ .nil, set := fun _ other => by cases other }
    refine List.forall_mem_cons.mpr ⟨⟨fun _ => .nil, ?_⟩,
      List.forall_mem_cons.mpr ⟨reading, List.forall_mem_nil _⟩⟩
    rintro _ ⟨⟩
    refine ⟨.member (Or.inl (by decide)) nofun (.member (Or.inl (by decide)) nofun .nil), .nil, ?_⟩
    exact .member (Or.inl (by decide)) nofun
      (.member (Or.inl (by decide)) (fun _ _ => overDefault) .nil)
  have apart : Value.parentName ∉ segments "custom" := by decide
  have reads : (session.perform (.get "custom")).answer = .value data := rfl
  exact ⟨apart, reads, reads ▸ parent_members_inert ⟨[], .empty⟩ ⟨[], .empty⟩ [.set values]
    [.set values.bared] "custom" rfl bares_empty (.cons (.set order) .nil) apart keeps⟩

/-- An object under the parent's name becomes the parent of the settings that are made
for logging, and what it has is read there. -/
theorem parent_member_inherited_from :
    ¬ ∀ (around others : Surroundings) (operations places : List Operation) (path : String),
      others.environment = around.environment → around.finder.Bares others.finder →
      List.Forall₂ Operation.Bares operations places → Value.parentName ∉ segments path →
      (((Session.fresh around).after operations).perform (.get path)).answer.SameRead
        (((Session.fresh others).after places).perform (.get path)).answer := by
  intro inert
  let color := Value.plain (.written 2) [("color", .text "red")]
  let log := Value.plain (.written 1) [("__proto__", color)]
  let values := Value.plain (.written 0) [("log", log)]
  have leaf : InOrder (.text "red") := Settings.inOrder_of_unfit rfl
  have inside : InOrder color := Settings.inOrder_plain _ (by decide) (by simpa using leaf)
  have below : InOrder log := Settings.inOrder_plain _ (by decide) (by simpa using inside)
  have order : InOrder values := Settings.inOrder_plain _ (by decide) (by simpa using below)
  have claimed := inert ⟨[], .empty⟩ ⟨[], .empty⟩ [.set values] [.set values.bared] "log.color" rfl bares_empty
    (.cons (.set order) .nil) (by decide)
  have first : (((Session.fresh ⟨[], .empty⟩).after [.set values]).perform (.get "log.color")).answer =
      .value (.text "red") := rfl
  have second : (((Session.fresh ⟨[], .empty⟩).after [.set values.bared]).perform
      (.get "log.color")).answer = .value .undefined := rfl
  rw [first, second] at claimed
  cases claimed with
  | value same => cases same

end NamedArguments
