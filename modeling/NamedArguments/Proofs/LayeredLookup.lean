import NamedArguments.Proofs.SettingsFound

/-! Reading merged settings is looking through the layers that they are made of.
At each segment of a path only the layers with a member of that name matter, and
of these only those above the first that holds no object. The rule is stated on
the unmerged layers, from the highest to the lowest, and holds of any number of
them, one more being laid on top at a time. What a session reads is then the case
of the four layers that it finds. -/
namespace NamedArguments.Settings

/-- What layers come to at the end of a path: a value, or the objects that
some of them hold there, which make one object together. -/
inductive Layered where
  | value (v : Value)
  | objects (run : List Value)

/-- Looks a path up in layers, the highest first. -/
def layered : List Value → List String → Layered
  | layers, [] => .objects layers
  | layers, segment :: rest =>
    match layers.filterMap fun layer => layer.ownMembers.lookup segment with
    | [] => .value .undefined
    | top :: below =>
      if top.isRecord then layered ((top :: below).takeWhile Value.isRecord) rest
      else .value (if rest = [] then top else .undefined)

/-- A value answers a path as layers do. -/
def Agrees (v : Value) (layers : List Value) (path : List String) : Prop :=
  match layered layers path with
  | .value w => follow v path = w
  | .objects _ => (follow v path).isRecord = true

/-- A value answers as layers do on every path of names that objects do not inherit. -/
def Obeys (v : Value) (layers : List Value) : Prop :=
  ∀ path, (∀ segment ∈ path, Uninherited segment) → Agrees v layers path

theorem follow_bare {v : Value} (bare : v.isRecord = false) (path : List String) :
    follow v path = if path = [] then v else .undefined := by
  cases path <;> simp [follow, bare]

/-- The objects that layers hold under a name, down to the first value that is
none. -/
def objectsAt (layers : List Value) (name : String) : List Value :=
  (layers.filterMap fun layer => layer.ownMembers.lookup name).takeWhile Value.isRecord

variable {lower upper : Value} {layers : List Value} {segment : String}

/-- At a segment the layers come to their objects there, or else to a value that
is no object. -/
theorem layered_segment (layers : List Value) (segment : String) :
    (objectsAt layers segment ≠ [] ∧
      ∀ rest, layered layers (segment :: rest) = layered (objectsAt layers segment) rest) ∨
    (objectsAt layers segment = [] ∧ ∃ v, v.isRecord = false ∧
      ∀ rest, layered layers (segment :: rest) = .value (if rest = [] then v else .undefined)) := by
  unfold objectsAt
  cases owners : layers.filterMap fun layer => layer.ownMembers.lookup segment with
  | nil => exact Or.inr ⟨rfl, .undefined, rfl, fun rest => by simp [layered, owners]⟩
  | cons top below =>
    cases object : top.isRecord with
    | true => exact Or.inl ⟨by simp [object], fun rest => by simp [layered, owners, object]⟩
    | false =>
      exact Or.inr ⟨by simp [object], top, object, fun rest => by simp [layered, owners, object]⟩

theorem layered_append {run : List Value} {path : List String}
    (ends : layered layers path = .objects run) (deeper : List String) :
    layered layers (path ++ deeper) = layered run deeper := by
  induction path generalizing layers with
  | nil =>
    obtain rfl : layers = run := by simpa [layered] using ends
    rfl
  | cons segment rest ih =>
    rw [List.cons_append]
    rcases layered_segment layers segment with ⟨_, same⟩ | ⟨_, v, _, same⟩
    · rw [same] at ends ⊢
      exact ih ends
    · simp [same] at ends

/-- Looking on from where the layers hold objects. -/
theorem Obeys.deeper {v : Value} {run : List Value} {path : List String}
    (obeys : Obeys v layers) (own : ∀ segment ∈ path, Uninherited segment)
    (ends : layered layers path = .objects run) : Obeys (follow v path) run := by
  intro deeper ownDeeper
  have agrees := obeys (path ++ deeper) fun segment member =>
    (List.mem_append.mp member).elim (own segment) (ownDeeper segment)
  rwa [Agrees, layered_append ends, follow_append] at agrees

/-- What is read under a name is an object just where the layers hold objects
there, and then it obeys these. -/
theorem Obeys.member {v : Value} (obeys : Obeys v layers) (object : v.isRecord = true)
    (own : Uninherited segment) :
    ((v.member segment).isRecord = true → Obeys (v.member segment) (objectsAt layers segment)) ∧
      ((v.member segment).isRecord = false → objectsAt layers segment = []) := by
  have reached : follow v [segment] = v.member segment := by simp [follow, object]
  have names : ∀ other ∈ [segment], Uninherited other := by simpa using own
  have agrees := obeys [segment] names
  rcases layered_segment layers segment with ⟨_, same⟩ | ⟨nothing, w, bare, same⟩
  · have ends : layered layers [segment] = .objects (objectsAt layers segment) := same []
    rw [Agrees, ends, reached] at agrees
    refine ⟨fun _ => ?_, fun bare => ?_⟩
    · rw [← reached]
      exact obeys.deeper names ends
    · simp [agrees] at bare
  · rw [Agrees, same, reached] at agrees
    rw [agrees]
    exact ⟨fun object => by simp [bare] at object, fun _ => nothing⟩

/-- One layer is obeyed by itself. -/
theorem obeys_single {v : Value} (held : ObjectTree v) : Obeys v [v] := by
  intro path
  induction path generalizing v with
  | nil => exact fun _ => held.object
  | cons segment rest ih =>
    intro own
    have read := held.member (own segment (by simp))
    have step : follow v (segment :: rest) = follow (v.member segment) rest := if_pos held.object
    unfold Agrees
    rw [step, read, layered]
    cases found : v.ownMembers.lookup segment with
    | none => simp [found, follow_bare (v := .undefined) rfl]
    | some w =>
      simp only [List.filterMap_cons, found, List.filterMap_nil, Option.getD_some]
      cases object : w.isRecord with
      | true =>
        simpa [object, Agrees] using ih ⟨held.tree.own found, object⟩ fun other member =>
          own other (List.mem_cons_of_mem _ member)
      | false => simp [follow_bare object]

/-- Where a layer on top has nothing, those below are looked through. -/
theorem layered_cons_of_none (missing : upper.ownMembers.lookup segment = none)
    (rest : List String) :
    layered (upper :: layers) (segment :: rest) = layered layers (segment :: rest) := by
  simp only [layered, List.filterMap_cons, missing]

/-- Where a layer on top has an object, it is looked through before the objects
below; any other value hides all that is below. -/
theorem layered_cons_of_some {new : Value} (given : upper.ownMembers.lookup segment = some new)
    (rest : List String) :
    layered (upper :: layers) (segment :: rest) =
      if new.isRecord then layered (new :: objectsAt layers segment) rest
      else .value (if rest = [] then new else .undefined) := by
  cases above : new.isRecord <;> simp [layered, given, above, objectsAt]

/-- A layer on top of something that obeys others makes something that obeys it
and the others. -/
theorem obeys_layer (below : ObjectTree lower) (above : ObjectTree upper)
    (obeys : Obeys lower layers) : Obeys (layer lower upper) (upper :: layers) := by
  intro path
  induction path generalizing lower upper layers with
  | nil => exact fun _ => isRecord_layer lower upper
  | cons segment rest ih =>
    intro own
    have name := own segment (by simp)
    have names : ∀ other ∈ rest, Uninherited other :=
      fun other member => own other (List.mem_cons_of_mem _ member)
    have step : follow (layer lower upper) (segment :: rest) =
        follow ((layer lower upper).member segment) rest := if_pos (isRecord_layer lower upper)
    have read := (objectTree_layer below.tree above).member name
    have readLower := below.member name
    rw [lookup_layer lower above] at read
    cases given : upper.ownMembers.lookup segment with
    | none =>
      rw [given, ← readLower] at read
      have same : follow (layer lower upper) (segment :: rest) = follow lower (segment :: rest) := by
        rw [step, read]
        exact (if_pos below.object).symm
      have agrees := obeys (segment :: rest) own
      rwa [Agrees, ← layered_cons_of_none given, ← same] at agrees
    | some new =>
      rw [given, ← readLower, Option.getD_some] at read
      rw [Agrees, layered_cons_of_some given, step, read]
      cases newObject : new.isRecord with
      | false => simp [overlay_leaf newObject, follow_bare newObject]
      | true =>
        have newHeld : ObjectTree new := ⟨above.tree.own given, newObject⟩
        obtain ⟨objects, nothing⟩ := obeys.member below.object name
        cases oldObject : (lower.member segment).isRecord with
        | true =>
          rw [overlay_objects oldObject newHeld]
          exact ih ⟨below.tree_member name, oldObject⟩ newHeld (objects oldObject) names
        | false =>
          rw [overlay_bare oldObject, nothing oldObject]
          exact obeys_single newHeld rest names

theorem objectTree_defaults : ObjectTree defaults := by
  have level : ObjectTree (.plain .merged [("level", .text "warn")]) :=
    objectTree_single .merged (by decide) (.leaf rfl)
  exact ⟨.object (Or.inl rfl) (by decide) (by decide)
    (by simpa using ⟨.leaf rfl, .leaf rfl, level.tree⟩), rfl⟩

/-- Trees laid over the defaults obey the layers that they are. -/
theorem obeys_combine {file program : Value} (fileHeld : ObjectTree file)
    (held : ObjectTree program) (environment : Environment) :
    ObjectTree (combine file program environment) ∧
      Obeys (combine file program environment)
        [environmentLayer environment, program, file, defaults] := by
  have topHeld := objectTree_environmentLayer environment
  have lower := objectTree_layer objectTree_defaults.tree fileHeld
  have middle := objectTree_layer lower.tree held
  exact ⟨objectTree_layer middle.tree topHeld, obeys_layer middle topHeld (obeys_layer lower held
    (obeys_layer objectTree_defaults fileHeld (obeys_single objectTree_defaults)))⟩

/-- An answer is what layers come to at a path: their value, or where the path ends on
objects an object that obeys just those. -/
inductive LooksUp (answer : Answer) (layers : List Value) (path : List String) : Prop where
  | value {v : Value} (ends : layered layers path = .value v) (same : answer = .value v)
  | objects {run : List Value} {v : Value} (ends : layered layers path = .objects run)
      (same : answer = .value v) (object : v.isRecord = true) (obeys : Obeys v run)

/-- Reading a setting, at any point of any run, is looking its path up in the four
layers that are found: the environment, what the program has set, the file and the
defaults. Where the path ends on objects the answer is an object, and further paths
read in it are looked up in just those objects. -/
theorem merged_looked_through (around : Surroundings) (operations : List Operation)
    (path : String) (own : ∀ segment ∈ segments path, Uninherited segment) :
    let since := sinceLoaded ((Session.fresh around).events operations)
    let now := (Session.fresh around).after operations
    let layers :=
      [environmentLayer (environmentFound now since), programFound since, fileFound now since,
        defaults]
    (∀ v ∈ layers, ObjectTree v) → (since = [] → ∃ found, now.around.finder.layer = .ok found) →
      LooksUp (now.perform (.get path)).answer layers (segments path) := by
  intro since now layers trees given
  have fileHeld : ObjectTree (fileFound now since) := trees _ (by simp [layers])
  have held : ObjectTree (programFound since) := trees _ (by simp [layers])
  obtain ⟨loaded, lines, ready⟩ := exists_found around operations fileHeld given
  obtain ⟨-, effect⟩ := effective_found around operations ready
  obtain ⟨tree, obeys⟩ := obeys_combine fileHeld held (environmentFound now since)
  rw [← effect] at tree obeys
  have answer : (now.perform (.get path)).answer =
      .value (follow loaded.effective (segments path)) := by
    rw [Session.perform_get ready, Loaded.refuses, followRefused_tree tree.tree _ own]
    rfl
  have agrees := obeys (segments path) own
  unfold Agrees at agrees
  cases ends : layered layers (segments path) with
  | value v =>
    rw [ends] at agrees
    exact .value ends (answer.trans (congrArg Answer.value agrees))
  | objects run =>
    rw [ends] at agrees
    exact .objects ends answer agrees (obeys.deeper own ends)

/-- A file with a text where the defaults have an object, and a variable for a member of
that object. -/
def textOverObject : Surroundings :=
  { environment := [("KWARGS_LOG__COLOR", "red")]
    finder :=
      { start := .ok ()
        find := .ok (some
          { path := ".kwargsrc.json", config := .plain (.written 0) [("log", .text "off")]
            isEmpty := false }) } }

/-- What the program sets over that text. -/
def objectOverText : Value :=
  .plain (.written 1) [("log", .plain (.written 2) [("level", .text "info")])]

/-- Whether layers come to a text. -/
def Layered.isText (s : String) : Layered → Bool
  | .value (.text t) => t = s
  | _ => false

theorem Layered.eq_of_isText {s : String} {found : Layered} (text : found.isText s = true) :
    found = .value (.text s) := by
  unfold isText at text
  split at text
  · rw [of_decide_eq_true text]
  · cases text

/-- A text in the file hides the default level below it; the program's own object above
that text is looked through after the environment's. -/
theorem merged_looked_through_text :
    let operations : List Operation := [.get "log", .set objectOverText]
    let since := sinceLoaded ((Session.fresh textOverObject).events operations)
    let now := (Session.fresh textOverObject).after operations
    (∀ segment ∈ segments "log.level", Uninherited segment) ∧
      (∀ v ∈ [environmentLayer (environmentFound now since), programFound since,
        fileFound now since, defaults], ObjectTree v) ∧
      since ≠ [] ∧ (now.perform (.get "log.level")).answer = .value (.text "info") := by
  intro operations since now
  let reading : Event := ⟨Session.fresh textOverObject, .get "log"⟩
  let setting : Event := ⟨reading.effect.session, .set objectOverText⟩
  have opens : reading.loads = true := by decide +kernel
  have goes : setting.sets = true := by decide +kernel
  have happened : since = [reading] ++ [setting] := by
    have first := @sinceLoaded_concat_of_unloaded [] reading rfl rfl
    rw [List.nil_append, if_pos opens] at first
    have both := @sinceLoaded_concat_of_loaded [reading] setting rfl
      (first.trans_ne (List.cons_ne_nil _ _))
    rwa [first] at both
  have program : ObjectTree objectOverText :=
    objectTree_single _ (by decide) (objectTree_single _ (by decide) (.leaf rfl)).tree
  have held : ObjectTree (programFound since) := by
    have laid : laid ([reading] ++ [setting]) = lay empty objectOverText := rfl
    rw [programFound, happened, untilLastSet_concat, goes, if_pos rfl, laid, lay,
      layerRefused_tree _ program]
    exact objectTree_layer objectTree_empty.tree program
  have read : ObjectTree (fileFound now since) := by
    rw [happened]
    exact objectTree_single _ (by decide) (.leaf rfl)
  let layers :=
    [environmentLayer (environmentFound now since), programFound since, fileFound now since,
      defaults]
  have trees : ∀ v ∈ layers, ObjectTree v := by
    simpa [layers] using ⟨objectTree_environmentLayer _, held, read, objectTree_defaults⟩
  have names : ∀ segment ∈ segments "log.level", Uninherited segment := by
    intro segment member
    have either : segment = "log" ∨ segment = "level" := by simpa [segments, splitDots] using member
    rcases either with rfl | rfl <;> exact ⟨rfl, by decide⟩
  have loaded : since ≠ [] := happened.trans_ne (List.cons_ne_nil _ _)
  have answer := merged_looked_through textOverObject operations "log.level" names trees
    fun nothing => absurd nothing loaded
  have looked : layered layers (segments "log.level") = .value (.text "info") :=
    Layered.eq_of_isText (by decide +kernel)
  refine ⟨names, trees, loaded, ?_⟩
  cases answer with
  | value ends same =>
    cases ends.symm.trans looked
    exact same
  | objects ends => cases ends.symm.trans looked

end NamedArguments.Settings
