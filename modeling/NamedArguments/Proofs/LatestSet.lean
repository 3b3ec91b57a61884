import NamedArguments.Value.Instance
import NamedArguments.Proofs.EnvironmentTrees
import NamedArguments.Proofs.LayerAlgebra
import NamedArguments.Proofs.SettingsHistory

/-! The set made last. A value set under a name passes two merges, into the
program's layer and with this over the defaults and the file's; at each it is laid
over what it meets. So it comes out as it is unless both are objects, and then only
its members come out. Whatever was set before, the program's layer has no name
twice and none for a parent, so that nothing else stands in between. -/
namespace NamedArguments

namespace Value

theorem names_numbered (n : Nat) (items : List Value) :
    (numbered n items).map Prod.fst = (List.range' n items.length).map toString := by
  induction items generalizing n with
  | nil => rfl
  | cons v rest ih => simp [numbered, List.range'_succ, ih]

/-- No name is enumerated twice. -/
theorem nodup_enumerable {v : Value} (distinct : (v.ownMembers.map Prod.fst).Nodup) :
    (v.enumerable.map Prod.fst).Nodup := by
  have positions : ∀ items : List Value, ((numbered 0 items).map Prod.fst).Nodup := fun items => by
    rw [names_numbered]
    exact List.Nodup.map Text.toString_injective List.nodup_range'
  cases v with
  | object => exact distinct
  | list _ items => exact positions items
  | text s => exact positions _
  | _ => exact List.nodup_nil

end Value

namespace Settings

variable {made members : Members} {identity : Identity} {parent lower upper program v : Value}
  {key : String}

theorem replacesParent_made (missing : made.lookup Value.parentName = none) :
    (Value.object identity (.ancestor .record) made).replacesParent Value.parentName = true := by
  have inherited : Value.find? (.ancestor .record) Value.parentName = none := by decide +kernel
  simp [Value.replacesParent, find?_plain (Or.inl rfl), missing, inherited, Value.isRooted]

/-- An object in the making has no name twice, and none for a parent. -/
theorem named_overlayMembers (own : Named made) (distinct : (members.map Prod.fst).Nodup)
    (start : parent = .ancestor .record ∨ Value.parentName ∉ members.map Prod.fst) :
    Named (overlayMembers parent made members).ownMembers := by
  induction members generalizing parent made with
  | nil => exact own
  | cons member rest ih =>
    obtain ⟨name, new⟩ := member
    obtain ⟨fresh, later⟩ := List.nodup_cons.mp distinct
    by_cases same : name = Value.parentName
    · -- The member replaces the parent, which happens once.
      subst same
      obtain rfl : parent = .ancestor .record := start.resolve_right fun apart => apart (by simp)
      have missing := Members.lookup_of_not_mem own.unparented
      simp only [overlayMembers, Value.assign, replacesParent_made missing, if_true]
      exact ih own later (Or.inr fresh)
    · simp only [overlayMembers, assign_of_ne same]
      refine ih (own.define same _) later (start.imp_right fun apart => ?_)
      exact fun held => apart (List.mem_cons_of_mem _ held)

theorem named_layer (lower : Value) (own : Named lower.ownMembers)
    (distinct : (upper.ownMembers.map Prod.fst).Nodup) : Named (layer lower upper).ownMembers :=
  named_overlayMembers own (Value.nodup_enumerable distinct) (Or.inl rfl)

/-- A value under one name. -/
theorem layer_single (program : Value) (identity : Identity) (apart : key ≠ Value.parentName)
    (v : Value) :
    layer program (.plain identity [(key, v)]) =
      .object .merged (.ancestor .record)
        (Members.define program.ownMembers key (overlay (under program key) v)) := by
  have laid : overlayMembers (.ancestor .record) program.ownMembers [(key, v)] = _ :=
    overlayMembers_cons apart
  rw [overlay_member_made _ apart] at laid
  exact laid

/-- A value comes out as it is when it is laid over others: it is no object, or
none of them is. -/
def Passes (v : Value) (below : List Value) : Prop :=
  v.isRecord = false ∨ ∀ w ∈ below, w.isRecord = false

theorem Passes.of_mem {below : List Value} (passes : Passes v below) {w : Value}
    (held : w ∈ below) : Passes v [w] :=
  passes.imp_right fun bare => by simpa using bare w held

theorem Passes.overlay_eq {w : Value} (passes : Passes v [w]) : overlay w v = v := by
  rcases passes with bare | bare
  · exact overlay_leaf bare
  · exact overlay_bare (bare w (by simp))

theorem Passes.unrefused {w : Value} (passes : Passes v [w]) : overlayRefused w v = false := by
  have bare : v.isRecord = false ∨ w.isRecord = false := by simpa [Passes] using passes
  cases v <;> simp_all [overlayRefused, Value.isRecord]

/-- What an object in the making inherits is nothing that could be refused. -/
theorem overlayRefused_member_made (made : Members) (apart : key ≠ Value.parentName) (new : Value) :
    overlayRefused ((Value.object identity (.ancestor .record) made).member key) new =
      overlayRefused ((made.lookup key).getD .undefined) new := by
  cases found : made.lookup key with
  | some old => rw [member_of_own found, Option.getD_some]
  | none =>
    have inherited : Passes new [(Value.object identity (.ancestor .record) made).member key] :=
      Or.inr (by simpa using bare_member_of_not_own (Or.inl rfl) apart found)
    have nothing : Passes new [.undefined] := Or.inr (by simp [Value.isRecord])
    rw [inherited.unrefused, Option.getD_none, nothing.unrefused]

/-- Named members are refused for what they meet under their own names. -/
theorem membersRefused_named (made : Members) (named : Named members) :
    membersRefused (.ancestor .record) made members = false ↔
      ∀ member ∈ members, overlayRefused ((made.lookup member.1).getD .undefined) member.2 = false := by
  induction members generalizing made with
  | nil => simp [membersRefused]
  | cons member rest ih =>
    obtain ⟨name, new⟩ := member
    obtain ⟨distinct, unparented⟩ := named
    rw [List.map_cons, List.nodup_cons] at distinct
    rw [List.map_cons, List.mem_cons, not_or] at unparented
    have apart : name ≠ Value.parentName := fun same => unparented.1 same.symm
    -- What the first member leaves under the names of the others is what was there.
    have kept : ∀ member ∈ rest, ∀ v : Value,
        (made.define name v).lookup member.1 = made.lookup member.1 := by
      intro member held v
      have other : member.1 ≠ name := fun same => distinct.1 (List.mem_map.mpr ⟨member, held, same⟩)
      rw [Members.lookup_define, if_neg other]
    simp only [membersRefused, refusesReading_plain (Or.inl rfl), settles_made,
      overlayRefused_member_made made apart, assign_of_ne apart, Bool.false_or, Bool.or_false,
      Bool.or_eq_false_iff, List.forall_mem_cons]
    refine and_congr_right fun _ => (ih _ ⟨distinct.2, unparented.2⟩).trans ?_
    exact forall₂_congr fun member held => by simp only [Value.ownMembers, kept member held]

/-- An object laid over an object makes another one. -/
theorem overlay_merged {old new : Value} (below : old.isRecord = true)
    (above : new.isRecord = true) :
    ∃ parent members, overlay old new = .object .merged parent members := by
  cases new with
  | object identity parent members =>
    simp only [overlay, below, if_true]
    exact overlayMembers_made _ _ _
  | ancestor family =>
    simp only [overlay, below, above, Bool.and_self, if_true]
    exact ⟨_, _, rfl⟩
  | _ => cases above

/-- A value that does not come out of both of two merges makes another object. -/
theorem overlay_merged_twice {first second : Value} (meets : ¬ Passes v [second, first]) :
    ∃ parent members, overlay second (overlay first v) = .object .merged parent members := by
  simp only [Passes, List.mem_cons, List.not_mem_nil, or_false, forall_eq_or_imp, forall_eq,
    not_or, not_and_or, Bool.not_eq_false] at meets
  obtain ⟨object, meets⟩ := meets
  cases lower : first.isRecord with
  | true =>
    obtain ⟨parent, members, made⟩ := overlay_merged lower object
    rw [made]
    cases upper : second.isRecord with
    | true => exact overlay_merged upper rfl
    | false => exact ⟨parent, members, overlay_bare upper⟩
  | false =>
    rw [overlay_bare lower]
    exact overlay_merged (meets.resolve_right (by simp [lower])) object

/-- A value that meets no object under its name can be laid over a layer. -/
theorem layerRefused_single (program : Value) (identity : Identity) (apart : key ≠ Value.parentName)
    (passes : Passes v [under program key]) :
    layerRefused program (.plain identity [(key, v)]) = false := by
  have named : Named [(key, v)] := ⟨by simp, by simpa using apart.symm⟩
  refine (membersRefused_named _ named).mpr ?_
  simpa [under] using passes.unrefused

/-- And the layer can still be laid over another one. -/
theorem layerRefused_layer_single (identity : Identity) (apart : key ≠ Value.parentName)
    (named : Named program.ownMembers) (whole : program.enumerable = program.ownMembers)
    (fits : layerRefused lower program = false)
    (passes : Passes v [under lower key, under program key]) :
    layerRefused lower (layer program (.plain identity [(key, v)])) = false := by
  rw [layer_single program identity apart, (passes.of_mem (by simp)).overlay_eq]
  refine (membersRefused_named _ (named.define apart v)).mpr fun member held => ?_
  rcases Members.mem_define held with rfl | before
  · exact (passes.of_mem (w := under lower key) (by simp)).unrefused
  · rw [layerRefused, whole] at fits
    exact (membersRefused_named _ named).mp fits member before

/-- What is in effect under a name once a value is set there: the value laid over
what the program had set, and this over what the file and the defaults have. -/
theorem lookup_combine_single (file : Value) (identity : Identity) (v : Value)
    {environment : Environment} (apart : key ≠ Value.parentName) (named : Named program.ownMembers)
    (free : environment.Avoids key) :
    (combine file (layer program (.plain identity [(key, v)])) environment).ownMembers.lookup key =
      some (overlay (under (layer defaults file) key) (overlay (under program key) v)) := by
  have grown := named.define apart (overlay (under program key) v)
  have laid := lookup_overlayMembers (layer defaults file).ownMembers _ key grown.distinct
    grown.unparented
  rw [Members.lookup_define, if_pos rfl] at laid
  rw [combine, lookup_layer _ (objectTree_environmentLayer environment), lookup_environmentLayer free,
    layer_single program identity apart]
  exact laid

/-- The program's layer is an object without a name twice or one for a parent, and
the file's can be laid over the defaults. -/
structure Loaded.Orderly (loaded : Loaded) : Prop where
  named : Named loaded.programmatic.ownMembers
  whole : loaded.programmatic.enumerable = loaded.programmatic.ownMembers
  file : layerRefused defaults loaded.file = false

theorem enumerable_layer (lower upper : Value) :
    (layer lower upper).enumerable = (layer lower upper).ownMembers := by
  obtain ⟨parent, members, made⟩ := layer_made lower upper
  rw [made]
  rfl

theorem upheld_orderly :
    Session.Upheld (fun _ => True) (fun values => (values.ownMembers.map Prod.fst).Nodup)
      Loaded.Orderly where
  load _ load := by
    obtain ⟨_, _, fits, rfl, _⟩ := load_ok.mp load
    exact ⟨⟨List.nodup_nil, List.not_mem_nil⟩, rfl, (combineRefused_eq_false_iff.mp fits).1⟩
  extend {loaded values environment} orderly distinct := by
    obtain ⟨file, program, -⟩ := loaded.extend_layers values environment
    have grown : Named (lay loaded.programmatic values).ownMembers ∧
        (lay loaded.programmatic values).enumerable =
          (lay loaded.programmatic values).ownMembers := by
      unfold lay
      split
      · exact ⟨orderly.named, orderly.whole⟩
      · exact ⟨named_layer _ orderly.named distinct, enumerable_layer _ _⟩
    exact ⟨program ▸ grown.1, program ▸ grown.2, file ▸ orderly.file⟩

end Settings

namespace Session

open Settings

variable {session : Session} {loaded : Loaded} {key : String}

/-- An object is read under a name that it has itself. -/
theorem answers_get (single : segments key = [key]) {parent : Value} {members : Members}
    (made : loaded.effective = .object .merged parent members) {v : Value}
    (found : loaded.effective.ownMembers.lookup key = some v) :
    (session.opened loaded).answers [.get key] = [.value v] := by
  rw [made] at found
  have own : members.lookup key = some v := found
  have readable : (Value.object .merged parent members).refusesReading key = false := by
    simp [Value.refusesReading, Value.workedOutBy?, own]
  have answer : ((session.opened loaded).perform (.get key)).answer = .value v := by
    simp [perform, accessed, Settings.get, readAt, Loaded.refuses, Loaded.at, single, made,
      followRefused, follow, Value.isRecord, readable, member_of_own own]
  simp [answers, events, Event.effect, answer]

section

variable {lines : List Line} {v : Value}

/-- What is read under a name right after a set of it that goes through. -/
theorem answers_set_get (orderly : loaded.Orderly)
    (ready : Settings.ensure session.around session.store = .ok (loaded, lines))
    (single : segments key = [key]) (apart : key ≠ Value.parentName)
    (free : session.around.environment.Avoids key) (identity : Identity)
    (done : (session.perform (.set (.plain identity [(key, v)]))).answer.isFault = false) :
    session.answers [.set (.plain identity [(key, v)]), .get key] =
      [.done, .value (overlay (under (layer defaults loaded.file) key)
        (overlay (under loaded.programmatic key) v))] := by
  rw [perform_of_loading rfl ready] at done
  have answer := opened_perform_set_answer session loaded (.plain identity [(key, v)])
  rw [answers_of_loading rfl ready]
  rcases loaded.extend_cases (.plain identity [(key, v)]) session.around.environment with
    ⟨⟨fault, wrong⟩, _⟩ | ⟨right, fits, _, next⟩
  · rw [wrong] at answer
    cases answer.symm.trans done
  · rw [answers_opened_done (Prod.ext right next)]
    obtain ⟨parent, members, made⟩ := layer_made
      (layer (layer defaults loaded.file) (layer loaded.programmatic (.plain identity [(key, v)])))
      (environmentLayer session.around.environment)
    rw [answers_get single (by rw [fits]; exact made)
      (by rw [fits]; exact lookup_combine_single loaded.file identity v apart orderly.named free)]

/-- A set of a value that meets no object goes through on settings that no earlier
set has spoiled. -/
theorem done_of_fits (orderly : loaded.Orderly)
    (ready : Settings.ensure session.around session.store = .ok (loaded, lines))
    (apart : key ≠ Value.parentName) (identity : Identity)
    (fits : layerRefused (layer defaults loaded.file) loaded.programmatic = false)
    (passes : Passes v
      [under (layer defaults loaded.file) key, under loaded.programmatic key]) :
    (session.perform (.set (.plain identity [(key, v)]))).answer.isFault = false := by
  rw [perform_of_loading rfl ready]
  refine (opened_perform_set_answer session loaded (.plain identity [(key, v)])).trans ?_
  have laid := layerRefused_single loaded.programmatic identity apart (passes.of_mem (by simp))
  have whole : combineRefused loaded.file (layer loaded.programmatic (.plain identity [(key, v)]))
      session.around.environment = false :=
    combineRefused_eq_false_iff.mpr ⟨orderly.file,
      layerRefused_layer_single identity apart orderly.named orderly.whole fits passes,
      layerRefused_tree _ (objectTree_environmentLayer _)⟩
  have given : (Value.plain identity [(key, v)]).isGiven = true := rfl
  simp [Loaded.extend, given, laid, whole, Except.toBool]

end

end Session
open Settings

/-- A path without dots is one name. -/
theorem segments_of_dotless {path : String} (dotless : '.' ∉ path.toList) :
    segments path = [path] := by
  have whole : ∀ cs : List Char, '.' ∉ cs → splitDots cs = [cs] := by
    intro cs dotless
    induction cs with
    | nil => rfl
    | cons c rest ih =>
      obtain ⟨apart, later⟩ := not_or.mp (List.mem_cons.not.mp dotless)
      rw [splitDots, ih later]
      exact fun same => apart same.symm
  rw [segments, whole _ dotless, List.map_singleton, String.ofList_toList]

/-- In settings that no set has spoiled the program's layer can be laid over the file's. -/
theorem fits_after (around : Surroundings) (operations : List Operation) {loaded : Loaded}
    {lines : List Line} :
    let events := (Session.fresh around).events operations
    let now := (Session.fresh around).after operations
    Settings.ensure now.around now.store = .ok (loaded, lines) →
    (∀ event ∈ sinceLoaded events, event.isFutile = false) →
      layerRefused (layer defaults loaded.file) loaded.programmatic = false := by
  intro events now ready clean
  rcases told_of_run around operations with
    ⟨_, remains, store⟩ | ⟨loading, rest, told, since, store, tells⟩
  · rw [show now.store = .unloaded remains from store] at ready
    obtain ⟨_, _, fits, rfl, _⟩ := load_ok.mp ready
    exact (combineRefused_eq_false_iff.mp fits).2.1
  · rw [show now.store = .loaded told from store] at ready
    cases ready
    exact tells.fits (since ▸ clean)

/-- The last set wins. In every session, a value that is set under a name of its own
is what is read under that name right afterwards, unless it is an object and so is
something below it, in the program's layer or in the file or the defaults. Then an
object is read that is made for the occasion. The set goes through unless an earlier
one went wrong since the settings were loaded. -/
theorem latest_set_wins (around : Surroundings) (operations : List Operation)
    (distinct : ∀ values, .set values ∈ operations → (values.ownMembers.map Prod.fst).Nodup)
    (key : String) (dotless : '.' ∉ key.toList) (apart : key ≠ Value.parentName)
    (identity : Identity) (v : Value) :
    let events := (Session.fresh around).events operations
    let now := (Session.fresh around).after operations
    let set : Operation := .set (.plain identity [(key, v)])
    now.around.environment.Avoids key →
    ∀ loaded lines, Settings.ensure now.around now.store = .ok (loaded, lines) →
      let below := [under (layer defaults loaded.file) key, under loaded.programmatic key]
      (Passes v below →
        ((∀ event ∈ sinceLoaded events, event.isFutile = false) →
          (now.perform set).answer.isFault = false) ∧
        ((now.perform set).answer.isFault = false →
          now.answers [set, .get key] = [.done, .value v])) ∧
      (¬ Passes v below → (now.perform set).answer.isFault = false →
        ∃ parent members, now.answers [set, .get key] =
          [.done, .value (.object .merged parent members)]) := by
  intro events now set free loaded lines ready below
  have start : (Session.fresh around).Holds (fun _ => True) Loaded.Orderly := ⟨trivial, nofun⟩
  have orderly :=
    (start.after upheld_orderly distinct fun _ _ => trivial).ensure upheld_orderly ready
  have read := fun done => Session.answers_set_get orderly ready (segments_of_dotless dotless) apart
    free identity (v := v) done
  refine ⟨fun passes => ⟨fun clean => ?_, fun done => ?_⟩, fun meets done => ?_⟩
  · exact Session.done_of_fits orderly ready apart identity
      (fits_after around operations ready clean) passes
  · rw [read done, (passes.of_mem (by simp [below])).overlay_eq,
      (passes.of_mem (by simp [below])).overlay_eq]
  · obtain ⟨parent, members, made⟩ := overlay_merged_twice meets
    exact ⟨parent, members, by rw [read done, made]⟩

/-- A date is set where there was a text. -/
theorem latest_set_wins_date :
    let date := Value.instanceOf "Date" (.named "d") []
    let operations : List Operation := [.set (.plain (.written 0) [("when", .text "now")])]
    let now := (Session.fresh ⟨[], .empty⟩).after operations
    '.' ∉ "when".toList ∧ "when" ≠ Value.parentName ∧
      now.answers [.set (.plain (.written 1) [("when", date)]), .get "when"] =
        [.done, .value date] := by
  intro date operations now
  have dotless : '.' ∉ "when".toList := by decide
  have distinct : ∀ values, .set values ∈ operations → (values.ownMembers.map Prod.fst).Nodup := by
    intro values member
    obtain rfl : values = .plain (.written 0) [("when", .text "now")] := by
      simpa [operations] using member
    simp [Value.plain, Value.ownMembers]
  obtain ⟨wins, -⟩ := latest_set_wins ⟨[], .empty⟩ operations distinct "when" dotless (by decide)
    (.written 1) date (fun _ held => absurd held List.not_mem_nil) _ [] rfl
  have passes : Passes date [.undefined, .text "now"] := Or.inr (by decide)
  obtain ⟨-, read⟩ := wins passes
  exact ⟨dotless, by decide, read rfl⟩

/-- A date does not come out where there was an object: it is laid over the default
settings of logging, and nothing of it is left. -/
theorem date_laid_over_default :
    ¬ ∀ (around : Surroundings) (operations : List Operation) (key : String) (identity : Identity)
      (v : Value),
      (∀ values, .set values ∈ operations → (values.ownMembers.map Prod.fst).Nodup) →
      '.' ∉ key.toList → key ≠ Value.parentName →
      ((Session.fresh around).after operations).around.environment.Avoids key →
      (v.isRecord = false ∨ ∃ className id members, v = .instanceOf className id members) →
      ((Session.fresh around).after operations).answers
        [.set (.plain identity [(key, v)]), .get key] = [.done, .value v] := by
  intro wins
  let date := Value.instanceOf "Date" (.named "d") []
  have claimed := wins ⟨[], .empty⟩ [] "log" (.written 0) date
    (fun _ held => absurd held List.not_mem_nil) (by decide) (by decide)
    (fun _ held => absurd held List.not_mem_nil) (Or.inr ⟨_, _, _, rfl⟩)
  have found : (Session.fresh ⟨[], .empty⟩).answers
      [.set (.plain (.written 0) [("log", date)]), .get "log"] =
        [.done, .value (.plain .merged [("level", .text "warn")])] := rfl
  have same := claimed.symm.trans found
  simp [date, Value.instanceOf, Value.plain] at same

end NamedArguments
