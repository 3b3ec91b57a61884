import NamedArguments.Proofs.ExtractionExits
import NamedArguments.Proofs.SessionSteps

/-! Faults that list keys. The message of such a fault is worded from the keys
that it is stated of, and its list is sifted out of them afterwards. The first
key that names nothing keeps the message from being worded, so that what is
listed is always the whole list, and the message names just the keys listed. -/
namespace NamedArguments

/-- A text or a symbol. -/
def Value.Nameable (v : Value) : Prop := v.kind = "string" ∨ v.kind = "symbol"

theorem Value.namesArgument_iff_nameable (v : Value) : v.namesArgument = true ↔ v.Nameable := by
  cases v with
  | ancestor family => cases family <;> simp [namesArgument, Keyword.ofValue?, Nameable, kind]
  | _ => simp [namesArgument, Keyword.ofValue?, Nameable, kind]

/-- A list is made of texts and symbols, or there is a first element that is
neither. -/
theorem nameable_or_first (keys : List Value) :
    ((∀ key ∈ keys, key.Nameable) ∧ ∃ keywords : List Keyword, keys = keywords.map Keyword.value) ∨
      ∃ (keywords : List Keyword) (key : Value) (rest : List Value),
        keys = keywords.map Keyword.value ++ key :: rest ∧ ¬ key.Nameable := by
  rcases keywords_or_nameless keys with ⟨keywords, rfl⟩ | ⟨keywords, key, rest, split, nameless⟩
  · refine Or.inl ⟨fun key member => ?_, keywords, rfl⟩
    obtain ⟨keyword, _, named⟩ := List.mem_map.mp member
    exact key.namesArgument_iff_nameable.mp (namesArgument_iff.mpr ⟨keyword, named⟩)
  · refine Or.inr ⟨keywords, key, rest, split, fun names => ?_⟩
    rw [key.namesArgument_iff_nameable.mpr names] at nameless
    cases nameless

/-- The message for keywords, by how many there are. -/
def wording (label : String) : List Keyword → String
  | [] => label ++ " keyword"
  | [keyword] => label ++ " keyword: " ++ keyword.name
  | keywords => label ++ " keywords: " ++ String.intercalate ", " (keywords.map Keyword.name)

theorem Reason.message_names (reason : Reason) (keywords : List Keyword) :
    reason.message (keywords.map Keyword.name) = wording reason.label keywords := by
  match keywords with
  | [] => simp [message, wording]
  | [keyword] =>
    have alone : String.intercalate ", " [keyword.name] = keyword.name := rfl
    have ending : " keyword" ++ ": " = " keyword: " := rfl
    simp [message, wording, String.append_assoc, alone, ← ending]
  | first :: second :: rest =>
    have ending : " keyword" ++ ("s" ++ ": ") = " keywords: " := rfl
    simp [message, wording, String.append_assoc, ← ending]

theorem Reason.describe_keywords (reason : Reason) (keywords : List Keyword) :
    reason.describe (keywords.map Keyword.value) = .ok (wording reason.label keywords) := by
  simp only [describe, printedNames_keywords, reason.message_names]

namespace Fault

/-- The keys that a fault lists. -/
def listed : Fault → Option (List Value)
  | .missing keyword => some [keyword.value]
  | .unknown (.keywords keywords) => some (keywords.map Keyword.value)
  | .argument _ (.keywords keywords) => some (keywords.map Keyword.value)
  | _ => none

/-- An attempt to state a fault for a reason and of some keys, and the fault that
it is meant to give for keywords: one that a caller states for a reason of its
own, one of unknown keys, and one of a single missing key. -/
inductive Stating : Reason → List Value → (List Keyword → Fault) → Except Fault Fault → Prop where
  | argument {given : Value} {reason : Reason} (written : Reason.ofValue? given = some reason)
      (identity : Identity) (keys : List Value) :
      Stating reason keys (fun keywords => .argument reason (.keywords keywords))
        (ofArgument given (.list identity keys))
  | unknown (identity : Identity) (keys : List Value) :
      Stating .unknown keys (fun keywords => .unknown (.keywords keywords))
        (ofUnknownGiven (.list identity keys))
  | missing (key : Value) {fault : List Keyword → Fault}
      (single : ∀ keyword, fault [keyword] = .missing keyword) :
      Stating .missing [key] fault (ofMissing key)

section

variable {reason : Reason} {keys : List Value} {fault : List Keyword → Fault}
  {attempt : Except Fault Fault}

/-- Stated of keywords, a fault lists them all and its message names them all. -/
theorem Stating.keywords (stating : Stating reason keys fault attempt) {keywords : List Keyword}
    (named : keys = keywords.map Keyword.value) :
    attempt = .ok (fault keywords) ∧ (fault keywords).listed = some keys ∧
      (fault keywords).message = some (wording reason.label keywords) := by
  cases stating with
  | argument written identity =>
    subst named
    refine ⟨?_, rfl, congrArg some (reason.message_names keywords)⟩
    simp only [ofArgument, written, rejectedGiven, rejected_keywords]
  | unknown identity =>
    subst named
    refine ⟨?_, rfl, congrArg some (Reason.unknown.message_names keywords)⟩
    simp only [ofUnknownGiven, rejectedGiven, rejected_keywords]
  | missing key single =>
    obtain ⟨keyword, rfl, rfl⟩ := List.map_eq_singleton_iff.mp named.symm
    rw [single]
    exact ⟨ofMissing_value keyword, rfl, congrArg some (Reason.missing.message_names [keyword])⟩

/-- Stated of anything else, a fault gives way to that of the first key that is
no keyword. -/
theorem Stating.nameless (stating : Stating reason keys fault attempt) {keywords : List Keyword}
    {key : Value} {rest : List Value} (split : keys = keywords.map Keyword.value ++ key :: rest)
    (nameless : key.namesArgument = false) : attempt = .error (.ofNonKeyword key) := by
  cases stating with
  | argument written identity =>
    subst split
    simp only [ofArgument, written, rejectedGiven, rejected_nameless _ _ _ _ nameless]
  | unknown identity =>
    subst split
    simp only [ofUnknownGiven, rejectedGiven, rejected_nameless _ _ _ _ nameless]
  | missing only =>
    cases keywords with
    | cons keyword others => simp at split
    | nil =>
      cases split
      have unnamed : Keyword.ofValue? key = none := by simpa [Value.namesArgument] using nameless
      simp only [ofMissing, unnamed]

end

theorem ofNonKeyword_ne_unknown (key : Value) (listing : Listing) :
    ofNonKeyword key ≠ .unknown listing := by
  unfold ofNonKeyword
  split <;> nofun

/-- Keys that raise a fault of unknown keys are keywords, all listed in it. -/
theorem unknown_of_raised {keys : List Value} {listing : Listing}
    (raised : raised (ofUnknown keys) = .unknown listing) :
    ∃ keywords : List Keyword, keys = keywords.map Keyword.value ∧ listing = .keywords keywords := by
  rcases keywords_or_nameless keys with ⟨keywords, rfl⟩ | ⟨keywords, key, rest, rfl, nameless⟩
  · rw [ofUnknown, rejected_keywords] at raised
    exact ⟨keywords, rfl, (Fault.unknown.inj raised).symm⟩
  · rw [ofUnknown, rejected_nameless _ _ _ _ nameless] at raised
    exact absurd raised (ofNonKeyword_ne_unknown key listing)

end Fault

namespace Extraction

variable {σ : Type} {listing : Listing}

theorem missingKey_ne_unknown (now : Progress σ) (key : Value) :
    (missingKey now key).outcome ≠ .error (.unknown listing) := by
  intro raised
  cases named : Keyword.ofValue? key with
  | some keyword =>
    simp [missingKey, Value.printedName, named, failWith, Fault.ofMissing, Fault.raised] at raised
  | none =>
    simp only [missingKey, Value.printedName, named, failWith, Except.error.injEq] at raised
    exact Fault.ofNonKeyword_ne_unknown key listing raised

/-- Only the check for others raises the fault of unknown keys, and it raises it
for the remaining keys that the schema does not declare. -/
theorem checkRest_unknown {mapping : Mapping σ} {modes : Modes} {schema : Schema} {total : Extent}
    {now : Progress σ}
    (raised : (checkRest mapping modes schema total now).outcome = .error (.unknown listing)) :
    ∃ declared asked, schema.keywords = .ok declared ∧
      Fault.raised (Fault.ofUnknown
        ((mapping.keys asked).1.filter fun key => !key.inKeys declared)) = .unknown listing := by
  unfold checkRest at raised
  split at raised
  · cases raised
  · split at raised
    · cases raised
    next asked _ =>
      split at raised
      next fault keys =>
        unfold Schema.keywords at keys
        split at keys
        · cases keys
        · cases keys
          cases raised
      next declared keys => exact ⟨declared, asked.mapping, keys, Except.error.inj raised⟩

theorem run_unknown {checked : Bool} {m : Option (Mapping σ)} {modes : Modes} {schema : Schema}
    {total : Extent} {buffer : Option Buffer} {state : σ}
    (raised : (run checked m modes schema total buffer state).outcome = .error (.unknown listing)) :
    ∃ mapping declared asked, m = some mapping ∧ schema.keywords = .ok declared ∧
      Fault.raised (Fault.ofUnknown
        ((mapping.keys asked).1.filter fun key => !key.inKeys declared)) = .unknown listing := by
  unfold run at raised
  split at raised
  · cases raised
  · split at raised
    · cases raised
    · dsimp only at raised
      split at raised
      · exact absurd raised (missingKey_ne_unknown _ _)
      · cases m with
        | none => cases raised
        | some mapping =>
          simp only [afterRequired] at raised
          split at raised
          · cases raised
          · split at raised
            · obtain ⟨declared, asked, keys, stated⟩ := checkRest_unknown raised
              exact ⟨mapping, declared, asked, rfl, keys, stated⟩
            · cases raised

theorem ensure_ne_unknown {around : Settings.Surroundings} {store : Settings.Store}
    {stop : Settings.Stop} (stuck : Settings.ensure around store = .error stop) :
    stop.fault ≠ .unknown listing := by
  cases store with
  | loaded => cases stuck
  | unloaded before =>
    rcases Settings.load_error.mp stuck with ⟨fault, given, rfl⟩ | ⟨found, _, _, rfl⟩
    · obtain ⟨thrown, -, rfl⟩ := Settings.Finder.layer_error.mp given
      nofun
    · nofun

theorem total_ne_unknown {schema : Schema} {fault : Fault} (uncounted : schema.total = .error fault) :
    fault ≠ .unknown listing := by
  unfold Schema.total at uncounted
  split at uncounted
  · split at uncounted
    · cases uncounted
    · cases uncounted
      nofun
  · cases uncounted
    nofun

/-- An extraction raises the fault of unknown keys for keys that its mapping
answered and its schema does not declare. -/
theorem underSettings_unknown {around : Settings.Surroundings} {store : Settings.Store}
    {m : Option (Mapping σ)} {schema : Schema} {buffer : Option Buffer} {request : Request} {state : σ}
    (raised : (underSettings around store m schema buffer request state).outcome =
      .error (.unknown listing)) :
    ∃ mapping declared asked, m = some mapping ∧ schema.keywords = .ok declared ∧
      Fault.raised (Fault.ofUnknown
        ((mapping.keys asked).1.filter fun key => !key.inKeys declared)) = .unknown listing := by
  simp only [underSettings] at raised
  split at raised
  next fault uncounted =>
    exact absurd (Except.error.inj raised) (total_ne_unknown uncounted)
  next total _ =>
    split at raised
    next stop stuck => exact absurd (Except.error.inj raised) (ensure_ne_unknown stuck)
    next => exact run_unknown raised

end Extraction

/-- Stating a fault of keys whose types can be named succeeds just where all of
them are texts or symbols. Then the fault lists the keys as they were given, and
its message, which is that of all keys given, starts with the reason and names
the same keys in the same order. Otherwise the first key that is neither is at
fault. So it is with every fault of unknown keys that an extraction raises: it
lists what is left of the keys that the mapping answered, and names these. -/
theorem rejected_keys_exact :
    (∀ (reason : Reason) (keys : List Value) (fault : List Keyword → Fault)
        (attempt : Except Fault Fault), Fault.Stating reason keys fault attempt →
      (∀ key ∈ keys, key.typeName?.isSome = true) →
      ((∃ made, attempt = .ok made) ↔ ∀ key ∈ keys, key.Nameable) ∧
      (∀ made, attempt = .ok made →
        ∃ (keywords : List Keyword) (text : String), keywords.map Keyword.value = keys ∧
          made = fault keywords ∧ made.listed = some keys ∧
          reason.describe keys = .ok text ∧ made.message = some text ∧
          text = wording reason.label keywords) ∧
      ((¬ ∀ key ∈ keys, key.Nameable) →
        ∃ before key after typeName, keys = before ++ key :: after ∧
          (∀ other ∈ before, other.Nameable) ∧ ¬ key.Nameable ∧
          key.typeName? = some typeName ∧ attempt = .error (.wrongType key typeName))) ∧
    ∀ {σ : Type} (around : Settings.Surroundings) (store : Settings.Store)
      (m : Option (Mapping σ)) (schema : Schema) (buffer : Option Buffer)
      (request : Extraction.Request) (state : σ) (listing : Listing),
      (Extraction.underSettings around store m schema buffer request state).outcome =
        .error (.unknown listing) →
      ∃ (mapping : Mapping σ) (asked : σ) (declared : List Value) (keywords : List Keyword),
        m = some mapping ∧ schema.keywords = .ok declared ∧
        (mapping.keys asked).1.filter (fun key => !key.inKeys declared) =
          keywords.map Keyword.value ∧
        (Fault.unknown listing).listed = some (keywords.map Keyword.value) ∧
        (Fault.unknown listing).message = some (wording "unknown" keywords) := by
  refine ⟨fun reason keys fault attempt stating printable => ?_, ?_⟩
  · rcases nameable_or_first keys with ⟨all, keywords, named⟩ | ⟨keywords, key, rest, split, unnamed⟩
    · obtain ⟨stated, lists, message⟩ := stating.keywords named
      refine ⟨⟨fun _ => all, fun _ => ⟨_, stated⟩⟩, fun made given => ?_, fun other => absurd all other⟩
      rw [stated] at given
      cases given
      refine ⟨keywords, _, named.symm, rfl, lists, ?_, message, rfl⟩
      rw [named]
      exact reason.describe_keywords keywords
    · have nameless : key.namesArgument = false :=
        Bool.not_eq_true _ ▸ mt key.namesArgument_iff_nameable.mp unnamed
      have failed := stating.nameless split nameless
      have inside : key ∈ keys := by simp [split]
      obtain ⟨typeName, printed⟩ := Option.isSome_iff_exists.mp (printable key inside)
      have early : ∀ other ∈ keywords.map Keyword.value, other.Nameable := by
        intro other member
        obtain ⟨keyword, _, same⟩ := List.mem_map.mp member
        exact other.namesArgument_iff_nameable.mp (namesArgument_iff.mpr ⟨keyword, same⟩)
      refine ⟨⟨?_, fun all => absurd (all key inside) unnamed⟩, ?_, fun _ => ?_⟩
      · rintro ⟨made, given⟩
        rw [failed] at given
        cases given
      · intro made given
        rw [failed] at given
        cases given
      · refine ⟨_, key, rest, typeName, split, early, unnamed, printed, ?_⟩
        rw [failed, Fault.ofNonKeyword_of_typeName printed]
  · intro σ around store m schema buffer request state listing raised
    obtain ⟨mapping, declared, asked, present, keys, stated⟩ :=
      Extraction.underSettings_unknown raised
    obtain ⟨keywords, named, rfl⟩ := Fault.unknown_of_raised stated
    exact ⟨mapping, asked, declared, keywords, present, keys, named, rfl,
      congrArg some (Reason.unknown.message_names keywords)⟩

/-- A caller states three keys to be missing, one of them a symbol and one given
twice, and then a list with null in it; and an extraction finds a key that its
schema does not declare. -/
theorem rejected_keys_exact_each_way :
    let missing (keys : List Value) := Fault.ofArgument (.text "missing") (.list .merged keys)
    let keys : List Value := [.text "a", .symbol "s" (some "b"), .text "a"]
    let outcome := (Extraction.extract ⟨[], .empty⟩ (.loaded Extraction.untouched)
      (some (.ofList [(.text "x", .null)])) (.ofLists [] [] (.bool false)) none .silent).outcome
    (∃ made, missing keys = .ok made ∧ made.listed = some keys ∧
        made.message = some "missing keywords: a, b, a") ∧
      missing [.text "a", .null, .undefined] = .error (.wrongType .null "null") ∧
      outcome = .error (.unknown (.keywords [.text "x"])) ∧
      (Fault.unknown (.keywords [.text "x"])).message = some "unknown keyword: x" := by
  intro missing keys outcome
  have stating := fun keys => rejected_keys_exact.1 (.stated (.text "missing") "missing") keys _ _
    (.argument (show Reason.ofValue? (.text "missing") = _ from rfl) .merged keys)
  refine ⟨?_, ?_, rfl, ?_⟩
  · obtain ⟨succeeds, gives, _⟩ := stating keys (by simp [keys, Value.typeName?])
    obtain ⟨made, given⟩ := succeeds.mpr (by simp [keys, Value.Nameable, Value.kind])
    obtain ⟨_, _, _, rfl, lists, described, message, _⟩ := gives made given
    cases described
    exact ⟨_, given, lists, message⟩
  · obtain ⟨before, key, after, typeName, split, early, unnamed, printed, failed⟩ :=
      (stating [.text "a", .null, .undefined] (by simp [Value.typeName?])).2.2
        (by simp [Value.Nameable, Value.kind])
    rcases before with _ | ⟨first, _ | ⟨second, others⟩⟩
    · cases split
      exact absurd (Or.inl rfl) unnamed
    · cases split
      cases printed
      exact failed
    · obtain ⟨_, rfl, _⟩ := by simpa using split
      exact absurd (early .null (by simp)) (by simp [Value.Nameable, Value.kind])
  · obtain ⟨_, _, _, keywords, _, _, _, lists, message⟩ := rejected_keys_exact.2 ⟨[], .empty⟩
      (.loaded Extraction.untouched) (some ArgumentMap.mapping) (.ofLists [] [] (.bool false)) none
      .silent (.ofList [(.text "x", .null)]) (.keywords [.text "x"]) rfl
    obtain ⟨keyword, rfl, same⟩ := List.map_eq_singleton_iff.mp (Option.some.inj lists).symm
    cases keyword <;> cases same
    exact message

end NamedArguments
