import NamedArguments.Proofs.ArgumentLookup
import NamedArguments.Proofs.BufferWrites

/-! What the passes of an extraction leave behind. Both passes visit keys one
after the other, and the required one stops behind the first key that is not
found. On arguments the result of visiting different keys can be computed from
the arguments before: the found keys are removed if keys are consumed, every
answer is in its slot if values are written, and each found key counts. -/
namespace NamedArguments.Extraction

variable {σ : Type}

/-- Visits keys one after the other, whatever is found. -/
def visitAll (m : Option (Mapping σ)) (modes : Modes) (index : Nat) :
    List Value → Progress σ → Progress σ
  | [], now => now
  | key :: rest, now => visitAll m modes (index + 1) rest (visit m modes (some index) key now).2

theorem visitAll_append (m : Option (Mapping σ)) (modes : Modes) (index : Nat)
    (keys others : List Value) (now : Progress σ) :
    visitAll m modes index (keys ++ others) now =
      visitAll m modes (index + keys.length) others (visitAll m modes index keys now) := by
  induction keys generalizing index now with
  | nil => rfl
  | cons key rest ih =>
    have moved : index + (rest.length + 1) = index + 1 + rest.length := by omega
    rw [List.cons_append, visitAll, ih, visitAll, List.length_cons, moved]

/-- Behind a required half that is a list every optional key has a slot. -/
theorem optionalPass_eq_visitAll (m : Option (Mapping σ)) (modes : Modes) (base index : Nat)
    (keys : List Value) (now : Progress σ) :
    optionalPass m modes (.count base) index keys now =
      (visitAll m modes (base + index) keys now, true) := by
  induction keys generalizing index now with
  | nil => rfl
  | cons key rest ih =>
    simp only [optionalPass, Extent.slot?, ih, visitAll]
    rw [Nat.add_assoc]

/-- What arguments are left once keys are visited. -/
def taken (modes : Modes) (args : ArgumentMap) (keys : List Value) : ArgumentMap :=
  if modes.consume then args.without (keys.filter args.finds) else args

/-- What a buffer holds once values are recorded from a slot on. -/
def recorded (modes : Modes) (buffer : Option Buffer) (start : Nat) (values : List Value) :
    Option Buffer :=
  if modes.write then buffer.map (·.writeAll start values) else buffer

theorem recorded_cons (modes : Modes) (buffer : Option Buffer) (start : Nat) (v : Value)
    (rest : List Value) :
    recorded modes buffer start (v :: rest) =
      recorded modes (record modes buffer (some start) v) (start + 1) rest := by
  cases buffer <;> cases modes.write <;> simp_all [recorded, record, Buffer.writeAll]

theorem lookup_taken_of_ne (modes : Modes) (args : ArgumentMap) {key other : Value}
    (apart : other.key ≠ key.key) :
    (taken modes args [key]).lookup other = args.lookup other := by
  cases consuming : modes.consume with
  | false => simp [taken, consuming]
  | true =>
    cases found : args.finds key with
    | false => simp [taken, consuming, found]
    | true =>
      simpa [taken, consuming, found] using ArgumentMap.lookup_erase_of_ne args apart

theorem finds_taken_of_ne (modes : Modes) (args : ArgumentMap) {key other : Value}
    (apart : other.key ≠ key.key) :
    (taken modes args [key]).finds other = args.finds other := by
  simp only [ArgumentMap.finds_eq, lookup_taken_of_ne modes args apart]

theorem taken_cons (modes : Modes) (args : ArgumentMap) (key : Value) (rest : List Value)
    (apart : ∀ other ∈ rest, other.key ≠ key.key) :
    taken modes args (key :: rest) = taken modes (taken modes args [key]) rest := by
  have same : ∀ other ∈ rest, (taken modes args [key]).finds other = args.finds other :=
    fun other member => finds_taken_of_ne modes args (apart other member)
  cases consuming : modes.consume with
  | false => simp [taken, consuming]
  | true =>
    simp only [taken, consuming, ↓reduceIte] at same ⊢
    rw [List.filter_congr same]
    cases found : args.finds key <;> simp [found]

/-- A visit answers what is stored, removes the key if it is found and keys are
consumed, and counts it if it is found. -/
theorem visit_arguments (modes : Modes) (slot : Option Nat) (key : Value)
    (now : Progress ArgumentMap) :
    visit (some ArgumentMap.mapping) modes slot key now =
      (now.mapping.lookup key,
        { mapping := taken modes now.mapping [key]
          buffer := record modes now.buffer slot (now.mapping.lookup key)
          found := now.found + [key].countP now.mapping.finds }) := by
  have found := ArgumentMap.finds_eq now.mapping key
  cases absent : (now.mapping.lookup key).isAbsent <;> cases consuming : modes.consume <;>
    simp [visit, lookUp, ArgumentMap.mapping, taken, absent, consuming, found]

/-- Without a mapping a visit goes as over empty arguments. -/
theorem visit_nothing (modes : Modes) (slot : Option Nat) (key : Value)
    (now : Progress ArgumentMap) (empty : now.mapping = .empty) :
    visit none modes slot key now = visit (some ArgumentMap.mapping) modes slot key now := by
  rw [visit_arguments]
  simp [visit, lookUp, taken, empty, Value.isAbsent]

/-- Visiting different keys leaves what can be computed from the arguments and
the buffer before. -/
theorem visitAll_arguments (modes : Modes) (index : Nat) (keys : List Value)
    (distinct : (keys.map Value.key).Nodup) (now : Progress ArgumentMap) :
    visitAll (some ArgumentMap.mapping) modes index keys now =
      { mapping := taken modes now.mapping keys
        buffer := recorded modes now.buffer index (keys.map now.mapping.lookup)
        found := now.found + keys.countP now.mapping.finds } := by
  induction keys generalizing index now with
  | nil =>
    obtain ⟨mapping, buffer, found⟩ := now
    cases buffer <;> simp [visitAll, taken, recorded, Buffer.writeAll]
  | cons key rest ih =>
    obtain ⟨fresh, distinctRest⟩ := List.nodup_cons.mp distinct
    have apart := apart_of_fresh fresh
    have answers : rest.map (taken modes now.mapping [key]).lookup = rest.map now.mapping.lookup :=
      List.map_congr_left fun other member => lookup_taken_of_ne modes _ (apart other member)
    have counts : rest.countP (taken modes now.mapping [key]).finds =
        rest.countP now.mapping.finds :=
      List.countP_congr fun other member => by
        rw [finds_taken_of_ne modes _ (apart other member)]
    rw [visitAll, visit_arguments, ih _ distinctRest]
    simp only [answers, counts, List.map_cons, recorded_cons,
      taken_cons modes now.mapping key rest apart, List.countP_cons, List.countP_nil]
    congr 1
    omega

/-- Where all required keys are found, the required pass visits them all. -/
theorem requiredPass_found (modes : Modes) (index : Nat) (keys : List Value)
    (distinct : (keys.map Value.key).Nodup) (now : Progress ArgumentMap)
    (found : ∀ key ∈ keys, now.mapping.finds key = true) :
    requiredPass (some ArgumentMap.mapping) modes index keys now =
      (visitAll (some ArgumentMap.mapping) modes index keys now, none) := by
  induction keys generalizing index now with
  | nil => rfl
  | cons key rest ih =>
    obtain ⟨fresh, distinctRest⟩ := List.nodup_cons.mp distinct
    have given : (now.mapping.lookup key).isAbsent = false := by
      simpa [ArgumentMap.finds_eq] using found key (by simp)
    simp only [requiredPass, visitAll, visit_arguments, given, Bool.false_eq_true, ↓reduceIte]
    refine ih _ distinctRest _ fun other member => ?_
    rw [finds_taken_of_ne modes _ (apart_of_fresh fresh other member)]
    exact found other (List.mem_cons_of_mem _ member)

/-- The required pass stops once it has visited the first key not found. -/
theorem requiredPass_missing (modes : Modes) (index : Nat) (before : List Value) (key : Value)
    (after : List Value) (distinct : ((before ++ [key]).map Value.key).Nodup)
    (now : Progress ArgumentMap) (found : ∀ other ∈ before, now.mapping.finds other = true)
    (missing : now.mapping.finds key = false) :
    requiredPass (some ArgumentMap.mapping) modes index (before ++ key :: after) now =
      (visitAll (some ArgumentMap.mapping) modes index (before ++ [key]) now, some key) := by
  induction before generalizing index now with
  | nil =>
    have absent : (now.mapping.lookup key).isAbsent = true := by
      simpa [ArgumentMap.finds_eq] using missing
    simp [requiredPass, visitAll, visit_arguments, absent]
  | cons first rest ih =>
    obtain ⟨fresh, distinctRest⟩ := List.nodup_cons.mp distinct
    have apart : ∀ other ∈ rest ++ [key], other.key ≠ first.key := apart_of_fresh fresh
    have given : (now.mapping.lookup first).isAbsent = false := by
      simpa [ArgumentMap.finds_eq] using found first (by simp)
    simp only [List.cons_append, requiredPass, visitAll, visit_arguments, given,
      Bool.false_eq_true, ↓reduceIte]
    refine ih _ distinctRest _ (fun other member => ?_) ?_
    · rw [finds_taken_of_ne modes _ (apart other (by simp [member]))]
      exact found other (List.mem_cons_of_mem _ member)
    · rw [finds_taken_of_ne modes _ (apart key (by simp))]
      exact missing

/-- Without a mapping the required pass goes as over empty arguments. -/
theorem requiredPass_nothing (modes : Modes) (index : Nat) (keys : List Value)
    (now : Progress ArgumentMap) (empty : now.mapping = .empty) :
    requiredPass none modes index keys now =
      requiredPass (some ArgumentMap.mapping) modes index keys now := by
  cases keys with
  | nil => rfl
  | cons key rest =>
    simp [requiredPass, visit_nothing modes _ key now empty, visit_arguments, empty, Value.isAbsent]

end NamedArguments.Extraction
