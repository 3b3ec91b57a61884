import NamedArguments.Value

/-!
Buffers that values are extracted into. A buffer is handed over with slots that
may hold something or may never have been assigned. Assigning a slot changes
that slot and nothing else, except that a slot beyond the end makes the buffer
longer.
-/
namespace NamedArguments

/-- Output slots in schema order. -/
structure Buffer where
  /-- The first slots as they were handed over; the others were unassigned. -/
  given : List Slot
  /-- The slots assigned since then with their values, the latest first. -/
  assigned : List (Nat × Value)
  /-- How many slots there are. -/
  length : Nat
  given_fits : given.length ≤ length
  assigned_fits : ∀ entry ∈ assigned, entry.1 < length

namespace Buffer

def ofList (slots : List Slot) : Buffer :=
  { given := slots, assigned := [], length := slots.length, given_fits := Nat.le_refl _
    assigned_fits := by simp }

/-- A buffer of slots that were never assigned. -/
def unassigned (n : Nat) : Buffer :=
  { given := [], assigned := [], length := n, given_fits := Nat.zero_le _
    assigned_fits := by simp }

/-- The slot at an index. -/
def slot (buffer : Buffer) (index : Nat) : Slot :=
  (buffer.assigned.lookup index).or buffer.given[index]?.join

def toList (buffer : Buffer) : List Slot := (List.range buffer.length).map buffer.slot

/-- A buffer with one slot assigned. An assignment beyond the end makes the
buffer longer and leaves the slots between unassigned. -/
def write (buffer : Buffer) (index : Nat) (v : Value) : Buffer :=
  { given := buffer.given
    assigned := (index, v) :: buffer.assigned
    length := max buffer.length (index + 1)
    given_fits := Nat.le_trans buffer.given_fits (Nat.le_max_left _ _)
    assigned_fits := by
      intro entry member
      rcases List.mem_cons.mp member with rfl | before
      · exact Nat.lt_of_lt_of_le (Nat.lt_succ_self _) (Nat.le_max_right _ _)
      · exact Nat.lt_of_lt_of_le (buffer.assigned_fits entry before) (Nat.le_max_left _ _) }

@[simp] theorem length_write (buffer : Buffer) (index : Nat) (v : Value) :
    (buffer.write index v).length = max buffer.length (index + 1) := rfl

/-- Assigning a slot changes that slot and nothing else. -/
theorem slot_write (buffer : Buffer) (index other : Nat) (v : Value) :
    (buffer.write index v).slot other = if other = index then some v else buffer.slot other := by
  by_cases same : other = index
  · simp [slot, write, same]
  · simp [slot, write, List.lookup_cons, beq_eq_false_iff_ne.mpr same, same]

/-- Beyond the end nothing was ever assigned. -/
theorem slot_of_le (buffer : Buffer) {index : Nat} (beyond : buffer.length ≤ index) :
    buffer.slot index = none := by
  have unset : buffer.assigned.lookup index = none := by
    refine List.lookup_eq_none_iff.mpr fun entry member => ?_
    have inside := Nat.lt_of_lt_of_le (buffer.assigned_fits entry member) beyond
    exact bne_iff_ne.mpr (Nat.ne_of_gt inside)
  have outside := Nat.le_trans buffer.given_fits beyond
  simp [slot, unset, List.getElem?_eq_none outside]

@[simp] theorem length_toList (buffer : Buffer) : buffer.toList.length = buffer.length := by
  simp [toList]

theorem getElem?_toList (buffer : Buffer) (index : Nat) :
    buffer.toList[index]? = if index < buffer.length then some (buffer.slot index) else none := by
  simp only [toList, List.getElem?_map]
  split
  next inside => simp [List.getElem?_range inside]
  next outside => simp [Nat.le_of_not_lt outside]

@[simp] theorem toList_ofList (slots : List Slot) : (ofList slots).toList = slots := by
  refine List.ext_getElem? fun index => ?_
  rw [getElem?_toList]
  by_cases inside : index < slots.length
  · simp [ofList, slot, inside]
  · simp [ofList, inside]

@[simp] theorem toList_unassigned (n : Nat) : (unassigned n).toList = List.replicate n none := by
  refine List.ext_getElem? fun index => ?_
  rw [getElem?_toList, List.getElem?_replicate]
  simp [unassigned, slot]

/-- Assigning a slot within a buffer sets it. -/
theorem toList_write_of_lt {buffer : Buffer} {index : Nat} (v : Value)
    (within : index < buffer.length) :
    (buffer.write index v).toList = buffer.toList.set index (some v) := by
  refine List.ext_getElem? fun other => ?_
  have same : max buffer.length (index + 1) = buffer.length := Nat.max_eq_left within
  rw [getElem?_toList, List.getElem?_set, getElem?_toList, length_write, slot_write, same]
  by_cases hit : other = index
  · subst hit
    simp [within]
  · simp [hit, Ne.symm hit]

/-- Assigning a slot beyond a buffer appends it behind unassigned ones. -/
theorem toList_write_of_le {buffer : Buffer} {index : Nat} (v : Value)
    (beyond : buffer.length ≤ index) :
    (buffer.write index v).toList =
      buffer.toList ++ List.replicate (index - buffer.length) none ++ [some v] := by
  refine List.ext_getElem? fun other => ?_
  rw [getElem?_toList, length_write, slot_write, Nat.max_eq_right (Nat.le_succ_of_le beyond)]
  rcases Nat.lt_trichotomy other index with before | rfl | behind
  · rw [List.getElem?_append_left (by simp; omega), List.getElem?_append, length_toList,
      getElem?_toList]
    by_cases inside : other < buffer.length
    · simp [inside, Nat.lt_succ_of_lt before, Nat.ne_of_lt before]
    · have gap : other - buffer.length < index - buffer.length := by omega
      simp [inside, Nat.lt_succ_of_lt before, Nat.ne_of_lt before, gap,
        slot_of_le buffer (Nat.le_of_not_lt inside)]
  · rw [List.getElem?_append_right (by simp; omega)]
    simp [Nat.add_sub_cancel' beyond]
  · rw [List.getElem?_eq_none (by simp; omega), if_neg (by omega)]

end Buffer
end NamedArguments
