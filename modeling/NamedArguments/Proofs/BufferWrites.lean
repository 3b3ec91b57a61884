import NamedArguments.Extraction.Passes

/-! Runs of assignments. Values that go to successive slots stand in these
slots afterwards, every other slot keeps what it held, and a buffer grows up to
the last slot assigned and no further. Clearing is such a run as well. -/
namespace NamedArguments

namespace Buffer

/-- A buffer after values go to successive slots. -/
def writeAll (buffer : Buffer) (start : Nat) : List Value → Buffer
  | [] => buffer
  | v :: rest => (buffer.write start v).writeAll (start + 1) rest

theorem slot_writeAll_of_lt (buffer : Buffer) (values : List Value) {start index : Nat}
    (before : index < start) : (buffer.writeAll start values).slot index = buffer.slot index := by
  induction values generalizing buffer start with
  | nil => rfl
  | cons v rest ih =>
    rw [writeAll, ih _ (Nat.lt_succ_of_lt before), slot_write, if_neg (Nat.ne_of_lt before)]

/-- Behind the start each slot holds its value, or what it held where the
values have come to their end. -/
theorem slot_writeAll_add (buffer : Buffer) (start : Nat) (values : List Value) (offset : Nat) :
    (buffer.writeAll start values).slot (start + offset) =
      values[offset]?.or (buffer.slot (start + offset)) := by
  induction values generalizing buffer start offset with
  | nil => simp [writeAll]
  | cons v rest ih =>
    cases offset with
    | zero =>
      have passed : start + 0 < start + 1 := by omega
      rw [writeAll, slot_writeAll_of_lt _ rest passed, slot_write]
      simp
    | succ offset =>
      have moved : start + (offset + 1) = start + 1 + offset := by omega
      have apart : ¬ start + 1 + offset = start := by omega
      rw [writeAll, moved, ih, slot_write, if_neg apart, List.getElem?_cons_succ]

theorem length_writeAll (buffer : Buffer) (start : Nat) (values : List Value) :
    (buffer.writeAll start values).length =
      if values = [] then buffer.length else max buffer.length (start + values.length) := by
  induction values generalizing buffer start with
  | nil => rfl
  | cons v rest ih =>
    rw [writeAll, ih, length_write, if_neg (List.cons_ne_nil v rest), List.length_cons]
    split
    next ended => simp [ended]
    next => omega

theorem slot_writeAll_zero (buffer : Buffer) (values : List Value) (index : Nat) :
    (buffer.writeAll 0 values).slot index = values[index]?.or (buffer.slot index) := by
  simpa using slot_writeAll_add buffer 0 values index

theorem length_writeAll_zero (buffer : Buffer) (values : List Value) :
    (buffer.writeAll 0 values).length = max buffer.length values.length := by
  rw [length_writeAll, Nat.zero_add]
  split
  next empty => simp [empty]
  next => rfl

/-- A buffer that holds values in its first slots, one in each, and is otherwise
as it was before, except that it may have grown up to the last of them. -/
structure Filled (before after : Buffer) (values : List Value) : Prop where
  front (index : Nat) (v : Value) : values[index]? = some v → after.slot index = some v
  behind (index : Nat) : values.length ≤ index → after.slot index = before.slot index
  length : after.length = max before.length values.length

theorem filled_writeAll (buffer : Buffer) (values : List Value) :
    buffer.Filled (buffer.writeAll 0 values) values where
  front index v value := by rw [slot_writeAll_zero, value, Option.some_or]
  behind index beyond := by
    rw [slot_writeAll_zero, List.getElem?_eq_none beyond, Option.none_or]
  length := length_writeAll_zero buffer values

end Buffer

namespace Extraction

open Buffer (writeAll)

theorem clear_eq_writeAll (buffer : Buffer) (start count : Nat) :
    clear buffer start count = buffer.writeAll start (List.replicate count .absent) := by
  induction count generalizing buffer start with
  | zero => rfl
  | succ count ih => rw [clear, ih, List.replicate_succ, writeAll]

/-- Clearing changes the slots from the start on, as many as there are to
clear, and nothing else. -/
theorem slot_clear (buffer : Buffer) (start count index : Nat) :
    (clear buffer start count).slot index =
      if start ≤ index ∧ index < start + count then some .absent else buffer.slot index := by
  rw [clear_eq_writeAll]
  by_cases behind : start ≤ index
  · obtain ⟨offset, rfl⟩ := Nat.exists_eq_add_of_le behind
    rw [Buffer.slot_writeAll_add, List.getElem?_replicate]
    by_cases inside : offset < count
    · simp [inside]
    · simp [inside]
  · rw [Buffer.slot_writeAll_of_lt _ _ (Nat.lt_of_not_le behind), if_neg (fun both => behind both.1)]

theorem length_clear (buffer : Buffer) (start count : Nat) :
    (clear buffer start count).length =
      if count = 0 then buffer.length else max buffer.length (start + count) := by
  rw [clear_eq_writeAll, Buffer.length_writeAll, List.length_replicate]
  simp only [List.replicate_eq_nil_iff]

/-- Clearing behind some of the values that a buffer holds leaves these values
and markers behind them. -/
theorem filled_clear {before after : Buffer} {values : List Value} {count total : Nat}
    (filled : before.Filled after values) (counted : count ≤ values.length)
    (within : values.length ≤ total) :
    before.Filled (clear after count (total - count))
      (values.take count ++ List.replicate (total - count) .absent) := by
  have kept : (values.take count).length = count := List.length_take_of_le counted
  have whole : (values.take count ++ List.replicate (total - count) Value.absent).length = total := by
    rw [List.length_append, kept, List.length_replicate]
    omega
  refine ⟨fun index v value => ?_, fun index beyond => ?_, ?_⟩
  · rw [slot_clear]
    rcases Nat.lt_or_ge index count with before | behind
    · rw [List.getElem?_append_left (by omega), List.getElem?_take_of_lt before] at value
      rw [if_neg (by omega)]
      exact filled.front index v value
    · rw [List.getElem?_append_right (by omega), kept, List.getElem?_replicate] at value
      split at value
      next inside =>
        cases value
        rw [if_pos (by omega)]
      next => cases value
  · rw [whole] at beyond
    rw [slot_clear, if_neg (by omega)]
    exact filled.behind index (by omega)
  · rw [length_clear, whole, filled.length]
    split <;> omega

end Extraction
end NamedArguments
