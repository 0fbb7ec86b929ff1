import Mathlib.Data.List.Basic

/-! # Checked array access

Byte arrays of a C program as lists. Every access is checked: `none` means that
the program read or wrote outside the array, so a function that is shown never
to return `none` stays inside its buffers.
-/

namespace Foundation.Memory

variable {α : Type}

/-- `memchr(array + start, wanted, count)`: the first position of `wanted`
    among the `count` bytes from `start`. Bytes after it are not read. -/
def memchr [DecidableEq α] (array : List α) (wanted : α) :
    (start count : Nat) → Option (Option Nat)
  | _, 0 => some none
  | start, count + 1 => do
      let byte ← array[start]?
      if byte = wanted then return some start
      else memchr array wanted (start + 1) count

/-- The `count` bytes from `start`, as `memcmp` and `memcpy` read them. -/
def load (array : List α) (start count : Nat) : Option (List α) :=
  if start + count ≤ array.length then some ((array.drop start).take count) else none

/-- `array[used] = byte` on an array of `capacity` bytes, the first
    `used = array.length` of which are in use. -/
def store (capacity : Nat) (array : List α) (byte : α) : Option (List α) :=
  if array.length < capacity then some (array ++ [byte]) else none

/-- `memcpy(array + used, source, source.length)` on an array of `capacity`
    bytes, the first `used = array.length` of which are in use. -/
def append (capacity : Nat) (array source : List α) : Option (List α) :=
  if array.length + source.length ≤ capacity then some (array ++ source) else none

theorem memchr_absent [DecidableEq α] {wanted : α} (before middle after : List α)
    (absent : wanted ∉ middle) :
    memchr (before ++ middle ++ after) wanted before.length middle.length = some none := by
  induction middle generalizing before with
  | nil => rfl
  | cons byte rest ih =>
      obtain ⟨different, restAbsent⟩ : ¬ byte = wanted ∧ wanted ∉ rest := by
        simpa [List.mem_cons, eq_comm] using absent
      have later := ih (before ++ [byte]) restAbsent
      simp only [List.append_assoc, List.cons_append, List.nil_append, List.length_append,
        List.length_singleton] at later
      simp [memchr, different, later]

theorem memchr_found [DecidableEq α] {wanted : α} (before middle after : List α)
    (absent : wanted ∉ middle) {count : Nat} (inside : middle.length < count) :
    memchr (before ++ middle ++ wanted :: after) wanted before.length count =
      some (some (before.length + middle.length)) := by
  induction middle generalizing before count with
  | nil =>
      obtain ⟨count, rfl⟩ : ∃ n, count = n + 1 := ⟨count - 1, by simp at inside; omega⟩
      simp [memchr]
  | cons byte rest ih =>
      obtain ⟨different, restAbsent⟩ : ¬ byte = wanted ∧ wanted ∉ rest := by
        simpa [List.mem_cons, eq_comm] using absent
      obtain ⟨count, rfl⟩ : ∃ n, count = n + 1 := ⟨count - 1, by simp at inside; omega⟩
      have restInside : rest.length < count := by simpa using inside
      have later := ih (before ++ [byte]) restAbsent restInside
      simp only [List.append_assoc, List.cons_append, List.nil_append, List.length_append,
        List.length_singleton] at later
      have shift : before.length + 1 + rest.length = before.length + (rest.length + 1) := by omega
      simp [memchr, different, later, shift]

@[simp] theorem load_inside {array : List α} {start count : Nat}
    (inside : start + count ≤ array.length) :
    load array start count = some ((array.drop start).take count) := if_pos inside

@[simp] theorem store_inside {capacity : Nat} {array : List α} (byte : α)
    (room : array.length < capacity) : store capacity array byte = some (array ++ [byte]) :=
  if_pos room

@[simp] theorem append_inside {capacity : Nat} {array source : List α}
    (room : array.length + source.length ≤ capacity) :
    append capacity array source = some (array ++ source) := if_pos room

end Foundation.Memory
