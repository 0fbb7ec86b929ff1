import Mathlib.Data.List.Chain
import Mathlib.Data.Vector.Defs

/-! # Buffers that hold the end of a stream

Item `i` of a stream is stored in cell `i % n`, over what was there before. The last `n`
items of what has been written are then still in the buffer.
-/

namespace Foundation

variable {α : Type} {n : Nat}

/-- The buffer holds the last items of what has been written. -/
def HoldsTail (cells : Vector α n) (written : List α) : Prop :=
  ∀ i, i < written.length → written.length ≤ i + n → cells[i % n]? = written[i]?

theorem holdsTail_nil (cells : Vector α n) : HoldsTail cells [] := by
  intro i inside
  cases inside

theorem HoldsTail.write {cells : Vector α n} {written : List α} (holds : HoldsTail cells written) (item : α)
    (inside : written.length % n < n) :
    HoldsTail (cells.set (written.length % n) item inside) (written ++ [item]) := by
  intro i upTo recent
  rw [List.length_append, List.length_singleton] at upTo recent
  rcases Nat.eq_or_lt_of_le (Nat.le_of_lt_succ upTo) with rfl | earlier
  · simp
  · -- two positions less than a round apart have different cells
    have apart : written.length % n ≠ i % n := by
      intro same
      have round : n ∣ written.length - i :=
        Nat.dvd_of_mod_eq_zero (Nat.sub_mod_eq_zero_of_mod_eq same)
      have far := Nat.le_of_dvd (by omega) round
      omega
    rw [List.getElem?_append_left earlier, ← holds i earlier (by omega)]
    simp [apart]

/-- What is read from the buffer is a segment of the stream. -/
theorem HoldsTail.read {cells : Vector α n} {written chunk : List α} (holds : HoldsTail cells written)
    {start : Nat} (upTo : start + chunk.length ≤ written.length) (recent : written.length ≤ start + n)
    (copied : ∀ i, i < chunk.length → chunk[i]? = cells[(start + i) % n]?) :
    chunk = written.extract start (start + chunk.length) := by
  apply List.ext_getElem?
  intro i
  by_cases inside : i < chunk.length
  · rw [copied i inside, holds (start + i) (by omega) (by omega)]
    simp [inside]
  · have outside : chunk.length ≤ i := by omega
    have segment : (written.extract start (start + chunk.length)).length ≤ i := by
      rw [List.extract_eq_take_drop, List.length_take]
      omega
    rw [List.getElem?_eq_none outside, List.getElem?_eq_none segment]

/-- A segment of a stream stays what it is. -/
theorem extract_append {written more : List α} {start stop : Nat} (inside : stop ≤ written.length) :
    (written ++ more).extract start stop = written.extract start stop := by
  rcases Nat.le_total start stop with ordered | empty
  · have before : start ≤ written.length := by omega
    have within : stop - start ≤ (written.drop start).length := by
      rw [List.length_drop]
      omega
    rw [List.extract_eq_take_drop, List.extract_eq_take_drop, List.drop_append_of_le_length before,
      List.take_append_of_le_length within]
  · simp [Nat.sub_eq_zero_of_le empty]

end Foundation
