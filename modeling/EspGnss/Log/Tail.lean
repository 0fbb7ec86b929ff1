import EspGnss.Foundation.TailBuffer
import EspGnss.Log.Ring
import Mathlib.Algebra.Group.Nat.Defs

/-! # The ring buffer holds the end of the log

Also when `s_write_total` has wrapped: the size of the buffer divides the range of the
counter.
-/

namespace EspGnss.Log

open Foundation

/-- The ring is what `s_ring_buffer` and `s_write_total` are after `logged`. -/
structure LogRing.Represents (ring : LogRing) (logged : List UInt8) : Prop where
  writeTotal : ring.writeTotal = .ofNat logged.length
  holds : HoldsTail ring.ringBuffer logged

namespace LogRing

variable {ring : LogRing} {logged : List UInt8}

theorem represents_empty : empty.Represents [] := ⟨rfl, holdsTail_nil _⟩

/-- The counter may wrap: positions that it cannot tell apart have the same cell. -/
theorem cell_ofNat (position : Nat) : (cell (.ofNat position) : Nat) = position % logRingBufferSize := by
  change (UInt32.ofNat position).toNat % logRingBufferSize = _
  rw [UInt32.toNat_ofNat']
  exact Nat.mod_mod_of_dvd _ (by decide)

theorem store_spec {logged : List UInt8} (line done : List UInt8) {ring : LogRing}
    (total : ring.writeTotal = .ofNat logged.length) (holds : HoldsTail ring.ringBuffer (logged ++ done)) :
    (ring.store (.ofNat done.length) line).writeTotal = ring.writeTotal ∧
      HoldsTail (ring.store (.ofNat done.length) line).ringBuffer (logged ++ done ++ line) := by
  induction line generalizing done ring with
  | nil => exact ⟨rfl, by simpa [store] using holds⟩
  | cons byte rest ih =>
      have place : (cell (ring.writeTotal + .ofNat done.length) : Nat) =
          (logged ++ done).length % logRingBufferSize := by
        rw [total, ← UInt32.ofNat_add, cell_ofNat, List.length_append]
      have written := holds.write byte (Nat.mod_lt _ (by decide))
      have next := @ih (done ++ [byte])
        { ring with ringBuffer := ring.ringBuffer.set (cell (ring.writeTotal + .ofNat done.length)) byte } total
        (by simpa only [place, List.append_assoc] using written)
      rw [store]
      simpa using next

/-- The section of `log_capture_vprintf` adds a line to what the ring represents. -/
theorem Represents.append (represents : ring.Represents logged) (line : List UInt8) :
    (ring.append line).Represents (logged ++ line) := by
  have stored := store_spec line [] represents.writeTotal (by simpa using represents.holds)
  rw [List.append_nil] at stored
  constructor
  · change (ring.store 0 line).writeTotal + .ofNat line.length = _
    rw [List.length_append, UInt32.ofNat_add, ← represents.writeTotal]
    exact congrArg (· + UInt32.ofNat line.length) stored.1
  · exact stored.2

theorem represents_foldl (lines : List (List UInt8)) (represents : ring.Represents logged) :
    (lines.foldl LogRing.append ring).Represents (logged ++ lines.flatten) := by
  induction lines generalizing ring logged with
  | nil => simpa using represents
  | cons line rest ih => simpa using ih (represents.append line)

/-- The first section of `log_response_send` finds a position that has been reached. -/
theorem Represents.oldest (represents : ring.Represents logged) :
    ∃ position ≤ logged.length, ring.oldest = .ofNat position := by
  rw [LogRing.oldest, represents.writeTotal]
  split
  · rename_i more
    have long : logRingBufferSize ≤ logged.length := by
      have far : logRingBufferSize < (UInt32.ofNat logged.length).toNat := (available_gt_iff _).mp more
      rw [UInt32.toNat_ofNat'] at far
      exact Nat.le_of_lt (Nat.lt_of_lt_of_le far (Nat.mod_le _ _))
    exact ⟨logged.length - logRingBufferSize, Nat.sub_le _ _, (UInt32.ofNat_sub long).symm⟩
  · exact ⟨0, Nat.zero_le _, rfl⟩

/-- What the section of the loop finds for a client that has read up to `position`. -/
structure Finds (logged : List UInt8) (position start : Nat) (copied : RingCopy) : Prop where
  lastSent : copied.lastSent = .ofNat start
  chunk : copied.chunk = logged.extract start (start + copied.chunk.length)
  inside : start + copied.chunk.length ≤ logged.length
  recent : logged.length ≤ start + logRingBufferSize
  skips : logged.length < position + 2 ^ 32 →
    start = position ∨ position + logRingBufferSize < logged.length ∧ start + logRingBufferSize = logged.length
  nothing : copied.chunk = [] → start = logged.length

/-- Positions that the counter cannot tell apart are as good as each other. -/
theorem ofNat_sub_behind {position total : Nat} (reached : position ≤ total) :
    UInt32.ofNat (total - (total - position) % 2 ^ 32) = .ofNat position := by
  apply UInt32.toNat_inj.mp
  rw [UInt32.toNat_ofNat', UInt32.toNat_ofNat']
  omega

theorem Represents.behind (represents : ring.Represents logged) {position : Nat}
    (reached : position ≤ logged.length) :
    (ring.writeTotal - .ofNat position).toNat = (logged.length - position) % 2 ^ 32 := by
  rw [represents.writeTotal, ← UInt32.ofNat_sub reached, UInt32.toNat_ofNat']

/-- The section of the loop goes on where the client is, or where the buffer begins. -/
theorem Represents.copy_starts (represents : ring.Represents logged) {position : Nat}
    (reached : position ≤ logged.length) :
    ∃ start, (ring.copy (.ofNat position)).lastSent = .ofNat start ∧
      (ring.copy (.ofNat position)).chunk.length = min (logged.length - start) logSendChunkSize ∧
      start ≤ logged.length ∧ logged.length ≤ start + logRingBufferSize ∧
      (logged.length < position + 2 ^ 32 → start = position ∨
        position + logRingBufferSize < logged.length ∧ start + logRingBufferSize = logged.length) := by
  have size : logRingBufferSize = 4096 := rfl
  have sendSize : logSendChunkSize = 512 := rfl
  have less := Nat.mod_le (logged.length - position) (2 ^ 32)
  rw [copy_lastSent, copy_length, represents.behind reached]
  by_cases overwritten : logRingBufferSize < (logged.length - position) % 2 ^ 32
  · refine ⟨logged.length - logRingBufferSize, ?_, by omega, by omega, by omega, by omega⟩
    rw [if_pos overwritten, represents.writeTotal, UInt32.ofNat_sub (by omega)]
  · refine ⟨logged.length - (logged.length - position) % 2 ^ 32, ?_, by omega, by omega, by omega, by omega⟩
    rw [if_neg overwritten, ofNat_sub_behind reached]

theorem Represents.copy (represents : ring.Represents logged) {position : Nat}
    (reached : position ≤ logged.length) :
    ∃ start, Finds logged position start (ring.copy (.ofNat position)) := by
  obtain ⟨start, lastSent, count, within, recent, skips⟩ := represents.copy_starts reached
  have sendSize : logSendChunkSize = 512 := rfl
  refine ⟨start, lastSent, ?_, by omega, recent, skips, ?_⟩
  · apply represents.holds.read (by omega) recent
    intro i inside
    rw [copy_getElem? inside, lastSent, ← UInt32.ofNat_add, cell_ofNat]
  · intro nothing
    rw [nothing, List.length_nil] at count
    omega

end LogRing

end EspGnss.Log
