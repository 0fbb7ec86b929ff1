import Mathlib.Data.Vector.Defs

/-! # The ring buffer of `log_stream.c`

The bodies of the three critical sections on `s_ring_lock`. `size_t` has 32 bits.
-/

namespace EspGnss.Log

/-- `LOG_RING_BUFFER_SIZE` -/
abbrev logRingBufferSize : Nat := 4096
/-- `LOG_SEND_CHUNK_SIZE` -/
abbrev logSendChunkSize : Nat := 512

/-- `s_ring_buffer` and `s_write_total`. -/
structure LogRing where
  ringBuffer : Vector UInt8 logRingBufferSize
  writeTotal : UInt32

/-- What the section of `log_response_send` leaves in `last_sent` and in `chunk`. -/
structure RingCopy where
  lastSent : UInt32
  chunk : List UInt8
  deriving DecidableEq, Repr

namespace LogRing

def empty : LogRing := ⟨.replicate _ 0, 0⟩

/-- Where the byte with the running number `position` is. -/
def cell (position : UInt32) : Fin logRingBufferSize :=
  ⟨position.toNat % logRingBufferSize, Nat.mod_lt _ (by decide)⟩

/-- The loop over the bytes of a line in `log_capture_vprintf`. -/
def store (ring : LogRing) : (index : UInt32) → List UInt8 → LogRing
  | _, [] => ring
  | index, byte :: rest =>
      store { ring with ringBuffer := ring.ringBuffer.set (cell (ring.writeTotal + index)) byte }
        (index + 1) rest

/-- The section of `log_capture_vprintf`. -/
def append (ring : LogRing) (line : List UInt8) : LogRing :=
  let stored := ring.store 0 line
  { stored with writeTotal := stored.writeTotal + .ofNat line.length }

/-- The first section of `log_response_send`. -/
def oldest (ring : LogRing) : UInt32 :=
  if ring.writeTotal > .ofNat logRingBufferSize then ring.writeTotal - .ofNat logRingBufferSize else 0

/-- The section in the loop of `log_response_send`. -/
def copy (ring : LogRing) (lastSent : UInt32) : RingCopy :=
  let available := ring.writeTotal - lastSent
  let (lastSent, available) :=
    if available > .ofNat logRingBufferSize then
      (ring.writeTotal - .ofNat logRingBufferSize, .ofNat logRingBufferSize)
    else (lastSent, available)
  let toCopy := if available < .ofNat logSendChunkSize then available else .ofNat logSendChunkSize
  ⟨lastSent, (List.range toCopy.toNat).map fun index => ring.ringBuffer[cell (lastSent + .ofNat index)]⟩

theorem available_gt_iff (available : UInt32) :
    available > .ofNat logRingBufferSize ↔ logRingBufferSize < available.toNat :=
  UInt32.lt_iff_toNat_lt

theorem available_lt_iff (available : UInt32) :
    available < .ofNat logSendChunkSize ↔ available.toNat < logSendChunkSize :=
  UInt32.lt_iff_toNat_lt

theorem copy_lastSent (ring : LogRing) (lastSent : UInt32) :
    (ring.copy lastSent).lastSent =
      if logRingBufferSize < (ring.writeTotal - lastSent).toNat then
        ring.writeTotal - .ofNat logRingBufferSize
      else lastSent := by
  simp only [copy, available_gt_iff]
  split <;> rfl

theorem copy_length (ring : LogRing) (lastSent : UInt32) :
    (ring.copy lastSent).chunk.length = min (ring.writeTotal - lastSent).toNat logSendChunkSize := by
  simp only [copy, available_gt_iff, available_lt_iff, List.length_map, List.length_range]
  split
  · rename_i more
    have full : ¬ (UInt32.ofNat logRingBufferSize).toNat < logSendChunkSize := by decide
    rw [if_neg full]
    exact (Nat.min_eq_right (Nat.le_trans (by decide) (Nat.le_of_lt more))).symm
  · split
    · rename_i few
      exact (Nat.min_eq_left (Nat.le_of_lt few)).symm
    · rename_i many
      exact (Nat.min_eq_right (Nat.le_of_not_lt many)).symm

theorem copy_getElem? {ring : LogRing} {lastSent : UInt32} {index : Nat}
    (inside : index < (ring.copy lastSent).chunk.length) :
    (ring.copy lastSent).chunk[index]? =
      ring.ringBuffer[(cell ((ring.copy lastSent).lastSent + .ofNat index) : Nat)]? := by
  rw [List.getElem?_eq_getElem inside, Vector.getElem?_eq_getElem (Fin.isLt _)]
  simp [copy]

/-- The section finds nothing only when everything has been sent. -/
theorem copy_nothing {ring : LogRing} {lastSent : UInt32} (nothing : (ring.copy lastSent).chunk = []) :
    (ring.copy lastSent).lastSent = ring.writeTotal := by
  have none := copy_length ring lastSent
  rw [nothing, List.length_nil] at none
  have same : (ring.writeTotal - lastSent).toNat = 0 := by
    have size : logSendChunkSize = 512 := rfl
    omega
  rw [copy_lastSent, same, if_neg (Nat.not_lt_zero _)]
  have zero : ring.writeTotal - lastSent = 0 := UInt32.toNat_inj.mp same
  simpa using (UInt32.sub_eq_iff_eq_add.mp zero).symm

end LogRing

end EspGnss.Log
