import EspGnss.Ota.Acceptance
import EspGnss.Ota.Fault

/-! # Which images are selected for boot

An accepted request carries the digest its header writes; the boot partition is set
after exactly the announced bytes have been received, hashed to that digest and written
in order. Nothing else than a failure keeps such an upload from being selected.
-/

namespace EspGnss.Ota

open Foundation OtaCall

def received : OtaEvent → List UInt8
  | ⟨reqRecv _, reply⟩ => reply.buffer
  | _ => []

def hashed : OtaEvent → List UInt8
  | ⟨psaHashUpdate buffer, _⟩ => buffer
  | _ => []

def written : OtaEvent → List UInt8
  | ⟨otaWrite _ buffer, _⟩ => buffer
  | _ => []

def receivedBytes (history : List OtaEvent) : List UInt8 := history.flatMap received
def hashedBytes (history : List OtaEvent) : List UInt8 := history.flatMap hashed
def writtenBytes (history : List OtaEvent) : List UInt8 := history.flatMap written

/-- The announced body has been received, written in order and hashed to the digest of
    the header, and `esp_ota_end` has accepted the image. -/
structure Complete (asyncReq : OtaAsyncRequest) (history : List OtaEvent) : Prop where
  length : (receivedBytes history).length = asyncReq.req.contentLen
  written : writtenBytes history = receivedBytes history
  digest : ∃ earlier later, history = earlier ++ ⟨psaHashFinish, asyncReq.agreed⟩ :: later ∧
    hashedBytes earlier = receivedBytes history ∧ hashedBytes history = receivedBytes history
  ended : ∃ otaHandle, ⟨otaEnd otaHandle, espOk⟩ ∈ history

variable {asyncReq : OtaAsyncRequest}

theorem Transferred.bytes {otaHandle body timeouts events}
    (far : Transferred otaHandle body timeouts events) :
    receivedBytes events = body ∧ hashedBytes events = body ∧ writtenBytes events = body := by
  induction far with
  | start => exact ⟨rfl, rfl, rfl⟩
  | @timeout body timeouts events requested reply before timedOut again ih =>
      have empty : reply.buffer = [] := by
        rw [← List.length_eq_zero_iff, reply.filled, timedOut]
        rfl
      simpa [receivedBytes, hashedBytes, writtenBytes, received, hashed, written, empty] using ih
  | chunk before some ih =>
      obtain ⟨read, digested, stored⟩ := ih
      unfold receivedBytes hashedBytes writtenBytes at *
      simp [received, hashed, written, read, digested, stored]

theorem Verified.complete {history} (verified : Verified asyncReq history) :
    Complete asyncReq history := by
  obtain ⟨otaHandle, earlier, ⟨body, timeouts, events, far, whole, rfl⟩, rfl⟩ := verified
  obtain ⟨read, digested, stored⟩ := far.bytes
  unfold receivedBytes hashedBytes writtenBytes at *
  refine ⟨?_, ?_, ⟨opening asyncReq otaHandle ++ events, [⟨otaEnd otaHandle, espOk⟩], rfl, ?_, ?_⟩,
    otaHandle, by simp⟩
  · simpa [opening, received, receivedBytes, read] using whole
  · simp [opening, received, written, receivedBytes, writtenBytes, read, stored]
  · simp [opening, received, hashed, receivedBytes, hashedBytes, read, digested]
  · simp [opening, received, hashed, receivedBytes, hashedBytes, read, digested]

/-- `esp_ota_set_boot_partition` has not been called. -/
def Unselected (history : List OtaEvent) : Prop :=
  ∀ event ∈ history, ∀ partition, event.call ≠ otaSetBootPartition partition

theorem InLoop.not_select {otaHandle c} (inLoop : InLoop otaHandle c) (partition) :
    c ≠ otaSetBootPartition partition := by
  rintro rfl
  exact inLoop

theorem Received.unselected {otaHandle history} (received : Received asyncReq otaHandle history) :
    Unselected history := by
  obtain ⟨body, timeouts, events, far, -, rfl⟩ := received
  exact List.forall_mem_append.mpr
    ⟨by simp [opening], fun event member => (far.inLoop event member).not_select⟩

theorem Verified.unselected {history} (verified : Verified asyncReq history) :
    Unselected history := by
  obtain ⟨otaHandle, earlier, received, rfl⟩ := verified
  exact List.forall_mem_append.mpr ⟨received.unselected, by simp⟩

/-- A request whose header writes a digest is queued unless the handler had a reason to
    refuse it. -/
theorem Handled.queued {req history text sha256} (handled : Handled req history)
    (honest : ∀ event ∈ history, HeaderReplied req event)
    (sent : req.firmwareSha256 = some text) (writes : WritesSha256 text sha256)
    (nonempty : 0 < req.contentLen) (free : ∀ event ∈ history, ¬Refuses req event) :
    ∃ asyncReq, ⟨requestQueueSend asyncReq, true⟩ ∈ history := by
  rcases handled with queued | empty | ⟨length, member, wrong⟩ | ⟨header, member, undecoded⟩ |
    ⟨event, member, refused⟩
  · exact queued
  · exact absurd empty nonempty.ne'
  · have length : length = (req.firmwareSha256.getD []).length := honest _ member
    rw [sent] at length
    exact absurd (length.trans writes.1) wrong
  · have ok : header.err = espOk := Decidable.not_not.mp (free _ member)
    have read := honest _ member ok text sent writes.1
    rw [(otaSha256Parse_iff read).mpr writes] at undecoded
    cases undecoded
  · exact absurd refused (free event member)

theorem Decoded.writes {req history sha256} (decoded : Decoded history sha256)
    (honest : ∀ event ∈ history, HeaderReplied req event) :
    ∃ text, req.firmwareSha256 = some text ∧ WritesSha256 text sha256 := by
  obtain ⟨header, length, value, ok, parsed⟩ := decoded
  have length : otaSha256HexLen = (req.firmwareSha256.getD []).length := honest _ length
  cases sent : req.firmwareSha256 with
  | none =>
      rw [sent] at length
      cases length
  | some text =>
      rw [sent] at length
      have read := honest _ value ok text sent length.symm
      exact ⟨text, rfl, (otaSha256Parse_iff read).mp parsed⟩

end EspGnss.Ota
