import EspGnss.Foundation.Resource
import EspGnss.Ota.Upload

/-! # What an upload gives back

`ota_flash_receive` holds an OTA handle, a hash operation and the only OTA worker. The
handle is released on every exit, and the worker is given back after a bounded number
of `httpd_req_recv` calls. The hash operation is lost when `psa_hash_finish` fails:
`hash_active` is cleared before its status is looked at.
-/

namespace EspGnss.Ota

open Foundation OtaCall

/-- The handle that `esp_ota_begin` hands out. -/
def handleResource : Resource OtaEvent Nat where
  acquires otaHandle event := ∃ partition, event = ⟨otaBegin partition, ⟨espOk, otaHandle⟩⟩
  releases otaHandle event := event.call = otaEnd otaHandle ∨ event.call = otaAbort otaHandle
  uses otaHandle event :=
    event.call = otaEnd otaHandle ∨ event.call = otaAbort otaHandle ∨
      ∃ buffer, event.call = otaWrite otaHandle buffer

/-- The hash operation: a `psa_hash_finish` that fails leaves it to `psa_hash_abort`. -/
def hashResource : Resource OtaEvent Unit where
  acquires _ event := event = ⟨psaHashSetup, psaSuccess⟩
  releases _ event :=
    match event with
    | ⟨psaHashFinish, actual⟩ => actual.status = psaSuccess
    | ⟨psaHashAbort, _⟩ => True
    | _ => False
  uses _ event :=
    match event.call with
    | psaHashSetup | psaHashUpdate _ | psaHashFinish | psaHashAbort => True
    | _ => False

/-- Every `psa_hash_finish` of the history succeeded. -/
def HashFinished (history : List OtaEvent) : Prop :=
  ∀ actual, ⟨psaHashFinish, actual⟩ ∈ history → actual.status = psaSuccess

/-- Neither resource is acquired again. -/
def Acquires : OtaCall → Prop
  | psaHashSetup | otaBegin _ => True
  | _ => False

theorem handleResource_not_acquires {event : OtaEvent} (other : ¬Acquires event.call)
    (otaHandle : Nat) : ¬handleResource.acquires otaHandle event := by
  rintro ⟨partition, rfl⟩
  exact other trivial

theorem hashResource_not_acquires {event : OtaEvent} (other : ¬Acquires event.call) (key : Unit) :
    ¬hashResource.acquires key event := by
  rintro rfl
  exact other trivial

theorem InLoop.not_acquires {otaHandle c} (inside : InLoop otaHandle c) : ¬Acquires c := by
  cases c with
  | psaHashSetup | otaBegin => exact inside.elim
  | _ => exact id

theorem InLoop.keeps_handle {otaHandle : Nat} {event : OtaEvent}
    (inside : InLoop otaHandle event.call) : ¬handleResource.releases otaHandle event := by
  obtain ⟨c, reply⟩ := event
  cases c with
  | otaEnd | otaAbort => exact inside.elim
  | _ => rintro (same | same) <;> cases same

theorem InLoop.keeps_hash {otaHandle : Nat} {event : OtaEvent}
    (inside : InLoop otaHandle event.call) : ¬hashResource.releases () event := by
  obtain ⟨c, reply⟩ := event
  cases c with
  | psaHashFinish | psaHashAbort => exact inside.elim
  | _ => exact id

section Opening

variable {asyncReq : OtaAsyncRequest} {otaHandle : Nat} {events later : List OtaEvent}

/-- The handle is released after the loop, if at all. -/
theorem handle_managed_opening (inLoop : ∀ event ∈ events, InLoop otaHandle event.call)
    (other : ∀ event ∈ later, ¬Acquires event.call) :
    handleResource.Managed (opening asyncReq otaHandle ++ (events ++ later)) ↔
      handleResource.ReleasedOnce otaHandle later := by
  have never : handleResource.Managed (events ++ later) :=
    Resource.managed_of_forall_not <| List.forall_mem_append.mpr
      ⟨fun event member => handleResource_not_acquires (inLoop event member).not_acquires,
        fun event member => handleResource_not_acquires (other event member)⟩
  have setup (key) : ¬handleResource.acquires key ⟨psaHashSetup, psaSuccess⟩ := by
    rintro ⟨partition, same⟩
    cases same
  unfold opening
  rw [List.cons_append, List.cons_append, List.nil_append, Resource.managed_cons_of_not setup,
    Resource.managed_cons, and_iff_left never]
  have kept := Resource.releasedOnce_append otaHandle later
    fun event member => (inLoop event member).keeps_handle
  constructor
  · intro managed
    exact kept.mp (managed otaHandle ⟨_, rfl⟩)
  · rintro released key ⟨partition, same⟩
    cases same
    exact kept.mpr released

/-- So is the hash operation. -/
theorem hash_managed_opening (inLoop : ∀ event ∈ events, InLoop otaHandle event.call)
    (other : ∀ event ∈ later, ¬Acquires event.call) :
    hashResource.Managed (opening asyncReq otaHandle ++ (events ++ later)) ↔
      hashResource.ReleasedOnce () later := by
  have never : hashResource.Managed
      (⟨otaBegin asyncReq.updatePartition, ⟨espOk, otaHandle⟩⟩ :: (events ++ later)) := by
    rw [Resource.managed_cons_of_not nofun]
    exact Resource.managed_of_forall_not <| List.forall_mem_append.mpr
      ⟨fun event member => hashResource_not_acquires (inLoop event member).not_acquires,
        fun event member => hashResource_not_acquires (other event member)⟩
  unfold opening
  rw [List.cons_append, List.cons_append, List.nil_append, Resource.managed_cons,
    and_iff_left never]
  have kept := Resource.releasedOnce_append () later
    fun event member => (inLoop event member).keeps_hash
  have begins : ¬hashResource.releases ()
      ⟨otaBegin asyncReq.updatePartition, ⟨espOk, otaHandle⟩⟩ := id
  constructor
  · intro managed
    exact kept.mp ((Resource.releasedOnce_cons_of_not begins).mp (managed () rfl))
  · rintro released key -
    exact (Resource.releasedOnce_cons_of_not begins).mpr (kept.mpr released)

end Opening

variable {asyncReq : OtaAsyncRequest} {history later : List OtaEvent}

theorem hashFinished_append :
    HashFinished (history ++ later) ↔ HashFinished history ∧ HashFinished later := by
  unfold HashFinished
  simp only [List.mem_append]
  grind

theorem InLoop.hashFinished {otaHandle : Nat}
    (inLoop : ∀ event ∈ history, InLoop otaHandle event.call) : HashFinished history := by
  intro actual member
  exact (inLoop _ member).elim

theorem opening_hashFinished {otaHandle : Nat} : HashFinished (opening asyncReq otaHandle) := by
  intro actual member
  simp [opening] at member

section Received

variable {otaHandle : Nat}

theorem Received.handle_managed (received : Received asyncReq otaHandle history)
    (other : ∀ event ∈ later, ¬Acquires event.call) :
    handleResource.Managed (history ++ later) ↔ handleResource.ReleasedOnce otaHandle later := by
  obtain ⟨body, timeouts, events, far, -, rfl⟩ := received
  rw [List.append_assoc]
  exact handle_managed_opening far.inLoop other

theorem Received.hash_managed (received : Received asyncReq otaHandle history)
    (other : ∀ event ∈ later, ¬Acquires event.call) :
    hashResource.Managed (history ++ later) ↔ hashResource.ReleasedOnce () later := by
  obtain ⟨body, timeouts, events, far, -, rfl⟩ := received
  rw [List.append_assoc]
  exact hash_managed_opening far.inLoop other

theorem Received.hashFinished (received : Received asyncReq otaHandle history) :
    HashFinished history := by
  obtain ⟨body, timeouts, events, far, -, rfl⟩ := received
  exact hashFinished_append.mpr ⟨opening_hashFinished, InLoop.hashFinished far.inLoop⟩

/-- `esp_ota_end` gives the handle up whatever it returns. -/
theorem Received.handle_managed_end {err} (received : Received asyncReq otaHandle history)
    (other : ∀ event ∈ later, ¬Acquires event.call)
    (unused : ∀ event ∈ later, ¬handleResource.uses otaHandle event) :
    handleResource.Managed
      (history ++ ⟨psaHashFinish, asyncReq.agreed⟩ :: ⟨otaEnd otaHandle, err⟩ :: later) := by
  have finishes : ¬handleResource.releases otaHandle ⟨psaHashFinish, asyncReq.agreed⟩ := by
    simp [handleResource]
  have ends : handleResource.releases otaHandle ⟨otaEnd otaHandle, err⟩ := Or.inl rfl
  rw [received.handle_managed (List.forall_mem_cons.mpr ⟨id, List.forall_mem_cons.mpr ⟨id, other⟩⟩),
    Resource.releasedOnce_cons_of_not finishes, Resource.releasedOnce_cons ends]
  exact unused

/-- After `psa_hash_finish` the hash operation is not touched any more. -/
theorem Received.hash_managed_finish {actual} (received : Received asyncReq otaHandle history)
    (other : ∀ event ∈ later, ¬Acquires event.call)
    (unused : ∀ event ∈ later, ¬hashResource.uses () event) :
    hashResource.Managed (history ++ ⟨psaHashFinish, actual⟩ :: later) ↔
      HashFinished (history ++ ⟨psaHashFinish, actual⟩ :: later) := by
  have never : ∀ event ∈ later, ¬hashResource.releases () event := by
    rintro ⟨c, reply⟩ member releases
    cases c with
    | psaHashFinish | psaHashAbort => exact unused _ member trivial
    | _ => exact releases
  rw [received.hash_managed (List.forall_mem_cons.mpr ⟨id, other⟩)]
  constructor
  · intro released
    have succeeded : actual.status = psaSuccess := by
      by_contra failed
      exact Resource.not_releasedOnce (List.forall_mem_cons.mpr ⟨failed, never⟩) released
    intro finish member
    rcases List.mem_append.mp member with earlier | last
    · exact received.hashFinished finish earlier
    rcases List.mem_cons.mp last with same | after
    · cases same
      exact succeeded
    · exact (unused _ after trivial).elim
  · intro finished
    have succeeded : hashResource.releases () ⟨psaHashFinish, actual⟩ := finished actual (by simp)
    exact (Resource.releasedOnce_cons succeeded).mpr unused

end Received

theorem Upload.handle_managed {ending} (upload : Upload asyncReq history ending) :
    handleResource.Managed history := by
  cases upload with
  | setupFailed unset =>
      apply Resource.managed_of_forall_not
      simp [handleResource]
  | @beginFailed reply status text sent aborted unopened =>
      apply Resource.managed_of_forall_not
      rintro event member otaHandle ⟨partition, rfl⟩
      obtain ⟨rfl, rfl⟩ : partition = asyncReq.updatePartition ∧ ⟨espOk, otaHandle⟩ = reply := by
        simpa using member
      exact unopened rfl
  | @interrupted otaHandle events result hashAborted aborted left =>
      have ends : handleResource.releases otaHandle ⟨otaAbort otaHandle, aborted⟩ := Or.inr rfl
      rw [List.append_assoc, handle_managed_opening left.inLoop (by simp [Acquires]),
        Resource.releasedOnce_cons_of_not (by simp [handleResource]),
        Resource.releasedOnce_cons ends]
      exact List.forall_mem_nil _
  | @rejected otaHandle history actual status text sent aborted received differs =>
      have ends : handleResource.releases otaHandle ⟨otaAbort otaHandle, aborted⟩ := Or.inr rfl
      rw [received.handle_managed (by simp [Acquires]),
        Resource.releasedOnce_cons_of_not (by simp [handleResource]),
        Resource.releasedOnce_cons_of_not (by simp [handleResource]),
        Resource.releasedOnce_cons ends]
      exact List.forall_mem_nil _
  | endFailed received invalid =>
      exact received.handle_managed_end (by simp [Acquires]) (by simp [handleResource])
  | selectFailed verified | accepted verified =>
      obtain ⟨otaHandle, earlier, received, rfl⟩ := verified
      rw [List.append_assoc]
      exact received.handle_managed_end (by simp [Acquires]) (by simp [handleResource])

theorem Upload.hash_managed_iff {ending} (upload : Upload asyncReq history ending) :
    hashResource.Managed history ↔ HashFinished history := by
  cases upload with
  | setupFailed unset =>
      apply iff_of_true
      · apply Resource.managed_of_forall_not
        simpa [hashResource] using unset
      · simp [HashFinished]
  | @beginFailed reply status text sent aborted unopened =>
      have ends : hashResource.releases () ⟨psaHashAbort, aborted⟩ := trivial
      have released : hashResource.ReleasedOnce () [⟨otaBegin asyncReq.updatePartition, reply⟩,
          ⟨respSendstr status text, sent⟩, ⟨psaHashAbort, aborted⟩] := by
        rw [Resource.releasedOnce_cons_of_not id, Resource.releasedOnce_cons_of_not id,
          Resource.releasedOnce_cons ends]
        exact List.forall_mem_nil _
      apply iff_of_true
      · rw [Resource.managed_cons, and_iff_right fun key _ => released]
        apply Resource.managed_of_forall_not
        simp [hashResource]
      · simp [HashFinished]
  | @interrupted otaHandle events result hashAborted aborted left =>
      have ends : hashResource.releases () ⟨psaHashAbort, hashAborted⟩ := trivial
      apply iff_of_true
      · rw [List.append_assoc, hash_managed_opening left.inLoop (by simp [Acquires]),
          Resource.releasedOnce_cons ends]
        simp [hashResource]
      · rw [hashFinished_append, hashFinished_append]
        exact ⟨⟨opening_hashFinished, InLoop.hashFinished left.inLoop⟩, by simp [HashFinished]⟩
  | rejected received differs =>
      exact received.hash_managed_finish (by simp [Acquires]) (by simp [hashResource])
  | endFailed received invalid =>
      exact received.hash_managed_finish (by simp [Acquires]) (by simp [hashResource])
  | selectFailed verified | accepted verified =>
      obtain ⟨otaHandle, earlier, received, rfl⟩ := verified
      rw [List.append_assoc]
      exact received.hash_managed_finish (by simp [Acquires]) (by simp [hashResource])

/-- The handle is passed to one of `esp_ota_end` and `esp_ota_abort` on every exit. The
    hash operation is finished or aborted exactly when `psa_hash_finish` does not fail. -/
theorem upload_released_iff (asyncReq : OtaAsyncRequest) (env : OtaEnvironment) :
    handleResource.Managed ((otaFlashReceive asyncReq).run env []).1 ∧
        hashResource.Managed ((otaFlashReceive asyncReq).run env []).1 ↔
      ∀ actual, ⟨psaHashFinish, actual⟩ ∈ ((otaFlashReceive asyncReq).run env []).1 →
        actual.status = psaSuccess := by
  have upload := ((otaFlashReceive_meets asyncReq).run_history env).1
  rw [and_iff_right upload.handle_managed]
  exact upload.hash_managed_iff

/-- Everything works until the accelerator fails to deliver the digest. -/
def failingFinish : OtaEnvironment
  | _, psaHashFinish => ⟨-147, .replicate otaSha256Len 0, 0⟩
  | _, c => sampleRequest.succeeds c

def isFailedFinish : OtaEvent → Bool
  | ⟨psaHashFinish, actual⟩ => actual.status ≠ psaSuccess
  | _ => false

/-- The upload is refused, and nobody aborts the hash operation. -/
theorem failed_finish_not_aborted :
    handleResource.Managed ((otaFlashReceive sampleRequest).run failingFinish []).1 ∧
      ¬hashResource.Managed ((otaFlashReceive sampleRequest).run failingFinish []).1 := by
  have upload := ((otaFlashReceive_meets sampleRequest).run_history failingFinish).1
  refine ⟨upload.handle_managed, ?_⟩
  rw [upload.hash_managed_iff]
  intro finished
  have some : ((otaFlashReceive sampleRequest).run failingFinish []).1.any isFailedFinish := by
    decide +kernel
  obtain ⟨⟨c, reply⟩, member, failed⟩ := List.any_eq_true.mp some
  cases c with
  | psaHashFinish => exact of_decide_eq_true failed (finished reply member)
  | _ => cases failed

def isRecv (event : OtaEvent) : Bool :=
  match event.call with
  | reqRecv _ => true
  | _ => false

/-- Counts the calls of `httpd_req_recv`. -/
def recvCounter : Monitor OtaCall.Reply Nat where
  allows _ _ := True
  observe count event := if isRecv event then count + 1 else count

theorem recvCounter_foldl (count : Nat) (history : List OtaEvent) :
    history.foldl recvCounter.observe count = count + history.countP isRecv := by
  induction history generalizing count with
  | nil => rfl
  | cons event history ih =>
      rw [List.foldl_cons, ih, List.countP_cons]
      cases received : isRecv event <;> simp [recvCounter, received]
      omega

/-- A missing byte pays for three calls, of which the timeouts in a row are spent. -/
theorem otaReceiveLoop_recvs {otaHandle result remaining timeouts count limit}
    (paid : count + 3 * remaining ≤ limit + timeouts)
    (few : timeouts < otaMaxConsecutiveRecvTimeouts) (fresh : remaining = 0 → timeouts = 0) :
    (otaReceiveLoop otaHandle result remaining timeouts).Meets recvCounter
      (fun count _ => count ≤ limit) count := by
  induction result, remaining, timeouts using otaReceiveLoop.induct otaHandle
      generalizing count with
  | case2 result remaining timeouts done =>
      rw [otaReceiveLoop, if_neg done]
      have none : remaining = 0 := by omega
      have spent := fresh none
      change count ≤ limit
      omega
  | case1 result remaining timeouts more onTimeout onChunk =>
      rw [otaReceiveLoop, if_pos more]
      simp only [CallTree.meets_bind, CallTree.meets_perform, CallTree.meets_ite,
        CallTree.meets_dite, CallTree.meets_done, CallTree.pure_eq, otaSendText_meets]
      simp only [recvCounter, isRecv, true_and]
      have bound : otaMaxConsecutiveRecvTimeouts = 3 := rfl
      intro reply
      split
      · split
        · rename_i again
          exact onTimeout reply again (by grind) again (by omega)
        · grind
      split
      · grind
      rename_i arrived
      intro psaStatus
      split
      · grind
      intro err
      split
      · grind
      · exact onChunk reply arrived err (by grind) (by omega) (fun _ => rfl)

/-- After the loop nothing is received any more. -/
theorem otaFlashReceiveVerify_recvs {asyncReq otaHandle result count limit} (few : count ≤ limit) :
    (otaFlashReceiveVerify asyncReq otaHandle result).Meets recvCounter
      (fun count _ => count ≤ limit) count := by
  unfold otaFlashReceiveVerify
  simp only [CallTree.meets_bind, CallTree.meets_perform, CallTree.meets_ite,
    CallTree.meets_done, CallTree.pure_eq, otaSendText_meets]
  simp only [recvCounter, isRecv, true_and]
  grind

theorem otaFlashReceive_recvs (asyncReq : OtaAsyncRequest) :
    (otaFlashReceive asyncReq).Meets recvCounter
      (fun count _ => count ≤ 3 * asyncReq.req.contentLen) 0 := by
  have loop (otaHandle result) := @otaReceiveLoop_recvs otaHandle result asyncReq.req.contentLen 0 0
    (3 * asyncReq.req.contentLen) (by omega) (by decide) (fun _ => rfl)
  have body : (otaFlashReceiveBody asyncReq).Meets recvCounter
      (fun count _ => count ≤ 3 * asyncReq.req.contentLen) 0 := by
    unfold otaFlashReceiveBody
    simp only [CallTree.meets_bind, CallTree.meets_perform, CallTree.meets_ite,
      CallTree.meets_done, CallTree.pure_eq, otaSendText_meets]
    refine ⟨trivial, ?_⟩
    intro psaStatus
    split
    · exact ⟨trivial, fun sent => Nat.zero_le _⟩
    refine ⟨trivial, ?_⟩
    intro reply
    split
    · exact ⟨trivial, fun sent => Nat.zero_le _⟩
    apply (loop reply.otaHandle reply.err).mono
    intro count ending few
    split
    · exact few
    · exact otaFlashReceiveVerify_recvs few
  unfold otaFlashReceive
  rw [CallTree.meets_bind]
  apply body.mono
  intro count ending few
  simp only [CallTree.meets_bind, CallTree.meets_perform, CallTree.meets_ite,
    CallTree.meets_done, CallTree.pure_eq]
  simp only [recvCounter, isRecv, true_and]
  grind

/-- What the counter promises holds of the part of a run that the program adds. -/
theorem recvs_of_meets {α : Type} {program : OtaProgram α} {limit : Nat}
    (meets : program.Meets recvCounter (fun count _ => count ≤ limit) 0) (env : OtaEnvironment)
    (past : List OtaEvent) : ∃ events value, program.run env past = (past ++ events, value) ∧
      events.countP isRecv ≤ limit := by
  have shifted := CallTree.run_append env past [] program
  have start : program.Meets recvCounter (fun count _ => count ≤ limit)
      ([].foldl recvCounter.observe 0) := meets
  have counted := (start.run fun later => env (past ++ later)).1
  rw [recvCounter_foldl, Nat.zero_add] at counted
  rw [List.append_nil] at shifted
  exact ⟨_, _, shifted, counted⟩

/-- The receive loop ends within three calls of `httpd_req_recv` for each byte of the
    announced body, and nothing else of an upload calls it. -/
theorem receive_calls_le (asyncReq : OtaAsyncRequest) (env : OtaEnvironment) :
    (∀ otaHandle past, ∃ events ending,
      (otaReceiveLoop otaHandle espOk asyncReq.req.contentLen 0).run env past =
        (past ++ events, ending) ∧
      events.countP isRecv ≤ 3 * asyncReq.req.contentLen) ∧
    ((otaFlashReceive asyncReq).run env []).1.countP isRecv ≤ 3 * asyncReq.req.contentLen := by
  constructor
  · intro otaHandle past
    have few : 0 + 3 * asyncReq.req.contentLen ≤ 3 * asyncReq.req.contentLen + 0 := by omega
    exact recvs_of_meets (otaReceiveLoop_recvs few (by decide) (fun _ => rfl)) env past
  · obtain ⟨events, ending, ran, few⟩ := recvs_of_meets (otaFlashReceive_recvs asyncReq) env []
    rw [ran, List.nil_append]
    exact few

end EspGnss.Ota
