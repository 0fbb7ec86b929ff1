import EspGnss.Ota.Upload

/-! # Failed uploads and their sessions

The worker closes the session of an upload that returned an error. Some failures leave
`result` at the `ESP_OK` of the last successful call; those are exactly the uploads
whose session stays open with unread body bytes.
-/

namespace EspGnss.Ota

open Foundation OtaCall

def isTimeout : OtaEvent → Bool
  | ⟨reqRecv _, reply⟩ => reply.received = httpdSockErrTimeout
  | _ => false

/-- A failed connection or a failed digest, whose outcome is not stored in `result`. -/
def OtaAsyncRequest.Unreported (asyncReq : OtaAsyncRequest) : OtaEvent → Prop
  | ⟨reqRecv _, reply⟩ => reply.received ≤ 0 ∧ reply.received ≠ httpdSockErrTimeout
  | ⟨psaHashUpdate _, psaStatus⟩ => psaStatus ≠ psaSuccess
  | ⟨psaHashFinish, actual⟩ => actual ≠ asyncReq.agreed
  | _ => False

/-- The connection was lost or timed out three times in a row, or the body could not be
    hashed, or its digest is not the announced one. -/
def SilentFault (asyncReq : OtaAsyncRequest) (history : List OtaEvent) : Prop :=
  (∃ event ∈ history, asyncReq.Unreported event) ∨
    HasStreak isTimeout otaMaxConsecutiveRecvTimeouts history

/-- The calls that can be part of a silent fault. -/
def Transfers : OtaCall → Prop
  | reqRecv _ | psaHashUpdate _ | psaHashFinish => True
  | _ => False

variable {asyncReq : OtaAsyncRequest}

theorem not_isTimeout {event : OtaEvent} (other : ¬Transfers event.call) : ¬isTimeout event := by
  obtain ⟨c, reply⟩ := event
  cases c with
  | reqRecv | psaHashUpdate | psaHashFinish => exact absurd trivial other
  | _ => nofun

theorem not_unreported {event : OtaEvent} (other : ¬Transfers event.call) :
    ¬asyncReq.Unreported event := by
  obtain ⟨c, reply⟩ := event
  cases c with
  | reqRecv | psaHashUpdate | psaHashFinish => exact absurd trivial other
  | _ => exact id

theorem isTimeout_recv {requested} {reply : RecvReply requested} :
    isTimeout ⟨reqRecv requested, reply⟩ ↔ reply.received = httpdSockErrTimeout :=
  decide_eq_true_iff

theorem not_isTimeout_of_received {requested} {reply : RecvReply requested}
    (some : 0 < reply.received) : ¬isTimeout ⟨reqRecv requested, reply⟩ := by
  intro timedOut
  rw [isTimeout_recv.mp timedOut] at some
  cases some

theorem not_silentFault_nil : ¬SilentFault asyncReq [] := by
  rintro (⟨event, member, -⟩ | long)
  · cases member
  · exact not_hasStreak_nil _ _ long

theorem silentFault_cons {event : OtaEvent} {history} (other : ¬Transfers event.call) :
    SilentFault asyncReq (event :: history) ↔ SilentFault asyncReq history := by
  unfold SilentFault otaMaxConsecutiveRecvTimeouts
  rw [hasStreak_cons (not_isTimeout other), List.exists_mem_cons_iff,
    or_iff_right (not_unreported other)]

theorem silentFault_append {history later : List OtaEvent}
    (apart : ∀ event ∈ later, ¬isTimeout event) :
    SilentFault asyncReq (history ++ later) ↔
      SilentFault asyncReq history ∨ ∃ event ∈ later, asyncReq.Unreported event := by
  unfold SilentFault otaMaxConsecutiveRecvTimeouts
  rw [hasStreak_append apart]
  simp only [List.mem_append, or_and_right, exists_or]
  exact or_right_comm

theorem silentFault_append_other {history later : List OtaEvent}
    (other : ∀ event ∈ later, ¬Transfers event.call) :
    SilentFault asyncReq (history ++ later) ↔ SilentFault asyncReq history := by
  rw [silentFault_append fun event member => not_isTimeout (other event member)]
  apply or_iff_left
  rintro ⟨event, member, unreported⟩
  exact not_unreported (other event member) unreported

theorem Transferred.streak {otaHandle body timeouts events}
    (far : Transferred otaHandle body timeouts events) :
    Foundation.streak isTimeout events = timeouts ∧ timeouts < otaMaxConsecutiveRecvTimeouts := by
  induction far with
  | start => exact ⟨rfl, by decide⟩
  | timeout before timedOut again ih =>
      rw [streak_concat, if_pos (isTimeout_recv.mpr timedOut)]
      exact ⟨congrArg (· + 1) ih.1, again⟩
  | @chunk body timeouts events requested reply before some ih =>
      have last := streak_concat isTimeout
        (events ++ [⟨reqRecv requested, reply⟩, ⟨psaHashUpdate reply.buffer, psaSuccess⟩])
        ⟨otaWrite otaHandle reply.buffer, espOk⟩
      rw [List.append_assoc] at last
      exact ⟨last, by decide⟩

theorem Transferred.not_silentFault {otaHandle body timeouts events}
    (far : Transferred otaHandle body timeouts events) : ¬SilentFault asyncReq events := by
  induction far with
  | start => exact not_silentFault_nil
  | @timeout body timeouts events requested reply before timedOut again ih =>
      have ended := (before.timeout timedOut again).streak
      rintro (⟨event, member, unreported⟩ | long)
      · rcases List.mem_append.mp member with earlier | last
        · exact ih (.inl ⟨event, earlier, unreported⟩)
        · cases List.mem_singleton.mp last
          exact unreported.2 timedOut
      · rcases hasStreak_concat.mp long with earlier | atEnd
        · exact ih (.inr earlier)
        · omega
  | @chunk body timeouts events requested reply before some ih =>
      have apart := not_isTimeout_of_received some
      rw [silentFault_append (by simpa [isTimeout] using apart)]
      rintro (earlier | later)
      · exact ih earlier
      · simp [OtaAsyncRequest.Unreported, Int.not_le.mpr some] at later

theorem Interrupted.silentFault_iff {otaHandle events result}
    (left : Interrupted otaHandle events result) :
    SilentFault asyncReq events ↔ result = espOk := by
  cases left with
  | @timedOut body timeouts events requested reply status text sent far timedOut enough =>
      have long : HasStreak isTimeout otaMaxConsecutiveRecvTimeouts
          (events ++ [⟨reqRecv requested, reply⟩]) := by
        refine hasStreak_concat.mpr (.inr ?_)
        rw [streak_concat, if_pos (isTimeout_recv.mpr timedOut), far.streak.1]
        exact enough
      rw [List.append_cons, silentFault_append_other (by simp [Transfers])]
      exact iff_of_true (.inr long) rfl
  | disconnected far answered gone =>
      refine iff_of_true (.inl ⟨_, List.mem_append_right _ List.mem_cons_self, ?_⟩) rfl
      exact ⟨gone, answered⟩
  | @hashFailed body timeouts events requested reply psaStatus status text sent far some unhashed =>
      refine iff_of_true (.inl ⟨⟨psaHashUpdate reply.buffer, psaStatus⟩, by simp, ?_⟩) rfl
      exact unhashed
  | @writeFailed body timeouts events requested reply err status text sent far some unwritten =>
      have apart := not_isTimeout_of_received some
      rw [silentFault_append (by simpa [isTimeout] using apart)]
      refine iff_of_false ?_ unwritten
      rintro (earlier | later)
      · exact far.not_silentFault earlier
      · simp [OtaAsyncRequest.Unreported, Int.not_le.mpr some] at later

theorem Received.not_silentFault {otaHandle history}
    (received : Received asyncReq otaHandle history) : ¬SilentFault asyncReq history := by
  obtain ⟨body, timeouts, events, far, -, rfl⟩ := received
  unfold opening
  rw [List.cons_append, List.cons_append, silentFault_cons id, silentFault_cons id]
  exact far.not_silentFault

theorem silentFault_finish {otaHandle history actual later}
    (received : Received asyncReq otaHandle history)
    (other : ∀ event ∈ later, ¬Transfers event.call) :
    SilentFault asyncReq (history ++ ⟨psaHashFinish, actual⟩ :: later) ↔
      actual ≠ asyncReq.agreed := by
  rw [List.append_cons, silentFault_append_other other,
    silentFault_append (by simp [isTimeout]), or_iff_right received.not_silentFault]
  simp [OtaAsyncRequest.Unreported]

theorem Verified.not_silentFault {history} (verified : Verified asyncReq history) :
    ¬SilentFault asyncReq history := by
  obtain ⟨otaHandle, earlier, received, rfl⟩ := verified
  rw [silentFault_finish received (by simp [Transfers])]
  exact not_not_intro rfl

/-- A silent fault ends in `ESP_OK` without an image, and nothing else does. -/
theorem Upload.silentFault_iff {history result restartRequired}
    (upload : Upload asyncReq history (result, restartRequired)) :
    SilentFault asyncReq history ↔ result = espOk ∧ restartRequired = false := by
  cases upload with
  | setupFailed unset =>
      rw [silentFault_cons id, silentFault_cons id]
      exact iff_of_false not_silentFault_nil nofun
  | beginFailed unopened =>
      rw [silentFault_cons id, silentFault_cons id, silentFault_cons id, silentFault_cons id]
      exact iff_of_false not_silentFault_nil fun returned => unopened returned.1
  | @interrupted otaHandle events result hashAborted aborted left =>
      rw [silentFault_append_other (by simp [Transfers])]
      unfold opening
      rw [List.cons_append, List.cons_append, silentFault_cons id, silentFault_cons id]
      rw [List.nil_append, left.silentFault_iff]
      exact (and_iff_left rfl).symm
  | rejected received differs =>
      rw [silentFault_finish received (by simp [Transfers])]
      exact iff_of_true differs ⟨rfl, rfl⟩
  | endFailed received invalid =>
      rw [silentFault_finish received (by simp [Transfers])]
      exact iff_of_false (not_not_intro rfl) fun returned => invalid returned.1
  | selectFailed verified unselected =>
      rw [silentFault_append_other (by simp [Transfers])]
      exact iff_of_false verified.not_silentFault fun returned => unselected returned.1
  | accepted verified =>
      rw [silentFault_append_other (by simp [Transfers])]
      exact iff_of_false verified.not_silentFault nofun

/-- A round that does not accept its upload fails, and closes the session if it has one. -/
def ClosesFailed (history : List OtaEvent) (round : WorkerRound) : Prop :=
  round.restartRequired = false → round.result ≠ espOk ∧
    (0 ≤ round.socketFd → ∃ err, ⟨sessTriggerClose round.socketFd, err⟩ ∈ history)

theorem otaWorkerFinish_avoids (socketFd : Int) (result : EspErr) (restartRequired : Bool) :
    (otaWorkerFinish socketFd result restartRequired).Avoids Transfers := by
  unfold otaWorkerFinish otaRestartSchedule
  split
  · refine ⟨id, ?_⟩
    intro startTimer
    cases startTimer with
    | false => trivial
    | true =>
        refine ⟨id, ?_⟩
        intro started
        cases started with
        | false => exact ⟨id, fun _ => trivial⟩
        | true => trivial
  · split
    · exact ⟨id, fun _ => trivial⟩
    · trivial

theorem otaWorkerFinish_closes {socketFd : Int} {result : EspErr} (failed : result ≠ espOk)
    (valid : 0 ≤ socketFd) (env : OtaEnvironment) (past) :
    ∃ err, ((otaWorkerFinish socketFd result false).run env past).1 =
      past ++ [⟨sessTriggerClose socketFd, err⟩] := by
  unfold otaWorkerFinish
  rw [if_neg nofun, if_pos ⟨failed, valid⟩]
  exact ⟨_, rfl⟩

/-- One round of the worker: the upload, and the session closed for a result other than
    `ESP_OK`. -/
theorem otaWorkerServe_run (asyncReq : OtaAsyncRequest) (env : OtaEnvironment) :
    ∃ socketFd upload result restartRequired later,
      (otaWorkerServe asyncReq).run env [] =
        (⟨reqToSockfd asyncReq.req, socketFd⟩ :: (upload ++ later),
          ⟨socketFd, result, restartRequired⟩) ∧
      Upload asyncReq upload (result, restartRequired) ∧
      (∀ event ∈ later, ¬Transfers event.call) ∧
      (restartRequired = false → result ≠ espOk → 0 ≤ socketFd →
        ∃ err, ⟨sessTriggerClose socketFd, err⟩ ∈ later) := by
  obtain ⟨upload, ⟨result, restartRequired⟩, ran, listed⟩ :=
    (otaFlashReceive_meets asyncReq).run_after env
      [⟨reqToSockfd asyncReq.req, env [] (reqToSockfd asyncReq.req)⟩]
  unfold otaWorkerServe
  simp only [CallTree.run_bind, CallTree.run_perform, List.nil_append, ran, CallTree.pure_eq,
    CallTree.run_done]
  generalize env [] (reqToSockfd asyncReq.req) = socketFd
  generalize completed : env _ (asyncHandlerComplete asyncReq.req) = err
  have finish := otaWorkerFinish_avoids socketFd result restartRequired
  obtain ⟨later, grown, other⟩ := finish.run env ([⟨reqToSockfd asyncReq.req, socketFd⟩] ++ upload ++
    [⟨asyncHandlerComplete asyncReq.req, err⟩])
  refine ⟨socketFd, upload, result, restartRequired,
    ⟨asyncHandlerComplete asyncReq.req, err⟩ :: later, ?_, listed, ?_, ?_⟩
  · rw [grown]
    simp
  · exact List.forall_mem_cons.mpr ⟨id, other⟩
  · rintro rfl failed valid
    obtain ⟨closed, closes⟩ := otaWorkerFinish_closes failed valid env
      ([⟨reqToSockfd asyncReq.req, socketFd⟩] ++ upload ++ [⟨asyncHandlerComplete asyncReq.req, err⟩])
    have same := List.append_cancel_left (grown.symm.trans closes)
    exact ⟨closed, by simp [same]⟩

/-- The worker closes the session of every upload it did not accept, exactly when no
    silent fault happened. -/
theorem failed_upload_closed_iff (asyncReq : OtaAsyncRequest) (env : OtaEnvironment) :
    (((otaFlashReceive asyncReq).run env []).2.2 = false →
        ((otaFlashReceive asyncReq).run env []).2.1 ≠ espOk ↔
      ¬SilentFault asyncReq ((otaFlashReceive asyncReq).run env []).1) ∧
    (ClosesFailed ((otaWorkerServe asyncReq).run env []).1 ((otaWorkerServe asyncReq).run env []).2 ↔
      ¬SilentFault asyncReq ((otaWorkerServe asyncReq).run env []).1) := by
  constructor
  · have listed := ((otaFlashReceive_meets asyncReq).run_history env).1
    rw [listed.silentFault_iff]
    exact ⟨fun closes fault => closes fault.2 fault.1, fun quiet fails ok => quiet ⟨ok, fails⟩⟩
  · obtain ⟨socketFd, upload, result, restartRequired, later, ran, listed, other, closes⟩ :=
      otaWorkerServe_run asyncReq env
    rw [ran, silentFault_cons id, silentFault_append_other other, listed.silentFault_iff]
    constructor
    · rintro closed ⟨ok, failed⟩
      exact (closed failed).1 ok
    · intro quiet failed
      have reported : result ≠ espOk := fun ok => quiet ⟨ok, failed⟩
      refine ⟨reported, ?_⟩
      intro valid
      obtain ⟨err, member⟩ := closes failed reported valid
      exact ⟨err, List.mem_cons_of_mem _ (List.mem_append_right _ member)⟩

/-- Everything works until the client disconnects before the first byte. -/
def disconnecting : OtaEnvironment
  | _, reqRecv _ => ⟨-1, [], rfl, by omega⟩
  | _, c => sampleRequest.succeeds c

/-- The upload is accepted, and its session is left open with the body unread. -/
theorem disconnected_upload_left_open :
    ⟨requestQueueSend sampleRequest, true⟩ ∈
        ((otaFlashPostHandler sampleRequest.req).run disconnecting []).1 ∧
      ¬ClosesFailed ((otaWorkerServe sampleRequest).run disconnecting []).1
        ((otaWorkerServe sampleRequest).run disconnecting []).2 := by
  constructor
  · exact List.mem_of_getElem? (i := 7) rfl
  · intro closes
    have failed : ((otaWorkerServe sampleRequest).run disconnecting []).2.restartRequired = false := by
      decide +kernel
    have ok : ((otaWorkerServe sampleRequest).run disconnecting []).2.result = espOk := by
      decide +kernel
    exact (closes failed).1 ok

end EspGnss.Ota
