import EspGnss.Ota.Update

/-! # What one upload can do

`Upload` lists the histories of `ota_flash_receive` with what it returns after each.
Everything about a single upload is read off this list.
-/

namespace EspGnss.Ota

open Foundation OtaCall

/-- The receive loop has taken `body` in without a fault; its last `timeouts` calls of
    `httpd_req_recv` timed out. -/
inductive Transferred (otaHandle : Nat) : (body : List UInt8) → (timeouts : Nat) →
    List OtaEvent → Prop
  | start : Transferred otaHandle [] 0 []
  | timeout {body timeouts events requested} {reply : RecvReply requested} :
      Transferred otaHandle body timeouts events →
      reply.received = httpdSockErrTimeout →
      timeouts + 1 < otaMaxConsecutiveRecvTimeouts →
      Transferred otaHandle body (timeouts + 1) (events ++ [⟨reqRecv requested, reply⟩])
  | chunk {body timeouts events requested} {reply : RecvReply requested} :
      Transferred otaHandle body timeouts events →
      0 < reply.received →
      Transferred otaHandle (body ++ reply.buffer) 0
        (events ++ [⟨reqRecv requested, reply⟩, ⟨psaHashUpdate reply.buffer, psaSuccess⟩,
          ⟨otaWrite otaHandle reply.buffer, espOk⟩])

/-- The receive loop was left early, with `result` as it stood then. -/
inductive Interrupted (otaHandle : Nat) : List OtaEvent → (result : EspErr) → Prop
  | timedOut {body timeouts events requested} {reply : RecvReply requested} {status text sent} :
      Transferred otaHandle body timeouts events →
      reply.received = httpdSockErrTimeout →
      otaMaxConsecutiveRecvTimeouts ≤ timeouts + 1 →
      Interrupted otaHandle
        (events ++ [⟨reqRecv requested, reply⟩, ⟨respSendstr status text, sent⟩]) espOk
  | disconnected {body timeouts events requested} {reply : RecvReply requested}
      {status text sent} :
      Transferred otaHandle body timeouts events →
      reply.received ≠ httpdSockErrTimeout → reply.received ≤ 0 →
      Interrupted otaHandle
        (events ++ [⟨reqRecv requested, reply⟩, ⟨respSendstr status text, sent⟩]) espOk
  | hashFailed {body timeouts events requested} {reply : RecvReply requested} {psaStatus}
      {status text sent} :
      Transferred otaHandle body timeouts events →
      0 < reply.received → psaStatus ≠ psaSuccess →
      Interrupted otaHandle
        (events ++ [⟨reqRecv requested, reply⟩, ⟨psaHashUpdate reply.buffer, psaStatus⟩,
          ⟨respSendstr status text, sent⟩]) espOk
  | writeFailed {body timeouts events requested} {reply : RecvReply requested} {err}
      {status text sent} :
      Transferred otaHandle body timeouts events →
      0 < reply.received → err ≠ espOk →
      Interrupted otaHandle
        (events ++ [⟨reqRecv requested, reply⟩, ⟨psaHashUpdate reply.buffer, psaSuccess⟩,
          ⟨otaWrite otaHandle reply.buffer, err⟩, ⟨respSendstr status text, sent⟩]) err

/-- The calls of the receive loop. -/
def InLoop (otaHandle : Nat) : OtaCall → Prop
  | reqRecv _ | psaHashUpdate _ | respSendstr _ _ => True
  | otaWrite handle _ => handle = otaHandle
  | _ => False

theorem Transferred.inLoop {otaHandle body timeouts events}
    (far : Transferred otaHandle body timeouts events) :
    ∀ event ∈ events, InLoop otaHandle event.call := by
  induction far with
  | start => exact nofun
  | timeout before timedOut again ih =>
      exact List.forall_mem_append.mpr ⟨ih, by simp [InLoop]⟩
  | chunk before some ih =>
      exact List.forall_mem_append.mpr ⟨ih, by simp [InLoop]⟩

theorem Interrupted.inLoop {otaHandle events result} (left : Interrupted otaHandle events result) :
    ∀ event ∈ events, InLoop otaHandle event.call := by
  cases left with
  | timedOut far | disconnected far | hashFailed far | writeFailed far =>
      exact List.forall_mem_append.mpr ⟨far.inLoop, by simp [InLoop]⟩

/-- What the calls of the receive loop preserve, the loop preserves. -/
theorem otaReceiveLoop_keeps {σ : Type} {m : Monitor OtaCall.Reply σ} {I : σ → Prop}
    {otaHandle result remaining timeouts q}
    (each : ∀ q c, I q → InLoop otaHandle c →
      m.allows q c ∧ ∀ reply, I (m.observe q ⟨c, reply⟩))
    (start : I q) :
    (otaReceiveLoop otaHandle result remaining timeouts).Meets m (fun q _ => I q) q := by
  induction result, remaining, timeouts using otaReceiveLoop.induct otaHandle generalizing q with
  | case2 result remaining timeouts done =>
      rw [otaReceiveLoop, if_neg done]
      exact start
  | case1 result remaining timeouts more onTimeout onChunk =>
      have sends {q status text} (held : I q) := each q (respSendstr status text) held trivial
      rw [otaReceiveLoop, if_pos more]
      simp only [CallTree.meets_bind, CallTree.meets_perform, CallTree.meets_ite,
        CallTree.meets_dite, CallTree.meets_done, CallTree.pure_eq, otaSendText_meets]
      obtain ⟨allowed, received⟩ := each q (reqRecv (min remaining otaWriteBufferSize)) start trivial
      refine ⟨allowed, ?_⟩
      intro reply
      split
      · split
        · rename_i again
          exact onTimeout reply again (received reply)
        · exact sends (received reply)
      split
      · exact sends (received reply)
      rename_i arrived
      obtain ⟨allowed, digested⟩ := each _ (psaHashUpdate reply.buffer) (received reply) trivial
      refine ⟨allowed, ?_⟩
      intro psaStatus
      split
      · exact sends (digested psaStatus)
      obtain ⟨allowed, stored⟩ := each _ (otaWrite otaHandle reply.buffer) (digested psaStatus) rfl
      refine ⟨allowed, ?_⟩
      intro err
      split
      · exact sends (stored err)
      · exact onChunk reply arrived err (stored err)

/-- The calls before the receive loop. -/
def opening (asyncReq : OtaAsyncRequest) (otaHandle : Nat) : List OtaEvent :=
  [⟨psaHashSetup, psaSuccess⟩, ⟨otaBegin asyncReq.updatePartition, ⟨espOk, otaHandle⟩⟩]

/-- The whole body has been received, hashed and written. -/
def Received (asyncReq : OtaAsyncRequest) (otaHandle : Nat) (history : List OtaEvent) : Prop :=
  ∃ body timeouts events, Transferred otaHandle body timeouts events ∧
    body.length = asyncReq.req.contentLen ∧ history = opening asyncReq otaHandle ++ events

/-- The digest that agrees with the request's header. -/
def OtaAsyncRequest.agreed (asyncReq : OtaAsyncRequest) : FinishReply :=
  ⟨psaSuccess, asyncReq.expectedSha256, otaSha256Len⟩

/-- The received image has the announced digest and ESP-IDF has accepted it. -/
def Verified (asyncReq : OtaAsyncRequest) (history : List OtaEvent) : Prop :=
  ∃ otaHandle earlier, Received asyncReq otaHandle earlier ∧
    history = earlier ++ [⟨psaHashFinish, asyncReq.agreed⟩, ⟨otaEnd otaHandle, espOk⟩]

inductive Upload (asyncReq : OtaAsyncRequest) : List OtaEvent → EspErr × Bool → Prop
  | setupFailed {psaStatus status text sent} :
      psaStatus ≠ psaSuccess →
      Upload asyncReq [⟨psaHashSetup, psaStatus⟩, ⟨respSendstr status text, sent⟩] (espFail, false)
  | beginFailed {reply status text sent aborted} :
      reply.err ≠ espOk →
      Upload asyncReq
        [⟨psaHashSetup, psaSuccess⟩, ⟨otaBegin asyncReq.updatePartition, reply⟩,
          ⟨respSendstr status text, sent⟩, ⟨psaHashAbort, aborted⟩] (reply.err, false)
  | interrupted {otaHandle events result hashAborted aborted} :
      Interrupted otaHandle events result →
      Upload asyncReq
        (opening asyncReq otaHandle ++ events ++
          [⟨psaHashAbort, hashAborted⟩, ⟨otaAbort otaHandle, aborted⟩]) (result, false)
  | rejected {otaHandle history actual status text sent aborted} :
      Received asyncReq otaHandle history → actual ≠ asyncReq.agreed →
      Upload asyncReq
        (history ++ [⟨psaHashFinish, actual⟩, ⟨respSendstr status text, sent⟩,
          ⟨otaAbort otaHandle, aborted⟩]) (espOk, false)
  | endFailed {otaHandle history err status text sent} :
      Received asyncReq otaHandle history → err ≠ espOk →
      Upload asyncReq
        (history ++ [⟨psaHashFinish, asyncReq.agreed⟩, ⟨otaEnd otaHandle, err⟩,
          ⟨respSendstr status text, sent⟩]) (err, false)
  | selectFailed {history err status text sent} :
      Verified asyncReq history → err ≠ espOk →
      Upload asyncReq
        (history ++ [⟨otaSetBootPartition asyncReq.updatePartition, err⟩,
          ⟨respSendstr status text, sent⟩]) (err, false)
  | accepted {history status text sent} :
      Verified asyncReq history →
      Upload asyncReq
        (history ++ [⟨otaSetBootPartition asyncReq.updatePartition, espOk⟩,
          ⟨respSendstr status text, sent⟩]) (espOk, true)

/-- The boot partition is set only after the image has been verified. -/
def SelectsVerified (asyncReq : OtaAsyncRequest) (history : List OtaEvent) (c : OtaCall) : Prop :=
  ∀ partition, c = otaSetBootPartition partition →
    partition = asyncReq.updatePartition ∧ Verified asyncReq history

variable {asyncReq : OtaAsyncRequest}

/-- What the loop promises on leaving: the body in full and a clean `result`, or an
    interruption. -/
def LoopExit (before : List OtaEvent) (otaHandle bodyLength : Nat) (history : List OtaEvent)
    (ending : EspErr × Bool) : Prop :=
  ∃ later, history = before ++ later ∧
    match ending with
    | (result, true) => result = espOk ∧
        ∃ body timeouts, Transferred otaHandle body timeouts later ∧ body.length = bodyLength
    | (result, false) => Interrupted otaHandle later result

theorem otaReceiveLoop_meets {before : List OtaEvent}
    {otaHandle result remaining timeouts bodyLength body events}
    (far : Transferred otaHandle body timeouts events)
    (missing : body.length + remaining = bodyLength) (clear : result = espOk) :
    (otaReceiveLoop otaHandle result remaining timeouts).Meets
      (Monitor.onHistory (SelectsVerified asyncReq)) (LoopExit before otaHandle bodyLength)
      (before ++ events) := by
  induction result, remaining, timeouts using otaReceiveLoop.induct otaHandle
      generalizing body events with
  | case2 result remaining timeouts done =>
      rw [otaReceiveLoop, if_neg done]
      exact ⟨events, rfl, clear, body, timeouts, far, by omega⟩
  | case1 result remaining timeouts more onTimeout onChunk =>
      subst clear
      rw [otaReceiveLoop, if_pos more]
      simp only [CallTree.meets_bind, CallTree.meets_perform, CallTree.meets_ite,
        CallTree.meets_dite, CallTree.meets_done, CallTree.pure_eq, otaSendText_meets,
        Monitor.onHistory_observe, Monitor.onHistory_allows, SelectsVerified, reduceCtorEq,
        false_implies, implies_true, true_and, List.append_assoc,
        List.cons_append, List.nil_append]
      intro reply
      split
      · rename_i timedOut
        split
        · rename_i again
          exact onTimeout reply again (far.timeout timedOut again) missing rfl
        · rename_i enough
          intro sent
          exact ⟨_, rfl, .timedOut far timedOut (Nat.not_lt.mp enough)⟩
      · rename_i answered
        split
        · rename_i gone
          intro sent
          exact ⟨_, rfl, .disconnected far answered gone⟩
        · rename_i arrived
          have some : 0 < reply.received := Int.not_le.mp arrived
          intro psaStatus
          split
          · rename_i unhashed
            intro sent
            exact ⟨_, rfl, .hashFailed far some unhashed⟩
          · rename_i hashed
            obtain rfl : psaStatus = psaSuccess := Decidable.not_not.mp hashed
            intro err
            split
            · rename_i unwritten
              intro sent
              exact ⟨_, rfl, .writeFailed far some unwritten⟩
            · rename_i written
              obtain rfl : err = espOk := Decidable.not_not.mp written
              refine onChunk reply arrived espOk (far.chunk some) ?_ rfl
              have filled := reply.filled
              have fits := reply.fits
              rw [List.length_append]
              omega

/-- What the `cleanup` section calls. -/
def ReceiveExit.cleanup (ending : ReceiveExit) (hashAborted : Int) (aborted : EspErr) :
    List OtaEvent :=
  (if ending.hashActive then [⟨psaHashAbort, hashAborted⟩] else []) ++
    (if ending.otaActive then [⟨otaAbort ending.otaHandle, aborted⟩] else [])

/-- Where `goto cleanup` comes from, the rest of the function completes an upload. -/
def Cleans (asyncReq : OtaAsyncRequest) (history : List OtaEvent) (ending : ReceiveExit) : Prop :=
  ∀ hashAborted aborted, Upload asyncReq (history ++ ending.cleanup hashAborted aborted)
    (ending.result, ending.restartRequired)

theorem otaFlashReceiveVerify_meets {otaHandle history}
    (received : Received asyncReq otaHandle history) :
    (otaFlashReceiveVerify asyncReq otaHandle espOk).Meets
      (Monitor.onHistory (SelectsVerified asyncReq)) (Cleans asyncReq) history := by
  unfold otaFlashReceiveVerify
  simp only [CallTree.meets_bind, CallTree.meets_perform, CallTree.meets_ite,
    CallTree.meets_done, CallTree.pure_eq, otaSendText_meets,
    Monitor.onHistory_observe, Monitor.onHistory_allows, SelectsVerified, reduceCtorEq,
    false_implies, implies_true, true_and, List.append_assoc,
    List.cons_append, List.nil_append]
  intro actual
  split
  · rename_i unfinished
    intro sent hashAborted aborted
    have differs : actual ≠ asyncReq.agreed := by
      rintro rfl
      exact unfinished.elim (· rfl) (· rfl)
    simpa [ReceiveExit.cleanup] using Upload.rejected received differs
  split
  · rename_i mismatch
    intro sent hashAborted aborted
    have differs : actual ≠ asyncReq.agreed := by
      rintro rfl
      exact mismatch rfl
    simpa [ReceiveExit.cleanup] using Upload.rejected received differs
  rename_i finished same
  obtain rfl : actual = asyncReq.agreed := by
    obtain ⟨status, sha256, length⟩ := actual
    rw [not_or, Decidable.not_not, Decidable.not_not] at finished
    obtain ⟨rfl, rfl⟩ := finished
    obtain rfl : sha256 = asyncReq.expectedSha256 := Decidable.not_not.mp same
    rfl
  intro err
  split
  · rename_i invalid
    intro sent hashAborted aborted
    simpa [ReceiveExit.cleanup] using Upload.endFailed received invalid
  rename_i valid
  obtain rfl : err = espOk := Decidable.not_not.mp valid
  have verified : Verified asyncReq (history ++
      [⟨psaHashFinish, asyncReq.agreed⟩, ⟨otaEnd otaHandle, espOk⟩]) :=
    ⟨otaHandle, history, received, rfl⟩
  refine ⟨?_, ?_⟩
  · intro partition same
    cases same
    exact ⟨rfl, verified⟩
  intro err
  split
  · rename_i unselected
    intro sent hashAborted aborted
    simpa [ReceiveExit.cleanup] using Upload.selectFailed verified unselected
  · rename_i selected
    obtain rfl : err = espOk := Decidable.not_not.mp selected
    intro sent hashAborted aborted
    simpa [ReceiveExit.cleanup] using Upload.accepted verified

theorem otaFlashReceiveBody_meets :
    (otaFlashReceiveBody asyncReq).Meets (Monitor.onHistory (SelectsVerified asyncReq))
      (Cleans asyncReq) [] := by
  have loop (otaHandle) : (otaReceiveLoop otaHandle espOk asyncReq.req.contentLen 0).Meets
      (Monitor.onHistory (SelectsVerified asyncReq))
      (LoopExit (opening asyncReq otaHandle) otaHandle asyncReq.req.contentLen)
      (opening asyncReq otaHandle) := by
    simpa only [List.append_nil] using otaReceiveLoop_meets .start (Nat.zero_add _) rfl
  unfold otaFlashReceiveBody
  simp only [CallTree.meets_bind, CallTree.meets_perform, CallTree.meets_ite,
    CallTree.meets_done, CallTree.pure_eq, otaSendText_meets,
    Monitor.onHistory_observe, Monitor.onHistory_allows, SelectsVerified, reduceCtorEq,
    false_implies, implies_true, true_and, List.append_assoc,
    List.cons_append, List.nil_append]
  intro psaStatus
  split
  · rename_i unset
    intro sent hashAborted aborted
    exact .setupFailed unset
  rename_i set
  obtain rfl : psaStatus = psaSuccess := Decidable.not_not.mp set
  intro reply
  split
  · rename_i unopened
    intro sent hashAborted aborted
    exact .beginFailed unopened
  rename_i opened
  obtain ⟨err, otaHandle⟩ := reply
  obtain rfl : err = espOk := Decidable.not_not.mp opened
  refine (loop otaHandle).mono ?_
  rintro history ⟨result, received⟩ ⟨later, rfl, left⟩
  cases received with
  | false =>
      intro hashAborted aborted
      exact .interrupted left
  | true =>
      obtain ⟨rfl, body, timeouts, far, whole⟩ := left
      exact otaFlashReceiveVerify_meets ⟨body, timeouts, later, far, whole, rfl⟩

/-- Whatever the replies are, `ota_flash_receive` does one of the things `Upload` lists,
    and selects the boot partition after a verified image only. -/
theorem otaFlashReceive_meets (asyncReq : OtaAsyncRequest) :
    (otaFlashReceive asyncReq).Meets (Monitor.onHistory (SelectsVerified asyncReq))
      (Upload asyncReq) [] := by
  unfold otaFlashReceive
  rw [CallTree.meets_bind]
  apply otaFlashReceiveBody_meets.mono
  intro history ending cleans
  obtain ⟨result, restartRequired, hashActive, otaActive, otaHandle⟩ := ending
  unfold Cleans ReceiveExit.cleanup at cleans
  cases hashActive <;> cases otaActive <;> simp_all [SelectsVerified]

end EspGnss.Ota
