import EspGnss.Nmea.Checksum
import EspGnss.Ota.Interface

/-! # `ota_update.c`

The handlers, the worker and the timer callbacks as programs over the calls of
`Ota.Interface`. Log output is left out, and with it the variable `written`, which
only the log reads.
-/

namespace EspGnss.Ota

open Foundation Nmea OtaCall

/-- `OTA_WRITE_BUFFER_SIZE` -/
def otaWriteBufferSize : Nat := 1024
/-- `OTA_MAX_CONSECUTIVE_RECV_TIMEOUTS` -/
def otaMaxConsecutiveRecvTimeouts : Nat := 3
/-- `OTA_SHA256_HEADER` -/
def otaSha256Header : String := "X-Firmware-SHA256"

def otaSendText (status : Option String) (text : String) : OtaProgram EspErr :=
  call (respSendstr status text)

@[simp] theorem otaSendText_meets {σ : Type} {m : Monitor OtaCall.Reply σ}
    {post : σ → EspErr → Prop} {q : σ} {status text} :
    (otaSendText status text).Meets m post q ↔ m.allows q (respSendstr status text) ∧
      ∀ sent, post (m.observe q ⟨respSendstr status text, sent⟩) sent := Iff.rfl

@[simp] theorem espRestart_meets {σ : Type} {m : Monitor OtaCall.Reply σ}
    {post : σ → Unit → Prop} {q : σ} :
    (call espRestart : OtaProgram Unit).Meets m post q ↔ m.allows q espRestart ∧
      ∀ returned, post (m.observe q ⟨espRestart, returned⟩) returned := Iff.rfl

/-- `hex_digit_value` has the body of `nmea_hex_digit_to_value`. -/
def hexDigitValue (digit : UInt8) : Int := nmeaHexDigitToValue digit

/-- `value[index * 2]` and `value[(index * 2) + 1]` -/
def digitsAt (value : Vector UInt8 (otaSha256HexLen + 1)) (index : Fin otaSha256Len) :
    UInt8 × UInt8 :=
  have bound : index.val * 2 + 1 < otaSha256HexLen := by
    have := index.isLt
    simp only [otaSha256HexLen, otaSha256Len] at *
    omega
  (value[index.val * 2], value[index.val * 2 + 1])

/-- One round of the decoding loop of `ota_sha256_header_parse`. -/
def otaSha256ParseByte (value : Vector UInt8 (otaSha256HexLen + 1)) (output : Sha256)
    (index : Fin otaSha256Len) : Option Sha256 :=
  let high := hexDigitValue (digitsAt value index).1
  let low := hexDigitValue (digitsAt value index).2
  if high < 0 ∨ low < 0 then none
  else some (output.set index (UInt8.ofNat ((high.toNat <<< 4) ||| low.toNat)))

/-- The decoding loop. -/
def otaSha256Parse (value : Vector UInt8 (otaSha256HexLen + 1)) : Option Sha256 :=
  (List.finRange otaSha256Len).foldlM (otaSha256ParseByte value) (.replicate _ 0)

/-- `ota_sha256_header_parse`; its output array is read only when it returns true. -/
def otaSha256HeaderParse : OtaProgram (Option Sha256) := do
  let length ← call (reqGetHdrValueLen otaSha256Header)
  if length ≠ otaSha256HexLen then return none
  let header ← call (reqGetHdrValueStr otaSha256Header)
  if header.err ≠ espOk then return none
  return otaSha256Parse header.value

def otaRestartCallback : OtaProgram Unit := call espRestart

def otaConfirmationTimeoutCallback : OtaProgram Unit := do
  let pending ← call confirmationPendingGet
  if pending then call espRestart

def otaRestartSchedule : OtaProgram Unit := do
  let startTimer ← call restartScheduledTestAndSet
  if startTimer then
    let started ← call (timerStart .restart)
    if !started then call espRestart

def otaRequestQueue (req : HttpdReq) (updatePartition : EspPartition)
    (expectedSha256 : Sha256) : OtaProgram EspErr := do
  let taken ← call workerReadyTake
  if !taken then return espErrNotFinished
  let err ← call (asyncHandlerBegin req)
  if err ≠ espOk then
    let _ ← call workerReadyGive
    return err
  let sent ← call (requestQueueSend ⟨req, updatePartition, expectedSha256⟩)
  if !sent then
    let _ ← call workerReadyGive
    let _ ← call (asyncHandlerComplete req)
    return espFail
  return espOk

def otaFlashPostHandler (req : HttpdReq) : OtaProgram EspErr := do
  let scheduled ← call restartScheduledGet
  if scheduled then
    return ← otaSendText (some "409 Conflict") "a reboot is already scheduled\n"
  let pending ← call confirmationPendingGet
  if pending then
    return ← otaSendText (some "409 Conflict")
      "confirm or roll back the running firmware before another update\n"
  if req.contentLen = 0 then
    return ← otaSendText (some "411 Length Required")
      "POST /flash requires a non-empty Content-Length body\n"
  let some expectedSha256 ← otaSha256HeaderParse
    | otaSendText (some "400 Bad Request") "missing or invalid X-Firmware-SHA256 header\n"
  let some updatePartition ← call otaGetNextUpdatePartition
    | otaSendText (some "503 Service Unavailable") "no inactive OTA application slot is available\n"
  if req.contentLen > updatePartition.size then
    return ← otaSendText (some "413 Content Too Large")
      "firmware image does not fit the inactive OTA slot\n"
  let err ← otaRequestQueue req updatePartition expectedSha256
  if err = espOk then return espOk
  otaSendText (some "409 Conflict") "another firmware upload is already active\n"

/-- `snprintf` into `char response[256]`. -/
def responseText (text : String) : String := .ofList (text.toList.take 255)

/-- The calls among the arguments of `snprintf` stand in one of the orders that C allows. -/
def otaStatusGetHandler : OtaProgram EspErr := do
  let running ← call otaGetRunningPartition
  let boot ← call otaGetBootPartition
  let next ← call otaGetNextUpdatePartition
  let version ← call appVersionString
  let pending ← call confirmationPendingGet
  let possible ← call otaCheckRollbackIsPossible
  let label (partition : Option EspPartition) := (partition.map (·.label)).getD "<none>"
  let yesNo (flag : Bool) := if flag then "yes" else "no"
  otaSendText none <| responseText <|
    "version=" ++ version ++ "\nrunning=" ++ label running ++ "\nboot=" ++ label boot ++
    "\nconfirmation_pending=" ++ yesNo pending ++ "\nrollback_possible=" ++ yesNo possible ++
    "\nnext_slot=" ++ label next ++
    "\nnext_slot_bytes=" ++ toString ((next.map (·.size)).getD 0) ++ "\n"

/-- What `/flash/confirm` answers when it has confirmed. -/
def confirmedText : String := "running firmware confirmed\n"

def otaConfirmPostHandler : OtaProgram EspErr := do
  let pending ← call confirmationPendingGet
  if !pending then
    return ← otaSendText (some "409 Conflict") "running firmware is not awaiting confirmation\n"
  let err ← call otaMarkAppValidCancelRollback
  if err ≠ espOk then
    return ← otaSendText (some "500 Internal Server Error") "failed to confirm running firmware\n"
  let _ ← call (confirmationPendingSet false)
  let _ ← call (timerStop .confirmation)
  otaSendText none confirmedText

def otaRollbackPostHandler : OtaProgram EspErr := do
  let scheduled ← call restartScheduledGet
  if scheduled then
    return ← otaSendText (some "409 Conflict") "a reboot is already scheduled\n"
  let possible ← call otaCheckRollbackIsPossible
  if !possible then
    return ← otaSendText (some "409 Conflict") "no older bootable OTA image is available\n"
  let err ← call otaMarkAppInvalidRollback
  if err ≠ espOk then
    return ← otaSendText (some "500 Internal Server Error") "failed to select rollback firmware\n"
  let responseErr ← otaSendText none "rollback selected; rebooting\n"
  otaRestartSchedule
  return responseErr

/-- The receive loop of `ota_flash_receive`: the value of `result` when it is left,
    and whether the whole body was received. -/
def otaReceiveLoop (otaHandle : Nat) (result : EspErr) (remaining consecutiveTimeouts : Nat) :
    OtaProgram (EspErr × Bool) :=
  if 0 < remaining then do
    let reply ← call (reqRecv (min remaining otaWriteBufferSize))
    if reply.received = httpdSockErrTimeout then
      if again : consecutiveTimeouts + 1 < otaMaxConsecutiveRecvTimeouts then
        otaReceiveLoop otaHandle result remaining (consecutiveTimeouts + 1)
      else do
        let _ ← otaSendText (some "408 Request Timeout") "firmware upload timed out\n"
        return (result, false)
    else if reply.received ≤ 0 then do
      let _ ← otaSendText (some "400 Bad Request") "incomplete firmware upload\n"
      return (result, false)
    else do
      let psaStatus ← call (psaHashUpdate reply.buffer)
      if psaStatus ≠ psaSuccess then
        let _ ← otaSendText (some "500 Internal Server Error") "checksum calculation failed\n"
        return (result, false)
      let result ← call (otaWrite otaHandle reply.buffer)
      if result ≠ espOk then
        let _ ← otaSendText (some "422 Unprocessable Content") "firmware write validation failed\n"
        return (result, false)
      otaReceiveLoop otaHandle result (remaining - reply.received.toNat) 0
  else return (result, true)
termination_by 4 * remaining + (3 - consecutiveTimeouts)
decreasing_by
  · simp only [otaMaxConsecutiveRecvTimeouts] at again
    omega
  · omega

/-- The locals of `ota_flash_receive` that its `cleanup` section and its caller read. -/
structure ReceiveExit where
  result : EspErr
  restartRequired : Bool
  hashActive : Bool
  otaActive : Bool
  otaHandle : Nat

/-- What an accepted upload is answered. -/
def acceptedText : String :=
  "firmware accepted; rebooting into pending image\n" ++
    "reconnect and POST /flash/confirm before the rollback timeout\n"

/-- `ota_flash_receive` from `psa_hash_finish` to the label `cleanup`; every `return` is a
    `goto cleanup`. -/
def otaFlashReceiveVerify (asyncReq : OtaAsyncRequest) (otaHandle : Nat) (result : EspErr) :
    OtaProgram ReceiveExit := do
  let actual ← call psaHashFinish
  if actual.status ≠ psaSuccess ∨ actual.length ≠ otaSha256Len then
    let _ ← otaSendText (some "500 Internal Server Error") "checksum calculation failed\n"
    return ⟨result, false, false, true, otaHandle⟩
  if actual.sha256 ≠ asyncReq.expectedSha256 then
    let _ ← otaSendText (some "422 Unprocessable Content") "firmware SHA-256 mismatch\n"
    return ⟨result, false, false, true, otaHandle⟩
  let result ← call (otaEnd otaHandle)
  if result ≠ espOk then
    let _ ← otaSendText (some "422 Unprocessable Content") "ESP-IDF rejected firmware image\n"
    return ⟨result, false, false, false, otaHandle⟩
  let result ← call (otaSetBootPartition asyncReq.updatePartition)
  if result ≠ espOk then
    let _ ← otaSendText (some "500 Internal Server Error") "failed to select uploaded firmware\n"
    return ⟨result, false, false, false, otaHandle⟩
  let _ ← otaSendText none acceptedText
  return ⟨espOk, true, false, false, otaHandle⟩

/-- `ota_flash_receive` up to the label `cleanup`. -/
def otaFlashReceiveBody (asyncReq : OtaAsyncRequest) : OtaProgram ReceiveExit := do
  let psaStatus ← call psaHashSetup
  if psaStatus ≠ psaSuccess then
    let _ ← otaSendText (some "500 Internal Server Error") "failed to initialize checksum\n"
    return ⟨espFail, false, false, false, 0⟩
  let ⟨result, otaHandle⟩ ← call (otaBegin asyncReq.updatePartition)
  if result ≠ espOk then
    let _ ← otaSendText (some "500 Internal Server Error") "failed to begin OTA update\n"
    return ⟨result, false, true, false, otaHandle⟩
  let (result, received) ← otaReceiveLoop otaHandle result asyncReq.req.contentLen 0
  if !received then return ⟨result, false, true, true, otaHandle⟩
  otaFlashReceiveVerify asyncReq otaHandle result

/-- `ota_flash_receive`: its return value and `*restart_required`. -/
def otaFlashReceive (asyncReq : OtaAsyncRequest) : OtaProgram (EspErr × Bool) := do
  let ending ← otaFlashReceiveBody asyncReq
  if ending.hashActive then
    let _ ← call psaHashAbort
  if ending.otaActive then
    let _ ← call (otaAbort ending.otaHandle)
  return (ending.result, ending.restartRequired)

/-- What `ota_worker_task` does with the outcome of an upload. -/
def otaWorkerFinish (socketFd : Int) (result : EspErr) (restartRequired : Bool) :
    OtaProgram Unit := do
  if restartRequired then
    otaRestartSchedule
  else if result ≠ espOk ∧ 0 ≤ socketFd then
    let _ ← call (sessTriggerClose socketFd)

/-- The locals of `ota_worker_task` at the end of one round of its loop. -/
structure WorkerRound where
  socketFd : Int
  result : EspErr
  restartRequired : Bool

/-- One round of `ota_worker_task` after `xQueueReceive` has delivered a request. -/
def otaWorkerServe (asyncReq : OtaAsyncRequest) : OtaProgram WorkerRound := do
  let socketFd ← call (reqToSockfd asyncReq.req)
  let (result, restartRequired) ← otaFlashReceive asyncReq
  let _ ← call (asyncHandlerComplete asyncReq.req)
  otaWorkerFinish socketFd result restartRequired
  return ⟨socketFd, result, restartRequired⟩

end EspGnss.Ota
