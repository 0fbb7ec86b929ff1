import EspGnss.Http.Interface
import EspGnss.Log.Ring

/-! # `log_stream.c`

Its functions as programs over the calls they make: every critical section, kernel
operation and ESP-IDF function is one call. Rounds are as in `Http.Stream`.
-/

namespace EspGnss.Log

open Foundation
open Http (BeginReply PeekReply NotifyWait eagain ewouldblock)

/-- `LOG_LINE_MAX_LEN` -/
abbrev logLineMaxLen : Nat := 256

/-- `httpd_req_t` of `/log`; `id` stands for the address. -/
structure LogReq where
  id : Nat
  deriving DecidableEq, Repr

/-- `log_async_request_t` -/
structure LogAsyncRequest where
  req : LogReq
  deriving DecidableEq, Repr

/-- The outcome of `vsnprintf` into `char line[LOG_LINE_MAX_LEN]`. -/
structure LineReply where
  formatted : Int
  line : Vector UInt8 logLineMaxLen

inductive LogCall where
  -- the server has received a request for `/log`
  | requestReceive
  | asyncHandlerBegin (req : LogReq)
  | asyncHandlerComplete (req : LogReq)
  | workerReadyTake
  | workerReadyGive
  | requestQueueSend (asyncReq : LogAsyncRequest)
  | requestQueueReceive
  | respSetStatus (req : LogReq) (status : String)
  | respSetType (req : LogReq) (contentType : String)
  | respSetHdr (req : LogReq) (field value : String)
  | respSendstr (req : LogReq) (text : String)
  | respSendChunk (req : LogReq) (chunk : List UInt8)
  | reqToSockfd (req : LogReq)
  | recvPeek (socketFd : Int)
  | notifyGive
  | notifyTake (wait : NotifyWait)
  | workerHandle
  -- the three sections on `s_ring_lock`
  | ringAppend (line : List UInt8)
  | ringOldest
  | ringCopy (lastSent : UInt32)
  | vsnprintf
  -- `s_previous_vprintf`, where there is one
  | previousVprintf
  -- whether a message passes the filters of the `ESP_LOGx` macros
  | espLogEnabled
  deriving DecidableEq

abbrev LogCall.Reply : LogCall → Type
  | requestReceive => LogReq
  | asyncHandlerBegin _ => BeginReply
  | asyncHandlerComplete _ => EspErr
  | workerReadyTake | requestQueueSend _ => Bool
  | workerReadyGive => Unit
  | requestQueueReceive => Option LogAsyncRequest
  | respSetStatus _ _ | respSetType _ _ | respSetHdr _ _ _ | respSendstr _ _ | respSendChunk _ _ => EspErr
  | reqToSockfd _ => Int
  | recvPeek _ => PeekReply
  | notifyGive => Unit
  | notifyTake _ => Nat
  | workerHandle => Bool
  | ringAppend _ => Unit
  | ringOldest => UInt32
  | ringCopy _ => RingCopy
  | vsnprintf => LineReply
  | previousVprintf => Int
  | espLogEnabled => Bool

abbrev LogEvent := CallEvent LogCall.Reply

abbrev LogProgram := CallTree LogCall LogCall.Reply

abbrev call (c : LogCall) : LogProgram c.Reply := CallTree.perform c

open LogCall

section Meets

-- For calls that end a branch, where their replies have plain types.
variable {σ : Type} {m : Monitor LogCall.Reply σ} {q : σ}

@[simp] theorem meets_notifyGive {post : σ → Unit → Prop} :
    CallTree.Meets m post q (call notifyGive) ↔
      m.allows q notifyGive ∧ post (m.observe q ⟨notifyGive, ()⟩) () :=
  ⟨fun meets => ⟨meets.1, meets.2 ()⟩, fun meets => ⟨meets.1, fun _ => meets.2⟩⟩

@[simp] theorem meets_previousVprintf {post : σ → Int → Prop} :
    CallTree.Meets m post q (call previousVprintf) ↔
      m.allows q previousVprintf ∧ ∀ reply, post (m.observe q ⟨previousVprintf, reply⟩) reply := Iff.rfl

end Meets

/-- Where a task starts its next round. -/
inductive LogRound where
  /-- The server waits for a request. -/
  | httpd
  /-- The loop of `log_worker_task`. -/
  | ready
  /-- The loop of `log_response_send`. -/
  | sending (asyncReq : LogAsyncRequest) (lastSent : UInt32)
  /-- A task that logs from time to time. -/
  | logging
  deriving DecidableEq, Repr

def logCaptureVprintf : LogProgram Int := do
  let formatted ← call vsnprintf
  if formatted.formatted > 0 then
    let len := min formatted.formatted.toNat (logLineMaxLen - 1)
    let _ ← call (ringAppend (formatted.line.toList.take len))
    let handle ← call workerHandle
    if handle then call notifyGive
  call previousVprintf

/-- `ESP_LOGI` and `ESP_LOGW`. -/
def espLog : LogProgram Unit := do
  let enabled ← call espLogEnabled
  if enabled then
    let _ ← logCaptureVprintf

def logRequestQueue (req : LogReq) : LogProgram EspErr := do
  let taken ← call workerReadyTake
  if !taken then return espErrNotFinished
  let begun ← call (asyncHandlerBegin req)
  if begun.err ≠ espOk then
    let _ ← call workerReadyGive
    return begun.err
  let copy : LogReq := ⟨begun.id⟩
  let sent ← call (requestQueueSend ⟨copy⟩)
  if !sent then
    let _ ← call workerReadyGive
    let _ ← call (asyncHandlerComplete copy)
    return espFail
  return espOk

def logGetHandler (req : LogReq) : LogProgram EspErr := do
  let err ← logRequestQueue req
  if err = espOk then return espOk
  let _ ← call (respSetStatus req "409 Conflict")
  let _ ← call (respSetType req "text/plain")
  let _ ← call (respSendstr req "a /log client is already connected\n")
  return espOk

def httpdRound : LogProgram LogRound := do
  let req ← call requestReceive
  let _ ← logGetHandler req
  return .httpd

def logClientIsConnected (req : LogReq) : LogProgram Bool := do
  let socketFd ← call (reqToSockfd req)
  let peek ← call (recvPeek socketFd)
  if peek.received = 0 then return false
  if peek.received < 0 ∧ peek.errno ≠ eagain ∧ peek.errno ≠ ewouldblock then return false
  return true

/-- `log_worker_task` up to the loop of `log_response_send`. -/
def readyRound : LogProgram LogRound := do
  let _ ← call workerReadyGive
  let received ← call requestQueueReceive
  match received with
  | none => return .ready
  | some asyncReq =>
      espLog
      let _ ← call (respSetType asyncReq.req "text/plain")
      let _ ← call (respSetHdr asyncReq.req "Cache-Control" "no-store")
      let lastSent ← call ringOldest
      let _ ← call (notifyTake .noWait)
      return .sending asyncReq lastSent

/-- `log_response_send` when it returns, and the rest of the loop of `log_worker_task`. -/
def logFinish (asyncReq : LogAsyncRequest) : LogProgram LogRound := do
  espLog
  let err ← call (asyncHandlerComplete asyncReq.req)
  if err ≠ espOk then espLog
  return .ready

/-- One pass through the loop of `log_response_send`. -/
def sendingRound (asyncReq : LogAsyncRequest) (lastSent : UInt32) : LogProgram LogRound := do
  let copied ← call (ringCopy lastSent)
  if copied.chunk.length > 0 then
    let err ← call (respSendChunk asyncReq.req copied.chunk)
    if err ≠ espOk then return ← logFinish asyncReq
    return .sending asyncReq (copied.lastSent + .ofNat copied.chunk.length)
  let _ ← call (notifyTake .disconnectCheck)
  let connected ← logClientIsConnected asyncReq.req
  if !connected then return ← logFinish asyncReq
  return .sending asyncReq copied.lastSent

def loggingRound : LogProgram LogRound := do
  let _ ← logCaptureVprintf
  return .logging

end EspGnss.Log
