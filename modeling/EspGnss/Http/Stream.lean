import EspGnss.Http.Led

/-! # `http_stream.c`

The handlers and the tasks as programs over the calls of `Http.Interface`. An endless
loop is one round after another; a round that ends names the loop that goes on and the
variables it goes on with. Log output is left out.
-/

namespace EspGnss.Http

open Foundation Gnss HttpCall

variable {workers : Nat}

/-- `HTTP_WRITE_BUFFER_SIZE` -/
def httpWriteBufferSize : Nat := 512

/-- Where a task starts its next round. -/
inductive HttpRound where
  /-- The server waits for a request. -/
  | httpd
  /-- The loop of `http_stack_task`. -/
  | dispatching
  /-- The loop of `http_stream_worker_task`. -/
  | streamReady
  /-- The loop of `stream_response_send`. -/
  | streaming (asyncReq : HttpAsyncRequest) (lastSequence : UInt32)
  /-- The loop of `http_write_worker_task`. -/
  | writeReady
  /-- The loop of `write_request_receive`. -/
  | writing (asyncReq : HttpAsyncRequest) (remaining : Nat)
  /-- The startup loop of `generic_task`. -/
  | blinking (blink : Nat)
  /-- The endless loop of `generic_task`. -/
  | indicating (ledOn : Bool)
  /-- The tasks of `gnss.c`. -/
  | gnss
  deriving DecidableEq, Repr

def streamRequestQueue (req : HttpdReq) (contentType : String) : HttpProgram workers EspErr := do
  let begun ← call (asyncHandlerBegin req)
  if begun.err ≠ espOk then return begun.err
  let copy := { req with id := begun.id }
  let taken ← call (workerReadyTake .stream)
  if !taken then
    let _ ← call (asyncHandlerComplete copy)
    return espErrNotFinished
  let sent ← call (requestQueueSend .stream ⟨copy, some contentType⟩)
  if !sent then
    let _ ← call (workerReadyGive .stream)
    let _ ← call (asyncHandlerComplete copy)
    return espFail
  return espOk

/-- `httpd_resp_set_status`, `httpd_resp_set_type` and `httpd_resp_sendstr`. -/
def respondText (req : HttpdReq) (status text : String) : HttpProgram workers Unit := do
  let _ ← call (respSetStatus req status)
  let _ ← call (respSetType req (some "text/plain"))
  let _ ← call (respSendstr req text)
  return ()

def readGetHandler (req : HttpdReq) : HttpProgram workers EspErr := do
  let err ← streamRequestQueue req "application/octet-stream"
  if err = espOk then return espOk
  respondText req "503 Service Unavailable" "all stream workers are in use\n"
  return espOk

def viewGetHandler (req : HttpdReq) : HttpProgram workers EspErr := do
  let err ← streamRequestQueue req "text/plain"
  if err = espOk then return espOk
  respondText req "503 Service Unavailable" "all stream workers are in use\n"
  return espOk

def writeRequestQueue (req : HttpdReq) : HttpProgram workers EspErr := do
  let taken ← call (workerReadyTake .write)
  if !taken then return espErrNotFinished
  let begun ← call (asyncHandlerBegin req)
  if begun.err ≠ espOk then
    let _ ← call (workerReadyGive .write)
    return begun.err
  let copy := { req with id := begun.id }
  let sent ← call (requestQueueSend .write ⟨copy, none⟩)
  if !sent then
    let _ ← call (workerReadyGive .write)
    let _ ← call (asyncHandlerComplete copy)
    return espFail
  return espOk

def writePostHandler (req : HttpdReq) : HttpProgram workers EspErr := do
  if req.contentLen = 0 then
    respondText req "411 Length Required" "POST /write requires a non-empty Content-Length body\n"
    return espOk
  let err ← writeRequestQueue req
  if err = espOk then return espOk
  respondText req "409 Conflict" "another GNSS writer is already active\n"
  return espOk

def HttpUri.handler (req : HttpdReq) : HttpUri → HttpProgram workers EspErr
  | read => readGetHandler req
  | view => viewGetHandler req
  | write => writePostHandler req

/-- The server task receives a request and runs its handler. -/
def httpdRound : HttpProgram workers HttpRound := do
  let req ← call requestReceive
  let _ ← req.uri.handler req
  return .httpd

def streamClientIsConnected (req : HttpdReq) : HttpProgram workers Bool := do
  let socketFd ← call (reqToSockfd req)
  let peek ← call (recvPeek socketFd)
  if peek.received = 0 then return false
  if peek.received < 0 ∧ peek.errno ≠ eagain ∧ peek.errno ≠ ewouldblock then return false
  return true

/-- `http_stream_worker_task` up to the loop of `stream_response_send`. -/
def streamReadyRound : HttpProgram workers HttpRound := do
  let _ ← call (workerReadyGive .stream)
  let received ← call (requestQueueReceive .stream)
  match received with
  | none => return .streamReady
  | some asyncReq =>
      genericLedClientConnected
      let _ ← call (respSetType asyncReq.req asyncReq.contentType)
      let _ ← call (respSetHdr asyncReq.req "Cache-Control" "no-store")
      let _ ← call (notifyTake .noWait)
      return .streaming asyncReq 0

/-- `http_stream_worker_task` after `stream_response_send` has returned. -/
def streamFinish (asyncReq : HttpAsyncRequest) : HttpProgram workers HttpRound := do
  genericLedClientDisconnected
  let _ ← call (asyncHandlerComplete asyncReq.req)
  return .streamReady

/-- One pass through the loop of `stream_response_send`. -/
def streamingRound (asyncReq : HttpAsyncRequest) (lastSequence : UInt32) :
    HttpProgram workers HttpRound := do
  let copied ← call (latestCopyIfNew lastSequence)
  match copied with
  | some publication =>
      let err ← call (respSendChunk asyncReq.req publication.data publication.len)
      if err ≠ espOk then return ← streamFinish asyncReq
      genericLedPacketConsumed
      return .streaming asyncReq publication.sequence
  | none =>
      let _ ← call (notifyTake .disconnectCheck)
      let connected ← streamClientIsConnected asyncReq.req
      if !connected then return ← streamFinish asyncReq
      return .streaming asyncReq lastSequence

/-- `http_write_worker_task` after `write_request_receive` has returned. -/
def writeFinish (asyncReq : HttpAsyncRequest) : HttpProgram workers HttpRound := do
  let _ ← call (asyncHandlerComplete asyncReq.req)
  return .writeReady

/-- `http_write_worker_task` up to the loop of `write_request_receive`. -/
def writeReadyRound : HttpProgram workers HttpRound := do
  let _ ← call (workerReadyGive .write)
  let received ← call (requestQueueReceive .write)
  match received with
  | none => return .writeReady
  | some asyncReq =>
      let result ← call gnssOverrideBegin
      if result ≠ espOk then
        respondText asyncReq.req "409 Conflict" "GNSS input override is already active\n"
        return ← writeFinish asyncReq
      return .writing asyncReq asyncReq.req.contentLen

/-- `write_request_receive` once its loop has been left with `result`. -/
def writeEnd (asyncReq : HttpAsyncRequest) (result : EspErr) : HttpProgram workers HttpRound := do
  let _ ← call gnssOverrideEnd
  if result ≠ espOk then return ← writeFinish asyncReq
  let _ ← call (respSetType asyncReq.req (some "text/plain"))
  let _ ← call (respSendstr asyncReq.req "GNSS mock stream accepted\n")
  writeFinish asyncReq

/-- One pass through the loop of `write_request_receive`. -/
def writingRound (asyncReq : HttpAsyncRequest) (remaining : Nat) : HttpProgram workers HttpRound := do
  if remaining = 0 then return ← writeEnd asyncReq espOk
  let reply ← call (reqRecv asyncReq.req (min remaining httpWriteBufferSize))
  if reply.received = httpdSockErrTimeout then return .writing asyncReq remaining
  if reply.received ≤ 0 then return ← writeEnd asyncReq espFail
  let result ← call (gnssOverrideFeed reply.buffer)
  if result ≠ espOk then return ← writeEnd asyncReq result
  return .writing asyncReq (remaining - reply.received.toNat)

/-- The loop over the worker handles in `http_stack_task`. -/
def notifyWorkers : List (Fin workers) → HttpProgram workers Unit
  | [] => return ()
  | index :: rest => do
      let handle ← call (workerHandle index)
      if handle then call (notifyGive (.worker index))
      notifyWorkers rest

/-- One pass through the loop of `http_stack_task`. -/
def dispatchingRound : HttpProgram workers HttpRound := do
  let received ← call gnssPublicationReceive
  match received with
  | none => return .dispatching
  | some publication =>
      let _ ← call (latestStore publication)
      notifyWorkers (List.finRange workers)
      return .dispatching

end EspGnss.Http
