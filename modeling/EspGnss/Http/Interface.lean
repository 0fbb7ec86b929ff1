import EspGnss.EspErr
import EspGnss.Foundation.CallTree
import EspGnss.Gnss.Stack

/-! # What the HTTP stream code calls

Every critical section, mutex section and kernel operation of `http_stream.c` and
`generic_task.c`, and every ESP-IDF function they use, is one call. `workers` is
`CONFIG_STREAM_MAX_HTTP_CLIENTS`. Nothing is assumed about replies beyond their types.
-/

namespace EspGnss.Http

open Foundation Gnss

def httpdSockErrTimeout : Int := -3
def eagain : Int := 11
def ewouldblock : Int := eagain

/-- The registered handlers. -/
inductive HttpUri where
  | read
  | view
  | write
  deriving DecidableEq, Repr

/-- `httpd_req_t`. The server numbers the requests it has received and the copies it
    has made of them; `id` stands for the address. -/
structure HttpdReq where
  id : Nat
  uri : HttpUri
  contentLen : Nat
  deriving DecidableEq, Repr

/-- `http_async_request_t`; a writer's request has no content type. -/
structure HttpAsyncRequest where
  req : HttpdReq
  contentType : Option String
  deriving DecidableEq, Repr

/-- `s_http_worker_ready` with `s_http_request_queue`, and
    `s_http_write_worker_ready` with `s_http_write_request_queue`. -/
inductive HttpPool where
  | stream
  | write
  deriving DecidableEq, Repr

/-- The tasks that are woken by notifications. -/
inductive Notified (workers : Nat) where
  | worker (index : Fin workers)
  | led
  deriving DecidableEq, Repr

/-- The last argument of `ulTaskNotifyTake(pdTRUE, ..)`. -/
inductive NotifyWait where
  /-- `0` -/
  | noWait
  /-- `pdMS_TO_TICKS(HTTP_DISCONNECT_CHECK_MS)` -/
  | disconnectCheck
  /-- `portMAX_DELAY` -/
  | forever
  deriving DecidableEq, Repr

/-- The outcome of `httpd_req_async_handler_begin`; the copy differs from the request
    in its address. -/
structure BeginReply where
  err : EspErr
  id : Nat
  deriving DecidableEq, Repr

/-- The outcome of `recv` with `MSG_PEEK | MSG_DONTWAIT`. -/
structure PeekReply where
  received : Int
  errno : Int

/-- The outcome of `httpd_req_recv`. -/
structure RecvReply (requested : Nat) where
  received : Int
  buffer : List UInt8
  filled : buffer.length = received.toNat
  fits : received ≤ requested

/-- What `generic_task` takes from the counters. -/
structure LedReply where
  connectedClientCount : UInt32
  packetToggles : UInt32
  deriving DecidableEq, Repr

/-- A step of the GNSS tasks and what is observable of it. -/
structure GnssReply where
  action : GnssAction
  events : List GnssEvent

inductive HttpCall (workers : Nat) where
  -- the server has received a request for one of the handlers
  | requestReceive
  | asyncHandlerBegin (req : HttpdReq)
  | asyncHandlerComplete (req : HttpdReq)
  | workerReadyTake (pool : HttpPool)
  | workerReadyGive (pool : HttpPool)
  | requestQueueSend (pool : HttpPool) (asyncReq : HttpAsyncRequest)
  | requestQueueReceive (pool : HttpPool)
  | respSetStatus (req : HttpdReq) (status : String)
  | respSetType (req : HttpdReq) (contentType : Option String)
  | respSetHdr (req : HttpdReq) (field value : String)
  | respSendstr (req : HttpdReq) (text : String)
  | respSendChunk (req : HttpdReq) (data : List UInt8) (len : UInt16)
  | reqToSockfd (req : HttpdReq)
  | recvPeek (socketFd : Int)
  | reqRecv (req : HttpdReq) (requested : Nat)
  | notifyGive (task : Notified workers)
  | notifyTake (wait : NotifyWait)
  | workerHandle (index : Fin workers)
  -- the section of `latest_publication_copy_if_new`
  | latestCopyIfNew (lastSequence : UInt32)
  -- the section of `http_stack_task`
  | latestStore (publication : GnssPublication)
  | gnssPublicationReceive
  | gnssOverrideBegin
  | gnssOverrideFeed (buffer : List UInt8)
  | gnssOverrideEnd
  -- the sections of `generic_task.c`
  | ledTaskHandle
  | ledClientConnected
  | ledClientDisconnected
  | ledPacketConsumed
  | ledCountersTake
  | gpioSetLevel (level : Bool)
  | taskDelay (milliseconds : Nat)
  | abort
  -- a step of another task of `gnss.c`
  | gnssStep
  deriving DecidableEq

variable {workers : Nat}

abbrev HttpCall.Reply : HttpCall workers → Type
  | requestReceive => HttpdReq
  | asyncHandlerBegin _ => BeginReply
  | asyncHandlerComplete _ => EspErr
  | workerReadyTake _ | requestQueueSend _ _ => Bool
  | workerReadyGive _ => Unit
  | requestQueueReceive _ => Option HttpAsyncRequest
  | respSetStatus _ _ | respSetType _ _ | respSetHdr _ _ _ | respSendstr _ _ | respSendChunk _ _ _ => EspErr
  | reqToSockfd _ => Int
  | recvPeek _ => PeekReply
  | reqRecv _ requested => RecvReply requested
  | notifyGive _ => Unit
  | notifyTake _ => Nat
  | workerHandle _ => Bool
  | latestCopyIfNew _ => Option GnssPublication
  | latestStore _ => Unit
  | gnssPublicationReceive => Option GnssPublication
  | gnssOverrideBegin | gnssOverrideFeed _ => EspErr
  | gnssOverrideEnd => Unit
  | ledTaskHandle => Bool
  | ledClientConnected | ledClientDisconnected | ledPacketConsumed => Unit
  | ledCountersTake => LedReply
  | gpioSetLevel _ => EspErr
  | taskDelay _ | abort => Unit
  | gnssStep => GnssReply

abbrev HttpEvent (workers : Nat) := CallEvent (@HttpCall.Reply workers)

abbrev HttpProgram (workers : Nat) := CallTree (HttpCall workers) HttpCall.Reply

abbrev call (c : HttpCall workers) : HttpProgram workers c.Reply := CallTree.perform c

section Meets

-- For calls whose reply is plain, so that their type is `Unit` where they end a branch.
variable {σ : Type} {m : Monitor (@HttpCall.Reply workers) σ} {post : σ → Unit → Prop} {q : σ}

@[simp] theorem meets_notifyGive {task : Notified workers} :
    CallTree.Meets m post q (call (.notifyGive task)) ↔
      m.allows q (.notifyGive task) ∧ post (m.observe q ⟨.notifyGive task, ()⟩) () :=
  ⟨fun meets => ⟨meets.1, meets.2 ()⟩, fun meets => ⟨meets.1, fun _ => meets.2⟩⟩

@[simp] theorem meets_abort :
    CallTree.Meets m post q (call .abort) ↔
      m.allows q .abort ∧ post (m.observe q ⟨.abort, ()⟩) () :=
  ⟨fun meets => ⟨meets.1, meets.2 ()⟩, fun meets => ⟨meets.1, fun _ => meets.2⟩⟩

@[simp] theorem meets_taskDelay {milliseconds : Nat} :
    CallTree.Meets m post q (call (.taskDelay milliseconds)) ↔
      m.allows q (.taskDelay milliseconds) ∧ post (m.observe q ⟨.taskDelay milliseconds, ()⟩) () :=
  ⟨fun meets => ⟨meets.1, meets.2 ()⟩, fun meets => ⟨meets.1, fun _ => meets.2⟩⟩

end Meets

/-- `ESP_ERROR_CHECK` -/
def espErrorCheck (err : EspErr) : HttpProgram workers Unit :=
  if err = espOk then return () else call .abort

end EspGnss.Http
