import EspGnss.EspErr
import EspGnss.Foundation.CallTree
import Mathlib.Data.Vector.Defs

/-! # What the OTA code calls

Every critical section, semaphore, queue and timer operation of `ota_update.c` and
every ESP-IDF or PSA function it uses is one call. Nothing is assumed about replies
beyond their types: `httpd_req_recv` fills at most the bytes that were requested.
-/

namespace EspGnss.Ota

open Foundation

def psaSuccess : Int := 0
def httpdSockErrTimeout : Int := -3

/-- `OTA_SHA256_LEN` -/
abbrev otaSha256Len : Nat := 32
/-- `OTA_SHA256_HEX_LEN` -/
abbrev otaSha256HexLen : Nat := otaSha256Len * 2

abbrev Sha256 := Vector UInt8 otaSha256Len

/-- `esp_partition_t` -/
structure EspPartition where
  label : String
  address : Nat
  size : Nat
  deriving DecidableEq, Repr

/-- `httpd_req_t`: the announced body length, and the value the client sent in the
    `X-Firmware-SHA256` header, which the server hands out through its own calls. -/
structure HttpdReq where
  contentLen : Nat
  firmwareSha256 : Option (List UInt8)
  deriving DecidableEq, Repr

/-- `ota_async_request_t` -/
structure OtaAsyncRequest where
  req : HttpdReq
  updatePartition : EspPartition
  expectedSha256 : Sha256
  deriving DecidableEq, Repr

inductive OtaTimer
  | restart
  | confirmation
  deriving DecidableEq, Repr

/-- The outcome of `httpd_req_recv`: its return value and the bytes that it put into
    the buffer. -/
structure RecvReply (requested : Nat) where
  received : Int
  buffer : List UInt8
  filled : buffer.length = received.toNat
  fits : received ≤ requested

/-- `httpd_req_get_hdr_value_str` into `char value[OTA_SHA256_HEX_LEN + 1]`. -/
structure HeaderReply where
  err : EspErr
  value : Vector UInt8 (otaSha256HexLen + 1)

structure BeginReply where
  err : EspErr
  otaHandle : Nat

structure FinishReply where
  status : Int
  sha256 : Sha256
  length : Nat

inductive OtaCall
  | confirmationPendingGet
  | confirmationPendingSet (pending : Bool)
  | restartScheduledGet
  | restartScheduledTestAndSet
  | timerStart (timer : OtaTimer)
  | timerStop (timer : OtaTimer)
  | espRestart
  | workerReadyTake
  | workerReadyGive
  | requestQueueSend (asyncReq : OtaAsyncRequest)
  | requestQueueReceive
  | asyncHandlerBegin (req : HttpdReq)
  | asyncHandlerComplete (req : HttpdReq)
  | reqToSockfd (req : HttpdReq)
  | sessTriggerClose (socketFd : Int)
  | respSendstr (status : Option String) (text : String)
  | reqGetHdrValueLen (field : String)
  | reqGetHdrValueStr (field : String)
  | reqRecv (requested : Nat)
  | appVersionString
  | otaGetRunningPartition
  | otaGetBootPartition
  | otaGetNextUpdatePartition
  | otaCheckRollbackIsPossible
  | otaMarkAppInvalidRollback
  | otaMarkAppValidCancelRollback
  | otaBegin (updatePartition : EspPartition)
  | otaWrite (otaHandle : Nat) (buffer : List UInt8)
  | otaEnd (otaHandle : Nat)
  | otaAbort (otaHandle : Nat)
  | otaSetBootPartition (updatePartition : EspPartition)
  | psaHashSetup
  | psaHashUpdate (buffer : List UInt8)
  | psaHashFinish
  | psaHashAbort
  deriving DecidableEq

abbrev OtaCall.Reply : OtaCall → Type
  | confirmationPendingGet | restartScheduledGet => Bool
  | confirmationPendingSet _ | espRestart | workerReadyGive => Unit
  -- whether this call was the one that set the flag
  | restartScheduledTestAndSet => Bool
  | timerStart _ | timerStop _ | workerReadyTake | requestQueueSend _ => Bool
  | requestQueueReceive => Option OtaAsyncRequest
  | asyncHandlerBegin _ | asyncHandlerComplete _ | sessTriggerClose _ | respSendstr _ _ => EspErr
  | reqToSockfd _ => Int
  | reqGetHdrValueLen _ => Nat
  | reqGetHdrValueStr _ => HeaderReply
  | reqRecv requested => RecvReply requested
  | appVersionString => String
  | otaGetRunningPartition | otaGetBootPartition | otaGetNextUpdatePartition => Option EspPartition
  | otaCheckRollbackIsPossible => Bool
  | otaMarkAppInvalidRollback | otaMarkAppValidCancelRollback => EspErr
  | otaBegin _ => BeginReply
  | otaWrite _ _ | otaEnd _ | otaAbort _ | otaSetBootPartition _ => EspErr
  | psaHashSetup | psaHashUpdate _ | psaHashAbort => Int
  | psaHashFinish => FinishReply

abbrev OtaEvent := CallEvent OtaCall.Reply

abbrev OtaProgram := CallTree OtaCall OtaCall.Reply

abbrev call (c : OtaCall) : OtaProgram c.Reply := CallTree.perform c

abbrev OtaEnvironment := CallTree.Environment OtaCall.Reply

/-- The replies when nothing fails: the header is read as it was sent, every requested
    byte arrives, and the digest of the body is `sha256`. -/
def OtaCall.succeeds (req : HttpdReq) (partition : EspPartition) (sha256 : Sha256) :
    (c : OtaCall) → c.Reply
  | confirmationPendingGet | restartScheduledGet => false
  | confirmationPendingSet _ | espRestart | workerReadyGive => ()
  | restartScheduledTestAndSet => true
  | timerStart _ | timerStop _ | workerReadyTake | requestQueueSend _ => true
  | requestQueueReceive => none
  | asyncHandlerBegin _ | asyncHandlerComplete _ | sessTriggerClose _ | respSendstr _ _ => espOk
  | reqToSockfd _ => 3
  | reqGetHdrValueLen _ => (req.firmwareSha256.getD []).length
  | reqGetHdrValueStr _ =>
      ⟨espOk, .ofFn fun index => (req.firmwareSha256.getD [])[index.val]?.getD 0⟩
  | reqRecv requested => ⟨requested, .replicate requested 0, by simp, Int.le_refl _⟩
  | appVersionString => "1.0.0"
  | otaGetRunningPartition | otaGetBootPartition | otaGetNextUpdatePartition => some partition
  | otaCheckRollbackIsPossible => true
  | otaMarkAppInvalidRollback | otaMarkAppValidCancelRollback => espOk
  | otaBegin _ => ⟨espOk, 1⟩
  | otaWrite _ _ | otaEnd _ | otaAbort _ | otaSetBootPartition _ => espOk
  | psaHashSetup | psaHashUpdate _ | psaHashAbort => psaSuccess
  | psaHashFinish => ⟨psaSuccess, sha256, otaSha256Len⟩

/-- An upload of one byte whose announced digest is all zeros. -/
def sampleRequest : OtaAsyncRequest where
  req := ⟨1, some (.replicate otaSha256HexLen 0x30)⟩
  updatePartition := ⟨"ota_0", 0x20000, 0x180000⟩
  expectedSha256 := .replicate otaSha256Len 0

def OtaAsyncRequest.succeeds (asyncReq : OtaAsyncRequest) : (c : OtaCall) → c.Reply :=
  OtaCall.succeeds asyncReq.req asyncReq.updatePartition asyncReq.expectedSha256

end EspGnss.Ota
