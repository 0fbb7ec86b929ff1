import EspGnss.Foundation.PooledTasks
import EspGnss.Log.Stream

/-! # The log tasks together

The HTTP server, the `/log` worker and any number of tasks that log run their programs
over the ring buffer and the kernel objects of `log_stream.c`.
-/

namespace EspGnss.Log

open Foundation LogCall

inductive LogTask where
  | httpd
  | worker
  | logger (index : Nat)
  deriving DecidableEq, Repr

/-- The variables and kernel objects of `log_stream.c`; `nextId` numbers requests and
    their copies. -/
structure LogShared where
  pool : PoolObjects LogAsyncRequest 1
  nextId : Nat
  ring : LogRing
  notifications : Nat
  workerHandle : Bool

namespace LogShared

/-- When the worker has been created, after the lines `early` have been captured. -/
def initial (early : List (List UInt8)) : LogShared where
  pool := .empty
  nextId := 0
  ring := early.foldl LogRing.append .empty
  notifications := 0
  workerHandle := true

/-- The reply to a call; `answer` decides what lies outside `log_stream.c`. -/
def reply (shared : LogShared) (answer : (c : LogCall) → c.Reply) : (c : LogCall) → Option c.Reply
  | requestReceive => some ⟨shared.nextId⟩
  | asyncHandlerBegin req => some { answer (asyncHandlerBegin req) with id := shared.nextId }
  | workerReadyTake => some (decide (0 < shared.pool.ready))
  | requestQueueSend _ => some (decide (shared.pool.queue.items.length < 1))
  | requestQueueReceive => shared.pool.queue.receive.map fun received => some received.1
  | notifyTake wait =>
      if wait = .forever ∧ shared.notifications = 0 then none else some shared.notifications
  | .workerHandle => some shared.workerHandle
  | ringOldest => some shared.ring.oldest
  | ringCopy lastSent => some (shared.ring.copy lastSent)
  | c => some (answer c)

/-- What a call does to the shared objects, given its reply. -/
def observe (shared : LogShared) : LogEvent → LogShared
  | ⟨requestReceive, _⟩ | ⟨asyncHandlerBegin _, _⟩ => { shared with nextId := shared.nextId + 1 }
  | ⟨workerReadyTake, taken⟩ => { shared with pool := shared.pool.take taken }
  | ⟨workerReadyGive, _⟩ => { shared with pool := shared.pool.give }
  | ⟨requestQueueSend asyncReq, sent⟩ =>
      if sent then { shared with pool := shared.pool.send asyncReq } else shared
  | ⟨requestQueueReceive, _⟩ => { shared with pool := shared.pool.receive }
  | ⟨notifyGive, _⟩ => { shared with notifications := shared.notifications + 1 }
  | ⟨notifyTake _, _⟩ => { shared with notifications := 0 }
  | ⟨ringAppend line, _⟩ => { shared with ring := shared.ring.append line }
  | _ => shared

end LogShared

/-- The program of a round. -/
def LogRound.program : LogRound → LogProgram LogRound
  | httpd => httpdRound
  | ready => readyRound
  | sending asyncReq lastSent => sendingRound asyncReq lastSent
  | logging => loggingRound

/-- Where a task starts. -/
def LogTask.start : LogTask → LogRound
  | httpd => .httpd
  | worker => .ready
  | logger _ => .logging

/-- The rounds of a task. -/
def LogTask.runs : LogTask → LogRound → Bool
  | httpd, .httpd | worker, .ready | worker, .sending _ _ | logger _, .logging => true
  | _, _ => false

@[simp] theorem worker_runs_ready : LogTask.worker.runs .ready = true := rfl

@[simp] theorem worker_runs_sending (asyncReq : LogAsyncRequest) (lastSent : UInt32) :
    LogTask.worker.runs (.sending asyncReq lastSent) = true := rfl

def logTasks : Tasks LogTask LogCall LogCall.Reply LogRound LogShared where
  body _ round := round.program
  reply _ := LogShared.reply
  observe _ := LogShared.observe

abbrev LogStack := TasksState LogTask LogCall LogCall.Reply LogRound LogShared

/-- One call of a task, as the history records it. -/
abbrev LogStep := TaskStep LogTask LogCall.Reply

/-- The log tasks under every interleaving. -/
def logSystem (early : List (List UInt8)) :
    System LogStack (LogTask × ((c : LogCall) → c.Reply)) LogStep :=
  logTasks.system (.initial early) LogTask.start

/-- Answers under which every function succeeds; a logged line is four line feeds. -/
def LogCall.succeeds : (c : LogCall) → c.Reply
  | requestReceive => ⟨0⟩
  | asyncHandlerBegin _ => ⟨espOk, 0⟩
  | asyncHandlerComplete _ => espOk
  | workerReadyTake | requestQueueSend _ => true
  | workerReadyGive | notifyGive | ringAppend _ => ()
  | requestQueueReceive => none
  | respSetStatus _ _ | respSetType _ _ | respSetHdr _ _ _ | respSendstr _ _ | respSendChunk _ _ => espOk
  | reqToSockfd _ => 0
  | recvPeek _ => ⟨1, 0⟩
  | notifyTake _ => 0
  | .workerHandle => true
  | ringOldest => 0
  | ringCopy _ => ⟨0, []⟩
  | vsnprintf => ⟨4, .replicate _ 0x0a⟩
  | previousVprintf => 4
  | espLogEnabled => true

end EspGnss.Log
