import EspGnss.Foundation.PooledTasks
import EspGnss.Http.Stream

/-! # The HTTP tasks together

The HTTP server, the dispatcher, the workers and the LED task run their programs over
the shared objects. The tasks of `gnss.c` appear as one task that takes one of their
steps at a time; what `gnss_input_override_begin`, `_feed` and `_end` do is among those
steps, and only their results are replies here.
-/

namespace EspGnss.Http

open Foundation Gnss HttpCall

/-- Semaphore and queue length of a pool. -/
abbrev HttpPool.capacity (workers : Nat) : HttpPool → Nat
  | stream => workers
  | write => 1

inductive HttpTask (workers : Nat) where
  | httpd
  | dispatcher
  | streamWorker (index : Fin workers)
  | writeWorker
  | led
  | gnss
  deriving DecidableEq, Repr

variable {workers : Nat}

/-- The variables and kernel objects of `http_stream.c` and `generic_task.c`, and the
    state of `gnss.c`. `latest` is `s_latest_publication` once there is one, and
    `nextId` numbers requests and their copies. -/
structure HttpShared (workers : Nat) where
  pools : (pool : HttpPool) → PoolObjects HttpAsyncRequest (pool.capacity workers)
  nextId : Nat
  latest : Option GnssPublication
  notifications : Notified workers → Nat
  workerHandles : Fin workers → Bool
  ledTaskHandle : Bool
  connectedClientCount : UInt32
  pendingPacketToggles : UInt32
  gnss : GnssStack

/-- The notification value of a task. -/
def HttpTask.notified : HttpTask workers → Option (Notified workers)
  | streamWorker index => some (.worker index)
  | led => some .led
  | httpd | dispatcher | writeWorker | gnss => none

namespace HttpShared

/-- After initialization, when all tasks have been created. -/
def initial : HttpShared workers where
  pools := fun _ => .empty
  nextId := 0
  latest := none
  notifications := fun _ => 0
  workerHandles := fun _ => true
  ledTaskHandle := true
  connectedClientCount := 0
  pendingPacketToggles := 0
  gnss := .initial

def pending (shared : HttpShared workers) (task : HttpTask workers) : Nat :=
  (task.notified.map shared.notifications).getD 0

/-- The reply to a call: shared objects answer from their state and block where C code
    waits for them, and `answer` decides the rest. A wait for a notification that has a
    timeout may end without one. -/
def reply (task : HttpTask workers) (shared : HttpShared workers)
    (answer : (c : HttpCall workers) → c.Reply) : (c : HttpCall workers) → Option c.Reply
  | requestReceive => some { answer requestReceive with id := shared.nextId }
  | asyncHandlerBegin req => some { answer (asyncHandlerBegin req) with id := shared.nextId }
  | workerReadyTake pool => some (decide (0 < (shared.pools pool).ready))
  | requestQueueSend pool _ =>
      some (decide ((shared.pools pool).queue.items.length < pool.capacity workers))
  | requestQueueReceive pool => (shared.pools pool).queue.receive.map fun received => some received.1
  | notifyTake wait =>
      if wait = .forever ∧ shared.pending task = 0 then none else some (shared.pending task)
  | workerHandle index => some (shared.workerHandles index)
  | latestCopyIfNew lastSequence => some (shared.latest.filter (·.sequence ≠ lastSequence))
  | gnssPublicationReceive =>
      shared.gnss.publicationQueue.receive.map fun received => some received.1
  | .ledTaskHandle => some shared.ledTaskHandle
  | ledCountersTake => some ⟨shared.connectedClientCount, shared.pendingPacketToggles⟩
  | abort => none
  | gnssStep =>
      if (answer gnssStep).action = .publicationReceive then none
      else (shared.gnss.next (answer gnssStep).action).map fun stepped =>
        ⟨(answer gnssStep).action, stepped.2⟩
  | c => some (answer c)

def setPool (shared : HttpShared workers) (pool : HttpPool)
    (objects : PoolObjects HttpAsyncRequest (pool.capacity workers)) : HttpShared workers :=
  { shared with pools := Function.update shared.pools pool objects }

/-- What a call does to the shared objects, given its reply. -/
def observe (task : HttpTask workers) (shared : HttpShared workers) : HttpEvent workers → HttpShared workers
  | ⟨requestReceive, _⟩ | ⟨asyncHandlerBegin _, _⟩ => { shared with nextId := shared.nextId + 1 }
  | ⟨workerReadyTake pool, taken⟩ => shared.setPool pool ((shared.pools pool).take taken)
  | ⟨workerReadyGive pool, _⟩ => shared.setPool pool (shared.pools pool).give
  | ⟨requestQueueSend pool asyncReq, sent⟩ =>
      if sent then shared.setPool pool ((shared.pools pool).send asyncReq) else shared
  | ⟨requestQueueReceive pool, _⟩ => shared.setPool pool (shared.pools pool).receive
  | ⟨notifyGive notified, _⟩ =>
      { shared with
        notifications := Function.update shared.notifications notified (shared.notifications notified + 1) }
  | ⟨notifyTake _, _⟩ =>
      match task.notified with
      | some notified => { shared with notifications := Function.update shared.notifications notified 0 }
      | none => shared
  | ⟨latestStore publication, _⟩ => { shared with latest := some publication }
  | ⟨gnssPublicationReceive, _⟩ =>
      { shared with gnss := { shared.gnss with publicationQueue :=
          (shared.gnss.publicationQueue.receive.map (·.2)).getD shared.gnss.publicationQueue } }
  | ⟨ledClientConnected, _⟩ => { shared with connectedClientCount := shared.connectedClientCount + 1 }
  | ⟨ledClientDisconnected, _⟩ =>
      if shared.connectedClientCount > 0 then
        { shared with connectedClientCount := shared.connectedClientCount - 1 }
      else shared
  | ⟨ledPacketConsumed, _⟩ =>
      if shared.connectedClientCount > 0 ∧ shared.pendingPacketToggles < 0xFFFFFFFF then
        { shared with pendingPacketToggles := shared.pendingPacketToggles + 1 }
      else shared
  | ⟨ledCountersTake, _⟩ => { shared with pendingPacketToggles := 0 }
  | ⟨gnssStep, stepped⟩ =>
      { shared with gnss := ((shared.gnss.next stepped.action).map (·.1)).getD shared.gnss }
  | _ => shared

end HttpShared

/-- The program of a round. -/
def HttpRound.program : HttpRound → HttpProgram workers HttpRound
  | httpd => httpdRound
  | dispatching => dispatchingRound
  | streamReady => streamReadyRound
  | streaming asyncReq lastSequence => streamingRound asyncReq lastSequence
  | writeReady => writeReadyRound
  | writing asyncReq remaining => writingRound asyncReq remaining
  | blinking blink =>
      if blink < genericLedStartupBlinkCount then do
        genericTaskBlink
        return .blinking (blink + 1)
      else return .indicating false
  | indicating ledOn => do
      let ledOn ← genericTaskLoop ledOn
      return .indicating ledOn
  | gnss => do
      let _ ← call gnssStep
      return .gnss

/-- Where a task starts. -/
def HttpTask.start : HttpTask workers → HttpRound
  | httpd => .httpd
  | dispatcher => .dispatching
  | streamWorker _ => .streamReady
  | writeWorker => .writeReady
  | led => .blinking 0
  | gnss => .gnss

/-- The rounds of a task. -/
def HttpTask.runs : HttpTask workers → HttpRound → Bool
  | httpd, .httpd | dispatcher, .dispatching => true
  | streamWorker _, .streamReady | streamWorker _, .streaming _ _ => true
  | writeWorker, .writeReady | writeWorker, .writing _ _ => true
  | led, .blinking _ | led, .indicating _ => true
  | gnss, .gnss => true
  | _, _ => false

def httpTasks (workers : Nat) :
    Tasks (HttpTask workers) (HttpCall workers) HttpCall.Reply HttpRound (HttpShared workers) where
  body _ round := round.program
  reply := HttpShared.reply
  observe := HttpShared.observe

abbrev HttpStack (workers : Nat) :=
  TasksState (HttpTask workers) (HttpCall workers) HttpCall.Reply HttpRound (HttpShared workers)

/-- One call of a task, as the history records it. -/
abbrev HttpStep (workers : Nat) := TaskStep (HttpTask workers) (@HttpCall.Reply workers)

/-- The HTTP tasks under every interleaving. -/
def httpSystem (workers : Nat) :
    System (HttpStack workers) (HttpTask workers × ((c : HttpCall workers) → c.Reply)) (HttpStep workers) :=
  (httpTasks workers).system .initial HttpTask.start

theorem streamWorker_injective : Function.Injective (@HttpTask.streamWorker workers) := by
  intro index other same
  cases same
  rfl

end EspGnss.Http
