import EspGnss.Foundation.System
import EspGnss.Gnss.Filter

/-! # The tasks of the GNSS stack as one system

Every section under `s_parser_mutex` and every operation on a queue or on the
flush semaphore is one step; the tasks interleave freely. A section that feeds
the parser is the exception: it takes a step for every byte, because it sends
candidates while the filter task may be receiving. It keeps the mutex
throughout, so nothing else that needs the mutex runs meanwhile.
-/

namespace EspGnss.Gnss

open Foundation Nmea

/-- A section that feeds the parser: the bytes still to be fed. -/
structure Feed where
  source : Source
  data : List UInt8
  deriving DecidableEq, Repr

/-- Where a caller of `gnss_input_override_end` stands. -/
inductive EndCall where
  | idle
  /-- Before `xSemaphoreTake(s_override_flush_done, 0)`. -/
  | discarding (control : GnssFilterControl)
  /-- Before `xQueueSend(s_filter_control_queue, &control, portMAX_DELAY)`. -/
  | sending (control : GnssFilterControl)
  /-- Before `xSemaphoreTake(s_override_flush_done, portMAX_DELAY)`. -/
  | waiting
  /-- Before the section that returns the parser to UART2. -/
  | closing
  deriving DecidableEq, Repr

/-- `mutex` holds the feeding section that owns `s_parser_mutex`. `calls` has
    the progress of every task in `gnss_input_override_end`. `uartReady` is set
    once `gnss_init_task` has cleared the parser. `fault` records an access
    outside an array. `session` counts the calls of `gnss_input_epoch_advance`;
    it is auxiliary, nothing but the origin of candidates depends on it. -/
structure GnssStack where
  input : GnssInput
  mutex : Option Feed
  queueSet : FilterQueueSet
  publicationQueue : BoundedQueue GnssPublication 1
  overrideFlushDone : Bool
  filter : FilterTask
  calls : Nat → EndCall
  uartReady : Bool
  session : Nat
  fault : Bool

/-- After `gnss_stack_init` and `gnss_stack_start_tasks`. -/
def GnssStack.initial : GnssStack where
  input := .initial
  mutex := none
  queueSet := .empty
  publicationQueue := .empty
  overrideFlushDone := false
  filter := ⟨.selecting, none, 1⟩
  calls := fun _ => .idle
  uartReady := false
  session := 0
  fault := false

inductive GnssAction where
  /-- `gnss_init_task` clears the parser before it looks for a baud rate. -/
  | initReset
  /-- `gnss_uart_input_feed` takes the mutex. -/
  | uartFeed (data : List UInt8)
  /-- `gnss_input_override_begin` -/
  | overrideBegin
  /-- `gnss_input_override_feed` takes the mutex. -/
  | overrideFeed (data : List UInt8)
  /-- The section that holds the mutex feeds a byte. -/
  | feedByte
  /-- The section that holds the mutex gives it back. -/
  | feedReturn
  /-- The steps of `gnss_input_override_end`, in its order. -/
  | endEnter (task : Nat)
  | endDiscard (task : Nat)
  | endSend (task : Nat)
  | endTake (task : Nat)
  | endClose (task : Nat)
  /-- `selection_timer_callback` -/
  | timerExpire
  /-- The next operation of `gnss_filter_task`. -/
  | filterStep
  /-- `gnss_publication_receive` succeeds. -/
  | publicationReceive
  deriving DecidableEq, Repr

inductive GnssEvent where
  /-- A byte entered the parser. -/
  | accepted (session : Nat) (source : Source) (byte : UInt8)
  /-- A member of the queue set got a new item. -/
  | enqueued (entry : Entry)
  /-- The candidate queue was full and the newest pair was dropped. -/
  | dropped (candidate : Candidate)
  /-- `consider_candidate` returned. -/
  | considered (candidate : Candidate)
  /-- A flush of another epoch was ignored. -/
  | ignored (control : GnssFilterControl)
  /-- `publish_best_candidate` read an epoch and settled on a candidate, if any. -/
  | decided (marker : Marker) (inputEpoch : UInt32) (best : Option Candidate)
  /-- `s_publication_queue` was overwritten. -/
  | published (candidate : Candidate) (publication : GnssPublication)
  /-- `gnss_input_override_begin` returned `ESP_OK`. -/
  | begun (session : Nat)
  /-- `gnss_input_override_end` returned the parser to UART2. -/
  | closed (session : Nat)
  deriving DecidableEq

namespace GnssStack

/-- `gnss_candidate_send` -/
def candidateSend (s : GnssStack) (candidate : Candidate) : GnssStack × List GnssEvent :=
  match s.queueSet.send .candidate candidate with
  | some queueSet => ({ s with queueSet }, [.enqueued (.candidate candidate)])
  | none => (s, [.dropped candidate])

/-- `selection_timer_callback` -/
def selectionTimerCallback (s : GnssStack) : GnssStack × List GnssEvent :=
  ({ s with queueSet := s.queueSet.overwrite .timer rfl () },
    if (s.queueSet.member .timer).items = [] then [.enqueued .timer] else [])

/-- A step of the section that holds the mutex: one byte of `nmea_parser_feed`. -/
def feedByte (s : GnssStack) : Option (GnssStack × List GnssEvent) :=
  match s.mutex with
  | some ⟨source, byte :: rest⟩ =>
      let accepted := GnssEvent.accepted s.session source byte
      match nmeaParserFeedByte s.input.inputEpoch s.input.parserState byte with
      | none => some ({ s with fault := true, mutex := some ⟨source, rest⟩ }, [accepted])
      | some (parserState, pair) =>
          let s := { s with input := { s.input with parserState }, mutex := some ⟨source, rest⟩ }
          match pair with
          | none => some (s, [accepted])
          | some pair =>
              let (s, events) := s.candidateSend { pair with source, session := s.session }
              some (s, accepted :: events)
  | some ⟨_, []⟩ | none => none

/-- Replace the program counter of the filter task. -/
def goto (s : GnssStack) (pc : FilterPc) : GnssStack := { s with filter := { s.filter with pc } }

/-- Replace the program counter and the best candidate of the filter task. -/
def keep (s : GnssStack) (pc : FilterPc) (bestCandidate : Option Candidate) : GnssStack :=
  { s with filter := { s.filter with pc, bestCandidate } }

/-- `xQueueReceive` on the selected queue, without waiting. -/
def receiveSelected (s : GnssStack) (member : FilterMember) : GnssStack :=
  match member with
  | .candidate =>
      match s.queueSet.receive .candidate with
      | some (candidate, queueSet) => { s with queueSet }.goto (.considering candidate)
      | none => s.goto .selecting
  | .timer =>
      match s.queueSet.receive .timer with
      | some (_, queueSet) => { s with queueSet }.goto (.publishing .timer)
      | none => s.goto (.publishing .timer)
  | .control =>
      match s.queueSet.receive .control with
      | some (control, queueSet) => { s with queueSet }.goto (.checkingFlush control)
      | none => s.goto .selecting

/-- `publish_best_candidate` up to its test of `has_best_candidate`. -/
def publishBest (s : GnssStack) (marker : Marker) : GnssStack × List GnssEvent :=
  let best := dropStale s.input.inputEpoch s.filter.bestCandidate
  (s.keep (if best.isSome then .writing marker else marker.resume) best,
    [.decided marker s.input.inputEpoch best])

/-- The rest of `publish_best_candidate`. -/
def writePublication (s : GnssStack) (marker : Marker) (best : Candidate) :
    GnssStack × List GnssEvent :=
  let filter := ⟨marker.resume, none, s.filter.nextSequence + 1⟩
  match publicationOf s.filter.nextSequence best.toGnssCandidate with
  | none => ({ s with filter, fault := true }, [])
  | some publication =>
      ({ s with filter, publicationQueue := .overwrite rfl publication },
        [.published best publication])

/-- `gnss_filter_task` -/
def filterStep (s : GnssStack) : Option (GnssStack × List GnssEvent) :=
  match s.filter.pc with
  | .selecting =>
      match s.queueSet.select with
      | some (member, queueSet) => some ({ s with queueSet }.goto (.receiving member), [])
      | none => none
  | .receiving member => some (s.receiveSelected member, [])
  | .considering candidate =>
      if s.mutex.isSome then none
      else
        some (s.keep .selecting (considerCandidate s.input.inputEpoch s.filter.bestCandidate candidate),
          [.considered candidate])
  | .checkingFlush control =>
      if s.mutex.isSome then none
      else if control.inputEpoch = s.input.inputEpoch then
        some (s.goto (.publishing (.flush control)), [])
      else some (s.goto .acknowledging, [.ignored control])
  | .publishing marker =>
      if s.mutex.isSome then none else some (s.publishBest marker)
  | .writing marker =>
      match s.filter.bestCandidate with
      | some best => some (s.writePublication marker best)
      | none => none
  | .acknowledging => some ({ s with overrideFlushDone := true }.goto .selecting, [])

/-- Replace the progress of one caller of `gnss_input_override_end`. -/
def setCall (s : GnssStack) (task : Nat) (call : EndCall) : GnssStack :=
  { s with calls := Function.update s.calls task call }

/-- `gnss_input_override_begin` -/
def overrideBegin (s : GnssStack) : GnssStack × List GnssEvent :=
  let (error, input) := gnssInputOverrideBegin s.input
  if error = espOk then
    ({ s with input, session := s.session + 1 }, [.begun (s.session + 1)])
  else ({ s with input }, [])

/-- The first section of `gnss_input_override_end`. -/
def endEnter (s : GnssStack) (task : Nat) : GnssStack :=
  match gnssInputOverrideEndEnter s.input with
  | (some control, input) => { s with input }.setCall task (.discarding control)
  | (none, input) => { s with input }

/-- The last section of `gnss_input_override_end`. -/
def endClose (s : GnssStack) (task : Nat) : GnssStack × List GnssEvent :=
  ({ s with input := gnssInputOverrideEndClose s.input, session := s.session + 1 }.setCall task .idle,
    [.closed s.session])

/-- The next state and what is observable of the step; `none` when the action
    is blocked or its task is not at that operation. -/
def next (s : GnssStack) : GnssAction → Option (GnssStack × List GnssEvent)
  | .initReset =>
      if s.mutex.isSome || s.uartReady then none
      else some ({ s with input := { s.input with parserState := .reset }, uartReady := true }, [])
  | .uartFeed data =>
      if s.mutex.isSome || !s.uartReady then none
      else if s.input.overrideActive then some (s, [])
      else some ({ s with mutex := some ⟨.uart, data⟩ }, [])
  | .overrideBegin => if s.mutex.isSome then none else some s.overrideBegin
  | .overrideFeed data =>
      if s.mutex.isSome then none
      else if !s.input.overrideActive || s.input.overrideClosing then some (s, [])
      else some ({ s with mutex := some ⟨.override, data⟩ }, [])
  | .feedByte => s.feedByte
  | .feedReturn =>
      match s.mutex with
      | some ⟨_, []⟩ => some ({ s with mutex := none }, [])
      | some ⟨_, _ :: _⟩ | none => none
  | .endEnter task =>
      if s.mutex.isSome then none
      else
        match s.calls task with
        | .idle => some (s.endEnter task, [])
        | .discarding _ | .sending _ | .waiting | .closing => none
  | .endDiscard task =>
      match s.calls task with
      | .discarding control => some ({ s with overrideFlushDone := false }.setCall task (.sending control), [])
      | .idle | .sending _ | .waiting | .closing => none
  | .endSend task =>
      match s.calls task with
      | .sending control =>
          match s.queueSet.send .control control with
          | some queueSet => some ({ s with queueSet }.setCall task .waiting, [.enqueued (.control control)])
          | none => none
      | .idle | .discarding _ | .waiting | .closing => none
  | .endTake task =>
      match s.calls task with
      | .waiting =>
          if s.overrideFlushDone then some ({ s with overrideFlushDone := false }.setCall task .closing, [])
          else none
      | .idle | .discarding _ | .sending _ | .closing => none
  | .endClose task =>
      if s.mutex.isSome then none
      else
        match s.calls task with
        | .closing => some (s.endClose task)
        | .idle | .discarding _ | .sending _ | .waiting => none
  | .timerExpire => some s.selectionTimerCallback
  | .filterStep => s.filterStep
  | .publicationReceive =>
      match s.publicationQueue.receive with
      | some (_, publicationQueue) => some ({ s with publicationQueue }, [])
      | none => none

end GnssStack

/-- The GNSS stack under every interleaving of its tasks. -/
def gnssSystem : System GnssStack GnssAction GnssEvent := .ofFunction .initial GnssStack.next

end EspGnss.Gnss
