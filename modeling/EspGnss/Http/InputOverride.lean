import EspGnss.Http.Delivery

/-! # The HTTP tasks joined to the GNSS stack

The tasks of `Http.Stack`, whose calls of `gnss_input_override_begin`, `_feed` and `_end`
now are what these functions do: one step of the GNSS stack after the other. The other
steps of the GNSS stack are left to its own tasks.
-/

namespace EspGnss.Http

open Foundation Gnss HttpCall

variable {workers : Nat}

/-- The calls of the HTTP tasks, and the steps of the GNSS stack that they take themselves. -/
inductive JoinedCall (workers : Nat) where
  | http (c : HttpCall workers)
  | gnss (action : GnssAction)
  deriving DecidableEq

/-- The variables of the parser as a step finds them, and what is observable of the step. -/
structure JoinedReply where
  input : GnssInput
  events : List GnssEvent

abbrev JoinedCall.Reply : JoinedCall workers → Type
  | http c => c.Reply
  | gnss _ => JoinedReply

abbrev JoinedEvent (workers : Nat) := CallEvent (@JoinedCall.Reply workers)

abbrev JoinedProgram (workers : Nat) := CallTree (JoinedCall workers) JoinedCall.Reply

abbrev gnssCall (action : GnssAction) : JoinedProgram workers (JoinedCall.gnss action : JoinedCall workers).Reply :=
  CallTree.perform (JoinedCall.gnss action)

/-- The write worker is the only caller of `gnss_input_override_end`. -/
def overrideCaller : Nat := 0

/-- `gnss_input_override_begin` -/
def overrideBeginSection : JoinedProgram workers EspErr := do
  let reply ← gnssCall .overrideBegin
  return (gnssInputOverrideBegin reply.input).1

/-- The loop of `gnss_input_override_feed`, byte by byte. -/
def feedBytes : (len : Nat) → JoinedProgram workers Unit
  | 0 => return ()
  | len + 1 => do
      let _ ← gnssCall .feedByte
      feedBytes len

/-- `gnss_input_override_feed`; its callers pass an array. -/
def overrideFeedSection (data : List UInt8) : JoinedProgram workers EspErr := do
  let reply ← gnssCall (.overrideFeed data)
  if !reply.input.overrideActive || reply.input.overrideClosing then return espErrInvalidState
  feedBytes data.length
  let _ ← gnssCall .feedReturn
  return espOk

/-- `gnss_input_override_end` -/
def overrideEndSections : JoinedProgram workers Unit := do
  let reply ← gnssCall (.endEnter overrideCaller)
  let shouldFlush := (gnssInputOverrideEndEnter reply.input).1.isSome
  if !shouldFlush then return ()
  let _ ← gnssCall (.endDiscard overrideCaller)
  let _ ← gnssCall (.endSend overrideCaller)
  let _ ← gnssCall (.endTake overrideCaller)
  let _ ← gnssCall (.endClose overrideCaller)
  return ()

def overrideHandler : (c : HttpCall workers) → JoinedProgram workers c.Reply
  | gnssOverrideBegin => overrideBeginSection
  | gnssOverrideFeed buffer => overrideFeedSection buffer
  | gnssOverrideEnd => overrideEndSections
  | c => CallTree.perform (JoinedCall.http c)

/-- The steps of the tasks of `gnss.c`. -/
def gnssTaskTakes (s : GnssStack) : GnssAction → Bool
  | .initReset | .uartFeed _ | .timerExpire | .filterStep => true
  -- the section that feeds UART2 bytes
  | .feedByte | .feedReturn => s.mutex.any (·.source = .uart)
  | .overrideBegin | .overrideFeed _ | .publicationReceive => false
  | .endEnter _ | .endDiscard _ | .endSend _ | .endTake _ | .endClose _ => false

def joinedReply (task : HttpTask workers) (shared : HttpShared workers)
    (answer : (c : JoinedCall workers) → c.Reply) : (c : JoinedCall workers) → Option c.Reply
  | .http c =>
      if c = gnssStep ∧ gnssTaskTakes shared.gnss (answer (.http gnssStep)).action = false then none
      else shared.reply task (fun c => answer (.http c)) c
  | .gnss action => (shared.gnss.next action).map fun stepped => ⟨shared.gnss.input, stepped.2⟩

def joinedObserve (task : HttpTask workers) (shared : HttpShared workers) : JoinedEvent workers → HttpShared workers
  | ⟨.http c, reply⟩ => shared.observe task ⟨c, reply⟩
  | ⟨.gnss action, _⟩ => { shared with gnss := ((shared.gnss.next action).map (·.1)).getD shared.gnss }

def joinedTasks (workers : Nat) :
    Tasks (HttpTask workers) (JoinedCall workers) JoinedCall.Reply HttpRound (HttpShared workers) where
  body _ round := round.program.handle overrideHandler
  reply := joinedReply
  observe := joinedObserve

abbrev JoinedStack (workers : Nat) :=
  TasksState (HttpTask workers) (JoinedCall workers) JoinedCall.Reply HttpRound (HttpShared workers)

abbrev JoinedStep (workers : Nat) := TaskStep (HttpTask workers) (@JoinedCall.Reply workers)

/-- The HTTP tasks and the GNSS tasks under every interleaving. -/
def joinedSystem (workers : Nat) :
    System (JoinedStack workers) (HttpTask workers × ((c : JoinedCall workers) → c.Reply)) (JoinedStep workers) :=
  (joinedTasks workers).system .initial HttpTask.start

/-- What is observable of the GNSS stack. -/
def joinedEvents (history : List (JoinedStep workers)) : List GnssEvent :=
  history.flatMap fun step =>
    match step.event with
    | ⟨.http gnssStep, stepped⟩ => stepped.events
    | ⟨.gnss _, reply⟩ => reply.events
    | _ => []

theorem joinedEvents_snoc (history : List (JoinedStep workers)) (step : JoinedStep workers) :
    joinedEvents (history ++ [step]) = joinedEvents history ++ joinedEvents [step] := List.flatMap_append

/-- What a call does to the GNSS stack. -/
inductive GnssTransition (gnss : GnssStack) : JoinedCall workers → GnssStack → List GnssEvent → Prop where
  | own {action gnss' events} : gnss.next action = some (gnss', events) →
      GnssTransition gnss (.gnss action) gnss' events
  | task {action gnss' events} : gnssTaskTakes gnss action = true → gnss.next action = some (gnss', events) →
      GnssTransition gnss (.http gnssStep) gnss' events
  | receive {gnss' events} : gnss.next .publicationReceive = some (gnss', events) →
      GnssTransition gnss (.http gnssPublicationReceive) gnss' events
  | quiet {c gnss' events} : gnss' = gnss → events = [] → GnssTransition gnss (.http c) gnss' events

namespace GnssTransition

theorem of_reply {t : HttpTask workers} {shared : HttpShared workers}
    {answer : (c : JoinedCall workers) → c.Reply} {c : JoinedCall workers} {reply : c.Reply}
    (replied : joinedReply t shared answer c = some reply) :
    GnssTransition shared.gnss c (joinedObserve t shared ⟨c, reply⟩).gnss (joinedEvents [⟨t, ⟨c, reply⟩⟩]) := by
  cases c with
  | gnss action =>
      obtain ⟨⟨gnss, events⟩, step, rfl⟩ := Option.map_eq_some_iff.mp replied
      apply own
      simp [joinedObserve, joinedEvents, step]
  | http c =>
      cases c with
      | gnssStep =>
          simp only [joinedReply, HttpShared.reply, true_and, Option.ite_none_left_eq_some, Bool.not_eq_false] at replied
          obtain ⟨takes, -, stepped⟩ := replied
          obtain ⟨⟨gnss, events⟩, step, rfl⟩ := Option.map_eq_some_iff.mp stepped
          apply task takes
          simp [joinedObserve, HttpShared.observe, joinedEvents, step]
      | gnssPublicationReceive =>
          obtain ⟨⟨publication, queue⟩, received, rfl⟩ := Option.map_eq_some_iff.mp replied
          apply receive
          simp [joinedObserve, HttpShared.observe, joinedEvents, GnssStack.next, received]
      | latestStore publication => exact quiet rfl rfl
      | _ => exact quiet (observe_gnss rfl).1 rfl

variable {gnss gnss' : GnssStack} {c : JoinedCall workers} {history events : List GnssEvent}

theorem exec (moved : GnssTransition gnss c gnss' events) (run : gnssSystem.Exec history gnss) :
    gnssSystem.Exec (history ++ events) gnss' := by
  cases moved with
  | own step => exact run.next step
  | task _ step => exact run.next step
  | receive step => exact run.next step
  | quiet same none =>
      subst same none
      simpa using run

end GnssTransition

/-- The other tasks do not call the override functions. -/
theorem handle_makes {t : HttpTask workers} (other : t ≠ .writeWorker) {round : HttpRound} (runs : t.runs round) :
    (round.program.handle overrideHandler).Meets
      (Monitor.calls fun c : JoinedCall workers => ∃ own, c = .http own ∧ t.makes own = true)
      (fun _ round => t.runs round) () := by
  refine CallTree.Meets.handle (fun _ c made => ?_) (program_makes runs)
  cases c with
  | gnssOverrideBegin | gnssOverrideFeed | gnssOverrideEnd =>
      cases t with
      | writeWorker => exact absurd rfl other
      | _ => cases made
  | _ => exact ⟨⟨_, rfl, made⟩, fun _ => rfl⟩

end EspGnss.Http
