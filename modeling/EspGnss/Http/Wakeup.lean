import EspGnss.Http.Calls

/-! # No lost wakeups of HTTP workers and the LED task

Producers change the shared state and then notify; consumers check and wait, or wait and
check. A consumer that waits without a notification has seen the state, unless a producer
is between the two.
-/

namespace EspGnss.Http

open Foundation Gnss HttpCall

variable {workers : Nat}

/-- Watches the workers that the dispatcher has still to notify. -/
@[simps] def notifyMonitor : Monitor (@HttpCall.Reply workers) (List (Fin workers)) where
  allows remaining c := HttpTask.makes .dispatcher c ∧
    (remaining ≠ [] → ∃ index, c = workerHandle index ∨ c = notifyGive (.worker index))
  observe remaining
    | ⟨latestStore _, _⟩ => List.finRange workers
    | ⟨workerHandle index, handle⟩ => if handle then remaining else remaining.erase index
    | ⟨notifyGive (.worker index), _⟩ => remaining.erase index
    | _ => remaining

/-- Watches at which sequence a worker has found nothing new since it last took its
    notifications. It waits for more only when there is one. -/
@[simps] def checkMonitor (index : Fin workers) (round : HttpRound) :
    Monitor (@HttpCall.Reply workers) (Option UInt32) where
  allows checked c := HttpTask.makes (.streamWorker index) c ∧
    (c = notifyTake .disconnectCheck →
      ∃ asyncReq lastSequence, round = .streaming asyncReq lastSequence ∧ checked = some lastSequence)
  observe checked
    | ⟨latestCopyIfNew lastSequence, copied⟩ => if copied = none then some lastSequence else none
    | ⟨notifyTake _, _⟩ => none
    | _ => checked

theorem notifyWorkers_wakes (indexes : List (Fin workers)) :
    (notifyWorkers indexes).Meets notifyMonitor (fun remaining _ => remaining = []) indexes := by
  induction indexes with
  | nil => rfl
  | cons index rest ih => simp [notifyWorkers, ih]

theorem dispatchingRound_wakes :
    (dispatchingRound : HttpProgram workers HttpRound).Meets notifyMonitor
      (fun remaining round => round = .dispatching ∧ remaining = []) [] := by
  simp [dispatchingRound]
  intro received
  cases received with
  | none => simp
  | some publication =>
      simp
      exact notifyWorkers_wakes _

theorem streamReadyRound_wakes (index : Fin workers) (checked : Option UInt32) :
    streamReadyRound.Meets (checkMonitor index .streamReady)
      (fun _ round => (HttpTask.streamWorker index).runs round) checked := by
  simp [streamReadyRound]
  intro received
  cases received <;>
    simp [genericLedClientConnected, genericLedWakeTask, HttpTask.runs]

theorem streamingRound_wakes (index : Fin workers) (asyncReq : HttpAsyncRequest) (lastSequence : UInt32)
    (checked : Option UInt32) :
    (streamingRound asyncReq lastSequence).Meets (checkMonitor index (.streaming asyncReq lastSequence))
      (fun _ round => (HttpTask.streamWorker index).runs round) checked := by
  simp [streamingRound]
  intro copied
  cases copied <;>
    simp [streamClientIsConnected, streamFinish, genericLedPacketConsumed, genericLedClientDisconnected,
      genericLedWakeTask, HttpTask.runs]

abbrev StreamGhost : HttpTask workers → Type
  | .dispatcher => List (Fin workers)
  | .streamWorker _ => Option UInt32
  | .httpd | .writeWorker | .led | .gnss => Unit

def streamOutline (workers : Nat) :
    Outline (HttpTask workers) (@HttpCall.Reply workers) HttpRound StreamGhost where
  observe
    | .dispatcher => notifyMonitor.observe
    | .streamWorker index => (checkMonitor index .streamReady).observe
    | .httpd | .writeWorker | .led | .gnss => fun _ _ => ()
  allows
    | .dispatcher, _ => notifyMonitor.allows
    | .streamWorker index, round => (checkMonitor index round).allows
    | .httpd, _ => fun _ c => HttpTask.makes .httpd c
    | .writeWorker, _ => fun _ c => HttpTask.makes .writeWorker c
    | .led, _ => fun _ c => HttpTask.makes .led c
    | .gnss, _ => fun _ c => HttpTask.makes .gnss c
  head
    | .dispatcher, round, remaining => round = .dispatching ∧ remaining = []
    | .streamWorker index, round, _ => HttpTask.runs (.streamWorker index) round
    | .httpd, round, _ => HttpTask.runs (.httpd : HttpTask workers) round
    | .writeWorker, round, _ => HttpTask.runs (.writeWorker : HttpTask workers) round
    | .led, round, _ => HttpTask.runs (.led : HttpTask workers) round
    | .gnss, round, _ => HttpTask.runs (.gnss : HttpTask workers) round

theorem stream_keeps {t : HttpTask workers} {round : HttpRound} {ghost : StreamGhost t}
    (head : (streamOutline workers).head t round ghost) :
    (streamOutline workers).Keeps t ((httpTasks workers).begin t round) ghost := by
  cases t with
  | dispatcher =>
      obtain ⟨rfl, rfl⟩ := head
      exact dispatchingRound_wakes
  | streamWorker index =>
      cases round with
      | streamReady => exact streamReadyRound_wakes index ghost
      | streaming asyncReq lastSequence => exact streamingRound_wakes index asyncReq lastSequence ghost
      | _ => cases head
  | httpd | writeWorker | led | gnss => exact program_makes head

/-- The dispatcher has stored a publication and has still to notify the worker. -/
def DispatcherOwes (index : Fin workers) (publication : GnssPublication) (history : List (HttpStep workers)) : Prop :=
  Since (fun step => step = ⟨.dispatcher, ⟨latestStore publication, ()⟩⟩)
    (fun step => step.task = .dispatcher ∧ step.event.call = notifyGive (.worker index)) history

/-- A worker that has found nothing new and has no notification has seen what is stored,
    unless the dispatcher has still to notify it. -/
structure StreamWoken (history : List (HttpStep workers)) (shared : HttpShared workers)
    (remaining : List (Fin workers)) (checked : Fin workers → Option UInt32) : Prop where
  handles : ∀ index, shared.workerHandles index = true
  once : remaining.Nodup
  owed : ∀ index ∈ remaining, ∃ publication, shared.latest = some publication ∧
    DispatcherOwes index publication history
  seen : ∀ index lastSequence, checked index = some lastSequence →
    shared.notifications (.worker index) = 0 → ∀ publication, shared.latest = some publication →
      publication.sequence ≠ lastSequence → index ∈ remaining

/-- The calls that change what stream workers are woken for. -/
def wakes : HttpCall workers → Bool
  | latestStore _ | notifyGive _ | notifyTake _ => true
  | _ => false

theorem observe_latest {t : HttpTask workers} {shared : HttpShared workers} {event : HttpEvent workers}
    (quiet : wakes event.call = false) :
    (shared.observe t event).latest = shared.latest ∧
      (shared.observe t event).notifications = shared.notifications := by
  obtain ⟨c, reply⟩ := event
  cases c with
  | latestStore _ | notifyGive _ | notifyTake _ => cases quiet
  | requestQueueSend used asyncReq => cases reply <;> exact ⟨rfl, rfl⟩
  | ledClientDisconnected | ledPacketConsumed =>
      rw [HttpShared.observe]
      split <;> exact ⟨rfl, rfl⟩
  | _ => exact ⟨rfl, rfl⟩

theorem observe_handles (t : HttpTask workers) (shared : HttpShared workers) (event : HttpEvent workers) :
    (shared.observe t event).workerHandles = shared.workerHandles ∧
      (shared.observe t event).ledTaskHandle = shared.ledTaskHandle := by
  obtain ⟨c, reply⟩ := event
  cases c with
  | requestQueueSend used asyncReq => cases reply <;> exact ⟨rfl, rfl⟩
  | notifyTake wait => cases t <;> exact ⟨rfl, rfl⟩
  | ledClientDisconnected | ledPacketConsumed =>
      rw [HttpShared.observe]
      split <;> exact ⟨rfl, rfl⟩
  | _ => exact ⟨rfl, rfl⟩

section Steps

variable {history : List (HttpStep workers)} {shared : HttpShared workers} {remaining : List (Fin workers)}
  {checked : Fin workers → Option UInt32} {answer : (c : HttpCall workers) → c.Reply}
  {c : HttpCall workers} {reply : c.Reply}

theorem StreamWoken.quiet {t : HttpTask workers} (woken : StreamWoken history shared remaining checked)
    (quiet : wakes c = false) :
    StreamWoken (history ++ [⟨t, ⟨c, reply⟩⟩]) (shared.observe t ⟨c, reply⟩) remaining checked := by
  obtain ⟨latest, notifications⟩ := @observe_latest _ t shared ⟨c, reply⟩ quiet
  constructor
  · rw [(observe_handles t shared ⟨c, reply⟩).1]
    exact woken.handles
  · exact woken.once
  · intro index owed
    obtain ⟨publication, stored, since⟩ := woken.owed index owed
    refine ⟨publication, latest.trans stored, since.snoc ?_⟩
    rintro ⟨-, rfl⟩
    cases quiet
  · rw [latest, notifications]
    exact woken.seen

theorem StreamWoken.dispatches (woken : StreamWoken history shared remaining checked)
    (allowed : notifyMonitor.allows remaining c) (replied : shared.reply .dispatcher answer c = some reply) :
    StreamWoken (history ++ [⟨.dispatcher, ⟨c, reply⟩⟩]) (shared.observe .dispatcher ⟨c, reply⟩)
      (notifyMonitor.observe remaining ⟨c, reply⟩) checked := by
  cases c with
  | latestStore publication =>
      refine ⟨woken.handles, List.nodup_finRange workers, fun index _ => ?_, fun index _ _ _ _ _ _ => ?_⟩
      · exact ⟨publication, rfl, since_opened rfl⟩
      · exact List.mem_finRange index
  | workerHandle index =>
      obtain rfl : true = reply := (woken.handles index).symm.trans (Option.some.inj replied)
      exact woken.quiet rfl
  | notifyGive notified =>
      cases notified with
      | led => cases allowed.1
      | worker notified =>
          refine ⟨woken.handles, woken.once.erase notified, fun index owed => ?_,
            fun index lastSequence last none publication stored new => ?_⟩
          · obtain ⟨other, inside⟩ := woken.once.mem_erase_iff.mp owed
            obtain ⟨publication, stored, since⟩ := woken.owed index inside
            refine ⟨publication, stored, since.snoc ?_⟩
            rintro ⟨-, same⟩
            cases same
            exact other rfl
          · have other : index ≠ notified := by
              rintro rfl
              simp [HttpShared.observe] at none
            have unnotified : shared.notifications (.worker index) = 0 := by
              simpa [HttpShared.observe, other] using none
            exact woken.once.mem_erase_iff.mpr
              ⟨other, woken.seen index lastSequence last unnotified publication stored new⟩
  | gnssPublicationReceive => exact woken.quiet rfl
  | _ => cases allowed.1

theorem StreamWoken.works {index : Fin workers} {round : HttpRound}
    (woken : StreamWoken history shared remaining checked)
    (allowed : (checkMonitor index round).allows (checked index) c)
    (replied : shared.reply (.streamWorker index) answer c = some reply) :
    StreamWoken (history ++ [⟨.streamWorker index, ⟨c, reply⟩⟩]) (shared.observe (.streamWorker index) ⟨c, reply⟩)
      remaining (Function.update checked index ((checkMonitor index round).observe (checked index) ⟨c, reply⟩)) := by
  cases c with
  | latestCopyIfNew lastSequence =>
      have copied : shared.latest.filter (·.sequence ≠ lastSequence) = reply := Option.some.inj replied
      refine { woken.quiet rfl with seen := fun other known last silent publication stored new => ?_ }
      rcases Decidable.eq_or_ne other index with rfl | apart
      · rw [Function.update_self] at last
        obtain ⟨nothing, rfl⟩ : reply = none ∧ lastSequence = known := by simpa using last
        have found : shared.latest = some publication := stored
        rw [found, nothing] at copied
        simp [new] at copied
      · rw [Function.update_of_ne apart] at last
        exact woken.seen other known last silent publication stored new
  | notifyTake wait =>
      refine ⟨woken.handles, woken.once, fun other owed => ?_, fun other known last none publication stored new => ?_⟩
      · obtain ⟨publication, stored, since⟩ := woken.owed other owed
        exact ⟨publication, stored, since.snoc (by simp)⟩
      · have apart : other ≠ index := by
          rintro rfl
          rw [Function.update_self] at last
          cases last
        rw [Function.update_of_ne apart] at last
        have unnotified : shared.notifications (.worker other) = 0 := by
          simpa [HttpShared.observe, HttpTask.notified, apart] using none
        exact woken.seen other known last unnotified publication stored new
  | notifyGive notified =>
      cases notified with
      | worker => cases allowed.1
      | led =>
          have same : (checkMonitor index round).observe (checked index) ⟨notifyGive .led, reply⟩ =
            checked index := rfl
          rw [same, Function.update_eq_self]
          refine ⟨woken.handles, woken.once, fun other owed => ?_, fun other known last none => ?_⟩
          · obtain ⟨publication, stored, since⟩ := woken.owed other owed
            exact ⟨publication, stored, since.snoc (by simp)⟩
          · exact woken.seen other known last (by simpa [HttpShared.observe] using none)
  | latestStore publication => cases allowed.1
  | _ =>
      have same : (checkMonitor index round).observe (checked index) ⟨_, reply⟩ = checked index := rfl
      rw [same, Function.update_eq_self]
      exact woken.quiet rfl

/-- The other tasks neither publish nor notify stream workers. -/
theorem StreamWoken.others {t : HttpTask workers} (woken : StreamWoken history shared remaining checked)
    (made : t.makes c) (other : t = .httpd ∨ t = .writeWorker ∨ t = .led ∨ t = .gnss) :
    StreamWoken (history ++ [⟨t, ⟨c, reply⟩⟩]) (shared.observe t ⟨c, reply⟩) remaining checked := by
  cases c with
  | latestStore | notifyGive => rcases other with rfl | rfl | rfl | rfl <;> cases made
  | notifyTake wait =>
      obtain rfl : t = .led := by rcases other with rfl | rfl | rfl | rfl <;> first | rfl | cases made
      refine ⟨woken.handles, woken.once, fun index owed => ?_, fun index known last none => ?_⟩
      · obtain ⟨publication, stored, since⟩ := woken.owed index owed
        exact ⟨publication, stored, since.snoc (by simp)⟩
      · exact woken.seen index known last (by simpa [HttpShared.observe, HttpTask.notified] using none)
  | _ => exact woken.quiet rfl

end Steps

def StreamGhost.initial : (t : HttpTask workers) → StreamGhost t
  | .dispatcher => []
  | .streamWorker _ => none
  | .httpd | .writeWorker | .led | .gnss => ()

theorem streamWoken_of_exec {history s} (run : (httpSystem workers).Exec history s) :
    ∃ ghosts : (t : HttpTask workers) → StreamGhost t,
      StreamWoken history s.shared (ghosts .dispatcher) (fun index => ghosts (.streamWorker index)) ∧
        ∀ t, (streamOutline workers).Keeps t (s.task t) (ghosts t) := by
  have heads (t : HttpTask workers) : (streamOutline workers).head t t.start (StreamGhost.initial t) := by
    cases t with
    | dispatcher => exact ⟨rfl, rfl⟩
    | _ => rfl
  refine Tasks.invariant_of_outline
    (I := fun history shared ghosts =>
      StreamWoken history shared (ghosts .dispatcher) (fun index => ghosts (.streamWorker index)))
    (fun t round ghost head => stream_keeps head) heads ?_ ?_ run
  · exact ⟨fun _ => rfl, List.nodup_nil, by simp [StreamGhost.initial], by simp [StreamGhost.initial]⟩
  · intro history shared ghosts t round c answer reply woken allowed replied
    cases t with
    | streamWorker index =>
        have worked := woken.works allowed replied
        have moved := Function.update_comp_eq_of_injective' ghosts streamWorker_injective index
          ((checkMonitor index round).observe (ghosts (.streamWorker index)) ⟨c, reply⟩)
        simp only [ne_eq, reduceCtorEq, not_false_eq_true, Function.update_of_ne]
        exact moved ▸ worked
    | dispatcher =>
        simp only [ne_eq, reduceCtorEq, not_false_eq_true, Function.update_of_ne, Function.update_self]
        exact woken.dispatches allowed replied
    | httpd | writeWorker | led | gnss =>
        simp only [ne_eq, reduceCtorEq, not_false_eq_true, Function.update_of_ne]
        exact woken.others allowed (by simp)

/-- When a stream worker waits, has no notification and could send something new, the
    dispatcher is between storing it and notifying the worker. -/
def StreamWakesUp (history : List (HttpStep workers)) (s : HttpStack workers) : Prop :=
  ∀ index asyncReq lastSequence publication,
    (s.task (.streamWorker index)).round = .streaming asyncReq lastSequence →
    (s.task (.streamWorker index)).program.head? = some (notifyTake .disconnectCheck) →
    s.shared.notifications (.worker index) = 0 →
    s.shared.latest = some publication → publication.sequence ≠ lastSequence →
      DispatcherOwes index publication history ∧ ∃ c notified,
        (s.task .dispatcher).program.head? = some c ∧
          (c = workerHandle notified ∨ c = notifyGive (.worker notified))

theorem stream_wakes_up {history s} (run : (httpSystem workers).Exec history s) : StreamWakesUp history s := by
  intro index asyncReq lastSequence publication serving blocked unnotified stored new
  obtain ⟨ghosts, woken, keeps⟩ := streamWoken_of_exec run
  have waits := (keeps (.streamWorker index)).head? blocked
  obtain ⟨asyncReq', lastSequence', same, checked⟩ := waits.2 rfl
  rw [serving] at same
  cases same
  have owed := woken.seen index lastSequence checked unnotified publication stored new
  constructor
  · obtain ⟨publication', stored', since⟩ := woken.owed index owed
    rw [stored] at stored'
    cases stored'
    exact since
  · obtain ⟨c, about, allowed⟩ := (keeps .dispatcher).running fun round head => List.ne_nil_of_mem owed head.2
    obtain ⟨notified, next⟩ := allowed.2 (List.ne_nil_of_mem owed)
    exact ⟨c, notified, about, next⟩

/-- The sections that change what the LED shows. -/
def updatesLed : HttpCall workers → Bool
  | ledClientConnected | ledClientDisconnected | ledPacketConsumed => true
  | _ => false

/-- Watches whether a worker has still to notify the LED task. -/
@[simps] def owingMonitor (index : Fin workers) : Monitor (@HttpCall.Reply workers) Bool where
  allows owing c := HttpTask.makes (.streamWorker index) c ∧
    (owing = true → c = .ledTaskHandle ∨ c = notifyGive .led)
  observe owing
    | ⟨ledClientConnected, _⟩ | ⟨ledClientDisconnected, _⟩ | ⟨ledPacketConsumed, _⟩ => true
    | ⟨.ledTaskHandle, handle⟩ => owing && handle
    | ⟨notifyGive _, _⟩ => false
    | _ => owing

/-- Watches whether the LED task has taken the counters since it took its notifications. -/
@[simps] def drainMonitor : Monitor (@HttpCall.Reply workers) Bool where
  allows drained c := HttpTask.makes .led c ∧ (c = notifyTake .forever → drained = true)
  observe drained
    | ⟨notifyTake _, _⟩ => false
    | ⟨ledCountersTake, _⟩ => true
    | _ => drained

theorem streamReadyRound_notifies (index : Fin workers) :
    streamReadyRound.Meets (owingMonitor index)
      (fun owing round => HttpTask.runs (.streamWorker index) round ∧ owing = false) false := by
  simp [streamReadyRound]
  intro received
  cases received <;>
    simp [genericLedClientConnected, genericLedWakeTask, HttpTask.runs]

theorem streamingRound_notifies (index : Fin workers) (asyncReq : HttpAsyncRequest) (lastSequence : UInt32) :
    (streamingRound asyncReq lastSequence).Meets (owingMonitor index)
      (fun owing round => HttpTask.runs (.streamWorker index) round ∧ owing = false) false := by
  simp [streamingRound]
  intro copied
  cases copied <;>
    simp [streamClientIsConnected, streamFinish, genericLedPacketConsumed, genericLedClientDisconnected,
      genericLedWakeTask, HttpTask.runs]

theorem genericTaskToggle_drained {post : Bool → Bool → Prop} (ends : ∀ ledOn, post true ledOn) (toggles : Nat)
    (ledOn : Bool) : (genericTaskToggle toggles ledOn : HttpProgram workers Bool).Meets drainMonitor post true := by
  induction toggles generalizing ledOn with
  | zero => exact ends ledOn
  | succ toggles ih => simp [genericTaskToggle, espErrorCheck, ih]

theorem led_drained {round : HttpRound} (runs : HttpTask.runs (.led : HttpTask workers) round) :
    (round.program : HttpProgram workers HttpRound).Meets drainMonitor
      (fun drained round => HttpTask.runs (.led : HttpTask workers) round ∧ drained = true) true := by
  cases round with
  | blinking blink =>
      simp [HttpRound.program, genericTaskBlink, espErrorCheck, HttpTask.runs]
  | indicating ledOn =>
      simp [HttpRound.program, genericTaskLoop, espErrorCheck, HttpTask.runs]
      intro counters _
      exact genericTaskToggle_drained (fun _ => rfl) _ _
  | _ => cases runs

abbrev LedGhost : HttpTask workers → Type
  | .streamWorker _ | .led => Bool
  | .httpd | .dispatcher | .writeWorker | .gnss => Unit

def LedGhost.initial : (t : HttpTask workers) → LedGhost t
  | .streamWorker _ => false
  | .led => true
  | .httpd | .dispatcher | .writeWorker | .gnss => ()

def ledOutline (workers : Nat) : Outline (HttpTask workers) (@HttpCall.Reply workers) HttpRound LedGhost where
  observe
    | .streamWorker index => (owingMonitor index).observe
    | .led => drainMonitor.observe
    | .httpd | .dispatcher | .writeWorker | .gnss => fun _ _ => ()
  allows
    | .streamWorker index, _ => (owingMonitor index).allows
    | .led, _ => drainMonitor.allows
    | .httpd, _ => fun _ c => HttpTask.makes .httpd c
    | .dispatcher, _ => fun _ c => HttpTask.makes .dispatcher c
    | .writeWorker, _ => fun _ c => HttpTask.makes .writeWorker c
    | .gnss, _ => fun _ c => HttpTask.makes .gnss c
  head
    | .streamWorker index, round, owing => HttpTask.runs (.streamWorker index) round ∧ owing = false
    | .led, round, drained => HttpTask.runs (.led : HttpTask workers) round ∧ drained = true
    | .httpd, round, _ => HttpTask.runs (.httpd : HttpTask workers) round
    | .dispatcher, round, _ => HttpTask.runs (.dispatcher : HttpTask workers) round
    | .writeWorker, round, _ => HttpTask.runs (.writeWorker : HttpTask workers) round
    | .gnss, round, _ => HttpTask.runs (.gnss : HttpTask workers) round

theorem led_keeps {t : HttpTask workers} {round : HttpRound} {ghost : LedGhost t}
    (head : (ledOutline workers).head t round ghost) :
    (ledOutline workers).Keeps t ((httpTasks workers).begin t round) ghost := by
  cases t with
  | streamWorker index =>
      obtain ⟨runs, rfl⟩ := head
      cases round with
      | streamReady => exact streamReadyRound_notifies index
      | streaming asyncReq lastSequence => exact streamingRound_notifies index asyncReq lastSequence
      | _ => cases runs
  | led =>
      obtain ⟨runs, rfl⟩ := head
      exact led_drained runs
  | httpd | dispatcher | writeWorker | gnss => exact program_makes head

/-- A worker has changed a counter and has still to notify the LED task. -/
def WorkerOwes (index : Fin workers) (history : List (HttpStep workers)) : Prop :=
  Since (fun step => step.task = .streamWorker index ∧ updatesLed step.event.call = true)
    (fun step => step.task = .streamWorker index ∧ step.event.call = notifyGive .led) history

/-- The client count that the LED task read last. -/
def lastClientCount (history : List (HttpStep workers)) : UInt32 :=
  history.foldl (fun count step =>
    match step.event with
    | ⟨ledCountersTake, counters⟩ => counters.connectedClientCount
    | _ => count) 0

/-- An LED task that has taken the counters and has no notification has seen them, unless
    a worker has still to notify it. -/
structure LedWoken (history : List (HttpStep workers)) (shared : HttpShared workers)
    (drained : Bool) (owing : Fin workers → Bool) : Prop where
  handle : shared.ledTaskHandle = true
  owed : ∀ index, owing index = true → WorkerOwes index history
  seen : drained = true → shared.notifications .led = 0 →
    (shared.pendingPacketToggles = 0 ∧ lastClientCount history = shared.connectedClientCount) ∨
      ∃ index, owing index = true

/-- The calls that change what the LED task is woken for. -/
def wakesLed (c : HttpCall workers) : Bool :=
  updatesLed c || match c with
    | ledCountersTake | notifyGive _ | notifyTake _ => true
    | _ => false

theorem observe_counters {t : HttpTask workers} {shared : HttpShared workers} {event : HttpEvent workers}
    (quiet : wakesLed event.call = false) :
    (shared.observe t event).notifications = shared.notifications ∧
      (shared.observe t event).pendingPacketToggles = shared.pendingPacketToggles ∧
      (shared.observe t event).connectedClientCount = shared.connectedClientCount := by
  obtain ⟨c, reply⟩ := event
  cases c with
  | ledClientConnected | ledClientDisconnected | ledPacketConsumed | ledCountersTake | notifyGive _
  | notifyTake _ => cases quiet
  | requestQueueSend used asyncReq => cases reply <;> exact ⟨rfl, rfl, rfl⟩
  | _ => exact ⟨rfl, rfl, rfl⟩

theorem lastClientCount_snoc {history : List (HttpStep workers)} {step : HttpStep workers}
    (other : step.event.call ≠ ledCountersTake) :
    lastClientCount (history ++ [step]) = lastClientCount history := by
  obtain ⟨t, c, reply⟩ := step
  rw [lastClientCount, List.foldl_append]
  cases c with
  | ledCountersTake => exact absurd rfl other
  | _ => rfl

section LedSteps

variable {history : List (HttpStep workers)} {shared : HttpShared workers} {drained : Bool}
  {owing : Fin workers → Bool} {answer : (c : HttpCall workers) → c.Reply} {c : HttpCall workers}
  {reply : c.Reply}

theorem LedWoken.quiet {t : HttpTask workers} (woken : LedWoken history shared drained owing)
    (quiet : wakesLed c = false) :
    LedWoken (history ++ [⟨t, ⟨c, reply⟩⟩]) (shared.observe t ⟨c, reply⟩) drained owing := by
  obtain ⟨notifications, toggles, count⟩ := @observe_counters _ t shared ⟨c, reply⟩ quiet
  constructor
  · rw [(observe_handles t shared ⟨c, reply⟩).2]
    exact woken.handle
  · intro index owes
    apply (woken.owed index owes).snoc
    rintro ⟨-, rfl⟩
    cases quiet
  · rw [notifications, toggles, count, lastClientCount_snoc]
    · exact woken.seen
    · rintro rfl
      cases quiet

/-- A notification of the LED task leaves nothing to show. -/
theorem LedWoken.works {index : Fin workers} (woken : LedWoken history shared drained owing)
    (allowed : (owingMonitor index).allows (owing index) c)
    (replied : shared.reply (.streamWorker index) answer c = some reply) :
    LedWoken (history ++ [⟨.streamWorker index, ⟨c, reply⟩⟩]) (shared.observe (.streamWorker index) ⟨c, reply⟩)
      drained (Function.update owing index ((owingMonitor index).observe (owing index) ⟨c, reply⟩)) := by
  cases c with
  | ledClientConnected | ledClientDisconnected | ledPacketConsumed =>
      refine ⟨?_, ?_, ?_⟩
      · rw [(observe_handles _ shared _).2]
        exact woken.handle
      · intro other owes
        rcases Decidable.eq_or_ne other index with rfl | apart
        · exact since_opened ⟨rfl, rfl⟩
        · rw [Function.update_of_ne apart] at owes
          exact (woken.owed other owes).snoc (by simp)
      · intro _ _
        exact .inr ⟨index, by simp⟩
  | ledTaskHandle =>
      obtain rfl : true = reply := woken.handle.symm.trans (Option.some.inj replied)
      have same : (owingMonitor index).observe (owing index) ⟨.ledTaskHandle, true⟩ = owing index := by simp
      rw [same, Function.update_eq_self]
      exact woken.quiet rfl
  | notifyGive notified =>
      cases notified with
      | worker => cases allowed.1
      | led =>
          refine ⟨woken.handle, fun other owes => ?_, fun _ unnotified => ?_⟩
          · have apart : other ≠ index := by
              rintro rfl
              rw [Function.update_self] at owes
              cases owes
            rw [Function.update_of_ne apart] at owes
            apply (woken.owed other owes).snoc
            rintro ⟨same, -⟩
            cases same
            exact apart rfl
          · simp [HttpShared.observe] at unnotified
  | notifyTake wait =>
      have same : (owingMonitor index).observe (owing index) ⟨notifyTake wait, reply⟩ = owing index := rfl
      rw [same, Function.update_eq_self]
      refine ⟨woken.handle, fun other owes => (woken.owed other owes).snoc (by simp), fun ready unnotified => ?_⟩
      rw [lastClientCount_snoc (by simp)]
      exact woken.seen ready (by simpa [HttpShared.observe, HttpTask.notified] using unnotified)
  | ledCountersTake => cases allowed.1
  | _ =>
      have same : (owingMonitor index).observe (owing index) ⟨_, reply⟩ = owing index := rfl
      rw [same, Function.update_eq_self]
      exact woken.quiet rfl

theorem LedWoken.indicates (woken : LedWoken history shared drained owing)
    (allowed : drainMonitor.allows drained c)
    (replied : shared.reply .led answer c = some reply) :
    LedWoken (history ++ [⟨.led, ⟨c, reply⟩⟩]) (shared.observe .led ⟨c, reply⟩)
      (drainMonitor.observe drained ⟨c, reply⟩) owing := by
  cases c with
  | notifyTake wait =>
      refine ⟨woken.handle, fun other owes => (woken.owed other owes).snoc (by simp), ?_⟩
      intro ready
      cases ready
  | ledCountersTake =>
      obtain rfl := Option.some.inj replied
      refine ⟨woken.handle, fun other owes => (woken.owed other owes).snoc (by simp), fun _ _ => .inl ⟨rfl, ?_⟩⟩
      rw [lastClientCount, List.foldl_append]
      rfl
  | ledClientConnected | ledClientDisconnected | ledPacketConsumed | notifyGive => cases allowed.1
  | _ => exact woken.quiet rfl

theorem LedWoken.others {t : HttpTask workers} (woken : LedWoken history shared drained owing)
    (made : t.makes c) (other : t = .httpd ∨ t = .dispatcher ∨ t = .writeWorker ∨ t = .gnss) :
    LedWoken (history ++ [⟨t, ⟨c, reply⟩⟩]) (shared.observe t ⟨c, reply⟩) drained owing := by
  cases c with
  | ledClientConnected | ledClientDisconnected | ledPacketConsumed | ledCountersTake | notifyTake =>
      rcases other with rfl | rfl | rfl | rfl <;> cases made
  | notifyGive notified =>
      cases notified with
      | led => rcases other with rfl | rfl | rfl | rfl <;> cases made
      | worker index =>
          refine ⟨woken.handle, fun other owes => (woken.owed other owes).snoc (by simp), fun ready unnotified => ?_⟩
          rw [lastClientCount_snoc (by simp)]
          exact woken.seen ready (by simpa [HttpShared.observe] using unnotified)
  | _ => exact woken.quiet rfl

end LedSteps

theorem ledWoken_of_exec {history s} (run : (httpSystem workers).Exec history s) :
    ∃ ghosts : (t : HttpTask workers) → LedGhost t,
      LedWoken history s.shared (ghosts .led) (fun index => ghosts (.streamWorker index)) ∧
        ∀ t, (ledOutline workers).Keeps t (s.task t) (ghosts t) := by
  have heads (t : HttpTask workers) : (ledOutline workers).head t t.start (LedGhost.initial t) := by
    cases t with
    | streamWorker | led => exact ⟨rfl, rfl⟩
    | _ => rfl
  refine Tasks.invariant_of_outline
    (I := fun history shared ghosts =>
      LedWoken history shared (ghosts .led) (fun index => ghosts (.streamWorker index)))
    (fun t round ghost head => led_keeps head) heads ?_ ?_ run
  · exact ⟨rfl, by simp [LedGhost.initial], fun _ _ => .inl ⟨rfl, rfl⟩⟩
  · intro history shared ghosts t round c answer reply woken allowed replied
    cases t with
    | streamWorker index =>
        have worked := woken.works allowed replied
        have moved := Function.update_comp_eq_of_injective' ghosts streamWorker_injective index
          ((owingMonitor index).observe (ghosts (.streamWorker index)) ⟨c, reply⟩)
        simp only [ne_eq, reduceCtorEq, not_false_eq_true, Function.update_of_ne]
        exact moved ▸ worked
    | led =>
        simp only [ne_eq, reduceCtorEq, not_false_eq_true, Function.update_of_ne, Function.update_self]
        exact woken.indicates allowed replied
    | httpd | dispatcher | writeWorker | gnss =>
        simp only [ne_eq, reduceCtorEq, not_false_eq_true, Function.update_of_ne]
        exact woken.others allowed (by simp)

/-- When the LED task waits and has no notification, it has read the counters as they are,
    or a worker is between changing them and notifying it. -/
def LedWakesUp (history : List (HttpStep workers)) (s : HttpStack workers) : Prop :=
  (s.task .led).program.head? = some (notifyTake .forever) → s.shared.notifications .led = 0 →
    (s.shared.pendingPacketToggles = 0 ∧ lastClientCount history = s.shared.connectedClientCount) ∨
      ∃ index, WorkerOwes index history ∧ ∃ c,
        (s.task (.streamWorker index)).program.head? = some c ∧ (c = .ledTaskHandle ∨ c = notifyGive .led)

theorem led_wakes_up {history s} (run : (httpSystem workers).Exec history s) : LedWakesUp history s := by
  intro blocked unnotified
  obtain ⟨ghosts, woken, keeps⟩ := ledWoken_of_exec run
  have waits := (keeps .led).head? blocked
  rcases woken.seen (waits.2 rfl) unnotified with seen | ⟨index, owes⟩
  · exact .inl seen
  · have unfinished (round : HttpRound) : ¬(HttpTask.runs (.streamWorker index) round = true ∧
        ghosts (.streamWorker index) = false) := by
      rintro ⟨-, settled⟩
      cases owes.symm.trans settled
    obtain ⟨c, about, allowed⟩ := (keeps (.streamWorker index)).running unfinished
    exact .inr ⟨index, woken.owed index owes, c, about, allowed.2 owes⟩

end EspGnss.Http
