import EspGnss.Http.Stack

/-! # Which calls the HTTP tasks make -/

namespace EspGnss.Http

open Foundation HttpCall

variable {workers : Nat}

/-- The calls of a task. -/
@[simp] def HttpTask.makes : HttpTask workers → HttpCall workers → Bool
  | httpd, c =>
      match c with
      | requestReceive | asyncHandlerBegin _ | asyncHandlerComplete _ => true
      | workerReadyTake _ | workerReadyGive _ | requestQueueSend _ _ => true
      | respSetStatus _ _ | respSetType _ _ | respSendstr _ _ => true
      | _ => false
  | dispatcher, c =>
      match c with
      | gnssPublicationReceive | latestStore _ | workerHandle _ | notifyGive (.worker _) => true
      | _ => false
  | streamWorker _, c =>
      match c with
      | workerReadyGive .stream | requestQueueReceive .stream | asyncHandlerComplete _ => true
      | respSetType _ _ | respSetHdr _ _ _ | respSendChunk _ _ _ | reqToSockfd _ | recvPeek _ => true
      | ledClientConnected | ledClientDisconnected | ledPacketConsumed | .ledTaskHandle => true
      | notifyGive .led | notifyTake .noWait | notifyTake .disconnectCheck | latestCopyIfNew _ => true
      | _ => false
  | writeWorker, c =>
      match c with
      | workerReadyGive .write | requestQueueReceive .write | asyncHandlerComplete _ => true
      | respSetStatus _ _ | respSetType _ _ | respSendstr _ _ | reqRecv _ _ => true
      | gnssOverrideBegin | gnssOverrideFeed _ | gnssOverrideEnd => true
      | _ => false
  | led, c =>
      match c with
      | gpioSetLevel _ | taskDelay _ | abort | notifyTake .forever | ledCountersTake => true
      | _ => false
  | gnss, c => c = gnssStep

/-- Watches whether a task makes only its own calls. -/
abbrev HttpTask.callMonitor (t : HttpTask workers) : Monitor (@HttpCall.Reply workers) Unit :=
  Monitor.calls (t.makes · = true)

theorem httpdRound_makes :
    httpdRound.Meets (HttpTask.callMonitor (.httpd : HttpTask workers)) (fun _ round => round = .httpd) () := by
  simp [httpdRound]
  intro req
  cases req.uri <;>
    simp [HttpUri.handler, readGetHandler, viewGetHandler, writePostHandler, streamRequestQueue,
      writeRequestQueue, respondText]

theorem notifyWorkers_makes {post : Unit → Unit → Prop} (ends : post () ()) (indexes : List (Fin workers)) :
    (notifyWorkers indexes).Meets (HttpTask.callMonitor .dispatcher) post () := by
  induction indexes with
  | nil => exact ends
  | cons index rest ih => simp [notifyWorkers, ih]

theorem dispatchingRound_makes :
    dispatchingRound.Meets (HttpTask.callMonitor (.dispatcher : HttpTask workers))
      (fun _ round => round = .dispatching) () := by
  simp [dispatchingRound]
  intro received
  cases received with
  | none => rfl
  | some publication =>
      simp
      exact notifyWorkers_makes trivial _

theorem streamReadyRound_makes (index : Fin workers) :
    streamReadyRound.Meets (HttpTask.callMonitor (.streamWorker index))
      (fun _ round => (HttpTask.streamWorker index).runs round) () := by
  simp [streamReadyRound]
  intro received
  cases received <;> simp [genericLedClientConnected, genericLedWakeTask, HttpTask.runs]

theorem streamingRound_makes (index : Fin workers) (asyncReq : HttpAsyncRequest) (lastSequence : UInt32) :
    (streamingRound asyncReq lastSequence).Meets (HttpTask.callMonitor (.streamWorker index))
      (fun _ round => (HttpTask.streamWorker index).runs round) () := by
  simp [streamingRound]
  intro copied
  cases copied <;>
    simp [streamClientIsConnected, streamFinish, genericLedPacketConsumed, genericLedClientDisconnected,
      genericLedWakeTask, HttpTask.runs]

theorem writeReadyRound_makes :
    writeReadyRound.Meets (HttpTask.callMonitor (.writeWorker : HttpTask workers))
      (fun _ round => (HttpTask.writeWorker : HttpTask workers).runs round) () := by
  simp [writeReadyRound]
  intro received
  cases received <;> simp [respondText, writeFinish, HttpTask.runs]

theorem writingRound_makes (asyncReq : HttpAsyncRequest) (remaining : Nat) :
    (writingRound asyncReq remaining).Meets (HttpTask.callMonitor (.writeWorker : HttpTask workers))
      (fun _ round => (HttpTask.writeWorker : HttpTask workers).runs round) () := by
  simp [writingRound, writeEnd, writeFinish, HttpTask.runs]

theorem genericTaskToggle_makes {post : Unit → Bool → Prop} (ends : ∀ ledOn, post () ledOn) (toggles : Nat)
    (ledOn : Bool) :
    (genericTaskToggle toggles ledOn).Meets (HttpTask.callMonitor (.led : HttpTask workers)) post () := by
  induction toggles generalizing ledOn with
  | zero => exact ends ledOn
  | succ toggles ih => simp [genericTaskToggle, espErrorCheck, ih]

theorem genericTaskLoop_makes (ledOn : Bool) :
    (genericTaskLoop ledOn).Meets (HttpTask.callMonitor (.led : HttpTask workers)) (fun _ _ => True) () := by
  simp [genericTaskLoop, espErrorCheck]
  intro counters _
  exact genericTaskToggle_makes (fun _ => trivial) _ _

/-- In its rounds a task makes only its own calls, and its next round is one of its own. -/
theorem program_makes {t : HttpTask workers} {round : HttpRound} (runs : t.runs round) :
    round.program.Meets t.callMonitor (fun _ round => t.runs round) () := by
  cases t with
  | httpd =>
      cases round with
      | httpd => exact httpdRound_makes.mono fun _ round same => by rw [same]; rfl
      | _ => cases runs
  | dispatcher =>
      cases round with
      | dispatching => exact dispatchingRound_makes.mono fun _ round same => by rw [same]; rfl
      | _ => cases runs
  | streamWorker index =>
      cases round with
      | streamReady => exact streamReadyRound_makes index
      | streaming asyncReq lastSequence => exact streamingRound_makes index asyncReq lastSequence
      | _ => cases runs
  | writeWorker =>
      cases round with
      | writeReady => exact writeReadyRound_makes
      | writing asyncReq remaining => exact writingRound_makes asyncReq remaining
      | _ => cases runs
  | led =>
      cases round with
      | blinking blink =>
          simp [HttpRound.program, genericTaskBlink, espErrorCheck, HttpTask.runs]
      | indicating ledOn =>
          exact CallTree.meets_bind.mpr ((genericTaskLoop_makes ledOn).mono fun _ _ _ => rfl)
      | _ => cases runs
  | gnss =>
      cases round with
      | gnss => simp [HttpRound.program, HttpTask.runs]
      | _ => cases runs

end EspGnss.Http
