import EspGnss.Ota.Pending

/-! # The confirmation timeout

`ota_confirmation_timeout_callback` tests the flag in one step and restarts in
another, and `/flash/confirm` marks the image valid in one step and clears the flag
in another. The timeout spares a confirmed image in the runs where neither pair is
split at the wrong moment.
-/

namespace EspGnss.Ota

open Foundation OtaCall

/-- The stack with the timer whose callback the timer service ran last. -/
structure TimedStack where
  stack : OtaStack
  expired : Option OtaTimer

/-- The timer that has expired last after an action. -/
def lastExpired (expired : Option OtaTimer) : OtaAction → Option OtaTimer
  | .timerExpire timer => some timer
  | _ => expired

def TimedStack.next (s : TimedStack) (action : OtaAction) : Option (TimedStack × List OtaStep) :=
  (s.stack.next action).map fun (stack, events) => (⟨stack, lastExpired s.expired action⟩, events)

/-- A boot of an image that awaits its confirmation. -/
def timedSystem : System TimedStack OtaAction OtaStep := .ofFunction ⟨.initial true, none⟩ TimedStack.next

/-- The timeout callback has found the flag set, and calls `esp_restart` next. -/
def TimedStack.Restarting (s : TimedStack) : Prop :=
  s.expired = some .confirmation ∧ ∃ later, s.stack.timer = some (.call espRestart later)

/-- The image is not marked valid while the callback is about to restart, and the
    callback does not test the flag that the handler is about to clear. -/
structure TimeoutInTime (s : TimedStack) (action : OtaAction) : Prop where
  confirm : ∀ answer uri later, action = .httpd answer →
    s.stack.httpd = some ⟨uri, .call otaMarkAppValidCancelRollback later⟩ →
    answer otaMarkAppValidCancelRollback = espOk → ¬s.Restarting
  test : ∀ answer later, action = .timerCallback answer →
    s.stack.timer = some (.call confirmationPendingGet later) →
    ∀ uri clear, s.stack.httpd ≠ some ⟨uri, .call (confirmationPendingSet false) clear⟩

/-- The timeout still comes: its timer is armed, or is going to be, or its callback
    is on the way to the restart. -/
structure TimedStack.Held (s : TimedStack) : Prop where
  unstopped : .stop .confirmation ∉ s.stack.shared.timerCommands
  coming : s.stack.shared.restarted = true ∨ s.stack.shared.confirmationArmed = true ∨
    .start .confirmation ∈ s.stack.shared.timerCommands ∨
    s.expired = some .confirmation ∧ (s.stack.timer = some otaConfirmationTimeoutCallback ∨
      ∃ later, s.stack.timer = some (.call espRestart later))

theorem TimedStack.next_eq_some {s s' : TimedStack} {action events}
    (step : s.next action = some (s', events)) :
    OtaTransition s.stack action s'.stack events ∧ s'.expired = lastExpired s.expired action := by
  obtain ⟨⟨stack, events'⟩, taken, same⟩ := Option.map_eq_some_iff.mp step
  cases same
  exact ⟨(OtaTransition.of_next taken).2, rfl⟩

theorem exec_stack {history : List OtaStep} {s : TimedStack} (run : timedSystem.Exec history s) :
    (otaSystem true).Exec history s.stack := by
  induction run with
  | start first =>
      cases first
      exact .start rfl
  | next _ step ih =>
      obtain ⟨⟨stack, events⟩, taken, same⟩ := Option.map_eq_some_iff.mp step
      cases same
      exact ih.next taken

/-- Between the validation and the clearing of the flag stands one handler. -/
theorem Awaiting.standsAtClear {history : List OtaStep} {s : OtaStack} {known : Knowledge}
    (awaiting : Awaiting history s known) (owes : known.Owes) :
    ∃ uri later, s.httpd = some ⟨uri, .call (confirmationPendingSet false) later⟩ := by
  cases httpd : s.httpd with
  | none => exact absurd owes (awaiting.idle httpd)
  | some serving =>
      obtain ⟨uri, program⟩ := serving
      have meets := awaiting.handler _ httpd
      cases program with
      | done err => exact absurd owes meets
      | call c later =>
          have allowed := meets.1
          cases c with
          | confirmationPendingSet pending =>
              obtain ⟨rfl, -⟩ := allowed
              exact ⟨uri, later, rfl⟩
          | requestQueueSend =>
              cases owes.2.symm.trans allowed
          | otaMarkAppValidCancelRollback | timerStop => exact absurd owes allowed.2
          | requestQueueReceive | otaBegin | otaWrite => exact allowed.elim
          | _ => exact absurd owes allowed

/-- What is left of the timeout callback, if that is what the timer service runs. -/
def TimedStack.InTimeout (s : TimedStack) : Prop :=
  s.expired = some .confirmation → ∀ program, s.stack.timer = some program →
    program = otaConfirmationTimeoutCallback ∨ program = call espRestart ∨ program = .done ()

theorem inTimeout_step {s s' : TimedStack} {action events} (h : s.InTimeout)
    (step : s.next action = some (s', events)) : s'.InTimeout := by
  obtain ⟨step, expired⟩ := TimedStack.next_eq_some step
  obtain ⟨stack, last⟩ := s
  obtain ⟨stack', last'⟩ := s'
  obtain rfl : last' = _ := expired
  intro confirmation program running
  cases step with
  | @expires timer =>
      cases running
      cases confirmation
      exact .inl rfl
  | returned => cases running
  | @calls answer c later reply calling =>
      cases running
      rcases h confirmation _ calling with same | same | same
      · cases same
        cases reply with
        | true => exact .inr (.inl rfl)
        | false => exact .inr (.inr rfl)
      · cases same
        exact .inr (.inr rfl)
      · cases same
  | _ => exact h confirmation program running

/-- What the guard keeps: the callback restarts an unconfirmed image only. -/
theorem restarting_step {history : List OtaStep} {s s' : TimedStack} {known : Knowledge} {action events}
    (awaiting : Awaiting history s.stack known) (inTimeout : s.InTimeout)
    (h : s.Restarting → ¬Validated history) (inTime : TimeoutInTime s action)
    (step : s.next action = some (s', events)) : s'.Restarting → ¬Validated (history ++ events) := by
  obtain ⟨step, expired⟩ := TimedStack.next_eq_some step
  obtain ⟨stack, last⟩ := s
  obtain ⟨stack', last'⟩ := s'
  obtain rfl : last' = _ := expired
  rintro ⟨confirmation, restart, running⟩
  cases step with
  | handled | served | request => simpa using h ⟨confirmation, restart, running⟩
  | @handles answer uri c later reply calling replied =>
      have restarting : TimedStack.Restarting ⟨stack, last⟩ := ⟨confirmation, restart, running⟩
      intro valid
      rcases validated_append.mp valid with old | marks
      · exact h restarting old
      · obtain rfl := call_of_validates marks
        obtain rfl : answer otaMarkAppValidCancelRollback = reply := Option.some.inj replied
        exact inTime.confirm answer uri later rfl calling (of_decide_eq_true marks) restarting
  | gives | receives =>
      intro valid
      apply h ⟨confirmation, restart, running⟩
      exact (validated_append.mp valid).resolve_right Bool.false_ne_true
  | @serves answer c later reply serving =>
      obtain ⟨-, aloof, -⟩ := awaiting.worker _ serving
      intro valid
      apply h ⟨confirmation, restart, running⟩
      refine (validated_append.mp valid).resolve_right fun marks => ?_
      obtain rfl := call_of_validates marks
      exact aloof trivial
  | @command command rest =>
      rw [List.append_nil]
      exact h ⟨confirmation, restart, running⟩
  | @expires timer =>
      cases timer <;> cases running
      cases confirmation
  | returned => cases running
  | @calls answer c later reply calling replied =>
      obtain ⟨inCallback, -⟩ := awaiting.timer _ calling
      intro valid
      cases c with
      | espRestart =>
          apply h ⟨confirmation, later, calling⟩
          exact (validated_append.mp valid).resolve_right Bool.false_ne_true
      | confirmationPendingGet =>
          have old := (validated_append.mp valid).resolve_right Bool.false_ne_true
          obtain rfl : stack.shared.confirmationPending = reply := Option.some.inj replied
          cases pending : stack.shared.confirmationPending with
          | true =>
              obtain ⟨uri, clear, clears⟩ := awaiting.standsAtClear (awaiting.owes old pending)
              exact inTime.test answer later rfl calling uri clear clears
          | false =>
              have ends : later false = .done () := by
                rcases inTimeout confirmation _ calling with same | same | same
                · cases same
                  rfl
                · cases same
                · cases same
              rw [pending, ends] at running
              cases running
      | _ => exact absurd id inCallback

theorem inTimeout_of_exec {history : List OtaStep} {s : TimedStack} (run : timedSystem.Exec history s) :
    s.InTimeout := by
  refine run.invariant (I := fun _ s => s.InTimeout) (fun s start => ?_)
    (fun history s action s' events _ h step => inTimeout_step h step)
  cases start
  exact nofun

theorem restarting_of_exec {history : List OtaStep} {s : TimedStack}
    (run : (timedSystem.guarded TimeoutInTime).Exec history s) : s.Restarting → ¬Validated history := by
  refine run.invariant (I := fun history s => s.Restarting → ¬Validated history) (fun s start => ?_)
    (fun history s action s' events earlier h step => ?_)
  · intro _ valid
    simp [Validated] at valid
  · obtain ⟨known, awaiting⟩ := awaiting_of_exec (exec_stack earlier.of_guarded)
    exact restarting_step awaiting (inTimeout_of_exec earlier.of_guarded) h step.1 step.2

theorem observe_timers (shared : OtaShared) {event : OtaEvent}
    (start : ∀ timer, event.call ≠ timerStart timer) (stop : ∀ timer, event.call ≠ timerStop timer) :
    (shared.observe event).timerCommands = shared.timerCommands ∧
      (shared.observe event).confirmationArmed = shared.confirmationArmed := by
  obtain ⟨c, reply⟩ := event
  cases c with
  | timerStart timer => exact absurd rfl (start timer)
  | timerStop timer => exact absurd rfl (stop timer)
  | requestQueueSend => cases reply <;> exact ⟨rfl, rfl⟩
  | otaSetBootPartition | otaMarkAppInvalidRollback =>
      unfold OtaShared.observe
      dsimp only
      split <;> exact ⟨rfl, rfl⟩
  | _ => exact ⟨rfl, rfl⟩

theorem observe_restarted {shared : OtaShared} (event : OtaEvent)
    (restarted : shared.restarted = true) : (shared.observe event).restarted = true := by
  obtain ⟨c, reply⟩ := event
  cases c with
  | timerStart | timerStop | requestQueueSend => cases reply <;> exact restarted
  | otaSetBootPartition | otaMarkAppInvalidRollback =>
      unfold OtaShared.observe
      dsimp only
      split <;> exact restarted
  | espRestart => rfl
  | _ => exact restarted

/-- A call that stops no timer keeps what the timer service has been told. -/
theorem observe_commands (shared : OtaShared) {event : OtaEvent}
    (stop : ∀ timer, event.call ≠ timerStop timer) :
    (shared.observe event).confirmationArmed = shared.confirmationArmed ∧
      (∀ command ∈ shared.timerCommands, command ∈ (shared.observe event).timerCommands) ∧
      (.stop .confirmation ∉ shared.timerCommands →
        .stop .confirmation ∉ (shared.observe event).timerCommands) := by
  by_cases starts : ∃ timer, event.call = timerStart timer
  · obtain ⟨timer, starts⟩ := starts
    obtain ⟨c, reply⟩ := event
    obtain rfl : c = timerStart timer := starts
    cases reply with
    | false => exact ⟨rfl, fun command mem => mem, id⟩
    | true =>
        refine ⟨rfl, fun command mem => List.mem_append_left _ mem, fun unstopped => ?_⟩
        simpa [OtaShared.observe] using unstopped
  · obtain ⟨commands, armed⟩ := observe_timers shared (fun timer same => starts ⟨timer, same⟩) stop
    rw [commands]
    exact ⟨armed, fun command mem => mem, id⟩

/-- A call that stops no timer, by somebody else than the callback. -/
theorem TimedStack.Held.calls {s s' : TimedStack} (h : s.Held) (event : OtaEvent)
    (stop : ∀ timer, event.call ≠ timerStop timer) (shared : s'.stack.shared = s.stack.shared.observe event)
    (timer : s'.stack.timer = s.stack.timer) (expired : s'.expired = s.expired) : s'.Held := by
  obtain ⟨armed, commands, unstopped⟩ := observe_commands s.stack.shared stop
  refine ⟨shared ▸ unstopped h.unstopped, ?_⟩
  rw [shared, timer, expired, armed]
  rcases h.coming with restarted | armed | queued | callback
  · exact .inl (observe_restarted event restarted)
  · exact .inr (.inl armed)
  · exact .inr (.inr (.inl (commands _ queued)))
  · exact .inr (.inr (.inr callback))

theorem held_step {history : List OtaStep} {s s' : TimedStack} {known : Knowledge} {action events}
    (awaiting : Awaiting history s.stack known) (h : s.Held) (unconfirmed : ¬Validated history)
    (step : s.next action = some (s', events)) : s'.Held := by
  obtain ⟨step, expired⟩ := TimedStack.next_eq_some step
  obtain ⟨stack, last⟩ := s
  obtain ⟨stack', last'⟩ := s'
  obtain rfl : last' = _ := expired
  cases step with
  | request | handled | served => exact ⟨h.unstopped, h.coming⟩
  | @handles answer uri c later reply running =>
      obtain ⟨allowed, -⟩ := awaiting.handler _ running
      refine h.calls ⟨c, reply⟩ ?_ rfl rfl rfl
      rintro timer rfl
      exact unconfirmed (awaiting.marked allowed.1)
  | gives => exact h.calls ⟨workerReadyGive, ()⟩ (by simp) rfl rfl rfl
  | @receives _ asyncReq =>
      exact h.calls ⟨requestQueueReceive, some asyncReq⟩ (by simp) rfl rfl rfl
  | @serves answer c later reply running =>
      obtain ⟨-, aloof, -⟩ := awaiting.worker _ running
      refine h.calls ⟨c, reply⟩ ?_ rfl rfl rfl
      rintro timer rfl
      exact aloof trivial
  | @command command rest idle queued =>
      obtain ⟨unstopped, coming⟩ := h
      dsimp only at idle queued unstopped coming
      rw [queued, List.mem_cons, not_or] at unstopped
      rw [queued, idle, List.mem_cons] at coming
      have others : command ≠ .start .confirmation →
          stack.shared.restarted = true ∨ stack.shared.confirmationArmed = true ∨
            .start .confirmation ∈ rest ∨ False := by
        intro other
        rcases coming with restarted | armed | (same | later) | ⟨-, callback⟩
        · exact .inl restarted
        · exact .inr (.inl armed)
        · exact absurd same.symm other
        · exact .inr (.inr (.inl later))
        · simp at callback
      refine ⟨?_, ?_⟩
      · cases command with
        | start timer | stop timer => cases timer <;> exact unstopped.2
      · cases command with
        | start timer =>
            cases timer with
            | restart => exact (others (by simp)).imp_right (.imp_right (.imp_right False.elim))
            | confirmation => exact .inr (.inl rfl)
        | stop timer =>
            cases timer with
            | restart => exact (others (by simp)).imp_right (.imp_right (.imp_right False.elim))
            | confirmation => exact absurd rfl unstopped.1
  | @expires timer idle armed =>
      obtain ⟨unstopped, coming⟩ := h
      dsimp only at idle coming
      cases timer with
      | confirmation => exact ⟨unstopped, .inr (.inr (.inr ⟨rfl, .inl rfl⟩))⟩
      | restart =>
          refine ⟨unstopped, coming.imp_right (.imp_right (.imp_right ?_))⟩
          rintro ⟨-, callback⟩
          simp [idle] at callback
  | returned finished =>
      obtain ⟨unstopped, coming⟩ := h
      dsimp only at finished coming
      refine ⟨unstopped, coming.imp_right (.imp_right (.imp_right ?_))⟩
      rintro ⟨-, callback | ⟨later, restarts⟩⟩
      · cases finished.symm.trans callback
      · cases finished.symm.trans restarts
  | @calls answer c later reply running replied =>
      obtain ⟨unstopped, coming⟩ := h
      obtain ⟨inCallback, -⟩ := awaiting.timer _ running
      dsimp only at running coming
      cases c with
      | espRestart => exact ⟨unstopped, .inl rfl⟩
      | confirmationPendingGet =>
          refine ⟨unstopped, coming.imp_right (.imp_right (.imp_right ?_))⟩
          rintro ⟨confirmation, callback | ⟨restart, restarts⟩⟩
          · obtain rfl : stack.shared.confirmationPending = reply := Option.some.inj replied
            have set : stack.shared.confirmationPending = true := by
              apply Bool.eq_true_of_not_eq_false
              exact fun clear => unconfirmed (awaiting.cleared clear)
            cases running.symm.trans callback
            refine ⟨confirmation, .inr ⟨.done, ?_⟩⟩
            rw [set]
            rfl
          · cases running.symm.trans restarts
      | _ => exact absurd id inCallback

theorem held_of_exec {history : List OtaStep} {s : TimedStack} (run : timedSystem.Exec history s) :
    ¬Validated history → s.Held := by
  refine run.invariant (I := fun history s => ¬Validated history → s.Held) (fun s start => ?_)
    (fun history s action s' events earlier h step => ?_)
  · cases start
    exact fun _ => ⟨by simp [OtaStack.initial], .inr (.inr (.inl (by simp [OtaStack.initial])))⟩
  · intro unconfirmed
    have before : ¬Validated history := by
      rintro ⟨marking, member, marks⟩
      exact unconfirmed ⟨marking, List.mem_append_left events member, marks⟩
    obtain ⟨known, awaiting⟩ := awaiting_of_exec (exec_stack earlier)
    exact held_step awaiting (h before) before step

/-- A confirmation that fails is attempted before the validation only. -/
theorem unconfirmed_of_attempt {history : List OtaStep} {s : TimedStack} {action s' party err}
    (run : timedSystem.Exec history s)
    (step : s.next action = some (s', [⟨party, ⟨otaMarkAppValidCancelRollback, err⟩⟩])) :
    ¬Validated history := by
  obtain ⟨known, awaiting⟩ := awaiting_of_exec (exec_stack run)
  obtain ⟨stack, last⟩ := s
  obtain ⟨stack', last'⟩ := s'
  have taken := (TimedStack.next_eq_some step).1
  clear step
  dsimp only at taken awaiting
  cases taken with
  | handles running =>
      obtain ⟨⟨set, clean⟩, -⟩ := awaiting.handler _ running
      exact fun valid => clean (awaiting.owes valid (awaiting.flag true set))
  | serves running =>
      obtain ⟨-, aloof, -⟩ := awaiting.worker _ running
      exact absurd trivial aloof
  | calls running =>
      obtain ⟨inCallback, -⟩ := awaiting.timer _ running
      exact absurd id inCallback

/-- Unless the image is marked valid while the callback is about to restart, or the
    callback tests the flag between the validation and its clearing, the timeout
    restarts an unconfirmed image only. Until the validation, failed confirmations
    included, the flag is set and the timeout coming. -/
theorem timeout_spares_confirmed {history : List OtaStep} {s : TimedStack}
    (run : (timedSystem.guarded TimeoutInTime).Exec history s) :
    (s.Restarting → ¬Validated history) ∧
    (¬Validated history → s.stack.shared.confirmationPending = true ∧ s.Held) ∧
    ∀ action s' party err,
      s.next action = some (s', [⟨party, ⟨otaMarkAppValidCancelRollback, err⟩⟩]) → err ≠ espOk →
        s'.stack.shared = s.stack.shared ∧
          ¬Validated (history ++ [⟨party, ⟨otaMarkAppValidCancelRollback, err⟩⟩]) := by
  obtain ⟨known, awaiting⟩ := awaiting_of_exec (exec_stack run.of_guarded)
  refine ⟨restarting_of_exec run, fun unconfirmed => ⟨?_, held_of_exec run.of_guarded unconfirmed⟩, ?_⟩
  · apply Bool.eq_true_of_not_eq_false
    exact fun clear => unconfirmed (awaiting.cleared clear)
  · intro action s' party err step failed
    refine ⟨?_, ?_⟩
    · have taken := (TimedStack.next_eq_some step).1
      generalize s'.stack = after at taken
      cases taken <;> rfl
    · intro valid
      rcases validated_append.mp valid with old | marks
      · exact unconfirmed_of_attempt run.of_guarded step old
      · exact failed (of_decide_eq_true marks)

/-- `TimeoutInTime` as a test. -/
def timeoutInTime (s : TimedStack) (action : OtaAction) : Bool :=
  match action, s.stack.httpd, s.stack.timer with
  | .httpd _, some ⟨_, .call c _⟩, some (.call c' _) =>
      !(c = otaMarkAppValidCancelRollback) || !(c' = espRestart)
  | .timerCallback _, some ⟨_, .call c _⟩, some (.call c' _) =>
      !(c = confirmationPendingSet false) || !(c' = confirmationPendingGet)
  | _, _, _ => true

theorem timeoutInTime_sound (s : TimedStack) (action : OtaAction)
    (tested : timeoutInTime s action = true) : TimeoutInTime s action := by
  constructor
  · rintro answer uri later rfl running - ⟨-, restart, restarts⟩
    simp [timeoutInTime, running, restarts] at tested
  · rintro answer later rfl running uri clear clears
    simp [timeoutInTime, running, clears] at tested

/-! A confirmation fails, the timer expires, and the callback goes on to restart. -/

def confirmFails (c : OtaCall) : c.Reply :=
  match c with
  | otaMarkAppValidCancelRollback => espFail
  | c => sampleRequest.succeeds c

def failedConfirmSchedule : List OtaAction :=
  .timerCommand :: .request .confirm sampleRequest.req :: List.replicate 4 (.httpd confirmFails) ++
    [.timerExpire .confirmation, .timerCallback confirmFails]

def failedConfirmRun : Option (TimedStack × List OtaStep) :=
  System.replay (fun s a => if timeoutInTime s a = true then s.next a else none)
    ⟨.initial true, none⟩ failedConfirmSchedule

theorem failedConfirmRun_isSome : failedConfirmRun.isSome = true := by decide +kernel

theorem failedConfirmRun_restarting : (failedConfirmRun.get failedConfirmRun_isSome).1.Restarting :=
  ⟨by decide +kernel, _, rfl⟩

theorem failedConfirmRun_unconfirmed : ¬Validated (failedConfirmRun.get failedConfirmRun_isSome).2 :=
  (timeout_spares_confirmed (System.Exec.guarded_mono timeoutInTime_sound
    (System.Exec.guarded_of_replay_isSome failedConfirmRun_isSome))).1
    failedConfirmRun_restarting

/-! The timer expires, the callback finds the flag set, the image is confirmed, and the
callback goes on to restart. -/

def confirmedTooLateSchedule : List OtaAction :=
  [.timerCommand, .timerExpire .confirmation, .timerCallback sampleRequest.succeeds,
    .request .confirm sampleRequest.req] ++ List.replicate 5 (.httpd sampleRequest.succeeds)

def confirmedTooLateRun : Option (TimedStack × List OtaStep) :=
  System.replay TimedStack.next ⟨.initial true, none⟩ confirmedTooLateSchedule

theorem confirmedTooLateRun_isSome : confirmedTooLateRun.isSome = true := by decide +kernel

theorem confirmed_image_restarted : ¬∀ history s, timedSystem.Exec history s →
    s.Restarting → ¬Validated history := by
  intro claimed
  have run : timedSystem.Exec (confirmedTooLateRun.get confirmedTooLateRun_isSome).2
      (confirmedTooLateRun.get confirmedTooLateRun_isSome).1 :=
    System.Exec.of_replay_isSome confirmedTooLateRun_isSome
  have restarting : (confirmedTooLateRun.get confirmedTooLateRun_isSome).1.Restarting :=
    ⟨by decide +kernel, _, rfl⟩
  have valid : (confirmedTooLateRun.get confirmedTooLateRun_isSome).2.any
      (fun step => validates step.event) = true := by
    decide +kernel
  apply claimed _ _ run restarting
  simpa [Validated] using valid

end EspGnss.Ota
