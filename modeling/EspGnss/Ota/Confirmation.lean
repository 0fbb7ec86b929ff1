import EspGnss.Ota.Stack

/-! # An accepted rollback is final

`/flash/rollback` schedules the restart before another handler runs, but
`/flash/confirm` tests only `s_confirmation_pending`. A rollback stays final in the runs
where no confirmation is attempted while the image is pending and the restart scheduled.
-/

namespace EspGnss.Ota

open Foundation OtaCall

/-- The running image is confirmed, or the client is told so. -/
def confirms : OtaCall → Bool
  | otaMarkAppValidCancelRollback => true
  | respSendstr status text => status = none ∧ text = confirmedText
  | _ => false

/-- `/flash/rollback` has selected the older image. -/
def rollsBack : OtaStep → Bool
  | ⟨.httpd .rollback, ⟨otaMarkAppInvalidRollback, err⟩⟩ => err = espOk
  | _ => false

def RolledBack (history : List OtaStep) : Prop := ∃ step ∈ history, rollsBack step = true

/-- Watches whether an accepted rollback still has to schedule the restart. -/
def owingMonitor : Monitor OtaCall.Reply Bool where
  allows _ _ := True
  observe owing
    | ⟨otaMarkAppInvalidRollback, err⟩ => owing || err = espOk
    | ⟨restartScheduledTestAndSet, _⟩ => false
    | _ => owing

theorem otaRollbackPostHandler_owing :
    otaRollbackPostHandler.Meets owingMonitor (fun owing _ => owing = false) false := by
  simp +contextual [otaRollbackPostHandler, otaRestartSchedule, owingMonitor]

/-- A handler that finds nothing pending confirms nothing. -/
theorem otaConfirmPostHandler_eq : ∃ later,
    otaConfirmPostHandler = .call confirmationPendingGet later ∧
      (later false).Avoids (confirms · = true) :=
  ⟨_, rfl, by decide, fun _ => trivial⟩

/-- `/flash/confirm` does not test `s_confirmation_pending` while it is set and the
    restart is scheduled. -/
def ConfirmsInTime (s : OtaStack) (action : OtaAction) : Prop :=
  ∀ answer later, action = .httpd answer →
    s.httpd = some ⟨.confirm, .call confirmationPendingGet later⟩ →
    s.shared.restartScheduled = true → s.shared.confirmationPending = false

structure Final (history : List OtaStep) (s : OtaStack) : Prop where
  rollback : ∀ program, s.httpd = some ⟨.rollback, program⟩ →
    ∃ owing, program.Meets owingMonitor (fun owing _ => owing = false) owing ∧
      (RolledBack history → s.shared.restartScheduled = true ∨ owing = true)
  scheduled : RolledBack history → (∀ program, s.httpd ≠ some ⟨.rollback, program⟩) →
    s.shared.restartScheduled = true
  confirm : RolledBack history → ∀ program, s.httpd = some ⟨.confirm, program⟩ →
    program = otaConfirmPostHandler ∨ program.Avoids (confirms · = true)

theorem observe_scheduled {shared : OtaShared} (event : OtaEvent)
    (scheduled : shared.restartScheduled = true) :
    (shared.observe event).restartScheduled = true := by
  obtain ⟨c, reply⟩ := event
  cases c with
  | timerStart | timerStop | requestQueueSend => cases reply <;> exact scheduled
  | otaSetBootPartition | otaMarkAppInvalidRollback =>
      unfold OtaShared.observe
      dsimp only
      split <;> exact scheduled
  | restartScheduledTestAndSet => rfl
  | _ => exact scheduled

theorem party_of_rollsBack {step : OtaStep} (accepted : rollsBack step = true) :
    step.party = .httpd .rollback := by
  obtain ⟨party, event⟩ := step
  cases party with
  | httpd uri =>
      cases uri with
      | rollback => rfl
      | _ => cases accepted
  | _ => cases accepted

theorem not_rolledBack_nil : ¬RolledBack [] := by
  rintro ⟨step, member, -⟩
  exact List.not_mem_nil member

theorem RolledBack.of_append {history events : List OtaStep}
    (rolledBack : RolledBack (history ++ events))
    (other : ∀ step ∈ events, step.party ≠ .httpd .rollback) : RolledBack history := by
  obtain ⟨step, member, accepted⟩ := rolledBack
  rcases List.mem_append.mp member with old | new
  · exact ⟨step, old, accepted⟩
  · exact absurd (party_of_rollsBack accepted) (other step new)

/-- Steps of the worker and the timers. -/
theorem Final.elsewhere {history events : List OtaStep} {s s' : OtaStack} (final : Final history s)
    (same : s'.httpd = s.httpd)
    (lasting : s.shared.restartScheduled = true → s'.shared.restartScheduled = true)
    (other : ∀ step ∈ events, ∀ uri, step.party ≠ .httpd uri) :
    Final (history ++ events) s' ∧ (RolledBack history → ∀ step ∈ events,
      step.party = .httpd .confirm → confirms step.event.call = false) := by
  have earlier (rolledBack : RolledBack (history ++ events)) : RolledBack history :=
    rolledBack.of_append fun step member => other step member .rollback
  refine ⟨⟨?_, ?_, ?_⟩, fun _ step member party => absurd party (other step member .confirm)⟩
  · intro program running
    obtain ⟨owing, meets, owed⟩ := final.rollback program (same ▸ running)
    exact ⟨owing, meets, fun rolledBack => (owed (earlier rolledBack)).imp_left lasting⟩
  · intro rolledBack idle
    exact lasting (final.scheduled (earlier rolledBack) (same ▸ idle))
  · intro rolledBack program running
    exact final.confirm (earlier rolledBack) program (same ▸ running)

/-- A call of the rollback handler. -/
theorem Final.rollbackCalls {history : List OtaStep} {s : OtaStack} {c later} {reply : c.Reply}
    (final : Final history s) (running : s.httpd = some ⟨.rollback, .call c later⟩) :
    Final (history ++ [⟨.httpd .rollback, ⟨c, reply⟩⟩])
      { s with shared := s.shared.observe ⟨c, reply⟩, httpd := some ⟨.rollback, later reply⟩ } := by
  obtain ⟨owing, ⟨-, onward⟩, owed⟩ := final.rollback _ running
  refine ⟨?_, fun _ idle => absurd rfl (idle _), fun _ => nofun⟩
  intro program same
  cases same
  refine ⟨_, onward reply, ?_⟩
  rintro ⟨step, member, accepted⟩
  rcases List.mem_append.mp member with old | new
  · rcases owed ⟨step, old, accepted⟩ with scheduled | rfl
    · exact .inl (observe_scheduled _ scheduled)
    · cases c with
      | restartScheduledTestAndSet => exact .inl rfl
      | _ => exact .inr rfl
  · cases List.mem_singleton.mp new
    cases c with
    | otaMarkAppInvalidRollback =>
        refine .inr ?_
        change (owing || rollsBack ⟨.httpd .rollback, ⟨otaMarkAppInvalidRollback, reply⟩⟩) = true
        rw [accepted, Bool.or_true]
    | _ => cases accepted

/-- A call of another handler. -/
theorem Final.handlerCalls {history : List OtaStep} {s : OtaStack} {answer uri c later reply}
    (final : Final history s) (inTime : ConfirmsInTime s (.httpd answer))
    (other : uri ≠ .rollback) (running : s.httpd = some ⟨uri, .call c later⟩)
    (replied : s.shared.reply answer c = some reply) :
    Final (history ++ [⟨.httpd uri, ⟨c, reply⟩⟩])
        { s with shared := s.shared.observe ⟨c, reply⟩, httpd := some ⟨uri, later reply⟩ } ∧
      (RolledBack history → uri = .confirm → confirms c = false) := by
  have earlier (rolledBack : RolledBack (history ++ [⟨.httpd uri, ⟨c, reply⟩⟩])) :
      RolledBack history := rolledBack.of_append (by simpa using other)
  have scheduled (rolledBack : RolledBack history) : s.shared.restartScheduled = true := by
    apply final.scheduled rolledBack
    intro program rolling
    cases running.symm.trans rolling
    exact other rfl
  have confirm (rolledBack : RolledBack history) (uriIs : uri = .confirm) :
      (later reply).Avoids (confirms · = true) ∧ confirms c = false := by
    subst uriIs
    rcases final.confirm rolledBack _ running with start | avoids
    · obtain ⟨rest, starts, silent⟩ := otaConfirmPostHandler_eq
      cases start.trans starts
      have none : s.shared.confirmationPending = false :=
        inTime answer _ rfl running (scheduled rolledBack)
      obtain rfl : s.shared.confirmationPending = reply := Option.some.inj replied
      rw [none]
      exact ⟨silent, rfl⟩
    · exact ⟨avoids.2 reply, Bool.eq_false_of_not_eq_true avoids.1⟩
  refine ⟨⟨?_, ?_, ?_⟩, fun rolledBack uriIs => (confirm rolledBack uriIs).2⟩
  · intro program same
    cases same
    exact absurd rfl other
  · intro rolledBack _
    exact observe_scheduled _ (scheduled (earlier rolledBack))
  · rintro rolledBack program ⟨⟩
    exact .inr (confirm (earlier rolledBack) rfl).1

theorem Final.step {history : List OtaStep} {s action s' events} (final : Final history s)
    (inTime : ConfirmsInTime s action) (step : OtaTransition s action s' events) :
    Final (history ++ events) s' ∧ (RolledBack history → ∀ step ∈ events,
      step.party = .httpd .confirm → confirms step.event.call = false) := by
  cases step with
  | @request uri req idle =>
      rw [List.append_nil]
      have scheduled (rolledBack : RolledBack history) : s.shared.restartScheduled = true :=
        final.scheduled rolledBack fun program rolling => nomatch idle.symm.trans rolling
      refine ⟨⟨?_, fun rolledBack _ => scheduled rolledBack, ?_⟩, fun _ => List.forall_mem_nil _⟩
      · intro program same
        cases same
        exact ⟨false, otaRollbackPostHandler_owing, fun rolledBack => .inl (scheduled rolledBack)⟩
      · rintro rolledBack program ⟨⟩
        exact .inl rfl
  | @handled answer uri err finished =>
      rw [List.append_nil]
      refine ⟨⟨nofun, ?_, fun _ => nofun⟩, fun _ => List.forall_mem_nil _⟩
      intro rolledBack _
      by_cases rolling : uri = .rollback
      · subst rolling
        obtain ⟨owing, rfl, owed⟩ := final.rollback _ finished
        exact (owed rolledBack).resolve_right nofun
      · apply final.scheduled rolledBack
        intro program running
        cases finished.symm.trans running
        exact rolling rfl
  | @handles answer uri c later reply running replied =>
      by_cases rolling : uri = .rollback
      · subst rolling
        exact ⟨final.rollbackCalls running, fun _ step member party => by
          cases List.mem_singleton.mp member; cases party⟩
      · obtain ⟨kept, silent⟩ := final.handlerCalls inTime rolling running replied
        refine ⟨kept, ?_⟩
        intro rolledBack step member party
        cases List.mem_singleton.mp member
        cases party
        exact silent rolledBack rfl
  | gives | receives | serves | calls =>
      exact final.elsewhere rfl (observe_scheduled _) (by simp)
  | served | returned => exact final.elsewhere rfl id (List.forall_mem_nil _)
  | @command command rest =>
      refine final.elsewhere rfl ?_ (List.forall_mem_nil _)
      intro scheduled
      cases command <;> exact (OtaShared.arm_restartScheduled _ _ _).trans scheduled
  | expires =>
      exact final.elsewhere rfl (OtaShared.arm_restartScheduled _ _ _).trans (List.forall_mem_nil _)

theorem final_of_exec {pendingVerify : Bool} {history : List OtaStep} {s : OtaStack}
    (run : ((otaSystem pendingVerify).guarded ConfirmsInTime).Exec history s) :
    Final history s := by
  refine run.invariant ?_ ?_
  · rintro s rfl
    exact ⟨nofun, fun rolledBack => absurd rolledBack not_rolledBack_nil, fun _ => nofun⟩
  · intro history s action s' events _ final step
    exact (final.step step.1 (OtaTransition.of_next step.2).2).1

/-- While no confirmation is attempted between an accepted rollback and the restart it
    schedules, no confirmation succeeds after the rollback. -/
theorem rollback_final {pendingVerify : Bool} {history : List OtaStep} {s : OtaStack}
    (run : ((otaSystem pendingVerify).guarded ConfirmsInTime).Exec history s) :
    history.Pairwise fun earlier later => rollsBack earlier = true →
      later.party = .httpd .confirm → confirms later.event.call = false := by
  refine run.pairwise ?_ ?_
  · intro history s action s' events _ step
    exact (OtaTransition.of_next step.2).2.pairwise _
  · intro history s action s' events earlier step old oldMember new newMember accepted
    have silent := ((final_of_exec earlier).step step.1 (OtaTransition.of_next step.2).2).2
    exact silent ⟨old, oldMember, accepted⟩ new newMember

/-- `ConfirmsInTime` as a test. -/
def confirmsInTime (s : OtaStack) (action : OtaAction) : Bool :=
  match action, s.httpd with
  | .httpd _, some ⟨.confirm, .call c _⟩ =>
      !(c = confirmationPendingGet) || !s.shared.restartScheduled || !s.shared.confirmationPending
  | _, _ => true

theorem confirmsInTime_sound (s : OtaStack) (action : OtaAction)
    (tested : confirmsInTime s action = true) : ConfirmsInTime s action := by
  rintro answer later rfl running scheduled
  simpa [confirmsInTime, running, scheduled] using tested

/-! The image is confirmed, then rolled back, and a second confirmation is refused. -/

def confirmedSchedule : List OtaAction :=
  .request .confirm sampleRequest.req :: List.replicate 6 (.httpd sampleRequest.succeeds) ++
    .request .rollback sampleRequest.req :: List.replicate 7 (.httpd sampleRequest.succeeds) ++
    .request .confirm sampleRequest.req :: List.replicate 3 (.httpd sampleRequest.succeeds)

def confirmedRun : Option (OtaStack × List OtaStep) :=
  System.replay (fun s a => if confirmsInTime s a = true then s.next a else none) (.initial true)
    confirmedSchedule

theorem confirmedRun_isSome : confirmedRun.isSome = true := by decide +kernel

theorem confirmedRun_final : (confirmedRun.get confirmedRun_isSome).2.Pairwise fun earlier later =>
    rollsBack earlier = true → later.party = .httpd .confirm → confirms later.event.call = false :=
  rollback_final (System.Exec.guarded_mono confirmsInTime_sound
    (System.Exec.guarded_of_replay_isSome confirmedRun_isSome))

/-! A pending image is rolled back, and confirmed before the restart. -/

def revokedSchedule : List OtaAction :=
  .request .rollback sampleRequest.req :: List.replicate 7 (.httpd sampleRequest.succeeds) ++
    .request .confirm sampleRequest.req :: List.replicate 2 (.httpd sampleRequest.succeeds)

def revokedRun : Option (OtaStack × List OtaStep) :=
  System.replay OtaStack.next (.initial true) revokedSchedule

theorem revokedRun_isSome : revokedRun.isSome = true := by decide +kernel

theorem confirmed_after_rollback : ¬∀ history s, (otaSystem true).Exec history s →
    history.Pairwise fun earlier later => rollsBack earlier = true →
      later.party = .httpd .confirm → confirms later.event.call = false := by
  intro claimed
  have run : (otaSystem true).Exec (revokedRun.get revokedRun_isSome).2
      (revokedRun.get revokedRun_isSome).1 :=
    System.Exec.of_replay_isSome revokedRun_isSome
  exact absurd (claimed _ _ run) (by decide +kernel)

end EspGnss.Ota
