import EspGnss.Ota.Decision

/-! # One boot decision

After a boot decision the code must not write to flash or decide again before it restarts.
The handlers test `s_restart_scheduled` some steps before they take the worker's token or
select the rollback, and the rollback handler does not ask whether an upload is underway.
Where the test still stands and no upload is overtaken, one decision is final.
-/

namespace EspGnss.Ota

open Foundation OtaCall

/-- The round of the worker goes on with its upload. -/
def OtaWorker.Uploads : OtaWorker → Prop
  | serving program => ∃ c, program.head? = some c ∧ uploads c = true
  | giving | waiting => False

/-- A handler acts on its test of `s_restart_scheduled` only while that still stands, and
    selects the rollback only while no upload can come or has come in between. -/
structure CommitsInTime (s : WatchedStack) (action : OtaAction) : Prop where
  /-- When it takes the token, the flag is as it has found it. -/
  take : ∀ answer uri later, action = .httpd answer → s.stack.httpd = some ⟨uri, .call workerReadyTake later⟩ →
    s.stack.shared.workerReady = true → ∀ tested, s.intent.tested = some tested →
    s.stack.shared.restartScheduled = tested
  /-- When it selects the rollback too, and the worker has not selected an image whose
      restart it has still to schedule. -/
  rollback : ∀ answer uri later, action = .httpd answer →
    s.stack.httpd = some ⟨uri, .call otaMarkAppInvalidRollback later⟩ →
    (∀ tested, s.intent.tested = some tested → s.stack.shared.restartScheduled = tested) ∧
      s.progress.selected = false
  /-- The rollback is selected only while no upload is queued or goes on. -/
  overtakes : ∀ answer uri later, action = .httpd answer →
    s.stack.httpd = some ⟨uri, .call otaMarkAppInvalidRollback later⟩ →
    answer otaMarkAppInvalidRollback = espOk → s.stack.shared.requestQueue = none ∧ ¬s.stack.worker.Uploads

/-- No upload is left: none has the token of a handler, none is queued, and the worker's
    round is done with its own. -/
structure WatchedStack.Spent (s : WatchedStack) : Prop where
  free : s.intent.holding = false
  empty : s.stack.shared.requestQueue = none
  ended : ∀ program, s.stack.worker = .serving program → Progresses { s.progress with ended := true } program

section Step

variable {history : List OtaStep} {s : WatchedStack}

/-- A handler that has not found the restart scheduled, and whose test still stands, finds no
    decision taken. -/
theorem Standing.undecided (standing : Standing history s) (unowed : s.intent.owing = false)
    (tested : s.intent.tested = some false)
    (stands : ∀ tested, s.intent.tested = some tested → s.stack.shared.restartScheduled = tested)
    (unselected : s.progress.selected = false) : ¬Decided history := by
  intro decided
  have flag := stands false tested
  rcases standing.decided decided with scheduled | owing | selected
  · cases flag.symm.trans scheduled
  · cases unowed.symm.trans owing
  · cases unselected.symm.trans selected

/-- The calls of a handler that commit it are made while nothing is decided. -/
theorem Standing.commits {answer uri c later} (standing : Standing history s)
    (inTime : CommitsInTime s (.httpd answer)) (running : s.stack.httpd = some ⟨uri, .call c later⟩) :
    (c = workerReadyTake → s.stack.shared.workerReady = true → ¬Decided history) ∧
      (c = otaMarkAppInvalidRollback → ¬Decided history) := by
  obtain ⟨allowed, -⟩ := standing.handler _ running
  constructor
  · rintro rfl ready
    obtain ⟨-, unowed, tested⟩ := allowed
    obtain ⟨-, -, waiting⟩ := standing.ready ready
    have unselected := standing.rests (by simp [waiting])
    exact standing.undecided unowed tested (inTime.take answer uri later rfl running ready) unselected
  · rintro rfl
    obtain ⟨-, unowed, tested⟩ := allowed
    obtain ⟨stands, unselected⟩ := inTime.rollback answer uri later rfl running
    exact standing.undecided unowed tested stands unselected

/-- A call of a handler after a decision leaves the uploads as they are. -/
theorem WatchedStack.Spent.handles {answer uri c later reply} (spent : s.Spent) (standing : Standing history s)
    (inTime : CommitsInTime s (.httpd answer)) (running : s.stack.httpd = some ⟨uri, .call c later⟩)
    (replied : s.stack.shared.reply answer c = some reply) (decided : Decided history) :
    (s.intent.after ⟨c, reply⟩).holding = false ∧
      (s.stack.shared.observe ⟨c, reply⟩).requestQueue = none := by
  obtain ⟨allowed, -⟩ := standing.handler _ running
  obtain ⟨takes, rolls⟩ := standing.commits inTime running
  by_cases moves : movesToken c
  · cases c with
    | workerReadyTake =>
        obtain rfl : s.stack.shared.workerReady = reply := Option.some.inj replied
        refine ⟨?_, spent.empty⟩
        by_contra taken
        exact takes rfl (Bool.eq_true_of_not_eq_false taken) decided
    | workerReadyGive | requestQueueSend => exact absurd (spent.free.symm.trans allowed) nofun
    | restartScheduledTestAndSet => exact ⟨spent.free, spent.empty⟩
    | requestQueueReceive => exact allowed.elim
    | _ => exact moves.elim
  · have unlike : c ≠ otaMarkAppInvalidRollback := fun same => rolls same decided
    obtain ⟨-, queue, -⟩ := @observe_same s.stack.shared ⟨c, reply⟩ moves
    obtain ⟨holding, -⟩ := @Intent.after_same s.intent ⟨c, reply⟩ moves unlike
    exact ⟨holding.trans spent.free, queue.trans spent.empty⟩

/-- The worker's calls after a decision are none of an upload. -/
theorem WatchedStack.Spent.serves {c later} (spent : s.Spent) (running : s.stack.worker = .serving (.call c later))
    (reply : c.Reply) :
    uploads c = false ∧ Progresses { s.progress.after ⟨c, reply⟩ with ended := true } (later reply) := by
  obtain ⟨allowed, onward⟩ := spent.ended _ running
  have done := onward reply
  constructor
  · cases c with
    | reqToSockfd | psaHashSetup | otaBegin | reqRecv | psaHashUpdate | otaWrite | psaHashFinish | otaEnd
    | otaSetBootPartition => cases allowed rfl
    | _ => rfl
  · cases c <;> simpa using done

/-- A handler decides only where no upload is left. -/
theorem Standing.decides_spent {answer uri c later reply} (standing : Standing history s)
    (inTime : CommitsInTime s (.httpd answer)) (running : s.stack.httpd = some ⟨uri, .call c later⟩)
    (replied : s.stack.shared.reply answer c = some reply) (decided : decides ⟨c, reply⟩ = true) :
    WatchedStack.Spent
      ⟨{ s.stack with shared := s.stack.shared.observe ⟨c, reply⟩, httpd := some ⟨uri, later reply⟩ },
        s.intent.after ⟨c, reply⟩, s.progress⟩ := by
  obtain ⟨allowed, -⟩ := standing.handler _ running
  cases c with
  | otaMarkAppInvalidRollback =>
      obtain rfl : answer otaMarkAppInvalidRollback = reply := Option.some.inj replied
      obtain ⟨empty, rests⟩ := inTime.overtakes answer uri later rfl running (of_decide_eq_true decided)
      obtain ⟨-, queue, -⟩ :=
        @observe_same s.stack.shared ⟨otaMarkAppInvalidRollback, answer otaMarkAppInvalidRollback⟩ id
      refine ⟨allowed.1, queue.trans empty, ?_⟩
      intro program serving
      have serving : s.stack.worker = .serving program := serving
      apply progresses_ended (standing.worker program serving)
      intro c next
      by_contra uploading
      apply rests
      rw [serving]
      exact ⟨c, next, Bool.eq_true_of_not_eq_false uploading⟩
  | otaSetBootPartition => exact allowed.elim
  | _ => cases decided

/-- A call of a handler keeps every decision final. -/
theorem Standing.final_handles {answer uri c later reply} (standing : Standing history s)
    (spent : Decided history → s.Spent) (inTime : CommitsInTime s (.httpd answer))
    (running : s.stack.httpd = some ⟨uri, .call c later⟩) (replied : s.stack.shared.reply answer c = some reply) :
    (Decided (history ++ [⟨.httpd uri, ⟨c, reply⟩⟩]) → WatchedStack.Spent
      ⟨{ s.stack with shared := s.stack.shared.observe ⟨c, reply⟩, httpd := some ⟨uri, later reply⟩ },
        s.intent.after ⟨c, reply⟩, s.progress⟩) ∧
      (Decided history → changesBoot c = false) := by
  constructor
  · intro decided
    rcases decided_snoc.mp decided with old | new
    · obtain ⟨free, empty⟩ := (spent old).handles standing inTime running replied old
      exact ⟨free, empty, (spent old).ended⟩
    · exact standing.decides_spent inTime running replied new
  · intro decided
    obtain ⟨allowed, -⟩ := standing.handler _ running
    cases c with
    | otaMarkAppInvalidRollback => exact absurd decided ((standing.commits inTime running).2 rfl)
    | otaBegin | otaWrite | otaSetBootPartition => exact allowed.elim
    | _ => rfl

/-- A call of the worker keeps every decision final. -/
theorem Standing.final_serves {answer c later reply} (standing : Standing history s)
    (spent : Decided history → s.Spent) (running : s.stack.worker = .serving (.call c later))
    (replied : s.stack.shared.reply answer c = some reply) :
    (Decided (history ++ [⟨.worker, ⟨c, reply⟩⟩]) → WatchedStack.Spent
      ⟨{ s.stack with shared := s.stack.shared.observe ⟨c, reply⟩, worker := .serving (later reply) },
        s.intent, s.progress.after ⟨c, reply⟩⟩) ∧
      (Decided history → changesBoot c = false) := by
  obtain ⟨-, kept⟩ := standing.serves running replied
  obtain ⟨allowed, -⟩ := standing.worker _ running
  constructor
  · intro decided
    obtain ⟨free, empty, -⟩ := kept.of_busy nofun
    refine ⟨free, empty, ?_⟩
    intro program same
    cases same
    rcases decided_snoc.mp decided with old | new
    · exact ((spent old).serves running reply).2
    · have onward := kept.worker _ rfl
      cases c with
      | otaSetBootPartition => exact onward
      | otaMarkAppInvalidRollback => exact allowed.elim
      | _ => cases new
  · intro decided
    have done := ((spent decided).serves running reply).1
    cases c with
    | otaMarkAppInvalidRollback => exact allowed.elim
    | otaBegin | otaWrite | otaSetBootPartition => cases done
    | _ => rfl

/-- The timer service leaves the uploads as they are. -/
theorem WatchedStack.Spent.ticks (spent : s.Spent) {shared} (same : SameToken s.stack.shared shared) (timer) :
    WatchedStack.Spent ⟨{ s.stack with shared := shared, timer := timer }, s.intent, s.progress⟩ :=
  { spent with empty := same.2.1.trans spent.empty }

/-- A call of a timer callback keeps every decision final. -/
theorem Standing.final_calls {c later} (standing : Standing history s) (spent : Decided history → s.Spent)
    (running : s.stack.timer = some (.call c later)) (reply : c.Reply) :
    (Decided (history ++ [⟨.timer, ⟨c, reply⟩⟩]) → WatchedStack.Spent
      ⟨{ s.stack with shared := s.stack.shared.observe ⟨c, reply⟩, timer := some (later reply) },
        s.intent, s.progress⟩) ∧ changesBoot c = false := by
  obtain ⟨inCallback, -⟩ := standing.timer _ running
  obtain ⟨unmoved, undecided, harmless⟩ :
      ¬movesToken c ∧ decides ⟨c, reply⟩ = false ∧ changesBoot c = false := by
    cases c with
    | confirmationPendingGet | espRestart => exact ⟨id, rfl, rfl⟩
    | _ => exact absurd id inCallback
  refine ⟨?_, harmless⟩
  intro decided
  exact (spent (decided_of_snoc undecided decided)).ticks (@observe_same s.stack.shared ⟨c, reply⟩ unmoved) _

/-- A step that commits in time keeps every decision final. -/
theorem Standing.final {s' : WatchedStack} {action events} (standing : Standing history s)
    (spent : Decided history → s.Spent) (inTime : CommitsInTime s action)
    (step : s.next action = some (s', events)) :
    (Decided (history ++ events) → s'.Spent) ∧
      (Decided history → ∀ step ∈ events, changesBoot step.event.call = false) := by
  obtain ⟨taken, intent, progress⟩ := WatchedStack.next_eq_some step
  clear step
  obtain ⟨stack', intent', progress'⟩ := s'
  obtain rfl : intent' = _ := intent
  obtain rfl : progress' = _ := progress
  dsimp only at taken
  cases taken with
  | request idle =>
      rw [List.append_nil]
      exact ⟨fun decided => { spent decided with free := rfl }, fun _ => List.forall_mem_nil _⟩
  | handled =>
      rw [List.append_nil]
      exact ⟨fun decided => { spent decided with }, fun _ => List.forall_mem_nil _⟩
  | handles running replied =>
      obtain ⟨kept, harmless⟩ := standing.final_handles spent inTime running replied
      exact ⟨kept, fun decided => List.forall_mem_singleton.mpr (harmless decided)⟩
  | gives =>
      constructor
      · intro decided
        obtain ⟨free, empty, -⟩ := spent (decided_of_snoc rfl decided)
        exact ⟨free, empty, nofun⟩
      · exact fun _ => List.forall_mem_singleton.mpr rfl
  | receives waiting queued =>
      have undecided : ¬Decided history := by
        intro decided
        cases queued.symm.trans (spent decided).empty
      exact ⟨fun decided => absurd (decided_of_snoc rfl decided) undecided, fun decided => absurd decided undecided⟩
  | served =>
      rw [List.append_nil]
      exact ⟨fun decided => { spent decided with ended := nofun }, fun _ => List.forall_mem_nil _⟩
  | @serves answer c later reply running replied =>
      obtain ⟨kept, harmless⟩ := standing.final_serves spent running replied
      have moved : s.progress.moved (.worker answer) [⟨.worker, ⟨c, reply⟩⟩] = s.progress.after ⟨c, reply⟩ :=
        if_neg (standing.serves running replied).1
      rw [moved]
      exact ⟨kept, fun decided => List.forall_mem_singleton.mpr (harmless decided)⟩
  | @command command rest idle queued =>
      have same : SameToken s.stack.shared ({ s.stack.shared with timerCommands := rest }.command command) := by
        cases command <;> exact arm_same _ _ _
      rw [List.append_nil]
      exact ⟨fun decided => (spent decided).ticks same _, fun _ => List.forall_mem_nil _⟩
  | @expires timer idle armed =>
      rw [List.append_nil]
      exact ⟨fun decided => (spent decided).ticks (arm_same s.stack.shared false timer) _, fun _ => List.forall_mem_nil _⟩
  | returned =>
      rw [List.append_nil]
      exact ⟨fun decided => { spent decided with }, fun _ => List.forall_mem_nil _⟩
  | calls running =>
      obtain ⟨kept, harmless⟩ := standing.final_calls spent running _
      exact ⟨kept, fun _ => List.forall_mem_singleton.mpr harmless⟩

theorem spent_of_exec {pendingVerify : Bool}
    (run : ((watchedSystem pendingVerify).guarded CommitsInTime).Exec history s) : Decided history → s.Spent := by
  refine run.invariant (I := fun history s => Decided history → s.Spent) (fun s first => ?_)
    (fun history s action s' events earlier spent step => ?_)
  · intro decided
    simp [Decided] at decided
  · exact ((standing_of_exec earlier.of_guarded).final spent step.1 step.2).1

/-- While the handlers commit in time, nothing changes what boots after a boot decision. -/
theorem decided_once {pendingVerify : Bool}
    (run : ((watchedSystem pendingVerify).guarded CommitsInTime).Exec history s) :
    history.Pairwise fun earlier later =>
      decides earlier.event = true → changesBoot later.event.call = false := by
  refine run.pairwise ?_ ?_
  · intro history s action s' events _ step
    exact (WatchedStack.next_eq_some step.2).1.pairwise _
  · intro history s action s' events earlier step old oldMember new newMember decided
    have final := (standing_of_exec earlier.of_guarded).final (spent_of_exec earlier) step.1 step.2
    exact final.2 ⟨old, oldMember, decided⟩ new newMember

end Step

/-- `CommitsInTime` as a test. -/
def commitsInTime (s : WatchedStack) (action : OtaAction) : Bool :=
  let stands := s.intent.tested.all fun tested => s.stack.shared.restartScheduled == tested
  let uploading := match s.stack.worker with
    | .serving program => program.head?.any uploads
    | .giving | .waiting => false
  match action, s.stack.httpd with
  | .httpd answer, some ⟨_, .call c _⟩ =>
      if c = workerReadyTake then !s.stack.shared.workerReady || stands
      else if c = otaMarkAppInvalidRollback then
        stands && !s.progress.selected && (!decide (answer otaMarkAppInvalidRollback = espOk) ||
          s.stack.shared.requestQueue.isNone && !uploading)
      else true
  | _, _ => true

theorem commitsInTime_sound (s : WatchedStack) (action : OtaAction) (tested : commitsInTime s action = true) :
    CommitsInTime s action := by
  constructor
  · rintro answer uri later rfl running ready found same
    simpa [commitsInTime, running, ready, same] using tested
  · rintro answer uri later rfl running
    simp [commitsInTime, running] at tested
    obtain ⟨⟨stands, unselected⟩, -⟩ := tested
    refine ⟨?_, unselected⟩
    intro found same
    simpa [same] using stands
  · rintro answer uri later rfl running ok
    simp [commitsInTime, running, ok] at tested
    obtain ⟨-, empty, resting⟩ := tested
    refine ⟨empty, ?_⟩
    intro uploading
    cases worker : s.stack.worker with
    | giving | waiting => rwa [worker] at uploading
    | serving program =>
        rw [worker] at uploading resting
        obtain ⟨c, next, goesOn⟩ := uploading
        simp [next] at resting
        cases resting.symm.trans goesOn

/-! A rollback while the worker is idle, then an upload that is refused. -/

def quietSchedule : List OtaAction :=
  .worker sampleRequest.succeeds :: .request .rollback sampleRequest.req ::
    List.replicate 7 (.httpd sampleRequest.succeeds) ++
    .request .flash sampleRequest.req :: List.replicate 3 (.httpd sampleRequest.succeeds)

def quietRun : Option (WatchedStack × List OtaStep) :=
  System.replay (fun s a => if commitsInTime s a = true then s.next a else none)
    ⟨.initial false, .none, .none⟩ quietSchedule

theorem quietRun_isSome : quietRun.isSome = true := by decide +kernel

theorem quietRun_decided : (quietRun.get quietRun_isSome).2.Pairwise fun earlier later =>
    decides earlier.event = true → changesBoot later.event.call = false :=
  decided_once (System.Exec.guarded_mono commitsInTime_sound
    (System.Exec.guarded_of_replay_isSome quietRun_isSome))

/-! A rollback is accepted while an upload is queued; the worker then erases and writes
the slot that the rollback has selected against. -/

def overtakenSchedule : List OtaAction :=
  .worker sampleRequest.succeeds :: .request .flash sampleRequest.req ::
    List.replicate 9 (.httpd sampleRequest.succeeds) ++
    .worker sampleRequest.succeeds :: .request .rollback sampleRequest.req ::
    List.replicate 3 (.httpd sampleRequest.succeeds) ++
    List.replicate 3 (.worker sampleRequest.succeeds)

def overtakenRun : Option (OtaStack × List OtaStep) :=
  System.replay OtaStack.next (.initial false) overtakenSchedule

theorem overtakenRun_isSome : overtakenRun.isSome = true := by decide +kernel

theorem upload_begun_after_rollback : ¬∀ pendingVerify history s,
    (otaSystem pendingVerify).Exec history s → history.Pairwise fun earlier later =>
      decides earlier.event = true → changesBoot later.event.call = false := by
  intro claimed
  have run : (otaSystem false).Exec (overtakenRun.get overtakenRun_isSome).2
      (overtakenRun.get overtakenRun_isSome).1 :=
    System.Exec.of_replay_isSome overtakenRun_isSome
  exact absurd (claimed false _ _ run) (by decide +kernel)

end EspGnss.Ota
