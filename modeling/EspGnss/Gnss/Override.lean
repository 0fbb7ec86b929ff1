import EspGnss.Gnss.Window

/-! # UART2 bytes during an override

`publish_best_candidate` reads the epoch in one step and overwrites the
publication queue in a later one. A publication written during an override can
be of UART2 exactly when the override begins in between.
-/

namespace EspGnss.Gnss

open Foundation Nmea

/-- Whether an override is under way after a history: one has begun and has not
    handed the parser back. -/
def overriding (history : List GnssEvent) : Bool :=
  history.foldl (fun active event =>
    match event with
    | .begun _ => true
    | .closed _ => false
    | _ => active) false

theorem overriding_append (history events : List GnssEvent) :
    overriding (history ++ events) =
      events.foldl (fun active event =>
        match event with
        | .begun _ => true
        | .closed _ => false
        | _ => active) (overriding history) := List.foldl_append

theorem overriding_of_exec {history : List GnssEvent} {s : GnssStack} (run : gnssSystem.Exec history s) :
    overriding history = s.input.overrideActive := by
  refine System.Exec.invariant (I := fun history s => overriding history = s.input.overrideActive)
    (fun s start => ?_) (fun history s action s' events earlier h step => ?_) run
  · cases start
    rfl
  · rw [overriding_append, h]
    cases Transition.of_next step with
    | receive => rw [GnssStack.receiveSelected_input]; rfl
    | _ => rfl

/-- No override begins between the epoch read of `publish_best_candidate` and
    the write of the candidate it has chosen. -/
def NoBeginWhileWriting (s : GnssStack) (action : GnssAction) : Prop :=
  action = .overrideBegin → s.input.overrideActive = false → s.filter.unwritten = none

instance (s : GnssStack) (action : GnssAction) : Decidable (NoBeginWhileWriting s action) :=
  inferInstanceAs (Decidable (_ → _ → _))

/-- What is about to be written is of the current session. -/
def FreshOutput (s : GnssStack) : Prop :=
  ∀ marker, s.filter.pc = .writing marker →
    ∀ best, s.filter.bestCandidate = some best → best.session = s.session

theorem FreshOutput.step {history events : List GnssEvent} {s s' : GnssStack} {action : GnssAction}
    (h : FreshOutput s) (run : gnssSystem.Exec history s) (ok : NoBeginWhileWriting s action)
    (step : Transition s action s' events) : FreshOutput s' := by
  cases step with
  | overrideBegin free inactive =>
      intro marker writing best held
      have unwritten := ok rfl inactive
      have writing : s.filter.pc = .writing marker := writing
      simp only [FilterTask.unwritten, writing, FilterPc.output] at unwritten
      cases unwritten.symm.trans held
  | endClose free call =>
      intro marker writing
      obtain ⟨-, -, output, -⟩ := (handshake_of_exec run).of_done (.inr call)
      have writing : s.filter.pc = .writing marker := writing
      simp only [exchange, writing, FilterPc.output] at output
      cases output
  | receive pc =>
      obtain ⟨pending, -, represents⟩ := ordered_of_exec run
      rw [pc] at represents
      obtain ⟨entry, rest, queueSet, -, received, -⟩ := receiveSelected_spec represents
      intro marker writing
      rw [received, GnssStack.goto_pc] at writing
      have choosing := entry.received_output
      rw [writing] at choosing
      cases choosing
  | @decide marker best pc free fresh =>
      intro _ _ best' held
      cases held
      obtain ⟨held, epoch⟩ := dropStale_eq_some fresh
      exact (recent_of_best run held).inputEpoch_eq_iff.mp epoch
  | select | consider | flush | ignore | acknowledge =>
      intro marker writing
      cases writing
  | @decideNone outcome | @publish outcome | @miscopied outcome =>
      intro marker writing
      cases outcome <;> cases writing
  | _ => exact h

theorem freshOutput_of_exec {history : List GnssEvent} {s : GnssStack}
    (run : (gnssSystem.guarded NoBeginWhileWriting).Exec history s) : FreshOutput s := by
  refine System.Exec.invariant (I := fun _ s => FreshOutput s) (fun s start => ?_)
    (fun history s action s' events earlier h step => ?_) run
  · cases start
    exact nofun
  · exact h.step earlier.of_guarded step.1 (.of_next step.2)

/-- Unless an override begins between the epoch read and the write of a
    publication, every publication written during an override consists of two
    lines that were uploaded in it. -/
theorem published_during_override {history : List GnssEvent} {s : GnssStack}
    (run : (gnssSystem.guarded NoBeginWhileWriting).Exec history s) :
    ∀ before c publication after, history = before ++ .published c publication :: after →
      overriding before = true →
      c.source = .override ∧ GenuinePublication history publication c := by
  intro before c publication after split active
  have sound : GenuinePublication history publication c :=
    genuinePublication_of_exec run.of_guarded c publication (by rw [split]; simp)
  refine ⟨?_, sound⟩
  refine System.Exec.placed
    (P := fun before e => ∀ c publication, e = .published c publication → overriding before = true →
      c.source = .override) (fun history s action s' events earlier step before e after split => ?_)
    run before _ after split c publication rfl active
  intro c publication same active
  subst same
  have mem : .published c publication ∈ events := by
    rw [split]
    exact List.mem_append_right _ List.mem_cons_self
  cases Transition.of_next step.2 with
  | @publish marker best _ pc held =>
      cases before with
      | cons first rest => simp at split
      | nil =>
          cases split
          rw [List.append_nil, overriding_of_exec earlier.of_guarded] at active
          have fresh := freshOutput_of_exec earlier marker pc c held
          cases recent_of_best earlier.of_guarded held with
          | current _ _ source => exact source.mpr active
          | previous _ session =>
              have session : c.session + 1 = s.session := session
              omega
  | _ => simp at mem

def guardedUploadRun : Option (GnssStack × List GnssEvent) :=
  System.replay (fun s a => if NoBeginWhileWriting s a then s.next a else none) .initial uploadSchedule

theorem guardedUploadRun_isSome : guardedUploadRun.isSome = true := by decide +kernel

def uploadedCandidate : Candidate := ⟨⟨sampleGga, sampleRmc, 1000, 2⟩, .override, 1⟩

theorem guardedUploadRun_published : uploadedCandidate.source = .override ∧
    GenuinePublication (guardedUploadRun.get guardedUploadRun_isSome).2 samplePublication
      uploadedCandidate := by
  have written : (guardedUploadRun.get guardedUploadRun_isSome).2 =
      (guardedUploadRun.get guardedUploadRun_isSome).2.dropLast ++
        [.published uploadedCandidate samplePublication] := by
    decide +kernel
  have during : overriding (guardedUploadRun.get guardedUploadRun_isSome).2.dropLast = true := by
    decide +kernel
  exact published_during_override
    (System.Exec.guarded_of_replay_isSome guardedUploadRun_isSome)
    _ uploadedCandidate samplePublication [] written during

/-! A run in which the filter task reads the epoch, an override begins, and then
the filter task writes the pair of UART2 it has chosen. -/

def lateWriteSchedule : List GnssAction := List.flatten
  [[.initReset, .uartFeed (sampleGga ++ sampleRmc)],
    List.replicate (sampleGga ++ sampleRmc).length .feedByte,
    [.feedReturn, .timerExpire], List.replicate 6 .filterStep, [.overrideBegin, .filterStep]]

def lateWriteRun : Option (GnssStack × List GnssEvent) :=
  System.replay GnssStack.next .initial lateWriteSchedule

theorem lateWriteRun_isSome : lateWriteRun.isSome = true := by decide +kernel

def uartCandidate : Candidate := ⟨⟨sampleGga, sampleRmc, 1000, 1⟩, .uart, 0⟩

theorem uart_published_during_override : ¬ ∀ history s, gnssSystem.Exec history s →
    ∀ before c publication after, history = before ++ .published c publication :: after →
      overriding before = true → c.source = .override := by
  intro claimed
  have run : gnssSystem.Exec (lateWriteRun.get lateWriteRun_isSome).2
      (lateWriteRun.get lateWriteRun_isSome).1 :=
    System.Exec.of_replay_isSome lateWriteRun_isSome
  have written : (lateWriteRun.get lateWriteRun_isSome).2 =
      (lateWriteRun.get lateWriteRun_isSome).2.dropLast ++
        [.published uartCandidate samplePublication] := by
    decide +kernel
  have during : overriding (lateWriteRun.get lateWriteRun_isSome).2.dropLast = true := by
    decide +kernel
  exact absurd (claimed _ _ run _ uartCandidate samplePublication [] written during) (by decide)

end EspGnss.Gnss
