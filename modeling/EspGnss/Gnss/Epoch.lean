import EspGnss.Gnss.Handshake

/-! # Input epochs

The program tells sources apart by a 32-bit counter that wraps. What makes the
comparison sound is that no candidate outlives its epoch by more than one step:
whatever the filter task may still use is of the current session, or of the
UART2 session just before the override that is under way.
-/

namespace EspGnss.Gnss

open Foundation Nmea

/-- How the origin of a candidate relates to the current input. -/
inductive Recent (e : Exchange) (c : Candidate) : Prop where
  | current : c.session = e.session → c.inputEpoch = e.inputEpoch →
      (c.source = .override ↔ e.active = true) → Recent e c
  | previous : e.active = true → c.session + 1 = e.session →
      gnssInputEpochAdvance c.inputEpoch = e.inputEpoch → c.source = .uart → Recent e c

/-- Equal epochs mean the same session. -/
theorem Recent.inputEpoch_eq_iff {e : Exchange} {c : Candidate} (h : Recent e c) :
    c.inputEpoch = e.inputEpoch ↔ c.session = e.session := by
  cases h with
  | current session epoch => exact ⟨fun _ => session, fun _ => epoch⟩
  | previous _ session epoch =>
      constructor
      · intro same
        rw [← same] at epoch
        exact absurd epoch (gnssInputEpochAdvance_ne_self _)
      · intro same
        omega

theorem Recent.session_of_override {e : Exchange} {c : Candidate} (h : Recent e c)
    (uploaded : c.source = .override) : c.session = e.session := by
  cases h with
  | current session => exact session
  | previous _ _ _ source =>
      rw [source] at uploaded
      cases uploaded

/-- The source that feeds the parser. -/
def GnssInput.owner (input : GnssInput) : Source := if input.overrideActive then .override else .uart

theorem GnssInput.eq_owner {input : GnssInput} {source : Source}
    (h : source = .override ↔ input.overrideActive = true) : source = input.owner := by
  unfold GnssInput.owner
  split
  · rename_i active
    exact h.mpr active
  · rename_i inactive
    cases source with
    | uart => rfl
    | override => exact absurd (h.mp rfl) inactive

theorem Recent.source_eq_owner {history : List GnssEvent} {s : GnssStack} {c : Candidate}
    (h : Recent (exchange history s) c) (session : c.session = s.session) :
    c.source = s.input.owner := by
  cases h with
  | current _ _ source => exact GnssInput.eq_owner source
  | previous _ before =>
      have before : c.session + 1 = s.session := before
      omega

namespace Exchange

/-- The candidates that the filter task may still use. -/
def live (e : Exchange) : List Candidate := e.window ++ candidatesOf e.flight ++ e.best.toList

theorem mem_live {e : Exchange} {c : Candidate} :
    c ∈ e.live ↔ c ∈ e.window ∨ c ∈ candidatesOf e.flight ∨ e.best = some c := by
  simp only [live, List.mem_append, Option.mem_toList, or_assoc]

/-- The epochs of all candidates in use are recent. -/
structure Epochs (e : Exchange) : Prop where
  positive : e.inputEpoch ≠ 0
  recent : ∀ c ∈ e.live, Recent e c

variable {e e' : Exchange}

/-- A step that leaves the input alone and brings no new candidate into use. -/
theorem Epochs.same (h : e.Epochs) (active : e'.active = e.active)
    (inputEpoch : e'.inputEpoch = e.inputEpoch) (session : e'.session = e.session)
    (fewer : ∀ c ∈ e'.live, c ∈ e.live) : e'.Epochs := by
  refine ⟨by rw [inputEpoch]; exact h.positive, fun c used => ?_⟩
  cases h.recent c (fewer c used) with
  | current same epoch source =>
      exact .current (same.trans session.symm) (epoch.trans inputEpoch.symm) (by rw [active]; exact source)
  | previous during before epoch source =>
      exact .previous (active.trans during) (before.trans session.symm) (epoch.trans inputEpoch.symm) source

theorem Epochs.step (h : e.Epochs) (handshake : Handshake e) (step : Step e e') : e'.Epochs := by
  cases step with
  | same | hold | feed | release | enter | discard | take | acknowledge =>
      exact h.same rfl rfl rfl fun _ used => used
  | @pair source _ _ candidate held sameSource session epoch =>
      obtain ⟨-, feeds, -⟩ := handshake.quiet_of_open (handshake.open_of_feeding held)
      refine ⟨h.positive, fun c used => ?_⟩
      have either : c ∈ e.live ∨ c = candidate := by
        simp only [mem_live, candidatesOf_append, List.mem_append, candidatesOf_candidate,
          candidatesOf_nil, List.mem_singleton] at used ⊢
        tauto
      cases either with
      | inl old =>
          cases h.recent c old with
          | current same epoch source => exact .current same epoch source
          | previous during before epoch source => exact .previous during before epoch source
      | inr new =>
          rw [new]
          exact .current session epoch (by rw [sameSource]; exact feeds _ held)
  | begin free inactive =>
      refine ⟨gnssInputEpochAdvance_ne_zero _, fun c used => ?_⟩
      cases h.recent c used with
      | current session epoch source =>
          refine .previous rfl (congrArg (· + 1) session) (congrArg gnssInputEpochAdvance epoch) ?_
          cases fed : c.source with
          | uart => rfl
          | override =>
              rw [source.mp fed] at inactive
              cases inactive
      | previous during =>
          rw [during] at inactive
          cases inactive
  | @send task control =>
      refine h.same rfl rfl rfl fun c used => ?_
      rw [mem_live, candidatesOf_snoc_marker e.flight (.flush control)] at used
      exact mem_live.mpr used
  | close free call =>
      obtain ⟨-, drained, -, best⟩ := handshake.of_done (.inr call)
      refine ⟨gnssInputEpochAdvance_ne_zero _, fun c used => ?_⟩
      rcases mem_live.mp used with window | flight | kept
      · have window : c ∈ e.window := window
        rw [drained.window] at window
        cases window
      · have flight : c ∈ candidatesOf e.flight := flight
        rw [drained.candidates] at flight
        cases flight
      · have kept : e.best = some c := kept
        rw [best] at kept
        cases kept
  | timer =>
      refine h.same rfl rfl rfl fun c used => ?_
      rw [mem_live, candidatesOf_snoc_marker e.flight .timer] at used
      exact mem_live.mpr used
  | @consider candidate rest best choosing flight kept =>
      refine h.same rfl rfl rfl fun c used => ?_
      rw [mem_live, flight, candidatesOf_candidate]
      rcases mem_live.mp used with window | flight | best
      · have window : c ∈ e.window ++ [candidate] := window
        rw [List.mem_append, List.mem_singleton] at window
        exact window.imp id fun same => .inl (by rw [same]; exact List.mem_cons_self)
      · exact .inr (.inl (List.mem_cons_of_mem _ flight))
      · rcases kept c best with same | before
        · exact .inr (.inl (by rw [same]; exact List.mem_cons_self))
        · exact .inr (.inr before)
  | @ignore control rest choosing flight other =>
      refine h.same rfl rfl rfl fun c used => ?_
      have split : candidatesOf e.flight = candidatesOf rest := by
        rw [flight]
        exact candidatesOf_marker (.flush control) rest
      rw [mem_live, split]
      exact .inr ((mem_live.mp used).resolve_left List.not_mem_nil)
  | @decideNone marker rest choosing flight =>
      refine h.same rfl rfl rfl fun c used => ?_
      rw [mem_live, flight, candidatesOf_marker]
      rcases (mem_live.mp used).resolve_left List.not_mem_nil with later | impossible
      · exact .inr (.inl later)
      · cases impossible
  | @decide marker rest best choosing flight =>
      refine h.same rfl rfl rfl fun c used => ?_
      rw [mem_live, flight, candidatesOf_marker]
      exact .inr ((mem_live.mp used).resolve_left List.not_mem_nil)
  | write =>
      refine h.same rfl rfl rfl fun c used => ?_
      rcases mem_live.mp used with window | flight | impossible
      · exact mem_live.mpr (.inl window)
      · exact mem_live.mpr (.inr (.inl flight))
      · cases impossible

end Exchange

theorem epochs_of_exec {history : List GnssEvent} {s : GnssStack} (run : gnssSystem.Exec history s) :
    (exchange history s).Epochs := by
  refine System.Exec.invariant (I := fun history s => (exchange history s).Epochs)
    (fun s start => ?_) (fun history s action s' events earlier h step => ?_) run
  · cases start
    exact ⟨by decide, nofun⟩
  · exact h.step (handshake_of_exec earlier)
      (exchange_step (ordered_of_exec earlier) (fits_of_exec earlier) (.of_next step))

/-- The candidates in `s_candidate_queue`, in the hands of the filter task and
    held as its best. -/
def GnssStack.candidates (s : GnssStack) : List Candidate :=
  (s.queueSet.member .candidate).items ++ candidatesOf s.filter.pc.hand ++ s.filter.bestCandidate.toList

theorem candidates_live {history : List GnssEvent} {s : GnssStack} (order : Ordered history s) {c : Candidate}
    (h : c ∈ s.candidates) : c ∈ (exchange history s).live := by
  obtain ⟨pending, flight, represents⟩ := order.inFlight
  have flying : candidatesOf (inFlight history) =
      candidatesOf s.filter.pc.hand ++ (s.queueSet.member .candidate).items := by
    rw [flight, candidatesOf_append, represents.members]
    rfl
  simp only [GnssStack.candidates, List.mem_append, Option.mem_toList] at h
  rw [Exchange.mem_live]
  rcases h with (queued | held) | best
  · refine .inr (.inl ?_)
    change c ∈ candidatesOf (inFlight history)
    rw [flying]
    exact List.mem_append_right _ queued
  · refine .inr (.inl ?_)
    change c ∈ candidatesOf (inFlight history)
    rw [flying]
    exact List.mem_append_left _ held
  · exact .inr (.inr best)

/-- Sessions that have been closed lie in the past. -/
theorem closed_session_lt {history : List GnssEvent} {s : GnssStack} (run : gnssSystem.Exec history s) :
    ∀ session, .closed session ∈ history → session < s.session := by
  refine System.Exec.invariant (I := fun history s => ∀ session, .closed session ∈ history → session < s.session)
    (fun s start => nofun) (fun history s action s' events _ h step session mem => ?_) run
  rw [List.mem_append] at mem
  cases Transition.of_next step with
  | overrideBegin =>
      exact Nat.lt_succ_of_lt (h session (mem.resolve_right (by simp)))
  | endClose =>
      rcases mem with old | new
      · exact Nat.lt_succ_of_lt (h session old)
      · cases List.mem_singleton.mp new
        exact Nat.lt_succ_self _
  | receive =>
      rw [GnssStack.receiveSelected_session]
      exact h session (mem.resolve_right (by simp))
  | _ => exact h session (mem.resolve_right (by simp))

/-- The best candidate that is about to be published is recent. -/
theorem recent_of_best {history : List GnssEvent} {s : GnssStack} (run : gnssSystem.Exec history s)
    {best : Candidate} (held : s.filter.bestCandidate = some best) : Recent (exchange history s) best :=
  (epochs_of_exec run).recent best (Exchange.mem_live.mpr (.inr (.inr held)))

/-- What is published after the end of an override was not uploaded in it. -/
theorem published_after_closed {history : List GnssEvent} {s : GnssStack}
    (run : gnssSystem.Exec history s) :
    history.Pairwise fun early late => ∀ session candidate publication, early = .closed session →
      late = .published candidate publication → candidate.source = .override →
      session < candidate.session := by
  refine System.Exec.pairwise (fun history s action s' events earlier step => ?_)
    (fun history s action s' events earlier step old mem new emitted => ?_) run
  · cases Transition.of_next step <;> simp
  · intro session candidate publication closed published uploaded
    subst closed published
    have past := closed_session_lt earlier session mem
    cases Transition.of_next step with
    | publish pc held =>
        cases List.mem_singleton.mp emitted
        have same : candidate.session = s.session :=
          (recent_of_best earlier held).session_of_override uploaded
        rw [same]
        exact past
    | _ => simp at emitted

theorem call_of_endClose {s s' : GnssStack} {task : Nat} {events : List GnssEvent}
    (h : s.next (.endClose task) = some (s', events)) : s.calls task = .closing := by
  simp only [GnssStack.next] at h
  split at h
  · cases h
  · split at h
    · assumption
    · cases h
    · cases h
    · cases h
    · cases h

/-- When an override hands the parser back to UART2, nothing of it is left in
    use, and none of it is published later. At any time the epoch of a candidate
    in use is the current one or, during an override, the one before; equal
    epochs mean the same session, however often the counter has wrapped. -/
theorem override_drained_when_closed {history : List GnssEvent} {s : GnssStack}
    (run : gnssSystem.Exec history s) :
    (∀ task s' events, s.next (.endClose task) = some (s', events) → s.candidates = []) ∧
      (history.Pairwise fun early late => ∀ session candidate publication, early = .closed session →
        late = .published candidate publication → candidate.source = .override →
        session < candidate.session) ∧
      s.input.inputEpoch ≠ 0 ∧
      ∀ c ∈ s.candidates,
        (c.inputEpoch = s.input.inputEpoch ∧ c.session = s.session ∨
          s.input.overrideActive = true ∧
            gnssInputEpochAdvance c.inputEpoch = s.input.inputEpoch ∧ c.session + 1 = s.session) ∧
        (c.inputEpoch = s.input.inputEpoch ↔ c.session = s.session) := by
  have epochs := epochs_of_exec run
  have order := ordered_of_exec run
  refine ⟨?_, published_after_closed run, epochs.positive, ?_⟩
  · intro task s' events h
    obtain ⟨-, drained, -, best⟩ := (handshake_of_exec run).of_done (.inr (call_of_endClose h))
    apply List.eq_nil_iff_forall_not_mem.mpr
    intro c used
    rcases Exchange.mem_live.mp (candidates_live order used) with window | flight | kept
    · rw [drained.window] at window
      cases window
    · rw [drained.candidates] at flight
      cases flight
    · rw [best] at kept
      cases kept
  · intro c used
    have recent := epochs.recent c (candidates_live order used)
    refine ⟨?_, recent.inputEpoch_eq_iff⟩
    cases recent with
    | current session epoch => exact .inl ⟨epoch, session⟩
    | previous active session epoch => exact .inr ⟨active, epoch, session⟩

/-! A run: one pair is uploaded and `gnss_input_override_end` is about to hand
the parser back. -/

/-- `$,,GGA,,,,,,1*70` -/
def sampleGga : List UInt8 := [36, 44, 44, 71, 71, 65, 44, 44, 44, 44, 44, 44, 49, 42, 55, 48, 10]

/-- `$xxRMCx*24` -/
def sampleRmc : List UInt8 := [36, 120, 120, 82, 77, 67, 120, 42, 50, 52, 10]

def uploadSchedule : List GnssAction := List.flatten
  [[.overrideBegin, .overrideFeed (sampleGga ++ sampleRmc)],
    List.replicate (sampleGga ++ sampleRmc).length .feedByte,
    [.feedReturn, .endEnter 0, .endDiscard 0, .endSend 0],
    List.replicate 9 .filterStep, [.endTake 0]]

def uploadRun : Option (GnssStack × List GnssEvent) := System.replay GnssStack.next .initial uploadSchedule

theorem uploadRun_isSome : uploadRun.isSome = true := by decide +kernel

theorem uploadRun_exec : gnssSystem.Exec (uploadRun.get uploadRun_isSome).2 (uploadRun.get uploadRun_isSome).1 :=
  System.Exec.of_replay_isSome uploadRun_isSome

theorem uploadRun_drained : (uploadRun.get uploadRun_isSome).1.candidates = [] := by
  have closes : ((uploadRun.get uploadRun_isSome).1.next (.endClose 0)).isSome = true := by
    decide +kernel
  obtain ⟨⟨s', events⟩, h⟩ := Option.isSome_iff_exists.mp closes
  exact (override_drained_when_closed uploadRun_exec).1 0 s' events h

end EspGnss.Gnss
