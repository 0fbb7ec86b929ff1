import EspGnss.Gnss.Integrity

/-! # The flush of a closing override

While an override is being closed there is one flush, and it is in one place:
with the caller of `gnss_input_override_end`, in the control queue, with the
filter task, or acknowledged. The epoch stays what it was when it was issued.
-/

namespace EspGnss.Gnss

open Foundation Nmea

/-- The caller has not sent its flush yet. -/
def EndCall.unsent : EndCall → Bool
  | discarding _ | sending _ => true
  | idle | waiting | closing => false

/-- The caller has taken the acknowledgement of its flush. -/
def EndCall.taken : EndCall → Bool
  | closing => true
  | idle | discarding _ | sending _ | waiting => false

/-- The flush has been sent and the override is not handed back. -/
def EndCall.sent : EndCall → Bool
  | waiting | closing => true
  | idle | discarding _ | sending _ => false

/-- The filter task is busy with a flush. -/
def FilterPc.flushing : FilterPc → Bool
  | checkingFlush _ | publishing (.flush _) | writing (.flush _) | acknowledging => true
  | selecting | receiving _ | considering _ | publishing .timer | writing .timer => false

/-- The flush that the filter task is busy with, as long as it knows it. -/
def FilterPc.flush : FilterPc → Option GnssFilterControl
  | checkingFlush control | publishing (.flush control) | writing (.flush control) => some control
  | selecting | receiving _ | considering _ | publishing .timer | writing .timer | acknowledging => none

/-- The flushes sent and not acknowledged yet. -/
def GnssStack.unanswered (s : GnssStack) : Nat :=
  (s.queueSet.member .control).items.length + s.filter.pc.flushing.toNat

/-- The flush sent last. -/
def lastFlush (history : List GnssEvent) : Option GnssFilterControl :=
  (flushesOf (enqueued history)).getLast?

/-- The flush that a call of `gnss_input_override_end` has issued. -/
def issued (history : List GnssEvent) (s : GnssStack) (task : Nat) : Option GnssFilterControl :=
  match s.calls task with
  | .idle => none
  | .discarding control | .sending control => some control
  | .waiting | .closing => lastFlush history

theorem lastFlush_same {history events : List GnssEvent} (unsent : flushesOf (enqueued events) = []) :
    lastFlush (history ++ events) = lastFlush history := by
  rw [lastFlush, enqueued_append, flushesOf_append, unsent, List.append_nil]
  rfl

theorem lastFlush_sent (history : List GnssEvent) (control : GnssFilterControl) :
    lastFlush (history ++ [.enqueued (.control control)]) = some control := by
  rw [lastFlush, enqueued_append, flushesOf_append]
  exact List.getLast?_concat ..

def Output.flushing : Output → Bool
  | writing (.flush _) | acknowledging => true
  | choosing | writing .timer => false

theorem Unflushing.flushing {e : Exchange} (h : Unflushing e) : e.output.flushing = false := by
  rcases h with same | same <;> simp only [same, Output.flushing]

theorem FilterPc.flushing_toNat (pc : FilterPc) :
    pc.flushing.toNat = (flushesOf pc.hand).length + pc.output.flushing.toNat := by
  cases pc with
  | publishing marker | writing marker => cases marker <;> rfl
  | _ => rfl

theorem FilterPc.flush_mem {pc : FilterPc} {control : GnssFilterControl} (h : pc.flush = some control) :
    control ∈ flushesOf pc.hand ∨ pc.output = .writing (.flush control) := by
  cases pc with
  | publishing marker =>
      cases marker with
      | timer => cases h
      | flush other =>
          cases h
          exact .inl List.mem_cons_self
  | writing marker =>
      cases marker with
      | timer => cases h
      | flush other =>
          cases h
          exact .inr rfl
  | checkingFlush other =>
      cases h
      exact .inl List.mem_cons_self
  | _ => cases h

/-- The flushes in flight are in the hands of the filter task or queued. -/
theorem Ordered.flushes {history : List GnssEvent} {s : GnssStack} (h : Ordered history s) :
    flushesOf (Gnss.inFlight history) =
      flushesOf s.filter.pc.hand ++ (s.queueSet.member .control).items := by
  obtain ⟨pending, flight, represents⟩ := h.inFlight
  rw [flight, flushesOf_append, represents.members]
  rfl

theorem Ordered.unanswered_eq {history : List GnssEvent} {s : GnssStack} (h : Ordered history s) :
    s.unanswered = (flushesOf (Gnss.inFlight history)).length + s.filter.pc.output.flushing.toNat := by
  rw [GnssStack.unanswered, h.flushes, List.length_append, FilterPc.flushing_toNat]
  omega

/-- A flush that the filter task has decided is the one being waited for. -/
theorem Handshake.of_flushing {e : Exchange} (h : Handshake e) (flushing : e.output.flushing = true) :
    ∃ task, e.Closing task ∧ e.calls task = .waiting ∧ e.flushDone = false ∧ Drained e := by
  cases h with
  | quiet _ _ _ _ output | entered _ _ _ _ output | sent _ _ _ _ _ _ _ _ output =>
      rw [output.flushing] at flushing
      cases flushing
  | decided closing call done drained => exact ⟨_, closing, call, done, drained⟩
  | acknowledged _ _ _ output =>
      rw [output] at flushing
      cases flushing

/-- Somebody is closing the override whose input is shut. -/
theorem Handshake.of_closing {e : Exchange} (h : Handshake e) (shut : e.closing = true) :
    ∃ task, e.Closing task ∧ e.calls task ≠ .idle := by
  cases h with
  | quiet _ accepting => cases shut.symm.trans accepting
  | @entered task _ closing call =>
      refine ⟨task, closing, ?_⟩
      rcases call with call | ⟨call, -⟩ <;> simp [call]
  | @sent task _ _ _ closing call | @decided task closing call => exact ⟨task, closing, by simp [call]⟩
  | @acknowledged task closing call =>
      refine ⟨task, closing, ?_⟩
      rcases call with ⟨call, -⟩ | ⟨call, -⟩ <;> simp [call]

section Invariants

variable {history : List GnssEvent} {s : GnssStack}

/-- An acknowledgement lies only where a caller waits for it. -/
theorem waiting_of_flushDone (run : gnssSystem.Exec history s) (done : s.overrideFlushDone = true) :
    ∃ task, s.calls task = .waiting := by
  revert done
  refine run.invariant (I := fun _ s => s.overrideFlushDone = true → ∃ task, s.calls task = .waiting)
    (fun s start done => ?_) (fun history s action s' events earlier h step => ?_)
  · cases start
    cases done
  · have handshake := handshake_of_exec earlier
    cases Transition.of_next step with
    | endEnter _ _ _ accepting =>
        intro done
        obtain ⟨task, waiting⟩ := h done
        have others := (handshake.quiet_of_open accepting).1 task
        cases waiting.symm.trans others
    | endDiscard | endTake =>
        intro done
        cases done
    | endSend => exact fun _ => ⟨_, Function.update_self ..⟩
    | endClose _ call =>
        intro done
        obtain ⟨task, waiting⟩ := h done
        obtain ⟨closing, -⟩ := handshake.of_done (.inr call)
        have busy : (exchange history s).calls task ≠ .idle := by simp [exchange, waiting]
        obtain rfl := closing.eq_of_call busy
        cases waiting.symm.trans call
    | @receive member =>
        obtain ⟨queueSet, pc, same⟩ := s.receiveSelected_eq member
        rw [same]
        exact h
    | acknowledge pc =>
        obtain ⟨task, -, waiting, -⟩ := handshake.of_flushing (by simp only [exchange, pc]; rfl)
        exact fun _ => ⟨task, waiting⟩
    | _ => exact h

/-- The last flush sent is the one waited for, and the epoch has not moved
    since. -/
theorem lastFlush_of_exec (run : gnssSystem.Exec history s) : ∀ task, (s.calls task).sent = true →
    lastFlush history = some ⟨s.input.inputEpoch⟩ := by
  refine run.invariant (I := fun history s => ∀ task, (s.calls task).sent = true →
      lastFlush history = some ⟨s.input.inputEpoch⟩)
    (fun s start task call => ?_) (fun history s action s' events earlier h step => ?_)
  · cases start
    cases call
  · have handshake := handshake_of_exec earlier
    -- What the caller does before it sends makes nobody wait.
    have unsent : ∀ {changed : Nat} {call : EndCall}, call.sent = false → ∀ task,
        (Function.update s.calls changed call task).sent = true →
        lastFlush history = some ⟨s.input.inputEpoch⟩ := by
      intro changed call unsent task sent
      by_cases same : task = changed
      · rw [same, Function.update_self, unsent] at sent
        cases sent
      · rw [Function.update_of_ne same] at sent
        exact h task sent
    cases Transition.of_next step with
    | overrideBegin _ inactive =>
        intro task sent
        have idle := (handshake.quiet_of_open (handshake.open_of_inactive inactive)).1 task
        have sent : (s.calls task).sent = true := sent
        rw [show s.calls task = .idle from idle] at sent
        cases sent
    | endEnter | endDiscard =>
        rw [lastFlush_same rfl]
        exact unsent rfl
    | endSend call =>
        obtain ⟨-, -, epoch, -⟩ := handshake.of_sending call
        rw [lastFlush_sent]
        exact fun _ _ => congrArg some (congrArg GnssFilterControl.mk epoch)
    | endTake call =>
        rw [lastFlush_same rfl]
        exact fun _ _ => h _ (by rw [call]; rfl)
    | @endClose closer _ call =>
        obtain ⟨closing, -⟩ := handshake.of_done (.inr call)
        intro task sent
        have idle : Function.update s.calls closer .idle task = .idle := by
          by_cases same : task = closer
          · rw [same, Function.update_self]
          · rw [Function.update_of_ne same]
            exact closing.alone task same
        have sent : (Function.update s.calls closer .idle task).sent = true := sent
        rw [idle] at sent
        cases sent
    | @receive member =>
        obtain ⟨queueSet, pc, same⟩ := s.receiveSelected_eq member
        rw [same, lastFlush_same rfl]
        exact h
    | _ =>
        rw [lastFlush_same rfl]
        exact h

/-- The filter task finds every flush to be of the current epoch. -/
theorem ignored_not_mem (run : gnssSystem.Exec history s) (control : GnssFilterControl) :
    .ignored control ∉ history := by
  refine run.invariant (I := fun history _ => ∀ control, .ignored control ∉ history)
    (fun _ _ _ => List.not_mem_nil) (fun history s action s' events earlier h step => ?_) control
  intro control mem
  cases List.mem_append.mp mem with
  | inl old => exact h control old
  | inr new =>
      cases Transition.of_next step with
      | @ignore checked pc _ other =>
          have finishes : inFlight history = .control checked :: inFlight (history ++ [.ignored checked]) :=
            (ordered_of_exec earlier).inFlight_finishes rfl rfl (by rw [pc]; rfl)
          obtain ⟨_, _, _, _, same, _⟩ := (handshake_of_exec earlier).of_flush finishes
          exact other same
      | _ => simp at new

/-- When it comes to writing, `publish_best_candidate` has a candidate, and the
    flush that it serves, if any, is of the current epoch. -/
theorem writing_of_exec (run : gnssSystem.Exec history s) : ∀ marker, s.filter.pc = .writing marker →
    (∃ best, s.filter.bestCandidate = some best) ∧
      ∀ control, marker = .flush control → control.inputEpoch = s.input.inputEpoch := by
  refine run.invariant (I := fun _ s => ∀ marker, s.filter.pc = .writing marker →
      (∃ best, s.filter.bestCandidate = some best) ∧
        ∀ control, marker = .flush control → control.inputEpoch = s.input.inputEpoch)
    (fun s start marker writing => ?_) (fun history s action s' events earlier h step => ?_)
  · cases start
    cases writing
  · have handshake := handshake_of_exec earlier
    have order := ordered_of_exec earlier
    intro marker
    cases Transition.of_next step with
    | overrideBegin _ inactive =>
        intro writing
        obtain ⟨-, -, -, output⟩ := handshake.quiet_of_open (handshake.open_of_inactive inactive)
        have writing : s.filter.pc = .writing marker := writing
        refine ⟨(h marker writing).1, fun control flush => ?_⟩
        have unflushing := output.flushing
        rw [flush] at writing
        simp [exchange, writing, FilterPc.output, Output.flushing] at unflushing
    | endClose _ call =>
        intro writing
        obtain ⟨-, -, choosing, -⟩ := handshake.of_done (.inr call)
        have writing : s.filter.pc = .writing marker := writing
        simp [exchange, writing, FilterPc.output] at choosing
    | @receive member pc =>
        intro writing
        obtain ⟨pending, -, represents⟩ := order
        rw [pc] at represents
        obtain ⟨entry, rest, queueSet, -, received, -⟩ := receiveSelected_spec represents
        rw [received, GnssStack.goto_pc] at writing
        have choosing := entry.received_output
        rw [writing] at choosing
        cases choosing
    | @decide _ best pc =>
        intro writing
        cases writing
        refine ⟨⟨best, rfl⟩, ?_⟩
        intro control flush
        have finishes : inFlight history = marker.entry ::
            inFlight (history ++ [.decided marker s.input.inputEpoch (some best)]) :=
          order.inFlight_finishes rfl rfl (by rw [pc]; rfl)
        rw [flush] at finishes
        obtain ⟨_, _, _, _, epoch, _⟩ := handshake.of_flush finishes
        exact epoch
    | select | consider | flush | ignore | acknowledge =>
        intro writing
        cases writing
    | @decideNone outcome | @publish outcome | @miscopied outcome =>
        intro writing
        cases outcome <;> cases writing
    | _ => exact h marker

/-- Whatever flush the filter task still has to deal with is of the current
    epoch. -/
theorem epoch_of_flush (run : gnssSystem.Exec history s) {control : GnssFilterControl}
    (pending : control ∈ (s.queueSet.member .control).items ∨ s.filter.pc.flush = some control) :
    control.inputEpoch = s.input.inputEpoch := by
  have flights := (ordered_of_exec run).flushes
  have flying : control ∈ flushesOf (inFlight history) → control.inputEpoch = s.input.inputEpoch := by
    intro mem
    have mem : control ∈ flushesOf (exchange history s).flight := mem
    cases handshake_of_exec run with
    | quiet _ _ _ none | entered _ _ _ none =>
        rw [none] at mem
        cases mem
    | sent _ _ _ epoch queued early late =>
        rw [queued, flushesOf_append, flushesOf_control, early, late] at mem
        obtain rfl := List.mem_singleton.mp mem
        exact epoch
    | decided _ _ _ drained | acknowledged _ _ drained =>
        rw [drained.flushes] at mem
        cases mem
  rcases pending with queued | held
  · apply flying
    rw [flights]
    exact List.mem_append_right _ queued
  · rcases FilterPc.flush_mem held with hand | writing
    · apply flying
      rw [flights]
      exact List.mem_append_left _ hand
    · have pc : s.filter.pc = .writing (.flush control) := by
        cases pc : s.filter.pc <;> rw [pc] at writing <;> cases writing
        rfl
      exact (writing_of_exec run _ pc).2 control rfl

/-- A caller that waits has one flush unanswered or acknowledged. -/
theorem unanswered_of_waiting (run : gnssSystem.Exec history s) {task : Nat}
    (waiting : s.calls task = .waiting) : s.unanswered + s.overrideFlushDone.toNat = 1 := by
  have busy : (exchange history s).calls task ≠ .idle := by simp [exchange, waiting]
  rw [(ordered_of_exec run).unanswered_eq]
  change (flushesOf (exchange history s).flight).length + (exchange history s).output.flushing.toNat +
    (exchange history s).flushDone.toNat = 1
  cases handshake_of_exec run with
  | quiet idle => exact absurd (idle task) busy
  | entered closing call =>
      obtain rfl := closing.eq_of_call busy
      rcases call with wrong | ⟨wrong, -⟩
      · cases waiting.symm.trans wrong
      · cases waiting.symm.trans wrong
  | sent _ _ done _ queued early late _ output =>
      rw [queued, flushesOf_append, flushesOf_control, early, late, output.flushing, done]
      rfl
  | decided _ _ done drained output =>
      rw [drained.flushes, done]
      rcases output with ⟨control, writing⟩ | ⟨acknowledging, -⟩
      · rw [writing]
        rfl
      · rw [acknowledging]
        rfl
  | acknowledged closing call drained output =>
      obtain rfl := closing.eq_of_call busy
      rw [drained.flushes, output]
      rcases call with ⟨-, done⟩ | ⟨wrong, -⟩
      · rw [done]
        rfl
      · cases waiting.symm.trans wrong

/-- No flush is under way for nobody. -/
theorem unanswered_of_not_waiting (run : gnssSystem.Exec history s)
    (nobody : ∀ task, s.calls task ≠ .waiting) : s.unanswered + s.overrideFlushDone.toNat = 0 := by
  have done : s.overrideFlushDone = false := by
    apply Bool.eq_false_iff.mpr
    intro done
    obtain ⟨task, waiting⟩ := waiting_of_flushDone run done
    exact nobody task waiting
  rw [(ordered_of_exec run).unanswered_eq, done]
  change (flushesOf (exchange history s).flight).length + (exchange history s).output.flushing.toNat + 0 = 0
  cases handshake_of_exec run with
  | quiet _ _ _ flushes output | entered _ _ _ flushes output =>
      rw [flushes, output.flushing]
      rfl
  | sent _ waiting | decided _ waiting => exact absurd waiting (nobody _)
  | acknowledged _ _ drained output =>
      rw [drained.flushes, output]
      rfl

end Invariants

end EspGnss.Gnss
