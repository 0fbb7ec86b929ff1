import EspGnss.Gnss.Flush

/-! # Taking the acknowledgement

Each acknowledgement is taken by the caller whose flush it answers, and a caller
that waits is never left waiting: operations of the filter task alone bring the
acknowledgement. The end of the module puts the whole exchange together.
-/

namespace EspGnss.Gnss

open Foundation Nmea

/-- The tasks that have sent a flush, in order. -/
def senders (trace : List (GnssAction × List GnssEvent)) : List Nat :=
  trace.filterMap fun
    | (.endSend task, _) => some task
    | _ => none

/-- The tasks that have taken an acknowledgement, in order. -/
def takers (trace : List (GnssAction × List GnssEvent)) : List Nat :=
  trace.filterMap fun
    | (.endTake task, _) => some task
    | _ => none

/-- Every acknowledgement has been taken by the sender of its flush: the takers
    are the senders but for those who still wait. -/
def Matched (trace : List (GnssAction × List GnssEvent)) (s : GnssStack) : Prop :=
  ∃ waiting, senders trace = takers trace ++ waiting ∧
    (∀ task, s.calls task = .waiting ↔ task ∈ waiting) ∧
    waiting.length = s.unanswered + s.overrideFlushDone.toNat

theorem senders_append (trace steps : List (GnssAction × List GnssEvent)) :
    senders (trace ++ steps) = senders trace ++ senders steps := List.filterMap_append

theorem takers_append (trace steps : List (GnssAction × List GnssEvent)) :
    takers (trace ++ steps) = takers trace ++ takers steps := List.filterMap_append

section Callers

variable {s : GnssStack}

theorem call_of_endSend {s' : GnssStack} {task : Nat} {events : List GnssEvent}
    (h : s.next (.endSend task) = some (s', events)) :
    (∃ control, s.calls task = .sending control) ∧
      s'.calls = Function.update s.calls task .waiting := by
  cases call : s.calls task with
  | sending control =>
      simp only [GnssStack.next, call] at h
      split at h
      · cases h
        exact ⟨⟨control, rfl⟩, rfl⟩
      · cases h
  | idle | discarding | waiting | closing => simp [GnssStack.next, call] at h

theorem call_of_endTake {s' : GnssStack} {task : Nat} {events : List GnssEvent}
    (h : s.next (.endTake task) = some (s', events)) :
    s.calls task = .waiting ∧ s'.calls = Function.update s.calls task .closing := by
  cases call : s.calls task with
  | waiting =>
      simp only [GnssStack.next, call] at h
      split at h
      · cases h
        exact ⟨rfl, rfl⟩
      · cases h
  | idle | discarding | sending | closing => simp [GnssStack.next, call] at h

theorem update_waiting_iff {calls : Nat → EndCall} {changed : Nat} {call : EndCall}
    (before : calls changed ≠ .waiting) (after : call ≠ .waiting) (task : Nat) :
    Function.update calls changed call task = .waiting ↔ calls task = .waiting := by
  by_cases same : task = changed
  · rw [same, Function.update_self]
    exact iff_of_false after before
  · rw [Function.update_of_ne same]

/-- A caller begins to wait with its send and stops with its take. -/
theorem waiting_kept {s' : GnssStack} {action : GnssAction} {events : List GnssEvent}
    (step : Transition s action s' events) (send : ∀ task, action ≠ .endSend task)
    (take : ∀ task, action ≠ .endTake task) (task : Nat) :
    s'.calls task = .waiting ↔ s.calls task = .waiting := by
  cases step with
  | endEnter _ idle => exact update_waiting_iff (by simp [idle]) (by simp) task
  | endDiscard call => exact update_waiting_iff (by simp [call]) (by simp) task
  | endClose _ call => exact update_waiting_iff (by simp [call]) (by simp) task
  | @endSend sender => exact absurd rfl (send sender)
  | @endTake taker => exact absurd rfl (take taker)
  | @receive member =>
      obtain ⟨queueSet, pc, same⟩ := s.receiveSelected_eq member
      rw [same]
      rfl
  | _ => rfl

end Callers

theorem matched_of_exec {trace : List (GnssAction × List GnssEvent)} {s : GnssStack}
    (run : gnssSystem.traced.Exec trace s) :
    ∃ waiting, senders trace = takers trace ++ waiting ∧
      (∀ task, s.calls task = .waiting ↔ task ∈ waiting) ∧ waiting.length ≤ 1 := by
  refine run.invariant (I := fun trace s => ∃ waiting, senders trace = takers trace ++ waiting ∧
      (∀ task, s.calls task = .waiting ↔ task ∈ waiting) ∧ waiting.length ≤ 1)
    (fun s start => ?_) (fun trace s action s' steps earlier h step => ?_)
  · cases start
    exact ⟨[], rfl, fun task => by simp [GnssStack.initial], Nat.zero_le 1⟩
  · obtain ⟨events, taken, rfl⟩ := step
    obtain ⟨waiting, matched, who, one⟩ := h
    have handshake := handshake_of_exec earlier.of_traced
    by_cases send : ∃ task, action = .endSend task
    · obtain ⟨task, rfl⟩ := send
      obtain ⟨⟨control, call⟩, calls⟩ := call_of_endSend taken
      obtain ⟨closing, -⟩ := handshake.of_sending call
      have nobody : waiting = [] := by
        apply List.eq_nil_iff_forall_not_mem.mpr
        intro other mem
        have waits := (who other).mpr mem
        have busy : (exchange (trace.flatMap Prod.snd) s).calls other ≠ .idle := by
          simp [exchange, waits]
        obtain rfl := closing.eq_of_call busy
        cases call.symm.trans waits
      refine ⟨[task], ?_, fun other => ?_, Nat.le_refl 1⟩
      · rw [senders_append, takers_append, matched, nobody]
        simp [senders, takers]
      · rw [calls, List.mem_singleton]
        by_cases same : other = task
        · rw [same, Function.update_self]
          exact iff_of_true rfl rfl
        · rw [Function.update_of_ne same, who, nobody]
          exact iff_of_false List.not_mem_nil same
    by_cases take : ∃ task, action = .endTake task
    · obtain ⟨task, rfl⟩ := take
      obtain ⟨call, calls⟩ := call_of_endTake taken
      obtain ⟨only, rfl⟩ : ∃ only, waiting = [only] := by
        apply List.length_eq_one_iff.mp
        have := List.length_pos_of_mem ((who task).mp call)
        omega
      obtain rfl := List.mem_singleton.mp ((who task).mp call)
      refine ⟨[], ?_, fun other => ?_, Nat.zero_le 1⟩
      · rw [senders_append, takers_append, matched]
        simp [senders, takers]
      · rw [calls]
        by_cases same : other = task
        · rw [same, Function.update_self]
          exact iff_of_false (by simp) List.not_mem_nil
        · rw [Function.update_of_ne same, who, List.mem_singleton]
          exact iff_of_false same List.not_mem_nil
    · have send : ∀ task, action ≠ .endSend task := fun task same => send ⟨task, same⟩
      have take : ∀ task, action ≠ .endTake task := fun task same => take ⟨task, same⟩
      have silent : senders [(action, events)] = [] ∧ takers [(action, events)] = [] := by
        cases action with
        | endSend task => exact absurd rfl (send task)
        | endTake task => exact absurd rfl (take task)
        | _ => exact ⟨rfl, rfl⟩
      refine ⟨waiting, ?_, fun task => ?_, one⟩
      · rw [senders_append, takers_append, silent.1, silent.2, List.append_nil, List.append_nil, matched]
      · rw [waiting_kept (.of_next taken) send take]
        exact who task

/-- The entries up to the last flush among some entries. -/
def toFlush : List Entry → Nat
  | [] => 0
  | entry :: rest => if flushesOf (entry :: rest) = [] then 0 else toFlush rest + 1

/-- The operations left with an entry, give or take. -/
def FilterPc.weight : FilterPc → Nat
  | writing _ => 5
  | selecting => 4
  | receiving _ => 3
  | considering _ | checkingFlush _ => 2
  | publishing _ => 1
  | acknowledging => 0

/-- Every operation of the filter task brings it nearer to the acknowledgement
    of the flush in flight. -/
def answerDistance (history : List GnssEvent) (s : GnssStack) : Nat :=
  8 * toFlush (inFlight history) + s.filter.pc.weight

theorem toFlush_cons {entry : Entry} {rest : List Entry} (flush : flushesOf (entry :: rest) ≠ []) :
    toFlush (entry :: rest) = toFlush rest + 1 := by
  rw [toFlush, if_neg flush]

theorem Marker.resume_weight (marker : Marker) : marker.resume.weight ≤ 4 := by
  cases marker with
  | timer => exact Nat.le_refl 4
  | flush => exact Nat.zero_le 4

theorem Entry.received_weight (entry : Entry) : entry.received.weight ≤ 2 := by
  obtain ⟨member, item⟩ := entry
  cases member with
  | candidate | control => exact Nat.le_refl 2
  | timer => exact Nat.le_succ 1

section Progress

variable {history : List GnssEvent} {s : GnssStack} {task : Nat}

/-- Where a flush is waited for and not acknowledged, it is in flight or with
    the filter task, and the mutex is free. -/
theorem awaited_flush (run : gnssSystem.Exec history s) (waiting : s.calls task = .waiting)
    (undone : s.overrideFlushDone = false) :
    s.mutex = none ∧ (flushesOf (inFlight history) ≠ [] ∨ s.filter.pc.output.flushing = true) := by
  have busy : (exchange history s).calls task ≠ .idle := by simp [exchange, waiting]
  have one := unanswered_of_waiting run waiting
  rw [(ordered_of_exec run).unanswered_eq, undone] at one
  refine ⟨?_, ?_⟩
  · cases handshake_of_exec run with
    | quiet idle => exact absurd (idle task) busy
    | entered closing | sent closing | decided closing | acknowledged closing => exact closing.free
  · by_cases flying : flushesOf (inFlight history) = []
    · rw [flying] at one
      cases flushing : s.filter.pc.output.flushing with
      | true => exact .inr rfl
      | false =>
          rw [flushing] at one
          cases one
    · exact .inl flying

theorem answerDistance_lt {s' : GnssStack} {events : List GnssEvent} (sent : enqueued events = [])
    (done : processed events = []) (nearer : s'.filter.pc.weight < s.filter.pc.weight) :
    answerDistance (history ++ events) s' < answerDistance history s := by
  rw [answerDistance, answerDistance, Ordered.inFlight_same sent done]
  omega

/-- Finishing an entry ahead of the flush, or the flush itself. -/
theorem answerDistance_finishes {s' : GnssStack} {events : List GnssEvent} (order : Ordered history s)
    (flying : flushesOf (inFlight history) ≠ []) {entry : Entry} (sent : enqueued events = [])
    (done : processed events = [entry]) (held : s.filter.pc.hand = [entry])
    (nearer : s'.filter.pc.weight < 8 + s.filter.pc.weight) :
    answerDistance (history ++ events) s' < answerDistance history s := by
  have flight := order.inFlight_finishes sent done held
  rw [flight] at flying
  rw [answerDistance, answerDistance, flight, toFlush_cons flying]
  omega

/-- The filter task is never blocked while a flush is waited for. -/
theorem filterStep_answers (run : gnssSystem.Exec history s) (waiting : s.calls task = .waiting)
    (undone : s.overrideFlushDone = false) :
    ∃ s' events, s.next .filterStep = some (s', events) ∧ s'.calls = s.calls ∧
      (s'.overrideFlushDone = true ∨ answerDistance (history ++ events) s' < answerDistance history s) := by
  obtain ⟨free, flush⟩ := awaited_flush run waiting undone
  have order := ordered_of_exec run
  have flying : s.filter.pc.output = .choosing → flushesOf (inFlight history) ≠ [] := by
    intro choosing
    rw [choosing] at flush
    exact flush.resolve_right (by simp [Output.flushing])
  simp only [GnssStack.next, GnssStack.filterStep, free]
  cases pc : s.filter.pc with
  | selecting =>
      obtain ⟨pending, flight, represents⟩ := order.inFlight
      have flying := flying (by rw [pc]; rfl)
      rw [pc] at flight represents
      cases pending with
      | nil =>
          rw [flight] at flying
          exact absurd rfl flying
      | cons entry rest =>
          obtain ⟨ready, taken, -⟩ := BoundedQueue.receive_of_items represents.entries.symm
          refine ⟨{ s with queueSet := ⟨s.queueSet.member, ready⟩ }.goto (.receiving entry.1), [],
            by simp only [QueueSet.select, taken, Option.map_some, free], rfl, .inr ?_⟩
          apply answerDistance_lt rfl rfl
          simp [pc, FilterPc.weight]
  | receiving member =>
      obtain ⟨pending, -, represents⟩ := order
      rw [pc] at represents
      obtain ⟨entry, rest, queueSet, -, received, -⟩ := receiveSelected_spec represents
      refine ⟨_, _, rfl, by rw [received]; rfl, .inr ?_⟩
      apply answerDistance_lt rfl rfl
      rw [pc, received, GnssStack.goto_pc]
      exact Nat.lt_succ_of_le entry.received_weight
  | considering candidate =>
      refine ⟨_, _, rfl, rfl, .inr ?_⟩
      apply answerDistance_finishes order (flying (by rw [pc]; rfl)) rfl rfl (by rw [pc]; rfl)
      simp [pc, GnssStack.keep, FilterPc.weight]
  | checkingFlush control =>
      have flying := flying (by rw [pc]; rfl)
      by_cases same : control.inputEpoch = s.input.inputEpoch
      · refine ⟨_, _, if_pos same, rfl, .inr ?_⟩
        apply answerDistance_lt rfl rfl
        simp [pc, FilterPc.weight]
      · refine ⟨_, _, if_neg same, rfl, .inr ?_⟩
        apply answerDistance_finishes order flying rfl rfl (by rw [pc]; rfl)
        simp [pc, FilterPc.weight]
  | publishing marker =>
      refine ⟨(s.publishBest marker).1, (s.publishBest marker).2, rfl, rfl, .inr ?_⟩
      apply answerDistance_finishes order (flying (by rw [pc]; rfl)) rfl rfl (by rw [pc]; rfl)
      have resumes := marker.resume_weight
      simp only [GnssStack.publishBest, GnssStack.keep, pc]
      split
      · simp [FilterPc.weight]
      · omega
  | writing marker =>
      obtain ⟨⟨best, held⟩, -⟩ := writing_of_exec run marker pc
      have resumes := marker.resume_weight
      have copied := (integrity_of_exec run).publicationOf_best held
      simp only [held, GnssStack.writePublication, copied]
      refine ⟨_, _, rfl, rfl, .inr ?_⟩
      apply answerDistance_lt rfl rfl
      rw [pc]
      exact Nat.lt_succ_of_le resumes
  | acknowledging => exact ⟨_, _, rfl, rfl, .inl rfl⟩

/-- Operations of the filter task alone acknowledge the flush waited for. -/
theorem filterSteps_answer (run : gnssSystem.Exec history s) (waiting : s.calls task = .waiting) :
    ∃ n s' events, System.replay GnssStack.next s (List.replicate n .filterStep) = some (s', events) ∧
      s'.calls task = .waiting ∧ s'.overrideFlushDone = true := by
  induction distance : answerDistance history s using Nat.strongRecOn generalizing history s with
  | _ distance ih =>
      cases done : s.overrideFlushDone with
      | true => exact ⟨0, s, [], rfl, waiting, done⟩
      | false =>
          obtain ⟨s', first, stepped, calls, nearer⟩ := filterStep_answers run waiting done
          have still : s'.calls task = .waiting := by rw [calls, waiting]
          rcases nearer with given | nearer
          · exact ⟨1, s', first ++ [], by simp [System.replay, stepped], still, given⟩
          · obtain ⟨n, last, later, played, waits, given⟩ :=
              ih _ (distance ▸ nearer) (run.next stepped) still rfl
            refine ⟨n + 1, last, first ++ later, ?_, waits, given⟩
            simp [List.replicate_succ, System.replay, stepped, played]

/-- The control queue has room for the flush of a caller. -/
theorem endSend_enabled (run : gnssSystem.Exec history s) {control : GnssFilterControl}
    (sending : s.calls task = .sending control) : ∃ s' events, s.next (.endSend task) = some (s', events) := by
  obtain ⟨-, -, -, none, -⟩ := (handshake_of_exec run).of_sending sending
  have flights := (ordered_of_exec run).flushes
  rw [show flushesOf (inFlight history) = [] from none] at flights
  have vacant := (List.append_eq_nil_iff.mp flights.symm).2
  have sent : ∃ queueSet, s.queueSet.send .control control = some queueSet := by
    have room : (s.queueSet.member .control).items.length < FilterMember.queueLength .control := by
      rw [vacant]
      exact Nat.one_pos
    rw [QueueSet.send, BoundedQueue.send, dif_pos room]
    exact ⟨_, rfl⟩
  obtain ⟨queueSet, sent⟩ := sent
  refine ⟨{ s with queueSet }.setCall task .waiting, [.enqueued (.control control)], ?_⟩
  simp only [GnssStack.next, sending, sent]

end Progress

/-- How often an override has begun. -/
def begins (history : List GnssEvent) : Nat :=
  history.countP fun
    | .begun _ => true
    | _ => false

/-- How often an override has handed the parser back. -/
def closes (history : List GnssEvent) : Nat :=
  history.countP fun
    | .closed _ => true
    | _ => false

/-- A call that is refused, or finds no override to end, changes nothing. -/
structure Refuses (s : GnssStack) : Prop where
  begin : s.mutex = none → (gnssInputOverrideBegin s.input).1 = espErrInvalidState →
    s.next .overrideBegin = some (s, [])
  feed : ∀ data len input candidates,
    gnssInputOverrideFeed s.input data len = some (espErrInvalidState, input, candidates) →
      input = s.input ∧ candidates = [] ∧
        ∀ bytes, s.mutex = none → s.next (.overrideFeed bytes) = some (s, [])
  finish : ∀ task, s.mutex = none → s.calls task = .idle →
    (gnssInputOverrideEndEnter s.input).1 = none → s.next (.endEnter task) = some (s, [])

/-- The one flush of the override that `task` is closing. -/
structure OneFlush (history : List GnssEvent) (s : GnssStack) (task : Nat) : Prop where
  alone : ∀ other, other ≠ task → s.calls other = .idle
  place : (s.calls task).unsent.toNat + (s.queueSet.member .control).items.length +
    s.filter.pc.flushing.toNat + s.overrideFlushDone.toNat + (s.calls task).taken.toNat = 1
  current : issued history s task = some ⟨s.input.inputEpoch⟩
  queued : ∀ control ∈ (s.queueSet.member .control).items, issued history s task = some control
  held : ∀ control, s.filter.pc.flush = some control → issued history s task = some control

theorem refuses (s : GnssStack) : Refuses s where
  begin free refused := by
    rw [GnssStack.next, if_neg (by simp [free]), GnssStack.overrideBegin]
    unfold gnssInputOverrideBegin at refused ⊢
    split at refused
    · rename_i active
      simp only [active, if_true]
      rfl
    · cases refused
  feed data len input candidates refused := by
    unfold gnssInputOverrideFeed at refused
    split at refused
    · cases refused
    · dsimp only [Option.bind_eq_bind, Option.bind_some] at refused
      split at refused
      · rename_i shut
        cases refused
        refine ⟨rfl, rfl, fun bytes free => ?_⟩
        rw [GnssStack.next, if_neg (by simp [free]), if_pos shut]
      · simp only [Option.bind_eq_some_iff] at refused
        obtain ⟨bytes, -, fed, -, returned⟩ := refused
        cases returned
  finish task free idle none := by
    rw [GnssStack.next, if_neg (by simp [free]), idle]
    unfold gnssInputOverrideEndEnter at none
    split at none
    · cases none
    · rename_i shut
      simp only [GnssStack.endEnter, gnssInputOverrideEndEnter, if_neg shut]

section Override

variable {history : List GnssEvent} {s : GnssStack}

theorem begins_append (history events : List GnssEvent) :
    begins (history ++ events) = begins history + begins events := List.countP_append

theorem closes_append (history events : List GnssEvent) :
    closes (history ++ events) = closes history + closes events := List.countP_append

/-- Overrides begin and end in turn. -/
theorem begins_eq (run : gnssSystem.Exec history s) :
    begins history = closes history + s.input.overrideActive.toNat := by
  refine run.invariant (I := fun history s => begins history = closes history + s.input.overrideActive.toNat)
    (fun s start => ?_) (fun history s action s' events earlier h step => ?_)
  · cases start
    rfl
  · rw [begins_append, closes_append, h]
    cases Transition.of_next step with
    | overrideBegin _ inactive =>
        rw [inactive]
        rfl
    | endClose _ call =>
        obtain ⟨closing, -⟩ := (handshake_of_exec earlier).of_done (.inr call)
        rw [show s.input.overrideActive = true from closing.active]
        rfl
    | receive =>
        rw [GnssStack.receiveSelected_input]
        exact Nat.add_right_comm ..
    | _ => exact Nat.add_right_comm ..

theorem oneFlush_of_exec (run : gnssSystem.Exec history s) (shut : s.input.overrideClosing = true) :
    ∃ task, OneFlush history s task := by
  have handshake := handshake_of_exec run
  obtain ⟨task, closing, busy⟩ := handshake.of_closing shut
  have unanswered : s.calls task ≠ .waiting → s.unanswered + s.overrideFlushDone.toNat = 0 := by
    intro call
    apply unanswered_of_not_waiting run
    intro other waiting
    have awake : (exchange history s).calls other ≠ .idle := by simp [exchange, waiting]
    obtain rfl := closing.eq_of_call awake
    exact call waiting
  have place : (s.calls task).unsent.toNat + (s.queueSet.member .control).items.length +
      s.filter.pc.flushing.toNat + s.overrideFlushDone.toNat + (s.calls task).taken.toNat = 1 ∧
      issued history s task = some ⟨s.input.inputEpoch⟩ := by
    cases call : s.calls task with
    | idle => exact absurd call busy
    | discarding control =>
        have none := unanswered (by simp [call])
        obtain ⟨-, epoch, -⟩ := handshake.of_discarding call
        have current : issued history s task = some control := by rw [issued, call]
        simp only [GnssStack.unanswered] at none
        refine ⟨?_, current.trans (congrArg some (congrArg GnssFilterControl.mk epoch))⟩
        simp only [EndCall.unsent, EndCall.taken, Bool.toNat_true, Bool.toNat_false]
        omega
    | sending control =>
        have none := unanswered (by simp [call])
        obtain ⟨-, -, epoch, -⟩ := handshake.of_sending call
        have current : issued history s task = some control := by rw [issued, call]
        simp only [GnssStack.unanswered] at none
        refine ⟨?_, current.trans (congrArg some (congrArg GnssFilterControl.mk epoch))⟩
        simp only [EndCall.unsent, EndCall.taken, Bool.toNat_true, Bool.toNat_false]
        omega
    | waiting =>
        have one := unanswered_of_waiting run call
        have current : issued history s task = lastFlush history := by rw [issued, call]
        simp only [GnssStack.unanswered] at one
        refine ⟨?_, current.trans (lastFlush_of_exec run task (by rw [call]; rfl))⟩
        simp only [EndCall.unsent, EndCall.taken, Bool.toNat_false]
        omega
    | closing =>
        have none := unanswered (by simp [call])
        have current : issued history s task = lastFlush history := by rw [issued, call]
        simp only [GnssStack.unanswered] at none
        refine ⟨?_, current.trans (lastFlush_of_exec run task (by rw [call]; rfl))⟩
        simp only [EndCall.unsent, EndCall.taken, Bool.toNat_true, Bool.toNat_false]
        omega
  obtain ⟨place, current⟩ := place
  refine ⟨task, closing.alone, place, current, fun control queued => ?_, fun control held => ?_⟩
  · rw [current, ← epoch_of_flush run (.inl queued)]
  · rw [current, ← epoch_of_flush run (.inr held)]

/-- A caller that has yet to discard stale acknowledgements finds none. -/
theorem discards_nothing (run : gnssSystem.Exec history s) {task : Nat} {control : GnssFilterControl}
    (discarding : s.calls task = .discarding control) : s.overrideFlushDone = false := by
  apply Bool.eq_false_iff.mpr
  intro done
  obtain ⟨other, waiting⟩ := waiting_of_flushDone run done
  obtain ⟨closing, -⟩ := (handshake_of_exec run).of_discarding discarding
  have awake : (exchange history s).calls other ≠ .idle := by simp [exchange, waiting]
  obtain rfl := closing.eq_of_call awake
  cases waiting.symm.trans discarding

end Override

theorem matched {trace : List (GnssAction × List GnssEvent)} {s : GnssStack}
    (run : gnssSystem.traced.Exec trace s) : Matched trace s := by
  obtain ⟨waiting, order, who, one⟩ := matched_of_exec run
  refine ⟨waiting, order, who, ?_⟩
  cases waiting with
  | nil =>
      have nobody : ∀ task, s.calls task ≠ .waiting :=
        fun task waits => List.not_mem_nil ((who task).mp waits)
      exact (unanswered_of_not_waiting run.of_traced nobody).symm
  | cons task rest =>
      have waits := (who task).mpr List.mem_cons_self
      rw [unanswered_of_waiting run.of_traced waits]
      exact Nat.le_antisymm one (Nat.succ_le_succ (Nat.zero_le rest.length))

/-- Overrides exclude each other, and calls that are refused change nothing.
    While an override is being closed it has one flush, of the current epoch, in
    one place. Its acknowledgement is taken by the caller that sent the flush,
    and the filter task can give it in every state in which it is waited for. -/
theorem override_closes_once {trace : List (GnssAction × List GnssEvent)} {s : GnssStack}
    (run : gnssSystem.traced.Exec trace s) :
    let history := trace.flatMap Prod.snd
    (begins history = closes history + s.input.overrideActive.toNat ∧ Refuses s) ∧
    ((s.input.overrideClosing = true → ∃ task, OneFlush history s task) ∧
      ∀ control, .ignored control ∉ history) ∧
    (Matched trace s ∧
      (∀ task control, s.calls task = .discarding control → s.overrideFlushDone = false) ∧
      (∀ task control, s.calls task = .sending control →
        ∃ s' events, s.next (.endSend task) = some (s', events)) ∧
      ∀ task, s.calls task = .waiting → ∃ n s' events,
        System.replay GnssStack.next s (List.replicate n .filterStep) = some (s', events) ∧
          s'.calls task = .waiting ∧ s'.overrideFlushDone = true) := by
  have reached := run.of_traced
  refine ⟨⟨begins_eq reached, refuses s⟩, ⟨oneFlush_of_exec reached, ignored_not_mem reached⟩,
    matched run, ?_, ?_, ?_⟩
  · exact fun task control discarding => discards_nothing reached discarding
  · exact fun task control sending => endSend_enabled reached sending
  · exact fun task waiting => filterSteps_answer reached waiting

theorem uploadRun_matched : ∃ trace, gnssSystem.traced.Exec trace (uploadRun.get uploadRun_isSome).1 ∧
    Matched trace (uploadRun.get uploadRun_isSome).1 := by
  obtain ⟨trace, run, -⟩ := System.Exec.exists_traced uploadRun_exec
  exact ⟨trace, run, (override_closes_once run).2.2.1⟩

end EspGnss.Gnss
