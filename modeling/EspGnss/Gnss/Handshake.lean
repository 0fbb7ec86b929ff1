import EspGnss.Gnss.History

/-! # Closing an override

`gnss_input_override_end` shuts the input, sends one flush behind all uploaded
candidates and waits until the filter task acknowledges it. `Exchange` is the
part of the stack that takes part in this, with its own steps, which the steps
of the stack refine. `Handshake` lists its phases and what is known in each.
-/

namespace EspGnss.Gnss

open Foundation Nmea

/-- What the filter task is about to do with the outcome of a marker. -/
inductive Output where
  | choosing
  | writing (marker : Marker)
  | acknowledging
  deriving DecidableEq, Repr

def FilterPc.output : FilterPc → Output
  | writing marker => .writing marker
  | acknowledging => .acknowledging
  | selecting | receiving _ | considering _ | checkingFlush _ | publishing _ => .choosing

/-- What remains to be done once a marker has been dealt with. -/
def Marker.outcome : Marker → Output
  | timer => .choosing
  | flush _ => .acknowledging

structure Exchange where
  calls : Nat → EndCall
  active : Bool
  closing : Bool
  inputEpoch : UInt32
  session : Nat
  mutex : Option Feed
  flushDone : Bool
  best : Option Candidate
  output : Output
  flight : List Entry
  window : List Candidate

namespace Exchange

inductive Step (e : Exchange) : Exchange → Prop where
  | same : Step e e
  | hold {source data} : e.mutex = none → (source = .override ↔ e.active = true) →
      (e.active = true → e.closing = false) →
      Step e { e with mutex := some ⟨source, data⟩ }
  | feed {source byte rest} : e.mutex = some ⟨source, byte :: rest⟩ →
      Step e { e with mutex := some ⟨source, rest⟩ }
  | pair {source byte rest candidate} : e.mutex = some ⟨source, byte :: rest⟩ →
      candidate.source = source → candidate.session = e.session →
      candidate.inputEpoch = e.inputEpoch →
      Step e { e with
        mutex := some ⟨source, rest⟩
        flight := e.flight ++ [.candidate candidate] }
  | release {source} : e.mutex = some ⟨source, []⟩ → Step e { e with mutex := none }
  | begin : e.mutex = none → e.active = false →
      Step e { e with
        active := true
        closing := false
        inputEpoch := gnssInputEpochAdvance e.inputEpoch
        session := e.session + 1 }
  | enter {task} : e.mutex = none → e.calls task = .idle → e.active = true → e.closing = false →
      Step e { e with
        closing := true
        calls := Function.update e.calls task (.discarding ⟨e.inputEpoch⟩) }
  | discard {task control} : e.calls task = .discarding control →
      Step e { e with
        flushDone := false
        calls := Function.update e.calls task (.sending control) }
  | send {task control} : e.calls task = .sending control →
      Step e { e with
        calls := Function.update e.calls task .waiting
        flight := e.flight ++ [.control control] }
  | take {task} : e.calls task = .waiting → e.flushDone = true →
      Step e { e with flushDone := false, calls := Function.update e.calls task .closing }
  | close {task} : e.mutex = none → e.calls task = .closing →
      Step e { e with
        active := false
        closing := false
        inputEpoch := gnssInputEpochAdvance e.inputEpoch
        session := e.session + 1
        calls := Function.update e.calls task .idle }
  | timer : Step e { e with flight := e.flight ++ [.timer] }
  | consider {candidate rest best} : e.output = .choosing → e.flight = .candidate candidate :: rest →
      (∀ kept, best = some kept → kept = candidate ∨ e.best = some kept) →
      Step e { e with best, flight := rest, window := e.window ++ [candidate] }
  | ignore {control rest} : e.output = .choosing → e.flight = .control control :: rest →
      control.inputEpoch ≠ e.inputEpoch →
      Step e { e with output := .acknowledging, flight := rest, window := [] }
  | decideNone {marker : Marker} {rest} : e.output = .choosing → e.flight = marker.entry :: rest →
      Step e { e with output := marker.outcome, best := none, flight := rest, window := [] }
  | decide {marker : Marker} {rest best} : e.output = .choosing → e.flight = marker.entry :: rest →
      e.best = some best → best.inputEpoch = e.inputEpoch →
      Step e { e with output := .writing marker, flight := rest, window := [] }
  | write {marker} : e.output = .writing marker →
      Step e { e with output := marker.outcome, best := none }
  | acknowledge : e.output = .acknowledging →
      Step e { e with output := .choosing, flushDone := true }

/-- One task has shut the input and is the only one inside
    `gnss_input_override_end`. -/
structure Closing (e : Exchange) (task : Nat) : Prop where
  active : e.active = true
  closing : e.closing = true
  free : e.mutex = none
  alone : ∀ other, other ≠ task → e.calls other = .idle

end Exchange

/-- The flushes among some entries. -/
def flushesOf (entries : List Entry) : List GnssFilterControl :=
  QueueSet.itemsOf FilterMember.control entries

@[simp] theorem flushesOf_append (first second : List Entry) :
    flushesOf (first ++ second) = flushesOf first ++ flushesOf second := QueueSet.itemsOf_append ..

@[simp] theorem flushesOf_nil : flushesOf [] = [] := rfl

@[simp] theorem flushesOf_candidate (candidate : Candidate) (rest : List Entry) :
    flushesOf (.candidate candidate :: rest) = flushesOf rest := rfl

@[simp] theorem flushesOf_timer (rest : List Entry) : flushesOf (.timer :: rest) = flushesOf rest := rfl

@[simp] theorem flushesOf_control (control : GnssFilterControl) (rest : List Entry) :
    flushesOf (.control control :: rest) = control :: flushesOf rest := rfl

@[simp] theorem candidatesOf_append (first second : List Entry) :
    candidatesOf (first ++ second) = candidatesOf first ++ candidatesOf second :=
  QueueSet.itemsOf_append ..

@[simp] theorem candidatesOf_nil : candidatesOf [] = [] := rfl

@[simp] theorem candidatesOf_candidate (candidate : Candidate) (rest : List Entry) :
    candidatesOf (.candidate candidate :: rest) = candidate :: candidatesOf rest := rfl

@[simp] theorem candidatesOf_marker (marker : Marker) (rest : List Entry) :
    candidatesOf (marker.entry :: rest) = candidatesOf rest := by
  cases marker <;> rfl

theorem candidatesOf_snoc_marker (entries : List Entry) (marker : Marker) :
    candidatesOf (entries ++ [marker.entry]) = candidatesOf entries := by
  rw [candidatesOf_append, candidatesOf_marker, candidatesOf_nil, List.append_nil]

/-- No flush and no candidate is left before the next timer event. -/
structure Drained (e : Exchange) : Prop where
  flushes : flushesOf e.flight = []
  candidates : candidatesOf e.flight = []
  window : e.window = []

/-- The filter task is not busy with a flush. -/
def Unflushing (e : Exchange) : Prop := e.output = .choosing ∨ e.output = .writing .timer

inductive Handshake (e : Exchange) : Prop where
  /-- No override is being closed, and only the owner of the input feeds. -/
  | quiet : (∀ task, e.calls task = .idle) → e.closing = false →
      (∀ feed, e.mutex = some feed → (feed.source = .override ↔ e.active = true)) →
      flushesOf e.flight = [] → Unflushing e → Handshake e
  /-- The input is shut and the flush not sent yet. -/
  | entered {task control} : e.Closing task →
      (e.calls task = .discarding control ∨ e.calls task = .sending control ∧ e.flushDone = false) →
      control.inputEpoch = e.inputEpoch → flushesOf e.flight = [] → Unflushing e → Handshake e
  /-- The flush is in flight, behind every candidate. -/
  | sent {task control before after} : e.Closing task → e.calls task = .waiting →
      e.flushDone = false → control.inputEpoch = e.inputEpoch →
      e.flight = before ++ .control control :: after → flushesOf before = [] →
      flushesOf after = [] → candidatesOf after = [] → Unflushing e → Handshake e
  /-- The flush is decided and not acknowledged yet. -/
  | decided {task} : e.Closing task → e.calls task = .waiting → e.flushDone = false → Drained e →
      ((∃ control, e.output = .writing (.flush control)) ∨ e.output = .acknowledging ∧ e.best = none) →
      Handshake e
  /-- The flush is acknowledged and the input still shut. -/
  | acknowledged {task} : e.Closing task →
      (e.calls task = .waiting ∧ e.flushDone = true ∨ e.calls task = .closing ∧ e.flushDone = false) →
      Drained e → e.output = .choosing → e.best = none → Handshake e

theorem Exchange.Closing.eq_of_call {e : Exchange} {closer task : Nat} (h : e.Closing closer)
    (busy : e.calls task ≠ .idle) : task = closer := by
  apply Decidable.byContradiction
  intro other
  exact busy (h.alone task other)

/-- The closing task proceeds to another step. -/
theorem Exchange.Closing.update {e : Exchange} {task : Nat} (h : e.Closing task) (call : EndCall)
    {e' : Exchange} (active : e'.active = e.active) (closing : e'.closing = e.closing)
    (mutex : e'.mutex = e.mutex) (calls : e'.calls = Function.update e.calls task call) :
    e'.Closing task where
  active := active.trans h.active
  closing := closing.trans h.closing
  free := mutex.trans h.free
  alone := by
    intro other different
    rw [calls, Function.update_of_ne different]
    exact h.alone other different

/-- The closing task stays where it is. -/
theorem Exchange.Closing.same {e : Exchange} {task : Nat} (h : e.Closing task) {e' : Exchange}
    (active : e'.active = e.active) (closing : e'.closing = e.closing) (mutex : e'.mutex = e.mutex)
    (calls : e'.calls = e.calls) : e'.Closing task :=
  ⟨active.trans h.active, closing.trans h.closing, mutex.trans h.free, by rw [calls]; exact h.alone⟩

namespace Handshake

variable {e e' : Exchange}

/-- While the input is not shut, nobody is inside `gnss_input_override_end`. -/
theorem quiet_of_open (h : Handshake e) (accepting : e.closing = false) :
    (∀ task, e.calls task = .idle) ∧
      (∀ feed, e.mutex = some feed → (feed.source = .override ↔ e.active = true)) ∧
      flushesOf e.flight = [] ∧ Unflushing e := by
  cases h with
  | quiet idle _ feeds flushes output => exact ⟨idle, feeds, flushes, output⟩
  | entered closing | sent closing | decided closing | acknowledged closing =>
      rw [closing.closing] at accepting
      cases accepting

theorem open_of_feeding (h : Handshake e) {feed : Feed} (held : e.mutex = some feed) :
    e.closing = false := by
  cases h with
  | quiet _ accepting => exact accepting
  | entered closing | sent closing | decided closing | acknowledged closing =>
      rw [closing.free] at held
      cases held

theorem open_of_inactive (h : Handshake e) (inactive : e.active = false) : e.closing = false := by
  cases h with
  | quiet _ accepting => exact accepting
  | entered closing | sent closing | decided closing | acknowledged closing =>
      rw [closing.active] at inactive
      cases inactive

theorem of_discarding (h : Handshake e) {task : Nat} {control : GnssFilterControl}
    (call : e.calls task = .discarding control) :
    e.Closing task ∧ control.inputEpoch = e.inputEpoch ∧ flushesOf e.flight = [] ∧ Unflushing e := by
  have busy : e.calls task ≠ .idle := by rw [call]; exact nofun
  cases h with
  | quiet idle => exact absurd (idle task) busy
  | entered closing state epoch flushes output =>
      obtain rfl := closing.eq_of_call busy
      rw [call] at state
      rcases state with same | wrong
      · cases same
        exact ⟨closing, epoch, flushes, output⟩
      · cases wrong.1
  | sent closing state | decided closing state =>
      obtain rfl := closing.eq_of_call busy
      rw [call] at state
      cases state
  | acknowledged closing state =>
      obtain rfl := closing.eq_of_call busy
      rw [call] at state
      exact state.elim (fun wrong => nomatch wrong.1) (fun wrong => nomatch wrong.1)

theorem of_sending (h : Handshake e) {task : Nat} {control : GnssFilterControl}
    (call : e.calls task = .sending control) :
    e.Closing task ∧ e.flushDone = false ∧ control.inputEpoch = e.inputEpoch ∧
      flushesOf e.flight = [] ∧ Unflushing e := by
  have busy : e.calls task ≠ .idle := by rw [call]; exact nofun
  cases h with
  | quiet idle => exact absurd (idle task) busy
  | entered closing state epoch flushes output =>
      obtain rfl := closing.eq_of_call busy
      rw [call] at state
      rcases state with wrong | ⟨same, done⟩
      · cases wrong
      · cases same
        exact ⟨closing, done, epoch, flushes, output⟩
  | sent closing state | decided closing state =>
      obtain rfl := closing.eq_of_call busy
      rw [call] at state
      cases state
  | acknowledged closing state =>
      obtain rfl := closing.eq_of_call busy
      rw [call] at state
      exact state.elim (fun wrong => nomatch wrong.1) (fun wrong => nomatch wrong.1)

/-- What is known once the flush has been acknowledged. -/
theorem of_done (h : Handshake e) {task : Nat}
    (call : e.calls task = .waiting ∧ e.flushDone = true ∨ e.calls task = .closing) :
    e.Closing task ∧ Drained e ∧ e.output = .choosing ∧ e.best = none := by
  have busy : e.calls task ≠ .idle := by
    rcases call with ⟨waiting, -⟩ | closing
    · rw [waiting]; exact nofun
    · rw [closing]; exact nofun
  cases h with
  | quiet idle => exact absurd (idle task) busy
  | entered closing state =>
      obtain rfl := closing.eq_of_call busy
      rcases call with ⟨call, -⟩ | call <;> rw [call] at state <;>
        exact state.elim nofun (fun wrong => nomatch wrong.1)
  | sent closing state done | decided closing state done =>
      obtain rfl := closing.eq_of_call busy
      rcases call with ⟨-, given⟩ | call
      · rw [done] at given
        cases given
      · rw [state] at call
        cases call
  | acknowledged closing state drained output best =>
      obtain rfl := closing.eq_of_call busy
      exact ⟨closing, drained, output, best⟩

/-- A flush that reaches the filter task is of the current epoch, and nothing
    uploaded follows it. -/
theorem of_flush (h : Handshake e) {control : GnssFilterControl} {rest : List Entry}
    (flight : e.flight = .control control :: rest) :
    ∃ task, e.Closing task ∧ e.calls task = .waiting ∧ e.flushDone = false ∧
      control.inputEpoch = e.inputEpoch ∧ flushesOf rest = [] ∧ candidatesOf rest = [] := by
  have flushes : flushesOf e.flight = control :: flushesOf rest := by rw [flight, flushesOf_control]
  cases h with
  | quiet _ _ _ none | entered _ _ _ none =>
      rw [none] at flushes
      cases flushes
  | decided _ _ _ drained | acknowledged _ _ drained =>
      rw [drained.flushes] at flushes
      cases flushes
  | @sent task other before after closing call done epoch queued early late candidates =>
      rw [flight] at queued
      cases before with
      | nil =>
          cases queued
          exact ⟨task, closing, call, done, epoch, late, candidates⟩
      | cons first others =>
          cases queued
          cases early

/-- Something other than a flush leaves the entries in flight. -/
theorem advance (h : Handshake e) {entry : Entry} {rest : List Entry} {window : List Candidate}
    {best : Option Candidate} {output : Output} (flight : e.flight = entry :: rest)
    (unflushed : flushesOf [entry] = []) (choosing : e.output = .choosing)
    (ordinary : output = .choosing ∨ output = .writing .timer)
    (kept : candidatesOf e.flight = [] → e.window = [] → e.best = none →
      window = [] ∧ best = none ∧ output = .choosing) :
    Handshake { e with best, output, window, flight := rest } := by
  have split : flushesOf e.flight = flushesOf [entry] ++ flushesOf rest := by
    rw [flight, ← flushesOf_append, List.singleton_append]
  have fewer : candidatesOf e.flight = candidatesOf [entry] ++ candidatesOf rest := by
    rw [flight, ← candidatesOf_append, List.singleton_append]
  rw [unflushed, List.nil_append] at split
  cases h with
  | quiet idle accepting feeds flushes => exact .quiet idle accepting feeds (split ▸ flushes) ordinary
  | entered closing call epoch flushes =>
      exact .entered (closing.same rfl rfl rfl rfl) call epoch (split ▸ flushes) ordinary
  | @sent task control before after closing call done epoch queued early late candidates =>
      cases before with
      | nil =>
          rw [flight] at queued
          cases queued
          cases unflushed
      | cons first others =>
          rw [flight] at queued
          cases queued
          have early : flushesOf others = [] := by
            rw [← List.singleton_append, flushesOf_append, unflushed] at early
            exact early
          exact .sent (closing.same rfl rfl rfl rfl) call done epoch rfl early late candidates ordinary
  | decided closing call done drained state =>
      rcases state with ⟨control, writing⟩ | ⟨acknowledging, -⟩
      · rw [writing] at choosing
        cases choosing
      · rw [acknowledging] at choosing
        cases choosing
  | acknowledged closing call drained _ none =>
      obtain ⟨empty, nothing, quiet⟩ := kept drained.candidates drained.window none
      have candidates := drained.candidates
      rw [fewer] at candidates
      exact .acknowledged (closing.same rfl rfl rfl rfl) call
        ⟨split ▸ drained.flushes, (List.append_eq_nil_iff.mp candidates).2, empty⟩ quiet nothing

/-- A timer event joins the entries in flight. -/
theorem timer (h : Handshake e) : Handshake { e with flight := e.flight ++ [.timer] } := by
  have flushes : flushesOf (e.flight ++ [.timer]) = flushesOf e.flight := by simp
  have candidates : candidatesOf (e.flight ++ [.timer]) = candidatesOf e.flight :=
    candidatesOf_snoc_marker e.flight .timer
  cases h with
  | quiet idle accepting feeds none output =>
      exact .quiet idle accepting feeds (flushes.trans none) output
  | entered closing call epoch none output =>
      exact .entered (closing.same rfl rfl rfl rfl) call epoch (flushes.trans none) output
  | @sent task control before after closing call done epoch queued early late none output =>
      have queued' : e.flight ++ [.timer] = before ++ .control control :: (after ++ [.timer]) := by
        rw [queued, List.append_assoc, List.cons_append]
      refine .sent (closing.same rfl rfl rfl rfl) call done epoch queued' early ?_ ?_ output
      · rw [flushesOf_append, late]
        rfl
      · rw [candidatesOf_append, none]
        rfl
  | decided closing call done drained output =>
      exact .decided (closing.same rfl rfl rfl rfl) call done
        ⟨flushes.trans drained.flushes, candidates.trans drained.candidates, drained.window⟩ output
  | acknowledged closing call drained output best =>
      exact .acknowledged (closing.same rfl rfl rfl rfl) call
        ⟨flushes.trans drained.flushes, candidates.trans drained.candidates, drained.window⟩ output best

/-- The outcome of a timer event is published; that of a flush must be
    acknowledged as well. -/
theorem write (h : Handshake e) {marker : Marker} (writing : e.output = .writing marker) :
    Handshake { e with output := marker.outcome, best := none } := by
  have isTimer : Unflushing e → marker = .timer := by
    intro output
    rcases output with choosing | timer
    · rw [choosing] at writing
      cases writing
    · rw [timer] at writing
      cases writing
      rfl
  cases h with
  | quiet idle accepting feeds flushes output =>
      rw [isTimer output]
      exact .quiet idle accepting feeds flushes (.inl rfl)
  | entered closing call epoch flushes output =>
      rw [isTimer output]
      exact .entered (closing.same rfl rfl rfl rfl) call epoch flushes (.inl rfl)
  | sent closing call done epoch queued early late candidates output =>
      rw [isTimer output]
      exact .sent (closing.same rfl rfl rfl rfl) call done epoch queued early late candidates (.inl rfl)
  | decided closing call done drained output =>
      rcases output with ⟨control, flush⟩ | ⟨acknowledging, -⟩
      · rw [flush] at writing
        cases writing
        exact .decided (closing.same rfl rfl rfl rfl) call done
          ⟨drained.flushes, drained.candidates, drained.window⟩ (.inr ⟨rfl, rfl⟩)
      · rw [acknowledging] at writing
        cases writing
  | acknowledged closing call drained output =>
      rw [output] at writing
      cases writing

/-- A decided flush is written or acknowledged next. -/
theorem flushed (h : Handshake e) {control : GnssFilterControl} {rest : List Entry}
    (flight : e.flight = .control control :: rest) {output : Output} {best : Option Candidate}
    (next : output = .writing (.flush control) ∨ output = .acknowledging ∧ best = none) :
    Handshake { e with output, best, flight := rest, window := [] } := by
  obtain ⟨task, closing, call, done, -, flushes, candidates⟩ := h.of_flush flight
  refine .decided (closing.same rfl rfl rfl rfl) call done ⟨flushes, candidates, rfl⟩ ?_
  rcases next with writing | acknowledging
  · exact .inl ⟨control, writing⟩
  · exact .inr acknowledging

theorem step (h : Handshake e) (step : Exchange.Step e e') : Handshake e' := by
  cases step with
  | same => exact h
  | hold free owner accepting =>
      have accepting : e.closing = false := by
        cases active : e.active with
        | true => exact accepting active
        | false => exact h.open_of_inactive active
      obtain ⟨idle, -, flushes, output⟩ := h.quiet_of_open accepting
      refine .quiet idle accepting ?_ flushes output
      intro feed same
      cases same
      exact owner
  | feed held =>
      have accepting := h.open_of_feeding held
      obtain ⟨idle, feeds, flushes, output⟩ := h.quiet_of_open accepting
      have owner := feeds _ held
      refine .quiet idle accepting ?_ flushes output
      intro feed same
      cases same
      exact owner
  | pair held =>
      have accepting := h.open_of_feeding held
      obtain ⟨idle, feeds, flushes, output⟩ := h.quiet_of_open accepting
      have owner := feeds _ held
      refine .quiet idle accepting ?_ ?_ output
      · intro feed same
        cases same
        exact owner
      · rw [flushesOf_append, flushes]
        rfl
  | release held =>
      have accepting := h.open_of_feeding held
      obtain ⟨idle, -, flushes, output⟩ := h.quiet_of_open accepting
      exact .quiet idle accepting (fun _ impossible => nomatch impossible) flushes output
  | begin free inactive =>
      obtain ⟨idle, -, flushes, output⟩ := h.quiet_of_open (h.open_of_inactive inactive)
      refine .quiet idle rfl ?_ flushes output
      intro feed held
      rw [free] at held
      cases held
  | @enter task free idle active accepting =>
      obtain ⟨others, -, flushes, output⟩ := h.quiet_of_open accepting
      have closing : Exchange.Closing { e with
          closing := true
          calls := Function.update e.calls task (.discarding ⟨e.inputEpoch⟩) } task := by
        refine ⟨active, rfl, free, ?_⟩
        intro other different
        exact (Function.update_of_ne different ..).trans (others other)
      exact .entered closing (.inl (Function.update_self ..)) rfl flushes output
  | discard call =>
      obtain ⟨closing, epoch, flushes, output⟩ := h.of_discarding call
      exact .entered (closing.update _ rfl rfl rfl rfl) (.inr ⟨Function.update_self .., rfl⟩) epoch
        flushes output
  | send call =>
      obtain ⟨closing, done, epoch, flushes, output⟩ := h.of_sending call
      exact .sent (closing.update _ rfl rfl rfl rfl) (Function.update_self ..) done epoch rfl flushes
        rfl rfl output
  | take call done =>
      obtain ⟨closing, drained, output, best⟩ := h.of_done (.inl ⟨call, done⟩)
      exact .acknowledged (closing.update _ rfl rfl rfl rfl) (.inr ⟨Function.update_self .., rfl⟩)
        ⟨drained.flushes, drained.candidates, drained.window⟩ output best
  | @close task free call =>
      obtain ⟨closing, drained, output, -⟩ := h.of_done (.inr call)
      refine .quiet ?_ rfl ?_ drained.flushes (.inl output)
      · intro other
        by_cases same : other = task
        · rw [same]
          exact Function.update_self ..
        · exact (Function.update_of_ne same ..).trans (closing.alone other same)
      · intro feed held
        rw [closing.free] at held
        cases held
  | timer => exact h.timer
  | consider choosing flight =>
      apply h.advance flight rfl choosing (.inl choosing)
      intro candidates
      rw [flight] at candidates
      cases candidates
  | ignore choosing flight other =>
      obtain ⟨_, _, _, _, same, _⟩ := h.of_flush flight
      exact absurd same other
  | @decideNone marker rest choosing flight =>
      cases marker with
      | timer => exact h.advance flight rfl choosing (.inl rfl) fun _ _ _ => ⟨rfl, rfl, rfl⟩
      | flush control => exact h.flushed flight (.inr ⟨rfl, rfl⟩)
  | @decide marker rest best choosing flight chosen =>
      cases marker with
      | timer =>
          apply h.advance flight rfl choosing (.inr rfl)
          intro _ _ none
          rw [none] at chosen
          cases chosen
      | flush control => exact h.flushed flight (.inl rfl)
  | write writing => exact h.write writing
  | acknowledge acknowledging =>
      cases h with
      | quiet _ _ _ _ output | entered _ _ _ _ output | sent _ _ _ _ _ _ _ _ output =>
          rcases output with wrong | wrong <;> rw [wrong] at acknowledging <;> cases acknowledging
      | decided closing call done drained output =>
          rcases output with ⟨control, wrong⟩ | ⟨-, best⟩
          · rw [wrong] at acknowledging
            cases acknowledging
          · exact .acknowledged (closing.same rfl rfl rfl rfl) (.inl ⟨call, rfl⟩)
              ⟨drained.flushes, drained.candidates, drained.window⟩ rfl best
      | acknowledged closing call drained output =>
          rw [output] at acknowledging
          cases acknowledging

end Handshake

def exchange (history : List GnssEvent) (s : GnssStack) : Exchange where
  calls := s.calls
  active := s.input.overrideActive
  closing := s.input.overrideClosing
  inputEpoch := s.input.inputEpoch
  session := s.session
  mutex := s.mutex
  flushDone := s.overrideFlushDone
  best := s.filter.bestCandidate
  output := s.filter.pc.output
  flight := inFlight history
  window := openWindow history

theorem openWindow_same {history events : List GnssEvent} (done : processed events = []) :
    openWindow (history ++ events) = openWindow history := by
  rw [openWindow, processed_append, done, List.append_nil]
  rfl

theorem openWindow_considered (history : List GnssEvent) (candidate : Candidate) :
    openWindow (history ++ [.considered candidate]) = openWindow history ++ [candidate] := by
  have done : processed [GnssEvent.considered candidate] = [.candidate candidate] := rfl
  rw [openWindow, processed_append, done, windowsOf_candidate]
  rfl

theorem openWindow_marker {history events : List GnssEvent} (marker : Marker)
    (done : processed events = [marker.entry]) : openWindow (history ++ events) = [] := by
  rw [openWindow, processed_append, done, windowsOf_marker]

theorem Entry.received_output (entry : Entry) : entry.received.output = .choosing := by
  obtain ⟨member, item⟩ := entry
  cases member <;> rfl

theorem Marker.resume_output (marker : Marker) : marker.resume.output = marker.outcome := by
  cases marker <;> rfl

theorem exchange_step {history events : List GnssEvent} {s s' : GnssStack} {action : GnssAction}
    (order : Ordered history s)
    (fits : s.input.parserState.Fits) (step : Transition s action s' events) :
    Exchange.Step (exchange history s) (exchange (history ++ events) s') := by
  -- What a step does to the entries in flight and to the open window.
  have still : enqueued events = [] → processed events = [] →
      inFlight (history ++ events) = inFlight history ∧
        openWindow (history ++ events) = openWindow history :=
    fun sent done => ⟨Ordered.inFlight_same sent done, openWindow_same done⟩
  have sends : ∀ entry, enqueued events = [entry] → processed events = [] →
      inFlight (history ++ events) = inFlight history ++ [entry] ∧
        openWindow (history ++ events) = openWindow history :=
    fun _ sent done => ⟨order.inFlight_sends sent done, openWindow_same done⟩
  have finishes : ∀ entry, enqueued events = [] → processed events = [entry] →
      s.filter.pc.hand = [entry] → inFlight history = entry :: inFlight (history ++ events) :=
    fun _ sent done held => order.inFlight_finishes sent done held
  cases step with
  | refused | initReset | timerCoalesced | publicationReceive =>
      rw [List.append_nil]
      exact .same
  | uartFeed free inactive =>
      rw [List.append_nil]
      refine .hold free ?_ ?_
      · simp [exchange, inactive]
      · intro active
        exact absurd (inactive.symm.trans active) nofun
  | overrideFeed free active accepting =>
      rw [List.append_nil]
      refine .hold free ?_ fun _ => accepting
      simp [exchange, active]
  | overrun held | scanned held | dropped held =>
      obtain ⟨flight, window⟩ := still rfl rfl
      simp only [exchange, flight, window]
      exact .feed held
  | paired held fed =>
      obtain ⟨flight, window⟩ := sends _ rfl rfl
      simp only [exchange, flight, window]
      exact .pair held rfl rfl (Transition.fed_of_feedByte fits fed).pair_inputEpoch
  | feedReturn held =>
      rw [List.append_nil]
      exact .release held
  | overrideBegin free inactive =>
      obtain ⟨flight, window⟩ := still rfl rfl
      simp only [exchange, flight, window]
      exact .begin free inactive
  | endEnter free idle active accepting =>
      rw [List.append_nil]
      exact .enter free idle active accepting
  | endDiscard call =>
      rw [List.append_nil]
      exact .discard call
  | endSend call =>
      obtain ⟨flight, window⟩ := sends _ rfl rfl
      simp only [exchange, flight, window]
      exact .send call
  | endTake call done =>
      rw [List.append_nil]
      exact .take call done
  | endClose free call =>
      obtain ⟨flight, window⟩ := still rfl rfl
      simp only [exchange, flight, window]
      exact .close free call
  | timerExpire =>
      obtain ⟨flight, window⟩ := sends _ rfl rfl
      simp only [exchange, flight, window]
      exact .timer
  | @select member _ pc =>
      rw [List.append_nil]
      have same : (FilterPc.receiving member).output = s.filter.pc.output := by rw [pc]; rfl
      simp only [exchange, GnssStack.goto, same]
      exact .same
  | receive pc =>
      rw [List.append_nil]
      obtain ⟨pending, -, represents⟩ := order
      rw [pc] at represents
      obtain ⟨entry, rest, queueSet, -, received, -⟩ := receiveSelected_spec represents
      have same : entry.received.output = s.filter.pc.output := by
        rw [pc, Entry.received_output]
        rfl
      simp only [received, exchange, GnssStack.goto, same]
      exact .same
  | @consider candidate pc =>
      have choosing : s.filter.pc.output = .choosing := by rw [pc]; rfl
      have after : ∀ best, exchange (history ++ [.considered candidate]) (s.keep .selecting best) =
          { exchange history s with
            best
            flight := inFlight (history ++ [.considered candidate])
            window := openWindow history ++ [candidate] } := by
        intro best
        simp only [exchange, openWindow_considered, choosing]
        rfl
      rw [after]
      exact .consider choosing (finishes _ rfl rfl (by rw [pc]; rfl)) fun _ kept =>
        considerCandidate_eq_some kept
  | @flush control pc =>
      rw [List.append_nil]
      have same : (FilterPc.publishing (.flush control)).output = s.filter.pc.output := by rw [pc]; rfl
      simp only [exchange, GnssStack.goto, same]
      exact .same
  | @ignore control pc _ other =>
      have choosing : s.filter.pc.output = .choosing := by rw [pc]; rfl
      have window : openWindow (history ++ [.ignored control]) = [] :=
        openWindow_marker (.flush control) rfl
      simp only [exchange, window]
      exact .ignore choosing (finishes _ rfl rfl (by rw [pc]; rfl)) other
  | @decideNone marker pc =>
      have choosing : s.filter.pc.output = .choosing := by rw [pc]; rfl
      have window : openWindow (history ++ [.decided marker s.input.inputEpoch none]) = [] :=
        openWindow_marker marker rfl
      simp only [exchange, window, GnssStack.keep, Marker.resume_output]
      exact .decideNone choosing (finishes _ rfl rfl (by rw [pc]; rfl))
  | @decide marker best pc _ fresh =>
      have choosing : s.filter.pc.output = .choosing := by rw [pc]; rfl
      have window : openWindow (history ++ [.decided marker s.input.inputEpoch (some best)]) = [] :=
        openWindow_marker marker rfl
      obtain ⟨kept, epoch⟩ := dropStale_eq_some fresh
      have step : Exchange.Step (exchange history s) _ :=
        .decide choosing (finishes _ rfl rfl (by rw [pc]; rfl)) kept epoch
      simp only [exchange, kept] at step
      simp only [exchange, kept, window, GnssStack.keep]
      exact step
  | miscopied pc =>
      rw [List.append_nil]
      simp only [exchange, Marker.resume_output]
      exact .write (by rw [pc]; rfl)
  | publish pc =>
      obtain ⟨flight, window⟩ := still rfl rfl
      simp only [exchange, flight, window, Marker.resume_output]
      exact .write (by rw [pc]; rfl)
  | acknowledge pc =>
      rw [List.append_nil]
      exact .acknowledge (by simp only [exchange, pc]; rfl)

theorem handshake_of_exec {history : List GnssEvent} {s : GnssStack} (run : gnssSystem.Exec history s) :
    Handshake (exchange history s) := by
  refine System.Exec.invariant (I := fun history s => Handshake (exchange history s))
    (fun s start => ?_) (fun history s action s' events earlier h step => ?_) run
  · cases start
    exact .quiet (fun _ => rfl) rfl (fun _ impossible => nomatch impossible) rfl (.inl rfl)
  · exact h.step (exchange_step (ordered_of_exec earlier) (fits_of_exec earlier) (.of_next step))

end EspGnss.Gnss
