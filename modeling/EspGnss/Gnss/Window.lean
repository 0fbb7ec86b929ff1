import Mathlib.Data.List.Forall2
import EspGnss.Gnss.Integrity

/-! # The choice of the filter task

Markers cut the entries sent to the queue set into windows. What the filter
task publishes for a marker is the first candidate of lowest HDOP among those
of the window that are of the epoch it reads.
-/

namespace EspGnss.Gnss

open Foundation Nmea

/-- The outcome of `publish_best_candidate` for a marker. -/
structure Decision where
  marker : Marker
  inputEpoch : UInt32
  best : Option Candidate
  deriving DecidableEq, Repr

def decisions (history : List GnssEvent) : List Decision :=
  history.filterMap fun
    | .decided marker inputEpoch best => some ⟨marker, inputEpoch, best⟩
    | _ => none

/-- The candidates written to `s_publication_queue`. -/
def published (history : List GnssEvent) : List Candidate :=
  history.filterMap fun
    | .published candidate _ => some candidate
    | _ => none

def markersOf (entries : List Entry) : List Entry := entries.filter (·.1 ≠ .candidate)

-- `argmin` has to find the order of `Int` that computes.
local instance hdopOrder : Preorder Int := Int.instLinearOrder.toPreorder

/-- The first of the candidates of the given epoch with the smallest HDOP. -/
def bestOf (inputEpoch : UInt32) (window : List Candidate) : Option Candidate :=
  (window.filter (·.inputEpoch = inputEpoch)).argmin (·.hdopMilli)

/-- The candidate that has been chosen and not been written yet. -/
def FilterTask.unwritten (task : FilterTask) : Option Candidate :=
  match task.pc.output with
  | .writing _ => task.bestCandidate
  | .choosing | .acknowledging => none

theorem bestOf_nil (inputEpoch : UInt32) : bestOf inputEpoch [] = none := rfl

theorem mem_of_bestOf {inputEpoch : UInt32} {window : List Candidate} {best : Candidate}
    (h : bestOf inputEpoch window = some best) : best ∈ window ∧ best.inputEpoch = inputEpoch := by
  have mem := List.argmin_mem h
  rw [List.mem_filter] at mem
  exact ⟨mem.1, by simpa using mem.2⟩

theorem hdopMilli_le_of_argmin {candidates : List Candidate} {best c : Candidate}
    (h : candidates.argmin (fun c : Candidate => c.hdopMilli) = some best) (mem : c ∈ candidates) :
    best.hdopMilli ≤ c.hdopMilli :=
  Int.not_lt.mp (List.not_lt_of_mem_argmin (f := fun c : Candidate => c.hdopMilli) mem h)

theorem bestOf_eq_none {inputEpoch : UInt32} {window : List Candidate}
    (h : ∀ c ∈ window, c.inputEpoch ≠ inputEpoch) : bestOf inputEpoch window = none := by
  have none : window.filter (·.inputEpoch = inputEpoch) = [] :=
    List.filter_eq_nil_iff.mpr fun c mem => by simpa using h c mem
  rw [bestOf, none]
  rfl

/-- Considering a candidate extends the window by it. -/
theorem considerCandidate_bestOf {inputEpoch : UInt32} {best : Option Candidate}
    {window : List Candidate} (h : dropStale inputEpoch best = bestOf inputEpoch window) (c : Candidate) :
    dropStale inputEpoch (considerCandidate inputEpoch best c) = bestOf inputEpoch (window ++ [c]) := by
  unfold considerCandidate
  by_cases current : c.inputEpoch = inputEpoch
  · have extended : (window ++ [c]).filter (·.inputEpoch = inputEpoch) =
        window.filter (·.inputEpoch = inputEpoch) ++ [c] := by
      simp [List.filter_append, current]
    have fresh : dropStale inputEpoch (some c) = some c := by simp [dropStale, current]
    rw [if_neg (by simpa using current), h, bestOf, bestOf, extended, List.argmin_concat]
    cases earlier : (window.filter (·.inputEpoch = inputEpoch)).argmin (·.hdopMilli) with
    | none => exact fresh
    | some kept =>
        have same := (mem_of_bestOf earlier).2
        dsimp only
        split
        · exact fresh
        · simp [dropStale, same]
  · have unchanged : (window ++ [c]).filter (·.inputEpoch = inputEpoch) =
        window.filter (·.inputEpoch = inputEpoch) := by
      simp [List.filter_append, current]
    rw [if_pos current, h, bestOf, bestOf, unchanged]

theorem decisions_append (history events : List GnssEvent) :
    decisions (history ++ events) = decisions history ++ decisions events := List.filterMap_append

theorem published_append (history events : List GnssEvent) :
    published (history ++ events) = published history ++ published events := List.filterMap_append

theorem markersOf_append (first second : List Entry) :
    markersOf (first ++ second) = markersOf first ++ markersOf second := List.filter_append ..

theorem markersOf_marker (marker : Marker) : markersOf [marker.entry] = [marker.entry] := by
  cases marker <;> rfl

/-- Windows that are complete stay as they are. -/
theorem windowsOf_prefix (first second : List Entry) :
    (windowsOf first).1 <+: (windowsOf (first ++ second)).1 := by
  induction second using List.reverseRecOn with
  | nil => rw [List.append_nil]
  | append_singleton rest entry ih =>
      rw [← List.append_assoc]
      obtain ⟨member, item⟩ := entry
      cases member with
      | candidate =>
          rw [windowsOf_candidate]
          exact ih
      | timer =>
          have cut := windowsOf_marker (first ++ rest) .timer
          rw [show (⟨.timer, item⟩ : Entry) = Marker.timer.entry from rfl, cut]
          exact ih.trans (List.prefix_append _ _)
      | control =>
          have cut := windowsOf_marker (first ++ rest) (.flush item)
          rw [show (⟨.control, item⟩ : Entry) = (Marker.flush item).entry from rfl, cut]
          exact ih.trans (List.prefix_append _ _)

/-- The candidates of all windows are the candidates of the entries. -/
theorem windowsOf_flatten (entries : List Entry) :
    (windowsOf entries).1.flatten ++ (windowsOf entries).2 = candidatesOf entries := by
  induction entries using List.reverseRecOn with
  | nil => rfl
  | append_singleton rest entry ih =>
      obtain ⟨member, item⟩ := entry
      rw [candidatesOf_append, ← ih]
      cases member with
      | candidate =>
          rw [windowsOf_candidate, List.append_assoc]
          rfl
      | timer =>
          have cut := windowsOf_marker rest .timer
          rw [show (⟨.timer, item⟩ : Entry) = Marker.timer.entry from rfl, cut, candidatesOf_marker]
          simp
      | control =>
          have cut := windowsOf_marker rest (.flush item)
          rw [show (⟨.control, item⟩ : Entry) = (Marker.flush item).entry from rfl, cut, candidatesOf_marker]
          simp

/-- The choice for a window is the best of one session, and what the override
    fed is of that session. -/
structure Decided (decision : Decision) (window : List Candidate) : Prop where
  best : decision.best = bestOf decision.inputEpoch window
  origin : ∃ session source, ∀ c ∈ window,
    (c.inputEpoch = decision.inputEpoch ↔ c.session = session) ∧
      (c.session = session → c.source = source) ∧ (c.source = .override → c.session = session)

/-- The decisions taken so far and the best candidate held agree with the
    windows of what has been processed. -/
structure Choosing (history : List GnssEvent) (s : GnssStack) : Prop where
  decided : List.Forall₂ Decided (decisions history) (windowsOf (processed history)).1
  markers : (decisions history).map (·.marker.entry) = markersOf (processed history)
  written : published history ++ s.filter.unwritten.toList = (decisions history).filterMap (·.best)
  best : (∀ marker, s.filter.pc.output ≠ .writing marker) →
    dropStale s.input.inputEpoch s.filter.bestCandidate = bestOf s.input.inputEpoch (openWindow history)
  emptied : ∀ marker, s.filter.pc.output = .writing marker → openWindow history = []

namespace Choosing

variable {history events : List GnssEvent} {s s' : GnssStack} {action : GnssAction}

/-- A step that neither processes an entry nor changes the epoch, the best
    candidate or what is to be written. -/
theorem same (h : Choosing history s) (done : processed events = []) (undecided : decisions events = [])
    (unpublished : published events = []) (inputEpoch : s'.input.inputEpoch = s.input.inputEpoch)
    (best : s'.filter.bestCandidate = s.filter.bestCandidate)
    (output : ∀ marker, s'.filter.pc.output = .writing marker ↔ s.filter.pc.output = .writing marker) :
    Choosing (history ++ events) s' := by
  have unwritten : s'.filter.unwritten = s.filter.unwritten := by
    cases before : s.filter.pc.output with
    | writing marker =>
        rw [FilterTask.unwritten, FilterTask.unwritten, before, (output marker).mpr before, best]
    | choosing | acknowledging =>
        cases after : s'.filter.pc.output with
        | writing marker =>
            rw [(output marker).mp after] at before
            cases before
        | choosing | acknowledging => simp only [FilterTask.unwritten, before, after]
  refine ⟨?_, ?_, ?_, ?_, ?_⟩
  · rw [decisions_append, processed_append, undecided, done, List.append_nil, List.append_nil]
    exact h.decided
  · rw [decisions_append, processed_append, undecided, done, List.append_nil, List.append_nil]
    exact h.markers
  · rw [decisions_append, published_append, undecided, unpublished, List.append_nil, List.append_nil,
      unwritten]
    exact h.written
  · intro ordinary
    rw [inputEpoch, best, openWindow_same done]
    exact h.best fun marker writing => ordinary marker ((output marker).mpr writing)
  · intro marker writing
    rw [openWindow_same done]
    exact h.emptied marker ((output marker).mp writing)

/-- A new epoch starts without candidates. -/
theorem renew (h : Choosing history s) (done : processed events = []) (undecided : decisions events = [])
    (unpublished : published events = []) (filter : s'.filter = s.filter)
    (stale : ∀ c ∈ (exchange history s).live, c.inputEpoch ≠ s'.input.inputEpoch) :
    Choosing (history ++ events) s' := by
  refine ⟨?_, ?_, ?_, fun _ => ?_, ?_⟩
  · rw [decisions_append, processed_append, undecided, done, List.append_nil, List.append_nil]
    exact h.decided
  · rw [decisions_append, processed_append, undecided, done, List.append_nil, List.append_nil]
    exact h.markers
  · rw [decisions_append, published_append, undecided, unpublished, List.append_nil, List.append_nil,
      filter]
    exact h.written
  · rw [openWindow_same done, filter]
    have window : bestOf s'.input.inputEpoch (openWindow history) = none :=
      bestOf_eq_none fun c mem => stale c (Exchange.mem_live.mpr (.inl mem))
    rw [window]
    cases held : s.filter.bestCandidate with
    | none => rfl
    | some best =>
        have other := stale best (Exchange.mem_live.mpr (.inr (.inr held)))
        simp [dropStale, other]
  · rw [filter, openWindow_same done]
    exact h.emptied

/-- A marker ends the window with the decision on it. -/
theorem decides (h : Choosing history s) (epochs : (exchange history s).Epochs) {marker : Marker}
    {best : Option Candidate} (choosing : s.filter.pc.output = .choosing)
    (fresh : dropStale s.input.inputEpoch s.filter.bestCandidate = best) (held : s'.filter.bestCandidate = best)
    (unwritten : s'.filter.unwritten = best) :
    Choosing (history ++ [.decided marker s.input.inputEpoch best]) s' := by
  have done : processed [GnssEvent.decided marker s.input.inputEpoch best] = [marker.entry] := rfl
  have taken : decisions [GnssEvent.decided marker s.input.inputEpoch best] =
      [⟨marker, s.input.inputEpoch, best⟩] := rfl
  have chosen : best = bestOf s.input.inputEpoch (openWindow history) := by
    rw [← fresh]
    apply h.best
    intro other writing
    rw [choosing] at writing
    cases writing
  have none : s.filter.unwritten = none := by rw [FilterTask.unwritten, choosing]
  have written := h.written
  rw [none, Option.toList_none, List.append_nil] at written
  refine ⟨?_, ?_, ?_, ?_, ?_⟩
  · rw [decisions_append, processed_append, taken, done, windowsOf_marker]
    refine List.rel_append h.decided (.cons ⟨chosen, s.session, s.input.owner, fun c mem => ?_⟩ .nil)
    have recent := epochs.recent c (Exchange.mem_live.mpr (.inl mem))
    exact ⟨recent.inputEpoch_eq_iff, recent.source_eq_owner, recent.session_of_override⟩
  · rw [decisions_append, processed_append, taken, done, List.map_append, h.markers,
      markersOf_append, markersOf_marker]
    rfl
  · rw [decisions_append, published_append, taken, List.filterMap_append, unwritten, ← written]
    cases best <;> simp [published]
  · intro ordinary
    rw [openWindow_marker marker done, bestOf_nil, held]
    cases best with
    | none => rfl
    | some best =>
        cases output : s'.filter.pc.output with
        | writing other => exact absurd output (ordinary other)
        | choosing | acknowledging =>
            rw [FilterTask.unwritten, output] at unwritten
            cases unwritten
  · intro _ _
    exact openWindow_marker marker done

/-- What has been written is no longer to be written. -/
theorem writes (h : Choosing history s) {marker : Marker} {best : Candidate}
    {publication : GnssPublication} (writing : s.filter.pc.output = .writing marker)
    (held : s.filter.bestCandidate = some best) (none : s'.filter.bestCandidate = none) (output : s'.filter.pc.output = marker.outcome) :
    Choosing (history ++ [.published best publication]) s' := by
  have done : processed [GnssEvent.published best publication] = [] := rfl
  have undecided : decisions [GnssEvent.published best publication] = [] := rfl
  have written := h.written
  have before : s.filter.unwritten = some best := by rw [FilterTask.unwritten, writing, ← held]
  have after : s'.filter.unwritten = Option.none := by
    rw [FilterTask.unwritten, output]
    cases marker <;> rfl
  rw [before, Option.toList_some] at written
  refine ⟨?_, ?_, ?_, ?_, ?_⟩
  · rw [decisions_append, processed_append, undecided, done, List.append_nil, List.append_nil]
    exact h.decided
  · rw [decisions_append, processed_append, undecided, done, List.append_nil, List.append_nil]
    exact h.markers
  · rw [decisions_append, published_append, undecided, List.append_nil, after, ← written,
      Option.toList_none, List.append_nil]
    rfl
  · intro _
    rw [openWindow_same done, h.emptied marker writing, bestOf_nil, none]
    rfl
  · intro _ _
    rw [openWindow_same done]
    exact h.emptied marker writing

theorem considers (h : Choosing history s) {candidate : Candidate}
    (pc : s.filter.pc = .considering candidate) :
    Choosing (history ++ [.considered candidate])
      (s.keep .selecting (considerCandidate s.input.inputEpoch s.filter.bestCandidate candidate)) := by
  have done : processed [GnssEvent.considered candidate] = [.candidate candidate] := rfl
  have undecided : decisions [GnssEvent.considered candidate] = [] := rfl
  have unpublished : published [GnssEvent.considered candidate] = [] := rfl
  have none : s.filter.unwritten = none := by
    rw [FilterTask.unwritten, pc]
    rfl
  have best := h.best (by rw [pc]; exact nofun)
  refine ⟨?_, ?_, ?_, ?_, nofun⟩
  · rw [decisions_append, processed_append, undecided, done, List.append_nil, windowsOf_candidate]
    exact h.decided
  · rw [decisions_append, processed_append, undecided, done, List.append_nil, markersOf_append,
      h.markers]
    exact (List.append_nil _).symm
  · have written := h.written
    rw [none] at written
    rw [decisions_append, published_append, undecided, unpublished, List.append_nil, List.append_nil]
    exact written
  · intro _
    rw [openWindow_considered]
    exact considerCandidate_bestOf best candidate

theorem step (h : Choosing history s) (run : gnssSystem.Exec history s)
    (step : Transition s action s' events) : Choosing (history ++ events) s' := by
  have epochs := epochs_of_exec run
  have handshake := handshake_of_exec run
  cases step with
  | refused | initReset | uartFeed | overrideFeed | overrun | scanned | paired | dropped | feedReturn
  | endEnter | endDiscard | endSend | endTake | timerExpire | timerCoalesced | publicationReceive =>
      exact h.same rfl rfl rfl rfl rfl fun _ => Iff.rfl
  | overrideBegin free inactive =>
      refine h.renew rfl rfl rfl rfl fun c used => ?_
      cases epochs.recent c used with
      | current _ epoch =>
          have epoch : c.inputEpoch = s.input.inputEpoch := epoch
          rw [epoch]
          exact (gnssInputEpochAdvance_ne_self _).symm
      | previous active =>
          have active : s.input.overrideActive = true := active
          rw [inactive] at active
          cases active
  | endClose free call =>
      obtain ⟨-, drained, -, best⟩ := handshake.of_done (.inr call)
      refine h.renew rfl rfl rfl rfl fun c used => ?_
      rcases Exchange.mem_live.mp used with window | flight | kept
      · rw [drained.window] at window
        cases window
      · rw [drained.candidates] at flight
        cases flight
      · rw [best] at kept
        cases kept
  | select pc => exact h.same rfl rfl rfl rfl rfl fun _ => by rw [pc]; rfl
  | receive pc =>
      obtain ⟨pending, -, represents⟩ := ordered_of_exec run
      rw [pc] at represents
      obtain ⟨entry, rest, queueSet, -, received, -⟩ := receiveSelected_spec represents
      rw [received]
      refine h.same rfl rfl rfl rfl rfl fun _ => ?_
      rw [pc, GnssStack.goto_pc, Entry.received_output]
      rfl
  | consider pc => exact h.considers pc
  | flush pc => exact h.same rfl rfl rfl rfl rfl fun _ => by rw [pc]; rfl
  | @ignore control pc _ other =>
      obtain ⟨pending, flight, -⟩ := (ordered_of_exec run).inFlight
      rw [pc] at flight
      obtain ⟨_, _, _, _, same, _⟩ := handshake.of_flush flight
      exact absurd same other
  | @decideNone marker pc _ none =>
      refine h.decides epochs (by rw [pc]; rfl) none rfl ?_
      rw [FilterTask.unwritten]
      cases marker <;> rfl
  | decide pc _ some => exact h.decides epochs (by rw [pc]; rfl) some rfl rfl
  | miscopied pc held fault =>
      rw [(integrity_of_exec run).publicationOf_best held] at fault
      cases fault
  | publish pc held =>
      exact h.writes (by rw [pc]; rfl) held rfl (Marker.resume_output _)
  | acknowledge pc =>
      refine h.same rfl rfl rfl rfl rfl fun marker => ?_
      rw [pc]
      exact ⟨nofun, nofun⟩

end Choosing

theorem choosing_of_exec {history : List GnssEvent} {s : GnssStack} (run : gnssSystem.Exec history s) :
    Choosing history s := by
  refine System.Exec.invariant (I := Choosing) (fun s start => ?_)
    (fun history s action s' events earlier h step => ?_) run
  · cases start
    exact ⟨.nil, rfl, rfl, fun _ => rfl, fun _ _ => rfl⟩
  · exact h.step earlier (.of_next step)

section Run

variable {history : List GnssEvent} {s : GnssStack}

/-- The windows decided on are the first windows of what has been sent. -/
theorem decidedWindows (run : gnssSystem.Exec history s) :
    (windowsOf (enqueued history)).1.take (decisions history).length = (windowsOf (processed history)).1 := by
  have count := (choosing_of_exec run).decided.length_eq
  obtain ⟨later, all⟩ := windowsOf_prefix (processed history) (inFlight history)
  rw [(ordered_of_exec run).processed_append_inFlight] at all
  rw [← all, count, List.take_left]

/-- What has been published are the choices taken so far, but for the one that
    is still to be written, and every choice is a candidate of its own window. -/
theorem published_sublist (run : gnssSystem.Exec history s) :
    (published history).Sublist (candidatesOf (enqueued history)) := by
  have choosing := choosing_of_exec run
  have chosen : ((decisions history).filterMap (·.best)).Sublist
      (windowsOf (processed history)).1.flatten := by
    have decided := choosing.decided
    generalize decisions history = taken at decided ⊢
    generalize (windowsOf (processed history)).1 = windows at decided ⊢
    induction decided with
    | nil => exact List.Sublist.slnil
    | @cons decision window rest others first _ ih =>
        cases best : decision.best with
        | none =>
            rw [List.filterMap_cons_none best, List.flatten_cons]
            exact ih.trans (List.sublist_append_right _ _)
        | some c =>
            rw [List.filterMap_cons_some best, List.flatten_cons]
            have mem : c ∈ window := (mem_of_bestOf (first.best.symm.trans best)).1
            exact List.Sublist.append (List.singleton_sublist.mpr mem) ih
  have processed : (windowsOf (processed history)).1.flatten.Sublist (candidatesOf (enqueued history)) := by
    rw [← (ordered_of_exec run).processed_append_inFlight, candidatesOf_append, ← windowsOf_flatten,
      List.append_assoc]
    exact List.sublist_append_left _ _
  have sent := chosen.trans processed
  rw [← choosing.written] at sent
  exact (List.sublist_append_left _ _).trans sent

/-- Every marker consumed so far was answered by the first candidate of lowest
    HDOP among those sent since the marker before it whose epoch is the one
    read; without such a candidate nothing was published. No candidate sent is
    published twice. -/
theorem publications_choose_best (run : gnssSystem.Exec history s) :
    List.Forall₂ (fun decision window => decision.best = bestOf decision.inputEpoch window)
        (decisions history) ((windowsOf (enqueued history)).1.take (decisions history).length) ∧
      (decisions history).map (·.marker.entry) <+: markersOf (enqueued history) ∧
      published history ++ s.filter.unwritten.toList = (decisions history).filterMap (·.best) ∧
      (published history).Sublist (candidatesOf (enqueued history)) ∧
      ∀ c publication, .published c publication ∈ history →
        publication.data = c.gga ++ c.rmc ∧ publication.hdopMilli = c.hdopMilli := by
  have choosing := choosing_of_exec run
  refine ⟨?_, ?_, choosing.written, published_sublist run, fun c publication mem => ?_⟩
  · rw [decidedWindows run]
    exact choosing.decided.imp fun _ _ decided => decided.best
  · rw [choosing.markers, ← (ordered_of_exec run).processed_append_inFlight, markersOf_append]
    exact List.prefix_append _ _
  · have sound := genuinePublication_of_exec run c publication mem
    exact ⟨sound.data, sound.hdopMilli⟩

end Run

theorem uploadRun_chooses :
    (published (uploadRun.get uploadRun_isSome).2).Sublist
      (candidatesOf (enqueued (uploadRun.get uploadRun_isSome).2)) :=
  (publications_choose_best uploadRun_exec).2.2.2.1

section Upload

variable {history : List GnssEvent} {s : GnssStack}

theorem Decided.best_le {decision : Decision} {window : List Candidate} (h : Decided decision window)
    {c : Candidate} (mem : c ∈ window) (uploaded : c.source = .override) :
    ∃ best, decision.best = some best ∧ best.source = .override ∧ best.session = c.session ∧
      best.hdopMilli ≤ c.hdopMilli := by
  obtain ⟨session, source, origin⟩ := h.origin
  have during : c.session = session := (origin c mem).2.2 uploaded
  have current : c.inputEpoch = decision.inputEpoch := (origin c mem).1.mpr during
  have listed : c ∈ window.filter (·.inputEpoch = decision.inputEpoch) :=
    List.mem_filter.mpr ⟨mem, by simpa using current⟩
  cases best : decision.best with
  | none =>
      have empty : window.filter (·.inputEpoch = decision.inputEpoch) = [] :=
        List.argmin_eq_none.mp (h.best.symm.trans best)
      rw [empty] at listed
      cases listed
  | some best' =>
      have chosen : bestOf decision.inputEpoch window = some best' := h.best.symm.trans best
      obtain ⟨member, epoch⟩ := mem_of_bestOf chosen
      have same : best'.session = session := (origin best' member).1.mp epoch
      refine ⟨best', rfl, ?_, same.trans during.symm, ?_⟩
      · rw [(origin best' member).2.1 same, ← (origin c mem).2.1 during, uploaded]
      · exact hdopMilli_le_of_argmin chosen listed

/-- When an override hands the parser back, every candidate sent has been in the
    window of a decision, and every choice has been written. -/
theorem decided_when_closed (run : gnssSystem.Exec history s) {task : Nat} {s' : GnssStack}
    {events : List GnssEvent} (closes : s.next (.endClose task) = some (s', events)) :
    candidatesOf (enqueued history) = (windowsOf (processed history)).1.flatten ∧
      published history = (decisions history).filterMap (·.best) := by
  obtain ⟨-, drained, output, -⟩ := (handshake_of_exec run).of_done (.inr (call_of_endClose closes))
  have output : s.filter.pc.output = .choosing := output
  have flight : candidatesOf (inFlight history) = [] := drained.candidates
  have window : (windowsOf (processed history)).2 = [] := drained.window
  constructor
  · rw [← (ordered_of_exec run).processed_append_inFlight, candidatesOf_append, flight,
      ← windowsOf_flatten, window, List.append_nil, List.append_nil]
  · have written := (choosing_of_exec run).written
    rw [FilterTask.unwritten, output] at written
    exact (List.append_nil _).symm.trans written

/-- An uploaded candidate that was sent is beaten, before the override ends, by
    the published one of its window. -/
theorem published_le_of_uploaded (run : gnssSystem.Exec history s) {task : Nat} {s' : GnssStack}
    {events : List GnssEvent} (closes : s.next (.endClose task) = some (s', events)) {c : Candidate}
    (sent : c ∈ candidatesOf (enqueued history)) (uploaded : c.source = .override) :
    ∃ best ∈ published history, best.source = .override ∧ best.session = c.session ∧
      best.hdopMilli ≤ c.hdopMilli := by
  obtain ⟨windows, written⟩ := decided_when_closed run closes
  have decided := (choosing_of_exec run).decided
  rw [windows, List.mem_flatten] at sent
  rw [written]
  obtain ⟨window, listed, mem⟩ := sent
  generalize decisions history = taken at decided ⊢
  generalize (windowsOf (processed history)).1 = all at decided listed
  induction decided with
  | nil => cases listed
  | @cons decision first rest others here _ ih =>
      cases listed with
      | head =>
          obtain ⟨best, chosen, source, session, least⟩ := here.best_le mem uploaded
          refine ⟨best, ?_, source, session, least⟩
          rw [List.filterMap_cons_some chosen]
          exact List.mem_cons_self
      | tail _ later =>
          obtain ⟨best, published, facts⟩ := ih later
          refine ⟨best, ?_, facts⟩
          rw [List.filterMap_cons]
          split
          · exact published
          · exact List.mem_cons_of_mem _ published

/-- The choice of a window that takes every uploaded candidate in it into
    account. -/
def FullChoice (decision : Decision) (window : List Candidate) : Prop :=
  decision.best = bestOf decision.inputEpoch window ∧
    ∀ c ∈ window, c.source = .override → c.inputEpoch = decision.inputEpoch

theorem Decided.fullChoice {decision : Decision} {window : List Candidate} (h : Decided decision window) :
    FullChoice decision window := by
  obtain ⟨session, source, origin⟩ := h.origin
  exact ⟨h.best, fun c mem uploaded => (origin c mem).1.mpr ((origin c mem).2.2 uploaded)⟩

/-- A completed pair is sent, or dropped because the candidate queue is full. -/
theorem sent_or_dropped {source : Source} {byte : UInt8} {rest : List UInt8}
    {parserState : NmeaParserState} {pair : GnssCandidate} {s' : GnssStack} {events : List GnssEvent}
    (held : s.mutex = some ⟨source, byte :: rest⟩)
    (fed : nmeaParserFeedByte s.input.inputEpoch s.input.parserState byte = some (parserState, some pair))
    (step : s.next .feedByte = some (s', events)) :
    (s.queueSet.member .candidate).items.length < 8 ∧
        .enqueued (.candidate { pair with source, session := s.session }) ∈ events ∨
      (s.queueSet.member .candidate).items.length = 8 ∧
        .dropped { pair with source, session := s.session } ∈ events := by
  simp only [GnssStack.next, GnssStack.feedByte, held, fed, GnssStack.candidateSend] at step
  cases sent : s.queueSet.send .candidate { pair with source, session := s.session } with
  | none =>
      rw [sent] at step
      cases step
      exact .inr ⟨BoundedQueue.send_eq_none (Option.map_eq_none_iff.mp sent), by simp⟩
  | some queueSet =>
      rw [sent] at step
      cases step
      obtain ⟨queue, added, -⟩ := Option.map_eq_some_iff.mp sent
      exact .inl ⟨(BoundedQueue.send_eq_some added).1, by simp⟩

/-- A pair that the parser completes is dropped only when the candidate queue
    holds eight. Every other uploaded pair takes part in the choice of one window
    before the override ends, and one with the lowest HDOP of them is published. -/
theorem uploaded_pairs_decided (run : gnssSystem.Exec history s) :
    (∀ source byte rest parserState pair s' events, s.mutex = some ⟨source, byte :: rest⟩ →
      nmeaParserFeedByte s.input.inputEpoch s.input.parserState byte = some (parserState, some pair) →
      s.next .feedByte = some (s', events) →
      (s.queueSet.member .candidate).items.length < 8 ∧
          .enqueued (.candidate { pair with source, session := s.session }) ∈ events ∨
        (s.queueSet.member .candidate).items.length = 8 ∧
          .dropped { pair with source, session := s.session } ∈ events) ∧
    (∀ task s' events, s.next (.endClose task) = some (s', events) →
      let windows := (windowsOf (enqueued history)).1.take (decisions history).length
      List.Forall₂ FullChoice (decisions history) windows ∧
        candidatesOf (enqueued history) = windows.flatten ∧
        published history = (decisions history).filterMap (·.best) ∧
        ∀ c ∈ candidatesOf (enqueued history), c.source = .override → c.session = s.session →
          ∃ best ∈ published history, best.source = .override ∧ best.session = s.session ∧
            ∀ other ∈ candidatesOf (enqueued history), other.source = .override →
              other.session = s.session → best.hdopMilli ≤ other.hdopMilli) := by
  refine ⟨fun source byte rest parserState pair s' events held fed step => sent_or_dropped held fed step,
    fun task s' events closes => ?_⟩
  obtain ⟨all, written⟩ := decided_when_closed run closes
  dsimp only
  rw [decidedWindows run]
  refine ⟨(choosing_of_exec run).decided.imp fun _ _ decided => decided.fullChoice, all, written, ?_⟩
  intro c sent uploaded session
  -- The best of the window of a lowest candidate of the upload is as low as that one.
  let upload := (candidatesOf (enqueued history)).filter fun c => c.source = .override ∧ c.session = s.session
  have listed : ∀ c, c ∈ upload ↔
      c ∈ candidatesOf (enqueued history) ∧ c.source = .override ∧ c.session = s.session := by
    intro c
    simp [upload]
  cases lowest : upload.argmin fun c : Candidate => c.hdopMilli with
  | none =>
      have mem : c ∈ upload := (listed c).mpr ⟨sent, uploaded, session⟩
      rw [List.argmin_eq_none.mp lowest] at mem
      cases mem
  | some least =>
      obtain ⟨sent, uploaded, session⟩ := (listed least).mp (List.argmin_mem lowest)
      obtain ⟨best, mem, source, during, le⟩ := published_le_of_uploaded run closes sent uploaded
      refine ⟨best, mem, source, during.trans session, fun other otherSent otherUploaded otherSession => ?_⟩
      exact le.trans
        (hdopMilli_le_of_argmin lowest ((listed other).mpr ⟨otherSent, otherUploaded, otherSession⟩))

end Upload

theorem uploadRun_decided : candidatesOf (enqueued (uploadRun.get uploadRun_isSome).2) =
    ((windowsOf (enqueued (uploadRun.get uploadRun_isSome).2)).1.take
      (decisions (uploadRun.get uploadRun_isSome).2).length).flatten := by
  have closes : ((uploadRun.get uploadRun_isSome).1.next (.endClose 0)).isSome = true := by
    decide +kernel
  obtain ⟨⟨s', events⟩, h⟩ := Option.isSome_iff_exists.mp closes
  exact ((uploaded_pairs_decided uploadRun_exec).2 0 s' events h).2.1

/-! A run in which the best pair is lost: ten pairs arrive in one call while the
filter task waits for the mutex with the first of them in its hands. -/

/-- `$,,GGA,,,,,,0*71` -/
def lowestGga : List UInt8 := [36, 44, 44, 71, 71, 65, 44, 44, 44, 44, 44, 44, 48, 42, 55, 49, 10]

def overflowUpload : List UInt8 :=
  (List.replicate 9 (sampleGga ++ sampleRmc)).flatten ++ lowestGga ++ sampleRmc

def lostCandidate : Candidate := ⟨⟨lowestGga, sampleRmc, 0, 2⟩, .override, 1⟩

def overflowSchedule : List GnssAction := List.flatten
  [[.overrideBegin, .overrideFeed overflowUpload],
    List.replicate (sampleGga ++ sampleRmc).length .feedByte, [.filterStep, .filterStep],
    List.replicate (overflowUpload.length - (sampleGga ++ sampleRmc).length) .feedByte,
    [.feedReturn, .endEnter 0, .endDiscard 0, .endSend 0],
    List.replicate (1 + 8 * 3 + 6) .filterStep, [.endTake 0]]

def overflowRun : Option (GnssStack × List GnssEvent) :=
  System.replay GnssStack.next .initial overflowSchedule

set_option maxRecDepth 8000 in
theorem overflowRun_isSome : overflowRun.isSome = true := by decide +kernel

set_option maxRecDepth 8000 in
/-- The pair of lowest HDOP is dropped, so the override ends without it in any
    window and with a higher one published. -/
theorem lowest_pair_lost : ∃ history s, gnssSystem.Exec history s ∧
    (s.next (.endClose 0)).isSome = true ∧ .dropped lostCandidate ∈ history ∧
    lostCandidate.source = .override ∧ lostCandidate.session = s.session ∧
    lostCandidate ∉ candidatesOf (enqueued history) ∧
    published history ≠ [] ∧ ∀ best ∈ published history, lostCandidate.hdopMilli < best.hdopMilli := by
  refine ⟨(overflowRun.get overflowRun_isSome).2, (overflowRun.get overflowRun_isSome).1,
    System.Exec.of_replay_isSome overflowRun_isSome, ?_⟩
  decide +kernel

end EspGnss.Gnss
