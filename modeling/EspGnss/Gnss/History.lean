import Mathlib.Data.List.MinMax
import EspGnss.Gnss.Transition

/-! # What a run of the GNSS stack has sent and processed

The entries sent to the queue set, those the filter task has processed, and
those still in flight between the two, as functions of the history of a run.
The filter task receives entries in the order in which they were sent.
-/

namespace EspGnss.Gnss

open Foundation Nmea

/-- The new items of the queue set, in sending order. -/
def enqueued (history : List GnssEvent) : List Entry :=
  history.filterMap fun
    | .enqueued entry => some entry
    | _ => none

/-- The items that the filter task is done with. -/
def processed (history : List GnssEvent) : List Entry :=
  history.filterMap fun
    | .considered candidate => some (.candidate candidate)
    | .ignored control => some (.control control)
    | .decided marker _ _ => some marker.entry
    | _ => none

/-- The items sent and not processed yet. -/
def inFlight (history : List GnssEvent) : List Entry :=
  (enqueued history).drop (processed history).length

/-- The candidates among some entries. -/
def candidatesOf (entries : List Entry) : List Candidate :=
  QueueSet.itemsOf FilterMember.candidate entries

theorem enqueued_append (history events : List GnssEvent) :
    enqueued (history ++ events) = enqueued history ++ enqueued events :=
  List.filterMap_append

theorem processed_append (history events : List GnssEvent) :
    processed (history ++ events) = processed history ++ processed events :=
  List.filterMap_append

theorem mem_candidatesOf {candidate : Candidate} {entries : List Entry} :
    candidate ∈ candidatesOf entries ↔ Entry.candidate candidate ∈ entries :=
  QueueSet.mem_itemsOf

/-- The windows that markers end, and the one still open. -/
def windowStep : List (List Candidate) × List Candidate → Entry → List (List Candidate) × List Candidate
  | (closed, opened), ⟨.candidate, candidate⟩ => (closed, opened ++ [candidate])
  | (closed, opened), ⟨.timer, _⟩ | (closed, opened), ⟨.control, _⟩ => (closed ++ [opened], [])

def windowsOf (entries : List Entry) : List (List Candidate) × List Candidate :=
  entries.foldl windowStep ([], [])

theorem windowsOf_candidate (entries : List Entry) (candidate : Candidate) :
    windowsOf (entries ++ [.candidate candidate]) =
      ((windowsOf entries).1, (windowsOf entries).2 ++ [candidate]) := by
  rw [windowsOf, List.foldl_append]
  rfl

theorem windowsOf_marker (entries : List Entry) (marker : Marker) :
    windowsOf (entries ++ [marker.entry]) =
      ((windowsOf entries).1 ++ [(windowsOf entries).2], []) := by
  rw [windowsOf, List.foldl_append]
  cases marker <;> rfl

/-- The candidates considered since the last marker. -/
def openWindow (history : List GnssEvent) : List Candidate :=
  (windowsOf (processed history)).2

/-- Entries are processed in sending order: those in flight are the one in the
    hands of the filter task and then what the queues hold. -/
def Ordered (history : List GnssEvent) (s : GnssStack) : Prop :=
  ∃ pending, enqueued history = processed history ++ (s.filter.pc.hand ++ pending) ∧
    s.queueSet.Represents s.filter.pc.selected pending

theorem queueSet_long : ∑ member, FilterMember.queueLength member ≤ 8 + 1 + 1 := by decide

@[simp] theorem Marker.resume_hand (marker : Marker) : marker.resume.hand = [] := by
  cases marker <;> rfl

@[simp] theorem Marker.resume_selected (marker : Marker) : marker.resume.selected = none := by
  cases marker <;> rfl

/-- What the filter task does next with an entry it has received. -/
def Entry.received : Entry → FilterPc
  | ⟨.candidate, candidate⟩ => .considering candidate
  | ⟨.timer, _⟩ => .publishing .timer
  | ⟨.control, control⟩ => .checkingFlush control

@[simp] theorem Entry.received_hand (entry : Entry) : entry.received.hand = [entry] := by
  obtain ⟨member, item⟩ := entry
  cases member <;> rfl

@[simp] theorem Entry.received_selected (entry : Entry) : entry.received.selected = none := by
  obtain ⟨member, item⟩ := entry
  cases member <;> rfl

@[simp] theorem GnssStack.goto_pc (s : GnssStack) (pc : FilterPc) : (s.goto pc).filter.pc = pc := rfl

/-- A receive finds the oldest entry of all in the queue that was selected. -/
theorem receiveSelected_spec {s : GnssStack} {member : FilterMember} {log : List Entry}
    (represents : s.queueSet.Represents (some member) log) :
    ∃ entry rest queueSet, log = entry :: rest ∧
      s.receiveSelected member = { s with queueSet }.goto entry.received ∧
      queueSet.Represents none rest := by
  obtain ⟨item, rest, queueSet, log, received, remaining⟩ := represents.receive
  refine ⟨⟨member, item⟩, rest, queueSet, log, ?_, remaining⟩
  cases member with
  | candidate => simp only [GnssStack.receiveSelected, received, Entry.received]
  | timer => simp only [GnssStack.receiveSelected, received, Entry.received]
  | control => simp only [GnssStack.receiveSelected, received, Entry.received]

namespace Ordered

variable {history events : List GnssEvent} {s s' : GnssStack} {action : GnssAction}

theorem inFlight (h : Ordered history s) :
    ∃ pending, inFlight history = s.filter.pc.hand ++ pending ∧
      s.queueSet.Represents s.filter.pc.selected pending := by
  obtain ⟨pending, sent, represents⟩ := h
  refine ⟨pending, ?_, represents⟩
  rw [Gnss.inFlight, sent, List.drop_left]

theorem inFlight_same (sent : enqueued events = []) (done : processed events = []) :
    Gnss.inFlight (history ++ events) = Gnss.inFlight history := by
  rw [Gnss.inFlight, enqueued_append, processed_append, sent, done, List.append_nil, List.append_nil]
  rfl

theorem inFlight_sends (h : Ordered history s) {entry : Entry} (sent : enqueued events = [entry])
    (done : processed events = []) :
    Gnss.inFlight (history ++ events) = Gnss.inFlight history ++ [entry] := by
  obtain ⟨pending, order, -⟩ := h
  rw [Gnss.inFlight, Gnss.inFlight, enqueued_append, processed_append, sent, done, List.append_nil,
    order, List.append_assoc, List.drop_left, List.drop_left]

/-- The entry in hand is the oldest in flight. -/
theorem inFlight_finishes (h : Ordered history s) {entry : Entry} (sent : enqueued events = [])
    (done : processed events = [entry]) (held : s.filter.pc.hand = [entry]) :
    Gnss.inFlight history = entry :: Gnss.inFlight (history ++ events) := by
  obtain ⟨pending, order, -⟩ := h
  have later : Gnss.inFlight (history ++ events) = pending := by
    rw [Gnss.inFlight, enqueued_append, processed_append, sent, done, List.append_nil, order, held,
      ← List.append_assoc, List.drop_left]
  rw [later, Gnss.inFlight, order, held, List.drop_left]
  rfl

theorem processed_append_inFlight (h : Ordered history s) :
    processed history ++ Gnss.inFlight history = enqueued history := by
  obtain ⟨pending, sent, -⟩ := h
  rw [Gnss.inFlight, sent, List.drop_left]

/-- A step that touches neither the queue set nor the position of the filter
    task in it. -/
theorem same (h : Ordered history s) (sent : enqueued events = []) (done : processed events = [])
    (queueSet : s'.queueSet = s.queueSet) (hand : s'.filter.pc.hand = s.filter.pc.hand)
    (selected : s'.filter.pc.selected = s.filter.pc.selected) : Ordered (history ++ events) s' := by
  obtain ⟨pending, order, represents⟩ := h
  refine ⟨pending, ?_, ?_⟩
  · rw [enqueued_append, processed_append, sent, done, hand, List.append_nil, List.append_nil, order]
  · rw [queueSet, selected]
    exact represents

/-- A step that sends an entry. -/
theorem sends (h : Ordered history s) {entry : Entry} (sent : enqueued events = [entry])
    (done : processed events = []) (filter : s'.filter = s.filter)
    (added : ∀ selected pending, s.queueSet.Represents selected pending →
      s'.queueSet.Represents selected (pending ++ [entry])) : Ordered (history ++ events) s' := by
  obtain ⟨pending, order, represents⟩ := h
  refine ⟨pending ++ [entry], ?_, ?_⟩
  · rw [enqueued_append, processed_append, sent, done, filter, order, List.append_nil]
    simp only [List.append_assoc]
  · rw [filter]
    exact added _ _ represents

/-- A step that finishes the entry in hand. -/
theorem finishes (h : Ordered history s) {entry : Entry} (sent : enqueued events = [])
    (done : processed events = [entry]) (held : s.filter.pc.hand = [entry])
    (released : s'.filter.pc.hand = []) (queueSet : s'.queueSet = s.queueSet)
    (selected : s'.filter.pc.selected = s.filter.pc.selected) : Ordered (history ++ events) s' := by
  obtain ⟨pending, order, represents⟩ := h
  refine ⟨pending, ?_, ?_⟩
  · rw [enqueued_append, processed_append, sent, done, order, held, released]
    simp only [List.append_assoc, List.append_nil, List.nil_append]
  · rw [queueSet, selected]
    exact represents

theorem receives (h : Ordered history s) {member : FilterMember}
    (pc : s.filter.pc = .receiving member) : Ordered (history ++ []) (s.receiveSelected member) := by
  obtain ⟨pending, order, represents⟩ := h
  rw [pc] at order represents
  obtain ⟨entry, rest, queueSet, rfl, received, remaining⟩ := receiveSelected_spec represents
  refine ⟨rest, ?_, ?_⟩
  · rw [List.append_nil, received, GnssStack.goto_pc, Entry.received_hand]
    exact order
  · rw [received, GnssStack.goto_pc, Entry.received_selected]
    exact remaining

theorem step (h : Ordered history s) (step : Transition s action s' events) :
    Ordered (history ++ events) s' := by
  cases step with
  | refused | initReset | uartFeed | overrideFeed | overrun | scanned | dropped | feedReturn
  | overrideBegin | endEnter | endDiscard | endTake | endClose | publicationReceive =>
      exact h.same rfl rfl rfl rfl rfl
  | paired _ _ added => exact h.sends rfl rfl rfl fun _ _ represents => represents.send queueSet_long added
  | endSend _ added => exact h.sends rfl rfl rfl fun _ _ represents => represents.send queueSet_long added
  | timerExpire vacant =>
      exact h.sends rfl rfl rfl fun _ _ represents =>
        represents.overwrite_empty queueSet_long rfl () vacant
  | timerCoalesced occupied =>
      obtain ⟨pending, order, represents⟩ := h
      have one : (s.queueSet.member .timer).items = [()] := by
        have bounded : (s.queueSet.member .timer).items.length ≤ 1 := (s.queueSet.member .timer).bounded
        cases items : (s.queueSet.member .timer).items with
        | nil => exact absurd items occupied
        | cons first rest =>
            rw [items, List.length_cons] at bounded
            obtain rfl := List.length_eq_zero_iff.mp (Nat.le_zero.mp (Nat.le_of_succ_le_succ bounded))
            rfl
      have unchanged : (s.queueSet.overwrite .timer rfl ()).Represents s.filter.pc.selected pending :=
        represents.overwrite_same (rfl : FilterMember.queueLength .timer = 1) () one
      rw [List.append_nil]
      exact ⟨pending, order, unchanged⟩
  | select pc selected =>
      obtain ⟨pending, order, represents⟩ := h
      rw [pc] at order represents
      rw [List.append_nil]
      exact ⟨pending, order, represents.select selected⟩
  | receive pc => exact h.receives pc
  | consider pc =>
      exact h.finishes rfl rfl (by rw [pc]; rfl) rfl rfl (by rw [pc]; rfl)
  | flush pc => exact h.same rfl rfl rfl (by rw [pc]; rfl) (by rw [pc]; rfl)
  | ignore pc => exact h.finishes rfl rfl (by rw [pc]; rfl) rfl rfl (by rw [pc]; rfl)
  | decideNone pc =>
      exact h.finishes rfl rfl (by rw [pc]; rfl) (Marker.resume_hand _) rfl
        (by rw [pc]; exact Marker.resume_selected _)
  | decide pc => exact h.finishes rfl rfl (by rw [pc]; rfl) rfl rfl (by rw [pc]; rfl)
  | miscopied pc =>
      exact h.same rfl rfl rfl (by rw [pc]; exact Marker.resume_hand _)
        (by rw [pc]; exact Marker.resume_selected _)
  | publish pc =>
      exact h.same rfl rfl rfl (by rw [pc]; exact Marker.resume_hand _)
        (by rw [pc]; exact Marker.resume_selected _)
  | acknowledge pc => exact h.same rfl rfl rfl (by rw [pc]; rfl) (by rw [pc]; rfl)

end Ordered

theorem ordered_of_exec {history : List GnssEvent} {s : GnssStack} (run : gnssSystem.Exec history s) :
    Ordered history s := by
  refine run.invariant (fun s start => ?_) (fun history s action s' events _ h step => ?_)
  · cases start
    exact ⟨[], rfl, QueueSet.represents_empty⟩
  · exact h.step (.of_next step)

end EspGnss.Gnss
