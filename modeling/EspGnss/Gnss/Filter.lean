import EspGnss.Foundation.QueueSet
import EspGnss.Gnss.Input

/-! # The filter task

The data of the queues between the parser and the filter task, and the local
computations of `gnss_filter_task`: choosing among candidates and building a
publication.
-/

namespace EspGnss.Gnss

open Foundation Nmea

/-- Who feeds the parser. -/
inductive Source where
  | uart
  | override
  deriving DecidableEq, Repr

/-- A candidate with its origin. `source` and `session` are auxiliary: the
    program has no such fields and nothing below reads them. -/
structure Candidate extends GnssCandidate where
  source : Source
  session : Nat
  deriving DecidableEq, Repr

/-- `s_candidate_queue`, `s_timer_event_queue` and `s_filter_control_queue`. -/
inductive FilterMember where
  | candidate
  | timer
  | control
  deriving DecidableEq, Repr

namespace FilterMember

instance : Fintype FilterMember :=
  ⟨{candidate, timer, control}, fun member => by cases member <;> decide⟩

/-- The content of a timer event is never read. -/
abbrev Item : FilterMember → Type
  | candidate => Candidate
  | timer => Unit
  | control => GnssFilterControl

/-- `GNSS_CANDIDATE_QUEUE_LENGTH`, `GNSS_TIMER_EVENT_QUEUE_LENGTH` and
    `GNSS_FILTER_CONTROL_QUEUE_LENGTH`. -/
abbrev queueLength : FilterMember → Nat
  | candidate => 8
  | timer => 1
  | control => 1

instance : (m : FilterMember) → DecidableEq (Item m)
  | candidate => inferInstanceAs (DecidableEq Candidate)
  | timer => inferInstanceAs (DecidableEq Unit)
  | control => inferInstanceAs (DecidableEq GnssFilterControl)

end FilterMember

abbrev FilterQueueSet := QueueSet FilterMember FilterMember.Item FilterMember.queueLength (8 + 1 + 1)

/-- An item with the queue it is sent to. -/
abbrev Entry := Σ m : FilterMember, m.Item

abbrev Entry.candidate (c : Candidate) : Entry := ⟨.candidate, c⟩
abbrev Entry.timer : Entry := ⟨.timer, ()⟩
abbrev Entry.control (control : GnssFilterControl) : Entry := ⟨.control, control⟩

/-- What makes the filter task call `publish_best_candidate`. -/
inductive Marker where
  | timer
  | flush (control : GnssFilterControl)
  deriving DecidableEq, Repr

abbrev Marker.entry : Marker → Entry
  | timer => .timer
  | flush control => .control control

/-- `GNSS_PUBLICATION_MAX_LEN` -/
def gnssPublicationMaxLen : Nat := gnssNmeaMaxSentenceLen * 2

/-- `gnss_publication_t`; `data` is the used part of its array. -/
structure GnssPublication where
  sequence : UInt32
  len : UInt16
  hdopMilli : Int
  data : List UInt8
  deriving DecidableEq, Repr

/-- A best candidate of another input epoch is given up. -/
def dropStale (inputEpoch : UInt32) : Option Candidate → Option Candidate
  | some best => if best.inputEpoch ≠ inputEpoch then none else some best
  | none => none

/-- `consider_candidate` after its read of `s_input_epoch`: the new best
    candidate. -/
def considerCandidate (inputEpoch : UInt32) (bestCandidate : Option Candidate)
    (candidate : Candidate) : Option Candidate :=
  if candidate.inputEpoch ≠ inputEpoch then bestCandidate
  else
    match dropStale inputEpoch bestCandidate with
    | none => some candidate
    | some best => if candidate.hdopMilli < best.hdopMilli then some candidate else some best

/-- The publication that `publish_best_candidate` assembles; `none` when a copy
    leaves its array. -/
def publicationOf (sequence : UInt32) (best : GnssCandidate) : Option GnssPublication := do
  let data ← Memory.append gnssPublicationMaxLen [] best.gga
  let data ← Memory.append gnssPublicationMaxLen data best.rmc
  return {
    sequence
    len := UInt16.ofNat (best.gga.length + best.rmc.length)
    hdopMilli := best.hdopMilli
    data }

/-- Where `gnss_filter_task` stands: its next operation on shared state. -/
inductive FilterPc where
  /-- `xQueueSelectFromSet` -/
  | selecting
  /-- `xQueueReceive` from the selected queue. -/
  | receiving (member : FilterMember)
  /-- `consider_candidate`, before its read of the epoch. -/
  | considering (candidate : Candidate)
  /-- The comparison of the epoch of a flush with the current one. -/
  | checkingFlush (control : GnssFilterControl)
  /-- `publish_best_candidate`, before its read of the epoch. -/
  | publishing (marker : Marker)
  /-- `publish_best_candidate`, before `xQueueOverwrite`. -/
  | writing (marker : Marker)
  /-- `xSemaphoreGive(s_override_flush_done)` -/
  | acknowledging
  deriving DecidableEq, Repr

/-- The entry that has been received and not processed yet. -/
def FilterPc.hand : FilterPc → List Entry
  | considering candidate => [.candidate candidate]
  | checkingFlush control => [.control control]
  | publishing marker => [marker.entry]
  | selecting | receiving _ | writing _ | acknowledging => []

/-- The queue whose readiness entry has been taken. -/
def FilterPc.selected : FilterPc → Option FilterMember
  | receiving member => some member
  | selecting | considering _ | checkingFlush _ | publishing _ | writing _ | acknowledging => none

/-- What follows a call of `publish_best_candidate`. -/
def Marker.resume : Marker → FilterPc
  | timer => .selecting
  | flush _ => .acknowledging

/-- The local variables of `gnss_filter_task`; `bestCandidate` is `none` when
    `has_best_candidate` is false. -/
structure FilterTask where
  pc : FilterPc
  bestCandidate : Option Candidate
  nextSequence : UInt32
  deriving DecidableEq, Repr

theorem gnssInputEpochAdvance_ne_zero (inputEpoch : UInt32) : gnssInputEpochAdvance inputEpoch ≠ 0 := by
  unfold gnssInputEpochAdvance
  split
  · rename_i wrapped
    rw [wrapped]
    decide
  · assumption

theorem gnssInputEpochAdvance_ne_self (inputEpoch : UInt32) :
    gnssInputEpochAdvance inputEpoch ≠ inputEpoch := by
  unfold gnssInputEpochAdvance
  intro same
  split at same
  · rename_i wrapped
    rw [wrapped] at same
    subst same
    exact absurd wrapped (by decide)
  · have values := congrArg UInt32.toNat same
    rw [UInt32.toNat_add] at values
    have bound := inputEpoch.toNat_lt
    have one : (1 : UInt32).toNat = 1 := rfl
    rw [one] at values
    omega

theorem dropStale_eq_some {inputEpoch : UInt32} {best : Option Candidate} {candidate : Candidate}
    (h : dropStale inputEpoch best = some candidate) :
    best = some candidate ∧ candidate.inputEpoch = inputEpoch := by
  cases best with
  | none => cases h
  | some best =>
      simp only [dropStale] at h
      split at h
      · cases h
      · rename_i same
        cases h
        exact ⟨rfl, Decidable.not_not.mp same⟩

/-- The best candidate is the one just considered or the one before it. -/
theorem considerCandidate_eq_some {inputEpoch : UInt32} {best : Option Candidate}
    {candidate kept : Candidate} (h : considerCandidate inputEpoch best candidate = some kept) :
    kept = candidate ∨ best = some kept := by
  unfold considerCandidate at h
  split at h
  · exact .inr h
  · split at h
    · cases h
      exact .inl rfl
    · rename_i earlier fresh
      split at h
      · cases h
        exact .inl rfl
      · cases h
        exact .inr (dropStale_eq_some fresh).1

theorem publicationOf_spec (sequence : UInt32) {best : GnssCandidate}
    (gga : best.gga.length ≤ gnssNmeaMaxSentenceLen)
    (rmc : best.rmc.length ≤ gnssNmeaMaxSentenceLen) :
    publicationOf sequence best = some {
      sequence
      len := UInt16.ofNat (best.gga.length + best.rmc.length)
      hdopMilli := best.hdopMilli
      data := best.gga ++ best.rmc } := by
  have room : gnssPublicationMaxLen = gnssNmeaMaxSentenceLen * 2 := rfl
  have first : Memory.append gnssPublicationMaxLen [] best.gga = some best.gga :=
    Memory.append_inside (by rw [List.length_nil, room]; omega)
  have second : Memory.append gnssPublicationMaxLen best.gga best.rmc = some (best.gga ++ best.rmc) :=
    Memory.append_inside (by rw [room]; omega)
  simp only [publicationOf, first, second, Option.bind_eq_bind, Option.bind_some, Option.pure_def]

end EspGnss.Gnss
