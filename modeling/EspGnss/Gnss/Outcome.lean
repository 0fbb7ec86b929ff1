import EspGnss.Gnss.Window
import EspGnss.Gnss.Sessions

/-! # What an upload has led to

Once `gnss_input_override_end` has handed the parser back, nothing is added to the session
of the upload: its bytes and pairs are what they were at that moment, and a pair that is as
good as any of those that reached the filter task has been published.
-/

namespace EspGnss.Gnss

open Foundation Nmea

variable {history events : List GnssEvent} {s s' : GnssStack} {action : GnssAction} {session : Nat}

/-- A step adds bytes and pairs to the session that is under way, and to no other. -/
structure Elsewhere (session : Nat) (events : List GnssEvent) : Prop where
  bytes : ∀ source, acceptedBytes session source events = []
  pairs : completedIn session events = []

theorem Elsewhere.append {later : List GnssEvent} (first : Elsewhere session events) (second : Elsewhere session later) :
    Elsewhere session (events ++ later) where
  bytes source := by rw [acceptedBytes_append, first.bytes, second.bytes, List.append_nil]
  pairs := by rw [completedIn_append, first.pairs, second.pairs, List.append_nil]

theorem elsewhere_of_next (next : s.next action = some (s', events)) (other : session ≠ s.session) :
    Elsewhere session events := by
  have byteElsewhere (source source' byte) :
      acceptedBytes session source' [.accepted s.session source byte] = [] := by
    rw [acceptedBytes_cons rfl, if_neg fun same => other same.1.symm]
  cases Transition.of_next next with
  | overrun | scanned => exact ⟨fun _ => byteElsewhere _ _ _, rfl⟩
  | paired | dropped =>
      constructor
      · intro source
        rw [acceptedBytes_cons rfl, if_neg fun same => other same.1.symm]
      · simp [completedIn, Ne.symm other]
  | endSend => exact ⟨fun _ => rfl, rfl⟩
  | _ => exact ⟨fun _ => rfl, rfl⟩

theorem session_le_of_next (next : s.next action = some (s', events)) : s.session ≤ s'.session := by
  cases Transition.of_next next with
  | overrideBegin | endClose => exact Nat.le_succ _
  | @receive member =>
      rw [s.receiveSelected_session member]
  | _ => exact Nat.le_refl _

/-- The step at which the session was closed, and what has happened since. -/
structure ClosedAt (session : Nat) (history : List GnssEvent) (s : GnssStack) (before later : List GnssEvent)
    (s₁ s₂ : GnssStack) (task : Nat) : Prop where
  run : gnssSystem.Exec before s₁
  under : s₁.session = session
  closes : s₁.next (.endClose task) = some (s₂, [.closed session])
  past : session < s.session
  history : history = before ++ .closed session :: later
  elsewhere : Elsewhere session later

theorem closedAt_of_exec (run : gnssSystem.Exec history s) : .closed session ∈ history →
    ∃ before later s₁ s₂ task, ClosedAt session history s before later s₁ s₂ task := by
  refine System.Exec.invariant (I := fun history s => .closed session ∈ history →
    ∃ before later s₁ s₂ task, ClosedAt session history s before later s₁ s₂ task) ?_ ?_ run
  · intro s start closed
    cases closed
  · intro history s action s' events earlier known next closed
    rcases List.mem_append.mp closed with old | now
    · obtain ⟨before, later, s₁, s₂, task, run, under, closes, past, rfl, elsewhere⟩ := known old
      refine ⟨before, later ++ events, s₁, s₂, task, run, under, closes, ?_, by simp, ?_⟩
      · exact Nat.lt_of_lt_of_le past (session_le_of_next next)
      · exact elsewhere.append (elsewhere_of_next next (Nat.ne_of_lt past))
    · cases transition : Transition.of_next next with
      | @endClose task free closing =>
          obtain rfl : session = s.session := by simpa using now
          exact ⟨history, [], s, _, task, earlier, rfl, next, Nat.lt_succ_self _, rfl, fun _ => rfl, rfl⟩
      | _ => simp at now

theorem mem_published {c : Candidate} : c ∈ published history ↔ ∃ publication, .published c publication ∈ history := by
  rw [published, List.mem_filterMap]
  constructor
  · rintro ⟨event, member, same⟩
    cases event with
    | published =>
        cases same
        exact ⟨_, member⟩
    | _ => cases same
  · rintro ⟨publication, member⟩
    exact ⟨_, member, rfl⟩

/-- What an upload of `bytes` in this session has led to. -/
structure UploadOutcome (session : Nat) (bytes : List UInt8) (history : List GnssEvent) : Prop where
  fed : acceptedBytes session .override history = bytes
  parsed : ∃ inputEpoch cut, SessionParsed session .override inputEpoch cut history
  /-- Every publication of the session has the lines of one of its pairs. -/
  genuine : ∀ c publication, .published c publication ∈ history → c.session = session →
    c ∈ completedIn session history ∧ publication.data = c.gga ++ c.rmc
  /-- Before the parser was handed back, a pair at least as good as any that reached the filter
      task had been published. -/
  best : ∃ before later, history = before ++ .closed session :: later ∧
    ∀ c, .enqueued (.candidate c) ∈ history → c.session = session →
      ∃ best publication, .published best publication ∈ before ∧ best.session = session ∧ best.hdopMilli ≤ c.hdopMilli

theorem uploadOutcome_of_closed (run : gnssSystem.Exec history s) (closed : .closed session ∈ history) :
    UploadOutcome session (acceptedBytes session .override history) history := by
  obtain ⟨before, later, s₁, s₂, task, ran, rfl, closes, past, split, elsewhere⟩ := closedAt_of_exec run closed
  have since : Elsewhere s₁.session ([.closed s₁.session] ++ later) := Elsewhere.append ⟨fun _ => rfl, rfl⟩ elsewhere
  have override : s₁.input.owner = .override := by
    have active : s₁.input.overrideActive = true := by
      cases Transition.of_next closes with
      | endClose free closing => exact ((handshake_of_exec ran).of_done (.inr closing)).1.active
    rw [GnssInput.owner, active]
    rfl
  obtain ⟨cuts, whole, -⟩ := parsed_of_exec ran
  have parsed := whole.current
  rw [override] at parsed
  have parsed : SessionParsed s₁.session .override s₁.input.inputEpoch (cuts s₁.session) history := by
    rw [split]
    exact parsed.quiet since.bytes since.pairs
  have completes {c : Candidate} (sent : .enqueued (.candidate c) ∈ history) (during : c.session = s₁.session) :
      c ∈ completedIn s₁.session history := mem_completedIn.mpr ⟨.inl sent, during⟩
  constructor
  · rfl
  · exact ⟨_, _, parsed⟩
  · intro c publication written during
    have sent := (published_sublist run).subset (mem_published.mpr ⟨publication, written⟩)
    have sent := mem_enqueued.mp (mem_candidatesOf.mp sent)
    exact ⟨completes sent during, (genuinePublication_of_exec run c publication written).data⟩
  · refine ⟨before, later, split, ?_⟩
    intro c sent during
    have member := completes sent during
    have uploaded : c.source = .override := by
      rw [parsed.completed] at member
      obtain ⟨pair, -, rfl⟩ := List.mem_map.mp member
      rfl
    have earlier : .enqueued (.candidate c) ∈ before := by
      rw [split] at sent
      rcases List.mem_append.mp sent with earlier | after
      · exact earlier
      · have nothing := since.pairs
        have wrong : c ∈ completedIn s₁.session ([.closed s₁.session] ++ later) :=
          mem_completedIn.mpr ⟨.inl after, during⟩
        rw [nothing] at wrong
        cases wrong
    have sent := mem_candidatesOf.mpr (mem_enqueued.mpr earlier)
    obtain ⟨best, written, -, same, least⟩ := published_le_of_uploaded ran closes sent uploaded
    obtain ⟨publication, happened⟩ := mem_published.mp written
    exact ⟨best, publication, happened, same.trans during, least⟩

end EspGnss.Gnss
