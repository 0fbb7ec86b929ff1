import EspGnss.Gnss.Integrity

/-! # Joining a stream late

A parser that starts somewhere in a stream, in the middle of a line or of a pair, misses
at most one pair of what a parser emits that has read the stream from its beginning.
-/

namespace EspGnss.Gnss

open Foundation Nmea

/-- Two parsers in the same line. -/
structure Level (early late : NmeaParserState) : Prop where
  inSentence : early.inSentence = late.inSentence
  sentence : early.inSentence = true → early.sentence = late.sentence

/-- Two parsers that will emit the same. -/
structure Agree (early late : NmeaParserState) : Prop extends Level early late where
  hasPendingGga : early.hasPendingGga = late.hasPendingGga
  pendingGga : early.hasPendingGga = true →
    early.pendingGga = late.pendingGga ∧ early.pendingGgaHdopMilli = late.pendingGgaHdopMilli

/-- How far a parser can be behind another one: it has missed the beginning of a line, or the
    GGA line of a pair, or nothing. -/
inductive Behind (early late : NmeaParserState) : Prop
  | agree (agree : Agree early late)
  | pairing (level : Level early late) (nothing : late.hasPendingGga = false)
  | line (outside : late.inSentence = false) (nothing : late.hasPendingGga = false)

variable {early late : NmeaParserState}

section Complete

variable {line : List UInt8} {inputEpoch : UInt32}

/-- The two parsers at the end of the same line. -/
theorem Agree.complete (agree : Agree early late) (same : early.sentence = late.sentence) :
    Agree (early.complete inputEpoch).1.idle (late.complete inputEpoch).1.idle ∧
      (early.complete inputEpoch).2 = (late.complete inputEpoch).2 := by
  have pending := agree.hasPendingGga
  have kept := agree.pendingGga
  unfold NmeaParserState.complete
  rw [← same]
  split
  · exact ⟨⟨⟨rfl, nofun⟩, rfl, by simp [NmeaParserState.idle, same]⟩, rfl⟩
  · cases waiting : early.hasPendingGga with
    | false =>
        rw [waiting] at pending
        simp only [← pending, Bool.false_eq_true, if_false]
        exact ⟨⟨⟨rfl, nofun⟩, waiting.trans pending, fun has => absurd (waiting.symm.trans has) (by simp)⟩, trivial⟩
    | true =>
        obtain ⟨gga, hdop⟩ := kept waiting
        rw [waiting] at pending
        simp only [← pending, if_true, gga, hdop, same]
        exact ⟨⟨⟨rfl, nofun⟩, rfl, nofun⟩, trivial⟩
  · exact ⟨⟨⟨rfl, nofun⟩, pending, kept⟩, rfl⟩

/-- At the end of a line the early parser may emit a pair whose GGA line the late one has missed. -/
theorem complete_pairing (same : early.sentence = late.sentence) (nothing : late.hasPendingGga = false) :
    (late.complete inputEpoch).2 = none ∧
      (Agree (early.complete inputEpoch).1.idle (late.complete inputEpoch).1.idle ∨
        (early.complete inputEpoch).2 = none ∧ (late.complete inputEpoch).1.hasPendingGga = false) := by
  unfold NmeaParserState.complete
  rw [← same]
  split
  · exact ⟨rfl, .inl ⟨⟨rfl, nofun⟩, rfl, by simp [NmeaParserState.idle, same]⟩⟩
  · simp only [nothing, Bool.false_eq_true, if_false, true_and]
    split
    · exact .inl ⟨⟨rfl, nofun⟩, nothing.symm, nofun⟩
    · exact .inr ⟨rfl, trivial⟩
  · exact ⟨rfl, .inr ⟨rfl, nothing⟩⟩

/-- With a pair its GGA line is used up. -/
theorem complete_emits {state : NmeaParserState} {candidate : GnssCandidate}
    (emits : (state.complete inputEpoch).2 = some candidate) : (state.complete inputEpoch).1.hasPendingGga = false := by
  unfold NmeaParserState.complete at emits ⊢
  split at emits
  · cases emits
  · split at emits
    · rename_i pending
      rw [if_pos pending]
    · cases emits
  · cases emits

end Complete

theorem Agree.feed (agree : Agree early late) (inputEpoch : UInt32) (byte : UInt8) :
    Agree (early.feed inputEpoch byte).1 (late.feed inputEpoch byte).1 ∧
      (early.feed inputEpoch byte).2 = (late.feed inputEpoch byte).2 := by
  obtain ⟨inSentence, sentence, hasPendingGga, pendingGga, hdopMilli⟩ := early
  obtain ⟨_, sentence', _, pendingGga', hdopMilli'⟩ := late
  obtain ⟨⟨rfl, line⟩, rfl, pending⟩ := agree
  unfold NmeaParserState.feed
  split
  · exact ⟨⟨⟨rfl, fun _ => rfl⟩, rfl, pending⟩, rfl⟩
  split
  · exact ⟨⟨⟨rfl, line⟩, rfl, pending⟩, rfl⟩
  rename_i inside
  obtain rfl : sentence = sentence' := line (by simpa using inside)
  split
  · exact ⟨⟨⟨rfl, nofun⟩, rfl, pending⟩, rfl⟩
  dsimp only
  split
  · exact Agree.complete ⟨⟨rfl, fun _ => rfl⟩, rfl, pending⟩ rfl
  · exact ⟨⟨⟨rfl, fun _ => rfl⟩, rfl, pending⟩, rfl⟩

/-- A byte leaves the late parser as far behind as it was, or lets it catch up when the early
    one emits a pair that it has missed. -/
theorem Behind.feed (behind : Behind early late) (inputEpoch : UInt32) (byte : UInt8) :
    (early.feed inputEpoch byte).2 = (late.feed inputEpoch byte).2 ∧
        Agree (early.feed inputEpoch byte).1 (late.feed inputEpoch byte).1 ∨
      (late.feed inputEpoch byte).2 = none ∧
        (Agree (early.feed inputEpoch byte).1 (late.feed inputEpoch byte).1 ∨
          (early.feed inputEpoch byte).2 = none ∧
            Behind (early.feed inputEpoch byte).1 (late.feed inputEpoch byte).1) := by
  cases behind with
  | agree agree =>
      obtain ⟨after, same⟩ := agree.feed inputEpoch byte
      exact .inl ⟨same, after⟩
  | pairing level nothing =>
      obtain ⟨inSentence, sentence, hasPendingGga, pendingGga, hdopMilli⟩ := early
      obtain ⟨_, sentence', hasPendingGga', pendingGga', hdopMilli'⟩ := late
      obtain ⟨rfl, line⟩ := level
      unfold NmeaParserState.feed
      split
      · exact .inr ⟨rfl, .inr ⟨rfl, .pairing ⟨rfl, fun _ => rfl⟩ nothing⟩⟩
      split
      · exact .inr ⟨rfl, .inr ⟨rfl, .pairing ⟨rfl, line⟩ nothing⟩⟩
      rename_i inside
      obtain rfl : sentence = sentence' := line (by simpa using inside)
      split
      · exact .inr ⟨rfl, .inr ⟨rfl, .pairing ⟨rfl, nofun⟩ nothing⟩⟩
      dsimp only
      split
      · obtain ⟨silent, after⟩ := @complete_pairing ⟨inSentence, sentence ++ [byte], hasPendingGga, pendingGga, hdopMilli⟩
          ⟨inSentence, sentence ++ [byte], hasPendingGga', pendingGga', hdopMilli'⟩ inputEpoch rfl nothing
        rcases after with agree | ⟨quiet, still⟩
        · exact .inr ⟨silent, .inl agree⟩
        · exact .inr ⟨silent, .inr ⟨quiet, .pairing ⟨rfl, nofun⟩ still⟩⟩
      · exact .inr ⟨rfl, .inr ⟨rfl, .pairing ⟨rfl, fun _ => rfl⟩ nothing⟩⟩
  | line outside nothing =>
      obtain ⟨_, sentence', hasPendingGga', pendingGga', hdopMilli'⟩ := late
      obtain rfl : _ = false := outside
      obtain rfl : hasPendingGga' = false := nothing
      unfold NmeaParserState.feed
      split
      · exact .inr ⟨rfl, .inr ⟨rfl, .pairing ⟨rfl, fun _ => rfl⟩ rfl⟩⟩
      rw [if_pos (show (!false) = true from rfl)]
      split
      · exact .inr ⟨rfl, .inr ⟨rfl, .line rfl rfl⟩⟩
      split
      · exact .inr ⟨rfl, .inr ⟨rfl, .line rfl rfl⟩⟩
      dsimp only
      split
      · cases emitted : NmeaParserState.complete inputEpoch { early with sentence := early.sentence ++ [byte] } |>.2 with
        | none => exact .inr ⟨rfl, .inr ⟨rfl, .line rfl rfl⟩⟩
        | some candidate =>
            have used := complete_emits emitted
            exact .inr ⟨rfl, .inl ⟨⟨rfl, nofun⟩, used, fun has => absurd (used.symm.trans has) (by simp)⟩⟩
      · exact .inr ⟨rfl, .inr ⟨rfl, .line rfl rfl⟩⟩

theorem Agree.feedAll (agree : Agree early late) (inputEpoch : UInt32) (bytes : List UInt8) :
    (early.feedAll inputEpoch bytes).2 = (late.feedAll inputEpoch bytes).2 := by
  induction bytes generalizing early late with
  | nil => rfl
  | cons byte rest ih =>
      obtain ⟨after, same⟩ := agree.feed inputEpoch byte
      simp only [NmeaParserState.feedAll, same, ih after]

theorem Behind.feedAll (behind : Behind early late) (inputEpoch : UInt32) (bytes : List UInt8) :
    ∃ missed, missed.length ≤ 1 ∧
      (early.feedAll inputEpoch bytes).2 = missed ++ (late.feedAll inputEpoch bytes).2 := by
  induction bytes generalizing early late with
  | nil => exact ⟨[], Nat.zero_le _, rfl⟩
  | cons byte rest ih =>
      simp only [NmeaParserState.feedAll]
      rcases behind.feed inputEpoch byte with ⟨same, agree⟩ | ⟨silent, agree | ⟨quiet, still⟩⟩
      · refine ⟨[], Nat.zero_le _, ?_⟩
        rw [same, agree.feedAll, List.nil_append]
      · refine ⟨(early.feed inputEpoch byte).2.toList, ?_, ?_⟩
        · cases (early.feed inputEpoch byte).2 <;> simp
        · rw [silent, agree.feedAll]
          rfl
      · obtain ⟨missed, one, later⟩ := ih still
        refine ⟨missed, one, ?_⟩
        rw [quiet, silent, later]
        rfl

/-- A parser that starts anywhere in a stream emits what any other parser emits on the rest of
    the stream, but for at most one pair at its beginning, however each of them is fed. -/
theorem late_parser_misses_one (inputEpoch : UInt32) {early : NmeaParserState} (fits : early.Fits)
    (chunks pieces : List (List UInt8)) (same : chunks.flatten = pieces.flatten) :
    ∃ after emitted after' missed emitted', nmeaParserFeedCalls inputEpoch early chunks = some (after, emitted) ∧
      nmeaParserFeedCalls inputEpoch .reset pieces = some (after', emitted') ∧
        emitted = missed ++ emitted' ∧ missed.length ≤ 1 := by
  have behind : Behind early .reset := .line rfl rfl
  obtain ⟨missed, one, emitted⟩ := behind.feedAll inputEpoch pieces.flatten
  rw [← same] at emitted
  have early := nmeaParserFeedCalls_spec inputEpoch fits chunks
  have late := nmeaParserFeedCalls_spec inputEpoch .reset pieces
  rw [← same] at late
  exact ⟨_, _, _, missed, _, early, late, emitted, one⟩

/-- A parser that starts between the two lines of a pair. -/
theorem late_parser_misses_pair : ∃ after emitted after' missed emitted',
    nmeaParserFeedCalls 7 ⟨false, [], true, sampleGga, 1000⟩ [sampleRmc] = some (after, emitted) ∧
      nmeaParserFeedCalls 7 .reset [sampleRmc.take 3, sampleRmc.drop 3] = some (after', emitted') ∧
        emitted = missed ++ emitted' ∧ missed.length ≤ 1 :=
  late_parser_misses_one 7 ⟨by decide, by decide⟩ [sampleRmc] [sampleRmc.take 3, sampleRmc.drop 3] (by simp)

end EspGnss.Gnss
