import EspGnss.Gnss.Reference

/-! # Which GGA line is paired

A GGA line without a usable HDOP field leaves the pairing state as it was, and so
does a line that exceeds the sentence buffer, so an earlier GGA line can still be
paired past them. This happens on exactly the streams in which such a line stands
between a usable one and its RMC line.
-/

namespace EspGnss.Gnss

open Foundation Nmea

/-- The last of the bytes fed, in any division into calls of `nmea_parser_feed`,
    makes the parser hand on a candidate. -/
def Emitted (inputEpoch : UInt32) (fed : List UInt8) (candidate : GnssCandidate) : Prop :=
  ∃ chunks byte state earlier after, fed = chunks.flatten ++ [byte] ∧
    nmeaParserFeedCalls inputEpoch .reset chunks = some (state, earlier) ∧
    nmeaParserFeedByte inputEpoch state byte = some (after, some candidate)

/-- The sentences of a stream with a valid checksum, whatever their length. -/
def validSentences (stream : List UInt8) : List (List UInt8) :=
  (lineFraming.delimited stream).filter ChecksumValid

/-- The valid sentences fed end with the lines of the candidate, and between the two is
    no other GGA or RMC sentence. -/
def Adjacent (fed : List UInt8) (candidate : GnssCandidate) : Prop :=
  ∃ before between, validSentences fed = before ++ candidate.gga :: between ++ [candidate.rmc] ∧
    lineType candidate.gga = ggaType ∧
    ∀ line ∈ between, lineType line ≠ ggaType ∧ lineType line ≠ rmcType

/-- Every candidate of a stream is a pair of adjacent lines. -/
def PairsAdjacent (inputEpoch : UInt32) (stream : List UInt8) : Prop :=
  ∀ fed, fed <+: stream → ∀ candidate, Emitted inputEpoch fed candidate → Adjacent fed candidate

/-- The line fits the sentence buffer. -/
def Fits (line : List UInt8) : Prop := line.length ≤ gnssNmeaMaxSentenceLen

instance : DecidablePred Fits := fun line => inferInstanceAs (Decidable (line.length ≤ gnssNmeaMaxSentenceLen))

/-- A line that leaves the pairing state as it is. -/
def PassedOver (line : List UInt8) : Prop := Fits line → ¬ IsUsableGga line ∧ lineType line ≠ rmcType

/-- A GGA or RMC line that does: it is overlong, or a GGA line that is not usable. -/
def IsSkipped (line : List UInt8) : Prop :=
  ¬ Fits line ∧ (lineType line = ggaType ∨ lineType line = rmcType) ∨
    lineType line = ggaType ∧ ¬ IsUsableGga line

/-- Some usable GGA line is followed, before any other one and any RMC line that fits,
    by a GGA or RMC line that is skipped, and then an RMC line that fits comes before
    another usable GGA line. -/
def SkipsLine (lines : List (List UInt8)) : Prop :=
  ∃ before gga between skipped rest rmc after,
    lines = before ++ gga :: (between ++ skipped :: rest) ++ rmc :: after ∧
    Fits gga ∧ IsUsableGga gga ∧ IsSkipped skipped ∧ Fits rmc ∧ lineType rmc = rmcType ∧
    ∀ line ∈ between ++ rest, PassedOver line

/-- `gga` is the last usable GGA line and no RMC line that fits has come after it. -/
def Waiting (lines : List (List UInt8)) (gga : List UInt8) : Prop :=
  ∃ before between, lines = before ++ gga :: between ∧ Fits gga ∧ IsUsableGga gga ∧
    ∀ line ∈ between, PassedOver line

/-- The pair that a line completes. -/
def completedPair (pending : Option (List UInt8)) (line : List UInt8) : Option Pair :=
  if IsUsableGga line then none
  else if lineType line = rmcType then pending.map fun gga => (gga, returnedHdop gga, line)
  else none

theorem pairStep_pairs (pending : Option (List UInt8)) (pairs : List Pair) (line : List UInt8) :
    (pairStep (pending, pairs) line).2 = pairs ++ (completedPair pending line).toList := by
  unfold pairStep completedPair
  cases pending <;> grind

theorem pairStep_pending (state : Option (List UInt8) × List Pair) (line : List UInt8) :
    (pairStep state line).1 =
      if IsUsableGga line then some line else if lineType line = rmcType then none else state.1 := by
  obtain ⟨pending, pairs⟩ := state
  unfold pairStep
  cases pending <;> grind

theorem not_waiting_nil (gga : List UInt8) : ¬ Waiting [] gga := by
  rintro ⟨before, between, empty, -⟩
  simp at empty

theorem waiting_snoc (lines : List (List UInt8)) (line gga : List UInt8) :
    Waiting (lines ++ [line]) gga ↔
      (line = gga ∧ Fits line ∧ IsUsableGga line) ∨ (Waiting lines gga ∧ PassedOver line) := by
  constructor
  · rintro ⟨before, between, split, fits, usable, quiet⟩
    rcases List.eq_nil_or_concat between with rfl | ⟨between, last, rfl⟩
    · obtain ⟨-, same⟩ := List.append_inj' split rfl
      obtain rfl := List.singleton_inj.mp same
      exact .inl ⟨rfl, fits, usable⟩
    · rw [List.concat_eq_append, ← List.cons_append, ← List.append_assoc] at split
      obtain ⟨same, last⟩ := List.append_inj' split rfl
      obtain rfl := List.singleton_inj.mp last
      rw [List.concat_eq_append, List.forall_mem_append] at quiet
      exact .inr ⟨⟨before, between, same, fits, usable, quiet.1⟩, quiet.2 line (List.mem_singleton_self _)⟩
  · rintro (⟨rfl, fits, usable⟩ | ⟨⟨before, between, rfl, fits, usable, quiet⟩, last⟩)
    · exact ⟨lines, [], rfl, fits, usable, by simp⟩
    · refine ⟨before, between ++ [line], by simp, fits, usable, ?_⟩
      rw [List.forall_mem_append]
      exact ⟨quiet, by simpa using last⟩

/-- What the pairing of the lines that fit keeps is the waiting line. -/
theorem pending_iff_waiting (lines : List (List UInt8)) (gga : List UInt8) :
    ((lines.filter Fits).foldl pairStep (none, [])).1 = some gga ↔ Waiting lines gga := by
  induction lines using List.reverseRecOn with
  | nil => simp [not_waiting_nil]
  | append_singleton lines line ih =>
      rw [List.filter_append, List.foldl_append, waiting_snoc, ← ih]
      by_cases fits : Fits line
      · rw [List.filter_singleton, decide_eq_true fits, cond_true, List.foldl_cons, List.foldl_nil,
          pairStep_pending]
        unfold PassedOver
        grind
      · rw [List.filter_singleton, decide_eq_false fits, cond_false, List.foldl_nil]
        simp [fits, PassedOver]

/-- The valid lines are the valid sentences that fit. -/
theorem validLines_eq_filter (stream : List UInt8) : validLines stream = (validSentences stream).filter Fits := by
  rw [validLines, validSentences, lineFraming.frames_eq_filter, List.filter_comm]
  rfl

/-- A byte completes at most one valid sentence. -/
theorem validSentences_snoc_cases (stream : List UInt8) (byte : UInt8) :
    validSentences (stream ++ [byte]) = validSentences stream ∨
      ∃ line, validSentences (stream ++ [byte]) = validSentences stream ++ [line] := by
  unfold validSentences
  rcases lineFraming.delimited_snoc_cases stream byte with same | ⟨line, more⟩
  · exact .inl (by rw [same])
  · rw [more, List.filter_append]
    by_cases valid : ChecksumValid line
    · exact .inr ⟨line, by simp [valid]⟩
    · exact .inl (by simp [valid])

/-- A byte that completes a valid line completes a valid sentence that fits. -/
theorem validLines_snoc_iff {stream line : List UInt8} {byte : UInt8} :
    validLines (stream ++ [byte]) = validLines stream ++ [line] ↔
      validSentences (stream ++ [byte]) = validSentences stream ++ [line] ∧ Fits line := by
  rw [validLines_eq_filter, validLines_eq_filter]
  rcases validSentences_snoc_cases stream byte with same | ⟨added, more⟩
  · simp [same]
  · rw [more, List.filter_append, List.append_cancel_left_eq, List.append_cancel_left_eq, List.cons.injEq,
      List.filter_singleton]
    by_cases fits : Fits added
    · rw [decide_eq_true fits, cond_true]
      constructor
      · intro same
        obtain rfl := List.singleton_inj.mp same
        exact ⟨⟨rfl, rfl⟩, fits⟩
      · rintro ⟨⟨rfl, -⟩, -⟩
        rfl
    · rw [decide_eq_false fits, cond_false]
      constructor
      · intro impossible
        cases impossible
      · rintro ⟨⟨rfl, -⟩, fitsToo⟩
        exact absurd fitsToo fits

/-- A byte completes at most one valid line. -/
theorem validLines_snoc_cases (stream : List UInt8) (byte : UInt8) :
    validLines (stream ++ [byte]) = validLines stream ∨
      ∃ line, validLines (stream ++ [byte]) = validLines stream ++ [line] := by
  rw [validLines_eq_filter, validLines_eq_filter]
  rcases validSentences_snoc_cases stream byte with same | ⟨line, more⟩
  · exact .inl (by rw [same])
  · rw [more, List.filter_append]
    by_cases fits : Fits line
    · exact .inr ⟨line, by simp [fits]⟩
    · exact .inl (by simp [fits])

/-- What a byte hands on is the pair that the line it completes completes. -/
theorem Describes.handsOn {stream : List UInt8} {state : NmeaParserState}
    {candidates : List GnssCandidate} (describes : Describes stream state candidates)
    (inputEpoch : UInt32) (byte : UInt8) :
    validLines (stream ++ [byte]) = validLines stream ∧ (state.feed inputEpoch byte).2 = none ∨
      ∃ line, validLines (stream ++ [byte]) = validLines stream ++ [line] ∧
        (state.feed inputEpoch byte).2.map candidatePair = completedPair (pendingLine state) line := by
  have grown := (describes.feed inputEpoch byte).pairs
  rw [List.map_append] at grown
  rcases validLines_snoc_cases stream byte with same | ⟨line, more⟩
  · rw [same, describes.pairs, Prod.mk.injEq] at grown
    have silent := List.append_cancel_left (grown.2.symm.trans (List.append_nil _).symm)
    exact .inl ⟨same, by simpa using silent⟩
  · have paired := pairStep_pairs (pendingLine state) (candidates.map candidatePair) line
    rw [more, List.foldl_append, describes.pairs, List.foldl_cons, List.foldl_nil] at grown
    rw [grown] at paired
    have handed := List.append_cancel_left paired
    refine .inr ⟨line, more, ?_⟩
    cases given : (state.feed inputEpoch byte).2 <;>
      cases completed : completedPair (pendingLine state) line <;> simp_all

theorem completedPair_eq_some {pending : Option (List UInt8)} {line : List UInt8} {pair : Pair} :
    completedPair pending line = some pair ↔
      ¬ IsUsableGga line ∧ lineType line = rmcType ∧
        ∃ gga, pending = some gga ∧ (gga, returnedHdop gga, line) = pair := by
  unfold completedPair
  split
  · simp_all
  · split <;> simp_all

theorem Describes.pending_iff {stream : List UInt8} {state : NmeaParserState}
    {candidates : List GnssCandidate} (describes : Describes stream state candidates)
    (gga : List UInt8) : pendingLine state = some gga ↔ Waiting (validSentences stream) gga := by
  rw [← pending_iff_waiting, ← validLines_eq_filter, describes.pairs]

theorem not_usable_of_rmc {line : List UInt8} (isRmc : lineType line = rmcType) :
    ¬ IsUsableGga line := by
  rintro ⟨isGga, -⟩
  rw [isRmc] at isGga
  exact absurd isGga (by decide)

/-- The parser hands on exactly the waiting GGA line with the RMC line that the last
    byte completes. -/
theorem emitted_iff (inputEpoch : UInt32) (before : List UInt8) (byte : UInt8) (gga rmc : List UInt8) :
    (∃ candidate, Emitted inputEpoch (before ++ [byte]) candidate ∧ candidate.gga = gga ∧
        candidate.rmc = rmc) ↔
      validSentences (before ++ [byte]) = validSentences before ++ [rmc] ∧ Fits rmc ∧
        lineType rmc = rmcType ∧ Waiting (validSentences before) gga := by
  have handsOn (fed : List UInt8) := (describes_reset.feedAll inputEpoch fed).handsOn inputEpoch byte
  have described (fed : List UInt8) := (describes_reset.feedAll inputEpoch fed).pending_iff
  simp only [List.nil_append] at handsOn described
  constructor
  · rintro ⟨candidate, ⟨chunks, last, state, earlier, after, split, fed, handed⟩, rfl, rfl⟩
    obtain ⟨rfl, same⟩ := List.append_inj' split rfl
    obtain rfl := List.singleton_inj.mp same
    rw [nmeaParserFeedCalls_spec inputEpoch .reset, Option.some.injEq] at fed
    have fits := NmeaParserState.Fits.reset.feedAll inputEpoch chunks.flatten
    rw [fed] at fits
    rw [nmeaParserFeedByte_spec inputEpoch fits, Option.some.injEq] at handed
    have known := handsOn chunks.flatten
    rw [fed, handed] at known
    rcases known with ⟨-, impossible⟩ | ⟨line, more, paired⟩
    · cases impossible
    · obtain ⟨-, isRmc, gga, pending, same⟩ := completedPair_eq_some.mp paired.symm
      have waiting := (described chunks.flatten gga).mp (by rw [fed]; exact pending)
      rw [candidatePair, Prod.mk.injEq, Prod.mk.injEq] at same
      obtain ⟨rfl, -, rfl⟩ := same
      obtain ⟨sentence, fits⟩ := validLines_snoc_iff.mp more
      exact ⟨sentence, fits, isRmc, waiting⟩
  · rintro ⟨sentence, fitsLine, isRmc, waiting⟩
    have more := validLines_snoc_iff.mpr ⟨sentence, fitsLine⟩
    have fits := NmeaParserState.Fits.reset.feedAll inputEpoch before
    have fed : nmeaParserFeedCalls inputEpoch .reset [before] = _ :=
      nmeaParserFeedCalls_spec inputEpoch .reset [before]
    rw [List.flatten_singleton] at fed
    rcases handsOn before with ⟨same, -⟩ | ⟨line, grown, paired⟩
    · rw [same] at more
      exact absurd more (by simp)
    · obtain rfl : line = rmc := by
        rw [grown] at more
        simpa using more
      have completed := completedPair_eq_some.mpr ⟨not_usable_of_rmc isRmc, isRmc, gga,
        (described before gga).mpr waiting, rfl⟩
      rw [completed, Option.map_eq_some_iff] at paired
      obtain ⟨candidate, handed, same⟩ := paired
      rw [candidatePair, Prod.mk.injEq, Prod.mk.injEq] at same
      have stepped := nmeaParserFeedByte_spec inputEpoch fits byte
      rw [← Prod.mk.eta (p := NmeaParserState.feed ..), handed] at stepped
      exact ⟨candidate, ⟨[before], byte, _, _, _, by simp, fed, stepped⟩, same.1, same.2.2⟩

/-- A valid sentence of a stream is completed by some byte of it. -/
theorem validSentences_completed {stream : List UInt8} {first rest : List (List UInt8)} {line : List UInt8}
    (split : validSentences stream = first ++ line :: rest) :
    ∃ before byte, before ++ [byte] <+: stream ∧ validSentences before = first ∧
      validSentences (before ++ [byte]) = first ++ [line] := by
  induction stream using List.reverseRecOn generalizing rest with
  | nil => simp [validSentences] at split
  | append_singleton stream byte ih =>
      have earlier : ∀ {rest}, validSentences stream = first ++ line :: rest → ∃ before last,
          before ++ [last] <+: stream ++ [byte] ∧ validSentences before = first ∧
            validSentences (before ++ [last]) = first ++ [line] := by
        intro rest split
        obtain ⟨before, last, fed, known⟩ := ih split
        exact ⟨before, last, fed.trans (List.prefix_append ..), known⟩
      rcases validSentences_snoc_cases stream byte with same | ⟨added, more⟩
      · exact earlier (same ▸ split)
      · rw [more] at split
        rcases List.eq_nil_or_concat rest with rfl | ⟨rest, last, rfl⟩
        · obtain ⟨before, last⟩ := List.append_inj' split rfl
          exact ⟨stream, byte, List.prefix_refl _, before, by rw [more, before, last]⟩
        · rw [List.concat_eq_append, ← List.cons_append, ← List.append_assoc] at split
          exact earlier (List.append_inj' split rfl).1

/-- Where a list is cut at the last element with a property is determined. -/
theorem lastSplit_unique {α : Type} {p : α → Prop} {x y : α} {before before' after after' : List α}
    (same : before ++ x :: after = before' ++ y :: after') (atX : p x) (atY : p y)
    (afterX : ∀ z ∈ after, ¬ p z) (afterY : ∀ z ∈ after', ¬ p z) : after = after' := by
  rcases List.append_eq_append_iff.mp same with ⟨gap, -, cut⟩ | ⟨gap, -, cut⟩
  · cases gap with
    | nil => exact (List.cons.inj cut).2
    | cons first gap =>
        have later : y ∈ after := by simp [(List.cons.inj cut).2]
        exact absurd atY (afterX y later)
  · cases gap with
    | nil => exact (List.cons.inj cut).2.symm
    | cons first gap =>
        have later : x ∈ after' := by simp [(List.cons.inj cut).2]
        exact absurd atX (afterY x later)

theorem validSentences_mono {fed stream : List UInt8} (isPrefix : fed <+: stream) :
    validSentences fed <+: validSentences stream := by
  obtain ⟨more, rfl⟩ := isPrefix
  induction more using List.reverseRecOn with
  | nil => simp
  | append_singleton more byte ih =>
      apply ih.trans
      rw [← List.append_assoc]
      rcases validSentences_snoc_cases (fed ++ more) byte with same | ⟨line, grown⟩
      · rw [same]
      · rw [grown]
        exact List.prefix_append ..

theorem SkipsLine.extend {lines more : List (List UInt8)} (skips : SkipsLine lines)
    (isPrefix : lines <+: more) : SkipsLine more := by
  obtain ⟨before, gga, between, skipped, rest, rmc, after, rfl, usable⟩ := skips
  obtain ⟨later, rfl⟩ := isPrefix
  exact ⟨before, gga, between, skipped, rest, rmc, after ++ later, by simp, usable⟩

/-- Of the GGA and RMC lines, those that are skipped are passed over. -/
theorem isSkipped_iff {line : List UInt8} :
    IsSkipped line ↔ PassedOver line ∧ (lineType line = ggaType ∨ lineType line = rmcType) := by
  have apart : lineType line = ggaType → lineType line ≠ rmcType := by
    intro isGga
    rw [isGga]
    decide
  unfold IsSkipped PassedOver
  by_cases fits : Fits line
  · simp only [fits, not_true_eq_false, false_and, false_or, forall_const]
    grind
  · simp only [fits, not_false_eq_true, true_and, false_implies]
    grind

/-- A candidate of a stream that skips no line is a pair of adjacent lines. -/
theorem adjacent_of_emitted {inputEpoch : UInt32} {fed : List UInt8} {candidate : GnssCandidate}
    (emitted : Emitted inputEpoch fed candidate) (noSkip : ¬ SkipsLine (validSentences fed)) :
    Adjacent fed candidate := by
  have emission := emitted
  obtain ⟨chunks, byte, -, -, -, rfl, -⟩ := emission
  obtain ⟨completed, fitsRmc, isRmc, before, between, split, fits, usable, quiet⟩ :=
    (emitted_iff inputEpoch chunks.flatten byte candidate.gga candidate.rmc).mp
      ⟨candidate, emitted, rfl, rfl⟩
  rw [split] at completed
  have free : ∀ line ∈ between, ¬ (lineType line = ggaType ∨ lineType line = rmcType) := by
    intro line member paired
    apply noSkip
    obtain ⟨first, rest, rfl⟩ := List.mem_iff_append.mp member
    refine ⟨before, candidate.gga, first, line, rest, candidate.rmc, [], completed, fits, usable,
      isSkipped_iff.mpr ⟨quiet line member, paired⟩, fitsRmc, isRmc, ?_⟩
    intro other among
    apply quiet
    rw [List.mem_append] at among
    rw [List.mem_append, List.mem_cons]
    rcases among with early | late
    · exact .inl early
    · exact .inr (.inr late)
  refine ⟨before, between, completed, usable.1, ?_⟩
  intro line member
  exact not_or.mp (free line member)

/-- A stream that skips a line has a candidate whose lines are not adjacent. -/
theorem emitted_of_skips (inputEpoch : UInt32) {stream : List UInt8}
    (skips : SkipsLine (validSentences stream)) :
    ∃ fed candidate, fed <+: stream ∧ Emitted inputEpoch fed candidate ∧ ¬ Adjacent fed candidate := by
  obtain ⟨before, gga, between, skipped, rest, rmc, after, split, fits, usable, isSkipped, fitsRmc, isRmc,
    quiet⟩ := skips
  obtain ⟨passed, paired⟩ := isSkipped_iff.mp isSkipped
  have waiting : ∀ line ∈ between ++ skipped :: rest, PassedOver line := by
    intro line member
    rw [List.mem_append, List.mem_cons] at member
    rcases member with early | rfl | late
    · exact quiet line (List.mem_append_left _ early)
    · exact passed
    · exact quiet line (List.mem_append_right _ late)
  obtain ⟨fed, byte, isPrefix, known, completed⟩ := validSentences_completed split
  obtain ⟨candidate, emitted, rfl, rfl⟩ := (emitted_iff inputEpoch fed byte gga rmc).mpr
    ⟨by rw [completed, known], fitsRmc, isRmc, known ▸ ⟨before, _, rfl, fits, usable, waiting⟩⟩
  refine ⟨_, candidate, isPrefix, emitted, ?_⟩
  rintro ⟨before', between', adjacent, -, free⟩
  rw [completed] at adjacent
  -- The last usable GGA line that fits is where both lists are cut.
  have same := lastSplit_unique (p := fun line => Fits line ∧ IsUsableGga line)
    (List.append_inj' adjacent rfl).1 ⟨fits, usable⟩ ⟨fits, usable⟩
    (fun line member isUsable => (waiting line member isUsable.1).1 isUsable.2)
    (fun line member isUsable => (free line member).1 isUsable.2.1)
  obtain ⟨notGga, notRmc⟩ := free skipped (by simp [← same])
  rcases paired with isGga | isRmcToo
  · exact notGga isGga
  · exact notRmc isRmcToo

/-- Every candidate of a stream pairs adjacent lines if and only if the stream skips
    no GGA or RMC line. -/
theorem pairs_adjacent_iff (inputEpoch : UInt32) (stream : List UInt8) :
    PairsAdjacent inputEpoch stream ↔ ¬ SkipsLine (validSentences stream) := by
  constructor
  · intro adjacent skips
    obtain ⟨fed, candidate, isPrefix, emitted, apart⟩ := emitted_of_skips inputEpoch skips
    exact apart (adjacent fed isPrefix candidate emitted)
  · intro noSkip fed isPrefix candidate emitted
    apply adjacent_of_emitted emitted
    intro skips
    exact noSkip (skips.extend (validSentences_mono isPrefix))

/-- A line with an HDOP value, one without, and an RMC line:
    `$,,GGA,,,,,,1*70`, `$,,GGA,,,,,,*41` and `$xxRMCx*24`. -/
def skippedStream : List (List UInt8) :=
  [[36, 44, 44, 71, 71, 65, 44, 44, 44, 44, 44, 44, 49, 42, 55, 48, 10],
   [36, 44, 44, 71, 71, 65, 44, 44, 44, 44, 44, 44, 42, 52, 49, 10],
   [36, 120, 120, 82, 77, 67, 120, 42, 50, 52, 10]]

/-- The parser pairs the first of these lines with the last. -/
theorem skipped_gga_paired : ¬ ∀ inputEpoch stream, PairsAdjacent inputEpoch stream := by
  intro claimed
  have lines : validSentences skippedStream.flatten = skippedStream := by decide +kernel
  have skips : SkipsLine (validSentences skippedStream.flatten) := by
    rw [lines]
    exact ⟨[], _, [], _, [], _, [], rfl, by decide, by decide +kernel, .inr ⟨by decide, by decide +kernel⟩,
      by decide, by decide, by simp⟩
  obtain ⟨fed, candidate, isPrefix, emitted, apart⟩ := emitted_of_skips 1 skips
  exact apart (claimed 1 _ fed isPrefix candidate emitted)

end EspGnss.Gnss
