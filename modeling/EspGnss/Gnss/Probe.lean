import EspGnss.Gnss.Reference

/-! # The baud rate probe

`nmea_probe_feed` assembles lines next to the parser and stops at the first valid one of
a known type. It finds the first such line of the stream that it is fed.
-/

namespace EspGnss.Gnss

open Foundation Nmea

/-- `nmea_probe_state_t`; the list is the used part of its array. -/
structure NmeaProbeState where
  inSentence : Bool
  sentence : List UInt8
  deriving DecidableEq, Repr

namespace NmeaProbeState

/-- `nmea_probe_reset` -/
def reset : NmeaProbeState := ⟨false, []⟩

/-- The used part of the array is no longer than the array. -/
def Fits (state : NmeaProbeState) : Prop := state.sentence.length ≤ gnssNmeaMaxSentenceLen

/-- The line that the probe is assembling. -/
def openLine (state : NmeaProbeState) : Option (List UInt8) :=
  if state.inSentence then some state.sentence else none

end NmeaProbeState

/-- The sentence types of `nmea_sentence_looks_valid`: GGA, RMC, GLL, VTG, GSA and GSV. -/
def probeTypes : List (List UInt8) :=
  [ggaType, rmcType, [0x47, 0x4C, 0x4C], [0x56, 0x54, 0x47], [0x47, 0x53, 0x41], [0x47, 0x53, 0x56]]

def nmeaSentenceLooksValid (sentence : List UInt8) (len : Nat) : Option Bool := do
  if len < nmeaPrefixLen then return false
  if (← sentence[0]?) ≠ dollar then return false
  let type ← Memory.load sentence nmeaTypeOffset 3
  return probeTypes.contains type

/-- `nmea_sentence_looks_valid(sentence, len) && nmea_checksum_ok(sentence, len)` -/
def probeValid (sentence : List UInt8) : Option Bool := do
  if ← nmeaSentenceLooksValid sentence sentence.length then nmeaChecksumOk sentence sentence.length
  else return false

/-- `nmea_probe_feed` -/
def nmeaProbeFeed (state : NmeaProbeState) : List UInt8 → Option (NmeaProbeState × Bool)
  | [] => some (state, false)
  | byte :: rest =>
      -- '$' restarts assembly even if an earlier sentence was malformed.
      if byte = dollar then nmeaProbeFeed ⟨true, [byte]⟩ rest
      else if !state.inSentence then nmeaProbeFeed state rest
      else if state.sentence.length ≥ gnssNmeaMaxSentenceLen then nmeaProbeFeed .reset rest
      else do
        let sentence ← Memory.store gnssNmeaMaxSentenceLen state.sentence byte
        if byte = lineFeed then
          if ← probeValid sentence then return (.reset, true) else nmeaProbeFeed .reset rest
        else nmeaProbeFeed { state with sentence } rest

/-- A valid line of a known type: it proves the baud rate that it was read at. -/
def ProvesRate (line : List UInt8) : Prop := ChecksumValid line ∧ lineType line ∈ probeTypes

instance : DecidablePred ProvesRate := fun line =>
  inferInstanceAs (Decidable (ChecksumValid line ∧ lineType line ∈ probeTypes))

theorem nmeaSentenceLooksValid_spec (line : List UInt8) :
    nmeaSentenceLooksValid line line.length =
      some (decide (nmeaPrefixLen ≤ line.length ∧ line.head? = some dollar ∧ lineType line ∈ probeTypes)) := by
  rw [nmeaSentenceLooksValid]
  by_cases short : line.length < nmeaPrefixLen
  · simp [short, Nat.not_le.mpr short]
  have long : nmeaPrefixLen ≤ line.length := Nat.not_lt.mp short
  have typed := load_lineType (Nat.le_refl line.length) long
  rw [List.take_length] at typed
  cases line with
  | nil => exact absurd (by decide) short
  | cons first rest =>
    rw [if_neg short, typed, List.getElem?_cons_zero, List.head?_cons]
    by_cases start : first = dollar
    · subst start
      simp only [long, ne_eq, not_true_eq_false, if_false, true_and, Option.bind_eq_bind, Option.bind_some]
      simp
    · simp [start]

/-- The probe accepts exactly the lines that prove a rate. -/
theorem probeValid_spec (line : List UInt8) :
    ∃ valid, probeValid line = some valid ∧ (valid = true ↔ ProvesRate line) := by
  obtain ⟨ok, checked, decides⟩ := nmeaChecksumOk_spec (Nat.le_refl line.length)
  rw [List.take_length] at decides
  rw [probeValid, nmeaSentenceLooksValid_spec, checked]
  by_cases looks : nmeaPrefixLen ≤ line.length ∧ line.head? = some dollar ∧ lineType line ∈ probeTypes
  · exact ⟨ok, by simp [looks], by rw [decides, ProvesRate, and_iff_left looks.2.2]⟩
  · apply Exists.intro false
    have rejected : ¬ ProvesRate line := by
      intro proves
      exact looks ⟨Nat.le_trans (by decide) proves.1.length, starts_of_valid proves.1, proves.2⟩
    simp only [looks, rejected, decide_false]
    exact ⟨rfl, Iff.rfl.trans (by simp)⟩

/-- A byte completes a line that proves the rate, or the rest is fed from the line that the
    recogniser has then. -/
theorem nmeaProbeFeed_cons {state : NmeaProbeState} (fits : state.Fits) (byte : UInt8) (rest : List UInt8) :
    (∃ line, lineFraming.emit state.openLine byte = some line ∧ ProvesRate line ∧
        nmeaProbeFeed state (byte :: rest) = some (.reset, true)) ∨
      ∃ next : NmeaProbeState, next.Fits ∧ next.openLine = lineFraming.scan state.openLine byte ∧
        (∀ line, lineFraming.emit state.openLine byte = some line → ¬ ProvesRate line) ∧
        nmeaProbeFeed state (byte :: rest) = nmeaProbeFeed next rest := by
  have fitsReset : NmeaProbeState.reset.Fits := Nat.zero_le _
  rw [nmeaProbeFeed]
  by_cases starts : byte = dollar
  · subst starts
    rw [if_pos rfl]
    have silent : lineFraming.emit state.openLine dollar = none := lineFraming.emit_opening
    exact .inr ⟨⟨true, [dollar]⟩, by simp [NmeaProbeState.Fits, gnssNmeaMaxSentenceLen], lineFraming.scan_opening.symm,
      by simp [silent], rfl⟩
  rw [if_neg starts]
  cases inside : state.inSentence with
  | false =>
      have closed : state.openLine = none := by simp [NmeaProbeState.openLine, inside]
      rw [if_pos (by rfl), closed]
      exact .inr ⟨state, fits, by rw [closed, lineFraming.scan_outside starts], by simp [Framing.emit], rfl⟩
  | true =>
      have isOpen : state.openLine = some state.sentence := by simp [NmeaProbeState.openLine, inside]
      rw [if_neg (by decide), isOpen]
      by_cases full : state.sentence.length ≥ gnssNmeaMaxSentenceLen
      · rw [if_pos full, lineFraming.scan_full starts full, lineFraming.emit_full full]
        exact .inr ⟨.reset, fitsReset, rfl, by simp, rfl⟩
      have room : state.sentence.length < gnssNmeaMaxSentenceLen := Nat.not_le.mp full
      rw [if_neg full, Memory.store_inside byte room]
      simp only [Option.bind_eq_bind, Option.bind_some]
      by_cases ends : byte = lineFeed
      · subst ends
        obtain ⟨valid, checked, decides⟩ := probeValid_spec (state.sentence ++ [lineFeed])
        have emitted : lineFraming.emit (some state.sentence) lineFeed = some (state.sentence ++ [lineFeed]) :=
          lineFraming.emit_closing room
        have scanned : lineFraming.scan (some state.sentence) lineFeed = none := lineFraming.scan_closing
        rw [if_pos rfl, checked, emitted, scanned]
        cases valid with
        | true => exact .inl ⟨_, rfl, decides.mp rfl, rfl⟩
        | false =>
            have refused : ¬ ProvesRate (state.sentence ++ [lineFeed]) := by
              intro proves
              exact Bool.false_ne_true (decides.mpr proves)
            exact .inr ⟨.reset, fitsReset, rfl, by simpa using refused, rfl⟩
      · rw [if_neg ends, lineFraming.scan_inner starts ends room, lineFraming.emit_inner ends]
        have grown : { state with sentence := state.sentence ++ [byte] }.Fits := by
          simp only [NmeaProbeState.Fits, List.length_append, List.length_singleton]
          omega
        exact .inr ⟨_, grown, by simp [NmeaProbeState.openLine, inside], by simp, by rw [inside]⟩

/-- The probe finds the first line of its input that proves the rate. -/
theorem nmeaProbeFeed_spec {state : NmeaProbeState} (fits : state.Fits) (data : List UInt8) :
    ∃ after, nmeaProbeFeed state data =
        some (after, (lineFraming.search ProvesRate state.openLine data).isSome) ∧ after.Fits ∧
      (lineFraming.search ProvesRate state.openLine data = none →
        after.openLine = data.foldl lineFraming.scan state.openLine) := by
  induction data generalizing state with
  | nil => exact ⟨state, rfl, fits, fun _ => rfl⟩
  | cons byte rest ih =>
      obtain ⟨line, emitted, proves, found⟩ | ⟨next, inside, scanned, passed, fed⟩ := nmeaProbeFeed_cons fits byte rest
      · rw [found, lineFraming.search_accepted emitted proves]
        exact ⟨.reset, rfl, Nat.zero_le _, fun impossible => by cases impossible⟩
      · rw [fed, lineFraming.search_passed passed, List.foldl_cons, ← scanned]
        exact ih inside

end EspGnss.Gnss
