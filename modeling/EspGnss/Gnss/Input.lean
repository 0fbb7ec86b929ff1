import EspGnss.EspErr
import EspGnss.Nmea.Parser

/-! # Parser input and its temporary override

The variables that `s_parser_mutex` protects, and what each critical section of
`gnss_input_override_begin`, `_feed` and `_end` does to them.
-/

namespace EspGnss.Gnss

open Foundation Nmea

/-- `INT_MAX` -/
def intMax : Nat := 2147483647

/-- `gnss_filter_control_t`; its type has the one value
    `GNSS_FILTER_FLUSH_OVERRIDE`. -/
structure GnssFilterControl where
  inputEpoch : UInt32
  deriving DecidableEq, Repr

/-- `s_parser_state`, `s_input_override_active`, `s_input_override_closing` and
    `s_input_epoch`. -/
structure GnssInput where
  parserState : NmeaParserState
  overrideActive : Bool
  overrideClosing : Bool
  inputEpoch : UInt32
  deriving DecidableEq, Repr

def GnssInput.initial : GnssInput := ⟨.reset, false, false, 1⟩

/-- `gnss_input_epoch_advance` on the value of `s_input_epoch`. -/
def gnssInputEpochAdvance (inputEpoch : UInt32) : UInt32 :=
  -- Zero is reserved as an uninitialized value.
  if inputEpoch + 1 = 0 then inputEpoch + 1 + 1 else inputEpoch + 1

/-- `gnss_input_override_begin` -/
def gnssInputOverrideBegin (input : GnssInput) : EspErr × GnssInput :=
  if input.overrideActive then (espErrInvalidState, input)
  else (espOk, {
    parserState := .reset
    overrideActive := true
    overrideClosing := false
    inputEpoch := gnssInputEpochAdvance input.inputEpoch })

/-- The loop of `gnss_input_override_feed`, which passes at most `INT_MAX` bytes
    to one call of `nmea_parser_feed`. -/
def overrideFeedLoop (inputEpoch : UInt32) (state : NmeaParserState) (data : List UInt8) :
    Option (NmeaParserState × List GnssCandidate) :=
  if data.length = 0 then some (state, [])
  else do
    let chunkLen := if data.length > intMax then intMax else data.length
    let (state, first) ← nmeaParserFeed inputEpoch state (data.take chunkLen)
    let (state, later) ← overrideFeedLoop inputEpoch state (data.drop chunkLen)
    return (state, first ++ later)
termination_by data.length
decreasing_by
  have positive : 0 < intMax := by decide
  rw [List.length_drop]
  split <;> omega

/-- `gnss_input_override_feed(data, len)`, with the candidates handed to
    `gnss_candidate_send`; `data = none` is the null pointer. -/
def gnssInputOverrideFeed (input : GnssInput) (data : Option (List UInt8)) (len : Nat) :
    Option (EspErr × GnssInput × List GnssCandidate) := do
  if data = none ∧ len > 0 then return (espErrInvalidArg, input, [])
  if !input.overrideActive || input.overrideClosing then return (espErrInvalidState, input, [])
  let bytes ← Memory.load (data.getD []) 0 len
  let (parserState, candidates) ← overrideFeedLoop input.inputEpoch input.parserState bytes
  return (espOk, { input with parserState }, candidates)

/-- The first critical section of `gnss_input_override_end`: the flush to send
    when there is an override to close. -/
def gnssInputOverrideEndEnter (input : GnssInput) : Option GnssFilterControl × GnssInput :=
  if input.overrideActive && !input.overrideClosing then
    (some { inputEpoch := input.inputEpoch }, { input with overrideClosing := true })
  else (none, input)

/-- The last critical section of `gnss_input_override_end`. -/
def gnssInputOverrideEndClose (input : GnssInput) : GnssInput where
  parserState := .reset
  overrideActive := false
  overrideClosing := false
  inputEpoch := gnssInputEpochAdvance input.inputEpoch

/-- Splitting a large buffer does not change what the parser makes of it. -/
theorem overrideFeedLoop_spec (inputEpoch : UInt32) {state : NmeaParserState} (fits : state.Fits)
    (data : List UInt8) :
    overrideFeedLoop inputEpoch state data = some (state.feedAll inputEpoch data) := by
  induction data using (measure List.length).wf.induction generalizing state with
  | _ data ih =>
      rw [overrideFeedLoop]
      split
      · rename_i none
        obtain rfl := List.length_eq_zero_iff.mp none
        rfl
      · rename_i some
        dsimp only
        generalize chunk : (if data.length > intMax then intMax else data.length) = chunkLen
        have progress : (data.drop chunkLen).length < data.length := by
          have positive : 0 < intMax := by decide
          rw [List.length_drop]
          split at chunk <;> omega
        have later := ih (data.drop chunkLen) progress (fits.feedAll inputEpoch (data.take chunkLen))
        rw [nmeaParserFeed_spec inputEpoch fits]
        simp only [Option.bind_eq_bind, Option.bind_some, later, Option.pure_def]
        rw [← NmeaParserState.feedAll_append, List.take_append_drop]

theorem gnssInputOverrideFeed_spec {input : GnssInput} (fits : input.parserState.Fits)
    (active : input.overrideActive = true) (accepting : input.overrideClosing = false)
    (data : List UInt8) :
    gnssInputOverrideFeed input (some data) data.length =
      some (espOk,
        { input with parserState := (input.parserState.feedAll input.inputEpoch data).1 },
        (input.parserState.feedAll input.inputEpoch data).2) := by
  have loaded : Memory.load data 0 data.length = some data := by
    rw [Memory.load_inside (by omega), List.drop_zero, List.take_length]
  have started : ¬ (some data = none ∧ data.length > 0) := fun null => Option.some_ne_none _ null.1
  simp only [gnssInputOverrideFeed, if_neg started, active, accepting, Bool.not_true, Bool.or_false,
    Bool.false_eq_true, if_false, Option.getD_some, loaded, Option.bind_eq_bind, Option.bind_some,
    overrideFeedLoop_spec _ fits, Option.pure_def]

end EspGnss.Gnss
