import EspGnss.Foundation.System
import EspGnss.Gnss.Input
import EspGnss.Gnss.Probe

/-! # The baud rate scan

`gnss_init_task` with the UART it probes and the input that it shares with the override.
Every operation of the task on the UART, the tick counter or the parser is one step; bytes
arrive and time passes between any two of them.
-/

namespace EspGnss.Gnss

open Foundation Nmea

/-- `baud_scan_rate_t` -/
structure BaudScanRate where
  baudRate : Nat
  dwellMs : UInt32
  deriving DecidableEq, Repr

/-- `UART2_BAUD_SCAN_RATES` -/
def uart2BaudScanRates : List BaudScanRate :=
  [⟨4800, 1400⟩, ⟨9600, 1100⟩, ⟨19200, 700⟩, ⟨38400, 400⟩, ⟨57600, 300⟩, ⟨115200, 250⟩]

/-- `UART2_BAUD_SCAN_RATE_COUNT` -/
def uart2BaudScanRateCount : Nat := 6

/-- `UART_DRIVER_RX_BUFFER_SIZE` -/
def uartDriverRxBufferSize : Nat := 2048

/-- `UART_READ_CHUNK_SIZE` -/
def uartReadChunkSize : Nat := 512

/-- `uart2_baud_scan_state_t` -/
structure Uart2BaudScanState where
  locked : Bool
  index : Nat
  startedAt : UInt32
  deriving DecidableEq, Repr

/-- The UART driver: the rate it receives at and what has not been read yet. -/
structure Uart2 where
  baudRate : Nat
  rxBuffer : List UInt8
  deriving DecidableEq, Repr

/-- `gnss_uart_input_feed`, with the candidates it hands to `gnss_candidate_send`. -/
def gnssUartInputFeed (input : GnssInput) (data : List UInt8) : Option (GnssInput × List GnssCandidate) :=
  if !input.overrideActive then do
    let (parserState, candidates) ← nmeaParserFeed input.inputEpoch input.parserState data
    return ({ input with parserState }, candidates)
  else some (input, [])

/-- Where `gnss_init_task` stands. -/
inductive InitPhase where
  /-- Before `setup_uart2`. -/
  | setup
  /-- Before the section that clears the parser. -/
  | clearing
  /-- Before `uart2_baud_set(index)`. -/
  | baudSet (index : Nat)
  /-- In `uart2_baud_set`, before `uart_set_baudrate`. -/
  | rateSet
  /-- In `uart2_baud_set`, before `uart_flush_input`. -/
  | flushing
  /-- Before `uart_read_bytes`. -/
  | reading
  /-- Before `uart2_baud_scan_service`. -/
  | servicing
  /-- `nmea_probe_feed` has returned true for this chunk. -/
  | locking (chunk : List UInt8)
  /-- Before `gnss_uart_input_feed`. -/
  | feeding (chunk : List UInt8)
  /-- The steady-state reader has been created. -/
  | ended
  deriving DecidableEq, Repr

/-- `now` counts all ticks; `xTaskGetTickCount` returns its low 32 bits. -/
structure BaudScan where
  phase : InitPhase
  scan : Uart2BaudScanState
  probe : NmeaProbeState
  uart : Uart2
  input : GnssInput
  now : Nat
  deriving DecidableEq, Repr

namespace BaudScan

def initial : BaudScan where
  phase := .setup
  scan := ⟨false, 0, 0⟩
  probe := .reset
  uart := ⟨0, []⟩
  input := .initial
  now := 0

/-- `xTaskGetTickCount` -/
def xTaskGetTickCount (s : BaudScan) : UInt32 := .ofNat s.now

end BaudScan

inductive ScanAction where
  | tick
  /-- The driver stores a received byte. -/
  | receive (byte : UInt8)
  /-- `uart_read_bytes` returns `count` bytes; none on a timeout or an error. -/
  | read (count : Nat)
  /-- Any other step of `gnss_init_task`. -/
  | advance
  | overrideBegin
  | overrideFeed (data : List UInt8)
  | overrideEndEnter
  | overrideEndClose
  deriving DecidableEq, Repr

inductive ScanEvent where
  /-- `uart2_baud_set(index)` read the tick counter at `time`. -/
  | baudSet (index time : Nat)
  /-- The driver receives at another rate from here on. -/
  | rateSet (baudRate : Nat)
  | flushed
  | received (byte : UInt8)
  | read (chunk : List UInt8)
  | locked (index : Nat)
  deriving DecidableEq, Repr

namespace BaudScan

/-- `pdMsToTicks` is `pdMS_TO_TICKS`. -/
def advance (pdMsToTicks : UInt32 → UInt32) (s : BaudScan) : Option (BaudScan × List ScanEvent) :=
  match s.phase with
  | .setup => do
      let rate ← uart2BaudScanRates[0]?
      return ({ s with phase := .clearing, uart := ⟨rate.baudRate, []⟩ }, [.rateSet rate.baudRate])
  | .clearing =>
      some ({ s with
        phase := .baudSet 0
        input := { s.input with parserState := .reset }
        probe := .reset
        scan := { s.scan with locked := false } }, [])
  | .baudSet index =>
      let index := index % uart2BaudScanRateCount
      some ({ s with
        phase := .rateSet
        scan := { s.scan with index, startedAt := s.xTaskGetTickCount }
        probe := .reset }, [.baudSet index s.now])
  | .rateSet => do
      let rate ← uart2BaudScanRates[s.scan.index]?
      return ({ s with phase := .flushing, uart := { s.uart with baudRate := rate.baudRate } },
        [.rateSet rate.baudRate])
  | .flushing => some ({ s with phase := .reading, uart := { s.uart with rxBuffer := [] } }, [.flushed])
  | .servicing =>
      if s.scan.locked then some ({ s with phase := .reading }, [])
      else do
        let rate ← uart2BaudScanRates[s.scan.index]?
        if s.xTaskGetTickCount - s.scan.startedAt ≥ pdMsToTicks rate.dwellMs then
          return ({ s with phase := .baudSet (s.scan.index + 1) }, [])
        else return ({ s with phase := .reading }, [])
  | .locking chunk =>
      some ({ s with phase := .feeding chunk, scan := { s.scan with locked := true } }, [.locked s.scan.index])
  | .feeding chunk => do
      -- The chunk that established the baud rate is fed again.
      let (input, _) ← gnssUartInputFeed s.input chunk
      return ({ s with phase := .ended, input }, [])
  | .reading | .ended => none

def next (pdMsToTicks : UInt32 → UInt32) (s : BaudScan) : ScanAction → Option (BaudScan × List ScanEvent)
  | .tick => some ({ s with now := s.now + 1 }, [])
  | .receive byte =>
      if s.uart.rxBuffer.length < uartDriverRxBufferSize then
        some ({ s with uart := { s.uart with rxBuffer := s.uart.rxBuffer ++ [byte] } }, [.received byte])
      else none
  | .read count =>
      if s.phase = .reading ∧ count ≤ uartReadChunkSize ∧ count ≤ s.uart.rxBuffer.length then do
        let chunk := s.uart.rxBuffer.take count
        let s := { s with uart := { s.uart with rxBuffer := s.uart.rxBuffer.drop count } }
        if count > 0 then
          let (probe, valid) ← nmeaProbeFeed s.probe chunk
          return ({ s with probe, phase := if valid then .locking chunk else .servicing }, [.read chunk])
        else return ({ s with phase := .servicing }, [])
      else none
  | .advance => s.advance pdMsToTicks
  | .overrideBegin => some ({ s with input := (gnssInputOverrideBegin s.input).2 }, [])
  | .overrideFeed data => do
      let (_, input, _) ← gnssInputOverrideFeed s.input (some data) data.length
      return ({ s with input }, [])
  | .overrideEndEnter => some ({ s with input := (gnssInputOverrideEndEnter s.input).2 }, [])
  | .overrideEndClose =>
      if s.input.overrideClosing then some ({ s with input := gnssInputOverrideEndClose s.input }, []) else none

end BaudScan

def baudScanSystem (pdMsToTicks : UInt32 → UInt32) : System BaudScan ScanAction ScanEvent :=
  .ofFunction .initial (BaudScan.next pdMsToTicks)

end EspGnss.Gnss
