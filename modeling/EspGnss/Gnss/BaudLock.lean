import EspGnss.Gnss.BaudScan

/-! # What locks the scan

A rate is locked by a valid line that was received and read at it, it is left only after
its dwell time, and the rates take turns in the order of the table.
-/

namespace EspGnss.Gnss

open Foundation Nmea

/-- What a history says about the scan: the last `uart2_baud_set` with its time, the rate
    of the UART, what was received since that was set and what was read since
    `uart2_baud_set`. -/
structure ScanRecord where
  set : Option (Nat × Nat)
  baudRate : Nat
  received : List UInt8
  reads : List (List UInt8)
  locked : Bool
  deriving DecidableEq, Repr

namespace ScanRecord

def empty : ScanRecord := ⟨none, 0, [], [], false⟩

def after (record : ScanRecord) : ScanEvent → ScanRecord
  | .baudSet index time => { record with set := some (index, time), reads := [] }
  | .rateSet baudRate => { record with baudRate, received := [] }
  | .flushed => record
  | .received byte => { record with received := record.received ++ [byte] }
  | .read chunk => { record with reads := record.reads ++ [chunk] }
  | .locked _ => { record with locked := true }

def of (history : List ScanEvent) : ScanRecord := history.foldl after empty

@[simp] theorem of_snoc (history : List ScanEvent) (event : ScanEvent) :
    of (history ++ [event]) = (of history).after event := by
  rw [of, List.foldl_append]
  rfl

/-- `index` follows the last rate in the table, and that has had its dwell time. -/
def InTurn (pdMsToTicks : UInt32 → UInt32) (record : ScanRecord) (index time : Nat) : Prop :=
  match record.set with
  | none => index = 0
  | some (last, start) =>
      index = (last + 1) % uart2BaudScanRateCount ∧
        ∃ rate, uart2BaudScanRates[last]? = some rate ∧ start + (pdMsToTicks rate.dwellMs).toNat ≤ time

/-- The UART was set to the rate `index`, and a line that proves it has been received at
    that rate and read since. -/
def Proves (record : ScanRecord) (index : Nat) : Prop :=
  (∃ start, record.set = some (index, start)) ∧
    (∃ rate, uart2BaudScanRates[index]? = some rate ∧ record.baudRate = rate.baudRate) ∧
    ∃ line, ProvesRate line ∧ line <:+: record.reads.flatten ∧ record.reads.flatten <:+: record.received

end ScanRecord

/-- What each event of the scan says about the history before it. -/
def ScanEvent.Sound (pdMsToTicks : UInt32 → UInt32) (before : List ScanEvent) : ScanEvent → Prop
  | .baudSet index time =>
      (ScanRecord.of before).InTurn pdMsToTicks index time ∧ (ScanRecord.of before).locked = false
  | .rateSet _ => (ScanRecord.of before).locked = false
  | .locked index => (ScanRecord.of before).Proves index
  | _ => True

section Scanning

variable {pdMsToTicks : UInt32 → UInt32} {history events : List ScanEvent} {record record' : ScanRecord}
  {s s' : BaudScan}

/-- The record of the rate that the task has set. -/
structure AtRate (record : ScanRecord) (scan : Uart2BaudScanState) (now : Nat) : Prop where
  set : ∃ start, record.set = some (scan.index, start) ∧ scan.startedAt = .ofNat start ∧ start ≤ now
  inTable : scan.index < uart2BaudScanRateCount
  unlocked : record.locked = false

/-- The UART receives at the rate of the table. -/
def ScanRecord.AtBaudRate (record : ScanRecord) (index : Nat) : Prop :=
  ∃ rate, uart2BaudScanRates[index]? = some rate ∧ record.baudRate = rate.baudRate

/-- Nothing has been read at the rate yet. -/
structure Unread (record : ScanRecord) (scan : Uart2BaudScanState) (probe : NmeaProbeState) (now : Nat) : Prop where
  atRate : AtRate record scan now
  reads : record.reads = []
  openLine : probe.openLine = none

/-- What was read is a part of what was received at the rate. The probe holds its open line
    and has found nothing in it. -/
structure Reading (record : ScanRecord) (scan : Uart2BaudScanState) (probe : NmeaProbeState) (rxBuffer : List UInt8)
    (now : Nat) : Prop where
  atRate : AtRate record scan now
  baudRate : record.AtBaudRate scan.index
  buffered : record.reads.flatten ++ rxBuffer <:+ record.received
  openLine : probe.openLine = record.reads.flatten.foldl lineFraming.scan none
  unproven : lineFraming.search ProvesRate none record.reads.flatten = none

/-- The last chunk completed the first line that proves the rate. -/
structure Found (record : ScanRecord) (index : Nat) (chunk : List UInt8) : Prop where
  proves : record.Proves index
  reads : ∃ earlier, record.reads = earlier ++ [chunk] ∧
    lineFraming.search ProvesRate none earlier.flatten = none ∧
    (lineFraming.search ProvesRate none (earlier.flatten ++ chunk)).isSome

/-- The record of a scan in each phase. -/
def Scanning (pdMsToTicks : UInt32 → UInt32) (record : ScanRecord) (s : BaudScan) : Prop :=
  match s.phase with
  | .setup | .clearing => record.set = none ∧ record.locked = false
  | .baudSet index => record.InTurn pdMsToTicks (index % uart2BaudScanRateCount) s.now ∧ record.locked = false
  | .rateSet => Unread record s.scan s.probe s.now
  | .flushing => Unread record s.scan s.probe s.now ∧ record.AtBaudRate s.scan.index
  | .reading | .servicing => Reading record s.scan s.probe s.uart.rxBuffer s.now
  | .locking chunk => Found record s.scan.index chunk
  | .feeding chunk => Found record s.scan.index chunk
  | .ended => True

/-- A step emits one sound event or none. -/
def Emits (pdMsToTicks : UInt32 → UInt32) (history events : List ScanEvent) : Prop :=
  events = [] ∨ ∃ event, events = [event] ∧ event.Sound pdMsToTicks history

theorem Emits.nothing : Emits pdMsToTicks history [] := .inl rfl

theorem Emits.single {event : ScanEvent} (sound : event.Sound pdMsToTicks history) :
    Emits pdMsToTicks history [event] := .inr ⟨event, rfl, sound⟩

/-- The tick counter wraps, the difference of two of its values never exceeds the time between. -/
theorem elapsed_le {start now : Nat} (later : start ≤ now) {dwell : UInt32}
    (elapsed : UInt32.ofNat now - UInt32.ofNat start ≥ dwell) : start + dwell.toNat ≤ now := by
  have bound : dwell.toNat ≤ (UInt32.ofNat now - UInt32.ofNat start).toNat := UInt32.le_iff_toNat_le.mp elapsed
  rw [UInt32.toNat_sub, UInt32.toNat_ofNat', UInt32.toNat_ofNat'] at bound
  omega

theorem ScanRecord.InTurn.later {index time time' : Nat} (turn : record.InTurn pdMsToTicks index time)
    (later : time ≤ time') : record.InTurn pdMsToTicks index time' := by
  unfold InTurn at *
  split
  · simpa [*] using turn
  · rename_i last start set
    rw [set] at turn
    obtain ⟨next, rate, found, dwelt⟩ := turn
    exact ⟨next, rate, found, Nat.le_trans dwelt later⟩

theorem AtRate.later {scan : Uart2BaudScanState} {now now' : Nat} (atRate : AtRate record scan now)
    (later : now ≤ now') : AtRate record scan now' := by
  obtain ⟨start, set, started, before⟩ := atRate.set
  exact ⟨⟨start, set, started, Nat.le_trans before later⟩, atRate.inTable, atRate.unlocked⟩

/-- What does not set a rate or lock one. -/
theorem AtRate.keep {scan : Uart2BaudScanState} {now : Nat} (atRate : AtRate record scan now)
    (set : record'.set = record.set) (locked : record'.locked = record.locked) : AtRate record' scan now :=
  ⟨set ▸ atRate.set, atRate.inTable, locked ▸ atRate.unlocked⟩

theorem AtRate.rate {scan : Uart2BaudScanState} {now : Nat} (atRate : AtRate record scan now) :
    ∃ rate, uart2BaudScanRates[scan.index]? = some rate :=
  ⟨_, List.getElem?_eq_getElem atRate.inTable⟩

/-- After the flush everything received has been read: nothing. -/
theorem Unread.flushed {scan : Uart2BaudScanState} {probe : NmeaProbeState} {now : Nat}
    (unread : Unread record scan probe now) (baudRate : record.AtBaudRate scan.index) :
    Reading record scan probe [] now := by
  have nothing : record.reads.flatten = [] := by rw [unread.reads, List.flatten_nil]
  apply Reading.mk
  · exact unread.atRate
  · exact baudRate
  · rw [nothing]
    exact List.nil_suffix
  · rw [nothing]
    exact unread.openLine
  · rw [nothing]
    rfl

/-- Time alone changes nothing. -/
theorem Scanning.tick (scanning : Scanning pdMsToTicks record s) :
    Scanning pdMsToTicks record { s with now := s.now + 1 } := by
  have later : s.now ≤ s.now + 1 := Nat.le_succ s.now
  unfold Scanning at *
  cases phase : s.phase <;> simp only [phase] at scanning ⊢
  case baudSet => exact ⟨scanning.1.later later, scanning.2⟩
  case rateSet => exact ⟨scanning.atRate.later later, scanning.reads, scanning.openLine⟩
  case flushing =>
      exact ⟨⟨scanning.1.atRate.later later, scanning.1.reads, scanning.1.openLine⟩, scanning.2⟩
  case reading | servicing =>
      exact ⟨scanning.atRate.later later, scanning.baudRate, scanning.buffered, scanning.openLine, scanning.unproven⟩
  all_goals exact scanning

/-- A received byte waits behind what was received before it. -/
theorem Scanning.receive (scanning : Scanning pdMsToTicks record s) (byte : UInt8) :
    Scanning pdMsToTicks (record.after (.received byte))
      { s with uart := { s.uart with rxBuffer := s.uart.rxBuffer ++ [byte] } } := by
  unfold Scanning at *
  cases phase : s.phase <;> simp only [phase] at scanning ⊢
  case rateSet => exact ⟨scanning.atRate.keep rfl rfl, scanning.reads, scanning.openLine⟩
  case flushing => exact ⟨⟨scanning.1.atRate.keep rfl rfl, scanning.1.reads, scanning.1.openLine⟩, scanning.2⟩
  case reading | servicing =>
      obtain ⟨earlier, same⟩ := scanning.buffered
      have longer : record.reads.flatten ++ (s.uart.rxBuffer ++ [byte]) <:+ record.received ++ [byte] :=
        ⟨earlier, by simp [← same]⟩
      exact ⟨scanning.atRate.keep rfl rfl, scanning.baudRate, longer, scanning.openLine, scanning.unproven⟩
  case locking | feeding =>
      obtain ⟨set, rate, line, proves, read, received⟩ := scanning.proves
      have longer := received.trans (List.prefix_append record.received [byte]).isInfix
      exact ⟨⟨set, rate, line, proves, read, longer⟩, scanning.reads⟩
  all_goals exact scanning

/-- A chunk in which the probe finds nothing. -/
theorem Reading.unprovenChunk {scan : Uart2BaudScanState} {probe after : NmeaProbeState} {chunk rest : List UInt8}
    {now : Nat} (reading : Reading record scan probe (chunk ++ rest) now)
    (nothing : lineFraming.search ProvesRate probe.openLine chunk = none)
    (openLine : after.openLine = chunk.foldl lineFraming.scan probe.openLine) :
    Reading (record.after (.read chunk)) scan after rest now := by
  have flat : (record.after (.read chunk)).reads.flatten = record.reads.flatten ++ chunk := by
    simp [ScanRecord.after]
  apply Reading.mk
  · exact reading.atRate.keep rfl rfl
  · exact reading.baudRate
  · rw [flat, List.append_assoc]
    exact reading.buffered
  · rw [flat, List.foldl_append, ← reading.openLine]
    exact openLine
  · rw [flat, Framing.search_append, reading.unproven, ← reading.openLine]
    exact nothing

/-- A chunk that completes a line proving the rate. -/
theorem Reading.provenChunk {scan : Uart2BaudScanState} {probe : NmeaProbeState} {chunk rest : List UInt8}
    {now : Nat} (reading : Reading record scan probe (chunk ++ rest) now)
    (something : (lineFraming.search ProvesRate probe.openLine chunk).isSome) :
    Found (record.after (.read chunk)) scan.index chunk := by
  have flat : (record.after (.read chunk)).reads.flatten = record.reads.flatten ++ chunk := by
    simp [ScanRecord.after]
  obtain ⟨start, set, -⟩ := reading.atRate.set
  obtain ⟨⟨line, behind⟩, found⟩ := Option.isSome_iff_exists.mp something
  obtain ⟨before, split, -, emitted, proves⟩ := lineFraming.search_some found
  apply Found.mk
  · -- the line ends where the chunk has been read so far
    have tracks := lineFraming.tracks_nil.foldl lineFraming (record.reads.flatten ++ before)
    rw [List.foldl_append, ← reading.openLine, List.nil_append] at tracks
    have ending := tracks.emit_suffix lineFraming emitted
    have part : record.reads.flatten ++ before ++ [lineFraming.closing] <+: record.reads.flatten ++ chunk :=
      ⟨behind, by simp [split]⟩
    have received : record.reads.flatten ++ chunk <:+: record.received := by
      have whole := reading.buffered
      rw [← List.append_assoc] at whole
      exact (List.prefix_append _ rest).isInfix.trans whole.isInfix
    exact ⟨⟨start, set⟩, reading.baudRate, line, proves, flat ▸ ending.isInfix.trans part.isInfix, flat ▸ received⟩
  · refine ⟨record.reads, rfl, reading.unproven, ?_⟩
    rw [Framing.search_append, reading.unproven, ← reading.openLine]
    exact something

theorem Scanning.read (scanning : Scanning pdMsToTicks (.of history) s) (fits : s.probe.Fits) {count : Nat}
    (stepped : s.next pdMsToTicks (.read count) = some (s', events)) :
    Scanning pdMsToTicks (.of (history ++ events)) s' ∧ s'.probe.Fits ∧ Emits pdMsToTicks history events := by
  rw [BaudScan.next] at stepped
  split at stepped
  swap
  · cases stepped
  rename_i ready
  obtain ⟨phase, -, -⟩ := ready
  have reading : Reading (.of history) s.scan s.probe (s.uart.rxBuffer.take count ++ s.uart.rxBuffer.drop count)
      s.now := by
    rw [Scanning, phase] at scanning
    rwa [List.take_append_drop]
  split at stepped
  · obtain ⟨after, fed, inside, openLine⟩ := nmeaProbeFeed_spec fits (s.uart.rxBuffer.take count)
    simp only [fed, Option.bind_eq_bind, Option.bind_some, Option.pure_def, Option.some.injEq,
      Prod.mk.injEq] at stepped
    obtain ⟨rfl, rfl⟩ := stepped
    refine ⟨?_, inside, Emits.single trivial⟩
    rw [ScanRecord.of_snoc]
    cases found : lineFraming.search ProvesRate s.probe.openLine (s.uart.rxBuffer.take count) with
    | none => exact reading.unprovenChunk found (openLine found)
    | some line => exact reading.provenChunk (Option.isSome_iff_exists.mpr ⟨line, found⟩)
  · rename_i nothing
    obtain rfl : count = 0 := by omega
    cases stepped
    refine ⟨?_, fits, Emits.nothing⟩
    rw [List.append_nil]
    exact reading

/-- The steps of `gnss_init_task` between its reads. -/
theorem Scanning.advance (scanning : Scanning pdMsToTicks (.of history) s) (fits : s.probe.Fits)
    (stepped : s.advance pdMsToTicks = some (s', events)) :
    Scanning pdMsToTicks (.of (history ++ events)) s' ∧ s'.probe.Fits ∧ Emits pdMsToTicks history events := by
  have fitsReset : NmeaProbeState.reset.Fits := Nat.zero_le _
  rw [Scanning] at scanning
  rw [BaudScan.advance] at stepped
  cases phase : s.phase <;> simp only [phase] at scanning stepped
  case setup =>
      cases stepped
      refine ⟨?_, fits, Emits.single scanning.2⟩
      rw [ScanRecord.of_snoc]
      exact scanning
  case clearing =>
      cases stepped
      refine ⟨?_, fitsReset, Emits.nothing⟩
      rw [List.append_nil]
      refine ⟨?_, scanning.2⟩
      rw [ScanRecord.InTurn, scanning.1]
      rfl
  case baudSet index =>
      cases stepped
      refine ⟨?_, fitsReset, Emits.single scanning⟩
      rw [ScanRecord.of_snoc]
      exact ⟨⟨⟨s.now, rfl, rfl, Nat.le_refl _⟩, Nat.mod_lt _ (by decide), scanning.2⟩, rfl, rfl⟩
  case rateSet =>
      obtain ⟨rate, found⟩ := scanning.atRate.rate
      simp only [found, Option.bind_eq_bind, Option.bind_some, Option.pure_def, Option.some.injEq,
        Prod.mk.injEq] at stepped
      obtain ⟨rfl, rfl⟩ := stepped
      refine ⟨?_, fits, Emits.single scanning.atRate.unlocked⟩
      rw [ScanRecord.of_snoc]
      exact ⟨⟨scanning.atRate.keep rfl rfl, scanning.reads, scanning.openLine⟩, rate, found, rfl⟩
  case flushing =>
      cases stepped
      refine ⟨?_, fits, Emits.single trivial⟩
      rw [ScanRecord.of_snoc]
      exact scanning.1.flushed scanning.2
  case servicing =>
      split at stepped
      · cases stepped
        refine ⟨?_, fits, Emits.nothing⟩
        rw [List.append_nil]
        exact scanning
      obtain ⟨start, set, started, before⟩ := scanning.atRate.set
      obtain ⟨rate, found⟩ := scanning.atRate.rate
      simp only [found, Option.bind_eq_bind, Option.bind_some, Option.pure_def] at stepped
      split at stepped
      · rename_i elapsed
        cases stepped
        refine ⟨?_, fits, Emits.nothing⟩
        rw [List.append_nil]
        rw [started] at elapsed
        have turn : (ScanRecord.of history).InTurn pdMsToTicks ((s.scan.index + 1) % uart2BaudScanRateCount) s.now := by
          rw [ScanRecord.InTurn, set]
          exact ⟨rfl, rate, found, elapsed_le before elapsed⟩
        exact ⟨turn, scanning.atRate.unlocked⟩
      · cases stepped
        refine ⟨?_, fits, Emits.nothing⟩
        rw [List.append_nil]
        exact scanning
  case locking chunk =>
      cases stepped
      refine ⟨?_, fits, Emits.single scanning.proves⟩
      rw [ScanRecord.of_snoc]
      exact ⟨scanning.proves, scanning.reads⟩
  case feeding chunk =>
      simp only [Option.bind_eq_bind, Option.bind_eq_some_iff, Option.pure_def, Option.some.injEq,
        Prod.mk.injEq] at stepped
      obtain ⟨fed, -, rfl, rfl⟩ := stepped
      exact ⟨trivial, fits, Emits.nothing⟩
  case reading | ended => cases stepped

/-- The input matters to the task only when it feeds it. -/
theorem Scanning.withInput (scanning : Scanning pdMsToTicks record s) (input : GnssInput) :
    Scanning pdMsToTicks record { s with input } :=
  scanning

theorem Scanning.next (scanning : Scanning pdMsToTicks (.of history) s) (fits : s.probe.Fits) {a : ScanAction}
    (stepped : s.next pdMsToTicks a = some (s', events)) :
    Scanning pdMsToTicks (.of (history ++ events)) s' ∧ s'.probe.Fits ∧ Emits pdMsToTicks history events := by
  cases a with
  | tick =>
      cases stepped
      exact ⟨by simpa using scanning.tick, fits, Emits.nothing⟩
  | receive byte =>
      rw [BaudScan.next] at stepped
      split at stepped
      · cases stepped
        exact ⟨by simpa using scanning.receive byte, fits, Emits.single trivial⟩
      · cases stepped
  | read count => exact scanning.read fits stepped
  | advance => exact scanning.advance fits stepped
  | overrideBegin | overrideEndEnter =>
      cases stepped
      exact ⟨by simpa using scanning.withInput _, fits, Emits.nothing⟩
  | overrideFeed data =>
      simp only [BaudScan.next, Option.bind_eq_bind, Option.bind_eq_some_iff, Option.pure_def, Option.some.injEq,
        Prod.mk.injEq] at stepped
      obtain ⟨fed, -, rfl, rfl⟩ := stepped
      exact ⟨by simpa using scanning.withInput _, fits, Emits.nothing⟩
  | overrideEndClose =>
      rw [BaudScan.next] at stepped
      split at stepped
      · cases stepped
        exact ⟨by simpa using scanning.withInput _, fits, Emits.nothing⟩
      · cases stepped

theorem scanning_of_exec (run : (baudScanSystem pdMsToTicks).Exec history s) :
    Scanning pdMsToTicks (.of history) s ∧ s.probe.Fits := by
  refine run.invariant (I := fun history s => Scanning pdMsToTicks (.of history) s ∧ s.probe.Fits) ?_ ?_
  · intro s first
    obtain rfl : s = .initial := first
    exact ⟨⟨rfl, rfl⟩, Nat.zero_le _⟩
  · intro history s a s' events _ holds stepped
    have moved := holds.1.next holds.2 stepped
    exact ⟨moved.1, moved.2.1⟩

end Scanning

/-- In every run the rates take their turns, each for its dwell time, until a line received
    and read at a rate proves it; then the rate stays. -/
theorem baud_scan_sound (pdMsToTicks : UInt32 → UInt32) {history : List ScanEvent} {s : BaudScan}
    (run : (baudScanSystem pdMsToTicks).Exec history s) :
    ∀ before event after, history = before ++ event :: after → event.Sound pdMsToTicks before := by
  refine run.placed (P := fun before event => event.Sound pdMsToTicks before) ?_
  intro history s a s' events earlier stepped before event after split
  obtain ⟨scanning, fits⟩ := scanning_of_exec earlier
  obtain ⟨-, -, nothing | ⟨only, single, sound⟩⟩ := scanning.next fits stepped
  · simp [nothing] at split
  · obtain ⟨rfl, rfl, -⟩ : before = [] ∧ event = only ∧ after = [] := by
      simpa [single, List.append_eq_singleton_iff, eq_comm] using split
    simpa using sound

/-- `$GPRMC,*67` with its line end. -/
def provingLine : List UInt8 := [0x24, 0x47, 0x50, 0x52, 0x4D, 0x43, 0x2C, 0x2A, 0x36, 0x37, 0x0D, 0x0A]

/-- The line arrives at the first rate and is read in two chunks. -/
def lockSchedule : List ScanAction :=
  List.replicate 5 .advance ++ provingLine.map .receive ++ [.read 5, .advance, .tick, .read 7, .advance]

def lockHistory : List ScanEvent :=
  [.rateSet 4800, .baudSet 0 0, .rateSet 4800, .flushed] ++ provingLine.map .received ++
    [.read (provingLine.take 5), .read (provingLine.drop 5)]

/-- With a tick every millisecond. -/
theorem first_rate_locks : (ScanRecord.of lockHistory).Proves 0 := by
  have played : (System.replay (BaudScan.next id) .initial lockSchedule).map Prod.snd =
      some (lockHistory ++ [.locked 0]) := by
    decide +kernel
  obtain ⟨⟨s, history⟩, played, same⟩ := Option.map_eq_some_iff.mp played
  exact baud_scan_sound id (System.Exec.of_replay played) lockHistory (.locked 0) [] same

end EspGnss.Gnss
