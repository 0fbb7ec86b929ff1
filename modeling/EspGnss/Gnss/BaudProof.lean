import EspGnss.Gnss.BaudLock

/-! # No proof of a rate is missed

The scan moves on only from a rate at which no valid line of a known type has been read,
however the reads cut the lines. The read that completes the first such line locks the rate.
-/

namespace EspGnss.Gnss

open Foundation Nmea

/-- These bytes hold no line that proves a rate. -/
def Unproven (bytes : List UInt8) : Prop := ∀ line, lineFraming.IsFrame line → ProvesRate line → ¬line <:+: bytes

theorem unproven_iff {bytes : List UInt8} : Unproven bytes ↔ lineFraming.search ProvesRate none bytes = none :=
  lineFraming.search_eq_none_iff.symm

instance : DecidablePred Unproven := fun _ => decidable_of_iff' _ unproven_iff

theorem unproven_nil : Unproven [] := unproven_iff.mpr rfl

/-- The task is about to set another rate. -/
def InitPhase.moving : InitPhase → Bool
  | setup | clearing | baudSet _ => true
  | _ => false

/-- The task has found a line that proves the rate. -/
def InitPhase.proven : InitPhase → Bool
  | locking _ | feeding _ | ended => true
  | _ => false

variable {pdMsToTicks : UInt32 → UInt32} {history events : List ScanEvent} {record : ScanRecord} {s s' : BaudScan}

/-- When the task moves on, what it has read does not prove the rate. -/
def Left (record : ScanRecord) (s : BaudScan) : Prop := s.phase.moving = true → Unproven record.reads.flatten

theorem Left.advance (left : Left (.of history) s) (scanning : Scanning pdMsToTicks (.of history) s)
    (stepped : s.advance pdMsToTicks = some (s', events)) : Left (.of (history ++ events)) s' := by
  rw [Scanning] at scanning
  rw [BaudScan.advance] at stepped
  cases phase : s.phase <;> simp only [phase] at scanning stepped
  case setup =>
      cases stepped
      intro _
      rw [ScanRecord.of_snoc]
      exact left (by rw [phase]; rfl)
  case clearing =>
      cases stepped
      intro _
      rw [List.append_nil]
      exact left (by rw [phase]; rfl)
  case servicing =>
      split at stepped
      · cases stepped
        intro leaves
        cases leaves
      simp only [Option.bind_eq_bind, Option.bind_eq_some_iff] at stepped
      obtain ⟨rate, -, stepped⟩ := stepped
      split at stepped
      · cases stepped
        intro _
        rw [List.append_nil]
        exact unproven_iff.mpr scanning.unproven
      · cases stepped
        intro leaves
        cases leaves
  case rateSet =>
      simp only [Option.bind_eq_bind, Option.bind_eq_some_iff] at stepped
      obtain ⟨rate, -, stepped⟩ := stepped
      cases stepped
      intro leaves
      cases leaves
  case feeding =>
      simp only [Option.bind_eq_bind, Option.bind_eq_some_iff] at stepped
      obtain ⟨fed, -, stepped⟩ := stepped
      cases stepped
      intro leaves
      cases leaves
  case baudSet | flushing | locking =>
      cases stepped
      intro leaves
      cases leaves
  case reading | ended => cases stepped

theorem left_of_read {count : Nat} (stepped : s.next pdMsToTicks (.read count) = some (s', events)) :
    Left (.of (history ++ events)) s' := by
  rw [BaudScan.next] at stepped
  split at stepped
  swap
  · cases stepped
  split at stepped
  · simp only [Option.bind_eq_bind, Option.bind_eq_some_iff] at stepped
    obtain ⟨⟨probe, valid⟩, -, stepped⟩ := stepped
    cases stepped
    cases valid <;> intro leaves <;> cases leaves
  · cases stepped
    intro leaves
    cases leaves

theorem Left.next (left : Left (.of history) s) (scanning : Scanning pdMsToTicks (.of history) s) {a : ScanAction}
    (stepped : s.next pdMsToTicks a = some (s', events)) : Left (.of (history ++ events)) s' := by
  cases a with
  | tick | overrideBegin | overrideEndEnter =>
      cases stepped
      rw [List.append_nil]
      exact left
  | receive byte =>
      rw [BaudScan.next] at stepped
      split at stepped
      · cases stepped
        rw [ScanRecord.of_snoc]
        exact left
      · cases stepped
  | read count => exact left_of_read stepped
  | advance => exact left.advance scanning stepped
  | overrideFeed data =>
      simp only [BaudScan.next, Option.bind_eq_bind, Option.bind_eq_some_iff, Option.pure_def, Option.some.injEq,
        Prod.mk.injEq] at stepped
      obtain ⟨fed, -, rfl, rfl⟩ := stepped
      rw [List.append_nil]
      exact left
  | overrideEndClose =>
      rw [BaudScan.next] at stepped
      split at stepped
      · cases stepped
        rw [List.append_nil]
        exact left
      · cases stepped

theorem left_of_exec (run : (baudScanSystem pdMsToTicks).Exec history s) : Left (.of history) s := by
  refine run.invariant (I := fun history s => Left (.of history) s) ?_ ?_
  · intro s first
    obtain rfl : s = .initial := first
    exact fun _ => unproven_nil
  · intro history s a s' events earlier left stepped
    exact left.next (scanning_of_exec earlier).1 stepped

/-- Before the task has found a line that proves the rate, there is none in what it has read. -/
theorem unproven_of_exec (run : (baudScanSystem pdMsToTicks).Exec history s) (unfound : s.phase.proven = false) :
    Unproven (ScanRecord.of history).reads.flatten := by
  have left := left_of_exec run
  have scanning := (scanning_of_exec run).1
  rw [Scanning] at scanning
  cases phase : s.phase <;> simp only [phase] at scanning unfound
  case setup | clearing | baudSet => exact left (by rw [phase]; rfl)
  case rateSet =>
      rw [scanning.reads]
      exact unproven_nil
  case flushing =>
      rw [scanning.1.reads]
      exact unproven_nil
  case reading | servicing => exact unproven_iff.mpr scanning.unproven
  case locking | feeding | ended => cases unfound

/-- Where the task is when it sets or locks a rate. -/
def ScanEvent.From (phase : InitPhase) : ScanEvent → Prop
  | .baudSet _ _ => phase.proven = false
  | .locked _ => ∃ chunk, phase = .locking chunk
  | _ => True

theorem from_of_advance (stepped : s.advance pdMsToTicks = some (s', events)) :
    ∀ event ∈ events, event.From s.phase := by
  rw [BaudScan.advance] at stepped
  cases phase : s.phase <;> simp only [phase] at stepped
  case baudSet =>
      cases stepped
      exact List.forall_mem_singleton.mpr rfl
  case locking chunk =>
      cases stepped
      exact List.forall_mem_singleton.mpr ⟨chunk, rfl⟩
  case setup | clearing | flushing =>
      cases stepped
      simp [ScanEvent.From]
  case servicing =>
      split at stepped
      · cases stepped
        exact List.forall_mem_nil _
      simp only [Option.bind_eq_bind, Option.bind_eq_some_iff] at stepped
      obtain ⟨rate, -, stepped⟩ := stepped
      split at stepped <;>
        cases stepped <;> exact List.forall_mem_nil _
  case rateSet | feeding =>
      simp only [Option.bind_eq_bind, Option.bind_eq_some_iff] at stepped
      obtain ⟨found, -, stepped⟩ := stepped
      cases stepped
      simp [ScanEvent.From]
  case reading | ended => cases stepped

theorem from_of_next {a : ScanAction} (stepped : s.next pdMsToTicks a = some (s', events)) :
    ∀ event ∈ events, event.From s.phase := by
  cases a with
  | tick | overrideBegin | overrideEndEnter =>
      cases stepped
      exact List.forall_mem_nil _
  | receive byte =>
      rw [BaudScan.next] at stepped
      split at stepped <;>
        cases stepped
      exact List.forall_mem_singleton.mpr trivial
  | read count =>
      rw [BaudScan.next] at stepped
      split at stepped
      swap
      · cases stepped
      split at stepped
      · simp only [Option.bind_eq_bind, Option.bind_eq_some_iff] at stepped
        obtain ⟨fed, -, stepped⟩ := stepped
        cases stepped
        exact List.forall_mem_singleton.mpr trivial
      · cases stepped
        exact List.forall_mem_nil _
  | advance => exact from_of_advance stepped
  | overrideFeed data =>
      simp only [BaudScan.next, Option.bind_eq_bind, Option.bind_eq_some_iff] at stepped
      obtain ⟨fed, -, stepped⟩ := stepped
      cases stepped
      exact List.forall_mem_nil _
  | overrideEndClose =>
      rw [BaudScan.next] at stepped
      split at stepped <;>
        cases stepped
      exact List.forall_mem_nil _

/-- What setting or locking a rate says about what was read before: a rate is left only when
    nothing proves it, and locked when the last chunk has completed the first line that does. -/
def ScanEvent.Complete (before : List ScanEvent) : ScanEvent → Prop
  | .baudSet _ _ => Unproven (ScanRecord.of before).reads.flatten
  | .locked _ => ∃ earlier chunk, (ScanRecord.of before).reads = earlier ++ [chunk] ∧ Unproven earlier.flatten ∧
      ¬Unproven (earlier.flatten ++ chunk)
  | _ => True

structure ScanComplete (history : List ScanEvent) (s : BaudScan) : Prop where
  events : ∀ before event after, history = before ++ event :: after → event.Complete before
  /-- When a line has been read that proves the rate, the task locks the rate next or has done so. -/
  found : ¬Unproven (ScanRecord.of history).reads.flatten → s.phase.proven = true

theorem scan_complete {history : List ScanEvent} {s : BaudScan}
    (run : (baudScanSystem pdMsToTicks).Exec history s) : ScanComplete history s := by
  constructor
  · refine run.placed (P := fun before event => event.Complete before) ?_
    intro history s a s' events earlier stepped before event after split
    obtain ⟨scanning, fits⟩ := scanning_of_exec earlier
    have source := from_of_next stepped event (by simp [split])
    obtain rfl : before = [] := by
      obtain ⟨-, -, nothing | ⟨only, single, -⟩⟩ := scanning.next fits stepped
      · simp [nothing] at split
      · exact (System.split_singleton (single.symm.trans split)).1
    rw [List.append_nil]
    cases event with
    | baudSet index time => exact unproven_of_exec earlier source
    | locked index =>
        obtain ⟨chunk, phase⟩ := source
        rw [Scanning, phase] at scanning
        obtain ⟨chunks, reads, nothing, something⟩ := scanning.reads
        refine ⟨chunks, chunk, reads, unproven_iff.mpr nothing, ?_⟩
        rw [unproven_iff]
        exact Option.isSome_iff_ne_none.mp something
    | _ => trivial
  · intro proven
    by_contra unfound
    exact proven (unproven_of_exec run (Bool.eq_false_of_not_eq_true unfound))

/-- With a tick every millisecond the two chunks of `provingLine` lock the first rate. -/
def lockRun : Option (BaudScan × List ScanEvent) := System.replay (BaudScan.next id) .initial lockSchedule

theorem lockRun_isSome : lockRun.isSome = true := by decide +kernel

theorem lockRun_complete : .locked 0 ∈ (lockRun.get lockRun_isSome).2 ∧
    ScanComplete (lockRun.get lockRun_isSome).2 (lockRun.get lockRun_isSome).1 :=
  ⟨by decide +kernel, scan_complete (System.Exec.of_replay_isSome lockRun_isSome)⟩

end EspGnss.Gnss
