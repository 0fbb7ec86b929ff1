import EspGnss.Foundation.CallTree
import EspGnss.Foundation.System
import Mathlib.Data.List.Nodup

/-! # Starting parts beside a program

A program creates objects and starts parts, which run beside it from then on and use
objects whenever they like. If the program starts a part only when the objects it uses
exist, no part ever finds one missing, however parts and program interleave.
-/

namespace Foundation

/-- What has been created and started, and whether a call has failed. -/
structure Startup.Progress (Object Part : Type) where
  created : Object → Prop
  started : Part → Prop
  failed : Bool

/-- What the calls of a program create and start, which outcomes are failures, what must have
    come about when a call is made, and what the started parts use. -/
structure Startup {Call : Type} (Reply : Call → Type) (Object Part : Type) where
  creates : CallEvent Reply → Option Object
  starts : CallEvent Reply → Option Part
  fails : CallEvent Reply → Bool
  demands : Startup.Progress Object Part → Call → Prop
  uses : Part → Object → Prop

inductive StartupEvent {Call : Type} (Reply : Call → Type) (Object Part : Type) where
  | called (event : CallEvent Reply)
  | used (part : Part) (object : Object)

/-- What remains of the program, and the calls it has made. -/
structure StartupState {Call : Type} (Reply : Call → Type) where
  program : CallTree Call Reply Unit
  past : List (CallEvent Reply)

variable {Call Object Part : Type} {Reply : Call → Type}

namespace Startup

variable (startup : Startup Reply Object Part)

/-- A step of the program, or of a part that has been started. A call that has no reply
    never returns. -/
inductive Step (s : StartupState Reply) :
    StartupState Reply → List (StartupEvent Reply Object Part) → Prop where
  | call {c later} (reply : Reply c) : s.program = .call c later →
      Step s ⟨later reply, s.past ++ [⟨c, reply⟩]⟩ [.called ⟨c, reply⟩]
  | use {event part object} : event ∈ s.past → startup.starts event = some part → startup.uses part object →
      Step s s [.used part object]

def system (program : CallTree Call Reply Unit) :
    System (StartupState Reply) Unit (StartupEvent Reply Object Part) where
  init s := s = ⟨program, []⟩
  step s _ := startup.Step s

def Progress.none : Progress Object Part := ⟨fun _ => False, fun _ => False, false⟩

/-- A call finds what it demands. Nothing is created or started twice, and a part is started
    only when nothing has failed and what it uses exists. -/
@[simps] def monitor : Monitor Reply (Progress Object Part) where
  allows progress c := startup.demands progress c ∧ ∀ reply,
    (∀ object ∈ startup.creates ⟨c, reply⟩, ¬progress.created object) ∧
      ∀ part ∈ startup.starts ⟨c, reply⟩, ¬progress.started part ∧ progress.failed = false ∧
        ∀ object, startup.uses part object → progress.created object
  observe progress event :=
    { created := fun object => progress.created object ∨ startup.creates event = some object
      started := fun part => progress.started part ∨ startup.starts event = some part
      failed := progress.failed || startup.fails event }

/-- What the calls of the past come to. -/
structure Accounts (past : List (CallEvent Reply)) (progress : Progress Object Part) : Prop where
  created : ∀ object, progress.created object ↔ ∃ event ∈ past, startup.creates event = some object
  started : ∀ part, progress.started part ↔ ∃ event ∈ past, startup.starts event = some part
  failed : progress.failed = past.any startup.fails
  provided : ∀ part object, progress.started part → startup.uses part object → progress.created object
  createdOnce : (past.filterMap startup.creates).Nodup
  startedOnce : (past.filterMap startup.starts).Nodup

variable {startup}

theorem accounts_nil : startup.Accounts [] .none where
  created object := by simp [Progress.none]
  started part := by simp [Progress.none]
  failed := rfl
  provided _ _ started := started.elim
  createdOnce := .nil
  startedOnce := .nil

theorem Accounts.call {past : List (CallEvent Reply)} {progress : Progress Object Part} {event : CallEvent Reply}
    (accounts : startup.Accounts past progress) (allowed : startup.monitor.allows progress event.call) :
    startup.Accounts (past ++ [event]) (startup.monitor.observe progress event) := by
  obtain ⟨fresh, ready⟩ := allowed.2 event.reply
  have once {β : Type} {f : CallEvent Reply → Option β} (nodup : (past.filterMap f).Nodup)
      (new : ∀ x ∈ f event, x ∉ past.filterMap f) : ((past ++ [event]).filterMap f).Nodup := by
    rw [List.filterMap_append, List.filterMap_cons, List.filterMap_nil]
    cases here : f event with
    | none => simpa using nodup
    | some x =>
        apply nodup.append (List.nodup_singleton x)
        exact List.disjoint_singleton.mpr (new x here)
  constructor
  · intro object
    simp [accounts.created, or_and_right, exists_or]
  · intro part
    simp [accounts.started, or_and_right, exists_or]
  · simp [accounts.failed]
  · intro part object started used
    rcases started with before | now
    · exact .inl (accounts.provided part object before used)
    · exact .inl ((ready part now).2.2 object used)
  · apply once accounts.createdOnce
    intro object creates member
    obtain ⟨event, earlier, created⟩ := List.mem_filterMap.mp member
    exact fresh object creates ((accounts.created object).mpr ⟨event, earlier, created⟩)
  · apply once accounts.startedOnce
    intro part starts member
    obtain ⟨event, earlier, started⟩ := List.mem_filterMap.mp member
    exact (ready part starts).1 ((accounts.started part).mpr ⟨event, earlier, started⟩)

/-- The calls that a history records. -/
def calls (history : List (StartupEvent Reply Object Part)) : List (CallEvent Reply) :=
  history.filterMap fun
    | .called event => some event
    | .used _ _ => none

/-- In every run the program is in the middle of obeying the monitor, from what its calls so
    far come to. -/
theorem accounts_of_exec {program : CallTree Call Reply Unit} {post : Progress Object Part → Unit → Prop}
    (obeys : program.Meets startup.monitor post .none) {history s} (run : (startup.system program).Exec history s) :
    s.past = calls history ∧
      ∃ progress, startup.Accounts s.past progress ∧ s.program.Meets startup.monitor post progress := by
  induction run with
  | start first =>
      cases first
      exact ⟨rfl, .none, accounts_nil, obeys⟩
  | next _ step ih =>
      obtain ⟨past, progress, accounts, meets⟩ := ih
      cases step with
      | use => exact ⟨by simp [past, calls], progress, accounts, meets⟩
      | call reply about =>
          rw [about] at meets
          exact ⟨by simp [past, calls], _, accounts.call meets.1, meets.2 reply⟩

/-- What the run of a program guarantees that starts its parts in order. -/
structure InOrder (history : List (StartupEvent Reply Object Part)) : Prop where
  /-- A part uses only what has been created before. -/
  used : ∀ before part object after, history = before ++ .used part object :: after →
    ∃ event ∈ calls before, startup.creates event = some object
  /-- A part is started only when no call has failed. -/
  unfailed : ∀ before event after, history = before ++ .called event :: after →
    startup.starts event ≠ none → ∀ earlier ∈ calls before, startup.fails earlier = false
  createdOnce : ((calls history).filterMap startup.creates).Nodup
  startedOnce : ((calls history).filterMap startup.starts).Nodup

theorem inOrder_of_exec {program : CallTree Call Reply Unit} {post : Progress Object Part → Unit → Prop}
    (obeys : program.Meets startup.monitor post .none) {history s} (run : (startup.system program).Exec history s) :
    startup.InOrder history := by
  have placed := System.Exec.placed (P := fun before event =>
    match event with
    | .used _ object => ∃ event ∈ calls before, startup.creates event = some object
    | .called event => startup.starts event ≠ none →
        ∀ earlier ∈ calls before, startup.fails earlier = false) ?_ run
  · obtain ⟨past, progress, accounts, -⟩ := accounts_of_exec obeys run
    constructor
    · intro before part object after split
      exact placed before _ after split
    · intro before event after split
      exact placed before _ after split
    · rw [← past]
      exact accounts.createdOnce
    · rw [← past]
      exact accounts.startedOnce
  intro history s _ s' events earlier step before event after split
  obtain ⟨past, progress, accounts, meets⟩ := accounts_of_exec obeys earlier
  cases step with
  | use member starts used =>
      obtain ⟨rfl, rfl, rfl⟩ := System.split_singleton split
      rw [List.append_nil, ← past]
      exact (accounts.created _).mp (accounts.provided _ _ ((accounts.started _).mpr ⟨_, member, starts⟩) used)
  | @call c later reply about =>
      obtain ⟨rfl, rfl, rfl⟩ := System.split_singleton split
      rw [List.append_nil, ← past]
      intro starts call member
      rw [about] at meets
      obtain ⟨part, here⟩ := Option.ne_none_iff_exists'.mp starts
      have clear : progress.failed = false := ((meets.1.2 reply).2 part here).2.1
      rw [accounts.failed] at clear
      simpa using List.any_eq_false.mp clear call member

/-- A call that is about to be made finds what it demands. -/
theorem demanded_of_exec {program : CallTree Call Reply Unit} {post : Progress Object Part → Unit → Prop}
    (obeys : program.Meets startup.monitor post .none) {history s} (run : (startup.system program).Exec history s)
    {c : Call} (about : s.program.head? = some c) :
    ∃ progress, startup.Accounts (calls history) progress ∧ startup.demands progress c := by
  obtain ⟨past, progress, accounts, meets⟩ := accounts_of_exec obeys run
  rw [past] at accounts
  exact ⟨progress, accounts, (meets.head? about).1⟩

/-- Every call of a run found what it demands. -/
theorem demanded_in_run {program : CallTree Call Reply Unit} {post : Progress Object Part → Unit → Prop}
    (obeys : program.Meets startup.monitor post .none) {history s} (run : (startup.system program).Exec history s)
    {before event after} (split : history = before ++ .called event :: after) :
    ∃ progress, startup.Accounts (calls before) progress ∧ startup.demands progress event.call := by
  apply System.Exec.placed (P := fun before event =>
    match event with
    | .used _ _ => True
    | .called event => ∃ progress, startup.Accounts (calls before) progress ∧ startup.demands progress event.call)
    _ run before _ after split
  intro history s _ s' events earlier step before event after split
  cases step with
  | use =>
      obtain ⟨rfl, rfl, rfl⟩ := System.split_singleton split
      trivial
  | @call c later reply about =>
      obtain ⟨rfl, rfl, rfl⟩ := System.split_singleton split
      rw [List.append_nil]
      apply demanded_of_exec obeys earlier
      rw [about]
      rfl

/-- The calls that a program makes under fixed answers, until it ends or is not answered. -/
def play (answer : (c : Call) → Option (Reply c)) : CallTree Call Reply Unit → List (CallEvent Reply)
  | .done _ => []
  | .call c later =>
      match answer c with
      | some reply => ⟨c, reply⟩ :: play answer (later reply)
      | none => []

theorem exec_play {program : CallTree Call Reply Unit} (answer : (c : Call) → Option (Reply c)) {history s}
    (run : (startup.system program).Exec history s) :
    ∃ rest, (startup.system program).Exec (history ++ (play answer s.program).map .called)
      ⟨rest, s.past ++ play answer s.program⟩ := by
  obtain ⟨remaining, past⟩ := s
  induction remaining generalizing history past with
  | done value => exact ⟨.done value, by simpa [play] using run⟩
  | call c later ih =>
      rw [play]
      cases replied : answer c with
      | none => exact ⟨.call c later, by simpa using run⟩
      | some reply =>
          have step : (startup.system program).step ⟨.call c later, past⟩ () ⟨later reply, past ++ [⟨c, reply⟩]⟩
            [.called ⟨c, reply⟩] := .call reply rfl
          obtain ⟨rest, further⟩ := ih reply _ (run.next step)
          exact ⟨rest, by simpa using further⟩

/-- Played from its start, a program is in the middle of a run. -/
theorem exec_play_start (startup : Startup Reply Object Part) (answer : (c : Call) → Option (Reply c))
    (program : CallTree Call Reply Unit) :
    ∃ rest, (startup.system program).Exec ((play answer program).map .called) ⟨rest, play answer program⟩ := by
  have start : (startup.system program).Exec [] ⟨program, []⟩ := .start rfl
  exact exec_play answer start

end Startup

end Foundation
