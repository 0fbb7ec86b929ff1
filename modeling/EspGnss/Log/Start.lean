import EspGnss.Log.Response

/-! # Where a `/log` client starts

`log_response_send` finds the oldest byte by comparing the write counter with the size
of the buffer. Just after the counter has wrapped the comparison takes the log for a
short one, and the client misses what was logged before the wrap.
-/

namespace EspGnss.Log

open Foundation LogCall

/-- A client with this `last_sent` starts at `position`: it has the rest of the log before
    it, and the ring buffer still holds all of that. -/
structure StartsAt (ring : LogRing) (logged : List UInt8) (lastSent : UInt32) (position : Nat) : Prop where
  available : (ring.writeTotal - lastSent).toNat = logged.length - position
  held : ∀ index < logged.length - position,
    ring.ringBuffer[(LogRing.cell (lastSent + .ofNat index) : Nat)]? = logged[position + index]?

namespace LogRing.Represents

variable {ring : LogRing} {logged : List UInt8}

/-- What the first section of `log_response_send` leaves to be sent. -/
theorem available_oldest (represents : ring.Represents logged) :
    (ring.writeTotal - ring.oldest).toNat = min (logged.length % 2 ^ 32) logRingBufferSize := by
  have counter : ring.writeTotal.toNat = logged.length % 2 ^ 32 := by
    rw [represents.writeTotal, UInt32.toNat_ofNat']
  have size : logRingBufferSize = 4096 := rfl
  rw [LogRing.oldest]
  split
  · rename_i more
    have far : logRingBufferSize < ring.writeTotal.toNat := (available_gt_iff _).mp more
    have whole : ring.writeTotal - (ring.writeTotal - .ofNat logRingBufferSize) = .ofNat logRingBufferSize := by
      grind
    rw [whole, UInt32.toNat_ofNat']
    omega
  · rename_i few
    have near : ¬logRingBufferSize < ring.writeTotal.toNat := mt (available_gt_iff _).mpr few
    rw [UInt32.sub_zero]
    omega

theorem startsAt (represents : ring.Represents logged) {lastSent : UInt32} {position : Nat}
    (recent : logged.length ≤ position + logRingBufferSize) (reached : position ≤ logged.length)
    (available : (ring.writeTotal - lastSent).toNat = logged.length - position) :
    StartsAt ring logged lastSent position := by
  have place : lastSent = .ofNat position := by
    have behind : ring.writeTotal - lastSent = .ofNat (logged.length - position) := by
      rw [← available, UInt32.ofNat_toNat]
    rw [represents.writeTotal, UInt32.ofNat_sub reached] at behind
    grind
  refine ⟨available, ?_⟩
  intro index inside
  rw [place, ← UInt32.ofNat_add, cell_ofNat]
  apply represents.holds
  · omega
  · omega

theorem startsAt_oldest_iff (represents : ring.Represents logged) :
    StartsAt ring logged ring.oldest (logged.length - logRingBufferSize) ↔
      logged.length < 2 ^ 32 ∨ logRingBufferSize ≤ logged.length % 2 ^ 32 := by
  have available := represents.available_oldest
  have size : logRingBufferSize = 4096 := rfl
  constructor
  · intro starts
    have whole := starts.available
    omega
  · intro clear
    apply represents.startsAt
    · omega
    · omega
    · omega

end LogRing.Represents

/-- The ring buffer and the ghost states describe what has been logged. -/
structure Capturing (r : LogResponse) (ring : LogRing) (ghosts : LogTask → TailGhost) : Prop where
  represents : ring.Represents r.logged
  formatted : ∀ t, (ghosts t).formatted = r.formatted t

namespace Capturing

variable {r r' : LogResponse} {shared : LogShared} {ring : LogRing} {ghosts : LogTask → TailGhost} {t : LogTask}

theorem quiet {ghost : TailGhost} (capturing : Capturing r ring ghosts)
    (log : r'.logged = r.logged ∧ r'.formatted = r.formatted)
    (same : ghost.formatted = (ghosts t).formatted) : Capturing r' ring (Function.update ghosts t ghost) := by
  refine ⟨log.1 ▸ capturing.represents, ?_⟩
  rw [log.2]
  exact formatted_kept capturing.formatted same

theorem format (capturing : Capturing r ring ghosts) (formatted : LineReply) :
    Capturing { r with formatted := Function.update r.formatted t formatted } ring
      (Function.update ghosts t { ghosts t with formatted := formatted }) := by
  exact ⟨capturing.represents, formatted_update capturing.formatted formatted⟩

theorem step {c : LogCall} {reply : c.Reply} (capturing : Capturing r shared.ring ghosts)
    (allowed : (tailMonitor t).allows (ghosts t) c) :
    Capturing (r.after ⟨t, ⟨c, reply⟩⟩) (shared.observe ⟨c, reply⟩).ring
      (Function.update ghosts t ((tailMonitor t).observe (ghosts t) ⟨c, reply⟩)) := by
  cases c with
  | vsnprintf => exact capturing.format reply
  | ringAppend line =>
      have captured : line = (r.formatted t).captured := capturing.formatted t ▸ allowed.2
      have longer : Capturing { r with logged := r.logged ++ (r.formatted t).captured }
          (shared.ring.append line) ghosts := by
        rw [captured]
        exact ⟨capturing.represents.append _, capturing.formatted⟩
      exact longer.quiet ⟨rfl, rfl⟩ rfl
  | requestQueueSend asyncReq =>
      cases reply with
      | false => exact capturing.quiet ⟨rfl, rfl⟩ rfl
      | true => exact capturing.quiet ⟨rfl, rfl⟩ rfl
  | _ => exact capturing.quiet ⟨rfl, rfl⟩ rfl

end Capturing

/-- After every run the ring buffer is what it is after the whole log. -/
theorem represents_of_exec {early : List (List UInt8)} {history s} (run : (logSystem early).Exec history s) :
    s.shared.ring.Represents (response early history).logged := by
  have initially : Capturing (response early []) (LogShared.initial early).ring
      fun _ => ⟨⟨0, .replicate _ 0⟩, false, ⟨0, []⟩⟩ :=
    ⟨LogRing.represents_foldl early LogRing.represents_empty, fun t => rfl⟩
  have heads (t : LogTask) : tailOutline.head t t.start ⟨⟨0, .replicate _ 0⟩, false, ⟨0, []⟩⟩ := by
    constructor
    · cases t <;> rfl
    · intro asyncReq lastSent sends
      cases t <;> cases sends
  obtain ⟨ghosts, capturing, -⟩ := Tasks.invariant_of_outline
    (I := fun history (shared : LogShared) ghosts => Capturing (response early history) shared.ring ghosts)
    (fun t round ghost head => round_tails head) heads initially
    (fun history shared ghosts t round c answer reply capturing allowed replied => by
      rw [response_snoc]
      exact capturing.step allowed) run
  exact capturing.represents

/-- The section of `log_response_send` finds the ring buffer of the whole log. -/
theorem client_of_exec {early : List (List UInt8)} {history oldest s}
    (run : (logSystem early).Exec (history ++ [⟨.worker, ⟨ringOldest, oldest⟩⟩]) s) :
    oldest = s.shared.ring.oldest ∧ s.shared.ring.Represents (response early history).logged := by
  obtain ⟨before, answer, replied, after⟩ := logTasks.last_call run
  have represents := represents_of_exec run
  rw [response_snoc] at represents
  refine ⟨?_, represents⟩
  rw [after]
  exact (Option.some_inj.mp replied).symm

/-- A client starts with all of the last 4096 bytes exactly when the counter has not
    wrapped or is 4096 or more past the wrap. -/
theorem log_client_start_iff {early : List (List UInt8)} {history oldest s}
    (run : (logSystem early).Exec (history ++ [⟨.worker, ⟨ringOldest, oldest⟩⟩]) s) :
    StartsAt s.shared.ring (response early history).logged oldest
        ((response early history).logged.length - logRingBufferSize) ↔
      (response early history).logged.length < 2 ^ 32 ∨
        logRingBufferSize ≤ (response early history).logged.length % 2 ^ 32 := by
  obtain ⟨found, represents⟩ := client_of_exec run
  rw [found]
  exact represents.startsAt_oldest_iff

/-! One task logs line after line, and then a client connects. -/

/-- Every task is between two rounds, and nobody is served. -/
def idle (ring : LogRing) (notifications : Nat) : LogStack :=
  logTasks.initial { LogShared.initial [] with ring := ring, notifications := notifications } LogTask.start

/-- The line that the tasks log here. -/
def loggedLine : List UInt8 := (LogCall.succeeds vsnprintf).captured

theorem loggedLine_length : loggedLine.length = 4 := by decide +kernel

/-- One round of a task that logs. -/
theorem idle_line (ring : LogRing) (notifications : Nat) : ∃ events,
    System.replay logTasks.next (idle ring notifications) (List.replicate 6 (.logger 0, LogCall.succeeds)) =
        some (idle (ring.append loggedLine) (notifications + 1), events) ∧
      ∀ r, (events.foldl LogResponse.after r).logged = r.logged ++ loggedLine := by
  obtain ⟨s, events, played, shared, tasks, logged⟩ : ∃ s events,
      System.replay logTasks.next (idle ring notifications) (List.replicate 6 (.logger 0, LogCall.succeeds)) =
          some (s, events) ∧
        s.shared = (idle (ring.append loggedLine) (notifications + 1)).shared ∧
        (∀ t, s.task t = (idle (ring.append loggedLine) (notifications + 1)).task t) ∧
        ∀ r, (events.foldl LogResponse.after r).logged = r.logged ++ loggedLine := by
    refine ⟨_, _, rfl, rfl, ?_, fun r => rfl⟩
    intro t
    cases t with
    | httpd | worker => rfl
    | logger index =>
        by_cases first : index = 0
        · subst first
          rfl
        · have other : LogTask.logger index ≠ .logger 0 := by simpa using first
          simp only [Function.update_of_ne other]
          rfl
  obtain ⟨shared', task⟩ := s
  obtain rfl := shared
  obtain rfl := funext tasks
  exact ⟨events, played, logged⟩

theorem idle_exec (lines : Nat) : ∃ history ring, (logSystem []).Exec history (idle ring lines) ∧
    (response [] history).logged.length = 4 * lines := by
  induction lines with
  | zero => exact ⟨[], _, .start rfl, rfl⟩
  | succ lines ih =>
      obtain ⟨history, ring, run, length⟩ := ih
      obtain ⟨events, played, logged⟩ := idle_line ring lines
      refine ⟨history ++ events, _, run.replay_from played, ?_⟩
      have longer := congrArg List.length (logged (response [] history))
      rw [List.length_append, loggedLine_length, length] at longer
      rw [response, List.foldl_append]
      exact longer

/-- The server queues a client, and the worker logs a line of its own before it looks for
    the oldest byte. -/
def connectSchedule : List LogTask := .worker :: List.replicate 4 .httpd ++ List.replicate 9 .worker

theorem connect_exec (lines : Nat) : ∃ history oldest s,
    (logSystem []).Exec (history ++ [⟨.worker, ⟨ringOldest, oldest⟩⟩]) s ∧
      (response [] history).logged.length = 4 * (lines + 1) := by
  obtain ⟨history, ring, run, length⟩ := idle_exec lines
  obtain ⟨s, events, s', played, found, logged⟩ : ∃ s events s',
      System.replay logTasks.next (idle ring lines) (connectSchedule.map fun t => (t, LogCall.succeeds)) =
          some (s, events) ∧
        logTasks.next s (.worker, LogCall.succeeds) =
          some (s', [⟨.worker, ⟨ringOldest, s.shared.ring.oldest⟩⟩]) ∧
        ∀ r, (events.foldl LogResponse.after r).logged = r.logged ++ loggedLine :=
    ⟨_, _, _, rfl, rfl, fun r => rfl⟩
  refine ⟨history ++ events, s.shared.ring.oldest, s', ?_, ?_⟩
  · have connected : (logSystem []).Exec (history ++ events) s := run.replay_from played
    exact connected.next found
  · have longer := congrArg List.length (logged (response [] history))
    rw [List.length_append, loggedLine_length, length] at longer
    rw [response, List.foldl_append]
    exact longer

theorem first_client_starts : ∃ history oldest s,
    (logSystem []).Exec (history ++ [⟨.worker, ⟨ringOldest, oldest⟩⟩]) s ∧
      StartsAt s.shared.ring (response [] history).logged oldest 0 := by
  obtain ⟨history, oldest, s, run, length⟩ := connect_exec 0
  have starts := (log_client_start_iff run).mpr (by omega)
  rw [length] at starts
  exact ⟨history, oldest, s, run, starts⟩

/-- When 2^32 bytes have been logged, a client starts at their end. -/
theorem wrapped_client_skips : ∃ history oldest s,
    (logSystem []).Exec (history ++ [⟨.worker, ⟨ringOldest, oldest⟩⟩]) s ∧
      (response [] history).logged.length = 2 ^ 32 ∧
      StartsAt s.shared.ring (response [] history).logged oldest (2 ^ 32) ∧
      ¬StartsAt s.shared.ring (response [] history).logged oldest (2 ^ 32 - logRingBufferSize) := by
  obtain ⟨history, oldest, s, run, length⟩ := connect_exec (2 ^ 30 - 1)
  have total : (response [] history).logged.length = 2 ^ 32 := by omega
  obtain ⟨found, represents⟩ := client_of_exec run
  have available := represents.available_oldest
  rw [total, Nat.mod_self, ← found] at available
  refine ⟨history, oldest, s, run, total, ?_, ?_⟩
  · apply represents.startsAt
    · omega
    · omega
    · omega
  · intro starts
    have whole := starts.available
    have size : logRingBufferSize = 4096 := rfl
    omega

end EspGnss.Log
