import EspGnss.Gnss.Outcome
import EspGnss.Http.Handback
import EspGnss.Http.Snapshot

/-! # From the body of a request to the publications

An upload of the write worker is one session of the parser. Until the worker hands the
parser back, the bytes that it has passed to `gnss_input_override_feed` are those that the
session has accepted and those that the section in progress still holds.
-/

namespace EspGnss.Http

open Foundation Gnss HttpCall

variable {workers : Nat} {gnss gnss' : GnssStack} {events later : List GnssEvent} {ghost : UploadGhost}

/-- The bytes of the upload that the section in progress has still to feed. -/
def pendingOverride : Option Feed → List UInt8
  | some ⟨.override, data⟩ => data
  | some ⟨.uart, _⟩ | none => []

/-- Some session has been closed that was fed these bytes. -/
def ClosedWith (bytes : List UInt8) (events : List GnssEvent) : Prop :=
  ∃ session, .closed session ∈ events ∧ acceptedBytes session .override events = bytes

/-- Where the bytes of the upload are. -/
structure Carried (events : List GnssEvent) (gnss : GnssStack) (ghost : UploadGhost) : Prop where
  run : gnssSystem.Exec events gnss
  begun : ghost.phase ≠ .resting → ∀ u ∈ ghost.upload, u.begins ≠ 0
  before : ghost.phase = .resting → ∀ u ∈ ghost.upload, u.begins = 0 → u.fed = []
  during : ghost.phase ≠ .resting → ∀ u ∈ ghost.upload, u.begins = 1 →
    acceptedBytes gnss.session .override events ++ pendingOverride gnss.mutex = u.fed
  after : ghost.phase = .resting → ∀ u ∈ ghost.upload, u.begins = 1 → ClosedWith u.fed events

theorem ClosedWith.append {bytes : List UInt8} (closedWith : ClosedWith bytes events)
    (run : gnssSystem.Exec events gnss) (others : ∀ session, session ≠ gnss.session → Elsewhere session later) :
    ClosedWith bytes (events ++ later) := by
  obtain ⟨session, closed, same⟩ := closedWith
  obtain ⟨_, _, _, _, _, known⟩ := closedAt_of_exec run closed
  have quiet := (others session (Nat.ne_of_lt known.past)).bytes .override
  refine ⟨session, List.mem_append_left _ closed, ?_⟩
  rw [acceptedBytes_append, quiet, List.append_nil, same]

namespace GnssTransition

variable {c : JoinedCall workers}

theorem elsewhere (moved : GnssTransition gnss c gnss' later) {session : Nat} (other : session ≠ gnss.session) :
    Elsewhere session later := by
  cases moved with
  | own step => exact elsewhere_of_next step other
  | task _ step => exact elsewhere_of_next step other
  | receive step => exact elsewhere_of_next step other
  | quiet _ nothing =>
      rw [nothing]
      exact ⟨fun _ => rfl, rfl⟩

/-- A step that the write worker does not take itself leaves an upload alone. -/
theorem leaves {own : HttpCall workers} (moved : GnssTransition gnss (.http own) gnss' later) :
    gnss'.session = gnss.session ∧ pendingOverride gnss'.mutex = pendingOverride gnss.mutex ∧
      acceptedBytes gnss.session .override later = [] := by
  cases moved with
  | quiet same nothing =>
      rw [same, nothing]
      exact ⟨rfl, rfl, rfl⟩
  | receive step =>
      cases Transition.of_next step with
      | refused | publicationReceive => exact ⟨rfl, rfl, rfl⟩
  | task takes step =>
      cases Transition.of_next step with
      | overrideFeed | overrideBegin | endEnter | endDiscard | endSend | endTake | endClose | publicationReceive =>
          cases takes
      | uartFeed free =>
          rw [free]
          exact ⟨rfl, rfl, rfl⟩
      | @overrun source _ _ held | @scanned source _ _ _ held | @paired source _ _ _ _ _ held
      | @dropped source _ _ _ _ held | @feedReturn source held =>
          obtain rfl : source = .uart := by simpa [gnssTaskTakes, held] using takes
          rw [held]
          exact ⟨rfl, rfl, by simp [acceptedBytes]⟩
      | @receive member =>
          obtain ⟨queueSet, pc, same⟩ := gnss.receiveSelected_eq member
          rw [same]
          exact ⟨rfl, rfl, rfl⟩
      | _ => exact ⟨rfl, rfl, rfl⟩

end GnssTransition

/-- The upload under way is one that was, as far as its bytes go, or a new one. -/
def Continues (upload upload' : Option WriteUpload) (renewed : Prop) : Prop :=
  ∀ u' ∈ upload', (renewed ∧ u'.begins = 0 ∧ u'.fed = []) ∨ ∃ u ∈ upload, u'.begins = u.begins ∧ u'.fed = u.fed

theorem Carried.http {own : HttpCall workers} (carried : Carried events gnss ghost)
    (moved : GnssTransition gnss (.http own) gnss' later) {ghost' : UploadGhost} (phase : ghost'.phase = ghost.phase)
    (continues : Continues ghost.upload ghost'.upload (ghost.phase = .resting)) :
    Carried (events ++ later) gnss' ghost' := by
  obtain ⟨session, pending, nothing⟩ := moved.leaves
  obtain ⟨run, begun, before, during, after⟩ := carried
  have others (session) (other : session ≠ gnss.session) : Elsewhere session later := moved.elsewhere other
  rw [← phase] at begun before during after continues
  constructor
  · exact moved.exec run
  · intro busy u' member
    obtain ⟨rests, -⟩ | ⟨u, listed, begins, -⟩ := continues u' member
    · exact absurd rests busy
    · rw [begins]
      exact begun busy u listed
  · intro rests u' member unbegun
    obtain ⟨-, -, none⟩ | ⟨u, listed, begins, fed⟩ := continues u' member
    · exact none
    · rw [fed]
      exact before rests u listed (begins.symm.trans unbegun)
  · intro busy u' member once
    obtain ⟨rests, -⟩ | ⟨u, listed, begins, fed⟩ := continues u' member
    · exact absurd rests busy
    · rw [session, pending, acceptedBytes_append, nothing, List.append_nil, fed]
      exact during busy u listed (begins.symm.trans once)
  · intro rests u' member once
    obtain ⟨-, unbegun, -⟩ | ⟨u, listed, begins, fed⟩ := continues u' member
    · rw [unbegun] at once
      cases once
    · rw [fed]
      exact (after rests u listed (begins.symm.trans once)).append run others

theorem ne_resting {phase : OverridePhase} (active : phase.active = true) : phase ≠ .resting := by
  intro rests
  rw [rests] at active
  cases active

/-- A step inside an override function. -/
theorem Carried.within (carried : Carried events gnss ghost) {action : GnssAction} {ghost' : UploadGhost}
    (next : gnss.next action = some (gnss', later)) (busy : ghost.phase ≠ .resting) (still : ghost'.phase ≠ .resting)
    (continues : Continues ghost.upload ghost'.upload False) (session : gnss'.session = gnss.session)
    (bytes : acceptedBytes gnss.session .override later ++ pendingOverride gnss'.mutex = pendingOverride gnss.mutex) :
    Carried (events ++ later) gnss' ghost' := by
  obtain ⟨run, begun, -, during, -⟩ := carried
  constructor
  · exact run.next next
  · intro _ u' member
    obtain ⟨never, -⟩ | ⟨u, listed, begins, -⟩ := continues u' member
    · exact never.elim
    · rw [begins]
      exact begun busy u listed
  · exact fun rests => absurd rests still
  · intro _ u' member once
    obtain ⟨never, -⟩ | ⟨u, listed, begins, fed⟩ := continues u' member
    · exact never.elim
    · rw [session, acceptedBytes_append, List.append_assoc, bytes, fed]
      exact during busy u listed (begins.symm.trans once)
  · exact fun rests => absurd rests still

theorem continues_self {upload : Option WriteUpload} {renewed : Prop} : Continues upload upload renewed :=
  fun u member => .inr ⟨u, member, rfl, rfl⟩

theorem endClose_closes {task : Nat} (next : gnss.next (.endClose task) = some (gnss', later)) :
    gnss.mutex = none ∧ later = [.closed gnss.session] := by
  simp only [GnssStack.next] at next
  split at next
  · cases next
  · rename_i free
    split at next
    · cases next
      exact ⟨by simpa using free, rfl⟩
    all_goals cases next

/-- A byte of the upload enters the parser. -/
theorem feedByte_carried {byte : UInt8} {rest : List UInt8} (held : gnss.mutex = some ⟨.override, byte :: rest⟩)
    (next : gnss.next .feedByte = some (gnss', later)) : gnss'.session = gnss.session ∧
      acceptedBytes gnss.session .override later ++ pendingOverride gnss'.mutex = byte :: rest := by
  cases Transition.of_next next with
  | refused =>
      rw [held]
      exact ⟨rfl, rfl⟩
  | overrun same | scanned same | paired same | dropped same =>
      rw [held] at same
      cases same
      exact ⟨rfl, by simp [acceptedBytes, pendingOverride]⟩

theorem Carried.works (carried : Carried events gnss ghost) {action : GnssAction} (describes : ghost.phase.Describes gnss)
    (takes : ghost.phase.takes action) (next : gnss.next action = some (gnss', later)) :
    Carried (events ++ later) gnss'
      (sectionMonitor.observe ghost (⟨.gnss action, ⟨gnss.input, later⟩⟩ : JoinedEvent workers)) := by
  have granted := describes.granted
  have held := describes.feed
  obtain ⟨phase, refused, upload⟩ := ghost
  dsimp only at takes granted held
  cases action with
  | initReset | uartFeed | timerExpire | filterStep | publicationReceive => cases takes
  | overrideBegin =>
      obtain rfl : phase = .resting := takes
      have starts := granted.1 rfl
      have inactive : gnss.input.overrideActive = false := describes.active
      have fresh : Unopened (gnss.session + 1) events := by
        obtain ⟨cuts, parsed, -⟩ := parsed_of_exec carried.run
        exact (parsed.future _ (Nat.lt_succ_self _)).1
      have ran := carried.run.next next
      simp [GnssStack.next, GnssStack.overrideBegin, gnssInputOverrideBegin, inactive] at next
      obtain ⟨free, rfl, rfl⟩ := next
      have moves : OverridePhase.after .resting (⟨.gnss .overrideBegin, ⟨gnss.input, [.begun (gnss.session + 1)]⟩⟩ :
          JoinedEvent workers) = .uploading := if_pos starts
      constructor
      · exact ran
      · intro _ u' member
        obtain ⟨u, listed, rfl⟩ := Option.mem_map.mp member
        exact Nat.succ_ne_zero _
      · intro rests
        cases moves.symm.trans rests
      · intro _ u' member once
        obtain ⟨u, listed, rfl⟩ := Option.mem_map.mp member
        have fed : u.fed = [] := carried.before rfl u listed (Nat.succ.inj once)
        rw [acceptedBytes_append, fresh.bytes]
        change [] ++ pendingOverride gnss.mutex = u.fed
        rw [free, fed]
        rfl
      · intro rests
        cases moves.symm.trans rests
  | overrideFeed data =>
      obtain rfl : phase = .uploading := takes
      obtain ⟨accepts, -⟩ := granted.2 rfl
      have ran := carried.run.next next
      have moves : OverridePhase.after .uploading (⟨.gnss (.overrideFeed data), ⟨gnss.input, later⟩⟩ :
          JoinedEvent workers) = .feeding data.length := by
        rw [OverridePhase.after, accepts]
        rfl
      simp only [GnssStack.next, accepts] at next
      split at next
      · cases next
      · rename_i free
        cases next
        constructor
        · exact ran
        · intro _ u' member
          obtain ⟨u, listed, rfl⟩ := Option.mem_map.mp member
          exact carried.begun (ne_resting rfl) u listed
        · intro rests
          cases moves.symm.trans rests
        · intro _ u' member once
          obtain ⟨u, listed, rfl⟩ := Option.mem_map.mp member
          have fed := carried.during (ne_resting rfl) u listed once
          have unheld : gnss.mutex = none := by simpa using free
          rw [unheld, pendingOverride, List.append_nil] at fed
          rw [List.append_nil]
          exact congrArg (· ++ data) fed
        · intro rests
          cases moves.symm.trans rests
  | feedByte =>
      obtain ⟨count, rfl⟩ : ∃ count, phase = .feeding (count + 1) := takes
      obtain ⟨data, held, length⟩ := OverridePhase.remainingFeed_eq_some held
      cases data with
      | nil => cases length
      | cons byte rest =>
          obtain ⟨session, bytes⟩ := feedByte_carried held next
          refine carried.within next (ne_resting rfl) (ne_resting rfl) continues_self session ?_
          rw [bytes, held]
          rfl
  | feedReturn =>
      obtain rfl : phase = .feeding 0 := takes
      obtain ⟨data, held, length⟩ := OverridePhase.remainingFeed_eq_some held
      obtain rfl := List.eq_nil_of_length_eq_zero length
      cases Transition.of_next next with
      | refused => exact carried.within next (ne_resting rfl) (ne_resting rfl) continues_self rfl rfl
      | feedReturn same =>
          refine carried.within next (ne_resting rfl) (ne_resting rfl) continues_self rfl ?_
          rw [held]
          rfl
  | endEnter task =>
      obtain rfl : phase = .uploading := takes
      obtain ⟨-, closes⟩ := granted.2 rfl
      have moves : OverridePhase.after .uploading (⟨.gnss (.endEnter task), ⟨gnss.input, later⟩⟩ :
          JoinedEvent workers) = .discarding := if_pos closes
      have continues : Continues upload (uploadAfter upload (⟨gnssOverrideEnd, ()⟩ : HttpEvent workers)) False := by
        intro u' member
        obtain ⟨u, listed, rfl⟩ := Option.mem_map.mp member
        exact .inr ⟨u, listed, rfl, rfl⟩
      have still : OverridePhase.after .uploading (⟨.gnss (.endEnter task), ⟨gnss.input, later⟩⟩ :
          JoinedEvent workers) ≠ .resting := by
        simp [moves]
      cases Transition.of_next next with
      | _ => exact carried.within next (ne_resting rfl) still continues rfl rfl
  | endDiscard | endSend | endTake =>
      obtain rfl := takes
      cases Transition.of_next next with
      | _ => exact carried.within next (ne_resting rfl) (ne_resting rfl) continues_self rfl rfl
  | endClose task =>
      obtain rfl : phase = .closing := takes
      obtain ⟨free, rfl⟩ := endClose_closes next
      constructor
      · exact carried.run.next next
      · exact fun busy => absurd rfl busy
      · intro _ u member unbegun
        exact absurd unbegun (carried.begun (ne_resting rfl) u member)
      · exact fun busy => absurd rfl busy
      · intro _ u member once
        have fed := carried.during (ne_resting rfl) u member once
        rw [free, pendingOverride, List.append_nil] at fed
        refine ⟨gnss.session, List.mem_append_right _ List.mem_cons_self, ?_⟩
        rw [acceptedBytes_append, fed]
        exact List.append_nil _

section Runs

variable {history : List (JoinedStep workers)} {shared : HttpShared workers}
  {answer : (c : JoinedCall workers) → c.Reply} {c : JoinedCall workers} {reply : c.Reply}

/-- The calls between the override functions leave what has been fed as it is. -/
theorem continues_call {own : HttpCall workers} {reply : own.Reply}
    (allowed : sectionMonitor.allows ghost (.http own : JoinedCall workers)) :
    ghost.phase.call ⟨own, reply⟩ = ghost.phase ∧
      Continues ghost.upload (uploadAfter ghost.upload ⟨own, reply⟩) (ghost.phase = .resting) := by
  have mapped (same : ∀ u : WriteUpload, (u.after ⟨own, reply⟩).begins = u.begins ∧ (u.after ⟨own, reply⟩).fed = u.fed)
      (kept : uploadAfter ghost.upload ⟨own, reply⟩ = ghost.upload.map (·.after ⟨own, reply⟩)) :
      Continues ghost.upload (uploadAfter ghost.upload ⟨own, reply⟩) (ghost.phase = .resting) := by
    intro u' member
    rw [kept] at member
    obtain ⟨u, listed, rfl⟩ := Option.mem_map.mp member
    exact .inr ⟨u, listed, same u⟩
  cases own with
  | gnssOverrideBegin | gnssOverrideFeed | gnssOverrideEnd => cases allowed.2
  | requestQueueReceive pool =>
      cases reply with
      | none => exact ⟨rfl, mapped (fun _ => ⟨rfl, rfl⟩) rfl⟩
      | some asyncReq =>
          refine ⟨rfl, ?_⟩
          intro u' member
          cases member
          exact .inl ⟨allowed.2.2.2.1, rfl, rfl⟩
  | _ => exact ⟨rfl, mapped (fun _ => ⟨rfl, rfl⟩) rfl⟩

theorem Carried.calls (carried : Carried (joinedEvents history) shared.gnss ghost)
    (allowed : sectionMonitor.allows ghost c) (handback : Handback history shared ghost)
    (replied : joinedReply .writeWorker shared answer c = some reply) :
    Carried (joinedEvents (history ++ [⟨.writeWorker, ⟨c, reply⟩⟩])) (joinedObserve .writeWorker shared ⟨c, reply⟩).gnss
      (sectionMonitor.observe ghost ⟨c, reply⟩) := by
  rw [joinedEvents_snoc]
  have moved := GnssTransition.of_reply replied
  cases c with
  | gnss action =>
      obtain ⟨⟨gnss, events⟩, next, rfl⟩ := Option.map_eq_some_iff.mp replied
      have works : Carried (joinedEvents history ++ events) gnss (sectionMonitor.observe ghost
          (⟨.gnss action, ⟨shared.gnss.input, events⟩⟩ : JoinedEvent workers)) :=
        carried.works handback.describes allowed.2 next
      have observed : (joinedObserve .writeWorker shared ⟨.gnss action, ⟨shared.gnss.input, events⟩⟩).gnss = gnss := by
        simp [joinedObserve, next]
      have emitted : joinedEvents [(⟨.writeWorker, ⟨.gnss action, ⟨shared.gnss.input, events⟩⟩⟩ : JoinedStep workers)] =
          events := List.append_nil _
      rw [observed, emitted]
      exact works
  | http own =>
      obtain ⟨stays, continues⟩ := @continues_call _ _ own reply allowed
      exact carried.http moved stays continues

theorem carried_of_exec {history s} (run : (joinedSystem workers).Exec history s) :
    ∃ ghosts : (t : HttpTask workers) → HandbackGhost t,
      (Handback history s.shared (ghosts .writeWorker) ∧
        Carried (joinedEvents history) s.shared.gnss (ghosts .writeWorker)) ∧
      ∀ t, (handbackOutline workers).Keeps t (s.task t) (ghosts t) := by
  have heads (t : HttpTask workers) : (handbackOutline workers).head t t.start (HandbackGhost.initial t) := by
    cases t with
    | writeWorker => exact ⟨rfl, fun _ _ known => by cases known⟩
    | _ => rfl
  refine Tasks.invariant_of_outline (I := fun history shared ghosts =>
    Handback history shared (ghosts .writeWorker) ∧ Carried (joinedEvents history) shared.gnss (ghosts .writeWorker))
    (fun t round ghost head => handback_keeps head) heads ?_ ?_ run
  · refine ⟨⟨⟨rfl, rfl, rfl⟩, rfl, rfl, fun _ _ => by simp⟩, .start rfl, ?_, ?_, ?_, ?_⟩ <;>
      intro _ u member <;> cases member
  · intro history shared ghosts t round c answer reply ⟨handback, carried⟩ allowed replied
    cases t with
    | writeWorker =>
        rw [Function.update_self]
        exact ⟨handback.works allowed replied, carried.calls allowed handback replied⟩
    | httpd | dispatcher | streamWorker | led | gnss =>
        rw [Function.update_of_ne (by simp)]
        obtain ⟨own, rfl, -⟩ := allowed
        refine ⟨handback.others (by simp) replied, ?_⟩
        rw [joinedEvents_snoc]
        exact carried.http (.of_reply replied) rfl continues_self

/-- The last upload of a worker that is ready for the next one has been a session of its own. -/
theorem upload_outcome {history s} (run : (joinedSystem workers).Exec history s) (ready : WriterReady s)
    {u : WriteUpload} (last : writeUpload history = some u) :
    ∃ session, .closed session ∈ joinedEvents history ∧ UploadOutcome session u.received (joinedEvents history) := by
  obtain ⟨ghosts, ⟨handback, carried⟩, keeps⟩ := carried_of_exec run
  have rests : (ghosts .writeWorker).phase = .resting ∧ (ghosts .writeWorker).Holds WriteUpload.Completed := by
    rcases ready with about | about
    · exact ((keeps .writeWorker).head? about).2.2.2
    · exact ((keeps .writeWorker).head? about).2.2.2
  rw [handback.upload] at last
  have completed : u.Completed := rests.2 handback.granted u last
  obtain ⟨session, closed, fed⟩ := carried.after rests.1 u last completed.begins
  have outcome := uploadOutcome_of_closed carried.run closed
  rw [fed, completed.fed] at outcome
  exact ⟨session, closed, outcome⟩

/-! A fix is uploaded and published. -/

def pairAnswers (action : GnssAction) : (c : JoinedCall 1) → c.Reply
  | .http requestReceive => ⟨0, .write, 28⟩
  | .http (reqRecv _ requested) =>
      if whole : 28 ≤ requested then ⟨28, zeroGga ++ sampleRmc, rfl, Int.ofNat_le.mpr whole⟩
      else ⟨0, [], List.length_nil, Int.natCast_nonneg requested⟩
  | .http c => c.succeeds action
  | .gnss _ => ⟨.initial, []⟩

def pairRun : Option (JoinedStack 1 × List (JoinedStep 1)) :=
  let schedule := (.writeWorker, .feedByte) :: List.replicate 4 (.httpd, .feedByte) ++
    List.replicate 38 (.writeWorker, .feedByte) ++ List.replicate 18 (.gnss, .filterStep) ++
    List.replicate 6 (.writeWorker, .feedByte)
  System.replay (joinedTasks 1).next ((joinedTasks 1).initial .initial HttpTask.start)
    (schedule.map fun (t, action) => (t, pairAnswers action))

def pairUpload : WriteUpload := ⟨28, zeroGga ++ sampleRmc, zeroGga ++ sampleRmc, 1, 1, true⟩

theorem pairRun_uploads : pairRun.any (fun (s, history) => decide
    ((s.task .writeWorker).program.head? = some (.http (workerReadyGive .write)) ∧
      writeUpload history = some pairUpload)) = true := by
  decide +kernel

theorem pair_upload_outcome : ∃ s history, pairRun = some (s, history) ∧
    ∃ session, .closed session ∈ joinedEvents history ∧ UploadOutcome session pairUpload.received (joinedEvents history) := by
  obtain ⟨⟨s, history⟩, played, facts⟩ := (Option.any_eq_true _ _).mp pairRun_uploads
  obtain ⟨ready, last⟩ := of_decide_eq_true facts
  exact ⟨s, history, played, upload_outcome (System.Exec.of_replay played) (.inl ready) last⟩

end Runs

end EspGnss.Http
