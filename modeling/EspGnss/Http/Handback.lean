import EspGnss.Gnss.Resume
import EspGnss.Http.Upload

/-! # The parser goes back to UART2

Between two requests the write worker has no override: every `gnss_input_override_begin`
has been followed by its `gnss_input_override_end`.
-/

namespace EspGnss.Http

open Foundation Gnss HttpCall

variable {workers : Nat}

/-- The call that a step begins, with its result. -/
def entered : JoinedEvent workers → Option (HttpEvent workers)
  | ⟨.http c, reply⟩ => some ⟨c, reply⟩
  | ⟨.gnss .overrideBegin, reply⟩ => some ⟨gnssOverrideBegin, (gnssInputOverrideBegin reply.input).1⟩
  | ⟨.gnss (.overrideFeed data), reply⟩ =>
      some ⟨gnssOverrideFeed data,
        if !reply.input.overrideActive || reply.input.overrideClosing then espErrInvalidState else espOk⟩
  | ⟨.gnss (.endEnter _), _⟩ => some ⟨gnssOverrideEnd, ()⟩
  | ⟨.gnss _, _⟩ => none

def OverridePhase.after (phase : OverridePhase) : JoinedEvent workers → OverridePhase
  | ⟨.http c, reply⟩ => phase.call ⟨c, reply⟩
  | ⟨.gnss .overrideBegin, reply⟩ =>
      if (gnssInputOverrideBegin reply.input).1 = espOk then .uploading else .resting
  | ⟨.gnss (.overrideFeed data), reply⟩ =>
      if !reply.input.overrideActive || reply.input.overrideClosing then phase else .feeding data.length
  | ⟨.gnss .feedByte, _⟩ =>
      match phase with
      | .feeding (count + 1) => .feeding count
      | phase => phase
  | ⟨.gnss .feedReturn, _⟩ => .uploading
  | ⟨.gnss (.endEnter _), reply⟩ =>
      if (gnssInputOverrideEndEnter reply.input).1.isSome then .discarding else .resting
  | ⟨.gnss (.endDiscard _), _⟩ => .sending
  | ⟨.gnss (.endSend _), _⟩ => .waiting
  | ⟨.gnss (.endTake _), _⟩ => .closing
  | ⟨.gnss (.endClose _), _⟩ => .resting
  | ⟨.gnss _, _⟩ => phase

/-- Where the worker takes a step of the GNSS stack. -/
def OverridePhase.takes (phase : OverridePhase) : GnssAction → Prop
  | .overrideBegin => phase = .resting
  | .overrideFeed _ | .endEnter _ => phase = .uploading
  | .feedByte => ∃ count, phase = .feeding (count + 1)
  | .feedReturn => phase = .feeding 0
  | .endDiscard _ => phase = .discarding
  | .endSend _ => phase = .sending
  | .endTake _ => phase = .waiting
  | .endClose _ => phase = .closing
  | .initReset | .uartFeed _ | .timerExpire | .filterStep | .publicationReceive => False

/-- Watches what the worker does with its upload and with the GNSS stack. -/
@[simps] def sectionMonitor : Monitor (@JoinedCall.Reply workers) UploadGhost where
  allows ghost c := ghost.Holds WriteUpload.Sound ∧
    match c with
    | .http gnssOverrideBegin | .http (gnssOverrideFeed _) | .http gnssOverrideEnd => False
    | .http c => uploadMonitor.allows ghost c
    | .gnss action => ghost.phase.takes action
  observe ghost event :=
    match entered event with
    | some call => { uploadMonitor.observe ghost call with phase := ghost.phase.after event }
    | none => { ghost with phase := ghost.phase.after event }

section Sections

variable {ghost : UploadGhost}

theorem observe_phase (event : JoinedEvent workers) :
    (sectionMonitor.observe ghost event).phase = ghost.phase.after event := by
  rw [sectionMonitor_observe]
  split <;> rfl

theorem feedBytes_sections (sound : ghost.Holds WriteUpload.Sound) (count : Nat) :
    (feedBytes count : JoinedProgram workers Unit).Meets sectionMonitor
      (fun later _ => later = { ghost with phase := .feeding 0 }) { ghost with phase := .feeding count } := by
  induction count with
  | zero => rfl
  | succ count ih => exact ⟨⟨sound, count, rfl⟩, fun _ => ih⟩

theorem overrideFeed_sections {data : List UInt8} (uploads : ghost.phase = .uploading)
    (sound : ghost.Holds WriteUpload.Sound) (fed : ghost.Holds fun u => { u with fed := u.fed ++ data }.Sound) :
    (overrideFeedSection data : JoinedProgram workers EspErr).Meets sectionMonitor
      (fun later err => later = uploadMonitor.observe ghost (⟨gnssOverrideFeed data, err⟩ : HttpEvent workers))
      ghost := by
  have fed : (uploadMonitor.observe ghost (⟨gnssOverrideFeed data, espOk⟩ : HttpEvent workers)).Holds
      WriteUpload.Sound := fed.observe (by simp) fun _ sound => sound
  simp only [overrideFeedSection, CallTree.meets_bind, CallTree.meets_perform, CallTree.meets_ite]
  refine ⟨⟨sound, uploads⟩, fun reply => ?_⟩
  split
  · rename_i refused
    simp only [CallTree.pure_eq, CallTree.meets_done, sectionMonitor_observe, entered, OverridePhase.after,
      if_pos refused]
    rfl
  · rename_i granted
    simp only [sectionMonitor_observe, entered, OverridePhase.after, if_neg granted]
    apply (feedBytes_sections fed data.length).mono
    rintro later - rfl
    exact ⟨⟨fed, rfl⟩, fun _ => congrArg (UploadGhost.mk · _ _) uploads.symm⟩

theorem overrideEnd_sections (uploads : ghost.phase = .uploading) (sound : ghost.Holds WriteUpload.Sound)
    (ended : ghost.Holds fun u => { u with ends := u.ends + 1 }.Sound) :
    (overrideEndSections : JoinedProgram workers Unit).Meets sectionMonitor
      (fun later reply => later = uploadMonitor.observe ghost (⟨gnssOverrideEnd, reply⟩ : HttpEvent workers))
      ghost := by
  have ended : (uploadMonitor.observe ghost (⟨gnssOverrideEnd, ()⟩ : HttpEvent workers)).Holds WriteUpload.Sound :=
    ended.observe (by simp) fun _ sound => sound
  simp only [overrideEndSections, CallTree.meets_bind, CallTree.meets_perform, CallTree.meets_ite]
  refine ⟨⟨sound, uploads⟩, fun reply => ?_⟩
  split
  · rename_i refused
    have rests : (gnssInputOverrideEndEnter reply.input).1.isSome = false := by simpa only [Bool.not_eq_true'] using refused
    simp only [CallTree.pure_eq, CallTree.meets_done, sectionMonitor_observe, entered, OverridePhase.after, rests]
    rfl
  · rename_i granted
    have closes : (gnssInputOverrideEndEnter reply.input).1.isSome = true := by
      simpa only [Bool.not_eq_true', Bool.not_eq_false] using granted
    simp only [sectionMonitor_observe, entered, OverridePhase.after, closes]
    refine ⟨⟨ended, rfl⟩, fun _ => ⟨⟨ended, rfl⟩, fun _ => ⟨⟨ended, rfl⟩, fun _ => ⟨⟨ended, rfl⟩, fun _ => rfl⟩⟩⟩⟩

/-- The worker takes the steps of an override function where it may call the function. -/
theorem handler_sections {c : HttpCall workers} (allowed : uploadMonitor.allows ghost c) :
    (overrideHandler c).Meets sectionMonitor (fun later reply => later = uploadMonitor.observe ghost ⟨c, reply⟩)
      ghost := by
  obtain ⟨made, sound, stands⟩ := allowed
  cases c with
  | gnssOverrideBegin => exact ⟨⟨sound, stands⟩, fun _ => rfl⟩
  | gnssOverrideFeed buffer => exact overrideFeed_sections stands.1 sound stands.2
  | gnssOverrideEnd => exact overrideEnd_sections stands.1 sound stands.2
  | _ => exact ⟨⟨sound, made, sound, stands⟩, fun _ => rfl⟩

end Sections

namespace OverridePhase

def active : OverridePhase → Bool
  | resting => false
  | uploading | feeding _ | discarding | sending | waiting | closing => true

def isClosing : OverridePhase → Bool
  | discarding | sending | waiting | closing => true
  | resting | uploading | feeding _ => false

def count : OverridePhase → Option Nat
  | feeding count => some count
  | resting | uploading | discarding | sending | waiting | closing => none

/-- The bytes that an upload has still to feed in the section that holds the mutex. -/
def remainingFeed (mutex : Option Feed) : Option Nat :=
  (mutex.filter (·.source = .override)).map (·.data.length)

/-- The GNSS stack is where the worker left it. -/
structure Describes (phase : OverridePhase) (s : GnssStack) : Prop where
  active : s.input.overrideActive = phase.active
  closing : s.input.overrideClosing = phase.isClosing
  feed : remainingFeed s.mutex = phase.count

variable {phase : OverridePhase} {s s' : GnssStack} {action : GnssAction} {events : List GnssEvent}

/-- The steps of the GNSS tasks leave the override alone. -/
theorem Describes.task (describes : phase.Describes s) (takes : gnssTaskTakes s action = true)
    (step : s.next action = some (s', events)) : phase.Describes s' := by
  obtain ⟨active, closing, feed⟩ := describes
  cases Transition.of_next step with
  | refused => exact ⟨active, closing, feed⟩
  | overrideFeed | overrideBegin | endEnter | endDiscard | endSend | endTake | endClose | publicationReceive =>
      cases takes
  | uartFeed free =>
      refine ⟨active, closing, ?_⟩
      rw [free] at feed
      exact feed
  | @overrun source _ _ held | @scanned source _ _ _ held | @paired source _ _ _ _ _ held
  | @dropped source _ _ _ _ held | @feedReturn source held =>
      have uart : source = .uart := by simpa [gnssTaskTakes, held] using takes
      subst uart
      rw [held] at feed
      exact ⟨active, closing, feed⟩
  | @receive member =>
      obtain ⟨queueSet, pc, same⟩ := s.receiveSelected_eq member
      rw [same]
      exact ⟨active, closing, feed⟩
  | _ => exact ⟨active, closing, feed⟩

/-- Nor do those of other HTTP tasks. -/
theorem Describes.http {c : HttpCall workers} (describes : phase.Describes s)
    (moved : GnssTransition s (.http c) s' events) : phase.Describes s' := by
  cases moved with
  | task takes step => exact describes.task takes step
  | receive step =>
      cases Transition.of_next step with
      | refused | publicationReceive => exact ⟨describes.active, describes.closing, describes.feed⟩
  | quiet same => exact same ▸ describes

/-- An override function that the worker calls does not fail. -/
theorem Describes.granted (describes : phase.Describes s) :
    (phase = .resting → (gnssInputOverrideBegin s.input).1 = espOk) ∧
      (phase = .uploading → (!s.input.overrideActive || s.input.overrideClosing) = false ∧
        (gnssInputOverrideEndEnter s.input).1.isSome = true) := by
  obtain ⟨active, closing, -⟩ := describes
  constructor
  · rintro rfl
    rw [gnssInputOverrideBegin, active]
    rfl
  · rintro rfl
    rw [gnssInputOverrideEndEnter, active, closing]
    exact ⟨rfl, rfl⟩

theorem remainingFeed_eq_some {mutex : Option Feed} {count : Nat} (held : remainingFeed mutex = some count) :
    ∃ data, mutex = some ⟨.override, data⟩ ∧ data.length = count := by
  obtain ⟨⟨source, data⟩, found, length⟩ := Option.map_eq_some_iff.mp held
  obtain ⟨held, override⟩ := Option.filter_eq_some_iff.mp found
  obtain rfl : source = .override := of_decide_eq_true override
  exact ⟨data, held, length⟩

/-- A byte that is fed leaves the section and the override as they are. -/
theorem feedByte_kept {source : Source} {byte : UInt8} {rest : List UInt8}
    (held : s.mutex = some ⟨source, byte :: rest⟩) (step : s.next .feedByte = some (s', events)) :
    s'.mutex = some ⟨source, rest⟩ ∧ s'.input.overrideActive = s.input.overrideActive ∧
      s'.input.overrideClosing = s.input.overrideClosing := by
  simp only [GnssStack.next, GnssStack.feedByte, held] at step
  split at step
  · cases step
    exact ⟨rfl, rfl, rfl⟩
  · rename_i parserState pair fed
    cases pair with
    | none =>
        cases step
        exact ⟨rfl, rfl, rfl⟩
    | some pair =>
        simp only [GnssStack.candidateSend] at step
        split at step <;> cases step <;> exact ⟨rfl, rfl, rfl⟩

theorem endClose_input {task : Nat} (step : s.next (.endClose task) = some (s', events)) :
    s'.input = gnssInputOverrideEndClose s.input ∧ s'.mutex = s.mutex := by
  simp only [GnssStack.next] at step
  split at step
  · cases step
  · split at step
    · cases step
      exact ⟨rfl, rfl⟩
    all_goals cases step

/-- What the worker's own steps do. -/
theorem Describes.works {workers : Nat} (describes : phase.Describes s) (takes : phase.takes action)
    (step : s.next action = some (s', events)) :
    (phase.after (⟨.gnss action, ⟨s.input, events⟩⟩ : JoinedEvent workers)).Describes s' := by
  have granted := describes.granted
  obtain ⟨active, closing, feed⟩ := describes
  cases action with
  | initReset | uartFeed | timerExpire | filterStep | publicationReceive => cases takes
  | overrideBegin =>
      obtain rfl : phase = .resting := takes
      have inactive : s.input.overrideActive = false := active
      simp [GnssStack.next, GnssStack.overrideBegin, gnssInputOverrideBegin, inactive] at step
      obtain ⟨free, rfl, rfl⟩ := step
      rw [OverridePhase.after, if_pos (granted.1 rfl)]
      exact ⟨rfl, rfl, feed⟩
  | overrideFeed data =>
      obtain rfl : phase = .uploading := takes
      obtain ⟨accepts, -⟩ := granted.2 rfl
      simp only [GnssStack.next, accepts] at step
      split at step
      · cases step
      · cases step
        simp only [OverridePhase.after, accepts]
        exact ⟨active, closing, rfl⟩
  | feedByte =>
      obtain ⟨count, rfl⟩ : ∃ count, phase = .feeding (count + 1) := takes
      obtain ⟨data, held, length⟩ := remainingFeed_eq_some feed
      cases data with
      | nil => cases length
      | cons byte rest =>
          obtain ⟨mutex, sameActive, sameClosing⟩ := feedByte_kept held step
          refine ⟨sameActive.trans active, sameClosing.trans closing, ?_⟩
          rw [mutex]
          exact congrArg some (Nat.succ.inj length)
  | feedReturn =>
      obtain rfl : phase = .feeding 0 := takes
      obtain ⟨data, held, length⟩ := remainingFeed_eq_some feed
      obtain rfl := List.eq_nil_of_length_eq_zero length
      simp only [GnssStack.next, held] at step
      cases step
      exact ⟨active, closing, rfl⟩
  | endEnter task =>
      obtain rfl : phase = .uploading := takes
      obtain ⟨-, closes⟩ := granted.2 rfl
      have entered : gnssInputOverrideEndEnter s.input =
          (some ⟨s.input.inputEpoch⟩, { s.input with overrideClosing := true }) := by
        have open' : (s.input.overrideActive && !s.input.overrideClosing) = true := by rw [active, closing]; rfl
        exact if_pos open'
      simp only [GnssStack.next, GnssStack.endEnter, entered] at step
      split at step
      · cases step
      · split at step
        · cases step
          rw [OverridePhase.after, if_pos closes]
          exact ⟨active, rfl, feed⟩
        all_goals cases step
  | endDiscard | endSend | endTake =>
      obtain rfl := takes
      cases Transition.of_next step with
      | _ => exact ⟨active, closing, feed⟩
  | endClose task =>
      obtain rfl : phase = .closing := takes
      obtain ⟨input, mutex⟩ := endClose_input step
      refine ⟨by rw [input]; rfl, by rw [input]; rfl, ?_⟩
      rw [mutex]
      exact feed

end OverridePhase

/-- The upload under way, or the last one. -/
def writeUpload (history : List (JoinedStep workers)) : Option WriteUpload :=
  history.foldl (fun upload step =>
    match step.task, entered step.event with
    | .writeWorker, some call => uploadAfter upload call
    | _, _ => upload) none

/-- No call of `gnss_input_override_begin` has failed. -/
def BeginsSucceed (history : List (JoinedStep workers)) : Prop :=
  ∀ task reply, ⟨task, ⟨.gnss .overrideBegin, reply⟩⟩ ∈ history → (gnssInputOverrideBegin reply.input).1 = espOk

abbrev HandbackGhost : HttpTask workers → Type
  | .writeWorker => UploadGhost
  | .httpd | .dispatcher | .streamWorker _ | .led | .gnss => Unit

def HandbackGhost.initial : (t : HttpTask workers) → HandbackGhost t
  | .writeWorker => ⟨.resting, false, none⟩
  | .httpd | .dispatcher | .streamWorker _ | .led | .gnss => ()

def handbackOutline (workers : Nat) :
    Outline (HttpTask workers) (@JoinedCall.Reply workers) HttpRound HandbackGhost where
  observe
    | .writeWorker => sectionMonitor.observe
    | .httpd | .dispatcher | .streamWorker _ | .led | .gnss => fun _ _ => ()
  allows
    | .writeWorker, _ => sectionMonitor.allows
    | .httpd, _ => fun _ c => ∃ own, c = .http own ∧ HttpTask.makes .httpd own = true
    | .dispatcher, _ => fun _ c => ∃ own, c = .http own ∧ HttpTask.makes .dispatcher own = true
    | .streamWorker index, _ => fun _ c => ∃ own, c = .http own ∧ HttpTask.makes (.streamWorker index) own = true
    | .led, _ => fun _ c => ∃ own, c = .http own ∧ HttpTask.makes .led own = true
    | .gnss, _ => fun _ c => ∃ own, c = .http own ∧ HttpTask.makes .gnss own = true
  head
    | .writeWorker, round, ghost => UploadHead round ghost
    | .httpd, round, _ => HttpTask.runs (.httpd : HttpTask workers) round
    | .dispatcher, round, _ => HttpTask.runs (.dispatcher : HttpTask workers) round
    | .streamWorker index, round, _ => HttpTask.runs (.streamWorker index) round
    | .led, round, _ => HttpTask.runs (.led : HttpTask workers) round
    | .gnss, round, _ => HttpTask.runs (.gnss : HttpTask workers) round

theorem handback_keeps {t : HttpTask workers} {round : HttpRound} {ghost : HandbackGhost t}
    (head : (handbackOutline workers).head t round ghost) :
    (handbackOutline workers).Keeps t ((joinedTasks workers).begin t round) ghost := by
  cases t with
  | writeWorker =>
      cases round with
      | writeReady =>
          exact CallTree.Meets.handle (fun _ _ => handler_sections) (writeReadyRound_uploads head.1 head.2)
      | writing asyncReq remaining =>
          exact CallTree.Meets.handle (fun _ _ => handler_sections) (writingRound_uploads head.1 head.2)
      | _ => cases head
  | httpd | dispatcher | streamWorker | led | gnss => exact handle_makes (by simp) head

/-- What holds after the calls of a run. -/
structure Handback (history : List (JoinedStep workers)) (shared : HttpShared workers) (ghost : UploadGhost) :
    Prop where
  describes : ghost.phase.Describes shared.gnss
  granted : ghost.refused = false
  upload : writeUpload history = ghost.upload
  begins : BeginsSucceed history

section Steps

variable {history : List (JoinedStep workers)} {shared : HttpShared workers} {ghost : UploadGhost}
  {answer : (c : JoinedCall workers) → c.Reply} {c : JoinedCall workers} {reply : c.Reply}

theorem BeginsSucceed.snoc (begins : BeginsSucceed history) {step : JoinedStep workers}
    (last : ∀ reply, step.event = ⟨.gnss .overrideBegin, reply⟩ → (gnssInputOverrideBegin reply.input).1 = espOk) :
    BeginsSucceed (history ++ [step]) := by
  intro task reply mem
  rcases List.mem_append.mp mem with earlier | now
  · exact begins task reply earlier
  · rw [← List.mem_singleton.mp now] at last
    exact last reply rfl

theorem writeUpload_snoc (event : JoinedEvent workers) :
    writeUpload (history ++ [⟨.writeWorker, event⟩]) =
      match entered event with
      | some call => uploadAfter (writeUpload history) call
      | none => writeUpload history := by
  rw [writeUpload, List.foldl_append]
  cases known : entered event <;> simp [known, writeUpload]

theorem Handback.others {t : HttpTask workers} {own : HttpCall workers} {reply : own.Reply} (other : t ≠ .writeWorker)
    (handback : Handback history shared ghost)
    (replied : joinedReply t shared answer (.http own) = some reply) :
    Handback (history ++ [⟨t, ⟨.http own, reply⟩⟩]) (joinedObserve t shared ⟨.http own, reply⟩) ghost := by
  refine ⟨handback.describes.http (.of_reply replied), handback.granted, ?_, handback.begins.snoc (by simp)⟩
  rw [writeUpload, List.foldl_append]
  cases t with
  | writeWorker => exact absurd rfl other
  | _ => exact handback.upload

/-- The override functions that the worker calls do not fail. -/
theorem Handback.grants {action : GnssAction} (handback : Handback history shared ghost)
    (takes : ghost.phase.takes action) (events : List GnssEvent) :
    ∀ call, entered (⟨.gnss action, ⟨shared.gnss.input, events⟩⟩ : JoinedEvent workers) = some call →
      refuses call = false := by
  intro call known
  cases action with
  | overrideBegin =>
      cases known
      simp [refuses, handback.describes.granted.1 takes]
  | overrideFeed data =>
      cases known
      simp [refuses, handback.describes.granted.2 takes]
  | endEnter =>
      cases known
      rfl
  | _ => cases known

theorem Handback.works (handback : Handback history shared ghost) (allowed : sectionMonitor.allows ghost c)
    (replied : joinedReply .writeWorker shared answer c = some reply) :
    Handback (history ++ [⟨.writeWorker, ⟨c, reply⟩⟩]) (joinedObserve .writeWorker shared ⟨c, reply⟩)
      (sectionMonitor.observe ghost ⟨c, reply⟩) := by
  cases c with
  | http own =>
      have described := handback.describes.http (.of_reply replied)
      have upload := @writeUpload_snoc _ history ⟨.http own, reply⟩
      rw [handback.upload] at upload
      cases own with
      | gnssOverrideBegin | gnssOverrideFeed | gnssOverrideEnd => cases allowed.2
      | _ => exact ⟨described, Bool.or_eq_false_iff.mpr ⟨handback.granted, rfl⟩, upload, handback.begins.snoc (by simp)⟩
  | gnss action =>
      obtain ⟨⟨gnss, events⟩, step, rfl⟩ := Option.map_eq_some_iff.mp replied
      have takes : ghost.phase.takes action := allowed.2
      have described : (joinedObserve .writeWorker shared ⟨.gnss action, ⟨shared.gnss.input, events⟩⟩).gnss = gnss := by
        simp [joinedObserve, step]
      have grants := handback.grants takes events
      have upload := @writeUpload_snoc _ history ⟨.gnss action, ⟨shared.gnss.input, events⟩⟩
      rw [handback.upload] at upload
      constructor
      · rw [observe_phase, described]
        exact handback.describes.works takes step
      · cases known : entered (⟨.gnss action, ⟨shared.gnss.input, events⟩⟩ : JoinedEvent workers) with
        | none => simp [known, handback.granted]
        | some call => simp [known, handback.granted, grants call known]
      · rw [upload]
        cases known : entered (⟨.gnss action, ⟨shared.gnss.input, events⟩⟩ : JoinedEvent workers) <;> simp [known]
      · apply handback.begins.snoc
        rintro reply same
        cases same
        exact handback.describes.granted.1 takes

end Steps

theorem handback_of_exec {history s} (run : (joinedSystem workers).Exec history s) :
    ∃ ghosts : (t : HttpTask workers) → HandbackGhost t, Handback history s.shared (ghosts .writeWorker) ∧
      ∀ t, (handbackOutline workers).Keeps t (s.task t) (ghosts t) := by
  have heads (t : HttpTask workers) : (handbackOutline workers).head t t.start (HandbackGhost.initial t) := by
    cases t with
    | writeWorker => exact ⟨rfl, fun _ _ known => by cases known⟩
    | _ => rfl
  refine Tasks.invariant_of_outline (I := fun history shared ghosts => Handback history shared (ghosts .writeWorker))
    (fun t round ghost head => handback_keeps head) heads ?_ ?_ run
  · exact ⟨⟨rfl, rfl, rfl⟩, rfl, rfl, fun _ _ => by simp⟩
  · intro history shared ghosts t round c answer reply handback allowed replied
    cases t with
    | writeWorker =>
        rw [Function.update_self]
        exact handback.works allowed replied
    | httpd | dispatcher | streamWorker | led | gnss =>
        rw [Function.update_of_ne (by simp)]
        obtain ⟨own, rfl, -⟩ := allowed
        exact handback.others (by simp) replied

/-- The write worker is ready for a request. -/
def WriterReady (s : JoinedStack workers) : Prop :=
  (s.task .writeWorker).program.head? = some (.http (workerReadyGive .write)) ∨
    (s.task .writeWorker).program.head? = some (.http (requestQueueReceive .write))

/-- The worker is through with its upload, and UART2 has the parser. -/
structure HandedBack (history : List (JoinedStep workers)) (s : JoinedStack workers) : Prop where
  completed : ∀ u ∈ writeUpload history, u.Completed
  inactive : s.shared.gnss.input.overrideActive = false ∧ s.shared.gnss.input.overrideClosing = false
  uart : ∀ data, s.shared.gnss.mutex = none → s.shared.gnss.uartReady = true →
    s.shared.gnss.next (.uartFeed data) = some ({ s.shared.gnss with mutex := some ⟨.uart, data⟩ }, [])
  /-- No byte of an upload is left in the parser. -/
  parser : s.shared.gnss.input.parserState = (Nmea.NmeaParserState.reset.feedAll s.shared.gnss.input.inputEpoch
    (acceptedBytes s.shared.gnss.session .uart (joinedEvents history))).1

theorem joined_gnss_exec {history s} (run : (joinedSystem workers).Exec history s) :
    gnssSystem.Exec (joinedEvents history) s.shared.gnss := by
  induction run with
  | start first =>
      cases first
      exact .start rfl
  | next _ step ih =>
      cases Tasks.Transition.of_next _ step with
      | restart => simpa using ih
      | perform _ replied =>
          rw [joinedEvents_snoc]
          exact (GnssTransition.of_reply replied).exec ih

/-- The last section of `gnss_input_override_end` clears the parser. -/
theorem parser_reset {history s task reply}
    (run : (joinedSystem workers).Exec (history ++ [⟨task, ⟨.gnss (.endClose overrideCaller), reply⟩⟩]) s) :
    s.shared.gnss.input.parserState = .reset := by
  obtain ⟨before, answer, replied, same⟩ := Tasks.last_call _ run
  obtain ⟨⟨gnss, events⟩, step, -⟩ := Option.map_eq_some_iff.mp replied
  have observed : s.shared.gnss = gnss := by
    rw [same]
    simp [joinedTasks, joinedObserve, step]
  rw [observed, (OverridePhase.endClose_input step).1]
  rfl

/-- Whatever the worker does next, what it has done of its upload is sound. -/
theorem uploads_sound {history s} (run : (joinedSystem workers).Exec history s) :
    ∀ u ∈ writeUpload history, u.Sound := by
  obtain ⟨ghosts, handback, keeps⟩ := handback_of_exec run
  have kept : (s.task .writeWorker).program.Meets sectionMonitor (fun ghost round => UploadHead round ghost)
      (ghosts .writeWorker) := keeps .writeWorker
  have sound : (ghosts .writeWorker).Holds WriteUpload.Sound := by
    cases about : (s.task .writeWorker).program with
    | call c later =>
        rw [about] at kept
        exact kept.1.1
    | done round =>
        rw [about] at kept
        have head : UploadHead round (ghosts .writeWorker) := kept
        cases round with
        | writeReady => exact head.2.mono fun _ => WriteUpload.Completed.sound
        | writing => exact head.2.mono fun _ => WriteUpload.Uploading.sound
        | _ => cases head
  rw [handback.upload]
  exact sound handback.granted

/-- `gnss_input_override_begin` never fails, the bytes of an upload are fed as they are received,
    and between two requests the worker has handed the parser back. -/
theorem write_worker_hands_back {history s} (run : (joinedSystem workers).Exec history s) :
    BeginsSucceed history ∧ (∀ u ∈ writeUpload history, u.Sound) ∧ (WriterReady s → HandedBack history s) ∧
      ((∃ before task reply, history = before ++ [⟨task, ⟨.gnss (.endClose overrideCaller), reply⟩⟩]) →
        s.shared.gnss.input.parserState = .reset) := by
  obtain ⟨ghosts, handback, keeps⟩ := handback_of_exec run
  refine ⟨handback.begins, uploads_sound run, fun ready => ?_, fun ended => ?_⟩
  · have rests : (ghosts .writeWorker).phase = .resting ∧ (ghosts .writeWorker).Holds WriteUpload.Completed := by
      rcases ready with about | about
      · exact ((keeps .writeWorker).head? about).2.2.2
      · exact ((keeps .writeWorker).head? about).2.2.2
    obtain ⟨active, closing, -⟩ := handback.describes
    rw [rests.1] at active closing
    refine ⟨?_, ⟨active, closing⟩, fun data free uartReady => ?_, (resumed_of_exec (joined_gnss_exec run)).parser active⟩
    · rw [handback.upload]
      exact rests.2 handback.granted
    · have inactive : s.shared.gnss.input.overrideActive = false := active
      simp [GnssStack.next, free, uartReady, inactive]
  · obtain ⟨before, task, reply, rfl⟩ := ended
    exact parser_reset run

/-! An upload of one byte is accepted, and UART2 feeds a byte before the next request. -/

section Runs

/-- Answers under which every function succeeds and the body of a request is `$`. -/
def uploadAnswers (action : GnssAction) : (c : JoinedCall 1) → c.Reply
  | .http requestReceive => ⟨0, .write, 1⟩
  | .http (reqRecv _ requested) =>
      if one : 1 ≤ requested then ⟨1, [Nmea.dollar], List.length_singleton, Int.ofNat_le.mpr one⟩
      else ⟨0, [], List.length_nil, Int.natCast_nonneg requested⟩
  | .http c => c.succeeds action
  | .gnss _ => ⟨.initial, []⟩

def handbackSchedule : List (HttpTask 1 × GnssAction) :=
  (.writeWorker, .feedByte) :: List.replicate 4 (.httpd, .feedByte) ++ List.replicate 11 (.writeWorker, .feedByte) ++
    List.replicate 10 (.gnss, .filterStep) ++ List.replicate 6 (.writeWorker, .feedByte)

def antennaSchedule : List (HttpTask 1 × GnssAction) :=
  [.initReset, .uartFeed [Nmea.dollar], .feedByte].flatMap fun action => List.replicate 2 (.gnss, action)

def handbackRun : Option (JoinedStack 1 × List (JoinedStep 1)) :=
  System.replay (joinedTasks 1).next ((joinedTasks 1).initial .initial HttpTask.start)
    ((handbackSchedule ++ antennaSchedule).map fun (t, action) => (t, uploadAnswers action))

theorem handbackRun_isSome : handbackRun.isSome = true := by decide +kernel

theorem handbackRun_exec :
    (joinedSystem 1).Exec (handbackRun.get handbackRun_isSome).2 (handbackRun.get handbackRun_isSome).1 :=
  System.Exec.of_replay_isSome handbackRun_isSome

theorem handbackRun_ready : WriterReady (handbackRun.get handbackRun_isSome).1 := .inl (by decide +kernel)

theorem accepted_upload_handed_back : ∃ u, writeUpload (handbackRun.get handbackRun_isSome).2 = some u ∧
    u.accepted = true ∧ HandedBack (handbackRun.get handbackRun_isSome).2 (handbackRun.get handbackRun_isSome).1 := by
  obtain ⟨-, -, ready, -⟩ := write_worker_hands_back handbackRun_exec
  exact ⟨⟨1, [Nmea.dollar], [Nmea.dollar], 1, 1, true⟩, by decide +kernel, rfl, ready handbackRun_ready⟩

/-- A worker that is ready finds the parser as UART2 has left it. -/
theorem antenna_feeds_between_uploads : ∃ history s, (joinedSystem 1).Exec history s ∧ WriterReady s ∧
    s.shared.gnss.input.parserState ≠ .reset :=
  ⟨_, _, handbackRun_exec, handbackRun_ready, by decide +kernel⟩

end Runs

end EspGnss.Http
