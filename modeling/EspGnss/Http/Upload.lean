import EspGnss.Gnss.Resume
import EspGnss.Http.InputOverride

/-! # Uploads

What `write_request_receive` has done of an upload, and where its worker stands between
`gnss_input_override_begin` and `gnss_input_override_end`.
-/

namespace EspGnss.Http

open Foundation Gnss HttpCall

variable {workers : Nat}

/-- A request of `POST /write` that the worker has received, and what it has done with it. -/
structure WriteUpload where
  contentLen : Nat
  /-- The bytes that `httpd_req_recv` has returned. -/
  received : List UInt8
  /-- The bytes that have been passed to `gnss_input_override_feed`. -/
  fed : List UInt8
  /-- The calls of `gnss_input_override_begin`. -/
  begins : Nat
  /-- The calls of `gnss_input_override_end`. -/
  ends : Nat
  /-- The upload has been reported as accepted. -/
  accepted : Bool
  deriving DecidableEq, Repr

namespace WriteUpload

/-- What holds of an upload at any time. -/
structure Sound (u : WriteUpload) : Prop where
  fed : u.fed <+: u.received
  bounded : u.received.length ≤ u.contentLen
  begins : u.begins ≤ 1
  ends : u.ends ≤ u.begins
  accepted : u.accepted = true → u.fed.length = u.contentLen

/-- What holds of an upload once its worker is through with it. -/
structure Completed (u : WriteUpload) : Prop where
  fed : u.fed = u.received
  bounded : u.fed.length ≤ u.contentLen
  begins : u.begins = 1
  ends : u.ends = 1
  accepted : u.accepted = true ↔ u.fed.length = u.contentLen

/-- What holds of an upload in the loop of `write_request_receive`, when the bytes
    `pending` have been received and not fed. -/
structure Uploading (remaining : Nat) (pending : List UInt8) (u : WriteUpload) : Prop where
  received : u.received = u.fed ++ pending
  whole : u.fed.length + remaining = u.contentLen
  fits : pending.length ≤ remaining
  begins : u.begins = 1
  ends : u.ends = 0
  accepted : u.accepted = false

/-- What holds of an upload that was received as a whole, until it is reported. -/
structure Delivered (u : WriteUpload) : Prop where
  fed : u.fed = u.received
  whole : u.fed.length = u.contentLen
  begins : u.begins = 1
  ends : u.ends = 1

def start (contentLen : Nat) : WriteUpload := ⟨contentLen, [], [], 0, 0, false⟩

/-- What a call of the worker adds. -/
def after (u : WriteUpload) : HttpEvent workers → WriteUpload
  | ⟨reqRecv _ _, reply⟩ => { u with received := u.received ++ reply.buffer }
  | ⟨gnssOverrideBegin, _⟩ => { u with begins := u.begins + 1 }
  | ⟨gnssOverrideFeed buffer, _⟩ => { u with fed := u.fed ++ buffer }
  | ⟨gnssOverrideEnd, _⟩ => { u with ends := u.ends + 1 }
  | ⟨respSendstr _ text, _⟩ => { u with accepted := u.accepted || text = "GNSS mock stream accepted\n" }
  | _ => u

end WriteUpload

/-- The upload under way, or the last one, after a call of the worker. -/
def uploadAfter (upload : Option WriteUpload) : HttpEvent workers → Option WriteUpload
  | ⟨requestQueueReceive _, some asyncReq⟩ => some (.start asyncReq.req.contentLen)
  | event => upload.map (·.after event)

/-- Where the worker stands. -/
inductive OverridePhase where
  | resting
  | uploading
  | feeding (count : Nat)
  | discarding
  | sending
  | waiting
  | closing
  deriving DecidableEq, Repr

/-- Where it stands after a call of an override function. -/
def OverridePhase.call (phase : OverridePhase) : HttpEvent workers → OverridePhase
  | ⟨gnssOverrideBegin, err⟩ => if err = espOk then .uploading else .resting
  | ⟨gnssOverrideEnd, _⟩ => .resting
  | _ => phase

/-- `refused` is set when an override function has failed; `upload` is the last one that
    the worker has received. -/
structure UploadGhost where
  phase : OverridePhase
  refused : Bool
  upload : Option WriteUpload
  deriving DecidableEq, Repr

/-- Unless an override function has failed. -/
def UploadGhost.Holds (ghost : UploadGhost) (P : WriteUpload → Prop) : Prop :=
  ghost.refused = false → ∀ u ∈ ghost.upload, P u

/-- The override functions fail. -/
def refuses : HttpEvent workers → Bool
  | ⟨gnssOverrideBegin, err⟩ | ⟨gnssOverrideFeed _, err⟩ => err ≠ espOk
  | _ => false

/-- Watches what the worker does with its upload. -/
@[simps] def uploadMonitor : Monitor (@HttpCall.Reply workers) UploadGhost where
  allows ghost c := HttpTask.makes .writeWorker c ∧ ghost.Holds WriteUpload.Sound ∧
    match c with
    | workerReadyGive _ | requestQueueReceive _ => ghost.phase = .resting ∧ ghost.Holds WriteUpload.Completed
    | gnssOverrideBegin => ghost.phase = .resting
    | gnssOverrideFeed buffer =>
        ghost.phase = .uploading ∧ ghost.Holds fun u => { u with fed := u.fed ++ buffer }.Sound
    | gnssOverrideEnd => ghost.phase = .uploading ∧ ghost.Holds fun u => { u with ends := u.ends + 1 }.Sound
    | _ => True
  observe ghost event :=
    { phase := ghost.phase.call event
      refused := ghost.refused || refuses event
      upload := uploadAfter ghost.upload event }

/-- What holds at the start of a round. -/
def UploadHead : HttpRound → UploadGhost → Prop
  | .writeReady, ghost => ghost.phase = .resting ∧ ghost.Holds WriteUpload.Completed
  | .writing _ remaining, ghost => ghost.phase = .uploading ∧ ghost.Holds (WriteUpload.Uploading remaining [])
  | _, _ => False

namespace WriteUpload

variable {u : WriteUpload} {remaining : Nat}

theorem Completed.sound (completed : u.Completed) : u.Sound where
  fed := by rw [completed.fed]
  bounded := by rw [← completed.fed]; exact completed.bounded
  begins := Nat.le_of_eq completed.begins
  ends := by rw [completed.ends, completed.begins]
  accepted := completed.accepted.mp

theorem Uploading.sound {pending : List UInt8} (uploading : u.Uploading remaining pending) : u.Sound where
  fed := by rw [uploading.received]; exact List.prefix_append _ _
  bounded := by
    rw [uploading.received, List.length_append, ← uploading.whole]
    exact Nat.add_le_add_left uploading.fits _
  begins := Nat.le_of_eq uploading.begins
  ends := by rw [uploading.ends]; exact Nat.zero_le _
  accepted := by simp [uploading.accepted]

theorem Delivered.sound (delivered : u.Delivered) : u.Sound where
  fed := by rw [delivered.fed]
  bounded := by rw [← delivered.fed, delivered.whole]
  begins := Nat.le_of_eq delivered.begins
  ends := by rw [delivered.ends, delivered.begins]
  accepted _ := delivered.whole

/-- The upload is reported as accepted. -/
theorem Delivered.report (delivered : u.Delivered) : { u with accepted := true }.Completed where
  fed := delivered.fed
  bounded := Nat.le_of_eq delivered.whole
  begins := delivered.begins
  ends := delivered.ends
  accepted := iff_of_true rfl delivered.whole

/-- The bytes that are received next. -/
theorem Uploading.receive (uploading : u.Uploading remaining []) {buffer : List UInt8}
    (fits : buffer.length ≤ remaining) : { u with received := u.received ++ buffer }.Uploading remaining buffer where
  received := by simp [uploading.received]
  whole := uploading.whole
  fits := fits
  begins := uploading.begins
  ends := uploading.ends
  accepted := uploading.accepted

/-- The bytes received are fed. -/
theorem Uploading.feed {pending : List UInt8} (uploading : u.Uploading remaining pending) :
    { u with fed := u.fed ++ pending }.Uploading (remaining - pending.length) [] where
  received := by simp [uploading.received]
  whole := by
    have whole := uploading.whole
    have fits := uploading.fits
    simp only [List.length_append]
    omega
  fits := Nat.zero_le _
  begins := uploading.begins
  ends := uploading.ends
  accepted := uploading.accepted

/-- The override ends after the whole upload. -/
theorem Uploading.finish (uploading : u.Uploading 0 []) : { u with ends := u.ends + 1 }.Delivered where
  fed := by simp [uploading.received]
  whole := uploading.whole
  begins := uploading.begins
  ends := by simp [uploading.ends]

/-- The override ends early. -/
theorem Uploading.leave (uploading : u.Uploading remaining []) (some : remaining ≠ 0) :
    { u with ends := u.ends + 1 }.Completed where
  fed := by simp [uploading.received]
  bounded := by
    rw [← uploading.whole]
    exact Nat.le_add_right _ _
  begins := uploading.begins
  ends := by simp [uploading.ends]
  accepted := by
    have whole := uploading.whole
    simp only [uploading.accepted, Bool.false_eq_true, false_iff]
    omega

theorem start_sound (contentLen : Nat) : (start contentLen).Sound :=
  ⟨List.prefix_rfl, Nat.zero_le _, Nat.zero_le _, Nat.le_refl _, by simp [start]⟩

end WriteUpload

namespace UploadGhost.Holds

variable {ghost : UploadGhost} {P Q : WriteUpload → Prop}

theorem mono (holds : ghost.Holds P) (weaker : ∀ u, P u → Q u) : ghost.Holds Q :=
  fun granted u known => weaker u (holds granted u known)

/-- What a call makes of the upload. -/
theorem observe (holds : ghost.Holds P) {event : HttpEvent workers}
    (other : ∀ pool, event.call ≠ requestQueueReceive pool) (moves : ∀ u, P u → Q (u.after event)) :
    (uploadMonitor.observe ghost event).Holds Q := by
  intro granted u known
  obtain ⟨granted, -⟩ := Bool.or_eq_false_iff.mp granted
  have same : uploadAfter ghost.upload event = ghost.upload.map (·.after event) := by
    obtain ⟨c, reply⟩ := event
    cases c with
    | requestQueueReceive pool => exact absurd rfl (other pool)
    | _ => rfl
  have known : u ∈ uploadAfter ghost.upload event := known
  rw [same] at known
  obtain ⟨before, held, rfl⟩ := Option.map_eq_some_iff.mp known
  exact moves before (holds granted before held)

/-- A worker that has not received a request keeps what it has. -/
theorem idle (holds : ghost.Holds P) {pool : HttpPool} :
    (uploadMonitor.observe ghost (⟨requestQueueReceive pool, none⟩ : HttpEvent workers)).Holds P := by
  intro granted u known
  obtain ⟨granted, -⟩ := Bool.or_eq_false_iff.mp granted
  obtain ⟨before, held, rfl⟩ := Option.map_eq_some_iff.mp known
  exact holds granted before held

theorem of_refused (refused : ghost.refused = true) : ghost.Holds P := by
  intro granted
  cases refused.symm.trans granted

end UploadGhost.Holds

section Rounds

variable {ghost : UploadGhost} {asyncReq : HttpAsyncRequest} {remaining : Nat}

theorem writeFinish_uploads (rests : ghost.phase = .resting) (completed : ghost.Holds WriteUpload.Completed) :
    (writeFinish asyncReq : HttpProgram workers HttpRound).Meets uploadMonitor
      (fun ghost round => UploadHead round ghost) ghost := by
  refine ⟨⟨rfl, completed.mono fun _ => WriteUpload.Completed.sound, trivial⟩, fun _ => ⟨rests, ?_⟩⟩
  exact completed.observe (by simp) fun _ completed => completed

/-- The loop is left with `ESP_OK` when nothing remains. -/
theorem writeEnd_uploads_ok (uploads : ghost.phase = .uploading)
    (uploading : ghost.Holds (WriteUpload.Uploading 0 [])) :
    (writeEnd asyncReq espOk : HttpProgram workers HttpRound).Meets uploadMonitor
      (fun ghost round => UploadHead round ghost) ghost := by
  have ended : (uploadMonitor.observe ghost (⟨gnssOverrideEnd, ()⟩ : HttpEvent workers)).Holds WriteUpload.Delivered :=
    uploading.observe (by simp) fun _ => WriteUpload.Uploading.finish
  have typed : ∀ err, (uploadMonitor.observe (uploadMonitor.observe ghost ⟨gnssOverrideEnd, ()⟩)
      (⟨respSetType asyncReq.req (some "text/plain"), err⟩ : HttpEvent workers)).Holds WriteUpload.Delivered :=
    fun err => ended.observe (by simp) fun _ delivered => delivered
  simp only [writeEnd, CallTree.meets_bind, CallTree.meets_perform, ne_eq, not_true_eq_false, if_false]
  refine ⟨⟨rfl, uploading.mono fun _ => WriteUpload.Uploading.sound, uploads,
    uploading.mono fun _ uploading => uploading.finish.sound⟩, fun _ => ?_⟩
  refine ⟨⟨rfl, ended.mono fun _ => WriteUpload.Delivered.sound, trivial⟩, fun err => ?_⟩
  refine ⟨⟨rfl, (typed err).mono fun _ => WriteUpload.Delivered.sound, trivial⟩, fun _ => ?_⟩
  apply writeFinish_uploads rfl
  refine (typed err).observe (by simp) fun u delivered => ?_
  have reported := delivered.report
  simpa [WriteUpload.after] using reported

/-- The loop is left with an error while bytes remain. -/
theorem writeEnd_uploads_error {result : EspErr} (failed : result ≠ espOk) (uploads : ghost.phase = .uploading)
    (some : remaining ≠ 0) (uploading : ghost.Holds (WriteUpload.Uploading remaining [])) :
    (writeEnd asyncReq result : HttpProgram workers HttpRound).Meets uploadMonitor
      (fun ghost round => UploadHead round ghost) ghost := by
  simp only [writeEnd, CallTree.meets_bind, CallTree.meets_perform, if_pos failed]
  refine ⟨⟨rfl, uploading.mono fun _ => WriteUpload.Uploading.sound, uploads,
    uploading.mono fun _ uploading => (uploading.leave some).sound⟩, fun _ => ?_⟩
  apply writeFinish_uploads rfl
  exact uploading.observe (by simp) fun _ uploading => uploading.leave some

theorem writingRound_uploads (uploads : ghost.phase = .uploading)
    (uploading : ghost.Holds (WriteUpload.Uploading remaining [])) :
    (writingRound asyncReq remaining : HttpProgram workers HttpRound).Meets uploadMonitor
      (fun ghost round => UploadHead round ghost) ghost := by
  simp only [writingRound, CallTree.meets_bind, CallTree.meets_perform, CallTree.meets_ite]
  split
  · rename_i none
    rw [none] at uploading
    exact writeEnd_uploads_ok uploads uploading
  · rename_i some
    refine ⟨⟨rfl, uploading.mono fun _ => WriteUpload.Uploading.sound, trivial⟩, fun reply => ?_⟩
    have fits : reply.buffer.length ≤ remaining := by
      have filled := reply.filled
      have fits := reply.fits
      omega
    have empty (nothing : reply.received ≤ 0) : reply.buffer = [] := by
      apply List.eq_nil_of_length_eq_zero
      rw [reply.filled]
      exact Int.toNat_of_nonpos nothing
    have received : (uploadMonitor.observe ghost
        (⟨reqRecv asyncReq.req (min remaining httpWriteBufferSize), reply⟩ : HttpEvent workers)).Holds
          (WriteUpload.Uploading remaining reply.buffer) :=
      uploading.observe (by simp) fun _ uploading => uploading.receive fits
    split
    · rename_i timeout
      rw [empty (by rw [timeout]; decide)] at received
      exact ⟨uploads, received⟩
    · split
      · rename_i failed
        rw [empty failed] at received
        exact writeEnd_uploads_error (by decide) uploads some received
      · refine ⟨⟨rfl, received.mono fun _ => WriteUpload.Uploading.sound, uploads,
          received.mono fun _ uploading => uploading.feed.sound⟩, fun result => ?_⟩
        have fed : (uploadMonitor.observe (uploadMonitor.observe ghost
            ⟨reqRecv asyncReq.req (min remaining httpWriteBufferSize), reply⟩)
              (⟨gnssOverrideFeed reply.buffer, result⟩ : HttpEvent workers)).Holds
            (WriteUpload.Uploading (remaining - reply.buffer.length) []) :=
          received.observe (by simp) fun _ uploading => uploading.feed
        split
        · rename_i failed
          refine writeEnd_uploads_error failed uploads some (.of_refused ?_)
          simp [refuses, failed]
        · rw [← reply.filled]
          exact ⟨uploads, fed⟩

/-- A worker that has not got the override answers and goes on. -/
theorem respondText_uploads {req : HttpdReq} {status text : String} (rests : ghost.phase = .resting)
    (refused : ghost.refused = true) :
    (respondText req status text : HttpProgram workers Unit).Meets uploadMonitor
      (fun ghost _ => ghost.phase = .resting ∧ ghost.refused = true) ghost := by
  have stays {event : HttpEvent workers} {ghost : UploadGhost} (refused : ghost.refused = true) :
      (uploadMonitor.observe ghost event).refused = true := by simp [refused]
  simp only [respondText, CallTree.meets_bind, CallTree.meets_perform]
  refine ⟨⟨rfl, .of_refused refused, trivial⟩, fun _ => ?_⟩
  refine ⟨⟨rfl, .of_refused (stays refused), trivial⟩, fun _ => ?_⟩
  refine ⟨⟨rfl, .of_refused (stays (stays refused)), trivial⟩, fun _ => ?_⟩
  exact ⟨rests, stays (stays (stays refused))⟩

theorem writeReadyRound_uploads (rests : ghost.phase = .resting) (completed : ghost.Holds WriteUpload.Completed) :
    (writeReadyRound : HttpProgram workers HttpRound).Meets uploadMonitor
      (fun ghost round => UploadHead round ghost) ghost := by
  have sound := completed.mono fun _ => WriteUpload.Completed.sound
  have still : (uploadMonitor.observe ghost (⟨workerReadyGive .write, ()⟩ : HttpEvent workers)).Holds
      WriteUpload.Completed := completed.observe (by simp) fun _ completed => completed
  simp only [writeReadyRound, CallTree.meets_bind, CallTree.meets_perform]
  refine ⟨⟨rfl, sound, rests, completed⟩, fun _ =>
    ⟨⟨rfl, still.mono fun _ => WriteUpload.Completed.sound, rests, still⟩, fun request => ?_⟩⟩
  cases request with
  | none => exact ⟨rests, still.idle⟩
  | some asyncReq =>
      generalize later : uploadMonitor.observe _ (⟨requestQueueReceive .write, some asyncReq⟩ : HttpEvent workers) =
        ghost
      have rests : ghost.phase = .resting := by
        rw [← later]
        exact rests
      have started : ghost.Holds (· = .start asyncReq.req.contentLen) := by
        rw [← later]
        exact fun _ u known => (Option.some.inj known).symm
      simp only [CallTree.meets_bind, CallTree.meets_perform, CallTree.meets_ite]
      refine ⟨⟨rfl, started.mono fun u same => ?_, rests⟩, fun result => ?_⟩
      · rw [same]
        exact WriteUpload.start_sound _
      · split
        · rename_i failed
          apply (respondText_uploads (if_neg failed) (by simp [refuses, failed])).mono
          rintro last - ⟨rests, refused⟩
          exact writeFinish_uploads rests (.of_refused refused)
        · rename_i begun
          refine ⟨if_pos (not_not.mp begun), started.observe (by simp) fun u same => ?_⟩
          rw [same]
          exact ⟨rfl, Nat.zero_add _, Nat.zero_le _, rfl, rfl, rfl⟩

end Rounds

end EspGnss.Http
