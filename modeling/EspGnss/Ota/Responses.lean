import EspGnss.Ota.Pending
import EspGnss.Ota.Restart

/-! # The answers tell the truth

A client sees only the responses. Whatever the worker, the timers and other requests do
in between, each response says what is so when it is sent: the state of the confirmation, a
reboot that is scheduled, what the request asks for, and how the calls just before it went.
One text can say too much: a request that could not be cloned, or that came before the worker
waited for one, is told that another upload is active.
-/

namespace EspGnss.Ota

open Foundation OtaCall

/-- The running image awaits its confirmation. -/
def Awaits (pendingVerify : Bool) (history : List OtaStep) : Prop := pendingVerify = true ∧ ¬Validated history

/-- The calls of a party, the latest first. -/
def ownCalls (party : OtaParty) (history : List OtaStep) : List OtaEvent :=
  ((history.filter fun step => step.party = party).map (·.event)).reverse

/-- The party's last call has missed the worker's token while an accepted upload was not finished,
    or before the worker waited for its first one. -/
def Missed (party : OtaParty) (history : List OtaStep) : Prop :=
  ∃ before after, history = before ++ ⟨party, ⟨workerReadyTake, false⟩⟩ :: after ∧
    (∀ step ∈ after, step.party ≠ party) ∧ (Uploading before ∨ Unarmed before)

/-- The worker has received no other upload since. -/
def Receiving (asyncReq : OtaAsyncRequest) : List OtaStep → Prop :=
  Since (· = ⟨.worker, ⟨requestQueueReceive, some asyncReq⟩⟩)
    (fun step => step.party = .worker ∧ step.event.call = requestQueueReceive)

/-- What an answer can rest on. -/
structure Facts where
  request : HttpdReq → Prop
  upload : OtaAsyncRequest → Prop
  awaits : Prop
  settled : Prop
  validated : Prop
  decided : Prop
  missed : Prop
  /-- The last calls of the party, the latest first. -/
  recent : List OtaEvent → Prop

def factsOf (pendingVerify : Bool) (request : Option HttpdReq) (history : List OtaStep) (party : OtaParty) :
    Facts where
  request req := request = some req
  upload asyncReq := Receiving asyncReq history
  awaits := Awaits pendingVerify history
  settled := ¬Awaits pendingVerify history
  validated := Validated history
  decided := Decided history
  missed := Missed party history
  recent events := events <+: ownCalls party history

def partitionLabel (partition : Option EspPartition) : String := (partition.map (·.label)).getD "<none>"

def yesNo (flag : Bool) : String := if flag then "yes" else "no"

/-- The page of `/flash/status`. -/
def statusText (running boot next : Option EspPartition) (version : String) (pending possible : Bool) : String :=
  responseText <|
    "version=" ++ version ++ "\nrunning=" ++ partitionLabel running ++ "\nboot=" ++ partitionLabel boot ++
    "\nconfirmation_pending=" ++ yesNo pending ++ "\nrollback_possible=" ++ yesNo possible ++
    "\nnext_slot=" ++ partitionLabel next ++
    "\nnext_slot_bytes=" ++ toString ((next.map (·.size)).getD 0) ++ "\n"

/-- How `POST /flash` is refused. -/
inductive FlashRefusal (facts : Facts) : String → String → Prop
  | empty {req} : facts.request req → req.contentLen = 0 →
      FlashRefusal facts "411 Length Required" "POST /flash requires a non-empty Content-Length body\n"
  | length {length} : facts.recent [⟨reqGetHdrValueLen otaSha256Header, length⟩] → length ≠ otaSha256HexLen →
      FlashRefusal facts "400 Bad Request" "missing or invalid X-Firmware-SHA256 header\n"
  | header {header} : facts.recent [⟨reqGetHdrValueStr otaSha256Header, header⟩] →
      otaSha256Parse header.value = none ∨ header.err ≠ espOk →
      FlashRefusal facts "400 Bad Request" "missing or invalid X-Firmware-SHA256 header\n"
  | slot : facts.recent [⟨otaGetNextUpdatePartition, none⟩] →
      FlashRefusal facts "503 Service Unavailable" "no inactive OTA application slot is available\n"
  | size {req partition} : facts.request req → facts.recent [⟨otaGetNextUpdatePartition, some partition⟩] →
      partition.size < req.contentLen →
      FlashRefusal facts "413 Content Too Large" "firmware image does not fit the inactive OTA slot\n"
  | busy : facts.recent [⟨workerReadyTake, false⟩] → facts.missed →
      FlashRefusal facts "409 Conflict" "another firmware upload is already active\n"
  /-- There may be no other upload: the request could not be cloned. -/
  | uncloned {req err} : facts.request req →
      facts.recent [⟨workerReadyGive, ()⟩, ⟨asyncHandlerBegin req, err⟩, ⟨workerReadyTake, true⟩] → err ≠ espOk →
      FlashRefusal facts "409 Conflict" "another firmware upload is already active\n"
  /-- Another request is queued already. -/
  | unsent {asyncReq err} : facts.request asyncReq.req →
      facts.recent [⟨asyncHandlerComplete asyncReq.req, err⟩, ⟨workerReadyGive, ()⟩,
        ⟨requestQueueSend asyncReq, false⟩] →
      FlashRefusal facts "409 Conflict" "another firmware upload is already active\n"

/-- How an upload that is not accepted is answered. -/
inductive UploadFault (facts : Facts) : String → String → Prop
  | setup {psaStatus} : facts.recent [⟨psaHashSetup, psaStatus⟩] → psaStatus ≠ psaSuccess →
      UploadFault facts "500 Internal Server Error" "failed to initialize checksum\n"
  | begin {asyncReq} {reply : BeginReply} : facts.upload asyncReq →
      facts.recent [⟨otaBegin asyncReq.updatePartition, reply⟩] → reply.err ≠ espOk →
      UploadFault facts "500 Internal Server Error" "failed to begin OTA update\n"
  | timedOut {requested} {reply : RecvReply requested} : facts.recent [⟨reqRecv requested, reply⟩] →
      reply.received = httpdSockErrTimeout →
      UploadFault facts "408 Request Timeout" "firmware upload timed out\n"
  | incomplete {requested} {reply : RecvReply requested} : facts.recent [⟨reqRecv requested, reply⟩] →
      reply.received ≠ httpdSockErrTimeout → reply.received ≤ 0 →
      UploadFault facts "400 Bad Request" "incomplete firmware upload\n"
  | update {buffer psaStatus} : facts.recent [⟨psaHashUpdate buffer, psaStatus⟩] → psaStatus ≠ psaSuccess →
      UploadFault facts "500 Internal Server Error" "checksum calculation failed\n"
  | write {otaHandle buffer err} : facts.recent [⟨otaWrite otaHandle buffer, err⟩] → err ≠ espOk →
      UploadFault facts "422 Unprocessable Content" "firmware write validation failed\n"
  | finish {reply : FinishReply} : facts.recent [⟨psaHashFinish, reply⟩] →
      reply.status ≠ psaSuccess ∨ reply.length ≠ otaSha256Len →
      UploadFault facts "500 Internal Server Error" "checksum calculation failed\n"
  | mismatch {asyncReq} {reply : FinishReply} : facts.upload asyncReq → facts.recent [⟨psaHashFinish, reply⟩] →
      reply.status = psaSuccess → reply.length = otaSha256Len → reply.sha256 ≠ asyncReq.expectedSha256 →
      UploadFault facts "422 Unprocessable Content" "firmware SHA-256 mismatch\n"
  | rejected {otaHandle err} : facts.recent [⟨otaEnd otaHandle, err⟩] → err ≠ espOk →
      UploadFault facts "422 Unprocessable Content" "ESP-IDF rejected firmware image\n"
  | select {asyncReq err} : facts.upload asyncReq →
      facts.recent [⟨otaSetBootPartition asyncReq.updatePartition, err⟩] → err ≠ espOk →
      UploadFault facts "500 Internal Server Error" "failed to select uploaded firmware\n"

/-- The answers of each party, with what has to be so for them. -/
inductive Says (facts : Facts) : OtaParty → Option String → String → Prop
  /-- The last six calls are the page's, in whatever order. -/
  | status {events running boot next version possible pending} : facts.recent events → events.length = 6 →
      ⟨otaGetRunningPartition, running⟩ ∈ events → ⟨otaGetBootPartition, boot⟩ ∈ events →
      ⟨otaGetNextUpdatePartition, next⟩ ∈ events → ⟨appVersionString, version⟩ ∈ events →
      ⟨confirmationPendingGet, pending⟩ ∈ events → ⟨otaCheckRollbackIsPossible, possible⟩ ∈ events →
      (pending = true → facts.awaits) → (pending = false → facts.settled) →
      Says facts (.httpd .status) none (statusText running boot next version pending possible)
  | confirmed : facts.validated → Says facts (.httpd .confirm) none confirmedText
  | notAwaiting : facts.settled → Says facts (.httpd .confirm) (some "409 Conflict")
      "running firmware is not awaiting confirmation\n"
  | unconfirmed {err} : facts.awaits → facts.recent [⟨otaMarkAppValidCancelRollback, err⟩] → err ≠ espOk →
      Says facts (.httpd .confirm) (some "500 Internal Server Error") "failed to confirm running firmware\n"
  | rolledBack : facts.recent [⟨otaMarkAppInvalidRollback, espOk⟩] →
      Says facts (.httpd .rollback) none "rollback selected; rebooting\n"
  | impossible : facts.recent [⟨otaCheckRollbackIsPossible, false⟩] →
      Says facts (.httpd .rollback) (some "409 Conflict") "no older bootable OTA image is available\n"
  | unselected {err} : facts.recent [⟨otaMarkAppInvalidRollback, err⟩] → err ≠ espOk →
      Says facts (.httpd .rollback) (some "500 Internal Server Error") "failed to select rollback firmware\n"
  | scheduled {uri} : facts.decided → Says facts (.httpd uri) (some "409 Conflict") "a reboot is already scheduled\n"
  | pending : facts.awaits → Says facts (.httpd .flash) (some "409 Conflict")
      "confirm or roll back the running firmware before another update\n"
  | refused {status text} : facts.settled → FlashRefusal facts status text →
      Says facts (.httpd .flash) (some status) text
  | accepted {asyncReq} : facts.upload asyncReq →
      facts.recent [⟨otaSetBootPartition asyncReq.updatePartition, espOk⟩] → Says facts .worker none acceptedText
  | failed {status text} : UploadFault facts status text → Says facts .worker (some status) text

/-- The calls of a program, the latest first; `pending` is the flag as it was last read. -/
structure Report where
  request : Option HttpdReq
  upload : Option OtaAsyncRequest
  pending : Option Bool
  marked : Bool
  scheduled : Bool
  events : List OtaEvent

namespace Report

/-- A handler starts with its request. -/
def handling (req : HttpdReq) : Report := ⟨some req, none, none, false, false, []⟩

/-- A round of the worker starts with its upload. -/
def receiving (asyncReq : OtaAsyncRequest) : Report := ⟨none, some asyncReq, none, false, false, []⟩

/-- What the reply to a call adds. -/
@[simp] def learn (report : Report) : OtaEvent → Report
  | ⟨confirmationPendingGet, pending⟩ => { report with pending := some pending }
  | ⟨otaMarkAppValidCancelRollback, err⟩ => { report with marked := report.marked || err = espOk }
  | ⟨restartScheduledGet, scheduled⟩ => { report with scheduled := report.scheduled || scheduled }
  | _ => report

def record (report : Report) (event : OtaEvent) : Report := { report with events := event :: report.events }

def after (report : Report) (event : OtaEvent) : Report := (report.learn event).record event

def facts (report : Report) : Facts where
  request req := report.request = some req
  upload asyncReq := report.upload = some asyncReq
  awaits := report.pending = some true ∧ report.marked = false
  settled := report.pending = some false
  validated := report.marked = true
  decided := report.scheduled = true
  missed := report.events.head? = some ⟨workerReadyTake, false⟩
  recent events := events <+: report.events

@[simp] theorem after_events (report : Report) (event : OtaEvent) :
    (report.after event).events = event :: report.events := by
  obtain ⟨c, reply⟩ := event
  cases c <;> rfl

@[simp] def Permits (party : OtaParty) (report : Report) : OtaCall → Prop
  | respSendstr status text => Says report.facts party status text
  | requestQueueReceive => False
  | _ => True

end Report

@[simps] def reportMonitor (party : OtaParty) : Monitor OtaCall.Reply Report := ⟨Report.Permits party, Report.after⟩

abbrev Reports {α : Type} (party : OtaParty) (report : Report) (program : OtaProgram α) : Prop :=
  program.Meets (reportMonitor party) (fun _ _ => True) report

theorem otaStatusGetHandler_reports (req : HttpdReq) :
    Reports (.httpd .status) (.handling req) otaStatusGetHandler := by
  simp only [otaStatusGetHandler, Reports, CallTree.meets_bind, CallTree.meets_perform, otaSendText_meets,
    reportMonitor_allows, reportMonitor_observe, Report.Permits, implies_true, true_and, and_true]
  intro running boot next version pending possible
  refine .status (List.prefix_refl _) rfl ?_ ?_ ?_ ?_ ?_ ?_ ?_ ?_
  · simp [Report.handling]
  · simp [Report.handling]
  · simp [Report.handling]
  · simp [Report.handling]
  · simp [Report.handling]
  · simp [Report.handling]
  · exact fun set => ⟨congrArg some set, rfl⟩
  · exact fun clear => congrArg some clear

/-- The last call is the first of the calls, the latest first. -/
theorem recent_last {event : OtaEvent} {events : List OtaEvent} : [event] <+: event :: events := ⟨events, rfl⟩

theorem otaConfirmPostHandler_reports (req : HttpdReq) :
    Reports (.httpd .confirm) (.handling req) otaConfirmPostHandler := by
  simp [otaConfirmPostHandler, Report.after, Report.record, Report.handling]
  refine ⟨.notAwaiting rfl, ?_⟩
  intro err
  split
  · rename_i marked
    intro cleared
    exact ⟨.confirmed (decide_eq_true marked), .confirmed (decide_eq_true marked)⟩
  · rename_i failed
    exact .unconfirmed ⟨rfl, decide_eq_false failed⟩ recent_last failed

theorem otaRollbackPostHandler_reports (req : HttpdReq) :
    Reports (.httpd .rollback) (.handling req) otaRollbackPostHandler := by
  simp [otaRollbackPostHandler, otaRestartSchedule, Report.after, Report.record, Report.handling]
  refine ⟨⟨.impossible recent_last, ?_⟩, .scheduled rfl⟩
  intro err
  split
  · rename_i selected
    subst selected
    exact .rolledBack recent_last
  · rename_i failed
    exact .unselected recent_last failed

theorem otaRequestQueue_reports (req : HttpdReq) (updatePartition : EspPartition) (sha256 : Sha256)
    {report : Report} (request : report.request = some req) (settled : report.pending = some false) :
    (otaRequestQueue req updatePartition sha256).Meets (reportMonitor (.httpd .flash))
      (fun report err => report.pending = some false ∧ (err ≠ espOk →
        FlashRefusal report.facts "409 Conflict" "another firmware upload is already active\n")) report := by
  simp [otaRequestQueue, Report.after, Report.record, settled]
  refine ⟨fun _ => .busy recent_last rfl, ?_⟩
  intro begun
  split
  · exact fun given completed _ => @FlashRefusal.unsent _ ⟨req, updatePartition, sha256⟩ completed request ⟨_, rfl⟩
  · rename_i failed
    exact fun given _ => .uncloned request ⟨_, rfl⟩ failed

theorem otaFlashPostHandler_reports (req : HttpdReq) :
    Reports (.httpd .flash) (.handling req) (otaFlashPostHandler req) := by
  have refuses {report : Report} {status text} (settled : report.pending = some false)
      (refusal : FlashRefusal report.facts status text) : Says report.facts (.httpd .flash) (some status) text :=
    .refused settled refusal
  unfold otaFlashPostHandler otaSha256HeaderParse
  simp [Report.after, Report.record, Report.handling]
  refine ⟨⟨?_, .pending ⟨rfl, rfl⟩⟩, .scheduled rfl⟩
  split
  · rename_i empty
    exact refuses rfl (.empty rfl empty)
  intro length
  split
  · intro header
    split
    · cases parsed : otaSha256Parse header.value with
      | none => exact ⟨refuses rfl (.header recent_last (.inl parsed)), fun sent => trivial⟩
      | some sha256 =>
          refine ⟨trivial, ?_⟩
          intro updatePartition
          cases updatePartition with
          | none => exact ⟨refuses rfl (.slot recent_last), fun sent => trivial⟩
          | some updatePartition =>
              change CallTree.Meets _ _ _ (if req.contentLen > updatePartition.size then _ else _)
              split
              · rename_i large
                exact ⟨refuses rfl (.size rfl recent_last large), fun sent => trivial⟩
              · apply CallTree.meets_bind.mpr
                apply (otaRequestQueue_reports req updatePartition sha256 rfl rfl).mono
                intro report err told
                obtain ⟨settled, failed⟩ := told
                rw [CallTree.meets_ite, otaSendText_meets]
                split
                · trivial
                · rename_i refused
                  exact ⟨refuses settled (failed refused), fun sent => trivial⟩
    · rename_i unread
      exact refuses rfl (.header recent_last (.inr unread))
  · rename_i wrong
    exact refuses rfl (.length recent_last wrong)

theorem handler_reports (req : HttpdReq) (uri : OtaUri) :
    Reports (.httpd uri) (.handling req) (uri.handler req) := by
  cases uri with
  | flash => exact otaFlashPostHandler_reports req
  | status => exact otaStatusGetHandler_reports req
  | confirm => exact otaConfirmPostHandler_reports req
  | rollback => exact otaRollbackPostHandler_reports req

theorem otaFlashReceiveVerify_reports (asyncReq : OtaAsyncRequest) (otaHandle : Nat) (result : EspErr)
    {report : Report} (upload : report.upload = some asyncReq) :
    Reports .worker report (otaFlashReceiveVerify asyncReq otaHandle result) := by
  simp [otaFlashReceiveVerify, Report.after, Report.record]
  intro actual
  split
  · rename_i unfinished
    exact .failed (.finish recent_last unfinished)
  rename_i finished
  obtain ⟨succeeded, whole⟩ : actual.status = psaSuccess ∧ actual.length = otaSha256Len := by
    simpa using finished
  split
  · intro err
    split
    · intro err
      split
      · rename_i selected
        subst selected
        exact .accepted upload recent_last
      · rename_i unselected
        exact .failed (.select upload recent_last unselected)
    · rename_i invalid
      exact .failed (.rejected recent_last invalid)
  · rename_i differs
    exact .failed (.mismatch upload recent_last succeeded whole differs)

theorem otaReceiveLoop_reports {asyncReq : OtaAsyncRequest} (otaHandle : Nat) (result : EspErr)
    (remaining timeouts : Nat) {report : Report} (upload : report.upload = some asyncReq) :
    (otaReceiveLoop otaHandle result remaining timeouts).Meets (reportMonitor .worker)
      (fun report _ => report.upload = some asyncReq) report := by
  induction result, remaining, timeouts using otaReceiveLoop.induct otaHandle generalizing report with
  | case2 result remaining timeouts done =>
      rw [otaReceiveLoop, if_neg done]
      exact upload
  | case1 result remaining timeouts more onTimeout onChunk =>
      rw [otaReceiveLoop, if_pos more]
      simp [Report.after, Report.record]
      intro reply
      split
      · rename_i timedOut
        split
        · rename_i again
          exact onTimeout reply again upload
        · exact ⟨.failed (.timedOut recent_last timedOut), upload⟩
      rename_i answered
      split
      · rename_i gone
        exact ⟨.failed (.incomplete recent_last answered gone), upload⟩
      rename_i arrived
      intro psaStatus
      split
      · intro err
        split
        · exact onChunk reply arrived err upload
        · rename_i unwritten
          exact ⟨.failed (.write recent_last unwritten), upload⟩
      · rename_i unhashed
        exact ⟨.failed (.update recent_last unhashed), upload⟩

theorem otaWorkerServe_reports (asyncReq : OtaAsyncRequest) :
    Reports .worker (.receiving asyncReq) (otaWorkerServe asyncReq) := by
  unfold otaWorkerServe otaFlashReceive otaFlashReceiveBody otaWorkerFinish otaRestartSchedule
  simp [Report.after, Report.record, Report.receiving]
  intro socketFd psaStatus
  split
  · intro reply
    split
    · apply (otaReceiveLoop_reports _ _ _ _ rfl).mono
      intro report ending upload received
      exact otaFlashReceiveVerify_reports asyncReq reply.otaHandle ending.1 upload
    · rename_i unopened
      exact .failed (.begin rfl recent_last unopened)
  · rename_i unset
    exact .failed (.setup recent_last unset)

/-- A step of the confirmation before the boot, where none is pending. -/
def boot (pendingVerify : Bool) : List OtaStep :=
  if pendingVerify then [] else [⟨.httpd .confirm, ⟨otaMarkAppValidCancelRollback, espOk⟩⟩]

theorem awaits_iff {pendingVerify : Bool} {history : List OtaStep} :
    Awaits pendingVerify history ↔ ¬Validated (boot pendingVerify ++ history) := by
  cases pendingVerify <;> simp [Awaits, boot, Validated, validates]

/-- An image that is not pending is like one that has been marked valid. -/
theorem awaiting_boot (pendingVerify : Bool) : Awaiting (boot pendingVerify) (.initial pendingVerify) .none := by
  cases pendingVerify with
  | true => exact awaiting_initial
  | false =>
      have valid : Validated (boot false) := by simp [boot, Validated, validates]
      constructor <;> simp [OtaStack.initial, Knowledge.Owes, Knowledge.none, valid]

theorem awaiting_since_boot {pendingVerify : Bool} {history : List OtaStep} {s : OtaStack}
    (run : (otaSystem pendingVerify).Exec history s) : ∃ known, Awaiting (boot pendingVerify ++ history) s known := by
  induction run with
  | start first =>
      cases first
      exact ⟨.none, by simpa using awaiting_boot pendingVerify⟩
  | next _ step ih =>
      obtain ⟨known, awaiting⟩ := ih
      rw [← List.append_assoc]
      exact awaiting.step (OtaTransition.of_next step).2

/-- A handler that tests the flag finds it set exactly while the image awaits its confirmation. -/
theorem pending_iff_awaits {pendingVerify : Bool} {history : List OtaStep} {s : OtaStack} {uri later}
    (run : (otaSystem pendingVerify).Exec history s)
    (tests : s.httpd = some ⟨uri, .call confirmationPendingGet later⟩) :
    s.shared.confirmationPending = true ↔ Awaits pendingVerify history := by
  obtain ⟨known, awaiting⟩ := awaiting_since_boot run
  have clean : ¬known.Owes := (awaiting.handler _ tests).1
  rw [awaits_iff]
  constructor
  · intro set valid
    exact clean (awaiting.owes valid set)
  · intro waits
    by_contra clear
    exact waits (awaiting.cleared (Bool.eq_false_of_not_eq_true clear))

theorem ownCalls_own {party : OtaParty} {event : OtaEvent} {history : List OtaStep} :
    ownCalls party (history ++ [⟨party, event⟩]) = event :: ownCalls party history := by
  simp [ownCalls]

theorem ownCalls_other {party : OtaParty} {history : List OtaStep} {step : OtaStep} (other : step.party ≠ party) :
    ownCalls party (history ++ [step]) = ownCalls party history := by
  simp [ownCalls, other]

theorem Missed.other {party : OtaParty} {history : List OtaStep} {step : OtaStep} (missed : Missed party history)
    (other : step.party ≠ party) : Missed party (history ++ [step]) := by
  obtain ⟨before, after, rfl, quiet, busy⟩ := missed
  refine ⟨before, after ++ [step], by simp, ?_, busy⟩
  exact List.forall_mem_append.mpr ⟨quiet, List.forall_mem_singleton.mpr other⟩

/-- What a report says holds of the history. -/
structure Holds (facts actual : Facts) : Prop where
  request : ∀ req, facts.request req → actual.request req
  upload : ∀ asyncReq, facts.upload asyncReq → actual.upload asyncReq
  awaits : facts.awaits → actual.awaits
  settled : facts.settled → actual.settled
  validated : facts.validated → actual.validated
  decided : facts.decided → actual.decided
  missed : facts.missed → actual.missed
  recent : ∀ events, facts.recent events → actual.recent events

theorem FlashRefusal.mono {facts actual : Facts} {status text} (refusal : FlashRefusal facts status text)
    (holds : Holds facts actual) : FlashRefusal actual status text := by
  obtain ⟨request, -, -, -, -, -, missed, recent⟩ := holds
  cases refusal with
  | empty req empty => exact .empty (request _ req) empty
  | length last wrong => exact .length (recent _ last) wrong
  | header last wrong => exact .header (recent _ last) wrong
  | slot last => exact .slot (recent _ last)
  | size req last large => exact .size (request _ req) (recent _ last) large
  | busy last found => exact .busy (recent _ last) (missed found)
  | uncloned req last failed => exact .uncloned (request _ req) (recent _ last) failed
  | unsent req last => exact .unsent (request _ req) (recent _ last)

theorem UploadFault.mono {facts actual : Facts} {status text} (fault : UploadFault facts status text)
    (holds : Holds facts actual) : UploadFault actual status text := by
  obtain ⟨-, upload, -, -, -, -, -, recent⟩ := holds
  cases fault with
  | setup last failed => exact .setup (recent _ last) failed
  | begin serves last failed => exact .begin (upload _ serves) (recent _ last) failed
  | timedOut last timedOut => exact .timedOut (recent _ last) timedOut
  | incomplete last answered gone => exact .incomplete (recent _ last) answered gone
  | update last failed => exact .update (recent _ last) failed
  | write last failed => exact .write (recent _ last) failed
  | finish last failed => exact .finish (recent _ last) failed
  | mismatch serves last succeeded whole differs =>
      exact .mismatch (upload _ serves) (recent _ last) succeeded whole differs
  | rejected last failed => exact .rejected (recent _ last) failed
  | select serves last failed => exact .select (upload _ serves) (recent _ last) failed

theorem Says.mono {facts actual : Facts} {party status text} (said : Says facts party status text)
    (holds : Holds facts actual) : Says actual party status text := by
  have recent := holds.recent
  cases said with
  | status last six running boot next version pending possible set clear =>
      exact .status (recent _ last) six running boot next version pending possible
        (fun flag => holds.awaits (set flag)) (fun flag => holds.settled (clear flag))
  | confirmed valid => exact .confirmed (holds.validated valid)
  | notAwaiting not => exact .notAwaiting (holds.settled not)
  | unconfirmed waits last failed => exact .unconfirmed (holds.awaits waits) (recent _ last) failed
  | rolledBack last => exact .rolledBack (recent _ last)
  | impossible last => exact .impossible (recent _ last)
  | unselected last failed => exact .unselected (recent _ last) failed
  | scheduled taken => exact .scheduled (holds.decided taken)
  | pending waits => exact .pending (holds.awaits waits)
  | refused not refusal => exact .refused (holds.settled not) (refusal.mono holds)
  | accepted serves last => exact .accepted (holds.upload _ serves) (recent _ last)
  | failed fault => exact .failed (fault.mono holds)

section Holds

variable {pendingVerify : Bool} {request : Option HttpdReq} {history : List OtaStep} {party : OtaParty}
  {report : Report}

theorem holds_handling (req : HttpdReq) :
    Holds (Report.handling req).facts (factsOf pendingVerify (some req) history party) := by
  constructor <;> simp [Report.facts, Report.handling, factsOf]

theorem holds_receiving (asyncReq : OtaAsyncRequest) :
    Holds (Report.receiving asyncReq).facts
      (factsOf pendingVerify request (history ++ [⟨.worker, ⟨requestQueueReceive, some asyncReq⟩⟩]) party) := by
  constructor <;> simp [Report.facts, Report.receiving, factsOf, Receiving, since_opened]

theorem awaits_append {step : OtaStep} : Awaits pendingVerify (history ++ [step]) ↔
    Awaits pendingVerify history ∧ validates step.event = false := by
  simp [Awaits, validated_append, and_assoc]

/-- A step of another party; it does not confirm the image where the flag was found set. -/
theorem Holds.other (holds : Holds report.facts (factsOf pendingVerify request history party)) {step : OtaStep}
    (other : step.party ≠ party) (silent : report.pending = some true → validates step.event = false)
    (aloof : report.upload = none ∨ step.party ≠ .worker) :
    Holds report.facts (factsOf pendingVerify request (history ++ [step]) party) where
  request := holds.request
  upload asyncReq serves := by
    rcases aloof with idle | elsewhere
    · cases idle.symm.trans serves
    · exact Since.snoc (holds.upload asyncReq serves) (fun receives => elsewhere receives.1)
  awaits waits := awaits_append.mpr ⟨holds.awaits waits, silent waits.1⟩
  settled settled waits := holds.settled settled (awaits_append.mp waits).1
  validated marked := validated_append.mpr (.inl (holds.validated marked))
  decided scheduled := decided_snoc.mpr (.inl (holds.decided scheduled))
  missed found := (holds.missed found).other other
  recent events last := by
    have before : events <+: ownCalls party history := holds.recent events last
    rwa [← ownCalls_other other] at before

theorem Holds.recalls (holds : Holds report.facts (factsOf pendingVerify request history party)) {event : OtaEvent}
    {events : List OtaEvent} (last : events <+: event :: report.events) :
    events <+: ownCalls party (history ++ [⟨party, event⟩]) := by
  have whole : report.events <+: ownCalls party history := holds.recent report.events (List.prefix_refl _)
  rw [ownCalls_own]
  exact last.trans ((List.prefix_cons_inj event).mpr whole)

/-- A call of the party itself from which it learns nothing more. -/
theorem Holds.calls (holds : Holds report.facts (factsOf pendingVerify request history party)) {event : OtaEvent}
    (silent : validates event = false) (found : event = ⟨workerReadyTake, false⟩ → Uploading history ∨ Unarmed history)
    (keeps : event.call ≠ requestQueueReceive) :
    Holds (report.record event).facts (factsOf pendingVerify request (history ++ [⟨party, event⟩]) party) where
  request := holds.request
  upload asyncReq serves := Since.snoc (holds.upload asyncReq serves) (fun receives => keeps receives.2)
  awaits waits := awaits_append.mpr ⟨holds.awaits waits, silent⟩
  settled settled waits := holds.settled settled (awaits_append.mp waits).1
  validated marked := validated_append.mpr (.inl (holds.validated marked))
  decided scheduled := decided_snoc.mpr (.inl (holds.decided scheduled))
  missed last := by
    obtain rfl : event = ⟨workerReadyTake, false⟩ := Option.some.inj last
    exact ⟨history, [], rfl, List.forall_mem_nil _, found rfl⟩
  recent events := holds.recalls

/-- A call of the party itself. -/
theorem Holds.learns (holds : Holds report.facts (factsOf pendingVerify request history party)) {event : OtaEvent}
    (pending : ∀ flag, event = ⟨confirmationPendingGet, flag⟩ → (flag = true ↔ Awaits pendingVerify history))
    (scheduled : event = ⟨restartScheduledGet, true⟩ → Decided history)
    (found : event = ⟨workerReadyTake, false⟩ → Uploading history ∨ Unarmed history)
    (keeps : event.call ≠ requestQueueReceive) :
    Holds (report.after event).facts (factsOf pendingVerify request (history ++ [⟨party, event⟩]) party) := by
  obtain ⟨c, reply⟩ := event
  cases c with
  | confirmationPendingGet =>
      have told := pending reply rfl
      have kept : Holds (report.record ⟨confirmationPendingGet, reply⟩).facts
        (factsOf pendingVerify request (history ++ [⟨party, ⟨confirmationPendingGet, reply⟩⟩]) party) :=
        holds.calls rfl found keeps
      refine { kept with awaits := ?_, settled := ?_ }
      · intro waits
        exact awaits_append.mpr ⟨told.mp (Option.some.inj waits.1), rfl⟩
      · intro clear waits
        have set := told.mpr (awaits_append.mp waits).1
        cases set.symm.trans (Option.some.inj clear)
  | restartScheduledGet =>
      have kept : Holds (report.record ⟨restartScheduledGet, reply⟩).facts
        (factsOf pendingVerify request (history ++ [⟨party, ⟨restartScheduledGet, reply⟩⟩]) party) :=
        holds.calls rfl found keeps
      refine { kept with decided := ?_ }
      intro told
      rcases Bool.or_eq_true_iff.mp told with old | now
      · exact kept.decided old
      · cases now
        exact decided_snoc.mpr (.inl (scheduled rfl))
  | otaMarkAppValidCancelRollback =>
      constructor
      · exact holds.request
      · intro asyncReq serves
        exact Since.snoc (holds.upload asyncReq serves) (fun receives => keeps receives.2)
      · intro waits
        obtain ⟨unmarked, failed⟩ := Bool.or_eq_false_iff.mp waits.2
        exact awaits_append.mpr ⟨holds.awaits ⟨waits.1, unmarked⟩, failed⟩
      · intro settled waits
        exact holds.settled settled (awaits_append.mp waits).1
      · intro marked
        rcases Bool.or_eq_true_iff.mp marked with old | now
        · exact validated_append.mpr (.inl (holds.validated old))
        · exact validated_append.mpr (.inr now)
      · intro scheduled
        exact decided_snoc.mpr (.inl (holds.decided scheduled))
      · intro last
        cases Option.some.inj last
      · intro events
        exact holds.recalls
  | _ => exact holds.calls rfl found keeps

end Holds

/-- What the handler and the worker have learned is so. The handler knows its request and the
    worker its upload, and the worker does not ask for the flag. -/
structure Reporting (pendingVerify : Bool) (request : Option HttpdReq) (history : List OtaStep) (s : OtaStack) :
    Prop where
  handler : ∀ serving, s.httpd = some serving → ∃ report, Reports (.httpd serving.uri) report serving.program ∧
    Holds report.facts (factsOf pendingVerify request history (.httpd serving.uri)) ∧ report.upload = none
  worker : ∀ program, s.worker = .serving program → ∃ report, Reports .worker report program ∧
    Holds report.facts (factsOf pendingVerify request history .worker) ∧ report.request = none ∧ report.pending = none

theorem learn_pending {report : Report} {event : OtaEvent} (other : event.call ≠ confirmationPendingGet) :
    (report.after event).pending = report.pending := by
  obtain ⟨c, reply⟩ := event
  cases c with
  | confirmationPendingGet => exact absurd rfl other
  | _ => rfl

@[simp] theorem after_request (report : Report) (event : OtaEvent) : (report.after event).request = report.request := by
  obtain ⟨c, reply⟩ := event
  cases c <;> rfl

@[simp] theorem after_upload (report : Report) (event : OtaEvent) : (report.after event).upload = report.upload := by
  obtain ⟨c, reply⟩ := event
  cases c <;> rfl

/-- The request that the server has handed to a handler after an action. -/
def requestAfter (request : Option HttpdReq) : OtaAction → Option HttpdReq
  | .request _ req => some req
  | _ => request

section Step

variable {pendingVerify : Bool} {request : Option HttpdReq} {history : List OtaStep} {s : OtaStack}

theorem Reporting.handler_elsewhere (reporting : Reporting pendingVerify request history s) {entry : OtaStep}
    (other : ∀ uri, entry.party ≠ .httpd uri) (silent : validates entry.event = false) :
    ∀ serving, s.httpd = some serving → ∃ report, Reports (.httpd serving.uri) report serving.program ∧
      Holds report.facts (factsOf pendingVerify request (history ++ [entry]) (.httpd serving.uri)) ∧
        report.upload = none := by
  intro serving running
  obtain ⟨report, reports, holds, idle⟩ := reporting.handler serving running
  exact ⟨report, reports, holds.other (other serving.uri) (fun _ => silent) (.inl idle), idle⟩

theorem Reporting.worker_elsewhere (reporting : Reporting pendingVerify request history s) {entry : OtaStep}
    (other : entry.party ≠ .worker) :
    ∀ program, s.worker = .serving program → ∃ report, Reports .worker report program ∧
      Holds report.facts (factsOf pendingVerify request (history ++ [entry]) .worker) ∧ report.request = none ∧
        report.pending = none := by
  intro program running
  obtain ⟨report, reports, holds, unasked⟩ := reporting.worker program running
  exact ⟨report, reports, holds.other other (by simp [unasked.2]) (.inr other), unasked⟩

theorem not_validates {c : OtaCall} {reply : c.Reply} (other : c ≠ otaMarkAppValidCancelRollback) :
    validates ⟨c, reply⟩ = false := by
  by_contra marks
  exact other (call_of_validates (Bool.eq_true_of_not_eq_false marks))

/-- A handler that finds no token meets an unfinished upload, or a worker that has not waited yet. -/
theorem missed_of_take {answer uri later} (run : (otaSystem pendingVerify).Exec history s)
    (running : s.httpd = some ⟨uri, .call workerReadyTake later⟩)
    (replied : s.shared.reply answer workerReadyTake = some false) : Uploading history ∨ Unarmed history := by
  obtain ⟨watched, rfl, ran⟩ := watched_of_exec run
  have standing := standing_of_exec ran
  have free : watched.intent.holding = false := (standing.handler _ running).1.1
  have taken : watched.stack.shared.workerReady = false := Option.some.inj replied
  exact (standing.out.resolve_left (by simp [taken])).resolve_left (by simp [free])

/-- A task that finds the restart scheduled follows a decision. -/
theorem decided_of_read {answer} {c : OtaCall} {reply : c.Reply} (run : (otaSystem pendingVerify).Exec history s)
    (replied : s.shared.reply answer c = some reply) (told : (⟨c, reply⟩ : OtaEvent) = ⟨restartScheduledGet, true⟩) :
    Decided history := by
  obtain ⟨debt, owed, followed⟩ := followed_of_exec run
  cases told
  exact followed.account.known (Option.some.inj replied)

/-- What the handler learns from a call is so. -/
theorem Reporting.handles {answer uri c later reply} (run : (otaSystem pendingVerify).Exec history s)
    (reporting : Reporting pendingVerify request history s) (running : s.httpd = some ⟨uri, .call c later⟩)
    (replied : s.shared.reply answer c = some reply) :
    Reporting pendingVerify request (history ++ [⟨.httpd uri, ⟨c, reply⟩⟩])
      { s with shared := s.shared.observe ⟨c, reply⟩, httpd := some ⟨uri, later reply⟩ } := by
  refine ⟨?_, reporting.worker_elsewhere (by simp)⟩
  intro serving same
  cases same
  obtain ⟨report, ⟨allowed, onward⟩, holds, idle⟩ := reporting.handler _ running
  have keeps : c ≠ requestQueueReceive := by
    rintro rfl
    exact allowed
  have learned : Holds (report.after ⟨c, reply⟩).facts
      (factsOf pendingVerify request (history ++ [⟨.httpd uri, ⟨c, reply⟩⟩]) (.httpd uri)) := by
    apply holds.learns _ (decided_of_read run replied) _ keeps
    · intro flag read
      cases read
      rw [← Option.some.inj replied]
      exact pending_iff_awaits run running
    · intro found
      cases found
      exact missed_of_take run running replied
  exact ⟨report.after ⟨c, reply⟩, onward reply, learned, by simpa using idle⟩

/-- What the worker learns from a call is so. -/
theorem Reporting.serves {answer c later reply} (run : (otaSystem pendingVerify).Exec history s)
    (reporting : Reporting pendingVerify request history s) (running : s.worker = .serving (.call c later))
    (replied : s.shared.reply answer c = some reply) :
    Reporting pendingVerify request (history ++ [⟨.worker, ⟨c, reply⟩⟩])
      { s with shared := s.shared.observe ⟨c, reply⟩, worker := .serving (later reply) } := by
  obtain ⟨known, awaiting⟩ := awaiting_since_boot run
  obtain ⟨-, aloof, -⟩ := awaiting.worker _ running
  have unmarked : c ≠ otaMarkAppValidCancelRollback := by
    rintro rfl
    exact aloof trivial
  have silent : c ≠ confirmationPendingGet := by
    rintro rfl
    exact aloof trivial
  refine ⟨reporting.handler_elsewhere (by simp) (not_validates unmarked), ?_⟩
  intro program same
  cases same
  obtain ⟨report, ⟨allowed, onward⟩, holds, unasked⟩ := reporting.worker _ running
  have keeps : c ≠ requestQueueReceive := by
    rintro rfl
    exact allowed
  have learned : Holds (report.after ⟨c, reply⟩).facts
      (factsOf pendingVerify request (history ++ [⟨.worker, ⟨c, reply⟩⟩]) .worker) := by
    apply holds.learns _ (decided_of_read run replied) _ keeps
    · intro flag read
      cases read
      exact absurd rfl silent
    · intro found
      cases found
      obtain ⟨watched, rfl, ran⟩ := watched_of_exec run
      exact ((standing_of_exec ran).worker _ running).1.elim
  exact ⟨report.after ⟨c, reply⟩, onward reply, learned, by simpa using unasked.1,
    (learn_pending silent).trans unasked.2⟩

theorem Reporting.step {action s' events} (run : (otaSystem pendingVerify).Exec history s)
    (reporting : Reporting pendingVerify request history s) (step : OtaTransition s action s' events) :
    Reporting pendingVerify (requestAfter request action) (history ++ events) s' := by
  cases step with
  | @request uri req idle =>
      rw [List.append_nil]
      constructor
      · intro serving started
        cases started
        exact ⟨.handling req, handler_reports req uri, holds_handling req, rfl⟩
      · intro program running
        obtain ⟨report, reports, holds, unasked⟩ := reporting.worker program running
        refine ⟨report, reports, { holds with request := ?_ }, unasked⟩
        intro other same
        cases unasked.1.symm.trans same
  | handled finished =>
      rw [List.append_nil]
      exact ⟨by simp, reporting.worker⟩
  | handles running replied => exact reporting.handles run running replied
  | gives => exact ⟨reporting.handler_elsewhere (by simp) rfl, by simp⟩
  | @receives answer asyncReq waiting queued =>
      refine ⟨reporting.handler_elsewhere (by simp) rfl, ?_⟩
      intro program started
      cases started
      exact ⟨.receiving asyncReq, otaWorkerServe_reports asyncReq, holds_receiving asyncReq, rfl, rfl⟩
  | served finished =>
      rw [List.append_nil]
      exact ⟨reporting.handler, by simp⟩
  | serves running replied => exact reporting.serves run running replied
  | command | expires | returned =>
      rw [List.append_nil]
      exact ⟨reporting.handler, reporting.worker⟩
  | @calls answer c later reply running replied =>
      obtain ⟨known, awaiting⟩ := awaiting_since_boot run
      obtain ⟨inCallback, -⟩ := awaiting.timer _ running
      have unmarked : c ≠ otaMarkAppValidCancelRollback := by
        rintro rfl
        exact inCallback id
      exact ⟨reporting.handler_elsewhere (by simp) (not_validates unmarked), reporting.worker_elsewhere (by simp)⟩

/-- A response says what is so. -/
theorem Reporting.truthful {action s' events} (run : (otaSystem pendingVerify).Exec history s)
    (reporting : Reporting pendingVerify request history s) (step : OtaTransition s action s' events)
    {party status text sent} (member : ⟨party, ⟨respSendstr status text, sent⟩⟩ ∈ events) :
    Says (factsOf pendingVerify request history party) party status text := by
  cases step with
  | handles running =>
      cases List.mem_singleton.mp member
      obtain ⟨report, reports, holds, -⟩ := reporting.handler _ running
      exact Says.mono reports.1 holds
  | serves running =>
      cases List.mem_singleton.mp member
      obtain ⟨report, reports, holds, -⟩ := reporting.worker _ running
      exact Says.mono reports.1 holds
  | calls running =>
      cases List.mem_singleton.mp member
      obtain ⟨known, awaiting⟩ := awaiting_since_boot run
      exact absurd id (awaiting.timer _ running).1
  | gives | receives => cases List.mem_singleton.mp member
  | _ => cases member

end Step

/-- The request that the server has handed to its last handler. -/
def lastRequest (trace : List (OtaAction × List OtaStep)) : Option HttpdReq :=
  trace.foldl (fun request entry => requestAfter request entry.1) none

theorem reporting_of_traced {pendingVerify : Bool} {trace : List (OtaAction × List OtaStep)} {s : OtaStack}
    (run : (otaSystem pendingVerify).traced.Exec trace s) :
    Reporting pendingVerify (lastRequest trace) (trace.flatMap Prod.snd) s := by
  induction run with
  | start first =>
      cases first
      constructor <;> simp [OtaStack.initial]
  | next earlier step ih =>
      obtain ⟨events, taken, rfl⟩ := step
      have kept := ih.step earlier.of_traced (OtaTransition.of_next taken).2
      simpa [lastRequest] using kept

/-- Every response says what is so when it is sent. -/
def Truthful (pendingVerify : Bool) (trace : List (OtaAction × List OtaStep)) : Prop :=
  ∀ before action events after, trace = before ++ (action, events) :: after →
    ∀ party status text sent, ⟨party, ⟨respSendstr status text, sent⟩⟩ ∈ events →
      Says (factsOf pendingVerify (lastRequest before) (before.flatMap Prod.snd) party) party status text

/-- In every interleaving of the tasks each response says what is so when it is sent. -/
theorem responses_truthful {pendingVerify : Bool} {trace : List (OtaAction × List OtaStep)} {s : OtaStack}
    (run : (otaSystem pendingVerify).traced.Exec trace s) : Truthful pendingVerify trace := by
  intro before action events after split
  apply System.Exec.placed (P := fun before entry => ∀ party status text sent,
    ⟨party, ⟨respSendstr status text, sent⟩⟩ ∈ entry.2 →
      Says (factsOf pendingVerify (lastRequest before) (before.flatMap Prod.snd) party) party status text) _ run _ _ _
        split
  intro trace s action s' steps earlier step before entry after split party status text sent member
  obtain ⟨events, taken, rfl⟩ := step
  obtain ⟨rfl, rfl, -⟩ := System.split_singleton split
  rw [List.append_nil]
  exact (reporting_of_traced earlier).truthful earlier.of_traced (OtaTransition.of_next taken).2 member

/-! The pending image is confirmed and an upload accepted; the status page is read before and after. -/

def answeredSchedule : List OtaAction :=
  .worker sampleRequest.succeeds :: .request .status sampleRequest.req ::
    List.replicate 8 (.httpd sampleRequest.succeeds) ++
    .request .confirm sampleRequest.req :: List.replicate 6 (.httpd sampleRequest.succeeds) ++
    .request .flash sampleRequest.req :: List.replicate 9 (.httpd sampleRequest.succeeds) ++
    List.replicate 12 (.worker sampleRequest.succeeds) ++
    .request .status sampleRequest.req :: List.replicate 8 (.httpd sampleRequest.succeeds)

def answeredRun : Option (OtaStack × List OtaStep) := System.replay OtaStack.next (.initial true) answeredSchedule

theorem answeredRun_isSome : answeredRun.isSome = true := by decide +kernel

theorem answeredRun_truthful : ∃ trace, trace.flatMap Prod.snd = (answeredRun.get answeredRun_isSome).2 ∧
    (answeredRun.get answeredRun_isSome).2.any (·.event.call = respSendstr none acceptedText) = true ∧
      Truthful true trace := by
  have run : (otaSystem true).Exec (answeredRun.get answeredRun_isSome).2 (answeredRun.get answeredRun_isSome).1 :=
    System.Exec.of_replay_isSome answeredRun_isSome
  obtain ⟨trace, traced, same⟩ := run.exists_traced
  exact ⟨trace, same, by decide +kernel, responses_truthful traced⟩

end EspGnss.Ota
