import EspGnss.Log.Tail
import EspGnss.Log.Wakeup

/-! # What a `/log` response contains

Every chunk that the worker sends is a segment of the log, and it skips only what has
been overwritten.
-/

namespace EspGnss.Log

open Foundation LogCall

/-- What `log_capture_vprintf` takes from a formatted line. -/
def LineReply.captured (reply : LineReply) : List UInt8 :=
  reply.line.toList.take (min reply.formatted.toNat (logLineMaxLen - 1))

/-- A chunk with the number of bytes that had been logged when it was copied. -/
structure SentChunk where
  total : Nat
  chunk : List UInt8
  deriving DecidableEq, Repr

/-- What each task has formatted last, all that has been logged, how much that was when
    the worker last copied, and the chunks that have been sent to the last client. -/
structure LogResponse where
  formatted : LogTask → LineReply
  logged : List UInt8
  total : Nat
  sent : List SentChunk

namespace LogResponse

def initial (early : List (List UInt8)) : LogResponse where
  formatted _ := ⟨0, .replicate _ 0⟩
  logged := early.flatten
  total := 0
  sent := []

def after (r : LogResponse) (step : LogStep) : LogResponse :=
  match step.event with
  | ⟨vsnprintf, formatted⟩ => { r with formatted := Function.update r.formatted step.task formatted }
  | ⟨ringAppend _, _⟩ => { r with logged := r.logged ++ (r.formatted step.task).captured }
  | ⟨requestQueueReceive, _⟩ => { r with sent := [] }
  | ⟨ringCopy _, _⟩ => { r with total := r.logged.length }
  | ⟨respSendChunk _ chunk, _⟩ => { r with sent := r.sent ++ [⟨r.total, chunk⟩] }
  | _ => r

end LogResponse

/-- What a run has logged and sent, when the lines `early` were captured before it. -/
def response (early : List (List UInt8)) (history : List LogStep) : LogResponse :=
  history.foldl LogResponse.after (.initial early)

/-- The bytes of the log from `start` to `stop`, copied when there were `total`. -/
structure Segment where
  start : Nat
  stop : Nat
  total : Nat
  deriving DecidableEq, Repr

/-- The second segment starts where the first ended, or where the ring buffer began when
    more had been logged than it holds. -/
def Segment.Continues (first second : Segment) : Prop :=
  second.start = first.stop ∨
    first.stop + logRingBufferSize < second.total ∧ second.start + logRingBufferSize = second.total

/-- The chunks of a response are segments of the log, each continuing the one before. -/
structure TailKept (r : LogResponse) (segments : List Segment) : Prop where
  sent : r.sent = segments.map fun segment =>
    ⟨segment.total, r.logged.extract segment.start segment.stop⟩
  inside : ∀ segment ∈ segments,
    segment.start < segment.stop ∧ segment.stop ≤ segment.total ∧ segment.total ≤ r.logged.length
  continues : segments.IsChain Segment.Continues

/-- Where the worker is in the log: it has copied what comes next, or is about to. -/
structure Position (r : LogResponse) (segments : List Segment) (copied : RingCopy) (position : Nat) : Prop where
  lastSent : copied.lastSent = .ofNat position
  chunk : copied.chunk = r.logged.extract position (position + copied.chunk.length)
  inside : position + copied.chunk.length ≤ r.logged.length
  recent : copied.chunk ≠ [] ∨ segments ≠ [] →
    position + copied.chunk.length ≤ r.total ∧ r.total ≤ position + logRingBufferSize
  next : ∀ last ∈ segments.getLast?,
    last.Continues ⟨position, position + copied.chunk.length, r.total⟩ ∧
      (copied.chunk = [] → position = last.stop)

/-- What the worker has sent and copied is part of the log. -/
def Reads (r : LogResponse) (copied : RingCopy) : Prop :=
  r.total ≤ r.logged.length ∧
    ∃ segments, TailKept r segments ∧ ∃ position, Position r segments copied position

namespace Reads

variable {r : LogResponse} {copied : RingCopy}

theorem format (reads : Reads r copied) (formatted : LogTask → LineReply) :
    Reads { r with formatted := formatted } copied := by
  obtain ⟨total, segments, kept, position, place⟩ := reads
  exact ⟨total, segments, { kept with }, position, { place with }⟩

theorem append (reads : Reads r copied) (line : List UInt8) :
    Reads { r with logged := r.logged ++ line } copied := by
  obtain ⟨total, segments, kept, position, place⟩ := reads
  have longer : r.logged.length ≤ (r.logged ++ line).length := by simp
  refine ⟨Nat.le_trans total longer, segments, ⟨?_, ?_, kept.continues⟩, position,
    { place with chunk := ?_, inside := Nat.le_trans place.inside longer }⟩
  · rw [kept.sent]
    apply List.map_congr_left
    intro segment member
    have inside := kept.inside segment member
    rw [extract_append (Nat.le_trans inside.2.1 inside.2.2)]
  · intro segment member
    have inside := kept.inside segment member
    exact ⟨inside.1, inside.2.1, Nat.le_trans inside.2.2 longer⟩
  · change copied.chunk = (r.logged ++ line).extract _ _
    rw [extract_append place.inside]
    exact place.chunk

/-- A new client has been sent nothing. -/
theorem receive (reads : Reads r copied) : Reads { r with sent := [] } copied := by
  obtain ⟨total, segments, -, position, place⟩ := reads
  refine ⟨total, [], ⟨rfl, by simp, .nil⟩, position, { place with recent := ?_, next := by simp }⟩
  simpa using fun some => place.recent (.inl some)

theorem oldest {ring : LogRing} (reads : Reads r copied) (represents : ring.Represents r.logged)
    (fresh : r.sent = []) : Reads r ⟨ring.oldest, []⟩ := by
  obtain ⟨total, -⟩ := reads
  obtain ⟨position, inside, oldest⟩ := represents.oldest
  refine ⟨total, [], ⟨fresh, by simp, .nil⟩, position, oldest, by simp, by simpa using inside, by simp, by simp⟩

theorem copy {ring : LogRing} {lastSent : UInt32} (reads : Reads r ⟨lastSent, []⟩)
    (represents : ring.Represents r.logged)
    (inTime : r.sent ≠ [] → r.logged.length < r.total + (2 ^ 32 - logRingBufferSize)) :
    Reads { r with total := r.logged.length } (ring.copy lastSent) := by
  have size : logRingBufferSize = 4096 := rfl
  obtain ⟨total, segments, kept, position, place⟩ := reads
  obtain rfl := place.lastSent
  obtain ⟨start, found⟩ := represents.copy (Nat.le_of_add_right_le place.inside)
  refine ⟨Nat.le_refl _, segments, ⟨kept.sent, ?_, kept.continues⟩, start,
    found.lastSent, found.chunk, found.inside, fun _ => ⟨found.inside, found.recent⟩, ?_⟩
  · intro segment member
    exact kept.inside segment member
  · -- the client was not more than a round of the counter behind
    intro last member
    have some : segments ≠ [] := List.ne_nil_of_mem (List.mem_of_getLast? member)
    have more := inTime (by simpa [kept.sent] using some)
    have upTo : position = last.stop := (place.next last member).2 rfl
    have recent : r.total ≤ position + logRingBufferSize := (place.recent (.inr some)).2
    have skips := found.skips (by omega)
    constructor
    · rcases skips with same | overwritten
      · exact .inl (same.trans upTo)
      · exact .inr (upTo ▸ overwritten)
    · intro nothing
      have done := found.nothing nothing
      omega

theorem send (reads : Reads r copied) (some : copied.chunk ≠ []) :
    Reads { r with sent := r.sent ++ [⟨r.total, copied.chunk⟩] }
      ⟨copied.lastSent + .ofNat copied.chunk.length, []⟩ := by
  obtain ⟨total, segments, kept, position, place⟩ := reads
  have recent := place.recent (.inl some)
  have long := List.length_pos_iff.mpr some
  have rest : r.total ≤ position + copied.chunk.length + logRingBufferSize := by omega
  refine ⟨total, segments ++ [⟨position, position + copied.chunk.length, r.total⟩], ⟨?_, ?_, ?_⟩,
    position + copied.chunk.length, ?_, by simp, by simpa using place.inside, fun _ => ⟨recent.1, rest⟩, ?_⟩
  · rw [kept.sent, List.map_append, List.map_singleton, ← place.chunk]
  · have new : position < position + copied.chunk.length := Nat.lt_add_of_pos_right long
    exact List.forall_mem_append.mpr
      ⟨kept.inside, List.forall_mem_singleton.mpr ⟨new, recent.1, total⟩⟩
  · apply kept.continues.append (.singleton _)
    intro last member second only
    cases only
    exact (place.next last member).1
  · rw [place.lastSent, UInt32.ofNat_add]
  · intro last member
    rw [List.getLast?_concat] at member
    cases member
    exact ⟨.inl rfl, fun _ => rfl⟩

end Reads

/-- What a task has formatted last, whether the client of the worker has been sent
    nothing, and `last_sent` of the worker with the chunk that it has still to send. -/
structure TailGhost where
  formatted : LineReply
  fresh : Bool
  copied : RingCopy

@[simps] def tailMonitor (t : LogTask) : Monitor LogCall.Reply TailGhost where
  allows ghost c := t.makes c ∧ match c with
    | ringAppend line => line = ghost.formatted.captured
    | ringOldest => ghost.fresh = true
    | ringCopy lastSent => ghost.copied = ⟨lastSent, []⟩
    | respSendChunk _ chunk => ghost.copied.chunk = chunk ∧ chunk ≠ []
    | _ => True
  observe ghost
    | ⟨vsnprintf, formatted⟩ => { ghost with formatted := formatted }
    | ⟨requestQueueReceive, _⟩ => { ghost with fresh := true }
    | ⟨ringOldest, oldest⟩ => { ghost with copied := ⟨oldest, []⟩ }
    | ⟨ringCopy _, copied⟩ => { ghost with copied := copied }
    | ⟨respSendChunk _ chunk, _⟩ =>
        { ghost with fresh := false, copied := ⟨ghost.copied.lastSent + .ofNat chunk.length, []⟩ }
    | _ => ghost

/-- The loop of `log_response_send` starts with the variable `last_sent`. -/
def TailHead (t : LogTask) (round : LogRound) (ghost : TailGhost) : Prop :=
  t.runs round ∧ ∀ asyncReq lastSent, round = .sending asyncReq lastSent → ghost.copied = ⟨lastSent, []⟩

@[simp] theorem tailHead_ready {ghost : TailGhost} : TailHead .worker .ready ghost := ⟨rfl, by simp⟩

@[simp] theorem tailHead_httpd {ghost : TailGhost} : TailHead .httpd .httpd ghost := ⟨rfl, by simp⟩

@[simp] theorem tailHead_sending {asyncReq : LogAsyncRequest} {lastSent : UInt32} {ghost : TailGhost} :
    TailHead .worker (.sending asyncReq lastSent) ghost ↔ ghost.copied = ⟨lastSent, []⟩ := by
  simp [TailHead]

theorem logCaptureVprintf_tails {t : LogTask} {ghost : TailGhost} {post : TailGhost → Int → Prop}
    (made : ∀ c, captures c = true → t.makes c = true)
    (ends : ∀ formatted result, post { ghost with formatted := formatted } result) :
    logCaptureVprintf.Meets (tailMonitor t) post ghost := by
  have formats := made vsnprintf rfl
  have appends (line : List UInt8) := made (ringAppend line) rfl
  have finds := made workerHandle rfl
  have notifies := made notifyGive rfl
  have forwards := made previousVprintf rfl
  simp [logCaptureVprintf, formats, appends, finds, notifies, forwards, ends, LineReply.captured]

theorem espLog_tails {ghost : TailGhost} {post : TailGhost → Unit → Prop}
    (ends : ∀ formatted, post { ghost with formatted := formatted } ()) :
    espLog.Meets (tailMonitor .worker) post ghost := by
  have captured : logCaptureVprintf.Meets (tailMonitor .worker) (fun ghost _ => post ghost ()) ghost :=
    logCaptureVprintf_tails (fun c made => by simp [LogTask.makes, made]) (fun formatted _ => ends formatted)
  have skipped : post ghost () := ends ghost.formatted
  simp [espLog, LogTask.makes, captured, skipped]

theorem readyRound_tails {ghost : TailGhost} :
    readyRound.Meets (tailMonitor .worker) (fun ghost round => TailHead .worker round ghost) ghost := by
  simp [readyRound, LogTask.makes]
  intro received
  cases received with
  | none => simp
  | some asyncReq =>
      simp only [CallTree.meets_bind]
      apply espLog_tails
      simp [LogTask.makes]

theorem logFinish_tails (asyncReq : LogAsyncRequest) {ghost : TailGhost} :
    (logFinish asyncReq).Meets (tailMonitor .worker) (fun ghost round => TailHead .worker round ghost) ghost := by
  rw [logFinish, CallTree.meets_bind]
  apply espLog_tails
  intro formatted
  simp [LogTask.makes]
  intro completed failed
  exact espLog_tails fun _ => trivial

theorem sendingRound_tails (asyncReq : LogAsyncRequest) {lastSent : UInt32} {ghost : TailGhost}
    (head : ghost.copied = ⟨lastSent, []⟩) :
    (sendingRound asyncReq lastSent).Meets (tailMonitor .worker)
      (fun ghost round => TailHead .worker round ghost) ghost := by
  have finishes (ghost : TailGhost) := @logFinish_tails asyncReq ghost
  simp [sendingRound, logClientIsConnected, LogTask.makes, head]
  intro copied
  obtain ⟨position, chunk⟩ := copied
  by_cases nothing : chunk = []
  · simp [nothing, finishes]
  · have some : 0 < chunk.length := List.length_pos_iff.mpr nothing
    simp [nothing, some, finishes]

theorem round_tails {t : LogTask} {round : LogRound} {ghost : TailGhost} (head : TailHead t round ghost) :
    round.program.Meets (tailMonitor t) (fun ghost round => TailHead t round ghost) ghost := by
  obtain ⟨runs, sends⟩ := head
  cases t with
  | worker =>
      cases round with
      | ready => exact readyRound_tails
      | sending asyncReq lastSent => exact sendingRound_tails asyncReq (sends asyncReq lastSent rfl)
      | httpd | logging => cases runs
  | logger index =>
      cases round with
      | logging =>
          rw [LogRound.program, loggingRound, CallTree.meets_bind]
          exact logCaptureVprintf_tails (fun c made => made) (fun formatted _ => ⟨rfl, by simp⟩)
      | httpd | ready | sending => cases runs
  | httpd =>
      cases round with
      | httpd => simp [LogRound.program, httpdRound, logGetHandler, logRequestQueue, LogTask.makes]
      | ready | sending | logging => cases runs

def Copies (step : LogStep) : Prop := ∃ lastSent, step.event.call = ringCopy lastSent

/-- Fewer than 2^32 - 4096 bytes are logged from one copy to the next. -/
def CopiesInTime (early : List (List UInt8)) (history : List LogStep) : Prop :=
  ∀ before step after, history = before ++ step :: after → Copies step →
    (∃ earlier ∈ before, Copies earlier) →
      (response early before).logged.length < (response early before).total + (2 ^ 32 - logRingBufferSize)

theorem CopiesInTime.of_append {early : List (List UInt8)} {history more : List LogStep}
    (inTime : CopiesInTime early (history ++ more)) : CopiesInTime early history := by
  intro before step after split
  exact inTime before step (after ++ more) (by simp [split])

theorem response_snoc (early : List (List UInt8)) (history : List LogStep) (step : LogStep) :
    response early (history ++ [step]) = (response early history).after step := by
  rw [response, List.foldl_append]
  rfl

section Formatted

variable {ghosts : LogTask → TailGhost} {formatted : LogTask → LineReply} {t : LogTask}

theorem formatted_update (same : ∀ t, (ghosts t).formatted = formatted t) (line : LineReply) (other : LogTask) :
    (Function.update ghosts t { ghosts t with formatted := line } other).formatted =
      Function.update formatted t line other := by
  rcases Decidable.eq_or_ne other t with rfl | apart
  · rw [Function.update_self, Function.update_self]
  · rw [Function.update_of_ne apart, Function.update_of_ne apart, same other]

theorem formatted_kept {ghost : TailGhost} (same : ∀ t, (ghosts t).formatted = formatted t)
    (kept : ghost.formatted = (ghosts t).formatted) (other : LogTask) :
    (Function.update ghosts t ghost other).formatted = formatted other := by
  rcases Decidable.eq_or_ne other t with rfl | apart
  · rw [Function.update_self, kept, same other]
  · rw [Function.update_of_ne apart, same other]

end Formatted

/-- The ghost states describe what has been logged and sent. -/
structure Tailing (history : List LogStep) (r : LogResponse) (ring : LogRing)
    (ghosts : LogTask → TailGhost) : Prop where
  represents : ring.Represents r.logged
  formatted : ∀ t, (ghosts t).formatted = r.formatted t
  fresh : (ghosts .worker).fresh = true → r.sent = []
  reads : Reads r (ghosts .worker).copied
  copied : (ghosts .worker).copied.chunk ≠ [] ∨ r.sent ≠ [] → ∃ step ∈ history, Copies step

namespace Tailing

variable {history : List LogStep} {r r' : LogResponse} {ring : LogRing} {ghosts : LogTask → TailGhost}

theorem later (tailing : Tailing history r ring ghosts) (step : LogStep) :
    Tailing (history ++ [step]) r ring ghosts := by
  refine { tailing with copied := fun some => ?_ }
  obtain ⟨earlier, member, copies⟩ := tailing.copied some
  exact ⟨earlier, List.mem_append_left _ member, copies⟩

theorem format (tailing : Tailing history r ring ghosts) (t : LogTask) (formatted : LineReply) :
    Tailing history { r with formatted := Function.update r.formatted t formatted } ring
      (Function.update ghosts t { ghosts t with formatted := formatted }) := by
  have others : (Function.update ghosts t { ghosts t with formatted := formatted } .worker).fresh =
        (ghosts .worker).fresh ∧
      (Function.update ghosts t { ghosts t with formatted := formatted } .worker).copied =
        (ghosts .worker).copied := by
    rcases Decidable.eq_or_ne .worker t with rfl | other
    · rw [Function.update_self]
      exact ⟨rfl, rfl⟩
    · rw [Function.update_of_ne other]
      exact ⟨rfl, rfl⟩
  refine ⟨tailing.represents, formatted_update tailing.formatted formatted, ?_, ?_, ?_⟩
  · rw [others.1]
    exact tailing.fresh
  · rw [others.2]
    exact tailing.reads.format _
  · rw [others.2]
    exact tailing.copied

theorem append (tailing : Tailing history r ring ghosts) (line : List UInt8) :
    Tailing history { r with logged := r.logged ++ line } (ring.append line) ghosts :=
  { tailing with represents := tailing.represents.append line, reads := tailing.reads.append line }

/-- What the worker does leaves the log as it is. -/
theorem work {ghost : TailGhost} (tailing : Tailing history r ring ghosts)
    (same : ghost.formatted = (ghosts .worker).formatted ∧ r'.formatted = r.formatted ∧ r'.logged = r.logged)
    (fresh : ghost.fresh = true → r'.sent = []) (reads : Reads r' ghost.copied)
    (copied : ghost.copied.chunk ≠ [] ∨ r'.sent ≠ [] → ∃ step ∈ history, Copies step) :
    Tailing history r' ring (Function.update ghosts .worker ghost) := by
  obtain ⟨own, all, logged⟩ := same
  refine ⟨logged ▸ tailing.represents, ?_, by simpa using fresh, by simpa using reads, by simpa using copied⟩
  rw [all]
  exact formatted_kept tailing.formatted own

end Tailing

theorem worker_of_makes {t : LogTask} {c : LogCall} (made : t.makes c = true)
    (neither : LogTask.httpd.makes c = false ∧ captures c = false) : t = .worker := by
  cases t with
  | worker => rfl
  | httpd => cases neither.1.symm.trans made
  | logger index => cases neither.2.symm.trans made

/-- What one call does. -/
theorem Tailing.step {early : List (List UInt8)} {history : List LogStep} {shared : LogShared}
    {ghosts : LogTask → TailGhost} {answer : (c : LogCall) → c.Reply} {t : LogTask} {c : LogCall} {reply : c.Reply}
    (tailing : Tailing history (response early history) shared.ring ghosts)
    (allowed : (tailMonitor t).allows (ghosts t) c) (replied : shared.reply answer c = some reply)
    (inTime : CopiesInTime early (history ++ [⟨t, ⟨c, reply⟩⟩])) :
    Tailing (history ++ [⟨t, ⟨c, reply⟩⟩]) ((response early history).after ⟨t, ⟨c, reply⟩⟩)
      (shared.observe ⟨c, reply⟩).ring (Function.update ghosts t ((tailMonitor t).observe (ghosts t) ⟨c, reply⟩)) := by
  obtain ⟨made, rule⟩ := allowed
  have before := tailing.later ⟨t, ⟨c, reply⟩⟩
  have idle : Function.update ghosts t (ghosts t) = ghosts := Function.update_eq_self t ghosts
  cases c with
  | vsnprintf => exact before.format t reply
  | ringAppend line =>
      obtain rfl : line = ((response early history).formatted t).captured := tailing.formatted t ▸ rule
      exact idle.symm ▸ before.append _
  | requestQueueReceive =>
      obtain rfl := worker_of_makes made ⟨rfl, rfl⟩
      refine before.work ⟨rfl, rfl, rfl⟩ (fun _ => rfl) tailing.reads.receive ?_
      intro some
      exact before.copied (some.imp_right (absurd rfl))
  | ringOldest =>
      obtain rfl := worker_of_makes made ⟨rfl, rfl⟩
      obtain rfl := Option.some.inj replied
      refine before.work ⟨rfl, rfl, rfl⟩ tailing.fresh ?_ ?_
      · exact tailing.reads.oldest tailing.represents (tailing.fresh rule)
      · intro some
        exact before.copied (some.imp_left (absurd rfl))
  | ringCopy lastSent =>
      obtain rfl := worker_of_makes made ⟨rfl, rfl⟩
      obtain rfl := Option.some.inj replied
      have reads : Reads (response early history) ⟨lastSent, []⟩ := rule ▸ tailing.reads
      have copies : Copies ⟨.worker, ⟨ringCopy lastSent, shared.ring.copy lastSent⟩⟩ := ⟨lastSent, rfl⟩
      refine before.work ⟨rfl, rfl, rfl⟩ tailing.fresh ?_ ?_
      · apply reads.copy tailing.represents
        intro some
        exact inTime history _ [] rfl copies (tailing.copied (.inr some))
      · intro _
        exact ⟨_, by simp, copies⟩
  | respSendChunk req chunk =>
      obtain rfl := worker_of_makes made ⟨rfl, rfl⟩
      obtain ⟨rfl, some⟩ := rule
      exact before.work ⟨rfl, rfl, rfl⟩ (by simp) (tailing.reads.send some) (fun _ => before.copied (.inl some))
  | requestQueueSend asyncReq =>
      have same : (shared.observe ⟨requestQueueSend asyncReq, reply⟩).ring = shared.ring := by
        cases reply <;> rfl
      exact same.symm ▸ idle.symm ▸ before
  | _ => exact idle.symm ▸ before

def tailOutline : Outline LogTask LogCall.Reply LogRound fun _ => TailGhost where
  observe t := (tailMonitor t).observe
  allows t _ := (tailMonitor t).allows
  head := TailHead

theorem tailing_of_exec {early : List (List UInt8)} {history s} (run : (logSystem early).Exec history s)
    (inTime : CopiesInTime early history) :
    ∃ ghosts, Tailing history (response early history) s.shared.ring ghosts := by
  have initially : Tailing [] (response early []) (LogShared.initial early).ring
      fun _ => ⟨⟨0, .replicate _ 0⟩, false, ⟨0, []⟩⟩ := by
    have nothing : Position (response early []) [] ⟨0, []⟩ 0 := by
      constructor <;> simp
    have represents : (LogShared.initial early).ring.Represents (response early []).logged :=
      LogRing.represents_foldl early LogRing.represents_empty
    refine ⟨represents, fun t => rfl, by simp, ⟨Nat.zero_le _, [], ⟨rfl, by simp, .nil⟩, 0, nothing⟩, ?_⟩
    intro some
    rcases some with chunk | sent
    · exact absurd rfl chunk
    · exact absurd rfl sent
  have heads (t : LogTask) : tailOutline.head t t.start ⟨⟨0, .replicate _ 0⟩, false, ⟨0, []⟩⟩ := by
    constructor
    · cases t <;> rfl
    · intro asyncReq lastSent sends
      cases t <;> cases sends
  obtain ⟨ghosts, tailing, -⟩ := Tasks.invariant_of_outline
    (I := fun history (shared : LogShared) ghosts =>
      CopiesInTime early history → Tailing history (response early history) shared.ring ghosts)
    (fun t round ghost head => round_tails head) heads (fun _ => initially)
    (fun history shared ghosts t round c answer reply tailing allowed replied inTime => by
      rw [response_snoc]
      exact (tailing inTime.of_append).step allowed replied inTime) run
  exact ⟨ghosts, tailing inTime⟩

/-- Every chunk of a response is a segment of the log. It starts where the one before it
    ended, or skips what the ring buffer no longer held. -/
theorem log_tail {early : List (List UInt8)} {history s} (run : (logSystem early).Exec history s)
    (inTime : CopiesInTime early history) : ∃ segments, TailKept (response early history) segments := by
  obtain ⟨ghosts, tailing⟩ := tailing_of_exec run inTime
  obtain ⟨-, segments, kept, -⟩ := tailing.reads
  exact ⟨segments, kept⟩

theorem LogResponse.logged_after (r : LogResponse) (step : LogStep) : r.logged <+: (r.after step).logged := by
  obtain ⟨t, c, reply⟩ := step
  cases c with
  | ringAppend line => exact List.prefix_append _ _
  | _ => exact List.prefix_rfl

theorem copiesInTime_of_short {early : List (List UInt8)} {history : List LogStep}
    (short : (response early history).logged.length < 2 ^ 32 - logRingBufferSize) : CopiesInTime early history := by
  rintro before step after rfl - -
  have longer : (response early before).logged.length ≤ (response early (before ++ step :: after)).logged.length := by
    generalize step :: after = later
    induction later using List.reverseRecOn with
    | nil => simp
    | append_singleton later step ih =>
        rw [← List.append_assoc, response_snoc]
        exact Nat.le_trans ih ((response early (before ++ later)).logged_after step).length_le
  omega

/-! The worker sends the line that it has logged itself and then one of another task. -/

def tailSchedule : List LogTask :=
  .worker :: List.replicate 4 .httpd ++ List.replicate 14 .worker ++ List.replicate 2 (.logger 0) ++
    List.replicate 3 .worker

def tailRun : Option (LogStack × List LogStep) :=
  System.replay logTasks.next (logTasks.initial (.initial []) LogTask.start)
    (tailSchedule.map fun t => (t, LogCall.succeeds))

theorem tailRun_isSome : tailRun.isSome = true := by decide +kernel

theorem log_tail_twice : (response [] (tailRun.get tailRun_isSome).2).sent.map SentChunk.total = [4, 8] ∧
    ∃ segments, TailKept (response [] (tailRun.get tailRun_isSome).2) segments :=
  ⟨by decide +kernel, log_tail (System.Exec.of_replay_isSome tailRun_isSome)
    (copiesInTime_of_short (by decide +kernel))⟩

end EspGnss.Log
