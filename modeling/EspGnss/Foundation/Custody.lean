import EspGnss.Foundation.Tasks

/-! # Requests in hand

A server task receives requests. It answers them, or makes copies and puts them into queues,
from which other tasks take them to answer them. Where a request is, and how far the response to
it is, is read off the history: a task may use it only while it holds it.
-/

namespace Foundation

/-- How far the response to a request is. -/
inductive Response where
  | unanswered
  | streaming
  | answered
  deriving DecidableEq, Repr

inductive RequestUse where
  /-- The status and the headers of the response. -/
  | prepare
  /-- The body of the request. -/
  | read
  /-- A part of the body of the response. -/
  | chunk
  /-- The response as a whole. -/
  | whole
  /-- The state of the connection. -/
  | look
  deriving DecidableEq, Repr

namespace Response

/-- The body of a request is read before its response begins, and so are the headers sent;
    nothing follows a whole response. -/
def Permits : Response → RequestUse → Prop
  | unanswered, _ | streaming, .chunk | _, .look => True
  | _, _ => False

def after : Response → RequestUse → Response
  | _, .chunk => streaming
  | _, .whole => answered
  | response, _ => response

variable {response : Response}

@[simp] theorem permits_look : response.Permits .look := by
  cases response <;> trivial

@[simp] theorem after_look : response.after .look = response := by
  cases response <;> rfl

@[simp] theorem permits_chunk : response.Permits .chunk ↔ response ≠ answered := by
  cases response <;> simp [Permits]

@[simp] theorem after_chunk : response.after .chunk = streaming := by
  cases response <;> rfl

end Response

inductive RequestEvent (Queue : Type) where
  | received (request : Nat)
  | copied (original copy : Nat)
  | queued (queue : Queue) (copy : Nat)
  | dequeued (queue : Queue) (copy : Nat)
  | completed (copy : Nat)
  | used (request : Nat) (use : RequestUse)

/-- Where a request or a copy is. -/
inductive Place (Task Queue : Type) where
  | unmade
  | held (holder : Task) (response : Response)
  /-- Its holder has a copy to use instead. -/
  | lent (holder : Task) (copy : Nat)
  | queued (queue : Queue)
  | gone
  deriving DecidableEq

variable {Task Queue : Type} [DecidableEq Task] [DecidableEq Queue]

namespace Place

def owner : Place Task Queue → Option Task
  | held holder _ | lent holder _ => some holder
  | unmade | queued _ | gone => none

def response : Place Task Queue → Response
  | held _ response => response
  | _ => .unanswered

/-- The task lets go of it. -/
def released (t : Task) (place : Place Task Queue) : Place Task Queue := if place.owner = some t then gone else place

end Place

abbrev Places (Task Queue : Type) := Nat → Place Task Queue

namespace Places

def after (places : Places Task Queue) (t : Task) : RequestEvent Queue → Places Task Queue
  | .received request =>
      Function.update (fun other => (places other).released t) request (.held t .unanswered)
  | .copied original copy =>
      Function.update (Function.update places original (.lent t copy)) copy (.held t .unanswered)
  | .queued queue copy => Function.update (fun other => (places other).released t) copy (.queued queue)
  | .dequeued _ copy => Function.update places copy (.held t .unanswered)
  | .completed copy =>
      -- the original can be used again
      Function.update
        (fun other => if places other = .lent t copy then .held t (places copy).response else places other) copy .gone
  | .used request use => Function.update places request (.held t ((places request).response.after use))

/-- What the task may do with requests that are where they are. -/
def Permits (places : Places Task Queue) (t : Task) : RequestEvent Queue → Prop
  -- the request before has been answered, or a copy of it has been queued
  | .received request => places request = .unmade ∧
      ∀ other, (places other).owner = some t → places other = .held t .answered
  | .copied original copy => places copy = .unmade ∧ places original = .held t .unanswered
  | .queued _ copy => places copy = .held t .unanswered
  | .dequeued queue copy => places copy = .queued queue ∧ ∀ other, (places other).owner ≠ some t
  | .completed copy => ∃ response, places copy = .held t response
  | .used request use => ∃ response, places request = .held t response ∧ response.Permits use

end Places

/-- What a task has in its hands. -/
inductive Hand where
  | nothing
  | request (request : Nat) (response : Response)
  | copy (copy original : Nat) (response : Response)

namespace Hand

/-- Where a request is that is in the hands of the task. -/
def place (t : Task) : Hand → Nat → Option (Place Task Queue)
  | nothing, _ => none
  | request mine response, other => if other = mine then some (.held t response) else none
  | copy mine original response, other =>
      if other = mine then some (.held t response) else if other = original then some (.lent t mine) else none

/-- What the task may use. -/
def top : Hand → Option (Nat × Response)
  | nothing => none
  | request mine response | copy mine _ response => some (mine, response)

def Permits (hand : Hand) : RequestEvent Queue → Prop
  | .received _ => hand = nothing ∨ ∃ mine, hand = request mine .answered
  | .copied original _ => hand = request original .unanswered
  | .queued _ mine => hand.top = some (mine, .unanswered)
  | .dequeued _ _ => hand = nothing
  | .completed mine => ∃ response, hand.top = some (mine, response)
  | .used mine use => ∃ response, hand.top = some (mine, response) ∧ response.Permits use

def after : Hand → RequestEvent Queue → Hand
  | _, .received other | _, .dequeued _ other => request other .unanswered
  | _, .copied original other => copy other original .unanswered
  | copy _ original response, .completed _ => request original response
  | _, .queued _ _ | _, .completed _ => nothing
  | request mine response, .used _ use => request mine (response.after use)
  | copy mine original response, .used _ use => copy mine original (response.after use)
  | nothing, .used _ _ => nothing

end Hand

/-- The queues after an event. -/
def RequestEvent.queues (queue : Queue → List Nat) : RequestEvent Queue → Queue → List Nat
  | queued name copy => Function.update queue name (queue name ++ [copy])
  | dequeued name _ => Function.update queue name (queue name).tail
  | _ => queue

/-- What the server and the queues answer: new requests and copies have new numbers, and what is
    taken from a queue is its first element. -/
def RequestEvent.Answers (queue : Queue → List Nat) (next next' : Nat) : RequestEvent Queue → Prop
  | received request => next ≤ request ∧ request < next'
  | copied _ copy => next ≤ copy ∧ copy < next'
  | dequeued name copy => (queue name).head? = some copy
  | _ => True

/-- The hands of the tasks, the queues and the next number agree with where the requests are. -/
structure Places.Agree (places : Places Task Queue) (hands : Task → Hand) (queue : Queue → List Nat) (next : Nat) :
    Prop where
  owns : ∀ t request place, (hands t).place t request = some place ↔ places request = place ∧ place.owner = some t
  apart : ∀ t copy original response, hands t = .copy copy original response → copy ≠ original
  queued : ∀ q request, request ∈ queue q ↔ places request = .queued q
  nodup : ∀ q, (queue q).Nodup
  unmade : ∀ request, next ≤ request → places request = .unmade

namespace Places.Agree

variable {places : Places Task Queue} {hands : Task → Hand} {queue : Queue → List Nat} {next next' : Nat}
  {t : Task} {event : RequestEvent Queue}

omit [DecidableEq Task] [DecidableEq Queue] in
theorem owned (agree : places.Agree hands queue next) {request : Nat} (owned : (places request).owner = some t) :
    (hands t).place t request = some (places request) :=
  (agree.owns t request _).mpr ⟨rfl, owned⟩

omit [DecidableEq Task] [DecidableEq Queue] in
theorem held (agree : places.Agree hands queue next) {request : Nat} {place : Place Task Queue}
    (inHand : (hands t).place t request = some place) : places request = place :=
  ((agree.owns t request place).mp inHand).1

omit [DecidableEq Task] [DecidableEq Queue] in
theorem top (agree : places.Agree hands queue next) {mine : Nat} {response : Response}
    (top : (hands t).top = some (mine, response)) : places mine = .held t response := by
  apply agree.held
  cases about : hands t <;> grind [Hand.top, Hand.place]

omit [DecidableEq Task] [DecidableEq Queue] in
/-- What the hands permit, the places permit. -/
theorem permits (agree : places.Agree hands queue next) (allowed : (hands t).Permits event)
    (answers : event.Answers queue next next') : places.Permits t event := by
  cases event with
  | received request =>
      refine ⟨agree.unmade _ answers.1, ?_⟩
      intro other owned
      have inHand := agree.owned owned
      rcases allowed with nothing | ⟨mine, answered⟩
      · rw [nothing] at inHand
        cases inHand
      · rw [answered] at inHand
        grind [Hand.place]
  | copied original copy =>
      refine ⟨agree.unmade _ answers.1, agree.top (t := t) ?_⟩
      rw [show hands t = _ from allowed]
      rfl
  | queued name copy => exact agree.top allowed
  | dequeued name copy =>
      refine ⟨(agree.queued _ _).mp (List.mem_of_mem_head? answers), ?_⟩
      intro other owned
      have inHand := agree.owned owned
      rw [show hands t = _ from allowed] at inHand
      cases inHand
  | completed copy =>
      obtain ⟨response, top⟩ := allowed
      exact ⟨response, agree.top top⟩
  | used request use =>
      obtain ⟨response, top, permitted⟩ := allowed
      exact ⟨response, agree.top top, permitted⟩

/-- An event of one task leaves what the others own where it is. -/
theorem after_other {other : Task} (apart : other ≠ t) {place : Place Task Queue} (owned : place.owner = some other)
    (permits : places.Permits t event) (request : Nat) :
    places.after t event request = place ↔ places request = place := by
  cases event <;> simp only [Places.after, Function.update_apply] <;>
    grind [Places.Permits, Place.owner, Place.released]

theorem hands_after (agree : places.Agree hands queue next) (allowed : (hands t).Permits event)
    (answers : event.Answers queue next next') (request : Nat) (place : Place Task Queue) :
    ((hands t).after event).place t request = some place ↔
      places.after t event request = place ∧ place.owner = some t := by
  have here := agree.owns t request place
  have lent (copy) := agree.owns t request (.lent t copy)
  have inUse (mine response) (top : (hands t).top = some (mine, response)) := agree.top top
  have apart := agree.apart t
  have permits := agree.permits allowed answers
  revert allowed here lent inUse apart
  cases event <;> cases hands t <;> simp only [Places.after, Function.update_apply] <;>
    grind [Places.Permits, Place.owner, Place.response, Place.released, Hand.Permits, Hand.after, Hand.top, Hand.place]

theorem mem_tail_iff {items : List Nat} (nodup : items.Nodup) {first : Nat} (head : items.head? = some first)
    (item : Nat) : item ∈ items.tail ↔ item ∈ items ∧ item ≠ first := by
  cases items with
  | nil => cases head
  | cons other rest => grind

/-- What one event preserves. -/
theorem after (agree : places.Agree hands queue next) (allowed : (hands t).Permits event)
    (answers : event.Answers queue next next') (later : next ≤ next') :
    (places.after t event).Agree (Function.update hands t ((hands t).after event)) (event.queues queue) next' := by
  have permits := agree.permits allowed answers
  constructor
  · intro other request place
    rcases Decidable.eq_or_ne other t with rfl | apart
    · rw [Function.update_self]
      exact agree.hands_after allowed answers request place
    · rw [Function.update_of_ne apart, agree.owns]
      apply and_congr_left
      intro owned
      exact (after_other apart owned permits request).symm
  · intro other copy original response
    rcases Decidable.eq_or_ne other t with rfl | apart
    · have before := agree.apart other
      rw [Function.update_self]
      revert permits before
      cases event <;> cases hands other <;> grind [Hand.after, Places.Permits]
    · rw [Function.update_of_ne apart]
      exact agree.apart other copy original response
  · intro q request
    have here := agree.queued q request
    have nodup := agree.nodup q
    revert permits
    cases event <;> simp only [Places.after, Function.update_apply, RequestEvent.queues] <;>
      grind [Places.Permits, Place.owner, Place.released, RequestEvent.Answers, mem_tail_iff]
  · intro q
    have here := agree.queued q
    have nodup := agree.nodup q
    revert permits
    cases event <;> simp only [Function.update_apply, RequestEvent.queues] <;> grind [Places.Permits]
  · intro request new
    have unmade := agree.unmade request (Nat.le_trans later new)
    revert permits
    cases event <;> simp only [Places.after, Function.update_apply] <;>
      grind [Places.Permits, Place.owner, Place.released, RequestEvent.Answers]

end Places.Agree

def RequestEvent.Names (request : Nat) : RequestEvent Queue → Prop
  | received other | queued _ other | dequeued _ other | completed other | used other _ => other = request
  | copied original copy => original = request ∨ copy = request

/-- Whether more is sent or read for a request. -/
def RequestEvent.Works (request : Nat) : RequestEvent Queue → Prop
  | used other use => other = request ∧ use ≠ .look
  | _ => False

def Place.Closed (place : Place Task Queue) : Prop := place = .gone ∨ ∃ t, place = .held t .answered

namespace Places

variable {places : Places Task Queue} {t : Task} {event : RequestEvent Queue} {request : Nat}

theorem gone_stays (permits : places.Permits t event) (gone : places request = .gone) :
    places.after t event request = .gone ∧ ¬event.Names request := by
  cases event <;> simp only [Places.after, Function.update_apply, RequestEvent.Names] <;>
    grind [Places.Permits, Place.owner, Place.released]

theorem closed_stays (permits : places.Permits t event) (closed : (places request).Closed) :
    (places.after t event request).Closed ∧ ¬event.Works request := by
  cases event <;> simp only [Places.after, Function.update_apply, RequestEvent.Works] <;>
    grind [Places.Permits, Place.owner, Place.released, Place.Closed, Place.response, Response.Permits, Response.after]

end Places

/-- Watches the calls of a program that are events of requests. -/
@[simps] def Hand.monitor {Call : Type} {Reply : Call → Type} (view : CallEvent Reply → Option (RequestEvent Queue)) :
    Monitor Reply Hand where
  allows hand c := ∀ reply, ∀ event ∈ view ⟨c, reply⟩, hand.Permits event
  observe hand event := (view event).elim hand hand.after

variable {Call Round Shared : Type} {Reply : Call → Type}

/-- The calls of tasks as events of requests, and what the tasks have in their hands at the start
    of their rounds. -/
structure Custody (tasks : Tasks Task Call Reply Round Shared) (Queue : Type) [DecidableEq Queue] where
  view : CallEvent Reply → Option (RequestEvent Queue)
  next : Shared → Nat
  queue : Shared → Queue → List Nat
  answers : ∀ t shared answer c reply, tasks.reply t shared answer c = some reply →
    ∀ event ∈ view ⟨c, reply⟩, event.Answers (queue shared) (next shared) (next (tasks.observe t shared ⟨c, reply⟩))
  advances : ∀ t shared answer c reply, tasks.reply t shared answer c = some reply →
    next shared ≤ next (tasks.observe t shared ⟨c, reply⟩)
  moves : ∀ t shared answer c reply, tasks.reply t shared answer c = some reply →
    queue (tasks.observe t shared ⟨c, reply⟩) = (view ⟨c, reply⟩).elim (queue shared) (·.queues (queue shared))
  head : Task → Round → Hand → Prop

namespace Custody

variable {tasks : Tasks Task Call Reply Round Shared} (custody : Custody tasks Queue)

/-- Where the requests are after a history. -/
def places (history : List (TaskStep Task Reply)) : Places Task Queue :=
  history.foldl (fun places step => (custody.view step.event).elim places (places.after step.task)) fun _ => .unmade

def outline : Outline Task Reply Round (fun _ => Hand) where
  observe _ := (Hand.monitor custody.view).observe
  allows _ _ := (Hand.monitor custody.view).allows
  head := custody.head

/-- Each task keeps to what it has in its hands, which is nothing at first. -/
structure Obeyed (shared : Shared) (start : Task → Round) : Prop where
  bodies : ∀ t round hand, custody.head t round hand →
    (tasks.body t round).Meets (Hand.monitor custody.view) (fun hand round => custody.head t round hand) hand
  heads : ∀ t, custody.head t (start t) .nothing
  empty : ∀ q, custody.queue shared q = []

variable {custody} {shared : Shared} {start : Task → Round}

theorem agree_of_exec (obeyed : custody.Obeyed shared start) {history s}
    (run : (tasks.system shared start).Exec history s) :
    ∃ hands, (custody.places history).Agree hands (custody.queue s.shared) (custody.next s.shared) ∧
      ∀ t, custody.outline.Keeps t (s.task t) (hands t) := by
  have empty_handed : ∀ t, custody.outline.head t (start t) ((fun _ => Hand.nothing) t) := obeyed.heads
  apply Tasks.invariant_of_outline
    (I := fun history shared hands => (custody.places history).Agree hands (custody.queue shared) (custody.next shared))
    obeyed.bodies empty_handed _ _ run
  · constructor
    · intro t request place
      constructor <;> intro h
      · cases h
      · obtain ⟨rfl, h⟩ := h
        cases h
    · nofun
    · intro q request
      simp [obeyed.empty, places]
    · intro q
      simp [obeyed.empty]
    · intro request _
      rfl
  · intro history shared hands t round c answer reply agree allowed replied
    have advances := custody.advances _ _ _ _ _ replied
    have moves := custody.moves _ _ _ _ _ replied
    have answers := custody.answers _ _ _ _ _ replied
    have observed : (custody.outline.observe t (hands t) ⟨c, reply⟩ : Hand) =
      (custody.view ⟨c, reply⟩).elim (hands t) (hands t).after := rfl
    rw [places, List.foldl_concat, moves, observed]
    change ((custody.view ⟨c, reply⟩).elim (custody.places history) _).Agree _ _ _
    cases seen : custody.view ⟨c, reply⟩ with
    | none =>
        rw [Option.elim_none, Option.elim_none, Option.elim_none, Function.update_eq_self]
        exact { agree with unmade := fun request later => agree.unmade request (Nat.le_trans advances later) }
    | some event => exact agree.after (allowed reply event seen) (answers event seen) advances

variable (custody) in
/-- What happens to a request at any point of the history is permitted where it is. -/
def Lawful (history : List (TaskStep Task Reply)) : Prop :=
  ∀ before step after event, history = before ++ step :: after → custody.view step.event = some event →
    (custody.places before).Permits step.task event

theorem lawful_of_exec (obeyed : custody.Obeyed shared start) {history s}
    (run : (tasks.system shared start).Exec history s) : custody.Lawful history := by
  intro before step after event split seen
  obtain ⟨t, c, reply⟩ := step
  obtain ⟨earlier, answer, later, ran, about, replied⟩ := Tasks.call_in_run tasks run split
  obtain ⟨hands, agree, keeps⟩ := agree_of_exec obeyed ran
  have next := keeps t
  rw [Outline.Keeps, about] at next
  exact agree.permits (next.1 reply event seen) (custody.answers _ _ _ _ _ replied event seen)

/-- What no event leaves that is permitted, a lawful history never leaves. -/
theorem Lawful.never_after {P : Place Task Queue → Prop} {E : RequestEvent Queue → Prop} {request : Nat}
    (stays : ∀ (places : Places Task Queue) t event, places.Permits t event → P (places request) →
      P (places.after t event request) ∧ ¬E event)
    {before after : List (TaskStep Task Reply)} (lawful : custody.Lawful (before ++ after))
    (reached : P (custody.places before request)) :
    ∀ step ∈ after, ∀ event, custody.view step.event = some event → ¬E event := by
  induction after generalizing before with
  | nil => nofun
  | cons step after ih =>
      have here (event) (seen : custody.view step.event = some event) :=
        stays _ _ _ (lawful before step after event rfl seen) reached
      have onward : P (custody.places (before ++ [step]) request) := by
        rw [places, List.foldl_concat]
        change P ((custody.view step.event).elim (custody.places before) _ request)
        cases seen : custody.view step.event with
        | none => exact reached
        | some event => exact (here event seen).1
      have rest : custody.Lawful (before ++ [step] ++ after) := by rwa [List.append_assoc]
      exact List.forall_mem_cons.mpr ⟨fun event seen => (here event seen).2, ih rest onward⟩

theorem places_snoc {before : List (TaskStep Task Reply)} {step event} (seen : custody.view step.event = some event) :
    custody.places (before ++ [step]) = (custody.places before).after step.task event := by
  rw [places, List.foldl_concat, seen]
  rfl

theorem Lawful.finished {before after : List (TaskStep Task Reply)} {step : TaskStep Task Reply} {copy : Nat}
    (lawful : custody.Lawful (before ++ step :: after)) (completed : custody.view step.event = some (.completed copy)) :
    ∀ later ∈ after, ∀ event, custody.view later.event = some event → ¬event.Names copy := by
  have rest : custody.Lawful (before ++ [step] ++ after) := by rwa [List.append_assoc]
  apply rest.never_after (P := (· = .gone)) (fun places t event => Places.gone_stays)
  rw [places_snoc completed]
  simp [Places.after]

theorem Lawful.answered {before after : List (TaskStep Task Reply)} {step : TaskStep Task Reply} {request : Nat}
    (lawful : custody.Lawful (before ++ step :: after))
    (answered : custody.view step.event = some (.used request .whole)) :
    ∀ later ∈ after, ∀ event, custody.view later.event = some event → ¬event.Works request := by
  have rest : custody.Lawful (before ++ [step] ++ after) := by rwa [List.append_assoc]
  apply rest.never_after (P := Place.Closed) (fun places t event => Places.closed_stays)
  rw [places_snoc answered]
  right
  exists step.task
  simp [Places.after, Response.after]

variable (custody) in
/-- What a history guarantees about requests. -/
structure Orderly (history : List (TaskStep Task Reply)) (shared : Shared) : Prop where
  /-- A request is used, copied and passed on only by the task that holds it. -/
  lawful : custody.Lawful history
  /-- Nothing happens to a copy after it has been completed. -/
  finished : ∀ before step after copy, history = before ++ step :: after →
    custody.view step.event = some (.completed copy) →
      ∀ later ∈ after, ∀ event, custody.view later.event = some event → ¬event.Names copy
  /-- Nothing is sent or read after a response has been sent as a whole. -/
  answered : ∀ before step after request, history = before ++ step :: after →
    custody.view step.event = some (.used request .whole) →
      ∀ later ∈ after, ∀ event, custody.view later.event = some event → ¬event.Works request
  waiting : ∀ q request, request ∈ custody.queue shared q ↔ custody.places history request = .queued q

theorem orderly_of_exec (obeyed : custody.Obeyed shared start) {history s}
    (run : (tasks.system shared start).Exec history s) : custody.Orderly history s.shared := by
  have lawful := lawful_of_exec obeyed run
  constructor
  · exact lawful
  · rintro before step after copy rfl completed
    exact lawful.finished completed
  · rintro before step after request rfl answered
    exact lawful.answered answered
  · obtain ⟨hands, agree, -⟩ := agree_of_exec obeyed run
    exact agree.queued

end Custody

end Foundation
