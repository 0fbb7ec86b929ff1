import EspGnss.Foundation.QueueSet
import EspGnss.Foundation.Tasks

/-! # A bounded queue between tasks

Items are sent without waiting, so that a full queue refuses them. However the tasks
interleave, what has been received and what waits are the accepted items in their order,
and an item is refused only while the queue is full of accepted ones.
-/

namespace Foundation

/-- What happens at a queue. -/
inductive MailEvent (Item : Type) where
  | sent (item : Item) (ok : Bool)
  | received (item : Item)

namespace MailEvent

variable {Item : Type}

def send? : MailEvent Item → Option (Item × Bool)
  | sent item ok => some (item, ok)
  | received _ => none

def received? : MailEvent Item → Option Item
  | sent _ _ => none
  | received item => some item

end MailEvent

variable {Item : Type} {capacity : Nat}

/-- What an event, if it is one of the queue, makes of it. -/
inductive MailEvent.Moves (before : BoundedQueue Item capacity) :
    Option (MailEvent Item) → BoundedQueue Item capacity → Prop where
  | accept {item after} : before.send item = some after → Moves before (some (.sent item true)) after
  | refuse {item} : before.send item = none → Moves before (some (.sent item false)) before
  | receive {item after} : before.receive = some (item, after) → Moves before (some (.received item)) after
  | other : Moves before none before

variable {Task Call Round Shared : Type} {Reply : Call → Type}

/-- A queue in the shared state of tasks, and the calls that are its events. -/
structure Mailbox (tasks : Tasks Task Call Reply Round Shared) (Item : Type) (capacity : Nat) where
  queue : Shared → BoundedQueue Item capacity
  view : CallEvent Reply → Option (MailEvent Item)
  moves : ∀ t shared answer c reply, tasks.reply t shared answer c = some reply →
    MailEvent.Moves (queue shared) (view ⟨c, reply⟩) (queue (tasks.observe t shared ⟨c, reply⟩))

namespace Mailbox

variable {tasks : Tasks Task Call Reply Round Shared} (mailbox : Mailbox tasks Item capacity)
  (history : List (TaskStep Task Reply))

/-- The items that tasks have sent, with the outcomes. -/
def sends : List (Item × Bool) := history.filterMap fun step => (mailbox.view step.event).bind MailEvent.send?

def accepted : List Item := ((mailbox.sends history).filter (·.2)).map (·.1)

def received : List Item := history.filterMap fun step => (mailbox.view step.event).bind MailEvent.received?

section Snoc

variable (step : TaskStep Task Reply)

theorem sends_snoc :
    mailbox.sends (history ++ [step]) =
      mailbox.sends history ++ ((mailbox.view step.event).bind MailEvent.send?).toList := by
  rw [sends, List.filterMap_append, List.filterMap_cons, List.filterMap_nil]
  cases (mailbox.view step.event).bind MailEvent.send? <;> rfl

theorem received_snoc :
    mailbox.received (history ++ [step]) =
      mailbox.received history ++ ((mailbox.view step.event).bind MailEvent.received?).toList := by
  rw [received, List.filterMap_append, List.filterMap_cons, List.filterMap_nil]
  cases (mailbox.view step.event).bind MailEvent.received? <;> rfl

end Snoc

variable {history} [DecidableEq Task] {shared : Shared} {start : Task → Round}

/-- What has been received and what waits are the accepted items in their order. -/
theorem accepted_of_exec (empty : (mailbox.queue shared).items = []) {s}
    (run : (tasks.system shared start).Exec history s) :
    mailbox.accepted history = mailbox.received history ++ (mailbox.queue s.shared).items := by
  induction run with
  | start first =>
      cases first
      exact empty.symm
  | @next history s action s' events _ step ih =>
      cases Tasks.Transition.of_next tasks step with
      | restart => rwa [List.append_nil]
      | @perform c later answer reply _ replied =>
          have moved := mailbox.moves _ _ _ _ _ replied
          rw [accepted, sends_snoc, List.filter_append, List.map_append, received_snoc]
          change mailbox.accepted history ++ _ = _
          rw [ih]
          dsimp only
          generalize mailbox.view ⟨c, reply⟩ = event at moved
          generalize mailbox.queue (tasks.observe action.1 s.shared ⟨c, reply⟩) = after at moved
          cases moved with
          | accept sent => simp [MailEvent.send?, MailEvent.received?, (BoundedQueue.send_eq_some sent).2]
          | refuse => simp [MailEvent.send?, MailEvent.received?]
          | receive taken =>
              simp [MailEvent.send?, MailEvent.received?, BoundedQueue.receive_eq_some taken]
          | other => simp

/-- An item is refused exactly while `capacity` accepted ones wait. -/
theorem refused_iff_of_exec (empty : (mailbox.queue shared).items = []) {s}
    (run : (tasks.system shared start).Exec history s) {before step after item ok}
    (split : history = before ++ step :: after) (sent : mailbox.view step.event = some (.sent item ok)) :
    ok = false ↔ (mailbox.accepted before).length = (mailbox.received before).length + capacity := by
  obtain ⟨t, c, reply⟩ := step
  obtain ⟨earlier, answer, later, ran, -, replied⟩ := Tasks.call_in_run tasks run split
  have moved := mailbox.moves _ _ _ _ _ replied
  rw [sent] at moved
  generalize mailbox.queue (tasks.observe t earlier.shared ⟨c, reply⟩) = after at moved
  rw [mailbox.accepted_of_exec empty ran, List.length_append]
  cases moved with
  | refuse full => simp [BoundedQueue.send_eq_none full]
  | accept added =>
      have room := (BoundedQueue.send_eq_some added).1
      simp
      omega

end Mailbox

end Foundation
