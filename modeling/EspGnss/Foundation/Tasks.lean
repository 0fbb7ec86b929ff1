import EspGnss.Foundation.CallTree
import EspGnss.Foundation.System
import Mathlib.Logic.Function.Basic

/-! # Tasks over a shared state

Tasks run programs round after round: a program ends with the variables of the next
round, which selects the program that follows. Each call is one atomic step on the
shared state, so every interleaving of the tasks is a run.

A proof outline gives each task a ghost state that only its own calls change. A body
that obeys its outline from the start of a round to its end, and an invariant that
every allowed call keeps, hold in every run.
-/

namespace Foundation

/-- What tasks execute and what their calls do. A call whose `reply` is `none` blocks;
    `answer` is what lies outside the shared state. -/
structure Tasks (Task Call : Type) (Reply : Call → Type) (Round Shared : Type) where
  body : Task → Round → CallTree Call Reply Round
  reply : Task → Shared → ((c : Call) → Reply c) → (c : Call) → Option (Reply c)
  observe : Task → Shared → CallEvent Reply → Shared

/-- A task in the middle of a round: the variables that the round started with, and
    what remains of its program. -/
structure RunningTask (Call : Type) (Reply : Call → Type) (Round : Type) where
  round : Round
  program : CallTree Call Reply Round

structure TasksState (Task Call : Type) (Reply : Call → Type) (Round Shared : Type) where
  shared : Shared
  task : Task → RunningTask Call Reply Round

/-- A call of a task, as the history records it. -/
structure TaskStep (Task : Type) {Call : Type} (Reply : Call → Type) where
  task : Task
  event : CallEvent Reply

/-- Ghost states of the tasks: how calls change them, when a task may make a call, and
    what holds at the start of a round. -/
structure Outline (Task : Type) {Call : Type} (Reply : Call → Type) (Round : Type)
    (Ghost : Task → Type) where
  observe : (t : Task) → Ghost t → CallEvent Reply → Ghost t
  allows : (t : Task) → Round → Ghost t → Call → Prop
  head : (t : Task) → Round → Ghost t → Prop

variable {Task Call Round Shared : Type} {Reply : Call → Type} {Ghost : Task → Type}

/-- The monitor of a task in a round. -/
abbrev Outline.monitor (outline : Outline Task Reply Round Ghost) (t : Task) (round : Round) :
    Monitor Reply (Ghost t) where
  allows := outline.allows t round
  observe := outline.observe t

/-- What a task promises for the rest of its round. -/
abbrev Outline.Keeps (outline : Outline Task Reply Round Ghost) (t : Task)
    (running : RunningTask Call Reply Round) (ghost : Ghost t) : Prop :=
  running.program.Meets (outline.monitor t running.round) (fun ghost round => outline.head t round ghost) ghost

namespace Tasks

variable [DecidableEq Task] (tasks : Tasks Task Call Reply Round Shared)

/-- The task at the start of a round. -/
def begin (t : Task) (round : Round) : RunningTask Call Reply Round := ⟨round, tasks.body t round⟩

/-- One step of a task: its next call, or the start of its next round. -/
def next (s : TasksState Task Call Reply Round Shared) (action : Task × ((c : Call) → Reply c)) :
    Option (TasksState Task Call Reply Round Shared × List (TaskStep Task Reply)) :=
  match (s.task action.1).program with
  | .done round =>
      some ({ s with task := Function.update s.task action.1 (tasks.begin action.1 round) }, [])
  | .call c later =>
      (tasks.reply action.1 s.shared action.2 c).map fun reply =>
        ({ shared := tasks.observe action.1 s.shared ⟨c, reply⟩
           task := Function.update s.task action.1 ⟨(s.task action.1).round, later reply⟩ },
          [⟨action.1, ⟨c, reply⟩⟩])

def initial (shared : Shared) (start : Task → Round) : TasksState Task Call Reply Round Shared where
  shared := shared
  task := fun t => tasks.begin t (start t)

def system (shared : Shared) (start : Task → Round) :
    System (TasksState Task Call Reply Round Shared) (Task × ((c : Call) → Reply c))
      (TaskStep Task Reply) :=
  System.ofFunction (tasks.initial shared start) tasks.next

/-- What one step can do. -/
inductive Transition (s : TasksState Task Call Reply Round Shared) (t : Task) :
    TasksState Task Call Reply Round Shared → List (TaskStep Task Reply) → Prop where
  | restart {round} : (s.task t).program = .done round →
      Transition s t { s with task := Function.update s.task t (tasks.begin t round) } []
  | perform {c later answer reply} : (s.task t).program = .call c later →
      tasks.reply t s.shared answer c = some reply →
      Transition s t
        { shared := tasks.observe t s.shared ⟨c, reply⟩
          task := Function.update s.task t ⟨(s.task t).round, later reply⟩ }
        [⟨t, ⟨c, reply⟩⟩]

theorem Transition.of_next {s s' : TasksState Task Call Reply Round Shared}
    {action : Task × ((c : Call) → Reply c)} {events}
    (step : tasks.next s action = some (s', events)) : tasks.Transition s action.1 s' events := by
  unfold next at step
  split at step
  · rename_i finished
    cases step
    exact .restart finished
  · rename_i running
    obtain ⟨reply, replied, same⟩ := Option.map_eq_some_iff.mp step
    cases same
    exact .perform running replied

/-- The shared state after a run that ends with a call is what this call made of it. -/
theorem last_call {shared : Shared} {start : Task → Round} {history t c} {reply : Reply c} {s}
    (run : (tasks.system shared start).Exec (history ++ [⟨t, ⟨c, reply⟩⟩]) s) :
    ∃ before answer, tasks.reply t before answer c = some reply ∧
      s.shared = tasks.observe t before ⟨c, reply⟩ := by
  generalize whole : history ++ [⟨t, ⟨c, reply⟩⟩] = events at run
  induction run generalizing history with
  | start first => simp at whole
  | @next earlier s action s' events run step ih =>
      cases Transition.of_next tasks step with
      | restart finished =>
          rw [List.append_nil] at whole
          exact ih whole
      | @perform c' later answer reply' running replied =>
          obtain ⟨-, last⟩ := List.append_inj' whole rfl
          cases last
          exact ⟨s.shared, answer, replied, rfl⟩

/-- A call of a run was answered in a state that the run had reached before it. -/
theorem call_in_run {shared : Shared} {start : Task → Round} {history s}
    (run : (tasks.system shared start).Exec history s) {before t c after} {reply : Reply c}
    (split : history = before ++ ⟨t, ⟨c, reply⟩⟩ :: after) :
    ∃ earlier answer later, (tasks.system shared start).Exec before earlier ∧
      (earlier.task t).program = .call c later ∧ tasks.reply t earlier.shared answer c = some reply := by
  apply System.Exec.placed (P := fun before step => ∃ earlier answer later,
    (tasks.system shared start).Exec before earlier ∧
      (earlier.task step.task).program = .call step.event.call later ∧
        tasks.reply step.task earlier.shared answer step.event.call = some step.event.reply) _ run before _ after split
  intro history s action s' events earlier step first e rest same
  cases Transition.of_next tasks step with
  | restart => cases first <;> cases same
  | @perform c' later answer reply' running replied =>
      obtain ⟨rfl, rfl, rfl⟩ := System.split_singleton same
      rw [List.append_nil]
      exact ⟨s, answer, later, earlier, running, replied⟩

section Rule

variable {tasks} {outline : Outline Task Reply Round Ghost} {shared : Shared} {start : Task → Round}
  {I : List (TaskStep Task Reply) → Shared → ((t : Task) → Ghost t) → Prop}

/-- In every run each task is in the middle of keeping its outline, and the invariant
    that every allowed call keeps holds. -/
theorem invariant_of_outline {ghosts : (t : Task) → Ghost t}
    (bodies : ∀ t round ghost, outline.head t round ghost →
      outline.Keeps t (tasks.begin t round) ghost)
    (heads : ∀ t, outline.head t (start t) (ghosts t)) (initially : I [] shared ghosts)
    (kept : ∀ history shared ghosts t round c answer reply, I history shared ghosts →
      outline.allows t round (ghosts t) c → tasks.reply t shared answer c = some reply →
      I (history ++ [⟨t, ⟨c, reply⟩⟩]) (tasks.observe t shared ⟨c, reply⟩)
        (Function.update ghosts t (outline.observe t (ghosts t) ⟨c, reply⟩)))
    {history s} (run : (tasks.system shared start).Exec history s) :
    ∃ ghosts, I history s.shared ghosts ∧ ∀ t, outline.Keeps t (s.task t) (ghosts t) := by
  refine System.Exec.invariant
    (I := fun history s => ∃ ghosts, I history s.shared ghosts ∧
      ∀ t, outline.Keeps t (s.task t) (ghosts t))
    (fun s first => ?_) (fun history s action s' events _ invariant step => ?_) run
  · cases first
    exact ⟨ghosts, initially, fun t => bodies t _ _ (heads t)⟩
  · obtain ⟨ghosts, invariant, keeps⟩ := invariant
    cases Transition.of_next tasks step with
    | restart finished =>
        refine ⟨ghosts, by rwa [List.append_nil], fun t => ?_⟩
        have head : outline.Keeps action.1 (s.task action.1) (ghosts action.1) := keeps action.1
        rw [Outline.Keeps, finished] at head
        rcases Decidable.eq_or_ne t action.1 with rfl | other
        · simpa using bodies _ _ _ head
        · simpa [other] using keeps t
    | perform running replied =>
        have next : outline.Keeps action.1 (s.task action.1) (ghosts action.1) := keeps action.1
        rw [Outline.Keeps, running] at next
        refine ⟨_, kept _ _ _ _ _ _ _ _ invariant next.1 replied, fun t => ?_⟩
        rcases Decidable.eq_or_ne t action.1 with rfl | other
        · simpa using next.2 _
        · simpa [other] using keeps t

end Rule

end Tasks

end Foundation
