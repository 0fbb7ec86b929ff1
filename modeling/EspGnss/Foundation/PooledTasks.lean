import EspGnss.Foundation.Tasks
import EspGnss.Foundation.WorkerPool

/-! # Pools among tasks

Tasks whose calls operate on a semaphore and a queue use them as a pool if one task is
its handler, some are its workers, and each keeps to what a handler or worker may do.
-/

namespace Foundation

namespace PoolObjects

variable {Item κ : Type} {capacity : Nat} (copyOf : Item → κ)

def contents (objects : PoolObjects Item capacity) : PoolContents κ :=
  ⟨objects.ready, objects.queue.items.map copyOf⟩

@[simp] theorem contents_empty : (empty : PoolObjects Item capacity).contents copyOf = ⟨0, []⟩ := rfl

@[simp] theorem contents_take (objects : PoolObjects Item capacity) (taken : Bool) :
    (objects.take taken).contents copyOf = (objects.contents copyOf).move capacity (.took taken) := rfl

@[simp] theorem contents_give (objects : PoolObjects Item capacity) :
    objects.give.contents copyOf = (objects.contents copyOf).move capacity .gave := rfl

theorem contents_send {objects : PoolObjects Item capacity} {item : Item}
    (room : objects.queue.items.length < capacity) :
    (objects.send item).contents copyOf =
      (objects.contents copyOf).move capacity (.sent (copyOf item) true) := by
  simp [send, contents, PoolContents.move, BoundedQueue.send, room]

theorem contents_receive {objects : PoolObjects Item capacity} {item : Item} {queue}
    (received : objects.queue.receive = some (item, queue)) :
    (objects.contents copyOf).queue.head? = some (copyOf item) ∧
      objects.receive.contents copyOf =
        (objects.contents copyOf).move capacity (.received (copyOf item)) := by
  have items := BoundedQueue.receive_eq_some received
  simp [receive, contents, PoolContents.move, received, items]

end PoolObjects

variable {Task Call Round Shared κ : Type} {Reply : Call → Type} {workers : Nat}

/-- The tasks of a pool, their calls as events of the pool, and what holds at the start
    of their rounds. -/
structure PooledTasks (tasks : Tasks Task Call Reply Round Shared) (workers : Nat) (κ : Type) where
  party : Task → Option (PoolParty workers)
  handler : Task
  worker : Fin workers → Task
  party_handler : ∀ t, party t = some .handler ↔ t = handler
  party_worker : ∀ t index, party t = some (.worker index) ↔ t = worker index
  view : Task → CallEvent Reply → Option (PoolEvent κ)
  contents : Shared → PoolContents κ
  answers : ∀ t shared answer c reply, tasks.reply t shared answer c = some reply →
    ∀ event ∈ view t ⟨c, reply⟩, (contents shared).Answers workers event
  moves : ∀ t shared answer c reply, tasks.reply t shared answer c = some reply →
    contents (tasks.observe t shared ⟨c, reply⟩) =
      (view t ⟨c, reply⟩).elim (contents shared) ((contents shared).move workers)
  handlerHead : Round → Handling κ → Prop
  workerHead : Round → PoolWorker κ → Prop
  otherHead : Task → Round → Prop

namespace PooledTasks

variable {tasks : Tasks Task Call Reply Round Shared} (pooled : PooledTasks tasks workers κ)

/-- The steps of the pool in a history. -/
def steps (history : List (TaskStep Task Reply)) : List (PoolStep workers κ) :=
  history.filterMap fun step =>
    (pooled.party step.task).bind fun party => (pooled.view step.task step.event).map (party, ·)

/-- Every task has the ghost states of both kinds, and uses the one of its own kind. -/
def outline : Outline Task Reply Round (fun _ => Handling κ × PoolWorker κ) where
  observe t ghost event :=
    match pooled.party t, pooled.view t event with
    | some .handler, some event => (ghost.1.after event, ghost.2)
    | some (.worker _), some event => (ghost.1, ghost.2.after event)
    | _, _ => ghost
  allows t _ ghost c := ∀ reply, ∀ event ∈ pooled.view t ⟨c, reply⟩,
    match pooled.party t with
    | some .handler => ghost.1.Permits event
    | some (.worker _) => ghost.2.Permits event
    | none => False
  head t round ghost :=
    match pooled.party t with
    | some .handler => pooled.handlerHead round ghost.1
    | some (.worker _) => pooled.workerHead round ghost.2
    | none => pooled.otherHead t round

/-- What a handler may do, whatever is known of the workers. -/
abbrev handlerMonitor : Monitor Reply (Handling κ) := Handling.monitor (pooled.view pooled.handler)

abbrev workerMonitor (index : Fin workers) : Monitor Reply (PoolWorker κ) :=
  PoolWorker.monitor (pooled.view (pooled.worker index))

/-- The other tasks make no call that is of interest to the pool. -/
abbrev otherMonitor (t : Task) : Monitor Reply Unit :=
  Monitor.calls fun c => ∀ reply, pooled.view t ⟨c, reply⟩ = none

/-- The bodies keep the outline when each task keeps to its own part. -/
theorem keeps_of_parts
    (handler : ∀ round handling, pooled.handlerHead round handling →
      (tasks.body pooled.handler round).Meets pooled.handlerMonitor
        (fun handling round => pooled.handlerHead round handling) handling)
    (worker : ∀ index round worker, pooled.workerHead round worker →
      (tasks.body (pooled.worker index) round).Meets (pooled.workerMonitor index)
        (fun worker round => pooled.workerHead round worker) worker)
    (other : ∀ t, pooled.party t = none → ∀ round, pooled.otherHead t round →
      (tasks.body t round).Meets (pooled.otherMonitor t) (fun _ round => pooled.otherHead t round) ())
    {t : Task} {round : Round} {ghost : Handling κ × PoolWorker κ}
    (head : pooled.outline.head t round ghost) :
    pooled.outline.Keeps t (tasks.begin t round) ghost := by
  cases role : pooled.party t with
  | none =>
      have start : pooled.otherHead t round := by simpa [outline, role] using head
      refine CallTree.Meets.of_part (fun _ => ()) (fun _ c avoided reply event viewed => ?_)
        (fun _ _ => rfl) (fun _ _ ends => by simpa [outline, role] using ends) (other t role round start)
      rw [avoided reply] at viewed
      cases viewed
  | some party =>
      cases party with
      | handler =>
          obtain rfl := (pooled.party_handler t).mp role
          have start : pooled.handlerHead round ghost.1 := by simpa [outline, role] using head
          refine CallTree.Meets.of_part Prod.fst (fun _ c allowed reply event viewed => ?_)
            (fun _ event => ?_) (fun _ _ ends => by simpa [outline, role] using ends)
            (handler round _ start)
          · simpa [role] using allowed reply event viewed
          · cases viewed : pooled.view pooled.handler event <;>
              simp [outline, role, viewed]
      | worker index =>
          obtain rfl := (pooled.party_worker t index).mp role
          have start : pooled.workerHead round ghost.2 := by simpa [outline, role] using head
          refine CallTree.Meets.of_part Prod.snd (fun _ c allowed reply event viewed => ?_)
            (fun _ event => ?_) (fun _ _ ends => by simpa [outline, role] using ends)
            (worker index round _ start)
          · simpa [role] using allowed reply event viewed
          · cases viewed : pooled.view (pooled.worker index) event <;>
              simp [outline, role, viewed]

/-- The pool that the shared state and the ghost states form. -/
def pool (shared : Shared) (ghosts : Task → Handling κ × PoolWorker κ) : Pool workers κ where
  toPoolContents := pooled.contents shared
  handler := (ghosts pooled.handler).1
  worker := fun index => (ghosts (pooled.worker index)).2

theorem handler_ne_worker (index : Fin workers) : pooled.handler ≠ pooled.worker index := by
  intro same
  have first := (pooled.party_handler _).mpr rfl
  have second := (pooled.party_worker _ index).mpr rfl
  rw [same, second] at first
  cases first

theorem worker_injective : Function.Injective pooled.worker := by
  intro index index' same
  have first := (pooled.party_worker _ index).mpr rfl
  have second := (pooled.party_worker _ index').mpr rfl
  rw [same, second] at first
  cases first
  rfl

variable [DecidableEq Task]

theorem pool_handler (shared : Shared) (ghosts : Task → Handling κ × PoolWorker κ)
    (ghost : Handling κ × PoolWorker κ) :
    pooled.pool shared (Function.update ghosts pooled.handler ghost) =
      ⟨pooled.contents shared, ghost.1, (pooled.pool shared ghosts).worker⟩ := by
  have others : (fun index => (Function.update ghosts pooled.handler ghost (pooled.worker index)).2) =
      fun index => (ghosts (pooled.worker index)).2 := by
    funext index
    rw [Function.update_of_ne (pooled.handler_ne_worker index).symm]
  rw [pool, others, Function.update_self]
  rfl

theorem pool_worker (shared : Shared) (ghosts : Task → Handling κ × PoolWorker κ)
    (index : Fin workers) (ghost : Handling κ × PoolWorker κ) :
    pooled.pool shared (Function.update ghosts (pooled.worker index) ghost) =
      ⟨pooled.contents shared, (pooled.pool shared ghosts).handler,
        Function.update (pooled.pool shared ghosts).worker index ghost.2⟩ := by
  have moved : (fun other => (Function.update ghosts (pooled.worker index) ghost (pooled.worker other)).2) =
      Function.update (fun other => (ghosts (pooled.worker other)).2) index ghost.2 := by
    funext other
    rcases Decidable.eq_or_ne other index with rfl | apart
    · rw [Function.update_self, Function.update_self]
    · rw [Function.update_of_ne (pooled.worker_injective.ne apart), Function.update_of_ne apart]
  rw [pool, moved, Function.update_of_ne (pooled.handler_ne_worker index)]
  rfl

/-- Tasks that keep the outline run a pool. -/
theorem runs {shared : Shared} {start : Task → Round}
    (bodies : ∀ t round ghost, pooled.outline.head t round ghost →
      pooled.outline.Keeps t (tasks.begin t round) ghost)
    (heads : ∀ t, pooled.outline.head t (start t) (.nothing, .starting))
    (unused : pooled.contents shared = ⟨0, []⟩) {history s}
    (run : (tasks.system shared start).Exec history s) :
    ∃ ghosts, (poolSystem workers κ).Exec (pooled.steps history) (pooled.pool s.shared ghosts) ∧
      ∀ t, pooled.outline.Keeps t (s.task t) (ghosts t) := by
  refine Tasks.invariant_of_outline
    (I := fun history shared ghosts =>
      (poolSystem workers κ).Exec (pooled.steps history) (pooled.pool shared ghosts))
    bodies heads ?_ ?_ run
  · have empty : pooled.pool shared (fun _ => (.nothing, .starting)) = .initial := by
      rw [pool, unused]
      rfl
    rw [empty]
    exact .start rfl
  · intro history shared ghosts t round c answer reply earlier allowed replied
    have answered := pooled.answers t shared answer c reply replied
    have moved := pooled.moves t shared answer c reply replied
    have permitted := allowed reply
    have recorded : pooled.steps (history ++ [⟨t, ⟨c, reply⟩⟩]) =
        pooled.steps history ++ pooled.steps [⟨t, ⟨c, reply⟩⟩] := List.filterMap_append
    have last : pooled.steps [⟨t, ⟨c, reply⟩⟩] =
        ((pooled.party t).bind fun party => (pooled.view t ⟨c, reply⟩).map (party, ·)).toList := by
      unfold steps
      rw [List.filterMap_cons, List.filterMap_nil]
      split <;> simp_all
    rw [recorded, last]
    cases role : pooled.party t with
    | none =>
        have unviewed : pooled.view t ⟨c, reply⟩ = none := by
          cases viewed : pooled.view t ⟨c, reply⟩ with
          | none => rfl
          | some event => exact (by simpa [role] using permitted event viewed : False).elim
        have same : pooled.outline.observe t (ghosts t) ⟨c, reply⟩ = ghosts t := by simp [outline, role]
        have unmoved : pooled.pool (tasks.observe t shared ⟨c, reply⟩) ghosts = pooled.pool shared ghosts := by
          rw [pool, moved, unviewed]
          rfl
        rw [same, Function.update_eq_self, unmoved]
        simpa using earlier
    | some party =>
        cases party with
        | handler =>
            obtain rfl := (pooled.party_handler t).mp role
            have observed : pooled.outline.observe pooled.handler (ghosts pooled.handler) ⟨c, reply⟩ =
                ((pooled.view pooled.handler ⟨c, reply⟩).elim (ghosts pooled.handler).1
                  (ghosts pooled.handler).1.after, (ghosts pooled.handler).2) := by
              cases viewed : pooled.view pooled.handler ⟨c, reply⟩ <;> simp [outline, viewed, role]
            rw [observed, pool_handler, moved]
            exact handler_exec earlier (fun event viewed => by simpa [role, pool] using permitted event viewed)
              answered
        | worker index =>
            obtain rfl := (pooled.party_worker t index).mp role
            have observed : pooled.outline.observe (pooled.worker index) (ghosts (pooled.worker index))
                ⟨c, reply⟩ = ((ghosts (pooled.worker index)).1,
                  (pooled.view (pooled.worker index) ⟨c, reply⟩).elim (ghosts (pooled.worker index)).2
                    (ghosts (pooled.worker index)).2.after) := by
              cases viewed : pooled.view (pooled.worker index) ⟨c, reply⟩ <;> simp [outline, viewed, role]
            rw [observed, pool_worker, moved]
            exact worker_exec earlier index (fun event viewed => by simpa [role, pool] using permitted event viewed)
              answered

/-- The state of the pool that a run has reached. -/
structure Serves (history : List (TaskStep Task Reply)) (s : TasksState Task Call Reply Round Shared)
    (pool : Pool workers κ) : Prop where
  run : (poolSystem workers κ).Exec (pooled.steps history) pool
  contents : pool.toPoolContents = pooled.contents s.shared
  /-- What a handler that has returned still holds. -/
  returned : ∀ round, (s.task pooled.handler).program = .done round →
    pooled.handlerHead round pool.handler
  served : ∀ index round, (s.task (pooled.worker index)).program = .done round →
    pooled.workerHead round (pool.worker index)
  kept : PoolKept (pooled.steps history) pool

theorem serves_of_exec {shared : Shared} {start : Task → Round}
    (handler : ∀ round handling, pooled.handlerHead round handling →
      (tasks.body pooled.handler round).Meets pooled.handlerMonitor
        (fun handling round => pooled.handlerHead round handling) handling)
    (worker : ∀ index round worker, pooled.workerHead round worker →
      (tasks.body (pooled.worker index) round).Meets (pooled.workerMonitor index)
        (fun worker round => pooled.workerHead round worker) worker)
    (other : ∀ t, pooled.party t = none → ∀ round, pooled.otherHead t round →
      (tasks.body t round).Meets (pooled.otherMonitor t) (fun _ round => pooled.otherHead t round) ())
    (handlerStart : pooled.handlerHead (start pooled.handler) .nothing)
    (workerStart : ∀ index, pooled.workerHead (start (pooled.worker index)) .starting)
    (otherStart : ∀ t, pooled.party t = none → pooled.otherHead t (start t))
    (unused : pooled.contents shared = ⟨0, []⟩) {history s}
    (run : (tasks.system shared start).Exec history s) : ∃ pool, pooled.Serves history s pool := by
  have bodies (t round ghost) (head : pooled.outline.head t round ghost) :=
    pooled.keeps_of_parts handler worker other head
  have heads (t) : pooled.outline.head t (start t) (.nothing, .starting) := by
    cases role : pooled.party t with
    | none => simpa [outline, role] using otherStart t role
    | some party =>
        cases party with
        | handler =>
            obtain rfl := (pooled.party_handler t).mp role
            simpa [outline, role] using handlerStart
        | worker index =>
            obtain rfl := (pooled.party_worker t index).mp role
            simpa [outline, role] using workerStart index
  obtain ⟨ghosts, ran, keeps⟩ := pooled.runs bodies heads unused run
  have ends (t) {round} (finished : (s.task t).program = .done round) :
      pooled.outline.head t round (ghosts t) := by
    have kept := keeps t
    rwa [Outline.Keeps, finished] at kept
  refine ⟨_, ran, rfl, fun round finished => ?_, fun index round finished => ?_, poolKept_of_exec ran⟩
  · have role := (pooled.party_handler _).mpr rfl
    simpa [outline, role, pool] using ends _ finished
  · have role := (pooled.party_worker _ index).mpr rfl
    simpa [outline, role, pool] using ends _ finished

end PooledTasks

end Foundation
