import Mathlib.Algebra.BigOperators.Group.Finset.Basic
import Mathlib.Algebra.Order.BigOperators.Group.Finset
import Mathlib.Data.Fintype.BigOperators

/-! # Bounded queues and queue sets

A queue set announces the items of its member queues: a send that adds an item
appends one readiness entry, overwriting an occupied queue of length one appends
none, and a consumer first takes an entry and then receives from the queue it
names. `Represents` states the purpose of the arrangement: the member queues
together hold one list of items in sending order, and the entries name them.
-/

namespace Foundation

/-- A FIFO queue that cannot hold more than `capacity` items. -/
structure BoundedQueue (α : Type) (capacity : Nat) where
  items : List α
  bounded : items.length ≤ capacity
  deriving DecidableEq, Repr

namespace BoundedQueue

variable {α : Type} {capacity : Nat}

def empty : BoundedQueue α capacity := ⟨[], Nat.zero_le _⟩

/-- Send without waiting; `none` when the queue is full. -/
def send (queue : BoundedQueue α capacity) (x : α) : Option (BoundedQueue α capacity) :=
  if room : queue.items.length < capacity then
    some ⟨queue.items ++ [x], by rwa [List.length_append, List.length_singleton]⟩
  else none

def receive : BoundedQueue α capacity → Option (α × BoundedQueue α capacity)
  | ⟨[], _⟩ => none
  | ⟨x :: rest, bounded⟩ => some (x, ⟨rest, Nat.le_of_succ_le bounded⟩)

/-- Overwrite, defined for a queue of length one only. -/
def overwrite (one : capacity = 1) (x : α) : BoundedQueue α capacity :=
  ⟨[x], by rw [one]; exact Nat.le_refl 1⟩

theorem send_eq_some {queue after : BoundedQueue α capacity} {x : α}
    (sent : queue.send x = some after) :
    queue.items.length < capacity ∧ after.items = queue.items ++ [x] := by
  unfold send at sent
  split at sent
  · rename_i room
    cases sent
    exact ⟨room, rfl⟩
  · cases sent

theorem send_eq_none {queue : BoundedQueue α capacity} {x : α} (full : queue.send x = none) :
    queue.items.length = capacity := by
  unfold send at full
  split at full
  · cases full
  · have := queue.bounded
    omega

theorem receive_eq_some {queue after : BoundedQueue α capacity} {x : α}
    (received : queue.receive = some (x, after)) : queue.items = x :: after.items := by
  cases queue with
  | mk items bounded =>
      cases items with
      | nil => cases received
      | cons y rest =>
          cases received
          rfl

theorem receive_of_items {queue : BoundedQueue α capacity} {x : α} {rest : List α}
    (items : queue.items = x :: rest) :
    ∃ after, queue.receive = some (x, after) ∧ after.items = rest := by
  cases queue with
  | mk all bounded =>
      cases items
      exact ⟨_, rfl, rfl⟩

end BoundedQueue

/-- Member queues of different item types with the queue of readiness entries. -/
structure QueueSet (M : Type) (Item : M → Type) (capacity : M → Nat) (total : Nat) where
  member : (m : M) → BoundedQueue (Item m) (capacity m)
  ready : BoundedQueue M total

namespace QueueSet

variable {M : Type} [DecidableEq M] {Item : M → Type} {capacity : M → Nat} {total : Nat}

def empty : QueueSet M Item capacity total := ⟨fun _ => .empty, .empty⟩

/-- An entry is lost when the set is full. -/
def announce (set : QueueSet M Item capacity total) (m : M) : QueueSet M Item capacity total :=
  { set with ready := (set.ready.send m).getD set.ready }

def put (set : QueueSet M Item capacity total) (m : M) (queue : BoundedQueue (Item m) (capacity m)) :
    QueueSet M Item capacity total :=
  { set with member := Function.update set.member m queue }

/-- Send to a member without waiting; `none` when that queue is full. -/
def send (set : QueueSet M Item capacity total) (m : M) (x : Item m) :
    Option (QueueSet M Item capacity total) :=
  ((set.member m).send x).map fun queue => (set.put m queue).announce m

/-- Overwrite a member of length one. An occupied queue keeps its entry. -/
def overwrite (set : QueueSet M Item capacity total) (m : M) (one : capacity m = 1) (x : Item m) :
    QueueSet M Item capacity total :=
  if (set.member m).items = [] then (set.put m (.overwrite one x)).announce m
  else set.put m (.overwrite one x)

/-- Take the oldest readiness entry. -/
def select (set : QueueSet M Item capacity total) : Option (M × QueueSet M Item capacity total) :=
  set.ready.receive.map fun (m, ready) => (m, { set with ready })

def receive (set : QueueSet M Item capacity total) (m : M) :
    Option (Item m × QueueSet M Item capacity total) :=
  (set.member m).receive.map fun (x, queue) => (x, set.put m queue)

/-- The items of one member among items in sending order. -/
def itemsOf (m : M) (log : List (Σ m, Item m)) : List (Item m) :=
  log.filterMap fun entry => if same : entry.1 = m then some (same ▸ entry.2) else none

@[simp] theorem itemsOf_nil (m : M) : itemsOf m ([] : List (Σ m, Item m)) = [] := rfl

@[simp] theorem itemsOf_append (m : M) (first second : List (Σ m, Item m)) :
    itemsOf m (first ++ second) = itemsOf m first ++ itemsOf m second :=
  List.filterMap_append

@[simp] theorem itemsOf_cons_same (m : M) (x : Item m) (rest : List (Σ m, Item m)) :
    itemsOf m (⟨m, x⟩ :: rest) = x :: itemsOf m rest := by
  simp [itemsOf]

theorem itemsOf_cons_other {m n : M} (other : n ≠ m) (x : Item n) (rest : List (Σ m, Item m)) :
    itemsOf m (⟨n, x⟩ :: rest) = itemsOf m rest := by
  simp [itemsOf, other]

theorem mem_itemsOf {m : M} {x : Item m} {log : List (Σ m, Item m)} :
    x ∈ itemsOf m log ↔ ⟨m, x⟩ ∈ log := by
  induction log with
  | nil => simp
  | cons entry rest ih =>
      obtain ⟨n, y⟩ := entry
      by_cases same : n = m
      · subst same
        simp [ih]
      · rw [itemsOf_cons_other same, ih, List.mem_cons]
        simp [Ne.symm same]

theorem length_itemsOf (m : M) (log : List (Σ m, Item m)) :
    (itemsOf m log).length = (log.map Sigma.fst).count m := by
  induction log with
  | nil => rfl
  | cons entry rest ih =>
      obtain ⟨n, x⟩ := entry
      by_cases same : n = m
      · subst same
        simp [ih]
      · simp [itemsOf_cons_other same, ih, same]

/-- `log` lists, in sending order, the items that the member queues hold. The
    entry of the first one has been taken when a queue is `selected`. -/
structure Represents (set : QueueSet M Item capacity total) (selected : Option M)
    (log : List (Σ m, Item m)) : Prop where
  entries : log.map Sigma.fst = selected.toList ++ set.ready.items
  members : ∀ m, (set.member m).items = itemsOf m log

theorem represents_empty : (empty : QueueSet M Item capacity total).Represents none [] :=
  ⟨rfl, fun _ => rfl⟩

/-- As many entries name a queue as it has items, the selected one having had
    one more. -/
theorem Represents.count_ready {set : QueueSet M Item capacity total} {selected : Option M}
    {log : List (Σ m, Item m)} (represents : set.Represents selected log) (m : M) :
    set.ready.items.count m + (if selected = some m then 1 else 0) = (set.member m).items.length := by
  rw [represents.members, length_itemsOf, represents.entries, List.count_append]
  cases selected with
  | none => simp
  | some n =>
      by_cases same : n = m
      · simp [same, Nat.add_comm]
      · simp [same]

theorem length_eq_sum [Fintype M] (log : List (Σ m, Item m)) :
    log.length = ∑ m, (itemsOf m log).length := by
  induction log with
  | nil => simp
  | cons entry rest ih =>
      obtain ⟨n, y⟩ := entry
      have each : ∀ m, (itemsOf m (⟨n, y⟩ :: rest)).length =
          (itemsOf m rest).length + if n = m then 1 else 0 := by
        intro m
        by_cases same : n = m
        · subst same
          simp
        · simp [itemsOf_cons_other same, same]
      simp only [each, Finset.sum_add_distrib, ← ih, Finset.sum_ite_eq, Finset.mem_univ, if_true,
        List.length_cons]

variable [Fintype M] {set : QueueSet M Item capacity total} {log : List (Σ m, Item m)}
  {selected : Option M}

/-- A set as long as its members together has room for the entry of every item
    that a member has room for. -/
theorem Represents.ready_room (represents : set.Represents selected log)
    (long : ∑ m, capacity m ≤ total) {m : M} (room : (set.member m).items.length < capacity m) :
    set.ready.items.length < total := by
  have counted : log.length < ∑ m, capacity m := by
    rw [length_eq_sum]
    refine Finset.sum_lt_sum (fun n _ => ?_) ⟨m, Finset.mem_univ m, ?_⟩
    · rw [← represents.members]
      exact (set.member n).bounded
    · rw [← represents.members]
      exact room
  have entries := congrArg List.length represents.entries
  rw [List.length_map, List.length_append] at entries
  omega

theorem Represents.announced (represents : set.Represents selected log)
    (long : ∑ m, capacity m ≤ total) {m : M} (room : (set.member m).items.length < capacity m)
    {queue : BoundedQueue (Item m) (capacity m)} {x : Item m}
    (added : queue.items = (set.member m).items ++ [x]) :
    ((set.put m queue).announce m).Represents selected (log ++ [⟨m, x⟩]) where
  entries := by
    have announcing : (set.ready.send m).getD set.ready =
        ⟨set.ready.items ++ [m], by
          have := represents.ready_room long room
          rwa [List.length_append, List.length_singleton]⟩ := by
      rw [BoundedQueue.send, dif_pos (represents.ready_room long room)]
      rfl
    simp only [announce, put, announcing, List.map_append, List.map_cons, List.map_nil,
      represents.entries, List.append_assoc]
  members n := by
    by_cases same : n = m
    · subst same
      simp [announce, put, added, represents.members]
    · simp [announce, put, Function.update_of_ne same, represents.members,
        itemsOf_cons_other (Ne.symm same)]

theorem Represents.send (represents : set.Represents selected log)
    (long : ∑ m, capacity m ≤ total) {m : M} {x : Item m} {after : QueueSet M Item capacity total}
    (sent : set.send m x = some after) : after.Represents selected (log ++ [⟨m, x⟩]) := by
  obtain ⟨queue, added, rfl⟩ := Option.map_eq_some_iff.mp sent
  obtain ⟨room, items⟩ := BoundedQueue.send_eq_some added
  exact represents.announced long room items

theorem Represents.overwrite_empty (represents : set.Represents selected log)
    (long : ∑ m, capacity m ≤ total) {m : M} (one : capacity m = 1) (x : Item m)
    (vacant : (set.member m).items = []) :
    (set.overwrite m one x).Represents selected (log ++ [⟨m, x⟩]) := by
  rw [QueueSet.overwrite, if_pos vacant]
  refine represents.announced long (by rw [vacant, one]; exact Nat.one_pos) ?_
  rw [vacant]
  rfl

omit [Fintype M] in
/-- Overwriting an item with an equal one changes nothing. -/
theorem Represents.overwrite_same (represents : set.Represents selected log) {m : M}
    (one : capacity m = 1) (x : Item m) (occupied : (set.member m).items = [x]) :
    (set.overwrite m one x).Represents selected log := by
  rw [QueueSet.overwrite, if_neg (by rw [occupied]; exact List.cons_ne_nil _ _)]
  refine ⟨represents.entries, fun n => ?_⟩
  by_cases same : n = m
  · subst same
    simp [put, BoundedQueue.overwrite, ← represents.members, occupied]
  · simp [put, Function.update_of_ne same, represents.members]

omit [Fintype M] in
theorem Represents.select (represents : set.Represents none log) {m : M}
    {after : QueueSet M Item capacity total} (selects : set.select = some (m, after)) :
    after.Represents (some m) log := by
  obtain ⟨⟨m', ready⟩, taken, same⟩ := Option.map_eq_some_iff.mp selects
  cases same
  refine ⟨?_, represents.members⟩
  rw [represents.entries, BoundedQueue.receive_eq_some taken]
  rfl

omit [Fintype M] in
/-- The queue that was selected holds the oldest item of all. -/
theorem Represents.receive {m : M} (represents : set.Represents (some m) log) :
    ∃ x rest after, log = ⟨m, x⟩ :: rest ∧ set.receive m = some (x, after) ∧
      after.Represents none rest := by
  have entries := represents.entries
  cases log with
  | nil => cases entries
  | cons entry rest =>
      obtain ⟨n, x⟩ := entry
      obtain ⟨same, later⟩ := List.cons.inj entries
      obtain rfl : n = m := same
      have items := represents.members n
      rw [itemsOf_cons_same] at items
      obtain ⟨queue, received, remaining⟩ := BoundedQueue.receive_of_items items
      refine ⟨x, rest, set.put n queue, rfl, by rw [QueueSet.receive, received]; rfl, later, ?_⟩
      intro k
      by_cases same : k = n
      · subst same
        simp [put, remaining]
      · simp [put, Function.update_of_ne same, represents.members, itemsOf_cons_other (Ne.symm same)]

end QueueSet

end Foundation
