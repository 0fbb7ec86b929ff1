import EspGnss.Foundation.CallTree
import EspGnss.Foundation.QueueSet
import EspGnss.Foundation.System
import Mathlib.Algebra.Order.Group.Multiset
import Mathlib.Data.Fintype.BigOperators
import Mathlib.Tactic.Abel
import Mathlib.Tactic.Simps.Basic

/-! # A bounded pool of workers

A worker puts a token into a counting semaphore, waits for a request, serves it and
starts over. A handler makes a copy of its request and takes a token, in either order,
and queues the copy; where that fails it gives back what it has and refuses the request.
Handlers run one at a time. However handlers and workers interleave, tokens and copies
are conserved.
-/

namespace Foundation

/-- The kernel objects of a pool. -/
structure PoolObjects (Item : Type) (capacity : Nat) where
  ready : Nat
  queue : BoundedQueue Item capacity

namespace PoolObjects

variable {Item : Type} {capacity : Nat}

def empty : PoolObjects Item capacity := ⟨0, .empty⟩

/-- `xSemaphoreTake(ready, 0)`, when it has returned `taken`. -/
def take (objects : PoolObjects Item capacity) (taken : Bool) : PoolObjects Item capacity :=
  { objects with ready := objects.ready - taken.toNat }

/-- `xSemaphoreGive(ready)` -/
def give (objects : PoolObjects Item capacity) : PoolObjects Item capacity :=
  { objects with ready := min (objects.ready + 1) capacity }

/-- `xQueueSend(queue, &item, 0)` -/
def send (objects : PoolObjects Item capacity) (item : Item) : PoolObjects Item capacity :=
  { objects with queue := (objects.queue.send item).getD objects.queue }

/-- `xQueueReceive(queue, &item, portMAX_DELAY)`, when it has returned. -/
def receive (objects : PoolObjects Item capacity) : PoolObjects Item capacity :=
  { objects with queue := (objects.queue.receive.map (·.2)).getD objects.queue }

end PoolObjects

/-- What happens at a pool. -/
inductive PoolEvent (κ : Type) where
  | took (ok : Bool)
  | gave
  | cloned (copy : κ)
  /-- No copy of the request could be made. -/
  | uncloned
  | completed (copy : κ)
  | sent (copy : κ) (ok : Bool)
  /-- The handler answers that the pool has no capacity. -/
  | refused
  | received (copy : κ)
  /-- A receive that has no timeout has ended without a copy. -/
  | timedOut

/-- Why a handler has not queued its request. -/
inductive Refusal where
  | noToken
  | uncloned
  | unsent

/-- What a handler has in its hands, and why it has to refuse its request. -/
structure Handling (κ : Type) where
  token : Bool
  copy : Option κ
  refusal : Option Refusal

/-- Where a worker is in its loop. -/
inductive PoolWorker (κ : Type) where
  | starting
  | waiting
  | serving (copy : κ)
  | finished

variable {κ : Type}

namespace Handling

def nothing : Handling κ := ⟨false, none, none⟩

/-- A handler gives, queues and completes only what it has, takes and clones only what
    it does not have, stops trying after a failure, and refuses a request only then. -/
def Permits (handling : Handling κ) : PoolEvent κ → Prop
  | .took _ => handling.token = false ∧ handling.refusal = none
  | .gave => handling.token = true
  | .cloned _ | .uncloned => handling.copy = none ∧ handling.refusal = none
  | .completed copy => handling.copy = some copy
  | .sent copy _ => handling.token = true ∧ handling.copy = some copy ∧ handling.refusal = none
  | .refused => handling.token = false ∧ handling.copy = none ∧ handling.refusal ≠ none
  | .received _ | .timedOut => False

def after (handling : Handling κ) : PoolEvent κ → Handling κ
  | .took ok => { handling with token := ok, refusal := if ok then handling.refusal else some .noToken }
  | .gave => { handling with token := false }
  | .cloned copy => { handling with copy := some copy }
  | .uncloned => { handling with refusal := some .uncloned }
  | .completed _ => { handling with copy := none }
  | .sent _ ok => if ok then nothing else { handling with refusal := some .unsent }
  | .refused => { handling with refusal := none }
  | .received _ | .timedOut => handling

section Returns

variable {ε : Type} {ok notFinished fail err : ε} {handling : Handling κ}

/-- What an attempt to queue a request leaves in the hands, and what it returns for it. -/
def Returns (ok notFinished fail : ε) (handling : Handling κ) (err : ε) : Prop :=
  handling.token = false ∧ handling.copy = none ∧
    match handling.refusal with
    | none => err = ok
    | some .noToken => err = notFinished
    | some .uncloned => err ≠ ok
    | some .unsent => err = fail

theorem Returns.eq_nothing (returns : Returns ok notFinished fail handling ok) (unlike : notFinished ≠ ok)
    (fails : fail ≠ ok) : handling = .nothing := by
  obtain ⟨token, copy, refusal⟩ := handling
  obtain ⟨rfl, rfl, why⟩ := returns
  cases refusal with
  | none => rfl
  | some refusal =>
      cases refusal with
      | noToken => exact absurd why.symm unlike
      | uncloned => exact absurd rfl why
      | unsent => exact absurd why.symm fails

/-- A handler that could not queue its request may refuse it, and has done all then. -/
theorem Returns.refuses (returns : Returns ok notFinished fail handling err) (failed : err ≠ ok) :
    handling.Permits .refused ∧ handling.after .refused = .nothing := by
  obtain ⟨token, copy, refusal⟩ := handling
  obtain ⟨rfl, rfl, why⟩ := returns
  cases refusal with
  | none => exact absurd why failed
  | some refusal => simp [Permits, after, nothing]

end Returns

end Handling

namespace PoolWorker

/-- A worker gives a token, receives a request and completes it, in this order. -/
def Permits : PoolWorker κ → PoolEvent κ → Prop
  | starting, .gave | finished, .gave => True
  | waiting, .received _ | waiting, .timedOut => True
  | serving copy, .completed copy' => copy' = copy
  | _, _ => False

def after (worker : PoolWorker κ) : PoolEvent κ → PoolWorker κ
  | .gave => waiting
  | .received copy => serving copy
  | .completed _ => finished
  | .timedOut => starting
  | _ => worker

/-- Whether the worker has received a request and has not given a token since. -/
def owning : PoolWorker κ → Bool
  | serving _ | finished => true
  | starting | waiting => false

/-- The copy that the worker has to complete. -/
def copies : PoolWorker κ → Multiset κ
  | serving copy => {copy}
  | starting | waiting | finished => 0

/-- Whether a token stands for the worker. -/
def armed : PoolWorker κ → Nat
  | waiting => 1
  | starting | serving _ | finished => 0

end PoolWorker

section Monitors

variable {Call : Type} {Reply : Call → Type} (view : CallEvent Reply → Option (PoolEvent κ))

/-- Watches the calls of a program that are events of a pool. -/
@[simps] def Handling.monitor : Monitor Reply (Handling κ) where
  allows handling c := ∀ reply, ∀ event ∈ view ⟨c, reply⟩, handling.Permits event
  observe handling event := (view event).elim handling handling.after

@[simps] def PoolWorker.monitor : Monitor Reply (PoolWorker κ) where
  allows worker c := ∀ reply, ∀ event ∈ view ⟨c, reply⟩, worker.Permits event
  observe worker event := (view event).elim worker worker.after

end Monitors

/-- The state of the semaphore and the queue. -/
structure PoolContents (κ : Type) where
  ready : Nat
  queue : List κ

namespace PoolContents

/-- What they answer. -/
def Answers (contents : PoolContents κ) (workers : Nat) : PoolEvent κ → Prop
  | .took ok => ok = decide (0 < contents.ready)
  | .sent _ ok => ok = decide (contents.queue.length < workers)
  | .received copy => contents.queue.head? = some copy
  | .timedOut => False
  | .gave | .cloned _ | .uncloned | .completed _ | .refused => True

/-- What happens to them. -/
def move (contents : PoolContents κ) (workers : Nat) : PoolEvent κ → PoolContents κ
  | .took ok => { contents with ready := contents.ready - ok.toNat }
  | .gave => { contents with ready := min (contents.ready + 1) workers }
  | .sent copy ok => if ok then { contents with queue := contents.queue ++ [copy] } else contents
  | .received _ => { contents with queue := contents.queue.tail }
  | .cloned _ | .uncloned | .completed _ | .refused | .timedOut => contents

end PoolContents

structure Pool (workers : Nat) (κ : Type) extends PoolContents κ where
  handler : Handling κ
  worker : Fin workers → PoolWorker κ

inductive PoolParty (workers : Nat) where
  | handler
  | worker (index : Fin workers)

abbrev PoolStep (workers : Nat) (κ : Type) := PoolParty workers × PoolEvent κ

variable {workers : Nat}

def Pool.initial : Pool workers κ := ⟨⟨0, []⟩, .nothing, fun _ => .starting⟩

inductive PoolTransition (pool : Pool workers κ) : PoolParty workers → PoolEvent κ → Pool workers κ → Prop where
  | handler {event} : pool.handler.Permits event → pool.Answers workers event →
      PoolTransition pool .handler event
        ⟨pool.move workers event, pool.handler.after event, pool.worker⟩
  | worker {index event} : (pool.worker index).Permits event → pool.Answers workers event →
      PoolTransition pool (.worker index) event
        ⟨pool.move workers event, pool.handler,
          Function.update pool.worker index ((pool.worker index).after event)⟩

def poolSystem (workers : Nat) (κ : Type) :
    System (Pool workers κ) (PoolParty workers) (PoolStep workers κ) where
  init pool := pool = .initial
  step pool party after steps := ∃ event, PoolTransition pool party event after ∧ steps = [(party, event)]

/-- One call of a handler. -/
theorem handler_exec {steps : List (PoolStep workers κ)} {pool : Pool workers κ}
    (run : (poolSystem workers κ).Exec steps pool) {event : Option (PoolEvent κ)}
    (permits : ∀ e ∈ event, pool.handler.Permits e) (answers : ∀ e ∈ event, pool.Answers workers e) :
    (poolSystem workers κ).Exec (steps ++ (event.map (.handler, ·)).toList)
      ⟨event.elim pool.toPoolContents (pool.move workers), event.elim pool.handler pool.handler.after,
        pool.worker⟩ := by
  cases event with
  | none => simpa using run
  | some event => exact run.next ⟨event, .handler (permits event rfl) (answers event rfl), rfl⟩

/-- One call of a worker. -/
theorem worker_exec {steps : List (PoolStep workers κ)} {pool : Pool workers κ}
    (run : (poolSystem workers κ).Exec steps pool) (index : Fin workers) {event : Option (PoolEvent κ)}
    (permits : ∀ e ∈ event, (pool.worker index).Permits e) (answers : ∀ e ∈ event, pool.Answers workers e) :
    (poolSystem workers κ).Exec (steps ++ (event.map (.worker index, ·)).toList)
      ⟨event.elim pool.toPoolContents (pool.move workers), pool.handler,
        Function.update pool.worker index (event.elim (pool.worker index) (pool.worker index).after)⟩ := by
  cases event with
  | none => simpa using run
  | some event => exact run.next ⟨event, .worker (permits event rfl) (answers event rfl), rfl⟩

/-- A sum over workers after one of them has moved. -/
theorem sum_update {ι σ M : Type} [Fintype ι] [DecidableEq ι] [AddCommMonoid M] (g : σ → M)
    (f : ι → σ) (i : ι) (x : σ) :
    (∑ j, g (Function.update f i x j)) + g (f i) = (∑ j, g (f j)) + g x := by
  have moved := Finset.add_sum_erase Finset.univ (fun j => g (Function.update f i x j)) (Finset.mem_univ i)
  have before := Finset.add_sum_erase Finset.univ (fun j => g (f j)) (Finset.mem_univ i)
  have others : ∑ j ∈ Finset.univ.erase i, g (Function.update f i x j) =
      ∑ j ∈ Finset.univ.erase i, g (f j) := by
    apply Finset.sum_congr rfl
    intro j other
    rw [Function.update_of_ne (Finset.ne_of_mem_erase other)]
  rw [← moved, ← before, others, Function.update_self]
  abel

/-- Tokens in the semaphore or with a handler and queued requests stand for distinct
    waiting workers. -/
def Pool.Balanced (pool : Pool workers κ) : Prop :=
  pool.ready + pool.handler.token.toNat + pool.queue.length = ∑ i, (pool.worker i).armed

theorem Pool.armed_le (pool : Pool workers κ) : ∑ i, (pool.worker i).armed ≤ workers := by
  calc ∑ i, (pool.worker i).armed ≤ ∑ _i : Fin workers, 1 := by
        apply Finset.sum_le_sum
        intro i _
        cases pool.worker i <;> simp [PoolWorker.armed]
    _ = workers := by simp

/-- While a worker is not waiting the others are too few for all tokens. -/
theorem Pool.armed_lt (pool : Pool workers κ) {i : Fin workers} (unarmed : (pool.worker i).armed = 0) :
    ∑ i, (pool.worker i).armed < workers := by
  have moved := sum_update PoolWorker.armed pool.worker i .waiting
  have bound := Pool.armed_le { pool with worker := Function.update pool.worker i .waiting }
  rw [unarmed] at moved
  have one : (PoolWorker.waiting : PoolWorker κ).armed = 1 := rfl
  rw [one] at moved
  dsimp only at bound
  omega

theorem Pool.Balanced.step {pool after : Pool workers κ} {party event} (balanced : pool.Balanced)
    (step : PoolTransition pool party event after) : after.Balanced := by
  unfold Balanced at balanced ⊢
  cases step with
  | handler permits answers =>
      obtain ⟨⟨ready, queue⟩, ⟨token, copy, refusal⟩, worker⟩ := pool
      have bound := Pool.armed_le ⟨⟨ready, queue⟩, ⟨token, copy, refusal⟩, worker⟩
      cases event with
      | took ok =>
          obtain rfl : token = false := permits.1
          simp only [PoolContents.Answers] at answers
          cases ok
          · simpa [PoolContents.move, Handling.after] using balanced
          · have some : 0 < ready := of_decide_eq_true answers.symm
            simp only [PoolContents.move, Handling.after, Bool.toNat_true, Bool.toNat_false] at balanced ⊢
            omega
      | gave =>
          obtain rfl : token = true := permits
          simp only [PoolContents.move, Handling.after, Bool.toNat_true, Bool.toNat_false] at balanced bound ⊢
          omega
      | sent copy ok =>
          obtain rfl : token = true := permits.1
          cases ok
          · exact balanced
          · simp only [PoolContents.move, Handling.after, Handling.nothing, if_true, Bool.toNat_true, Bool.toNat_false,
              List.length_append, List.length_singleton] at balanced ⊢
            omega
      | received => exact permits.elim
      | _ => exact balanced
  | @worker index event permits answers =>
      have moved := sum_update PoolWorker.armed pool.worker index ((pool.worker index).after event)
      cases stage : pool.worker index with
      | starting | finished =>
          cases event with
          | gave =>
              have unarmed : (pool.worker index).armed = 0 := by rw [stage]; rfl
              have bound := pool.armed_lt unarmed
              simp_all [PoolContents.move, PoolWorker.after, PoolWorker.armed]
              omega
          | _ => rw [stage] at permits; exact permits.elim
      | waiting =>
          cases event with
          | received copy =>
              obtain ⟨rest, front⟩ := List.head?_eq_some_iff.mp answers
              simp_all [PoolContents.move, PoolWorker.after, PoolWorker.armed]
              omega
          | timedOut => exact answers.elim
          | _ => rw [stage] at permits; exact permits.elim
      | serving copy =>
          cases event with
          | completed copy' => simp_all [PoolContents.move, PoolWorker.after, PoolWorker.armed]
          | _ => rw [stage] at permits; exact permits.elim

theorem balanced_of_exec {steps : List (PoolStep workers κ)} {pool : Pool workers κ}
    (run : (poolSystem workers κ).Exec steps pool) : pool.Balanced := by
  refine System.Exec.invariant (I := fun _ pool => pool.Balanced)
    (fun pool start => ?_) (fun steps pool party after events _ balanced step => ?_) run
  · cases start
    simp [Pool.Balanced, Pool.initial, Handling.nothing, PoolWorker.armed]
  · obtain ⟨event, moved, -⟩ := step
    exact balanced.step moved

/-- The queue has room for the request of a handler that has a token. -/
theorem Pool.Balanced.room {pool : Pool workers κ} (balanced : pool.Balanced)
    (token : pool.handler.token = true) : pool.queue.length < workers := by
  have bound := pool.armed_le
  rw [Balanced, token, Bool.toNat_true] at balanced
  omega

def accepted (steps : List (PoolStep workers κ)) : List κ :=
  steps.filterMap fun
    | (_, .sent copy true) => some copy
    | _ => none

def received (steps : List (PoolStep workers κ)) : List κ :=
  steps.filterMap fun
    | (_, .received copy) => some copy
    | _ => none

def cloned (steps : List (PoolStep workers κ)) : List κ :=
  steps.filterMap fun
    | (_, .cloned copy) => some copy
    | _ => none

def completed (steps : List (PoolStep workers κ)) : List κ :=
  steps.filterMap fun
    | (_, .completed copy) => some copy
    | _ => none

/-- The copies that are held, queued or served. -/
def Pool.outstanding (pool : Pool workers κ) : Multiset κ :=
  (pool.handler.copy.toList : Multiset κ) + (pool.queue : Multiset κ) + ∑ i, (pool.worker i).copies

theorem accepted_of_exec {steps : List (PoolStep workers κ)} {pool : Pool workers κ}
    (run : (poolSystem workers κ).Exec steps pool) : accepted steps = received steps ++ pool.queue := by
  refine System.Exec.invariant (I := fun steps pool => accepted steps = received steps ++ pool.queue)
    (fun pool start => ?_) (fun steps pool party after events _ same step => ?_) run
  · cases start
    rfl
  · obtain ⟨event, moved, rfl⟩ := step
    rw [accepted, List.filterMap_append, received, List.filterMap_append]
    change accepted steps ++ _ = received steps ++ _ ++ _
    rw [same]
    cases moved with
    | handler permits answers =>
        cases event with
        | sent copy ok => cases ok <;> simp [PoolContents.move]
        | received => exact permits.elim
        | _ => simp [PoolContents.move]
    | worker permits answers =>
        cases event with
        | sent => cases stage : pool.worker _ <;> rw [stage] at permits <;> exact permits.elim
        | received copy =>
            obtain ⟨rest, front⟩ := List.head?_eq_some_iff.mp answers
            simp [PoolContents.move, front]
        | _ => simp [PoolContents.move]

/-- A clone is a new copy in somebody's hands, and a completion takes one out. -/
theorem PoolTransition.outstanding {pool after : Pool workers κ} {party event}
    (step : PoolTransition pool party event after) :
    (cloned [(party, event)] : Multiset κ) + pool.outstanding =
      (completed [(party, event)] : Multiset κ) + after.outstanding := by
  unfold Pool.outstanding
  cases step with
  | handler permits answers =>
      obtain ⟨⟨ready, queue⟩, ⟨token, held, refusal⟩, worker⟩ := pool
      cases event with
      | cloned copy =>
          obtain rfl : held = none := permits.1
          simp only [cloned, completed, PoolContents.move, Handling.after, List.filterMap_cons,
            List.filterMap_nil, Multiset.coe_nil, Option.toList_some, Option.toList_none]
          abel
      | completed copy =>
          obtain rfl : held = some copy := permits
          simp only [cloned, completed, PoolContents.move, Handling.after, List.filterMap_cons,
            List.filterMap_nil, Multiset.coe_nil, Option.toList_some, Option.toList_none]
          abel
      | sent copy ok =>
          obtain rfl : held = some copy := permits.2.1
          cases ok with
          | false => rfl
          | true =>
              simp only [cloned, completed, PoolContents.move, Handling.after, Handling.nothing, if_true,
                List.filterMap_cons, List.filterMap_nil, Multiset.coe_nil, zero_add,
                ← Multiset.coe_add, Option.toList_some, Option.toList_none]
              abel
      | received => exact permits.elim
      | _ => rfl
  | @worker index event permits answers =>
      have moved := sum_update PoolWorker.copies pool.worker index ((pool.worker index).after event)
      cases stage : pool.worker index with
      | starting | finished =>
          rw [stage] at permits moved
          cases event with
          | gave =>
              have same : ∑ i, (Function.update pool.worker index .waiting i).copies =
                  ∑ i, (pool.worker i).copies := by simpa [PoolWorker.after, PoolWorker.copies] using moved
              simp [cloned, completed, PoolContents.move, PoolWorker.after, same]
          | _ => exact permits.elim
      | waiting =>
          rw [stage] at permits moved
          cases event with
          | received copy =>
              obtain ⟨rest, front⟩ := List.head?_eq_some_iff.mp answers
              have more : ∑ i, (Function.update pool.worker index (.serving copy) i).copies =
                  ∑ i, (pool.worker i).copies + {copy} := by
                simpa [PoolWorker.after, PoolWorker.copies] using moved
              simp only [cloned, completed, PoolContents.move, PoolWorker.after, more, front, List.tail_cons,
                List.filterMap_cons, List.filterMap_nil, ← Multiset.cons_coe, Multiset.coe_nil]
              rw [← Multiset.singleton_add]
              abel
          | timedOut => exact answers.elim
          | _ => exact permits.elim
      | serving copy =>
          rw [stage] at permits moved
          cases event with
          | completed copy' =>
              obtain rfl : copy' = copy := permits
              have fewer : ∑ i, (pool.worker i).copies =
                  {copy'} + ∑ i, (Function.update pool.worker index .finished i).copies := by
                rw [add_comm]
                simpa [PoolWorker.after, PoolWorker.copies] using moved.symm
              simp only [cloned, completed, PoolContents.move, PoolWorker.after, fewer, List.filterMap_cons,
                List.filterMap_nil, Multiset.coe_nil, Multiset.coe_singleton]
              abel
          | _ => exact permits.elim

theorem copies_of_exec {steps : List (PoolStep workers κ)} {pool : Pool workers κ}
    (run : (poolSystem workers κ).Exec steps pool) :
    (cloned steps : Multiset κ) = (completed steps : Multiset κ) + pool.outstanding := by
  refine System.Exec.invariant
    (I := fun steps pool => (cloned steps : Multiset κ) = (completed steps : Multiset κ) + pool.outstanding)
    (fun pool start => ?_) (fun steps pool party after events _ same step => ?_) run
  · cases start
    simp [cloned, completed, Pool.outstanding, Pool.initial, Handling.nothing, PoolWorker.copies]
  · obtain ⟨event, moved, rfl⟩ := step
    have change := moved.outstanding
    have split (p : PoolStep workers κ → Option κ) : ((steps ++ [(party, event)]).filterMap p : Multiset κ) =
        (steps.filterMap p : Multiset κ) + ([(party, event)].filterMap p : Multiset κ) := by
      rw [List.filterMap_append, Multiset.coe_add]
    unfold cloned completed at same change ⊢
    rw [split, split, same, add_assoc, add_assoc, add_comm pool.outstanding, change]

/-- Every worker has a request, or has not reached its first wait. -/
def Occupied (steps : List (PoolStep workers κ)) : Prop :=
  ∃ pool, (poolSystem workers κ).Exec steps pool ∧
    ((∀ i, pool.worker i ≠ .starting) → pool.queue.length + ∑ i, (pool.worker i).owning.toNat = workers)

/-- Everything but giving back what one has. -/
def PoolEvent.Tries : PoolEvent κ → Prop
  | .gave | .completed _ => False
  | _ => True

/-- The party's last attempt has ended with the event. -/
def Ended (steps : List (PoolStep workers κ)) (party : PoolParty workers) (event : PoolEvent κ) : Prop :=
  Since (· = (party, event)) (fun step => step.1 = party ∧ step.2.Tries) steps

structure PoolKept (steps : List (PoolStep workers κ)) (pool : Pool workers κ) : Prop where
  /-- Once every worker has reached its first wait, tokens, queued requests and workers
      that own a request add up. -/
  tokens : (∀ i, pool.worker i ≠ .starting) →
    pool.ready + pool.handler.token.toNat + pool.queue.length + ∑ i, (pool.worker i).owning.toNat = workers
  /-- A handler with a token always finds room in the queue. -/
  sent : ∀ party copy, (party, .sent copy false) ∉ steps
  /-- No more requests than workers are accepted and unfinished. -/
  unfinished : pool.queue.length + (∑ i, (pool.worker i).copies).card ≤ workers
  /-- Accepted requests are received once each, in the order of acceptance, or are still
      queued, and then as many workers wait for them. -/
  received : accepted steps = received steps ++ pool.queue
  waiting : pool.queue.length ≤ ∑ i, (pool.worker i).armed
  /-- A copy is completed once, or is still held, queued or served. -/
  completed : (cloned steps : Multiset κ) = (completed steps : Multiset κ) + pool.outstanding
  /-- No token is found only when every worker has a request. -/
  exhausted : ∀ before party after, steps = before ++ (party, .took false) :: after → Occupied before
  /-- A request is refused only after no token was found for it, or it could not be
      cloned. -/
  refused : ∀ before party after, steps = before ++ (party, .refused) :: after →
    Ended before party (.took false) ∨ Ended before party .uncloned

/-- A worker that has armed itself once is waiting or owns a request. -/
theorem Pool.armed_add_owning {pool : Pool workers κ} (started : ∀ i, pool.worker i ≠ .starting) :
    ∑ i, (pool.worker i).armed + ∑ i, (pool.worker i).owning.toNat = workers := by
  rw [← Finset.sum_add_distrib]
  calc ∑ i, ((pool.worker i).armed + (pool.worker i).owning.toNat) = ∑ _i : Fin workers, 1 := by
        apply Finset.sum_congr rfl
        intro i _
        have known := started i
        cases stage : pool.worker i with
        | starting => exact absurd stage known
        | _ => rfl
    _ = workers := by simp

/-- A waiting worker has no copy. -/
theorem Pool.armed_add_copies (pool : Pool workers κ) :
    ∑ i, (pool.worker i).armed + (∑ i, (pool.worker i).copies).card ≤ workers := by
  rw [Multiset.card_sum, ← Finset.sum_add_distrib]
  calc ∑ i, ((pool.worker i).armed + (pool.worker i).copies.card) ≤ ∑ _i : Fin workers, 1 := by
        apply Finset.sum_le_sum
        intro i _
        cases pool.worker i <;> simp [PoolWorker.armed, PoolWorker.copies]
    _ = workers := by simp

theorem exec_before {steps : List (PoolStep workers κ)} {pool : Pool workers κ}
    (run : (poolSystem workers κ).Exec steps pool) {before party event after}
    (split : steps = before ++ (party, event) :: after) :
    ∃ earlier later, (poolSystem workers κ).Exec before earlier ∧
      PoolTransition earlier party event later := by
  refine System.Exec.placed
    (P := fun before step => ∃ earlier later, (poolSystem workers κ).Exec before earlier ∧
      PoolTransition earlier step.1 step.2 later) ?_ run before (party, event) after split
  intro steps earlier party later events run step first e rest same
  obtain ⟨event, moved, rfl⟩ := step
  rcases List.singleton_eq_append_iff.mp same with ⟨rfl, alone⟩ | ⟨-, impossible⟩
  · obtain ⟨rfl, -⟩ := List.cons.inj alone
    exact ⟨earlier, later, by rwa [List.append_nil], moved⟩
  · cases impossible

/-- Only handlers take tokens and queue requests. -/
theorem PoolTransition.of_handler {pool after : Pool workers κ} {party event}
    (step : PoolTransition pool party event after)
    (handles : (∃ ok, event = .took ok) ∨ ∃ copy ok, event = .sent copy ok) :
    pool.handler.Permits event ∧ pool.Answers workers event := by
  cases step with
  | handler permits answers => exact ⟨permits, answers⟩
  | @worker index _ permits =>
      rcases handles with ⟨ok, rfl⟩ | ⟨copy, ok, rfl⟩ <;>
        cases stage : pool.worker index <;> rw [stage] at permits <;> exact permits.elim

theorem PoolTransition.of_refused {pool after : Pool workers κ} {party}
    (step : PoolTransition pool party .refused after) : party = .handler ∧ pool.handler.Permits .refused := by
  cases step with
  | handler permits => exact ⟨rfl, permits⟩
  | @worker index _ permits => cases stage : pool.worker index <;> rw [stage] at permits <;> exact permits.elim

/-- What has happened to a handler that has to refuse its request. -/
def Refusal.Explained (steps : List (PoolStep workers κ)) : Refusal → Prop
  | noToken => Ended steps .handler (.took false)
  | uncloned => Ended steps .handler .uncloned
  | unsent => False

theorem Refusal.Explained.snoc {steps : List (PoolStep workers κ)} {refusal : Refusal} {step}
    (explained : refusal.Explained steps) (quiet : ¬(step.1 = .handler ∧ step.2.Tries)) :
    refusal.Explained (steps ++ [step]) := by
  cases refusal with
  | noToken | uncloned => exact Since.snoc explained quiet
  | unsent => exact explained

theorem Refusal.Explained.step {steps : List (PoolStep workers κ)} {pool after : Pool workers κ} {party event}
    (explained : ∀ refusal ∈ pool.handler.refusal, refusal.Explained steps) (balanced : pool.Balanced)
    (step : PoolTransition pool party event after) :
    ∀ refusal ∈ after.handler.refusal, refusal.Explained (steps ++ [(party, event)]) := by
  intro refusal member
  cases step with
  | worker permits answers => exact (explained refusal member).snoc (by simp)
  | handler permits answers =>
      obtain ⟨contents, ⟨token, held, before⟩, worker⟩ := pool
      cases event with
      | took ok =>
          obtain rfl : before = none := permits.2
          cases ok with
          | true => cases member
          | false =>
              obtain rfl := Option.some.inj member
              exact since_opened rfl
      | uncloned =>
          obtain rfl := Option.some.inj member
          exact since_opened rfl
      | cloned copy =>
          obtain rfl : before = none := permits.2
          cases member
      | sent copy ok =>
          -- A handler with a token finds room in the queue.
          have room := balanced.room permits.1
          obtain rfl : ok = true := answers.trans (decide_eq_true room)
          cases member
      | refused => cases member
      | gave | completed => exact (explained refusal member).snoc (fun tries => tries.2)
      | received | timedOut => exact permits.elim

theorem explained_of_exec {steps : List (PoolStep workers κ)} {pool : Pool workers κ}
    (run : (poolSystem workers κ).Exec steps pool) :
    ∀ refusal ∈ pool.handler.refusal, refusal.Explained steps := by
  refine System.Exec.invariant
    (I := fun steps pool => pool.Balanced ∧ ∀ refusal ∈ pool.handler.refusal, refusal.Explained steps)
    (fun pool start => ?_) (fun steps pool party after events _ kept step => ?_) run |>.2
  · cases start
    exact ⟨balanced_of_exec (.start rfl), by simp [Pool.initial, Handling.nothing]⟩
  · obtain ⟨event, moved, rfl⟩ := step
    exact ⟨kept.1.step moved, Refusal.Explained.step kept.2 kept.1 moved⟩

theorem poolKept_of_exec {steps : List (PoolStep workers κ)} {pool : Pool workers κ}
    (run : (poolSystem workers κ).Exec steps pool) : PoolKept steps pool where
  tokens started := by
    have whole := Pool.armed_add_owning started
    rwa [← balanced_of_exec run] at whole
  sent party copy member := by
    obtain ⟨before, after, split⟩ := List.mem_iff_append.mp member
    obtain ⟨earlier, later, ran, moved⟩ := exec_before run split
    obtain ⟨permits, answers⟩ := moved.of_handler (.inr ⟨copy, false, rfl⟩)
    have room := (balanced_of_exec ran).room permits.1
    exact of_decide_eq_false answers.symm room
  unfinished := by
    have balanced : _ = _ := balanced_of_exec run
    have bound := pool.armed_add_copies
    omega
  received := accepted_of_exec run
  waiting := by
    have balanced : _ = _ := balanced_of_exec run
    omega
  completed := copies_of_exec run
  exhausted before party after split := by
    obtain ⟨earlier, later, ran, moved⟩ := exec_before run split
    obtain ⟨permits, answers⟩ := moved.of_handler (.inl ⟨false, rfl⟩)
    refine ⟨earlier, ran, fun started => ?_⟩
    have whole := Pool.armed_add_owning started
    have none : ¬ 0 < earlier.ready := of_decide_eq_false answers.symm
    have token : earlier.handler.token = false := permits.1
    rw [← balanced_of_exec ran, token, Bool.toNat_false] at whole
    omega
  refused before party after split := by
    obtain ⟨earlier, later, ran, moved⟩ := exec_before run split
    obtain ⟨rfl, -, -, why⟩ := moved.of_refused
    obtain ⟨refusal, because⟩ := Option.ne_none_iff_exists'.mp why
    have explained := explained_of_exec ran refusal because
    cases refusal with
    | noToken => exact .inl explained
    | uncloned => exact .inr explained
    | unsent => exact explained.elim

end Foundation
