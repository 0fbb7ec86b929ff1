import Mathlib.Data.List.DropRight
import Mathlib.Tactic.Simps.Basic
import Mathlib.Tactic.TypeStar

/-! # Programs as trees of calls

Code that calls an interface it does not control is a tree: each node names the
call and continues with whatever the interface replies. Running the tree needs an
environment that answers every call from what happened before, and always ends. A
monitor watches the calls and replies; `Meets` is the weakest precondition for
obeying one and ending in a postcondition.
-/

namespace Foundation

universe u v w

/-- Programs over the calls `Call`, whose replies have the types `Reply`. -/
inductive CallTree (Call : Type u) (Reply : Call → Type v) (α : Type w) where
  | done (value : α)
  | call (c : Call) (next : Reply c → CallTree Call Reply α)

/-- A call with the reply it got. -/
structure CallEvent {Call : Type u} (Reply : Call → Type v) where
  call : Call
  reply : Reply call

/-- Judges the calls of a program by a state that it updates on every reply. -/
structure Monitor {Call : Type u} (Reply : Call → Type v) (σ : Type*) where
  allows : σ → Call → Prop
  observe : σ → CallEvent Reply → σ

/-- Allows the calls that satisfy `P`. -/
@[simps] def Monitor.calls {Call : Type u} {Reply : Call → Type v} (P : Call → Prop) : Monitor Reply Unit where
  allows _ c := P c
  observe _ _ := ()

namespace CallTree

variable {Call : Type u} {Reply : Call → Type v} {α β : Type w} {σ : Type*}

def bind : CallTree Call Reply α → (α → CallTree Call Reply β) → CallTree Call Reply β
  | done value, rest => rest value
  | call c next, rest => call c fun reply => (next reply).bind rest

instance : Monad (CallTree Call Reply) where
  pure := done
  bind := bind

/-- The program that makes one call and returns its reply. -/
def perform (c : Call) : CallTree Call Reply (Reply c) := call c done

/-- The call that the program is about to make. -/
def head? : CallTree Call Reply α → Option Call
  | done _ => none
  | call c _ => some c

@[simp] theorem pure_eq (value : α) : (pure value : CallTree Call Reply α) = done value := rfl

@[simp] theorem done_bind (value : α) (rest : α → CallTree Call Reply β) :
    done value >>= rest = rest value := rfl

@[simp] theorem call_bind (c : Call) (next : Reply c → CallTree Call Reply α)
    (rest : α → CallTree Call Reply β) :
    call c next >>= rest = call c fun reply => next reply >>= rest := rfl

/-- An environment answers each call from the calls and replies before it. -/
abbrev Environment (Reply : Call → Type v) := List (CallEvent Reply) → (c : Call) → Reply c

/-- The history after running a program that starts after `past`, and its value. -/
def run (env : Environment Reply) (past : List (CallEvent Reply)) :
    CallTree Call Reply α → List (CallEvent Reply) × α
  | done value => (past, value)
  | call c next => run env (past ++ [⟨c, env past c⟩]) (next (env past c))

@[simp] theorem run_done (env : Environment Reply) (past) (value : α) :
    (done value : CallTree Call Reply α).run env past = (past, value) := rfl

@[simp] theorem run_call (env : Environment Reply) (past) (c : Call)
    (next : Reply c → CallTree Call Reply α) :
    (call c next).run env past = (next (env past c)).run env (past ++ [⟨c, env past c⟩]) := rfl

@[simp] theorem run_perform (env : Environment Reply) (past) (c : Call) :
    (perform c).run env past = (past ++ [⟨c, env past c⟩], env past c) := rfl

@[simp] theorem run_bind (env : Environment Reply) (past) (program : CallTree Call Reply α)
    (rest : α → CallTree Call Reply β) :
    (program >>= rest).run env past =
      (rest (program.run env past).2).run env (program.run env past).1 := by
  induction program generalizing past with
  | done value => rfl
  | call c next ih => exact ih _ _

/-- Running only adds to the history. -/
theorem past_prefix (env : Environment Reply) (past) (program : CallTree Call Reply α) :
    past <+: (program.run env past).1 := by
  induction program generalizing past with
  | done value => exact List.prefix_rfl
  | call c next ih => exact (List.prefix_append _ _).trans (ih _ _)

/-- An environment that always answers alike leaves only its own answers behind. -/
theorem run_answers (answer : (c : Call) → Reply c) (past) (program : CallTree Call Reply α)
    (answered : ∀ event ∈ past, event.reply = answer event.call) :
    ∀ event ∈ (program.run (fun _ => answer) past).1, event.reply = answer event.call := by
  induction program generalizing past with
  | done value => exact answered
  | call c next ih =>
      exact ih _ _ (List.forall_mem_append.mpr ⟨answered, by simp⟩)

/-- What happened first can be moved into the environment. -/
theorem run_append (env : Environment Reply) (before past) (program : CallTree Call Reply α) :
    program.run env (before ++ past) =
      (before ++ (program.run (fun past => env (before ++ past)) past).1,
        (program.run (fun past => env (before ++ past)) past).2) := by
  induction program generalizing past with
  | done value => rfl
  | call c next ih =>
      simp only [run_call, List.append_assoc]
      exact ih _ _

/-- From monitor state `q`, whatever the replies are, every call is allowed and the
    program ends with `post`. -/
def Meets (m : Monitor Reply σ) (post : σ → α → Prop) : σ → CallTree Call Reply α → Prop
  | q, done value => post q value
  | q, call c next => m.allows q c ∧ ∀ reply, Meets m post (m.observe q ⟨c, reply⟩) (next reply)

variable {m : Monitor Reply σ} {post post' : σ → α → Prop} {q : σ}

@[simp] theorem meets_done {value : α} :
    (done value : CallTree Call Reply α).Meets m post q ↔ post q value := Iff.rfl

@[simp] theorem meets_call {c : Call} {next : Reply c → CallTree Call Reply α} :
    (call c next).Meets m post q ↔
      m.allows q c ∧ ∀ reply, (next reply).Meets m post (m.observe q ⟨c, reply⟩) := Iff.rfl

@[simp] theorem meets_perform {c : Call} {post : σ → Reply c → Prop} :
    (perform c).Meets m post q ↔
      m.allows q c ∧ ∀ reply, post (m.observe q ⟨c, reply⟩) reply := Iff.rfl

@[simp] theorem meets_bind {program : CallTree Call Reply α}
    {rest : α → CallTree Call Reply β} {post : σ → β → Prop} :
    (program >>= rest).Meets m post q ↔
      program.Meets m (fun q' value => (rest value).Meets m post q') q := by
  induction program generalizing q with
  | done value => exact Iff.rfl
  | call c next ih =>
      have each (reply) := ih reply (q := m.observe q ⟨c, reply⟩)
      simp only [call_bind, meets_call, each]

@[simp] theorem meets_ite {p : Prop} [Decidable p] {first second : CallTree Call Reply α} :
    (if p then first else second).Meets m post q ↔
      if p then first.Meets m post q else second.Meets m post q := by
  split <;> exact Iff.rfl

@[simp] theorem meets_dite {p : Prop} [Decidable p] {first : p → CallTree Call Reply α}
    {second : ¬p → CallTree Call Reply α} :
    (if h : p then first h else second h).Meets m post q ↔
      if h : p then (first h).Meets m post q else (second h).Meets m post q := by
  split <;> exact Iff.rfl

theorem Meets.mono {program : CallTree Call Reply α} (meets : program.Meets m post q)
    (weaker : ∀ q value, post q value → post' q value) : program.Meets m post' q := by
  induction program generalizing q with
  | done value => exact weaker _ _ meets
  | call c next ih => exact ⟨meets.1, fun reply => ih reply (meets.2 reply)⟩

/-- It is enough to obey a monitor that keeps only a part of the state. -/
theorem Meets.of_part {τ : Type*} {part : Monitor Reply τ} {partPost : τ → α → Prop} (π : σ → τ)
    (allowed : ∀ q c, part.allows (π q) c → m.allows q c)
    (observed : ∀ q event, π (m.observe q event) = part.observe (π q) event)
    (ends : ∀ q value, partPost (π q) value → post q value)
    {program : CallTree Call Reply α} (meets : program.Meets part partPost (π q)) :
    program.Meets m post q := by
  induction program generalizing q with
  | done value => exact ends _ _ meets
  | call c next ih =>
      refine ⟨allowed _ _ meets.1, fun reply => ih reply ?_⟩
      rw [observed]
      exact meets.2 reply

/-- What the calls of a program preserve, the program preserves. -/
theorem Meets.of_calls {P : Call → Prop} {ends : α → Prop} {I : σ → Prop}
    (each : ∀ q c, I q → P c → m.allows q c ∧ ∀ reply, I (m.observe q ⟨c, reply⟩))
    {program : CallTree Call Reply α}
    (calls : program.Meets (Monitor.calls P) (fun _ value => ends value) ()) (start : I q) :
    program.Meets m (fun q value => I q ∧ ends value) q := by
  induction program generalizing q with
  | done value => exact ⟨start, calls⟩
  | call c next ih =>
      obtain ⟨allowed, kept⟩ := each q c start calls.1
      exact ⟨allowed, fun reply => ih reply (calls.2 reply) (kept reply)⟩

/-- What the monitor promises holds of every run: the postcondition of its end, and
    of every call made the permission at the history before it. -/
theorem Meets.run {program : CallTree Call Reply α} {past}
    (meets : program.Meets m post (past.foldl m.observe q)) (env : Environment Reply) :
    post ((program.run env past).1.foldl m.observe q) (program.run env past).2 ∧
      ∀ before event after, (program.run env past).1 = before ++ event :: after →
        past.length ≤ before.length → m.allows (before.foldl m.observe q) event.call := by
  induction program generalizing past with
  | done value =>
      refine ⟨meets, ?_⟩
      intro before event after split later
      have lengths : past.length = (before ++ event :: after).length := congrArg List.length split
      rw [List.length_append, List.length_cons] at lengths
      omega
  | call c next ih =>
      have onward := meets.2 (env past c)
      rw [← List.foldl_concat m.observe] at onward
      have ⟨ends, calls⟩ := ih _ onward
      refine ⟨ends, ?_⟩
      intro before event after split later
      rcases Nat.eq_or_lt_of_le later with same | longer
      · obtain ⟨events, grown⟩ := past_prefix env (past ++ [⟨c, env past c⟩]) (next (env past c))
        rw [List.append_assoc] at grown
        obtain ⟨rfl, rest⟩ := List.append_inj (grown.trans split) same
        obtain ⟨rfl, -⟩ := List.cons.inj rest
        exact meets.1
      · apply calls before event after split
        rw [List.length_append]
        exact longer

/-- The call that a program which obeys a monitor is about to make is allowed. -/
theorem Meets.head? {program : CallTree Call Reply α} (meets : program.Meets m post q) {c : Call}
    (about : program.head? = some c) : m.allows q c := by
  cases program with
  | done value => cases about
  | call c' next =>
      cases about
      exact meets.1

/-- A program that has not ended as it must is about to make a call. -/
theorem Meets.running {program : CallTree Call Reply α} (meets : program.Meets m post q)
    (unfinished : ∀ value, ¬post q value) : ∃ c, program.head? = some c ∧ m.allows q c := by
  cases program with
  | done value => exact absurd meets (unfinished value)
  | call c next => exact ⟨c, rfl, meets.1⟩

section Handle

variable {Call' : Type*} {Reply : Call → Type w} {Reply' : Call' → Type*}
  (handler : (c : Call) → CallTree Call' Reply' (Reply c))

/-- Every call replaced by the program that handles it. -/
def handle : CallTree Call Reply α → CallTree Call' Reply' α
  | done value => done value
  | call c next => handler c >>= fun reply => (next reply).handle

variable {m' : Monitor Reply' σ} {handler}

/-- A handled program obeys a monitor to which its handlers show the calls of another one
    that the program obeys. -/
theorem Meets.handle {m : Monitor Reply σ} {post : σ → α → Prop}
    (handles : ∀ q c, m.allows q c →
      (handler c).Meets m' (fun q' reply => q' = m.observe q ⟨c, reply⟩) q)
    {program : CallTree Call Reply α} {q : σ} (meets : program.Meets m post q) :
    (program.handle handler).Meets m' post q := by
  induction program generalizing q with
  | done value => exact meets
  | call c next ih =>
      apply meets_bind.mpr
      apply (handles q c meets.1).mono
      rintro q' reply rfl
      exact ih reply (meets.2 reply)

end Handle

/-- Whatever the replies are, no call of the program satisfies `P`. -/
def Avoids (P : Call → Prop) : CallTree Call Reply α → Prop
  | done _ => True
  | call c next => ¬P c ∧ ∀ reply, (next reply).Avoids P

theorem Avoids.run {P : Call → Prop} {program : CallTree Call Reply α}
    (avoids : program.Avoids P) (env : Environment Reply) (past) :
    ∃ events, (program.run env past).1 = past ++ events ∧ ∀ event ∈ events, ¬P event.call := by
  induction program generalizing past with
  | done value => exact ⟨[], (List.append_nil past).symm, nofun⟩
  | call c next ih =>
      obtain ⟨events, grown, clear⟩ := ih _ (avoids.2 (env past c)) (past ++ [⟨c, env past c⟩])
      refine ⟨⟨c, env past c⟩ :: events, ?_, List.forall_mem_cons.mpr ⟨avoids.1, clear⟩⟩
      rw [run_call, grown, List.append_assoc, List.singleton_append]

theorem Meets.avoids {P : Call → Prop} {program : CallTree Call Reply α}
    (meets : program.Meets m post q) {I : σ → Prop} (start : I q)
    (stays : ∀ q event, I q → I (m.observe q event))
    (refuses : ∀ q c, I q → m.allows q c → ¬P c) : program.Avoids P := by
  induction program generalizing q with
  | done value => trivial
  | call c next ih =>
      exact ⟨refuses q c start meets.1, fun reply => ih reply (meets.2 reply) (stays q _ start)⟩

end CallTree

/-- The monitor whose state is the history itself. -/
def Monitor.onHistory {Call : Type u} {Reply : Call → Type v}
    (allows : List (CallEvent Reply) → Call → Prop) : Monitor Reply (List (CallEvent Reply)) where
  allows := allows
  observe past event := past ++ [event]

section History

variable {Call : Type u} {Reply : Call → Type v}
  {allows : List (CallEvent Reply) → Call → Prop}

@[simp] theorem Monitor.onHistory_allows : (Monitor.onHistory allows).allows = allows := rfl

@[simp] theorem Monitor.onHistory_observe (past) (event : CallEvent Reply) :
    (Monitor.onHistory allows).observe past event = past ++ [event] := rfl

theorem Monitor.foldl_onHistory (past events : List (CallEvent Reply)) :
    events.foldl (Monitor.onHistory allows).observe past = past ++ events := by
  induction events generalizing past with
  | nil => exact (List.append_nil past).symm
  | cons event rest ih => simp [ih]

/-- `Meets.run` for a condition on histories. -/
theorem CallTree.Meets.run_history {α : Type w} {program : CallTree Call Reply α}
    {post : List (CallEvent Reply) → α → Prop}
    (meets : program.Meets (Monitor.onHistory allows) post []) (env : CallTree.Environment Reply) :
    post (program.run env []).1 (program.run env []).2 ∧
      ∀ before event after, (program.run env []).1 = before ++ event :: after →
        allows before event.call := by
  have start : program.Meets (Monitor.onHistory allows) post
      ([].foldl (Monitor.onHistory allows).observe []) := meets
  have ⟨ends, calls⟩ := start.run env
  simp only [Monitor.foldl_onHistory, List.nil_append, Monitor.onHistory_allows] at ends calls
  exact ⟨ends, fun before event after split => calls before event after split (Nat.zero_le _)⟩

/-- The part of a longer run that a program contributes. -/
theorem CallTree.Meets.run_after {α : Type w} {program : CallTree Call Reply α}
    {post : List (CallEvent Reply) → α → Prop}
    (meets : program.Meets (Monitor.onHistory allows) post []) (env : CallTree.Environment Reply)
    (past) : ∃ events value, program.run env past = (past ++ events, value) ∧ post events value := by
  have shifted := run_append env past [] program
  rw [List.append_nil] at shifted
  exact ⟨_, _, shifted, (meets.run_history _).1⟩

end History

section Streak

variable {ε : Type*}

/-- Somewhere in the history `n` consecutive events satisfy `p`. -/
def HasStreak (p : ε → Bool) (n : Nat) (history : List ε) : Prop :=
  ∃ events, events.length = n ∧ (∀ event ∈ events, p event) ∧ events <:+: history

/-- The number of events at the end of the history that satisfy `p`. -/
def streak (p : ε → Bool) (history : List ε) : Nat := (history.rtakeWhile p).length

theorem streak_concat (p : ε → Bool) (history : List ε) (event : ε) :
    streak p (history ++ [event]) = if p event then streak p history + 1 else 0 := by
  unfold streak
  rw [List.rtakeWhile_concat]
  split <;> simp

theorem not_hasStreak_nil (p : ε → Bool) (n : Nat) : ¬HasStreak p (n + 1) [] := by
  rintro ⟨events, count, -, inside⟩
  rw [List.infix_nil.mp inside] at count
  cases count

/-- A streak that ends a history is a suffix of the longest one. -/
theorem le_streak_iff {p : ε → Bool} {n : Nat} {history : List ε} :
    n ≤ streak p history ↔
      ∃ events, events.length = n ∧ (∀ event ∈ events, p event) ∧ events <:+ history := by
  constructor
  · intro long
    refine ⟨(history.rtakeWhile p).drop (streak p history - n), ?_, ?_, ?_⟩
    · rw [List.length_drop]
      exact Nat.sub_sub_self long
    · intro event member
      exact List.mem_rtakeWhile_imp (List.mem_of_mem_drop member)
    · exact (List.drop_suffix _ _).trans (List.rtakeWhile_suffix p history)
  · rintro ⟨events, rfl, all, before, rfl⟩
    induction events using List.reverseRecOn with
    | nil => exact Nat.zero_le _
    | append_singleton events event ih =>
        have earlier := ih fun event member => all event (List.mem_append_left _ member)
        have last : p event := all event (by simp)
        rw [← List.append_assoc, streak_concat, if_pos last, List.length_append]
        exact Nat.succ_le_succ earlier

/-- One more event completes a streak or leaves the ones there were. -/
theorem hasStreak_concat {p : ε → Bool} {n : Nat} {history : List ε} {event : ε} :
    HasStreak p n (history ++ [event]) ↔
      HasStreak p n history ∨ n ≤ streak p (history ++ [event]) := by
  rw [le_streak_iff]
  constructor
  · rintro ⟨events, count, all, inside⟩
    rcases List.infix_concat_iff.mp inside with atEnd | earlier
    · exact .inr ⟨events, count, all, atEnd⟩
    · exact .inl ⟨events, count, all, earlier⟩
  · rintro (⟨events, count, all, inside⟩ | ⟨events, count, all, atEnd⟩)
    · exact ⟨events, count, all, inside.trans (List.prefix_append _ _).isInfix⟩
    · exact ⟨events, count, all, atEnd.isInfix⟩

theorem hasStreak_cons {p : ε → Bool} {n : Nat} {history : List ε} {event : ε}
    (apart : ¬p event) : HasStreak p (n + 1) (event :: history) ↔ HasStreak p (n + 1) history := by
  constructor
  · rintro ⟨events, count, all, inside⟩
    rcases List.infix_cons_iff.mp inside with front | later
    · cases events with
      | nil => cases count
      | cons first rest =>
          obtain ⟨rfl, -⟩ := List.cons_prefix_cons.mp front
          exact absurd (all _ List.mem_cons_self) apart
    · exact ⟨events, count, all, later⟩
  · rintro ⟨events, count, all, inside⟩
    exact ⟨events, count, all, List.infix_cons inside⟩

/-- Events outside the streak change nothing at the end of a history either. -/
theorem hasStreak_append {p : ε → Bool} {n : Nat} {history later : List ε}
    (apart : ∀ event ∈ later, ¬p event) :
    HasStreak p (n + 1) (history ++ later) ↔ HasStreak p (n + 1) history := by
  induction later using List.reverseRecOn with
  | nil => rw [List.append_nil]
  | append_singleton later event ih =>
      have last : ¬p event := apart event (by simp)
      have earlier := ih fun event member => apart event (List.mem_append_left _ member)
      rw [← List.append_assoc, hasStreak_concat, streak_concat, if_neg last, earlier]
      simp

end Streak

end Foundation
