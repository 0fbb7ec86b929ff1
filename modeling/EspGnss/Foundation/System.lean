import Mathlib.Data.List.Basic
import Mathlib.Data.List.Induction

/-! # Labelled transition systems with event histories

A system moves by atomic steps. Each step names the action that was scheduled
and emits a list of observable events; a run is recorded as the concatenation
of those lists. Invariants relate the history so far to the state reached, so
facts about whole runs need no auxiliary field in the state.
-/

namespace Foundation

universe u v w

/-- States, scheduled actions and observable events. -/
structure System (σ : Type u) (α : Type v) (ε : Type w) where
  init : σ → Prop
  step : σ → α → σ → List ε → Prop

namespace System

variable {σ : Type u} {α : Type v} {ε : Type w}

/-- `Exec sys history s`: some run from an initial state emits `history` and
    ends in `s`. -/
inductive Exec (sys : System σ α ε) : List ε → σ → Prop where
  | start {s} : sys.init s → Exec sys [] s
  | next {history s a s' events} :
      Exec sys history s → sys.step s a s' events → Exec sys (history ++ events) s'

/-- Induction over runs: what the initial states satisfy and every step of a
    reachable state preserves holds after every run. -/
theorem Exec.invariant {sys : System σ α ε} {I : List ε → σ → Prop}
    (start : ∀ s, sys.init s → I [] s)
    (preserve : ∀ history s a s' events, sys.Exec history s → I history s →
      sys.step s a s' events → I (history ++ events) s')
    {history s} (run : sys.Exec history s) : I history s := by
  induction run with
  | start first => exact start _ first
  | next earlier step ih => exact preserve _ _ _ _ _ earlier ih step

/-- A relation between earlier and later events holds over a whole run once
    every step respects it towards the history before it. -/
theorem Exec.pairwise {sys : System σ α ε} {R : ε → ε → Prop}
    (within : ∀ history s a s' events, sys.Exec history s →
      sys.step s a s' events → events.Pairwise R)
    (across : ∀ history s a s' events, sys.Exec history s →
      sys.step s a s' events → ∀ old ∈ history, ∀ new ∈ events, R old new)
    {history s} (run : sys.Exec history s) : history.Pairwise R := by
  induction run with
  | start => exact List.Pairwise.nil
  | next earlier step ih =>
      exact List.pairwise_append.mpr
        ⟨ih, within _ _ _ _ _ earlier step, across _ _ _ _ _ earlier step⟩

/-- What a step emits alone has nothing before or after it. -/
theorem split_singleton {x y : ε} {before after : List ε} (split : [x] = before ++ y :: after) :
    before = [] ∧ y = x ∧ after = [] := by
  cases before with
  | nil =>
      obtain ⟨rfl, rfl⟩ := List.cons.inj split
      exact ⟨rfl, rfl, rfl⟩
  | cons other others => cases others <;> cases split

/-- What every step emits only after a suitable history is so placed in the
    history of every run. -/
theorem Exec.placed {sys : System σ α ε} {P : List ε → ε → Prop}
    (each : ∀ history s a s' events, sys.Exec history s → sys.step s a s' events →
      ∀ before e after, events = before ++ e :: after → P (history ++ before) e)
    {history s} (run : sys.Exec history s) :
    ∀ before e after, history = before ++ e :: after → P before e := by
  induction run with
  | start =>
      intro before e after split
      cases before <;> cases split
  | @next history s a s' events earlier step ih =>
      intro before e after split
      rcases List.append_eq_append_iff.mp split with ⟨more, rfl, later⟩ | ⟨more, earlierPart, rest⟩
      · exact each _ _ _ _ _ earlier step more e after later
      · cases more with
        | nil =>
            rw [List.append_nil] at earlierPart
            have placed := each _ _ _ _ _ earlier step [] e after rest.symm
            rw [List.append_nil, earlierPart] at placed
            exact placed
        | cons first others =>
            obtain ⟨same, -⟩ := List.cons.inj rest
            rw [← same] at earlierPart
            exact ih before e others earlierPart

/-- The same system with every step that fails `ok` removed: its runs are the
    runs all of whose steps meet `ok`. -/
def guarded (sys : System σ α ε) (ok : σ → α → Prop) : System σ α ε where
  init := sys.init
  step s a s' events := ok s a ∧ sys.step s a s' events

theorem Exec.of_guarded {sys : System σ α ε} {ok : σ → α → Prop} {history s}
    (run : (sys.guarded ok).Exec history s) : sys.Exec history s := by
  induction run with
  | start first => exact .start first
  | next _ step ih => exact ih.next step.2

theorem Exec.guarded_mono {sys : System σ α ε} {ok ok' : σ → α → Prop} {history s}
    (weaker : ∀ s a, ok s a → ok' s a) (run : (sys.guarded ok).Exec history s) :
    (sys.guarded ok').Exec history s := by
  induction run with
  | start first => exact .start first
  | @next history s a s' events _ step ih =>
      have taken : (sys.guarded ok').step s a s' events := ⟨weaker s a step.1, step.2⟩
      exact ih.next taken

/-- The same system with each step recorded as its action and what it emits. -/
def traced (sys : System σ α ε) : System σ α (α × List ε) where
  init := sys.init
  step s a s' steps := ∃ events, sys.step s a s' events ∧ steps = [(a, events)]

theorem Exec.of_traced {sys : System σ α ε} {trace s} (run : sys.traced.Exec trace s) :
    sys.Exec (trace.flatMap Prod.snd) s := by
  induction run with
  | start first => exact .start first
  | next _ step ih =>
      obtain ⟨events, taken, rfl⟩ := step
      simpa using ih.next taken

theorem Exec.exists_traced {sys : System σ α ε} {history s} (run : sys.Exec history s) :
    ∃ trace, sys.traced.Exec trace s ∧ trace.flatMap Prod.snd = history := by
  induction run with
  | start first => exact ⟨[], .start first, rfl⟩
  | @next history s a s' events _ step ih =>
      obtain ⟨trace, run, rfl⟩ := ih
      have taken : sys.traced.step s a s' [(a, events)] := ⟨events, step, rfl⟩
      exact ⟨trace ++ [(a, events)], run.next taken, by simp⟩

/-- The system of an executable step function: `none` means that the action is
    not enabled. -/
def ofFunction (start : σ) (next : σ → α → Option (σ × List ε)) : System σ α ε where
  init s := s = start
  step s a s' events := next s a = some (s', events)

/-- Run a schedule, collecting what it emits. -/
def replay (next : σ → α → Option (σ × List ε)) : σ → List α → Option (σ × List ε)
  | s, [] => some (s, [])
  | s, a :: rest => do
      let (s', events) ← next s a
      let (last, later) ← replay next s' rest
      return (last, events ++ later)

theorem Exec.replay_from {start : σ} {next : σ → α → Option (σ × List ε)} {history s}
    (run : (ofFunction start next).Exec history s) {schedule : List α} {last events}
    (played : replay next s schedule = some (last, events)) :
    (ofFunction start next).Exec (history ++ events) last := by
  induction schedule generalizing history s events with
  | nil =>
      obtain ⟨rfl, rfl⟩ : s = last ∧ [] = events := by simpa [replay] using played
      simpa using run
  | cons a rest ih =>
      simp only [replay, Option.bind_eq_bind, Option.bind_eq_some_iff, Option.pure_def,
        Option.some.injEq, Prod.mk.injEq, Prod.exists] at played
      obtain ⟨s', first, stepped, last', later, continued, rfl, rfl⟩ := played
      have reached : (ofFunction start next).Exec (history ++ first) s' := run.next stepped
      simpa only [List.append_assoc] using ih reached continued

theorem replay_append {next : σ → α → Option (σ × List ε)} {s s' s'' : σ} {first second : List α}
    {events later : List ε} (played : replay next s first = some (s', events))
    (continued : replay next s' second = some (s'', later)) :
    replay next s (first ++ second) = some (s'', events ++ later) := by
  induction first generalizing s events with
  | nil =>
      cases played
      exact continued
  | cons a rest ih =>
      simp only [replay, Option.bind_eq_bind, Option.bind_eq_some_iff, Option.pure_def, Option.some.injEq,
        Prod.mk.injEq, Prod.exists] at played
      obtain ⟨s₁, here, stepped, last, behind, onward, rfl, rfl⟩ := played
      simp [replay, stepped, ih onward]

/-- A schedule that replays from the initial state is a run. -/
theorem Exec.of_replay {start : σ} {next : σ → α → Option (σ × List ε)} {schedule : List α}
    {last events} (played : replay next start schedule = some (last, events)) :
    (ofFunction start next).Exec events last := by
  simpa using Exec.replay_from (.start rfl) played

theorem Exec.of_replay_isSome {start : σ} {next : σ → α → Option (σ × List ε)} {schedule : List α}
    (finished : (replay next start schedule).isSome = true) :
    (ofFunction start next).Exec ((replay next start schedule).get finished).2
      ((replay next start schedule).get finished).1 :=
  of_replay (Option.some_get finished).symm

/-- A schedule that replays with every step meeting `ok` is a guarded run. -/
theorem Exec.guarded_of_replay {start : σ} {next : σ → α → Option (σ × List ε)}
    {ok : σ → α → Prop} [∀ s a, Decidable (ok s a)] {schedule : List α} {last events}
    (played : replay (fun s a => if ok s a then next s a else none) start schedule =
      some (last, events)) : ((ofFunction start next).guarded ok).Exec events last := by
  have run := Exec.of_replay played
  generalize events = history at run
  clear played
  induction run with
  | start first => exact .start first
  | @next history s a s' events _ step ih =>
      change (if ok s a then next s a else none) = some (s', events) at step
      split at step
      · rename_i met
        have taken : ((ofFunction start next).guarded ok).step s a s' events := ⟨met, step⟩
        exact ih.next taken
      · cases step

theorem Exec.guarded_of_replay_isSome {start : σ} {next : σ → α → Option (σ × List ε)}
    {ok : σ → α → Prop} [∀ s a, Decidable (ok s a)] {schedule : List α}
    (finished : (replay (fun s a => if ok s a then next s a else none) start schedule).isSome = true) :
    ((ofFunction start next).guarded ok).Exec
      ((replay (fun s a => if ok s a then next s a else none) start schedule).get finished).2
      ((replay (fun s a => if ok s a then next s a else none) start schedule).get finished).1 :=
  guarded_of_replay (Option.some_get finished).symm

end System

section Since

variable {ε : Type*} {opens closes : ε → Prop} {history : List ε} {event : ε}

/-- An event that opens has not been followed by one that closes. -/
def Since (opens closes : ε → Prop) (history : List ε) : Prop :=
  ∃ before event after, history = before ++ event :: after ∧ opens event ∧ ∀ later ∈ after, ¬closes later

theorem since_opened (opened : opens event) : Since opens closes (history ++ [event]) :=
  ⟨history, event, [], rfl, opened, List.forall_mem_nil _⟩

theorem Since.snoc (since : Since opens closes history) (other : ¬closes event) :
    Since opens closes (history ++ [event]) := by
  obtain ⟨before, first, after, rfl, opened, quiet⟩ := since
  refine ⟨before, first, after ++ [event], by simp, opened, ?_⟩
  exact List.forall_mem_append.mpr ⟨quiet, List.forall_mem_singleton.mpr other⟩

/-- The last event either opens or leaves an earlier opening unclosed. -/
theorem since_snoc_iff :
    Since opens closes (history ++ [event]) ↔ opens event ∨ Since opens closes history ∧ ¬closes event := by
  constructor
  · intro since
    obtain ⟨before, first, after, split, opened, quiet⟩ := since
    rcases List.eq_nil_or_concat' after with rfl | ⟨later, last, rfl⟩
    · obtain ⟨-, last⟩ := List.append_inj' split rfl
      obtain rfl := List.singleton_inj.mp last
      exact .inl opened
    · rw [← List.cons_append, ← List.append_assoc] at split
      obtain ⟨rfl, same⟩ := List.append_inj' split rfl
      obtain rfl := List.singleton_inj.mp same
      obtain ⟨earlier, notClosing⟩ := List.forall_mem_append.mp quiet
      exact .inr ⟨⟨before, first, later, rfl, opened, earlier⟩, notClosing _ (List.mem_singleton_self _)⟩
  · intro last
    rcases last with opened | ⟨since, other⟩
    · exact since_opened opened
    · exact since.snoc other

theorem not_since_nil : ¬Since opens closes ([] : List ε) := by
  intro since
  obtain ⟨before, first, after, split, -⟩ := since
  cases before <;> cases split

theorem since_iff_foldl [DecidablePred opens] [DecidablePred closes] (history : List ε) :
    history.foldl (fun since event => decide (opens event ∨ since = true ∧ ¬closes event)) false = true ↔
      Since opens closes history := by
  induction history using List.reverseRecOn with
  | nil => simpa using not_since_nil
  | append_singleton history event ih =>
      rw [List.foldl_append, since_snoc_iff, ← ih]
      exact decide_eq_true_iff

instance decidableSince [DecidablePred opens] [DecidablePred closes] : DecidablePred (Since opens closes) :=
  fun history => decidable_of_iff _ (since_iff_foldl history)

end Since

end Foundation
