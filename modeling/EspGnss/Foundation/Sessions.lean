import EspGnss.Foundation.System
import Mathlib.Data.Fintype.Card
import Mathlib.Logic.Function.Basic

/-! # Sessions

Parties open and close sessions. Where each party closes what it has opened before it opens
again, a history has opened as many sessions as it has closed and as are still open.
-/

namespace Foundation

inductive SessionEvent where
  | opened
  | closed
  deriving DecidableEq, Repr

variable {ε ι : Type*} (view : ε → Option (ι × SessionEvent))

/-- The party has opened a session and not closed it. -/
def InSession (i : ι) (history : List ε) : Prop :=
  Since (fun e => view e = some (i, .opened)) (fun e => view e = some (i, .closed)) history

/-- A party opens a session only when it has none, and closes only one that it has. -/
def SessionPermits (history : List ε) (e : ε) : Prop :=
  ∀ i kind, view e = some (i, kind) → (InSession view i history ↔ kind = .closed)

def ProperSessions (history : List ε) : Prop :=
  ∀ before e after, history = before ++ e :: after → SessionPermits view before e

/-- How many events of the history are of this kind. -/
def sessionCount (kind : SessionEvent) (history : List ε) : Nat :=
  history.countP fun e => (view e).any (·.2 = kind)

variable {view} {i : ι} {history : List ε} {e : ε} {kind : SessionEvent}

theorem inSession_snoc : InSession view i (history ++ [e]) ↔
    view e = some (i, .opened) ∨ InSession view i history ∧ view e ≠ some (i, .closed) :=
  since_snoc_iff

theorem not_inSession_nil : ¬InSession view i [] := not_since_nil

theorem inSession_snoc_none (other : view e = none) : InSession view i (history ++ [e]) ↔ InSession view i history := by
  simp [inSession_snoc, other]

theorem sessionCount_snoc : sessionCount view kind (history ++ [e]) =
    sessionCount view kind history + if (view e).any (·.2 = kind) then 1 else 0 := by
  simp [sessionCount, List.countP_append, List.countP_singleton]

theorem properSessions_nil : ProperSessions view [] := by
  intro before e after split
  cases before <;> cases split

theorem properSessions_snoc (proper : ProperSessions view history) (permits : SessionPermits view history e) :
    ProperSessions view (history ++ [e]) := by
  intro before other after split
  rcases List.eq_nil_or_concat' after with rfl | ⟨rest, last, rfl⟩
  · obtain ⟨rfl, same⟩ := List.append_inj' split rfl
    cases same
    exact permits
  · rw [← List.cons_append, ← List.append_assoc] at split
    obtain ⟨rfl, -⟩ := List.append_inj' split rfl
    exact proper before other rest rfl

theorem ProperSessions.of_snoc (proper : ProperSessions view (history ++ [e])) :
    ProperSessions view history ∧ SessionPermits view history e := by
  constructor
  · rintro before other after rfl
    exact proper before other (after ++ [e]) (by simp)
  · exact proper history e [] rfl

variable [DecidableEq ι]

instance (i : ι) : DecidablePred (InSession view i) := fun history => decidableSince history

section Open

variable [Fintype ι]

variable (view) in
/-- The parties that have a session. -/
def openSessions (history : List ε) : Finset ι := {i | InSession view i history}

theorem mem_openSessions : i ∈ openSessions view history ↔ InSession view i history := by
  simp [openSessions]

theorem openSessions_nil : openSessions view ([] : List ε) = ∅ := by
  simp [openSessions, not_inSession_nil]

theorem openSessions_other (other : view e = none) : openSessions view (history ++ [e]) = openSessions view history := by
  ext j
  rw [mem_openSessions, mem_openSessions, inSession_snoc_none other]

/-- One opening is one session more. -/
theorem card_opened (permits : SessionPermits view history e) (opened : view e = some (i, .opened)) :
    (openSessions view (history ++ [e])).card = (openSessions view history).card + 1 := by
  have absent : i ∉ openSessions view history := by
    rw [mem_openSessions, permits i .opened opened]
    nofun
  have more : openSessions view (history ++ [e]) = insert i (openSessions view history) := by
    ext j
    simp [mem_openSessions, inSession_snoc, opened, eq_comm]
  rw [more, Finset.card_insert_of_notMem absent]

/-- One closing is one session less. -/
theorem card_closed (permits : SessionPermits view history e) (closed : view e = some (i, .closed)) :
    (openSessions view (history ++ [e])).card + 1 = (openSessions view history).card := by
  have present : i ∈ openSessions view history := by
    rw [mem_openSessions, permits i .closed closed]
  have fewer : openSessions view (history ++ [e]) = (openSessions view history).erase i := by
    ext j
    simp [mem_openSessions, inSession_snoc, closed, and_comm, eq_comm]
  rw [fewer, Finset.card_erase_add_one present]

/-- What has been opened has been closed or is open. -/
theorem ProperSessions.count_eq (proper : ProperSessions view history) :
    sessionCount view .opened history = sessionCount view .closed history + (openSessions view history).card := by
  induction history using List.reverseRecOn with
  | nil => simp [sessionCount, openSessions_nil]
  | append_singleton history e ih =>
      obtain ⟨before, permits⟩ := proper.of_snoc
      have balance := ih before
      rw [sessionCount_snoc, sessionCount_snoc]
      cases seen : view e with
      | none =>
          rw [openSessions_other seen]
          simpa using balance
      | some event =>
          obtain ⟨i, kind⟩ := event
          cases kind with
          | opened =>
              have more := card_opened permits seen
              simp
              omega
          | closed =>
              have fewer := card_closed permits seen
              simp
              omega

end Open

variable (view) in
/-- Each party keeps to its sessions by a flag of its own. -/
structure SessionAccount (flags : ι → Bool) (history : List ε) : Prop where
  tracks : ∀ i, flags i = true ↔ InSession view i history
  proper : ProperSessions view history

variable {flags : ι → Bool}

omit [DecidableEq ι] in
theorem SessionAccount.other (account : SessionAccount view flags history) (other : view e = none) :
    SessionAccount view flags (history ++ [e]) where
  tracks i := by
    rw [inSession_snoc_none other]
    exact account.tracks i
  proper := by
    apply properSessions_snoc account.proper
    simp [SessionPermits, other]

theorem SessionAccount.event (account : SessionAccount view flags history) (seen : view e = some (i, kind))
    (ready : flags i = decide (kind = .closed)) :
    SessionAccount view (Function.update flags i (decide (kind = .opened))) (history ++ [e]) where
  tracks j := by
    have known := account.tracks j
    rcases Decidable.eq_or_ne j i with rfl | apart
    · cases kind <;> simp [inSession_snoc, seen]
    · simp [inSession_snoc, seen, apart, apart.symm, known]
  proper := by
    apply properSessions_snoc account.proper
    intro j kind' same
    obtain ⟨rfl, rfl⟩ := Prod.mk.inj (Option.some.inj (seen.symm.trans same))
    rw [← account.tracks, ready, decide_eq_true_iff]

end Foundation
