import Mathlib.Data.List.Sublists
import Mathlib.Logic.Function.Basic

/-! # Broadcasting the newest item

A producer overwrites a mailbox of one item. A dispatcher takes items out of it and
keeps the last as a snapshot. Any number of readers look whether the snapshot is what
they sent last, and send it when it is not. Each may miss items, but none gets them out
of order.
-/

namespace Foundation

/-- The item that a reader has copied and not sent yet, and the items that it has sent. -/
structure Reader (α : Type) where
  copied : Option α
  sent : List α

/-- Everything made and stored so far, with the items on their way from the one to the other. -/
structure Broadcast (ι α : Type) where
  made : List α
  queued : Option α
  held : Option α
  stored : List α
  reader : ι → Reader α
  flow : (stored ++ (held.toList ++ queued.toList)).Sublist made
  reads : ∀ i, ((reader i).sent ++ (reader i).copied.toList).Sublist stored

namespace Broadcast

variable {ι α : Type}

def initial : Broadcast ι α where
  made := []
  queued := none
  held := none
  stored := []
  reader := fun _ => ⟨none, []⟩
  flow := .slnil
  reads := fun _ => .slnil

/-- The item replaces the one in the mailbox. -/
def make (b : Broadcast ι α) (item : α) : Broadcast ι α where
  made := b.made ++ [item]
  queued := some item
  held := b.held
  stored := b.stored
  reader := b.reader
  flow := by
    have rest : (b.stored ++ b.held.toList).Sublist b.made :=
      ((List.sublist_append_left _ _).append_left _).trans b.flow
    simpa using rest.append_right [item]
  reads := b.reads

/-- The dispatcher takes the item out of the mailbox. -/
def take (b : Broadcast ι α) : Broadcast ι α where
  made := b.made
  queued := none
  held := b.queued
  stored := b.stored
  reader := b.reader
  flow := by
    have rest : (b.stored ++ b.queued.toList).Sublist b.made :=
      ((List.sublist_append_right _ _).append_left _).trans b.flow
    simpa using rest
  reads := b.reads

/-- The dispatcher replaces the snapshot. -/
def store (b : Broadcast ι α) : Broadcast ι α where
  made := b.made
  queued := b.queued
  held := none
  stored := b.stored ++ b.held.toList
  reader := b.reader
  flow := by simpa using b.flow
  reads := fun i => (b.reads i).trans (List.sublist_append_left _ _)

theorem stored_sublist (b : Broadcast ι α) : b.stored.Sublist b.made :=
  (List.sublist_append_left _ _).trans b.flow

theorem sent_sublist (b : Broadcast ι α) (i : ι) : (b.reader i).sent.Sublist b.made :=
  ((List.sublist_append_left _ _).trans (b.reads i)).trans b.stored_sublist

section News

variable [DecidableEq α]

/-- What a reader that looks at the snapshot copies. -/
def news (b : Broadcast ι α) (i : ι) : Option α :=
  b.stored.getLast?.filter fun item => (b.reader i).sent.getLast? ≠ some item

theorem news_sublist (b : Broadcast ι α) (i : ι) :
    ((b.reader i).sent ++ (b.news i).toList).Sublist b.stored := by
  have sent : (b.reader i).sent.Sublist b.stored := (List.sublist_append_left _ _).trans (b.reads i)
  cases found : b.news i with
  | none => simpa using sent
  | some item =>
      obtain ⟨last, new⟩ := Option.filter_eq_some_iff.mp found
      obtain ⟨earlier, split⟩ := List.getLast?_eq_some_iff.mp last
      -- the snapshot is not among the items sent, as it is not the last of them
      rw [split] at sent ⊢
      obtain ⟨first, rest, parts, before, final⟩ := List.sublist_append_iff.mp sent
      rcases List.sublist_singleton.mp final with rfl | rfl
      · rw [parts, List.append_nil]
        exact before.append_right [item]
      · rw [parts] at new
        simp at new

/-- A reader copies nothing only when it has sent the snapshot, if there is one. -/
theorem news_eq_none {b : Broadcast ι α} {i : ι} (nothing : b.news i = none) :
    b.stored.getLast? = none ∨ (b.reader i).sent.getLast? = b.stored.getLast? := by
  cases last : b.stored.getLast? with
  | none => exact .inl rfl
  | some item =>
      rw [news, last] at nothing
      exact .inr (by simpa using nothing)

end News

variable [DecidableEq ι]

/-- One reader moves on. -/
def move (b : Broadcast ι α) (i : ι) (reader : Reader α)
    (reads : (reader.sent ++ reader.copied.toList).Sublist b.stored) : Broadcast ι α where
  made := b.made
  queued := b.queued
  held := b.held
  stored := b.stored
  reader := Function.update b.reader i reader
  flow := b.flow
  reads := by
    intro j
    rcases Decidable.eq_or_ne j i with rfl | other
    · rwa [Function.update_self]
    · rw [Function.update_of_ne other]
      exact b.reads j

/-- A new client has been sent nothing. -/
def connect (b : Broadcast ι α) (i : ι) : Broadcast ι α := b.move i ⟨none, []⟩ (List.nil_sublist _)

def check [DecidableEq α] (b : Broadcast ι α) (i : ι) : Broadcast ι α :=
  b.move i ⟨b.news i, (b.reader i).sent⟩ (b.news_sublist i)

def send (b : Broadcast ι α) (i : ι) : Broadcast ι α :=
  b.move i ⟨none, (b.reader i).sent ++ (b.reader i).copied.toList⟩ (by simpa using b.reads i)

/-- Sending has failed. -/
def fail (b : Broadcast ι α) (i : ι) : Broadcast ι α :=
  b.move i ⟨none, (b.reader i).sent⟩ (by simpa using (List.sublist_append_left _ _).trans (b.reads i))

end Broadcast

end Foundation
