import Mathlib.Data.List.Basic
import Mathlib.Tactic.TypeStar

/-! # Resources that are released once

A history acquires a resource under a key, uses it and releases it. `Managed` says of
a finished history that whatever it acquired it released exactly once and did not use
afterwards. The lemmas read both notions off a history event by event.
-/

namespace Foundation

/-- Which events acquire, release and use the resource with a given key. -/
structure Resource (ε κ : Type*) where
  acquires : κ → ε → Prop
  releases : κ → ε → Prop
  uses : κ → ε → Prop

namespace Resource

variable {ε κ : Type*} (resource : Resource ε κ)

/-- One event releases the resource, none does so before it, and none uses it later. -/
def ReleasedOnce (key : κ) (history : List ε) : Prop :=
  ∃ held release later, history = held ++ release :: later ∧ resource.releases key release ∧
    (∀ event ∈ held, ¬resource.releases key event) ∧ ∀ event ∈ later, ¬resource.uses key event

/-- Everything that is acquired is released once. -/
def Managed (history : List ε) : Prop :=
  ∀ before acquire after key, history = before ++ acquire :: after →
    resource.acquires key acquire → resource.ReleasedOnce key after

variable {resource} {key : κ} {event : ε} {earlier history : List ε}

theorem not_releasedOnce (never : ∀ event ∈ history, ¬resource.releases key event) :
    ¬resource.ReleasedOnce key history := by
  rintro ⟨held, release, later, rfl, releases, -, -⟩
  exact never release (by simp) releases

theorem releasedOnce_cons (releases : resource.releases key event) :
    resource.ReleasedOnce key (event :: history) ↔
      ∀ event ∈ history, ¬resource.uses key event := by
  constructor
  · rintro ⟨held, release, later, split, -, before, unused⟩
    cases held with
    | nil =>
        obtain ⟨rfl, rfl⟩ := List.cons.inj split
        exact unused
    | cons first rest =>
        obtain ⟨rfl, -⟩ := List.cons.inj split
        exact absurd releases (before event List.mem_cons_self)
  · intro unused
    exact ⟨[], event, history, rfl, releases, List.forall_mem_nil _, unused⟩

theorem releasedOnce_cons_of_not (keeps : ¬resource.releases key event) :
    resource.ReleasedOnce key (event :: history) ↔ resource.ReleasedOnce key history := by
  constructor
  · rintro ⟨held, release, later, split, releases, before, unused⟩
    cases held with
    | nil =>
        obtain ⟨rfl, -⟩ := List.cons.inj split
        exact absurd releases keeps
    | cons first rest =>
        obtain ⟨-, rfl⟩ := List.cons.inj split
        exact ⟨rest, release, later, rfl, releases, fun event member =>
          before event (List.mem_cons_of_mem _ member), unused⟩
  · rintro ⟨held, release, later, rfl, releases, before, unused⟩
    exact ⟨event :: held, release, later, rfl, releases,
      List.forall_mem_cons.mpr ⟨keeps, before⟩, unused⟩

theorem releasedOnce_append (key : κ) (history : List ε)
    (keeps : ∀ event ∈ earlier, ¬resource.releases key event) :
    resource.ReleasedOnce key (earlier ++ history) ↔ resource.ReleasedOnce key history := by
  induction earlier with
  | nil => rfl
  | cons event rest ih =>
      obtain ⟨first, others⟩ := List.forall_mem_cons.mp keeps
      rw [List.cons_append, releasedOnce_cons_of_not first, ih others]

theorem managed_of_forall_not (never : ∀ event ∈ history, ∀ key, ¬resource.acquires key event) :
    resource.Managed history := by
  intro before acquire after key split acquires
  exact absurd acquires (never acquire (by simp [split]) key)

theorem managed_cons : resource.Managed (event :: history) ↔
    (∀ key, resource.acquires key event → resource.ReleasedOnce key history) ∧
      resource.Managed history := by
  constructor
  · intro managed
    refine ⟨fun key acquires => managed [] event history key rfl acquires, ?_⟩
    intro before acquire after key split acquires
    exact managed (event :: before) acquire after key (congrArg (event :: ·) split) acquires
  · rintro ⟨first, rest⟩ before acquire after key split acquires
    cases before with
    | nil =>
        obtain ⟨rfl, rfl⟩ := List.cons.inj split
        exact first key acquires
    | cons other before =>
        obtain ⟨-, split⟩ := List.cons.inj split
        exact rest before acquire after key split acquires

theorem managed_cons_of_not (never : ∀ key, ¬resource.acquires key event) :
    resource.Managed (event :: history) ↔ resource.Managed history := by
  rw [managed_cons, and_iff_right fun key acquires => absurd acquires (never key)]

end Resource

end Foundation
