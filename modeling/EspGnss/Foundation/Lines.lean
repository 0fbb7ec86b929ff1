import Mathlib.Data.List.Infix
import Mathlib.Tactic.TypeStar

/-! # Looking for a text in lines

A text without the separator is found in a sequence of lines exactly where one of the lines
contains it, and behind a label only in what is labelled, when nothing of it can begin in the label.
-/

namespace Foundation

variable {α β : Type*}

/-- The lines, each with the separator behind it. -/
def lines (sep : α) (parts : List (List α)) : List α := parts.flatMap (· ++ [sep])

/-- The text neither lies in the label nor begins in it. -/
def Foreign (needle label : List α) : Prop :=
  ¬needle <:+: label ∧ ∀ border ∈ label.tails, border <+: needle → border = []

instance [DecidableEq α] (needle label : List α) : Decidable (Foreign needle label) :=
  inferInstanceAs (Decidable (_ ∧ _))

/-- More text does not make it less foreign. -/
theorem Foreign.append {needle label : List α} (foreign : Foreign needle label) (more : List α) :
    Foreign (needle ++ more) label := by
  constructor
  · intro inside
    exact foreign.1 ((List.prefix_append needle more).isInfix.trans inside)
  · intro border atEnd begins
    rcases List.prefix_or_prefix_of_prefix begins (List.prefix_append needle more) with short | long
    · exact foreign.2 border atEnd short
    · exact absurd (long.isInfix.trans ((List.mem_tails _ _).mp atEnd).isInfix) foreign.1

/-- What `find` makes of the first place in the text where it finds something. -/
def firstMatch (find : List α → Option β) (text : List α) : Option β := text.tails.findSome? find

end Foundation
