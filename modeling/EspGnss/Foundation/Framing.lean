import Mathlib.Data.List.Infix

/-! # Delimited frames in a stream

A frame starts with an opening symbol, ends with a closing symbol, has neither
in between and is not longer than a capacity. `frames` enumerates every
contiguous part of a finished stream that is one, `delimited` also those that
are too long; `scan` and `emit` are the one-symbol-at-a-time recogniser that
keeps only the frame still open. It finds the same frames on every stream.
-/

namespace Foundation

/-- How frames are delimited, and how long they may be. -/
structure Framing (α : Type) where
  opening : α
  closing : α
  capacity : Nat
  distinct : opening ≠ closing
  room : 0 < capacity

namespace Framing

variable {α : Type} (f : Framing α)

def IsFrame (part : List α) : Prop :=
  ∃ inner, part = f.opening :: (inner ++ [f.closing]) ∧
    f.opening ∉ inner ∧ f.closing ∉ inner ∧ part.length ≤ f.capacity

/-- A frame of any length. -/
def IsDelimited (part : List α) : Prop :=
  ∃ inner, part = f.opening :: (inner ++ [f.closing]) ∧ f.opening ∉ inner ∧ f.closing ∉ inner

/-- The beginning of a frame that has not been closed yet. -/
def IsOpen (part : List α) : Prop :=
  ∃ inner, part = f.opening :: inner ∧
    f.opening ∉ inner ∧ f.closing ∉ inner ∧ part.length ≤ f.capacity

theorem isOpen_snoc (part : List α) (x : α) :
    f.IsOpen (part ++ [x]) ↔
      (part = [] ∧ x = f.opening) ∨
        (f.IsOpen part ∧ x ≠ f.opening ∧ x ≠ f.closing ∧ part.length < f.capacity) := by
  cases part with
  | nil =>
      have room := f.room
      simp [IsOpen]
      omega
  | cons first inner =>
      simp only [IsOpen, List.cons_append, List.cons.injEq, List.length_cons, List.length_append,
        List.length_nil]
      constructor
      · rintro ⟨whole, ⟨rfl, rfl⟩, noOpening, noClosing, fits⟩
        simp only [List.mem_append, List.mem_singleton, not_or] at noOpening noClosing
        exact .inr ⟨⟨inner, ⟨rfl, rfl⟩, noOpening.1, noClosing.1, by omega⟩,
          Ne.symm noOpening.2, Ne.symm noClosing.2, by omega⟩
      · rintro (⟨absurd, -⟩ | ⟨⟨_, ⟨rfl, rfl⟩, noOpening, noClosing, -⟩, notOpening, notClosing, fits⟩)
        · cases absurd
        · refine ⟨inner ++ [x], ⟨rfl, rfl⟩, ?_, ?_, by omega⟩ <;>
            simp only [List.mem_append, List.mem_singleton, not_or]
          · exact ⟨noOpening, Ne.symm notOpening⟩
          · exact ⟨noClosing, Ne.symm notClosing⟩

theorem isFrame_snoc (part : List α) (x : α) :
    f.IsFrame (part ++ [x]) ↔ f.IsOpen part ∧ x = f.closing ∧ part.length < f.capacity := by
  constructor
  · rintro ⟨inner, shape, noOpening, noClosing, fits⟩
    rw [← List.cons_append] at shape
    obtain ⟨rfl, same⟩ := List.append_inj' shape rfl
    obtain rfl := List.singleton_inj.mp same
    have short : (f.opening :: inner).length < f.capacity := by
      simp only [List.cons_append, List.length_cons, List.length_append, List.length_nil] at fits ⊢
      omega
    exact ⟨⟨inner, rfl, noOpening, noClosing, Nat.le_of_lt short⟩, rfl, short⟩
  · rintro ⟨⟨inner, rfl, noOpening, noClosing, -⟩, rfl, short⟩
    refine ⟨inner, rfl, noOpening, noClosing, ?_⟩
    simp only [List.cons_append, List.length_cons, List.length_append, List.length_nil] at short ⊢
    omega

theorem isFrame_iff (part : List α) : f.IsFrame part ↔ f.IsDelimited part ∧ part.length ≤ f.capacity := by
  simp only [IsFrame, IsDelimited]
  constructor
  · rintro ⟨inner, shape, noOpening, noClosing, fits⟩
    exact ⟨⟨inner, shape, noOpening, noClosing⟩, fits⟩
  · rintro ⟨⟨inner, shape, noOpening, noClosing⟩, fits⟩
    exact ⟨inner, shape, noOpening, noClosing, fits⟩

variable [DecidableEq α]

instance : DecidablePred f.IsDelimited := fun part =>
  decidable_of_iff (part = f.opening :: (part.tail.dropLast ++ [f.closing]) ∧
      f.opening ∉ part.tail.dropLast ∧ f.closing ∉ part.tail.dropLast) <| by
    constructor
    · intro direct
      exact ⟨_, direct⟩
    · rintro ⟨inner, rfl, rest⟩
      simpa using rest

instance : DecidablePred f.IsFrame := fun part => decidable_of_iff _ (f.isFrame_iff part).symm

/-- Every contiguous part of the stream that is a frame, in the order in which
    the frames end. -/
def frames (stream : List α) : List (List α) :=
  (stream.inits.flatMap List.tails).filter f.IsFrame

/-- The same with the frames that exceed the capacity. -/
def delimited (stream : List α) : List (List α) :=
  (stream.inits.flatMap List.tails).filter f.IsDelimited

theorem frames_eq_filter (stream : List α) :
    f.frames stream = (f.delimited stream).filter fun part => part.length ≤ f.capacity := by
  rw [delimited, List.filter_filter, frames]
  apply List.filter_congr
  intro part _
  rw [← Bool.decide_and, decide_eq_decide, isFrame_iff, and_comm]

@[simp] theorem delimited_nil : f.delimited [] = [] := by
  have notEmpty : ¬ f.IsDelimited [] := by
    rintro ⟨inner, impossible, -⟩
    cases impossible
  simp [delimited, notEmpty]

/-- What is open after one more symbol. -/
def scan (line : Option (List α)) (x : α) : Option (List α) :=
  if x = f.opening then some [x]
  else match line with
    | none => none
    | some part =>
        if x = f.closing then none
        else if part.length < f.capacity then some (part ++ [x]) else none

/-- The frame that one more symbol completes. -/
def emit (line : Option (List α)) (x : α) : Option (List α) :=
  match line with
  | none => none
  | some part => if x = f.closing ∧ part.length < f.capacity then some (part ++ [x]) else none

section Symbols

variable {line : Option (List α)} {part : List α} {x : α}

theorem scan_opening : f.scan line f.opening = some [f.opening] := if_pos rfl

theorem emit_opening : f.emit line f.opening = none := by
  cases line with
  | none => rfl
  | some part => simp [emit, f.distinct]

theorem scan_outside (notOpening : x ≠ f.opening) : f.scan none x = none := if_neg notOpening

theorem scan_full (notOpening : x ≠ f.opening) (full : f.capacity ≤ part.length) : f.scan (some part) x = none := by
  simp [scan, notOpening, Nat.not_lt.mpr full]

theorem emit_full (full : f.capacity ≤ part.length) : f.emit (some part) x = none := by
  simp [emit, Nat.not_lt.mpr full]

theorem scan_inner (notOpening : x ≠ f.opening) (notClosing : x ≠ f.closing) (room : part.length < f.capacity) :
    f.scan (some part) x = some (part ++ [x]) := by
  simp [scan, notOpening, notClosing, room]

theorem emit_inner (notClosing : x ≠ f.closing) : f.emit line x = none := by
  cases line with
  | none => rfl
  | some part => simp [emit, notClosing]

theorem scan_closing : f.scan (some part) f.closing = none := by
  simp [scan, f.distinct.symm]

theorem emit_closing (room : part.length < f.capacity) :
    f.emit (some part) f.closing = some (part ++ [f.closing]) := if_pos ⟨rfl, room⟩

/-- Only the closing symbol completes a frame. -/
theorem closing_of_emit {frame : List α} (emitted : f.emit line x = some frame) : x = f.closing := by
  by_contra other
  rw [f.emit_inner other] at emitted
  cases emitted

end Symbols

/-- `line` is the part of `stream` that is still open. -/
def Tracks (stream : List α) (line : Option (List α)) : Prop :=
  ∀ part, line = some part ↔ part <:+ stream ∧ f.IsOpen part

omit [DecidableEq α] in
theorem tracks_nil : f.Tracks [] none := by
  intro part
  simp only [reduceCtorEq, List.suffix_nil, false_iff, not_and]
  rintro rfl ⟨inner, impossible, -⟩
  cases impossible

omit [DecidableEq α] in
theorem isOpen_suffix_snoc {stream part : List α} {x : α} :
    part <:+ stream ++ [x] ∧ f.IsOpen part ↔
      part = [x] ∧ x = f.opening ∨
        ∃ before, part = before ++ [x] ∧ (before <:+ stream ∧ f.IsOpen before) ∧
          x ≠ f.opening ∧ x ≠ f.closing ∧ before.length < f.capacity := by
  constructor
  · rintro ⟨suffix, isOpen⟩
    rcases List.suffix_concat_iff.mp suffix with rfl | ⟨before, rfl, earlier⟩
    · obtain ⟨inner, impossible, -⟩ := isOpen
      cases impossible
    · rcases (f.isOpen_snoc before x).mp isOpen with ⟨rfl, isOpening⟩ | ⟨wasOpen, rest⟩
      · exact .inl ⟨rfl, isOpening⟩
      · exact .inr ⟨before, rfl, ⟨earlier, wasOpen⟩, rest⟩
  · rintro (⟨rfl, isOpening⟩ | ⟨before, rfl, ⟨earlier, wasOpen⟩, rest⟩)
    · exact ⟨List.suffix_append _ _, (f.isOpen_snoc [] x).mpr (.inl ⟨rfl, isOpening⟩)⟩
    · exact ⟨List.suffix_concat_iff.mpr (.inr ⟨before, rfl, earlier⟩),
        (f.isOpen_snoc before x).mpr (.inr ⟨wasOpen, rest⟩)⟩

/-- The recogniser keeps track of the open part. -/
theorem Tracks.snoc {stream : List α} {line : Option (List α)} (tracks : f.Tracks stream line)
    (x : α) : f.Tracks (stream ++ [x]) (f.scan line x) := by
  intro part
  have known : ∀ before, (before <:+ stream ∧ f.IsOpen before) ↔ line = some before :=
    fun before => (tracks before).symm
  rw [isOpen_suffix_snoc]
  simp only [known, scan]
  by_cases opens : x = f.opening
  · simp [opens, eq_comm]
  · cases line with
    | none => simp [opens]
    | some before =>
        by_cases closes : x = f.closing
        · simp [closes, Ne.symm f.distinct]
        · by_cases short : before.length < f.capacity
          · simp [opens, closes, short, eq_comm]
          · have full : ¬ ∃ part', before = part' ∧ part'.length < f.capacity := by
              rintro ⟨_, rfl, fits⟩
              exact short fits
            simp [opens, closes, short]

theorem tails_filter_eq {stream part : List α} (suffix : part <:+ stream) :
    stream.tails.filter (fun tail => part = tail) = [part] := by
  induction stream with
  | nil =>
      obtain rfl := List.suffix_nil.mp suffix
      simp
  | cons x rest ih =>
      rw [List.tails_cons, List.filter_cons]
      rcases List.suffix_cons_iff.mp suffix with rfl | later
      · have shorter : rest.tails.filter (fun tail => x :: rest = tail) = [] := by
          apply List.filter_eq_nil_iff.mpr
          intro tail member
          have bound := ((List.mem_tails _ _).mp member).length_le
          have longer : x :: rest ≠ tail := by
            rintro rfl
            rw [List.length_cons] at bound
            omega
          simpa using longer
        simp [shorter]
      · have longer : part ≠ x :: rest := by
          rintro rfl
          have bound := later.length_le
          rw [List.length_cons] at bound
          omega
        simp [longer, ih later]

/-- One more symbol adds the frame that the recogniser emits, if any. -/
theorem frames_snoc {stream : List α} {line : Option (List α)} (tracks : f.Tracks stream line)
    (x : α) : f.frames (stream ++ [x]) = f.frames stream ++ (f.emit line x).toList := by
  have newTails : (stream ++ [x]).tails = stream.tails.map (· ++ [x]) ++ [[]] := by
    rw [List.tails_append]
    rfl
  have notEmpty : ¬ f.IsFrame [] := by
    rintro ⟨inner, impossible, -⟩
    cases impossible
  have newFrames : (stream ++ [x]).tails.filter f.IsFrame = (f.emit line x).toList := by
    have closed : ∀ tail ∈ stream.tails, decide (f.IsFrame (tail ++ [x])) =
        decide (line = some tail ∧ x = f.closing ∧ tail.length < f.capacity) := by
      intro tail member
      have suffix := (List.mem_tails _ _).mp member
      rw [decide_eq_decide, f.isFrame_snoc, tracks tail, and_iff_right suffix]
    rw [newTails, List.filter_append, List.filter_map]
    simp only [Function.comp_def, List.filter_cons, notEmpty, decide_false, Bool.false_eq_true,
      if_false, List.filter_nil, List.append_nil, List.filter_congr closed]
    cases line with
    | none => simp [emit]
    | some part =>
        have suffix := ((tracks part).mp rfl).1
        by_cases done : x = f.closing ∧ part.length < f.capacity
        · have only : ∀ tail ∈ stream.tails,
              decide (some part = some tail ∧ x = f.closing ∧ tail.length < f.capacity) =
                decide (part = tail) := by
            intro tail _
            rw [decide_eq_decide, Option.some.injEq]
            exact ⟨fun h => h.1, fun same => ⟨same, same ▸ done⟩⟩
          rw [List.filter_congr only, tails_filter_eq suffix, emit, if_pos done]
          rfl
        · have nothing : ∀ tail ∈ stream.tails,
              ¬ decide (some part = some tail ∧ x = f.closing ∧ tail.length < f.capacity) = true := by
            intro tail _
            rw [decide_eq_true_eq, Option.some.injEq]
            rintro ⟨rfl, closes⟩
            exact done closes
          rw [List.filter_eq_nil_iff.mpr nothing, emit, if_neg done]
          rfl
  rw [frames, List.inits_append, List.flatMap_append, List.filter_append, frames]
  simp only [List.inits, List.tail_cons, List.map_cons, List.map_nil, List.flatMap_cons,
    List.flatMap_nil, List.append_nil, newFrames]

@[simp] theorem frames_nil : f.frames [] = [] := by
  rw [frames_eq_filter, delimited_nil, List.filter_nil]

section Search

variable (accept : List α → Prop) [DecidablePred accept]

/-- The first frame that is accepted, and the stream behind it. `line` is what is open
    before the stream. -/
def search : Option (List α) → List α → Option (List α × List α)
  | _, [] => none
  | line, x :: rest =>
      match f.emit line x with
      | none => search (f.scan line x) rest
      | some frame => if accept frame then some (frame, rest) else search (f.scan line x) rest

variable {accept}

/-- A symbol that completes no accepted frame is passed over. -/
theorem search_passed {line : Option (List α)} {x : α}
    (passed : ∀ frame, f.emit line x = some frame → ¬ accept frame) (rest : List α) :
    f.search accept line (x :: rest) = f.search accept (f.scan line x) rest := by
  rw [search]
  cases emitted : f.emit line x with
  | none => rfl
  | some frame => exact if_neg (passed frame emitted)

theorem search_accepted {line : Option (List α)} {x : α} {frame : List α} (emitted : f.emit line x = some frame)
    (accepted : accept frame) (rest : List α) : f.search accept line (x :: rest) = some (frame, rest) := by
  rw [search, emitted]
  exact if_pos accepted

omit [DecidablePred accept] in
theorem passed_or_accepted (accept : List α → Prop) (line : Option (List α)) (x : α) :
    (∀ frame, f.emit line x = some frame → ¬ accept frame) ∨ ∃ frame, f.emit line x = some frame ∧ accept frame := by
  by_cases accepted : ∃ frame, f.emit line x = some frame ∧ accept frame
  · exact .inr accepted
  · apply Or.inl
    intro frame emitted accepts
    exact accepted ⟨frame, emitted, accepts⟩

theorem passed_of_search_none {line : Option (List α)} {x : α} {rest : List α}
    (nothing : f.search accept line (x :: rest) = none) :
    (∀ frame, f.emit line x = some frame → ¬ accept frame) ∧ f.search accept (f.scan line x) rest = none := by
  rcases f.passed_or_accepted accept line x with passed | ⟨frame, emitted, accepted⟩
  · rw [f.search_passed passed] at nothing
    exact ⟨passed, nothing⟩
  · rw [f.search_accepted emitted accepted] at nothing
    cases nothing

/-- A search goes on where the one in the first part ended, unless that found a frame. -/
theorem search_append (line : Option (List α)) (first second : List α) :
    f.search accept line (first ++ second) =
      match f.search accept line first with
      | some (frame, rest) => some (frame, rest ++ second)
      | none => f.search accept (first.foldl f.scan line) second := by
  induction first generalizing line with
  | nil => rfl
  | cons x rest ih =>
      rcases f.passed_or_accepted accept line x with passed | ⟨frame, emitted, accepted⟩
      · rw [List.cons_append, f.search_passed passed, f.search_passed passed, List.foldl_cons]
        exact ih (f.scan line x)
      · rw [List.cons_append, f.search_accepted emitted accepted, f.search_accepted emitted accepted]

theorem search_prefix {line : Option (List α)} {before after : List α}
    (nothing : f.search accept line (before ++ after) = none) : f.search accept line before = none := by
  rw [search_append] at nothing
  split at nothing
  · cases nothing
  · assumption

/-- Where the first accepted frame ends. -/
theorem search_some {line : Option (List α)} {stream frame rest : List α}
    (found : f.search accept line stream = some (frame, rest)) :
    ∃ before, stream = before ++ f.closing :: rest ∧ f.search accept line before = none ∧
      f.emit (before.foldl f.scan line) f.closing = some frame ∧ accept frame := by
  induction stream generalizing line with
  | nil => cases found
  | cons x others ih =>
      rcases f.passed_or_accepted accept line x with passed | ⟨whole, emitted, accepted⟩
      · rw [f.search_passed passed] at found
        obtain ⟨before, rfl, nothing, last, accepts⟩ := ih found
        exact ⟨x :: before, rfl, (f.search_passed passed before).trans nothing, last, accepts⟩
      · rw [f.search_accepted emitted accepted] at found
        cases found
        obtain rfl := f.closing_of_emit emitted
        exact ⟨[], rfl, rfl, emitted, accepted⟩

/-- A recogniser that missed the beginning of the stream finds nothing that the other did
    not find. -/
theorem search_none_of {line : Option (List α)} {stream : List α} (nothing : f.search accept line stream = none) :
    f.search accept none stream = none := by
  induction stream generalizing line with
  | nil => rfl
  | cons x rest ih =>
      obtain ⟨-, later⟩ := f.passed_of_search_none nothing
      have silent : ∀ frame, f.emit none x = some frame → ¬ accept frame := by
        intro frame impossible
        cases impossible
      rw [f.search_passed silent]
      by_cases opens : x = f.opening
      · rw [opens, f.scan_opening] at later ⊢
        exact later
      · rw [f.scan_outside opens]
        exact ih later

end Search

theorem Tracks.foldl {stream : List α} {line : Option (List α)} (tracks : f.Tracks stream line) (more : List α) :
    f.Tracks (stream ++ more) (more.foldl f.scan line) := by
  induction more generalizing stream line with
  | nil => simpa using tracks
  | cons x rest ih => simpa using ih (tracks.snoc f x)

/-- The frame that is completed ends the stream. -/
theorem Tracks.emit_suffix {stream frame : List α} {line : Option (List α)} (tracks : f.Tracks stream line) {x : α}
    (emitted : f.emit line x = some frame) : frame <:+ stream ++ [x] := by
  cases line with
  | none => cases emitted
  | some part =>
      rw [emit] at emitted
      split at emitted
      · cases emitted
        exact List.suffix_concat_iff.mpr (.inr ⟨part, rfl, ((tracks part).mp rfl).1⟩)
      · cases emitted

theorem mem_frames {stream frame : List α} : frame ∈ f.frames stream ↔ frame <:+: stream ∧ f.IsFrame frame := by
  simp only [frames, List.mem_filter, List.mem_flatMap, List.mem_inits, List.mem_tails, decide_eq_true_eq]
  apply and_congr_left
  intro _
  constructor
  · rintro ⟨part, isPrefix, isSuffix⟩
    exact isSuffix.isInfix.trans isPrefix.isInfix
  · rintro ⟨before, after, rfl⟩
    exact ⟨before ++ frame, List.prefix_append _ _, List.suffix_append _ _⟩

/-- The search misses no frame. -/
theorem search_eq_none_iff {accept : List α → Prop} [DecidablePred accept] {stream : List α} :
    f.search accept none stream = none ↔ ∀ frame, f.IsFrame frame → accept frame → ¬frame <:+: stream := by
  have listed : f.search accept none stream = none ↔ ∀ frame ∈ f.frames stream, ¬accept frame := by
    induction stream using List.reverseRecOn with
    | nil => simp [search]
    | append_singleton stream x ih =>
        have tracks := f.tracks_nil.foldl f stream
        rw [List.nil_append] at tracks
        have last : f.search accept (stream.foldl f.scan none) [x] = none ↔
            ∀ frame ∈ (f.emit (stream.foldl f.scan none) x).toList, ¬accept frame := by
          cases emitted : f.emit (stream.foldl f.scan none) x with
          | none => simp [search, emitted]
          | some frame => by_cases accepted : accept frame <;> simp [search, emitted, accepted]
        rw [search_append, f.frames_snoc tracks, List.forall_mem_append, ← ih, ← last]
        cases f.search accept none stream <;> simp
  rw [listed]
  constructor
  · intro refused frame isFrame accepted inside
    exact refused frame (f.mem_frames.mpr ⟨inside, isFrame⟩) accepted
  · intro missing frame member accepted
    obtain ⟨inside, isFrame⟩ := f.mem_frames.mp member
    exact missing frame isFrame accepted inside

/-- A capacity that no part of the stream exceeds. -/
theorem delimited_eq_frames {stream : List α} {capacity : Nat} (enough : stream.length ≤ capacity)
    (room : 0 < capacity) : f.delimited stream = { f with capacity, room }.frames stream := by
  rw [frames_eq_filter]
  symm
  apply List.filter_eq_self.mpr
  intro part member
  simp only [delimited, List.mem_filter, List.mem_flatMap, List.mem_inits, List.mem_tails] at member
  obtain ⟨⟨start, isPrefix, isSuffix⟩, -⟩ := member
  rw [decide_eq_true_eq]
  exact (isSuffix.length_le.trans isPrefix.length_le).trans enough

/-- One more symbol ends at most one frame. -/
theorem delimited_snoc_cases (stream : List α) (x : α) :
    f.delimited (stream ++ [x]) = f.delimited stream ∨
      ∃ part, f.delimited (stream ++ [x]) = f.delimited stream ++ [part] := by
  have room : 0 < stream.length + 1 := Nat.succ_pos _
  let wide : Framing α := { f with capacity := stream.length + 1, room }
  have tracks := wide.tracks_nil.foldl wide stream
  have whole : f.delimited (stream ++ [x]) = wide.frames (stream ++ [x]) :=
    f.delimited_eq_frames (by simp) room
  have before : f.delimited stream = wide.frames stream := f.delimited_eq_frames (by simp) room
  rw [List.nil_append] at tracks
  rw [whole, before, wide.frames_snoc tracks]
  cases wide.emit (stream.foldl wide.scan none) x with
  | none => exact .inl (List.append_nil _)
  | some part => exact .inr ⟨part, rfl⟩

end Framing

end Foundation
