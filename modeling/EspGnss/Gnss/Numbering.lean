import EspGnss.Gnss.Integrity

/-! # The sequence numbers of publications

Publications are numbered from 1 in the order in which they are made, and the publication
queue holds the last one until it is received.
-/

namespace EspGnss.Gnss

open Foundation

/-- The publications, in the order in which they were made. -/
def publicationsOf (history : List GnssEvent) : List GnssPublication :=
  history.filterMap fun
    | .published _ publication => some publication
    | _ => none

theorem publicationsOf_append (history events : List GnssEvent) :
    publicationsOf (history ++ events) = publicationsOf history ++ publicationsOf events :=
  List.filterMap_append

/-- The numbers of publications are 1, 2, 3, … -/
def Numbered (publications : List GnssPublication) : Prop :=
  publications.map (·.sequence) = (List.range publications.length).map fun index => .ofNat (index + 1)

theorem Numbered.snoc {publications : List GnssPublication} {publication : GnssPublication}
    (numbered : Numbered publications) (next : publication.sequence = .ofNat (publications.length + 1)) :
    Numbered (publications ++ [publication]) := by
  rw [Numbered, List.map_append, List.length_append, List.length_singleton, List.range_succ, List.map_append,
    numbered]
  simp [next]

/-- What a step does to the publication queue and to `next_sequence`. -/
theorem Transition.publishes {history : List GnssEvent} {s s' : GnssStack} {action : GnssAction}
    {events : List GnssEvent} (h : Transition s action s' events) (run : gnssSystem.Exec history s) :
    (publicationsOf events = [] ∧ s'.filter.nextSequence = s.filter.nextSequence ∧
      (action ≠ .publicationReceive → s'.publicationQueue = s.publicationQueue)) ∨
    ∃ publication, publicationsOf events = [publication] ∧ publication.sequence = s.filter.nextSequence ∧
      s'.filter.nextSequence = s.filter.nextSequence + 1 ∧ s'.publicationQueue = .overwrite rfl publication := by
  cases h with
  | publish pc held copied =>
      rw [(integrity_of_exec run).publicationOf_best held] at copied
      cases copied
      exact .inr ⟨_, rfl, rfl, rfl, rfl⟩
  | miscopied pc held fault =>
      rw [(integrity_of_exec run).publicationOf_best held] at fault
      cases fault
  | receive pc =>
      obtain ⟨queueSet, after, same⟩ := s.receiveSelected_eq _
      rw [same]
      exact .inl ⟨rfl, rfl, fun _ => rfl⟩
  | publicationReceive => exact .inl ⟨rfl, rfl, fun other => absurd rfl other⟩
  | _ => exact .inl ⟨rfl, rfl, fun _ => rfl⟩

theorem numbered_of_exec {history : List GnssEvent} {s : GnssStack} (run : gnssSystem.Exec history s) :
    Numbered (publicationsOf history) ∧
      s.filter.nextSequence = .ofNat ((publicationsOf history).length + 1) := by
  refine System.Exec.invariant
    (I := fun history s => Numbered (publicationsOf history) ∧
      s.filter.nextSequence = .ofNat ((publicationsOf history).length + 1))
    (fun s start => ?_) (fun history s action s' events run numbered step => ?_) run
  · cases start
    exact ⟨rfl, rfl⟩
  · obtain ⟨numbered, next⟩ := numbered
    rw [publicationsOf_append]
    rcases (Transition.of_next step).publishes run with ⟨none, same, -⟩ | ⟨publication, one, number, after, -⟩
    · rw [none, same, List.append_nil]
      exact ⟨numbered, next⟩
    · rw [one, after, next]
      refine ⟨numbered.snoc (number.trans next), ?_⟩
      rw [List.length_append, List.length_singleton, UInt32.ofNat_add (_ + 1) 1]
      rfl

theorem Numbered.sequence_getElem {publications : List GnssPublication} (numbered : Numbered publications)
    {index : Nat} (inside : index < publications.length) : publications[index].sequence = .ofNat (index + 1) := by
  have numbers : publications[index]?.map (·.sequence) = some (.ofNat (index + 1)) := by
    rw [← List.getElem?_map, numbered]
    simp [inside]
  simpa [inside] using numbers

section Few

variable {publications : List GnssPublication}

/-- While the numbers have not wrapped they are those of the positions. -/
theorem Numbered.toNat_getElem (numbered : Numbered publications) (few : publications.length < 2 ^ 32 - 1)
    {index : Nat} (inside : index < publications.length) : publications[index].sequence.toNat = index + 1 := by
  rw [numbered.sequence_getElem inside, UInt32.toNat_ofNat']
  omega

theorem Numbered.increasing (numbered : Numbered publications) (few : publications.length < 2 ^ 32 - 1) :
    publications.Pairwise fun first second => first.sequence < second.sequence := by
  rw [List.pairwise_iff_getElem]
  intro i j first second before
  rw [UInt32.lt_iff_toNat_lt, numbered.toNat_getElem few first, numbered.toNat_getElem few second]
  omega

theorem Numbered.sequence_ne_zero (numbered : Numbered publications) (few : publications.length < 2 ^ 32 - 1)
    {publication : GnssPublication} (member : publication ∈ publications) : publication.sequence ≠ 0 := by
  obtain ⟨index, inside, rfl⟩ := List.getElem_of_mem member
  intro zero
  have number := numbered.toNat_getElem few inside
  rw [zero] at number
  cases number

theorem Numbered.sequence_inj (numbered : Numbered publications) (few : publications.length < 2 ^ 32 - 1)
    {first second : GnssPublication} (firstMember : first ∈ publications) (secondMember : second ∈ publications)
    (same : first.sequence = second.sequence) : first = second := by
  obtain ⟨i, inside, rfl⟩ := List.getElem_of_mem firstMember
  obtain ⟨j, inside', rfl⟩ := List.getElem_of_mem secondMember
  have number := numbered.toNat_getElem few inside
  rw [same, numbered.toNat_getElem few inside'] at number
  obtain rfl : j = i := by omega
  rfl

end Few

end EspGnss.Gnss
