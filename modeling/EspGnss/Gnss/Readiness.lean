import EspGnss.Gnss.Epoch

/-! # Readiness entries of the filter queues

The queue set announces every item of its members exactly once: the entries
that name a queue are as many as its items, but for the one entry that the
filter task has taken and not yet followed by its receive.
-/

namespace EspGnss.Gnss

open Foundation Nmea

/-- The entries of the queue set against the items of its members. -/
structure Announced (s : GnssStack) : Prop where
  /-- One entry names each item, but for the entry already taken. -/
  entries : ∀ m, s.queueSet.ready.items.count m +
    (if s.filter.pc = .receiving m then 1 else 0) = (s.queueSet.member m).items.length
  /-- The entry of an item that a member has room for is never lost. -/
  room : ∀ m, (s.queueSet.member m).items.length < FilterMember.queueLength m →
    s.queueSet.ready.items.length < 8 + 1 + 1
  stale : ∀ m ∈ s.queueSet.ready.items, (s.queueSet.member m).items ≠ []
  unannounced : ∀ m, (s.queueSet.member m).items ≠ [] →
    m ∈ s.queueSet.ready.items ∨ s.filter.pc = .receiving m
  /-- The receive that follows a selection finds an item. -/
  received : ∀ m, s.filter.pc = .receiving m → ∃ item queueSet,
    s.queueSet.receive m = some (item, queueSet) ∧
      s.next .filterStep = some ({ s with queueSet }.goto (Entry.received ⟨m, item⟩), [])

theorem FilterPc.selected_eq_some {pc : FilterPc} {m : FilterMember} :
    pc.selected = some m ↔ pc = .receiving m := by
  cases pc <;> simp [selected]

/-- Every filter queue is announced by as many entries as it has items, minus
    one exactly between its selection and the receive, which always succeeds. -/
theorem filterQueues_announced {history : List GnssEvent} {s : GnssStack}
    (run : gnssSystem.Exec history s) : Announced s := by
  obtain ⟨pending, -, represents⟩ := ordered_of_exec run
  have entries : ∀ m, s.queueSet.ready.items.count m +
      (if s.filter.pc = .receiving m then 1 else 0) = (s.queueSet.member m).items.length := by
    intro m
    simp only [← represents.count_ready m, FilterPc.selected_eq_some]
  refine ⟨entries, fun m room => represents.ready_room queueSet_long room, ?_, ?_, ?_⟩
  · intro m listed none
    have counted := entries m
    have positive := List.count_pos_iff.mpr listed
    rw [none, List.length_nil] at counted
    omega
  · intro m some
    have counted := entries m
    have positive := List.length_pos_iff.mpr some
    by_cases receiving : s.filter.pc = .receiving m
    · exact .inr receiving
    · rw [if_neg receiving] at counted
      exact .inl (List.count_pos_iff.mp (by omega))
  · intro m pc
    rw [pc] at represents
    obtain ⟨item, rest, queueSet, -, received, -⟩ := represents.receive
    refine ⟨item, queueSet, received, ?_⟩
    simp only [GnssStack.next, GnssStack.filterStep, pc]
    cases m with
    | candidate => simp only [GnssStack.receiveSelected, received, Entry.received]
    | timer => simp only [GnssStack.receiveSelected, received, Entry.received]
    | control => simp only [GnssStack.receiveSelected, received, Entry.received]

theorem uploadRun_announced : Announced (uploadRun.get uploadRun_isSome).1 :=
  filterQueues_announced uploadRun_exec

end EspGnss.Gnss
