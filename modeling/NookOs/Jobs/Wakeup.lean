/-
Module: NookOs.Jobs.Wakeup
Purpose: The wakeup rule as a partition of the work items that no order of the rows
  changes.
Trusted boundary: none
Main exports: Due, owes_iff_due, owed_perm, Partition, owed_partition
-/
import NookOs.Jobs.RunHeads

namespace NookOs.Jobs

open Lib

section Ordering

variable {Row : Type} {key : Row → Int} {rows other : List Row}

/-- Rows with distinct keys, ordered by their keys, increase. -/
theorem keyed_insertionSort_lt (keyed : Table.Keyed key rows) :
    (rows.insertionSort fun first second => key first ≤ key second).Pairwise
      fun first second => key first < key second := by
  have total : Std.Total fun first second : Row => key first ≤ key second :=
    ⟨fun first second => Int.le_total (key first) (key second)⟩
  have transitive : IsTrans Row fun first second => key first ≤ key second :=
    ⟨fun _ _ _ => Int.le_trans⟩
  have ordered := List.pairwise_insertionSort
    (fun first second : Row => key first ≤ key second) rows
  have distinct : (rows.insertionSort fun first second => key first ≤ key second).Pairwise
      fun first second => key first ≠ key second :=
    List.pairwise_map.mp
      (((List.perm_insertionSort _ rows).map key).nodup_iff.mpr keyed)
  exact (ordered.and distinct).imp fun both => lt_of_le_of_ne both.1 both.2

/-- Rows with distinct keys have one order by their keys. -/
theorem insertionSort_eq_of_perm (keyed : Table.Keyed key rows) (perm : other.Perm rows) :
    (other.insertionSort fun first second => key first ≤ key second) =
      rows.insertionSort fun first second => key first ≤ key second := by
  have otherKeyed : Table.Keyed key other := (perm.map key).nodup_iff.mpr keyed
  refine List.Perm.eq_of_pairwise ?_ (keyed_insertionSort_lt otherKeyed)
    (keyed_insertionSort_lt keyed) ?_
  · intro first second _ _ below above
    exact absurd below (Int.lt_asymm above)
  · exact (List.perm_insertionSort _ other).trans
      (perm.trans (List.perm_insertionSort _ rows).symm)

end Ordering

/-! ### What is due -/

/-- The item was attempted as it stands, and the hold of its streak has not passed. -/
def Inside (item : WorkItem) (head : RunHeads) (now : Instant) : Prop :=
  head.attemptedHead = some item.fingerprint ∧
    ∃ attempted ∈ head.attemptedAt, now - attempted < backoffFor head.failureStreak

/-- Something speaks against the last conclusion: it is about another fingerprint, a
ruling is newer, or the item conflicts and the hold since has lapsed. -/
def Reopened (item : WorkItem) (head : RunHeads) (now : Instant) : Prop :=
  head.doneHead ≠ some item.fingerprint ∨
    (∃ unblocked ∈ item.unblockedAt, ∃ done ∈ head.doneAt, done < unblocked) ∨
    item.conflictBase ≠ none ∧
      ∀ done ∈ head.doneAt, backoffFor head.failureStreak ≤ now - done

/-- An item is due when nothing is known of its runs, or none is live and what is known
of them neither holds it back nor speaks for it. -/
def Due (heads : List RunHeads) (now : Instant) (item : WorkItem) : Prop :=
  (∀ head ∈ heads, head.itemKey ≠ item.key) ∨
    ∃ head ∈ heads, head.itemKey = item.key ∧ head.liveHead = none ∧
      ¬ Inside item head now ∧ Reopened item head now

instance (item : WorkItem) (head : RunHeads) (now : Instant) :
    Decidable (Inside item head now) := by
  unfold Inside
  infer_instance

instance (item : WorkItem) (head : RunHeads) (now : Instant) :
    Decidable (Reopened item head now) := by
  unfold Reopened
  infer_instance

instance (heads : List RunHeads) (now : Instant) (item : WorkItem) :
    Decidable (Due heads now item) := by
  unfold Due
  infer_instance

section Rule

variable {heads otherHeads : List RunHeads} {items others : List WorkItem} {item : WorkItem}
  {head : RunHeads} {now : Instant}

theorem held_iff : held item head now = true ↔ Inside item head now := by
  unfold held Inside
  cases head.attemptedAt with
  | none | some => simp

theorem not_spent_iff : spent item head now = false ↔ Reopened item head now := by
  have ruled : overruled item head = true ↔
      ∃ unblocked ∈ item.unblockedAt, ∃ done ∈ head.doneAt, done < unblocked := by
    unfold overruled
    cases item.unblockedAt <;> cases head.doneAt <;> simp
  have rebased : rebaseOwed item head now = true ↔
      item.conflictBase ≠ none ∧
        ∀ done ∈ head.doneAt, backoffFor head.failureStreak ≤ now - done := by
    unfold rebaseOwed
    cases head.doneAt <;> simp [Option.isSome_iff_ne_none]
  unfold Reopened spent
  simp only [Bool.and_eq_false_iff, decide_eq_false_iff_not, Bool.not_eq_false', ruled, rebased,
    or_assoc, ne_eq]

/-- The filter of the rule keeps the items that are due. -/
theorem owes_iff_due (keyed : Table.Keyed RunHeads.itemKey heads) :
    owes heads now item = true ↔ Due heads now item := by
  unfold owes Due
  cases found : Table.find RunHeads.itemKey heads item.key with
  | none =>
      have absent := Table.find_none_iff.mp found
      simp only [true_iff]
      exact .inl absent
  | some head =>
      obtain ⟨member, same⟩ := Table.find_some found
      have only : ∀ other ∈ heads, other.itemKey = item.key → other = head := by
        intro other there sameKey
        have again := keyed.find_of_mem there
        rw [sameKey, found] at again
        exact (Option.some.inj again).symm
      dsimp only
      constructor
      · intro owing
        right
        refine ⟨head, member, same, ?_⟩
        by_cases live : head.liveHead.isSome = true
        · rw [if_pos live] at owing
          cases owing
        rw [if_neg live] at owing
        by_cases speaks : spent item head now = true
        · rw [if_pos speaks] at owing
          cases owing
        rw [if_neg speaks] at owing
        refine ⟨Option.not_isSome_iff_eq_none.mp live, fun inside => ?_,
          not_spent_iff.mp (Bool.eq_false_iff.mpr speaks)⟩
        rw [held_iff.mpr inside] at owing
        cases owing
      · rintro (absent | ⟨other, there, sameKey, still, outside, reopened⟩)
        · exact absurd same (absent head member)
        obtain rfl := only other there sameKey
        have quiet : ¬ other.liveHead.isSome = true := by
          rw [still]
          exact Bool.false_ne_true
        have silent : ¬ spent item other now = true :=
          Bool.eq_false_iff.mp (not_spent_iff.mpr reopened)
        have free : held item other now = false :=
          Bool.eq_false_iff.mpr fun holds => outside (held_iff.mp holds)
        rw [if_neg quiet, if_neg silent, free]
        rfl

/-- What is due does not depend on the order of the heads. -/
theorem due_perm (perm : otherHeads.Perm heads) :
    Due otherHeads now item ↔ Due heads now item := by
  unfold Due
  simp only [perm.mem_iff]

/-- No order of the items or of the heads changes what is owed. -/
theorem owed_perm (ceiling : Nat) (distinctItems : Table.Keyed WorkItem.key items)
    (distinctHeads : Table.Keyed RunHeads.itemKey heads) (permItems : others.Perm items)
    (permHeads : otherHeads.Perm heads) :
    owed others otherHeads ceiling now = owed items heads ceiling now := by
  have otherKeyed : Table.Keyed RunHeads.itemKey otherHeads :=
    (permHeads.map RunHeads.itemKey).nodup_iff.mpr distinctHeads
  have rule : owes otherHeads now = owes heads now := by
    funext item
    rw [Bool.eq_iff_iff, owes_iff_due otherKeyed, owes_iff_due distinctHeads,
      due_perm permHeads]
  have live : liveHeads otherHeads = liveHeads heads :=
    (permHeads.filter _).length_eq
  have sorted : ((others.filter (owes heads now)).insertionSort (·.key ≤ ·.key)) =
      (items.filter (owes heads now)).insertionSort (·.key ≤ ·.key) :=
    insertionSort_eq_of_perm (distinctItems.sublist (List.filter_sublist.map _))
      (permItems.filter _)
  simp only [owed, rule, live, sorted]

end Rule

/-- The rule as a partition: what is owed increases by key and is due, it is as much as
the ceiling leaves room for, the rest of what is due is withheld, and nothing live is
due. -/
structure Partition (items : List WorkItem) (heads : List RunHeads) (ceiling : Nat)
    (now : Instant) : Prop where
  increasing : (owed items heads ceiling now).1.Pairwise fun first second =>
    first.key < second.key
  chosen : ∀ item ∈ (owed items heads ceiling now).1, item ∈ items ∧ Due heads now item
  stable : ∀ others otherHeads, others.Perm items → otherHeads.Perm heads →
    owed others otherHeads ceiling now = owed items heads ceiling now
  counted : (owed items heads ceiling now).1.length + (owed items heads ceiling now).2.1 =
    (items.filter fun item => Due heads now item).length
  bounded : (owed items heads ceiling now).1.length =
    min (items.filter fun item => Due heads now item).length
      (ceiling - (owed items heads ceiling now).2.2)
  live : (owed items heads ceiling now).2.2 = (heads.filter (·.liveHead.isSome)).length
  single : ∀ item ∈ items, ∀ head ∈ heads, head.itemKey = item.key → head.liveHead ≠ none →
    ¬ Due heads now item

/-- The wakeup rule is a partition of the items, for all items with distinct keys and all
heads with distinct keys. -/
theorem owed_partition (items : List WorkItem) (heads : List RunHeads) (ceiling : Nat)
    (now : Instant) (distinctItems : (items.map WorkItem.key).Nodup)
    (distinctHeads : (heads.map RunHeads.itemKey).Nodup) :
    Partition items heads ceiling now := by
  have filtered : items.filter (owes heads now) = items.filter fun item => Due heads now item := by
    apply List.filter_congr
    intro item _
    rw [Bool.eq_iff_iff, owes_iff_due distinctHeads, decide_eq_true_iff]
  have keyed : Table.Keyed WorkItem.key (items.filter (owes heads now)) :=
    distinctItems.sublist (List.filter_sublist.map _)
  have whole : ((items.filter (owes heads now)).insertionSort (·.key ≤ ·.key)).length =
      (items.filter fun item => Due heads now item).length := by
    rw [(List.perm_insertionSort _ _).length_eq, filtered]
  refine ⟨?_, ?_, ?_, ?_, ?_, rfl, ?_⟩
  · exact (keyed_insertionSort_lt keyed).sublist (List.take_sublist _ _)
  · intro item member
    have inside := (List.perm_insertionSort _ _).subset (List.mem_of_mem_take member)
    obtain ⟨there, owing⟩ := List.mem_filter.mp inside
    exact ⟨there, (owes_iff_due distinctHeads).mp owing⟩
  · intro others otherHeads permItems permHeads
    exact owed_perm ceiling distinctItems distinctHeads permItems permHeads
  · simp only [owed, List.length_take, whole]
    omega
  · simp only [owed, List.length_take, whole]
    exact Nat.min_comm _ _
  · rintro item - head member same live (absent | ⟨other, there, sameKey, still, -⟩)
    · exact absent head member same
    · have unique : Table.Keyed RunHeads.itemKey heads := distinctHeads
      have first := unique.find_of_mem member
      have second := unique.find_of_mem there
      rw [sameKey, ← same, first] at second
      rw [Option.some.inj second] at live
      exact live still

/-- Three items of which one is live and one concluded as it stands, and room for one. -/
theorem owed_partition_sample :
    ([⟨9, "a", "", none, false, none, none⟩, ⟨3, "b", "", none, false, none, none⟩,
        ⟨7, "c", "", none, false, none, none⟩].map WorkItem.key).Nodup ∧
      Partition
        [⟨9, "a", "", none, false, none, none⟩, ⟨3, "b", "", none, false, none, none⟩,
          ⟨7, "c", "", none, false, none, none⟩]
        [{ itemKey := 9, liveHead := some "a" }, { itemKey := 3, doneHead := some "b" }] 2 0 :=
  ⟨by decide, owed_partition _ _ 2 0 (by decide) (by decide)⟩

end NookOs.Jobs
