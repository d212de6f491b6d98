/-
Module: NookOs.Lib.Walk
Purpose: Lists that are read a page at a time by a cursor that each page returns,
  while the list may change between two pages.
Trusted boundary: none
Main exports: follow, follow_of_marks, keysetPage, follow_perm_iff, filter_insertionSort
-/
import Mathlib.Data.List.Sort
import Mathlib.Order.Basic
import Mathlib.Tactic.Common

namespace NookOs.Lib.Walk

variable {World Row Cursor : Type*}

/-- Ask for pages, one in each world, and go on with the cursor that a page returns
until none is returned.  The walk is not over where the worlds run out. -/
def follow (fetch : World → Option Cursor → List Row × Option Cursor) :
    List World → Option Cursor → Option (List Row)
  | [], _ => none
  | world :: later, cursor =>
      match fetch world cursor with
      | (rows, none) => some rows
      | (rows, some next) => (follow fetch later (some next)).map (rows ++ ·)

section Rules

variable {fetch : World → Option Cursor → List Row × Option Cursor} {world : World}
  {later : List World} {cursor : Option Cursor} {rows : List Row} {next : Cursor}

theorem follow_last (fetched : fetch world cursor = (rows, none)) :
    follow fetch (world :: later) cursor = some rows := by
  simp only [follow, fetched]

theorem follow_next (fetched : fetch world cursor = (rows, some next)) :
    follow fetch (world :: later) cursor =
      (follow fetch later (some next)).map (rows ++ ·) := by
  simp only [follow, fetched]

theorem follow_congr {other : World → Option Cursor → List Row × Option Cursor}
    {worlds : List World} (same : ∀ world ∈ worlds, fetch world = other world) :
    follow fetch worlds cursor = follow other worlds cursor := by
  induction worlds generalizing cursor with
  | nil => rfl
  | cons world later ih =>
      rw [follow, follow, same world List.mem_cons_self]
      split
      case h_1 => rfl
      case h_2 =>
        rw [ih fun world member => same world (List.mem_cons_of_mem _ member)]

end Rules

variable {row : Row}

section Keyset

variable {Key : Type*} [LinearOrder Key] (key : Row → Key)

variable {key} {limit : Nat} {items : List Row}

variable {cursor : Option Key}

end Keyset

section Stamps

variable {Stamp : Type*} [LinearOrder Stamp] (stamp : Row → Stamp)

/-- The rows of a list, in whatever order, that are stamped after the cursor. -/
def after (items : List Row) (cursor : Option Stamp) : List Row :=
  items.filter fun row => cursor.all (· < stamp row)

/-- The first of these rows; the stamp of the last one on the page is the next cursor. -/
def stampPage (limit : Nat) (items : List Row) (cursor : Option Stamp) :
    List Row × Option Stamp :=
  let page := (after stamp items cursor).take limit
  (page, page.getLast?.map stamp)

/-- For each page and its last row, the rows that are stamped later stand after the page,
and the others do not. -/
def Aligned (limit : Nat) (items : List Row) : Prop :=
  ∀ page last, ((items.drop (page * limit)).take limit).getLast? = some last →
    (∀ row ∈ items.take ((page + 1) * limit), stamp row ≤ stamp last) ∧
    ∀ row ∈ items.drop ((page + 1) * limit), stamp last < stamp row

variable {stamp} {limit : Nat} {items : List Row}

@[simp] theorem aligned_nil : Aligned stamp limit [] := by
  intro page last isLast
  simp at isLast

/-- A list is aligned where its first page and the rest of it are. -/
theorem aligned_iff {last : Row} (isLast : (items.take limit).getLast? = some last) :
    Aligned stamp limit items ↔
      ((∀ row ∈ items.take limit, stamp row ≤ stamp last) ∧
        ∀ row ∈ items.drop limit, stamp last < stamp row) ∧
      Aligned stamp limit (items.drop limit) := by
  constructor
  · intro aligned
    have first := aligned 0 last (by simpa using isLast)
    rw [Nat.zero_add, Nat.one_mul] at first
    refine ⟨first, ?_⟩
    intro page later isLater
    rw [List.drop_drop, Nat.add_comm, ← Nat.succ_mul] at isLater
    obtain ⟨before, beyond⟩ := aligned (page + 1) later isLater
    constructor
    · intro row member
      apply before row
      rw [← List.take_append_drop limit (items.take _), List.mem_append, List.drop_take]
      refine .inr ?_
      rwa [Nat.succ_mul (page + 1), Nat.add_sub_cancel]
    · intro row member
      apply beyond row
      rwa [List.drop_drop, Nat.add_comm, ← Nat.succ_mul] at member
  · rintro ⟨⟨before, beyond⟩, aligned⟩ page later isLater
    cases page with
    | zero =>
        rw [Nat.zero_mul, List.drop_zero, isLast] at isLater
        cases isLater
        rw [Nat.zero_add, Nat.one_mul]
        exact ⟨before, beyond⟩
    | succ page =>
        rw [Nat.succ_mul, Nat.add_comm, ← List.drop_drop] at isLater
        obtain ⟨laterBefore, laterBeyond⟩ := aligned page later isLater
        have inRest := List.mem_of_mem_drop (List.mem_of_mem_take (List.mem_of_getLast? isLater))
        constructor
        · intro row member
          rw [Nat.succ_mul, Nat.add_comm, List.take_add, List.mem_append] at member
          rcases member with onFirst | inLater
          · exact (before row onFirst).trans (beyond later inRest).le
          · exact laterBefore row inLater
        · intro row member
          rw [Nat.succ_mul, Nat.add_comm, ← List.drop_drop] at member
          exact laterBeyond row member

theorem after_after {cursor : Option Stamp} {last : Row}
    (member : last ∈ after stamp items cursor) : after stamp items (some (stamp last)) =
      (after stamp items cursor).filter fun row => stamp last < stamp row := by
  rw [after, after, List.filter_filter]
  apply List.filter_congr
  intro row _
  have isBeyond := (List.mem_filter.mp member).2
  cases cursor with
  | none => simp
  | some reached =>
      have reachedBefore : reached < stamp last := by simpa using isBeyond
      simp only [Option.all_some]
      by_cases beyond : stamp last < stamp row
      · simp [beyond, reachedBefore.trans beyond]
      · simp [beyond]

/-- A page of rows returns a cursor, and the walk goes on. -/
theorem follow_stampPage {later : List World} {world : World} {cursor : Option Stamp}
    {last : Row} (isLast : ((after stamp items cursor).take limit).getLast? = some last) :
    follow (fun _ => stampPage stamp limit items) (world :: later) cursor =
      (follow (fun _ => stampPage stamp limit items) later (some (stamp last))).map
        ((after stamp items cursor).take limit ++ ·) := by
  apply follow_next
  rw [stampPage, isLast]
  rfl

/-- Where no rows are left, the walk is over. -/
theorem follow_stampPage_nil {later : List World} {world : World} {cursor : Option Stamp}
    (nothing : after stamp items cursor = []) :
    follow (fun _ => stampPage stamp limit items) (world :: later) cursor = some [] := by
  apply follow_last
  rw [stampPage, nothing, List.take_nil]
  rfl

theorem exists_getLast?_take {rows : List Row} (positive : 0 < limit) (nonempty : rows ≠ []) :
    ∃ last, (rows.take limit).getLast? = some last := by
  rw [← Option.isSome_iff_exists, List.getLast?_isSome]
  intro empty
  rcases List.take_eq_nil_iff.mp empty with rfl | isEmpty
  · exact absurd positive (Nat.lt_irrefl 0)
  · exact nonempty isEmpty

/-- Where the last row of a page parts the list, the rest is what is stamped after it. -/
theorem after_last {cursor : Option Stamp} {last : Row}
    (isLast : ((after stamp items cursor).take limit).getLast? = some last)
    (before : ∀ row ∈ (after stamp items cursor).take limit, stamp row ≤ stamp last)
    (beyond : ∀ row ∈ (after stamp items cursor).drop limit, stamp last < stamp row) :
    after stamp items (some (stamp last)) = (after stamp items cursor).drop limit := by
  rw [after_after (List.mem_of_mem_take (List.mem_of_getLast? isLast))]
  nth_rewrite 1 [← List.take_append_drop limit (after stamp items cursor)]
  rw [List.filter_append, List.filter_eq_nil_iff.mpr, List.filter_eq_self.mpr, List.nil_append]
  · intro row member
    exact decide_eq_true (beyond row member)
  · intro row member
    simpa using before row member

/-- An aligned list is read whole and in its order. -/
theorem follow_of_aligned (positive : 0 < limit) {cursor : Option Stamp} (world : World)
    (aligned : Aligned stamp limit (after stamp items cursor)) {fuel : Nat}
    (enough : (after stamp items cursor).length < fuel) :
    follow (fun _ => stampPage stamp limit items) (List.replicate fuel world) cursor =
      some (after stamp items cursor) := by
  induction fuel generalizing cursor with
  | zero => omega
  | succ fuel ih =>
      rw [List.replicate_succ]
      by_cases nothing : after stamp items cursor = []
      · rw [follow_stampPage_nil nothing, nothing]
      · obtain ⟨last, isLast⟩ := exists_getLast?_take positive nothing
        obtain ⟨⟨before, beyond⟩, alignedRest⟩ := (aligned_iff isLast).mp aligned
        have rest := after_last isLast before beyond
        rw [follow_stampPage isLast, ih (rest ▸ alignedRest), rest,
          Option.map_some, List.take_append_drop]
        rw [rest, List.length_drop]
        have := List.length_pos_of_ne_nil nothing
        omega

/-- What a walk reads was to be read. -/
theorem mem_of_follow {worlds : List World} {cursor : Option Stamp} {rows : List Row}
    (walked : follow (fun _ => stampPage stamp limit items) worlds cursor = some rows)
    (member : row ∈ rows) : row ∈ after stamp items cursor := by
  induction worlds generalizing cursor rows with
  | nil => cases walked
  | cons world later ih =>
      cases isLast : ((after stamp items cursor).take limit).getLast? with
      | none =>
          simp only [follow, stampPage, isLast, Option.map_none] at walked
          cases walked
          exact List.mem_of_mem_take member
      | some last =>
          rw [follow_stampPage isLast] at walked
          obtain ⟨rest, isRest, rfl⟩ := Option.map_eq_some_iff.mp walked
          rcases List.mem_append.mp member with onPage | inRest
          · exact List.mem_of_mem_take onPage
          · have inAfter := ih isRest inRest
            rw [after_after (List.mem_of_mem_take (List.mem_of_getLast? isLast))] at inAfter
            exact (List.mem_filter.mp inAfter).1

/-- A walk that is over has read the first row. -/
theorem head_mem_of_follow (positive : 0 < limit) {worlds : List World}
    {cursor : Option Stamp} {rows : List Row}
    (walked : follow (fun _ => stampPage stamp limit items) worlds cursor = some rows)
    {first : Row} {others : List Row} (isFirst : after stamp items cursor = first :: others) :
    first ∈ rows := by
  obtain ⟨size, rfl⟩ := Nat.exists_eq_add_one.mpr positive
  have onPage : first ∈ (after stamp items cursor).take (size + 1) := by
    rw [isFirst, List.take_succ_cons]
    exact List.mem_cons_self
  cases worlds with
  | nil => cases walked
  | cons world later =>
      obtain ⟨last, isLast⟩ := exists_getLast?_take positive (isFirst ▸ List.cons_ne_nil _ _)
      rw [follow_stampPage isLast] at walked
      obtain ⟨rest, -, rfl⟩ := Option.map_eq_some_iff.mp walked
      exact List.mem_append_left _ onPage

/-- A walk that has read every row once has read an aligned list. -/
theorem aligned_of_follow (positive : 0 < limit) (distinct : items.Nodup)
    {worlds : List World} {cursor : Option Stamp} {rows : List Row}
    (walked : follow (fun _ => stampPage stamp limit items) worlds cursor = some rows)
    (whole : rows.Perm (after stamp items cursor)) :
    Aligned stamp limit (after stamp items cursor) := by
  induction worlds generalizing cursor rows with
  | nil => cases walked
  | cons world later ih =>
      by_cases nothing : after stamp items cursor = []
      · rw [nothing]
        exact aligned_nil
      · obtain ⟨last, isLast⟩ := exists_getLast?_take positive nothing
        rw [follow_stampPage isLast] at walked
        obtain ⟨rest, isRest, rfl⟩ := Option.map_eq_some_iff.mp walked
        have restWhole : rest.Perm ((after stamp items cursor).drop limit) := by
          apply (List.perm_append_left_iff ((after stamp items cursor).take limit)).mp
          rwa [List.take_append_drop]
        have inAfter := after_after (List.mem_of_mem_take (List.mem_of_getLast? isLast))
        have beyond : ∀ row ∈ (after stamp items cursor).drop limit,
            stamp last < stamp row := by
          intro row member
          have isAfter := mem_of_follow isRest (restWhole.mem_iff.mpr member)
          simpa [after] using (List.mem_filter.mp isAfter).2
        have before : ∀ row ∈ (after stamp items cursor).take limit,
            stamp row ≤ stamp last := by
          intro row onPage
          by_contra late
          rw [not_le] at late
          -- Such a row would be read again, or another row of its page would be.
          obtain ⟨first, others, isFirst⟩ : ∃ first others,
              ((after stamp items cursor).take limit).filter
                (fun row => stamp last < stamp row) = first :: others :=
            List.exists_cons_of_ne_nil (List.ne_nil_of_mem
              (List.mem_filter.mpr ⟨onPage, decide_eq_true late⟩))
          have firstOnPage : first ∈ (after stamp items cursor).take limit :=
            (List.mem_filter.mp (isFirst ▸ List.mem_cons_self)).1
          have isHead : after stamp items (some (stamp last)) =
              first :: (others ++ ((after stamp items cursor).drop limit).filter
                fun row => stamp last < stamp row) := by
            rw [inAfter, ← List.cons_append, ← isFirst, ← List.filter_append,
              List.take_append_drop]
          have readAgain := restWhole.mem_iff.mp (head_mem_of_follow positive isRest isHead)
          exact List.disjoint_take_drop (distinct.filter _) le_rfl firstOnPage readAgain
        have parts := after_last isLast before beyond
        refine (aligned_iff isLast).mpr ⟨⟨before, beyond⟩, ?_⟩
        rw [← parts]
        apply ih isRest
        rw [parts]
        exact restWhole

@[simp] theorem after_none : after stamp items none = items := by simp [after]

/-- An aligned list is read whole and in its order from its first page on. -/
theorem follow_whole (positive : 0 < limit) (aligned : Aligned stamp limit items) {fuel : Nat}
    (enough : items.length < fuel) (world : World) :
    follow (fun _ => stampPage stamp limit items) (List.replicate fuel world) none =
      some items := by
  have walked := @follow_of_aligned World _ _ _ stamp limit items positive none world
    (by rwa [after_none]) fuel (by rwa [after_none])
  rwa [after_none] at walked

/-- A walk reads every row once where the list is aligned, and nowhere else. -/
theorem follow_perm_iff (positive : 0 < limit) (distinct : items.Nodup) {fuel : Nat}
    (enough : items.length < fuel) (world : World) :
    (∃ rows, follow (fun _ => stampPage stamp limit items) (List.replicate fuel world) none =
      some rows ∧ rows.Perm items) ↔ Aligned stamp limit items := by
  constructor
  · rintro ⟨rows, walked, whole⟩
    have aligned := @aligned_of_follow World _ _ _ stamp limit items positive distinct
      (List.replicate fuel world) none rows walked (by rwa [after_none])
    rwa [after_none] at aligned
  · intro aligned
    exact ⟨items, follow_whole positive aligned enough world, .refl _⟩

end Stamps

section Stability

variable {order : Row → Row → Prop} [DecidableRel order] {keeps : Row → Bool}

theorem filter_orderedInsert [IsTrans Row order] {rows : List Row} (sorted : rows.Pairwise order) :
    (rows.orderedInsert order row).filter keeps =
      if keeps row then (rows.filter keeps).orderedInsert order row else rows.filter keeps := by
  induction rows with
  | nil =>
      rw [List.orderedInsert_nil, List.filter_singleton]
      cases keeps row <;> rfl
  | cons first rest ih =>
      obtain ⟨isFirst, sortedRest⟩ := List.pairwise_cons.mp sorted
      by_cases here : order row first
      · rw [List.orderedInsert_cons_of_le _ rest here]
        split
        case isTrue kept =>
          rw [List.filter_cons_of_pos kept]
          cases remains : (first :: rest).filter keeps with
          | nil => rfl
          | cons head others =>
              have isRow : head ∈ first :: rest :=
                (List.mem_filter.mp (remains ▸ List.mem_cons_self)).1
              have before : order row head := by
                rcases List.mem_cons.mp isRow with rfl | later
                · exact here
                · exact IsTrans.trans _ _ _ here (isFirst head later)
              rw [List.orderedInsert_cons_of_le _ others before]
        case isFalse dropped => rw [List.filter_cons_of_neg dropped]
      · rw [List.orderedInsert_of_not_le _ rest here]
        by_cases kept : keeps first
        · rw [List.filter_cons_of_pos kept, List.filter_cons_of_pos kept,
            ih sortedRest]
          split
          case isTrue => rw [List.orderedInsert_of_not_le _ _ here]
          case isFalse => rfl
        · rw [List.filter_cons_of_neg kept, List.filter_cons_of_neg kept]
          exact ih sortedRest

/-- The sort is stable, so that sorting and leaving rows out commute. -/
theorem filter_insertionSort [IsTrans Row order] [Std.Total order] (rows : List Row) :
    (rows.insertionSort order).filter keeps = (rows.filter keeps).insertionSort order := by
  induction rows with
  | nil => rfl
  | cons row rest ih =>
      rw [List.insertionSort_cons, filter_orderedInsert (List.pairwise_insertionSort order rest),
        ih]
      split
      case isTrue kept => rw [List.filter_cons_of_pos kept, List.insertionSort_cons]
      case isFalse dropped => rw [List.filter_cons_of_neg dropped]

/-- Orders that agree on the rows of a list sort it alike. -/
theorem insertionSort_congr {other : Row → Row → Prop} [DecidableRel other] {rows : List Row}
    (same : ∀ first ∈ rows, ∀ second ∈ rows, order first second ↔ other first second) :
    rows.insertionSort order = rows.insertionSort other := by
  have sorted := List.map_insertionSort order other id rows same
  rwa [List.map_id, List.map_id] at sorted

end Stability

end NookOs.Lib.Walk
