/-
Module: NookOs.Lib.Paging
Purpose: Lists read a page at a time, and what the first page of an ordered list
  says about the whole of it.
Trusted boundary: none
Main exports: page, walk, walk_ok, mem_take_of_recent, byRecency
-/
import NookOs.Lib.Fallible
import Mathlib.Data.List.Sort
import Mathlib.Tactic.Common

namespace NookOs.Lib.Paging

variable {Item : Type}

/-- The page of a list, numbered from one. -/
def page (size : Nat) (items : List Item) (number : Nat) : List Item :=
  (items.drop ((number - 1) * size)).take size

/-- What stands before a page, and the page, are what stands before the next. -/
theorem take_append_page (size : Nat) (items : List Item) (number : Nat) :
    items.take (number * size) ++ page size items (number + 1) =
      items.take ((number + 1) * size) := by
  rw [page, Nat.add_sub_cancel, Nat.succ_mul, List.take_add]

/-- A page that is not full is the last one. -/
theorem take_of_short {size number : Nat} {items : List Item}
    (short : (page size items (number + 1)).length < size) :
    items.take ((number + 1) * size) = items := by
  rw [page, Nat.add_sub_cancel, List.length_take, List.length_drop] at short
  apply List.take_of_length_le
  rw [Nat.succ_mul]
  omega

section Walk

variable {Failure Value : Type}

/-- Ask for page after page, keep what is read of each, and stop at the first
that is not full.  With no page left to ask for, it fails. -/
def walk (size : Nat) (fetch : Nat → Except Failure (List Item)) (read : Item → Option Value)
    (tooMany : Failure) : Nat → Nat → List Value → Except Failure (List Value)
  | 0, _, _ => .error tooMany
  | left + 1, number, gathered => do
      let items ← fetch number
      let gathered := gathered ++ items.filterMap read
      if items.length < size then .ok gathered
      else walk size fetch read tooMany left (number + 1) gathered

/-- A walk that succeeds has read the whole list, whatever failed to be asked. -/
theorem walk_ok {size : Nat} {fetch : Nat → Except Failure (List Item)}
    {read : Item → Option Value} {tooMany : Failure} {items : List Item}
    (pages : ∀ number given, fetch number = .ok given → given = page size items number)
    (number : Nat) {left : Nat} {gathered answer : List Value}
    (before : gathered = (items.take (number * size)).filterMap read)
    (walked : walk size fetch read tooMany left (number + 1) gathered = .ok answer) :
    answer = items.filterMap read := by
  induction left generalizing number gathered with
  | zero => simp [walk] at walked
  | succ left ih =>
      obtain ⟨given, fetched, went⟩ := Fallible.bind_ok walked
      have isPage := pages (number + 1) given fetched
      have onward : gathered ++ given.filterMap read =
          (items.take ((number + 1) * size)).filterMap read := by
        rw [before, isPage, ← List.filterMap_append, take_append_page]
      simp only at went
      split at went
      · rename_i short
        rw [isPage] at short
        rw [← Except.ok.inj went, onward, take_of_short short]
      · exact ih _ onward went

end Walk

section Recent

variable {key : Item → Int} {items : List Item}

/-- Of a list that falls by its key, the elements from a bound on stand first:
when they fit on a page, they are all on it. -/
theorem mem_take_of_recent (bound : Int) {size : Nat} {item : Item}
    (falling : items.Pairwise fun first second => key second ≤ key first)
    (fits : (items.filter fun item => bound ≤ key item).length ≤ size)
    (member : item ∈ items) (recent : bound ≤ key item) : item ∈ items.take size := by
  induction items generalizing size with
  | nil => cases member
  | cons head rest ih =>
      obtain ⟨below, restFalling⟩ := List.pairwise_cons.mp falling
      have headRecent : bound ≤ key head := by
        rcases List.mem_cons.mp member with rfl | later
        · exact recent
        · exact recent.trans (below item later)
      rw [List.filter_cons_of_pos (by simpa using headRecent), List.length_cons] at fits
      obtain ⟨room, rfl⟩ : ∃ room, size = room + 1 := ⟨size - 1, by omega⟩
      rw [List.take_succ_cons]
      rcases List.mem_cons.mp member with rfl | later
      · exact List.mem_cons_self
      · exact List.mem_cons_of_mem _
          (ih restFalling (by omega) later)

/-- Newest first, elements of one key as they stood. -/
def byRecency (key : Item → Int) (items : List Item) : List Item :=
  items.insertionSort fun first second => key second ≤ key first

theorem byRecency_perm : (byRecency key items).Perm items :=
  List.perm_insertionSort _ _

theorem byRecency_falling :
    (byRecency key items).Pairwise fun first second => key second ≤ key first := by
  have total : Std.Total fun first second : Item => key second ≤ key first :=
    ⟨fun first second => Int.le_total (key second) (key first)⟩
  have transitive : IsTrans Item fun first second => key second ≤ key first :=
    ⟨fun _ _ _ above below => Int.le_trans below above⟩
  exact List.pairwise_insertionSort _ _

end Recent

end NookOs.Lib.Paging
