/-
Module: NookOs.Lib.InFlight
Purpose: Lists of calls in flight: what taking one out, or putting its rest in
  its place, does to what holds of some or of all of them.
Trusted boundary: none
Main exports: any_eraseIdx, any_set, exists_mem_eraseIdx, exists_mem_set, sum_set, forall_mem_set
-/
import Mathlib.Algebra.GroupWithZero.Nat
import Mathlib.Data.List.Basic

namespace NookOs.Lib

/-!
A call in flight is an entry of a list, and a step takes the entry at an index:
the call is over, and the entry goes, or it has more to do, and the entry is
replaced.
-/

variable {Call : Type*} {calls : List Call} {index : Nat} {call : Call}

/-- Some call has a property when the one at the index or another has it. -/
theorem any_eraseIdx (present : calls[index]? = some call)
    (holds : Call → Bool) :
    calls.any holds = (holds call || (calls.eraseIdx index).any holds) := by
  induction calls generalizing index with
  | nil => simp at present
  | cons first rest ih =>
      cases index with
      | zero =>
          cases present
          rfl
      | succ index =>
          have smaller := ih (by simpa using present)
          rw [List.any_cons, smaller, List.eraseIdx_cons_succ, List.any_cons,
            Bool.or_left_comm]

/-- With the call at an index replaced, some call has a property when the new
one or one of the others has it. -/
theorem any_set (present : calls[index]? = some call) (next : Call)
    (holds : Call → Bool) :
    (calls.set index next).any holds =
      (holds next || (calls.eraseIdx index).any holds) := by
  induction calls generalizing index with
  | nil => simp at present
  | cons first rest ih =>
      cases index with
      | zero => rfl
      | succ index =>
          have smaller := ih (by simpa using present)
          rw [List.set_cons_succ, List.any_cons, smaller, List.eraseIdx_cons_succ,
            List.any_cons, Bool.or_left_comm]

/-- Some call has a property: the one at the index, or one that stays when it is
taken out. -/
theorem exists_mem_eraseIdx {property : Call → Prop}
    (present : calls[index]? = some call)
    (found : ∃ other ∈ calls, property other) :
    property call ∨ ∃ other ∈ calls.eraseIdx index, property other := by
  induction calls generalizing index with
  | nil => simp at present
  | cons first rest ih =>
      rcases found with ⟨other, member, holds⟩
      cases index with
      | zero =>
          cases present
          rcases List.mem_cons.mp member with rfl | inRest
          · exact .inl holds
          · exact .inr ⟨other, inRest, holds⟩
      | succ index =>
          rw [List.eraseIdx_cons_succ]
          rcases List.mem_cons.mp member with rfl | inRest
          · exact .inr ⟨other, List.mem_cons_self .., holds⟩
          · rcases ih (by simpa using present)
                ⟨other, inRest, holds⟩ with atIndex | ⟨later, stays, laterHolds⟩
            · exact .inl atIndex
            · exact .inr ⟨later, List.mem_cons_of_mem _ stays, laterHolds⟩

theorem mem_set_of_mem_eraseIdx {next other : Call}
    (stays : other ∈ calls.eraseIdx index) : other ∈ calls.set index next := by
  induction calls generalizing index with
  | nil => simp at stays
  | cons first rest ih =>
      cases index with
      | zero => exact List.mem_cons_of_mem _ stays
      | succ index =>
          rw [List.eraseIdx_cons_succ] at stays
          rw [List.set_cons_succ]
          rcases List.mem_cons.mp stays with rfl | inRest
          · exact List.mem_cons_self ..
          · exact List.mem_cons_of_mem _ (ih inRest)

/-- Some call has a property: the one at the index, or one that stays when
another takes its place. -/
theorem exists_mem_set {property : Call → Prop} (next : Call)
    (present : calls[index]? = some call)
    (found : ∃ other ∈ calls, property other) :
    property call ∨ ∃ other ∈ calls.set index next, property other := by
  rcases exists_mem_eraseIdx present found with atIndex | ⟨other, stays, holds⟩
  · exact .inl atIndex
  · exact .inr ⟨other, mem_set_of_mem_eraseIdx stays, holds⟩

/-- The call that takes the place of another is there. -/
theorem mem_set_self (present : calls[index]? = some call) (next : Call) :
    next ∈ calls.set index next := by
  have inRange := (List.getElem?_eq_some_iff.mp present).1
  exact List.mem_set inRange next

/-- A total over the calls, with the one at the index apart. -/
theorem sum_eraseIdx (present : calls[index]? = some call) (weight : Call → Nat) :
    (calls.map weight).sum =
      weight call + ((calls.eraseIdx index).map weight).sum := by
  induction calls generalizing index with
  | nil => simp at present
  | cons first rest ih =>
      cases index with
      | zero =>
          cases present
          rfl
      | succ index =>
          have smaller := ih (by simpa using present)
          rw [List.map_cons, List.sum_cons, smaller, List.eraseIdx_cons_succ,
            List.map_cons, List.sum_cons, Nat.add_left_comm]

/-- With the call at an index replaced, its weight is. -/
theorem sum_set (present : calls[index]? = some call) (next : Call)
    (weight : Call → Nat) :
    ((calls.set index next).map weight).sum =
      weight next + ((calls.eraseIdx index).map weight).sum := by
  induction calls generalizing index with
  | nil => simp at present
  | cons first rest ih =>
      cases index with
      | zero => rfl
      | succ index =>
          have smaller := ih (by simpa using present)
          rw [List.set_cons_succ, List.map_cons, List.sum_cons, smaller,
            List.eraseIdx_cons_succ, List.map_cons, List.sum_cons,
            Nat.add_left_comm]

/-- With the call at an index replaced, every call is the new one or was there
before. -/
theorem forall_mem_set {property : Call → Prop} {next : Call}
    (before : ∀ other ∈ calls, property other) (new : property next) :
    ∀ other ∈ calls.set index next, property other := by
  intro other member
  rcases List.mem_or_eq_of_mem_set member with earlier | rfl
  · exact before other earlier
  · exact new

end NookOs.Lib
