/-
Module: NookOs.Lib.Table
Purpose: A database table as a list of rows with a key, the single-row
  statements on it, and how they compose with a lookup.
Trusted boundary: none
Main exports: Table.find, Table.update, Table.delete, Table.upsert, Table.Keyed
-/
import Mathlib.Data.List.Basic
import Mathlib.Data.List.Nodup

namespace NookOs.Lib.Table

/-!
The rows stand in the order they were inserted.  `update` and `delete` carry
the `WHERE key = $1` of a single-row statement; nothing here assumes that keys
are unique except where a lemma says `Keyed`, which is what a primary key
promises.
-/

variable {Row Key : Type*} [DecidableEq Key]

section Statements

variable (key : Row → Key)

/-- `SELECT … WHERE key = $1`. -/
def find (rows : List Row) (wanted : Key) : Option Row :=
  rows.find? fun row => key row = wanted

/-- `UPDATE … WHERE key = $1`. -/
def update (wanted : Key) (change : Row → Row) (rows : List Row) : List Row :=
  rows.map fun row => if key row = wanted then change row else row

/-- `DELETE … WHERE key = $1`. -/
def delete (wanted : Key) (rows : List Row) : List Row :=
  rows.filter fun row => key row ≠ wanted

/-- Change the row of a key, inserting a fresh one first where there is none. -/
def upsert (fresh : Row) (change : Row → Row) (rows : List Row) : List Row :=
  if (find key rows (key fresh)).isSome then
    update key (key fresh) change rows
  else rows ++ [change fresh]

/-- No two rows share their key. -/
def Keyed (rows : List Row) : Prop :=
  (rows.map key).Nodup

end Statements

section Lookup

variable {key : Row → Key} {rows : List Row} {row : Row} {wanted other : Key}

omit [DecidableEq Key] in
theorem keyed_nil : Keyed key [] := List.nodup_nil

theorem find_some (found : find key rows wanted = some row) :
    row ∈ rows ∧ key row = wanted :=
  ⟨List.mem_of_find?_eq_some found, by simpa using List.find?_some found⟩

theorem find_none_iff :
    find key rows wanted = none ↔ ∀ row ∈ rows, key row ≠ wanted := by
  simp [find, List.find?_eq_none]

/-- With unique keys a lookup finds the row that has the key. -/
theorem Keyed.find_of_mem (keyed : Keyed key rows) (member : row ∈ rows) :
    find key rows (key row) = some row := by
  induction rows with
  | nil => contradiction
  | cons first rest ih =>
      obtain ⟨absent, restKeyed⟩ := List.nodup_cons.mp keyed
      rcases List.mem_cons.mp member with rfl | inRest
      · simp [find]
      · have differs : key first ≠ key row := by
          intro same
          exact absent (same ▸ List.mem_map_of_mem inRest)
        rw [find, List.find?_cons_of_neg (by simpa using differs)]
        exact ih restKeyed inRest

theorem Keyed.find_iff (keyed : Keyed key rows) :
    find key rows wanted = some row ↔ row ∈ rows ∧ key row = wanted := by
  constructor
  · exact find_some
  · rintro ⟨member, rfl⟩
    exact keyed.find_of_mem member

variable {change : Row → Row}

/-- A change of every row that keeps keys changes what a lookup finds. -/
theorem find_map (keeps : ∀ row, key (change row) = key row) :
    find key (rows.map change) wanted = (find key rows wanted).map change := by
  simp only [find, List.find?_map]
  congr 2
  funext row
  exact congrArg (fun same => decide (same = wanted)) (keeps row)

/-- An update that keeps keys changes the lookup of its own key only. -/
theorem find_update (keeps : ∀ row, key row = wanted → key (change row) = key row) :
    find key (update key wanted change rows) other =
      if other = wanted then (find key rows other).map change
      else find key rows other := by
  induction rows with
  | nil => simp [find, update]
  | cons first rest ih =>
      simp only [find, update] at ih
      simp only [find, update, List.map_cons, List.find?_cons]
      by_cases hit : key first = wanted
      · by_cases same : other = wanted
        · subst same
          simp [hit, keeps first hit]
        · have missed : key (change first) ≠ other := by
            rw [keeps first hit, hit]
            exact Ne.symm same
          have missedBefore : key first ≠ other := by
            rw [hit]
            exact Ne.symm same
          simpa [hit, missed, missedBefore, same, Ne.symm same]
            using ih
      · by_cases found : key first = other
        · have differs : other ≠ wanted := found ▸ hit
          simp [found, differs]
        · simpa [hit, found] using ih

/-- An update of a key no row has changes nothing. -/
theorem update_of_find_none (absent : find key rows wanted = none) :
    update key wanted change rows = rows := by
  unfold update
  conv_rhs => rw [← List.map_id rows]
  apply List.map_congr_left
  intro row member
  rw [if_neg (find_none_iff.mp absent row member)]
  rfl

/-- With unique keys an update changes a count by what it does to its row. -/
theorem Keyed.countP_update {counts : Row → Bool}
    (keyed : Keyed key rows) (found : find key rows wanted = some row) :
    (Table.update key wanted change rows).countP counts +
        (if counts row then 1 else 0) =
      rows.countP counts + if counts (change row) then 1 else 0 := by
  induction rows with
  | nil => contradiction
  | cons first rest ih =>
      obtain ⟨absent, restKeyed⟩ := List.nodup_cons.mp keyed
      by_cases hit : key first = wanted
      · -- The row is the first one, and no other has its key.
        have isFirst : first = row := by simpa [find, hit] using found
        have restMissed : find key rest wanted = none := by
          apply find_none_iff.mpr
          intro other member same
          exact absent (hit ▸ same ▸ List.mem_map_of_mem member)
        have unchanged : Table.update key wanted change rest = rest :=
          update_of_find_none restMissed
        subst isFirst
        unfold Table.update at unchanged ⊢
        rw [List.map_cons, if_pos hit, unchanged, List.countP_cons,
          List.countP_cons]
        omega
      · have inRest : find key rest wanted = some row := by
          simpa [find, hit] using found
        have smaller := ih restKeyed inRest
        unfold Table.update at smaller ⊢
        rw [List.map_cons, if_neg hit, List.countP_cons, List.countP_cons]
        omega

/-- With unique keys an update puts the changed row in the place of its row. -/
theorem Keyed.mem_update_iff {present : Row} (keyed : Keyed key rows) (member : row ∈ rows) :
    present ∈ Table.update key (key row) change rows ↔
      present = change row ∨ (present ∈ rows ∧ key present ≠ key row) := by
  simp only [Table.update, List.mem_map]
  constructor
  · rintro ⟨old, inRows, rfl⟩
    by_cases hit : key old = key row
    · have same : old = row := by
        have found := keyed.find_of_mem inRows
        rw [hit, keyed.find_of_mem member] at found
        exact (Option.some.inj found).symm
      exact .inl (by rw [if_pos hit, same])
    · rw [if_neg hit]
      exact .inr ⟨inRows, hit⟩
  · rintro (rfl | ⟨inRows, missed⟩)
    · exact ⟨row, member, if_pos rfl⟩
    · exact ⟨present, inRows, if_neg missed⟩

/-- A delete changes the lookup of its own key only. -/
theorem find_delete :
    find key (delete key wanted rows) other =
      if other = wanted then none else find key rows other := by
  induction rows with
  | nil => simp [find, delete]
  | cons first rest ih =>
      simp only [find, delete] at ih
      by_cases hit : key first = wanted
      · rw [delete, List.filter_cons_of_neg (by simpa using hit), find,
          ih]
        by_cases same : other = wanted
        · simp [same]
        · have missed : key first ≠ other := by
            rw [hit]
            exact Ne.symm same
          simp [same, find, missed]
      · rw [delete, List.filter_cons_of_pos (by simpa using hit), find,
          List.find?_cons, ih]
        by_cases found : key first = other
        · have differs : other ≠ wanted := found ▸ hit
          simp [found, find, differs]
        · simp [found, find]

/-- An insert is seen by the lookup of its own key only. -/
theorem find_insert :
    find key (rows ++ [row]) other =
      (find key rows other).or (if key row = other then some row else none) := by
  simp only [find, List.find?_append, List.find?_cons, List.find?_nil]
  by_cases hit : key row = other <;> simp [hit]

theorem Keyed.update (keyed : Keyed key rows)
    (keeps : ∀ row, key row = wanted → key (change row) = key row) :
    Keyed key (Table.update key wanted change rows) := by
  have same : (Table.update key wanted change rows).map key = rows.map key := by
    simp only [Table.update, List.map_map]
    refine List.map_congr_left fun row _ => ?_
    by_cases hit : key row = wanted
    · simp [hit, keeps row hit]
    · simp [hit]
  unfold Keyed
  rw [same]
  exact keyed

theorem Keyed.delete (keyed : Keyed key rows) :
    Keyed key (Table.delete key wanted rows) :=
  keyed.sublist ((List.filter_sublist).map key)

theorem Keyed.insert (keyed : Keyed key rows)
    (fresh : find key rows (key row) = none) : Keyed key (rows ++ [row]) := by
  unfold Keyed at keyed ⊢
  rw [List.map_append, List.nodup_append]
  refine ⟨keyed, by simp, ?_⟩
  rintro _ member _ inserted rfl
  obtain ⟨present, inRows, same⟩ := List.mem_map.mp member
  rw [List.map_singleton, List.mem_singleton] at inserted
  exact find_none_iff.mp fresh present inRows (same.trans inserted)

omit [DecidableEq Key] in
/-- Rows that share what else they are told apart by share their key. -/
theorem Keyed.rekey {Other : Type*} {other : Row → Other} (keyed : Keyed key rows)
    (finer : ∀ one ∈ rows, ∀ two ∈ rows, other one = other two → key one = key two) :
    (rows.map other).Nodup := by
  unfold Keyed at keyed
  rw [List.Nodup, List.pairwise_map] at keyed ⊢
  apply keyed.imp_of_mem
  intro one two isOne isTwo differ same
  exact differ (finer one isOne two isTwo same)

/-- An upsert changes the lookup of its own key only. -/
theorem find_upsert {fresh : Row} (keeps : ∀ row, key (change row) = key row) :
    find key (upsert key fresh change rows) other =
      if other = key fresh then
        some (change ((find key rows other).getD fresh))
      else find key rows other := by
  unfold upsert
  cases found : find key rows (key fresh) with
  | some present =>
      rw [Option.isSome_some, if_pos rfl, find_update fun row _ => keeps row]
      by_cases same : other = key fresh
      · simp [same, found]
      · simp [same]
  | none =>
      rw [Option.isSome_none, if_neg (by simp), find_insert, keeps]
      by_cases same : other = key fresh
      · simp [same, found]
      · simp [same, Ne.symm same]

theorem Keyed.upsert {fresh : Row}
    (keyed : Keyed key rows) (keeps : ∀ row, key (change row) = key row) :
    Keyed key (Table.upsert key fresh change rows) := by
  unfold Table.upsert
  split
  · exact keyed.update fun row _ => keeps row
  · rename_i absent
    apply keyed.insert
    rw [keeps]
    simpa using absent

end Lookup

end NookOs.Lib.Table
