/-
Module: NookOs.Notebook.Deletion
Purpose: The deletion of a folder by a call that runs alone: what it keeps, where
  it moves the contents, and when it refuses.
Trusted boundary: none
Main exports: Rows.dissolved, Rows.Refuses, Rows.placed, Rows.Clear.reparent, deleteFolder_keeps
-/
import NookOs.Notebook.Integrity

namespace NookOs.Notebook

open Lib
open Jobs (Instant)

section Meaning

namespace Rows

/-- The folder is gone, and its folders and notes are where it was. -/
def dissolved (rows : Rows) (id : FolderId) (dest : Option FolderId) : Rows :=
  { rows with
    folders := (Table.delete Folder.id id rows.folders).map
      (·.moveWhere (·.parentId = some id) dest)
    notes := rows.notes.map (·.moveWhere (·.folderId = some id) dest) }

/-- A child has the name of another row where it would land. -/
def Clashes (rows : Rows) (folder : Folder) : Prop :=
  (∃ child ∈ rows.folders, child.parentId = some folder.id ∧
    ∃ sibling ∈ rows.folders, sibling.parentId = folder.parentId ∧
      sibling.name = child.name ∧ sibling.id ≠ folder.id) ∨
  ∃ child ∈ rows.notes, child.folderId = some folder.id ∧
    ∃ sibling ∈ rows.notes, sibling.folderId = folder.parentId ∧ sibling.title = child.title

/-- The child that is named as the folder, which is no root, has the name of a
root. -/
def Detained (rows : Rows) (folder : Folder) : Prop :=
  folder.parentId ≠ none ∧
    (∃ child ∈ rows.folders, child.parentId = some folder.id ∧ child.name = folder.name) ∧
    ∃ other ∈ rows.folders, other.parentId = none ∧ other.name = folder.name ∧
      other.id ≠ folder.id

/-- When the deletion of a folder is refused. -/
def Refuses (rows : Rows) (folder : Folder) : Prop :=
  rows.Clashes folder ∨ rows.Detained folder

end Rows

end Meaning

section Places

namespace Rows

/-- The rows with other links, and without some of the folders. -/
def placed (rows : Rows) (kept : Folder → Bool) (parent : Folder → Option FolderId)
    (place : Note → Option FolderId) : Rows :=
  { rows with
    folders := (rows.folders.filter kept).map fun folder =>
      { folder with parentId := parent folder }
    notes := rows.notes.map fun note => { note with folderId := place note } }

variable {rows : Rows} {kept : Folder → Bool} {parent : Folder → Option FolderId}
  {place : Note → Option FolderId}

theorem placed_self : rows.placed (fun _ => true) Folder.parentId Note.folderId = rows := by
  simp only [placed, List.filter_true, List.map_id']

theorem placed_congr {keptToo : Folder → Bool} {parentToo : Folder → Option FolderId}
    {placeToo : Note → Option FolderId} (sameKept : ∀ folder ∈ rows.folders,
      kept folder = keptToo folder)
    (sameParent : ∀ folder ∈ rows.folders, keptToo folder = true →
      parent folder = parentToo folder)
    (samePlace : ∀ note ∈ rows.notes, place note = placeToo note) :
    rows.placed kept parent place = rows.placed keptToo parentToo placeToo := by
  have folders : (rows.folders.filter kept).map (fun folder =>
      { folder with parentId := parent folder }) =
        (rows.folders.filter keptToo).map fun folder =>
          { folder with parentId := parentToo folder } := by
    rw [List.filter_congr sameKept]
    apply List.map_congr_left
    intro folder member
    obtain ⟨inRows, isKept⟩ := List.mem_filter.mp member
    rw [sameParent folder inRows isKept]
  have notes : rows.notes.map (fun note => { note with folderId := place note }) =
      rows.notes.map fun note => { note with folderId := placeToo note } := by
    apply List.map_congr_left
    intro note member
    rw [samePlace note member]
  rw [placed, folders, notes]
  rfl

theorem placed_moveNotes {moved : Note → Bool} {dest : Option FolderId} :
    (rows.placed kept parent place).moveNotes moved dest =
      rows.placed kept parent fun note =>
        if moved { note with folderId := place note } then dest else place note := by
  simp only [placed, moveNotes, List.map_map]
  congr 1
  apply List.map_congr_left
  intro note _
  simp only [Function.comp_apply, Note.moveWhere]
  split <;> rfl

theorem placed_moveFolders {moved : Folder → Bool} {dest : Option FolderId} :
    (rows.placed kept parent place).moveFolders moved dest =
      rows.placed kept (fun folder =>
        if moved { folder with parentId := parent folder } then dest else parent folder)
        place := by
  simp only [placed, moveFolders, List.map_map]
  congr 1
  apply List.map_congr_left
  intro folder _
  simp only [Function.comp_apply, Folder.moveWhere]
  split <;> rfl

theorem placed_dropFolder {id : FolderId} :
    (rows.placed kept parent place).dropFolder id =
      rows.placed (fun folder => kept folder && decide (folder.id ≠ id))
        (fun folder => if parent folder = some id then none else parent folder)
        (fun note => if place note = some id then none else place note) := by
  rw [dropFolder, placed_moveNotes, placed_moveFolders]
  simp only [placed, Table.delete, List.filter_map, List.filter_filter, decide_eq_true_eq]
  congr 2
  apply List.filter_congr
  intro folder _
  rw [Bool.and_comm]
  rfl

/-- Rows whose new places are apart satisfy the constraints that the old ones did. -/
theorem placed_consistent (consistent : rows.Consistent)
    (names : ∀ one ∈ rows.folders, ∀ two ∈ rows.folders, kept one = true → kept two = true →
      parent one = parent two → one.name = two.name → one.id = two.id)
    (titles : ∀ one ∈ rows.notes, ∀ two ∈ rows.notes,
      place one = place two → one.title = two.title → one.id = two.id)
    (parents : ∀ folder ∈ rows.folders, kept folder = true → ∀ dest ∈ parent folder,
      ∃ other ∈ rows.folders, kept other = true ∧ other.id = dest)
    (places : ∀ note ∈ rows.notes, ∀ dest ∈ place note,
      ∃ other ∈ rows.folders, kept other = true ∧ other.id = dest) :
    (rows.placed kept parent place).Consistent := by
  have isFolder (dest : FolderId)
      (there : ∃ other ∈ rows.folders, kept other = true ∧ other.id = dest) :
      dest ∈ (rows.placed kept parent place).folderIds := by
    obtain ⟨other, member, isKept, rfl⟩ := there
    refine List.mem_map.mpr ⟨{ other with parentId := parent other }, ?_, rfl⟩
    exact List.mem_map_of_mem (List.mem_filter.mpr ⟨member, isKept⟩)
  have keyedFolders : Table.Keyed Folder.id (rows.placed kept parent place).folders := by
    have ids : (rows.placed kept parent place).folders.map Folder.id =
        (rows.folders.filter kept).map Folder.id := by
      simp only [placed, List.map_map]
      rfl
    rw [Table.Keyed, ids]
    exact consistent.folders.sublist (List.filter_sublist.map Folder.id)
  have keyedNotes : Table.Keyed Note.id (rows.placed kept parent place).notes := by
    have ids : (rows.placed kept parent place).notes.map Note.id = rows.notes.map Note.id := by
      simp only [placed, List.map_map]
      rfl
    rw [Table.Keyed, ids]
    exact consistent.notes
  refine ⟨⟨keyedFolders, keyedNotes, ?_, ?_⟩, ?_, ?_⟩
  · apply keyedFolders.rekey
    intro one isOne two isTwo same
    obtain ⟨first, isFirst, rfl⟩ := List.mem_map.mp isOne
    obtain ⟨second, isSecond, rfl⟩ := List.mem_map.mp isTwo
    obtain ⟨inRows, isKept⟩ := List.mem_filter.mp isFirst
    obtain ⟨alsoInRows, alsoKept⟩ := List.mem_filter.mp isSecond
    obtain ⟨sameParent, sameName⟩ := Prod.mk.inj same
    exact names first inRows second alsoInRows isKept alsoKept sameParent sameName
  · apply keyedNotes.rekey
    intro one isOne two isTwo same
    obtain ⟨first, isFirst, rfl⟩ := List.mem_map.mp isOne
    obtain ⟨second, isSecond, rfl⟩ := List.mem_map.mp isTwo
    obtain ⟨samePlace, sameTitle⟩ := Prod.mk.inj same
    exact titles first isFirst second isSecond samePlace sameTitle
  · intro folder member dest isDest
    obtain ⟨before, isBefore, rfl⟩ := List.mem_map.mp member
    obtain ⟨inRows, isKept⟩ := List.mem_filter.mp isBefore
    exact isFolder dest (parents before inRows isKept dest isDest)
  · intro note member dest isDest
    obtain ⟨before, isBefore, rfl⟩ := List.mem_map.mp member
    exact isFolder dest (places before isBefore dest isDest)

end Rows

end Places

section Transaction

namespace Rows

variable {rows : Rows} {folder : Folder} {sameNamed : Option FolderId}

/-- What the queries of a deletion have found where it goes on to its writes. -/
structure Clear (rows : Rows) (folder : Folder) (sameNamed : Option FolderId) : Prop where
  consistent : rows.Consistent
  member : folder ∈ rows.folders
  notInside : folder.parentId ≠ some folder.id
  folders : ∀ child ∈ rows.folders, child.parentId = some folder.id →
    ∀ sibling ∈ rows.folders, sibling.parentId = folder.parentId → sibling.name = child.name →
      sibling.id = folder.id
  notes : ∀ child ∈ rows.notes, child.folderId = some folder.id →
    ∀ sibling ∈ rows.notes, sibling.folderId = folder.parentId → sibling.title ≠ child.title
  found : ∀ child ∈ rows.folders, child.parentId = some folder.id →
    (child.name = folder.name ↔ sameNamed = some child.id)
  isChild : ∀ id ∈ sameNamed, ∃ child ∈ rows.folders, child.id = id ∧
    child.parentId = some folder.id ∧ child.name = folder.name
  transit : folder.parentId ≠ none → sameNamed ≠ none → ∀ other ∈ rows.folders,
    other.parentId = none → other.name ≠ folder.name

theorem Clear.sameFolder (clear : rows.Clear folder sameNamed) {one two : Folder}
    (isOne : one ∈ rows.folders) (isTwo : two ∈ rows.folders)
    (sameParent : one.parentId = two.parentId) (sameName : one.name = two.name) :
    one.id = two.id := by
  have same := List.inj_on_of_nodup_map clear.consistent.names isOne isTwo
    (Prod.ext sameParent sameName)
  rw [same]

theorem Clear.sameNote (clear : rows.Clear folder sameNamed) {one two : Note}
    (isOne : one ∈ rows.notes) (isTwo : two ∈ rows.notes)
    (samePlace : one.folderId = two.folderId) (sameTitle : one.title = two.title) :
    one.id = two.id := by
  have same := List.inj_on_of_nodup_map clear.consistent.titles isOne isTwo
    (Prod.ext samePlace sameTitle)
  rw [same]

theorem Clear.sameId (clear : rows.Clear folder sameNamed) {one two : Folder}
    (isOne : one ∈ rows.folders) (isTwo : two ∈ rows.folders) (same : one.id = two.id) :
    one = two :=
  List.inj_on_of_nodup_map clear.consistent.folders isOne isTwo same

/-- Where the notes are when the first update has run. -/
def landing (folder : Folder) (note : Note) : Option FolderId :=
  if note.folderId = some folder.id then folder.parentId else note.folderId

/-- Where the folders are when the second has. -/
def moving (folder : Folder) (sameNamed : Option FolderId) (child : Folder) : Option FolderId :=
  if child.parentId = some folder.id ∧ sameNamed ≠ some child.id then folder.parentId
  else child.parentId

/-- Where they are when the folder is deleted: the child of its name is a root. -/
def cutting (folder : Folder) (sameNamed : Option FolderId) (child : Folder) : Option FolderId :=
  if child.parentId = some folder.id then
    if sameNamed = some child.id then none else folder.parentId
  else child.parentId

/-- Where they are in the end. -/
def landed (folder child : Folder) : Option FolderId :=
  if child.parentId = some folder.id then folder.parentId else child.parentId

theorem emptied_eq : rows.moveNotes (fun note =>
    note.folderId = some folder.id && note.id ∉ ([] : List NoteId)) folder.parentId =
      rows.placed (fun _ => true) Folder.parentId (landing folder) := by
  conv_lhs => rw [← @placed_self rows]
  rw [placed_moveNotes]
  simp only [List.not_mem_nil, not_false_eq_true, decide_true, Bool.and_true,
    decide_eq_true_eq]
  rfl

theorem moved_eq : (rows.placed (fun _ => true) Folder.parentId (landing folder)).moveFolders
    (fun child => child.parentId = some folder.id && child.id ∉ ([] : List FolderId) &&
      sameNamed ≠ some child.id) folder.parentId =
      rows.placed (fun _ => true) (moving folder sameNamed) (landing folder) := by
  rw [placed_moveFolders]
  simp only [List.not_mem_nil, not_false_eq_true, decide_true, Bool.and_true,
    Bool.and_eq_true, decide_eq_true_eq]
  rfl

theorem Clear.deleted_eq (clear : rows.Clear folder sameNamed) :
    (rows.placed (fun _ => true) (moving folder sameNamed) (landing folder)).dropFolder
        folder.id =
      rows.placed (fun child => child.id ≠ folder.id) (cutting folder sameNamed)
        (landing folder) := by
  rw [placed_dropFolder]
  apply placed_congr
  · intro child _
    rfl
  · intro child _ _
    have notInside := clear.notInside
    simp only [moving, cutting]
    grind
  · intro note _
    have notInside := clear.notInside
    simp only [landing]
    grind

theorem Clear.arrived_eq (clear : rows.Clear folder sameNamed) {id : FolderId}
    (isNamed : sameNamed = some id) :
    (rows.placed (fun child => child.id ≠ folder.id) (cutting folder sameNamed)
        (landing folder)).moveFolders (·.id = id) folder.parentId =
      rows.placed (fun child => child.id ≠ folder.id) (landed folder) (landing folder) := by
  rw [placed_moveFolders]
  apply placed_congr
  · intro child _
    rfl
  · intro child isChild _
    obtain ⟨named, member, sameId, inside, -⟩ := clear.isChild id isNamed
    have same := @Clear.sameId _ _ _ clear child named isChild member
    simp only [cutting, landed]
    grind
  · intro note _
    rfl

/-- A deletion at the root is over when the folder is deleted. -/
theorem stays_eq
    (settled : sameNamed = none ∨ folder.parentId = none) :
    rows.placed (fun child => child.id ≠ folder.id) (cutting folder sameNamed)
        (landing folder) =
      rows.placed (fun child => child.id ≠ folder.id) (landed folder) (landing folder) := by
  apply placed_congr
  · intro child _
    rfl
  · intro child _ _
    simp only [cutting, landed]
    grind
  · intro note _
    rfl

theorem placed_eq_dissolved :
    rows.placed (fun child => child.id ≠ folder.id) (landed folder) (landing folder) =
      rows.dissolved folder.id folder.parentId := by
  have folders (child : Folder) : child.moveWhere (·.parentId = some folder.id) folder.parentId =
      { child with parentId := landed folder child } := by
    simp only [Folder.moveWhere, landed, decide_eq_true_eq]
    split <;> rfl
  have notes (note : Note) : note.moveWhere (·.folderId = some folder.id) folder.parentId =
      { note with folderId := landing folder note } := by
    simp only [Note.moveWhere, landing, decide_eq_true_eq]
    split <;> rfl
  simp only [placed, dissolved, Table.delete, folders, notes]

/-- The notes land beside notes of other titles. -/
theorem Clear.titles (clear : rows.Clear folder sameNamed) : ∀ one ∈ rows.notes,
    ∀ two ∈ rows.notes, landing folder one = landing folder two → one.title = two.title →
      one.id = two.id := by
  intro one isOne two isTwo samePlace sameTitle
  have same := @Clear.sameNote _ _ _ clear one two isOne isTwo
  have oneApart := clear.notes one isOne
  have twoApart := clear.notes two isTwo
  simp only [landing] at samePlace
  grind

/-- What a folder or a note hangs from is there, and stays where it is not the
folder. -/
theorem Clear.linked (clear : rows.Clear folder sameNamed) {dest : FolderId}
    (isLink : (∃ child ∈ rows.folders, child.parentId = some dest) ∨
      ∃ note ∈ rows.notes, note.folderId = some dest) :
    ∃ other ∈ rows.folders, other.id = dest := by
  rcases isLink with ⟨child, isChild, isDest⟩ | ⟨note, isNote, isDest⟩
  · exact List.mem_map.mp (clear.consistent.parents child isChild dest isDest)
  · exact List.mem_map.mp (clear.consistent.places note isNote dest isDest)

theorem Clear.destination (clear : rows.Clear folder sameNamed) {dest : FolderId}
    (isDest : folder.parentId = some dest) :
    ∃ other ∈ rows.folders, other.id ≠ folder.id ∧ other.id = dest := by
  obtain ⟨other, isOther, rfl⟩ := clear.linked (.inl ⟨folder, clear.member, isDest⟩)
  refine ⟨other, isOther, ?_, rfl⟩
  intro same
  exact clear.notInside (isDest.trans (congrArg some same))

/-- The notes land in folders that stay. -/
theorem Clear.places (clear : rows.Clear folder sameNamed) : ∀ note ∈ rows.notes,
    ∀ dest ∈ landing folder note, ∃ other ∈ rows.folders,
      other.id ≠ folder.id ∧ other.id = dest := by
  intro note isNote dest isDest
  rw [landing] at isDest
  split at isDest
  case isTrue => exact clear.destination isDest
  case isFalse outside =>
    obtain ⟨other, isOther, rfl⟩ := clear.linked (.inr ⟨note, isNote, isDest⟩)
    refine ⟨other, isOther, ?_, rfl⟩
    intro same
    exact outside (isDest.trans (congrArg some same))

/-- So do the folders that land with them. -/
theorem Clear.parents (clear : rows.Clear folder sameNamed) : ∀ child ∈ rows.folders,
    ∀ dest ∈ landed folder child, ∃ other ∈ rows.folders,
      other.id ≠ folder.id ∧ other.id = dest := by
  intro child isChild dest isDest
  rw [landed] at isDest
  split at isDest
  case isTrue => exact clear.destination isDest
  case isFalse outside =>
    obtain ⟨other, isOther, rfl⟩ := clear.linked (.inl ⟨child, isChild, isDest⟩)
    refine ⟨other, isOther, ?_, rfl⟩
    intro same
    exact outside (isDest.trans (congrArg some same))

theorem Clear.emptied (clear : rows.Clear folder sameNamed) :
    (rows.placed (fun _ => true) Folder.parentId (landing folder)).Consistent := by
  apply placed_consistent clear.consistent _ clear.titles
  · intro child isChild _ dest isDest
    obtain ⟨other, isOther, sameId⟩ := clear.linked (.inl ⟨child, isChild, isDest⟩)
    exact ⟨other, isOther, rfl, sameId⟩
  · intro note isNote dest isDest
    obtain ⟨other, isOther, -, sameId⟩ := clear.places note isNote dest isDest
    exact ⟨other, isOther, rfl, sameId⟩
  · intro one isOne two isTwo _ _ sameParent sameName
    exact clear.sameFolder isOne isTwo sameParent sameName

theorem Clear.moved (clear : rows.Clear folder sameNamed) :
    (rows.placed (fun _ => true) (moving folder sameNamed) (landing folder)).Consistent := by
  apply placed_consistent clear.consistent _ clear.titles
  · intro child isChild _ dest isDest
    obtain ⟨other, isOther, sameId⟩ : ∃ other ∈ rows.folders, other.id = dest := by
      rw [moving] at isDest
      split at isDest
      case isTrue => exact clear.linked (.inl ⟨folder, clear.member, isDest⟩)
      case isFalse => exact clear.linked (.inl ⟨child, isChild, isDest⟩)
    exact ⟨other, isOther, rfl, sameId⟩
  · intro note isNote dest isDest
    obtain ⟨other, isOther, -, sameId⟩ := clear.places note isNote dest isDest
    exact ⟨other, isOther, rfl, sameId⟩
  · intro one isOne two isTwo _ _ sameParent sameName
    have same := @Clear.sameFolder _ _ _ clear one two isOne isTwo
    have oneApart := clear.folders one isOne
    have twoApart := clear.folders two isTwo
    have oneFound := clear.found one isOne
    have twoFound := clear.found two isTwo
    have oneIs := @Clear.sameId _ _ _ clear one folder isOne clear.member
    have twoIs := @Clear.sameId _ _ _ clear two folder isTwo clear.member
    simp only [moving] at sameParent
    grind

theorem Clear.deleted (clear : rows.Clear folder sameNamed) :
    (rows.placed (fun child => child.id ≠ folder.id) (cutting folder sameNamed)
      (landing folder)).Consistent := by
  apply placed_consistent clear.consistent _ clear.titles
  · intro child isChild _ dest isDest
    have lands : dest ∈ landed folder child := by
      rw [cutting] at isDest
      rw [landed]
      split at isDest
      case isTrue inside =>
        split at isDest
        case isTrue => cases isDest
        case isFalse => rwa [if_pos inside]
      case isFalse outside => rwa [if_neg outside]
    obtain ⟨other, isOther, stays, sameId⟩ := clear.parents child isChild dest lands
    exact ⟨other, isOther, decide_eq_true stays, sameId⟩
  · intro note isNote dest isDest
    obtain ⟨other, isOther, stays, sameId⟩ := clear.places note isNote dest isDest
    exact ⟨other, isOther, decide_eq_true stays, sameId⟩
  · intro one isOne two isTwo oneKept twoKept sameParent sameName
    have same := @Clear.sameFolder _ _ _ clear one two isOne isTwo
    have oneApart := clear.folders one isOne
    have twoApart := clear.folders two isTwo
    have oneFound := clear.found one isOne
    have twoFound := clear.found two isTwo
    have transit := clear.transit
    simp only [cutting] at sameParent
    grind

theorem Clear.dissolved (clear : rows.Clear folder sameNamed) :
    (rows.dissolved folder.id folder.parentId).Consistent := by
  rw [← placed_eq_dissolved]
  apply placed_consistent clear.consistent _ clear.titles
  · intro child isChild _ dest isDest
    obtain ⟨other, isOther, stays, sameId⟩ := clear.parents child isChild dest isDest
    exact ⟨other, isOther, decide_eq_true stays, sameId⟩
  · intro note isNote dest isDest
    obtain ⟨other, isOther, stays, sameId⟩ := clear.places note isNote dest isDest
    exact ⟨other, isOther, decide_eq_true stays, sameId⟩
  · intro one isOne two isTwo oneKept twoKept sameParent sameName
    have same := @Clear.sameFolder _ _ _ clear one two isOne isTwo
    have oneApart := clear.folders one isOne
    have twoApart := clear.folders two isTwo
    simp only [landed] at sameParent
    grind

theorem checked_of_consistent (consistent : rows.Consistent) : rows.checked = .ok rows :=
  if_pos consistent

/-- Every statement of the transaction is allowed, and together they dissolve the
folder. -/
theorem Clear.reparent (clear : rows.Clear folder sameNamed) :
    rows.reparent [] [] folder.id folder.parentId sameNamed =
      .ok (rows.dissolved folder.id folder.parentId) := by
  rw [Rows.reparent, emptied_eq, checked_of_consistent clear.emptied]
  simp only [bind, Except.bind]
  rw [moved_eq, checked_of_consistent clear.moved]
  simp only []
  rw [clear.deleted_eq, checked_of_consistent clear.deleted]
  cases sameNamed with
  | none =>
      dsimp only
      rw [stays_eq (.inl rfl), placed_eq_dissolved]
  | some child =>
      cases isDest : folder.parentId with
      | none =>
          dsimp only
          rw [stays_eq (.inr isDest), placed_eq_dissolved, isDest]
      | some dest =>
          dsimp only
          rw [← isDest, clear.arrived_eq rfl, placed_eq_dissolved,
            checked_of_consistent clear.dissolved]

end Rows

end Transaction

section Queries

namespace Rows

variable {rows : Rows} {folder : Folder} {name : String}

theorem head_sorted {names : List String} :
    (names.insertionSort (· ≤ ·)).head? = none ↔ names = [] := by
  rw [List.head?_eq_none_iff]
  constructor
  · intro empty
    have sorted := List.perm_insertionSort (· ≤ ·) names
    rw [empty] at sorted
    exact sorted.symm.eq_nil
  · rintro rfl
    rfl

theorem folderClash_none_iff : rows.folderClash folder.id folder.parentId = none ↔
    ∀ child ∈ rows.folders, child.parentId = some folder.id →
      ∀ sibling ∈ rows.folders, sibling.parentId = folder.parentId →
        sibling.name = child.name → sibling.id = folder.id := by
  rw [folderClash, head_sorted, List.map_eq_nil_iff, List.filter_eq_nil_iff]
  simp only [Bool.and_eq_true, decide_eq_true_eq, List.any_eq_true, not_and, not_exists]
  grind

theorem noteClash_none_iff : rows.noteClash folder.id folder.parentId = none ↔
    ∀ child ∈ rows.notes, child.folderId = some folder.id →
      ∀ sibling ∈ rows.notes, sibling.folderId = folder.parentId →
        sibling.title ≠ child.title := by
  rw [noteClash, head_sorted, List.map_eq_nil_iff, List.filter_eq_nil_iff]
  simp only [Bool.and_eq_true, decide_eq_true_eq, List.any_eq_true, not_and, not_exists]
  grind

theorem clashes_iff : rows.Clashes folder ↔
    rows.folderClash folder.id folder.parentId ≠ none ∨
      rows.noteClash folder.id folder.parentId ≠ none := by
  rw [Ne, folderClash_none_iff, Ne, noteClash_none_iff, Clashes]
  push Not
  rfl

theorem transit_none_iff : rows.transit folder.id name = none ↔
    ∀ other ∈ rows.folders, other.parentId = none → other.name = name →
      other.id = folder.id := by
  rw [transit, Option.map_eq_none_iff, List.find?_eq_none]
  simp only [Bool.and_eq_true, decide_eq_true_eq, not_and, ne_eq, not_not, and_imp]

theorem childNamed_some {id : FolderId} (found : rows.childNamed folder.id name = some id) :
    ∃ child ∈ rows.folders, child.id = id ∧ child.parentId = some folder.id ∧
      child.name = name := by
  obtain ⟨child, isFound, sameId⟩ := Option.map_eq_some_iff.mp found
  have inside := List.find?_some isFound
  simp only [Bool.and_eq_true, decide_eq_true_eq] at inside
  exact ⟨child, List.mem_of_find?_eq_some isFound, sameId, inside.1, inside.2⟩

theorem childNamed_none_iff : rows.childNamed folder.id name = none ↔
    ∀ child ∈ rows.folders, child.parentId = some folder.id → child.name ≠ name := by
  rw [childNamed, Option.map_eq_none_iff, List.find?_eq_none]
  simp only [Bool.and_eq_true, decide_eq_true_eq, not_and, ne_eq]

/-- What the last query of a deletion gives. -/
def transitOf (rows : Rows) (folder : Folder) : Option String :=
  match rows.childNamed folder.id folder.name, folder.parentId with
  | some _, some _ => rows.transit folder.id folder.name
  | _, _ => none

theorem detained_iff : rows.Detained folder ↔ rows.transitOf folder ≠ none := by
  have named := @childNamed_none_iff rows folder folder.name
  have passed := @transit_none_iff rows folder folder.name
  rw [Detained, transitOf]
  cases isNamed : rows.childNamed folder.id folder.name with
  | none =>
      have noChild := named.mp isNamed
      grind
  | some id =>
      obtain ⟨child, isChild, -, inside, sameName⟩ := childNamed_some isNamed
      cases isDest : folder.parentId with
      | none => simp only [ne_eq, not_true_eq_false, false_and]
      | some dest =>
          simp only [ne_eq, passed]
          grind

/-- Where the queries find nothing, the writes are allowed. -/
theorem clear_of_queries (consistent : rows.Consistent) (member : folder ∈ rows.folders)
    (notInside : folder.parentId ≠ some folder.id)
    (folders : rows.folderClash folder.id folder.parentId = none)
    (notes : rows.noteClash folder.id folder.parentId = none)
    (passes : rows.transitOf folder = none) :
    rows.Clear folder (rows.childNamed folder.id folder.name) where
  consistent := consistent
  member := member
  notInside := notInside
  folders := folderClash_none_iff.mp folders
  notes := noteClash_none_iff.mp notes
  found := by
    intro child isChild inside
    constructor
    · intro sameName
      cases isNamed : rows.childNamed folder.id folder.name with
      | none => exact absurd sameName (childNamed_none_iff.mp isNamed child isChild inside)
      | some id =>
          obtain ⟨named, isToo, rfl, insideToo, sameToo⟩ := childNamed_some isNamed
          have same := List.inj_on_of_nodup_map consistent.names isToo isChild
            (Prod.ext (insideToo.trans inside.symm) (sameToo.trans sameName.symm))
          rw [same]
    · intro isNamed
      obtain ⟨named, isToo, sameId, -, sameName⟩ := childNamed_some isNamed
      have same := List.inj_on_of_nodup_map consistent.folders isToo isChild sameId
      rw [← same]
      exact sameName
  isChild id isNamed := childNamed_some isNamed
  transit := by
    intro notRoot isNamed other isOther atRoot sameName
    have isFolder : other.id = folder.id := by
      rw [transitOf] at passes
      cases named : rows.childNamed folder.id folder.name with
      | none => exact absurd named isNamed
      | some id =>
          obtain ⟨dest, isDest⟩ := Option.ne_none_iff_exists'.mp notRoot
          rw [named, isDest] at passes
          exact transit_none_iff.mp passes other isOther atRoot sameName
    have same := List.inj_on_of_nodup_map consistent.folders isOther member isFolder
    rw [same] at atRoot
    exact notRoot atRoot

end Rows

end Queries

section Run

variable {rows : Rows} {folder : Folder}

/-- What hung from the folder passes it by, so that every chain still ends. -/
theorem Rows.dissolved_rooted (consistent : rows.Consistent) (member : folder ∈ rows.folders)
    {id : FolderId} (rooted : Rooted rows.parentOf id) :
    Rooted (rows.dissolved folder.id folder.parentId).parentOf id := by
  apply rooted.bypass
  intro other
  have relinked (row : Folder) :
      (row.moveWhere (·.parentId = some folder.id) folder.parentId).id = row.id :=
    row.moveWhere_id _ _
  have after : (rows.dissolved folder.id folder.parentId).folder other =
      if other = folder.id then none
      else (rows.folder other).map
        (·.moveWhere (·.parentId = some folder.id) folder.parentId) := by
    rw [Rows.folder, Rows.dissolved, Table.find_map relinked, Table.find_delete]
    split <;> rfl
  rw [Rows.parentOf, after]
  split
  case isTrue => exact .inr (.inl rfl)
  case isFalse =>
    rw [Rows.parentOf]
    cases rows.folder other with
    | none => exact .inl rfl
    | some row =>
        rw [Option.map_some, Option.bind_some, Folder.moveWhere_parentId, Option.bind_some]
        split
        case isTrue inside =>
          refine .inr (.inr ⟨folder.id, of_decide_eq_true inside, ?_⟩)
          exact (consistent.parentOf member).symm
        case isFalse => exact .inl rfl

/-- A folder of a forest is not its own parent. -/
theorem Rows.notInside (consistent : rows.Consistent) (member : folder ∈ rows.folders)
    (rooted : Rooted rows.parentOf folder.id) : folder.parentId ≠ some folder.id := by
  intro inside
  have linked : rows.parentOf folder.id = some folder.id :=
    (consistent.parentOf member).trans inside
  generalize folder.id = id at rooted linked
  induction rooted with
  | root atRoot => cases atRoot.symm.trans linked
  | child isParent _ ih =>
      cases linked.symm.trans isParent
      exact ih linked

section Answers

variable (codec : Codec) (now : Instant)

theorem finishAt_transitClash :
    (notebook codec).finishAt { now := now }
      (transitClash folder.id folder.name (rows.childNamed folder.id folder.name)
        folder.parentId).run rows = some (rows, .ok (rows.transitOf folder)) := by
  rw [transitClash.eq_def, Rows.transitOf]
  cases rows.childNamed folder.id folder.name with
  | none => rfl
  | some child =>
      cases folder.parentId with
      | none | some => rfl

/-- A query that runs alone reads the rows, and leaves them. -/
theorem finishAt_query {request : Statement} {value : request.Value}
    (reads : rows.answer { now := now } request = some (rows, .ok value)) :
    (notebook codec).finishAt { now := now } (perform request).run rows =
      some (rows, .ok value) := by
  apply Service.finishAt_perform
  change rows.execute { now := now } request = some (rows, .ok value)
  rw [Rows.execute, reads]

end Answers

/-- The folder of a forest is deleted by a call that runs alone, or the call is
refused and has changed nothing.  Where it is deleted its contents are at the
place it had, the constraints hold and every chain ends; and no statement of the
transaction has failed. -/
theorem deleteFolder_keeps (codec : Codec) (now : Instant) (consistent : rows.Consistent)
    (forest : ∀ folder ∈ rows.folders, Rooted rows.parentOf folder.id)
    (member : folder ∈ rows.folders) :
    ∃ after outcome,
      (notebook codec).finishAt { now := now } (deleteFolderReparenting folder.id).run rows =
        some (after, .ok outcome) ∧
      ((rows.Refuses folder ∧ after = rows ∧ ∃ what name, outcome = .collision what name) ∨
        (¬ rows.Refuses folder ∧ outcome = .deleted ∧
          after = rows.dissolved folder.id folder.parentId ∧ after.Consistent ∧
          ∀ other ∈ after.folders, Rooted after.parentOf other.id)) := by
  have placed : rows.answer { now := now } (.place folder.id) =
      some (rows, .ok (some (folder.parentId, folder.name))) := by
    rw [Rows.answer, Rows.folder, consistent.folders.find_of_mem member]
    rfl
  have clashes := @Rows.clashes_iff rows folder
  have detained := @Rows.detained_iff rows folder
  rw [deleteFolderReparenting, Service.finishAt_ok_bind (finishAt_query codec now placed)]
  dsimp only
  rw [Service.finishAt_ok_bind (finishAt_query codec now rfl)]
  cases folders : rows.folderClash folder.id folder.parentId with
  | some name =>
      refine ⟨rows, .collision "folder" name, rfl, .inl ⟨.inl ?_, rfl, _, _, rfl⟩⟩
      exact clashes.mpr (.inl (folders ▸ Option.some_ne_none name))
  | none =>
  dsimp only
  rw [Service.finishAt_ok_bind (finishAt_query codec now rfl)]
  cases notes : rows.noteClash folder.id folder.parentId with
  | some title =>
      refine ⟨rows, .collision "note" title, rfl, .inl ⟨.inl ?_, rfl, _, _, rfl⟩⟩
      exact clashes.mpr (.inr (notes ▸ Option.some_ne_none title))
  | none =>
  dsimp only
  rw [Service.finishAt_ok_bind (finishAt_query codec now rfl),
    Service.finishAt_ok_bind (finishAt_transitClash codec now)]
  cases passes : rows.transitOf folder with
  | some name =>
      refine ⟨rows, .collision "folder" name, rfl, .inl ⟨.inr ?_, rfl, _, _, rfl⟩⟩
      exact detained.mpr (passes ▸ Option.some_ne_none name)
  | none =>
  dsimp only
  have clear := Rows.clear_of_queries consistent member
    (Rows.notInside consistent member (forest folder member)) folders notes passes
  have made : rows.execute { now := now } (.reparent folder.id folder.parentId
      (rows.childNamed folder.id folder.name)) =
        some (rows.dissolved folder.id folder.parentId, .ok ()) := by
    rw [Rows.execute, Rows.answer, clear.reparent]
    rfl
  rw [Service.finishAt_ok_bind (Service.finishAt_perform made)]
  refine ⟨rows.dissolved folder.id folder.parentId, .deleted, rfl, .inr ⟨?_, rfl, rfl,
    clear.dissolved, ?_⟩⟩
  · rintro (clash | passesNot)
    · rcases clashes.mp clash with folderClash | noteClash
      · exact folderClash folders
      · exact noteClash notes
    · exact detained.mp passesNot passes
  · intro other isOther
    apply Rows.dissolved_rooted consistent member
    obtain ⟨before, isBefore, rfl⟩ := List.mem_map.mp isOther
    rw [Folder.moveWhere_id]
    exact forest before (List.mem_filter.mp isBefore).1

/-- A folder whose child has its name, below another: the child passes through
the root. -/
def nested : Rows where
  folders := [⟨1, none, "Home", 0, 0⟩, ⟨2, some 1, "Work", 0, 0⟩, ⟨3, some 2, "Work", 0, 0⟩,
    ⟨4, some 2, "Plans", 0, 0⟩]
  notes := [
    { id := 1, folderId := some 2, title := "todo", contentEnc := ⟨[], 0⟩, createdAt := 0,
      updatedAt := 0 }]
  vault := none
  seals := []

/-- The same with a root of that name. -/
def nestedBesideRoot : Rows :=
  { nested with folders := ⟨5, none, "Work", 0, 0⟩ :: nested.folders }

theorem forest_of_climbs (climbs : ∀ folder ∈ rows.folders,
    (climb rows.parentOf rows.folders.length folder.id).isSome = true) :
    ∀ folder ∈ rows.folders, Rooted rows.parentOf folder.id := by
  intro folder member
  obtain ⟨chain, climbed⟩ := Option.isSome_iff_exists.mp (climbs folder member)
  exact Rooted.of_climb climbed

theorem deleteFolder_keeps_nested : ∃ after outcome,
    (notebook plainCodec).finishAt { now := 7 } (deleteFolderReparenting 2).run nested =
      some (after, .ok outcome) ∧
    ((nested.Refuses ⟨2, some 1, "Work", 0, 0⟩ ∧ after = nested ∧
        ∃ what name, outcome = .collision what name) ∨
      (¬ nested.Refuses ⟨2, some 1, "Work", 0, 0⟩ ∧ outcome = .deleted ∧
        after = nested.dissolved 2 (some 1) ∧ after.Consistent ∧
        ∀ other ∈ after.folders, Rooted after.parentOf other.id)) :=
  @deleteFolder_keeps nested ⟨2, some 1, "Work", 0, 0⟩ plainCodec 7 (by decide)
    (forest_of_climbs (by decide)) (by decide)

/-- No row beside the folder has the name of its child, and the deletion is
refused. -/
theorem deleteFolder_detains : nestedBesideRoot.Consistent ∧
    (∀ folder ∈ nestedBesideRoot.folders, Rooted nestedBesideRoot.parentOf folder.id) ∧
    ⟨2, some 1, "Work", 0, 0⟩ ∈ nestedBesideRoot.folders ∧
    ¬ nestedBesideRoot.Clashes ⟨2, some 1, "Work", 0, 0⟩ ∧
    (notebook plainCodec).finishAt { now := 7 } (deleteFolderReparenting 2).run
      nestedBesideRoot = some (nestedBesideRoot, .ok (.collision "folder" "Work")) := by
  refine ⟨by decide, forest_of_climbs (by decide), by decide, ?_, rfl⟩
  rw [Rows.clashes_iff]
  decide

end Run

end NookOs.Notebook
