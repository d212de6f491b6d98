/-
Module: NookOs.Notebook.Integrity
Purpose: Whether the folders of a notebook stay a forest and its sealed notes
  stay sealed, over every interleaving of calls.
Trusted boundary: none
Main exports: Rows.Upheld, Rows.Fit, Rows.Sound, notebook_broken, notebook_upheld
-/
import NookOs.Lib.Fallible
import NookOs.Notebook.Calls

namespace NookOs.Notebook

open Lib
open Jobs (Instant)

section Law

/-- Whether a deletion moves a folder to where the deleted one hung. -/
def Choice.moves (choice : Choice) (id : FolderId) (sameNamed : Option FolderId)
    (folder : Folder) : Bool :=
  (folder.parentId = some id && folder.id ∉ choice.lateFolders) ||
    sameNamed = some folder.id

namespace Rows

/-- Every chain of parents ends at a root, so the cycle check and the query of
the paths return; and a sealed note has the content of its last seal. -/
structure Upheld (rows : Rows) : Prop where
  forest : ∀ folder ∈ rows.folders, Rooted rows.parentOf folder.id
  cycleCheck : ∀ folder newParent, (rows.wouldCycle folder newParent).isSome = true
  paths : ∃ paths, rows.folderPath = some paths ∧
    ∀ folder ∈ rows.folders, folder.id ∈ paths.map Prod.fst
  «sealed» : ∀ note ∈ rows.notes, note.sealedSalt.isSome = true →
    rows.lastSeal note.id = some note.contentEnc

/-- What a write may meet: the cycle check, asked now, has nothing against the
folders it moves, and the note is not sealed whose body it replaces. -/
def Fit (rows : Rows) (choice : Choice) : Statement → Prop
  | .updateFolder id { name := _, parent := some (some parent) } =>
      rows.wouldCycle id parent = some false
  | .reparent id (some dest) sameNamed =>
      ∀ folder ∈ rows.folders, choice.moves id sameNamed folder = true →
        rows.wouldCycle folder.id dest = some false
  | .updateNote id { title := _, contentEnc := some _, folder := _ } =>
      (rows.note id).any (·.sealedSalt.isSome) = false
  | _ => True

instance (rows : Rows) (choice : Choice) (request : Statement) :
    Decidable (rows.Fit choice request) := by
  unfold Fit
  split <;> infer_instance

end Rows

end Law

section Forest

namespace Rows

variable {rows : Rows} {id target : FolderId}

theorem folder_of_parentOf {parent : FolderId} (linked : rows.parentOf id = some parent) :
    ∃ folder ∈ rows.folders, folder.id = id ∧ folder.parentId = some parent := by
  obtain ⟨folder, found, isParent⟩ := Option.bind_eq_some_iff.mp linked
  obtain ⟨member, isFolder⟩ := Table.find_some found
  exact ⟨folder, member, isFolder, isParent⟩

/-- The link of a folder is the parent in its row. -/
theorem Unique.parentOf (unique : rows.Unique) {folder : Folder}
    (member : folder ∈ rows.folders) : rows.parentOf folder.id = folder.parentId := by
  rw [Rows.parentOf, Rows.folder, unique.folders.find_of_mem member]
  rfl

/-- What is on the chain of a folder is a folder. -/
theorem Consistent.onChain (consistent : rows.Consistent)
    (onChain : OnChain rows.parentOf target id) (isFolder : id ∈ rows.folderIds) :
    target ∈ rows.folderIds := by
  induction onChain with
  | here => exact isFolder
  | above linked _ ih =>
      obtain ⟨folder, member, -, isParent⟩ := folder_of_parentOf linked
      exact ih (consistent.parents folder member _ isParent)

/-- What is no folder has no parent. -/
theorem parentOf_none (missing : id ∉ rows.folderIds) : rows.parentOf id = none := by
  cases linked : rows.parentOf id with
  | none => rfl
  | some parent =>
      obtain ⟨folder, member, isFolder, -⟩ := folder_of_parentOf linked
      exact absurd (isFolder ▸ List.mem_map_of_mem member) missing

/-- The rows satisfy their constraints, every chain ends, and what is sealed is
as it was sealed. -/
structure Sound (rows : Rows) : Prop where
  consistent : rows.Consistent
  forest : ∀ folder ∈ rows.folders, Rooted rows.parentOf folder.id
  «sealed» : ∀ note ∈ rows.notes, note.sealedSalt.isSome = true →
    rows.lastSeal note.id = some note.contentEnc

theorem Sound.blank : Rows.blank.Sound where
  consistent := by decide
  forest := nofun
  «sealed» := nofun

theorem Sound.rooted (sound : rows.Sound) (id : FolderId) : Rooted rows.parentOf id := by
  by_cases isFolder : id ∈ rows.folderIds
  · obtain ⟨folder, member, rfl⟩ := List.mem_map.mp isFolder
    exact sound.forest folder member
  · exact .root (parentOf_none isFolder)

/-- Every chain is climbed, with as much as the query has. -/
theorem Sound.climbs (sound : rows.Sound) (id : FolderId) :
    ∃ chain, climb rows.parentOf (rows.folders.length + 1) id = some chain := by
  by_cases isFolder : id ∈ rows.folderIds
  · have found := (sound.rooted id).climb_isSome fun target onChain =>
      sound.consistent.onChain onChain isFolder
    obtain ⟨chain, climbed⟩ := Option.isSome_iff_exists.mp found
    refine ⟨chain, climb_of_length_le climbed ?_⟩
    have among : chain ⊆ rows.folderIds := fun target member =>
      sound.consistent.onChain ((mem_climb_iff climbed).mp member) isFolder
    have short := (List.subperm_of_subset (climb_nodup climbed) among).length_le
    rw [folderIds, List.length_map] at short
    exact Nat.le_succ_of_le short
  · exact ⟨_, climb_root (parentOf_none isFolder)⟩

/-- Where the cycle check has nothing against a folder, it is not on the
chain. -/
theorem Sound.not_onChain (sound : rows.Sound) {folder newParent : FolderId}
    (free : rows.wouldCycle folder newParent = some false) (isFolder : folder ∈ rows.folderIds) :
    ¬ OnChain rows.parentOf folder newParent := by
  intro onChain
  obtain ⟨chain, climbed⟩ := sound.climbs newParent
  rw [wouldCycle, climbed, Option.map_some, Option.some.injEq, Bool.and_eq_false_iff,
    decide_eq_false_iff_not, decide_eq_false_iff_not] at free
  rcases free with absent | noFolder
  · exact absent ((mem_climb_iff climbed).mpr onChain)
  · exact noFolder isFolder

/-- A level of the query of the paths: its folders hang from a root by chains of
one length. -/
def IsLevel (rows : Rows) (depth : Nat) (level : List (FolderId × String)) : Prop :=
  ∀ entry ∈ level, entry.1 ∈ rows.folderIds ∧
    ∃ chain, climb rows.parentOf (depth + 1) entry.1 = some chain ∧ chain.length = depth + 1

variable {level : List (FolderId × String)}

/-- No chain is longer than there are folders. -/
theorem Consistent.depth_lt (consistent : rows.Consistent) {depth : Nat} {entry : FolderId × String}
    (isLevel : rows.IsLevel depth level) (member : entry ∈ level) :
    depth < rows.folders.length := by
  obtain ⟨isFolder, chain, climbed, long⟩ := isLevel entry member
  have among : chain ⊆ rows.folderIds := fun target onChain =>
    consistent.onChain ((mem_climb_iff climbed).mp onChain) isFolder
  have short := (List.subperm_of_subset (climb_nodup climbed) among).length_le
  rw [folderIds, List.length_map] at short
  omega

/-- The children of a level are the next level. -/
theorem Consistent.nextLevel (consistent : rows.Consistent) {depth : Nat}
    (isLevel : rows.IsLevel depth level) :
    rows.IsLevel (depth + 1) (level.flatMap fun (id, path) =>
      (rows.folders.filter (·.parentId = some id)).map fun child =>
        (child.id, path ++ "/" ++ child.name)) := by
  intro entry member
  obtain ⟨⟨id, path⟩, above, below⟩ := List.mem_flatMap.mp member
  obtain ⟨child, isChild, rfl⟩ := List.mem_map.mp below
  obtain ⟨inRows, linked⟩ := List.mem_filter.mp isChild
  obtain ⟨-, chain, climbed, long⟩ := isLevel (id, path) above
  have isParent : rows.parentOf child.id = some id := by
    rw [consistent.parentOf inRows]
    exact of_decide_eq_true linked
  refine ⟨List.mem_map_of_mem inRows, child.id :: chain, ?_, congrArg Nat.succ long⟩
  rw [climb_child isParent, climbed]
  rfl

/-- The query of the paths returns, and with every folder below those it was
given. -/
theorem Consistent.folderPathFrom (consistent : rows.Consistent) {fuel depth : Nat}
    (isLevel : rows.IsLevel depth level) (enough : rows.folders.length ≤ depth + fuel) :
    ∃ paths, rows.folderPathFrom fuel level = some paths ∧
      (∀ id ∈ level.map Prod.fst, id ∈ paths.map Prod.fst) ∧
      ∀ folder ∈ rows.folders, ∀ parent ∈ folder.parentId, parent ∈ paths.map Prod.fst →
        folder.id ∈ paths.map Prod.fst := by
  induction fuel generalizing depth level with
  | zero =>
      cases level with
      | nil => exact ⟨[], rfl, nofun, nofun⟩
      | cons entry rest =>
          have shallow := consistent.depth_lt isLevel List.mem_cons_self
          omega
  | succ fuel ih =>
      cases level with
      | nil => exact ⟨[], rfl, nofun, nofun⟩
      | cons entry rest =>
          obtain ⟨paths, returned, holdsLevel, closed⟩ :=
            ih (consistent.nextLevel isLevel) (by omega)
          refine ⟨(entry :: rest) ++ paths, ?_, ?_, ?_⟩
          · rw [Rows.folderPathFrom, returned]
            rfl
          · intro id member
            rw [List.map_append]
            exact List.mem_append_left _ member
          · intro folder member parent isParent found
            rw [List.map_append, List.mem_append] at found ⊢
            rcases found with here | further
            · obtain ⟨above, inLevel, rfl⟩ := List.mem_map.mp here
              refine .inr (holdsLevel folder.id ?_)
              apply List.mem_map.mpr
              refine ⟨(folder.id, above.2 ++ "/" ++ folder.name), ?_, rfl⟩
              apply List.mem_flatMap.mpr
              exact ⟨above, inLevel, List.mem_map_of_mem
                (List.mem_filter.mpr ⟨member, decide_eq_true isParent⟩)⟩
            · exact .inr (closed folder member parent isParent further)

/-- The query of the paths returns, and with every folder. -/
theorem Sound.paths (sound : rows.Sound) :
    ∃ paths, rows.folderPath = some paths ∧
      ∀ folder ∈ rows.folders, folder.id ∈ paths.map Prod.fst := by
  have isLevel : rows.IsLevel 0 ((rows.folders.filter (·.parentId = none)).map
      fun folder => (folder.id, folder.name)) := by
    intro entry member
    obtain ⟨folder, isRoot, rfl⟩ := List.mem_map.mp member
    obtain ⟨inRows, unlinked⟩ := List.mem_filter.mp isRoot
    refine ⟨List.mem_map_of_mem inRows, [folder.id], climb_root ?_, rfl⟩
    rw [sound.consistent.parentOf inRows]
    exact of_decide_eq_true unlinked
  obtain ⟨paths, returned, holdsRoots, closed⟩ :=
    sound.consistent.folderPathFrom isLevel (Nat.le_of_eq (Nat.zero_add _).symm)
  refine ⟨paths, returned, ?_⟩
  -- Down the chain of a folder, from its root.
  have found (id : FolderId) (rooted : Rooted rows.parentOf id) :
      ∀ folder ∈ rows.folders, folder.id = id → id ∈ paths.map Prod.fst := by
    induction rooted with
    | root atRoot =>
        rintro folder member rfl
        rw [sound.consistent.parentOf member] at atRoot
        apply holdsRoots
        rw [List.map_map]
        exact List.mem_map_of_mem (f := Prod.fst ∘ fun folder : Folder => (folder.id, folder.name))
          (List.mem_filter.mpr ⟨member, decide_eq_true atRoot⟩)
    | child linked _ ih =>
        rintro folder member rfl
        rw [sound.consistent.parentOf member] at linked
        obtain ⟨above, inRows, isParent⟩ :=
          List.mem_map.mp (sound.consistent.parents folder member _ linked)
        exact closed folder member _ linked (ih above inRows isParent)
  exact fun folder member => found folder.id (sound.forest folder member) folder member rfl

theorem Sound.upheld (sound : rows.Sound) : rows.Upheld where
  forest := sound.forest
  cycleCheck := by
    intro folder newParent
    obtain ⟨chain, climbed⟩ := sound.climbs newParent
    rw [Rows.wouldCycle, climbed]
    rfl
  paths := sound.paths
  «sealed» := sound.sealed

end Rows

end Forest

section Writes

namespace Rows

variable {rows after : Rows}

theorem folder_map {change : Folder → Folder} (keeps : ∀ folder, (change folder).id = folder.id)
    (isAfter : after.folders = rows.folders.map change) (id : FolderId) :
    after.folder id = (rows.folder id).map change := by
  rw [folder, isAfter, Table.find_map keeps]
  rfl

/-- Changed rows with links to one folder, on whose chain no link changes, are a
forest. -/
theorem Sound.relinked (sound : rows.Sound) (after : Rows) (dest : Option FolderId)
    (change : Folder → Folder) (keeps : ∀ folder, (change folder).id = folder.id)
    (isAfter : after.folders = rows.folders.map change)
    (links : ∀ folder ∈ rows.folders,
      (change folder).parentId = folder.parentId ∨ (change folder).parentId = dest)
    (clear : ∀ target ∈ dest, ∀ folder ∈ rows.folders,
      OnChain rows.parentOf folder.id target → (change folder).parentId = folder.parentId)
    (id : FolderId) : Rooted after.parentOf id := by
  have linked (id : FolderId) : after.parentOf id = rows.parentOf id ∨
      ∃ folder ∈ rows.folders, folder.id = id ∧
        after.parentOf id = (change folder).parentId ∧ rows.parentOf id = folder.parentId := by
    rw [parentOf, folder_map keeps isAfter, parentOf]
    cases found : rows.folder id with
    | none => exact .inl rfl
    | some folder =>
        obtain ⟨member, isFolder⟩ := Table.find_some found
        exact .inr ⟨folder, member, isFolder, rfl, rfl⟩
  cases dest with
  | none =>
      apply (sound.rooted id).cut
      intro other
      rcases linked other with same | ⟨folder, member, -, isLink, wasLink⟩
      · exact .inl same
      · rw [isLink, wasLink]
        exact links folder member
  | some target =>
      refine (sound.rooted id).relink (?_ : Rooted after.parentOf target) ?_
      · apply (sound.rooted target).relink_target
        intro other onChain
        rcases linked other with same | ⟨folder, member, rfl, isLink, wasLink⟩
        · exact .inl same
        · rw [isLink, wasLink]
          exact .inl (clear target rfl folder member onChain)
      · intro other
        rcases linked other with same | ⟨folder, member, -, isLink, wasLink⟩
        · exact .inl same
        · rw [isLink, wasLink]
          rcases links folder member with same | toTarget
          · exact .inl same
          · exact .inr (.inr toTarget)

/-- Notes that keep their content and their seal, or have no seal, are as they
were sealed. -/
theorem Sound.resealed (sound : rows.Sound) (after : Rows) (change : Note → Note)
    (isAfter : after.notes = rows.notes.map change) (sameSeals : after.seals = rows.seals)
    (kept : ∀ note ∈ rows.notes, (change note).sealedSalt.isSome = true →
      note.sealedSalt.isSome = true ∧ (change note).id = note.id ∧
        (change note).contentEnc = note.contentEnc) :
    ∀ note ∈ after.notes, note.sealedSalt.isSome = true →
      after.lastSeal note.id = some note.contentEnc := by
  rw [isAfter]
  intro changed member isSealed
  obtain ⟨note, inRows, rfl⟩ := List.mem_map.mp member
  obtain ⟨wasSealed, sameId, sameContent⟩ := kept note inRows isSealed
  rw [lastSeal, sameSeals, sameId, sameContent]
  exact sound.sealed note inRows wasSealed

theorem Sound.resealed_moved (sound : rows.Sound) (after : Rows) (moved : Note → Bool)
    (dest : Option FolderId) (isAfter : after.notes = rows.notes.map (·.moveWhere moved dest))
    (sameSeals : after.seals = rows.seals) :
    ∀ note ∈ after.notes, note.sealedSalt.isSome = true →
      after.lastSeal note.id = some note.contentEnc := by
  apply sound.resealed after (·.moveWhere moved dest) isAfter sameSeals
  intro note _ isSealed
  rw [Note.moveWhere_sealedSalt] at isSealed
  exact ⟨isSealed, note.moveWhere_id moved dest, note.moveWhere_contentEnc moved dest⟩

variable {dest : Option FolderId}

theorem Sound.moveNotes (sound : rows.Sound) {moved : Note → Bool}
    (consistent : (rows.moveNotes moved dest).Consistent) :
    (rows.moveNotes moved dest).Sound where
  consistent := consistent
  forest := sound.forest
  «sealed» := sound.resealed_moved (rows.moveNotes moved dest) moved dest rfl rfl

variable {moved : Folder → Bool}

theorem Sound.moveFolders (sound : rows.Sound)
    (clear : ∀ target ∈ dest, ∀ folder ∈ rows.folders, moved folder = true →
      ¬ OnChain rows.parentOf folder.id target)
    (consistent : (rows.moveFolders moved dest).Consistent) :
    (rows.moveFolders moved dest).Sound where
  consistent := consistent
  forest := by
    intro folder _
    apply sound.relinked (rows.moveFolders moved dest) dest (·.moveWhere moved dest)
      (fun folder => folder.moveWhere_id moved dest) rfl
    · intro folder _
      rw [Folder.moveWhere_parentId]
      split
      case isTrue => exact .inr rfl
      case isFalse => exact .inl rfl
    · intro target isDest folder member onChain
      rw [Folder.moveWhere_parentId, if_neg]
      intro isMoved
      exact clear target isDest folder member isMoved onChain
  «sealed» := sound.sealed

/-- A folder that is not moved keeps its link. -/
theorem parentOf_moveFolders {id : FolderId}
    (stays : ∀ folder ∈ rows.folders, folder.id = id → ¬ moved folder = true) :
    (rows.moveFolders moved dest).parentOf id = rows.parentOf id := by
  have relinked : (rows.moveFolders moved dest).folder id =
      (rows.folder id).map (·.moveWhere moved dest) :=
    folder_map (fun folder => folder.moveWhere_id moved dest) rfl id
  rw [parentOf, relinked, parentOf]
  cases found : rows.folder id with
  | none => rfl
  | some folder =>
      obtain ⟨member, isFolder⟩ := Table.find_some found
      rw [Option.map_some, Option.bind_some, Folder.moveWhere_parentId,
        if_neg (stays folder member isFolder)]
      rfl

theorem mem_folderIds_of_dropFolder {id other : FolderId}
    (member : other ∈ (rows.dropFolder id).folderIds) : other ∈ rows.folderIds := by
  obtain ⟨folder, isFolder, rfl⟩ := List.mem_map.mp member
  obtain ⟨before, inRows, rfl⟩ := List.mem_map.mp (List.mem_filter.mp isFolder).1
  rw [Folder.moveWhere_id]
  exact List.mem_map_of_mem inRows

theorem mem_folderIds_of_moveFolders
    {other : FolderId} (member : other ∈ (rows.moveFolders moved dest).folderIds) :
    other ∈ rows.folderIds := by
  obtain ⟨folder, isFolder, rfl⟩ := List.mem_map.mp member
  obtain ⟨before, inRows, rfl⟩ := List.mem_map.mp isFolder
  rw [Folder.moveWhere_id]
  exact List.mem_map_of_mem inRows

/-- The link of a folder when another is deleted is kept, or cut. -/
theorem parentOf_dropFolder (id other : FolderId) :
    (rows.dropFolder id).parentOf other = rows.parentOf other ∨
      (rows.dropFolder id).parentOf other = none := by
  rw [parentOf, folder, dropFolder, Table.find_delete]
  split
  case isTrue => exact .inr rfl
  case isFalse =>
    have cut : ((rows.moveNotes (·.folderId = some id) none).moveFolders
        (·.parentId = some id) none).folder other =
          (rows.folder other).map (·.moveWhere (·.parentId = some id) none) :=
      folder_map (fun folder => folder.moveWhere_id _ _) rfl other
    rw [← folder, cut, parentOf]
    cases rows.folder other with
    | none => exact .inl rfl
    | some folder =>
        rw [Option.map_some, Option.bind_some, Folder.moveWhere_parentId]
        split
        case isTrue => exact .inr rfl
        case isFalse => exact .inl rfl

/-- Moves that are clear of a chain, and a deletion, put nothing new on it. -/
theorem onChain_of_dropFolder {id target other : FolderId}
    (clear : ∀ folder ∈ rows.folders, moved folder = true →
      ¬ OnChain rows.parentOf folder.id target)
    (onChain : OnChain ((rows.moveFolders moved dest).dropFolder id).parentOf other target) :
    OnChain rows.parentOf other target := by
  apply onChain.before
  intro above isAbove
  have stays : (rows.moveFolders moved dest).parentOf above = rows.parentOf above := by
    apply parentOf_moveFolders
    rintro folder member rfl isMoved
    exact clear folder member isMoved isAbove
  rw [← stays]
  exact parentOf_dropFolder id above

theorem Sound.dropFolder (sound : rows.Sound) {id : FolderId}
    (consistent : (rows.dropFolder id).Consistent) : (rows.dropFolder id).Sound where
  consistent := consistent
  forest folder _ := (sound.rooted folder.id).cut (parentOf_dropFolder id)
  «sealed» := sound.resealed_moved (rows.dropFolder id) (·.folderId = some id) none rfl rfl

theorem checked_ok (allowed : rows.checked = .ok after) : after = rows ∧ after.Consistent := by
  unfold checked at allowed
  split at allowed
  case isTrue consistent =>
    cases allowed
    exact ⟨rfl, consistent⟩
  case isFalse => cases allowed

/-- A write that was made left what it was allowed to. -/
theorem write_cases {Value : Type} {before : Rows} {change : Except ApiError Rows}
    {value : Rows → Value} {reply : Except ApiError Value}
    (wrote : before.write change value = (after, reply)) : after = before ∨ change = .ok after := by
  unfold write at wrote
  split at wrote
  case h_1 rows =>
    cases wrote
    exact .inr rfl
  case h_2 error =>
    cases wrote
    exact .inl rfl

/-- The transaction of a deletion leaves a sound notebook, where the cycle check
has nothing against the folders it moves. -/
theorem Sound.reparent (sound : rows.Sound) {choice : Choice} {id : FolderId}
    {dest sameNamed : Option FolderId} (fit : rows.Fit choice (.reparent id dest sameNamed))
    (made : rows.reparent choice.lateFolders choice.lateNotes id dest sameNamed = .ok after) :
    after.Sound := by
  have clear : ∀ target ∈ dest, ∀ folder ∈ rows.folders,
      choice.moves id sameNamed folder = true → ¬ OnChain rows.parentOf folder.id target := by
    intro target isDest folder member isMoved
    cases isDest
    exact sound.not_onChain (fit folder member isMoved) (List.mem_map_of_mem member)
  have clearAlong : ∀ target ∈ dest, ∀ folder ∈ rows.folders,
      (folder.parentId = some id && folder.id ∉ choice.lateFolders &&
        sameNamed ≠ some folder.id) = true → ¬ OnChain rows.parentOf folder.id target := by
    intro target isDest folder member isMoved
    apply clear target isDest folder member
    rw [Bool.and_eq_true] at isMoved
    rw [Choice.moves, isMoved.1]
    rfl
  obtain ⟨emptied, one, rest⟩ := Fallible.bind_ok made
  obtain ⟨rfl, consistent⟩ := checked_ok one
  obtain ⟨moved, two, rest₁⟩ := Fallible.bind_ok rest
  obtain ⟨rfl, consistent₁⟩ := checked_ok two
  obtain ⟨deleted, three, rest₂⟩ := Fallible.bind_ok rest₁
  obtain ⟨rfl, consistent₂⟩ := checked_ok three
  have soundDeleted :=
    ((sound.moveNotes consistent).moveFolders clearAlong consistent₁).dropFolder consistent₂
  split at rest₂
  case h_2 =>
    cases rest₂
    exact soundDeleted
  case h_1 child target =>
    obtain ⟨rfl, consistent₃⟩ := checked_ok rest₂
    apply soundDeleted.moveFolders _ consistent₃
    intro _ isDest folder member isChild onChain
    cases isDest
    have isFolder : folder.id ∈ rows.folderIds :=
      mem_folderIds_of_moveFolders
        (mem_folderIds_of_dropFolder (List.mem_map_of_mem member))
    obtain ⟨before, inRows, sameId⟩ := List.mem_map.mp isFolder
    have isMoved : choice.moves id (some child) before = true := by
      rw [Choice.moves, Bool.or_eq_true, decide_eq_true_eq, sameId, of_decide_eq_true isChild]
      exact .inr rfl
    -- The chain of the destination has nothing new on it.
    apply clear target rfl before inRows isMoved
    rw [sameId]
    exact onChain_of_dropFolder (clearAlong target rfl) onChain

/-- A new folder hangs from a folder there was, and nothing hangs from it. -/
theorem Sound.createFolder (sound : rows.Sound) {row : Folder}
    (isOther : row.parentId ≠ some row.id)
    (consistent : ({ rows with folders := rows.folders ++ [row] } : Rows).Consistent) :
    ({ rows with folders := rows.folders ++ [row] } : Rows).Sound where
  consistent := consistent
  forest := by
    intro folder _
    have fresh : rows.folder row.id = none := by
      apply Table.find_none_iff.mpr
      intro other member same
      have distinct := consistent.folders
      rw [Table.Keyed, List.map_append, List.nodup_append] at distinct
      exact distinct.2.2 other.id (List.mem_map_of_mem member) row.id (by simp) same
    have linked (id : FolderId) :
        ({ rows with folders := rows.folders ++ [row] } : Rows).parentOf id =
          if id = row.id then row.parentId else rows.parentOf id := by
      rw [parentOf, Rows.folder, Table.find_insert, ← Rows.folder, parentOf]
      by_cases isNew : id = row.id
      · rw [if_pos isNew, isNew, fresh, if_pos rfl]
        rfl
      · rw [if_neg isNew, if_neg (Ne.symm isNew), Option.or_none]
    have isRoot : rows.parentOf row.id = none := by
      rw [parentOf, fresh]
      rfl
    cases parent : row.parentId with
    | none =>
        apply (sound.rooted folder.id).cut
        intro id
        rw [linked id]
        split
        case isTrue => exact .inr parent
        case isFalse => exact .inl rfl
    | some target =>
        refine (sound.rooted folder.id).relink (?_ : Rooted _ target) ?_
        · apply (sound.rooted target).relink_target
          intro id onChain
          rw [linked id, if_neg]
          · exact .inl rfl
          · rintro rfl
            have isParent := consistent.parents row (by simp) target parent
            rw [folderIds, List.map_append, List.mem_append] at isParent
            rcases isParent with wasFolder | isNew
            · obtain ⟨other, member, same⟩ :=
                List.mem_map.mp (sound.consistent.onChain onChain wasFolder)
              exact Table.find_none_iff.mp fresh other member same
            · rw [List.map_singleton, List.mem_singleton] at isNew
              exact isOther (isNew ▸ parent)
        · intro id
          rw [linked id]
          split
          case isTrue => exact .inr (.inr parent)
          case isFalse => exact .inl rfl
  «sealed» := sound.sealed

theorem Sound.updateFolder (sound : rows.Sound) {choice : Choice} {id : FolderId}
    {edit : FolderEdit} (fit : rows.Fit choice (.updateFolder id edit)) (now : Instant)
    (consistent : ({ rows with
      folders := Table.update Folder.id id (fun folder => { folder with
        name := edit.name.getD folder.name
        parentId := edit.parent.getD folder.parentId
        updatedAt := now }) rows.folders } : Rows).Consistent) :
    ({ rows with
      folders := Table.update Folder.id id (fun folder => { folder with
        name := edit.name.getD folder.name
        parentId := edit.parent.getD folder.parentId
        updatedAt := now }) rows.folders } : Rows).Sound where
  consistent := consistent
  forest := by
    intro folder _
    apply sound.relinked _ (edit.parent.getD none) (fun folder =>
      if folder.id = id then { folder with
        name := edit.name.getD folder.name
        parentId := edit.parent.getD folder.parentId
        updatedAt := now } else folder) ?_ rfl
    · intro folder _
      split
      case isFalse => exact .inl rfl
      case isTrue =>
        cases edit.parent with
        | none => exact .inl rfl
        | some parent => exact .inr rfl
    · intro target isDest folder member onChain
      split
      case isFalse => rfl
      case isTrue isFolder =>
        obtain ⟨name, parent⟩ := edit
        cases parent with
        | none => rfl
        | some parent =>
            cases isDest
            subst isFolder
            exact absurd onChain (sound.not_onChain fit (List.mem_map_of_mem member))
    · intro folder
      split <;> rfl
  «sealed» := sound.sealed

/-- A change of one note that keeps its content and its seal, or leaves it
without a seal. -/
theorem Sound.changeNote (sound : rows.Sound) {id : NoteId} {change : Note → Note}
    (keeps : ∀ note, (change note).id = note.id)
    (kept : ∀ note ∈ rows.notes, note.id = id → (change note).sealedSalt.isSome = true →
      note.sealedSalt.isSome = true ∧ (change note).contentEnc = note.contentEnc)
    (consistent : (rows.changeNote id change).Consistent) :
    (rows.changeNote id change).Sound where
  consistent := consistent
  forest := sound.forest
  «sealed» := by
    apply sound.resealed (rows.changeNote id change)
      (fun note => if note.id = id then change note else note) rfl rfl
    intro note member isSealed
    by_cases isNote : note.id = id
    · rw [if_pos isNote] at isSealed ⊢
      obtain ⟨wasSealed, sameContent⟩ := kept note member isNote isSealed
      exact ⟨wasSealed, keeps note, sameContent⟩
    · rw [if_neg isNote] at isSealed ⊢
      exact ⟨isSealed, rfl, rfl⟩

/-- The last seal of a note after a seal of one that is there. -/
theorem lastSeal_sealedWith {now : Instant} {id : NoteId} {body : SealedBody}
    (present : (rows.note id).isSome = true) (other : NoteId) :
    (rows.sealedWith now id body).lastSeal other =
      if other = id then some body.contentEnc else rows.lastSeal other := by
  simp only [lastSeal, sealedWith, present, if_true, List.find?_cons]
  by_cases same : id = other
  · simp [same]
  · simp [same, Ne.symm same]

/-- A sealed note has the content it was sealed with just now. -/
theorem Sound.sealNote (sound : rows.Sound) {now : Instant} {id : NoteId} {body : SealedBody}
    (consistent : (rows.sealedWith now id body).Consistent) :
    (rows.sealedWith now id body).Sound where
  consistent := consistent
  forest := sound.forest
  «sealed» := by
    intro changed member isSealed
    obtain ⟨note, inRows, isChanged⟩ := List.mem_map.mp member
    by_cases isNote : note.id = id
    · rw [if_pos isNote] at isChanged
      subst isChanged
      have present : (rows.note id).isSome = true := by
        rw [Rows.note, ← isNote, sound.consistent.notes.find_of_mem inRows]
        rfl
      rw [lastSeal_sealedWith present]
      exact if_pos isNote
    · rw [if_neg isNote] at isChanged
      subst isChanged
      have wasLast := sound.sealed note inRows isSealed
      by_cases present : (rows.note id).isSome = true
      · rw [lastSeal_sealedWith present, if_neg isNote]
        exact wasLast
      · rw [lastSeal, sealedWith, if_neg present]
        exact wasLast

theorem Sound.createNote (sound : rows.Sound) {row : Note} (isOpen : row.sealedSalt = none)
    (consistent : ({ rows with notes := rows.notes ++ [row] } : Rows).Consistent) :
    ({ rows with notes := rows.notes ++ [row] } : Rows).Sound where
  consistent := consistent
  forest := sound.forest
  «sealed» := by
    intro note member isSealed
    rcases List.mem_append.mp member with before | new
    · exact sound.sealed note before isSealed
    · rw [List.mem_singleton] at new
      subst new
      rw [isOpen] at isSealed
      cases isSealed

theorem Sound.deleteNote (sound : rows.Sound) (id : NoteId) :
    ({ rows with notes := Table.delete Note.id id rows.notes } : Rows).Sound where
  consistent :=
    { folders := sound.consistent.folders
      notes := sound.consistent.notes.delete
      names := sound.consistent.names
      titles := sound.consistent.titles.sublist (List.filter_sublist.map _)
      parents := sound.consistent.parents
      places := fun note member => sound.consistent.places note (List.mem_filter.mp member).1 }
  forest := sound.forest
  «sealed» := fun note member => sound.sealed note (List.mem_filter.mp member).1

/-- What a fit statement leaves is sound. -/
theorem Sound.answer (sound : rows.Sound) {choice : Choice} {request : Statement}
    {reply : Except ApiError request.Value} (fit : rows.Fit choice request)
    (answered : rows.answer choice request = some (after, reply)) : after.Sound := by
  have written {Value : Type} {change : Except ApiError Rows} {value : Rows → Value}
      {reply : Except ApiError Value} (wrote : some (rows.write change value) = some (after, reply))
      (made : change = .ok after → after.Sound) : after.Sound := by
    rcases write_cases (Option.some.inj wrote) with rfl | ok
    · exact sound
    · exact made ok
  cases request with
  | wouldCycle folder newParent =>
      obtain ⟨cycles, -, isAfter⟩ := Option.map_eq_some_iff.mp answered
      cases isAfter
      exact sound
  | createFolder parent name =>
      by_cases isNew : parent = some choice.drawn
      · simp only [Rows.answer, if_pos isNew, reduceCtorEq] at answered
      · simp only [Rows.answer, if_neg isNew] at answered
        apply written answered
        intro made
        obtain ⟨rfl, consistent⟩ := checked_ok made
        exact sound.createFolder isNew consistent
  | updateFolder id edit =>
      apply written answered
      intro made
      obtain ⟨rfl, consistent⟩ := checked_ok made
      exact sound.updateFolder fit choice.now consistent
  | reparent id dest sameNamed => exact written answered (sound.reparent fit)
  | createNote new =>
      apply written answered
      intro made
      obtain ⟨rfl, consistent⟩ := checked_ok made
      exact sound.createNote rfl consistent
  | updateNote id edit =>
      apply written answered
      intro made
      obtain ⟨rfl, consistent⟩ := checked_ok made
      apply sound.changeNote _ _ consistent
      · exact fun note => rfl
      · intro note member isNote isSealed
        refine ⟨isSealed, ?_⟩
        obtain ⟨title, contentEnc, folder⟩ := edit
        cases contentEnc with
        | none => rfl
        | some contentEnc =>
            have isOpen : (rows.note id).any (·.sealedSalt.isSome) = false := fit
            rw [Rows.note, ← isNote, sound.consistent.notes.find_of_mem member] at isOpen
            exact absurd isSealed (Bool.eq_false_iff.mp isOpen)
  | deleteNote id =>
      cases answered
      exact sound.deleteNote id
  | sealNote id body =>
      apply written answered
      intro made
      obtain ⟨rfl, consistent⟩ := checked_ok made
      exact sound.sealNote consistent
  | unsealNote id contentEnc =>
      apply written answered
      intro made
      split at made
      case isFalse =>
        cases made
        exact sound
      case isTrue =>
        obtain ⟨rfl, consistent⟩ := checked_ok made
        exact sound.changeNote (fun note => rfl) (by intro note _ _ isSealed; cases isSealed)
          consistent
  | _ =>
      cases answered
      exact sound

theorem Sound.execute (sound : rows.Sound) {choice : Choice} {request : Statement}
    {reply : Except ApiError request.Value} (fit : rows.Fit choice request)
    (executed : rows.execute choice request = some (after, reply)) : after.Sound := by
  unfold Rows.execute at executed
  split at executed
  case h_1 => cases executed
  case h_2 left answer answered =>
    have soundLeft := sound.answer fit answered
    split at executed
    all_goals cases executed
    · exact soundLeft
    · exact sound
    · exact soundLeft

end Rows

end Writes

section Claim

variable {codec : Codec}

abbrev State := Service.State Rows Request
  (fun request : Statement => Except ApiError request.Value) (Except ApiError Answer)

abbrev Move := Service.Move Choice VaultChallenge Request

/-- The contract of a notebook whose writes are fit when they are made. -/
def fitWrites : Contract Rows Choice VaultChallenge Request
    (fun request : Statement => Except ApiError request.Value) (Except ApiError Answer) :=
  .ofStore Rows.Sound Rows.Fit fun _ _ => True

theorem fitWrites_met : fitWrites.Met (notebook codec) := by
  apply Contract.ofStore_met
  · exact fun _ _ _ _ _ sound fit executed => sound.execute fit executed
  · intro before challenge after sound _ happened
    unfold notebook Rows.setPersonVault at happened
    dsimp only at happened
    split at happened
    case h_1 =>
      cases happened
      have unique := sound.consistent.toUnique
      exact
        { consistent :=
            { folders := unique.folders
              notes := unique.notes
              names := unique.names
              titles := unique.titles
              parents := sound.consistent.parents
              places := sound.consistent.places }
          forest := sound.forest
          «sealed» := sound.sealed }
    case h_2 => cases happened

instance (state : State) (move : Move) : Decidable (fitWrites.Permits state move) := by
  unfold Contract.Permits
  split
  case h_1 =>
    split
    case h_1 =>
      change Decidable (Rows.Fit _ _ _)
      infer_instance
    case h_2 => exact isTrue trivial
  case h_2 => exact isTrue trivial
  case h_3 => exact isTrue trivial

/-- In every interleaving of calls whose writes are fit when they are made, the
folders are a forest and the sealed notes as they were sealed, in every state. -/
theorem notebook_upheld {moves : List Move} {final : State}
    (fit : Along (notebook codec).step (fun before move _ => fitWrites.Permits before move)
      (Service.start Rows.blank) moves)
    (ran : run (notebook codec).step (Service.start Rows.blank) moves = some final) :
    final.store.Upheld :=
  (Contract.run_kept fitWrites_met fit (Contract.kept_start Rows.Sound.blank)
    ran).1.invariant.upheld

/-- What can be seen to be broken: a chain that the cycle check climbs for ever,
or a sealed note that has other content than it was sealed with. -/
def Rows.breaks (rows : Rows) : Bool :=
  (rows.folders.any fun folder => (rows.wouldCycle folder.id folder.id).isNone) ||
    rows.notes.any fun note =>
      note.sealedSalt.isSome && rows.lastSeal note.id ≠ some note.contentEnc

theorem Rows.Upheld.breaks {rows : Rows} (upheld : rows.Upheld) : rows.breaks = false := by
  rw [Rows.breaks, Bool.or_eq_false_iff, List.any_eq_false, List.any_eq_false]
  constructor
  · intro folder _ looping
    rw [Option.isNone_iff_eq_none] at looping
    have returns := upheld.cycleCheck folder.id folder.id
    rw [looping] at returns
    cases returns
  · intro note member differs
    rw [Bool.and_eq_true, decide_eq_true_eq] at differs
    exact differs.2 (upheld.sealed note member differs.1)

/-- A codec whose verifier of a passphrase is the passphrase and the salt. -/
def plainCodec : Codec where
  encode bytes := (fromUtf8 bytes).getD ""
  decode text := some (asBytes text)
  verifierOf passphrase salt := asBytes passphrase ++ salt

/-- The call at an index goes on for a number of steps. -/
def goesOn (index count : Nat) : List Move := List.replicate count (.goOn index {})

/-- A folder is created, with as many steps before its insertion. -/
def creates (id : FolderId) (name : String) (parentId : Option FolderId) (checks : Nat) :
    List Move :=
  [.call (.createFolder { name := name, parentId := parentId })] ++ goesOn 0 checks ++
    [.goOn 0 { drawn := id }, .goOn 0 {}]

/-- The folder is moved, and the call makes its checks. -/
def asksToMove (index : Nat) (id parent : FolderId) : List Move :=
  .call (.updateFolder id { parentId := some (some parent) }) :: goesOn index 4

/-- Two folders are moved, each under the other. -/
def crossedMoves : List Move :=
  creates 1 "a" none 1 ++ creates 2 "b" none 1 ++ asksToMove 0 1 2 ++ asksToMove 1 2 1 ++
    goesOn 0 2 ++ goesOn 0 2

/-- A folder is deleted from under a parent, and moved away before its contents
go there; the parent is moved into them. -/
def movedAway : List Move :=
  creates 1 "parent" none 1 ++ creates 2 "folder" (some 1) 2 ++ creates 3 "child" (some 2) 2 ++
    creates 4 "other" none 1 ++ .call (.deleteFolder 2) :: goesOn 0 4 ++
    asksToMove 1 2 4 ++ goesOn 1 2 ++ asksToMove 1 1 3 ++ goesOn 1 2 ++ goesOn 0 2

/-- A note is sealed between the check of its edit and the write. -/
def sealedMeanwhile : List Move :=
  [.happens { kdfSalt := [0], verifier := [112, 0] },
    .call (.createNote { title := "diary", contentMd := "day one" }),
    .goOn 0 {}, .goOn 0 { drawn := 7 }, .goOn 0 { drawn := 9 }, .goOn 0 {},
    .call (.updateNote 9 { contentMd := some "day two" }),
    .goOn 0 {}, .goOn 0 { drawn := 8 },
    .call (.sealNote 9
      { salt := "s", verifier := "ps", ciphertext := "sealed day one", passphrase := "p" }),
    .goOn 1 {}, .goOn 1 { drawn := 10 }, .goOn 1 {}, .goOn 1 {},
    .goOn 0 {}, .goOn 0 {}]

/-- The three runs reach states that are broken. -/
theorem notebook_broken :
    (∃ final, run (notebook plainCodec).step (Service.start Rows.blank) crossedMoves =
        some final ∧ ¬ final.store.Upheld) ∧
      (∃ final, run (notebook plainCodec).step (Service.start Rows.blank) movedAway =
        some final ∧ ¬ final.store.Upheld) ∧
      ∃ final, run (notebook plainCodec).step (Service.start Rows.blank) sealedMeanwhile =
        some final ∧ ¬ final.store.Upheld := by
  have seen : ∀ moves ∈ [crossedMoves, movedAway, sealedMeanwhile],
      (run (notebook plainCodec).step (Service.start Rows.blank) moves).any
        (·.store.breaks) = true := by
    decide +kernel
  have broken (moves : List Move)
      (isRun : moves ∈ [crossedMoves, movedAway, sealedMeanwhile]) :
      ∃ final, run (notebook plainCodec).step (Service.start Rows.blank) moves = some final ∧
        ¬ final.store.Upheld := by
    obtain ⟨final, ran, breaks⟩ := (Option.any_eq_true _ _).mp (seen moves isRun)
    refine ⟨final, ran, ?_⟩
    intro upheld
    rw [upheld.breaks] at breaks
    cases breaks
  exact ⟨broken _ (by simp), broken _ (by simp), broken _ (by simp)⟩

/-- Folders are created, moved and deleted and a note is edited and sealed, one
call after the other. -/
def oneByOne : List Move :=
  creates 1 "a" none 1 ++ creates 2 "b" (some 1) 2 ++ creates 3 "c" none 1 ++
    asksToMove 0 1 3 ++ goesOn 0 2 ++ .call (.deleteFolder 1) :: goesOn 0 6 ++
    [.happens { kdfSalt := [0], verifier := [112, 0] },
      .call (.createNote { title := "diary", contentMd := "day one" }),
      .goOn 0 {}, .goOn 0 { drawn := 7 }, .goOn 0 { drawn := 9 }, .goOn 0 {},
      .call (.updateNote 9 { contentMd := some "day two" }),
      .goOn 0 {}, .goOn 0 { drawn := 8 }, .goOn 0 {}, .goOn 0 {},
      .call (.sealNote 9
        { salt := "s", verifier := "ps", ciphertext := "sealed", passphrase := "p" }),
      .goOn 0 {}, .goOn 0 { drawn := 10 }, .goOn 0 {}, .goOn 0 {}]

theorem notebook_upheld_oneByOne :
    ∃ final, run (notebook plainCodec).step (Service.start Rows.blank) oneByOne = some final ∧
      final.store.Upheld := by
  have runs : (run (notebook plainCodec).step (Service.start Rows.blank) oneByOne).isSome =
      true := by
    decide +kernel
  obtain ⟨final, ran⟩ := Option.isSome_iff_exists.mp runs
  exact ⟨final, ran, notebook_upheld (by decide +kernel) ran⟩

end Claim

end NookOs.Notebook
