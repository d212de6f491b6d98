/-
Module: NookOs.Notebook.Rows
Purpose: One person's notebook folders and notes, their constraints, and the
  statements that the notebook's handlers run.
Trusted boundary: none
Main exports: Folder, Note, Rows, Rows.Consistent, Rows.wouldCycle, Statement, Rows.execute
-/
import NookOs.Jobs.LoopJob
import NookOs.Lib.Forest
import NookOs.Lib.Program
import NookOs.Lib.Table
import Mathlib.Data.List.Sort

namespace NookOs.Notebook

open Lib
open Jobs (Instant)

/-!
Every query names the person, so one person's rows are a notebook of their own
and the column is left out.  The vault's encryption is symbolic: what it gives
is the bytes it was given and the nonce it drew.
-/

section Data

abbrev FolderId := Nat
abbrev NoteId := Nat
abbrev Bytes := List UInt8

/-- The bytes of a text. -/
def asBytes (text : String) : Bytes := text.toUTF8.toList

/-- The text of some bytes, where they are one. -/
def fromUtf8 (bytes : Bytes) : Option String := String.fromUTF8? bytes.toByteArray

/-- Bytes under the key of the server's vault. -/
structure Encrypted where
  plaintext : Bytes
  nonce : Nat
deriving DecidableEq

/-- A row of `user_note_folders`. -/
structure Folder where
  id : FolderId
  parentId : Option FolderId
  name : String
  createdAt : Instant
  updatedAt : Instant
deriving DecidableEq

/-- A row of `user_notes`. -/
structure Note where
  id : NoteId
  folderId : Option FolderId
  title : String
  contentEnc : Encrypted
  sealedSalt : Option Bytes := none
  sealedVerifier : Option Bytes := none
  createdAt : Instant
  updatedAt : Instant
deriving DecidableEq

/-- The person's row of `person_vaults`. -/
structure VaultChallenge where
  kdfSalt : Bytes
  verifier : Bytes
deriving DecidableEq

/-- A successful seal: the note, and the content it was sealed with. -/
structure Seal where
  note : NoteId
  content : Encrypted
deriving DecidableEq

/-- The rows.  No query reads the seals: they are the history of the sealed
contents, the newest first. -/
structure Rows where
  folders : List Folder
  notes : List Note
  vault : Option VaultChallenge
  seals : List Seal
deriving DecidableEq

/-- A notebook in which nothing was written yet. -/
def Rows.blank : Rows := { folders := [], notes := [], vault := none, seals := [] }

namespace Rows

def folderIds (rows : Rows) : List FolderId := rows.folders.map Folder.id

def folder (rows : Rows) (id : FolderId) : Option Folder := Table.find Folder.id rows.folders id

def note (rows : Rows) (id : NoteId) : Option Note := Table.find Note.id rows.notes id

/-- The link of a folder. -/
def parentOf (rows : Rows) (id : FolderId) : Option FolderId :=
  (rows.folder id).bind Folder.parentId

/-- The content of a note's last seal. -/
def lastSeal (rows : Rows) (id : NoteId) : Option Encrypted :=
  (rows.seals.find? (·.note = id)).map Seal.content

/-- The unique indexes: the primary keys, and siblings of one name, where two
roots are siblings. -/
structure Unique (rows : Rows) : Prop where
  folders : Table.Keyed Folder.id rows.folders
  notes : Table.Keyed Note.id rows.notes
  names : Table.Keyed (fun folder : Folder => (folder.parentId, folder.name)) rows.folders
  titles : Table.Keyed (fun note : Note => (note.folderId, note.title)) rows.notes

instance (rows : Rows) : Decidable rows.Unique :=
  decidable_of_iff
    ((rows.folders.map Folder.id).Nodup ∧ (rows.notes.map Note.id).Nodup ∧
      (rows.folders.map fun folder : Folder => (folder.parentId, folder.name)).Nodup ∧
      (rows.notes.map fun note : Note => (note.folderId, note.title)).Nodup)
    ⟨fun ⟨folders, notes, names, titles⟩ => ⟨folders, notes, names, titles⟩,
    fun unique => ⟨unique.folders, unique.notes, unique.names, unique.titles⟩⟩

/-- The unique indexes and the foreign keys. -/
structure Consistent (rows : Rows) : Prop extends rows.Unique where
  parents : ∀ folder ∈ rows.folders, ∀ parent ∈ folder.parentId, parent ∈ rows.folderIds
  places : ∀ note ∈ rows.notes, ∀ folder ∈ note.folderId, folder ∈ rows.folderIds

instance (rows : Rows) : Decidable rows.Consistent :=
  decidable_of_iff
    (rows.Unique ∧
      (∀ folder ∈ rows.folders, ∀ parent ∈ folder.parentId, parent ∈ rows.folderIds) ∧
      ∀ note ∈ rows.notes, ∀ folder ∈ note.folderId, folder ∈ rows.folderIds)
    ⟨fun ⟨unique, parents, places⟩ => ⟨unique, parents, places⟩,
    fun consistent => ⟨consistent.toUnique, consistent.parents, consistent.places⟩⟩

end Rows

end Data

section Reads

namespace Rows

/-- The recursive query of `would_cycle`, where it returns: whether a folder is
on the chain of another.  It ends with the chain, and a chain that does not end
is climbed for ever. -/
def wouldCycle (rows : Rows) (folder newParent : FolderId) : Option Bool :=
  (climb rows.parentOf (rows.folders.length + 1) newParent).map fun chain =>
    folder ∈ chain && folder ∈ rows.folderIds

/-- The levels of `folder_path` from one on: the folders there with their
paths, and below them their children. -/
def folderPathFrom (rows : Rows) : Nat → List (FolderId × String) →
    Option (List (FolderId × String))
  | _, [] => some []
  | 0, _ :: _ => none
  | fuel + 1, level@(_ :: _) =>
      (rows.folderPathFrom fuel (level.flatMap fun (id, path) =>
        (rows.folders.filter (·.parentId = some id)).map fun child =>
          (child.id, path ++ "/" ++ child.name))).map (level ++ ·)

/-- The recursive query `folder_path` of the listings, where it returns: the
folders that hang from a root, each with its path. -/
def folderPath (rows : Rows) : Option (List (FolderId × String)) :=
  rows.folderPathFrom rows.folders.length
    ((rows.folders.filter (·.parentId = none)).map fun folder => (folder.id, folder.name))

def folderNameTaken (rows : Rows) (parent : Option FolderId) (name : String)
    (except : Option FolderId) : Bool :=
  rows.folders.any fun folder =>
    folder.name = name && folder.parentId = parent && except ≠ some folder.id

def noteTitleTaken (rows : Rows) (folder : Option FolderId) (title : String)
    (except : Option NoteId) : Bool :=
  rows.notes.any fun note =>
    note.title = title && note.folderId = folder && except ≠ some note.id

/-- The first name, in order, of a child that would land beside a folder of its
name. -/
def folderClash (rows : Rows) (id : FolderId) (dest : Option FolderId) : Option String :=
  (((rows.folders.filter fun child => child.parentId = some id &&
    rows.folders.any fun sibling =>
      sibling.name = child.name && sibling.id ≠ id && sibling.parentId = dest).map
        Folder.name).insertionSort (· ≤ ·)).head?

/-- The same of the notes. -/
def noteClash (rows : Rows) (id : FolderId) (dest : Option FolderId) : Option String :=
  (((rows.notes.filter fun child => child.folderId = some id &&
    rows.notes.any fun sibling => sibling.title = child.title && sibling.folderId = dest).map
      Note.title).insertionSort (· ≤ ·)).head?

/-- The child that has the name. -/
def childNamed (rows : Rows) (id : FolderId) (name : String) : Option FolderId :=
  (rows.folders.find? fun child => child.parentId = some id && child.name = name).map Folder.id

/-- The name, where another folder has it at the root. -/
def transit (rows : Rows) (id : FolderId) (name : String) : Option String :=
  (rows.folders.find? fun folder =>
    folder.parentId = none && folder.name = name && folder.id ≠ id).map Folder.name

end Rows

end Reads

section Writes

/-- What a handler fails with. -/
inductive ApiError where
  | badRequest (message : String)
  | notFound
  | forbidden
  | conflict (message : String)
  | setupRequired (message : String)
  | internal (message : String)
  | database (uniqueViolation : Bool)
deriving DecidableEq

structure NewUserNote where
  folderId : Option FolderId
  title : String
  contentEnc : Encrypted
deriving DecidableEq

structure UserNoteEdit where
  title : Option String
  contentEnc : Option Encrypted
  folder : Option (Option FolderId)
deriving DecidableEq

structure SealedBody where
  contentEnc : Encrypted
  salt : Bytes
  verifier : Bytes
deriving DecidableEq

structure FolderEdit where
  name : Option String
  parent : Option (Option FolderId)
deriving DecidableEq

/-- `SET parent_id` of the folders that are moved. -/
def Folder.moveWhere (folder : Folder) (moved : Folder → Bool) (dest : Option FolderId) :
    Folder :=
  if moved folder then { folder with parentId := dest } else folder

/-- `SET folder_id` of the notes that are moved. -/
def Note.moveWhere (note : Note) (moved : Note → Bool) (dest : Option FolderId) : Note :=
  if moved note then { note with folderId := dest } else note

@[simp] theorem Folder.moveWhere_id (folder : Folder) (moved : Folder → Bool)
    (dest : Option FolderId) : (folder.moveWhere moved dest).id = folder.id := by
  unfold moveWhere
  split <;> rfl

theorem Folder.moveWhere_parentId (folder : Folder) (moved : Folder → Bool)
    (dest : Option FolderId) : (folder.moveWhere moved dest).parentId =
      if moved folder then dest else folder.parentId := by
  unfold moveWhere
  split <;> rfl

@[simp] theorem Note.moveWhere_id (note : Note) (moved : Note → Bool)
    (dest : Option FolderId) : (note.moveWhere moved dest).id = note.id := by
  unfold moveWhere
  split <;> rfl

@[simp] theorem Note.moveWhere_contentEnc (note : Note) (moved : Note → Bool)
    (dest : Option FolderId) : (note.moveWhere moved dest).contentEnc = note.contentEnc := by
  unfold moveWhere
  split <;> rfl

@[simp] theorem Note.moveWhere_sealedSalt (note : Note) (moved : Note → Bool)
    (dest : Option FolderId) : (note.moveWhere moved dest).sealedSalt = note.sealedSalt := by
  unfold moveWhere
  split <;> rfl

namespace Rows

/-- The rows a statement would leave, where the constraints allow them. -/
def checked (rows : Rows) : Except ApiError Rows :=
  if rows.Consistent then .ok rows else .error (.database (¬ rows.Unique))

def moveFolders (rows : Rows) (moved : Folder → Bool) (dest : Option FolderId) : Rows :=
  { rows with folders := rows.folders.map (·.moveWhere moved dest) }

def moveNotes (rows : Rows) (moved : Note → Bool) (dest : Option FolderId) : Rows :=
  { rows with notes := rows.notes.map (·.moveWhere moved dest) }

/-- `DELETE` of a folder, and `ON DELETE SET NULL`. -/
def dropFolder (rows : Rows) (id : FolderId) : Rows :=
  let cut := (rows.moveNotes (·.folderId = some id) none).moveFolders (·.parentId = some id) none
  { cut with folders := Table.delete Folder.id id cut.folders }

/-- The writes of `delete_folder_reparenting`, in one transaction.  The late
folders and notes came into the folder after the updates had looked and before
the deletion. -/
def reparent (rows : Rows) (lateFolders : List FolderId) (lateNotes : List NoteId)
    (id : FolderId) (dest : Option FolderId) (sameNamed : Option FolderId) :
    Except ApiError Rows := do
  let emptied ← (rows.moveNotes (fun note =>
    note.folderId = some id && note.id ∉ lateNotes) dest).checked
  let moved ← (emptied.moveFolders (fun folder =>
    folder.parentId = some id && folder.id ∉ lateFolders && sameNamed ≠ some folder.id)
      dest).checked
  let deleted ← (moved.dropFolder id).checked
  match sameNamed, dest with
  | some child, some _ => (deleted.moveFolders (·.id = child) dest).checked
  | _, _ => .ok deleted

end Rows

/-- What a handler asks of the repository and the vault. -/
inductive Statement where
  -- folders
  | ownsFolder (folder : FolderId)
  | wouldCycle (folder newParent : FolderId)
  | getFolder (id : FolderId)
  | folderNameTaken (parent : Option FolderId) (name : String) (except : Option FolderId)
  | createFolder (parent : Option FolderId) (name : String)
  | updateFolder (id : FolderId) (edit : FolderEdit)
  -- the transaction that deletes a folder
  | place (id : FolderId)
  | folderClash (id : FolderId) (dest : Option FolderId)
  | noteClash (id : FolderId) (dest : Option FolderId)
  | childNamed (id : FolderId) (name : String)
  | transit (id : FolderId) (name : String)
  | reparent (id : FolderId) (dest : Option FolderId) (sameNamed : Option FolderId)
  -- notes
  | noteTitleTaken (folder : Option FolderId) (title : String) (except : Option NoteId)
  | getNote (id : NoteId)
  | isSealed (id : NoteId)
  | createNote (new : NewUserNote)
  | updateNote (id : NoteId) (edit : UserNoteEdit)
  | deleteNote (id : NoteId)
  | sealNote (id : NoteId) (body : SealedBody)
  | unsealNote (id : NoteId) (contentEnc : Encrypted)
  -- the vaults
  | personChallenge
  | encrypt (plaintext : Bytes)
deriving DecidableEq

/-- What a statement gives. -/
abbrev Statement.Value : Statement → Type
  | .ownsFolder _ => Bool
  | .wouldCycle .. => Bool
  | .getFolder _ => Option Folder
  | .folderNameTaken .. => Bool
  | .createFolder .. => Folder
  | .updateFolder .. => Option Folder
  | .place _ => Option (Option FolderId × String)
  | .folderClash .. => Option String
  | .noteClash .. => Option String
  | .childNamed .. => Option FolderId
  | .transit .. => Option String
  | .reparent .. => Unit
  | .noteTitleTaken .. => Bool
  | .getNote _ => Option Note
  | .isSealed _ => Option Bool
  | .createNote _ => Note
  | .updateNote .. => Option Note
  | .deleteNote _ => Nat
  | .sealNote .. => Option Note
  | .unsealNote .. => Option Note
  | .personChallenge => Option VaultChallenge
  | .encrypt _ => Encrypted

/-- What a statement fails with. -/
def Statement.failure : Statement → ApiError
  | .encrypt _ => .internal "encryption failed"
  | _ => .database false

/-- How a statement goes: it runs, it fails before it has an effect, or it has
its effect and its answer is lost. -/
inductive Outcome where
  | runs
  | fails
  | lost
deriving DecidableEq

/-- What the environment decides about a statement: the instant, the identifier
or the nonce that is drawn, what a deletion comes too early for, and how it
goes. -/
structure Choice where
  now : Instant := 0
  drawn : Nat := 0
  lateFolders : List FolderId := []
  lateNotes : List NoteId := []
  outcome : Outcome := .runs
deriving DecidableEq

namespace Rows

/-- A write, made where the constraints allow it. -/
def write {Value : Type} (before : Rows) (after : Except ApiError Rows) (value : Rows → Value) :
    Rows × Except ApiError Value :=
  match after with
  | .ok rows => (rows, .ok (value rows))
  | .error error => (before, .error error)

/-- A change of the note of an identifier. -/
def changeNote (rows : Rows) (id : NoteId) (change : Note → Note) : Rows :=
  { rows with notes := Table.update Note.id id change rows.notes }

/-- The rows after a seal of a note, and the history of it. -/
def sealedWith (rows : Rows) (now : Instant) (id : NoteId) (body : SealedBody) : Rows :=
  { rows.changeNote id fun note => { note with
      contentEnc := body.contentEnc
      sealedSalt := some body.salt
      sealedVerifier := some body.verifier
      updatedAt := now } with
    seals :=
      if (rows.note id).isSome then ⟨id, body.contentEnc⟩ :: rows.seals else rows.seals }

/-- Run a statement, where it returns. -/
def answer (rows : Rows) (choice : Choice) :
    (request : Statement) → Option (Rows × Except ApiError request.Value)
  | .ownsFolder folder => some (rows, .ok (rows.folder folder).isSome)
  | .wouldCycle folder newParent =>
      (rows.wouldCycle folder newParent).map fun cycles => (rows, .ok cycles)
  | .getFolder id => some (rows, .ok (rows.folder id))
  | .folderNameTaken parent name except =>
      some (rows, .ok (rows.folderNameTaken parent name except))
  | .createFolder parent name =>
      let row : Folder :=
        { id := choice.drawn, parentId := parent, name := name, createdAt := choice.now,
          updatedAt := choice.now }
      -- A fresh identifier is none that the call names.
      if parent = some choice.drawn then none
      else some (rows.write ({ rows with folders := rows.folders ++ [row] }).checked fun _ => row)
  | .updateFolder id edit =>
      some (rows.write
        ({ rows with
            folders := Table.update Folder.id id (fun folder => { folder with
              name := edit.name.getD folder.name
              parentId := edit.parent.getD folder.parentId
              updatedAt := choice.now }) rows.folders }).checked
        (·.folder id))
  | .place id =>
      some (rows, .ok ((rows.folder id).map fun folder => (folder.parentId, folder.name)))
  | .folderClash id dest => some (rows, .ok (rows.folderClash id dest))
  | .noteClash id dest => some (rows, .ok (rows.noteClash id dest))
  | .childNamed id name => some (rows, .ok (rows.childNamed id name))
  | .transit id name => some (rows, .ok (rows.transit id name))
  | .reparent id dest sameNamed =>
      some (rows.write
        (rows.reparent choice.lateFolders choice.lateNotes id dest sameNamed) fun _ => ())
  | .noteTitleTaken folder title except =>
      some (rows, .ok (rows.noteTitleTaken folder title except))
  | .getNote id => some (rows, .ok (rows.note id))
  | .isSealed id => some (rows, .ok ((rows.note id).map (·.sealedSalt.isSome)))
  | .createNote new =>
      let row : Note :=
        { id := choice.drawn, folderId := new.folderId, title := new.title,
          contentEnc := new.contentEnc, createdAt := choice.now, updatedAt := choice.now }
      some (rows.write ({ rows with notes := rows.notes ++ [row] }).checked fun _ => row)
  | .updateNote id edit =>
      some (rows.write
        (rows.changeNote id fun note => { note with
          title := edit.title.getD note.title
          contentEnc := edit.contentEnc.getD note.contentEnc
          folderId := edit.folder.getD note.folderId
          updatedAt := choice.now }).checked
        (·.note id))
  | .deleteNote id =>
      some ({ rows with notes := Table.delete Note.id id rows.notes },
        .ok (rows.notes.countP (·.id = id)))
  | .sealNote id body =>
      some (rows.write (rows.sealedWith choice.now id body).checked (·.note id))
  | .unsealNote id contentEnc =>
      let isSealed := (rows.note id).any (·.sealedSalt.isSome)
      some (rows.write
        (if isSealed then
          (rows.changeNote id fun note => { note with
            contentEnc := contentEnc
            sealedSalt := none
            sealedVerifier := none
            updatedAt := choice.now }).checked
        else .ok rows)
        fun after => if isSealed then after.note id else none)
  | .personChallenge => some (rows, .ok rows.vault)
  | .encrypt plaintext => some (rows, .ok ⟨plaintext, choice.drawn⟩)

/-- Run a statement as the environment has it. -/
def execute (rows : Rows) (choice : Choice) (request : Statement) :
    Option (Rows × Except ApiError request.Value) :=
  match rows.answer choice request with
  | none => none
  | some (after, reply) =>
      match choice.outcome with
      | .runs => some (after, reply)
      | .fails => some (rows, .error request.failure)
      | .lost => some (after, .error request.failure)

end Rows

end Writes

end NookOs.Notebook
