/-
Module: NookOs.Notebook.Calls
Purpose: The notebook's calls on folders and notes, as programs of the
  statements they run.
Trusted boundary: the base64 and key derivation of other packages are the
  functions of a Codec
Main exports: Codec, Request, handle, notebook
-/
import NookOs.Notebook.Rows
import NookOs.Lib.Text

namespace NookOs.Notebook

open Lib
open Lib.Program (ensure)
open Jobs (Instant)

/-- A call that may fail. -/
abbrev Handler := Program.Failing Statement Statement.Value ApiError

/-- A statement whose failure is the call's. -/
abbrev perform (request : Statement) : Handler request.Value := Program.perform request

/-- A statement whose failure the call looks at. -/
abbrev attempt (request : Statement) : Handler (Except ApiError request.Value) :=
  Program.attempt request

/-- Base64, and `verifier_of` the key that `derive` gives for a passphrase and a
salt. -/
structure Codec where
  encode : Bytes → String
  decode : String → Option Bytes
  verifierOf : String → Bytes → Bytes

section Wire

/-- A note to make. -/
structure CreateUserNote where
  title : String
  contentMd : String := ""
  folderId : Option FolderId := none
deriving DecidableEq

/-- The fields of a note to change; a folder of `some none` is the root. -/
structure UpdateUserNote where
  title : Option String := none
  contentMd : Option String := none
  folderId : Option (Option FolderId) := none
deriving DecidableEq

/-- The body as the client encrypts it, in base64. -/
structure SealNoteRequest where
  salt : String
  verifier : String
  ciphertext : String
  passphrase : String
deriving DecidableEq

/-- The body in the clear again. -/
structure UnsealNoteRequest where
  contentMd : String
  passphrase : String
deriving DecidableEq

/-- A folder to make. -/
structure CreateUserNoteFolder where
  name : String
  parentId : Option FolderId := none
deriving DecidableEq

/-- The fields of a folder to change; a parent of `some none` is the root. -/
structure UpdateUserNoteFolder where
  name : Option String := none
  parentId : Option (Option FolderId) := none
deriving DecidableEq

/-- What the client needs to open a sealed note. -/
structure SealedBlob where
  salt : String
  iterations : Nat
  ciphertext : String
deriving DecidableEq

/-- A note as the API gives it. -/
structure UserNote where
  id : NoteId
  folderId : Option FolderId
  title : String
  contentMd : Option String
  «sealed» : Bool
  blob : Option SealedBlob
  createdAt : Instant
  updatedAt : Instant
deriving DecidableEq

end Wire

section Names

/-- The longest name, in characters. -/
def maxNameLen : Nat := 200

/-- A name is one part of a path. -/
def validateName (value what : String) : Except ApiError Unit :=
  let trimmed := Text.trim value.toList
  if trimmed = [] then .error (.badRequest ("a " ++ what ++ " cannot be blank"))
  else if '/' ∈ trimmed then
    .error (.badRequest
      ("a " ++ what ++ " cannot contain '/' — it separates the parts of a note's path"))
  else if maxNameLen < trimmed.length then
    .error (.badRequest ("a " ++ what ++ " is at most " ++ toString maxNameLen ++
      " characters (got " ++ toString trimmed.length ++ ")"))
  else .ok ()

/-- The conflict of two names at one place. -/
def taken (name what : String) : ApiError :=
  .conflict ("a " ++ what ++ " named \"" ++ name ++ "\" is already here")

/-- The refusal of a unique index is that of the check before it. -/
def conflictIfTaken (name what : String) : ApiError → ApiError
  | .database true => taken name what
  | error => error

/-- Go on with a value, or fail with what a statement failed with, renamed. -/
def mapErr {Value : Type} (rename : ApiError → ApiError) :
    Except ApiError Value → Handler Value
  | .ok value => pure value
  | .error error => throw (rename error)

/-- What was found, or `NotFound`. -/
def found {Value : Type} : Option Value → Handler Value
  | some value => pure value
  | none => throw .notFound

/-- Fail where a name is no part of a path. -/
def valid (value what : String) : Handler Unit := ExceptT.mk (.answer (validateName value what))

/-- Validate a name that was given. -/
def validWhereGiven (value : Option String) (what : String) : Handler Unit :=
  match value with
  | some value => valid value what
  | none => pure ()

/-- The folder is the person's own. -/
def ownedFolder (folder : FolderId) : Handler FolderId := do
  ensure (← perform (.ownsFolder folder)) .notFound
  pure folder

/-- No other folder of the parent has the name. -/
def folderNameFree (parent : Option FolderId) (name : String) (except : Option FolderId) :
    Handler Unit := do
  ensure (!(← perform (.folderNameTaken parent name except))) (taken name "folder")

/-- No other note of the folder has the title. -/
def noteTitleFree (folder : Option FolderId) (title : String) (except : Option NoteId) :
    Handler Unit := do
  ensure (!(← perform (.noteTitleTaken folder title except))) (taken title "note")

end Names

section Folders

/-- Make a folder, under a parent of the same person. -/
def createFolderFor (req : CreateUserNoteFolder) : Handler Folder := do
  valid req.name "folder name"
  match req.parentId with
  | some parent => discard (ownedFolder parent)
  | none => pure ()
  folderNameFree req.parentId req.name none
  mapErr (conflictIfTaken req.name "folder")
    (← attempt (.createFolder req.parentId req.name))

/-- The new parent of a move: the person's own, and outside the folder's
subtree. -/
def moveAllowed (id : FolderId) : Option (Option FolderId) → Handler Unit
  | some (some parent) => do
      discard (ownedFolder parent)
      ensure (!(← perform (.wouldCycle id parent)))
        (.badRequest "that move would put a folder inside its own subtree")
  | _ => pure ()

/-- The name that a rename or a move asks for at its place. -/
def movingName (id : FolderId) (req : UpdateUserNoteFolder) : Handler (Option String) :=
  if req.name.isSome || req.parentId.isSome then do
    let current ← found (← perform (.getFolder id))
    let name := req.name.getD current.name
    folderNameFree (req.parentId.getD current.parentId) name (some id)
    pure (some name)
  else pure none

/-- The refusal of the unique index, where there is a name to name. -/
def conflictIfNamed (name : Option String) (what : String) (error : ApiError) : ApiError :=
  match name with
  | some name => conflictIfTaken name what error
  | none => error

/-- Rename a folder, move it, or both. -/
def updateFolderFor (id : FolderId) (req : UpdateUserNoteFolder) : Handler Folder := do
  validWhereGiven req.name "folder name"
  moveAllowed id req.parentId
  let name ← movingName id req
  found (← mapErr (conflictIfNamed name "folder")
    (← attempt (.updateFolder id { name := req.name, parent := req.parentId })))

/-- What comes of deleting a folder. -/
inductive FolderDeletion where
  | deleted
  | noSuchFolder
  | collision (what name : String)
deriving DecidableEq

/-- The detour of the child that is named as the folder is passes through the
root. -/
def transitClash (id : FolderId) (name : String) (sameNamed parentId : Option FolderId) :
    Handler (Option String) :=
  match sameNamed, parentId with
  | some _, some _ => perform (.transit id name)
  | _, _ => pure none

/-- Delete a folder; what it holds goes to its parent, or nothing is done. -/
def deleteFolderReparenting (id : FolderId) : Handler FolderDeletion := do
  match ← perform (.place id) with
  | none => pure .noSuchFolder
  | some (parentId, folderName) => do
      match ← perform (.folderClash id parentId) with
      | some name => pure (.collision "folder" name)
      | none => do
          match ← perform (.noteClash id parentId) with
          | some title => pure (.collision "note" title)
          | none => do
              let sameNamed ← perform (.childNamed id folderName)
              match ← transitClash id folderName sameNamed parentId with
              | some name => pure (.collision "folder" name)
              | none => do
                  perform (.reparent id parentId sameNamed)
                  pure .deleted

/-- Delete a folder, or say why not. -/
def deleteFolderFor (id : FolderId) : Handler Unit := do
  match ← deleteFolderReparenting id with
  | .deleted => pure ()
  | .noSuchFolder => throw .notFound
  | .collision what name =>
      throw (.conflict ("deleting this folder would move a " ++ what ++ " named \"" ++ name ++
        "\" beside one of the same name — rename one of them first"))

end Folders

section Notes

variable (codec : Codec)

/-- The rounds of the key derivation. -/
def kdfIterations : Nat := 210000

/-- A row as the API gives it: the vault's wrap comes off, the seal does not. -/
def Note.intoNote (row : Note) : Except ApiError UserNote :=
  let note (contentMd : Option String) (isSealed : Bool) (blob : Option SealedBlob) : UserNote :=
    { id := row.id, folderId := row.folderId, title := row.title, contentMd := contentMd,
      «sealed» := isSealed, blob := blob, createdAt := row.createdAt,
      updatedAt := row.updatedAt }
  match row.sealedSalt with
  | some salt => .ok (note none true (some
      { salt := codec.encode salt, iterations := kdfIterations,
        ciphertext := codec.encode row.contentEnc.plaintext }))
  | none =>
      match fromUtf8 row.contentEnc.plaintext with
      | some contentMd => .ok (note (some contentMd) false none)
      | none => .error (.internal "invalid utf-8")

/-- The row that a statement returns, as the API gives it. -/
def given (row : Option Note) : Handler UserNote := do
  let row ← found row
  ExceptT.mk (.answer (row.intoNote codec))

/-- Make a note, its body encrypted. -/
def createNoteFor (req : CreateUserNote) : Handler UserNote := do
  valid req.title "note title"
  match req.folderId with
  | some folder => discard (ownedFolder folder)
  | none => pure ()
  noteTitleFree req.folderId req.title none
  let enc ← perform (.encrypt (asBytes req.contentMd))
  let row ← mapErr (conflictIfTaken req.title "note")
    (← attempt (.createNote { folderId := req.folderId, title := req.title, contentEnc := enc }))
  given codec (some row)

/-- The title that a rename or a move asks for at its place. -/
def movingTitle (id : NoteId) (req : UpdateUserNote) : Handler (Option String) :=
  if req.title.isSome || req.folderId.isSome then do
    let current ← found (← perform (.getNote id))
    let title := req.title.getD current.title
    noteTitleFree (req.folderId.getD current.folderId) title (some id)
    pure (some title)
  else pure none

/-- A new body is refused where the note is sealed, and encrypted. -/
def newBody (id : NoteId) : Option String → Handler (Option Encrypted)
  | some contentMd => do
      ensure ((← perform (.isSealed id)) ≠ some true)
        (.conflict
          "this note is sealed — change its body through seal/unseal, not a plain update")
      let enc ← perform (.encrypt (asBytes contentMd))
      pure (some enc)
  | none => pure none

/-- Change a note's title, folder or body. -/
def updateNoteFor (id : NoteId) (req : UpdateUserNote) : Handler UserNote := do
  validWhereGiven req.title "note title"
  match req.folderId with
  | some (some folder) => discard (ownedFolder folder)
  | _ => pure ()
  let title ← movingTitle id req
  let enc ← newBody id req.contentMd
  given codec (← mapErr (conflictIfNamed title "note")
    (← attempt (.updateNote id
      { title := req.title, contentEnc := enc, folder := req.folderId })))

/-- Delete a note. -/
def deleteNoteFor (id : NoteId) : Handler Unit := do
  ensure ((← perform (.deleteNote id)) ≠ 0) .notFound

/-- The passphrase gives the stored verifier. -/
def verifyPassphrase (passphrase : String) (salt verifier : Bytes) : Bool :=
  codec.verifierOf passphrase salt = verifier

/-- The passphrase is the one that the person has set. -/
def requirePersonAppPassword (passphrase : String) : Handler Unit := do
  match ← perform .personChallenge with
  | none => throw (.setupRequired "set a notebook app password before sealing notes")
  | some challenge =>
      ensure (verifyPassphrase codec passphrase challenge.kdfSalt challenge.verifier) .forbidden

/-- A field in base64. -/
def unb64 (text what : String) : Handler Bytes :=
  match codec.decode text with
  | some bytes => pure bytes
  | none => throw (.badRequest (what ++ " is not valid base64"))

/-- The vault wraps what the client has encrypted under the same passphrase. -/
def sealNote (id : NoteId) (req : SealNoteRequest) : Handler UserNote := do
  requirePersonAppPassword codec req.passphrase
  let salt ← unb64 codec req.salt "salt"
  let verifier ← unb64 codec req.verifier "verifier"
  let ciphertext ← unb64 codec req.ciphertext "ciphertext"
  ensure (verifyPassphrase codec req.passphrase salt verifier)
    (.badRequest "the sealed blob does not match your app password")
  let enc ← perform (.encrypt ciphertext)
  given codec (← perform (.sealNote id { contentEnc := enc, salt := salt, verifier := verifier }))

/-- The body is in the vault's wrap alone again. -/
def unsealNote (id : NoteId) (req : UnsealNoteRequest) : Handler UserNote := do
  requirePersonAppPassword codec req.passphrase
  let enc ← perform (.encrypt (asBytes req.contentMd))
  given codec (← perform (.unsealNote id enc))

end Notes

section Calls

/-- The calls on the notebook. -/
inductive Request where
  | createFolder (req : CreateUserNoteFolder)
  | updateFolder (id : FolderId) (req : UpdateUserNoteFolder)
  | deleteFolder (id : FolderId)
  | createNote (req : CreateUserNote)
  | updateNote (id : NoteId) (req : UpdateUserNote)
  | deleteNote (id : NoteId)
  | sealNote (id : NoteId) (req : SealNoteRequest)
  | unsealNote (id : NoteId) (req : UnsealNoteRequest)
deriving DecidableEq

/-- What a call gives back. -/
inductive Answer where
  | folder (folder : Folder)
  | note (note : UserNote)
  | noContent
deriving DecidableEq

/-- The program of each call. -/
def handle (codec : Codec) : Request → Handler Answer
  | .createFolder req => Answer.folder <$> createFolderFor req
  | .updateFolder id req => Answer.folder <$> updateFolderFor id req
  | .deleteFolder id => (fun _ => .noContent) <$> deleteFolderFor id
  | .createNote req => Answer.note <$> createNoteFor codec req
  | .updateNote id req => Answer.note <$> updateNoteFor codec id req
  | .deleteNote id => (fun _ => .noContent) <$> deleteNoteFor id
  | .sealNote id req => Answer.note <$> sealNote codec id req
  | .unsealNote id req => Answer.note <$> unsealNote codec id req

/-- The person sets the notebook's passphrase, once. -/
def Rows.setPersonVault (rows : Rows) (challenge : VaultChallenge) : Option Rows :=
  match rows.vault with
  | none => some { rows with vault := some challenge }
  | some _ => none

/-- The calls on one person's notebook, and the setting of its passphrase. -/
def notebook (codec : Codec) :
    Service Rows Choice VaultChallenge Request Statement
      (fun request => Except ApiError request.Value) (Except ApiError Answer) where
  handler request := (handle codec request).run
  execute := Rows.execute
  happen := Rows.setPersonVault

end Calls

end NookOs.Notebook
