import OpenObs.Rules.Routes

/-!
# The folder routes

`PUT` and `DELETE /api/folders/:uid` of `routes/folders.ts`. Both ask whether the
folder of the request is writable; the service below them asks nothing, and a
deletion takes the whole subtree with it.
-/

namespace OpenObs.Folders

open OpenObs.Foundation OpenObs.Resources OpenObs.Rules

structure FolderReply where
  status : ℕ
  code : Option String := none
  message : String := ""
  folder : Option Folder := none

def forbidden : FolderReply := { status := 403, code := some "FORBIDDEN" }

def folderNotFound : FolderReply := ⟨404, some "NOT_FOUND", "folder not found", none⟩

def provisionedFolder (folder : Folder) : FolderReply :=
  { status := 409, code := some "PROVISIONED_RESOURCE", message := folder.source.text }

/-- `handleServiceError`: the service tells a folder that is missing from a request it
refuses. -/
def handleServiceError (uid : String) (p : Prog Tables FolderReply) : Prog Tables FolderReply :=
  tryCatch p fun e =>
    return if e = "folder not found: " ++ uid then ⟨404, some "NOT_FOUND", e, none⟩
      else ⟨400, some "VALIDATION", e, none⟩

def clearable (driver : Driver) : Option Json → Except String (Option (Option String))
  | none => return none
  | some v => do
      let bound ← driver.nullable (some v)
      return some bound

/-- The body of a `PUT`; a title of `null` keeps the old one. -/
def patchOf (driver : Driver) (body : Json.Record) : Except String UpdateFolderPatch := do
  let title ← driver.nullable (Json.field body "title")
  let description ← clearable driver (Json.field body "description")
  let parentUid ← clearable driver (Json.field body "parentUid")
  return { title, description, parentUid }

def folderScope (uid : String) : List String := ["folders:uid:" ++ uid]

def putFolder (driver : Driver) (fuel : ℕ) (now : String) (caller : Caller) (uid : String)
    (body : Json.Record) : Prog Tables FolderReply :=
  permitted caller (.action "folders:write" (folderScope uid)) forbidden do
    match ← FolderRepository.findByUid caller.orgId uid with
    | none => return folderNotFound
    | some existing =>
      if isProvisioned existing.source then return provisionedFolder existing
      else handleServiceError uid do
        match patchOf driver body with
        | .error e => throw e
        | .ok patch => do
            let updated ← FolderService.update fuel now caller.orgId uid patch
              (caller.userId.getD "")
            return { status := 200, folder := some updated }

/-- `forceDeleteRules` of the query. -/
def forces (forceDeleteRules : Option String) : Bool :=
  forceDeleteRules = some "true" ∨ forceDeleteRules = some "1"

def removeFolder (fuel : ℕ) (caller : Caller) (uid : String) (forceDeleteRules : Option String) :
    Prog Tables FolderReply :=
  handleServiceError uid do
    FolderService.delete fuel caller.orgId uid (forces forceDeleteRules)
    return { status := 200, message := "Folder deleted" }

def deleteFolder (fuel : ℕ) (caller : Caller) (uid : String) (forceDeleteRules : Option String) :
    Prog Tables FolderReply :=
  permitted caller (.action "folders:delete" (folderScope uid)) forbidden do
    match ← FolderRepository.findByUid caller.orgId uid with
    | some existing =>
      if isProvisioned existing.source then return provisionedFolder existing
      else removeFolder fuel caller uid forceDeleteRules
    | none => removeFolder fuel caller uid forceDeleteRules

end OpenObs.Folders
