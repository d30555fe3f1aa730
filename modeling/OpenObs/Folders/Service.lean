import OpenObs.Rbac.Tokens
import OpenObs.Resources.Tables

/-!
# The folder service

`services/folder-service.ts` over `repository/auth/folder-repository.ts`. Every repository call is
one section: its statements run without an `await` between them.
-/

namespace OpenObs.Folders

open OpenObs.Foundation OpenObs.Resources

/-! ## The repository -/

def folderMaxDepth : ℕ := 8

def truthy (v : Option String) : Option String := v.filter (· ≠ "")

structure NewFolder where
  uid : String
  orgId : String
  title : String
  description : Option String := none
  parentUid : Option String := none
  createdBy : Option String := none
  updatedBy : Option String := none
  source : Option ResourceSource := none
  provenance : Option Json := none

/-- An absent field keeps its column, an explicit `null` clears it. -/
structure FolderPatch where
  title : Option String := none
  description : Option (Option String) := none
  parentUid : Option (Option String) := none
  updatedBy : Option (Option String) := none

namespace FolderRepository

def findByUid (orgId uid : String) : Prog Tables (Option Folder) :=
  Prog.read (·.findFolderByUid orgId uid)

def findById (id : String) : Prog Tables (Option Folder) := Prog.read (·.findFolderById id)

def listChildren (orgId : String) (parentUid : Option String) : Prog Tables (List Folder) :=
  Prog.read (·.listChildren orgId parentUid)

def ancestorsFrom (orgId : String) : ℕ → Folder → Prog Tables (List Folder)
  | 0, _ => return []
  | n + 1, cursor =>
    match truthy cursor.parentUid with
    | none => return []
    | some parentUid => do
        match ← findByUid orgId parentUid with
        | none => return []
        | some parent => do
            let chain ← ancestorsFrom orgId n parent
            return parent :: chain

def listAncestors (orgId uid : String) : Prog Tables (List Folder) := do
  match ← findByUid orgId uid with
  | none => return []
  | some cursor => ancestorsFrom orgId (folderMaxDepth + 1) cursor

def depthMessage : String := "[FolderRepository] folder depth would exceed limit of 8"

/-- The loop of `assertParentAndDepth`; `left` rounds remain before the depth passes
the limit. -/
def assertDepth (orgId parentUid : String) (movingUid : Option String) :
    ℕ → Folder → Prog Tables Unit
  | 0, _ => return ()
  | left + 1, cursor =>
    match truthy cursor.parentUid with
    | none => return ()
    | some nextUid => do
        match ← findByUid orgId nextUid with
        | none => return ()
        | some next =>
          if truthy movingUid = some next.uid then
            throw ("[FolderRepository] cycle detected — " ++ next.uid ++
              " is an ancestor of " ++ parentUid)
          else if left = 0 then throw depthMessage
          else assertDepth orgId parentUid movingUid left next

def assertParentAndDepth (orgId parentUid : String) (movingUid : Option String) :
    Prog Tables Unit := do
  match ← findByUid orgId parentUid with
  | none => throw ("[FolderRepository] parent folder not found: " ++ parentUid)
  | some parent =>
    if truthy movingUid = some parent.uid then
      throw ("[FolderRepository] cycle detected — " ++ parent.uid ++ " cannot be its own parent")
    else assertDepth orgId parentUid movingUid folderMaxDepth parent

/-- The row of an `INSERT`. -/
def newRow (id now : String) (input : NewFolder) : Folder where
  id := id
  uid := input.uid
  orgId := input.orgId
  title := input.title
  description := input.description
  parentUid := input.parentUid
  created := now
  updated := now
  createdBy := input.createdBy
  updatedBy := input.updatedBy
  source := input.source.getD .manual
  provenance := input.provenance

/-- The foreign key to `users`. -/
def knownUser (t : Tables) (user : Option String) : Bool := user.all (· ∈ t.users)

/-- The `INSERT` and the read-back of its row. -/
def insert (row : Folder) : Prog Tables Folder :=
  Prog.attempt fun t =>
    if row.id ∈ t.folders.map (·.id) then (.error "UNIQUE constraint failed: folder.id", t)
    else if (t.findFolderByUid row.orgId row.uid).isSome then
      (.error "UNIQUE constraint failed: folder.org_id, folder.uid", t)
    else if row.orgId ∉ t.orgs ∨ knownUser t row.createdBy = false ∨
        knownUser t row.updatedBy = false then
      (.error "FOREIGN KEY constraint failed", t)
    else (.ok row, { t with folders := t.folders ++ [row] })

def create (id now : String) (input : NewFolder) : Prog Tables Folder := do
  match truthy input.parentUid with
  | none => pure ()
  | some parentUid => assertParentAndDepth input.orgId parentUid none
  insert (newRow id now input)

/-- The columns of the `UPDATE`. -/
def merge (now : String) (patch : FolderPatch) (existing : Folder) (row : Folder) : Folder :=
  { row with
    title := patch.title.getD existing.title
    description := patch.description.getD existing.description
    parentUid := patch.parentUid.getD existing.parentUid
    updated := now
    updatedBy := patch.updatedBy.getD existing.updatedBy }

/-- The `UPDATE` with the columns merged before, and the read-back. -/
def store (now : String) (patch : FolderPatch) (existing : Folder) :
    Prog Tables (Option Folder) :=
  Prog.attempt fun t =>
    if knownUser t (patch.updatedBy.getD existing.updatedBy) = false then
      (.error "FOREIGN KEY constraint failed", t)
    else
      let folders := t.folders.map fun f =>
        if f.id = existing.id then merge now patch existing f else f
      (.ok (folders.find? (·.id = existing.id)), { t with folders })

def update (now id : String) (patch : FolderPatch) : Prog Tables (Option Folder) := do
  match ← findById id with
  | none => return none
  | some existing => do
      match patch.parentUid with
      | some (some parentUid) =>
        if some parentUid = existing.parentUid then pure ()
        else assertParentAndDepth existing.orgId parentUid (some existing.uid)
      | _ => pure ()
      store now patch existing

end FolderRepository

/-! ## Uids -/

/-- `s.toLowerCase()` as far as ASCII letters and digits come out of it. -/
def lowerChar (c : Char) : List Char :=
  if 'A' ≤ c ∧ c ≤ 'Z' then [c.toLower]
  else if c = '\u212A' then ['k']
  else if c = '\u0130' then ['i', '\u0307']
  else [c]

def isSlugChar (c : Char) : Bool := ('a' ≤ c ∧ c ≤ 'z') ∨ ('0' ≤ c ∧ c ≤ '9')

/-- `replace(/[^a-z0-9]+/g, '_')`; `inRun` says that the last character was replaced. -/
def underscoreRuns (inRun : Bool) : List Char → List Char
  | [] => []
  | c :: cs =>
    if isSlugChar c then c :: underscoreRuns false cs
    else if inRun then underscoreRuns true cs
    else '_' :: underscoreRuns true cs

def trimUnderscores (cs : List Char) : List Char :=
  ((cs.dropWhile (· = '_')).reverse.dropWhile (· = '_')).reverse

/-- `random` is what the code draws where nothing of the title is left. -/
def slugifyUid (random title : String) : String :=
  let base := (trimUnderscores (underscoreRuns false (title.toList.flatMap lowerChar))).take 40
  if base.length = 0 then "folder_" ++ random else String.ofList base

/-! ## The service -/

structure CreateFolderInput where
  uid : Option String := none
  title : String
  description : Option String := none
  parentUid : Option String := none
  source : Option ResourceSource := none
  provenance : Option Json := none

structure UpdateFolderPatch where
  title : Option String := none
  description : Option (Option String) := none
  parentUid : Option (Option String) := none

structure Drawn where
  id : String
  now : String
  random : String
  suffix : String

structure FolderCounts where
  dashboards : ℕ
  subfolders : ℕ
  alertRules : ℕ
deriving DecidableEq

namespace FolderService

open FolderRepository

def outOfFuel : String := "traversal did not finish"

/-- The loop of `listDescendantUids`; the top of the stack is its head. -/
def descend (orgId : String) : ℕ → List String → List String → Prog Tables (List String)
  | _, [], out => return out
  | 0, _ :: _, _ => throw outOfFuel
  | fuel + 1, current :: stack, out => do
      let children ← listChildren orgId (some current)
      let found := (children.map (·.uid)).foldl
        (fun found uid => if uid ∈ out ++ found then found else found ++ [uid]) []
      descend orgId fuel (found.reverse ++ stack) (out ++ found)

def listDescendantUids (fuel : ℕ) (orgId uid : String) : Prog Tables (List String) :=
  descend orgId fuel [uid] []

def deepest (measure : Folder → Prog Tables ℕ) (best : ℕ) : List Folder → Prog Tables ℕ
  | [] => return best
  | c :: cs => do
      let d ← measure c
      deepest measure (if best < d then d else best) cs

/-- Depth of the subtree rooted at `uid` (1 = leaf). -/
def measureSubtreeDepth (orgId : String) : ℕ → String → Prog Tables ℕ
  | 0, _ => throw outOfFuel
  | fuel + 1, uid => do
      let children ← listChildren orgId (some uid)
      if children.length = 0 then return 1
      else do
        let best ← deepest (fun c => measureSubtreeDepth orgId fuel c.uid) 0 children
        return best + 1

def depthMessage : String := "folder depth would exceed limit of 8"

def chooseUid (drawn : Drawn) (orgId : String) (input : CreateFolderInput) :
    Prog Tables String := do
  let uid := (truthy (input.uid.map Rbac.trim)).getD (slugifyUid drawn.random input.title)
  match ← findByUid orgId uid with
  | none => return uid
  | some _ =>
    if (truthy input.uid).isSome then throw ("folder uid already exists: " ++ uid)
    else return uid ++ "_" ++ drawn.suffix

def checkParent (orgId : String) (parentUid : Option String) : Prog Tables Unit :=
  match truthy parentUid with
  | none => return ()
  | some parentUid => do
      match ← findByUid orgId parentUid with
      | none => throw ("parent folder not found: " ++ parentUid)
      | some _ => do
          let ancestors ← listAncestors orgId parentUid
          if folderMaxDepth < ancestors.length + 2 then throw depthMessage else return ()

def create (drawn : Drawn) (orgId : String) (input : CreateFolderInput) (userId : String) :
    Prog Tables Folder :=
  if Rbac.trim input.title = "" then throw "title is required"
  else do
    let uid ← chooseUid drawn orgId input
    checkParent orgId input.parentUid
    FolderRepository.create drawn.id drawn.now
      { uid
        orgId
        title := Rbac.trim input.title
        description := input.description
        parentUid := input.parentUid
        createdBy := some userId
        updatedBy := some userId
        source := some (input.source.getD .manual)
        provenance := input.provenance }

def checkMove (fuel : ℕ) (orgId uid : String) (existing : Folder) :
    Option (Option String) → Prog Tables Unit
  | none => return ()
  | some parentUid =>
    if parentUid = existing.parentUid then return ()
    else if parentUid = some uid then throw "folder cannot be its own parent"
    else
      match truthy parentUid with
      | none => return ()
      | some parentUid => do
          let descendants ← listDescendantUids fuel orgId uid
          if parentUid ∈ descendants then throw "cannot move folder under its own descendant"
          else do
            let ancestors ← listAncestors orgId parentUid
            let subtreeDepth ← measureSubtreeDepth orgId fuel uid
            if folderMaxDepth < ancestors.length + 2 + subtreeDepth - 1 then throw depthMessage
            else return ()

def update (fuel : ℕ) (now orgId uid : String) (patch : UpdateFolderPatch) (userId : String) :
    Prog Tables Folder := do
  match ← findByUid orgId uid with
  | none => throw ("folder not found: " ++ uid)
  | some existing => do
      checkMove fuel orgId uid existing patch.parentUid
      match ← FolderRepository.update now existing.id
          { title := patch.title
            description := patch.description
            parentUid := patch.parentUid
            updatedBy := some (some userId) } with
      | none => throw ("folder not found: " ++ uid)
      | some updated => return updated

/-- `SELECT COUNT(*) … WHERE org_id = … AND folder_uid IN (…)`. -/
def countAlertRulesInFolders (orgId : String) (uids : List String) : Prog Tables ℕ :=
  Prog.read fun t => (t.alertRules.filter fun r =>
    r.orgId = orgId ∧ r.folderUid.any (· ∈ uids) = true).length

def deleteRules (gone : AlertRule → Bool) (t : Tables) : Tables :=
  { t with
    alertRules := t.alertRules.filter fun r => !gone r
    alertHistory := t.alertHistory.filter fun h =>
      !(t.alertRules.any fun r => gone r && r.id == h.ruleId) }

def deleteContents (orgId uid : String) : Prog Tables Unit := do
  Prog.write fun t => { t with dashboards := t.dashboards.filter fun d =>
    !(d.orgId == orgId && d.folderUid == some uid) }
  Prog.write (deleteRules fun r => r.orgId == orgId && r.folderUid == some uid)
  match ← FolderRepository.findByUid orgId uid with
  | none => return ()
  | some folder =>
    Prog.write fun t => { t with dashboardAcl := t.dashboardAcl.filter fun a =>
      !(a.orgId == orgId && a.folderId == some folder.id) }

def deleteEach (orgId : String) : List String → Prog Tables Unit
  | [] => return ()
  | uid :: uids => do
      deleteContents orgId uid
      deleteEach orgId uids

def deleteFolders (orgId : String) : List String → Prog Tables Unit
  | [] => return ()
  | uid :: uids => do
      Prog.write fun t => { t with folders := t.folders.filter fun f =>
        !(f.orgId == orgId && f.uid == uid) }
      deleteFolders orgId uids

def delete (fuel : ℕ) (orgId uid : String) (forceDeleteRules : Bool) : Prog Tables Unit := do
  match ← findByUid orgId uid with
  | none => throw ("folder not found: " ++ uid)
  | some _ => do
      let descendants ← listDescendantUids fuel orgId uid
      let uidList := uid :: descendants.filter (· ≠ uid)
      let ruleCount ← countAlertRulesInFolders orgId uidList
      if 0 < ruleCount ∧ forceDeleteRules = false then
        throw ("folder contains " ++ toString ruleCount ++
          " alert rule(s); use forceDeleteRules=true to delete anyway")
      else do
        deleteEach orgId uidList
        deleteFolders orgId uidList.reverse

/-- `getCounts`, three queries. -/
def getCounts (orgId uid : String) : Prog Tables FolderCounts := do
  match ← findByUid orgId uid with
  | none => throw ("folder not found: " ++ uid)
  | some _ => do
      let dashboards ← Prog.read fun t =>
        (t.dashboards.filter fun d => d.orgId = orgId ∧ d.folderUid = some uid).length
      let alertRules ← Prog.read fun t =>
        (t.alertRules.filter fun r => r.orgId = orgId ∧ r.folderUid = some uid).length
      let subfolders ← Prog.read fun t =>
        (t.folders.filter fun f => f.orgId = orgId ∧ f.parentUid = some uid).length
      return ⟨dashboards, subfolders, alertRules⟩

/-- `getFolderCounts`, one `GROUP BY` for each table; a folder with nothing in it has no
entry. -/
def getFolderCounts (orgId : String) (folderUids : List String) :
    Prog Tables (List (String × FolderCounts)) :=
  if folderUids.length = 0 then return []
  else do
    let dashboards ← Prog.read fun t => fun uid =>
      (t.dashboards.filter fun d => d.orgId = orgId ∧ d.folderUid = some uid).length
    let alertRules ← Prog.read fun t => fun uid =>
      (t.alertRules.filter fun r => r.orgId = orgId ∧ r.folderUid = some uid).length
    let subfolders ← Prog.read fun t => fun uid =>
      (t.folders.filter fun f => f.orgId = orgId ∧ f.parentUid = some uid).length
    return folderUids.eraseDups.filterMap fun uid =>
      if dashboards uid = 0 ∧ alertRules uid = 0 ∧ subfolders uid = 0 then none
      else some (uid, ⟨dashboards uid, subfolders uid, alertRules uid⟩)

end FolderService

end OpenObs.Folders
