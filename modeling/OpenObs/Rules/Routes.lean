import OpenObs.Folders.Tree
import OpenObs.Rules.Repository

/-!
# The alert-rule routes

The writing requests of `routes/alert-rules.ts`. A request passes the permission gate of its route,
which is a parameter, and loads the rule it names; a rule of another workspace is not found.
-/

namespace OpenObs.Rules

open OpenObs.Foundation OpenObs.Resources OpenObs.Folders

/-! ## JSON bodies -/

/-- `!!v` of a property. -/
def truthyJson : Option Json → Bool
  | none => false
  | some .null => false
  | some (.bool b) => b
  | some (.num n) => n ≠ 0
  | some (.str s) => s ≠ ""
  | some (.arr _) => true
  | some (.obj _) => true

/-- `v ?? dflt`. -/
def orDefault (v : Option Json) (dflt : Json) : Json :=
  match v with
  | none => dflt
  | some .null => dflt
  | some v => v

/-- `{ ...v }`. -/
def spread : Json → Json.Record
  | .obj fields => fields
  | .arr xs => xs.zipIdx.map fun x => (toString x.2, x.1)
  | .str s => s.toList.zipIdx.map fun x => (toString x.2, .str (String.singleton x.1))
  | _ => []

def setField (r : Json.Record) (name : String) (v : Json) : Json.Record :=
  if r.any (·.1 = name) then r.map fun f => if f.1 = name then (name, v) else f
  else r ++ [(name, v)]

/-- `typeof raw === 'string' ? raw.trim() : ''`. -/
def trimmed : Option Json → String
  | some (.str s) => Rbac.trim s
  | _ => ""

/-! ## Replies -/

structure Reply where
  status : ℕ
  code : Option String := none
  message : String := ""
  rule : Option AlertRule := none

structure Caller where
  orgId : String
  userId : Option String
  allows : Tables → Rbac.Evaluator → Bool

def permitted {α : Type} (caller : Caller) (e : Rbac.Evaluator) (refusal : α)
    (handler : Prog Tables α) : Prog Tables α := do
  if ← Prog.read (caller.allows · e) then handler
  else return refusal

def notFound : Reply := ⟨404, some "NOT_FOUND", "Alert rule not found", none⟩

def requirePermission (caller : Caller) (e : Rbac.Evaluator) (handler : Prog Tables Reply) :
    Prog Tables Reply := do
  if ← Prog.read (caller.allows · e) then handler
  else return { status := 403, code := some "FORBIDDEN" }

/-- `assertWritable`. -/
def isProvisioned : ResourceSource → Bool
  | .provisionedFile => true
  | .provisionedGit => true
  | _ => false

def provisioned (rule : AlertRule) : Reply :=
  { status := 409, code := some "PROVISIONED_RESOURCE", message := rule.source.text }

def loadOwnedRule (caller : Caller) (id : String) : Prog Tables (Option AlertRule) := do
  match ← AlertRuleRepository.findById id with
  | none => return none
  | some rule => if rule.workspaceId ≠ some caller.orgId then return none else return some rule

/-! ## Handlers -/

def defaultFolderUid : String := "alerts"

def resolveAlertRuleFolderUid (drawn : Drawn) (workspaceId : String) (userId : Option String)
    (requested : Option String) : Prog Tables String := do
  match truthy (requested.map Rbac.trim) with
  | some folderUid => return folderUid
  | none => do
      match ← FolderRepository.findByUid workspaceId defaultFolderUid with
      | some existing => return existing.uid
      | none => do
          let created ← FolderRepository.create drawn.id drawn.now
            { uid := defaultFolderUid
              orgId := workspaceId
              title := "Alerts"
              description := some
                "Default folder for alert rules created without an explicit folder."
              parentUid := none
              createdBy := userId
              updatedBy := userId
              source := some .api }
          return created.uid

/-- The input of `store.create` for a `POST`. -/
def postedRule (workspaceId folderUid : String) (body : Json.Record) : NewAlertRule where
  name := orDefault (Json.field body "name") .null
  description := orDefault (Json.field body "description") (.str "")
  originalPrompt := Json.field body "originalPrompt"
  condition := orDefault (Json.field body "condition") .null
  evaluationIntervalSec := orDefault (Json.field body "evaluationIntervalSec") (.num 60)
  severity := orDefault (Json.field body "severity") (.str "medium")
  labels := some (.obj (setField (spread (orDefault (Json.field body "labels") .null))
    "workspaceId" (.str workspaceId)))
  createdBy := orDefault (Json.field body "createdBy") (.str "user")
  notificationPolicyId := Json.field body "notificationPolicyId"
  workspaceId := some workspaceId
  folderUid := some folderUid
  source := some .api

def postRule (driver : Driver) (drawn : DrawnRule) (drawnFolder : Drawn) (caller : Caller)
    (body : Json.Record) : Prog Tables Reply :=
  let requested := trimmed (Json.field body "folderUid")
  let folder := if requested = "" then defaultFolderUid else requested
  requirePermission caller (.action "alert.rules:create" ["folders:uid:" ++ folder]) do
    if truthyJson (Json.field body "name") = false ∨
        truthyJson (Json.field body "condition") = false then
      return ⟨400, some "INVALID_INPUT", "name and condition are required", none⟩
    else do
      let folderUid ← resolveAlertRuleFolderUid drawnFolder caller.orgId caller.userId
        ((Json.field body "folderUid").bind Json.asString)
      let rule ← AlertRuleRepository.create driver drawn (postedRule caller.orgId folderUid body)
      return { status := 201, rule := some rule }

/-- The input of `store.create` for a fork. -/
def forkedRule (workspaceId userId folderUid name : String) (existing : AlertRule) :
    NewAlertRule where
  name := .str name
  description := .str existing.description
  originalPrompt := existing.originalPrompt.map .str
  condition := existing.condition
  evaluationIntervalSec := existing.evaluationIntervalSec
  severity := .str existing.severity
  labels := some (.obj (spread (existing.labels.getD .null)))
  notificationPolicyId := (truthy existing.notificationPolicyId).map .str
  createdBy := .str userId
  workspaceId := some workspaceId
  folderUid := some folderUid
  source := some .manual
  provenance := some (.obj [("forkedFrom", .str existing.id)])

def ruleScope (id : String) : List String := ["alert.rules:uid:" ++ id]

def forkRule (driver : Driver) (drawn : DrawnRule) (caller : Caller) (id : String)
    (body : Json.Record) : Prog Tables Reply :=
  requirePermission caller (.action "alert.rules:read" (ruleScope id)) do
    match ← loadOwnedRule caller id with
    | none => return notFound
    | some existing => do
        let userId := caller.userId.getD "anonymous"
        let requested := trimmed (Json.field body "folderUid")
        let folderUid := if requested = "" then "personal-" ++ userId else requested
        let title := trimmed (Json.field body "newTitle")
        let name := if title = "" then existing.name ++ " (forked)" else title
        let rule ← AlertRuleRepository.create driver drawn
          (forkedRule caller.orgId userId folderUid name existing)
        return { status := 201, rule := some rule }

def updateReply : Option AlertRule → Reply
  | none => notFound
  | some rule => { status := 200, rule := some rule }

def putRule (driver : Driver) (now : String) (caller : Caller) (id : String)
    (body : Json.Record) : Prog Tables Reply :=
  requirePermission caller (.action "alert.rules:write" (ruleScope id)) do
    match ← loadOwnedRule caller id with
    | none => return notFound
    | some existing =>
      if isProvisioned existing.source then return provisioned existing
      else do
        let updated ← AlertRuleRepository.update driver now id body
        return updateReply updated

def deleteRule (caller : Caller) (id : String) : Prog Tables Reply :=
  requirePermission caller (.action "alert.rules:delete" (ruleScope id)) do
    match ← loadOwnedRule caller id with
    | none => return notFound
    | some existing =>
      if isProvisioned existing.source then return provisioned existing
      else do
        let deleted ← AlertRuleRepository.delete id
        return if deleted then { status := 204 } else notFound

def disableRule (driver : Driver) (now : String) (caller : Caller) (id : String) :
    Prog Tables Reply :=
  requirePermission caller (.action "alert.rules:write" (ruleScope id)) do
    match ← loadOwnedRule caller id with
    | none => return notFound
    | some existing =>
      if isProvisioned existing.source then return provisioned existing
      else do
        let updated ← AlertRuleRepository.update driver now id [("state", .str "disabled")]
        return updateReply updated

def enableRule (driver : Driver) (now : String) (caller : Caller) (id : String) :
    Prog Tables Reply :=
  requirePermission caller (.action "alert.rules:write" (ruleScope id)) do
    match ← loadOwnedRule caller id with
    | none => return notFound
    | some _ => do
        let updated ← AlertRuleRepository.update driver now id [("state", .str "normal")]
        return updateReply updated

inductive RuleRequest : Type where
  | post (drawn : DrawnRule) (drawnFolder : Drawn) (body : Json.Record)
  | fork (drawn : DrawnRule) (id : String) (body : Json.Record)
  | put (now id : String) (body : Json.Record)
  | delete (id : String)
  | disable (now id : String)
  | enable (now id : String)

def RuleRequest.code (driver : Driver) (caller : Caller) : RuleRequest → Prog Tables Reply
  | .post drawn drawnFolder body => postRule driver drawn drawnFolder caller body
  | .fork drawn id body => forkRule driver drawn caller id body
  | .put now id body => putRule driver now caller id body
  | .delete id => deleteRule caller id
  | .disable now id => disableRule driver now caller id
  | .enable now id => enableRule driver now caller id

end OpenObs.Rules
