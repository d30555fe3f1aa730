import OpenObs.Foundation.Async
import OpenObs.Rbac.Tables

/-!
# The tables of the resources

Folders, dashboards, alert rules and investigations, with the columns the services read and write.
-/

namespace OpenObs.Resources

open OpenObs.Foundation

/-! ## Rows -/

inductive ResourceSource : Type where
  | manual | api | aiGenerated | provisionedFile | provisionedGit
deriving DecidableEq

def ResourceSource.text : ResourceSource → String
  | .manual => "manual"
  | .api => "api"
  | .aiGenerated => "ai_generated"
  | .provisionedFile => "provisioned_file"
  | .provisionedGit => "provisioned_git"

/-- A row of `folder`. -/
structure Folder where
  id : String
  uid : String
  orgId : String
  title : String
  description : Option String := none
  parentUid : Option String := none
  created : String := ""
  updated : String := ""
  createdBy : Option String := none
  updatedBy : Option String := none
  source : ResourceSource := .manual
  provenance : Option Json := none

/-- A row of `dashboards`. -/
structure Dashboard where
  id : String
  orgId : String := "org_main"
  type : String := "dashboard"
  title : String
  description : String
  prompt : String
  userId : String
  status : String := "generating"
  panels : List Json := []
  «variables» : List Json := []
  refreshIntervalSec : ℕ := 30
  datasourceIds : List String := []
  useExistingMetrics : Bool := true
  folder : Option String := none
  folderUid : Option String := none
  workspaceId : Option String := none
  version : Option ℕ := none
  publishStatus : Option String := none
  error : Option String := none
  source : ResourceSource := .manual
  provenance : Option Json := none
  createdAt : String := ""
  updatedAt : String := ""

/-- A row of `alert_rules`. -/
structure AlertRule where
  id : String
  name : String
  description : String
  originalPrompt : Option String := none
  condition : Json
  evaluationIntervalSec : Json := .num 60
  severity : String := "medium"
  labels : Option Json := none
  state : String := "normal"
  stateChangedAt : String := ""
  pendingSince : Option String := none
  notificationPolicyId : Option String := none
  investigationId : Option String := none
  workspaceId : Option String := none
  folderUid : Option String := none
  orgId : String := "org_main"
  createdBy : String := "user"
  lastEvaluatedAt : Option String := none
  lastFiredAt : Option String := none
  fireCount : Json := .num 0
  source : ResourceSource := .manual
  provenance : Option Json := none
  createdAt : String := ""
  updatedAt : String := ""

/-- A row of `alert_history`; it goes with its rule. -/
structure AlertHistoryEntry where
  id : String
  ruleId : String
  ruleName : String
  fromState : String
  toState : String
  value : Int
  threshold : Int
  timestamp : String
  labels : Json := .obj []

/-- A row of `dashboard_acl`. -/
structure FolderAcl where
  id : String
  orgId : String
  dashboardId : Option String := none
  folderId : Option String := none
  userId : Option String := none
  teamId : Option String := none
  role : Option String := none
  permission : ℕ

structure Tables where
  orgs : List String := []
  users : List String := []
  folders : List Folder := []
  dashboards : List Dashboard := []
  alertRules : List AlertRule := []
  alertHistory : List AlertHistoryEntry := []
  dashboardAcl : List FolderAcl := []

namespace Tables

variable (t : Tables)

/-! ## Queries -/

def findFolderByUid (orgId uid : String) : Option Folder :=
  t.folders.find? fun f => f.orgId = orgId ∧ f.uid = uid

def findFolderById (id : String) : Option Folder := t.folders.find? (·.id = id)

/-- `listChildren`: `ORDER BY title`; `none` lists the roots. -/
def listChildren (orgId : String) (parentUid : Option String) : List Folder :=
  (t.folders.filter fun f => f.orgId = orgId ∧ f.parentUid = parentUid).mergeSort
    fun f g => decide (f.title ≤ g.title)

def findRuleById (id : String) : Option AlertRule := t.alertRules.find? (·.id = id)

def findDashboardById (id : String) : Option Dashboard := t.dashboards.find? (·.id = id)

/-- The column of a rule that `getFolderUid` reads, in one org. -/
def ruleFolderUid (orgId ruleId : String) : Option String :=
  (t.alertRules.find? fun r => r.orgId = orgId ∧ r.id = ruleId).bind (·.folderUid)

def accessDb : Rbac.Db where
  orgs := t.orgs
  folders := t.folders.map fun f => ⟨f.id, f.orgId, f.uid, f.parentUid⟩
  dashboards := t.dashboards.map fun d => ⟨d.id, d.orgId, d.folderUid⟩
  alertRules := t.alertRules.map fun r => ⟨r.id, r.orgId, r.folderUid⟩

end Tables

end OpenObs.Resources
