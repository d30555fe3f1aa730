import Mathlib.Data.List.Sort
import OpenObs.Foundation.Async
import OpenObs.Foundation.Relational

/-!
# The schema

The tables of `sqlite-schema.sql`, and the foreign keys among those whose rows go with an org.
A user is never deleted here, so the keys that lead to `users` are left out.
-/

namespace OpenObs.Orgs

open OpenObs.Foundation

inductive Table : Type where
  | org | users | userAuth | userAuthToken | orgUser | team | teamMember | apiKey | role
  | permission | builtinRole | userRole | teamRole | preferences | quota | auditLog | folder
  | dashboardAcl | folders | instanceLlmConfig | notificationChannels | instanceSettings
  | runtimeSettings | investigations | investigationFollowUps | investigationFeedback
  | investigationConclusions | investigationReports | shareLinks | incidents | feedItems
  | approvals | postMortems | dashboards | chatSessions | chatSessionContexts | chatMessages
  | chatSessionEvents | assetVersions | alertRules | alertHistory | alertSilences
  | notificationPolicies | contactPoints | notificationPolicyTree | muteTimings
  | notificationDispatch | connectors | connectorCapabilities | connectorSecrets
  | connectorTeamPolicies | remediationPlan | remediationPlanStep | llmAudit
deriving DecidableEq

/-- The columns the service reads or writes, those that name a row of another table, and the
others. -/
inductive Column : Type where
  | id | orgId | workspaceId | userId | roleId | teamId | investigationId | incidentId | ruleId
  | connectorId | login | name | version | updated | timestamp | action | actorType | actorId
  | targetType | targetId | targetName | outcome
  | other (column : String)
deriving DecidableEq

inductive Cell : Type where
  | text (s : String)
  | int (n : Int)
deriving DecidableEq

abbrev TableRow : Type := Row Column Cell

abbrev Db : Type := Database Table Column Cell

namespace Table

def rank : Table → ℕ
  | .org => 0
  | .role => 0
  | .investigations => 0
  | .incidents => 0
  | .alertRules => 0
  | .teamMember => 2
  | .teamRole => 2
  | .preferences => 2
  | .connectorCapabilities => 2
  | .connectorSecrets => 2
  | .connectorTeamPolicies => 2
  | _ => 1

end Table

def cascades (child : Table) (column : Column) (parent : Table) : ForeignKey Table Column :=
  ⟨child, column, parent, .cascade⟩

def foreignKeys : List (ForeignKey Table Column) :=
  [⟨.users, .orgId, .org, .restrict⟩,
    cascades .orgUser .orgId .org,
    cascades .team .orgId .org,
    cascades .teamMember .orgId .org,
    cascades .teamMember .teamId .team,
    cascades .apiKey .orgId .org,
    cascades .permission .roleId .role,
    cascades .builtinRole .roleId .role,
    cascades .userRole .roleId .role,
    cascades .teamRole .teamId .team,
    cascades .teamRole .roleId .role,
    cascades .preferences .orgId .org,
    cascades .preferences .teamId .team,
    cascades .folder .orgId .org,
    cascades .dashboardAcl .orgId .org,
    cascades .notificationChannels .orgId .org,
    cascades .investigationFollowUps .investigationId .investigations,
    cascades .investigationFeedback .investigationId .investigations,
    cascades .investigationConclusions .investigationId .investigations,
    cascades .shareLinks .investigationId .investigations,
    cascades .postMortems .incidentId .incidents,
    cascades .alertHistory .ruleId .alertRules,
    cascades .connectors .orgId .org,
    cascades .connectorCapabilities .connectorId .connectors,
    cascades .connectorSecrets .connectorId .connectors,
    cascades .connectorTeamPolicies .connectorId .connectors]

def schema : Schema Table Column where
  key := .id
  keys := foreignKeys
  rank := Table.rank
  depth := 2
  layered := by decide
  bounded := by
    intro t
    cases t <;> decide

/-! ## Facts about the keys -/

section Keys

variable {fk : ForeignKey Table Column}

theorem restrict_key (hfk : fk ∈ schema.keys) (h : fk.onDelete = .restrict) :
    fk.child = .users ∧ fk.column = .orgId ∧ fk.parent = .org := by
  revert fk
  decide

theorem users_key_mem : (⟨.users, .orgId, .org, .restrict⟩ : ForeignKey Table Column) ∈ schema.keys :=
  List.mem_cons_self

theorem cascade_child (hfk : fk ∈ schema.keys) (h : fk.onDelete = .cascade) :
    fk.child ≠ .users ∧ fk.child ≠ .org ∧ fk.child ≠ .auditLog := by
  revert fk
  decide

theorem cascade_parent (hfk : fk ∈ schema.keys) (h : fk.onDelete = .cascade) :
    fk.parent ≠ .users ∧ fk.parent ≠ .auditLog := by
  revert fk
  decide

end Keys

end OpenObs.Orgs

/-!
# The deletion of an org

`OrgService.delete` of `services/org-service.ts` with the repositories below it.
-/

namespace OpenObs.Orgs

open OpenObs.Foundation

def execute (statement : Db → Except String Db) : Prog Db Unit :=
  Prog.attempt fun db =>
    match statement db with
    | .ok db' => (.ok (), db')
    | .error e => (.error e, db)

def rowsWhere (t : Table) (column : Column) (value : Cell) (t' : Table) (r : TableRow) : Bool :=
  decide (t' = t) && decide (r column = some value)

def deleteFrom (t : Table) (column : Column) (value : Cell) : Prog Db Unit :=
  execute (schema.delete (rowsWhere t column value))

def findById (t : Table) (id : Cell) (db : Db) : Option TableRow :=
  (db t).find? fun r => r .id = some id

namespace UserRepository

/-- What an `update` of the org writes; the columns it does not name it writes back as it has just
read them. -/
def moved (updated : String) (orgId : Cell) (r : TableRow) : TableRow
  | .version => (r .version).map fun v => match v with
      | .int n => .int (n + 1)
      | .text s => .text s
  | .orgId => some orgId
  | .updated => some (.text updated)
  | column => r column

def update (updated : String) (id orgId : Cell) : Prog Db Unit := do
  match ← Prog.read (findById .users id) with
  | none => return ()
  | some _ =>
    execute (schema.update .users (fun r => decide (r .id = some id)) (moved updated orgId))

end UserRepository

namespace OrgUserRepository

def loginOf (r : TableRow) : String :=
  match r .login with
  | some (.text s) => s
  | _ => ""

def listUsersByOrg (orgId : Cell) (limit : ℕ) (db : Db) : List TableRow :=
  let members := (db .orgUser).filter fun m => decide (m .orgId = some orgId)
  let joined := members.flatMap fun m =>
    (db .users).filter fun u => (u .id).isSome && decide (u .id = m .userId)
  (joined.insertionSort fun u v => loginOf u ≤ loginOf v).take limit

def listOrgsByUser (userId : Cell) (db : Db) : List TableRow :=
  (db .orgUser).filter fun m => decide (m .userId = some userId)

end OrgUserRepository

namespace OrgRepository

def delete (id : Cell) : Prog Db Unit := do
  match ← Prog.read (findById .org id) with
  | none => return ()
  | some _ => deleteFrom .org .id id

end OrgRepository

/-- What the service draws: the times of the updates, and the id and the time of the audit row. -/
structure Drawn where
  updated : Cell → String
  auditId : String
  auditedAt : String

namespace AuditWriter

def log (entry : TableRow) : Prog Db Unit :=
  tryCatch (execute fun db =>
    if (db .auditLog).any fun r => decide (r .id = entry .id)
    then .error "UNIQUE constraint failed: audit_log.id"
    else .ok (Function.update db .auditLog (db .auditLog ++ [entry]))) fun _ => pure ()

end AuditWriter

namespace OrgService

/-- The tables with an `org_id` and no foreign key. -/
def orgScopedTables : List Table :=
  [.dashboards, .investigations, .investigationReports, .incidents, .feedItems, .postMortems,
    .alertRules, .alertHistory, .alertSilences, .chatSessions, .chatMessages, .chatSessionEvents,
    .approvals]

def cascadeTables : List Table :=
  [.orgUser, .role, .builtinRole, .userRole, .teamRole, .team, .quota, .dashboardAcl, .preferences,
    .folder]

/-- `DELETE FROM table WHERE org_id = …`, as far as it goes. -/
def cleanup (id : Cell) (t : Table) : Prog Db Unit :=
  tryCatch (deleteFrom t .orgId id) fun _ => pure ()

def reassign (defaultOrgId : Cell) (updated : Cell → String) (id userId : Cell) : Prog Db Unit := do
  match ← Prog.read (findById .users userId) with
  | none => return ()
  | some user =>
    if user .orgId ≠ some id then return ()
    else do
      let memberships ← Prog.read (OrgUserRepository.listOrgsByUser userId)
      let remaining := memberships.filter fun m => decide (m .orgId ≠ some id)
      let fallback := (remaining.head?.bind (· .orgId)).getD defaultOrgId
      UserRepository.update (updated userId) userId fallback

def orgNotFound : String := "organization not found"

/-- The entry for `org.deleted`. -/
def auditEntry (drawn : Drawn) (id actorId : Cell) (org : TableRow) : TableRow
  | .id => some (.text drawn.auditId)
  | .timestamp => some (.text drawn.auditedAt)
  | .action => some (.text "org.deleted")
  | .actorType => some (.text "user")
  | .actorId => some actorId
  | .orgId => some id
  | .targetType => some (.text "org")
  | .targetId => some id
  | .targetName => org .name
  | .outcome => some (.text "success")
  | _ => none

def delete (defaultOrgId : Cell) (drawn : Drawn) (id actorId : Cell) : Prog Db Unit := do
  match ← Prog.read (findById .org id) with
  | none => throw orgNotFound
  | some org => do
      let members ← Prog.read (OrgUserRepository.listUsersByOrg id 10000)
      orgScopedTables.forM (cleanup id)
      (members.filterMap (· .id)).forM (reassign defaultOrgId drawn.updated id)
      reassign defaultOrgId drawn.updated id actorId
      cascadeTables.forM (cleanup id)
      OrgRepository.delete id
      AuditWriter.log (auditEntry drawn id actorId org)

end OrgService

end OpenObs.Orgs
