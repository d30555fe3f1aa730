import OpenObs.Plans.Store

/-!
# The approval store

`SqliteApprovalRequestRepository` and the event-emitting wrapper around it. A
resolution reads the row in one section and updates it in the next, and the
`UPDATE` does not look at the status again; the wrapper announces every request
a resolution returned.
-/

namespace OpenObs.Approvals

open OpenObs.Foundation OpenObs.Plans

/-- What the process provides: `randomUUID`, and the date so many milliseconds
after a date. -/
structure Runtime where
  randomUUID : World → String
  later : String → ℕ → String

/-! ## The repository -/

structure SubmitParams where
  action : ApprovalAction
  context : ApprovalContext
  ttlMs : Option ℕ := none
  opsConnectorId : Option String := none
  targetNamespace : Option String := none
  requesterTeamId : Option String := none

/-- The row `submit` inserts; the insert leaves the org to the column default. -/
def newRequest (rt : Runtime) (params : SubmitParams) (w : World) : ApprovalRequest where
  id := rt.randomUUID w
  orgId := "org_main"
  action := params.action
  context := params.context
  status := .pending
  expiresAt := rt.later w.now (params.ttlMs.getD 86400000)
  createdAt := w.now
  resolvedAt := none
  resolvedBy := none
  resolvedByRoles := none
  opsConnectorId := params.opsConnectorId
  targetNamespace := params.targetNamespace
  requesterTeamId := params.requesterTeamId

def findById (id : String) : Prog World (Option ApprovalRequest) :=
  .read fun w => w.approval id

def submit (rt : Runtime) (params : SubmitParams) : Prog World ApprovalRequest :=
  .attempt fun w =>
    let row := newRequest rt params w
    if (w.approval row.id).isSome then
      (.error "UNIQUE constraint failed: approvals.id", w)
    else (.ok row, w.insertApproval row)

def resolve (id : String) (status : ApprovalStatus) (resolvedBy : String)
    (roles : Option (List String)) : Prog World (Option ApprovalRequest) :=
  .atomic fun w =>
    let w' := w.resolveApproval id status resolvedBy roles
    (w'.approval id, w')

/-- `approve` and `reject`: only a request that was pending when it was read. -/
def resolvePending (status : ApprovalStatus) (id resolvedBy : String)
    (roles : Option (List String)) : Prog World (Option ApprovalRequest) := do
  let existing ← findById id
  match existing with
  | none => return none
  | some existing =>
    if existing.status = .pending then resolve id status resolvedBy roles
    else return none

def repoApprove : String → String → Option (List String) →
    Prog World (Option ApprovalRequest) := resolvePending .approved

def repoReject : String → String → Option (List String) →
    Prog World (Option ApprovalRequest) := resolvePending .rejected

def repoOverride (id resolvedBy : String) (roles : Option (List String)) :
    Prog World (Option ApprovalRequest) :=
  resolve id .approved resolvedBy roles

/-! ## The event-emitting wrapper -/

def notify (request : ApprovalRequest) : Prog World Unit :=
  .write fun w => { w with notified := w.notified ++ [request] }

def announce (resolution : Prog World (Option ApprovalRequest)) :
    Prog World (Option ApprovalRequest) := do
  let result ← resolution
  match result with
  | none => return none
  | some request =>
    notify request
    return some request

inductive Verdict : Type where
  | approve | reject | override
deriving DecidableEq

def Verdict.status : Verdict → ApprovalStatus
  | .approve => .approved
  | .reject => .rejected
  | .override => .approved

/-- `EventEmittingApprovalRepository.approve`, `.reject` and `.override`. -/
def resolution (verdict : Verdict) (id resolvedBy : String)
    (roles : Option (List String)) : Prog World (Option ApprovalRequest) :=
  match verdict with
  | .approve => announce (repoApprove id resolvedBy roles)
  | .reject => announce (repoReject id resolvedBy roles)
  | .override => announce (repoOverride id resolvedBy roles)

/-! ## A resolution alone -/

def resolvedWorld (verdict : Verdict) (id resolvedBy : String)
    (roles : Option (List String)) (w : World) (request : ApprovalRequest) : World :=
  { w.resolveApproval id verdict.status resolvedBy roles with
    notified := w.notified ++ [request] }

section

open Prog

variable {G : World → World → Prop} {w : World} {id resolvedBy : String}
  {roles : Option (List String)} {verdict : Verdict}

theorem announce_bind {α : Type} (p : Prog World α)
    (k : α → Prog World (Option ApprovalRequest)) :
    announce (p >>= k) = p >>= fun a => announce (k a) := by
  unfold announce
  rw [bind_assoc']

theorem announce_resolve_solo {status : ApprovalStatus} (hstatus : status = verdict.status)
    (hG : ∀ t t' : World, t'.plans = w.plans → G t t') :
    (announce (resolve id status resolvedBy roles)).Holds Eq G
      (fun r w' => (r = .ok none ∧ w' = w) ∨ ∃ a, w.approval id = some a ∧
        let request := a.resolve verdict.status resolvedBy w.now roles
        r = .ok (some request) ∧
          w' = resolvedWorld verdict id resolvedBy roles w request) w := by
  subst hstatus
  unfold announce resolve
  rw [holds_atomic_bind]
  rintro _ rfl
  refine ⟨hG _ _ rfl, ?_⟩
  cases ha : w.approval id with
  | none =>
    have hnone : (w.resolveApproval id verdict.status resolvedBy roles).approval id = none := by
      rw [World.resolveApproval_of_none ha, ha]
    simp only [hnone]
    exact Or.inl ⟨rfl, World.resolveApproval_of_none ha⟩
  | some a =>
    simp only [World.approval_resolveApproval ha]
    unfold notify
    rw [holds_write_bind]
    rintro _ rfl
    exact ⟨hG _ _ rfl, Or.inr ⟨a, rfl, rfl, rfl⟩⟩

/-- **A resolution alone.** It returns nothing and stores nothing, or it stores
its verdict, announces the row and returns it; only `override` does so to a
request that is not pending. -/
theorem resolution_solo (hG : ∀ t t' : World, t'.plans = w.plans → G t t') :
    (resolution verdict id resolvedBy roles).Holds Eq G
      (fun r w' => (r = .ok none ∧ w' = w) ∨ ∃ a, w.approval id = some a ∧
        (verdict ≠ .override → a.status = .pending) ∧
        let request := a.resolve verdict.status resolvedBy w.now roles
        r = .ok (some request) ∧
          w' = resolvedWorld verdict id resolvedBy roles w request) w := by
  -- `approve` and `reject` differ in the stored status only
  have hpending : verdict ≠ .override →
      (announce (resolvePending verdict.status id resolvedBy roles)).Holds Eq G
        (fun r w' => (r = .ok none ∧ w' = w) ∨ ∃ a, w.approval id = some a ∧
          (verdict ≠ .override → a.status = .pending) ∧
          let request := a.resolve verdict.status resolvedBy w.now roles
          r = .ok (some request) ∧
            w' = resolvedWorld verdict id resolvedBy roles w request) w := by
    intro hv
    unfold resolvePending findById
    rw [announce_bind, holds_read_bind]
    rintro _ rfl
    refine ⟨hG _ _ rfl, ?_⟩
    cases ha : w.approval id with
    | none => exact Or.inl ⟨rfl, rfl⟩
    | some a =>
      dsimp only
      by_cases hp : a.status = .pending
      · rw [if_pos hp]
        refine (announce_resolve_solo rfl hG).post ?_
        rintro r w' (hnone | ⟨a', ha', hr⟩)
        · exact Or.inl hnone
        · cases ha.symm.trans ha'
          exact Or.inr ⟨a, rfl, fun _ => hp, hr⟩
      · rw [if_neg hp]
        exact Or.inl ⟨rfl, rfl⟩
  cases verdict with
  | approve => exact hpending (by decide)
  | reject => exact hpending (by decide)
  | override =>
    show (announce (resolve id Verdict.override.status resolvedBy roles)).Holds Eq G _ w
    refine (announce_resolve_solo rfl hG).post ?_
    rintro r w' (hnone | ⟨a, ha, hr⟩)
    · exact Or.inl hnone
    · exact Or.inr ⟨a, ha, fun hv => absurd rfl hv, hr⟩

end

end OpenObs.Approvals
