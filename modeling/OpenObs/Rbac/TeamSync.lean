import Mathlib.Data.List.Infix
import OpenObs.Foundation.Distinct
import OpenObs.Foundation.Parts
import OpenObs.Foundation.Pool
import OpenObs.Rbac.Tokens

/-!
# Teams of an identity provider

`auth/team-sync.ts`: at a login the groups the provider reports are brought together with the
memberships marked external. Requests and syncs run at the same time; each leaves the other's
memberships alone.
-/

namespace OpenObs.Rbac

open OpenObs.Foundation

namespace TeamSync

structure TeamSyncInput where
  userId : String
  orgId : String
  externalGroups : List String

structure TeamSyncResult where
  added : List String
  removed : List String
  skipped : List String
deriving DecidableEq

/-- `TeamRepository.findByName`. -/
def findByName (teamName : String → String) (orgId name : String) (db : Db) : Option Team :=
  db.teams.find? fun t => t.orgId = orgId ∧ teamName t.id = name

/-- The loop of `resolveGroups`, behind what is mapped and skipped so far. -/
def resolveGroups (teamName : String → String) (orgId : String) :
    List String → List String → List String → Prog Db (List String × List String)
  | [], mapped, skipped => pure (mapped, skipped)
  | raw :: rest, mapped, skipped =>
    let name := trim raw
    if name = "" then resolveGroups teamName orgId rest mapped skipped
    else do
      match ← Prog.read (findByName teamName orgId name) with
      | none => resolveGroups teamName orgId rest mapped (skipped ++ [name])
      | some team =>
        if team.external then
          resolveGroups teamName orgId rest (addToSet team.id mapped) skipped
        else resolveGroups teamName orgId rest mapped (skipped ++ [name])

/-- `/already a team member/i.test(message)`. -/
def alreadyMember (message : String) : Bool :=
  decide ("already a team member".toList <:+: message.toList.map Char.toLower)

/-- One round of the first loop: a membership that is there is no failure. -/
def addOne (orgId userId teamId : String) (added : List String) : Prog Db (List String) :=
  tryCatch
    (do
      let _ ← TeamService.addMember orgId teamId userId 0 true
      pure (added ++ [teamId]))
    fun message => if alreadyMember message then pure added else throw message

def addMapped (orgId userId : String) (currentExternal : List String) :
    List String → List String → Prog Db (List String)
  | [], added => pure added
  | teamId :: rest, added =>
    if teamId ∈ currentExternal then addMapped orgId userId currentExternal rest added
    else do
      let added ← addOne orgId userId teamId added
      addMapped orgId userId currentExternal rest added

def removeUnmapped (orgId userId : String) (mapped : List String) :
    List String → List String → Prog Db (List String)
  | [], removed => pure removed
  | teamId :: rest, removed =>
    if teamId ∈ mapped then removeUnmapped orgId userId mapped rest removed
    else do
      TeamService.removeMember orgId teamId userId true
      removeUnmapped orgId userId mapped rest (removed ++ [teamId])

def currentExternal (input : TeamSyncInput) (db : Db) : List String :=
  (((db.listTeamsForUser input.userId input.orgId).filter (·.external)).map (·.teamId)).eraseDups

def syncTeams (teamName : String → String) (input : TeamSyncInput) : Prog Db TeamSyncResult :=
  if input.userId = "" ∨ input.orgId = "" then pure ⟨[], [], []⟩
  else do
    let (mapped, skipped) ← resolveGroups teamName input.orgId input.externalGroups [] []
    let current ← Prog.read (currentExternal input)
    let added ← addMapped input.orgId input.userId current mapped []
    let removed ← removeUnmapped input.orgId input.userId mapped current []
    pure ⟨added, removed, skipped⟩

/-! ## What a sync is for -/

/-- The ids of teams, their names in an org and a user's place in a team are unique, and a
membership is in the org of its team. -/
structure WellFormed (teamName : String → String) (db : Db) : Prop where
  team_ids : (db.teams.map (·.id)).Nodup
  team_names : (db.teams.map fun t => (t.orgId, teamName t.id)).Nodup
  member_pairs : (db.teamMembers.map fun m => (m.teamId, m.userId)).Nodup
  member_org : ∀ m ∈ db.teamMembers, ∀ t ∈ db.teams, t.id = m.teamId → m.orgId = t.orgId

def Named (teamName : String → String) (input : TeamSyncInput) (db : Db) (teamId : String) :
    Prop :=
  ∃ team ∈ db.teams, team.id = teamId ∧ team.orgId = input.orgId ∧ team.external = true ∧
    ∃ group ∈ input.externalGroups, trim group ≠ "" ∧ teamName team.id = trim group

def InTeam (input : TeamSyncInput) (external : Bool) (db : Db) (teamId : String) : Prop :=
  ∃ m ∈ db.teamMembers, m.userId = input.userId ∧ m.orgId = input.orgId ∧
    m.external = external ∧ m.teamId = teamId

def IsTarget (input : TeamSyncInput) (m : TeamMember) : Bool :=
  m.userId = input.userId ∧ m.orgId = input.orgId ∧ m.external = true

structure Synced (teamName : String → String) (input : TeamSyncInput) (db db' : Db)
    (result : TeamSyncResult) : Prop where
  /-- An empty id is no user's and no org's. -/
  target : input.userId ≠ "" → input.orgId ≠ "" → ∀ teamId, InTeam input true db' teamId ↔
    Named teamName input db teamId ∧ ¬ InTeam input false db teamId
  others : db'.teamMembers.filter (!IsTarget input ·) = db.teamMembers.filter (!IsTarget input ·)
  tables : db' = { db with teamMembers := db'.teamMembers }
  again : (syncTeams teamName input).run db' = (.ok ⟨[], [], result.skipped⟩, db')
  kept : WellFormed teamName db'

/-! ## The groups -/

section Groups

variable {teamName : String → String} {orgId : String} {groups mapped skipped : List String}
  {db db' : Db} {teamId : String}

theorem resolveGroups_congr (db db' : Db) (h : db'.teams = db.teams) : ∀ {mapped skipped : List String},
    (resolveGroups teamName orgId groups mapped skipped).run db' =
      (((resolveGroups teamName orgId groups mapped skipped).run db).1, db') := by
  induction groups with
  | nil => exact rfl
  | cons raw rest ih =>
    intro mapped skipped
    rw [resolveGroups]
    split
    · exact ih
    · rw [Prog.run_bind, Prog.run_read, Prog.run_bind, Prog.run_read]
      dsimp only
      rw [findByName, h, ← findByName]
      cases findByName teamName orgId (trim raw) db with
      | none => exact ih
      | some team =>
        dsimp only
        split
        · exact ih
        · exact ih

theorem resolveGroups_run (teamName : String → String) (orgId : String) (groups : List String)
    (db : Db) : ∀ mapped skipped : List String, ∃ mapped' skipped',
    (resolveGroups teamName orgId groups mapped skipped).run db = (.ok (mapped', skipped'), db) ∧
    (mapped.Nodup → mapped'.Nodup) ∧
    ∀ teamId, teamId ∈ mapped' ↔ teamId ∈ mapped ∨ ∃ group ∈ groups, trim group ≠ "" ∧
      ∃ team, findByName teamName orgId (trim group) db = some team ∧ team.external = true ∧
        team.id = teamId := by
  induction groups with
  | nil => exact fun mapped skipped => ⟨mapped, skipped, rfl, id, fun teamId => by simp⟩
  | cons raw rest ih =>
    intro mapped skipped
    rw [resolveGroups]
    split
    next hblank =>
      obtain ⟨mapped', skipped', hrun, hnodup, hmem⟩ := ih mapped skipped
      refine ⟨mapped', skipped', hrun, hnodup, fun teamId => ?_⟩
      rw [hmem]
      simp [hblank]
    next hname =>
      rw [Prog.run_bind, Prog.run_read]
      dsimp only
      cases hfound : findByName teamName orgId (trim raw) db with
      | none =>
        obtain ⟨mapped', skipped', hrun, hnodup, hmem⟩ := ih mapped (skipped ++ [trim raw])
        refine ⟨mapped', skipped', hrun, hnodup, fun teamId => ?_⟩
        rw [hmem]
        simp [hfound]
      | some team =>
        dsimp only
        split
        next hexternal =>
          obtain ⟨mapped', skipped', hrun, hnodup, hmem⟩ := ih (addToSet team.id mapped) skipped
          refine ⟨mapped', skipped', hrun, fun h => hnodup (nodup_addToSet h),
            fun teamId => ?_⟩
          rw [hmem, mem_addToSet]
          simp only [List.mem_cons, exists_eq_or_imp, hfound, Option.some.injEq,
            exists_eq_left', hexternal, true_and, hname, ne_eq, not_false_eq_true,
            or_assoc, eq_comm (a := teamId)]
        next hmanual =>
          obtain ⟨mapped', skipped', hrun, hnodup, hmem⟩ := ih mapped (skipped ++ [trim raw])
          refine ⟨mapped', skipped', hrun, hnodup, fun teamId => ?_⟩
          rw [hmem]
          simp [hfound, hmanual]

theorem findByName_eq_some_iff (h : WellFormed teamName db) {name : String} {team : Team} :
    findByName teamName orgId name db = some team ↔
      team ∈ db.teams ∧ team.orgId = orgId ∧ teamName team.id = name := by
  constructor
  · intro hfound
    have hprop := List.find?_some hfound
    exact ⟨List.mem_of_find?_eq_some hfound, by simpa using hprop⟩
  · rintro ⟨hmem, horg, hname⟩
    cases hfound : findByName teamName orgId name db with
    | none =>
      have hno := List.find?_eq_none.mp hfound team hmem
      simp [horg, hname] at hno
    | some other =>
      have hprop := List.find?_some hfound
      rw [decide_eq_true_iff] at hprop
      have hsame := List.inj_on_of_nodup_map h.team_names (List.mem_of_find?_eq_some hfound) hmem
        (by rw [hprop.1, hprop.2, horg, hname])
      rw [hsame]

end Groups

/-! ## One membership -/

section One

variable {orgId userId teamId : String} {db db' : Db} {added added' : List String}

theorem findInOrg_run : (TeamService.findInOrg orgId teamId).run db =
    (if (db.findTeam teamId).any (·.orgId = orgId) then
      .ok ((db.findTeam teamId).getD ⟨"", "", false⟩) else .error "team not found", db) := by
  rw [TeamService.findInOrg, Prog.run_bind, Prog.run_read]
  cases db.findTeam teamId with
  | none => rfl
  | some team => by_cases h : team.orgId = orgId <;> simp [h]

theorem addMember_run : (TeamService.addMember orgId teamId userId 0 true).run db =
    if (db.findTeam teamId).any (·.orgId = orgId) then
      if (db.findTeamMembership teamId userId).isSome then
        (.error "user is already a team member", db)
      else (TeamMemberRepository.create ⟨orgId, teamId, userId, true, 0⟩).run db
    else (.error "team not found", db) := by
  rw [TeamService.addMember, if_pos (by decide), Prog.run_bind, findInOrg_run]
  cases (db.findTeam teamId).any (·.orgId = orgId) with
  | false => rfl
  | true =>
    simp only [if_true, Bool.true_eq_false, and_false, if_false]
    rw [Prog.run_bind, Prog.run_read]
    cases db.findTeamMembership teamId userId <;> rfl

theorem addOne_run : (addOne orgId userId teamId added).run db =
    match (TeamService.addMember orgId teamId userId 0 true).run db with
    | (.ok _, db') => (.ok (added ++ [teamId]), db')
    | (.error message, db') =>
      (if alreadyMember message then .ok added else .error message, db') := by
  rw [addOne, Prog.run_tryCatch, Prog.run_bind]
  cases (TeamService.addMember orgId teamId userId 0 true).run db with
  | mk outcome db' =>
    cases outcome with
    | ok m => rfl
    | error message =>
      dsimp only
      split <;> rfl

theorem alreadyMember_conflict : alreadyMember "user is already a team member" = true := by
  decide +kernel

theorem alreadyMember_missing : alreadyMember "team not found" = false := by decide +kernel

theorem alreadyMember_foreign : alreadyMember "FOREIGN KEY constraint failed" = false := by
  decide +kernel

theorem addOne_ok (h : (addOne orgId userId teamId added).run db = (.ok added', db')) :
    ((db.findTeamMembership teamId userId).isSome ∧ added' = added ∧ db' = db) ∨
      (db.findTeamMembership teamId userId = none ∧ added' = added ++ [teamId] ∧
        db' = { db with
          teamMembers := db.teamMembers ++ [⟨orgId, teamId, userId, true, 0⟩] }) := by
  rw [addOne_run, addMember_run] at h
  by_cases hteam : (db.findTeam teamId).any (·.orgId = orgId) = true
  · rw [if_pos hteam] at h
    cases hfound : db.findTeamMembership teamId userId with
    | some m =>
      rw [hfound, Option.isSome_some, if_pos rfl] at h
      dsimp only at h
      rw [if_pos alreadyMember_conflict] at h
      obtain ⟨hadded, hdb⟩ := Prod.mk.inj h
      exact Or.inl ⟨rfl, (Except.ok.inj hadded).symm, hdb.symm⟩
    | none =>
      rw [hfound, if_neg (by simp), TeamMemberRepository.create, Prog.run_attempt, hfound,
        if_neg (by simp)] at h
      by_cases hforeign : orgId ∉ db.orgs ∨ (db.findTeam teamId).isNone ∨
          (db.findUser userId).isNone
      · rw [if_pos hforeign] at h
        dsimp only at h
        rw [if_neg (by simp [alreadyMember_foreign])] at h
        cases (Prod.mk.inj h).1
      · rw [if_neg hforeign] at h
        obtain ⟨hadded, hdb⟩ := Prod.mk.inj h
        exact Or.inr ⟨rfl, (Except.ok.inj hadded).symm, hdb.symm⟩
  · rw [if_neg hteam] at h
    dsimp only at h
    rw [if_neg (by simp [alreadyMember_missing])] at h
    cases (Prod.mk.inj h).1

theorem addOne_held (hteam : (db.findTeam teamId).any (·.orgId = orgId) = true)
    (hheld : (db.findTeamMembership teamId userId).isSome) :
    (addOne orgId userId teamId added).run db = (.ok added, db) := by
  rw [addOne_run, addMember_run, if_pos hteam, if_pos hheld]
  simp only [alreadyMember_conflict, if_true]

theorem removeMember_ok {u : Unit} {m : TeamMember}
    (hheld : db.findTeamMembership teamId userId = some m) (hexternal : m.external = true)
    (h : (TeamService.removeMember orgId teamId userId true).run db = (.ok u, db')) :
    db' = { db with teamMembers :=
      db.teamMembers.filter fun m => ¬ (m.teamId = teamId ∧ m.userId = userId) } := by
  obtain ⟨team, db₁, hteam, h⟩ := Prog.run_bind_ok h
  rw [findInOrg_run] at hteam
  obtain ⟨-, rfl⟩ := Prod.mk.inj hteam
  rw [if_neg (by simp), Prog.run_bind, Prog.run_read, hheld] at h
  dsimp only at h
  rw [if_neg (by simp [hexternal]), Prog.run_bind, TeamMemberRepository.remove, Prog.run_bind,
    Prog.run_read, hheld] at h
  exact (Prod.mk.inj h).2.symm

end One

/-! ## The loops -/

section Loops

variable {orgId userId : String} {current mapped : List String} {db db' : Db}
  {added added' removed removed' : List String}

theorem findTeamMembership_append {teamId other : String} (hne : other ≠ teamId) :
    ({ db with teamMembers := db.teamMembers ++ [⟨orgId, teamId, userId, true, 0⟩] } :
      Db).findTeamMembership other userId = db.findTeamMembership other userId := by
  rw [Db.findTeamMembership, Db.findTeamMembership, List.find?_append]
  simp [hne.symm]

theorem findTeamMembership_filter {teamId other : String} (hne : other ≠ teamId) :
    ({ db with teamMembers := db.teamMembers.filter fun m =>
      ¬ (m.teamId = teamId ∧ m.userId = userId) } : Db).findTeamMembership other userId =
        db.findTeamMembership other userId := by
  rw [Db.findTeamMembership, Db.findTeamMembership, List.find?_filter]
  refine congrArg (fun p => db.teamMembers.find? p) (funext fun m => ?_)
  by_cases h : m.teamId = other <;> simp [h, hne]

theorem addMapped_ok (hnodup : mapped.Nodup)
    (h : (addMapped orgId userId current mapped added).run db = (.ok added', db')) :
    ∃ new, new.Sublist mapped ∧
      (∀ teamId, teamId ∈ new ↔ teamId ∈ mapped ∧ teamId ∉ current ∧
        db.findTeamMembership teamId userId = none) ∧
      added' = added ++ new ∧ db' = { db with
        teamMembers := db.teamMembers ++ new.map fun teamId => ⟨orgId, teamId, userId, true, 0⟩ } := by
  induction mapped generalizing added db with
  | nil =>
    obtain ⟨hadded, rfl⟩ := Prod.mk.inj h
    exact ⟨[], List.Sublist.refl _, by simp, by simpa using (Except.ok.inj hadded).symm, by simp⟩
  | cons teamId rest ih =>
    obtain ⟨hhead, hrest⟩ := List.nodup_cons.mp hnodup
    rw [addMapped] at h
    split at h
    next hcurrent =>
      obtain ⟨new, hsub, hmem, hadded, hdb⟩ := ih hrest h
      refine ⟨new, hsub.cons _, fun other => ?_, hadded, hdb⟩
      rw [hmem, List.mem_cons]
      constructor
      · exact fun hother => ⟨Or.inr hother.1, hother.2⟩
      · rintro ⟨rfl | hother, hout, hnone⟩
        · exact absurd hcurrent hout
        · exact ⟨hother, hout, hnone⟩
    next hcurrent =>
      obtain ⟨more, db₁, hone, hmore⟩ := Prog.run_bind_ok h
      rcases addOne_ok hone with ⟨hheld, rfl, rfl⟩ | ⟨hnew, rfl, rfl⟩
      · obtain ⟨new, hsub, hmem, hadded, hdb⟩ := ih hrest hmore
        refine ⟨new, hsub.cons _, fun other => ?_, hadded, hdb⟩
        rw [hmem, List.mem_cons]
        constructor
        · exact fun hother => ⟨Or.inr hother.1, hother.2⟩
        · rintro ⟨rfl | hother, hout, hnone⟩
          · rw [hnone] at hheld
            cases hheld
          · exact ⟨hother, hout, hnone⟩
      · obtain ⟨new, hsub, hmem, hadded, hdb⟩ := ih hrest hmore
        refine ⟨teamId :: new, hsub.cons_cons _, fun other => ?_, by simp [hadded],
          by simp [hdb]⟩
        rw [List.mem_cons, List.mem_cons, hmem]
        constructor
        · rintro (rfl | ⟨hother, hout, hnone⟩)
          · exact ⟨Or.inl rfl, hcurrent, hnew⟩
          · have hne : other ≠ teamId := fun heq => hhead (heq ▸ hother)
            rw [findTeamMembership_append hne] at hnone
            exact ⟨Or.inr hother, hout, hnone⟩
        · rintro ⟨rfl | hother, hout, hnone⟩
          · exact Or.inl rfl
          · have hne : other ≠ teamId := fun heq => hhead (heq ▸ hother)
            exact Or.inr ⟨hother, hout, by rw [findTeamMembership_append hne]; exact hnone⟩

theorem removeUnmapped_ok (hnodup : current.Nodup)
    (hheld : ∀ teamId ∈ current, ∃ m, db.findTeamMembership teamId userId = some m ∧
      m.external = true)
    (h : (removeUnmapped orgId userId mapped current removed).run db = (.ok removed', db')) :
    db' = { db with teamMembers := db.teamMembers.filter fun m =>
      ¬ (m.userId = userId ∧ m.teamId ∈ current ∧ m.teamId ∉ mapped) } := by
  induction current generalizing removed db with
  | nil =>
    obtain ⟨-, rfl⟩ := Prod.mk.inj h
    simp
  | cons teamId rest ih =>
    obtain ⟨hhead, hrest⟩ := List.nodup_cons.mp hnodup
    rw [removeUnmapped] at h
    split at h
    next hmapped =>
      rw [ih hrest (fun other hother => hheld other (List.mem_cons_of_mem _ hother)) h]
      congr 1
      refine List.filter_congr fun m _ => ?_
      by_cases hm : m.teamId = teamId <;> simp [hm, hmapped]
    next hmapped =>
      obtain ⟨u, db₁, hremove, h⟩ := Prog.run_bind_ok h
      obtain ⟨m, hm, hexternal⟩ := hheld teamId List.mem_cons_self
      obtain rfl := removeMember_ok hm hexternal hremove
      rw [ih hrest (fun other hother => ?_) h]
      · congr 1
        rw [List.filter_filter]
        refine List.filter_congr fun m _ => ?_
        by_cases hteam : m.teamId = teamId <;> simp [hteam, hmapped, hhead]
      · have hne : other ≠ teamId := fun heq => hhead (heq ▸ hother)
        rw [findTeamMembership_filter hne]
        exact hheld other (List.mem_cons_of_mem _ hother)

theorem addMapped_still (h : ∀ teamId ∈ mapped, teamId ∈ current ∨
    ((db.findTeam teamId).any (·.orgId = orgId) = true ∧
      (db.findTeamMembership teamId userId).isSome)) :
    (addMapped orgId userId current mapped added).run db = (.ok added, db) := by
  induction mapped with
  | nil => rfl
  | cons teamId rest ih =>
    have hrest := ih fun other hother => h other (List.mem_cons_of_mem _ hother)
    rw [addMapped]
    split
    · exact hrest
    next hcurrent =>
      obtain ⟨hteam, hheld⟩ := (h teamId List.mem_cons_self).resolve_left hcurrent
      rw [Prog.run_bind, addOne_held hteam hheld]
      exact hrest

theorem removeUnmapped_still (h : ∀ teamId ∈ current, teamId ∈ mapped) :
    (removeUnmapped orgId userId mapped current removed).run db = (.ok removed, db) := by
  induction current with
  | nil => rfl
  | cons teamId rest ih =>
    rw [removeUnmapped, if_pos (h teamId List.mem_cons_self)]
    exact ih fun other hother => h other (List.mem_cons_of_mem _ hother)

end Loops

/-! ## The rows -/

section Rows

variable {teamName : String → String} {input : TeamSyncInput} {db db' : Db} {teamId : String}
  {m : TeamMember}

theorem findTeamMembership_of_mem (h : WellFormed teamName db) (hm : m ∈ db.teamMembers) :
    db.findTeamMembership m.teamId m.userId = some m := by
  cases hfound : db.findTeamMembership m.teamId m.userId with
  | none =>
    have hno := List.find?_eq_none.mp hfound m hm
    simp at hno
  | some other =>
    have hprop := List.find?_some hfound
    rw [decide_eq_true_iff] at hprop
    have hsame := List.inj_on_of_nodup_map h.member_pairs (List.mem_of_find?_eq_some hfound) hm
      (by rw [hprop.1, hprop.2])
    rw [hsame]

theorem mem_of_findTeamMembership {userId : String}
    (h : db.findTeamMembership teamId userId = some m) :
    m ∈ db.teamMembers ∧ m.teamId = teamId ∧ m.userId = userId := by
  have hprop := List.find?_some h
  rw [decide_eq_true_iff] at hprop
  exact ⟨List.mem_of_find?_eq_some h, hprop⟩

theorem mem_currentExternal (horg : input.orgId ≠ "") :
    teamId ∈ currentExternal input db ↔ InTeam input true db teamId := by
  rw [currentExternal, List.mem_eraseDups, List.mem_map]
  constructor
  · rintro ⟨m, hm, rfl⟩
    obtain ⟨hlisted, hexternal⟩ := List.mem_filter.mp hm
    obtain ⟨hmem, hprop⟩ := List.mem_filter.mp hlisted
    rw [decide_eq_true_iff] at hprop
    exact ⟨m, hmem, hprop.1, hprop.2.resolve_left horg, hexternal, rfl⟩
  · rintro ⟨m, hm, huser, hmorg, hexternal, rfl⟩
    refine ⟨m, List.mem_filter.mpr ⟨List.mem_filter.mpr ⟨hm, ?_⟩, hexternal⟩, rfl⟩
    exact decide_eq_true ⟨huser, Or.inr hmorg⟩

theorem InTeam.disjoint (h : WellFormed teamName db) (hin : InTeam input true db teamId) :
    ¬ InTeam input false db teamId := by
  rintro ⟨m', hm', huser', -, hexternal', rfl⟩
  obtain ⟨m, hm, huser, -, hexternal, hteam⟩ := hin
  have hsame := findTeamMembership_of_mem h hm
  rw [hteam, huser, ← huser', findTeamMembership_of_mem h hm'] at hsame
  rw [Option.some.inj hsame, hexternal] at hexternal'
  cases hexternal'

theorem findTeam_of_named (h : WellFormed teamName db) (hnamed : Named teamName input db teamId) :
    ∃ team, db.findTeam teamId = some team ∧ team ∈ db.teams ∧ team.id = teamId ∧
      team.orgId = input.orgId := by
  obtain ⟨team, hmem, rfl, horg, -⟩ := hnamed
  cases hfound : db.findTeam team.id with
  | none =>
    have hno := List.find?_eq_none.mp hfound team hmem
    simp at hno
  | some other =>
    have hid := List.find?_some hfound
    have hsame := List.inj_on_of_nodup_map h.team_ids (List.mem_of_find?_eq_some hfound) hmem
      (by simpa using hid)
    exact ⟨other, rfl, by rw [hsame]; exact hmem, by rw [hsame], by rw [hsame]; exact horg⟩

theorem inTeam_of_membership (h : WellFormed teamName db)
    (hnamed : Named teamName input db teamId)
    (hm : db.findTeamMembership teamId input.userId = some m) :
    InTeam input m.external db teamId := by
  obtain ⟨team, -, hteam, hid, horg⟩ := findTeam_of_named h hnamed
  obtain ⟨hmem, hmteam, huser⟩ := mem_of_findTeamMembership hm
  have hmorg := h.member_org m hmem team hteam (hid.trans hmteam.symm)
  exact ⟨m, hmem, huser, hmorg.trans horg, rfl, hmteam⟩

theorem resolveGroups_named (input : TeamSyncInput) (h : WellFormed teamName db) :
    ∃ mapped skipped,
    (resolveGroups teamName input.orgId input.externalGroups [] []).run db =
      (.ok (mapped, skipped), db) ∧ mapped.Nodup ∧
    ∀ teamId, teamId ∈ mapped ↔ Named teamName input db teamId := by
  obtain ⟨mapped, skipped, hrun, hnodup, hmem⟩ :=
    resolveGroups_run teamName input.orgId input.externalGroups db [] []
  refine ⟨mapped, skipped, hrun, hnodup List.nodup_nil, fun teamId => ?_⟩
  rw [hmem, Named]
  constructor
  · rintro (hno | ⟨group, hgroup, hblank, team, hfound, hexternal, hid⟩)
    · exact absurd hno List.not_mem_nil
    · obtain ⟨hteam, horg, hname⟩ := (findByName_eq_some_iff h).mp hfound
      exact ⟨team, hteam, hid, horg, hexternal, group, hgroup, hblank, hname⟩
  · rintro ⟨team, hteam, hid, horg, hexternal, group, hgroup, hblank, hname⟩
    exact Or.inr ⟨group, hgroup, hblank, team,
      (findByName_eq_some_iff h).mpr ⟨hteam, horg, hname⟩, hexternal, hid⟩

end Rows

/-! ## The sync -/

section Sync

variable {teamName : String → String} {input : TeamSyncInput} {db db' : Db}
  {result : TeamSyncResult} {mapped new : List String}

def newRow (input : TeamSyncInput) (teamId : String) : TeamMember :=
  ⟨input.orgId, teamId, input.userId, true, 0⟩

/-- The rows after a sync that added `new`. -/
def rowsAfter (input : TeamSyncInput) (mapped new : List String) (db : Db) : List TeamMember :=
  (db.teamMembers ++ new.map (newRow input)).filter fun m =>
    ¬ (m.userId = input.userId ∧ m.teamId ∈ currentExternal input db ∧ m.teamId ∉ mapped)

theorem syncTeams_ok (h : WellFormed teamName db)
    (hids : ¬ (input.userId = "" ∨ input.orgId = ""))
    (hrun : (syncTeams teamName input).run db = (.ok result, db')) :
    ∃ mapped new, (resolveGroups teamName input.orgId input.externalGroups [] []).run db =
        (.ok (mapped, result.skipped), db) ∧
      (∀ teamId, teamId ∈ mapped ↔ Named teamName input db teamId) ∧ new.Nodup ∧
      (∀ teamId, teamId ∈ new ↔ teamId ∈ mapped ∧ teamId ∉ currentExternal input db ∧
        db.findTeamMembership teamId input.userId = none) ∧
      db' = { db with teamMembers := rowsAfter input mapped new db } := by
  rw [not_or] at hids
  obtain ⟨mapped, skipped, hresolve, hnodup, hnamed⟩ := resolveGroups_named input h
  rw [syncTeams, if_neg (not_or.mpr hids), Prog.run_bind, hresolve] at hrun
  dsimp only at hrun
  rw [Prog.run_bind, Prog.run_read] at hrun
  obtain ⟨added, db₁, hadd, hrun⟩ := Prog.run_bind_ok hrun
  obtain ⟨removed, db₂, hremove, hrun⟩ := Prog.run_bind_ok hrun
  obtain ⟨hresult, rfl⟩ := Prod.mk.inj hrun
  obtain rfl := Except.ok.inj hresult
  obtain ⟨new, hsub, hmem, -, rfl⟩ := addMapped_ok hnodup hadd
  have hheld : ∀ teamId ∈ currentExternal input db, ∃ m, ({ db with
      teamMembers := db.teamMembers ++ new.map fun teamId =>
        ⟨input.orgId, teamId, input.userId, true, 0⟩ } : Db).findTeamMembership teamId
          input.userId = some m ∧ m.external = true := by
    intro teamId hcurrent
    obtain ⟨m, hm, huser, -, hexternal, rfl⟩ := (mem_currentExternal hids.2).mp hcurrent
    have hfound := findTeamMembership_of_mem h hm
    rw [huser] at hfound
    refine ⟨m, ?_, hexternal⟩
    rw [Db.findTeamMembership, List.find?_append, ← Db.findTeamMembership, hfound]
    rfl
  exact ⟨mapped, new, hresolve, hnamed, hsub.nodup hnodup, hmem,
    removeUnmapped_ok (nodup_eraseDups _) hheld hremove⟩

theorem mem_rowsAfter (m : TeamMember) : m ∈ rowsAfter input mapped new db ↔
    (m ∈ db.teamMembers ∨ ∃ teamId ∈ new, newRow input teamId = m) ∧
      ¬ (m.userId = input.userId ∧ m.teamId ∈ currentExternal input db ∧ m.teamId ∉ mapped) := by
  rw [rowsAfter, List.mem_filter, List.mem_append, List.mem_map, decide_eq_true_iff]

structure Plan (teamName : String → String) (input : TeamSyncInput) (db : Db)
    (mapped new : List String) : Prop where
  wf : WellFormed teamName db
  org : input.orgId ≠ ""
  named : ∀ teamId, teamId ∈ mapped ↔ Named teamName input db teamId
  nodup : new.Nodup
  new_iff : ∀ teamId, teamId ∈ new ↔ teamId ∈ mapped ∧ teamId ∉ currentExternal input db ∧
    db.findTeamMembership teamId input.userId = none

theorem Plan.target (p : Plan teamName input db mapped new) (teamId : String) :
    InTeam input true { db with teamMembers := rowsAfter input mapped new db } teamId ↔
      Named teamName input db teamId ∧ ¬ InTeam input false db teamId := by
  constructor
  · rintro ⟨m, hm, huser, horg, hexternal, rfl⟩
    obtain ⟨hfrom, hkept⟩ := (mem_rowsAfter m).mp hm
    rcases hfrom with hold | ⟨teamId, hnew, rfl⟩
    · have hin : InTeam input true db m.teamId := ⟨m, hold, huser, horg, hexternal, rfl⟩
      refine ⟨(p.named _).mp ?_, hin.disjoint p.wf⟩
      by_contra hno
      exact hkept ⟨huser, (mem_currentExternal p.org).mpr hin, hno⟩
    · obtain ⟨hmapped, -, hnone⟩ := (p.new_iff teamId).mp hnew
      refine ⟨(p.named _).mp hmapped, ?_⟩
      rintro ⟨m, hm, huser', -, -, hteam⟩
      have hfound := findTeamMembership_of_mem p.wf hm
      rw [hteam, huser'] at hfound
      exact absurd (hfound.symm.trans hnone) (Option.some_ne_none m)
  · rintro ⟨hnamed, hmanual⟩
    have hmapped := (p.named teamId).mpr hnamed
    by_cases hcurrent : teamId ∈ currentExternal input db
    · obtain ⟨m, hm, huser, horg, hexternal, rfl⟩ := (mem_currentExternal p.org).mp hcurrent
      exact ⟨m, (mem_rowsAfter m).mpr ⟨Or.inl hm, fun h => h.2.2 hmapped⟩, huser, horg,
        hexternal, rfl⟩
    · have hnone : db.findTeamMembership teamId input.userId = none := by
        cases hfound : db.findTeamMembership teamId input.userId with
        | none => rfl
        | some m =>
          have hin := inTeam_of_membership p.wf hnamed hfound
          cases hexternal : m.external with
          | true =>
            rw [hexternal] at hin
            exact absurd ((mem_currentExternal p.org).mpr hin) hcurrent
          | false =>
            rw [hexternal] at hin
            exact absurd hin hmanual
      have hnew := (p.new_iff teamId).mpr ⟨hmapped, hcurrent, hnone⟩
      exact ⟨newRow input teamId, (mem_rowsAfter _).mpr
        ⟨Or.inr ⟨teamId, hnew, rfl⟩, fun h => h.2.2 hmapped⟩, rfl, rfl, rfl, rfl⟩

theorem Plan.others (p : Plan teamName input db mapped new) :
    (rowsAfter input mapped new db).filter (!IsTarget input ·) =
      db.teamMembers.filter (!IsTarget input ·) := by
  have hnew : (new.map (newRow input)).filter (!IsTarget input ·) = [] := by
    refine List.filter_eq_nil_iff.mpr fun m hm => ?_
    obtain ⟨teamId, -, rfl⟩ := List.mem_map.mp hm
    simp [IsTarget, newRow]
  rw [rowsAfter, List.filter_filter, ← List.append_nil (db.teamMembers.filter _), ← hnew,
    ← List.filter_append]
  refine List.filter_congr fun m hm => ?_
  rcases List.mem_append.mp hm with hold | hadded
  · -- a row of the user in one of their external teams is the external one
    have hexternal : m.userId = input.userId ∧ m.teamId ∈ currentExternal input db →
        IsTarget input m = true := by
      rintro ⟨huser, hcurrent⟩
      obtain ⟨m', hm', huser', horg', hexternal', hteam⟩ :=
        (mem_currentExternal p.org).mp hcurrent
      have hsame := findTeamMembership_of_mem p.wf hm'
      rw [hteam, huser', ← huser, findTeamMembership_of_mem p.wf hold] at hsame
      rw [Option.some.inj hsame]
      exact decide_eq_true ⟨huser', horg', hexternal'⟩
    by_cases hmine : m.userId = input.userId ∧ m.teamId ∈ currentExternal input db
    · simp [hexternal hmine]
    · have hkept : ¬ (m.userId = input.userId ∧ m.teamId ∈ currentExternal input db ∧
          m.teamId ∉ mapped) := fun h => hmine ⟨h.1, h.2.1⟩
      simp only [decide_eq_true hkept, Bool.and_true]
  · obtain ⟨teamId, -, rfl⟩ := List.mem_map.mp hadded
    simp [IsTarget, newRow]

theorem Plan.kept (p : Plan teamName input db mapped new) :
    WellFormed teamName { db with teamMembers := rowsAfter input mapped new db } where
  team_ids := p.wf.team_ids
  team_names := p.wf.team_names
  member_pairs := by
    refine List.Nodup.sublist (List.filter_sublist.map _) ?_
    rw [List.map_append, List.map_map]
    refine List.nodup_append.mpr ⟨p.wf.member_pairs, ?_, ?_⟩
    · exact List.Nodup.map (fun x y h => (Prod.mk.inj h).1) p.nodup
    · intro a ha b hb heq
      obtain ⟨m, hm, rfl⟩ := List.mem_map.mp ha
      obtain ⟨teamId, hnew, rfl⟩ := List.mem_map.mp hb
      obtain ⟨hteam, huser⟩ := Prod.mk.inj heq
      have hfound := findTeamMembership_of_mem p.wf hm
      rw [hteam, huser] at hfound
      exact absurd (hfound.symm.trans ((p.new_iff teamId).mp hnew).2.2) (Option.some_ne_none m)
  member_org := by
    intro m hm team hteam hid
    rcases ((mem_rowsAfter m).mp hm).1 with hold | ⟨teamId, hnew, rfl⟩
    · exact p.wf.member_org m hold team hteam hid
    · obtain ⟨found, hfound, hname, horg, -⟩ :=
        (p.named teamId).mp ((p.new_iff teamId).mp hnew).1
      have hsame := List.inj_on_of_nodup_map p.wf.team_ids hteam hfound (hid.trans hname.symm)
      rw [hsame, horg]
      rfl

theorem Plan.again (p : Plan teamName input db mapped new) {skipped : List String}
    (huser : input.userId ≠ "")
    (hresolve : (resolveGroups teamName input.orgId input.externalGroups [] []).run db =
      (.ok (mapped, skipped), db)) :
    (syncTeams teamName input).run { db with teamMembers := rowsAfter input mapped new db } =
      (.ok ⟨[], [], skipped⟩, { db with teamMembers := rowsAfter input mapped new db }) := by
  have hcurrent : ∀ teamId, teamId ∈ currentExternal input
      { db with teamMembers := rowsAfter input mapped new db } ↔
        Named teamName input db teamId ∧ ¬ InTeam input false db teamId := fun teamId =>
    (mem_currentExternal p.org).trans (p.target teamId)
  have hresolved : (resolveGroups teamName input.orgId input.externalGroups [] []).run
      { db with teamMembers := rowsAfter input mapped new db } =
        (.ok (mapped, skipped), { db with teamMembers := rowsAfter input mapped new db }) := by
    rw [resolveGroups_congr db { db with teamMembers := rowsAfter input mapped new db } rfl,
      hresolve]
  rw [syncTeams, if_neg (not_or.mpr ⟨huser, p.org⟩), Prog.run_bind, hresolved]
  dsimp only
  rw [Prog.run_bind, Prog.run_read]
  dsimp only
  rw [Prog.run_bind, addMapped_still]
  · dsimp only
    rw [Prog.run_bind, removeUnmapped_still fun teamId h =>
      (p.named teamId).mpr ((hcurrent teamId).mp h).1]
    rfl
  · intro teamId hmapped
    have hnamed := (p.named teamId).mp hmapped
    by_cases hmanual : InTeam input false db teamId
    · -- the user holds the membership manually, and keeps it
      right
      obtain ⟨team, hteam, -, -, horg⟩ := findTeam_of_named p.wf hnamed
      refine ⟨?_, ?_⟩
      · change (db.findTeam teamId).any _ = true
        rw [hteam]
        simp [horg]
      · obtain ⟨m, hm, huser', -, -, rfl⟩ := hmanual
        have hrow : m ∈ rowsAfter input mapped new db :=
          (mem_rowsAfter m).mpr ⟨Or.inl hm, fun h => h.2.2 hmapped⟩
        have hfound := findTeamMembership_of_mem p.kept hrow
        rw [← huser', hfound]
        rfl
    · exact Or.inl ((hcurrent teamId).mpr ⟨hnamed, hmanual⟩)

end Sync

/-- **A sync that completes reaches its target**, leaves every other membership where it is,
and finds nothing to do the next time. -/
theorem sync_reaches_target (teamName : String → String) (input : TeamSyncInput) (db db' : Db)
    (result : TeamSyncResult) (h : WellFormed teamName db)
    (hrun : (syncTeams teamName input).run db = (.ok result, db')) :
    Synced teamName input db db' result := by
  by_cases hids : input.userId = "" ∨ input.orgId = ""
  · have hstill : (syncTeams teamName input).run db = (.ok ⟨[], [], []⟩, db) := by
      rw [syncTeams, if_pos hids]
      rfl
    rw [hstill] at hrun
    obtain ⟨hresult, rfl⟩ := Prod.mk.inj hrun
    obtain rfl := Except.ok.inj hresult
    exact ⟨fun huser horg => absurd hids (not_or.mpr ⟨huser, horg⟩), rfl, rfl, hstill, h⟩
  · obtain ⟨mapped, new, hresolve, hnamed, hnodup, hnew, rfl⟩ := syncTeams_ok h hids hrun
    rw [not_or] at hids
    have p : Plan teamName input db mapped new := ⟨h, hids.2, hnamed, hnodup, hnew⟩
    exact ⟨fun _ _ => p.target, p.others, rfl, p.again hids.1 hresolve, p.kept⟩

/-- `u` is in `dev` by an earlier sync and in `qa` by hand. -/
def teamsDb : Db :=
  { orgs := ["org"]
    users := [⟨"u", "u", "u@example", "org", false, false, false⟩]
    teams := [⟨"dev", "org", true⟩, ⟨"qa", "org", true⟩, ⟨"ops", "org", true⟩]
    teamMembers := [⟨"org", "dev", "u", true, 0⟩, ⟨"org", "qa", "u", false, 4⟩] }

/-- The provider now reports `ops` and `qa`, and a group that names no team. -/
def ofProvider : TeamSyncInput := ⟨"u", "org", [" ops", "qa", "gone"]⟩

theorem sync_reaches_target_ops :
    Synced id ofProvider teamsDb ((syncTeams id ofProvider).run teamsDb).2
        ⟨["ops"], ["dev"], ["gone"]⟩ ∧
      ((syncTeams id ofProvider).run teamsDb).2.teamMembers =
        [⟨"org", "qa", "u", false, 4⟩, ⟨"org", "ops", "u", true, 0⟩] :=
  ⟨sync_reaches_target id ofProvider teamsDb _ _
    { team_ids := by decide
      team_names := by decide
      member_pairs := by decide
      member_org := by decide }
    (Prod.fst_eq_iff.mp (by decide +kernel)), by decide +kernel⟩

/-! ## Requests and syncs in any order -/

/-- `TeamService.delete`; the memberships and the roles of a team go with its row. -/
def deleteTeam (orgId teamId : String) : Prog Db Unit := do
  let _ ← TeamService.findInOrg orgId teamId
  Prog.write fun db => { db with
    dashboardAcl := db.dashboardAcl.filter fun row => row.teamId ≠ some teamId }
  match ← Prog.read (·.findTeam teamId) with
  | none => return ()
  | some _ =>
    Prog.write fun db => { db with
      teams := db.teams.filter (·.id ≠ teamId)
      teamMembers := db.teamMembers.filter (·.teamId ≠ teamId)
      teamRoles := db.teamRoles.filter (·.teamId ≠ teamId) }

inductive TeamOp : Type where
  | addMember (orgId teamId userId : String) (permission : ℕ)
  | updateMember (orgId teamId userId : String) (permission : ℕ)
  | removeMember (orgId teamId userId : String)
  | delete (orgId teamId : String)
  | sync (input : TeamSyncInput)

/-- The routes never mark a membership external. -/
def TeamOp.code (teamName : String → String) : TeamOp → Prog Db Unit
  | .addMember orgId teamId userId permission => do
    let _ ← TeamService.addMember orgId teamId userId permission false
  | .updateMember orgId teamId userId permission => do
    let _ ← TeamService.updateMember orgId teamId userId permission
  | .removeMember orgId teamId userId => TeamService.removeMember orgId teamId userId false
  | .delete orgId teamId => deleteTeam orgId teamId
  | .sync input => do
    let _ ← syncTeams teamName input

def IsMembership (orgId teamId userId : String) (external : Bool) (m : TeamMember) : Prop :=
  m.orgId = orgId ∧ m.teamId = teamId ∧ m.userId = userId ∧ m.external = external

/-- The memberships an operation is about: a request about none that is external, a sync about
external ones of its user only. -/
def TeamOp.Concerns (m : TeamMember) : TeamOp → Prop
  | .addMember orgId teamId userId _ => IsMembership orgId teamId userId false m
  | .updateMember orgId teamId userId _ => IsMembership orgId teamId userId false m
  | .removeMember orgId teamId userId => IsMembership orgId teamId userId false m
  | .delete orgId teamId => m.orgId = orgId ∧ m.teamId = teamId
  | .sync input => IsTarget input m = true

/-- A membership is in its team's org, external where its team is, and the only one of its user. -/
structure Placed (db : Db) : Prop where
  team_ids : (db.teams.map (·.id)).Nodup
  member_pairs : (db.teamMembers.map fun m => (m.teamId, m.userId)).Nodup
  member_team : ∀ m ∈ db.teamMembers, ∃ t ∈ db.teams,
    t.id = m.teamId ∧ t.orgId = m.orgId ∧ t.external = m.external

def Rely (db db' : Db) : Prop := db'.teams.Sublist db.teams ∧ (Placed db → Placed db')

/-- What a section does, to memberships in `C` only. -/
def Guarantee (C : TeamMember → Prop) (db db' : Db) : Prop :=
  Rely db db' ∧ (Placed db → ∀ m, ¬ C m → (m ∈ db'.teamMembers ↔ m ∈ db.teamMembers))

def Keeps {α : Type} (C : TeamMember → Prop) (p : Prog Db α) (db : Db) : Prop :=
  p.Holds Rely (Guarantee C) (fun _ _ => True) db

/-- A team with this id is in the org, and marked so. -/
def TeamIs (teamId orgId : String) (external : Bool) (db : Db) : Prop :=
  ∀ t ∈ db.teams, t.id = teamId → t.orgId = orgId ∧ t.external = external

def AllExternal (teamIds : List String) (db : Db) : Prop :=
  ∀ t ∈ db.teams, t.id ∈ teamIds → t.external = true

section Sections

variable {C : TeamMember → Prop} {db db' : Db} {orgId teamId userId : String} {external : Bool}
  {permission : ℕ} {m : TeamMember} {teamIds : List String}

theorem Rely.refl (db : Db) : Rely db db := ⟨List.Sublist.refl _, id⟩

theorem Rely.trans {db'' : Db} (h : Rely db db') (h' : Rely db' db'') : Rely db db'' :=
  ⟨h'.1.trans h.1, fun hdb => h'.2 (h.2 hdb)⟩

theorem Guarantee.refl (C : TeamMember → Prop) (db : Db) : Guarantee C db db :=
  ⟨Rely.refl db, fun _ _ _ => Iff.rfl⟩

theorem TeamIs.later (h : TeamIs teamId orgId external db) (hrely : Rely db db') :
    TeamIs teamId orgId external db' := fun t ht => h t (hrely.1.subset ht)

theorem AllExternal.later (h : AllExternal teamIds db) (hrely : Rely db db') :
    AllExternal teamIds db' := fun t ht => h t (hrely.1.subset ht)

theorem Placed.team_eq (h : Placed db) {team t : Team} (hteam : team ∈ db.teams)
    (ht : t ∈ db.teams) (hid : t.id = team.id) : t = team :=
  List.inj_on_of_nodup_map h.team_ids ht hteam hid

theorem Placed.isMembership (h : Placed db) (hteam : TeamIs teamId orgId external db)
    (hm : m ∈ db.teamMembers) (hid : m.teamId = teamId) (huser : m.userId = userId) :
    IsMembership orgId teamId userId external m := by
  obtain ⟨t, ht, htid, horg, hext⟩ := h.member_team m hm
  obtain ⟨horg', hext'⟩ := hteam t ht (htid.trans hid)
  exact ⟨horg.symm.trans horg', hid, huser, hext.symm.trans hext'⟩

theorem Placed.insert (h : Placed db) (hteam : TeamIs teamId orgId external db)
    (hthere : (db.findTeam teamId).isSome = true) (hnone : db.findTeamMembership teamId userId = none)
    (hC : C ⟨orgId, teamId, userId, external, permission⟩) : Guarantee C db { db with
      teamMembers := db.teamMembers ++ [⟨orgId, teamId, userId, external, permission⟩] } := by
  refine ⟨⟨List.Sublist.refl _, fun _ => ⟨h.team_ids, ?_, ?_⟩⟩, fun _ m hm => ?_⟩
  · rw [List.map_append]
    refine List.nodup_append.mpr ⟨h.member_pairs, by simp, ?_⟩
    rintro a ha b hb rfl
    obtain ⟨m, hm, rfl⟩ := List.mem_map.mp ha
    have hpair := Prod.mk.inj (List.mem_singleton.mp hb)
    exact List.find?_eq_none.mp hnone m hm (by simp [hpair])
  · intro m hm
    rcases List.mem_append.mp hm with hold | hnew
    · exact h.member_team m hold
    · obtain rfl := List.mem_singleton.mp hnew
      obtain ⟨team, hfind⟩ := Option.isSome_iff_exists.mp hthere
      have hmem := List.mem_of_find?_eq_some hfind
      have hid : team.id = teamId := by simpa using List.find?_some hfind
      exact ⟨team, hmem, hid, hteam team hmem hid⟩
  · rw [List.mem_append, or_iff_left]
    intro hnew
    rw [List.mem_singleton.mp hnew] at hm
    exact hm hC

theorem Placed.update (h : Placed db) (hteam : TeamIs teamId orgId external db)
    (hC : ∀ m, IsMembership orgId teamId userId external m → C m) : Guarantee C db { db with
      teamMembers := db.teamMembers.map fun m =>
        if m.teamId = teamId ∧ m.userId = userId then { m with permission } else m } := by
  refine ⟨⟨List.Sublist.refl _, fun _ => ⟨h.team_ids, ?_, ?_⟩⟩, fun _ m hm => ?_⟩
  · have hpairs : ((fun m : TeamMember => (m.teamId, m.userId)) ∘ fun m =>
        if m.teamId = teamId ∧ m.userId = userId then { m with permission } else m) =
          fun m => (m.teamId, m.userId) := by
      funext m
      by_cases hm : m.teamId = teamId ∧ m.userId = userId <;> simp [hm]
    rw [List.map_map, hpairs]
    exact h.member_pairs
  · intro m hm
    obtain ⟨m', hm', rfl⟩ := List.mem_map.mp hm
    split
    · exact h.member_team m' hm'
    · exact h.member_team m' hm'
  · rw [List.mem_map]
    constructor
    · rintro ⟨m', hm', rfl⟩
      split at hm
      next hpair =>
        have hrow := h.isMembership hteam hm' hpair.1 hpair.2
        exact (hm (hC _ ⟨hrow.1, hrow.2⟩)).elim
      next hpair => rwa [if_neg hpair]
    · intro hmem
      refine ⟨m, hmem, if_neg fun hpair => hm (hC m ?_)⟩
      exact h.isMembership hteam hmem hpair.1 hpair.2

theorem Placed.remove (h : Placed db) (hteam : TeamIs teamId orgId external db)
    (hC : ∀ m, IsMembership orgId teamId userId external m → C m) : Guarantee C db { db with
      teamMembers := db.teamMembers.filter fun m => ¬ (m.teamId = teamId ∧ m.userId = userId) } := by
  refine ⟨⟨List.Sublist.refl _, fun _ => ⟨h.team_ids, ?_, ?_⟩⟩, fun _ m hm => ?_⟩
  · exact h.member_pairs.sublist (List.filter_sublist.map _)
  · exact fun m hm => h.member_team m (List.mem_of_mem_filter hm)
  · rw [List.mem_filter, and_iff_left_iff_imp, decide_eq_true_eq]
    exact fun hmem hpair => hm (hC m (h.isMembership hteam hmem hpair.1 hpair.2))

theorem Placed.delete (h : Placed db) (hteam : TeamIs teamId orgId external db)
    (hC : ∀ m, m.orgId = orgId ∧ m.teamId = teamId → C m) : Guarantee C db { db with
      teams := db.teams.filter (·.id ≠ teamId)
      teamMembers := db.teamMembers.filter (·.teamId ≠ teamId)
      teamRoles := db.teamRoles.filter (·.teamId ≠ teamId) } := by
  refine ⟨⟨List.filter_sublist, fun _ => ⟨?_, ?_, fun m hm => ?_⟩⟩, fun _ m hm => ?_⟩
  · exact h.team_ids.sublist (List.filter_sublist.map _)
  · exact h.member_pairs.sublist (List.filter_sublist.map _)
  · obtain ⟨hmem, hne⟩ := List.mem_filter.mp hm
    obtain ⟨t, ht, htid, hrest⟩ := h.member_team m hmem
    exact ⟨t, List.mem_filter.mpr ⟨ht, by rw [htid]; exact hne⟩, htid, hrest⟩
  · rw [List.mem_filter, and_iff_left_iff_imp, decide_eq_true_eq]
    exact fun hmem hid => hm (hC m ⟨(h.isMembership hteam hmem hid rfl).1, hid⟩)

/-! ### The calls -/

theorem holds_findInOrg {α : Type} {k : Team → Prog Db α} (h : Placed db)
    (hk : ∀ t team, Rely db t → t.findTeam teamId = some team →
      TeamIs teamId orgId team.external t →
        Keeps C (k team) t) : Keeps C (TeamService.findInOrg orgId teamId >>= k) db := by
  refine Prog.Holds.bind ?_
  unfold TeamService.findInOrg
  refine Prog.holds_read_bind.mpr fun t ht => ⟨Guarantee.refl C t, ?_⟩
  cases hfind : t.findTeam teamId with
  | none => trivial
  | some team =>
    have hmem := List.mem_of_find?_eq_some hfind
    have hid : team.id = teamId := by simpa using List.find?_some hfind
    dsimp only
    split
    next horg =>
      refine hk t team ht hfind fun t' ht' hid' => ?_
      rw [(ht.2 h).team_eq hmem ht' (hid'.trans hid.symm)]
      exact ⟨horg, rfl⟩
    · trivial

theorem holds_addMember (h : Placed db) (hext : external = true → AllExternal [teamId] db)
    (hC : C ⟨orgId, teamId, userId, external, permission⟩) :
    Keeps C (TeamService.addMember orgId teamId userId permission external) db := by
  unfold TeamService.addMember
  split
  · refine holds_findInOrg h fun t team ht hfind hteam => ?_
    split
    · trivial
    next hopen =>
      have hmark : team.external = external := by
        cases external with
        | false => simpa using hopen
        | true =>
          refine (hext rfl).later ht team (List.mem_of_find?_eq_some hfind) ?_
          simpa using List.find?_some hfind
      rw [hmark] at hteam
      refine Prog.holds_read_bind.mpr fun u hu => ⟨Guarantee.refl C u, ?_⟩
      cases u.findTeamMembership teamId userId with
      | some _ => trivial
      | none =>
        refine Prog.holds_attempt.mpr fun v hv => ⟨?_, trivial⟩
        dsimp only
        split
        · exact Guarantee.refl C v
        next hnone =>
          split
          · exact Guarantee.refl C v
          next hkeys =>
            rw [Bool.not_eq_true, Option.isSome_eq_false_iff, Option.isNone_iff_eq_none] at hnone
            simp only [not_or, Bool.not_eq_true, Option.isNone_eq_false_iff] at hkeys
            exact (hv.2 (hu.2 (ht.2 h))).insert ((hteam.later hu).later hv) hkeys.2.1 hnone hC
  · trivial

theorem holds_updateMember (h : Placed db)
    (hC : ∀ m, IsMembership orgId teamId userId false m → C m) :
    Keeps C (TeamService.updateMember orgId teamId userId permission) db := by
  unfold TeamService.updateMember
  split
  · refine holds_findInOrg h fun t team ht hfind hteam => ?_
    split
    · trivial
    next hopen =>
      rw [Bool.not_eq_true] at hopen
      rw [hopen] at hteam
      have hupdate : Keeps C (TeamMemberRepository.updatePermission teamId userId permission) t := by
        refine Prog.holds_read_bind.mpr fun u hu => ⟨Guarantee.refl C u, ?_⟩
        cases u.findTeamMembership teamId userId with
        | none => trivial
        | some _ =>
          refine Prog.holds_atomic.mpr fun v hv => ⟨?_, trivial⟩
          exact (hv.2 (hu.2 (ht.2 h))).update ((hteam.later hu).later hv) hC
      refine hupdate.bind_any fun updated u => ?_
      cases updated <;> trivial
  · trivial

theorem holds_removeMember (h : Placed db)
    (hC : ∀ m, IsMembership orgId teamId userId external m → C m) :
    Keeps C (TeamService.removeMember orgId teamId userId external) db := by
  unfold TeamService.removeMember
  refine holds_findInOrg h fun t team ht hfind hteam => ?_
  split
  · trivial
  next hopen =>
    refine Prog.holds_read_bind.mpr fun u hu => ⟨Guarantee.refl C u, ?_⟩
    cases hfound : u.findTeamMembership teamId userId with
    | none => trivial
    | some existing =>
      dsimp only
      split
      · trivial
      next hown =>
        -- the row that was found tells the mark of its team
        have hmark : team.external = external := by
          cases external with
          | false => simpa using hopen
          | true =>
            have hpair := List.find?_some hfound
            have hrow := (hu.2 (ht.2 h)).isMembership (hteam.later hu)
              (List.mem_of_find?_eq_some hfound) (of_decide_eq_true hpair).1 rfl
            exact hrow.2.2.2.symm.trans (by simpa using hown)
        rw [hmark] at hteam
        refine Prog.Holds.discard (P := fun _ => True) ?_
        refine Prog.holds_read_bind.mpr fun v hv => ⟨Guarantee.refl C v, ?_⟩
        cases v.findTeamMembership teamId userId with
        | none => trivial
        | some _ =>
          refine Prog.holds_write_bind.mpr fun w hw => ⟨?_, trivial⟩
          have hplaced := hw.2 (hv.2 (hu.2 (ht.2 h)))
          exact hplaced.remove (((hteam.later hu).later hv).later hw) hC

theorem holds_deleteTeam (h : Placed db) (hC : ∀ m, m.orgId = orgId ∧ m.teamId = teamId → C m) :
    Keeps C (deleteTeam orgId teamId) db := by
  refine holds_findInOrg h fun t team ht hfind hteam => ?_
  refine Prog.holds_write_bind.mpr fun u hu => ?_
  have hlists : Rely u
      { u with dashboardAcl := u.dashboardAcl.filter fun row => row.teamId ≠ some teamId } :=
    ⟨List.Sublist.refl _, fun hplaced => ⟨hplaced.1, hplaced.2, hplaced.3⟩⟩
  refine ⟨⟨hlists, fun _ _ _ => Iff.rfl⟩, ?_⟩
  refine Prog.holds_read_bind.mpr fun v hv => ⟨Guarantee.refl C v, ?_⟩
  cases v.findTeam teamId with
  | none => trivial
  | some _ =>
    refine Prog.holds_write.mpr fun w hw => ⟨?_, trivial⟩
    have hrely := ((hu.trans hlists).trans hv).trans hw
    exact (hrely.2 (ht.2 h)).delete (hteam.later hrely) hC

/-! ### The sync -/

theorem holds_resolveGroups {teamName : String → String} : ∀ (groups : List String)
    {mapped skipped : List String} {db : Db}, Placed db → AllExternal mapped db →
      (resolveGroups teamName orgId groups mapped skipped).Holds Rely (Guarantee C)
        (fun r t => ∀ p, r = .ok p → Placed t ∧ AllExternal p.1 t) db
  | [], mapped, skipped, db, h, hmapped => by
    rintro p ⟨⟩
    exact ⟨h, hmapped⟩
  | raw :: rest, mapped, skipped, db, h, hmapped => by
    unfold resolveGroups
    dsimp only
    split
    · exact holds_resolveGroups rest h hmapped
    refine Prog.holds_read_bind.mpr fun t ht => ⟨Guarantee.refl C t, ?_⟩
    have hplaced := ht.2 h
    have hlater := hmapped.later ht
    cases hfind : findByName teamName orgId (trim raw) t with
    | none => exact holds_resolveGroups rest hplaced hlater
    | some team =>
      dsimp only
      split
      next hext =>
        refine holds_resolveGroups rest hplaced fun t' ht' hid => ?_
        rcases mem_addToSet.mp hid with hid | hid
        · exact hlater t' ht' hid
        · rw [hplaced.team_eq (List.mem_of_find?_eq_some hfind) ht' hid]
          exact hext
      · exact holds_resolveGroups rest hplaced hlater

/-- The rest of a loop starts from what the first round leaves. -/
theorem holds_next {α β : Type} {p : Prog Db α} {k : α → Prog Db β} (h : Placed db)
    (hexternal : AllExternal teamIds db) (hp : Keeps C p db)
    (hk : ∀ a t, Placed t → AllExternal teamIds t → Keeps C (k a) t) : Keeps C (p >>= k) db := by
  have hkeep := hp.stable (P := fun db => Placed db ∧ AllExternal teamIds db)
    (fun s t hst hs => ⟨hst.2 hs.1, hs.2.later hst⟩) (fun s t hst => hst.1) ⟨h, hexternal⟩
  refine Prog.Holds.bind (hkeep.post ?_)
  rintro (e | a) t ⟨-, ht, hexternal⟩
  · trivial
  · exact hk a t ht hexternal

theorem holds_addMapped {current : List String}
    (hC : ∀ teamId m, IsMembership orgId teamId userId true m → C m) :
    ∀ (ids : List String) {added : List String} {db : Db}, Placed db → AllExternal ids db →
      Keeps C (addMapped orgId userId current ids added) db
  | [], _, _, _, _ => trivial
  | teamId :: rest, added, db, h, hids => by
    have hrest : AllExternal rest db := fun t ht hid => hids t ht (List.mem_cons_of_mem _ hid)
    unfold addMapped
    split
    · exact holds_addMapped hC rest h hrest
    refine holds_next h hrest ?_ fun added t ht hids => holds_addMapped hC rest ht hids
    refine Prog.Holds.tryCatch ?_
    have hadd : Keeps C (TeamService.addMember orgId teamId userId 0 true) db := by
      refine holds_addMember h (fun _ t ht hid => hids t ht ?_) (hC teamId _ ⟨rfl, rfl, rfl, rfl⟩)
      rw [List.mem_singleton.mp hid]
      exact List.mem_cons_self
    have hdone := hadd.bind_any (k := fun _ => pure (added ++ [teamId])) fun _ _ => trivial
    refine hdone.post ?_
    rintro (e | ids) t -
    · dsimp only
      split <;> trivial
    · trivial

theorem holds_removeUnmapped {mapped : List String}
    (hC : ∀ teamId m, IsMembership orgId teamId userId true m → C m) :
    ∀ (current : List String) {removed : List String} {db : Db}, Placed db →
      Keeps C (removeUnmapped orgId userId mapped current removed) db
  | [], _, _, _ => trivial
  | teamId :: rest, removed, db, h => by
    unfold removeUnmapped
    split
    · exact holds_removeUnmapped hC rest h
    · have hnone : AllExternal [] db := fun _ _ hid => (by cases hid)
      refine holds_next h hnone (holds_removeMember h (hC teamId)) fun _ t ht _ => ?_
      exact holds_removeUnmapped hC rest ht

theorem holds_syncTeams {teamName : String → String} {input : TeamSyncInput} (h : Placed db)
    (hC : ∀ m, IsTarget input m = true → C m) :
    Keeps C (syncTeams teamName input) db := by
  have hrows : ∀ teamId m, IsMembership input.orgId teamId input.userId true m → C m := by
    rintro teamId m ⟨horg, -, huser, hext⟩
    exact hC m (decide_eq_true ⟨huser, horg, hext⟩)
  have hnone : AllExternal [] db := fun _ _ hid => (by cases hid)
  unfold syncTeams
  split
  · trivial
  refine Prog.Holds.bind ((holds_resolveGroups _ h hnone).post ?_)
  rintro (e | ⟨mapped, skipped⟩) t hresolved
  · trivial
  obtain ⟨ht, hmapped⟩ := hresolved _ rfl
  refine Prog.holds_read_bind.mpr fun u hu => ⟨Guarantee.refl C u, ?_⟩
  refine holds_next (hu.2 ht) (hmapped.later hu)
    (holds_addMapped hrows _ (hu.2 ht) (hmapped.later hu)) fun added v hv _ => ?_
  exact (holds_removeUnmapped hrows _ hv).bind_any fun _ _ => trivial

theorem holds_code {teamName : String → String} (o : TeamOp) (h : Placed db) :
    Keeps (o.Concerns ·) (o.code teamName) db := by
  cases o with
  | addMember orgId teamId userId permission =>
    exact Prog.Holds.discard (holds_addMember h nofun ⟨rfl, rfl, rfl, rfl⟩)
  | updateMember orgId teamId userId permission =>
    exact Prog.Holds.discard (holds_updateMember h fun _ => id)
  | removeMember orgId teamId userId => exact holds_removeMember h fun _ => id
  | delete orgId teamId => exact holds_deleteTeam h fun _ => id
  | sync input => exact Prog.Holds.discard (holds_syncTeams h fun _ => id)

end Sections

/-- **Memberships under any interleaving.** Whatever requests and syncs run at the same time, every
membership stays in its team's org, with its team's mark and the only one of its user; and one that
no operation is about is there exactly if it was there at the start. -/
theorem memberships_kept (teamName : String → String) (db : Db) (h : Placed db)
    {c : Config Db TeamOp Unit}
    (hrun : Run (TeamOp.code teamName) (fun _ _ => True) ⟨db, []⟩ c) :
    Placed c.st ∧ ∀ m, (∀ th ∈ c.threads, ¬ th.op.Concerns m) →
      (m ∈ c.st.teamMembers ↔ m ∈ db.teamMembers) := by
  have hall {c : Config Db TeamOp Unit}
      (hrun : Run (TeamOp.code teamName) (fun _ _ => True) ⟨db, []⟩ c) :=
    hrun.rely_guarantee_within (I := Placed) (R := fun _ => Rely)
      (G := fun (o : TeamOp) => Guarantee fun m => o.Concerns m) (fun _ s _ => Rely.refl s)
      (fun _ _ _ _ => Rely.trans) (fun _ _ _ hs hg => hg.1.2 hs)
      (fun c o _ hplaced _ => holds_code o hplaced) (fun _ _ _ _ _ _ _ _ _ _ hg _ _ _ _ _ => hg.1)
      h (by simp)
  refine ⟨(hall hrun).1, ?_⟩
  induction hrun with
  | init => exact fun _ _ => Iff.rfl
  | @tail c c' l hr _ hn ih =>
    intro m hm
    cases l with
    | start o =>
      obtain ⟨hst, hth⟩ := Config.next_start hn
      rw [hst]
      exact ih m fun th hmem => hm th (by rw [hth]; exact List.mem_append_left _ hmem)
    | step i =>
      obtain ⟨hplaced, hholds⟩ := hall hr
      obtain ⟨o, f, k, hi, hst, hth⟩ := Config.next_step hn
      have hops := Config.next_step_ops hn
      have hbefore : ∀ th ∈ c.threads, ¬ th.op.Concerns m := by
        intro th hmem
        have hop : th.op ∈ c.threads.map (·.op) := List.mem_map_of_mem hmem
        rw [← hops] at hop
        obtain ⟨th', hmem', hop'⟩ := List.mem_map.mp hop
        rw [← hop']
        exact hm th' hmem'
      obtain ⟨hg, -⟩ := hholds _ (List.mem_of_getElem? hi) c.st (Rely.refl _)
      rw [hst]
      exact (hg.2 hplaced m (hbefore _ (List.mem_of_getElem? hi))).trans (ih m hbefore)

/-- A request by hand, the login of another user, and a membership that neither is about. -/
def twoCalls : List (Label TeamOp) :=
  [.start (.addMember "org" "qa" "u" 0), .step 0, .start (.sync ⟨"v", "org", ["ops"]⟩), .step 1,
    .step 0, .step 1, .step 1, .step 0, .step 1, .step 1]

def placedDb : Db :=
  { orgs := ["org"]
    users := [⟨"u", "u", "u@example", "org", false, false, false⟩,
      ⟨"v", "v", "v@example", "org", false, false, false⟩]
    teams := [⟨"dev", "org", true⟩, ⟨"qa", "org", false⟩, ⟨"ops", "org", true⟩]
    teamMembers := [⟨"org", "dev", "u", true, 0⟩] }

theorem memberships_kept_two : ∃ c, Config.exec (TeamOp.code id) ⟨placedDb, []⟩ twoCalls = some c ∧
    c.st.teamMembers =
      [⟨"org", "dev", "u", true, 0⟩, ⟨"org", "qa", "u", false, 0⟩, ⟨"org", "ops", "v", true, 0⟩] ∧
    Placed c.st ∧ ∀ m, (∀ th ∈ c.threads, ¬ th.op.Concerns m) →
      (m ∈ c.st.teamMembers ↔ m ∈ placedDb.teamMembers) :=
  ⟨_, rfl, rfl, memberships_kept id placedDb
    { team_ids := by decide
      member_pairs := by decide
      member_team := by simp [placedDb] }
    (@Run.of_exec _ _ _ _ _ _ twoCalls _ _ .init (allOk_of_forall (fun _ _ => trivial) _ _) rfl)⟩

end TeamSync

end OpenObs.Rbac
