import OpenObs.Rbac.ManagedRoles

/-!
# Per-resource grants are a map

What `setBulk` is for: the level of a principal on a resource is the last one a request gave it. The
map of levels (`Levels`) is kept here beside the tables, and the permission rows of the managed
roles are compared with it after every call.
-/

namespace OpenObs.Rbac

open OpenObs.Foundation

/-! ## The items of a request -/

/-- The level the map has for a principal; `none` if the principal is not in it. -/
def lookupGrant (map : List GrantEntry) (p : GrantPrincipal) : Option (Option PermissionLevel) :=
  (map.find? (·.1 = p)).map (·.2)

theorem setGrant_eq {map : List GrantEntry} {e : GrantEntry} :
    setGrant map e =
      if e.1 ∈ map.map (·.1) then map.map fun d => if d.1 = e.1 then e else d
      else map ++ [e] := by
  have hkey (d : GrantEntry) : principalKey d.1 = principalKey e.1 ↔ d.1 = e.1 :=
    ⟨principalKey_injective, congrArg principalKey⟩
  have hmem : principalKey e.1 ∈ map.map (principalKey ·.1) ↔ e.1 ∈ map.map (·.1) := by
    simp only [List.mem_map]
    exact exists_congr fun d => and_congr_right fun _ => hkey d
  simp only [setGrant, hmem, hkey]

theorem keys_setGrant {map : List GrantEntry} {e : GrantEntry} :
    (setGrant map e).map (·.1) =
      if e.1 ∈ map.map (·.1) then map.map (·.1) else map.map (·.1) ++ [e.1] := by
  rw [setGrant_eq]
  split
  · rw [List.map_map]
    apply List.map_congr_left
    intro d _
    by_cases hd : d.1 = e.1 <;> simp [hd]
  · simp

theorem nodup_setGrant {map : List GrantEntry} {e : GrantEntry} (h : (map.map (·.1)).Nodup) :
    ((setGrant map e).map (·.1)).Nodup := by
  rw [keys_setGrant]
  split
  · exact h
  · rename_i hnot
    rw [List.nodup_append]
    refine ⟨h, by simp, ?_⟩
    intro a ha b hb hab
    rw [List.mem_singleton] at hb
    exact hnot (hb ▸ hab ▸ ha)

theorem lookupGrant_setGrant {map : List GrantEntry} {e : GrantEntry} {p : GrantPrincipal} :
    lookupGrant (setGrant map e) p = if p = e.1 then some e.2 else lookupGrant map p := by
  rw [setGrant_eq, lookupGrant]
  split
  · rename_i hmem
    -- a replaced entry has the principal it had
    have hfind : (map.map fun d => if d.1 = e.1 then e else d).find? (·.1 = p) =
        (map.find? (·.1 = p)).map fun d => if d.1 = e.1 then e else d := by
      rw [List.find?_map]
      refine congrArg (Option.map _) (congrArg (fun q => List.find? q map) ?_)
      funext d
      by_cases hd : d.1 = e.1 <;> simp [hd]
    rw [hfind]
    cases hd : map.find? (·.1 = p) with
    | none =>
      have hp : p ≠ e.1 := by
        rintro rfl
        obtain ⟨d, hdmem, hde⟩ := List.mem_map.mp hmem
        exact absurd hde (by simpa using List.find?_eq_none.mp hd d hdmem)
      simp [lookupGrant, hd, hp]
    | some d =>
      have hdp : d.1 = p := by simpa using List.find?_some hd
      by_cases hp : p = e.1
      · simp [hdp, hp]
      · simp [lookupGrant, hd, hdp, hp]
  · rename_i hmem
    rw [List.find?_append]
    by_cases hp : p = e.1
    · have hnone : map.find? (·.1 = p) = none := by
        rw [List.find?_eq_none]
        intro d hd hdp
        exact hmem (List.mem_map.mpr ⟨d, hd, by simpa [hp] using hdp⟩)
      rw [hnone, Option.none_or]
      simp [hp]
    · have hlast : ([e].find? fun d => decide (d.1 = p)) = none := by
        simpa using fun h => hp h.symm
      rw [hlast, Option.or_none, if_neg hp, lookupGrant]

def SetItem.named (it : SetItem) : List GrantPrincipal :=
  (present it.userId).toList.map .user ++ (present it.teamId).toList.map .team ++
    it.role.toList.map .role

theorem SetItem.principal_eq_ok {it : SetItem} {p : GrantPrincipal} :
    it.principal = .ok p ↔ it.named = [p] := by
  unfold SetItem.principal SetItem.named
  cases present it.userId <;> cases present it.teamId <;> cases it.role <;> simp

theorem SetItem.principal_isOk {it : SetItem} :
    (∃ p, it.principal = .ok p) ↔ it.named.length = 1 := by
  rw [List.length_eq_one_iff]
  exact exists_congr fun p => SetItem.principal_eq_ok

theorem normalizeSetItems_isOk {items : List SetItem} : ∀ {map : List GrantEntry},
    (∃ out, normalizeSetItems map items = .ok out) ↔ ∀ it ∈ items, it.named.length = 1 := by
  induction items with
  | nil => exact fun {map} => ⟨fun _ it hit => (List.not_mem_nil hit).elim, fun _ => ⟨map, rfl⟩⟩
  | cons it items ih =>
    intro map
    rw [List.forall_mem_cons, ← SetItem.principal_isOk, normalizeSetItems]
    cases hp : it.principal with
    | error e =>
      constructor
      · rintro ⟨out, h⟩
        cases h
      · rintro ⟨⟨p, h⟩, -⟩
        cases h
    | ok p =>
      refine Iff.trans (@ih (setGrant map (p, it.permission))) ?_
      exact ⟨fun h => ⟨⟨p, rfl⟩, h⟩, fun h => h.2⟩

def lastGiven (p : GrantPrincipal) :
    Option (Option PermissionLevel) → List SetItem → Option (Option PermissionLevel)
  | had, [] => had
  | had, it :: items => lastGiven p (if p ∈ it.named then some it.permission else had) items

theorem normalizeSetItems_spec {items : List SetItem} : ∀ {map out : List GrantEntry},
    normalizeSetItems map items = .ok out → (map.map (·.1)).Nodup →
    (out.map (·.1)).Nodup ∧
      ∀ p, lookupGrant out p = lastGiven p (lookupGrant map p) items := by
  induction items with
  | nil =>
    intro map out h hnd
    cases h
    exact ⟨hnd, fun _ => rfl⟩
  | cons it items ih =>
    intro map out h hnd
    rw [normalizeSetItems] at h
    cases hq : it.principal with
    | error e =>
      rw [hq] at h
      cases h
    | ok q =>
      rw [hq] at h
      obtain ⟨hout, hlook⟩ := ih h (nodup_setGrant hnd)
      refine ⟨hout, fun p => ?_⟩
      rw [hlook, lookupGrant_setGrant, lastGiven, SetItem.principal_eq_ok.mp hq]
      simp only [List.mem_singleton]

/-! ## The loop -/

section Loop

open ResourcePermissionService

variable {orgId scope : String} {resource : ResourceKind} {uid : ℕ → ℕ → String}

structure DrawnIds (uid : ℕ → ℕ → String) (db : Db) : Prop where
  injective : ∀ k n k' n', uid k n = uid k' n' → k = k' ∧ n = n'
  role : ∀ k n, uid k n ∉ db.roles.map (·.id)
  permission : ∀ k n, uid k n ∉ db.permissions.map (·.id)

theorem run_setEach (huid : ∀ k n k' n', uid k n = uid k' n' → k = k' ∧ n = n')
    {es : List GrantEntry} : ∀ {db : Db}, db.GrantKeys →
    (∀ k < es.length, NewIds (uid k) db) → (es.map (·.1)).Nodup →
    (∀ e ∈ es, db.Accepts orgId e) →
    ∃ db', (setEach uid orgId resource scope es).run db = (.ok (), db') ∧
      (∀ e ∈ es, db'.Settled orgId resource scope e) ∧
      SetFrame orgId scope (es.map (·.1)) db db' ∧ db'.GrantKeys := by
  induction es with
  | nil =>
    intro db hkeys _ _ _
    exact ⟨db, rfl, fun e he => (List.not_mem_nil he).elim, SetFrame.refl db, hkeys⟩
  | cons e es ih =>
    intro db hkeys hids hnd hacc
    obtain ⟨hnew, hnd'⟩ := List.nodup_cons.mp hnd
    obtain ⟨db₁, hrun₁, hset₁, hframe₁, hkeys₁, hdraws⟩ :=
      @run_setOne db orgId (uid es.length) resource scope e hkeys (hids _ (Nat.lt_succ_self _))
        (hacc e List.mem_cons_self)
    have hother : ∀ e' ∈ es, e'.1 ∉ [e.1] := by
      intro e' he' h
      exact hnew (List.mem_map.mpr ⟨e', he', List.mem_singleton.mp h⟩)
    have hids₁ : ∀ k < es.length, NewIds (uid k) db₁ := by
      intro k hk
      obtain ⟨hinj, hrole, hperm⟩ := hids k (Nat.lt_succ_of_lt hk)
      refine ⟨hinj, fun n h => ?_, fun n h => ?_⟩
      · obtain ⟨r, hr, hid⟩ := List.mem_map.mp h
        rcases hdraws.roles r hr with hr | ⟨m, hm⟩
        · exact hrole n (List.mem_map.mpr ⟨r, hr, hid⟩)
        · exact absurd (huid _ _ _ _ (hid.symm.trans hm)).1 (Nat.ne_of_lt hk)
      · obtain ⟨r, hr, hid⟩ := List.mem_map.mp h
        rcases hdraws.permissions r hr with hr | ⟨m, hm⟩
        · exact hperm n (List.mem_map.mpr ⟨r, hr, hid⟩)
        · exact absurd (huid _ _ _ _ (hid.symm.trans hm)).1 (Nat.ne_of_lt hk)
    obtain ⟨db₂, hrun₂, hset₂, hframe₂, hkeys₂⟩ := ih hkeys₁ hids₁ hnd' fun e' he' =>
      hframe₁.accepts (hother e' he') (hacc e' (List.mem_cons_of_mem e he'))
    refine ⟨db₂, ?_, ?_, hframe₁.trans hframe₂, hkeys₂⟩
    · rw [setEach, Prog.run_bind, hrun₁]
      exact hrun₂
    · intro e' he'
      rcases List.mem_cons.mp he' with rfl | he'
      · exact hframe₂.settled hkeys₂ hnew hset₁
      · exact hset₂ e' he'

theorem run_setEach_self {es : List GrantEntry} {db : Db}
    (h : ∀ e ∈ es, db.Settled orgId resource scope e) :
    (setEach uid orgId resource scope es).run db = (.ok (), db) := by
  induction es with
  | nil => rfl
  | cons e es ih =>
    rw [setEach, Prog.run_bind, run_setOne_self (h e List.mem_cons_self)]
    exact ih fun e' he' => h e' (List.mem_cons_of_mem e he')

end Loop

/-! ## The map of levels -/

structure GrantKey where
  orgId : String
  principal : GrantPrincipal
  resource : ResourceKind
  uid : String
deriving DecidableEq

def GrantKey.scope (key : GrantKey) : String := resourceScope key.resource key.uid

abbrev Levels := GrantKey → Option PermissionLevel

def levelActions (resource : ResourceKind) : Option PermissionLevel → List String
  | none => []
  | some level => actionsForLevel resource level

def Db.actionsOf (db : Db) (key : GrantKey) : List String :=
  match db.managedRole key.orgId key.principal with
  | none => []
  | some role => (db.rowsAt role.id key.scope).map (·.action)

def Db.Represents (db : Db) (levels : Levels) : Prop :=
  ∀ key, (db.actionsOf key).Perm (levelActions key.resource (levels key))

/-- A call of `setBulk`; `uid` are the ids it draws. -/
structure SetCall where
  uid : ℕ → ℕ → String
  orgId : String
  resource : ResourceKind
  resourceUid : String
  items : List SetItem

namespace SetCall

variable (call : SetCall)

def code : Prog Db Unit :=
  ResourcePermissionService.setBulk call.uid call.orgId call.resource call.resourceUid call.items

def key (p : GrantPrincipal) : GrantKey := ⟨call.orgId, p, call.resource, call.resourceUid⟩

def scope : String := resourceScope call.resource call.resourceUid

def Rejected : Prop := ∃ it ∈ call.items, it.named.length ≠ 1

instance : Decidable call.Rejected := inferInstanceAs (Decidable (∃ it ∈ call.items, _))

def principals : List GrantPrincipal := call.items.flatMap (·.named)

def writes : List (GrantKey × Option PermissionLevel) :=
  call.items.flatMap fun it => it.named.map fun p => (call.key p, it.permission)

def apply (levels : Levels) : Levels :=
  if call.Rejected then levels
  else call.writes.foldl (fun m w => Function.update m w.1 w.2) levels

end SetCall

def lastLevels (calls : List SetCall) : Levels :=
  calls.foldl (fun levels call => call.apply levels) fun _ => none

section Map

variable {call : SetCall} {levels : Levels} {p : GrantPrincipal}

theorem lastGiven_or {items : List SetItem} : ∀ {had : Option (Option PermissionLevel)},
    lastGiven p had items = (lastGiven p none items).or had := by
  induction items with
  | nil => exact fun {had} => (Option.none_or).symm
  | cons it items ih =>
    intro had
    rw [lastGiven, lastGiven]
    by_cases hp : p ∈ it.named
    · rw [if_pos hp, if_pos hp, ih]
      cases lastGiven p none items <;> rfl
    · rw [if_neg hp, if_neg hp, ih]

theorem mem_named_of_lastGiven {items : List SetItem} {level : Option PermissionLevel} :
    lastGiven p none items = some level → p ∈ items.flatMap (·.named) := by
  induction items with
  | nil => exact fun h => by cases h
  | cons it items ih =>
    intro h
    rw [lastGiven, lastGiven_or] at h
    rw [List.flatMap_cons, List.mem_append]
    by_cases hp : p ∈ it.named
    · exact Or.inl hp
    · rw [if_neg hp, Option.or_none] at h
      exact Or.inr (ih h)

theorem foldl_named {ps : List GrantPrincipal} {level : Option PermissionLevel} :
    ∀ {m : Levels}, (ps.map fun q => (call.key q, level)).foldl
        (fun m w => Function.update m w.1 w.2) m (call.key p) =
      if p ∈ ps then level else m (call.key p) := by
  induction ps with
  | nil => exact fun {m} => by simp
  | cons q ps ih =>
    intro m
    rw [List.map_cons, List.foldl_cons, ih]
    by_cases hp : p ∈ ps
    · simp [hp]
    · have hkey : call.key p = call.key q ↔ p = q := by simp [SetCall.key]
      by_cases hq : p = q
      · simp [hq]
      · simp [hp, hq, hkey]

theorem foldl_writes {items : List SetItem} : ∀ {m : Levels},
    (items.flatMap fun it => it.named.map fun q => (call.key q, it.permission)).foldl
        (fun m w => Function.update m w.1 w.2) m (call.key p) =
      (lastGiven p none items).getD (m (call.key p)) := by
  induction items with
  | nil => exact fun {m} => rfl
  | cons it items ih =>
    intro m
    rw [List.flatMap_cons, List.foldl_append, ih, foldl_named, lastGiven, lastGiven_or]
    conv_rhs => rw [lastGiven_or]
    by_cases hp : p ∈ it.named
    · cases lastGiven p none items <;> simp [hp]
    · cases lastGiven p none items <;> simp [hp]

theorem foldl_writes_other {writes : List (GrantKey × Option PermissionLevel)} {key : GrantKey} :
    ∀ {m : Levels}, (∀ w ∈ writes, key ≠ w.1) →
      writes.foldl (fun m w => Function.update m w.1 w.2) m key = m key := by
  induction writes with
  | nil => exact fun _ => rfl
  | cons w writes ih =>
    intro m hne
    rw [List.foldl_cons, ih fun v hv => hne v (List.mem_cons_of_mem w hv),
      Function.update_of_ne (hne w List.mem_cons_self)]

theorem apply_key (h : ¬ call.Rejected) :
    call.apply levels (call.key p) = (lastGiven p none call.items).getD (levels (call.key p)) := by
  rw [SetCall.apply, if_neg h]
  exact foldl_writes

theorem apply_other {key : GrantKey} (hkey : ∀ p ∈ call.principals, key ≠ call.key p) :
    call.apply levels key = levels key := by
  rw [SetCall.apply]
  split
  · rfl
  · refine foldl_writes_other fun w hw heq => ?_
    obtain ⟨it, hit, hw⟩ := List.mem_flatMap.mp hw
    obtain ⟨q, hq, rfl⟩ := List.mem_map.mp hw
    exact hkey q (List.mem_flatMap.mpr ⟨it, hit, hq⟩) heq

end Map

/-! ## One call -/

/-- Every principal the call gives a level is a row of its table, and its managed role is
there or its uid is free. -/
def SetCall.Accepted (call : SetCall) (db : Db) : Prop :=
  ∀ p level, lastGiven p none call.items = some (some level) → db.hasPrincipal p ∧
    ((db.managedRole call.orgId p).isSome = true ∨
      db.findRoleByUid call.orgId (managedRoleUidFor p) = none)

def SetCall.Outside (call : SetCall) (db : Db) (roleId scope : String) : Prop :=
  scope ≠ call.scope ∨
    ∀ p ∈ call.principals, ∀ role, db.managedRole call.orgId p = some role → role.id ≠ roleId

/-- The laws of one call: a rejected one changes nothing, the others keep the rows they do
not name, and the same call again changes nothing. -/
structure SetCall.Lawful (call : SetCall) (db : Db) : Prop where
  rejected : call.Rejected → (call.code.run db).2 = db
  rows : ∀ roleId scope, call.Outside (call.code.run db).2 roleId scope →
    (call.code.run db).2.rowsAt roleId scope = db.rowsAt roleId scope
  again : ∀ uid, (SetCall.code { call with uid } |>.run (call.code.run db).2).2 =
    (call.code.run db).2

section Call

variable {call : SetCall} {db : Db}

theorem run_rejected (h : call.Rejected) : (call.code.run db).2 = db := by
  rw [SetCall.code, ResourcePermissionService.setBulk]
  cases hnorm : normalizeSetItems [] call.items with
  | error e => rfl
  | ok out =>
    have hall := normalizeSetItems_isOk.mp ⟨out, hnorm⟩
    obtain ⟨it, hit, hne⟩ := h
    exact absurd (hall it hit) hne

theorem run_accepted (h : ¬ call.Rejected) :
    ∃ es, (es.map (·.1)).Nodup ∧ (∀ p, lookupGrant es p = lastGiven p none call.items) ∧
      ∀ uid, SetCall.code { call with uid } =
        ResourcePermissionService.setEach uid call.orgId call.resource call.scope es := by
  have hall : ∀ it ∈ call.items, it.named.length = 1 := by
    intro it hit
    by_contra hne
    exact h ⟨it, hit, hne⟩
  obtain ⟨es, hes⟩ := (@normalizeSetItems_isOk call.items []).mpr hall
  obtain ⟨hnd, hlook⟩ := normalizeSetItems_spec hes List.nodup_nil
  refine ⟨es, hnd, hlook, fun uid => ?_⟩
  rw [SetCall.code, ResourcePermissionService.setBulk, hes]
  rfl

theorem lookupGrant_of_mem {es : List GrantEntry} (hnd : (es.map (·.1)).Nodup) {e : GrantEntry}
    (he : e ∈ es) : lookupGrant es e.1 = some e.2 := by
  rw [lookupGrant]
  cases hfind : es.find? (·.1 = e.1) with
  | none =>
    have hne := List.find?_eq_none.mp hfind e he
    simp at hne
  | some d =>
    have hd : d.1 = e.1 := by simpa using List.find?_some hfind
    have heq : d = e := List.inj_on_of_nodup_map hnd (List.mem_of_find?_eq_some hfind) he hd
    rw [heq]
    rfl

theorem lookupGrant_of_not_mem {es : List GrantEntry} {p : GrantPrincipal}
    (hp : p ∉ es.map (·.1)) : lookupGrant es p = none := by
  rw [lookupGrant, Option.map_eq_none_iff, List.find?_eq_none]
  intro e he heq
  exact hp (List.mem_map.mpr ⟨e, he, by simpa using heq⟩)

theorem settled_actionsOf {e : GrantEntry}
    (h : db.Settled call.orgId call.resource call.scope e) :
    (db.actionsOf (call.key e.1)).Perm (levelActions call.resource e.2) := by
  obtain ⟨p, level⟩ := e
  show List.Perm (match db.managedRole call.orgId p with
    | none => []
    | some role => (db.rowsAt role.id call.scope).map (·.action)) _
  cases level with
  | none =>
    cases hrole : db.managedRole call.orgId p with
    | none => exact List.Perm.refl _
    | some role =>
      show ((db.rowsAt role.id call.scope).map _).Perm _
      rw [h role hrole]
      exact List.Perm.refl _
  | some level =>
    obtain ⟨role, hrole, hperm, -⟩ := h
    rw [hrole]
    exact hperm

theorem SetFrame.actionsOf {orgId scope : String} {ps : List GrantPrincipal} {db' : Db}
    (h : SetFrame orgId scope ps db db') (hkeys : db.GrantKeys) (hkeys' : db'.GrantKeys)
    {key : GrantKey}
    (hkey : key.orgId ≠ orgId ∨ key.scope ≠ scope ∨ key.principal ∉ ps) :
    db'.actionsOf key = db.actionsOf key := by
  have hrows : ∀ role, db'.managedRole key.orgId key.principal = some role →
      db'.rowsAt role.id key.scope = db.rowsAt role.id key.scope := by
    intro role hrole
    refine h.rows _ _ ?_
    by_cases hscope : key.scope = scope
    · refine Or.inr fun q hq role' hrole' hid => ?_
      have heq : role' = role := List.inj_on_of_nodup_map hkeys'.role_id
        (mem_of_managedRole hrole') (mem_of_managedRole hrole) hid
      subst heq
      rcases hkey with hne | hne | hne
      · exact hne ((org_of_managedRole hrole).symm.trans (org_of_managedRole hrole'))
      · exact hne hscope
      · have hname := (name_of_managedRole hrole).symm.trans (name_of_managedRole hrole')
        exact hne (managedRoleNameFor_injective hname ▸ hq)
    · exact Or.inl hscope
  rw [Db.actionsOf, Db.actionsOf]
  cases hrole : db.managedRole key.orgId key.principal with
  | some role =>
    have hrole' : db'.managedRole key.orgId key.principal = some role := h.found _ _ role hrole
    rw [hrole']
    show (db'.rowsAt role.id key.scope).map _ = _
    rw [hrows role hrole']
  | none =>
    cases hrole' : db'.managedRole key.orgId key.principal with
    | none => rfl
    | some role =>
      -- a role of this call: no row had its id before
      show (db'.rowsAt role.id key.scope).map _ = []
      rw [hrows role hrole', List.map_eq_nil_iff, Db.rowsAt, List.filter_eq_nil_iff]
      intro r hr hat
      obtain ⟨old, hold, hid⟩ := hkeys.permission_role r hr
      have hrid : r.roleId = role.id := (by simpa using hat : _ ∧ _).1
      have heq : old = role := List.inj_on_of_nodup_map hkeys'.role_id
        (h.roles old hold) (mem_of_managedRole hrole') (hid.trans hrid)
      have hfound := List.find?_eq_none.mp hrole old hold
      rw [heq, org_of_managedRole hrole', name_of_managedRole hrole'] at hfound
      simp at hfound

theorem run_taken (hkeys : db.GrantKeys) (hids : DrawnIds call.uid db) (hacc : call.Accepted db)
    (hrej : ¬ call.Rejected) :
    ∃ es, (es.map (·.1)).Nodup ∧ (∀ p, lookupGrant es p = lastGiven p none call.items) ∧
      (∀ uid, SetCall.code { call with uid } =
        ResourcePermissionService.setEach uid call.orgId call.resource call.scope es) ∧
      (∀ e ∈ es, lastGiven e.1 none call.items = some e.2) ∧
      (∀ e ∈ es, (call.code.run db).2.Settled call.orgId call.resource call.scope e) ∧
      SetFrame call.orgId call.scope (es.map (·.1)) db (call.code.run db).2 ∧
      (call.code.run db).2.GrantKeys := by
  obtain ⟨es, hnd, hlook, hcode⟩ := run_accepted hrej
  have hnew : ∀ k < es.length, NewIds (call.uid k) db := fun k _ =>
    ⟨fun m n h => (hids.injective k m k n h).2, hids.role k, hids.permission k⟩
  have hmem : ∀ e ∈ es, lastGiven e.1 none call.items = some e.2 := by
    intro e he
    rw [← hlook, lookupGrant_of_mem hnd he]
  have haccepts : ∀ e ∈ es, db.Accepts call.orgId e := by
    intro e he hlevel
    obtain ⟨level, hsome⟩ := Option.ne_none_iff_exists'.mp hlevel
    exact hacc e.1 level (hsome ▸ hmem e he)
  obtain ⟨db', hrun, hset, hframe, hkeys'⟩ :=
    @run_setEach call.orgId call.scope call.resource call.uid hids.injective es db hkeys hnew hnd
      haccepts
  have hout : (call.code.run db).2 = db' := by
    rw [show call.code = _ from hcode call.uid, hrun]
  rw [hout]
  exact ⟨es, hnd, hlook, hcode, hmem, hset, hframe, hkeys'⟩

theorem SetCall.settled (hkeys : db.GrantKeys) (hids : DrawnIds call.uid db)
    (hacc : call.Accepted db) (hrej : ¬ call.Rejected) {p : GrantPrincipal}
    {level : Option PermissionLevel} (hlast : lastGiven p none call.items = some level) :
    (call.code.run db).2.Settled call.orgId call.resource call.scope (p, level) := by
  obtain ⟨es, -, hlook, -, -, hset, -⟩ := run_taken hkeys hids hacc hrej
  obtain ⟨e, hfind, hlevel⟩ := Option.map_eq_some_iff.mp ((hlook p).trans hlast)
  have hep : e = (p, level) := Prod.ext (by simpa using List.find?_some hfind) hlevel
  exact hep ▸ hset e (List.mem_of_find?_eq_some hfind)

/-- **One call.** A call the tables take is lawful and does to the rows what it does to
the levels. -/
theorem SetCall.step (hkeys : db.GrantKeys) (hids : DrawnIds call.uid db)
    (hacc : call.Accepted db) :
    (call.code.run db).2.GrantKeys ∧ call.Lawful db ∧
      ∀ levels, db.Represents levels → (call.code.run db).2.Represents (call.apply levels) := by
  by_cases hrej : call.Rejected
  · have hsame (uid : ℕ → ℕ → String) (db : Db) :
        ((SetCall.code { call with uid }).run db).2 = db := run_rejected hrej
    have hself : (call.code.run db).2 = db := run_rejected hrej
    refine ⟨by rwa [hself], ⟨fun _ => hself, fun _ _ _ => by rw [hself], fun uid => hsame uid _⟩, ?_⟩
    intro levels hrep
    rw [hself, SetCall.apply, if_pos hrej]
    exact hrep
  · obtain ⟨es, hnd, hlook, hcode, hmem, hset, hframe, hkeys'⟩ := run_taken hkeys hids hacc hrej
    have hps : ∀ p ∈ es.map (·.1), p ∈ call.principals := by
      intro p hp
      obtain ⟨e, he, rfl⟩ := List.mem_map.mp hp
      exact mem_named_of_lastGiven (hmem e he)
    refine ⟨hkeys', ⟨fun h => absurd h hrej, fun r s hside => ?_, fun uid => ?_⟩, fun levels hrep => ?_⟩
    · exact hframe.rows r s (hside.imp_right fun h p hp => h p (hps p hp))
    · rw [hcode uid, run_setEach_self hset]
    · intro key
      by_cases hkey : key.orgId = call.orgId ∧ key.scope = call.scope ∧
          key.principal ∈ es.map (·.1)
      · obtain ⟨horg, hscope, hp⟩ := hkey
        obtain ⟨hres, huid⟩ := resourceScope_injective hscope
        obtain ⟨e, he, hep⟩ := List.mem_map.mp hp
        have hke : key = call.key e.1 := by
          cases key
          simp only [SetCall.key, GrantKey.mk.injEq]
          exact ⟨horg, hep.symm, hres, huid⟩
        subst hke
        rw [apply_key hrej, hmem e he, Option.getD_some]
        exact settled_actionsOf (hset e he)
      · have hother : key.orgId ≠ call.orgId ∨ key.scope ≠ call.scope ∨
            key.principal ∉ es.map (·.1) := by
          by_contra h
          simp only [not_or, not_not] at h
          exact hkey h
        have hlevel : call.apply levels key = levels key := by
          by_cases hown : key = call.key key.principal
          · have hnot : key.principal ∉ es.map (·.1) := by
              rw [hown] at hother
              simpa [SetCall.key, GrantKey.scope, SetCall.scope] using hother
            rw [hown, apply_key hrej, ← hlook, lookupGrant_of_not_mem hnot, Option.getD_none]
          · refine apply_other fun p _ heq => hown ?_
            rw [heq]
            rfl
        rw [hframe.actionsOf hkeys hkeys' hother, hlevel]
        exact hrep key

end Call

/-! ## Histories -/

/-- **The last writer wins.** After the calls the rows are those of the last levels, and
every call was lawful where it was made. -/
def LastWriterWins (db₀ : Db) (calls : List SetCall) : Prop :=
  (serveAll SetCall.code calls db₀).Represents (lastLevels calls) ∧
    AllServed SetCall.code SetCall.Lawful calls db₀

theorem serve_calls {calls : List SetCall} : ∀ {db : Db} {levels : Levels},
    db.GrantKeys → db.Represents levels →
    AllServed SetCall.code (fun call db => DrawnIds call.uid db ∧ call.Accepted db) calls db →
    (serveAll SetCall.code calls db).Represents
        (calls.foldl (fun levels call => call.apply levels) levels) ∧
      AllServed SetCall.code SetCall.Lawful calls db := by
  induction calls with
  | nil => exact fun _ hrep _ => ⟨hrep, trivial⟩
  | cons call calls ih =>
    intro db levels hkeys hrep hok
    obtain ⟨⟨hids, hacc⟩, hrest⟩ := hok
    obtain ⟨hkeys', hlawful, hstep⟩ := SetCall.step hkeys hids hacc
    obtain ⟨hfinal, hserved⟩ := ih hkeys' (hstep levels hrep) hrest
    exact ⟨hfinal, hlawful, hserved⟩

/-- Calls the tables take, from tables without a grant, act as writes to the map of
levels. -/
theorem setBulk_last_writer_wins (db₀ : Db) (hkeys : db₀.GrantKeys)
    (hnone : db₀.Represents fun _ => none) (calls : List SetCall)
    (hcalls : AllServed SetCall.code
      (fun call db => DrawnIds call.uid db ∧ call.Accepted db) calls db₀) :
    LastWriterWins db₀ calls :=
  serve_calls hkeys hnone hcalls

/-! ### A user that is not there -/

/-- Ids of the shape `kk…nn…`. -/
def tallyId (k n : ℕ) : String := String.ofList (List.replicate k 'k' ++ List.replicate n 'n')

theorem tallyId_injective (k n k' n' : ℕ) (h : tallyId k n = tallyId k' n') : k = k' ∧ n = n' := by
  have hlist := String.ofList_injective h
  have hk := congrArg (List.count 'k') hlist
  have hn := congrArg (List.count 'n') hlist
  simp [List.count_append, List.count_replicate] at hk hn
  exact ⟨hk, hn⟩

def bobDb : Db := { orgs := ["org"], users := [⟨"bob", "bob", "bob@x", "org", false, false, false⟩] }

def shareWithBob (level : Option PermissionLevel) : SetCall :=
  ⟨tallyId, "org", .folders, "f", [{ userId := some "bob", permission := level }]⟩

def shareWithGhost : SetCall :=
  ⟨tallyId, "org", .folders, "f",
    [{ userId := some "ghost", permission := some .view },
      { userId := some "bob", permission := some .edit }]⟩

theorem bobDb_keys : bobDb.GrantKeys := ⟨List.nodup_nil, List.nodup_nil, fun _ h => by cases h⟩

theorem bobDb_represents : bobDb.Represents fun _ => none := fun _ => List.Perm.refl _

theorem drawnIds_bobDb : DrawnIds tallyId bobDb :=
  ⟨tallyId_injective, fun _ _ => List.not_mem_nil, fun _ _ => List.not_mem_nil⟩

/-- A share with bob that the tables take. -/
theorem setBulk_last_writer_wins_bob :
    LastWriterWins bobDb [shareWithBob (some .edit)] ∧
      (serveAll SetCall.code [shareWithBob (some .edit)] bobDb).actionsOf
        ((shareWithBob none).key (.user "bob")) = actionsForLevel .folders .edit := by
  refine ⟨setBulk_last_writer_wins bobDb bobDb_keys bobDb_represents _
    ⟨⟨drawnIds_bobDb, fun p level h => ⟨?_, Or.inr rfl⟩⟩, trivial⟩, by decide +kernel⟩
  have hp : p ∈ [GrantPrincipal.user "bob"] := mem_named_of_lastGiven h
  rw [List.mem_singleton.mp hp]
  decide

/-- The call throws at the ghost's assignment, and bob is never reached. -/
theorem setBulk_aborts_before_bob :
    bobDb.GrantKeys ∧ (bobDb.Represents fun _ => none) ∧ DrawnIds tallyId bobDb ∧
      ¬ LastWriterWins bobDb [shareWithGhost] := by
  refine ⟨bobDb_keys, bobDb_represents, drawnIds_bobDb, fun h => ?_⟩
  have hbob := (h.1 (shareWithGhost.key (.user "bob"))).length_eq
  exact absurd hbob (by decide +kernel)

end OpenObs.Rbac
