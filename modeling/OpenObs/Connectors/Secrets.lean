import OpenObs.Connectors.Defaults
import OpenObs.Connectors.Routes

/-!
# Secrets of connectors

Two runs over requests that differ in nothing but secret texts. A kubeconfig in a config is answered
in full by the request that stores it and by every later read: the copy for the wire masks nothing.
-/

namespace OpenObs.Connectors

open OpenObs.Foundation ConnectorRepository
open OpenObs.Rbac (present)

/-! ## The tables -/

namespace ConnectorDb

variable {db db' : ConnectorDb} {row : ConnectorRow} {id orgId type name now : String}

structure Takes (db : ConnectorDb) (id orgId type name : String) : Prop where
  template : ∃ t, connectorTemplate type = some t ∧ ∀ c ∈ t.2, (id, c) ∉ db.capabilities
  org : orgId ∈ db.orgs
  id : ∀ r ∈ db.connectors, r.id ≠ id
  name : ∀ r ∈ db.connectors, ¬ (r.orgId = orgId ∧ r.type = type ∧ r.name = name)

def Free (db : ConnectorDb) (row : ConnectorRow) (name : String) : Prop :=
  ∀ r ∈ db.connectors, r.id ≠ row.id →
    ¬ (r.orgId = row.orgId ∧ r.type = row.type ∧ r.name = name)

def yielding (db : ConnectorDb) (isDefault : Bool) (orgId type now : String)
    (keep : String → Bool) : ConnectorDb :=
  if isDefault then db.unsetDefaults orgId type now keep else db

variable {isDefault : Bool} {keep : String → Bool}

theorem mem_yielding {r : ConnectorRow}
    (h : r ∈ (db.yielding isDefault orgId type now keep).connectors) :
    ∃ r₀ ∈ db.connectors, r.id = r₀.id ∧ r.orgId = r₀.orgId ∧ r.type = r₀.type ∧
      r.name = r₀.name ∧
      (isDefault = true → r.isDefault = true →
        ¬ (r₀.orgId = orgId ∧ r₀.type = type ∧ keep r₀.id = false)) := by
  cases isDefault with
  | false => exact ⟨r, h, rfl, rfl, rfl, rfl, fun hdef => nomatch hdef⟩
  | true =>
    obtain ⟨r₀, hr₀, hid, horg, htype, hname, hdef⟩ := mem_unsetDefaults h
    exact ⟨r₀, hr₀, hid, horg, htype, hname, fun _ h => (hdef.mp h).2⟩

theorem mem_yielding_of_mem {r₀ : ConnectorRow} (h : r₀ ∈ db.connectors) :
    ∃ r ∈ (db.yielding isDefault orgId type now keep).connectors, r.id = r₀.id ∧
      r.orgId = r₀.orgId ∧ r.type = r₀.type ∧ r.name = r₀.name := by
  cases isDefault with
  | false => exact ⟨r₀, h, rfl, rfl, rfl, rfl⟩
  | true =>
    refine ⟨_, List.mem_map_of_mem h, ?_⟩
    split <;> exact ⟨rfl, rfl, rfl, rfl⟩

theorem orgs_yielding : (db.yielding isDefault orgId type now keep).orgs = db.orgs := by
  cases isDefault <;> rfl

theorem capabilities_yielding :
    (db.yielding isDefault orgId type now keep).capabilities = db.capabilities := by
  cases isDefault <;> rfl

theorem insert_error_config {capabilities : List String} {e : String} (config : Json.Record)
    (h : db.insert row capabilities = .error e) :
    db.insert { row with config := config } capabilities = .error e := by
  have hclash : ∀ r, clashes r { row with config := config } = clashes r row := fun _ => rfl
  unfold ConnectorDb.insert at h ⊢
  simp only [hclash]
  split at h
  · rename_i hused
    cases h
    exact if_pos hused
  · rename_i hfree
    rw [if_neg hfree]
    split at h
    · rename_i horg
      cases h
      exact if_pos horg
    · cases h

theorem clash_before {r : ConnectorRow}
    (hr : r ∈ (db.yielding row.isDefault row.orgId row.type now keep).connectors)
    (hclash : clashes r row = true) :
    ∃ r₀ ∈ db.connectors, r.id = r₀.id ∧ r₀.orgId = row.orgId ∧ r₀.type = row.type ∧
      (r₀.name = row.name ∨ keep r₀.id = true) := by
  obtain ⟨r₀, hr₀, hid, horg, htype, hname, hdef⟩ := mem_yielding hr
  simp only [clashes, decide_eq_true_eq] at hclash
  obtain ⟨horg', htype', hcols⟩ := hclash
  have horg₀ := horg.symm.trans horg'
  have htype₀ := htype.symm.trans htype'
  refine ⟨r₀, hr₀, hid, horg₀, htype₀, ?_⟩
  rcases hcols with hname' | ⟨hd, hd'⟩
  · exact Or.inl (hname.symm.trans hname')
  · apply Or.inr
    by_contra hkeep
    exact hdef hd' hd ⟨horg₀, htype₀, eq_false_of_ne_true hkeep⟩

theorem clash_of_name {r₀ : ConnectorRow} (hr₀ : r₀ ∈ db.connectors)
    (hkey : r₀.orgId = row.orgId ∧ r₀.type = row.type ∧ r₀.name = row.name) :
    ∃ r ∈ (db.yielding isDefault orgId type now keep).connectors, r.id = r₀.id ∧
      clashes r row = true := by
  obtain ⟨r, hr, hid, horg, htype, hname⟩ := mem_yielding_of_mem hr₀
  refine ⟨r, hr, hid, ?_⟩
  simp [clashes, horg, htype, hname, hkey]

/-- **The tables take a connector or refuse it.** -/
theorem insert_takes_iff {t : List String × List String}
    (ht : connectorTemplate row.type = some t) :
    (∃ db', (db.yielding row.isDefault row.orgId row.type now fun _ => false).insert row t.2 =
      .ok db') ↔ db.Takes row.id row.orgId row.type row.name := by
  constructor
  · rintro ⟨db', h⟩
    obtain ⟨hno, hcaps, horg, -⟩ := insert_ok h
    rw [orgs_yielding] at horg
    rw [capabilities_yielding] at hcaps
    refine ⟨⟨t, ht, hcaps⟩, horg, fun r hr hid => ?_, fun r hr hkey => ?_⟩
    · obtain ⟨r', hr', hid', -⟩ := mem_yielding_of_mem hr
      exact (hno r' hr').1 (hid'.trans hid)
    · obtain ⟨r', hr', -, hclash⟩ := clash_of_name hr hkey
      exact (hno r' hr').2 hclash
  · intro h
    obtain ⟨t', ht', hcaps⟩ := h.template
    cases ht.symm.trans ht'
    have hrows : ¬ (db.yielding row.isDefault row.orgId row.type now fun _ => false).connectors.any
        (fun r => decide (r.id = row.id ∨ clashes r row = true)) = true := by
      intro hany
      obtain ⟨r, hr, hused⟩ := List.any_eq_true.mp hany
      rcases of_decide_eq_true hused with hsame | hclash
      · obtain ⟨r₀, hr₀, hid, -⟩ := mem_yielding hr
        exact h.id r₀ hr₀ (hid.symm.trans hsame)
      · obtain ⟨r₀, hr₀, -, horg, htype, hcols⟩ := clash_before hr hclash
        exact h.name r₀ hr₀ ⟨horg, htype, hcols.resolve_right Bool.false_ne_true⟩
    have hused : ¬ t.2.any (fun c => decide ((row.id, c) ∈ db.capabilities)) = true := by
      intro hany
      obtain ⟨c, hc, hmem⟩ := List.any_eq_true.mp hany
      exact hcaps c hc (of_decide_eq_true hmem)
    rw [ConnectorDb.insert, orgs_yielding, capabilities_yielding,
      if_neg (not_or.mpr ⟨hrows, hused⟩), if_neg (not_not.mpr h.org)]
    exact ⟨_, rfl⟩

theorem get_insert {capabilities : List String} (hfree : ∀ r ∈ db.connectors, r.id ≠ row.id)
    (h : db.insert row capabilities = .ok db') :
    db'.get row.id row.orgId = some (db'.rowToConnector row) := by
  obtain ⟨-, -, -, rfl⟩ := insert_ok h
  have hnone : db.connectors.find? (fun r => decide (r.id = row.id ∧ r.orgId = row.orgId)) =
      none := by
    apply List.find?_eq_none.mpr
    intro r hr
    simp [hfree r hr]
  simp only [ConnectorDb.get, ConnectorDb.find, List.find?_append, hnone]
  simp

end ConnectorDb

/-! ## A create -/

section Create

variable {db : ConnectorDb} {id now orgId : String} {input : NewConnector}

def newRow (id now : String) (input : NewConnector) : ConnectorRow where
  id := id
  orgId := input.orgId
  type := input.type
  name := input.name
  config := input.config.getD []
  status := input.status.getD .draft
  lastVerifiedAt := input.lastVerifiedAt
  lastVerifyError := input.lastVerifyError
  isDefault := input.isDefault.getD false
  createdBy := input.createdBy
  createdAt := now
  updatedAt := now

def beforeInsert (now : String) (input : NewConnector) (db : ConnectorDb) : ConnectorDb :=
  db.yielding (input.isDefault.getD false) input.orgId input.type now fun _ => false

theorem run_create_error {uid e : String} {t : List String × List String}
    (ht : connectorTemplate input.type = some t) (hid : input.id = some id)
    (h : (beforeInsert now input db).insert (newRow id now input) t.2 = .error e) :
    (ConnectorRepository.create uid now input).run db = (.error e, db) := by
  simp only [beforeInsert, ConnectorDb.yielding, newRow] at h
  simp only [ConnectorRepository.create, ht, hid, Option.getD_some, withTransaction, Prog.run_bind,
    Prog.run_attempt, h]

theorem run_create_ok {uid : String} {t : List String × List String} {db' : ConnectorDb}
    (ht : connectorTemplate input.type = some t) (hid : input.id = some id)
    (h : (beforeInsert now input db).insert (newRow id now input) t.2 = .ok db')
    (hget : db'.get id input.orgId = some (db'.rowToConnector (newRow id now input))) :
    (ConnectorRepository.create uid now input).run db =
      (.ok (db'.rowToConnector (newRow id now input)), db') := by
  simp only [beforeInsert, ConnectorDb.yielding, newRow] at h
  simp only [ConnectorRepository.create, ht, hid, Option.getD_some, withTransaction, Prog.run_bind,
    Prog.run_attempt, h, Prog.run_read, hget, Prog.run_pure]

theorem run_create_refused {uid : String} (hid : input.id = some id)
    (h : ¬ db.Takes id input.orgId input.type input.name) (config config' : Json.Record) :
    (ConnectorRepository.create uid now { input with config := some config }).run db =
      (ConnectorRepository.create uid now { input with config := some config' }).run db := by
  cases ht : connectorTemplate input.type with
  | none => simp only [ConnectorRepository.create, ht, Prog.run_throw]
  | some t =>
    let row := newRow id now { input with config := some config }
    cases hins : (beforeInsert now input db).insert row t.2 with
    | ok db' => exact absurd ((@ConnectorDb.insert_takes_iff db row now t ht).mp ⟨db', hins⟩) h
    | error e =>
      have hins' := ConnectorDb.insert_error_config config' hins
      have hrun := @run_create_error db id now { input with config := some config } uid e t
        ht hid hins
      have hrun' := @run_create_error db id now { input with config := some config' } uid e t
        ht hid hins'
      rw [hrun, hrun']

def CreateAccepted (req : ConnectorRequest) (body : ConnectorBody) (orgId : String)
    (db : ConnectorDb) : Prop :=
  ∃ type name, present body.type = some type ∧ present body.name = some name ∧
    db.Takes (body.id.getD req.randomUUID) orgId type name

def requested (req : ConnectorRequest) (body : ConnectorBody) (orgId type name : String)
    (config : Json.Record) : NewConnector where
  id := some (body.id.getD req.randomUUID)
  orgId := orgId
  type := type
  name := name
  config := some config
  isDefault := some (body.isDefault.getD false)
  createdBy := userIdFromReq req.caller

variable {req : ConnectorRequest} {body : ConnectorBody} {config : Json.Record}

theorem eq_of_present {v : Option String} {s : String} (h : present v = some s) : v = some s :=
  (Option.filter_eq_some_iff.mp h).1

/-- **A create that is accepted answers with the config it was given.** -/
theorem createRoute_accepted (h : CreateAccepted req body orgId db)
    (hconfig : body.config = some config) :
    ∃ connector db', (createRoute req body orgId).run db = (.ok (.connector 201 connector), db') ∧
      connector.config = config := by
  obtain ⟨type, name, htype, hname, htakes⟩ := h
  obtain ⟨t, ht, -⟩ := htakes.template
  let input := requested req body orgId type name config
  let row := newRow (body.id.getD req.randomUUID) req.now input
  have htakesRow : db.Takes row.id row.orgId row.type row.name := htakes
  obtain ⟨db', hins⟩ := (@ConnectorDb.insert_takes_iff db row req.now t ht).mpr htakesRow
  have hfree : ∀ r ∈ (beforeInsert req.now input db).connectors, r.id ≠ row.id := by
    intro r hr
    obtain ⟨r₀, hr₀, hid, -⟩ := ConnectorDb.mem_yielding hr
    rw [hid]
    exact htakes.id r₀ hr₀
  have hrun := @run_create_ok db _ req.now input "" t db' ht rfl hins
    (ConnectorDb.get_insert hfree hins)
  have hnone : ∀ id, present body.id = some id → db.get id orgId = none := by
    intro id hid
    have hbody := eq_of_present hid
    have hfind : db.find id orgId = none := by
      apply List.find?_eq_none.mpr
      intro r hr
      have hne := htakes.id r hr
      rw [hbody] at hne
      simp_all
    rw [ConnectorDb.get, hfind, Option.map_none]
  refine ⟨maskForWire (db'.rowToConnector row), db', ?_, rfl⟩
  simp only [input, requested] at hrun
  unfold createRoute ConnectorService.create
  simp only [htype, hname, hconfig]
  cases hid : present body.id with
  | none =>
    simp only [Prog.run_bind, Prog.run_pure, hrun]
    rfl
  | some id =>
    simp only [Prog.run_bind, Prog.run_read, hnone id hid, hrun, Prog.run_pure]
    rfl

/-- **A create that is refused is refused alike, whatever the config.** -/
theorem createRoute_refused (h : ¬ CreateAccepted req body orgId db)
    (config config' : Json.Record) :
    (createRoute req { body with config := some config } orgId).run db =
      (createRoute req { body with config := some config' } orgId).run db := by
  unfold createRoute ConnectorService.create
  cases htype : present body.type with
  | none => simp only
  | some type =>
  cases hname : present body.name with
  | none => simp only
  | some name =>
  have hmade : (ConnectorRepository.create "" req.now
        (requested req body orgId type name config)).run db =
      (ConnectorRepository.create "" req.now (requested req body orgId type name config')).run db :=
    @run_create_refused db _ req.now ⟨_, orgId, type, name, none, none, none, none, _, _⟩ "" rfl
      (fun htakes => h ⟨type, name, htype, hname, htakes⟩) config config'
  simp only [requested] at hmade
  simp only
  cases hid : present body.id with
  | none => simp only [Prog.run_bind, Prog.run_pure, hmade]
  | some id =>
    cases hget : db.get id orgId with
    | none => simp only [Prog.run_bind, Prog.run_read, hget, hmade]
    | some _ => simp only [Prog.run_bind, Prog.run_read, hget, Prog.run_pure]

end Create

/-! ## An update -/

section Update

variable {db db' : ConnectorDb} {row : ConnectorRow} {id now orgId : String}
  {patch : ConnectorPatch} {body : ConnectorBody} {req : ConnectorRequest} {config : Json.Record}

/-- The connector as the update will leave its `isDefault`. -/
def intended (existing : Connector) (patch : ConnectorPatch) : Connector :=
  { existing with isDefault := patch.isDefault.getD existing.isDefault }

theorem save_eq (existing : Connector) :
    save now id existing patch orgId db =
      (cleared now id (intended existing patch) orgId db).overwrite id orgId
        (merged existing patch now) := rfl

theorem overwrite_error_config {existing : Connector} {e : String} (config : Json.Record)
    (h : db.overwrite id orgId (merged existing patch now) = .error e) :
    db.overwrite id orgId (merged existing { patch with config := some config } now) =
      .error e := by
  have hclash : ∀ r row : ConnectorRow,
      ConnectorDb.clashes r (merged existing { patch with config := some config } now row) =
        ConnectorDb.clashes r (merged existing patch now row) := fun _ _ => rfl
  unfold ConnectorDb.overwrite at h ⊢
  simp only [hclash]
  split at h
  · cases h
  · split at h
    · rename_i hany
      cases h
      exact if_pos hany
    · cases h

theorem save_ok (hfind : db.find id orgId = some row)
    (h : save now id (db.rowToConnector row) patch orgId db = .ok db') :
    (∀ r ∈ (cleared now id (intended (db.rowToConnector row) patch) orgId db).connectors,
      r.id ≠ id → ¬ ConnectorDb.clashes r (merged (db.rowToConnector row) patch now row) = true) ∧
    db' = { cleared now id (intended (db.rowToConnector row) patch) orgId db with
      connectors := (cleared now id (intended (db.rowToConnector row) patch) orgId
        db).connectors.map fun r =>
          if r.id = id ∧ r.orgId = orgId then merged (db.rowToConnector row) patch now r else r } := by
  rw [save_eq] at h
  rcases ConnectorDb.overwrite_ok h with ⟨hnone, -⟩ | ⟨row', hrow', hfree, hdb⟩
  · cases hnone.symm.trans (find_cleared.trans hfind)
  · cases (find_cleared.trans hfind).symm.trans hrow'
    exact ⟨hfree, hdb⟩

/-- **An update is saved, or its new name is taken.** -/
theorem save_ok_iff (hfind : db.find id orgId = some row) :
    (∃ db', save now id (db.rowToConnector row) patch orgId db = .ok db') ↔
      db.Free row (patch.name.getD row.name) := by
  obtain ⟨-, hrowid, hroworg⟩ := ConnectorDb.find_spec hfind
  subst hrowid
  subst hroworg
  let set := merged (db.rowToConnector row) patch now row
  constructor
  · rintro ⟨db', h⟩ r hr hid hkey
    obtain ⟨r', hr', hid', hclash⟩ :=
      @ConnectorDb.clash_of_name db set row.orgId row.type now set.isDefault (· = row.id) r hr hkey
    refine (save_ok hfind h).1 r' hr' ?_ hclash
    rw [hid']
    exact hid
  · intro hfree
    rw [save_eq, ConnectorDb.overwrite, find_cleared, hfind]
    refine ⟨_, if_neg ?_⟩
    intro hany
    obtain ⟨r, hr, hused⟩ := List.any_eq_true.mp hany
    obtain ⟨hne, hclash⟩ := of_decide_eq_true hused
    obtain ⟨r₀, hr₀, hid, horg, htype, hcols⟩ :=
      @ConnectorDb.clash_before db set now (· = row.id) r hr hclash
    have hne₀ : r₀.id ≠ row.id := by
      rw [← hid]
      exact hne
    refine hfree r₀ hr₀ hne₀ ⟨horg, htype, hcols.resolve_right fun hkeep => ?_⟩
    exact hne₀ (of_decide_eq_true hkeep)

theorem get_save (hfind : db.find id orgId = some row) (hconfig : patch.config = some config)
    (h : save now id (db.rowToConnector row) patch orgId db = .ok db') :
    ∃ saved, db'.get id orgId = some saved ∧ saved.config = config := by
  obtain ⟨-, hrowid, hroworg⟩ := ConnectorDb.find_spec hfind
  obtain ⟨-, rfl⟩ := save_ok hfind h
  let set := merged (db.rowToConnector row) patch now
  have hkeys : (fun r : ConnectorRow => decide (r.id = id ∧ r.orgId = orgId)) ∘
      (fun r => if r.id = id ∧ r.orgId = orgId then set r else r) =
      fun r => decide (r.id = id ∧ r.orgId = orgId) := by
    funext r
    simp only [Function.comp]
    split <;> rfl
  have hcleared : (cleared now id (intended (db.rowToConnector row) patch) orgId
      db).connectors.find? (fun r => decide (r.id = id ∧ r.orgId = orgId)) = some row :=
    find_cleared.trans hfind
  simp only [ConnectorDb.get, ConnectorDb.find, List.find?_map]
  rw [hkeys, hcleared]
  refine ⟨_, rfl, ?_⟩
  simp [ConnectorDb.rowToConnector, merged, hrowid, hroworg, hconfig]

def UpdateAccepted (id : String) (body : ConnectorBody) (orgId : String)
    (db : ConnectorDb) : Prop :=
  ∃ row, db.find id orgId = some row ∧ db.Free row (body.name.getD row.name)

/-- **An update that is accepted answers with the config it was given.** -/
theorem updateRoute_accepted (h : UpdateAccepted id body orgId db)
    (hconfig : body.config = some config) :
    ∃ connector db', (updateRoute req id body orgId).run db =
      (.ok (.connector 200 connector), db') ∧ connector.config = config := by
  obtain ⟨row, hfind, hfree⟩ := h
  obtain ⟨db', hsave⟩ := (@save_ok_iff db row id req.now orgId body.patch hfind).mpr hfree
  obtain ⟨saved, hget, hsaved⟩ := get_save hfind hconfig hsave
  have hread : db.get id orgId = some (db.rowToConnector row) := by
    rw [ConnectorDb.get, hfind, Option.map_some]
  refine ⟨maskForWire saved, db', ?_, hsaved⟩
  simp only [updateRoute, ConnectorRepository.update, updateRead, withTransaction, Prog.run_bind,
    Prog.run_read, hread, Prog.run_attempt, hsave, hget, Prog.run_pure]

/-- **An update that is refused is refused alike, whatever the config.** -/
theorem updateRoute_refused (h : ¬ UpdateAccepted id body orgId db)
    (config config' : Json.Record) :
    (updateRoute req id { body with config := some config } orgId).run db =
      (updateRoute req id { body with config := some config' } orgId).run db := by
  cases hfind : db.find id orgId with
  | none =>
    have hread : db.get id orgId = none := by
      rw [ConnectorDb.get, hfind, Option.map_none]
    simp only [updateRoute, ConnectorRepository.update, Prog.run_bind, Prog.run_read, hread,
      Prog.run_pure]
  | some row =>
    have hread : db.get id orgId = some (db.rowToConnector row) := by
      rw [ConnectorDb.get, hfind, Option.map_some]
    let patch := ConnectorBody.patch { body with config := some config }
    let patch' := ConnectorBody.patch { body with config := some config' }
    cases hsave : save req.now id (db.rowToConnector row) patch orgId db with
    | ok db' =>
      have hfree := (save_ok_iff hfind).mp ⟨db', hsave⟩
      exact absurd ⟨row, hfind, hfree⟩ h
    | error e =>
      have hsave' : save req.now id (db.rowToConnector row) patch' orgId db = .error e :=
        overwrite_error_config config' hsave
      simp only [updateRoute, ConnectorRepository.update, updateRead, withTransaction,
        Prog.run_bind, Prog.run_read, hread, Prog.run_attempt]
      rw [show save req.now id (db.rowToConnector row) _ orgId db = .error e from hsave,
        show save req.now id (db.rowToConnector row) _ orgId db = .error e from hsave']

end Update

/-! ## A secret -/

section Secret

variable {V : Type} {secrets : Option (SecretStore V)} {s : ConnectorState V}
  {req : ConnectorRequest} {id orgId now plaintext : String} {secret : Option String}

theorem putSecret_ok {db : ConnectorDb} {row : ConnectorRow} (hfind : db.find id orgId = some row)
    (ciphertext : ByteArray) (keyVersion : ℕ) :
    ∃ db', db.putSecret now id ciphertext keyVersion = .ok db' ∧ (db'.getSecret id).isSome := by
  obtain ⟨hrow, hid, -⟩ := ConnectorDb.find_spec hfind
  have hkey : ¬ id ∉ db.connectors.map (·.id) := by
    rw [not_not, ← hid]
    exact List.mem_map_of_mem hrow
  rw [ConnectorDb.putSecret, if_neg hkey]
  split
  · rename_i hsome
    refine ⟨_, rfl, ?_⟩
    obtain ⟨old, hold, hkept⟩ := List.find?_isSome.mp hsome
    apply List.find?_isSome.mpr
    refine ⟨_, List.mem_map_of_mem hold, ?_⟩
    rw [if_pos (of_decide_eq_true hkept)]
    exact hkept
  · refine ⟨_, rfl, ?_⟩
    apply List.find?_isSome.mpr
    exact ⟨_, List.mem_append_right _ (List.mem_singleton_self _), decide_eq_true rfl⟩

theorem run_putSecret_missing (hget : s.db.get id orgId = none) :
    (ConnectorService.putSecret secrets now orgId id plaintext).run s = (.ok false, s) := by
  simp [ConnectorService.putSecret, Prog.run_bind, Prog.run_zoom, hget]

theorem run_putSecret_store (put : SecretStore V) :
    ∃ r v, (ConnectorService.putSecret (some put) now orgId id plaintext).run s =
      (r, { s with vault := v }) := by
  cases hget : s.db.get id orgId with
  | none => exact ⟨_, s.vault, run_putSecret_missing hget⟩
  | some connector =>
    simp only [ConnectorService.putSecret, Prog.run_bind, Prog.run_zoom, Prog.run_read, hget,
      ConnectorState.tables_get, ConnectorState.tables_set, Prog.run_attempt,
      ConnectorState.store_get, ConnectorState.store_set]
    cases (put id orgId plaintext s.vault).1 <;> exact ⟨_, _, rfl⟩

theorem run_putSecret_tables {row : ConnectorRow} (hfind : s.db.find id orgId = some row) :
    ∃ db', (ConnectorService.putSecret none now orgId id plaintext).run s =
      (.ok true, { s with db := db'
                          written := s.written ++ [(plaintext, plaintext.toUTF8)] }) := by
  have hget : s.db.get id orgId = some (s.db.rowToConnector row) := by
    rw [ConnectorDb.get, hfind, Option.map_some]
  obtain ⟨db', hput, hsome⟩ := @putSecret_ok id orgId now s.db row hfind plaintext.toUTF8 1
  obtain ⟨saved, hsaved⟩ := Option.isSome_iff_exists.mp hsome
  refine ⟨db', ?_⟩
  simp only [ConnectorService.putSecret, ConnectorRepository.upsertSecret, withTransaction,
    Prog.run_bind, Prog.run_zoom, Prog.run_read, hget, ConnectorState.tables_get,
    ConnectorState.tables_set, Prog.run_attempt, hput, hsaved, Prog.run_pure]
  rfl

def Withheld (secrets : Option (SecretStore V)) (id : String) (secret : Option String)
    (orgId : String) (db : ConnectorDb) : Prop :=
  secrets.isSome = true ∨ present secret = none ∨ db.find id orgId = none

theorem secretRoute_withheld (h : Withheld secrets id secret orgId s.db) :
    ∃ r v, (secretRoute secrets req id secret orgId).run s = (r, { s with vault := v }) := by
  unfold secretRoute
  cases hsecret : present secret with
  | none => exact ⟨_, s.vault, rfl⟩
  | some plaintext =>
    have hstore : ∃ r v, (ConnectorService.putSecret secrets req.now orgId id plaintext).run s =
        (r, { s with vault := v }) := by
      rcases h with hsome | hnone | hfind
      · obtain ⟨put, rfl⟩ := Option.isSome_iff_exists.mp hsome
        exact run_putSecret_store put
      · cases hsecret.symm.trans hnone
      · refine ⟨_, s.vault, run_putSecret_missing ?_⟩
        rw [ConnectorDb.get, hfind, Option.map_none]
    obtain ⟨r, v, hrun⟩ := hstore
    simp only [Prog.run_bind, hrun]
    rcases r with e | _ | _ <;> exact ⟨_, v, rfl⟩

/-- **A secret that is not withheld is stored as the bytes of its text.** -/
theorem secretRoute_stores (h : ¬ Withheld secrets id secret orgId s.db) :
    ∃ plaintext r db', (secretRoute secrets req id secret orgId).run s =
      (r, { s with db := db'
                   written := s.written ++ [(plaintext, plaintext.toUTF8)] }) := by
  obtain ⟨hsome, hpresent, hfind⟩ := not_or.mp h |>.imp_right not_or.mp
  obtain ⟨plaintext, hsecret⟩ := Option.ne_none_iff_exists'.mp hpresent
  obtain ⟨row, hrow⟩ := Option.ne_none_iff_exists'.mp hfind
  obtain rfl : secrets = none := Option.not_isSome_iff_eq_none.mp hsome
  obtain ⟨db', hrun⟩ := @run_putSecret_tables V s id orgId req.now plaintext row hrow
  refine ⟨plaintext, .ok .done, db', ?_⟩
  unfold secretRoute
  simp only [hsecret, Prog.run_bind, hrun]
  rfl

end Secret

/-! ## Two runs -/

def withKubeconfig (config : Json.Record) (kubeconfig : String) : Json.Record :=
  config.map fun f => if f.1 = "kubeconfig" then (f.1, .str kubeconfig) else f

inductive AlikeRoutes : Route → Route → Prop where
  | same (route : Route) : AlikeRoutes route route
  | create (body : ConnectorBody) (config : Json.Record) {k k' : String} (hk : k ≠ "")
      (hk' : k' ≠ "") :
      AlikeRoutes (.table (.create { body with config := some (withKubeconfig config k) }))
        (.table (.create { body with config := some (withKubeconfig config k') }))
  | update (id : String) (body : ConnectorBody) (config : Json.Record) {k k' : String}
      (hk : k ≠ "") (hk' : k' ≠ "") :
      AlikeRoutes (.table (.update id { body with config := some (withKubeconfig config k) }))
        (.table (.update id { body with config := some (withKubeconfig config k') }))
  | secret (id : String) {p p' : String} (hp : p ≠ "") (hp' : p' ≠ "") :
      AlikeRoutes (.secret id (some p)) (.secret id (some p'))

structure TwinRequest where
  first : ConnectorRequest
  route : Route                               -- of the second run
  alike : AlikeRoutes first.route route

def TwinRequest.second (r : TwinRequest) : ConnectorRequest := { r.first with route := r.route }

def Route.observed : Route → Bool
  | .table (.list _ _ _) => true
  | .table (.create _) => true
  | .table (.get _) => true
  | .table (.update _ _) => true
  | _ => false

section Runs

variable {V : Type} (secrets : Option (SecretStore V))

def seen : List ConnectorRequest → ConnectorState V → List (Except String Reply)
  | [], _ => []
  | req :: reqs, s =>
    (if req.route.observed then [((serve secrets req).run s).1] else []) ++
      seen reqs ((serve secrets req).run s).2

def NoPlaintext (s : ConnectorState V) : Prop :=
  ∀ w ∈ s.written, w.2 ≠ w.1.toUTF8

structure KeepsSecrets (rs : List TwinRequest) (s : ConnectorState V) : Prop where
  alike : seen secrets (rs.map (·.first)) s = seen secrets (rs.map (·.second)) s
  first : NoPlaintext (serveAll (serve secrets) (rs.map (·.first)) s)
  second : NoPlaintext (serveAll (serve secrets) (rs.map (·.second)) s)

def DiscreetRoutes (req : ConnectorRequest) (orgId : String) (db : ConnectorDb) :
    Route → Route → Prop
  | .table (.create body), .table (.create body') =>
    body.config = body'.config ∨ ¬ CreateAccepted req body orgId db
  | .table (.update id body), .table (.update _ body') =>
    body.config = body'.config ∨ ¬ UpdateAccepted id body orgId db
  | .secret id secret, _ => Withheld secrets id secret orgId db
  | _, _ => True

/-- Where the two runs bring different configs the request is refused, and a secret that is not
refused goes to a secret store. -/
def Discreet (r : TwinRequest) (s : ConnectorState V) : Prop :=
  ∀ orgId, r.first.admitted = .ok orgId →
    DiscreetRoutes secrets r.first orgId s.db r.first.route r.route

variable {secrets} {r : TwinRequest} {s s₁ s₂ : ConnectorState V} {req : ConnectorRequest}
  {route route' : Route} {orgId : String}

/-! ## One request -/

theorem AlikeRoutes.evaluator (h : AlikeRoutes route route') :
    route'.evaluator = route.evaluator := by
  cases h <;> rfl

theorem AlikeRoutes.observed (h : AlikeRoutes route route') :
    route'.observed = route.observed := by
  cases h <;> rfl

theorem TwinRequest.admitted_second : r.second.admitted = r.first.admitted := by
  unfold ConnectorRequest.admitted
  rw [show r.second.route.evaluator = r.first.route.evaluator from r.alike.evaluator]
  rfl

structure Even (s₁ s₂ : ConnectorState V) : Prop where
  db : s₁.db = s₂.db
  first : NoPlaintext s₁
  second : NoPlaintext s₂

structure Agree (observed : Bool) (x y : Except String Reply × ConnectorState V) : Prop where
  reply : observed = true → x.1 = y.1
  even : Even x.2 y.2

theorem run_table (t : TableRoute) :
    (Route.serve secrets req orgId (.table t)).run s =
      (((t.serve req orgId).run s.db).1, { s with db := ((t.serve req orgId).run s.db).2 }) :=
  Prog.run_zoom _

theorem Even.table {t t' : TableRoute} {observed : Bool} (he : Even s₁ s₂)
    (hrun : (t.serve req orgId).run s₁.db = (t'.serve req orgId).run s₁.db) :
    Agree observed ((Route.serve secrets req orgId (.table t)).run s₁)
      ((Route.serve secrets req orgId (.table t')).run s₂) := by
  rw [run_table, run_table, ← he.db, hrun]
  exact ⟨fun _ => rfl, rfl, he.first, he.second⟩

theorem Even.withheld {id : String} {secret secret' : Option String} (he : Even s₁ s₂)
    (h : Withheld secrets id secret orgId s₁.db) (h' : Withheld secrets id secret' orgId s₂.db) :
    Agree false ((Route.serve secrets req orgId (.secret id secret)).run s₁)
      ((Route.serve secrets req orgId (.secret id secret')).run s₂) := by
  obtain ⟨r₁, v₁, hrun₁⟩ := @secretRoute_withheld V secrets s₁ req id orgId secret h
  obtain ⟨r₂, v₂, hrun₂⟩ := @secretRoute_withheld V secrets s₂ req id orgId secret' h'
  simp only [Route.serve, hrun₁, hrun₂]
  exact ⟨fun hobs => (Bool.false_ne_true hobs).elim, he.db, he.first, he.second⟩

/-- **Two requests that bring nothing agree.** -/
theorem Even.discreet (he : Even s₁ s₂) (h : AlikeRoutes route route')
    (hd : DiscreetRoutes secrets req orgId s₁.db route route') :
    Agree route.observed ((route.serve secrets req orgId).run s₁)
      ((route'.serve secrets req orgId).run s₂) := by
  cases h with
  | same route =>
    cases route with
    | table t => exact he.table rfl
    | secret id secret =>
      refine he.withheld hd ?_
      rw [← he.db]
      exact hd
  | secret id hp hp' =>
    refine he.withheld hd ?_
    -- a text that is not empty is withheld like any other
    rw [← he.db]
    refine hd.imp_right (Or.imp_left fun hnone => ?_)
    exact absurd (Option.filter_eq_none_iff.mp hnone _ rfl) (not_not.mpr (decide_eq_true hp))
  | create body config hk hk' =>
    apply he.table
    rcases hd with hsame | hrefused
    · simp only [Option.some.injEq] at hsame
      rw [hsame]
    · exact createRoute_refused hrefused _ _
  | update id body config hk hk' =>
    apply he.table
    rcases hd with hsame | hrefused
    · simp only [Option.some.injEq] at hsame
      rw [hsame]
    · exact updateRoute_refused hrefused _ _

/-- **A request that brings something shows it, or stores it.** -/
theorem exposed (h : AlikeRoutes route route')
    (hd : ¬ DiscreetRoutes secrets req orgId s₁.db route route') (hdb : s₁.db = s₂.db) :
    route.observed = true ∧ ((route.serve secrets req orgId).run s₁).1 ≠
        ((route'.serve secrets req orgId).run s₂).1 ∨
      ∃ plaintext, (plaintext, plaintext.toUTF8) ∈
        ((route.serve secrets req orgId).run s₁).2.written := by
  have hstores : ∀ id secret, ¬ Withheld secrets id secret orgId s₁.db → ∃ plaintext,
      (plaintext, plaintext.toUTF8) ∈
        ((Route.serve secrets req orgId (.secret id secret)).run s₁).2.written := by
    intro id secret hw
    obtain ⟨plaintext, r, db', hrun⟩ := @secretRoute_stores V secrets s₁ req id orgId secret hw
    refine ⟨plaintext, ?_⟩
    rw [Route.serve, hrun]
    simp
  cases h with
  | same route =>
    cases route with
    | secret id secret => exact Or.inr (hstores id secret hd)
    | table t =>
      apply absurd ?_ hd
      cases t <;> simp [DiscreetRoutes]
  | secret id hp hp' => exact Or.inr (hstores id _ hd)
  | @create body config k k' _ _ =>
    obtain ⟨hne, hacc⟩ := not_or.mp hd
    have hacc := not_not.mp hacc
    refine Or.inl ⟨rfl, fun heq => hne ?_⟩
    obtain ⟨c, db', hrun, hc⟩ := createRoute_accepted hacc rfl
    obtain ⟨c', db'', hrun', hc'⟩ := @createRoute_accepted _ _ req
      { body with config := some (withKubeconfig config k') } _ hacc rfl
    rw [run_table, run_table, ← hdb] at heq
    simp only [TableRoute.serve, hrun, hrun', Except.ok.injEq, Reply.connector.injEq,
      true_and] at heq
    exact congrArg some (hc.symm.trans ((congrArg (·.config) heq).trans hc'))
  | @update id body config k k' _ _ =>
    obtain ⟨hne, hacc⟩ := not_or.mp hd
    have hacc := not_not.mp hacc
    refine Or.inl ⟨rfl, fun heq => hne ?_⟩
    obtain ⟨c, db', hrun, hc⟩ := @updateRoute_accepted _ _ _ _ req _ hacc rfl
    obtain ⟨c', db'', hrun', hc'⟩ := @updateRoute_accepted _ _ _
      { body with config := some (withKubeconfig config k') } req _ hacc rfl
    rw [run_table, run_table, ← hdb] at heq
    simp only [TableRoute.serve, hrun, hrun', Except.ok.injEq, Reply.connector.injEq,
      true_and] at heq
    exact congrArg some (hc.symm.trans ((congrArg (·.config) heq).trans hc'))

theorem serve_second (h : r.first.admitted = .ok orgId) :
    serve secrets r.second = r.route.serve secrets r.first orgId := by
  unfold serve
  rw [r.admitted_second, h]
  change Route.serve secrets r.second orgId r.route = _
  cases r.route with
  | table t => cases t <;> rfl
  | secret id secret => rfl

theorem serve_first (h : r.first.admitted = .ok orgId) :
    serve secrets r.first = r.first.route.serve secrets r.first orgId := by
  rw [serve, h]

theorem serve_refused {refusal : Reply} (h : req.admitted = .error refusal) :
    (serve secrets req).run s = (.ok refusal, s) := by
  rw [serve, h, Prog.run_pure]

theorem mem_written_serve {w : String × ByteArray} (h : w ∈ s.written) :
    w ∈ ((serve secrets req).run s).2.written := by
  cases hadm : req.admitted with
  | error refusal =>
    rw [serve_refused hadm]
    exact h
  | ok orgId =>
    rw [serve, hadm]
    simp only
    cases req.route with
    | table t =>
      rw [run_table]
      exact h
    | secret id secret =>
      by_cases hw : Withheld secrets id secret orgId s.db
      · obtain ⟨r, v, hrun⟩ := @secretRoute_withheld V secrets s req id orgId secret hw
        rw [Route.serve, hrun]
        exact h
      · obtain ⟨p, r, db', hrun⟩ := @secretRoute_stores V secrets s req id orgId secret hw
        rw [Route.serve, hrun]
        exact List.mem_append_left _ h

theorem mem_written_serveAll {w : String × ByteArray} (reqs : List ConnectorRequest) :
    ∀ {s : ConnectorState V}, w ∈ s.written → w ∈ (serveAll (serve secrets) reqs s).written := by
  induction reqs with
  | nil => exact fun h => h
  | cons req reqs ih => exact fun h => ih (mem_written_serve h)

theorem Even.serve (he : Even s₁ s₂) (hd : Discreet secrets r s₁) :
    Agree r.first.route.observed ((serve secrets r.first).run s₁)
      ((serve secrets r.second).run s₂) := by
  cases hadm : r.first.admitted with
  | error refusal =>
    rw [serve_refused hadm, serve_refused (r.admitted_second.trans hadm)]
    exact ⟨fun _ => rfl, he⟩
  | ok orgId =>
    rw [serve_first hadm, serve_second hadm]
    exact he.discreet r.alike (hd orgId hadm)

theorem shown_of_not_discreet (hdb : s₁.db = s₂.db) (hd : ¬ Discreet secrets r s₁) :
    r.first.route.observed = true ∧
        ((serve secrets r.first).run s₁).1 ≠ ((serve secrets r.second).run s₂).1 ∨
      ∃ plaintext, (plaintext, plaintext.toUTF8) ∈
        ((serve secrets r.first).run s₁).2.written := by
  simp only [Discreet, not_forall] at hd
  obtain ⟨orgId, hadm, hd⟩ := hd
  rw [serve_first hadm, serve_second hadm]
  exact exposed r.alike hd hdb

/-! ## Runs -/

theorem keepsSecrets_from (rs : List TwinRequest) : ∀ {s₁ s₂ : ConnectorState V}, Even s₁ s₂ →
    ((seen secrets (rs.map (·.first)) s₁ = seen secrets (rs.map (·.second)) s₂ ∧
        NoPlaintext (serveAll (serve secrets) (rs.map (·.first)) s₁) ∧
        NoPlaintext (serveAll (serve secrets) (rs.map (·.second)) s₂)) ↔
      AllServed (fun r : TwinRequest => serve secrets r.first) (Discreet secrets) rs s₁) := by
  induction rs with
  | nil => exact fun he => iff_of_true ⟨rfl, he.first, he.second⟩ trivial
  | cons r rs ih =>
    intro s₁ s₂ he
    have hobs : r.second.route.observed = r.first.route.observed := r.alike.observed
    simp only [List.map_cons, seen, serveAll, AllServed, hobs]
    by_cases hd : Discreet secrets r s₁
    · -- the step is even, and what is seen of it agrees
      obtain ⟨hreply, heven⟩ := he.serve hd
      rw [and_iff_right hd, ← ih heven]
      refine and_congr_left fun _ => ?_
      cases hlook : r.first.route.observed with
      | false => rfl
      | true => simp [hreply hlook]
    · refine iff_of_false ?_ (fun h => hd h.1)
      rintro ⟨hseen, hfirst, -⟩
      rcases shown_of_not_discreet he.db hd with ⟨hlook, hne⟩ | ⟨plaintext, hmem⟩
      · simp only [hlook, if_true, List.cons_append, List.cons.injEq] at hseen
        exact hne hseen.1
      · exact hfirst _ (mem_written_serveAll _ hmem) rfl

/-- **Secrets are kept exactly by discreet requests.** Two runs that differ in secret texts look
alike and store no plaintext if and only if every request that brings a kubeconfig of its own is
refused, and every secret is refused or goes to a secret store. -/
theorem secrets_kept_iff (secrets : Option (SecretStore V)) (db : ConnectorDb) (vault : V)
    (rs : List TwinRequest) :
    KeepsSecrets secrets rs { db := db, vault := vault } ↔
      AllServed (fun r : TwinRequest => serve secrets r.first) (Discreet secrets) rs
        { db := db, vault := vault } := by
  have hnone : NoPlaintext ({ db := db, vault := vault } : ConnectorState V) :=
    fun w hw => (List.not_mem_nil hw).elim
  rw [← keepsSecrets_from rs ⟨rfl, hnone, hnone⟩]
  exact ⟨fun h => ⟨h.alike, h.first, h.second⟩, fun h => ⟨h.1, h.2.1, h.2.2⟩⟩

end Runs

/-! ## The service as it is wired

No secret store is wired, and nothing refuses an admin. -/

def adminCaller : Caller where
  auth := some ⟨"root", "org", .admin, true, none⟩
  evaluate _ _ := .ok true

def clusterBody : ConnectorBody where
  id := some "cluster"
  type := some "kubernetes"
  name := some "cluster"

def clusterTwin : TwinRequest where
  first := ⟨adminCaller, "uuid", "now", .table (.create { clusterBody with
    config := some (withKubeconfig [("kubeconfig", .null)] "alpha") })⟩
  route := .table (.create { clusterBody with
    config := some (withKubeconfig [("kubeconfig", .null)] "bravo") })
  alike := .create clusterBody _ (by decide) (by decide)

def tokenTwin : TwinRequest where
  first := ⟨adminCaller, "uuid", "now", .secret "cluster" (some "token")⟩
  route := .secret "cluster" (some "other")
  alike := .secret "cluster" (by decide) (by decide)

def sameTwin : TwinRequest := ⟨clusterTwin.first, _, .same _⟩

def emptyTables : ConnectorState Unit where
  db := { orgs := ["org"] }
  vault := ()

def shownKubeconfig : Except String Reply → Option String
  | .ok (.connector _ connector) => (Json.field connector.config "kubeconfig").bind Json.asString
  | _ => none

/-- The create answers with the kubeconfig, and the token is stored as it is. -/
theorem secrets_shown_and_stored :
    ¬ KeepsSecrets none [clusterTwin] emptyTables ∧
      ¬ KeepsSecrets none [sameTwin, tokenTwin] emptyTables := by
  constructor
  · intro h
    have hshown := congrArg (List.map shownKubeconfig) h.alike
    have hfirst : (seen none [clusterTwin.first] emptyTables).map shownKubeconfig =
        [some "alpha"] := by decide +kernel
    have hsecond : (seen none [clusterTwin.second] emptyTables).map shownKubeconfig =
        [some "bravo"] := by decide +kernel
    have halike : [some "alpha"] = [some "bravo"] := hfirst.symm.trans (hshown.trans hsecond)
    exact absurd halike (by decide)
  · intro h
    have hwritten : (serveAll (serve none) [sameTwin.first, tokenTwin.first]
        emptyTables).written = [("token", "token".toUTF8)] := by rfl
    refine h.first ("token", "token".toUTF8) ?_ rfl
    change _ ∈ (serveAll (serve none) [sameTwin.first, tokenTwin.first] emptyTables).written
    rw [hwritten]
    exact List.mem_singleton_self _

end OpenObs.Connectors
