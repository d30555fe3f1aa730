import OpenObs.Foundation.Parts
import OpenObs.Orgs.Service

/-!
# What a deletion leaves

Every row that goes names the org, or refers to a row that goes; and the users of the org are moved.
-/

namespace OpenObs.Orgs

open OpenObs.Foundation

variable {id : Cell} {t : Table} {db db₁ db₂ : Db} {r q u u₁ u₂ : TableRow}

/-! ## Rows of the org go -/

/-- The row names the org in its `org_id`, or it is the org. -/
def Of (id : Cell) (t : Table) (r : TableRow) : Prop :=
  r .orgId = some id ∨ t = .org ∧ r .id = some id

def Hangs (db db' : Db) (t : Table) (r : TableRow) : Prop :=
  ∃ fk ∈ schema.keys, fk.onDelete = .cascade ∧ fk.child = t ∧
    ∃ q ∈ db fk.parent, q ∉ db' fk.parent ∧ schema.Refers fk r q

/-- A user of another org is left alone; of the others only the org changes, and what tells of the
change. -/
structure Touched (id : Cell) (u u' : TableRow) : Prop where
  other : u .orgId ≠ some id → u' = u
  same : ∀ column, column ≠ .orgId → column ≠ .version → column ≠ .updated → u' column = u column

structure Pruned (id : Cell) (db db' : Db) : Prop where
  old : ∀ t, t ≠ .users → ∀ r ∈ db' t, r ∈ db t
  lost : ∀ t, t ≠ .users → ∀ r ∈ db t, r ∉ db' t → Of id t r ∨ Hangs db db' t r
  hung : ∀ t, ∀ r ∈ db' t, ¬ Hangs db db' t r
  users : List.Forall₂ (Touched id) (db .users) (db' .users)
  audit : db' .auditLog = db .auditLog

def Free (id : Cell) (t : Table) (db : Db) : Prop := ∀ r ∈ db t, r .orgId ≠ some id

theorem Touched.refl : Touched id u u := ⟨fun _ => rfl, fun _ _ _ _ => rfl⟩

theorem Touched.trans (h₁ : Touched id u u₁) (h₂ : Touched id u₁ u₂) : Touched id u u₂ where
  other hother := by
    have hsame := h₁.other hother
    rw [h₂.other (by rw [hsame]; exact hother), hsame]
  same column ho hv hu := (h₂.same column ho hv hu).trans (h₁.same column ho hv hu)

theorem touched_all (us : List TableRow) : List.Forall₂ (Touched id) us us :=
  List.forall₂_same.mpr fun _ _ => .refl

theorem Pruned.refl (db : Db) : Pruned id db db where
  old := fun _ _ _ hr => hr
  lost := fun _ _ _ hr hnot => absurd hr hnot
  hung := fun _ _ _ ⟨_, _, _, _, _, hq, hnot, _⟩ => hnot hq
  users := touched_all _
  audit := rfl

theorem Pruned.trans (h₁ : Pruned id db db₁) (h₂ : Pruned id db₁ db₂) : Pruned id db db₂ where
  old := fun t ht r hr => h₁.old t ht r (h₂.old t ht r hr)
  lost := by
    intro t ht r hr hnot
    by_cases hmid : r ∈ db₁ t
    · refine (h₂.lost t ht r hmid hnot).imp_right ?_
      rintro ⟨fk, hfk, hcascade, hchild, q, hq, hgone, hrefers⟩
      have hparent := (cascade_parent hfk hcascade).1
      exact ⟨fk, hfk, hcascade, hchild, q, h₁.old _ hparent q hq, hgone, hrefers⟩
    · refine (h₁.lost t ht r hr hmid).imp_right ?_
      rintro ⟨fk, hfk, hcascade, hchild, q, hq, hgone, hrefers⟩
      have hparent := (cascade_parent hfk hcascade).1
      exact ⟨fk, hfk, hcascade, hchild, q, hq, fun hq' => hgone (h₂.old _ hparent q hq'), hrefers⟩
  hung := by
    rintro t r hr ⟨fk, hfk, hcascade, hchild, q, hq, hgone, hrefers⟩
    by_cases hmid : q ∈ db₁ fk.parent
    · exact h₂.hung t r hr ⟨fk, hfk, hcascade, hchild, q, hmid, hgone, hrefers⟩
    · have ht : t ≠ .users := hchild ▸ (cascade_child hfk hcascade).1
      exact h₁.hung t r (h₂.old t ht r hr) ⟨fk, hfk, hcascade, hchild, q, hq, hmid, hrefers⟩
  users := by
    have h := h₁.users
    have h' := h₂.users
    generalize db .users = us at h
    generalize db₁ .users = us₁ at h h'
    generalize db₂ .users = us₂ at h'
    induction h generalizing us₂ with
    | nil =>
      cases h'
      exact .nil
    | cons hu _ ih =>
      cases h' with
      | cons hu' hrest => exact .cons (hu.trans hu') (ih _ hrest)
  audit := h₂.audit.trans h₁.audit

theorem Free.pruned (ht : t ≠ .users) (h : Free id t db) (hp : Pruned id db db₁) : Free id t db₁ :=
  fun r hr => h r (hp.old t ht r hr)

/-! ## Statements -/

section Statements

variable {p : Table → TableRow → Bool}

theorem pruned_delete (hp : ∀ t r, p t r = true → Of id t r ∧ t ≠ .users ∧ t ≠ .auditLog)
    (h : schema.delete p db = .ok db₁) : Pruned id db db₁ := by
  have hkept : ∀ t, t = .users ∨ t = .auditLog → ∀ r, schema.gone db p t r = false := by
    intro t ht r
    refine Schema.gone_eq_false (fun fk hfk hcascade hchild => ?_) ?_
    · have hfree := cascade_child hfk hcascade
      rw [hchild] at hfree
      exact ht.elim hfree.1 hfree.2.2
    · rw [← Bool.not_eq_true]
      intro hpt
      exact ht.elim (hp t r hpt).2.1 (hp t r hpt).2.2
  have hhangs : ∀ t, ∀ r ∈ db t, Hangs db db₁ t r → schema.gone db p t r = true := by
    rintro t r hr ⟨fk, hfk, hcascade, rfl, q, hq, hgone, hrefers⟩
    refine Schema.gone_cascade hfk hcascade hq ?_ hrefers
    by_contra hnot
    rw [Bool.not_eq_true] at hnot
    exact hgone ((Schema.mem_delete h).mpr ⟨hq, hnot⟩)
  refine ⟨fun t _ r hr => ((Schema.mem_delete h).mp hr).1, fun t _ r hr hnot => ?_,
    fun t r hr hhang => ?_, ?_, ?_⟩
  · have hgone : schema.gone db p t r = true := by
      by_contra hkeep
      rw [Bool.not_eq_true] at hkeep
      exact hnot ((Schema.mem_delete h).mpr ⟨hr, hkeep⟩)
    rcases Schema.gone_cases hgone with hdirect | ⟨fk, hfk, hchild, hcascade, q, hq, hq', hrefers⟩
    · exact Or.inl (hp t r hdirect).1
    · refine Or.inr ⟨fk, hfk, hcascade, hchild, q, hq, fun hmem => ?_, hrefers⟩
      rw [((Schema.mem_delete h).mp hmem).2] at hq'
      cases hq'
  · obtain ⟨hold, hkeep⟩ := (Schema.mem_delete h).mp hr
    rw [hhangs t r hold hhang] at hkeep
    cases hkeep
  · rw [Schema.delete_eq h fun r _ => hkept _ (Or.inl rfl) r]
    exact touched_all _
  · exact Schema.delete_eq h fun r _ => hkept _ (Or.inr rfl) r

theorem delete_from_ok {value : Cell} (ht : t ≠ .org) :
    ∃ db', schema.delete (rowsWhere t .orgId value) db = .ok db' := by
  refine Schema.delete_ok fun fk hfk hrestrict q _ => ?_
  obtain ⟨-, -, hparent⟩ := restrict_key hfk hrestrict
  rw [hparent]
  refine Schema.gone_eq_false (fun fk' hfk' hcascade => (cascade_child hfk' hcascade).2.1) ?_
  rw [rowsWhere, decide_eq_false (Ne.symm ht), Bool.false_and]

theorem run_execute {statement : Db → Except String Db} : (execute statement).run db =
    match statement db with
    | .ok db' => (.ok (), db')
    | .error e => (.error e, db) := by
  unfold execute
  exact Prog.run_attempt

theorem run_cleanup (ht : t ≠ .org ∧ t ≠ .users ∧ t ≠ .auditLog) (id : Cell) (db : Db) :
    ∃ db', (OrgService.cleanup id t).run db = (.ok (), db') ∧ Pruned id db db' ∧
      Free id t db' ∧ db' .org = db .org := by
  obtain ⟨db', hdelete⟩ := @delete_from_ok t db id ht.1
  refine ⟨db', ?_, ?_, fun r hr horg => ?_, Schema.delete_eq hdelete fun r _ => ?_⟩
  · rw [OrgService.cleanup, Prog.run_tryCatch, deleteFrom, run_execute, hdelete]
  · refine pruned_delete (fun t' r hp => ?_) hdelete
    rw [rowsWhere, Bool.and_eq_true, decide_eq_true_eq, decide_eq_true_eq] at hp
    obtain ⟨rfl, horg⟩ := hp
    exact ⟨Or.inl horg, ht.2⟩
  · obtain ⟨-, hkeep⟩ := (Schema.mem_delete hdelete).mp hr
    rw [Schema.gone_of_mem] at hkeep
    · cases hkeep
    · rw [rowsWhere, decide_eq_true rfl, decide_eq_true horg]
      rfl
  · refine Schema.gone_eq_false (fun fk hfk hcascade => (cascade_child hfk hcascade).2.1) ?_
    rw [rowsWhere, decide_eq_false (Ne.symm ht.1), Bool.false_and]

theorem run_cleanups (id : Cell) (ts : List Table)
    (hts : ∀ t ∈ ts, t ≠ .org ∧ t ≠ .users ∧ t ≠ .auditLog) : ∀ db : Db,
    ∃ db', (ts.forM (OrgService.cleanup id)).run db = (.ok (), db') ∧ Pruned id db db' ∧
      (∀ t ∈ ts, Free id t db') ∧ db' .org = db .org := by
  induction ts with
  | nil => exact fun db => ⟨db, rfl, .refl db, fun t ht => absurd ht List.not_mem_nil, rfl⟩
  | cons t ts ih =>
    intro db
    obtain ⟨db₁, hfirst, hpruned, hfree, horg⟩ := run_cleanup (hts t List.mem_cons_self) id db
    obtain ⟨db₂, hrest, hpruned', hfree', horg'⟩ :=
      ih (fun t' ht' => hts t' (List.mem_cons_of_mem _ ht')) db₁
    refine ⟨db₂, ?_, hpruned.trans hpruned', fun t' ht' => ?_, horg'.trans horg⟩
    · show ((OrgService.cleanup id t >>= fun _ => ts.forM (OrgService.cleanup id)).run db) = _
      rw [Prog.run_bind, hfirst]
      exact hrest
    · rcases List.mem_cons.mp ht' with rfl | ht'
      · exact hfree.pruned (hts _ List.mem_cons_self).2.1 hpruned'
      · exact hfree' t' ht'

theorem cleanups_of_run {ts : List Table} {o : PUnit}
    (hts : ∀ t ∈ ts, t ≠ .org ∧ t ≠ .users ∧ t ≠ .auditLog)
    (h : (ts.forM (OrgService.cleanup id)).run db = (.ok o, db₁)) :
    Pruned id db db₁ ∧ (∀ t ∈ ts, Free id t db₁) ∧ db₁ .org = db .org := by
  obtain ⟨db', hrun, hpruned, hfree, horg⟩ := run_cleanups id ts hts db
  cases hrun.symm.trans h
  exact ⟨hpruned, hfree, horg⟩

end Statements

/-! ## Users that are moved -/

section Users

/-- The primary key of `users`. -/
def Keyed (db : Db) : Prop := ((db .users).map fun u => u .id).Nodup

theorem Pruned.keyed (h : Pruned id db db₁) (hkeyed : Keyed db) : Keyed db₁ := by
  have hids : ∀ {us us' : List TableRow}, List.Forall₂ (Touched id) us us' →
      us'.map (fun u => u .id) = us.map fun u => u .id := by
    intro us us' hall
    induction hall with
    | nil => rfl
    | cons hu _ ih => rw [List.map_cons, List.map_cons, ih, hu.same .id nofun nofun nofun]
  rw [Keyed, hids h.users]
  exact hkeyed

theorem touched_moved {updated : String} {orgId : Cell} (horg : u .orgId = some id) :
    Touched id u (UserRepository.moved updated orgId u) where
  other hother := absurd horg hother
  same := by
    intro column ho hv hu
    cases column <;> first | rfl | exact absurd rfl ho | exact absurd rfl hv | exact absurd rfl hu

theorem pruned_update {userId orgId : Cell} {updated : String} (hkeyed : Keyed db)
    (huser : findById .users userId db = some u) (horg : u .orgId = some id)
    (h : schema.update .users (fun r => decide (r .id = some userId))
      (UserRepository.moved updated orgId) db = .ok db₁) : Pruned id db db₁ := by
  have heq := Schema.update_eq h
  have hother : ∀ t, t ≠ .users → db₁ t = db t := by
    intro t ht
    rw [heq, Function.update_of_ne ht]
  refine ⟨fun t ht r hr => by rwa [hother t ht] at hr, fun t ht r hr hnot => ?_, ?_, ?_,
    hother _ nofun⟩
  · rw [hother t ht] at hnot
    exact absurd hr hnot
  · rintro t r - ⟨fk, hfk, hcascade, -, q, hq, hgone, -⟩
    rw [hother _ (cascade_parent hfk hcascade).1] at hgone
    exact hgone hq
  · rw [heq, Function.update_self, List.forall₂_map_right_iff, List.forall₂_same]
    intro v hv
    split
    · -- the key tells that this is the row that was found
      rename_i hid
      rw [decide_eq_true_eq] at hid
      have hmem := List.mem_of_find?_eq_some huser
      have hid' : u .id = some userId := by simpa using List.find?_some huser
      obtain rfl := List.inj_on_of_nodup_map hkeyed hv hmem (hid.trans hid'.symm)
      exact touched_moved horg
    · exact .refl

theorem run_reassign (defaultOrgId userId : Cell) (updated : Cell → String) (hkeyed : Keyed db) :
    Pruned id db ((OrgService.reassign defaultOrgId updated id userId).run db).2 ∧
      ((OrgService.reassign defaultOrgId updated id userId).run db).2 .org = db .org := by
  rw [OrgService.reassign, Prog.run_bind, Prog.run_read]
  dsimp only
  cases huser : findById .users userId db with
  | none => exact ⟨.refl db, rfl⟩
  | some user =>
    dsimp only
    split
    · exact ⟨.refl db, rfl⟩
    · rename_i horg
      rw [not_not] at horg
      rw [Prog.run_bind, Prog.run_read]
      dsimp only
      rw [UserRepository.update, Prog.run_bind, Prog.run_read]
      dsimp only
      rw [huser]
      dsimp only
      rw [run_execute]
      split
      · rename_i db' hupdate
        refine ⟨pruned_update hkeyed huser horg hupdate, ?_⟩
        show db' .org = db .org
        rw [Schema.update_eq hupdate, Function.update_of_ne (by decide)]
      · exact ⟨.refl db, rfl⟩

theorem run_reassigns (defaultOrgId : Cell) (updated : Cell → String) (userIds : List Cell) :
    ∀ db : Db, Keyed db →
      Pruned id db ((userIds.forM (OrgService.reassign defaultOrgId updated id)).run db).2 ∧
        ((userIds.forM (OrgService.reassign defaultOrgId updated id)).run db).2 .org = db .org := by
  induction userIds with
  | nil => exact fun db _ => ⟨.refl db, rfl⟩
  | cons userId rest ih =>
    intro db hkeyed
    have hfirst := @run_reassign id db defaultOrgId userId updated hkeyed
    show Pruned id db ((OrgService.reassign defaultOrgId updated id userId >>= fun _ =>
        rest.forM (OrgService.reassign defaultOrgId updated id)).run db).2 ∧
      ((OrgService.reassign defaultOrgId updated id userId >>= fun _ =>
        rest.forM (OrgService.reassign defaultOrgId updated id)).run db).2 .org = db .org
    rw [Prog.run_bind]
    cases hrun : (OrgService.reassign defaultOrgId updated id userId).run db with
    | mk outcome db₁ =>
      rw [hrun] at hfirst
      cases outcome with
      | error e => exact hfirst
      | ok _ =>
        have hrest := ih db₁ (hfirst.1.keyed hkeyed)
        exact ⟨hfirst.1.trans hrest.1, hrest.2.trans hfirst.2⟩

end Users

/-! ## The org itself -/

section Last

/-- The tables whose `org_id` refers to the org and goes with it. -/
def orgChildren : List Table :=
  (foreignKeys.filter fun fk => fk.parent = .org ∧ fk.column = .orgId ∧ fk.onDelete = .cascade).map
    (·.child)

theorem orgChildren_key (ht : t ∈ orgChildren) : cascades t .orgId .org ∈ schema.keys := by
  obtain ⟨fk, hfk, rfl⟩ := List.mem_map.mp ht
  obtain ⟨hfk, hshape⟩ := List.mem_filter.mp hfk
  obtain ⟨hparent, hcolumn, hcascade⟩ := of_decide_eq_true hshape
  obtain ⟨child, column, parent, onDelete⟩ := fk
  cases hparent
  cases hcolumn
  cases hcascade
  exact hfk

theorem run_deleteOrg {org : TableRow} (hfound : findById .org id db = some org)
    (h : (OrgRepository.delete id).run db = (.ok (), db₁)) :
    Pruned id db db₁ ∧ Free id .users db₁ ∧ (∀ r ∈ db₁ .org, r .id ≠ some id) ∧
      ∀ t ∈ orgChildren, Free id t db₁ := by
  have hmem := List.mem_of_find?_eq_some hfound
  have hid : org .id = some id := by simpa using List.find?_some hfound
  rw [OrgRepository.delete, Prog.run_bind, Prog.run_read] at h
  dsimp only at h
  rw [hfound] at h
  dsimp only at h
  rw [deleteFrom, run_execute] at h
  cases hdelete : schema.delete (rowsWhere .org .id id) db with
  | error e =>
    rw [hdelete] at h
    cases h
  | ok db' =>
    rw [hdelete] at h
    cases h
    have hdirect : ∀ r : TableRow, r .id = some id →
        schema.gone db (rowsWhere .org .id id) .org r = true := by
      intro r hr
      refine Schema.gone_of_mem ?_
      rw [rowsWhere, decide_eq_true rfl, decide_eq_true hr]
      rfl
    have hpruned : Pruned id db db₁ := by
      refine pruned_delete (fun t r hp => ?_) hdelete
      rw [rowsWhere, Bool.and_eq_true, decide_eq_true_eq, decide_eq_true_eq] at hp
      obtain ⟨rfl, hr⟩ := hp
      exact ⟨Or.inr ⟨rfl, hr⟩, nofun, nofun⟩
    have hrefers : ∀ fk : ForeignKey Table Column, fk.column = .orgId → ∀ r : TableRow,
        r .orgId = some id → schema.Refers fk r org := by
      intro fk hcolumn r hr
      refine ⟨?_, ?_⟩
      · rw [hcolumn, hr]
        rfl
      · rw [hcolumn, hr]
        exact hid.symm
    refine ⟨hpruned, fun u hu horg => ?_, fun r hr hrid => ?_, fun t ht r hr horg => ?_⟩
    · have hsame : db₁ .users = db .users := Schema.delete_eq hdelete fun u _ => by
        refine Schema.gone_eq_false (fun fk hfk hcascade => (cascade_child hfk hcascade).1) ?_
        rfl
      rw [hsame] at hu
      exact Schema.delete_restrict hdelete users_key_mem rfl hu hmem (hdirect org hid)
        (hrefers _ rfl u horg)
    · exact absurd ((hdirect r hrid).symm.trans ((Schema.mem_delete hdelete).mp hr).2) nofun
    · obtain ⟨hold, hkeep⟩ := (Schema.mem_delete hdelete).mp hr
      have hgone := Schema.gone_cascade (orgChildren_key ht) rfl hmem (hdirect org hid)
        (hrefers (cascades t .orgId .org) rfl r horg)
      exact absurd (hgone.symm.trans hkeep) nofun

theorem run_deleteOrg_error {e : String} (h : (OrgRepository.delete id).run db = (.error e, db₁)) :
    db₁ = db := by
  rw [OrgRepository.delete, Prog.run_bind, Prog.run_read] at h
  dsimp only at h
  split at h
  · cases h
  · rw [deleteFrom, run_execute] at h
    split at h
    · cases h
    · cases h
      rfl

theorem run_log (entry : TableRow) (db : Db) :
    ∃ db', (AuditWriter.log entry).run db = (.ok (), db') ∧ (∀ t, t ≠ .auditLog → db' t = db t) ∧
      (db' .auditLog = db .auditLog ++ [entry] ∨
        (∃ r ∈ db .auditLog, r .id = entry .id) ∧ db' .auditLog = db .auditLog) := by
  rw [AuditWriter.log, Prog.run_tryCatch, run_execute]
  by_cases htaken : (db .auditLog).any fun r => decide (r .id = entry .id)
  · rw [if_pos htaken]
    obtain ⟨r, hr, hid⟩ := List.any_eq_true.mp htaken
    exact ⟨db, rfl, fun _ _ => rfl, Or.inr ⟨⟨r, hr, of_decide_eq_true hid⟩, rfl⟩⟩
  · rw [if_neg htaken]
    refine ⟨_, rfl, fun t ht => Function.update_of_ne ht _ _, Or.inl ?_⟩
    rw [Function.update_self]

end Last

/-! ## The whole deletion -/

structure Deleted (id : Cell) (entry : TableRow) (db db' : Db) : Prop where
  users : List.Forall₂ (Touched id) (db .users) (db' .users)
  no_user : ∀ u ∈ db' .users, u .orgId ≠ some id
  org : ∀ r ∈ db' .org, r .id ≠ some id
  free : ∀ t ∈ OrgService.orgScopedTables ++ OrgService.cascadeTables ++ orgChildren, Free id t db'
  lost : ∀ t, t ≠ .users → ∀ r ∈ db t, r ∉ db' t → Of id t r ∨ Hangs db db' t r
  hung : ∀ t, ∀ r ∈ db' t, ¬ Hangs db db' t r
  new : ∀ t, t ≠ .users → ∀ r ∈ db' t, r ∈ db t ∨ t = .auditLog ∧ r = entry
  audit : db' .auditLog = db .auditLog ++ [entry] ∨
    (∃ r ∈ db .auditLog, r .id = entry .id) ∧ db' .auditLog = db .auditLog

theorem Pruned.logged {entry : TableRow} (hpruned : Pruned id db db₁) (husers : Free id .users db₁)
    (horg : ∀ r ∈ db₁ .org, r .id ≠ some id)
    (hfree : ∀ t ∈ OrgService.orgScopedTables ++ OrgService.cascadeTables ++ orgChildren,
      Free id t db₁)
    (hsame : ∀ t, t ≠ .auditLog → db₂ t = db₁ t)
    (haudit : db₂ .auditLog = db₁ .auditLog ++ [entry] ∨
      (∃ r ∈ db₁ .auditLog, r .id = entry .id) ∧ db₂ .auditLog = db₁ .auditLog) :
    Deleted id entry db db₂ := by
  have hhangs : ∀ t r, Hangs db db₂ t r → Hangs db db₁ t r := by
    rintro t r ⟨fk, hfk, hcascade, hchild, q, hq, hgone, hrefers⟩
    rw [hsame _ (cascade_parent hfk hcascade).2] at hgone
    exact ⟨fk, hfk, hcascade, hchild, q, hq, hgone, hrefers⟩
  have hnew : ∀ r ∈ db₂ .auditLog, r ∈ db .auditLog ∨ r = entry := by
    intro r hr
    rcases haudit with heq | ⟨-, heq⟩
    · rw [heq, hpruned.audit, List.mem_append, List.mem_singleton] at hr
      exact hr
    · rw [heq, hpruned.audit] at hr
      exact Or.inl hr
  have hkept : ∀ r ∈ db .auditLog, r ∈ db₂ .auditLog := by
    intro r hr
    rcases haudit with heq | ⟨-, heq⟩
    · rw [heq, hpruned.audit]
      exact List.mem_append_left _ hr
    · rw [heq, hpruned.audit]
      exact hr
  refine ⟨?_, ?_, ?_, fun t ht r hr => ?_, fun t ht r hr hnot => ?_, fun t r hr hhang => ?_,
    fun t ht r hr => ?_, ?_⟩
  · rw [hsame _ (by decide)]
    exact hpruned.users
  · rw [hsame _ (by decide)]
    exact husers
  · rw [hsame _ (by decide)]
    exact horg
  · have hlog : t ≠ .auditLog := fun heq => absurd (heq ▸ ht) (by decide)
    rw [hsame t hlog] at hr
    exact hfree t ht r hr
  · by_cases hlog : t = .auditLog
    · subst hlog
      exact absurd (hkept r hr) hnot
    · rw [hsame t hlog] at hnot
      refine (hpruned.lost t ht r hr hnot).imp_right ?_
      rintro ⟨fk, hfk, hcascade, hchild, q, hq, hgone, hrefers⟩
      refine ⟨fk, hfk, hcascade, hchild, q, hq, ?_, hrefers⟩
      rw [hsame _ (cascade_parent hfk hcascade).2]
      exact hgone
  · by_cases hlog : t = .auditLog
    · obtain ⟨fk, hfk, hcascade, hchild, -⟩ := hhang
      exact (cascade_child hfk hcascade).2.2 (hchild.trans hlog)
    · rw [hsame t hlog] at hr
      exact hpruned.hung t r hr (hhangs t r hhang)
  · by_cases hlog : t = .auditLog
    · subst hlog
      exact (hnew r hr).imp_right fun h => ⟨rfl, h⟩
    · rw [hsame t hlog] at hr
      exact Or.inl (hpruned.old t ht r hr)
  · rw [← hpruned.audit]
    exact haudit

theorem pruned_of_error {defaultOrgId actorId : Cell} {drawn : Drawn} {e : String}
    (hkeyed : Keyed db)
    (h : (OrgService.delete defaultOrgId drawn id actorId).run db = (.error e, db₁)) :
    Pruned id db db₁ := by
  rw [OrgService.delete, Prog.run_bind, Prog.run_read] at h
  dsimp only at h
  cases horg : findById .org id db with
  | none =>
    rw [horg] at h
    cases h
    exact .refl db
  | some org =>
    rw [horg] at h
    dsimp only at h
    rw [Prog.run_bind, Prog.run_read] at h
    dsimp only at h
    generalize OrgUserRepository.listUsersByOrg id 10000 db = members at h
    -- a list of cleanups never throws, and what it has done it has done to rows of the org
    rcases Prog.run_bind_error h with hrun₁ | ⟨_, s₁, hrun₁, h⟩
    · obtain ⟨_, hok, -⟩ := run_cleanups id OrgService.orgScopedTables (by decide) db
      cases hok.symm.trans hrun₁
    have hpruned₁ := (cleanups_of_run (by decide) hrun₁).1
    have hmembers := @run_reassigns id defaultOrgId drawn.updated (members.filterMap (· .id)) s₁
      (hpruned₁.keyed hkeyed)
    rcases Prog.run_bind_error h with hrun₂ | ⟨_, s₂, hrun₂, h⟩
    · rw [hrun₂] at hmembers
      exact hpruned₁.trans hmembers.1
    rw [hrun₂] at hmembers
    have hpruned₂ := hpruned₁.trans hmembers.1
    have hactor := @run_reassign id s₂ defaultOrgId actorId drawn.updated (hpruned₂.keyed hkeyed)
    rcases Prog.run_bind_error h with hrun₃ | ⟨_, s₃, hrun₃, h⟩
    · rw [hrun₃] at hactor
      exact hpruned₂.trans hactor.1
    rw [hrun₃] at hactor
    have hpruned₃ := hpruned₂.trans hactor.1
    rcases Prog.run_bind_error h with hrun₄ | ⟨_, s₄, hrun₄, h⟩
    · obtain ⟨_, hok, -⟩ := run_cleanups id OrgService.cascadeTables (by decide) s₃
      cases hok.symm.trans hrun₄
    have hpruned₄ := hpruned₃.trans (cleanups_of_run (by decide) hrun₄).1
    rcases Prog.run_bind_error h with hrun₅ | ⟨_, s₅, -, h⟩
    · -- the row of the org is refused as a whole
      rw [run_deleteOrg_error hrun₅]
      exact hpruned₄
    · obtain ⟨_, hok, -⟩ := run_log (OrgService.auditEntry drawn id actorId org) s₅
      cases hok.symm.trans h

/-- The deletion of an org that is not there changes nothing. One that comes to its end leaves
neither a user nor a row of the listed tables behind. Whether it does or throws, it touches no row
but those of the org and what hangs on them. -/
theorem org_deleted (defaultOrgId : Cell) (drawn : Drawn) (id actorId : Cell) (db : Db)
    (hkeyed : Keyed db) :
    (findById .org id db = none →
      (OrgService.delete defaultOrgId drawn id actorId).run db = (.error OrgService.orgNotFound, db)) ∧
    (∀ e db', (OrgService.delete defaultOrgId drawn id actorId).run db = (.error e, db') →
      Pruned id db db') ∧
    ∀ db', (OrgService.delete defaultOrgId drawn id actorId).run db = (.ok (), db') →
      ∃ org, findById .org id db = some org ∧
        Deleted id (OrgService.auditEntry drawn id actorId org) db db' := by
  refine ⟨?_, fun e db' h => pruned_of_error hkeyed h, ?_⟩
  · intro hnone
    rw [OrgService.delete, Prog.run_bind, Prog.run_read, hnone]
    rfl
  rw [OrgService.delete, Prog.run_bind, Prog.run_read]
  dsimp only
  cases horg : findById .org id db with
  | none => exact fun db' h => by cases h
  | some org =>
    refine fun db' h => ⟨org, rfl, ?_⟩
    rw [Prog.run_bind, Prog.run_read] at h
    dsimp only at h
    generalize OrgUserRepository.listUsersByOrg id 10000 db = members at h
    -- the resources, the members, the actor, the tables of the auth subsystem, the org
    obtain ⟨_, db₁, hrun₁, h⟩ := Prog.run_bind_ok h
    obtain ⟨_, db₂, hrun₂, h⟩ := Prog.run_bind_ok h
    obtain ⟨_, db₃, hrun₃, h⟩ := Prog.run_bind_ok h
    obtain ⟨_, db₄, hrun₄, h⟩ := Prog.run_bind_ok h
    obtain ⟨_, db₅, hrun₅, h⟩ := Prog.run_bind_ok h
    obtain ⟨hpruned₁, hfree₁, horg₁⟩ := cleanups_of_run (by decide) hrun₁
    have hmembers := @run_reassigns id defaultOrgId drawn.updated (members.filterMap (· .id)) db₁
      (hpruned₁.keyed hkeyed)
    rw [hrun₂] at hmembers
    obtain ⟨hpruned₂, horg₂⟩ : Pruned id db₁ db₂ ∧ db₂ .org = db₁ .org := hmembers
    have hactor := @run_reassign id db₂ defaultOrgId actorId drawn.updated
      ((hpruned₁.trans hpruned₂).keyed hkeyed)
    rw [hrun₃] at hactor
    obtain ⟨hpruned₃, horg₃⟩ : Pruned id db₂ db₃ ∧ db₃ .org = db₂ .org := hactor
    obtain ⟨hpruned₄, hfree₄, horg₄⟩ := cleanups_of_run (by decide) hrun₄
    have hfound : findById .org id db₄ = some org := by
      rw [findById, horg₄, horg₃, horg₂, horg₁]
      exact horg
    obtain ⟨hpruned₅, husers, hgone, hchildren⟩ := run_deleteOrg hfound hrun₅
    have hrest := (hpruned₂.trans hpruned₃).trans (hpruned₄.trans hpruned₅)
    obtain ⟨db₆, hrun₆, hsame, haudit⟩ :=
      run_log (OrgService.auditEntry drawn id actorId org) db₅
    cases hrun₆.symm.trans h
    refine (hpruned₁.trans hrest).logged husers hgone ?_ hsame haudit
    intro t ht
    rcases List.mem_append.mp ht with ht | ht
    · rcases List.mem_append.mp ht with ht | ht
      · exact (hfree₁ t ht).pruned (fun heq => absurd (heq ▸ ht) (by decide)) hrest
      · exact (hfree₄ t ht).pruned (fun heq => absurd (heq ▸ ht) (by decide)) hpruned₅
    · exact hchildren t ht

/-! ## An org that is deleted -/

section Examples

def Names (id : Cell) (t : Table) (r : TableRow) : Prop := Of id t r ∨ r .workspaceId = some id

/-- A deletion that throws changes nothing; one that returns leaves nothing that names the org, and
the rows of the other orgs as they were. -/
def AllOrNothing (id : Cell) (db : Db) : Except String Unit × Db → Prop
  | (.error _, db') => db' = db
  | (.ok _, db') => (∀ u ∈ db' .users, u .orgId ≠ some id) ∧ (∀ t, ∀ r ∈ db' t, ¬ Names id t r) ∧
      ∀ t, ∀ r ∈ db t, (∃ other, other ≠ id ∧ r .orgId = some other) → r ∈ db' t

def cells (entries : List (Column × String)) : TableRow :=
  fun column => (entries.find? fun entry => entry.1 = column).map fun entry => .text entry.2

/-- Two orgs; a user of `acme`, and an admin who belongs to both. -/
def acmeDb : Db
  | .org => [cells [(.id, "org_main"), (.name, "Main Org")], cells [(.id, "acme"), (.name, "Acme")]]
  | .users => [cells [(.id, "u1"), (.login, "admin"), (.orgId, "org_main")],
      cells [(.id, "u2"), (.login, "dev"), (.orgId, "acme")]]
  | .orgUser => [cells [(.id, "m1"), (.orgId, "org_main"), (.userId, "u1")],
      cells [(.id, "m2"), (.orgId, "acme"), (.userId, "u1")],
      cells [(.id, "m3"), (.orgId, "acme"), (.userId, "u2")]]
  | .role => [cells [(.id, "r1"), (.orgId, "acme")]]
  | .userRole => [cells [(.id, "a1"), (.orgId, "org_main"), (.userId, "u1"), (.roleId, "r1")]]
  | .dashboards => [cells [(.id, "d1"), (.orgId, "acme")]]
  | _ => []

def drawnNow : Drawn := ⟨fun _ => "t1", "e1", "t1"⟩

def deleteAcme : Prog Db Unit :=
  OrgService.delete (.text "org_main") drawnNow (.text "acme") (.text "u1")

theorem deleteAcme_run : deleteAcme.run acmeDb = (.ok (), (deleteAcme.run acmeDb).2) := by
  have hrun : (deleteAcme.run acmeDb).1 = .ok () := by decide +kernel
  rw [← hrun]

/-- The user of `acme` is moved to the default org. -/
theorem org_deleted_acme : ∃ db', deleteAcme.run acmeDb = (.ok (), db') ∧
    (∃ org, findById .org (.text "acme") acmeDb = some org ∧
      Deleted (.text "acme") (OrgService.auditEntry drawnNow (.text "acme") (.text "u1") org)
        acmeDb db') ∧
    (db' .users).map (fun u => u .orgId) = [some (.text "org_main"), some (.text "org_main")] := by
  have hkeyed : Keyed acmeDb := by
    show ([some (Cell.text "u1"), some (Cell.text "u2")] : List (Option Cell)).Nodup
    decide
  exact ⟨_, deleteAcme_run, (org_deleted _ _ _ _ acmeDb hkeyed).2.2 _ deleteAcme_run,
    by decide +kernel⟩

/-- The entry of the audit log names the org, and the assignment in the other org has gone with
the role. -/
theorem org_named_and_assignment_lost :
    ¬ AllOrNothing (.text "acme") acmeDb (deleteAcme.run acmeDb) ∧
    (deleteAcme.run acmeDb).1 = .ok () ∧
    ((deleteAcme.run acmeDb).2 .auditLog).map (fun r => r .orgId) = [some (.text "acme")] ∧
    (deleteAcme.run acmeDb).2 .userRole = [] := by
  have haudit : ((deleteAcme.run acmeDb).2 .auditLog).map (fun r => r .orgId) =
      [some (.text "acme")] := by decide +kernel
  have hroles : (deleteAcme.run acmeDb).2 .userRole = [] :=
    List.eq_nil_of_length_eq_zero (by decide +kernel)
  refine ⟨fun hall => ?_, congrArg Prod.fst deleteAcme_run, haudit, hroles⟩
  rw [deleteAcme_run] at hall
  have hmem : some (Cell.text "acme") ∈
      ((deleteAcme.run acmeDb).2 .auditLog).map fun r => r .orgId := by
    rw [haudit]
    exact List.mem_singleton_self _
  obtain ⟨r, hr, horg⟩ := List.mem_map.mp hmem
  exact hall.2.1 .auditLog r hr (Or.inl (Or.inl horg))

end Examples

end OpenObs.Orgs
