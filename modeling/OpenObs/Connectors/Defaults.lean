import Mathlib.Data.List.Nodup
import OpenObs.Connectors.Repository
import OpenObs.Foundation.Pool

/-!
# Default connectors

The unique index keeps the defaults unique whatever runs beside what. Which connector is the
default is another matter: an update writes back the `isDefault` that it has read, and clears the
other defaults of the type if it has read a default.
-/

namespace OpenObs.Connectors

open OpenObs.Foundation

/-! ## Defaults -/

def ConnectorDb.IsDefault (db : ConnectorDb) (orgId type id : String) : Prop :=
  ∃ r ∈ db.connectors, r.orgId = orgId ∧ r.type = type ∧ r.id = id ∧ r.isDefault = true

instance (db : ConnectorDb) (orgId type id : String) : Decidable (db.IsDefault orgId type id) :=
  inferInstanceAs (Decidable (∃ r ∈ db.connectors, _))

structure ConnectorDb.Valid (db : ConnectorDb) : Prop where
  ids : (db.connectors.map (·.id)).Nodup
  defaults : ∀ r ∈ db.connectors, ∀ r' ∈ db.connectors, r.isDefault = true → r'.isDefault = true →
    r.orgId = r'.orgId → r.type = r'.type → r.id = r'.id

def SameDefaults (db db' : ConnectorDb) : Prop :=
  ∀ orgId type id, db'.IsDefault orgId type id ↔ db.IsDefault orgId type id

theorem SameDefaults.refl (db : ConnectorDb) : SameDefaults db db := fun _ _ _ => Iff.rfl

namespace ConnectorDb

variable {db db' : ConnectorDb} {r r' row : ConnectorRow} {id orgId type now : String}

theorem Valid.eq_of_id (h : db.Valid) (hr : r ∈ db.connectors) (hr' : r' ∈ db.connectors)
    (hid : r.id = r'.id) : r = r' :=
  List.inj_on_of_nodup_map h.ids hr hr' hid

theorem Valid.unique (h : db.Valid) {a b : String} (ha : db.IsDefault orgId type a)
    (hb : db.IsDefault orgId type b) : a = b := by
  obtain ⟨r, hr, horg, htype, rfl, hdef⟩ := ha
  obtain ⟨r', hr', horg', htype', rfl, hdef'⟩ := hb
  exact h.defaults r hr r' hr' hdef hdef' (horg.trans horg'.symm) (htype.trans htype'.symm)

theorem find_spec (h : db.find id orgId = some row) :
    row ∈ db.connectors ∧ row.id = id ∧ row.orgId = orgId := by
  have hcond := List.find?_some h
  simp only [decide_eq_true_eq] at hcond
  exact ⟨List.mem_of_find?_eq_some h, hcond⟩

theorem Valid.find (h : db.Valid) (hr : r ∈ db.connectors) (horg : r.orgId = orgId)
    (hid : r.id = id) : db.find id orgId = some r := by
  cases hfind : db.find id orgId with
  | none =>
    have hno := List.find?_eq_none.mp hfind r hr
    simp [hid, horg] at hno
  | some row =>
    obtain ⟨hrow, hrowid, -⟩ := find_spec hfind
    rw [h.eq_of_id hr hrow (hid.trans hrowid.symm)]

/-! ## Writes -/

theorem ids_unsetDefaults {keep : String → Bool} :
    (db.unsetDefaults orgId type now keep).connectors.map (·.id) = db.connectors.map (·.id) := by
  simp only [unsetDefaults, List.map_map]
  refine List.map_congr_left fun r _ => ?_
  simp only [Function.comp]
  split <;> rfl

theorem mem_unsetDefaults {keep : String → Bool}
    (h : r ∈ (db.unsetDefaults orgId type now keep).connectors) :
    ∃ r₀ ∈ db.connectors, r.id = r₀.id ∧ r.orgId = r₀.orgId ∧ r.type = r₀.type ∧
      r.name = r₀.name ∧
      (r.isDefault = true ↔ r₀.isDefault = true ∧
        ¬ (r₀.orgId = orgId ∧ r₀.type = type ∧ keep r₀.id = false)) := by
  obtain ⟨r₀, hr₀, rfl⟩ := List.mem_map.mp h
  refine ⟨r₀, hr₀, ?_⟩
  split
  · rename_i hcond
    exact ⟨rfl, rfl, rfl, rfl, by simp [hcond]⟩
  · rename_i hcond
    refine ⟨rfl, rfl, rfl, rfl, fun hdef => ⟨hdef, ?_⟩, fun h => h.1⟩
    rintro ⟨horg, htype, hkeep⟩
    exact hcond ⟨horg, htype, hkeep, hdef⟩

theorem isDefault_unsetDefaults {keep : String → Bool} {a b c : String} :
    (db.unsetDefaults orgId type now keep).IsDefault a b c ↔
      db.IsDefault a b c ∧ ¬ (a = orgId ∧ b = type ∧ keep c = false) := by
  constructor
  · rintro ⟨r, hr, rfl, rfl, rfl, hdef⟩
    obtain ⟨r₀, hr₀, hid, horg, htype, -, hiff⟩ := mem_unsetDefaults hr
    obtain ⟨hdef₀, hnot⟩ := hiff.mp hdef
    rw [hid, horg, htype]
    exact ⟨⟨r₀, hr₀, rfl, rfl, rfl, hdef₀⟩, hnot⟩
  · rintro ⟨⟨r, hr, rfl, rfl, rfl, hdef⟩, hnot⟩
    refine ⟨r, List.mem_map.mpr ⟨r, hr, if_neg ?_⟩, rfl, rfl, rfl, hdef⟩
    rintro ⟨horg, htype, hkeep, -⟩
    exact hnot ⟨horg, htype, hkeep⟩

theorem Valid.unsetDefaults {keep : String → Bool} (h : db.Valid) :
    (db.unsetDefaults orgId type now keep).Valid := by
  refine ⟨by rw [ids_unsetDefaults]; exact h.ids, ?_⟩
  intro r hr r' hr' hdef hdef' horg htype
  have ha := (isDefault_unsetDefaults.mp ⟨r, hr, rfl, rfl, rfl, hdef⟩).1
  have hb := (isDefault_unsetDefaults.mp ⟨r', hr', rfl, rfl, rfl, hdef'⟩).1
  rw [horg, htype] at ha
  exact h.unique ha hb

theorem not_clashes_default (h : ¬ clashes r r' = true) (hdef : r.isDefault = true)
    (hdef' : r'.isDefault = true) (horg : r.orgId = r'.orgId) : r.type ≠ r'.type := by
  intro htype
  exact h (by simp [clashes, horg, htype, hdef, hdef'])

theorem insert_ok {capabilities : List String} (h : db.insert row capabilities = .ok db') :
    (∀ r ∈ db.connectors, r.id ≠ row.id ∧ ¬ clashes r row = true) ∧
      (∀ c ∈ capabilities, (row.id, c) ∉ db.capabilities) ∧ row.orgId ∈ db.orgs ∧
      db' = { db with connectors := db.connectors ++ [row]
                      capabilities := db.capabilities ++ capabilities.map (row.id, ·) } := by
  unfold ConnectorDb.insert at h
  split at h
  · cases h
  rename_i hfree
  split at h
  · cases h
  rename_i horg
  cases h
  obtain ⟨hrows, hcaps⟩ := not_or.mp hfree
  refine ⟨fun r hr => ?_, fun c hc hmem => hcaps ?_, not_not.mp horg, rfl⟩
  · apply not_or.mp
    intro hused
    exact hrows (List.any_eq_true.mpr ⟨r, hr, decide_eq_true hused⟩)
  · exact List.any_eq_true.mpr ⟨c, hc, decide_eq_true hmem⟩

theorem Valid.insert {capabilities : List String} (h : db.Valid)
    (hins : db.insert row capabilities = .ok db') : db'.Valid := by
  obtain ⟨hnew, -, -, rfl⟩ := insert_ok hins
  constructor
  · simp only [List.map_append, List.map_cons, List.map_nil]
    refine List.nodup_append.mpr ⟨h.ids, List.nodup_singleton _, ?_⟩
    intro a ha b hb
    obtain ⟨r, hr, rfl⟩ := List.mem_map.mp ha
    rw [List.mem_singleton.mp hb]
    exact (hnew r hr).1
  · intro r hr r' hr' hdef hdef' horg htype
    simp only [List.mem_append, List.mem_singleton] at hr hr'
    rcases hr with hr | rfl <;> rcases hr' with hr' | rfl
    · exact h.defaults r hr r' hr' hdef hdef' horg htype
    · exact absurd htype (not_clashes_default (hnew r hr).2 hdef hdef' horg)
    · exact absurd htype.symm (not_clashes_default (hnew r' hr').2 hdef' hdef horg.symm)
    · rfl

theorem Valid.remove (h : db.Valid) : (db.remove id orgId).Valid := by
  unfold ConnectorDb.remove
  split
  · refine ⟨(List.filter_sublist.map _).nodup h.ids, fun r hr r' hr' => ?_⟩
    exact h.defaults r (List.mem_filter.mp hr).1 r' (List.mem_filter.mp hr').1
  · exact h

def KeepsKeys (set : ConnectorRow → ConnectorRow) : Prop :=
  ∀ r, (set r).id = r.id ∧ (set r).orgId = r.orgId ∧ (set r).type = r.type

variable {set : ConnectorRow → ConnectorRow}

theorem overwrite_ok (h : db.overwrite id orgId set = .ok db') :
    (db.find id orgId = none ∧ db' = db) ∨
    ∃ row, db.find id orgId = some row ∧
      (∀ r ∈ db.connectors, r.id ≠ id → ¬ clashes r (set row) = true) ∧
      db' = { db with connectors := db.connectors.map fun r =>
                if r.id = id ∧ r.orgId = orgId then set r else r } := by
  unfold ConnectorDb.overwrite at h
  split at h
  · rename_i hfind
    cases h
    exact Or.inl ⟨hfind, rfl⟩
  · rename_i row hfind
    split at h
    · cases h
    · rename_i hfree
      cases h
      refine Or.inr ⟨row, hfind, fun r hr hid hclash => hfree ?_, rfl⟩
      exact List.any_eq_true.mpr ⟨r, hr, decide_eq_true ⟨hid, hclash⟩⟩

theorem Valid.overwrite (hset : KeepsKeys set) (h : db.Valid)
    (hov : db.overwrite id orgId set = .ok db') : db'.Valid := by
  rcases overwrite_ok hov with ⟨-, rfl⟩ | ⟨row, hfind, hnew, rfl⟩
  · exact h
  obtain ⟨hrow, hrowid, hroworg⟩ := find_spec hfind
  -- a row after the write is the new one, or one with another id
  have hrows : ∀ r ∈ db.connectors,
      (if r.id = id ∧ r.orgId = orgId then set r else r) = set row ∨
        (if r.id = id ∧ r.orgId = orgId then set r else r) = r ∧ r.id ≠ id := by
    intro r hr
    by_cases hid : r.id = id
    · obtain rfl := h.eq_of_id hr hrow (hid.trans hrowid.symm)
      exact Or.inl (if_pos ⟨hid, hroworg⟩)
    · exact Or.inr ⟨if_neg fun hc => hid hc.1, hid⟩
  constructor
  · have hids : ∀ r : ConnectorRow,
        (if r.id = id ∧ r.orgId = orgId then set r else r).id = r.id := by
      intro r
      split
      · exact (hset r).1
      · rfl
    simp only [List.map_map, Function.comp_def, hids]
    exact h.ids
  · intro r hr r' hr' hdef hdef' horg htype
    obtain ⟨r₀, hr₀, rfl⟩ := List.mem_map.mp hr
    obtain ⟨r₁, hr₁, rfl⟩ := List.mem_map.mp hr'
    rcases hrows r₀ hr₀ with h₀ | ⟨h₀, hid₀⟩ <;> rcases hrows r₁ hr₁ with h₁ | ⟨h₁, hid₁⟩ <;>
      rw [h₀] at hdef horg htype ⊢ <;> rw [h₁] at hdef' horg htype ⊢
    · exact absurd htype.symm (not_clashes_default (hnew r₁ hr₁ hid₁) hdef' hdef horg.symm)
    · exact absurd htype (not_clashes_default (hnew r₀ hr₀ hid₀) hdef hdef' horg)
    · exact h.defaults r₀ hr₀ r₁ hr₁ hdef hdef' horg htype

theorem isDefault_overwrite (hset : KeepsKeys set) (h : db.Valid)
    (hov : db.overwrite id orgId set = .ok db') {a b c : String} :
    db'.IsDefault a b c ↔
      if a = orgId ∧ c = id then
        ∃ row, db.find id orgId = some row ∧ row.type = b ∧ (set row).isDefault = true
      else db.IsDefault a b c := by
  rcases overwrite_ok hov with ⟨hfind, rfl⟩ | ⟨row, hfind, -, rfl⟩
  · split
    · rename_i hkey
      simp only [hfind, reduceCtorEq, false_and, exists_false, iff_false]
      rintro ⟨r, hr, horg, -, hid, -⟩
      rw [h.find hr (horg.trans hkey.1) (hid.trans hkey.2)] at hfind
      cases hfind
    · exact Iff.rfl
  · obtain ⟨hrow, hrowid, hroworg⟩ := find_spec hfind
    constructor
    · rintro ⟨r, hr, rfl, rfl, rfl, hdef⟩
      obtain ⟨r₀, hr₀, rfl⟩ := List.mem_map.mp hr
      by_cases hkey : r₀.id = id ∧ r₀.orgId = orgId
      · rw [if_pos hkey] at hdef ⊢
        obtain ⟨hid, horg, htype⟩ := hset r₀
        rw [if_pos ⟨horg.trans hkey.2, hid.trans hkey.1⟩, htype]
        exact ⟨r₀, h.find hr₀ hkey.2 hkey.1, rfl, hdef⟩
      · rw [if_neg hkey] at hdef ⊢
        rw [if_neg fun hc => hkey ⟨hc.2, hc.1⟩]
        exact ⟨r₀, hr₀, rfl, rfl, rfl, hdef⟩
    · intro hto
      split at hto
      · rename_i hkey
        obtain ⟨row', hrow', rfl, hdef⟩ := hto
        cases hfind.symm.trans hrow'
        obtain ⟨hid, horg, htype⟩ := hset row
        refine ⟨set row, List.mem_map.mpr ⟨row, hrow, if_pos ⟨hrowid, hroworg⟩⟩, ?_, htype, ?_,
          hdef⟩
        · rw [horg, hroworg, hkey.1]
        · rw [hid, hrowid, hkey.2]
      · rename_i hkey
        obtain ⟨r, hr, rfl, rfl, rfl, hdef⟩ := hto
        exact ⟨r, List.mem_map.mpr ⟨r, hr, if_neg fun hc => hkey ⟨hc.2, hc.1⟩⟩, rfl, rfl, rfl,
          hdef⟩

end ConnectorDb

/-! ## The transaction of an update -/

open ConnectorRepository

/-- The row still has the `isDefault` that was read, and if that makes it the default, no other
connector of the type that was read is. -/
structure Undisturbed (id orgId : String) (existing : Connector) (db : ConnectorDb) : Prop where
  row : ∀ row, db.find id orgId = some row → row.isDefault = existing.isDefault
  others : existing.isDefault = true → ∀ other,
    db.IsDefault orgId existing.type other → other = id

def cleared (now id : String) (existing : Connector) (orgId : String) (db : ConnectorDb) :
    ConnectorDb :=
  if existing.isDefault then db.unsetDefaults orgId existing.type now (· = id) else db

def Clashing (now id : String) (existing : Connector) (patch : ConnectorPatch) (orgId : String)
    (db : ConnectorDb) : Prop :=
  ∃ row, db.find id orgId = some row ∧ ∃ r ∈ (cleared now id existing orgId db).connectors,
    r.id ≠ id ∧ ConnectorDb.clashes r (merged existing patch now row) = true

section Save

variable {now id orgId : String} {existing : Connector} {patch : ConnectorPatch}
  {db db' : ConnectorDb}

theorem keepsKeys_merged : ConnectorDb.KeepsKeys (merged existing patch now) :=
  fun _ => ⟨rfl, rfl, rfl⟩

theorem valid_save (h : db.Valid) (hsave : save now id existing patch orgId db = .ok db') :
    db'.Valid := by
  unfold save at hsave
  split at hsave
  · exact h.unsetDefaults.overwrite keepsKeys_merged hsave
  · exact h.overwrite keepsKeys_merged hsave

theorem save_quiet (hquiet : patch.isDefault = none) :
    save now id existing patch orgId db =
      (cleared now id existing orgId db).overwrite id orgId (merged existing patch now) := by
  simp only [save, cleared, hquiet, Option.getD_none]

theorem valid_cleared (h : db.Valid) : (cleared now id existing orgId db).Valid := by
  unfold cleared
  split
  · exact h.unsetDefaults
  · exact h

theorem find_cleared : (cleared now id existing orgId db).find id orgId = db.find id orgId := by
  unfold cleared
  split
  · simp only [ConnectorDb.find, ConnectorDb.unsetDefaults, List.find?_map]
    have hkeys : (fun r : ConnectorRow => decide (r.id = id ∧ r.orgId = orgId)) ∘ (fun r =>
        if r.orgId = orgId ∧ r.type = existing.type ∧ decide (r.id = id) = false ∧
          r.isDefault = true then { r with isDefault := false, updatedAt := now } else r) =
        fun r => decide (r.id = id ∧ r.orgId = orgId) := by
      funext r
      simp only [Function.comp]
      split <;> rfl
    rw [hkeys]
    cases hfind : db.connectors.find? fun r => decide (r.id = id ∧ r.orgId = orgId) with
    | none => rfl
    | some row =>
      have hid := (ConnectorDb.find_spec hfind).2.1
      simp [hid]
  · rfl

theorem isDefault_cleared {a b c : String} :
    (cleared now id existing orgId db).IsDefault a b c ↔ db.IsDefault a b c ∧
      ¬ (existing.isDefault = true ∧ a = orgId ∧ b = existing.type ∧ c ≠ id) := by
  unfold cleared
  split
  · rename_i hdef
    rw [ConnectorDb.isDefault_unsetDefaults]
    simp [hdef]
  · rename_i hdef
    simp [hdef]

theorem isDefault_iff_find (h : db.Valid) {b : String} :
    db.IsDefault orgId b id ↔
      ∃ row, db.find id orgId = some row ∧ row.type = b ∧ row.isDefault = true := by
  constructor
  · rintro ⟨r, hr, horg, htype, hid, hdef⟩
    exact ⟨r, h.find hr horg hid, htype, hdef⟩
  · rintro ⟨row, hfind, htype, hdef⟩
    obtain ⟨hrow, hid, horg⟩ := ConnectorDb.find_spec hfind
    exact ⟨row, hrow, horg, htype, hid, hdef⟩

theorem save_fails_iff (hquiet : patch.isDefault = none) :
    (∃ e, save now id existing patch orgId db = .error e) ↔
      Clashing now id existing patch orgId db := by
  rw [save_quiet hquiet, ConnectorDb.overwrite, find_cleared, Clashing]
  cases db.find id orgId with
  | none => simp
  | some row =>
    simp only [Option.some.injEq, exists_eq_left']
    split
    · rename_i hany
      refine iff_of_true ⟨_, rfl⟩ ?_
      obtain ⟨r, hr, hclash⟩ := List.any_eq_true.mp hany
      exact ⟨r, hr, of_decide_eq_true hclash⟩
    · rename_i hany
      refine iff_of_false (fun ⟨e, he⟩ => by cases he) ?_
      rintro ⟨r, hr, hclash⟩
      exact hany (List.any_eq_true.mpr ⟨r, hr, decide_eq_true hclash⟩)

/-- **What a quiet update does to the defaults.** -/
theorem sameDefaults_save_iff (h : db.Valid) (hquiet : patch.isDefault = none)
    (hsave : save now id existing patch orgId db = .ok db') :
    SameDefaults db db' ↔ Undisturbed id orgId existing db := by
  rw [save_quiet hquiet] at hsave
  have hmerged : ∀ row, (merged existing patch now row).isDefault = existing.isDefault := by
    intro row
    simp only [merged, hquiet, Option.getD_none]
  have hiff : ∀ a b c, db'.IsDefault a b c ↔ if a = orgId ∧ c = id then
      ∃ row, db.find id orgId = some row ∧ row.type = b ∧ existing.isDefault = true
      else (cleared now id existing orgId db).IsDefault a b c := by
    intro a b c
    rw [ConnectorDb.isDefault_overwrite keepsKeys_merged (valid_cleared h) hsave, find_cleared]
    simp only [hmerged]
  constructor
  · intro hsame
    constructor
    · intro row hrow
      have hnow := (hiff orgId row.type id).symm.trans (hsame orgId row.type id)
      rw [if_pos ⟨rfl, rfl⟩, isDefault_iff_find h] at hnow
      simp only [hrow, Option.some.injEq, exists_eq_left', true_and] at hnow
      exact Bool.eq_iff_iff.mpr hnow.symm
    · intro hdef other hother
      by_contra hne
      have hnow := (hiff orgId existing.type other).symm.trans (hsame orgId existing.type other)
      rw [if_neg fun hc => hne hc.2, isDefault_cleared] at hnow
      exact (hnow.mpr hother).2 ⟨hdef, rfl, rfl, hne⟩
  · intro hundisturbed a b c
    rw [hiff]
    split
    · rename_i hkey
      rw [hkey.1, hkey.2, isDefault_iff_find h]
      refine exists_congr fun row => and_congr_right fun hrow => and_congr_right fun _ => ?_
      rw [hundisturbed.row row hrow]
    · rename_i hkey
      rw [isDefault_cleared]
      refine and_iff_left_of_imp fun hdefault => ?_
      rintro ⟨hdef, rfl, rfl, hne⟩
      exact hne (hundisturbed.others hdef c hdefault)

end Save

/-! ## Calls beside each other -/

inductive ConnectorOp : Type where
  | create (uid now : String) (input : NewConnector)
  | update (now id : String) (patch : ConnectorPatch) (orgId : String)
  | delete (id orgId : String)

def pendingUpdate (now id : String) (patch : ConnectorPatch) (orgId : String)
    (existing : Connector) : Prog ConnectorDb Unit := do
  let _ ← updateRead now id patch orgId existing
  return ()

def ConnectorOp.code : ConnectorOp → Prog ConnectorDb Unit
  | .create uid now input => do
      let _ ← ConnectorRepository.create uid now input
      return ()
  | .update now id patch orgId => do
      let _ ← ConnectorRepository.update now id patch orgId
      return ()
  | .delete id orgId => do
      let _ ← ConnectorRepository.delete id orgId
      return ()

def KeepsValid {α : Type} (p : Prog ConnectorDb α) : Prop :=
  ∀ s, p.Holds (fun _ _ => True) (fun s t => s.Valid → t.Valid) (fun _ _ => True) s

section Keeps

variable {α β : Type} {p : Prog ConnectorDb α}

theorem KeepsValid.bind {k : α → Prog ConnectorDb β} (hp : KeepsValid p)
    (hk : ∀ a, KeepsValid (k a)) : KeepsValid (p >>= k) :=
  fun s => (hp s).bind_any fun a t => hk a t

theorem keepsValid_pure {a : α} : KeepsValid (pure a : Prog ConnectorDb α) := fun _ => trivial

theorem keepsValid_throw {e : String} : KeepsValid (throw e : Prog ConnectorDb α) :=
  fun _ => trivial

theorem keepsValid_read {f : ConnectorDb → α} : KeepsValid (Prog.read f) :=
  fun _ _ _ => ⟨fun h => h, trivial⟩

theorem keepsValid_withTransaction {tx : ConnectorDb → Except String ConnectorDb}
    (h : ∀ db db', db.Valid → tx db = .ok db' → db'.Valid) : KeepsValid (withTransaction tx) := by
  intro s
  rw [withTransaction, Prog.holds_attempt]
  intro db _
  refine ⟨fun hvalid => ?_, trivial⟩
  cases htx : tx db with
  | error e => exact hvalid
  | ok db' => exact h db db' hvalid htx

end Keeps

theorem keepsValid_updateRead {now id orgId : String} {patch : ConnectorPatch}
    {existing : Connector} : KeepsValid (updateRead now id patch orgId existing) :=
  (keepsValid_withTransaction fun _ _ h hsave => valid_save h hsave).bind fun _ => keepsValid_read

theorem ConnectorOp.keepsValid (o : ConnectorOp) : KeepsValid o.code := by
  cases o with
  | create uid now input =>
    refine KeepsValid.bind ?_ fun _ => keepsValid_pure
    unfold ConnectorRepository.create
    cases connectorTemplate input.type with
    | none => exact keepsValid_throw
    | some template =>
      refine (keepsValid_withTransaction fun db db' h htx => ?_).bind fun _ =>
        keepsValid_read.bind fun saved => ?_
      · dsimp only at htx
        split at htx
        · exact h.unsetDefaults.insert htx
        · exact h.insert htx
      · cases saved with
        | none => exact keepsValid_throw
        | some saved => exact keepsValid_pure
  | update now id patch orgId =>
    refine KeepsValid.bind (keepsValid_read.bind fun found => ?_) fun _ => keepsValid_pure
    cases found with
    | none => exact keepsValid_pure
    | some existing => exact keepsValid_updateRead
  | delete id orgId =>
    refine KeepsValid.bind (keepsValid_read.bind fun found => ?_) fun _ => keepsValid_pure
    cases found with
    | none => exact keepsValid_pure
    | some existing =>
      exact KeepsValid.bind (fun _ _ _ => ⟨fun h => h.remove, trivial⟩) fun _ =>
        keepsValid_pure

/-! ## The sections of a quiet update -/

def OnlyReads (p : Prog ConnectorDb Unit) : Prop :=
  ∀ s, p.Holds (fun _ _ => True) Eq (fun _ _ => True) s

inductive Stage (now id : String) (patch : ConnectorPatch) (orgId : String) :
    Prog ConnectorDb Unit → Prop
  | started : Stage now id patch orgId (ConnectorOp.code (.update now id patch orgId))
  | pending (existing : Connector) :
      Stage now id patch orgId (pendingUpdate now id patch orgId existing)
  | written {p : Prog ConnectorDb Unit} : OnlyReads p → Stage now id patch orgId p

section Sections

variable {now id orgId : String} {patch : ConnectorPatch} {existing : Connector}
  {f : ConnectorDb → ConnectorDb} {k : ConnectorDb → Prog ConnectorDb Unit}

theorem started_section (h : ConnectorOp.code (.update now id patch orgId) = .sect f k)
    (s : ConnectorDb) : f s = s ∧ Stage now id patch orgId (k s) := by
  cases h
  refine ⟨rfl, ?_⟩
  cases hget : s.get id orgId with
  | none =>
    refine .written ?_
    simp only [hget]
    exact fun _ => trivial
  | some existing =>
    simp only [hget]
    exact .pending existing

theorem pending_section (h : pendingUpdate now id patch orgId existing = .sect f k)
    (s : ConnectorDb) :
    (∀ db', save now id existing patch orgId s = .ok db' → f s = db') ∧
      (∀ e, save now id existing patch orgId s = .error e → f s = s) ∧
      Stage now id patch orgId (k s) := by
  cases h
  cases hsave : save now id existing patch orgId s with
  | ok db' =>
    refine ⟨fun db'' h => ?_, fun e h => (nomatch h), .written ?_⟩
    · simp only [hsave]
      exact Except.ok.inj h
    · simp only [hsave]
      exact fun _ _ _ => ⟨rfl, trivial⟩
  | error e =>
    refine ⟨fun db'' h => (nomatch h), fun e' _ => ?_, .written ?_⟩
    · simp only [hsave]
    · simp only [hsave]
      exact fun _ => trivial

end Sections

/-! ## Runs -/

/-- A step of a quiet update is its transaction only where that moves no default: what was read of
the defaults still stands, or the write fails. -/
def Timely (c : Config ConnectorDb ConnectorOp Unit) : Label ConnectorOp → Prop
  | .start _ => True
  | .step i => ∀ now id patch orgId existing, patch.isDefault = none →
      c.threads[i]? = some ⟨.update now id patch orgId, pendingUpdate now id patch orgId existing⟩ →
      Undisturbed id orgId existing c.st ∨ Clashing now id existing patch orgId c.st

def Staged (c : Config ConnectorDb ConnectorOp Unit) : Prop :=
  ∀ th ∈ c.threads, ∀ now id patch orgId, th.op = .update now id patch orgId →
    Stage now id patch orgId th.prog

section Runs

variable {c c' c₀ : Config ConnectorDb ConnectorOp Unit} {i : ℕ} {now id orgId : String}
  {patch : ConnectorPatch}

theorem Stage.section {f : ConnectorDb → ConnectorDb} {k : ConnectorDb → Prog ConnectorDb Unit}
    {p : Prog ConnectorDb Unit} (h : Stage now id patch orgId p) (hp : p = .sect f k)
    (s : ConnectorDb) : Stage now id patch orgId (k s) := by
  cases h with
  | started => exact (started_section hp s).2
  | pending existing => exact (pending_section hp s).2.2
  | written hreads =>
    subst hp
    exact .written (hreads s s trivial).2.anywhere

theorem Staged.next (h : Staged c) (l : Label ConnectorOp)
    (hn : c.next ConnectorOp.code l = some c') : Staged c' := by
  intro th hmem now id patch orgId hop
  cases l with
  | start o =>
    rcases Config.mem_of_next_start hn hmem with hold | rfl
    · exact h th hold now id patch orgId hop
    · obtain rfl : o = .update now id patch orgId := hop
      exact .started
  | step i =>
    obtain ⟨o, f, k, hi, -, hi', hother⟩ := Config.next_step_threads hn
    rcases Config.mem_of_moved hi' hother hmem with rfl | ⟨j, -, hj⟩
    · exact (h _ (List.mem_of_getElem? hi) now id patch orgId hop).section rfl c.st
    · exact h th (List.mem_of_getElem? hj) now id patch orgId hop

theorem staged_of_run (h₀ : c₀.threads = [])
    (h : Run ConnectorOp.code (fun _ _ => True) c₀ c) : Staged c := by
  induction h with
  | init =>
    intro th hth
    rw [h₀] at hth
    cases hth
  | tail l _ _ hn ih => exact ih.next l hn

theorem quiet_step_iff (hvalid : c.st.Valid) (hstaged : Staged c)
    (hn : c.next ConnectorOp.code (.step i) = some c') {p : Prog ConnectorDb Unit}
    (hi : c.threads[i]? = some ⟨.update now id patch orgId, p⟩) (hquiet : patch.isDefault = none) :
    SameDefaults c.st c'.st ↔ Timely c (.step i) := by
  obtain ⟨o, f, k, hi', hst, -⟩ := Config.next_step hn
  cases hi.symm.trans hi'
  -- whatever the update has read, its transaction is the step
  have hpending : ∀ existing, Prog.sect f k = pendingUpdate now id patch orgId existing →
      (SameDefaults c.st c'.st ↔
        Undisturbed id orgId existing c.st ∨ Clashing now id existing patch orgId c.st) := by
    intro existing hp
    obtain ⟨hok, herror, -⟩ := pending_section hp.symm c.st
    rw [hst, ← save_fails_iff hquiet]
    cases hsave : save now id existing patch orgId c.st with
    | ok db' =>
      rw [hok db' hsave, sameDefaults_save_iff hvalid hquiet hsave]
      simp
    | error e =>
      rw [herror e hsave]
      exact iff_of_true (SameDefaults.refl _) (Or.inr ⟨e, rfl⟩)
  constructor
  · intro hsame now' id' patch' orgId' existing _ hi''
    cases hi.symm.trans hi''
    exact (hpending existing rfl).mp hsame
  · intro htimely
    have hstage := hstaged _ (List.mem_of_getElem? hi) now id patch orgId rfl
    generalize hp : Prog.sect f k = p at hstage hi
    cases hstage with
    | started =>
      rw [hst, (started_section hp.symm c.st).1]
      exact SameDefaults.refl _
    | pending existing =>
      exact (hpending existing hp).mpr (htimely now id patch orgId existing hquiet hi)
    | written hreads =>
      subst hp
      rw [hst, ← (hreads c.st c.st trivial).1]
      exact SameDefaults.refl _

/-- **Default connectors.** However creates, updates and deletes are interleaved, no org has two
defaults of one type; and a step of an update that does not mention `isDefault` leaves every
default where it is exactly if it is no transaction on what has since changed. -/
theorem defaults_unique_and_kept_iff (c₀ : Config ConnectorDb ConnectorOp Unit)
    (hvalid : c₀.st.Valid) (h₀ : c₀.threads = []) (c : Config ConnectorDb ConnectorOp Unit)
    (h : Run ConnectorOp.code (fun _ _ => True) c₀ c) :
    (∀ orgId type a b, c.st.IsDefault orgId type a → c.st.IsDefault orgId type b → a = b) ∧
    ∀ i c' now id patch orgId p, c.next ConnectorOp.code (.step i) = some c' →
      c.threads[i]? = some ⟨.update now id patch orgId, p⟩ → patch.isDefault = none →
      (SameDefaults c.st c'.st ↔ Timely c (.step i)) := by
  have hrelated : (fun s t : ConnectorDb => s.Valid → t.Valid) c₀.st c.st :=
    (Run.related (fun _ h => h) (fun _ _ _ hst htu h => htu (hst h)) (fun o s => o.keepsValid s)
      (fun th hth => by rw [h₀] at hth; cases hth) h).1
  have hnow : c.st.Valid := hrelated hvalid
  have hstaged : Staged c := staged_of_run h₀ h
  exact ⟨fun orgId type a b ha hb => hnow.unique ha hb,
    fun i c' now id patch orgId p hn hi hquiet => quiet_step_iff hnow hstaged hn hi hquiet⟩

end Runs

/-! ### Two connectors of a type -/

def prometheusRow (id : String) (isDefault : Bool) : ConnectorRow :=
  { id, orgId := "org", type := "prometheus", name := id, config := [], status := .active,
    lastVerifiedAt := none, lastVerifyError := none, isDefault, createdBy := "u", createdAt := "t",
    updatedAt := "t" }

def twoConnectors : ConnectorDb where
  orgs := ["org"]
  connectors := [prometheusRow "first" true, prometheusRow "second" false]

def renameFirst : ConnectorOp := .update "t" "first" { name := some "main" } "org"

def preferSecond : ConnectorOp := .update "t" "second" { isDefault := some true } "org"

theorem valid_twoConnectors : twoConnectors.Valid := by
  refine ⟨by decide, ?_⟩
  intro r hr r' hr' hdef hdef' _ _
  simp only [twoConnectors, List.mem_cons, List.not_mem_nil, or_false] at hr hr'
  rcases hr with rfl | rfl <;> rcases hr' with rfl | rfl <;> simp_all [prometheusRow]

/-- An update whose connector is gone by then moves no default. -/
theorem defaults_unique_and_kept_gone : ∃ c c' : Config ConnectorDb ConnectorOp Unit,
    Timely c (.step 0) ∧ SameDefaults c.st c'.st := by
  obtain ⟨c, hexec⟩ : ∃ c, Config.exec ConnectorOp.code
      ⟨⟨["org"], [prometheusRow "first" true], [], []⟩, []⟩
      [.start renameFirst, .start (.delete "first" "org"), .step 0, .step 1, .step 1] = some c :=
    ⟨_, rfl⟩
  have hrun : Run ConnectorOp.code (fun _ _ => True) _ c :=
    .of_exec .init (allOk_of_forall (fun _ _ => trivial) _ _) hexec
  have hnone : c.st.connectors = [] := by
    cases hexec
    rfl
  have htimely : Timely c (.step 0) := by
    intro now id patch orgId existing _ _
    refine Or.inl ⟨fun row hrow => ?_, fun _ other hother => ?_⟩
    · rw [ConnectorDb.find, hnone] at hrow
      cases hrow
    · obtain ⟨r, hr, -⟩ := hother
      rw [hnone] at hr
      cases hr
  obtain ⟨c', hn⟩ : ∃ c', c.next ConnectorOp.code (.step 0) = some c' := by
    cases hexec
    exact ⟨_, rfl⟩
  obtain ⟨p, hp⟩ : ∃ p, c.threads[0]? = some ⟨renameFirst, p⟩ := by
    cases hexec
    exact ⟨_, rfl⟩
  refine ⟨c, c', htimely, ((defaults_unique_and_kept_iff _ ⟨by decide, ?_⟩ rfl c hrun).2 0 c' "t"
    "first" { name := some "main" } "org" p hn hp rfl).mpr htimely⟩
  intro r hr r' hr' _ _ _ _
  rw [List.mem_singleton.mp hr, List.mem_singleton.mp hr']

/-- An update that has read the old default moves it back. -/
theorem stale_update_moves_default :
    ¬ ∀ c₀ : Config ConnectorDb ConnectorOp Unit, c₀.st.Valid → c₀.threads = [] →
      ∀ c, Run ConnectorOp.code (fun _ _ => True) c₀ c →
      (∀ orgId type a b, c.st.IsDefault orgId type a → c.st.IsDefault orgId type b → a = b) ∧
      ∀ i c' now id patch orgId p, c.next ConnectorOp.code (.step i) = some c' →
        c.threads[i]? = some ⟨.update now id patch orgId, p⟩ → patch.isDefault = none →
        SameDefaults c.st c'.st := by
  intro hall
  obtain ⟨c, hexec⟩ : ∃ c, Config.exec ConnectorOp.code ⟨twoConnectors, []⟩
      [.start renameFirst, .start preferSecond, .step 0, .step 1, .step 1, .step 1] = some c :=
    ⟨_, rfl⟩
  obtain ⟨c', hn⟩ : ∃ c', c.next ConnectorOp.code (.step 0) = some c' := by
    cases hexec
    exact ⟨_, rfl⟩
  obtain ⟨p, hp⟩ : ∃ p, c.threads[0]? = some ⟨renameFirst, p⟩ := by
    cases hexec
    exact ⟨_, rfl⟩
  have hsame := (hall ⟨twoConnectors, []⟩ valid_twoConnectors rfl c
    (.of_exec .init (allOk_of_forall (fun _ _ => trivial) _ _) hexec)).2 0 c' "t" "first"
      { name := some "main" } "org" p hn hp rfl "org" "prometheus" "first"
  cases hexec
  cases hn
  revert hsame
  decide +kernel

end OpenObs.Connectors
