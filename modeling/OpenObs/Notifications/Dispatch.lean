import Mathlib.Data.Int.Notation
import Mathlib.Data.List.Nodup

/-!
# The dispatch table

`notification_dispatch` and `repository/sqlite/notification-dispatch.ts`. A table
carries its primary key and its unique index, which does not contain the org.
-/

namespace OpenObs.Notifications

structure DispatchKey where
  orgId : String
  fingerprint : String
  contactPointId : String
  groupKey : String
deriving DecidableEq

structure DispatchRow where
  id : ℕ
  key : DispatchKey
  lastSentAt : ℤ
  sentCount : ℕ
deriving DecidableEq

def DispatchKey.index (key : DispatchKey) : String × String × String :=
  (key.fingerprint, key.contactPointId, key.groupKey)

structure DispatchTable where
  rows : List DispatchRow := []
  nextId : ℕ := 0
  id_lt : ∀ r ∈ rows, r.id < nextId := by simp
  id_unique : (rows.map (·.id)).Nodup := by simp
  index_unique : (rows.map (·.key.index)).Nodup := by simp

namespace DispatchTable

def findByKey (t : DispatchTable) (key : DispatchKey) : Option DispatchRow :=
  t.rows.find? (·.key = key)

/-- `UPDATE … WHERE id = …`. -/
def update (t : DispatchTable) (id : ℕ) (sentAt : ℤ) (sentCount : ℕ) : DispatchTable where
  rows := t.rows.map fun r =>
    if r.id = id then { r with lastSentAt := sentAt, sentCount := sentCount } else r
  nextId := t.nextId
  id_lt := by
    intro r hr
    obtain ⟨r₀, hr₀, rfl⟩ := List.mem_map.mp hr
    have hlt := t.id_lt r₀ hr₀
    split <;> exact hlt
  id_unique := by
    have hsame : (t.rows.map fun r =>
        if r.id = id then { r with lastSentAt := sentAt, sentCount := sentCount } else r).map (·.id) =
        t.rows.map (·.id) := by
      rw [List.map_map]
      apply List.map_congr_left
      intro r _
      simp only [Function.comp_apply]
      split <;> rfl
    rw [hsame]
    exact t.id_unique
  index_unique := by
    have hsame : (t.rows.map fun r =>
        if r.id = id then { r with lastSentAt := sentAt, sentCount := sentCount }
        else r).map (·.key.index) = t.rows.map (·.key.index) := by
      rw [List.map_map]
      apply List.map_congr_left
      intro r _
      simp only [Function.comp_apply]
      split <;> rfl
    rw [hsame]
    exact t.index_unique

/-- `INSERT`: a row of the same index, of whatever org, makes it fail. -/
def insert (t : DispatchTable) (key : DispatchKey) (sentAt : ℤ) : Except String DispatchTable :=
  if h : key.index ∈ t.rows.map (·.key.index) then .error "UNIQUE constraint failed"
  else .ok {
    rows := t.rows ++ [⟨t.nextId, key, sentAt, 1⟩]
    nextId := t.nextId + 1
    id_lt := by
      intro r hr
      rcases List.mem_append.mp hr with hr | hr
      · exact Nat.lt_succ_of_lt (t.id_lt r hr)
      · rw [List.mem_singleton.mp hr]
        exact Nat.lt_succ_self _
    id_unique := by
      rw [List.map_append, List.nodup_append]
      refine ⟨t.id_unique, List.nodup_singleton _, ?_⟩
      rintro a ha b hb rfl
      obtain ⟨r, hr, rfl⟩ := List.mem_map.mp ha
      obtain hid : r.id = t.nextId := by simpa using hb
      exact absurd (t.id_lt r hr) (by omega)
    index_unique := by
      rw [List.map_append, List.nodup_append]
      refine ⟨t.index_unique, List.nodup_singleton _, ?_⟩
      rintro a ha b hb rfl
      exact h (by simpa [List.mem_singleton.mp hb] using ha) }

/-! ## Rows and keys -/

variable {t : DispatchTable} {key key' : DispatchKey} {row : DispatchRow}

theorem mem_of_findByKey (h : t.findByKey key = some row) : row ∈ t.rows ∧ row.key = key :=
  ⟨List.mem_of_find?_eq_some h, by simpa using List.find?_some h⟩

theorem eq_of_id {r r' : DispatchRow} (hr : r ∈ t.rows) (hr' : r' ∈ t.rows) (h : r.id = r'.id) :
    r = r' := List.inj_on_of_nodup_map t.id_unique hr hr' h

theorem eq_of_key {r r' : DispatchRow} (hr : r ∈ t.rows) (hr' : r' ∈ t.rows)
    (h : r.key = r'.key) : r = r' :=
  List.inj_on_of_nodup_map t.index_unique hr hr' (congrArg DispatchKey.index h)

theorem findByKey_eq_some_iff : t.findByKey key = some row ↔ row ∈ t.rows ∧ row.key = key := by
  refine ⟨mem_of_findByKey, fun ⟨hmem, hkey⟩ => ?_⟩
  cases h : t.findByKey key with
  | none => exact absurd hkey (by simpa using List.find?_eq_none.mp h row hmem)
  | some r =>
    obtain ⟨hr, hrkey⟩ := mem_of_findByKey h
    rw [eq_of_key hr hmem (hrkey.trans hkey.symm)]

theorem length_rows_le_one (t : DispatchTable) (key : DispatchKey) :
    (t.rows.filter (·.key = key)).length ≤ 1 := by
  have hmem : ∀ r ∈ t.rows.filter (·.key = key), r ∈ t.rows ∧ r.key = key := by
    simp
  have hnodup := (List.Nodup.of_map _ t.index_unique).filter (·.key = key)
  cases hrows : t.rows.filter (·.key = key) with
  | nil => exact Nat.zero_le _
  | cons r rest =>
    cases rest with
    | nil => exact Nat.le_refl _
    | cons r' rest =>
      rw [hrows] at hmem hnodup
      obtain ⟨hr, hkey⟩ := hmem r List.mem_cons_self
      obtain ⟨hr', hkey'⟩ := hmem r' (List.mem_cons_of_mem _ List.mem_cons_self)
      have hsame := eq_of_key hr hr' (hkey.trans hkey'.symm)
      exact absurd (hsame ▸ List.mem_cons_self) (List.nodup_cons.mp hnodup).1

theorem findByKey_eq_none_iff : t.findByKey key = none ↔ ∀ r ∈ t.rows, r.key ≠ key := by
  simp [findByKey]

theorem findByKey_update (hrow : t.findByKey key = some row) (sentAt : ℤ) (n : ℕ) :
    (t.update row.id sentAt n).findByKey key' =
      if key' = key then some { row with lastSentAt := sentAt, sentCount := n }
      else t.findByKey key' := by
  obtain ⟨hmem, hkey⟩ := mem_of_findByKey hrow
  split
  · rename_i heq
    subst heq
    refine findByKey_eq_some_iff.mpr ⟨List.mem_map.mpr ⟨row, hmem, ?_⟩, hkey⟩
    rw [if_pos rfl]
  · rename_i hne
    have hold : ∀ r ∈ t.rows, r.key = key' → r.id ≠ row.id := by
      intro r hr hrkey hid
      rw [eq_of_id hr hmem hid] at hrkey
      exact hne (hrkey.symm.trans hkey)
    cases h : t.findByKey key' with
    | none =>
      refine findByKey_eq_none_iff.mpr fun r hr => ?_
      obtain ⟨r₀, hr₀, rfl⟩ := List.mem_map.mp hr
      have hne₀ := findByKey_eq_none_iff.mp h r₀ hr₀
      split <;> exact hne₀
    | some r =>
      obtain ⟨hr, hrkey⟩ := mem_of_findByKey h
      refine findByKey_eq_some_iff.mpr ⟨List.mem_map.mpr ⟨r, hr, ?_⟩, hrkey⟩
      rw [if_neg (hold r hr hrkey)]

theorem findByKey_insert {t' : DispatchTable} {sentAt : ℤ} (h : t.insert key sentAt = .ok t') :
    t'.findByKey key' =
      if key' = key then some ⟨t.nextId, key, sentAt, 1⟩ else t.findByKey key' := by
  unfold insert at h
  split at h
  · cases h
  · rename_i hnew
    cases h
    have hnone : ∀ r ∈ t.rows, r.key ≠ key := fun r hr heq =>
      hnew (List.mem_map.mpr ⟨r, hr, congrArg DispatchKey.index heq⟩)
    simp only [findByKey, List.find?_append]
    split
    · rename_i heq
      subst heq
      rw [findByKey_eq_none_iff.mpr hnone |> fun h => (h : t.rows.find? _ = none)]
      simp
    · rename_i hne
      simp [Ne.symm hne]

/-! ## Rows stay -/

def Grows (t t' : DispatchTable) : Prop :=
  ∀ r ∈ t.rows, ∃ r' ∈ t'.rows, r'.id = r.id ∧ r'.key = r.key

theorem Grows.refl (t : DispatchTable) : t.Grows t := fun r hr => ⟨r, hr, rfl, rfl⟩

theorem Grows.trans {t t' t'' : DispatchTable} (h : t.Grows t') (h' : t'.Grows t'') :
    t.Grows t'' := by
  intro r hr
  obtain ⟨r', hr', hid, hkey⟩ := h r hr
  obtain ⟨r'', hr'', hid', hkey'⟩ := h' r' hr'
  exact ⟨r'', hr'', hid'.trans hid, hkey'.trans hkey⟩

theorem grows_update (t : DispatchTable) (id : ℕ) (sentAt : ℤ) (n : ℕ) :
    t.Grows (t.update id sentAt n) := by
  intro r hr
  refine ⟨_, List.mem_map.mpr ⟨r, hr, rfl⟩, ?_⟩
  split <;> exact ⟨rfl, rfl⟩

theorem grows_insert {t' : DispatchTable} {sentAt : ℤ} (h : t.insert key sentAt = .ok t') :
    t.Grows t' := by
  unfold insert at h
  split at h
  · cases h
  · cases h
    exact fun r hr => ⟨r, List.mem_append_left _ hr, rfl, rfl⟩

theorem findByKey_update_of_grows {t' : DispatchTable} (hgrows : t.Grows t') (hrow : row ∈ t.rows)
    (hne : row.key ≠ key) (sentAt : ℤ) (n : ℕ) :
    (t'.update row.id sentAt n).findByKey key = t'.findByKey key := by
  obtain ⟨row', hrow', hid, hkey⟩ := hgrows row hrow
  have hfound : t'.findByKey row'.key = some row' := findByKey_eq_some_iff.mpr ⟨hrow', rfl⟩
  rw [← hid, findByKey_update hfound, if_neg]
  rw [hkey]
  exact Ne.symm hne

theorem insert_of_findByKey_none (hown : ∀ r ∈ t.rows, r.key.index = key.index → r.key = key)
    (hnone : t.findByKey key = none) (sentAt : ℤ) : ∃ t', t.insert key sentAt = .ok t' := by
  have hnew : ¬ key.index ∈ t.rows.map (·.key.index) := by
    intro hmem
    obtain ⟨r, hr, hindex⟩ := List.mem_map.mp hmem
    exact findByKey_eq_none_iff.mp hnone r hr (hown r hr hindex)
  unfold insert
  rw [dif_neg hnew]
  exact ⟨_, rfl⟩

end DispatchTable

end OpenObs.Notifications
