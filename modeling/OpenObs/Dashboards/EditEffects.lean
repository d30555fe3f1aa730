import OpenObs.Dashboards.PanelRoutes
import OpenObs.Foundation.Serialize

/-!
# What an edit makes of a dashboard

The panels of a dashboard are known by their ids. An edit is a function of the list, and what it
promises about an id it keeps if it is applied to the list that stands in the row.
-/

namespace OpenObs.Dashboards

open OpenObs.Foundation OpenObs.Resources OpenObs.Rules OpenObs.Agent

/-! ## What is promised -/

def Shown (id panelId : String) (t : Tables) : Prop :=
  ∃ row, t.findDashboardById id = some row ∧ row.panels.any (hasId panelId) = true

def acknowledgedEdits (log : List (DashboardEdit × Except String EditAnswer)) :
    List DashboardEdit :=
  (log.filter fun entry => DashboardEdit.acknowledged entry.2).map Prod.fst

structure NoEditLost (id : String) (edits : List DashboardEdit) (t : Tables) : Prop where
  added : ∀ panelId, Stands (·.Adds panelId) (·.Takes panelId) edits → Shown id panelId t
  removed : ∀ panelId, Stands (·.Removes panelId) (·.Brings panelId) edits → ¬ Shown id panelId t
  titled : ∀ title, Stands (·.title = some title) (·.title ≠ none) edits →
    ∃ row, t.findDashboardById id = some row ∧ row.title = title

/-! ## An edit as a function of the panels -/

inductive EditedColumns : Type where
  | panels | «variables» | record | none
deriving DecidableEq

namespace DashboardEdit

def columns : DashboardEdit → EditedColumns
  | .postPanel _ _ _ _ => .panels
  | .deletePanel _ _ _ => .panels
  | .put _ _ _ => .record
  | .action _ (.addPanels _) => .panels
  | .action _ (.removePanels _) => .panels
  | .action _ (.modifyPanel _ _) => .panels
  | .action _ (.rearrange _) => .panels
  | .action _ (.addVariable _) => .variables
  | .action _ (.setTitle _ _) => .record
  | .action _ _ => .none

def change : DashboardEdit → List Json → List Json
  | .postPanel panelId _ _ body => (· ++ [newPanel panelId body])
  | .deletePanel _ _ panelId => withoutPanels [panelId]
  | .action _ (.addPanels panels) => (· ++ panels)
  | .action _ (.removePanels panelIds) => withoutPanels panelIds
  | .action _ (.modifyPanel panelId patch) => patchPanel panelId patch
  | .action _ (.rearrange layout) => rearranged layout
  | _ => id

variable {edit : DashboardEdit}

theorem change_of_columns (h : edit.columns ≠ .panels) (panels : List Json) :
    edit.change panels = panels := by
  cases edit with
  | postPanel panelId now caller body => exact absurd rfl h
  | deletePanel now caller panelId => exact absurd rfl h
  | put now caller body => rfl
  | action now action => cases action <;> first | rfl | exact absurd rfl h

theorem title_of_columns (h : edit.columns ≠ .record) : edit.title = none := by
  cases edit with
  | put now caller body => exact absurd rfl h
  | action now action => cases action <;> first | rfl | exact absurd rfl h
  | _ => rfl

end DashboardEdit

section Panels

variable {panelId : String} {panels : List Json} {p : Json}

theorem hasId_newPanel (body : Json.Record) : hasId panelId (newPanel panelId body) = true := by
  rw [hasId_iff]
  show asText (Json.field (assign body [("id", .str panelId)]) "id") = some panelId
  rw [@field_assign_last body [("id", .str panelId)] "id" (.str panelId) rfl]
  rfl

theorem hasId_patched {old : String} {patch : Json.Record} (hold : hasId old p = true) :
    hasId panelId (.obj (assign (spread p) patch)) = true ↔
      (match lastValue patch "id" with
        | some v => asText (some v) = some panelId
        | none => old = panelId) := by
  rw [hasId_iff]
  show asText (Json.field (assign (spread p) patch) "id") = some panelId ↔ _
  cases hv : lastValue patch "id" with
  | some v => rw [field_assign_last hv]
  | none =>
    have hnot : "id" ∉ patch.map Prod.fst := by
      intro hmem
      have hsome := lastValue_isSome hmem
      rw [hv] at hsome
      cases hsome
    rw [field_assign hnot]
    cases p with
    | obj fields =>
      have hfield : asText (Json.field fields "id") = some old := hasId_iff.mp hold
      show asText (Json.field fields "id") = some panelId ↔ old = panelId
      rw [hfield, Option.some.injEq]
    | _ => cases hold

theorem any_withoutPanels {gone : List String} :
    (withoutPanels gone panels).any (hasId panelId) = true ↔
      panels.any (hasId panelId) = true ∧ panelId ∉ gone := by
  rw [withoutPanels, List.any_eq_true, List.any_eq_true]
  constructor
  · rintro ⟨p, hp, hid⟩
    obtain ⟨hp, hnot⟩ := List.mem_filter.mp hp
    refine ⟨⟨p, hp, hid⟩, fun hmem => ?_⟩
    rw [Bool.not_eq_true', List.any_eq_false] at hnot
    exact hnot panelId hmem hid
  · rintro ⟨⟨p, hp, hid⟩, hnot⟩
    refine ⟨p, List.mem_filter.mpr ⟨hp, ?_⟩, hid⟩
    rw [Bool.not_eq_true', List.any_eq_false]
    intro old hold hp'
    rw [hasId_iff] at hid hp'
    rw [hid, Option.some.injEq] at hp'
    exact hnot (hp' ▸ hold)

theorem hasId_layout {layout : PanelLayout} (hlayout : hasId layout.panelId p = true) :
    hasId panelId (.obj (assign (spread p) layout.patch)) = hasId panelId p := by
  rw [Bool.eq_iff_iff, hasId_patched hlayout]
  show layout.panelId = panelId ↔ _
  rw [hasId_iff]
  rw [hasId_iff] at hlayout
  rw [hlayout, Option.some.injEq]

theorem any_rearranged {layout : List PanelLayout} :
    (rearranged layout panels).any (hasId panelId) = panels.any (hasId panelId) := by
  rw [rearranged, List.any_map]
  refine congrArg (panels.any ·) (funext fun p => ?_)
  dsimp only [Function.comp_apply]
  cases hfind : layout.find? fun l => hasId l.panelId p with
  | none => rfl
  | some l => exact hasId_layout (List.find?_some (p := fun l : PanelLayout => hasId l.panelId p) hfind)

end Panels

namespace DashboardEdit

variable {edit : DashboardEdit} {panelId : String} {panels : List Json}

theorem any_change_of_adds (h : edit.Adds panelId) :
    (edit.change panels).any (hasId panelId) = true := by
  cases edit with
  | postPanel newId now caller body =>
    obtain rfl : newId = panelId := h
    show (panels ++ [_]).any _ = true
    rw [List.any_append, List.any_cons, hasId_newPanel, Bool.true_or, Bool.or_true]
  | action now action =>
    cases action with
    | addPanels new =>
      show (panels ++ new).any _ = true
      have hnew : new.any (hasId panelId) = true := h
      rw [List.any_append, hnew, Bool.or_true]
    | _ => exact absurd h id
  | _ => exact absurd h id

theorem any_change_of_removes (h : edit.Removes panelId) :
    (edit.change panels).any (hasId panelId) ≠ true := by
  cases edit with
  | deletePanel now caller gone =>
    obtain rfl : gone = panelId := h
    exact fun hany => (any_withoutPanels.mp hany).2 (List.mem_singleton_self _)
  | action now action =>
    cases action with
    | removePanels gone => exact fun hany => (any_withoutPanels.mp hany).2 h
    | _ => exact absurd h id
  | _ => exact absurd h id

theorem any_change_kept (hany : panels.any (hasId panelId) = true) (hnot : ¬ edit.Takes panelId) :
    (edit.change panels).any (hasId panelId) = true := by
  by_cases hcolumns : edit.columns = .panels
  · cases edit with
    | postPanel newId now caller body =>
      show (panels ++ [_]).any _ = true
      rw [List.any_append, hany, Bool.true_or]
    | deletePanel now caller gone =>
      refine any_withoutPanels.mpr ⟨hany, fun hmem => hnot (Or.inl ?_)⟩
      exact (List.mem_singleton.mp hmem).symm
    | put now caller body => cases hcolumns
    | action now action =>
      cases action with
      | addPanels new =>
        show (panels ++ new).any _ = true
        rw [List.any_append, hany, Bool.true_or]
      | removePanels gone => exact any_withoutPanels.mpr ⟨hany, fun hmem => hnot (Or.inl hmem)⟩
      | modifyPanel old patch =>
        obtain ⟨p, hp, hid⟩ := List.any_eq_true.mp hany
        refine List.any_eq_true.mpr ⟨_, List.mem_map.mpr ⟨p, hp, rfl⟩, ?_⟩
        split
        · rename_i hold
          rw [hasId_patched hold]
          obtain rfl : old = panelId := by
            rw [hasId_iff] at hid hold
            exact Option.some.inj (hold.symm.trans hid)
          cases hv : lastValue patch "id" with
          | none => rfl
          | some v =>
            -- a patch with another id takes the panel
            by_contra hother
            exact hnot (Or.inr ⟨v, ⟨rfl, hv⟩, hother⟩)
        · exact hid
      | rearrange layout =>
        show (rearranged layout panels).any _ = true
        rw [any_rearranged, hany]
      | _ => cases hcolumns
  · rw [change_of_columns hcolumns]
    exact hany

theorem any_change_brought (hany : (edit.change panels).any (hasId panelId) = true) :
    panels.any (hasId panelId) = true ∨ edit.Brings panelId := by
  by_cases hcolumns : edit.columns = .panels
  · cases edit with
    | postPanel newId now caller body =>
      have hany : (panels ++ [newPanel newId body]).any (hasId panelId) = true := hany
      rw [List.any_append, Bool.or_eq_true] at hany
      refine hany.imp_right fun hnew => Or.inl ?_
      rw [List.any_cons, List.any_nil, Bool.or_false, hasId_iff] at hnew
      have hself := hasId_iff.mp (@hasId_newPanel newId body)
      exact Option.some.inj (hself.symm.trans hnew)
    | deletePanel now caller gone => exact Or.inl (any_withoutPanels.mp hany).1
    | put now caller body => cases hcolumns
    | action now action =>
      cases action with
      | addPanels new =>
        have hany : (panels ++ new).any (hasId panelId) = true := hany
        rw [List.any_append, Bool.or_eq_true] at hany
        exact hany.imp_right Or.inl
      | removePanels gone => exact Or.inl (any_withoutPanels.mp hany).1
      | modifyPanel old patch =>
        obtain ⟨q, hq, hid⟩ := List.any_eq_true.mp hany
        obtain ⟨p, hp, rfl⟩ := List.mem_map.mp hq
        split at hid
        · rename_i hold
          rw [hasId_patched hold] at hid
          cases hv : lastValue patch "id" with
          | none =>
            rw [hv] at hid
            obtain rfl : old = panelId := hid
            exact Or.inl (List.any_eq_true.mpr ⟨p, hp, hold⟩)
          | some v =>
            rw [hv] at hid
            have hv' := asText_eq_some hid
            rw [hv'] at hv
            exact Or.inr (Or.inr ⟨old, rfl, hv⟩)
        · exact Or.inl (List.any_eq_true.mpr ⟨p, hp, hid⟩)
      | rearrange layout =>
        have hany : (rearranged layout panels).any (hasId panelId) = true := hany
        rw [any_rearranged] at hany
        exact Or.inl hany
      | _ => cases hcolumns
  · rw [change_of_columns hcolumns] at hany
    exact Or.inl hany

end DashboardEdit

theorem NoEditLost.append {id : String} {edits : List DashboardEdit} {edit : DashboardEdit}
    {t t' : Tables} {row row' : Dashboard} (h : NoEditLost id edits t)
    (hrow : t.findDashboardById id = some row) (hrow' : t'.findDashboardById id = some row')
    (hpanels : row'.panels = edit.change row.panels)
    (htitle : row'.title = edit.title.getD row.title) : NoEditLost id (edits ++ [edit]) t' where
  added := by
    intro panelId hstands
    refine ⟨row', hrow', ?_⟩
    rw [hpanels]
    rcases stands_append.mp hstands with hadds | ⟨hstood, hnot⟩
    · exact DashboardEdit.any_change_of_adds hadds
    · obtain ⟨row₀, hrow₀, hany⟩ := h.added panelId hstood
      cases hrow.symm.trans hrow₀
      exact DashboardEdit.any_change_kept hany hnot
  removed := by
    rintro panelId hstands ⟨row₀, hrow₀, hany⟩
    cases hrow'.symm.trans hrow₀
    rw [hpanels] at hany
    rcases stands_append.mp hstands with hremoves | ⟨hstood, hnot⟩
    · exact DashboardEdit.any_change_of_removes hremoves hany
    · exact h.removed panelId hstood
        ⟨row, hrow, (DashboardEdit.any_change_brought hany).resolve_right hnot⟩
  titled := by
    intro title hstands
    refine ⟨row', hrow', ?_⟩
    rw [htitle]
    rcases stands_append.mp hstands with hset | ⟨hstood, hnot⟩
    · rw [hset, Option.getD_some]
    · obtain ⟨row₀, hrow₀, rfl⟩ := h.titled title hstood
      cases hrow.symm.trans hrow₀
      rw [not_not.mp hnot, Option.getD_none]

end OpenObs.Dashboards
