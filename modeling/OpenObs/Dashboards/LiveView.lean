import OpenObs.Dashboards.Executor

/-!
# The live view

`hooks/useDashboardChat.ts` keeps its own panels and variables and changes them by the events the
agent's actions send. It takes a panel or a variable only once, and does not listen to an empty
panel id.
-/

namespace OpenObs.Dashboards

open OpenObs.Foundation OpenObs.Resources OpenObs.Rules OpenObs.Agent

/-! ## The reducer -/

structure ClientView where
  panels : List Json
  «variables» : List Json

/-- Whether `if (v)` takes the branch. -/
def truthy : Json → Bool
  | .null => false
  | .bool b => b
  | .num n => n ≠ 0
  | .str s => s ≠ ""
  | _ => true

/-- `a === b` on values that were parsed, of which no two are the same object. -/
def strictEq : Option Json → Option Json → Bool
  | none, none => true
  | some .null, some .null => true
  | some (.bool a), some (.bool b) => a = b
  | some (.num a), some (.num b) => a = b
  | some (.str a), some (.str b) => a = b
  | _, _ => false

/-- The cases of `handleSSEEvent` that change panels or variables. -/
def handleSSEEvent (view : ClientView) : DashboardSseEvent → ClientView
  | .panelAdded panel =>
    if truthy panel then
      if view.panels.any fun p => strictEq (member p "id") (member panel "id") then view
      else { view with panels := view.panels ++ [panel] }
    else view
  | .panelRemoved panelId =>
    if panelId ≠ "" then { view with panels := view.panels.filter fun p => !hasId panelId p }
    else view
  | .panelModified panelId patch =>
    if panelId ≠ "" then { view with panels := patchPanel panelId patch view.panels } else view
  | .variableAdded v =>
    if truthy v then
      if view.variables.any fun w => strictEq (member w "name") (member v "name") then view
      else { view with «variables» := view.variables ++ [v] }
    else view
  | _ => view

/-! ## Actions -/

structure Issued where
  now : String
  action : DashboardAction
  repeated : Bool

def repeatedEvents : DashboardAction → List DashboardSseEvent
  | .addPanels panels => panels.map .panelAdded
  | .removePanels panelIds => panelIds.map .panelRemoved
  | .modifyPanel panelId patch => [.panelModified panelId patch]
  | _ => []

def Issued.apply (id : String) (issued : Issued) (s : Tables × ClientView) : Tables × ClientView :=
  let (outcome, t) := (ActionExecutor.applyAction issued.now id issued.action).run s.1
  match outcome with
  | .error _ => (t, s.2)
  | .ok events =>
    let events := events ++ if issued.repeated then repeatedEvents issued.action else []
    (t, events.foldl handleSSEEvent s.2)

def Fits (row : Dashboard) : DashboardAction → Prop
  | .addPanels panels =>
    -- fresh ids
    (∀ p ∈ panels, ∃ id, asText (member p "id") = some id ∧ row.panels.any (hasId id) = false) ∧
      (panels.map fun p => asText (member p "id")).Nodup
  | .removePanels panelIds => "" ∈ panelIds → row.panels.any (hasId "") = false
  | .modifyPanel panelId _ => panelId = "" → row.panels.any (hasId "") = false
  | .rearrange layout => ∀ p ∈ row.panels,
      (layout.find? fun l => hasId l.panelId p).map (·.patch) =
        (layout.reverse.find? fun l => hasId l.panelId p).map (·.patch) ∧
      ∀ l ∈ layout, hasId l.panelId p = true → l.panelId ≠ ""
  | .addVariable v => ∃ name, asText (member v "name") = some name ∧
      ∀ w ∈ row.variables, asText (member w "name") ≠ some name
  | _ => True

/-! ## One action -/

section Events

variable {view : ClientView} {panels : List Json} {panelIds : List String} {p : Json}

theorem strictEq_str {v : Option Json} {s : String} :
    strictEq v (some (.str s)) = true ↔ asText v = some s := by
  cases v with
  | none => simp [strictEq, asText]
  | some j => cases j <;> simp [strictEq, asText]

theorem truthy_of_member {v : Json} {key s : String} (h : asText (member v key) = some s) :
    truthy v = true := by
  cases v <;> first | rfl | cases h

theorem foldl_panelAdded (panels : List Json) : ∀ view : ClientView,
    (∀ p ∈ panels, ∃ id, asText (member p "id") = some id ∧ view.panels.any (hasId id) = false) →
    (panels.map fun p => asText (member p "id")).Nodup →
    (panels.map DashboardSseEvent.panelAdded).foldl handleSSEEvent view =
      { view with panels := view.panels ++ panels } := by
  induction panels with
  | nil =>
    intro view _ _
    rw [List.append_nil]
    rfl
  | cons p rest ih =>
    intro view hfresh hnodup
    obtain ⟨id, hid, hnew⟩ := hfresh p List.mem_cons_self
    have hmember := asText_eq_some hid
    rw [List.map_cons, List.nodup_cons] at hnodup
    have hfirst : handleSSEEvent view (.panelAdded p) =
        { view with panels := view.panels ++ [p] } := by
      rw [handleSSEEvent, if_pos (truthy_of_member hid), if_neg]
      rw [hmember, List.any_eq_true]
      rintro ⟨q, hq, hsame⟩
      rw [List.any_eq_false] at hnew
      exact hnew q hq (hasId_iff.mpr (strictEq_str.mp hsame))
    rw [List.map_cons, List.foldl_cons, hfirst, ih _ ?_ hnodup.2]
    · rw [List.append_assoc]
      rfl
    · intro q hq
      obtain ⟨id', hid', hnew'⟩ := hfresh q (List.mem_cons_of_mem _ hq)
      refine ⟨id', hid', ?_⟩
      rw [List.any_append, hnew', Bool.false_or, List.any_eq_false]
      intro r hr hsame
      rw [List.mem_singleton.mp hr, hasId_iff] at hsame
      exact hnodup.1 (List.mem_map.mpr ⟨q, hq, hid'.trans hsame.symm⟩)

theorem foldl_panelAdded_again (panels : List Json)
    (h : ∀ p ∈ panels, ∃ id, asText (member p "id") = some id ∧ view.panels.any (hasId id) = true) :
    (panels.map DashboardSseEvent.panelAdded).foldl handleSSEEvent view = view := by
  induction panels with
  | nil => rfl
  | cons p rest ih =>
    obtain ⟨id, hid, hold⟩ := h p List.mem_cons_self
    have hfirst : handleSSEEvent view (.panelAdded p) = view := by
      rw [handleSSEEvent, if_pos (truthy_of_member hid), if_pos]
      obtain ⟨q, hq, hsame⟩ := List.any_eq_true.mp hold
      refine List.any_eq_true.mpr ⟨q, hq, ?_⟩
      rw [asText_eq_some hid]
      exact strictEq_str.mpr (hasId_iff.mp hsame)
    rw [List.map_cons, List.foldl_cons, hfirst]
    exact ih fun q hq => h q (List.mem_cons_of_mem _ hq)

theorem foldl_panelRemoved (panelIds : List String) : ∀ view : ClientView,
    ("" ∈ panelIds → view.panels.any (hasId "") = false) →
    (panelIds.map DashboardSseEvent.panelRemoved).foldl handleSSEEvent view =
      { view with panels := withoutPanels panelIds view.panels } := by
  induction panelIds with
  | nil =>
    intro view _
    have hall : withoutPanels [] view.panels = view.panels := List.filter_eq_self.mpr fun _ _ => rfl
    rw [hall]
    rfl
  | cons id rest ih =>
    intro view hempty
    have hfirst : handleSSEEvent view (.panelRemoved id) =
        { view with panels := view.panels.filter fun p => !hasId id p } := by
      rw [handleSSEEvent]
      split
      · rfl
      · rename_i hnot
        rw [not_not] at hnot
        subst hnot
        have hnone := List.any_eq_false.mp (hempty List.mem_cons_self)
        have hself : view.panels.filter (fun p => !hasId "" p) = view.panels := by
          refine List.filter_eq_self.mpr fun p hp => ?_
          rw [Bool.not_eq_true', ← Bool.not_eq_true]
          exact hnone p hp
        rw [hself]
    rw [List.map_cons, List.foldl_cons, hfirst, ih]
    · unfold withoutPanels
      dsimp only
      rw [List.filter_filter]
      refine congrArg (fun panels => (⟨panels, view.variables⟩ : ClientView))
        (List.filter_congr fun p _ => ?_)
      rw [List.any_cons, Bool.not_or, Bool.and_comm]
    · intro hmem
      have hnone := List.any_eq_false.mp (hempty (List.mem_cons_of_mem _ hmem))
      exact List.any_eq_false.mpr fun p hp => hnone p (List.mem_filter.mp hp).1

theorem withoutPanels_withoutPanels :
    withoutPanels panelIds (withoutPanels panelIds panels) = withoutPanels panelIds panels := by
  unfold withoutPanels
  rw [List.filter_filter]
  exact List.filter_congr fun p _ => Bool.and_self _

theorem withoutPanels_filter :
    withoutPanels (panelIds.filter fun id => panels.any (hasId id)) panels =
      withoutPanels panelIds panels := by
  refine List.filter_congr fun p hp => congrArg (!·) ?_
  rw [Bool.eq_iff_iff, List.any_eq_true, List.any_eq_true]
  constructor
  · rintro ⟨id, hid, hhas⟩
    exact ⟨id, (List.mem_filter.mp hid).1, hhas⟩
  · rintro ⟨id, hid, hhas⟩
    exact ⟨id, List.mem_filter.mpr ⟨hid, List.any_eq_true.mpr ⟨p, hp, hhas⟩⟩, hhas⟩

theorem patchPanel_of_none {id : String} {patch : Json.Record} (h : panels.any (hasId id) = false) :
    patchPanel id patch panels = panels := by
  refine (List.map_congr_left fun p hp => ?_).trans (List.map_id panels)
  rw [if_neg (List.any_eq_false.mp h p hp)]
  rfl

theorem patchPanel_patchPanel {id : String} {patch : Json.Record} :
    patchPanel id patch (patchPanel id patch panels) = patchPanel id patch panels := by
  unfold patchPanel
  rw [List.map_map]
  refine List.map_congr_left fun p _ => ?_
  dsimp only [Function.comp]
  by_cases hid : hasId id p = true
  · simp only [if_pos hid]
    split
    · exact congrArg Json.obj (assign_assign rfl)
    · rfl
  · simp only [if_neg hid]

def moved (p : Json) (l : PanelLayout) : Json :=
  if l.panelId ≠ "" ∧ hasId l.panelId p = true then .obj (assign (spread p) l.patch) else p

theorem foldl_panelModified (layout : List PanelLayout) : ∀ view : ClientView,
    (layout.map fun l => DashboardSseEvent.panelModified l.panelId l.patch).foldl handleSSEEvent
        view = { view with panels := view.panels.map fun p => layout.foldl moved p } := by
  induction layout with
  | nil =>
    intro view
    show view = ⟨view.panels.map id, view.variables⟩
    rw [List.map_id]
  | cons l rest ih =>
    intro view
    have hfirst : handleSSEEvent view (.panelModified l.panelId l.patch) =
        { view with panels := view.panels.map fun p => moved p l } := by
      rw [handleSSEEvent]
      split
      · rename_i hne
        refine congrArg (fun panels => (⟨panels, view.variables⟩ : ClientView))
          (List.map_congr_left fun p _ => ?_)
        rw [moved]
        simp only [hne, ne_eq, not_false_eq_true, true_and]
      · rename_i hempty
        have hself : (view.panels.map fun p => moved p l) = view.panels := by
          refine (List.map_congr_left fun p _ => ?_).trans (List.map_id _)
          exact if_neg fun hboth => hempty hboth.1
        rw [hself]
    rw [List.map_cons, List.foldl_cons, hfirst, ih]
    dsimp only
    rw [List.map_map]
    rfl

theorem hasId_moved {l : PanelLayout} {id : String} : hasId id (moved p l) = hasId id p := by
  unfold moved
  split
  · rename_i hboth
    cases p with
    | obj r =>
      show decide (asText (Json.field (assign r l.patch) "id") = some id) = _
      rw [field_assign]
      · rfl
      · show "id" ∉ ["row", "col", "width", "height"]
        decide
    | _ =>
      have hno := hboth.2
      rw [hasId_iff] at hno
      cases hno
  · rfl

theorem foldl_moved (layout : List PanelLayout) (p : Json)
    (hid : ∀ l ∈ layout, hasId l.panelId p = true → l.panelId ≠ "") :
    layout.foldl moved p =
      match layout.reverse.find? fun l => hasId l.panelId p with
      | some l => .obj (assign (spread p) l.patch)
      | none => p := by
  induction layout using List.reverseRecOn with
  | nil => rfl
  | append_singleton layout l ih =>
    have hrest := ih fun l hl => hid l (List.mem_append_left _ hl)
    have hkeep : ∀ id, hasId id (layout.foldl moved p) = hasId id p := by
      intro id
      clear hrest ih hid
      induction layout using List.reverseRecOn with
      | nil => rfl
      | append_singleton layout l ih => rw [List.foldl_append, List.foldl_cons, List.foldl_nil,
          hasId_moved, ih]
    rw [List.foldl_append, List.foldl_cons, List.foldl_nil, List.reverse_append,
      List.reverse_singleton, List.singleton_append, List.find?_cons]
    cases hmatch : hasId l.panelId p with
    | false =>
      dsimp only
      rw [← hrest, moved, if_neg]
      rw [hkeep, hmatch]
      exact fun hboth => Bool.false_ne_true hboth.2
    | true =>
      dsimp only
      have hne := hid l (List.mem_append_right _ (List.mem_singleton_self _)) hmatch
      rw [moved, if_pos ⟨hne, (hkeep _).trans hmatch⟩, hrest]
      split
      · exact congrArg Json.obj (assign_assign rfl)
      · rfl

theorem rearranged_eq_foldl {layout : List PanelLayout} (h : ∀ p ∈ panels,
    (layout.find? fun l => hasId l.panelId p).map (·.patch) =
      (layout.reverse.find? fun l => hasId l.panelId p).map (·.patch) ∧
    ∀ l ∈ layout, hasId l.panelId p = true → l.panelId ≠ "") :
    rearranged layout panels = panels.map fun p => layout.foldl moved p := by
  refine List.map_congr_left fun p hp => ?_
  obtain ⟨hsame, hid⟩ := h p hp
  rw [foldl_moved layout p hid]
  cases hfirst : layout.find? fun l => hasId l.panelId p with
  | none =>
    rw [hfirst, Option.map_none] at hsame
    rw [Option.map_eq_none_iff.mp hsame.symm]
  | some l =>
    rw [hfirst, Option.map_some] at hsame
    obtain ⟨l', hlast, hpatch⟩ := Option.map_eq_some_iff.mp hsame.symm
    rw [hlast]
    dsimp only
    rw [hpatch]

end Events

/-! ## Runs -/

section Runs

variable {t t' : Tables} {id : String} {row : Dashboard} {issued : Issued} {view view' : ClientView}
  {events : List DashboardSseEvent}

def shown (row : Dashboard) : ClientView := ⟨row.panels, row.variables⟩

def Agrees (id : String) (s : Tables × ClientView) : Prop :=
  ∃ row, s.1.findDashboardById id = some row ∧ s.2 = shown row

theorem agrees_of_error {e : String} (hview : Agrees id (t, view))
    (h : (ActionExecutor.applyAction issued.now id issued.action).run t = (.error e, t)) :
    Agrees id (issued.apply id (t, view)) := by
  have happly : issued.apply id (t, view) = (t, view) := by
    unfold Issued.apply
    dsimp only
    rw [h]
  rw [happly]
  exact hview

theorem agrees_of_ok {row' : Dashboard}
    (h : (ActionExecutor.applyAction issued.now id issued.action).run t = (.ok events, t'))
    (hrow : t'.findDashboardById id = some row')
    (hevents : events.foldl handleSSEEvent view = shown row')
    (hagain : (repeatedEvents issued.action).foldl handleSSEEvent (shown row') = shown row') :
    Agrees id (issued.apply id (t, view)) := by
  have happly : issued.apply id (t, view) = (t', shown row') := by
    unfold Issued.apply
    dsimp only
    rw [h]
    dsimp only
    rw [List.foldl_append, hevents]
    split
    · rw [hagain]
    · rfl
  rw [happly]
  exact ⟨row', hrow, rfl⟩

theorem run_modify_events (edit : Dashboard → Dashboard → Dashboard)
    (hedit : ∀ existing d, (edit existing d).id = d.id) (hrow : t.findDashboardById id = some row)
    (events : List DashboardSseEvent) :
    ∃ t', ((do
        let _ ← DashboardRepository.modify id edit
        return events : Prog Tables (List DashboardSseEvent))).run t = (.ok events, t') ∧
      t'.findDashboardById id = some (edit (rowToDashboard row) row) := by
  obtain ⟨hmodify, hfound⟩ := run_modify_found edit hedit hrow
  refine ⟨_, ?_, hfound⟩
  rw [Prog.run_bind, hmodify]
  rfl

open ActionExecutor in
theorem agrees_of_change {change : List Json → List Json}
    (hrow : t.findDashboardById id = some row)
    (hrun : (applyAction issued.now id issued.action).run t =
      (updatePanelsWith issued.now id row.panels change events).run t)
    (hevents : events.foldl handleSSEEvent (shown row) = ⟨change row.panels, row.variables⟩)
    (hagain : (repeatedEvents issued.action).foldl handleSSEEvent
      ⟨change row.panels, row.variables⟩ = ⟨change row.panels, row.variables⟩) :
    Agrees id (issued.apply id (t, shown row)) := by
  rw [updatePanelsWith] at hrun
  split at hrun
  · exact agrees_of_error ⟨row, hrow, rfl⟩ hrun
  · rename_i panels hreadable
    have hsame : panels = row.panels := by
      unfold readable at hreadable
      split at hreadable
      · cases hreadable
      · cases hreadable
        rfl
    subst hsame
    obtain ⟨t', hwrite, hfound⟩ := run_modify_events
      (fun _ d => { d with panels := change row.panels, updatedAt := issued.now })
      (fun _ _ => rfl) hrow events
    exact agrees_of_ok (hrun.trans hwrite) hfound hevents hagain

theorem handleSSEEvent_panelModified {panelId : String} {patch : Json.Record} {panels : List Json}
    (hempty : panelId = "" → patchPanel panelId patch panels = panels) :
    handleSSEEvent ⟨panels, row.variables⟩ (.panelModified panelId patch) =
      ⟨patchPanel panelId patch panels, row.variables⟩ := by
  rw [handleSSEEvent]
  split
  · rfl
  · rename_i hnot
    rw [hempty (not_not.mp hnot)]

open ActionExecutor DashboardRepository in
theorem Issued.agrees (hrow : t.findDashboardById id = some row) (hfits : Fits row issued.action) :
    Agrees id (issued.apply id (t, shown row)) := by
  obtain ⟨now, action, repeated⟩ := issued
  have hview : Agrees id (t, shown row) := ⟨row, hrow, rfl⟩
  by_cases hprovisioned : isProvisioned row.source = true
  · refine agrees_of_error hview (e := provisionedMessage "dashboard" row.id row.source) ?_
    rw [applyAction, findById, Prog.run_bind, Prog.run_read, hrow]
    exact congrArg (fun p : Prog Tables _ => p.run t) (if_pos hprovisioned)
  have hrun : (applyAction now id action).run t =
      (applyTo now (rowToDashboard row) id action).run t := by
    rw [applyAction, findById, Prog.run_bind, Prog.run_read, hrow]
    exact congrArg (fun p : Prog Tables _ => p.run t) (if_neg hprovisioned)
  cases action with
  | addPanels panels =>
    obtain ⟨hfresh, hnodup⟩ := hfits
    obtain ⟨t', hwrite, hfound⟩ := run_modify_events
      (fun _ d => { d with panels := row.panels ++ panels, updatedAt := now })
      (fun _ _ => rfl) hrow (panels.map .panelAdded)
    refine agrees_of_ok (hrun.trans hwrite) hfound
      (foldl_panelAdded panels (shown row) hfresh hnodup)
      (foldl_panelAdded_again panels fun p hp => ?_)
    obtain ⟨panelId, hid, -⟩ := hfresh p hp
    exact ⟨panelId, hid, List.any_eq_true.mpr ⟨p, List.mem_append_right _ hp, hasId_iff.mpr hid⟩⟩
  | removePanels panelIds =>
    refine agrees_of_change hrow hrun ?_ ?_
    · rw [foldl_panelRemoved]
      · exact congrArg (fun panels => (⟨panels, row.variables⟩ : ClientView)) withoutPanels_filter
      · exact fun hmem => hfits (List.mem_filter.mp hmem).1
    · refine (foldl_panelRemoved panelIds _ fun hmem => ?_).trans ?_
      · have hnone := List.any_eq_false.mp (hfits hmem)
        exact List.any_eq_false.mpr fun p hp => hnone p (List.mem_filter.mp hp).1
      · exact congrArg (fun panels => (⟨panels, row.variables⟩ : ClientView))
          withoutPanels_withoutPanels
  | modifyPanel panelId patch =>
    refine agrees_of_change hrow hrun ?_ ?_
    · show (if row.panels.any (hasId panelId) then
        [DashboardSseEvent.panelModified panelId patch] else []).foldl handleSSEEvent (shown row) = _
      cases hany : row.panels.any (hasId panelId) with
      | true =>
        refine handleSSEEvent_panelModified fun hempty => ?_
        rw [hempty] at hany
        rw [hfits hempty] at hany
        cases hany
      | false =>
        rw [patchPanel_of_none hany]
        rfl
    · refine (handleSSEEvent_panelModified fun _ => patchPanel_patchPanel).trans ?_
      rw [patchPanel_patchPanel]
  | rearrange layout =>
    refine agrees_of_change hrow hrun ?_ rfl
    rw [foldl_panelModified, rearranged_eq_foldl hfits]
    rfl
  | addVariable v =>
    obtain ⟨name, hname, hnew⟩ := hfits
    obtain ⟨t', hwrite, hfound⟩ := run_modify_events
      (fun _ d => { d with «variables» := row.variables ++ [v], updatedAt := now })
      (fun _ _ => rfl) hrow [.variableAdded v]
    refine agrees_of_ok (hrun.trans hwrite) hfound ?_ rfl
    -- the view looks the name up, and the store does not
    show handleSSEEvent (shown row) (.variableAdded v) = _
    rw [handleSSEEvent, if_pos (truthy_of_member hname), if_neg]
    · rfl
    · rw [asText_eq_some hname, List.any_eq_true]
      rintro ⟨w, hw, hsame⟩
      exact hnew w hw (strictEq_str.mp hsame)
  | setTitle title description =>
    obtain ⟨t', hwrite, hfound⟩ := run_modify_events
      (merge now { title := some title, description }) (fun _ _ => rfl) hrow
      [.thinking "Dashboard title updated"]
    exact agrees_of_ok (hrun.trans hwrite) hfound rfl rfl
  | createAlertRule => exact agrees_of_ok hrun hrow rfl rfl
  | modifyAlertRule => exact agrees_of_ok hrun hrow rfl rfl
  | deleteAlertRule => exact agrees_of_ok hrun hrow rfl rfl

def AllFit (id : String) : List Issued → Tables × ClientView → Prop
  | [], _ => True
  | issued :: rest, s =>
    (∀ row, s.1.findDashboardById id = some row → Fits row issued.action) ∧
      AllFit id rest (issued.apply id s)

theorem Agrees.run (actions : List Issued) : ∀ s, Agrees id s → AllFit id actions s →
    Agrees id (actions.foldl (fun s issued => issued.apply id s) s) := by
  induction actions with
  | nil => exact fun _ h _ => h
  | cons issued rest ih =>
    rintro ⟨t, view⟩ ⟨row, hrow, hview⟩ ⟨hfits, hrest⟩
    dsimp only at hrow hview hfits
    subst hview
    exact ih _ (issued.agrees hrow (hfits row hrow)) hrest

end Runs

/-- **Live view.** A view that shows the stored dashboard shows it after any actions that fit. -/
theorem view_agrees (id : String) (actions : List Issued) (t : Tables) (view : ClientView)
    (hview : Agrees id (t, view)) (hfit : AllFit id actions (t, view)) :
    Agrees id (actions.foldl (fun s issued => issued.apply id s) (t, view)) :=
  hview.run actions _ hfit

section Examples

def openDashboard : Dashboard where
  id := "d1"
  title := "Checkout"
  description := ""
  prompt := ""
  userId := "u1"
  «variables» := [.obj [("name", .str "env")]]

def latency : Json := .obj [("id", .str "p1"), ("row", .num 0), ("col", .num 0)]

/-- A panel is added, moved, changed and removed, and a variable is added. -/
theorem view_agrees_edits : Agrees "d1" ([
    { now := "t1", action := .addPanels [latency], repeated := true },
    { now := "t2", action := .rearrange [⟨"p1", .num 3, .num 6, .num 6, .num 3⟩], repeated := false },
    { now := "t3", action := .modifyPanel "p1" [("id", .str "p2")], repeated := true },
    { now := "t4", action := .addVariable (.obj [("name", .str "pod")]), repeated := false },
    { now := "t5", action := .removePanels ["p1", "p2", "p2"], repeated := true }].foldl
      (fun s (issued : Issued) => issued.apply "d1" s)
      ({ dashboards := [openDashboard] }, shown openDashboard)) := by
  refine view_agrees "d1" _ _ _ ⟨openDashboard, rfl, rfl⟩ ⟨?_, ?_, ?_, ?_, ?_, trivial⟩
  · rintro row ⟨⟩
    refine ⟨fun p hp => ⟨"p1", ?_, rfl⟩, List.nodup_singleton _⟩
    rw [List.mem_singleton.mp hp]
    rfl
  · rintro row ⟨⟩ p hp
    rw [List.mem_singleton.mp hp]
    refine ⟨rfl, fun l hl _ => ?_⟩
    rw [List.mem_singleton.mp hl]
    decide
  · rintro row ⟨⟩ hempty
    exact absurd hempty (by decide)
  · rintro row ⟨⟩
    refine ⟨"pod", rfl, fun w hw => ?_⟩
    rw [List.mem_singleton.mp hw]
    decide
  · rintro row ⟨⟩ hempty
    exact absurd hempty (by decide)

/-- A variable whose name is taken is stored a second time, and not shown. -/
theorem second_variable_not_shown :
    Agrees "d1" ({ dashboards := [openDashboard] }, shown openDashboard) ∧
      ¬ Agrees "d1" (Issued.apply "d1"
        { now := "t1", action := .addVariable (.obj [("name", .str "env")]), repeated := false }
        ({ dashboards := [openDashboard] }, shown openDashboard)) := by
  refine ⟨⟨openDashboard, rfl, rfl⟩, ?_⟩
  rintro ⟨row, hrow, hview⟩
  cases hrow
  exact absurd (congrArg (·.variables.length) hview) (by decide)

end Examples

end OpenObs.Dashboards
