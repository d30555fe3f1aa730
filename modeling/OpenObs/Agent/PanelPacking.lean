import OpenObs.Agent.SharedDashboards
import OpenObs.Foundation.Shelves

/-!
# The packing of panels

The layout engine puts the sections of a dashboard onto shelves, so that its panels do not
overlap; what `dashboard_add_panels` adds goes below what is there.
-/

namespace OpenObs.Dashboards

open OpenObs.Foundation OpenObs.Rules OpenObs.Agent

/-! ## Places -/

structure Cells where
  col : Int
  row : Int
  width : Int
  height : Int
deriving DecidableEq

def cells (panel : Json) : Option Cells :=
  match member panel "col", member panel "row", member panel "width", member panel "height" with
  | some (.num col), some (.num row), some (.num width), some (.num height) =>
    some ⟨col, row, width, height⟩
  | _, _, _, _ => none

section Placed

variable {p : Json} {col row : ℕ} {size : PanelSize} {key : String}

end Placed

/-! ## Sections on shelves -/

section Again

variable {panels ps : List Json} {rs : List Rect}

end Again

/-! ## The whole layout -/

section Layout

variable {panels : List Json}

end Layout

/-! ## What is added below -/

section Added

variable {s : Session} {drawn : DrawnCall} {id : String} {before : List Json}

def Shows (id : String) (panels : List Json) (s : Session) : Prop :=
  ∃ row, s.tables.findDashboardById id = some row ∧ row.panels = panels

end Added

end OpenObs.Dashboards
