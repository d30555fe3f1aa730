import OpenObs.Agent.Values

/-!
# The layout engine

`agent/layout-engine.ts`: panels go left to right into a grid of twelve columns,
section by section, each with the size its visualization has. A panel is the JSON
of its configuration.
-/

namespace OpenObs.Dashboards

open OpenObs.Foundation OpenObs.Rules OpenObs.Agent

def gridCols : ℕ := 12

structure PanelSize where
  width : ℕ
  height : ℕ

/-- `sameVizCount` panels of the section are of this visualization. -/
def panelSize (viz : String) (sameVizCount : ℕ) : PanelSize :=
  if viz = "stat" then ⟨3, 3⟩
  else if viz = "gauge" then ⟨3, 3⟩
  else if viz = "time_series" then ⟨6, 3⟩
  else if viz = "table" then ⟨if sameVizCount ≥ 2 then 6 else 12, 4⟩
  else if viz = "bar" ∨ viz = "histogram" then ⟨if sameVizCount ≥ 3 then 4 else 6, 3⟩
  else if viz = "pie" then ⟨3, 3⟩
  else if viz = "heatmap" then ⟨6, 3⟩
  else if viz = "status_timeline" then ⟨12, 3⟩
  else ⟨6, 3⟩

def vizOf (panel : Json) : String := (asText (member panel "visualization")).getD ""

def sectionKey (panel : Json) : String := (asText (member panel "sectionId")).getD "__default__"

/-- `{ ...panel, col, row, width, height }`. -/
def placed (panel : Json) (col row : ℕ) (size : PanelSize) : Json :=
  .obj (assign (spread panel)
    [("col", .num col), ("row", .num row), ("width", .num size.width),
      ("height", .num size.height)])

/-- The panels of a section, and the row below it; a panel that does not fit begins the
next row. -/
def placeSection (sectionPanels : List Json) :
    List Json → ℕ → ℕ → ℕ → List Json × ℕ
  | [], currentRow, _, rowHeight => ([], currentRow + rowHeight)
  | panel :: panels, currentRow, col, rowHeight =>
    let size := panelSize (vizOf panel) (sectionPanels.countP (vizOf · = vizOf panel))
    if col + size.width > gridCols then
      let rest := placeSection sectionPanels panels (currentRow + rowHeight) size.width
        (max 0 size.height)
      (placed panel 0 (currentRow + rowHeight) size :: rest.1, rest.2)
    else
      let rest := placeSection sectionPanels panels currentRow (col + size.width)
        (max rowHeight size.height)
      (placed panel col currentRow size :: rest.1, rest.2)

def placeSections (panels : List Json) : List String → ℕ → List Json
  | [], _ => []
  | key :: keys, currentRow =>
    let sectionPanels := panels.filter (sectionKey · = key)
    let here := placeSection sectionPanels sectionPanels currentRow 0 0
    here.1 ++ placeSections panels keys here.2

def sectionOrder : List String → List String → List String
  | _, [] => []
  | seen, key :: keys =>
    if key ∈ seen then sectionOrder seen keys else key :: sectionOrder (key :: seen) keys

def applyLayout (panels : List Json) : List Json :=
  placeSections panels (sectionOrder [] (panels.map sectionKey)) 0

/-! ## Below the panels that are there -/

/-- `p.row + p.height`, or `NaN`. -/
def rowEnd (panel : Json) : Option Int :=
  match member panel "row", member panel "height" with
  | some (.num row), some (.num height) => some (row + height)
  | _, _ => none

/-- `Math.max(0, ...panels.map(p => p.row + p.height))`. -/
def startRow (panels : List Json) : Option Int :=
  (panels.mapM rowEnd).map (·.foldl max 0)

/-- `{ ...p, row: p.row + startRow }`; JSON has `null` for `NaN`. -/
def below (start : Option Int) (panel : Json) : Json :=
  .obj (setField (spread panel) "row"
    (match start, member panel "row" with
      | some s, some (.num row) => .num (row + s)
      | _, _ => .null))

end OpenObs.Dashboards
