import OpenObs.Foundation.Clock

/-!
# Status timelines of a panel

`components/panel/query-transformers.ts`: the spans a status panel draws for the series of its
queries. How a number is written is left to `String`.
-/

namespace OpenObs.Web

open OpenObs.Foundation

/-! ## Query results -/

inductive Number : Type where
  | finite (q : ℚ)
  | infinity (negative : Bool)
  | nan
deriving DecidableEq

structure Point where
  ts : ℚ
  value : Number
deriving DecidableEq

/-- The labels in the order of `Object.entries`. -/
structure Series where
  labels : List (String × String)
  points : List Point

structure QueryResult where
  series : List Series

def label (labels : List (String × String)) (name : String) : Option String :=
  (labels.find? (·.1 = name)).map (·.2)

/-! ## Spans -/

structure StatusSpan where
  label : String
  start : ℚ
  stop : ℚ
  status : String
deriving DecidableEq

def spanLabel (labels : List (String × String)) : String :=
  let labelEntries := labels.filter (·.1 ≠ "__name__")
  if 0 < labelEntries.length then "/".intercalate ((labelEntries.take 2).map (·.2))
  else (label labels "__name__").getD "series"

def statusOf (toText : Number → String) (value : Number) : String :=
  if value = .finite 1 then "up" else if value = .finite 0 then "down" else toText value

structure SpanLoop where
  spans : List StatusSpan := []
  spanStart : ℚ := 0
  lastStatus : String := ""

/-- The turn of the loop for the point at `i`. -/
def SpanLoop.visit (toText : Number → String) (label : String) (s : SpanLoop) :
    Point × ℕ → SpanLoop
  | (p, i) =>
    let status := statusOf toText p.value
    if i = 0 then { s with lastStatus := status, spanStart := p.ts }
    else if status ≠ s.lastStatus then
      { spans := s.spans ++ [⟨label, s.spanStart, p.ts, s.lastStatus⟩]
        spanStart := p.ts
        lastStatus := status }
    else s

def seriesSpans (toText : Number → String) (s : Series) : List StatusSpan :=
  let done := s.points.zipIdx.foldl (SpanLoop.visit toText (spanLabel s.labels)) {}
  match s.points.getLast? with
  | none => done.spans
  | some last => done.spans ++ [⟨spanLabel s.labels, done.spanStart, last.ts, done.lastStatus⟩]

def rangeToStatusSpans (toText : Number → String) (results : List QueryResult) :
    List StatusSpan :=
  results.flatMap fun qr => qr.series.flatMap (seriesSpans toText)

/-! ## The spans are the timeline -/

section Spans

variable {toText : Number → String} {label : String}

def sample (toText : Number → String) (p : Point) : ℚ × String := (p.ts, statusOf toText p.value)

def StatusSpan.ofSegment (label : String) (seg : Segment ℚ String) : StatusSpan :=
  ⟨label, seg.start, seg.stop, seg.status⟩

def StatusSpan.segment (span : StatusSpan) : Segment ℚ String :=
  ⟨span.start, span.stop, span.status⟩

theorem visit_segments : ∀ (rest : List Point) (n : ℕ) (s : SpanLoop) (last : ℚ), 0 < n →
    let done := (rest.zipIdx n).foldl (SpanLoop.visit toText label) s
    done.spans ++ [⟨label, done.spanStart, (rest.getLast?.map (·.ts)).getD last,
        done.lastStatus⟩] =
      s.spans ++ (Timeline.segments s.spanStart s.lastStatus last
        (rest.map (sample toText))).map (StatusSpan.ofSegment label)
  | [], _, _, _, _ => rfl
  | p :: rest, n, s, last, hn => by
    have hlast : (((p :: rest).getLast?.map (·.ts)).getD last) =
        (rest.getLast?.map (·.ts)).getD p.ts := by
      rw [List.getLast?_cons]
      cases rest.getLast? <;> rfl
    dsimp only
    rw [List.zipIdx_cons, List.foldl_cons, hlast,
      visit_segments rest (n + 1) _ p.ts (Nat.succ_pos n), List.map_cons, sample,
      Timeline.segments, SpanLoop.visit]
    rw [if_neg hn.ne']
    by_cases hsame : statusOf toText p.value = s.lastStatus
    · rw [if_neg (not_not.mpr hsame), if_pos hsame]
    · rw [if_pos hsame, if_neg hsame, List.map_cons, List.append_assoc]
      rfl

theorem seriesSpans_eq (s : Series) : seriesSpans toText s =
    (Timeline.encode (s.points.map (sample toText))).map
      (StatusSpan.ofSegment (spanLabel s.labels)) := by
  rw [seriesSpans]
  cases hpoints : s.points with
  | nil => rfl
  | cons p rest =>
    have hloop := @visit_segments toText (spanLabel s.labels) rest 1
      ⟨[], p.ts, statusOf toText p.value⟩ p.ts Nat.one_pos
    rw [List.getLast?_cons]
    have hlast : some (rest.getLast?.getD p).ts = some ((rest.getLast?.map (·.ts)).getD p.ts) := by
      cases rest.getLast? <;> rfl
    dsimp only
    rw [Option.some.inj hlast]
    exact hloop

end Spans

/-- **Status spans are exact.** The spans are those of the series in turn; those of a series
carry its label and encode its samples: one begins where the one before ends, with another
status, from the first time to the last, and each sample is in a span of its own status. -/
theorem spans_exact (toText : Number → String) (results : List QueryResult)
    (h : ∀ qr ∈ results, ∀ s ∈ qr.series, s.points.Pairwise (·.ts < ·.ts)) :
    rangeToStatusSpans toText results =
        (results.flatMap (·.series)).flatMap (seriesSpans toText) ∧
      ∀ s ∈ results.flatMap (·.series),
        (∀ span ∈ seriesSpans toText s, span.label = spanLabel s.labels) ∧
        Timeline.Encodes (s.points.map (sample toText))
          ((seriesSpans toText s).map (·.segment)) := by
  refine ⟨(List.flatMap_assoc ..).symm, fun s hs => ?_⟩
  obtain ⟨qr, hqr, hs⟩ := List.mem_flatMap.mp hs
  rw [seriesSpans_eq]
  constructor
  · intro span hspan
    obtain ⟨seg, -, rfl⟩ := List.mem_map.mp hspan
    rfl
  · rw [List.map_map]
    have hid : (StatusSpan.segment ∘ StatusSpan.ofSegment (spanLabel s.labels)) = id := rfl
    rw [hid, List.map_id]
    exact Timeline.encodes_encode ((h qr hqr s hs).map _ fun _ _ hlt => hlt)

/-- A change on the last sample is a span of its own. -/
theorem spans_exact_flap : Timeline.Encodes [(10, "up"), (20, "up"), (30, "down")]
    ((seriesSpans (fun _ => "") ⟨[("job", "api")],
      [⟨10, .finite 1⟩, ⟨20, .finite 1⟩, ⟨30, .finite 0⟩]⟩).map (·.segment)) := by
  refine ((spans_exact (fun _ => "") [⟨[⟨[("job", "api")],
    [⟨10, .finite 1⟩, ⟨20, .finite 1⟩, ⟨30, .finite 0⟩]⟩]⟩] ?_).2 _ List.mem_cons_self).2
  intro qr hqr s hs
  obtain rfl := List.mem_singleton.mp hqr
  obtain rfl := List.mem_singleton.mp hs
  norm_num

end OpenObs.Web
