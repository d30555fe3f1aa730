import OpenObs.Foundation.OrderedMap
import OpenObs.Foundation.PromQl
import OpenObs.Foundation.Replacement
import OpenObs.Foundation.Text

/-!
# Semantic queries in PromQL

`prometheus/translator.ts` and `utils/escape.ts`: a template for each metric, with the entity and
the filters as label matchers.
-/

namespace OpenObs.Metrics

open OpenObs.Foundation PromQl

/-! ## The code -/

inductive FilterValue : Type where
  | text (v : List Char)
  | list (vs : List (List Char))

inductive AggregationFunction : Type where
  | avg | sum | min | max | count | rate | p50 | p90 | p95 | p99
deriving DecidableEq

inductive TimeGranularity : Type where
  | s1 | s10 | s15 | s30 | m1 | m5 | m10 | h1 | d1

def TimeGranularity.text : TimeGranularity → List Char
  | s1 => "1s".toList
  | s10 => "10s".toList
  | s15 => "15s".toList
  | s30 => "30s".toList
  | m1 => "1m".toList
  | m5 => "5m".toList
  | m10 => "10m".toList
  | h1 => "1h".toList
  | d1 => "1d".toList

structure TimeRange where
  start : ℤ
  stop : ℤ

structure Aggregation where
  function : AggregationFunction
  interval : Option TimeGranularity := none

structure SemanticQuery where
  entity : List Char
  metric : String
  timeRange : TimeRange
  filters : Option (OrderedMap (List Char) FilterValue) := none
  aggregation : Option Aggregation := none

inductive Metric : Type where
  | requestRate | errorRate | p50Latency | p95Latency | p99Latency | saturation | availability
deriving DecidableEq

/-- The keys of `METRIC_TEMPLATES`. -/
def METRIC_TEMPLATES : List (String × Metric) :=
  [("request_rate", .requestRate), ("error_rate", .errorRate), ("p50_latency", .p50Latency),
    ("p95_latency", .p95Latency), ("p99_latency", .p99Latency), ("saturation", .saturation),
    ("availability", .availability)]

def escapeLabelValue (value : List Char) : List Char :=
  Replacement.replaceAll ['"'] ['\\', '"'] (Replacement.replaceAll ['\\'] ['\\', '\\'] value)

def metacharacters : List Char :=
  ['.', '*', '+', '?', '^', '$', '\x7b', '\x7d', '(', ')', '|', '[', ']', '\\']

def escapePromQLRegex (value : List Char) : List Char :=
  value.flatMap fun c => if c ∈ metacharacters then ['\\', c] else [c]

def matcherText (e : List Char × List Char) : List Char :=
  if e.2.head? = some '~' then e.1 ++ '=' :: e.2
  else e.1 ++ '=' :: '"' :: escapeLabelValue e.2 ++ ['"']

def buildLabelSelector (labels : OrderedMap (List Char) (List Char)) : List Char :=
  [','].intercalate ((labels.entries.filter fun e => e.2 ≠ []).map matcherText)

/-- `{ service: entity, ...filters }`. -/
def entityLabels {α : Type} (label : String) (entity : α) (filters : OrderedMap (List Char) α) :
    OrderedMap (List Char) α :=
  (({} : OrderedMap (List Char) α).set label.toList entity).spread filters

/-- `{ service: entity, status, ...filters }`. -/
def errorLabels {α : Type} (entity status : α) (filters : OrderedMap (List Char) α) :
    OrderedMap (List Char) α :=
  ((({} : OrderedMap (List Char) α).set "service".toList entity).set "status".toList status).spread
    filters

def errorPattern : List Char := "~\"5..\"".toList

section Templates

variable (entity window : List Char) (filters : OrderedMap (List Char) (List Char))

def sumOfRate (labelStr : List Char) : List Char :=
  "sum(rate(http_requests_total\x7b".toList ++ (labelStr ++ ("\x7d[".toList ++
    (window ++ "]))".toList)))

def buildHistogramQuantile (quantile : String) : List Char :=
  "histogram_quantile(".toList ++ (quantile.toList ++ (", ".toList ++
    ("sum(rate(http_request_duration_seconds_bucket\x7b".toList ++
      (buildLabelSelector (entityLabels "service" entity filters) ++ ("\x7d[".toList ++
        (window ++ "])) by (le)) * 1000".toList))))))

def Metric.template : Metric → List Char
  | requestRate => sumOfRate window (buildLabelSelector (entityLabels "service" entity filters))
  | errorRate =>
    sumOfRate window (buildLabelSelector (errorLabels entity errorPattern filters)) ++
      (" / ".toList ++
        sumOfRate window (buildLabelSelector (entityLabels "service" entity filters)))
  | p50Latency => buildHistogramQuantile entity window filters "0.5"
  | p95Latency => buildHistogramQuantile entity window filters "0.95"
  | p99Latency => buildHistogramQuantile entity window filters "0.99"
  | saturation =>
    let labelStr := buildLabelSelector (entityLabels "namespace" entity filters)
    let safeEntity := escapePromQLRegex entity
    "avg(rate(container_cpu_usage_seconds_total\x7b".toList ++ (labelStr ++ (",pod=~\"".toList ++
      (safeEntity ++ ("-.*\"\x7d[".toList ++ (window ++ ("])) / ".toList ++
        ("avg(kube_pod_container_resource_limits\x7b".toList ++ (labelStr ++
          (",pod=~\"".toList ++ (safeEntity ++ "-.*\",resource=\"cpu\"\x7d)".toList))))))))))
  | availability =>
    "1 - (".toList ++
      (sumOfRate window (buildLabelSelector (errorLabels entity errorPattern filters)) ++
      (" / ".toList ++ (sumOfRate window
        (buildLabelSelector (entityLabels "service" entity filters)) ++ ")".toList)))

end Templates

def decimal (n : ℤ) : List Char :=
  if n < 0 then '-' :: Nat.toDigits 10 n.natAbs else Nat.toDigits 10 n.natAbs

def secondsToWindow (seconds : ℤ) : List Char :=
  if seconds % 3600 = 0 then decimal (seconds / 3600) ++ ['h']
  else if seconds % 60 = 0 then decimal (seconds / 60) ++ ['m']
  else decimal seconds ++ ['s']

def buildAggregationWrapper (innerExpr : List Char) : Option AggregationFunction → List Char
  | none => innerExpr
  | some .avg => innerExpr
  | some .sum => "sum".toList ++ ("(".toList ++ (innerExpr ++ ")".toList))
  | some .min => "min".toList ++ ("(".toList ++ (innerExpr ++ ")".toList))
  | some .max => "max".toList ++ ("(".toList ++ (innerExpr ++ ")".toList))
  | some .count => "count".toList ++ ("(".toList ++ (innerExpr ++ ")".toList))
  | some .rate => "rate".toList ++ ("(".toList ++ (innerExpr ++ ")".toList))
  | some .p50 => "quantile(0.50, ".toList ++ (innerExpr ++ ")".toList)
  | some .p90 => "quantile(0.90, ".toList ++ (innerExpr ++ ")".toList)
  | some .p95 => "quantile(0.95, ".toList ++ (innerExpr ++ ")".toList)
  | some .p99 => "quantile(0.99, ".toList ++ (innerExpr ++ ")".toList)

structure TranslatedQuery where
  promql : List Char
  window : List Char

section Query

variable (query : SemanticQuery)

/-- `Math.round` of the seconds. -/
def rangeSeconds : ℤ := (query.timeRange.stop - query.timeRange.start + 500) / 1000

def window : List Char :=
  match query.aggregation.bind (·.interval) with
  | some interval => interval.text
  | none => secondsToWindow (min (rangeSeconds query) 300)

def FilterValue.encode : FilterValue → List Char
  | text v => v
  | list vs => '~' :: '"' :: (['|'].intercalate (vs.map escapePromQLRegex) ++ ['"'])

/-- `o[k] = v` on a plain object: `__proto__` takes no string. -/
def assignProperty (o : OrderedMap (List Char) (List Char)) (k v : List Char) :
    OrderedMap (List Char) (List Char) :=
  if k = "__proto__".toList then o else o.set k v

def extraFilters : OrderedMap (List Char) (List Char) :=
  match query.filters with
  | none => {}
  | some filters => filters.entries.foldl (fun o e => assignProperty o e.1 e.2.encode) {}

def translateToPromQL : Except String TranslatedQuery :=
  match METRIC_TEMPLATES.find? (·.1 = query.metric) with
  | none => .error ("Unsupported metric \"" ++ query.metric ++ "\". Supported: " ++
      ", ".intercalate (METRIC_TEMPLATES.map (·.1)))
  | some (_, metric) =>
    .ok {
      promql := buildAggregationWrapper
        (metric.template query.entity (window query) (extraFilters query))
        (query.aggregation.map (·.function))
      window := window query
    }

end Query

/-! ## What a query asks for -/

abbrev Meant := Op × List Char

def FilterValue.Wants : FilterValue → List Char → Prop
  | text w, v => v = w
  | list ws, v => v ∈ ws

def FilterValue.meant : FilterValue → Meant
  | text v => (.eq, v)
  | list vs => (.re, ['|'].intercalate vs)

def matchers (labels : OrderedMap (List Char) Meant) : List Matcher :=
  labels.entries.map fun e => ⟨e.1, e.2.1, e.2.2⟩

def sumOfRateExpr (window : List Char) (labels : List Matcher) : Expr :=
  .aggregate "sum".toList (.call "rate".toList
    (.range "http_requests_total".toList labels window))

def histogramExpr (quantile : String) (window : List Char) (labels : List Matcher) : Expr :=
  .binary '*' (.weighted "histogram_quantile".toList quantile.toList
    (.aggregateBy "sum".toList (.call "rate".toList
      (.range "http_request_duration_seconds_bucket".toList labels window)) "le".toList))
    (.number "1000".toList)

def podMatcher (pod : List Char) : Matcher := ⟨"pod".toList, .re, pod⟩

def cpuMatcher : Matcher := ⟨"resource".toList, .eq, "cpu".toList⟩

def Metric.expression (window : List Char) (labels errors : List Matcher) (pod : List Char) :
    Metric → Expr
  | requestRate => sumOfRateExpr window labels
  | errorRate => .binary '/' (sumOfRateExpr window errors) (sumOfRateExpr window labels)
  | p50Latency => histogramExpr "0.5" window labels
  | p95Latency => histogramExpr "0.95" window labels
  | p99Latency => histogramExpr "0.99" window labels
  | saturation =>
    .binary '/'
      (.aggregate "avg".toList (.call "rate".toList (.range
        "container_cpu_usage_seconds_total".toList (labels ++ [podMatcher pod]) window)))
      (.aggregate "avg".toList (.selector "kube_pod_container_resource_limits".toList
        (labels ++ [podMatcher pod, cpuMatcher])))
  | availability =>
    .binary '-' (.number "1".toList)
      (.paren (.binary '/' (sumOfRateExpr window errors) (sumOfRateExpr window labels)))

def aggregated (e : Expr) : Option AggregationFunction → Expr
  | none => e
  | some .avg => e
  | some .sum => .aggregate "sum".toList e
  | some .min => .aggregate "min".toList e
  | some .max => .aggregate "max".toList e
  | some .count => .aggregate "count".toList e
  | some .rate => .call "rate".toList e
  | some .p50 => .weighted "quantile".toList "0.50".toList e
  | some .p90 => .weighted "quantile".toList "0.90".toList e
  | some .p95 => .weighted "quantile".toList "0.95".toList e
  | some .p99 => .weighted "quantile".toList "0.99".toList e

def Metric.entityLabel : Metric → String
  | saturation => "namespace"
  | _ => "service"

def expressionOf (metric : Metric) (window : List Char) (fn : Option AggregationFunction)
    (entity : Meant) (filters : OrderedMap (List Char) Meant) (pod : List Char) : Expr :=
  aggregated (metric.expression window (matchers (entityLabels metric.entityLabel entity filters))
    (matchers (errorLabels entity (.re, "5..".toList) filters)) pod) fn

/-- What is left of the expression when the strings are not read: it is the same for every entity
and for every filter of the same kind. -/
def skeleton (metric : Metric) (window : List Char) (fn : Option AggregationFunction)
    (kinds : OrderedMap (List Char) Op) : Expr :=
  (expressionOf metric window fn (.eq, []) (kinds.mapValues fun op => (op, [])) []).blank

section Query

variable (re2 : List Char → Option (List Char → Prop)) (metric : Metric) (query : SemanticQuery)

def filtersOf : OrderedMap (List Char) FilterValue := query.filters.getD {}

def functionOf : Option AggregationFunction := query.aggregation.map (·.function)

/-- The text is that of an expression of the metric's shape, in which each filter selects what it
asks for. -/
def Faithful : Prop :=
  ∃ t e, translateToPromQL query = .ok t ∧ Reads re2 t.promql e ∧
    e.blank = skeleton metric (window query) (functionOf query)
      ((filtersOf query).mapValues (·.meant.1)) ∧
    ∀ ms ∈ e.selectors, ∀ f ∈ (filtersOf query).entries,
      ∃ m, ms.find? (·.label = f.1) = some m ∧ ∀ v, m.Selects re2 v ↔ f.2.Wants v

def Literal (v : List Char) : Prop := ∀ c ∈ v, c ∉ '"' :: '\n' :: metacharacters

instance (v : List Char) : Decidable (Literal v) :=
  List.decidableBAll (fun c => c ∉ '"' :: '\n' :: metacharacters) v

def FilterValue.Clear : FilterValue → Prop
  | text v => v ≠ [] ∧ v.head? ≠ some '~' ∧ '\n' ∉ v
  | list vs => vs ≠ [] ∧ ∀ v ∈ vs, Literal v

structure Supported : Prop where
  metric : (query.metric, metric) ∈ METRIC_TEMPLATES
  names : ∀ f ∈ (filtersOf query).entries, isName f.1 = true

structure Clear : Prop where
  names : ∀ f ∈ (filtersOf query).entries, f.1 ≠ "__name__".toList ∧ f.1 ≠ "__proto__".toList
  filters : ∀ f ∈ (filtersOf query).entries, f.2.Clear
  entity : metric.entityLabel.toList ∈ (filtersOf query).keys ∨
    (FilterValue.text query.entity).Clear
  pod : metric = .saturation → Literal query.entity
  window : query.aggregation.bind (·.interval) = none → 0 < rangeSeconds query
  function : functionOf query ≠ some .rate

/-- What is documented of regular expressions without metacharacters, and of the two kinds that
the templates have. -/
structure Documented : Prop where
  alternatives : ∀ vs, vs ≠ [] → (∀ v ∈ vs, Literal v) → ∃ language,
    re2 (['|'].intercalate vs) = some language ∧ ∀ v, language v ↔ v ∈ vs
  status : (re2 "5..".toList).isSome
  pod : ∀ v, Literal v → (re2 (v ++ "-.*".toList)).isSome

end Query

/-! ## Labels -/

section Labels

def write : Meant → List Char
  | (.eq, v) => v
  | (.re, r) => '~' :: '"' :: (r ++ ['"'])

def Written : Meant → Prop
  | (.eq, v) => v ≠ [] ∧ v.head? ≠ some '~' ∧ '\n' ∉ v
  | (.re, r) => ∀ c ∈ r, c ∉ ['"', '\n', '\\']

theorem escapeLabelValue_eq (value : List Char) : escapeLabelValue value =
    value.flatMap fun c =>
      if c = '\\' then ['\\', '\\'] else if c = '"' then ['\\', '"'] else [c] := by
  rw [escapeLabelValue, Replacement.replaceAll_literal (by decide),
    Replacement.replaceAll_literal (by decide)]
  simp only [Replacement.substitute_singleton, List.flatMap_assoc]
  refine congrArg (List.flatMap · value) (funext fun c => ?_)
  by_cases h : c = '\\'
  · subst h
    rfl
  · simp [h]

theorem adds_escapeLabelValue {value : List Char} (h : '\n' ∉ value) :
    Adds (escapeLabelValue value) value := by
  rw [escapeLabelValue_eq]
  refine adds_flatMap fun c hc => ?_
  by_cases hback : c = '\\'
  · subst hback
    exact adds_escape rfl
  by_cases hquote : c = '"'
  · subst hquote
    exact adds_escape rfl
  rw [if_neg hback, if_neg hquote]
  apply adds_char
  have hline : c ≠ '\n' := fun heq => h (heq ▸ hc)
  simp [hback, hquote, hline]

theorem matcherText_quoted {label v : List Char} (h : v.head? ≠ some '~') :
    matcherText (label, v) = label ++ '=' :: '"' :: escapeLabelValue v ++ ['"'] := if_neg h

theorem matcherText_raw {label v : List Char} (h : v.head? = some '~') :
    matcherText (label, v) = label ++ '=' :: v := if_pos h

theorem lexes_matcher {label : List Char} {m : Meant} (hlabel : Plain label) (h : Written m) :
    Lexes (matcherText (label, write m)) (Matcher.pieces ⟨label, m.1, m.2⟩) := by
  have hname := lexes_codes hlabel
  match m, h with
  | (.eq, v), h =>
    have hvalue : Lexes ('"' :: escapeLabelValue v ++ ['"']) [.quoted v] :=
      (adds_escapeLabelValue h.2.2).lexes
    have hall := hname.append ((lexes_codes (s := ['=']) (by decide)).append hvalue)
    rw [write, matcherText_quoted h.2.1]
    simpa [Matcher.pieces, Op.text] using hall
  | (.re, r), h =>
    have hvalue : Lexes ('"' :: r ++ ['"']) [.quoted r] := (adds_self h).lexes
    have hall := hname.append ((lexes_codes (s := ['=', '~']) (by decide)).append hvalue)
    rw [write, matcherText_raw rfl]
    simpa [Matcher.pieces, Op.text] using hall

theorem write_ne_nil {m : Meant} (h : Written m) : write m ≠ [] := by
  match m, h with
  | (.eq, v), h => exact h.1
  | (.re, r), _ => exact List.cons_ne_nil _ _

theorem lexes_labels {labels : OrderedMap (List Char) Meant}
    (h : ∀ e ∈ labels.entries, Plain e.1 ∧ Written e.2) :
    Lexes (buildLabelSelector (labels.mapValues write))
      ((codes [',']).intercalate ((matchers labels).map Matcher.pieces)) := by
  have hkept : ((labels.mapValues write).entries.filter fun e => e.2 ≠ []) =
      (labels.mapValues write).entries := by
    apply List.filter_eq_self.mpr
    intro e he
    obtain ⟨d, hd, rfl⟩ := List.mem_map.mp he
    simpa using write_ne_nil (h d hd).2
  rw [buildLabelSelector, hkept, OrderedMap.entries_mapValues, matchers, List.map_map, List.map_map]
  apply Lexes.intercalate (lexes_codes (by decide))
  rw [List.forall₂_map_left_iff, List.forall₂_map_right_iff, List.forall₂_same]
  exact fun e he => lexes_matcher (h e he).1 (h e he).2

theorem plain_of_isName {s : List Char} (h : isName s = true) : Plain s := by
  have hletters : Plain (letters ++ digits) := by decide
  cases s with
  | nil => exact fun c hc => nomatch hc
  | cons c s =>
    rw [isName, Bool.and_eq_true, List.all_eq_true] at h
    intro d hd
    apply hletters
    rcases List.mem_cons.mp hd with rfl | hd
    · exact List.mem_append_left _ (by simpa using h.1)
    · simpa using h.2 d hd

end Labels

/-! ## Templates -/

section Templates

variable {window labelStr errorStr : List Char} {labels errors : List Matcher}

def LabelsOf (labelStr : List Char) (labels : List Matcher) : Prop :=
  Lexes labelStr ((codes [',']).intercalate (labels.map Matcher.pieces))

theorem lexes_sumOfRate (hwindow : Plain window) (h : LabelsOf labelStr labels) :
    Lexes (sumOfRate window labelStr) (sumOfRateExpr window labels).pieces := by
  have hopen := lexes_codes (s := "sum(rate(http_requests_total\x7b".toList) (by decide)
  have hrange := lexes_codes (s := "\x7d[".toList) (by decide)
  have hclose := lexes_codes (s := "]))".toList) (by decide)
  have hall := hopen.append (h.append (hrange.append ((lexes_codes hwindow).append hclose)))
  simp only [sumOfRateExpr, Expr.pieces, selectorPieces, List.append_assoc]
  exact hall

theorem lexes_histogram (hwindow : Plain window) {filters : OrderedMap (List Char) (List Char)}
    {entity : List Char} {quantile : String} (hquantile : Plain quantile.toList)
    (h : LabelsOf (buildLabelSelector (entityLabels "service" entity filters)) labels) :
    Lexes (buildHistogramQuantile entity window filters quantile)
      (histogramExpr quantile window labels).pieces := by
  have hfn := lexes_codes (s := "histogram_quantile(".toList) (by decide)
  have hcomma := lexes_codes (s := ", ".toList) (by decide)
  have hopen := lexes_codes (s := "sum(rate(http_request_duration_seconds_bucket\x7b".toList)
    (by decide)
  have hrange := lexes_codes (s := "\x7d[".toList) (by decide)
  have hclose := lexes_codes (s := "])) by (le)) * 1000".toList) (by decide)
  have hall := hfn.append ((lexes_codes hquantile).append (hcomma.append (hopen.append
    (h.append (hrange.append ((lexes_codes hwindow).append hclose))))))
  simp only [histogramExpr, Expr.pieces, selectorPieces, List.append_assoc]
  exact hall

theorem intercalate_concat {α : Type} {sep x : List α} : ∀ {l : List (List α)}, l ≠ [] →
    sep.intercalate (l ++ [x]) = sep.intercalate l ++ (sep ++ x)
  | [], h => absurd rfl h
  | [a], _ => by
    show sep.intercalate [a, x] = _
    rw [List.intercalate_cons_cons, List.intercalate_singleton, List.intercalate_singleton,
      List.append_assoc]
  | a :: b :: l, _ => by
    show sep.intercalate (a :: b :: (l ++ [x])) = _
    have hrest := @intercalate_concat α sep x (b :: l) (List.cons_ne_nil _ _)
    rw [List.cons_append] at hrest
    rw [List.intercalate_cons_cons, List.intercalate_cons_cons, hrest]
    simp only [List.append_assoc]

theorem escapePromQLRegex_literal {v : List Char} (h : Literal v) : escapePromQLRegex v = v := by
  have hkept : escapePromQLRegex v = v.flatMap fun c => [c] := by
    refine List.flatMap_congr fun c hc => if_neg fun hin => h c hc ?_
    exact List.mem_cons_of_mem _ (List.mem_cons_of_mem _ hin)
  rw [hkept, List.flatMap_singleton']

theorem adds_literal {v : List Char} (h : Literal v) : Adds v v := by
  refine adds_self fun c hc hin => h c hc ?_
  simp only [List.mem_cons, List.not_mem_nil, or_false] at hin
  rcases hin with rfl | rfl | rfl <;> decide

theorem lexes_pod {entity : List Char} (h : Literal entity) :
    Lexes (",pod=~\"".toList ++ (escapePromQLRegex entity ++ "-.*\"".toList))
      (codes [','] ++ (podMatcher (entity ++ "-.*".toList)).pieces) := by
  have hvalue := ((adds_literal h).append (adds_self (s := "-.*".toList) (by decide))).lexes
  have hall := (lexes_codes (s := ",pod=~".toList) (by decide)).append hvalue
  rw [escapePromQLRegex_literal h]
  simp only [List.cons_append, List.append_assoc] at hall
  exact hall

theorem lexes_cpu : Lexes ",resource=\"cpu\"".toList (codes [','] ++ cpuMatcher.pieces) := by
  have hvalue := (adds_self (s := "cpu".toList) (by decide)).lexes
  exact (lexes_codes (s := ",resource=".toList) (by decide)).append hvalue

theorem lexes_saturation (hwindow : Plain window) {filters : OrderedMap (List Char) (List Char)}
    {entity : List Char} (hentity : Literal entity) (hne : labels ≠ [])
    (h : LabelsOf (buildLabelSelector (entityLabels "namespace" entity filters)) labels) :
    Lexes (Metric.saturation.template entity window filters)
      (Metric.saturation.expression window labels errors (entity ++ "-.*".toList)).pieces := by
  have hpieces : labels.map Matcher.pieces ≠ [] := fun hnil => hne (List.map_eq_nil_iff.mp hnil)
  have hpod := h.append (lexes_pod hentity)
  rw [← intercalate_concat hpieces] at hpod
  have hcpu := hpod.append lexes_cpu
  rw [← intercalate_concat (List.append_ne_nil_of_left_ne_nil hpieces _)] at hcpu
  have hopen := lexes_codes (s := "avg(rate(container_cpu_usage_seconds_total\x7b".toList)
    (by decide)
  have hrange := lexes_codes (s := "\x7d[".toList) (by decide)
  have hover := lexes_codes
    (s := "])) / avg(kube_pod_container_resource_limits\x7b".toList) (by decide)
  have hclose := lexes_codes (s := "\x7d)".toList) (by decide)
  have hall := hopen.append (hpod.append (hrange.append ((lexes_codes hwindow).append
    (hover.append (hcpu.append hclose)))))
  simp only [Metric.expression, Expr.pieces, selectorPieces, List.map_append, List.map_cons,
    List.map_nil, List.append_assoc] at hall ⊢
  exact hall

end Templates

section Whole

variable {window entity : List Char} {filters : OrderedMap (List Char) (List Char)}
  {labels errors : List Matcher} {metric : Metric}

theorem lexes_template (hwindow : Plain window) (hne : labels ≠ [])
    (h : LabelsOf (buildLabelSelector (entityLabels metric.entityLabel entity filters)) labels)
    (herrors : metric ≠ .saturation →
      LabelsOf (buildLabelSelector (errorLabels entity errorPattern filters)) errors)
    (hpod : metric = .saturation → Literal entity) :
    Lexes (metric.template entity window filters)
      (metric.expression window labels errors (entity ++ "-.*".toList)).pieces := by
  have hover := lexes_codes (s := " / ".toList) (by decide)
  cases metric with
  | requestRate => exact lexes_sumOfRate hwindow h
  | errorRate =>
    have hsum := lexes_sumOfRate hwindow h
    exact (lexes_sumOfRate hwindow (herrors nofun)).append (hover.append hsum)
  | p50Latency => exact lexes_histogram hwindow (by decide) h
  | p95Latency => exact lexes_histogram hwindow (by decide) h
  | p99Latency => exact lexes_histogram hwindow (by decide) h
  | saturation => exact lexes_saturation hwindow (hpod rfl) hne h
  | availability =>
    have hopen := lexes_codes (s := "1 - (".toList) (by decide)
    have hclose := lexes_codes (s := ")".toList) (by decide)
    have hsum := (lexes_sumOfRate hwindow h).append hclose
    have hall := hopen.append
      ((lexes_sumOfRate hwindow (herrors nofun)).append (hover.append hsum))
    simp only [Metric.expression, Expr.pieces, List.append_assoc]
    exact hall

theorem lexes_wrapper {inner : List Char} {e : Expr} (h : Lexes inner e.pieces)
    (fn : Option AggregationFunction) :
    Lexes (buildAggregationWrapper inner fn) (aggregated e fn).pieces := by
  have hclose := h.append (lexes_codes (s := ")".toList) (by decide))
  have hcall {name : List Char} (hname : Plain name) :
      Lexes (name ++ ("(".toList ++ (inner ++ ")".toList)))
        (codes name ++ (codes ['('] ++ (e.pieces ++ codes [')']))) :=
    (lexes_codes hname).append ((lexes_codes (s := "(".toList) (by decide)).append hclose)
  have hquantile {opening : List Char} (hopening : Plain opening) :
      Lexes (opening ++ (inner ++ ")".toList)) (codes opening ++ (e.pieces ++ codes [')'])) :=
    (lexes_codes hopening).append hclose
  match fn with
  | none | some .avg => exact h
  | some .sum | some .min | some .max | some .count | some .rate => exact hcall (by decide)
  | some .p50 | some .p90 | some .p95 | some .p99 => exact hquantile (by decide)

end Whole

section Typed

variable {re2 : List Char → Option (List Char → Prop)} {window : List Char}
  {labels errors : List Matcher} {metric : Metric}

theorem type_sumOfRate (hwindow : isDuration window = true)
    (h : labels.all (·.ok re2) = true) :
    (sumOfRateExpr window labels).type re2 = some .vector :=
  type_aggregate (by decide) (type_rate (by decide) h hwindow)

theorem type_histogram {quantile : String} (hquantile : isNumber quantile.toList = true)
    (hwindow : isDuration window = true) (h : labels.all (·.ok re2) = true) :
    (histogramExpr quantile window labels).type re2 = some .vector := by
  have hname : isName "http_request_duration_seconds_bucket".toList = true := by decide
  have hrate := type_rate hname h hwindow
  have hsum : (Expr.aggregateBy "sum".toList _ "le".toList).type re2 = some .vector :=
    if_pos ⟨by decide, hrate, by decide⟩
  have hweighted := type_weighted List.mem_cons_self hquantile hsum
  exact if_pos ⟨by decide, rfl, rfl, Or.inl hweighted, Or.inl hweighted, Or.inr (by rfl)⟩

theorem type_expression {pod : List Char} (hwindow : isDuration window = true)
    (h : labels.all (·.ok re2) = true)
    (herrors : metric ≠ .saturation → errors.all (·.ok re2) = true)
    (hpod : metric = .saturation → (re2 pod).isSome = true) :
    (metric.expression window labels errors pod).type re2 = some .vector := by
  cases metric with
  | requestRate => exact type_sumOfRate hwindow h
  | errorRate =>
    have herror := type_sumOfRate hwindow (herrors nofun)
    exact type_divide herror (type_sumOfRate hwindow h) ⟨rfl, rfl⟩
  | p50Latency => exact type_histogram (by decide) hwindow h
  | p95Latency => exact type_histogram (by decide) hwindow h
  | p99Latency => exact type_histogram (by decide) hwindow h
  | saturation =>
    have hpodok : (podMatcher pod).ok re2 = true := hpod rfl
    have hcpu : cpuMatcher.ok re2 = true := rfl
    have hone : (labels ++ [podMatcher pod]).all (·.ok re2) = true := by
      simp only [List.all_append, h, List.all_cons, hpodok, List.all_nil, Bool.and_self]
    have htwo : (labels ++ [podMatcher pod, cpuMatcher]).all (·.ok re2) = true := by
      simp only [List.all_append, h, List.all_cons, hpodok, hcpu, List.all_nil, Bool.and_self]
    have hlimits : (Expr.selector "kube_pod_container_resource_limits".toList _).type re2 =
        some .vector := if_pos ⟨by decide, htwo⟩
    exact type_divide (type_aggregate (by decide) (type_rate (by decide) hone hwindow))
      (type_aggregate (by decide) hlimits) ⟨rfl, rfl⟩
  | availability =>
    have herror := type_sumOfRate hwindow (herrors nofun)
    have hparen := type_paren (type_divide herror (type_sumOfRate hwindow h) ⟨rfl, rfl⟩)
    exact if_pos ⟨by decide, rfl, rfl, Or.inr hparen, Or.inr rfl, Or.inl hparen⟩

theorem type_aggregated {e : Expr} (h : e.type re2 = some .vector)
    {fn : Option AggregationFunction} (hfn : fn ≠ some .rate) :
    (aggregated e fn).type re2 = some .vector := by
  match fn with
  | none | some .avg => exact h
  | some .sum | some .min | some .max | some .count => exact type_aggregate (by decide) h
  | some .p50 | some .p90 | some .p95 | some .p99 =>
    exact type_weighted (by decide) (by decide) h
  | some .rate => exact absurd rfl hfn

end Typed

/-! ## The labels of a query -/

section Query

variable {re2 : List Char → Option (List Char → Prop)} {metric : Metric} {query : SemanticQuery}
  {window : List Char} {labels labels' errors errors' : List Matcher} {pod pod' : List Char}

def meantFilters (query : SemanticQuery) : OrderedMap (List Char) Meant :=
  (filtersOf query).mapValues FilterValue.meant

def meantLabels (metric : Metric) (query : SemanticQuery) : OrderedMap (List Char) Meant :=
  entityLabels metric.entityLabel (.eq, query.entity) (meantFilters query)

def meantErrors (query : SemanticQuery) : OrderedMap (List Char) Meant :=
  errorLabels (.eq, query.entity) (.re, "5..".toList) (meantFilters query)

theorem mapValues_entityLabels {α β : Type} {f : α → β} {label : String} {entity : α}
    {filters : OrderedMap (List Char) α} :
    (entityLabels label entity filters).mapValues f =
      entityLabels label (f entity) (filters.mapValues f) := by
  rw [entityLabels, OrderedMap.mapValues_spread, OrderedMap.mapValues_set]
  rfl

theorem mapValues_errorLabels {α β : Type} {f : α → β} {entity status : α}
    {filters : OrderedMap (List Char) α} :
    (errorLabels entity status filters).mapValues f =
      errorLabels (f entity) (f status) (filters.mapValues f) := by
  rw [errorLabels, OrderedMap.mapValues_spread, OrderedMap.mapValues_set, OrderedMap.mapValues_set]
  rfl

theorem encode_eq_write {f : FilterValue} (h : f.Clear) : f.encode = write f.meant := by
  cases f with
  | text v => rfl
  | list vs =>
    have hself : vs.map escapePromQLRegex = vs := by
      rw [List.map_congr_left fun v hv => escapePromQLRegex_literal (h.2 v hv), List.map_id']
    rw [FilterValue.encode, hself]
    rfl

theorem extraFilters_eq (h : Clear metric query) :
    extraFilters query = (meantFilters query).mapValues write := by
  unfold extraFilters meantFilters filtersOf
  have hnames := h.names
  have hclear := h.filters
  unfold filtersOf at hnames hclear
  cases hfilters : query.filters with
  | none => rfl
  | some filters =>
    rw [hfilters] at hnames hclear
    have hset : filters.entries.foldl (fun o e => assignProperty o e.1 e.2.encode) {} =
        filters.entries.foldl (fun o e => o.set e.1 (write e.2.meant)) {} := by
      refine List.foldl_ext _ _ _ fun o e he => ?_
      rw [encode_eq_write (hclear e he)]
      exact if_neg (hnames e he).2
    have hall := OrderedMap.spread_empty
      (o := (filters.mapValues FilterValue.meant).mapValues write)
    dsimp only [Option.getD_some]
    rw [hset, ← hall, OrderedMap.spread, OrderedMap.entries_mapValues,
      OrderedMap.entries_mapValues, List.map_map, List.foldl_map]
    rfl

theorem written_meant {f : FilterValue} (h : f.Clear) : Written f.meant := by
  cases f with
  | text v => exact h
  | list vs =>
    intro c hc
    rcases Text.mem_intercalate hc with hbar | ⟨v, hv, hin⟩
    · rw [List.mem_singleton.mp hbar]
      decide
    · intro hbad
      refine h.2 v hv c hin ?_
      simp only [List.mem_cons, List.not_mem_nil, or_false] at hbad
      rcases hbad with rfl | rfl | rfl <;> decide

structure Sound (re2 : List Char → Option (List Char → Prop)) (label : List Char) (m : Meant) :
    Prop where
  name : isName label = true
  bare : label ≠ "__name__".toList
  written : Written m
  compiles : m.1 = .re → (re2 m.2).isSome = true

theorem Sound.ok {label : List Char} {m : Meant} (h : Sound re2 label m) :
    Matcher.ok re2 ⟨label, m.1, m.2⟩ = true := by
  obtain ⟨op, v⟩ := m
  rw [Matcher.ok, h.name, decide_eq_true h.bare]
  cases op with
  | eq => rfl
  | re => exact h.compiles rfl

theorem sound_filters (hre : Documented re2) (hs : Supported metric query)
    (h : Clear metric query) : ∀ e ∈ (meantFilters query).entries, Sound re2 e.1 e.2 := by
  intro e he
  obtain ⟨f, hf, rfl⟩ := List.mem_map.mp he
  refine ⟨hs.names f hf, (h.names f hf).1, written_meant (h.filters f hf), fun hop => ?_⟩
  have hclear := h.filters f hf
  dsimp only at hop ⊢
  cases hvalue : f.2 with
  | text v =>
    rw [hvalue] at hop
    cases hop
  | list vs =>
    rw [hvalue] at hclear
    obtain ⟨language, hlanguage, -⟩ := hre.alternatives vs hclear.1 hclear.2
    exact Option.isSome_iff_exists.mpr ⟨language, hlanguage⟩

theorem sound_entity (h : Clear metric query)
    (hnew : (meantFilters query).get metric.entityLabel.toList = none) :
    Sound re2 metric.entityLabel.toList (.eq, query.entity) := by
  have hnot := OrderedMap.get_eq_none_iff.mp hnew
  rw [meantFilters, OrderedMap.keys_mapValues] at hnot
  have hentity := h.entity.resolve_left hnot
  refine ⟨?_, ?_, hentity, fun hop => nomatch hop⟩
  · cases metric <;> rfl
  · cases metric <;> decide

theorem sound_labels (hre : Documented re2) (hs : Supported metric query)
    (h : Clear metric query) : ∀ e ∈ (meantLabels metric query).entries, Sound re2 e.1 e.2 := by
  refine OrderedMap.forall_spread (sound_filters hre hs h) fun k m hnew hget => ?_
  rw [OrderedMap.get_set] at hget
  split at hget
  · rename_i hk
    cases hget
    rw [hk] at hnew ⊢
    exact sound_entity h hnew
  · cases hget

theorem sound_errors (hre : Documented re2) (hs : Supported metric query)
    (h : Clear metric query) (hmetric : metric ≠ .saturation) :
    ∀ e ∈ (meantErrors query).entries, Sound re2 e.1 e.2 := by
  have hlabel : metric.entityLabel = "service" := by
    cases metric <;> first | rfl | exact absurd rfl hmetric
  refine OrderedMap.forall_spread (sound_filters hre hs h) fun k m hnew hget => ?_
  rw [OrderedMap.get_set] at hget
  split at hget
  · rename_i hk
    cases hget
    rw [hk]
    have hwritten : Unescaped "5..".toList := by decide
    exact ⟨rfl, by decide, hwritten, fun _ => hre.status⟩
  · rw [OrderedMap.get_set] at hget
    split at hget
    · rename_i hk
      cases hget
      rw [hk, ← hlabel] at hnew ⊢
      exact sound_entity h hnew
    · cases hget

theorem labelsOf_sound {l : OrderedMap (List Char) Meant}
    (h : ∀ e ∈ l.entries, Sound re2 e.1 e.2) :
    LabelsOf (buildLabelSelector (l.mapValues write)) (matchers l) :=
  lexes_labels fun e he => ⟨plain_of_isName (h e he).name, (h e he).written⟩

theorem ok_sound {l : OrderedMap (List Char) Meant} (h : ∀ e ∈ l.entries, Sound re2 e.1 e.2) :
    (matchers l).all (·.ok re2) = true := by
  rw [List.all_eq_true]
  intro m hm
  obtain ⟨e, he, rfl⟩ := List.mem_map.mp hm
  exact (h e he).ok

end Query

/-! ## What is read -/

section Read

variable {re2 : List Char → Option (List Char → Prop)} {metric : Metric} {query : SemanticQuery}
  {window : List Char} {labels labels' errors errors' : List Matcher} {pod pod' : List Char}
  {fn : Option AggregationFunction}

theorem blank_expression (h : labels.map Matcher.blank = labels'.map Matcher.blank)
    (herrors : errors.map Matcher.blank = errors'.map Matcher.blank) :
    (metric.expression window labels errors pod).blank =
      (metric.expression window labels' errors' pod').blank := by
  have hpod : (podMatcher pod).blank = (podMatcher pod').blank := rfl
  cases metric <;>
    simp only [Metric.expression, sumOfRateExpr, histogramExpr, Expr.blank, List.map_append,
      List.map_cons, List.map_nil, h, herrors, hpod]

theorem blank_aggregated {e e' : Expr} (h : e.blank = e'.blank) :
    (aggregated e fn).blank = (aggregated e' fn).blank := by
  match fn with
  | none | some .avg => exact h
  | some .sum | some .min | some .max | some .count | some .rate | some .p50 | some .p90
  | some .p95 | some .p99 => simp only [aggregated, Expr.blank, h]

theorem blank_matchers (l : OrderedMap (List Char) Meant) :
    (matchers (l.mapValues fun m => (m.1, []))).map Matcher.blank =
      (matchers l).map Matcher.blank := by
  rw [matchers, matchers, OrderedMap.entries_mapValues, List.map_map, List.map_map, List.map_map]
  rfl

theorem selectors_aggregated {e : Expr} : (aggregated e fn).selectors = e.selectors := by
  match fn with
  | none | some .avg | some .sum | some .min | some .max | some .count | some .rate | some .p50
  | some .p90 | some .p95 | some .p99 => rfl

theorem selectors_expression {ms : List Matcher}
    (h : ms ∈ (metric.expression window labels errors pod).selectors) :
    (∃ more, ms = labels ++ more) ∨ ms = errors := by
  have hself : ∃ more, labels = labels ++ more := ⟨[], (List.append_nil labels).symm⟩
  cases metric with
  | requestRate | p50Latency | p95Latency | p99Latency =>
    cases List.mem_singleton.mp h
    exact Or.inl hself
  | errorRate | availability =>
    rcases List.mem_pair.mp h with rfl | rfl
    · exact Or.inr rfl
    · exact Or.inl hself
  | saturation =>
    rcases List.mem_pair.mp h with rfl | rfl
    · exact Or.inl ⟨_, rfl⟩
    · exact Or.inl ⟨_, rfl⟩

theorem find_matchers {l : OrderedMap (List Char) Meant} {k : List Char} {m : Meant}
    (h : l.get k = some m) :
    (matchers l).find? (·.label = k) = some ⟨k, m.1, m.2⟩ := by
  obtain ⟨e, he, rfl⟩ := Option.map_eq_some_iff.mp h
  have hkey : e.1 = k := by simpa using List.find?_some he
  subst hkey
  rw [matchers, List.find?_map]
  exact congrArg (Option.map _) he

theorem get_filter {f : List Char × FilterValue} (hf : f ∈ (filtersOf query).entries)
    (base : OrderedMap (List Char) Meant) :
    (base.spread (meantFilters query)).get f.1 = some f.2.meant := by
  have hget : (meantFilters query).get f.1 = some f.2.meant :=
    OrderedMap.get_eq_some_iff.mpr (List.mem_map.mpr ⟨f, hf, rfl⟩)
  rw [OrderedMap.get_spread, hget]
  rfl

theorem selects_meant (hre : Documented re2) {f : FilterValue} (h : f.Clear) (k v : List Char) :
    Matcher.Selects re2 ⟨k, f.meant.1, f.meant.2⟩ v ↔ f.Wants v := by
  cases f with
  | text w => exact Iff.rfl
  | list ws =>
    obtain ⟨language, hlanguage, hmem⟩ := hre.alternatives ws h.1 h.2
    constructor
    · rintro ⟨found, hfound, hv⟩
      cases hlanguage.symm.trans hfound
      exact (hmem v).mp hv
    · exact fun hv => ⟨language, hlanguage, (hmem v).mpr hv⟩

theorem window_ok (h : Clear metric query) :
    isDuration (Metrics.window query) = true ∧ Plain (Metrics.window query) := by
  have hseconds : ∀ n < 301, 0 < n → isDuration (secondsToWindow (n : ℕ)) = true ∧
      Plain (secondsToWindow (n : ℕ)) := by decide +kernel
  have hgranularity (g : TimeGranularity) : isDuration g.text = true ∧ Plain g.text := by
    cases g <;> decide
  unfold Metrics.window
  cases hinterval : query.aggregation.bind (·.interval) with
  | some interval => exact hgranularity interval
  | none =>
    have hpos := h.window hinterval
    obtain ⟨n, hn⟩ := Int.eq_ofNat_of_zero_le (a := min (rangeSeconds query) 300) (by omega)
    rw [hn]
    exact hseconds n (by omega) (by omega)

theorem translated (hs : Supported metric query) (h : Clear metric query) :
    translateToPromQL query = .ok {
      promql := buildAggregationWrapper (metric.template query.entity (Metrics.window query)
        ((meantFilters query).mapValues write)) (functionOf query)
      window := Metrics.window query } := by
  have hfind : METRIC_TEMPLATES.find? (·.1 = query.metric) = some (query.metric, metric) := by
    have hmetric := hs.metric
    simp only [METRIC_TEMPLATES, List.mem_cons, List.not_mem_nil, or_false, Prod.mk.injEq]
      at hmetric
    rcases hmetric with ⟨hname, rfl⟩ | ⟨hname, rfl⟩ | ⟨hname, rfl⟩ | ⟨hname, rfl⟩ | ⟨hname, rfl⟩ |
      ⟨hname, rfl⟩ | ⟨hname, rfl⟩ <;> rw [hname] <;> rfl
  rw [translateToPromQL, hfind, extraFilters_eq h]
  rfl

theorem matchers_ne_nil : matchers (meantLabels metric query) ≠ [] := by
  intro hnil
  have hget : (meantLabels metric query).get metric.entityLabel.toList ≠ none := by
    rw [meantLabels, entityLabels, OrderedMap.get_spread, OrderedMap.get_set, if_pos rfl]
    cases (meantFilters query).get metric.entityLabel.toList <;> exact nofun
  obtain ⟨m, hm⟩ := Option.ne_none_iff_exists'.mp hget
  have hmem := OrderedMap.get_eq_some_iff.mp hm
  rw [List.map_eq_nil_iff.mp hnil] at hmem
  cases hmem

theorem kinds_eq :
    ((filtersOf query).mapValues (·.meant.1)).mapValues (fun op => ((op, []) : Meant)) =
      (meantFilters query).mapValues fun m => (m.1, []) := by
  refine OrderedMap.ext_entries ?_
  rw [meantFilters, OrderedMap.entries_mapValues, OrderedMap.entries_mapValues,
    OrderedMap.entries_mapValues, OrderedMap.entries_mapValues, List.map_map, List.map_map]
  rfl

theorem blank_labels : (matchers (meantLabels metric query)).map Matcher.blank =
    (matchers (entityLabels metric.entityLabel (.eq, [])
      (((filtersOf query).mapValues (·.meant.1)).mapValues fun op => (op, [])))).map
        Matcher.blank := by
  rw [← blank_matchers, meantLabels, mapValues_entityLabels, kinds_eq]

theorem blank_errors : (matchers (meantErrors query)).map Matcher.blank =
    (matchers (errorLabels (.eq, []) (.re, "5..".toList)
      (((filtersOf query).mapValues (·.meant.1)).mapValues fun op => (op, [])))).map
        Matcher.blank := by
  have htwice : ((meantFilters query).mapValues fun m => ((m.1, []) : Meant)).mapValues
      (fun m => ((m.1, []) : Meant)) = (meantFilters query).mapValues fun m => (m.1, []) := by
    refine OrderedMap.ext_entries ?_
    rw [OrderedMap.entries_mapValues, OrderedMap.entries_mapValues, List.map_map]
    rfl
  rw [← blank_matchers, ← blank_matchers (errorLabels (.eq, []) _ _), meantErrors,
    mapValues_errorLabels, mapValues_errorLabels, kinds_eq, htwice]

/-- **A clear query is translated faithfully.** Its text is read as the expression of its metric,
whatever the values are, and each filter selects exactly what it asks for. -/
theorem translate_faithful (re2 : List Char → Option (List Char → Prop)) (metric : Metric)
    (query : SemanticQuery) (hre : Documented re2) (hs : Supported metric query)
    (h : Clear metric query) : Faithful re2 metric query := by
  obtain ⟨hduration, hplain⟩ := window_ok h
  have hlabels := sound_labels hre hs h
  have hselector := labelsOf_sound hlabels
  rw [meantLabels, mapValues_entityLabels] at hselector
  have herrors (hmetric : metric ≠ .saturation) := labelsOf_sound (sound_errors hre hs h hmetric)
  simp only [meantErrors, mapValues_errorLabels] at herrors
  have htemplate := lexes_template hplain matchers_ne_nil hselector herrors h.pod
  have hlex := lexes_wrapper htemplate (functionOf query)
  have htype := type_aggregated (type_expression hduration (ok_sound hlabels)
    (fun hmetric => ok_sound (sound_errors hre hs h hmetric))
    (fun hmetric => hre.pod query.entity (h.pod hmetric))) h.function
  refine ⟨_, _, translated hs h, ⟨hlex.lex_eq, Option.isSome_iff_exists.mpr ⟨_, htype⟩⟩, ?_, ?_⟩
  · exact blank_aggregated (blank_expression blank_labels blank_errors)
  · intro ms hms f hf
    rw [selectors_aggregated] at hms
    have hfound : ms.find? (·.label = f.1) = some ⟨f.1, f.2.meant.1, f.2.meant.2⟩ := by
      have hlabel : (matchers (meantLabels metric query)).find? (·.label = f.1) =
          some ⟨f.1, f.2.meant.1, f.2.meant.2⟩ := find_matchers (get_filter hf _)
      rcases selectors_expression hms with ⟨more, rfl⟩ | rfl
      · rw [List.find?_append, hlabel]
        rfl
      · exact find_matchers (get_filter hf _)
    exact ⟨_, hfound, selects_meant hre (h.filters f hf) f.1⟩

def alternatives (pattern : List Char) : Option (List Char → Prop) :=
  some fun v => v ∈ pattern.splitOn '|'

theorem documented_alternatives : Documented alternatives := by
  refine ⟨fun vs hne h => ⟨_, rfl, fun v => ?_⟩, rfl, fun _ _ => rfl⟩
  have hbar : ∀ v ∈ vs, '|' ∉ v := fun v hv hin => h v hv _ hin (by decide)
  rw [List.splitOn_intercalate _ hbar hne]

def queryOf (value : FilterValue) : SemanticQuery where
  entity := "web".toList
  metric := "request_rate"
  timeRange := ⟨0, 300000⟩
  filters := some (({} : OrderedMap _ _).set "pod".toList value)

theorem translate_faithful_pods : Faithful alternatives .requestRate
    (queryOf (.list ["a".toList, "b".toList])) := by
  have hentries : (filtersOf (queryOf (.list ["a".toList, "b".toList]))).entries =
      [("pod".toList, .list ["a".toList, "b".toList])] := rfl
  have hliteral : ∀ v ∈ ["a".toList, "b".toList], Literal v := by
    intro v hv
    rcases List.mem_pair.mp hv with rfl | rfl <;> decide
  have htext : (FilterValue.text "web".toList).Clear :=
    ⟨by decide, by decide, by decide⟩
  refine translate_faithful alternatives .requestRate _ documented_alternatives
    ⟨List.mem_cons_self, ?_⟩ ⟨?_, ?_, Or.inr htext, nofun, fun _ => by decide, nofun⟩
  · rw [hentries]
    decide
  · rw [hentries]
    decide
  · rw [hentries]
    rintro f hf
    cases List.mem_singleton.mp hf
    exact ⟨by decide, hliteral⟩

/-- A dot among the listed values: its escape is none of the string it stands in. -/
theorem dot_breaks_string : ¬ ∀ query : SemanticQuery,
    Supported .requestRate query → Faithful alternatives .requestRate query := by
  intro hall
  have hentries : (filtersOf (queryOf (.list ["a.b".toList]))).entries =
      [("pod".toList, .list ["a.b".toList])] := rfl
  obtain ⟨t, e, ht, ⟨hlex, -⟩, -⟩ := hall (queryOf (.list ["a.b".toList]))
    ⟨List.mem_cons_self, by rw [hentries]; decide⟩
  cases ht
  have hnone : lex (buildAggregationWrapper (Metric.requestRate.template "web".toList "5m".toList
      (extraFilters (queryOf (.list ["a.b".toList])))) none) = none := by decide +kernel
  exact nomatch hnone.symm.trans hlex

end Read

end OpenObs.Metrics
