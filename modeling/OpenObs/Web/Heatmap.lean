import OpenObs.Foundation.Differences
import OpenObs.Foundation.Distinct
import OpenObs.Foundation.OrderedMap
import OpenObs.Web.QueryTransformers

/-!
# Heatmaps of a panel

`components/panel/query-transformers.ts`: the cells a heatmap panel draws.
-/

namespace OpenObs.Web

open OpenObs.Foundation

/-! ## Cells -/

structure HeatmapPoint where
  x : ℚ
  y : String
  value : Number
deriving DecidableEq

structure Bucket where
  le : String
  leNum : Number
  byTs : OrderedMap ℚ ℚ := {}

/-- The difference of the two is not positive; a difference that is no number counts as zero. -/
def Number.notAbove : Number → Number → Bool
  | .nan, _ => true
  | _, .nan => true
  | .infinity true, _ => true
  | _, .infinity false => true
  | .finite p, .finite q => p ≤ q
  | _, _ => false

def leNum (parseFloat : String → Number) (le : String) : Number :=
  if le = "+Inf" then .infinity false else parseFloat le

def leOf (s : Series) : String := (label s.labels "le").getD ""

def Bucket.add (b : Bucket) (p : Point) : Bucket :=
  match p.value with
  | .finite v => { b with byTs := b.byTs.set p.ts v }
  | _ => b

def addSeries (parseFloat : String → Number) (buckets : OrderedMap String Bucket) (s : Series) :
    OrderedMap String Bucket :=
  let le := leOf s
  let bucket := (buckets.get le).getD { le, leNum := leNum parseFloat le }
  buckets.set le (s.points.foldl Bucket.add bucket)

def cells (ts : ℚ) : List Bucket → ℚ → Bool → List HeatmapPoint
  | [], _, _ => []
  | b :: rest, prev, seenLower =>
    match b.byTs.get ts with
    | none => cells ts rest prev seenLower
    | some cumulative =>
      let density := if seenLower then max 0 (cumulative - prev) else cumulative
      ⟨ts, b.le, .finite density⟩ :: cells ts rest cumulative true

def sortBuckets (buckets : List Bucket) : List Bucket :=
  buckets.insertionSort fun a b => a.leNum.notAbove b.leNum

def histogramRangeToHeatmapPoints (parseFloat : String → Number) (results : List QueryResult) :
    List HeatmapPoint :=
  let buckets := results.foldl (fun m qr => qr.series.foldl (addSeries parseFloat) m) {}
  let sorted := sortBuckets buckets.values
  let tsList := (sorted.flatMap (·.byTs.keys)).eraseDups.insertionSort (· ≤ ·)
  tsList.flatMap fun ts => cells ts sorted 0 false

def rangeToHeatmapPoints (parseFloat : String → Number) (results : List QueryResult) :
    List HeatmapPoint :=
  let allHaveLe := 0 < results.length ∧ ∀ qr ∈ results,
    0 < qr.series.length ∧ ∀ s ∈ qr.series, (label s.labels "le").isSome
  if allHaveLe then histogramRangeToHeatmapPoints parseFloat results
  else results.flatMap fun qr => qr.series.flatMap fun s =>
    s.points.map fun p => ⟨p.ts, spanLabel s.labels, p.value⟩

/-! ## What the buckets hold -/

section Buckets

variable {parseFloat : String → Number} {ts : ℚ}

def countAt (ts : ℚ) (p : Point) : Option ℚ :=
  match p.value with
  | .finite v => if p.ts = ts then some v else none
  | _ => none

def countsAt (ts : ℚ) (points : List Point) : List ℚ := points.filterMap (countAt ts)

theorem countsAt_append (points more : List Point) :
    countsAt ts (points ++ more) = countsAt ts points ++ countsAt ts more :=
  List.filterMap_append

theorem get_add (b : Bucket) (p : Point) :
    (b.add p).byTs.get ts = (countAt ts p).or (b.byTs.get ts) := by
  unfold Bucket.add countAt
  cases p.value with
  | finite v =>
    dsimp only
    rw [OrderedMap.get_set]
    by_cases h : ts = p.ts
    · rw [if_pos h, if_pos h.symm, Option.some_or]
    · rw [if_neg h, if_neg (Ne.symm h), Option.none_or]
  | infinity => rw [Option.none_or]
  | nan => rw [Option.none_or]

theorem get_points (b : Bucket) (points : List Point) :
    (points.foldl Bucket.add b).byTs.get ts = (countsAt ts points).getLast?.or (b.byTs.get ts) := by
  induction points using List.reverseRecOn with
  | nil => rfl
  | append_singleton points p ih =>
    rw [List.foldl_append, countsAt_append]
    show ((points.foldl Bucket.add b).add p).byTs.get ts = _
    rw [get_add, ih, countsAt, countsAt]
    cases hp : countAt ts p with
    | none => simp [hp]
    | some v => simp [hp]

theorem bound_points (b : Bucket) (points : List Point) :
    (points.foldl Bucket.add b).le = b.le ∧ (points.foldl Bucket.add b).leNum = b.leNum := by
  induction points using List.reverseRecOn with
  | nil => exact ⟨rfl, rfl⟩
  | append_singleton points p ih =>
    rw [List.foldl_append]
    show ((points.foldl Bucket.add b).add p).le = _ ∧ ((points.foldl Bucket.add b).add p).leNum = _
    rw [Bucket.add]
    split
    · exact ih
    · exact ih

def reading (buckets : OrderedMap String Bucket) (le : String) (ts : ℚ) : Option ℚ :=
  (buckets.get le).bind (·.byTs.get ts)

def countsOf (le : String) (ts : ℚ) (series : List Series) : List ℚ :=
  countsAt ts ((series.filter (leOf · = le)).flatMap (·.points))

theorem reading_addSeries (buckets : OrderedMap String Bucket) (s : Series) (le : String) :
    reading (addSeries parseFloat buckets s) le ts =
      if leOf s = le then (countsAt ts s.points).getLast?.or (reading buckets le ts)
      else reading buckets le ts := by
  rw [addSeries, reading, OrderedMap.get_set]
  by_cases h : leOf s = le
  · subst h
    rw [if_pos rfl, if_pos rfl, Option.bind_some, get_points, reading]
    cases buckets.get (leOf s) <;> rfl
  · rw [if_neg (Ne.symm h), if_neg h, reading]

theorem reading_merged (series : List Series) (le : String) :
    reading (series.foldl (addSeries parseFloat) {}) le ts =
      (countsOf le ts series).getLast? := by
  induction series using List.reverseRecOn with
  | nil => rfl
  | append_singleton series s ih =>
    rw [List.foldl_append, List.foldl_cons, List.foldl_nil, reading_addSeries, ih, countsOf,
      countsOf, List.filter_append, List.flatMap_append, countsAt_append, List.getLast?_append]
    by_cases h : leOf s = le
    · rw [if_pos h]
      simp [h]
    · rw [if_neg h]
      simp [h, countsAt]

def Bounded (parseFloat : String → Number) (series : List Series)
    (buckets : OrderedMap String Bucket) : Prop :=
  ∀ le b, buckets.get le = some b →
    b.le = le ∧ b.leNum = leNum parseFloat le ∧ ∃ s ∈ series, leOf s = le

theorem bounded_addSeries {buckets : OrderedMap String Bucket} {series : List Series}
    (h : Bounded parseFloat series buckets) (s : Series) :
    Bounded parseFloat (series ++ [s]) (addSeries parseFloat buckets s) := by
  intro le b hget
  rw [addSeries, OrderedMap.get_set] at hget
  by_cases heq : le = leOf s
  · rw [if_pos heq] at hget
    cases hget
    obtain ⟨hle, hnum⟩ := bound_points ((buckets.get (leOf s)).getD
      { le := leOf s, leNum := leNum parseFloat (leOf s) }) s.points
    rw [hle, hnum, heq]
    have hs : ∃ s' ∈ series ++ [s], leOf s' = leOf s :=
      ⟨s, List.mem_append_right _ (List.mem_singleton_self s), rfl⟩
    cases hold : buckets.get (leOf s) with
    | none => exact ⟨rfl, rfl, hs⟩
    | some old => exact ⟨(h _ _ hold).1, (h _ _ hold).2.1, hs⟩
  · rw [if_neg heq] at hget
    obtain ⟨hle, hnum, s', hs', hbound⟩ := h le b hget
    exact ⟨hle, hnum, s', List.mem_append_left _ hs', hbound⟩

theorem bounded_merged (series : List Series) :
    Bounded parseFloat series (series.foldl (addSeries parseFloat) {}) := by
  induction series using List.reverseRecOn with
  | nil => exact fun _ _ h => nomatch h
  | append_singleton series s ih =>
    rw [List.foldl_append]
    exact bounded_addSeries ih s

end Buckets

/-! ## One column of cells -/

section Columns

variable {ts : ℚ} {bs : List Bucket}

def column (ts : ℚ) (bs : List Bucket) : List (Bucket × ℚ) :=
  bs.filterMap fun b => (b.byTs.get ts).map fun v => (b, v)

theorem mem_column {b : Bucket} {v : ℚ} :
    (b, v) ∈ column ts bs ↔ b ∈ bs ∧ b.byTs.get ts = some v := by
  simp [column, and_comm]

theorem cells_above : ∀ {bs : List Bucket} {prev : ℚ}, cells ts bs prev true =
    ((column ts bs).zip (increments prev ((column ts bs).map (·.2)))).map fun e =>
      ⟨ts, e.1.1.le, .finite e.2⟩
  | [], _ => rfl
  | b :: bs, prev => by
    rw [cells, column, List.filterMap_cons]
    cases b.byTs.get ts with
    | none => exact cells_above
    | some v =>
      dsimp only [Option.map_some]
      rw [if_pos rfl, List.map_cons, increments_cons, List.zip_cons_cons, List.map_cons,
        cells_above, column]

theorem cells_eq : ∀ {bs : List Bucket}, (∀ e ∈ column ts bs, 0 ≤ e.2) → cells ts bs 0 false =
    ((column ts bs).zip (increments 0 ((column ts bs).map (·.2)))).map fun e =>
      ⟨ts, e.1.1.le, .finite e.2⟩
  | [], _ => rfl
  | b :: bs, hnonneg => by
    rw [cells]
    cases hget : b.byTs.get ts with
    | none =>
      have hcolumn : column ts (b :: bs) = column ts bs := by
        rw [column, List.filterMap_cons, hget]
        rfl
      rw [hcolumn] at hnonneg ⊢
      exact cells_eq hnonneg
    | some v =>
      have hcolumn : column ts (b :: bs) = (b, v) :: column ts bs := by
        rw [column, List.filterMap_cons, hget]
        rfl
      rw [hcolumn] at hnonneg ⊢
      have hv : max 0 (v - 0) = v := by
        rw [sub_zero]
        exact max_eq_right (hnonneg (b, v) List.mem_cons_self)
      rw [List.map_cons, increments_cons, hv, List.zip_cons_cons, List.map_cons]
      dsimp only
      rw [if_neg Bool.false_ne_true, cells_above]

theorem length_increments {α : Type} [AddCommGroup α] [LinearOrder α] :
    ∀ {prev : α} {cs : List α}, (increments prev cs).length = cs.length
  | _, [] => rfl
  | _, c :: cs => congrArg (· + 1) (@length_increments _ _ _ c cs)

theorem cells_nil : ∀ {bs : List Bucket} {prev : ℚ} {seenLower : Bool},
    (∀ b ∈ bs, b.byTs.get ts = none) → cells ts bs prev seenLower = []
  | [], _, _, _ => rfl
  | b :: bs, _, _, h => by
    rw [cells, h b List.mem_cons_self]
    exact cells_nil fun b hb => h b (List.mem_cons_of_mem _ hb)

theorem cells_x : ∀ {bs : List Bucket} {prev : ℚ} {seenLower : Bool},
    ∀ p ∈ cells ts bs prev seenLower, p.x = ts
  | [], _, _, _, hp => absurd hp List.not_mem_nil
  | b :: bs, prev, seenLower, p, hp => by
    rw [cells] at hp
    cases hget : b.byTs.get ts with
    | none =>
      rw [hget] at hp
      exact cells_x p hp
    | some v =>
      rw [hget] at hp
      rcases List.mem_cons.mp hp with rfl | hp
      · rfl
      · exact cells_x p hp

end Columns

/-! ## Order of the bounds -/

namespace Number

theorem notAbove_total (a b : Number) : a.notAbove b ∨ b.notAbove a := by
  rcases a with p | s | _ <;> rcases b with q | t | _ <;> simp [notAbove]
  · exact le_total p q
  · cases t <;> simp [notAbove]
  · cases s <;> simp [notAbove]
  · cases s <;> cases t <;> simp [notAbove]

theorem notAbove_trans {a b c : Number} (hb : b ≠ .nan) (hab : a.notAbove b)
    (hbc : b.notAbove c) : a.notAbove c := by
  rcases a with p | s | _
  · rcases b with q | t | _
    · rcases c with r | u | _
      · simp only [notAbove, decide_eq_true_eq] at hab hbc ⊢
        exact hab.trans hbc
      · cases u <;> exact hbc
      · rfl
    · cases t
      · rcases c with r | u | _
        · exact absurd hbc (by simp [notAbove])
        · cases u <;> exact hbc
        · rfl
      · exact absurd hab (by simp [notAbove])
    · exact absurd rfl hb
  · cases s
    · rcases b with q | t | _
      · exact absurd hab (by simp [notAbove])
      · cases t
        · exact hbc
        · exact absurd hab (by simp [notAbove])
      · exact absurd rfl hb
    · cases c <;> rfl
  · rfl

theorem notAbove_refl (a : Number) : a.notAbove a := (notAbove_total a a).elim id id

end Number

/-! ## Counts are conserved -/

structure Sample where
  group : List (String × String)
  le : Number
  count : ℚ

def groupOf (s : Series) : List (String × String) :=
  (s.labels.filter (·.1 ≠ "le")).insertionSort fun a b => a.1 ≤ b.1

def samplesAt (parseFloat : String → Number) (ts : ℚ) (series : List Series) : List Sample :=
  series.flatMap fun s => (countsAt ts s.points).map fun count =>
    { group := groupOf s, le := leNum parseFloat (leOf s), count }

def Cumulative (samples : List Sample) : Prop :=
  ∀ a ∈ samples, 0 ≤ a.count ∧
    ∀ b ∈ samples, a.group = b.group → a.le.notAbove b.le → a.count ≤ b.count

def Sample.larger (top s : Sample) : Sample := if top.le.notAbove s.le then s else top

def atLargest : List Sample → ℚ
  | [] => 0
  | s :: rest => (rest.foldl Sample.larger s).count

def total (samples : List Sample) : ℚ :=
  ((samples.map (·.group)).eraseDups.map fun g => atLargest (samples.filter (·.group = g))).sum

/-- The cells have nonnegative values, no two one bound, and sum to the counts of the groups. -/
def Conserves (points : List HeatmapPoint) (samples : List Sample) : Prop :=
  ∃ values : List ℚ, points.map (·.value) = values.map .finite ∧ (∀ v ∈ values, 0 ≤ v) ∧
    (points.map (·.y)).Nodup ∧ values.sum = total samples

section Conserved

variable {parseFloat : String → Number} {ts : ℚ} {series : List Series}

def merged (parseFloat : String → Number) (series : List Series) : List Bucket :=
  sortBuckets (series.foldl (addSeries parseFloat) {}).values

theorem mem_merged {b : Bucket} : b ∈ merged parseFloat series ↔
    ∃ le, (series.foldl (addSeries parseFloat) {}).get le = some b := by
  rw [merged, sortBuckets, List.mem_insertionSort, OrderedMap.values, List.mem_map]
  constructor
  · rintro ⟨⟨le, b⟩, he, rfl⟩
    exact ⟨le, OrderedMap.get_eq_some_iff.mpr he⟩
  · rintro ⟨le, hget⟩
    exact ⟨(le, b), OrderedMap.get_eq_some_iff.mp hget, rfl⟩

theorem sample_of_column {b : Bucket} {v : ℚ} (h : (b, v) ∈ column ts (merged parseFloat series)) :
    ∃ x ∈ samplesAt parseFloat ts series, x.le = b.leNum ∧ x.count = v := by
  obtain ⟨hb, hv⟩ := mem_column.mp h
  obtain ⟨le, hget⟩ := mem_merged.mp hb
  obtain ⟨-, hnum, -⟩ := bounded_merged series le b hget
  have hread : (countsOf le ts series).getLast? = some v := by
    rw [← @reading_merged parseFloat, reading, hget]
    exact hv
  obtain ⟨p, hp, hcount⟩ := List.mem_filterMap.mp (List.mem_of_getLast? hread)
  obtain ⟨s, hs, hps⟩ := List.mem_flatMap.mp hp
  obtain ⟨hs, hle⟩ := List.mem_filter.mp hs
  refine ⟨⟨groupOf s, leNum parseFloat (leOf s), v⟩, ?_, ?_, rfl⟩
  · exact List.mem_flatMap.mpr ⟨s, hs, List.mem_map.mpr
      ⟨v, List.mem_filterMap.mpr ⟨p, hps, hcount⟩, rfl⟩⟩
  · rw [hnum, of_decide_eq_true hle]

theorem column_of_sample {x : Sample} (h : x ∈ samplesAt parseFloat ts series) :
    ∃ b v, (b, v) ∈ column ts (merged parseFloat series) ∧ b.leNum = x.le := by
  obtain ⟨s, hs, hx⟩ := List.mem_flatMap.mp h
  obtain ⟨count, hcount, rfl⟩ := List.mem_map.mp hx
  obtain ⟨p, hp, hpoint⟩ := List.mem_filterMap.mp hcount
  have hin : count ∈ countsOf (leOf s) ts series :=
    List.mem_filterMap.mpr ⟨p, List.mem_flatMap.mpr
      ⟨s, List.mem_filter.mpr ⟨hs, decide_eq_true rfl⟩, hp⟩, hpoint⟩
  obtain ⟨v, hv⟩ := Option.isSome_iff_exists.mp
    (List.getLast?_isSome.mpr (List.ne_nil_of_mem hin))
  rw [← @reading_merged parseFloat, reading] at hv
  obtain ⟨b, hget, hv⟩ := Option.bind_eq_some_iff.mp hv
  exact ⟨b, v, mem_column.mpr ⟨mem_merged.mpr ⟨_, hget⟩, hv⟩, (bounded_merged series _ b hget).2.1⟩

theorem pairwise_merged (hread : ∀ s ∈ series, leNum parseFloat (leOf s) ≠ .nan) :
    (merged parseFloat series).Pairwise fun a b => a.leNum.notAbove b.leNum := by
  refine pairwise_insertionSort (fun a _ b _ => Number.notAbove_total _ _) ?_
  intro a _ b hb c _ hab hbc
  obtain ⟨le, hget⟩ := mem_merged.mp ((List.mem_insertionSort _).mpr hb)
  obtain ⟨-, hnum, s, hs, rfl⟩ := bounded_merged series le b hget
  exact Number.notAbove_trans (hnum ▸ hread s hs) hab hbc

theorem nodup_merged : ((merged parseFloat series).map (·.le)).Nodup := by
  have hperm := (List.perm_insertionSort (fun a b : Bucket => a.leNum.notAbove b.leNum)
    (series.foldl (addSeries parseFloat) {}).values).map (·.le)
  refine hperm.nodup_iff.mpr ?_
  have hkeys : (series.foldl (addSeries parseFloat) {}).values.map (·.le) =
      (series.foldl (addSeries parseFloat) {}).keys := by
    rw [OrderedMap.values, OrderedMap.keys, List.map_map]
    refine List.map_congr_left fun e he => ?_
    exact (bounded_merged series e.1 e.2 (OrderedMap.get_eq_some_iff.mpr he)).1
  rw [hkeys]
  exact OrderedMap.keys_nodup _

theorem column_sublist (bs : List Bucket) : ((column ts bs).map (·.1)).Sublist bs := by
  induction bs with
  | nil => exact List.Sublist.slnil
  | cons b bs ih =>
    rw [column, List.filterMap_cons]
    cases b.byTs.get ts with
    | none => exact ih.cons b
    | some v => exact ih.cons₂ b

theorem points_at {results : List QueryResult} (hfull : ∀ qr ∈ results, qr.series ≠ [])
    (hle : ∀ qr ∈ results, ∀ s ∈ qr.series, (label s.labels "le").isSome) :
    (rangeToHeatmapPoints parseFloat results).filter (fun p => p.x = ts) =
      cells ts (merged parseFloat (results.flatMap (·.series))) 0 false := by
  cases results with
  | nil => rfl
  | cons qr rest =>
    have hall : 0 < (qr :: rest).length ∧ ∀ qr' ∈ qr :: rest,
        0 < qr'.series.length ∧ ∀ s ∈ qr'.series, (label s.labels "le").isSome :=
      ⟨Nat.succ_pos _, fun qr' h => ⟨List.length_pos_iff.mpr (hfull qr' h), hle qr' h⟩⟩
    rw [rangeToHeatmapPoints, if_pos hall, histogramRangeToHeatmapPoints, ← List.foldl_flatMap]
    generalize qr :: rest = results
    have hts : ((sortBuckets ((results.flatMap (·.series)).foldl (addSeries parseFloat)
        {}).values).flatMap (·.byTs.keys)).eraseDups.insertionSort (· ≤ ·) |>.Nodup :=
      (List.perm_insertionSort _ _).nodup_iff.mpr (nodup_eraseDups _)
    rw [filter_rows (fun _ => cells_x) hts]
    split
    · rfl
    next hnot =>
      refine (cells_nil fun b hb => ?_).symm
      rw [OrderedMap.get_eq_none_iff]
      intro hkey
      refine hnot ((List.mem_insertionSort _).mpr (List.mem_eraseDups.mpr ?_))
      exact List.mem_flatMap.mpr ⟨b, hb, hkey⟩

theorem larger_eq (top s : Sample) : top.larger s = s ∨ top.larger s = top := by
  unfold Sample.larger
  split
  · exact Or.inl rfl
  · exact Or.inr rfl

theorem larger_left (top s : Sample) : top.le.notAbove (top.larger s).le := by
  unfold Sample.larger
  split
  next h => exact h
  · exact Number.notAbove_refl _

theorem larger_right (top s : Sample) : s.le.notAbove (top.larger s).le := by
  unfold Sample.larger
  split
  · exact Number.notAbove_refl _
  next h => exact (Number.notAbove_total _ _).resolve_left h

theorem foldl_larger : ∀ (rest : List Sample) (top : Sample),
    (∀ x ∈ top :: rest, x.le ≠ .nan) →
    rest.foldl Sample.larger top ∈ top :: rest ∧
      ∀ x ∈ top :: rest, x.le.notAbove (rest.foldl Sample.larger top).le
  | [], top, _ => by simp [Number.notAbove_refl]
  | s :: rest, top, hread => by
    have hin : top.larger s ∈ top :: s :: rest := by
      rcases larger_eq top s with heq | heq <;> simp [heq]
    obtain ⟨hmem, hmax⟩ := foldl_larger rest (top.larger s) fun x hx => by
      rcases List.mem_cons.mp hx with rfl | hx
      · exact hread _ hin
      · exact hread x (List.mem_cons_of_mem _ (List.mem_cons_of_mem _ hx))
    have hover : ∀ x : Sample, x.le.notAbove (top.larger s).le →
        x.le.notAbove (rest.foldl Sample.larger (top.larger s)).le := fun x hx =>
      Number.notAbove_trans (hread _ hin) hx (hmax _ List.mem_cons_self)
    rw [List.foldl_cons]
    refine ⟨?_, fun x hx => ?_⟩
    · rcases List.mem_cons.mp hmem with heq | hmem
      · rw [heq]
        exact hin
      · exact List.mem_cons_of_mem _ (List.mem_cons_of_mem _ hmem)
    · rcases List.mem_cons.mp hx with rfl | hx
      · exact hover x (larger_left x s)
      · rcases List.mem_cons.mp hx with rfl | hx
        · exact hover x (larger_right top x)
        · exact hmax x (List.mem_cons_of_mem _ hx)

theorem atLargest_spec {samples : List Sample} (hne : samples ≠ [])
    (hread : ∀ x ∈ samples, x.le ≠ .nan) :
    ∃ top ∈ samples, atLargest samples = top.count ∧ ∀ x ∈ samples, x.le.notAbove top.le := by
  cases samples with
  | nil => exact absurd rfl hne
  | cons s rest =>
    obtain ⟨hmem, hmax⟩ := foldl_larger rest s hread
    exact ⟨_, hmem, rfl, hmax⟩

theorem total_one {samples : List Sample} (hone : ∀ a ∈ samples, ∀ b ∈ samples, a.group = b.group) :
    total samples = atLargest samples := by
  cases samples with
  | nil => rfl
  | cons s rest =>
    have hgroup : ∀ x ∈ s :: rest, x.group = s.group := fun x hx =>
      hone x hx s List.mem_cons_self
    have hkeys : ((s :: rest).map (·.group)).eraseDups = [s.group] := by
      rw [List.map_cons, List.eraseDups_cons]
      have hnone : (rest.map (·.group)).filter (fun g => !g == s.group) = [] := by
        refine List.filter_eq_nil_iff.mpr fun g hg => ?_
        obtain ⟨x, hx, rfl⟩ := List.mem_map.mp hg
        simp [hgroup x (List.mem_cons_of_mem _ hx)]
      rw [hnone]
      rfl
    have hall : (s :: rest).filter (fun x => x.group = s.group) = s :: rest :=
      List.filter_eq_self.mpr fun x hx => decide_eq_true (hgroup x hx)
    rw [total, hkeys, List.map_singleton, hall, List.sum_singleton]

theorem column_monotone (hread : ∀ s ∈ series, leNum parseFloat (leOf s) ≠ .nan)
    (hone : ∀ a ∈ samplesAt parseFloat ts series, ∀ b ∈ samplesAt parseFloat ts series,
      a.group = b.group)
    (hcum : Cumulative (samplesAt parseFloat ts series)) :
    (column ts (merged parseFloat series)).Pairwise fun e f => e.2 ≤ f.2 := by
  have hbounds : (column ts (merged parseFloat series)).Pairwise
      fun e f => e.1.leNum.notAbove f.1.leNum :=
    List.pairwise_map.mp ((pairwise_merged hread).sublist (column_sublist _))
  refine hbounds.imp_of_mem fun {e f} he hf hef => ?_
  obtain ⟨x, hx, hxle, hxcount⟩ := sample_of_column (b := e.1) (v := e.2) he
  obtain ⟨y, hy, hyle, hycount⟩ := sample_of_column (b := f.1) (v := f.2) hf
  rw [← hxcount, ← hycount]
  refine (hcum x hx).2 y hy (hone x hx y hy) ?_
  rw [hxle, hyle]
  exact hef

theorem last_of_column (hread : ∀ s ∈ series, leNum parseFloat (leOf s) ≠ .nan)
    (hone : ∀ a ∈ samplesAt parseFloat ts series, ∀ b ∈ samplesAt parseFloat ts series,
      a.group = b.group)
    (hcum : Cumulative (samplesAt parseFloat ts series)) :
    ((column ts (merged parseFloat series)).map (·.2)).getLastD 0 =
      atLargest (samplesAt parseFloat ts series) := by
  by_cases hnone : samplesAt parseFloat ts series = []
  · have hcolumn : column ts (merged parseFloat series) = [] := by
      refine List.eq_nil_iff_forall_not_mem.mpr fun e he => ?_
      obtain ⟨x, hx, -⟩ := sample_of_column (b := e.1) (v := e.2) he
      rw [hnone] at hx
      exact List.not_mem_nil hx
    rw [hcolumn, hnone]
    rfl
  · have hnums : ∀ x ∈ samplesAt parseFloat ts series, x.le ≠ .nan := by
      intro x hx
      obtain ⟨s, hs, hx⟩ := List.mem_flatMap.mp hx
      obtain ⟨count, -, rfl⟩ := List.mem_map.mp hx
      exact hread s hs
    obtain ⟨top, htop, heq, hmax⟩ := atLargest_spec hnone hnums
    obtain ⟨b, v, hbv, hb⟩ := column_of_sample htop
    obtain ⟨init, last, hcolumn⟩ := (List.eq_nil_or_concat' _).resolve_left
      (List.ne_nil_of_mem hbv)
    have hmono := column_monotone hread hone hcum
    have hin : last ∈ column ts (merged parseFloat series) := by rw [hcolumn]; simp
    obtain ⟨x, hx, -, hxcount⟩ := sample_of_column (b := last.1) (v := last.2) hin
    obtain ⟨y, hy, hyle, hycount⟩ := sample_of_column hbv
    have hlast : v ≤ last.2 := by
      rw [hcolumn] at hmono hbv
      rcases List.mem_append.mp hbv with hbv | hbv
      · exact (List.pairwise_append.mp hmono).2.2 _ hbv _ (List.mem_singleton_self _)
      · rw [← List.mem_singleton.mp hbv]
    rw [heq, hcolumn, List.map_append, List.map_singleton, List.getLastD_concat]
    refine le_antisymm ?_ ?_
    · rw [← hxcount]
      exact (hcum x hx).2 top htop (hone x hx top htop) (hmax x hx)
    · refine le_trans ?_ hlast
      rw [← hycount]
      refine (hcum top htop).2 y hy (hone top htop y hy) ?_
      rw [hyle, hb]
      exact Number.notAbove_refl _

end Conserved

/-- **Histogram heatmaps conserve counts.** Where every query result has a series, every bound
reads as a number, and the samples of a time are of one group, its cells take the cumulative
counts apart. -/
theorem heatmap_conserves (parseFloat : String → Number) (results : List QueryResult) (ts : ℚ)
    (hle : ∀ qr ∈ results, ∀ s ∈ qr.series, (label s.labels "le").isSome)
    (hfull : ∀ qr ∈ results, qr.series ≠ [])
    (hread : ∀ qr ∈ results, ∀ s ∈ qr.series, leNum parseFloat (leOf s) ≠ .nan)
    (hone : ∀ a ∈ samplesAt parseFloat ts (results.flatMap (·.series)),
      ∀ b ∈ samplesAt parseFloat ts (results.flatMap (·.series)), a.group = b.group)
    (hcum : Cumulative (samplesAt parseFloat ts (results.flatMap (·.series)))) :
    Conserves ((rangeToHeatmapPoints parseFloat results).filter fun p => p.x = ts)
      (samplesAt parseFloat ts (results.flatMap (·.series))) := by
  have hread' : ∀ s ∈ results.flatMap (·.series), leNum parseFloat (leOf s) ≠ .nan := by
    intro s hs
    obtain ⟨qr, hqr, hs⟩ := List.mem_flatMap.mp hs
    exact hread qr hqr s hs
  have hnonneg : ∀ e ∈ column ts (merged parseFloat (results.flatMap (·.series))), 0 ≤ e.2 := by
    intro e he
    obtain ⟨x, hx, -, hcount⟩ := sample_of_column (b := e.1) (v := e.2) he
    rw [← hcount]
    exact (hcum x hx).1
  have hmono := column_monotone hread' hone hcum
  rw [points_at hfull hle, cells_eq hnonneg]
  generalize hcolumn : column ts (merged parseFloat (results.flatMap (·.series))) = col at *
  have hlen : (increments 0 (col.map (·.2))).length = col.length := by
    rw [length_increments, List.length_map]
  refine ⟨increments 0 (col.map (·.2)), ?_, increments_nonneg, ?_, ?_⟩
  · rw [List.map_map]
    show (col.zip _).map (Number.finite ∘ Prod.snd) = _
    rw [← List.map_map, List.map_snd_zip hlen.le]
  · rw [List.map_map]
    show ((col.zip _).map ((fun e => e.1.le) ∘ Prod.fst)).Nodup
    rw [← List.map_map, List.map_fst_zip hlen.ge, ← hcolumn]
    have hsub := (@column_sublist ts
      (merged parseFloat (results.flatMap (·.series)))).map (·.le)
    rw [List.map_map] at hsub
    exact nodup_merged.sublist hsub
  · have hchain : (0 :: col.map (·.2)).IsChain (· ≤ ·) := by
      refine List.Pairwise.isChain (List.pairwise_cons.mpr ⟨fun v hv => ?_, ?_⟩)
      · obtain ⟨e, he, rfl⟩ := List.mem_map.mp hv
        exact hnonneg e he
      · exact List.pairwise_map.mpr hmono
    have hsum := sum_increments hchain
    rw [zero_add] at hsum
    rw [hsum, total_one hone, ← hcolumn]
    exact last_of_column hread' hone hcum

def latency (pod : String) (low high : ℚ) : List Series :=
  [⟨[("le", "0.5"), ("pod", pod)], [⟨0, .finite low⟩]⟩,
    ⟨[("le", "+Inf"), ("pod", pod)], [⟨0, .finite high⟩]⟩]

def parseHalf (s : String) : Number := if s = "0.5" then .finite (1 / 2) else .nan

def onePod : List QueryResult := [⟨latency "a" 2 5⟩]

def twoPods : List QueryResult := [⟨latency "a" 2 5 ++ latency "b" 4 6⟩]

theorem heatmap_conserves_latency :
    Conserves ((rangeToHeatmapPoints parseHalf onePod).filter fun p => p.x = 0)
      (samplesAt parseHalf 0 (onePod.flatMap (·.series))) :=
  heatmap_conserves parseHalf onePod 0 (by decide +kernel)
    (fun qr h => by rw [List.mem_singleton.mp h]; exact List.cons_ne_nil _ _) (by decide +kernel)
    (by decide +kernel) (by unfold Cumulative; decide +kernel)

/-- The buckets of a second pod take the place of the first pod's. -/
theorem pods_overwritten :
    ¬ ∀ (parseFloat : String → Number) (results : List QueryResult),
      (∀ qr ∈ results, ∀ s ∈ qr.series, (label s.labels "le").isSome) →
      ∀ ts, Cumulative (samplesAt parseFloat ts (results.flatMap (·.series))) →
        Conserves ((rangeToHeatmapPoints parseFloat results).filter fun p => p.x = ts)
          (samplesAt parseFloat ts (results.flatMap (·.series))) := by
  intro h
  obtain ⟨values, hvalues, -, -, hsum⟩ := h parseHalf twoPods
    (by decide +kernel) 0 (by unfold Cumulative; decide +kernel)
  have hcells : ((rangeToHeatmapPoints parseHalf twoPods).filter
      fun p => p.x = 0).map (·.value) = [4, 2].map Number.finite := by decide +kernel
  have htotal : total (samplesAt parseHalf 0 (twoPods.flatMap (·.series))) = 11 := by decide +kernel
  rw [hcells] at hvalues
  have heq : [4, 2] = values :=
    List.map_injective_iff.mpr (fun _ _ h => Number.finite.inj h) hvalues
  rw [htotal, ← heq] at hsum
  norm_num at hsum

end OpenObs.Web
