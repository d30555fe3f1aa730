import Mathlib.Data.Rat.Floor
import Mathlib.Data.List.Chain

/-!
# Dates

An instant is a whole number of milliseconds. Durations are numbers of any kind, so a
date computed from one is clipped.
-/

namespace OpenObs.Foundation

/-- `new Date(ms)`: whole milliseconds, cut towards zero. -/
def timeClip (ms : ℚ) : ℤ := if 0 ≤ ms then ⌊ms⌋ else ⌈ms⌉

theorem timeClip_mono {a b : ℚ} (h : a ≤ b) : timeClip a ≤ timeClip b := by
  unfold timeClip
  split <;> split
  · exact Int.floor_le_floor h
  · rename_i ha hb
    exact absurd (ha.trans h) hb
  · rename_i ha hb
    have hneg : ⌈a⌉ ≤ 0 := Int.ceil_le.mpr (by push_cast; linarith)
    exact hneg.trans (Int.floor_nonneg.mpr hb)
  · exact Int.ceil_le_ceil h

theorem le_timeClip {n : ℤ} {ms : ℚ} (h : (n : ℚ) ≤ ms) : n ≤ timeClip ms := by
  unfold timeClip
  split
  · exact Int.le_floor.mpr h
  · exact_mod_cast h.trans (Int.le_ceil ms)

end OpenObs.Foundation

/-!
# Sliding windows

A list of instants seen through the window of length `w` that ends at `t`. As `t`
grows an instant leaves the window and never comes back, so what was outside an
earlier window need not be kept.
-/

namespace OpenObs.Foundation

section Window

variable {α : Type} [AddCommGroup α] [LinearOrder α] {w t t' : α} {l l' : List α}

/-- The instants of `l` after `t - w`, in their order. -/
def inWindow (w t : α) (l : List α) : List α := l.filter (fun a => t - w < a)

@[simp] theorem mem_inWindow {a : α} : a ∈ inWindow w t l ↔ a ∈ l ∧ t - w < a := by
  simp [inWindow]

@[simp] theorem inWindow_nil : inWindow w t ([] : List α) = [] := rfl

@[simp] theorem inWindow_append : inWindow w t (l ++ l') = inWindow w t l ++ inWindow w t l' :=
  List.filter_append l l'

theorem inWindow_eq_nil (h : ∀ a ∈ l, a ≤ t - w) : inWindow w t l = [] := by
  apply List.filter_eq_nil_iff.mpr
  intro a ha
  simpa using h a ha

variable [IsOrderedAddMonoid α]

theorem inWindow_inWindow (h : t ≤ t') : inWindow w t' (inWindow w t l) = inWindow w t' l := by
  unfold inWindow
  rw [List.filter_filter]
  apply List.filter_congr
  intro a _
  have hle : t - w ≤ t' - w := sub_le_sub_right h w
  by_cases ha : t' - w < a
  · simp [ha, lt_of_le_of_lt hle ha]
  · simp [ha]

theorem inWindow_eq_of_le (h : t ≤ t') (heq : inWindow w t l = inWindow w t l') :
    inWindow w t' l = inWindow w t' l' := by
  rw [← inWindow_inWindow h, heq, inWindow_inWindow h]

theorem inWindow_eq_of_lt (h : t ≤ t') (hl : ∀ a ∈ inWindow w t l, t' - w < a) :
    inWindow w t' l = inWindow w t l := by
  rw [← inWindow_inWindow h]
  apply List.filter_eq_self.mpr
  intro a ha
  simpa using hl a ha

theorem length_inWindow_le (h : t ≤ t') :
    (inWindow w t' l).length ≤ (inWindow w t l).length := by
  rw [← inWindow_inWindow h]
  exact List.length_filter_le _ _

theorem length_inWindow_lt (h : t ≤ t') {a : α} (ha : a ∈ inWindow w t l) (hout : a ≤ t' - w) :
    (inWindow w t' l).length < (inWindow w t l).length := by
  rw [← inWindow_inWindow h]
  apply List.length_filter_lt_length_iff_exists.mpr
  exact ⟨a, ha, by simpa using hout⟩

end Window

end OpenObs.Foundation

/-!
# Timelines

A list of samples in the order of their times, and the maximal stretches of one status that it
is made of: each begins where the one before ends, and no two in a row are alike.
-/

namespace OpenObs.Foundation

structure Segment (τ σ : Type) where
  start : τ
  stop : τ
  status : σ

namespace Timeline

variable {τ σ : Type} [LinearOrder τ] [DecidableEq σ]

/-- The stretch that goes from `start` to `last` so far, and those of the samples behind it. -/
def segments (start : τ) (status : σ) (last : τ) : List (τ × σ) → List (Segment τ σ)
  | [] => [⟨start, last, status⟩]
  | (t, s) :: rest =>
    if s = status then segments start status t rest
    else ⟨start, t, status⟩ :: segments t s t rest

def Covers (segs : List (Segment τ σ)) (p : τ × σ) : Prop :=
  ∃ seg ∈ segs, seg.status = p.2 ∧ seg.start ≤ p.1 ∧
    (p.1 < seg.stop ∨ p.1 = seg.stop ∧ segs.getLast? = some seg)

structure Encodes (points : List (τ × σ)) (segs : List (Segment τ σ)) : Prop where
  chain : segs.IsChain fun a b => a.stop = b.start ∧ a.status ≠ b.status
  start : segs.head?.map (·.start) = points.head?.map (·.1)
  stop : segs.getLast?.map (·.stop) = points.getLast?.map (·.1)
  samples : ∀ p ∈ points, Covers segs p

section Segments

variable {start last : τ} {status : σ} {rest : List (τ × σ)}

theorem segments_head (start : τ) (status : σ) : ∀ {rest : List (τ × σ)} {last : τ},
    (∀ p ∈ rest, last < p.1) → rest.Pairwise (·.1 < ·.1) →
    ∃ stop more, segments start status last rest = ⟨start, stop, status⟩ :: more ∧
      (last < stop ∨ last = stop ∧ more = [])
  | [], last, _, _ => ⟨last, [], rfl, Or.inr ⟨rfl, rfl⟩⟩
  | (t, s) :: rest, last, hlast, hsorted => by
    have ht : last < t := hlast (t, s) List.mem_cons_self
    rw [segments]
    split
    · obtain ⟨stop, more, heq, hstop⟩ := segments_head start status
        (fun _ => List.rel_of_pairwise_cons hsorted) hsorted.of_cons
      refine ⟨stop, more, heq, Or.inl ?_⟩
      rcases hstop with hlt | ⟨rfl, -⟩
      · exact ht.trans hlt
      · exact ht
    · exact ⟨t, _, rfl, Or.inl ht⟩

theorem covers_last (hstart : start ≤ last) (hlast : ∀ p ∈ rest, last < p.1)
    (hsorted : rest.Pairwise (·.1 < ·.1)) :
    Covers (segments start status last rest) (last, status) := by
  obtain ⟨stop, more, heq, hstop⟩ := segments_head start status hlast hsorted
  rw [heq]
  refine ⟨_, List.mem_cons_self, rfl, hstart, hstop.imp id ?_⟩
  rintro ⟨rfl, rfl⟩
  exact ⟨rfl, rfl⟩

omit [DecidableEq σ] in
theorem Covers.cons {segs : List (Segment τ σ)} {p : τ × σ} (seg : Segment τ σ)
    (h : Covers segs p) : Covers (seg :: segs) p := by
  obtain ⟨found, hmem, hstatus, hstart, hstop⟩ := h
  refine ⟨found, List.mem_cons_of_mem seg hmem, hstatus, hstart, hstop.imp id ?_⟩
  rintro ⟨hend, hlast⟩
  exact ⟨hend, by rw [List.getLast?_cons, hlast]; rfl⟩

theorem segments_cover : ∀ {rest : List (τ × σ)} {start last : τ} {status : σ}, start ≤ last →
    (∀ p ∈ rest, last < p.1) → rest.Pairwise (·.1 < ·.1) →
    ∀ p ∈ rest, Covers (segments start status last rest) p
  | (t, s) :: rest, start, last, status, hstart, hlast, hsorted, p, hp => by
    have ht : last < t := hlast (t, s) List.mem_cons_self
    have hrest : ∀ q ∈ rest, t < q.1 := fun _ => List.rel_of_pairwise_cons hsorted
    rw [segments]
    rcases List.mem_cons.mp hp with rfl | hp
    · split
      · rename_i hsame
        rw [← hsame]
        exact covers_last (hstart.trans ht.le) hrest hsorted.of_cons
      · exact (covers_last le_rfl hrest hsorted.of_cons).cons _
    · split
      · exact segments_cover (hstart.trans ht.le) hrest hsorted.of_cons p hp
      · exact (segments_cover le_rfl hrest hsorted.of_cons p hp).cons _

theorem segments_chain : ∀ {rest : List (τ × σ)} (start : τ) {last : τ} (status : σ),
    (∀ p ∈ rest, last < p.1) → rest.Pairwise (·.1 < ·.1) →
    (segments start status last rest).IsChain fun a b => a.stop = b.start ∧ a.status ≠ b.status
  | [], _, _, _, _, _ => List.isChain_singleton _
  | (t, s) :: rest, start, last, status, hlast, hsorted => by
    have hrest : ∀ q ∈ rest, t < q.1 := fun _ => List.rel_of_pairwise_cons hsorted
    rw [segments]
    split
    · exact segments_chain start status hrest hsorted.of_cons
    · rename_i hne
      have hchain := segments_chain t s hrest hsorted.of_cons
      obtain ⟨stop, more, heq, -⟩ := segments_head t s hrest
        hsorted.of_cons
      rw [heq] at hchain ⊢
      exact List.isChain_cons_cons.mpr ⟨⟨rfl, fun h => hne h.symm⟩, hchain⟩

omit [LinearOrder τ] in
theorem segments_stop : ∀ (rest : List (τ × σ)) (start last : τ) (status : σ),
    (segments start status last rest).getLast?.map (·.stop) =
      some ((rest.getLast?.map (·.1)).getD last)
  | [], _, _, _ => rfl
  | (t, s) :: rest, start, last, status => by
    have hlast : ((((t, s) :: rest).getLast?.map (·.1)).getD last) =
        (rest.getLast?.map (·.1)).getD t := by
      rw [List.getLast?_cons]
      cases rest.getLast? <;> rfl
    rw [segments, hlast]
    split
    · exact segments_stop rest start t status
    · have htail := segments_stop rest t t s
      obtain ⟨seg, hseg, hstop⟩ := Option.map_eq_some_iff.mp htail
      rw [List.getLast?_cons, hseg]
      exact congrArg some hstop

end Segments

def encode : List (τ × σ) → List (Segment τ σ)
  | [] => []
  | (t, s) :: rest => segments t s t rest

/-- **The stretches encode the samples**, where the times increase. -/
theorem encodes_encode {points : List (τ × σ)} (h : points.Pairwise (·.1 < ·.1)) :
    Encodes points (encode points) := by
  cases points with
  | nil => exact ⟨List.isChain_nil, rfl, rfl, nofun⟩
  | cons p rest =>
    obtain ⟨t, s⟩ := p
    have hrest : ∀ q ∈ rest, t < q.1 := fun _ => List.rel_of_pairwise_cons h
    refine ⟨segments_chain t s hrest h.of_cons, ?_, ?_, fun p hp => ?_⟩
    · obtain ⟨stop, more, heq, -⟩ := segments_head t s hrest h.of_cons
      rw [encode, heq]
      rfl
    · rw [encode, segments_stop, List.getLast?_cons]
      cases rest.getLast? <;> rfl
    · rcases List.mem_cons.mp hp with rfl | hp
      · exact covers_last le_rfl hrest h.of_cons
      · exact segments_cover le_rfl hrest h.of_cons p hp

end Timeline

end OpenObs.Foundation
