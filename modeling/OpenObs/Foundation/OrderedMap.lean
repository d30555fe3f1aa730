import Mathlib.Data.List.Nodup

/-!
# Maps in insertion order

A `Map` keeps its entries in the order in which their keys were first set. Setting a key
that is there replaces the value where it stands, and a key that is deleted and set again
comes last. A set is a map to `Unit`.
-/

namespace OpenObs.Foundation

structure OrderedMap (α β : Type) where
  entries : List (α × β) := []
  keys_nodup : (entries.map Prod.fst).Nodup := by simp

namespace OrderedMap

variable {α β : Type} [DecidableEq α]

def keys (m : OrderedMap α β) : List α := m.entries.map Prod.fst

def values (m : OrderedMap α β) : List β := m.entries.map Prod.snd

def get (m : OrderedMap α β) (k : α) : Option β := (m.entries.find? fun e => e.1 = k).map Prod.snd

def has (m : OrderedMap α β) (k : α) : Bool := (m.get k).isSome

def set (m : OrderedMap α β) (k : α) (v : β) : OrderedMap α β :=
  if h : k ∈ m.keys then {
    entries := m.entries.map fun e => if e.1 = k then (k, v) else e
    keys_nodup := by
      have hsame : (m.entries.map fun e => if e.1 = k then (k, v) else e).map Prod.fst =
          m.entries.map Prod.fst := by
        rw [List.map_map]
        refine List.map_congr_left fun e _ => ?_
        show (if e.1 = k then (k, v) else e).1 = e.1
        split
        · rename_i heq
          exact heq.symm
        · rfl
      rw [hsame]
      exact m.keys_nodup }
  else {
    entries := m.entries ++ [(k, v)]
    keys_nodup := by
      rw [List.map_append, List.nodup_append]
      refine ⟨m.keys_nodup, List.nodup_singleton _, ?_⟩
      rintro a ha a' ha' rfl
      rw [List.map_singleton, List.mem_singleton] at ha'
      subst ha'
      exact h ha }

def delete (m : OrderedMap α β) (k : α) : OrderedMap α β where
  entries := m.entries.filter fun e => e.1 ≠ k
  keys_nodup := m.keys_nodup.sublist (List.filter_sublist.map _)

section Lookup

variable {m : OrderedMap α β} {k k' : α} {v : β}

theorem get_eq_some_iff : m.get k = some v ↔ (k, v) ∈ m.entries := by
  constructor
  · intro h
    obtain ⟨e, he, rfl⟩ := Option.map_eq_some_iff.mp h
    have hkey : e.1 = k := by simpa using List.find?_some he
    subst hkey
    exact List.mem_of_find?_eq_some he
  · intro hmem
    cases hfind : m.entries.find? fun e => e.1 = k with
    | none =>
      have hnot := List.find?_eq_none.mp hfind _ hmem
      simp at hnot
    | some e =>
      have hkey : e.1 = k := by simpa using List.find?_some hfind
      have hsame := List.inj_on_of_nodup_map m.keys_nodup (List.mem_of_find?_eq_some hfind) hmem
        hkey
      rw [get, hfind, hsame]
      rfl

theorem get_eq_none_iff : m.get k = none ↔ k ∉ m.keys := by
  constructor
  · intro hnone hmem
    obtain ⟨⟨a, v⟩, he, rfl⟩ := List.mem_map.mp hmem
    rw [get_eq_some_iff.mpr he] at hnone
    cases hnone
  · intro hnot
    cases hget : m.get k with
    | none => rfl
    | some v => exact absurd (List.mem_map_of_mem (get_eq_some_iff.mp hget)) hnot

theorem has_iff : m.has k = true ↔ k ∈ m.keys := by
  rw [has, Option.isSome_iff_ne_none, Ne, get_eq_none_iff, not_not]

@[simp] theorem get_empty : ({} : OrderedMap α β).get k = none := rfl

theorem get_set : (m.set k v).get k' = if k' = k then some v else m.get k' := by
  unfold set
  split
  · rename_i hk
    obtain ⟨⟨a, w⟩, he, rfl⟩ := List.mem_map.mp hk
    split
    · rename_i heq
      subst heq
      refine get_eq_some_iff.mpr (List.mem_map.mpr ⟨_, he, ?_⟩)
      simp
    · rename_i hne
      refine Option.ext fun v' => ?_
      rw [get_eq_some_iff, get_eq_some_iff, List.mem_map]
      constructor
      · rintro ⟨e, he, heq⟩
        split at heq
        · cases heq
          exact absurd rfl hne
        · exact heq ▸ he
      · intro he
        exact ⟨_, he, if_neg hne⟩
  · rename_i hk
    split
    · rename_i heq
      subst heq
      exact get_eq_some_iff.mpr (List.mem_append_right _ (List.mem_singleton_self _))
    · rename_i hne
      refine Option.ext fun v' => ?_
      rw [get_eq_some_iff, get_eq_some_iff, List.mem_append, List.mem_singleton]
      refine ⟨fun h => h.resolve_right ?_, Or.inl⟩
      rintro ⟨⟩
      exact hne rfl

theorem get_delete : (m.delete k).get k' = if k' = k then none else m.get k' := by
  split
  · rename_i heq
    subst heq
    rw [get_eq_none_iff]
    rintro hmem
    obtain ⟨e, he, heq⟩ := List.mem_map.mp hmem
    have hne := (List.mem_filter.mp he).2
    simp [heq] at hne
  · rename_i hne
    refine Option.ext fun v' => ?_
    rw [get_eq_some_iff, get_eq_some_iff]
    show (k', v') ∈ m.entries.filter _ ↔ _
    rw [List.mem_filter]
    simp [hne]

theorem entries_set_new (h : k ∉ m.keys) : (m.set k v).entries = m.entries ++ [(k, v)] := by
  rw [set, dif_neg h]

theorem entries_set_old (h : k ∈ m.keys) :
    (m.set k v).entries = m.entries.map fun e => if e.1 = k then (k, v) else e := by
  rw [set, dif_pos h]

theorem keys_set : (m.set k v).keys = if k ∈ m.keys then m.keys else m.keys ++ [k] := by
  split
  · rename_i h
    rw [keys, entries_set_old h, List.map_map]
    refine List.map_congr_left fun e _ => ?_
    show (if e.1 = k then (k, v) else e).1 = e.1
    split
    · rename_i heq
      exact heq.symm
    · rfl
  · rename_i h
    rw [keys, entries_set_new h, List.map_append]
    rfl

theorem keys_delete : (m.delete k).keys = m.keys.filter (· ≠ k) := by
  rw [keys, keys, List.filter_map]
  rfl

end Lookup

/-! ## Values and several entries at once -/

section Spread

variable {γ : Type} {m o : OrderedMap α β} {k : α} {v : β} {f : β → γ}

theorem ext_entries (h : m.entries = o.entries) : m = o := by
  cases m
  cases o
  cases h
  rfl

def mapValues (m : OrderedMap α β) (f : β → γ) : OrderedMap α γ where
  entries := m.entries.map fun e => (e.1, f e.2)
  keys_nodup := by
    rw [List.map_map]
    exact m.keys_nodup

/-- `{ ...m, ...o }`. -/
def spread (m o : OrderedMap α β) : OrderedMap α β := o.entries.foldl (fun m e => m.set e.1 e.2) m

@[simp] theorem entries_mapValues :
    (m.mapValues f).entries = m.entries.map fun e => (e.1, f e.2) := rfl

theorem keys_mapValues : (m.mapValues f).keys = m.keys := by
  rw [keys, entries_mapValues, List.map_map]
  rfl

theorem mapValues_set : (m.set k v).mapValues f = (m.mapValues f).set k (f v) := by
  refine ext_entries ?_
  by_cases h : k ∈ m.keys
  · have hmap : k ∈ (m.mapValues f).keys := by
      rw [keys_mapValues]
      exact h
    rw [entries_mapValues, entries_set_old h, entries_set_old hmap, entries_mapValues,
      List.map_map, List.map_map]
    refine List.map_congr_left fun e _ => ?_
    by_cases he : e.1 = k <;> simp [he]
  · have hmap : k ∉ (m.mapValues f).keys := by
      rw [keys_mapValues]
      exact h
    rw [entries_mapValues, entries_set_new h, entries_set_new hmap]
    simp

theorem mapValues_spread : (m.spread o).mapValues f = (m.mapValues f).spread (o.mapValues f) := by
  unfold spread
  show _ = (o.entries.map fun e => (e.1, f e.2)).foldl (fun m e => m.set e.1 e.2) (m.mapValues f)
  generalize o.entries = l
  induction l generalizing m with
  | nil => rfl
  | cons e l ih => rw [List.map_cons, List.foldl_cons, List.foldl_cons, ih, mapValues_set]

theorem get_foldl_set {l : List (α × β)} (h : (l.map Prod.fst).Nodup) :
    (l.foldl (fun m e => m.set e.1 e.2) m).get k =
      ((l.find? fun e => e.1 = k).map Prod.snd).or (m.get k) := by
  induction l generalizing m with
  | nil => rfl
  | cons e l ih =>
    obtain ⟨hnew, hl⟩ := List.nodup_cons.mp h
    rw [List.foldl_cons, ih hl, get_set]
    by_cases he : e.1 = k
    · have hnone : (l.find? fun e => e.1 = k) = none := by
        refine List.find?_eq_none.mpr fun e' he' heq => hnew ?_
        have hkey : e'.1 = e.1 := (of_decide_eq_true heq).trans he.symm
        exact hkey ▸ List.mem_map_of_mem he'
      rw [hnone, if_pos he.symm, List.find?_cons_of_pos (by simpa using he)]
      rfl
    · rw [if_neg (Ne.symm he), List.find?_cons_of_neg (by simpa using he)]

theorem get_spread : (m.spread o).get k = (o.get k).or (m.get k) := get_foldl_set o.keys_nodup

/-- What holds of the entries of both maps holds of those of the whole; an entry that is replaced
need not have it. -/
theorem forall_spread {P : α → β → Prop} (ho : ∀ e ∈ o.entries, P e.1 e.2)
    (hm : ∀ k v, o.get k = none → m.get k = some v → P k v) :
    ∀ e ∈ (m.spread o).entries, P e.1 e.2 := by
  intro e he
  have hget := get_eq_some_iff.mpr he
  rw [get_spread] at hget
  cases hfirst : o.get e.1 with
  | none =>
    rw [hfirst] at hget
    exact hm e.1 e.2 hfirst hget
  | some v =>
    rw [hfirst] at hget
    cases hget
    exact ho e (get_eq_some_iff.mp hfirst)

theorem entries_foldl_set {l : List (α × β)} (h : (l.map Prod.fst).Nodup)
    (hnew : ∀ e ∈ l, e.1 ∉ m.keys) :
    (l.foldl (fun m e => m.set e.1 e.2) m).entries = m.entries ++ l := by
  induction l generalizing m with
  | nil => simp
  | cons e l ih =>
    obtain ⟨hfirst, hl⟩ := List.nodup_cons.mp h
    have he := hnew e List.mem_cons_self
    rw [List.foldl_cons, ih hl, entries_set_new he, List.append_assoc]
    · rfl
    · intro e' he'
      rw [keys_set, if_neg he, List.mem_append, List.mem_singleton]
      rintro (hold | heq)
      · exact hnew e' (List.mem_cons_of_mem e he') hold
      · exact hfirst (heq ▸ List.mem_map_of_mem he')

theorem spread_empty : ({} : OrderedMap α β).spread o = o :=
  ext_entries (entries_foldl_set o.keys_nodup fun _ _ => List.not_mem_nil)

end Spread

end OrderedMap

end OpenObs.Foundation
