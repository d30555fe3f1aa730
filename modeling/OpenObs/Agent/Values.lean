import OpenObs.Rules.Routes

/-!
# Untyped arguments

A tool call carries JSON that the model wrote. Gate and handlers take it apart
with the same few expressions of the language: `String(v)`, `v ?? w`, property
access, `typeof` and `Array.isArray`.
-/

namespace OpenObs.Agent

open OpenObs.Foundation OpenObs.Rules

mutual

/-- `String(v)`. -/
def stringOf : Json → String
| .null => "null"
| .bool b => if b then "true" else "false"
| .num n => toString n
| .str s => s
| .arr xs => Text.join (elementStrings xs) ','
| .obj _ => "[object Object]"

/-- The elements of an array as `join` writes them: nothing for `null`. -/
def elementStrings : List Json → List String
| [] => []
| .null :: xs => "" :: elementStrings xs
| x :: xs => stringOf x :: elementStrings xs

end

/-- `String(args.key ?? dflt)`. -/
def stringOr (args : Json.Record) (key dflt : String) : String :=
  stringOf (orDefault (Json.field args key) (.str dflt))

/-- `v.key`; what is not an object has none of the keys the code asks for. -/
def member (v : Json) (key : String) : Option Json :=
  match v with
  | .obj r => Json.field r key
  | _ => none

def isNull : Json → Bool
  | .null => true
  | _ => false

def isString : Json → Bool
  | .str _ => true
  | _ => false

def isNumber : Json → Bool
  | .num _ => true
  | _ => false

def isBoolean : Json → Bool
  | .bool _ => true
  | _ => false

def isArray : Json → Bool
  | .arr _ => true
  | _ => false

/-- `isPlainObject`. -/
def isPlainObject : Json → Bool
  | .obj _ => true
  | _ => false

/-- `Array.isArray(v) ? v : []`. -/
def arrayOr : Option Json → List Json
  | some (.arr xs) => xs
  | _ => []

/-- `typeof v === 'string' ? v : undefined`. -/
def asText : Option Json → Option String
  | some (.str s) => some s
  | _ => none

/-- `typeof v === 'number' ? v : dflt`. -/
def numberOr (v : Option Json) (dflt : Int) : Int :=
  match v with
  | some (.num n) => n
  | _ => dflt

/-- What reading a property of `null` throws. -/
def nullAccess (key : String) : String :=
  "Cannot read properties of null (reading '" ++ key ++ "')"

/-- `xs` read element by element at a property; a `null` among them throws. -/
def readable (xs : List Json) (key : String) : Except String (List Json) :=
  if xs.any isNull then .error (nullAccess key) else .ok xs

/-- `(v) ? { key: v } : {}` for a value of the right type. -/
def keepField (v : Json) (key : String) (ok : Json → Bool) : Json.Record :=
  match member v key with
  | some x => if ok x then [(key, x)] else []
  | none => []

/-- `{ ...r, ...patch }`. -/
def assign (r patch : Json.Record) : Json.Record :=
  patch.foldl (fun r f => setField r f.1 f.2) r

theorem asText_eq_some {v : Option Json} {s : String} (h : asText v = some s) : v = some (.str s) := by
  unfold asText at h
  split at h
  · cases h
    rfl
  · cases h

theorem stringOr_of_str {args : Json.Record} {key dflt s : String}
    (h : Json.field args key = some (.str s)) : stringOr args key dflt = s := by
  rw [stringOr, h]
  rfl

/-! ## Assignments -/

section Assign

variable {r p p' : Json.Record} {k key : String} {v : Json}

theorem assign_append : assign r (p ++ [(k, v)]) = setField (assign r p) k v := by
  rw [assign, List.foldl_append]
  rfl

theorem field_setField (h : key ≠ k) : Json.field (setField r k v) key = Json.field r key := by
  have hmap : (r.map fun f => if f.1 = k then (k, v) else f).find? (fun f => f.1 = key) =
      r.find? fun f => f.1 = key := by
    induction r with
    | nil => rfl
    | cons f rest ih =>
      rw [List.map_cons, List.find?_cons, List.find?_cons, ih]
      by_cases hf : f.1 = k
      · rw [if_pos hf, decide_eq_false (Ne.symm h), decide_eq_false (by rw [hf]; exact Ne.symm h)]
      · rw [if_neg hf]
  unfold setField Json.field
  split
  · rw [hmap]
  · rw [List.find?_append]
    have hnone : [(k, v)].find? (fun f => decide (f.1 = key)) = none := by
      rw [List.find?_cons, decide_eq_false (Ne.symm h)]
      rfl
    rw [hnone, Option.or_none]

theorem field_setField_self : Json.field (setField r key v) key = some v := by
  unfold setField Json.field
  split
  · rename_i hany
    induction r with
    | nil => cases hany
    | cons f rest ih =>
      rw [List.map_cons, List.find?_cons]
      by_cases hf : f.1 = key
      · rw [if_pos hf, decide_eq_true rfl]
        rfl
      · rw [if_neg hf, decide_eq_false hf]
        refine ih ?_
        rw [List.any_cons, decide_eq_false hf, Bool.false_or] at hany
        exact hany
  · rename_i hany
    have hnone : r.find? (fun f => decide (f.1 = key)) = none := by
      rw [List.find?_eq_none]
      intro f hf heq
      exact hany (List.any_eq_true.mpr ⟨f, hf, heq⟩)
    rw [List.find?_append, hnone, Option.none_or, List.find?_cons, decide_eq_true rfl]
    rfl

theorem field_assign (h : key ∉ p.map Prod.fst) : Json.field (assign r p) key = Json.field r key := by
  induction p using List.reverseRecOn with
  | nil => rfl
  | append_singleton p f ih =>
    rw [List.map_append, List.mem_append, not_or] at h
    rw [assign_append, field_setField, ih h.1]
    intro heq
    exact h.2 (by rw [heq]; exact List.mem_singleton_self _)

def lastValue (p : Json.Record) (key : String) : Option Json :=
  (p.reverse.find? fun f => f.1 = key).map Prod.snd

theorem field_assign_last (h : lastValue p key = some v) :
    Json.field (assign r p) key = some v := by
  induction p using List.reverseRecOn with
  | nil => cases h
  | append_singleton p f ih =>
    obtain ⟨k, w⟩ := f
    unfold lastValue at h ih
    rw [List.reverse_append, List.reverse_singleton, List.singleton_append, List.find?_cons] at h
    rw [assign_append]
    by_cases hk : k = key
    · subst hk
      rw [decide_eq_true rfl] at h
      cases h
      exact field_setField_self
    · rw [decide_eq_false hk] at h
      rw [field_setField (Ne.symm hk)]
      exact ih h

def overwrite (p : Json.Record) (f : String × Json) : String × Json :=
  (f.1, (lastValue p f.1).getD f.2)

def fill (r : Json.Record) (keys : List String) : Json.Record :=
  keys.foldl (fun r key => if r.any (·.1 = key) then r else r ++ [(key, .null)]) r

theorem fill_append {keys : List String} : fill r (keys ++ [key]) =
    if (fill r keys).any (·.1 = key) then fill r keys else fill r keys ++ [(key, .null)] := by
  rw [fill, List.foldl_append]
  rfl

theorem any_fill (keys : List String) (h : key ∈ keys ∨ r.any (·.1 = key) = true) :
    (fill r keys).any (·.1 = key) = true := by
  induction keys using List.reverseRecOn with
  | nil => exact h.resolve_left List.not_mem_nil
  | append_singleton keys last ih =>
    rw [fill_append]
    split
    · rename_i hlast
      rw [List.mem_append, List.mem_singleton] at h
      rcases h with (h | rfl) | h
      · exact ih (Or.inl h)
      · exact hlast
      · exact ih (Or.inr h)
    · rw [List.any_append, Bool.or_eq_true]
      rw [List.mem_append, List.mem_singleton] at h
      rcases h with (h | rfl) | h
      · exact Or.inl (ih (Or.inl h))
      · exact Or.inr (by simp)
      · exact Or.inl (ih (Or.inr h))

theorem fill_eq_self (keys : List String) (h : ∀ key ∈ keys, r.any (·.1 = key) = true) :
    fill r keys = r := by
  induction keys using List.reverseRecOn with
  | nil => rfl
  | append_singleton keys last ih =>
    have hrest := ih fun key hkey => h key (List.mem_append_left _ hkey)
    rw [fill_append, hrest, if_pos (h last (List.mem_append_right _ (List.mem_singleton_self _)))]

theorem overwrite_append {f : String × Json} :
    overwrite (p ++ [(k, v)]) f = if f.1 = k then (k, v) else overwrite p f := by
  unfold overwrite lastValue
  rw [List.reverse_append, List.reverse_singleton, List.singleton_append, List.find?_cons]
  by_cases hf : f.1 = k
  · subst hf
    simp
  · rw [if_neg hf, decide_eq_false (Ne.symm hf)]

theorem assign_eq_map (r p : Json.Record) :
    assign r p = (fill r (p.map Prod.fst)).map (overwrite p) := by
  induction p using List.reverseRecOn with
  | nil =>
    show r = r.map (overwrite [])
    exact (List.map_id r).symm
  | append_singleton p f ih =>
    obtain ⟨k, v⟩ := f
    have hany : ((fill r (p.map Prod.fst)).map (overwrite p)).any (·.1 = k) =
        (fill r (p.map Prod.fst)).any (·.1 = k) := by
      rw [List.any_map]
      rfl
    rw [assign_append, ih, List.map_append, List.map_singleton, fill_append, setField, hany]
    split
    · rw [List.map_map]
      refine List.map_congr_left fun f _ => ?_
      rw [overwrite_append]
      rfl
    · rename_i hnot
      rw [List.map_append, List.map_singleton, overwrite_append, if_pos rfl]
      refine congrArg (· ++ _) (List.map_congr_left fun f hf => ?_)
      rw [overwrite_append, if_neg]
      rintro heq
      exact hnot (List.any_eq_true.mpr ⟨f, hf, decide_eq_true heq⟩)

theorem lastValue_eq_none (h : key ∉ p.map Prod.fst) : lastValue p key = none := by
  rw [lastValue, Option.map_eq_none_iff, List.find?_eq_none]
  intro f hf heq
  exact h (List.mem_map.mpr ⟨f, List.mem_reverse.mp hf, of_decide_eq_true heq⟩)

theorem lastValue_isSome (h : key ∈ p.map Prod.fst) : (lastValue p key).isSome = true := by
  obtain ⟨f, hf, rfl⟩ := List.mem_map.mp h
  rw [lastValue, Option.isSome_map, List.find?_isSome]
  exact ⟨f, List.mem_reverse.mpr hf, decide_eq_true rfl⟩

theorem assign_assign (h : p.map Prod.fst = p'.map Prod.fst) :
    assign (assign r p) p' = assign r p' := by
  have hfull : fill (assign r p) (p'.map Prod.fst) = assign r p := by
    refine fill_eq_self _ fun key hkey => ?_
    rw [assign_eq_map, List.any_map]
    exact any_fill _ (Or.inl (h ▸ hkey))
  rw [assign_eq_map (assign r p) p', hfull, assign_eq_map r p, assign_eq_map r p', ← h,
    List.map_map]
  refine List.map_congr_left fun f _ => ?_
  by_cases hmem : f.1 ∈ p'.map Prod.fst
  · obtain ⟨value, hvalue⟩ := Option.isSome_iff_exists.mp (lastValue_isSome hmem)
    simp [overwrite, hvalue]
  · simp [overwrite, lastValue_eq_none hmem, lastValue_eq_none (h ▸ hmem)]

end Assign

end OpenObs.Agent
