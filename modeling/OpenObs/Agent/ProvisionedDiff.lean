import OpenObs.Foundation.Text

/-!
# The diff of a provisioned resource

`agent/provisioned-diff.ts`: the change the agent could not make, as the lines of two JSON
texts. The texts are walked by one index, and a line is shown as removed or as added only where
the other text does not have it anywhere.
-/

namespace OpenObs.Agent.ProvisionedDiff

open OpenObs.Foundation

/-! ## The texts -/

/-- A value that `JSON.stringify` is given; a number is the text it writes for it. -/
inductive Value : Type where
  | undefined
  | null
  | bool (b : Bool)
  | num (text : String)
  | str (s : String)
  | arr (xs : List Value)
  | obj (fields : List (String × Value))

def hexDigit (n : ℕ) : Char := (['0', '1', '2', '3', '4', '5', '6', '7', '8', '9', 'a', 'b', 'c',
  'd', 'e', 'f'][n % 16]?).getD '0'

def quoteChar (c : Char) : List Char :=
  if c = '"' then ['\\', '"']
  else if c = '\\' then ['\\', '\\']
  else if c.toNat = 8 then ['\\', 'b']
  else if c.toNat = 9 then ['\\', 't']
  else if c.toNat = 10 then ['\\', 'n']
  else if c.toNat = 12 then ['\\', 'f']
  else if c.toNat = 13 then ['\\', 'r']
  else if c.toNat < 32 then ['\\', 'u', '0', '0', hexDigit (c.toNat / 16), hexDigit c.toNat]
  else [c]

def quote (s : String) : String := String.ofList ('"' :: (s.toList.flatMap quoteChar ++ ['"']))

def arrayIndex (key : String) : Option ℕ :=
  let digits := key.toList
  if digits ≠ [] ∧ digits.all Char.isDigit ∧ (digits.head? = some '0' → digits = ['0']) then
    (some (digits.foldl (fun n d => 10 * n + (d.toNat - 48)) 0)).filter (· < 4294967295)
  else none

/-- The keys of an object that was filled in sorted order: indices come first, by their values. -/
def keyOrder {α : Type} (fields : List (String × α)) : List (String × α) :=
  let sorted := fields.insertionSort fun a b =>
    Text.units a.1.toList ≤ Text.units b.1.toList
  ((sorted.filter fun f => (arrayIndex f.1).isSome).insertionSort fun a b =>
      (arrayIndex a.1).getD 0 ≤ (arrayIndex b.1).getD 0) ++
    sorted.filter fun f => arrayIndex f.1 = none ∧ f.1 ≠ "__proto__"

def bracketed (opening closing pad : String) (inner : List String) : String :=
  if inner = [] then opening ++ closing
  else opening ++ "\n" ++ ",\n".intercalate (inner.map ((pad ++ "  ") ++ ·)) ++ "\n" ++ pad ++
    closing

mutual

/-- `JSON.stringify(value, replacer, 2)` inside of `pad`. -/
def stringify (pad : String) : Value → Option String
  | .undefined => none
  | .null => some "null"
  | .bool b => some (toString b)
  | .num text => some text
  | .str s => some (quote s)
  | .arr xs => some (bracketed "[" "]" pad (stringifyAll (pad ++ "  ") xs))
  | .obj fields => some (bracketed "\x7b" "\x7d" pad
      ((keyOrder (stringifyFields (pad ++ "  ") fields)).map fun f => quote f.1 ++ ": " ++ f.2))

def stringifyAll (pad : String) : List Value → List String
  | [] => []
  | v :: vs => (stringify pad v).getD "null" :: stringifyAll pad vs

def stringifyFields (pad : String) : List (String × Value) → List (String × String)
  | [] => []
  | (key, v) :: rest =>
    match stringify pad v with
    | none => stringifyFields pad rest
    | some text => (key, text) :: stringifyFields pad rest

end

def stableStringify (fields : List (String × Value)) : String :=
  (stringify "" (.obj fields)).getD "undefined"

/-- `{ ...before, ...after }`. -/
def merge (before after : List (String × Value)) : List (String × Value) :=
  after.foldl (fun fields f =>
    if fields.any (·.1 = f.1) then fields.map fun g => if g.1 = f.1 then f else g
    else fields ++ [f]) before

/-! ## The diff -/

def diffAt (beforeLines afterLines : List String) (i : ℕ) : List String :=
  if beforeLines[i]? = afterLines[i]? then beforeLines[i]?.toList.map ("  " ++ ·)
  else
    (beforeLines[i]?.toList.filter (· ∉ afterLines)).map ("- " ++ ·) ++
      (afterLines[i]?.toList.filter (· ∉ beforeLines)).map ("+ " ++ ·)

def diffLines (beforeLines afterLines : List String) : List String :=
  (List.range (max beforeLines.length afterLines.length)).flatMap (diffAt beforeLines afterLines)

def lineDiff (beforeStr afterStr : String) : String :=
  Text.join (diffLines (Text.split beforeStr '\n') (Text.split afterStr '\n')) '\n'

structure Provenance where
  repo : Option String := none
  path : Option String := none
  commit : Option String := none

def diffBody (before after : List (String × Value)) : String :=
  lineDiff (stableStringify before) (stableStringify (merge before after))

def truthy (s : Option String) : Option String := s.filter (· ≠ "")

def target (provenance : Provenance) : String :=
  match truthy provenance.repo, truthy provenance.path with
  | some repo, some path => "`" ++ repo ++ "/" ++ path ++ "`" ++
      match truthy provenance.commit with
      | some commit => " (at `" ++ String.ofList (Text.firstUnits 7 commit.toList) ++ "`)"
      | none => ""
  | none, some path => "`" ++ path ++ "`"
  | _, none => "the source file"

def generateProvisionedDiff (before after : List (String × Value)) (provenance : Provenance) :
    String :=
  Text.join
    ["This resource is managed by git (`" ++ provenance.path.getD "provisioned file" ++
        "`). The agent could not apply the change directly. " ++
        "Here is the diff it would have applied:",
      "", "```diff", diffBody before after, "```", "",
      "**To apply:** commit this diff to " ++ target provenance ++
        " and re-run your GitOps sync. Alternatively, use `Fork to my workspace` to copy this " ++
        "resource into your personal folder where you can edit freely."] '\n'

/-! ## Reading the diff -/

/-- Without the lines that begin with `drop`, and without the markers. -/
def readWithout (drop : String) (shown : List String) : List String :=
  (shown.filter fun l => !Text.startsWith l drop).map (Text.slice · 2)

def readBefore (body : String) : List String := readWithout "+ " (Text.split body '\n')

def readAfter (body : String) : List String := readWithout "- " (Text.split body '\n')

def Applies (before after : List (String × Value)) : Prop :=
  readBefore (diffBody before after) = Text.split (stableStringify before) '\n' ∧
    readAfter (diffBody before after) = Text.split (stableStringify (merge before after)) '\n'

/-- A line that has another one, or none, at its place in the other text is not in it anywhere. -/
def Aligned (xs ys : List String) : Prop :=
  ∀ i : ℕ, xs[i]? ≠ ys[i]? → (∀ x, xs[i]? = some x → x ∉ ys) ∧ ∀ y, ys[i]? = some y → y ∉ xs

def kept (xs ys : List String) (i : ℕ) : List String :=
  if xs[i]? = ys[i]? then xs[i]?.toList else xs[i]?.toList.filter (· ∉ ys)

section Reading

variable {xs ys : List String} {i n : ℕ}

theorem readWithout_append (drop : String) (l m : List String) :
    readWithout drop (l ++ m) = readWithout drop l ++ readWithout drop m := by
  rw [readWithout, List.filter_append, List.map_append]
  rfl

theorem readWithout_flatMap {α : Type} (drop : String) (f : α → List String) : ∀ l : List α,
    readWithout drop (l.flatMap f) = l.flatMap fun a => readWithout drop (f a)
  | [] => rfl
  | a :: l => by
    rw [List.flatMap_cons, readWithout_append, readWithout_flatMap drop f l, List.flatMap_cons]

theorem readWithout_marked {drop marker : String} (h : ∀ l : String,
    Text.startsWith (marker ++ l) drop = false) (hlong : marker.toList.length = 2)
    (ls : List String) : readWithout drop (ls.map (marker ++ ·)) = ls := by
  have hslice : ∀ l : String, Text.slice (marker ++ l) 2 = l := by
    intro l
    rw [Text.slice, String.toList_append, ← hlong, List.drop_left, String.ofList_toList]
  rw [readWithout, List.filter_eq_self.mpr, List.map_map]
  · exact (List.map_congr_left fun l _ => hslice l).trans (List.map_id ls)
  · intro l hl
    obtain ⟨l', -, rfl⟩ := List.mem_map.mp hl
    rw [h, Bool.not_false]

theorem readWithout_dropped (drop : String) (ls : List String) :
    readWithout drop (ls.map (drop ++ ·)) = [] := by
  rw [readWithout, List.map_eq_nil_iff, List.filter_eq_nil_iff]
  intro l hl
  obtain ⟨l', -, rfl⟩ := List.mem_map.mp hl
  rw [Text.startsWith_append]
  decide

theorem startsWith_other {marker drop : String} {c d : Char} (h : c ≠ d)
    (hmarker : marker.toList.head? = some c) (hdrop : drop.toList.head? = some d) (l : String) :
    Text.startsWith (marker ++ l) drop = false := by
  obtain ⟨more, hmore⟩ := List.head?_eq_some_iff.mp hmarker
  obtain ⟨other, hother⟩ := List.head?_eq_some_iff.mp hdrop
  rw [Text.startsWith, String.toList_append, hmore, hother, List.cons_append,
    List.isPrefixOf_cons₂, beq_false_of_ne h.symm, Bool.false_and]

theorem readBefore_diffAt : readWithout "+ " (diffAt xs ys i) = kept xs ys i := by
  have hspace : ∀ l, Text.startsWith ("  " ++ l) "+ " = false :=
    startsWith_other (by decide) rfl rfl
  have hminus : ∀ l, Text.startsWith ("- " ++ l) "+ " = false :=
    startsWith_other (by decide) rfl rfl
  rw [diffAt, kept]
  split
  · exact readWithout_marked hspace rfl _
  · rw [readWithout_append, readWithout_marked hminus rfl, readWithout_dropped, List.append_nil]

theorem readAfter_diffAt : readWithout "- " (diffAt xs ys i) = kept ys xs i := by
  have hspace : ∀ l, Text.startsWith ("  " ++ l) "- " = false :=
    startsWith_other (by decide) rfl rfl
  have hplus : ∀ l, Text.startsWith ("+ " ++ l) "- " = false :=
    startsWith_other (by decide) rfl rfl
  rw [diffAt, kept]
  split
  · rename_i heq
    rw [if_pos heq.symm, ← heq]
    exact readWithout_marked hspace rfl _
  · rename_i hne
    rw [if_neg fun heq => hne heq.symm, readWithout_append, readWithout_dropped,
      readWithout_marked hplus rfl, List.nil_append]

theorem kept_sublist : List.Sublist (kept xs ys i) xs[i]?.toList := by
  rw [kept]
  split
  · exact List.Sublist.refl _
  · exact List.filter_sublist

theorem kept_eq_iff : kept xs ys i = xs[i]?.toList ↔
    (xs[i]? ≠ ys[i]? → ∀ x, xs[i]? = some x → x ∉ ys) := by
  rw [kept]
  split
  · rename_i heq
    exact ⟨fun _ hne => absurd heq hne, fun _ => rfl⟩
  · rename_i hne
    rw [List.filter_eq_self]
    simp only [Option.mem_toList, decide_eq_true_eq]
    exact ⟨fun h _ x hx => h x hx, fun h x hx => h hne x hx⟩

theorem kept_all (h : xs.length ≤ n) :
    (List.range n).flatMap (kept xs ys) = xs ↔
      ∀ i : ℕ, xs[i]? ≠ ys[i]? → ∀ x, xs[i]? = some x → x ∉ ys := by
  have hall := @Text.flatMap_eq_iff _ _ (List.range n) (kept xs ys) (fun i => xs[i]?.toList)
    fun _ _ => kept_sublist
  rw [Text.flatMap_range_getElem? h] at hall
  rw [hall]
  constructor
  · intro hkept i hne x hx
    have hlt := (List.getElem?_eq_some_iff.mp hx).1
    exact kept_eq_iff.mp (hkept i (List.mem_range.mpr (hlt.trans_le h))) hne x hx
  · exact fun haligned i _ => kept_eq_iff.mpr (haligned i)

theorem read_diffLines : (readWithout "+ " (diffLines xs ys) = xs ∧
    readWithout "- " (diffLines xs ys) = ys) ↔ Aligned xs ys := by
  have hbefore : readWithout "+ " (diffLines xs ys) =
      (List.range (max xs.length ys.length)).flatMap (kept xs ys) := by
    rw [diffLines, readWithout_flatMap]
    exact congrArg (List.flatMap · _) (funext fun _ => readBefore_diffAt)
  have hafter : readWithout "- " (diffLines xs ys) =
      (List.range (max xs.length ys.length)).flatMap (kept ys xs) := by
    rw [diffLines, readWithout_flatMap]
    exact congrArg (List.flatMap · _) (funext fun _ => readAfter_diffAt)
  rw [hbefore, hafter, kept_all (le_max_left _ _), kept_all (le_max_right _ _)]
  constructor
  · exact fun h i hne => ⟨h.1 i hne, h.2 i (Ne.symm hne)⟩
  · exact fun h => ⟨fun i hne => (h i hne).1, fun i hne => (h i (Ne.symm hne)).2⟩

theorem not_mem_diffLines {c : Char} (hc : c ≠ ' ' ∧ c ≠ '-' ∧ c ≠ '+')
    (hxs : ∀ l ∈ xs, c ∉ l.toList) (hys : ∀ l ∈ ys, c ∉ l.toList) :
    ∀ l ∈ diffLines xs ys, c ∉ l.toList := by
  have hline : ∀ (marker l : String), c ∉ marker.toList → c ∉ l.toList →
      c ∉ (marker ++ l).toList := by
    intro marker l hmarker hl
    rw [String.toList_append, List.mem_append, not_or]
    exact ⟨hmarker, hl⟩
  intro l hl
  obtain ⟨i, -, hl⟩ := List.mem_flatMap.mp hl
  rw [diffAt] at hl
  split at hl
  · obtain ⟨x, hx, rfl⟩ := List.mem_map.mp hl
    exact hline "  " x (by simp [hc]) (hxs x (List.mem_of_getElem? (Option.mem_toList.mp hx)))
  · rcases List.mem_append.mp hl with hl | hl
    · obtain ⟨x, hx, rfl⟩ := List.mem_map.mp hl
      exact hline "- " x (by simp [hc])
        (hxs x (List.mem_of_getElem? (Option.mem_toList.mp (List.mem_filter.mp hx).1)))
    · obtain ⟨y, hy, rfl⟩ := List.mem_map.mp hl
      exact hline "+ " y (by simp [hc])
        (hys y (List.mem_of_getElem? (Option.mem_toList.mp (List.mem_filter.mp hy).1)))

end Reading

/-- **A diff can be applied** just where the two texts are aligned. -/
theorem applies_iff (before after : List (String × Value)) :
    Applies before after ↔ Aligned (Text.split (stableStringify before) '\n')
      (Text.split (stableStringify (merge before after)) '\n') := by
  set xs := Text.split (stableStringify before) '\n' with hxs
  set ys := Text.split (stableStringify (merge before after)) '\n' with hys
  have hbody : diffBody before after = Text.join (diffLines xs ys) '\n' := rfl
  rw [Applies, readBefore, readAfter, hbody, ← hxs, ← hys, ← read_diffLines]
  by_cases hnil : diffLines xs ys = []
  · -- a diff without lines is the empty line, and two texts that are this line have a diff
    have hne : xs ≠ [] := Text.split_ne_nil _ _
    rw [hnil]
    constructor
    · rintro ⟨hbefore, hafter⟩
      have hsame : xs = ys := hbefore.symm.trans hafter
      rw [← hsame] at hnil
      have hread := (@read_diffLines xs xs).mpr fun i h => absurd rfl h
      rw [hnil] at hread
      exact absurd hread.1.symm hne
    · exact fun h => absurd h.1.symm hne
  · have hlines := @not_mem_diffLines xs ys '\n' (by decide)
      (fun l hl => Text.not_mem_of_mem_split hl) (fun l hl => Text.not_mem_of_mem_split hl)
    rw [Text.split_join hlines hnil]

/-- A key that comes first moves the others, which the diff then leaves out. -/
theorem inserted_key_lost : ¬ ∀ before after : List (String × Value), Applies before after := by
  intro h
  exact absurd (h [("b", .num "1")] [("a", .num "0")]).1 (by decide +kernel)

end OpenObs.Agent.ProvisionedDiff
