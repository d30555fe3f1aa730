import Mathlib.Data.Nat.Notation
import Mathlib.Data.Option.Basic

/-!
# JSON values

`unknown` values read back from JSON columns. A record is the list of its
fields; `field` is property access, absent fields giving `none` (`undefined`).
-/

namespace OpenObs.Foundation

inductive Json : Type where
  | null
  | bool (b : Bool)
  | num (n : Int)
  | str (s : String)
  | arr (xs : List Json)
  | obj (fields : List (String × Json))

namespace Json

abbrev Record : Type := List (String × Json)

def field (r : Record) (name : String) : Option Json :=
  (r.find? fun f => f.1 = name).map Prod.snd

def asString : Json → Option String
  | .str s => some s
  | _ => none

def asStrings : Json → Option (List String)
  | .arr xs => xs.mapM asString
  | _ => none

theorem eq_of_asStrings {j : Json} {argv : List String} (h : j.asStrings = some argv) :
    j = .arr (argv.map .str) := by
  cases j with
  | arr xs =>
    simp only [asStrings] at h
    refine congrArg Json.arr ?_
    induction xs generalizing argv with
    | nil =>
      cases h
      rfl
    | cons x xs ih =>
      rw [List.mapM_cons] at h
      obtain ⟨s, hs, h⟩ := Option.bind_eq_some_iff.mp h
      obtain ⟨ss, hss, h⟩ := Option.bind_eq_some_iff.mp h
      cases h
      cases x with
      | str t =>
        cases hs
        rw [ih hss, List.map_cons]
      | _ => cases hs
  | _ => cases h

end Json

end OpenObs.Foundation

/-!
# Plain objects

An object literal that is read as a table. A name it does not hold itself is looked up in
`Object.prototype`, so that some names are never missing.
-/

namespace OpenObs.Foundation

/-- What is found in `Object.prototype`. -/
inductive Inherited : Type where
  /-- The function `Object`, under `constructor`. -/
  | object
  /-- The prototype, under `__proto__`. -/
  | self
  | method (name : String)
deriving DecidableEq, Repr

namespace Inherited

def methods : List String :=
  ["__defineGetter__", "__defineSetter__", "hasOwnProperty", "__lookupGetter__",
    "__lookupSetter__", "isPrototypeOf", "propertyIsEnumerable", "toString", "valueOf",
    "toLocaleString"]

def find (name : String) : Option Inherited :=
  if name = "constructor" then some .object
  else if name = "__proto__" then some .self
  else if name ∈ methods then some (.method name)
  else none

/-- The property `name`, which the prototype does not have. -/
def name : Inherited → Option String
  | .object => some "Object"
  | .self => none
  | .method name => some name

/-- `String(value)`. -/
def text : Inherited → String
  | .object => "function Object() \x7b [native code] \x7d"
  | .self => "[object Object]"
  | .method name => "function " ++ name ++ "() \x7b [native code] \x7d"

theorem text_ne_empty (i : Inherited) : i.text ≠ "" := by
  have hlong : ∀ s t u : String, s ≠ "" → s ++ t ++ u ≠ "" := by
    intro s t u hs h
    have hempty := congrArg String.toList h
    simp only [String.toList_append] at hempty
    exact hs (String.toList_inj.mp (List.append_eq_nil_iff.mp
      (List.append_eq_nil_iff.mp hempty).1).1)
  cases i with
  | object => decide
  | self => decide
  | method name => exact hlong _ _ _ (by decide)

end Inherited

inductive Property (α : Type) : Type where
  | own (value : α)
  | inherited (i : Inherited)

/-- `object[name]`; `none` is undefined. -/
def property {α : Type} (object : List (String × α)) (name : String) : Option (Property α) :=
  match object.lookup name with
  | some value => some (.own value)
  | none => (Inherited.find name).map .inherited

end OpenObs.Foundation
