import OpenObs.Foundation.Scan
import OpenObs.Kubectl.Confinement

/-!
# What a permitted delete deletes

The guard of the policy asks a delete for three positionals. It counts the values of flags it does
not know among them, and the flags that select objects are among these. This file compares the guard
with the command that runs.
-/

namespace OpenObs.Kubectl

open OpenObs.Foundation
open OpenObs.Foundation.Flags (Role Reading)

/-! ## The binary's reading of a delete -/

inductive Selection : Type where
  | label | field | all
deriving DecidableEq

def separateFlags : List (String × Selection) :=
  [("-l", .label), ("--selector", .label), ("--field-selector", .field)]

def attachedFlags : List (String × Selection) :=
  [("--selector=", .label), ("-l=", .label), ("-l", .label), ("--field-selector=", .field),
    ("--all=", .all)]

def spelled (tok : String) : Option (Selection × Option String) :=
  match separateFlags.lookup tok with
  | some by_ => some (by_, none)
  | none =>
    if tok = "--all" then some (.all, some "true")
    else attachedFlags.findSome? fun (flag, by_) =>
      if Text.startsWith tok flag then some (by_, some (Text.slice tok flag.length)) else none

def Binary.selectionRole (k : Binary) (by_ : Selection) (tok : String) : Role :=
  match spelled tok with
  | some (s, none) => if s = by_ then .sets else .takesNext
  | some (s, some v) => if s = by_ then .setsTo v else .inert
  | none => (k.kubectlRole tok).untracked

def Binary.deleteRole (k : Binary) (tok : String) : Role :=
  match spelled tok with
  | some (_, none) => .takesNext
  | some (_, some _) => .inert
  | none => (k.kubectlRole tok).untracked

def Binary.commandArgs (k : Binary) (argv : List String) : List String :=
  (Flags.read k.deleteRole argv).args

def Binary.selection (k : Binary) (argv : List String) (by_ : Selection) : Option String :=
  (Flags.read (k.selectionRole by_) argv).last

def trueSpellings : List String := ["1", "t", "T", "TRUE", "true", "True"]

def Binary.selects (k : Binary) (argv : List String) : Selection → Bool
  | .label => (k.selection argv .label).any fun v => !v.toList.all OpenObs.Foundation.Scan.isSpace
  | .field => (k.selection argv .field).any fun v => !v.toList.all OpenObs.Foundation.Scan.isSpace
  | .all => (k.selection argv .all).any (· ∈ trueSpellings)

/-- The name of a `type/name` pair. -/
def pairName (arg : String) : String := (Text.split arg '/').getD 1 ""

def namedResources : List String → List String
  | [] => []
  | arg :: rest => if '/' ∈ arg.toList then (arg :: rest).map pairName else rest

/-- The first resource argument is a `type/name` pair. -/
def Binary.StartsWithPair (k : Binary) (argv : List String) : Prop :=
  ∃ arg ∈ (k.commandArgs argv)[1]?, '/' ∈ arg.toList

def Binary.DeletesNamed (k : Binary) (argv : List String) : Prop :=
  namedResources ((k.commandArgs argv).drop 1) ≠ [] ∧ ∀ by_, k.selects argv by_ = false

/-! ## What the guard counts -/

def Binary.countedValues (k : Binary) (argv : List String) : ℕ :=
  Flags.extraArgs policyRole k.deleteRole argv

def Binary.uncountedArgs (k : Binary) (argv : List String) : ℕ :=
  Flags.extraArgs k.deleteRole policyRole argv

theorem Binary.commandArgs_length (k : Binary) (argv : List String) :
    (k.commandArgs argv).length + k.countedValues argv =
      (policyReading argv).args.length + k.uncountedArgs argv :=
  Flags.args_length_add_extraArgs k.deleteRole policyRole argv

theorem Binary.names_iff (k : Binary) (argv : List String) :
    namedResources ((k.commandArgs argv).drop 1) ≠ [] ↔
      k.StartsWithPair argv ∨ 3 ≤ (k.commandArgs argv).length := by
  unfold Binary.StartsWithPair
  cases k.commandArgs argv with
  | nil => simp [namedResources]
  | cons verb args =>
    cases args with
    | nil => simp [namedResources]
    | cons arg rest =>
      by_cases hpair : '/' ∈ arg.toList
      · simp [namedResources, hpair]
      · cases rest <;> simp [namedResources, hpair]

theorem three_positionals {argv allowed : List String}
    (hallow : checkKubectl argv .write allowed = .allow)
    (hverb : (parseKubectlArgv argv).verb = "delete") :
    3 ≤ (policyReading argv).args.length := by
  obtain ⟨-, -, hguard⟩ := checkKubectl_eq_allow.mp hallow
  have hwrite : isKubectlWrite (parseKubectlArgv argv) = true := by
    simp [isKubectlWrite, hverb, WRITE_VERBS]
  rw [if_pos hwrite, checkWriteGuards_eq_allow] at hguard
  have hname : truthy (parseKubectlArgv argv).resourceName ≠ false :=
    fun h => hguard.1 ⟨hverb, Or.inr h⟩
  have hpos : (parseKubectlArgv argv).resourceName = (policyReading argv).args[2]? := by
    simp [parseKubectlArgv, (scanArgv_eq_read argv {}).1]
  by_contra hlt
  rw [hpos, List.getElem?_eq_none (by omega)] at hname
  exact hname rfl

/-- **Deletes of what they name.** A delete that is permitted is no mass delete exactly when the
command sets none of the flags that select, which the policy does not look at, and names a pair or
has enough arguments: in the policy's delete, the values of flags that it counts are made up for by
the positionals after the third; in a delete whose verb the policy misses, nothing is asked for. -/
theorem permitted_delete_names_resource_iff (k : Binary) (argv allowed : List String)
    (hallow : checkKubectl argv .write allowed = .allow) :
    ((parseKubectlArgv argv).verb = "delete" →
      (k.DeletesNamed argv ↔ (∀ by_, k.selects argv by_ = false) ∧
        (k.StartsWithPair argv ∨
          k.countedValues argv ≤ ((policyReading argv).args.drop 3).length +
            k.uncountedArgs argv))) ∧
    ((k.commandArgs argv).head? = some "delete" → (parseKubectlArgv argv).verb ≠ "delete" →
      (k.DeletesNamed argv ↔ (∀ by_, k.selects argv by_ = false) ∧
        (k.StartsWithPair argv ∨
          3 + k.countedValues argv ≤ (policyReading argv).args.length +
            k.uncountedArgs argv))) := by
  have hlength := k.commandArgs_length argv
  constructor
  · intro hverb
    have hthree := three_positionals hallow hverb
    rw [Binary.DeletesNamed, Binary.names_iff, and_comm, List.length_drop]
    refine and_congr_right fun _ => or_congr_right ?_
    omega
  · intro _ _
    rw [Binary.DeletesNamed, Binary.names_iff, and_comm]
    refine and_congr_right fun _ => or_congr_right ?_
    omega

theorem permitted_delete_names_resource_sample :
    sampleBinary.DeletesNamed ["delete", "pod", "web-0", "-n", "app"] :=
  ((permitted_delete_names_resource_iff sampleBinary ["delete", "pod", "web-0", "-n", "app"]
    ["app"] (by decide)).1 (by decide)).mpr
    ⟨fun by_ => by cases by_ <;> decide, Or.inr (by decide)⟩

/-- `delete pod -l app=web` deletes whatever has the label: the policy takes the selector for the
name. -/
theorem permitted_delete_selects :
    ¬ ∀ (k : Binary) (argv allowed : List String),
      checkKubectl argv .write allowed = .allow →
      (parseKubectlArgv argv).verb = "delete" → k.DeletesNamed argv := by
  intro h
  have hnamed := h sampleBinary ["delete", "pod", "-l", "app=web", "-n", "app"] ["app"]
    (by decide) (by decide)
  exact absurd (hnamed.2 .label) (by decide)

end OpenObs.Kubectl
