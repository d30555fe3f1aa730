import OpenObs.Foundation.Flags
import OpenObs.Kubectl.Allowlist

/-!
# Two grammars of one argv

The policy of `Allowlist.lean` reads an argv by its own table of flags (`policyRole`); the kubectl
binary that is spawned with the same argv reads it by another (`kubectlRole`).
-/

namespace OpenObs.Kubectl

open OpenObs.Foundation
open OpenObs.Foundation.Flags (Role Reading)

/-! ## The policy's table -/

def policyRole (tok : String) : Role :=
  if tok = "-n" ∨ tok = "--namespace" then .sets
  else if Text.startsWith tok "--namespace=" then
    .setsTo (Text.slice tok "--namespace=".length)
  else if tok = "--as" then .takesNext
  else if Text.startsWith tok "-" then .inert
  else .arg

def policyReading (argv : List String) : Reading := Flags.read policyRole argv

theorem startsWith_dash_of_as {tok : String} (h : Text.startsWith tok "--as=" = true) :
    Text.startsWith tok "-" = true := by
  obtain ⟨v, rfl⟩ := Text.startsWith_iff.mp h
  refine Text.startsWith_iff.mpr ⟨"-as=" ++ v, ?_⟩
  rw [← String.append_assoc]
  rfl

theorem scanArgv_eq_read (argv : List String) (st : Scan) :
    (scanArgv argv st).positional = st.positional ++ (policyReading argv).args ∧
    (scanArgv argv st).ns = (policyReading argv).values.getLast?.getD st.ns := by
  unfold policyReading
  fun_induction scanArgv argv st with
  | case1 st => simp [Flags.read, Reading.empty]
  | case2 tok st h =>
    rw [Flags.read_sets_end (by simp [policyRole, h])]
    simp [Reading.empty]
  | case3 tok st h v rest' ih =>
    rw [Flags.read_sets (by simp [policyRole, h])]
    refine ⟨ih.1, ?_⟩
    rw [ih.2]
    simp [List.getLast?_cons]
  | case4 tok rest st h₀ h ih =>
    rw [Flags.read_setsTo (by simp only [policyRole, h₀, h, ite_true, ite_false]; rfl)]
    refine ⟨ih.1, ?_⟩
    rw [ih.2]
    simp [List.getLast?_cons]
  | case5 st h₀ h h' =>
    rw [Flags.read_takesNext_end (by simp [policyRole, h])]
    simp [Reading.empty]
  | case6 st v rest' h₀ h h' ih =>
    rw [Flags.read_takesNext (by simp [policyRole, h])]
    exact ih
  | case7 tok rest st h₀ h h' hne ih =>
    have hd := startsWith_dash_of_as (h'.resolve_left hne)
    rw [Flags.read_inert (by simp [policyRole, h₀, h, hne, hd])]
    exact ih
  | case8 tok rest st h₀ h h' hd ih =>
    have hne : tok ≠ "--as" := fun e => h' (Or.inl e)
    rw [Flags.read_inert (by simp [policyRole, h₀, h, hne, hd])]
    exact ih
  | case9 tok rest st h₀ h h' hd ih =>
    have hne : tok ≠ "--as" := fun e => h' (Or.inl e)
    rw [Flags.read_arg (by simp [policyRole, h₀, h, hne, hd])]
    refine ⟨?_, ih.2⟩
    rw [ih.1]
    simp

theorem parseKubectlArgv_verb (argv : List String) :
    (parseKubectlArgv argv).verb = (policyReading argv).args[0]?.getD "" := by
  simp [parseKubectlArgv, (scanArgv_eq_read argv {}).1]

theorem parseKubectlArgv_subResource (argv : List String) :
    (parseKubectlArgv argv).subResource = (policyReading argv).args[1]? := by
  simp [parseKubectlArgv, (scanArgv_eq_read argv {}).1]

theorem parseKubectlArgv_namespace (argv : List String) :
    (parseKubectlArgv argv).namespace = (policyReading argv).last := by
  simp only [parseKubectlArgv, (scanArgv_eq_read argv {}).2, Reading.last]
  cases (policyReading argv).values.getLast? <;> rfl

/-! ## The binary's table -/

/-- The kubectl binary with its kubeconfig: which flags (beside the namespace
flag) consume the next token, and the namespace of the current context. -/
structure Binary where
  takesValue : String → Bool
  contextNamespace : String

def Binary.kubectlRole (k : Binary) (tok : String) : Role :=
  if tok = "-n" ∨ tok = "--namespace" then .sets
  else if Text.startsWith tok "--namespace=" then
    .setsTo (Text.slice tok "--namespace=".length)
  else if Text.startsWith tok "-n=" then .setsTo (Text.slice tok "-n=".length)
  else if Text.startsWith tok "-n" then .setsTo (Text.slice tok "-n".length)
  else if tok = "--" then .stop
  else if tok ≠ "-" ∧ Text.startsWith tok "-" = true then
    if k.takesValue tok then .takesNext else .inert
  else .arg

def Binary.reading (k : Binary) (argv : List String) : Reading :=
  Flags.read k.kubectlRole argv

def Binary.actsIn (k : Binary) (argv : List String) : String :=
  (k.reading argv).last.getD k.contextNamespace

def Binary.verb (k : Binary) (argv : List String) : String :=
  (k.reading argv).args[0]?.getD ""

def Binary.resourceArgs (k : Binary) (argv : List String) : List String :=
  (k.reading argv).args.drop 1

/-- The type of a `type/name` pair. -/
def pairType (arg : String) : String := (Text.split arg '/').headD ""

/-- The resource types a list of resource arguments addresses: pairs when the
first one is a `type/name` pair, else the comma-separated types of the first
argument (the others are names). -/
def addressedTypes : List String → List String
  | [] => []
  | arg :: args =>
    if '/' ∈ arg.toList then (arg :: args).map pairType
    else Text.split arg ','

end OpenObs.Kubectl
