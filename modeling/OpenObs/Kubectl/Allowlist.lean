import OpenObs.Foundation.Text

/-!
# The kubectl allowlist

`kubectl-allowlist.ts`: what the policy reads out of a kubectl argv, and the
decision it takes on it for a connector that allows the given namespaces.
-/

namespace OpenObs.Kubectl

open OpenObs.Foundation

inductive KubectlMode : Type where
  | read | write
deriving DecidableEq

/-- `AllowlistDecision`: allowed, or refused with the reason shown to the
caller. -/
inductive AllowlistDecision : Type where
  | allow
  | deny (reason : String)
deriving DecidableEq

def READ_VERBS : List String :=
  ["get", "describe", "logs", "top", "events", "version", "api-resources",
    "api-versions"]

def WRITE_VERBS : List String :=
  ["scale", "rollout", "patch", "apply", "annotate", "label", "delete"]

def ROLLOUT_READ_SUBCOMMANDS : List String := ["status", "history"]

def ROLLOUT_WRITE_SUBCOMMANDS : List String := ["restart", "undo", "pause", "resume"]

def CONFIG_READ_SUBCOMMANDS : List String := ["current-context"]

def PERMANENT_DENY_VERBS : List String :=
  ["exec", "cp", "port-forward", "proxy", "attach"]

def PERMANENT_DENY_NAMESPACES : List String :=
  ["kube-system", "kube-public", "kube-node-lease"]

structure ParsedKubectl where
  verb : String
  «namespace» : Option String
  hasAuthCanIAs : Bool
  subResource : Option String
  resourceName : Option String
deriving DecidableEq

/-! ## Reading the argv -/

/-- The variables of the loop of `parseKubectlArgv`. -/
structure Scan where
  ns : Option String := none
  hasAs : Bool := false
  positional : List String := []
deriving DecidableEq

def scanArgv : List String → Scan → Scan
  | [], st => st
  | tok :: rest, st =>
    if tok = "-n" ∨ tok = "--namespace" then
      match rest with
      | [] => { st with ns := none }
      | v :: rest' => scanArgv rest' { st with ns := some v }
    else if Text.startsWith tok "--namespace=" then
      scanArgv rest { st with ns := some (Text.slice tok "--namespace=".length) }
    else if tok = "--as" ∨ Text.startsWith tok "--as=" then
      -- only the bare `--as` takes the next token as its value
      if tok = "--as" then
        match rest with
        | [] => { st with hasAs := true }
        | _ :: rest' => scanArgv rest' { st with hasAs := true }
      else scanArgv rest { st with hasAs := true }
    else if Text.startsWith tok "-" then
      scanArgv rest st
    else
      scanArgv rest { st with positional := st.positional ++ [tok] }

def parseKubectlArgv (argv : List String) : ParsedKubectl :=
  let st := scanArgv argv {}
  let verb := st.positional[0]?.getD ""
  let subResource := st.positional[1]?
  { verb := verb
    «namespace» := st.ns
    hasAuthCanIAs :=
      decide (verb = "auth") && decide (subResource = some "can-i") && st.hasAs
    subResource := subResource
    resourceName := st.positional[2]? }

/-! ## The decision -/

/-- A nullable string used as a condition: neither `null` nor empty. -/
def truthy (s : Option String) : Bool := decide (s ≠ none) && decide (s ≠ some "")

def isKubectlRead (parsed : ParsedKubectl) : Bool :=
  decide (parsed.verb ∈ READ_VERBS) ||
  (decide (parsed.verb = "rollout") && truthy parsed.subResource &&
    decide (parsed.subResource.getD "" ∈ ROLLOUT_READ_SUBCOMMANDS)) ||
  (decide (parsed.verb = "config") && truthy parsed.subResource &&
    decide (parsed.subResource.getD "" ∈ CONFIG_READ_SUBCOMMANDS))

def isKubectlWrite (parsed : ParsedKubectl) : Bool :=
  (decide (parsed.verb ∈ WRITE_VERBS) && decide (parsed.verb ≠ "rollout")) ||
  (decide (parsed.verb = "rollout") && truthy parsed.subResource &&
    decide (parsed.subResource.getD "" ∈ ROLLOUT_WRITE_SUBCOMMANDS))

def isSecretResource (resource : Option String) : Bool :=
  decide (resource = some "secret") || decide (resource = some "secrets")

def isSecretRead (parsed : ParsedKubectl) : Bool :=
  (decide (parsed.verb = "get") || decide (parsed.verb = "describe")) &&
    isSecretResource parsed.subResource

def isSecretDelete (parsed : ParsedKubectl) : Bool :=
  decide (parsed.verb = "delete") && isSecretResource parsed.subResource

/-- `[...verbs].sort().join(', ')`. -/
def verbList (verbs : List String) : String :=
  ", ".intercalate (Text.sort verbs)

/-- The namespace gate of a read: a named namespace has to be an allowed one,
and an empty allowlist gates nothing. -/
def outsideAllowed (ns : Option String) (allowedNamespaces : List String) : Bool :=
  match ns with
  | none => false
  | some v => decide (allowedNamespaces ≠ []) && decide (v ∉ allowedNamespaces)

def notAllowedReason (ns : Option String) : String :=
  let v := ns.getD "null"
  s!"namespace '{v}' is not in the connector's allowed namespaces"

def checkWriteGuards (parsed : ParsedKubectl) (allowedNamespaces : List String) :
    AllowlistDecision :=
  let verb := parsed.verb
  if parsed.verb = "delete" ∧
      (truthy parsed.subResource = false ∨ truthy parsed.resourceName = false) then
    .deny "kubectl delete requires both a resource type and an explicit resource name"
  else
    match parsed.namespace with
    | none =>
      .deny s!"kubectl {verb} requires --namespace; refusing to write at cluster scope"
    | some v =>
      if v ∈ PERMANENT_DENY_NAMESPACES then
        .deny s!"kubectl write to namespace '{v}' is permanently denied"
      else if outsideAllowed (some v) allowedNamespaces then
        .deny (notAllowedReason (some v))
      else .allow

def checkReadNamespace (parsed : ParsedKubectl) (allowedNamespaces : List String) :
    AllowlistDecision :=
  if outsideAllowed parsed.namespace allowedNamespaces then
    .deny (notAllowedReason parsed.namespace)
  else .allow

def checkKubectl (argv : List String) (mode : KubectlMode)
    (allowedNamespaces : List String) : AllowlistDecision :=
  if argv = [] then .deny "empty kubectl argv"
  else
    let parsed := parseKubectlArgv argv
    let verb := parsed.verb
    if parsed.verb = "" then .deny "kubectl argv has no verb"
    -- permanent denies win over any allowlist
    else if parsed.verb ∈ PERMANENT_DENY_VERBS then
      .deny s!"kubectl verb '{verb}' is permanently denied"
    else if parsed.hasAuthCanIAs then
      .deny "kubectl auth can-i --as is permanently denied"
    else if isSecretRead parsed then
      .deny "kubectl secret reads are denied because they can expose credentials"
    else if isSecretDelete parsed then .deny "kubectl secret delete is denied"
    else
      match mode with
      | .read =>
        if isKubectlRead parsed = false then
          let allowed := verbList READ_VERBS
          .deny s!"kubectl verb '{verb}' is not on the read-allowlist (allowed: {allowed})"
        else checkReadNamespace parsed allowedNamespaces
      | .write =>
        if isKubectlRead parsed = false ∧ isKubectlWrite parsed = false then
          let allowed := verbList (READ_VERBS ++ WRITE_VERBS)
          .deny s!"kubectl verb '{verb}' is not on the write-allowlist (allowed: {allowed})"
        else if isKubectlWrite parsed then checkWriteGuards parsed allowedNamespaces
        else checkReadNamespace parsed allowedNamespaces

end OpenObs.Kubectl
