import OpenObs.Kubectl.Grammar

/-!
# What the allowlist confines

The allowlist decides on the policy's reading of an argv; the command that runs
is the binary's reading of it. This file says exactly when the guarantee the
decision is meant to give carries over: the namespace of a write, and the
secrecy of secrets.
-/

namespace OpenObs.Kubectl

open OpenObs.Foundation

/-! ## What an allowed argv has passed -/

structure PassesDenies (argv : List String) : Prop where
  nonempty : argv ≠ []
  verb : (parseKubectlArgv argv).verb ≠ ""
  verbAllowed : (parseKubectlArgv argv).verb ∉ PERMANENT_DENY_VERBS
  notAuthCanIAs : (parseKubectlArgv argv).hasAuthCanIAs = false
  notSecretRead : isSecretRead (parseKubectlArgv argv) = false
  notSecretDelete : isSecretDelete (parseKubectlArgv argv) = false

def passesWrite (argv : List String) (allowed : List String) : Prop :=
  (isKubectlRead (parseKubectlArgv argv) = true ∨
    isKubectlWrite (parseKubectlArgv argv) = true) ∧
  (if isKubectlWrite (parseKubectlArgv argv) = true then
    checkWriteGuards (parseKubectlArgv argv) allowed
  else checkReadNamespace (parseKubectlArgv argv) allowed) = .allow

def passesRead (argv : List String) (allowed : List String) : Prop :=
  isKubectlRead (parseKubectlArgv argv) = true ∧
  checkReadNamespace (parseKubectlArgv argv) allowed = .allow

/-- **Inversion of `checkKubectl`.** -/
theorem checkKubectl_eq_allow {argv : List String} {mode : KubectlMode}
    {allowed : List String} :
    checkKubectl argv mode allowed = .allow ↔
      PassesDenies argv ∧
      match mode with
      | .read => passesRead argv allowed
      | .write => passesWrite argv allowed := by
  constructor
  · intro h
    unfold checkKubectl at h
    split at h
    · cases h
    rename_i h₀
    dsimp only at h
    split at h
    · cases h
    rename_i h₁
    split at h
    · cases h
    rename_i h₂
    split at h
    · cases h
    rename_i h₃
    split at h
    · cases h
    rename_i h₄
    split at h
    · cases h
    rename_i h₅
    refine ⟨⟨h₀, h₁, h₂, by simpa using h₃, by simpa using h₄, by simpa using h₅⟩, ?_⟩
    cases mode with
    | read =>
      simp only at h ⊢
      split at h
      · cases h
      rename_i h₆
      exact ⟨by simpa using h₆, h⟩
    | write =>
      simp only at h ⊢
      split at h
      · cases h
      rename_i h₆
      refine ⟨?_, h⟩
      cases hr : isKubectlRead (parseKubectlArgv argv) with
      | true => exact Or.inl rfl
      | false =>
        cases hw : isKubectlWrite (parseKubectlArgv argv) with
        | true => exact Or.inr rfl
        | false => exact absurd ⟨hr, hw⟩ h₆
  · rintro ⟨⟨h₀, h₁, h₂, h₃, h₄, h₅⟩, hm⟩
    unfold checkKubectl
    simp only [h₀, h₁, h₂, h₃, h₄, h₅, if_false, Bool.false_eq_true]
    cases mode with
    | read => simp [hm.1, hm.2]
    | write =>
      obtain ⟨hrw, hguard⟩ := hm
      have hne : ¬ (isKubectlRead (parseKubectlArgv argv) = false ∧
          isKubectlWrite (parseKubectlArgv argv) = false) := by
        rintro ⟨hr, hw⟩
        rw [hr, hw] at hrw
        simp at hrw
      simp only [if_neg hne]
      exact hguard

/-! ## Namespaces of writes -/

/-- `allowed` lets the argv through as a command that is not a read. -/
def PermittedWrite (argv : List String) (allowed : List String) : Prop :=
  checkKubectl argv .write allowed = .allow ∧
    isKubectlRead (parseKubectlArgv argv) = false

instance (argv allowed : List String) : Decidable (PermittedWrite argv allowed) :=
  inferInstanceAs (Decidable (_ ∧ _))

/-- The namespace is outside the protected ones and inside the allowlist, if
there is one. -/
def Confined (ns : String) (allowed : List String) : Prop :=
  ns ∉ PERMANENT_DENY_NAMESPACES ∧ (allowed ≠ [] → ns ∈ allowed)

instance (ns : String) (allowed : List String) : Decidable (Confined ns allowed) :=
  inferInstanceAs (Decidable (_ ∧ _))

theorem outsideAllowed_eq_false {v : String} {allowed : List String} :
    outsideAllowed (some v) allowed = false ↔ (allowed ≠ [] → v ∈ allowed) := by
  by_cases ha : allowed = []
  · simp [outsideAllowed, ha]
  · simp [outsideAllowed, ha]

theorem checkWriteGuards_eq_allow {parsed : ParsedKubectl} {allowed : List String} :
    checkWriteGuards parsed allowed = .allow ↔
      ¬ (parsed.verb = "delete" ∧
        (truthy parsed.subResource = false ∨ truthy parsed.resourceName = false)) ∧
      ∃ v, parsed.namespace = some v ∧ Confined v allowed := by
  unfold checkWriteGuards
  by_cases hdel : parsed.verb = "delete" ∧
      (truthy parsed.subResource = false ∨ truthy parsed.resourceName = false)
  · simp [hdel]
  · simp only [hdel, if_false, not_false_eq_true, true_and]
    cases hns : parsed.namespace with
    | none => simp
    | some v =>
      have hout := @outsideAllowed_eq_false v allowed
      by_cases hden : v ∈ PERMANENT_DENY_NAMESPACES
      · simp [hden, Confined]
      · cases ho : outsideAllowed (some v) allowed with
        | true =>
          have : ¬ (allowed ≠ [] → v ∈ allowed) := fun hc => by
            rw [hout.mpr hc] at ho
            cases ho
          simp [hden, Confined, this, ho]
        | false => simpa [hden, Confined, ho] using hout.mp ho

structure WriteShape (argv : List String) : Prop where
  denies : PassesDenies argv
  notRead : isKubectlRead (parseKubectlArgv argv) = false
  write : isKubectlWrite (parseKubectlArgv argv) = true
  target : ¬ ((parseKubectlArgv argv).verb = "delete" ∧
    (truthy (parseKubectlArgv argv).subResource = false ∨
      truthy (parseKubectlArgv argv).resourceName = false))

theorem permittedWrite_iff {argv allowed : List String} :
    PermittedWrite argv allowed ↔
      WriteShape argv ∧
      ∃ v, (policyReading argv).last = some v ∧ Confined v allowed := by
  constructor
  · rintro ⟨hallow, hread⟩
    obtain ⟨hden, hrw, hguard⟩ := checkKubectl_eq_allow.mp hallow
    have hwrite : isKubectlWrite (parseKubectlArgv argv) = true := by
      simpa [hread] using hrw
    rw [if_pos hwrite, checkWriteGuards_eq_allow, parseKubectlArgv_namespace] at hguard
    exact ⟨⟨hden, hread, hwrite, hguard.1⟩, hguard.2⟩
  · rintro ⟨hshape, hns⟩
    refine ⟨checkKubectl_eq_allow.mpr ⟨hshape.denies, Or.inr hshape.write, ?_⟩,
      hshape.notRead⟩
    rw [if_pos hshape.write, checkWriteGuards_eq_allow, parseKubectlArgv_namespace]
    exact ⟨hshape.target, hns⟩

/-- **Namespace confinement.** Every allowlist that lets the argv through as a
write confines the command, exactly when kubectl acts in the namespace that is
last given in the spellings the policy knows. -/
theorem writes_confined_iff (k : Binary) (argv : List String) :
    (∀ allowed, PermittedWrite argv allowed → Confined (k.actsIn argv) allowed) ↔
      (WriteShape argv → ∀ v, (policyReading argv).last = some v →
        v ∉ PERMANENT_DENY_NAMESPACES → k.actsIn argv = v) := by
  constructor
  · intro h hshape v hv hden
    -- the allowlist that names only what the policy read
    have hself : PermittedWrite argv [v] :=
      permittedWrite_iff.mpr ⟨hshape, v, hv, hden, fun _ => List.mem_cons_self⟩
    have hmem := (h [v] hself).2 (by simp)
    exact List.mem_singleton.mp hmem
  · intro h allowed hperm
    obtain ⟨hshape, v, hv, hconf⟩ := permittedWrite_iff.mp hperm
    rw [h hshape v hv hconf.1]
    exact hconf

/-- The attached short spelling is not read by the policy: an allowlist of one
namespace lets a delete in `kube-system` through. -/
theorem write_escapes_allowlist :
    ¬ ∀ (k : Binary) (argv allowed : List String),
      PermittedWrite argv allowed → Confined (k.actsIn argv) allowed := by
  intro h
  have := h ⟨fun tok => tok = "--as" ∨ tok = "--context" ∨ tok = "-o", "default"⟩
    ["delete", "pod", "web-0", "-n", "app", "-nkube-system"] ["app"] (by decide)
  exact absurd this (by decide)

/-! ## Secrets -/

/-- A `secret/NAME` or `secrets/NAME` pair among the resource arguments. -/
def SecretPair (args : List String) : Prop :=
  ∃ arg rest, args = arg :: rest ∧ '/' ∈ arg.toList ∧
    ∃ r ∈ args, isSecretResource (some (pairType r)) = true

def SecretInList (args : List String) : Prop :=
  ∃ arg rest, args = arg :: rest ∧ '/' ∉ arg.toList ∧ ',' ∈ arg.toList ∧
    ∃ t ∈ Text.split arg ',', isSecretResource (some t) = true

def PlainSecret (args : List String) : Prop :=
  ∃ arg rest, args = arg :: rest ∧ isSecretResource (some arg) = true

theorem isSecretResource_iff {t : String} :
    isSecretResource (some t) = true ↔ t = "secret" ∨ t = "secrets" := by
  simp [isSecretResource]

theorem not_mem_of_isSecretResource {t : String} (h : isSecretResource (some t) = true) :
    '/' ∉ t.toList ∧ ',' ∉ t.toList := by
  rcases isSecretResource_iff.mp h with rfl | rfl <;> decide

theorem addresses_secret_iff (args : List String) :
    (∃ t ∈ addressedTypes args, isSecretResource (some t) = true) ↔
      SecretPair args ∨ SecretInList args ∨ PlainSecret args := by
  constructor
  · rintro ⟨t, ht, hs⟩
    cases args with
    | nil => cases ht
    | cons arg rest =>
      rw [addressedTypes] at ht
      by_cases hslash : '/' ∈ arg.toList
      · rw [if_pos hslash] at ht
        obtain ⟨r, hr, rfl⟩ := List.mem_map.mp ht
        exact Or.inl ⟨arg, rest, rfl, hslash, r, hr, hs⟩
      · rw [if_neg hslash] at ht
        by_cases hcomma : ',' ∈ arg.toList
        · exact Or.inr (Or.inl ⟨arg, rest, rfl, hslash, hcomma, t, ht, hs⟩)
        · rw [Text.split_of_not_mem hcomma, List.mem_singleton] at ht
          exact Or.inr (Or.inr ⟨arg, rest, rfl, ht ▸ hs⟩)
  · rintro (⟨arg, rest, rfl, hslash, r, hr, hs⟩ |
      ⟨arg, rest, rfl, hslash, -, t, ht, hs⟩ | ⟨arg, rest, rfl, hs⟩)
    · refine ⟨pairType r, ?_, hs⟩
      rw [addressedTypes, if_pos hslash]
      exact List.mem_map_of_mem hr
    · refine ⟨t, ?_, hs⟩
      rw [addressedTypes, if_neg hslash]
      exact ht
    · obtain ⟨hslash, hcomma⟩ := not_mem_of_isSecretResource hs
      refine ⟨arg, ?_, hs⟩
      rw [addressedTypes, if_neg hslash, Text.split_of_not_mem hcomma]
      exact List.mem_singleton_self arg

theorem PassesDenies.no_secret {argv : List String} (h : PassesDenies argv)
    (hverb : (parseKubectlArgv argv).verb ∈ ["get", "describe", "delete"]) :
    isSecretResource (parseKubectlArgv argv).subResource = false := by
  have hr := h.notSecretRead
  have hd := h.notSecretDelete
  simp only [List.mem_cons, List.not_mem_nil, or_false] at hverb
  rcases hverb with hv | hv | hv
  · simpa [isSecretRead, hv] using hr
  · simpa [isSecretRead, hv] using hr
  · simpa [isSecretDelete, hv] using hd

/-- **Secret confidentiality.** A get, describe or delete that the allowlist
lets through addresses no secret, exactly when no secret is written as a pair
or inside a list of types, and a plainly written one stands where the policy
looks for it. -/
theorem secrets_hidden_iff (k : Binary) (argv : List String) (mode : KubectlMode)
    (allowed : List String) (hallow : checkKubectl argv mode allowed = .allow)
    (hverb : k.verb argv ∈ ["get", "describe", "delete"]) :
    (∀ t ∈ addressedTypes (k.resourceArgs argv), isSecretResource (some t) = false) ↔
      ¬ SecretPair (k.resourceArgs argv) ∧ ¬ SecretInList (k.resourceArgs argv) ∧
      (PlainSecret (k.resourceArgs argv) →
        (policyReading argv).args.take 2 = (k.reading argv).args.take 2) := by
  have hnone : (∀ t ∈ addressedTypes (k.resourceArgs argv),
      isSecretResource (some t) = false) ↔
      ¬ (SecretPair (k.resourceArgs argv) ∨ SecretInList (k.resourceArgs argv) ∨
        PlainSecret (k.resourceArgs argv)) := by
    rw [← addresses_secret_iff]
    simp only [not_exists, not_and, Bool.not_eq_true]
  rw [hnone]
  constructor
  · intro h
    refine ⟨fun hp => h (Or.inl hp), fun hl => h (Or.inr (Or.inl hl)), fun hp => ?_⟩
    exact absurd (Or.inr (Or.inr hp)) h
  · rintro ⟨hpair, hlist, hplain⟩ (hp | hl | hp)
    · exact hpair hp
    · exact hlist hl
    · -- both readings agree on the verb and the type, so the policy saw it
      have htake := hplain hp
      obtain ⟨arg, rest, hargs, hs⟩ := hp
      cases hall : (k.reading argv).args with
      | nil => simp [Binary.resourceArgs, hall] at hargs
      | cons v args =>
        have hargs' : args = arg :: rest := by
          simpa [Binary.resourceArgs, hall] using hargs
        rw [hall, hargs'] at htake
        have hpol : (policyReading argv).args[0]? = some v ∧
            (policyReading argv).args[1]? = some arg := by
          have h₀ := congrArg (·[0]?) htake
          have h₁ := congrArg (·[1]?) htake
          simp only [List.getElem?_take] at h₀ h₁
          exact ⟨by simpa using h₀, by simpa using h₁⟩
        have hv : (parseKubectlArgv argv).verb = k.verb argv := by
          rw [parseKubectlArgv_verb, hpol.1, Binary.verb, hall]
          rfl
        have hno := (checkKubectl_eq_allow.mp hallow).1.no_secret (hv ▸ hverb)
        rw [parseKubectlArgv_subResource, hpol.2, hs] at hno
        cases hno

/-- The binary of the examples below: `-o`, `-l` and the context flags take a
value. -/
def sampleBinary : Binary :=
  ⟨fun tok => tok ∈ ["-o", "-l", "--context", "--as"], "default"⟩

theorem secrets_hidden_sample :
    checkKubectl ["get", "pods,services", "-n", "app"] .read ["app"] = .allow ∧
    ∀ t ∈ addressedTypes (sampleBinary.resourceArgs ["get", "pods,services", "-n", "app"]),
      isSecretResource (some t) = false := by
  refine ⟨by decide, (secrets_hidden_iff sampleBinary ["get", "pods,services", "-n", "app"]
    .read ["app"] (by decide) (by decide)).mpr ⟨?_, ?_, fun _ => by decide⟩⟩
  · rintro ⟨_, _, hargs, hslash, -⟩
    cases hargs
    exact absurd hslash (by decide)
  · rintro ⟨_, _, hargs, -, -, t, ht, hs⟩
    cases hargs
    revert hs
    revert t
    decide

/-- `get -o yaml secrets` reads secrets: the policy takes the format for the
resource type. So do a pair and a list. -/
theorem secrets_leak :
    ¬ ∀ (k : Binary) (argv : List String) (mode : KubectlMode) (allowed : List String),
      checkKubectl argv mode allowed = .allow →
      k.verb argv ∈ ["get", "describe", "delete"] →
      ∀ t ∈ addressedTypes (k.resourceArgs argv), isSecretResource (some t) = false := by
  intro h
  have := h sampleBinary ["get", "-o", "yaml", "secrets"] .read [] (by decide) (by decide)
    "secrets" (by decide)
  exact absurd this (by decide)

end OpenObs.Kubectl
