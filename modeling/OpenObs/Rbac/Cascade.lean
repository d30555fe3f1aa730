import OpenObs.Foundation.Forest
import OpenObs.Rbac.AccessControl

/-!
# The folder cascade

A grant on `folders:uid:g` reaches what lies below the folder `g`: the resolvers of the dashboards,
the alert rules and the folders add the scopes of the containing folder and of its ancestors, found
by a walk of bounded length.
-/

namespace OpenObs.Rbac

open OpenObs.Foundation OpenObs.Foundation.Forest

/-! ## Folder forests -/

section Forests

variable (db : Db) (orgId : String)

def IsParent (x y : String) : Prop :=
  ∃ f ∈ db.folders, f.orgId = orgId ∧ f.uid = x ∧ f.parentUid = some y ∧
    ∃ g ∈ db.folders, g.orgId = orgId ∧ g.uid = y

/-- `y` is an ancestor of `x`. -/
def IsAncestor (x y : String) : Prop := Relation.TransGen (IsParent db orgId) x y

structure FolderForest : Prop where
  uid : ∀ f ∈ db.folders, f.uid ≠ ""
  unique : (db.folders.map fun f => (f.orgId, f.uid)).Nodup
  depth : ∀ chain : List String, chain.IsChain (IsParent db orgId) →
    chain.length ≤ Db.folderMaxDepth

def folderParent (uid : String) : Option String :=
  (db.findFolderByUid orgId uid).bind fun f =>
    (f.parentUid.filter (· ≠ "")).bind fun p => (db.findFolderByUid orgId p).map (·.uid)

end Forests

section Walk

variable {db : Db} {orgId : String}

theorem findFolderByUid_eq_some {uid : String} {f : Folder}
    (h : db.findFolderByUid orgId uid = some f) :
    f ∈ db.folders ∧ f.orgId = orgId ∧ f.uid = uid :=
  ⟨List.mem_of_find?_eq_some h, by simpa using List.find?_some h⟩

theorem findFolderByUid_of_mem (hforest : FolderForest db orgId) {f : Folder}
    (hf : f ∈ db.folders) (horg : f.orgId = orgId) : db.findFolderByUid orgId f.uid = some f := by
  cases hfind : db.findFolderByUid orgId f.uid with
  | none =>
    have hne := List.find?_eq_none.mp hfind f hf
    simp [horg] at hne
  | some f' =>
    obtain ⟨hf', horg', huid'⟩ := findFolderByUid_eq_some hfind
    have heq : f' = f := List.inj_on_of_nodup_map hforest.unique hf' hf
      (by rw [horg', horg, huid'])
    rw [heq]

theorem folderParent_eq_some (hforest : FolderForest db orgId) {x y : String} :
    folderParent db orgId x = some y ↔ IsParent db orgId x y := by
  constructor
  · intro h
    obtain ⟨f, hf, h⟩ := Option.bind_eq_some_iff.mp h
    obtain ⟨p, hp, h⟩ := Option.bind_eq_some_iff.mp h
    obtain ⟨g, hg, rfl⟩ := Option.map_eq_some_iff.mp h
    obtain ⟨hfmem, hforg, hfuid⟩ := findFolderByUid_eq_some hf
    obtain ⟨hgmem, hgorg, hguid⟩ := findFolderByUid_eq_some hg
    have hparent : f.parentUid = some p := (Option.filter_eq_some_iff.mp hp).1
    exact ⟨f, hfmem, hforg, hfuid, by rw [hparent, hguid], g, hgmem, hgorg, rfl⟩
  · rintro ⟨f, hf, hforg, rfl, hparent, g, hg, hgorg, rfl⟩
    have hne : g.uid ≠ "" := hforest.uid g hg
    have hfilter : f.parentUid.filter (· ≠ "") = some g.uid :=
      Option.filter_eq_some_iff.mpr ⟨hparent, by simpa using hne⟩
    rw [folderParent, findFolderByUid_of_mem hforest hf hforg]
    show (f.parentUid.filter (· ≠ "")).bind _ = _
    rw [hfilter]
    show (db.findFolderByUid orgId g.uid).map (·.uid) = _
    rw [findFolderByUid_of_mem hforest hg hgorg]
    rfl

theorem ancestorsFrom_uids {n : ℕ} : ∀ {f : Folder},
    db.findFolderByUid orgId f.uid = some f →
    (db.ancestorsFrom orgId n f).map (·.uid) = ups (folderParent db orgId) n f.uid := by
  induction n with
  | zero => exact fun _ => rfl
  | succ n ih =>
    intro f hf
    have hlink : folderParent db orgId f.uid = (f.parentUid.filter (· ≠ "")).bind fun p =>
        (db.findFolderByUid orgId p).map (·.uid) := by
      rw [folderParent, hf]
      rfl
    rw [Db.ancestorsFrom, ups, hlink]
    cases hp : f.parentUid.filter (· ≠ "") with
    | none => rfl
    | some p =>
      cases hg : db.findFolderByUid orgId p with
      | none => simp [hg]
      | some g =>
        have hguid : g.uid = p := (findFolderByUid_eq_some hg).2.2
        simp only [hg, List.map_cons, Option.bind_some, Option.map_some]
        rw [ih (by rw [hguid, hg])]

theorem listAncestors_uids {uid : String} :
    (db.listAncestors orgId uid).map (·.uid) =
      ups (folderParent db orgId) (Db.folderMaxDepth + 1) uid := by
  rw [Db.listAncestors]
  cases hf : db.findFolderByUid orgId uid with
  | none =>
    have hnone : folderParent db orgId uid = none := by
      rw [folderParent, hf]
      rfl
    rw [ups, hnone]
    rfl
  | some f =>
    have huid : f.uid = uid := (findFolderByUid_eq_some hf).2.2
    subst huid
    exact ancestorsFrom_uids hf

theorem mem_listAncestors (hforest : FolderForest db orgId) {uid g : String} :
    g ∈ (db.listAncestors orgId uid).map (·.uid) ↔ IsAncestor db orgId uid g := by
  have hends : climb (folderParent db orgId) (Db.folderMaxDepth + 1 + 1) uid = none := by
    by_contra h
    obtain ⟨chain, -, hlen, hchain⟩ := exists_chain h
    have hle := hforest.depth chain
      (hchain.imp fun a b hab => (folderParent_eq_some hforest).mp hab)
    omega
  rw [listAncestors_uids, mem_ups_of_climb_none hends, above_iff_transGen, IsAncestor]
  have hrel : (fun a b => folderParent db orgId a = some b) = IsParent db orgId := by
    ext a b
    exact folderParent_eq_some hforest
  rw [hrel]

end Walk

/-! ## Scopes of folders -/

theorem parseScope_text {kind attr ident : String} (hk : ':' ∉ kind.toList)
    (ha : ':' ∉ attr.toList) :
    parseScope (kind ++ String.singleton ':' ++ (attr ++ String.singleton ':' ++ ident)) =
      ⟨kind, attr, ident⟩ := by
  have hsplit : Text.split (kind ++ String.singleton ':' ++
      (attr ++ String.singleton ':' ++ ident)) ':' = kind :: attr :: Text.split ident ':' := by
    rw [Text.split_append, Text.split_append, Text.split_of_not_mem hk, Text.split_of_not_mem ha]
    rfl
  have hne : kind ++ String.singleton ':' ++ (attr ++ String.singleton ':' ++ ident) ≠ "" := by
    intro hnil
    have hlen := congrArg List.length hsplit
    rw [hnil, Text.split_of_not_mem (by decide)] at hlen
    simp at hlen
  rw [parseScope, if_neg hne, hsplit]
  simp [Text.join_split, Text.split_ne_nil, Nat.one_le_iff_ne_zero]

theorem parseScope_uid {kind uid : String} (hk : ':' ∉ kind.toList) :
    parseScope (kind ++ ":uid:" ++ uid) = ⟨kind, "uid", uid⟩ := by
  have htext : kind ++ ":uid:" ++ uid =
      kind ++ String.singleton ':' ++ ("uid" ++ String.singleton ':' ++ uid) := by
    simp [← String.toList_inj]
  rw [htext]
  exact parseScope_text hk (by decide)

theorem parseScope_folder (uid : String) :
    parseScope ("folders:uid:" ++ uid) = ⟨"folders", "uid", uid⟩ :=
  @parseScope_uid "folders" uid (by decide)

theorem scopeCovers_folder {g want : String} (hg : g ≠ "*") :
    scopeCovers ("folders:uid:" ++ g) want = true ↔ parseScope want = ⟨"folders", "uid", g⟩ := by
  have hfolders : "folders" ≠ "*" := by decide
  have huid : "uid" ≠ "*" := by decide
  rw [scopeCovers_iff, parseScope_folder]
  simp only [ParsedScope.Matches, hfolders, huid, hg, false_or]
  constructor
  · rintro ⟨hkind, hattr, hid⟩
    cases hw : parseScope want
    rw [hw] at hkind hattr hid
    simp only at hkind hattr hid
    rw [← hkind, ← hattr, ← hid]
  · intro h
    rw [h]
    exact ⟨rfl, rfl, rfl⟩

theorem scopeCovers_folder_folder {g h : String} (hg : g ≠ "*") :
    scopeCovers ("folders:uid:" ++ g) ("folders:uid:" ++ h) = true ↔ g = h := by
  rw [scopeCovers_folder hg, parseScope_folder]
  constructor
  · intro heq
    cases heq
    rfl
  · rintro rfl
    rfl

/-! ## One grant -/

/-- `ac.eval(action, scope)` for a holder of one permission, through the registry. -/
def authorises (db : Db) (orgId : String) (grant : ResolvedPermission) (action scope : String) :
    Bool :=
  Evaluator.evaluate [grant] ((Evaluator.action action [scope]).mutate (registry db orgId))

theorem authorises_iff {db : Db} {orgId action g scope : String} :
    authorises db orgId ⟨action, "folders:uid:" ++ g⟩ action scope = true ↔
      ∃ want ∈ registry db orgId scope, scopeCovers ("folders:uid:" ++ g) want = true := by
  simp [authorises, Evaluator.mutate, Evaluator.evaluate, Evaluator.holds, Evaluator.grants]

section Cascade

variable {db : Db} {orgId g : String}

theorem covers_folderScopes (hforest : FolderForest db orgId) (hg : g ≠ "*") {folderUid : String} :
    (∃ want ∈ Resolvers.folderScopes db orgId folderUid,
        scopeCovers ("folders:uid:" ++ g) want = true) ↔
      g = folderUid ∨ IsAncestor db orgId folderUid g := by
  rw [Resolvers.folderScopes, ← mem_listAncestors hforest]
  constructor
  · rintro ⟨want, hwant, hcov⟩
    rcases List.mem_cons.mp hwant with rfl | hwant
    · exact Or.inl ((scopeCovers_folder_folder hg).mp hcov)
    · obtain ⟨f, hf, rfl⟩ := List.mem_map.mp hwant
      rw [(scopeCovers_folder_folder hg).mp hcov]
      exact Or.inr (List.mem_map_of_mem hf)
  · rintro (rfl | h)
    · exact ⟨_, List.mem_cons_self, scopeCovers_refl _⟩
    · obtain ⟨f, hf, rfl⟩ := List.mem_map.mp h
      exact ⟨_, List.mem_cons_of_mem _ (List.mem_map.mpr ⟨f, hf, rfl⟩), scopeCovers_refl _⟩

theorem scopeKind_uid {kind uid : String} (hk : ':' ∉ kind.toList) :
    scopeKind (kind ++ ":uid:" ++ uid) = kind := by
  have htext : kind ++ ":uid:" ++ uid = kind ++ String.singleton ':' ++ ("uid:" ++ uid) := by
    simp [← String.toList_inj]
  rw [scopeKind, htext, Text.split_append, Text.split_of_not_mem hk]
  rfl

theorem resolve_other {kind uid : String} (hk : ':' ∉ kind.toList) (hmem : kind ∉ resolverKinds) :
    registry db orgId (kind ++ ":uid:" ++ uid) = [kind ++ ":uid:" ++ uid] := by
  rw [registry, resolve, scopeKind_uid hk, if_neg hmem, ite_self]

theorem resolve_kind {kind uid : String} (hk : ':' ∉ kind.toList) (hmem : kind ∈ resolverKinds) :
    registry db orgId (kind ++ ":uid:" ++ uid) =
      Resolvers.byKind db orgId kind (kind ++ ":uid:" ++ uid) := by
  have hne : ¬ (kind ++ ":uid:" ++ uid = "" ∨ kind ++ ":uid:" ++ uid = "*") := by
    have hpos : 5 ≤ (kind ++ ":uid:" ++ uid).toList.length := by
      simp
      omega
    rintro (h | h)
    · rw [h] at hpos
      exact absurd hpos (by decide)
    · rw [h] at hpos
      exact absurd hpos (by decide)
  rw [registry, resolve, if_neg hne, scopeKind_uid hk, if_pos hmem]

theorem byKind_dashboards (scope : String) :
    Resolvers.byKind db orgId "dashboards" scope = Resolvers.dashboards db orgId scope := rfl

theorem byKind_alertRules (scope : String) :
    Resolvers.byKind db orgId "alert.rules" scope = Resolvers.alertRules db orgId scope := rfl

theorem byKind_folders (scope : String) :
    Resolvers.byKind db orgId "folders" scope = Resolvers.folders db orgId scope := rfl

theorem concreteUid_eq {kind uid : String} (hk : ':' ∉ kind.toList) (huid : uid ≠ "*") :
    Resolvers.concreteUid (kind ++ ":uid:" ++ uid) = some uid := by
  rw [Resolvers.concreteUid, parseScope_uid hk]
  simp [huid]

theorem not_covers_wildcard (hg : g ≠ "*") {wildcards : List String}
    (h : ∀ want ∈ wildcards, (parseScope want).identifier = "*") {want : String}
    (hwant : want ∈ wildcards) : ¬ scopeCovers ("folders:uid:" ++ g) want = true := by
  rw [scopeCovers_folder hg]
  intro heq
  have hstar : (parseScope want).identifier = "*" := h want hwant
  rw [heq] at hstar
  exact hg hstar

theorem covers_dashboards_cascade (hg : g ≠ "*") {d : String} (hd : d ≠ "*") :
    (∃ want ∈ registry db orgId ("dashboards:uid:" ++ d),
        scopeCovers ("folders:uid:" ++ g) want = true) ↔
      ∃ want ∈ Resolvers.cascade db orgId db.dashboards d,
        scopeCovers ("folders:uid:" ++ g) want = true := by
  have hscope : "dashboards:uid:" ++ d = "dashboards" ++ ":uid:" ++ d := rfl
  have hkind : (parseScope ("dashboards:uid:" ++ d)).kind = "dashboards" := by
    rw [hscope, parseScope_uid (by decide)]
  have hself : ¬ scopeCovers ("folders:uid:" ++ g) ("dashboards:uid:" ++ d) = true := by
    rw [scopeCovers_folder hg]
    intro heq
    rw [heq] at hkind
    simp at hkind
  have hreg : registry db orgId ("dashboards:uid:" ++ d) =
      Resolvers.dashboards db orgId ("dashboards:uid:" ++ d) := by
    rw [hscope, resolve_kind (by decide) (by decide), byKind_dashboards]
  have huid : Resolvers.concreteUid ("dashboards:uid:" ++ d) = some d :=
    @concreteUid_eq "dashboards" d (by decide) hd
  rw [hreg, Resolvers.dashboards, if_neg (by rw [hkind]; simp), huid]
  simp only [List.mem_eraseDups, List.mem_append]
  constructor
  · rintro ⟨want, hwant, hcov⟩
    rcases hwant with hwant | hwant | hwant
    · rcases List.mem_cons.mp hwant with rfl | hwant
      · exact absurd hcov hself
      · exact absurd hcov (not_covers_wildcard hg (by decide) hwant)
    · exact ⟨want, hwant, hcov⟩
    · exact absurd hcov (not_covers_wildcard hg (by decide) hwant)
  · rintro ⟨want, hwant, hcov⟩
    exact ⟨want, Or.inr (Or.inl hwant), hcov⟩

theorem covers_folders (hforest : FolderForest db orgId) (hg : g ≠ "*") {f : String}
    (hf : f ≠ "*") :
    (∃ want ∈ registry db orgId ("folders:uid:" ++ f),
        scopeCovers ("folders:uid:" ++ g) want = true) ↔ g = f ∨ IsAncestor db orgId f g := by
  have hkind : (parseScope ("folders:uid:" ++ f)).kind = "folders" := by
    rw [parseScope_folder]
  have hreg : registry db orgId ("folders:uid:" ++ f) =
      Resolvers.folders db orgId ("folders:uid:" ++ f) := by
    have hscope : "folders:uid:" ++ f = "folders" ++ ":uid:" ++ f := rfl
    rw [hscope, resolve_kind (by decide) (by decide), byKind_folders]
  have huid : Resolvers.concreteUid ("folders:uid:" ++ f) = some f :=
    @concreteUid_eq "folders" f (by decide) hf
  rw [hreg, Resolvers.folders, if_neg (by rw [hkind]; simp), huid,
    ← covers_folderScopes hforest hg, Resolvers.folderScopes]
  simp only [List.mem_eraseDups, List.mem_append]
  constructor
  · rintro ⟨want, hwant, hcov⟩
    rcases hwant with hwant | hwant
    · rcases List.mem_cons.mp hwant with rfl | hwant
      · exact ⟨_, List.mem_cons_self, hcov⟩
      · exact absurd hcov (not_covers_wildcard hg (by decide) hwant)
    · exact ⟨want, List.mem_cons_of_mem _ hwant, hcov⟩
  · rintro ⟨want, hwant, hcov⟩
    rcases List.mem_cons.mp hwant with rfl | hwant
    · exact ⟨_, Or.inl List.mem_cons_self, hcov⟩
    · exact ⟨want, Or.inr hwant, hcov⟩

end Cascade

end OpenObs.Rbac
