import OpenObs.Foundation.Forest
import OpenObs.Folders.Service

/-!
# The parent links

The parent links of an org are a function on uids. `FolderTree` says what the
service is to keep of them; the programs that only read the tables are collected
here once, with what a run of one followed by more comes to.
-/

namespace OpenObs.Folders

open OpenObs.Foundation OpenObs.Foundation.Forest OpenObs.Resources FolderRepository

/-! ## The parent links -/

def parentOf (t : Tables) (orgId uid : String) : Option String :=
  (t.findFolderByUid orgId uid).bind (·.parentUid)

structure FolderKeys (t : Tables) : Prop where
  id : (t.folders.map (·.id)).Nodup
  uid : (t.folders.map fun f => (f.orgId, f.uid)).Nodup
  named : ∀ f ∈ t.folders, f.uid ≠ ""

structure FolderTree (t : Tables) (orgId : String) : Prop extends FolderKeys t where
  parent : ∀ f ∈ t.folders, f.orgId = orgId → ∀ p, f.parentUid = some p →
    (t.findFolderByUid orgId p).isSome = true
  depth : ∀ uid, climb (parentOf t orgId) folderMaxDepth uid = none

section Links

variable {t : Tables} {orgId : String}

theorem findFolderByUid_eq_some {uid : String} {f : Folder}
    (h : t.findFolderByUid orgId uid = some f) : f ∈ t.folders ∧ f.orgId = orgId ∧ f.uid = uid :=
  ⟨List.mem_of_find?_eq_some h, by simpa using List.find?_some h⟩

theorem findFolderByUid_of_mem (hkeys : FolderKeys t) {f : Folder} (hf : f ∈ t.folders)
    (horg : f.orgId = orgId) : t.findFolderByUid orgId f.uid = some f := by
  cases hfind : t.findFolderByUid orgId f.uid with
  | none =>
    have hne := List.find?_eq_none.mp hfind f hf
    simp [horg] at hne
  | some f' =>
    obtain ⟨hf', horg', huid'⟩ := findFolderByUid_eq_some hfind
    have heq : f' = f := List.inj_on_of_nodup_map hkeys.uid hf' hf (by rw [horg', horg, huid'])
    rw [heq]

theorem findFolderById_of_mem (hkeys : FolderKeys t) {f : Folder} (hf : f ∈ t.folders) :
    t.findFolderById f.id = some f := by
  cases hfind : t.findFolderById f.id with
  | none =>
    have hne := List.find?_eq_none.mp hfind f hf
    simp at hne
  | some f' =>
    have hid : f'.id = f.id := by simpa using List.find?_some hfind
    rw [List.inj_on_of_nodup_map hkeys.id (List.mem_of_find?_eq_some hfind) hf hid]

theorem parentOf_of_find {uid : String} {f : Folder} (h : t.findFolderByUid orgId uid = some f) :
    parentOf t orgId uid = f.parentUid := by
  rw [parentOf, h]
  rfl

theorem parentOf_eq_some {x y : String} (h : parentOf t orgId x = some y) :
    ∃ f ∈ t.folders, f.orgId = orgId ∧ f.uid = x ∧ f.parentUid = some y := by
  obtain ⟨f, hf, hy⟩ := Option.bind_eq_some_iff.mp h
  obtain ⟨hmem, horg, huid⟩ := findFolderByUid_eq_some hf
  exact ⟨f, hmem, horg, huid, hy⟩

theorem truthy_eq_some {v : Option String} {w : String} :
    truthy v = some w ↔ v = some w ∧ w ≠ "" := by
  simp [truthy, Option.filter_eq_some_iff]

theorem FolderTree.target (h : FolderTree t orgId) {x y : String}
    (hlink : parentOf t orgId x = some y) : ∃ g, t.findFolderByUid orgId y = some g := by
  obtain ⟨f, hf, horg, -, hy⟩ := parentOf_eq_some hlink
  exact Option.isSome_iff_exists.mp (h.parent f hf horg y hy)

theorem FolderTree.target_ne (h : FolderTree t orgId) {x y : String}
    (hlink : parentOf t orgId x = some y) : y ≠ "" := by
  obtain ⟨g, hg⟩ := h.target hlink
  obtain ⟨hmem, -, huid⟩ := findFolderByUid_eq_some hg
  exact huid ▸ h.named g hmem

theorem FolderTree.acyclic (h : FolderTree t orgId) : Acyclic (parentOf t orgId) :=
  acyclic_of_climb_none fun uid => ⟨folderMaxDepth, h.depth uid⟩

theorem FolderTree.climb_target (h : FolderTree t orgId) {n : ℕ} : ∀ {x y : String},
    climb (parentOf t orgId) (n + 1) x = some y → ∃ g, t.findFolderByUid orgId y = some g := by
  induction n with
  | zero =>
    intro x y hclimb
    rw [climb_one] at hclimb
    exact h.target hclimb
  | succ n ih =>
    intro x y hclimb
    rw [climb_succ] at hclimb
    obtain ⟨z, -, hz⟩ := Option.bind_eq_some_iff.mp hclimb
    exact ih hz

end Links

/-! ## Programs that only read -/

def Reads {α : Type} (p : Prog Tables α) : Prop :=
  ∀ t, p.Holds (fun _ _ => True) (fun s s' => s' = s) (fun _ _ => True) t

namespace Reads

variable {α β : Type}

theorem pure (a : α) : Reads (Pure.pure a : Prog Tables α) := fun _ => trivial

theorem throw (e : String) : Reads (MonadExcept.throw e : Prog Tables α) := fun _ => trivial

theorem read (f : Tables → α) : Reads (Prog.read f) := fun _ _ _ => ⟨rfl, trivial⟩

theorem bind {p : Prog Tables α} {k : α → Prog Tables β} (hp : Reads p) (hk : ∀ a, Reads (k a)) :
    Reads (p >>= k) :=
  fun t => Prog.Holds.bind_any (hp t) fun a t' => hk a t'

theorem run {p : Prog Tables α} (hp : Reads p) (t : Tables) : (p.run t).2 = t :=
  @Prog.run_related Tables α (fun s s' => s' = s) (fun _ => rfl)
    (fun _ _ _ h h' => h'.trans h) p t (hp t)

theorem run_bind {p : Prog Tables α} (hp : Reads p) (k : α → Prog Tables β) (t : Tables) :
    (∃ e, p.run t = (.error e, t) ∧ (p >>= k).run t = (.error e, t)) ∨
    ∃ a, p.run t = (.ok a, t) ∧ (p >>= k).run t = (k a).run t := by
  have hst := hp.run t
  rw [Prog.run_bind]
  cases hrun : p.run t with
  | mk r t' =>
    rw [hrun] at hst
    cases hst
    cases r with
    | error e => exact Or.inl ⟨e, rfl, rfl⟩
    | ok a => exact Or.inr ⟨a, rfl, rfl⟩

theorem run_post {P : Tables → Prop} {p : Prog Tables α} (hp : Reads p) {k : α → Prog Tables β}
    {t : Tables} (ht : P t) (hk : ∀ a, p.run t = (.ok a, t) → P ((k a).run t).2) :
    P ((p >>= k).run t).2 := by
  rcases hp.run_bind k t with ⟨e, -, herr⟩ | ⟨a, ha, hok⟩
  · rw [herr]
    exact ht
  · rw [hok]
    exact hk a ha

theorem run_snd {p : Prog Tables α} {k : α → Prog Tables β} (hk : ∀ a, Reads (k a)) (t : Tables) :
    ((p >>= k).run t).2 = (p.run t).2 := by
  rw [Prog.run_bind]
  cases p.run t with
  | mk r t' =>
    cases r with
    | error e => rfl
    | ok a => exact (hk a).run t'

theorem run_bind_ok {p : Prog Tables α} (hp : Reads p) {k : α → Prog Tables β} {t t' : Tables}
    {b : β} (h : (p >>= k).run t = (.ok b, t')) :
    ∃ a, p.run t = (.ok a, t) ∧ (k a).run t = (.ok b, t') := by
  rcases hp.run_bind k t with ⟨e, -, herr⟩ | ⟨a, ha, hk⟩
  · rw [h] at herr
    cases herr
  · exact ⟨a, ha, hk.symm.trans h⟩

end Reads

theorem reads_ancestorsFrom {orgId : String} {n : ℕ} : ∀ {f : Folder},
    Reads (ancestorsFrom orgId n f) := by
  induction n with
  | zero => exact fun {f} => Reads.pure []
  | succ n ih =>
    intro f
    rw [ancestorsFrom]
    split
    · exact Reads.pure []
    · refine (Reads.read _).bind fun parent => ?_
      cases parent with
      | none => exact Reads.pure []
      | some parent => exact ih.bind fun chain => Reads.pure _

theorem reads_listAncestors {orgId uid : String} : Reads (listAncestors orgId uid) := by
  refine (Reads.read _).bind fun cursor => ?_
  cases cursor with
  | none => exact Reads.pure []
  | some cursor => exact reads_ancestorsFrom

theorem reads_assertDepth {orgId parentUid : String} {movingUid : Option String} {left : ℕ} :
    ∀ {cursor : Folder}, Reads (assertDepth orgId parentUid movingUid left cursor) := by
  induction left with
  | zero => exact fun {cursor} => Reads.pure ()
  | succ left ih =>
    intro cursor
    rw [assertDepth]
    split
    · exact Reads.pure ()
    · refine (Reads.read _).bind fun next => ?_
      cases next with
      | none => exact Reads.pure ()
      | some next =>
        dsimp only
        split
        · exact Reads.throw _
        · split
          · exact Reads.throw _
          · exact ih

theorem reads_assertParentAndDepth {orgId parentUid : String} {movingUid : Option String} :
    Reads (assertParentAndDepth orgId parentUid movingUid) := by
  refine (Reads.read _).bind fun parent => ?_
  cases parent with
  | none => exact Reads.throw _
  | some parent =>
    dsimp only
    split
    · exact Reads.throw _
    · exact reads_assertDepth

namespace FolderService

theorem reads_descend {orgId : String} {fuel : ℕ} : ∀ {stack out : List String},
    Reads (descend orgId fuel stack out) := by
  induction fuel with
  | zero =>
    intro stack out
    cases stack with
    | nil => exact Reads.pure out
    | cons current stack => exact Reads.throw _
  | succ fuel ih =>
    intro stack out
    cases stack with
    | nil => exact Reads.pure out
    | cons current stack => exact (Reads.read _).bind fun children => ih

theorem reads_listDescendantUids {fuel : ℕ} {orgId uid : String} :
    Reads (listDescendantUids fuel orgId uid) := reads_descend

theorem reads_deepest {measure : Folder → Prog Tables ℕ} (hmeasure : ∀ c, Reads (measure c))
    {children : List Folder} : ∀ {best : ℕ}, Reads (deepest measure best children) := by
  induction children with
  | nil => exact fun {best} => Reads.pure best
  | cons c cs ih => exact fun {best} => (hmeasure c).bind fun d => ih

theorem reads_measureSubtreeDepth {orgId : String} {fuel : ℕ} : ∀ {uid : String},
    Reads (measureSubtreeDepth orgId fuel uid) := by
  induction fuel with
  | zero => exact fun {uid} => Reads.throw _
  | succ fuel ih =>
    intro uid
    refine (Reads.read _).bind fun children => ?_
    split
    · exact Reads.pure 1
    · exact (reads_deepest fun c => ih).bind fun best => Reads.pure _

theorem reads_checkMove {fuel : ℕ} {orgId uid : String} {existing : Folder}
    {parentUid : Option (Option String)} : Reads (checkMove fuel orgId uid existing parentUid) := by
  cases parentUid with
  | none => exact Reads.pure ()
  | some parentUid =>
    rw [checkMove]
    split
    · exact Reads.pure ()
    · split
      · exact Reads.throw _
      · split
        · exact Reads.pure ()
        · refine reads_listDescendantUids.bind fun descendants => ?_
          split
          · exact Reads.throw _
          · refine reads_listAncestors.bind fun ancestors => ?_
            refine reads_measureSubtreeDepth.bind fun depth => ?_
            split
            · exact Reads.throw _
            · exact Reads.pure ()

theorem reads_chooseUid {drawn : Drawn} {orgId : String} {input : CreateFolderInput} :
    Reads (chooseUid drawn orgId input) := by
  refine (Reads.read _).bind fun existing => ?_
  cases existing with
  | none => exact Reads.pure _
  | some f =>
    dsimp only
    split
    · exact Reads.throw _
    · exact Reads.pure _

theorem reads_checkParent {orgId : String} {parentUid : Option String} :
    Reads (checkParent orgId parentUid) := by
  rw [checkParent]
  split
  · exact Reads.pure ()
  · refine (Reads.read _).bind fun parent => ?_
    cases parent with
    | none => exact Reads.throw _
    | some parent =>
      refine reads_listAncestors.bind fun ancestors => ?_
      split
      · exact Reads.throw _
      · exact Reads.pure ()

end FolderService

end OpenObs.Folders
