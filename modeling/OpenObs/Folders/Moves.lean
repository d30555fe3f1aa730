import OpenObs.Foundation.Pool
import OpenObs.Folders.Tree

/-!
# Two moves at once

Two calls of `update` that move folders, interleaved at their `await`s. A call walks up from its new
parent and looks for the folder it moves; the other one may write its link while the walk is on its
way, or between the walk and the `UPDATE`.
-/

namespace OpenObs.Folders

open OpenObs.Foundation OpenObs.Foundation.Forest OpenObs.Resources FolderRepository

/-- A call of `update` that names a parent, or `null`. -/
structure MoveCall where
  fuel : ℕ
  now : String
  uid : String
  parentUid : Option String
  title : Option String := none
  description : Option (Option String) := none
  userId : String

def MoveCall.code (orgId : String) (m : MoveCall) : Prog Tables Folder :=
  FolderService.update m.fuel m.now orgId m.uid ⟨m.title, m.description, some m.parentUid⟩ m.userId

def Crossing (t : Tables) (orgId : String) (m m' : MoveCall) : Prop :=
  ∃ p q, m.parentUid = some p ∧ m'.parentUid = some q ∧
    Under (parentOf t orgId) p m'.uid ∧ Under (parentOf t orgId) q m.uid ∧
    ¬ Under (parentOf t orgId) p m.uid ∧ ¬ Under (parentOf t orgId) q m'.uid

theorem Crossing.symm {t : Tables} {orgId : String} {m m' : MoveCall} (h : Crossing t orgId m m') :
    Crossing t orgId m' m := by
  obtain ⟨p, q, hp, hq, hpb, hqa, hpa, hqb⟩ := h
  exact ⟨q, p, hq, hp, hqa, hpb, hqb, hpa⟩

/-! ## What a call sees and does -/

def rowKeys (t : Tables) : List (String × String × String) :=
  t.folders.map fun f => (f.id, f.orgId, f.uid)

section Calls

variable (t₀ : Tables) (orgId : String)

def movedLinks (m' : MoveCall) : String → Option String :=
  Function.update (parentOf t₀ orgId) m'.uid m'.parentUid

structure Sees (m' : MoveCall) (t : Tables) : Prop where
  rows : rowKeys t = rowKeys t₀
  links : parentOf t orgId = parentOf t₀ orgId ∨
    parentOf t orgId = movedLinks t₀ orgId m' ∧ Acyclic (movedLinks t₀ orgId m')

def Interferes (m' : MoveCall) (s t : Tables) : Prop :=
  Sees t₀ orgId m' s → Sees t₀ orgId m' t ∧
    (parentOf s orgId = parentOf t₀ orgId ∨ parentOf t orgId = parentOf s orgId)

/-- What a section of the call does: it leaves the links, or moves its own one and makes
no cycle. -/
def Moves (m m' : MoveCall) (s t : Tables) : Prop :=
  Sees t₀ orgId m' s ∧ rowKeys t = rowKeys s ∧
    (parentOf t orgId = parentOf s orgId ∨
      parentOf t orgId = Function.update (parentOf s orgId) m.uid m.parentUid ∧
        Acyclic (Function.update (parentOf s orgId) m.uid m.parentUid))

variable {t₀ orgId} {m m' : MoveCall} {s t : Tables}

theorem FolderKeys.of_rowKeys (h : FolderKeys t₀) (hrows : rowKeys t = rowKeys t₀) :
    FolderKeys t where
  id := by
    have hid : t.folders.map (·.id) = t₀.folders.map (·.id) := by
      have hmap := congrArg (List.map Prod.fst) hrows
      rw [rowKeys, rowKeys, List.map_map, List.map_map] at hmap
      exact hmap
    rw [hid]
    exact h.id
  uid := by
    have huid : (t.folders.map fun f => (f.orgId, f.uid)) =
        t₀.folders.map fun f => (f.orgId, f.uid) := by
      have hmap := congrArg (List.map Prod.snd) hrows
      rw [rowKeys, rowKeys, List.map_map, List.map_map] at hmap
      exact hmap
    rw [huid]
    exact h.uid
  named := by
    intro f hf
    have hkey : (f.id, f.orgId, f.uid) ∈ rowKeys t₀ := hrows ▸ List.mem_map_of_mem hf
    obtain ⟨g, hg, heq⟩ := List.mem_map.mp hkey
    obtain ⟨-, heq⟩ := Prod.mk.inj heq
    obtain ⟨-, huid⟩ := Prod.mk.inj heq
    rw [← huid]
    exact h.named g hg

theorem Interferes.refl : Interferes t₀ orgId m' s s := fun h => ⟨h, Or.inr rfl⟩

theorem Interferes.trans {u : Tables} (h₁ : Interferes t₀ orgId m' s t)
    (h₂ : Interferes t₀ orgId m' t u) : Interferes t₀ orgId m' s u := by
  intro hs
  obtain ⟨ht, hst⟩ := h₁ hs
  obtain ⟨hu, htu⟩ := h₂ ht
  refine ⟨hu, ?_⟩
  rcases hst with hst | hst
  · exact Or.inl hst
  · rw [hst] at htu
    exact htu

theorem Moves.interferes (h : Moves t₀ orgId m m' s t) (hs : Sees t₀ orgId m s) :
    Interferes t₀ orgId m s t := by
  obtain ⟨-, hrows, hlinks⟩ := h
  intro _
  have hrows₀ : rowKeys t = rowKeys t₀ := hrows.trans hs.rows
  rcases hlinks with hsame | ⟨hmoved, hacyclic⟩
  · exact ⟨⟨hrows₀, hsame ▸ hs.links⟩, Or.inr hsame⟩
  · rcases hs.links with hstart | ⟨hdone, hok⟩
    · rw [hstart] at hmoved hacyclic
      exact ⟨⟨hrows₀, Or.inr ⟨hmoved, hacyclic⟩⟩, Or.inl hstart⟩
    · -- the same link written once more
      have hagain : parentOf t orgId = movedLinks t₀ orgId m := by
        rw [hmoved, hdone, movedLinks, Function.update_idem]
      exact ⟨⟨hrows₀, Or.inr ⟨hagain, hok⟩⟩, Or.inr (hagain.trans hdone.symm)⟩

theorem Sees.acyclic (h₀ : FolderTree t₀ orgId) (h : Sees t₀ orgId m' t) :
    Acyclic (parentOf t orgId) := by
  rcases h.links with hstart | ⟨hmoved, hacyclic⟩
  · rw [hstart]
    exact h₀.acyclic
  · rw [hmoved]
    exact hacyclic

theorem Sees.reads (h : Sees t₀ orgId m' t) : Moves t₀ orgId m m' t t := ⟨h, rfl, Or.inl rfl⟩

theorem Reads.moves {α : Type} {p : Prog Tables α} (hp : Reads p) : ∀ {s : Tables},
    Sees t₀ orgId m' s → p.Holds (Interferes t₀ orgId m') (Moves t₀ orgId m m')
      (fun _ t => Sees t₀ orgId m' t) s := by
  induction p with
  | ret a => exact fun h => h
  | fail e => exact fun h => h
  | sect f k ih =>
    intro s hs t hst
    obtain ⟨ht, -⟩ := hst hs
    obtain ⟨hid, hk⟩ := hp t t trivial
    rw [hid]
    refine ⟨ht.reads, ih t (fun u => ?_) ht⟩
    exact hk.shift (fun _ _ _ _ _ => trivial) (fun _ _ _ _ _ => trivial) trivial

end Calls

/-! ## The walk -/

section Walk

variable {t₀ : Tables} {orgId : String} {m m' : MoveCall} {s t : Tables}

/-- Where a walk from `p` stands that has fetched `cursor`: `p` is not below the moved
folder any more, the way is free so far, or it leads to the moved folder. -/
def Heading (t₀ : Tables) (orgId : String) (m m' : MoveCall) (p : String) (cursor : Folder)
    (t : Tables) : Prop :=
  ¬ Under (parentOf t orgId) p m.uid ∨
  Walking (parentOf t orgId) m.uid p cursor.uid cursor.parentUid ∨
  parentOf t orgId = movedLinks t₀ orgId m' ∧
    ∃ z, cursor.parentUid = some z ∧ Under (parentOf t orgId) z m.uid

theorem Interferes.cases (h : Interferes t₀ orgId m' s t) (hs : Sees t₀ orgId m' s) :
    parentOf t orgId = parentOf s orgId ∨
    parentOf s orgId = parentOf t₀ orgId ∧ parentOf t orgId = movedLinks t₀ orgId m' ∧
      Acyclic (movedLinks t₀ orgId m') := by
  obtain ⟨ht, hlinks⟩ := h hs
  rcases hlinks with hstart | hsame
  · rcases ht.links with hstill | hmoved
    · exact Or.inl (hstill.trans hstart.symm)
    · exact Or.inr ⟨hstart, hmoved⟩
  · exact Or.inl hsame

theorem not_crossing (hcross : ¬ Crossing t₀ orgId m m') {p : String} (hp : m.parentUid = some p)
    (hacyclic : Acyclic (movedLinks t₀ orgId m')) :
    ¬ (Under (parentOf t₀ orgId) p m'.uid ∧
      (∃ q, m'.parentUid = some q ∧ Under (parentOf t₀ orgId) q m.uid) ∧
      ¬ Under (parentOf t₀ orgId) p m.uid) := by
  rintro ⟨hpb, ⟨q, hq, hqa⟩, hpa⟩
  refine hcross ⟨p, q, hp, hq, hpb, hqa, hpa, ?_⟩
  rw [movedLinks, hq] at hacyclic
  exact not_under_of_acyclic hacyclic

theorem safe_stable (hcross : ¬ Crossing t₀ orgId m m') {p : String} (hp : m.parentUid = some p)
    (hs : Sees t₀ orgId m' s) (hst : Interferes t₀ orgId m' s t)
    (hsafe : ¬ Under (parentOf s orgId) p m.uid) : ¬ Under (parentOf t orgId) p m.uid := by
  rcases hst.cases hs with hsame | ⟨hstart, hmoved, hacyclic⟩
  · rw [hsame]
    exact hsafe
  · rw [hmoved]
    rw [hstart] at hsafe
    intro hunder
    rcases under_update hacyclic hunder with hold | ⟨hpb, hqa⟩
    · exact hsafe hold
    · exact not_crossing hcross hp hacyclic ⟨hpb, hqa, hsafe⟩

theorem Heading.stable (h₀ : FolderTree t₀ orgId) (hcross : ¬ Crossing t₀ orgId m m') {p : String}
    (hp : m.parentUid = some p) {cursor : Folder} (hs : Sees t₀ orgId m' s)
    (hst : Interferes t₀ orgId m' s t) (h : Heading t₀ orgId m m' p cursor s) :
    Heading t₀ orgId m m' p cursor t := by
  rcases hst.cases hs with hsame | ⟨hstart, hmoved, hacyclic⟩
  · rw [Heading, hsame]
    exact h
  · rcases h with hsafe | hwalk | ⟨hlate, z, hz, hunder⟩
    · exact Or.inl (safe_stable hcross hp hs hst hsafe)
    · rw [hstart] at hwalk
      rcases hwalk.update h₀.acyclic hacyclic (not_crossing hcross hp hacyclic) with
        hwalk | hsafe | ⟨z, hz, hunder⟩
      · exact Or.inr (Or.inl (hmoved ▸ hwalk))
      · exact Or.inl (hmoved ▸ hsafe)
      · exact Or.inr (Or.inr ⟨hmoved, z, hz, hmoved ▸ hunder⟩)
    · exact Or.inr (Or.inr ⟨hmoved, z, hz, by rw [hmoved, ← hlate]; exact hunder⟩)

theorem under_of_missing {x y : String} (hx : t.findFolderByUid orgId x = none)
    (h : Under (parentOf t orgId) x y) : y = x := by
  obtain ⟨n, hn⟩ := h
  cases n with
  | zero => exact (Option.some.inj hn).symm
  | succ n =>
    rw [climb_succ, parentOf, hx] at hn
    cases hn

theorem Heading.ended {p : String} {cursor : Folder}
    (hfolder : (t.findFolderByUid orgId m.uid).isSome = true)
    (hend : ∀ z, cursor.parentUid = some z → t.findFolderByUid orgId z = none)
    (h : Heading t₀ orgId m m' p cursor t) : ¬ Under (parentOf t orgId) p m.uid := by
  have hgone (z : String) (hz : cursor.parentUid = some z) : ¬ Under (parentOf t orgId) z m.uid := by
    intro hunder
    rw [under_of_missing (hend z hz) hunder, hend z hz] at hfolder
    cases hfolder
  rcases h with hsafe | ⟨k, hk, havoid, hnext⟩ | ⟨-, z, hz, hunder⟩
  · exact hsafe
  · rintro ⟨n, hn⟩
    by_cases hle : n ≤ k
    · exact havoid n hle hn
    · obtain ⟨d, rfl⟩ := Nat.exists_eq_add_of_lt (Nat.lt_of_not_le hle)
      rw [Nat.add_assoc, climb_add, hk] at hn
      have hup : climb (parentOf t orgId) (d + 1) cursor.uid = some m.uid := hn
      rw [climb_succ, hnext] at hup
      obtain ⟨z, hz, hclimb⟩ := Option.bind_eq_some_iff.mp hup
      exact hgone z hz ⟨d, hclimb⟩
  · exact absurd hunder (hgone z hz)

theorem Heading.next {p : String} {cursor next : Folder} {z : String}
    (hz : cursor.parentUid = some z) (hnext : t.findFolderByUid orgId z = some next)
    (hne : next.uid ≠ m.uid) (h : Heading t₀ orgId m m' p cursor t) :
    Heading t₀ orgId m m' p next t := by
  have huid : next.uid = z := (findFolderByUid_eq_some hnext).2.2
  have hlink : parentOf t orgId next.uid = next.parentUid := by
    rw [huid, parentOf_of_find hnext]
  rcases h with hsafe | ⟨k, hk, havoid, hcursor⟩ | ⟨hlate, z', hz', n, hn⟩
  · exact Or.inl hsafe
  · have hstep : climb (parentOf t orgId) (k + 1) p = some next.uid := by
      rw [climb_add, hk]
      show climb _ 1 cursor.uid = _
      rw [climb_one, hcursor, hz, huid]
    refine Or.inr (Or.inl ⟨k + 1, hstep, fun j hj => ?_, hlink⟩)
    rcases Nat.le_succ_iff.mp hj with hj | rfl
    · exact havoid j hj
    · rw [hstep]
      exact fun heq => hne (Option.some.inj heq)
  · rw [hz] at hz'
    cases hz'
    cases n with
    | zero => exact absurd (huid.trans (Option.some.inj hn)) hne
    | succ n =>
      rw [← huid, climb_succ, hlink] at hn
      obtain ⟨w, hw, hclimb⟩ := Option.bind_eq_some_iff.mp hn
      exact Or.inr (Or.inr ⟨hlate, w, hw, n, hclimb⟩)

end Walk

/-! ## A call among the steps of the other -/

section Thread

variable {t₀ : Tables} {orgId : String} {m m' : MoveCall}

theorem find_of_rowKeys {t : Tables} (hkeys : FolderKeys t) {id uid : String}
    (h : (id, orgId, uid) ∈ rowKeys t) :
    ∃ row, t.findFolderByUid orgId uid = some row ∧ t.findFolderById id = some row ∧
      row.id = id ∧ row.orgId = orgId ∧ row.uid = uid := by
  obtain ⟨row, hrow, heq⟩ := List.mem_map.mp h
  cases heq
  exact ⟨row, findFolderByUid_of_mem hkeys hrow rfl, findFolderById_of_mem hkeys hrow, rfl, rfl, rfl⟩

theorem mem_rowKeys_of_find {t : Tables} {uid : String} {row : Folder}
    (h : t.findFolderByUid orgId uid = some row) : (row.id, orgId, uid) ∈ rowKeys t := by
  obtain ⟨hmem, rfl, rfl⟩ := findFolderByUid_eq_some h
  exact List.mem_map_of_mem hmem

theorem Sees.keys (h₀ : FolderTree t₀ orgId) {t : Tables} (h : Sees t₀ orgId m' t) : FolderKeys t :=
  h₀.toFolderKeys.of_rowKeys h.rows

theorem assertDepth_moves (h₀ : FolderTree t₀ orgId) (hcross : ¬ Crossing t₀ orgId m m')
    {p : String} (hp : m.parentUid = some p) {id : String} (hrow : (id, orgId, m.uid) ∈ rowKeys t₀)
    {left : ℕ} : ∀ {cursor : Folder} {s : Tables}, 0 < left → Sees t₀ orgId m' s →
    Heading t₀ orgId m m' p cursor s →
    (assertDepth orgId p (some m.uid) left cursor).Holds (Interferes t₀ orgId m')
      (Moves t₀ orgId m m')
      (fun r t => Sees t₀ orgId m' t ∧ (r = .ok () → ¬ Under (parentOf t orgId) p m.uid)) s := by
  have hfolder {t : Tables} (ht : Sees t₀ orgId m' t) :
      (t.findFolderByUid orgId m.uid).isSome = true := by
    obtain ⟨row, hfind, -⟩ := find_of_rowKeys (ht.keys h₀) (ht.rows ▸ hrow)
    rw [hfind]
    rfl
  induction left with
  | zero =>
    intro cursor s hleft
    exact absurd hleft (Nat.lt_irrefl 0)
  | succ left ih =>
    intro cursor s _ hs hheading
    rw [assertDepth]
    split
    · -- no parent, or the empty text, which is no folder
      rename_i hnone
      refine ⟨hs, fun _ => hheading.ended (hfolder hs) fun z hz => ?_⟩
      cases hfind : s.findFolderByUid orgId z with
      | none => rfl
      | some g =>
        obtain ⟨hg, -, huid⟩ := findFolderByUid_eq_some hfind
        have hne : z ≠ "" := huid ▸ (hs.keys h₀).named g hg
        rw [truthy_eq_some.mpr ⟨hz, hne⟩] at hnone
        cases hnone
    · rename_i z hz
      obtain ⟨hz, -⟩ := truthy_eq_some.mp hz
      intro t hst
      obtain ⟨ht, -⟩ := hst hs
      have hheading' := hheading.stable h₀ hcross hp hs hst
      refine ⟨ht.reads, ?_⟩
      show Prog.Holds _ _ _ (Prog.bind (.ret (t.findFolderByUid orgId z)) _) t
      cases hnext : t.findFolderByUid orgId z with
      | none =>
        refine ⟨ht, fun _ => hheading'.ended (hfolder ht) fun z' hz' => ?_⟩
        rw [hz] at hz'
        cases hz'
        exact hnext
      | some next =>
        dsimp only [Prog.bind]
        split
        · exact ⟨ht, fun h => by cases h⟩
        · rename_i hne
          split
          · exact ⟨ht, fun h => by cases h⟩
          · rename_i hleft
            refine ih (Nat.pos_of_ne_zero hleft) ht (hheading'.next hz hnext fun heq => hne ?_)
            have hmem := findFolderByUid_eq_some hnext
            rw [truthy_eq_some]
            exact ⟨by rw [heq], (ht.keys h₀).named next hmem.1⟩

theorem assertParentAndDepth_moves (h₀ : FolderTree t₀ orgId) (hcross : ¬ Crossing t₀ orgId m m')
    {p : String} (hp : m.parentUid = some p) {id : String} (hrow : (id, orgId, m.uid) ∈ rowKeys t₀)
    {s : Tables} (hs : Sees t₀ orgId m' s) :
    (assertParentAndDepth orgId p (some m.uid)).Holds (Interferes t₀ orgId m')
      (Moves t₀ orgId m m')
      (fun r t => Sees t₀ orgId m' t ∧ (r = .ok () → ¬ Under (parentOf t orgId) p m.uid)) s := by
  intro t hst
  obtain ⟨ht, -⟩ := hst hs
  refine ⟨ht.reads, ?_⟩
  show Prog.Holds _ _ _ (Prog.bind (.ret (t.findFolderByUid orgId p)) _) t
  cases hparent : t.findFolderByUid orgId p with
  | none => exact ⟨ht, fun h => by cases h⟩
  | some parent =>
    obtain ⟨hmem, -, huid⟩ := findFolderByUid_eq_some hparent
    dsimp only [Prog.bind]
    split
    · exact ⟨ht, fun h => by cases h⟩
    · rename_i hne
      refine assertDepth_moves h₀ hcross hp hrow (by decide) ht (Or.inr (Or.inl ⟨0, ?_, ?_, ?_⟩))
      · rw [climb_zero, huid]
      · intro j hj heq
        rw [Nat.le_zero.mp hj, climb_zero] at heq
        apply hne
        rw [huid, truthy_eq_some]
        exact ⟨heq.symm, huid ▸ (ht.keys h₀).named parent hmem⟩
      · rw [huid, parentOf_of_find hparent]

theorem store_moves (h₀ : FolderTree t₀ orgId) {existing : Folder}
    (hrow : (existing.id, orgId, m.uid) ∈ rowKeys t₀) {patch : FolderPatch}
    (hpatch : patch.parentUid = some m.parentUid) {now : String} {s : Tables}
    (hs : Sees t₀ orgId m' s)
    (hsafe : ∀ t, Interferes t₀ orgId m' s t →
      Acyclic (Function.update (parentOf t orgId) m.uid m.parentUid)) :
    (store now patch existing).Holds (Interferes t₀ orgId m') (Moves t₀ orgId m m')
      (fun _ _ => True) s := by
  rw [store, Prog.holds_attempt]
  intro t hst
  obtain ⟨ht, -⟩ := hst hs
  refine ⟨?_, trivial⟩
  split
  · exact ht.reads
  · have hkeys := ht.keys h₀
    obtain ⟨row, hfind, -, hid, -, huid⟩ := find_of_rowKeys hkeys (ht.rows ▸ hrow)
    have hlinks := parentOf_editFolder hkeys (@keepsKeys_merge now patch existing)
      (by rw [huid]; exact hfind)
    have hparent : (merge now patch existing row).parentUid = m.parentUid := by
      rw [merge, hpatch]
      rfl
    rw [hid, huid, hparent] at hlinks
    refine ⟨ht, ?_, Or.inr ⟨hlinks, hsafe t hst⟩⟩
    exact map_editFolder fun f => by
      obtain ⟨h₁, h₂, h₃⟩ := @keepsKeys_merge now patch existing f
      rw [h₁, h₂, h₃]

theorem rewrite_acyclic (h₀ : FolderTree t₀ orgId) {s t : Tables} (hs : Sees t₀ orgId m' s)
    (hst : Interferes t₀ orgId m' s t) (uid : String) :
    Acyclic (Function.update (parentOf t orgId) uid (parentOf s orgId uid)) := by
  obtain ⟨ht, -⟩ := hst hs
  rcases hst.cases hs with hsame | ⟨hstart, hmoved, -⟩
  · rw [← hsame, Function.update_eq_self]
    exact ht.acyclic h₀
  · by_cases huid : uid = m'.uid
    · -- the other call moved the same folder
      rw [hmoved, hstart, movedLinks, huid, Function.update_idem, Function.update_eq_self]
      exact h₀.acyclic
    · have hkept : parentOf s orgId uid = parentOf t orgId uid := by
        rw [hmoved, hstart, movedLinks, Function.update_of_ne huid]
      rw [hkept, Function.update_eq_self]
      exact ht.acyclic h₀

theorem repository_update_moves (h₀ : FolderTree t₀ orgId) (hcross : ¬ Crossing t₀ orgId m m')
    {id : String} (hrow : (id, orgId, m.uid) ∈ rowKeys t₀) {patch : FolderPatch}
    (hpatch : patch.parentUid = some m.parentUid) {now : String} {s : Tables}
    (hs : Sees t₀ orgId m' s) :
    (update now id patch).Holds (Interferes t₀ orgId m') (Moves t₀ orgId m m')
      (fun _ _ => True) s := by
  intro t hst
  obtain ⟨ht, -⟩ := hst hs
  obtain ⟨existing, hfind, hfindId, hid, horg, huid⟩ :=
    find_of_rowKeys (ht.keys h₀) (ht.rows ▸ hrow)
  have hlink : parentOf t orgId m.uid = existing.parentUid := parentOf_of_find hfind
  refine ⟨ht.reads, ?_⟩
  show Prog.Holds _ _ _ (Prog.bind (.ret (t.findFolderById id)) _) t
  rw [hfindId, hpatch]
  dsimp only [Prog.bind]
  have hstore {u : Tables} (hu : Sees t₀ orgId m' u) := @store_moves t₀ orgId m m' h₀ existing
    (hid ▸ hrow) patch hpatch now u hu
  cases hparent : m.parentUid with
  | none =>
    refine hstore ht fun u hu => ?_
    rw [hparent]
    exact acyclic_update ((hu ht).1.acyclic h₀) (by simp)
  | some p =>
    dsimp only
    split
    · rename_i hsame
      refine hstore ht fun u hu => ?_
      rw [hparent, hsame, ← hlink]
      exact rewrite_acyclic h₀ ht hu m.uid
    · rw [horg, huid]
      refine Prog.Holds.bind ((assertParentAndDepth_moves h₀ hcross hparent hrow ht).post ?_)
      rintro (e | _) u ⟨hu, hsafe⟩
      · trivial
      · refine hstore hu fun v hv => ?_
        rw [hparent]
        refine acyclic_update ((hv hu).1.acyclic h₀) fun p' hp' n hn => ?_
        cases hp'
        exact safe_stable hcross hparent hu hv (hsafe rfl) ⟨n, hn⟩

theorem code_moves (h₀ : FolderTree t₀ orgId) (hcross : ¬ Crossing t₀ orgId m m') :
    (m.code orgId).Holds (Interferes t₀ orgId m') (Moves t₀ orgId m m') (fun _ _ => True) t₀ := by
  intro t hst
  have hs : Sees t₀ orgId m' t₀ := ⟨rfl, Or.inl rfl⟩
  obtain ⟨ht, -⟩ := hst hs
  refine ⟨ht.reads, ?_⟩
  show Prog.Holds _ _ _ (Prog.bind (.ret (t.findFolderByUid orgId m.uid)) _) t
  cases hfind : t.findFolderByUid orgId m.uid with
  | none => trivial
  | some existing =>
    have hrow : (existing.id, orgId, m.uid) ∈ rowKeys t₀ := ht.rows ▸ mem_rowKeys_of_find hfind
    dsimp only [Prog.bind]
    refine Prog.Holds.bind ((FolderService.reads_checkMove.moves ht).post ?_)
    rintro (e | _) u hu
    · trivial
    · refine Prog.Holds.bind ((repository_update_moves h₀ hcross hrow rfl hu).post ?_)
      rintro (e | updated) v -
      · trivial
      · cases updated <;> trivial

end Thread

/-! ## The two calls -/

def onlySteps {σ Op α : Type} (_ : Config σ Op α) (l : Label Op) : Prop := ∃ i, l = .step i

def twoMoves (t₀ : Tables) (orgId : String) (moves : Bool → MoveCall) :
    Config Tables Bool Folder where
  st := t₀
  threads := [⟨false, (moves false).code orgId⟩, ⟨true, (moves true).code orgId⟩]

section Pair

variable {t₀ : Tables} {orgId : String} {moves : Bool → MoveCall}

theorem not_crossing_pair (hcross : ¬ Crossing t₀ orgId (moves false) (moves true)) (o : Bool) :
    ¬ Crossing t₀ orgId (moves o) (moves !o) := by
  cases o with
  | false => exact hcross
  | true => exact fun h => hcross h.symm

theorem pair_ops {c : Config Tables Bool Folder}
    (hrun : Run (fun o => (moves o).code orgId) onlySteps (twoMoves t₀ orgId moves) c) :
    c.threads.map (·.op) = [false, true] := by
  induction hrun with
  | init => rfl
  | tail l _ hok hn ih =>
    obtain ⟨i, rfl⟩ := hok
    rw [Config.next_step_ops hn, ih]

theorem op_of_ne {ops : List Bool} (h : ops = [false, true]) {i j : ℕ} {o o' : Bool} (hij : j ≠ i)
    (hi : ops[i]? = some o) (hj : ops[j]? = some o') : o' = !o := by
  subst h
  match i, j with
  | 0, 0 => exact absurd rfl hij
  | 0, 1 =>
    cases hi
    cases hj
    rfl
  | 1, 0 =>
    cases hi
    cases hj
    rfl
  | 1, 1 => exact absurd rfl hij
  | i + 2, _ => simp at hi
  | _, j + 2 => simp at hj

theorem pair_moves (h₀ : FolderTree t₀ orgId)
    (hcross : ¬ Crossing t₀ orgId (moves false) (moves true)) {c : Config Tables Bool Folder}
    (hrun : Run (fun o => (moves o).code orgId) onlySteps (twoMoves t₀ orgId moves) c) :
    ∀ th ∈ c.threads, th.prog.Holds (Interferes t₀ orgId (moves !th.op))
      (Moves t₀ orgId (moves th.op) (moves !th.op)) (fun _ _ => True) c.st := by
  refine Run.rely_guarantee_from (R := fun o => Interferes t₀ orgId (moves !o))
    (G := fun o => Moves t₀ orgId (moves o) (moves !o)) (fun _ _ => Interferes.refl)
    (fun _ _ _ _ => Interferes.trans) ?_ ?_ ?_ hrun
  · rintro c o - ⟨i, hi⟩
    cases hi
  · intro c i o f k hr _ hall hi hg j th hij hj hunfinished
    have hop : th.op = !o := by
      refine op_of_ne (pair_ops hr) hij ?_ ?_
      · rw [List.getElem?_map, hi]
        rfl
      · rw [List.getElem?_map, hj]
        rfl
    have hother : moves (!th.op) = moves o := by rw [hop, Bool.not_not]
    -- the other thread has a section left, so it has not written yet
    have hth := hall th (List.mem_of_getElem? hj)
    have hsees : Sees t₀ orgId (moves o) c.st := by
      cases hprog : th.prog with
      | ret a =>
        rw [hprog] at hunfinished
        cases hunfinished
      | fail e =>
        rw [hprog] at hunfinished
        cases hunfinished
      | sect f' k' =>
        rw [hprog] at hth
        rw [← hother]
        exact (hth c.st Interferes.refl).1.1
    show Interferes t₀ orgId (moves !th.op) c.st (f c.st)
    rw [hother]
    exact hg.interferes hsees
  · intro th hth
    have hstart (o : Bool) := @code_moves t₀ orgId (moves o) (moves !o) h₀
      (not_crossing_pair hcross o)
    rcases List.mem_cons.mp hth with rfl | hth
    · exact hstart false
    · rw [List.mem_singleton.mp hth]
      exact hstart true

theorem pair_acyclic (h₀ : FolderTree t₀ orgId)
    (hcross : ¬ Crossing t₀ orgId (moves false) (moves true)) {c : Config Tables Bool Folder}
    (hrun : Run (fun o => (moves o).code orgId) onlySteps (twoMoves t₀ orgId moves) c) :
    rowKeys c.st = rowKeys t₀ ∧ Acyclic (parentOf c.st orgId) := by
  induction hrun with
  | init => exact ⟨rfl, h₀.acyclic⟩
  | tail l hr hok hn ih =>
    obtain ⟨i, rfl⟩ := hok
    obtain ⟨th, -, -, hrows, hlinks⟩ := Run.step_guarantee
      (R := fun o => Interferes t₀ orgId (moves !o))
      (G := fun o => Moves t₀ orgId (moves o) (moves !o)) (fun _ _ => Interferes.refl)
      (pair_moves h₀ hcross hr) hn
    refine ⟨hrows.trans ih.1, ?_⟩
    rcases hlinks with hsame | ⟨hmoved, hacyclic⟩
    · rw [hsame]
      exact ih.2
    · rw [hmoved]
      exact hacyclic

end Pair

/-- **Two moves at once.** However two moves in one org are interleaved, the parent links
of a tree stay acyclic and every subtree can be measured, as long as the moves do not
cross. The walk of the repository ends in any table: its depth is limited. -/
theorem concurrent_moves_keep_forest (t₀ : Tables) (orgId : String) (h₀ : FolderTree t₀ orgId)
    (moves : Bool → MoveCall) (hcross : ¬ Crossing t₀ orgId (moves false) (moves true))
    (c : Config Tables Bool Folder)
    (hrun : Run (fun o => (moves o).code orgId) onlySteps (twoMoves t₀ orgId moves) c) :
    Acyclic (parentOf c.st orgId) ∧
    ∀ uid fuel, c.st.folders.length < fuel →
      ∃ n, (FolderService.measureSubtreeDepth orgId fuel uid).run c.st = (.ok n, c.st) := by
  obtain ⟨hrows, hacyclic⟩ := pair_acyclic h₀ hcross hrun
  refine ⟨hacyclic, fun uid fuel hfuel => ?_⟩
  apply FolderService.measureSubtreeDepth_terminates (h₀.toFolderKeys.of_rowKeys hrows)
  intro x hx
  have hends : climb (parentOf c.st orgId) ((c.st.folders.map (·.uid)).length + 1) x = none := by
    refine climb_none_of_acyclic hacyclic (fun y z hlink => ?_) x
    obtain ⟨f, hf, -, rfl, -⟩ := parentOf_eq_some hlink
    exact List.mem_map_of_mem hf
  rw [List.length_map] at hends
  rw [climb_none_of_le hfuel hends] at hx
  cases hx

def threeFolders : Tables where
  orgs := ["org_main"]
  users := ["ann"]
  folders := [⟨"1", "a", "org_main", "A", none, none, "", "", none, none, .manual, none⟩,
    ⟨"2", "b", "org_main", "B", none, none, "", "", none, none, .manual, none⟩,
    ⟨"3", "c", "org_main", "C", none, none, "", "", none, none, .manual, none⟩]

def moveTo (uid parentUid : String) : MoveCall where
  fuel := 9
  now := "2026-01-02"
  uid := uid
  parentUid := some parentUid
  userId := "ann"

theorem threeFolders_tree : FolderTree threeFolders "org_main" := by
  refine FolderTree.of_roots ⟨by decide, by decide, ?_⟩ ?_
  · decide
  · decide

theorem allOk_steps {σ Op α : Type} {code : Op → Prog σ α} (is : List ℕ) :
    ∀ c : Config σ Op α, AllOk code onlySteps c (is.map .step) := by
  induction is with
  | nil => exact fun _ => trivial
  | cons i is ih => exact fun c => ⟨⟨i, rfl⟩, fun c' _ => ih c'⟩

/-- `a` and `b` both go under `c`, their sections in turn. -/
theorem concurrent_moves_keep_forest_siblings :
    ∃ c, Config.exec (fun o => (cond o (moveTo "b" "c") (moveTo "a" "c")).code "org_main")
        (twoMoves threeFolders "org_main" fun o => cond o (moveTo "b" "c") (moveTo "a" "c"))
        ([0, 1, 0, 1, 0, 1, 0, 1, 0, 1, 0, 1, 0, 1].map .step) = some c ∧
      parentOf c.st "org_main" "a" = some "c" ∧ parentOf c.st "org_main" "b" = some "c" ∧
      Acyclic (parentOf c.st "org_main") := by
  have hexec : (Config.exec (fun o => (cond o (moveTo "b" "c") (moveTo "a" "c")).code "org_main")
      (twoMoves threeFolders "org_main" fun o => cond o (moveTo "b" "c") (moveTo "a" "c"))
      ([0, 1, 0, 1, 0, 1, 0, 1, 0, 1, 0, 1, 0, 1].map .step)).map (fun c =>
        (parentOf c.st "org_main" "a", parentOf c.st "org_main" "b")) =
      some (some "c", some "c") := by decide +kernel
  obtain ⟨c, hc, hlinks⟩ := Option.map_eq_some_iff.mp hexec
  obtain ⟨ha, hb⟩ := Prod.mk.inj hlinks
  refine ⟨c, hc, ha, hb, ?_⟩
  refine (concurrent_moves_keep_forest threeFolders "org_main" threeFolders_tree
    (fun o => cond o (moveTo "b" "c") (moveTo "a" "c")) ?_ c
    (Run.of_exec .init (allOk_steps _ _) hc)).1
  rintro ⟨p, q, hp, hq, hunder, -⟩
  cases hp
  obtain ⟨n, hn⟩ := hunder
  have hroot : parentOf threeFolders "org_main" "c" = none := by decide
  cases n with
  | zero => exact absurd (Option.some.inj hn) (by decide)
  | succ n =>
    rw [climb_succ, hroot] at hn
    cases hn

/-- `a` goes under `b` while `b` goes under `a`: both checks pass before either write. -/
theorem crossing_moves_cycle :
    ¬ ∀ (t₀ : Tables) (orgId : String), FolderTree t₀ orgId → ∀ (moves : Bool → MoveCall)
      (c : Config Tables Bool Folder),
      Run (fun o => (moves o).code orgId) onlySteps (twoMoves t₀ orgId moves) c →
      Acyclic (parentOf c.st orgId) := by
  intro hall
  have hexec : (Config.exec (fun o => (cond o (moveTo "b" "a") (moveTo "a" "b")).code "org_main")
      (twoMoves threeFolders "org_main" fun o => cond o (moveTo "b" "a") (moveTo "a" "b"))
      ([0, 0, 0, 0, 0, 0, 1, 1, 1, 1, 1, 1, 1, 0].map .step)).map (fun c =>
        (parentOf c.st "org_main" "a", parentOf c.st "org_main" "b")) =
      some (some "b", some "a") := by decide +kernel
  obtain ⟨c, hc, hlinks⟩ := Option.map_eq_some_iff.mp hexec
  obtain ⟨ha, hb⟩ := Prod.mk.inj hlinks
  apply hall threeFolders "org_main" threeFolders_tree _ c
    (Run.of_exec .init (allOk_steps _ _) hc) "a"
  refine ⟨1, ?_⟩
  rw [climb_succ, ha]
  show climb _ 1 "b" = _
  rw [climb_one, hb]

end OpenObs.Folders
