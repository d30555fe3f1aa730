import OpenObs.Foundation.Json
import OpenObs.Foundation.Pool
import Mathlib.Data.List.MinMax
import Mathlib.Data.List.Nodup
import Mathlib.Data.List.Range

/-!
# Versions of an asset

`repository/sqlite/version.ts`. A recording reads the latest version of its asset and
inserts the next one in another section; the table has no constraint on the numbers.
-/

namespace OpenObs.DataLayer

open OpenObs.Foundation

/-! ## The table -/

inductive AssetType : Type where
  | dashboard
  | alertRule
  | investigationReport
deriving DecidableEq

inductive EditSource : Type where
  | human
  | llm
  | system

structure Asset where
  assetType : AssetType
  assetId : String
deriving DecidableEq

/-- A row of `asset_versions`; nothing writes `diff`. -/
structure AssetVersion where
  id : String
  asset : Asset
  version : ℕ
  snapshot : Json
  editedBy : String
  editSource : EditSource
  message : Option String
  createdAt : String

structure VersionTable where
  rows : List AssetVersion := []
  ids_unique : (rows.map (·.id)).Nodup := by simp

def versionsOf (asset : Asset) (t : VersionTable) : List AssetVersion :=
  t.rows.filter (·.asset = asset)

def VersionTable.insert (t : VersionTable) (row : AssetVersion) :
    Except String AssetVersion × VersionTable :=
  if h : row.id ∈ t.rows.map (·.id) then
    (.error "UNIQUE constraint failed: asset_versions.id", t)
  else
    (.ok row, {
      rows := t.rows ++ [row]
      ids_unique := by
        rw [List.map_append, List.nodup_append]
        refine ⟨t.ids_unique, List.nodup_singleton _, ?_⟩
        rintro id hid id' hid' rfl
        rw [List.mem_singleton.mp hid'] at hid
        exact h hid })

/-! ## The repository -/

/-- The arguments of `record`, the id it draws and the time it reads. -/
structure Recording where
  asset : Asset
  snapshot : Json
  editedBy : String
  editSource : EditSource
  message : Option String := none
  uid : String
  now : String

def Recording.row (r : Recording) (version : ℕ) : AssetVersion :=
  { id := r.uid, asset := r.asset, version, snapshot := r.snapshot, editedBy := r.editedBy
    editSource := r.editSource, message := r.message, createdAt := r.now }

namespace VersionRepository

/-- `ORDER BY version DESC LIMIT 1`. -/
def getLatest (asset : Asset) : Prog VersionTable (Option AssetVersion) :=
  Prog.read fun t => (versionsOf asset t).argmax (·.version)

def nextVersion : Option AssetVersion → ℕ
  | some latest => latest.version + 1
  | none => 1

def insertVersion (r : Recording) (version : ℕ) : Prog VersionTable AssetVersion :=
  Prog.attempt fun t => t.insert (r.row version)

def record (r : Recording) : Prog VersionTable AssetVersion := do
  let latest ← getLatest r.asset
  insertVersion r (nextVersion latest)

def getVersion (asset : Asset) (version : ℕ) : Prog VersionTable (Option AssetVersion) :=
  Prog.read fun t => (versionsOf asset t).find? (·.version = version)

def rollback (asset : Asset) (version : ℕ) : Prog VersionTable (Option Json) := do
  let entry ← getVersion asset version
  pure (entry.map (·.snapshot))

end VersionRepository

open VersionRepository

/-! ## Numbers -/

def Numbered (asset : Asset) (t : VersionTable) : Prop :=
  (versionsOf asset t).map (·.version) = List.range' 1 (versionsOf asset t).length

section Numbers

variable {asset : Asset} {t : VersionTable} {r : Recording} {row : AssetVersion} {n : ℕ}

theorem mem_versionsOf : row ∈ versionsOf asset t ↔ row ∈ t.rows ∧ row.asset = asset := by
  simp [versionsOf]

theorem Numbered.next (h : Numbered asset t) :
    nextVersion ((versionsOf asset t).argmax (·.version)) = (versionsOf asset t).length + 1 := by
  have hbound : ∀ row ∈ versionsOf asset t, row.version ≤ (versionsOf asset t).length := by
    intro row hrow
    have hmem : row.version ∈ (versionsOf asset t).map (·.version) := List.mem_map_of_mem hrow
    rw [h, List.mem_range'_1] at hmem
    omega
  cases hlatest : (versionsOf asset t).argmax (·.version) with
  | none =>
    rw [List.argmax_eq_none.mp hlatest]
    rfl
  | some latest =>
    have hmem := List.argmax_mem (Option.mem_def.mpr hlatest)
    have hpos : 0 < (versionsOf asset t).length := List.length_pos_of_mem hmem
    have hlast : (versionsOf asset t).length ∈ (versionsOf asset t).map (·.version) := by
      rw [h, List.mem_range'_1]
      omega
    obtain ⟨row, hrow, hversion⟩ := List.mem_map.mp hlast
    have hle := List.le_of_mem_argmax hrow (Option.mem_def.mpr hlatest)
    have hge := hbound latest hmem
    show latest.version + 1 = _
    omega

theorem Numbered.unique (h : Numbered asset t) {row' : AssetVersion}
    (hrow : row ∈ versionsOf asset t) (hrow' : row' ∈ versionsOf asset t)
    (hsame : row.version = row'.version) : row = row' := by
  have hnodup : ((versionsOf asset t).map (·.version)).Nodup := by
    rw [h]
    exact List.nodup_range'
  exact List.inj_on_of_nodup_map hnodup hrow hrow' hsame

theorem Numbered.find (h : Numbered asset t) (hrow : row ∈ versionsOf asset t) :
    (versionsOf asset t).find? (·.version = row.version) = some row := by
  cases hfind : (versionsOf asset t).find? (·.version = row.version) with
  | none =>
    have hnot := List.find?_eq_none.mp hfind row hrow
    simp at hnot
  | some row' =>
    have hsame : row'.version = row.version := by simpa using List.find?_some hfind
    rw [h.unique (List.mem_of_find?_eq_some hfind) hrow hsame]

theorem insert_cases (t : VersionTable) (row : AssetVersion) :
    (∃ e, t.insert row = (.error e, t)) ∨
      ∃ t', t.insert row = (.ok row, t') ∧ t'.rows = t.rows ++ [row] := by
  unfold VersionTable.insert
  split
  · exact Or.inl ⟨_, rfl⟩
  · exact Or.inr ⟨_, rfl, rfl⟩

end Numbers

/-! ## Recordings that overlap -/

inductive Stands (asset : Asset) (t : VersionTable) (r : Recording) :
    Prog VersionTable AssetVersion → Prop
  | fresh : Stands asset t r (record r)
  | inserting (version : ℕ)
      (hnext : r.asset = asset → version = (versionsOf asset t).length + 1) :
      Stands asset t r (insertVersion r version)
  | failed (e : String) : Stands asset t r (.fail e)
  | recorded (version : ℕ) (hrow : r.row version ∈ t.rows) :
      Stands asset t r (.ret (r.row version))

/-- The versions of the asset change only while every other recording of it has yet to begin or
is through. -/
def RecordsInTurn (asset : Asset) (c : Config VersionTable Recording AssetVersion)
    (l : Label Recording) : Prop :=
  ∀ i c', l = .step i → c.next record l = some c' →
    versionsOf asset c'.st ≠ versionsOf asset c.st →
    ∀ j th, j ≠ i → c.threads[j]? = some th → th.op.asset = asset →
      th.prog = record th.op ∨ th.prog.finished = true

def Once (asset : Asset) (c : Config VersionTable Recording AssetVersion) : Prop :=
  ∀ (i j : ℕ) (th th' : Thread VersionTable Recording AssetVersion) (v v' : AssetVersion),
    c.threads[i]? = some th → c.threads[j]? = some th' → th.op.asset = asset →
    th'.op.asset = asset → th.prog = .ret v → th'.prog = .ret v' → v.version = v'.version → i = j

def Complete (asset : Asset) (t₀ : VersionTable)
    (c : Config VersionTable Recording AssetVersion) : Prop :=
  ∀ v ∈ versionsOf asset c.st, v ∈ versionsOf asset t₀ ∨
    ∃ th ∈ c.threads, th.op.asset = asset ∧ th.prog = .ret v

/-- The versions of the asset are numbered without gaps, each is that of one recording, and its
number finds it. -/
structure Identified (asset : Asset) (t₀ : VersionTable)
    (c : Config VersionTable Recording AssetVersion) : Prop where
  numbered : Numbered asset c.st
  once : Once asset c
  complete : Complete asset t₀ c
  assigned : ∀ th ∈ c.threads, ∀ v, th.op.asset = asset → th.prog = .ret v →
    v.snapshot = th.op.snapshot ∧ (getVersion asset v.version).run c.st = (.ok (some v), c.st) ∧
      (rollback asset v.version).run c.st = (.ok (some th.op.snapshot), c.st)

structure Standing (asset : Asset) (t₀ : VersionTable)
    (c : Config VersionTable Recording AssetVersion) : Prop where
  numbered : Numbered asset c.st
  once : Once asset c
  complete : Complete asset t₀ c
  stands : ∀ th ∈ c.threads, Stands asset c.st th.op th.prog

section Pool

variable {asset : Asset} {t t' t₀ : VersionTable} {r : Recording} {n : ℕ}
  {c c' : Config VersionTable Recording AssetVersion}
  {f : VersionTable → VersionTable} {k : VersionTable → Prog VersionTable AssetVersion}

theorem record_section (h : record r = .sect f k) (t : VersionTable) :
    f t = t ∧ k t = insertVersion r (nextVersion ((versionsOf r.asset t).argmax (·.version))) := by
  cases h
  exact ⟨rfl, rfl⟩

theorem insert_section (h : insertVersion r n = .sect f k) (t : VersionTable) :
    f t = (t.insert (r.row n)).2 ∧ k t = match (t.insert (r.row n)).1 with
      | .ok v => .ret v
      | .error e => .fail e := by
  cases h
  refine ⟨rfl, ?_⟩
  dsimp only
  cases (t.insert (r.row n)).1 <;> rfl

theorem insertVersion_ne_record : insertVersion r n ≠ record r := by
  intro heq
  have hinsert := (insert_section (f := id) (k := fun t =>
    insertVersion r (nextVersion ((versionsOf r.asset t).argmax (·.version)))) heq {}).1
  have hrows := congrArg (·.rows) hinsert
  simp [VersionTable.insert] at hrows

theorem Stands.grow {prog : Prog VersionTable AssetVersion} (h : Stands asset t r prog)
    (hrows : ∀ v ∈ t.rows, v ∈ t'.rows)
    (hsame : versionsOf asset t' = versionsOf asset t ∨ r.asset ≠ asset ∨ prog = record r ∨
      prog.finished = true) : Stands asset t' r prog := by
  cases h with
  | fresh => exact .fresh
  | inserting version hnext =>
    refine .inserting version fun hasset => ?_
    rcases hsame with hsame | hother | hfresh | hdone
    · rw [hsame]
      exact hnext hasset
    · exact absurd hasset hother
    · exact absurd hfresh insertVersion_ne_record
    · cases hdone
  | failed e => exact .failed e
  | recorded version hrow => exact .recorded version (hrows _ hrow)

theorem versionsOf_append {row : AssetVersion} (h : t'.rows = t.rows ++ [row]) :
    versionsOf asset t' = versionsOf asset t ++ if row.asset = asset then [row] else [] := by
  rw [versionsOf, h, List.filter_append, List.filter_singleton]
  by_cases hasset : row.asset = asset <;> simp [hasset, versionsOf]

theorem Numbered.append (h : Numbered asset t) {row : AssetVersion}
    (hrows : t'.rows = t.rows ++ [row])
    (hnext : row.asset = asset → row.version = (versionsOf asset t).length + 1) :
    Numbered asset t' := by
  rw [Numbered, versionsOf_append hrows]
  split
  · rename_i hasset
    rw [List.map_append, List.map_singleton, hnext hasset, h, List.length_append,
      List.length_singleton, List.range'_1_concat, Nat.add_comm 1]
  · simpa [Numbered] using h

theorem Standing.start (h : Standing asset t₀ c) {r : Recording}
    (hn : c.next record (.start r) = some c') : Standing asset t₀ c' := by
  obtain ⟨hst, hth⟩ := Config.next_start hn
  obtain ⟨-, hnew⟩ := Config.next_start_threads hn
  have hold : ∀ (j : ℕ) (th : Thread VersionTable Recording AssetVersion) (v : AssetVersion),
      c'.threads[j]? = some th → th.prog = .ret v → c.threads[j]? = some th := by
    intro j th v hj hret
    rcases hnew j th hj with hj | rfl
    · exact hj
    · cases hret
  refine ⟨hst ▸ h.numbered, ?_, fun v hv => ?_, fun th hmem => ?_⟩
  · intro i j th th' v v' hi hj hth hth' hret hret'
    exact h.once i j th th' v v' (hold i th v hi hret) (hold j th' v' hj hret') hth hth' hret hret'
  · rw [hst] at hv
    refine (h.complete v hv).imp_right fun ⟨th, hmem, hrest⟩ => ⟨th, ?_, hrest⟩
    rw [hth]
    exact List.mem_append_left _ hmem
  · rw [hst]
    rcases Config.mem_of_next_start hn hmem with hmem | rfl
    · exact h.stands th hmem
    · exact .fresh

theorem Standing.quiet (h : Standing asset t₀ c) {i : ℕ} {r : Recording}
    {prog : Prog VersionTable AssetVersion} (hst : c'.st = c.st)
    (hi : c.threads[i]? = some ⟨r, .sect f k⟩) (hi' : c'.threads[i]? = some ⟨r, prog⟩)
    (hother : ∀ j, j ≠ i → c'.threads[j]? = c.threads[j]?) (hprog : Stands asset c.st r prog)
    (hnot : ∀ v, prog ≠ .ret v) : Standing asset t₀ c' := by
  have hold : ∀ (j : ℕ) (th : Thread VersionTable Recording AssetVersion) (v : AssetVersion),
      c'.threads[j]? = some th → th.prog = .ret v → c.threads[j]? = some th := by
    intro j th v hj hret
    by_cases hji : j = i
    · subst hji
      cases hi'.symm.trans hj
      exact absurd hret (hnot v)
    · exact (hother j hji).symm.trans hj
  refine ⟨hst ▸ h.numbered, ?_, fun v hv => ?_, fun th hmem => ?_⟩
  · intro i j th th' v v' hi hj hth hth' hret hret'
    exact h.once i j th th' v v' (hold i th v hi hret) (hold j th' v' hj hret') hth hth' hret hret'
  · rw [hst] at hv
    refine (h.complete v hv).imp_right fun ⟨th, hmem, hth, hret⟩ =>
      ⟨th, Config.mem_of_unmoved hi hother hmem ?_, hth, hret⟩
    rintro rfl
    cases hret
  · rw [hst]
    rcases Config.mem_of_moved hi' hother hmem with rfl | ⟨j, -, hj⟩
    · exact hprog
    · exact h.stands th (List.mem_of_getElem? hj)

theorem Standing.insert (h : Standing asset t₀ c) {i : ℕ} {r : Recording}
    (hrows : c'.st.rows = c.st.rows ++ [r.row n])
    (hnext : r.asset = asset → n = (versionsOf asset c.st).length + 1)
    (hi : c.threads[i]? = some ⟨r, .sect f k⟩) (hi' : c'.threads[i]? = some ⟨r, .ret (r.row n)⟩)
    (hother : ∀ j, j ≠ i → c'.threads[j]? = c.threads[j]?)
    (hturn : versionsOf asset c'.st ≠ versionsOf asset c.st →
      ∀ j th, j ≠ i → c.threads[j]? = some th → th.op.asset = asset →
        th.prog = record th.op ∨ th.prog.finished = true) : Standing asset t₀ c' := by
  have hgrow : ∀ v ∈ c.st.rows, v ∈ c'.st.rows := by
    intro v hv
    rw [hrows]
    exact List.mem_append_left _ hv
  -- what came back before has a smaller number
  have hbefore : ∀ (j : ℕ) (th : Thread VersionTable Recording AssetVersion) (v : AssetVersion),
      j ≠ i → c'.threads[j]? = some th → th.op.asset = asset → th.prog = .ret v →
      v.version ≤ (versionsOf asset c.st).length := by
    intro j th v hji hj hth hret
    rw [hother j hji] at hj
    have hstands := h.stands th (List.mem_of_getElem? hj)
    rw [hret] at hstands
    cases hstands with
    | recorded version hrow =>
      have hmem : version ∈ (versionsOf asset c.st).map (·.version) :=
        List.mem_map.mpr ⟨_, mem_versionsOf.mpr ⟨hrow, hth⟩, rfl⟩
      rw [h.numbered, List.mem_range'_1] at hmem
      show version ≤ _
      omega
  constructor
  case numbered => exact h.numbered.append hrows hnext
  case once =>
    intro j j' th th' v v' hj hj' hth hth' hret hret' hsame
    by_cases hji : j = i <;> by_cases hji' : j' = i
    · rw [hji, hji']
    · subst hji
      cases hi'.symm.trans hj
      cases hret
      have hle := hbefore j' th' v' hji' hj' hth' hret'
      have hn : n = v'.version := hsame
      have := hnext hth
      omega
    · subst hji'
      cases hi'.symm.trans hj'
      cases hret'
      have hle := hbefore j th v hji hj hth hret
      have hn : v.version = n := hsame
      have := hnext hth'
      omega
    · rw [hother j hji] at hj
      rw [hother j' hji'] at hj'
      exact h.once j j' th th' v v' hj hj' hth hth' hret hret' hsame
  case complete =>
    intro v hv
    obtain ⟨hv, hasset⟩ := mem_versionsOf.mp hv
    rw [hrows, List.mem_append, List.mem_singleton] at hv
    rcases hv with hv | rfl
    · refine (h.complete v (mem_versionsOf.mpr ⟨hv, hasset⟩)).imp_right ?_
      rintro ⟨th, hmem, hth, hret⟩
      refine ⟨th, Config.mem_of_unmoved hi hother hmem ?_, hth, hret⟩
      rintro rfl
      cases hret
    · exact Or.inr ⟨_, List.mem_of_getElem? hi', hasset, rfl⟩
  case stands =>
    intro th hmem
    rcases Config.mem_of_moved hi' hother hmem with rfl | ⟨j, hji, hj⟩
    · refine .recorded n ?_
      rw [hrows]
      exact List.mem_append_right _ (List.mem_singleton_self _)
    · refine (h.stands th (List.mem_of_getElem? hj)).grow hgrow ?_
      -- whoever has read the latest version of the asset would be out of turn
      by_cases hsame : versionsOf asset c'.st = versionsOf asset c.st
      · exact Or.inl hsame
      · by_cases hth : th.op.asset = asset
        · exact Or.inr (Or.inr (hturn hsame j th hji hj hth))
        · exact Or.inr (Or.inl hth)

theorem Standing.step (h : Standing asset t₀ c) {i : ℕ} (hok : RecordsInTurn asset c (.step i))
    (hn : c.next record (.step i) = some c') : Standing asset t₀ c' := by
  obtain ⟨r, f, k, hi, hst, hi', hother⟩ := Config.next_step_threads hn
  have hstands := h.stands _ (List.mem_of_getElem? hi)
  change Stands asset c.st r (.sect f k) at hstands
  generalize hprog : Prog.sect f k = prog at hstands
  cases hstands with
  | fresh =>
    obtain ⟨hf, hk⟩ := record_section hprog.symm c.st
    rw [hf] at hst
    rw [hk] at hi'
    refine h.quiet hst hi hi' hother (.inserting _ ?_) (fun v hv => by cases hv)
    rintro rfl
    exact h.numbered.next
  | inserting version hnext =>
    obtain ⟨hf, hk⟩ := insert_section hprog.symm c.st
    rcases insert_cases c.st (r.row version) with ⟨e, herr⟩ | ⟨t', hok', hrows⟩
    · rw [herr] at hf hk
      rw [hf] at hst
      rw [hk] at hi'
      exact h.quiet hst hi hi' hother (.failed e) (fun v hv => by cases hv)
    · rw [hok'] at hf hk
      rw [hf] at hst
      rw [hk] at hi'
      refine h.insert ?_ hnext hi hi' hother (hok i c' rfl hn)
      rw [hst]
      exact hrows
  | failed e => cases hprog
  | recorded version hrow => cases hprog

/-- **Versions.** Where recordings of an asset take turns, its versions are numbered without
gaps, and each number finds what its recording has stored. -/
theorem versions_identified (asset : Asset) (t₀ : VersionTable) (h₀ : Numbered asset t₀)
    (c : Config VersionTable Recording AssetVersion)
    (h : Run record (RecordsInTurn asset) ⟨t₀, []⟩ c) : Identified asset t₀ c := by
  have hstanding : Standing asset t₀ c := by
    induction h with
    | init =>
      refine ⟨h₀, fun i j th th' v v' hi => ?_, fun v hv => Or.inl hv, fun th hmem => ?_⟩
      · cases hi
      · cases hmem
    | tail l _ hok hn ih =>
      cases l with
      | start r => exact ih.start hn
      | step i => exact ih.step hok hn
  refine ⟨hstanding.numbered, hstanding.once, hstanding.complete, fun th hmem v hth hret => ?_⟩
  have hstands := hstanding.stands th hmem
  rw [hret] at hstands
  cases hstands with
  | recorded version hrow =>
    have hfind := hstanding.numbered.find (mem_versionsOf.mpr ⟨hrow, hth⟩)
    refine ⟨rfl, ?_, ?_⟩
    · rw [getVersion, Prog.run_read, hfind]
    · rw [rollback, Prog.run_bind, getVersion, Prog.run_read, hfind]
      rfl

end Pool

/-! ## Two recordings of a dashboard -/

def webDashboard : Asset := ⟨.dashboard, "web"⟩

def recordWeb (uid : String) (state : ℤ) : Recording :=
  { asset := webDashboard, snapshot := .num state, editedBy := "llm", editSource := .llm, uid
    now := "2024-01-01" }

/-- One recording has the number 1. -/
theorem versions_identified_once : ∃ c,
    Run record (RecordsInTurn webDashboard) ⟨{}, []⟩ c ∧ Identified webDashboard {} c ∧
      c.st.rows.map (·.version) = [1] := by
  obtain ⟨c, hexec⟩ : ∃ c, Config.exec record ⟨{}, []⟩
      [.start (recordWeb "a" 1), .step 0, .step 0] = some c := ⟨_, rfl⟩
  have halone : ∀ {t : VersionTable} {th : Thread VersionTable Recording AssetVersion},
      RecordsInTurn webDashboard ⟨t, [th]⟩ (.step 0) := by
    rintro t th i c' ⟨⟩ - - j th' hj hth' -
    obtain ⟨hlt, -⟩ := List.getElem?_eq_some_iff.mp hth'
    exact absurd (Nat.lt_one_iff.mp hlt) hj
  have hrun : Run record (RecordsInTurn webDashboard) ⟨{}, []⟩ c := by
    refine Run.of_exec .init ?_ hexec
    refine ⟨by rintro i c' ⟨⟩, ?_⟩
    rintro c' ⟨⟩
    iterate 2
      refine ⟨halone, ?_⟩
      rintro c' ⟨⟩
    trivial
  refine ⟨c, hrun, versions_identified webDashboard {} rfl c hrun, ?_⟩
  cases hexec
  decide +kernel

/-- Two recordings that read the latest version before either inserts have one number. -/
theorem version_number_twice :
    ¬ ∀ (asset : Asset) (t₀ : VersionTable), Numbered asset t₀ →
      ∀ c, Run record (fun _ _ => True) ⟨t₀, []⟩ c → Identified asset t₀ c := by
  intro hall
  obtain ⟨c, hexec⟩ : ∃ c, Config.exec record ⟨{}, []⟩
      [.start (recordWeb "a" 1), .start (recordWeb "b" 2), .step 0, .step 1, .step 0, .step 1] =
        some c := ⟨_, rfl⟩
  have hidentified := hall webDashboard {} rfl c
    (.of_exec .init (allOk_of_forall (fun _ _ => trivial) _ _) hexec)
  have hnumbered := hidentified.numbered
  cases hexec
  exact absurd hnumbered (by rw [Numbered]; decide +kernel)

end OpenObs.DataLayer
