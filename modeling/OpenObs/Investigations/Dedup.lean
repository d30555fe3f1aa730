import OpenObs.Investigations.WriteBack

/-!
# One run of a rule at a time

`shouldRun` of `services/auto-investigation-consumer.ts` reads the link of a rule, which
`finalizeInvestigation` writes once the agent is through.
-/

namespace OpenObs.Investigations

open OpenObs.Foundation AutoInvestigationConsumer

/-! ## Seen from a rule -/

/-- No two agents run for the rule, and none began within the cooldown of the last update of the
investigation of the run before. -/
structure Deduped (o : AutoInvestigationConsumer) (ruleId : String) (s : Desk) : Prop where
  one : s.running.count ruleId ≤ 1
  cooled : ∀ st ∈ s.starts, st.ruleId = ruleId →
    ∀ updatedAt, st.previous = some updatedAt → updatedAt + o.cooldownMs < st.startedAt

/-- The rule is there, `n` agents run for it, and it is linked to the investigation of its last
run. -/
structure Settled (ruleId : String) (n : ℕ) (s : Desk) : Prop where
  rule : (s.findRule ruleId).isSome
  running : s.running.count ruleId = n
  linked : ∀ x, s.last ruleId = some x → s.link ruleId = some x.id ∧ x.id ≠ ""

def Due (o : AutoInvestigationConsumer) (ruleId : String) (s : Desk) : Prop :=
  ∀ x, s.last ruleId = some x → o.cooldownMs < s.clock - x.updatedAt

structure Unmade (d : Delivery) (n : ℕ) (s : Desk) : Prop where
  settled : Settled d.ruleId n s
  absent : s.investigations.rows.filter (·.id ∈ d.own) = []

structure Made (d : Delivery) (orgId : String) (startedAt : ℤ) (n : ℕ) (s : Desk) : Prop where
  rule : (s.findRule d.ruleId).isSome
  running : s.running.count d.ruleId = n
  row : ∃ x, s.last d.ruleId = some x ∧ x.id ∈ d.own ∧ x.workspaceId = some orgId ∧
    x.archived = false ∧ startedAt ≤ x.createdAt

structure Aside (ruleId : String) (own : List String) (s t : Desk) : Prop where
  clock : s.clock ≤ t.clock
  rule : (t.findRule ruleId).isSome = (s.findRule ruleId).isSome
  link : t.link ruleId = s.link ruleId
  rows : t.investigations.rows.filter (·.startedBy = some ruleId) =
    s.investigations.rows.filter (·.startedBy = some ruleId)
  own : t.investigations.rows.filter (·.id ∈ own) = s.investigations.rows.filter (·.id ∈ own)
  running : t.running.count ruleId = s.running.count ruleId
  starts : t.starts.filter (·.ruleId = ruleId) = s.starts.filter (·.ruleId = ruleId)

section Views

variable {o : AutoInvestigationConsumer} {d : Delivery} {ruleId orgId : String}
  {own : List String} {startedAt : ℤ} {n : ℕ} {s t u : Desk} {x : Investigation}

theorem Aside.refl (s : Desk) : Aside ruleId own s s :=
  ⟨Int.le_refl _, rfl, rfl, rfl, rfl, rfl, rfl⟩

theorem Aside.trans (h : Aside ruleId own s t) (h' : Aside ruleId own t u) :
    Aside ruleId own s u where
  clock := Int.le_trans h.clock h'.clock
  rule := h'.rule.trans h.rule
  link := h'.link.trans h.link
  rows := h'.rows.trans h.rows
  own := h'.own.trans h.own
  running := h'.running.trans h.running
  starts := h'.starts.trans h.starts

theorem Aside.last (h : Aside ruleId own s t) : t.last ruleId = s.last ruleId :=
  congrArg List.getLast? h.rows

theorem Settled.aside (hs : Settled ruleId n s) (h : Aside ruleId own s t) :
    Settled ruleId n t where
  rule := by
    rw [h.rule]
    exact hs.rule
  running := h.running.trans hs.running
  linked x hx := by
    rw [h.link]
    exact hs.linked x (h.last ▸ hx)

theorem Due.aside (hs : Due o ruleId s) (h : Aside ruleId own s t) : Due o ruleId t := by
  intro x hx
  have hdue := hs x (h.last ▸ hx)
  have hclock := h.clock
  omega

theorem Unmade.aside (hs : Unmade d n s) (h : Aside d.ruleId d.own s t) : Unmade d n t :=
  ⟨hs.settled.aside h, h.own.trans hs.absent⟩

theorem Made.aside (hs : Made d orgId startedAt n s) (h : Aside d.ruleId d.own s t) :
    Made d orgId startedAt n t where
  rule := by
    rw [h.rule]
    exact hs.rule
  running := h.running.trans hs.running
  row := by
    rw [h.last]
    exact hs.row

theorem Deduped.aside (hs : Deduped o ruleId s) (h : Aside ruleId own s t) :
    Deduped o ruleId t where
  one := h.running.trans_le hs.one
  cooled st hst hrule := by
    have hmem : st ∈ t.starts.filter (·.ruleId = ruleId) :=
      List.mem_filter.mpr ⟨hst, by simpa using hrule⟩
    rw [h.starts] at hmem
    exact hs.cooled st (List.mem_filter.mp hmem).1 hrule

theorem mem_of_last (h : s.last ruleId = some x) :
    x ∈ s.investigations.rows ∧ x.startedBy = some ruleId := by
  obtain ⟨hmem, hstarted⟩ := List.mem_filter.mp (List.mem_of_getLast? h)
  exact ⟨hmem, by simpa using hstarted⟩

theorem find_last (h : s.last ruleId = some x) : s.investigations.find x.id = some x :=
  InvestigationTable.find_eq_some_iff.mpr ⟨(mem_of_last h).1, rfl⟩

theorem last_setStatus (id : String) (status : InvestigationStatus) (now : ℤ) :
    ({ s with investigations := s.investigations.setStatus id status now } : Desk).last ruleId =
      (s.last ruleId).map (InvestigationTable.touch id status now) := by
  show ((s.investigations.rows.map _).filter _).getLast? = _
  have hsame : (fun r : Investigation => decide (r.startedBy = some ruleId)) ∘
      InvestigationTable.touch id status now = fun r => decide (r.startedBy = some ruleId) := by
    funext r
    simp
  rw [List.filter_map, hsame, List.getLast?_map]
  rfl

theorem last_insert {row : Investigation} (hid : row.id ∉ s.investigations.rows.map (·.id))
    (hrow : row.startedBy = some ruleId) :
    ({ s with investigations := s.investigations.insert row } : Desk).last ruleId = some row := by
  show ((s.investigations.insert row).rows.filter _).getLast? = _
  rw [InvestigationTable.rows_insert, if_neg hid, List.filter_append, List.filter_singleton]
  simp [hrow]

theorem Made.setStatus (h : Made d orgId startedAt n s) (id : String)
    (status : InvestigationStatus) (now : ℤ) : Made d orgId startedAt n
      { s with investigations := s.investigations.setStatus id status now } := by
  refine ⟨h.rule, h.running, ?_⟩
  obtain ⟨x, hlast, hown, hworkspace, harchived, hsince⟩ := h.row
  refine ⟨InvestigationTable.touch id status now x, ?_, ?_⟩
  · rw [last_setStatus, hlast]
    rfl
  · simp [hown, hworkspace, harchived, hsince]

end Views

/-! ## One delivery -/

def Keeps (o : AutoInvestigationConsumer) (ruleId : String) (s t : Desk) : Prop :=
  Deduped o ruleId s → Deduped o ruleId t

section Sections

variable {o : AutoInvestigationConsumer} {d : Delivery} {orgId : String} {startedAt : ℤ} {n : ℕ}
  {s : Desk} {inv : Investigation}

theorem shouldRun_due (hs : Settled d.ruleId n s) :
    (o.shouldRun d.ruleId).Holds (Aside d.ruleId d.own) (Keeps o d.ruleId)
      (fun r t => Aside d.ruleId d.own s t ∧ (r = .ok true → Due o d.ruleId t)) s := by
  refine Prog.holds_read_bind.mpr fun t₁ h₁ => ⟨id, ?_⟩
  have hlinked := (hs.aside h₁).linked
  split
  · rename_i hnone
    refine ⟨h₁, fun _ x hx => ?_⟩
    obtain ⟨hlink, hid⟩ := hlinked x hx
    change (t₁.link d.ruleId).filter _ = none at hnone
    rw [hlink] at hnone
    simp [hid] at hnone
  · rename_i investigationId hsome
    change (t₁.link d.ruleId).filter _ = some investigationId at hsome
    refine Prog.holds_read_bind.mpr fun t₂ h₂ => ⟨id, ?_⟩
    -- what was read is the last one, if there is a last one
    have hread : ∀ x, t₂.last d.ruleId = some x →
        t₂.investigations.find investigationId = some x := by
      intro x hx
      rw [(hlinked x (h₂.last ▸ hx)).1] at hsome
      obtain ⟨hsame, -⟩ := Option.filter_eq_some_iff.mp hsome
      cases hsame
      exact find_last hx
    split
    · rename_i hnone
      refine ⟨h₁.trans h₂, fun _ x hx => ?_⟩
      rw [hread x hx] at hnone
      cases hnone
    · rename_i inv hinv
      split
      · exact ⟨h₁.trans h₂, fun hok => by cases hok⟩
      · refine Prog.holds_read_bind.mpr fun t₃ h₃ => ⟨id, (h₁.trans h₂).trans h₃, fun hok x hx => ?_⟩
        rw [hread x (h₃.last ▸ hx)] at hinv
        cases hinv
        exact of_decide_eq_true (Except.ok.inj hok)

theorem startRun_unmade (hs : Unmade d 0 s) (hdue : Due o d.ruleId s) :
    (startRun d).Holds (Aside d.ruleId d.own) (Keeps o d.ruleId)
      (fun r t => ∃ startedAt, r = .ok startedAt ∧ Unmade d 1 t ∧ startedAt ≤ t.clock) s := by
  refine Prog.holds_atomic.mpr fun t h => ?_
  have ht := hs.aside h
  have hone : (d.ruleId :: t.running).count d.ruleId = 1 := by
    rw [List.count_cons_self, ht.settled.running]
  refine ⟨fun hd => ⟨hone.le, fun st hst hrule updatedAt hprevious => ?_⟩, t.clock, rfl,
    ⟨⟨ht.settled.rule, hone, ht.settled.linked⟩, ht.absent⟩, Int.le_refl _⟩
  rcases List.mem_append.mp hst with hst | hst
  · exact hd.cooled st hst hrule updatedAt hprevious
  · rw [List.mem_singleton] at hst
    subst hst
    obtain ⟨x, hx, rfl⟩ := Option.map_eq_some_iff.mp hprevious
    have hover := hdue.aside h x hx
    dsimp only
    omega

theorem updateStatus_made (h : Made d orgId startedAt n s) (id : String)
    (status : InvestigationStatus) :
    (updateStatus id status).Holds (Aside d.ruleId d.own) (Keeps o d.ruleId)
      (fun r t => r = .ok () ∧ Made d orgId startedAt n t) s := by
  refine Prog.holds_read_bind.mpr fun t₁ h₁ => ⟨fun h => h, ?_⟩
  cases t₁.investigations.find id with
  | none => exact ⟨rfl, h.aside h₁⟩
  | some _ =>
    exact Prog.holds_write.mpr fun t₂ h₂ => ⟨fun h => ⟨h.one, h.cooled⟩,
      rfl, ((h.aside h₁).aside h₂).setStatus id status t₂.clock⟩

theorem runAgent_made (acts : List AgentAct) (hacts : acts.filterMap AgentAct.created = []) :
    ∀ (active : Option String) (s : Desk), Made d orgId startedAt n s →
      (runAgent d orgId acts active).Holds (Aside d.ruleId d.own) (Keeps o d.ruleId)
        (fun r t => r = .ok () ∧ Made d orgId startedAt n t) s := by
  induction acts with
  | nil => exact fun _ _ h => ⟨rfl, h⟩
  | cons act rest ih =>
    intro active s h
    cases act with
    | create uuid => simp [AgentAct.created] at hacts
    | setStatus status =>
      have hrest := ih hacts
      cases active with
      | none => exact hrest none s h
      | some id =>
        refine Prog.Holds.bind ((updateStatus_made h id status).post ?_)
        rintro _ t ⟨rfl, ht⟩
        exact hrest (some id) t ht
    | think =>
      have hrest := ih hacts
      exact Prog.holds_read_bind.mpr fun t ht => ⟨fun h => h, hrest active t (h.aside ht)⟩

theorem Unmade.create (h : Unmade d n s) {row : Investigation} (hid : row.id ∈ d.own)
    (hstarted : row.startedBy = some d.ruleId) (hworkspace : row.workspaceId = some orgId)
    (harchived : row.archived = false) (hsince : startedAt ≤ row.createdAt) :
    Made d orgId startedAt n { s with investigations := s.investigations.insert row } := by
  have hfresh : row.id ∉ s.investigations.rows.map (·.id) := by
    intro hmem
    obtain ⟨r, hr, hrid⟩ := List.mem_map.mp hmem
    have hown : r ∈ s.investigations.rows.filter (·.id ∈ d.own) :=
      List.mem_filter.mpr ⟨hr, by simpa [hrid] using hid⟩
    rw [h.absent] at hown
    cases hown
  exact ⟨h.settled.rule, h.settled.running, row, last_insert hfresh hstarted, hid, hworkspace,
    harchived, hsince⟩

theorem runAgent_unmade (acts : List AgentAct)
    (hacts : acts.filterMap AgentAct.created = d.own) :
    ∀ s : Desk, Unmade d n s → startedAt ≤ s.clock →
      (runAgent d orgId acts none).Holds (Aside d.ruleId d.own) (Keeps o d.ruleId)
        (fun r t => r = .ok () ∧ (Unmade d n t ∨ Made d orgId startedAt n t)) s := by
  induction acts with
  | nil => exact fun _ h _ => ⟨rfl, Or.inl h⟩
  | cons act rest ih =>
    intro s h hsince
    cases act with
    | create uuid =>
      -- the one it creates: from here on nothing is created
      have hown : d.own = ("inv_" ++ uuid) :: rest.filterMap AgentAct.created := by
        rw [← hacts]
        rfl
      have hone := d.creates_once
      change d.own.length ≤ 1 at hone
      rw [hown, List.length_cons] at hone
      have hrest := List.length_eq_zero_iff.mp (Nat.le_zero.mp (Nat.le_of_succ_le_succ hone))
      refine Prog.holds_write_bind.mpr fun t ht => ⟨fun h => ⟨h.one, h.cooled⟩, ?_⟩
      refine (runAgent_made rest hrest _ _ ?_).post fun _ _ h => ⟨h.1, Or.inr h.2⟩
      refine (h.aside ht).create ?_ rfl rfl rfl (Int.le_trans hsince ht.clock)
      rw [hown]
      exact List.mem_cons_self
    | setStatus status => exact ih hacts s h hsince
    | think =>
      have hrest := ih hacts
      exact Prog.holds_read_bind.mpr fun t ht =>
        ⟨fun h => h, hrest t (h.aside ht) (Int.le_trans hsince ht.clock)⟩

theorem endRun_holds (h : Unmade d 1 s ∨ Made d orgId startedAt 1 s) :
    (endRun d).Holds (Aside d.ruleId d.own) (Keeps o d.ruleId)
      (fun r t => r = .ok () ∧ (Unmade d 0 t ∨ Made d orgId startedAt 0 t)) s := by
  refine Prog.holds_write.mpr fun t ht => ?_
  have hcount : (t.running.erase d.ruleId).count d.ruleId = t.running.count d.ruleId - 1 :=
    List.count_erase_self
  refine ⟨fun hd => ⟨?_, hd.cooled⟩, rfl, ?_⟩
  · have hone := hd.one
    show (t.running.erase d.ruleId).count d.ruleId ≤ 1
    omega
  · rcases h with h | h
    · have hs := h.aside ht
      rw [hs.settled.running] at hcount
      exact Or.inl ⟨⟨hs.settled.rule, hcount, hs.settled.linked⟩, hs.absent⟩
    · have hs := h.aside ht
      rw [hs.running] at hcount
      exact Or.inr ⟨hs.rule, hcount, hs.row⟩

def investigate (o : AutoInvestigationConsumer) (d : Delivery) : Prog Desk (Option (String × ℤ)) := do
  let allowed ← o.shouldRun d.ruleId
  if allowed then do
    let identity ← resolveSaIdentity d
    match identity with
    | none => pure none
    | some orgId => do
        let startedAt ← startRun d
        runAgent d orgId d.agent none
        endRun d
        pure (some (orgId, startedAt))
  else pure none

def conclude (d : Delivery) : Option (String × ℤ) → Prog Desk Unit
  | none => pure ()
  | some (orgId, startedAt) => finalizeInvestigation d orgId startedAt

theorem onAlertFired_eq (o : AutoInvestigationConsumer) (d : Delivery) :
    o.onAlertFired d = investigate o d >>= conclude d := by
  rw [onAlertFired, investigate, Prog.bind_assoc']
  congr
  funext allowed
  cases allowed with
  | false => rfl
  | true =>
    show resolveSaIdentity d >>= _ = (resolveSaIdentity d >>= _) >>= conclude d
    rw [Prog.bind_assoc']
    congr
    funext identity
    cases identity with
    | none => rfl
    | some orgId =>
      show startRun d >>= _ = (startRun d >>= _) >>= conclude d
      simp only [Prog.bind_assoc']
      rfl

def Arrived (d : Delivery) : Except String (Option (String × ℤ)) → Desk → Prop
  | .ok (some (orgId, startedAt)), s => Unmade d 0 s ∨ Made d orgId startedAt 0 s
  | _, s => Settled d.ruleId 0 s

theorem investigate_arrives (hs : Unmade d 0 s) :
    (investigate o d).Holds (Aside d.ruleId d.own) (Keeps o d.ruleId) (Arrived d) s := by
  refine Prog.Holds.bind ((shouldRun_due hs.settled).post ?_)
  rintro (e | allowed) t ⟨hst, hdue⟩
  · exact (hs.aside hst).settled
  · cases allowed with
    | false => exact (hs.aside hst).settled
    | true =>
      have ht := hs.aside hst
      have hidentity : (resolveSaIdentity d).Holds (Aside d.ruleId d.own) (Keeps o d.ruleId)
          (fun _ u => Aside d.ruleId d.own t u) t := by
        refine Prog.Holds.tryCatch (Prog.holds_attempt.mpr fun u hu => ⟨fun h => h, ?_⟩)
        cases d.identity <;> exact hu
      refine Prog.Holds.bind (hidentity.post ?_)
      rintro (e | identity) u hu
      · exact (ht.aside hu).settled
      · cases identity with
        | none => exact (ht.aside hu).settled
        | some orgId =>
          refine Prog.Holds.bind ((startRun_unmade (ht.aside hu) ((hdue rfl).aside hu)).post ?_)
          rintro _ v ⟨startedAt, rfl, hv, hsince⟩
          refine Prog.Holds.bind ((runAgent_unmade d.agent rfl v hv hsince).post ?_)
          rintro _ w ⟨rfl, hw⟩
          refine Prog.Holds.bind ((endRun_holds hw).post ?_)
          rintro _ w' ⟨rfl, hw'⟩
          exact hw'

theorem own_unique {id id' : String} (h : id ∈ d.own) (h' : id' ∈ d.own) : id = id' := by
  have hone := d.creates_once
  change d.own.length ≤ 1 at hone
  cases hown : d.own with
  | nil =>
    rw [hown] at h
    cases h
  | cons first rest =>
    rw [hown, List.length_cons] at hone
    obtain rfl := List.length_eq_zero_iff.mp (Nat.le_zero.mp (Nat.le_of_succ_le_succ hone))
    rw [hown] at h h'
    rw [List.mem_singleton.mp h, List.mem_singleton.mp h']

theorem own_ne_empty {id : String} (h : id ∈ d.own) : id ≠ "" := by
  obtain ⟨act, -, hcreated⟩ := List.mem_filterMap.mp h
  cases act with
  | create uuid =>
    cases hcreated
    simp
  | setStatus status => cases hcreated
  | think => cases hcreated

theorem linkRule_settles (h : Made d orgId startedAt n s) (hid : inv.id ∈ d.own) :
    (linkRule d.ruleId inv.id).Holds (Aside d.ruleId d.own) (Keeps o d.ruleId)
      (fun _ t => Settled d.ruleId n t) s := by
  refine Prog.holds_read_bind.mpr fun t₁ h₁ => ⟨fun h => h, ?_⟩
  obtain ⟨rule, hrule⟩ := Option.isSome_iff_exists.mp (h.aside h₁).rule
  rw [hrule]
  refine Prog.holds_write.mpr fun t₂ h₂ => ⟨fun h => ⟨h.one, h.cooled⟩, ?_⟩
  have ht := (h.aside h₁).aside h₂
  refine ⟨?_, ht.running, fun x hx => ?_⟩
  · rw [findRule_link, Option.isSome_map]
    exact ht.rule
  · obtain ⟨x', hlast, hown, -⟩ := ht.row
    have hsame : x' = x := Option.some.inj (hlast.symm.trans hx)
    subst hsame
    obtain ⟨rule', hrule'⟩ := Option.isSome_iff_exists.mp ht.rule
    rw [link_linked, if_pos rfl, hrule', own_unique hown hid]
    exact ⟨rfl, own_ne_empty hid⟩

theorem writeBack_settles (h : Made d orgId startedAt n s) (hid : inv.id ∈ d.own) :
    (writeBack d inv).Holds (Aside d.ruleId d.own) (Keeps o d.ruleId)
      (fun _ t => Settled d.ruleId n t) s := by
  refine Prog.Holds.bind (Prog.Holds.post (Q := fun r t => r = .ok () ∧ Made d orgId startedAt n t)
    ?_ ?_)
  · rintro _ t ⟨rfl, ht⟩
    exact linkRule_settles ht hid
  · rw [finishStatus]
    split
    · exact ⟨rfl, h⟩
    · exact updateStatus_made h _ _

theorem lookup_settles (h : Unmade d 0 s ∨ Made d orgId startedAt 0 s)
    (hnewest : OwnIsNewest d orgId startedAt s) :
    Prog.Holds (Aside d.ruleId d.own) (Keeps o d.ruleId) (fun _ t => Settled d.ruleId 0 t)
      (match newestSince startedAt (newestFirst (ofWorkspace orgId s)) with
        | none => pure ()
        | some inv => writeBack d inv) s := by
  cases hfound : newestSince startedAt (newestFirst (ofWorkspace orgId s)) with
  | none =>
    rcases h with h | h
    · exact h.settled
    · obtain ⟨x, hlast, -, hworkspace, harchived, hsince⟩ := h.row
      have hmem : x ∈ ofWorkspace orgId s :=
        List.mem_filter.mpr ⟨(mem_of_last hlast).1, by simp [hworkspace, harchived]⟩
      exact absurd hsince (newestSince_eq_none hfound x hmem)
  | some inv =>
    have hid := hnewest.found hfound
    rcases h with h | h
    · have hmem : inv ∈ s.investigations.rows.filter (·.id ∈ d.own) :=
        List.mem_filter.mpr ⟨(List.mem_filter.mp (newestSince_eq_some hfound).1).1,
          by simpa using hid⟩
      rw [h.absent] at hmem
      cases hmem
    · exact writeBack_settles h hid

inductive OnWay (o : AutoInvestigationConsumer) (d : Delivery) (s : Desk) : Prog Desk Unit → Prop
  | before {q : Prog Desk (Option (String × ℤ))}
      (hq : q.Holds (Aside d.ruleId d.own) (Keeps o d.ruleId) (Arrived d) s) :
      OnWay o d s (q >>= conclude d)
  | after {prog : Prog Desk Unit} (h : prog.Holds (Aside d.ruleId d.own) (Keeps o d.ruleId)
      (fun _ t => Settled d.ruleId 0 t) s) : OnWay o d s prog

theorem Arrived.aside {r : Except String (Option (String × ℤ))} {t : Desk} (h : Arrived d r s)
    (hst : Aside d.ruleId d.own s t) : Arrived d r t := by
  rcases r with e | ⟨⟩ | ⟨orgId, startedAt⟩
  · exact Settled.aside h hst
  · exact Settled.aside h hst
  · exact Or.imp (·.aside hst) (·.aside hst) h

theorem OnWay.aside {prog : Prog Desk Unit} {t : Desk} (h : OnWay o d s prog)
    (hst : Aside d.ruleId d.own s t) : OnWay o d t prog := by
  cases h with
  | before hq =>
    refine .before (hq.shift ?_ ?_ hst)
    · exact fun _ _ _ h h' => h.trans h'
    · exact fun _ _ _ hst h => h.aside hst
  | after h =>
    refine .after (h.shift ?_ ?_ hst)
    · exact fun _ _ _ h h' => h.trans h'
    · exact fun _ _ _ hst h => h.aside hst

theorem OnWay.over {prog : Prog Desk Unit} (h : OnWay o d s prog) (hover : prog.finished = true) :
    Settled d.ruleId 0 s := by
  cases h with
  | @before q hq =>
    cases q with
    | ret a =>
      cases a with
      | none => exact hq
      | some run => cases hover
    | fail e => exact hq
    | sect f k => cases hover
  | after h =>
    cases prog with
    | ret a => exact h
    | fail e => exact h
    | sect f k => cases hover

/-- **The next section** of a delivery that finds its own row where it looks for it. -/
theorem OnWay.step {f : Desk → Desk} {k : Desk → Prog Desk Unit} {prog : Prog Desk Unit}
    (h : OnWay o d s prog) (hprog : prog = .sect f k)
    (hnewest : ∀ orgId startedAt, prog = finalizeInvestigation d orgId startedAt →
      OwnIsNewest d orgId startedAt s) :
    Keeps o d.ruleId s (f s) ∧ OnWay o d (f s) (k s) := by
  cases h with
  | @before q hq =>
    cases q with
    | ret a =>
      cases a with
      | none => cases hprog
      | some run =>
        obtain ⟨hf, hk⟩ := finalize_section hprog s
        rw [hf, hk]
        exact ⟨fun h => h, .after (lookup_settles hq (hnewest run.1 run.2 rfl))⟩
    | fail e => cases hprog
    | sect f' k' =>
      cases hprog
      exact (hq s (.refl s)).imp_right fun h => .before h
  | after h =>
    subst hprog
    exact (h s (.refl s)).imp_right fun h => .after h

end Sections

/-! ## Any number of deliveries -/

def Begun (o : AutoInvestigationConsumer) (th : Thread Desk DeskOp Unit) : Prop :=
  ∃ f k s, th.op.code o = .sect f k ∧ (k s).Remains th.prog

/-- A delivery of the rule makes a step only while no other one is between its first step and its
last, every run finds its own row, and no id is drawn twice. -/
structure InTurn (o : AutoInvestigationConsumer) (ruleId : String) (c : Config Desk DeskOp Unit)
    (l : Label DeskOp) : Prop where
  one : ∀ (i j : ℕ) (th th' : Thread Desk DeskOp Unit), l = .step i → c.threads[i]? = some th →
    th.op.ruleId = some ruleId → j ≠ i → c.threads[j]? = some th' → th'.op.ruleId = some ruleId →
    Begun o th' → th'.prog.finished = true
  newest : NewestOwn c l
  fresh : ∀ op, l = .start op → ∀ id ∈ op.draws,
    id ∉ c.st.investigations.rows.map (·.id) ∧ ∀ th ∈ c.threads, id ∉ th.op.draws

structure Drawn (c : Config Desk DeskOp Unit) : Prop where
  once : (c.threads.map (·.op)).Pairwise fun op op' => op.draws.Disjoint op'.draws
  started : ∀ th ∈ c.threads, ∀ row ∈ c.st.investigations.rows, row.id ∈ th.op.draws →
    row.startedBy = th.op.ruleId

def Rests (o : AutoInvestigationConsumer) (s : Desk) (th : Thread Desk DeskOp Unit) : Prop :=
  th.prog.finished = true ∨
    th.prog = th.op.code o ∧ ∀ row ∈ s.investigations.rows, row.id ∉ th.op.draws

structure Turn (o : AutoInvestigationConsumer) (ruleId : String) (c : Config Desk DeskOp Unit)
    (mine : Option ℕ) : Prop where
  deduped : Deduped o ruleId c.st
  idle : mine = none → Settled ruleId 0 c.st
  way : ∀ j ∈ mine, ∃ th d, c.threads[j]? = some th ∧ th.op = .alertFired d ∧ d.ruleId = ruleId ∧
    Begun o th ∧ OnWay o d c.st th.prog
  rest : ∀ (j : ℕ) (th : Thread Desk DeskOp Unit), j ∉ mine → c.threads[j]? = some th →
    th.op.ruleId = some ruleId → Rests o c.st th

section Pool

variable {o : AutoInvestigationConsumer} {ruleId : String} {s₀ s t : Desk}
  {c c' : Config Desk DeskOp Unit} {op : DeskOp} {own : List String} {mine : Option ℕ} {i : ℕ}

theorem Frame.filter (h : Frame op s t) {p : Investigation → Bool}
    (hs : ∀ row ∈ s.investigations.rows, p row = true → row.id ∉ op.draws)
    (ht : ∀ row ∈ t.investigations.rows, p row = true → row.id ∉ op.draws) :
    t.investigations.rows.filter p = s.investigations.rows.filter p := by
  have hnarrow : ∀ rows : List Investigation, (∀ row ∈ rows, p row = true → row.id ∉ op.draws) →
      rows.filter p = (rows.filter (·.id ∉ op.draws)).filter p := by
    intro rows hrows
    rw [List.filter_filter]
    apply List.filter_congr
    intro row hrow
    cases hp : p row with
    | false => rfl
    | true => simp [hrows row hrow hp]
  rw [hnarrow _ ht, hnarrow _ hs, h.rows]

theorem Frame.aside (h : Frame op s t) (hrule : op.ruleId ≠ some ruleId)
    (hown : ∀ id ∈ op.draws, id ∉ own)
    (hstarted : ∀ row ∈ s.investigations.rows, row.id ∈ op.draws → row.startedBy = op.ruleId) :
    Aside ruleId own s t where
  clock := h.clock
  rule := h.rules ruleId
  link := (h.links ruleId).resolve_right fun hlink => hrule hlink.1
  rows := by
    have hother : ∀ {row : Investigation}, row.startedBy = op.ruleId →
        ¬ row.startedBy = some ruleId := fun hrow hmine => hrule (hrow.symm.trans hmine)
    refine h.filter (fun row hrow hp hid => ?_) fun row hrow hp hid => ?_
    · exact hother (hstarted row hrow hid) (by simpa using hp)
    · rcases h.started row hrow hid with hnew | ⟨row', hrow', hsame, hby⟩
      · exact hother hnew (by simpa using hp)
      · rw [← hsame] at hid
        exact hother (hby.symm.trans (hstarted row' hrow' hid)) (by simpa using hp)
  own := by
    refine h.filter (fun row _ hp hid => ?_) fun row _ hp hid => ?_
    · exact hown _ hid (by simpa using hp)
    · exact hown _ hid (by simpa using hp)
  running := h.running ruleId hrule
  starts := h.starts ruleId hrule

theorem Frame.mem (h : Frame op s t) {row : Investigation} (hrow : row ∈ t.investigations.rows)
    (hid : row.id ∉ op.draws) : row ∈ s.investigations.rows := by
  have hmem : row ∈ t.investigations.rows.filter (·.id ∉ op.draws) :=
    List.mem_filter.mpr ⟨hrow, by simpa using hid⟩
  rw [h.rows] at hmem
  exact (List.mem_filter.mp hmem).1

theorem Rests.frame {th : Thread Desk DeskOp Unit} (h : Rests o s th) (hframe : Frame op s t)
    (hapart : ∀ id ∈ th.op.draws, id ∉ op.draws) : Rests o t th := by
  refine h.imp_right fun ⟨hprog, habsent⟩ => ⟨hprog, fun row hrow hid => ?_⟩
  exact habsent row (hframe.mem hrow (hapart _ hid)) hid

theorem Drawn.apart (h : Drawn c) {i j : ℕ} {th th' : Thread Desk DeskOp Unit} (hne : i ≠ j)
    (hi : c.threads[i]? = some th) (hj : c.threads[j]? = some th') :
    th.op.draws.Disjoint th'.op.draws := by
  have honce := List.pairwise_iff_getElem.mp (List.pairwise_map.mp h.once)
  obtain ⟨hilt, rfl⟩ := List.getElem?_eq_some_iff.mp hi
  obtain ⟨hjlt, rfl⟩ := List.getElem?_eq_some_iff.mp hj
  rcases Nat.lt_or_gt_of_ne hne with hlt | hlt
  · exact honce i j hilt hjlt hlt
  · exact List.disjoint_symm (honce j i hjlt hilt hlt)

theorem drawn_of_run (h : Run (DeskOp.code o) (InTurn o ruleId) ⟨s₀, []⟩ c) : Drawn c := by
  induction h with
  | init => exact ⟨.nil, fun th hth => by cases hth⟩
  | @tail c c' l hrun hok hn ih =>
    cases l with
    | start op =>
      obtain ⟨hst, hth⟩ := Config.next_start hn
      have hfresh := hok.fresh op rfl
      constructor
      case once =>
        rw [hth, List.map_append, List.pairwise_append]
        refine ⟨ih.once, List.pairwise_singleton _ _, fun op₁ hop₁ op₂ hop₂ id hid hid' => ?_⟩
        obtain ⟨th, hmem, rfl⟩ := List.mem_map.mp hop₁
        rw [List.map_singleton, List.mem_singleton] at hop₂
        subst hop₂
        exact (hfresh id hid').2 th hmem hid
      case started =>
        intro th hmem row hrow hid
        rw [hst] at hrow
        rcases Config.mem_of_next_start hn hmem with hmem | rfl
        · exact ih.started th hmem row hrow hid
        · exact absurd (List.mem_map_of_mem hrow) (hfresh _ hid).1
    | step i =>
      obtain ⟨op, f, k, hi, hst, hi', hother⟩ := Config.next_step_threads hn
      have hframe := frame_of_run (hrun.mono fun _ _ hl => hl.newest) hok.newest hi
      constructor
      case once =>
        rw [Config.next_step_ops hn]
        exact ih.once
      case started =>
        intro th hmem row hrow hid
        rw [hst] at hrow
        rcases Config.mem_of_moved hi' hother hmem with rfl | ⟨j, hji, hj⟩
        · rcases hframe.started row hrow hid with hnew | ⟨row', hrow', hsame, hby⟩
          · exact hnew
          · rw [← hsame] at hid
            exact hby.symm.trans (ih.started _ (List.mem_of_getElem? hi) row' hrow' hid)
        · refine ih.started th (List.mem_of_getElem? hj) row (hframe.mem hrow ?_) hid
          exact ih.apart hji hj hi hid

theorem Turn.start (h : Turn o ruleId c mine) {op : DeskOp} (hok : InTurn o ruleId c (.start op))
    (hn : c.next (DeskOp.code o) (.start op) = some c') : Turn o ruleId c' mine := by
  obtain ⟨hst, -⟩ := Config.next_start hn
  obtain ⟨hold, hnew⟩ := Config.next_start_threads hn
  refine ⟨hst ▸ h.deduped, hst ▸ h.idle, fun j hj => ?_, fun j th hj hth hrule => ?_⟩
  · obtain ⟨th, d, hth, hway⟩ := h.way j hj
    exact ⟨th, d, hold j th hth, hst ▸ hway⟩
  · rw [hst]
    rcases hnew j th hth with hth | rfl
    · exact h.rest j th hj hth hrule
    · refine Or.inr ⟨rfl, fun row hrow hid => ?_⟩
      exact (hok.fresh op rfl _ hid).1 (List.mem_map_of_mem hrow)

theorem Turn.mover (h : Turn o ruleId c mine) (hok : InTurn o ruleId c (.step i))
    {d : Delivery} {f : Desk → Desk} {k : Desk → Prog Desk Unit} (hd : d.ruleId = ruleId)
    (hi : c.threads[i]? = some ⟨.alertFired d, .sect f k⟩) :
    OnWay o d c.st (.sect f k) ∧ (∀ s, Begun o ⟨.alertFired d, k s⟩) ∧
      ∀ (j : ℕ) (th : Thread Desk DeskOp Unit), j ≠ i → c.threads[j]? = some th →
        th.op.ruleId = some ruleId → Rests o c.st th := by
  have hrule : (DeskOp.alertFired d).ruleId = some ruleId := congrArg some hd
  by_cases hmine : mine = some i
  · obtain ⟨th, d', hth, hop, -, hbegun, hway⟩ := h.way i hmine
    cases hi.symm.trans hth
    cases hop
    obtain ⟨f₀, k₀, s₀, hcode, hremains⟩ := hbegun
    refine ⟨hway, fun s => ⟨f₀, k₀, s₀, hcode, hremains.step s⟩, fun j th hne hj hth => ?_⟩
    refine h.rest j th (fun hj' => hne ?_) hj hth
    rw [hmine] at hj'
    exact (Option.mem_some_iff.mp hj').symm
  · -- nobody is on its way, or who is has made its last step
    have hsettled : Settled ruleId 0 c.st := by
      cases hcase : mine with
      | none => exact h.idle hcase
      | some j =>
        obtain ⟨th, d', hth, hop, hd', hbegun, hway⟩ := h.way j hcase
        have hne : j ≠ i := fun heq => hmine (heq ▸ hcase)
        have hover := hok.one i j _ th rfl hi hrule hne hth (by rw [hop]; exact congrArg some hd')
          hbegun
        exact hd' ▸ hway.over hover
    have hrests : ∀ (j : ℕ) (th : Thread Desk DeskOp Unit), j ≠ i → c.threads[j]? = some th →
        th.op.ruleId = some ruleId → Rests o c.st th := by
      intro j th hne hj hth
      by_cases hj' : j ∈ mine
      · obtain ⟨th', d', hth', hop, hd', hbegun, -⟩ := h.way j hj'
        cases hj.symm.trans hth'
        exact Or.inl (hok.one i j _ th rfl hi hrule hne hj hth hbegun)
      · exact h.rest j th hj' hj hth
    obtain hover | ⟨hprog, habsent⟩ := h.rest i _ hmine hi hrule
    · cases hover
    · change Prog.sect f k = o.onAlertFired d at hprog
      refine ⟨?_, fun s => ⟨f, k, s, hprog.symm, .refl⟩, hrests⟩
      rw [hprog, onAlertFired_eq]
      refine .before (investigate_arrives ⟨hd ▸ hsettled, ?_⟩)
      refine List.filter_eq_nil_iff.mpr fun row hrow hid => ?_
      exact habsent row hrow (of_decide_eq_true hid)

theorem Turn.step (h : Turn o ruleId c mine) (hdrawn : Drawn c)
    (hrun : Run (DeskOp.code o) (InTurn o ruleId) ⟨s₀, []⟩ c) (hok : InTurn o ruleId c (.step i))
    (hn : c.next (DeskOp.code o) (.step i) = some c') : ∃ mine', Turn o ruleId c' mine' := by
  obtain ⟨op, f, k, hi, hst, hi', hother⟩ := Config.next_step_threads hn
  have hframe := frame_of_run (hrun.mono fun _ _ hl => hl.newest) hok.newest hi
  have hrests : ∀ (j : ℕ) (th : Thread Desk DeskOp Unit), j ≠ i → c.threads[j]? = some th →
      Rests o c.st th → Rests o c'.st th := by
    intro j th hne hj hrest
    rw [hst]
    exact hrest.frame hframe (hdrawn.apart hne hj hi)
  by_cases hrule : op.ruleId = some ruleId
  · -- a delivery of the rule goes on
    obtain ⟨d, rfl, hd⟩ : ∃ d, op = .alertFired d ∧ d.ruleId = ruleId := by
      cases op with
      | alertFired d => exact ⟨d, rfl, Option.some.inj hrule⟩
      | userCreates uuid workspaceId => cases hrule
      | tick ms => cases hrule
    obtain ⟨hway, hbegun, hrest⟩ := h.mover hok hd hi
    obtain ⟨hkeeps, hway'⟩ := hway.step rfl fun orgId startedAt hprog =>
      hok.newest i _ d orgId startedAt rfl hi rfl hprog
    subst hd
    refine ⟨some i, ?_, ?_, ?_, ?_⟩
    · rw [hst]
      exact hkeeps h.deduped
    · rintro ⟨⟩
    · rintro j ⟨⟩
      exact ⟨_, d, hi', rfl, rfl, hbegun c.st, hst ▸ hway'⟩
    · intro j th hne hj hth
      have hji : j ≠ i := fun heq => hne (congrArg some heq.symm)
      rw [hother j hji] at hj
      exact hrests j th hji hj (hrest j th hji hj hth)
  · -- somebody else's step leaves the rule alone
    have haside : ∀ own : List String, (∀ id ∈ op.draws, id ∉ own) →
        Aside ruleId own c.st (f c.st) := fun own hown =>
      hframe.aside hrule hown (hdrawn.started _ (List.mem_of_getElem? hi))
    refine ⟨mine, ?_, fun hnone => ?_, ?_, ?_⟩
    · rw [hst]
      exact h.deduped.aside (haside [] fun _ _ => List.not_mem_nil)
    · rw [hst]
      exact (h.idle hnone).aside (haside [] fun _ _ => List.not_mem_nil)
    · intro j hj
      obtain ⟨th, d, hth, hop, hd, hbegun, hway⟩ := h.way j hj
      have hji : j ≠ i := by
        rintro rfl
        cases hi.symm.trans hth
        obtain rfl : op = .alertFired d := hop
        exact hrule (congrArg some hd)
      refine ⟨th, d, (hother j hji).trans hth, hop, hd, hbegun, ?_⟩
      subst hd
      rw [hst]
      refine hway.aside (haside d.own fun id hid hown => ?_)
      refine hdrawn.apart hji hth hi ?_ hid
      rw [hop]
      exact hown
    · intro j th hne hj hth
      by_cases hji : j = i
      · subst hji
        cases hi'.symm.trans hj
        exact absurd hth hrule
      · rw [hother j hji] at hj
        exact hrests j th hji hj (h.rest j th hne hj hth)

/-- **Deduplication.** Where the deliveries of a rule take turns and every run finds its own row,
at most one agent runs for the rule, and it begins after the cooldown of the one before. -/
theorem runs_deduped (o : AutoInvestigationConsumer) (ruleId : String) (s₀ : Desk)
    (hsettled : Settled ruleId 0 s₀) (hstarts : s₀.starts = []) (c : Config Desk DeskOp Unit)
    (h : Run (DeskOp.code o) (InTurn o ruleId) ⟨s₀, []⟩ c) : Deduped o ruleId c.st := by
  have hturn : ∃ mine, Turn o ruleId c mine := by
    induction h with
    | init =>
      refine ⟨none, ⟨hsettled.running.trans_le (Nat.zero_le 1), ?_⟩, fun _ => hsettled, ?_, ?_⟩
      · intro st hst
        change st ∈ s₀.starts at hst
        rw [hstarts] at hst
        cases hst
      · rintro j ⟨⟩
      · intro j th _ hj
        cases hj
    | @tail c c' l hrun hok hn ih =>
      obtain ⟨mine, hturn⟩ := ih
      cases l with
      | start op => exact ⟨mine, hturn.start hok hn⟩
      | step i => exact hturn.step (drawn_of_run hrun) hrun hok hn
  obtain ⟨mine, hturn⟩ := hturn
  exact hturn.deduped

end Pool

/-! ## Two deliveries of one rule -/

theorem settled_web : Settled "rule_web" 0 webDesk := by
  refine ⟨rfl, rfl, fun x hx => ?_⟩
  cases hx

/-- A delivery that is alone runs its agent, and is through. -/
theorem runs_deduped_alone : ∃ c,
    Run (DeskOp.code {}) (InTurn {} "rule_web") ⟨webDesk, []⟩ c ∧ Deduped {} "rule_web" c.st ∧
      c.st.starts.length = 1 ∧ c.st.running = [] := by
  have halone : ∀ {st : Desk} {threads : List (Thread Desk DeskOp Unit)} {l : Label DeskOp},
      (∀ r ∈ st.investigations.rows, r.id = "inv_web") →
      (∀ th ∈ threads, th.op = .alertFired (webDelivery [.create "web"])) → threads.length ≤ 1 →
      (∀ op, l = .start op → st.investigations.rows = [] ∧ threads = []) →
      InTurn {} "rule_web" ⟨st, threads⟩ l := by
    intro st threads l hrows hthreads hone hfirst
    refine ⟨fun i j th th' _ hi _ hne hj _ _ => ?_, ?_, fun op hl id _ => ?_⟩
    · have hilt := (List.getElem?_eq_some_iff.mp hi).1
      have hjlt := (List.getElem?_eq_some_iff.mp hj).1
      dsimp only at hilt hjlt
      omega
    · intro i th d orgId startedAt _ hi hd _ r hr _ hnot
      cases (hthreads th (List.mem_of_getElem? hi)).symm.trans hd
      refine absurd ?_ hnot
      rw [hrows r (List.mem_filter.mp hr).1]
      decide
    · obtain ⟨hnone, rfl⟩ := hfirst op hl
      simp [hnone]
  obtain ⟨c, hexec⟩ : ∃ c, Config.exec (DeskOp.code {}) ⟨webDesk, []⟩
      [.start (.alertFired (webDelivery [.create "web"])), .step 0, .step 0, .step 0, .step 0,
        .step 0, .step 0, .step 0, .step 0, .step 0, .step 0] = some c := ⟨_, rfl⟩
  have hrun : Run (DeskOp.code {}) (InTurn {} "rule_web") ⟨webDesk, []⟩ c := by
    refine Run.of_exec .init ?_ hexec
    refine ⟨halone (by rintro r ⟨⟩) (by rintro th ⟨⟩) (Nat.zero_le 1) fun _ _ => ⟨rfl, rfl⟩, ?_⟩
    rintro c' ⟨⟩
    iterate 10
      refine ⟨halone (by decide +kernel) (by rintro th (⟨⟩ | ⟨_, ⟨⟩⟩); rfl) (Nat.le_refl 1)
        (by rintro op ⟨⟩), ?_⟩
      rintro c' ⟨⟩
    trivial
  refine ⟨c, hrun, runs_deduped {} "rule_web" webDesk settled_web rfl c hrun, ?_⟩
  cases hexec
  decide +kernel

/-- Of two deliveries that are checked before either is through, both run an agent. -/
theorem concurrent_deliveries_both_run :
    ¬ ∀ (o : AutoInvestigationConsumer) (ruleId : String) (s₀ : Desk),
      Settled ruleId 0 s₀ → s₀.starts = [] →
      ∀ c, Run (DeskOp.code o) (fun _ _ => True) ⟨s₀, []⟩ c → Deduped o ruleId c.st := by
  intro hall
  obtain ⟨c, hexec⟩ : ∃ c, Config.exec (DeskOp.code {}) ⟨webDesk, []⟩
      [.start (.alertFired (webDelivery [])), .start (.alertFired (webDelivery [])), .step 0,
        .step 1, .step 0, .step 1, .step 0, .step 1] = some c := ⟨_, rfl⟩
  have hdeduped := hall {} "rule_web" webDesk settled_web rfl c
    (.of_exec .init (allOk_of_forall (fun _ _ => trivial) _ _) hexec)
  cases hexec
  exact absurd hdeduped.one (by decide +kernel)

end OpenObs.Investigations
