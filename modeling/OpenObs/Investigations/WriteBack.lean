import OpenObs.Investigations.AutoInvestigation

/-!
# Which row a run writes back to

`finalizeInvestigation` of `services/auto-investigation-consumer.ts` takes the newest
investigation of the workspace since the run began for the one the run created. The
other sections of a run touch its own row and the link of its rule only.
-/

namespace OpenObs.Investigations

open OpenObs.Foundation AutoInvestigationConsumer

/-! ## What a delivery may do -/

def DeskOp.ruleId : DeskOp → Option String
  | .alertFired d => some d.ruleId
  | _ => none

/-- An operation touches the rows it has drawn the ids of, links its rule to one of them, and
starts and ends agents of its rule only. -/
structure Frame (op : DeskOp) (s t : Desk) : Prop where
  clock : s.clock ≤ t.clock
  rows : t.investigations.rows.filter (·.id ∉ op.draws) =
    s.investigations.rows.filter (·.id ∉ op.draws)
  started : ∀ row ∈ t.investigations.rows, row.id ∈ op.draws →
    row.startedBy = op.ruleId ∨
      ∃ row' ∈ s.investigations.rows, row'.id = row.id ∧ row'.startedBy = row.startedBy
  rules : ∀ ruleId, (t.findRule ruleId).isSome = (s.findRule ruleId).isSome
  links : ∀ ruleId, t.link ruleId = s.link ruleId ∨
    op.ruleId = some ruleId ∧ ∃ id ∈ op.draws, t.link ruleId = some id
  running : ∀ ruleId, op.ruleId ≠ some ruleId → t.running.count ruleId = s.running.count ruleId
  starts : ∀ ruleId, op.ruleId ≠ some ruleId →
    t.starts.filter (·.ruleId = ruleId) = s.starts.filter (·.ruleId = ruleId)

section Frames

variable {op : DeskOp} {s t : Desk}

theorem Frame.refl (op : DeskOp) (s : Desk) : Frame op s s :=
  ⟨Int.le_refl _, rfl, fun row hrow _ => Or.inr ⟨row, hrow, rfl, rfl⟩, fun _ => rfl, fun _ => Or.inl rfl,
    fun _ _ => rfl, fun _ _ => rfl⟩

theorem frame_clock (ms : ℕ) : Frame op s { s with clock := s.clock + ms } :=
  ⟨by show s.clock ≤ s.clock + ms; omega, rfl, fun row hrow _ => Or.inr ⟨row, hrow, rfl, rfl⟩,
    fun _ => rfl, fun _ => Or.inl rfl, fun _ _ => rfl, fun _ _ => rfl⟩

theorem frame_table {table : InvestigationTable}
    (hrows : table.rows.filter (·.id ∉ op.draws) =
      s.investigations.rows.filter (·.id ∉ op.draws))
    (hstarted : ∀ row ∈ table.rows, row.id ∈ op.draws → row.startedBy = op.ruleId ∨
      ∃ row' ∈ s.investigations.rows, row'.id = row.id ∧ row'.startedBy = row.startedBy) :
    Frame op s { s with investigations := table } :=
  ⟨Int.le_refl _, hrows, hstarted, fun _ => rfl, fun _ => Or.inl rfl, fun _ _ => rfl, fun _ _ => rfl⟩

theorem frame_insert {row : Investigation} (hid : row.id ∈ op.draws)
    (hstarted : row.startedBy = op.ruleId) :
    Frame op s { s with investigations := s.investigations.insert row } := by
  refine frame_table (InvestigationTable.filter_insert (by simpa using hid)) fun r hr _ => ?_
  rw [InvestigationTable.rows_insert] at hr
  split at hr
  · exact Or.inr ⟨r, hr, rfl, rfl⟩
  · rcases List.mem_append.mp hr with hr | hr
    · exact Or.inr ⟨r, hr, rfl, rfl⟩
    · rw [List.mem_singleton.mp hr]
      exact Or.inl hstarted

theorem frame_setStatus {id : String} (hid : id ∈ op.draws) (status : InvestigationStatus)
    (now : ℤ) :
    Frame op s { s with investigations := s.investigations.setStatus id status now } := by
  refine frame_table (InvestigationTable.filter_setStatus (fun r _ => by simp) ?_) ?_
  · rintro r - hr rfl
    simp [hid] at hr
  · intro row hrow _
    obtain ⟨r, hr, rfl⟩ := List.mem_map.mp hrow
    exact Or.inr ⟨r, hr, by simp, by simp⟩

theorem findRule_link {id investigationId ruleId : String} :
    ({ s with rules := s.rules.map fun r =>
      if r.id = id then { r with investigationId := some investigationId } else r } : Desk).findRule
        ruleId =
      (s.findRule ruleId).map fun r =>
        if r.id = id then { r with investigationId := some investigationId } else r := by
  have hsame : ((fun r : AlertRule => decide (r.id = ruleId)) ∘ fun r =>
      if r.id = id then { r with investigationId := some investigationId } else r) =
      fun r => decide (r.id = ruleId) := by
    funext r
    simp only [Function.comp_apply]
    split <;> rfl
  simp only [Desk.findRule, List.find?_map, hsame]

theorem link_linked {id investigationId : String} (ruleId : String) :
    ({ s with rules := s.rules.map fun r =>
      if r.id = id then { r with investigationId := some investigationId } else r } : Desk).link
        ruleId =
      if ruleId = id then (s.findRule ruleId).map fun _ => investigationId
      else s.link ruleId := by
  rw [Desk.link, findRule_link, Desk.link]
  cases hrule : s.findRule ruleId with
  | none => simp
  | some rule =>
    have hid : rule.id = ruleId := by simpa using List.find?_some hrule
    by_cases heq : ruleId = id
    · simp [hid, heq]
    · simp [hid, heq]

theorem frame_link {d : Delivery} {id : String} (hid : id ∈ d.own) :
    Frame (.alertFired d) s { s with rules := s.rules.map fun r =>
      if r.id = d.ruleId then { r with investigationId := some id } else r } where
  clock := Int.le_refl _
  rows := rfl
  started row hrow _ := Or.inr ⟨row, hrow, rfl, rfl⟩
  rules ruleId := by
    rw [findRule_link, Option.isSome_map]
  links ruleId := by
    rw [link_linked]
    split
    · rename_i heq
      cases hrule : s.findRule ruleId with
      | none =>
        refine Or.inl ?_
        rw [Desk.link, hrule]
        rfl
      | some rule => exact Or.inr ⟨congrArg some heq.symm, id, hid, rfl⟩
    · exact Or.inl rfl
  running _ _ := rfl
  starts _ _ := rfl

end Frames

/-! ## The sections of a delivery -/

def Framed {α : Type} (op : DeskOp) (p : Prog Desk α) : Prop :=
  ∀ s, p.Holds (fun _ _ => True) (Frame op) (fun _ _ => True) s

/-- A delivery whose sections are framed up to the lookup of `finalizeInvestigation`. -/
inductive Leads (d : Delivery) : Prog Desk Unit → Prop
  | done {p : Prog Desk Unit} (hdone : p.finished = true) : Leads d p
  | sect {f : Desk → Desk} {k : Desk → Prog Desk Unit} (hf : ∀ s, Frame (.alertFired d) s (f s))
      (hk : ∀ s, Leads d (k s)) : Leads d (.sect f k)
  | lookup (orgId : String) (startedAt : ℤ) : Leads d (finalizeInvestigation d orgId startedAt)

section Sections

variable {α β : Type} {d : Delivery} {op : DeskOp}

theorem Framed.read (f : Desk → α) : Framed op (Prog.read f) :=
  fun _ => Prog.holds_read.mpr fun t _ => ⟨.refl op t, trivial⟩

theorem Framed.bind {p : Prog Desk α} {k : α → Prog Desk β} (hp : Framed op p)
    (hk : ∀ a, Framed op (k a)) : Framed op (p >>= k) :=
  fun s => Prog.Holds.bind_any (hp s) hk

theorem Framed.step {f : Desk → Desk} {k : Desk → Prog Desk α} (h : Framed op (.sect f k))
    (s : Desk) : Frame op s (f s) ∧ Framed op (k s) := by
  refine ⟨(h s s trivial).1, fun s' => ?_⟩
  exact (h s s trivial).2.shift (fun _ _ _ _ _ => trivial) (fun _ _ _ _ _ => trivial) trivial

theorem Leads.of_framed {p : Prog Desk Unit} : Framed (.alertFired d) p → Leads d p := by
  induction p with
  | ret a => exact fun _ => .done rfl
  | fail e => exact fun _ => .done rfl
  | sect f k ih => exact fun h => .sect (fun s => (h.step s).1) fun s => ih s (h.step s).2

theorem Leads.bind {p : Prog Desk α} {k : α → Prog Desk Unit} (hk : ∀ a, Leads d (k a)) :
    Framed (.alertFired d) p → Leads d (p >>= k) := by
  change _ → Leads d (p.bind k)
  induction p with
  | ret a => exact fun _ => hk a
  | fail e => exact fun _ => .done rfl
  | sect f g ih => exact fun h => .sect (fun s => (h.step s).1) fun s => ih s (h.step s).2

theorem framed_shouldRun (o : AutoInvestigationConsumer) (ruleId : String) :
    Framed op (o.shouldRun ruleId) := by
  refine .bind (.read _) fun rule => ?_
  split
  · exact fun _ => trivial
  · refine .bind (.read _) fun inv => ?_
    split
    · exact fun _ => trivial
    · split
      · exact fun _ => trivial
      · exact .bind (.read _) fun _ _ => trivial

theorem framed_resolveSaIdentity : Framed op (resolveSaIdentity d) := by
  intro s
  refine Prog.Holds.tryCatch (Prog.holds_attempt.mpr fun t _ => ⟨.refl op t, ?_⟩)
  cases d.identity <;> trivial

theorem framed_startRun : Framed (.alertFired d) (startRun d) := by
  intro s
  refine Prog.holds_atomic.mpr fun t _ => ⟨?_, trivial⟩
  refine ⟨Int.le_refl _, rfl, fun row hrow _ => Or.inr ⟨row, hrow, rfl, rfl⟩, fun _ => rfl,
    fun _ => Or.inl rfl, fun ruleId hne => ?_, fun ruleId hne => ?_⟩
  · exact List.count_cons_of_ne fun heq => hne (congrArg some heq)
  · have hnot : d.ruleId ≠ ruleId := fun heq => hne (congrArg some heq)
    show (t.starts ++ _).filter _ = _
    rw [List.filter_append, List.filter_singleton]
    simp [hnot]

theorem framed_endRun : Framed (.alertFired d) (endRun d) := by
  intro s
  refine Prog.holds_write.mpr fun t _ => ⟨?_, trivial⟩
  refine ⟨Int.le_refl _, rfl, fun row hrow _ => Or.inr ⟨row, hrow, rfl, rfl⟩, fun _ => rfl,
    fun _ => Or.inl rfl, fun ruleId hne => ?_, fun _ _ => rfl⟩
  exact List.count_erase_of_ne fun heq => hne (congrArg some heq.symm)

theorem framed_updateStatus {id : String} (hid : id ∈ op.draws) (status : InvestigationStatus) :
    Framed op (updateStatus id status) := by
  refine .bind (.read _) fun existing => ?_
  cases existing with
  | none => exact fun _ => trivial
  | some _ =>
    exact fun s => Prog.holds_write.mpr fun t _ => ⟨frame_setStatus hid status t.clock, trivial⟩

theorem framed_runAgent (orgId : String) (acts : List AgentAct)
    (hacts : ∀ id ∈ acts.filterMap AgentAct.created, id ∈ d.own) :
    ∀ active : Option String, (∀ id ∈ active, id ∈ d.own) →
      Framed (.alertFired d) (runAgent d orgId acts active) := by
  induction acts with
  | nil => exact fun _ _ _ => trivial
  | cons act rest ih =>
    intro active hactive
    cases act with
    | create uuid =>
      have hid : "inv_" ++ uuid ∈ d.own := hacts _ (by simp [AgentAct.created])
      refine .bind (fun s => Prog.holds_write.mpr fun t _ => ⟨?_, trivial⟩) fun _ => ?_
      · exact frame_insert hid rfl
      · refine ih (fun id h => hacts id ?_) _ ?_
        · simpa [AgentAct.created] using Or.inr h
        · rintro id ⟨⟩
          exact hid
    | setStatus status =>
      have hrest := ih fun id h => hacts id (by simpa [AgentAct.created] using h)
      cases active with
      | none => exact hrest none hactive
      | some id =>
        refine .bind (framed_updateStatus (hactive id rfl) status) ?_
        exact fun _ => hrest (some id) hactive
    | think =>
      have hrest := ih fun id h => hacts id (by simpa [AgentAct.created] using h)
      exact .bind (.read _) fun _ => hrest active hactive

theorem framed_writeBack {inv : Investigation} (hid : inv.id ∈ d.own) :
    Framed (.alertFired d) (writeBack d inv) := by
  refine .bind ?_ fun _ => .bind (.read _) fun existing => ?_
  · rw [finishStatus]
    split
    · exact fun _ => trivial
    · exact framed_updateStatus hid _
  · cases existing with
    | none => exact fun _ => trivial
    | some _ => exact fun s => Prog.holds_write.mpr fun t _ => ⟨frame_link hid, trivial⟩

theorem leads_onAlertFired (o : AutoInvestigationConsumer) (d : Delivery) :
    Leads d (o.onAlertFired d) := by
  refine .bind (fun allowed => ?_) (framed_shouldRun o d.ruleId)
  split
  · refine .bind (fun identity => ?_) framed_resolveSaIdentity
    cases identity with
    | none => exact .done rfl
    | some orgId =>
      refine .bind (fun startedAt => ?_) framed_startRun
      refine .bind (fun _ => ?_) (framed_runAgent orgId d.agent (fun _ h => h) none ?_)
      · exact .bind (fun _ => .lookup orgId startedAt) framed_endRun
      · rintro id ⟨⟩
  · exact .done rfl

end Sections

/-! ## The lookup -/

/-- Every investigation of the workspace since the run began that is not its own is older than
one that is. -/
def OwnIsNewest (d : Delivery) (orgId : String) (startedAt : ℤ) (s : Desk) : Prop :=
  ∀ r ∈ ofWorkspace orgId s, startedAt ≤ r.createdAt → r.id ∉ d.own →
    ∃ r' ∈ ofWorkspace orgId s, r'.id ∈ d.own ∧ r.createdAt < r'.createdAt

def NewestOwn (c : Config Desk DeskOp Unit) (l : Label DeskOp) : Prop :=
  ∀ (i : ℕ) (th : Thread Desk DeskOp Unit) (d : Delivery) (orgId : String) (startedAt : ℤ),
    l = .step i → c.threads[i]? = some th → th.op = .alertFired d →
    th.prog = finalizeInvestigation d orgId startedAt → OwnIsNewest d orgId startedAt c.st

section Lookup

variable {d : Delivery} {orgId : String} {startedAt : ℤ} {s : Desk} {inv : Investigation}

theorem mem_newestFirst {rows : List Investigation} : inv ∈ newestFirst rows ↔ inv ∈ rows :=
  List.mem_insertionSort _

theorem head_newestFirst {rows : List Investigation} (h : (newestFirst rows).head? = some inv) :
    inv ∈ rows ∧ ∀ r ∈ rows, r.createdAt ≤ inv.createdAt := by
  refine ⟨mem_newestFirst.mp (List.mem_of_head? h), fun r hr => ?_⟩
  have : Std.Total fun a b : Investigation => b.createdAt ≤ a.createdAt :=
    ⟨fun a b => Int.le_total b.createdAt a.createdAt⟩
  have : IsTrans Investigation fun a b => b.createdAt ≤ a.createdAt :=
    ⟨fun a b c hab hbc => Int.le_trans hbc hab⟩
  have hsorted : (newestFirst rows).Pairwise fun a b => b.createdAt ≤ a.createdAt :=
    List.pairwise_insertionSort _ rows
  have hr' := mem_newestFirst.mpr hr
  cases hlist : newestFirst rows with
  | nil =>
    rw [hlist] at h
    cases h
  | cons first rest =>
    rw [hlist] at h hr' hsorted
    cases h
    rcases List.mem_cons.mp hr' with rfl | hrest
    · exact Int.le_refl _
    · exact (List.pairwise_cons.mp hsorted).1 r hrest

theorem newestSince_eq_some (h : newestSince startedAt (newestFirst (ofWorkspace orgId s)) =
    some inv) : inv ∈ ofWorkspace orgId s ∧ startedAt ≤ inv.createdAt ∧
      ∀ r ∈ ofWorkspace orgId s, startedAt ≤ r.createdAt → r.createdAt ≤ inv.createdAt := by
  obtain ⟨hmem, hnewest⟩ := head_newestFirst h
  obtain ⟨hmem, hsince⟩ := List.mem_filter.mp hmem
  refine ⟨mem_newestFirst.mp hmem, by simpa using hsince, fun r hr hsince' => ?_⟩
  exact hnewest r (List.mem_filter.mpr ⟨mem_newestFirst.mpr hr, by simpa using hsince'⟩)

theorem newestSince_eq_none (h : newestSince startedAt (newestFirst (ofWorkspace orgId s)) =
    none) : ∀ r ∈ ofWorkspace orgId s, ¬ startedAt ≤ r.createdAt := by
  intro r hr hsince
  have hmem : r ∈ newestFirst ((newestFirst (ofWorkspace orgId s)).filter
      fun r => startedAt ≤ r.createdAt) :=
    mem_newestFirst.mpr (List.mem_filter.mpr ⟨mem_newestFirst.mpr hr, by simpa using hsince⟩)
  rw [List.head?_eq_none_iff.mp h] at hmem
  cases hmem

theorem OwnIsNewest.found (h : OwnIsNewest d orgId startedAt s)
    (hfound : newestSince startedAt (newestFirst (ofWorkspace orgId s)) = some inv) :
    inv.id ∈ d.own := by
  obtain ⟨hmem, hsince, hnewest⟩ := newestSince_eq_some hfound
  by_contra hnot
  obtain ⟨r', hr', -, hnewer⟩ := h inv hmem hsince hnot
  have hle := hnewest r' hr' (by omega)
  omega

theorem finalize_section {f : Desk → Desk} {k : Desk → Prog Desk Unit}
    (h : finalizeInvestigation d orgId startedAt = .sect f k) (s : Desk) :
    f s = s ∧ k s = match newestSince startedAt (newestFirst (ofWorkspace orgId s)) with
      | none => pure ()
      | some inv => writeBack d inv := by
  cases h
  exact ⟨rfl, rfl⟩

/-- **The next section.** It is framed, and so are the ones after it, provided that a lookup
finds the run's own row. -/
theorem Leads.step {f : Desk → Desk} {k : Desk → Prog Desk Unit} {prog : Prog Desk Unit}
    (h : Leads d prog) (hprog : prog = .sect f k)
    (hown : ∀ orgId startedAt, prog = finalizeInvestigation d orgId startedAt →
      OwnIsNewest d orgId startedAt s) :
    Frame (.alertFired d) s (f s) ∧ Leads d (k s) := by
  cases h with
  | done hdone =>
    rw [hprog] at hdone
    cases hdone
  | sect hf hk =>
    cases hprog
    exact ⟨hf s, hk s⟩
  | lookup orgId startedAt =>
    obtain ⟨hf, hk⟩ := finalize_section hprog s
    rw [hf, hk]
    refine ⟨.refl _ s, ?_⟩
    cases hfound : newestSince startedAt (newestFirst (ofWorkspace orgId s)) with
    | none => exact .done rfl
    | some inv => exact .of_framed (framed_writeBack ((hown orgId startedAt rfl).found hfound))

end Lookup

/-! ## Any number of runs -/

/-- A step of a delivery changes no investigation but the one it has created, and links no rule
but its own, and this to that one; if it creates none, it changes nothing. -/
structure OwnRowOnly (d : Delivery) (s t : Desk) : Prop where
  rows : t.investigations.rows.filter (·.id ∉ d.own) = s.investigations.rows.filter (·.id ∉ d.own)
  links : ∀ ruleId, t.link ruleId = s.link ruleId ∨
    ruleId = d.ruleId ∧ ∃ id ∈ d.own, t.link ruleId = some id
  nothing : d.own = [] → t.investigations.rows = s.investigations.rows ∧ t.link = s.link

section Pool

variable {o : AutoInvestigationConsumer} {s₀ : Desk} {c c' : Config Desk DeskOp Unit}

theorem framed_other {op : DeskOp} (hop : op.ruleId = none) : Framed op (op.code o) := by
  cases op with
  | alertFired d => cases hop
  | userCreates uuid workspaceId =>
    exact fun s => Prog.holds_write.mpr fun t _ =>
      ⟨frame_insert (List.mem_singleton_self _) rfl,
        trivial⟩
  | tick ms => exact fun s => Prog.holds_write.mpr fun t _ => ⟨frame_clock ms, trivial⟩

theorem framed_of_run {Ok : Config Desk DeskOp Unit → Label DeskOp → Prop}
    (h : Run (DeskOp.code o) Ok ⟨s₀, []⟩ c) :
    ∀ th ∈ c.threads, th.op.ruleId = none → Framed th.op th.prog := by
  induction h with
  | init =>
    intro th hth
    cases hth
  | @tail c c' l _ _ hn ih =>
    intro th hmem hop
    cases l with
    | start op =>
      rcases Config.mem_of_next_start hn hmem with hold | rfl
      · exact ih th hold hop
      · exact framed_other hop
    | step i =>
      obtain ⟨op, f, k, hi, -, hi', hother⟩ := Config.next_step_threads hn
      rcases Config.mem_of_moved hi' hother hmem with rfl | ⟨j, -, hj⟩
      · exact ((ih _ (List.mem_of_getElem? hi) hop).step c.st).2
      · exact ih th (List.mem_of_getElem? hj) hop

theorem leads_of_run (h : Run (DeskOp.code o) NewestOwn ⟨s₀, []⟩ c) :
    ∀ th ∈ c.threads, ∀ d, th.op = .alertFired d → Leads d th.prog := by
  induction h with
  | init =>
    intro th hth
    cases hth
  | @tail c c' l _ hok hn ih =>
    intro th hmem d hd
    cases l with
    | start op =>
      rcases Config.mem_of_next_start hn hmem with hold | rfl
      · exact ih th hold d hd
      · obtain rfl : op = .alertFired d := hd
        exact leads_onAlertFired o d
    | step i =>
      obtain ⟨op, f, k, hi, -, hi', hother⟩ := Config.next_step_threads hn
      rcases Config.mem_of_moved hi' hother hmem with rfl | ⟨j, -, hj⟩
      · refine ((ih _ (List.mem_of_getElem? hi) d hd).step rfl fun orgId startedAt hprog => ?_).2
        exact hok i _ d orgId startedAt rfl hi hd hprog
      · exact ih th (List.mem_of_getElem? hj) d hd

theorem frame_of_run (h : Run (DeskOp.code o) NewestOwn ⟨s₀, []⟩ c) {i : ℕ} {op : DeskOp}
    {f : Desk → Desk} {k : Desk → Prog Desk Unit} (hok : NewestOwn c (.step i))
    (hi : c.threads[i]? = some ⟨op, .sect f k⟩) : Frame op c.st (f c.st) := by
  by_cases hop : op.ruleId = none
  · exact ((framed_of_run h _ (List.mem_of_getElem? hi) hop).step c.st).1
  · cases op with
    | alertFired d =>
      refine ((leads_of_run h _ (List.mem_of_getElem? hi) d rfl).step rfl ?_).1
      exact fun orgId startedAt hprog => hok i _ d orgId startedAt rfl hi rfl hprog
    | userCreates uuid workspaceId => exact absurd rfl hop
    | tick ms => exact absurd rfl hop

/-- **Write-back.** Where every run looks for its row while that is the newest one, no step of a
delivery touches the row of somebody else. -/
theorem write_back_hits_own_row (o : AutoInvestigationConsumer) (s₀ : Desk)
    (c c' : Config Desk DeskOp Unit) (i : ℕ) (th : Thread Desk DeskOp Unit) (d : Delivery)
    (h : Run (DeskOp.code o) NewestOwn ⟨s₀, []⟩ c) (hok : NewestOwn c (.step i))
    (hi : c.threads[i]? = some th) (hd : th.op = .alertFired d)
    (hn : c.next (DeskOp.code o) (.step i) = some c') : OwnRowOnly d c.st c'.st := by
  obtain ⟨op, f, k, hi', hst, -⟩ := Config.next_step hn
  cases hi'.symm.trans hi
  obtain rfl : op = .alertFired d := hd
  have hframe := frame_of_run h hok hi
  rw [hst]
  refine ⟨hframe.rows, fun ruleId => (hframe.links ruleId).imp_right ?_, fun hnone => ⟨?_, ?_⟩⟩
  · rintro ⟨hrule, hlink⟩
    exact ⟨(Option.some.inj hrule).symm, hlink⟩
  · have hrows := hframe.rows
    rw [show (DeskOp.alertFired d).draws = [] from hnone] at hrows
    simpa using hrows
  · funext ruleId
    refine (hframe.links ruleId).resolve_right ?_
    rintro ⟨-, id, hid, -⟩
    rw [show (DeskOp.alertFired d).draws = [] from hnone] at hid
    cases hid

end Pool

/-! ## A rule whose alert has fired -/

def webDesk : Desk := { rules := [⟨"rule_web", none⟩] }

def webDelivery (agent : List AgentAct)
    (hone : (agent.filterMap AgentAct.created).length ≤ 1 := by decide) : Delivery :=
  { ruleId := "rule_web", identity := .ok (some "org_main"), agent, creates_once := hone }

/-- A run that is alone links its rule to the investigation it has created. -/
theorem write_back_alone : ∃ c c' : Config Desk DeskOp Unit, c.next (DeskOp.code {}) (.step 0) = some c' ∧
    OwnRowOnly (webDelivery [.create "web"]) c.st c'.st ∧ c.st.link "rule_web" = none ∧
      c'.st.link "rule_web" = some "inv_web" := by
  have halone : ∀ {st : Desk} {threads : List (Thread Desk DeskOp Unit)} {l : Label DeskOp},
      (∀ r ∈ st.investigations.rows, r.id = "inv_web") →
      (∀ th ∈ threads, th.op = .alertFired (webDelivery [.create "web"])) →
      NewestOwn ⟨st, threads⟩ l := by
    intro st threads l hrows hthreads i th d orgId startedAt _ hi hd _ r hr _ hnot
    cases (hthreads th (List.mem_of_getElem? hi)).symm.trans hd
    refine absurd ?_ hnot
    rw [hrows r (List.mem_filter.mp hr).1]
    decide
  obtain ⟨c, hexec⟩ : ∃ c, Config.exec (DeskOp.code {}) ⟨webDesk, []⟩
      [.start (.alertFired (webDelivery [.create "web"])), .step 0, .step 0, .step 0, .step 0,
        .step 0, .step 0, .step 0, .step 0, .step 0] = some c := ⟨_, rfl⟩
  have hrun : Run (DeskOp.code {}) NewestOwn ⟨webDesk, []⟩ c := by
    refine Run.of_exec .init ?_ hexec
    refine ⟨halone (by rintro r ⟨⟩) (by rintro th ⟨⟩), ?_⟩
    rintro c' ⟨⟩
    iterate 9
      refine ⟨halone (by decide +kernel) (by rintro th (⟨⟩ | ⟨_, ⟨⟩⟩); rfl), ?_⟩
      rintro c' ⟨⟩
    trivial
  cases hexec
  refine ⟨_, _, rfl, write_back_hits_own_row {} webDesk _ _ 0 _ (webDelivery [.create "web"]) hrun
    (halone (by decide +kernel) (by rintro th (⟨⟩ | ⟨_, ⟨⟩⟩); rfl)) rfl rfl rfl, ?_, ?_⟩
  · decide +kernel
  · decide +kernel

/-- A run that creates no investigation completes the one a user has created meanwhile. -/
theorem user_investigation_completed :
    ¬ ∀ (o : AutoInvestigationConsumer) (s₀ : Desk) (c c' : Config Desk DeskOp Unit) (i : ℕ)
        (th : Thread Desk DeskOp Unit) (d : Delivery),
      Run (DeskOp.code o) (fun _ _ => True) ⟨s₀, []⟩ c → c.threads[i]? = some th →
      th.op = .alertFired d → c.next (DeskOp.code o) (.step i) = some c' →
      OwnRowOnly d c.st c'.st := by
  intro hall
  obtain ⟨c, hexec⟩ : ∃ c, Config.exec (DeskOp.code {}) ⟨webDesk, []⟩
      [.start (.alertFired (webDelivery [])), .step 0, .step 0, .step 0,
        .start (.userCreates "user" "org_main"), .step 1, .step 0, .step 0, .step 0] = some c :=
    ⟨_, rfl⟩
  have hrun := Run.of_exec .init (allOk_of_forall (fun _ _ => trivial) _ _) hexec
  cases hexec
  have hnothing := (hall {} webDesk _ _ 0 _ (webDelivery []) hrun rfl rfl rfl).nothing rfl
  exact absurd hnothing.1 (by decide +kernel)

end OpenObs.Investigations
