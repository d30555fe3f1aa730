import OpenObs.Dashboards.EditEffects
import OpenObs.Rules.Tenancy

/-!
# Edits at the same time

Requests and actions of the agent that edit one dashboard, interleaved at their `await`s.
-/

namespace OpenObs.Dashboards

open OpenObs.Foundation OpenObs.Resources OpenObs.Rules OpenObs.Agent

/-! ## One edit on its way -/

/-- What the columns an edit computes are computed from, as the row has it: the list of panels
that was loaded first, or the record that the store has found. -/
def DashboardEdit.ReadNow (edit : DashboardEdit) (loaded existing row : Dashboard) : Prop :=
  match edit.columns with
  | .panels => loaded.panels = row.panels
  | .record => existing.panels = row.panels ∧ (edit.title = none → existing.title = row.title)
  | .variables => True
  | .none => True

/-- The write of an edit that has loaded the dashboard, and its answer to what the store says. -/
inductive Planned (loaded : Dashboard) (edit : DashboardEdit) :
    (Dashboard → Dashboard → Dashboard) → (Option Dashboard → EditAnswer) → Prop
  | panels {now : String} {answer : Option Dashboard → EditAnswer} (hwrites : edit.columns = .panels)
      (hanswer : ∀ d, DashboardEdit.acknowledged (.ok (answer (some d))) = true) :
      Planned loaded edit
        (fun _ row => { row with panels := edit.change loaded.panels, updatedAt := now }) answer
  | «variables» {now : String} {values : List Json} {answer : Option Dashboard → EditAnswer}
      (hwrites : edit.columns = .variables)
      (hanswer : ∀ d, DashboardEdit.acknowledged (.ok (answer (some d))) = true) :
      Planned loaded edit (fun _ row => { row with «variables» := values, updatedAt := now }) answer
  | record {now : String} {patch : DashboardPatch} {answer : Option Dashboard → EditAnswer}
      (hwrites : edit.columns = .record) (htitle : patch.title = edit.title)
      (hpanels : patch.panels = none)
      (hanswer : ∀ d, DashboardEdit.acknowledged (.ok (answer (some d))) = true) :
      Planned loaded edit (DashboardRepository.merge now patch) answer

def writing (id : String) (change : Dashboard → Dashboard)
    (answer : Option Dashboard → EditAnswer) : Prog Tables EditAnswer :=
  DashboardRepository.store id change >>= fun stored => pure (answer stored)

/-- An edit that is still to come to its end: it reads, and then it writes what it has planned or
ends without an acknowledgement. -/
inductive Ahead (id : String) (found : Bool) (edit : DashboardEdit) :
    Prog Tables EditAnswer → Prop
  | over {p : Prog Tables EditAnswer} {r : Except String EditAnswer} (hout : p.outcome = some r)
      (hnone : DashboardEdit.acknowledged r = true → found = true ∧ edit.columns = .none) :
      Ahead id found edit p
  | reads {f : Tables → Tables} {k : Tables → Prog Tables EditAnswer} (hf : ∀ t, f t = t)
      (hk : ∀ t, (t.findDashboardById id).isSome = found → Ahead id found edit (k t)) :
      Ahead id found edit (.sect f k)
  | writes {loaded existing : Dashboard} {change : Dashboard → Dashboard → Dashboard}
      {answer : Option Dashboard → EditAnswer} (hfound : found = true)
      (hplan : Planned loaded edit change answer) :
      Ahead id found edit (writing id (change existing) answer)

section Ahead

variable {id : String} {found : Bool} {edit : DashboardEdit} {loaded existing row : Dashboard}
  {change : Dashboard → Dashboard → Dashboard} {answer : Option Dashboard → EditAnswer}

theorem Planned.row_eq (h : Planned loaded edit change answer)
    (hnow : edit.ReadNow loaded existing row) :
    (change existing row).panels = edit.change row.panels ∧
      (change existing row).title = edit.title.getD row.title := by
  unfold DashboardEdit.ReadNow at hnow
  cases h with
  | panels hwrites =>
    rw [hwrites] at hnow
    have hpanels : loaded.panels = row.panels := hnow
    rw [DashboardEdit.title_of_columns (by rw [hwrites]; exact nofun)]
    exact ⟨congrArg edit.change hpanels, rfl⟩
  | «variables» hwrites =>
    rw [DashboardEdit.title_of_columns (by rw [hwrites]; exact nofun),
      DashboardEdit.change_of_columns (by rw [hwrites]; exact nofun)]
    exact ⟨rfl, rfl⟩
  | @record now patch _ hwrites htitle hpanels =>
    rw [hwrites] at hnow
    obtain ⟨hsame, hkept⟩ : existing.panels = row.panels ∧
      (edit.title = none → existing.title = row.title) := hnow
    rw [DashboardEdit.change_of_columns (by rw [hwrites]; exact nofun)]
    show patch.panels.getD existing.panels = _ ∧ patch.title.getD existing.title = _
    rw [hpanels, htitle]
    refine ⟨hsame, ?_⟩
    cases htitled : edit.title with
    | none => exact hkept htitled
    | some title => rfl

theorem Planned.id_eq (h : Planned loaded edit change answer) : (change existing row).id = row.id := by
  cases h <;> rfl

theorem Planned.acknowledged (h : Planned loaded edit change answer) (d : Dashboard) :
    DashboardEdit.acknowledged (.ok (answer (some d))) = true := by
  cases h with
  | panels _ hanswer => exact hanswer d
  | «variables» _ hanswer => exact hanswer d
  | record _ _ _ hanswer => exact hanswer d

theorem Ahead.read_bind {α : Type} {f : Tables → α} {k : α → Prog Tables EditAnswer}
    (h : ∀ t, (t.findDashboardById id).isSome = found → Ahead id found edit (k (f t))) :
    Ahead id found edit (Prog.read f >>= k) :=
  .reads (fun _ => rfl) h

theorem Ahead.refused {r : DashboardReply} (h : ¬ r.status < 300) :
    Ahead id found edit (pure (.reply r)) :=
  .over (r := .ok (.reply r)) rfl fun hack => absurd (of_decide_eq_true hack) h

theorem Ahead.provisioned {d : Dashboard} :
    Ahead id found edit (pure (.reply (provisionedDashboard d))) :=
  .refused (show ¬ 409 < 300 by decide)

theorem Ahead.failed {e : String} : Ahead id found edit (throw e) :=
  .over (r := .error e) rfl fun hack => by cases hack

theorem Ahead.modify (hfound : found = true) (hplan : Planned loaded edit change answer) :
    Ahead id found edit
      (DashboardRepository.modify id change >>= fun stored => pure (answer stored)) := by
  rw [DashboardRepository.modify, DashboardRepository.findById, Prog.bind_assoc']
  refine .read_bind fun t ht => ?_
  cases hrow : t.findDashboardById id with
  | none =>
    rw [hrow, hfound] at ht
    cases ht
  | some row => exact .writes hfound hplan

theorem Ahead.permitted {caller : Caller} {e : Rbac.Evaluator}
    {handler : Prog Tables DashboardReply}
    (h : Ahead id found edit (handler >>= fun r => pure (.reply r))) :
    Ahead id found edit
      (permitted caller e forbidden handler >>= fun r => pure (.reply r)) := by
  rw [Rules.permitted, Prog.bind_assoc']
  refine .read_bind fun t _ => ?_
  split
  · exact h
  · exact .refused (by decide)

theorem Ahead.load {caller : Caller} {k : Option Dashboard → Prog Tables EditAnswer}
    (hnone : Ahead id found edit (k none))
    (hsome : ∀ d, found = true → Ahead id found edit (k (some d))) :
    Ahead id found edit (loadOwnedDashboard caller id >>= k) := by
  rw [loadOwnedDashboard, DashboardRepository.findById, Prog.bind_assoc']
  refine .read_bind fun t ht => ?_
  cases hrow : t.findDashboardById id with
  | none => exact hnone
  | some row =>
    dsimp only [Option.map_some]
    split
    · exact hnone
    · refine hsome _ ?_
      rw [← ht, hrow]
      rfl

theorem Ahead.sect_inv {f : Tables → Tables} {k : Tables → Prog Tables EditAnswer}
    (h : Ahead id found edit (.sect f k)) :
    (∀ t, f t = t) ∧ (∀ t, (t.findDashboardById id).isSome = found → Ahead id found edit (k t)) ∨
    found = true ∧ ∃ loaded existing change answer, Planned loaded edit change answer ∧
      .sect f k = writing id (change existing) answer := by
  generalize hp : Prog.sect f k = p at h
  cases h with
  | «over» hout =>
    rw [← hp] at hout
    cases hout
  | reads hf hk =>
    cases hp
    exact Or.inl ⟨hf, hk⟩
  | writes hfound hplan => exact Or.inr ⟨hfound, _, _, _, _, hplan, rfl⟩

theorem writing_step {f : Tables → Tables} {k : Tables → Prog Tables EditAnswer}
    {change : Dashboard → Dashboard} (h : .sect f k = writing id change answer) (t : Tables) :
    f t = DashboardRepository.edited id change t ∧
      k t = .ret (answer (((f t).findDashboardById id).map rowToDashboard)) := by
  cases h
  exact ⟨rfl, rfl⟩

theorem readable_eq_ok {xs ys : List Json} {key : String} (h : readable xs key = .ok ys) :
    ys = xs := by
  unfold readable at h
  split at h
  · cases h
  · cases h
    rfl

theorem acknowledged_stored {status : ℕ} (h : status < 300) (d : Dashboard) :
    DashboardEdit.acknowledged (.ok (.reply (stored status (some d)))) = true :=
  decide_eq_true h

/-! ## The programs -/

theorem ahead_postPanel {panelId now : String} {caller : Caller} {body : Json.Record} :
    Ahead id found (.postPanel panelId now caller body)
      (postPanel panelId now caller id body >>= fun r => pure (.reply r)) := by
  refine .permitted ?_
  rw [Prog.bind_assoc']
  refine .load (.refused (by decide)) fun d hfound => ?_
  dsimp only
  split
  · exact .provisioned
  · split
    · exact .refused (by decide)
    · rw [DashboardRepository.updatePanels, Prog.bind_assoc']
      exact .modify hfound (.panels rfl (acknowledged_stored (by decide)))

theorem ahead_deletePanel {now : String} {caller : Caller} {panelId : String} :
    Ahead id found (.deletePanel now caller panelId)
      (deletePanel now caller id panelId >>= fun r => pure (.reply r)) := by
  refine .permitted ?_
  rw [Prog.bind_assoc']
  refine .load (.refused (by decide)) fun d hfound => ?_
  dsimp only
  split
  · exact .provisioned
  · split
    · exact .failed
    · rename_i readPanels hread
      rw [readable_eq_ok hread]
      split
      · exact .refused (by decide)
      · rw [DashboardRepository.updatePanels, Prog.bind_assoc']
        exact .modify hfound (.panels rfl fun _ => rfl)

theorem putPatch_ok {driver : Driver} {now : String} {caller : Caller} {body : Json.Record}
    {patch : DashboardPatch} (h : putPatch driver body = .ok patch) :
    patch.title = (DashboardEdit.put now caller body).title ∧ patch.panels = none := by
  unfold putPatch at h
  cases hfolder : Folders.clearable driver (Json.field body "folder") with
  | error e =>
    rw [hfolder] at h
    cases h
  | ok folder =>
    rw [hfolder] at h
    cases h
    exact ⟨rfl, rfl⟩

theorem ahead_put {driver : Driver} {now : String} {caller : Caller} {body : Json.Record} :
    Ahead id found (.put now caller body)
      (putDashboard driver now caller id body >>= fun r => pure (.reply r)) := by
  refine .permitted ?_
  rw [Prog.bind_assoc']
  refine .load (.refused (by decide)) fun d hfound => ?_
  dsimp only
  split
  · exact .provisioned
  · rw [putUpdate, Prog.bind_assoc']
    cases hpatch : putPatch driver body with
    | ok patch =>
      obtain ⟨htitle, hpanels⟩ := @putPatch_ok driver now caller body patch hpatch
      exact .modify hfound
        (@Planned.record d _ now _ _ rfl htitle hpanels (acknowledged_stored (by decide)))
    | error e =>
      dsimp only
      rw [DashboardRepository.findById, Prog.bind_assoc']
      refine .read_bind fun t _ => ?_
      split
      · exact .refused (by decide)
      · exact .failed

theorem ahead_updatePanelsWith {now : String} {action : DashboardAction}
    {events : List DashboardSseEvent} {f : List Json → List Json} (hfound : found = true)
    (hcolumns : (DashboardEdit.action now action).columns = .panels)
    (hchange : (DashboardEdit.action now action).change = f) :
    Ahead id found (.action now action)
      (ActionExecutor.updatePanelsWith now id loaded.panels f events >>= fun sent =>
        pure (.events sent)) := by
  rw [ActionExecutor.updatePanelsWith]
  split
  · exact .failed
  · rename_i panels hread
    rw [readable_eq_ok hread, DashboardRepository.updatePanels, Prog.bind_assoc', ← hchange]
    exact .modify hfound (.panels hcolumns fun _ => rfl)

theorem ahead_applyTo {now : String} {action : DashboardAction} (hfound : found = true) :
    Ahead id found (.action now action)
      (ActionExecutor.applyTo now loaded id action >>= fun sent => pure (.events sent)) := by
  cases action with
  | addPanels panels =>
    rw [ActionExecutor.applyTo, DashboardRepository.updatePanels, Prog.bind_assoc']
    exact .modify hfound (.panels rfl fun _ => rfl)
  | removePanels panelIds => exact ahead_updatePanelsWith hfound rfl rfl
  | modifyPanel panelId patch => exact ahead_updatePanelsWith hfound rfl rfl
  | rearrange layout => exact ahead_updatePanelsWith hfound rfl rfl
  | addVariable v =>
    rw [ActionExecutor.applyTo, DashboardRepository.updateVariables, Prog.bind_assoc']
    exact .modify hfound (@Planned.variables loaded _ now _ _ rfl fun _ => rfl)
  | setTitle title description =>
    rw [ActionExecutor.applyTo, DashboardRepository.update, Prog.bind_assoc']
    exact .modify hfound (@Planned.record loaded _ now _ _ rfl rfl rfl fun _ => rfl)
  | createAlertRule => exact .over rfl fun _ => ⟨hfound, rfl⟩
  | modifyAlertRule => exact .over rfl fun _ => ⟨hfound, rfl⟩
  | deleteAlertRule => exact .over rfl fun _ => ⟨hfound, rfl⟩

theorem ahead_applyAction {now : String} {action : DashboardAction} :
    Ahead id found (.action now action)
      (ActionExecutor.applyAction now id action >>= fun sent => pure (.events sent)) := by
  rw [ActionExecutor.applyAction, DashboardRepository.findById, Prog.bind_assoc']
  refine .read_bind fun t ht => ?_
  cases hrow : t.findDashboardById id with
  | none => exact .failed
  | some row =>
    dsimp only [Option.map_some]
    split
    · exact .failed
    · refine ahead_applyTo ?_
      rw [← ht, hrow]
      rfl

theorem ahead_code (driver : Driver) (edit : DashboardEdit) :
    Ahead id found edit (edit.code driver id) := by
  cases edit with
  | postPanel panelId now caller body => exact ahead_postPanel
  | deletePanel now caller panelId => exact ahead_deletePanel
  | put now caller body => exact ahead_put
  | action now action => exact ahead_applyAction

end Ahead

/-! ## Interleaved edits -/

section Pool

variable {driver : Driver} {id : String} {edits : List DashboardEdit}
  {c c' : Config Tables DashboardEdit EditAnswer}

def AtWrite (id : String) (th : Thread Tables DashboardEdit EditAnswer)
    (loaded existing : Dashboard) (change : Dashboard → Dashboard → Dashboard)
    (answer : Option Dashboard → EditAnswer) : Prop :=
  Planned loaded th.op change answer ∧ th.prog = writing id (change existing) answer

def FromCurrent (id : String) (c : Config Tables DashboardEdit EditAnswer)
    (l : Label DashboardEdit) : Prop :=
  ∀ i th, l = .step i → c.threads[i]? = some th →
    (∃ loaded existing change answer, AtWrite id th loaded existing change answer) →
    ∃ loaded existing change answer, AtWrite id th loaded existing change answer ∧
      ∀ row, c.st.findDashboardById id = some row → th.op.ReadNow loaded existing row

structure EditsHold (id : String) (found : Bool)
    (log : List (DashboardEdit × Except String EditAnswer))
    (c : Config Tables DashboardEdit EditAnswer) : Prop where
  row : (c.st.findDashboardById id).isSome = found
  ahead : ∀ th ∈ c.threads, th.prog.finished = true ∨ Ahead id found th.op th.prog
  kept : NoEditLost id (acknowledgedEdits log) c.st

theorem acknowledgedEdits_append {log entries : List (DashboardEdit × Except String EditAnswer)} :
    acknowledgedEdits (log ++ entries) = acknowledgedEdits log ++ acknowledgedEdits entries := by
  rw [acknowledgedEdits, List.filter_append, List.map_append]
  rfl

theorem NoEditLost.ended {found : Bool} {edit : DashboardEdit} {p : Prog Tables EditAnswer}
    {t : Tables} (h : NoEditLost id edits t) (hrow : (t.findDashboardById id).isSome = found)
    (hp : Ahead id found edit p) :
    NoEditLost id (edits ++ acknowledgedEdits (p.outcome.map (edit, ·)).toList) t := by
  cases hout : p.outcome with
  | none =>
    show NoEditLost id (edits ++ []) t
    rw [List.append_nil]
    exact h
  | some r =>
    cases hack : DashboardEdit.acknowledged r with
    | false =>
      have hnothing : acknowledgedEdits [(edit, r)] = [] := by
        rw [acknowledgedEdits, List.filter_cons_of_neg (by simpa using hack)]
        rfl
      show NoEditLost id (edits ++ acknowledgedEdits [(edit, r)]) t
      rw [hnothing, List.append_nil]
      exact h
    | true =>
      cases hp with
      | @«over» p r' hout' hnone =>
        rw [hout] at hout'
        cases hout'
        obtain ⟨rfl, hcolumns⟩ := hnone hack
        obtain ⟨row, hrow⟩ := Option.isSome_iff_exists.mp hrow
        have hedit : acknowledgedEdits [(edit, r)] = [edit] := by
          rw [acknowledgedEdits, List.filter_cons_of_pos (by simpa using hack)]
          rfl
        show NoEditLost id (edits ++ acknowledgedEdits [(edit, r)]) t
        rw [hedit]
        refine h.append hrow hrow ?_ ?_
        · rw [DashboardEdit.change_of_columns (by rw [hcolumns]; exact nofun)]
        · rw [DashboardEdit.title_of_columns (by rw [hcolumns]; exact nofun)]
          rfl
      | reads => cases hout
      | writes => cases hout

section Steps

variable {found : Bool} {log : List (DashboardEdit × Except String EditAnswer)}

theorem EditsHold.start (h : EditsHold id found log c) {edit : DashboardEdit}
    (hn : c.next (DashboardEdit.code driver id) (.start edit) = some c') :
    EditsHold id found (log ++ c'.ended (.start edit)) c' := by
  obtain ⟨hst, -⟩ := Config.next_start hn
  refine ⟨by rw [hst]; exact h.row, fun th hth => ?_, ?_⟩
  · rcases Config.mem_of_next_start hn hth with hold | rfl
    · exact h.ahead th hold
    · exact Or.inr (ahead_code driver edit)
  · rw [acknowledgedEdits_append, Config.ended_start hn, hst]
    exact h.kept.ended h.row (ahead_code driver edit)

theorem EditsHold.step (h : EditsHold id found log c) {i : ℕ} (hok : FromCurrent id c (.step i))
    (hn : c.next (DashboardEdit.code driver id) (.step i) = some c') :
    EditsHold id found (log ++ c'.ended (.step i)) c' := by
  obtain ⟨edit, f, k, hi, hst, hi', hother⟩ := Config.next_step_threads hn
  have hahead : Ahead id found edit (.sect f k) :=
    (h.ahead _ (List.mem_of_getElem? hi)).resolve_left (by exact nofun)
  -- the other threads are where they were
  have hrest : (Ahead id found edit (k c.st) ∨ (k c.st).finished = true) →
      ∀ th ∈ c'.threads, th.prog.finished = true ∨ Ahead id found th.op th.prog := by
    intro hmoved th hth
    rcases Config.mem_of_moved hi' hother hth with rfl | ⟨j, -, hj⟩
    · exact hmoved.symm
    · exact h.ahead th (List.mem_of_getElem? hj)
  rcases hahead.sect_inv with ⟨hf, hk⟩ | ⟨rfl, hwrite⟩
  · have hmoved : Ahead id found edit (k c.st) := hk c.st h.row
    rw [hf] at hst
    refine ⟨by rw [hst]; exact h.row, hrest (Or.inl hmoved), ?_⟩
    rw [acknowledgedEdits_append, Config.ended_step hi', hst]
    exact h.kept.ended h.row hmoved
  · obtain ⟨loaded₀, existing₀, change₀, answer₀, hplan₀, hprog₀⟩ := hwrite
    obtain ⟨loaded, existing, change, answer, ⟨hplan, hprog⟩, hnow⟩ :=
      hok i _ rfl hi ⟨loaded₀, existing₀, change₀, answer₀, hplan₀, hprog₀⟩
    obtain ⟨row, hrow⟩ := Option.isSome_iff_exists.mp h.row
    obtain ⟨hf, hk⟩ := writing_step hprog c.st
    have hrow' : c'.st.findDashboardById id = some (change existing row) := by
      rw [hst, hf, findDashboardById_edited_self fun d => hplan.id_eq, hrow]
      rfl
    obtain ⟨hpanels, htitle⟩ := hplan.row_eq (hnow row hrow)
    rw [← hst, hrow'] at hk
    refine ⟨by rw [hrow']; rfl, hrest (Or.inr (by rw [hk]; rfl)), ?_⟩
    have hentry : acknowledgedEdits (c'.ended (.step i)) = [edit] := by
      rw [Config.ended_step hi', hk]
      show acknowledgedEdits [(edit, _)] = [edit]
      rw [acknowledgedEdits, List.filter_cons_of_pos (by exact hplan.acknowledged _)]
      rfl
    rw [acknowledgedEdits_append, hentry]
    exact h.kept.append hrow hrow' hpanels htitle

end Steps

/-- Where every write is computed from the row as it stands, no edit is lost. -/
theorem no_edit_lost (driver : Driver) (id : String) (t₀ : Tables)
    (log : List (DashboardEdit × Except String EditAnswer))
    (c : Config Tables DashboardEdit EditAnswer)
    (h : Logged (DashboardEdit.code driver id) (FromCurrent id) ⟨t₀, []⟩ log c) :
    NoEditLost id (acknowledgedEdits log) c.st := by
  have hhold : EditsHold id (t₀.findDashboardById id).isSome log c := by
    induction h with
    | init =>
      exact ⟨rfl, fun th hth => absurd hth List.not_mem_nil,
        fun _ h => absurd h not_stands_nil, fun _ h => absurd h not_stands_nil,
        fun _ h => absurd h not_stands_nil⟩
    | tail l _ hok hn ih =>
      cases l with
      | start edit => exact ih.start hn
      | step i => exact ih.step hok hn
  exact hhold.kept

theorem fromCurrent_of_reads {i : ℕ} {th : Thread Tables DashboardEdit EditAnswer}
    (hi : c.threads[i]? = some th)
    (h : ∀ f k, th.prog = .sect f k → (k c.st).finished = false) : FromCurrent id c (.step i) := by
  rintro i' th' hl hi' ⟨loaded, existing, change, answer, -, hprog⟩
  cases hl
  cases hi.symm.trans hi'
  cases hth : th.prog with
  | ret a => rw [hth] at hprog; cases hprog
  | fail e => rw [hth] at hprog; cases hprog
  | sect f k =>
    have hreads := h f k hth
    rw [hth] at hprog
    rw [(writing_step hprog c.st).2] at hreads
    cases hreads

theorem fromCurrent_start {edit : DashboardEdit} : FromCurrent id c (.start edit) := by
  intro i th hl
  cases hl

end Pool

section Examples

def checkoutDashboard : Dashboard where
  id := "d1"
  title := "Checkout"
  description := ""
  prompt := ""
  userId := "u1"
  workspaceId := some "org_main"

def editor : Caller := ⟨"org_main", some "u1", fun _ _ => true⟩

def postLatency : DashboardEdit :=
  .postPanel "p1" "t1" editor [("title", .str "Latency")]

def postErrors : DashboardEdit := .postPanel "p2" "t2" editor [("title", .str "Errors")]

def renameBoard : DashboardEdit := .action "t2" (.setTitle "Payments" none)

def board : Config Tables DashboardEdit EditAnswer := ⟨{ dashboards := [checkoutDashboard] }, []⟩

/-- The agent renames the dashboard while a panel is added, but finds the record after it. -/
theorem no_edit_lost_rename : ∃ log c,
    Logged (DashboardEdit.code sqliteDriver "d1") (FromCurrent "d1") board log c ∧
    NoEditLost "d1" (acknowledgedEdits log) c.st ∧ (acknowledgedEdits log).length = 2 := by
  obtain ⟨c, hexec⟩ : ∃ c, Config.exec (DashboardEdit.code sqliteDriver "d1") board
      [.start postLatency, .start renameBoard, .step 0, .step 0, .step 1, .step 0, .step 0, .step 1,
        .step 1] = some c := ⟨_, rfl⟩
  have hlog := @Logged.of_exec _ _ _ (DashboardEdit.code sqliteDriver "d1")
    (FromCurrent "d1") board _ _ _ _ .init ?_ hexec
  · refine ⟨_, c, hlog, no_edit_lost _ _ _ _ _ hlog, by decide +kernel⟩
  · -- the two statements come seventh and last
    iterate 2
      refine ⟨fromCurrent_start, ?_⟩
      rintro c' ⟨⟩
    iterate 4
      refine ⟨fromCurrent_of_reads rfl (by rintro f k ⟨⟩; rfl), ?_⟩
      rintro c' ⟨⟩
    refine ⟨?_, ?_⟩
    · rintro i th hl hi -
      cases hl
      cases hi
      refine ⟨checkoutDashboard, checkoutDashboard, _, fun d => .reply (stored 201 d),
        ⟨@Planned.panels checkoutDashboard postLatency "t1" _ rfl
          (acknowledged_stored (by decide)), rfl⟩, ?_⟩
      rintro row ⟨⟩
      rfl
    rintro c' ⟨⟩
    refine ⟨fromCurrent_of_reads rfl (by rintro f k ⟨⟩; rfl), ?_⟩
    rintro c' ⟨⟩
    refine ⟨?_, fun _ _ => trivial⟩
    · rintro i th hl hi -
      cases hl
      cases hi
      refine ⟨checkoutDashboard, _, _, fun _ => .events [.thinking "Dashboard title updated"],
        ⟨@Planned.record checkoutDashboard renameBoard "t2"
          { title := some "Payments", description := none } _ rfl rfl rfl fun _ => rfl, rfl⟩, ?_⟩
      rintro row ⟨⟩
      exact ⟨rfl, nofun⟩

/-- Two panels are added at the same time: both are acknowledged, and one of them is lost. -/
theorem panel_lost : ¬ ∀ (t₀ : Tables) (log : List (DashboardEdit × Except String EditAnswer))
    (c : Config Tables DashboardEdit EditAnswer),
    Logged (DashboardEdit.code sqliteDriver "d1") (fun _ _ => True) ⟨t₀, []⟩ log c →
    NoEditLost "d1" (acknowledgedEdits log) c.st := by
  intro hall
  obtain ⟨c, hexec⟩ : ∃ c, Config.exec (DashboardEdit.code sqliteDriver "d1") board
      [.start postLatency, .start postErrors, .step 0, .step 0, .step 1, .step 1, .step 0, .step 0,
        .step 1, .step 1] = some c := ⟨_, rfl⟩
  have hkept := hall _ _ c (Logged.of_exec .init (allOk_of_forall (fun _ _ => trivial) _ _) hexec)
  have hstands : Stands (·.Adds "p1") (·.Takes "p1") [postLatency, postErrors] := by
    refine ⟨[], postLatency, [postErrors], rfl, rfl, fun edit hedit => ?_⟩
    rw [List.mem_singleton.mp hedit]
    rintro (hremoves | ⟨newId, hrenames, -⟩)
    · exact hremoves
    · exact hrenames
  obtain ⟨row, hrow, hany⟩ := hkept.added "p1" hstands
  have hfound : (c.st.findDashboardById "d1").map (·.panels.any (hasId "p1")) = some false := by
    cases hexec
    decide +kernel
  rw [hrow, Option.map_some, hany] at hfound
  cases hfound

end Examples

end OpenObs.Dashboards
