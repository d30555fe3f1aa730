import OpenObs.Agent.Places

/-!
# The places of reports

The two writing tools of an investigation work on the active one, and the check on
the one of the arguments.
-/

namespace OpenObs.Agent

open OpenObs.Foundation OpenObs.Resources OpenObs.Rules OpenObs.Dashboards
open OpenObs.Rbac hiding Folder

section Investigations

variable {ctx : ActionContext} {s : Session} {args : Json.Record}

theorem find?_without_self {β : Type} {l : List (String × β)} {id : String} :
    (l.filter (·.1 ≠ id)).find? (·.1 = id) = none := by
  rw [List.find?_eq_none]
  intro p hp
  simpa using (List.mem_filter.mp hp).2

theorem find?_without {β : Type} {l : List (String × β)} {id other : String} (hother : other ≠ id) :
    (l.filter (·.1 ≠ id)).find? (·.1 = other) = l.find? (·.1 = other) := by
  rw [List.find?_filter]
  congr 1
  ext p
  by_cases hp : p.1 = other
  · simp [hp, hother]
  · simp [hp]

theorem sectionsOf_addSection {id other : String} {added : InvestigationReportSection} :
    sectionsOf (addSection id added s) other =
      if other = id then sectionsOf s id ++ [added] else sectionsOf s other := by
  rw [sectionsOf, addSection, List.find?_append]
  by_cases hother : other = id
  · rw [if_pos hother, hother, find?_without_self]
    simp
  · have hnew : [(id, sectionsOf s id ++ [added])].find? (·.1 = other) = none := by
      simp [Ne.symm hother]
    rw [if_neg hother, find?_without hother, hnew, Option.or_none]
    rfl

theorem touches_addSection {folderPlace : Folder → Option String} {place : Place} {id : String}
    {added : InvestigationReportSection} :
    Touches folderPlace s (addSection id added s) place ↔ place = .investigation id := by
  constructor
  · intro htouch
    cases htouch with
    | reportSection hid =>
      rw [sectionsOf_addSection] at hid
      split at hid
      · rename_i hsame
        rw [hsame]
      · exact absurd rfl hid
    | dashboard hd => exact absurd hd not_touched_self
    | folder hf => exact absurd hf not_touched_self
    | alertRule hr => exact absurd hr not_touched_self
    | investigation hi => exact absurd hi not_touched_self
    | report hr => exact absurd hr not_touched_self
  · rintro rfl
    apply Touches.reportSection
    rw [sectionsOf_addSection, if_pos rfl]
    simp

theorem run_addSection :
    (((handleInvestigationAddSection ctx args).run s).2 = s ∧
      ∀ id, Folders.truthy s.activeInvestigationId = some id →
        (sectionTypeOf args = "text" ∨ sectionTypeOf args = "evidence") →
        stringOr args "content" "" ≠ "" →
        ¬ ∃ panel, sectionPanel ctx (sectionTypeOf args) args = .ok panel) ∨
    ∃ id added, Folders.truthy s.activeInvestigationId = some id ∧
      (sectionTypeOf args = "text" ∨ sectionTypeOf args = "evidence") ∧
      stringOr args "content" "" ≠ "" ∧
      (∃ panel, sectionPanel ctx (sectionTypeOf args) args = .ok panel) ∧
      ((handleInvestigationAddSection ctx args).run s).2 = addSection id added s := by
  rw [handleInvestigationAddSection, onActiveInvestigation, Prog.run_bind, Prog.run_read]
  dsimp only
  cases hactive : Folders.truthy s.activeInvestigationId with
  | none => exact Or.inl ⟨rfl, by simp⟩
  | some id =>
    dsimp only
    by_cases htype : sectionTypeOf args = "text" ∨ sectionTypeOf args = "evidence"
    · have htype' : ¬ ((asText (some (orDefault (Json.field args "type") (.str "text")))).getD ""
          ≠ "text" ∧ (asText (some (orDefault (Json.field args "type") (.str "text")))).getD "" ≠
          "evidence") := by
        rw [not_and_or, Decidable.not_not, Decidable.not_not]
        exact htype
      rw [if_neg htype']
      by_cases hcontent : stringOr args "content" "" = ""
      · rw [if_pos hcontent]
        exact Or.inl ⟨rfl, fun _ _ _ h => absurd hcontent h⟩
      · rw [if_neg hcontent]
        have hpanel : sectionPanel ctx ((asText (some (orDefault (Json.field args "type")
            (.str "text")))).getD "") args = sectionPanel ctx (sectionTypeOf args) args := rfl
        rw [hpanel]
        cases hp : sectionPanel ctx (sectionTypeOf args) args with
        | error e => exact Or.inl ⟨rfl, by simp⟩
        | ok panel =>
          exact Or.inr ⟨id, ⟨_, _, panel⟩, rfl, htype, hcontent, ⟨panel, rfl⟩, rfl⟩
    · have htype' : (asText (some (orDefault (Json.field args "type") (.str "text")))).getD ""
          ≠ "text" ∧ (asText (some (orDefault (Json.field args "type") (.str "text")))).getD "" ≠
          "evidence" := not_or.mp htype
      rw [if_pos htype']
      exact Or.inl ⟨rfl, fun _ _ h => absurd h htype⟩

theorem confined_addSection :
    (ScopedCall.investigationAddSection args).Confined ctx s ↔
      (ScopedCall.investigationAddSection args).NamesPlaces ctx s := by
  rw [ScopedCall.NamesPlaces]
  rcases @run_addSection ctx s args with ⟨hsame, hcond⟩ |
    ⟨id, added, hactive, htype, hcontent, hpanel, hset⟩
  · constructor
    · intro _ id hactive htype hcontent hpanel
      exact absurd hpanel (hcond id hactive htype hcontent)
    · intro _
      exact confined_of_unchanged hsame
  · have hbuilt : ((buildToolEvaluator ctx (ScopedCall.investigationAddSection args).tool args).run
        s).1 = .ok (some (.action "investigations:write"
          ["investigations:uid:" ++ stringOr args "investigationId" "*"])) := rfl
    rw [confined_iff hbuilt]
    constructor
    · intro h id' hactive' _ _ _
      rw [hactive] at hactive'
      cases hactive'
      refine names_investigation.mp (h (.investigation id) ?_)
      rw [ScopedCall.handler, hset]
      exact touches_addSection.mpr rfl
    · intro h place htouch
      rw [ScopedCall.handler, hset] at htouch
      rw [touches_addSection.mp htouch]
      exact names_investigation.mpr (h id hactive htype hcontent hpanel)

def completed (uuid now id summary : String) (s : Session) : Session :=
  { s with
    investigations := s.investigations.map fun i =>
      if i.id = id then { i with status := "completed", updatedAt := now } else i
    investigationReports := (saveReport (reportOf s uuid now id summary) s).investigationReports
    investigationSections := s.investigationSections.filter (·.1 ≠ id)
    activeInvestigationId := none }

theorem run_completeInvestigation {uuid now id summary : String} {i : Investigation}
    (hfound : s.investigations.find? (·.id = id) = some i) :
    ((completeInvestigation uuid now id summary).run s).2 = completed uuid now id summary s := by
  rw [completeInvestigation, Prog.run_bind, Prog.run_read]
  dsimp only
  rw [Prog.run_bind, Prog.run_write]
  dsimp only
  rw [Prog.run_bind, InvestigationRepository.updateStatus, InvestigationRepository.findById,
    Prog.run_bind, Prog.run_read]
  dsimp only
  rw [completed, reportOf, saveReport]
  by_cases htaken : uuid ∈ s.investigationReports.map (·.id)
  · simp only [if_pos htaken]
    rw [hfound]
    rfl
  · simp only [if_neg htaken]
    rw [hfound]
    rfl

theorem run_complete {uuid now : String} :
    (((handleInvestigationComplete ctx uuid now args).run s).2 = s ∧
      ∀ id, Folders.truthy s.activeInvestigationId = some id → stringOr args "summary" "" ≠ "" →
        ∀ i, s.investigations.find? (·.id = id) = some i →
        i.workspaceId ≠ some ctx.caller.orgId) ∨
    ∃ id i, Folders.truthy s.activeInvestigationId = some id ∧ stringOr args "summary" "" ≠ "" ∧
      s.investigations.find? (·.id = id) = some i ∧ i.workspaceId = some ctx.caller.orgId ∧
      ((handleInvestigationComplete ctx uuid now args).run s).2 =
        completed uuid now id (stringOr args "summary" "") s := by
  rw [handleInvestigationComplete, onActiveInvestigation, Prog.run_bind, Prog.run_read]
  dsimp only
  cases hactive : Folders.truthy s.activeInvestigationId with
  | none => exact Or.inl ⟨rfl, by simp⟩
  | some id =>
    dsimp only
    by_cases hsummary : stringOr args "summary" "" = ""
    · rw [if_pos hsummary]
      exact Or.inl ⟨rfl, fun _ _ h => absurd hsummary h⟩
    · rw [if_neg hsummary, InvestigationRepository.findById, Prog.run_bind, Prog.run_read]
      dsimp only
      cases hfound : s.investigations.find? (·.id = id) with
      | none =>
        refine Or.inl ⟨rfl, ?_⟩
        intro id' hid' _ i hi
        cases hid'
        rw [hfound] at hi
        cases hi
      | some i =>
        dsimp only
        by_cases hown : i.workspaceId = some ctx.caller.orgId
        · rw [if_neg (not_not.mpr hown)]
          exact Or.inr ⟨id, i, rfl, hsummary, hfound, hown, run_completeInvestigation hfound⟩
        · rw [if_pos hown]
          refine Or.inl ⟨rfl, ?_⟩
          intro id' hid' _ i' hi'
          cases hid'
          rw [hfound] at hi'
          cases hi'
          exact hown

section Completed

variable {uuid now id summary : String} {folderPlace : Folder → Option String} {place : Place}

theorem sectionsOf_completed {other : String} :
    sectionsOf (completed uuid now id summary s) other =
      if other = id then [] else sectionsOf s other := by
  rw [sectionsOf, completed]
  by_cases hother : other = id
  · rw [if_pos hother, hother, find?_without_self]
    rfl
  · rw [if_neg hother, find?_without hother]
    rfl

theorem reports_completed_taken (h : uuid ∈ s.investigationReports.map (·.id)) :
    (completed uuid now id summary s).investigationReports = s.investigationReports.map fun r =>
      if r.id = uuid then { reportOf s uuid now id summary with createdAt := r.createdAt }
      else r := by
  rw [completed, saveReport]
  dsimp only
  rw [if_pos]
  · rfl
  · exact h

theorem reports_completed_new (h : uuid ∉ s.investigationReports.map (·.id)) :
    (completed uuid now id summary s).investigationReports =
      s.investigationReports ++ [reportOf s uuid now id summary] := by
  rw [completed, saveReport]
  dsimp only
  rw [if_neg]
  exact h

theorem touches_completed (h : Touches folderPlace s (completed uuid now id summary s) place) :
    ∃ j, place = .investigation j ∧
      (j = id ∨ ∃ r ∈ s.investigationReports, r.id = uuid ∧ r.dashboardId = j) := by
  cases h with
  | dashboard hd => exact absurd hd not_touched_self
  | folder hf => exact absurd hf not_touched_self
  | alertRule hr => exact absurd hr not_touched_self
  | @investigation i hi =>
    obtain ⟨b, -, hb, hib⟩ := touched_map hi
    have hbid : b.id = id := by
      by_contra hne
      exact hb (if_neg hne)
    refine ⟨i.id, rfl, Or.inl ?_⟩
    rcases hib with rfl | rfl
    · exact hbid
    · rw [if_pos hbid]
      exact hbid
  | @report r hr =>
    refine ⟨r.dashboardId, rfl, ?_⟩
    by_cases htaken : uuid ∈ s.investigationReports.map (·.id)
    · rw [reports_completed_taken htaken] at hr
      obtain ⟨b, hmem, hb, hrb⟩ := touched_map hr
      have hbid : b.id = uuid := by
        by_contra hne
        exact hb (if_neg hne)
      rcases hrb with rfl | rfl
      · exact Or.inr ⟨r, hmem, hbid, rfl⟩
      · rw [if_pos hbid]
        exact Or.inl rfl
    · rw [reports_completed_new htaken] at hr
      rw [(touched_append fun hmem => htaken (List.mem_map.mpr ⟨_, hmem, rfl⟩)).mp hr]
      exact Or.inl rfl
  | @reportSection j hj =>
    refine ⟨j, rfl, Or.inl ?_⟩
    by_contra hne
    rw [sectionsOf_completed, if_neg hne] at hj
    exact hj rfl

theorem not_touches_completed (hdone : Completed s (reportOf s uuid now id summary)) :
    ¬ Touches folderPlace s (completed uuid now id summary s) place := by
  intro h
  cases h with
  | dashboard hd => exact not_touched_self hd
  | folder hf => exact not_touched_self hf
  | alertRule hr => exact not_touched_self hr
  | investigation hi =>
    obtain ⟨b, hmem, hb, -⟩ := touched_map hi
    by_cases hbid : b.id = id
    · obtain ⟨hstatus, hupdated⟩ := hdone.status b hmem hbid
      rw [if_pos hbid] at hb
      apply hb
      have hsame : b.updatedAt = now := hupdated
      rw [← hstatus, ← hsame]
    · exact hb (if_neg hbid)
  | report hr =>
    have htaken : uuid ∈ s.investigationReports.map (·.id) := hdone.taken
    rw [reports_completed_taken htaken] at hr
    obtain ⟨b, hmem, hb, -⟩ := touched_map hr
    by_cases hbid : b.id = uuid
    · rw [if_pos hbid] at hb
      exact hb (hdone.same b hmem hbid).symm
    · exact hb (if_neg hbid)
  | @reportSection j hj =>
    rw [sectionsOf_completed] at hj
    by_cases hjid : j = id
    · rw [if_pos hjid, hjid] at hj
      exact hj hdone.sections.symm
    · rw [if_neg hjid] at hj
      exact hj rfl

theorem touches_of_not_completed (hkeys : (s.investigationReports.map (·.id)).Nodup)
    (hdone : ¬ Completed s (reportOf s uuid now id summary)) :
    Touches folderPlace s (completed uuid now id summary s) (.investigation id) := by
  by_contra hnot
  apply hdone
  have htaken : uuid ∈ s.investigationReports.map (·.id) := by
    by_contra hnew
    apply hnot
    refine Touches.report (r := reportOf s uuid now id summary) ?_
    rw [reports_completed_new hnew]
    exact (touched_append fun hmem => hnew (List.mem_map.mpr ⟨_, hmem, rfl⟩)).mpr rfl
  refine ⟨htaken, fun r hr hrid => ?_, fun i hi hiid => ?_, ?_⟩
  · by_contra hne
    apply hnot
    refine Touches.report
      (r := { reportOf s uuid now id summary with createdAt := r.createdAt }) (Or.inl ⟨?_, ?_⟩)
    · rw [reports_completed_taken htaken]
      exact List.mem_map.mpr ⟨r, hr, if_pos hrid⟩
    · intro hmem
      exact hne (List.inj_on_of_nodup_map hkeys hr hmem hrid)
  · by_contra hne
    apply hnot
    have hid : i.id = id := hiid
    rw [← hid]
    refine Touches.investigation (Or.inr ⟨hi, fun hmem => hne ?_⟩)
    obtain ⟨b, -, hb⟩ := List.mem_map.mp hmem
    split at hb
    · rw [← hb]
      exact ⟨rfl, rfl⟩
    · rename_i hbid
      rw [hb] at hbid
      exact absurd rfl hbid
  · by_contra hne
    apply hnot
    apply Touches.reportSection
    rw [sectionsOf_completed, if_pos rfl]
    exact fun h => hne h.symm

theorem touches_of_taken {r : SavedInvestigationReport} (hr : r ∈ s.investigationReports)
    (hid : r.id = uuid) (hother : r.dashboardId ≠ id) :
    Touches folderPlace s (completed uuid now id summary s) (.investigation r.dashboardId) := by
  apply Touches.report
  right
  refine ⟨hr, fun hmem => ?_⟩
  rw [reports_completed_taken (List.mem_map.mpr ⟨r, hr, hid⟩)] at hmem
  obtain ⟨b, -, hb⟩ := List.mem_map.mp hmem
  split at hb
  · rw [← hb] at hother
    exact hother rfl
  · rename_i hbid
    rw [hb] at hbid
    exact hbid hid

end Completed

theorem confined_complete {uuid now : String}
    (hkeys : (s.investigationReports.map (·.id)).Nodup) :
    (ScopedCall.investigationComplete uuid now args).Confined ctx s ↔
      (ScopedCall.investigationComplete uuid now args).NamesPlaces ctx s := by
  rw [ScopedCall.NamesPlaces]
  rcases @run_complete ctx s args uuid now with ⟨hsame, hcond⟩ |
    ⟨id, i, hactive, hsummary, hfound, hown, hset⟩
  · constructor
    · intro _ id hactive hsummary i hfound hown
      exact absurd hown (hcond id hactive hsummary i hfound)
    · intro _
      exact confined_of_unchanged hsame
  · have hbuilt : ((buildToolEvaluator ctx (ScopedCall.investigationComplete uuid now args).tool
        args).run s).1 = .ok (some (.action "investigations:write"
          ["investigations:uid:" ++ stringOr args "investigationId" "*"])) := rfl
    rw [confined_iff hbuilt, ScopedCall.handler, hset]
    constructor
    · intro h id' hactive' _ _ _ _ hdone
      rw [hactive] at hactive'
      cases hactive'
      rcases names_investigation.mp (h _ (touches_of_not_completed hkeys hdone)) with hstar | hid
      · exact Or.inl hstar
      · by_cases hstar : stringOr args "investigationId" "*" = "*"
        · exact Or.inl hstar
        · refine Or.inr ⟨hid, fun r hr hrid => ?_⟩
          by_contra hother
          rcases names_investigation.mp (h _ (touches_of_taken hr hrid hother)) with h' | h'
          · exact hstar h'
          · exact hother (h'.symm.trans hid)
    · intro h place htouch
      have hdone : ¬ Completed s (reportOf s uuid now id (stringOr args "summary" "")) :=
        fun hdone => not_touches_completed hdone htouch
      obtain ⟨j, rfl, hj⟩ := touches_completed htouch
      apply names_investigation.mpr
      rcases h id hactive hsummary i hfound hown hdone with hstar | ⟨hid, hreports⟩
      · exact Or.inl hstar
      · right
        rw [hid]
        rcases hj with rfl | ⟨r, hr, hrid, hrj⟩
        · rfl
        · rw [← hrj, hreports r hr hrid]

end Investigations

end OpenObs.Agent
