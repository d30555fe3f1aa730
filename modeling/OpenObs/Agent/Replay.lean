import OpenObs.Agent.LoopRun

/-!
# What the model said comes back to it

The observations of a run are the tool calls the gateway has answered with, batch by batch. So every
request of the loop holds all of them again, as the messages they came in.
-/

namespace OpenObs.Agent

open OpenObs.Foundation OpenObs.LlmGateway

namespace ReActLoop

def ToolCall.block (tc : ToolCall) : ContentBlock Json.Record :=
  .toolUse tc.id tc.name tc.input tc.providerMetadata

def isToolUse : ContentBlock Json.Record → Bool
  | .toolUse .. => true
  | _ => false

structure Round (tcs : List ToolCall) (m answer : CompletionMessage Json.Record) : Prop where
  role : m.role = .assistant
  uses : m.blocks.filter isToolUse = tcs.map ToolCall.block
  answers : answer.role = .user
  results : List.Forall₂ (fun tc block => ∃ content, block = .toolResult tc.id tc.name content none)
    tcs answer.blocks

inductive InRounds {α β : Type} (R : α → β → β → Prop) : List α → List β → Prop where
  | nil : InRounds R [] []
  | snoc {as : List α} {bs : List β} {a : α} {b c : β} :
      InRounds R as bs → R a b c → InRounds R (as ++ [a]) (bs ++ [b, c])

def Label.heard : Label → List (List ToolCall)
  | .completed (.ok response) =>
    match response.toolCalls with
    | [] => []
    | tc :: rest => [tc :: rest]
  | _ => []

def heard (ls : List Label) : List (List ToolCall) := ls.flatMap Label.heard

def Opening (m : CompletionMessage Json.Record) : Prop := ∃ role text, m = ⟨role, .text text⟩

/-- The last thing done is a request: an opening, and the rounds of what was heard. -/
def Asks (turns : List (List ToolCall)) (s : Run) : Prop :=
  ∃ opening rounds, s.before.getLast? = some (.complete (opening ++ rounds)) ∧
    (∀ m ∈ opening, Opening m) ∧ InRounds Round turns rounds

section Law

variable {deps : LoopDeps} {turns past : List (List ToolCall)} {done tcs : List ToolCall}
  {obss : List (List (ReActObservation Json.Record))} {obs : List (ReActObservation Json.Record)}
  {s s' : Run}

/-- What an observation keeps of a call of the batch `k`. -/
structure Records (k : ℕ) (tc : ToolCall) (o : ReActObservation Json.Record) : Prop where
  batch : o.batchId = some k
  id : o.toolUseId = some tc.id
  action : o.action = tc.name
  args : o.args = tc.input
  metadata : o.providerMetadata = tc.providerMetadata

inductive Noted : List (List ToolCall) → List (List (ReActObservation Json.Record)) → Prop where
  | nil : Noted [] []
  | snoc {turns : List (List ToolCall)} {obss : List (List (ReActObservation Json.Record))}
      {tcs : List ToolCall} {obs : List (ReActObservation Json.Record)} :
      Noted turns obss → tcs ≠ [] → List.Forall₂ (Records turns.length) tcs obs →
      Noted (turns ++ [tcs]) (obss ++ [obs])

theorem Records.sameBatch {k : ℕ} (h : List.Forall₂ (Records k) tcs obs) :
    ∀ o ∈ obs, o.batchId = some k := by
  intro o ho
  obtain ⟨i, hi, rfl⟩ := List.mem_iff_getElem.mp ho
  have hlen := h.length_eq
  exact (h.get (by omega) hi).batch

theorem Noted.length_eq (h : Noted turns obss) : obss.length = turns.length := by
  induction h with
  | nil => rfl
  | snoc _ _ _ ih => simp [ih]

theorem Noted.ne_nil (h : Noted turns obss) : [] ∉ obss := by
  induction h with
  | nil => simp
  | snoc _ hne hobs ih =>
    intro hmem
    rcases List.mem_append.mp hmem with hmem | hmem
    · exact ih hmem
    · rw [← List.mem_singleton.mp hmem] at hobs
      exact hne (List.forall₂_nil_right_iff.mp hobs)

theorem Noted.batchIds (h : Noted turns obss) :
    ∀ obs ∈ obss, ∃ k < turns.length, ∀ o ∈ obs, o.batchId = some k := by
  induction h with
  | nil => simp
  | @snoc turns obss tcs obs h _ hobs ih =>
    intro batch hbatch
    rw [List.length_append, List.length_singleton]
    rcases List.mem_append.mp hbatch with hbatch | hbatch
    · obtain ⟨k, hk, hids⟩ := ih batch hbatch
      exact ⟨k, by omega, hids⟩
    · rw [List.mem_singleton.mp hbatch]
      exact ⟨turns.length, by omega, Records.sameBatch hobs⟩

theorem Noted.apart (h : Noted turns obss) : obss.IsChain fun a b =>
    ∃ (ha : a ≠ []) (hb : b ≠ []), sameBatch (a.getLast ha) (b.head hb) = false := by
  induction h with
  | nil => exact .nil
  | @snoc turns obss tcs obs h hne hobs ih =>
    refine List.isChain_append.mpr ⟨ih, .singleton _, fun a ha b hb => ?_⟩
    have hmem : a ∈ obss := List.mem_of_getLast? ha
    have hne' : a ≠ [] := fun heq => h.ne_nil (heq ▸ hmem)
    cases hb
    have hobs' : obs ≠ [] := fun heq => hne (List.forall₂_nil_right_iff.mp (heq ▸ hobs))
    obtain ⟨k, hk, hids⟩ := h.batchIds a hmem
    refine ⟨hne', hobs', decide_eq_false fun heq => ?_⟩
    rw [hids _ (List.getLast_mem hne'), Records.sameBatch hobs _ (List.head_mem hobs')] at heq
    exact absurd (Option.some.inj heq) (by omega)

theorem Noted.batches (h : Noted turns obss) : batches obss.flatten = obss := by
  rw [batches_eq]
  refine List.splitBy_flatten h.ne_nil (fun obs hobs => ?_) h.apart
  obtain ⟨k, -, hids⟩ := h.batchIds obs hobs
  exact isChain_sameBatch hids

/-! ### A batch on its way back -/

theorem replayed_uses {k i : ℕ} (h : List.Forall₂ (Records k) tcs obs) :
    obs.map (fun o => (.toolUse (o.toolUseId.getD (replayId i o.action)) o.action o.args
      o.providerMetadata : ContentBlock Json.Record)) = tcs.map ToolCall.block := by
  induction h with
  | nil => rfl
  | @cons tc o tcs obs ho _ ih =>
    rw [List.map_cons, List.map_cons, ih, ho.id, ho.action, ho.args, ho.metadata]
    rfl

theorem round_turn {k i : ℕ} {isOlder : Bool} (h : List.Forall₂ (Records k) tcs obs) :
    Round tcs ⟨.assistant, .blocks (assistantBlocks i obs)⟩
      ⟨.user, .blocks (userBlocks isOlder i obs)⟩ where
  role := rfl
  uses := by
    show (assistantBlocks i obs).filter isToolUse = _
    rw [assistantBlocks, replayed_uses h, List.filter_append]
    have hprose : ∀ blocks : List (ContentBlock Json.Record), (∀ b ∈ blocks, ¬ isToolUse b = true) →
        blocks.filter isToolUse = [] := fun blocks => List.filter_eq_nil_iff.mpr
    rw [hprose, List.nil_append, List.filter_eq_self.mpr]
    · simp [ToolCall.block, isToolUse]
    · split
      · simp
      · split <;> simp [isToolUse]
  answers := rfl
  results := by
    show List.Forall₂ _ tcs (userBlocks isOlder i obs)
    rw [userBlocks, List.forall₂_iff_get]
    refine ⟨by rw [List.length_mapIdx, h.length_eq], fun j hj hj' => ?_⟩
    rw [List.length_mapIdx] at hj'
    have ho := h.get hj hj'
    simp only [List.get_eq_getElem] at ho ⊢
    rw [List.getElem_mapIdx, ho.id, ho.action]
    exact ⟨_, rfl⟩

theorem Noted.rounds {cutoff : ℕ} (h : Noted turns obss) :
    InRounds Round turns (ReActLoop.turns cutoff 0 obss) := by
  induction h with
  | nil => exact .nil
  | snoc _ _ hobs ih =>
    rw [turns_append]
    exact ih.snoc (round_turn hobs)

/-! ## The loop -/

def Kept (turns : List (List ToolCall)) (vars : LoopVars) : Prop :=
  vars.batchCounter = turns.length ∧ ∃ obss, vars.observations = obss.flatten ∧ Noted turns obss

/-- The observations of the turns that are through, and of the calls of a turn that are. -/
def Under (past : List (List ToolCall)) (done : List ToolCall) (vars : LoopVars) : Prop :=
  vars.batchCounter = past.length + 1 ∧ ∃ obss obs, vars.observations = obss.flatten ++ obs ∧
    Noted past obss ∧ List.Forall₂ (Records past.length) done obs

def Told (turns : List (List ToolCall)) (s : Run) : Prop :=
  match s.pc with
  | .ready => Kept turns s.vars
  | .completing _ => Kept turns s.vars ∧ Asks turns s
  | .executing batch tc _ rest => ∃ past done, turns = past ++ [done ++ tc :: rest] ∧
      batch.batchId = past.length ∧ Under past done s.vars
  | .composing => True
  | .done _ => True

theorem told_finish (s : Run) (result : Except Thrown String) : Told turns (s.finish result) :=
  trivial

theorem told_replyWith (s : Run) (text : String) : Told turns (s.replyWith text) := trivial

@[simp] theorem vars_emit (s : Run) (e : Effect) : (s.emit e).vars = s.vars := by
  unfold Run.emit
  split <;> rfl

theorem Under.close (h : Under past done s.vars) (hne : done ≠ []) :
    Kept (past ++ [done]) s.vars := by
  obtain ⟨hcount, obss, obs, hall, hnoted, hobs⟩ := h
  refine ⟨by rw [hcount, List.length_append, List.length_singleton], obss ++ [obs], ?_,
    hnoted.snoc hne hobs⟩
  rw [hall, List.flatten_append, List.flatten_singleton]

theorem Under.observe {batch : Batch} {tc : ToolCall} {first : Bool} {text : String}
    (h : Under past done s.vars) (hbatch : batch.batchId = past.length) :
    Under past (done ++ [tc]) (observe batch tc first text s).vars := by
  obtain ⟨hcount, obss, obs, hall, hnoted, hobs⟩ := h
  obtain ⟨o, hlast, ho⟩ : ∃ o, (ReActLoop.observe batch tc first text s).vars.observations =
      s.vars.observations ++ [o] ∧ Records past.length tc o :=
    ⟨_, rfl, congrArg some hbatch, rfl, rfl, rfl, rfl⟩
  refine ⟨hcount, obss, obs ++ [o], ?_, hnoted, List.rel_append hobs (.cons ho .nil)⟩
  rw [hlast, hall, List.append_assoc]

theorem asks_messages (h : Kept turns s.vars) (hlast : s.before.getLast? = some (.complete
    (buildMessages deps.conversationSummary deps.systemPrompt deps.userMessage
      s.vars.observations))) : Asks turns s := by
  obtain ⟨-, obss, hall, hnoted⟩ := h
  refine ⟨_, _, hlast, fun m hm => ?_, ?_⟩
  · simp only [List.mem_append, List.mem_singleton] at hm
    rcases hm with (rfl | hm) | rfl
    · exact ⟨_, _, rfl⟩
    · split at hm
      · cases hm
      · split at hm
        · cases hm
        · rcases List.mem_pair.mp hm with rfl | rfl <;> exact ⟨_, _, rfl⟩
    · exact ⟨_, _, rfl⟩
  · rw [hall, hnoted.batches]
    exact hnoted.rounds

theorem told_turn (i : ℕ) (h : Kept turns s.vars) : Told turns (turn deps i s) := by
  unfold turn
  split
  · split
    · exact told_finish _ _
    next hnot =>
      dsimp only
      split
      · exact told_replyWith _ _
      · have hemit : ∀ e, s.emit e = { s with before := s.before ++ [e] } := fun e => by
          rw [Run.emit, if_neg hnot]
        rw [hemit]
        exact ⟨h, asks_messages h List.getLast?_concat⟩
  · unfold afterTurns
    split
    · exact trivial
    · exact told_replyWith _ _

theorem told_askUser (step : ReActStep) : Told turns (askUser step s) := by
  unfold askUser
  dsimp only
  split
  · exact told_finish _ _
  · split
    · exact told_finish _ _
    · exact told_replyWith _ _

theorem told_calls (batch : Batch) : ∀ (tcs : List ToolCall) {done : List ToolCall} {first : Bool}
    {s : Run}, Under past done s.vars → batch.batchId = past.length → done ++ tcs ≠ [] →
      Told (past ++ [done ++ tcs]) (calls deps batch first tcs s)
  | [], done, _, s, h, _, hne => by
    rw [List.append_nil] at hne ⊢
    exact told_turn _ (h.close hne)
  | tc :: rest, done, first, s, h, hbatch, _ => by
    rw [calls]
    dsimp only
    split
    · exact told_askUser _
    · split
      · split
        · exact told_finish _ _
        · -- a search is done at once, and the calls behind it follow
          rw [List.append_cons done]
          refine told_calls batch rest (Under.observe ?_ hbatch) hbatch (by simp)
          rw [Run.send, vars_emit, Run.send, vars_emit]
          exact h
      · refine ⟨past, done, rfl, hbatch, ?_⟩
        show Under past done ((noted (stepOf batch first tc) s).emit _).vars
        rw [vars_emit]
        exact h

theorem vars_think (blocks : List String) : ∀ s : Run, (think blocks s).vars = s.vars := by
  induction blocks with
  | nil => exact fun _ => rfl
  | cons tb blocks ih => exact fun s => (ih _).trans (vars_emit s _)

theorem vars_narrate (prose : Option String) (s : Run) : (narrate prose s).vars = s.vars := by
  cases prose with
  | none => rfl
  | some prose => exact vars_emit s _

theorem under_nextBatch (h : Kept turns s.vars) : Under turns [] (nextBatch s).vars := by
  obtain ⟨hcount, obss, hall, hnoted⟩ := h
  exact ⟨congrArg (· + 1) hcount, obss, [], hall.trans (List.append_nil _).symm, hnoted, .nil⟩

theorem told_answered (i : ℕ) (response : Response) (h : Kept turns s.vars) :
    Told (turns ++ Label.heard (.completed (.ok response))) (answered deps i response s) := by
  obtain ⟨content, toolCalls, thinkingBlocks⟩ := response
  unfold answered
  cases toolCalls with
  | nil =>
    rw [if_pos List.length_nil]
    dsimp only
    split
    · exact told_replyWith _ _
    · exact told_replyWith _ _
  | cons tc rest =>
    rw [if_neg (by simp)]
    have hthink : (think thinkingBlocks s).vars = s.vars := vars_think _ s
    have hkept : Kept turns (narrate (trimmed content) (think thinkingBlocks s)).vars := by
      rw [vars_narrate, hthink]
      exact h
    have hbatch : (think thinkingBlocks s).vars.batchCounter = turns.length := by
      rw [hthink]
      exact h.1
    exact told_calls _ (tc :: rest) (under_nextBatch hkept) hbatch (List.cons_ne_nil _ _)

theorem Told.step {l : Label} (h : Told turns s) (hstep : step deps s l = some s') :
    Told (turns ++ l.heard) s' := by
  cases l with
  | start =>
    simp only [ReActLoop.step] at hstep
    split at hstep
    next hpc =>
      cases hstep
      rw [Told, hpc] at h
      show Told (turns ++ []) _
      rw [List.append_nil, start]
      split
      · exact told_finish _ _
      · split
        · exact told_finish _ _
        · exact told_turn 0 h
    · cases hstep
  | abort =>
    show Told (turns ++ []) s'
    rw [List.append_nil]
    simp only [ReActLoop.step] at hstep
    split at hstep
    · cases hstep
    · split at hstep
      · cases hstep
      · cases hstep
        exact h
  | completed outcome =>
    simp only [ReActLoop.step] at hstep
    split at hstep
    next i hpc =>
      rw [Told, hpc] at h
      cases outcome with
      | error e =>
        cases hstep
        unfold failed
        split
        · exact told_finish _ _
        · exact told_replyWith _ _
      | ok response =>
        cases hstep
        exact told_answered i response h.1
    · cases hstep
  | executed outcome =>
    show Told (turns ++ []) s'
    rw [List.append_nil]
    simp only [ReActLoop.step] at hstep
    split at hstep
    next batch tc first rest hpc =>
      rw [Told, hpc] at h
      obtain ⟨past, done, rfl, hbatch, hunder⟩ := h
      split at hstep
      · cases hstep
        exact told_finish _ _
      · cases hstep
        exact told_finish _ _
      · cases hstep
        rw [List.append_cons done]
        exact told_calls batch rest (hunder.observe hbatch) hbatch (by simp)
    · cases hstep
  | composed outcome =>
    simp only [ReActLoop.step] at hstep
    split at hstep
    · cases hstep
      exact told_replyWith _ _
    · cases hstep

theorem Told.follow (ls : List Label) : ∀ {turns : List (List ToolCall)} {s s' : Run},
    Told turns s → Foundation.follow (ReActLoop.step deps) s ls = some s' → Told (turns ++ heard ls) s' := by
  induction ls with
  | nil =>
    intro turns s s' h hfollow
    cases hfollow
    rw [heard, List.flatMap_nil, List.append_nil]
    exact h
  | cons l ls ih =>
    intro turns s s' h hfollow
    obtain ⟨t, ht, hrest⟩ := Option.bind_eq_some_iff.mp hfollow
    rw [heard, List.flatMap_cons, ← List.append_assoc]
    exact ih (h.step ht) hrest

end Law

end ReActLoop

end OpenObs.Agent
