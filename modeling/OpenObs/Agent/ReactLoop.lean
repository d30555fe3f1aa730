import OpenObs.Foundation.Text
import OpenObs.LlmGateway.Messages
import Mathlib.Data.List.SplitBy

/-!
# The conversation of the loop

`agent-core/src/agent/react-loop.ts`: the messages of the next gateway call are built anew from the
observations. Consecutive observations of one batch become an assistant turn with their tool uses
and a user turn with their results.
-/

namespace OpenObs.Agent

open OpenObs.Foundation OpenObs.LlmGateway

structure ReActObservation (Args : Type) where
  action : String
  args : Args
  result : String
  toolUseId : Option String := none
  batchId : Option ℕ := none
  providerMetadata : Option Json.Record := none
  preToolText : Option String := none

namespace ReActLoop

def OBSERVATION_KEEP_RECENT : ℕ := 6

def OBSERVATION_MAX_CHARS : ℕ := 2000

section Code

variable {Args : Type}

def groupBatches : Option ℕ → List (ReActObservation Args) → List (ReActObservation Args) →
    List (List (ReActObservation Args))
  | _, currentBatch, [] => if currentBatch.length > 0 then [currentBatch] else []
  | currentBatchId, currentBatch, obs :: rest =>
    if obs.batchId ≠ currentBatchId then
      (if currentBatch.length > 0 then [currentBatch] else []) ++
        groupBatches obs.batchId [obs] rest
    else groupBatches currentBatchId (currentBatch ++ [obs]) rest

def batches (observations : List (ReActObservation Args)) : List (List (ReActObservation Args)) :=
  groupBatches none [] observations

def replayId (index : ℕ) (action : String) : String :=
  "replay_" ++ toString index ++ "_" ++ action

def assistantBlocks (observationIndex : ℕ) (batch : List (ReActObservation Args)) :
    List (ContentBlock Args) :=
  (match batch.head?.bind (·.preToolText) with
    | none => []
    | some preText => if preText = "" then [] else [.text preText]) ++
  batch.map fun obs =>
    .toolUse (obs.toolUseId.getD (replayId observationIndex obs.action)) obs.action obs.args
      obs.providerMetadata

def resultText (isOlder : Bool) (result : String) : String :=
  let length := (Text.units result.toList).length
  if isOlder then
    "[Earlier] " ++ String.ofList (Text.firstUnits 120 result.toList) ++
      (if length > 120 then "..." else "")
  else if length > OBSERVATION_MAX_CHARS then
    String.ofList (Text.firstUnits OBSERVATION_MAX_CHARS result.toList) ++
      "\n... (truncated, " ++ toString length ++ " chars total)"
  else result

def userBlocks (isOlder : Bool) (observationIndex : ℕ) (batch : List (ReActObservation Args)) :
    List (ContentBlock Args) :=
  batch.mapIdx fun k obs =>
    .toolResult (obs.toolUseId.getD
        (replayId (observationIndex - batch.length + k + 1) obs.action))
      obs.action (resultText isOlder obs.result) none

def turns (cutoff : ℕ) : ℕ → List (List (ReActObservation Args)) → List (CompletionMessage Args)
  | _, [] => []
  | observationIndex, batch :: rest =>
    let isOlder := decide (observationIndex + batch.length ≤ cutoff)
    let observationIndex := observationIndex + batch.length
    ⟨.assistant, .blocks (assistantBlocks observationIndex batch)⟩ ::
      ⟨.user, .blocks (userBlocks isOlder observationIndex batch)⟩ ::
        turns cutoff observationIndex rest

def buildMessages (conversationSummary : Option String) (systemPrompt userMessage : String)
    (observations : List (ReActObservation Args)) : List (CompletionMessage Args) :=
  [⟨.system, .text systemPrompt⟩] ++
  (match conversationSummary with
    | none => []
    | some summary =>
      if summary = "" then []
      else [⟨.user, .text ("[Conversation Summary]\n" ++ summary)⟩,
        ⟨.assistant, .text "Understood. I have the context from the previous conversation."⟩]) ++
  [⟨.user, .text userMessage⟩] ++
  turns (observations.length - OBSERVATION_KEEP_RECENT) 0 (batches observations)

end Code

/-! ## What a conversation replays -/

section Law

variable {Args : Type} {batch : List (ReActObservation Args)} {i cutoff : ℕ}

def sameBatch (a b : ReActObservation Args) : Bool := a.batchId = b.batchId

def supplied (batch : List (ReActObservation Args)) : List String := batch.filterMap (·.toolUseId)

/-- Assistant and user turns alternate, and each assistant's tool uses are answered one by one. -/
inductive Alternating : List (CompletionMessage Args) → Prop where
  | nil : Alternating []
  | turn {uses results : List (ContentBlock Args)} {rest : List (CompletionMessage Args)} :
      (toolUses uses).map (·.id) = toolResultIds results → Alternating rest →
      Alternating (⟨.assistant, .blocks uses⟩ :: ⟨.user, .blocks results⟩ :: rest)

structure Replays (observations : List (ReActObservation Args))
    (messages : List (CompletionMessage Args)) : Prop where
  paired : Alternating messages
  distinct : ∀ before batch after, observations.splitBy sameBatch = before ++ batch :: after →
    (supplied batch).Nodup → ∀ m, messages[2 * before.length]? = some m →
      (m.toolUses.map (·.id)).Nodup
  complete : (messages.flatMap (·.toolUses)).map (fun use => (use.name, use.input)) =
    observations.map fun obs => (obs.action, obs.args)

/-- Only the last of a batch may have no id, and the one it gets is not supplied in the batch. -/
def Replayable (observations : List (ReActObservation Args)) : Prop :=
  ∀ before batch last after,
    observations.splitBy sameBatch = before ++ (batch ++ [last]) :: after →
    (∀ obs ∈ batch, obs.toolUseId.isSome = true) ∧
      (last.toolUseId = none → (supplied batch).Nodup →
        replayId (before.flatten.length + batch.length + 1) last.action ∉ supplied batch)

/-! ### The loop over the observations cuts where the batch id changes -/

theorem isChain_sameBatch {id : Option ℕ} {current : List (ReActObservation Args)}
    (hall : ∀ obs ∈ current, obs.batchId = id) :
    current.IsChain fun a b => sameBatch a b = true := by
  refine (List.pairwise_of_forall_mem_list fun a ha b hb => ?_).isChain
  exact decide_eq_true ((hall a ha).trans (hall b hb).symm)

theorem groupBatches_eq (observations : List (ReActObservation Args)) :
    ∀ (id : Option ℕ) (current : List (ReActObservation Args)), current ≠ [] →
      (∀ obs ∈ current, obs.batchId = id) →
      groupBatches id current observations = (current ++ observations).splitBy sameBatch := by
  induction observations with
  | nil =>
    intro id current hne hall
    rw [groupBatches, if_pos (List.length_pos_iff.mpr hne), List.append_nil,
      List.splitBy_of_isChain hne (isChain_sameBatch hall)]
  | cons obs rest ih =>
    intro id current hne hall
    rw [groupBatches]
    split
    · -- the batch id changes: the batch is closed, and a new one opened
      rename_i hcut
      have hopen := ih obs.batchId [obs] (List.cons_ne_nil _ _) fun o ho => by
        rw [List.mem_singleton.mp ho]
      rw [if_pos (List.length_pos_iff.mpr hne), hopen]
      rw [List.splitBy_append_cons, List.splitBy_of_isChain hne (isChain_sameBatch hall)]
      · rfl
      · intro a ha
        refine decide_eq_false fun heq => hcut ?_
        rw [← heq, hall a (List.mem_of_getLast? ha)]
    · rename_i hsame
      rw [ih id (current ++ [obs]) (by simp)]
      · rw [List.append_assoc]
        rfl
      · intro o ho
        rcases List.mem_append.mp ho with ho | ho
        · exact hall o ho
        · rw [List.mem_singleton.mp ho]
          exact not_not.mp hsame

theorem batches_eq (observations : List (ReActObservation Args)) :
    batches observations = observations.splitBy sameBatch := by
  cases observations with
  | nil => rfl
  | cons obs rest =>
    have hopen := groupBatches_eq rest obs.batchId [obs] (List.cons_ne_nil _ _) fun o ho => by
      rw [List.mem_singleton.mp ho]
    rw [batches, groupBatches]
    split
    · exact hopen
    · rename_i hsame
      rw [not_not] at hsame
      rw [← hsame]
      exact hopen

/-! ### One batch -/

theorem replayId_inj {n m : ℕ} {action : String} :
    replayId n action = replayId m action ↔ n = m := by
  rw [replayId, replayId, String.append_left_inj, String.append_left_inj, String.append_right_inj]
  refine ⟨fun h => ?_, fun h => by rw [h]⟩
  have hdigits : Nat.toDigits 10 n = Nat.toDigits 10 m := by
    rw [← Nat.toList_repr, ← Nat.toList_repr]
    exact congrArg String.toList h
  rw [← Nat.ofDigitChars_ten_toDigits (n := n), hdigits, Nat.ofDigitChars_ten_toDigits]

theorem toolUses_assistantBlocks : toolUses (assistantBlocks i batch) =
    batch.map fun obs => ⟨obs.toolUseId.getD (replayId i obs.action), obs.action, obs.args⟩ := by
  rw [assistantBlocks, toolUses, List.filterMap_append, List.filterMap_map, ← List.filterMap_eq_map]
  split
  · rfl
  · split <;> rfl

theorem toolResultIds_userBlocks {isOlder : Bool} :
    toolResultIds (userBlocks isOlder i batch) = batch.mapIdx fun k obs =>
      obs.toolUseId.getD (replayId (i - batch.length + k + 1) obs.action) := by
  unfold userBlocks toolResultIds
  rw [List.mapIdx_eq_zipIdx_map, List.mapIdx_eq_zipIdx_map, List.filterMap_map,
    ← List.filterMap_eq_map]
  rfl

theorem toolUses_userBlocks {isOlder : Bool} : toolUses (userBlocks isOlder i batch) = [] := by
  refine List.filterMap_eq_nil_iff.mpr fun block hblock => ?_
  obtain ⟨k, hk, rfl⟩ := List.mem_mapIdx.mp hblock
  rfl

/-- The ids of the tool uses of a batch that starts at `i`. -/
def useIds (i : ℕ) (batch : List (ReActObservation Args)) : List String :=
  (toolUses (assistantBlocks (i + batch.length) batch)).map (·.id)

theorem useIds_eq : useIds i batch =
    batch.map fun obs => obs.toolUseId.getD (replayId (i + batch.length) obs.action) := by
  rw [useIds, toolUses_assistantBlocks, List.map_map]
  rfl

theorem useIds_eq_results_iff {last : ReActObservation Args} {isOlder : Bool} :
    useIds i (batch ++ [last]) =
      toolResultIds (userBlocks isOlder (i + (batch ++ [last]).length) (batch ++ [last])) ↔
    ∀ obs ∈ batch, obs.toolUseId.isSome = true := by
  rw [useIds_eq, toolResultIds_userBlocks, Nat.add_sub_cancel_right, List.length_append,
    List.length_singleton, eq_comm, List.mapIdx_eq_iff]
  constructor
  · intro h obs hobs
    obtain ⟨k, hk, rfl⟩ := List.mem_iff_getElem.mp hobs
    have hsame := h k
    rw [List.getElem?_map, List.getElem?_append_left hk, List.getElem?_eq_getElem hk,
      Option.map_some, Option.map_some, Option.some_inj] at hsame
    cases hid : batch[k].toolUseId with
    | some id => rfl
    | none =>
      -- the tool use counts to the end of the batch, the result to its own place
      rw [hid] at hsame
      have hindex := replayId_inj.mp hsame
      omega
  · intro h k
    rw [List.getElem?_map]
    rcases Nat.lt_trichotomy k batch.length with hin | rfl | hout
    · obtain ⟨id, hid⟩ := Option.isSome_iff_exists.mp (h batch[k] (List.getElem_mem hin))
      rw [List.getElem?_append_left hin, List.getElem?_eq_getElem hin, Option.map_some,
        Option.map_some, hid]
      rfl
    · rw [List.getElem?_concat_length]
      rfl
    · rw [List.getElem?_eq_none (by rw [List.length_append, List.length_singleton]; omega)]
      rfl

theorem nodup_useIds_iff {last : ReActObservation Args}
    (h : ∀ obs ∈ batch, obs.toolUseId.isSome = true) :
    ((supplied (batch ++ [last])).Nodup → (useIds i (batch ++ [last])).Nodup) ↔
      (last.toolUseId = none → (supplied batch).Nodup →
        replayId (i + batch.length + 1) last.action ∉ supplied batch) := by
  have hfirst : ∀ n, batch.map (fun obs => obs.toolUseId.getD (replayId n obs.action)) =
      supplied batch := by
    intro n
    rw [supplied, ← List.filterMap_eq_map]
    refine List.filterMap_congr fun obs hobs => ?_
    obtain ⟨id, hid⟩ := Option.isSome_iff_exists.mp (h obs hobs)
    show some (obs.toolUseId.getD _) = _
    rw [hid]
    rfl
  have hids : useIds i (batch ++ [last]) = supplied batch ++
      [last.toolUseId.getD (replayId (i + batch.length + 1) last.action)] := by
    rw [useIds_eq, List.map_append, hfirst, List.length_append, List.length_singleton]
    rfl
  have hall : supplied (batch ++ [last]) = supplied batch ++ last.toolUseId.toList := by
    rw [supplied, List.filterMap_append]
    cases hlast : last.toolUseId <;> simp [supplied, hlast]
  rw [hids, hall]
  cases last.toolUseId with
  | some id =>
    refine ⟨fun _ hnone => ?_, fun _ hnodup => hnodup⟩
    cases hnone
  | none =>
    show ((supplied batch ++ []).Nodup → (supplied batch ++ [_]).Nodup) ↔ _
    rw [List.append_nil, List.nodup_append]
    constructor
    · intro hnodup _ hsupplied hmem
      exact (hnodup hsupplied).2.2 _ hmem _ (List.mem_singleton_self _) rfl
    · intro hnot hsupplied
      refine ⟨hsupplied, List.nodup_singleton _, ?_⟩
      intro a ha b hb heq
      rw [heq, List.mem_singleton.mp hb] at ha
      exact hnot rfl hsupplied ha

/-! ### All batches -/

theorem turns_append (before rest : List (List (ReActObservation Args))) : ∀ i,
    turns cutoff i (before ++ rest) =
      turns cutoff i before ++ turns cutoff (i + before.flatten.length) rest := by
  induction before with
  | nil => exact fun _ => rfl
  | cons batch before ih =>
    intro i
    rw [List.cons_append, turns, turns, ih, List.flatten_cons, List.length_append, Nat.add_assoc]
    rfl

theorem length_turns (bs : List (List (ReActObservation Args))) : ∀ i,
    (turns cutoff i bs).length = 2 * bs.length := by
  induction bs with
  | nil => exact fun _ => rfl
  | cons batch rest ih =>
    intro i
    rw [turns, List.length_cons, List.length_cons, ih, List.length_cons]
    omega

theorem getElem_turns (cutoff : ℕ) (before after : List (List (ReActObservation Args)))
    (batch : List (ReActObservation Args)) :
    ∃ m, (turns cutoff 0 (before ++ batch :: after))[2 * before.length]? = some m ∧
      m.toolUses.map (·.id) = useIds before.flatten.length batch := by
  refine ⟨⟨.assistant, .blocks (assistantBlocks (before.flatten.length + batch.length) batch)⟩, ?_,
    rfl⟩
  rw [turns_append, List.getElem?_append_right (by rw [length_turns]), length_turns, Nat.sub_self,
    Nat.zero_add]
  rfl

theorem alternating_turns_iff (cutoff : ℕ) (bs : List (List (ReActObservation Args))) : ∀ i,
    Alternating (turns cutoff i bs) ↔ ∀ before batch after, bs = before ++ batch :: after →
      useIds (i + before.flatten.length) batch = toolResultIds (userBlocks
        (decide (i + before.flatten.length + batch.length ≤ cutoff))
        (i + before.flatten.length + batch.length) batch) := by
  induction bs with
  | nil =>
    refine fun i => ⟨fun _ before batch after h => ?_, fun _ => .nil⟩
    cases before <;> cases h
  | cons first rest ih =>
    intro i
    rw [turns]
    constructor
    · rintro (_ | ⟨hpaired, hrest⟩) before batch after h
      cases before with
      | nil =>
        cases h
        exact hpaired
      | cons b before =>
        cases h
        rw [List.flatten_cons, List.length_append, ← Nat.add_assoc]
        exact (ih _).mp hrest before batch after rfl
    · intro h
      refine .turn (h [] first rest rfl) ((ih _).mpr fun before batch after heq => ?_)
      have hbatch := h (first :: before) batch after (by rw [heq]; rfl)
      rw [List.flatten_cons, List.length_append, ← Nat.add_assoc] at hbatch
      exact hbatch

theorem toolUses_turns (bs : List (List (ReActObservation Args))) : ∀ i,
    ((turns cutoff i bs).flatMap (·.toolUses)).map (fun use => (use.name, use.input)) =
      bs.flatten.map fun obs => (obs.action, obs.args) := by
  induction bs with
  | nil => exact fun _ => rfl
  | cons batch rest ih =>
    intro i
    rw [turns, List.flatMap_cons, List.flatMap_cons, List.map_append, List.map_append, ih,
      List.flatten_cons, List.map_append]
    show ((toolUses (assistantBlocks _ batch)).map _ ++ ((toolUses (userBlocks _ _ batch)).map _ ++
      _)) = _
    rw [toolUses_assistantBlocks, toolUses_userBlocks, List.map_map]
    rfl

theorem canonical_turns (bs : List (List (ReActObservation Args))) : ∀ i,
    Alternating (turns cutoff i bs) → Canonical (turns cutoff i bs) := by
  induction bs with
  | nil => exact fun _ _ => .nil
  | cons batch rest ih =>
    intro i h
    rw [turns] at h ⊢
    cases h with
    | turn hpaired hrest => exact .turn rfl rfl toolUses_userBlocks hpaired.symm (ih _ hrest)

theorem replays_turns_iff (cutoff : ℕ) {observations : List (ReActObservation Args)} :
    Replays observations (turns cutoff 0 (observations.splitBy sameBatch)) ↔
      Replayable observations := by
  have halternating := alternating_turns_iff cutoff
    (observations.splitBy sameBatch) 0
  simp only [Nat.zero_add] at halternating
  constructor
  · intro h before batch last after heq
    have hids := useIds_eq_results_iff.mp
      (halternating.mp h.paired before (batch ++ [last]) after heq)
    refine ⟨hids, (nodup_useIds_iff hids).mp fun hnodup => ?_⟩
    have hdistinct := h.distinct before (batch ++ [last]) after heq hnodup
    rw [heq] at hdistinct
    obtain ⟨m, hm, huses⟩ := getElem_turns cutoff before after (batch ++ [last])
    rw [← huses]
    exact hdistinct m hm
  · intro h
    have hlast : ∀ before batch after, observations.splitBy sameBatch = before ++ batch :: after →
        ∃ init last, batch = init ++ [last] := by
      intro before batch after heq
      have hmem : batch ∈ observations.splitBy sameBatch := by
        rw [heq]
        exact List.mem_append_right _ List.mem_cons_self
      have hne := List.ne_nil_of_mem_splitBy hmem
      exact ⟨_, _, (List.dropLast_append_getLast hne).symm⟩
    refine ⟨halternating.mpr fun before batch after heq => ?_, ?_, ?_⟩
    · obtain ⟨init, last, rfl⟩ := hlast before batch after heq
      exact useIds_eq_results_iff.mpr (h before init last after heq).1
    · intro before batch after heq hnodup m hm
      obtain ⟨init, last, rfl⟩ := hlast before batch after heq
      obtain ⟨hids, hnew⟩ := h before init last after heq
      rw [heq] at hm
      obtain ⟨m', hm', huses⟩ := getElem_turns cutoff before after (init ++ [last])
      rw [hm'] at hm
      cases hm
      rw [huses]
      exact (nodup_useIds_iff hids).mpr hnew hnodup
    · rw [toolUses_turns, List.flatten_splitBy]

theorem replayable_of_ids {observations : List (ReActObservation Args)}
    (h : ∀ obs ∈ observations, obs.toolUseId.isSome = true) : Replayable observations := by
  intro before batch last after heq
  have hall : ∀ obs ∈ batch ++ [last], obs.toolUseId.isSome = true := by
    intro obs hobs
    refine h obs ?_
    rw [← List.flatten_splitBy sameBatch observations, heq]
    exact List.mem_flatten_of_mem (List.mem_append_right _ List.mem_cons_self) hobs
  refine ⟨fun obs hobs => hall obs (List.mem_append_left _ hobs), fun hnone => ?_⟩
  have hlast := hall last (List.mem_append_right _ (List.mem_singleton_self _))
  rw [hnone] at hlast
  cases hlast

theorem canonical_buildMessages (conversationSummary : Option String)
    (systemPrompt userMessage : String) {observations : List (ReActObservation Args)}
    (h : Replayable observations) :
    Canonical (buildMessages conversationSummary systemPrompt userMessage observations) := by
  have hturns : Canonical (turns (observations.length - OBSERVATION_KEEP_RECENT) 0
      (batches observations)) := by
    rw [batches_eq]
    exact canonical_turns _ _ ((replays_turns_iff _).mpr h).paired
  have htext : ∀ {role : Role} {text : String} {rest : List (CompletionMessage Args)},
      Canonical rest → Canonical (⟨role, .text text⟩ :: rest) := .plain rfl fun _ => rfl
  unfold buildMessages
  split
  · exact htext (htext hturns)
  · split
    · exact htext (htext hturns)
    · exact htext (htext (htext (htext hturns)))

end Law

/-- The turns after the opening replay the observations exactly where these are replayable. -/
theorem buildMessages_replays_iff {Args : Type} (conversationSummary : Option String)
    (systemPrompt userMessage : String) (observations : List (ReActObservation Args)) :
    (∃ messages, buildMessages conversationSummary systemPrompt userMessage observations =
        buildMessages conversationSummary systemPrompt userMessage [] ++ messages ∧
      Replays observations messages) ↔ Replayable observations := by
  have hopening : buildMessages conversationSummary systemPrompt userMessage observations =
      buildMessages conversationSummary systemPrompt userMessage [] ++
        turns (observations.length - OBSERVATION_KEEP_RECENT) 0 (batches observations) := by
    unfold buildMessages
    rw [show batches ([] : List (ReActObservation Args)) = [] from rfl, turns, List.append_nil]
  rw [← replays_turns_iff (observations.length - OBSERVATION_KEEP_RECENT), ← batches_eq]
  constructor
  · rintro ⟨messages, heq, h⟩
    rw [hopening, List.append_cancel_left_eq] at heq
    rw [heq]
    exact h
  · exact fun h => ⟨_, hopening, h⟩

/-- Two calls of one batch without ids are answered under other ids. -/
theorem two_without_ids : ¬ ∃ messages,
    buildMessages none "" "" [
      { action := "metrics_query", args := (), result := "ok" },
      { action := "logs_query", args := (), result := "ok" }] =
    buildMessages none "" "" [] ++ messages ∧
    Replays [
      { action := "metrics_query", args := (), result := "ok" },
      { action := "logs_query", args := (), result := "ok" }] messages := by
  rintro ⟨messages, heq, h⟩
  have hmessages := List.append_cancel_left heq
  subst hmessages
  cases h.paired with
  | turn hpaired _ => exact absurd hpaired (by decide)

end ReActLoop

end OpenObs.Agent
