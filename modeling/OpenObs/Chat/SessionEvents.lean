import Mathlib.Data.List.Perm.Basic
import Mathlib.Data.List.Sort
import OpenObs.Foundation.Json
import OpenObs.Foundation.Machine

/-!
# The trace of a chat session

`handleMessage` of `services/chat-service.ts` over `repository/sqlite/chat-session-event.ts`: a run
reads the next number of its session once, sends its events live, and stores all but the transient
ones under numbers that it counts itself.
-/

namespace OpenObs.Chat

open OpenObs.Foundation

/-! ## The table -/

structure ChatSessionEventRecord where
  id : String
  sessionId : String
  seq : ℕ
  kind : String
  payload : Json.Record
  timestamp : String

/-- `DashboardSseEvent`: its type, and all of it. -/
structure DashboardSseEvent where
  type : String
  fields : Json.Record

namespace ChatSessionEventRepository

variable (table : List ChatSessionEventRecord)

/-- `INSERT`, under the primary key. -/
def append (event : ChatSessionEventRecord) : Except String (List ChatSessionEventRecord) :=
  if table.any (·.id = event.id) then .error "UNIQUE constraint failed: chat_session_events.id"
  else .ok (table ++ [event])

def ofSession (sessionId : String) : List ChatSessionEventRecord :=
  table.filter (·.sessionId = sessionId)

def listBySession (sessionId : String) : List ChatSessionEventRecord :=
  (ofSession table sessionId).mergeSort fun r r' => decide (r.seq ≤ r'.seq)

def nextSeq (sessionId : String) : ℕ :=
  (((ofSession table sessionId).map (·.seq)).max?.getD 0) + 1

end ChatSessionEventRepository

open ChatSessionEventRepository

/-! ## Runs -/

def SKIP_PERSIST_KINDS : List String := ["done", "navigate"]

/-- A call of `handleMessage`: its session, its counter once it has read the number, and how many
events had been sent by then. -/
structure MessageRun where
  sessionId : String
  seq : Option ℕ := none
  since : ℕ := 0

structure Emission where
  run : ℕ
  event : DashboardSseEvent
  record : Option ChatSessionEventRecord

structure ChatWorld where
  table : List ChatSessionEventRecord
  flight : List ChatSessionEventRecord := []
  live : List Emission := []
  runs : List MessageRun := []

inductive ChatLabel : Type where
  | start (sessionId : String)
  | readSeq (i : ℕ)
  | sendEvent (i : ℕ) (event : DashboardSseEvent) (id timestamp : String)
  | insert (j : ℕ) (succeeds : Bool)

def queueRecord (w : ChatWorld) (i : ℕ) (run : MessageRun) (event : DashboardSseEvent)
    (record : ChatSessionEventRecord) : ChatWorld :=
  { w with
    live := w.live ++ [⟨i, event, some record⟩]
    flight := w.flight ++ [record]
    runs := w.runs.set i { run with seq := some (record.seq + 1) } }

/-- `wrappedSendEvent`, once the counter is `seq`. -/
def wrappedSendEvent (w : ChatWorld) (i : ℕ) (run : MessageRun) (seq : ℕ)
    (event : DashboardSseEvent) (id timestamp : String) : ChatWorld :=
  if event.type ∈ SKIP_PERSIST_KINDS then { w with live := w.live ++ [⟨i, event, none⟩] }
  else
    let record : ChatSessionEventRecord :=
      { id, sessionId := run.sessionId, seq, kind := event.type, payload := event.fields, timestamp }
    queueRecord w i run event record

def settle (w : ChatWorld) (j : ℕ) (record : ChatSessionEventRecord) (succeeds : Bool) : ChatWorld :=
  let w' := { w with flight := w.flight.eraseIdx j }
  if succeeds then
    match append w.table record with
    | .ok table => { w' with table }
    | .error _ => w'
  else w'

def startRun (w : ChatWorld) (sessionId : String) : MessageRun where
  sessionId := sessionId
  seq := some (nextSeq w.table sessionId)
  since := w.live.length

def chatStep (w : ChatWorld) : ChatLabel → Option ChatWorld
  | .start sessionId => some { w with runs := w.runs ++ [{ sessionId }] }
  | .readSeq i =>
    match w.runs[i]? with
    | some ⟨sessionId, none, _⟩ =>
      some { w with runs := w.runs.set i (startRun w sessionId) }
    | _ => none
  | .sendEvent i event id timestamp =>
    match w.runs[i]? with
    | some ⟨sessionId, some seq, since⟩ =>
      some (wrappedSendEvent w i ⟨sessionId, some seq, since⟩ seq event id timestamp)
    | _ => none
  | .insert j succeeds => w.flight[j]?.map fun record => settle w j record succeeds

def recordsOf (w : ChatWorld) (i : ℕ) : List ChatSessionEventRecord :=
  (w.live.filter (·.run = i)).filterMap (·.record)

/-! ## The order of a run -/

theorem sublist_of_rising {α : Type} {key : α → ℕ} {l₁ l₂ : List α} (hnodup : l₁.Nodup)
    (hsorted : l₁.Pairwise fun a b => key a ≤ key b) (hsub : l₁ ⊆ l₂)
    (hrising : l₂.Pairwise fun a b => key a < key b) : l₁.Sublist l₂ := by
  have hkeys : (l₂.map key).Nodup := List.pairwise_map.mpr (hrising.imp Nat.ne_of_lt)
  have hstrict : l₁.Pairwise fun a b => key a < key b := by
    refine (hsorted.and hnodup).imp_of_mem fun ha hb hab => ?_
    refine Nat.lt_of_le_of_ne hab.1 fun heq => hab.2 ?_
    exact List.inj_on_of_nodup_map hkeys (hsub ha) (hsub hb) heq
  have : Std.Antisymm fun a b : α => key a < key b := ⟨fun a b h h' => absurd h' (lt_asymm h)⟩
  exact List.sublist_of_subperm_of_pairwise (List.subperm_of_subset hnodup hsub) hstrict hrising

/-- What the table and the runs keep, whatever is interleaved: the primary key, and that every run
counts upwards. -/
structure Counting (w : ChatWorld) : Prop where
  ids : (w.table.map (·.id)).Nodup
  rising : ∀ i, (recordsOf w i).Pairwise fun r r' => r.seq < r'.seq
  below : ∀ i, ∀ r ∈ recordsOf w i, ∃ run seq, w.runs[i]? = some run ∧ run.seq = some seq ∧
    r.seq < seq

section Counting

variable {w w' : ChatWorld} {i : ℕ}

theorem recordsOf_append {e : Emission} {rest : ChatWorld} (h : rest.live = w.live ++ [e]) :
    recordsOf rest i = recordsOf w i ++ if e.run = i then e.record.toList else [] := by
  rw [recordsOf, h, List.filter_append, List.filterMap_append, recordsOf]
  congr 1
  split
  · rename_i hi
    cases hrec : e.record <;> simp [hi, hrec]
  · rename_i hi
    simp [hi]

theorem recordsOf_congr (h : w'.live = w.live) : recordsOf w' i = recordsOf w i := by
  rw [recordsOf, h, recordsOf]

theorem chatStep_cases {l : ChatLabel} (h : chatStep w l = some w') :
    (∃ sessionId, l = .start sessionId ∧ w' = { w with runs := w.runs ++ [{ sessionId }] }) ∨
    (∃ i sessionId since, l = .readSeq i ∧ w.runs[i]? = some ⟨sessionId, none, since⟩ ∧
      w' = { w with runs := w.runs.set i (startRun w sessionId) }) ∨
    (∃ i event id timestamp sessionId seq since, l = .sendEvent i event id timestamp ∧
      w.runs[i]? = some ⟨sessionId, some seq, since⟩ ∧
      w' = wrappedSendEvent w i ⟨sessionId, some seq, since⟩ seq event id timestamp) ∨
    ∃ j succeeds record, l = .insert j succeeds ∧ w.flight[j]? = some record ∧
      w' = settle w j record succeeds := by
  cases l with
  | start sessionId => exact Or.inl ⟨sessionId, rfl, (Option.some.inj h).symm⟩
  | readSeq i =>
    simp only [chatStep] at h
    split at h
    · rename_i sessionId since hi
      exact Or.inr (Or.inl ⟨i, sessionId, since, rfl, hi, (Option.some.inj h).symm⟩)
    · cases h
  | sendEvent i event id timestamp =>
    simp only [chatStep] at h
    split at h
    · rename_i sessionId seq since hi
      exact Or.inr (Or.inr (Or.inl ⟨i, event, id, timestamp, sessionId, seq, since, rfl, hi,
        (Option.some.inj h).symm⟩))
    · cases h
  | insert j succeeds =>
    obtain ⟨record, hj, heq⟩ := Option.map_eq_some_iff.mp h
    exact Or.inr (Or.inr (Or.inr ⟨j, succeeds, record, rfl, hj, heq.symm⟩))

theorem settle_cases {j : ℕ} {record : ChatSessionEventRecord} {succeeds : Bool} :
    (settle w j record succeeds).live = w.live ∧ (settle w j record succeeds).runs = w.runs ∧
    (settle w j record succeeds).flight = w.flight.eraseIdx j ∧
    ((settle w j record succeeds).table = w.table ∨
      (settle w j record succeeds).table = w.table ++ [record] ∧
        record.id ∉ w.table.map (·.id)) := by
  unfold settle
  split
  · cases happend : append w.table record with
    | error e => exact ⟨rfl, rfl, rfl, Or.inl rfl⟩
    | ok table =>
      unfold append at happend
      split at happend
      · cases happend
      · rename_i hfree
        cases happend
        refine ⟨rfl, rfl, rfl, Or.inr ⟨rfl, fun hmem => hfree ?_⟩⟩
        obtain ⟨r, hr, hid⟩ := List.mem_map.mp hmem
        exact List.any_eq_true.mpr ⟨r, hr, decide_eq_true hid⟩
  · exact ⟨rfl, rfl, rfl, Or.inl rfl⟩

theorem Counting.queue (hw : Counting w) {run : MessageRun} {event : DashboardSseEvent}
    {record : ChatSessionEventRecord} (hi : w.runs[i]? = some run)
    (hseq : run.seq = some record.seq) : Counting (queueRecord w i run event record) := by
  have hrecords : ∀ m, recordsOf (queueRecord w i run event record) m =
      recordsOf w m ++ if i = m then [record] else [] :=
    fun m => @recordsOf_append w m ⟨i, event, some record⟩ _ rfl
  have hlen : i < w.runs.length := (List.getElem?_eq_some_iff.mp hi).1
  -- the run's records so far are below its counter
  have hbelow : ∀ r ∈ recordsOf w i, r.seq < record.seq := by
    intro r hr
    obtain ⟨run', seq, hrun, hseq', hlt⟩ := hw.below i r hr
    cases hi.symm.trans hrun
    cases hseq.symm.trans hseq'
    exact hlt
  refine ⟨hw.ids, fun m => ?_, fun m r hr => ?_⟩
  · rw [hrecords]
    split
    · rename_i him
      subst him
      refine List.pairwise_append.mpr ⟨hw.rising i, List.pairwise_singleton _ _, ?_⟩
      intro r hr r' hr'
      rw [List.mem_singleton.mp hr']
      exact hbelow r hr
    · rw [List.append_nil]
      exact hw.rising m
  · rw [hrecords, List.mem_append] at hr
    by_cases him : i = m
    · subst him
      rw [if_pos rfl, List.mem_singleton] at hr
      refine ⟨_, _, List.getElem?_set_self hlen, rfl, ?_⟩
      rcases hr with hr | rfl
      · exact Nat.lt_succ_of_lt (hbelow r hr)
      · exact Nat.lt_succ_self _
    · rw [if_neg him] at hr
      obtain ⟨run', seq, hrun, hseq', hlt⟩ := hw.below m r (hr.resolve_right List.not_mem_nil)
      exact ⟨run', seq, (List.getElem?_set_ne him).trans hrun, hseq', hlt⟩

theorem Counting.settle (hw : Counting w) {j : ℕ} {record : ChatSessionEventRecord}
    {succeeds : Bool} : Counting (Chat.settle w j record succeeds) := by
  obtain ⟨hlive, hruns, -, htable⟩ := @settle_cases w j record succeeds
  refine ⟨?_, fun m => ?_, fun m r hr => ?_⟩
  · rcases htable with heq | ⟨heq, hfresh⟩
    · rw [heq]
      exact hw.ids
    · rw [heq, List.map_append]
      refine List.nodup_append.mpr ⟨hw.ids, by simp, ?_⟩
      rintro a ha b hb rfl
      rw [List.map_singleton, List.mem_singleton] at hb
      exact hfresh (hb ▸ ha)
  · rw [recordsOf_congr hlive]
    exact hw.rising m
  · rw [recordsOf_congr hlive] at hr
    rw [hruns]
    exact hw.below m r hr

theorem Counting.step {l : ChatLabel} (hw : Counting w) (h : chatStep w l = some w') :
    Counting w' := by
  rcases chatStep_cases h with ⟨sessionId, rfl, rfl⟩ | ⟨i, sessionId, since, rfl, hi, rfl⟩ |
    ⟨i, event, id, timestamp, sessionId, seq, since, rfl, hi, rfl⟩ |
    ⟨j, succeeds, record, rfl, hj, rfl⟩
  · refine ⟨hw.ids, hw.rising, fun i r hr => ?_⟩
    obtain ⟨run, seq, hrun, hseq, hlt⟩ := hw.below i r hr
    exact ⟨run, seq, (List.getElem?_append_left (List.getElem?_eq_some_iff.mp hrun).1).trans hrun,
      hseq, hlt⟩
  · refine ⟨hw.ids, hw.rising, fun m r hr => ?_⟩
    obtain ⟨run, seq, hrun, hseq, hlt⟩ := hw.below m r hr
    have hne : i ≠ m := by
      rintro rfl
      cases hi.symm.trans hrun
      cases hseq
    exact ⟨run, seq, (List.getElem?_set_ne hne).trans hrun, hseq, hlt⟩
  · unfold wrappedSendEvent
    split
    · have hsame : ∀ m, recordsOf { w with live := w.live ++ [⟨i, event, none⟩] } m =
          recordsOf w m := by
        intro m
        rw [recordsOf_append rfl]
        simp
      refine ⟨hw.ids, fun m => ?_, fun m r hr => ?_⟩
      · rw [hsame]
        exact hw.rising m
      · rw [hsame] at hr
        exact hw.below m r hr
    · exact hw.queue hi rfl
  · exact hw.settle

end Counting

def ListedInOrder (w : ChatWorld) (sessionId : String) : Prop :=
  ∀ (i : ℕ) (mine stored : ChatSessionEventRecord → Bool),
    (∀ r, mine r = true ↔ r ∈ recordsOf w i) →
    (∀ r, stored r = true ↔ r ∈ ofSession w.table sessionId) →
    (listBySession w.table sessionId).filter mine = (recordsOf w i).filter stored

theorem Counting.listed_in_order {w : ChatWorld} (hw : Counting w) (sessionId : String) :
    ListedInOrder w sessionId := by
  intro i mine stored hmine hstored
  have hperm : (listBySession w.table sessionId).Perm (ofSession w.table sessionId) :=
    List.mergeSort_perm _ _
  have hlisted : ((listBySession w.table sessionId).filter mine).Nodup :=
    (hperm.nodup_iff.mpr ((List.Nodup.of_map _ hw.ids).filter _)).filter _
  have hrising := (hw.rising i).filter stored
  have hsent : ((recordsOf w i).filter stored).Nodup :=
    List.Nodup.of_map (·.seq) (List.pairwise_map.mpr (hrising.imp Nat.ne_of_lt))
  have hsame : ((listBySession w.table sessionId).filter mine).Perm
      ((recordsOf w i).filter stored) := by
    refine (List.perm_ext_iff_of_nodup hlisted hsent).mpr fun r => ?_
    rw [List.mem_filter, List.mem_filter, hmine, hstored, hperm.mem_iff, and_comm]
  have hsorted : (listBySession w.table sessionId).Pairwise fun r r' => r.seq ≤ r'.seq := by
    have h := @List.pairwise_mergeSort _ (fun r r' : ChatSessionEventRecord =>
      decide (r.seq ≤ r'.seq)) (fun a b c hab hbc => by simp at *; omega)
      (fun a b => by simp; omega) (ofSession w.table sessionId)
    exact h.imp of_decide_eq_true
  have hsub := sublist_of_rising hlisted (hsorted.filter _) hsame.subset hrising
  exact hsub.eq_of_length hsame.length_eq

/-! ## The numbers of a session -/

def Undivided (sessionId : String) (w : ChatWorld) (i : ℕ) (run : MessageRun) : Prop :=
  ∀ e ∈ w.live.drop run.since, ∀ r, e.record = some r → r.sessionId = sessionId → e.run = i

/-- A run of the session reads its number only when no insert beyond the stored numbers is under
way, and queues a record only if no other run has done so since. -/
def InTurn (sessionId : String) (w : ChatWorld) : ChatLabel → Prop
  | .readSeq i => ∀ run, w.runs[i]? = some run → run.sessionId = sessionId →
      ∀ r ∈ ofSession w.flight sessionId, ∃ r' ∈ ofSession w.table sessionId, r.seq ≤ r'.seq
  | .sendEvent i event _ _ => ∀ run, w.runs[i]? = some run → run.sessionId = sessionId →
      event.type ∉ SKIP_PERSIST_KINDS → Undivided sessionId w i run
  | _ => True

def held (sessionId : String) (w : ChatWorld) : List ChatSessionEventRecord :=
  ofSession (w.table ++ w.flight) sessionId

structure Apart (sessionId : String) (w : ChatWorld) : Prop where
  distinct : ((held sessionId w).map (·.seq)).Nodup
  since : ∀ (i : ℕ) (run : MessageRun), w.runs[i]? = some run → run.since ≤ w.live.length
  ahead : ∀ (i : ℕ) (run : MessageRun) (seq : ℕ), w.runs[i]? = some run →
    run.sessionId = sessionId → run.seq = some seq → Undivided sessionId w i run →
    ∀ r ∈ held sessionId w, r.seq < seq

section Apart

variable {sessionId : String} {w w' : ChatWorld} {i : ℕ}

theorem lt_nextSeq {table : List ChatSessionEventRecord} {r : ChatSessionEventRecord}
    (hr : r ∈ ofSession table sessionId) : r.seq < nextSeq table sessionId :=
  Nat.lt_succ_of_le (List.le_max?_getD_of_mem (List.mem_map_of_mem hr))

theorem Undivided.of_append {run : MessageRun} {es : List Emission}
    (hlive : w'.live = w.live ++ es) (h : Undivided sessionId w' i run) :
    Undivided sessionId w i run := by
  intro e he
  refine h e ?_
  rw [hlive, List.drop_append]
  exact List.mem_append_left _ he

theorem held_settle {j : ℕ} {record : ChatSessionEventRecord} {succeeds : Bool}
    (hj : w.flight[j]? = some record) :
    ∃ rest, (held sessionId (settle w j record succeeds) ++ rest).Perm (held sessionId w) := by
  obtain ⟨hlt, hget⟩ := List.getElem?_eq_some_iff.mp hj
  have hflight : (record :: w.flight.eraseIdx j).Perm w.flight :=
    hget ▸ List.getElem_cons_eraseIdx_perm hlt
  obtain ⟨-, -, hrest, htable⟩ := @settle_cases w j record succeeds
  simp only [held, hrest]
  rcases htable with heq | ⟨heq, -⟩
  · refine ⟨ofSession [record] sessionId, ?_⟩
    rw [heq, ofSession, ofSession, ← List.filter_append, List.append_assoc]
    refine List.Perm.filter _ (List.Perm.append_left _ ?_)
    exact (List.perm_append_singleton _ _).trans hflight
  · refine ⟨[], ?_⟩
    rw [heq, List.append_nil, List.append_assoc]
    exact List.Perm.filter _ (List.Perm.append_left _ hflight)

theorem held_queue {run : MessageRun} {event : DashboardSseEvent}
    {record : ChatSessionEventRecord} : held sessionId (queueRecord w i run event record) =
      held sessionId w ++ ofSession [record] sessionId := by
  simp only [held, queueRecord, ofSession, ← List.append_assoc, List.filter_append]

theorem Apart.queue (hw : Apart sessionId w) {run : MessageRun} {event : DashboardSseEvent}
    {record : ChatSessionEventRecord} (hi : w.runs[i]? = some run)
    (hseq : run.seq = some record.seq) (hsession : record.sessionId = run.sessionId)
    (hturn : run.sessionId = sessionId → Undivided sessionId w i run) :
    Apart sessionId (queueRecord w i run event record) := by
  have hlive : (queueRecord w i run event record).live = w.live ++ [⟨i, event, some record⟩] := rfl
  have hsince : ∀ (m : ℕ) (run' : MessageRun),
      (queueRecord w i run event record).runs[m]? = some run' → run'.since ≤ w.live.length := by
    intro m run' hm
    rcases getElem?_set_cases hm with ⟨-, rfl⟩ | ⟨-, hold⟩
    · exact hw.since i run hi
    · exact hw.since m run' hold
  by_cases hmine : record.sessionId = sessionId
  · have hbelow : ∀ r ∈ held sessionId w, r.seq < record.seq :=
      hw.ahead i run record.seq hi (hsession ▸ hmine) hseq (hturn (hsession ▸ hmine))
    have hheld : held sessionId (queueRecord w i run event record) =
        held sessionId w ++ [record] := by
      rw [held_queue, ofSession, List.filter_cons_of_pos (by simpa using hmine), List.filter_nil]
    refine ⟨?_, fun m run' hm => ?_, fun m run' seq hm hses hseq' hund r hr => ?_⟩
    · rw [hheld, List.map_append]
      refine List.nodup_append.mpr ⟨hw.distinct, by simp, ?_⟩
      rintro a ha b hb rfl
      obtain ⟨r, hr, hra⟩ := List.mem_map.mp ha
      rw [List.map_singleton, List.mem_singleton] at hb
      exact Nat.ne_of_lt (hbelow r hr) (hra.trans hb)
    · rw [hlive, List.length_append]
      exact Nat.le_add_right_of_le (hsince m run' hm)
    · -- the record that was just queued is the last one, so the run is the one that has sent it
      have him : i = m := by
        refine hund ⟨i, event, some record⟩ ?_ record rfl hmine
        rw [hlive, List.drop_append_of_le_length (hsince m run' hm)]
        exact List.mem_append_right _ List.mem_cons_self
      rcases getElem?_set_cases hm with ⟨-, rfl⟩ | ⟨hmi, -⟩
      · cases hseq'
        rw [hheld, List.mem_append, List.mem_singleton] at hr
        rcases hr with hr | rfl
        · exact Nat.lt_succ_of_lt (hbelow r hr)
        · exact Nat.lt_succ_self _
      · exact absurd him.symm hmi
  · have hheld : held sessionId (queueRecord w i run event record) = held sessionId w := by
      rw [held_queue, ofSession, List.filter_cons_of_neg (by simpa using hmine), List.filter_nil,
        List.append_nil]
    refine ⟨hheld ▸ hw.distinct, fun m run' hm => ?_, fun m run' seq hm hses hseq' hund => ?_⟩
    · rw [hlive, List.length_append]
      exact Nat.le_add_right_of_le (hsince m run' hm)
    · rw [hheld]
      rcases getElem?_set_cases hm with ⟨-, rfl⟩ | ⟨-, hold⟩
      · exact absurd (hsession.trans hses) hmine
      · exact hw.ahead m run' seq hold hses hseq' (hund.of_append hlive)

theorem Apart.start (hw : Apart sessionId w) {session : String} :
    Apart sessionId { w with runs := w.runs ++ [{ sessionId := session }] } := by
  refine ⟨hw.distinct, fun m run hm => ?_, fun m run seq hm hses hseq hund => ?_⟩
  · rcases getElem?_append_cases hm with hold | rfl
    · exact hw.since m run hold
    · exact Nat.zero_le _
  · rcases getElem?_append_cases hm with hold | rfl
    · exact hw.ahead m run seq hold hses hseq hund
    · cases hseq

theorem Apart.readSeq (hw : Apart sessionId w) {session : String} {since : ℕ}
    (hi : w.runs[i]? = some ⟨session, none, since⟩) (hok : InTurn sessionId w (.readSeq i)) :
    Apart sessionId { w with runs := w.runs.set i (startRun w session) } := by
  refine ⟨hw.distinct, fun m run hm => ?_, fun m run seq hm hses hseq hund r hr => ?_⟩
  · rcases getElem?_set_cases hm with ⟨-, rfl⟩ | ⟨-, hold⟩
    · exact le_rfl
    · exact hw.since m run hold
  · rcases getElem?_set_cases hm with ⟨-, rfl⟩ | ⟨-, hold⟩
    · cases hseq
      have hses' : session = sessionId := hses
      subst hses'
      rw [held, ofSession, List.filter_append, List.mem_append] at hr
      rcases hr with hr | hr
      · exact lt_nextSeq hr
      · obtain ⟨r', hr', hle⟩ := hok ⟨session, none, since⟩ hi rfl r hr
        exact Nat.lt_of_le_of_lt hle (lt_nextSeq hr')
    · exact hw.ahead m run seq hold hses hseq hund r hr

theorem Apart.skip (hw : Apart sessionId w) {e : Emission} :
    Apart sessionId { w with live := w.live ++ [e] } := by
  refine ⟨hw.distinct, fun m run hm => ?_, fun m run n hm hses hseq hund => ?_⟩
  · rw [List.length_append]
    exact Nat.le_add_right_of_le (hw.since m run hm)
  · exact hw.ahead m run n hm hses hseq (hund.of_append rfl)

theorem Apart.settle (hw : Apart sessionId w) {j : ℕ} {record : ChatSessionEventRecord}
    {succeeds : Bool} (hj : w.flight[j]? = some record) :
    Apart sessionId (Chat.settle w j record succeeds) := by
  obtain ⟨hlive, hruns, -, -⟩ := @settle_cases w j record succeeds
  obtain ⟨rest, hperm⟩ := @held_settle sessionId w j record succeeds hj
  refine ⟨?_, fun m run hm => ?_, fun m run n hm hses hseq hund r hr => ?_⟩
  · have hnodup := ((hperm.map (·.seq)).nodup_iff).mpr hw.distinct
    rw [List.map_append] at hnodup
    exact hnodup.of_append_left
  · rw [hlive]
    rw [hruns] at hm
    exact hw.since m run hm
  · rw [hruns] at hm
    have hsame : (Chat.settle w j record succeeds).live = w.live ++ [] := by
      rw [hlive, List.append_nil]
    exact hw.ahead m run n hm hses hseq (hund.of_append hsame) r
      (hperm.mem_iff.mp (List.mem_append_left _ hr))

theorem Apart.step {l : ChatLabel} (hw : Apart sessionId w) (hok : InTurn sessionId w l)
    (h : chatStep w l = some w') : Apart sessionId w' := by
  rcases chatStep_cases h with ⟨session, rfl, rfl⟩ | ⟨i, session, since, rfl, hi, rfl⟩ |
    ⟨i, event, id, timestamp, session, seq, since, rfl, hi, rfl⟩ |
    ⟨j, succeeds, record, rfl, hj, rfl⟩
  · exact hw.start
  · exact hw.readSeq hi hok
  · unfold wrappedSendEvent
    split
    · exact hw.skip
    · rename_i hkind
      exact hw.queue hi rfl rfl fun hses => hok ⟨session, some seq, since⟩ hi hses hkind
  · exact hw.settle hj

end Apart

def DistinctSeq (w : ChatWorld) (sessionId : String) : Prop :=
  ((ofSession w.table sessionId).map (·.seq)).Nodup

/-- **The trace of a session.** However runs and inserts are interleaved, the listing returns the
events of each run in the order in which it has sent them. Where runs keep in turn, no two events
of the session have one number. -/
theorem trace_ordered_and_distinct (sessionId : String) (table : List ChatSessionEventRecord)
    (hids : (table.map (·.id)).Nodup) (hseqs : DistinctSeq ⟨table, [], [], []⟩ sessionId) :
    (∀ w, Reaches chatStep (fun _ _ => True) ⟨table, [], [], []⟩ w → ListedInOrder w sessionId) ∧
    ∀ w, Reaches chatStep (InTurn sessionId) ⟨table, [], [], []⟩ w →
      DistinctSeq w sessionId ∧ ListedInOrder w sessionId := by
  have hcounting : Counting ⟨table, [], [], []⟩ :=
    ⟨hids, fun _ => List.Pairwise.nil, fun _ _ hr => absurd hr List.not_mem_nil⟩
  have hapart : Apart sessionId ⟨table, [], [], []⟩ := by
    refine ⟨?_, fun i run hi => ?_, fun i run seq hi => ?_⟩
    · rw [held, List.append_nil]
      exact hseqs
    · simp at hi
    · simp at hi
  have hordered : ∀ w, Reaches chatStep (fun _ _ => True) ⟨table, [], [], []⟩ w →
      ListedInOrder w sessionId := fun w h =>
    (h.invariant hcounting fun _ _ _ hw _ hn => hw.step hn).listed_in_order sessionId
  refine ⟨hordered, fun w h => ⟨?_, hordered w (h.mono fun _ _ _ => trivial)⟩⟩
  have hdistinct := (h.invariant hapart fun _ _ _ hw hok hn => hw.step hok hn).distinct
  rw [held, ofSession, List.filter_append, List.map_append] at hdistinct
  exact hdistinct.of_append_left

/-! ### Runs on one session -/

def deltaEvent : DashboardSseEvent := ⟨"reply_delta", []⟩

/-- One run, whose inserts arrive in the other order. -/
theorem trace_ordered_and_distinct_alone : ∃ w, w.table.map (·.seq) = [2, 1] ∧
    DistinctSeq w "s" ∧ ListedInOrder w "s" := by
  obtain ⟨w, hw⟩ : ∃ w, follow chatStep ⟨[], [], [], []⟩
      [.start "s", .readSeq 0, .sendEvent 0 deltaEvent "a" "t", .sendEvent 0 deltaEvent "b" "t",
        .insert 1 true, .insert 0 true] = some w := ⟨_, rfl⟩
  have hreach : Reaches chatStep (InTurn "s") ⟨[], [], [], []⟩ w := by
    refine .of_follow .init ?_ hw
    refine ⟨trivial, fun _ hstart => ?_⟩
    cases hstart
    refine ⟨fun _ _ _ _ hr => absurd hr List.not_mem_nil, fun _ hread => ?_⟩
    cases hread
    refine ⟨fun run hrun _ _ e he => ?_, fun _ hfirst => ?_⟩
    · cases hrun
      exact absurd he List.not_mem_nil
    cases hfirst
    refine ⟨fun run hrun _ _ e he _ _ _ => ?_, fun _ _ => ⟨trivial, fun _ _ => ⟨trivial, fun _ _ =>
      trivial⟩⟩⟩
    cases hrun
    rw [List.mem_singleton.mp he]
  refine ⟨w, ?_, (trace_ordered_and_distinct "s" [] List.nodup_nil List.nodup_nil).2 w hreach⟩
  cases hw
  decide +kernel

/-- Two runs that read the number before either has stored an event. -/
theorem overlapping_runs_share_seq : ¬ ∀ (sessionId : String)
    (table : List ChatSessionEventRecord), (table.map (·.id)).Nodup →
    DistinctSeq ⟨table, [], [], []⟩ sessionId →
    ∀ w, Reaches chatStep (fun _ _ => True) ⟨table, [], [], []⟩ w →
      DistinctSeq w sessionId ∧ ListedInOrder w sessionId := by
  intro hall
  obtain ⟨w, hw⟩ : ∃ w, follow chatStep ⟨[], [], [], []⟩
      [.start "s", .start "s", .readSeq 0, .readSeq 1, .sendEvent 0 deltaEvent "a" "t",
        .sendEvent 1 deltaEvent "b" "t", .insert 0 true, .insert 0 true] = some w := ⟨_, rfl⟩
  have hdistinct := (hall "s" [] List.nodup_nil List.nodup_nil w
    (.of_follow .init (followsOk_of_forall (fun _ _ => trivial) _ _) hw)).1
  cases hw
  revert hdistinct
  unfold DistinctSeq
  decide +kernel

end OpenObs.Chat
