import OpenObs.Events.RedisBus

/-!
# Delivery

What a loop holds is handed to the handlers that are subscribed when it gets there.
-/

namespace OpenObs.Events

open OpenObs.Foundation

variable {E : Type} {codec : Codec E} {w w' : BusWorld E}

/-! ## What a loop holds -/

def LoopPhase.held : LoopPhase E → List (Message E)
  | .replied batch => batch
  | .processing m rest => m :: rest
  | .handling _ _ rest => rest
  | .acking _ rest => rest
  | _ => []

theorem held_onward (rest : List (Message E)) : (LoopPhase.onward rest).held = rest := by
  cases rest <;> rfl

def LoopPhase.Accounted (trace : List (Happening E)) : LoopPhase E → Prop
  | .handling m waiting _ => ∀ h ∈ m.expected, h ∈ waiting ∨ .succeeded m h ∈ trace
  | .acking m _ => ∀ h ∈ m.expected, .succeeded m h ∈ trace
  | _ => True

theorem accounted_onward (trace : List (Happening E)) (rest : List (Message E)) :
    (LoopPhase.onward rest).Accounted trace := by
  cases rest <;> trivial

theorem LoopPhase.Accounted.append {phase : LoopPhase E} {trace : List (Happening E)}
    (h : phase.Accounted trace) (es : List (Happening E)) : phase.Accounted (trace ++ es) := by
  cases phase with
  | handling m waiting rest =>
    exact fun c hc => (h c hc).imp id (List.mem_append_left es)
  | acking m rest => exact fun c hc => List.mem_append_left es (h c hc)
  | _ => trivial

theorem rawOf_fields {x : Entry E} (h : codec.typeOf x.event ≠ "payload") :
    rawOf (x.fields codec) = some (codec.stringify x.event) := by
  have hidx : (x.fields codec).idxOf? "payload" = some 2 := by
    simp [Entry.fields, List.idxOf?, List.findIdx?_cons, h]
  rw [rawOf, hidx]
  rfl

def PassedOn (w : BusWorld E) (m : Message E) : Prop :=
  ∀ h ∈ m.expected, .handed m m.event h ∈ w.trace

def HeldIn (w : BusWorld E) (m : Message E) : Prop := ∃ loop ∈ w.loops, m ∈ loop.phase.held

theorem mem_liveHandlers {topic : String} {h : ℕ} : h ∈ w.liveHandlers topic ↔
    ∃ (k : ℕ) (s : Subscription), w.subscriptions[k]? = some s ∧ s.live = true ∧
      s.topic = topic ∧ s.handler = h := by
  simp only [BusWorld.liveHandlers, List.mem_map, List.mem_filter, Bool.and_eq_true,
    decide_eq_true_eq]
  constructor
  · rintro ⟨s, ⟨hs, hlive, htopic⟩, hhandler⟩
    obtain ⟨k, hk⟩ := List.getElem?_of_mem hs
    exact ⟨k, s, hk, hlive, htopic, hhandler⟩
  · rintro ⟨k, s, hk, hlive, htopic, hhandler⟩
    exact ⟨s, ⟨List.mem_of_getElem? hk, hlive, htopic⟩, hhandler⟩

/-! ## Invariants -/

/-- The sets and the loops of the topics: a handler that is subscribed is in the set of its topic,
and a set belongs to one topic. -/
structure Registered (w : BusWorld E) : Prop where
  mem : ∀ (k : ℕ) (s : Subscription), w.subscriptions[k]? = some s → s.live = true →
    w.handlers s.topic = some s.set ∧ ∃ set, w.sets[s.set]? = some set ∧ s.handler ∈ set
  lt : ∀ topic k, w.handlers topic = some k → k < w.sets.length
  inj : ∀ topic topic' k, w.handlers topic = some k → w.handlers topic' = some k → topic = topic'
  tasks : ∀ topic l, w.streamTasks topic = some l →
    ∃ loop : Loop E, w.loops[l]? = some loop ∧ loop.topic = topic

structure Due (codec : Codec E) (w : BusWorld E) (topic : String) (m : Message E) : Prop where
  readable : codec.typeOf m.event ≠ "payload"
  live : ∀ h ∈ m.expected, h ∈ w.liveHandlers topic

structure Carried (codec : Codec E) (w : BusWorld E) : Prop where
  fresh : ∀ topic, ∀ x ∈ (w.streams topic).fresh, codec.typeOf x.event ≠ "payload"
  due : ∀ loop ∈ w.loops, ∀ m ∈ loop.phase.held, Due codec w loop.topic m
  active : ∀ loop ∈ w.loops, ∀ batch, loop.phase = .replied batch →
    (∃ m ∈ batch, m.expected ≠ []) → loop.active = true
  accounted : ∀ loop ∈ w.loops, loop.phase.Accounted w.trace
  passed : ∀ m, .delivered m ∈ w.trace → PassedOn w m ∨ HeldIn w m
  acked : ∀ m, .acked m ∈ w.trace → ∀ h ∈ m.expected, .succeeded m h ∈ w.trace
  unfailed : ∀ m h, .failed m h ∉ w.trace

/-! ## The steps of a loop -/

section Loops

variable {l : ℕ} {loop : Loop E} {phase : LoopPhase E} {es : List (Happening E)}

theorem Registered.of_loop (hw : Registered w) (hl : w.loops[l]? = some loop)
    (hloops : w'.loops = w.loops.set l { loop with phase }) (hhandlers : w'.handlers = w.handlers)
    (hsets : w'.sets = w.sets) (hsubs : w'.subscriptions = w.subscriptions)
    (htasks : w'.streamTasks = w.streamTasks) : Registered w' := by
  refine ⟨?_, ?_, ?_, fun topic k hk => ?_⟩
  · rw [hsubs, hhandlers, hsets]
    exact hw.mem
  · rw [hhandlers, hsets]
    exact hw.lt
  · rw [hhandlers]
    exact hw.inj
  · rw [htasks] at hk
    obtain ⟨loop', hk', htopic⟩ := hw.tasks topic k hk
    rw [hloops]
    by_cases hlk : l = k
    · subst hlk
      cases hl.symm.trans hk'
      exact ⟨_, List.getElem?_set_self (List.getElem?_eq_some_iff.mp hl).1, htopic⟩
    · exact ⟨loop', (List.getElem?_set_ne hlk).trans hk', htopic⟩

theorem liveHandlers_congr (hsubs : w'.subscriptions = w.subscriptions) (topic : String) :
    w'.liveHandlers topic = w.liveHandlers topic := by
  rw [BusWorld.liveHandlers, hsubs, BusWorld.liveHandlers]

theorem Carried.of_loop (hw : Carried codec w) (hl : w.loops[l]? = some loop)
    (hloops : w'.loops = w.loops.set l { loop with phase })
    (hsubs : w'.subscriptions = w.subscriptions) (htrace : w'.trace = w.trace ++ es)
    (hfresh : ∀ topic, (w'.streams topic).fresh ⊆ (w.streams topic).fresh)
    (hheld : ∀ m ∈ phase.held, m ∈ loop.phase.held ∨ Due codec w loop.topic m)
    (hactive : ∀ batch, phase = .replied batch → (∃ m ∈ batch, m.expected ≠ []) →
      loop.active = true)
    (haccounted : phase.Accounted w'.trace)
    (hleft : ∀ m ∈ loop.phase.held, m ∈ phase.held ∨ PassedOn w' m)
    (hdelivered : ∀ m, .delivered m ∈ es → m ∈ phase.held)
    (hacked : ∀ m, .acked m ∈ es → ∀ h ∈ m.expected, .succeeded m h ∈ w.trace)
    (hfailed : ∀ m h, .failed m h ∉ es) : Carried codec w' := by
  have hmem : loop ∈ w.loops := List.mem_of_getElem? hl
  have hself : ({ loop with phase } : Loop E) ∈ w'.loops := by
    rw [hloops]
    exact List.mem_set (List.getElem?_eq_some_iff.mp hl).1 _
  have hdue : ∀ {topic m}, Due codec w topic m → Due codec w' topic m := by
    rintro topic m ⟨hreadable, hlive⟩
    refine ⟨hreadable, ?_⟩
    rw [liveHandlers_congr hsubs]
    exact hlive
  have hgrows : ∀ {e}, e ∈ w.trace → e ∈ w'.trace := by
    intro e he
    rw [htrace]
    exact List.mem_append_left es he
  refine ⟨fun topic x hx => hw.fresh topic x (hfresh topic hx), ?_, ?_, ?_, ?_, ?_, ?_⟩
  · intro loop' hloop' m hm
    rw [hloops] at hloop'
    rcases List.mem_or_eq_of_mem_set hloop' with hold | rfl
    · exact hdue (hw.due loop' hold m hm)
    · rcases hheld m hm with hold | hnew
      · exact hdue (hw.due loop hmem m hold)
      · exact hdue hnew
  · intro loop' hloop' batch hbatch hexpected
    rw [hloops] at hloop'
    rcases List.mem_or_eq_of_mem_set hloop' with hold | rfl
    · exact hw.active loop' hold batch hbatch hexpected
    · exact hactive batch hbatch hexpected
  · intro loop' hloop'
    rw [hloops] at hloop'
    rcases List.mem_or_eq_of_mem_set hloop' with hold | rfl
    · rw [htrace]
      exact (hw.accounted loop' hold).append es
    · exact haccounted
  · intro m hm
    rw [htrace] at hm
    rcases List.mem_append.mp hm with hold | hnew
    · rcases hw.passed m hold with hpassed | ⟨loop', hloop', hheld'⟩
      · exact Or.inl fun h hh => hgrows (hpassed h hh)
      · obtain ⟨k, hk⟩ := List.getElem?_of_mem hloop'
        by_cases hlk : l = k
        · subst hlk
          cases hl.symm.trans hk
          rcases hleft m hheld' with hstill | hpassed
          · exact Or.inr ⟨_, hself, hstill⟩
          · exact Or.inl hpassed
        · refine Or.inr ⟨loop', ?_, hheld'⟩
          rw [hloops]
          exact List.mem_of_getElem? ((List.getElem?_set_ne hlk).trans hk)
    · exact Or.inr ⟨_, hself, hdelivered m hnew⟩
  · intro m hm h hh
    rw [htrace] at hm
    rcases List.mem_append.mp hm with hold | hnew
    · exact hgrows (hw.acked m hold h hh)
    · exact hgrows (hacked m hnew h hh)
  · intro m h hm
    rw [htrace] at hm
    rcases List.mem_append.mp hm with hold | hnew
    · exact hw.unfailed m h hold
    · exact hfailed m h hnew

structure Steady (codec : Codec E) (w : BusWorld E) : Prop where
  registered : Registered w
  carried : Carried codec w

theorem Steady.of_move (hw : Steady codec w) (hl : w.loops[l]? = some loop)
    (hheld : phase.held = loop.phase.held)
    (hactive : ∀ batch, phase = .replied batch → (∃ m ∈ batch, m.expected ≠ []) →
      loop.active = true)
    (haccounted : phase.Accounted w.trace) : Steady codec (w.setPhase l loop phase) := by
  refine ⟨hw.registered.of_loop hl rfl rfl rfl rfl rfl, hw.carried.of_loop hl rfl rfl
    (List.append_nil w.trace).symm (fun _ => List.Subset.refl _) ?_ hactive haccounted ?_ nofun nofun
    nofun⟩
  · exact fun m hm => Or.inl (hheld ▸ hm)
  · exact fun m hm => Or.inl (hheld.symm ▸ hm)

theorem fresh_setStream {topic : String} {stream : Stream E}
    (h : stream.fresh ⊆ (w.streams topic).fresh) (topic' : String) :
    ((w.setStream topic stream).streams topic').fresh ⊆ (w.streams topic').fresh := by
  by_cases heq : topic' = topic
  · subst heq
    simp only [BusWorld.setStream, Function.update_self]
    exact h
  · simp only [BusWorld.setStream, Function.update_of_ne heq]
    exact List.Subset.refl _

theorem Steady.of_streams (hw : Steady codec w) (hhandlers : w'.handlers = w.handlers)
    (hsets : w'.sets = w.sets) (htasks : w'.streamTasks = w.streamTasks)
    (hloops : w'.loops = w.loops) (hsubs : w'.subscriptions = w.subscriptions)
    (htrace : w'.trace = w.trace)
    (hfresh : ∀ topic, ∀ x ∈ (w'.streams topic).fresh, codec.typeOf x.event ≠ "payload") :
    Steady codec w' := by
  obtain ⟨handlers, sets, streamTasks, loops, subscriptions, streams, nextId, trace⟩ := w'
  cases hhandlers
  cases hsets
  cases htasks
  cases hloops
  cases hsubs
  cases htrace
  refine ⟨⟨hw.registered.mem, hw.registered.lt, hw.registered.inj, hw.registered.tasks⟩,
    ⟨hfresh, fun loop hloop m hm => ?_, hw.carried.active, hw.carried.accounted,
      hw.carried.passed, hw.carried.acked, hw.carried.unfailed⟩⟩
  obtain ⟨hreadable, hlive⟩ := hw.carried.due loop hloop m hm
  exact ⟨hreadable, hlive⟩

theorem Steady.setStream (hw : Steady codec w) {topic : String} {stream : Stream E}
    (h : ∀ x ∈ stream.fresh, codec.typeOf x.event ≠ "payload") :
    Steady codec (w.setStream topic stream) := by
  refine hw.of_streams rfl rfl rfl rfl rfl rfl fun topic' x hx => ?_
  by_cases heq : topic' = topic
  · subst heq
    simp only [BusWorld.setStream, Function.update_self] at hx
    exact h x hx
  · simp only [BusWorld.setStream, Function.update_of_ne heq] at hx
    exact hw.carried.fresh topic' x hx

theorem Steady.publish (hw : Steady codec w) (topic : String) {event : E}
    (h : codec.typeOf event ≠ "payload") : Steady codec (w.publish topic event) := by
  have hstream : Steady codec (w.setStream topic { w.streams topic with
      fresh := if (w.streams topic).group then (w.streams topic).fresh ++ [⟨w.nextId, event⟩]
        else (w.streams topic).fresh }) := by
    refine hw.setStream fun x hx => ?_
    dsimp only at hx
    split at hx
    · rcases List.mem_append.mp hx with hold | hnew
      · exact hw.carried.fresh topic x hold
      · rw [List.mem_singleton.mp hnew]
        exact h
    · exact hw.carried.fresh topic x hx
  exact hstream.of_streams rfl rfl rfl rfl rfl rfl hstream.carried.fresh

theorem Steady.deliver (hw : Steady codec w) {topic : String} {active : Bool}
    (hl : w.loops[l]? = some ⟨topic, active, .reading⟩) (count : ℕ)
    (hactive : active = true ∨ w.liveHandlers topic = []) :
    Steady codec (w.deliver l count ⟨topic, active, .reading⟩) := by
  refine ⟨hw.registered.of_loop hl rfl rfl rfl rfl rfl, hw.carried.of_loop hl rfl rfl rfl ?_ ?_ ?_
    trivial nofun ?_ ?_ ?_⟩
  · exact fresh_setStream (List.drop_subset _ _)
  · intro m hm
    obtain ⟨x, hx, rfl⟩ := List.mem_map.mp hm
    exact Or.inr ⟨hw.carried.fresh topic x (List.take_subset _ _ hx), fun h hh => hh⟩
  · rintro batch hbatch ⟨m, hm, hexpected⟩
    cases hbatch
    obtain ⟨x, -, rfl⟩ := List.mem_map.mp hm
    exact hactive.resolve_right hexpected
  · intro m hm
    obtain ⟨m', hm', heq⟩ := List.mem_map.mp hm
    cases heq
    exact hm'
  · intro m hm
    obtain ⟨m', -, heq⟩ := List.mem_map.mp hm
    cases heq
  · intro m h hm
    obtain ⟨m', -, heq⟩ := List.mem_map.mp hm
    cases heq

theorem Steady.reply (hw : Steady codec w) {topic : String} {active : Bool}
    {batch : List (Message E)} (hl : w.loops[l]? = some ⟨topic, active, .replied batch⟩) :
    Steady codec (w.goOn l ⟨topic, active, .replied batch⟩ (if active then batch else [])) := by
  cases active with
  | true =>
    refine hw.of_move hl (held_onward _) (fun _ h => ?_) (accounted_onward _ _)
    cases batch <;> cases h
  | false =>
    refine ⟨hw.registered.of_loop hl rfl rfl rfl rfl rfl, hw.carried.of_loop hl rfl rfl
      (List.append_nil w.trace).symm (fun _ => List.Subset.refl _) nofun nofun trivial ?_ nofun nofun
      nofun⟩
    intro m hm
    refine Or.inr fun h hh => ?_
    have hfalse := hw.carried.active _ (List.mem_of_getElem? hl) batch rfl
      ⟨m, hm, List.ne_nil_of_mem hh⟩
    cases hfalse

theorem process_cases (hw : Steady codec w) {topic : String} {active : Bool} {m : Message E}
    {rest : List (Message E)} (hl : w.loops[l]? = some ⟨topic, active, .processing m rest⟩) :
    (m.expected = [] ∧ w.process codec l ⟨topic, active, .processing m rest⟩ m rest none =
      w.setPhase l ⟨topic, active, .processing m rest⟩ (.acking m rest)) ∨
    ∃ handlers, m.expected ⊆ handlers ∧
      w.process codec l ⟨topic, active, .processing m rest⟩ m rest none =
        (w.record (handlers.map (.handed m m.event))).setPhase l
          ⟨topic, active, .processing m rest⟩ (.handling m handlers rest) := by
  obtain ⟨hreadable, hlive⟩ := hw.carried.due _ (List.mem_of_getElem? hl) m List.mem_cons_self
  have hset : ∀ h ∈ m.expected, ∃ k set, w.handlers topic = some k ∧ w.sets[k]? = some set ∧
      h ∈ set := by
    intro h hh
    obtain ⟨k, s, hk, hlive', rfl, rfl⟩ := mem_liveHandlers.mp (hlive h hh)
    obtain ⟨hhandlers, set, hset, hmem⟩ := hw.registered.mem k s hk hlive'
    exact ⟨s.set, set, hhandlers, hset, hmem⟩
  simp only [BusWorld.process, rawOf_fields hreadable, codec.parse_stringify]
  cases hhandlers : w.handlers topic with
  | none =>
    refine Or.inl ⟨List.eq_nil_iff_forall_not_mem.mpr fun h hh => ?_, rfl⟩
    obtain ⟨k, set, hk, -⟩ := hset h hh
    cases hhandlers.symm.trans hk
  | some k =>
    refine Or.inr ⟨(w.sets[k]?).getD [], fun h hh => ?_, rfl⟩
    obtain ⟨k', set, hk', hset', hin⟩ := hset h hh
    cases hhandlers.symm.trans hk'
    rw [hset']
    exact hin

theorem passedOn_process (hw : Steady codec w) {topic : String} {active : Bool} {m : Message E}
    {rest : List (Message E)} (hl : w.loops[l]? = some ⟨topic, active, .processing m rest⟩) :
    PassedOn (w.process codec l ⟨topic, active, .processing m rest⟩ m rest none) m := by
  intro h hh
  rcases process_cases hw hl with ⟨hnone, -⟩ | ⟨handlers, hsub, heq⟩
  · rw [hnone] at hh
    cases hh
  · rw [heq]
    exact List.mem_append_right _ (List.mem_map_of_mem (hsub hh))

theorem Steady.process (hw : Steady codec w) {topic : String} {active : Bool} {m : Message E}
    {rest : List (Message E)} (hl : w.loops[l]? = some ⟨topic, active, .processing m rest⟩) :
    Steady codec (w.process codec l ⟨topic, active, .processing m rest⟩ m rest none) := by
  have hpassed := passedOn_process hw hl
  have hleft : ∀ x ∈ m :: rest, x ∈ rest ∨
      PassedOn (w.process codec l ⟨topic, active, .processing m rest⟩ m rest none) x := by
    intro x hx
    rcases List.mem_cons.mp hx with rfl | hx
    · exact Or.inr hpassed
    · exact Or.inl hx
  rcases process_cases hw hl with ⟨hnone, heq⟩ | ⟨handlers, hsub, heq⟩
  · rw [heq] at hleft ⊢
    refine ⟨hw.registered.of_loop hl rfl rfl rfl rfl rfl, hw.carried.of_loop hl rfl rfl
      (List.append_nil w.trace).symm (fun _ => List.Subset.refl _)
      (fun x hx => Or.inl (List.mem_cons_of_mem _ hx)) nofun ?_ hleft nofun nofun nofun⟩
    intro h hh
    rw [hnone] at hh
    cases hh
  · rw [heq] at hleft ⊢
    refine ⟨hw.registered.of_loop hl rfl rfl rfl rfl rfl, hw.carried.of_loop hl rfl rfl rfl
      (fun _ => List.Subset.refl _) (fun x hx => Or.inl (List.mem_cons_of_mem _ hx)) nofun
      (fun h hh => Or.inl (hsub hh)) hleft ?_ ?_ ?_⟩
    · intro x hx
      obtain ⟨_, -, heq⟩ := List.mem_map.mp hx
      cases heq
    · intro x hx
      obtain ⟨_, -, heq⟩ := List.mem_map.mp hx
      cases heq
    · intro x h hx
      obtain ⟨_, -, heq⟩ := List.mem_map.mp hx
      cases heq

theorem Steady.settle (hw : Steady codec w) {topic : String} {active : Bool} {m : Message E}
    {waiting : List ℕ} {rest : List (Message E)}
    (hl : w.loops[l]? = some ⟨topic, active, .handling m waiting rest⟩) (handler : ℕ) :
    Steady codec
      (w.settle l ⟨topic, active, .handling m waiting rest⟩ m waiting rest handler true) := by
  have haccounted := hw.carried.accounted _ (List.mem_of_getElem? hl)
  refine ⟨hw.registered.of_loop hl rfl rfl rfl rfl rfl, hw.carried.of_loop hl rfl rfl rfl
    (fun _ => List.Subset.refl _) (fun _ hx => Or.inl hx) nofun ?_ (fun _ hx => Or.inl hx) ?_ ?_ ?_⟩
  · intro h hh
    by_cases heq : h = handler
    · subst heq
      exact Or.inr (List.mem_append_right _ List.mem_cons_self)
    · rcases haccounted h hh with hwaiting | hdone
      · exact Or.inl (List.mem_filter.mpr ⟨hwaiting, decide_eq_true heq⟩)
      · exact Or.inr (List.mem_append_left _ hdone)
  · intro x hx
    cases List.mem_singleton.mp hx
  · intro x hx
    cases List.mem_singleton.mp hx
  · intro x h hx
    cases List.mem_singleton.mp hx

theorem Steady.ack (hw : Steady codec w) {topic : String} {active : Bool} {m : Message E}
    {rest : List (Message E)} (hl : w.loops[l]? = some ⟨topic, active, phase⟩)
    (hheld : phase.held = rest) (hdone : ∀ h ∈ m.expected, .succeeded m h ∈ w.trace)
    (succeeds : Bool) : Steady codec (w.ack l ⟨topic, active, phase⟩ m rest succeeds) := by
  have hsame : (LoopPhase.onward rest).held = phase.held := (held_onward rest).trans hheld.symm
  have hnoreply : ∀ batch, LoopPhase.onward rest ≠ .replied batch := by
    intro batch h
    cases rest <;> cases h
  cases succeeds with
  | false =>
    exact hw.of_move hl hsame (fun batch h => absurd h (hnoreply batch)) (accounted_onward _ _)
  | true =>
    refine ⟨hw.registered.of_loop hl rfl rfl rfl rfl rfl, hw.carried.of_loop hl rfl rfl rfl ?_ ?_
      (fun batch h => absurd h (hnoreply batch)) (accounted_onward _ _) ?_ ?_ ?_ ?_⟩
    · exact fresh_setStream (List.Subset.refl _)
    · exact fun x hx => Or.inl (hsame ▸ hx)
    · exact fun x hx => Or.inl (hsame.symm ▸ hx)
    · intro x hx
      cases List.mem_singleton.mp hx
    · intro x hx
      cases List.mem_singleton.mp hx
      exact hdone
    · intro x h hx
      cases List.mem_singleton.mp hx

end Loops

/-! ## Subscribing and unsubscribing -/

section Subscriptions

variable {topic : String} {handler : ℕ}

theorem Carried.of_subscriptions (hw : Carried codec w)
    (hloops : ∀ loop' ∈ w'.loops, loop'.phase = .creating ∨ ∃ loop ∈ w.loops,
      loop'.topic = loop.topic ∧ loop'.phase = loop.phase ∧ (loop.active = true →
        loop'.active = true ∨ ∀ h, h ∉ w'.liveHandlers loop.topic))
    (hkept : ∀ loop ∈ w.loops, ∃ loop' ∈ w'.loops, loop'.phase = loop.phase)
    (hlive : ∀ loop ∈ w.loops, ∀ m ∈ loop.phase.held, ∀ h ∈ m.expected,
      h ∈ w.liveHandlers loop.topic → h ∈ w'.liveHandlers loop.topic)
    (hstreams : w'.streams = w.streams) (htrace : w'.trace = w.trace) : Carried codec w' := by
  have hdue : ∀ loop ∈ w.loops, ∀ m ∈ loop.phase.held, Due codec w' loop.topic m := by
    intro loop hloop m hm
    obtain ⟨hreadable, hold⟩ := hw.due loop hloop m hm
    exact ⟨hreadable, fun h hh => hlive loop hloop m hm h hh (hold h hh)⟩
  refine ⟨?_, ?_, ?_, ?_, ?_, ?_, ?_⟩
  · rw [hstreams]
    exact hw.fresh
  · intro loop' hloop' m hm
    rcases hloops loop' hloop' with hnew | ⟨loop, hloop, htopic, hphase, -⟩
    · rw [hnew] at hm
      cases hm
    · rw [htopic]
      exact hdue loop hloop m (hphase ▸ hm)
  · rintro loop' hloop' batch hbatch ⟨m, hm, hexpected⟩
    rcases hloops loop' hloop' with hnew | ⟨loop, hloop, htopic, hphase, hactive⟩
    · cases hnew.symm.trans hbatch
    · have hreplied := hphase.symm.trans hbatch
      have hm' : m ∈ loop.phase.held := hreplied ▸ hm
      rcases hactive (hw.active loop hloop batch hreplied ⟨m, hm, hexpected⟩) with hyes | hnone
      · exact hyes
      · -- nobody is left that the message could be for
        obtain ⟨h, hh⟩ := List.exists_mem_of_ne_nil _ hexpected
        exact absurd ((hdue loop hloop m hm').live h hh) (hnone h)
  · intro loop' hloop'
    rw [htrace]
    rcases hloops loop' hloop' with hnew | ⟨loop, hloop, -, hphase, -⟩
    · rw [hnew]
      trivial
    · rw [hphase]
      exact hw.accounted loop hloop
  · intro m hm
    rw [htrace] at hm
    rcases hw.passed m hm with hpassed | ⟨loop, hloop, hheld⟩
    · refine Or.inl fun h hh => ?_
      rw [htrace]
      exact hpassed h hh
    · obtain ⟨loop', hloop', hphase⟩ := hkept loop hloop
      exact Or.inr ⟨loop', hloop', hphase ▸ hheld⟩
  · rw [htrace]
    exact hw.acked
  · rw [htrace]
    exact hw.unfailed

theorem Steady.register (hw : Steady codec w) {k : ℕ} (hk : w.handlers topic = some k) :
    Steady codec (w.register topic handler k) := by
  obtain ⟨set, hset⟩ : ∃ set, w.sets[k]? = some set :=
    ⟨_, List.getElem?_eq_getElem (hw.registered.lt topic k hk)⟩
  refine ⟨⟨fun i s hi hlive => ?_, fun topic' k' hk' => ?_, hw.registered.inj, hw.registered.tasks⟩,
    hw.carried.of_subscriptions ?_ (fun loop hloop => ⟨loop, hloop, rfl⟩) ?_ rfl rfl⟩
  · simp only [BusWorld.register, BusWorld.addTo, List.getElem?_modify]
    rcases getElem?_append_cases hi with hold | rfl
    · obtain ⟨hhandlers, set', hset', hmem⟩ := hw.registered.mem i s hold hlive
      refine ⟨hhandlers, ?_⟩
      rw [hset']
      by_cases heq : k = s.set
      · simp only [heq, if_true, Option.map_eq_map, Option.map_some]
        refine ⟨_, rfl, ?_⟩
        split
        · exact hmem
        · exact List.mem_append_left _ hmem
      · simp only [heq, if_false]
        exact ⟨set', rfl, hmem⟩
    · refine ⟨hk, ?_⟩
      simp only [hset, if_true, Option.map_eq_map, Option.map_some]
      refine ⟨_, rfl, ?_⟩
      split
      · assumption
      · exact List.mem_append_right _ List.mem_cons_self
  · simp only [BusWorld.register, BusWorld.addTo, List.length_modify]
    exact hw.registered.lt topic' k' hk'
  · exact fun loop hloop => Or.inr ⟨loop, hloop, rfl, rfl, Or.inl⟩
  · intro loop _ m _ h _ hlive
    simp only [BusWorld.register, BusWorld.liveHandlers, List.filter_append, List.map_append]
    exact List.mem_append_left _ hlive

theorem Steady.open (hw : Steady codec w) (hnone : w.handlers topic = none) :
    Steady codec (BusWorld.startReading { w with
      handlers := Function.update w.handlers topic (some w.sets.length), sets := w.sets ++ [[]] }
      topic) := by
  have hcases : ∀ topic' k,
      Function.update w.handlers topic (some w.sets.length) topic' = some k →
      (topic' = topic ∧ k = w.sets.length) ∨ (topic' ≠ topic ∧ w.handlers topic' = some k) := by
    intro topic' k hk
    by_cases heq : topic' = topic
    · subst heq
      rw [Function.update_self] at hk
      exact Or.inl ⟨rfl, (Option.some.inj hk).symm⟩
    · rw [Function.update_of_ne heq] at hk
      exact Or.inr ⟨heq, hk⟩
  refine ⟨⟨fun i s hi hlive => ?_, fun topic' k hk => ?_, fun topic₁ topic₂ k h₁ h₂ => ?_,
    fun topic' l hl => ?_⟩, hw.carried.of_subscriptions ?_ ?_ (fun _ _ _ _ _ _ h => h) rfl rfl⟩
  · obtain ⟨hhandlers, set, hset, hmem⟩ := hw.registered.mem i s hi hlive
    have hne : s.topic ≠ topic := by
      intro heq
      cases (heq ▸ hnone).symm.trans hhandlers
    refine ⟨(Function.update_of_ne hne _ _).trans hhandlers, set, ?_, hmem⟩
    exact (List.getElem?_append_left (List.getElem?_eq_some_iff.mp hset).1).trans hset
  · have hlen : (w.sets ++ [[]]).length = w.sets.length + 1 := by simp
    change k < (w.sets ++ [[]]).length
    rw [hlen]
    rcases hcases topic' k hk with ⟨-, rfl⟩ | ⟨-, hold⟩
    · exact Nat.lt_succ_self _
    · exact Nat.lt_succ_of_lt (hw.registered.lt topic' k hold)
  · rcases hcases topic₁ k h₁ with ⟨rfl, rfl⟩ | ⟨-, hold₁⟩
    · rcases hcases topic₂ _ h₂ with ⟨rfl, -⟩ | ⟨-, hold₂⟩
      · rfl
      · exact absurd (hw.registered.lt topic₂ _ hold₂) (Nat.lt_irrefl _)
    · rcases hcases topic₂ k h₂ with ⟨-, rfl⟩ | ⟨-, hold₂⟩
      · exact absurd (hw.registered.lt topic₁ _ hold₁) (Nat.lt_irrefl _)
      · exact hw.registered.inj topic₁ topic₂ k hold₁ hold₂
  · by_cases heq : topic' = topic
    · subst heq
      cases (Function.update_self _ _ _).symm.trans hl
      exact ⟨_, List.getElem?_concat_length, rfl⟩
    · obtain ⟨loop, hloop, htopic⟩ :=
        hw.registered.tasks topic' l ((Function.update_of_ne heq _ _).symm.trans hl)
      refine ⟨loop, ?_, htopic⟩
      exact (List.getElem?_append_left (List.getElem?_eq_some_iff.mp hloop).1).trans hloop
  · intro loop hloop
    rcases List.mem_append.mp hloop with hold | hnew
    · exact Or.inr ⟨loop, hold, rfl, rfl, Or.inl⟩
    · rw [List.mem_singleton.mp hnew]
      exact Or.inl rfl
  · exact fun loop hloop => ⟨loop, List.mem_append_left _ hloop, rfl⟩

theorem Steady.subscribe (hw : Steady codec w) : Steady codec (w.subscribe topic handler) := by
  unfold BusWorld.subscribe
  split
  · rename_i k hk
    exact hw.register hk
  · rename_i hnone
    exact (hw.open hnone).register (Function.update_self _ _ _)

/-- An unsubscription is the first of its subscription, whose handler is subscribed to the topic by
no other, and no loop of the topic still holds a message for it. -/
def Leaves (w : BusWorld E) (k : ℕ) : Prop :=
  ∀ s, w.subscriptions[k]? = some s → s.live = true ∧
    (∀ (j : ℕ) (s' : Subscription), w.subscriptions[j]? = some s' → s'.live = true →
      s'.topic = s.topic → s'.handler = s.handler → j = k) ∧
    ∀ loop ∈ w.loops, loop.topic = s.topic → ∀ m ∈ loop.phase.held, s.handler ∉ m.expected

structure Stopped (topic : String) (w w' : BusWorld E) : Prop where
  handlers : w'.handlers = w.handlers
  sets : w'.sets = w.sets
  subscriptions : w'.subscriptions = w.subscriptions
  streams : w'.streams = w.streams
  trace : w'.trace = w.trace
  tasks : ∀ topic' l, w'.streamTasks topic' = some l → w.streamTasks topic' = some l
  back : ∀ (l : ℕ) (loop' : Loop E), w'.loops[l]? = some loop' → ∃ loop, w.loops[l]? = some loop ∧
    loop'.topic = loop.topic ∧ loop'.phase = loop.phase ∧
    (loop'.active = loop.active ∨ w.streamTasks topic = some l)
  forth : ∀ (l : ℕ) (loop : Loop E), w.loops[l]? = some loop →
    ∃ loop', w'.loops[l]? = some loop' ∧ loop'.topic = loop.topic ∧ loop'.phase = loop.phase

theorem stopped_stop (topic : String) (w : BusWorld E) : Stopped topic w (w.stop topic) := by
  unfold BusWorld.stop
  split
  · exact ⟨rfl, rfl, rfl, rfl, rfl, fun _ _ h => h, fun l loop h => ⟨loop, h, rfl, rfl, Or.inl rfl⟩,
      fun l loop h => ⟨loop, h, rfl, rfl⟩⟩
  · rename_i l₀ hl₀
    refine ⟨rfl, rfl, rfl, rfl, rfl, fun topic' l hl => ?_, fun l loop' hloop' => ?_,
      fun l loop hloop => ?_⟩
    · by_cases heq : topic' = topic
      · subst heq
        cases (Function.update_self _ _ _).symm.trans hl
      · exact (Function.update_of_ne heq _ _).symm.trans hl
    · rw [List.getElem?_modify] at hloop'
      obtain ⟨loop, hloop, rfl⟩ := Option.map_eq_some_iff.mp hloop'
      refine ⟨loop, hloop, ?_⟩
      split
      · rename_i heq
        exact ⟨rfl, rfl, Or.inr (heq ▸ hl₀)⟩
      · exact ⟨rfl, rfl, Or.inl rfl⟩
    · refine ⟨_, by rw [List.getElem?_modify, hloop]; rfl, ?_⟩
      split
      · exact ⟨rfl, rfl⟩
      · exact ⟨rfl, rfl⟩

section Unsubscribe

variable {k : ℕ} {s : Subscription} {set : List ℕ}

theorem live_before {j : ℕ} {s' : Subscription}
    (hj : (w.subscriptions.set k { s with live := false })[j]? = some s')
    (hlive : s'.live = true) : j ≠ k ∧ w.subscriptions[j]? = some s' := by
  rcases getElem?_set_cases hj with ⟨-, rfl⟩ | ⟨hjk, hold⟩
  · cases hlive
  · exact ⟨hjk, hold⟩

theorem Registered.mem_left (hw : Registered w) (hk : w.subscriptions[k]? = some s)
    (hleaves : Leaves w k) (hset : w.sets[s.set]? = some set) {j : ℕ} {s' : Subscription}
    (hjk : j ≠ k) (hj : w.subscriptions[j]? = some s') (hlive : s'.live = true) :
    ∃ set', (w.sets.set s.set (set.filter (· ≠ s.handler)))[s'.set]? = some set' ∧
      s'.handler ∈ set' := by
  obtain ⟨hlives, honly, -⟩ := hleaves s hk
  obtain ⟨hhandlers', set', hset', hmem'⟩ := hw.mem j s' hj hlive
  by_cases heq : s.set = s'.set
  · refine ⟨set.filter (· ≠ s.handler), ?_, List.mem_filter.mpr ⟨?_, ?_⟩⟩
    · rw [← heq, List.getElem?_set_self (List.getElem?_eq_some_iff.mp hset).1]
    · cases (heq ▸ hset).symm.trans hset'
      exact hmem'
    · have htopic := hw.inj s'.topic s.topic s.set (heq ▸ hhandlers') (hw.mem k s hk hlives).1
      exact decide_eq_true fun hhandler => hjk (honly j s' hj hlive htopic hhandler)
  · exact ⟨set', (List.getElem?_set_ne heq).trans hset', hmem'⟩

theorem Leaves.still_live (hleaves : Leaves w k) (hk : w.subscriptions[k]? = some s)
    {loop : Loop E} (hloop : loop ∈ w.loops) {m : Message E} (hm : m ∈ loop.phase.held) {h : ℕ}
    (hh : h ∈ m.expected) (hlive : h ∈ w.liveHandlers loop.topic) :
    ∃ (j : ℕ) (s' : Subscription),
      (w.subscriptions.set k { s with live := false })[j]? = some s' ∧ s'.live = true ∧
        s'.topic = loop.topic ∧ s'.handler = h := by
  obtain ⟨j, s', hj, hlive', htopic, hhandler⟩ := mem_liveHandlers.mp hlive
  have hjk : k ≠ j := by
    rintro rfl
    cases hk.symm.trans hj
    exact (hleaves s hk).2.2 loop hloop htopic.symm m hm (hhandler ▸ hh)
  exact ⟨j, s', (List.getElem?_set_ne hjk).trans hj, hlive', htopic, hhandler⟩

theorem Registered.topic_ne (hw : Registered w) (hk : w.subscriptions[k]? = some s)
    (hleaves : Leaves w k) (hset : w.sets[s.set]? = some set)
    (hempty : set.filter (· ≠ s.handler) = []) {j : ℕ} {s' : Subscription} (hjk : j ≠ k)
    (hj : w.subscriptions[j]? = some s') (hlive : s'.live = true) : s'.topic ≠ s.topic := by
  intro heq
  obtain ⟨set', hset', hmem'⟩ := hw.mem_left hk hleaves hset hjk hj hlive
  have hsame : s'.set = s.set := by
    have hhandlers' := (hw.mem j s' hj hlive).1
    rw [heq, (hw.mem k s hk (hleaves s hk).1).1] at hhandlers'
    exact (Option.some.inj hhandlers').symm
  rw [hsame, List.getElem?_set_self (List.getElem?_eq_some_iff.mp hset).1, hempty] at hset'
  cases hset'
  cases hmem'

theorem Steady.unsubscribe_last (hw : Steady codec w) (hk : w.subscriptions[k]? = some s)
    (hleaves : Leaves w k) (hset : w.sets[s.set]? = some set)
    (hempty : set.filter (· ≠ s.handler) = []) {w₁ : BusWorld E}
    (hw₁ : w₁ = { w with
      handlers := Function.update w.handlers s.topic none
      sets := w.sets.set s.set (set.filter (· ≠ s.handler))
      subscriptions := w.subscriptions.set k { s with live := false } }) :
    Steady codec (w₁.stop s.topic) := by
  have hstop := stopped_stop s.topic w₁
  subst hw₁
  have hstays : ∀ topic k', Function.update w.handlers s.topic none topic = some k' →
      w.handlers topic = some k' := by
    intro topic k' hk'
    by_cases heq : topic = s.topic
    · subst heq
      cases (Function.update_self _ _ _).symm.trans hk'
    · exact (Function.update_of_ne heq _ _).symm.trans hk'
  refine ⟨⟨?_, ?_, ?_, ?_⟩, hw.carried.of_subscriptions ?_ ?_ ?_ hstop.streams hstop.trace⟩
  · rw [hstop.handlers, hstop.sets, hstop.subscriptions]
    intro j s' hj hlive'
    obtain ⟨hjk, hold⟩ := live_before hj hlive'
    have hne := hw.registered.topic_ne hk hleaves hset hempty hjk hold hlive'
    exact ⟨(Function.update_of_ne hne _ _).trans (hw.registered.mem j s' hold hlive').1,
      hw.registered.mem_left hk hleaves hset hjk hold hlive'⟩
  · rw [hstop.handlers, hstop.sets]
    intro topic k' hk'
    rw [List.length_set]
    exact hw.registered.lt topic k' (hstays topic k' hk')
  · rw [hstop.handlers]
    exact fun t t' k' h h' => hw.registered.inj t t' k' (hstays t k' h) (hstays t' k' h')
  · intro topic l hl
    obtain ⟨loop, hloop, hsame⟩ := hw.registered.tasks topic l (hstop.tasks topic l hl)
    obtain ⟨loop', hloop', htopic', -⟩ := hstop.forth l loop hloop
    exact ⟨loop', hloop', htopic'.trans hsame⟩
  · intro loop' hloop'
    obtain ⟨l, hl⟩ := List.getElem?_of_mem hloop'
    obtain ⟨loop, hloop, htopic', hphase, hactive⟩ := hstop.back l loop' hl
    refine Or.inr ⟨loop, List.mem_of_getElem? hloop, htopic', hphase, fun hold => ?_⟩
    rcases hactive with hsame | htask
    · exact Or.inl (hsame.trans hold)
    · -- it is the loop of the topic that was stopped, and nobody is subscribed to it
      refine Or.inr fun h hh => ?_
      obtain ⟨loop'', hloop'', hsame⟩ := hw.registered.tasks s.topic l htask
      cases hloop.symm.trans hloop''
      obtain ⟨j, s', hj, hlive', heq, -⟩ := mem_liveHandlers.mp hh
      rw [hstop.subscriptions] at hj
      obtain ⟨hjk, hold'⟩ := live_before hj hlive'
      exact hw.registered.topic_ne hk hleaves hset hempty hjk hold' hlive' (heq.trans hsame)
  · intro loop hloop
    obtain ⟨l, hl⟩ := List.getElem?_of_mem hloop
    obtain ⟨loop', hloop', -, hphase⟩ := hstop.forth l loop hl
    exact ⟨loop', List.mem_of_getElem? hloop', hphase⟩
  · intro loop hloop m hm h hh hlive
    obtain ⟨j, s', hj, hrest⟩ := hleaves.still_live hk hloop hm hh hlive
    refine mem_liveHandlers.mpr ⟨j, s', ?_, hrest⟩
    rw [hstop.subscriptions]
    exact hj

theorem Steady.unsubscribe (hw : Steady codec w) (hk : w.subscriptions[k]? = some s)
    (hleaves : Leaves w k) : Steady codec (w.unsubscribe k s) := by
  obtain ⟨-, set, hset, -⟩ := hw.registered.mem k s hk (hleaves s hk).1
  simp only [BusWorld.unsubscribe, hset, Option.getD_some]
  split
  · rename_i hempty
    exact hw.unsubscribe_last hk hleaves hset hempty rfl
  · refine ⟨⟨fun j s' hj hlive => ?_, fun topic k' hk' => ?_, hw.registered.inj,
      hw.registered.tasks⟩, hw.carried.of_subscriptions
        (fun loop hloop => Or.inr ⟨loop, hloop, rfl, rfl, Or.inl⟩)
        (fun loop hloop => ⟨loop, hloop, rfl⟩) (fun loop hloop m hm h hh hlive => ?_) rfl rfl⟩
    · obtain ⟨hjk, hold⟩ := live_before hj hlive
      exact ⟨(hw.registered.mem j s' hold hlive).1,
        hw.registered.mem_left hk hleaves hset hjk hold hlive⟩
    · rw [List.length_set]
      exact hw.registered.lt topic k' hk'
    · exact mem_liveHandlers.mpr (hleaves.still_live hk hloop hm hh hlive)

end Unsubscribe

end Subscriptions

/-! ## Runs -/

/-- Events are not named like the field of the payload, subscriptions end as `Leaves` says, a
loop that is stopped is given nothing while its topic has handlers, and no handler fails. -/
def Undisturbed (codec : Codec E) (w : BusWorld E) : BusLabel E → Prop
  | .publish _ event => codec.typeOf event ≠ "payload"
  | .unsubscribe k => Leaves w k
  | .deliver l _ => ∀ loop, w.loops[l]? = some loop →
      loop.active = true ∨ w.liveHandlers loop.topic = []
  | .process _ thrower => thrower = none
  | .settle _ _ succeeds => succeeds = true
  | _ => True

theorem Steady.next (hw : Steady codec w) {label : BusLabel E} (hok : Undisturbed codec w label)
    (h : w.next codec label = some w') : Steady codec w' := by
  cases label with
  | subscribe topic handler =>
    cases h
    exact hw.subscribe
  | unsubscribe k =>
    obtain ⟨s, hk, rfl⟩ := Option.map_eq_some_iff.mp h
    exact hw.unsubscribe hk hok
  | publish topic event =>
    cases h
    exact hw.publish topic hok
  | elsewhere topic n =>
    cases h
    exact hw.setStream fun x hx => hw.carried.fresh topic x (List.drop_subset _ _ hx)
  | create l =>
    simp only [BusWorld.next] at h
    split at h
    · rename_i topic active hl
      cases h
      unfold BusWorld.create
      dsimp only
      split
      · exact hw.of_move hl rfl nofun trivial
      · exact Steady.of_move (hw.setStream (hw.carried.fresh topic)) hl rfl nofun trivial
    · cases h
  | test l =>
    simp only [BusWorld.next] at h
    split at h
    · rename_i topic active hl
      cases h
      cases active with
      | true => exact hw.of_move hl rfl nofun trivial
      | false => exact hw.of_move hl rfl nofun trivial
    · cases h
  | deliver l count =>
    simp only [BusWorld.next] at h
    split at h
    · rename_i topic active hl
      cases h
      exact hw.deliver hl count (hok _ hl)
    · cases h
  | noReply l =>
    simp only [BusWorld.next] at h
    split at h
    · rename_i topic active hl
      cases h
      exact hw.of_move hl rfl nofun trivial
    · cases h
  | reply l =>
    simp only [BusWorld.next] at h
    split at h
    · rename_i topic active batch hl
      cases h
      exact hw.reply hl
    · cases h
  | process l thrower =>
    cases hok
    simp only [BusWorld.next] at h
    split at h
    · rename_i topic active m rest hl
      cases h
      exact hw.process hl
    · cases h
  | settle l handler succeeds =>
    cases hok
    simp only [BusWorld.next] at h
    split at h
    · rename_i topic active m waiting rest hl
      split at h
      · cases h
        exact hw.settle hl handler
      · cases h
    · cases h
  | ack l succeeds =>
    simp only [BusWorld.next] at h
    split at h
    · rename_i topic active m rest hl
      cases h
      have haccounted := hw.carried.accounted _ (List.mem_of_getElem? hl)
      exact hw.ack hl rfl (fun c hc => (haccounted c hc).resolve_left List.not_mem_nil) succeeds
    · rename_i topic active m rest hl
      cases h
      exact hw.ack hl rfl (hw.carried.accounted _ (List.mem_of_getElem? hl)) succeeds
    · cases h

section Progress

variable {l : ℕ} {topic : String} {active : Bool} {m x : Message E} {rest : List (Message E)}

theorem Steady.reaches (hw : Steady codec w)
    (h : Reaches (BusWorld.next codec) (Undisturbed codec) w w') : Steady codec w' :=
  h.invariant hw fun _ _ _ hw hok hn => hw.next hok hn

theorem reaches_step {label : BusLabel E} (hok : Undisturbed codec w label)
    (hn : w.next codec label = some w') :
    Reaches (BusWorld.next codec) (Undisturbed codec) w w' := .tail label .init hok hn

theorem place_set {loop loop' : Loop E} (hl : w.loops[l]? = some loop)
    (hloops : w'.loops = w.loops.set l loop') : w'.loops[l]? = some loop' := by
  rw [hloops, List.getElem?_set_self (List.getElem?_eq_some_iff.mp hl).1]

theorem reaches_ack {phase : LoopPhase E} (hl : w.loops[l]? = some ⟨topic, active, phase⟩)
    (hphase : phase = .handling x [] rest ∨ phase = .acking x rest) :
    ∃ w', Reaches (BusWorld.next codec) (Undisturbed codec) w w' ∧
      w'.loops[l]? = some ⟨topic, active, .onward rest⟩ := by
  have hstep : w.next codec (.ack l true) =
      some (w.ack l ⟨topic, active, phase⟩ x rest true) := by
    rcases hphase with rfl | rfl
    · simp only [BusWorld.next, hl]
    · simp only [BusWorld.next, hl]
  refine ⟨w.ack l ⟨topic, active, phase⟩ x rest true, reaches_step (by exact trivial) hstep, ?_⟩
  exact place_set hl rfl

theorem finish_handling : ∀ (n : ℕ) {w : BusWorld E} {waiting : List ℕ}, waiting.length ≤ n →
    w.loops[l]? = some ⟨topic, active, .handling x waiting rest⟩ →
    ∃ w', Reaches (BusWorld.next codec) (Undisturbed codec) w w' ∧
      w'.loops[l]? = some ⟨topic, active, .onward rest⟩ := by
  intro n
  induction n with
  | zero =>
    intro w waiting hlen hl
    cases List.length_eq_zero_iff.mp (Nat.le_zero.mp hlen)
    exact reaches_ack hl (Or.inl rfl)
  | succ n ih =>
    intro w waiting hlen hl
    cases waiting with
    | nil => exact reaches_ack hl (Or.inl rfl)
    | cons h waiting =>
      have hstep : w.next codec (.settle l h true) = some (w.settle l
          ⟨topic, active, .handling x (h :: waiting) rest⟩ x (h :: waiting) rest h true) := by
        simp only [BusWorld.next, hl, List.mem_cons_self, if_true]
      have hshort : ((h :: waiting).filter (· ≠ h)).length ≤ n := by
        rw [List.filter_cons_of_neg (by simp)]
        exact Nat.le_trans (List.length_filter_le _ _) (Nat.le_of_succ_le_succ hlen)
      have hplace : (w.settle l ⟨topic, active, .handling x (h :: waiting) rest⟩ x (h :: waiting)
          rest h true).loops[l]? =
          some ⟨topic, active, .handling x ((h :: waiting).filter (· ≠ h)) rest⟩ :=
        place_set hl rfl
      obtain ⟨w', hreach, hgone⟩ := ih hshort hplace
      have hfirst := reaches_step (by exact rfl) hstep
      exact ⟨w', hfirst.trans hreach, hgone⟩

theorem passes_onward : ∀ (rest : List (Message E)) {w : BusWorld E}, Steady codec w →
    w.loops[l]? = some ⟨topic, active, .onward rest⟩ → m ∈ rest →
    ∃ w', Reaches (BusWorld.next codec) (Undisturbed codec) w w' ∧ PassedOn w' m := by
  intro rest
  induction rest with
  | nil => exact fun _ _ hm => absurd hm List.not_mem_nil
  | cons x rest ih =>
    intro w hw hl hm
    have hl' : w.loops[l]? = some ⟨topic, active, .processing x rest⟩ := hl
    have hstep : w.next codec (.process l none) = some (w.process codec l
        ⟨topic, active, .processing x rest⟩ x rest none) := by
      simp only [BusWorld.next, hl']
    have hfirst := reaches_step (by exact rfl) hstep
    rcases List.mem_cons.mp hm with rfl | hm
    · exact ⟨_, hfirst, passedOn_process hw hl'⟩
    · -- the message before it is finished first
      obtain ⟨w₂, hsecond, hplace⟩ : ∃ w₂, Reaches (BusWorld.next codec) (Undisturbed codec) w w₂ ∧
          w₂.loops[l]? = some ⟨topic, active, .onward rest⟩ := by
        rcases process_cases hw hl' with ⟨-, heq⟩ | ⟨handlers, -, heq⟩
        · rw [heq] at hfirst
          have hplace : (w.setPhase l ⟨topic, active, .processing x rest⟩
              (.acking x rest)).loops[l]? = some ⟨topic, active, .acking x rest⟩ :=
            place_set hl' rfl
          obtain ⟨w₂, hreach, hgone⟩ := reaches_ack hplace (Or.inr rfl)
          exact ⟨w₂, hfirst.trans hreach, hgone⟩
        · rw [heq] at hfirst
          have hplace : ((w.record (handlers.map (.handed x x.event))).setPhase l
              ⟨topic, active, .processing x rest⟩ (.handling x handlers rest)).loops[l]? =
              some ⟨topic, active, .handling x handlers rest⟩ := place_set hl' rfl
          obtain ⟨w₂, hreach, hgone⟩ := finish_handling _ (Nat.le_refl _) hplace
          exact ⟨w₂, hfirst.trans hreach, hgone⟩
      obtain ⟨w₃, hthird, hpassed⟩ := ih (hw.reaches hsecond) hplace hm
      exact ⟨w₃, hsecond.trans hthird, hpassed⟩

theorem Steady.passes (hw : Steady codec w) (hm : HeldIn w m) :
    ∃ w', Reaches (BusWorld.next codec) (Undisturbed codec) w w' ∧ PassedOn w' m := by
  obtain ⟨⟨topic, active, phase⟩, hloop, hheld⟩ := hm
  obtain ⟨l, hl⟩ := List.getElem?_of_mem hloop
  cases phase with
  | replied batch =>
    by_cases hnone : m.expected = []
    · refine ⟨w, .init, fun h hh => ?_⟩
      rw [hnone] at hh
      cases hh
    · cases hw.carried.active _ hloop batch rfl ⟨m, hheld, hnone⟩
      have hstep : w.next codec (.reply l) =
          some (w.goOn l ⟨topic, true, .replied batch⟩ batch) := by
        simp only [BusWorld.next, hl, if_true]
      have hfirst := reaches_step (by exact trivial) hstep
      have hplace : (w.goOn l ⟨topic, true, .replied batch⟩ batch).loops[l]? =
          some ⟨topic, true, .onward batch⟩ := place_set hl rfl
      obtain ⟨w', hreach, hpassed⟩ := passes_onward batch (hw.reaches hfirst) hplace hheld
      exact ⟨w', hfirst.trans hreach, hpassed⟩
  | processing x rest => exact passes_onward (x :: rest) hw hl hheld
  | handling x waiting rest =>
    obtain ⟨w', hreach, hplace⟩ := finish_handling _ (Nat.le_refl _) hl
    obtain ⟨w'', hreach', hpassed⟩ := passes_onward rest (hw.reaches hreach) hplace hheld
    exact ⟨w'', hreach.trans hreach', hpassed⟩
  | acking x rest =>
    obtain ⟨w', hreach, hplace⟩ := reaches_ack hl (Or.inr rfl)
    obtain ⟨w'', hreach', hpassed⟩ := passes_onward rest (hw.reaches hreach) hplace hheld
    exact ⟨w'', hreach.trans hreach', hpassed⟩
  | _ => cases hheld

end Progress

/-- A delivered message was passed to the handlers it was delivered for, or is held and can still
be passed to them; an acknowledged one was handled by all of them; one that a handler has failed on
is held again, or was handed to that handler since. -/
structure LosesNothing (codec : Codec E) (Ok : BusWorld E → BusLabel E → Prop) (w : BusWorld E) :
    Prop where
  passed : ∀ m, .delivered m ∈ w.trace → PassedOn w m ∨ (HeldIn w m ∧
    ∃ w', Reaches (BusWorld.next codec) Ok w w' ∧ PassedOn w' m)
  acked : ∀ m, .acked m ∈ w.trace → ∀ h ∈ m.expected, .succeeded m h ∈ w.trace
  again : ∀ before after m h, w.trace = before ++ .failed m h :: after →
    HeldIn w m ∨ ∃ event, .handed m event h ∈ after

/-- **The bus loses no delivered message**, in a run that is undisturbed. -/
theorem no_delivered_message_lost (codec : Codec E) (w : BusWorld E)
    (h : Reaches (BusWorld.next codec) (Undisturbed codec) {} w) :
    LosesNothing codec (Undisturbed codec) w := by
  have hinit : Steady codec ({} : BusWorld E) := by
    refine ⟨⟨nofun, nofun, nofun, nofun⟩, ⟨fun _ _ hx => absurd hx List.not_mem_nil, nofun, nofun,
      nofun, nofun, nofun, nofun⟩⟩
  have hw := hinit.reaches h
  refine ⟨fun m hm => ?_, hw.carried.acked, fun before after m c htrace => ?_⟩
  · rcases hw.carried.passed m hm with hpassed | hheld
    · exact Or.inl hpassed
    · exact Or.inr ⟨hheld, hw.passes hheld⟩
  · refine absurd ?_ (hw.carried.unfailed m c)
    rw [htrace]
    exact List.mem_append_right _ List.mem_cons_self

/-! ### A topic with one handler -/

def bracketCodec : Codec String where
  typeOf := id
  stringify e := String.ofList ('[' :: e.toList ++ [']'])
  parse raw :=
    match raw.toList with
    | '[' :: rest => some (String.ofList rest.dropLast)
    | _ => none
  parse_stringify e := by simp

def sampleMessage : Message String := { id := 0, event := "e", expected := [0] }

/-- A message that is delivered, handed over and acknowledged. -/
theorem no_delivered_message_lost_sample : ∃ w : BusWorld String,
    .acked sampleMessage ∈ w.trace ∧ LosesNothing bracketCodec (Undisturbed bracketCodec) w := by
  obtain ⟨w, hw⟩ : ∃ w, follow (BusWorld.next bracketCodec) {}
      [.subscribe "t" 0, .create 0, .test 0, .publish "t" "e", .deliver 0 1, .reply 0,
        .process 0 none, .settle 0 0 true, .ack 0 true] = some w := ⟨_, rfl⟩
  have hreach : Reaches (BusWorld.next bracketCodec) (Undisturbed bracketCodec) {} w := by
    refine .of_follow .init ?_ hw
    refine ⟨trivial, fun _ hsubscribe => ⟨trivial, fun _ hcreate => ⟨trivial, fun _ htest =>
      ⟨(by decide : bracketCodec.typeOf "e" ≠ "payload"), fun _ hpublish => ?_⟩⟩⟩⟩
    cases hsubscribe
    cases hcreate
    cases htest
    cases hpublish
    refine ⟨fun loop hloop => ?_, fun _ _ => ⟨trivial, fun _ _ => ⟨rfl, fun _ _ => ⟨rfl, fun _ _ =>
      ⟨trivial, fun _ _ => trivial⟩⟩⟩⟩⟩
    cases hloop
    exact Or.inl rfl
  refine ⟨w, ?_, no_delivered_message_lost bracketCodec w hreach⟩
  have htrace : w.trace = [.delivered sampleMessage, .handed sampleMessage "e" 0,
      .succeeded sampleMessage 0, .acked sampleMessage] := by
    cases hw
    rfl
  rw [htrace]
  simp

/-- The read of a loop that was stopped is answered after the topic has a handler again. -/
theorem stopped_loop_drops_message : ¬ ∀ (E : Type) (codec : Codec E) (w : BusWorld E),
    Reaches (BusWorld.next codec) (fun _ _ => True) {} w →
    LosesNothing codec (fun _ _ => True) w := by
  intro hall
  obtain ⟨w, hw⟩ : ∃ w, follow (BusWorld.next bracketCodec) {}
      [.subscribe "t" 0, .create 0, .test 0, .unsubscribe 0, .subscribe "t" 0, .publish "t" "e",
        .deliver 0 1, .reply 0] = some w := ⟨_, rfl⟩
  have htrace : w.trace = [.delivered sampleMessage] := by
    cases hw
    rfl
  have hloops : w.loops = [⟨"t", false, .testing⟩, ⟨"t", true, .creating⟩] := by
    cases hw
    rfl
  have hlost := (hall String bracketCodec w
    (.of_follow .init (followsOk_of_forall (fun _ _ => trivial) _ _) hw)).passed sampleMessage
    (by rw [htrace]; exact List.mem_cons_self)
  rcases hlost with hpassed | ⟨⟨loop, hloop, hheld⟩, -⟩
  · have hhanded := hpassed 0 List.mem_cons_self
    rw [htrace] at hhanded
    cases List.mem_singleton.mp hhanded
  · rw [hloops] at hloop
    simp only [List.mem_cons, List.not_mem_nil, or_false] at hloop
    rcases hloop with rfl | rfl
    · cases hheld
    · cases hheld

end OpenObs.Events
