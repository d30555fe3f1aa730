import OpenObs.Notifications.Agreement

/-!
# Silences

The silences of `repository/sqlite/alert-rule.ts` beside the notification consumer.
Silences are stored, listed and given a status, but no step between an evaluation and a
send looks at them. What an event does with silences is what it does without.
-/

namespace OpenObs.Notifications

open OpenObs.Foundation

/-! ## The table of silences -/

structure AlertSilence where
  id : String
  matchers : List Matcher
  startsAt : ℤ
  endsAt : ℤ
  comment : String := ""
  createdBy : String := "user"
  createdAt : ℤ := 0

inductive SilenceStatus : Type where
  | active
  | expired
  | pending
deriving DecidableEq

def computeSilenceStatus (now : ℤ) (s : AlertSilence) : SilenceStatus :=
  if s.endsAt < now then .expired
  else if now < s.startsAt then .pending
  else .active

structure Gateway where
  world : World
  silences : List AlertSilence := []

def Gateway.notifications : Part Gateway World where
  get g := g.world
  set w g := { g with world := w }
  get_set _ _ := rfl
  set_get _ := rfl
  set_set _ _ _ := rfl

def rowToSilence (now : ℤ) (s : AlertSilence) : AlertSilence × SilenceStatus :=
  (s, computeSilenceStatus now s)

def createSilence (draw : String) (matchers : List Matcher) (startsAt endsAt : ℤ)
    (comment createdBy : String) : Prog Gateway (AlertSilence × SilenceStatus) :=
  Prog.atomic fun g =>
    let silence : AlertSilence :=
      ⟨"silence_" ++ draw, matchers, startsAt, endsAt, comment, createdBy, g.world.clock⟩
    (rowToSilence g.world.clock silence, { g with silences := g.silences ++ [silence] })

def findSilences : Prog Gateway (List (AlertSilence × SilenceStatus)) :=
  Prog.read fun g =>
    (g.silences.filter fun s => g.world.clock < s.endsAt).map (rowToSilence g.world.clock)

def handleEvent (o : NotificationConsumer) (payload : AlertFiredEventPayload) : Prog Gateway Unit :=
  (o.handle payload).zoom Gateway.notifications

/-! ## What silences should do, and do -/

/-- The silence is in force at `now` for an alert with these labels. -/
def AlertSilence.Covers (regExp : RegExpTest) (now : ℤ) (labels : Labels) (s : AlertSilence) :
    Prop :=
  s.startsAt ≤ now ∧ now < s.endsAt ∧
    ∀ m ∈ s.matchers, matchesLabel regExp (labels.get m.label) m.operator m.value = true

def Silenced (o : NotificationConsumer) (payload : AlertFiredEventPayload) (g : Gateway) : Prop :=
  ∃ s ∈ g.silences, s.Covers o.regExp g.world.clock payload.labels

/-- A silenced event calls no sender, and one that is not silenced does what it would do without
silences. -/
def HonorsSilences (o : NotificationConsumer) (payload : AlertFiredEventPayload) (g : Gateway) :
    Prop :=
  (Silenced o payload g → ((handleEvent o payload).run g).2.world.sends = g.world.sends) ∧
  (¬ Silenced o payload g →
    ((handleEvent o payload).run g).2.world =
      ((handleEvent o payload).run { g with silences := [] }).2.world)

/-- There is a route to a contact point with a sender, and the last dispatch along it, if any,
lets the next one through. -/
def HasWork (o : NotificationConsumer) (payload : AlertFiredEventPayload) (w : World) : Prop :=
  ∃ route ∈ o.routesOf payload w, o.Sends payload route w

section Law

variable {o : NotificationConsumer} {payload : AlertFiredEventPayload} {g : Gateway}

theorem AlertSilence.Covers.listed {s : AlertSilence} (hs : s ∈ g.silences)
    (h : s.Covers o.regExp g.world.clock payload.labels) :
    ∃ listed, findSilences.run g = (.ok listed, g) ∧ (s, .active) ∈ listed := by
  obtain ⟨hstart, hend, -⟩ := h
  refine ⟨_, rfl, List.mem_map.mpr ⟨s, by simpa using ⟨hs, hend⟩, ?_⟩⟩
  rw [rowToSilence, computeSilenceStatus, if_neg (by omega), if_neg (by omega)]

theorem handleEvent_world : ((handleEvent o payload).run g).2.world =
    ((o.handle payload).run g.world).2 := by
  rw [handleEvent, Prog.run_zoom]
  rfl

theorem handleEvent_sends_iff :
    ((handleEvent o payload).run g).2.world.sends = g.world.sends ↔ ¬ HasWork o payload g.world := by
  obtain ⟨t, more, through, log, hrun, hmore⟩ := o.handle_run payload g.world
  rw [handleEvent_world, hrun]
  dsimp only
  rw [List.append_right_eq_self, hmore, HasWork]
  simp only [not_exists, not_and]

/-- Silences are honoured exactly where there is nothing to honour or nothing to send. -/
theorem honorsSilences_iff (o : NotificationConsumer) (payload : AlertFiredEventPayload)
    (g : Gateway) :
    HonorsSilences o payload g ↔ ¬ Silenced o payload g ∨ ¬ HasWork o payload g.world := by
  have hsame : ((handleEvent o payload).run g).2.world =
      ((handleEvent o payload).run { g with silences := [] }).2.world := by
    rw [handleEvent_world, handleEvent_world]
  constructor
  · rintro ⟨hsilent, -⟩
    by_cases hs : Silenced o payload g
    · exact Or.inr (handleEvent_sends_iff.mp (hsilent hs))
    · exact Or.inl hs
  · intro h
    refine ⟨fun hs => ?_, fun _ => hsame⟩
    exact handleEvent_sends_iff.mpr (h.resolve_left fun hn => hn hs)

end Law

def webSilence : AlertSilence :=
  { id := "silence_1", matchers := [⟨"team", .eq, "web"⟩], startsAt := 0, endsAt := 100 }

/-- An alert of the silenced team is sent all the same. -/
theorem silenced_alert_sent :
    ¬ ∀ (o : NotificationConsumer) (payload : AlertFiredEventPayload) (g : Gateway),
      HonorsSilences o payload g := by
  intro hall
  have hsilenced : Silenced plainConsumer webAlert ⟨slackWorld, [webSilence]⟩ := by
    refine ⟨webSilence, List.mem_singleton_self _, by decide, by decide, ?_⟩
    decide
  have hsent := (hall plainConsumer webAlert ⟨slackWorld, [webSilence]⟩).1 hsilenced
  exact absurd hsent (by decide +kernel)

end OpenObs.Notifications
