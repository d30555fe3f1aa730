import OpenObs.Notifications.Types

/-!
# Two walks over the policy tree

`collectMatchingRoutes` of `services/notification-consumer.ts` decides where an alert goes;
`routeIntoTree` of `repository/notification-routing.ts` answers where it would go.
-/

namespace OpenObs.Notifications

open OpenObs.Foundation

/-! ## The consumer -/

section Consumer

variable (regExp : RegExpTest)

structure MatchedRoute where
  contactPointId : String
  groupBy : List String
  groupIntervalSec : ℚ
  repeatIntervalSec : ℚ
deriving DecidableEq

def DEFAULT_GROUP_INTERVAL_SEC : ℚ := 300

def DEFAULT_REPEAT_INTERVAL_SEC : ℚ := 3600

def toRoute (node : NotificationPolicyNode) : MatchedRoute where
  contactPointId := node.value.contactPointId
  groupBy := node.value.groupBy.getD []
  groupIntervalSec := node.value.groupIntervalSec.getD DEFAULT_GROUP_INTERVAL_SEC
  repeatIntervalSec := node.value.repeatIntervalSec.getD DEFAULT_REPEAT_INTERVAL_SEC

def matchersMatch (labels : Labels) : List Matcher → Bool
  | [] => true
  | m :: ms =>
    let v := labels.get m.label
    match m.operator with
    | .eq => if v ≠ m.value then false else matchersMatch labels ms
    | .ne => if v = m.value then false else matchersMatch labels ms
    | .re => if !regExp m.value v then false else matchersMatch labels ms
    | .nre => if regExp m.value v then false else matchersMatch labels ms

/-- `child.continueMatching`, where absent is false. -/
def continues (node : NotificationPolicyNode) : Bool := node.value.continueMatching = some true

mutual
def walk (labels : Labels) : NotificationPolicyNode → List MatchedRoute
  | .node policy children =>
    let (out, anyChildMatched) := walkChildren labels children
    -- Default policy fallback when nothing else matched.
    out ++ if !anyChildMatched ∧ policy.isDefault = some true ∧ policy.contactPointId ≠ "" then
      [toRoute (.node policy children)] else []
/-- The loop of `walk`: the routes, and whether a child matched. -/
def walkChildren (labels : Labels) : List NotificationPolicyNode → List MatchedRoute × Bool
  | [] => ([], false)
  | child :: rest =>
    if !matchersMatch regExp labels child.value.matchers then walkChildren labels rest
    else if !continues child then (toRoute child :: walk labels child, true)
    else (toRoute child :: walk labels child ++ (walkChildren labels rest).1, true)
end

def collectMatchingRoutes (tree : NotificationPolicyNode) (labels : Labels) : List MatchedRoute :=
  walk regExp labels tree

def uniqueRoutes (seen : List String) : List MatchedRoute → List MatchedRoute
  | [] => []
  | r :: rest =>
    if r.contactPointId = "" ∨ r.contactPointId ∈ seen then uniqueRoutes seen rest
    else r :: uniqueRoutes (r.contactPointId :: seen) rest

end Consumer

/-! ## The preview -/

section Preview

variable (regExp : RegExpTest)

def matchesLabel (labelValue : String) (operator : Operator) (matchValue : String) : Bool :=
  match operator with
  | .eq => labelValue = matchValue
  | .ne => labelValue ≠ matchValue
  | .re => regExp matchValue labelValue
  | .nre => !regExp matchValue labelValue

def nodeMatchesLabels (node : NotificationPolicyNode) (labels : Labels) : Bool :=
  node.value.matchers.all fun m => matchesLabel regExp (labels.get m.label) m.operator m.value

structure Collected where
  contactPointId : String
  groupBy : List String
  muteTimingIds : List String

def toCollected (node : NotificationPolicyNode) : Collected where
  contactPointId := node.value.contactPointId
  groupBy := node.value.groupBy.getD []
  muteTimingIds := node.value.muteTimingIds.getD []

def admits (labels : Labels) (node : NotificationPolicyNode) : Bool :=
  if node.value.isDefault = some true then true else nodeMatchesLabels regExp node labels

mutual
def routeIntoTree (labels : Labels) : NotificationPolicyNode → List Collected × Bool
  | .node policy children =>
    if !admits regExp labels (.node policy children) then ([], false)
    else
      let (collected, childMatched) := routeChildren labels children
      (collected ++
        if (!childMatched ∨ policy.isDefault = some true) ∧ policy.contactPointId ≠ "" then
          [toCollected (.node policy children)] else [], true)
def routeChildren (labels : Labels) : List NotificationPolicyNode → List Collected × Bool
  | [] => ([], false)
  | child :: rest =>
    let (collected, hit) := routeIntoTree labels child
    if hit ∧ !continues child then (collected, true)
    else
      let (more, childMatched) := routeChildren labels rest
      (collected ++ more, hit || childMatched)
end

def daysInMonth (year month : ℤ) : ℤ :=
  let y := if 0 ≤ year ∧ year ≤ 99 then 1900 + year else year
  if month = 2 then if y % 4 = 0 ∧ (y % 100 ≠ 0 ∨ y % 400 = 0) then 29 else 28
  else if month = 4 ∨ month = 6 ∨ month = 9 ∨ month = 11 then 30 else 31

def intervalActive (calendar : Calendar) (interval : TimeInterval) (now : ℤ) : Bool :=
  let d := calendar now (interval.location.getD "UTC")
  let normalized := interval.daysOfMonth.map fun day =>
    if day < 0 then daysInMonth d.year d.month + day + 1 else day
  let current := d.hour * 60 + d.minute
  (interval.years = [] ∨ d.year ∈ interval.years) ∧
  (interval.months = [] ∨ d.month ∈ interval.months) ∧
  (interval.weekdays = [] ∨ d.weekday ∈ interval.weekdays) ∧
  (interval.daysOfMonth = [] ∨ d.day ∈ normalized) ∧
  (interval.timesOfDay.isEmpty ∨
    interval.timesOfDay.any fun r => r.startMinute ≤ current ∧ current ≤ r.endMinute)

def isMutedByTimings (calendar : Calendar) (muteTimingIds : List String)
    (timings : List MuteTiming) (now : ℤ) : Bool :=
  muteTimingIds.any fun id =>
    (timings.find? (·.id = id)).any fun mt =>
      mt.timeIntervals.any fun interval => intervalActive calendar interval now

structure AlertRoute where
  contactPointId : String
  groupBy : List String
  isMuted : Bool

def routeAlert (calendar : Calendar) (tree : NotificationPolicyNode) (timings : List MuteTiming)
    (labels : Labels) (now : ℤ) : List AlertRoute :=
  (routeIntoTree regExp labels tree).1.map fun c =>
    ⟨c.contactPointId, c.groupBy, isMutedByTimings calendar c.muteTimingIds timings now⟩

end Preview

end OpenObs.Notifications
