import Mathlib.Algebra.Order.Ring.Rat
import OpenObs.Foundation.Rose

/-!
# Contact points, policies, mute timings

The notification part of `common/models/alert.ts`. `RegExp.test` and the calendar of a
time zone are the runtime's: they are parameters.
-/

namespace OpenObs.Notifications

open OpenObs.Foundation

/-! ## Labels -/

abbrev Labels := List (String × String)

/-- `labels[name] ?? ''`. -/
def Labels.get (labels : Labels) (name : String) : String := (labels.lookup name).getD ""

inductive Operator : Type where
  | eq
  | ne
  | re
  | nre
deriving DecidableEq

structure Matcher where
  label : String
  operator : Operator
  value : String

/-- `new RegExp(pattern).test(s)`, for patterns that compile. -/
abbrev RegExpTest := String → String → Bool

/-! ## Contact points -/

inductive IntegrationType : Type where
  | slack
  | email
  | pagerduty
  | webhook
  | teams
  | opsgenie
  | telegram
  | discord
deriving DecidableEq

structure ContactPointIntegration where
  id : String
  type : IntegrationType
  name : String
  settings : List (String × String) := []
  disableResolveMessage : Option Bool := none

structure ContactPoint where
  id : String
  name : String
  integrations : List ContactPointIntegration

/-! ## The policy tree -/

structure Policy where
  id : String
  matchers : List Matcher := []
  contactPointId : String := ""
  groupBy : Option (List String) := none
  groupWaitSec : Option ℚ := none
  groupIntervalSec : Option ℚ := none
  repeatIntervalSec : Option ℚ := none
  continueMatching : Option Bool := none
  muteTimingIds : Option (List String) := none
  isDefault : Option Bool := none
  createdAt : ℤ := 0
  updatedAt : ℤ := 0

abbrev NotificationPolicyNode := Rose Policy

def defaultPolicyTree (now : ℤ) : NotificationPolicyNode :=
  .node { id := "root", groupBy := some ["alertname"], groupWaitSec := some 30,
          groupIntervalSec := some 300, repeatIntervalSec := some 3600,
          continueMatching := some false, muteTimingIds := some [], isDefault := some true,
          createdAt := now, updatedAt := now } []

/-! ## Mute timings -/

structure TimeRange where
  startMinute : ℚ
  endMinute : ℚ

structure TimeInterval where
  timesOfDay : List TimeRange := []
  weekdays : List ℤ := []
  daysOfMonth : List ℤ := []
  months : List ℤ := []
  years : List ℤ := []
  location : Option String := none

structure MuteTiming where
  id : String
  name : String
  timeIntervals : List TimeInterval

/-- What `Intl.DateTimeFormat` says of an instant in a time zone. -/
structure LocalParts where
  weekday : ℤ
  day : ℤ
  month : ℤ
  year : ℤ
  hour : ℤ
  minute : ℤ

abbrev Calendar := ℤ → String → LocalParts

end OpenObs.Notifications
