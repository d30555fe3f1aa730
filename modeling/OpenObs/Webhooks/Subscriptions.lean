import Mathlib.Data.List.Infix
import OpenObs.Foundation.Machine
import OpenObs.Foundation.OrderedMap
import OpenObs.Rules.Routes

/-!
# Webhook subscriptions

`routes/webhooks.ts`: the subscriptions of the process, the requests that change them, of which
two wait for a DNS lookup, and the fan-out of the events on the bus to the subscriptions there are.
-/

namespace OpenObs.Webhooks

open OpenObs.Foundation OpenObs.Rules

/-! ## Types of events -/

def ALL_EVENT_TYPES : List String :=
  ["investigation.created", "investigation.updated", "investigation.completed",
    "investigation.failed", "incident.created", "incident.updated", "incident.resolved",
    "action.requested", "action.approved", "action.rejected", "action.executed", "action.failed",
    "admin.created", "finding.updated", "feed_item.created", "feed_item.read"]

/-- The values of `EventTypes` in `common/src/events/types.ts`. -/
def EventTypes : List String :=
  ["investigation.created", "investigation.updated", "investigation.completed",
    "investigation.failed", "incident.created", "incident.updated", "incident.resolved",
    "action.requested", "action.approved", "action.rejected", "action.executed", "action.failed",
    "finding.created", "finding.updated", "feed.item.created", "feed.item.read", "alert.fired",
    "approval.created"]

/-! ## Subscriptions -/

structure WebhookSubscription where
  id : String
  url : Json
  events : Json
  secret : Json
  active : Json
  createdAt : String
  description : Option Json

structure DrawnSubscription where
  id : String
  secret : String
  createdAt : String

def newSubscription (drawn : DrawnSubscription) (body : Json.Record) : WebhookSubscription where
  id := drawn.id
  url := (Json.field body "url").getD .null
  events := (Json.field body "events").getD .null
  secret := orDefault (Json.field body "secret") (.str drawn.secret)
  active := (Json.field body "active").getD (.bool true)
  createdAt := drawn.createdAt
  description := Json.field body "description"

/-- `{ ...sub, ...(url !== undefined && { url }), … }`. -/
def updatedBy (body : Json.Record) (sub : WebhookSubscription) : WebhookSubscription :=
  { sub with
    url := (Json.field body "url").getD sub.url
    events := (Json.field body "events").getD sub.events
    secret := (Json.field body "secret").getD sub.secret
    active := (Json.field body "active").getD sub.active
    description := (Json.field body "description").or sub.description }

@[simp] theorem updatedBy_id (body : Json.Record) (sub : WebhookSubscription) :
    (updatedBy body sub).id = sub.id := rfl

def isNonEmptyArray : Option Json → Bool
  | some (.arr (_ :: _)) => true
  | _ => false

/-! ## Fan-out -/

def isText (text : String) : Json → Bool
  | .str s => s = text
  | _ => false

/-- `v.includes(text)`, which a text has too; `none` where it throws. -/
def includes (text : String) : Json → Option Bool
  | .arr xs => some (xs.any (isText text))
  | .str s => some (decide (text.toList <:+: s.toList))
  | _ => none

def fanOut (eventType : String) : List WebhookSubscription → List String
  | [] => []
  | sub :: rest =>
    if truthyJson (some sub.active) = false then fanOut eventType rest
    else
      match includes eventType sub.events with
      | none => []
      | some true => sub.id :: fanOut eventType rest
      | some false =>
        match includes "*" sub.events with
        | none => []
        | some true => sub.id :: fanOut eventType rest
        | some false => fanOut eventType rest

def deliveries (topic : String) (subs : List WebhookSubscription) : List String :=
  (ALL_EVENT_TYPES.filter (· = topic)).flatMap fun eventType => fanOut eventType subs

/-! ## The router -/

/-- A request that waits for `ensureSafeUrl`; an update with the subscription it has read. -/
inductive Waiting : Type where
  | create (body : Json.Record)
  | update (sub : WebhookSubscription) (body : Json.Record)

inductive Happening : Type where
  | refused (status : ℕ) (code : String)
  | created (sub : WebhookSubscription)
  | updated (id : String) (body : Json.Record)
  | deleted (id : String)
  | published (topic : String) (present : List WebhookSubscription) (delivered : List String)

structure WebhookRouter where
  subscriptions : OrderedMap String WebhookSubscription := {}
  waiting : List (Option Waiting) := []
  trace : List Happening := []

inductive WebhookLabel : Type where
  | post (body : Json.Record)
  | put (id : String) (body : Json.Record)
  | delete (id : String)
  | urlPasses (k : ℕ) (drawn : DrawnSubscription)
  | urlFails (k : ℕ)
  | publish (topic : String)

namespace WebhookRouter

variable (w : WebhookRouter)

def record (h : Happening) : WebhookRouter := { w with trace := w.trace ++ [h] }

def wait (request : Waiting) : WebhookRouter := { w with waiting := w.waiting ++ [some request] }

def settled (k : ℕ) : WebhookRouter := { w with waiting := w.waiting.set k none }

def store (sub : WebhookSubscription) : WebhookRouter :=
  { w with subscriptions := w.subscriptions.set sub.id sub }

def post (body : Json.Record) : WebhookRouter :=
  if truthyJson (Json.field body "url") = false ∨ isNonEmptyArray (Json.field body "events") = false
  then w.record (.refused 400 "INVALID_INPUT")
  else w.wait (.create body)

def merge (sub : WebhookSubscription) (body : Json.Record) : WebhookRouter :=
  (w.store (updatedBy body sub)).record (.updated sub.id body)

def put (id : String) (body : Json.Record) : WebhookRouter :=
  match w.subscriptions.get id with
  | none => w.record (.refused 404 "NOT_FOUND")
  | some sub =>
    if (Json.field body "url").isSome then w.wait (.update sub body) else w.merge sub body

def delete (id : String) : WebhookRouter :=
  if w.subscriptions.has id = false then w.record (.refused 404 "NOT_FOUND")
  else { w with subscriptions := w.subscriptions.delete id }.record (.deleted id)

def publish (topic : String) : WebhookRouter :=
  w.record (.published topic w.subscriptions.values (deliveries topic w.subscriptions.values))

def step (w : WebhookRouter) : WebhookLabel → Option WebhookRouter
  | .post body => some (w.post body)
  | .put id body => some (w.put id body)
  | .delete id => some (w.delete id)
  | .urlPasses k drawn =>
    match w.waiting[k]? with
    | some (some (.create body)) =>
      let sub := newSubscription drawn body
      some (((w.settled k).store sub).record (.created sub))
    | some (some (.update sub body)) => some ((w.settled k).merge sub body)
    | _ => none
  | .urlFails k =>
    match w.waiting[k]? with
    | some (some _) => some ((w.settled k).record (.refused 400 "INVALID_URL"))
    | _ => none
  | .publish topic => some (w.publish topic)

end WebhookRouter

end OpenObs.Webhooks
