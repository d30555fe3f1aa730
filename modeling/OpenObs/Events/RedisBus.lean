import OpenObs.Foundation.Machine

/-!
# The Redis event bus

`events/redis.ts` of the server utilities, in one process of a consumer group. Every topic that has
a handler has a set of them and a loop that reads its stream; a loop that is stopped may still be in
a read.
-/

namespace OpenObs.Events

open OpenObs.Foundation

/-! ## Entries -/

/-- Events, the type of each, and `JSON.stringify` with `JSON.parse`. -/
structure Codec (E : Type) where
  typeOf : E → String
  stringify : E → String
  parse : String → Option E
  parse_stringify : ∀ e, parse (stringify e) = some e

structure Entry (E : Type) where
  id : ℕ
  event : E

/-- The fields that `publish` writes. -/
def Entry.fields {E : Type} (codec : Codec E) (x : Entry E) : List String :=
  ["type", codec.typeOf x.event, "payload", codec.stringify x.event]

/-- `fields[fields.indexOf('payload') + 1] ?? ''`, where there is such an index. -/
def rawOf (fields : List String) : Option String :=
  (fields.idxOf? "payload").map fun payloadIdx => (fields[payloadIdx + 1]?).getD ""

structure Message (E : Type) extends Entry E where
  expected : List ℕ

/-- A topic's stream as the group sees it: whether the group is there, the entries that it has not
been given, and those that a reader was given and has not acknowledged. -/
structure Stream (E : Type) where
  group : Bool := false
  fresh : List (Entry E) := []
  pending : List ℕ := []

/-! ## The process -/

/-- Where a loop is: at `XGROUP`, at the test, in `XREADGROUP` before and after Redis has answered,
at a message, waiting for the handlers of one, at `XACK`. -/
inductive LoopPhase (E : Type) where
  | creating
  | testing
  | reading
  | replied (batch : List (Message E))
  | processing (m : Message E) (rest : List (Message E))
  | handling (m : Message E) (waiting : List ℕ) (rest : List (Message E))
  | acking (m : Message E) (rest : List (Message E))
  | ended

def LoopPhase.onward {E : Type} : List (Message E) → LoopPhase E
  | [] => .testing
  | m :: rest => .processing m rest

structure Loop (E : Type) where
  topic : String
  active : Bool := true
  phase : LoopPhase E := .creating

/-- A call of `subscribe`: the handler, the set it was put into, and whether the function that was
returned is still to be called. -/
structure Subscription where
  topic : String
  handler : ℕ
  set : ℕ
  live : Bool := true

inductive Happening (E : Type) where
  | delivered (m : Message E)
  | handed (m : Message E) (event : E) (handler : ℕ)
  | succeeded (m : Message E) (handler : ℕ)
  | failed (m : Message E) (handler : ℕ)
  | acked (m : Message E)

/-- `this.handlers` gives the set of a topic by its place among the sets ever made, and
`this.streamTasks` the loop by its place among the loops. -/
structure BusWorld (E : Type) where
  handlers : String → Option ℕ := fun _ => none
  sets : List (List ℕ) := []
  streamTasks : String → Option ℕ := fun _ => none
  loops : List (Loop E) := []
  subscriptions : List Subscription := []
  streams : String → Stream E := fun _ => {}
  nextId : ℕ := 0
  trace : List (Happening E) := []

inductive BusLabel (E : Type) : Type where
  | subscribe (topic : String) (handler : ℕ)
  | unsubscribe (k : ℕ)
  | publish (topic : String) (event : E)
  /-- Other readers of the group are given entries, or the stream is trimmed. -/
  | elsewhere (topic : String) (n : ℕ)
  | create (l : ℕ)
  | test (l : ℕ)
  | deliver (l count : ℕ)
  | noReply (l : ℕ)
  | reply (l : ℕ)
  | process (l : ℕ) (thrower : Option ℕ)
  | settle (l handler : ℕ) (succeeds : Bool)
  | ack (l : ℕ) (succeeds : Bool)

namespace BusWorld

variable {E : Type} (codec : Codec E) (w : BusWorld E)

/-! ### Subscriptions -/

/-- `set.add`. -/
def addTo (k handler : ℕ) : List (List ℕ) :=
  w.sets.modify k fun set => if handler ∈ set then set else set ++ [handler]

def startReading (topic : String) : BusWorld E :=
  { w with
    streamTasks := Function.update w.streamTasks topic (some w.loops.length)
    loops := w.loops ++ [{ topic }] }

def register (topic : String) (handler k : ℕ) : BusWorld E :=
  { w with
    sets := w.addTo k handler
    subscriptions := w.subscriptions ++ [{ topic, handler, set := k }] }

def subscribe (topic : String) (handler : ℕ) : BusWorld E :=
  match w.handlers topic with
  | some k => w.register topic handler k
  | none =>
    let w' := { w with
      handlers := Function.update w.handlers topic (some w.sets.length), sets := w.sets ++ [[]] }
    (w'.startReading topic).register topic handler w.sets.length

/-- `task.stop()`, and no task any more. -/
def stop (topic : String) : BusWorld E :=
  match w.streamTasks topic with
  | none => w
  | some l =>
    { w with
      streamTasks := Function.update w.streamTasks topic none
      loops := w.loops.modify l fun loop => { loop with active := false } }

/-- The function that `subscribe` has returned, once or again. -/
def unsubscribe (k : ℕ) (s : Subscription) : BusWorld E :=
  let set := ((w.sets[s.set]?).getD []).filter (· ≠ s.handler)
  let w' := { w with
    sets := w.sets.set s.set set, subscriptions := w.subscriptions.set k { s with live := false } }
  if set = [] then
    { w' with handlers := Function.update w.handlers s.topic none }.stop s.topic
  else w'

def liveHandlers (topic : String) : List ℕ :=
  (w.subscriptions.filter fun s => s.live && decide (s.topic = topic)).map (·.handler)

/-! ### Streams -/

def setStream (topic : String) (stream : Stream E) : BusWorld E :=
  { w with streams := Function.update w.streams topic stream }

/-- `XADD`; what comes before the group is not for it. -/
def publish (topic : String) (event : E) : BusWorld E :=
  let stream := w.streams topic
  let fresh := if stream.group then stream.fresh ++ [⟨w.nextId, event⟩] else stream.fresh
  { w.setStream topic { stream with fresh } with nextId := w.nextId + 1 }

def skip (topic : String) (n : ℕ) : BusWorld E :=
  w.setStream topic { w.streams topic with fresh := (w.streams topic).fresh.drop n }

/-! ### Loops -/

def setPhase (l : ℕ) (loop : Loop E) (phase : LoopPhase E) : BusWorld E :=
  { w with loops := w.loops.set l { loop with phase } }

def record (happenings : List (Happening E)) : BusWorld E :=
  { w with trace := w.trace ++ happenings }

def goOn (l : ℕ) (loop : Loop E) (rest : List (Message E)) : BusWorld E :=
  w.setPhase l loop (.onward rest)

/-- `XREADGROUP … >` takes up to `count` entries, of the 100 it asks for. -/
def deliver (l count : ℕ) (loop : Loop E) : BusWorld E :=
  let stream := w.streams loop.topic
  let entries := stream.fresh.take (min count 100)
  let batch := entries.map fun x => { x with expected := w.liveHandlers loop.topic }
  let w' := w.setStream loop.topic { stream with
    fresh := stream.fresh.drop entries.length, pending := stream.pending ++ entries.map (·.id) }
  (w'.setPhase l loop (.replied batch)).record (batch.map .delivered)

def called (thrower : Option ℕ) (handlers : List ℕ) : List ℕ :=
  match thrower with
  | some h => if h ∈ handlers then handlers.takeWhile (· ≠ h) ++ [h] else handlers
  | none => handlers

def hand (l : ℕ) (loop : Loop E) (m : Message E) (rest : List (Message E)) (event : E)
    (handlers : List ℕ) (thrower : Option ℕ) : BusWorld E :=
  let w' := w.record ((called thrower handlers).map (.handed m event))
  match thrower with
  | some h =>
    if h ∈ handlers then (w'.record [.failed m h]).goOn l loop rest
    else w'.setPhase l loop (.handling m handlers rest)
  | none => w'.setPhase l loop (.handling m handlers rest)

def process (l : ℕ) (loop : Loop E) (m : Message E) (rest : List (Message E))
    (thrower : Option ℕ) : BusWorld E :=
  match rawOf (m.fields codec) with
  | none => w.goOn l loop rest                  -- neither handed on nor acknowledged
  | some raw =>
    match codec.parse raw with
    | none => w.goOn l loop rest
    | some event =>
      match w.handlers loop.topic with
      | none => w.setPhase l loop (.acking m rest)    -- nobody is there: acknowledged
      | some k => w.hand l loop m rest event ((w.sets[k]?).getD []) thrower

def settle (l : ℕ) (loop : Loop E) (m : Message E) (waiting : List ℕ) (rest : List (Message E))
    (handler : ℕ) (succeeds : Bool) : BusWorld E :=
  if succeeds then
    (w.setPhase l loop (.handling m (waiting.filter (· ≠ handler)) rest)).record
      [.succeeded m handler]
  else (w.record [.failed m handler]).goOn l loop rest

/-- `XACK`, which may fail. -/
def ack (l : ℕ) (loop : Loop E) (m : Message E) (rest : List (Message E)) (succeeds : Bool) :
    BusWorld E :=
  if succeeds then
    let stream := w.streams loop.topic
    let w' := w.setStream loop.topic { stream with pending := stream.pending.filter (· ≠ m.id) }
    (w'.record [.acked m]).goOn l loop rest
  else w.goOn l loop rest

/-- `XGROUP CREATE … $`: the group begins at the end of the stream, if it was not there. -/
def create (l : ℕ) (loop : Loop E) : BusWorld E :=
  let stream := w.streams loop.topic
  let w' := if stream.group then w else w.setStream loop.topic { stream with group := true }
  w'.setPhase l loop .testing

def next : BusLabel E → Option (BusWorld E)
  | .subscribe topic handler => some (w.subscribe topic handler)
  | .unsubscribe k => (w.subscriptions[k]?).map (w.unsubscribe k)
  | .publish topic event => some (w.publish topic event)
  | .elsewhere topic n => some (w.skip topic n)
  | .create l =>
    match w.loops[l]? with
    | some ⟨topic, active, .creating⟩ => some (w.create l ⟨topic, active, .creating⟩)
    | _ => none
  | .test l =>
    match w.loops[l]? with
    | some ⟨topic, active, .testing⟩ =>
      some (w.setPhase l ⟨topic, active, .testing⟩ (if active then .reading else .ended))
    | _ => none
  | .deliver l count =>
    match w.loops[l]? with
    | some ⟨topic, active, .reading⟩ => some (w.deliver l count ⟨topic, active, .reading⟩)
    | _ => none
  | .noReply l =>
    match w.loops[l]? with
    | some ⟨topic, active, .reading⟩ => some (w.setPhase l ⟨topic, active, .reading⟩ .testing)
    | _ => none
  | .reply l =>
    -- a loop that was stopped during the read drops what it was given
    match w.loops[l]? with
    | some ⟨topic, active, .replied batch⟩ =>
      some (w.goOn l ⟨topic, active, .replied batch⟩ (if active then batch else []))
    | _ => none
  | .process l thrower =>
    match w.loops[l]? with
    | some ⟨topic, active, .processing m rest⟩ =>
      some (w.process codec l ⟨topic, active, .processing m rest⟩ m rest thrower)
    | _ => none
  | .settle l handler succeeds =>
    match w.loops[l]? with
    | some ⟨topic, active, .handling m waiting rest⟩ =>
      if handler ∈ waiting then
        some (w.settle l ⟨topic, active, .handling m waiting rest⟩ m waiting rest handler
          succeeds)
      else none
    | _ => none
  | .ack l succeeds =>
    match w.loops[l]? with
    | some ⟨topic, active, .handling m [] rest⟩ =>
      some (w.ack l ⟨topic, active, .handling m [] rest⟩ m rest succeeds)
    | some ⟨topic, active, .acking m rest⟩ =>
      some (w.ack l ⟨topic, active, .acking m rest⟩ m rest succeeds)
    | _ => none

end BusWorld

end OpenObs.Events
