import Mathlib.Data.List.Sort
import Mathlib.Data.String.Basic
import IctAlgo.Lib.Dict
import IctAlgo.Orchestrator.Decision

/-!
# Timelines

`DecisionTimelineService` of `reasoner_service/decision_timeline_service.py`. A call of
`record_event` builds its event and then appends it under the lock; the calls of several threads
interleave at these two steps, and with calls of `clear_all`. A run of the latter kind keeps what was
built and what was appended beside the service. The clock readings of the export and of the
statistics are left out.
-/

set_option autoImplicit false

namespace Reports

open Lib Orchestrator

structure Event where
  eventType : String
  timestamp : String
  payload : Fields
  correlationId : String
  sequenceNumber : ℕ

/-- `DecisionTimelineService`, and the events that threads have built and not appended yet. -/
structure Timelines where
  timelines : Dict String (List Event) := Dict.empty
  eventCount : ℕ := 0
  built : Dict ℕ Event := Dict.empty

/-- A call of `record_event`: its arguments, the clock, and whether `deepcopy` returns. -/
structure RecordCall where
  eventType : Value
  payload : Payload
  correlationId : Value
  timestamp : String
  copied : Bool := true

/-! ## `record_event` -/

/-- A text that is not empty. -/
def textOf? : Value → Option String
  | .str s => if s = "" then none else some s
  | _ => none

/-- The event of a call, unless the call returns or raises before. -/
def buildEvent (eventCount : ℕ) (c : RecordCall) : Option Event :=
  match textOf? c.eventType, textOf? c.correlationId, c.payload with
  | some eventType, some correlationId, .dict payload =>
    if c.copied then some ⟨eventType, c.timestamp, payload, correlationId, eventCount⟩ else none
  | _, _, _ => none

namespace Timelines

/-- The part of `record_event` under the lock. -/
def appendEvent (s : Timelines) (e : Event) : Timelines :=
  { s with
    timelines := s.timelines.set e.correlationId (s.timelines.getD e.correlationId [] ++ [e])
    eventCount := s.eventCount + 1 }

/-- A step of a thread. -/
inductive Step
  | build (thread : ℕ) (call : RecordCall)
  | append (thread : ℕ)

/-- A thread that has built an event appends it before it makes another call. -/
def step (s : Timelines) : Step → Timelines
  | .build thread call =>
    if (s.built.get? thread).isSome then s
    else match buildEvent s.eventCount call with
      | some e => { s with built := s.built.set thread e }
      | none => s
  | .append thread =>
    match s.built.get? thread with
    | some e => { s.appendEvent e with built := s.built.eraseAll [thread] }
    | none => s

/-- `get_timeline`. -/
def getTimeline (s : Timelines) (correlationId : String) : List Event :=
  if correlationId = "" then [] else s.timelines.getD correlationId []

/-- The events of all timelines. -/
def recorded (s : Timelines) : List Event := s.timelines.values.flatten

end Timelines

/-! ## `validate_timeline` -/

/-- The check of the sequence numbers from the event `i` on; `prev` is the number before. -/
def sequenceIssues (i : ℕ) (prev : ℤ) : List Event → List String
  | [] => []
  | e :: es =>
    let issues := sequenceIssues (i + 1) e.sequenceNumber es
    if e.sequenceNumber < prev then s!"Event {i}: sequence number not monotonic" :: issues
    else issues

/-- The check of the timestamps behind the event `i - 1`, which has the timestamp `prev`. -/
def timestampIssues (i : ℕ) (prev : String) : List Event → List String
  | [] => []
  | e :: es =>
    let issues := timestampIssues (i + 1) e.timestamp es
    let curr := e.timestamp
    if curr < prev then s!"Event {i}: timestamp before previous event ({curr} < {prev})" :: issues
    else issues

structure ValidationReport where
  valid : Bool
  eventCount : ℕ := 0
  issues : List String := []
  reason : Option String := none

/-- `validate_timeline`; a recorded event has all the fields it requires. -/
def Timelines.validateTimeline (s : Timelines) (correlationId : String) : ValidationReport :=
  match s.getTimeline correlationId with
  | [] => { valid := false, reason := some "Timeline not found" }
  | e :: es =>
    let issues := sequenceIssues 0 (-1) (e :: es) ++ timestampIssues 1 e.timestamp es
    { valid := issues.isEmpty, eventCount := es.length + 1, issues }

/-! ## Reading timelines -/

structure TimelineExport where
  correlationId : String
  found : Bool
  eventCount : ℕ := 0
  eventTypes : List String := []
  firstEventTime : Option String := none
  lastEventTime : Option String := none
  events : List Event := []

structure TimelineStatistics where
  totalEvents : ℕ
  totalCorrelations : ℕ
  eventTypeDistribution : Dict String ℕ

namespace Timelines

variable (s : Timelines)

/-- `replay`. -/
def replay (correlationId : String) : List Event := s.getTimeline correlationId

/-- `get_event_count`; an empty id counts as none. -/
def getEventCount (correlationId : String) : ℕ :=
  if correlationId = "" then (s.timelines.values.map (·.length)).sum
  else (s.timelines.getD correlationId []).length

/-- `get_all_correlation_ids`. -/
def getAllCorrelationIds : List String := (s.timelines.items.map Prod.fst).insertionSort (· ≤ ·)

/-- `get_events_by_type`. -/
def getEventsByType (correlationId eventType : String) : List Event :=
  (s.getTimeline correlationId).filter (·.eventType = eventType)

/-- `export_timeline`. -/
def exportTimeline (correlationId : String) : TimelineExport :=
  match s.getTimeline correlationId with
  | [] => { correlationId, found := false }
  | e :: es =>
    { correlationId
      found := true
      eventCount := (e :: es).length
      eventTypes := (e :: es).map (·.eventType)
      firstEventTime := some e.timestamp
      lastEventTime := ((e :: es).getLast?).map (·.timestamp)
      events := e :: es }

/-- `get_statistics`. -/
def getStatistics : TimelineStatistics where
  totalEvents := (s.timelines.values.map (·.length)).sum
  totalCorrelations := s.timelines.items.length
  eventTypeDistribution := Dict.groupBy (·.eventType) (fun n _ => n + 1) 0 s.timelines.values.flatten

/-- `clear_all`; a thread keeps the event that it has built. -/
def clearAll : Timelines := { s with timelines := Dict.empty, eventCount := 0 }

/-- The event that a step builds. -/
def builtBy : Step → Option Event
  | .build thread call =>
    if (s.built.get? thread).isSome then none else buildEvent s.eventCount call
  | .append _ => none

/-- The event that a step appends. -/
def appendedBy : Step → Option Event
  | .build _ _ => none
  | .append thread => s.built.get? thread

end Timelines

/-- A step of a thread, or `clear_all`. -/
inductive TimelineOp
  | thread (step : Timelines.Step)
  | clear

/-- The service, the events that were built and those that were appended; the first `cleared` of the
latter are gone. -/
structure Histories where
  service : Timelines := {}
  accepted : List Event := []
  appended : List Event := []
  cleared : ℕ := 0

namespace Histories

/-- What was appended since the last `clear_all`. -/
def history (h : Histories) : List Event := h.appended.drop h.cleared

def step (h : Histories) : TimelineOp → Histories
  | .thread a =>
    { h with
      service := h.service.step a
      accepted := h.accepted ++ (h.service.builtBy a).toList
      appended := h.appended ++ (h.service.appendedBy a).toList }
  | .clear => { h with service := h.service.clearAll, cleared := h.appended.length }

end Histories

end Reports
