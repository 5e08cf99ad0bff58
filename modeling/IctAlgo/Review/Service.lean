import IctAlgo.Lib.Decimal
import IctAlgo.Reports.Archive

/-!
# Human reviews

`create_review_session`, `attach_annotation`, `record_disagreement` and `summarize_reviews` of
`reasoner_service/decision_human_review_service.py`. A call that is given something else than it
documents, or that raises, returns an empty record and stores nothing.
-/

set_option autoImplicit false

namespace Review

open Lib Orchestrator Reports

/-! ## Records -/

inductive ReviewStatus where
  | created | inProgress | completed | archived
  deriving DecidableEq

inductive DisagreementSeverity where
  | minor | moderate | severe | catastrophic
  deriving DecidableEq

/-- A review session, without its disclaimer. -/
structure Session where
  sessionId : String
  correlationId : Value
  createdAt : String
  status : ReviewStatus := .created
  contextSnapshot : Fields
  annotationCount : ℕ := 0
  disagreementCount : ℕ := 0

structure Annotation where
  annotationId : String
  sessionId : String
  attachedAt : String
  annotator : Value
  annotationType : Value
  text : Value
  relevantFields : Value
  confidenceInView : PyFloat

structure Disagreement where
  disagreementId : String
  sessionId : String
  recordedAt : String
  disagreer : Value
  severity : DisagreementSeverity
  reason : Value
  alternativeDecision : Value
  pnlImpact : PyFloat

/-- An entry of the chronological log; its session and time are those of its data. -/
inductive ReviewRecord where
  | sessionCreated (data : Session)
  | annotationAttached (data : Annotation)
  | disagreementRecorded (data : Disagreement)

/-- The state of a `DecisionHumanReviewService`. -/
structure ReviewService where
  reviewSessions : Dict String Session := Dict.empty
  annotations : Dict String (List Annotation) := Dict.empty
  disagreements : Dict String (List Disagreement) := Dict.empty
  allReviews : List ReviewRecord := []

/-- What Python does outside of the module. -/
structure Outside where
  /-- `str(v)`. -/
  text : Value → String
  upper : String → String
  /-- `float(v)`; `none` when it raises. -/
  float? : Value → Option PyFloat
  /-- `hashlib.md5(text.encode()).hexdigest()`; `none` when it raises. -/
  md5? : String → Option String
  /-- `deepcopy(v)` does not raise. -/
  copies : Value → Bool

/-- The readings of the clock in a call, as ISO texts: for the id, and for the record. -/
structure Clock where
  forId : String
  forRecord : String

section
variable (out : Outside) (s : ReviewService) (now : Clock)

/-! ## Identifiers -/

/-- The start of the digest of a text, or a number when there is none. -/
def generateId (kind text : String) (fallback : ℕ) : String :=
  match out.md5? text with
  | some digest => kind ++ "_" ++ String.ofList (digest.toList.take 12)
  | none => kind ++ "_" ++ toString fallback

/-- `_generate_session_id`. -/
def generateSessionId (correlationId : Value) : String :=
  generateId out "review" (out.text correlationId ++ "_" ++ now.forId) s.reviewSessions.items.length

/-- `_generate_annotation_id`. -/
def generateAnnotationId (sessionId : String) : String :=
  let count := (s.annotations.getD sessionId []).length
  generateId out "annotation" (sessionId ++ "_" ++ toString count ++ "_" ++ now.forId)
    s.allReviews.length

/-- `_generate_disagreement_id`. -/
def generateDisagreementId (sessionId : String) : String :=
  let count := (s.disagreements.getD sessionId []).length
  generateId out "disagreement" (sessionId ++ "_" ++ toString count ++ "_" ++ now.forId)
    s.allReviews.length

/-! ## Sessions -/

/-- The session of a context; `none` when the context cannot be copied. -/
def newSession? (context : Fields) : Option Session :=
  let correlationId := context.getD "correlation_id" (.str "unknown")
  if context.values.all out.copies then
    some {
      sessionId := generateSessionId out s now correlationId
      correlationId
      createdAt := now.forRecord
      contextSnapshot := context }
  else none

/-- The session is stored under its id, without annotations and disagreements. -/
def store (session : Session) : ReviewService where
  reviewSessions := s.reviewSessions.set session.sessionId session
  annotations := s.annotations.set session.sessionId []
  disagreements := s.disagreements.set session.sessionId []
  allReviews := s.allReviews ++ [.sessionCreated session]

/-- `create_review_session`: the session it returns, and `none` for the empty one. -/
def createReviewSession (context : Payload) : ReviewService × Option Session :=
  match context with
  | .dict context =>
    match newSession? out s now context with
    | some session => (store s session, some session)
    | none => (s, none)
  | .other _ => (s, none)

/-- The id, if a session is stored under it. -/
def storedId? (sessionId : Value) : Option String :=
  match sessionId with
  | .str sessionId => if (s.reviewSessions.get? sessionId).isSome then some sessionId else none
  | _ => none

/-! ## Annotations -/

/-- The record of an annotation; `none` when building or copying it raises. -/
def annotationRecord? (sessionId : String) (annotationData : Fields) : Option Annotation := do
  let confidence ← (annotationData.getD "confidence_in_view" (.float (.fin (1 / 2)))).num?
  let record : Annotation := {
    annotationId := generateAnnotationId out s now sessionId
    sessionId
    attachedAt := now.forRecord
    annotator := annotationData.getD "annotator" (.str "unknown")
    annotationType := annotationData.getD "annotation_type" (.str "observation")
    text := annotationData.getD "text" (.str "")
    relevantFields := annotationData.getD "relevant_fields" (.list [])
    confidenceInView := Conv.clampConfidence confidence }
  guard ([record.annotator, record.annotationType, record.text, record.relevantFields].all out.copies)
  return record

/-- The session with one more annotation counted. -/
def Session.annotated (session : Session) : Session :=
  { session with annotationCount := session.annotationCount + 1, status := .inProgress }

/-- The annotation is appended to those of its session, counted and logged. -/
def attach (records : List Annotation) (record : Annotation) : ReviewService :=
  let sessionId := record.sessionId
  { s with
    annotations := s.annotations.set sessionId (records ++ [record])
    reviewSessions := match s.reviewSessions.get? sessionId with
      | some session => s.reviewSessions.set sessionId session.annotated
      | none => s.reviewSessions
    allReviews := s.allReviews ++ [.annotationAttached record] }

/-- `attach_annotation`: the record it returns, and `none` for the empty one. -/
def attachAnnotation (sessionId : Value) (annotationData : Payload) :
    ReviewService × Option Annotation :=
  match storedId? s sessionId, annotationData with
  | some sessionId, .dict annotationData =>
    match annotationRecord? out s now sessionId annotationData, s.annotations.get? sessionId with
    | some record, some records => (attach s records record, some record)
    | _, _ => (s, none)
  | _, _ => (s, none)

/-! ## Disagreements -/

/-- `DisagreementSeverity[severity.upper()]`, or moderate when there is none. -/
def severityOf : Value → DisagreementSeverity
  | .str severity =>
    match out.upper severity with
    | "MINOR" => .minor
    | "SEVERE" => .severe
    | "CATASTROPHIC" => .catastrophic
    | _ => .moderate
  | _ => .moderate

/-- `float(v) if v else 0.0`; `none` when it raises. -/
def pnlImpact? (v : Value) : Option PyFloat := if v.truthy then out.float? v else some (.fin 0)

/-- The record of a disagreement; `none` when building or copying it raises. -/
def disagreementRecord? (sessionId : String) (disagreement : Fields) : Option Disagreement := do
  let pnlImpact ← pnlImpact? out (val disagreement "pnl_impact")
  let record : Disagreement := {
    disagreementId := generateDisagreementId out s now sessionId
    sessionId
    recordedAt := now.forRecord
    disagreer := disagreement.getD "disagreer" (.str "unknown")
    severity := severityOf out (disagreement.getD "severity" (.str "moderate"))
    reason := disagreement.getD "reason" (.str "")
    alternativeDecision := disagreement.getD "alternative_decision" (.str "")
    pnlImpact }
  guard ([record.disagreer, record.reason, record.alternativeDecision].all out.copies)
  return record

/-- The session with one more disagreement counted. -/
def Session.disputed (session : Session) : Session :=
  { session with disagreementCount := session.disagreementCount + 1, status := .inProgress }

/-- The disagreement is appended to those of its session, counted and logged. -/
def dispute (records : List Disagreement) (record : Disagreement) : ReviewService :=
  let sessionId := record.sessionId
  { s with
    disagreements := s.disagreements.set sessionId (records ++ [record])
    reviewSessions := match s.reviewSessions.get? sessionId with
      | some session => s.reviewSessions.set sessionId session.disputed
      | none => s.reviewSessions
    allReviews := s.allReviews ++ [.disagreementRecorded record] }

/-- `record_disagreement`: the record it returns, and `none` for the empty one. -/
def recordDisagreement (sessionId : Value) (disagreement : Payload) :
    ReviewService × Option Disagreement :=
  match storedId? s sessionId, disagreement with
  | some sessionId, .dict disagreement =>
    match disagreementRecord? out s now sessionId disagreement,
      s.disagreements.get? sessionId with
    | some record, some records => (dispute s records record, some record)
    | _, _ => (s, none)
  | _, _ => (s, none)

/-! ## The summary -/

/-- How often each of some values occurs. -/
def countsOf {α : Type} [DecidableEq α] (keys xs : List α) : List (α × ℕ) :=
  keys.map fun key => (key, xs.count key)

def statuses : List ReviewStatus := [.created, .inProgress, .completed, .archived]

def severities : List DisagreementSeverity := [.minor, .moderate, .severe, .catastrophic]

def annotationTypes : List Value :=
  [.str "observation", .str "question", .str "concern", .str "praise"]

/-- A summary, without its texts; an empty one at first. -/
structure ReviewSummary where
  totalSessions : ℕ := 0
  totalAnnotations : ℕ := 0
  totalDisagreements : ℕ := 0
  sessionsByStatus : List (ReviewStatus × ℕ) := countsOf statuses []
  disagreementSeverityDistribution : List (DisagreementSeverity × ℕ) := countsOf severities []
  annotationTypeDistribution : List (Value × ℕ) := countsOf annotationTypes []
  averageConfidenceInViews : PyFloat := .fin 0
  totalPnlImpactIfHumanDecisions : PyFloat := .fin 0

/-- `round(x, n)`, of a float. -/
def roundFloat (n : ℕ) : PyFloat → PyFloat
  | .fin q => .fin (Decimal.roundTo n q)
  | x => x

/-- `summarize_reviews`; the empty summary when the type of an annotation cannot be looked up. -/
def summarizeReviews : ReviewSummary :=
  let annotations := s.annotations.values.flatten
  let disagreements := s.disagreements.values.flatten
  let confidences := annotations.map (·.confidenceInView)
  if annotations.all (·.annotationType.hashable) then
    { totalSessions := s.reviewSessions.items.length
      totalAnnotations := annotations.length
      totalDisagreements := disagreements.length
      sessionsByStatus := countsOf statuses (s.reviewSessions.values.map (·.status))
      disagreementSeverityDistribution := countsOf severities (disagreements.map (·.severity))
      annotationTypeDistribution := countsOf annotationTypes (annotations.map (·.annotationType))
      averageConfidenceInViews :=
        if confidences.isEmpty then .fin 0 else roundFloat 4 (meanFloats confidences)
      totalPnlImpactIfHumanDecisions := roundFloat 2 (sumFloats (disagreements.map (·.pnlImpact))) }
  else {}

end

/-! ## Calls -/

/-- A call of `create_review_session`, `attach_annotation` or `record_disagreement`, with the
readings of the clock in it. -/
inductive Call where
  | create (now : Clock) (context : Payload)
  | annotate (now : Clock) (sessionId : Value) (annotationData : Payload)
  | disagree (now : Clock) (sessionId : Value) (disagreement : Payload)

/-- The service, and the records that the calls have returned, without the empty ones. -/
structure History where
  service : ReviewService := {}
  replies : List ReviewRecord := []

/-- A call of the service. -/
def History.step (out : Outside) (h : History) : Call → History
  | .create now context =>
    let (service, reply) := createReviewSession out h.service now context
    ⟨service, h.replies ++ (reply.map .sessionCreated).toList⟩
  | .annotate now sessionId annotationData =>
    let (service, reply) := attachAnnotation out h.service now sessionId annotationData
    ⟨service, h.replies ++ (reply.map .annotationAttached).toList⟩
  | .disagree now sessionId disagreement =>
    let (service, reply) := recordDisagreement out h.service now sessionId disagreement
    ⟨service, h.replies ++ (reply.map .disagreementRecorded).toList⟩

end Review
