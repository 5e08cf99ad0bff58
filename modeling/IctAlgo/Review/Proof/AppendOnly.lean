import IctAlgo.Lib.Runs
import IctAlgo.Review.Service

/-!
# Which histories of reviews are append-only

`AppendOnly`: each session that was returned is stored with all that was attached to it, its counts and
the totals of the summary are right, and the log is what the calls returned.

* `createReviewSession_cases`, `attachAnnotation_cases`, `recordDisagreement_cases`: what a call does.
* `InStep`: the invariant that carries it, kept by calls that meet `KeepsInStep`.
* `reviews_grow`: the log is only appended to.
* `appendOnlyRun_iff`: the runs of calls that are append-only throughout.
-/

set_option autoImplicit false

namespace Review

open Lib Lib.Runs Orchestrator Reports

/-! ## What the calls have returned -/

def ReviewRecord.session? : ReviewRecord → Option Session
  | .sessionCreated session => some session
  | _ => none

def ReviewRecord.annotation? : ReviewRecord → Option Annotation
  | .annotationAttached annotation => some annotation
  | _ => none

def ReviewRecord.disagreement? : ReviewRecord → Option Disagreement
  | .disagreementRecorded disagreement => some disagreement
  | _ => none

namespace History

variable (h : History)

/-- The sessions returned. -/
def sessions : List Session := h.replies.filterMap ReviewRecord.session?

def annotations : List Annotation := h.replies.filterMap ReviewRecord.annotation?

def disagreements : List Disagreement := h.replies.filterMap ReviewRecord.disagreement?

/-- The annotations attached to a session. -/
def annotationsOf (sessionId : String) : List Annotation :=
  h.annotations.filter (·.sessionId = sessionId)

def disagreementsOf (sessionId : String) : List Disagreement :=
  h.disagreements.filter (·.sessionId = sessionId)

/-! One more reply. -/

variable (service : ReviewService) (reply : ReviewRecord)

@[simp] theorem sessions_reply :
    (⟨service, h.replies ++ [reply]⟩ : History).sessions = h.sessions ++ reply.session?.toList := by
  cases reply <;> simp [sessions, ReviewRecord.session?]

@[simp] theorem annotations_reply :
    (⟨service, h.replies ++ [reply]⟩ : History).annotations =
      h.annotations ++ reply.annotation?.toList := by
  cases reply <;> simp [annotations, ReviewRecord.annotation?]

@[simp] theorem disagreements_reply :
    (⟨service, h.replies ++ [reply]⟩ : History).disagreements =
      h.disagreements ++ reply.disagreement?.toList := by
  cases reply <;> simp [disagreements, ReviewRecord.disagreement?]

theorem annotationsOf_reply (id : String) :
    (⟨service, h.replies ++ [reply]⟩ : History).annotationsOf id =
      h.annotationsOf id ++ reply.annotation?.toList.filter (·.sessionId = id) := by
  simp [annotationsOf]

theorem disagreementsOf_reply (id : String) :
    (⟨service, h.replies ++ [reply]⟩ : History).disagreementsOf id =
      h.disagreementsOf id ++ reply.disagreement?.toList.filter (·.sessionId = id) := by
  simp [disagreementsOf]

end History

/-- `stored` is the session `created`, with all that was attached to it. -/
structure StoredWhole (h : History) (created stored : Session) : Prop where
  sessionId : stored.sessionId = created.sessionId
  correlationId : stored.correlationId = created.correlationId
  createdAt : stored.createdAt = created.createdAt
  contextSnapshot : stored.contextSnapshot = created.contextSnapshot
  annotations : h.service.annotations.get? created.sessionId =
    some (h.annotationsOf created.sessionId)
  disagreements : h.service.disagreements.get? created.sessionId =
    some (h.disagreementsOf created.sessionId)
  annotationCount : stored.annotationCount = (h.annotationsOf created.sessionId).length
  disagreementCount : stored.disagreementCount = (h.disagreementsOf created.sessionId).length

structure AppendOnly (h : History) : Prop where
  stored : ∀ created ∈ h.sessions, ∃ stored,
    h.service.reviewSessions.get? created.sessionId = some stored ∧ StoredWhole h created stored
  log : h.service.allReviews = h.replies
  totalSessions : (summarizeReviews h.service).totalSessions = h.sessions.length
  totalAnnotations : (summarizeReviews h.service).totalAnnotations = h.annotations.length
  totalDisagreements : (summarizeReviews h.service).totalDisagreements = h.disagreements.length

/-- The record of the annotation can be built and copied. -/
def Attachable (out : Outside) (annotationData : Fields) : Prop :=
  (annotationData.getD "confidence_in_view" (.float (.fin (1 / 2)))).num?.isSome ∧
    [annotationData.getD "annotator" (.str "unknown"),
      annotationData.getD "annotation_type" (.str "observation"),
      annotationData.getD "text" (.str ""),
      annotationData.getD "relevant_fields" (.list [])].all out.copies = true

/-- The id of a new session is not in use; the type of an annotation that is attached can be looked
up. -/
def KeepsInStep (out : Outside) (h : History) : Call → Prop
  | .create now (.dict context) =>
    context.values.all out.copies = true →
      h.service.reviewSessions.get? (generateSessionId out h.service now
        (context.getD "correlation_id" (.str "unknown"))) = none
  | .annotate _ sessionId (.dict annotationData) =>
    (storedId? h.service sessionId).isSome → Attachable out annotationData →
      (annotationData.getD "annotation_type" (.str "observation")).hashable = true
  | _ => True

/-! ## What a call does -/

section
variable (out : Outside) (h : History)

theorem createReviewSession_cases (now : Clock) (context : Payload) :
    h.step out (.create now context) = h ∨
      ∃ d session, context = .dict d ∧ newSession? out h.service now d = some session ∧
        h.step out (.create now context) =
          ⟨store h.service session, h.replies ++ [.sessionCreated session]⟩ := by
  cases context with
  | other v => exact .inl (by simp [History.step, createReviewSession])
  | dict d =>
    cases hnew : newSession? out h.service now d with
    | none => exact .inl (by simp [History.step, createReviewSession, hnew])
    | some session =>
      exact .inr ⟨d, session, rfl, hnew, by simp [History.step, createReviewSession, hnew]⟩

theorem attachAnnotation_cases (now : Clock) (sessionId : Value) (annotationData : Payload) :
    h.step out (.annotate now sessionId annotationData) = h ∨
      ∃ id d record records, storedId? h.service sessionId = some id ∧ annotationData = .dict d ∧
        annotationRecord? out h.service now id d = some record ∧
        h.service.annotations.get? id = some records ∧
        h.step out (.annotate now sessionId annotationData) =
          ⟨attach h.service records record, h.replies ++ [.annotationAttached record]⟩ := by
  cases hid : storedId? h.service sessionId with
  | none => exact .inl (by simp [History.step, attachAnnotation, hid])
  | some id =>
    cases annotationData with
    | other v => exact .inl (by simp [History.step, attachAnnotation, hid])
    | dict d =>
      cases hrecord : annotationRecord? out h.service now id d with
      | none => exact .inl (by simp [History.step, attachAnnotation, hid, hrecord])
      | some record =>
        cases hrecords : h.service.annotations.get? id with
        | none => exact .inl (by simp [History.step, attachAnnotation, hid, hrecord, hrecords])
        | some records =>
          exact .inr ⟨id, d, record, records, rfl, rfl, hrecord, hrecords,
            by simp [History.step, attachAnnotation, hid, hrecord, hrecords]⟩

theorem recordDisagreement_cases (now : Clock) (sessionId : Value) (disagreement : Payload) :
    h.step out (.disagree now sessionId disagreement) = h ∨
      ∃ id d record records, storedId? h.service sessionId = some id ∧
        disagreementRecord? out h.service now id d = some record ∧
        h.service.disagreements.get? id = some records ∧
        h.step out (.disagree now sessionId disagreement) =
          ⟨dispute h.service records record, h.replies ++ [.disagreementRecorded record]⟩ := by
  cases hid : storedId? h.service sessionId with
  | none => exact .inl (by simp [History.step, recordDisagreement, hid])
  | some id =>
    cases disagreement with
    | other v => exact .inl (by simp [History.step, recordDisagreement, hid])
    | dict d =>
      cases hrecord : disagreementRecord? out h.service now id d with
      | none => exact .inl (by simp [History.step, recordDisagreement, hid, hrecord])
      | some record =>
        cases hrecords : h.service.disagreements.get? id with
        | none => exact .inl (by simp [History.step, recordDisagreement, hid, hrecord, hrecords])
        | some records =>
          exact .inr ⟨id, d, record, records, rfl, hrecord, hrecords,
            by simp [History.step, recordDisagreement, hid, hrecord, hrecords]⟩

end

/-! ## Records -/

section
variable {out : Outside} {s : ReviewService} {now : Clock}

/-- A context that can be copied gives a session under the generated id. -/
theorem newSession?_eq_some {d : Fields} {session : Session}
    (h : newSession? out s now d = some session) :
    d.values.all out.copies = true ∧ session.annotationCount = 0 ∧ session.disagreementCount = 0 ∧
      session.sessionId = generateSessionId out s now (d.getD "correlation_id" (.str "unknown")) := by
  unfold newSession? at h
  split at h
  · rename_i hcopies
    obtain rfl := Option.some.inj h
    exact ⟨hcopies, rfl, rfl, rfl⟩
  · cases h

theorem annotationRecord?_eq_some {id : String} {d : Fields} {record : Annotation}
    (h : annotationRecord? out s now id d = some record) :
    Attachable out d ∧ record.sessionId = id ∧
      record.annotationType = d.getD "annotation_type" (.str "observation") := by
  unfold annotationRecord? at h
  cases hconfidence : (d.getD "confidence_in_view" (.float (.fin (1 / 2)))).num? with
  | none =>
    rw [hconfidence] at h
    cases h
  | some confidence =>
    rw [hconfidence] at h
    simp only [Option.bind_eq_bind, Option.bind_some, guard] at h
    split at h
    · rename_i hcopies
      obtain rfl := Option.some.inj h
      exact ⟨⟨by rw [hconfidence]; rfl, hcopies⟩, rfl, rfl⟩
    · cases h

theorem disagreementRecord?_sessionId {id : String} {d : Fields} {record : Disagreement}
    (h : disagreementRecord? out s now id d = some record) : record.sessionId = id := by
  unfold disagreementRecord? at h
  cases hpnl : pnlImpact? out (val d "pnl_impact") with
  | none =>
    rw [hpnl] at h
    cases h
  | some pnl =>
    rw [hpnl] at h
    simp only [Option.bind_eq_bind, Option.bind_some, guard] at h
    split at h
    · obtain rfl := Option.some.inj h
      rfl
    · cases h

theorem storedId?_eq_some {sessionId : Value} {id : String} (h : storedId? s sessionId = some id) :
    sessionId = .str id ∧ (s.reviewSessions.get? id).isSome := by
  unfold storedId? at h
  split at h
  · split at h
    · rename_i hsome
      obtain rfl := Option.some.inj h
      exact ⟨rfl, hsome⟩
    · cases h
  · cases h

end

/-! ## The invariant -/

structure InStep (h : History) : Prop where
  ids : ∀ id, (h.service.reviewSessions.get? id).isSome ↔ id ∈ h.sessions.map (·.sessionId)
  stored : ∀ created ∈ h.sessions, ∃ stored,
    h.service.reviewSessions.get? created.sessionId = some stored ∧ StoredWhole h created stored
  annotationIds : ∀ id, (h.service.annotations.get? id).isSome = (h.service.reviewSessions.get? id).isSome
  disagreementIds : ∀ id,
    (h.service.disagreements.get? id).isSome = (h.service.reviewSessions.get? id).isSome
  annotated : ∀ a ∈ h.annotations, a.sessionId ∈ h.sessions.map (·.sessionId)
  disputed : ∀ d ∈ h.disagreements, d.sessionId ∈ h.sessions.map (·.sessionId)
  log : h.service.allReviews = h.replies
  sessionCount : h.service.reviewSessions.items.length = h.sessions.length
  annotations : h.service.annotations.values.flatten.Perm h.annotations
  disagreements : h.service.disagreements.values.flatten.Perm h.disagreements
  hashable : ∀ a ∈ h.annotations, a.annotationType.hashable = true

theorem inStep_init : InStep {} where
  ids := by simp [History.sessions]
  stored := by simp [History.sessions]
  annotationIds := by simp
  disagreementIds := by simp
  annotated := by simp [History.annotations]
  disputed := by simp [History.disagreements]
  log := rfl
  sessionCount := rfl
  annotations := List.Perm.refl _
  disagreements := List.Perm.refl _
  hashable := by simp [History.annotations]

theorem InStep.appendOnly {h : History} (hi : InStep h) : AppendOnly h := by
  have hall : h.service.annotations.values.flatten.all (·.annotationType.hashable) = true := by
    apply List.all_eq_true.2
    intro a ha
    exact hi.hashable a (hi.annotations.mem_iff.1 ha)
  refine ⟨hi.stored, hi.log, ?_, ?_, ?_⟩
  · simp only [summarizeReviews, hall, ↓reduceIte]
    exact hi.sessionCount
  · simp only [summarizeReviews, hall, ↓reduceIte]
    exact hi.annotations.length_eq
  · simp only [summarizeReviews, hall, ↓reduceIte]
    exact hi.disagreements.length_eq

/-- A session under another id stays as it is. -/
theorem StoredWhole.frame {h h' : History} {created stored : Session}
    (hw : StoredWhole h created stored)
    (ha : h'.service.annotations.get? created.sessionId =
      h.service.annotations.get? created.sessionId)
    (hd : h'.service.disagreements.get? created.sessionId =
      h.service.disagreements.get? created.sessionId)
    (hra : h'.annotationsOf created.sessionId = h.annotationsOf created.sessionId)
    (hrd : h'.disagreementsOf created.sessionId = h.disagreementsOf created.sessionId) :
    StoredWhole h' created stored where
  sessionId := hw.sessionId
  correlationId := hw.correlationId
  createdAt := hw.createdAt
  contextSnapshot := hw.contextSnapshot
  annotations := by rw [ha, hra, hw.annotations]
  disagreements := by rw [hd, hrd, hw.disagreements]
  annotationCount := by rw [hra, hw.annotationCount]
  disagreementCount := by rw [hrd, hw.disagreementCount]

section
variable {h : History} {created stored : Session} (hw : StoredWhole h created stored)
  {notes : List Annotation} {note : Annotation}
  {disputes : List Disagreement} {disagreement : Disagreement}

include hw

/-- A session with one more annotation has all of its annotations. -/
theorem StoredWhole.annotated (heq : created.sessionId = note.sessionId)
    (hnotes : h.service.annotations.get? note.sessionId = some notes) :
    StoredWhole ⟨attach h.service notes note, h.replies ++ [.annotationAttached note]⟩ created
      stored.annotated := by
  have hlist : notes = h.annotationsOf note.sessionId := by
    have hall := hw.annotations
    rw [heq, hnotes] at hall
    exact Option.some.inj hall
  refine ⟨hw.sessionId, hw.correlationId, hw.createdAt, hw.contextSnapshot, ?_, ?_, ?_, ?_⟩
  · simp [attach, heq, hlist, History.annotationsOf_reply, ReviewRecord.annotation?]
  · simpa [attach, History.disagreementsOf_reply, ReviewRecord.disagreement?] using
      hw.disagreements
  · simp [Session.annotated, hw.annotationCount, heq, History.annotationsOf_reply,
      ReviewRecord.annotation?]
  · simp [Session.annotated, hw.disagreementCount, History.disagreementsOf_reply,
      ReviewRecord.disagreement?]

theorem StoredWhole.annotated_other (hne : created.sessionId ≠ note.sessionId) :
    StoredWhole ⟨attach h.service notes note, h.replies ++ [.annotationAttached note]⟩ created
      stored := by
  refine hw.frame ?_ rfl ?_ ?_
  · simp only [attach, Dict.get?_set_ne _ _ hne]
  · simp [History.annotationsOf_reply, ReviewRecord.annotation?, Ne.symm hne]
  · simp [History.disagreementsOf_reply, ReviewRecord.disagreement?]

/-- A session with one more disagreement has all of its disagreements. -/
theorem StoredWhole.disputed (heq : created.sessionId = disagreement.sessionId)
    (hdisputes : h.service.disagreements.get? disagreement.sessionId = some disputes) :
    StoredWhole ⟨dispute h.service disputes disagreement,
      h.replies ++ [.disagreementRecorded disagreement]⟩ created stored.disputed := by
  have hlist : disputes = h.disagreementsOf disagreement.sessionId := by
    have hall := hw.disagreements
    rw [heq, hdisputes] at hall
    exact Option.some.inj hall
  refine ⟨hw.sessionId, hw.correlationId, hw.createdAt, hw.contextSnapshot, ?_, ?_, ?_, ?_⟩
  · simpa [dispute, History.annotationsOf_reply, ReviewRecord.annotation?] using hw.annotations
  · simp [dispute, heq, hlist, History.disagreementsOf_reply, ReviewRecord.disagreement?]
  · simp [Session.disputed, hw.annotationCount, History.annotationsOf_reply,
      ReviewRecord.annotation?]
  · simp [Session.disputed, hw.disagreementCount, heq, History.disagreementsOf_reply,
      ReviewRecord.disagreement?]

theorem StoredWhole.disputed_other (hne : created.sessionId ≠ disagreement.sessionId) :
    StoredWhole ⟨dispute h.service disputes disagreement,
      h.replies ++ [.disagreementRecorded disagreement]⟩ created stored := by
  refine hw.frame rfl ?_ ?_ ?_
  · simp only [dispute, Dict.get?_set_ne _ _ hne]
  · simp [History.annotationsOf_reply, ReviewRecord.annotation?]
  · simp [History.disagreementsOf_reply, ReviewRecord.disagreement?, Ne.symm hne]

end

section
variable {h : History} (hi : InStep h)

include hi

/-! ## A new session -/

/-- Nothing was attached to a session that is not stored. -/
theorem InStep.annotationsOf_new {id : String} (hnew : h.service.reviewSessions.get? id = none) :
    h.annotationsOf id = [] ∧ h.disagreementsOf id = [] := by
  have hid : id ∉ h.sessions.map (·.sessionId) := by
    rw [← hi.ids, hnew]
    simp
  constructor
  · apply List.filter_eq_nil_iff.2
    intro a ha heq
    exact hid (of_decide_eq_true heq ▸ hi.annotated a ha)
  · apply List.filter_eq_nil_iff.2
    intro d hd heq
    exact hid (of_decide_eq_true heq ▸ hi.disputed d hd)

theorem InStep.create {session : Session}
    (hnew : h.service.reviewSessions.get? session.sessionId = none)
    (ha : session.annotationCount = 0) (hd : session.disagreementCount = 0) :
    InStep ⟨store h.service session, h.replies ++ [.sessionCreated session]⟩ := by
  obtain ⟨hnoAnnotations, hnoDisagreements⟩ := hi.annotationsOf_new hnew
  have hannotations : h.service.annotations.get? session.sessionId = none := by
    rw [← Option.isNone_iff_eq_none, ← Option.not_isSome, hi.annotationIds, hnew]
    rfl
  have hdisagreements : h.service.disagreements.get? session.sessionId = none := by
    rw [← Option.isNone_iff_eq_none, ← Option.not_isSome, hi.disagreementIds, hnew]
    rfl
  refine ⟨?_, ?_, ?_, ?_, ?_, ?_, ?_, ?_, ?_, ?_, ?_⟩
  · intro id
    rw [store, Dict.isSome_get?_set, hi.ids id, or_comm]
    simp [ReviewRecord.session?]
  · intro created hcreated
    simp only [History.sessions_reply, ReviewRecord.session?, Option.toList_some, List.mem_append,
      List.mem_singleton] at hcreated
    obtain hold | rfl := hcreated
    · obtain ⟨stored, hstored, hw⟩ := hi.stored created hold
      have hne : created.sessionId ≠ session.sessionId := by
        intro heq
        rw [heq, hnew] at hstored
        cases hstored
      refine ⟨stored, ?_, hw.frame ?_ ?_ ?_ ?_⟩
      · simp only [store, Dict.get?_set_ne _ _ hne, hstored]
      · simp only [store, Dict.get?_set_ne _ _ hne]
      · simp only [store, Dict.get?_set_ne _ _ hne]
      · simp [History.annotationsOf_reply, ReviewRecord.annotation?]
      · simp [History.disagreementsOf_reply, ReviewRecord.disagreement?]
    · refine ⟨created, by simp [store], rfl, rfl, rfl, rfl, ?_, ?_, ?_, ?_⟩
      · simp [store, History.annotationsOf_reply, ReviewRecord.annotation?, hnoAnnotations]
      · simp [store, History.disagreementsOf_reply, ReviewRecord.disagreement?, hnoDisagreements]
      · simp [History.annotationsOf_reply, ReviewRecord.annotation?, hnoAnnotations, ha]
      · simp [History.disagreementsOf_reply, ReviewRecord.disagreement?, hnoDisagreements, hd]
  · intro id
    rw [Bool.eq_iff_iff, store, Dict.isSome_get?_set, Dict.isSome_get?_set, hi.annotationIds id]
  · intro id
    rw [Bool.eq_iff_iff, store, Dict.isSome_get?_set, Dict.isSome_get?_set, hi.disagreementIds id]
  · intro a hmem
    have hold := hi.annotated a (by simpa [ReviewRecord.annotation?] using hmem)
    simp only [History.sessions_reply, List.map_append, List.mem_append]
    exact .inl hold
  · intro d hmem
    have hold := hi.disputed d (by simpa [ReviewRecord.disagreement?] using hmem)
    simp only [History.sessions_reply, List.map_append, List.mem_append]
    exact .inl hold
  · simp only [store, hi.log]
  · have hlength := Dict.length_set h.service.reviewSessions session.sessionId session
    rw [hnew] at hlength
    simpa [store, ReviewRecord.session?, hi.sessionCount] using hlength
  · simpa [store, Dict.values_set_of_new _ hannotations, ReviewRecord.annotation?] using hi.annotations
  · simpa [store, Dict.values_set_of_new _ hdisagreements, ReviewRecord.disagreement?] using
      hi.disagreements
  · intro a hmem
    exact hi.hashable a (by simpa [ReviewRecord.annotation?] using hmem)

/-! ## More for a session -/

/-- A stored session takes the place of the one under its id, and the others stay as they are. -/
theorem InStep.amended (h' : History) {id : String} {old new : Session}
    (hold : h.service.reviewSessions.get? id = some old) (hreturned : h'.sessions = h.sessions)
    (hset : h'.service.reviewSessions = h.service.reviewSessions.set id new)
    (hnew : ∀ created, created.sessionId = id → StoredWhole h created old →
      StoredWhole h' created new)
    (hother : ∀ created stored, created.sessionId ≠ id → StoredWhole h created stored →
      StoredWhole h' created stored) :
    (∀ id', (h'.service.reviewSessions.get? id').isSome ↔
        id' ∈ h'.sessions.map (·.sessionId)) ∧
      (∀ created ∈ h'.sessions, ∃ stored,
        h'.service.reviewSessions.get? created.sessionId = some stored ∧
          StoredWhole h' created stored) ∧
      h'.service.reviewSessions.items.length = h'.sessions.length := by
  rw [hreturned, hset]
  refine ⟨?_, ?_, ?_⟩
  · intro id'
    rw [Dict.isSome_get?_set_of_some _ hold]
    exact hi.ids id'
  · intro created hcreated
    obtain ⟨stored, hstored, hw⟩ := hi.stored created hcreated
    by_cases heq : created.sessionId = id
    · obtain rfl : stored = old := by
        rw [heq, hold] at hstored
        exact (Option.some.inj hstored).symm
      refine ⟨new, ?_, hnew created heq hw⟩
      rw [heq, Dict.get?_set_self]
    · refine ⟨stored, ?_, hother created stored heq hw⟩
      rw [Dict.get?_set_ne _ _ heq, hstored]
  · rw [Dict.length_set_of_some _ hold]
    exact hi.sessionCount

theorem InStep.annotate {records : List Annotation} {record : Annotation}
    (hid : (h.service.reviewSessions.get? record.sessionId).isSome)
    (hrecords : h.service.annotations.get? record.sessionId = some records)
    (hhash : record.annotationType.hashable = true) :
    InStep ⟨attach h.service records record, h.replies ++ [.annotationAttached record]⟩ := by
  obtain ⟨stored₀, hstored₀⟩ := Option.isSome_iff_exists.1 hid
  -- the sessions stored are those before, with one more annotation in one of them
  have hsessions : (attach h.service records record).reviewSessions =
      h.service.reviewSessions.set record.sessionId stored₀.annotated := by
    simp only [attach, hstored₀]
  have hsame : ∀ id, ((attach h.service records record).reviewSessions.get? id).isSome =
      (h.service.reviewSessions.get? id).isSome := by
    rw [hsessions]
    exact Dict.isSome_get?_set_of_some _ hstored₀
  have hof : ∀ a ∈ History.annotations
      ⟨attach h.service records record, h.replies ++ [.annotationAttached record]⟩,
      a ∈ h.annotations ∨ a = record := by
    intro a hmem
    simpa [ReviewRecord.annotation?] using hmem
  obtain ⟨hids, hstored, hcount⟩ := hi.amended
    ⟨attach h.service records record, h.replies ++ [.annotationAttached record]⟩ hstored₀
    (by simp [ReviewRecord.session?]) hsessions
    (fun _ heq hw => hw.annotated heq hrecords) fun _ _ hne hw => hw.annotated_other hne
  refine ⟨hids, hstored, ?_, ?_, ?_, ?_, ?_, hcount, ?_, ?_, ?_⟩
  · intro id
    rw [hsame, ← hi.annotationIds id]
    exact Dict.isSome_get?_set_of_some _ hrecords id
  · intro id
    rw [hsame]
    exact hi.disagreementIds id
  · intro a hmem
    obtain hold | rfl := hof a hmem
    · simpa [ReviewRecord.session?] using hi.annotated a hold
    · have hids := (hi.ids a.sessionId).1 hid
      simpa [ReviewRecord.session?] using hids
  · intro d hmem
    have hold := hi.disputed d (by simpa [ReviewRecord.disagreement?] using hmem)
    simpa [ReviewRecord.session?] using hold
  · simp only [attach, hi.log]
  · have hperm := Dict.perm_values_concat hrecords hi.annotations record
    simpa [attach, ReviewRecord.annotation?] using hperm
  · simpa [attach, ReviewRecord.disagreement?] using hi.disagreements
  · intro a hmem
    obtain hold | rfl := hof a hmem
    · exact hi.hashable a hold
    · exact hhash

theorem InStep.disagree {records : List Disagreement} {record : Disagreement}
    (hid : (h.service.reviewSessions.get? record.sessionId).isSome)
    (hrecords : h.service.disagreements.get? record.sessionId = some records) :
    InStep ⟨dispute h.service records record, h.replies ++ [.disagreementRecorded record]⟩ := by
  obtain ⟨stored₀, hstored₀⟩ := Option.isSome_iff_exists.1 hid
  have hsessions : (dispute h.service records record).reviewSessions =
      h.service.reviewSessions.set record.sessionId stored₀.disputed := by
    simp only [dispute, hstored₀]
  have hsame : ∀ id, ((dispute h.service records record).reviewSessions.get? id).isSome =
      (h.service.reviewSessions.get? id).isSome := by
    rw [hsessions]
    exact Dict.isSome_get?_set_of_some _ hstored₀
  have hof : ∀ d ∈ History.disagreements
      ⟨dispute h.service records record, h.replies ++ [.disagreementRecorded record]⟩,
      d ∈ h.disagreements ∨ d = record := by
    intro d hmem
    simpa [ReviewRecord.disagreement?] using hmem
  obtain ⟨hids, hstored, hcount⟩ := hi.amended
    ⟨dispute h.service records record, h.replies ++ [.disagreementRecorded record]⟩ hstored₀
    (by simp [ReviewRecord.session?]) hsessions
    (fun _ heq hw => hw.disputed heq hrecords) fun _ _ hne hw => hw.disputed_other hne
  refine ⟨hids, hstored, ?_, ?_, ?_, ?_, ?_, hcount, ?_, ?_, ?_⟩
  · intro id
    rw [hsame]
    exact hi.annotationIds id
  · intro id
    rw [hsame, ← hi.disagreementIds id]
    exact Dict.isSome_get?_set_of_some _ hrecords id
  · intro a hmem
    have hold := hi.annotated a (by simpa [ReviewRecord.annotation?] using hmem)
    simpa [ReviewRecord.session?] using hold
  · intro d hmem
    obtain hold | rfl := hof d hmem
    · simpa [ReviewRecord.session?] using hi.disputed d hold
    · have hids := (hi.ids d.sessionId).1 hid
      simpa [ReviewRecord.session?] using hids
  · simp only [dispute, hi.log]
  · simpa [dispute, ReviewRecord.annotation?] using hi.annotations
  · have hperm := Dict.perm_values_concat hrecords hi.disagreements record
    simpa [dispute, ReviewRecord.disagreement?] using hperm
  · intro a hmem
    exact hi.hashable a (by simpa [ReviewRecord.annotation?] using hmem)

end

/-! ## Runs -/

section
variable {out : Outside}

/-- **A call that meets the condition keeps everything in step.** -/
theorem InStep.step {h : History} (hi : InStep h) {call : Call} (hok : KeepsInStep out h call) :
    InStep (h.step out call) := by
  cases call with
  | create now context =>
    obtain heq | ⟨d, session, rfl, hnew, heq⟩ := createReviewSession_cases out h now context
    · rw [heq]
      exact hi
    · obtain ⟨hcopies, ha, hd, hid⟩ := newSession?_eq_some hnew
      rw [heq]
      exact hi.create (by rw [hid]; exact hok hcopies) ha hd
  | annotate now sessionId annotationData =>
    obtain heq | ⟨id, d, record, records, hid, rfl, hrecord, hrecords, heq⟩ :=
      attachAnnotation_cases out h now sessionId annotationData
    · rw [heq]
      exact hi
    · obtain ⟨hattachable, rfl, htype⟩ := annotationRecord?_eq_some hrecord
      rw [heq]
      apply hi.annotate (storedId?_eq_some hid).2 hrecords
      rw [htype]
      exact hok (by rw [hid]; rfl) hattachable
  | disagree now sessionId disagreement =>
    obtain heq | ⟨id, d, record, records, hid, hrecord, hrecords, heq⟩ :=
      recordDisagreement_cases out h now sessionId disagreement
    · rw [heq]
      exact hi
    · obtain rfl := disagreementRecord?_sessionId hrecord
      rw [heq]
      exact hi.disagree (storedId?_eq_some hid).2 hrecords

/-- The totals of a summary count sessions, or nothing. -/
theorem totalSessions_le (s : ReviewService) :
    (summarizeReviews s).totalSessions ≤ s.reviewSessions.items.length := by
  unfold summarizeReviews
  dsimp only
  split
  · exact Nat.le_refl _
  · exact Nat.zero_le _

/-- A new session under an id in use replaces one: the summary has one session too few. -/
theorem not_appendOnly_of_known {h : History} (hi : InStep h) {session : Session}
    (hknown : h.service.reviewSessions.get? session.sessionId ≠ none) :
    ¬AppendOnly ⟨store h.service session, h.replies ++ [.sessionCreated session]⟩ := by
  intro hp
  obtain ⟨old, hold⟩ := Option.ne_none_iff_exists'.1 hknown
  have htotal := hp.totalSessions
  have hle := totalSessions_le (store h.service session)
  have hlength := Dict.length_set_of_some session hold
  have hcount := hi.sessionCount
  rw [htotal] at hle
  simp only [History.sessions_reply, ReviewRecord.session?, Option.toList_some, List.length_append,
    List.length_singleton, store, hlength] at hle
  omega

/-- An annotation whose type cannot be looked up: the summary is empty. -/
theorem not_appendOnly_of_type {h : History} {records : List Annotation} {record : Annotation}
    (hhash : record.annotationType.hashable = false) :
    ¬AppendOnly ⟨attach h.service records record, h.replies ++ [.annotationAttached record]⟩ := by
  intro hp
  have htotal := hp.totalAnnotations
  have hmem : record ∈ (attach h.service records record).annotations.values.flatten := by
    refine List.mem_flatten.2 ⟨records ++ [record], ?_, by simp⟩
    exact Dict.mem_values.2 ⟨record.sessionId, by simp [attach]⟩
  have hall : (attach h.service records record).annotations.values.flatten.all
      (·.annotationType.hashable) = false := by
    apply List.all_eq_false.2
    exact ⟨record, hmem, by simp [hhash]⟩
  simp only [summarizeReviews, hall, Bool.false_eq_true, ↓reduceIte, History.annotations_reply,
    ReviewRecord.annotation?, Option.toList_some, List.length_append, List.length_singleton] at htotal
  omega

theorem not_appendOnly_step {h : History} (hi : InStep h) {call : Call}
    (hbad : ¬KeepsInStep out h call) : ¬AppendOnly (h.step out call) := by
  cases call with
  | create now context =>
    cases context with
    | other v => exact absurd trivial hbad
    | dict d =>
      simp only [KeepsInStep, Classical.not_imp] at hbad
      obtain ⟨hcopies, hknown⟩ := hbad
      obtain ⟨session, hnew⟩ : ∃ session, newSession? out h.service now d = some session := by
        unfold newSession?
        exact ⟨_, if_pos hcopies⟩
      obtain ⟨-, -, -, hid⟩ := newSession?_eq_some hnew
      have hstep : h.step out (.create now (.dict d)) =
          ⟨store h.service session, h.replies ++ [.sessionCreated session]⟩ := by
        simp [History.step, createReviewSession, hnew]
      rw [hstep]
      exact not_appendOnly_of_known hi (by rw [hid]; exact hknown)
  | annotate now sessionId annotationData =>
    cases annotationData with
    | other v => exact absurd trivial hbad
    | dict d =>
      simp only [KeepsInStep, Classical.not_imp, Bool.not_eq_true] at hbad
      obtain ⟨hid, ⟨hconfidence, hcopies⟩, hhash⟩ := hbad
      obtain ⟨id, hid⟩ := Option.isSome_iff_exists.1 hid
      obtain ⟨confidence, hconfidence⟩ := Option.isSome_iff_exists.1 hconfidence
      obtain ⟨record, hrecord⟩ : ∃ record, annotationRecord? out h.service now id d = some record := by
        unfold annotationRecord?
        rw [hconfidence]
        simp only [Option.bind_eq_bind, Option.bind_some, guard]
        rw [if_pos hcopies]
        exact ⟨_, rfl⟩
      have hrecords : (h.service.annotations.get? id).isSome := by
        rw [hi.annotationIds]
        exact (storedId?_eq_some hid).2
      obtain ⟨records, hrecords⟩ := Option.isSome_iff_exists.1 hrecords
      have hstep : h.step out (.annotate now sessionId (.dict d)) =
          ⟨attach h.service records record, h.replies ++ [.annotationAttached record]⟩ := by
        simp [History.step, attachAnnotation, hid, hrecord, hrecords]
      obtain ⟨-, -, htype⟩ := annotationRecord?_eq_some hrecord
      rw [hstep]
      exact not_appendOnly_of_type (by rw [htype]; exact hhash)
  | disagree now sessionId disagreement => exact absurd trivial hbad

/-- The log is only appended to. -/
theorem reviews_grow (h : History) (call : Call) :
    h.service.allReviews <+: (h.step out call).service.allReviews := by
  cases call with
  | create now context =>
    obtain heq | ⟨d, session, -, -, heq⟩ := createReviewSession_cases out h now context
    · rw [heq]
    · rw [heq]
      exact List.prefix_append _ _
  | annotate now sessionId annotationData =>
    obtain heq | ⟨id, d, record, records, -, -, -, -, heq⟩ :=
      attachAnnotation_cases out h now sessionId annotationData
    · rw [heq]
    · rw [heq]
      exact List.prefix_append _ _
  | disagree now sessionId disagreement =>
    obtain heq | ⟨id, d, record, records, -, -, -, heq⟩ :=
      recordDisagreement_cases out h now sessionId disagreement
    · rw [heq]
    · rw [heq]
      exact List.prefix_append _ _

/-- The log of every later state of a run begins with that of an earlier one. -/
theorem reviews_grow_run (calls bs cs : List Call) (h : bs ++ cs <+: calls) :
    (run (History.step out) {} bs).service.allReviews <+:
      (run (History.step out) {} (bs ++ cs)).service.allReviews := by
  have hgrow : Within (History.step out)
      (fun h call => h.service.allReviews <+: (h.step out call).service.allReviews) {} calls :=
    (within_true {} calls).imp (I := fun _ => True) trivial (fun _ _ _ _ => trivial)
      fun h call _ _ => reviews_grow h call
  exact (related_iff_within (R := fun h h' : History => h.service.allReviews <+: h'.service.allReviews)
    (fun _ => List.prefix_refl _) (fun _ _ _ h₁ h₂ => h₁.trans h₂)).2 hgrow bs cs h

/-- Every state of the run is append-only, and the log only grows. -/
def AppendOnlyRun (out : Outside) (calls : List Call) : Prop :=
  Always (History.step out) AppendOnly {} calls ∧
    ∀ bs cs, bs ++ cs <+: calls → (run (History.step out) {} bs).service.allReviews <+:
      (run (History.step out) {} (bs ++ cs)).service.allReviews

/-- **A run of calls is append-only** exactly when each new session has an id that is not in use and
each annotation that is attached has a type that can be looked up. -/
theorem appendOnlyRun_iff (calls : List Call) :
    AppendOnlyRun out calls ↔ Within (History.step out) (KeepsInStep out) {} calls := by
  have hiff : Always (History.step out) AppendOnly {} calls ↔
      Within (History.step out) (KeepsInStep out) {} calls :=
    always_iff_within inStep_init (fun _ _ hi hok => hi.step hok) (fun _ hi => hi.appendOnly)
      fun _ _ hi hbad => not_appendOnly_step hi hbad
  exact ⟨fun h => hiff.1 h.1, fun h => ⟨hiff.2 h, reviews_grow_run calls⟩⟩

end

/-- The digest of the text of `trade-1` and the clock reading. -/
def oneDigest : Outside where
  text
    | .str s => s
    | _ => ""
  upper := String.toUpper
  float? := Value.num?
  md5? text :=
    if text = "trade-1_2026-01-05T10:00:00+00:00" then some "95521d0025e0383f2c9539a08ea197e3" else none
  copies _ := true

/-- Two sessions for one decision at one reading of the clock. -/
def sameReading : List Call :=
  let now : Clock := ⟨"2026-01-05T10:00:00+00:00", "2026-01-05T10:00:00+00:00"⟩
  let context : Payload := .dict (Dict.ofItems [("correlation_id", .str "trade-1")])
  [.create now context, .create now context]

/-- Both sessions have one id, and the second takes the place of the first. -/
theorem sameReading_replaced : ¬AppendOnlyRun oneDigest sameReading := by
  intro h
  exact absurd h.1.last.totalSessions (by decide +kernel)

end Review
