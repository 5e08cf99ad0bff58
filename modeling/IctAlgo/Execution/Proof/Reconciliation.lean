import IctAlgo.Execution.Proof.Stages

/-!
# The soundness of reconciliation

`Matches`: the broker holds what is expected for a symbol, a position of the expected size with a stop
and a target, or none. The reconciliation looks at the first position only, whatever its symbol, and
neither at its target nor, where none is expected, at whether there is one.

* `wp_reconcile`: the report, for the replies of the broker.
* `requiresManualResolution_iff`: when it asks for a manual resolution.
* `sound_iff`: the positions for which a report that does not ask for one is right.
-/

set_option autoImplicit false

namespace Execution

open Lib

/-! ## Expectations -/

/-- The sizes agree within the tolerance. -/
def SameSize (broker expected : ℚ) : Prop :=
  (Binary64.abs (Binary64.sub (.fin broker) (.fin expected))).le (Binary64.nearest (1 / 1000)) = true

instance (broker expected : ℚ) : Decidable (SameSize broker expected) :=
  inferInstanceAs (Decidable (_ = true))

/-- There is a position for the symbol of that size, with a stop and a target. -/
def Holds (symbol : String) (size : ℚ) (ps : List Position) : Prop :=
  ∃ p ∈ ps, p.symbol = symbol ∧ (∃ broker, p.size = some broker ∧ SameSize broker size) ∧
    p.sl ≠ none ∧ p.tp ≠ none

/-- The positions are as expected: one for the symbol if a size is expected, and none otherwise. -/
def Matches (symbol : String) (expectedSize : Option ℚ) (ps : List Position) : Prop :=
  match expectedSize with
  | some size => Holds symbol size ps
  | none => ∀ p ∈ ps, p.symbol ≠ symbol

/-- The first position has the expected size. -/
def FirstHasSize (expectedSize : Option ℚ) (ps : List Position) : Prop :=
  ∀ size, expectedSize = some size →
    ∃ broker, ps.head?.bind Position.size = some broker ∧ SameSize broker size

/-- The first position has a stop, if one is expected. -/
def FirstHasStop (expectedSl : Option PyFloat) (ps : List Position) : Prop :=
  expectedSl ≠ none → ps.head?.bind Position.sl ≠ none

/-- What is expected is not there only where the first position has not the expected size, or not the
expected stop. -/
def SeenFirst (symbol : String) (expectedSize : Option ℚ) (expectedSl : Option PyFloat)
    (ps : List Position) : Prop :=
  match expectedSize with
  | some size => FirstHasSize (some size) ps → FirstHasStop expectedSl ps → Holds symbol size ps
  | none => FirstHasStop expectedSl ps → ∀ p ∈ ps, p.symbol ≠ symbol

/-! ## The report -/

section
variable {report : ReconciliationReport} {orderId : Option String} {status : Option OrderStatus}
  {ps : List Position} {expectedSize : Option ℚ} {expectedSl expectedTp : Option PyFloat}

/-- What is copied of the positions. -/
theorem fillReport_broker (hsize : report.brokerPositionSize = none) (hsl : report.brokerSl = none) :
    let filled := Engine.fillReport report orderId status ps expectedSize expectedSl expectedTp
    filled.brokerPositionSize = ps.head?.bind Position.size ∧
      filled.brokerSl = ps.head?.bind Position.sl ∧
      filled.requiresManualResolution = report.requiresManualResolution := by
  unfold Engine.fillReport
  cases status <;> cases ps <;> simp [hsize, hsl]

theorem checkSize_brokerSl : (Engine.checkSize report expectedSize).brokerSl = report.brokerSl := by
  unfold Engine.checkSize
  split
  · rfl
  · rfl
  · split <;> rfl

theorem sizesDiffer_eq_false_iff {broker expected : ℚ} :
    Engine.sizesDiffer broker expected = false ↔ SameSize broker expected := by
  apply Binary64.lt_eq_false_iff
  · exact Binary64.nearest_ne_nan _
  · show Binary64.abs (Binary64.nearest (broker + -expected)) ≠ .nan
    have hnan := Binary64.nearest_ne_nan (broker + -expected)
    generalize Binary64.nearest (broker + -expected) = difference at hnan ⊢
    cases difference <;> simp_all [Binary64.abs]

theorem checkSize_iff (h : report.requiresManualResolution = false) :
    (Engine.checkSize report expectedSize).requiresManualResolution = false ↔
      ∀ size, expectedSize = some size →
        ∃ broker, report.brokerPositionSize = some broker ∧ SameSize broker size := by
  unfold Engine.checkSize
  cases expectedSize with
  | none => simp [h]
  | some size =>
    cases hbroker : report.brokerPositionSize with
    | none => simp
    | some broker =>
      simp only [Option.some.injEq, forall_eq', exists_eq_left', ← sizesDiffer_eq_false_iff]
      split
      · rename_i hfar
        simp [hfar]
      · rename_i hnear
        simp [h, hnear]

theorem checkSlTp_iff :
    (Engine.checkSlTp report expectedSl).requiresManualResolution = false ↔
      report.requiresManualResolution = false ∧ (expectedSl ≠ none → report.brokerSl ≠ none) := by
  unfold Engine.checkSlTp
  split
  · rename_i hmissing
    simp [hmissing.1, hmissing.2]
  · rename_i hthere
    rw [iff_self_and]
    intro _ hexpected hnone
    exact hthere ⟨hexpected, hnone⟩

end

namespace Engine

section
variable {e : Engine} {advisoryId : String} {orderId : Option String} {st : Option OrderStatus}
  {ps : List Position} {expectedSize : Option ℚ} {expectedSl expectedTp : Option PyFloat}

/-- **The report**, where the broker answers both queries. -/
theorem wp_reconcile {Q : ReconciliationReport → Prop} {E : String → Engine → Prop}
    (hst : e.world.broker.reconStatus orderId e.world.calls = .ok st)
    (hps : e.world.broker.reconPositions orderId e.world.calls = .ok ps) :
    Exn.wp (reconcile advisoryId orderId expectedSize expectedSl expectedTp) (fun report _ => Q report)
        E e ↔
      Q (checkSlTp (checkSize (fillReport { advisoryId := advisoryId, timestamp := e.world.nextTime }
        orderId st ps expectedSize expectedSl expectedTp) expectedSize) expectedSl) := by
  have hp := getPositions_statusQueried orderId e.world.tick
  simp only [World.tick_broker, World.tick_calls] at hp
  simp only [reconcile, Exn.wp_bind, Exn.wp_modify, wp_now, wp_queryStatus, World.tick_broker,
    World.tick_calls, hst, wp_io, World.getPositions, World.wp_call, hp, hps, Exn.wp_pure]

/-- No manual resolution is asked for exactly when the first position passes. -/
theorem requiresManualResolution_iff {timestamp : ℚ} :
    (checkSlTp (checkSize (fillReport { advisoryId, timestamp } orderId st ps expectedSize expectedSl
        expectedTp) expectedSize) expectedSl).requiresManualResolution = false ↔
      FirstHasSize expectedSize ps ∧ FirstHasStop expectedSl ps := by
  obtain ⟨hsize, hsl, hmanual⟩ := @fillReport_broker { advisoryId, timestamp } orderId st ps
    expectedSize expectedSl expectedTp rfl rfl
  rw [checkSlTp_iff, checkSize_iff hmanual, checkSize_brokerSl, hsize, hsl]
  rfl

end

/-- **A report without a manual resolution is right** exactly for these positions. -/
theorem sound_iff (e : Engine) (advisoryId symbol : String) (orderId : Option String)
    (expectedSize : Option ℚ) (expectedSl expectedTp : Option PyFloat) (st : Option OrderStatus)
    (ps : List Position)
    (hst : e.world.broker.reconStatus orderId e.world.calls = .ok st)
    (hps : e.world.broker.reconPositions orderId e.world.calls = .ok ps) :
    Exn.wp (reconcile advisoryId orderId expectedSize expectedSl expectedTp)
        (fun report _ => report.requiresManualResolution = false → Matches symbol expectedSize ps)
        (fun _ _ => True) e ↔
      SeenFirst symbol expectedSize expectedSl ps := by
  rw [wp_reconcile hst hps, requiresManualResolution_iff]
  unfold Matches SeenFirst
  cases expectedSize with
  | none => simp [FirstHasSize]
  | some size => exact and_imp

/-- A broker with one position that answers all else with errors. -/
def holding (p : Position) : Broker :=
  { Broker.unreachable with getPositions := fun _ => .ok [p] }

/-- A position is left after a timeout, and the report is matched. -/
theorem phantom_matched :
    Exn.wp (reconcile "ADV-1" none) (fun report _ =>
        report.status = .matched ∧ report.requiresManualResolution = false) (fun _ _ => False)
      (.new (holding ⟨"EURUSD", some 1, none, none⟩) .still) ∧
    ¬Exn.wp (reconcile "ADV-1" none) (fun report _ => report.requiresManualResolution = false →
        Matches "EURUSD" none [⟨"EURUSD", some 1, none, none⟩]) (fun _ _ => True)
      (.new (holding ⟨"EURUSD", some 1, none, none⟩) .still) := by
  have hreport {Q : ReconciliationReport → Prop} {E : String → Engine → Prop} := @wp_reconcile
    (.new (holding ⟨"EURUSD", some 1, none, none⟩) .still) "ADV-1" none none _ none none none Q E rfl rfl
  constructor
  · exact hreport.2 ⟨rfl, rfl⟩
  · intro h
    exact hreport.1 h rfl _ List.mem_cons_self rfl

/-- A position of the expected size with a stop and a target is reported right. -/
theorem held_sound :
    Exn.wp (reconcile "ADV-1" none (some 1) (some (.fin 98)) (some (.fin 104)))
      (fun report _ => report.requiresManualResolution = false →
        Matches "EURUSD" (some 1) [⟨"EURUSD", some 1, some 98, some 104⟩]) (fun _ _ => True)
      (.new (holding ⟨"EURUSD", some 1, some 98, some 104⟩) .still) := by
  refine (sound_iff (.new (holding ⟨"EURUSD", some 1, some 98, some 104⟩) .still) "ADV-1" "EURUSD" none
    (some 1) (some (.fin 98)) (some (.fin 104)) none _ rfl rfl).2 fun _ _ => ?_
  exact ⟨_, List.mem_cons_self, rfl, ⟨1, rfl, by decide +kernel⟩, by simp, by simp⟩

end Engine

end Execution
