import IctAlgo.Orchestrator.Allowlist

/-!
# The filter of advisory signals

`SignalFilter.apply_policies` of `reasoner_service/orchestration_advanced.py` and
`_apply_signal_filters` of `reasoner_service/orchestrator.py`. A signal is an `AdvisorySignal` of the
reasoning manager, which has attributes and no `get`, or a dictionary.
-/

set_option autoImplicit false

namespace Orchestrator

open Lib

/-! ## Data -/

/-- An `AdvisorySignal`, as far as a filter may look at it. -/
structure AdvisorySignal where
  signalType : Value
  confidence : Value := .null

inductive Signal
  | object (s : AdvisorySignal)
  | dict (d : Fields)

/-- A policy that is not empty. Its `allow_high_confidence` is read and not used. -/
structure SignalPolicy where
  minConfidence : PyFloat := .fin 0
  blockedTypes : List String := []

structure PolicyDecision where
  policyName : String
  decision : String
  reason : Option String := none
  signalsFiltered : ℤ := 0
  timestampMs : ℤ

/-! ## `apply_policies` -/

/-- `signal_type in blocked_signal_types`. -/
def SignalPolicy.blocks (p : SignalPolicy) : Value → Bool
  | .str t => p.blockedTypes.contains t
  | _ => false

/-- Whether a turn of the loop keeps the signal; `none` when it raises. -/
def SignalPolicy.keeps? (p : SignalPolicy) : Signal → Option Bool
  -- an object of this class has no `get`
  | .object _ => none
  | .dict d =>
    let confidence := val d "confidence"
    let signalType := val d "signal_type"
    if !signalType.hashable then none
    else if p.blocks signalType then some false
    else if confidence.isNull then some true
    else confidence.num?.map fun x => !x.lt p.minConfidence

/-- The body of the loop: the signals kept so far and the number of the others. -/
def SignalPolicy.step (p : SignalPolicy) (acc : List Signal × ℕ) (signal : Signal) :
    Option (List Signal × ℕ) :=
  (p.keeps? signal).map fun keep =>
    if keep then (acc.1 ++ [signal], acc.2) else (acc.1, acc.2 + 1)

/-- What the policy store answers to the name of a policy: a policy, none or an empty one, or an
exception. -/
abbrev PolicyLookup := String → Except String (Option SignalPolicy)

/-- `apply_policies`, at the time `now`; all signals when it raises. -/
def applyPolicies (policyStore : Option PolicyLookup) (signals : List Signal) (eventType : String)
    (now : ℤ) : List Signal × List PolicyDecision :=
  match policyStore with
  | none => (signals, [])
  | some getPolicy =>
    match getPolicy ("signal_filter_" ++ eventType) with
    | .error _ => (signals, [])
    | .ok none => (signals, [])
    | .ok (some p) =>
      match signals.foldlM p.step ([], 0) with
      | none => (signals, [])
      | some (filteredSignals, filteredCount) =>
        (filteredSignals, if 0 < filteredCount then [{
          policyName := "signal_filter_" ++ eventType
          decision := "filtered"
          signalsFiltered := filteredCount
          timestampMs := now }] else [])

/-- A decision as a dictionary. -/
def PolicyDecision.toFields (d : PolicyDecision) : Fields :=
  Dict.ofItems
    [("policy", .str d.policyName),
      ("decision", .str d.decision),
      ("reason", d.reason.elim .null .str),
      ("signals_filtered", .int d.signalsFiltered),
      ("timestamp_ms", .int d.timestampMs)]

/-- `_apply_signal_filters`. -/
def applySignalFilters (policyStore : Option PolicyLookup) (signals : List Signal)
    (eventType : String) (now : ℤ) : List Signal × List Fields :=
  let (filteredSignals, policyDecisions) := applyPolicies policyStore signals eventType now
  (filteredSignals, policyDecisions.map PolicyDecision.toFields)

end Orchestrator
