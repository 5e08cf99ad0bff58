import IctAlgo.Execution.Proof.Protocol
import IctAlgo.Stage10.Controller

/-!
# What a `submit_trade` call does

`submitTrade_spec`: the call returns, appends one audit entry, and either leaves the counters as the
daily reset left them (`Submitted.kept`) or counts one trade the engine executed
(`Submitted.counted`). `atChecks` is the controller the guardrails look at.
-/

set_option autoImplicit false

namespace Stage10.Controller

open Lib Execution

section
variable {c : Controller} {E : String → Controller → Prop}

@[simp] theorem wp_withEngine {α : Type} (m : EngineM α) {Q : α → Controller → Prop} :
    Exn.wp (withEngine m) Q E c ↔
      Exn.wp m (fun a e => Q a { c with engine := e }) (fun err e => E err { c with engine := e })
        c.engine := Exn.wp_zoom ..

@[simp] theorem wp_setAudit (f : AuditLog → AuditLog) {Q : Unit → Controller → Prop} :
    Exn.wp (setAudit f) Q E c ↔ Q () { c with audit := f c.audit } := Iff.rfl

@[simp] theorem wp_appendAudit {Q : Unit → Controller → Prop} :
    Exn.wp appendAudit Q E c ↔ Q () { c with auditLogs := c.auditLogs ++ [c.audit] } := Iff.rfl

end

/-- The controller when the audit entry is created. -/
def opened (c : Controller) (intent : TradeIntent) : Controller := { c with
  engine := { c.engine with world := c.engine.world.tick }
  audit := {
    timestamp := c.engine.world.nextTime, intentId := intent.intentId
    symbol := intent.symbol, direction := intent.direction } }

/-- The daily reset, as a function. -/
def refresh (c : Controller) : Controller :=
  let w := c.engine.world
  if isStale c.dailyCounters w.nextTime then { c with
    engine := { c.engine with world := w.tick.tick }
    dailyCounters := reset c.dailyCounters w.tick.nextTime }
  else { c with engine := { c.engine with world := w.tick } }

/-- The controller the guardrails look at. -/
def atChecks (c : Controller) (intent : TradeIntent) : Controller := (c.opened intent).refresh

theorem wp_dailyReset {c : Controller} {Q : Unit → Controller → Prop}
    {E : String → Controller → Prop} : Exn.wp dailyReset Q E c ↔ Q () c.refresh := by
  simp only [dailyReset, Exn.wp_bind, wp_withEngine, Engine.wp_now, Exn.wp_get, Exn.wp_ite,
    Exn.wp_modify, Exn.wp_pure, refresh]
  split <;> rfl

theorem refresh_config (c : Controller) : c.refresh.config = c.config := by
  simp only [refresh]
  split <;> rfl

theorem refresh_auditLogs (c : Controller) : c.refresh.auditLogs = c.auditLogs := by
  simp only [refresh]
  split <;> rfl

/-- What `trackLoss` adds to the total, if anything; nothing when it raises. -/
def lossOf (r : ExecutionResult) : Option PyFloat :=
  match r.finalFillPrice, r.finalSl, r.finalPositionSize with
  | some p, some sl, some size => if p = 0 ∨ sl = .fin 0 then none else some (lossAt p sl size)
  | _, _, _ => none

/-- The counters with one more executed trade. -/
def counted (counters : DailyCounters) (symbol : String) (r : ExecutionResult) : DailyCounters where
  tradesExecuted := counters.tradesExecuted + 1
  totalLossUsd := (lossOf r).elim counters.totalLossUsd (Binary64.add counters.totalLossUsd)
  perSymbolTrades :=
    counters.perSymbolTrades.set symbol (counters.perSymbolTrades.getD symbol 0 + 1)
  lastReset := counters.lastReset

/-- `countTrade` counts the trade also when it raises. -/
theorem wp_countTrade (c : Controller) (symbol : String) (r : ExecutionResult) :
    Exn.wp (countTrade symbol r)
      (fun _ c' => c' = { c with dailyCounters := counted c.dailyCounters symbol r })
      (fun _ c' => c' = { c with dailyCounters := counted c.dailyCounters symbol r }) c := by
  simp only [countTrade, Exn.wp_bind, Exn.wp_modify, trackLoss, counted, lossOf]
  rcases r.finalFillPrice with _ | p
  · simp
  rcases r.finalSl with _ | sl
  · simp
  by_cases h : p = 0 ∨ sl = .fin 0
  · rcases r.finalPositionSize with _ | size <;> simp [h]
  · rcases r.finalPositionSize with _ | size <;> simp [h]

/-- The snapshot `forward` sends to the engine. -/
def sentSnapshot (c : Controller) (intent : TradeIntent) : FrozenSnapshot :=
  snapshotOf intent (c.engine.world.nextTime + 300)

/-- The engine that executes it. -/
def sentEngine (c : Controller) : Engine := { c.engine with world := c.engine.world.tick }

/-- The controller `c`, at its guardrails, sends the trade to the engine. -/
def Sends (c : Controller) (call : Call) : Prop :=
  c.failedChecks call.intent call.health = [] ∧ call.intent.proposedEntry ≠ 0

instance (c : Controller) (call : Call) : Decidable (c.Sends call) :=
  inferInstanceAs (Decidable (_ ∧ _))

/-- The engine ended the trade with the result `r`. -/
def Ran (c : Controller) (call : Call) (r : ExecutionResult) (c' : Controller) : Prop :=
  Engine.Executed call.polls c.sentEngine (c.sentSnapshot call.intent) r c'.engine ∧
    Engine.Called (c.sentSnapshot call.intent) c.sentEngine r c'.engine

theorem Ran.executed {c c' : Controller} {call : Call} {r : ExecutionResult} (h : c.Ran call r c') :
    Engine.Executed call.polls c.sentEngine (c.sentSnapshot call.intent) r c'.engine := h.1

theorem Ran.called {c c' : Controller} {call : Call} {r : ExecutionResult} (h : c.Ran call r c') :
    Engine.Called (c.sentSnapshot call.intent) c.sentEngine r c'.engine := h.2

/-- The trade of this call was not sent, or not executed. -/
def NotExecuted (c : Controller) (call : Call) (c' : Controller) : Prop :=
  (¬ c.Sends call ∧ c'.engine.world.trace = c.engine.world.trace) ∨
    (c.Sends call ∧ ∃ r, c.Ran call r c' ∧ isExecuted r.status = false)

/-- What the `try` block makes of the controller `c` the guardrails look at; `returned` is false when
it raises, and the audit entry is then still to be appended. -/
inductive Processed (c : Controller) (call : Call) (returned : Bool) (c' : Controller) : Prop
  | kept (config : c'.config = c.config)
      (auditLogs : c'.auditLogs = if returned then c.auditLogs ++ [c'.audit] else c.auditLogs)
      (counters : c'.dailyCounters = c.dailyCounters) (notExecuted : c.NotExecuted call c')
  | counted {r : ExecutionResult} (config : c'.config = c.config)
      (auditLogs : c'.auditLogs = if returned then c.auditLogs ++ [c'.audit] else c.auditLogs)
      (sends : c.Sends call) (ran : c.Ran call r c') (result : c'.audit.executionResult = some r)
      (executed : isExecuted r.status = true)
      (counters : c'.dailyCounters = Controller.counted c.dailyCounters call.intent.symbol r)

/-- The entry under construction does not matter. -/
theorem Processed.of_audit {c c' : Controller} {call : Call} {returned : Bool} {a : AuditLog}
    (h : Processed { c with audit := a } call returned c') : Processed c call returned c' := by
  cases h with
  | kept config auditLogs counters notExecuted => exact .kept config auditLogs counters notExecuted
  | counted config auditLogs sends ran result executed counters =>
    exact .counted config auditLogs sends ran result executed counters

theorem forward_spec (c : Controller) (call : Call)
    (hpassed : c.failedChecks call.intent call.health = []) :
    Exn.wp (forward call.intent call.polls) (fun _ => Processed c call true)
      (fun _ => Processed c call false) c := by
  simp only [forward, createFrozenSnapshot, Exn.wp_bind, Exn.wp_ite, Exn.wp_throw, wp_withEngine,
    Engine.wp_now, Exn.wp_pure]
  by_cases h0 : call.intent.proposedEntry = 0
  · simp only [h0, ↓reduceIte]
    exact .kept rfl rfl rfl (Or.inl ⟨fun hs => hs.2 h0, rfl⟩)
  · have hsends : c.Sends call := ⟨hpassed, h0⟩
    simp only [h0, ↓reduceIte]
    have hspec := (Engine.execute_spec c.sentEngine (c.sentSnapshot call.intent) call.polls).and
      (Engine.execute_calls c.sentEngine (c.sentSnapshot call.intent) call.polls)
    refine Exn.wp_mono hspec (fun r e' h => ?_) fun _ _ => False.elim
    have hran (c' : Controller) (he : c'.engine = e') : c.Ran call r c' :=
      ⟨he ▸ h.1, he ▸ h.2⟩
    simp only [wp_setAudit, wp_appendAudit]
    by_cases hx : isExecuted r.status = true
    · simp only [hx, ↓reduceIte]
      refine Exn.wp_mono (wp_countTrade _ call.intent.symbol r) ?_ ?_
      · rintro - c' rfl
        exact .counted rfl rfl hsends (hran _ rfl) rfl hx rfl
      · rintro - c' rfl
        exact .counted rfl rfl hsends (hran _ rfl) rfl hx rfl
    · simp only [hx]
      exact .kept rfl rfl rfl (Or.inr ⟨hsends, r, hran _ rfl, Bool.eq_false_iff.2 hx⟩)

theorem submitBody_spec (c : Controller) (call : Call) :
    Exn.wp (submitBody call.intent call.health call.polls) (fun _ => Processed c.refresh call true)
      (fun _ => Processed c.refresh call false) c := by
  simp only [submitBody, Exn.wp_bind, wp_dailyReset, Exn.wp_get, wp_setAudit, Exn.wp_ite]
  split
  · rename_i hpassed
    exact Exn.wp_mono (forward_spec _ call hpassed) (fun _ _ h => h.of_audit)
      fun _ _ h => h.of_audit
  · rename_i hfailed
    exact .kept rfl rfl rfl (Or.inl ⟨fun hs => hfailed hs.1, rfl⟩)

/-- What a call makes of the controller `c`. -/
inductive Submitted (c : Controller) (call : Call) (c' : Controller) : Prop
  | kept {entry : AuditLog} (config : c'.config = c.config)
      (auditLogs : c'.auditLogs = c.auditLogs ++ [entry])
      (counters : c'.dailyCounters = (c.atChecks call.intent).dailyCounters)
      (notExecuted : (c.atChecks call.intent).NotExecuted call c')
  | counted {entry : AuditLog} {r : ExecutionResult} (config : c'.config = c.config)
      (auditLogs : c'.auditLogs = c.auditLogs ++ [entry])
      (sends : (c.atChecks call.intent).Sends call)
      (ran : (c.atChecks call.intent).Ran call r c') (result : entry.executionResult = some r)
      (executed : isExecuted r.status = true)
      (counters : c'.dailyCounters =
        Controller.counted (c.atChecks call.intent).dailyCounters call.intent.symbol r)

/-- **Every call returns and appends one audit entry**; the trade counters change, apart from the
daily reset, for an executed trade only. -/
theorem submitTrade_spec (c : Controller) (call : Call) :
    Exn.Ensures (submitTrade call.intent call.health call.polls) (fun _ => Submitted c call) c := by
  have hconfig : (c.atChecks call.intent).config = c.config := refresh_config _
  have hlogs : (c.atChecks call.intent).auditLogs = c.auditLogs := refresh_auditLogs _
  simp only [submitTrade, Exn.Ensures, Exn.wp_bind, wp_withEngine, Engine.wp_now, wp_setAudit,
    Exn.wp_tryCatch, wp_appendAudit, Exn.wp_pure]
  refine Exn.wp_mono (submitBody_spec (c.opened call.intent) call) ?_ ?_
  · rintro - c' (⟨hc, ha, hd, hn⟩ | ⟨hc, ha, hsends, hran, hres, hx, hd⟩)
    · exact .kept (hc.trans hconfig) (ha.trans (by rw [← hlogs]; rfl)) hd hn
    · exact .counted (hc.trans hconfig) (ha.trans (by rw [← hlogs]; rfl)) hsends hran hres hx hd
  · intro err c' h
    obtain ⟨hc, ha, hd, hn⟩ | ⟨hc, ha, hsends, hran, hres, hx, hd⟩ := h
    · exact .kept (hc.trans hconfig) (congrArg (· ++ [_]) (ha.trans hlogs)) hd hn
    · exact .counted (hc.trans hconfig) (congrArg (· ++ [_]) (ha.trans hlogs)) hsends hran hres hx hd

theorem Submitted.config {c c' : Controller} {call : Call} (h : Submitted c call c') :
    c'.config = c.config := by
  cases h with
  | kept hc => exact hc
  | counted hc => exact hc

theorem submitted_step (c : Controller) (call : Call) : Submitted c call (c.step call) := by
  obtain ⟨-, h⟩ := (submitTrade_spec c call).exec
  exact h

end Stage10.Controller
