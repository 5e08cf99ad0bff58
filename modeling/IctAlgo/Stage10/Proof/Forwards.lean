import IctAlgo.Execution.Proof.Protocol
import IctAlgo.Stage10.Proof.Fills

/-!
# The valid trades the engine accepts

`createFrozenSnapshot` turns the stop and the target of an intent into signed distances from its
entry, whatever its direction, and the engine asks for a negative and a positive one. Rounded, the
distances keep their signs, but a price they are turned back into may differ in its last bits.

* `forwards_iff`: of the valid trades that pass the guardrails those are forwarded that are long, have
  an id, are validated before the snapshot expires, and whose prices survive the rounding.
* `survives_of_exact`: they do where no operation rounds.
* `shortIntent_unforwarded`: a valid short trade that is not submitted, and a long one whose target
  moves.
-/

set_option autoImplicit false

namespace Stage10

open Lib Execution

/-- The stop and the target are on the sides of the entry that the direction asks for. -/
def TradeIntent.Geometry (intent : TradeIntent) : Prop :=
  (intent.direction = "LONG" ∧
    intent.proposedSl < intent.proposedEntry ∧ intent.proposedEntry < intent.proposedTp) ∨
  (intent.direction = "SHORT" ∧
    intent.proposedTp < intent.proposedEntry ∧ intent.proposedEntry < intent.proposedSl)

/-- A trade with positive prices, which are floats, and a positive size, valid for its direction. -/
structure TradeIntent.Valid (intent : TradeIntent) : Prop where
  floats : Binary64.Representable intent.proposedEntry ∧
    Binary64.Representable intent.proposedSl ∧ Binary64.Representable intent.proposedTp
  entry : 0 < intent.proposedEntry
  sl : 0 < intent.proposedSl
  tp : 0 < intent.proposedTp
  size : 0 < intent.size
  geometry : intent.Geometry

instance (intent : TradeIntent) : Decidable intent.Geometry :=
  inferInstanceAs (Decidable (_ ∨ _))

/-- A valid trade has the geometry of a long one exactly when it is long. -/
theorem TradeIntent.Valid.long_iff {intent : TradeIntent} (h : intent.Valid) :
    intent.proposedSl < intent.proposedEntry ∧ intent.proposedEntry < intent.proposedTp ↔
      intent.direction = "LONG" := by
  obtain ⟨hdir, hprices⟩ | ⟨hdir, htp, hsl⟩ := h.geometry
  · exact iff_of_true hprices hdir
  · refine iff_of_false (fun hlong => lt_asymm hsl hlong.1) ?_
    rw [hdir]
    decide

/-! ## The offsets of the snapshot -/

section
variable {intent : TradeIntent} {expiration : ℚ}

theorem slOffsetPct_neg_iff (h : intent.Valid) :
    PyFloat.le (.fin 0) (Controller.snapshotOf intent expiration).slOffsetPct = false ↔
      intent.proposedSl < intent.proposedEntry := by
  obtain ⟨hentry, hsl, -⟩ := h.floats
  constructor
  · intro hneg
    by_contra hge
    have hnonneg := Binary64.div_sub_nonneg (not_lt.1 hge) h.entry
    exact absurd (hnonneg.symm.trans hneg) (by decide)
  · intro hlt
    exact Binary64.le_eq_false_of_lt (Binary64.div_sub_neg hsl hentry h.sl.le hlt h.entry le_rfl)

theorem tpOffsetPct_pos_iff (h : intent.Valid) :
    (Controller.snapshotOf intent expiration).tpOffsetPct.le (.fin 0) = false ↔
      intent.proposedEntry < intent.proposedTp := by
  obtain ⟨hentry, -, htp⟩ := h.floats
  constructor
  · intro hpos
    by_contra hge
    have hnonpos := Binary64.div_sub_nonpos (not_lt.1 hge) h.entry
    exact absurd (hnonpos.symm.trans hpos) (by decide)
  · intro hlt
    exact Binary64.le_eq_false_of_lt
      (Binary64.div_sub_pos hentry htp h.entry.le hlt h.entry hlt.le)

end

/-- The price comes back from its distance to the entry, all in binary64. -/
def Survives (entry price : ℚ) : Prop :=
  Engine.atOffset entry (Controller.offsetOf price entry) = .fin price

instance (entry price : ℚ) : Decidable (Survives entry price) := inferInstanceAs (Decidable (_ = _))

/-- A price survives where neither its distance, nor the quotient, nor the factor is rounded. -/
theorem survives_of_exact {entry price : ℚ} (h0 : entry ≠ 0) (hprice : Binary64.Representable price)
    (hdistance : Binary64.Representable (price - entry))
    (hquotient : Binary64.Representable ((price - entry) / entry))
    (hfactor : Binary64.Representable (price / entry)) : Survives entry price := by
  have hoffset : Controller.offsetOf price entry = .fin ((price - entry) / entry) := by
    show Binary64.div (Binary64.nearest (price + -entry)) entry = _
    rw [← sub_eq_add_neg, hdistance.nearest_eq]
    exact hquotient.nearest_eq
  have hone : 1 + (price - entry) / entry = price / entry := by
    rw [sub_div, div_self h0, add_sub_cancel]
  show Binary64.mul (.fin entry) (Binary64.add (.fin 1) (Controller.offsetOf price entry)) = .fin price
  rw [hoffset]
  show Binary64.mul (.fin entry) (Binary64.nearest (1 + (price - entry) / entry)) = .fin price
  rw [hone, hfactor.nearest_eq]
  show Binary64.nearest (entry * (price / entry)) = .fin price
  rw [mul_div_cancel₀ _ h0, hprice.nearest_eq]

theorem calculateSl_iff {entry sl : ℚ} :
    Engine.calculateSl (some entry) (Controller.offsetOf sl entry) = pure (.fin sl) ↔
      Survives entry sl := by
  refine ⟨fun h => ?_, fun h => congrArg pure h⟩
  exact Exn.pure_injective (.new .unreachable .still) h

theorem calculateTp_iff {entry tp : ℚ} :
    Engine.calculateTp (some entry) (Controller.offsetOf tp entry) = pure (.fin tp) ↔
      Survives entry tp := calculateSl_iff

/-! ## The call -/

/-- The order of an `execute`: it is submitted exactly when the call is not blocked. -/
theorem order_iff_of_called {s : FrozenSnapshot} {e e' : Engine} {r : ExecutionResult}
    (h : Engine.Called s e r e') :
    (∃ reply, .submitOrder s.symbol s.positionSize reply ∈
      e'.world.trace.drop e.world.trace.length) ↔ ¬ e.Blocked s := by
  cases h with
  | rejected hblocked htr =>
    rw [htr, List.drop_length]
    exact iff_of_false (fun ⟨_, hmem⟩ => List.not_mem_nil hmem) (not_not_intro hblocked)
  | @ordered hfree reply _ _ htr =>
    rw [htr, List.drop_left]
    exact iff_of_true ⟨reply, List.mem_cons_self⟩ hfree

namespace Controller

/-- The time at which the engine validates the snapshot of an intent. -/
def validatedAt (c : Controller) (intent : TradeIntent) : ℚ :=
  (c.atChecks intent).sentEngine.world.tick.nextTime

/-- The snapshot that is built for an intent. -/
def frozen (c : Controller) (intent : TradeIntent) : FrozenSnapshot :=
  (c.atChecks intent).sentSnapshot intent

/-- The trade of a call, which leaves `c'`, is forwarded: the engine accepts its snapshot, the order
is submitted, and the stop and the target for a fill at the entry are the intent's own. -/
structure Forwards (c : Controller) (call : Call) (c' : Controller) : Prop where
  accepted : Engine.preconditionError (c.validatedAt call.intent) (c.frozen call.intent) = none
  order : ∃ reply,
    .submitOrder call.intent.symbol call.intent.size reply ∈ callsSince c c'
  sl : Engine.calculateSl (some call.intent.proposedEntry)
    (c.frozen call.intent).slOffsetPct = pure (.fin call.intent.proposedSl)
  tp : Engine.calculateTp (some call.intent.proposedEntry)
    (c.frozen call.intent).tpOffsetPct = pure (.fin call.intent.proposedTp)

variable {c : Controller} {call : Call}

/-- A trade the guardrails send is run by the engine. -/
theorem Submitted.ran {c' : Controller} (h : Submitted c call c')
    (hsends : (c.atChecks call.intent).Sends call) :
    ∃ r, (c.atChecks call.intent).Ran call r c' := by
  rcases h with ⟨-, -, -, ⟨hnot, -⟩ | ⟨-, r, hran, -⟩⟩ | ⟨-, -, -, hran, -, -, -⟩
  · exact absurd hsends hnot
  · exact ⟨r, hran⟩
  · exact ⟨_, hran⟩

/-- No switch is on under the key of a symbol that passes the guardrails. -/
theorem isActive_of_passed {intent : TradeIntent} {health : Health}
    (h : c.failedChecks intent health = []) :
    c.engine.killSwitchManager.isActive (some intent.symbol) = false := by
  have hs := status_of_passed h (r := c.checkSymbolKillSwitch intent) (by simp [runGuardrailChecks])
  refine Bool.eq_false_iff.2 fun hon => ?_
  simp [checkSymbolKillSwitch, hon] at hs

/-- The engine accepts the snapshot of a valid intent exactly when it is long, has an id and has
not expired. -/
theorem accepted_iff (hvalid : call.intent.Valid) :
    Engine.preconditionError (c.validatedAt call.intent) (c.frozen call.intent) = none ↔
      call.intent.direction = "LONG" ∧ call.intent.intentId ≠ "" ∧
        c.validatedAt call.intent ≤ (c.atChecks call.intent).engine.world.nextTime + 300 := by
  rw [Engine.preconditionError_eq_none, frozen, sentSnapshot, slOffsetPct_neg_iff hvalid,
    tpOffsetPct_pos_iff hvalid, hvalid.long_iff]
  refine ⟨fun h => ?_, fun h => ?_⟩
  · obtain ⟨hexp, hid, -, hlong⟩ := h
    exact ⟨hlong, hid, hexp⟩
  · obtain ⟨hlong, hid, hexp⟩ := h
    exact ⟨hexp, hid, hvalid.size, hlong⟩

/-- A valid trade that passes the guardrails is forwarded exactly when the engine accepts its
snapshot and both prices survive. -/
theorem forwards_iff_accepted {c' : Controller} (h : Submitted c call c') (hvalid : call.intent.Valid)
    (hpassed : (c.atChecks call.intent).failedChecks call.intent call.health = []) :
    Forwards c call c' ↔
      Engine.preconditionError (c.validatedAt call.intent) (c.frozen call.intent) = none ∧
        Survives call.intent.proposedEntry call.intent.proposedSl ∧
        Survives call.intent.proposedEntry call.intent.proposedTp := by
  constructor
  · intro hf
    exact ⟨hf.accepted, calculateSl_iff.1 hf.sl, calculateTp_iff.1 hf.tp⟩
  · rintro ⟨hacc, hsl, htp⟩
    obtain ⟨r, hran⟩ := h.ran ⟨hpassed, hvalid.entry.ne'⟩
    have hfree : ¬ (c.atChecks call.intent).sentEngine.Blocked (c.frozen call.intent) := by
      rintro (hpre | hon)
      · exact hpre hacc
      · exact absurd ((isActive_of_passed hpassed).symm.trans hon) Bool.false_ne_true
    have horder := (order_iff_of_called hran.called).2 hfree
    rw [sentEngine_trace] at horder
    exact ⟨hacc, horder, calculateSl_iff.2 hsl, calculateTp_iff.2 htp⟩

/-- **A valid trade that passes the guardrails is forwarded exactly when it is long**, has an id, its
snapshot has not expired when the engine looks at it, and its prices survive the rounding. -/
theorem forwards_iff (c : Controller) (call : Call) (hvalid : call.intent.Valid)
    (hpassed : (c.atChecks call.intent).failedChecks call.intent call.health = []) :
    Exn.Ensures (submitTrade call.intent call.health call.polls) (fun _ => Forwards c call) c ↔
      (call.intent.direction = "LONG" ∧ call.intent.intentId ≠ "" ∧
        c.validatedAt call.intent ≤ (c.atChecks call.intent).engine.world.nextTime + 300) ∧
      Survives call.intent.proposedEntry call.intent.proposedSl ∧
      Survives call.intent.proposedEntry call.intent.proposedTp := by
  refine Exn.Ensures.iff ((submitTrade_spec c call).mono fun _ c' h => ?_)
  rw [forwards_iff_accepted h hvalid hpassed, accepted_iff hvalid]

/-- A long trade of EURUSD at 1.1, with the stop 1.078 and the target 1.122. -/
def longIntent : TradeIntent :=
  { eurusdIntent with direction := "LONG", proposedTp := Binary64.literal (1122 / 1000) }

/-- A short one: the target is 1.045, the stop 1.122. -/
def shortIntent : TradeIntent :=
  { eurusdIntent with
    direction := "SHORT", proposedSl := Binary64.literal (1122 / 1000)
    proposedTp := Binary64.literal (1045 / 1000) }

/-- A long one with the target 1.133. -/
def roundedIntent : TradeIntent := { eurusdIntent with direction := "LONG" }

instance (intent : TradeIntent) : Decidable intent.Valid :=
  decidable_of_iff ((Binary64.Representable intent.proposedEntry ∧
      Binary64.Representable intent.proposedSl ∧ Binary64.Representable intent.proposedTp) ∧
    0 < intent.proposedEntry ∧ 0 < intent.proposedSl ∧ 0 < intent.proposedTp ∧ 0 < intent.size ∧
      intent.Geometry)
    ⟨fun ⟨h1, h2, h3, h4, h5, h6⟩ => ⟨h1, h2, h3, h4, h5, h6⟩,
      fun ⟨h1, h2, h3, h4, h5, h6⟩ => ⟨h1, h2, h3, h4, h5, h6⟩⟩

/-- The long one is forwarded. -/
theorem longIntent_forwarded :
    Exn.Ensures (submitTrade longIntent none) (fun _ => Forwards (new {} (fillingEngine 1))
      { intent := longIntent }) (new {} (fillingEngine 1)) :=
  (forwards_iff (new {} (fillingEngine 1)) { intent := longIntent } (by decide +kernel)
    (by decide +kernel)).2 (by decide +kernel)

/-- The short one passes every guardrail with no switch on, and its snapshot is rejected. The target
of the long one is accepted, and computed as the float after 1.133. -/
theorem shortIntent_unforwarded :
    (shortIntent.Valid ∧
      (new {} (fillingEngine 1)).engine.killSwitchManager = .new ∧
      ((new {} (fillingEngine 1)).atChecks shortIntent).failedChecks shortIntent none = [] ∧
      ¬ Exn.Ensures (submitTrade shortIntent none) (fun _ => Forwards (new {} (fillingEngine 1))
        { intent := shortIntent }) (new {} (fillingEngine 1))) ∧
    roundedIntent.Valid ∧
      ((new {} (fillingEngine 1)).atChecks roundedIntent).failedChecks roundedIntent none = [] ∧
      ¬ Exn.Ensures (submitTrade roundedIntent none) (fun _ => Forwards (new {} (fillingEngine 1))
        { intent := roundedIntent }) (new {} (fillingEngine 1)) := by
  refine ⟨⟨by decide +kernel, rfl, by decide +kernel, fun h => ?_⟩, by decide +kernel,
    by decide +kernel, fun h => ?_⟩
  · obtain ⟨_, _, -, hf⟩ := h.exists
    have haccepted := hf.accepted
    revert haccepted
    decide +kernel
  · obtain ⟨_, _, -, hf⟩ := h.exists
    have htarget : Survives roundedIntent.proposedEntry roundedIntent.proposedTp :=
      calculateTp_iff.1 hf.tp
    revert htarget
    decide +kernel

end Controller

end Stage10
