import IctAlgo.Execution.Proof.Stages

/-!
# The last log entry of an execution

`execute` writes its `execution_result` entry behind the `try` block, where a rejected call does not
come: both rejections log a `kill_switch_abort` and return.

* `order_logs`: an order that was submitted logs what happens to it, and no outcome.
* `precheck_logs`: a rejected call has logged its rejection.
* `execute_logs`: one outcome a call, the last entry, a rejection for a blocked call and the returned
  result for any other.
-/

set_option autoImplicit false

namespace Execution

open Lib

/-! ## Outcomes -/

/-- The entry says how the call ends. -/
def LogEntry.isOutcome : LogEntry → Bool
  | .executionResult .. => true
  | .killSwitchAbort .. => true
  | _ => false

/-- A call for `symbol` that is rejected logs `reason` and returns `error`: the same failed
precondition, or two different texts for a kill switch. -/
inductive RejectedFor (symbol : String) : AbortReason → ErrorMessage → Prop
  | precondition (err : PreconditionError) : RejectedFor symbol (.precondition err) (.precondition err)
  | killSwitch : RejectedFor symbol .activeAtSubmission (.killSwitchActive symbol)

namespace Engine

/-- Entries were added to the log, none of them an outcome. -/
abbrev LogsProgress : Engine → Engine → Prop :=
  Exn.Appends Engine.executionLogs (·.isOutcome = false)

/-- Entries were added to the log, and `last` is the only outcome among them and the last of them. -/
def Closed (last : LogEntry) (e e' : Engine) : Prop :=
  ∃ entries, e'.executionLogs = e.executionLogs ++ entries ++ [last] ∧
    ∀ x ∈ entries, x.isOutcome = false

/-- The log of a call that returned `r` ends with the one entry for it. -/
def LoggedResult (e : Engine) (r : ExecutionResult) (e' : Engine) : Prop :=
  ∃ t, Closed (.executionResult t r) e e'

/-- The log of a call that returned `r` ends with the one rejection that `r` reports. -/
def LoggedRejection (e : Engine) (s : FrozenSnapshot) (r : ExecutionResult) (e' : Engine) : Prop :=
  r.status = .rejected ∧ ∃ t state reason error, r.errorMessage = some error ∧
    RejectedFor s.symbol reason error ∧ Closed (.killSwitchAbort t s.advisoryId state reason) e e'

section
variable {e e' e'' : Engine} {last : LogEntry}

theorem Closed.trans (h : LogsProgress e e') (h' : Closed last e' e'') : Closed last e e'' := by
  obtain ⟨added, hlog, hadded⟩ := h
  obtain ⟨entries, hlog', hentries⟩ := h'
  refine ⟨added ++ entries, by rw [hlog', hlog, List.append_assoc e.executionLogs], fun x hx => ?_⟩
  rcases List.mem_append.1 hx with hx | hx
  · exact hadded x hx
  · exact hentries x hx

/-- An entry that closes the log behind what was added before. -/
theorem Closed.of_progress (h : LogsProgress e e')
    (hlog : e''.executionLogs = e'.executionLogs ++ [last]) : Closed last e e'' :=
  .trans h ⟨[], by rw [hlog, List.append_nil], fun _ h => by cases h⟩

theorem Closed.unique {last' : LogEntry} (h : Closed last e e') (h' : Closed last' e e') :
    last = last' := by
  obtain ⟨entries, hlog, -⟩ := h
  obtain ⟨entries', hlog', -⟩ := h'
  have hlast := congrArg List.getLast? (hlog.symm.trans hlog')
  simpa only [List.getLast?_concat, Option.some.injEq] using hlast

theorem LoggedRejection.not_result {s : FrozenSnapshot} {r r' : ExecutionResult}
    (h : LoggedRejection e s r e') : ¬ LoggedResult e r' e' := by
  intro h'
  obtain ⟨-, t, state, reason, -, -, -, hclosed⟩ := h
  obtain ⟨t', hclosed'⟩ := h'
  cases hclosed.unique hclosed'

end

/-! ## The stages -/

/-- The log entries of `m`, if any, are not outcomes. -/
abbrev Adds {α : Type} (m : EngineM α) : Prop := Exn.Keeps LogsProgress m

namespace Adds

open Exn.Keeps

variable {α β : Type} {orderId : Option String}

/-- The rule of sequences, at this relation. -/
theorem andThen {m : EngineM α} {f : α → EngineM β} (hm : Adds m) (hf : ∀ a, Adds (f a)) :
    Adds (m >>= f) := bind hm hf

theorem of_io (m : WorldM α) : Adds (io m) := by
  intro e
  rw [wp_io]
  unfold Exn.wp
  split
  · exact .silent rfl
  · exact .silent rfl

theorem of_log {entry : ℚ → LogEntry} (h : ∀ t, (entry t).isOutcome = false) : Adds (log entry) :=
  andThen (of_io _) fun t => of_modify fun _ => .single rfl (h t)

theorem of_setResult (f : ExecutionResult → ExecutionResult) : Adds (setResult f) :=
  of_modify fun _ => .silent rfl

theorem of_isExpired : Adds isExpired := by
  refine andThen of_get fun e => ?_
  split
  · exact of_pure _
  · exact andThen (of_io _) fun _ => andThen (of_modify fun _ => .silent rfl) fun _ => of_pure _

theorem of_elapsedSeconds : Adds elapsedSeconds := by
  refine andThen of_get fun e => ?_
  split
  · exact of_pure _
  · exact andThen (of_io _) fun _ => of_pure _

theorem of_priceAtOffset (fillPrice : Option ℚ) (offsetPct : PyFloat) :
    Adds (priceAtOffset fillPrice offsetPct) := by
  cases fillPrice with
  | none => exact of_throw _
  | some p => exact of_pure _

theorem of_slippage (fillPrice : Option ℚ) (referencePrice : ℚ) :
    Adds (slippage fillPrice referencePrice) := by
  cases fillPrice with
  | none => exact of_throw _
  | some p =>
    simp only [slippage]
    split
    · exact of_throw _
    · exact of_pure _

theorem of_queryStatus : Adds (queryStatus orderId) := by
  unfold queryStatus
  split
  · exact andThen (of_io _) fun _ => of_pure _
  · exact of_pure _

theorem of_reconcile (advisoryId : String) (expectedSize : Option ℚ)
    (expectedSl expectedTp : Option PyFloat) :
    Adds (reconcile advisoryId orderId expectedSize expectedSl expectedTp) := by
  refine andThen (of_modify fun _ => .silent rfl) fun _ => ?_
  refine andThen (of_io _) fun _ => andThen of_queryStatus fun _ => ?_
  refine andThen (of_io _) fun _ => ?_
  exact andThen (of_modify fun _ => .silent rfl) fun _ => of_pure _

theorem of_waitForFill (polls : ℕ) : Adds (waitForFill orderId polls) := by
  induction polls with
  | zero => exact of_pure _
  | succ polls ih =>
    refine andThen of_isExpired fun expired => ?_
    split
    · exact of_pure _
    · refine andThen (of_io _) fun st => ?_
      split
      · exact of_pure _
      · exact andThen (of_io _) fun _ => ih

theorem of_submit (s : FrozenSnapshot) : Adds (submit s) := by
  refine andThen (andThen (of_io _) fun _ => of_modify fun _ => .silent rfl) fun _ => ?_
  refine andThen (of_io _) fun _ => andThen (of_io _) fun _ => andThen (of_setResult _) fun _ => ?_
  exact andThen (of_log fun _ => rfl) fun _ => of_pure _

theorem of_onTimeout (s : FrozenSnapshot) : Adds (onTimeout s orderId) := by
  refine andThen (of_setResult _) fun _ => andThen (of_setResult _) fun _ => ?_
  refine andThen of_elapsedSeconds fun _ => andThen (of_log fun _ => rfl) fun _ => ?_
  -- the cancellation, whose exception is swallowed
  refine andThen (catching (andThen (of_io _) fun _ => of_pure _) fun _ => of_pure _) fun _ => ?_
  exact andThen (of_reconcile _ _ _ _) fun _ => of_setResult _

theorem of_onFill (s : FrozenSnapshot) (fill : FillInfo) : Adds (onFill s orderId fill) := by
  refine andThen (of_priceAtOffset _ _) fun _ => andThen (of_priceAtOffset _ _) fun _ => ?_
  refine andThen (of_slippage _ _) fun _ => andThen (of_io _) fun _ => ?_
  refine andThen (of_setResult _) fun _ => andThen of_isExpired fun _ => ?_
  refine andThen (of_setResult _) fun _ => andThen (of_setResult _) fun _ => ?_
  exact andThen (of_log fun _ => rfl) fun _ => andThen (of_reconcile _ _ _ _) fun _ => of_setResult _

/-- Steps 6 and 7. -/
theorem of_conclude (s : FrozenSnapshot) : Adds (do
    let m := (← get).killSwitchManager
    setResult fun r => { r with killSwitchState := m.getState (some s.symbol) }
    let elapsed ← elapsedSeconds
    setResult fun r => { r with totalDurationSeconds := some elapsed }) := by
  refine andThen of_get fun _ => andThen (of_setResult _) fun _ => ?_
  exact andThen of_elapsedSeconds fun _ => of_setResult _

theorem of_settleOrder (s : FrozenSnapshot) (polls : ℕ) : Adds (settleOrder s orderId polls) := by
  refine andThen (of_waitForFill polls) fun fillInfo => andThen of_isExpired fun expired => ?_
  cases fillInfo with
  | none =>
    cases expired with
    | true => exact andThen (of_onTimeout s) fun _ => of_conclude s
    | false => exact of_conclude s
  | some fill => exact andThen (of_onFill s fill) fun _ => of_conclude s

end Adds

/-! ## The call -/

variable {e : Engine} {s : FrozenSnapshot}

/-- A rejected call has logged its rejection, and another one no outcome so far. -/
theorem precheck_logs (e : Engine) (s : FrozenSnapshot) :
    Exn.Ensures (precheck s) (fun rejected e' =>
      if rejected then LoggedRejection e s e'.result e' else LogsProgress e e') e := by
  simp only [precheck, Exn.Ensures, Exn.wp_bind, Exn.wp_get, wp_log, wp_validatePreconditions]
  cases hp : preconditionError e.world.tick.nextTime s with
  | none =>
    simp only [Exn.wp_bind, Exn.wp_get]
    split
    · simp only [Exn.wp_bind, Exn.wp_pure, wp_setResult, wp_log, ↓reduceIte]
      exact ⟨rfl, _, _, .activeAtSubmission, _, rfl, .killSwitch, [_], rfl,
        by simp [LogEntry.isOutcome]⟩
    · exact .single rfl rfl
  | some err =>
    simp only [Exn.wp_bind, Exn.wp_pure, wp_setResult, wp_log, ↓reduceIte]
    exact ⟨rfl, _, _, .precondition err, _, rfl, .precondition err, [_], rfl,
      by simp [LogEntry.isOutcome]⟩

/-- The order of a call that is not blocked. -/
theorem order_logs (e : Engine) (s : FrozenSnapshot) (polls : ℕ) :
    Exn.wp (do let orderId ← submit s; settleOrder s orderId polls; pure false)
      (fun returned e' => returned = false ∧ LogsProgress e e') (fun _ => LogsProgress e) e := by
  have hadds : Adds (do let orderId ← submit s; settleOrder s orderId polls) :=
    Exn.Keeps.bind (Adds.of_submit s) fun _ => Adds.of_settleOrder s polls
  have horder := hadds e
  simp only [Exn.wp_bind, Exn.wp_pure] at horder ⊢
  refine Exn.wp_mono horder (fun orderId e₁ h => ?_) fun _ _ => id
  exact Exn.wp_mono h (fun _ _ h => ⟨trivial, h⟩) fun _ _ => id

/-- A blocked call ends with its rejection. -/
theorem blocked_logs (hblocked : Blocked e s) (polls : ℕ) :
    Exn.Ensures (execute s polls) (LoggedRejection e s) e := by
  rw [Exn.Ensures, wp_execute, executeBody, Exn.wp_bind]
  refine Exn.wp_mono ((precheck_spec _ s).and (precheck_logs _ s)) (fun rejected e₁ h => ?_)
    fun _ _ => False.elim
  obtain ⟨hspec, hlogs⟩ := h
  have hrejected : rejected = true := hspec.iff.2 hblocked
  rwa [hrejected, if_pos rfl] at hlogs ⊢

/-- Any other call ends with the result it returns. -/
theorem free_logs (hfree : ¬ Blocked e s) (polls : ℕ) :
    Exn.Ensures (execute s polls) (LoggedResult e) e := by
  rw [Exn.Ensures, wp_execute, executeBody, Exn.wp_bind]
  refine Exn.wp_mono ((precheck_spec _ s).and (precheck_logs _ s)) (fun rejected e₁ h => ?_)
    fun _ _ => False.elim
  obtain ⟨hspec, hlogs⟩ := h
  have hpassed : rejected = false := Bool.eq_false_iff.2 fun h => hfree (hspec.iff.1 h)
  simp only [hpassed, Bool.false_eq_true, ↓reduceIte] at hlogs ⊢
  have hsofar {e₂ : Engine} (h : LogsProgress e₁ e₂) : LogsProgress e e₂ := trans_of _ hlogs h
  refine Exn.wp_mono (order_logs e₁ s polls) (fun returned e₂ h => ?_) fun err e₂ h => ?_
  · obtain ⟨rfl, h⟩ := h
    exact ⟨_, .of_progress (hsofar h) rfl⟩
  · exact ⟨_, .of_progress (hsofar h) rfl⟩

end Engine

end Execution
