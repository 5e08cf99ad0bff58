import Mathlib.Algebra.Order.Ring.Rat
import IctAlgo.Lib.Exn

/-!
# The broker and the clock

The environment of `reasoner_service/execution_engine.py`. A `Broker` answers the `n`-th call of
the run by its own table, so it covers every sequence of replies, raised ones included. A `Clock`
says how much time passes before each reading, and `sleep` adds what it sleeps; a clock that is
never set back is `Monotone`. `World` is both with the position of the run in them and the calls
made so far.
-/

set_option autoImplicit false

namespace Execution

open Lib

/-- The `state` of an order; `other` is any string the engine does not know. -/
inductive OrderState
  | submitted | pending | filled | cancelled | failed | other (s : String)
  deriving DecidableEq, Repr

/-- The answer of `get_order_status`, as the engine reads it (`None` for a missing key). -/
structure OrderStatus where
  state : OrderState
  fillPrice : Option ℚ := none
  filledSize : Option ℚ := none
  deriving DecidableEq

/-- An item of `get_positions`. -/
structure Position where
  symbol : String
  size : Option ℚ := none
  sl : Option ℚ := none
  tp : Option ℚ := none
  deriving DecidableEq

/-- The replies of a broker: what the `n`-th call of the run gets if it is of this kind. -/
structure Broker where
  submitOrder : ℕ → Except String (Option String)
  getOrderStatus : ℕ → Except String OrderStatus
  cancelOrder : ℕ → Except String Bool
  getPositions : ℕ → Except String (List Position)

/-- The time that passes before the `n`-th reading of the clock; negative when it is set back. -/
structure Clock where
  elapse : ℕ → ℚ

/-- The readings never go back. -/
def Clock.Monotone (c : Clock) : Prop := ∀ n, 0 ≤ c.elapse n

/-- A broker that never answers. -/
def Broker.unreachable : Broker where
  submitOrder _ := .error "unreachable"
  getOrderStatus _ := .error "unreachable"
  cancelOrder _ := .error "unreachable"
  getPositions _ := .error "unreachable"

/-- A broker that takes every order and fills it at once. -/
def Broker.filling (price size : ℚ) : Broker where
  submitOrder _ := .ok (some "order-1")
  getOrderStatus _ := .ok ⟨.filled, some price, some size⟩
  cancelOrder _ := .ok false
  getPositions _ := .ok []

/-- A clock that moves in sleeps only. -/
def Clock.still : Clock := ⟨fun _ => 0⟩

theorem Clock.still_monotone : Clock.still.Monotone := fun _ => le_refl 0

/-- A call of the broker with its reply. -/
inductive BrokerEvent
  | submitOrder (symbol : String) (quantity : ℚ) (reply : Except String (Option String))
  | getOrderStatus (orderId : Option String) (reply : Except String OrderStatus)
  | cancelOrder (orderId : Option String) (reply : Except String Bool)
  | getPositions (reply : Except String (List Position))

structure World where
  broker : Broker
  clock : Clock
  time : ℚ := 0
  reads : ℕ := 0
  calls : ℕ := 0
  trace : List BrokerEvent := []

abbrev WorldM := EStateM String World

namespace World

/-- The time the next reading of the clock gives. -/
def nextTime (w : World) : ℚ := w.time + w.clock.elapse w.reads

/-- The world after a reading. -/
def tick (w : World) : World := { w with time := w.nextTime, reads := w.reads + 1 }

theorem time_le_nextTime {w : World} (h : w.clock.Monotone) : w.time ≤ w.nextTime :=
  le_add_of_nonneg_right (h _)

@[simp] theorem tick_broker (w : World) : w.tick.broker = w.broker := rfl

@[simp] theorem tick_clock (w : World) : w.tick.clock = w.clock := rfl

@[simp] theorem tick_calls (w : World) : w.tick.calls = w.calls := rfl

@[simp] theorem tick_trace (w : World) : w.tick.trace = w.trace := rfl

/-- The world after a broker call. -/
def called (w : World) (ev : BrokerEvent) : World :=
  { w with calls := w.calls + 1, trace := w.trace ++ [ev] }

@[simp] theorem called_broker (w : World) (ev : BrokerEvent) : (w.called ev).broker = w.broker := rfl

@[simp] theorem called_clock (w : World) (ev : BrokerEvent) : (w.called ev).clock = w.clock := rfl

@[simp] theorem called_calls (w : World) (ev : BrokerEvent) :
    (w.called ev).calls = w.calls + 1 := rfl

/-- `datetime.now(timezone.utc)`. -/
def now : WorldM ℚ := modifyGet fun w => (w.nextTime, w.tick)

/-- `time.sleep(d)`. -/
def sleep (d : ℚ) : WorldM Unit := modify fun w => { w with time := w.time + d }

/-- A broker call: it takes the next reply and may raise it. -/
def call {α : Type} (reply : Broker → ℕ → Except String α) (event : Except String α → BrokerEvent) :
    WorldM α := do
  let w ← get
  set (w.called (event (reply w.broker w.calls)))
  match reply w.broker w.calls with
  | .ok a => pure a
  | .error err => throw err

def submitOrder (symbol : String) (quantity : ℚ) : WorldM (Option String) :=
  call Broker.submitOrder (.submitOrder symbol quantity)

def getOrderStatus (orderId : Option String) : WorldM OrderStatus :=
  call Broker.getOrderStatus (.getOrderStatus orderId)

def cancelOrder (orderId : Option String) : WorldM Bool :=
  call Broker.cancelOrder (.cancelOrder orderId)

def getPositions : WorldM (List Position) := call Broker.getPositions .getPositions

section
variable {α : Type} {w : World} {E : String → World → Prop}

@[simp] theorem wp_now {Q : ℚ → World → Prop} : Exn.wp now Q E w ↔ Q w.nextTime w.tick := Iff.rfl

@[simp] theorem wp_sleep (d : ℚ) {Q : Unit → World → Prop} :
    Exn.wp (sleep d) Q E w ↔ Q () { w with time := w.time + d } := Iff.rfl

@[simp] theorem wp_call {reply : Broker → ℕ → Except String α}
    {event : Except String α → BrokerEvent} {Q : α → World → Prop} :
    Exn.wp (call reply event) Q E w ↔
      match reply w.broker w.calls with
      | .ok a => Q a (w.called (event (.ok a)))
      | .error err => E err (w.called (event (.error err))) := by
  simp only [call, Exn.wp_bind, Exn.wp_get, Exn.wp_set]
  cases reply w.broker w.calls <;> simp

end

end World

end Execution
