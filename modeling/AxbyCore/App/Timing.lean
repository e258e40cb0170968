import AxbyCore.Library.Ieee754
import AxbyCore.Library.MachineInt
import AxbyCore.Library.Outcome
import Mathlib.Algebra.Order.Field.Rat

/-! The stopwatch and the action period of app/timing.cpp. Process times are microseconds or
milliseconds in a uint64_t. The quotients of the stopwatch are exact. -/

namespace AxbyCore.App
open Ieee754 MachineInt

structure Stopwatch where
  lastPressUs : Nat := 0
  deriving DecidableEq, Repr

namespace Stopwatch

/-- The seconds that are returned, and the watch after the press. -/
def press (watch : Stopwatch) (currentTimestampUs : Nat) : Rat × Stopwatch :=
  (toUint64 (currentTimestampUs - watch.lastPressUs) / 1000000, { lastPressUs := currentTimestampUs })

/-- The current time is kept in an int, which the subtraction widens again. -/
def getSecSincePress (watch : Stopwatch) (processTimeUs : Nat) : Rat :=
  let currentTimestampUs := toInt32 processTimeUs
  toUint64 (toUint64 currentTimestampUs - watch.lastPressUs) / 1000000

def construct (processTimeUs : Nat) : Stopwatch := (press {} processTimeUs).2

/-- A call, with the process time that it reads. -/
inductive Call where
  | press (processTimeUs : Nat)
  | getSecSincePress (processTimeUs : Nat)
  deriving DecidableEq, Repr

def Call.processTimeUs : Call → Nat
  | .press now => now
  | .getSecSincePress now => now

/-- A stopwatch in use, with the sum of what its presses have returned. -/
structure Use where
  watch : Stopwatch
  pressed : Rat
  deriving DecidableEq, Repr

def Use.call (use : Use) : Call → Use
  | .press now => { watch := (use.watch.press now).2, pressed := use.pressed + (use.watch.press now).1 }
  | .getSecSincePress _ => use

/-- After these calls on a stopwatch constructed at this time. -/
def use (constructedUs : Nat) (calls : List Call) : Use :=
  calls.foldl Use.call { watch := construct constructedUs, pressed := 0 }

end Stopwatch

/-- What an integer type holds of a double without its fraction. What uint64_t does not hold is undefined. -/
def truncate : Value → Outcome Nat
  | .finite negative magnitude => do
    Outcome.require (if negative then magnitude / 2 ^ 1074 = 0 else magnitude / 2 ^ 1074 < 2 ^ 64)
    return magnitude / 2 ^ 1074
  | _ => .undefined

/-- `1000 * seconds` in double precision. -/
def thousandTimes : Value → Value
  | .finite negative magnitude => binary64.value (binary64.ofValue (.finite negative (1000 * magnitude)))
  | other => other

/-- Its conversion to milliseconds. -/
def toMs (seconds : BitVec 64) : Outcome Nat := truncate (thousandTimes (binary64.value seconds.toNat))

structure ActionPeriod where
  period : BitVec 64
  phase : BitVec 64 := 0
  lastTriggeredMs : Nat := 0
  deriving DecidableEq, Repr

namespace ActionPeriod

def construct (period : BitVec 64) : ActionPeriod := { period }

def setPhase (action : ActionPeriod) (seconds : BitVec 64) : ActionPeriod := { action with phase := seconds }

def shouldAct (action : ActionPeriod) (processTimeMs : Nat) : Outcome (Bool × ActionPeriod) := do
  let phaseMs ← toMs action.phase
  let periodMs ← toMs action.period
  Outcome.require (periodMs ≠ 0)
  let currentIdx := toUint64 (processTimeMs + phaseMs) / periodMs
  let lastIdx := toUint64 (action.lastTriggeredMs + phaseMs) / periodMs
  if lastIdx < currentIdx then return (true, { action with lastTriggeredMs := processTimeMs })
  else return (false, action)

end ActionPeriod
end AxbyCore.App
