import AxbyCore.Library.MachineInt
import AxbyCore.Library.Outcome
import Mathlib.Algebra.Order.Field.Rat
import Mathlib.Data.Int.Cast.Defs

/-! math/running_stat.h in exact arithmetic. Doubles are rationals, and an int that
overflows is undefined. -/

namespace AxbyCore.Math
open MachineInt

/-- `m_n` and the accumulators, of which two keep what the last push has computed. -/
structure RunningStat where
  n : Int := 0
  oldM : Rat := 0
  newM : Rat := 0
  oldS : Rat := 0
  newS : Rat := 0
  deriving DecidableEq, Repr

namespace RunningStat

def clear (stat : RunningStat) : RunningStat := { stat with n := 0 }

def push (stat : RunningStat) (x : Rat) : Outcome RunningStat := do
  Outcome.require (FitsInt32 (stat.n + 1))
  let n := stat.n + 1
  if n = 1 then
    return { stat with n := n, oldM := x, newM := x, oldS := 0 }
  else
    let newM := stat.oldM + (x - stat.oldM) / n
    let newS := stat.oldS + (x - stat.oldM) * (x - newM)
    return { n := n, oldM := newM, newM := newM, oldS := newS, newS := newS }

def numDataValues (stat : RunningStat) : Int := stat.n

def mean (stat : RunningStat) : Rat := if 0 < stat.n then stat.newM else 0

def variance (stat : RunningStat) : Rat := if 1 < stat.n then stat.newS / (stat.n - 1) else 0

inductive Operation where
  | push (x : Rat)
  | clear
  deriving DecidableEq, Repr

def apply (stat : RunningStat) : Operation → Outcome RunningStat
  | .push x => stat.push x
  | .clear => return stat.clear

end RunningStat
end AxbyCore.Math
