import AxbyCore.Library.Outcome
import Mathlib.Algebra.Group.Nat.Defs
import Mathlib.Tactic.Common

/-! The sequence views of seq/seq.h, by their elements, and `seq_take`. Arithmetic on
sizes and indices is that of size_t. The source, the indices and the output of a call
do not overlap. -/

namespace AxbyCore

/-- `Seq<T>`, whose size is a size_t. -/
structure Seq (α : Type) where
  elements : List α
  size_lt : elements.length < 2 ^ 64

/-- The output, and the positions read and written so far. -/
structure Taking (α : Type) where
  out : List α
  reads : List Nat := []
  writes : List Nat := []
  deriving DecidableEq, Repr

variable {α : Type}

/-- The inner loop of `seq_take`, whose counter is an int, with so many iterations left. -/
def takeElements (src : Seq α) (srcIdx outIdx : UInt64) : (left i : Nat) → Taking α → Option (Taking α)
  | 0, _, taking => some taking
  | left + 1, i, taking =>
    let source := (srcIdx + UInt64.ofNat i).toNat
    let target := (outIdx + UInt64.ofNat i).toNat
    match src.elements[source]? with
    | none => none
    | some value =>
      if target < taking.out.length ∧ i + 1 < 2 ^ 31 then
        takeElements src srcIdx outIdx left (i + 1) {
          out := taking.out.set target value
          reads := taking.reads ++ [source]
          writes := taking.writes ++ [target] }
      else none

/-- The loop over the indices. -/
def takeGroups (src : Seq α) (stride : UInt64) : List UInt64 → (outGroupIdx : UInt64) → Taking α → Outcome (Taking α)
  | [], _, taking => .done taking
  | srcGroupIdx :: indices, outGroupIdx, taking =>
    let srcIdx := stride * srcGroupIdx
    let outIdx := stride * outGroupIdx
    if ¬ srcIdx.toNat < src.elements.length then .checkFailed
    else if ¬ outIdx.toNat < taking.out.length then .checkFailed
    else
      match takeElements src srcIdx outIdx stride.toNat 0 taking with
      | none => .undefined
      | some taking => takeGroups src stride indices (outGroupIdx + 1) taking

def seqTake (src : Seq α) (indices : Seq UInt64) (out : List α) (stride : UInt64) : Outcome (Taking α) :=
  if out.length ≠ (stride * UInt64.ofNat indices.elements.length).toNat then .checkFailed
  else takeGroups src stride indices.elements 0 { out }

end AxbyCore
