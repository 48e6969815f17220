import ChainRegistry.Common.Block
import Mathlib.Data.List.Sort

/-! Height-indexed history of the validator set: `crates/node/src/validator_set_history.rs`.
The file is the list of its snapshots. -/
namespace ChainRegistry
structure ValidatorSetSnapshot where
  effectiveFromHeight : Nat
  validators : Validators

namespace ValidatorSetSnapshot
def maxSnapshots : Nat := 512

variable (snapshots : List ValidatorSetSnapshot)

def sorted : List ValidatorSetSnapshot :=
  snapshots.insertionSort (fun a b => a.effectiveFromHeight ≤ b.effectiveFromHeight)

/-- Sorted lowercase keys: the identity of a set apart from order and status. -/
def membershipKey (set : Validators) : List String :=
  (set.map fun v => Text.toAsciiLowercase v.pubkey).insertionSort (fun a b => a ≤ b)

/-- `max_by_key` over the snapshots that are in force: of equal keys the last one wins. -/
def selectAt (height : Nat) : Option ValidatorSetSnapshot :=
  match snapshots.filter (fun s => s.effectiveFromHeight ≤ height) with
  | [] => none
  | first :: rest => some (rest.foldl
      (fun best next => if best.effectiveFromHeight ≤ next.effectiveFromHeight then next else best) first)

variable (history : List ValidatorSetSnapshot)

def setAt (height : Nat) : Option Validators :=
  match selectAt (sorted history) height with
  | none => none
  | some snapshot => if snapshot.validators = [] then none else some snapshot.validators

def record (effectiveFromHeight : Nat) (set : Validators) : List ValidatorSetSnapshot :=
  let snapshots := sorted history
  let unchanged : Bool :=
    match snapshots.getLast? with
    | some last => membershipKey last.validators = membershipKey set
    | none => false
  if set = [] ∨ unchanged then history
  else
    let kept := snapshots.filter (fun s => s.effectiveFromHeight ≠ effectiveFromHeight)
    let next := sorted (kept ++ [⟨effectiveFromHeight,set⟩])
    next.drop (next.length - maxSnapshots)

end ValidatorSetSnapshot
end ChainRegistry
