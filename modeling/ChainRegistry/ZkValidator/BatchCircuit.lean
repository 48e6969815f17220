import ChainRegistry.Contracts.Evm
import ChainRegistry.Lib.R1cs
import Mathlib.Data.ZMod.Basic

/-! The circuit of a rollup batch: `BatchStateTransitionCircuit` of
`crates/zk-validator/src/circuits.rs` and the inputs of `crates/zk-validator/src/batch.rs`. A
root of 32 bytes is a word. -/
namespace ChainRegistry
open Lib R1cs List

def bn254R : Nat := 21888242871839275222246405745257275088548364400416034343698204186575808495617

abbrev Fr := ZMod bn254R

instance : NeZero bn254R := ⟨by decide⟩

instance : Fact (1 < bn254R) := ⟨by decide⟩

namespace Fr
def leNat (bytes : List UInt8) : Nat := bytes.foldr (fun byte rest => byte.toNat + 256 * rest) 0

def fromLeBytesModOrder (bytes : List UInt8) : Fr := (leNat bytes : Fr)

def inverse (x : Fr) : Option Fr := if x = 0 then none else some x⁻¹

/-- `serialize_uncompressed`, reversed and read as a `U256`. -/
def toWord (x : Fr) : Word := BitVec.ofNat 256 x.val

end Fr

structure BatchStateTransitionCircuit where
  (prevRootLo prevRootHi dataRootLo dataRootHi nextRootLo nextRootHi : List UInt8)
  txCount : Nat

namespace BatchStateTransitionCircuit
def split (root : Word) : List UInt8 × List UInt8 := ((Abi.bytes root).take 16,(Abi.bytes root).drop 16)

def fromRoots (prevRoot dataRoot nextRoot : Word) (txCount : Nat) : BatchStateTransitionCircuit where
  prevRootLo := (split prevRoot).1
  prevRootHi := (split prevRoot).2
  dataRootLo := (split dataRoot).1
  dataRootHi := (split dataRoot).2
  nextRootLo := (split nextRoot).1
  nextRootHi := (split nextRoot).2
  txCount := txCount

def publicInputs (circuit : BatchStateTransitionCircuit) : List Fr :=
  [circuit.prevRootLo,circuit.prevRootHi,circuit.dataRootLo,circuit.dataRootHi,circuit.nextRootLo,circuit.nextRootHi].map
    Fr.fromLeBytesModOrder

/-- No constraint is about the public inputs. There is no assignment for an empty batch. -/
def generateConstraints (circuit : BatchStateTransitionCircuit) : Option (System Fr) := do
  let (_,cs) := newInput (Fr.fromLeBytesModOrder circuit.prevRootLo) System.empty
  let (_,cs) := newInput (Fr.fromLeBytesModOrder circuit.prevRootHi) cs
  let (_,cs) := newInput (Fr.fromLeBytesModOrder circuit.dataRootLo) cs
  let (_,cs) := newInput (Fr.fromLeBytesModOrder circuit.dataRootHi) cs
  let (_,cs) := newInput (Fr.fromLeBytesModOrder circuit.nextRootLo) cs
  let (_,cs) := newInput (Fr.fromLeBytesModOrder circuit.nextRootHi) cs
  let txCount : Fr := circuit.txCount
  let txCountInv ← txCount.inverse
  let (tc,cs) := newWitness txCount cs
  let (tcInv,cs) := newWitness txCountInv cs
  let (product,cs) := multiply tc tcInv cs
  return enforceConstant product 1 cs

variable {circuit : BatchStateTransitionCircuit} {system : System Fr}

end BatchStateTransitionCircuit

structure BatchInputs where
  (prevRoot dataRoot nextRoot : Word)
  txCount : Nat

namespace BatchInputs
variable (inputs : BatchInputs)

def circuit : BatchStateTransitionCircuit :=
  .fromRoots inputs.prevRoot inputs.dataRoot inputs.nextRoot inputs.txCount

def publicInputs : List Fr := inputs.circuit.publicInputs

/-- `public_inputs_bytes`, as the words that the bridge reads from them. -/
def publicInputsWords : List Word := inputs.publicInputs.map Fr.toWord

end BatchInputs

theorem Fr.leNat_lt (bytes : List UInt8) : leNat bytes < 256 ^ bytes.length := by
  induction bytes with
  | nil => exact Nat.one_pos
  | cons byte bytes ih =>
    have small : byte.toNat < 256 := byte.toNat_lt
    rw [length_cons,pow_succ]
    change byte.toNat + 256 * leNat bytes < _
    omega

theorem Fr.toWord_fromLeBytes {bytes : List UInt8} (half : bytes.length = 16) :
    (fromLeBytesModOrder bytes).toWord = BitVec.ofNat 256 (leNat bytes) := by
  have bound := leNat_lt bytes
  rw [half] at bound
  have below : leNat bytes < bn254R := bound.trans (by decide)
  rw [toWord,fromLeBytesModOrder,ZMod.val_natCast_of_lt below]

end ChainRegistry
