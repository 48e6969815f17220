import ChainRegistry.Contracts.Evm
import ChainRegistry.Lib.WordMemory
import Mathlib.Algebra.BigOperators.Group.List.Basic

/-! The verifier of Groth16 proofs: `contracts/ZKVerifier.sol`. The arrays that a precompile
reads or writes are blocks of memory, counted in words; other arrays are their values. -/
namespace ChainRegistry
open Lib

abbrev Memory := WordMemory Word

namespace ZkVerifier
def bn254P : Nat := 21888242871839275222246405745257275088696311157297823662689037894645226208583

structure VerifyingKey where
  (alpha1 beta2X beta2Y gamma2X gamma2Y delta2X delta2Y : Word × Word)
  ic : List (Word × Word)

/-- The precompiles 0x06, 0x07 and 0x08, from the words of their input to those of their
output. There is none where the call fails. -/
structure Precompiles where
  ecAdd : List Word → Option (List Word)
  ecMul : List Word → Option (List Word)
  ecPairing : List Word → Option (List Word)

def blank : Memory := ⟨fun _ => 0,4⟩

def staticcall (precompile : List Word → Option (List Word)) (input inputSize output outputSize : Nat) (memory : Memory) :
    Bool × Memory :=
  match precompile (memory.read input inputSize) with
  | some words => (true,memory.write output (words.take outputSize))
  | none => (false,memory)

variable (pre : Precompiles) (vk : VerifyingKey)

/-- The loop of `_linearCombination`, from the public input `i` on. -/
def accumulate (result : Nat) : Nat → List Word → Memory → Except Revert Memory
  | _, [], memory => .ok memory
  | i, x :: publicInputs, memory =>
    match vk.ic[i + 1]? with
    | none => .error (.panic 0x32)
    | some icPoint => do
      let (mulInput,memory) := memory.push [icPoint.1,icPoint.2,x]
      let (mulResult,memory) := memory.push [0,0]
      let (success,memory) := staticcall pre.ecMul mulInput 3 mulResult 2 memory
      require (success) (.message "ecMul failed")
      let (addInput,memory) := memory.push (memory.read result 2 ++ memory.read mulResult 2)
      let (success,memory) := staticcall pre.ecAdd addInput 4 result 2 memory
      require (success) (.message "ecAdd failed")
      accumulate result (i + 1) publicInputs memory

/-- `_linearCombination`: where its result is. -/
def linearCombination (publicInputs : List Word) (memory : Memory) : Except Revert (Nat × Memory) :=
  match vk.ic[0]? with
  | none => .error (.panic 0x32)
  | some point => do
    let (result,memory) := memory.push [point.1,point.2]
    let memory ← accumulate pre vk result 0 publicInputs memory
    return (result,memory)

def negate (y : Word) : Except Revert Word :=
  if y = 0 then .ok 0 else (checkedSub bn254P y.toNat).map (BitVec.ofNat 256)

variable (proof : Vector Word 8)

/-- `_pairingCheck`. Its `result` is a variable on the stack: the call takes the value of the
variable for the place of its output, and does not change it. -/
def pairingCheck (vkX : Nat) (memory : Memory) : Except Revert (Bool × Memory) := do
  let negAy ← negate proof[1]
  let (input,memory) := memory.push ([proof[0],negAy,proof[2],proof[3],proof[4],proof[5]] ++
    [vk.alpha1.1,vk.alpha1.2,vk.beta2X.1,vk.beta2X.2,vk.beta2Y.1,vk.beta2Y.2] ++
    (memory.read vkX 2 ++ [vk.gamma2X.1,vk.gamma2X.2,vk.gamma2Y.1,vk.gamma2Y.2]) ++
    [proof[6],proof[7],vk.delta2X.1,vk.delta2X.2,vk.delta2Y.1,vk.delta2Y.2])
  let result : Word := 0
  let (success,memory) := staticcall pre.ecPairing input 24 (result.toNat / 32) 1 memory
  return (success && decide (result = 1),memory)

variable (publicInputs : List Word)

/-- `verifyProof`, with the memory that it leaves. -/
def verify : Except Revert (Bool × Memory) := do
  require (publicInputs.length + 1 = vk.ic.length) .invalidPublicInputLength
  let (vkX,memory) ← linearCombination pre vk publicInputs blank
  pairingCheck pre vk proof vkX memory

def verifyProof : Except Revert Bool :=
  (verify pre vk proof publicInputs).map Prod.fst

end ZkVerifier
end ChainRegistry
