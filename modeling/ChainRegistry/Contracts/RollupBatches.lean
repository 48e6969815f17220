import ChainRegistry.Contracts.Registry
import ChainRegistry.Node.Bridge
import ChainRegistry.Node.VoteQuorum

/-! What an accepted rollup batch is known to be. Neither the circuit nor the contract looks at the
public inputs; that they are the roots of the batch is the work of the calling node. -/
namespace ChainRegistry
open Lib R1cs Bridge Abi BatchStateTransitionCircuit

namespace Registry
def keyCircuit : BatchStateTransitionCircuit :=
  let zeros := List.replicate 16 0
  ⟨zeros,zeros,zeros,zeros,zeros,zeros,1⟩

/-- A proof is accepted only for public inputs that the circuit can be satisfied with. -/
def Sound (verifyProof : Vector Word 8 → List Word → Option Bool) : Prop :=
  ∀ proof publicInputs, verifyProof proof publicInputs = some true →
    ∃ system, keyCircuit.generateConstraints = some system ∧
      system.Satisfiable (publicInputs.map fun word => (word.toNat : Fr))

theorem submitRollupBatch_ok {tx : Tx} {state after : Contracts} {batch : RollupBatch}
    (accepted : submitRollupBatch tx batch.prevRoot batch.nextRoot batch.txCount batch.dataRoot batch.proof batch.publicInputs
      state = .ok after) :
    tx.sender = state.registry.governance ∧ batch.prevRoot = state.registry.latestStateRoot ∧
      tx.verifyProof batch.proof batch.publicInputs = some true ∧ after.registry.latestStateRoot = batch.nextRoot := by
  simp only [submitRollupBatch,onlyGovernance,Fallible.bind_ok,require_and,Fallible.pure_ok] at accepted
  obtain ⟨governance,previous,_,proved,_,_,rfl⟩ := accepted
  refine ⟨governance,previous,?_,rfl⟩
  unfold checkProof at proved
  split at proved
  · rename_i valid asked
    rw [asked,(require_ok _ _ _).mp proved]
  · cases proved

end Registry

namespace Desk
open Registry

def governing : Registry.Tx := {tx 4 500 with verifyProof := fun _ publicInputs => some (decide (publicInputs.length = 6))}

def block : Block := {Block.genesis with transactions := [.publish (Solo.record "h" [])]}

def dataRoot : Word := leaf evm.keccak256 (Solo.record "h" [])

def nextRoot : Word := evm.keccak256 (bytes 0 ++ bytes dataRoot)

def batch : RollupBatch := ⟨0,nextRoot,1,dataRoot,.replicate 8 0,(⟨0,dataRoot,nextRoot,1⟩ : BatchInputs).publicInputsWords⟩

end Desk
end ChainRegistry
