import ChainRegistry.Contracts.PackageRecords
import ChainRegistry.ZkValidator.BatchCircuit

/-! The public inputs of a package proof: `PackageInputs` of `crates/zk-validator/src/lib.rs`,
against the binding that the registry asks of a proof. -/
namespace ChainRegistry
open Lib Fallible BatchStateTransitionCircuit Fr Registry Desk

structure PackageInputs where
  (contentHash manifestHash : Word)
  staticAnalysisScore : UInt8
  (sandboxSafe noVulnerableDeps : Bool)
  complexityScore : UInt8

namespace PackageInputs
def new (contentHash manifestHash : Word) (staticAnalysisScore : UInt8) (sandboxSafe : Bool) : PackageInputs :=
  ⟨contentHash,manifestHash,staticAnalysisScore,sandboxSafe,true,50⟩

def hash32ToFrLimbs (hash : Word) : List Fr :=
  [fromLeBytesModOrder (split hash).1,fromLeBytesModOrder (split hash).2]

def publicInputs (inputs : PackageInputs) : List Fr :=
  hash32ToFrLimbs inputs.contentHash ++ hash32ToFrLimbs inputs.manifestHash ++
    [(inputs.staticAnalysisScore.toNat : Fr),if inputs.sandboxSafe then 1 else 0,if inputs.noVulnerableDeps then 1 else 0]

theorem split_length (hash : Word) : (split hash).1.length = 16 ∧ (split hash).2.length = 16 := by
  simp [split]

theorem assertPackageProofBinding_iff (evm : Evm) (canonical ipfsCid : Bytes) (inputs : PackageInputs) :
    assertPackageProofBinding evm canonical inputs.contentHash ipfsCid (inputs.publicInputs.map toWord) = .ok () ↔
      BitVec.ofNat 256 (leNat (split inputs.contentHash).1) =
          (packageZKBindingInputs evm canonical inputs.contentHash ipfsCid).1 ∧
        BitVec.ofNat 256 (leNat (split inputs.contentHash).2) =
          (packageZKBindingInputs evm canonical inputs.contentHash ipfsCid).2 := by
  obtain ⟨low,high⟩ := split_length inputs.contentHash
  simp [assertPackageProofBinding,publicInputs,hash32ToFrLimbs,toWord_fromLeBytes low,toWord_fromLeBytes high]

/-- The registry accepts the inputs of a package only where the hash that binds it is the content
hash, with the bytes of each half in the other order. -/
theorem publicInputs_bind_iff (evm : Evm) (canonical ipfsCid : Bytes) (inputs : PackageInputs) :
    assertPackageProofBinding evm canonical inputs.contentHash ipfsCid (inputs.publicInputs.map toWord) = .ok () ↔
      (evm.keccak256 (encodeBinding canonical inputs.contentHash ipfsCid)).toNat =
        leNat (split inputs.contentHash).1 * 2 ^ 128 + leNat (split inputs.contentHash).2 := by
  obtain ⟨low,high⟩ := split_length inputs.contentHash
  have lower := leNat_lt (split inputs.contentHash).1
  have upper := leNat_lt (split inputs.contentHash).2
  rw [low] at lower
  rw [high] at upper
  rw [assertPackageProofBinding_iff,packageZKBindingInputs]
  simp only [← BitVec.toNat_inj,BitVec.toNat_ofNat,BitVec.toNat_ushiftRight,BitVec.toNat_and,Nat.shiftRight_eq_div_pow]
  have mask : (2 ^ 128 - 1) % 2 ^ 256 = 2 ^ 128 - 1 := by decide
  rw [mask,Nat.and_two_pow_sub_one_eq_mod]
  omega

theorem publicInputs_refused : assertPackageProofBinding evm name 5 cid ((new 5 6 95 true).publicInputs.map toWord) ≠ .ok () := by
  intro accepted
  have bound := (assertPackageProofBinding_iff evm name cid (new 5 6 95 true)).mp accepted
  revert bound
  decide +kernel

end PackageInputs
end ChainRegistry
