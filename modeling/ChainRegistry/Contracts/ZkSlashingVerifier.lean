import ChainRegistry.Contracts.ZkVerifier
import ChainRegistry.Lib.Runs
import ChainRegistry.ZkValidator.BatchCircuit

/-! The verifier of slashing proofs: `contracts/ZKSlashingVerifier.sol`. Arrays are their values, as
each precompile writes to one of its own. Events, `publicInputCounts` and `batchVerify` are left
out. -/
namespace ChainRegistry
open Lib Runs Fallible Option Finset

inductive EvidenceType
  | doubleSign | falseApproval | griefing
  deriving DecidableEq

abbrev G1Words := Word × Word

abbrev G2Words := (Word × Word) × (Word × Word)

structure Groth16Proof where
  a : G1Words
  b : G2Words
  c : G1Words

structure SlashingKey where
  alpha1 : G1Words
  (beta2 gamma2 delta2 : G2Words)
  ic : List G1Words

structure ZkSlashingVerifier where
  owner : Address
  usedNullifiers : Finset Word
  verifyingKeys : EvidenceType → SlashingKey
  totalProofsVerified : Nat

namespace ZkSlashingVerifier
open ZkVerifier (Precompiles bn254P)

section
variable (pre : Precompiles)

def written (words : List Word) : G1Words := (words.getD 0 0,words.getD 1 0)

def ecAdd (p1 p2 : G1Words) : Except Revert G1Words :=
  match pre.ecAdd [p1.1,p1.2,p2.1,p2.2] with
  | some words => .ok (written words)
  | none => .error (.message "ecAdd failed")

def ecMul (p : G1Words) (s : Word) : Except Revert G1Words :=
  match pre.ecMul [p.1,p.2,s] with
  | some words => .ok (written words)
  | none => .error (.message "ecMul failed")

def negateG1 (p : G1Words) : G1Words :=
  if p.1 = 0 ∧ p.2 = 0 then p else (p.1,BitVec.ofNat 256 (bn254P - p.2.toNat % bn254P))

def accumulate : G1Words → List (G1Words × Word) → Except Revert G1Words
  | vkX, [] => .ok vkX
  | vkX, (point,input) :: terms => do
    let s ← ecMul pre point input
    let vkX ← ecAdd pre vkX s
    accumulate vkX terms

def pairWords (p : G1Words) (q : G2Words) : List Word := [p.1,p.2,q.1.1,q.1.2,q.2.1,q.2.2]

def pairingCheck (vk : SlashingKey) (proof : Groth16Proof) (vkX : G1Words) : Bool :=
  match pre.ecPairing (pairWords (negateG1 proof.a) proof.b ++ pairWords vk.alpha1 vk.beta2 ++ pairWords vkX vk.gamma2 ++
    pairWords proof.c vk.delta2) with
  | some out => out.getD 0 0 = 1
  | none => false

/-- `_verifyProof`, with the key of the evidence. -/
def verifyProof (vk : SlashingKey) (proof : Groth16Proof) (inputs : List Word) : Except Revert Bool :=
  match vk.ic with
  | [] => .ok false
  | first :: points => do
    require (inputs.length + 1 = (first :: points).length) (.message "Invalid input length")
    let vkX ← accumulate pre first (points.zip inputs)
    return pairingCheck pre vk proof vkX

end

def deploy (sender : Address) : ZkSlashingVerifier := ⟨sender,∅,fun _ => ⟨(0,0),((0,0),(0,0)),((0,0),(0,0)),((0,0),(0,0)),[]⟩,0⟩

section
variable (evm : Evm) (pre : Precompiles)

def nullifierOf (publicInputs : List Word) : Word := evm.keccak256 (Abi.encode publicInputs)

def verify (evidenceType : EvidenceType) (proof : Groth16Proof) (publicInputs : List Word) (verifier : ZkSlashingVerifier) :
    Except Revert (ZkSlashingVerifier × Bool × Word) := do
  let nullifier := nullifierOf evm publicInputs
  require (nullifier ∉ verifier.usedNullifiers) (.proofAlreadyUsed nullifier)
  let valid ← verifyProof pre (verifier.verifyingKeys evidenceType) proof publicInputs
  require (valid) .invalidProof
  let total ← checkedAdd verifier.totalProofsVerified 1
  let marked := {verifier with usedNullifiers := insert nullifier verifier.usedNullifiers, totalProofsVerified := total}
  return (marked,valid,nullifier)

variable (proof : Groth16Proof)

def verifyDoubleSign (publicInputs : Vector Word 5) := verify evm pre .doubleSign proof publicInputs.toList

def verifyFalseApproval (publicInputs : Vector Word 4) := verify evm pre .falseApproval proof publicInputs.toList

def verifyGriefing (publicInputs : Vector Word 3) := verify evm pre .griefing proof publicInputs.toList

end

def setVerifyingKey (sender : Address) (evidenceType : EvidenceType) (vk : SlashingKey) (verifier : ZkSlashingVerifier) :
    Except Revert ZkSlashingVerifier := do
  require (sender = verifier.owner) (.message "Not owner")
  require (vk.ic.length ≠ 0) .invalidVerifyingKey
  return {verifier with verifyingKeys := Function.update verifier.verifyingKeys evidenceType vk}

def transferOwnership (sender newOwner : Address) (verifier : ZkSlashingVerifier) : Except Revert ZkSlashingVerifier := do
  require (sender = verifier.owner) (.message "Not owner")
  require (newOwner ≠ 0) (.message "Invalid address")
  return {verifier with owner := newOwner}

end ZkSlashingVerifier

inductive SlashingProofCall
  | verifyDoubleSign (proof : Groth16Proof) (publicInputs : Vector Word 5)
  | verifyFalseApproval (proof : Groth16Proof) (publicInputs : Vector Word 4)
  | verifyGriefing (proof : Groth16Proof) (publicInputs : Vector Word 3)
  | setVerifyingKey (evidenceType : EvidenceType) (vk : SlashingKey)
  | transferOwnership (newOwner : Address)

structure Evidence where
  evidenceType : EvidenceType
  publicInputs : List Word
  deriving DecidableEq

def SlashingProofCall.evidence : SlashingProofCall → Option Evidence
  | .verifyDoubleSign _ publicInputs => some ⟨.doubleSign,publicInputs.toList⟩
  | .verifyFalseApproval _ publicInputs => some ⟨.falseApproval,publicInputs.toList⟩
  | .verifyGriefing _ publicInputs => some ⟨.griefing,publicInputs.toList⟩
  | .setVerifyingKey _ _ => none
  | .transferOwnership _ => none

structure SlashingProofs where
  verifier : ZkSlashingVerifier
  accepted : List Evidence

def Congruent (inputs others : List Word) : Prop := List.Forall₂ (fun x y : Word => x.toNat ≡ y.toNat [MOD bn254R]) inputs others

def Reduced (inputs : List Word) : Prop := ∀ x ∈ inputs, x.toNat < bn254R

namespace SlashingProofs
open ZkVerifier (Precompiles)

variable (evm : Evm) (pre : Precompiles)

def call (sender : Address) (verifier : ZkSlashingVerifier) : SlashingProofCall → Except Revert ZkSlashingVerifier
  | .verifyDoubleSign proof publicInputs => (verifier.verifyDoubleSign evm pre proof publicInputs).map Prod.fst
  | .verifyFalseApproval proof publicInputs => (verifier.verifyFalseApproval evm pre proof publicInputs).map Prod.fst
  | .verifyGriefing proof publicInputs => (verifier.verifyGriefing evm pre proof publicInputs).map Prod.fst
  | .setVerifyingKey evidenceType vk => verifier.setVerifyingKey sender evidenceType vk
  | .transferOwnership newOwner => verifier.transferOwnership sender newOwner

variable (proofs : SlashingProofs)

def step (event : Address × SlashingProofCall) : SlashingProofs :=
  match call evm pre event.1 proofs.verifier event.2 with
  | .ok after => ⟨after,proofs.accepted ++ event.2.evidence.toList⟩
  | .error _ => proofs

def start (sender : Address) : SlashingProofs := ⟨.deploy sender,[]⟩

def SingleUse : Prop :=
  proofs.accepted.Pairwise fun first second => first.evidenceType = second.evidenceType →
    ¬ Congruent first.publicInputs second.publicInputs

def InField (_ : SlashingProofs) (event : Address × SlashingProofCall) : Prop :=
    ∀ evidence ∈ event.2.evidence, Reduced evidence.publicInputs

end SlashingProofs

theorem Congruent.eq_of_reduced {inputs others : List Word} (same : Congruent inputs others) (reduced : Reduced inputs)
    (also : Reduced others) :
    inputs = others := by
  induction same with
  | nil => rfl
  | @cons x y inputs others congruent _ ih =>
    have head : x.toNat = y.toNat := congruent.eq_of_lt_of_lt (reduced x List.mem_cons_self) (also y List.mem_cons_self)
    rw [BitVec.eq_of_toNat_eq head,ih (fun x inside => reduced x (List.mem_cons_of_mem _ inside)) fun y inside =>
      also y (List.mem_cons_of_mem _ inside)]

namespace ZkSlashingVerifier
open ZkVerifier (Precompiles)

variable {evm : Evm} {pre : Precompiles} {evidenceType : EvidenceType} {proof : Groth16Proof} {inputs : List Word}
  {verifier : ZkSlashingVerifier}

theorem verify_ok {result : ZkSlashingVerifier × Bool × Word} : verifier.verify evm pre evidenceType proof inputs = .ok result ↔
    nullifierOf evm inputs ∉ verifier.usedNullifiers ∧
      verifyProof pre (verifier.verifyingKeys evidenceType) proof inputs = .ok true ∧
      verifier.totalProofsVerified + 1 < 2 ^ 256 ∧
      ({verifier with usedNullifiers := insert (nullifierOf evm inputs) verifier.usedNullifiers,
                      totalProofsVerified := verifier.totalProofsVerified + 1},true,nullifierOf evm inputs) = result := by
  simp only [verify,bind_ok,require_ok,exists_const,checkedAdd_ok,pure_ok]
  constructor
  · rintro ⟨unused,_,valid,rfl,_,⟨fits,rfl⟩,made⟩
    exact ⟨unused,valid,fits,made⟩
  · rintro ⟨unused,valid,fits,made⟩
    exact ⟨unused,true,valid,rfl,_,⟨fits,rfl⟩,made⟩

end ZkSlashingVerifier

namespace SlashingProofs
open ZkVerifier (Precompiles)
open ZkSlashingVerifier

variable {evm : Evm} {pre : Precompiles} {sender : Address} {verifier after : ZkSlashingVerifier} {proofs : SlashingProofs}
  {event : Address × SlashingProofCall}

structure Marks (evm : Evm) (evidence : Option Evidence) (before after : Finset Word) : Prop where
  keeps : before ⊆ after
  unused : ∀ made ∈ evidence, nullifierOf evm made.publicInputs ∉ before
  used : ∀ made ∈ evidence, nullifierOf evm made.publicInputs ∈ after

theorem marks_verify {evidenceType : EvidenceType} {proof : Groth16Proof} {inputs : List Word}
    (ok : (verifier.verify evm pre evidenceType proof inputs).map Prod.fst = .ok after) :
    Marks evm (some ⟨evidenceType,inputs⟩) verifier.usedNullifiers after.usedNullifiers := by
  obtain ⟨_,verified,rfl⟩ := (map_ok _ _ _).mp ok
  obtain ⟨unused,_,_,rfl⟩ := verify_ok.mp verified
  constructor
  · exact subset_insert _ _
  · rintro _ ⟨⟩
    exact unused
  · rintro _ ⟨⟩
    exact mem_insert_self _ _

theorem marks_nothing {before : Finset Word} : Marks evm none before before := by
  constructor
  · exact subset_rfl
  all_goals
    intro _ made
    cases made

theorem call_marks {call : SlashingProofCall} (ok : SlashingProofs.call evm pre sender verifier call = .ok after) :
    Marks evm call.evidence verifier.usedNullifiers after.usedNullifiers := by
  cases call with
  | verifyDoubleSign | verifyFalseApproval | verifyGriefing => exact marks_verify ok
  | setVerifyingKey | transferOwnership =>
    simp only [SlashingProofs.call,setVerifyingKey,transferOwnership,bind_ok,require_ok,exists_const,pure_ok] at ok
    obtain ⟨_,_,rfl⟩ := ok
    exact marks_nothing

structure Recorded (evm : Evm) (proofs : SlashingProofs) : Prop where
  single : proofs.SingleUse
  reduced : ∀ evidence ∈ proofs.accepted, Reduced evidence.publicInputs
  used : ∀ evidence ∈ proofs.accepted, nullifierOf evm evidence.publicInputs ∈ proofs.verifier.usedNullifiers

theorem Recorded.append (recorded : Recorded evm proofs) {made : Option Evidence}
    (marks : Marks evm made proofs.verifier.usedNullifiers after.usedNullifiers)
    (inField : ∀ evidence ∈ made, Reduced evidence.publicInputs) : Recorded evm ⟨after,proofs.accepted ++ made.toList⟩ := by
  constructor
  · apply List.pairwise_append.mpr
    refine ⟨recorded.single,by cases made <;> simp,?_⟩
    intro first earlier second new _ congruent
    have made := Option.mem_toList.mp new
    -- in the field the inputs themselves are the same, and so is their nullifier
    have same := congruent.eq_of_reduced (recorded.reduced first earlier) (inField second made)
    exact marks.unused second made (same ▸ recorded.used first earlier)
  · intro evidence inside
    rcases List.mem_append.mp inside with earlier | new
    · exact recorded.reduced evidence earlier
    · exact inField evidence (Option.mem_toList.mp new)
  · intro evidence inside
    rcases List.mem_append.mp inside with earlier | new
    · exact marks.keeps (recorded.used evidence earlier)
    · exact marks.used evidence (Option.mem_toList.mp new)

theorem Recorded.step (recorded : Recorded evm proofs) (inField : proofs.InField event) :
    Recorded evm (proofs.step evm pre event) := by
  rw [SlashingProofs.step]
  cases done : call evm pre event.1 proofs.verifier event.2 with
  | ok after => exact recorded.append (call_marks done) inField
  | error _ => exact recorded

/-- A proof is used once where the public inputs are numbers of the field. -/
theorem proofs_single_use (evm : Evm) (pre : Precompiles) (deployer : Address) (events : List (Address × SlashingProofCall))
    (inField : Along (step evm pre) InField (start deployer) events) :
      Throughout (step evm pre) SingleUse (start deployer) events := by
  have initially : Recorded evm (start deployer) := by
    constructor
    · exact List.Pairwise.nil
    all_goals
      intro _ inside
      cases inside
  exact throughout_run (fun _ _ recorded => recorded.step) (fun _ recorded => recorded.single) _ events initially inField

end SlashingProofs

/-! The key and the proof are made of points at infinity, on which the precompiles here do what the real ones do. -/
namespace Nowhere
open ZkVerifier (Precompiles)

def evm : Evm := ⟨fun data => BitVec.ofNat 256 (data.foldl (fun sum byte => sum * 257 + byte.toNat + 1) 0),fun _ _ _ _ => 0,1⟩

def pre : Precompiles where
  ecAdd words := if words = [0,0,0,0] then some [0,0] else none
  ecMul words := if words.take 2 = [0,0] then some [0,0] else none
  ecPairing words := if words = List.replicate 24 0 then some [1] else none

def proof : Groth16Proof := ⟨(0,0),((0,0),(0,0)),(0,0)⟩

def key : SlashingKey := ⟨(0,0),((0,0),(0,0)),((0,0),(0,0)),((0,0),(0,0)),[(0,0),(0,0),(0,0),(0,0)]⟩

def proving (rates : List Word) : List (Address × SlashingProofCall) :=
  (1,.setVerifyingKey .griefing key) :: rates.map fun rate => (2,.verifyGriefing proof #v[7,8,rate])

theorem griefing_twice : (∀ x y s t : Word, s.toNat ≡ t.toNat [MOD bn254R] → pre.ecMul [x,y,s] = pre.ecMul [x,y,t]) ∧
    ZkSlashingVerifier.nullifierOf evm [7,8,9] ≠ ZkSlashingVerifier.nullifierOf evm [7,8,BitVec.ofNat 256 (9 + bn254R)] ∧
    ¬ (run (SlashingProofs.step evm pre) (.start 1) (proving [9,BitVec.ofNat 256 (9 + bn254R)])).SingleUse := by
  refine ⟨fun x y s t _ => rfl,by decide +kernel,fun single => ?_⟩
  have accepted : (run (SlashingProofs.step evm pre) (.start 1) (proving [9,BitVec.ofNat 256 (9 + bn254R)])).accepted =
      [⟨.griefing,[7,8,9]⟩,⟨.griefing,[7,8,BitVec.ofNat 256 (9 + bn254R)]⟩] := by
    decide +kernel
  rw [SlashingProofs.SingleUse,accepted] at single
  apply List.rel_of_pairwise_cons single List.mem_cons_self rfl
  exact .cons rfl (.cons rfl (.cons (by decide +kernel) .nil))

theorem griefing_once : (run (SlashingProofs.step evm pre) (.start 1) (proving [9,10,9])).accepted =
    [⟨.griefing,[7,8,9]⟩,⟨.griefing,[7,8,10]⟩] ∧
    Throughout (SlashingProofs.step evm pre) SlashingProofs.SingleUse (.start 1) (proving [9,10,9]) := by
  have small : ∀ rate : Word, rate.toNat < bn254R → Reduced [7,8,rate] := by
    intro rate small x inside
    rcases List.mem_cons.mp inside with rfl | inside
    · decide
    rcases List.mem_cons.mp inside with rfl | inside
    · decide
    rw [List.mem_singleton.mp inside]
    exact small
  refine ⟨by decide +kernel,SlashingProofs.proofs_single_use evm pre 1 (proving [9,10,9]) ⟨?_,?_,?_,?_,trivial⟩⟩
  · intro evidence made
    cases made
  · rintro evidence ⟨⟩
    exact small 9 (by decide)
  · rintro evidence ⟨⟩
    exact small 10 (by decide)
  · rintro evidence ⟨⟩
    exact small 9 (by decide)

end Nowhere
end ChainRegistry
