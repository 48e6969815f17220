import ChainRegistry.Common.Text
import ChainRegistry.Lib.Fallible
import Mathlib.Algebra.Group.Nat.Defs
import Mathlib.Data.Finset.Card

/-! What the contracts use of the EVM and of Solidity. Amounts and times are natural numbers with
arithmetic checked against `uint256`, as in Solidity 0.8. A call that reverts leaves the state as it
was. -/
namespace ChainRegistry
open List Text Finset

abbrev Address := BitVec 160

abbrev Word := BitVec 256

theorem card_addresses (accounts : Finset Address) : accounts.card ≤ 2 ^ 160 := by
  rw [← card_range (2 ^ 160)]
  refine card_le_card_of_injOn BitVec.toNat ?_ ?_
  · intro a _
    exact mem_coe.mpr (Finset.mem_range.mpr a.isLt)
  · intro a _ b _ same
    exact BitVec.eq_of_toNat_eq same

/-- The precompiles and the chain id. `ecrecover` returns the zero address when it fails. -/
structure Evm where
  keccak256 : List UInt8 → Word
  ecrecover : Word → UInt8 → Word → Word → Address
  chainId : Nat

inductive Revert
  -- `require` with its text, `Panic` with its code, and a call to an account without code
  | message (text : String)
  | panic (code : Nat)
  | noCode
  | belowMinStake (provided minimum : Nat)
  | alreadyApplied | notPending | notActive | notUnbonding
  | stillUnbonding (availableAt : Nat)
  | notAuthorized | insufficientStake
  | restakeCooldownActive (availableAt : Nat)
  | applicationExpired
  | applicationNotYetExpired (expiresAt : Nat)
  | duplicateOrUnsortedSigner | invalidSignerLength
  | notAnActiveSigner (signer : Address)
  | invalidSignature (signer : Address)
  | nonceAlreadyUsed
  | insufficientQuorum (signerCount required : Nat)
  | emergencyPathDisabled
  -- the multisig
  | notSigner | alreadyVoted | proposalNotPending | votingPeriodExpired | executionFailed
  | systemPaused | systemNotPaused | notGovernance | invalidPauseReason
  -- the registry of packages
  | alreadyExists (canonical : List UInt8)
  | notFound (canonical : List UInt8)
  | alreadyRevoked (canonical : List UInt8)
  | alreadyVerified (canonical : List UInt8)
  | invalidZKProof | invalidZKPublicInputs | zkDisabled | notAuthorizedSubmitRelay
  | notAuthorizedFinalizeRelay
  | validatorAlreadySigned (validator : Address)
  -- a payment that its receiver does not take
  | refused
  -- the verifier of proofs
  | invalidPublicInputLength
  -- the rewards of the validators
  | noRewardsToClaim | invalidVoteDistribution
  -- the insurance of packages
  | invalidCoverage | invalidPackage | policyExpired | policyNotActive | claimNotFound
  | claimPeriodExpired | insufficientPoolBalance | notPolicyOwner | invalidEvidence
  | unauthorizedResolver | payoutExceedsMaxClaim | poolUtilizationExceeded
  -- the evidence of misbehaviour
  | notValidator | alreadyResolved | evidenceWindowExpired | invalidProof | quorumNotReached
  | delayNotElapsed (executeAfter : Nat)
  -- the verifier of slashing proofs
  | proofAlreadyUsed (nullifier : Word)
  | invalidVerifyingKey
  -- the roles of the pinning rewards
  | missingRole (account : Address)
  -- the appeals
  | bondTooLow (provided minimum : Nat)
  | notPanelist | appealNotPending | appealExpiredErr
  -- the governance by tokens
  | invalidProposal | votingClosed | votingNotStarted | proposalNotSucceeded | proposalExpired
  | unauthorized | invalidParameter | tooManyAutoParams
  deriving DecidableEq

inductive Log
  | transfer (src dst : Address) (value : Nat)
  | approval (owner spender : Address) (value : Nat)
  | ownershipTransferred (previousOwner newOwner : Address)
  | slasherUpdated (slasher : Address) (allowed : Bool)
  | publisherStaked (publisher : Address) (amount : Nat)
  | publisherUnstaked (publisher : Address) (amount : Nat)
  | validatorApplied (validator : Address) (stake : Nat)
  | validatorApproved (validator : Address)
  | validatorApprovedByConsensus (validator : Address) (nonce signerCount : Nat)
  | validatorApplicationExpired (validator : Address) (refunded : Nat)
  | validatorRejected (validator : Address)
  | validatorUnbonding (validator : Address) (unbondingAt : Nat)
  | validatorWithdrawn (validator : Address) (amount : Nat)
  | validatorLeft (validator : Address)
  | emergencyGovernanceDisabled
  | slashed (account : Address) (amount : Nat) (reason : String)
  | slashPoolDistributed (amount validatorCount : Nat)
  | slashPoolEpochCommitted (epoch amount totalWeight : Nat)
  | slashPoolShareClaimed (epoch : Nat) (validator : Address) (amount : Nat)
  deriving DecidableEq

def require (condition : Prop) [Decidable condition] (failure : Revert) : Except Revert Unit :=
  if condition then .ok () else .error failure

def checkedAdd (a b : Nat) : Except Revert Nat := if a + b < 2 ^ 256 then .ok (a + b) else .error (.panic 0x11)

def checkedSub (a b : Nat) : Except Revert Nat := if b ≤ a then .ok (a - b) else .error (.panic 0x11)

def checkedMul (a b : Nat) : Except Revert Nat := if a * b < 2 ^ 256 then .ok (a * b) else .error (.panic 0x11)

def checkedDiv (a b : Nat) : Except Revert Nat := if b = 0 then .error (.panic 0x12) else .ok (a / b)

@[simp] theorem require_ok (condition : Prop) [Decidable condition] (failure : Revert) (result : Unit) :
    require condition failure = .ok result ↔ condition := by
  unfold require
  split_ifs with holds
  · simp [holds]
  · simp [holds]

theorem require_and (condition rest : Prop) [Decidable condition] (failure : Revert) :
    (∃ value, require condition failure = .ok value ∧ rest) ↔ condition ∧ rest := by
  simp only [require_ok,exists_const]

@[simp] theorem checkedAdd_ok (a b sum : Nat) : checkedAdd a b = .ok sum ↔ a + b < 2 ^ 256 ∧ a + b = sum := by
  unfold checkedAdd
  split_ifs with fits
  · rw [and_iff_right fits,Except.ok.injEq]
  · exact iff_of_false nofun fun both => fits both.1

@[simp] theorem checkedSub_ok (a b difference : Nat) : checkedSub a b = .ok difference ↔ b ≤ a ∧ a - b = difference := by
  unfold checkedSub
  split_ifs with fits
  · simp [fits]
  · simp [fits]

@[simp] theorem checkedMul_ok (a b product : Nat) : checkedMul a b = .ok product ↔ a * b < 2 ^ 256 ∧ a * b = product := by
  unfold checkedMul
  split_ifs with fits
  · rw [and_iff_right fits,Except.ok.injEq]
  · exact iff_of_false nofun fun both => fits both.1

@[simp] theorem checkedDiv_ok (a b quotient : Nat) : checkedDiv a b = .ok quotient ↔ b ≠ 0 ∧ a / b = quotient := by
  unfold checkedDiv
  split_ifs with zero
  · simp [zero]
  · simp [zero]

namespace Abi
def ofAddress (a : Address) : Word := a.setWidth 256

def ofUint (n : Nat) : Word := BitVec.ofNat 256 n

def bytes (word : Word) : List UInt8 := (List.range 32).map fun i => UInt8.ofNat (word.toNat / 256 ^ (31 - i))

def word (data : List UInt8) : Word := BitVec.ofNat 256 (data.foldl (fun value byte => value * 256 + byte.toNat) 0)

def encode (words : List Word) : List UInt8 := words.flatMap bytes

@[simp] theorem length_bytes (word : Word) : (bytes word).length = 32 := by
  rw [bytes,length_map,length_range]

theorem bytes_injective : Function.Injective bytes := by
  intro v w same
  -- bit j stands in the byte 31 - j / 8
  refine BitVec.eq_of_toNat_eq (Nat.eq_of_testBit_eq fun j => ?_)
  by_cases inside : j < 256
  · have byte := map_inj_left.mp same (31 - j / 8) (List.mem_range.mpr (by omega))
    have place : 31 - (31 - j / 8) = j / 8 := by omega
    have digit := congrArg (fun b => b.toNat.testBit (j % 8)) byte
    have split : j / 8 * 8 + j % 8 = j := Nat.div_add_mod' j 8
    have base : 256 ^ (j / 8) = 2 ^ (j / 8 * 8) := by rw [Nat.mul_comm,Nat.pow_mul]
    simp only [place,UInt8.toNat_ofNat',base,Nat.testBit_mod_two_pow,Nat.testBit_div_two_pow] at digit
    rw [Nat.add_comm (j % 8),split,decide_eq_true (Nat.mod_lt j (by decide : 0 < 8)),Bool.true_and,Bool.true_and] at digit
    exact digit
  · have large : 2 ^ 256 ≤ 2 ^ j := Nat.pow_le_pow_right (by decide) (Nat.le_of_not_lt inside)
    rw [Nat.testBit_lt_two_pow (Nat.lt_of_lt_of_le v.isLt large),Nat.testBit_lt_two_pow (Nat.lt_of_lt_of_le w.isLt large)]

end Abi

namespace Eip712
def domainSeparator (evm : Evm) (name : String) (verifyingContract : Address) : Word :=
  evm.keccak256 (Abi.encode
    [evm.keccak256 (bytes "EIP712Domain(string name,string version,uint256 chainId,address verifyingContract)"),
      evm.keccak256 (bytes name),evm.keccak256 (bytes "1"),Abi.ofUint evm.chainId,
      Abi.ofAddress verifyingContract])

def digest (evm : Evm) (domainSeparator structHash : Word) : Word :=
  evm.keccak256 ([0x19,0x01] ++ Abi.bytes domainSeparator ++ Abi.bytes structHash)

end Eip712
end ChainRegistry
