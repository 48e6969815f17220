import ChainRegistry.Node.State

/-! The gossip handlers of `P2PNode::run` in `crates/node/src/p2p.rs` and the vote
message of `gossip.rs`. A handler returns the state it leaves and the messages it
publishes on `creg/v1/blocks`. -/
namespace ChainRegistry
open Lib Text

inductive VoteValidationError
  | malformed | unknownValidator | missingValidatorPubkey | validatorPubkeyMismatch
  | invalidValidatorPubkeyHex | invalidValidatorPubkey | missingConsensusEvidence
  | invalidSignatureHex | invalidSignatureFormat | signatureVerificationFailed

inductive PbftValidationError
  | unknownValidator | missingValidatorPubkey | signatureVerificationFailed

structure VoteGossip where
  (consensusSubject contentHash validatorId validatorPubkey mlModelVersion : String)
  analysisBundles : AnalysisBundleRefs
  evidenceDigest : String
  deterministicRisk : DeterministicRiskSummary
  phase : String
  approved : Bool
  rejectReason : Option String
  signature : String

def canonicalVoteMessage (canonical contentHash : String) (approved : Bool)
    (validatorPubkey scannerProfileDigest evidenceDigest : String) : String :=
  "creg-vote-v2" ++ "|" ++ canonical ++ "|" ++ contentHash ++ "|" ++ (if approved then "true" else "false") ++
    "|" ++ validatorPubkey ++ "|" ++ scannerProfileDigest ++ "|" ++ evidenceDigest

def findValidator (set : Validators) (id : String) : Option Validator := set.find? (fun v => v.id = id)

variable (crates : Crates)

def validatePbftPhaseMessage (set : Validators) (phase blockHash validatorId signatureHex : String) :
    Except PbftValidationError BlockSignature :=
  match findValidator set validatorId with
  | none => .error .unknownValidator
  | some validator =>
    if Text.isEmpty validator.pubkey then .error .missingValidatorPubkey
    else
      match verifyPbftPhaseSignature crates phase blockHash validator.pubkey signatureHex with
      | .error _ => .error .signatureVerificationFailed
      | .ok () => .ok ⟨validatorId,validator.pubkey,signatureHex⟩

def VoteGossip.message (vote : VoteGossip) : String :=
  canonicalVoteMessage vote.consensusSubject vote.contentHash vote.approved vote.validatorPubkey
    (scannerProfileDigest crates vote.mlModelVersion vote.analysisBundles) vote.evidenceDigest

/-- `message` is what `serde_json` makes of the payload: `none` if it is malformed. -/
def validateVoteGossipMessage (message : Option VoteGossip) (set : Validators) : Except VoteValidationError VoteGossip := do
  let some vote := message | throw .malformed
  let some validator := findValidator set vote.validatorId | throw .unknownValidator
  if Text.isEmpty validator.pubkey then throw .missingValidatorPubkey
  if vote.validatorPubkey ≠ validator.pubkey then throw .validatorPubkeyMismatch
  if !isConsensusGradeVote vote.mlModelVersion vote.analysisBundles vote.evidenceDigest then
    throw .missingConsensusEvidence
  let key ← (hexDecode vote.validatorPubkey).mapError (fun _ => .invalidValidatorPubkeyHex)
  (crates.verifyingKey key).mapError (fun _ => .invalidValidatorPubkey)
  let signature ← (hexDecode vote.signature).mapError (fun _ => .invalidSignatureHex)
  (crates.signatureFormat signature).mapError (fun _ => .invalidSignatureFormat)
  (crates.verify key (bytes (vote.message crates)) signature).mapError (fun _ => .signatureVerificationFailed)
  return vote

def voteGossipToSignature (now : DateTime) (vote : VoteGossip) : ValidatorSignature where
  validatorId := vote.validatorId
  validatorPubkey := vote.validatorPubkey
  signature := vote.signature
  vote := if vote.approved then .approve else .reject (vote.rejectReason.getD "")
  signedAt := now
  mlModelVersion := vote.mlModelVersion
  analysisBundles := vote.analysisBundles
  evidenceDigest := vote.evidenceDigest
  deterministicRisk := vote.deterministicRisk

namespace NodeState
variable (now : DateTime)

def recordValidatedVoteGossip (vote : VoteGossip) (state : NodeState) : NodeState :=
  state.recordPackageVote now vote.consensusSubject (voteGossipToSignature now vote)

def onVote (message : Option VoteGossip) (state : NodeState) : NodeState :=
  match validateVoteGossipMessage crates message state.validatorSet with
  | .ok vote => state.recordValidatedVoteGossip now vote
  | .error _ => state

/-- A submission from a peer, after the scan. No record of the chain is looked at. -/
def onSubmission (request : PublishRequest) (gate : Except String Unit) (state : NodeState) : NodeState :=
  match gate with
  | .error _ => state
  | .ok () =>
    if state.pendingPool.contains request.id.canonical then state
    else {state with pendingPool := (state.pendingPool.insert now request).1}

def onVrfProof (validatorId pubkey epochSeed output proof : String) (state : NodeState) : NodeState :=
  if epochSeed = state.chain.tipHash crates then
    match Vrf.verify crates (bytes epochSeed) pubkey output proof with
    | .error _ => state
    | .ok () => {state with vrfProofs := state.vrfProofs.insert validatorId (output,proof)}
  else state

end NodeState
end ChainRegistry
