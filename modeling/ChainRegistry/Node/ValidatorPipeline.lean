import ChainRegistry.Node.P2P

/-! From the pending pool to the queue of finalised transactions:
`crates/node/src/validator_pipeline.rs`. What the scanners and IPFS return is an
argument; the stages are cut where the task waits. -/
namespace ChainRegistry
open Lib Text

structure Analysis where
  vote : ValidatorVote
  pgpFingerprint : Option String
  findings : List Finding
  analysisBundles : AnalysisBundleRefs
  evidenceDigest : String
  deterministicRisk : DeterministicRiskSummary
  mlModelVersion : String

inductive PipelineTask
  | processing (request : PublishRequest)
  | voted (request : PublishRequest) (analysis : Analysis)
  | waiting (request : PublishRequest) (analysis : Analysis) (assignedValidatorCount : Nat)

structure PipelineStep where
  state : NodeState
  task : Option PipelineTask
  transactions : List Transaction
  votes : List VoteGossip

variable (crates : Crates)

def Analysis.signature (analysis : Analysis) (now : DateTime) (nodeId : String) (request : PublishRequest)
    (key : List UInt8) : ValidatorSignature :=
  let validatorPubkey := hexEncode (crates.verifyingKeyOf key)
  let message := canonicalVoteMessage request.id.canonical request.contentHash (analysis.vote = .approve)
    validatorPubkey (scannerProfileDigest crates analysis.mlModelVersion analysis.analysisBundles)
    analysis.evidenceDigest
  { validatorId := nodeId
    validatorPubkey := validatorPubkey
    signature := hexEncode (crates.sign key (bytes message))
    vote := analysis.vote
    signedAt := now
    mlModelVersion := analysis.mlModelVersion
    analysisBundles := analysis.analysisBundles
    evidenceDigest := analysis.evidenceDigest
    deterministicRisk := analysis.deterministicRisk }

def gossipVote (request : PublishRequest) (sig : ValidatorSignature) : VoteGossip where
  consensusSubject := request.id.canonical
  contentHash := request.contentHash
  validatorId := sig.validatorId
  validatorPubkey := sig.validatorPubkey
  mlModelVersion := sig.mlModelVersion
  analysisBundles := sig.analysisBundles
  evidenceDigest := sig.evidenceDigest
  deterministicRisk := sig.deterministicRisk
  phase := "commit"
  approved := sig.vote = .approve
  rejectReason :=
    match sig.vote with
    | .approve => none
    | .reject reason => some reason
  signature := sig.signature

def publishRecord (now : DateTime) (request : PublishRequest) (analysis : Analysis)
    (finalSigs : List ValidatorSignature) : ChainRecord where
  id := request.id
  contentHash := request.contentHash
  ipfsCid := request.ipfsCid
  publisherPubkey := request.publisherPubkey
  blockHash := "pending"
  publishedAt := now
  validatorSignatures := finalSigs
  status := .verified
  shielded := request.shielded
  keyBundle := request.keyBundle
  pgpFingerprint := analysis.pgpFingerprint
  findings := analysis.findings
  analysisBundles := analysis.analysisBundles
  evidenceDigest := analysis.evidenceDigest
  deterministicRisk := analysis.deterministicRisk
  accessCount := 0
  lastAccessed := none
  threshold := 0
  publisherPubkeys := request.publisherPubkeys
  manifest := some request.manifest

def outcomeTransaction (now : DateTime) (nodeId : String) (request : PublishRequest) (analysis : Analysis) :
    EvidenceVoteOutcome → Transaction
  | .verified finalSigs => .publish (publishRecord now request analysis finalSigs)
  | .rejected reason => .revoke request.id.canonical reason nodeId analysis.evidenceDigest

namespace NodeState
def cleanup (state : NodeState) (canonical : String) : NodeState :=
  {state with pendingPool := state.pendingPool.remove canonical}.clearPackageRound canonical

def abandon (state : NodeState) (request : PublishRequest) : PipelineStep :=
  ⟨state.cleanup request.id.canonical,none,[],[]⟩

variable (now : DateTime)

def castVote (request : PublishRequest) (analysis : Analysis) (state : NodeState) : PipelineStep :=
  match state.config.validatorPrivkey with
  | none => state.abandon request
  | some privkey =>
    match hexDecode privkey with
    | .error _ => state.abandon request
    | .ok key =>
      if key.length ≠ 32 then state.abandon request
      else
        let sig := analysis.signature crates now state.config.nodeId request key
        ⟨state.recordPackageVote now request.id.canonical sig,some (.voted request analysis),[],[gossipVote request sig]⟩

/-- `tarball` is the fetched payload, decrypted if the request is shielded; a payload
with another digest is answered by a revocation of the package. -/
def analyse (request : PublishRequest) (tarball : Option (List UInt8))
    (analysis : Option Analysis) (state : NodeState) : PipelineStep :=
  match tarball with
  | none => state.abandon request
  | some [] => state.abandon request
  | some payload =>
    if crates.sha256Hex payload ≠ request.contentHash then
      {state.abandon request with
        transactions := [.revoke request.id.canonical "Content hash mismatch — possible tampering"
          state.config.nodeId ""]}
    else
      match state.config.isValidator, analysis with
      | true, some analysis => state.castVote crates now request analysis
      | _, _ => state.abandon request

def poll (request : PublishRequest) (analysis : Analysis) (assignedValidatorCount : Nat) (state : NodeState) : PipelineStep :=
  let outcome := (state.packageRound request.id.canonical).bind fun round =>
    aggregateEvidenceVotes crates round.signatures assignedValidatorCount
  match outcome with
  | none => ⟨state,some (.waiting request analysis assignedValidatorCount),[],[]⟩
  | some outcome =>
    {state.abandon request with
      transactions := [outcomeTransaction now state.config.nodeId request analysis outcome]}

end NodeState
end ChainRegistry
