import ChainRegistry.Common.Block
import ChainRegistry.Lib.Table
import ChainRegistry.Lib.Upsert

/-! Aggregation of package votes: `crates/consensus/src/evidence_votes.rs`. -/
namespace ChainRegistry
open Lib

inductive EvidenceVoteOutcome
  | verified (signatures : List ValidatorSignature)
  | rejected (reason : String)
  deriving DecidableEq

/-- The key under which a voter is counted once. The same text is formed in
`state.rs` (`package_round_vote_key`). -/
def voteKey (sig : ValidatorSignature) : String :=
  if Text.isEmpty sig.validatorPubkey then "id:" ++ Text.toAsciiLowercase sig.validatorId
  else "pubkey:" ++ Text.toAsciiLowercase sig.validatorPubkey

variable (crates : Crates) (sig : ValidatorSignature)

def profileKey : String :=
  scannerProfileDigest crates sig.mlModelVersion sig.analysisBundles ++ ":" ++ sig.evidenceDigest

def consensusProfileKey : Option String :=
  if isConsensusGradeVote sig.mlModelVersion sig.analysisBundles sig.evidenceDigest then
    some (profileKey crates sig)
  else none

variable (signatures : List ValidatorSignature)

def uniqueVotes : List ValidatorSignature :=
  signatures.foldl (fun votes sig => Upsert.upsert voteKey sig votes) []

def tally (quorum : Nat) : List ValidatorSignature → Table String (List ValidatorSignature) → List String →
    List ValidatorSignature ⊕ List String
  | [], _, rejections => .inr rejections
  | sig :: rest, approvals, rejections =>
    match consensusProfileKey crates sig with
    | none => tally quorum rest approvals rejections
    | some key =>
      match sig.vote with
      | .approve =>
        let group := (approvals.lookup key).getD [] ++ [sig]
        if quorum ≤ group.length then .inl group
        else tally quorum rest (approvals.insert key group) rejections
      | .reject reason => tally quorum rest approvals (rejections ++ [reason])

def aggregateEvidenceVotes (assignedCount : Nat) : Option EvidenceVoteOutcome :=
  let quorum := assignedCount * 2 / 3 + 1
  match tally crates quorum (uniqueVotes signatures) ∅ [] with
  | .inl group => some (.verified group)
  | .inr rejections =>
    if assignedCount - rejections.length < quorum then
      some (.rejected (rejections.head?.getD "Consensus rejected"))
    else none

end ChainRegistry
