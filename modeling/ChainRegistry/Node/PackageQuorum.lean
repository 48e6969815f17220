import ChainRegistry.Consensus.VoteDecision
import ChainRegistry.Node.PackageLifecycle

/-! The two counts of package votes: `aggregate_evidence_votes`, by which the pipeline publishes,
and `verify_block_signatures`, by which a follower accepts. They agree but for the content: a vote
loses its content hash on the way into the round, and the follower checks signatures over that of
the record. -/
namespace ChainRegistry
open Lib Ballots Runs Fallible Option Text NodeState

variable {crates : Crates} {vote : VoteGossip} {record : ChainRecord} {subject : String}
  {now : DateTime} {key : String}

theorem aggregate_verified {signatures sigs : List ValidatorSignature} {count : Nat}
    (verified : aggregateEvidenceVotes crates signatures count = some (.verified sigs)) :
    ∃ key, (∀ sig ∈ sigs, sig ∈ signatures) ∧ (sigs.map voteKey).Nodup ∧ sigs.length = 2 * count / 3 + 1 ∧
      ∀ sig ∈ sigs, Approves crates key sig := by
  rcases aggregate_cases crates signatures count rfl with ⟨key,first,decided⟩ | ⟨_,_,decided⟩
  · rw [decided,Option.some.injEq,EvidenceVoteOutcome.verified.injEq] at verified
    subst verified
    obtain ⟨within,distinct,_⟩ := uniqueVotes_spec signatures
    have sublist := (List.take_sublist (count * 2 / 3 + 1) ((uniqueVotes signatures).filter (Approves crates key))).trans
      List.filter_sublist
    refine ⟨key,fun sig inside => within sig (sublist.subset inside),distinct.sublist (sublist.map voteKey),?_,?_⟩
    · rw [List.length_take,← List.countP_eq_length_filter,min_eq_left first.enough,Nat.mul_comm]
    · intro sig inside
      exact of_decide_eq_true (List.mem_filter.mp (List.mem_of_mem_take inside)).2
  · rw [decided] at verified
    split_ifs at verified
    simp at verified

structure AcceptedVote (crates : Crates) (set : Validators) (vote : VoteGossip) : Prop where
  member : ∃ v ∈ set, v.pubkey = vote.validatorPubkey
  keyed : Text.isEmpty vote.validatorPubkey = false
  grade : isConsensusGradeVote vote.mlModelVersion vote.analysisBundles vote.evidenceDigest
  signed : ∃ key signature, hexDecode vote.validatorPubkey = .ok key ∧ hexDecode vote.signature = .ok signature ∧
    crates.verifyingKey key = .ok () ∧ crates.signatureFormat signature = .ok () ∧
    crates.verify key (bytes (vote.message crates)) signature = .ok ()

theorem validateVoteGossipMessage_ok {set : Validators} {message : Option VoteGossip}
    (accepted : validateVoteGossipMessage crates message set = .ok vote) :
    message = some vote ∧ AcceptedVote crates set vote := by
  cases message with
  | none => simp [validateVoteGossipMessage] at accepted
  | some sent =>
    cases found : findValidator set sent.validatorId with
    | none => simp [validateVoteGossipMessage,found] at accepted
    | some validator =>
      simp only [validateVoteGossipMessage,found,check_ok,bind_ok,mapError_ok,
        pure_ok,Bool.not_eq_true,ne_eq,not_not] at accepted
      obtain ⟨keyed,pubkey,grade,key,decoded,_,valid,signature,bytes,_,format,_,verified,same⟩ := accepted
      subst same
      refine ⟨rfl,⟨validator,List.mem_of_find?_eq_some found,pubkey.symm⟩,pubkey ▸ keyed,?_,
        key,signature,decoded,bytes,valid,format,verified⟩
      simpa using grade

def NodeState.hear (crates : Crates) (state : NodeState) (message : DateTime × Option VoteGossip) : NodeState :=
  state.onVote crates message.1 message.2

variable (state : NodeState)

def NodeState.Collected (subject : String) (holds : ValidatorSignature → Prop) : Prop :=
  ∀ round, state.packageRound subject = some round → ∀ sig ∈ round.signatures, holds sig

theorem PackageRound.refreshTimestamps_signatures (now : DateTime) (round : PackageRound) :
    (round.refreshTimestamps now).signatures = round.signatures := by
  unfold refreshTimestamps
  split <;> rfl

theorem NodeState.Collected.recordPackageVote {state : NodeState} {holds : ValidatorSignature → Prop}
    (collected : state.Collected subject holds) (now : DateTime) (other : String) (sig : ValidatorSignature)
    (recorded : other = subject → holds sig) : (state.recordPackageVote now other sig).Collected subject holds := by
  intro round found vote inside
  unfold packageRound NodeState.recordPackageVote at found
  rw [Table.lookup_insert_eq] at found
  split_ifs at found with same
  · subst same
    cases before : state.packageRounds.lookup subject with
    | none =>
      simp only [before,Option.some.injEq] at found
      rw [← found,PackageRound.fromVote,PackageRound.refreshTimestamps_signatures,List.mem_singleton] at inside
      exact inside ▸ recorded rfl
    | some old =>
      simp only [before,Option.some.injEq] at found
      rw [← found,PackageRound.recordVote,PackageRound.refreshTimestamps_signatures] at inside
      rcases Upsert.mem_upsert voteKey inside with new | kept
      · exact new ▸ recorded rfl
      · exact collected old before vote kept
  · exact collected round found vote inside

def VoteSource (crates : Crates) (set : Validators) (messages : List (DateTime × Option VoteGossip)) (subject : String)
    (sig : ValidatorSignature) : Prop :=
  ∃ now vote, (now,some vote) ∈ messages ∧ AcceptedVote crates set vote ∧ vote.consensusSubject = subject ∧
    voteGossipToSignature now vote = sig

variable (messages : List (DateTime × Option VoteGossip))

theorem round_sources
    (fresh : state.packageRound subject = none) :
    (run (hear crates) state messages).Collected subject
      (VoteSource crates state.validatorSet messages subject) := by
  refine (kept_run (fun later : NodeState => later.validatorSet = state.validatorSet ∧
    later.Collected subject (VoteSource crates state.validatorSet messages subject)) messages ?_ state ⟨rfl,?_⟩).2
  · intro later message inside ⟨set,collected⟩
    unfold hear onVote
    split
    · rename_i vote accepted
      obtain ⟨sent,passed⟩ := validateVoteGossipMessage_ok accepted
      refine ⟨set,collected.recordPackageVote _ _ _ ?_⟩
      exact fun about => ⟨message.1,vote,sent ▸ inside,set ▸ passed,about,rfl⟩
    · exact ⟨set,collected⟩
  · intro round found
    rw [fresh] at found
    cases found

section
variable {set : Validators} {messages : List (DateTime × Option VoteGossip)} {signatures sigs : List ValidatorSignature}
  {request : PublishRequest}

theorem SignedVote.of_message (passed : AcceptedVote crates set vote)
    (approved : vote.approved) (about : vote.consensusSubject = record.id.canonical)
    (content : vote.contentHash = record.contentHash) : SignedVote crates record (voteGossipToSignature now vote) := by
  obtain ⟨key,signature,decoded,bytes,valid,format,verified⟩ := passed.signed
  refine ⟨key,signature,decoded,bytes,valid,format,?_⟩
  rw [VoteGossip.message,about,content] at verified
  simpa [voteGossipToSignature,approved] using verified

theorem voteGossipToSignature_approve : (voteGossipToSignature now vote).vote = .approve ↔ vote.approved := by
  unfold voteGossipToSignature
  cases vote.approved <;> simp

theorem firsts_verified (sources : ∀ sig ∈ sigs, VoteSource crates set messages request.id.canonical sig)
    (distinct : (sigs.map voteKey).Nodup) (approving : ∀ sig ∈ sigs, Approves crates key sig) :
    firsts voter (eligible (knownPubkeys set)) sigs = sigs := by
  apply firsts_eq
  · intro sig inside
    obtain ⟨now,vote,_,passed,_,rfl⟩ := sources sig inside
    obtain ⟨v,member,pubkey⟩ := passed.member
    have known : voter (voteGossipToSignature now vote) ∈ knownPubkeys set :=
      List.mem_map.mpr ⟨v,member,congrArg toAsciiLowercase pubkey⟩
    exact decide_eq_true ⟨(approving _ inside).1,passed.grade,known⟩
  · have keyed : sigs.map voteKey = (sigs.map voter).map ("pubkey:" ++ ·) := by
      rw [List.map_map]
      apply List.map_congr_left
      intro sig inside
      obtain ⟨now,vote,_,passed,_,rfl⟩ := sources sig inside
      exact if_neg (by simpa [voteGossipToSignature] using passed.keyed)
    rw [keyed] at distinct
    exact distinct.of_map _

theorem approvals_verified (carried : record.validatorSignatures = sigs)
    (sources : ∀ sig ∈ sigs, VoteSource crates set messages request.id.canonical sig)
    (distinct : (sigs.map voteKey).Nodup) (approving : ∀ sig ∈ sigs, Approves crates key sig)
    {quorum : Nat} (size : sigs.length = quorum) (positive : 0 < quorum) :
    quorum ≤ approvals crates set record ↔ ∀ sig ∈ sigs, SignedVote crates record sig := by
  rw [approvals_iff set record positive,carried,firsts_verified sources distinct approving]
  have profile : ∀ sig ∈ sigs, profileKey crates sig = key := by
    intro sig inside
    have counted := (approving sig inside).2
    unfold consensusProfileKey at counted
    split_ifs at counted
    exact Option.some.inj counted
  constructor
  · intro ⟨other,enough⟩ sig inside
    have full := List.countP_eq_length.mp (Nat.le_antisymm List.countP_le_length (size ▸ enough)) sig inside
    rw [Bool.and_eq_true] at full
    exact (voteVerifies_iff record sig).mp full.1
  · intro signed
    refine ⟨key,?_⟩
    rw [List.countP_eq_length.mpr,size]
    intro sig inside
    rw [Bool.and_eq_true,decide_eq_true_eq]
    exact ⟨(voteVerifies_iff record sig).mpr (signed sig inside),profile sig inside⟩

end

/-- The follower accepts a publication exactly if every counted vote is signed over its content. -/
theorem package_quorums_agree
    (request : PublishRequest) (fresh : state.packageRound request.id.canonical = none) (round : PackageRound)
    (collected : (run (hear crates) state messages).packageRound request.id.canonical = some round)
    (sigs : List ValidatorSignature)
    (verified : aggregateEvidenceVotes crates round.signatures state.validatorSet.length = some (.verified sigs))
    (now : DateTime) (analysis : Analysis) (block : Block)
    (included : .publish (publishRecord now request analysis sigs) ∈ block.transactions)
    (others : ∀ other, .publish other ∈ block.transactions → other ≠ publishRecord now request analysis sigs →
      2 * state.validatorSet.length / 3 + 1 ≤ approvals crates state.validatorSet other) :
    (verifyBlockSignatures crates block state.validatorSet = .ok () ↔ block.header.height = 0 ∨
      ∀ sig ∈ sigs, SignedVote crates (publishRecord now request analysis sigs) sig) ∧
    ((∀ time vote, (time,some vote) ∈ messages → vote.consensusSubject = request.id.canonical →
      voteGossipToSignature time vote ∈ sigs → vote.contentHash = request.contentHash) →
        verifyBlockSignatures crates block state.validatorSet = .ok ()) := by
  obtain ⟨key,within,distinct,size,approving⟩ := aggregate_verified verified
  have sources : ∀ sig ∈ sigs, VoteSource crates state.validatorSet messages request.id.canonical sig :=
    fun sig inside => round_sources state messages fresh round collected sig (within sig inside)
  have count : 2 * state.validatorSet.length / 3 + 1 ≤
      approvals crates state.validatorSet (publishRecord now request analysis sigs) ↔
        ∀ sig ∈ sigs, SignedVote crates (publishRecord now request analysis sigs) sig :=
    approvals_verified rfl sources distinct approving size (Nat.succ_pos _)
  -- a counted vote has a member of the set behind it
  have nonempty : state.validatorSet ≠ [] := by
    obtain ⟨sig,inside⟩ := List.exists_mem_of_length_pos (size ▸ Nat.succ_pos _ : 0 < sigs.length)
    obtain ⟨_,_,_,passed,_⟩ := sources sig inside
    obtain ⟨v,member,_⟩ := passed.member
    exact List.ne_nil_of_mem member
  have exact : verifyBlockSignatures crates block state.validatorSet = .ok () ↔ block.header.height = 0 ∨
      ∀ sig ∈ sigs, SignedVote crates (publishRecord now request analysis sigs) sig := by
    by_cases genesis : block.header.height = 0
    · simp [verifyBlockSignatures,genesis]
    · rw [verifyBlockSignatures_iff block state.validatorSet (by omega),← count,or_iff_right genesis]
      refine ⟨fun accepted => accepted.2 _ included,fun enough => ⟨nonempty,fun other inside => ?_⟩⟩
      by_cases same : other = publishRecord now request analysis sigs
      · exact same ▸ enough
      · exact others other inside same
  refine ⟨exact,fun content => exact.mpr (.inr ?_)⟩
  intro sig inside
  obtain ⟨time,vote,sent,passed,about,rfl⟩ := sources sig inside
  exact .of_message passed (voteGossipToSignature_approve.mp (approving _ inside).1) about
    (content time vote sent about inside)

namespace Solo
variable (contentHash : String)

def heard : List (DateTime × Option VoteGossip) :=
  [(0,some (gossipVote (request contentHash) (approval Solo.crates contentHash)))]

def publishes (sigs : List ValidatorSignature) : Block :=
  {block with transactions := [.publish (publishRecord 0 (request contentHash) scan sigs)]}

theorem collected : ((run (hear Solo.crates) (follower Solo.crates).state (heard "x")).packageRound
    package.canonical).map PackageRound.signatures = some [approval Solo.crates "x"] := by
  decide +kernel

end Solo

namespace Quartet
def listener : NodeState := (Node.initial ⟨"f",none,false,false⟩ Solo.config panel : Node Solo.crates).state

def ballots : List (DateTime × Option VoteGossip) :=
  approvers.map fun signer => (0,some (gossipVote (Solo.request "x") (approvalBy Solo.crates "x" signer)))

theorem collected : ((run (hear Solo.crates) listener ballots).packageRound Solo.package.canonical).map PackageRound.signatures =
    some (approvers.map (approvalBy Solo.crates "x")) := by
  decide +kernel

end Quartet

theorem quartet_quorums_agree :
    ∃ sigs, sigs.length = 3 ∧ verifyBlockSignatures Solo.crates (Solo.publishes "x" sigs) Quartet.panel = .ok () := by
  obtain ⟨round,found,signatures⟩ := map_eq_some_iff.mp Quartet.collected
  refine ⟨Quartet.approvers.map (Quartet.approvalBy Solo.crates "x"),rfl,(package_quorums_agree Quartet.listener Quartet.ballots
    (Solo.request "x") rfl round found _ ?_ 0 Solo.scan _ (List.mem_singleton.mpr rfl) ?_).2 ?_⟩
  · rw [signatures]
    decide +kernel
  · intro other inside different
    exact absurd (Transaction.publish.inj (List.mem_singleton.mp inside)) different
  · intro time vote sent _ _
    obtain ⟨signer,_,cast⟩ := List.mem_map.mp sent
    cases cast
    rfl

theorem foreign_content_counted :
    ¬∀ (crates : Crates), crates.CollisionFree → crates.SignaturesCorrect → ∀ (state : NodeState) messages
      (request : PublishRequest), (state.validatorSet.map Validator.id).Nodup →
      (state.validatorSet.map Validator.pubkey).Nodup → (∀ v ∈ state.validatorSet, Text.isEmpty v.pubkey = false) →
      state.packageRound request.id.canonical = none →
      ∀ round, (run (hear crates) state messages).packageRound request.id.canonical = some round →
      ∀ sigs, aggregateEvidenceVotes crates round.signatures state.validatorSet.length = some (.verified sigs) →
      ∀ now analysis (block : Block), block.transactions = [.publish (publishRecord now request analysis sigs)] →
        verifyBlockSignatures crates block state.validatorSet = .ok () := by
  intro claimed
  obtain ⟨round,found,signatures⟩ := map_eq_some_iff.mp Solo.collected
  have accepted := claimed Solo.crates (Ideal.collisionFree _ _) (Ideal.signaturesCorrect _ _)
    (Solo.follower Solo.crates).state (Solo.heard "x") (Solo.request "y") (by decide) (by decide) (by decide) rfl round found
    [Solo.approval Solo.crates "x"] (by rw [signatures]; decide +kernel) 0 Solo.scan
    (Solo.publishes "y" [Solo.approval Solo.crates "x"]) rfl
  have refused : (verifyBlockSignatures Solo.crates (Solo.publishes "y" [Solo.approval Solo.crates "x"])
      Solo.members).isOk = false := by decide +kernel
  rw [show (Solo.follower Solo.crates).state.validatorSet = Solo.members from rfl] at accepted
  rw [accepted] at refused
  cases refused

end ChainRegistry
