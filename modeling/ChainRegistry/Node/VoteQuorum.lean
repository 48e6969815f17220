import ChainRegistry.Node.Sync

/-! What `verify_block_signatures` establishes: a quorum of approvals behind every
published record of the block, and nothing about the signatures of the block itself. -/
namespace ChainRegistry
open Lib Ballots Text

variable {crates : Crates}

def voter (sig : ValidatorSignature) : String := toAsciiLowercase sig.validatorPubkey

variable (known : List String)

def eligible (sig : ValidatorSignature) : Bool :=
  sig.vote = .approve ∧ isConsensusGradeVote sig.mlModelVersion sig.analysisBundles sig.evidenceDigest ∧
    voter sig ∈ known

theorem countVote_eq (record : ChainRecord) :
    countVote crates known record = count voter (eligible known) (voteVerifies crates record) (profileKey crates) := by
  funext state sig
  unfold countVote count eligible voter
  simp only [decide_eq_false_iff_not,not_and_or,Bool.not_eq_true,or_assoc,ne_eq]

def SignedVote (crates : Crates) (record : ChainRecord) (sig : ValidatorSignature) : Prop :=
  ∃ key signature, hexDecode sig.validatorPubkey = .ok key ∧ hexDecode sig.signature = .ok signature ∧
    crates.verifyingKey key = .ok () ∧ crates.signatureFormat signature = .ok () ∧
    crates.verify key (bytes (canonicalVoteMessage record.id.canonical record.contentHash (sig.vote = .approve)
      sig.validatorPubkey (scannerProfileDigest crates sig.mlModelVersion sig.analysisBundles) sig.evidenceDigest))
      signature = .ok ()

theorem voteVerifies_iff (record : ChainRecord) (sig : ValidatorSignature) :
    voteVerifies crates record sig ↔ SignedVote crates record sig := by
  have ok : ∀ check : Except String Unit, check.isOk ↔ check = .ok () := by
    intro check
    cases check <;> simp [Except.isOk,Except.toBool]
  unfold voteVerifies SignedVote
  cases decoded : hexDecode sig.validatorPubkey with
  | error e => simp
  | ok key =>
    cases bytes : hexDecode sig.signature with
    | error e => simp
    | ok signature => simp [ok,and_assoc]

structure ApprovalQuorum (crates : Crates) (set : Validators) (record : ChainRecord)
    (votes : List ValidatorSignature) : Prop where
  carried : votes.Sublist record.validatorSignatures
  enough : 2 * set.length / 3 + 1 ≤ votes.length
  distinct : (votes.map voter).Nodup
  member : ∀ vote ∈ votes, ∃ v ∈ set, toAsciiLowercase v.pubkey = voter vote
  approve : ∀ vote ∈ votes, vote.vote = .approve
  grade : ∀ vote ∈ votes, isConsensusGradeVote vote.mlModelVersion vote.analysisBundles vote.evidenceDigest
  profile : ∃ profile, ∀ vote ∈ votes, profileKey crates vote = profile
  signed : ∀ vote ∈ votes, SignedVote crates record vote

theorem approvals_iff (set : Validators) (record : ChainRecord) {quorum : Nat} (positive : 0 < quorum) :
    quorum ≤ approvals crates set record ↔
      ∃ profile, quorum ≤ (firsts voter (eligible (knownPubkeys set)) record.validatorSignatures).countP fun sig =>
        voteVerifies crates record sig && profileKey crates sig = profile := by
  rw [approvals,countVote_eq]
  exact quorum_iff record.validatorSignatures positive

theorem approvals_quorum {set : Validators} {record : ChainRecord}
    (reached : 2 * set.length / 3 + 1 ≤ approvals crates set record) :
    ∃ votes, ApprovalQuorum crates set record votes := by
  obtain ⟨profile,enough⟩ := (approvals_iff set record (Nat.succ_pos _)).mp reached
  obtain ⟨carried,good,distinct⟩ := firsts_spec voter (eligible (knownPubkeys set)) record.validatorSignatures
  rw [List.countP_eq_length_filter] at enough
  have counted : ∀ vote ∈ (firsts voter (eligible (knownPubkeys set)) record.validatorSignatures).filter fun sig =>
      voteVerifies crates record sig && profileKey crates sig = profile,
      eligible (knownPubkeys set) vote ∧ voteVerifies crates record vote ∧
        profileKey crates vote = profile := by
    intro vote inside
    obtain ⟨kept,verified⟩ := List.mem_filter.mp inside
    rw [Bool.and_eq_true,decide_eq_true_eq] at verified
    exact ⟨good vote kept,verified⟩
  have looked : ∀ vote, eligible (knownPubkeys set) vote → vote.vote = .approve ∧
      isConsensusGradeVote vote.mlModelVersion vote.analysisBundles vote.evidenceDigest ∧
      voter vote ∈ knownPubkeys set := fun vote listed => of_decide_eq_true listed
  refine ⟨_,List.filter_sublist.trans carried,enough,?_,?_,?_,?_,⟨profile,?_⟩,?_⟩
  · exact distinct.sublist (List.filter_sublist.map voter)
  · intro vote inside
    exact List.mem_map.mp (looked vote (counted vote inside).1).2.2
  · exact fun vote inside => (looked vote (counted vote inside).1).1
  · exact fun vote inside => (looked vote (counted vote inside).1).2.1
  · exact fun vote inside => (counted vote inside).2.2
  · exact fun vote inside => (voteVerifies_iff record vote).mp (counted vote inside).2.1

theorem checkTransactions_iff (set : Validators) (index : Nat) (transactions : List Transaction) :
    checkTransactions crates set index transactions = .ok () ↔
      ∀ record, .publish record ∈ transactions → 2 * set.length / 3 + 1 ≤ approvals crates set record := by
  induction transactions generalizing index with
  | nil => simp [checkTransactions]
  | cons tx rest ih =>
    cases tx with
    | publish record =>
      simp only [checkTransactions,checkPublish]
      by_cases short : approvals crates set record < 2 * set.length / 3 + 1
      · simp only [short,if_true,List.mem_cons,reduceCtorEq,false_iff,not_forall]
        exact ⟨record,.inl rfl,by omega⟩
      · simp only [short,if_false,ih,List.mem_cons,forall_eq_or_imp,Transaction.publish.injEq]
        exact (and_iff_right (by omega)).symm
    | _ => simp [checkTransactions,ih]

theorem verifyBlockSignatures_iff (block : Block) (set : Validators) (positive : 1 ≤ block.header.height) :
    verifyBlockSignatures crates block set = .ok () ↔ set ≠ [] ∧ ∀ record, .publish record ∈ block.transactions →
      2 * set.length / 3 + 1 ≤ approvals crates set record := by
  have above : block.header.height ≠ 0 := by omega
  unfold verifyBlockSignatures
  rw [if_neg above]
  by_cases empty : set = []
  · simp [empty]
  · rw [if_neg empty,checkTransactions_iff]
    exact (and_iff_right empty).symm

namespace Solo
def members : Validators := [⟨"v","v","01","",100,100,"online"⟩]

def package : PackageId := ⟨"npm","p","1"⟩

def bundles : AnalysisBundleRefs := ⟨"b","b","b","b","b","b","b","b"⟩

def approval (crates : Crates) (contentHash : String) : ValidatorSignature where
  validatorId := "v"
  validatorPubkey := "01"
  signature := hexEncode (crates.sign [1] (bytes (canonicalVoteMessage package.canonical contentHash true "01"
    (scannerProfileDigest crates "s" bundles) "e")))
  vote := .approve
  signedAt := 0
  mlModelVersion := "s"
  analysisBundles := bundles
  evidenceDigest := "e"
  deterministicRisk := {}

def record (contentHash : String) (votes : List ValidatorSignature) : ChainRecord where
  id := package
  contentHash := contentHash
  ipfsCid := ""
  publisherPubkey := "p"
  blockHash := ""
  publishedAt := 0
  validatorSignatures := votes
  status := .verified
  shielded := false
  keyBundle := none
  pgpFingerprint := none
  findings := []
  analysisBundles := bundles
  evidenceDigest := "e"
  deterministicRisk := {}
  accessCount := 0
  lastAccessed := none
  threshold := 1
  publisherPubkeys := []
  manifest := none

end Solo

/-! Four validators, of which three approve. -/
namespace Quartet
def panel : Validators :=
  [⟨"a","a","01","",100,100,"online"⟩,⟨"b","b","02","",100,100,"online"⟩,⟨"c","c","03","",100,100,"online"⟩,
    ⟨"d","d","04","",100,100,"online"⟩]

def approvers : List (String × UInt8) := [("a",1),("b",2),("c",3)]

def approvalBy (crates : Crates) (contentHash : String) (signer : String × UInt8) : ValidatorSignature :=
  {Solo.approval crates contentHash with
    validatorId := signer.1
    validatorPubkey := hexEncode [signer.2]
    signature := hexEncode (crates.sign [signer.2] (bytes (canonicalVoteMessage Solo.package.canonical contentHash true
      (hexEncode [signer.2]) (scannerProfileDigest crates "s" Solo.bundles) "e")))}

end Quartet
end ChainRegistry
