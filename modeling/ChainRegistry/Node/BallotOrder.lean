import ChainRegistry.Node.SyncSoundness

/-! The votes behind a block that `verify_block_signatures` lets pass, and the same block with
further entries among them: an entry before the vote of its voter is looked at instead of it. -/
namespace ChainRegistry
open Lib Ballots List Finset

variable {crates : Crates}

theorem profileKey_parts {a b : ValidatorSignature}
    (front : ∀ a b x y, crates.sha256Hex a ++ x = crates.sha256Hex b ++ y → crates.sha256Hex a = crates.sha256Hex b)
    (same : profileKey crates a = profileKey crates b) :
    scannerProfileDigest crates a.mlModelVersion a.analysisBundles =
        scannerProfileDigest crates b.mlModelVersion b.analysisBundles ∧ a.evidenceDigest = b.evidenceDigest := by
  unfold profileKey at same
  rw [String.append_assoc,String.append_assoc] at same
  have digest : scannerProfileDigest crates a.mlModelVersion a.analysisBundles =
    scannerProfileDigest crates b.mlModelVersion b.analysisBundles := front _ _ _ _ same
  rw [digest] at same
  exact ⟨digest,by simpa using same⟩

/-- The key of the group is the text of the two digests. It determines both where no digest begins
another, as with texts of one length. -/
theorem verified_records_approved (block : Block) (set : Validators) (positive : 1 ≤ block.header.height)
    (verified : verifyBlockSignatures crates block set = .ok ()) (record : ChainRecord)
    (published : .publish record ∈ block.transactions) :
    ∃ votes, ApprovalQuorum crates set record votes ∧
      ((∀ a b x y, crates.sha256Hex a ++ x = crates.sha256Hex b ++ y → crates.sha256Hex a = crates.sha256Hex b) →
        ∀ vote ∈ votes, ∀ other ∈ votes, scannerProfileDigest crates vote.mlModelVersion vote.analysisBundles =
          scannerProfileDigest crates other.mlModelVersion other.analysisBundles ∧
            vote.evidenceDigest = other.evidenceDigest) := by
  obtain ⟨_,approved⟩ := (verifyBlockSignatures_iff block set positive).mp verified
  obtain ⟨votes,quorum⟩ := approvals_quorum (approved record published)
  refine ⟨votes,quorum,?_⟩
  intro front vote inside other also
  obtain ⟨profile,grouped⟩ := quorum.profile
  exact profileKey_parts front ((grouped vote inside).trans (grouped other also).symm)

theorem Quartet.verified : verifyBlockSignatures Solo.crates Quartet.publication Quartet.panel = .ok () := by decide +kernel

theorem quartet_publication_verified : ∃ votes, ApprovalQuorum Solo.crates Quartet.panel Quartet.approved votes := by
  obtain ⟨votes,quorum,_⟩ := verified_records_approved Quartet.publication Quartet.panel (by decide) Quartet.verified _
    (List.mem_singleton.mpr rfl)
  exact ⟨votes,quorum⟩

/-- What the records of a block carry after the insertions, as a whole list for each of them. -/
structure Insertion (block : Block) where
  entries : List (Transaction × List ValidatorSignature)
  transactions : entries.map Prod.fst = block.transactions
  kept : ∀ record votes, (.publish record,votes) ∈ entries → record.validatorSignatures.Sublist votes

namespace Insertion
def carry : Transaction × List ValidatorSignature → Transaction
  | (.publish record,votes) => .publish {record with validatorSignatures := votes}
  | (tx,_) => tx

def result {block : Block} (insertion : Insertion block) : Block :=
  {block with transactions := insertion.entries.map carry}

theorem mem_result {block : Block} (insertion : Insertion block) (after : ChainRecord) :
    .publish after ∈ insertion.result.transactions ↔ ∃ record votes, (.publish record,votes) ∈ insertion.entries ∧
      {record with validatorSignatures := votes} = after := by
  simp only [result,List.mem_map,Prod.exists]
  constructor
  · rintro ⟨tx,votes,inside,same⟩
    cases tx with
    | publish record => exact ⟨record,votes,inside,Transaction.publish.inj same⟩
    | _ => cases same
  · rintro ⟨record,votes,inside,rfl⟩
    exact ⟨_,votes,inside,rfl⟩

end Insertion

/-- No valid vote is lost behind another entry: where an entry of the same key now comes before it, this
one is a valid vote under the same profile too. -/
def KeepsVotes (crates : Crates) (set : Validators) (record : ChainRecord) (votes : List ValidatorSignature) : Prop :=
  ∀ vote, first voter (eligible (knownPubkeys set)) record.validatorSignatures (voter vote) = some vote →
    voteVerifies crates record vote →
    ∃ entry, first voter (eligible (knownPubkeys set)) votes (voter vote) = some entry ∧
      voteVerifies crates record entry ∧ profileKey crates entry = profileKey crates vote

theorem KeepsVotes.approvals {set : Validators} {record : ChainRecord} {votes : List ValidatorSignature}
    (keeps : KeepsVotes crates set record votes) (enough : 2 * set.length / 3 + 1 ≤ approvals crates set record) :
    2 * set.length / 3 + 1 ≤ ChainRegistry.approvals crates set {record with validatorSignatures := votes} := by
  rw [approvals_iff set _ (Nat.succ_pos _)] at enough ⊢
  obtain ⟨profile,many⟩ := enough
  refine ⟨profile,many.trans ?_⟩
  rw [countP_firsts,countP_firsts]
  refine card_le_card (backers_mono fun k counted => ?_)
  obtain ⟨vote,found,valid⟩ := (Option.any_eq_true _ _).mp counted
  rw [Bool.and_eq_true,decide_eq_true_eq] at valid
  obtain ⟨_,_,rfl⟩ := first_spec found
  obtain ⟨entry,leads,verifies,same⟩ := keeps vote found valid.1
  refine (Option.any_eq_true _ _).mpr ⟨entry,leads,?_⟩
  rw [Bool.and_eq_true,decide_eq_true_eq]
  exact ⟨verifies,same.trans valid.2⟩

/-- Entries may be inserted at all places where they do not stand before a valid vote of their key. -/
theorem harmless_insertion_tolerated (block : Block) (set : Validators)
    (verified : verifyBlockSignatures crates block set = .ok ()) (insertion : Insertion block)
    (harmless : ∀ record votes, (.publish record,votes) ∈ insertion.entries → KeepsVotes crates set record votes) :
    verifyBlockSignatures crates insertion.result set = .ok () := by
  rcases Nat.eq_zero_or_pos block.header.height with genesis | positive
  · simp [verifyBlockSignatures,Insertion.result,genesis]
  · obtain ⟨members,approved⟩ := (verifyBlockSignatures_iff block set positive).mp verified
    refine (verifyBlockSignatures_iff insertion.result set positive).mpr ⟨members,fun after inside => ?_⟩
    obtain ⟨record,votes,entry,rfl⟩ := (insertion.mem_result after).mp inside
    have published : .publish record ∈ block.transactions := by
      rw [← insertion.transactions]
      exact List.mem_map_of_mem entry
    exact (harmless record votes entry).approvals (approved record published)

namespace Quartet
def vote (signer : String × UInt8) : ValidatorSignature := approvalBy Solo.crates "h" signer

def junk : ValidatorSignature := {vote ("b",2) with signature := "zz"}

def inserted (votes : List ValidatorSignature) (kept : (approvers.map vote).Sublist votes) : Insertion publication where
  entries := [(.publish approved,votes)]
  transactions := rfl
  kept := by
    intro other more inside
    cases List.mem_singleton.mp inside
    exact kept

end Quartet
open Quartet

theorem junk_after_vote_tolerated : verifyBlockSignatures Solo.crates
    (inserted [vote ("a",1),vote ("b",2),junk,vote ("c",3)] (by simp [approvers])).result panel = .ok () := by
  refine harmless_insertion_tolerated publication panel verified _ fun record votes inside => ?_
  cases List.mem_singleton.mp inside
  intro given found verifies
  refine ⟨given,?_,verifies,rfl⟩
  obtain ⟨signer,among,rfl⟩ := List.mem_map.mp (first_spec found).1
  revert signer
  decide +kernel

theorem junk_before_vote_refused : verifyBlockSignatures Solo.crates publication panel = .ok () ∧
    verifyBlockSignatures Solo.crates
      (inserted [vote ("a",1),junk,vote ("b",2),vote ("c",3)] (by simp [approvers])).result panel ≠ .ok () :=
  ⟨verified,by decide +kernel⟩

end ChainRegistry
