import ChainRegistry.Contracts.Refinement

/-! Admission by the active validators: what `approveByConsensus` has checked when it
returns. -/
namespace ChainRegistry
open Lib Runs Fallible List Finset

structure Approved (evm : Evm) (signed : Address → Word → Prop) (staking : Staking) (applicant : Address) (nonce : Nat)
    (signers : List Address) : Prop where
  distinct : signers.Nodup
  nonzero : ∀ signer ∈ signers, signer ≠ 0
  active : ∀ signer ∈ signers, (staking.entry signer).state = .active
  signed : ∀ signer ∈ signers,
    signed signer (World.consensusMessageHash evm staking applicant (staking.entry applicant).stake nonce)
  quorum : 2 * staking.activeAccounts.card ≤ 3 * signers.length

namespace World
variable {evm : Evm} {self : Address} {tx : Tx} {world : World} {staking : Staking} {sigs : List (List UInt8)}
  {signers : List Address} {applicant : Address} {start : World} {result : World × List Log} {nonce : Nat}
  {accounts : Accounts} {logs : List Log} {prev : Address} {digest : Word}

theorem checkSigners_iff {E : Type} {bundle : List E} (signer : E → Address) (sig : E → List UInt8) :
    checkSigners evm staking digest prev (bundle.map signer) (bundle.map sig) = .ok () ↔
      (prev :: bundle.map signer).Pairwise (· < ·) ∧ ∀ entry ∈ bundle,
        (staking.entry (signer entry)).state = .active ∧ recoverSigner evm digest (sig entry) = signer entry := by
  induction bundle generalizing prev with
  | nil => simp [checkSigners]
  | cons entry bundle ih =>
    simp only [List.map_cons,checkSigners,bind_ok,require_and,ih]
    constructor
    · rintro ⟨above,active,recovered,ascending,behind⟩
      refine ⟨List.pairwise_cons.mpr ⟨?_,ascending⟩,?_⟩
      · intro later inside
        rcases List.mem_cons.mp inside with rfl | inside
        · exact above
        · exact BitVec.lt_trans above ((List.pairwise_cons.mp ascending).1 later inside)
      · intro other inside
        rcases List.mem_cons.mp inside with rfl | inside
        · exact ⟨active,recovered⟩
        · exact behind other inside
    · rintro ⟨ascending,behind⟩
      obtain ⟨above,ascending⟩ := List.pairwise_cons.mp ascending
      obtain ⟨active,recovered⟩ := behind _ List.mem_cons_self
      exact ⟨above _ List.mem_cons_self,active,recovered,ascending,fun other inside =>
        behind other (List.mem_cons_of_mem _ inside)⟩

theorem checkSigners_ok (paired : signers.length = sigs.length)
    (ok : checkSigners evm staking digest prev signers sigs = .ok ()) :
    (prev :: signers).Pairwise (· < ·) ∧ ∀ signer ∈ signers,
      (staking.entry signer).state = .active ∧ ∃ sig ∈ sigs, recoverSigner evm digest sig = signer := by
  obtain ⟨bundle,rfl,rfl⟩ : ∃ bundle : List (Address × List UInt8), signers = bundle.map Prod.fst ∧
      sigs = bundle.map Prod.snd :=
    ⟨signers.zip sigs,(map_fst_zip paired.le).symm,(map_snd_zip paired.ge).symm⟩
  obtain ⟨ascending,behind⟩ := (checkSigners_iff Prod.fst Prod.snd).mp ok
  refine ⟨ascending,?_⟩
  intro signer inside
  obtain ⟨entry,given,rfl⟩ := List.mem_map.mp inside
  obtain ⟨active,recovered⟩ := behind entry given
  exact ⟨active,entry.2,List.mem_map_of_mem given,recovered⟩

theorem checkQuorum_iff {signers active : Nat} :
    checkQuorum signers active = .ok () ↔ signers * 3 < 2 ^ 256 ∧ active * 2 < 2 ^ 256 ∧ active * 2 ≤ signers * 3 := by
  simp only [checkQuorum,bind_ok,checkedMul_ok]
  constructor
  · rintro ⟨_,⟨weight,rfl⟩,_,⟨bound,rfl⟩,ok⟩
    split_ifs at ok with few
    · simp at ok
    · exact ⟨weight,bound,Nat.le_of_not_lt few⟩
  · rintro ⟨weight,bound,enough⟩
    exact ⟨_,⟨weight,rfl⟩,_,⟨bound,rfl⟩,by rw [if_neg (Nat.not_lt.mpr enough)]; rfl⟩

theorem activeAccounts_le_countActive (listed : staking.roster.Listed) : staking.activeAccounts.card ≤ countActive staking := by
  rw [countActive,countP_eq_length_filter]
  refine le_trans (card_le_card ?_) (toFinset_card_le _)
  intro account active
  have standing := (staking.mem_activeAccounts account).mp active
  rw [mem_toFinset,List.mem_filter]
  exact ⟨listed account (.inr standing),decide_eq_true standing⟩

theorem listed_next (world : World) (event : Tx × Call) (listed : world.staking.roster.Listed) :
    (world.next evm self event).staking.roster.Listed :=
  roster_next (fun _ _ _ kept allowed => kept.step allowed) world event listed

theorem listed_deploy (deployed : World.deploy evm accounts = .ok (start,logs)) : start.staking.roster.Listed := by
  intro account standing
  have blank : start.staking.entry account = .blank := by
    rw [deploy_staking deployed,entry_deploy]
  rcases standing with waiting | active
  · cases (congrArg ValidatorEntry.state blank).symm.trans waiting
  · cases (congrArg ValidatorEntry.state blank).symm.trans active

theorem listed_run (deployed : World.deploy evm accounts = .ok (start,logs))
    (events : List (Tx × Call)) : (run (next evm self) start events).staking.roster.Listed :=
  kept_run (fun world : World => world.staking.roster.Listed) events (fun world event _ => listed_next world event) start
    (listed_deploy deployed)

theorem nonces_next (world : World) (event : Tx × Call) :
    world.staking.consensusNonceUsed ⊆ (world.next evm self event).staking.consensusNonceUsed := by
  rcases perform_cases evm self world event with ⟨final,logs,done⟩ | ⟨-,same⟩
  · obtain ⟨_,_,refines⟩ := call_refines done
    rw [next_of_ok done]
    exact refines.nonces
  · rw [next,same]

theorem nonces_run (world : World) (events : List (Tx × Call)) :
    world.staking.consensusNonceUsed ⊆ (run (next evm self) world events).staking.consensusNonceUsed := by
  induction events generalizing world with
  | nil => exact subset_rfl
  | cons event events ih => exact (nonces_next world event).trans (ih _)

theorem approveByConsensus_ok (ok : world.approveByConsensus evm tx applicant nonce signers sigs = .ok result) :
    let digest := consensusMessageHash evm world.staking applicant (world.staking.entry applicant).stake nonce
    (applicant,nonce) ∉ world.staking.consensusNonceUsed ∧
      (applicant,nonce) ∈ result.1.staking.consensusNonceUsed ∧
      signers.length = sigs.length ∧ checkSigners evm world.staking digest 0 signers sigs = .ok () ∧
      2 * countActive world.staking ≤ 3 * signers.length := by
  simp only [approveByConsensus,bind_ok,require_and,pure_ok] at ok
  obtain ⟨_,_,_,_,_,unused,⟨_,paired⟩,_,checked,_,quorum,rfl⟩ := ok
  have enough := (checkQuorum_iff.mp quorum).2.2
  exact ⟨unused,Finset.mem_insert_self _ _,paired,checked,by omega⟩

theorem approveByConsensus_iff : (∃ result, world.approveByConsensus evm tx applicant nonce signers sigs = .ok result) ↔
    let v := world.staking.entry applicant
    (v.state = .pending ∧ world.staking.minValidatorStake ≤ v.stake ∧ (applicant,nonce) ∉ world.staking.consensusNonceUsed) ∧
      (v.appliedAt + Staking.applicationTimeout < 2 ^ 256 ∧ tx.timestamp < v.appliedAt + Staking.applicationTimeout) ∧
      (signers.length ≠ 0 ∧ signers.length = sigs.length) ∧
      checkSigners evm world.staking (consensusMessageHash evm world.staking applicant v.stake nonce) 0 signers sigs = .ok () ∧
      checkQuorum signers.length (countActive world.staking) = .ok () := by
  simp only [approveByConsensus,bind_ok,require_and,pure_ok,checkedAdd_ok]
  constructor
  · rintro ⟨_,pending,enough,_,⟨fits,rfl⟩,early,unused,paired,_,checked,_,quorum,_⟩
    exact ⟨⟨pending,enough,unused⟩,⟨fits,early⟩,paired,checked,quorum⟩
  · rintro ⟨⟨pending,enough,unused⟩,⟨fits,early⟩,paired,checked,quorum⟩
    exact ⟨_,pending,enough,_,⟨fits,rfl⟩,early,unused,paired,(),checked,(),quorum,rfl⟩

theorem nonce_spent {earlier later : List (Tx × Call)}
    (done : (run (next evm self) start earlier).call evm self tx (.approveByConsensus applicant nonce signers sigs) =
      .ok result) :
    (applicant,nonce) ∈ (run (next evm self) start
      (earlier ++ (tx,.approveByConsensus applicant nonce signers sigs) :: later)).staking.consensusNonceUsed := by
  rw [run_append,run_cons,next_of_ok done]
  exact nonces_run _ _ (approveByConsensus_ok done).2.1

/-- Who is admitted by consensus was signed for by distinct active accounts, at least two thirds
of all, and never before under this nonce. -/
theorem consensus_admission_sound {accounts : Accounts} {start : World} {logs : List Log}
    (deployed : World.deploy evm accounts = .ok (start,logs)) (events : List (Tx × Call)) (tx : Tx)
    (applicant : Address) (nonce : Nat) (signers : List Address) (sigs : List (List UInt8))
    (signed : Address → Word → Prop) {world : World} (reached : world = run (next evm accounts.staking) start events)
    (unforged : ∀ sig ∈ sigs,
      let digest := consensusMessageHash evm world.staking applicant (world.staking.entry applicant).stake nonce
      recoverSigner evm digest sig ≠ 0 → signed (recoverSigner evm digest sig) digest)
    {result : World × List Log}
    (ok : world.call evm accounts.staking tx (.approveByConsensus applicant nonce signers sigs) = .ok result) :
    Approved evm signed world.staking applicant nonce signers ∧
      ∀ earlier later past others proofs, events = earlier ++ (past,.approveByConsensus applicant nonce others proofs) :: later →
        ∀ outcome, (run (next evm accounts.staking) start earlier).call evm accounts.staking past
          (.approveByConsensus applicant nonce others proofs) ≠ .ok outcome := by
  obtain ⟨unused,_,paired,checked,quorum⟩ := approveByConsensus_ok ok
  obtain ⟨ascending,behind⟩ := checkSigners_ok paired checked
  obtain ⟨above,ascending⟩ := List.pairwise_cons.mp ascending
  have nonzero : ∀ signer ∈ signers, signer ≠ 0 := by
    intro signer inside zero
    exact BitVec.lt_irrefl 0 (zero ▸ above signer inside)
  refine ⟨⟨?_,nonzero,fun signer inside => (behind signer inside).1,?_,?_⟩,?_⟩
  · refine ascending.imp ?_
    rintro signer _ less rfl
    exact BitVec.lt_irrefl signer less
  · intro signer inside
    obtain ⟨_,sig,given,recovered⟩ := behind signer inside
    have own := unforged sig given
    dsimp only at own
    rw [recovered] at own
    exact own (nonzero signer inside)
  · have listed : world.staking.roster.Listed := by
      rw [reached]
      exact listed_run deployed events
    have counted := activeAccounts_le_countActive listed
    omega
  · rintro earlier later past others proofs rfl outcome done
    rw [reached] at unused
    exact unused (nonce_spent done)

end World

namespace Small
def applied : List (Tx × Call) := (joining 10 100 ++ joining 11 200).take 5

def admission : Call := .approveByConsensus 11 0 [10] [List.replicate 65 0]

theorem second_validator_admitted :
    ∃ result, (run (World.next evm 2) start applied).call evm 2 (tx 12 300 0) admission = .ok result ∧
      Approved evm (fun signer _ => signer = 10) (run (World.next evm 2) start applied).staking 11 0 [10] := by
  obtain ⟨logs,deployed⟩ := deployed
  have succeeds : ((run (World.next evm 2) start applied).call evm 2 (tx 12 300 0) admission).isOk := by
    decide +kernel
  obtain ⟨result,ok⟩ := isOk_iff.mp succeeds
  refine ⟨result,ok,?_⟩
  refine (World.consensus_admission_sound deployed applied (tx 12 300 0) 11 0 [10] [List.replicate 65 0] _ rfl ?_ ok).1
  intro sig given _
  rw [List.mem_singleton.mp given]
  decide +kernel

end Small
end ChainRegistry
