import ChainRegistry.Contracts.GovernanceEffects
import ChainRegistry.Lib.SwapRemove

/-! Who carries a decision of the multisig: the approvals of a proposal when it is executed,
and its voting period when it is cancelled. -/
namespace ChainRegistry
open Lib Runs Finset

namespace Governance
variable {self : Address} {msg : Msg} {gov next : Governance} {call : Call} {signers : List Address}
  {start : Governance} {threshold : Nat} {approve : Bool} {p q : Proposal}

structure Proposal.Counted (p : Proposal) : Prop where
  count : p.approvalCount = p.approval.card
  voters : p.approval ⊆ p.voted

def Counted (gov : Governance) : Prop := ∀ id, Proposal.Counted (gov.proposal id)

theorem Recorded.counted (recorded : Recorded msg approve p q)
    (fresh : msg.sender ∉ p.voted) (counted : Proposal.Counted p) : Proposal.Counted q := by
  have absent : msg.sender ∉ p.approval := fun inside => fresh (counted.voters inside)
  constructor
  · rw [recorded.approvalCount,recorded.approval,counted.count]
    cases approve with
    | true => exact (card_insert_of_notMem absent).symm
    | false => exact congrArg Finset.card (erase_eq_of_notMem absent).symm
  · rw [recorded.approval,recorded.voted]
    cases approve with
    | true => exact insert_subset_insert _ counted.voters
    | false => exact (erase_subset _ _).trans (counted.voters.trans (subset_insert _ _))

theorem Proposal.Counted.settled {q : Proposal} (counted : Proposal.Counted q) (gov : Governance) (now : Nat) :
    Proposal.Counted (settled gov now q) := by
  unfold Governance.settled
  split_ifs
  · exact ⟨counted.count,counted.voters⟩
  · exact counted

theorem Counted.setProposal (counted : gov.Counted) {id : Nat} {p : Proposal} (own : Proposal.Counted p) :
    (gov.setProposal id p).Counted := by
  intro other
  rw [proposal_setProposal]
  split_ifs
  · exact own
  · exact counted other

theorem Counted.effect (counted : gov.Counted) (effect : Effect self msg gov call next) : next.Counted := by
  cases effect with
  | submits active signer =>
    exact counted.setProposal ⟨(counted gov.proposalCount).count,(counted gov.proposalCount).voters⟩
  | votes signer pending inRange inTime fresh recorded =>
    exact counted.setProposal ((recorded.counted fresh (counted _)).settled gov msg.timestamp)
  | cancels signer pending => exact counted.setProposal ⟨(counted _).count,(counted _).voters⟩
  | _ => exact counted

theorem Counted.acting (counted : gov.Counted) (event : Act) : (acting self gov event).Counted := by
  rcases acting_cases self gov event with effect | same
  · exact counted.effect effect
  · rw [same]
    exact counted

theorem deploy_ok (ok : deploy signers threshold = .ok start) :
    start.proposals = ∅ ∧ start.systemStatus = .active ∧ start.pausedAt = 0 ∧ start.openPauseRequest = ⟨0,0,0,"",0⟩ ∧
      start.pauseRequestCoSigners = ∅ := by
  simp only [deploy,Fallible.bind_ok,require_and,Fallible.pure_ok] at ok
  obtain ⟨_,_,rfl⟩ := ok
  exact ⟨rfl,rfl,rfl,rfl,rfl⟩

theorem counted_deploy (ok : deploy signers threshold = .ok start) : start.Counted := by
  intro id
  rw [proposal,(deploy_ok ok).1,Ledger.read_empty]
  exact ⟨rfl,Finset.Subset.refl _⟩

/-- The act makes a proposal executed only with the approval of enough signers, and cancelled
only when its time is over without it. -/
def Authority (self : Address) (gov : Governance) (event : Act) : Prop :=
  let next := acting self gov event
  ∀ id,
    ((gov.proposal id).status ≠ .executed → (next.proposal id).status = .executed →
      next.threshold ≤ ((next.proposal id).approval ∩ next.isSigner).card) ∧
    ((gov.proposal id).status ≠ .cancelled → (next.proposal id).status = .cancelled →
      (gov.proposal id).submittedAt + gov.votingPeriod < event.1.timestamp ∧ (gov.proposal id).approval.card < gov.threshold)

/-- A vote that may decide finds all who approved the proposal among the signers still, and
what is cancelled has expired below the threshold. -/
def Guarded (gov : Governance) (event : Act) : Prop :=
  match event.2 with
  | .vote id _ => gov.threshold ≤ (gov.proposal id).approvalCount + 1 → (gov.proposal id).approval ⊆ gov.isSigner
  | .cancel id => (gov.proposal id).submittedAt + gov.votingPeriod < event.1.timestamp ∧
      (gov.proposal id).approvalCount < gov.threshold
  | _ => True

instance (gov : Governance) (event : Act) : Decidable (Guarded gov event) :=
  match event with
  | (_,.vote _ _) => inferInstanceAs (Decidable (_ → _))
  | (_,.cancel _) => inferInstanceAs (Decidable (_ ∧ _))
  | (_,.openPauseRequest _) | (_,.confirmPauseRequest) | (_,.expirePauseRequest) | (_,.emergencyPause _) => isTrue trivial
  | (_,.emergencyUnpause) | (_,.submit _ _ _) | (_,.addSigner _) | (_,.removeSigner _) | (_,.updateThreshold _) | (_,.view) =>
    isTrue trivial

theorem Recorded.enough (recorded : Recorded msg approve p q)
    (signer : msg.sender ∈ gov.isSigner) (fresh : msg.sender ∉ p.voted) (counted : Proposal.Counted p)
    (standing : gov.threshold ≤ p.approvalCount + 1 → p.approval ⊆ gov.isSigner)
    (reached : gov.threshold ≤ q.approvalCount) : gov.threshold ≤ (q.approval ∩ gov.isSigner).card := by
  have after := recorded.counted fresh counted
  have near : gov.threshold ≤ p.approvalCount + 1 := by
    rw [recorded.approvalCount] at reached
    split_ifs at reached
    · exact reached
    · omega
  have signers : q.approval ⊆ gov.isSigner := by
    rw [recorded.approval]
    cases approve with
    | true => exact insert_subset signer (standing near)
    | false => exact (erase_subset _ _).trans (standing near)
  rw [inter_eq_left.mpr signers,← after.count]
  exact reached

inductive Change (self : Address) (msg : Msg) (gov next : Governance) (id : Nat) : Call → Prop
  | kept {call : Call} (same : (next.proposal id).status = (gov.proposal id).status) : Change self msg gov next id call
  | submitted {call : Call} (pending : (next.proposal id).status = .pending) : Change self msg gov next id call
  | executed {approve : Bool} {q : Proposal} (signer : msg.sender ∈ gov.isSigner) (fresh : msg.sender ∉ (gov.proposal id).voted)
    (recorded : Recorded msg approve (gov.proposal id) q) (reached : gov.threshold ≤ q.approvalCount)
    (stored : next = gov.setProposal id {q with status := .executed, executedAt := msg.timestamp}) :
    Change self msg gov next id (.vote id approve)
  | cancelled (ended : (next.proposal id).status = .cancelled) : Change self msg gov next id (.cancel id)

theorem Effect.change (effect : Effect self msg gov call next) (id : Nat) : Change self msg gov next id call := by
  cases effect with
  | submits active signer =>
    by_cases own : id = gov.proposalCount
    · refine .submitted ?_
      change ((gov.setProposal _ _).proposal id).status = _
      rw [proposal_setProposal,if_pos own]
      rfl
    · refine .kept ?_
      change ((gov.setProposal _ _).proposal id).status = _
      rw [proposal_setProposal,if_neg own]
  | @votes voted approve q signer pending inRange inTime fresh recorded =>
    by_cases own : id = voted
    · subst own
      unfold settled
      split_ifs with reached
      · exact .executed signer fresh recorded reached rfl
      · refine .kept ?_
        rw [proposal_setProposal,if_pos rfl,recorded.status]
    · refine .kept ?_
      rw [proposal_setProposal,if_neg own]
  | @cancels ended signer pending =>
    by_cases own : id = ended
    · subst own
      refine .cancelled ?_
      rw [proposal_setProposal,if_pos rfl]
    · refine .kept ?_
      rw [proposal_setProposal,if_neg own]
  | _ => exact .kept rfl

theorem authority_step (counted : gov.Counted) (event : Act) (guarded : Guarded gov event) : Authority self gov event := by
  intro id
  obtain ⟨msg,call⟩ := event
  have change : Change self msg gov (acting self gov (msg,call)) id call := by
    rcases acting_cases self gov (msg,call) with effect | same
    · exact effect.change id
    · rw [same]
      exact .kept rfl
  generalize acting self gov (msg,call) = next at change ⊢
  cases change with
  | kept same =>
    rw [same]
    exact ⟨fun before after => absurd after before,fun before after => absurd after before⟩
  | submitted pending =>
    rw [pending]
    exact ⟨fun _ => nofun,fun _ => nofun⟩
  | @executed approve q signer fresh recorded reached stored =>
    have own : next.proposal id = {q with status := .executed, executedAt := msg.timestamp} := by
      rw [stored,proposal_setProposal,if_pos rfl]
    rw [own]
    refine ⟨fun _ _ => ?_,fun _ => nofun⟩
    rw [stored]
    exact recorded.enough signer fresh (counted id) guarded reached
  | cancelled ended =>
    rw [ended]
    refine ⟨fun _ => nofun,fun _ _ => ?_⟩
    rw [← (counted id).count]
    exact guarded

/-- If all votes and cancellations are guarded: what is executed has the approval of enough
signers, and what is cancelled had its time. -/
theorem multisig_authority {decode : List UInt8 → Option Call} {signers : List Address} {threshold : Nat} {start : Governance}
    (deployed : deploy signers threshold = .ok start) (events : List (Event self))
    (guarded : Along (acting self) Guarded start (history decode start events)) :
    Along (acting self) (Authority self) start (history decode start events) :=
  along_invariant (fun _ event counted _ => counted.acting event) (fun _ event counted => authority_step counted event)
    start _ (counted_deploy deployed) guarded

/-- A proposal that has been submitted and decided is never written again. -/
theorem decision_final {id : Nat} (known : id < gov.proposalCount) (decided : (gov.proposal id).status ≠ .pending)
    (acts : List Act) :
    (run (acting self) gov acts).proposal id = gov.proposal id := by
  have step : ∀ before event, id < before.proposalCount ∧ before.proposal id = gov.proposal id →
      id < (acting self before event).proposalCount ∧ (acting self before event).proposal id = gov.proposal id := by
    rintro before ⟨msg,call⟩ ⟨known,same⟩
    rcases acting_cases self before (msg,call) with effect | still
    · generalize acting self before (msg,call) = after at effect ⊢
      rw [← same] at decided ⊢
      cases effect with
      | submits => exact ⟨known.trans (Nat.lt_succ_self _),(proposal_setProposal ..).trans (if_neg known.ne)⟩
      | votes _ pending | cancels _ pending =>
        refine ⟨known,(proposal_setProposal ..).trans (if_neg ?_)⟩
        rintro rfl
        exact decided pending
      | _ => exact ⟨known,rfl⟩
    · rw [still]
      exact ⟨known,same⟩
  exact (always_run step gov acts ⟨known,rfl⟩).2

structure Able (gov : Governance) : Prop where
  distinct : gov.signers.Nodup
  members : gov.isSigner = gov.signers.toFinset
  positive : 0 < gov.threshold
  enough : gov.threshold ≤ gov.signers.length

theorem Able.act (able : gov.Able) (ok : act self msg gov call = .ok next) : next.Able := by
  cases call with
  | addSigner newSigner =>
    simp only [Governance.act,addSigner,Fallible.bind_ok,require_and,Fallible.pure_ok] at ok
    obtain ⟨_,absent,rfl⟩ := ok
    rw [able.members,List.mem_toFinset] at absent
    exact ⟨by simpa using able.distinct.concat absent,by simp [able.members],able.positive,able.enough.trans (by simp)⟩
  | removeSigner signer =>
    simp only [Governance.act,removeSigner,Fallible.bind_ok,require_and,checkedSub_ok,Fallible.pure_ok] at ok
    obtain ⟨_,inside,_,⟨_,rfl⟩,left,rfl⟩ := ok
    rw [able.members,List.mem_toFinset] at inside
    have same : (signer :: swapRemove signer gov.signers).Perm gov.signers := swapRemove_perm inside
    have apart := List.nodup_cons.mp (same.nodup_iff.mpr able.distinct)
    refine ⟨apart.2,?_,able.positive,?_⟩
    · change gov.isSigner.erase signer = _
      rw [able.members,← List.toFinset_eq_of_perm _ _ same,List.toFinset_cons,erase_insert (by simpa using apart.1)]
    · have length := same.length_eq
      rw [List.length_cons] at length
      change gov.threshold ≤ (swapRemove signer gov.signers).length
      omega
  | updateThreshold newThreshold =>
    simp only [Governance.act,updateThreshold,Fallible.bind_ok,require_and,Fallible.pure_ok] at ok
    obtain ⟨_,⟨positive,enough⟩,rfl⟩ := ok
    exact ⟨able.distinct,able.members,positive,enough⟩
  | _ => cases act_ok ok <;> exact ⟨able.1,able.2,able.3,able.4⟩

theorem Able.acting (gov : Governance) (event : Act) (able : gov.Able) : (acting self gov event).Able := by
  unfold Governance.acting
  split
  · next done => exact able.act done
  · exact able

/-- A council of distinct signers never has a threshold that its signers cannot reach. -/
theorem council_able (deployed : deploy signers threshold = .ok start) (distinct : signers.Nodup) (acts : List Act) :
    Throughout (acting self) (fun gov => 0 < gov.threshold ∧ gov.threshold ≤ gov.isSigner.card) start acts := by
  simp only [deploy,Fallible.bind_ok,require_and,Fallible.pure_ok] at deployed
  obtain ⟨enough,positive,rfl⟩ := deployed
  refine throughout_always Able.acting ?_ _ acts ⟨distinct,rfl,positive,enough⟩
  intro gov able
  rw [able.members,List.toFinset_card_of_nodup able.distinct]
  exact ⟨able.positive,able.enough⟩

end Governance

namespace Council
open Governance

def removing : List (Event 1) :=
  [tx11 20 (.submit 1 (removal 10) "remove 10"),tx11 21 (.vote 0 true),tx12 22 (.vote 0 true)]

theorem removal_authorised : Along (acting 1) (Authority 1) start (history decode start removing) :=
  multisig_authority deployed removing (by decide +kernel)

theorem removal_final : let after := run (acting 1) start (history decode start removing)
    (run (acting 1) after [(⟨12,30⟩,.cancel 0),(⟨10,31⟩,.vote 0 false)]).proposal 0 = after.proposal 0 :=
  decision_final (by decide +kernel) (by decide +kernel) _

theorem council_able_after_removal : Throughout (acting 1) (fun gov => 0 < gov.threshold ∧
    gov.threshold ≤ gov.isSigner.card) start
    (history decode start removing) := council_able deployed (by decide) _

def stale : List (Event 1) :=
  [tx10 10 (.submit 5 [] "pay"),tx10 11 (.vote 0 true),tx11 20 (.submit 1 (removal 10) "remove 10"),tx11 21 (.vote 1 true),
    tx12 22 (.vote 1 true)]

def decisive : Act := (⟨11,30⟩,.vote 0 true)

def hasty : List (Event 1) := [tx10 10 (.submit 5 [] "pay")]

def cancelling : Act := (⟨11,11⟩,.cancel 0)

theorem decided_without_authority : Governance.deploy [10,11,12] 2 = .ok start ∧
    ¬Along (acting 1) (Authority 1) start (history decode start (stale ++ [tx11 30 (.vote 0 true)])) ∧
    ¬Along (acting 1) (Authority 1) start (history decode start (hasty ++ [tx11 11 (.cancel 0)])) := by
  have first : history decode start (stale ++ [tx11 30 (.vote 0 true)]) = history decode start stale ++ [decisive] := by
    decide +kernel
  have second : history decode start (hasty ++ [tx11 11 (.cancel 0)]) = history decode start hasty ++ [cancelling] := by
    decide +kernel
  refine ⟨deployed,?_,?_⟩
  · rw [first,along_append]
    rintro ⟨_,authorised,_⟩
    exact absurd ((authorised 0).1 (by decide +kernel) (by decide +kernel)) (by decide +kernel)
  · rw [second,along_append]
    rintro ⟨_,authorised,_⟩
    exact absurd ((authorised 0).2 (by decide +kernel) (by decide +kernel)) (by decide +kernel)

end Council
end ChainRegistry
