import ChainRegistry.Contracts.GovernanceV2

/-! How many votes a proposal can get. A vote counts the balance of its account at that moment;
the sum is within the supply as long as no tokens go from those who have voted to those who
have not. -/
namespace ChainRegistry
open Lib Runs Fallible Finset GovernanceV2.Proposal

namespace CregToken
variable {token after : CregToken} {logs : List Log} {src dst : Address} {value : Nat}

theorem Moved.sum (moved : Moved token src dst value after logs) (accounts : Finset Address) :
    ∑ account ∈ accounts, after.balanceOf account + (if src ∈ accounts then value else 0) =
      ∑ account ∈ accounts, token.balanceOf account + if dst ∈ accounts then value else 0 := by
  have each : ∀ account, after.balanceOf account + (if account = src then value else 0) =
      token.balanceOf account + if account = dst then value else 0 := by
    intro account
    have covered := moved.covered
    rw [moved.balances,shifted]
    by_cases first : account = src
    · subst first
      by_cases loop : account = dst
      · rw [if_pos loop,if_pos rfl,if_pos loop]
      · rw [if_neg loop,if_pos rfl,if_pos rfl,if_neg loop]
        omega
    · by_cases loop : src = dst
      · rw [if_pos loop,loop]
      · rw [if_neg loop,if_neg first,if_neg first]
        split_ifs <;> rfl
  have summed := sum_congr (rfl : accounts = accounts) fun account _ => each account
  rw [sum_add_distrib,sum_add_distrib,sum_ite_eq',sum_ite_eq'] at summed
  exact summed

theorem Moved.sum_le (moved : Moved token src dst value after logs) {accounts : Finset Address}
    (stays : 0 < value → src ∈ accounts → dst ∈ accounts) :
    ∑ account ∈ accounts, token.balanceOf account ≤ ∑ account ∈ accounts, after.balanceOf account := by
  have changes := moved.sum accounts
  by_cases zero : value = 0
  · subst zero
    rw [ite_self,ite_self] at changes
    exact changes.ge
  · by_cases out : src ∈ accounts
    · rw [if_pos out,if_pos (stays (Nat.pos_of_ne_zero zero) out)] at changes
      omega
    · rw [if_neg out] at changes
      omega

end CregToken

namespace GovernanceV2
def Proposal.voted (proposal : Proposal) (account : Address) : Bool := (proposal.receipt account).hasVoted

end GovernanceV2

namespace VotingWorld
variable {evm : Evm} {self : Address} {world after : VotingWorld} {tx : VotingTx} {id : Nat} {gov : GovernanceV2}

def Plain : VotingCall → Prop
  | .gov (.setQuadraticVoting enabled) => enabled = false
  | .token (.mint _ _) => False
  | .token (.burn _) => False
  | _ => True

def Holds (id : Nat) (world : VotingWorld) (src dst : Address) (value : Nat) : Prop :=
  0 < value → (world.gov.proposal id).voted src → (world.gov.proposal id).voted dst

def Rests (id : Nat) (world : VotingWorld) (tx : VotingTx) : VotingCall → Prop
  | .token (.transfer dst value) => world.Holds id tx.sender dst value
  | .token (.transferFrom src dst value) => world.Holds id src dst value
  | _ => True

variable (evm self) in
def Voting (world : VotingWorld) (event : VotingTx × VotingCall) : Prop :=
  (world.call evm self event.1 event.2).isOk → Plain event.2

variable (evm self) in
def Unmoved (id : Nat) (world : VotingWorld) (event : VotingTx × VotingCall) : Prop :=
  (world.call evm self event.1 event.2).isOk → world.Rests id event.1 event.2

structure Reached (world : VotingWorld) : Prop where
  supplied : world.token.Supplied
  untimed : world.Untimed

theorem Reached.next (reached : world.Reached) (event : VotingTx × VotingCall) : (world.next evm self event).Reached := by
  refine ⟨?_,reached.untimed.next event⟩
  rw [VotingWorld.next]
  cases done : world.call evm self event.1 event.2 with
  | error _ => exact reached.supplied
  | ok after =>
    obtain ⟨_,gov,_,_,rfl⟩ | ⟨_,token,_,_,moved,rfl⟩ := reached.untimed.call_cases done
    · exact reached.supplied
    · exact CregToken.call_supplied moved reached.supplied

theorem Reached.run (reached : world.Reached) (events : List (VotingTx × VotingCall)) :
    (run (VotingWorld.next evm self) world events).Reached := by
  have keeps : ∀ (world : VotingWorld) (event : VotingTx × VotingCall), world.Reached → (world.next evm self event).Reached :=
    fun _ event kept => kept.next event
  exact always_run keeps world events reached

def Backed (id : Nat) (world : VotingWorld) : Prop :=
  ∃ voters : Finset Address, (∀ account, account ∈ voters ↔ (world.gov.proposal id).voted account) ∧
    (world.gov.proposal id).tally ≤ ∑ account ∈ voters, world.token.balanceOf account

section
variable (backed : world.Backed id)
include backed

theorem Backed.le_supply (supplied : world.token.Supplied) : (world.gov.proposal id).tally ≤ world.token.totalSupply := by
  obtain ⟨voters,_,covered⟩ := backed
  rw [← supplied.total]
  exact covered.trans (Ledger.sum_le_total (fun amount : Nat => amount) rfl world.token.balances voters)

theorem Backed.of_same (tally : (gov.proposal id).tally = (world.gov.proposal id).tally)
    (voted : ∀ account, (gov.proposal id).voted account = (world.gov.proposal id).voted account) :
    Backed id {world with gov := gov} := by
  obtain ⟨voters,exactly,covered⟩ := backed
  refine ⟨voters,?_,tally.trans_le covered⟩
  intro account
  rw [exactly,← voted]

theorem Backed.of_kept (kept : gov.proposal id = world.gov.proposal id) : Backed id {world with gov := gov} := by
  apply backed.of_same
  · rw [kept]
  · intro account
    rw [kept]

theorem Backed.of_vote {voter : Address} {counted : GovernanceV2.Proposal}
    (written : gov.proposals = world.gov.proposals.insert id counted) (unvoted : (world.gov.proposal id).voted voter = false)
    (casts : GovernanceV2.Proposal.Casts voter (world.token.balanceOf voter) (world.gov.proposal id) counted) :
    Backed id {world with gov := gov} := by
  obtain ⟨voters,exactly,covered⟩ := backed
  have now : gov.proposal id = counted := by rw [GovernanceV2.proposal_of_insert written,if_pos rfl]
  have fresh : voter ∉ voters := by
    rw [exactly,unvoted]
    exact Bool.false_ne_true
  refine ⟨insert voter voters,?_,?_⟩
  · intro account
    rw [now,GovernanceV2.Proposal.voted,casts.hasVoted,mem_insert,exactly]
    by_cases same : account = voter
    · simp only [same,true_or,if_true]
    · rw [if_neg same,or_iff_right same]
      rfl
  · change (gov.proposal id).tally ≤ ∑ account ∈ insert voter voters, world.token.balanceOf account
    rw [now,casts.tally,sum_insert fresh]
    omega

theorem Backed.of_changes (off : world.gov.quadraticVotingEnabled = false)
    (changes : GovernanceV2.Changes world.token world.gov gov) : Backed id {world with gov := gov} := by
  cases changes with
  | none same =>
    apply backed.of_kept
    rw [GovernanceV2.proposal,same]
    rfl
  | edit other edited written tally receipts votingEndTimestamp =>
    have reads := GovernanceV2.proposal_of_insert written id
    by_cases same : id = other
    · subst same
      rw [if_pos rfl] at reads
      apply backed.of_same
      · rw [reads,tally]
      · intro account
        rw [reads,GovernanceV2.Proposal.voted,receipt,receipts]
        rfl
    · rw [if_neg same] at reads
      exact backed.of_kept reads
  | vote other voter votes counted written unvoted power casts =>
    by_cases same : id = other
    · subst same
      rw [GovernanceV2.votingPower,off] at power
      cases power
      exact backed.of_vote written unvoted casts
    · have reads := GovernanceV2.proposal_of_insert written id
      rw [if_neg same] at reads
      exact backed.of_kept reads

theorem Backed.of_token {tx : VotingTx} {call : TokenCall} {token : CregToken} {logs : List Log}
    (plain : Plain (.token call)) (rests : world.Rests id tx (.token call))
    (done : world.token.call evm ⟨tx.sender,tx.timestamp,call⟩ = .ok (token,logs)) : Backed id {world with token := token} := by
  obtain ⟨voters,exactly,covered⟩ := backed
  refine ⟨voters,exactly,covered.trans ?_⟩
  have stays : ∀ {src dst : Address} {value : Nat}, world.Holds id src dst value → 0 < value → src ∈ voters → dst ∈ voters := by
    intro src dst value holds positive voted
    exact (exactly dst).mpr (holds positive ((exactly src).mp voted))
  cases call with
  | transfer dst value => exact (CregToken.move_ok done).sum_le (stays rests)
  | transferFrom src dst value => exact (CregToken.transferFrom_ok done).2.sum_le (stays rests)
  | approve spender value =>
    cases done
    exact le_refl _
  | permit owner spender value deadline v r s =>
    simp only [CregToken.call,CregToken.permit,bind_ok,require_and,pair_ok] at done
    obtain ⟨_,_,_,_,rfl,_⟩ := done
    exact le_refl _
  | mint | burn => exact plain.elim
  | transferOwnership newOwner =>
    simp only [CregToken.call,CregToken.transferOwnership,bind_ok,require_and,pair_ok] at done
    obtain ⟨_,_,rfl,_⟩ := done
    exact le_refl _

end

structure Counting (id : Nat) (world : VotingWorld) : Prop where
  reached : world.Reached
  off : world.gov.quadraticVotingEnabled = false
  backed : world.Backed id

theorem Counting.call {tx : VotingTx} {call : VotingCall} (counting : world.Counting id) (plain : Plain call)
    (rests : world.Rests id tx call) (done : world.call evm self tx call = .ok after) :
    after.gov.quadraticVotingEnabled = false ∧ after.Backed id := by
  obtain ⟨act,gov,rfl,acts,rfl⟩ | ⟨act,token,logs,rfl,moved,rfl⟩ := counting.reached.untimed.call_cases done
  · refine ⟨?_,counting.backed.of_changes counting.off acts.changes⟩
    rcases acts.voting with same | set
    · exact same.trans counting.off
    · subst set
      exact plain
  · exact ⟨counting.off,counting.backed.of_token plain rests moved⟩

theorem Counting.next (counting : world.Counting id) {event : VotingTx × VotingCall} (voting : world.Voting evm self event)
    (unmoved : world.Unmoved evm self id event) : (world.next evm self event).Counting id := by
  have reached : (world.next evm self event).Reached := counting.reached.next event
  rw [VotingWorld.next] at reached ⊢
  cases done : world.call evm self event.1 event.2 with
  | error _ => exact counting
  | ok after =>
    rw [done] at reached
    have succeeds : (world.call evm self event.1 event.2).isOk := isOk_iff.mpr ⟨after,done⟩
    have kept := counting.call (voting succeeds) (unmoved succeeds) done
    exact ⟨reached,kept.1,kept.2⟩

theorem deploy_reached {sender treasury team investors community tokenAddress admin : Address} {token : CregToken}
    {logs : List Log} (deployed : CregToken.deploy evm tokenAddress sender treasury team investors community = .ok (token,logs))
    (params : GovernanceV2.ProposalParams) : Reached ⟨token,.deploy admin params⟩ :=
  ⟨CregToken.deploy_supplied deployed,deploy_untimed token admin params⟩

def Unvoted (id : Nat) (world : VotingWorld) : Prop :=
  (world.gov.proposal id).tally = 0 ∧ (world.gov.proposal id).receipts.keys = []

instance unvotedDecidable (id : Nat) (world : VotingWorld) : Decidable (world.Unvoted id) := inferInstanceAs (Decidable (_ ∧ _))

theorem Unvoted.backed (unvoted : world.Unvoted id) : world.Backed id := by
  refine ⟨∅,?_,unvoted.1.trans_le (Nat.zero_le _)⟩
  intro account
  have absent : account ∉ (world.gov.proposal id).receipts := by
    rw [AList.mem_keys,unvoted.2]
    exact List.not_mem_nil
  have blank : (world.gov.proposal id).voted account = false := by
    rw [GovernanceV2.Proposal.voted,receipt,Ledger.read,AList.lookup_eq_none.mpr absent]
    rfl
  rw [blank]
  exact iff_of_false (notMem_empty account) Bool.false_ne_true

/-- If no step of the voting moves tokens of those who have voted to others, the votes are within
the supply in every state. -/
theorem votes_within_supply {sender treasury team investors community tokenAddress admin : Address} {token : CregToken}
    {logs : List Log} (deployed : CregToken.deploy evm tokenAddress sender treasury team investors community = .ok (token,logs))
    (params : GovernanceV2.ProposalParams) (prior : List (VotingTx × VotingCall)) (id : Nat)
    (off : (run (next evm self) ⟨token,.deploy admin params⟩ prior).gov.quadraticVotingEnabled = false)
    (unvoted : Unvoted id (run (next evm self) ⟨token,.deploy admin params⟩ prior)) (events : List (VotingTx × VotingCall))
    (voting : Along (next evm self) (Voting evm self) (run (next evm self) ⟨token,.deploy admin params⟩ prior) events)
    (unmoved : Along (next evm self) (Unmoved evm self id) (run (next evm self) ⟨token,.deploy admin params⟩ prior) events) :
    Throughout (next evm self) (fun world => (world.gov.proposal id).tally ≤ world.token.totalSupply)
      (run (next evm self) ⟨token,.deploy admin params⟩ prior) events := by
  have reached : (run (next evm self) ⟨token,.deploy admin params⟩ prior).Reached := (deploy_reached deployed params).run prior
  have keeps : ∀ (world : VotingWorld) (event : VotingTx × VotingCall), world.Counting id →
      world.Voting evm self event ∧ world.Unmoved evm self id event → (world.next evm self event).Counting id :=
    fun _ _ counting meets => counting.next meets.1 meets.2
  have shows : ∀ world : VotingWorld, world.Counting id → (world.gov.proposal id).tally ≤ world.token.totalSupply :=
    fun _ counting => counting.backed.le_supply counting.reached.supplied
  exact throughout_run keeps shows _ events ⟨reached,off,unvoted.backed⟩ (along_and voting unmoved)

end VotingWorld

namespace Small
theorem token_deployed : ∃ logs, CregToken.deploy evm 1 3 5 10 11 12 = .ok (start.token,logs) := by
  obtain ⟨logs,ok⟩ := deployed
  simp only [World.deploy,bind_ok,pair_ok] at ok
  obtain ⟨⟨token,given⟩,done,made,_⟩ := ok
  refine ⟨given,?_⟩
  rw [← made]
  exact done

def voted (account : Address) (number : Nat) : VotingTx × VotingCall := (block account number,.gov (.castVote 1 1))

def proposed : List (VotingTx × VotingCall) :=
  [(block 3 99,.gov (.setQuadraticVoting false)),(block 10 100,.gov (.propose 20 [] []))]

def handedOn : List (VotingTx × VotingCall) :=
  [voted 10 102,voted 11 102,(block 12 103,.token (.transfer 10 (10 ^ 18))),(block 10 104,.token (.transfer 11 (10 ^ 18)))]

theorem handed_on_within_supply :
    Throughout (VotingWorld.next evm 14) (fun world => (world.gov.proposal 1).tally ≤ world.token.totalSupply)
      (run (VotingWorld.next evm 14) unvoted proposed) handedOn := by
  obtain ⟨_,ok⟩ := token_deployed
  refine VotingWorld.votes_within_supply ok ⟨1,10,0,10 ^ 21⟩ proposed 1 (by decide +kernel) (by decide +kernel) handedOn ?_ ?_
  · exact ⟨fun _ => trivial,fun _ => trivial,fun _ => trivial,fun _ => trivial,trivial⟩
  · refine ⟨fun _ => trivial,fun _ => trivial,?_,?_,trivial⟩
    · intro _ _ already
      exact absurd already (by decide +kernel)
    · intro _ _ _
      decide +kernel

def votedTwice : List (VotingTx × VotingCall) :=
  [voted 10 102,voted 11 102,voted 12 102,voted 5 102,
    (block 10 103,.token (.transfer 20 (4000000 * 10 ^ 18))),voted 20 104]

theorem votes_above_supply : (run (VotingWorld.next evm 14) unvoted proposed).gov.quadraticVotingEnabled = false ∧
    (run (VotingWorld.next evm 14) unvoted proposed).Unvoted 1 ∧
    Along (VotingWorld.next evm 14) (VotingWorld.Voting evm 14) (run (VotingWorld.next evm 14) unvoted proposed) votedTwice ∧
    ((run (VotingWorld.next evm 14) unvoted (proposed ++ votedTwice)).gov.proposal 1).tally = 24000000 * 10 ^ 18 ∧
    (run (VotingWorld.next evm 14) unvoted (proposed ++ votedTwice)).token.totalSupply = 20000000 * 10 ^ 18 := by
  refine ⟨by decide +kernel,by decide +kernel,?_,by decide +kernel,by decide +kernel⟩
  exact ⟨fun _ => trivial,fun _ => trivial,fun _ => trivial,fun _ => trivial,fun _ => trivial,fun _ => trivial,trivial⟩

end Small
end ChainRegistry
