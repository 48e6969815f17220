import ChainRegistry.Contracts.TokenSupply

/-! The governance by tokens: `contracts/GovernanceV2.sol`. What the call of a proposal does to its
target is part of the transaction. -/
namespace ChainRegistry
open Lib Runs Fallible Text Ledger Abi

namespace GovernanceV2
structure Receipt where
  hasVoted : Bool := false
  support : UInt8 := 0
  votes : Nat := 0

structure Proposal where
  id : Nat := 0
  proposer : Address := 0
  description : List UInt8 := []
  callData : List UInt8 := []
  targetContract : Address := 0
  forVotes : Nat := 0
  againstVotes : Nat := 0
  abstainVotes : Nat := 0
  startBlock : Nat := 0
  endBlock : Nat := 0
  votingEndTimestamp : Nat := 0
  executed : Bool := false
  canceled : Bool := false
  receipts : Table Address Receipt := ∅

structure ProposalParams where
  (votingDelay votingPeriod proposalThreshold quorumVotes : Nat)

structure AutomatedParameter where
  name : List UInt8 := []
  currentValue : Nat := 0
  targetValue : Nat := 0
  changeRate : Nat := 0
  lastUpdate : Nat := 0
  active : Bool := false

inductive ProposalState
  | pending | active | canceled | defeated | succeeded | queued | expired | executed
  deriving DecidableEq

end GovernanceV2

structure GovernanceV2 where
  proposals : Table Nat GovernanceV2.Proposal := ∅
  automatedParams : Table Nat GovernanceV2.AutomatedParameter := ∅
  proposalIds : List Nat := []
  proposalCount : Nat := 0
  params : GovernanceV2.ProposalParams
  pendingAdmin : Address := 0
  admin : Address
  proposerWhitelist : Table Address Bool := ∅
  quadraticVotingEnabled : Bool := true
  autoParamCount : Nat := 0

structure VotingWorld where
  token : CregToken
  gov : GovernanceV2

structure VotingTx where
  sender : Address
  (timestamp number : Nat)
  perform : Address → List UInt8 → VotingWorld → Option VotingWorld := fun _ _ _ => none

namespace GovernanceV2
def executionDelay : Nat := 2 * 86400

def executionGracePeriod : Nat := 14 * 86400

def maxAutoParams : Nat := 20

def deploy (admin : Address) (params : ProposalParams) : GovernanceV2 := {admin := admin, params := params}

def proposal (gov : GovernanceV2) (id : Nat) : Proposal := read {} gov.proposals id

def setProposal (gov : GovernanceV2) (id : Nat) (proposal : Proposal) : GovernanceV2 :=
  {gov with proposals := gov.proposals.insert id proposal}

def Proposal.receipt (proposal : Proposal) (voter : Address) : Receipt := read {} proposal.receipts voter

variable (token : CregToken) (account : Address) (gov : GovernanceV2)

def votingPower : Except Revert Nat :=
  if gov.quadraticVotingEnabled then CregToken.quadraticVotingPower (token.getVotes account) else .ok (token.getVotes account)

def canPropose : Except Revert Bool :=
  if read false gov.proposerWhitelist account then .ok true
  else do
    let votes ← gov.votingPower token account
    return decide (gov.params.proposalThreshold ≤ votes)

def onlyProposer : Except Revert Unit := do
  let able ← gov.canPropose token account
  require (able) .unauthorized

def propose (tx : VotingTx) (target : Address) (callData description : List UInt8) (gov : GovernanceV2) :
    Except Revert GovernanceV2 := do
  gov.onlyProposer token tx.sender
  let startBlock ← checkedAdd tx.number gov.params.votingDelay
  let endBlock ← checkedAdd startBlock gov.params.votingPeriod
  let proposalId ← checkedAdd gov.proposalCount 1
  let opened := gov.setProposal proposalId {gov.proposal proposalId with
    id := proposalId
    proposer := tx.sender
    description := description
    callData := callData
    targetContract := target
    startBlock := startBlock
    endBlock := endBlock}
  return {opened with proposalCount := proposalId, proposalIds := gov.proposalIds ++ [proposalId]}

variable (evm : Evm) (self : Address)

def autoAdjustmentData (paramName : List UInt8) (targetValue changeRate : Nat) : List UInt8 :=
  let selector := (Abi.bytes (evm.keccak256 (bytes "executeAutoAdjustment(string,uint256,uint256)"))).take 4
  let padding := List.replicate ((32 - paramName.length % 32) % 32) 0
  selector ++ encode [ofUint 96,ofUint targetValue,ofUint changeRate,ofUint paramName.length] ++
    paramName ++ padding

def proposeAutoAdjustment (token : CregToken) (tx : VotingTx) (paramName : List UInt8) (targetValue changeRate : Nat)
    (description : List UInt8) (gov : GovernanceV2) : Except Revert GovernanceV2 := do
  gov.onlyProposer token tx.sender
  require (gov.autoParamCount < maxAutoParams) .tooManyAutoParams
  let proposed ← gov.propose token tx self (autoAdjustmentData evm paramName targetValue changeRate) description
  let autoParamCount ← checkedAdd proposed.autoParamCount 1
  let parameter : AutomatedParameter := ⟨paramName,0,targetValue,changeRate,tx.timestamp,true⟩
  return {proposed with
    automatedParams := proposed.automatedParams.insert proposed.proposalCount parameter
    autoParamCount := autoParamCount}

def Proposal.count (support : UInt8) (votes : Nat) (proposal : Proposal) : Except Revert Proposal :=
  if support = 0 then do
    let againstVotes ← checkedAdd proposal.againstVotes votes
    return {proposal with againstVotes := againstVotes}
  else if support = 1 then do
    let forVotes ← checkedAdd proposal.forVotes votes
    return {proposal with forVotes := forVotes}
  else do
    let abstainVotes ← checkedAdd proposal.abstainVotes votes
    return {proposal with abstainVotes := abstainVotes}

/-- `_castVote`. -/
def castVoteOf (token : CregToken) (tx : VotingTx) (voter : Address) (id : Nat) (support : UInt8) (gov : GovernanceV2) :
    Except Revert GovernanceV2 := do
  let proposal := gov.proposal id
  require (proposal.startBlock ≤ tx.number) .votingNotStarted
  require (tx.number ≤ proposal.endBlock) .votingClosed
  require (support ≤ 2) .invalidProposal
  require ((proposal.receipt voter).hasVoted = false) .alreadyVoted
  let votes ← gov.votingPower token voter
  let counted ← Proposal.count support votes {proposal with receipts := proposal.receipts.insert voter ⟨true,support,votes⟩}
  return gov.setProposal id counted

def voteSigner (id : Nat) (support : UInt8) (v : UInt8) (r s : Word) : Address :=
  let domainSeparator := evm.keccak256 (encode
    [evm.keccak256 (bytes "GovernanceV2 Vote"),ofUint evm.chainId,ofAddress self])
  let structHash := evm.keccak256 (encode
    [evm.keccak256 (bytes "Vote(uint256 proposalId,uint8 support)"),ofUint id,ofUint support.toNat])
  evm.ecrecover (Eip712.digest evm domainSeparator structHash) v r s

def AutomatedParameter.moved (maxChange : Nat) (parameter : AutomatedParameter) : Except Revert Nat :=
  if parameter.currentValue < parameter.targetValue then do
    let raised ← checkedAdd parameter.currentValue maxChange
    return min raised parameter.targetValue
  else do
    let lowered ← checkedSub parameter.currentValue maxChange
    return max lowered parameter.targetValue

variable (tx : VotingTx)

def applyGradualChange (id : Nat) (gov : GovernanceV2) : Except Revert GovernanceV2 := do
  let parameter := read {} gov.automatedParams id
  require (parameter.active) .invalidParameter
  require (parameter.currentValue ≠ parameter.targetValue) .invalidParameter
  let timeElapsed ← checkedSub tx.timestamp parameter.lastUpdate
  require (86400 ≤ timeElapsed) .invalidParameter
  let rate ← checkedMul parameter.currentValue parameter.changeRate
  let product ← checkedMul rate timeElapsed
  let currentValue ← parameter.moved (product / (10000 * 86400))
  let updated : AutomatedParameter := {parameter with currentValue := currentValue, lastUpdate := tx.timestamp}
  if currentValue = parameter.targetValue then
    let autoParamCount ← checkedSub gov.autoParamCount 1
    return {gov with
      automatedParams := gov.automatedParams.insert id {updated with active := false}
      autoParamCount := autoParamCount}
  else return {gov with automatedParams := gov.automatedParams.insert id updated}

def cancel (id : Nat) (gov : GovernanceV2) : Except Revert GovernanceV2 := do
  let proposal := gov.proposal id
  require (tx.sender = proposal.proposer ∨ tx.sender = gov.admin) .unauthorized
  require (proposal.executed = false) .invalidProposal
  return gov.setProposal id {proposal with canceled := true}

def onlyAdmin (gov : GovernanceV2) : Except Revert Unit := require (tx.sender = gov.admin) .unauthorized

def acceptAdmin (gov : GovernanceV2) : Except Revert GovernanceV2 := do
  require (tx.sender = gov.pendingAdmin) (.message "Not pending admin")
  return {gov with admin := gov.pendingAdmin, pendingAdmin := 0}

def state (id : Nat) (gov : GovernanceV2) : Except Revert ProposalState := do
  let proposal := gov.proposal id
  if proposal.canceled then return .canceled
  if proposal.executed then return .executed
  if tx.number ≤ proposal.startBlock then return .pending
  if tx.number ≤ proposal.endBlock then return .active
  let sides ← checkedAdd proposal.forVotes proposal.againstVotes
  let cast ← checkedAdd sides proposal.abstainVotes
  if cast < gov.params.quorumVotes then return .defeated
  if proposal.forVotes ≤ proposal.againstVotes then return .defeated
  let ended := if 0 < proposal.votingEndTimestamp then proposal.votingEndTimestamp else tx.timestamp
  let ready ← checkedAdd ended executionDelay
  if tx.timestamp ≤ ready then return .succeeded
  let deadline ← checkedAdd ready executionGracePeriod
  if tx.timestamp ≤ deadline then return .queued
  return .expired

inductive Call
  | propose (target : Address) (callData description : List UInt8)
  | proposeAutoAdjustment (paramName : List UInt8) (targetValue changeRate : Nat) (description : List UInt8)
  | castVote (id : Nat) (support : UInt8)
  | castVoteWithReason (id : Nat) (support : UInt8) (reason : List UInt8)
  | castVoteBySig (id : Nat) (support : UInt8) (v : UInt8) (r s : Word)
  | executeAutoAdjustment (paramName : List UInt8) (targetValue changeRate : Nat)
  | applyGradualChange (id : Nat)
  | cancel (id : Nat)
  | setParams (newParams : ProposalParams)
  | setQuadraticVoting (enabled : Bool)
  | setProposerWhitelist (proposer : Address) (whitelisted : Bool)
  | transferAdmin (newAdmin : Address)
  | acceptAdmin

def call (token : CregToken) (tx : VotingTx) (gov : GovernanceV2) : Call → Except Revert GovernanceV2
  | .propose target callData description => gov.propose token tx target callData description
  | .proposeAutoAdjustment paramName targetValue changeRate description =>
    gov.proposeAutoAdjustment evm self token tx paramName targetValue changeRate description
  | .castVote id support => gov.castVoteOf token tx tx.sender id support
  | .castVoteWithReason id support _ => gov.castVoteOf token tx tx.sender id support
  | .castVoteBySig id support v r s => gov.castVoteOf token tx (voteSigner evm self id support v r s) id support
  | .executeAutoAdjustment _ _ _ => do
    require (tx.sender = self) (.message "Only governance")
    return gov
  | .applyGradualChange id => gov.applyGradualChange tx id
  | .cancel id => gov.cancel tx id
  | .setParams newParams => do
    gov.onlyAdmin tx
    return {gov with params := newParams}
  | .setQuadraticVoting enabled => do
    gov.onlyAdmin tx
    return {gov with quadraticVotingEnabled := enabled}
  | .setProposerWhitelist proposer whitelisted => do
    gov.onlyAdmin tx
    return {gov with proposerWhitelist := gov.proposerWhitelist.insert proposer whitelisted}
  | .transferAdmin newAdmin => do
    gov.onlyAdmin tx
    return {gov with pendingAdmin := newAdmin}
  | .acceptAdmin => gov.acceptAdmin tx

end GovernanceV2

inductive VotingCall
  | gov (call : GovernanceV2.Call)
  | execute (id : Nat)
  | token (call : TokenCall)

namespace VotingWorld
/-- The proposal is marked before its call. If the call fails, or a check before it, nothing is
written, also not the time that the first check has set. -/
def execute (tx : VotingTx) (id : Nat) (world : VotingWorld) : Except Revert VotingWorld := do
  let proposal := world.gov.proposal id
  require (proposal.executed = false) .invalidProposal
  require (proposal.canceled = false) .invalidProposal
  require (proposal.endBlock < tx.number) .votingNotStarted
  let ended := if proposal.votingEndTimestamp = 0 then tx.timestamp else proposal.votingEndTimestamp
  let sides ← checkedAdd proposal.forVotes proposal.againstVotes
  let cast ← checkedAdd sides proposal.abstainVotes
  require (world.gov.params.quorumVotes ≤ cast) .quorumNotReached
  require (proposal.againstVotes < proposal.forVotes) .proposalNotSucceeded
  let ready ← checkedAdd ended GovernanceV2.executionDelay
  require (ready ≤ tx.timestamp) .votingNotStarted
  let deadline ← checkedAdd ready GovernanceV2.executionGracePeriod
  require (tx.timestamp ≤ deadline) .proposalExpired
  let marked := world.gov.setProposal id {proposal with votingEndTimestamp := ended, executed := true}
  match tx.perform proposal.targetContract proposal.callData {world with gov := marked} with
  | some after => .ok after
  | none => .error .executionFailed

variable (evm : Evm) (self : Address)

def call (world : VotingWorld) (tx : VotingTx) : VotingCall → Except Revert VotingWorld
  | .gov call => (world.gov.call evm self world.token tx call).map fun gov => {world with gov := gov}
  | .execute id => world.execute tx id
  | .token call => (world.token.call evm ⟨tx.sender,tx.timestamp,call⟩).map fun done => {world with token := done.1}

def next (world : VotingWorld) (event : VotingTx × VotingCall) : VotingWorld :=
  match world.call evm self event.1 event.2 with
  | .ok after => after
  | .error _ => world

end VotingWorld

namespace GovernanceV2
variable {evm : Evm} {self : Address} {token : CregToken} {tx : VotingTx} {gov after : GovernanceV2} {call : Call}
  {id : Nat} {voter : Address} {support : UInt8}

def Proposal.tally (proposal : Proposal) : Nat := proposal.forVotes + proposal.againstVotes + proposal.abstainVotes

structure Proposal.Casts (voter : Address) (votes : Nat) (proposal counted : Proposal) : Prop where
  tally : counted.tally = proposal.tally + votes
  hasVoted : ∀ account, (counted.receipt account).hasVoted = if account = voter then true else (proposal.receipt account).hasVoted
  votingEndTimestamp : counted.votingEndTimestamp = proposal.votingEndTimestamp

theorem count_ok {votes : Nat} {proposal counted : Proposal}
    (ok : Proposal.count support votes {proposal with receipts := proposal.receipts.insert voter ⟨true,support,votes⟩} =
      .ok counted) :
    Proposal.Casts voter votes proposal counted := by
  have receipts : ∀ account, (read {} (proposal.receipts.insert voter ⟨true,support,votes⟩) account : Receipt).hasVoted =
      if account = voter then true else (proposal.receipt account).hasVoted := by
    intro account
    rw [read_insert]
    split_ifs <;> rfl
  rw [Proposal.count] at ok
  split_ifs at ok
  -- whichever side the votes go to
  all_goals
    simp only [bind_ok,checkedAdd_ok,pure_ok] at ok
    obtain ⟨_,⟨_,rfl⟩,rfl⟩ := ok
    refine ⟨?_,receipts,rfl⟩
    simp only [Proposal.tally]
    omega

inductive Changes (token : CregToken) (gov after : GovernanceV2) : Prop
  | none (same : after.proposals = gov.proposals)
  -- a new proposal, or one that is canceled
  | edit (id : Nat) (edited : Proposal) (written : after.proposals = gov.proposals.insert id edited)
    (tally : edited.tally = (gov.proposal id).tally) (receipts : edited.receipts = (gov.proposal id).receipts)
    (votingEndTimestamp : edited.votingEndTimestamp = (gov.proposal id).votingEndTimestamp)
  | vote (id : Nat) (voter : Address) (votes : Nat) (counted : Proposal)
    (written : after.proposals = gov.proposals.insert id counted)
    (unvoted : ((gov.proposal id).receipt voter).hasVoted = false) (power : gov.votingPower token voter = .ok votes)
    (casts : Proposal.Casts voter votes (gov.proposal id) counted)

theorem proposal_of_insert {proposal : Proposal} (written : after.proposals = gov.proposals.insert id proposal) (other : Nat) :
    after.proposal other = if other = id then proposal else gov.proposal other := by
  rw [GovernanceV2.proposal,written]
  exact read_insert ..

structure Acts (token : CregToken) (gov : GovernanceV2) (call : Call) (after : GovernanceV2) : Prop where
  changes : Changes token gov after
  voting : after.quadraticVotingEnabled = gov.quadraticVotingEnabled ∨ call = .setQuadraticVoting after.quadraticVotingEnabled

theorem Changes.of_same {final : GovernanceV2} (changes : Changes token gov after) (same : final.proposals = after.proposals) :
    Changes token gov final := by
  cases changes with
  | none kept => exact .none (same.trans kept)
  | edit id edited written tally receipts votingEndTimestamp =>
    exact .edit id edited (same.trans written) tally receipts votingEndTimestamp
  | vote id voter votes counted written unvoted power casts =>
    exact .vote id voter votes counted (same.trans written) unvoted power casts

theorem propose_ok {target : Address} {callData description : List UInt8}
    (ok : gov.propose token tx target callData description = .ok after) : Acts token gov call after := by
  simp only [propose,bind_ok,checkedAdd_ok,pure_ok] at ok
  obtain ⟨_,_,_,⟨_,rfl⟩,_,⟨_,rfl⟩,_,⟨_,rfl⟩,rfl⟩ := ok
  exact ⟨.edit _ _ rfl rfl rfl rfl,.inl rfl⟩

theorem castVoteOf_ok (ok : gov.castVoteOf token tx voter id support = .ok after) : Acts token gov call after := by
  simp only [castVoteOf,bind_ok,require_and,pure_ok] at ok
  obtain ⟨_,_,_,unvoted,votes,power,counted,cast,rfl⟩ := ok
  exact ⟨.vote id voter votes counted rfl unvoted power (count_ok cast),.inl rfl⟩

theorem applyGradualChange_ok (ok : gov.applyGradualChange tx id = .ok after) : Acts token gov call after := by
  simp only [applyGradualChange,bind_ok,require_and] at ok
  obtain ⟨_,_,_,_,_,_,_,_,_,_,_,ok⟩ := ok
  split_ifs at ok
  · simp only [bind_ok,pure_ok] at ok
    obtain ⟨_,_,rfl⟩ := ok
    exact ⟨.none rfl,.inl rfl⟩
  · cases ok
    exact ⟨.none rfl,.inl rfl⟩

theorem onlyAdmin_ok {set : GovernanceV2} (ok : (do
    gov.onlyAdmin tx
    return set) = .ok after) : set = after := by
  simp only [onlyAdmin,bind_ok,require_and,pure_ok] at ok
  exact ok.2

theorem call_ok (ok : gov.call evm self token tx call = .ok after) : Acts token gov call after := by
  cases call with
  | propose target callData description => exact propose_ok ok
  | proposeAutoAdjustment paramName targetValue changeRate description =>
    simp only [GovernanceV2.call,proposeAutoAdjustment,bind_ok,require_and,pure_ok] at ok
    obtain ⟨_,_,_,proposed,done,_,_,rfl⟩ := ok
    have acts : Acts token gov (.proposeAutoAdjustment paramName targetValue changeRate description) proposed := propose_ok done
    exact ⟨acts.changes.of_same rfl,acts.voting⟩
  | castVote | castVoteWithReason | castVoteBySig => exact castVoteOf_ok ok
  | executeAutoAdjustment paramName targetValue changeRate =>
    simp only [call,bind_ok,require_and,pure_ok] at ok
    obtain ⟨_,rfl⟩ := ok
    exact ⟨.none rfl,.inl rfl⟩
  | applyGradualChange id => exact applyGradualChange_ok ok
  | cancel id =>
    simp only [call,cancel,bind_ok,require_and,pure_ok] at ok
    obtain ⟨_,_,rfl⟩ := ok
    exact ⟨.edit id _ rfl rfl rfl rfl,.inl rfl⟩
  | setParams | setProposerWhitelist | transferAdmin =>
    obtain rfl := onlyAdmin_ok ok
    exact ⟨.none rfl,.inl rfl⟩
  | setQuadraticVoting enabled =>
    obtain rfl := onlyAdmin_ok ok
    exact ⟨.none rfl,.inr rfl⟩
  | acceptAdmin =>
    simp only [call,acceptAdmin,bind_ok,require_and,pure_ok] at ok
    obtain ⟨_,rfl⟩ := ok
    exact ⟨.none rfl,.inl rfl⟩

end GovernanceV2

/-! No proposal is ever executed: the time from which the delay counts is set by a call that
then fails, and with it the time is gone. -/

namespace VotingWorld
variable {evm : Evm} {self : Address} {world : VotingWorld}

def Untimed (world : VotingWorld) : Prop := ∀ id, (world.gov.proposal id).votingEndTimestamp = 0

section
variable (untimed : world.Untimed)
include untimed

theorem Untimed.execute_fails (tx : VotingTx) (id : Nat) (after : VotingWorld) : world.execute tx id ≠ .ok after := by
  intro ok
  simp only [execute,untimed id,if_true,bind_ok,require_ok,checkedAdd_ok,exists_const] at ok
  obtain ⟨_,_,_,_,_,_,_,_,_,_,⟨_,rfl⟩,waited,_⟩ := ok
  -- the delay counts from now
  simp only [GovernanceV2.executionDelay] at waited
  omega

theorem Untimed.of_changes {token : CregToken} {gov : GovernanceV2}
    (changes : GovernanceV2.Changes world.token world.gov gov) : Untimed ⟨token,gov⟩ := by
  intro other
  cases changes with
  | none same =>
    rw [GovernanceV2.proposal,same]
    exact untimed other
  | edit id edited written tally receipts votingEndTimestamp =>
    rw [GovernanceV2.proposal_of_insert written]
    split_ifs
    · exact votingEndTimestamp.trans (untimed id)
    · exact untimed other
  | vote id voter votes counted written unvoted power casts =>
    rw [GovernanceV2.proposal_of_insert written]
    split_ifs
    · exact casts.votingEndTimestamp.trans (untimed id)
    · exact untimed other

theorem Untimed.call_cases {tx : VotingTx} {call : VotingCall} {after : VotingWorld}
    (done : world.call evm self tx call = .ok after) :
    (∃ act gov, call = .gov act ∧ GovernanceV2.Acts world.token world.gov act gov ∧ after = {world with gov := gov}) ∨
      ∃ act token logs, call = .token act ∧ world.token.call evm ⟨tx.sender,tx.timestamp,act⟩ = .ok (token,logs) ∧
        after = {world with token := token} := by
  cases call with
  | gov act =>
    obtain ⟨gov,acted,rfl⟩ := (map_ok ..).mp done
    exact .inl ⟨act,gov,rfl,GovernanceV2.call_ok acted,rfl⟩
  | execute id => exact absurd done (untimed.execute_fails tx id after)
  | token act =>
    obtain ⟨⟨token,logs⟩,moved,rfl⟩ := (map_ok ..).mp done
    exact .inr ⟨act,token,logs,rfl,moved,rfl⟩

theorem Untimed.next (event : VotingTx × VotingCall) : (world.next evm self event).Untimed := by
  rw [VotingWorld.next]
  cases done : world.call evm self event.1 event.2 with
  | error _ => exact untimed
  | ok after =>
    obtain ⟨_,gov,_,acts,rfl⟩ | ⟨_,token,_,_,_,rfl⟩ := untimed.call_cases done
    · exact untimed.of_changes acts.changes
    · exact untimed

theorem Untimed.run (events : List (VotingTx × VotingCall)) : (run (VotingWorld.next evm self) world events).Untimed := by
  have keeps : ∀ (world : VotingWorld) (event : VotingTx × VotingCall), world.Untimed → (world.next evm self event).Untimed :=
    fun _ event kept => kept.next event
  exact always_run keeps world events untimed

end

def Executable (evm : Evm) (self : Address) (world : VotingWorld) (id : Nat) : Prop :=
  ∃ more tx after, (run (next evm self) world more).call evm self tx (.execute id) = .ok after

theorem Untimed.not_executable (untimed : world.Untimed) (id : Nat) : ¬world.Executable evm self id := by
  intro executable
  obtain ⟨more,tx,after,executed⟩ := executable
  exact (untimed.run more).execute_fails tx id after executed

theorem deploy_untimed (token : CregToken) (admin : Address) (params : GovernanceV2.ProposalParams) :
    Untimed ⟨token,.deploy admin params⟩ := fun _ => rfl

/-- The call that records the end of a vote fails and takes the record back. -/
theorem no_proposal_executable (token : CregToken) (admin : Address) (params : GovernanceV2.ProposalParams)
    (events : List (VotingTx × VotingCall)) (id : Nat) :
    ¬(run (next evm self) ⟨token,.deploy admin params⟩ events).Executable evm self id :=
  ((deploy_untimed token admin params).run events).not_executable id

def Passed (world : VotingWorld) (number : Nat) (id : Nat) : Prop :=
  (world.gov.proposal id).executed = false ∧ (world.gov.proposal id).canceled = false ∧
    (world.gov.proposal id).endBlock < number ∧
    world.gov.params.quorumVotes ≤ (world.gov.proposal id).tally ∧
    (world.gov.proposal id).againstVotes < (world.gov.proposal id).forVotes

instance passedDecidable (world : VotingWorld) (number id : Nat) : Decidable (world.Passed number id) :=
  inferInstanceAs (Decidable (_ ∧ _))

end VotingWorld

namespace Small
def unvoted : VotingWorld := ⟨start.token,.deploy 3 ⟨1,10,0,10 ^ 21⟩⟩

def block (sender : Address) (number : Nat) : VotingTx := {sender := sender, timestamp := 12 * number, number := number}

def elected : List (VotingTx × VotingCall) :=
  [(block 10 100,.gov (.propose 20 [] [])),(block 10 105,.gov (.castVote 1 1))]

theorem passed_not_executable : (run (VotingWorld.next evm 14) unvoted elected).Passed 112 1 ∧
    (run (VotingWorld.next evm 14) unvoted elected).gov.state (block 10 200000) 1 = .ok .succeeded ∧
    ¬(run (VotingWorld.next evm 14) unvoted elected).Executable evm 14 1 :=
  ⟨by decide +kernel,by decide +kernel,
    ((VotingWorld.deploy_untimed start.token 3 ⟨1,10,0,10 ^ 21⟩).run elected).not_executable 1⟩

end Small
end ChainRegistry
