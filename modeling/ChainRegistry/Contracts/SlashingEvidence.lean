import ChainRegistry.Contracts.Registry
import ChainRegistry.Contracts.Solvency

/-! The evidence against validators: `contracts/SlashingEvidence.sol`, with the staking contract and the part
of `contracts/Reputation.sol` that it asks for penalties. Events are left out. -/
namespace ChainRegistry
open Lib Runs Fallible Ledger Staking

structure EvidenceRecord where
  evidenceType : UInt8
  (offender whistleblower : Address)
  (proof1 proof2 : List UInt8)
  packageCanonical : Bytes
  submittedAt : Nat
  (resolved accepted : Bool)
  (confirmVotes rejectVotes quorumReachedAt : Nat)
  voted : Finset Address
  deriving DecidableEq

def EvidenceRecord.blank : EvidenceRecord := ⟨0,0,0,[],[],⟨[],length_nil_lt⟩,0,false,false,0,0,0,∅⟩

structure SlashingEvidence where
  evidence : Table Nat EvidenceRecord
  evidenceCount : Nat
  governance : Address
  confirmQuorum : Nat
  deriving DecidableEq

structure Penalties where
  governance : Address
  falseApprovals : Table Address Nat
  deriving DecidableEq

structure EvidenceState where
  world : World
  penalties : Penalties
  slashing : SlashingEvidence
  deriving DecidableEq

namespace Penalties
def penalizeFalseApproval (sender validator : Address) (penalties : Penalties) : Except Revert Penalties := do
  require (sender = penalties.governance) (.message "Only governance")
  let falseApprovals ← Reputation.increment (read 0 penalties.falseApprovals validator)
  return {penalties with falseApprovals := penalties.falseApprovals.insert validator falseApprovals}

end Penalties

namespace SlashingEvidence
def evidenceWindow : Nat := 3 * 86400
def minExecuteDelay : Nat := 86400

def deploy (governance : Address) : SlashingEvidence := ⟨∅,0,governance,3⟩

def record (slashing : SlashingEvidence) (id : Nat) : EvidenceRecord := read .blank slashing.evidence id

def setRecord (slashing : SlashingEvidence) (id : Nat) (record : EvidenceRecord) : SlashingEvidence :=
  {slashing with evidence := slashing.evidence.insert id record}

end SlashingEvidence

namespace EvidenceState
open SlashingEvidence

abbrev Result := Except Revert EvidenceState

variable (self : Address) (tx : Tx)

def submitEvidence (offender : Address) (evidenceType : UInt8) (proof1 proof2 : List UInt8) (packageCanonical : Bytes)
    (state : EvidenceState) :
    Result := do
  require (state.world.staking.isActiveValidator offender) .notValidator
  require (proof1.length ≠ 0) .invalidProof
  let id := state.slashing.evidenceCount
  let count ← checkedAdd id 1
  let submitted := {state.slashing.record id with
    evidenceType := evidenceType
    offender := offender
    whistleblower := tx.sender
    proof1 := proof1
    proof2 := proof2
    packageCanonical := packageCanonical
    submittedAt := tx.timestamp}
  return {state with slashing := {state.slashing.setRecord id submitted with evidenceCount := count}}

variable (id : Nat)

def rejectEvidence (record : EvidenceRecord) (slashing : SlashingEvidence) : SlashingEvidence :=
  slashing.setRecord id {record with resolved := true, accepted := false}

variable (state : EvidenceState)

def quorumLost (record : EvidenceRecord) : Except Revert Bool := do
  let left ← checkedSub state.world.staking.activeValidatorCount record.rejectVotes
  return left < state.slashing.confirmQuorum

def countVote (confirm : Bool) (record : EvidenceRecord) : Except Revert EvidenceRecord :=
  if confirm then do
    let confirmVotes ← checkedAdd record.confirmVotes 1
    return {record with confirmVotes := confirmVotes}
  else do
    let rejectVotes ← checkedAdd record.rejectVotes 1
    return {record with rejectVotes := rejectVotes}

def confirmEvidence (confirm : Bool) (state : EvidenceState) : Result := do
  require (state.world.staking.isActiveValidator tx.sender) .notValidator
  let found := state.slashing.record id
  require (found.resolved = false) .alreadyResolved
  require (tx.sender ∉ found.voted) .alreadyVoted
  let windowEnd ← checkedAdd found.submittedAt evidenceWindow
  require (tx.timestamp ≤ windowEnd) .evidenceWindowExpired
  let counted ← countVote confirm {found with voted := insert tx.sender found.voted}
  if state.slashing.confirmQuorum ≤ counted.confirmVotes ∧ counted.quorumReachedAt = 0 then do
    let _executeAfter ← checkedAdd tx.timestamp minExecuteDelay
    let reached := {counted with quorumReachedAt := tx.timestamp}
    return {state with slashing := state.slashing.setRecord id reached}
  else do
    let lost ← state.quorumLost counted
    return {state with slashing := if lost then rejectEvidence id counted state.slashing else state.slashing.setRecord id counted}

/-- `_acceptEvidence`: the slash is by what the offender has staked as a publisher. -/
def acceptEvidence : Result := do
  let found := state.slashing.record id
  let slashAmount := state.world.staking.stakedBalance found.offender
  let (world,_) ← state.world.slash {tx with sender := self} found.offender slashAmount "Evidence of misbehaviour accepted"
  let penalties ← state.penalties.penalizeFalseApproval self found.offender
  let resolved := {found with resolved := true, accepted := true}
  return ⟨world,penalties,state.slashing.setRecord id resolved⟩

def executeEvidence (state : EvidenceState) : Result := do
  let found := state.slashing.record id
  require (found.resolved = false) .alreadyResolved
  require (found.quorumReachedAt ≠ 0) .quorumNotReached
  let executeAfter ← checkedAdd found.quorumReachedAt minExecuteDelay
  require (executeAfter ≤ tx.timestamp) (.delayNotElapsed executeAfter)
  let lost ← state.quorumLost found
  if lost then return {state with slashing := rejectEvidence id found state.slashing} else state.acceptEvidence self tx id

def setConfirmQuorum (q : Nat) (state : EvidenceState) : Result := do
  require (tx.sender = state.slashing.governance) (.message "Only governance")
  require (1 ≤ q) (.message "Quorum must be >= 1")
  return {state with slashing := {state.slashing with confirmQuorum := q}}

end EvidenceState

inductive EvidenceCall
  | submitEvidence (offender : Address) (evidenceType : UInt8) (proof1 proof2 : List UInt8) (packageCanonical : Bytes)
  | confirmEvidence (id : Nat) (confirm : Bool)
  | executeEvidence (id : Nat)
  | setConfirmQuorum (q : Nat)
  | penalizeFalseApproval (validator : Address)
  | elsewhere (call : Call)

namespace EvidenceState
open SlashingEvidence

variable (evm : Evm) (staking self : Address)

def call (tx : Tx) (state : EvidenceState) : EvidenceCall → Result
  | .submitEvidence offender evidenceType proof1 proof2 packageCanonical =>
    state.submitEvidence tx offender evidenceType proof1 proof2 packageCanonical
  | .confirmEvidence id confirm => state.confirmEvidence tx id confirm
  | .executeEvidence id => state.executeEvidence self tx id
  | .setConfirmQuorum q => state.setConfirmQuorum tx q
  | .penalizeFalseApproval validator => (state.penalties.penalizeFalseApproval tx.sender validator).map fun penalties =>
    {state with penalties := penalties}
  | .elsewhere call => (state.world.call evm staking tx call).map fun (world,_) => {state with world := world}

def next (state : EvidenceState) (event : Tx × EvidenceCall) : EvidenceState :=
  match state.call evm staking self event.1 event.2 with
  | .ok after => after
  | .error _ => state

def start (world : World) (reputationGovernance governance : Address) : EvidenceState :=
  ⟨world,⟨reputationGovernance,∅⟩,.deploy governance⟩

/-- Evidence that reached its quorum without a vote against it and whose delay has elapsed. -/
@[mk_iff]
structure Ripe (contract : Address) (tx : Tx) (id : Nat) (state : EvidenceState) : Prop where
  authorized : contract ∈ state.world.staking.authorizedSlashers
  reached : 0 < (state.slashing.record id).quorumReachedAt
  unresolved : (state.slashing.record id).resolved = false
  unrejected : (state.slashing.record id).rejectVotes = 0
  elapsed : (state.slashing.record id).quorumReachedAt + minExecuteDelay ≤ tx.timestamp
  time : tx.timestamp < 2 ^ 256
  active : state.world.staking.isActiveValidator (state.slashing.record id).offender

instance ripeDecidable (contract : Address) (tx : Tx) (id : Nat) (state : EvidenceState) :
    Decidable (state.Ripe contract tx id) :=
  decidable_of_iff' _ (ripe_iff ..)

def SlashedOut (offender : Address) (state : EvidenceState) : Prop :=
  (state.world.staking.entry offender).stake = 0 ∧ state.world.staking.isActiveValidator offender = false

end EvidenceState

/-- The publisher stake is more than that of the validator, or as much and it is the third slash. -/
def Staking.SlashRemoves (staking : Staking) (account : Address) : Prop :=
  let published := staking.publisherStake account
  let v := staking.entry account
  0 < v.stake ∧
    (v.stake < published ∧ staking.slashPool + (published + v.stake) < 2 ^ 256 ∨
      v.stake = published ∧ maxSlashCount ≤ v.slashCount + 1 ∧ v.slashCount + 1 < 2 ^ 256 ∧
        staking.slashPool + published < 2 ^ 256)

instance slashRemovesDecidable (staking : Staking) (account : Address) : Decidable (staking.SlashRemoves account) :=
  inferInstanceAs (Decidable (_ ∧ (_ ∧ _ ∨ _ ∧ _ ∧ _ ∧ _)))

namespace World
variable {tx : Tx} {staking : Staking} {account : Address}

theorem entry_written (entry : ValidatorEntry) : (staking.setEntry account entry).entry account = entry := by
  rw [entry_setEntry,Function.update_self]

theorem isActiveVal_iff (active : staking.isActiveValidator account) : isActiveVal (staking.entry account) ↔
    0 < (staking.entry account).stake := by
  rw [isActiveVal,Bool.and_eq_true]
  exact (and_iff_right active).trans decide_eq_true_iff

def Removed (tx : Tx) (account : Address) (staking : Staking) : Prop :=
  ∃ after taken logs, takeStake tx account (staking.publisherStake account) staking = .ok (after,taken,logs) ∧
    staking.slashPool + taken < 2 ^ 256 ∧ (after.entry account).stake = 0 ∧ after.isActiveValidator account = false

theorem removed_iff_of_less (positive : isActiveVal (staking.entry account)) (active : staking.isActiveValidator account)
    (less : staking.publisherStake account ≤ (staking.entry account).stake) :
    Removed tx account staking ↔ (staking.entry account).stake = staking.publisherStake account ∧
      maxSlashCount ≤ (staking.entry account).slashCount + 1 ∧ (staking.entry account).slashCount + 1 < 2 ^ 256 ∧
        staking.slashPool + staking.publisherStake account < 2 ^ 256 := by
  rw [Removed,takeStake]
  rw [if_pos ⟨positive,less⟩]
  simp only [slashValidator,bind_ok,checkedSub_ok,checkedAdd_ok,Prod.exists,pure_ok,Prod.mk.injEq]
  constructor
  · rintro ⟨after,_,_,⟨_,_,⟨_,⟨_,rfl⟩,_,⟨counted,rfl⟩,cut⟩,rfl,rfl,_⟩,fits,emptied,inactive⟩
    split_ifs at cut with third
    · cases cut
      rw [entry_written] at emptied
      dsimp only at emptied
      exact ⟨by omega,third,counted,fits⟩
    · cases cut
      rw [isActiveValidator,entry_written] at inactive
      rw [isActiveValidator] at active
      exact Bool.noConfusion (active.symm.trans inactive)
  · rintro ⟨equal,third,counted,fits⟩
    refine ⟨_,_,_,⟨_,_,⟨_,⟨less,rfl⟩,_,⟨counted,rfl⟩,if_pos third⟩,rfl,rfl,rfl⟩,fits,?_,?_⟩
    · rw [entry_written]
      exact Nat.sub_eq_zero_of_le equal.le
    · rw [isActiveValidator,entry_written]
      rfl

theorem removed_iff_of_more (positive : isActiveVal (staking.entry account))
    (more : (staking.entry account).stake < staking.publisherStake account) :
    Removed tx account staking ↔ staking.slashPool + (staking.publisherStake account + (staking.entry account).stake) <
      2 ^ 256 := by
  have taken : takeStake tx account (staking.publisherStake account) staking = (do
      let rest ← checkedAdd (staking.publisherStake account) (staking.entry account).stake
      return (wipeOut tx account staking,rest,[])) := by
    rw [takeStake]
    rw [if_neg fun both => absurd both.2 (Nat.not_le.mpr more),if_neg fun both => both.1 positive]
  rw [Removed,taken]
  simp only [bind_ok,checkedAdd_ok,pure_ok,Prod.mk.injEq]
  constructor
  · rintro ⟨_,_,_,⟨_,⟨_,rfl⟩,_,rfl,_⟩,fits,_⟩
    exact fits
  · intro fits
    have whole : staking.publisherStake account + (staking.entry account).stake < 2 ^ 256 := by omega
    refine ⟨_,_,_,⟨_,⟨whole,rfl⟩,rfl,rfl,rfl⟩,fits,?_,?_⟩
    · rw [wipeOut,entry_written]
    · rw [wipeOut,isActiveValidator,entry_written]
      rfl

theorem not_removed_of_empty (active : staking.isActiveValidator account) (empty : (staking.entry account).stake = 0) :
    ¬ Removed tx account staking := by
  have passive : ¬ isActiveVal (staking.entry account) := by
    rw [isActiveVal_iff active,empty]
    exact lt_irrefl 0
  rintro ⟨after,_,_,ok,_,_,inactive⟩
  rw [takeStake] at ok
  rw [if_neg fun both => passive both.1,if_pos ⟨passive,le_rfl⟩] at ok
  simp only [slashPublisher,bind_ok,checkedSub_ok,pure_ok,Prod.mk.injEq] at ok
  obtain ⟨_,⟨_,_,rfl⟩,rfl,_⟩ := ok
  exact Bool.noConfusion (active.symm.trans inactive)

theorem removed_iff (active : staking.isActiveValidator account) : Removed tx account staking ↔ staking.SlashRemoves account := by
  rw [Staking.SlashRemoves]
  rcases Nat.eq_zero_or_pos (staking.entry account).stake with empty | stake
  · refine iff_of_false (not_removed_of_empty active empty) ?_
    rw [empty]
    exact fun both => lt_irrefl 0 both.1
  have positive := (isActiveVal_iff active).mpr stake
  rw [and_iff_right stake]
  rcases Nat.lt_or_ge (staking.entry account).stake (staking.publisherStake account) with more | less
  · rw [removed_iff_of_more positive more,and_iff_right more]
    exact (or_iff_left fun both => absurd both.1 more.ne).symm
  · rw [removed_iff_of_less positive active less]
    exact (or_iff_right fun both => absurd both.1 (Nat.not_lt.mpr less)).symm

end World

namespace EvidenceState
open SlashingEvidence

variable {self : Address} {tx : Tx} {id : Nat} {state : EvidenceState}

def Effective (self : Address) (id : Nat) (state : EvidenceState) : Prop :=
  let offender := (state.slashing.record id).offender
  state.slashing.confirmQuorum ≤ state.world.staking.activeValidatorCount ∧ state.penalties.governance = self ∧
    read 0 state.penalties.falseApprovals offender + 1 < 2 ^ 32 ∧ state.world.staking.SlashRemoves offender

instance effectiveDecidable (self : Address) (id : Nat) (state : EvidenceState) : Decidable (state.Effective self id) :=
  inferInstanceAs (Decidable (_ ∧ _ ∧ _ ∧ Staking.SlashRemoves _ _))

theorem execute_ripe (ripe : state.Ripe self tx id) : state.executeEvidence self tx id =
    if state.world.staking.activeValidatorCount < state.slashing.confirmQuorum then
      .ok {state with slashing := rejectEvidence id (state.slashing.record id) state.slashing}
    else state.acceptEvidence self tx id := by
  have unresolved : require ((state.slashing.record id).resolved = false) .alreadyResolved = .ok () := if_pos ripe.unresolved
  have reached : require ((state.slashing.record id).quorumReachedAt ≠ 0) .quorumNotReached = .ok () := if_pos ripe.reached.ne'
  have after : checkedAdd (state.slashing.record id).quorumReachedAt minExecuteDelay =
      .ok ((state.slashing.record id).quorumReachedAt + minExecuteDelay) := if_pos (ripe.elapsed.trans_lt ripe.time)
  have elapsed : require ((state.slashing.record id).quorumReachedAt + minExecuteDelay ≤ tx.timestamp)
      (.delayNotElapsed ((state.slashing.record id).quorumReachedAt + minExecuteDelay)) = .ok () := if_pos ripe.elapsed
  have lost : state.quorumLost (state.slashing.record id) =
      .ok (decide (state.world.staking.activeValidatorCount < state.slashing.confirmQuorum)) := by
    rw [quorumLost,ripe.unrejected,checkedSub,if_pos (Nat.zero_le _),Nat.sub_zero]
    rfl
  rw [executeEvidence,unresolved,ok_bind,reached,ok_bind,after,ok_bind,elapsed,ok_bind,lost,ok_bind]
  simp only [decide_eq_true_eq]
  rfl

theorem maySlash_of_authorized {contract : Address} {staking : Staking} (authorized : contract ∈ staking.authorizedSlashers) :
    World.maySlash staking contract := by
  rw [World.maySlash,decide_eq_true authorized,Bool.or_true]

theorem accept_slashes_iff (ripe : state.Ripe self tx id) :
    (∃ after, state.acceptEvidence self tx id = .ok after ∧ after.SlashedOut (state.slashing.record id).offender) ↔
      state.penalties.governance = self ∧ read 0 state.penalties.falseApprovals (state.slashing.record id).offender + 1 < 2 ^ 32 ∧
        state.world.staking.SlashRemoves (state.slashing.record id).offender := by
  have removed : World.Removed {tx with sender := self} (state.slashing.record id).offender state.world.staking ↔
      state.world.staking.SlashRemoves (state.slashing.record id).offender := World.removed_iff ripe.active
  rw [← removed]
  simp only [acceptEvidence,World.slash,World.executeSlash,Penalties.penalizeFalseApproval,bind_ok,require_ok,exists_const,
    checkedAdd_ok,Reputation.increment_ok,Prod.exists,pure_ok,Prod.mk.injEq]
  constructor
  · rintro ⟨after,⟨_,_,⟨_,staking,taken,logs,took,_,⟨fits,rfl⟩,rfl,_⟩,_,⟨governs,_,⟨penalty,_⟩,rfl⟩,rfl⟩,emptied,inactive⟩
    rw [(World.takeStake_owed took).2] at fits
    exact ⟨governs.symm,penalty,staking,taken,logs,took,fits,emptied,inactive⟩
  · rintro ⟨governs,penalty,staking,taken,logs,took,fits,emptied,inactive⟩
    rw [← (World.takeStake_owed took).2] at fits
    have may : World.maySlash state.world.staking self := maySlash_of_authorized ripe.authorized
    exact ⟨_,⟨_,_,⟨may,staking,taken,logs,took,_,⟨fits,rfl⟩,rfl,rfl⟩,_,⟨governs.symm,_,⟨penalty,rfl⟩,rfl⟩,rfl⟩,emptied,inactive⟩

/-- Evidence that is ripe slashes the offender out exactly where it is effective. -/
theorem evidence_slashes_iff (self : Address) (tx : Tx) (id : Nat) (state : EvidenceState) (ripe : state.Ripe self tx id) :
    (∃ after, state.executeEvidence self tx id = .ok after ∧ after.SlashedOut (state.slashing.record id).offender) ↔
      state.Effective self id := by
  rw [execute_ripe ripe,Effective]
  split_ifs with lost
  · refine iff_of_false ?_ fun effective => absurd effective.1 (Nat.not_le.mpr lost)
    rintro ⟨after,rejected,_,inactive⟩
    cases rejected
    exact Bool.noConfusion (ripe.active.symm.trans inactive)
  · rw [and_iff_right (Nat.not_lt.mp lost)]
    exact accept_slashes_iff ripe

end EvidenceState

/-! Two validators, of which 12 is accused and 10 confirms; the contract is at 9, and one confirmation is enough. -/
namespace Small
def publishing (account : Address) (amount : Nat) : List (Tx × Call) :=
  [(tx account 500 0,.approve 2 amount),(tx account 500 0,.stakeAsPublisher amount)]

def accusing (before : List (Tx × Call)) : List (Tx × EvidenceCall) :=
  (joining 10 100 ++ joining 12 100 ++ (tx 4 200 0,.setSlasher 9 true) :: before).map
    (fun event => (event.1,.elsewhere event.2)) ++
    [(tx 4 300 0,.setConfirmQuorum 1),(tx 13 1000 0,.submitEvidence 12 1 [1] [2] Desk.name),
      (tx 10 1100 0,.confirmEvidence 0 true)]

def accused (reputationGovernance : Address) (before : List (Tx × Call)) : EvidenceState :=
  run (EvidenceState.next evm 2 9) (.start start reputationGovernance 4) (accusing before)

/-- Where Reputation obeys the evidence contract, the offender keeps all but the publisher stake. -/
theorem accused_not_slashed : (accused 4 []).Ripe 9 (tx 13 90000 0) 0 ∧
    (accused 4 []).executeEvidence 9 (tx 13 90000 0) 0 = .error (.message "Only governance") ∧
    (accused 9 []).Ripe 9 (tx 13 90000 0) 0 ∧
    ((accused 9 []).executeEvidence 9 (tx 13 90000 0) 0).toOption.map (fun after =>
      (after.slashing.record 0).accepted && after.world.staking.isActiveValidator 12 && (after.world.staking.entry 12).stake ==
        100 * 10 ^ 18) =
        some true := by
  refine ⟨?_,?_,?_,?_⟩
  · decide +kernel
  · decide +kernel
  · decide +kernel
  · decide +kernel

theorem accused_slashed : (accused 9 (publishing 12 (101 * 10 ^ 18))).Ripe 9 (tx 13 90000 0) 0 ∧
    ∃ after, (accused 9 (publishing 12 (101 * 10 ^ 18))).executeEvidence 9 (tx 13 90000 0) 0 = .ok after ∧
      after.SlashedOut 12 := by
  have ripe : (accused 9 (publishing 12 (101 * 10 ^ 18))).Ripe 9 (tx 13 90000 0) 0 := by decide +kernel
  have slashed := (EvidenceState.evidence_slashes_iff 9 (tx 13 90000 0) 0 _ ripe).mpr (by decide +kernel)
  have offender : ((accused 9 (publishing 12 (101 * 10 ^ 18))).slashing.record 0).offender = 12 := by decide +kernel
  rw [offender] at slashed
  exact ⟨ripe,slashed⟩

end Small
end ChainRegistry
