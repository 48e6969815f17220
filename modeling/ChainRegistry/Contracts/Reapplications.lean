import ChainRegistry.Contracts.Refinement

/-! A further application of an account against what the contract has recorded for it. The
new entry replaces the old one, so everything depends on which entries still hold a stake. -/
namespace ChainRegistry
open Lib Runs Fallible

namespace Roster
variable {now : Nat} {roster : Roster}

def Settled (roster : Roster) : Prop :=
  ∀ a, 0 < (roster.entry a).stake →
    roster.stateOf a = .pending ∨ roster.stateOf a = .active ∨ roster.stateOf a = .unbonding

theorem Settled.step (settled : roster.Settled) {move : Move} (allowed : roster.Allowed now move) :
    (roster.step now move).Settled := by
  intro a staked
  rw [entry_step] at staked
  rw [stateOf,entry_step]
  split_ifs at staked ⊢ with same
  · subst same
    cases move with
    | apply a amount => exact .inl rfl
    | activate a => exact .inr (.inl rfl)
    | unbond | eject => exact .inr (.inr rfl)
    | cut | reward => exact .inr (.inl allowed)
    | _ => exact absurd staked (Nat.lt_irrefl 0)
  · exact settled a staked

end Roster

def Staking.recorded (staking : Staking) (account : Address) : Nat :=
  staking.publisherStake account + (staking.entry account).stake

namespace World
variable {evm : Evm} {self : Address} {tx : Tx} {world final : World} {logs : List Log} {accounts : Accounts}

theorem settled_run {start : World} (deployed : World.deploy evm accounts = .ok (start,logs))
    (events : List (Tx × Call)) : (run (next evm self) start events).staking.roster.Settled := by
  apply kept_run (fun world : World => world.staking.roster.Settled) events
  · intro world event _
    apply roster_next
    intro now roster move settled allowed
    exact settled.step allowed
  · intro a staked
    have blank : start.staking.entry a = .blank := by
      rw [deploy_staking deployed]
      exact entry_deploy _ _ a
    change 0 < (start.staking.entry a).stake at staked
    rw [blank] at staked
    exact absurd staked (Nat.lt_irrefl 0)

theorem applyFor_recorded {validator : Address} {amount : Nat} (ok : world.applyFor self tx validator amount = .ok (final,logs)) :
    final.staking.recorded validator = world.staking.publisherStake validator + amount ∧
      (world.staking.entry validator).state ≠ .pending ∧ (world.staking.entry validator).state ≠ .active := by
  simp only [applyFor,bind_ok,require_and,Prod.exists,pair_ok] at ok
  obtain ⟨free,_,_,_,token,_,_,rfl,_⟩ := ok
  refine ⟨?_,free⟩
  have written := congrFun (world.staking.entry_setEntry validator ⟨amount,.pending,0,0,0,tx.timestamp⟩) validator
  rw [Function.update_self] at written
  change world.staking.publisherStake validator + ((world.staking.setEntry validator _).entry validator).stake = _
  rw [written]

/-- An application adds its amount to what is recorded for the applicant exactly if this is not
leaving with a stake. -/
theorem application_adds_amount_iff {start : World}
    (deployed : World.deploy evm accounts = .ok (start,logs)) (events : List (Tx × Call)) (tx : Tx) (amount : Nat)
    {announced : List Log} (done : (run (next evm accounts.staking) start events).call evm accounts.staking tx
      (.applyToBeValidator amount) = .ok (final,announced)) :
    final.staking.recorded tx.sender = (run (next evm accounts.staking) start events).staking.recorded tx.sender + amount ↔
      ¬(((run (next evm accounts.staking) start events).staking.entry tx.sender).state = .unbonding ∧
        0 < ((run (next evm accounts.staking) start events).staking.entry tx.sender).stake) := by
  have settled : (run (next evm accounts.staking) start events).staking.roster.Settled := settled_run deployed events
  generalize run (next evm accounts.staking) start events = world at done settled ⊢
  obtain ⟨after,notPending,notActive⟩ := applyFor_recorded done
  rw [after,Staking.recorded]
  constructor
  · intro adds leaving
    have staked := leaving.2
    omega
  · intro stays
    have empty : (world.staking.entry tx.sender).stake = 0 := by
      by_contra some
      rcases settled tx.sender (Nat.pos_of_ne_zero some) with pending | active | leaving
      · exact notPending pending
      · exact notActive active
      · exact stays ⟨leaving,Nat.pos_of_ne_zero some⟩
    omega

end World

namespace Small
def applying (account : Address) (timestamp : Nat) : List (Tx × Call) :=
  [(tx account timestamp 0,.approve 2 (100 * 10 ^ 18)),(tx account timestamp 0,.applyToBeValidator (100 * 10 ^ 18))]

def rejected : List (Tx × Call) :=
  applying 10 100 ++ [(tx 4 150 0,.rejectValidator 10),(tx 10 200 0,.approve 2 (100 * 10 ^ 18))]

theorem rejected_applies_again : ∃ final announced,
    (run (World.next evm 2) start rejected).call evm 2 (tx 10 200 0) (.applyToBeValidator (100 * 10 ^ 18)) =
        .ok (final,announced) ∧
      final.staking.recorded 10 = (run (World.next evm 2) start rejected).staking.recorded 10 + 100 * 10 ^ 18 := by
  have succeeds : ((run (World.next evm 2) start rejected).call evm 2 (tx 10 200 0)
      (.applyToBeValidator (100 * 10 ^ 18))).isOk := by decide +kernel
  obtain ⟨⟨final,announced⟩,done⟩ := isOk_iff.mp succeeds
  obtain ⟨logs,deployed⟩ := deployed
  refine ⟨final,announced,done,(World.application_adds_amount_iff deployed rejected _ _ done).mpr ?_⟩
  decide +kernel

def returning : List (Tx × Call) :=
  joining 10 100 ++ [(tx 10 150 0,.initiateUnbonding),(tx 10 200 0,.approve 2 (100 * 10 ^ 18))]

theorem leaving_stake_lost : ∃ final announced, (∃ logs, World.deploy evm accounts = .ok (start,logs)) ∧
    (run (World.next evm 2) start returning).call evm 2 (tx 10 200 0) (.applyToBeValidator (100 * 10 ^ 18)) =
      .ok (final,announced) ∧
    (run (World.next evm 2) start returning).staking.recorded 10 = 100 * 10 ^ 18 ∧
    final.staking.recorded 10 = 100 * 10 ^ 18 ∧ final.token.balanceOf 2 = 200 * 10 ^ 18 := by
  refine ⟨_,_,deployed,rfl,?_⟩
  decide +kernel

end Small
end ChainRegistry
