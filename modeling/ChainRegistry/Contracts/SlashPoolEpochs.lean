import ChainRegistry.Contracts.ConsensusAdmission
import Mathlib.Algebra.Order.BigOperators.Group.List
import Mathlib.Algebra.Order.Group.Nat

/-! An epoch of the slash pool from its commitment to the last claim. A claim takes its part of what
is left, not of what was committed, so only a claimant with the whole weight can empty it. -/
namespace ChainRegistry
open Lib Runs Fallible List Option Finset Function

variable {a : Address}

section Weights
variable {α : Type} {weight : α → Nat} {list : List α}

theorem sum_filter_pos (weight : α → Nat) (list : List α) :
    ((list.filter fun a => 0 < weight a).map weight).sum = (list.map weight).sum := by
  induction list with
  | nil => rfl
  | cons a list ih =>
    by_cases weighs : 0 < weight a
    · rw [List.filter_cons_of_pos (by simpa using weighs),List.map_cons,List.map_cons,List.sum_cons,List.sum_cons,ih]
    · rw [List.filter_cons_of_neg (by simpa using weighs),ih,List.map_cons,List.sum_cons,Nat.eq_zero_of_not_pos weighs,
        Nat.zero_add]

theorem filter_pos_of_sum {a : α} (inside : a ∈ list) (weighs : 0 < weight a) (all : (list.map weight).sum = weight a) :
    (list.filter fun b => 0 < weight b) = [a] := by
  induction list with
  | nil => cases inside
  | cons b list ih =>
    rw [List.map_cons,List.sum_cons] at all
    rcases List.mem_cons.mp inside with rfl | later
    · have rest : ∀ c ∈ list, ¬0 < weight c := by
        intro c among
        have part := le_sum_of_mem (List.mem_map_of_mem (f := weight) among)
        omega
      rw [List.filter_cons_of_pos (by simpa using weighs),filter_eq_nil_iff.mpr (by simpa using rest)]
    · have part := le_sum_of_mem (List.mem_map_of_mem (f := weight) later)
      rw [List.filter_cons_of_neg (by simp; omega),ih later (by omega)]

end Weights

namespace Staking
def epochs (staking : Staking) : Nat × Finset (Nat × Address) := (staking.slashPoolEpoch,staking.slashPoolClaimed)

def NoneAhead (staking : Staking) : Prop := ∀ claim ∈ staking.slashPoolClaimed, claim.1 ≤ staking.slashPoolEpoch

def weightIn (tx : Tx) (staking : Staking) (a : Address) : Nat :=
  if (staking.entry a).state = .active then (tx.scoreOf staking.reputation a).getD 0 else 0

def scorers (tx : Tx) (staking : Staking) : List Address :=
  staking.validatorList.filter fun a => 0 < staking.weightIn tx a

def SameScores (staking : Staking) (first second : Tx) : Prop :=
  ∀ a, (staking.entry a).state = .active → second.scoreOf staking.reputation a = first.scoreOf staking.reputation a

structure ClaimFrame (before after : Staking) : Prop where
  states : ∀ a, (after.entry a).state = (before.entry a).state
  validatorList : after.validatorList = before.validatorList
  reputation : after.reputation = before.reputation
  governance : after.governance = before.governance
  slashPoolEpoch : after.slashPoolEpoch = before.slashPoolEpoch
  slashPoolEpochTotalWeight : after.slashPoolEpochTotalWeight = before.slashPoolEpochTotalWeight

variable {staking : Staking}

theorem ClaimFrame.rfl : ClaimFrame staking staking := by
  constructor
  · intro a
    exact Eq.refl _
  all_goals exact Eq.refl _

theorem ClaimFrame.trans {first second third : Staking} (early : ClaimFrame first second) (late : ClaimFrame second third) :
    ClaimFrame first third where
  states a := (late.states a).trans (early.states a)
  validatorList := late.validatorList.trans early.validatorList
  reputation := late.reputation.trans early.reputation
  governance := late.governance.trans early.governance
  slashPoolEpoch := late.slashPoolEpoch.trans early.slashPoolEpoch
  slashPoolEpochTotalWeight := late.slashPoolEpochTotalWeight.trans early.slashPoolEpochTotalWeight

structure EachOnce (staking : Staking) (claims : List Tx) : Prop where
  once : (claims.map Tx.sender).Nodup
  all : (claims.map Tx.sender).toFinset = staking.activeAccounts

theorem weightIn_frame {before after : Staking} {first second : Tx} (frame : before.ClaimFrame after)
    (scores : before.SameScores first second) (a : Address) : after.weightIn second a = before.weightIn first a := by
  unfold weightIn
  rw [frame.states,frame.reputation]
  split_ifs with active
  · rw [scores a active]
  · rfl

variable {tx : Tx}

theorem active_of_weightIn (weighs : 0 < staking.weightIn tx a) : (staking.entry a).state = .active := by
  by_contra idle
  rw [weightIn,if_neg idle] at weighs
  exact absurd weighs (Nat.lt_irrefl 0)

theorem weightIn_of_scorers {a b : Address} (listed : staking.roster.Listed) (sole : staking.scorers tx = [a])
    (other : b ≠ a) : staking.weightIn tx b = 0 := by
  by_contra weighs
  have positive := Nat.pos_of_ne_zero weighs
  have among : b ∈ staking.scorers tx :=
    List.mem_filter.mpr ⟨listed b (.inr (active_of_weightIn positive)),decide_eq_true positive⟩
  rw [sole,List.mem_singleton] at among
  exact other among

theorem weight_of_scorers (sole : staking.scorers tx = [a]) :
    (staking.validatorList.map (staking.weightIn tx)).sum = staking.weightIn tx a := by
  rw [← sum_filter_pos,← scorers,sole,List.map_singleton,List.sum_singleton]

theorem pos_of_scorers (sole : staking.scorers tx = [a]) : 0 < staking.weightIn tx a := by
  have among : a ∈ staking.scorers tx := by
    rw [sole]
    exact List.mem_singleton_self a
  exact of_decide_eq_true (List.mem_filter.mp among).2

theorem NoneAhead.of_eq {before after : Staking} (none : before.NoneAhead) (same : after.epochs = before.epochs) :
    after.NoneAhead := by
  obtain ⟨epoch,claimed⟩ := Prod.mk.inj same
  intro claim inside
  rw [claimed] at inside
  rw [epoch]
  exact none claim inside

end Staking

namespace World
variable {evm : Evm} {self : Address} {tx : Tx} {world final : World} {logs : List Log} {before after : Staking}
  {account : Address} {amount : Nat}

theorem stakeFor_epochs {publisher : Address} (ok : world.stakeFor self publisher amount = .ok (final,logs)) :
    final.staking.epochs = world.staking.epochs := by
  simp only [stakeFor,bind_ok,require_and,Prod.exists,pair_ok] at ok
  obtain ⟨_,_,_,_,_,_,rfl,_⟩ := ok
  rfl

theorem applyFor_epochs {validator : Address} (ok : world.applyFor self tx validator amount = .ok (final,logs)) :
    final.staking.epochs = world.staking.epochs := by
  simp only [applyFor,bind_ok,require_and,Prod.exists,pair_ok] at ok
  obtain ⟨_,_,_,_,_,_,_,rfl,_⟩ := ok
  rfl

theorem payBack_epochs {outcome : ValidatorState} {announcement : Nat → List Log}
    (ok : world.payBack self account outcome announcement = .ok (final,logs)) :
    final.staking.epochs = world.staking.epochs := by
  simp only [payBack,bind_ok,Prod.exists,pair_ok] at ok
  obtain ⟨_,_,_,rfl,_⟩ := ok
  rfl

theorem tryPermit_epochs {owner : Address} {value deadline : Nat} {v : UInt8} {r s : Word} :
    (world.tryPermit evm self tx owner value deadline v r s).1.staking.epochs = world.staking.epochs := by
  rw [(tryPermit_staking evm self tx world owner value deadline v r s).1]

theorem takeStake_epochs {amount taken : Nat} (ok : takeStake tx account amount before = .ok (after,taken,logs)) :
    after.epochs = before.epochs := by
  unfold takeStake at ok
  dsimp only at ok
  split_ifs at ok
  · simp only [slashValidator,bind_ok,Prod.exists,pair_ok] at ok
    obtain ⟨_,_,⟨_,_,_,_,cut⟩,rfl,_,_⟩ := ok
    split_ifs at cut
    all_goals
      cases cut
      rfl
  · simp only [slashPublisher,bind_ok,pure_ok,Prod.mk.injEq] at ok
    obtain ⟨_,⟨_,_,rfl⟩,rfl,_,_⟩ := ok
    rfl
  · simp only [bind_ok,pair_ok] at ok
    obtain ⟨_,_,rfl,_,_⟩ := ok
    rfl

theorem executeSlash_epochs {reason : String} (ok : world.executeSlash tx account amount reason = .ok (final,logs)) :
    final.staking.epochs = world.staking.epochs := by
  simp only [executeSlash,bind_ok,Prod.exists,pair_ok] at ok
  obtain ⟨staking,_,_,taken,_,_,rfl,_⟩ := ok
  have kept := takeStake_epochs taken
  exact kept

theorem payShares_epochs {pool totalWeight : Nat} {list : List Address}
    (ok : payShares tx pool totalWeight list before = .ok after) : after.epochs = before.epochs := by
  induction list generalizing before with
  | nil =>
    cases ok
    rfl
  | cons val list ih =>
    unfold payShares at ok
    dsimp only at ok
    split_ifs at ok
    · simp only [bind_ok] at ok
      obtain ⟨_,_,_,_,_,_,_,_,ok⟩ := ok
      have kept := ih ok
      exact kept
    · exact ih ok

theorem call_noneAhead {call : Call} (ok : world.call evm self tx call = .ok (final,logs)) (none : world.staking.NoneAhead) :
    final.staking.NoneAhead := by
  cases call with
  | setContracts | setSlasher | disableEmergencyGovernance =>
    simp only [World.call,setContracts,setSlasher,disableEmergencyGovernance,bind_ok,require_and,pair_ok] at ok
    obtain ⟨_,_,rfl,_⟩ := ok
    exact none.of_eq rfl
  | initiateUnbonding | updateMinStakes | transferGovernance =>
    simp only [World.call,initiateUnbonding,updateMinStakes,transferGovernance,bind_ok,require_and,pair_ok] at ok
    obtain ⟨_,rfl,_⟩ := ok
    exact none.of_eq rfl
  | stakeAsPublisher amount => exact none.of_eq (stakeFor_epochs ok)
  | stakeAsPublisherWithPermit publisher amount deadline v r s =>
    obtain ⟨later,done,rfl⟩ := withPermit_ok ok
    exact none.of_eq ((stakeFor_epochs done).trans tryPermit_epochs)
  | unstakeAsPublisher amount =>
    simp only [World.call,unstakeAsPublisher,bind_ok,require_and,Prod.exists,pair_ok] at ok
    obtain ⟨_,_,_,_,_,_,rfl,_⟩ := ok
    exact none.of_eq rfl
  | applyToBeValidator amount => exact none.of_eq (applyFor_epochs ok)
  | applyToBeValidatorWithPermit validator amount deadline v r s =>
    obtain ⟨later,done,rfl⟩ := withPermit_ok ok
    exact none.of_eq ((applyFor_epochs done).trans tryPermit_epochs)
  | approveValidator validator =>
    simp only [World.call,approveValidator,bind_ok,require_and,pair_ok] at ok
    obtain ⟨_,_,_,rfl,_⟩ := ok
    exact none.of_eq rfl
  | rejectValidator validator =>
    simp only [World.call,rejectValidator,bind_ok,require_and] at ok
    exact none.of_eq (payBack_epochs ok.2.2.2)
  | approveByConsensus applicant nonce signers sigs =>
    simp only [World.call,approveByConsensus,bind_ok,require_and,pair_ok] at ok
    obtain ⟨_,_,_,_,_,_,_,_,_,_,_,rfl,_⟩ := ok
    exact none.of_eq rfl
  | expireApplication | withdrawValidatorStake =>
    simp only [World.call,expireApplication,withdrawValidatorStake,bind_ok,require_and] at ok
    obtain ⟨_,_,_,_,ok⟩ := ok
    exact none.of_eq (payBack_epochs ok)
  | slashSeverity account severity reason =>
    simp only [World.call,slashSeverity,bind_ok,require_and] at ok
    obtain ⟨_,_,_,ok⟩ := ok
    exact none.of_eq (executeSlash_epochs ok)
  | slash account amount reason =>
    simp only [World.call,slash,bind_ok,require_and] at ok
    exact none.of_eq (executeSlash_epochs ok.2)
  | distributeSlashPool =>
    simp only [World.call,distributeSlashPool,bind_ok,require_and,Prod.exists,pair_ok] at ok
    obtain ⟨_,_,_,_,_,_,_,shared,rfl,_⟩ := ok
    have kept := payShares_epochs shared
    exact none.of_eq kept
  | commitSlashPoolEpoch =>
    -- the number of the epoch goes up, and the claims stay
    simp only [World.call,commitSlashPoolEpoch,bind_ok,require_and,Prod.exists,checkedAdd_ok,pair_ok] at ok
    obtain ⟨_,_,_,_,_,_,_,_,⟨_,rfl⟩,rfl,_⟩ := ok
    intro claim inside
    exact (none claim inside).trans (Nat.le_succ _)
  | claimSlashPoolShare =>
    simp only [World.call,claimSlashPoolShare,bind_ok,require_and,pair_ok] at ok
    obtain ⟨_,_,_,_,_,_,_,_,_,_,_,_,_,_,rfl,_⟩ := ok
    intro claim inside
    rcases mem_insert.mp inside with rfl | earlier
    · exact le_rfl
    · exact none claim earlier
  | _ =>
    obtain ⟨_,_,rfl⟩ := onToken_ok ok
    exact none

variable {accounts : Accounts}

theorem noneAhead_run {start : World} (deployed : World.deploy evm accounts = .ok (start,logs))
    (events : List (Tx × Call)) : (run (next evm self) start events).staking.NoneAhead := by
  apply kept_run (fun world : World => world.staking.NoneAhead) events
  · intro world event _ none
    rcases perform_cases evm self world event with ⟨final,announced,done⟩ | ⟨-,same⟩
    · rw [next_of_ok done]
      exact call_noneAhead done none
    · rw [next,same]
      exact none
  · rw [deploy_staking deployed]
    intro claim inside
    exact absurd inside (notMem_empty claim)

theorem weigh_ok {staking : Staking} {list : List Address} {weight count last total : Nat}
    (ok : weigh tx staking list weight count = .ok (last,total)) :
    last = weight + (list.map (staking.weightIn tx)).sum := by
  induction list generalizing weight count with
  | nil =>
    cases ok
    rfl
  | cons val list ih =>
    unfold weigh at ok
    rw [List.map_cons,List.sum_cons,Staking.weightIn]
    split_ifs at ok ⊢ with active
    · simp only [bind_ok,score_ok,checkedAdd_ok] at ok
      obtain ⟨own,found,_,⟨_,rfl⟩,ok⟩ := ok
      rw [ih ok,found,getD_some,Nat.add_assoc]
    · rw [ih ok,Nat.zero_add]

theorem weigh_again {later : Tx} {list : List Address} {weight count : Nat}
    (states : ∀ a, (after.entry a).state = (before.entry a).state) (reputation : after.reputation = before.reputation)
    (scores : before.SameScores tx later) : weigh later after list weight count = weigh tx before list weight count := by
  induction list generalizing weight count with
  | nil => rfl
  | cons val list ih =>
    unfold weigh
    rw [states val]
    split_ifs with active
    · have same : score later after val = score tx before val := by
        unfold score
        rw [reputation,scores val active]
      rw [same]
      simp only [ih]
    · exact ih

structure Claims (tx : Tx) (world final : World) : Prop where
  active : (world.staking.entry tx.sender).state = .active
  left : 0 < world.staking.slashPoolEpochAmount
  scored : 0 < world.staking.weightIn tx tx.sender
  weighed : 0 < world.staking.slashPoolEpochTotalWeight
  scaled : world.staking.slashPoolEpochAmount * world.staking.weightIn tx tx.sender < 2 ^ 256
  credited : (world.staking.entry tx.sender).stake +
    world.staking.slashPoolEpochAmount * world.staking.weightIn tx tx.sender / world.staking.slashPoolEpochTotalWeight < 2 ^ 256
  after : final.staking =
    (world.staking.noteClaim world.staking.slashPoolEpoch tx.sender (world.staking.slashPoolEpochAmount -
      world.staking.slashPoolEpochAmount * world.staking.weightIn tx tx.sender /
        world.staking.slashPoolEpochTotalWeight)).setEntry
        tx.sender {world.staking.entry tx.sender with stake := (world.staking.entry tx.sender).stake +
          world.staking.slashPoolEpochAmount * world.staking.weightIn tx tx.sender / world.staking.slashPoolEpochTotalWeight}

theorem claimSlashPoolShare_ok (ok : world.claimSlashPoolShare tx = .ok (final,logs)) : Claims tx world final := by
  simp only [claimSlashPoolShare,bind_ok,require_and,score_ok,checkedMul_ok,checkedDiv_ok,checkedAdd_ok,pair_ok] at ok
  obtain ⟨_,left,_,active,own,found,scored,_,⟨scaled,rfl⟩,_,⟨weighed,rfl⟩,_,_,⟨credited,rfl⟩,rfl,_⟩ := ok
  have weight : world.staking.weightIn tx tx.sender = own := by
    rw [Staking.weightIn,if_pos active,found,getD_some]
  rw [← weight] at scored scaled credited ⊢
  refine ⟨active,left,scored,Nat.pos_of_ne_zero weighed,scaled,credited,?_⟩
  have rest : ∀ amount share : Nat, (if amount ≤ share then 0 else amount - share) = amount - share := by
    intro amount share
    split_ifs with all
    · exact (Nat.sub_eq_zero_of_le all).symm
    · rfl
  rw [rest]

theorem claimFrame_next (world : World) (tx : Tx) :
    world.staking.ClaimFrame (world.next evm self (tx,.claimSlashPoolShare)).staking := by
  rcases perform_cases evm self world (tx,.claimSlashPoolShare) with ⟨final,logs,done⟩ | ⟨-,same⟩
  · rw [next_of_ok done,(claimSlashPoolShare_ok done).after]
    refine ⟨?_,rfl,rfl,rfl,rfl,rfl⟩
    intro a
    rw [Staking.entry_setEntry,update_apply]
    split_ifs with own
    · rw [own]
    · rfl
  · rw [next,same]
    exact .rfl

theorem claim_unscored (world : World) (tx : Tx) (unscored : world.staking.weightIn tx tx.sender = 0) :
    world.next evm self (tx,.claimSlashPoolShare) = world := by
  rcases perform_cases evm self world (tx,.claimSlashPoolShare) with ⟨final,logs,done⟩ | ⟨-,same⟩
  · exact absurd unscored (Nat.ne_of_gt (claimSlashPoolShare_ok done).scored)
  · rw [next,same]

theorem claim_leaves (world : World) (tx : Tx) (left : 0 < world.staking.slashPoolEpochAmount)
    (less : world.staking.weightIn tx tx.sender < world.staking.slashPoolEpochTotalWeight) :
    0 < (world.next evm self (tx,.claimSlashPoolShare)).staking.slashPoolEpochAmount := by
  rcases perform_cases evm self world (tx,.claimSlashPoolShare) with ⟨final,logs,done⟩ | ⟨-,same⟩
  · rw [next_of_ok done,(claimSlashPoolShare_ok done).after]
    have share : world.staking.slashPoolEpochAmount * world.staking.weightIn tx tx.sender /
        world.staking.slashPoolEpochTotalWeight < world.staking.slashPoolEpochAmount := by
      rw [Nat.div_lt_iff_lt_mul (Nat.zero_lt_of_lt less)]
      exact Nat.mul_lt_mul_of_pos_left less left
    exact Nat.sub_pos_of_lt share
  · rw [next,same]
    exact left

def claimed (evm : Evm) (self : Address) (world : World) (claims : List Tx) : World :=
  run (next evm self) world (claims.map fun tx => (tx,.claimSlashPoolShare))

def Renewable (world : World) (commit : Tx) : Prop :=
  ∀ later pool, later.sender = world.staking.governance → world.staking.SameScores commit later → 0 < pool →
    (commitSlashPoolEpoch later {world with staking := world.staking.setSlashPool pool}).isOk

theorem claimFrame_claimed (world : World) (claims : List Tx) :
    world.staking.ClaimFrame (claimed evm self world claims).staking := by
  induction claims generalizing world with
  | nil => exact .rfl
  | cons tx claims ih => exact (claimFrame_next world tx).trans (ih _)

theorem claimed_unscored {claims : List Tx} (unscored : ∀ tx ∈ claims, world.staking.weightIn tx tx.sender = 0) :
    claimed evm self world claims = world := by
  induction claims with
  | nil => rfl
  | cons tx claims ih =>
    rw [claimed,List.map_cons,run_cons,claim_unscored world tx (unscored tx List.mem_cons_self)]
    exact ih fun later among => unscored later (List.mem_cons_of_mem _ among)

theorem claimed_leaves {commit : Tx} {claims : List Tx} (scores : ∀ tx ∈ claims, world.staking.SameScores commit tx)
    (left : 0 < world.staking.slashPoolEpochAmount)
    (less : ∀ a, world.staking.weightIn commit a < world.staking.slashPoolEpochTotalWeight) :
    0 < (claimed evm self world claims).staking.slashPoolEpochAmount := by
  have kept : world.staking.ClaimFrame (claimed evm self world claims).staking ∧
      0 < (claimed evm self world claims).staking.slashPoolEpochAmount := by
    refine kept_run (fun later : World => world.staking.ClaimFrame later.staking ∧ 0 < later.staking.slashPoolEpochAmount)
      _ ?_ world ⟨.rfl,left⟩
    intro later event among holds
    obtain ⟨tx,inside,rfl⟩ := List.mem_map.mp among
    obtain ⟨frame,left⟩ := holds
    refine ⟨frame.trans (claimFrame_next later tx),claim_leaves later tx left ?_⟩
    rw [Staking.weightIn_frame frame (scores tx inside),frame.slashPoolEpochTotalWeight]
    exact less tx.sender
  exact kept.2

theorem claimed_sole {commit : Tx} {claims : List Tx} (listed : world.staking.roster.Listed)
    (each : world.staking.EachOnce claims) (scores : ∀ tx ∈ claims, world.staking.SameScores commit tx)
    (sole : world.staking.scorers commit = [a]) :
    ∃ own ∈ claims, own.sender = a ∧ claimed evm self world claims = world.next evm self (own,.claimSlashPoolShare) := by
  have active := Staking.active_of_weightIn (Staking.pos_of_scorers sole)
  have claims_a : a ∈ claims.map Tx.sender := by
    rw [← List.mem_toFinset,each.all]
    exact (world.staking.mem_activeAccounts a).mpr active
  obtain ⟨own,inside,rfl⟩ := List.mem_map.mp claims_a
  refine ⟨own,inside,rfl,?_⟩
  obtain ⟨early,late,rfl⟩ := append_of_mem inside
  have apart := each.once
  rw [map_append,List.map_cons,nodup_append] at apart
  obtain ⟨-,second,disjoint⟩ := apart
  have first : claimed evm self world early = world := by
    apply claimed_unscored
    intro tx among
    have other : tx.sender ≠ own.sender :=
      disjoint _ (List.mem_map_of_mem among) _ List.mem_cons_self
    rw [Staking.weightIn_frame .rfl (scores tx (mem_append_left _ among))]
    exact Staking.weightIn_of_scorers listed sole other
  have split : claimed evm self world (early ++ own :: late) =
      claimed evm self ((claimed evm self world early).next evm self (own,.claimSlashPoolShare)) late := by
    rw [claimed,map_append,run_append]
    rfl
  rw [split,first]
  apply claimed_unscored
  intro tx among
  have other : tx.sender ≠ own.sender := by
    intro same
    apply (nodup_cons.mp second).1
    rw [← same]
    exact List.mem_map_of_mem among
  rw [Staking.weightIn_frame (claimFrame_next world own)
    (scores tx (mem_append_right _ (List.mem_cons_of_mem _ among)))]
  exact Staking.weightIn_of_scorers listed sole other

theorem commitSlashPoolEpoch_ok (ok : world.commitSlashPoolEpoch tx = .ok (final,logs)) :
    tx.sender = world.staking.governance ∧ world.staking.slashPoolEpochAmount = 0 ∧ 0 < world.staking.slashPool ∧
      world.staking.slashPoolEpoch + 1 < 2 ^ 256 ∧
      ∃ weight count, weigh tx world.staking world.staking.validatorList 0 0 = .ok (weight,count) ∧ 0 < weight ∧
        final = {world with staking :=
          (world.staking.openEpoch (world.staking.slashPoolEpoch + 1) world.staking.slashPool weight).setSlashPool 0} := by
  simp only [commitSlashPoolEpoch,bind_ok,require_and,Prod.exists,checkedAdd_ok,pair_ok] at ok
  obtain ⟨governs,drained,filled,weight,count,weighed,positive,_,⟨counts,rfl⟩,rfl,_⟩ := ok
  exact ⟨governs,drained,filled,counts,weight,count,weighed,positive,rfl⟩

theorem commitSlashPoolEpoch_isOk {weight count : Nat} (governs : tx.sender = world.staking.governance)
    (drained : world.staking.slashPoolEpochAmount = 0) (filled : 0 < world.staking.slashPool)
    (weighed : weigh tx world.staking world.staking.validatorList 0 0 = .ok (weight,count)) (positive : 0 < weight)
    (counts : world.staking.slashPoolEpoch + 1 < 2 ^ 256) : (world.commitSlashPoolEpoch tx).isOk := by
  rw [isOk_iff]
  simp only [commitSlashPoolEpoch,bind_ok,require_and,Prod.exists,checkedAdd_ok,pair_ok]
  exact ⟨_,_,governs,drained,filled,weight,count,weighed,positive,_,⟨counts,rfl⟩,rfl,rfl⟩

theorem claimSlashPoolShare_isOk (numbered : 0 < world.staking.slashPoolEpoch)
    (fresh : (world.staking.slashPoolEpoch,tx.sender) ∉ world.staking.slashPoolClaimed)
    (left : 0 < world.staking.slashPoolEpochAmount) (scored : 0 < world.staking.weightIn tx tx.sender)
    (whole : world.staking.slashPoolEpochTotalWeight = world.staking.weightIn tx tx.sender)
    (scaled : world.staking.slashPoolEpochAmount * world.staking.weightIn tx tx.sender < 2 ^ 256)
    (credited : (world.staking.entry tx.sender).stake + world.staking.slashPoolEpochAmount < 2 ^ 256) :
    ∃ final logs, world.claimSlashPoolShare tx = .ok (final,logs) := by
  have active := Staking.active_of_weightIn scored
  obtain ⟨own,found⟩ : ∃ own, tx.scoreOf world.staking.reputation tx.sender = some own := by
    rw [Staking.weightIn,if_pos active] at scored
    cases found : tx.scoreOf world.staking.reputation tx.sender with
    | none =>
      rw [found] at scored
      exact absurd scored (Nat.lt_irrefl 0)
    | some own => exact ⟨own,rfl⟩
  have weight : world.staking.weightIn tx tx.sender = own := by
    rw [Staking.weightIn,if_pos active,found,getD_some]
  rw [weight] at scored whole scaled
  have share : world.staking.slashPoolEpochAmount * own / world.staking.slashPoolEpochTotalWeight =
      world.staking.slashPoolEpochAmount := by
    rw [whole]
    exact Nat.mul_div_cancel _ scored
  have nonzero : world.staking.slashPoolEpochTotalWeight ≠ 0 := by
    rw [whole]
    exact Nat.ne_of_gt scored
  simp only [claimSlashPoolShare,bind_ok,require_and,score_ok,checkedMul_ok,checkedDiv_ok,checkedAdd_ok,pair_ok]
  exact ⟨_,_,numbered,left,fresh,active,own,found,scored,_,⟨scaled,rfl⟩,_,⟨nonzero,share⟩,left,_,⟨credited,rfl⟩,rfl,rfl⟩

/-- The condition, read before the commitment: one entry of the list has weight, and the
amounts fit. -/
def SoleScorer (staking : Staking) (commit : Tx) (a : Address) : Prop :=
  staking.scorers commit = [a] ∧ staking.slashPool * staking.weightIn commit a < 2 ^ 256 ∧
    (staking.entry a).stake + staking.slashPool < 2 ^ 256 ∧ staking.slashPoolEpoch + 2 < 2 ^ 256

def PaidFixedShares (commit : Tx) (committed after : Staking) : Prop :=
  ∀ a, (committed.entry a).state = .active → (after.entry a).stake = (committed.entry a).stake +
    committed.slashPoolEpochAmount * committed.weightIn commit a / committed.slashPoolEpochTotalWeight

structure Commits (commit : Tx) (world committed : World) : Prop where
  governs : commit.sender = committed.staking.governance
  filled : 0 < world.staking.slashPool
  amount : committed.staking.slashPoolEpochAmount = world.staking.slashPool
  epoch : committed.staking.slashPoolEpoch = world.staking.slashPoolEpoch + 1
  roster : committed.staking.roster = world.staking.roster
  reputation : committed.staking.reputation = world.staking.reputation
  claims : committed.staking.slashPoolClaimed = world.staking.slashPoolClaimed
  positive : 0 < committed.staking.slashPoolEpochTotalWeight
  weighed : ∃ count, weigh commit committed.staking committed.staking.validatorList 0 0 =
    .ok (committed.staking.slashPoolEpochTotalWeight,count)

theorem commitSlashPoolEpoch_commits {commit : Tx} {committed : World}
    (ok : world.commitSlashPoolEpoch commit = .ok (committed,logs)) : Commits commit world committed := by
  obtain ⟨governs,_,filled,_,weight,count,weighed,positive,rfl⟩ := commitSlashPoolEpoch_ok ok
  refine ⟨governs,filled,rfl,rfl,rfl,rfl,rfl,positive,count,?_⟩
  have same : weigh commit ((world.staking.openEpoch (world.staking.slashPoolEpoch + 1) world.staking.slashPool
      weight).setSlashPool 0) world.staking.validatorList 0 0 = weigh commit world.staking world.staking.validatorList 0 0 :=
    weigh_again (fun _ => rfl) rfl (fun _ _ => rfl)
  exact same.trans weighed

namespace Commits
variable {commit : Tx} {committed : World} (commits : Commits commit world committed)

include commits

theorem entry (a : Address) : committed.staking.entry a = world.staking.entry a :=
  congrFun (congrArg Roster.entry commits.roster) a

theorem weightIn (a : Address) : committed.staking.weightIn commit a = world.staking.weightIn commit a := by
  rw [Staking.weightIn,Staking.weightIn,commits.entry,commits.reputation]

theorem scorers : committed.staking.scorers commit = world.staking.scorers commit := by
  have list : committed.staking.validatorList = world.staking.validatorList := congrArg Roster.listed commits.roster
  rw [Staking.scorers,Staking.scorers,list]
  apply List.filter_congr
  intro a _
  rw [commits.weightIn]

theorem total : committed.staking.slashPoolEpochTotalWeight =
    (committed.staking.validatorList.map (committed.staking.weightIn commit)).sum := by
  obtain ⟨count,weighed⟩ := commits.weighed
  rw [weigh_ok weighed,Nat.zero_add]

theorem total_of_scorers (sole : committed.staking.scorers commit = [a]) :
    committed.staking.slashPoolEpochTotalWeight = committed.staking.weightIn commit a :=
  commits.total.trans (Staking.weight_of_scorers sole)

theorem scorers_of_total (listed : committed.staking.roster.Listed)
    (whole : committed.staking.slashPoolEpochTotalWeight ≤ committed.staking.weightIn commit a) :
    committed.staking.scorers commit = [a] := by
  have positive := commits.positive.trans_le whole
  have inside : a ∈ committed.staking.validatorList := listed a (.inr (Staking.active_of_weightIn positive))
  apply filter_pos_of_sum inside positive
  rw [← commits.total]
  apply le_antisymm whole
  rw [commits.total]
  exact le_sum_of_mem (List.mem_map_of_mem inside)

end Commits

section Epoch
variable {commit : Tx} {committed : World} {claims : List Tx} (commits : Commits commit world committed)
  (listed : committed.staking.roster.Listed) (each : committed.staking.EachOnce claims)
  (scores : ∀ tx ∈ claims, committed.staking.SameScores commit tx)

include commits listed each scores

theorem sole_of_renewable (renewable : Renewable (claimed evm self committed claims) commit) :
    ∃ a, SoleScorer world.staking commit a := by
  have frame : committed.staking.ClaimFrame (claimed evm self committed claims).staking := claimFrame_claimed committed claims
  have governs := commits.governs.trans frame.governance.symm
  obtain ⟨⟨_,_⟩,again⟩ := isOk_iff.mp (renewable commit 1 governs (fun _ _ => rfl) Nat.one_pos)
  obtain ⟨_,drained,_,counts,_⟩ := commitSlashPoolEpoch_ok again
  change (claimed evm self committed claims).staking.slashPoolEpoch + 1 < _ at counts
  rw [frame.slashPoolEpoch,commits.epoch] at counts
  have left : 0 < committed.staking.slashPoolEpochAmount := by
    rw [commits.amount]
    exact commits.filled
  -- somebody has the whole weight, or the epoch would not be empty
  obtain ⟨a,whole⟩ : ∃ a, committed.staking.slashPoolEpochTotalWeight ≤ committed.staking.weightIn commit a := by
    by_contra none
    push Not at none
    exact absurd drained (Nat.ne_of_gt (claimed_leaves scores left none))
  have sole := commits.scorers_of_total listed whole
  obtain ⟨own,inside,rfl,only⟩ : ∃ own ∈ claims, own.sender = a ∧
      claimed evm self committed claims = committed.next evm self (own,.claimSlashPoolShare) :=
    claimed_sole listed each scores sole
  have weight : committed.staking.weightIn own own.sender = committed.staking.weightIn commit own.sender :=
    Staking.weightIn_frame .rfl (scores own inside) own.sender
  rcases perform_cases evm self committed (own,.claimSlashPoolShare) with ⟨final,_,done⟩ | ⟨-,same⟩
  · have claim := claimSlashPoolShare_ok done
    have scaled := claim.scaled
    have credited := claim.credited
    have total := commits.total_of_scorers sole
    rw [weight,total,Nat.mul_div_cancel _ (Staking.pos_of_scorers sole),commits.amount,commits.entry] at credited
    rw [weight,commits.amount,commits.weightIn] at scaled
    exact ⟨own.sender,commits.scorers.symm.trans sole,scaled,credited,counts⟩
  · rw [only,next,same] at drained
    exact absurd drained (Nat.ne_of_gt left)

theorem pays_of_sole (fresh : ∀ a, (committed.staking.slashPoolEpoch,a) ∉ committed.staking.slashPoolClaimed)
    (sole : SoleScorer world.staking commit a) :
    PaidFixedShares commit committed.staking (claimed evm self committed claims).staking ∧
      Renewable (claimed evm self committed claims) commit := by
  obtain ⟨only,scaled,credited,counts⟩ := sole
  rw [← commits.scorers] at only
  rw [← commits.weightIn,← commits.amount] at scaled
  rw [← commits.entry,← commits.amount] at credited
  have total := commits.total_of_scorers only
  have scored := Staking.pos_of_scorers only
  have left : 0 < committed.staking.slashPoolEpochAmount := by
    rw [commits.amount]
    exact commits.filled
  obtain ⟨own,inside,rfl,all⟩ : ∃ own ∈ claims, own.sender = a ∧
      claimed evm self committed claims = committed.next evm self (own,.claimSlashPoolShare) :=
    claimed_sole listed each scores only
  have weight : committed.staking.weightIn own own.sender = committed.staking.weightIn commit own.sender :=
    Staking.weightIn_frame .rfl (scores own inside) own.sender
  obtain ⟨final,logs,done⟩ : ∃ final logs, committed.claimSlashPoolShare own = .ok (final,logs) := by
    apply claimSlashPoolShare_isOk
    · rw [commits.epoch]
      exact Nat.succ_pos _
    · exact fresh own.sender
    · exact left
    · rw [weight]
      exact scored
    · rw [weight]
      exact total
    · rw [weight]
      exact scaled
    · exact credited
  have after := (claimSlashPoolShare_ok done).after
  rw [weight,total,Nat.mul_div_cancel _ scored] at after
  have stepped : committed.next evm self (own,.claimSlashPoolShare) = final := next_of_ok done
  rw [all,stepped]
  constructor
  · intro b active
    rw [after,Staking.entry_setEntry,update_apply,total]
    split_ifs with same
    · rw [same,Nat.mul_div_cancel _ scored]
    · rw [Staking.weightIn_of_scorers listed only same,Nat.mul_zero,Nat.zero_div,Nat.add_zero]
      rfl
  · intro later pool governs kept filled
    have frame : committed.staking.ClaimFrame final.staking := by
      rw [← stepped]
      exact claimFrame_next committed own
    have constant : committed.staking.SameScores commit later := by
      intro b active
      rw [← frame.reputation]
      apply kept b
      rw [frame.states]
      exact active
    obtain ⟨count,weighed⟩ := commits.weighed
    have drained : final.staking.slashPoolEpochAmount = 0 := by
      rw [after]
      exact Nat.sub_self _
    have again : weigh later (final.staking.setSlashPool pool) final.staking.validatorList 0 0 =
        .ok (committed.staking.slashPoolEpochTotalWeight,count) := by
      rw [← weighed,frame.validatorList]
      exact weigh_again frame.states frame.reputation constant
    have counted : final.staking.slashPoolEpoch + 1 < 2 ^ 256 := by
      rw [frame.slashPoolEpoch,commits.epoch]
      exact counts
    exact commitSlashPoolEpoch_isOk governs drained filled again commits.positive counted

end Epoch

/-- In whatever order the active accounts claim, each gets its part and the next epoch can be committed
exactly if one entry of the list has all the weight. -/
theorem epoch_pays_fixed_shares_iff {start : World}
    (deployed : World.deploy evm accounts = .ok (start,logs)) (events : List (Tx × Call)) (commit : Tx) {committed : World}
    {announced : List Log} (done : (run (next evm accounts.staking) start events).call evm accounts.staking commit
      .commitSlashPoolEpoch = .ok (committed,announced))
    (claims : List Tx) (each : committed.staking.EachOnce claims)
    (scores : ∀ tx ∈ claims, committed.staking.SameScores commit tx) :
    PaidFixedShares commit committed.staking (claimed evm accounts.staking committed claims).staking ∧
        Renewable (claimed evm accounts.staking committed claims) commit ↔
      ∃ a, SoleScorer (run (next evm accounts.staking) start events).staking commit a := by
  have listed : (run (next evm accounts.staking) start events).staking.roster.Listed := listed_run deployed events
  have none : (run (next evm accounts.staking) start events).staking.NoneAhead := noneAhead_run deployed events
  have commits := commitSlashPoolEpoch_commits done
  rw [← commits.roster] at listed
  constructor
  · intro holds
    exact sole_of_renewable commits listed each scores holds.2
  · rintro ⟨a,sole⟩
    apply pays_of_sole commits listed each scores _ sole
    intro b claimedAhead
    rw [commits.claims,commits.epoch] at claimedAhead
    exact absurd (none _ claimedAhead) (Nat.not_succ_le_self _)

end World

namespace Small
def slashed : List (Tx × Call) := joining 10 100 ++ [(tx 4 200 0,.slash 10 (50 * 10 ^ 18) "")]

theorem only_validator_paid : ∃ committed announced,
    (run (World.next evm 2) start slashed).call evm 2 (tx 4 300 1) .commitSlashPoolEpoch = .ok (committed,announced) ∧
      World.PaidFixedShares (tx 4 300 1) committed.staking (World.claimed evm 2 committed [tx 10 400 1]).staking ∧
      World.Renewable (World.claimed evm 2 committed [tx 10 400 1]) (tx 4 300 1) := by
  have succeeds : ((run (World.next evm 2) start slashed).call evm 2 (tx 4 300 1) .commitSlashPoolEpoch).isOk := by
    decide +kernel
  have actives : ∀ committed announced,
      (run (World.next evm 2) start slashed).call evm 2 (tx 4 300 1) .commitSlashPoolEpoch = .ok (committed,announced) →
        committed.staking.EachOnce [tx 10 400 1] := by
    rintro _ _ ⟨⟩
    exact ⟨by decide,by decide +kernel⟩
  obtain ⟨⟨committed,announced⟩,done⟩ := isOk_iff.mp succeeds
  obtain ⟨logs,deployed⟩ := deployed
  have constant : ∀ claim ∈ [tx 10 400 1], committed.staking.SameScores (tx 4 300 1) claim := by
    intro claim inside
    cases List.mem_singleton.mp inside
    exact fun _ _ => rfl
  refine ⟨committed,announced,done,(World.epoch_pays_fixed_shares_iff deployed slashed (tx 4 300 1) done [tx 10 400 1]
    (actives _ _ done) constant).mpr ⟨10,?_⟩⟩
  unfold World.SoleScorer
  decide +kernel

def slashedOfTwo : List (Tx × Call) :=
  joining 10 100 ++ joining 11 100 ++ [(tx 4 200 0,.slash 10 (50 * 10 ^ 18) "")]

theorem second_claim_is_smaller : ∃ committed announced, (∃ logs, World.deploy evm accounts = .ok (start,logs)) ∧
    (run (World.next evm 2) start slashedOfTwo).call evm 2 (tx 4 300 1) .commitSlashPoolEpoch = .ok (committed,announced) ∧
    committed.staking.EachOnce [tx 10 400 1,tx 11 500 1] ∧
    ((World.claimed evm 2 committed [tx 10 400 1,tx 11 500 1]).staking.entry 10).stake = 75 * 10 ^ 18 ∧
    ((World.claimed evm 2 committed [tx 10 400 1,tx 11 500 1]).staking.entry 11).stake = 1125 * 10 ^ 17 ∧
    0 < (((World.claimed evm 2 committed [tx 10 400 1,tx 11 500 1]).next evm 2
      (tx 4 600 1,.slash 10 (10 * 10 ^ 18) "")).staking.slashPool) ∧
    (((World.claimed evm 2 committed [tx 10 400 1,tx 11 500 1]).next evm 2
      (tx 4 600 1,.slash 10 (10 * 10 ^ 18) "")).call evm 2 (tx 4 700 1) .commitSlashPoolEpoch) =
        .error (.message "previous epoch not fully claimed") := by
  refine ⟨_,_,deployed,rfl,⟨by decide,?_⟩,?_⟩
  · decide +kernel
  · decide +kernel

end Small
end ChainRegistry
