import ChainRegistry.Contracts.Holdings

/-! The rewards of the validators: `contracts/ValidatorRewards.sol`, beside the token and the
staking contract, without events, views and `emergencyWithdraw`. -/
namespace ChainRegistry
open Lib Runs Fallible List Ledger CregToken.Backs

variable {packageWasGood : Bool}

structure ValidatorRewards where
  (governance treasury : Address)
  (pendingRewards packagesVerified correctVotes incorrectVotes : Table Address Nat)
  (totalRewardsDistributed totalPackagesVerified : Nat)

structure RewardsState where
  world : World
  rewards : ValidatorRewards

namespace ValidatorRewards
def basePackageReward : Nat := 5 * 10 ^ 17
def correctVoteBonus : Nat := 3 * 10 ^ 17
def incorrectVotePenalty : Nat := 10 ^ 17
def minPackageReward : Nat := 10 ^ 17

def deploy (governance treasury : Address) : ValidatorRewards := ⟨governance,treasury,∅,∅,∅,∅,0,0⟩

def pending (rewards : ValidatorRewards) (validator : Address) : Nat := read 0 rewards.pendingRewards validator

def votedCorrectly (packageWasGood validatorApproved : Bool) : Bool :=
  (packageWasGood && validatorApproved) || (!packageWasGood && !validatorApproved)

def calculateWorkReward (votedCorrectly : Bool) (reputationScore : Nat) : Except Revert Nat :=
  if votedCorrectly then do
    let reward ← checkedAdd basePackageReward correctVoteBonus
    let scaled ← checkedMul basePackageReward reputationScore
    checkedAdd reward (scaled / 500)
  else if incorrectVotePenalty < basePackageReward then checkedSub basePackageReward incorrectVotePenalty
  else .ok minPackageReward

def credit (validator : Address) (reward : Nat) (correct : Bool) (rewards : ValidatorRewards) :
    Except Revert ValidatorRewards := do
  let pending ← checkedAdd (rewards.pending validator) reward
  let verified ← checkedAdd (read 0 rewards.packagesVerified validator) 1
  let counted := {rewards with
    pendingRewards := rewards.pendingRewards.insert validator pending
    packagesVerified := rewards.packagesVerified.insert validator verified}
  if correct then do
    let votes ← checkedAdd (read 0 rewards.correctVotes validator) 1
    return {counted with correctVotes := rewards.correctVotes.insert validator votes}
  else do
    let votes ← checkedAdd (read 0 rewards.incorrectVotes validator) 1
    return {counted with incorrectVotes := rewards.incorrectVotes.insert validator votes}

def simpleReward (rewardPerValidator : Nat) (correct : Bool) : Except Revert Nat := do
  let reward ←
    if correct then checkedAdd rewardPerValidator correctVoteBonus else checkedSub rewardPerValidator incorrectVotePenalty
  return if reward < minPackageReward then minPackageReward else reward

def processSimpleReward (staking : Staking) (packageWasGood : Bool) (rewardPerValidator : Nat) (rewards : ValidatorRewards)
    (entry : Address × Bool) : Except Revert ValidatorRewards :=
  if staking.isActiveValidator entry.1 = false then .ok rewards
  else do
    let correct := votedCorrectly packageWasGood entry.2
    let reward ← simpleReward rewardPerValidator correct
    rewards.credit entry.1 reward correct

def rewardPerValidator (validators : Nat) : Nat :=
  if basePackageReward / validators < minPackageReward then minPackageReward else basePackageReward / validators

end ValidatorRewards

namespace RewardsState
open ValidatorRewards

abbrev Result := Except Revert RewardsState

variable (evm : Evm) (staking self : Address) (tx : Tx)

def processValidatorReward (packageWasGood : Bool) (state : RewardsState) (entry : Address × Bool × Nat) : Result :=
  if state.world.staking.isActiveValidator entry.1 = false then .ok state
  else do
    let correct := votedCorrectly packageWasGood entry.2.1
    let reward ← calculateWorkReward correct entry.2.2
    let credited ← state.rewards.credit entry.1 reward correct
    let total ← checkedAdd credited.totalRewardsDistributed reward
    let (token,_) ← state.world.token.transferFrom self state.rewards.treasury self reward
    return ⟨{state.world with token := token},{credited with totalRewardsDistributed := total}⟩

/-- Governance and the staking contract may distribute; the staking contract never does. -/
def mayDistribute (state : RewardsState) : Bool := tx.sender = state.rewards.governance || tx.sender = staking

variable (validators : List Address) (approvals : List Bool)

def distributeWorkRewards (packageWasGood : Bool) (reputationScores : List Nat) (state : RewardsState) : Result := do
  require (state.mayDistribute staking tx) .notAuthorized
  require (validators.length = approvals.length ∧ validators.length = reputationScores.length) .invalidVoteDistribution
  require (validators.length ≠ 0) .invalidVoteDistribution
  let packages ← checkedAdd state.rewards.totalPackagesVerified 1
  (validators.zip (approvals.zip reputationScores)).foldlM (processValidatorReward self packageWasGood)
    {state with rewards := {state.rewards with totalPackagesVerified := packages}}

def distributeSimpleWorkRewards (packageWasGood : Bool) (state : RewardsState) : Result := do
  require (state.mayDistribute staking tx) .notAuthorized
  require (validators.length = approvals.length) .invalidVoteDistribution
  require (validators.length ≠ 0) .invalidVoteDistribution
  let packages ← checkedAdd state.rewards.totalPackagesVerified 1
  let totalReward ← checkedMul (rewardPerValidator validators.length) validators.length
  let (token,_) ← state.world.token.transferFrom self state.rewards.treasury self totalReward
  let rewards ← (validators.zip approvals).foldlM
    (processSimpleReward state.world.staking packageWasGood (rewardPerValidator validators.length))
    {state.rewards with totalPackagesVerified := packages}
  let total ← checkedAdd rewards.totalRewardsDistributed totalReward
  return ⟨{state.world with token := token},{rewards with totalRewardsDistributed := total}⟩

def claimRewards (state : RewardsState) : Result := do
  let amount := state.rewards.pending tx.sender
  require (amount ≠ 0) .noRewardsToClaim
  let (token,_) ← state.world.token.transfer self tx.sender amount
  return ⟨{state.world with token := token},
    {state.rewards with pendingRewards := state.rewards.pendingRewards.insert tx.sender 0}⟩

def fundTreasury (amount : Nat) (state : RewardsState) : Result := do
  let (token,_) ← state.world.token.transferFrom self tx.sender state.rewards.treasury amount
  return {state with world := {state.world with token := token}}

def setTreasury (newTreasury : Address) (state : RewardsState) : Result := do
  require (tx.sender = state.rewards.governance) .notAuthorized
  return {state with rewards := {state.rewards with treasury := newTreasury}}

end RewardsState

inductive RewardsCall
  | distributeWorkRewards (validators : List Address) (approvals : List Bool) (packageWasGood : Bool)
    (reputationScores : List Nat)
  | distributeSimpleWorkRewards (validators : List Address) (approvals : List Bool) (packageWasGood : Bool)
  | claimRewards
  | fundTreasury (amount : Nat)
  | setTreasury (newTreasury : Address)
  | elsewhere (call : Call)

namespace RewardsState
variable (evm : Evm) (staking self : Address)

def call (tx : Tx) (state : RewardsState) : RewardsCall → Result
  | .distributeWorkRewards validators approvals packageWasGood reputationScores =>
    state.distributeWorkRewards staking self tx validators approvals packageWasGood reputationScores
  | .distributeSimpleWorkRewards validators approvals packageWasGood =>
    state.distributeSimpleWorkRewards staking self tx validators approvals packageWasGood
  | .claimRewards => state.claimRewards self tx
  | .fundTreasury amount => state.fundTreasury self tx amount
  | .setTreasury newTreasury => state.setTreasury tx newTreasury
  | .elsewhere call => (state.world.call evm staking tx call).map fun (world,_) => {state with world := world}

def next (state : RewardsState) (event : Tx × RewardsCall) : RewardsState :=
  match state.call evm staking self event.1 event.2 with
  | .ok after => after
  | .error _ => state

def Funded (self : Address) (state : RewardsState) : Prop :=
  total id state.rewards.pendingRewards ≤ state.world.token.balanceOf self

instance fundedDecidable (self : Address) (state : RewardsState) : Decidable (state.Funded self) :=
  inferInstanceAs (Decidable (_ ≤ _))

def External (state : RewardsState) (event : Tx × RewardsCall) : Prop :=
  event.1.sender ≠ self ∧ match event.2 with
    | .elsewhere call => call.Keyless evm staking self state.world.token
    | _ => True

end RewardsState

namespace ValidatorRewards
def simpleCredit (staking : Staking) (packageWasGood : Bool) (share : Nat) (entry : Address × Bool) : Nat :=
  if staking.isActiveValidator entry.1 = false then 0
  else if votedCorrectly packageWasGood entry.2 then share + correctVoteBonus
  else max (share - incorrectVotePenalty) minPackageReward

end ValidatorRewards

/-- The credits of a simple distribution are covered by what it pulls from the treasury, with the tokens of
the contract that are promised to nobody. -/
def RewardsState.Covered (self : Address) (state : RewardsState) (event : Tx × RewardsCall) : Prop :=
  match event.2 with
  | .distributeSimpleWorkRewards validators approvals packageWasGood =>
    let share := ValidatorRewards.rewardPerValidator validators.length
    ((validators.zip approvals).map (ValidatorRewards.simpleCredit state.world.staking packageWasGood share)).sum ≤
      share * validators.length + (state.world.token.balanceOf self - total id state.rewards.pendingRewards)
  | _ => True

instance RewardsState.coveredDecidable (self : Address) (state : RewardsState) : (event : Tx × RewardsCall) →
    Decidable (state.Covered self event)
  | (_,.distributeSimpleWorkRewards ..) => inferInstanceAs (Decidable (_ ≤ _))
  | (_,.distributeWorkRewards ..) | (_,.claimRewards) | (_,.fundTreasury _) | (_,.setTreasury _) | (_,.elsewhere _) =>
    isTrue trivial

namespace ValidatorRewards
variable {rewards after : ValidatorRewards} {correct : Bool} {share : Nat}

theorem credit_total {validator : Address} {reward : Nat} (ok : rewards.credit validator reward correct = .ok after) :
    total id after.pendingRewards = total id rewards.pendingRewards + reward := by
  have changed : total id (rewards.pendingRewards.insert validator (rewards.pending validator + reward)) +
      rewards.pending validator = total id rewards.pendingRewards + (rewards.pending validator + reward) :=
    total_insert id rfl _ _ _
  have inserted : after.pendingRewards = rewards.pendingRewards.insert validator (rewards.pending validator + reward) := by
    simp only [credit,bind_ok,checkedAdd_ok] at ok
    obtain ⟨_,⟨_,rfl⟩,_,_,counted⟩ := ok
    split_ifs at counted
    all_goals
      simp only [bind_ok,pure_ok] at counted
      obtain ⟨_,_,rfl⟩ := counted
      rfl
  rw [inserted]
  omega

theorem simpleReward_ok {share reward : Nat} (ok : simpleReward share correct = .ok reward) :
    reward = if correct then share + correctVoteBonus else max (share - incorrectVotePenalty) minPackageReward := by
  cases correct with
  | true =>
    simp only [simpleReward,if_true,bind_ok,checkedAdd_ok,pure_ok] at ok
    obtain ⟨_,⟨_,rfl⟩,rfl⟩ := ok
    have least : ¬ share + correctVoteBonus < minPackageReward := by
      rw [correctVoteBonus,minPackageReward]
      omega
    rw [if_neg least,if_pos rfl]
  | false =>
    simp only [simpleReward,Bool.false_eq_true,if_false,bind_ok,checkedSub_ok,pure_ok] at ok
    obtain ⟨_,⟨_,rfl⟩,rfl⟩ := ok
    rw [max_def_lt,if_neg Bool.false_ne_true]

theorem processSimpleReward_total {staking : Staking} {entry : Address × Bool}
    (ok : processSimpleReward staking packageWasGood share rewards entry = .ok after) :
    total id after.pendingRewards = total id rewards.pendingRewards + simpleCredit staking packageWasGood share entry := by
  rw [processSimpleReward] at ok
  rw [simpleCredit]
  split_ifs at ok ⊢ with passive correct
  · cases ok
    rfl
  · rw [bind_ok] at ok
    obtain ⟨reward,made,ok⟩ := ok
    rw [credit_total ok,simpleReward_ok made,if_pos correct]
  · rw [bind_ok] at ok
    obtain ⟨reward,made,ok⟩ := ok
    rw [credit_total ok,simpleReward_ok made,if_neg correct]

theorem simple_total {staking : Staking} {entries : List (Address × Bool)}
    (ok : entries.foldlM (processSimpleReward staking packageWasGood share) rewards = .ok after) :
    total id after.pendingRewards =
      total id rewards.pendingRewards + (entries.map (simpleCredit staking packageWasGood share)).sum := by
  induction entries generalizing rewards with
  | nil =>
    cases ok
    rfl
  | cons entry entries ih =>
    rw [foldlM_cons,bind_ok] at ok
    obtain ⟨middle,first,rest⟩ := ok
    rw [ih rest,processSimpleReward_total first,map_cons,sum_cons,Nat.add_assoc]

end ValidatorRewards

namespace RewardsState
open ValidatorRewards

variable {evm : Evm} {staking self : Address} {tx : Tx} {state after : RewardsState} {event : Tx × RewardsCall}

def Kept (self : Address) (state : RewardsState) : Prop :=
  state.world.token.Backs self (total id state.rewards.pendingRewards)

theorem Kept.processValidatorReward {entry : Address × Bool × Nat} (kept : state.Kept self)
    (ok : state.processValidatorReward self packageWasGood entry = .ok after) : after.Kept self := by
  rw [RewardsState.processValidatorReward] at ok
  split_ifs at ok with passive
  · cases ok
    exact kept
  · simp only [bind_ok,Prod.exists,pure_ok] at ok
    obtain ⟨reward,_,credited,made,_,_,token,_,pulled,rfl⟩ := ok
    exact (CregToken.Backs.pulled kept pulled).less (credit_total made).le

theorem Kept.distributeSimple {validators : List Address} {approvals : List Bool} (kept : state.Kept self)
    (covered : state.Covered self (tx,.distributeSimpleWorkRewards validators approvals packageWasGood))
    (ok : state.distributeSimpleWorkRewards staking self tx validators approvals packageWasGood = .ok after) :
      after.Kept self := by
  simp only [distributeSimpleWorkRewards,bind_ok,require_and,checkedMul_ok,Prod.exists,pure_ok] at ok
  obtain ⟨_,_,_,_,_,_,⟨_,rfl⟩,token,_,pulled,rewards,looped,_,_,rfl⟩ := ok
  -- all that the contract held before the call counts, promised or not
  have held : state.world.token.Backs self (state.world.token.balanceOf self) := ⟨le_rfl,kept.guarded⟩
  apply (held.pulled pulled).less
  have total := simple_total looped
  have promised := kept.covered
  rw [Covered] at covered
  dsimp only at covered total ⊢
  omega

theorem Kept.claim (kept : state.Kept self) (ok : state.claimRewards self tx = .ok after) : after.Kept self := by
  simp only [claimRewards,bind_ok,require_and,Prod.exists,pure_ok] at ok
  obtain ⟨_,token,_,paid,rfl⟩ := ok
  have changed : total id (state.rewards.pendingRewards.insert tx.sender 0) + state.rewards.pending tx.sender =
      total id state.rewards.pendingRewards + 0 := total_insert id rfl _ _ _
  apply (CregToken.Backs.paid kept paid).less
  dsimp only
  omega

theorem Kept.call (apart : self ≠ staking) (kept : state.Kept self) (external : state.External evm staking self event)
    (covered : state.Covered self event) (ok : state.call evm staking self event.1 event.2 = .ok after) : after.Kept self := by
  obtain ⟨tx,call⟩ := event
  cases call with
  | distributeWorkRewards validators approvals packageWasGood reputationScores =>
    simp only [RewardsState.call,RewardsState.distributeWorkRewards,bind_ok,require_and] at ok
    obtain ⟨_,_,_,packages,_,looped⟩ := ok
    have counted : Kept self {state with rewards := {state.rewards with totalPackagesVerified := packages}} := kept
    exact foldlM_invariant (fun _ _ _ kept ok => Kept.processValidatorReward kept ok) counted looped
  | distributeSimpleWorkRewards validators approvals packageWasGood => exact kept.distributeSimple covered ok
  | claimRewards => exact kept.claim ok
  | fundTreasury amount =>
    simp only [RewardsState.call,RewardsState.fundTreasury,bind_ok,Prod.exists,pure_ok] at ok
    obtain ⟨token,_,pulled,rfl⟩ := ok
    exact keeps kept (.pulled pulled kept.guarded)
  | setTreasury newTreasury =>
    simp only [RewardsState.call,RewardsState.setTreasury,bind_ok,require_and,pure_ok] at ok
    obtain ⟨_,rfl⟩ := ok
    exact kept
  | elsewhere call =>
    rw [RewardsState.call,map_ok] at ok
    obtain ⟨⟨world,logs⟩,done,rfl⟩ := ok
    exact keeps kept (World.call_keeps done apart external.1 external.2 kept.guarded)

theorem Kept.next (apart : self ≠ staking) (kept : state.Kept self)
    (allowed : state.External evm staking self event ∧ state.Covered self event) :
    (state.next evm staking self event).Kept self := by
  rw [RewardsState.next]
  cases done : state.call evm staking self event.1 event.2 with
  | ok after => exact kept.call apart allowed.1 allowed.2 done
  | error _ => exact kept

/-- The rewards are funded in every run in which the simple distributions are covered. -/
theorem rewards_funded {accounts : Accounts} {world : World} {logs : List Log}
    (deployed : World.deploy evm accounts = .ok (world,logs))
    (apart : self ≠ accounts.staking) (governance treasury : Address) (events : List (Tx × RewardsCall))
    (external : Along (next evm accounts.staking self) (External evm accounts.staking self)
      ⟨world,deploy governance treasury⟩ events)
    (covered : Along (next evm accounts.staking self) (Covered self) ⟨world,deploy governance treasury⟩ events) :
    Throughout (next evm accounts.staking self) (Funded self) ⟨world,deploy governance treasury⟩ events := by
  have start : Kept self ⟨world,deploy governance treasury⟩ := ⟨Nat.zero_le _,World.deploy_guarded deployed⟩
  exact throughout_run (fun _ _ kept allowed => kept.next apart allowed) (fun _ kept => kept.covered) _ events start
    (along_and external covered)

end RewardsState

namespace Small
def rewarding (rewards : List (Tx × RewardsCall)) : List (Tx × RewardsCall) :=
  (joining 10 100).map (fun event => (event.1,.elsewhere event.2)) ++ [(tx 5 150 0,.elsewhere (.approve 7 (10 ^ 20)))] ++ rewards

def unrewarded : RewardsState := ⟨start,.deploy 4 5⟩

theorem rewarding_external {rewards : List (Tx × RewardsCall)}
    (external : Along (RewardsState.next evm 2 7) (RewardsState.External evm 2 7)
      (run (RewardsState.next evm 2 7) unrewarded (rewarding [])) rewards) :
    Along (RewardsState.next evm 2 7) (RewardsState.External evm 2 7) unrewarded (rewarding rewards) := by
  have validator : (10 : Address) ≠ 7 := by decide
  have governance : (4 : Address) ≠ 7 := by decide
  have treasury : (5 : Address) ≠ 7 := by decide
  exact ⟨⟨validator,trivial⟩,⟨validator,trivial⟩,⟨governance,trivial⟩,⟨treasury,trivial⟩,external⟩

theorem bonus_not_funded : (∃ logs, World.deploy evm accounts = .ok (start,logs)) ∧
    Along (RewardsState.next evm 2 7) (RewardsState.External evm 2 7) unrewarded
      (rewarding [(tx 4 200 0,.distributeSimpleWorkRewards [10] [true] true)]) ∧
    ¬ (run (RewardsState.next evm 2 7) unrewarded
      (rewarding [(tx 4 200 0,.distributeSimpleWorkRewards [10] [true] true)])).Funded 7 := by
  refine ⟨deployed,rewarding_external ⟨⟨by decide,trivial⟩,trivial⟩,?_⟩
  decide +kernel

def rewarded : List (Tx × RewardsCall) :=
  rewarding [(tx 4 200 0,.distributeWorkRewards [10,11] [true,true] true [50,50]),
    (tx 4 300 0,.distributeSimpleWorkRewards [10] [false] true),(tx 10 400 0,.claimRewards)]

theorem rewarded_funded : (run (RewardsState.next evm 2 7) unrewarded rewarded).rewards.packagesVerified.lookup 10 = some 2 ∧
    Throughout (RewardsState.next evm 2 7) (RewardsState.Funded 7) unrewarded rewarded := by
  obtain ⟨logs,deployed⟩ := deployed
  have validator : (10 : Address) ≠ 7 := by decide
  have governance : (4 : Address) ≠ 7 := by decide
  refine ⟨by decide +kernel,RewardsState.rewards_funded deployed (by decide) 4 5 rewarded ?_ ?_⟩
  · exact rewarding_external ⟨⟨governance,trivial⟩,⟨governance,trivial⟩,⟨validator,trivial⟩,trivial⟩
  · refine ⟨trivial,trivial,trivial,trivial,trivial,?_,trivial,trivial⟩
    decide +kernel

end Small
end ChainRegistry
