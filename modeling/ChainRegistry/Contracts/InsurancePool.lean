import ChainRegistry.Contracts.PackageInsurance

/-! The pool of the insurance against the tokens that the contract holds. -/
namespace ChainRegistry
open Lib Runs Fallible CregToken.Backs

namespace InsuranceState
open PackageInsurance

variable (evm : Evm) (staking self : Address)

def next (state : InsuranceState) (event : InsuranceTx × InsuranceCall) : InsuranceState :=
  match state.call evm staking self event.1 event.2 with
  | .ok (after,_) => after
  | .error _ => state

def PoolBacked (self : Address) (state : InsuranceState) : Prop := state.insurance.poolBalance ≤ state.world.token.balanceOf self

instance poolBackedDecidable (self : Address) (state : InsuranceState) : Decidable (state.PoolBacked self) :=
  inferInstanceAs (Decidable (_ ≤ _))

def slashedFor (tx : InsuranceTx) (claimId payout : Nat) (state : InsuranceState) : Nat :=
  let policy := state.insurance.policy (state.insurance.claim claimId).policyId
  min payout (state.world.staking.stakedBalance (tx.package policy.packageCanonical).publisher)

/-- A claim is approved only where the contract holds tokens beyond the pool for what the slash adds to it. -/
def SlashCovered (self : Address) (state : InsuranceState) (event : InsuranceTx × InsuranceCall) : Prop :=
  match event.2 with
  | .resolveClaim claimId .approved payout =>
    state.slashedFor event.1 claimId payout ≤ state.world.token.balanceOf self - state.insurance.poolBalance
  | _ => True

variable {evm staking self} {tx : InsuranceTx} {state after : InsuranceState} {payments : List Payment}
  {event : InsuranceTx × InsuranceCall}

def Pooled (self : Address) (state : InsuranceState) : Prop := state.world.token.Backs self state.insurance.poolBalance

theorem Pooled.resolve {claimId payout : Nat} {status : ClaimStatus} (pooled : state.Pooled self)
    (covered : state.SlashCovered self (tx,.resolveClaim claimId status payout))
    (ok : state.resolveClaim self tx claimId status payout = .ok (after,payments)) : after.Pooled self := by
  obtain ⟨_,⟨rfl,paid⟩ | ⟨_,_,rfl⟩⟩ := resolveClaim_ok ok
  · obtain ⟨world,token,_,_,_,moved,_,rfl⟩ := payClaim_ok paid
    -- all that the contract held before the call counts, in the pool or not
    have held : state.world.token.Backs self (state.world.token.balanceOf self) := ⟨le_rfl,pooled.guarded⟩
    apply (held.paid moved).less
    have before := pooled.covered
    rw [SlashCovered] at covered
    dsimp only [slashedFor] at covered ⊢
    omega
  · exact pooled

theorem Pooled.call (apart : self ≠ staking) (pooled : state.Pooled self) (external : state.External evm staking self event)
    (covered : state.SlashCovered self event) (ok : state.call evm staking self event.1 event.2 = .ok (after,payments)) :
    after.Pooled self := by
  obtain ⟨tx,call⟩ := event
  cases call with
  | purchaseInsurance packageCanonical coverageAmount =>
    obtain ⟨premium,token,_,_,pulled,_,rfl⟩ := purchaseInsurance_ok ok
    exact CregToken.Backs.pulled pooled pulled
  | cancelPolicy policyId =>
    obtain ⟨refund,token,_,_,_,_,_,moved,_,rfl⟩ := cancelPolicy_ok ok
    exact paid pooled moved
  | renewPolicy policyId =>
    obtain ⟨newPremium,token,_,_,pulled,_,rfl⟩ := renewPolicy_ok ok
    exact CregToken.Backs.pulled pooled pulled
  | submitClaim policyId amount reason evidence =>
    obtain ⟨_,_,rfl⟩ := submitClaim_ok ok
    exact pooled
  | resolveClaim claimId status payout => exact pooled.resolve covered ok
  | setClaimUnderReview claimId =>
    simp only [InsuranceState.call,setClaimUnderReview,bind_ok,require_and,pair_ok] at ok
    obtain ⟨_,_,_,rfl,_⟩ := ok
    exact pooled
  | replenishPool amount =>
    simp only [InsuranceState.call,replenishPool,bind_ok,checkedAdd_ok,Prod.exists,pair_ok] at ok
    obtain ⟨token,_,pulled,_,⟨_,rfl⟩,rfl,_⟩ := ok
    exact CregToken.Backs.pulled pooled pulled
  | emergencyWithdraw dst amount =>
    simp only [InsuranceState.call,emergencyWithdraw,bind_ok,require_and,checkedSub_ok,Prod.exists,pair_ok] at ok
    obtain ⟨_,_,_,⟨_,rfl⟩,token,_,moved,rfl,_⟩ := ok
    exact paid pooled moved
  | set setting =>
    obtain ⟨same,_,unchanged⟩ := set_ok ok
    rw [Pooled,same,unchanged.poolBalance]
    exact pooled
  | elsewhere call =>
    rw [InsuranceState.call,map_ok] at ok
    obtain ⟨⟨world,logs⟩,done,same⟩ := ok
    cases same
    exact keeps pooled (World.call_keeps done apart external.1 external.2 pooled.guarded)

theorem Pooled.next (apart : self ≠ staking) (pooled : state.Pooled self)
    (allowed : state.External evm staking self event ∧ state.SlashCovered self event) :
    (state.next evm staking self event).Pooled self := by
  rw [InsuranceState.next]
  cases done : state.call evm staking self event.1 event.2 with
  | ok result => exact pooled.call apart allowed.1 allowed.2 done
  | error _ => exact pooled

/-- The pool is backed in every run in which the slashes are covered. -/
theorem pool_backed {accounts : Accounts} {world : World} {logs : List Log}
    (deployed : World.deploy evm accounts = .ok (world,logs))
    (apart : self ≠ accounts.staking) (governance : Address) (events : List (InsuranceTx × InsuranceCall))
    (external : Along (next evm accounts.staking self) (External evm accounts.staking self) ⟨world,deploy governance⟩ events)
    (covered : Along (next evm accounts.staking self) (SlashCovered self) ⟨world,deploy governance⟩ events) :
    Throughout (next evm accounts.staking self) (PoolBacked self) ⟨world,deploy governance⟩ events := by
  have start : Pooled self ⟨world,deploy governance⟩ := ⟨Nat.zero_le _,World.deploy_guarded deployed⟩
  exact throughout_run (fun _ _ pooled allowed => pooled.next apart allowed) (fun _ pooled => pooled.covered) _ events start
    (along_and external covered)

end InsuranceState

/-! An insurance at 8, with a pool of a hundred tokens, one policy and one claim. -/
namespace Small
def packageName : Bytes := ⟨[112,107,103],by decide⟩

def insuring (sender : Address) (timestamp : Nat) (status : Registry.PackageStatus) : InsuranceTx where
  toTx := tx sender timestamp 0
  package _ := {Registry.PackageRecord.blank with status := status, publisher := 12}
  dependents _ := none

def uninsured : InsuranceState := ⟨start,.deploy 4⟩

def insured : List (InsuranceTx × InsuranceCall) :=
  [(insuring 4 100 .verified,.elsewhere (.setSlasher 8 true)),(insuring 4 100 .verified,.set (.addResolver 13)),
    (insuring 11 100 .verified,.elsewhere (.approve 8 (100 * 10 ^ 18))),
      (insuring 11 100 .verified,.replenishPool (100 * 10 ^ 18)),
    (insuring 10 100 .verified,.elsewhere (.approve 8 (10 ^ 18))),
      (insuring 10 200 .verified,.purchaseInsurance packageName (10 ^ 18)),
    (insuring 10 300 .revoked,.submitClaim 1 (10 ^ 18) "stolen" [1])]

def staked : List (InsuranceTx × InsuranceCall) :=
  [(insuring 12 50 .verified,.elsewhere (.approve 2 (10 ^ 18))),
    (insuring 12 50 .verified,.elsewhere (.stakeAsPublisher (10 ^ 18)))]

def approval : InsuranceTx × InsuranceCall := (insuring 13 400 .revoked,.resolveClaim 1 .approved (10 ^ 18))

theorem insured_external {before : InsuranceState} :
    Along (InsuranceState.next evm 2 8) (InsuranceState.External evm 2 8) before (insured ++ [approval]) := by
  have governance : (4 : Address) ≠ 8 := by decide
  have buyer : (10 : Address) ≠ 8 := by decide
  have sponsor : (11 : Address) ≠ 8 := by decide
  have resolver : (13 : Address) ≠ 8 := by decide
  exact ⟨⟨governance,trivial⟩,⟨governance,trivial⟩,⟨sponsor,trivial⟩,⟨sponsor,trivial⟩,⟨buyer,trivial⟩,⟨buyer,trivial⟩,
    ⟨buyer,trivial⟩,
    ⟨resolver,trivial⟩,trivial⟩

theorem slash_not_received : (∃ logs, World.deploy evm accounts = .ok (start,logs)) ∧
    Along (InsuranceState.next evm 2 8) (InsuranceState.External evm 2 8) uninsured (staked ++ (insured ++ [approval])) ∧
    ¬ (run (InsuranceState.next evm 2 8) uninsured (staked ++ (insured ++ [approval]))).PoolBacked 8 := by
  have publisher : (12 : Address) ≠ 8 := by decide
  refine ⟨deployed,⟨⟨publisher,trivial⟩,⟨publisher,trivial⟩,insured_external⟩,?_⟩
  decide +kernel

theorem insured_backed : ((run (InsuranceState.next evm 2 8) uninsured (insured ++ [approval])).insurance.claim 1).status =
    .paid ∧
    Throughout (InsuranceState.next evm 2 8) (InsuranceState.PoolBacked 8) uninsured (insured ++ [approval]) := by
  obtain ⟨logs,deployed⟩ := deployed
  have covered : InsuranceState.slashedFor approval.1 1 (10 ^ 18) (run (InsuranceState.next evm 2 8) uninsured insured) ≤
      (run (InsuranceState.next evm 2 8) uninsured insured).world.token.balanceOf 8 -
        (run (InsuranceState.next evm 2 8) uninsured insured).insurance.poolBalance := by
    decide +kernel
  refine ⟨by decide +kernel,InsuranceState.pool_backed deployed (by decide) 4 (insured ++ [approval]) insured_external ?_⟩
  exact ⟨trivial,trivial,trivial,trivial,trivial,trivial,trivial,covered,trivial⟩

end Small
end ChainRegistry
