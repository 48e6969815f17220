import ChainRegistry.Contracts.Holdings
import ChainRegistry.Contracts.Registry

/-! The insurance of packages: `contracts/PackageInsurance.sol`, beside the token and the staking
contract. What the registry answers is part of a transaction. Of the events the payments are kept;
the lists of policies, which only views read, are left out. -/
namespace ChainRegistry
open Lib Runs Fallible Ledger

structure Policy where
  id : Nat
  insured : Address
  packageCanonical : Bytes
  packageKey : Word
  (coverageAmount premium expiration : Nat)
  active : Bool
  createdAt : Nat

def Policy.blank : Policy := ⟨0,0,⟨[],length_nil_lt⟩,0,0,0,0,false,0⟩

inductive ClaimStatus
  | pending | underReview | approved | rejected | paid
  deriving DecidableEq

structure InsuranceClaim where
  (id policyId : Nat)
  claimant : Address
  amount : Nat
  reason : String
  evidence : List UInt8
  status : ClaimStatus
  (submittedAt resolvedAt : Nat)
  resolver : Address
  deriving DecidableEq

def InsuranceClaim.blank : InsuranceClaim := ⟨0,0,0,0,"",[],.pending,0,0,0⟩

structure RiskProfile where
  (baseRiskScore ageFactor dependencyFactor vulnerabilityFactor auditFactor : Nat)

structure PackageInsurance where
  policies : Table Nat Policy
  claims : Table Nat InsuranceClaim
  riskProfiles : Table Word RiskProfile
  (poolBalance totalCoverage policyCount claimCount : Nat)
  governance : Address
  (basePremiumRate maxCoverage minCoverage maxPayoutPerClaim maxPoolUtilizationBps : Nat)
  claimResolvers : Finset Address

structure InsuranceState where
  world : World
  insurance : PackageInsurance

structure InsuranceTx extends Tx where
  package : Bytes → Registry.PackageRecord
  dependents : Bytes → Option Nat

inductive Payment
  | premium (policyId amount : Nat)
  | refund (policyId amount : Nat)
  | payout (claim : InsuranceClaim) (amount : Nat)
  deriving DecidableEq

namespace PackageInsurance
def policyDuration : Nat := 365 * 86400
def reviewPeriod : Nat := 7 * 86400

def deploy (governance : Address) : PackageInsurance where
  policies := ∅
  claims := ∅
  riskProfiles := ∅
  poolBalance := 0
  totalCoverage := 0
  policyCount := 0
  claimCount := 0
  governance := governance
  basePremiumRate := 100
  maxCoverage := 100 * 10 ^ 18
  minCoverage := 10 ^ 17
  maxPayoutPerClaim := 50 * 10 ^ 18
  maxPoolUtilizationBps := 8000
  claimResolvers := ∅

variable (insurance : PackageInsurance)

def policy (id : Nat) : Policy := read .blank insurance.policies id

def claim (id : Nat) : InsuranceClaim := read .blank insurance.claims id

def riskProfile (key : Word) : RiskProfile := read ⟨0,0,0,0,0⟩ insurance.riskProfiles key

def setPolicy (insurance : PackageInsurance) (id : Nat) (policy : Policy) : PackageInsurance :=
  {insurance with policies := insurance.policies.insert id policy}

def setClaim (insurance : PackageInsurance) (id : Nat) (claim : InsuranceClaim) : PackageInsurance :=
  {insurance with claims := insurance.claims.insert id claim}

def discounted (multiplier discount : Nat) : Nat := if discount < multiplier then multiplier - discount else 1000

def calculatePremium (evm : Evm) (tx : InsuranceTx) (packageCanonical : Bytes) (coverageAmount : Nat)
    (insurance : PackageInsurance) :
    Except Revert Nat := do
  let rp := insurance.riskProfile (evm.keccak256 packageCanonical.1)
  let base ← checkedMul coverageAmount insurance.basePremiumRate
  let lifetime ← checkedSub tx.timestamp (tx.package packageCanonical).publishedAt
  let ageDiscount ← checkedMul (lifetime / (30 * 86400)) rp.ageFactor
  let dependency ← checkedMul ((tx.dependents packageCanonical).getD 10) rp.dependencyFactor
  let riskMultiplier ← checkedAdd (discounted 10000 ageDiscount) dependency
  let riskMultiplier ← checkedAdd riskMultiplier rp.vulnerabilityFactor
  let premium ← checkedMul (base / 10000) (discounted riskMultiplier rp.auditFactor)
  let risk ← checkedAdd 10000 rp.baseRiskScore
  let premium ← checkedMul (premium / 10000) risk
  return premium / 10000

def refundOf (policy : Policy) (now : Nat) : Except Revert Nat := do
  let remaining := if now < policy.expiration then policy.expiration - now else 0
  let share ← checkedMul policy.premium remaining
  let scaled ← checkedMul (share / policyDuration) 90
  return scaled / 100

end PackageInsurance

namespace InsuranceState
open PackageInsurance

abbrev Result := Except Revert (InsuranceState × List Payment)

variable (evm : Evm) (self : Address) (tx : InsuranceTx)

def checkUtilization (poolBalance totalCoverage bound : Nat) : Except Revert Unit :=
  if 0 < poolBalance then do
    let scaled ← checkedMul totalCoverage 10000
    require (scaled / poolBalance ≤ bound) .poolUtilizationExceeded
  else .ok ()

def purchaseInsurance (packageCanonical : Bytes) (coverageAmount : Nat) (state : InsuranceState) : Result := do
  let insurance := state.insurance
  require (insurance.minCoverage ≤ coverageAmount ∧ coverageAmount ≤ insurance.maxCoverage) .invalidCoverage
  require ((tx.package packageCanonical).status = .verified) .invalidPackage
  let premium ← insurance.calculatePremium evm tx packageCanonical coverageAmount
  let (token,_) ← state.world.token.transferFrom self tx.sender self premium
  let poolBalance ← checkedAdd insurance.poolBalance premium
  let totalCoverage ← checkedAdd insurance.totalCoverage coverageAmount
  checkUtilization poolBalance totalCoverage insurance.maxPoolUtilizationBps
  let policyId ← checkedAdd insurance.policyCount 1
  let expiration ← checkedAdd tx.timestamp policyDuration
  let policy : Policy := ⟨policyId,tx.sender,packageCanonical,evm.keccak256 packageCanonical.1,coverageAmount,premium,
    expiration,true,tx.timestamp⟩
  return (⟨{state.world with token := token},{insurance.setPolicy policyId policy with
    poolBalance := poolBalance
    totalCoverage := totalCoverage
    policyCount := policyId}⟩,[.premium policyId premium])

def cancelPolicy (policyId : Nat) (state : InsuranceState) : Result := do
  let insurance := state.insurance
  let p := insurance.policy policyId
  require (p.insured = tx.sender) .notPolicyOwner
  require (p.active) .policyNotActive
  let _elapsed ← checkedSub tx.timestamp p.createdAt
  let refund ← refundOf p tx.timestamp
  let totalCoverage ← checkedSub insurance.totalCoverage p.coverageAmount
  let poolBalance ← checkedSub insurance.poolBalance refund
  let (token,_) ← state.world.token.transfer self tx.sender refund
  let canceled := {p with active := false}
  return (⟨{state.world with token := token},{insurance.setPolicy policyId canceled with
    poolBalance := poolBalance
    totalCoverage := totalCoverage}⟩,[.refund policyId refund])

/-- A canceled policy can be renewed for a month after its expiration. -/
def checkRenewable (now : Nat) (policy : Policy) : Except Revert Unit :=
  if policy.active then .ok ()
  else do
    let limit ← checkedAdd policy.expiration (30 * 86400)
    require (now ≤ limit) .policyExpired

def renewedCoverage (totalCoverage : Nat) (policy : Policy) : Except Revert Nat :=
  if policy.active then .ok totalCoverage else checkedAdd totalCoverage policy.coverageAmount

def renewPolicy (policyId : Nat) (state : InsuranceState) : Result := do
  let insurance := state.insurance
  let p := insurance.policy policyId
  require (p.insured = tx.sender) .notPolicyOwner
  checkRenewable tx.timestamp p
  let newPremium ← insurance.calculatePremium evm tx p.packageCanonical p.coverageAmount
  let (token,_) ← state.world.token.transferFrom self tx.sender self newPremium
  let poolBalance ← checkedAdd insurance.poolBalance newPremium
  let totalCoverage ← renewedCoverage insurance.totalCoverage p
  let premium ← checkedAdd p.premium newPremium
  let expiration ← checkedAdd tx.timestamp policyDuration
  let renewed := {p with premium := premium, expiration := expiration, active := true}
  return (⟨{state.world with token := token},{insurance.setPolicy policyId renewed with
    poolBalance := poolBalance
    totalCoverage := totalCoverage}⟩,[.premium policyId newPremium])

def submitClaim (policyId amount : Nat) (reason : String) (evidence : List UInt8) (state : InsuranceState) : Result := do
  let insurance := state.insurance
  let p := insurance.policy policyId
  require (p.active) .policyNotActive
  let limit ← checkedAdd p.expiration reviewPeriod
  require (tx.timestamp ≤ limit) .claimPeriodExpired
  require (amount ≤ p.coverageAmount) .invalidCoverage
  require (evidence.length ≠ 0) .invalidEvidence
  require ((tx.package p.packageCanonical).status = .revoked) .invalidPackage
  let claimId ← checkedAdd insurance.claimCount 1
  let filed : InsuranceClaim := ⟨claimId,policyId,tx.sender,amount,reason,evidence,.pending,tx.timestamp,0,0⟩
  return ({state with insurance := {insurance.setClaim claimId filed with claimCount := claimId}},[])

/-- `onlyResolver`. -/
def checkResolver (insurance : PackageInsurance) : Except Revert Unit :=
  require (tx.sender ∈ insurance.claimResolvers) .unauthorizedResolver

/-- The slash of the publisher, if it has any stake. The slashed tokens stay with the staking contract. -/
def slashPublisher (publisher : Address) (payout : Nat) (reason : String) (state : InsuranceState) :
    Except Revert InsuranceState := do
  let slashAmount := min payout (state.world.staking.stakedBalance publisher)
  if 0 < slashAmount then do
    let (world,_) ← state.world.slash {tx.toTx with sender := self} publisher slashAmount reason
    let poolBalance ← checkedAdd state.insurance.poolBalance slashAmount
    return ⟨world,{state.insurance with poolBalance := poolBalance}⟩
  else return state

def payClaim (claimId payout : Nat) (claim : InsuranceClaim) (state : InsuranceState) : Result := do
  require (payout ≤ state.insurance.maxPayoutPerClaim) .payoutExceedsMaxClaim
  let publisher := (tx.package (state.insurance.policy claim.policyId).packageCanonical).publisher
  let state ← state.slashPublisher self tx publisher payout claim.reason
  require (payout ≤ state.insurance.poolBalance) .insufficientPoolBalance
  let poolBalance ← checkedSub state.insurance.poolBalance payout
  let totalCoverage ← checkedSub state.insurance.totalCoverage payout
  let (token,_) ← state.world.token.transfer self claim.claimant payout
  let resolved := {claim with status := .paid, resolvedAt := tx.timestamp, resolver := tx.sender}
  return (⟨{state.world with token := token},{state.insurance.setClaim claimId resolved with
    poolBalance := poolBalance
    totalCoverage := totalCoverage}⟩,[.payout claim payout])

def resolveClaim (claimId : Nat) (status : ClaimStatus) (payout : Nat) (state : InsuranceState) : Result := do
  checkResolver tx state.insurance
  let c := state.insurance.claim claimId
  require (c.status = .pending ∨ c.status = .underReview) .claimNotFound
  if status = .approved then state.payClaim self tx claimId payout c
  else
    let resolved := {c with status := status, resolvedAt := tx.timestamp, resolver := tx.sender}
    return ({state with insurance := state.insurance.setClaim claimId resolved},[])

def setClaimUnderReview (claimId : Nat) (state : InsuranceState) : Result := do
  checkResolver tx state.insurance
  let c := state.insurance.claim claimId
  require (c.status = .pending) .claimNotFound
  let reviewed := {c with status := .underReview}
  return ({state with insurance := state.insurance.setClaim claimId reviewed},[])

def replenishPool (amount : Nat) (state : InsuranceState) : Result := do
  let (token,_) ← state.world.token.transferFrom self tx.sender self amount
  let poolBalance ← checkedAdd state.insurance.poolBalance amount
  return (⟨{state.world with token := token},{state.insurance with poolBalance := poolBalance}⟩,[])

def emergencyWithdraw (dst : Address) (amount : Nat) (state : InsuranceState) : Result := do
  require (tx.sender = state.insurance.governance) .notAuthorized
  require (amount ≤ state.insurance.poolBalance) (.message "Insufficient balance")
  let poolBalance ← checkedSub state.insurance.poolBalance amount
  let (token,_) ← state.world.token.transfer self dst amount
  return (⟨{state.world with token := token},{state.insurance with poolBalance := poolBalance}⟩,[])

end InsuranceState

inductive InsuranceSetting
  | riskProfile (packageKey : Word) (profile : RiskProfile)
  | basePremiumRate (newRate : Nat)
  | addResolver (resolver : Address)
  | removeResolver (resolver : Address)
  | coverageLimits (min max : Nat)
  | maxPayoutPerClaim (maxPayout : Nat)
  | maxPoolUtilization (maxBps : Nat)

def InsuranceSetting.apply (insurance : PackageInsurance) : InsuranceSetting → Except Revert PackageInsurance
  | .riskProfile packageKey profile => .ok {insurance with riskProfiles := insurance.riskProfiles.insert packageKey profile}
  | .basePremiumRate newRate => .ok {insurance with basePremiumRate := newRate}
  | .addResolver resolver => .ok {insurance with claimResolvers := insert resolver insurance.claimResolvers}
  | .removeResolver resolver => .ok {insurance with claimResolvers := insurance.claimResolvers.erase resolver}
  | .coverageLimits min max => .ok {insurance with minCoverage := min, maxCoverage := max}
  | .maxPayoutPerClaim maxPayout => .ok {insurance with maxPayoutPerClaim := maxPayout}
  | .maxPoolUtilization maxBps => do
    require (0 < maxBps ∧ maxBps ≤ 10000) (.message "Invalid bps")
    return {insurance with maxPoolUtilizationBps := maxBps}

inductive InsuranceCall
  | purchaseInsurance (packageCanonical : Bytes) (coverageAmount : Nat)
  | cancelPolicy (policyId : Nat)
  | renewPolicy (policyId : Nat)
  | submitClaim (policyId amount : Nat) (reason : String) (evidence : List UInt8)
  | resolveClaim (claimId : Nat) (status : ClaimStatus) (payout : Nat)
  | setClaimUnderReview (claimId : Nat)
  | replenishPool (amount : Nat)
  | emergencyWithdraw (dst : Address) (amount : Nat)
  | set (setting : InsuranceSetting)
  | elsewhere (call : Call)

namespace InsuranceState
open PackageInsurance

variable (evm : Evm) (staking self : Address)

def set (tx : InsuranceTx) (setting : InsuranceSetting) (state : InsuranceState) : Result := do
  require (tx.sender = state.insurance.governance) .notAuthorized
  let insurance ← setting.apply state.insurance
  return ({state with insurance := insurance},[])

def call (tx : InsuranceTx) (state : InsuranceState) : InsuranceCall → Result
  | .purchaseInsurance packageCanonical coverageAmount => state.purchaseInsurance evm self tx packageCanonical coverageAmount
  | .cancelPolicy policyId => state.cancelPolicy self tx policyId
  | .renewPolicy policyId => state.renewPolicy evm self tx policyId
  | .submitClaim policyId amount reason evidence => state.submitClaim tx policyId amount reason evidence
  | .resolveClaim claimId status payout => state.resolveClaim self tx claimId status payout
  | .setClaimUnderReview claimId => state.setClaimUnderReview tx claimId
  | .replenishPool amount => state.replenishPool self tx amount
  | .emergencyWithdraw dst amount => state.emergencyWithdraw self tx dst amount
  | .set setting => state.set tx setting
  | .elsewhere call => (state.world.call evm staking tx.toTx call).map fun (world,_) => ({state with world := world},[])

def External (state : InsuranceState) (event : InsuranceTx × InsuranceCall) : Prop :=
  event.1.sender ≠ self ∧ match event.2 with
    | .elsewhere call => call.Keyless evm staking self state.world.token
    | _ => True

variable {evm self} {tx : InsuranceTx} {state after : InsuranceState} {payments : List Payment}
  {claimId payout : Nat} {reason : String} {policyId : Nat}

theorem purchaseInsurance_ok {packageCanonical : Bytes} {coverageAmount : Nat}
    (ok : state.purchaseInsurance evm self tx packageCanonical coverageAmount = .ok (after,payments)) :
    ∃ premium token logs totalCoverage, state.world.token.transferFrom self tx.sender self premium = .ok (token,logs) ∧
      payments = [.premium (state.insurance.policyCount + 1) premium] ∧
      after = ⟨{state.world with token := token},{state.insurance.setPolicy (state.insurance.policyCount + 1)
        ⟨state.insurance.policyCount + 1,tx.sender,packageCanonical,evm.keccak256 packageCanonical.1,coverageAmount,premium,
          tx.timestamp + policyDuration,true,tx.timestamp⟩ with
        poolBalance := state.insurance.poolBalance + premium
        totalCoverage := totalCoverage
        policyCount := state.insurance.policyCount + 1}⟩ := by
  simp only [purchaseInsurance,bind_ok,require_and,checkedAdd_ok,Prod.exists,pair_ok] at ok
  obtain ⟨_,_,premium,_,token,logs,pulled,_,⟨_,rfl⟩,totalCoverage,_,_,_,_,⟨_,rfl⟩,_,⟨_,rfl⟩,rfl,rfl⟩ := ok
  exact ⟨premium,token,logs,totalCoverage,pulled,rfl,rfl⟩

theorem cancelPolicy_ok (ok : state.cancelPolicy self tx policyId = .ok (after,payments)) :
    ∃ refund token logs totalCoverage, (state.insurance.policy policyId).active ∧
      refundOf (state.insurance.policy policyId) tx.timestamp = .ok refund ∧ refund ≤ state.insurance.poolBalance ∧
      state.world.token.transfer self tx.sender refund = .ok (token,logs) ∧ payments = [.refund policyId refund] ∧
      after = ⟨{state.world with token := token},
        {state.insurance.setPolicy policyId {state.insurance.policy policyId with active := false} with
        poolBalance := state.insurance.poolBalance - refund
        totalCoverage := totalCoverage}⟩ := by
  simp only [cancelPolicy,bind_ok,require_and,checkedSub_ok,Prod.exists,pair_ok] at ok
  obtain ⟨_,active,_,_,refund,made,totalCoverage,_,_,⟨enough,rfl⟩,token,logs,moved,rfl,rfl⟩ := ok
  exact ⟨refund,token,logs,totalCoverage,active,made,enough,moved,rfl,rfl⟩

theorem renewPolicy_ok (ok : state.renewPolicy evm self tx policyId = .ok (after,payments)) :
    ∃ newPremium token logs totalCoverage, state.world.token.transferFrom self tx.sender self newPremium = .ok (token,logs) ∧
      payments = [.premium policyId newPremium] ∧
      after = ⟨{state.world with token := token},{state.insurance.setPolicy policyId {state.insurance.policy policyId with
          premium := (state.insurance.policy policyId).premium + newPremium
          expiration := tx.timestamp + policyDuration
          active := true} with
        poolBalance := state.insurance.poolBalance + newPremium
        totalCoverage := totalCoverage}⟩ := by
  simp only [renewPolicy,bind_ok,require_and,checkedAdd_ok,Prod.exists,pair_ok] at ok
  obtain ⟨_,_,_,newPremium,_,token,logs,pulled,_,⟨_,rfl⟩,totalCoverage,_,_,⟨_,rfl⟩,_,⟨_,rfl⟩,rfl,rfl⟩ := ok
  exact ⟨newPremium,token,logs,totalCoverage,pulled,rfl,rfl⟩

theorem submitClaim_ok {policyId amount : Nat} {evidence : List UInt8}
    (ok : state.submitClaim tx policyId amount reason evidence = .ok (after,payments)) :
    amount ≤ (state.insurance.policy policyId).coverageAmount ∧ payments = [] ∧
      after = {state with insurance := {state.insurance.setClaim (state.insurance.claimCount + 1)
        ⟨state.insurance.claimCount + 1,policyId,tx.sender,amount,reason,evidence,.pending,tx.timestamp,0,0⟩ with
          claimCount := state.insurance.claimCount + 1}} := by
  simp only [submitClaim,bind_ok,require_and,checkedAdd_ok,pair_ok] at ok
  obtain ⟨_,_,_,_,bounded,_,_,_,⟨_,rfl⟩,rfl,rfl⟩ := ok
  exact ⟨bounded,rfl,rfl⟩

theorem slashPublisher_ok {publisher : Address} {payout : Nat}
    (ok : state.slashPublisher self tx publisher payout reason = .ok after) :
    after.world.token = state.world.token ∧ after.insurance = {state.insurance with
      poolBalance := state.insurance.poolBalance + min payout (state.world.staking.stakedBalance publisher)} := by
  rw [slashPublisher] at ok
  split_ifs at ok with positive
  · simp only [World.slash,bind_ok,require_and,checkedAdd_ok,Prod.exists,pure_ok] at ok
    obtain ⟨world,_,⟨_,slashed⟩,_,⟨_,rfl⟩,rfl⟩ := ok
    exact ⟨World.executeSlash_token slashed,rfl⟩
  · cases ok
    rw [Nat.eq_zero_of_not_pos positive]
    exact ⟨rfl,rfl⟩

theorem payClaim_ok {claim : InsuranceClaim} (ok : state.payClaim self tx claimId payout claim = .ok (after,payments)) :
    let slashed := min payout (state.world.staking.stakedBalance
      (tx.package (state.insurance.policy claim.policyId).packageCanonical).publisher)
    ∃ (world : World) (token : CregToken) (logs : List Log)
      (totalCoverage : Nat), payout ≤ state.insurance.poolBalance + slashed ∧
      state.world.token.transfer self claim.claimant payout = .ok (token,logs) ∧ payments = [.payout claim payout] ∧
      after = ⟨{world with token := token},{state.insurance.setClaim claimId
        {claim with status := .paid, resolvedAt := tx.timestamp, resolver := tx.sender} with
          poolBalance := state.insurance.poolBalance + slashed - payout
          totalCoverage := totalCoverage}⟩ := by
  simp only [payClaim,bind_ok,require_and,checkedSub_ok,Prod.exists,pair_ok] at ok
  obtain ⟨_,⟨world,insurance⟩,slashed,enough,_,⟨_,rfl⟩,totalCoverage,_,token,logs,moved,rfl,rfl⟩ := ok
  obtain ⟨same,rfl⟩ := slashPublisher_ok slashed
  rw [same] at moved
  exact ⟨world,token,logs,totalCoverage,enough,moved,rfl,rfl⟩

theorem resolveClaim_ok {status : ClaimStatus} (ok : state.resolveClaim self tx claimId status payout = .ok (after,payments)) :
    ((state.insurance.claim claimId).status = .pending ∨ (state.insurance.claim claimId).status = .underReview) ∧
      (status = .approved ∧ state.payClaim self tx claimId payout (state.insurance.claim claimId) = .ok (after,payments) ∨
        status ≠ .approved ∧ payments = [] ∧ after = ⟨state.world,state.insurance.setClaim claimId
          {state.insurance.claim claimId with status := status, resolvedAt := tx.timestamp, resolver := tx.sender}⟩) := by
  simp only [resolveClaim,bind_ok,require_and] at ok
  obtain ⟨_,_,waiting,ok⟩ := ok
  refine ⟨waiting,?_⟩
  split_ifs at ok with approved
  · exact .inl ⟨approved,ok⟩
  · cases ok
    exact .inr ⟨approved,rfl,rfl⟩

structure Unchanged (before after : PackageInsurance) : Prop where
  policies : after.policies = before.policies
  claims : after.claims = before.claims
  policyCount : after.policyCount = before.policyCount
  claimCount : after.claimCount = before.claimCount
  poolBalance : after.poolBalance = before.poolBalance

theorem set_ok {setting : InsuranceSetting} (ok : state.set tx setting = .ok (after,payments)) :
    after.world = state.world ∧ payments = [] ∧ Unchanged state.insurance after.insurance := by
  simp only [set,bind_ok,require_and,pair_ok] at ok
  obtain ⟨_,insurance,applied,rfl,rfl⟩ := ok
  refine ⟨rfl,rfl,?_⟩
  cases setting with
  | maxPoolUtilization maxBps =>
    simp only [InsuranceSetting.apply,bind_ok,require_and,pure_ok] at applied
    obtain ⟨_,rfl⟩ := applied
    exact ⟨rfl,rfl,rfl,rfl,rfl⟩
  | _ =>
    cases applied
    exact ⟨rfl,rfl,rfl,rfl,rfl⟩

end InsuranceState
end ChainRegistry
