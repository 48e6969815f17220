import ChainRegistry.Contracts.CregToken

/-! The staking contract: `contracts/Staking.sol`, with the token that it holds. The scores of a
transaction are what `Reputation.scoreOf` returns in it, if that call does not revert. Nothing calls
back, so the reentrancy guard is left out, as are the views, but for those that the registry asks.
-/
namespace ChainRegistry
open Lib CregToken Abi

inductive ValidatorState
  | none | pending | active | unbonding | withdrawn | rejected | expired
  deriving DecidableEq

inductive Severity
  | low | medium | critical

structure ValidatorEntry where
  stake : Nat
  state : ValidatorState
  (unbondingAt slashCount ejectedAt appliedAt : Nat)
  deriving DecidableEq

def ValidatorEntry.blank : ValidatorEntry := ⟨0,.none,0,0,0,0⟩

structure Staking where
  (minPublisherStake minValidatorStake : Nat)
  owner : Address
  publisherStakes : Table Address Nat
  validators : Table Address ValidatorEntry
  (reputation registry governance : Address)
  slashPool : Nat
  authorizedSlashers : Finset Address
  domainSeparator : Word
  consensusNonceUsed : Finset (Address × Nat)
  emergencyGovernanceEnabled : Bool
  (slashPoolEpoch slashPoolEpochAmount slashPoolEpochTotalWeight : Nat)
  slashPoolClaimed : Finset (Nat × Address)
  validatorList : List Address
  deriving DecidableEq

structure World where
  token : CregToken
  staking : Staking
  deriving DecidableEq

structure Tx where
  sender : Address
  timestamp : Nat
  scoreOf : (reputation account : Address) → Option Nat

namespace Staking
def unbondingPeriod : Nat := 14 * 86400
def restakeCooldown : Nat := 7 * 86400
def maxSlashCount : Nat := 3
def slashLowPct : Nat := 2
def slashMediumPct : Nat := 10
def slashCriticalPct : Nat := 30
def ruleSetVersion : Nat := 1
def applicationTimeout : Nat := 7 * 86400

variable (staking : Staking) (account : Address)

def publisherStake : Nat := Ledger.read 0 staking.publisherStakes account

def entry : ValidatorEntry := Ledger.read .blank staking.validators account

def stakedBalance (publisher : Address) : Nat := staking.publisherStake publisher

def isActiveValidator : Bool := (staking.entry account).state = .active

/-- The loop of `_countActive`, written once more. -/
def activeValidatorCount : Nat :=
  staking.validatorList.countP fun a => (staking.entry a).state = .active

def setPublisherStake (staking : Staking) (account : Address) (amount : Nat) : Staking :=
  {staking with publisherStakes := staking.publisherStakes.insert account amount}

def setEntry (staking : Staking) (account : Address) (entry : ValidatorEntry) : Staking :=
  {staking with validators := staking.validators.insert account entry}

def push (staking : Staking) (validator : Address) : Staking :=
  {staking with validatorList := staking.validatorList ++ [validator]}

def setSlashPool (staking : Staking) (amount : Nat) : Staking := {staking with slashPool := amount}

def useNonce (staking : Staking) (applicant : Address) (nonce : Nat) : Staking :=
  {staking with consensusNonceUsed := insert (applicant,nonce) staking.consensusNonceUsed}

def openEpoch (staking : Staking) (epoch amount totalWeight : Nat) : Staking :=
  {staking with slashPoolEpoch := epoch, slashPoolEpochAmount := amount, slashPoolEpochTotalWeight := totalWeight}

def noteClaim (staking : Staking) (epoch : Nat) (claimant : Address) (left : Nat) : Staking :=
  {staking with slashPoolClaimed := insert (epoch,claimant) staking.slashPoolClaimed, slashPoolEpochAmount := left}

def deploy (evm : Evm) (self sender governance : Address) : Staking where
  minPublisherStake := 1 * 10 ^ 18
  minValidatorStake := 100 * 10 ^ 18
  owner := sender
  publisherStakes := ∅
  validators := ∅
  reputation := 0
  registry := 0
  governance := governance
  slashPool := 0
  authorizedSlashers := ∅
  domainSeparator := Eip712.domainSeparator evm "Chain Registry Validator Admission" self
  consensusNonceUsed := ∅
  emergencyGovernanceEnabled := true
  slashPoolEpoch := 0
  slashPoolEpochAmount := 0
  slashPoolEpochTotalWeight := 0
  slashPoolClaimed := ∅
  validatorList := []

end Staking

structure Accounts where
  (token staking deployer governance treasury team investors community : Address)

namespace World
abbrev Result := Except Revert (World × List Log)

def deploy (evm : Evm) (accounts : Accounts) : Result := do
  let (token,logs) ← CregToken.deploy evm accounts.token accounts.deployer accounts.treasury accounts.team
    accounts.investors accounts.community
  return (⟨token,Staking.deploy evm accounts.staking accounts.deployer accounts.governance⟩,logs)

variable (evm : Evm) (self : Address) (tx : Tx)

def setContracts (registry reputation : Address) (world : World) : Result := do
  require (tx.sender = world.staking.owner) (.message "Ownable: caller is not the owner")
  require (world.staking.registry = 0) (.message "Already set")
  return ({world with staking := {world.staking with registry := registry, reputation := reputation}},[])

def setSlasher (slasher : Address) (allowed : Bool) (world : World) : Result := do
  require (tx.sender = world.staking.governance) .notAuthorized
  require (slasher ≠ 0) (.message "Zero slasher")
  let slashers := world.staking.authorizedSlashers
  return ({world with staking := {world.staking with
    authorizedSlashers := if allowed then insert slasher slashers else slashers.erase slasher}},
    [.slasherUpdated slasher allowed])

variable (publisher : Address)

/-- `_stakeAsPublisher`. -/
def stakeFor (amount : Nat) (world : World) : Result := do
  require (world.staking.minPublisherStake ≤ amount) (.belowMinStake amount world.staking.minPublisherStake)
  let (token,logs) ← world.token.transferFrom self publisher self amount
  let stake ← checkedAdd (world.staking.publisherStake publisher) amount
  return (⟨token,world.staking.setPublisherStake publisher stake⟩,logs ++ [.publisherStaked publisher amount])

/-- A permit that fails is passed over: an allowance may already be there. -/
def tryPermit (owner : Address) (value deadline : Nat) (v : UInt8) (r s : Word) (world : World) : World × List Log :=
  match world.token.permit evm tx.timestamp owner self value deadline v r s with
  | .ok (token,logs) => ({world with token := token},logs)
  | .error _ => (world,[])

def stakeAsPublisher (amount : Nat) (world : World) : Result := world.stakeFor self tx.sender amount

def stakeAsPublisherWithPermit (amount deadline : Nat) (v : UInt8) (r s : Word) (world : World) :
    Result := do
  let (permitted,first) := world.tryPermit evm self tx publisher amount deadline v r s
  let (world,logs) ← permitted.stakeFor self publisher amount
  return (world,first ++ logs)

def unstakeAsPublisher (amount : Nat) (world : World) : Result := do
  require (amount ≤ world.staking.publisherStake tx.sender) .insufficientStake
  let left ← checkedSub (world.staking.publisherStake tx.sender) amount
  let (token,logs) ← world.token.transfer self tx.sender amount
  return (⟨token,world.staking.setPublisherStake tx.sender left⟩,logs ++ [.publisherUnstaked tx.sender amount])

def checkCooldown (entry : ValidatorEntry) : Except Revert Unit :=
  if 0 < entry.ejectedAt then do
    let availableAt ← checkedAdd entry.ejectedAt Staking.restakeCooldown
    require (availableAt ≤ tx.timestamp) (.restakeCooldownActive availableAt)
  else .ok ()

variable (validator : Address)

/-- `_applyToBeValidator`. The new entry replaces what is left of an earlier one. -/
def applyFor (amount : Nat) (world : World) : Result := do
  let v := world.staking.entry validator
  require (v.state ≠ .pending ∧ v.state ≠ .active) .alreadyApplied
  checkCooldown tx v
  require (world.staking.minValidatorStake ≤ amount) (.belowMinStake amount world.staking.minValidatorStake)
  let (token,logs) ← world.token.transferFrom self validator self amount
  return (⟨token,(world.staking.setEntry validator ⟨amount,.pending,0,0,0,tx.timestamp⟩).push validator⟩,
    logs ++ [.validatorApplied validator amount])

def applyToBeValidator (amount : Nat) (world : World) : Result := world.applyFor self tx tx.sender amount

def applyToBeValidatorWithPermit (amount deadline : Nat) (v : UInt8) (r s : Word) (world : World) :
    Result := do
  let (permitted,first) := world.tryPermit evm self tx validator amount deadline v r s
  let (world,logs) ← permitted.applyFor self tx validator amount
  return (world,first ++ logs)

def approveValidator (world : World) : Result := do
  require (world.staking.emergencyGovernanceEnabled) .emergencyPathDisabled
  require (tx.sender = world.staking.governance) .notAuthorized
  let v := world.staking.entry validator
  require (v.state = .pending) .notPending
  return ({world with staking := world.staking.setEntry validator {v with state := .active}},[.validatorApproved validator])

variable (account : Address)

/-- What the three exits share: the whole stake goes back and the entry is closed. -/
def payBack (outcome : ValidatorState) (announcement : Nat → List Log) (world : World) : Result := do
  let v := world.staking.entry account
  let (token,logs) ← world.token.transfer self account v.stake
  return (⟨token,world.staking.setEntry account {v with stake := 0, state := outcome}⟩,logs ++ announcement v.stake)

def rejectValidator (validator : Address) (world : World) : Result := do
  require (world.staking.emergencyGovernanceEnabled) .emergencyPathDisabled
  require (tx.sender = world.staking.governance) .notAuthorized
  require ((world.staking.entry validator).state = .pending) .notPending
  world.payBack self validator .rejected fun _ => [.validatorRejected validator]

def disableEmergencyGovernance (world : World) : Result := do
  require (tx.sender = world.staking.governance) .notAuthorized
  require (world.staking.emergencyGovernanceEnabled) .emergencyPathDisabled
  return ({world with staking := {world.staking with emergencyGovernanceEnabled := false}},[.emergencyGovernanceDisabled])

def consensusMessageHash (staking : Staking) (applicant : Address) (stake nonce : Nat) : Word :=
  Eip712.digest evm staking.domainSeparator (evm.keccak256 (encode
    [evm.keccak256 (Text.bytes "ValidatorAdmission(address applicant,uint256 stake,uint256 nonce,uint256 ruleSetVersion)"),
      ofAddress applicant,ofUint stake,ofUint nonce,ofUint Staking.ruleSetVersion]))

/-- `_recoverSigner`: 65 bytes, with the low form of `s` only. -/
def recoverSigner (digest : Word) (sig : List UInt8) : Address :=
  if sig.length ≠ 65 then 0
  else
    let r := word (sig.take 32)
    let s := word ((sig.drop 32).take 32)
    let v := (sig[64]?).getD 0
    if 0x7FFFFFFFFFFFFFFFFFFFFFFFFFFFFFFF5D576E7357A4501DDFE92F46681B20A0 < s.toNat then 0
    else evm.ecrecover digest (if v < 27 then v + 27 else v) r s

def checkSigners (staking : Staking) (digest : Word) : Address → List Address → List (List UInt8) → Except Revert Unit
  | prev, signer :: signers, sig :: sigs => do
    require (prev < signer) .duplicateOrUnsortedSigner
    require ((staking.entry signer).state = .active) (.notAnActiveSigner signer)
    require (recoverSigner evm digest sig = signer) (.invalidSignature signer)
    checkSigners staking digest signer signers sigs
  | _, _, _ => .ok ()

def countActive (staking : Staking) : Nat := staking.validatorList.countP fun a => (staking.entry a).state = .active

def checkQuorum (signers active : Nat) : Except Revert Unit := do
  let weight ← checkedMul signers 3
  let bound ← checkedMul active 2
  if weight < bound then
    let rounded ← checkedAdd bound 2
    throw (.insufficientQuorum signers (rounded / 3))

variable (applicant : Address)

def approveByConsensus (nonce : Nat) (signers : List Address) (sigs : List (List UInt8)) (world : World) : Result := do
  let staking := world.staking
  let v := staking.entry applicant
  require (v.state = .pending) .notPending
  require (staking.minValidatorStake ≤ v.stake) (.belowMinStake v.stake staking.minValidatorStake)
  let expiresAt ← checkedAdd v.appliedAt Staking.applicationTimeout
  require (tx.timestamp < expiresAt) .applicationExpired
  require ((applicant,nonce) ∉ staking.consensusNonceUsed) .nonceAlreadyUsed
  require (signers.length ≠ 0 ∧ signers.length = sigs.length) .invalidSignerLength
  checkSigners evm staking (consensusMessageHash evm staking applicant v.stake nonce) 0 signers sigs
  checkQuorum signers.length (countActive staking)
  return ({world with staking := (staking.useNonce applicant nonce).setEntry applicant {v with state := .active}},
    [.validatorApprovedByConsensus applicant nonce signers.length])

def expireApplication (world : World) : Result := do
  let v := world.staking.entry applicant
  require (v.state = .pending) .notPending
  let expiresAt ← checkedAdd v.appliedAt Staking.applicationTimeout
  require (expiresAt ≤ tx.timestamp) (.applicationNotYetExpired expiresAt)
  world.payBack self applicant .expired fun amount => [.validatorApplicationExpired applicant amount]

def initiateUnbonding (world : World) : Result := do
  let v := world.staking.entry tx.sender
  require (v.state = .active) .notActive
  return ({world with staking := world.staking.setEntry tx.sender {v with state := .unbonding, unbondingAt := tx.timestamp}},
    [.validatorUnbonding tx.sender tx.timestamp])

def withdrawValidatorStake (world : World) : Result := do
  let v := world.staking.entry tx.sender
  require (v.state = .unbonding) .notUnbonding
  let availableAt ← checkedAdd v.unbondingAt Staking.unbondingPeriod
  require (availableAt ≤ tx.timestamp) (.stillUnbonding availableAt)
  world.payBack self tx.sender .withdrawn fun amount => [.validatorWithdrawn tx.sender amount,.validatorLeft tx.sender]

def isActiveVal (entry : ValidatorEntry) : Bool := entry.state = .active && 0 < entry.stake

variable (amount : Nat) (staking : Staking)

def slashValidator : Except Revert (Staking × List Log) := do
  let v := staking.entry account
  let stake ← checkedSub v.stake amount
  let slashCount ← checkedAdd v.slashCount 1
  if Staking.maxSlashCount ≤ slashCount then
    return (staking.setEntry account {v with
      stake := stake
      slashCount := slashCount
      state := .unbonding
      unbondingAt := tx.timestamp
      ejectedAt := tx.timestamp},[.validatorLeft account])
  else return (staking.setEntry account {v with stake := stake, slashCount := slashCount},[])

def slashPublisher : Except Revert Staking := do
  let left ← checkedSub (staking.publisherStake account) amount
  return staking.setPublisherStake account left

def wipeOut (account : Address) (staking : Staking) : Staking :=
  (staking.setPublisherStake account 0).setEntry account
    {staking.entry account with stake := 0, state := .withdrawn, ejectedAt := tx.timestamp}

def takeStake : Except Revert (Staking × Nat × List Log) :=
  let v := staking.entry account
  if isActiveVal v ∧ amount ≤ v.stake then do
    let (staking,logs) ← slashValidator tx account amount staking
    return (staking,amount,logs)
  else if ¬isActiveVal v ∧ amount ≤ staking.publisherStake account then do
    let staking ← slashPublisher account amount staking
    return (staking,amount,[])
  else do
    let rest ← checkedAdd (staking.publisherStake account) v.stake
    return (wipeOut tx account staking,rest,[])

def executeSlash (reason : String) (world : World) : Result := do
  let (staking,taken,logs) ← takeStake tx account amount world.staking
  let pool ← checkedAdd staking.slashPool taken
  return ({world with staking := staking.setSlashPool pool},logs ++ [.slashed account taken reason])

def maySlash (sender : Address) : Bool :=
  sender = staking.registry || sender = staking.governance || sender ∈ staking.authorizedSlashers

def slashPct : Severity → Nat
  | .low => Staking.slashLowPct
  | .medium => Staking.slashMediumPct
  | .critical => Staking.slashCriticalPct

def slashSeverity (severity : Severity) (reason : String) (world : World) : Result := do
  require (maySlash world.staking tx.sender) .notAuthorized
  let v := world.staking.entry account
  let balance := if isActiveVal v then v.stake else world.staking.publisherStake account
  let scaled ← checkedMul balance (slashPct severity)
  world.executeSlash tx account (scaled / 100) reason

def slash (reason : String) (world : World) : Result := do
  require (maySlash world.staking tx.sender) .notAuthorized
  world.executeSlash tx account amount reason

def score (staking : Staking) (account : Address) : Except Revert Nat :=
  match tx.scoreOf staking.reputation account with
  | some score => .ok score
  | none => .error .noCode

@[simp] theorem score_ok (staking : Staking) (account : Address) (value : Nat) :
    score tx staking account = .ok value ↔ tx.scoreOf staking.reputation account = some value := by
  unfold score
  split
  · rename_i found
    simp [found]
  · rename_i missing
    simp [missing]

def weigh (staking : Staking) : List Address → Nat → Nat → Except Revert (Nat × Nat)
  | [], weight, count => .ok (weight,count)
  | val :: rest, weight, count =>
    if (staking.entry val).state = .active then do
      let own ← score tx staking val
      let weight ← checkedAdd weight own
      weigh staking rest weight (count + 1)
    else weigh staking rest weight count

/-- An address that is in the list twice is also paid twice. -/
def payShares (pool totalWeight : Nat) : List Address → Staking → Except Revert Staking
  | [], staking => .ok staking
  | val :: rest, staking =>
    let v := staking.entry val
    if v.state = .active then do
      let own ← score tx staking val
      let scaled ← checkedMul pool own
      let share ← checkedDiv scaled totalWeight
      let stake ← checkedAdd v.stake share
      payShares pool totalWeight rest (staking.setEntry val {v with stake := stake})
    else payShares pool totalWeight rest staking

def distributeSlashPool (world : World) : Result := do
  let staking := world.staking
  require (tx.sender = staking.governance) .notAuthorized
  let (totalWeight,activeCount) ← weigh tx staking staking.validatorList 0 0
  require (0 < activeCount) (.message "No active validators")
  require (0 < totalWeight) (.message "No reputation weight")
  let paid ← payShares tx staking.slashPool totalWeight staking.validatorList (staking.setSlashPool 0)
  return ({world with staking := paid},[.slashPoolDistributed staking.slashPool activeCount])

def commitSlashPoolEpoch (world : World) : Result := do
  let staking := world.staking
  require (tx.sender = staking.governance) .notAuthorized
  require (staking.slashPoolEpochAmount = 0) (.message "previous epoch not fully claimed")
  require (0 < staking.slashPool) (.message "slash pool is empty")
  let (totalWeight,_) ← weigh tx staking staking.validatorList 0 0
  require (0 < totalWeight) (.message "No reputation weight")
  let epoch ← checkedAdd staking.slashPoolEpoch 1
  return ({world with staking := (staking.openEpoch epoch staking.slashPool totalWeight).setSlashPool 0},
    [.slashPoolEpochCommitted epoch staking.slashPool totalWeight])

/-- The share is credited in full also where it is more than the rest of the epoch. -/
def claimSlashPoolShare (world : World) : Result := do
  let staking := world.staking
  let epoch := staking.slashPoolEpoch
  let v := staking.entry tx.sender
  require (0 < epoch) (.message "no epoch committed")
  require (0 < staking.slashPoolEpochAmount) (.message "epoch already drained")
  require ((epoch,tx.sender) ∉ staking.slashPoolClaimed) (.message "already claimed")
  require (v.state = .active) (.message "not an active validator")
  let own ← score tx staking tx.sender
  require (0 < own) (.message "no reputation weight")
  let scaled ← checkedMul staking.slashPoolEpochAmount own
  let share ← checkedDiv scaled staking.slashPoolEpochTotalWeight
  require (0 < share) (.message "share rounds to zero")
  let stake ← checkedAdd v.stake share
  let left := if staking.slashPoolEpochAmount ≤ share then 0 else staking.slashPoolEpochAmount - share
  return ({world with staking := (staking.noteClaim epoch tx.sender left).setEntry tx.sender {v with stake := stake}},
    [.slashPoolShareClaimed epoch tx.sender share])

def updateMinStakes (pubStake valStake : Nat) (world : World) : Result := do
  require (tx.sender = world.staking.governance) .notAuthorized
  return ({world with staking := {world.staking with minPublisherStake := pubStake, minValidatorStake := valStake}},[])

def transferGovernance (newGovernance : Address) (world : World) : Result := do
  require (tx.sender = world.staking.governance) .notAuthorized
  return ({world with staking := {world.staking with governance := newGovernance}},[])

end World

inductive Call
  | setContracts (registry reputation : Address)
  | setSlasher (slasher : Address) (allowed : Bool)
  | stakeAsPublisher (amount : Nat)
  | stakeAsPublisherWithPermit (publisher : Address) (amount deadline : Nat) (v : UInt8) (r s : Word)
  | unstakeAsPublisher (amount : Nat)
  | applyToBeValidator (amount : Nat)
  | applyToBeValidatorWithPermit (validator : Address) (amount deadline : Nat) (v : UInt8) (r s : Word)
  | approveValidator (validator : Address)
  | rejectValidator (validator : Address)
  | disableEmergencyGovernance
  | approveByConsensus (applicant : Address) (nonce : Nat) (signers : List Address) (sigs : List (List UInt8))
  | expireApplication (applicant : Address)
  | initiateUnbonding | withdrawValidatorStake
  | slashSeverity (account : Address) (severity : Severity) (reason : String)
  | slash (account : Address) (amount : Nat) (reason : String)
  | distributeSlashPool | commitSlashPoolEpoch | claimSlashPoolShare
  | updateMinStakes (pubStake valStake : Nat)
  | transferGovernance (newGovernance : Address)
  | transfer (dst : Address) (value : Nat)
  | approve (spender : Address) (value : Nat)
  | transferFrom (src dst : Address) (value : Nat)
  | burn (value : Nat)
  | mint (dst : Address) (value : Nat)
  | transferOwnership (newOwner : Address)
  | permit (owner spender : Address) (value deadline : Nat) (v : UInt8) (r s : Word)

namespace World
variable (evm : Evm) (self : Address) (tx : Tx)

def onToken (method : CregToken → CregToken.Result) (world : World) : Result :=
  (method world.token).map fun (token,logs) => ({world with token := token},logs)

variable (world : World)

def call : Call → Result
  | .setContracts registry reputation => world.setContracts tx registry reputation
  | .setSlasher slasher allowed => world.setSlasher tx slasher allowed
  | .stakeAsPublisher amount => world.stakeAsPublisher self tx amount
  | .stakeAsPublisherWithPermit publisher amount deadline v r s =>
    world.stakeAsPublisherWithPermit evm self tx publisher amount deadline v r s
  | .unstakeAsPublisher amount => world.unstakeAsPublisher self tx amount
  | .applyToBeValidator amount => world.applyToBeValidator self tx amount
  | .applyToBeValidatorWithPermit validator amount deadline v r s =>
    world.applyToBeValidatorWithPermit evm self tx validator amount deadline v r s
  | .approveValidator validator => world.approveValidator tx validator
  | .rejectValidator validator => world.rejectValidator self tx validator
  | .disableEmergencyGovernance => world.disableEmergencyGovernance tx
  | .approveByConsensus applicant nonce signers sigs => world.approveByConsensus evm tx applicant nonce signers sigs
  | .expireApplication applicant => world.expireApplication self tx applicant
  | .initiateUnbonding => world.initiateUnbonding tx
  | .withdrawValidatorStake => world.withdrawValidatorStake self tx
  | .slashSeverity account severity reason => world.slashSeverity tx account severity reason
  | .slash account amount reason => world.slash tx account amount reason
  | .distributeSlashPool => world.distributeSlashPool tx
  | .commitSlashPoolEpoch => world.commitSlashPoolEpoch tx
  | .claimSlashPoolShare => world.claimSlashPoolShare tx
  | .updateMinStakes pubStake valStake => world.updateMinStakes tx pubStake valStake
  | .transferGovernance newGovernance => world.transferGovernance tx newGovernance
  | .transfer dst value => world.onToken (transfer tx.sender dst value)
  | .approve spender value => world.onToken (approve tx.sender spender value)
  | .transferFrom src dst value => world.onToken (transferFrom tx.sender src dst value)
  | .burn value => world.onToken (burn tx.sender value)
  | .mint dst value => world.onToken (mint tx.sender dst value)
  | .transferOwnership newOwner => world.onToken (transferOwnership tx.sender newOwner)
  | .permit owner spender value deadline v r s =>
    world.onToken (permit evm tx.timestamp owner spender value deadline v r s)

def perform (event : Tx × Call) : World × List Log :=
  match world.call evm self event.1 event.2 with
  | .ok result => result
  | .error _ => (world,[])

def next (event : Tx × Call) : World := (world.perform evm self event).1

end World

/-! A small deployment, on which the contracts can be evaluated: ten accounts have keys, and
three of them are given tokens. -/
namespace Small
/-- In place of Keccak-256: the bytes as the digits of a number. -/
def hash (data : List UInt8) : Word := BitVec.ofNat 256 (data.foldl (fun sum byte => sum * 257 + byte.toNat + 1) 0)

def evm : Evm := ⟨hash,fun _ _ r _ => BitVec.ofNat 160 (10 + r.toNat % 10),1⟩

def accounts : Accounts where
  token := 1
  staking := 2
  deployer := 3
  governance := 4
  treasury := 5
  team := 10
  investors := 11
  community := 12

def start : World := match World.deploy evm accounts with
  | .ok (world,_) => world
  | .error _ => ⟨undistributed evm 1 3 5,Staking.deploy evm 2 3 4⟩

theorem deployed : ∃ logs, World.deploy evm accounts = .ok (start,logs) := by
  have succeeds : (World.deploy evm accounts).isOk := by decide +kernel
  unfold start
  generalize World.deploy evm accounts = outcome at succeeds ⊢
  obtain ⟨⟨world,logs⟩,rfl⟩ := Fallible.isOk_iff.mp succeeds
  exact ⟨logs,rfl⟩

def tx (sender : Address) (timestamp : Nat) (score : Nat) : Tx := ⟨sender,timestamp,fun _ _ => some score⟩

def joining (account : Address) (timestamp : Nat) : List (Tx × Call) :=
  [(tx account timestamp 0,.approve 2 (100 * 10 ^ 18)),
    (tx account timestamp 0,.applyToBeValidator (100 * 10 ^ 18)),
    (tx 4 timestamp 0,.approveValidator account)]

end Small
end ChainRegistry
