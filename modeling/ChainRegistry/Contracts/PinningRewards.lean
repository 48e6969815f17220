import ChainRegistry.Contracts.Holdings
import ChainRegistry.Lib.SwapRemove

/-! The rewards for pinning: `contracts/PinningRewards.sol`, beside the token and the staking
contract, without events and views but `calculateRewards`. Who has the roles that some function asks
for is given from outside. -/
namespace ChainRegistry
open Lib Runs Fallible Ledger

structure Pinner where
  isRegistered : Bool
  (stakedAmount totalPinnedSize successfulVerifications failedVerifications lastRewardClaim : Nat)
  cumulativeRewards : Nat

structure Pin where
  pinner : Address
  (size pinnedAt lastVerified accessCount : Nat)
  isActive : Bool

structure Verification where
  cid : Word
  pinner : Address
  timestamp : Nat
  success : Bool
  proofHash : Word

def Pinner.blank : Pinner := ⟨false,0,0,0,0,0,0⟩

def Pin.blank : Pin := ⟨0,0,0,0,0,false⟩

inductive PinningRole
  | defaultAdmin | rewardsAdmin | verifier
  deriving DecidableEq

structure PinningRewards where
  (rewardPerGBPerDay popularContentMultiplier verificationFailurePenalty verificationCooldown : Nat)
  pinners : Table Address Pinner
  pins : Table Word Pin
  pinnerCids : Table Address (List Word)
  cidPinners : Table Word (List Address)
  verifications : List Verification
  lastVerificationTime : Table Address Nat
  (totalRewardsDistributed rewardsPool : Nat)
  roles : Finset (PinningRole × Address)

structure PinningState where
  world : World
  pinning : PinningRewards

namespace PinningRewards
def minStake : Nat := 1000 * 10 ^ 18

def deploy (sender : Address) : PinningRewards where
  rewardPerGBPerDay := 10 ^ 16
  popularContentMultiplier := 200
  verificationFailurePenalty := 100
  verificationCooldown := 3600
  pinners := ∅
  pins := ∅
  pinnerCids := ∅
  cidPinners := ∅
  verifications := []
  lastVerificationTime := ∅
  totalRewardsDistributed := 0
  rewardsPool := 0
  roles := {(.defaultAdmin,sender),(.rewardsAdmin,sender),(.verifier,sender)}

variable (pinning : PinningRewards) (account : Address)

def pinner : Pinner := read .blank pinning.pinners account

variable (cid : Word)

def pin : Pin := read .blank pinning.pins cid

def cidsOf : List Word := read [] pinning.pinnerCids account

def setPinner (pinning : PinningRewards) (account : Address) (pinner : Pinner) : PinningRewards :=
  {pinning with pinners := pinning.pinners.insert account pinner}

def setPin (pinning : PinningRewards) (cid : Word) (pin : Pin) : PinningRewards :=
  {pinning with pins := pinning.pins.insert cid pin}

def setCids (pinning : PinningRewards) (account : Address) (cids : List Word) : PinningRewards :=
  {pinning with pinnerCids := pinning.pinnerCids.insert account cids}

def onlyRole (role : PinningRole) (sender : Address) (pinning : PinningRewards) : Except Revert Unit :=
  require ((role,sender) ∈ pinning.roles) (.missingRole sender)

def registerPin (tx : Tx) (cid : Word) (size : Nat) (pinning : PinningRewards) : Except Revert PinningRewards := do
  let pinner := pinning.pinner tx.sender
  require (pinner.isRegistered) (.message "Not a registered pinner")
  require (0 < size) (.message "Invalid size")
  require ((pinning.pin cid).isActive = false ∨ (pinning.pin cid).pinner ≠ tx.sender) (.message "Already pinning this CID")
  let total ← checkedAdd pinner.totalPinnedSize size
  let written := (pinning.setPin cid ⟨tx.sender,size,tx.timestamp,0,0,true⟩).setCids tx.sender (pinning.cidsOf tx.sender ++ [cid])
  let noted := {written with cidPinners := pinning.cidPinners.insert cid (read [] pinning.cidPinners cid ++ [tx.sender])}
  return noted.setPinner tx.sender {pinner with totalPinnedSize := total}

def removeCidFromPinner (pinning : PinningRewards) : PinningRewards :=
  pinning.setCids account (swapRemove cid (pinning.cidsOf account))

def unregisterPin (tx : Tx) (cid : Word) (pinning : PinningRewards) : Except Revert PinningRewards := do
  let pin := pinning.pin cid
  require (pin.isActive) (.message "Pin not active")
  require (pin.pinner = tx.sender) (.message "Not your pin")
  let total ← checkedSub (pinning.pinner tx.sender).totalPinnedSize pin.size
  let ended := (pinning.setPin cid {pin with isActive := false}).setPinner tx.sender
    {pinning.pinner tx.sender with totalPinnedSize := total}
  return ended.removeCidFromPinner tx.sender cid

def reportAccess (pinning : PinningRewards) : Except Revert PinningRewards := do
  let pin := pinning.pin cid
  require (pin.isActive) (.message "Pin not active")
  let count ← checkedAdd pin.accessCount 1
  return pinning.setPin cid {pin with accessCount := count}

def verified (now : Nat) (account : Address) (cid : Word) (pinning : PinningRewards) : Except Revert PinningRewards := do
  let pinner := pinning.pinner account
  let count ← checkedAdd pinner.successfulVerifications 1
  return (pinning.setPinner account {pinner with successfulVerifications := count}).setPin cid
    {pinning.pin cid with lastVerified := now}

def penalized (pinning : PinningRewards) : Except Revert PinningRewards := do
  let pinner := pinning.pinner account
  let count ← checkedAdd pinner.failedVerifications 1
  let scaled ← checkedMul pinner.stakedAmount pinning.verificationFailurePenalty
  let staked ← checkedSub pinner.stakedAmount (scaled / 10000)
  let pool ← checkedAdd pinning.rewardsPool (scaled / 10000)
  let cut := pinning.setPinner account {pinner with failedVerifications := count, stakedAmount := staked}
  return {cut with rewardsPool := pool}

def submitVerification (tx : Tx) (account : Address) (cid : Word) (success : Bool) (proofHash : Word)
    (pinning : PinningRewards) : Except Revert PinningRewards := do
  pinning.onlyRole .verifier tx.sender
  let availableAt ← checkedAdd (read 0 pinning.lastVerificationTime account) pinning.verificationCooldown
  require (availableAt ≤ tx.timestamp) (.message "Cooldown active")
  require ((pinning.pin cid).isActive ∧ (pinning.pin cid).pinner = account) (.message "Invalid pin")
  let noted : PinningRewards := {pinning with
    verifications := pinning.verifications ++ [⟨cid,account,tx.timestamp,success,proofHash⟩]
    lastVerificationTime := pinning.lastVerificationTime.insert account tx.timestamp}
  if success then noted.verified tx.timestamp account cid else noted.penalized account

def popularity (pin : Pin) (reward : Nat) : Except Revert Nat :=
  if 1000 < pin.accessCount then do
    let scaled ← checkedMul reward pinning.popularContentMultiplier
    return scaled / 100
  else .ok reward

variable (pinner : Pinner)

def reliability (reward : Nat) : Except Revert Nat := do
  let total ← checkedAdd pinner.successfulVerifications pinner.failedVerifications
  if 0 < total then do
    let successful ← checkedMul pinner.successfulVerifications 100
    let scaled ← checkedMul reward (successful / total)
    return scaled / 100
  else return reward

def pinReward (timeDelta : Nat) (pin : Pin) : Except Revert Nat := do
  let sized ← checkedMul pin.size (timeDelta / 86400)
  let rated ← checkedMul sized pinning.rewardPerGBPerDay
  let popular ← pinning.popularity pin (rated / 10 ^ 9)
  reliability pinner popular

def addReward (timeDelta total : Nat) (cid : Word) : Except Revert Nat :=
  if (pinning.pin cid).isActive = false then .ok total
  else do
    let reward ← pinning.pinReward pinner timeDelta (pinning.pin cid)
    checkedAdd total reward

def calculateRewards (now : Nat) (account : Address) (pinning : PinningRewards) : Except Revert Nat :=
  let pinner := pinning.pinner account
  if pinner.isRegistered = false then .ok 0
  else do
    let timeDelta ← checkedSub now pinner.lastRewardClaim
    (pinning.cidsOf account).foldlM (pinning.addReward pinner timeDelta) 0

def setRewardRate (tx : Tx) (newRate : Nat) (pinning : PinningRewards) : Except Revert PinningRewards := do
  pinning.onlyRole .rewardsAdmin tx.sender
  return {pinning with rewardPerGBPerDay := newRate}

def setVerificationParams (tx : Tx) (cooldown penalty multiplier : Nat) (pinning : PinningRewards) :
    Except Revert PinningRewards := do
  pinning.onlyRole .rewardsAdmin tx.sender
  return {pinning with
    verificationCooldown := cooldown
    verificationFailurePenalty := penalty
    popularContentMultiplier := multiplier}

end PinningRewards

namespace PinningState
open PinningRewards

abbrev Result := Except Revert PinningState

variable (evm : Evm) (staking self : Address) (tx : Tx)

def registerPinner (stakeAmount : Nat) (state : PinningState) : Result := do
  require ((state.pinning.pinner tx.sender).isRegistered = false) (.message "Already registered")
  require (minStake ≤ stakeAmount) (.message "Insufficient stake")
  let (token,_) ← state.world.token.transferFrom self tx.sender self stakeAmount
  return ⟨{state.world with token := token},state.pinning.setPinner tx.sender ⟨true,stakeAmount,0,0,0,tx.timestamp,0⟩⟩

/-- `_claimRewards`. -/
def claimFor (account : Address) (state : PinningState) : Result := do
  let rewards ← state.pinning.calculateRewards tx.timestamp account
  require (0 < rewards) (.message "No rewards to claim")
  require (rewards ≤ state.pinning.rewardsPool) (.message "Insufficient rewards pool")
  let pinner := state.pinning.pinner account
  let cumulative ← checkedAdd pinner.cumulativeRewards rewards
  let pool ← checkedSub state.pinning.rewardsPool rewards
  let distributed ← checkedAdd state.pinning.totalRewardsDistributed rewards
  let (token,_) ← state.world.token.transfer self account rewards
  let claimed := state.pinning.setPinner account {pinner with lastRewardClaim := tx.timestamp, cumulativeRewards := cumulative}
  return ⟨{state.world with token := token},{claimed with rewardsPool := pool, totalRewardsDistributed := distributed}⟩

/-- The stake to return is read before the rewards are claimed. -/
def unregisterPinner (state : PinningState) : Result := do
  let pinner := state.pinning.pinner tx.sender
  require (pinner.isRegistered) (.message "Not registered")
  require ((state.pinning.cidsOf tx.sender).length = 0) (.message "Has active pins")
  let claimed ← state.claimFor self tx tx.sender
  let (token,_) ← claimed.world.token.transfer self tx.sender pinner.stakedAmount
  return ⟨{claimed.world with token := token},claimed.pinning.setPinner tx.sender .blank⟩

def fundRewardsPool (amount : Nat) (state : PinningState) : Result := do
  let (token,_) ← state.world.token.transferFrom self tx.sender self amount
  let pool ← checkedAdd state.pinning.rewardsPool amount
  return ⟨{state.world with token := token},{state.pinning with rewardsPool := pool}⟩

def apart (method : PinningRewards → Except Revert PinningRewards) (state : PinningState) : Result :=
  (method state.pinning).map fun pinning => {state with pinning := pinning}

end PinningState

inductive PinningCall
  | registerPinner (stakeAmount : Nat)
  | unregisterPinner
  | registerPin (cid : Word) (size : Nat)
  | unregisterPin (cid : Word)
  | reportAccess (cid : Word)
  | submitVerification (pinner : Address) (cid : Word) (success : Bool) (proofHash : Word)
  | claimRewards
  | fundRewardsPool (amount : Nat)
  | setRewardRate (newRate : Nat)
  | setVerificationParams (cooldown penalty multiplier : Nat)
  -- what the access control of the library makes of the roles, at any time
  | rolesChanged (roles : Finset (PinningRole × Address))
  | elsewhere (call : Call)

def PinningCall.SetsOnly : PinningCall → Prop
  | .setRewardRate _ | .setVerificationParams _ _ _ | .rolesChanged _ => True
  | _ => False

namespace PinningState
variable (evm : Evm) (staking self : Address)

def call (tx : Tx) (state : PinningState) : PinningCall → Result
  | .registerPinner stakeAmount => state.registerPinner self tx stakeAmount
  | .unregisterPinner => state.unregisterPinner self tx
  | .registerPin cid size => state.apart (PinningRewards.registerPin tx cid size)
  | .unregisterPin cid => state.apart (PinningRewards.unregisterPin tx cid)
  | .reportAccess cid => state.apart (PinningRewards.reportAccess cid)
  | .submitVerification pinner cid success proofHash =>
    state.apart (PinningRewards.submitVerification tx pinner cid success proofHash)
  | .claimRewards => state.claimFor self tx tx.sender
  | .fundRewardsPool amount => state.fundRewardsPool self tx amount
  | .setRewardRate newRate => state.apart (PinningRewards.setRewardRate tx newRate)
  | .setVerificationParams cooldown penalty multiplier =>
    state.apart (PinningRewards.setVerificationParams tx cooldown penalty multiplier)
  | .rolesChanged roles => .ok {state with pinning := {state.pinning with roles := roles}}
  | .elsewhere call => (state.world.call evm staking tx call).map fun (world,_) => {state with world := world}

variable (state : PinningState) (event : Tx × PinningCall)

def next : PinningState :=
  match state.call evm staking self event.1 event.2 with
  | .ok after => after
  | .error _ => state

def External : Prop :=
  event.1.sender ≠ self ∧ match event.2 with
    | .elsewhere call => call.Keyless evm staking self state.world.token
    | _ => True

def entrusted (pinning : PinningRewards) : Nat :=
  pinning.rewardsPool + total Pinner.stakedAmount pinning.pinners

def Backed (self : Address) (state : PinningState) : Prop := entrusted state.pinning ≤ state.world.token.balanceOf self

end PinningState

namespace PinningRewards
open PinningState

variable {tx : Tx} {pinning after : PinningRewards} {cid : Word} {account : Address}

theorem staked_setPinner (pinning : PinningRewards) (account : Address) (pinner : Pinner) :
    total Pinner.stakedAmount (pinning.setPinner account pinner).pinners + (pinning.pinner account).stakedAmount =
      total Pinner.stakedAmount pinning.pinners + pinner.stakedAmount :=
  total_insert Pinner.stakedAmount rfl pinning.pinners account pinner

theorem entrusted_restated (pinning : PinningRewards) (account : Address) (pinner : Pinner)
    (same : pinner.stakedAmount = (pinning.pinner account).stakedAmount) :
    entrusted (pinning.setPinner account pinner) = entrusted pinning := by
  have staked := pinning.staked_setPinner account pinner
  change pinning.rewardsPool + _ = pinning.rewardsPool + _
  omega

theorem registerPin_entrusted {size : Nat} (ok : pinning.registerPin tx cid size = .ok after) :
    entrusted after = entrusted pinning := by
  simp only [registerPin,bind_ok,require_and,pure_ok] at ok
  obtain ⟨_,_,_,_,_,rfl⟩ := ok
  exact entrusted_restated _ _ _ rfl

theorem unregisterPin_entrusted (ok : pinning.unregisterPin tx cid = .ok after) : entrusted after = entrusted pinning := by
  simp only [unregisterPin,bind_ok,require_and,pure_ok] at ok
  obtain ⟨_,_,total,_,rfl⟩ := ok
  exact entrusted_restated pinning tx.sender {pinning.pinner tx.sender with totalPinnedSize := total} rfl

theorem reportAccess_entrusted (ok : pinning.reportAccess cid = .ok after) : entrusted after = entrusted pinning := by
  simp only [reportAccess,bind_ok,require_and,pure_ok] at ok
  obtain ⟨_,_,_,rfl⟩ := ok
  rfl

theorem penalized_entrusted (ok : pinning.penalized account = .ok after) : entrusted after = entrusted pinning := by
  simp only [penalized,bind_ok,checkedMul_ok,checkedSub_ok,checkedAdd_ok,pure_ok] at ok
  obtain ⟨count,_,_,⟨_,rfl⟩,_,⟨enough,rfl⟩,_,⟨_,rfl⟩,rfl⟩ := ok
  have staked := pinning.staked_setPinner account {pinning.pinner account with
    failedVerifications := count
    stakedAmount := (pinning.pinner account).stakedAmount -
      (pinning.pinner account).stakedAmount * pinning.verificationFailurePenalty / 10000}
  simp only [entrusted] at staked ⊢
  omega

theorem verified_entrusted {now : Nat} (ok : pinning.verified now account cid = .ok after) :
    entrusted after = entrusted pinning := by
  simp only [verified,bind_ok,pure_ok] at ok
  obtain ⟨count,_,rfl⟩ := ok
  exact entrusted_restated pinning account {pinning.pinner account with successfulVerifications := count} rfl

theorem submitVerification_entrusted {success : Bool} {proofHash : Word}
    (ok : pinning.submitVerification tx account cid success proofHash = .ok after) : entrusted after = entrusted pinning := by
  simp only [submitVerification,onlyRole,bind_ok,require_and] at ok
  obtain ⟨_,_,_,_,_,ok⟩ := ok
  split_ifs at ok
  · have kept := verified_entrusted ok
    exact kept
  · have kept := penalized_entrusted ok
    exact kept

end PinningRewards

namespace PinningState
open PinningRewards

variable {evm : Evm} {staking self : Address} {tx : Tx} {state after : PinningState} {event : Tx × PinningCall}

structure SameBooks (before after : PinningState) : Prop where
  world : after.world = before.world
  pinners : after.pinning.pinners = before.pinning.pinners
  pins : after.pinning.pins = before.pinning.pins
  pinnerCids : after.pinning.pinnerCids = before.pinning.pinnerCids
  rewardsPool : after.pinning.rewardsPool = before.pinning.rewardsPool

theorem settings_books {call : PinningCall} (ok : state.call evm staking self tx call = .ok after) (sets : call.SetsOnly) :
    SameBooks state after := by
  cases call with
  | setRewardRate | setVerificationParams =>
    simp only [call,apart,setRewardRate,setVerificationParams,onlyRole,map_ok,bind_ok,pure_ok] at ok
    obtain ⟨_,⟨_,_,rfl⟩,rfl⟩ := ok
    exact ⟨rfl,rfl,rfl,rfl,rfl⟩
  | rolesChanged roles =>
    cases ok
    exact ⟨rfl,rfl,rfl,rfl,rfl⟩
  | _ => exact sets.elim

def Kept (self : Address) (state : PinningState) : Prop := state.world.token.Backs self (entrusted state.pinning)

section
variable (kept : state.Kept self)
include kept

theorem Kept.apart {method : PinningRewards → Except Revert PinningRewards} (ok : state.apart method = .ok after)
    (keeps : ∀ pinning, method state.pinning = .ok pinning → entrusted pinning = entrusted state.pinning) : after.Kept self := by
  rw [PinningState.apart,map_ok] at ok
  obtain ⟨pinning,done,rfl⟩ := ok
  change state.world.token.Backs self (entrusted pinning)
  rw [keeps pinning done]
  exact kept

theorem Kept.books (books : SameBooks state after) : after.Kept self := by
  rw [Kept,entrusted,books.world,books.rewardsPool,books.pinners]
  exact kept

theorem Kept.claim {account : Address} (ok : state.claimFor self tx account = .ok after) :
    after.Kept self ∧ (after.pinning.pinner account).stakedAmount = (state.pinning.pinner account).stakedAmount := by
  simp only [claimFor,bind_ok,require_and,checkedSub_ok,Prod.exists,pure_ok] at ok
  obtain ⟨rewards,_,_,within,cumulative,_,_,⟨_,rfl⟩,_,_,token,_,paid,rfl⟩ := ok
  constructor
  · apply (CregToken.Backs.paid kept paid).less
    have same := entrusted_restated state.pinning account {state.pinning.pinner account with
      lastRewardClaim := tx.timestamp
      cumulativeRewards := cumulative} rfl
    simp only [entrusted] at same ⊢
    change state.pinning.rewardsPool + _ = _ at same
    omega
  · change (read Pinner.blank (state.pinning.pinners.insert account _) account).stakedAmount = _
    rw [read_insert,if_pos rfl]

theorem Kept.unregister (ok : state.unregisterPinner self tx = .ok after) : after.Kept self := by
  simp only [unregisterPinner,bind_ok,require_and,Prod.exists,pure_ok] at ok
  obtain ⟨_,_,claimed,done,token,_,paid,rfl⟩ := ok
  obtain ⟨kept,staked⟩ := kept.claim done
  apply (CregToken.Backs.paid kept paid).less
  have returned := claimed.pinning.staked_setPinner tx.sender .blank
  rw [staked] at returned
  simp only [entrusted]
  change claimed.pinning.rewardsPool + _ ≤ _
  change _ = _ + 0 at returned
  omega

end

section
variable (foreign : self ≠ staking) (kept : state.Kept self) (external : state.External evm staking self event)
include foreign kept external

theorem Kept.call (ok : state.call evm staking self event.1 event.2 = .ok after) : after.Kept self := by
  obtain ⟨tx,call⟩ := event
  cases call with
  | registerPinner stakeAmount =>
    simp only [PinningState.call,PinningState.registerPinner,bind_ok,require_and,Prod.exists,pure_ok] at ok
    obtain ⟨_,_,token,_,pulled,rfl⟩ := ok
    apply (CregToken.Backs.pulled kept pulled).less
    have staked := state.pinning.staked_setPinner tx.sender ⟨true,stakeAmount,0,0,0,tx.timestamp,0⟩
    simp only [entrusted]
    change state.pinning.rewardsPool + _ ≤ _
    dsimp only at staked
    omega
  | unregisterPinner => exact kept.unregister ok
  | registerPin cid size => exact kept.apart ok fun _ => registerPin_entrusted
  | unregisterPin cid => exact kept.apart ok fun _ => unregisterPin_entrusted
  | reportAccess cid => exact kept.apart ok fun _ => reportAccess_entrusted
  | submitVerification pinner cid success proofHash => exact kept.apart ok fun _ => submitVerification_entrusted
  | claimRewards => exact (kept.claim ok).1
  | fundRewardsPool amount =>
    simp only [PinningState.call,PinningState.fundRewardsPool,bind_ok,checkedAdd_ok,Prod.exists,pure_ok] at ok
    obtain ⟨token,_,pulled,_,⟨_,rfl⟩,rfl⟩ := ok
    apply (CregToken.Backs.pulled kept pulled).less
    simp only [entrusted]
    omega
  | setRewardRate | setVerificationParams | rolesChanged => exact kept.books (settings_books ok trivial)
  | elsewhere call =>
    rw [PinningState.call,map_ok] at ok
    obtain ⟨⟨world,logs⟩,done,rfl⟩ := ok
    exact CregToken.Backs.keeps kept (World.call_keeps done foreign external.1 external.2 kept.guarded)

theorem Kept.next : (state.next evm staking self event).Kept self := by
  rw [PinningState.next]
  cases done : state.call evm staking self event.1 event.2 with
  | ok after => exact kept.call foreign external done
  | error _ => exact kept

end

/-- The pool and all stakes are backed by tokens in every state. -/
theorem stakes_and_pool_backed {accounts : Accounts} {world : World} {logs : List Log}
    (deployed : World.deploy evm accounts = .ok (world,logs)) (foreign : self ≠ accounts.staking) (deployer : Address)
    (events : List (Tx × PinningCall))
    (external : Along (next evm accounts.staking self) (External evm accounts.staking self) ⟨world,deploy deployer⟩ events) :
    Throughout (next evm accounts.staking self) (Backed self) ⟨world,deploy deployer⟩ events := by
  have start : Kept self ⟨world,deploy deployer⟩ := ⟨Nat.zero_le _,World.deploy_guarded deployed⟩
  exact throughout_run (fun _ _ kept allowed => kept.next foreign allowed) (fun _ kept => kept.covered) _ events start external

theorem unregisterPinner_idle (idle : state.pinning.cidsOf tx.sender = []) : state.unregisterPinner self tx ≠ .ok after := by
  intro ok
  simp only [unregisterPinner,claimFor,calculateRewards,idle,List.foldlM_nil,bind_ok,require_and] at ok
  obtain ⟨_,_,_,⟨rewards,computed,positive,_⟩,_⟩ := ok
  split_ifs at computed
  · cases computed
    exact Nat.lt_irrefl 0 positive
  · simp only [bind_ok,pure_ok] at computed
    obtain ⟨_,_,rfl⟩ := computed
    exact Nat.lt_irrefl 0 positive

/-- Leaving claims rewards, and without pins there are none: only where nobody is idle can the idle leave. -/
theorem idle_pinners_leave_iff (evm : Evm) (staking self : Address) (state : PinningState) :
    (∀ tx : Tx, (state.pinning.pinner tx.sender).isRegistered → state.pinning.cidsOf tx.sender = [] →
      ∃ after rewards, state.call evm staking self tx .unregisterPinner = .ok after ∧
        state.pinning.calculateRewards tx.timestamp tx.sender = .ok rewards ∧ after.world.token.balanceOf tx.sender =
          state.world.token.balanceOf tx.sender + (state.pinning.pinner tx.sender).stakedAmount + rewards) ↔
      ∀ account, (state.pinning.pinner account).isRegistered → state.pinning.cidsOf account ≠ [] := by
  constructor
  · intro leaves account registered idle
    obtain ⟨_,_,ok,_⟩ := leaves ⟨account,0,fun _ _ => none⟩ registered idle
    exact unregisterPinner_idle idle ok
  · intro busy tx registered idle
    exact absurd idle (busy tx.sender registered)

end PinningState

namespace Small
def unpinned : PinningState := ⟨start,.deploy 3⟩

def pinned : List (Tx × PinningCall) :=
  [(tx 10 100 0,.elsewhere (.approve 13 (3000 * 10 ^ 18))),(tx 10 100 0,.registerPinner (2000 * 10 ^ 18)),
    (tx 10 100 0,.fundRewardsPool (1000 * 10 ^ 18)),(tx 10 100 0,.registerPin 1 (10 ^ 9)),
    (tx 3 4000 0,.submitVerification 10 1 true 0),(tx 10 90000 0,.claimRewards),
    (tx 3 95000 0,.submitVerification 10 1 false 0)]

theorem pinned_backed : ((run (PinningState.next evm 2 13) unpinned pinned).pinning.pinner 10).stakedAmount = 1980 * 10 ^ 18 ∧
    (run (PinningState.next evm 2 13) unpinned pinned).world.token.balanceOf 13 = 3000 * 10 ^ 18 - 10 ^ 16 ∧
    Throughout (PinningState.next evm 2 13) (PinningState.Backed 13) unpinned pinned := by
  obtain ⟨logs,deployed⟩ := deployed
  have pinner : (10 : Address) ≠ 13 := by decide
  have verifier : (3 : Address) ≠ 13 := by decide
  refine ⟨by decide +kernel,by decide +kernel,PinningState.stakes_and_pool_backed deployed (by decide) 3 pinned ?_⟩
  exact ⟨⟨pinner,trivial⟩,⟨pinner,trivial⟩,⟨pinner,trivial⟩,⟨pinner,trivial⟩,⟨verifier,trivial⟩,⟨pinner,trivial⟩,
    ⟨verifier,trivial⟩,trivial⟩

theorem idle_pinner_refused : let state := run (PinningState.next evm 2 13) unpinned (pinned.take 2)
    (state.pinning.pinner 10).isRegistered ∧ state.pinning.cidsOf 10 = [] ∧
      (state.call evm 2 13 (tx 10 90000 0) .unregisterPinner).isOk = false := by
  decide +kernel

end Small
end ChainRegistry
