import ChainRegistry.Contracts.Refinement
import Mathlib.Tactic.Linarith

/-! What the staking contract owes against the tokens that it holds. Each call is measured by
how it changes the difference of the two. -/
namespace ChainRegistry
open Lib Runs Fallible Ledger ValidatorEntry

namespace Staking
def owed (staking : Staking) : Nat :=
  total id staking.publisherStakes + total stake staking.validators + staking.slashPool +
    staking.slashPoolEpochAmount

variable (staking : Staking) (account : Address)

theorem owed_setPublisherStake (amount : Nat) :
    (staking.setPublisherStake account amount).owed + staking.publisherStake account = staking.owed + amount := by
  have changed : total id (staking.publisherStakes.insert account amount) +
      read 0 staking.publisherStakes account = total id staking.publisherStakes + amount :=
    total_insert id rfl _ _ _
  simp only [owed,setPublisherStake,publisherStake]
  omega

theorem owed_setEntry (entry : ValidatorEntry) :
    (staking.setEntry account entry).owed + (staking.entry account).stake = staking.owed + entry.stake := by
  have changed : total stake (staking.validators.insert account entry) +
      (read blank staking.validators account).stake =
        total stake staking.validators + entry.stake :=
    total_insert stake rfl _ _ _
  simp only [owed,setEntry,Staking.entry]
  omega

theorem owed_credit (share : Nat) :
    (staking.setEntry account {staking.entry account with stake := (staking.entry account).stake + share}).owed =
      staking.owed + share := by
  have changed := staking.owed_setEntry account
    {staking.entry account with stake := (staking.entry account).stake + share}
  dsimp only at changed ⊢
  omega

theorem owed_setSlashPool (amount : Nat) : (staking.setSlashPool amount).owed + staking.slashPool = staking.owed + amount := by
  simp only [owed,setSlashPool]
  omega

theorem owed_noteClaim (epoch : Nat) (claimant : Address) (left : Nat) :
    (staking.noteClaim epoch claimant left).owed + staking.slashPoolEpochAmount = staking.owed + left := by
  simp only [owed,noteClaim]
  omega

end Staking

def CregToken.Guarded (self : Address) (token : CregToken) : Prop := ∀ spender, token.allowance self spender = 0

namespace CregToken
variable {self : Address} {token after : CregToken} {logs : List Log} {value : Nat} {sender src dst : Address}

theorem Moved.guarded {src dst : Address} (moved : Moved token src dst value after logs) (guarded : token.Guarded self) :
    after.Guarded self := by
  intro spender
  rw [allowance,moved.allowances]
  exact guarded spender

theorem Moved.out {dst : Address} (moved : Moved token self dst value after logs) :
    token.balanceOf self ≤ after.balanceOf self + value := by
  rw [moved.balances,shifted,if_pos rfl]
  split_ifs <;> omega

theorem Moved.other {src dst : Address} (moved : Moved token src dst value after logs) (apart : self ≠ src) :
    token.balanceOf self ≤ after.balanceOf self := by
  rw [moved.balances,shifted,if_neg apart]
  split_ifs
  · rfl
  · omega
  · rfl

theorem transferFrom_guarded (ok : token.transferFrom sender src dst value = .ok (after,logs)) (guarded : token.Guarded self) :
    (src = self → value = 0) ∧ after.Guarded self ∧ ∀ account, after.balanceOf account = token.shifted src dst value account := by
  obtain ⟨allowed,moved⟩ := transferFrom_ok ok
  refine ⟨?_,?_,moved.balances⟩
  · rintro rfl
    rw [guarded] at allowed
    exact Nat.le_zero.mp allowed
  · apply moved.guarded
    intro spender
    rw [allowance_setAllowance]
    split_ifs with same
    · cases same
      rw [guarded,Nat.zero_sub]
    · exact guarded spender

theorem pulled {src : Address} (ok : token.transferFrom self src self value = .ok (after,logs)) (guarded : token.Guarded self) :
    after.balanceOf self = token.balanceOf self + value ∧ after.Guarded self := by
  obtain ⟨none,guarded,balances⟩ := transferFrom_guarded ok guarded
  refine ⟨?_,guarded⟩
  rw [balances,shifted]
  by_cases own : src = self
  · rw [if_pos own,none own]
    rfl
  · rw [if_neg own,if_neg (Ne.symm own),if_pos rfl]

theorem spent (ok : token.transferFrom sender src dst value = .ok (after,logs)) (guarded : token.Guarded self) :
    token.balanceOf self ≤ after.balanceOf self ∧ after.Guarded self := by
  obtain ⟨none,guarded,balances⟩ := transferFrom_guarded ok guarded
  refine ⟨?_,guarded⟩
  rw [balances,shifted]
  split_ifs with loop own
  · exact le_rfl
  · rw [none own.symm]
    exact le_rfl
  · exact Nat.le_add_right _ _
  · exact le_rfl

theorem issue_allowances {account : Address} (ok : token.issue account value = .ok (after,logs)) :
    after.allowances = token.allowances := by
  simp only [issue,bind_ok,require_and,pair_ok] at ok
  obtain ⟨_,_,_,_,_,rfl,_⟩ := ok
  rfl

theorem permit_guarded {evm : Evm} {now : Nat} {owner spender : Address} {value deadline : Nat} {v : UInt8} {r s : Word}
    (ok : token.permit evm now owner spender value deadline v r s = .ok (after,logs))
    (unsigned : owner = self → evm.ecrecover (token.permitDigest evm self spender value deadline) v r s ≠ self)
    (guarded : token.Guarded self) : after.balanceOf self = token.balanceOf self ∧ after.Guarded self := by
  simp only [permit,bind_ok,require_and,pair_ok] at ok
  obtain ⟨_,_,_,⟨_,signed⟩,rfl,_⟩ := ok
  refine ⟨rfl,?_⟩
  intro other
  change (token.setAllowance owner spender value).allowance self other = 0
  rw [allowance_setAllowance]
  split_ifs with same
  · cases same
    exact absurd signed (unsigned rfl)
  · exact guarded other

end CregToken

structure CregToken.Keeps (holder : Address) (token after : CregToken) : Prop where
  balance : token.balanceOf holder ≤ after.balanceOf holder
  guarded : after.Guarded holder

def Call.AsksToken : Call → Prop
  | .transfer .. | .approve .. | .transferFrom .. | .burn .. | .mint .. | .transferOwnership .. | .permit .. => True
  | _ => False

def Call.Keyless (evm : Evm) (staking holder : Address) (token : CregToken) : Call → Prop
  | .stakeAsPublisherWithPermit owner amount deadline v r s | .applyToBeValidatorWithPermit owner amount deadline v r s =>
    owner = holder → evm.ecrecover (token.permitDigest evm holder staking amount deadline) v r s ≠ holder
  | .permit owner spender value deadline v r s =>
    owner = holder → evm.ecrecover (token.permitDigest evm holder spender value deadline) v r s ≠ holder
  | _ => True

theorem World.askToken_keeps {evm : Evm} {staking holder : Address} {tx : Tx} {world final : World}
    {logs : List Log} {call : Call}
    (ok : world.call evm staking tx call = .ok (final,logs)) (asks : call.AsksToken) (outside : tx.sender ≠ holder)
    (keyless : call.Keyless evm staking holder world.token) (guarded : world.token.Guarded holder) :
    final.staking = world.staking ∧ world.token.Keeps holder final.token := by
  cases call with
  | transfer dst value =>
    obtain ⟨token,done,rfl⟩ := onToken_ok ok
    have moved := CregToken.move_ok done
    exact ⟨rfl,moved.other (Ne.symm outside),moved.guarded guarded⟩
  | approve spender value =>
    obtain ⟨token,done,rfl⟩ := onToken_ok ok
    cases done
    refine ⟨rfl,le_rfl,?_⟩
    intro other
    rw [CregToken.allowance_setAllowance,if_neg]
    · exact guarded other
    · exact fun same => outside (Prod.mk.inj same).1.symm
  | transferFrom src dst value =>
    obtain ⟨token,done,rfl⟩ := onToken_ok ok
    obtain ⟨held,guarded⟩ := CregToken.spent done guarded
    exact ⟨rfl,held,guarded⟩
  | burn value =>
    obtain ⟨token,done,rfl⟩ := onToken_ok ok
    simp only [CregToken.burn,bind_ok,require_and,pair_ok] at done
    obtain ⟨_,left,_,supply,_,rfl,_⟩ := done
    refine ⟨rfl,?_,guarded⟩
    change _ ≤ (world.token.setBalance tx.sender left).balanceOf holder
    rw [CregToken.balanceOf_setBalance,if_neg (Ne.symm outside)]
  | mint dst value =>
    obtain ⟨token,done,rfl⟩ := onToken_ok ok
    simp only [CregToken.mint,CregToken.issue,bind_ok,require_ok,checkedAdd_ok,exists_const,pair_ok] at done
    obtain ⟨_,_,⟨_,rfl⟩,_,_,⟨_,rfl⟩,rfl,_⟩ := done
    refine ⟨rfl,?_,guarded⟩
    change _ ≤ (world.token.setBalance dst (world.token.balanceOf dst + value)).balanceOf holder
    rw [CregToken.balanceOf_setBalance]
    split_ifs with same
    · rw [same]
      exact Nat.le_add_right _ _
    · exact le_rfl
  | transferOwnership newOwner =>
    obtain ⟨token,done,rfl⟩ := onToken_ok ok
    simp only [CregToken.transferOwnership,bind_ok,require_and,pair_ok] at done
    obtain ⟨_,_,rfl,_⟩ := done
    exact ⟨rfl,le_rfl,guarded⟩
  | permit owner spender value deadline v r s =>
    obtain ⟨token,done,rfl⟩ := onToken_ok ok
    obtain ⟨held,guarded⟩ := CregToken.permit_guarded done keyless guarded
    exact ⟨rfl,held.ge,guarded⟩
  | _ => exact asks.elim

structure Covers (holder : Address) (before after : World) : Prop where
  surplus : after.staking.owed + before.token.balanceOf holder ≤ before.staking.owed + after.token.balanceOf holder
  guarded : after.token.Guarded holder

theorem Covers.trans {self : Address} {before middle after : World} (first : Covers self before middle)
    (second : Covers self middle after) : Covers self before after := by
  refine ⟨?_,second.guarded⟩
  have early := first.surplus
  have late := second.surplus
  omega

namespace World
variable {evm : Evm} {self : Address} {tx : Tx} {world final : World} {logs : List Log} {account : Address} {amount : Nat}

theorem stakeFor_covers {publisher : Address} (ok : world.stakeFor self publisher amount = .ok (final,logs))
    (guarded : world.token.Guarded self) : Covers self world final := by
  simp only [stakeFor,bind_ok,require_ok,checkedAdd_ok,exists_const,Prod.exists,pair_ok] at ok
  obtain ⟨_,token,_,moved,_,⟨_,rfl⟩,rfl,_⟩ := ok
  obtain ⟨received,guarded⟩ := CregToken.pulled moved guarded
  refine ⟨?_,guarded⟩
  have owed := world.staking.owed_setPublisherStake publisher (world.staking.publisherStake publisher + amount)
  dsimp only
  omega

theorem applyFor_covers {validator : Address} (ok : world.applyFor self tx validator amount = .ok (final,logs))
    (guarded : world.token.Guarded self) : Covers self world final := by
  simp only [applyFor,bind_ok,require_and,Prod.exists,pair_ok] at ok
  obtain ⟨_,_,_,_,token,_,moved,rfl,_⟩ := ok
  obtain ⟨received,guarded⟩ := CregToken.pulled moved guarded
  refine ⟨?_,guarded⟩
  have owed := world.staking.owed_setEntry validator ⟨amount,.pending,0,0,0,tx.timestamp⟩
  change (world.staking.setEntry validator _).owed + _ ≤ world.staking.owed + token.balanceOf self
  dsimp only at owed
  omega

theorem payBack_covers {outcome : ValidatorState} {announcement : Nat → List Log}
    (ok : world.payBack self account outcome announcement = .ok (final,logs)) (guarded : world.token.Guarded self) :
    Covers self world final := by
  simp only [payBack,bind_ok,Prod.exists,pair_ok] at ok
  obtain ⟨token,_,moved,rfl,_⟩ := ok
  have moved := CregToken.move_ok moved
  refine ⟨?_,moved.guarded guarded⟩
  have owed := world.staking.owed_setEntry account {world.staking.entry account with stake := 0, state := outcome}
  have held := moved.out
  dsimp only at owed ⊢
  omega

theorem owed_wipeOut (tx : Tx) (account : Address) (staking : Staking) :
    (wipeOut tx account staking).owed + (staking.publisherStake account + (staking.entry account).stake) =
      staking.owed := by
  have published := staking.owed_setPublisherStake account 0
  have staked := (staking.setPublisherStake account 0).owed_setEntry account
    {staking.entry account with stake := 0, state := .withdrawn, ejectedAt := tx.timestamp}
  have same : (staking.setPublisherStake account 0).entry account = staking.entry account := rfl
  rw [same] at staked
  unfold wipeOut
  dsimp only at staked ⊢
  omega

theorem takeStake_owed {amount taken : Nat} {staking after : Staking}
    (ok : takeStake tx account amount staking = .ok (after,taken,logs)) :
    after.owed + taken = staking.owed ∧ after.slashPool = staking.slashPool := by
  unfold takeStake at ok
  dsimp only at ok
  split_ifs at ok with active published
  · simp only [slashValidator,bind_ok,checkedSub_ok,checkedAdd_ok,Prod.exists,pair_ok] at ok
    obtain ⟨_,_,⟨_,⟨enough,rfl⟩,_,⟨_,rfl⟩,cut⟩,rfl,rfl,_⟩ := ok
    split_ifs at cut
    · cases cut
      have owed := staking.owed_setEntry account {staking.entry account with
        stake := (staking.entry account).stake - amount
        slashCount := (staking.entry account).slashCount + 1
        state := .unbonding
        unbondingAt := tx.timestamp
        ejectedAt := tx.timestamp}
      refine ⟨?_,rfl⟩
      dsimp only at owed
      omega
    · cases cut
      have owed := staking.owed_setEntry account {staking.entry account with
        stake := (staking.entry account).stake - amount
        slashCount := (staking.entry account).slashCount + 1}
      refine ⟨?_,rfl⟩
      dsimp only at owed
      omega
  · simp only [slashPublisher,bind_ok,checkedSub_ok,pure_ok,Prod.mk.injEq] at ok
    obtain ⟨_,⟨_,⟨enough,rfl⟩,rfl⟩,rfl,rfl,_⟩ := ok
    have owed := staking.owed_setPublisherStake account (staking.publisherStake account - amount)
    exact ⟨by omega,rfl⟩
  · simp only [bind_ok,checkedAdd_ok,pair_ok] at ok
    obtain ⟨_,⟨_,rfl⟩,rfl,rfl,_⟩ := ok
    exact ⟨owed_wipeOut tx account staking,rfl⟩

theorem executeSlash_covers {reason : String} (ok : world.executeSlash tx account amount reason = .ok (final,logs))
    (guarded : world.token.Guarded self) : Covers self world final := by
  simp only [executeSlash,bind_ok,checkedAdd_ok,Prod.exists,pair_ok] at ok
  obtain ⟨staking,taken,_,took,_,⟨_,rfl⟩,rfl,_⟩ := ok
  obtain ⟨owed,_⟩ := takeStake_owed took
  refine ⟨?_,guarded⟩
  have pooled := staking.owed_setSlashPool (staking.slashPool + taken)
  dsimp only
  omega

theorem payShares_owed {pool totalWeight : Nat} {staking : Staking} {list : List Address} {before after : Staking}
    {first last count total : Nat} (states : ∀ account, (before.entry account).state = (staking.entry account).state)
    (scores : before.reputation = staking.reputation) (weighed : weigh tx staking list first count = .ok (last,total))
    (ok : payShares tx pool totalWeight list before = .ok after) :
    after.owed * totalWeight + pool * first ≤ before.owed * totalWeight + pool * last := by
  induction list generalizing before first count with
  | nil =>
    cases ok
    cases weighed
    exact le_rfl
  | cons val rest ih =>
    unfold payShares at ok
    unfold weigh at weighed
    dsimp only at ok
    rw [← states val] at weighed
    split_ifs at ok weighed with active
    · simp only [bind_ok,score_ok,checkedMul_ok,checkedDiv_ok,checkedAdd_ok] at ok weighed
      obtain ⟨own,found,_,⟨_,rfl⟩,_,⟨_,rfl⟩,_,⟨_,rfl⟩,ok⟩ := ok
      obtain ⟨_,again,_,⟨_,rfl⟩,weighed⟩ := weighed
      rw [scores] at found
      cases found.symm.trans again
      have later := ih ?_ ?_ weighed ok
      · have rounded : pool * own / totalWeight * totalWeight ≤ pool * own := Nat.div_mul_le_self _ _
        rw [Staking.owed_credit,Nat.add_mul,Nat.mul_add] at later
        omega
      · intro account
        rw [Staking.entry_setEntry,Function.update_apply]
        split_ifs with same
        · rw [same]
          exact states val
        · exact states account
      · exact scores
    · exact ih states scores weighed ok

theorem distributeSlashPool_covers (ok : world.distributeSlashPool tx = .ok (final,logs))
    (guarded : world.token.Guarded self) : Covers self world final := by
  simp only [distributeSlashPool,bind_ok,require_and,Prod.exists,pair_ok] at ok
  obtain ⟨_,weight,count,weighed,_,positive,paid,shared,rfl,_⟩ := ok
  have states : ∀ account, ((world.staking.setSlashPool 0).entry account).state = (world.staking.entry account).state :=
    fun _ => rfl
  have bound := payShares_owed states rfl weighed shared
  rw [Nat.mul_zero,Nat.add_zero,← Nat.add_mul] at bound
  have shares := Nat.le_of_mul_le_mul_right bound positive
  have emptied := world.staking.owed_setSlashPool 0
  refine ⟨?_,guarded⟩
  dsimp only
  omega

theorem commitSlashPoolEpoch_covers (ok : world.commitSlashPoolEpoch tx = .ok (final,logs))
    (guarded : world.token.Guarded self) : Covers self world final := by
  simp only [commitSlashPoolEpoch,bind_ok,require_and,Prod.exists,pair_ok] at ok
  obtain ⟨_,drained,_,weight,count,_,_,epoch,_,rfl,_⟩ := ok
  refine ⟨?_,guarded⟩
  simp only [Staking.owed,Staking.setSlashPool,Staking.openEpoch]
  omega

def ShareCovered (staking : Staking) (own : Nat) : Prop :=
  staking.slashPoolEpochAmount * own < (staking.slashPoolEpochAmount + 1) * staking.slashPoolEpochTotalWeight

instance (staking : Staking) (own : Nat) : Decidable (ShareCovered staking own) :=
  inferInstanceAs (Decidable (_ < _))

theorem claimSlashPoolShare_covers (ok : world.claimSlashPoolShare tx = .ok (final,logs))
    (covered : ∀ own, tx.scoreOf world.staking.reputation tx.sender = some own → ShareCovered world.staking own)
    (guarded : world.token.Guarded self) : Covers self world final := by
  simp only [claimSlashPoolShare,bind_ok,require_and,score_ok,checkedMul_ok,checkedDiv_ok,checkedAdd_ok,pair_ok] at ok
  obtain ⟨_,_,_,_,own,found,_,_,⟨_,rfl⟩,share,⟨nonzero,divided⟩,_,_,⟨_,rfl⟩,rfl,_⟩ := ok
  have small : share ≤ world.staking.slashPoolEpochAmount := by
    rw [← divided]
    exact Nat.lt_succ_iff.mp ((Nat.div_lt_iff_lt_mul (Nat.pos_of_ne_zero nonzero)).mpr (covered own found))
  have left : (if world.staking.slashPoolEpochAmount ≤ share then 0 else world.staking.slashPoolEpochAmount - share) =
      world.staking.slashPoolEpochAmount - share := by
    split_ifs
    · omega
    · rfl
  rw [left]
  have noted := world.staking.owed_noteClaim world.staking.slashPoolEpoch tx.sender
    (world.staking.slashPoolEpochAmount - share)
  generalize noting : world.staking.noteClaim world.staking.slashPoolEpoch tx.sender
    (world.staking.slashPoolEpochAmount - share) = staking at noted ⊢
  have same : world.staking.entry tx.sender = staking.entry tx.sender := by
    rw [← noting]
    rfl
  refine ⟨?_,guarded⟩
  have credited := staking.owed_credit tx.sender share
  rw [← same] at credited
  dsimp only at credited ⊢
  omega

def External (evm : Evm) (self : Address) (world : World) (event : Tx × Call) : Prop :=
  event.1.sender ≠ self ∧ event.2.Keyless evm self self world.token

def ClaimCovered (world : World) (event : Tx × Call) : Prop :=
  match event.2 with
  | .claimSlashPoolShare =>
    ∀ own, event.1.scoreOf world.staking.reputation event.1.sender = some own → ShareCovered world.staking own
  | _ => True

theorem covers_of_owed {staking : Staking} (same : staking.owed = world.staking.owed) (guarded : world.token.Guarded self) :
    Covers self world {world with staking := staking} :=
  ⟨by rw [same],guarded⟩

theorem owed_restate (staking : Staking) (account : Address) (entry : ValidatorEntry)
    (same : entry.stake = (staking.entry account).stake) : (staking.setEntry account entry).owed = staking.owed := by
  have changed := staking.owed_setEntry account entry
  omega

theorem askToken_covers {call : Call} (ok : world.call evm self tx call = .ok (final,logs)) (asks : call.AsksToken)
    (outside : tx.sender ≠ self) (keyless : call.Keyless evm self self world.token) (guarded : world.token.Guarded self) :
    Covers self world final := by
  obtain ⟨same,kept⟩ := askToken_keeps ok asks outside keyless guarded
  refine ⟨?_,kept.guarded⟩
  rw [same]
  exact Nat.add_le_add_left kept.balance _

theorem tryPermit_covers (tx : Tx) {owner : Address} {value deadline : Nat} {v : UInt8} {r s : Word}
    (unsigned : owner = self → evm.ecrecover (world.token.permitDigest evm self self value deadline) v r s ≠ self)
    (guarded : world.token.Guarded self) :
    Covers self world (world.tryPermit evm self tx owner value deadline v r s).1 := by
  unfold tryPermit
  split
  · rename_i token logs permitted
    obtain ⟨held,guarded⟩ := CregToken.permit_guarded permitted unsigned guarded
    exact ⟨by rw [held],guarded⟩
  · exact ⟨le_rfl,guarded⟩

theorem Unmoved.covers (unmoved : Unmoved world final logs) (guarded : world.token.Guarded self) : Covers self world final := by
  have owed : final.staking.owed = world.staking.owed := by
    rw [Staking.owed,Staking.owed,unmoved.publisherStakes,unmoved.validators,unmoved.slashPool,unmoved.slashPoolEpochAmount]
  refine ⟨?_,?_⟩
  · rw [owed,unmoved.token]
  · rw [unmoved.token]
    exact guarded

theorem call_covers {call : Call} (ok : world.call evm self tx call = .ok (final,logs))
    (external : External evm self world (tx,call)) (covered : ClaimCovered world (tx,call))
    (guarded : world.token.Guarded self) : Covers self world final := by
  obtain ⟨outside,unsigned⟩ := external
  cases call with
  | setContracts | setSlasher | disableEmergencyGovernance | updateMinStakes
  | transferGovernance => exact (settings_unmoved ok trivial).covers guarded
  | stakeAsPublisher amount => exact stakeFor_covers ok guarded
  | stakeAsPublisherWithPermit publisher amount deadline v r s =>
    obtain ⟨later,done,rfl⟩ := withPermit_ok ok
    have permitted := tryPermit_covers tx unsigned guarded
    exact permitted.trans (stakeFor_covers done permitted.guarded)
  | unstakeAsPublisher amount =>
    simp only [World.call,unstakeAsPublisher,bind_ok,require_ok,checkedSub_ok,exists_const,Prod.exists,pair_ok] at ok
    obtain ⟨enough,_,⟨_,rfl⟩,token,_,moved,rfl,_⟩ := ok
    have moved := CregToken.move_ok moved
    refine ⟨?_,moved.guarded guarded⟩
    have owed := world.staking.owed_setPublisherStake tx.sender (world.staking.publisherStake tx.sender - amount)
    have held := moved.out
    dsimp only
    omega
  | applyToBeValidator amount => exact applyFor_covers ok guarded
  | applyToBeValidatorWithPermit validator amount deadline v r s =>
    obtain ⟨later,done,rfl⟩ := withPermit_ok ok
    have permitted := tryPermit_covers tx unsigned guarded
    exact permitted.trans (applyFor_covers done permitted.guarded)
  | approveValidator validator =>
    simp only [World.call,approveValidator,bind_ok,require_and,pair_ok] at ok
    obtain ⟨_,_,_,rfl,_⟩ := ok
    exact covers_of_owed (owed_restate _ _ _ rfl) guarded
  | rejectValidator validator =>
    simp only [World.call,rejectValidator,bind_ok,require_and] at ok
    exact payBack_covers ok.2.2.2 guarded
  | approveByConsensus applicant nonce signers sigs =>
    simp only [World.call,approveByConsensus,bind_ok,require_and,pair_ok] at ok
    obtain ⟨_,_,_,_,_,_,_,_,_,_,_,rfl,_⟩ := ok
    have used : (world.staking.useNonce applicant nonce).owed = world.staking.owed := rfl
    exact covers_of_owed ((owed_restate _ _ _ rfl).trans used) guarded
  | expireApplication | withdrawValidatorStake =>
    simp only [World.call,expireApplication,withdrawValidatorStake,bind_ok,require_and] at ok
    obtain ⟨_,_,_,_,ok⟩ := ok
    exact payBack_covers ok guarded
  | initiateUnbonding =>
    simp only [World.call,initiateUnbonding,bind_ok,require_and,pair_ok] at ok
    obtain ⟨_,rfl,_⟩ := ok
    exact covers_of_owed (owed_restate _ _ _ rfl) guarded
  | slashSeverity account severity reason =>
    simp only [World.call,slashSeverity,bind_ok,require_and] at ok
    obtain ⟨_,_,_,ok⟩ := ok
    exact executeSlash_covers ok guarded
  | slash account amount reason =>
    simp only [World.call,slash,bind_ok,require_and] at ok
    exact executeSlash_covers ok.2 guarded
  | distributeSlashPool => exact distributeSlashPool_covers ok guarded
  | commitSlashPoolEpoch => exact commitSlashPoolEpoch_covers ok guarded
  | claimSlashPoolShare => exact claimSlashPoolShare_covers ok covered guarded
  | transfer | approve | transferFrom | burn | mint | transferOwnership
  | permit => exact askToken_covers ok trivial outside unsigned guarded

variable {accounts : Accounts}

theorem deploy_guarded {start : World} (deployed : World.deploy evm accounts = .ok (start,logs)) :
    start.token.Guarded self := by
  simp only [World.deploy,CregToken.deploy,bind_ok,Prod.exists,pair_ok] at deployed
  obtain ⟨_,_,⟨_,_,team,_,_,investors,_,_,community,_,_,treasury,rfl,_⟩,rfl,_⟩ := deployed
  intro spender
  rw [CregToken.allowance,CregToken.issue_allowances treasury,CregToken.issue_allowances community,
    CregToken.issue_allowances investors,CregToken.issue_allowances team]
  exact read_empty _ _

def Solvent (self : Address) (world : World) : Prop := world.staking.owed ≤ world.token.balanceOf self

instance (self : Address) (world : World) : Decidable (Solvent self world) :=
  inferInstanceAs (Decidable (_ ≤ _))

theorem solvent_next (world : World) (event : Tx × Call) (kept : Solvent self world ∧ world.token.Guarded self)
    (allowed : External evm self world event ∧ ClaimCovered world event) :
    Solvent self (world.next evm self event) ∧ (world.next evm self event).token.Guarded self := by
  obtain ⟨solvent,guarded⟩ := kept
  rcases perform_cases evm self world event with ⟨final,logs,done⟩ | ⟨-,same⟩
  · have covers := call_covers done allowed.1 allowed.2 guarded
    rw [next_of_ok done]
    refine ⟨?_,covers.guarded⟩
    have surplus := covers.surplus
    unfold Solvent at solvent ⊢
    omega
  · rw [next,same]
    exact ⟨solvent,guarded⟩

/-- The contract holds what it owes, where each claim is made with a score that the epoch covers. -/
theorem staking_solvent {start : World} (deployed : World.deploy evm accounts = .ok (start,logs))
    (events : List (Tx × Call)) (external : Along (next evm accounts.staking) (External evm accounts.staking) start events)
    (covered : Along (next evm accounts.staking) ClaimCovered start events) :
    Throughout (next evm accounts.staking) (Solvent accounts.staking) start events := by
  have solvent : Solvent accounts.staking start := by
    have nothing : start.staking.owed = 0 := by
      rw [deploy_staking deployed]
      rfl
    rw [Solvent,nothing]
    exact Nat.zero_le _
  exact throughout_run solvent_next (fun _ kept => kept.1) start events ⟨solvent,deploy_guarded deployed⟩
    (along_and external covered)

def TakenFrom (account : Address) (amount : Nat) (before after : Staking) : Prop :=
  (after.entry account).stake = (before.entry account).stake - amount ∧
    after.publisherStake account = before.publisherStake account ∧ after.slashPool = before.slashPool + amount

theorem takeStake_active {staking : Staking} (tx : Tx) : let v := staking.entry account
    isActiveVal v → amount ≤ v.stake → ∃ entry logs, entry.stake = v.stake - amount ∧
      takeStake tx account amount staking = (checkedAdd v.slashCount 1).map fun _ =>
        (staking.setEntry account entry,amount,logs) := by
  dsimp only
  intro active enough
  simp only [takeStake,if_pos (And.intro active enough),slashValidator,checkedSub,if_pos enough,ok_bind]
  cases checkedAdd (staking.entry account).slashCount 1 with
  | error failure => exact ⟨{staking.entry account with stake := _},[],rfl,rfl⟩
  | ok slashCount =>
    rw [ok_bind]
    split_ifs
    all_goals
      refine ⟨_,_,?_,rfl⟩
      rfl

theorem takeStake_publisher {staking : Staking} (tx : Tx) (idle : ¬isActiveVal (staking.entry account))
    (enough : amount ≤ staking.publisherStake account) : takeStake tx account amount staking =
      .ok (staking.setPublisherStake account (staking.publisherStake account - amount),amount,[]) := by
  rw [takeStake,if_neg fun both => idle both.1,if_pos ⟨idle,enough⟩,slashPublisher,checkedSub,if_pos enough]
  rfl

/-- A slash takes the share of its severity exactly from an active account, or where there is nothing to take. -/
theorem slashSeverity_exact_iff (severity : Severity) (reason : String) (may : maySlash world.staking tx.sender)
    (positive : 0 < (world.staking.entry account).stake) :
    let v := world.staking.entry account
    let amount := v.stake * slashPct severity / 100
    (∃ final logs, world.slashSeverity tx account severity reason = .ok (final,logs) ∧
      TakenFrom account amount world.staking final.staking) ↔ world.staking.slashPool + amount < 2 ^ 256 ∧
      (v.state = .active ∧ v.stake * slashPct severity < 2 ^ 256 ∧ v.slashCount + 1 < 2 ^ 256 ∨
        v.state ≠ .active ∧ amount = 0 ∧ world.staking.publisherStake account * slashPct severity / 100 = 0) := by
  intro v amount
  have part := slashed_le severity
  simp only [slashSeverity,executeSlash,bind_ok,require_and,checkedMul_ok,checkedAdd_ok,Prod.exists,pair_ok,may,true_and]
  by_cases active : v.state = .active
  · have val : isActiveVal (world.staking.entry account) := by simp_all [isActiveVal,v]
    obtain ⟨entry,logs,left,took⟩ := takeStake_active tx val (part _)
    simp only [if_pos val]
    constructor
    · rintro ⟨_,_,⟨_,⟨fits,rfl⟩,_,_,_,done,_,⟨bound,rfl⟩,rfl,rfl⟩,_⟩
      rw [took,map_ok] at done
      obtain ⟨_,counted,same⟩ := done
      cases same
      exact ⟨bound,.inl ⟨active,fits,((checkedAdd_ok _ _ _).mp counted).1⟩⟩
    · rintro ⟨bound,⟨_,fits,counted⟩ | ⟨idle,_⟩⟩
      · rw [checkedAdd,if_pos counted] at took
        refine ⟨_,_,⟨_,⟨fits,rfl⟩,_,_,_,took,_,⟨bound,rfl⟩,rfl,rfl⟩,?_,rfl,rfl⟩
        change (Staking.entry (Staking.setEntry _ _ _) _).stake = _
        rw [Staking.entry_setEntry,Function.update_self,left]
      · exact absurd active idle
  · have val : ¬isActiveVal (world.staking.entry account) := by simp [isActiveVal,v,active]
    have took := takeStake_publisher tx val (part _)
    have read : ∀ rest, (world.staking.setPublisherStake account rest).publisherStake account = rest := by
      simp [Staking.publisherStake,Staking.setPublisherStake,read_insert]
    have less := part (world.staking.publisherStake account)
    have half := part v.stake
    simp only [if_neg val]
    constructor
    · rintro ⟨_,_,⟨_,⟨_,rfl⟩,_,_,_,done,_,⟨bound,rfl⟩,rfl,rfl⟩,stake,kept,pool⟩
      cases took.symm.trans done
      replace stake : v.stake = v.stake - amount := stake
      replace kept := (read _).symm.trans kept
      exact ⟨pool ▸ bound,.inr ⟨active,by omega,by omega⟩⟩
    · rintro ⟨bound,⟨own,_⟩ | ⟨_,nothing,none⟩⟩
      · exact absurd own active
      · refine ⟨_,_,⟨_,⟨by omega,rfl⟩,_,_,_,took,_,⟨?_,rfl⟩,rfl,rfl⟩,?_,(read _).trans (by omega),?_⟩
        · change world.staking.slashPool + _ < _
          omega
        · change v.stake = v.stake - amount
          omega
        · change world.staking.slashPool + _ = _
          omega

end World

namespace Small
def claiming (score : Nat) : List (Tx × Call) :=
  joining 10 100 ++ [(tx 4 200 0,.slash 10 (50 * 10 ^ 18) ""),(tx 4 300 1,.commitSlashPoolEpoch),
    (tx 10 400 score,.claimSlashPoolShare)]

theorem claiming_external (score : Nat) : Along (World.next evm 2) (World.External evm 2) start (claiming score) := by
  have validator : (10 : Address) ≠ 2 := by decide
  have governance : (4 : Address) ≠ 2 := by decide
  exact ⟨⟨validator,trivial⟩,⟨validator,trivial⟩,⟨governance,trivial⟩,⟨governance,trivial⟩,⟨governance,trivial⟩,
    ⟨validator,trivial⟩,trivial⟩

theorem solvent_with_kept_score : Throughout (World.next evm 2) (World.Solvent 2) start (claiming 1) := by
  obtain ⟨logs,deployed⟩ := deployed
  refine World.staking_solvent deployed (claiming 1) (claiming_external 1) ?_
  refine ⟨trivial,trivial,trivial,trivial,trivial,?_,trivial⟩
  intro own found
  cases found
  decide +kernel

theorem share_beyond_epoch : (∃ logs, World.deploy evm accounts = .ok (start,logs)) ∧
    Along (World.next evm 2) (World.External evm 2) start (claiming 100) ∧
      (∀ event ∈ claiming 100, ∀ reputation account, ∃ score ≤ 100, event.1.scoreOf reputation account = some score) ∧
      ¬World.Solvent 2 (run (World.next evm 2) start (claiming 100)) := by
  refine ⟨deployed,claiming_external 100,?_,?_⟩
  · simp [claiming,joining,tx]
  · decide +kernel

theorem tenth_slashed : let world := run (World.next evm 2) start (joining 10 100)
    ∃ final logs, world.slashSeverity (tx 4 200 0) 10 .medium "" = .ok (final,logs) ∧
      World.TakenFrom 10 (10 * 10 ^ 18) world.staking final.staking :=
  (World.slashSeverity_exact_iff .medium "" (by decide +kernel) (by decide +kernel)).mpr (by decide +kernel)

theorem unbonding_stake_kept : let world := run (World.next evm 2) start (joining 10 100 ++ [(tx 10 150 0,.initiateUnbonding)])
    (world.staking.entry 10).state = .unbonding ∧ (world.staking.entry 10).stake = 100 * 10 ^ 18 ∧
      (world.slashSeverity (tx 4 200 0) 10 .medium "").isOk = true ∧
      (world.next evm 2 (tx 4 200 0,.slashSeverity 10 .medium "")).staking.entry 10 = world.staking.entry 10 := by
  decide +kernel

end Small
end ChainRegistry
