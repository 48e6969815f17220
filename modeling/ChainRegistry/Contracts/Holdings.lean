import ChainRegistry.Contracts.Solvency

/-! The tokens of an account that is neither the staking contract nor the sender of a call. -/
namespace ChainRegistry
open Lib Runs Fallible

namespace CregToken
variable {holder : Address} {token after : CregToken} {logs : List Log} {value : Nat}

theorem Keeps.of_eq (same : after = token) (guarded : token.Guarded holder) : token.Keeps holder after := by
  subst same
  exact ⟨le_rfl,guarded⟩

theorem Keeps.trans {middle : CregToken} (first : token.Keeps holder middle) (second : middle.Keeps holder after) :
    token.Keeps holder after :=
  ⟨first.balance.trans second.balance,second.guarded⟩

theorem Keeps.pulled {sender src dst : Address} (ok : token.transferFrom sender src dst value = .ok (after,logs))
    (guarded : token.Guarded holder) : token.Keeps holder after := by
  obtain ⟨held,guarded⟩ := spent ok guarded
  exact ⟨held,guarded⟩

theorem Keeps.moved {src dst : Address} (ok : token.move src dst value = .ok (after,logs)) (apart : holder ≠ src)
    (guarded : token.Guarded holder) : token.Keeps holder after := by
  have moved := move_ok ok
  exact ⟨moved.other apart,moved.guarded guarded⟩

structure Backs (holder : Address) (amount : Nat) (token : CregToken) : Prop where
  covered : amount ≤ token.balanceOf holder
  guarded : token.Guarded holder

variable {amount : Nat}

section
variable (backs : token.Backs holder amount)
include backs

theorem Backs.less {other : Nat} (less : other ≤ amount) : token.Backs holder other :=
  ⟨less.trans backs.covered,backs.guarded⟩

theorem Backs.keeps (keeps : token.Keeps holder after) : after.Backs holder amount :=
  ⟨backs.covered.trans keeps.balance,keeps.guarded⟩

theorem Backs.pulled {src : Address}
    (ok : token.transferFrom holder src holder value = .ok (after,logs)) : after.Backs holder (amount + value) := by
  obtain ⟨received,guarded⟩ := CregToken.pulled ok backs.guarded
  refine ⟨?_,guarded⟩
  rw [received]
  exact Nat.add_le_add_right backs.covered value

theorem Backs.paid {dst : Address}
    (ok : token.transfer holder dst value = .ok (after,logs)) : after.Backs holder (amount - value) := by
  have moved := move_ok ok
  exact ⟨Nat.sub_le_iff_le_add.mpr (backs.covered.trans moved.out),moved.guarded backs.guarded⟩

end

end CregToken

namespace World
variable {evm : Evm} {staking holder : Address} {tx : Tx} {world final : World} {logs : List Log}

theorem stakeFor_keeps {publisher : Address} {amount : Nat} (ok : world.stakeFor staking publisher amount = .ok (final,logs))
    (guarded : world.token.Guarded holder) : world.token.Keeps holder final.token := by
  simp only [stakeFor,bind_ok,Prod.exists,pair_ok] at ok
  obtain ⟨_,_,_,_,pulled,_,_,rfl,_⟩ := ok
  exact .pulled pulled guarded

theorem applyFor_keeps {validator : Address} {amount : Nat} (ok : world.applyFor staking tx validator amount = .ok (final,logs))
    (guarded : world.token.Guarded holder) : world.token.Keeps holder final.token := by
  simp only [applyFor,bind_ok,require_and,Prod.exists,pair_ok] at ok
  obtain ⟨_,_,_,_,_,_,pulled,rfl,_⟩ := ok
  exact .pulled pulled guarded

theorem payBack_keeps {account : Address} {outcome : ValidatorState} {announcement : Nat → List Log}
    (ok : world.payBack staking account outcome announcement = .ok (final,logs)) (apart : holder ≠ staking)
    (guarded : world.token.Guarded holder) : world.token.Keeps holder final.token := by
  simp only [payBack,bind_ok,Prod.exists,pair_ok] at ok
  obtain ⟨_,_,moved,rfl,_⟩ := ok
  exact .moved moved apart guarded

theorem executeSlash_token {account : Address} {amount : Nat} {reason : String}
    (ok : world.executeSlash tx account amount reason = .ok (final,logs)) : final.token = world.token := by
  simp only [executeSlash,bind_ok,Prod.exists,pair_ok] at ok
  obtain ⟨_,_,_,_,_,_,rfl,_⟩ := ok
  rfl

theorem tryPermit_keeps (tx : Tx) {owner : Address} {value deadline : Nat} {v : UInt8} {r s : Word}
    (keyless : owner = holder → evm.ecrecover (world.token.permitDigest evm holder staking value deadline) v r s ≠ holder)
    (guarded : world.token.Guarded holder) :
    world.token.Keeps holder (world.tryPermit evm staking tx owner value deadline v r s).1.token := by
  unfold tryPermit
  split
  · next token logs permitted =>
    obtain ⟨held,guarded⟩ := CregToken.permit_guarded permitted keyless guarded
    exact ⟨held.ge,guarded⟩
  · exact ⟨le_rfl,guarded⟩

theorem call_keeps {call : Call} (ok : world.call evm staking tx call = .ok (final,logs)) (apart : holder ≠ staking)
    (outside : tx.sender ≠ holder) (keyless : call.Keyless evm staking holder world.token)
      (guarded : world.token.Guarded holder) :
    world.token.Keeps holder final.token := by
  cases call with
  | setContracts | setSlasher | disableEmergencyGovernance | updateMinStakes
  | transferGovernance => exact .of_eq (settings_unmoved ok trivial).token guarded
  | stakeAsPublisher amount => exact stakeFor_keeps ok guarded
  | stakeAsPublisherWithPermit publisher amount deadline v r s =>
    obtain ⟨later,done,rfl⟩ := withPermit_ok ok
    have permitted := tryPermit_keeps tx keyless guarded
    exact permitted.trans (stakeFor_keeps done permitted.guarded)
  | unstakeAsPublisher amount =>
    simp only [World.call,unstakeAsPublisher,bind_ok,Prod.exists,pair_ok] at ok
    obtain ⟨_,_,_,_,_,_,moved,rfl,_⟩ := ok
    exact .moved moved apart guarded
  | applyToBeValidator amount => exact applyFor_keeps ok guarded
  | applyToBeValidatorWithPermit validator amount deadline v r s =>
    obtain ⟨later,done,rfl⟩ := withPermit_ok ok
    have permitted := tryPermit_keeps tx keyless guarded
    exact permitted.trans (applyFor_keeps done permitted.guarded)
  | approveValidator validator =>
    simp only [World.call,approveValidator,bind_ok,require_and,pair_ok] at ok
    obtain ⟨_,_,_,rfl,_⟩ := ok
    exact .of_eq rfl guarded
  | rejectValidator validator =>
    simp only [World.call,rejectValidator,bind_ok,require_and] at ok
    exact payBack_keeps ok.2.2.2 apart guarded
  | approveByConsensus applicant nonce signers sigs =>
    simp only [World.call,approveByConsensus,bind_ok,require_and,pair_ok] at ok
    obtain ⟨_,_,_,_,_,_,_,_,_,_,_,rfl,_⟩ := ok
    exact .of_eq rfl guarded
  | expireApplication | withdrawValidatorStake =>
    simp only [World.call,expireApplication,withdrawValidatorStake,bind_ok,require_and] at ok
    obtain ⟨_,_,_,_,ok⟩ := ok
    exact payBack_keeps ok apart guarded
  | initiateUnbonding =>
    simp only [World.call,initiateUnbonding,bind_ok,require_and,pair_ok] at ok
    obtain ⟨_,rfl,_⟩ := ok
    exact .of_eq rfl guarded
  | slashSeverity account severity reason =>
    simp only [World.call,slashSeverity,bind_ok,require_and] at ok
    obtain ⟨_,_,_,ok⟩ := ok
    exact .of_eq (executeSlash_token ok) guarded
  | slash account amount reason =>
    simp only [World.call,slash,bind_ok,require_and] at ok
    exact .of_eq (executeSlash_token ok.2) guarded
  | distributeSlashPool =>
    simp only [World.call,distributeSlashPool,bind_ok,require_and,Prod.exists,pair_ok] at ok
    obtain ⟨_,_,_,_,_,_,_,_,rfl,_⟩ := ok
    exact .of_eq rfl guarded
  | commitSlashPoolEpoch =>
    simp only [World.call,commitSlashPoolEpoch,bind_ok,require_and,Prod.exists,pair_ok] at ok
    obtain ⟨_,_,_,_,_,_,_,_,_,rfl,_⟩ := ok
    exact .of_eq rfl guarded
  | claimSlashPoolShare =>
    simp only [World.call,claimSlashPoolShare,bind_ok,require_and,pair_ok] at ok
    obtain ⟨_,_,_,_,_,_,_,_,_,_,_,_,_,_,rfl,_⟩ := ok
    exact .of_eq rfl guarded
  | transfer | approve | transferFrom | burn | mint | transferOwnership
  | permit => exact (askToken_keeps ok trivial outside keyless guarded).2

/-- The tokens of an account that has allowed nothing, sends nothing and signs no permit only become more. -/
theorem idle_tokens_kept (apart : holder ≠ staking) (guarded : world.token.Guarded holder) (events : List (Tx × Call))
    (idle : Along (next evm staking) (fun world event => event.1.sender ≠ holder ∧ event.2.Keyless evm staking holder world.token)
      world events) : Throughout (next evm staking) (fun after => world.token.Keeps holder after.token) world events := by
  refine throughout_run ?_ (fun _ kept => kept) world events ⟨le_rfl,guarded⟩ idle
  intro before event kept idle
  rcases perform_cases evm staking before event with ⟨final,logs,done⟩ | ⟨-,same⟩
  · rw [next_of_ok done]
    exact kept.trans (call_keeps done apart idle.1 idle.2 kept.guarded)
  · rw [next,same]
    exact kept

end World

theorem Small.bystander_keeps : Throughout (World.next evm 2) (fun after => start.token.Keeps 12 after.token) start
    [(tx 10 100 0,.approve 2 50),(tx 11 100 0,.transferFrom 12 11 0),(tx 10 100 0,.stakeAsPublisher 50)] := by
  refine World.idle_tokens_kept (by decide) (World.deploy_guarded deployed.choose_spec) _ ?_
  exact ⟨⟨by decide,trivial⟩,⟨by decide,trivial⟩,⟨by decide,trivial⟩,trivial⟩

end ChainRegistry
