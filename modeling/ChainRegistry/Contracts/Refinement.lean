import ChainRegistry.Contracts.Lifecycle

/-! Every call of the staking contract is a run of the lifecycle machine, and its events
announce what the machine announces. -/
namespace ChainRegistry
open Lib Runs Fallible List Finset Staking Log Roster CregToken

def Staking.roster (staking : Staking) : Roster := ⟨staking.entry,staking.validatorList⟩

theorem Staking.entry_setEntry (staking : Staking) (account : Address) (entry : ValidatorEntry) :
    (staking.setEntry account entry).entry = Function.update staking.entry account entry := by
  funext other
  rw [Staking.entry,setEntry,Ledger.read_insert,Function.update_apply]
  rfl

def Staking.activeAccounts (staking : Staking) : Finset Address :=
  (Table.ids staking.validators).filter fun account => (staking.entry account).state = .active

theorem Staking.mem_activeAccounts (staking : Staking) (account : Address) :
    account ∈ staking.activeAccounts ↔ (staking.entry account).state = .active := by
  rw [activeAccounts,Finset.mem_filter,and_iff_right_iff_imp]
  intro active
  rw [Table.mem_ids]
  cases found : staking.validators.lookup account with
  | none =>
    rw [entry,Ledger.read,found] at active
    cases active
  | some entry => exact ⟨entry,rfl⟩

def Log.membership : Log → Option (Address × Bool)
  | .validatorApproved a | .validatorApprovedByConsensus a _ _ => some (a,true)
  | .validatorUnbonding a _ | .validatorWithdrawn a _ | .validatorLeft a => some (a,false)
  | _ => none

structure Refines (now : Nat) (before after : Staking) (logs : List Log) (moves : List Move) : Prop where
  allowed : Along (step now) (Roster.Allowed now) before.roster moves
  roster : after.roster = run (step now) before.roster moves
  news : logs.filterMap membership = moves.flatMap Move.membership
  nonces : before.consensusNonceUsed ⊆ after.consensusNonceUsed

def Staking.SlashMoves (staking : Staking) (account : Address) (amount : Nat) (moves : List Move) : Prop :=
  let v := staking.entry account
  if World.isActiveVal v ∧ amount ≤ v.stake then
    ∃ stake slashCount, moves = [.cut account stake slashCount] ∨ moves = [.eject account stake slashCount]
  else if ¬World.isActiveVal v ∧ amount ≤ staking.publisherStake account then moves = []
  else moves = [.wipe account]

variable {moves : List Move} {move : Move}

theorem Staking.SlashMoves.mem {staking : Staking} {account : Address} {amount : Nat}
    (shape : staking.SlashMoves account amount moves) (inside : move ∈ moves) :
    (∃ stake slashCount, move = .cut account stake slashCount ∨ move = .eject account stake slashCount) ∨
      move = .wipe account := by
  unfold Staking.SlashMoves at shape
  dsimp only at shape
  split_ifs at shape
  · obtain ⟨stake,slashCount,rfl | rfl⟩ := shape
    · exact .inl ⟨stake,slashCount,.inl (List.mem_singleton.mp inside)⟩
    · exact .inl ⟨stake,slashCount,.inr (List.mem_singleton.mp inside)⟩
  · rw [shape] at inside
    exact absurd inside not_mem_nil
  · rw [shape] at inside
    exact .inr (List.mem_singleton.mp inside)

def Staking.slashBase (staking : Staking) (account : Address) : Nat :=
  if World.isActiveVal (staking.entry account) then (staking.entry account).stake else staking.publisherStake account

def Call.Explains (tx : Tx) (staking : Staking) (moves : List Move) : Call → Prop
  | .applyToBeValidator amount => moves = [.apply tx.sender amount]
  | .applyToBeValidatorWithPermit validator amount _ _ _ _ => moves = [.apply validator amount]
  | .approveValidator validator => moves = [.activate validator]
  | .approveByConsensus applicant _ _ _ => moves = [.activate applicant]
  | .rejectValidator validator => moves = [.reject validator]
  | .expireApplication applicant => moves = [.expire applicant]
  | .initiateUnbonding => moves = [.unbond tx.sender]
  | .withdrawValidatorStake => moves = [.withdraw tx.sender]
  | .slash account amount _ => staking.SlashMoves account amount moves
  | .slashSeverity account severity _ =>
    staking.SlashMoves account (staking.slashBase account * World.slashPct severity / 100) moves
  | .distributeSlashPool => ∀ move ∈ moves, ∃ validator stake, move = .reward validator stake
  | .claimSlashPoolShare => ∃ stake, moves = [.reward tx.sender stake]
  | _ => moves = []

def Call.SetsOnly : Call → Prop
  | .setContracts _ _ | .setSlasher _ _ | .disableEmergencyGovernance => True
  | .updateMinStakes _ _ | .transferGovernance _ => True
  | _ => False

variable {now : Nat} {before middle after : Staking} {logs : List Log} {v : UInt8}
  {event : Tx × Call} {owner : Address} {call : Call}

theorem Refines.still (roster : after.roster = before.roster) (quiet : logs.filterMap membership = [])
    (nonces : before.consensusNonceUsed ⊆ after.consensusNonceUsed) : Refines now before after logs [] :=
  ⟨trivial,roster,quiet,nonces⟩

theorem Refines.one (allowed : move.Allowed now (before.entry move.target))
    (entries : after.entry = Function.update before.entry move.target (move.entry now (before.entry move.target)))
    (list : after.validatorList = before.validatorList ++ move.joins) (news : logs.filterMap Log.membership = move.membership)
    (nonces : before.consensusNonceUsed ⊆ after.consensusNonceUsed) : Refines now before after logs [move] := by
  refine ⟨⟨allowed,trivial⟩,?_,?_,nonces⟩
  · rw [run_cons,run_nil,Staking.roster,entries,list]
    rfl
  · rw [news,flatMap_cons,flatMap_nil,append_nil]

theorem Refines.cons (first : Refines now before middle [] [move]) (rest : Refines now middle after [] moves) :
    Refines now before after [] (move :: moves) := by
  have state : middle.roster = before.roster.step now move := first.roster
  refine ⟨⟨first.allowed.1,state ▸ rest.allowed⟩,?_,?_,first.nonces.trans rest.nonces⟩
  · rw [run_cons,← state]
    exact rest.roster
  · rw [flatMap_cons,← rest.news]
    simpa using first.news

theorem Refines.entry {base : Staking} (roster : base.roster = before.roster) (move : Move)
    (allowed : move.Allowed now (before.entry move.target)) (unlisted : move.joins = [])
    (news : logs.filterMap membership = move.membership) (nonces : before.consensusNonceUsed ⊆ base.consensusNonceUsed) :
    Refines now before (base.setEntry move.target (move.entry now (before.entry move.target))) logs [move] := by
  have entries : base.entry = before.entry := congrArg Roster.entry roster
  have list : base.validatorList = before.validatorList := congrArg listed roster
  apply Refines.one allowed
  · rw [entry_setEntry,entries]
  · rw [unlisted,append_nil]
    exact list
  · exact news
  · exact nonces

theorem Refines.log {log : Log} (refines : Refines now before after logs moves) (quiet : log.membership = none) :
    Refines now before after (logs ++ [log]) moves := by
  refine ⟨refines.allowed,refines.roster,?_,refines.nonces⟩
  rw [filterMap_append,filterMap_cons_none quiet,filterMap_nil,append_nil]
  exact refines.news

namespace World
variable {evm : Evm} {self : Address} {tx : Tx} {world final : World} {value deadline : Nat}
  {method : CregToken → CregToken.Result} {account : Address} {amount : Nat} {r s : Word} {token next : CregToken}

theorem quiet_moved {src dst : Address} {value : Nat} (moved : CregToken.Moved token src dst value next logs) :
    logs.filterMap membership = [] := by
  rw [moved.logged]
  rfl

theorem quiet_permit {owner spender : Address}
    (permitted : token.permit evm now owner spender value deadline v r s = .ok (next,logs)) :
    logs.filterMap membership = [] := by
  simp only [permit,bind_ok,require_and,pair_ok] at permitted
  obtain ⟨_,_,_,_,_,rfl⟩ := permitted
  rfl

variable (evm self tx world) in
theorem tryPermit_staking (owner : Address) (value deadline : Nat) (v : UInt8) (r s : Word) :
    (world.tryPermit evm self tx owner value deadline v r s).1.staking = world.staking ∧
      (world.tryPermit evm self tx owner value deadline v r s).2.filterMap membership = [] := by
  unfold tryPermit
  split
  · rename_i permitted
    exact ⟨rfl,quiet_permit permitted⟩
  · exact ⟨rfl,rfl⟩

theorem stakeFor_refines {publisher : Address} (ok : world.stakeFor self publisher amount = .ok (final,logs)) :
    Refines now world.staking final.staking logs [] := by
  simp only [stakeFor,bind_ok,require_and,Prod.exists,pair_ok] at ok
  obtain ⟨_,token,paid,moved,_,_,rfl,rfl⟩ := ok
  refine Refines.still (by rfl) ?_ subset_rfl
  rw [filterMap_append,quiet_moved (transferFrom_ok moved).2]
  rfl

theorem applyFor_refines {validator : Address} (ok : world.applyFor self tx validator amount = .ok (final,logs)) :
    Refines tx.timestamp world.staking final.staking logs [.apply validator amount] := by
  simp only [applyFor,bind_ok,require_and,Prod.exists,pair_ok] at ok
  obtain ⟨free,_,_,_,token,paid,moved,rfl,rfl⟩ := ok
  refine Refines.one free ?_ rfl ?_ subset_rfl
  · exact entry_setEntry _ _ _
  · rw [filterMap_append,quiet_moved (transferFrom_ok moved).2]
    rfl

theorem payBack_refines {outcome : ValidatorState} {announcement : Nat → List Log}
    (ok : world.payBack self account outcome announcement = .ok (final,logs)) (target : move.target = account)
    (closes : ∀ v : ValidatorEntry, move.entry now v = {v with stake := 0, state := outcome})
    (allowed : move.Allowed now (world.staking.entry account)) (unlisted : move.joins = [])
    (news : ∀ amount, (announcement amount).filterMap membership = move.membership) :
    Refines now world.staking final.staking logs [move] := by
  simp only [payBack,bind_ok,Prod.exists,pair_ok] at ok
  obtain ⟨token,paid,moved,rfl,rfl⟩ := ok
  subst target
  rw [← closes]
  refine Refines.entry rfl move allowed unlisted ?_ subset_rfl
  rw [filterMap_append,quiet_moved (move_ok moved),nil_append,news]

theorem slashed_le (severity : Severity) (stake : Nat) : stake * slashPct severity / 100 ≤ stake := by
  cases severity <;> simp only [slashPct,slashLowPct,slashMediumPct,slashCriticalPct] <;> omega

theorem takeStake_refines {amount taken : Nat} (ok : takeStake tx account amount before = .ok (after,taken,logs)) :
    ∃ moves, before.SlashMoves account amount moves ∧ Refines tx.timestamp before after logs moves := by
  unfold takeStake at ok
  unfold Staking.SlashMoves
  dsimp only at ok ⊢
  split_ifs at ok ⊢ with active published
  · -- case 1, with and without the ejection
    have standing : (before.entry account).state = .active := by
      have := active.1
      simp only [isActiveVal,Bool.and_eq_true,decide_eq_true_eq] at this
      exact this.1
    simp only [slashValidator,bind_ok,Prod.exists,pair_ok] at ok
    obtain ⟨_,_,⟨stake,_,slashCount,_,cut⟩,rfl,rfl,rfl⟩ := ok
    split_ifs at cut with third
    · cases cut
      refine ⟨[.eject account stake slashCount],⟨stake,slashCount,.inr rfl⟩,?_⟩
      exact Refines.entry rfl (.eject account stake slashCount) standing rfl rfl subset_rfl
    · cases cut
      refine ⟨[.cut account stake slashCount],⟨stake,slashCount,.inl rfl⟩,?_⟩
      exact Refines.entry rfl (.cut account stake slashCount) standing rfl rfl subset_rfl
  · simp only [slashPublisher,bind_ok,pure_ok,Prod.mk.injEq] at ok
    obtain ⟨_,⟨_,_,rfl⟩,rfl,rfl,rfl⟩ := ok
    exact ⟨[],rfl,Refines.still rfl rfl subset_rfl⟩
  · simp only [bind_ok,pair_ok] at ok
    obtain ⟨_,_,rfl,rfl,rfl⟩ := ok
    have base : (before.setPublisherStake account 0).roster = before.roster := rfl
    exact ⟨[.wipe account],rfl,Refines.entry base (.wipe account) trivial rfl rfl subset_rfl⟩

theorem executeSlash_refines {reason : String} (ok : world.executeSlash tx account amount reason = .ok (final,logs)) :
    ∃ moves, world.staking.SlashMoves account amount moves ∧
      Refines tx.timestamp world.staking final.staking logs moves := by
  simp only [executeSlash,bind_ok,Prod.exists,pair_ok] at ok
  obtain ⟨staking,taken,paid,took,pool,_,rfl,rfl⟩ := ok
  obtain ⟨moves,shape,refines⟩ := takeStake_refines took
  have pooled : Refines tx.timestamp world.staking (staking.setSlashPool pool) paid moves :=
    ⟨refines.allowed,refines.roster,refines.news,refines.nonces⟩
  exact ⟨moves,shape,Refines.log pooled rfl⟩

theorem payShares_refines {pool totalWeight : Nat} {list : List Address}
    (ok : payShares tx pool totalWeight list before = .ok after) :
    ∃ moves, (∀ move ∈ moves, ∃ validator stake, move = .reward validator stake) ∧
      Refines tx.timestamp before after [] moves := by
  induction list generalizing before with
  | nil =>
    cases ok
    exact ⟨[],by simp,Refines.still rfl rfl subset_rfl⟩
  | cons val rest ih =>
    unfold payShares at ok
    dsimp only at ok
    split_ifs at ok with standing
    · simp only [bind_ok] at ok
      obtain ⟨_,_,_,_,_,_,stake,_,ok⟩ := ok
      obtain ⟨moves,rewards,refines⟩ := ih ok
      have first : Refines tx.timestamp before (before.setEntry val {before.entry val with stake := stake}) []
          [.reward val stake] := Refines.entry rfl (.reward val stake) standing rfl rfl subset_rfl
      refine ⟨.reward val stake :: moves,?_,first.cons refines⟩
      intro move inside
      rcases List.mem_cons.mp inside with rfl | later
      · exact ⟨val,stake,rfl⟩
      · exact rewards move later
    · exact ih ok

theorem onToken_ok (ok : world.onToken method = .ok (final,logs)) :
    ∃ token, method world.token = .ok (token,logs) ∧ final = {world with token := token} := by
  unfold onToken at ok
  cases done : method world.token with
  | error e => simp [done,Except.map] at ok
  | ok result =>
    rw [done] at ok
    cases ok
    exact ⟨result.1,rfl,rfl⟩

theorem onToken_refines (ok : world.onToken method = .ok (final,logs))
    (quiet : ∀ token after logs, method token = .ok (after,logs) → logs.filterMap membership = []) :
    Refines now world.staking final.staking logs [] := by
  obtain ⟨token,done,rfl⟩ := onToken_ok ok
  exact Refines.still rfl (quiet _ _ _ done) subset_rfl

theorem withPermit_ok {core : World → Result} (ok : (do
      let (permitted,first) := world.tryPermit evm self tx owner value deadline v r s
      let (world,logs) ← core permitted
      return (world,first ++ logs)) = .ok (final,logs)) :
    ∃ later, core (world.tryPermit evm self tx owner value deadline v r s).1 = .ok (final,later) ∧
      logs = (world.tryPermit evm self tx owner value deadline v r s).2 ++ later := by
  simp only [bind_ok,Prod.exists,pair_ok] at ok
  obtain ⟨_,later,done,rfl,rfl⟩ := ok
  exact ⟨later,done,rfl⟩

theorem permitted_refines {moves : List Move} {later : List Log}
    (core : Refines now (world.tryPermit evm self tx owner value deadline v r s).1.staking final.staking later moves) :
    Refines now world.staking final.staking ((world.tryPermit evm self tx owner value deadline v r s).2 ++ later) moves := by
  obtain ⟨same,quiet⟩ := tryPermit_staking evm self tx world owner value deadline v r s
  rw [same] at core
  refine ⟨core.allowed,core.roster,?_,core.nonces⟩
  rw [filterMap_append,quiet,nil_append]
  exact core.news

structure Unmoved (world final : World) (logs : List Log) : Prop where
  token : final.token = world.token
  publisherStakes : final.staking.publisherStakes = world.staking.publisherStakes
  validators : final.staking.validators = world.staking.validators
  slashPool : final.staking.slashPool = world.staking.slashPool
  slashPoolEpochAmount : final.staking.slashPoolEpochAmount = world.staking.slashPoolEpochAmount
  consensusNonceUsed : final.staking.consensusNonceUsed = world.staking.consensusNonceUsed
  validatorList : final.staking.validatorList = world.staking.validatorList
  quiet : logs.filterMap membership = []

theorem settings_unmoved (ok : world.call evm self tx call = .ok (final,logs)) (sets : call.SetsOnly) :
    Unmoved world final logs := by
  cases call with
  | setContracts | setSlasher | disableEmergencyGovernance =>
    simp only [World.call,setContracts,setSlasher,disableEmergencyGovernance,bind_ok,require_and,pair_ok] at ok
    obtain ⟨_,_,rfl,rfl⟩ := ok
    exact ⟨rfl,rfl,rfl,rfl,rfl,rfl,rfl,rfl⟩
  | updateMinStakes | transferGovernance =>
    simp only [World.call,updateMinStakes,transferGovernance,bind_ok,require_and,pair_ok] at ok
    obtain ⟨_,rfl,rfl⟩ := ok
    exact ⟨rfl,rfl,rfl,rfl,rfl,rfl,rfl,rfl⟩
  | _ => exact sets.elim

theorem Unmoved.refines (unmoved : Unmoved world final logs) : Refines now world.staking final.staking logs [] := by
  have entries : final.staking.entry = world.staking.entry := by
    funext account
    rw [Staking.entry,Staking.entry,unmoved.validators]
  refine Refines.still ?_ unmoved.quiet unmoved.consensusNonceUsed.superset
  rw [roster,roster,entries,unmoved.validatorList]

theorem call_refines (ok : world.call evm self tx call = .ok (final,logs)) :
    ∃ moves, call.Explains tx world.staking moves ∧ Refines tx.timestamp world.staking final.staking logs moves := by
  cases call with
  | setContracts | setSlasher | disableEmergencyGovernance | updateMinStakes
  | transferGovernance => exact ⟨[],rfl,(settings_unmoved ok trivial).refines⟩
  | stakeAsPublisher amount => exact ⟨[],rfl,stakeFor_refines ok⟩
  | stakeAsPublisherWithPermit publisher amount deadline v r s =>
    obtain ⟨later,done,rfl⟩ := withPermit_ok ok
    exact ⟨[],rfl,permitted_refines (stakeFor_refines done)⟩
  | unstakeAsPublisher amount =>
    simp only [World.call,unstakeAsPublisher,bind_ok,require_and,Prod.exists,pair_ok] at ok
    obtain ⟨_,_,_,token,paid,moved,rfl,rfl⟩ := ok
    refine ⟨[],rfl,Refines.still rfl ?_ subset_rfl⟩
    rw [filterMap_append,quiet_moved (move_ok moved)]
    rfl
  | applyToBeValidator amount => exact ⟨_,rfl,applyFor_refines ok⟩
  | applyToBeValidatorWithPermit validator amount deadline v r s =>
    obtain ⟨later,done,rfl⟩ := withPermit_ok ok
    exact ⟨_,rfl,permitted_refines (applyFor_refines done)⟩
  | approveValidator validator =>
    simp only [World.call,approveValidator,bind_ok,require_and,pair_ok] at ok
    obtain ⟨_,_,waiting,rfl,rfl⟩ := ok
    exact ⟨_,rfl,Refines.entry rfl (.activate validator) waiting rfl rfl subset_rfl⟩
  | rejectValidator validator =>
    simp only [World.call,rejectValidator,bind_ok,require_and] at ok
    obtain ⟨_,_,waiting,ok⟩ := ok
    exact ⟨[.reject validator],rfl,payBack_refines ok rfl (fun _ => rfl) waiting rfl (fun _ => rfl)⟩
  | approveByConsensus applicant nonce signers sigs =>
    simp only [World.call,approveByConsensus,bind_ok,require_and,pair_ok] at ok
    obtain ⟨waiting,_,_,_,_,_,_,_,_,_,_,rfl,rfl⟩ := ok
    have base : (world.staking.useNonce applicant nonce).roster = world.staking.roster := rfl
    exact ⟨_,rfl,Refines.entry base (.activate applicant) waiting rfl rfl (Finset.subset_insert _ _)⟩
  | expireApplication applicant =>
    simp only [World.call,expireApplication,bind_ok,require_and] at ok
    obtain ⟨waiting,_,_,_,ok⟩ := ok
    exact ⟨[.expire applicant],rfl,payBack_refines ok rfl (fun _ => rfl) waiting rfl (fun _ => rfl)⟩
  | initiateUnbonding =>
    simp only [World.call,initiateUnbonding,bind_ok,require_and,pair_ok] at ok
    obtain ⟨standing,rfl,rfl⟩ := ok
    exact ⟨_,rfl,Refines.entry rfl (.unbond tx.sender) standing rfl rfl subset_rfl⟩
  | withdrawValidatorStake =>
    simp only [World.call,withdrawValidatorStake,bind_ok,require_and,checkedAdd_ok] at ok
    obtain ⟨leaving,_,⟨_,rfl⟩,elapsed,ok⟩ := ok
    exact ⟨[.withdraw tx.sender],rfl,payBack_refines ok rfl (fun _ => rfl) ⟨leaving,elapsed⟩ rfl (fun _ => rfl)⟩
  | slashSeverity account severity reason =>
    simp only [World.call,slashSeverity,bind_ok,require_and,checkedMul_ok] at ok
    obtain ⟨_,_,⟨_,rfl⟩,ok⟩ := ok
    exact executeSlash_refines ok
  | slash account amount reason =>
    simp only [World.call,slash,bind_ok,require_and] at ok
    exact executeSlash_refines ok.2
  | distributeSlashPool =>
    simp only [World.call,distributeSlashPool,bind_ok,require_and,Prod.exists,pair_ok] at ok
    obtain ⟨_,_,_,_,_,_,paid,shared,rfl,rfl⟩ := ok
    obtain ⟨moves,rewards,refines⟩ := payShares_refines shared
    exact ⟨moves,rewards,refines.allowed,refines.roster,refines.news,refines.nonces⟩
  | commitSlashPoolEpoch =>
    simp only [World.call,commitSlashPoolEpoch,bind_ok,require_and,Prod.exists,pair_ok] at ok
    obtain ⟨_,_,_,_,_,_,_,_,_,rfl,rfl⟩ := ok
    exact ⟨[],rfl,Refines.still rfl rfl subset_rfl⟩
  | claimSlashPoolShare =>
    simp only [World.call,claimSlashPoolShare,bind_ok,require_and,pair_ok] at ok
    obtain ⟨_,_,_,standing,own,_,_,_,_,share,_,_,stake,_,rfl,rfl⟩ := ok
    have base : (world.staking.noteClaim world.staking.slashPoolEpoch tx.sender
      (if world.staking.slashPoolEpochAmount ≤ share then 0 else world.staking.slashPoolEpochAmount - share)).roster =
        world.staking.roster := rfl
    exact ⟨_,⟨stake,rfl⟩,Refines.entry base (.reward tx.sender stake) standing rfl rfl subset_rfl⟩
  | transfer dst value =>
    exact ⟨[],rfl,onToken_refines ok fun _ _ _ moved => quiet_moved (move_ok moved)⟩
  | approve spender value =>
    refine ⟨[],rfl,onToken_refines ok ?_⟩
    rintro _ _ _ done
    cases done
    rfl
  | transferFrom src dst value =>
    exact ⟨[],rfl,onToken_refines ok fun _ _ _ moved => quiet_moved (transferFrom_ok moved).2⟩
  | burn value =>
    refine ⟨[],rfl,onToken_refines ok ?_⟩
    intro _ _ _ done
    simp only [CregToken.burn,bind_ok,require_and,pair_ok] at done
    obtain ⟨_,_,_,_,_,rfl,rfl⟩ := done
    rfl
  | mint dst value =>
    refine ⟨[],rfl,onToken_refines ok ?_⟩
    intro _ _ _ done
    simp only [CregToken.mint,issue,bind_ok,require_and,pair_ok] at done
    obtain ⟨_,_,_,_,_,_,rfl,rfl⟩ := done
    rfl
  | transferOwnership newOwner =>
    refine ⟨[],rfl,onToken_refines ok ?_⟩
    intro _ _ _ done
    simp only [CregToken.transferOwnership,bind_ok,require_and,pair_ok] at done
    obtain ⟨_,_,rfl,rfl⟩ := done
    rfl
  | permit owner spender value deadline v r s =>
    exact ⟨[],rfl,onToken_refines ok fun _ _ _ => quiet_permit⟩

theorem perform_of_ok (ok : world.call evm self event.1 event.2 = .ok (final,logs)) :
    world.perform evm self event = (final,logs) := by
  rw [perform,ok]

theorem next_of_ok (ok : world.call evm self event.1 event.2 = .ok (final,logs)) : world.next evm self event = final := by
  rw [next,perform_of_ok ok]

theorem perform_cases (evm : Evm) (self : Address) (world : World) (event : Tx × Call) :
    (∃ final logs, world.call evm self event.1 event.2 = .ok (final,logs)) ∨
      (∀ result, world.call evm self event.1 event.2 ≠ .ok result) ∧ world.perform evm self event = (world,[]) := by
  cases outcome : world.call evm self event.1 event.2 with
  | ok result => exact .inl ⟨result.1,result.2,rfl⟩
  | error failure =>
    refine .inr ⟨by simp,?_⟩
    rw [perform,outcome]

theorem roster_next {holds : Roster → Prop}
    (keeps : ∀ now roster move, holds roster → Roster.Allowed now roster move → holds (roster.step now move))
    (world : World) (event : Tx × Call) (kept : holds world.staking.roster) :
    holds (world.next evm self event).staking.roster := by
  rcases perform_cases evm self world event with ⟨final,logs,done⟩ | ⟨-,same⟩
  · obtain ⟨moves,_,refines⟩ := call_refines done
    rw [next_of_ok done,refines.roster]
    exact invariant_run (keeps _) _ moves kept refines.allowed
  · rw [next,same]
    exact kept

theorem deploy_staking {accounts : Accounts} {start : World} {logs : List Log}
    (deployed : World.deploy evm accounts = .ok (start,logs)) :
    start.staking = Staking.deploy evm accounts.staking accounts.deployer accounts.governance := by
  simp only [World.deploy,bind_ok,Prod.exists,pair_ok] at deployed
  obtain ⟨_,_,_,rfl,_⟩ := deployed
  rfl

theorem entry_deploy (governance deployer account : Address) :
    (Staking.deploy evm self deployer governance).entry account = .blank :=
  Ledger.read_empty _ _

end World
end ChainRegistry
