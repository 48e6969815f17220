import ChainRegistry.Contracts.Refinement

/-! The ways by which a validator's stake leaves the staking contract, along whole histories: the
withdrawal after the unbonding period, and the two that close an application. -/
namespace ChainRegistry
open Lib Runs Fallible List

def Call.Applies (tx : Tx) (account : Address) (amount : Nat) : Call → Prop
  | .applyToBeValidator own => tx.sender = account ∧ own = amount
  | .applyToBeValidatorWithPermit validator own _ _ _ _ => validator = account ∧ own = amount
  | _ => False

def Chronological (events : List (Tx × Call)) : Prop :=
  events.Pairwise fun first second => first.1.timestamp ≤ second.1.timestamp

section Histories
variable (evm : Evm) (self : Address) (start : World) (events : List (Tx × Call)) (account : Address)

/-- Some state that lasts at the given time has the account active: it comes after what is
earlier than that time and ends with what is later. -/
def ActiveAt (time : Nat) : Prop :=
  ∃ before next after, events = before ++ next :: after ∧ (∀ event ∈ before, event.1.timestamp ≤ time) ∧
    time ≤ next.1.timestamp ∧ ((run (World.next evm self) start before).staking.entry account).state = .active

def FailsToApply (world : World) (event : Tx × Call) : Prop :=
  ∀ amount, event.2.Applies event.1 account amount → ∀ result, world.call evm self event.1 event.2 ≠ .ok result

def Deposited (amount : Nat) : Prop :=
  ∃ before event after final logs, events = before ++ event :: after ∧ event.2.Applies event.1 account amount ∧
    (run (World.next evm self) start before).call evm self event.1 event.2 = .ok (final,logs) ∧
    .transfer account self amount ∈ logs ∧ Along (World.next evm self) (FailsToApply evm self account) final after

end Histories

namespace World
variable {evm : Evm} {self : Address} {tx : Tx} {world final start : World} {logs : List Log} {amount : Nat}
  {account : Address} {events : List (Tx × Call)} {call : Call} {staking : Staking}
  {moves : List Move}

theorem unbondingSince_next (world : World) (event : Tx × Call) (account : Address) :
    Roster.UnbondingSince event.1.timestamp world.staking.roster (world.next evm self event).staking.roster account := by
  rcases perform_cases evm self world event with ⟨final,logs,done⟩ | ⟨-,same⟩
  · obtain ⟨moves,_,refines⟩ := call_refines done
    rw [next_of_ok done,refines.roster]
    exact Roster.unbondingSince_run refines.allowed account
  · rw [next,same]
    exact fun leaving => .inr ⟨leaving,rfl⟩

theorem unbondingAt_of_run (outside : (world.staking.entry account).state ≠ .unbonding)
    (leaving : ((run (next evm self) world events).staking.entry account).state = .unbonding) :
    ∃ event ∈ events, event.1.timestamp = ((run (next evm self) world events).staking.entry account).unbondingAt := by
  induction events using List.reverseRecOn with
  | nil => exact absurd leaving outside
  | append_singleton events last ih =>
    rw [run_append] at leaving ⊢
    rcases unbondingSince_next (run (next evm self) world events) last account leaving with now | ⟨before,same⟩
    · exact ⟨last,by simp,now.symm⟩
    · obtain ⟨event,inside,time⟩ := ih before
      exact ⟨event,mem_append_left _ inside,time.trans same.symm⟩

theorem payBack_pays {account payee : Address} {outcome : ValidatorState} {announcement : Nat → List Log}
    (ok : world.payBack self account outcome announcement = .ok (final,logs))
    (silent : ∀ value, .transfer self payee amount ∉ announcement value) (paid : .transfer self payee amount ∈ logs) :
    payee = account ∧ amount = (world.staking.entry account).stake := by
  simp only [payBack,bind_ok,Prod.exists,pair_ok] at ok
  obtain ⟨token,first,moved,_,rfl⟩ := ok
  rw [(CregToken.move_ok moved).logged] at paid
  rcases mem_append.mp paid with transferred | announced
  · cases mem_singleton.mp transferred
    exact ⟨rfl,rfl⟩
  · exact absurd announced (silent _)

theorem withdrawValidatorStake_ok {payee : Address} (ok : world.withdrawValidatorStake self tx = .ok (final,logs))
    (paid : .transfer self payee amount ∈ logs) :
    (world.staking.entry payee).state = .unbonding ∧
      (world.staking.entry payee).unbondingAt + Staking.unbondingPeriod ≤ tx.timestamp := by
  simp only [withdrawValidatorStake,bind_ok,require_and,checkedAdd_ok] at ok
  obtain ⟨leaving,_,⟨_,rfl⟩,elapsed,ok⟩ := ok
  obtain ⟨rfl,_⟩ := payBack_pays ok (by simp) paid
  exact ⟨leaving,elapsed⟩

theorem closing_pays {validator payee : Address}
    (closes : call = .rejectValidator validator ∨ call = .expireApplication validator)
    (ok : world.call evm self tx call = .ok (final,logs)) (paid : .transfer self payee amount ∈ logs) :
    (world.staking.entry payee).state = .pending ∧ amount = (world.staking.entry payee).stake := by
  rcases closes with rfl | rfl
  · simp only [World.call,rejectValidator,bind_ok,require_and] at ok
    obtain ⟨_,_,waiting,ok⟩ := ok
    obtain ⟨rfl,stake⟩ := payBack_pays ok (by simp) paid
    exact ⟨waiting,stake⟩
  · simp only [World.call,expireApplication,bind_ok,require_and] at ok
    obtain ⟨waiting,_,_,_,ok⟩ := ok
    obtain ⟨rfl,stake⟩ := payBack_pays ok (by simp) paid
    exact ⟨waiting,stake⟩

theorem applyFor_pays {validator : Address} (ok : world.applyFor self tx validator amount = .ok (final,logs)) :
    .transfer validator self amount ∈ logs := by
  simp only [applyFor,bind_ok,require_and,Prod.exists,pair_ok] at ok
  obtain ⟨_,_,_,_,token,first,moved,_,rfl⟩ := ok
  rw [(CregToken.transferFrom_ok moved).2.logged]
  exact mem_append_left _ (mem_singleton.mpr rfl)

theorem applies_pays (applies : call.Applies tx account amount) (ok : world.call evm self tx call = .ok (final,logs)) :
    .transfer account self amount ∈ logs := by
  cases call with
  | applyToBeValidator own =>
    obtain ⟨rfl,rfl⟩ := applies
    exact applyFor_pays ok
  | applyToBeValidatorWithPermit validator own deadline v r s =>
    obtain ⟨rfl,rfl⟩ := applies
    simp only [World.call,applyToBeValidatorWithPermit,bind_ok,Prod.exists,pair_ok] at ok
    obtain ⟨_,later,done,_,rfl⟩ := ok
    exact mem_append_right _ (applyFor_pays done)
  | _ => exact absurd applies id

theorem slashMoves_apply {slashed account : Address} {taken amount : Nat}
    (shape : staking.SlashMoves slashed taken moves) : .apply account amount ∉ moves := by
  intro inside
  rcases shape.mem inside with ⟨_,_,cut | eject⟩ | wipe
  · cases cut
  · cases eject
  · cases wipe

theorem explains_apply (explains : call.Explains tx staking moves) (account : Address)
    (amount : Nat) : .apply account amount ∈ moves ↔ call.Applies tx account amount := by
  cases call with
  | applyToBeValidator own =>
    rw [show moves = [.apply tx.sender own] from explains,mem_singleton,Move.apply.injEq]
    exact and_congr eq_comm eq_comm
  | applyToBeValidatorWithPermit validator own deadline v r s =>
    rw [show moves = [.apply validator own] from explains,mem_singleton,Move.apply.injEq]
    exact and_congr eq_comm eq_comm
  | slash | slashSeverity => exact iff_of_false (slashMoves_apply explains) id
  | distributeSlashPool =>
    refine iff_of_false ?_ id
    intro inside
    obtain ⟨_,_,reward⟩ := explains _ inside
    cases reward
  | claimSlashPoolShare =>
    obtain ⟨stake,rfl⟩ := explains
    exact iff_of_false (by simp) id
  | _ =>
    rw [show moves = _ from explains]
    exact iff_of_false (by simp) id

theorem deposited_later (deposited : Deposited evm self start events account amount) {last : Tx × Call}
    (fails : FailsToApply evm self account (run (next evm self) start events) last) :
    Deposited evm self start (events ++ [last]) account amount := by
  obtain ⟨before,event,after,final,logs,rfl,applies,done,paid,none⟩ := deposited
  refine ⟨before,event,after ++ [last],final,logs,by simp,applies,done,paid,?_⟩
  rw [run_append,run_cons,next_of_ok done] at fails
  exact (along_append _ _ _).mpr ⟨none,fails,trivial⟩

theorem pending_deposited (outside : (start.staking.entry account).state ≠ .pending)
    (waiting : ((run (next evm self) start events).staking.entry account).state = .pending) :
    Deposited evm self start events account ((run (next evm self) start events).staking.entry account).stake := by
  induction events using List.reverseRecOn with
  | nil => exact absurd waiting outside
  | append_singleton events last ih =>
    rw [run_append,run_cons,run_nil] at waiting ⊢
    rcases perform_cases evm self (run (next evm self) start events) last with ⟨final,logs,done⟩ | ⟨fails,same⟩
    · rw [next_of_ok done] at waiting ⊢
      obtain ⟨moves,explains,refines⟩ := call_refines done
      have deposit := Roster.pendingDeposit_run refines.allowed account
      rw [← refines.roster] at deposit
      rcases deposit waiting with applied | ⟨before,stake,none⟩
      · have applies := (explains_apply explains _ _).mp applied
        exact ⟨events,last,[],final,logs,rfl,applies,done,applies_pays applies done,trivial⟩
      · have same : (final.staking.entry account).stake =
            ((run (next evm self) start events).staking.entry account).stake := stake
        rw [same]
        apply deposited_later (ih before)
        intro other applies
        exact absurd ((explains_apply explains _ _).mpr applies) (none other)
    · rw [next,same] at waiting ⊢
      exact deposited_later (ih waiting) fun _ _ => fails

private theorem split_before_last {α : Type} {events before after : List α} {last next : α}
    (split : events ++ [last] = before ++ next :: after) :
    ∃ rest, events = before ++ rest ∧ ∀ event ∈ rest, event ∈ next :: after := by
  have nonempty : next :: after ≠ [] := cons_ne_nil _ _
  rw [← dropLast_append_getLast nonempty,← append_assoc] at split
  exact ⟨_,(append_inj' split rfl).1,fun event inside => mem_of_mem_dropLast inside⟩

/-- Stake leaves after the whole unbonding period; a closed application pays back its deposit. -/
theorem stake_leaves_late_and_exact {accounts : Accounts} {created : List Log}
    (deployed : World.deploy evm accounts = .ok (start,created)) (events : List (Tx × Call)) (tx : Tx) (call : Call)
    (chronological : Chronological (events ++ [(tx,call)]))
    (ok : (run (next evm accounts.staking) start events).call evm accounts.staking tx call = .ok (final,logs))
    (account : Address) (amount : Nat) (paid : .transfer accounts.staking account amount ∈ logs) :
    (call = .withdrawValidatorStake → ∀ time, tx.timestamp < time + Staking.unbondingPeriod → time ≤ tx.timestamp →
        ¬ActiveAt evm accounts.staking start (events ++ [(tx,call)]) account time) ∧
      (∀ validator, call = .rejectValidator validator ∨ call = .expireApplication validator →
        Deposited evm accounts.staking start events account amount) := by
  constructor
  · rintro rfl time recent - ⟨before,next,after,split,-,bound,active⟩
    obtain ⟨leaving,elapsed⟩ := withdrawValidatorStake_ok ok paid
    obtain ⟨rest,rfl,inside⟩ := split_before_last split
    rw [run_append] at leaving elapsed
    have outside : ((run (World.next evm accounts.staking) start before).staking.entry account).state ≠ .unbonding := by
      rw [active]
      decide
    -- the unbonding began with a transaction after that state
    obtain ⟨event,later,began⟩ := unbondingAt_of_run outside leaving
    rw [Chronological,split] at chronological
    have ordered := (pairwise_append.mp chronological).2.1
    have after_time : next.1.timestamp ≤ event.1.timestamp := by
      rcases mem_cons.mp (inside event later) with rfl | further
      · exact le_rfl
      · exact (pairwise_cons.mp ordered).1 event further
    omega
  · intro validator closes
    obtain ⟨waiting,rfl⟩ := closing_pays closes ok paid
    apply pending_deposited _ waiting
    rw [deploy_staking deployed,entry_deploy]
    decide

end World

namespace Small
def leaving : List (Tx × Call) := joining 10 100 ++ [(tx 10 1000 0,.initiateUnbonding)]

def withdrawal : Tx × Call := (tx 10 1210600 0,.withdrawValidatorStake)

theorem withdrawn_after_period :
    ∃ final logs, (run (World.next evm 2) start leaving).call evm 2 withdrawal.1 withdrawal.2 = .ok (final,logs) ∧
      .transfer 2 10 (100 * 10 ^ 18) ∈ logs ∧ ¬ActiveAt evm 2 start (leaving ++ [withdrawal]) 10 1001 := by
  obtain ⟨created,deployed⟩ := deployed
  have succeeds : ((run (World.next evm 2) start leaving).call evm 2 withdrawal.1 withdrawal.2).isOk := by
    decide +kernel
  have logged : ((run (World.next evm 2) start leaving).perform evm 2 withdrawal).2 =
      [.transfer 2 10 (100 * 10 ^ 18),.validatorWithdrawn 10 (100 * 10 ^ 18),.validatorLeft 10] := by
    decide +kernel
  obtain ⟨⟨final,logs⟩,ok⟩ := isOk_iff.mp succeeds
  rw [World.perform_of_ok ok] at logged
  have paid : .transfer 2 10 (100 * 10 ^ 18) ∈ logs := by
    rw [show logs = _ from logged]
    exact mem_cons_self
  have chronological : Chronological (leaving ++ [withdrawal]) := by
    simp [Chronological,leaving,joining,withdrawal,tx]
  have late := World.stake_leaves_late_and_exact deployed leaving _ _ chronological ok 10 _ paid
  refine ⟨final,logs,ok,paid,late.1 rfl 1001 ?_ ?_⟩
  · decide +kernel
  · decide +kernel

end Small
end ChainRegistry
