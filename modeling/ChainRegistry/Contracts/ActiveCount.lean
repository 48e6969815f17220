import ChainRegistry.Contracts.ConsensusAdmission
import Mathlib.Algebra.Order.BigOperators.Group.Finset

/-! The number of active validators. It is counted over the list of all applications, in which
an account that applied again stands again. -/
namespace ChainRegistry
open Lib Runs List Finset Move

variable {moves : List Move}

namespace Roster
def Single (roster : Roster) : Prop := ∀ a, roster.stateOf a = .active → roster.listed.count a = 1

variable {now : Nat} {roster : Roster}

theorem Single.step (single : roster.Single) {move : Move} (allowed : roster.Allowed now move)
    (once : ∀ a, move = .activate a → roster.listed.count a = 1) : (roster.step now move).Single := by
  intro a active
  change List.count a (roster.listed ++ move.joins) = 1
  rw [stateOf,entry_step] at active
  rw [count_append]
  split_ifs at active with same
  · subst same
    cases move with
    | activate a => simp [joins,target,once a rfl]
    | cut | reward => simp [joins,single _ active]
    | _ => simp [Move.entry] at active
  · -- the entry is another's, and so is the place in the list
    have elsewhere : move.joins.count a = 0 := by
      cases move with
      | apply b amount =>
        apply count_eq_zero.mpr
        intro inside
        exact same (List.mem_singleton.mp inside)
      | _ => rfl
    rw [elsewhere,single a active]

theorem Single.run (single : roster.Single) (along : Along (Roster.step now) (Allowed now) roster moves)
    (quiet : ∀ a, .activate a ∉ moves) : (run (Roster.step now) roster moves).Single := by
  induction moves generalizing roster with
  | nil => exact single
  | cons move moves ih =>
    refine ih (single.step along.1 ?_) along.2 fun a inside => quiet a (List.mem_cons_of_mem _ inside)
    rintro a rfl
    exact absurd List.mem_cons_self (quiet a)

theorem active_run {a : Address} (along : Along (Roster.step now) (Allowed now) roster moves) (quiet : .activate a ∉ moves)
    (active : (run (Roster.step now) roster moves).stateOf a = .active) : roster.stateOf a = .active := by
  induction moves generalizing roster with
  | nil => exact active
  | cons move moves ih =>
    have after := ih along.2 (fun inside => quiet (List.mem_cons_of_mem _ inside)) active
    rw [stateOf,entry_step] at after
    split_ifs at after with same
    · subst same
      cases move with
      | activate a => exact absurd List.mem_cons_self quiet
      | cut | reward => exact along.1
      | _ => simp [Move.entry] at after
    · exact after

theorem single_activate_iff (single : roster.Single) {a : Address} (waiting : roster.stateOf a = .pending) :
    (roster.step now (.activate a)).Single ↔ roster.listed.count a = 1 := by
  constructor
  · intro after
    have active : (roster.step now (.activate a)).stateOf a = .active := by
      have own : a = (activate a).target := rfl
      rw [stateOf,entry_step,if_pos own]
      rfl
    have once := after a active
    change List.count a (roster.listed ++ []) = 1 at once
    rw [append_nil] at once
    exact once
  · intro once
    have allowed : roster.Allowed now (.activate a) := waiting
    apply single.step allowed
    intro b same
    cases same
    exact once

end Roster

def Call.Admits (account : Address) : Call → Prop
  | .approveValidator validator => validator = account
  | .approveByConsensus applicant _ _ _ => applicant = account
  | _ => False

theorem admits_unique {call : Call} {a b : Address} (first : call.Admits a) (second : call.Admits b) : a = b := by
  cases call with
  | approveValidator | approveByConsensus => exact first.symm.trans second
  | _ => exact first.elim

namespace World
variable {evm : Evm} {self : Address} {tx : Tx} {world : World} {staking : Staking}

theorem slashMoves_activate {account : Address} {amount : Nat}
    (shape : staking.SlashMoves account amount moves) (a : Address) : .activate a ∉ moves := by
  intro inside
  rcases shape.mem inside with ⟨_,_,cut | eject⟩ | wipe
  · cases cut
  · cases eject
  · cases wipe

theorem explains_activate {call : Call} (explains : call.Explains tx staking moves) :
    (∃ a, call.Admits a ∧ moves = [.activate a]) ∨ (∀ a, ¬call.Admits a) ∧ ∀ a, .activate a ∉ moves := by
  cases call with
  | approveValidator validator => exact .inl ⟨validator,rfl,explains⟩
  | approveByConsensus applicant nonce signers sigs => exact .inl ⟨applicant,rfl,explains⟩
  | slash | slashSeverity => exact .inr ⟨fun _ => id,slashMoves_activate explains⟩
  | distributeSlashPool =>
    refine .inr ⟨fun _ => id,?_⟩
    intro a inside
    obtain ⟨_,_,reward⟩ := explains _ inside
    cases reward
  | claimSlashPoolShare =>
    obtain ⟨stake,rfl⟩ := explains
    exact .inr ⟨fun _ => id,by simp⟩
  | _ =>
    rw [show moves = _ from explains]
    exact .inr ⟨fun _ => id,by simp⟩

/-- Nobody becomes an active validator but by an application and its approval, and governance
approves only while it may. -/
theorem activated_by_approval (world : World) (events : List (Tx × Call)) : Along (next evm self) (fun world event => ∀ a,
    world.staking.roster.stateOf a ≠ .active → (world.next evm self event).staking.roster.stateOf a = .active →
      world.staking.roster.stateOf a = .pending ∧ event.2.Admits a ∧ (event.2 = .approveValidator a →
        event.1.sender = world.staking.governance ∧ world.staking.emergencyGovernanceEnabled)) world events := by
  apply along_of_splits
  intro earlier event _ _ a before after
  generalize run (next evm self) world earlier = world at before after ⊢
  rcases perform_cases evm self world event with ⟨final,logs,done⟩ | ⟨-,same⟩
  · obtain ⟨moves,explains,refines⟩ := call_refines done
    rw [next_of_ok done,refines.roster] at after
    rcases explains_activate explains with ⟨b,admits,rfl⟩ | ⟨_,quiet⟩
    · by_cases own : b = a
      · subst own
        refine ⟨refines.allowed.1,admits,?_⟩
        intro approves
        simp only [approves,World.call,approveValidator,Fallible.bind_ok,require_and] at done
        exact ⟨done.2.1,done.1⟩
      · exact absurd (Roster.active_run refines.allowed (by simpa using Ne.symm own) after) before
    · exact absurd (Roster.active_run refines.allowed (quiet a) after) before
  · rw [next,same] at after
    exact absurd after before

theorem activeValidatorCount_eq (listed : staking.roster.Listed) :
    staking.activeValidatorCount = ∑ a ∈ staking.activeAccounts, staking.validatorList.count a := by
  have scanned : (staking.validatorList.toFinset.filter fun a => (staking.entry a).state = .active) =
      staking.activeAccounts := by
    ext a
    rw [Finset.mem_filter,mem_toFinset,staking.mem_activeAccounts,and_iff_right_iff_imp]
    intro active
    exact listed a (.inr active)
  rw [← scanned,sum_filter_count_eq_countP]
  rfl

theorem count_exact_iff (listed : staking.roster.Listed) :
    staking.activeValidatorCount = staking.activeAccounts.card ↔ staking.roster.Single := by
  have present : ∀ a ∈ staking.activeAccounts, 1 ≤ staking.validatorList.count a := by
    intro a active
    exact one_le_count_iff.mpr (listed a (.inr ((staking.mem_activeAccounts a).mp active)))
  rw [activeValidatorCount_eq listed,card_eq_sum_ones,eq_comm,sum_eq_sum_iff_of_le present]
  constructor
  · intro all a active
    exact (all a ((staking.mem_activeAccounts a).mpr active)).symm
  · intro single a active
    exact (single a ((staking.mem_activeAccounts a).mp active)).symm

def AdmittedOnce (evm : Evm) (self : Address) (world : World) (event : Tx × Call) : Prop :=
  ∀ a, event.2.Admits a → (world.call evm self event.1 event.2).isOk → world.staking.validatorList.count a = 1

theorem single_next_iff (world : World) (event : Tx × Call) (single : world.staking.roster.Single) :
    (world.next evm self event).staking.roster.Single ↔ AdmittedOnce evm self world event := by
  rcases perform_cases evm self world event with ⟨final,logs,done⟩ | ⟨fails,same⟩
  · obtain ⟨moves,explains,refines⟩ := call_refines done
    have succeeds : (world.call evm self event.1 event.2).isOk := Fallible.isOk_iff.mpr ⟨_,done⟩
    rw [next_of_ok done,refines.roster]
    rcases explains_activate explains with ⟨a,admits,rfl⟩ | ⟨nobody,quiet⟩
    · have waiting : world.staking.roster.stateOf a = .pending := refines.allowed.1
      rw [run_cons,run_nil,Roster.single_activate_iff single waiting]
      constructor
      · intro once b also _
        rw [← admits_unique admits also]
        exact once
      · intro once
        exact once a admits succeeds
    · refine iff_of_true (single.run refines.allowed quiet) ?_
      intro a admits
      exact absurd admits (nobody a)
  · rw [next,same]
    refine iff_of_true single ?_
    intro a _ succeeds
    obtain ⟨result,done⟩ := Fallible.isOk_iff.mp succeeds
    exact absurd done (fails result)

variable {accounts : Accounts}

theorem single_deploy {start : World} {logs : List Log}
    (deployed : World.deploy evm accounts = .ok (start,logs)) : start.staking.roster.Single := by
  intro account active
  have blank : start.staking.entry account = .blank := by
    rw [deploy_staking deployed,entry_deploy]
  cases (congrArg ValidatorEntry.state blank).symm.trans active

/-- The count is that of the active accounts exactly if whoever is admitted has applied once only. -/
theorem active_count_exact_iff {start : World} {logs : List Log}
    (deployed : World.deploy evm accounts = .ok (start,logs)) (events : List (Tx × Call)) :
    Throughout (next evm accounts.staking) (fun world =>
        world.staking.activeValidatorCount = world.staking.activeAccounts.card ∧
          countActive world.staking = world.staking.activeAccounts.card) start events ↔
      Along (next evm accounts.staking) (AdmittedOnce evm accounts.staking) start events := by
  have exact : ∀ world : World, world.staking.roster.Listed →
      (world.staking.activeValidatorCount = world.staking.activeAccounts.card ∧
        countActive world.staking = world.staking.activeAccounts.card ↔ world.staking.roster.Single) := by
    intro world listed
    have both : countActive world.staking = world.staking.activeValidatorCount := rfl
    rw [both,and_self,count_exact_iff listed]
  rw [throughout_congr listed_next exact start events (listed_deploy deployed)]
  exact throughout_iff_along single_next_iff start events (single_deploy deployed)

end World

namespace Small
def unbonding : Tx × Call := (tx 10 150 0,.initiateUnbonding)

theorem two_validators_counted : Throughout (World.next evm 2) (fun world =>
    world.staking.activeValidatorCount = world.staking.activeAccounts.card ∧
      World.countActive world.staking = world.staking.activeAccounts.card) start (joining 10 100 ++ joining 11 200) := by
  obtain ⟨logs,deployed⟩ := deployed
  refine (World.active_count_exact_iff deployed _).mpr ⟨nofun,nofun,?_,nofun,nofun,?_,trivial⟩
  all_goals
    rintro _ rfl _
    decide +kernel

theorem readmitted_counts_twice : (∃ logs, World.deploy evm accounts = .ok (start,logs)) ∧
    let world := run (World.next evm 2) start (joining 10 100 ++ unbonding :: joining 10 200)
    world.staking.activeValidatorCount = 2 ∧ World.countActive world.staking = 2 ∧ world.staking.activeAccounts = {10} := by
  refine ⟨deployed,?_⟩
  decide +kernel

end Small
end ChainRegistry
