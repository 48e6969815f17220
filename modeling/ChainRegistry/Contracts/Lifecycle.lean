import ChainRegistry.Contracts.Staking
import ChainRegistry.Lib.Runs

/-! The life of validators as a machine of its own: what a call of the staking contract may
do to the entries, one entry at a time. The calls are runs of this machine; what holds of
every run is proved here, without the code. -/
namespace ChainRegistry
open Lib Runs List

structure Roster where
  entry : Address → ValidatorEntry
  listed : List Address

inductive Move
  | apply (validator : Address) (amount : Nat)
  | activate (validator : Address)
  | reject (validator : Address)
  | expire (validator : Address)
  | unbond (validator : Address)
  | withdraw (validator : Address)
  | cut (account : Address) (stake slashCount : Nat)
  | eject (account : Address) (stake slashCount : Nat)
  | wipe (account : Address)
  | reward (validator : Address) (stake : Nat)

namespace Move
def target : Move → Address
  | apply a _ | activate a | reject a | expire a | unbond a | withdraw a | cut a _ _ | eject a _ _ | wipe a | reward a _ => a

def Allowed (now : Nat) (before : ValidatorEntry) : Move → Prop
  | apply _ _ => before.state ≠ .pending ∧ before.state ≠ .active
  | activate _ | reject _ | expire _ => before.state = .pending
  | withdraw _ => before.state = .unbonding ∧ before.unbondingAt + Staking.unbondingPeriod ≤ now
  | unbond _ | cut _ _ _ | eject _ _ _ | reward _ _ => before.state = .active
  | wipe _ => True

def entry (now : Nat) (before : ValidatorEntry) : Move → ValidatorEntry
  | apply _ amount => ⟨amount,.pending,0,0,0,now⟩
  | activate _ => {before with state := .active}
  | reject _ => {before with stake := 0, state := .rejected}
  | expire _ => {before with stake := 0, state := .expired}
  | unbond _ => {before with state := .unbonding, unbondingAt := now}
  | withdraw _ => {before with stake := 0, state := .withdrawn}
  | cut _ stake slashCount => {before with stake := stake, slashCount := slashCount}
  | eject _ stake slashCount =>
    {before with stake := stake, slashCount := slashCount, state := .unbonding, unbondingAt := now, ejectedAt := now}
  | wipe _ => {before with stake := 0, state := .withdrawn, ejectedAt := now}
  | reward _ stake => {before with stake := stake}

def joins : Move → List Address
  | apply a _ => [a]
  | _ => []

/-- What is announced of the membership: who joins the active set and who leaves it. A
wiped account is not announced. -/
def membership : Move → List (Address × Bool)
  | activate a => [(a,true)]
  | unbond a | eject a _ _ => [(a,false)]
  | withdraw a => [(a,false),(a,false)]
  | _ => []

end Move

namespace Roster
def step (now : Nat) (roster : Roster) (move : Move) : Roster where
  entry := Function.update roster.entry move.target (move.entry now (roster.entry move.target))
  listed := roster.listed ++ move.joins

def Allowed (now : Nat) (roster : Roster) (move : Move) : Prop := move.Allowed now (roster.entry move.target)

def stateOf (roster : Roster) (a : Address) : ValidatorState := (roster.entry a).state

variable {now : Nat} {roster : Roster} {move : Move} {moves : List Move}

theorem entry_step (move : Move) (a : Address) :
    (roster.step now move).entry a = if a = move.target then move.entry now (roster.entry a) else roster.entry a := by
  change Function.update _ _ _ a = _
  rw [Function.update_apply]
  split_ifs with same
  · rw [same]
  · rfl

def Listed (roster : Roster) : Prop :=
  ∀ a, roster.stateOf a = .pending ∨ roster.stateOf a = .active → a ∈ roster.listed

theorem Listed.step (listed : roster.Listed) (allowed : roster.Allowed now move) : (roster.step now move).Listed := by
  intro a standing
  have kept : a ∈ roster.listed → a ∈ (roster.step now move).listed := fun inside => mem_append_left _ inside
  rw [stateOf,entry_step] at standing
  split_ifs at standing with same
  · subst same
    cases move with
    | apply a amount => exact mem_append_right _ (mem_singleton.mpr rfl)
    | activate a => exact kept (listed a (.inl allowed))
    | cut a stake slashCount | reward a stake => exact kept (listed a (.inr allowed))
    | _ => simp [Move.entry] at standing
  · exact kept (listed a standing)

def UnbondingSince (now : Nat) (before after : Roster) (a : Address) : Prop :=
  after.stateOf a = .unbonding → (after.entry a).unbondingAt = now ∨
    before.stateOf a = .unbonding ∧ (after.entry a).unbondingAt = (before.entry a).unbondingAt

theorem unbondingSince_step (allowed : roster.Allowed now move) (a : Address) :
    UnbondingSince now roster (roster.step now move) a := by
  intro leaving
  rw [stateOf,entry_step] at leaving
  rw [entry_step]
  split_ifs at leaving ⊢ with same
  · subst same
    cases move with
    | unbond | eject => exact .inl rfl
    | cut | reward => exact .inr ⟨leaving,rfl⟩
    | _ => simp [Move.entry] at leaving
  · exact .inr ⟨leaving,rfl⟩

theorem unbondingSince_run (along : Along (step now) (Allowed now) roster moves) (a : Address) :
    UnbondingSince now roster (run (step now) roster moves) a := by
  induction moves generalizing roster with
  | nil => exact fun leaving => .inr ⟨leaving,rfl⟩
  | cons move moves ih =>
    intro leaving
    rcases ih along.2 leaving with fresh | ⟨middle,same⟩
    · exact .inl fresh
    · rw [run_cons,same]
      exact unbondingSince_step along.1 a middle

def PendingDeposit (moves : List Move) (before after : Roster) (a : Address) : Prop :=
  after.stateOf a = .pending → .apply a (after.entry a).stake ∈ moves ∨
    before.stateOf a = .pending ∧ (after.entry a).stake = (before.entry a).stake ∧ ∀ amount, .apply a amount ∉ moves

theorem pendingDeposit_step (allowed : roster.Allowed now move) (a : Address) :
    PendingDeposit [move] roster (roster.step now move) a := by
  intro waiting
  rw [stateOf,entry_step] at waiting
  rw [entry_step]
  split_ifs at waiting ⊢ with same
  · subst same
    cases move with
    | apply a amount => exact .inl (mem_singleton.mpr rfl)
    | cut a stake slashCount | reward a stake =>
      have active : (roster.entry a).state = .active := allowed
      exact absurd (active.symm.trans waiting) (by decide)
    | _ => simp [Move.entry] at waiting
  · refine .inr ⟨waiting,rfl,?_⟩
    intro amount only
    rw [← mem_singleton.mp only] at same
    exact same rfl

theorem pendingDeposit_run (along : Along (step now) (Allowed now) roster moves) (a : Address) :
    PendingDeposit moves roster (run (step now) roster moves) a := by
  induction moves generalizing roster with
  | nil => exact fun waiting => .inr ⟨waiting,rfl,fun _ => not_mem_nil⟩
  | cons move moves ih =>
    intro waiting
    rcases ih along.2 waiting with later | ⟨middle,same,none⟩
    · exact .inl (mem_cons_of_mem _ later)
    · rw [run_cons,same]
      rcases pendingDeposit_step along.1 a middle with first | ⟨before,stake,other⟩
      · exact .inl (mem_cons.mpr (.inl (mem_singleton.mp first)))
      · refine .inr ⟨before,stake,?_⟩
        intro amount inside
        rcases mem_cons.mp inside with rfl | later
        · exact other amount (mem_singleton.mpr rfl)
        · exact none amount later

variable (members : Address → Prop)

def announced (news : List (Address × Bool)) : Address → Prop :=
  news.foldl (fun members item => Function.update members item.1 (item.2 = true)) members

def activeIn (roster : Roster) (a : Address) : Prop := roster.stateOf a = .active

def Announces (roster : Roster) : Move → Prop
  | .wipe a => ¬roster.activeIn a
  | _ => True

theorem activeIn_step (allowed : roster.Allowed now move) (announces : roster.Announces move) :
    (roster.step now move).activeIn = announced roster.activeIn move.membership := by
  funext a
  unfold activeIn stateOf
  rw [entry_step]
  split_ifs with same
  · subst same
    cases move with
    | apply a amount =>
      have out : (roster.entry a).state ≠ .active := allowed.2
      simp [Move.entry,Move.target,announced,Move.membership,out]
    | activate | unbond | withdraw | eject => simp [Move.entry,Move.target,announced,Move.membership]
    | reject a | expire a =>
      have waiting : (roster.entry a).state = .pending := allowed
      simp [Move.entry,Move.target,announced,Move.membership,waiting]
    | cut | reward => rfl
    | wipe a =>
      have out : (roster.entry a).state ≠ .active := announces
      simp [Move.entry,Move.target,announced,Move.membership,out]
  · cases move with
    | activate b | unbond b | eject b _ _ | withdraw b =>
      have apart : a ≠ b := same
      simp [announced,Move.membership,apart]
    | _ => rfl

theorem announced_append (first second : List (Address × Bool)) :
    announced members (first ++ second) = announced (announced members first) second :=
  foldl_append

theorem activeIn_run (along : Along (step now) (Allowed now) roster moves) (announces : Along (step now) Announces roster moves) :
    (run (step now) roster moves).activeIn = announced roster.activeIn (moves.flatMap Move.membership) := by
  induction moves generalizing roster with
  | nil => rfl
  | cons move moves ih =>
    rw [run_cons,ih along.2 announces.2,activeIn_step along.1 announces.1,flatMap_cons,announced_append]

end Roster
end ChainRegistry
