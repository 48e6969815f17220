import ChainRegistry.Lib.Fallible
import Mathlib.Algebra.BigOperators.Group.List.Basic
import Mathlib.Algebra.Order.Group.Nat
import Mathlib.Algebra.Ring.Nat

/-! Payments to receivers that may refuse them, and that may act on the payer before they return: by
the acts that are open while the payer waits, and by money sent in other ways. -/
namespace ChainRegistry.Lib.Payouts
open List

structure Reply (A : Type) where
  accepts : Bool := true
  acts : List A := []
  sends : Nat := 0

structure Till (σ A R : Type) where
  state : σ
  funds : Nat
  replies : List (Reply A)
  paid : List (R × Nat) := []

namespace Till
variable {σ A R : Type}

def total (till : Till σ A R) : Nat := (till.paid.map Prod.snd).sum

def reply (till : Till σ A R) : Reply A := till.replies.headD {}

def Willing (till : Till σ A R) : Prop := ∀ reply ∈ till.replies, reply.accepts

variable (act : σ → A → σ)

def pay (receiver : R) (amount : Nat) (till : Till σ A R) : Option (Till σ A R) :=
  if amount ≤ till.funds ∧ till.reply.accepts = true then
    some ⟨till.reply.acts.foldl act till.state,till.funds - amount + till.reply.sends,till.replies.tail,
      till.paid ++ [(receiver,amount)]⟩
  else none

structure Spends (amount : Nat) (before after : Till σ A R) : Prop where
  acts : ∃ acts : List A, after.state = acts.foldl act before.state
  total : after.total = before.total + amount
  funds : before.funds ≤ after.funds + amount
  replies : after.replies ⊆ before.replies

variable {act} {till middle after : Till σ A R} {amount more : Nat}

theorem Spends.refl (till : Till σ A R) : Spends act 0 till till := ⟨⟨[],rfl⟩,rfl,le_rfl,List.Subset.refl _⟩

theorem Spends.trans (first : Spends act amount till middle) (second : Spends act more middle after) :
    Spends act (amount + more) till after where
  acts := by
    obtain ⟨early,reached⟩ := first.acts
    obtain ⟨late,ended⟩ := second.acts
    refine ⟨early ++ late,?_⟩
    rw [ended,reached,foldl_append]
  total := by rw [second.total,first.total,Nat.add_assoc]
  funds := by
    have head := first.funds
    have rest := second.funds
    omega
  replies := List.Subset.trans second.replies first.replies

theorem Spends.willing (spends : Spends act amount till after) (willing : till.Willing) : after.Willing :=
  fun reply inside => willing reply (spends.replies inside)

theorem Spends.keeps {holds : σ → Prop} (each : ∀ state a, holds state → holds (act state a))
    (spends : Spends act amount till after) (initially : holds till.state) : holds after.state := by
  obtain ⟨acts,ended⟩ := spends.acts
  rw [ended]
  clear ended
  generalize till.state = state at initially
  induction acts generalizing state with
  | nil => exact initially
  | cons a acts ih => exact ih _ (each state a initially)

theorem pay_spends {receiver : R} (paid : till.pay act receiver amount = some after) : Spends act amount till after := by
  rw [pay] at paid
  split_ifs at paid with able
  cases paid
  refine ⟨⟨_,rfl⟩,?_,?_,fun _ => mem_of_mem_tail⟩
  · simp [total]
  · have enough := able.1
    dsimp only
    omega

theorem pay_willing (receiver : R) (willing : till.Willing) (enough : amount ≤ till.funds) :
    ∃ after, till.pay act receiver amount = some after := by
  have accepts : till.reply.accepts := by
    rw [reply]
    cases given : till.replies with
    | nil => rfl
    | cons first rest =>
      apply willing
      rw [given]
      exact mem_cons_self
  rw [pay,if_pos ⟨enough,accepts⟩]
  exact ⟨_,rfl⟩

end Till
end ChainRegistry.Lib.Payouts
