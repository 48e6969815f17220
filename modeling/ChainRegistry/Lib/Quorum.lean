import Mathlib.Data.Finset.Card

/-! Byzantine quorums over a finite membership. A quorum has more than two thirds
of the members, so that any two of them share more members than may be faulty. -/
namespace ChainRegistry.Lib.Quorum
open Finset

variable {α : Type*} [DecidableEq α]

theorem overlap_card {members first second : Finset α} (nonempty : 0 < members.card)
    (left : first ⊆ members) (right : second ⊆ members) (leftQuorum : 2 * members.card / 3 + 1 ≤ first.card)
    (rightQuorum : 2 * members.card / 3 + 1 ≤ second.card) :
    (members.card - 1) / 3 + 1 ≤ (first ∩ second).card := by
  have joined : (first ∪ second).card ≤ members.card :=
    card_le_card (union_subset left right)
  have counted := card_union_add_card_inter first second
  omega

theorem honest_overlap {members first second faulty : Finset α} (nonempty : 0 < members.card)
    (left : first ⊆ members) (right : second ⊆ members) (leftQuorum : 2 * members.card / 3 + 1 ≤ first.card)
    (rightQuorum : 2 * members.card / 3 + 1 ≤ second.card) (bounded : faulty.card ≤ (members.card - 1) / 3) :
    ∃ member ∈ first, member ∈ second ∧ member ∉ faulty := by
  have overlap := overlap_card nonempty left right leftQuorum rightQuorum
  have remains : ((first ∩ second) \ faulty).Nonempty := by
    apply card_pos.mp
    have removed := le_card_sdiff faulty (first ∩ second)
    omega
  obtain ⟨member,inside⟩ := remains
  rw [mem_sdiff,mem_inter] at inside
  exact ⟨member,inside.1.1,inside.1.2,inside.2⟩

theorem against_quorum {members inFavour against : Finset α} {count quorum : Nat} (bounded : members.card ≤ count)
    (left : inFavour ⊆ members) (right : against ⊆ members) (apart : Disjoint inFavour against)
    (blocked : count - against.card < quorum) : inFavour.card < quorum := by
  have both := card_le_card (union_subset left right)
  rw [card_union_of_disjoint apart] at both
  omega

end ChainRegistry.Lib.Quorum
