import ChainRegistry.Common.IdealCrates
import ChainRegistry.Consensus.ValidatorSet

/-! The ranking of the proposers and the choice of the first: `rank_proposers`, `proposer_rank` and
`select_proposer_deterministic` of `vrf.rs`. The ranking breaks ties by id, the choice by the place
in the list. -/
namespace ChainRegistry
open Lib List Ideal

namespace Vrf
variable {scores : List (String × String)} {rest : List (String × String)} {first : String × String}
  {best : String × String}

theorem lowestScore_mem (found : lowestScore scores = some best) : best ∈ scores := by
  cases scores with
  | nil => simp [lowestScore] at found
  | cons first rest =>
    simp only [lowestScore,Option.some.injEq] at found
    subst found
    induction rest generalizing first with
    | nil => simp
    | cons next rest ih =>
      rw [foldl_cons]
      have inside := ih (if next.2 < first.2 then next else first)
      simp only [mem_cons] at inside ⊢
      split_ifs at inside ⊢ <;> tauto

theorem lowestScore_le (found : lowestScore scores = some best) : ∀ other ∈ scores, best.2 ≤ other.2 := by
  cases scores with
  | nil => simp
  | cons first rest =>
    simp only [lowestScore,Option.some.injEq] at found
    subst found
    induction rest generalizing first with
    | nil => simp
    | cons next rest ih =>
      rw [foldl_cons]
      intro other inside
      have below := ih (if next.2 < first.2 then next else first)
      have head := below _ mem_cons_self
      obtain rfl | rfl | later := by simpa only [mem_cons] using inside
      · split_ifs at head ⊢ with less
        · exact String.le_trans head (String.not_lt.mp (String.lt_asymm less))
        · exact head
      · split_ifs at head ⊢ with less
        · exact head
        · exact String.le_trans head (String.not_lt.mp less)
      · exact below other (mem_cons_of_mem _ later)

theorem lowestScore_first (least : ∀ other ∈ rest, first.2 ≤ other.2) : lowestScore (first :: rest) = some first := by
  rw [lowestScore,Option.some.injEq]
  induction rest with
  | nil => rfl
  | cons next rest ih =>
    rw [foldl_cons,if_neg (String.not_lt.mpr (least next mem_cons_self))]
    exact ih fun other inside => least other (mem_cons_of_mem _ inside)

theorem lowestScore_isSome {score : String × String} (inside : score ∈ scores) : ∃ best, lowestScore scores = some best := by
  cases scores with
  | nil => cases inside
  | cons first rest => exact ⟨_,rfl⟩

def Before (a b : String × String) : Prop := a.2 < b.2 ∨ a.2 = b.2 ∧ a.1 ≤ b.1

instance decidableBefore (a b : String × String) : Decidable (Before a b) := inferInstanceAs (Decidable (_ ∨ _))

instance before_total : Std.Total Before := by
  constructor
  intro a b
  by_cases less : a.2 < b.2
  · exact .inl (.inl less)
  by_cases greater : b.2 < a.2
  · exact .inr (.inl greater)
  have same : a.2 = b.2 := String.le_antisymm (String.not_lt.mp greater) (String.not_lt.mp less)
  rcases String.le_total a.1 b.1 with first | second
  · exact .inl (.inr ⟨same,first⟩)
  · exact .inr (.inr ⟨same.symm,second⟩)

instance before_trans : IsTrans (String × String) Before := by
  constructor
  rintro a b c (less | ⟨same,first⟩) (less' | ⟨same',first'⟩)
  · exact .inl (String.lt_trans less less')
  · exact .inl (same' ▸ less)
  · exact .inl (same ▸ less')
  · exact .inr ⟨same.trans same',String.le_trans first first'⟩

theorem before_antisymm {a b : String × String} (first : Before a b) (second : Before b a) : a = b := by
  rcases first with less | ⟨same,first⟩
  · rcases second with less' | ⟨same',_⟩
    · exact absurd less' (String.lt_asymm less)
    · exact absurd (same' ▸ less) (String.lt_irrefl _)
  · rcases second with less' | ⟨_,second⟩
    · exact absurd (same ▸ less') (String.lt_irrefl _)
    · exact Prod.ext (String.le_antisymm first second) same

variable (crates : Crates)

def proposerRank (validators : List VrfValidator) (epochSeed validatorId : String) : Option Nat :=
  (rankProposers crates validators epochSeed).findIdx? fun id => id = validatorId

def ranking (validators : List VrfValidator) (epochSeed : String) : List (String × String) :=
  (validators.map (scored crates epochSeed)).insertionSort Before

variable {crates} {validators other : List VrfValidator} {seed : String}

theorem rankProposers_eq : rankProposers crates validators seed = (ranking crates validators seed).map Prod.fst := rfl

theorem rankProposers_perm : (rankProposers crates validators seed).Perm (validators.map VrfValidator.id) := by
  have sorted := (perm_insertionSort Before (validators.map (scored crates seed))).map Prod.fst
  rwa [map_map] at sorted

theorem rankProposers_congr (perm : other.Perm validators) :
    rankProposers crates other seed = rankProposers crates validators seed := by
  rw [rankProposers_eq,rankProposers_eq]
  congr 1
  apply List.Perm.eq_of_pairwise (fun _ _ _ _ => before_antisymm) (pairwise_insertionSort Before _)
    (pairwise_insertionSort Before _)
  exact (perm_insertionSort _ _).trans ((perm.map _).trans (perm_insertionSort _ _).symm)

theorem proposerRank_iff (distinct : (validators.map VrfValidator.id).Nodup) (id : String) (rank : Nat) :
    proposerRank crates validators seed id = some rank ↔ (rankProposers crates validators seed)[rank]? = some id := by
  have once : (rankProposers crates validators seed).Nodup := rankProposers_perm.nodup_iff.mpr distinct
  rw [proposerRank,List.findIdx?_eq_some_iff_getElem,List.getElem?_eq_some_iff]
  simp only [decide_eq_true_eq]
  constructor
  · rintro ⟨bound,found,_⟩
    exact ⟨bound,found⟩
  · rintro ⟨bound,found⟩
    refine ⟨bound,found,?_⟩
    intro earlier before same
    exact absurd (once.getElem_inj_iff.mp (same.trans found.symm)) before.ne

def Lowest (crates : Crates) (seed : String) (validators : List VrfValidator) (v : VrfValidator) : Prop :=
  ∀ other ∈ validators, (scored crates seed v).2 ≤ (scored crates seed other).2

instance decidableLowest (v : VrfValidator) : Decidable (Lowest crates seed validators v) :=
  inferInstanceAs (Decidable (∀ other ∈ validators, _))

def LowestOnce (crates : Crates) (seed : String) (validators : List VrfValidator) : Prop :=
  ∀ u ∈ validators, ∀ v ∈ validators, Lowest crates seed validators u → Lowest crates seed validators v → u.id = v.id

theorem ranking_head (ranked : ranking crates validators seed = first :: rest) :
    ∃ v ∈ validators, scored crates seed v = first ∧ Lowest crates seed validators v := by
  have sorted : (first :: rest).Pairwise Before := ranked ▸ pairwise_insertionSort Before _
  have members (score : String × String) : score ∈ first :: rest ↔ score ∈ validators.map (scored crates seed) :=
    ranked ▸ (perm_insertionSort Before _).mem_iff
  obtain ⟨v,inside,rfl⟩ := mem_map.mp ((members first).mp mem_cons_self)
  refine ⟨v,inside,rfl,?_⟩
  intro other listed
  rcases mem_cons.mp ((members _).mpr (mem_map_of_mem listed)) with same | later
  · simp only [same,String.le_refl]
  · rcases rel_of_pairwise_cons sorted later with less | ⟨same,_⟩
    · exact String.not_lt.mp (String.lt_asymm less)
    · simp only [same,String.le_refl]

theorem selected_lowest {id : String} (selected : selectProposerDeterministic crates validators seed = some id) :
    ∃ v ∈ validators, v.id = id ∧ Lowest crates seed validators v := by
  obtain ⟨best,found,rfl⟩ := Option.map_eq_some_iff.mp selected
  obtain ⟨v,inside,rfl⟩ := mem_map.mp (lowestScore_mem found)
  refine ⟨v,inside,rfl,?_⟩
  intro other listed
  exact lowestScore_le found _ (mem_map_of_mem listed)

theorem selected_in_front {v : VrfValidator} (inside : v ∈ validators) (lowest : Lowest crates seed validators v) :
    ∃ order : List VrfValidator, order.Perm validators ∧ selectProposerDeterministic crates order seed = some v.id := by
  refine ⟨v :: validators.erase v,(perm_cons_erase inside).symm,?_⟩
  rw [selectProposerDeterministic,map_cons,lowestScore_first]
  · rfl
  · intro score listed
    obtain ⟨other,later,rfl⟩ := mem_map.mp listed
    exact lowest other (mem_of_mem_erase later)

structure CanonicalRanking (crates : Crates) (validators : List VrfValidator) (seed : String) : Prop where
  lists : (rankProposers crates validators seed).Perm (validators.map VrfValidator.id)
  unordered : ∀ other : List VrfValidator, other.Perm validators →
    rankProposers crates other seed = rankProposers crates validators seed
  primary : ∀ other : List VrfValidator, other.Perm validators →
    selectProposerDeterministic crates other seed = (rankProposers crates validators seed).head?
  ranks : ∀ id rank, proposerRank crates validators seed id = some rank ↔
    (rankProposers crates validators seed)[rank]? = some id

theorem primary_of_lowestOnce (once : LowestOnce crates seed validators) (perm : other.Perm validators) :
    selectProposerDeterministic crates other seed = (rankProposers crates validators seed).head? := by
  rw [rankProposers_eq]
  cases ranked : ranking crates validators seed with
  | nil =>
    have none : validators = [] := by
      have same := perm_insertionSort Before (validators.map (scored crates seed))
      rw [ranking.eq_def] at ranked
      rw [ranked] at same
      exact map_eq_nil_iff.mp same.nil_eq.symm
    rw [none,perm_nil] at perm
    rw [perm]
    rfl
  | cons first rest =>
    obtain ⟨v,inside,scores,lowest⟩ := ranking_head ranked
    obtain ⟨best,found⟩ := lowestScore_isSome (mem_map_of_mem (perm.mem_iff.mpr inside))
    have selected : selectProposerDeterministic crates other seed = some best.1 := by
      rw [selectProposerDeterministic,found]
      rfl
    obtain ⟨winner,listed,named,lowest'⟩ := selected_lowest selected
    have same := once winner (perm.mem_iff.mp listed) v inside (fun w member => lowest' w (perm.mem_iff.mpr member)) lowest
    rw [selected,← named,same,← scores]
    rfl

/-- The ranking is canonical, with the choice of a round at its head, exactly if the lowest
score is that of one validator only. -/
theorem canonical_ranking_iff (crates : Crates) (validators : List VrfValidator) (seed : String)
    (distinct : (validators.map VrfValidator.id).Nodup) :
    CanonicalRanking crates validators seed ↔ LowestOnce crates seed validators := by
  constructor
  · intro canonical u listed v listed' lowest lowest'
    obtain ⟨order,perm,selected⟩ := selected_in_front listed lowest
    obtain ⟨order',perm',selected'⟩ := selected_in_front listed' lowest'
    have same := (canonical.primary order perm).trans (canonical.primary order' perm').symm
    rw [selected,selected'] at same
    exact Option.some.inj same
  · intro once
    exact ⟨rankProposers_perm,fun _ => rankProposers_congr,fun _ => primary_of_lowestOnce once,proposerRank_iff distinct⟩

theorem two_ranked : CanonicalRanking (Ideal.crates [] checksum) [⟨"b","02",none,none⟩,⟨"a","01",none,none⟩] "s" := by
  apply (canonical_ranking_iff _ _ _ (by decide)).mpr
  unfold LowestOnce
  decide +kernel

/-- Two validators with one key: the one that is listed first is selected, the other one ranks first. -/
theorem shared_key_selected_apart :
    selectProposerDeterministic (Ideal.crates [] checksum) [⟨"b","01",none,none⟩,⟨"a","01",none,none⟩] "s" = some "b" ∧
    rankProposers (Ideal.crates [] checksum) [⟨"b","01",none,none⟩,⟨"a","01",none,none⟩] "s" = ["a","b"] ∧
    ¬CanonicalRanking (Ideal.crates [] checksum) [⟨"b","01",none,none⟩,⟨"a","01",none,none⟩] "s" := by
  refine ⟨by decide +kernel,by decide +kernel,?_⟩
  intro canonical
  exact absurd (canonical.primary _ (List.Perm.refl _)) (by decide +kernel)

end Vrf
end ChainRegistry
