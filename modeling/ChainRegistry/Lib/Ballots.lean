import ChainRegistry.Lib.Table
import Mathlib.Data.List.MinMax
import Mathlib.Order.Nat

/-! Counting ballots in groups. Each voter counts once: the first eligible ballot of a
voter is the one that is looked at, and it counts for its group if it is valid. -/
namespace ChainRegistry.Lib.Ballots
open List Option

variable {α κ γ : Type*} [DecidableEq κ] [DecidableEq γ]

structure Count (κ γ : Type*) where
  seen : List κ
  groups : Table γ Nat

variable (voter : α → κ) (eligible valid : α → Bool) (group : α → γ)

def count (state : Count κ γ) (ballot : α) : Count κ γ :=
  if eligible ballot = false ∨ voter ballot ∈ state.seen then state
  else
    { seen := voter ballot :: state.seen
      groups :=
        if valid ballot then state.groups.insert (group ballot) ((state.groups.lookup (group ballot)).getD 0 + 1)
        else state.groups }

def largest (state : Count κ γ) : Nat := state.groups.values.foldr max 0

def keepFirst (kept : List α) (ballot : α) : List α :=
  if eligible ballot = false ∨ voter ballot ∈ kept.map voter then kept else kept ++ [ballot]

def firsts (ballots : List α) : List α := ballots.foldl (keepFirst voter eligible) []

structure Counts (kept : List α) (state : Count κ γ) : Prop where
  seen : ∀ k, k ∈ state.seen ↔ k ∈ kept.map voter
  groups : ∀ g, (state.groups.lookup g).getD 0 = kept.countP fun ballot => valid ballot && group ballot = g

variable {voter eligible valid group} (ballots : List α)

theorem Counts.step {kept : List α} {state : Count κ γ} (counts : Counts voter valid group kept state) (ballot : α) :
    Counts voter valid group (keepFirst voter eligible kept ballot)
      (count voter eligible valid group state ballot) := by
  unfold keepFirst count
  simp only [counts.seen]
  split_ifs with skipped good
  · exact counts
  · refine ⟨fun k => ?_,fun g => ?_⟩
    · rw [List.mem_cons,counts.seen,List.map_append,List.mem_append,or_comm]
      simp
    · rw [Table.lookup_insert_eq,List.countP_append]
      by_cases same : g = group ballot
      · simp [same,good,counts.groups]
      · simp [same,Ne.symm same,counts.groups]
  · refine ⟨fun k => ?_,fun g => ?_⟩
    · rw [List.mem_cons,counts.seen,List.map_append,List.mem_append,or_comm]
      simp
    · rw [List.countP_append,counts.groups]
      simp [good]

theorem counts_firsts : Counts voter valid group (firsts voter eligible ballots)
    (ballots.foldl (count voter eligible valid group) ⟨[],∅⟩) := by
  have fold : ∀ (ballots kept : List α) (state : Count κ γ), Counts voter valid group kept state →
      Counts voter valid group (ballots.foldl (keepFirst voter eligible) kept)
        (ballots.foldl (count voter eligible valid group) state) := by
    intro ballots
    induction ballots with
    | nil => exact fun _ _ counts => counts
    | cons ballot ballots ih => exact fun kept state counts => ih _ _ (counts.step ballot)
  exact fold ballots [] _ ⟨by simp,by simp⟩

omit [DecidableEq κ] in
theorem largest_iff (state : Count κ γ) {quorum : Nat} (positive : 0 < quorum) :
    quorum ≤ largest state ↔ ∃ g, quorum ≤ (state.groups.lookup g).getD 0 := by
  constructor
  · intro reached
    by_contra none
    rw [not_exists] at none
    have below : largest state ≤ quorum - 1 := by
      apply max_le_of_forall_le
      intro size inside
      obtain ⟨g,found⟩ := (Table.mem_values_iff _ _).mp inside
      have short := none g
      rw [found,getD_some] at short
      omega
    omega
  · intro ⟨g,enough⟩
    cases found : state.groups.lookup g with
    | none =>
      rw [found,getD_none] at enough
      omega
    | some size =>
      rw [found,getD_some] at enough
      exact le_max_of_le ((Table.mem_values_iff _ _).mpr ⟨g,found⟩) enough

theorem quorum_iff {quorum : Nat} (positive : 0 < quorum) :
    quorum ≤ largest (ballots.foldl (count voter eligible valid group) ⟨[],∅⟩) ↔
      ∃ g, quorum ≤ (firsts voter eligible ballots).countP fun ballot => valid ballot && group ballot = g := by
  rw [largest_iff _ positive]
  simp only [(counts_firsts ballots).groups]

theorem firsts_snoc (ballot : α) :
    firsts voter eligible (ballots ++ [ballot]) = keepFirst voter eligible (firsts voter eligible ballots) ballot := by
  simp [firsts]

variable (voter eligible) in
theorem firsts_spec (ballots : List α) : (firsts voter eligible ballots).Sublist ballots ∧
    (∀ ballot ∈ firsts voter eligible ballots, eligible ballot) ∧
    ((firsts voter eligible ballots).map voter).Nodup := by
  induction ballots using List.reverseRecOn with
  | nil => exact ⟨List.Sublist.refl _,by simp [firsts],by simp [firsts]⟩
  | append_singleton ballots ballot ih =>
    obtain ⟨sublist,good,distinct⟩ := ih
    rw [firsts_snoc,keepFirst]
    by_cases skipped : eligible ballot = false ∨ voter ballot ∈ (firsts voter eligible ballots).map voter
    · rw [if_pos skipped]
      exact ⟨sublist.trans (List.sublist_append_left _ _),good,distinct⟩
    · rw [if_neg skipped]
      rw [not_or] at skipped
      refine ⟨sublist.append (List.Sublist.refl _),?_,?_⟩
      · intro other inside
        rcases List.mem_append.mp inside with old | new
        · exact good other old
        · rw [List.mem_singleton.mp new]
          exact Bool.not_eq_false _ ▸ skipped.1
      · rw [List.map_append,List.nodup_append]
        refine ⟨distinct,by simp,?_⟩
        intro k old last new same
        rw [List.map_singleton,List.mem_singleton] at new
        exact skipped.2 (new ▸ same ▸ old)

theorem firsts_eq {ballots : List α} (good : ∀ ballot ∈ ballots, eligible ballot)
    (distinct : (ballots.map voter).Nodup) : firsts voter eligible ballots = ballots := by
  induction ballots using List.reverseRecOn with
  | nil => rfl
  | append_singleton ballots ballot ih =>
    rw [map_append,nodup_append] at distinct
    have kept := ih (fun other inside => good other (by simp [inside])) distinct.1
    have fresh : voter ballot ∉ ballots.map voter := by
      intro old
      exact distinct.2.2 _ old (voter ballot) (by simp) rfl
    rw [firsts_snoc,kept,keepFirst,if_neg]
    simp [good ballot,fresh]

variable (voter eligible) in
def first (ballots : List α) (k : κ) : Option α := ballots.find? fun ballot => eligible ballot && voter ballot = k

theorem first_spec {ballots : List α} {k : κ} {ballot : α} (found : first voter eligible ballots k = some ballot) :
    ballot ∈ ballots ∧ eligible ballot ∧ voter ballot = k := by
  have holds := List.find?_some found
  rw [Bool.and_eq_true,decide_eq_true_eq] at holds
  exact ⟨List.mem_of_find?_eq_some found,holds⟩

theorem first_snoc (ballot : α) (k : κ) : first voter eligible (ballots ++ [ballot]) k =
    (first voter eligible ballots k).or (if eligible ballot = true ∧ voter ballot = k then some ballot else none) := by
  simp [first,List.find?_append,List.find?_singleton]

theorem mem_firsts (ballot : α) :
    ballot ∈ firsts voter eligible ballots ↔ first voter eligible ballots (voter ballot) = some ballot := by
  induction ballots using List.reverseRecOn generalizing ballot with
  | nil => simp [firsts,first]
  | append_singleton ballots last ih =>
    rw [firsts_snoc,keepFirst,first_snoc]
    by_cases skipped : eligible last = false ∨ voter last ∈ (firsts voter eligible ballots).map voter
    · rw [if_pos skipped,ih]
      rcases skipped with ineligible | heard
      · simp [ineligible]
      · obtain ⟨other,kept,same⟩ := List.mem_map.mp heard
        by_cases mine : voter last = voter ballot
        · rw [← mine,← same,(ih other).mp kept,Option.some_or]
        · simp [mine]
    · rw [if_neg skipped,List.mem_append,List.mem_singleton,ih]
      rw [not_or,Bool.not_eq_false] at skipped
      cases found : first voter eligible ballots (voter ballot) with
      | none =>
        simp only [reduceCtorEq,false_or,Option.none_or,skipped.1,true_and,Option.ite_none_right_eq_some,
          Option.some.injEq]
        exact ⟨fun same => ⟨congrArg voter same.symm,same.symm⟩,fun same => same.2.symm⟩
      | some other =>
        obtain ⟨_,_,same⟩ := first_spec found
        have kept := (ih other).mpr (by rw [same,found])
        have apart : ballot ≠ last := by
          rintro rfl
          exact skipped.2 (same ▸ List.mem_map_of_mem kept)
        simp [apart]

variable (voter eligible) in
def backers (holds : α → Bool) (ballots : List α) : Finset κ :=
  (ballots.map voter).toFinset.filter fun k => (first voter eligible ballots k).any holds = true

theorem backers_mono {holds : α → Bool} {ballots others : List α}
    (kept : ∀ k, (first voter eligible ballots k).any holds → (first voter eligible others k).any holds) :
    backers voter eligible holds ballots ⊆ backers voter eligible holds others := by
  intro k inside
  have counted := kept k (Finset.mem_filter.mp inside).2
  obtain ⟨ballot,found,_⟩ := (Option.any_eq_true _ _).mp counted
  obtain ⟨among,_,rfl⟩ := first_spec found
  exact Finset.mem_filter.mpr ⟨List.mem_toFinset.mpr (mem_map_of_mem among),counted⟩

theorem countP_firsts (holds : α → Bool) (ballots : List α) :
    (firsts voter eligible ballots).countP holds = (backers voter eligible holds ballots).card := by
  have distinct := (firsts_spec voter eligible ballots).2.2.sublist (filter_sublist (p := holds) |>.map voter)
  rw [countP_eq_length_filter,← length_map voter,← toFinset_card_of_nodup distinct]
  congr 1
  ext k
  simp only [backers,List.mem_toFinset,List.mem_map,mem_filter,Finset.mem_filter,Option.any_eq_true]
  constructor
  · rintro ⟨ballot,⟨kept,good⟩,rfl⟩
    have found := (mem_firsts ballots ballot).mp kept
    exact ⟨⟨ballot,(first_spec found).1,rfl⟩,ballot,found,good⟩
  · rintro ⟨_,ballot,found,good⟩
    obtain ⟨_,_,rfl⟩ := first_spec found
    exact ⟨ballot,⟨(mem_firsts ballots ballot).mpr found,good⟩,rfl⟩

end ChainRegistry.Lib.Ballots
