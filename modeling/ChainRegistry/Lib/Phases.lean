import ChainRegistry.Lib.Runs
import Mathlib.Data.Finset.Card

/-! A collector of votes in two phases. A vote counts only in its phase and nothing is kept for
later, so the outcome depends on the order of the ballots. The collector votes itself: in the first
phase when it is opened, in the second when another's vote completes the first. -/
namespace ChainRegistry.Lib.Phases
open Runs List Option Finset

inductive Phase
  | preparing | committing | decided
  deriving DecidableEq

inductive Ballot (ι : Type*)
  | opening
  | prepare (voter : ι)
  | commit (voter : ι)
  deriving DecidableEq

structure Tally (ι : Type*) where
  phase : Phase
  (prepared committed : Finset ι)

variable {ι : Type*} [DecidableEq ι] (quorum : Nat) (own : Finset ι)

namespace Tally
def opened : Tally ι where
  phase := if quorum ≤ own.card then .committing else .preparing
  prepared := own
  committed := ∅

def enterPrepare (tally : Tally ι) (voter : ι) : Tally ι :=
  if tally.phase = .preparing then
    if quorum ≤ (insert voter tally.prepared).card then ⟨.committing,insert voter tally.prepared,own⟩
    else {tally with prepared := insert voter tally.prepared}
  else tally

def enterCommit (tally : Tally ι) (voter : ι) : Tally ι :=
  if tally.phase = .committing then
    { tally with
      phase := if quorum ≤ (insert voter tally.committed).card then .decided else .committing
      committed := insert voter tally.committed }
  else tally

def step (tally : Tally ι) : Ballot ι → Tally ι
  | .opening => opened quorum own
  | .prepare voter => tally.enterPrepare quorum own voter
  | .commit voter => tally.enterCommit quorum voter

end Tally

def step : Option (Tally ι) → Ballot ι → Option (Tally ι)
  | none, .opening => some (.opened quorum own)
  | none, _ => none
  | some tally, ballot => some (tally.step quorum own ballot)

def preparer : Ballot ι → Option ι
  | .prepare voter => some voter
  | _ => none

def committer : Ballot ι → Option ι
  | .commit voter => some voter
  | _ => none

variable (ballots : List (Ballot ι))

def preparers : Finset ι := (ballots.filterMap preparer).toFinset

def committers : Finset ι := (ballots.filterMap committer).toFinset

def ownCommit : Finset ι := if quorum ≤ own.card then ∅ else own

def InOrder : Prop :=
  ∃ before prepares commits, ballots = before ++ .opening :: (prepares ++ commits) ∧ .opening ∉ prepares ++ commits ∧
    quorum ≤ (own ∪ preparers prepares).card ∧ quorum ≤ (ownCommit quorum own ∪ committers commits).card

section
variable (voter : ι) (ballots more : List (Ballot ι))

@[simp] theorem committers_nil : committers ([] : List (Ballot ι)) = ∅ := rfl

@[simp] theorem preparers_nil : preparers ([] : List (Ballot ι)) = ∅ := rfl

@[simp] theorem preparers_prepare : preparers (.prepare voter :: ballots) = insert voter (preparers ballots) := by
  simp [preparers,preparer]

@[simp] theorem committers_prepare : committers (.prepare voter :: ballots) = committers ballots := rfl

@[simp] theorem committers_commit : committers (.commit voter :: ballots) = insert voter (committers ballots) := by
  simp [committers,committer]

theorem committers_append : committers (ballots ++ more) = committers ballots ∪ committers more := by
  simp [committers]

end

variable {quorum own} {tally : Tally ι}

theorem run_decided (decided : tally.phase = .decided) {ballots : List (Ballot ι)} (unopened : .opening ∉ ballots) :
    run (Tally.step quorum own) tally ballots = tally := by
  induction ballots with
  | nil => rfl
  | cons ballot ballots ih =>
    rw [List.mem_cons,not_or] at unopened
    have same : tally.step quorum own ballot = tally := by
      cases ballot with
      | opening => exact absurd rfl unopened.1
      | prepare voter => simp [Tally.step,Tally.enterPrepare,decided]
      | commit voter => simp [Tally.step,Tally.enterCommit,decided]
    rw [run_cons,same]
    exact ih unopened.2

theorem committing_decided_iff (committing : tally.phase = .committing) (short : tally.committed.card < quorum)
    {ballots : List (Ballot ι)} (unopened : .opening ∉ ballots) :
    (run (Tally.step quorum own) tally ballots).phase = .decided ↔
      quorum ≤ (tally.committed ∪ committers ballots).card := by
  induction ballots generalizing tally with
  | nil => simpa [committing] using short
  | cons ballot ballots ih =>
    rw [List.mem_cons,not_or] at unopened
    rw [run_cons]
    cases ballot with
    | opening => exact absurd rfl unopened.1
    | prepare voter =>
      have same : tally.step quorum own (.prepare voter) = tally := by
        simp [Tally.step,Tally.enterPrepare,committing]
      rw [same,committers_prepare]
      exact ih committing short unopened.2
    | commit voter =>
      have union : tally.committed ∪ committers (.commit voter :: ballots) =
          insert voter tally.committed ∪ committers ballots := by
        rw [committers_commit,union_insert,insert_union]
      rw [union]
      by_cases enough : quorum ≤ (insert voter tally.committed).card
      · have decided : (tally.step quorum own (.commit voter)).phase = .decided := by
          simp [Tally.step,Tally.enterCommit,committing,enough]
        rw [run_decided decided unopened.2]
        exact iff_of_true decided (enough.trans (card_le_card subset_union_left))
      · have entered : tally.step quorum own (.commit voter) =
            {tally with committed := insert voter tally.committed} := by
          simp [Tally.step,Tally.enterCommit,committing,enough]
        rw [entered]
        exact ih committing (not_le.mp enough) unopened.2

def Tally.Sound (quorum : Nat) (own : Finset ι) (tally : Tally ι) : Prop :=
  tally.phase = .preparing → tally.committed = ∅ ∧ own ⊆ tally.prepared ∧ tally.prepared.card < quorum

omit [DecidableEq ι] in
theorem Tally.Sound.opened : (Tally.opened quorum own).Sound quorum own := by
  intro preparing
  by_cases alone : quorum ≤ own.card
  · simp [Tally.opened,alone] at preparing
  · exact ⟨rfl,Finset.Subset.refl _,not_le.mp alone⟩

theorem Tally.Sound.step (sound : tally.Sound quorum own) (ballot : Ballot ι) :
    (tally.step quorum own ballot).Sound quorum own := by
  cases ballot with
  | opening => exact .opened
  | prepare voter =>
    simp only [Tally.step,Tally.enterPrepare]
    split_ifs with preparing enough
    · exact fun later => absurd later (by simp)
    · obtain ⟨empty,within,_⟩ := sound preparing
      exact fun _ => ⟨empty,within.trans (Finset.subset_insert _ _),not_le.mp enough⟩
    · exact sound
  | commit voter =>
    simp only [Tally.step,Tally.enterCommit]
    split_ifs with committing enough
    · exact fun preparing => absurd preparing (by simp)
    · exact fun preparing => absurd preparing (by simp)
    · exact sound

def Split (quorum : Nat) (own voters : Finset ι) (ballots : List (Ballot ι)) : Prop :=
  ∃ prepares commits, ballots = prepares ++ commits ∧ quorum ≤ (voters ∪ preparers prepares).card ∧
    quorum ≤ (own ∪ committers commits).card

theorem split_of_enough {voters : Finset ι} (enough : quorum ≤ voters.card) (ballots : List (Ballot ι)) :
    Split quorum own voters ballots ↔ quorum ≤ (own ∪ committers ballots).card := by
  constructor
  · intro ⟨prepares,commits,whole,_,second⟩
    refine second.trans (card_le_card (union_subset_union_right ?_))
    rw [whole,committers_append]
    exact subset_union_right
  · intro second
    refine ⟨[],ballots,rfl,?_,second⟩
    rwa [preparers_nil,union_empty]

theorem split_cons {voters : Finset ι} (short : voters.card < quorum) (ballot : Ballot ι) (ballots : List (Ballot ι)) :
    Split quorum own voters (ballot :: ballots) ↔
      ∃ prepares commits, ballots = prepares ++ commits ∧ quorum ≤ (voters ∪ preparers (ballot :: prepares)).card ∧
        quorum ≤ (own ∪ committers commits).card := by
  constructor
  · intro ⟨prepares,commits,whole,first,second⟩
    cases prepares with
    | nil =>
      rw [preparers_nil,union_empty] at first
      omega
    | cons head prepares =>
      obtain ⟨rfl,rest⟩ := List.cons.inj whole
      exact ⟨prepares,commits,rest,first,second⟩
  · intro ⟨prepares,commits,whole,first,second⟩
    exact ⟨ballot :: prepares,commits,by rw [whole,cons_append],first,second⟩

theorem preparing_decided_iff (preparing : tally.phase = .preparing) (short : tally.prepared.card < quorum)
    (alone : own.card < quorum) {ballots : List (Ballot ι)} (unopened : .opening ∉ ballots) :
    (run (Tally.step quorum own) tally ballots).phase = .decided ↔ Split quorum own tally.prepared ballots := by
  induction ballots generalizing tally with
  | nil =>
    simp only [run_nil,preparing,reduceCtorEq,false_iff]
    intro ⟨prepares,commits,whole,first,_⟩
    rw [(append_eq_nil_iff.mp whole.symm).1,preparers_nil,union_empty] at first
    omega
  | cons ballot ballots ih =>
    rw [List.mem_cons,not_or] at unopened
    rw [run_cons,split_cons short]
    cases ballot with
    | opening => exact absurd rfl unopened.1
    | commit voter =>
      -- lost: the round is not in its second phase
      have same : tally.step quorum own (.commit voter) = tally := by
        simp [Tally.step,Tally.enterCommit,preparing]
      rw [same]
      exact ih preparing short unopened.2
    | prepare voter =>
      have union : ∀ prepares, tally.prepared ∪ preparers (.prepare voter :: prepares) =
          insert voter tally.prepared ∪ preparers prepares := by
        intro prepares
        rw [preparers_prepare,union_insert,insert_union]
      simp only [union]
      by_cases enough : quorum ≤ (insert voter tally.prepared).card
      · have entered : tally.step quorum own (.prepare voter) = ⟨.committing,insert voter tally.prepared,own⟩ := by
          simp [Tally.step,Tally.enterPrepare,preparing,enough]
        rw [entered,committing_decided_iff rfl alone unopened.2]
        exact (split_of_enough enough ballots).symm
      · have entered : tally.step quorum own (.prepare voter) =
            {tally with prepared := insert voter tally.prepared} := by
          simp [Tally.step,Tally.enterPrepare,preparing,enough]
        rw [entered]
        exact ih preparing (not_le.mp enough) unopened.2

theorem opened_decided_iff (positive : 0 < quorum) {ballots : List (Ballot ι)} (unopened : .opening ∉ ballots) :
    (run (Tally.step quorum own) (.opened quorum own) ballots).phase = .decided ↔
      Split quorum (ownCommit quorum own) own ballots := by
  unfold ownCommit
  by_cases alone : quorum ≤ own.card
  · rw [if_pos alone,committing_decided_iff (by simp [Tally.opened,alone]) (by simpa [Tally.opened] using positive) unopened]
    exact (split_of_enough alone ballots).symm
  · rw [if_neg alone]
    exact preparing_decided_iff (by simp [Tally.opened,alone]) (not_le.mp alone) (not_le.mp alone) unopened

theorem run_some (tally : Tally ι) (ballots : List (Ballot ι)) :
    run (step quorum own) (some tally) ballots = some (run (Tally.step quorum own) tally ballots) := by
  induction ballots generalizing tally with
  | nil => rfl
  | cons ballot ballots ih => exact ih _

theorem run_opening (state : Option (Tally ι)) (before ballots : List (Ballot ι)) :
    run (step quorum own) state (before ++ .opening :: ballots) =
      some (run (Tally.step quorum own) (.opened quorum own) ballots) := by
  rw [run_append,run_cons,← run_some]
  congr 1
  cases run (step quorum own) state before <;> rfl

theorem run_unopened {ballots : List (Ballot ι)} (unopened : .opening ∉ ballots) : run (step quorum own) none ballots = none := by
  induction ballots with
  | nil => rfl
  | cons ballot ballots ih =>
    rw [List.mem_cons,not_or] at unopened
    cases ballot with
    | opening => exact absurd rfl unopened.1
    | prepare voter => exact ih unopened.2
    | commit voter => exact ih unopened.2

omit [DecidableEq ι] in
theorem last_opening {ballots : List (Ballot ι)} (opening : .opening ∈ ballots) :
    ∃ before after, ballots = before ++ .opening :: after ∧ .opening ∉ after := by
  obtain ⟨after,before,split,fresh⟩ := eq_append_cons_of_mem (mem_reverse.mpr opening)
  refine ⟨before.reverse,after.reverse,?_,by simpa using fresh⟩
  rw [← reverse_inj,split]
  simp

theorem decided_iff {ballots : List (Ballot ι)} (positive : .opening ∈ ballots → 0 < quorum) :
    (run (step quorum own) none ballots).map Tally.phase = some .decided ↔ InOrder quorum own ballots := by
  constructor
  · intro decided
    by_cases opening : .opening ∈ ballots
    · obtain ⟨before,after,rfl,unopened⟩ := last_opening opening
      rw [run_opening,map_some,Option.some.injEq,opened_decided_iff (positive opening) unopened] at decided
      obtain ⟨prepares,commits,rfl,quorums⟩ := decided
      exact ⟨before,prepares,commits,rfl,unopened,quorums⟩
    · rw [run_unopened opening] at decided
      cases decided
  · intro ⟨before,prepares,commits,whole,unopened,quorums⟩
    have opening : .opening ∈ ballots := by simp [whole]
    rw [whole,run_opening,map_some,opened_decided_iff (positive opening) unopened |>.mpr ⟨prepares,commits,rfl,quorums⟩]

end ChainRegistry.Lib.Phases
