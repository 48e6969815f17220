import ChainRegistry.Common.IdealCrates
import ChainRegistry.Consensus.EvidenceVotes
import ChainRegistry.Lib.Quorum

/-! What `aggregate_evidence_votes` decides: the first group of approvals under one scanner profile
to reach the quorum, or that none can any more. With one vote for each of at most `assigned_count`
voters everyone decides the same. -/
namespace ChainRegistry
open Lib List Finset

variable {crates : Crates} {votes : List ValidatorSignature} {quorum : Nat}

def Approves (crates : Crates) (key : String) (sig : ValidatorSignature) : Prop :=
  sig.vote = .approve ∧ consensusProfileKey crates sig = some key

instance (crates : Crates) (key : String) (sig : ValidatorSignature) : Decidable (Approves crates key sig) :=
  inferInstanceAs (Decidable (_ ∧ _))

def Rejects (crates : Crates) (sig : ValidatorSignature) : Prop :=
  sig.vote ≠ .approve ∧ (consensusProfileKey crates sig).isSome

instance (crates : Crates) (sig : ValidatorSignature) : Decidable (Rejects crates sig) :=
  inferInstanceAs (Decidable (_ ∧ _))

theorem approves_other {key other : String} {sig : ValidatorSignature} (profile : consensusProfileKey crates sig = some key)
    (apart : other ≠ key) : ¬Approves crates other sig := by
  intro approves
  rw [Approves,profile] at approves
  exact apart (Option.some.inj approves.2).symm

structure Tallied (crates : Crates) (done : List ValidatorSignature) (approvals : Table String (List ValidatorSignature))
    (rejections : List String) : Prop where
  groups : ∀ key, (approvals.lookup key).getD [] = done.filter (Approves crates key)
  rejected : rejections.length = done.countP (Rejects crates)

namespace Tallied
variable {done : List ValidatorSignature} {approvals : Table String (List ValidatorSignature)} {rejections : List String}
  {sig : ValidatorSignature} {key : String}

section
variable (tallied : Tallied crates done approvals rejections)
include tallied

theorem skip (profile : consensusProfileKey crates sig = none) : Tallied crates (done ++ [sig]) approvals rejections := by
  constructor
  · intro key
    simp [tallied.groups key,Approves,profile]
  · simp [tallied.rejected,Rejects,profile]

theorem approve (profile : consensusProfileKey crates sig = some key) (vote : sig.vote = .approve) :
    Tallied crates (done ++ [sig]) (approvals.insert key ((approvals.lookup key).getD [] ++ [sig])) rejections := by
  constructor
  · intro other
    rw [Table.lookup_insert_eq,filter_append]
    split_ifs with same
    · have mine : Approves crates key sig := ⟨vote,profile⟩
      simp [tallied.groups key,same,mine]
    · simp [tallied.groups other,approves_other profile same]
  · simp [tallied.rejected,Rejects,vote]

theorem reject {reason : String} (profile : consensusProfileKey crates sig = some key) (vote : sig.vote = .reject reason) :
    Tallied crates (done ++ [sig]) approvals (rejections ++ [reason]) := by
  constructor
  · intro other
    simp [tallied.groups other,Approves,vote]
  · simp [tallied.rejected,Rejects,vote,profile]

end

end Tallied

def FirstToReach (crates : Crates) (quorum : Nat) (votes : List ValidatorSignature) (key : String) : Prop :=
  ∃ n, quorum ≤ (votes.take n).countP (Approves crates key) ∧
    ∀ other, other ≠ key → (votes.take n).countP (Approves crates other) < quorum

theorem FirstToReach.enough {key : String} (first : FirstToReach crates quorum votes key) :
    quorum ≤ votes.countP (Approves crates key) := by
  obtain ⟨n,reached,_⟩ := first
  exact reached.trans ((take_sublist n votes).countP_le)

theorem FirstToReach.unique {key other : String} (first : FirstToReach crates quorum votes key)
    (second : FirstToReach crates quorum votes other) : key = other := by
  obtain ⟨n,reached,alone⟩ := first
  obtain ⟨m,also,single⟩ := second
  by_contra apart
  rcases Nat.le_total n m with le | le
  · exact absurd (reached.trans (take_sublist_take_left le).countP_le) (not_le.mpr (single key apart))
  · exact absurd (also.trans (take_sublist_take_left le).countP_le) (not_le.mpr (alone other (Ne.symm apart)))

theorem tally_spec (done rest : List ValidatorSignature) (approvals : Table String (List ValidatorSignature))
    (rejections : List String) (tallied : Tallied crates done approvals rejections)
    (short : ∀ key, done.countP (Approves crates key) < quorum) :
    (∃ key, FirstToReach crates quorum (done ++ rest) key ∧
      tally crates quorum rest approvals rejections = .inl (((done ++ rest).filter (Approves crates key)).take quorum)) ∨
    (∃ reasons, tally crates quorum rest approvals rejections = .inr reasons ∧
      reasons.length = (done ++ rest).countP (Rejects crates) ∧
      ∀ key, (done ++ rest).countP (Approves crates key) < quorum) := by
  induction rest generalizing done approvals rejections with
  | nil =>
    right
    rw [append_nil]
    exact ⟨rejections,rfl,tallied.rejected,short⟩
  | cons sig rest ih =>
    have split : done ++ sig :: rest = done ++ [sig] ++ rest := by simp
    rw [split]
    unfold tally
    cases profile : consensusProfileKey crates sig with
    | none =>
      apply ih _ _ _ (tallied.skip profile)
      intro key
      simpa [Approves,profile] using short key
    | some key =>
      cases vote : sig.vote with
      | reject reason =>
        apply ih _ _ _ (tallied.reject profile vote)
        intro key
        simpa [Approves,vote] using short key
      | approve =>
        have counted := tallied.approve profile vote
        have group := counted.groups key
        rw [Table.lookup_insert_eq,if_pos rfl,Option.getD_some] at group
        have others : ∀ other, other ≠ key → (done ++ [sig]).countP (Approves crates other) < quorum := by
          intro other apart
          simpa [approves_other profile apart] using short other
        have one : (done ++ [sig]).countP (Approves crates key) = done.countP (Approves crates key) + 1 := by
          simp [Approves,vote,profile]
        dsimp only
        rw [group,← countP_eq_length_filter]
        split_ifs with enough
        · left
          have size : ((done ++ [sig]).filter (Approves crates key)).length = quorum := by
            rw [← countP_eq_length_filter]
            have := short key
            omega
          refine ⟨key,⟨(done ++ [sig]).length,?_,?_⟩,?_⟩
          · rwa [take_left]
          · rwa [take_left]
          · rw [filter_append (done ++ [sig]) rest,take_left' size]
        · apply ih _ _ _ (group ▸ counted)
          intro other
          by_cases same : other = key
          · rw [same]
            omega
          · exact others other same

theorem aggregate_cases (crates : Crates) (signatures : List ValidatorSignature) (count : Nat)
    (same : tally crates (count * 2 / 3 + 1) (uniqueVotes signatures) ∅ [] = tally crates (count * 2 / 3 + 1) votes ∅ []) :
    (∃ key, FirstToReach crates (count * 2 / 3 + 1) votes key ∧ aggregateEvidenceVotes crates signatures count =
      some (.verified ((votes.filter (Approves crates key)).take (count * 2 / 3 + 1)))) ∨
    ((∀ key, votes.countP (Approves crates key) < count * 2 / 3 + 1) ∧
      ∃ reason, aggregateEvidenceVotes crates signatures count =
        if count - votes.countP (Rejects crates) < count * 2 / 3 + 1 then some (.rejected reason) else none) := by
  unfold aggregateEvidenceVotes
  dsimp only
  rw [same]
  rcases tally_spec [] votes ∅ [] ⟨fun _ => rfl,rfl⟩ fun _ => Nat.succ_pos (count * 2 / 3) with
    ⟨key,first,reached⟩ | ⟨reasons,counted,rejections,few⟩
  · rw [reached]
    exact .inl ⟨key,first,rfl⟩
  · rw [counted]
    dsimp only
    rw [rejections]
    exact .inr ⟨few,_,rfl⟩

theorem tally_grade (quorum : Nat) (votes : List ValidatorSignature) (approvals : Table String (List ValidatorSignature))
    (rejections : List String) :
    tally crates quorum votes approvals rejections = tally crates quorum (votes.filter fun sig =>
      isConsensusGradeVote sig.mlModelVersion sig.analysisBundles sig.evidenceDigest) approvals rejections := by
  induction votes generalizing approvals rejections with
  | nil => rfl
  | cons sig rest ih =>
    cases grade : isConsensusGradeVote sig.mlModelVersion sig.analysisBundles sig.evidenceDigest with
    | false => simp [tally,consensusProfileKey,grade,ih]
    | true => simp [tally,consensusProfileKey,grade,ih]

variable (signatures : List ValidatorSignature)

theorem uniqueVotes_spec :
    (∀ sig ∈ uniqueVotes signatures, sig ∈ signatures) ∧ ((uniqueVotes signatures).map voteKey).Nodup ∧
      (uniqueVotes signatures).map voteKey = (signatures.map voteKey).eraseDups := by
  obtain ⟨distinct,order,last⟩ := Upsert.foldl_upsert_spec voteKey signatures
  refine ⟨?_,distinct,order⟩
  intro sig inside
  exact mem_reverse.mp (List.mem_of_find?_eq_some (last sig inside))

def lastVotes : List ValidatorSignature :=
  (signatures.map voteKey).eraseDups.filterMap fun key => signatures.reverse.find? fun sig => voteKey sig = key

/-- Every outcome, by the last votes of consensus grade and the profiles they approve. -/
theorem aggregateEvidenceVotes_spec (signatures : List ValidatorSignature) (count : Nat) :
    let votes := (lastVotes signatures).filter fun sig =>
      isConsensusGradeVote sig.mlModelVersion sig.analysisBundles sig.evidenceDigest
    let quorum := 2 * count / 3 + 1
    (∀ sigs, aggregateEvidenceVotes crates signatures count = some (.verified sigs) ↔
      ∃ key, FirstToReach crates quorum votes key ∧ sigs = (votes.filter (Approves crates key)).take quorum) ∧
    ((∃ sigs, aggregateEvidenceVotes crates signatures count = some (.verified sigs)) ↔
      ∃ key, quorum ≤ votes.countP (Approves crates key)) ∧
    ((∃ reason, aggregateEvidenceVotes crates signatures count = some (.rejected reason)) ↔
      (∀ key, votes.countP (Approves crates key) < quorum) ∧ count - votes.countP (Rejects crates) < quorum) ∧
    (aggregateEvidenceVotes crates signatures count = none ↔
      (∀ key, votes.countP (Approves crates key) < quorum) ∧ quorum ≤ count - votes.countP (Rejects crates)) := by
  intro votes quorum
  have last : uniqueVotes signatures = lastVotes signatures := Upsert.foldl_upsert_eq voteKey signatures
  have size : count * 2 / 3 + 1 = quorum := by rw [Nat.mul_comm]
  have answer := aggregate_cases crates signatures count (tally_grade _ (uniqueVotes signatures) ∅ [])
  rw [size,last] at answer
  rcases answer with ⟨key,first,verified⟩ | ⟨few,reason,decided⟩
  · have enough : ¬∀ key, votes.countP (Approves crates key) < quorum := fun few => absurd first.enough (not_le.mpr (few key))
    rw [verified]
    refine ⟨?_,?_,?_,?_⟩
    · intro sigs
      rw [Option.some.injEq,EvidenceVoteOutcome.verified.injEq]
      constructor
      · rintro rfl
        exact ⟨key,first,rfl⟩
      · rintro ⟨other,also,rfl⟩
        rw [first.unique also]
    · exact ⟨fun _ => ⟨key,first.enough⟩,fun _ => ⟨_,rfl⟩⟩
    · simp [enough]
    · simp [enough]
  · have few : ∀ key, votes.countP (Approves crates key) < quorum := few
    have short : ¬∃ key, quorum ≤ votes.countP (Approves crates key) := by
      rintro ⟨key,reached⟩
      exact absurd reached (not_le.mpr (few key))
    rw [decided]
    refine ⟨?_,?_,?_,?_⟩
    · intro sigs
      have none : ¬∃ key, FirstToReach crates quorum votes key ∧ sigs = (votes.filter (Approves crates key)).take quorum := by
        rintro ⟨key,first,_⟩
        exact short ⟨key,first.enough⟩
      rw [iff_false_intro none]
      split_ifs <;> simp
    · rw [iff_false_intro short]
      split_ifs <;> simp
    · rw [and_iff_right few]
      split_ifs with blocked <;> simp [blocked,votes]
    · rw [and_iff_right few]
      split_ifs with blocked
      · simpa using blocked
      · simpa using not_lt.mp blocked

def Accepts (crates : Crates) (signatures : List ValidatorSignature) (count : Nat) : Prop :=
  ∃ sigs, aggregateEvidenceVotes crates signatures count = some (.verified sigs)

def Refuses (crates : Crates) (signatures : List ValidatorSignature) (count : Nat) : Prop :=
  ∃ reason, aggregateEvidenceVotes crates signatures count = some (.rejected reason)

theorem accepts_iff (count : Nat) : Accepts crates signatures count ↔
    ∃ key, count * 2 / 3 + 1 ≤ (uniqueVotes signatures).countP (Approves crates key) := by
  unfold Accepts
  rcases aggregate_cases crates signatures count rfl with
    ⟨key,first,verified⟩ | ⟨few,reason,decided⟩
  · rw [verified]
    exact ⟨fun _ => ⟨key,first.enough⟩,fun _ => ⟨_,rfl⟩⟩
  · rw [decided]
    simp only [not_le.mpr (few _),exists_false,iff_false]
    split_ifs <;> simp

theorem refuses_iff (count : Nat) : Refuses crates signatures count ↔
    ¬Accepts crates signatures count ∧
      count - (uniqueVotes signatures).countP (Rejects crates) < count * 2 / 3 + 1 := by
  rw [accepts_iff]
  unfold Refuses
  rcases aggregate_cases crates signatures count rfl with
    ⟨key,first,verified⟩ | ⟨few,reason,decided⟩
  · rw [verified]
    simp only [Option.some.injEq,reduceCtorEq,exists_false,false_iff,not_and]
    exact fun short => absurd ⟨key,first.enough⟩ short
  · rw [decided]
    simp only [not_le.mpr (few _),exists_false,not_false_eq_true,true_and]
    split_ifs with blocked <;> simp [blocked]

structure Electorate (count : Nat) where
  votes : List ValidatorSignature
  distinct : (votes.map voteKey).Nodup
  bounded : votes.length ≤ count

namespace Electorate
variable {count : Nat} (cast : Electorate count) {signatures : List ValidatorSignature}

theorem vote_inj {a b : ValidatorSignature} (first : a ∈ cast.votes) (second : b ∈ cast.votes)
    (same : voteKey a = voteKey b) : a = b :=
  inj_on_of_nodup_map cast.distinct first second same

theorem mem_uniqueVotes (seen : signatures ⊆ cast.votes) (sig : ValidatorSignature) :
    sig ∈ uniqueVotes signatures ↔ sig ∈ signatures := by
  obtain ⟨within,_,keys⟩ := uniqueVotes_spec signatures
  refine ⟨within sig,?_⟩
  intro inside
  have listed : voteKey sig ∈ (uniqueVotes signatures).map voteKey := by
    rw [keys,mem_eraseDups]
    exact List.mem_map_of_mem inside
  obtain ⟨vote,kept,same⟩ := List.mem_map.mp listed
  rwa [← cast.vote_inj (seen (within vote kept)) (seen inside) same]

theorem countP_uniqueVotes (seen : signatures ⊆ cast.votes) (holds : ValidatorSignature → Prop) [DecidablePred holds] :
    (uniqueVotes signatures).countP holds = (signatures.toFinset.filter holds).card := by
  have distinct : ((uniqueVotes signatures).filter holds).Nodup :=
    ((uniqueVotes_spec signatures).2.1.of_map voteKey).filter _
  rw [countP_eq_length_filter,← toFinset_card_of_nodup distinct]
  congr 1
  ext sig
  simp [cast.mem_uniqueVotes seen]

theorem card_le : cast.votes.toFinset.card ≤ count := (toFinset_card_le _).trans cast.bounded

theorem filter_subset (seen : signatures ⊆ cast.votes) (holds : ValidatorSignature → Prop) [DecidablePred holds] :
    signatures.toFinset.filter holds ⊆ cast.votes.toFinset := by
  intro sig inside
  exact mem_toFinset.mpr (seen (mem_toFinset.mp (Finset.mem_of_mem_filter sig inside)))

theorem approvals_apart (key : String) (first second : List ValidatorSignature) :
    Disjoint (first.toFinset.filter (Approves crates key)) (second.toFinset.filter (Rejects crates)) := by
  rw [Finset.disjoint_left]
  intro sig approves rejects
  exact (Finset.mem_filter.mp rejects).2.1 (Finset.mem_filter.mp approves).2.1

theorem not_accepts {first second : List ValidatorSignature} (seen : first ⊆ cast.votes) (also : second ⊆ cast.votes)
    (blocked : count - (uniqueVotes second).countP (Rejects crates) < count * 2 / 3 + 1) :
    ¬Accepts crates first count := by
  rw [accepts_iff]
  rintro ⟨key,enough⟩
  rw [cast.countP_uniqueVotes seen] at enough
  rw [cast.countP_uniqueVotes also] at blocked
  have few := Quorum.against_quorum cast.card_le (cast.filter_subset seen _) (cast.filter_subset also _)
    (approvals_apart key first second) blocked
  omega

theorem countP_mono {first more : List ValidatorSignature} (seen : first ++ more ⊆ cast.votes)
    (holds : ValidatorSignature → Prop) [DecidablePred holds] :
    (uniqueVotes first).countP holds ≤ (uniqueVotes (first ++ more)).countP holds := by
  rw [cast.countP_uniqueVotes seen,cast.countP_uniqueVotes fun sig inside => seen (mem_append_left _ inside)]
  apply card_le_card
  apply filter_subset_filter
  intro sig inside
  rw [mem_toFinset] at inside ⊢
  exact mem_append_left _ inside

end Electorate

/-- No two observers of the same votes decide differently, and no decision is taken back. -/
theorem package_decision_unsplit {count : Nat} (cast : Electorate count) (first second : List ValidatorSignature)
    (seen : first ⊆ cast.votes) (also : second ⊆ cast.votes) :
    ¬(Accepts crates first count ∧ Refuses crates second count) ∧
      ∀ more, more ⊆ cast.votes →
        (Accepts crates first count → Accepts crates (first ++ more) count) ∧
        (Refuses crates first count → Refuses crates (first ++ more) count) := by
  constructor
  · rintro ⟨accepted,refused⟩
    exact cast.not_accepts seen also ((refuses_iff second count).mp refused).2 accepted
  · intro more within
    have whole : first ++ more ⊆ cast.votes := by
      intro sig inside
      exact (mem_append.mp inside).elim (fun old => seen old) (fun new => within new)
    constructor
    · intro accepted
      rw [accepts_iff] at accepted ⊢
      obtain ⟨key,enough⟩ := accepted
      exact ⟨key,enough.trans (cast.countP_mono whole _)⟩
    · intro refused
      rw [refuses_iff] at refused ⊢
      have grown := cast.countP_mono whole (Rejects crates)
      have blocked : count - (uniqueVotes (first ++ more)).countP (Rejects crates) < count * 2 / 3 + 1 := by
        have := refused.2
        omega
      exact ⟨cast.not_accepts whole whole blocked,blocked⟩

namespace Ballots
def ballot (name : String) (vote : ValidatorVote) : ValidatorSignature where
  validatorId := name
  validatorPubkey := name
  signature := ""
  vote := vote
  signedAt := 0
  mlModelVersion := "s"
  analysisBundles := ⟨"b","b","b","b","b","b","b","b"⟩
  evidenceDigest := "e"
  deterministicRisk := {}

def against : ValidatorSignature := ballot "d" (.reject "r")

def cast : Electorate 4 where
  votes := [ballot "a" .approve,ballot "b" .approve,ballot "c" .approve,against]
  distinct := by decide
  bounded := by decide

end Ballots

theorem ballots_unsplit : Accepts (Ideal.crates [] id) [Ballots.ballot "c" .approve,Ballots.ballot "a" .approve,
      Ballots.ballot "b" .approve] 4 ∧
    ¬Refuses (Ideal.crates [] id) [Ballots.against,Ballots.ballot "b" .approve] 4 ∧
    Accepts (Ideal.crates [] id) ([Ballots.ballot "c" .approve,Ballots.ballot "a" .approve,
      Ballots.ballot "b" .approve] ++ [Ballots.against]) 4 := by
  have accepted : Accepts (Ideal.crates [] id) [Ballots.ballot "c" .approve,Ballots.ballot "a" .approve,
      Ballots.ballot "b" .approve] 4 :=
    ⟨[Ballots.ballot "c" .approve,Ballots.ballot "a" .approve,Ballots.ballot "b" .approve],by decide +kernel⟩
  obtain ⟨exclusive,lasting⟩ := package_decision_unsplit Ballots.cast
    [Ballots.ballot "c" .approve,Ballots.ballot "a" .approve,Ballots.ballot "b" .approve]
    [Ballots.against,Ballots.ballot "b" .approve] (by decide) (by decide)
  exact ⟨accepted,fun refused => exclusive ⟨accepted,refused⟩,(lasting [Ballots.against] (by decide)).1 accepted⟩

end ChainRegistry
