import ChainRegistry.Consensus.Finality
import ChainRegistry.Lib.Quorum

/-! Who stands behind the decisions of a round. The signers of two finalised blocks share active
members; a view change takes ids that nobody looks up, and goes one view further whichever view they
have certified. -/
namespace ChainRegistry
open Lib Runs List Finset Table

namespace ValidatorSet
def members (set : ValidatorSet) : Finset String :=
  ((set.validators.entries.filter fun entry => entry.2.isActive).map Sigma.fst).toFinset

variable (set : ValidatorSet)

theorem mem_members (id : String) : id ∈ set.members ↔ ∃ v, set.validators.lookup id = some v ∧ v.isActive := by
  simp only [members,mem_toFinset,List.mem_map,List.mem_filter]
  constructor
  · intro ⟨⟨key,v⟩,⟨inside,active⟩,same⟩
    subst same
    exact ⟨v,AList.mem_lookup_iff.mpr inside,active⟩
  · intro ⟨v,found,active⟩
    exact ⟨⟨id,v⟩,⟨AList.mem_lookup_iff.mp found,active⟩,rfl⟩

theorem card_members : set.members.card = set.len := by
  have distinct : ((set.validators.entries.filter fun entry => entry.2.isActive).map Sigma.fst).Nodup := by
    apply List.Nodup.sublist _ set.validators.nodupKeys
    exact filter_sublist.map _
  rw [members,toFinset_card_of_nodup distinct,len,active,values,List.filter_map]
  simp [Function.comp_def]

theorem isMember_iff (id : String) : set.isMember id ↔ id ∈ set.members := by
  rw [mem_members,isMember]
  cases found : set.validators.lookup id <;> simp

end ValidatorSet

namespace PbftRound
variable {crates : Crates} {round : PbftRound}

theorem Sound.committers (sound : Sound crates round) (final : round.phase = .finalised)
    (strict : round.config.allowSmallClusterQuorum = false) (nonempty : 0 < round.validatorSet.members.card) :
    ids round.commitSigs ⊆ round.validatorSet.members ∧
      2 * round.validatorSet.members.card / 3 + 1 ≤ (ids round.commitSigs).card := by
  constructor
  · intro id inside
    obtain ⟨sig,found⟩ := (mem_ids _ id).mp inside
    obtain ⟨v,member,active,_⟩ := (sound.commits id sig found).member
    exact (round.validatorSet.mem_members id).mpr ⟨v,member,active⟩
  · have enough := sound.committed final
    rw [card_ids]
    rwa [quorum,strict,← round.validatorSet.card_members,quorumThreshold_false nonempty] at enough

variable (crates) in
theorem run_fixed (round : PbftRound) (calls : List RoundCall) : (run (call crates) round calls).block = round.block ∧
    (run (call crates) round calls).validatorSet = round.validatorSet ∧
    (run (call crates) round calls).config = round.config := by
  apply kept_run (fun later : PbftRound => later.block = round.block ∧ later.validatorSet = round.validatorSet ∧
    later.config = round.config) calls _ round ⟨rfl,rfl,rfl⟩
  intro later call _ same
  obtain ⟨block,set,config⟩ := later.call_fixed crates call
  exact ⟨block.trans same.1,set.trans same.2.1,config.trans same.2.2⟩

def StrictOver (crates : Crates) (set : ValidatorSet) (round : PbftRound) : Prop :=
  ∃ now block config calls, config.allowSmallClusterQuorum = false ∧
    run (call crates) (withConfig now block set config) calls = round

theorem StrictOver.spec {set : ValidatorSet} (reached : StrictOver crates set round) :
    Sound crates round ∧ round.validatorSet = set ∧ round.config.allowSmallClusterQuorum = false := by
  obtain ⟨now,block,config,calls,strict,rfl⟩ := reached
  obtain ⟨_,same,configured⟩ := run_fixed crates (withConfig now block set config) calls
  refine ⟨always_run ?_ _ calls (Sound.withConfig now block set config),same,?_⟩
  · exact fun _ call sound => sound.call call
  · rw [configured]
    exact strict

end PbftRound

/-- Two finalised blocks of one set share more than a third of the members. -/
theorem finalised_rounds_overlap (crates : Crates) (set : ValidatorSet) (nonempty : 1 ≤ set.len) {first second : PbftRound}
    (one : first.StrictOver crates set) (two : second.StrictOver crates set)
    (final : first.phase = .finalised) (final' : second.phase = .finalised) :
    (set.len - 1) / 3 + 1 ≤ (ids first.commitSigs ∩ ids second.commitSigs).card ∧
      ∀ id ∈ ids first.commitSigs ∩ ids second.commitSigs, ∃ sig sig',
        first.commitSigs.lookup id = some sig ∧ second.commitSigs.lookup id = some sig' ∧
        PbftRound.ValidEntry crates set "commit" (first.block.hash crates) id sig ∧
        PbftRound.ValidEntry crates set "commit" (second.block.hash crates) id sig' := by
  obtain ⟨sound,rfl,strict⟩ := one.spec
  obtain ⟨sound',same,strict'⟩ := two.spec
  rw [← ValidatorSet.card_members] at nonempty ⊢
  obtain ⟨inside,enough⟩ := sound.committers final strict nonempty
  obtain ⟨inside',enough'⟩ := sound'.committers final' strict' (by rwa [same])
  rw [same] at inside' enough'
  refine ⟨Quorum.overlap_card nonempty inside inside' enough enough',?_⟩
  intro id both
  obtain ⟨left,right⟩ := mem_inter.mp both
  obtain ⟨sig,found⟩ := (mem_ids _ id).mp left
  obtain ⟨sig',found'⟩ := (mem_ids _ id).mp right
  exact ⟨sig,sig',found,found',sound.commits id sig found,same ▸ sound'.commits id sig' found'⟩

namespace Quartet
variable (block : Block) (signers : List (String × UInt8))

def roundCalls : List RoundCall :=
  .prePrepare 0 "a" :: (signers.map fun signer => .receivePrepare 0 signer.1 (signedBy block "prepare" signer)) ++
    signers.map fun signer => .receiveCommit signer.1 (signedBy block "commit" signer)

def round : PbftRound :=
  run (PbftRound.call twoCrates) (PbftRound.withConfig 0 block members Solo.config) (roundCalls block signers)

theorem round_strict :
    (round block signers).StrictOver twoCrates members := ⟨0,block,Solo.config,roundCalls block signers,rfl,rfl⟩

end Quartet
open Quartet Solo

/-- The rounds of two blocks, signed by three of the four validators each. -/
theorem quartet_overlaps :
    let first := round (proposal "m") [("a",1),("b",2),("c",3)]
    let second := round (proposal "n") [("b",2),("c",3),("d",4)]
    first.block ≠ second.block ∧ 2 ≤ (ids first.commitSigs ∩ ids second.commitSigs).card := by
  intro first second
  have final : first.phase = .finalised := by decide +kernel
  have final' : second.phase = .finalised := by decide +kernel
  exact ⟨by decide +kernel,(finalised_rounds_overlap twoCrates members (by decide) (round_strict _ _) (round_strict _ _)
    final final').1⟩

namespace PbftRound
def certified (view : Nat) (calls : List RoundCall) : Finset String :=
  (calls.filterMap fun
    | .recordViewChange _ validatorId newView => if newView = view then some validatorId else none
    | _ => none).toFinset

theorem certified_append (view : Nat) (calls more : List RoundCall) :
    certified view (calls ++ more) = certified view calls ∪ certified view more := by
  rw [certified,filterMap_append,toFinset_append]
  rfl

structure ViewsCounted (calls : List RoundCall) (round : PbftRound) : Prop where
  counted : round.viewNumber = round.viewChangeCount
  bounded : round.viewChangeCount ≤ round.config.maxViewChanges
  votes : ∀ view, (round.viewChangeVotes.lookup view).getD ∅ = certified view calls

variable {crates : Crates} {round : PbftRound} {calls : List RoundCall}

section
variable (views : ViewsCounted calls round)
include views

theorem ViewsCounted.of_eq {next : PbftRound} {call : RoundCall}
    (silent : ∀ view, certified view [call] = ∅) (number : next.viewNumber = round.viewNumber)
    (count : next.viewChangeCount = round.viewChangeCount) (config : next.config = round.config)
    (votes : next.viewChangeVotes = round.viewChangeVotes) : ViewsCounted (calls ++ [call]) next := by
  refine ⟨?_,?_,?_⟩
  · rw [number,count,views.counted]
  · rw [count,config]
    exact views.bounded
  · intro view
    rw [votes,certified_append,silent,union_empty]
    exact views.votes view

variable (now : Nat)

theorem ViewsCounted.triggerViewChange : ViewsCounted calls (round.triggerViewChange now).1 := by
  simp only [PbftRound.triggerViewChange]
  split_ifs with exhausted
  · exact ⟨views.counted,views.bounded,views.votes⟩
  · exact ⟨congrArg (· + 1) views.counted,Nat.not_le.mp exhausted,views.votes⟩

theorem ViewsCounted.votesWith (id : String) (newView : Nat) :
    round.votesWith id newView = certified newView (calls ++ [.recordViewChange now id newView]) := by
  rw [PbftRound.votesWith,views.votes,certified_append,union_comm]
  simp [certified]

theorem ViewsCounted.recordViewChange (id : String) (newView : Nat) :
    ViewsCounted (calls ++ [.recordViewChange now id newView]) (round.recordViewChange now id newView).1 := by
  have voted : ViewsCounted (calls ++ [.recordViewChange now id newView])
      {round with viewChangeVotes := round.viewChangeVotes.insert newView (round.votesWith id newView)} := by
    refine ⟨views.counted,views.bounded,fun view => ?_⟩
    rw [lookup_insert_eq]
    split_ifs with same
    · rw [Option.getD_some,views.votesWith now,same]
    · rw [views.votes,certified_append]
      simp [certified,Ne.symm same]
  simp only [PbftRound.recordViewChange]
  split_ifs
  · exact voted.triggerViewChange now
  · exact voted

theorem ViewsCounted.call (call : RoundCall) : ViewsCounted (calls ++ [call]) (round.call crates call) := by
  cases call with
  | prePrepare now proposerId =>
    simp only [PbftRound.call,PbftRound.prePrepare]
    split <;> (try split) <;> exact views.of_eq (fun _ => rfl) rfl rfl rfl rfl
  | receivePrepare | receiveCommit =>
    simp only [PbftRound.call,PbftRound.receivePrepare,PbftRound.receiveCommit]
    split <;> (try split) <;> (try split) <;> exact views.of_eq (fun _ => rfl) rfl rfl rfl rfl
  | recordViewChange now validatorId newView => exact views.recordViewChange now validatorId newView
  | triggerViewChange now => exact (views.of_eq (fun _ => rfl) rfl rfl rfl rfl).triggerViewChange now

end

theorem views_run (crates : Crates) (now : Nat) (block : Block) (set : ValidatorSet) (config : PbftConfig)
    (calls : List RoundCall) : ViewsCounted calls (run (call crates) (withConfig now block set config) calls) := by
  induction calls using List.reverseRecOn with
  | nil => exact ⟨rfl,Nat.zero_le _,fun _ => rfl⟩
  | append_singleton calls call views =>
    rw [run_append]
    exact views.call call

theorem recordViewChange_true_iff (round : PbftRound) (now : Nat) (id : String) (newView : Nat) :
    (round.recordViewChange now id newView).2 = .ok true ↔
      ChangesView round id newView ∧ round.viewChangeCount < round.config.maxViewChanges := by
  simp only [PbftRound.recordViewChange,ChangesView,PbftRound.triggerViewChange]
  split_ifs with changes exhausted
  · simp [exhausted,Except.map]
  · simp [changes,Nat.not_le.mp exhausted,Except.map]
  · simp [changes]

theorem recordViewChange_view {now : Nat} {id : String} {newView : Nat} (changes : ChangesView round id newView)
    (left : round.viewChangeCount < round.config.maxViewChanges) :
    (round.recordViewChange now id newView).1.viewNumber = round.viewNumber + 1 := by
  unfold ChangesView at changes
  simp only [PbftRound.recordViewChange,PbftRound.triggerViewChange]
  rw [if_pos changes,if_neg (Nat.not_le.mpr left)]

def Authorised (calls : List RoundCall) (round : PbftRound) (now : Nat) (id : String) (newView : Nat) : Prop :=
  (round.recordViewChange now id newView).2 = .ok true →
    round.viewChangeThreshold ≤
        (certified newView (calls ++ [.recordViewChange now id newView]) ∩ round.validatorSet.members).card ∧
      (round.recordViewChange now id newView).1.viewNumber = newView

/-- A certificate names an active member and no view above the next one. -/
def NamesMember (round : PbftRound) : RoundCall → Prop
  | .recordViewChange _ id newView => id ∈ round.validatorSet.members ∧ newView ≤ round.viewNumber + 1
  | _ => True

theorem certified_members (crates : Crates) (named : Along (call crates) NamesMember round calls) (view : Nat) :
    certified view calls ⊆ round.validatorSet.members := by
  induction calls generalizing round with
  | nil => exact empty_subset _
  | cons first calls ih =>
    have later := ih named.2
    rw [(round.call_fixed crates first).2.1] at later
    rw [← singleton_append,certified_append]
    refine union_subset ?_ later
    cases first with
    | recordViewChange now id newView =>
      by_cases same : newView = view
      · simpa [certified,same] using named.1.1
      · simp [certified,same]
    | prePrepare | receivePrepare | receiveCommit | triggerViewChange => exact empty_subset _

end PbftRound

/-- The view is the number of changes, within the budget. Where every certificate names an active member
and no view above the next one, a change has the authority of members. -/
theorem view_change_authority (crates : Crates) (now : Nat) (block : Block) (set : ValidatorSet) (config : PbftConfig)
    (calls : List RoundCall) :
    let start := PbftRound.withConfig now block set config
    let round := run (PbftRound.call crates) start calls
    (round.viewNumber = round.viewChangeCount ∧ round.viewChangeCount ≤ config.maxViewChanges) ∧
      ∀ (later : Nat) (id : String) (newView : Nat),
        Along (PbftRound.call crates) PbftRound.NamesMember start (calls ++ [.recordViewChange later id newView]) →
        round.Authorised calls later id newView := by
  intro start round
  have views : PbftRound.ViewsCounted calls round := PbftRound.views_run crates now block set config calls
  have members : round.validatorSet = start.validatorSet := (PbftRound.run_fixed crates start calls).2.1
  have configured : round.config = config := (PbftRound.run_fixed crates start calls).2.2
  refine ⟨⟨views.counted,configured ▸ views.bounded⟩,fun later id newView named changed => ?_⟩
  obtain ⟨changes,left⟩ := (round.recordViewChange_true_iff later id newView).mp changed
  have next : newView ≤ round.viewNumber + 1 := ((along_append _ _ _).mp named).2.1.2
  have inside := PbftRound.certified_members crates named newView
  have counted : round.viewChangeThreshold ≤ (round.votesWith id newView).card := changes.1
  rw [views.votesWith later] at counted
  refine ⟨?_,?_⟩
  · rwa [members,inter_eq_left.mpr inside]
  · rw [PbftRound.recordViewChange_view changes left]
    exact le_antisymm changes.2 next

/-- Two of four members certify the next view. -/
theorem members_change_view :
    let round := run (PbftRound.call twoCrates) (PbftRound.withConfig 0 (proposal "m") members config) [.recordViewChange 0 "b" 1]
    (round.recordViewChange 0 "c" 1).2 = .ok true ∧ round.Authorised [.recordViewChange 0 "b" 1] 0 "c" 1 := by
  intro round
  refine ⟨by decide +kernel,(view_change_authority twoCrates 0 (proposal "m") members config _).2 0 "c" 1 ?_⟩
  exact ⟨⟨by decide +kernel,by decide +kernel⟩,⟨by decide +kernel,by decide +kernel⟩,trivial⟩

theorem view_changed_by_stranger :
    let round := PbftRound.withConfig 0 block validators config
    (round.recordViewChange 0 "x" 7).2 = .ok true ∧ (round.recordViewChange 0 "x" 7).1.viewNumber = 1 ∧
      PbftRound.certified 7 [.recordViewChange 0 "x" 7] ∩ validators.members = ∅ ∧ ¬round.Authorised [] 0 "x" 7 := by
  refine ⟨by decide +kernel,by decide +kernel,by decide +kernel,?_⟩
  intro authorised
  exact absurd (authorised (by decide +kernel)).2 (by decide +kernel)

end ChainRegistry
