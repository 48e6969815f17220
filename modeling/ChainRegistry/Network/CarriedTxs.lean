import ChainRegistry.Network.ReorgRecovery
import ChainRegistry.Node.ProposerRule

/-! What the engine and the store carry: a transaction is carried while its block is in a running
round or in the canonical chain. Every handler passes it on, unless a block takes the place of
another or a write of a finalised block fails. -/
namespace ChainRegistry
open Lib Runs LinkedChain Fallible List Text ValidatorSet Vrf

variable {crates : Crates} {tx : Transaction} {round : PbftRound} {id signature : String}
  {seen : Validators} {height : Nat} {now : Nat}

namespace ChainStore
variable {store : ChainStore} {block : Block}

def Holds (store : ChainStore) (tx : Transaction) : Prop :=
  ∃ height block, store.getBlockByHeight height = some block ∧ tx ∈ block.transactions

def DisplacesNone (store : ChainStore) (block : Block) : Prop :=
  ∀ old ∈ store.getBlockByHeight block.header.height, ∀ tx ∈ old.transactions, tx ∈ block.transactions

instance displacesNoneDecidable (store : ChainStore) (block : Block) : Decidable (store.DisplacesNone block) :=
  inferInstanceAs (Decidable (∀ old ∈ _, _))

section
variable (indexed : Indexed crates store)
include indexed

theorem holds_inserted (injective : crates.CollisionFree) (inside : tx ∈ block.transactions) :
    (store.insertBlock crates block).Holds tx := by
  refine ⟨block.header.height,block,?_,inside⟩
  rw [indexed.view_insert injective,put_apply,if_pos rfl]

theorem Holds.insertBlock (injective : crates.CollisionFree)
    (displaces : store.DisplacesNone block) (holds : store.Holds tx) : (store.insertBlock crates block).Holds tx := by
  obtain ⟨height,old,found,inside⟩ := holds
  by_cases same : height = block.header.height
  · exact holds_inserted indexed injective (displaces old (same ▸ found) tx inside)
  · refine ⟨height,old,?_,inside⟩
    rw [indexed.view_insert injective,put_apply,if_neg same,found]

theorem Indexed.mem_canonicalBlocks (found : store.getBlockByHeight height = some block) : block ∈ store.canonicalBlocks := by
  have low := le_tipHeight ((indexed.isSome_iff height).mp (by rw [found]; rfl))
  exact mem_filterMap.mpr ⟨height,mem_range.mpr (by omega),found⟩

theorem view_reorgPart (injective : crates.CollisionFree) {fork : Nat} {hash : String}
    {blocks : List Block} (follows : Block.Follows crates fork hash blocks) (done : Nat) (low : height ≤ fork) :
    (store.performAll crates ((store.reorgWrites crates fork blocks).take done)).getBlockByHeight height =
      store.getBlockByHeight height := by
  have kept : ∀ write ∈ store.reorgWrites crates fork blocks, ∀ other : ChainStore, Indexed crates other →
      (other.perform crates write).getBlockByHeight height = other.getBlockByHeight height := by
    intro write listed other indexed
    simp only [reorgWrites,rebuildWrites,cons_append,mem_cons,mem_append,mem_map] at listed
    obtain rolled | ⟨block,inside,inserted⟩ | cleared | ⟨again,_,reinserted⟩ := listed
    · rw [rolled,perform,view_rollback,cut,if_pos low]
    · have high : fork < block.header.height := follows_above follows inside
      rw [← inserted,perform,indexed.view_insert injective,put_apply,if_neg (by omega)]
    · rw [cleared]
      rfl
    · rw [← reinserted,(indexed.reinsert again).2.1]
  have keeps : ∀ other : ChainStore, ∀ write ∈ (store.reorgWrites crates fork blocks).take done,
      Indexed crates other ∧ other.getBlockByHeight height = store.getBlockByHeight height →
      Indexed crates (other.perform crates write) ∧
        (other.perform crates write).getBlockByHeight height = store.getBlockByHeight height := by
    intro other write listed holds
    exact ⟨holds.1.perform injective write,(kept write (mem_of_mem_take listed) other holds.1).trans holds.2⟩
  exact (kept_run (fun other => Indexed crates other ∧ other.getBlockByHeight height = store.getBlockByHeight height)
    _ keeps store ⟨indexed,rfl⟩).2

end

end ChainStore

namespace PbftRound
theorem receivePrepare_unfinished (now : Nat) (id : String) (sig : BlockSignature)
    (running : round.isTerminal = false) : (round.receivePrepare crates now id sig).1.isTerminal = false := by
  obtain ⟨e,refused,_⟩ | ⟨⟨inPhase,_⟩,⟨_,entered⟩ | ⟨_,entered⟩⟩ := round.receivePrepare_cases crates now id sig
  · rw [refused]
    exact running
  · rw [entered]
    rfl
  · rw [entered]
    exact running

theorem receiveCommit_unfinished (id : String) (sig : BlockSignature)
    (running : round.isTerminal = false) (more : (round.receiveCommit crates id sig).2 ≠ .ok true) :
    (round.receiveCommit crates id sig).1.isTerminal = false := by
  obtain ⟨e,refused,_⟩ | ⟨⟨inPhase,_⟩,⟨_,entered⟩ | ⟨_,entered⟩⟩ := round.receiveCommit_cases crates id sig
  · rw [refused]
    exact running
  · rw [entered] at more
    exact absurd rfl more
  · rw [entered]
    exact running

end PbftRound

namespace PbftEngine
variable {engine : PbftEngine} {sig : BlockSignature}

def Proposes (engine : PbftEngine) (tx : Transaction) : Prop :=
  ∃ hash round, engine.rounds.lookup hash = some round ∧ round.isTerminal = false ∧ tx ∈ round.block.transactions

section
variable (proposes : engine.Proposes tx)
include proposes

theorem Proposes.withRound {hash : String}
    (kept : ∀ old, engine.rounds.lookup hash = some old → old.isTerminal = false → tx ∈ old.block.transactions →
      round.isTerminal = false ∧ tx ∈ round.block.transactions) : (engine.withRound hash round).Proposes tx := by
  obtain ⟨other,old,found,running,inside⟩ := proposes
  by_cases same : other = hash
  · subst same
    obtain ⟨running',inside'⟩ := kept old found running inside
    exact ⟨other,round,by rw [lookup_withRound,if_pos rfl],running',inside'⟩
  · exact ⟨other,old,by rw [lookup_withRound,if_neg same,found],running,inside⟩

theorem Proposes.onRound {α : Type} {hash : String} {method : PbftRound → PbftRound × Except String α}
    (kept : ∀ old, engine.rounds.lookup hash = some old → old.isTerminal = false → tx ∈ old.block.transactions →
      (method old).1.isTerminal = false ∧ (method old).1.block = old.block) :
    (engine.onRound hash method).1.Proposes tx := by
  cases found : engine.rounds.lookup hash with
  | none =>
    simp only [PbftEngine.onRound,found]
    exact proposes
  | some round =>
    rw [engine.onRound_found method found]
    apply proposes.withRound
    intro old present running inside
    rw [found,Option.some.injEq] at present
    subst present
    obtain ⟨running',same⟩ := kept round found running inside
    exact ⟨running',same ▸ inside⟩

theorem Proposes.prepare {hash id : String} : (engine.prepare crates now hash id sig).1.Proposes tx := by
  apply proposes.onRound
  intro old found running inside
  exact ⟨old.receivePrepare_unfinished now id sig running,old.call_block crates (.receivePrepare now id sig)⟩

theorem Proposes.commit {hash id : String}
    (more : (engine.commit crates hash id sig).2 ≠ .ok true) : (engine.commit crates hash id sig).1.Proposes tx := by
  apply proposes.onRound
  intro old found running inside
  refine ⟨old.receiveCommit_unfinished id sig running ?_,old.call_block crates (.receiveCommit id sig)⟩
  rw [PbftEngine.commit,engine.onRound_found _ found] at more
  exact more

end

theorem prepare_reached {next : PbftEngine} {hash id : String}
    (reached : engine.prepare crates now hash id sig = (next,.ok true)) :
    ∃ round sigs, engine.rounds.lookup hash = some round ∧ round.phase = .prepare ∧
      next = engine.withRound hash {round with prepareSigs := sigs, phase := .commit, phaseEnteredAt := now} := by
  obtain ⟨round,found,takes,_,rfl⟩ := onRound_reached (.prepare now) reached
  exact ⟨round,_,found,takes.1,rfl⟩

def BodyKept (crates : Crates) (engine : PbftEngine) (block : Block) : Prop :=
  ∀ round ∈ engine.rounds.lookup (block.hash crates), round.isTerminal = false →
    ∀ tx ∈ round.block.transactions, tx ∈ block.transactions

instance bodyKeptDecidable (engine : PbftEngine) (block : Block) : Decidable (engine.BodyKept crates block) :=
  inferInstanceAs (Decidable (∀ round ∈ _, _))

end PbftEngine
namespace NodeState
variable {state : NodeState} {clock : Clock} {fault : Bool} {hash : String} {block : Block}

def Carries (state : NodeState) (tx : Transaction) : Prop := state.pbftEngine.Proposes tx ∨ state.chain.Holds tx

/-- If one more COMMIT can finalise the round, then its block can be written and displaces none. -/
def CommitSafe (state : NodeState) (fault : Bool) (hash : String) : Prop :=
  ∀ round ∈ state.pbftEngine.rounds.lookup hash, round.phase = .commit →
    round.quorum ≤ round.commitSigs.keys.length + 1 → fault = false ∧ state.chain.DisplacesNone round.block

instance commitSafeDecidable (state : NodeState) (fault : Bool) (hash : String) : Decidable (state.CommitSafe fault hash) :=
  inferInstanceAs (Decidable (∀ round ∈ _, _))

theorem Carries.finalised {id : String} {sig : BlockSignature} {engine : PbftEngine} (injective : crates.CollisionFree)
    (indexed : state.chain.Indexed crates) (safe : state.CommitSafe fault hash) (carries : state.Carries tx)
    (reached : state.pbftEngine.commit crates hash id sig = (engine,.ok true)) :
    ((state.withEngine engine).insertFinalised crates clock fault hash).Carries tx := by
  obtain ⟨round,sigs,found,inPhase,last,rfl⟩ := PbftEngine.commit_reached reached
  obtain ⟨written,displaces⟩ := safe round found inPhase last
  subst written
  have final : (state.withEngine (state.pbftEngine.withRound hash
      {round with commitSigs := sigs, phase := .finalised})).pbftEngine.getFinalisedBlock hash =
        some {round.block with pbftSignatures := sigs.values} := by
    simp [PbftEngine.getFinalisedBlock,PbftRound.finalisedSignatures]
  obtain ⟨reorgs,done⟩ := insertFinalised_some crates clock false final
  rw [done]
  obtain ⟨other,old,present,running,inside⟩ | holds := carries
  · by_cases same : other = hash
    · subst same
      rw [found,Option.some.injEq] at present
      subst present
      exact .inr (ChainStore.holds_inserted indexed injective inside)
    · refine .inl ⟨other,old,?_,running,inside⟩
      exact (PbftEngine.lookup_withRound _ _ _ _).trans ((if_neg same).trans present)
  · exact .inr (holds.insertBlock indexed injective displaces)

theorem Carries.withEngine {engine : PbftEngine} (carries : state.Carries tx)
    (proposes : state.pbftEngine.Proposes tx → engine.Proposes tx) : (state.withEngine engine).Carries tx :=
  carries.imp proposes id

theorem Carries.unfinished {id : String} {sig : BlockSignature} {engine : PbftEngine} {result : Except String Bool}
    (carries : state.Carries tx) (reached : state.pbftEngine.commit crates hash id sig = (engine,result))
    (more : result ≠ .ok true) : (state.withEngine engine).Carries tx := by
  apply carries.withEngine
  intro proposes
  have kept := proposes.commit (by rw [reached]; exact more)
  rwa [reached] at kept

theorem Carries.onCommit (injective : crates.CollisionFree)
    (indexed : state.chain.Indexed crates) (safe : state.CommitSafe fault hash) (carries : state.Carries tx) :
    (state.onCommit crates clock seen fault hash id signature).Carries tx := by
  unfold NodeState.onCommit
  split
  · exact carries
  · split
    · rename_i reached
      exact carries.finalised injective indexed safe reached
    · rename_i more reached
      exact carries.unfinished reached more

theorem Carries.opened (now : Nat) (set : ValidatorSet) (config : PbftConfig) (body : state.pbftEngine.BodyKept crates block)
    (carries : state.Carries tx) :
    (state.withEngine (state.pbftEngine.withRound (block.hash crates) (.opened now block set config))).Carries tx := by
  apply carries.withEngine
  intro proposes
  apply proposes.withRound
  intro old found running inside
  exact ⟨rfl,body old found running tx inside⟩

theorem Carries.onPrePrepare (body : state.pbftEngine.BodyKept crates block) (carries : state.Carries tx) :
    (state.onPrePrepare crates clock block).1.Carries tx := by
  unfold NodeState.onPrePrepare
  obtain ⟨e,_,refused⟩ | ⟨_,opened⟩ := PbftEngine.startRound_cases crates state.pbftEngine clock.instant block
    (ofCommon state.validatorSet)
  · rw [refused]
    exact carries
  · rw [opened]
    have started := carries.opened clock.instant (ofCommon state.validatorSet) state.pbftEngine.config body
    dsimp only
    split
    · exact started
    · exact started.withEngine fun proposes => proposes.prepare

def PrepareSafe (state : NodeState) (hash : String) : Prop :=
  ∀ round ∈ state.pbftEngine.rounds.lookup hash, round.phase = .prepare →
    round.commitSigs.keys.length + 1 < round.quorum

instance prepareSafeDecidable (state : NodeState) (hash : String) : Decidable (state.PrepareSafe hash) :=
  inferInstanceAs (Decidable (∀ round ∈ _, _))

theorem Carries.onPrepare (safe : state.PrepareSafe hash)
    (carries : state.Carries tx) : (state.onPrepare crates clock seen hash id signature).1.Carries tx := by
  unfold NodeState.onPrepare
  split
  · exact carries
  · rename_i sig _
    have prepared : (state.withEngine (state.pbftEngine.prepare crates clock.instant hash id sig).1).Carries tx :=
      carries.withEngine fun proposes => proposes.prepare
    split
    · rename_i engine reached
      rw [reached] at prepared
      split
      · exact prepared
      · refine prepared.withEngine fun proposes => proposes.commit ?_
        intro again
        obtain ⟨round,sigs,found,inPhase,rfl⟩ := PbftEngine.prepare_reached reached
        obtain ⟨voted,_,present,_,last,_⟩ := PbftEngine.commit_reached (Prod.ext rfl again)
        rw [withEngine_pbftEngine,PbftEngine.lookup_withRound,if_pos rfl,Option.some.injEq] at present
        subst present
        exact absurd last (Nat.not_le.mpr (safe round found inPhase))
    · rename_i reached
      rwa [reached] at prepared

/-- If a single vote is a quorum, then the own votes finalise the block at once: it can be written and displaces none. -/
def ProposalSafe (state : NodeState) (fault : Bool) (block : Block) : Prop :=
  quorumThreshold (ofCommon state.validatorSet).len state.pbftEngine.config.allowSmallClusterQuorum ≤ 1 →
    fault = false ∧ state.chain.DisplacesNone block

instance proposalSafeDecidable (state : NodeState) (fault : Bool) (block : Block) : Decidable (state.ProposalSafe fault block) :=
  inferInstanceAs (Decidable (_ → _))

section
variable (injective : crates.CollisionFree) (indexed : state.chain.Indexed crates)
include injective indexed

theorem Carries.proposerCommit (safe : state.CommitSafe fault hash) (carries : state.Carries tx) :
    (state.proposerCommit crates clock fault hash).1.Carries tx := by
  unfold NodeState.proposerCommit
  split
  · exact carries
  · dsimp only
    split
    · rename_i reached
      exact carries.finalised injective indexed safe reached
    · rename_i more reached
      exact carries.unfinished reached more

theorem Carries.proposerVotes (found : state.pbftEngine.rounds.lookup hash = some round) (fresh : round.commitSigs = ∅)
    (safe : round.quorum ≤ 1 → fault = false ∧ state.chain.DisplacesNone round.block) (carries : state.Carries tx) :
    (state.proposerVotes crates clock fault hash).1.Carries tx := by
  unfold NodeState.proposerVotes
  split
  · exact carries
  · rename_i own _
    have prepared : (state.withEngine (state.pbftEngine.prepare crates clock.instant hash own.validatorId own).1).Carries tx :=
      carries.withEngine fun proposes => proposes.prepare
    split
    · rename_i engine reached
      rw [reached] at prepared
      refine prepared.proposerCommit injective indexed ?_
      intro voted present inPhase last
      obtain ⟨old,sigs,listed,_,rfl⟩ := PbftEngine.prepare_reached reached
      rw [found,Option.some.injEq] at listed
      subst listed
      rw [Option.mem_def,withEngine_pbftEngine,PbftEngine.lookup_withRound,if_pos rfl,Option.some.injEq] at present
      subst present
      have single : round.quorum ≤ round.commitSigs.keys.length + 1 := last
      rw [fresh] at single
      exact safe single
    · rename_i reached
      rwa [reached] at prepared

theorem Carries.produceWrite (body : state.pbftEngine.BodyKept crates block) (safe : state.ProposalSafe fault block)
    (accepted : (state.pbftEngine.startRound crates clock.instant block (ofCommon state.validatorSet)).2.isOk)
    (carries : state.Carries tx ∨ tx ∈ block.transactions) : (state.produceWrite crates clock fault block).1.Carries tx := by
  unfold NodeState.produceWrite
  obtain ⟨e,_,refused⟩ | ⟨_,opened⟩ := PbftEngine.startRound_cases crates state.pbftEngine clock.instant block
    (ofCommon state.validatorSet)
  · rw [refused] at accepted
    cases accepted
  · rw [opened]
    have found := state.pbftEngine.lookup_withRound (block.hash crates) (block.hash crates)
      (PbftRound.opened clock.instant block (ofCommon state.validatorSet) state.pbftEngine.config)
    rw [if_pos rfl,← state.withEngine_pbftEngine (state.pbftEngine.withRound _ _)] at found
    have started : (state.withEngine (state.pbftEngine.withRound (block.hash crates) (PbftRound.opened clock.instant block
        (ofCommon state.validatorSet) state.pbftEngine.config))).Carries tx := by
      obtain old | new := carries
      · exact old.opened _ _ _ body
      · exact .inl ⟨_,_,found,rfl,new⟩
    exact started.proposerVotes injective indexed found rfl safe

end

section
variable (crates)

/-- `produce_block` gets past its selection: nobody is active, it signs with no key, or it is the first or promoted. -/
def Eligible (state : NodeState) (allowedFallbackRank : Nat) (seed : String) : Prop :=
  state.activeProposers = [] ∨ state.config.validatorPrivkey = none ∨
    (∃ privkey key, state.config.validatorPrivkey = some privkey ∧ hexDecode (trim privkey) = .ok key ∧
      key.length = 32) ∧
    ∃ rank, (rankProposers crates state.activeProposers seed).findIdx? (fun id => id = state.config.nodeId) = some rank ∧
      (rank = 0 ∨ rank = min allowedFallbackRank (state.activeProposers.length - 1))

/-- `start_round` accepts the node as the proposer: it is active, a proof is its own, and the lowest score is under its id. -/
def Selected (state : NodeState) (seed : String) (output proof : Option String) : Prop :=
  let set := ofCommon state.validatorSet
  ∃ own, set.validators.lookup state.config.nodeId = some own ∧ own.isActive ∧
    (∀ value signature, output = some value → proof = some signature →
      verify crates (bytes seed) own.pubkey value signature = .ok ()) ∧
    ∃ score, lowestScore (set.active.map fun v => (v.id,proposerScore crates seed v)) =
      some (state.config.nodeId,score)

theorem rankProposers_ownProof (id output proof seed : String) (active : List Vrf.VrfValidator) :
    rankProposers crates (withOwnProof id output proof active) seed = rankProposers crates active seed := by
  have scores : (withOwnProof id output proof active).map (scored crates seed) = active.map (scored crates seed) := by
    rw [withOwnProof,map_map]
    apply map_congr_left
    intro v _
    by_cases own : v.id = id <;> simp [own,scored]
  rw [rankProposers,scores,rankProposers]

theorem prove_ok_iff (seed : List UInt8) (privkey : String) : (∃ value, prove crates seed privkey = .ok value) ↔
    ∃ key, hexDecode (trim privkey) = .ok key ∧ key.length = 32 := by
  simp only [prove,bind_ok,check_ok,pure_ok]
  constructor
  · rintro ⟨value,key,decoded,length,_⟩
    exact ⟨key,decoded,not_not.mp length⟩
  · rintro ⟨key,decoded,length⟩
    exact ⟨_,key,decoded,not_not.mpr length,rfl⟩

theorem checkRank_ok_iff (id : String) (ranking : List String) (allowed : Nat) :
    checkRank id ranking allowed = .ok () ↔ ∃ rank, ranking.findIdx? (fun other => other = id) = some rank ∧
      (rank = 0 ∨ rank = min allowed (ranking.length - 1)) := by
  unfold checkRank
  split_ifs with empty
  · simp [empty]
  · cases place : ranking.findIdx? (fun other => other = id) with
    | none => simp
    | some rank =>
      cases rank with
      | zero | succ => simp

theorem produceSelect_isOk_iff (state : NodeState) (rank : Nat) (snapshot : Snapshot) :
    (state.produceSelect crates rank snapshot).2.isOk ↔ state.Eligible crates rank snapshot.prevHash := by
  unfold produceSelect Eligible
  cases active : state.activeProposers with
  | nil => simp [isOk_iff]
  | cons first rest =>
    cases configured : state.config.validatorPrivkey with
    | none => simp [isOk_iff]
    | some privkey =>
      have usable := prove_ok_iff crates (bytes snapshot.prevHash) privkey
      have size : (rankProposers crates (first :: rest) snapshot.prevHash).length = (first :: rest).length := by
        rw [rankProposers,length_map,length_insertionSort,length_map]
      simp only [reduceCtorEq,false_or,Option.some.injEq,exists_eq_left',exists_and_left]
      rw [isOk_iff,← usable,← size,← checkRank_ok_iff]
      cases made : prove crates (bytes snapshot.prevHash) privkey with
      | error e => simp
      | ok value =>
        obtain ⟨output,proof⟩ := value
        simp only [rankProposers_ownProof,map_ok]
        simp [Unique.exists_iff]

theorem startRound_own_iff (state : NodeState) (clock : Clock) (snapshot : Snapshot) (output proof : Option String) :
    (state.pbftEngine.startRound crates clock.instant (snapshot.block crates clock state.config.nodeId output proof)
      (ofCommon state.validatorSet)).2.isOk ↔ state.Selected crates snapshot.prevHash output proof := by
  rw [PbftEngine.startRound_isOk_iff,PbftRound.checkProposer_ok_iff,PbftRound.checkSelected_ok_iff,isMember_iff_lookup]
  constructor
  · intro ⟨⟨own,listed,isActive⟩,proved,first⟩
    refine ⟨own,listed,isActive,?_,first⟩
    rintro value signature rfl rfl
    exact (PbftRound.checkVrf_ok_iff crates rfl rfl listed).mp proved
  · intro ⟨own,listed,isActive,proved,first⟩
    refine ⟨⟨own,listed,isActive⟩,?_,first⟩
    cases output with
    | none => cases proof <;> rfl
    | some value =>
      cases proof with
      | none => rfl
      | some signature => exact (PbftRound.checkVrf_ok_iff crates rfl rfl listed).mpr (proved value signature rfl rfl)

end

instance eligibleDecidable (state : NodeState) (rank : Nat) (snapshot : Snapshot) :
    Decidable (state.Eligible crates rank snapshot.prevHash) :=
  decidable_of_iff _ (produceSelect_isOk_iff crates state rank snapshot)

instance selectedDecidable (state : NodeState) (snapshot : Snapshot) (output proof : Option String) :
    Decidable (state.Selected crates snapshot.prevHash output proof) :=
  decidable_of_iff _ (startRound_own_iff crates state ⟨0,0⟩ snapshot output proof)

theorem Carries.untouched {after : NodeState} (untouched : Untouched state after) (carries : state.Carries tx) :
    after.Carries tx := by
  unfold Carries
  rw [untouched.engine,untouched.chain]
  exact carries

end NodeState

end ChainRegistry
