import ChainRegistry.Consensus.PbftCalls

/-! Finality in the engine. A finalised round refuses votes and does not time out,
but `start_round` replaces the round kept under a hash and `record_view_change`
resets a round in any phase. -/
namespace ChainRegistry
open Lib Runs Solo PbftEngine

def StaysFinal (hash : String) (block : Block) (engine : PbftEngine) : Prop :=
  ∃ final, engine.getFinalisedBlock hash = some final ∧
    final.header = block.header ∧ final.transactions = block.transactions

def ChangesView (round : PbftRound) (validatorId : String) (newView : Nat) : Prop :=
  round.viewChangeThreshold ≤ (round.votesWith validatorId newView).card ∧ round.viewNumber < newView

/-- The call opens no second round for `hash`, completes no view change of its round
and does not clean it up. -/
def Harmless (crates : Crates) (hash : String) (engine : PbftEngine) : EngineCall → Prop
  | .startRound now block set => block.hash crates = hash →
    ((PbftRound.withConfig now block set engine.config).checkProposer crates block.header.proposerId).isOk = false
  | .receiveViewChange _ blockHash validatorId newView => blockHash = hash →
    ∀ round, engine.rounds.lookup hash = some round → ¬ChangesView round validatorId newView
  | .cleanupStaleRounds now => hash ∉ engine.stale now
  | _ => True

private theorem staysFinal_iff (hash : String) (block : Block) (engine : PbftEngine) :
    StaysFinal hash block engine ↔ ∃ round, engine.rounds.lookup hash = some round ∧
      round.phase = .finalised ∧ round.block.header = block.header ∧
      round.block.transactions = block.transactions := by
  constructor
  · intro ⟨final,returned,header,transactions⟩
    obtain ⟨round,found,phase,rfl⟩ := getFinalisedBlock_eq_some returned
    exact ⟨round,found,phase,header,transactions⟩
  · intro ⟨round,found,phase,header,transactions⟩
    refine ⟨{round.block with pbftSignatures := round.finalisedSignatures},?_,header,transactions⟩
    simp [getFinalisedBlock,found,phase]

section
variable {crates : Crates} {hash : String} {engine : PbftEngine} {round : PbftRound}

theorem receivePrepare_finalised (phase : round.phase = .finalised) (now : Nat) (id : String)
    (sig : BlockSignature) : (round.receivePrepare crates now id sig).1 = round := by
  simp [PbftRound.receivePrepare,phase]

theorem receiveCommit_finalised (phase : round.phase = .finalised) (id : String) (sig : BlockSignature) :
    (round.receiveCommit crates id sig).1 = round := by
  simp [PbftRound.receiveCommit,phase]

theorem recordViewChange_phase (now : Nat) (id : String) (newView : Nat) :
    (round.recordViewChange now id newView).1.phase = .finalised ↔
      round.phase = .finalised ∧ ¬ChangesView round id newView := by
  unfold PbftRound.recordViewChange PbftRound.triggerViewChange ChangesView
  by_cases changes : round.viewChangeThreshold ≤ (round.votesWith id newView).card ∧ round.viewNumber < newView
  · simp only [changes,and_self,if_true]
    split <;> simp
  · simp [changes]

theorem timeoutRounds_lookup (now : Nat) (found : engine.rounds.lookup hash = some round)
    (phase : round.phase = .finalised) : (engine.timeoutRounds now).1.rounds.lookup hash = some round := by
  have absent : hash ∉ engine.timedOut now := by
    intro inside
    obtain ⟨⟨key,entry⟩,listed,same⟩ := List.mem_map.mp inside
    obtain ⟨member,late⟩ := List.mem_filter.mp listed
    have lookedUp := AList.mem_lookup_iff.mpr member
    simp only at same lookedUp late
    rw [same,found] at lookedUp
    cases lookedUp
    simp [PbftRound.isPhaseTimedOut,phase] at late
  have fold : ∀ (hashes : List String) (progress : PbftEngine × List ViewChangeSignal), hash ∉ hashes →
      progress.1.rounds.lookup hash = some round →
      (hashes.foldl (timeoutRound now) progress).1.rounds.lookup hash = some round := by
    intro hashes
    induction hashes with
    | nil => exact fun _ _ present => present
    | cons next hashes ih =>
      intro progress outside present
      rw [List.mem_cons,not_or] at outside
      apply ih _ outside.2
      have kept := lookup_onRound progress.1 hash next (PbftRound.triggerViewChange now)
      rw [if_neg outside.1,present] at kept
      unfold timeoutRound
      split <;> simp_all
  exact fold _ _ absent found

theorem cleanupStaleRounds_lookup (now : Nat) : (engine.cleanupStaleRounds now).1.rounds.lookup hash =
    if hash ∈ engine.stale now then none else engine.rounds.lookup hash := by
  have fold : ∀ (hashes : List String) (rounds : Table String PbftRound),
      (hashes.foldl (fun rounds hash => rounds.erase hash) rounds).lookup hash =
        if hash ∈ hashes then none else rounds.lookup hash := by
    intro hashes
    induction hashes with
    | nil => simp
    | cons next hashes ih =>
      intro rounds
      rw [List.foldl_cons,ih,Table.lookup_erase_eq]
      by_cases same : hash = next <;> simp [same]
  exact fold _ _

private theorem startRound_keeps (block : Block) (now : Nat) (opened : Block) (set : ValidatorSet) :
    StaysFinal hash block (engine.startRound crates now opened set).1 ↔
      Harmless crates hash engine (.startRound now opened set) ∧ StaysFinal hash block engine := by
  obtain ⟨e,refused,same⟩ | ⟨accepted,started⟩ := startRound_cases crates engine now opened set
  · simp [same,Harmless,refused,Except.isOk,Except.toBool]
  · rw [staysFinal_iff,staysFinal_iff,started]
    simp only [Harmless,accepted,lookup_withRound]
    by_cases target : hash = opened.hash crates
    · simp [target,Except.isOk,Except.toBool,PbftRound.opened]
    · simp [target,Ne.symm target]

theorem staysFinal_call (hash : String) (block : Block) (engine : PbftEngine) (call : EngineCall)
    (final : StaysFinal hash block engine) :
    StaysFinal hash block (engine.call crates call) ↔ Harmless crates hash engine call := by
  obtain ⟨round,found,phase,header,transactions⟩ := (staysFinal_iff hash block engine).mp final
  cases call with
  | startRound now opened set => exact (startRound_keeps block now opened set).trans (and_iff_left final)
  | prepare now other id sig =>
    simp only [Harmless,iff_true,PbftEngine.call,PbftEngine.prepare,staysFinal_iff,lookup_onRound,found]
    split_ifs
    · exact ⟨round,by simp [receivePrepare_finalised phase],phase,header,transactions⟩
    · exact ⟨round,rfl,phase,header,transactions⟩
  | commit other id sig =>
    simp only [Harmless,iff_true,PbftEngine.call,PbftEngine.commit,staysFinal_iff,lookup_onRound,found]
    split_ifs
    · exact ⟨round,by simp [receiveCommit_finalised phase],phase,header,transactions⟩
    · exact ⟨round,rfl,phase,header,transactions⟩
  | receiveViewChange now other id newView =>
    simp only [Harmless,PbftEngine.call,PbftEngine.receiveViewChange,staysFinal_iff,lookup_onRound,found]
    by_cases same : hash = other
    · subst same
      have kept := round.call_block crates (.recordViewChange now id newView)
      simp only [PbftRound.call] at kept
      simp [recordViewChange_phase,phase,kept,header,transactions]
    · simp [same,Ne.symm same,phase,header,transactions]
  | timeoutRounds now =>
    simp only [Harmless,iff_true,PbftEngine.call,staysFinal_iff]
    exact ⟨round,timeoutRounds_lookup now found phase,phase,header,transactions⟩
  | cleanupStaleRounds now =>
    simp only [Harmless,PbftEngine.call,staysFinal_iff,cleanupStaleRounds_lookup,found]
    by_cases gone : hash ∈ engine.stale now <;> simp [gone,phase,header,transactions]

end

/-- A finalised block survives a sequence of calls exactly if every call is harmless
in the state in which it is made. -/
theorem finality_stable_iff (crates : Crates) (engine : PbftEngine) (calls : List EngineCall) (hash : String)
    (block : Block) (final : engine.getFinalisedBlock hash = some block) :
    Throughout (PbftEngine.call crates) (StaysFinal hash block) engine calls ↔
      Along (PbftEngine.call crates) (Harmless crates hash) engine calls :=
  throughout_iff_along (fun state call holds => staysFinal_call hash block state call holds) engine calls
    ⟨block,final,rfl,rfl⟩

theorem finality_stable_solo : Throughout (call crates)
    (StaysFinal (block.hash crates) {block with pbftSignatures := [signature "commit"]})
    engine [.timeoutRounds 100,.commit (block.hash crates) "v" (signature "commit")] :=
  (finality_stable_iff crates engine _ _ _ (by decide +kernel)).mpr ⟨trivial,trivial,trivial⟩

theorem finality_lost_on_restart :
    ¬∀ (crates : Crates) (engine : PbftEngine) (calls : List EngineCall) (hash : String) (block : Block),
      (∀ call ∈ calls, ∀ now, call ≠ .cleanupStaleRounds now) →
      engine.getFinalisedBlock hash = some block →
      ∃ final, (run (PbftEngine.call crates) engine calls).getFinalisedBlock hash = some final ∧
        final.header = block.header ∧ final.transactions = block.transactions := by
  intro stable
  obtain ⟨final,returned,_⟩ := stable crates engine [.startRound 1 block validators]
    (block.hash crates) {block with pbftSignatures := [signature "commit"]}
    (by simp) (by decide +kernel)
  have lost : (run (PbftEngine.call crates) engine
      [.startRound 1 block validators]).getFinalisedBlock (block.hash crates) = none := by
    decide +kernel
  rw [lost] at returned
  cases returned

end ChainRegistry
