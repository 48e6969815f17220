import ChainRegistry.Network.RoundTally

/-! The order in which the messages about a block reach a node. The engine keeps no
message that comes before its phase; which orders lead to a finalised block is what the
general collector says. -/
namespace ChainRegistry
open Lib Runs Phases List Option Finset NodeState ValidatorSet PbftEngine Ideal

variable {sig : BlockSignature}

def heard (crates : Crates) (start : NodeState) (block : Block) (tally : Option (Tally String)) (message : GossipMessage) :
    Option (Tally String) :=
  match start.ballot crates block message with
  | none => tally
  | some ballot => step start.quorum (start.ownVoters crates block "prepare") tally ballot

theorem heard_none {crates : Crates} {start : NodeState} {block : Block} {tally : Option (Tally String)}
    {message : GossipMessage} (lost : start.ballot crates block message = none) :
    heard crates start block tally message = tally := by
  rw [heard,lost]

theorem heard_opening {crates : Crates} {start : NodeState} {block proposed : Block} {tally : Option (Tally String)}
    (same : proposed.hash crates = block.hash crates) (fit : start.accepts crates proposed) :
    heard crates start block tally (.pbftPrePrepare proposed) =
      some (.opened start.quorum (start.ownVoters crates block "prepare")) := by
  rw [heard,ballot,if_pos ⟨same,fit⟩]
  cases tally <;> rfl

section
variable {crates : Crates} {start : NodeState} {block : Block} {tally : Option (Tally String)} {message : GossipMessage}
  {phase hash id signature : String} {vote : Ballot String}

theorem heard_invalid (ballot : start.ballot crates block message =
      if hash = block.hash crates ∧ start.countsMessage crates block phase id signature = true then some vote else none)
    {e : PbftValidationError} (invalid : validatePbftPhaseMessage crates start.validatorSet phase hash id signature = .error e) :
    heard crates start block tally message = tally := by
  apply heard_none
  rw [ballot,if_neg]
  intro ⟨same,counted⟩
  rw [countsMessage,← same,invalid] at counted
  cases counted

theorem heard_valid (ballot : start.ballot crates block message =
      if block.hash crates = block.hash crates ∧ start.countsMessage crates block phase id signature =
        true then some vote else none)
    (valid : validatePbftPhaseMessage crates start.validatorSet phase (block.hash crates) id signature = .ok sig) :
    heard crates start block tally message = if start.counts crates block phase sig = true then
      step start.quorum (start.ownVoters crates block "prepare") tally vote else tally := by
  rw [heard,ballot,countsMessage,valid]
  by_cases counted : start.counts crates block phase sig
  · rw [if_pos ⟨rfl,counted⟩,if_pos counted]
  · rw [if_neg (fun both => counted both.2),if_neg counted]

end

structure Follows (crates : Crates) (start : NodeState) (block : Block) (tally : Option (Tally String)) (state : NodeState) :
    Prop where
  config : state.config = start.config
  set : state.validatorSet = start.validatorSet
  pbft : state.pbftEngine.config = start.pbftEngine.config
  round : Option.Rel (Mirrors crates start block) (state.pbftEngine.rounds.lookup (block.hash crates)) tally
  sound : ∀ t ∈ tally, t.Sound start.quorum (start.ownVoters crates block "prepare")
  stored : ∀ t ∈ tally, t.phase = .decided → (state.chain.getBlockByHash (block.hash crates)).isSome

namespace Follows
variable {crates : Crates} {start state : NodeState} {block : Block} {tally : Option (Tally String)} {engine : PbftEngine}
  {round : PbftRound}

section
variable (follows : Follows crates start block tally state)
include follows

theorem apart (same : engine.rounds.lookup (block.hash crates) = state.pbftEngine.rounds.lookup (block.hash crates))
    (config : engine.config = state.pbftEngine.config) :
    Follows crates start block tally (state.withEngine engine) :=
  ⟨follows.config,follows.set,config.trans follows.pbft,same ▸ follows.round,follows.sound,follows.stored⟩

theorem changed {next : Tally String}
    (found : engine.rounds.lookup (block.hash crates) = some round) (mirrors : Mirrors crates start block round next)
    (undecided : next.phase ≠ .decided) (sound : next.Sound start.quorum (start.ownVoters crates block "prepare"))
    (config : engine.config = state.pbftEngine.config) :
    Follows crates start block (some next) (state.withEngine engine) := by
  refine ⟨follows.config,follows.set,config.trans follows.pbft,?_,?_,?_⟩
  · rw [withEngine_pbftEngine,found]
    exact .some mirrors
  · intro t same
    cases same
    exact sound
  · intro t same decided
    cases same
    exact absurd decided undecided

theorem accepts_eq (proposed : Block) : state.accepts crates proposed = start.accepts crates proposed := by
  unfold accepts
  rw [follows.set,follows.pbft]

theorem onPrePrepare (clock : Clock) (proposed : Block) :
    Follows crates start block (heard crates start block tally (.pbftPrePrepare proposed))
      (state.onPrePrepare crates clock proposed).1 := by
  have accepts : start.accepts crates proposed = ((PbftRound.withConfig clock.instant proposed
      (ofCommon state.validatorSet) state.pbftEngine.config).checkProposer crates
        proposed.header.proposerId).isOk := (follows.accepts_eq proposed).symm
  unfold NodeState.onPrePrepare
  obtain ⟨e,failed,refused⟩ | ⟨passed,opened⟩ := startRound_cases crates state.pbftEngine clock.instant
    proposed (ofCommon state.validatorSet)
  · rw [failed] at accepts
    rw [refused,heard_none (by simp [ballot,accepts,Except.isOk,Except.toBool])]
    exact follows
  · rw [passed] at accepts
    have fit : start.accepts crates proposed := accepts
    obtain ⟨round,begun⟩ : ∃ round, round = PbftRound.opened clock.instant proposed
      (ofCommon state.validatorSet) state.pbftEngine.config := ⟨_,rfl⟩
    rw [opened,← begun,follows.config]
    dsimp only
    by_cases same : proposed.hash crates = block.hash crates
    · have mirrors : Mirrors crates start block round ⟨.preparing,∅,∅⟩ := by
        rw [begun]
        exact ⟨same,by rw [follows.set]; rfl,follows.pbft,rfl,rfl,rfl⟩
      rw [same,heard_opening same fit]
      have found : (state.pbftEngine.withRound (block.hash crates) round).rounds.lookup (block.hash crates) = some round := by
        simp
      obtain ⟨keyless,keyed⟩ := own_prepare found mirrors (quorum_pos fit) clock.instant
      have undecided : (Tally.opened start.quorum (start.ownVoters crates block "prepare")).phase ≠ .decided := by
        unfold Tally.opened
        split_ifs <;> simp
      cases signed : start.config.signPhase crates "prepare" (block.hash crates) with
      | none => exact follows.changed found (keyless signed) undecided .opened rfl
      | some own =>
        obtain ⟨next,later,after⟩ := keyed own signed
        exact follows.changed later after undecided .opened (config_onRound _ _ _)
    · rw [heard_none (by simp [ballot,same])]
      have apart : (state.pbftEngine.withRound (proposed.hash crates) round).rounds.lookup (block.hash crates) =
          state.pbftEngine.rounds.lookup (block.hash crates) := by
        rw [lookup_withRound,if_neg (Ne.symm same)]
      cases signed : start.config.signPhase crates "prepare" (proposed.hash crates) with
      | none => exact follows.apart apart rfl
      | some own =>
        refine follows.apart ?_ (config_onRound _ _ _)
        rw [PbftEngine.prepare,lookup_onRound,if_neg (Ne.symm same)]
        exact apart

end

theorem stay (found : state.pbftEngine.rounds.lookup (block.hash crates) = some round) :
    (state.pbftEngine.withRound (block.hash crates) round).rounds.lookup (block.hash crates) =
      state.pbftEngine.rounds.lookup (block.hash crates) := by
  rw [lookup_withRound,if_pos rfl,found]

theorem prepareEntry (correct : crates.SignaturesCorrect) (follows : Follows crates start block tally state) (clock : Clock)
    {signature : String} (valid : validatePbftPhaseMessage crates start.validatorSet "prepare"
      (block.hash crates) sig.validatorId signature = .ok sig) :
    Follows crates start block
      (if start.counts crates block "prepare" sig then
        step start.quorum (start.ownVoters crates block "prepare") tally (.prepare sig.validatorId) else tally)
      (state.onPrepare crates clock start.validatorSet (block.hash crates) sig.validatorId signature).1 := by
  have rel := follows.round
  unfold NodeState.onPrepare PbftEngine.prepare
  rw [valid,follows.config]
  dsimp only
  cases found : state.pbftEngine.rounds.lookup (block.hash crates) with
  | none =>
    -- no round yet: the vote is lost
    rw [found] at rel
    cases rel
    simp only [PbftEngine.onRound,found,step,ite_self]
    exact follows.apart rfl rfl
  | some round =>
    rw [found] at rel
    cases rel with
    | some mirrors =>
      rename_i tally
      rw [PbftEngine.onRound_found _ _ found]
      obtain ⟨e,refused,lost⟩ | ⟨⟨preparing,counted⟩,next,received,after⟩ := mirrors.receivePrepare sig clock.instant
      · have same : (if start.counts crates block "prepare" sig = true then
            step start.quorum (start.ownVoters crates block "prepare") (some tally) (.prepare sig.validatorId)
            else some tally) = some tally := by
          split_ifs with counted
          · rw [step,Tally.step,Tally.enterPrepare,if_neg (fun preparing => lost ⟨preparing,counted⟩)]
          · rfl
        rw [refused,same]
        exact follows.apart (stay found) rfl
      · obtain ⟨empty,within,few⟩ := follows.sound tally rfl preparing
        have sound := (follows.sound tally rfl).step (.prepare sig.validatorId)
        have begun : (state.pbftEngine.withRound (block.hash crates) next).rounds.lookup (block.hash crates) = some next := by
          simp
        rw [if_pos counted,received]
        simp only [step,Tally.step,Tally.enterPrepare,preparing,if_true] at sound ⊢
        by_cases enough : start.quorum ≤ (insert sig.validatorId tally.prepared).card
        · simp only [enough,decide_true,if_true,empty] at after sound ⊢
          obtain ⟨keyless,keyed⟩ := own_commit correct begun after ((card_le_card within).trans_lt few)
          cases signed : start.config.signPhase crates "commit" (block.hash crates) with
          | none => exact follows.changed begun (keyless signed) (by simp) sound rfl
          | some own =>
            obtain ⟨last,later,final⟩ := keyed own signed
            exact follows.changed later final (by simp) sound (PbftEngine.config_onRound _ _ _)
        · simp only [enough,decide_false,if_false] at after sound ⊢
          exact follows.changed begun after (by simp) sound rfl

theorem elsewhere {hash : String} {method : PbftRound → PbftRound × Except String Bool} {engine : PbftEngine}
    {result : Except String Bool} (follows : Follows crates start block tally state) (other : ¬hash = block.hash crates)
    (done : state.pbftEngine.onRound hash method = (engine,result)) :
      Follows crates start block tally (state.withEngine engine) := by
  have lookup := lookup_onRound state.pbftEngine (block.hash crates) hash method
  have config := config_onRound state.pbftEngine hash method
  rw [done] at lookup config
  rw [if_neg (Ne.symm other)] at lookup
  exact follows.apart lookup config

theorem onPrepare (correct : crates.SignaturesCorrect) (follows : Follows crates start block tally state) (clock : Clock)
    (hash id signature : String) :
    Follows crates start block (heard crates start block tally (.pbftPrepare hash id signature))
      (state.onPrepare crates clock start.validatorSet hash id signature).1 := by
  cases valid : validatePbftPhaseMessage crates start.validatorSet "prepare" hash id signature with
  | error e =>
    rw [heard_invalid rfl valid,NodeState.onPrepare,valid]
    exact follows
  | ok sig =>
    obtain rfl := (validated_fields valid).1
    by_cases same : hash = block.hash crates
    · subst same
      rw [heard_valid rfl valid]
      exact follows.prepareEntry correct clock valid
    · rw [heard_none (by simp [ballot,same]),NodeState.onPrepare,valid]
      dsimp only
      split
      · rename_i engine reached
        have kept := follows.elsewhere same reached
        cases signed : state.config.signPhase crates "commit" hash with
        | none => exact kept
        | some own => exact kept.elsewhere same rfl
      · rename_i engine result _ reached
        exact follows.elsewhere same reached

theorem insertFinalised_stored (clock : Clock) (hash : String) : ((state.chain.getBlockByHash (block.hash crates)).isSome →
      ((state.insertFinalised crates clock false hash).chain.getBlockByHash (block.hash crates)).isSome) ∧
    ∀ final, state.pbftEngine.getFinalisedBlock hash = some final → final.hash crates = block.hash crates →
      ((state.insertFinalised crates clock false hash).chain.getBlockByHash (block.hash crates)).isSome := by
  cases found : state.pbftEngine.getFinalisedBlock hash with
  | none =>
    rw [insertFinalised_none crates clock false found]
    exact ⟨id,fun _ none => nomatch none⟩
  | some final =>
    obtain ⟨reorgs,done⟩ := insertFinalised_some crates clock false found
    simp only [done,Bool.false_eq_true,if_false,ChainStore.getBlockByHash,ChainStore.insertBlock,Table.lookup_insert_eq]
    constructor
    · intro stored
      split_ifs
      · rfl
      · exact stored
    · intro other same hashes
      cases same
      rw [if_pos hashes.symm]
      rfl

section
variable (follows : Follows crates start block tally state) (clock : Clock)
include follows clock

theorem insertFinalised (hash : String) : Follows crates start block tally (state.insertFinalised crates clock false hash) := by
  obtain ⟨engine,config,set⟩ := insertFinalised_untouched clock false crates hash state
  refine ⟨config.trans follows.config,set.trans follows.set,by rw [engine,follows.pbft],by rw [engine]; exact follows.round,
    follows.sound,?_⟩
  intro t inside decided
  exact (insertFinalised_stored clock hash).1 (follows.stored t inside decided)

theorem commitEntry {signature : String} (valid : validatePbftPhaseMessage crates start.validatorSet "commit" (block.hash crates)
      sig.validatorId signature = .ok sig) :
    Follows crates start block
      (if start.counts crates block "commit" sig then
        step start.quorum (start.ownVoters crates block "prepare") tally (.commit sig.validatorId) else tally)
      (state.onCommit crates clock start.validatorSet false (block.hash crates) sig.validatorId signature) := by
  have rel := follows.round
  unfold NodeState.onCommit PbftEngine.commit
  rw [valid]
  dsimp only
  cases found : state.pbftEngine.rounds.lookup (block.hash crates) with
  | none =>
    rw [found] at rel
    cases rel
    simp only [PbftEngine.onRound,found,step,ite_self]
    exact follows.apart rfl rfl
  | some round =>
    rw [found] at rel
    cases rel with
    | some mirrors =>
      rename_i tally
      rw [PbftEngine.onRound_found _ _ found]
      obtain ⟨e,refused,lost⟩ | ⟨⟨committing,counted⟩,next,received,after⟩ := mirrors.receiveCommit sig
      · have same : (if start.counts crates block "commit" sig = true then
            step start.quorum (start.ownVoters crates block "prepare") (some tally) (.commit sig.validatorId)
            else some tally) = some tally := by
          split_ifs with counted
          · rw [step,Tally.step,Tally.enterCommit,if_neg (fun committing => lost ⟨committing,counted⟩)]
          · rfl
        rw [refused,same]
        exact follows.apart (stay found) rfl
      · have sound := (follows.sound tally rfl).step (.commit sig.validatorId)
        have begun : (state.pbftEngine.withRound (block.hash crates) next).rounds.lookup (block.hash crates) = some next := by
          simp
        rw [if_pos counted,received]
        simp only [step,Tally.step,Tally.enterCommit,committing,if_true] at sound ⊢
        by_cases enough : start.quorum ≤ (insert sig.validatorId tally.committed).card
        · simp only [enough,decide_true,if_true] at after sound ⊢
          have final : (state.withEngine (state.pbftEngine.withRound (block.hash crates) next)).pbftEngine.getFinalisedBlock
              (block.hash crates) = some {next.block with pbftSignatures := next.finalisedSignatures} := by
            simp [PbftEngine.getFinalisedBlock,after.phase]
          obtain ⟨engine,config,set⟩ := NodeState.insertFinalised_untouched clock false crates (block.hash crates)
            (state.withEngine (state.pbftEngine.withRound (block.hash crates) next))
          refine ⟨config.trans follows.config,set.trans follows.set,by rw [engine]; exact follows.pbft,?_,?_,?_⟩
          · rw [engine,NodeState.withEngine_pbftEngine,begun]
            exact .some after
          · intro t same
            cases same
            exact sound
          · intro t _ _
            exact (insertFinalised_stored clock (block.hash crates)).2 _ final after.hash
        · simp only [enough,decide_false,if_false] at after sound ⊢
          exact follows.changed begun after (by simp) sound rfl

theorem onCommit (hash id signature : String) :
    Follows crates start block (heard crates start block tally (.pbftCommit hash id signature))
      (state.onCommit crates clock start.validatorSet false hash id signature) := by
  cases valid : validatePbftPhaseMessage crates start.validatorSet "commit" hash id signature with
  | error e =>
    rw [heard_invalid rfl valid,NodeState.onCommit,valid]
    exact follows
  | ok sig =>
    obtain rfl := (validated_fields valid).1
    by_cases same : hash = block.hash crates
    · subst same
      rw [heard_valid rfl valid]
      exact follows.commitEntry clock valid
    · rw [heard_none (by simp [ballot,same]),NodeState.onCommit,valid]
      dsimp only
      split
      · rename_i engine reached
        exact (follows.elsewhere same reached).insertFinalised clock hash
      · rename_i engine result _ reached
        exact follows.elsewhere same reached

end

theorem onBlocks (correct : crates.SignaturesCorrect) (follows : Follows crates start block tally state) (clock : Clock)
    (message : GossipMessage) :
    Follows crates start block (heard crates start block tally message)
      (state.onBlocks crates clock start.validatorSet false message).1 := by
  cases message with
  | pbftPrePrepare proposed => exact follows.onPrePrepare clock proposed
  | pbftPrepare hash id signature => exact follows.onPrepare correct clock hash id signature
  | pbftCommit hash id signature => exact follows.onCommit clock hash id signature
  | _ => exact follows

theorem finalised_iff (follows : Follows crates start block tally state) :
    (state.pbftEngine.getFinalisedBlock (block.hash crates)).isSome ↔ tally.map Tally.phase = some .decided := by
  have rel := follows.round
  unfold getFinalisedBlock
  cases found : state.pbftEngine.rounds.lookup (block.hash crates) with
  | none =>
    rw [found] at rel
    cases rel
    simp
  | some round =>
    rw [found] at rel
    cases rel with
    | some mirrors =>
      simp only [mirrors.phase,map_some,Option.some.injEq]
      split <;> simp_all

end Follows

def received (set : Validators) (messages : List (Clock × GossipMessage)) : List NodeEvent :=
  messages.map fun message => .blocks message.1 set false message.2

section
variable {crates : Crates}

theorem Follows.run (correct : crates.SignaturesCorrect) {start : NodeState} {block : Block} {tally : Option (Tally String)}
    {node : Node crates} (follows : Follows crates start block tally node.state) (messages : List (Clock × GossipMessage)) :
    Follows crates start block (run (heard crates start block) tally (messages.map Prod.snd))
      (run Node.next node (received start.validatorSet messages)).state := by
  induction messages generalizing tally node with
  | nil => exact follows
  | cons message messages ih => exact ih (follows.onBlocks correct message.1 message.2)

theorem run_heard (start : NodeState) (block : Block) (tally : Option (Tally String)) (messages : List GossipMessage) :
    run (heard crates start block) tally messages =
      run (step start.quorum (start.ownVoters crates block "prepare")) tally
        (messages.filterMap (start.ballot crates block)) := by
  induction messages generalizing tally with
  | nil => rfl
  | cons message messages ih =>
    rw [run_cons,ih,heard,filterMap_cons]
    cases start.ballot crates block message <;> rfl

/-- A block is finalised and stored exactly if its messages come in the order of the phases. -/
theorem finalised_iff_inOrder (correct : crates.SignaturesCorrect) (node : Node crates) (block : Block)
    (fresh : node.state.pbftEngine.rounds.lookup (block.hash crates) = none) (messages : List (Clock × GossipMessage)) :
    let last := (run Node.next node (received node.state.validatorSet messages)).state
    ((last.pbftEngine.getFinalisedBlock (block.hash crates)).isSome ∧ (last.chain.getBlockByHash (block.hash crates)).isSome) ↔
      InOrder node.state.quorum (node.state.ownVoters crates block "prepare")
        ((messages.map Prod.snd).filterMap (node.state.ballot crates block)) := by
  intro last
  have begin : Follows crates node.state block none node.state :=
    ⟨rfl,rfl,rfl,by rw [fresh]; exact .none,by simp,by simp⟩
  have follows := begin.run correct messages
  have positive : .opening ∈ (messages.map Prod.snd).filterMap (node.state.ballot crates block) → 0 < node.state.quorum := by
    intro opening
    obtain ⟨message,_,opens⟩ := List.mem_filterMap.mp opening
    cases message with
    | pbftPrePrepare proposed =>
      rw [ballot] at opens
      split_ifs at opens with fits
      exact quorum_pos fits.2
    | pbftPrepare | pbftCommit =>
      rw [ballot] at opens
      split_ifs at opens
      cases opens
    | _ => cases opens
  rw [← decided_iff positive,← run_heard,← follows.finalised_iff]
  refine ⟨fun both => both.1,fun final => ⟨final,?_⟩⟩
  obtain ⟨tally,same,decided⟩ := map_eq_some_iff.mp (follows.finalised_iff.mp final)
  exact follows.stored tally same decided

end

namespace Quartet
def plain : Block := block 1 "m" []

def plainCrates : Crates := Ideal.crates [Block.genesis.header,plain.header] checksum

def votes (phases : List (String → UInt8 → Block → GossipMessage)) : List (Clock × GossipMessage) :=
  (⟨0,0⟩,.pbftPrePrepare plain) :: phases.flatMap fun phase =>
    [(⟨0,0⟩,phase "a" 1 plain),(⟨0,0⟩,phase "c" 3 plain),(⟨0,0⟩,phase "d" 4 plain)]

end Quartet
open Quartet

theorem quartet_in_order : ((run Node.next (start plainCrates "b") (received deployment.validators
    (votes [prepare plainCrates,commit plainCrates]))).state.chain.getBlockByHash
      (plain.hash plainCrates)).isSome := by
  refine ((finalised_iff_inOrder (signaturesCorrect _ _) (start plainCrates "b") plain rfl
    (votes [prepare plainCrates,commit plainCrates])).mpr ?_).2
  have quorum : (start plainCrates "b").state.quorum = 3 := by decide +kernel
  have ballots : ((votes [prepare plainCrates,commit plainCrates]).map
      Prod.snd).filterMap ((start plainCrates "b").state.ballot plainCrates plain) =
        [] ++ .opening :: ([.prepare "a",.prepare "c",.prepare "d"] ++ [.commit "a",.commit "c",.commit "d"]) := by
    decide +kernel
  refine ⟨[],_,_,ballots,by decide,?_,?_⟩
  · rw [quorum]
    exact (by decide : 3 ≤ (preparers [Ballot.prepare "a",.prepare "c",.prepare "d"]).card).trans
      (card_le_card subset_union_right)
  · rw [quorum]
    exact (by decide : 3 ≤ (committers [Ballot.commit "a",.commit "c",.commit "d"]).card).trans
      (card_le_card subset_union_right)

theorem commits_lost_before_prepares :
    ¬∀ (crates : Crates), crates.CollisionFree → crates.SignaturesCorrect → ∀ (node : Node crates) (block : Block) messages,
      node.state.pbftEngine.rounds.lookup (block.hash crates) = none → node.state.accepts crates block →
      (∃ clock, (clock,.pbftPrePrepare block) ∈ messages) →
      node.state.quorum ≤
        (preparers ((messages.map Prod.snd).filterMap (node.state.ballot crates block))).card →
      node.state.quorum ≤
        (committers ((messages.map Prod.snd).filterMap (node.state.ballot crates block))).card →
      ((run Node.next node (received node.state.validatorSet messages)).state.pbftEngine.getFinalisedBlock
        (block.hash crates)).isSome ∧
      ((run Node.next node (received node.state.validatorSet messages)).state.chain.getBlockByHash
        (block.hash crates)).isSome := by
  intro claimed
  have final := claimed plainCrates (collisionFree _ _) (signaturesCorrect _ _)
    (start plainCrates "b") plain
    (votes [commit plainCrates,prepare plainCrates]) rfl (by decide +kernel)
    ⟨⟨0,0⟩,List.mem_cons_self⟩ (by decide +kernel) (by decide +kernel)
  have lost : ((run Node.next (start plainCrates "b") (received deployment.validators
      (votes [commit plainCrates,prepare plainCrates]))).state.pbftEngine.getFinalisedBlock
        (plain.hash plainCrates)).isSome = false := by decide +kernel
  exact Bool.false_ne_true (lost.symm.trans final.1)

end ChainRegistry
