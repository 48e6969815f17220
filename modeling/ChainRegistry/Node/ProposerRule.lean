import ChainRegistry.Consensus.PbftCalls
import ChainRegistry.Consensus.ProposerRanking
import ChainRegistry.Node.Machine

/-! Who may propose: the ranks by which `produce_block` decides, and the single choice
by which a round decides when it is opened. The nodes share the validator set, but not
the order in which their hash maps list it. -/
namespace ChainRegistry
open Lib Fallible List Text Table

variable (configured : Option Nat)

/-- `CREG_PROPOSER_FALLBACK_SECS` as parsed, or twice the block interval. -/
def fallbackWindowSecs (blockInterval : Nat) : Nat :=
  match configured.filter (0 < ·) with
  | some seconds => seconds
  | none => max (min (blockInterval * 2) 18446744073709551615) 1

/-- Each window that has passed since the tip moved lets one more rank propose. -/
def allowedFallbackRank (blockInterval stallSecs : Nat) : Nat :=
  stallSecs / fallbackWindowSecs configured blockInterval

namespace Vrf
variable (crates : Crates)

def proposerScore (seed : String) (v : ValidatorInfo) : String := sha256Text crates (v.pubkey ++ ":" ++ seed)

def SignsFor (seed privkey pubkey : String) : Prop :=
  ∃ key bytes, hexDecode (trim privkey) = .ok key ∧ hexDecode pubkey = .ok bytes ∧
    crates.verifyingKey bytes = .ok () ∧ crates.signatureFormat (crates.sign key (Text.bytes seed)) = .ok () ∧
    crates.verify bytes (Text.bytes seed) (crates.sign key (Text.bytes seed)) = .ok ()

theorem prove_ok {seed : List UInt8} {privkey output proof : String} (made : prove crates seed privkey = .ok (output,proof)) :
    ∃ key, hexDecode (trim privkey) = .ok key ∧ output = crates.sha256Hex (crates.sign key seed) ∧
      proof = hexEncode (crates.sign key seed) := by
  simp only [prove,bind_ok,check_ok,pair_ok] at made
  obtain ⟨key,decoded,_,rfl,rfl⟩ := made
  exact ⟨key,decoded,rfl,rfl⟩

theorem verify_prove {seed privkey pubkey output proof : String} (made : prove crates (bytes seed) privkey = .ok (output,proof)) :
    verify crates (bytes seed) pubkey output proof = .ok () ↔ SignsFor crates seed privkey pubkey := by
  obtain ⟨key,decoded,rfl,rfl⟩ := prove_ok crates made
  simp only [verify,SignsFor,bind_ok,mapError_ok,hexDecode_hexEncode,decoded,Except.ok.injEq,
    exists_eq_left',Unique.exists_iff,PUnit.default_eq_unit]
  simp

end Vrf

def ValidatorSet.SameAs (set other : ValidatorSet) : Prop := set.validators.entries.Perm other.validators.entries

namespace ValidatorSet
variable {set other : ValidatorSet}

theorem SameAs.lookup (same : set.SameAs other) (id : String) : set.validators.lookup id = other.validators.lookup id :=
  AList.perm_lookup same

theorem SameAs.mem_active (same : set.SameAs other) (v : ValidatorInfo) : v ∈ set.active ↔ v ∈ other.active := by
  simp only [active,mem_filter,mem_values_iff,same.lookup]

theorem mem_active_iff (set : ValidatorSet) (v : ValidatorInfo) :
    v ∈ set.active ↔ (∃ id, set.validators.lookup id = some v) ∧ v.isActive := by
  rw [active,mem_filter,mem_values_iff]

def Keyed (set : ValidatorSet) : Prop := ∀ id v, set.validators.lookup id = some v → v.id = id

theorem Keyed.add (keyed : set.Keyed) (info : ValidatorInfo) : (set.add info).Keyed := by
  intro id v found
  simp only [ValidatorSet.add,lookup_insert_eq] at found
  split_ifs at found with same
  · cases found
    exact same.symm
  · exact keyed id v found

theorem keyed_ofCommon (validators : Validators) : (ofCommon validators).Keyed := by
  refine List.foldlRecOn validators _ ?_ ?_
  · intro id v found
    simp [new] at found
  · intro set keyed v _
    exact keyed.add v.info

theorem exists_first (set : ValidatorSet) {v : ValidatorInfo} (inside : v ∈ set.active) :
    ∃ order : ValidatorSet, order.SameAs set ∧ ∃ rest, order.active = v :: rest := by
  obtain ⟨⟨id,found⟩,isActive⟩ := (set.mem_active_iff v).mp inside
  have listed : (⟨id,v⟩ : (_ : String) × ValidatorInfo) ∈ set.validators.entries := AList.mem_lookup_iff.mp found
  have perm := perm_cons_erase listed
  refine ⟨⟨⟨_ :: set.validators.entries.erase ⟨id,v⟩,(perm_nodupKeys perm).mp set.validators.nodupKeys⟩⟩,perm.symm,?_⟩
  refine ⟨((set.validators.entries.erase ⟨id,v⟩).map Sigma.snd).filter ValidatorInfo.isActive,?_⟩
  simp [active,values,isActive]

end ValidatorSet

namespace PbftRound
variable (crates : Crates)

theorem checkSelected_ok_iff (round : PbftRound) (id : String) :
    round.checkSelected crates id = .ok () ↔ ∃ score, Vrf.lowestScore (round.validatorSet.active.map fun v =>
      (v.id,Vrf.proposerScore crates round.block.header.prevHash v)) = some (id,score) := by
  have scores : (round.validatorSet.active.map fun v => (⟨v.id,v.pubkey,none,none⟩ : Vrf.VrfValidator)).map
      (Vrf.scored crates round.block.header.prevHash) =
        round.validatorSet.active.map fun v => (v.id,Vrf.proposerScore crates round.block.header.prevHash v) := by
    rw [map_map]
    rfl
  simp only [checkSelected,Vrf.selectProposerDeterministic,scores]
  cases Vrf.lowestScore (round.validatorSet.active.map fun v =>
      (v.id,Vrf.proposerScore crates round.block.header.prevHash v)) with
  | none => simp
  | some best =>
    obtain ⟨winner,score⟩ := best
    by_cases won : winner = id <;> simp [won]

theorem checkVrf_ok_iff {round : PbftRound} {id output proof : String} {own : ValidatorInfo}
    (hasOutput : round.block.header.vrfOutput = some output) (hasProof : round.block.header.vrfProof = some proof)
    (listed : round.validatorSet.validators.lookup id = some own) :
    round.checkVrf crates id = .ok () ↔
      Vrf.verify crates (bytes round.block.header.prevHash) own.pubkey output proof = .ok () := by
  simp only [checkVrf,hasOutput,hasProof,listed,mapError_ok]

theorem checkProposer_ok_iff (round : PbftRound) (id : String) :
    round.checkProposer crates id = .ok () ↔ round.validatorSet.isMember id ∧
      round.checkVrf crates id = .ok () ∧ round.checkSelected crates id = .ok () := by
  simp only [checkProposer,bind_ok,check_ok,Unique.exists_iff,PUnit.default_eq_unit]
  simp

end PbftRound

theorem ValidatorSet.isMember_iff_lookup (set : ValidatorSet) (id : String) :
    set.isMember id ↔ ∃ own, set.validators.lookup id = some own ∧ own.isActive := by
  unfold isMember
  cases set.validators.lookup id <;> simp

theorem PbftEngine.startRound_isOk_iff (crates : Crates) (engine : PbftEngine) (now : Nat) (block : Block)
    (set : ValidatorSet) : (engine.startRound crates now block set).2.isOk ↔
      (PbftRound.withConfig now block set engine.config).checkProposer crates block.header.proposerId = .ok () := by
  rw [isOk_iff]
  obtain ⟨e,failed,refused⟩ | ⟨passed,opened⟩ := engine.startRound_cases crates now block set
  · simp [refused,failed]
  · simp [opened,passed]

theorem ValidatorSet.selects_always_iff (crates : Crates) {set : ValidatorSet} (keyed : set.Keyed) {own : ValidatorInfo}
    (seed : String) (inside : own ∈ set.active) :
    (∀ order : ValidatorSet, order.SameAs set → ∃ score, Vrf.lowestScore
        (order.active.map fun v => (v.id,Vrf.proposerScore crates seed v)) = some (own.id,score)) ↔
      ∀ v ∈ set.active, v.id ≠ own.id → Vrf.proposerScore crates seed own < Vrf.proposerScore crates seed v := by
  have sole : ∀ v ∈ set.active, v.id = own.id → v = own := by
    intro v member same
    obtain ⟨⟨id,found⟩,_⟩ := (set.mem_active_iff v).mp member
    obtain ⟨⟨other,found'⟩,_⟩ := (set.mem_active_iff own).mp inside
    rw [← keyed id v found,same] at found
    rw [← keyed other own found',found] at found'
    exact Option.some.inj found'
  constructor
  · intro always v member apart
    by_contra notBelow
    obtain ⟨order,same,rest,first⟩ := set.exists_first member
    obtain ⟨score,best⟩ := always order same
    have least := Vrf.lowestScore_le best
    -- the winner is the entry of the node itself, so its score is the least one
    obtain ⟨winner,won,named⟩ := mem_map.mp (Vrf.lowestScore_mem best)
    obtain ⟨name,scored⟩ := Prod.mk.inj named
    rw [sole winner ((same.mem_active winner).mp won) name] at scored
    subst scored
    have equal := String.le_antisymm (least _ (mem_map.mpr ⟨v,(same.mem_active v).mpr member,rfl⟩))
      (String.not_lt.mp notBelow)
    rw [first,map_cons,Vrf.lowestScore_first,Option.some.injEq,Prod.mk.injEq] at best
    · exact apart best.1
    · intro other later
      rw [← equal]
      exact least other (by rw [first]; exact mem_cons_of_mem _ later)
  · intro below order same
    have listed : (own.id,Vrf.proposerScore crates seed own) ∈
        order.active.map fun v => (v.id,Vrf.proposerScore crates seed v) :=
      mem_map.mpr ⟨own,(same.mem_active own).mpr inside,rfl⟩
    obtain ⟨best,found⟩ := Vrf.lowestScore_isSome listed
    obtain ⟨winner,won,rfl⟩ := mem_map.mp (Vrf.lowestScore_mem found)
    have least := Vrf.lowestScore_le found _ listed
    by_cases name : winner.id = own.id
    · exact ⟨_,by rw [found,name]⟩
    · have less := below winner ((same.mem_active winner).mp won) name
      exact absurd less (String.not_lt.mpr least)

namespace NodeState
variable (crates : Crates)

theorem produceSelect_ok {state : NodeState} {rank : Nat} {snapshot : Snapshot} {output proof : String}
    (allowed : (state.produceSelect crates rank snapshot).2 = .ok (some output,some proof)) :
    ∃ privkey, state.config.validatorPrivkey = some privkey ∧
      Vrf.prove crates (bytes snapshot.prevHash) privkey = .ok (output,proof) ∧
      checkRank state.config.nodeId (Vrf.rankProposers crates
        (withOwnProof state.config.nodeId output proof state.activeProposers) snapshot.prevHash) rank = .ok () := by
  unfold produceSelect at allowed
  dsimp only at allowed
  split at allowed
  · rename_i privkey _ configured
    split at allowed
    · cases allowed
    · rename_i made
      simp only [map_ok,Prod.mk.injEq,Option.some.injEq] at allowed
      obtain ⟨_,ranked,rfl,rfl⟩ := allowed
      exact ⟨privkey,configured,made,ranked⟩
  · simp at allowed

/-- The entry of the node in its set is active and has its key, and its score over the
tip is below the score of every other active validator. -/
structure Leads (state : NodeState) (own : ValidatorInfo) : Prop where
  listed : (ValidatorSet.ofCommon state.validatorSet).validators.lookup state.config.nodeId = some own
  isActive : own.isActive
  key : ∃ privkey, state.config.validatorPrivkey = some privkey ∧
    Vrf.SignsFor crates (state.chain.tipHash crates) privkey own.pubkey
  first : ∀ v ∈ (ValidatorSet.ofCommon state.validatorSet).active, v.id ≠ state.config.nodeId →
    Vrf.proposerScore crates (state.chain.tipHash crates) own < Vrf.proposerScore crates (state.chain.tipHash crates) v

variable {crates}

theorem checkProposer_own_iff {state : NodeState} {privkey output proof : String} {round : PbftRound}
    (made : Vrf.prove crates (bytes (state.chain.tipHash crates)) privkey = .ok (output,proof))
    (same : round.validatorSet.SameAs (ValidatorSet.ofCommon state.validatorSet))
    (prevHash : round.block.header.prevHash = state.chain.tipHash crates)
    (hasOutput : round.block.header.vrfOutput = some output) (hasProof : round.block.header.vrfProof = some proof) :
    round.checkProposer crates state.config.nodeId = .ok () ↔
      ∃ own, (ValidatorSet.ofCommon state.validatorSet).validators.lookup state.config.nodeId = some own ∧
        own.isActive ∧ Vrf.SignsFor crates (state.chain.tipHash crates) privkey own.pubkey ∧
        ∃ score, Vrf.lowestScore (round.validatorSet.active.map fun v =>
          (v.id,Vrf.proposerScore crates (state.chain.tipHash crates) v)) = some (state.config.nodeId,score) := by
  rw [PbftRound.checkProposer_ok_iff,PbftRound.checkSelected_ok_iff,prevHash,ValidatorSet.isMember_iff_lookup,same.lookup]
  constructor
  · rintro ⟨⟨own,listed,isActive⟩,proved,selected⟩
    rw [PbftRound.checkVrf_ok_iff crates hasOutput hasProof (by rw [same.lookup,listed]),prevHash,
      Vrf.verify_prove crates made] at proved
    exact ⟨own,listed,isActive,proved,selected⟩
  · rintro ⟨own,listed,isActive,signs,selected⟩
    refine ⟨⟨own,listed,isActive⟩,?_,selected⟩
    rw [PbftRound.checkVrf_ok_iff crates hasOutput hasProof (by rw [same.lookup,listed]),prevHash,
      Vrf.verify_prove crates made]
    exact signs

/-- A block of a node that the ranks let proceed is accepted everywhere exactly if the
node is the first one alone: the fallback ranks are unknown to the rounds. -/
theorem proposal_accepted_iff (state : NodeState) (window : Option Nat) (blockInterval stallSecs : Nat)
    (txs : List Transaction) (clock : Clock) (output proof : String)
    (allowed : (state.produceSelect crates (allowedFallbackRank window blockInterval stallSecs)
      (state.produceSnapshot crates txs)).2 = .ok (some output,some proof)) :
    (∀ (engine : PbftEngine) (now : Nat) (set : ValidatorSet), set.SameAs (ValidatorSet.ofCommon state.validatorSet) →
      (engine.startRound crates now ((state.produceSnapshot crates txs).block crates clock state.config.nodeId
        (some output) (some proof)) set).2.isOk) ↔ ∃ own, state.Leads crates own := by
  obtain ⟨privkey,configured,made,_⟩ := produceSelect_ok crates allowed
  have opens (engine : PbftEngine) (now : Nat) (set : ValidatorSet)
      (same : set.SameAs (ValidatorSet.ofCommon state.validatorSet)) :=
    (engine.startRound_isOk_iff crates now ((state.produceSnapshot crates txs).block crates clock state.config.nodeId
      (some output) (some proof)) set).trans (checkProposer_own_iff made same rfl rfl rfl)
  have keyed := ValidatorSet.keyed_ofCommon state.validatorSet
  constructor
  · intro accepted
    obtain ⟨own,listed,isActive,signs,_⟩ := (opens state.pbftEngine 0 _ (List.Perm.refl _)).mp
      (accepted state.pbftEngine 0 _ (List.Perm.refl _))
    have named := keyed _ own listed
    refine ⟨own,listed,isActive,⟨privkey,configured,signs⟩,?_⟩
    rw [← named]
    apply (ValidatorSet.selects_always_iff crates keyed _
      ((ValidatorSet.mem_active_iff _ own).mpr ⟨⟨_,listed⟩,isActive⟩)).mp
    intro order same
    obtain ⟨_,_,_,_,selected⟩ := (opens state.pbftEngine 0 order same).mp (accepted state.pbftEngine 0 order same)
    rw [named]
    exact selected
  · rintro ⟨own,leads⟩ engine now set same
    obtain ⟨other,known,signs⟩ := leads.key
    rw [configured,Option.some.injEq] at known
    subst known
    have named := keyed _ own leads.listed
    refine (opens engine now set same).mpr ⟨own,leads.listed,leads.isActive,signs,?_⟩
    have below := leads.first
    rw [← named] at below ⊢
    exact (ValidatorSet.selects_always_iff crates keyed _
      ((ValidatorSet.mem_active_iff _ own).mpr ⟨⟨_,leads.listed⟩,leads.isActive⟩)).mpr below set same

end NodeState

namespace Duo
def crates : Crates := Ideal.crates [Block.genesis.header] Ideal.checksum

def members : Validators := [⟨"a","a","01","",100,100,"online"⟩,⟨"b","b","02","",100,100,"online"⟩]

def key (first : String) : String := first ++ String.ofList (List.replicate 62 '0')

def state (id first : String) : NodeState :=
  (Node.initial ⟨id,some (key first),true,false⟩ ⟨30,3,600,false⟩ members : Node crates).state

def proofOf (byte : UInt8) : String := hexEncode [byte,65]

def outputOf (byte : UInt8) : String := crates.sha256Hex [byte,65]

theorem leads_a : (state "a" "01").Leads crates ⟨"a","01",some "",100,100,true⟩ where
  listed := by decide +kernel
  isActive := rfl
  key := by
    refine ⟨key "01",rfl,1 :: List.replicate 31 0,[1],?_⟩
    decide +kernel
  first := by decide +kernel

end Duo
open Duo

theorem first_of_duo_accepted : ((state "a" "01").produceSelect crates (allowedFallbackRank none 5 0)
      ((state "a" "01").produceSnapshot crates [])).2 = .ok (some (outputOf 1),some (proofOf 1)) ∧
    ((state "b" "02").pbftEngine.startRound crates 0 (((state "a" "01").produceSnapshot crates []).block
      crates ⟨0,0⟩ "a" (some (outputOf 1)) (some (proofOf 1))) (ValidatorSet.ofCommon members)).2.isOk =
        true := by
  have allowed : ((state "a" "01").produceSelect crates (allowedFallbackRank none 5 0)
      ((state "a" "01").produceSnapshot crates [])).2 = .ok (some (outputOf 1),some (proofOf 1)) := by
    decide +kernel
  exact ⟨allowed,((state "a" "01").proposal_accepted_iff none 5 0 [] ⟨0,0⟩ _ _ allowed).mpr ⟨_,leads_a⟩ _ 0 _
    (List.Perm.refl _)⟩

theorem fallback_proposal_refused : ¬∀ (crates : Crates), crates.CollisionFree → crates.SignaturesCorrect →
    ∀ (state : NodeState) (window : Option Nat) (blockInterval stallSecs : Nat) (txs : List Transaction) (clock : Clock)
      (output proof : String), (state.produceSelect crates (allowedFallbackRank window blockInterval stallSecs)
        (state.produceSnapshot crates txs)).2 = .ok (some output,some proof) →
    ∀ (engine : PbftEngine) (now : Nat) (set : ValidatorSet), set.SameAs (ValidatorSet.ofCommon state.validatorSet) →
      (engine.startRound crates now ((state.produceSnapshot crates txs).block crates clock state.config.nodeId
        (some output) (some proof)) set).2.isOk := by
  intro claimed
  have allowed : ((state "b" "02").produceSelect crates (allowedFallbackRank none 5 10)
      ((state "b" "02").produceSnapshot crates [])).2 = .ok (some (outputOf 2),some (proofOf 2)) := by
    decide +kernel
  have accepted := claimed crates (Ideal.collisionFree _ _) (Ideal.signaturesCorrect _ _) (state "b" "02") none 5 10
    [] ⟨0,0⟩ _ _ allowed (state "b" "02").pbftEngine 0 _ (List.Perm.refl _)
  revert accepted
  decide +kernel

end ChainRegistry
