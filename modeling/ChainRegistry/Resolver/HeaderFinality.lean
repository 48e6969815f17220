import ChainRegistry.Consensus.PbftCalls
import ChainRegistry.Node.Machine
import ChainRegistry.Resolver.LightClient

/-! Finality on the two sides: a block that an engine finalises, against the client's check of its
header. The client counts every member of the set, the engine the active ones, and it reads the
variable for small clusters and the keys by other rules. -/
namespace ChainRegistry
open Lib Runs Fallible List Text Finset Function BlockSignature Table ValidatorSet PbftEngine

section
variable (crates : Crates)

def SignedCommit (blockHash pubkeyHex signatureHex : String) : Prop :=
  ∃ key sig, hexDecode pubkeyHex = .ok key ∧ crates.verifyingKey key = .ok () ∧
    hexDecode (trimStartHexMark signatureHex) = .ok sig ∧ crates.signatureFormat sig = .ok () ∧
    crates.verify key (bytes ("creg-pbft-v1:commit:" ++ blockHash)) sig = .ok ()

theorem verifyCommitSignature_iff (blockHash expectedPubkey : String) (sig : BlockSignature) :
    verifyCommitSignature crates blockHash expectedPubkey sig = .ok () ↔
      SignedCommit crates blockHash expectedPubkey sig.signature := by
  simp only [verifyCommitSignature,bind_ok,mapError_ok,SignedCommit]
  constructor
  · rintro ⟨key,decoded,_,accepted,data,signature,_,formatted,verified⟩
    exact ⟨key,data,decoded,accepted,signature,formatted,verified⟩
  · rintro ⟨key,data,decoded,accepted,signature,formatted,verified⟩
    exact ⟨key,decoded,(),accepted,data,signature,(),formatted,verified⟩

theorem signedPhase_commit (blockHash pubkeyHex signatureHex : String) :
    SignedPhase crates "commit" blockHash pubkeyHex signatureHex ↔
      SignedCommit crates blockHash (normalisedPubkey pubkeyHex) signatureHex := by
  have message : pbftSignatureMessage "commit" blockHash = "creg-pbft-v1:commit:" ++ blockHash := by
    rw [pbftSignatureMessage]
    congr 1
  rw [SignedPhase,message]
  rfl

def Relevant (keys : Table String String) (sig : BlockSignature) : Prop :=
  keys.lookup sig.validatorId = some (normalisedPubkey sig.pubkey)

instance (keys : Table String String) (sig : BlockSignature) : Decidable (Relevant keys sig) :=
  inferInstanceAs (Decidable (_ = _))

def signers (keys : Table String String) (sigs : List BlockSignature) : Finset String :=
  ((sigs.filter (Relevant keys ·)).map validatorId).toFinset

variable {crates} {keys : Table String String} {blockHash : String} {sigs : List BlockSignature} {validators : Validators}

theorem countSignatures_cons (sig : BlockSignature) (rest : List BlockSignature) (seen : Finset String) :
    countSignatures crates blockHash keys (sig :: rest) seen =
      if Relevant keys sig ∧ sig.validatorId ∉ seen then
        verifyCommitSignature crates blockHash (normalisedPubkey sig.pubkey) sig >>= fun _ =>
          countSignatures crates blockHash keys rest (insert sig.validatorId seen)
      else countSignatures crates blockHash keys rest seen := by
  rw [countSignatures]
  by_cases relevant : Relevant keys sig
  · have found : keys.lookup sig.validatorId = some (normalisedPubkey sig.pubkey) := relevant
    by_cases old : sig.validatorId ∈ seen
    · simp [found,relevant,old]
    · simp only [found,relevant,old,ne_eq,not_true_eq_false,if_false,not_false_eq_true,and_self,if_true]
      cases verifyCommitSignature crates blockHash (normalisedPubkey sig.pubkey) sig <;> rfl
  · rw [if_neg (fun both => relevant both.1)]
    split
    · rfl
    · rename_i expected found
      have other : normalisedPubkey sig.pubkey ≠ expected := fun same => relevant (by rw [Relevant,found,same])
      rw [if_pos other]

theorem countSignatures_ok {seen result : Finset String}
    (counted : countSignatures crates blockHash keys sigs seen = .ok result) :
    result = seen ∪ signers keys sigs ∧ ∀ id ∈ result, id ∈ seen ∨ ∃ sig ∈ sigs, sig.validatorId = id ∧
      Relevant keys sig ∧ SignedCommit crates blockHash (normalisedPubkey sig.pubkey) sig.signature := by
  induction sigs generalizing seen with
  | nil =>
    cases counted
    simp [signers]
  | cons sig sigs ih =>
    rw [countSignatures_cons] at counted
    split_ifs at counted with fresh
    · rw [bind_ok] at counted
      obtain ⟨_,verified,later⟩ := counted
      obtain ⟨whole,each⟩ := ih later
      refine ⟨?_,?_⟩
      · rw [whole,signers,signers,List.filter_cons_of_pos (by simpa using fresh.1),List.map_cons,toFinset_cons,
          insert_union,union_insert]
      · intro id inside
        rcases each id inside with old | ⟨other,among,found⟩
        · rcases mem_insert.mp old with rfl | old
          · exact .inr ⟨sig,List.mem_cons_self,rfl,fresh.1,(verifyCommitSignature_iff crates _ _ sig).mp verified⟩
          · exact .inl old
        · exact .inr ⟨other,List.mem_cons_of_mem _ among,found⟩
    · obtain ⟨whole,each⟩ := ih counted
      refine ⟨?_,?_⟩
      · by_cases relevant : Relevant keys sig
        · have old : sig.validatorId ∈ seen := by simpa [relevant] using fresh
          rw [whole,signers,signers,List.filter_cons_of_pos (by simpa using relevant),List.map_cons,toFinset_cons,
            union_insert,insert_eq_self.mpr (Finset.mem_union_left _ old)]
        · rw [whole,signers,signers,List.filter_cons_of_neg (by simpa using relevant)]
      · intro id inside
        refine (each id inside).imp_right ?_
        rintro ⟨other,among,found⟩
        exact ⟨other,List.mem_cons_of_mem _ among,found⟩

theorem countSignatures_distinct {seen : Finset String} (distinct : (sigs.map validatorId).Nodup)
    (fresh : ∀ sig ∈ sigs, sig.validatorId ∉ seen) :
    (∃ result, countSignatures crates blockHash keys sigs seen = .ok result) ↔
      ∀ sig ∈ sigs, Relevant keys sig → SignedCommit crates blockHash (normalisedPubkey sig.pubkey) sig.signature := by
  induction sigs generalizing seen with
  | nil => simp [countSignatures]
  | cons sig sigs ih =>
    obtain ⟨apart,later⟩ := nodup_cons.mp distinct
    have unseen := fresh sig List.mem_cons_self
    have rest : ∀ other ∈ sigs, other.validatorId ∉ insert sig.validatorId seen := by
      intro other among inside
      rcases mem_insert.mp inside with same | old
      · exact apart (same ▸ List.mem_map_of_mem among)
      · exact fresh other (List.mem_cons_of_mem _ among) old
    rw [countSignatures_cons,List.forall_mem_cons]
    by_cases relevant : Relevant keys sig
    · rw [if_pos ⟨relevant,unseen⟩,← ih later rest,← verifyCommitSignature_iff crates blockHash _ sig]
      simp only [bind_ok,relevant,forall_const]
      constructor
      · rintro ⟨result,_,verified,counted⟩
        exact ⟨verified,result,counted⟩
      · rintro ⟨verified,result,counted⟩
        exact ⟨result,(),verified,counted⟩
    · rw [if_neg (fun both => relevant both.1),ih later (fun other among => fresh other (List.mem_cons_of_mem _ among))]
      simp [relevant]

/-- A key that begins with a capital mark keeps it, in small letters, in its normal form. -/
def CapitalMark (pubkey : String) : Prop := startsWith (trimStartHexMark pubkey) "0X" = true

instance (pubkey : String) : Decidable (CapitalMark pubkey) := inferInstanceAs (Decidable (_ = true))

theorem capitalMark_iff (pubkey : String) : CapitalMark pubkey ↔ ∃ rest, dropHexMarks (toChars pubkey) = '0' :: 'X' :: rest := by
  have mark : toChars "0X" = ['0','X'] := by decide
  rw [CapitalMark,startsWith,trimStartHexMark,mark,toChars_ofList, isPrefixOf_iff_prefix]
  constructor
  all_goals
    rintro ⟨rest,same⟩
    exact ⟨rest,same.symm⟩

theorem normalisedPubkey_stable {pubkey : String} (plain : ¬CapitalMark pubkey) :
    normalisedPubkey (normalisedPubkey pubkey) = normalisedPubkey pubkey := by
  have kept : dropHexMarks ((dropHexMarks (toChars pubkey)).map Char.toLower) =
      (dropHexMarks (toChars pubkey)).map Char.toLower :=
    dropHexMarks_lower (fun rest => dropHexMarks_ne _ rest)
      (fun rest same => plain ((capitalMark_iff pubkey).mpr ⟨rest,same⟩))
  have lower : Char.toLower ∘ Char.toLower = Char.toLower := funext toLower_toLower
  simp only [normalisedPubkey,toAsciiLowercase,trimStartHexMark,toChars_ofList,kept,List.map_map,lower]

theorem normalisedPubkey_marked {pubkey : String} (marked : CapitalMark pubkey) :
    ∃ e, hexDecode (normalisedPubkey pubkey) = .error e := by
  obtain ⟨rest,same⟩ := (capitalMark_iff pubkey).mp marked
  rw [normalisedPubkey,toAsciiLowercase,trimStartHexMark,toChars_ofList,same]
  exact hexDecode_marked (rest.map Char.toLower)

theorem signedCommit_iff {pubkey signatureHex : String}
    (signed : SignedPhase crates "commit" blockHash (normalisedPubkey pubkey) signatureHex) :
    SignedCommit crates blockHash (normalisedPubkey pubkey) signatureHex ↔ ¬CapitalMark pubkey := by
  rw [signedPhase_commit] at signed
  constructor
  · rintro ⟨key,_,decoded,_⟩ marked
    obtain ⟨e,fails⟩ := normalisedPubkey_marked marked
    rw [fails] at decoded
    cases decoded
  · intro plain
    rwa [normalisedPubkey_stable plain] at signed

theorem lookup_validatorPubkeys (distinct : (validators.map Validator.id).Nodup) (id key : String) :
    (validatorPubkeys validators).lookup id = some key ↔ ∃ v ∈ validators, v.id = id ∧ normalisedPubkey v.pubkey = key := by
  have puts : validatorPubkeys validators =
      putAll ∅ (validators.map fun v => (v.id,normalisedPubkey v.pubkey)) := by
    rw [validatorPubkeys,putAll,foldl_map]
  rw [puts,lookup_putAll_distinct (by simpa [comp_def] using distinct)]
  simp

private theorem ofCommon_puts (validators : Validators) : (ofCommon validators).validators =
    putAll ∅ (validators.map fun v => (v.id,v.info)) := by
  have fold : ∀ set : ValidatorSet, (validators.foldl (fun set v => set.add v.info) set).validators =
      putAll set.validators (validators.map fun v => (v.id,v.info)) := by
    induction validators with
    | nil => exact fun set => rfl
    | cons v validators ih => exact fun set => ih (set.add v.info)
  exact fold .new

theorem lookup_ofCommon (distinct : (validators.map Validator.id).Nodup) (id : String) (info : ValidatorInfo) :
    (ofCommon validators).validators.lookup id = some info ↔ ∃ v ∈ validators, v.id = id ∧ v.info = info := by
  rw [ofCommon_puts,lookup_putAll_distinct (by simpa [comp_def] using distinct)]
  simp

/-- A block that the node builds from its set, with the signatures under which an engine
with the same variable finalises it in a round over that set. -/
structure Finalised (crates : Crates) (env : Option String) (state : NodeState) (block : Block)
    (sigs : List BlockSignature) : Prop where
  built : ∃ txs clock nodeId vrfOutput vrfProof,
    block = (state.produceSnapshot crates txs).block crates clock nodeId vrfOutput vrfProof
  round : ∃ timeout views ttl calls round,
    (run (call crates) (withConfig (.default timeout views ttl env)) calls).rounds.lookup
      (block.hash crates) = some round ∧
    round.validatorSet = .ofCommon state.validatorSet ∧ round.phase = .finalised ∧ round.finalisedSignatures = sigs

theorem verifyPbftConsensus_iff (flag : Option String) (header : BlockHeader) (listed : Validators) (sigs : List BlockSignature) :
    verifyPbftConsensus crates flag blockHash header listed sigs = .ok () ↔
      computeValidatorSetHash crates listed = header.validatorSetHash ∧ listed ≠ [] ∧
      ∃ seen, countSignatures crates blockHash (validatorPubkeys listed) sigs ∅ = .ok seen ∧
        clientQuorum listed.length (clientSmallClusterFlag flag) ≤ seen.card := by
  unfold verifyPbftConsensus
  simp only [check_ok,bind_ok,ne_eq,not_not,length_eq_zero_iff]
  refine and_congr_right fun _ => and_congr_right fun _ => exists_congr fun seen => and_congr_right fun _ => ?_
  split_ifs with few
  · simpa using few
  · simpa using few

variable {env : Option String}

theorem Finalised.certificate {state : NodeState} {block : Block} (finalised : Finalised crates env state block sigs) :
    (sigs.map validatorId).Nodup ∧
    quorumThreshold (ofCommon state.validatorSet).len (envFlag env false) ≤ sigs.length ∧
    ∀ sig ∈ sigs, PbftRound.ValidEntry crates (.ofCommon state.validatorSet) "commit" (block.hash crates)
      sig.validatorId sig := by
  obtain ⟨timeout,views,ttl,calls,round,found,set,final,rfl⟩ := finalised.round
  obtain ⟨⟨same,sound⟩,config⟩ := rounds_run _ calls found
  obtain ⟨enough,distinct,valid⟩ := sound.certificate final
  refine ⟨distinct,?_,?_⟩
  · rw [PbftRound.quorum,set,config] at enough
    exact enough
  · rw [← same,← set]
    exact valid

theorem validEntry_client (distinct : (validators.map Validator.id).Nodup) {sig : BlockSignature}
    (valid : PbftRound.ValidEntry crates (.ofCommon validators) "commit" blockHash sig.validatorId sig) :
    Relevant (validatorPubkeys validators) sig ∧ ∃ v ∈ validators, v.id = sig.validatorId ∧
      (SignedCommit crates blockHash (normalisedPubkey sig.pubkey) sig.signature ↔ ¬CapitalMark v.pubkey) := by
  obtain ⟨info,found,_,keys,signed⟩ := valid.member
  obtain ⟨v,member,named,rfl⟩ := (lookup_ofCommon distinct _ info).mp found
  refine ⟨(lookup_validatorPubkeys distinct _ _).mpr ⟨v,member,named,keys.symm⟩,v,member,named,?_⟩
  rw [keys]
  exact signedCommit_iff signed

theorem clientQuorum_pos (count : Nat) (flag : Bool) : 0 < clientQuorum count flag := by
  unfold clientQuorum
  split_ifs
  · decide
  · omega

/-- The client accepts a finalised block of the node exactly if there are signatures
enough for the whole set and no signer's key keeps its mark. -/
theorem client_accepts_finalised_iff {state : NodeState} {block : Block}
    {sigs : List BlockSignature} (distinct : (state.validatorSet.map Validator.id).Nodup)
    (finalised : Finalised crates env state block sigs) :
    verifyPbftConsensus crates env (block.hash crates) block.header state.validatorSet sigs = .ok () ↔
      clientQuorum state.validatorSet.length (clientSmallClusterFlag env) ≤ sigs.length ∧
      ∀ v ∈ state.validatorSet, v.id ∈ sigs.map validatorId → ¬CapitalMark v.pubkey := by
  obtain ⟨apart,_,valid⟩ := finalised.certificate
  have entries := fun sig inside => validEntry_client distinct (valid sig inside)
  have header : computeValidatorSetHash crates state.validatorSet = block.header.validatorSetHash := by
    obtain ⟨txs,clock,nodeId,output,proof,rfl⟩ := finalised.built
    rfl
  -- every signature is one that the client looks at
  have all : signers (validatorPubkeys state.validatorSet) sigs = (sigs.map validatorId).toFinset := by
    rw [signers,List.filter_eq_self.mpr fun sig inside => decide_eq_true (entries sig inside).1]
  have size : (sigs.map validatorId).toFinset.card = sigs.length := by
    rw [toFinset_card_of_nodup apart,length_map]
  have keys : (∀ sig ∈ sigs, Relevant (validatorPubkeys state.validatorSet) sig →
      SignedCommit crates (block.hash crates) (normalisedPubkey sig.pubkey) sig.signature) ↔
      ∀ v ∈ state.validatorSet, v.id ∈ sigs.map validatorId → ¬CapitalMark v.pubkey := by
    constructor
    · intro signed v member signer
      obtain ⟨sig,inside,named⟩ := List.mem_map.mp signer
      obtain ⟨relevant,other,among,same,iff⟩ := entries sig inside
      have unique : other = v := inj_on_of_nodup_map distinct among member (same.trans named)
      exact unique ▸ iff.mp (signed sig inside relevant)
    · intro plain sig inside _
      obtain ⟨_,v,member,same,iff⟩ := entries sig inside
      exact iff.mpr (plain v member (same ▸ List.mem_map_of_mem inside))
  rw [verifyPbftConsensus_iff,← keys,← countSignatures_distinct apart (fun _ _ => notMem_empty _)]
  constructor
  · rintro ⟨_,_,seen,counted,enough⟩
    have whole := (countSignatures_ok counted).1
    rw [empty_union,all] at whole
    exact ⟨by rwa [whole,size] at enough,seen,counted⟩
  · rintro ⟨enough,seen,counted⟩
    have whole := (countSignatures_ok counted).1
    rw [empty_union,all] at whole
    refine ⟨header,?_,seen,counted,by rwa [whole,size]⟩
    -- a quorum is never empty, and its members are in the set
    intro empty
    have one : 0 < sigs.length := lt_of_lt_of_le (clientQuorum_pos _ _) enough
    obtain ⟨_,v,member,_⟩ := entries _ (getElem_mem one)
    rw [empty] at member
    cases member

end

/-! One active validator, which finalises its blocks alone whatever else is in the set, and a set of four. -/
namespace Alone
def online : Validator := ⟨"v","v","01","0x",100,100,"online"⟩

def offline : Validator := ⟨"w","w","02","0x",100,100,"offline"⟩

def quartet : Validators :=
  [("v","01"),("b","02"),("c","03"),("d","04")].map fun v => ⟨v.1,v.1,v.2,"0x",100,100,"online"⟩

def crates : Crates := Ideal.crates [Block.genesis.header] Ideal.checksum

variable (validators : Validators)

def node : Node crates := .initial ⟨"v",none,true,false⟩ Solo.config validators

def state : NodeState := (node validators).state

def block : Block :=
  ((state validators).produceSnapshot crates []).block crates ⟨0,0⟩ "v" none none

def signatureBy (phase : String) (signer : String × UInt8) : BlockSignature where
  validatorId := signer.1
  pubkey := hexEncode [signer.2]
  signature := hexEncode (crates.sign [signer.2] (bytes (pbftSignatureMessage phase ((block validators).hash crates))))

variable (signers : List (String × UInt8))

def calls : List EngineCall :=
  .startRound 0 (block validators) (.ofCommon validators) ::
    (signers.map fun signer =>
      .prepare 0 ((block validators).hash crates) signer.1 (signatureBy validators "prepare" signer)) ++
    signers.map fun signer => .commit ((block validators).hash crates) signer.1 (signatureBy validators "commit" signer)

def rounds : Table String PbftRound :=
  (run (call crates) (withConfig (.default 30 3 600 none)) (calls validators signers)).rounds

theorem finalised {validators : Validators} {signers : List (String × UInt8)} {sigs : List BlockSignature}
    (collected : ((rounds validators signers).lookup ((block validators).hash crates)).map (fun round =>
      (round.validatorSet.validators.entries,round.phase,round.finalisedSignatures)) =
        some ((ofCommon validators).validators.entries,.finalised,sigs)) :
    Finalised crates none (state validators) (block validators) sigs := by
  refine ⟨⟨[],⟨0,0⟩,"v",none,none,rfl⟩,30,3,600,calls validators signers,?_⟩
  obtain ⟨round,found,parts⟩ := Option.map_eq_some_iff.mp collected
  simp only [Prod.mk.injEq] at parts
  exact ⟨round,found,congrArg ValidatorSet.mk (AList.ext parts.1),parts.2⟩

end Alone
open Alone

/-- Three of four validators have signed. -/
theorem quartet_accepted : verifyPbftConsensus crates none ((block quartet).hash crates) (block quartet).header quartet
    ([("c",3),("b",2),("v",1)].map (signatureBy quartet "commit")) = .ok () := by
  have finalised : Finalised crates none (state quartet) (block quartet)
      ([("c",3),("b",2),("v",1)].map (signatureBy quartet "commit")) :=
    finalised (by decide +kernel : ((rounds quartet [("v",1),("b",2),("c",3)]).lookup _).map _ = _)
  exact (client_accepts_finalised_iff (by decide) finalised).mpr ⟨by decide,by decide⟩

theorem finalised_and_refused :
    ∃ (crates : Crates) (env : Option String) (state : NodeState) (block : Block) (sigs : List BlockSignature),
      (state.validatorSet.map Validator.id).Nodup ∧ Finalised crates env state block sigs ∧
      verifyPbftConsensus crates env (block.hash crates) block.header state.validatorSet sigs ≠ .ok () := by
  refine ⟨crates,none,state [online,offline],block [online,offline],
    [signatureBy [online,offline] "commit" ("v",1)],by decide,finalised (by decide +kernel :
      ((rounds [online,offline] [("v",1)]).lookup _).map _ = _),?_⟩
  decide +kernel

end ChainRegistry
