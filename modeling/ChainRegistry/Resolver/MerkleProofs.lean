import ChainRegistry.Resolver.Inclusion

/-! Merkle proofs as the node builds them and as the resolver checks them. A path is built
for every transaction; a path that is accepted is one of a transaction only if it is as long
as the tree is deep. -/
namespace ChainRegistry
open Lib Merkle List Option MerkleProof Sealed Text

section
variable (crates : Crates)

def padEven (level : List String) : List String :=
  if level.length % 2 ≠ 0 then level ++ level.getLast?.toList else level

/-- The loop of `build_merkle_proof`; every level is shorter than the one before. -/
def merklePath : Nat → Nat → List String → List MerkleStep
  | 0, _, _ => []
  | fuel + 1, idx, level =>
    if 1 < level.length then
      let padded := padEven level
      let siblingIdx := if idx % 2 = 0 then idx + 1 else idx - 1
      ⟨padded.getD siblingIdx "",idx % 2 = 0⟩ :: merklePath fuel (idx / 2) (merkleLevel crates padded)
    else []

def buildMerkleProof (block : Block) (txIndex : Nat) : Except String MerkleProof :=
  let leaves := block.transactions.map (transactionHash crates)
  match leaves[txIndex]? with
  | none => .error ("tx_index " ++ toString txIndex ++ " out of range (block has " ++
      toString block.transactions.length ++ " transactions)")
  | some txHash => .ok ⟨txHash,merklePath crates leaves.length txIndex leaves,block.header.merkleRoot⟩

variable {crates} {level : List String}

theorem merkleLevel_padEven : merkleLevel crates (padEven level) = merkleLevel crates level := by
  fun_induction merkleLevel crates level with
  | case1 left right rest ih =>
    have tail : padEven (left :: right :: rest) = left :: right :: padEven rest := by
      have parity : (left :: right :: rest).length % 2 = rest.length % 2 := by
        simp only [length_cons]
        omega
      unfold padEven
      rw [parity]
      split_ifs with odd
      · cases rest with
        | nil => simp at odd
        | cons first rest => simp
      · rfl
    rw [tail,merkleLevel,ih]
  | case2 last => rfl
  | case3 => rfl

theorem merkleLevel_length : (merkleLevel crates level).length = (level.length + 1) / 2 := by
  fun_induction merkleLevel crates level with
  | case1 left right rest ih =>
    simp only [length_cons,ih]
    omega
  | case2 last => simp
  | case3 => simp

theorem merkleLevel_getElem {i : Nat} {left right : String} (first : level[2 * i]? = some left)
    (second : level[2 * i + 1]? = some right) : (merkleLevel crates level)[i]? = some (merkleNode crates left right) := by
  fun_induction merkleLevel crates level generalizing i with
  | case1 a b rest ih =>
    cases i with
    | zero =>
      cases first
      cases second
      rfl
    | succ i => exact ih first second
  | case2 last => simp at second
  | case3 => simp at second

theorem padEven_getElem {idx : Nat} {hash : String} (found : level[idx]? = some hash) : (padEven level)[idx]? = some hash := by
  unfold padEven
  split_ifs
  · exact (List.getElem?_append_left (List.getElem?_eq_some_iff.mp found).1).trans found
  · exact found

theorem padEven_even (some : level ≠ []) : (padEven level).length % 2 = 0 := by
  unfold padEven
  split_ifs with odd
  · rw [length_append,List.getLast?_eq_some_getLast some,toList_some,length_singleton]
    omega
  · omega

variable (crates) in
theorem merklePath_step {idx : Nat} {hash : String} (found : level[idx]? = some hash) :
    (merkleLevel crates (padEven level))[idx / 2]? = some (MerkleProof.climb crates hash
      ⟨(padEven level).getD (if idx % 2 = 0 then idx + 1 else idx - 1) "",idx % 2 = 0⟩) := by
  have here := padEven_getElem found
  have inside := (List.getElem?_eq_some_iff.mp here).1
  have whole : (padEven level).length % 2 = 0 := padEven_even (by rintro rfl; simp at found)
  by_cases even : idx % 2 = 0
  · have next : idx + 1 < (padEven level).length := by omega
    have place : 2 * (idx / 2) = idx := by omega
    simp only [even,if_true,MerkleProof.climb,decide_true]
    refine merkleLevel_getElem (place.symm ▸ here) ?_
    rw [place,List.getD_eq_getElem?_getD,List.getElem?_eq_getElem next,getD_some]
  · have next : idx - 1 < (padEven level).length := by omega
    have place : 2 * (idx / 2) = idx - 1 := by omega
    simp only [even,if_false,MerkleProof.climb,decide_false,Bool.false_eq_true]
    refine merkleLevel_getElem ?_ ((by omega : idx = 2 * (idx / 2) + 1) ▸ here)
    rw [place,List.getD_eq_getElem?_getD,List.getElem?_eq_getElem next,getD_some]

variable (crates) in
theorem merklePath_climbs {fuel idx : Nat} {hash : String} (enough : level.length ≤ fuel) (found : level[idx]? = some hash) :
    (merklePath crates fuel idx level).foldl (MerkleProof.climb crates) hash = merkleFold crates fuel level ∧
      (merklePath crates fuel idx level).length = Nat.clog 2 level.length := by
  induction fuel generalizing idx level hash with
  | zero => simp [length_eq_zero_iff.mp (Nat.le_zero.mp enough)] at found
  | succ fuel ih =>
    rw [merklePath]
    by_cases many : 1 < level.length
    · have half : (merkleLevel crates (padEven level)).length = (level.length + 1) / 2 := by
        rw [merkleLevel_padEven,merkleLevel_length]
      obtain ⟨climbs,length⟩ := ih (by omega) (merklePath_step crates found)
      rw [if_pos many]
      refine ⟨climbs.trans ?_,?_⟩
      · rw [merkleLevel_padEven]
        match level with
        | a :: b :: rest => rfl
      · rw [length_cons,length,half,Nat.clog_of_two_le (by omega) many]
        rfl
    · have inside := (List.getElem?_eq_some_iff.mp found).1
      obtain ⟨only,rfl⟩ := length_eq_one_iff.mp (by omega : level.length = 1)
      obtain rfl : idx = 0 := Nat.lt_one_iff.mp inside
      rw [if_neg many]
      exact ⟨(Option.some.inj found).symm,rfl⟩

/-- The proof that is built for a transaction verifies, with one step for each level. -/
theorem buildMerkleProof_complete (crates : Crates) (block : Block) (txIndex : Nat) (tx : Transaction)
    (bound : block.header.merkleRoot = merkleRoot crates block.transactions) (inside : block.transactions[txIndex]? = some tx) :
    ∃ proof, buildMerkleProof crates block txIndex = .ok proof ∧ proof.verify crates ∧
      proof.txHash = transactionHash crates tx ∧ proof.path.length = Nat.clog 2 block.transactions.length := by
  have leaf : (block.transactions.map (transactionHash crates))[txIndex]? = some (transactionHash crates tx) := by
    rw [List.getElem?_map,inside]
    rfl
  obtain ⟨climbs,length⟩ := merklePath_climbs crates le_rfl leaf
  rw [buildMerkleProof,leaf]
  refine ⟨_,rfl,?_,rfl,?_⟩
  · have some : block.transactions ≠ [] := by
      rintro empty
      simp [empty] at inside
    rw [verify,decide_eq_true_eq,bound,merkleRoot,if_neg some]
    simpa using climbs
  · simpa using length

/-- A path that is accepted proves a leaf exactly when its first hash is a digest and it has
one step for each level. -/
theorem verify_leaf_iff (free : crates.CollisionFree) (apart : crates.DigestsApart) {txs : List Transaction} (some : txs ≠ [])
    {proof : MerkleProof} (rooted : proof.expectedRoot = merkleRoot crates txs) (verified : proof.verify crates) :
    (∃ tx ∈ txs, proof.txHash = transactionHash crates tx) ↔
      (∃ data, proof.txHash = crates.sha256Hex data) ∧ proof.path.length = Nat.clog 2 txs.length := by
  have reached := ((verify_iff proof).mp verified).trans rooted
  constructor
  · rintro ⟨tx,_,same⟩
    have made : ∃ data, proof.txHash = crates.sha256Hex data := ⟨_,same⟩
    rcases walk_inside free apart some made reached with ⟨deep,_⟩ | ⟨_,none⟩
    · exact ⟨made,by simpa using deep⟩
    · exact absurd same (none tx)
  · rintro ⟨made,deep⟩
    rcases walk_inside free apart some made reached with ⟨_,found⟩ | ⟨short,_⟩
    · exact found
    · rw [length_map] at short
      omega

end

/-! One block with one package in it; its proof is served whatever package is asked for. -/
namespace Substitute
def record : ChainRecord where
  id := ⟨"npm","p","1"⟩
  contentHash := "h"
  ipfsCid := ""
  publisherPubkey := ""
  blockHash := ""
  publishedAt := 0
  validatorSignatures := []
  status := .verified
  shielded := false
  keyBundle := none
  pgpFingerprint := none
  findings := []
  analysisBundles := {}
  evidenceDigest := ""
  deterministicRisk := {}
  accessCount := 0
  lastAccessed := none
  threshold := 1
  publisherPubkeys := []
  manifest := none

def validators : Validators := [⟨"v","v","01","0x",100,100,"active"⟩]

def txs : List Transaction := [.publish record,.validatorLeave "w"]

def txHash : String := Sealed.sha256Hex (Sealed.transactionJson txs (.publish record))

def leaveHash : String := Sealed.sha256Hex (Sealed.transactionJson txs (.validatorLeave "w"))

def root : String := Sealed.sha256Hex (bytes (txHash ++ leaveHash))

def header : BlockHeader where
  height := 1
  prevHash := "g"
  merkleRoot := root
  proposerId := "v"
  timestamp := 0
  validatorSetHash := Sealed.sha256Hex (bytes "v" ++ [0])
  vrfOutput := none
  vrfProof := none

def crates : Crates := Sealed.crates [header] txs

def blockHash : String := headerHash crates header

def checkpoint : Checkpoint := ⟨0,"g"⟩

def response : LightClientResponse where
  status := "verified"
  blockHash := blockHash
  blockHeader := header
  proof := ⟨txHash,[⟨leaveHash,true⟩],root⟩
  headerChain := [(header,blockHash)]
  pbftSignatures := [⟨"v","01",hexEncode (crates.sign [1] (bytes ("creg-pbft-v1:commit:" ++ blockHash)))⟩]
  activeValidators := validators

def http : Http LightClientResponse := ⟨.ok (),fun _ => .ok ⟨200,.ok response⟩⟩

def block : Block := ⟨header,txs,[]⟩

theorem served : buildMerkleProof crates block 0 = .ok response.proof := rfl

theorem fetched (canonical : String) : fetchProof http canonical "" = .ok response := rfl

theorem accepted : verifyPackage crates none http "npm:p@1" "" checkpoint = .ok true ∧
    verifyPackage crates none http "npm:evil@1" "" checkpoint = .ok true := by
  decide +kernel

end Substitute

namespace Leaving
def txs : List Transaction := [.validatorLeave "a",.validatorLeave "b"]

def crates : Crates := Sealed.crates [] txs

def block : Block where
  header := {Block.genesis.header with merkleRoot := merkleRoot crates txs}
  transactions := txs
  pbftSignatures := []

end Leaving
open Leaving

theorem second_leaver_proved : ∃ proof, buildMerkleProof crates block 1 = .ok proof ∧ proof.verify crates ∧
    proof.txHash = transactionHash crates (.validatorLeave "b") ∧ proof.path.length = Nat.clog 2 block.transactions.length :=
  buildMerkleProof_complete crates block 1 (.validatorLeave "b") rfl rfl

theorem second_leaver_is_a_leaf :
    let proof : MerkleProof := ⟨transactionHash crates (.validatorLeave "b"),
      [⟨transactionHash crates (.validatorLeave "a"),false⟩],merkleRoot crates txs⟩
    buildMerkleProof crates block 1 = .ok proof ∧ ∃ tx ∈ txs, proof.txHash = transactionHash crates tx := by
  intro proof
  have verified : proof.verify crates := decide_eq_true rfl
  exact ⟨rfl,(verify_leaf_iff (collisionFree _ _) (digestsApart _ _) (by simp [txs]) rfl verified).mpr
    ⟨⟨_,rfl⟩,(Nat.clog_pow 2 1 (by decide)).symm⟩⟩

theorem root_accepted_as_leaf : crates.CollisionFree ∧ verify crates ⟨merkleRoot crates txs,[],merkleRoot crates txs⟩ ∧
    ¬∃ tx ∈ txs, merkleRoot crates txs = transactionHash crates tx := by
  refine ⟨collisionFree _ _,decide_eq_true rfl,?_⟩
  rintro ⟨tx,_,same⟩
  have apart : crates.DigestsApart := digestsApart _ _
  exact (transactionHash_ne_node (collisionFree _ _) apart tx ⟨_,rfl⟩ _).1 same.symm

end ChainRegistry
