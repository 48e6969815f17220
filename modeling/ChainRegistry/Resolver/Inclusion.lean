import ChainRegistry.Common.SealedCrates
import ChainRegistry.Lib.Fallible
import ChainRegistry.Lib.Merkle
import ChainRegistry.Resolver.LightClient

/-! What an accepted proof establishes. Its hash is a leaf under a header that goes back to the
checkpoint, and a transaction with that hash is in the body; but nothing connects it with the
package that was asked for. -/
namespace ChainRegistry
open Lib Merkle Fallible List Text MerkleStep Ideal HashTree

section
variable (crates : Crates)

def headerHash (header : BlockHeader) : String := crates.sha256Hex (crates.headerJson header)

inductive Linked (checkpoint : Checkpoint) : Nat → String → Prop
  | checkpoint : Linked checkpoint checkpoint.height checkpoint.hash
  | next {height : Nat} {hash : String} (before : Linked checkpoint height hash) (header : BlockHeader)
      (names : header.prevHash = hash) (above : header.height = height + 1) :
      Linked checkpoint header.height (headerHash crates header)

def merkleNode (left right : String) : String := sha256Text crates (left ++ right)

def MerkleStep.step (step : MerkleStep) : Step String := ⟨step.siblingHash,step.isRight⟩

variable {crates} {checkpoint : Checkpoint} {response : LightClientResponse} {header : BlockHeader}
  {digest hash canonical : String}
  {headers : List (BlockHeader × String)} {height : Nat} {path : List (Step String)} {txs : List Transaction}

theorem verify_iff (proof : MerkleProof) : proof.verify crates ↔
    walk (merkleNode crates) proof.txHash (proof.path.map step) = proof.expectedRoot := by
  rw [MerkleProof.verify,decide_eq_true_eq,walk,foldl_map]
  rfl

section
variable (free : crates.CollisionFree) (apart : crates.DigestsApart)
include free apart

theorem readable : Readable (merkleNode crates) (fun text => ∃ data, text = crates.sha256Hex data) where
  nodes left right := ⟨_,rfl⟩
  left := by
    rintro a x l r ⟨first,rfl⟩ ⟨second,rfl⟩ same
    exact apart.front _ _ _ _ (bytes_injective (free.digest same))
  right := by
    rintro a x l r ⟨first,rfl⟩ ⟨second,rfl⟩ same
    exact apart.back _ _ _ _ (bytes_injective (free.digest same))

theorem transactionHash_ne_node (tx : Transaction) (made : ∃ data, digest = crates.sha256Hex data) (other : String) :
    transactionHash crates tx ≠ merkleNode crates digest other ∧ transactionHash crates tx ≠ merkleNode crates other digest := by
  obtain ⟨data,rfl⟩ := made
  constructor
  · intro same
    have braced := (apart.object tx).1
    rw [free.digest same] at braced
    exact (apart.unbraced _ _).1 braced
  · intro same
    have braced := (apart.object tx).2
    rw [free.digest same] at braced
    exact (apart.unbraced _ _).2 braced

end

theorem merkleLevel_pairs (hashes : List String) :
    merkleLevel crates hashes = (levelPairs hashes).map fun pair => merkleNode crates pair.1 pair.2 := by
  fun_induction levelPairs hashes with
  | case1 left right rest ih =>
    rw [merkleLevel,ih]
    rfl
  | case2 last => rfl
  | case3 => rfl

variable (crates) in
theorem merkleRoot_tree (some : txs ≠ []) :
    ∃ tree : HashTree String, merkleRoot crates txs = tree.label (merkleNode crates) ∧ tree.Uniform (Nat.clog 2 txs.length) ∧
      tree.leaves = filled (txs.map (transactionHash crates)) ∧ ∀ leaf ∈ tree.leaves, ∃ tx ∈ txs,
        transactionHash crates tx = leaf := by
  obtain ⟨tree,root,uniform,bottom,_⟩ := list_tree (merkleFold crates) (fun fuel label => by cases fuel <;> rfl)
    (fun fuel first second rest => congrArg (merkleFold crates fuel) (merkleLevel_pairs _)) (txs.map (transactionHash crates))
    (by simpa using some)
  rw [length_map] at root uniform
  exact ⟨tree,(if_neg some).trans root,uniform,bottom,fun leaf within => mem_map.mp (fillUp_subset _ _ _ (bottom ▸ within))⟩

section
variable (free : crates.CollisionFree) (apart : crates.DigestsApart)
include free apart

theorem walk_inside (some : txs ≠ []) {start : String} (made : ∃ data, start = crates.sha256Hex data)
    (reached : walk (merkleNode crates) start path = merkleRoot crates txs) :
    path.length = Nat.clog 2 txs.length ∧ (∃ tx ∈ txs, start = transactionHash crates tx) ∨
      path.length < Nat.clog 2 txs.length ∧ ∀ tx, start ≠ transactionHash crates tx := by
  have read := readable free apart
  obtain ⟨tree,root,uniform,_,leaves⟩ := merkleRoot_tree crates some
  have bottom : ∀ leaf ∈ tree.leaves, ∃ data, leaf = crates.sha256Hex data := by
    intro leaf within
    obtain ⟨other,_,rfl⟩ := leaves leaf within
    exact ⟨_,rfl⟩
  have flat : ∀ leaf ∈ tree.leaves, ∀ a x, (∃ data, a = crates.sha256Hex data) →
      leaf ≠ merkleNode crates a x ∧ leaf ≠ merkleNode crates x a := by
    intro leaf within a x made
    obtain ⟨other,_,rfl⟩ := leaves leaf within
    exact transactionHash_ne_node free apart other made x
  rcases read.inside bottom flat uniform made (reached.trans root) with ⟨deep,leaf⟩ | ⟨short,inner⟩
  · obtain ⟨tx,inside,rfl⟩ := leaves _ leaf
    exact .inl ⟨deep,tx,inside,rfl⟩
  · obtain ⟨left,right,below,rfl⟩ := read.inner_node bottom inner
    exact .inr ⟨short,fun tx same => (transactionHash_ne_node free apart tx below right).1 same.symm⟩

end

theorem verifyHeader_ok :
    verifyHeader crates header hash height = .ok () ↔ headerHash crates header = hash ∧ header.height = height := by
  unfold verifyHeader headerHash
  by_cases same : crates.sha256Hex (crates.headerJson header) = hash
  · by_cases above : header.height = height <;> simp [same,above]
  · simp [same]

theorem checkLink_ok {prevHash : String} : checkLink header prevHash = .ok () ↔ header.prevHash = prevHash := by
  by_cases same : header.prevHash = prevHash <;> simp [checkLink,same]

theorem verifyLinks_ok : verifyLinks crates height hash headers = .ok () ↔ ∀ (i : Nat) (header : BlockHeader) (own : String),
    headers[i]? = some (header,own) → headerHash crates header = own ∧ header.height = height + 1 + i ∧
      (hash :: headers.map Prod.snd)[i]? = some header.prevHash := by
  induction headers generalizing height hash with
  | nil => simp [verifyLinks]
  | cons entry headers ih =>
    obtain ⟨first,next⟩ := entry
    simp only [verifyLinks,bind_ok]
    constructor
    · rintro ⟨_,checked,_,link,later⟩ i header own found
      obtain ⟨same,above⟩ := verifyHeader_ok.mp checked
      cases i with
      | zero =>
        cases found
        exact ⟨same,above,congrArg some (checkLink_ok.mp link).symm⟩
      | succ i =>
        obtain ⟨hashed,level,before⟩ := ih.mp later i header own found
        exact ⟨hashed,by omega,before⟩
    · intro all
      obtain ⟨same,above,link⟩ := all 0 first next rfl
      refine ⟨(),verifyHeader_ok.mpr ⟨same,above⟩,(),checkLink_ok.mpr (Option.some.inj link).symm,ih.mpr ?_⟩
      intro i header own found
      obtain ⟨hashed,level,before⟩ := all (i + 1) header own found
      exact ⟨hashed,by omega,before⟩

/-- The hash before that of the first header is the checkpoint's. -/
theorem verifyHeaderChain_exact (crates : Crates) (headers : List (BlockHeader × String)) (checkpoint : Checkpoint) :
    verifyHeaderChain crates headers checkpoint = .ok () ↔ headers = [] ∨
      ∀ (i : Nat) (header : BlockHeader) (hash : String), headers[i]? = some (header,hash) →
        hash = crates.sha256Hex (crates.headerJson header) ∧ header.height = checkpoint.height + 1 + i ∧
          (checkpoint.hash :: headers.map Prod.snd)[i]? = some header.prevHash := by
  rw [verifyHeaderChain,verifyLinks_ok]
  constructor
  · intro all
    refine .inr fun i header hash found => ?_
    obtain ⟨own,rest⟩ := all i header hash found
    exact ⟨own.symm,rest⟩
  · rintro (rfl | all) i header hash found
    · simp at found
    · obtain ⟨own,rest⟩ := all i header hash found
      exact ⟨own.symm,rest⟩

variable (crates) in
structure Passed (flag : Option String) (response : LightClientResponse) (checkpoint : Checkpoint) : Prop where
  root : walk (merkleNode crates) response.proof.txHash (response.proof.path.map step) =
    response.blockHeader.merkleRoot
  own : headerHash crates response.blockHeader = response.blockHash
  final : verifyPbftConsensus crates flag response.blockHash response.blockHeader response.activeValidators
    response.pbftSignatures = .ok ()
  linked : Linked crates checkpoint response.blockHeader.height response.blockHash

end

end ChainRegistry
