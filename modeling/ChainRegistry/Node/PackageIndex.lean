import ChainRegistry.Consensus.PbftCalls
import ChainRegistry.Node.ChainView
import ChainRegistry.Node.VoteQuorum

/-! The package index as a function of the blocks. The transactions of one block all read
the index as it was before the block; a rebuild replays the blocks one after another. -/
namespace ChainRegistry.ChainStore
open Lib Runs List Option Table Solo

variable {crates : Crates} {store : ChainStore}

def published (hash canonical : String) : Transaction → Option ChainRecord
  | .publish record => if canonical = record.id.canonical then some {record with blockHash := hash} else none
  | _ => none

def write (hash canonical : String) (read : Option ChainRecord) : Transaction → Option ChainRecord
  | .publish record => published hash canonical (.publish record)
  | .revoke packageCanonical reason _ _ =>
    if canonical = packageCanonical then read.map fun record => {record with status := .revoked reason} else none
  | .rotatePublisherKey canonicalPrefix oldPubkey newPubkey _ _ _ _ =>
    if Text.startsWith canonical canonicalPrefix = true ∧ read.map ChainRecord.publisherPubkey = some oldPubkey then
      read.map fun record => {record with publisherPubkey := newPubkey}
    else none
  | _ => none

section
variable {before : Table String ChainRecord} {hash canonicalPrefix oldPubkey newPubkey sigFromOld sigFromNew canonical : String}
  {timestamp : DateTime} {nonce : Nat}

theorem mem_rotation {record : ChainRecord} : (canonical,record) ∈ indexTransaction hash before
      (.rotatePublisherKey canonicalPrefix oldPubkey newPubkey sigFromOld sigFromNew timestamp nonce) ↔
    write hash canonical (before.lookup canonical)
      (.rotatePublisherKey canonicalPrefix oldPubkey newPubkey sigFromOld sigFromNew timestamp nonce) = some record := by
  rw [indexTransaction,mem_filterMap,write]
  constructor
  · rintro ⟨⟨other,old⟩,inside,made⟩
    dsimp only at made
    split_ifs at made with rotates
    cases made
    rw [AList.mem_lookup_iff.mpr inside,if_pos ⟨rotates.1,congrArg some rotates.2⟩]
    rfl
  · intro made
    split_ifs at made with rotates
    obtain ⟨old,found,rfl⟩ := map_eq_some_iff.mp made
    rw [found] at rotates
    exact ⟨⟨canonical,old⟩,AList.mem_lookup_iff.mp found,if_pos ⟨rotates.1,Option.some.inj rotates.2⟩⟩

end

theorem lookup_putTransaction (hash : String) (before index : Table String ChainRecord) (tx : Transaction) (canonical : String) :
    (index.putAll (indexTransaction hash before tx)).lookup canonical =
      (write hash canonical (before.lookup canonical) tx).or (index.lookup canonical) := by
  cases tx with
  | publish record =>
    rw [indexTransaction,putAll,foldl_cons,foldl_nil,lookup_insert_eq,write,published]
    split_ifs <;> rfl
  | revoke packageCanonical reason =>
    simp only [indexTransaction,write]
    cases found : before.lookup packageCanonical with
    | none =>
      split_ifs with same
      · rw [same,found]
        rfl
      · rfl
    | some record =>
      simp only [putAll,foldl_cons,foldl_nil,lookup_insert_eq]
      split_ifs with same
      · rw [same,found]
        rfl
      · rfl
  | rotatePublisherKey canonicalPrefix oldPubkey newPubkey sigFromOld sigFromNew timestamp nonce =>
    cases made : write hash canonical (before.lookup canonical)
        (.rotatePublisherKey canonicalPrefix oldPubkey newPubkey sigFromOld sigFromNew timestamp nonce) with
    | none =>
      rw [lookup_putAll_absent,none_or]
      intro record inside
      cases made.symm.trans (mem_rotation.mp inside)
    | some record =>
      rw [lookup_putAll_unique (mem_rotation.mpr made),some_or]
      intro other inside
      exact Option.some.inj ((mem_rotation.mp inside).symm.trans made)
  | slash | validatorJoin | validatorLeave => rfl

theorem lookup_indexBlock (hash : String) (index : Table String ChainRecord) (block : Block) (canonical : String) :
    (indexBlock hash index block).lookup canonical =
      run (fun record tx => (write hash canonical (index.lookup canonical) tx).or record) (index.lookup canonical)
        block.transactions := by
  have puts : ∀ (txs : List Transaction) (later : Table String ChainRecord),
      (later.putAll (txs.flatMap (indexTransaction hash index))).lookup canonical =
        run (fun record tx => (write hash canonical (index.lookup canonical) tx).or record) (later.lookup canonical) txs := by
    intro txs
    induction txs with
    | nil => exact fun _ => rfl
    | cons tx txs ih =>
      intro later
      rw [flatMap_cons,putAll,foldl_append,run_cons,← lookup_putTransaction]
      exact ih _
  exact puts block.transactions index

def applyInOrder (hash : String) (packages : Table String ChainRecord) (txs : List Transaction) : Table String ChainRecord :=
  txs.foldl (fun packages tx => packages.putAll (indexTransaction hash packages tx)) packages

theorem lookup_applyInOrder (hash : String) (packages : Table String ChainRecord) (txs : List Transaction) (canonical : String) :
    (applyInOrder hash packages txs).lookup canonical =
      run (fun record tx => (write hash canonical record tx).or record) (packages.lookup canonical) txs := by
  induction txs generalizing packages with
  | nil => rfl
  | cons tx txs ih =>
    rw [run_cons,← lookup_putTransaction]
    exact ih _

/-- Two transactions of a block, in this order, for one package: the later one publishes, or both revoke,
or it does not concern the package by the record before the block or the one that the earlier publishes. -/
def Compatible (canonical : String) (before : Option ChainRecord) : Transaction → Transaction → Prop
  | .publish record, .revoke packageCanonical _ _ _ => canonical = record.id.canonical → canonical ≠ packageCanonical
  | .publish record, .rotatePublisherKey canonicalPrefix oldPubkey _ _ _ _ _ =>
    canonical = record.id.canonical → Text.startsWith canonical canonicalPrefix →
      record.publisherPubkey ≠ oldPubkey ∧ before.map ChainRecord.publisherPubkey ≠ some oldPubkey
  | .revoke packageCanonical _ _ _, .rotatePublisherKey canonicalPrefix oldPubkey _ _ _ _ _ =>
    canonical = packageCanonical → Text.startsWith canonical canonicalPrefix →
      before.map ChainRecord.publisherPubkey ≠ some oldPubkey
  | .rotatePublisherKey canonicalPrefix oldPubkey _ _ _ _ _, .revoke packageCanonical _ _ _ =>
    canonical = packageCanonical → Text.startsWith canonical canonicalPrefix →
      before.map ChainRecord.publisherPubkey ≠ some oldPubkey
  | .rotatePublisherKey canonicalPrefix oldPubkey newPubkey _ _ _ _, .rotatePublisherKey otherPrefix other _ _ _ _ _ =>
    Text.startsWith canonical canonicalPrefix = true → before.map ChainRecord.publisherPubkey = some oldPubkey →
      Text.startsWith canonical otherPrefix → other ≠ oldPubkey ∧ other ≠ newPubkey
  | _, _ => True

/-- What the transactions have made of the record so far, and the one that has done it. -/
inductive Made (hash canonical : String) (before : Option ChainRecord) (txs : List Transaction) : Option ChainRecord → Prop
  | kept : Made hash canonical before txs before
  | revoked {packageCanonical reason revokedBy signature} (inside : .revoke packageCanonical reason revokedBy signature ∈ txs)
      (own : canonical = packageCanonical) :
      Made hash canonical before txs (before.map fun record => {record with status := .revoked reason})
  | rotated {canonicalPrefix oldPubkey newPubkey sigFromOld sigFromNew timestamp nonce}
      (inside : .rotatePublisherKey canonicalPrefix oldPubkey newPubkey sigFromOld sigFromNew timestamp nonce ∈ txs)
      (reached : Text.startsWith canonical canonicalPrefix)
      (held : before.map ChainRecord.publisherPubkey = some oldPubkey) :
      Made hash canonical before txs (before.map fun record => {record with publisherPubkey := newPubkey})
  | published {record} (inside : .publish record ∈ txs) (own : canonical = record.id.canonical) :
      Made hash canonical before txs (some {record with blockHash := hash})

section
variable {hash canonical : String} {before now : Option ChainRecord} {txs : List Transaction} {tx : Transaction}

theorem Made.later (made : Made hash canonical before txs now) : Made hash canonical before (txs ++ [tx]) now := by
  cases made with
  | kept => exact .kept
  | revoked inside own => exact .revoked (mem_append_left _ inside) own
  | rotated inside reached held => exact .rotated (mem_append_left _ inside) reached held
  | published inside own => exact .published (mem_append_left _ inside) own

theorem write_idle {canonicalPrefix oldPubkey newPubkey sigFromOld sigFromNew : String} {timestamp : DateTime} {nonce : Nat}
    (other : ¬(Text.startsWith canonical canonicalPrefix ∧ before.map ChainRecord.publisherPubkey = some oldPubkey)) :
      write hash canonical before
      (.rotatePublisherKey canonicalPrefix oldPubkey newPubkey sigFromOld sigFromNew timestamp nonce) = none :=
  if_neg other

theorem Made.step (made : Made hash canonical before txs now)
    (compatible : ∀ earlier ∈ txs, Compatible canonical before earlier tx) :
    (write hash canonical now tx).or now = (write hash canonical before tx).or now ∧
      Made hash canonical before (txs ++ [tx]) ((write hash canonical before tx).or now) := by
  have last : tx ∈ txs ++ [tx] := mem_append_right _ mem_cons_self
  cases tx with
  | publish record =>
    refine ⟨rfl,?_⟩
    rw [write,ChainStore.published]
    split_ifs with own
    · exact .published last own
    · exact made.later
  | revoke packageCanonical reason =>
    rw [write,write]
    split_ifs with own
    · cases made with
      | kept =>
        refine ⟨rfl,?_⟩
        cases before with
        | none => exact .kept
        | some record => exact .revoked last own
      | revoked inside =>
        cases before with
        | none => exact ⟨rfl,.kept⟩
        | some record => exact ⟨rfl,.revoked last own⟩
      | rotated inside reached held => exact absurd held (compatible _ inside own reached)
      | published inside same => exact absurd own (compatible _ inside same)
    · exact ⟨rfl,made.later⟩
  | rotatePublisherKey canonicalPrefix oldPubkey newPubkey =>
    by_cases reached : Text.startsWith canonical canonicalPrefix
    · -- beside the first one to reach the package, a rotation has no key to rotate
      suffices idle : now = before ∨ now.map ChainRecord.publisherPubkey ≠ some oldPubkey ∧
          before.map ChainRecord.publisherPubkey ≠ some oldPubkey by
        rcases idle with rfl | ⟨left,held⟩
        · refine ⟨rfl,?_⟩
          rw [write]
          split_ifs with rotates
          · cases now with
            | none => cases rotates.2
            | some record => exact .rotated last reached rotates.2
          · exact .kept
        · rw [write_idle fun both => left both.2,write_idle fun both => held both.2]
          exact ⟨rfl,made.later⟩
      cases made with
      | kept => exact .inl rfl
      | revoked inside own =>
        have held := compatible _ inside own reached
        refine .inr ⟨fun same => held ?_,held⟩
        rw [← same]
        cases before <;> rfl
      | rotated inside first held =>
        obtain ⟨old,new⟩ := compatible _ inside first held reached
        obtain ⟨record,rfl,rfl⟩ := map_eq_some_iff.mp held
        exact .inr ⟨fun same => new (Option.some.inj same).symm,fun same => old (Option.some.inj same).symm⟩
      | published inside own =>
        obtain ⟨key,held⟩ := compatible _ inside own reached
        exact .inr ⟨fun same => key (Option.some.inj same),held⟩
    · rw [write_idle fun both => reached both.1,write_idle fun both => reached both.1]
      exact ⟨rfl,made.later⟩
  | slash | validatorJoin | validatorLeave => exact ⟨rfl,made.later⟩

end

/-- The package index after a block is the one that its transactions give one after another, where of two that
concern one package the later one publishes it or both revoke it. -/
theorem insertBlock_in_order (crates : Crates) (store : ChainStore) (block : Block)
    (compatible : ∀ canonical, block.transactions.Pairwise (Compatible canonical (store.packages.lookup canonical)))
    (canonical : String) : (store.insertBlock crates block).packages.lookup canonical =
      (applyInOrder (block.hash crates) store.packages block.transactions).lookup canonical := by
  rw [insertBlock,lookup_indexBlock,lookup_applyInOrder]
  exact (run_agree (fun _ _ _ made _ beside => Made.step made beside) (.kept : Made (block.hash crates) canonical _ [] _)
    (fun _ _ => trivial) (compatible canonical)).1.symm

namespace Revoked
def block : Block :=
  {Solo.block with transactions := [.publish (record "c" []),.revoke package.canonical "r" "" ""]}

def chain : ChainStore := (genesis Solo.crates).insertBlock Solo.crates block

end Revoked

/-- Two revocations of a package and its publication after them. -/
theorem publication_after_revocations :
    let block := {Revoked.block with transactions :=
      [.revoke package.canonical "r" "" "",.revoke package.canonical "s" "" "",.publish (record "d" [])]}
    (Revoked.chain.insertBlock Solo.crates block).packages.lookup package.canonical =
      (applyInOrder (block.hash Solo.crates) Revoked.chain.packages block.transactions).lookup package.canonical :=
  insertBlock_in_order Solo.crates Revoked.chain _ (by simp [Compatible]) package.canonical

theorem revocation_beside_publication_lost :
    (Revoked.chain.packages.lookup package.canonical).map ChainRecord.status = some .verified ∧
      ((applyInOrder (Revoked.block.hash Solo.crates) (genesis Solo.crates).packages Revoked.block.transactions).lookup
        package.canonical).map ChainRecord.status = some (.revoked "r") := by
  decide +kernel

def replay (crates : Crates) (index : Table String ChainRecord) (blocks : List Block) : Table String ChainRecord :=
  blocks.foldl (fun index block => indexBlock (block.hash crates) index block) index

section
variable (listed : Listed crates store)
include listed

theorem performAll_reinsert (heights : List Nat) : (store.performAll crates (heights.map .reinsert)).packages =
      replay crates store.packages (heights.filterMap store.getBlockByHeight) ∧
    SameChain (store.performAll crates (heights.map .reinsert)) store := by
  induction heights generalizing store with
  | nil => exact ⟨rfl,fun _ => rfl,fun _ => rfl⟩
  | cons height heights ih =>
    have same := listed.reinsert height
    have kept : Listed crates (store.perform crates (.reinsert height)) := by
      intro other hash found
      rw [same.heights] at found
      rw [same.hashes]
      exact listed other hash found
    obtain ⟨packages,rest⟩ := ih kept
    refine ⟨?_,fun hash => (rest.hashes hash).trans (same.hashes hash),fun other =>
      (rest.heights other).trans (same.heights other)⟩
    rw [map_cons,performAll,foldl_cons]
    refine packages.trans ?_
    rw [same.view]
    cases found : store.getBlockByHeight height with
    | none => simp [perform,found]
    | some block =>
      rw [filterMap_cons_some found]
      simp [perform,found,replay,insertBlock]

theorem rebuildPackageIndex_same : SameChain (store.rebuildPackageIndex crates) store := by
  have cleared : Listed crates {store with packages := ∅} := listed
  obtain ⟨_,same⟩ := performAll_reinsert cleared (List.range (store.tipHeight + 1))
  exact ⟨same.hashes,same.heights⟩

theorem rebuildPackageIndex_spec : (store.rebuildPackageIndex crates).packages = replay crates ∅ store.canonicalBlocks ∧
    (store.rebuildPackageIndex crates).canonicalBlocks = store.canonicalBlocks := by
  have cleared : Listed crates {store with packages := ∅} := listed
  have same := rebuildPackageIndex_same listed
  refine ⟨(performAll_reinsert cleared (List.range (store.tipHeight + 1))).1,?_⟩
  rw [canonicalBlocks,same.view,same.tipHeight,canonicalBlocks]

end

structure FullIndex (crates : Crates) (store : ChainStore) (tip : Nat) : Prop where
  full : ∀ height, (store.blocksByHeight.lookup height).isSome ↔ height ≤ tip
  listed : Listed crates store

theorem packages_insertAll (store : ChainStore) (blocks : List Block) :
    (blocks.foldl (insertBlock crates) store).packages = replay crates store.packages blocks := by
  induction blocks generalizing store with
  | nil => rfl
  | cons block blocks ih => exact ih (store.insertBlock crates block)

theorem FullIndex.rollback {tip : Nat} (index : FullIndex crates store tip) (height : Nat) :
    FullIndex crates (store.rollbackToHeight height).1 (min height tip) := by
  constructor
  · intro other
    rw [lookup_rollback,Nat.le_min]
    split_ifs with low
    · rw [index.full]
      exact (and_iff_right low).symm
    · simp [low]
  · intro other hash found
    rw [lookup_rollback] at found
    split_ifs at found
    exact index.listed other hash found

/-- A rollback that is followed by a rebuild leaves the chain up to the height, and the
package index of an empty store into which its blocks are inserted in order. -/
theorem rollback_rebuild_replays {tip : Nat} (index : FullIndex crates store tip) (height : Nat) :
    let rebuilt := (store.rollbackToHeight height).1.rebuildPackageIndex crates
    (∀ other, (rebuilt.blocksByHeight.lookup other).isSome ↔ other ≤ min height tip) ∧
      (∀ other ≤ min height tip, rebuilt.blocksByHeight.lookup other = store.blocksByHeight.lookup other ∧
        rebuilt.getBlockByHeight other = store.getBlockByHeight other) ∧
      rebuilt.packages = (((List.range (min height tip + 1)).filterMap store.getBlockByHeight).foldl (insertBlock crates)
        ⟨∅,∅,∅⟩).packages := by
  intro rebuilt
  have rolled := index.rollback height
  have same : SameChain rebuilt (store.rollbackToHeight height).1 := rebuildPackageIndex_same rolled.listed
  have low : ∀ other ≤ min height tip, other ≤ height := fun other inside => inside.trans (Nat.min_le_left _ _)
  have view : ∀ other ≤ min height tip, (store.rollbackToHeight height).1.getBlockByHeight other =
    store.getBlockByHeight other := by
    intro other inside
    rw [view_rollback,LinkedChain.cut,if_pos (low other inside)]
  refine ⟨fun other => ?_,fun other inside => ⟨?_,?_⟩,?_⟩
  · rw [same.heights]
    exact rolled.full other
  · rw [same.heights,lookup_rollback,if_pos (low other inside)]
  · rw [same.view,view other inside]
  · rw [packages_insertAll,(rebuildPackageIndex_spec rolled.listed).1,canonicalBlocks,tipHeight_eq rolled.full]
    congr 1
    apply filterMap_congr
    intro other inside
    exact view other (Nat.lt_succ_iff.mp (mem_range.mp inside))

theorem Revoked.full : FullIndex Solo.crates Revoked.chain 1 := by
  have apart : Block.genesis.hash Solo.crates ≠ Revoked.block.hash Solo.crates := by decide +kernel
  constructor
  · intro height
    simp only [Revoked.chain,genesis,insertBlock,lookup_insert_eq]
    have tops : Block.genesis.header.height = 0 ∧ Revoked.block.header.height = 1 := by decide
    rw [tops.1,tops.2]
    split_ifs <;> simp <;> omega
  · intro height hash found
    simp only [Revoked.chain,genesis,insertBlock,lookup_insert_eq] at found ⊢
    split_ifs at found with own first
    · cases found
      exact ⟨Revoked.block,if_pos rfl,rfl,own.symm⟩
    · cases found
      exact ⟨Block.genesis,by rw [if_neg apart,if_pos rfl],rfl,first.symm⟩
    · simp at found

theorem revoked_rolled_back : ((Revoked.chain.rollbackToHeight 0).1.rebuildPackageIndex Solo.crates).packages.keys = [] ∧
    Revoked.chain.packages.keys ≠ [] := by
  obtain ⟨_,_,packages⟩ := rollback_rebuild_replays Revoked.full 0
  exact ⟨by rw [packages]; decide +kernel,by decide +kernel⟩

end ChainRegistry.ChainStore
