import ChainRegistry.DbSync.ApplyBlock
import ChainRegistry.Network.DerivedIndexes

/-! The worker that mirrors the chain: `crates/db-sync/src/sync_worker.rs`. The chain store changes
between any two steps of `tick`, and `tick` stops at any of them by a crash or a failed statement.
-/
namespace ChainRegistry
open Lib Runs LinkedChain List

structure Mirror where
  packages : Mirror.Packages
  blocks : Table Nat String
  lastHeight : Nat

namespace Mirror
def bootstrap : Mirror := ⟨∅,∅,0⟩

/-- `apply_block`, in one transaction. -/
def applyBlock (crates : Crates) (mirror : Mirror) (block : Block) : Mirror where
  packages := applyTransactions mirror.packages block.transactions
  -- ON CONFLICT (height) DO NOTHING
  blocks :=
    if (mirror.blocks.lookup block.header.height).isSome then mirror.blocks
    else mirror.blocks.insert block.header.height (block.hash crates)
  lastHeight := mirror.lastHeight

end Mirror

inductive TickPhase
  | stopped | finished
  | syncing (height tip : Nat)
  | holding (height tip : Nat) (block : Block)
  | committed (height tip : Nat) (block : Block)
  deriving DecidableEq

def TickPhase.read : TickPhase → Option (Nat × Block)
  | .holding height _ block => some (height,block)
  | _ => none

def TickPhase.applied : TickPhase → Option Block
  | .committed _ _ block => some block
  | _ => none

structure SyncWorker where
  store : ChainStore
  mirror : Mirror
  phase : TickPhase

inductive SyncEvent
  | write (write : ChainStore.Write)
  | step | crash

namespace SyncWorker
section
variable (crates : Crates)

def start : SyncWorker := ⟨.genesis crates,.bootstrap,.stopped⟩

variable (worker : SyncWorker)

def begins : TickPhase :=
  if worker.store.tipHeight ≤ worker.mirror.lastHeight then .finished
  else .syncing (worker.mirror.lastHeight + 1) worker.store.tipHeight

def tick (worker : SyncWorker) : SyncWorker :=
  match worker.phase with
  | .stopped => {worker with phase := worker.begins}
  | .finished => {worker with phase := worker.begins}
  | .syncing height tip =>
    if tip < height then {worker with phase := .finished}
    else
      match worker.store.getBlockByHeight height with
      | some block => {worker with phase := .holding height tip block}
      | none => {worker with phase := .finished}
  | .holding height tip block =>
    {worker with mirror := worker.mirror.applyBlock crates block, phase := .committed height tip block}
  | .committed height tip _ =>
    {worker with mirror := {worker.mirror with lastHeight := height}, phase := .syncing (height + 1) tip}

def next (worker : SyncWorker) : SyncEvent → SyncWorker
  | .write write => {worker with store := worker.store.perform crates write}
  | .step => worker.tick crates
  | .crash => {worker with phase := .stopped}

def MirrorsIndex : Prop :=
  worker.phase = .finished → worker.mirror.lastHeight = worker.store.tipHeight → ∀ canonical,
    worker.mirror.packages.lookup canonical = Mirror.column (worker.store.rebuildPackageIndex crates).packages canonical

end

variable (worker : SyncWorker)

def Shown (height : Nat) : Prop :=
  height ≤ worker.mirror.lastHeight ∨ (worker.mirror.blocks.lookup height).isSome ∨
    ∃ block, worker.phase.read = some (height,block)

/-- Mirrored blocks stay, a block applied first is undisturbed, and one applied again settles. -/
def Steady : SyncEvent → Prop
  | .write (.rollback height) => ∀ shown, worker.Shown shown → shown ≤ height
  | .write (.insert block) => worker.Shown block.header.height → worker.store.getBlockByHeight block.header.height = some block
  | .write _ => True
  | .step => ∀ height block, worker.phase.read = some (height,block) → worker.mirror.blocks.lookup height = none →
    Mirror.Undisturbed worker.mirror.packages block.transactions
  | .crash => ∀ block, worker.phase.applied = some block → block.transactions.Pairwise Mirror.Settles

end SyncWorker

namespace ChainStore
variable {crates : Crates} {store other : ChainStore} {height : Nat}

def upTo (store : ChainStore) (height : Nat) : List Block := (List.range (height + 1)).filterMap store.getBlockByHeight

theorem upTo_congr (same : ∀ h ≤ height, other.getBlockByHeight h = store.getBlockByHeight h) :
    other.upTo height = store.upTo height := by
  apply filterMap_congr
  intro h inside
  exact same h (Nat.lt_succ_iff.mp (mem_range.mp inside))

theorem replay_succ {block : Block} (found : store.getBlockByHeight (height + 1) = some block) :
    replay crates ∅ (store.upTo (height + 1)) = indexBlock (block.hash crates) (replay crates ∅ (store.upTo height)) block := by
  rw [upTo,range_succ,filterMap_append,filterMap_cons_some found,replay,foldl_append]
  rfl

end ChainStore

namespace SyncWorker
open Mirror

variable {crates : Crates} {worker : SyncWorker} {applied height : Nat}

def Repeats (worker : SyncWorker) (applied : Nat) : Prop :=
  applied = worker.mirror.lastHeight + 1 → ∀ block, worker.store.getBlockByHeight applied = some block → ∀ canonical,
    (applyTransactions worker.mirror.packages block.transactions).lookup canonical = worker.mirror.packages.lookup canonical

def InPhase (worker : SyncWorker) (applied : Nat) : TickPhase → Prop
  | .syncing height _ => height = worker.mirror.lastHeight + 1 ∧ worker.Repeats applied
  | .holding height _ block =>
    height = worker.mirror.lastHeight + 1 ∧ worker.store.getBlockByHeight height = some block ∧ worker.Repeats applied
  | .committed height _ block => height = worker.mirror.lastHeight + 1 ∧ worker.store.getBlockByHeight height = some block ∧
    applied = height ∧ ∃ before, worker.mirror.packages = applyTransactions before block.transactions
  | _ => worker.Repeats applied

structure Tracks (crates : Crates) (worker : SyncWorker) (applied : Nat) : Prop where
  indexed : ChainStore.Indexed crates worker.store
  present : ∀ height ≤ applied, ∃ block, worker.store.getBlockByHeight height = some block
  rows : ∀ canonical, worker.mirror.packages.lookup canonical =
    column (ChainStore.replay crates ∅ (worker.store.upTo applied)) canonical
  mirrored : ∀ height, (worker.mirror.blocks.lookup height).isSome → height ≤ applied
  ahead : applied = worker.mirror.lastHeight ∨
    applied = worker.mirror.lastHeight + 1 ∧ (worker.mirror.blocks.lookup applied).isSome
  phase : worker.InPhase applied worker.phase

theorem Tracks.shown (tracks : Tracks crates worker applied) (low : height ≤ applied) : worker.Shown height := by
  rcases tracks.ahead with same | ⟨next,row⟩
  · exact .inl (same ▸ low)
  · rcases Nat.lt_or_ge worker.mirror.lastHeight height with above | below
    · have top : height = applied := by omega
      exact .inr (.inl (top ▸ row))
    · exact .inl below

theorem view_kept (indexed : ChainStore.Indexed crates worker.store) (injective : crates.CollisionFree) {write : ChainStore.Write}
    (steady : worker.Steady (.write write)) (shown : worker.Shown height) :
    (worker.store.perform crates write).getBlockByHeight height = worker.store.getBlockByHeight height := by
  cases write with
  | rollback low =>
    rw [ChainStore.perform,ChainStore.view_rollback,cut]
    exact if_pos (steady height shown)
  | insert block =>
    rw [ChainStore.perform,indexed.view_insert injective,put_apply]
    split_ifs with own
    · subst own
      exact (steady shown).symm
    · rfl
  | clearPackages => rfl
  | reinsert other => rw [(indexed.reinsert other).2.1]

theorem Tracks.write (tracks : Tracks crates worker applied) (injective : crates.CollisionFree) {write : ChainStore.Write}
    (steady : worker.Steady (.write write)) : Tracks crates (worker.next crates (.write write)) applied := by
  have kept : ∀ {height}, worker.Shown height →
      (worker.store.perform crates write).getBlockByHeight height = worker.store.getBlockByHeight height :=
        view_kept tracks.indexed injective steady
  have repeats : worker.Repeats applied → (worker.next crates (.write write)).Repeats applied := by
    intro repeats next block found
    exact repeats next block ((kept (tracks.shown le_rfl)).symm.trans found)
  constructor
  · exact tracks.indexed.perform injective write
  · intro height low
    obtain ⟨block,found⟩ := tracks.present height low
    exact ⟨block,(kept (tracks.shown low)).trans found⟩
  · intro canonical
    refine (tracks.rows canonical).trans ?_
    have same : (worker.store.perform crates write).upTo applied = worker.store.upTo applied :=
      ChainStore.upTo_congr fun height low => kept (tracks.shown low)
    exact congrArg (fun blocks => column (ChainStore.replay crates ∅ blocks) canonical) same.symm
  · exact tracks.mirrored
  · exact tracks.ahead
  · have phase := tracks.phase
    change (worker.next crates (.write write)).InPhase applied worker.phase
    cases at_ : worker.phase with
    | stopped | finished =>
      rw [at_] at phase
      exact repeats phase
    | syncing height tip =>
      rw [at_] at phase
      exact ⟨phase.1,repeats phase.2⟩
    | holding height tip block =>
      rw [at_] at phase
      have held : worker.phase.read = some (height,block) := by rw [at_,TickPhase.read]
      exact ⟨phase.1,(kept (.inr (.inr ⟨block,held⟩))).trans phase.2.1,repeats phase.2.2⟩
    | committed height tip block =>
      rw [at_] at phase
      obtain ⟨next,found,rfl,made⟩ := phase
      exact ⟨next,(kept (tracks.shown le_rfl)).trans found,rfl,made⟩

section
variable {tip : Nat} {block : Block}

theorem lookup_blocks_applyBlock (mirror : Mirror) (block : Block) (height : Nat) :
    ((mirror.applyBlock crates block).blocks.lookup height).isSome ↔
      height = block.header.height ∨ (mirror.blocks.lookup height).isSome := by
  rw [applyBlock]
  split_ifs with row
  · constructor
    · exact .inr
    · rintro (rfl | found)
      · exact row
      · exact found
  · rw [Table.lookup_insert_eq]
    split_ifs with own
    · exact iff_of_true rfl (.inl own)
    · exact (or_iff_right own).symm

section
variable (tracks : Tracks crates worker applied)
include tracks

theorem Tracks.rows_first (found : worker.store.getBlockByHeight (applied + 1) = some block)
    (undisturbed : Undisturbed worker.mirror.packages block.transactions) (canonical : String) :
    (applyTransactions worker.mirror.packages block.transactions).lookup canonical =
      column (ChainStore.replay crates ∅ (worker.store.upTo (applied + 1))) canonical := by
  rw [ChainStore.replay_succ found]
  exact applyTransactions_column _ tracks.rows undisturbed canonical

theorem Tracks.rows_applied (at_ : worker.phase = .holding height tip block) (steady : worker.Steady .step)
    (canonical : String) : (applyTransactions worker.mirror.packages block.transactions).lookup canonical =
      column (ChainStore.replay crates ∅ (worker.store.upTo height)) canonical := by
  have phase := tracks.phase
  rw [at_] at phase
  obtain ⟨rfl,found,repeats⟩ := phase
  rcases tracks.ahead with rfl | ⟨rfl,_⟩
  · have read : worker.phase.read = some (worker.mirror.lastHeight + 1,block) := by rw [at_,TickPhase.read]
    apply tracks.rows_first found
    apply steady _ block read
    rw [← Option.not_isSome_iff_eq_none]
    intro row
    exact absurd (tracks.mirrored _ row) (Nat.not_succ_le_self _)
  · rw [repeats rfl block found canonical]
    exact tracks.rows canonical

theorem Tracks.commit (at_ : worker.phase = .holding height tip block) (steady : worker.Steady .step) :
    Tracks crates {worker with mirror := worker.mirror.applyBlock crates block, phase := .committed height tip block} height := by
  have phase := tracks.phase
  rw [at_] at phase
  obtain ⟨next,found,_⟩ := phase
  have place : block.header.height = height := tracks.indexed.height_eq found
  have reached : applied ≤ height ∧ height ≤ applied + 1 := by
    rcases tracks.ahead with same | ⟨same,_⟩
    · omega
    · omega
  constructor
  · exact tracks.indexed
  · intro other low
    rcases Nat.lt_or_ge other height with below | top
    · exact tracks.present other (by omega)
    · exact ⟨block,by rwa [Nat.le_antisymm low top]⟩
  · exact tracks.rows_applied at_ steady
  · intro other row
    rcases (lookup_blocks_applyBlock worker.mirror block other).mp row with own | old
    · omega
    · have low := tracks.mirrored other old
      omega
  · exact .inr ⟨next,(lookup_blocks_applyBlock worker.mirror block height).mpr (.inl place.symm)⟩
  · exact ⟨next,found,rfl,worker.mirror.packages,rfl⟩

theorem Tracks.advance (at_ : worker.phase = .committed height tip block) :
    Tracks crates
      {worker with mirror := {worker.mirror with lastHeight := height}, phase := .syncing (height + 1) tip} height := by
  have phase := tracks.phase
  rw [at_] at phase
  obtain ⟨_,_,rfl,_⟩ := phase
  refine ⟨tracks.indexed,tracks.present,tracks.rows,tracks.mirrored,.inl rfl,rfl,?_⟩
  intro next
  exact absurd next (Nat.succ_ne_self _).symm

end

end

theorem Tracks.enter (tracks : Tracks crates worker applied) {phase : TickPhase} (inPhase : worker.InPhase applied phase) :
    Tracks crates {worker with phase := phase} applied where
  indexed := tracks.indexed
  present := tracks.present
  rows := tracks.rows
  mirrored := tracks.mirrored
  ahead := tracks.ahead
  phase := inPhase

theorem inPhase_begins (repeats : worker.Repeats applied) : worker.InPhase applied worker.begins := by
  rw [begins]
  split_ifs
  · exact repeats
  · exact ⟨rfl,repeats⟩

section
variable (tracks : Tracks crates worker applied)
include tracks

theorem Tracks.step (steady : worker.Steady .step) : ∃ reached, Tracks crates (worker.next crates .step) reached := by
  have phase := tracks.phase
  rw [next,tick]
  cases at_ : worker.phase with
  | stopped | finished =>
    rw [at_] at phase
    exact ⟨applied,tracks.enter (inPhase_begins phase)⟩
  | syncing height tip =>
    rw [at_] at phase
    dsimp only
    split_ifs
    · exact ⟨applied,tracks.enter phase.2⟩
    · cases found : worker.store.getBlockByHeight height with
      | some block => exact ⟨applied,tracks.enter ⟨phase.1,found,phase.2⟩⟩
      | none => exact ⟨applied,tracks.enter phase.2⟩
  | holding height tip block => exact ⟨height,tracks.commit at_ steady⟩
  | committed height tip block => exact ⟨height,tracks.advance at_⟩

theorem Tracks.crash (steady : worker.Steady .crash) : Tracks crates (worker.next crates .crash) applied := by
  apply tracks.enter
  have phase := tracks.phase
  cases at_ : worker.phase with
  | stopped | finished =>
    rw [at_] at phase
    exact phase
  | syncing height tip =>
    rw [at_] at phase
    exact phase.2
  | holding height tip block =>
    rw [at_] at phase
    exact phase.2.2
  | committed height tip block =>
    rw [at_] at phase
    obtain ⟨_,found,rfl,before,made⟩ := phase
    have settled := steady block (by rw [at_,TickPhase.applied])
    -- the block is in the rows but not below the cursor, so that the next tick applies it again
    intro _ other present canonical
    cases found.symm.trans present
    rw [made]
    exact applyTransactions_again settled before canonical

theorem Tracks.next (injective : crates.CollisionFree) {event : SyncEvent} (steady : worker.Steady event) :
    ∃ reached, Tracks crates (worker.next crates event) reached := by
  cases event with
  | write write => exact ⟨applied,tracks.write injective steady⟩
  | step => exact tracks.step steady
  | crash => exact ⟨applied,tracks.crash steady⟩

end

theorem tracks_start (injective : crates.CollisionFree) : Tracks crates (start crates) 0 := by
  have genesis := ChainStore.getBlockByHeight_genesis injective
  constructor
  · exact ChainStore.indexed_genesis injective
  · intro height low
    rw [Nat.le_zero.mp low]
    exact ⟨_,genesis⟩
  · intro canonical
    have first : (ChainStore.genesis crates).upTo 0 = [Block.genesis] := filterMap_cons_some genesis
    rw [start,first]
    rfl
  · intro height row
    cases row
  · exact .inl rfl
  · intro next
    cases next

theorem Tracks.mirrorsIndex (tracks : Tracks crates worker applied) : worker.MirrorsIndex crates := by
  intro _ top canonical
  have same : applied = worker.store.tipHeight := by
    rcases tracks.ahead with same | ⟨same,_⟩
    · exact same.trans top
    · obtain ⟨block,found⟩ := tracks.present applied le_rfl
      have low := ChainStore.le_tipHeight ((tracks.indexed.isSome_iff applied).mp (by rw [found]; rfl))
      omega
  subst same
  rw [tracks.rows canonical,(ChainStore.rebuildPackageIndex_spec tracks.indexed.listed).1]
  rfl

/-- The mirror equals the package index in every steady run, through crashes and rollbacks. -/
theorem mirror_equals_index (crates : Crates) (injective : crates.CollisionFree) (events : List SyncEvent)
    (steady : Along (next crates) Steady (start crates) events) :
      Throughout (next crates) (MirrorsIndex crates) (start crates) events := by
  have keeps : ∀ worker event, (∃ applied, Tracks crates worker applied) → worker.Steady event →
      ∃ applied, Tracks crates (worker.next crates event) applied := fun _ _ tracked steady =>
    tracked.elim fun _ tracks => tracks.next injective steady
  have shows : ∀ worker, (∃ applied, Tracks crates worker applied) → worker.MirrorsIndex crates := fun _ tracked =>
    tracked.elim fun _ tracks => tracks.mirrorsIndex
  exact throughout_run keeps shows _ events ⟨0,tracks_start injective⟩ steady

end SyncWorker

/-! A package of the key "p" is published in the first block. -/
namespace Mirrored
open SyncWorker

def publication : Transaction := .publish (Solo.record "h" [])

def rotation (canonicalPrefix oldPubkey newPubkey : String) : Transaction :=
    .rotatePublisherKey canonicalPrefix oldPubkey newPubkey "" "" 0 0

variable (transactions : List Transaction)

def first : Block := Quartet.block 1 "m" transactions

def instead : Block := Quartet.block 1 "n" []

def second : Block := Quartet.block 2 "m" transactions

def crates : Crates := Ideal.crates [Block.genesis.header,(first []).header,instead.header,(second []).header] Ideal.checksum

def insert (block : Block) : SyncEvent := .write (.insert block)

def steps (count : Nat) : List SyncEvent := List.replicate count .step

def worker (events : List SyncEvent) : SyncWorker := run (next crates) (start crates) events

/-- A replaced package stays, a rotation is applied twice, a wildcard takes another package, and a
revocation beside the publication is lost. -/
theorem mirror_differs : crates.CollisionFree ∧
    ¬ (worker (insert (first [publication]) :: steps 5 ++ [.write (.rollback 0),insert instead,.step])).MirrorsIndex crates ∧
    ¬ (worker ([insert (first [publication]),insert (second [rotation "npm" "q" "r",rotation "npm" "p" "q"])] ++
      steps 6 ++ .crash :: steps 5)).MirrorsIndex crates ∧
    ¬ (worker ([insert (first [publication]),insert (second [rotation "n_m" "p" "q"])] ++ steps 8)).MirrorsIndex crates ∧
    ¬ (worker (insert (first [publication,.revoke Solo.package.canonical "r" "" ""]) :: steps 5)).MirrorsIndex crates := by
  have differs : ∀ worker : SyncWorker, worker.phase = .finished ∧ worker.mirror.lastHeight = worker.store.tipHeight ∧
      worker.mirror.packages.lookup Solo.package.canonical ≠
        Mirror.column (worker.store.rebuildPackageIndex crates).packages Solo.package.canonical → ¬ worker.MirrorsIndex crates :=
    fun _ ended mirrors => ended.2.2 (mirrors ended.1 ended.2.1 _)
  refine ⟨Ideal.collisionFree _ _,differs _ ?_,differs _ ?_,differs _ ?_,differs _ ?_⟩
  · decide +kernel
  · decide +kernel
  · decide +kernel
  · decide +kernel

def mirroring : List SyncEvent :=
  [insert (first [publication]),insert (second [rotation "npm" "p" "q"])] ++ steps 6 ++ .crash :: steps 5

theorem mirroring_steady : Along (next crates) Steady (start crates) mirroring := by
  have inserts : ∀ {worker : SyncWorker} {block : Block}, worker.mirror.lastHeight < block.header.height ∧
      worker.mirror.blocks.lookup block.header.height = none ∧ worker.phase.read = none → worker.Steady (insert block) := by
    rintro worker block ⟨above,unmirrored,unread⟩ (low | row | ⟨_,read⟩)
    · exact absurd low (Nat.not_le.mpr above)
    · rw [unmirrored] at row
      cases row
    · cases unread.symm.trans read
  have idle : ∀ {worker : SyncWorker}, worker.phase.read = none → worker.Steady .step := by
    intro worker unread height block read
    cases unread.symm.trans read
  have applies : ∀ (block : Block) (tx : Transaction) {worker : SyncWorker},
      worker.phase.read = some (block.header.height,block) ∧ block.transactions = [tx] →
      Mirror.PatternIsPrefix worker.mirror.packages tx → worker.Steady .step := by
    rintro block tx worker ⟨read,alone⟩ pattern _ _ read'
    cases read.symm.trans read'
    intro _
    rw [alone]
    refine ⟨fun other inside => ?_,pairwise_singleton _ _⟩
    rw [mem_singleton.mp inside]
    exact pattern
  have pattern : ∀ packages, Mirror.PatternIsPrefix packages (rotation "npm" "p" "q") := by
    intro packages canonical _
    apply Sql.like_plain
    have letters : "npm".toList = ['n','p','m'] := by decide
    rw [letters]
    simp
  refine ⟨inserts (by decide +kernel),inserts (by decide +kernel),
    idle (by decide +kernel),idle (by decide +kernel),?_,idle (by decide +kernel),idle (by decide +kernel),?_,?_,
    idle (by decide +kernel),idle (by decide +kernel),?_,idle (by decide +kernel),idle (by decide +kernel),trivial⟩
  · exact applies (first [publication]) publication (by decide +kernel) trivial
  · exact applies (second [rotation "npm" "p" "q"]) _ (by decide +kernel) (pattern _)
  · intro block applied
    have own : block = second [rotation "npm" "p" "q"] := Option.some.inj (applied.symm.trans (by decide +kernel))
    rw [own]
    exact pairwise_singleton _ _
  · exact applies (second [rotation "npm" "p" "q"]) _ (by decide +kernel) (pattern _)

theorem mirroring_equals : (worker mirroring).phase = .finished ∧
    (worker mirroring).mirror.lastHeight = (worker mirroring).store.tipHeight ∧
    (worker mirroring).mirror.packages.lookup Solo.package.canonical = some ⟨.verified,"h","q"⟩ ∧
    Throughout (next crates) (MirrorsIndex crates) (start crates) mirroring := by
  refine ⟨?_,?_,?_,mirror_equals_index crates (Ideal.collisionFree _ _) mirroring mirroring_steady⟩
  · decide +kernel
  · decide +kernel
  · decide +kernel

end Mirrored
end ChainRegistry
