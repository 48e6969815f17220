import ChainRegistry.Node.StakingMirror
import ChainRegistry.Node.SyncDelivery

/-! The observed set over whole runs of the worker: polls, restarts with the cursor on disk, and
reorgs of the L1. The chain that the endpoints tell of is a part of every event of a run. -/
namespace ChainRegistry.SetSync
open Lib Runs List Option Text Finset Membership

structure L1Block where
  hash : Word
  events : List (Nat × Word × Log)
  increasing : events.Pairwise fun first second => first.1 < second.1

abbrev L1 := List L1Block

def blockViews (chain : L1) (number : Nat) : List LogView :=
  ((chain[number]?.map L1Block.events).getD []).map fun event => ⟨event.2.2,number,event.1,event.2.1⟩

def viewsIn (chain : L1) (fromBlock toBlock : Nat) : List LogView :=
  (List.range' fromBlock (toBlock + 1 - fromBlock)).flatMap (blockViews chain)

def hashAt (chain : L1) (number : Nat) : Option String := chain[number]?.map fun block => wordText block.hash

/-- What the endpoint answers is so on the chain. The height that it tells does not matter: a
block that is not there has no hash. -/
structure Endpoint.Honest (chain : L1) (endpoint : Endpoint) : Prop where
  hashOf : ∀ block hash, endpoint.hashOf block = some hash → hashAt chain block = some hash
  logsOf : ∀ fromBlock toBlock logs, endpoint.logsOf fromBlock toBlock = some logs → logs = viewsIn chain fromBlock toBlock

/-- The hash that is told for the start block is not among these: it is asked for again before
anything is written. -/
structure Io.Honest (chain : L1) (io : Io) : Prop where
  check : ∀ url, (io.check url).Honest chain
  logs : ∀ url, (io.logs url).Honest chain
  hash : ∀ url, (io.hash url).Honest chain

theorem viewsIn_append (chain : L1) {lo mid hi : Nat} (first : lo ≤ mid + 1) (second : mid ≤ hi) :
    viewsIn chain lo mid ++ viewsIn chain (mid + 1) hi = viewsIn chain lo hi := by
  have reached : lo + (mid + 1 - lo) = mid + 1 := by omega
  have whole : mid + 1 - lo + (hi + 1 - (mid + 1)) = hi + 1 - lo := by omega
  rw [viewsIn,viewsIn,viewsIn,← flatMap_append,← whole,← range'_append_1,reached]

variable {deltas : List ValidatorSetDelta} {lo hi : Nat} {replies : Replies}

theorem viewsIn_empty (chain : L1) (none : hi < lo) : viewsIn chain lo hi = [] := by
  have zero : hi + 1 - lo = 0 := by omega
  rw [viewsIn,zero]
  rfl

theorem mem_viewsIn {chain : L1} {view : LogView} (inside : view ∈ viewsIn chain lo hi) :
    lo ≤ view.blockNumber ∧ view.blockNumber ≤ hi := by
  obtain ⟨number,bounds,own⟩ := mem_flatMap.mp inside
  obtain ⟨event,_,rfl⟩ := List.mem_map.mp own
  rw [mem_range'_1] at bounds
  dsimp only
  omega

theorem inOrder_viewsIn (chain : L1) (lo hi : Nat) : InOrder (viewsIn chain lo hi) := by
  unfold InOrder viewsIn
  rw [pairwise_flatMap]
  constructor
  · intro number _
    unfold blockViews
    rw [pairwise_map]
    cases chain[number]? with
    | none => exact List.Pairwise.nil
    | some block =>
      refine block.increasing.imp ?_
      intro first second less
      exact (notAfter_false _ _).mpr (.inr ⟨rfl,less⟩)
  · refine List.Pairwise.imp ?_ (pairwise_lt_range' ..)
    intro first second less view own other own'
    obtain ⟨_,_,rfl⟩ := List.mem_map.mp own
    obtain ⟨_,_,rfl⟩ := List.mem_map.mp own'
    exact (notAfter_false _ _).mpr (.inl less)

theorem viewsIn_congr {chain other : L1} (same : ∀ number ≤ hi, chain[number]? = other[number]?) :
    viewsIn chain lo hi = viewsIn other lo hi := by
  apply flatMap_congr
  intro number inside
  rw [mem_range'_1] at inside
  rw [blockViews,blockViews,same number (by omega)]

def deltasIn (chain : L1) (lo hi : Nat) : List ValidatorSetDelta := (viewsIn chain (lo + 1) hi).filterMap decode

theorem mem_deltasIn {chain : L1} {delta : ValidatorSetDelta} (inside : delta ∈ deltasIn chain lo hi) :
    lo < delta.blockHeight ∧ delta.blockHeight ≤ hi := by
  obtain ⟨view,given,decoded⟩ := List.mem_filterMap.mp inside
  have bounds := mem_viewsIn given
  have place := congrArg Prod.fst (position_decode decoded)
  change delta.blockHeight = view.blockNumber at place
  omega

theorem ordered_deltasIn (chain : L1) (lo hi : Nat) : Ordered (deltasIn chain lo hi) :=
  ordered_decode (inOrder_viewsIn chain (lo + 1) hi)

def itemsIn (chain : L1) (lo hi : Nat) : List (String × Bool) := (deltasIn chain lo hi).filterMap ValidatorSetDelta.item

theorem itemsIn_append (chain : L1) {lo mid hi : Nat} (first : lo ≤ mid) (second : mid ≤ hi) :
    itemsIn chain lo mid ++ itemsIn chain mid hi = itemsIn chain lo hi := by
  rw [itemsIn,itemsIn,itemsIn,← filterMap_append,deltasIn,deltasIn,deltasIn,← filterMap_append,
    viewsIn_append chain (by omega) second]

def folded (bootstrap : Validators) (chain : L1) (lo hi : Nat) : Finset String :=
  ((deltasIn chain lo hi).foldl applyDelta (seedWorkerStateFromBootstrap bootstrap)).observedActive

section
variable (bootstrap : Validators) (chain : L1)
include bootstrap chain

theorem folded_eq (lo hi : Nat) : folded bootstrap chain lo hi =
    Membership.after (seedWorkerStateFromBootstrap bootstrap).observedActive (itemsIn chain lo hi) := by
  rw [folded,foldl_applyDelta _ (fun _ _ => rfl) (ordered_deltasIn chain lo hi)]
  rfl

theorem folded_start (height : Nat) :
    folded bootstrap chain height height = (seedWorkerStateFromBootstrap bootstrap).observedActive := by
  rw [folded,deltasIn,viewsIn_empty chain (Nat.lt_succ_self height)]
  rfl

theorem folded_extend {lo mid hi : Nat} (first : lo ≤ mid) (second : mid ≤ hi) :
    Membership.after (folded bootstrap chain lo mid) (itemsIn chain mid hi) = folded bootstrap chain lo hi := by
  rw [folded_eq,folded_eq,← after_append,itemsIn_append chain first second]

theorem folded_union_start {lo mid hi : Nat} (first : lo ≤ mid) (second : mid ≤ hi) :
    folded bootstrap chain lo hi ∪ folded bootstrap chain mid hi ∪ (seedWorkerStateFromBootstrap bootstrap).observedActive =
      folded bootstrap chain lo hi ∪ folded bootstrap chain hi hi := by
  have inside := after_subset (seedWorkerStateFromBootstrap bootstrap).observedActive
    (folded bootstrap chain lo mid) (itemsIn chain mid hi)
  rw [folded_extend bootstrap chain first second,← folded_eq] at inside
  rw [folded_start,union_right_comm,union_eq_left]
  exact inside

end

theorem folded_congr (bootstrap : Validators) {chain other : L1} (same : ∀ number ≤ hi, chain[number]? = other[number]?) :
    folded bootstrap chain lo hi = folded bootstrap other lo hi := by
  rw [folded,folded,deltasIn,deltasIn,viewsIn_congr same]

theorem sortDeltas_ordered (ordered : Ordered deltas) : sortDeltas deltas = deltas := by
  apply mergeSort_of_pairwise
  refine List.Pairwise.imp ?_ ordered
  intro first second apart
  rw [notAfter_false] at apart
  rw [notAfter_true]
  omega

theorem fetchChunks_honest {chain : L1} {endpoint : Endpoint} (honest : endpoint.Honest chain) {chunkSize toBlock : Nat}
    {fuel start : Nat} (enough : toBlock + 1 - start ≤ fuel)
    (fetched : fetchChunks endpoint chunkSize toBlock fuel start = some deltas) :
    deltas = (viewsIn chain start toBlock).filterMap decode := by
  induction fuel generalizing start deltas with
  | zero =>
    cases fetched
    rw [viewsIn_empty chain (by omega)]
    rfl
  | succ fuel ih =>
    unfold fetchChunks at fetched
    split_ifs at fetched with left
    · simp only [Option.bind_eq_bind,bind_eq_some_iff,Option.pure_def,some.injEq] at fetched
      obtain ⟨logs,answered,rest,later,rfl⟩ := fetched
      rw [honest.logsOf _ _ _ answered,ih (by omega) later,← filterMap_append,
        viewsIn_append chain (by omega) (Nat.min_le_right _ _)]
    · cases fetched
      rw [viewsIn_empty chain (by omega)]
      rfl

theorem fetchDeltasFailover_honest {chain : L1} (honest : ∀ url, (replies url).Honest chain) {endpoints : List String}
    {chunkSize lo hi : Nat} (fetched : fetchDeltasFailover endpoints replies chunkSize (lo + 1) hi = some deltas) :
    deltas = deltasIn chain lo hi := by
  obtain ⟨url,_,found⟩ := List.exists_of_findSome?_eq_some fetched
  obtain ⟨chunks,read,rfl⟩ := map_eq_some_iff.mp found
  rw [fetchChunks_honest (honest url) le_rfl read]
  exact sortDeltas_ordered (ordered_deltasIn chain lo hi)

theorem fetchBlockHashFailover_honest {chain : L1} (honest : ∀ url, (replies url).Honest chain) {endpoints : List String}
    {block : Nat} {hash : String} (fetched : fetchBlockHashFailover endpoints replies block = some hash) :
    hashAt chain block = some hash := by
  obtain ⟨url,_,found⟩ := List.exists_of_findSome?_eq_some fetched
  exact (honest url).hashOf block hash found

/-! Hashes are compared without regard to case; those of blocks are in lower case already. -/

theorem lower_wordText (w : Word) : toAsciiLowercase (wordText w) = wordText w := toAsciiLowercase_markedHex _

theorem normal_wordText (w : Word) : toAsciiLowercase (trim (wordText w)) = wordText w := by
  rw [wordText,trim_markedHex,toAsciiLowercase_markedHex]

theorem majorityHash_all {hashes : List String} {hash : String} (nonempty : hashes ≠ []) (all : ∀ other ∈ hashes, other = hash) :
    majorityHash hashes = some (toAsciiLowercase (trim hash)) := by
  have positive := length_pos_iff.mpr nonempty
  rw [majorityHash_some,eq_replicate_iff.mpr ⟨rfl,all⟩,map_replicate,count_replicate_self,length_replicate]
  omega

theorem fetchBlockHashQuorum_honest {chain : L1} (honest : ∀ url, (replies url).Honest chain) (endpoints : List String)
    (block : Nat) :
    (∃ hash, hashAt chain block = some hash ∧ fetchBlockHashQuorum endpoints replies block = .agreed hash) ∨
      fetchBlockHashQuorum endpoints replies block = .unavailable ∧ ∀ url ∈ endpoints, (replies url).hashOf block = none := by
  unfold fetchBlockHashQuorum
  dsimp only
  by_cases silent : (endpoints.filterMap fun url => (replies url).hashOf block) = []
  · refine .inr ⟨?_,filterMap_eq_nil_iff.mp silent⟩
    rw [silent]
    rfl
  · refine .inl ?_
    obtain ⟨first,inside⟩ := exists_mem_of_ne_nil _ silent
    obtain ⟨url,_,answered⟩ := List.mem_filterMap.mp inside
    have true_hash := (honest url).hashOf block first answered
    have all : ∀ other ∈ endpoints.filterMap (fun url => (replies url).hashOf block), other = first := by
      intro other given
      obtain ⟨from_url,_,told⟩ := List.mem_filterMap.mp given
      exact some.inj (((honest from_url).hashOf block other told).symm.trans true_hash)
    obtain ⟨own,_,text⟩ := map_eq_some_iff.mp true_hash
    refine ⟨first,true_hash,?_⟩
    rw [majorityHash_all silent all,if_neg (by simpa using silent),← text,normal_wordText]

theorem cursorReorged_false {worker : WorkerState} {first second : Word} (saved : worker.cursorBlockHash = some (wordText first))
    (kept : cursorReorged worker (wordText second) = false) : first = second := by
  rw [cursorReorged,saved,any_some,decide_eq_false_iff_not,not_not,lower_wordText,lower_wordText] at kept
  exact wordText_injective kept

section Workers
variable (bootstrap : Validators) (startBlock since : Nat) (chain : L1)

structure Observes (worker : WorkerState) (block : Nat) : Prop where
  cursor : worker.cursor.map Prod.fst = some block
  started : startBlock ≤ since
  resumed : since ≤ block
  observed : worker.observedActive = folded bootstrap chain startBlock block ∪ folded bootstrap chain since block

structure Follows (worker : WorkerState) (block : Nat) : Prop extends Observes bootstrap startBlock since chain worker block where
  present : worker.cursorBlockHash.isSome
  hash : worker.cursorBlockHash = hashAt chain block

end Workers

section Views
variable {bootstrap : Validators} {startBlock since : Nat} {chain : L1} {config : SyncConfig} {io : Io}
  {worker next : WorkerState} {block : Nat}

section
variable (follows : Follows bootstrap startBlock since chain worker block)
include follows

theorem Follows.transfer {other : L1}
    (same : ∀ number ≤ block, chain[number]? = other[number]?) : Follows bootstrap startBlock since other worker block where
  cursor := follows.cursor
  started := follows.started
  resumed := follows.resumed
  observed := by
    rw [follows.observed,folded_congr bootstrap same,folded_congr bootstrap same]
  present := follows.present
  hash := by
    rw [follows.hash,hashAt,hashAt,same block le_rfl]

theorem Follows.merged : Follows bootstrap startBlock block chain
    {worker with observedActive := worker.observedActive ∪ (seedWorkerStateFromBootstrap bootstrap).observedActive} block where
  cursor := follows.cursor
  started := follows.started.trans follows.resumed
  resumed := le_rfl
  observed := by
    rw [follows.observed,folded_union_start bootstrap chain (follows.started) (follows.resumed)]
  present := follows.present
  hash := follows.hash

end

variable {safeBlock : Nat}

theorem scan_observes (observes : Observes bootstrap startBlock since chain worker block) (ahead : block < safeBlock) :
    Observes bootstrap startBlock since chain (scan safeBlock (deltasIn chain block safeBlock) worker) safeBlock := by
  obtain ⟨⟨height,index⟩,cursor,rfl⟩ := map_eq_some_iff.mp observes.cursor
  have fresh : ∀ delta ∈ deltasIn chain height safeBlock, worker.cursor.any (notAfter delta.position) = false := by
    intro delta inside
    rw [cursor,any_some,notAfter_false]
    exact .inl (mem_deltasIn inside).1
  have extended : Membership.after worker.observedActive (itemsIn chain height safeBlock) =
      folded bootstrap chain startBlock safeBlock ∪ folded bootstrap chain since safeBlock := by
    rw [observes.observed,after_union,folded_extend bootstrap chain (observes.started.trans observes.resumed) ahead.le,
      folded_extend bootstrap chain observes.resumed ahead.le]
  unfold scan
  dsimp only
  rw [sortDeltas_ordered (ordered_deltasIn chain height safeBlock),foldl_applyDelta worker fresh (ordered_deltasIn _ _ _)]
  split_ifs with behind
  · exact ⟨rfl,observes.started,observes.resumed.trans ahead.le,extended⟩
  · refine ⟨?_,observes.started,observes.resumed.trans ahead.le,extended⟩
    -- the last event read is in the last block
    cases last : (deltasIn chain height safeBlock).getLast? with
    | none =>
      rw [last,cursor] at behind
      exact absurd (decide_eq_true ahead) behind
    | some delta =>
      rw [last] at behind
      have bounds := mem_deltasIn (List.mem_of_getLast? last)
      have reached : ¬delta.blockHeight < safeBlock := fun less => behind (decide_eq_true less)
      have there : delta.blockHeight = safeBlock := by omega
      exact congrArg some there

theorem recordHash_follows (honest : io.Honest chain) (observes : Observes bootstrap startBlock since chain worker block)
    (recorded : recordHash config io worker = some next) : Follows bootstrap startBlock since chain next block := by
  obtain ⟨⟨height,index⟩,cursor,rfl⟩ := map_eq_some_iff.mp observes.cursor
  rw [recordHash,cursor] at recorded
  simp only [Option.bind_eq_bind,bind_eq_some_iff,Option.pure_def,some.injEq] at recorded
  obtain ⟨hash,fetched,rfl⟩ := recorded
  have true_hash := fetchBlockHashFailover_honest honest.hash fetched
  exact ⟨⟨rfl,observes.started,observes.resumed,observes.observed⟩,rfl,true_hash.symm⟩

theorem placed_observes (bootstrap : Validators) (startBlock : Nat) (chain : L1) (hash : Option String) :
    Observes bootstrap startBlock startBlock chain
      {seedWorkerStateFromBootstrap bootstrap with cursor := some (startBlock,blockEnd), cursorBlockHash := hash} startBlock where
  cursor := rfl
  started := le_rfl
  resumed := le_rfl
  observed := by
    rw [folded_start,union_self]

theorem rebuildWorkerState_follows (starts : config.startBlock = some startBlock) (honest : io.Honest chain)
    (rebuilt : rebuildWorkerState config bootstrap io safeBlock = some next) :
    Follows bootstrap startBlock startBlock chain next (max startBlock safeBlock) := by
  simp only [rebuildWorkerState,placeAtStart,starts,Option.bind_eq_bind,bind_eq_some_iff,Option.pure_def,
    some.injEq] at rebuilt
  obtain ⟨_,⟨hash,_,rfl⟩,rebuilt⟩ := rebuilt
  have placed := placed_observes bootstrap startBlock chain (some hash)
  dsimp only at rebuilt
  split_ifs at rebuilt with ahead
  · obtain ⟨deltas,fetched,recorded⟩ := bind_eq_some_iff.mp rebuilt
    rw [fetchDeltasFailover_honest honest.logs fetched] at recorded
    rw [max_eq_right (by omega)]
    exact recordHash_follows honest (scan_observes placed ahead) recorded
  · rw [Nat.max_eq_left (by omega)]
    exact recordHash_follows honest placed rebuilt

inductive Occasion
  | start | poll

structure Event where
  occasion : Occasion
  chain : L1
  io : Io

/-- The process, and the height behind which its events were added to the bootstrap set: that
of the cursor with which it started, or that of the start block where it had none or has rebuilt
its view since. -/
structure Watch where
  process : Process
  resumedAt : Nat
  deriving DecidableEq

section Machine
variable (config : SyncConfig) (bootstrap : Validators)

def reorgAt (io : Io) (worker : WorkerState) : Bool :=
  match worker.cursor with
  | some (block,_) => match fetchBlockHashQuorum config.rpcEndpoints io.check block with
    | .agreed hash => cursorReorged worker hash
    | .noMajority | .unavailable => false
  | none => false

def resumption (io : Io) (disk : Option WorkerState) : Nat :=
  ((if io.loads then disk else none).bind fun saved => saved.cursor.map Prod.fst).getD (config.startBlock.getD 0)

def advance (watch : Watch) (event : Event) : Watch :=
  match event.occasion with
  | .start => ⟨startWorker config bootstrap event.io watch.process.disk,resumption config event.io watch.process.disk⟩
  | .poll =>
    let rebuilds := (fetchLatestBlockQuorum config.rpcEndpoints event.io.head).isSome &&
      watch.process.worker.any (reorgAt config event.io)
    ⟨(poll config bootstrap event.io watch.process).1,if rebuilds then config.startBlock.getD 0 else watch.resumedAt⟩

def fresh : Watch := ⟨⟨none,none⟩,config.startBlock.getD 0⟩

end Machine

def Ancestry (known : L1 → Prop) : Prop :=
  ∀ chain other, known chain → known other → ∀ (number : Nat) (block block' : L1Block), chain[number]? = some block →
    other[number]? = some block' → block.hash = block'.hash → ∀ earlier ≤ number, chain[earlier]? = other[earlier]?

def Detected (config : SyncConfig) (watch : Watch) (event : Event) : Prop :=
  ∀ worker block index, watch.process.worker = some worker → worker.cursor = some (block,index) →
    hashAt event.chain block = worker.cursorBlockHash ∨
      ∃ url ∈ config.rpcEndpoints, ((event.io.check url).hashOf block).isSome

structure Fair (config : SyncConfig) (known : L1 → Prop) (watch : Watch) (event : Event) : Prop where
  known : known event.chain
  honest : event.io.Honest event.chain
  detected : event.occasion = .poll → Detected config watch event

structure Sound (bootstrap : Validators) (startBlock : Nat) (known : L1 → Prop) (watch : Watch) : Prop where
  disk : ∀ saved, watch.process.disk = some saved →
    ∃ chain since block, known chain ∧ Follows bootstrap startBlock since chain saved block
  worker : ∀ worker, watch.process.worker = some worker →
    ∃ chain block, known chain ∧ Follows bootstrap startBlock watch.resumedAt chain worker block

variable {known : L1 → Prop} {old : L1} {watch : Watch} {event : Event} {disk : Option WorkerState} {process : Process}
  {latestBlock : Nat}

section
variable (follows : Follows bootstrap startBlock since chain worker block)
include follows

theorem Follows.cursor_eq : ∃ index, worker.cursor = some (block,index) := by
  obtain ⟨⟨height,index⟩,cursor,rfl⟩ := map_eq_some_iff.mp follows.cursor
  exact ⟨index,cursor⟩

theorem Follows.recorded : ∃ own : L1Block, chain[block]? = some own ∧ worker.cursorBlockHash = some (wordText own.hash) := by
  obtain ⟨text,recorded⟩ := isSome_iff_exists.mp follows.present
  have there := follows.hash
  rw [recorded] at there
  obtain ⟨own,found,rfl⟩ := map_eq_some_iff.mp there.symm
  exact ⟨own,found,recorded⟩

end

theorem Follows.unchanged (follows : Follows bootstrap startBlock since old worker block) (ancestry : Ancestry known)
    (past : known old) (present : known chain) {own current : L1Block} (found : old[block]? = some own)
    (now : chain[block]? = some current) (same : own.hash = current.hash) :
    Follows bootstrap startBlock since chain worker block :=
  follows.transfer (ancestry old chain past present block own current found now same)

theorem saveOrStop_worker {saves : Bool} (saved : (saveOrStop saves disk worker).worker = some next) : worker = next := by
  unfold saveOrStop at saved
  split_ifs at saved
  exact some.inj saved

theorem checkCursor_follows (starts : config.startBlock = some startBlock) (ancestry : Ancestry known) (past : known old)
    (present : known chain) (honest : io.Honest chain) (follows : Follows bootstrap startBlock since old worker block)
    (detected : hashAt chain block = worker.cursorBlockHash ∨ ∃ url ∈ config.rpcEndpoints, ((io.check url).hashOf block).isSome)
    (checked : (checkCursor config bootstrap io safeBlock disk worker).worker = some next) :
    ∃ block, Follows bootstrap startBlock (if reorgAt config io worker then startBlock else since) chain next block := by
  obtain ⟨index,cursor⟩ := follows.cursor_eq
  obtain ⟨own,found,recorded⟩ := follows.recorded
  rw [checkCursor,cursor] at checked
  dsimp only at checked
  rcases fetchBlockHashQuorum_honest honest.check config.rpcEndpoints block with ⟨hash,now,agreed⟩ | ⟨silent,none⟩
  · have reorg : reorgAt config io worker = cursorReorged worker hash := by
      rw [reorgAt,cursor]
      dsimp only
      rw [agreed]
    rw [reorg]
    rw [agreed] at checked
    dsimp only at checked
    by_cases reorged : cursorReorged worker hash
    · rw [if_pos reorged] at checked ⊢
      cases rebuilt : rebuildWorkerState config bootstrap io safeBlock with
      | none =>
        rw [rebuilt] at checked
        cases checked
      | some state =>
        rw [rebuilt] at checked
        rw [← saveOrStop_worker checked]
        exact ⟨_,rebuildWorkerState_follows starts honest rebuilt⟩
    · rw [if_neg reorged,recorded] at checked
      rw [if_neg reorged]
      obtain ⟨current,there,rfl⟩ := map_eq_some_iff.mp now
      have same := cursorReorged_false recorded (Bool.eq_false_iff.mpr reorged)
      rw [← some.inj checked]
      exact ⟨block,follows.unchanged ancestry past present found there same⟩
  · have reorg : reorgAt config io worker = false := by
      rw [reorgAt,cursor]
      dsimp only
      rw [silent]
    rw [silent] at checked
    rw [reorg,if_neg Bool.false_ne_true,← some.inj checked]
    rcases detected with kept | ⟨url,given,answered⟩
    · rw [recorded] at kept
      obtain ⟨current,there,text⟩ := map_eq_some_iff.mp kept
      exact ⟨block,follows.unchanged ancestry past present found there (wordText_injective text.symm)⟩
    · rw [none url given] at answered
      cases answered

def Writes (disk : Option WorkerState) (process : Process) : Prop := process.disk = disk ∨ process.disk = process.worker

theorem saveOrStop_writes (saves : Bool) (disk : Option WorkerState) (worker : WorkerState) :
    Writes disk (saveOrStop saves disk worker) := by
  unfold saveOrStop
  split_ifs
  · exact .inr rfl
  · exact .inl rfl

theorem checkCursor_writes (config : SyncConfig) (bootstrap : Validators) (io : Io) (safeBlock : Nat)
    (disk : Option WorkerState) (worker : WorkerState) :
    Writes disk (checkCursor config bootstrap io safeBlock disk worker) := by
  unfold checkCursor
  split
  · exact .inl rfl
  · split
    · split_ifs
      · split
        · exact saveOrStop_writes _ _ _
        · exact .inl rfl
      · exact saveOrStop_writes _ _ _
      · exact .inl rfl
    · exact .inl rfl
    · exact .inl rfl

theorem startWorker_writes (config : SyncConfig) (bootstrap : Validators) (io : Io) (disk : Option WorkerState) :
    Writes disk (startWorker config bootstrap io disk) := by
  unfold startWorker
  dsimp only
  split
  · exact saveOrStop_writes _ _ _
  · exact .inl rfl

theorem readOn_follows (honest : io.Honest chain) (follows : Follows bootstrap startBlock since chain worker block)
    (safeBlock : Nat) (disk : Option WorkerState) {synced : Bool}
    (read : readOn config io safeBlock disk worker = (process,synced)) :
    Writes disk process ∧ (synced → process.worker.isSome) ∧
      ∀ next, process.worker = some next → ∃ block, Follows bootstrap startBlock since chain next block := by
  obtain ⟨index,cursor⟩ := follows.cursor_eq
  rw [readOn,cursor] at read
  by_cases behind : safeBlock < block + 1
  · rw [if_pos behind] at read
    cases read
    refine ⟨.inl rfl,fun _ => rfl,?_⟩
    rintro next ⟨⟩
    exact ⟨block,follows⟩
  · rw [if_neg behind] at read
    split at read
    · rename_i deltas fetched
      split at read
      · rename_i state recorded
        cases read
        rw [fetchDeltasFailover_honest honest.logs fetched] at recorded
        refine ⟨?_,fun _ => rfl,?_⟩
        · unfold Writes
          split_ifs
          · exact .inr rfl
          · exact .inl rfl
        · rintro next ⟨⟩
          exact ⟨safeBlock,recordHash_follows honest (scan_observes follows.toObserves (by omega)) recorded⟩
      · cases read
        refine ⟨.inl rfl,nofun,?_⟩
        rintro next ⟨⟩
    · cases read
      refine ⟨.inl rfl,nofun,?_⟩
      rintro next ⟨⟩
      exact ⟨block,follows⟩

theorem mergeBootstrap_follows (follows : Follows bootstrap startBlock since chain worker block)
    (merged : mergeBootstrap config bootstrap io worker = some next) : Follows bootstrap startBlock block chain next block := by
  obtain ⟨index,cursor⟩ := follows.cursor_eq
  rw [mergeBootstrap,cursor] at merged
  rw [← some.inj merged]
  have own := follows.merged
  rw [cursor] at own
  exact own

theorem startWorker_follows (starts : config.startBlock = some startBlock) (present : known chain) (honest : io.Honest chain)
    (sound : ∀ saved, disk = some saved → ∃ chain since block, known chain ∧ Follows bootstrap startBlock since chain saved block)
    (started : (startWorker config bootstrap io disk).worker = some next) :
    ∃ chain block, known chain ∧ Follows bootstrap startBlock (resumption config io disk) chain next block := by
  unfold startWorker at started
  dsimp only at started
  split at started
  · rename_i merged done
    obtain ⟨worker,restored,own⟩ := bind_eq_some_iff.mp done
    rw [← saveOrStop_worker started]
    unfold resumption
    cases loading : (if io.loads = true then disk else none) with
    | none =>
      rw [loading,starts] at restored
      have follows := rebuildWorkerState_follows starts honest restored
      rw [getD_some,max_self] at follows
      rw [starts]
      exact ⟨chain,startBlock,present,mergeBootstrap_follows follows own⟩
    | some saved =>
      have from_disk : disk = some saved := by
        split_ifs at loading
        exact loading
      obtain ⟨past,since,block,there,follows⟩ := sound saved from_disk
      obtain ⟨index,cursor⟩ := follows.cursor_eq
      rw [loading] at restored
      rw [bind_some,cursor]
      rw [← some.inj restored] at own
      exact ⟨past,block,there,mergeBootstrap_follows follows own⟩
  · cases started

theorem Sound.start (starts : config.startBlock = some startBlock) (occasion : event.occasion = .start)
    (sound : Sound bootstrap startBlock known watch) (fair : Fair config known watch event) :
    Sound bootstrap startBlock known (advance config bootstrap watch event) := by
  have worker : ∀ next, (startWorker config bootstrap event.io watch.process.disk).worker = some next →
      ∃ chain block, known chain ∧
        Follows bootstrap startBlock (resumption config event.io watch.process.disk) chain next block :=
    fun next started => startWorker_follows starts fair.known fair.honest sound.disk started
  rw [advance,occasion]
  refine ⟨?_,worker⟩
  intro saved written
  rcases startWorker_writes config bootstrap event.io watch.process.disk with kept | own
  · exact sound.disk saved (kept.symm.trans written)
  · obtain ⟨chain,block,there,follows⟩ := worker saved (own.symm.trans written)
    exact ⟨chain,_,block,there,follows⟩

theorem poll_parts (running : process.worker = some worker)
    (head : fetchLatestBlockQuorum config.rpcEndpoints io.head = some latestBlock) :
    let safeBlock := latestBlock - config.finalityLagBlocks
    let checked := checkCursor config bootstrap io safeBlock process.disk worker
    (checked.worker = none ∧ poll config bootstrap io process = (checked,false)) ∨
      ∃ state, checked.worker = some state ∧ poll config bootstrap io process = readOn config io safeBlock
        checked.disk state := by
  unfold poll
  rw [running]
  rw [head]
  dsimp only
  cases checked : (checkCursor config bootstrap io (latestBlock - config.finalityLagBlocks) process.disk worker).worker with
  | none => exact .inl ⟨rfl,rfl⟩
  | some state => exact .inr ⟨state,rfl,rfl⟩

theorem poll_follows (starts : config.startBlock = some startBlock) (ancestry : Ancestry known)
    (sound : Sound bootstrap startBlock known watch) (fair : Fair config known watch event) (occasion : event.occasion = .poll)
    (running : watch.process.worker = some worker)
    (head : fetchLatestBlockQuorum config.rpcEndpoints event.io.head = some latestBlock) {synced : Bool}
    (polled : poll config bootstrap event.io watch.process = (process,synced)) :
    let since := if reorgAt config event.io worker then startBlock else watch.resumedAt
    (process.disk = watch.process.disk ∨ ∀ saved, process.disk = some saved →
        ∃ block, Follows bootstrap startBlock since event.chain saved block) ∧
      (synced → process.worker.isSome) ∧
      ∀ next, process.worker = some next → ∃ block, Follows bootstrap startBlock since event.chain next block := by
  intro since
  obtain ⟨old,block,past,follows⟩ := sound.worker worker running
  obtain ⟨index,cursor⟩ := follows.cursor_eq
  have detected := fair.detected occasion worker block index running cursor
  have checked : ∀ next, (checkCursor config bootstrap event.io (latestBlock - config.finalityLagBlocks) watch.process.disk
      worker).worker = some next → ∃ block, Follows bootstrap startBlock since event.chain next block :=
    fun next => checkCursor_follows starts ancestry past fair.known fair.honest follows detected
  have written := checkCursor_writes config bootstrap event.io (latestBlock - config.finalityLagBlocks) watch.process.disk worker
  have checkedDisk : (checkCursor config bootstrap event.io (latestBlock - config.finalityLagBlocks) watch.process.disk
      worker).disk = watch.process.disk ∨ ∀ saved, (checkCursor config bootstrap event.io
        (latestBlock - config.finalityLagBlocks) watch.process.disk worker).disk = some saved →
          ∃ block, Follows bootstrap startBlock since event.chain saved block := by
    rcases written with kept | own
    · exact .inl kept
    · exact .inr fun saved there => checked saved (own.symm.trans there)
  rcases poll_parts running head with ⟨ended,outcome⟩ | ⟨state,goes,outcome⟩
  · rw [outcome] at polled
    cases polled
    exact ⟨checkedDisk,nofun,checked⟩
  · obtain ⟨place,view⟩ := checked state goes
    rw [outcome] at polled
    obtain ⟨writes,runs,keeps⟩ := readOn_follows fair.honest view _ _ polled
    refine ⟨?_,runs,keeps⟩
    rcases writes with kept | own
    · rw [kept]
      exact checkedDisk
    · exact .inr fun saved there => keeps saved (own.symm.trans there)

theorem advance_idle (occasion : event.occasion = .poll)
    (idle : watch.process.worker = none ∨ fetchLatestBlockQuorum config.rpcEndpoints event.io.head = none) :
    SetSync.poll config bootstrap event.io watch.process = (watch.process,false) ∧
      advance config bootstrap watch event = watch := by
  have polled : SetSync.poll config bootstrap event.io watch.process = (watch.process,false) := by
    unfold poll
    rcases idle with ended | silent
    · rw [ended]
    · cases watch.process.worker with
      | none => rfl
      | some worker =>
        rw [silent]
  refine ⟨polled,?_⟩
  rw [advance,occasion]
  rw [polled]
  rcases idle with ended | silent
  · rw [ended,any_none,Bool.and_false]
    rfl
  · rw [silent]
    rfl

section
variable (starts : config.startBlock = some startBlock)
include starts

theorem advance_poll (occasion : event.occasion = .poll) (running : watch.process.worker = some worker)
    (head : fetchLatestBlockQuorum config.rpcEndpoints event.io.head = some latestBlock) :
    advance config bootstrap watch event = ⟨(SetSync.poll config bootstrap event.io watch.process).1,
      if reorgAt config event.io worker then startBlock else watch.resumedAt⟩ := by
  rw [advance,occasion]
  rw [head,running,starts]
  rfl

theorem Sound.poll (ancestry : Ancestry known)
    (occasion : event.occasion = .poll) (sound : Sound bootstrap startBlock known watch) (fair : Fair config known watch event) :
    Sound bootstrap startBlock known (advance config bootstrap watch event) ∧
      ((SetSync.poll config bootstrap event.io watch.process).2 → ∃ worker block,
        (advance config bootstrap watch event).process.worker = some worker ∧
          Follows bootstrap startBlock (advance config bootstrap watch event).resumedAt event.chain worker block) := by
  cases running : watch.process.worker with
  | none =>
    obtain ⟨polled,same⟩ := advance_idle occasion (.inl running)
    rw [polled,same]
    exact ⟨sound,nofun⟩
  | some worker =>
    cases head : fetchLatestBlockQuorum config.rpcEndpoints event.io.head with
    | none =>
      obtain ⟨polled,same⟩ := advance_idle occasion (.inr head)
      rw [polled,same]
      exact ⟨sound,nofun⟩
    | some latestBlock =>
      rw [advance_poll starts occasion running head]
      obtain ⟨disk,runs,keeps⟩ := poll_follows starts ancestry sound fair occasion running head rfl
      refine ⟨⟨?_,?_⟩,?_⟩
      · intro saved written
        rcases disk with kept | own
        · exact sound.disk saved (kept.symm.trans written)
        · obtain ⟨block,follows⟩ := own saved written
          exact ⟨event.chain,_,block,fair.known,follows⟩
      · intro next there
        obtain ⟨block,follows⟩ := keeps next there
        exact ⟨event.chain,block,fair.known,follows⟩
      · intro synced
        obtain ⟨next,there⟩ := isSome_iff_exists.mp (runs synced)
        obtain ⟨block,follows⟩ := keeps next there
        exact ⟨next,block,there,follows⟩

theorem Sound.advance (ancestry : Ancestry known) (watch : Watch) (event : Event)
    (sound : Sound bootstrap startBlock known watch) (fair : Fair config known watch event) :
    Sound bootstrap startBlock known (SetSync.advance config bootstrap watch event) := by
  cases occasion : event.occasion with
  | start => exact sound.start starts occasion fair
  | poll => exact (sound.poll starts ancestry occasion fair).1

end

/-- A synced worker has the fold from the start block, with that from where its process resumed. -/
theorem observed_after_poll (starts : config.startBlock = some startBlock) (ancestry : Ancestry known)
    (events : List Event) (event : Event) (occasion : event.occasion = .poll)
    (fair : Along (advance config bootstrap) (Fair config known) (fresh config) (events ++ [event]))
    (synced : (poll config bootstrap event.io (run (advance config bootstrap) (fresh config) events).process).2) :
    ∃ worker block, (run (advance config bootstrap) (fresh config) (events ++ [event])).process.worker = some worker ∧
      worker.cursor.map Prod.fst = some block ∧
      worker.observedActive = folded bootstrap event.chain startBlock block ∪ folded bootstrap event.chain
        (run (advance config bootstrap) (fresh config) (events ++ [event])).resumedAt block := by
  obtain ⟨earlier,last,_⟩ := (along_append _ _ _).mp fair
  have initially : Sound bootstrap startBlock known (fresh config) := ⟨nofun,nofun⟩
  have sound := invariant_run (Sound.advance starts ancestry) (fresh config) events initially earlier
  obtain ⟨worker,block,runs,follows⟩ := (sound.poll starts ancestry occasion last).2 synced
  rw [run_append]
  exact ⟨worker,block,runs,follows.cursor,follows.observed⟩

end Views

/-! A run with one restart: the only validator of the bootstrap set leaves in the first block that
is read. -/
namespace Brief
def bootstrap : Validators := [⟨"v","v","",addressText 10,0,0,"online"⟩]

def config : SyncConfig := ⟨"rpc",[],0,some 0⟩

def chain : L1 := [⟨0,[],.nil⟩,⟨1,[(0,0,.validatorUnbonding 10 0)],pairwise_singleton _ _⟩]

def endpoint : Endpoint := ⟨some 1,hashAt chain,fun fromBlock toBlock => some (viewsIn chain fromBlock toBlock)⟩

def io : Io where
  head := fun _ => endpoint
  check := fun _ => endpoint
  start := fun _ => endpoint
  logs := fun _ => endpoint
  hash := fun _ => endpoint
  logChunk := none
  loads := true
  savesChecked := true
  savesPolled := true

def restarted : List Event := [⟨.start,chain,io⟩,⟨.poll,chain,io⟩,⟨.start,chain,io⟩]

def last : Event := ⟨.poll,chain,io⟩

theorem honest : io.Honest chain := by
  have own : endpoint.Honest chain := ⟨fun _ _ answered => answered,fun _ _ _ answered => (some.inj answered).symm⟩
  exact ⟨fun _ => own,fun _ => own,fun _ => own⟩

theorem ancestry : Ancestry (· = chain) := by
  rintro _ _ rfl rfl _ _ _ _ _ _ _ _
  rfl

theorem fair_start (watch : Watch) : Fair config (· = chain) watch ⟨.start,chain,io⟩ := ⟨rfl,honest,nofun⟩

theorem fair_poll {watch : Watch} (there : (watch.process.worker.all fun worker =>
      worker.cursor.all fun cursor => (hashAt chain cursor.1).isSome)) :
    Fair config (· = chain) watch ⟨.poll,chain,io⟩ := by
  refine ⟨rfl,honest,fun _ worker block index running cursor => ?_⟩
  rw [running,all_some,cursor,all_some] at there
  exact .inr ⟨"rpc",List.mem_singleton.mpr rfl,there⟩

def resumed : WorkerState := ⟨some (1,0),some (wordText 1),{addressText 10}⟩

theorem run_restarted : run (advance config bootstrap) (fresh config) restarted = ⟨⟨some resumed,some resumed⟩,1⟩ := by
  decide +kernel

theorem fair : Along (advance config bootstrap) (Fair config (· = chain)) (fresh config) (restarted ++ [last]) := by
  refine (along_append _ _ _).mpr ⟨⟨fair_start _,fair_poll ?_,fair_start _,trivial⟩,?_,trivial⟩
  · decide +kernel
  · rw [run_restarted]
    exact fair_poll rfl

theorem synced : (poll config bootstrap io (run (advance config bootstrap) (fresh config) restarted).process).2 := by
  rw [run_restarted]
  decide +kernel

theorem observed_after_restart :
    ∃ worker block, (run (advance config bootstrap) (fresh config) (restarted ++ [last])).process.worker = some worker ∧
      worker.cursor.map Prod.fst = some block ∧
      worker.observedActive = folded bootstrap chain 0 block ∪ folded bootstrap chain
        (run (advance config bootstrap) (fresh config) (restarted ++ [last])).resumedAt block :=
  observed_after_poll rfl ancestry restarted last rfl fair synced

theorem exited_validator_returns : Ancestry (· = chain) ∧
    Along (advance config bootstrap) (Fair config (· = chain)) (fresh config) (restarted ++ [last]) ∧
    (poll config bootstrap io (run (advance config bootstrap) (fresh config) restarted).process).2 ∧
    ∃ worker, (run (advance config bootstrap) (fresh config) (restarted ++ [last])).process.worker = some worker ∧
      worker.cursor.map Prod.fst = some 1 ∧ worker.observedActive ≠ folded bootstrap chain 0 1 := by
  refine ⟨ancestry,fair,synced,resumed,?_,rfl,?_⟩
  · rw [run_append,run_restarted]
    decide +kernel
  · decide +kernel

end Brief
end ChainRegistry.SetSync
