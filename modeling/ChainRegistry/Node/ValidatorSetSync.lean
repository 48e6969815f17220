import ChainRegistry.Common.Block
import ChainRegistry.Contracts.Evm
import ChainRegistry.Lib.Membership

/-! The node's view of the on-chain validator set: `crates/node/src/validator_set_sync.rs`, with
`l1_quorum.rs`. What an endpoint replies is an argument, `none` if it does not after all retries.
The mode of the worker decides what is done with the view, not the view. -/
namespace ChainRegistry.SetSync
open Lib List Text

/-- `format!("0x{}", hex::encode(data))`. -/
def markedHex (data : List UInt8) : String := "0x" ++ hexEncode data

def addressBytes (a : Address) : List UInt8 := (List.range 20).map fun i => UInt8.ofNat (a.toNat / 256 ^ (19 - i))

def addressText (a : Address) : String := markedHex (addressBytes a)

def wordText (w : Word) : String := markedHex (Abi.bytes w)

inductive DeltaKind
  | add (stakeWei : String) (signerCount : Option Nat)
  | apply (stakeWei : String)
  | remove
  | unbond (unbondingAt : Nat)
  | slash (amountWei reason : String)
  | dropApplicant

structure ValidatorSetDelta where
  kind : DeltaKind
  addr : String
  (blockHeight logIndex : Nat)
  txHash : String

def ValidatorSetDelta.position (delta : ValidatorSetDelta) : Nat × Nat := (delta.blockHeight,delta.logIndex)

structure LogView where
  event : Log
  (blockNumber logIndex : Nat)
  txHash : Word

def deltaKind : Log → Option (Address × DeltaKind)
  | .validatorApplied a stake => some (a,.apply (toString stake))
  | .validatorApproved a => some (a,.add (toString 0) none)
  | .validatorApprovedByConsensus a _ signerCount =>
    some (a,.add (toString 0) (if signerCount < 2 ^ 32 then some signerCount else none))
  | .validatorRejected a | .validatorApplicationExpired a _ => some (a,.dropApplicant)
  | .validatorUnbonding a unbondingAt => some (a,.unbond (min unbondingAt (2 ^ 64 - 1)))
  | .validatorWithdrawn a _ | .validatorLeft a => some (a,.remove)
  | .slashed a amount reason => some (a,.slash (toString amount) reason)
  | _ => none

/-- `decode`. An event of any other kind is refused there, and passed over by the caller. -/
def decode (log : LogView) : Option ValidatorSetDelta :=
  (deltaKind log.event).map fun (addr,kind) =>
    ⟨kind,addressText addr,log.blockNumber,log.logIndex,wordText log.txHash⟩

structure WorkerState where
  cursor : Option (Nat × Nat)
  cursorBlockHash : Option String
  observedActive : Finset String
  deriving DecidableEq

def WorkerState.empty : WorkerState := ⟨none,none,∅⟩

def notAfter (a b : Nat × Nat) : Bool := a.1 < b.1 || a.1 = b.1 && a.2 ≤ b.2

def observe (members : Finset String) (delta : ValidatorSetDelta) : Finset String :=
  match delta.kind with
  | .add _ _ => insert delta.addr members
  | .remove | .unbond _ => members.erase delta.addr
  | .slash _ _ | .apply _ | .dropApplicant => members

def applyDelta (state : WorkerState) (delta : ValidatorSetDelta) : WorkerState :=
  if state.cursor.any (notAfter delta.position) then state
  else
    {state with
      cursor := some delta.position
      observedActive := observe state.observedActive delta}

structure SyncConfig where
  ethRpcUrl : String
  extraRpcUrls : List String
  finalityLagBlocks : Nat
  startBlock : Option Nat

def SyncConfig.rpcEndpoints (config : SyncConfig) : List String :=
  config.extraRpcUrls.foldl (fun endpoints url =>
    let url := trim url
    if url ≠ "" ∧ url ∉ endpoints then endpoints ++ [url] else endpoints) [config.ethRpcUrl]

structure Endpoint where
  latest : Option Nat
  hashOf : (block : Nat) → Option String
  logsOf : (fromBlock toBlock : Nat) → Option (List LogView)

abbrev Replies := String → Endpoint

def aggregateHeight : List Nat → Option Nat
  | [] => none
  | [value] => some value
  | [first,second] => some (min first second)
  | values => (values.mergeSort)[values.length / 2]?

def majorityHash (hashes : List String) : Option String :=
  let normal := hashes.map fun hash => toAsciiLowercase (trim hash)
  normal.find? fun hash => hashes.length < normal.count hash * 2

variable (endpoints : List String) (replies : Replies)

def fetchLatestBlockQuorum : Option Nat :=
  aggregateHeight (endpoints.filterMap fun url => (replies url).latest)

def fetchBlockHashFailover (block : Nat) : Option String :=
  endpoints.findSome? fun url => (replies url).hashOf block

inductive HashQuorum
  | agreed (hash : String)
  | noMajority | unavailable
  deriving DecidableEq

def fetchBlockHashQuorum (block : Nat) : HashQuorum :=
  let hashes := endpoints.filterMap fun url => (replies url).hashOf block
  if hashes.isEmpty then .unavailable
  else match majorityHash hashes with
    | some hash => .agreed hash
    | none => .noMajority

variable (deltas : List ValidatorSetDelta)

def sortDeltas : List ValidatorSetDelta :=
  deltas.mergeSort fun a b => notAfter a.position b.position

def ethGetLogsBlockChunk (setting : Option Nat) : Nat := (setting.filter (0 < ·)).getD 10000

def fetchChunks (endpoint : Endpoint) (chunkSize toBlock : Nat) : Nat → Nat → Option (List ValidatorSetDelta)
  | 0, _ => some []
  | fuel + 1, start =>
    if start ≤ toBlock then do
      let last := min (start + (chunkSize - 1)) toBlock
      let logs ← endpoint.logsOf start last
      let rest ← fetchChunks endpoint chunkSize toBlock fuel (last + 1)
      return logs.filterMap decode ++ rest
    else some []

def fetchDeltas (endpoint : Endpoint) (chunkSize fromBlock toBlock : Nat) : Option (List ValidatorSetDelta) :=
  (fetchChunks endpoint chunkSize toBlock (toBlock + 1 - fromBlock) fromBlock).map sortDeltas

def fetchDeltasFailover (chunkSize fromBlock toBlock : Nat) :
    Option (List ValidatorSetDelta) :=
  endpoints.findSome? fun url => fetchDeltas (replies url) chunkSize fromBlock toBlock

def normalizedValidatorKey (evmAddress : String) : String := toAsciiLowercase (trim evmAddress)

def seedWorkerStateFromBootstrap (bootstrap : Validators) : WorkerState where
  cursor := none
  cursorBlockHash := none
  observedActive := (bootstrap.filterMap fun validator =>
    let addr := normalizedValidatorKey validator.ethAddress
    let status := toAsciiLowercase (trim validator.status)
    if addr = "" ∨ status ∈ ["pending","jailed","offline"] then none else some addr).toFinset

def cursorReorged (worker : WorkerState) (currentHash : String) : Bool :=
  worker.cursorBlockHash.any fun saved => toAsciiLowercase saved ≠ toAsciiLowercase currentHash

structure Io where
  (head check start logs hash : Replies)
  logChunk : Option Nat
  (loads savesChecked savesPolled : Bool)

/-- `u32::MAX`: behind every log of the block. -/
def blockEnd : Nat := 2 ^ 32 - 1

def scan (safeBlock : Nat) (deltas : List ValidatorSetDelta) (worker : WorkerState) : WorkerState :=
  let applied := (sortDeltas deltas).foldl applyDelta worker
  if (applied.cursor.map fun cursor => decide (cursor.1 < safeBlock)).getD true then
    {applied with cursor := some (safeBlock,blockEnd)}
  else applied

section Worker
variable (config : SyncConfig) (bootstrap : Validators) (io : Io)

def recordHash (worker : WorkerState) : Option WorkerState :=
  match worker.cursor with
  | some (height,_) => do
    let hash ← fetchBlockHashFailover config.rpcEndpoints io.hash height
    return {worker with cursorBlockHash := some hash}
  | none => some worker

def placeAtStart (worker : WorkerState) : Option WorkerState :=
  match config.startBlock with
  | some startBlock => do
    let hash ← fetchBlockHashFailover config.rpcEndpoints io.start startBlock
    return {worker with cursor := some (startBlock,blockEnd), cursorBlockHash := some hash}
  | none => some worker

variable (safeBlock : Nat)

def rebuildWorkerState : Option WorkerState := do
  let worker ← placeAtStart config io (seedWorkerStateFromBootstrap bootstrap)
  let fromBlock := match worker.cursor with
    | some (height,_) => height + 1
    | none => safeBlock - 1000
  if fromBlock ≤ safeBlock then
    let deltas ← fetchDeltasFailover config.rpcEndpoints io.logs (ethGetLogsBlockChunk io.logChunk) fromBlock safeBlock
    recordHash config io (scan safeBlock deltas worker)
  else recordHash config io worker

structure Process where
  (disk worker : Option WorkerState)
  deriving DecidableEq

def saveOrStop (saves : Bool) (disk : Option WorkerState) (worker : WorkerState) : Process :=
  if saves then ⟨some worker,some worker⟩ else ⟨disk,none⟩

/-- The bootstrap validators are put in on every start. -/
def mergeBootstrap (worker : WorkerState) : Option WorkerState :=
  let merged := {worker with
    observedActive := worker.observedActive ∪ (seedWorkerStateFromBootstrap bootstrap).observedActive}
  if merged.cursor.isNone then placeAtStart config io merged else some merged

variable (disk : Option WorkerState)

/-- `run` up to its loop. -/
def startWorker : Process :=
  let restored := match if io.loads then disk else none with
    | some saved => some saved
    | none => rebuildWorkerState config bootstrap io (config.startBlock.getD 0)
  match restored.bind (mergeBootstrap config bootstrap io) with
  | some worker => saveOrStop io.savesChecked disk worker
  | none => ⟨disk,none⟩

def checkCursor (worker : WorkerState) : Process :=
  match worker.cursor with
  | none => ⟨disk,some worker⟩
  | some (cursorBlock,_) =>
    match fetchBlockHashQuorum config.rpcEndpoints io.check cursorBlock with
    | .agreed currentHash =>
      if cursorReorged worker currentHash then
        match rebuildWorkerState config bootstrap io safeBlock with
        | some rebuilt => saveOrStop io.savesChecked disk rebuilt
        | none => ⟨disk,none⟩
      else if worker.cursorBlockHash.isNone then
        saveOrStop io.savesChecked disk {worker with cursorBlockHash := some currentHash}
      else ⟨disk,some worker⟩
    | .noMajority | .unavailable => ⟨disk,some worker⟩

def readOn (worker : WorkerState) : Process × Bool :=
  let fromBlock := match worker.cursor with
    | some (height,_) => height + 1
    | none => match config.startBlock with
      | some height => height + 1
      | none => safeBlock - 1000
  if safeBlock < fromBlock then (⟨disk,some worker⟩,true)
  else match fetchDeltasFailover config.rpcEndpoints io.logs (ethGetLogsBlockChunk io.logChunk) fromBlock safeBlock with
    | some deltas => match recordHash config io (scan safeBlock deltas worker) with
      | some worker => (⟨if io.savesPolled then some worker else disk,some worker⟩,true)
      | none => (⟨disk,none⟩,false)
    | none => (⟨disk,some worker⟩,false)

def poll (process : Process) : Process × Bool :=
  match process.worker with
  | none => (process,false)
  | some worker =>
    match fetchLatestBlockQuorum config.rpcEndpoints io.head with
    | none => (process,false)
    | some latestBlock =>
      let safeBlock := latestBlock - config.finalityLagBlocks
      let checked := checkCursor config bootstrap io safeBlock process.disk worker
      match checked.worker with
      | some worker => readOn config io safeBlock checked.disk worker
      | none => (checked,false)

end Worker

private theorem eq_of_digits {k n m : Nat} (left : n < 256 ^ k) (right : m < 256 ^ k)
    (same : ∀ i < k, n / 256 ^ i % 256 = m / 256 ^ i % 256) : n = m := by
  induction k generalizing n m with
  | zero => omega
  | succ k ih =>
    have low : n % 256 = m % 256 := by simpa using same 0 (by omega)
    have high : n / 256 = m / 256 := by
      apply ih
      · rw [Nat.pow_succ] at left
        omega
      · rw [Nat.pow_succ] at right
        omega
      · intro i bound
        have next := same (i + 1) (by omega)
        rwa [Nat.pow_succ,Nat.mul_comm,← Nat.div_div_eq_div_mul,← Nat.div_div_eq_div_mul] at next
    omega

private theorem eq_of_bytes (width : Nat) {n m : Nat} (left : n < 256 ^ width) (right : m < 256 ^ width)
    (same : ((List.range width).map fun i => UInt8.ofNat (n / 256 ^ (width - 1 - i))) =
      (List.range width).map fun i => UInt8.ofNat (m / 256 ^ (width - 1 - i))) : n = m := by
  apply eq_of_digits left right
  intro i bound
  have byte := map_inj_left.mp same (width - 1 - i) (mem_range.mpr (by omega))
  have value := congrArg UInt8.toNat byte
  rw [show width - 1 - (width - 1 - i) = i by omega] at value
  simpa using value

theorem toList_markedHex (data : List UInt8) : (markedHex data).toList = '0' :: 'x' :: (hexEncode data).toList := by
  rw [markedHex,String.toList_append]
  rfl

theorem markedHex_digits (data : List UInt8) : ∀ c ∈ (markedHex data).toList, c.toLower = c ∧ c.isAlphanum := by
  rw [toList_markedHex,forall_mem_cons,forall_mem_cons]
  exact ⟨by decide,by decide,fun c inside => (hexEncode_digits data c inside).imp_right And.right⟩

theorem trim_markedHex (data : List UInt8) : trim (markedHex data) = markedHex data :=
  trim_alphanum fun c inside => (markedHex_digits data c inside).2

theorem toAsciiLowercase_markedHex (data : List UInt8) : toAsciiLowercase (markedHex data) = markedHex data :=
  toAsciiLowercase_small fun c inside => (markedHex_digits data c inside).1

theorem markedHex_injective : Function.Injective markedHex := by
  intro first second same
  have digits : hexEncode first = hexEncode second := by
    have chars := congrArg String.toList same
    rw [toList_markedHex,toList_markedHex] at chars
    exact String.toList_inj.mp (List.cons.inj (List.cons.inj chars).2).2
  have decoded := congrArg hexDecode digits
  rw [hexDecode_hexEncode,hexDecode_hexEncode] at decoded
  exact Except.ok.inj decoded

theorem addressText_injective : Function.Injective addressText := by
  intro first second same
  have bytes := markedHex_injective same
  exact BitVec.eq_of_toNat_eq (eq_of_bytes 20 first.isLt second.isLt bytes)

theorem wordText_injective : Function.Injective wordText := by
  intro first second same
  have bytes := markedHex_injective same
  exact BitVec.eq_of_toNat_eq (eq_of_bytes 32 first.isLt second.isLt bytes)

/-! What deltas do to the view, when they come in order behind the cursor. -/

def ValidatorSetDelta.item (delta : ValidatorSetDelta) : Option (String × Bool) :=
  match delta.kind with
  | .add _ _ => some (delta.addr,true)
  | .remove | .unbond _ => some (delta.addr,false)
  | .slash _ _ | .apply _ | .dropApplicant => none

theorem notAfter_true (a b : Nat × Nat) : notAfter a b ↔ a.1 < b.1 ∨ a.1 = b.1 ∧ a.2 ≤ b.2 := by
  simp [notAfter]

theorem notAfter_false (a b : Nat × Nat) : notAfter a b = false ↔ b.1 < a.1 ∨ b.1 = a.1 ∧ b.2 < a.2 := by
  rw [← Bool.not_eq_true,notAfter_true]
  omega

def Ordered : Prop :=
  deltas.Pairwise fun first second => notAfter second.position first.position = false

theorem observe_eq (members : Finset String) (delta : ValidatorSetDelta) :
    observe members delta = Membership.after members delta.item.toList := by
  unfold observe ValidatorSetDelta.item
  cases delta.kind with
  | _ => rfl

theorem foldl_applyDelta (worker : WorkerState) {deltas : List ValidatorSetDelta}
    (fresh : ∀ delta ∈ deltas, worker.cursor.any (notAfter delta.position) = false) (ordered : Ordered deltas) :
    deltas.foldl applyDelta worker =
      {worker with
        cursor := (deltas.getLast?.map ValidatorSetDelta.position).or worker.cursor
        observedActive := Membership.after worker.observedActive (deltas.filterMap ValidatorSetDelta.item)} := by
  induction deltas generalizing worker with
  | nil => rfl
  | cons delta deltas ih =>
    obtain ⟨first,ordered⟩ := pairwise_cons.mp ordered
    have applied : applyDelta worker delta =
        {worker with cursor := some delta.position, observedActive := observe worker.observedActive delta} := by
      rw [applyDelta,fresh delta mem_cons_self]
      rfl
    rw [foldl_cons,applied,ih _ ?_ ordered]
    swap
    · exact first
    congr 1
    · rw [List.getLast?_cons]
      cases deltas.getLast? with
      | none | some => rfl
    · rw [observe_eq,← Membership.after_append]
      cases effect : delta.item with
      | none => rw [filterMap_cons_none effect]; rfl
      | some item => rw [filterMap_cons_some effect]; rfl

end ChainRegistry.SetSync
