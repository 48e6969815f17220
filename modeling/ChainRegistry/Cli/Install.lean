import ChainRegistry.Resolver.Resolve

/-! `creg install` from the verdict on: `run` and `delegate_to_real_pm` of
`crates/cli/src/install.rs` with the download of `crates/resolver/src/downloader.rs`, for processes
that share one temporary directory. Messages are without their colours. -/
namespace ChainRegistry.Install
open Lib Text

abbrev Path := List UInt8

/-- The hash, the temporary directory, and the most that a `tokio` file takes over in one write. -/
structure Environment where
  sha256Hex : List UInt8 → String
  tempDir : Path
  bufSize : Nat

def splitAtLast (mark : Char) (text : List Char) : Option (List Char × List Char) :=
  match text.reverse.span (· ≠ mark) with
  | (after,_ :: before) => some (before.reverse,after.reverse)
  | (_,[]) => none

/-- The first character of a scoped package is a mark of its own. -/
def parsePackageArg (raw : String) : String × Option String :=
  match raw.toList with
  | '@' :: rest =>
    match splitAtLast '@' rest with
    | some (name,version) => (String.ofList ('@' :: name),some (String.ofList version))
    | none => (raw,none)
  | text =>
    match splitAtLast '@' text with
    | some (name,version) => (String.ofList name,some (String.ofList version))
    | none => (raw,none)

def packageId (ecosystem raw : String) : PackageId :=
  let (name,version) := parsePackageArg raw
  ⟨ecosystem,name,version.getD "latest"⟩

/-- `Path::join` with a name that has no separator. -/
def join (dir : Path) (name : String) : Path :=
  match dir.getLast? with
  | none => bytes name
  | some last => if last = 47 then dir ++ bytes name else dir ++ 47 :: bytes name

def tempName (id : PackageId) : String :=
  String.ofList (id.name.toList.map fun c => if c = '/' then '_' else c) ++ ".tgz"

def toStr (path : Path) : Option String := String.fromUTF8? ⟨path.toArray⟩

/-- What is run: `extra` are the arguments of `CREG_PM_ARGS`, which come after the others. -/
structure Invocation where
  pmName : String
  (args extra : List String)
  deriving DecidableEq

def pmName : String → Except String String
  | "npm" => .ok "npm"
  | "pypi" => .ok "pip"
  | "cargo" => .ok "cargo"
  | "rubygems" => .ok "gem"
  | "maven" => .ok "mvn"
  | ecosystem => .error ("Unknown ecosystem: " ++ ecosystem)

/-- The package is not among the arguments of `mvn`. -/
def pmArgs (rawPackage : String) : String → List String
  | "npm" => ["install",rawPackage]
  | "pypi" => ["install",rawPackage]
  | "cargo" => ["add",rawPackage]
  | "rubygems" => ["install",rawPackage]
  | "maven" => ["dependency:resolve"]
  -- unreachable
  | _ => []

def delegateToRealPm (extra : List String) (found : Bool) (ecosystem rawPackage : String) : Except String Invocation := do
  let name ← pmName ecosystem
  if found then return ⟨name,pmArgs rawPackage ecosystem,extra⟩
  else throw ("Real '" ++ name ++ "' not found in PATH (only our shim exists)")

/-- The last write that the file was given: `busy` from the given byte on. -/
inductive Flight
  | idle
  | busy (start : Nat)
  | failed
  deriving DecidableEq

structure Opened where
  bytes : List UInt8
  written : Nat
  flight : Flight
  deriving DecidableEq

inductive Stage
  | deciding
  | downloading (attempt : Nat)
  | fetched (attempt : Nat) (bytes : List UInt8)
  | writing (attempt : Nat)
  -- with the local tarball or without
  | ready (tarball : Bool)
  | delegated (invocation : Invocation)
  | failed (error : String)
  deriving DecidableEq

structure Process where
  (rawPackage ecosystem : String)
  allowUnverified : Bool
  extraArgs : List String
  status : VerdictStatus
  stage : Stage
  file : Option Opened
  deriving DecidableEq

namespace Process
def id (process : Process) : PackageId := packageId process.ecosystem process.rawPackage

variable (env : Environment)

def tempFile (process : Process) : Path := join env.tempDir (tempName process.id)

def contentHash (process : Process) : Option String :=
  match process.status with
  | .verified _ contentHash _ _ => some contentHash
  | _ => none

def confirm (asks : Bool) (answer : Option Bool) (refusal : String) : Except String Unit :=
  if asks then
    match answer with
    | some true => .ok ()
    | some false => .error refusal
    | none => .error "prompt"
  else .ok ()

def hasSevere (findings : List Finding) : Bool :=
  findings.any fun finding => finding.severity = .critical || finding.severity = .high

def trustDecision (answer : Option Bool) (process : Process) : Except String Stage :=
  match process.status with
  | .verified _ _ ipfsCid findings => do
    confirm (hasSevere findings && !process.allowUnverified) answer "Install cancelled due to security findings."
    if ipfsCid = "" then
      throw ("X Verified package '" ++ process.id.canonical ++ "' has no IPFS CID. Cannot install without verified content.")
    else return .downloading 1
  | .unverified => do
    confirm (!process.allowUnverified) answer "Install cancelled — package not chain-verified."
    return .ready false
  | .revoked reason findings =>
    throw ("✗ Package '" ++ process.id.canonical ++ "' is REVOKED and cannot be installed.\n  Reason: " ++ reason ++
      "\n  Findings: " ++ toString findings.length ++ " record(s)")
  | .unknown =>
    if process.allowUnverified then return .ready false
    else throw ("✗ Package '" ++ process.id.canonical ++
      "' is unknown to the chain registry.\n  Use --unverified to install from the original registry.")

/-- `with_retry` makes three attempts. -/
def attemptFailed (process : Process) (attempt : Nat) (error : String) : Process :=
  if attempt < 3 then {process with stage := .downloading (attempt + 1)}
  else {process with stage := .failed ("X P2P download failed for verified package '" ++ process.id.canonical ++
    "' after 3 attempts: " ++ error ++ ". Refusing to fall back to unverified original registry.")}

def fetch (replies : List (Option (List UInt8))) (attempt : Nat) (process : Process) : Process :=
  match replies.reduceOption.find? fun bytes => process.contentHash = some (env.sha256Hex bytes) with
  | some bytes => {process with stage := .fetched attempt bytes}
  | none => process.attemptFailed attempt "Failed to download or verify package from any swarm peer"

/-- `write_all` gives the file the next bytes as soon as it has written those before. It does not
wait for the last ones, and nothing flushes them. -/
def write (env : Environment) (attempt : Nat) (opened : Opened) (process : Process) : Process :=
  if opened.bytes.length ≤ opened.written then {process with stage := .ready true}
  else match opened.flight with
    | .idle =>
      let given := min (opened.written + env.bufSize) opened.bytes.length
      {process with file := some ⟨opened.bytes,given,.busy opened.written⟩}
    | .busy _ => process
    | .failed => process.attemptFailed attempt "write"

/-- Where the path is no text, the package itself is handed over. -/
def installTarget (tarball : Bool) (process : Process) : String :=
  if tarball then (toStr (process.tempFile env)).getD process.rawPackage else process.rawPackage

def delegate (found tarball : Bool) (process : Process) : Except String Invocation :=
  delegateToRealPm process.extraArgs found process.ecosystem (process.installTarget env tarball)

end Process

abbrev Files := Table Path (List UInt8)

/-- A write at a place of its own: what lies between the end of the file and this place is zero. -/
def writeAt (start : Nat) (chunk content : List UInt8) : List UInt8 :=
  content.take start ++ List.replicate (start - content.length) 0 ++ chunk ++ content.drop (start + chunk.length)

structure System where
  files : Files
  processes : List Process

/-- The steps of a process, with what comes from outside: `arrived` is how much of a write that
fails has been written. -/
inductive Action
  | decide (answer : Option Bool)
  | fetch (replies : List (Option (List UInt8)))
  | create (opens : Bool)
  | write
  | land (arrived : Option Nat)
  | delegate (found : Bool)

inductive Event
  | resolve (rawPackage ecosystem : String) (allowUnverified : Bool) (extraArgs : List String) (status : VerdictStatus)
  | act (i : Nat) (action : Action)

namespace System
def put (system : System) (i : Nat) (process : Process) : System :=
  {system with processes := system.processes.set i process}

def content (system : System) (path : Path) : List UInt8 := (system.files.lookup path).getD []

variable (env : Environment)

/-- `File::create` makes an empty file of one that is there. -/
def create (i attempt : Nat) (bytes : List UInt8) (process : Process) (system : System) : System :=
  {files := system.files.insert (process.tempFile env) []
   processes := system.processes.set i {process with stage := .writing attempt, file := some ⟨bytes,0,.idle⟩}}

def land (i start : Nat) (arrived : Option Nat) (opened : Opened) (process : Process) (system : System) : System :=
  let path := process.tempFile env
  let chunk := (opened.bytes.take opened.written).drop start
  match arrived with
  | none =>
    {files := system.files.insert path (writeAt start chunk (system.content path))
     processes := system.processes.set i {process with file := some {opened with flight := .idle}}}
  | some count =>
    {files := system.files.insert path (writeAt start (chunk.take count) (system.content path))
     processes := system.processes.set i {process with file := some {opened with flight := .failed}}}

def act (system : System) (i : Nat) (process : Process) : Action → System
  | .decide answer =>
    match process.stage with
    | .deciding =>
      match process.trustDecision answer with
      | .ok stage => system.put i {process with stage := stage}
      | .error error => system.put i {process with stage := .failed error}
    | _ => system
  | .fetch replies =>
    match process.stage with
    | .downloading attempt => system.put i (process.fetch env replies attempt)
    | _ => system
  | .create opens =>
    match process.stage with
    | .fetched attempt bytes =>
      if opens then system.create env i attempt bytes process else system.put i (process.attemptFailed attempt "create")
    | _ => system
  | .write =>
    match process.stage,process.file with
    | .writing attempt,some opened => system.put i (process.write env attempt opened)
    | _,_ => system
  | .land arrived =>
    match process.file with
    | some ⟨bytes,written,.busy start⟩ => system.land env i start arrived ⟨bytes,written,.busy start⟩ process
    | _ => system
  | .delegate found =>
    match process.stage with
    | .ready tarball =>
      match process.delegate env found tarball with
      | .ok invocation => system.put i {process with stage := .delegated invocation}
      | .error error => system.put i {process with stage := .failed error}
    | _ => system

def step (system : System) : Event → System
  | .resolve rawPackage ecosystem allowUnverified extraArgs status =>
    {system with processes := system.processes ++ [⟨rawPackage,ecosystem,allowUnverified,extraArgs,status,.deciding,none⟩]}
  | .act i action =>
    match system.processes[i]? with
    | some process => system.act env i process action
    | none => system

end System

end ChainRegistry.Install
