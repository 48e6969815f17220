import ChainRegistry.Node.State

/-! Admission of a submission to the pending pool: `admit_publish_request` of
`crates/node/src/package_admission.rs`, cut where it releases the state for the scan. -/
namespace ChainRegistry
open Lib

inductive AdmissionError
  | invalidPackageId (message : String)
  | invalidPublisherSignature (message : String)
  | publisher (message : String)
  | scanner (message : String)
  | alreadyVerified (message : String)
  | revoked (message : String)
  | alreadyPending (message : String)
  | storage (message : String)
  | shieldedPublishDisabled (message : String)
  deriving DecidableEq

structure AdmissionReceipt where
  canonical : String
  pendingCount : Nat

def validatePackageId (request : PublishRequest) : Except AdmissionError Unit :=
  if [request.id.ecosystem,request.id.name,request.id.version].any (fun part => Text.isEmpty (Text.trim part)) then
    .error (.invalidPackageId "Package ecosystem, name, and version are required")
  else .ok ()

def duplicatePending (canonical : String) : AdmissionError :=
  .alreadyPending (canonical ++ " is already pending with the same content hash")

/-- The check against the chain: only here is an existing record looked at. -/
def checkExisting (chain : ChainStore) (canonical : String) : Except AdmissionError Unit :=
  match chain.getPackage canonical with
  | some record =>
    match record.status with
    | .verified => .error (.alreadyVerified (canonical ++ " is already verified on chain"))
    | .revoked _ => .error (.revoked (canonical ++ " is revoked and cannot be resubmitted"))
    | .pending => .ok ()
  | none => .ok ()

def checkPending (pool : PendingPool) (request : PublishRequest) : Except AdmissionError Unit :=
  match pool.get request.id.canonical with
  | some existing =>
    if existing.request.contentHash = request.contentHash then .error (duplicatePending request.id.canonical)
    else .ok ()
  | none => .ok ()

/-- Everything before the scan. `auth` is what `verify_publish_auth` returned, which
asks the staking contract; it is skipped if the surface does not verify publishers. -/
def admitCheck (state : NodeState) (request : PublishRequest) (verifyPublisherAuth : Bool)
    (auth : Except AdmissionError Unit) : Except AdmissionError Unit := do
  validatePackageId request
  if request.shielded && !state.config.shieldedPublishEnabled then
    throw (.shieldedPublishDisabled ("shielded publish is disabled; set CREG_SHIELDED_PUBLISH_ENABLED=true on the node " ++
      "(experimental — see docs/PHASE3_KICKOFF.md)"))
  if verifyPublisherAuth then auth
  checkExisting state.chain request.id.canonical
  checkPending state.pendingPool request

/-- Everything after the scan, whose outcome is `gate`. The chain is not asked again. -/
def admitInsert (now : DateTime) (request : PublishRequest) (gate : Except String Unit) (state : NodeState) :
    NodeState × Except AdmissionError AdmissionReceipt :=
  match gate with
  | .error e => (state,.error (.scanner e))
  | .ok () =>
    match state.pendingPool.insert now request with
    | (_,false) => (state,.error (duplicatePending request.id.canonical))
    | (pool,true) => ({state with pendingPool := pool},.ok ⟨request.id.canonical,pool.len⟩)

end ChainRegistry
