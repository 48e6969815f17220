import ChainRegistry.Common.IdealCrates
import ChainRegistry.Lib.Fallible
import ChainRegistry.Resolver.LightClient

/-! Resolution of a package to a verdict: `crates/resolver/src/lib.rs`, with its cache
(`cache.rs`) and the queries to the node (`chain_client.rs`). -/
namespace ChainRegistry
open Lib Text Fallible

inductive VerdictStatus
  | verified (blockHash contentHash ipfsCid : String) (findings : List Finding)
  | unverified
  | revoked (reason : String) (findings : List Finding)
  | unknown
  deriving DecidableEq

def VerdictStatus.isSafe : VerdictStatus → Bool
  | verified .. => true
  | _ => false

inductive VerdictSource
  | cache (expiresAt : DateTime)
  | chain (nodeUrl : String)

structure TrustVerdict where
  package : PackageId
  status : VerdictStatus
  resolvedAt : DateTime
  source : VerdictSource
  deterministicRisk : Option DeterministicRiskSummary

namespace VerdictCache
structure Entry where
  verdict : TrustVerdict
  expiresAt : DateTime

/-- The sled tree. Bytes that are no entry are kept as nothing. -/
abbrev Entries := Table String (Option Entry)

structure Faults where
  opened : Bool := false
  read : Bool := false
  removed : Bool := false
  inserted : Bool := false

def get (now : DateTime) (faults : Faults) (id : PackageId) (entries : Entries) : Entries × Outcome (Option TrustVerdict) :=
  -- the database is opened once, with `expect`
  if faults.opened then (entries,.error .panicked)
  else if faults.read then (entries,.error (.error "sled"))
  else
    match entries.lookup id.canonical with
    | none => (entries,.ok none)
    | some none => (entries,.error (.error "serde_json"))
    | some (some entry) =>
      if entry.expiresAt < now then
        if faults.removed then (entries,.error (.error "sled")) else (entries.erase id.canonical,.ok none)
      else (entries,.ok (some {entry.verdict with source := .cache entry.expiresAt}))

def hour : DateTime := 3600000000000

def ttl : VerdictStatus → DateTime
  | .verified .. => 24 * hour
  | .revoked .. => 48 * hour
  | .unverified => hour / 12
  | .unknown => hour / 12

def set (now : DateTime) (faults : Faults) (id : PackageId) (verdict : TrustVerdict) (entries : Entries) :
    Entries × Outcome Unit :=
  if faults.inserted then (entries,.error (.error "sled"))
  else (entries.insert id.canonical (some ⟨verdict,now + ttl verdict.status⟩),.ok ())

end VerdictCache

structure PackageApiResp where
  status : String
  (blockHash contentHash ipfsCid revocationReason : Option String)
  deterministicRisk : Option DeterministicRiskSummary

inductive GrpcReply
  | unreachable | refused
  | version (found : Bool) (contentHash : String)

structure NodeService where
  grpc : (url ecosystem name : String) → GrpcReply
  rest : Http PackageApiResp
  proofs : Http LightClientResponse

namespace ChainClient
def packageUrl (nodeUrl group : String) (id : PackageId) : String :=
  trimEndSlash nodeUrl ++ group ++ "/packages/" ++ urlEncode id.canonical

def statusOf (record : PackageApiResp) : VerdictStatus :=
  if record.status = "verified" then
    .verified (record.blockHash.getD "") (record.contentHash.getD "") (record.ipfsCid.getD "") []
  else if record.status = "revoked" then .revoked (record.revocationReason.getD "Revoked") []
  else .unverified

def fetchVerdictRest (now : DateTime) (rest : Http PackageApiResp) (id : PackageId) (nodeUrl : String) :
    Except String TrustVerdict := do
  rest.client
  let reply ← rest.getEither (packageUrl nodeUrl "/v1/public" id) (packageUrl nodeUrl "/v1" id)
    ("Failed to reach chain node at " ++ nodeUrl) ("Failed to reach legacy package endpoint at " ++ nodeUrl)
  if reply.status = 404 then
    return ⟨id,.unknown,now,.chain nodeUrl,none⟩
  let record ← reply.body "Chain node returned an error" "Invalid JSON from chain node (expected package response)"
  return ⟨id,statusOf record,now,.chain nodeUrl,record.deterministicRisk⟩

def grpcUrl (nodeUrl : String) : String :=
  let host := trimStartMatches (trimStartMatches nodeUrl "http://") "https://"
  "http://" ++ String.ofList (host.toList.takeWhile (· ≠ ':')) ++ ":50051"

/-- The version in the request is not part of the gRPC query. -/
def fetchVerdict (now : DateTime) (node : NodeService) (id : PackageId) (nodeUrl : String) : Except String TrustVerdict :=
  match node.grpc (grpcUrl nodeUrl) id.ecosystem id.name with
  | .version true contentHash => .ok ⟨id,.verified "" contentHash "" [],now,.chain nodeUrl,none⟩
  | _ => fetchVerdictRest now node.rest id nodeUrl

end ChainClient

structure Readings where
  (looked fetched stored : DateTime)

def defaultNodeUrl (envUrl : Option String) : String := envUrl.getD "http://localhost:8080"

section
variable (clock : Readings) (faults : VerdictCache.Faults) (envUrl : Option String) (node : NodeService)

def resolveId (id : PackageId) (nodeUrl : Option String) (entries : VerdictCache.Entries) :
    VerdictCache.Entries × Outcome TrustVerdict :=
  match VerdictCache.get clock.looked faults id entries with
  | (entries,.error e) => (entries,.error e)
  | (entries,.ok (some cached)) => (entries,.ok cached)
  | (entries,.ok none) =>
    let url := nodeUrl.getD (defaultNodeUrl envUrl)
    let verdict :=
      match ChainClient.fetchVerdict clock.fetched node id url with
      | .ok verdict => verdict
      | .error _ => ⟨id,.unknown,clock.fetched,.chain url,none⟩
    match VerdictCache.set clock.stored faults id verdict entries with
    | (entries,.error e) => (entries,.error e)
    | (entries,.ok ()) => (entries,.ok verdict)

variable (crates : Crates) (flag : Option String) (id : PackageId) (nodeUrl : Option String)

variable (checkpoint : Option Checkpoint)

/-- An error of the proof leaves the standard verdict in place; only a proof that says
`false` takes it away. -/
def resolveVerified
    (entries : VerdictCache.Entries) : VerdictCache.Entries × Outcome TrustVerdict :=
  let url := nodeUrl.getD (defaultNodeUrl envUrl)
  let cp := checkpoint.getD (.genesis crates)
  match resolveId clock faults envUrl node id (some url) entries with
  | (entries,.error e) => (entries,.error e)
  | (entries,.ok verdict) =>
    if verdict.status.isSafe then
      match verifyPackage crates flag node.proofs id.canonical url cp with
      | .ok true => (entries,.ok verdict)
      | .ok false => (entries,.ok {verdict with status := .unknown})
      | .error (.error _) => (entries,.ok verdict)
      | .error .panicked => (entries,.error .panicked)
    else (entries,.ok verdict)

theorem resolveVerified_safe
    (entries : VerdictCache.Entries) (verdict : TrustVerdict) (safe : verdict.status.isSafe) :
    (resolveVerified clock faults envUrl node crates flag id nodeUrl checkpoint entries).2 = .ok verdict ↔
      (resolveId clock faults envUrl node id (some (nodeUrl.getD (defaultNodeUrl envUrl))) entries).2 = .ok verdict ∧
      (verifyPackage crates flag node.proofs id.canonical (nodeUrl.getD (defaultNodeUrl envUrl))
          (checkpoint.getD (.genesis crates)) = .ok true ∨
        ∃ message, verifyPackage crates flag node.proofs id.canonical (nodeUrl.getD (defaultNodeUrl envUrl))
          (checkpoint.getD (.genesis crates)) = .error (.error message)) := by
  unfold resolveVerified
  dsimp only
  generalize verifyPackage crates flag node.proofs id.canonical (nodeUrl.getD (defaultNodeUrl envUrl))
    (checkpoint.getD (.genesis crates)) = proof
  obtain ⟨left,standard⟩ := resolveId clock faults envUrl node id (some (nodeUrl.getD (defaultNodeUrl envUrl))) entries
  cases standard with
  | error e => simp
  | ok found =>
    dsimp only
    cases status : found.status.isSafe with
    | false =>
      have apart : found ≠ verdict := fun same => by simp [same,safe] at status
      simp [apart]
    | true =>
      cases proof with
      | error failure => cases failure <;> simp
      | ok holds =>
        cases holds with
        | true => simp
        | false =>
          -- a proof that fails leaves a verdict that is not safe
          have apart : {found with status := .unknown} ≠ verdict := fun same => by simp [← same,VerdictStatus.isSafe] at safe
          simp [apart]

theorem verifyPackage_error {http : Http LightClientResponse} {canonical url message : String} {checkpoint : Checkpoint} :
    verifyPackage crates flag http canonical url checkpoint = .error (.error message) ↔
      fetchProof http canonical url = .error message ∨ ∃ response, fetchProof http canonical url = .ok response ∧
        checkResponse crates flag canonical response checkpoint = .error (.error message) := by
  unfold verifyPackage Outcome.of
  cases fetchProof http canonical url with
  | error other =>
    change Except.error (Failure.error other) = _ ↔ _
    simp
  | ok response =>
    change checkResponse crates flag canonical response checkpoint = _ ↔ _
    simp

/-- Where the node serves no proof that is refuted, a safe verdict has a proof that holds or one that could
not be fetched. -/
theorem resolveVerified_safe_iff
    (unrefuted : ∀ response message,
      fetchProof node.proofs id.canonical (nodeUrl.getD (defaultNodeUrl envUrl)) = .ok response →
        checkResponse crates flag id.canonical response (checkpoint.getD (.genesis crates)) ≠ .error (.error message))
    (entries : VerdictCache.Entries) (verdict : TrustVerdict) (safe : verdict.status.isSafe) :
    (resolveVerified clock faults envUrl node crates flag id nodeUrl checkpoint entries).2 = .ok verdict ↔
      (resolveId clock faults envUrl node id (some (nodeUrl.getD (defaultNodeUrl envUrl))) entries).2 = .ok verdict ∧
      (verifyPackage crates flag node.proofs id.canonical (nodeUrl.getD (defaultNodeUrl envUrl))
          (checkpoint.getD (.genesis crates)) = .ok true ∨
        ∃ message, fetchProof node.proofs id.canonical (nodeUrl.getD (defaultNodeUrl envUrl)) = .error message) := by
  rw [resolveVerified_safe clock faults envUrl node crates flag id nodeUrl checkpoint entries verdict safe]
  refine and_congr_right fun _ => or_congr_right (exists_congr fun message => ?_)
  rw [verifyPackage_error]
  refine or_iff_left ?_
  rintro ⟨response,fetched,refuted⟩
  exact unrefuted response message fetched refuted

end

/-! A node that answers for the package and serves no proof, or one that does not lead to its root. -/
namespace Unproven
def package : PackageId := ⟨"npm","p","1"⟩

def node (proofs : Http LightClientResponse) : NodeService where
  grpc _ _ _ := .version true "h"
  rest := ⟨.ok (),fun _ => .error "connection refused"⟩
  proofs := proofs

def silent : NodeService := node ⟨.ok (),fun _ => .error "connection refused"⟩

def refuted : LightClientResponse where
  status := "verified"
  blockHash := ""
  blockHeader := Block.genesis.header
  proof := ⟨"x",[],"y"⟩
  headerChain := []
  pbftSignatures := []
  activeValidators := []

def forging : NodeService := node ⟨.ok (),fun _ => .ok ⟨200,.ok refuted⟩⟩

def verdict : TrustVerdict := ⟨package,.verified "" "h" "" [],0,.chain "u",none⟩

def resolved (node : NodeService) (crates : Crates) : VerdictCache.Entries × Outcome TrustVerdict :=
  resolveVerified ⟨0,0,0⟩ {} none node crates none package (some "u") none ∅

theorem proof_fails (crates : Crates) (checkpoint : Checkpoint) :
    verifyPackage crates none silent.proofs package.canonical "u" checkpoint =
      .error (.error "Failed to reach chain node for light-client proof") ∧
    verifyPackage crates none forging.proofs package.canonical "u" checkpoint =
      .error (.error "Merkle proof verification failed for npm:p@1") := ⟨rfl,rfl⟩

theorem unfetched (response : LightClientResponse) : fetchProof silent.proofs package.canonical "u" ≠ .ok response := by
  change Except.error _ ≠ Except.ok response
  simp

end Unproven
open Unproven

theorem unproven_verdict_standard : (resolved silent (Ideal.crates [] id)).2 = .ok verdict :=
  (resolveVerified_safe_iff ⟨0,0,0⟩ {} none silent (Ideal.crates [] id) none package (some "u") none
    (fun response _ fetched => absurd fetched (unfetched response)) ∅ verdict rfl).mpr ⟨rfl,.inr ⟨_,rfl⟩⟩

/-- The verdict stays safe without a proof and with one that is refuted. -/
theorem safe_without_proof :
    let crates := Ideal.crates [] id
    verdict.status.isSafe ∧ (resolved silent crates).2 = .ok verdict ∧ (resolved forging crates).2 = .ok verdict ∧
    ∀ node ∈ [silent,forging], verifyPackage crates none node.proofs package.canonical "u" (.genesis crates) ≠ .ok true := by
  intro crates
  have fails := proof_fails crates (.genesis crates)
  have refused : (resolved forging crates).2 = .ok verdict := by
    unfold resolved resolveVerified
    simp only [Option.getD_some,Option.getD_none]
    rw [fails.2]
    rfl
  refine ⟨rfl,rfl,refused,?_⟩
  simp [fails.1,fails.2]

end ChainRegistry
