import ChainRegistry.Common.Text

/-! Packages, validator votes and chain records: the types of
`crates/common/src/package.rs` and the functions of it that hash nothing. -/
namespace ChainRegistry
open Text

/-- `chrono::DateTime<Utc>`, in nanoseconds from the epoch. -/
abbrev DateTime := Int

inductive FindingSeverity
  | critical | high | medium | low
  deriving DecidableEq

structure Finding where
  (id title : String)
  severity : FindingSeverity
  (description file : String)
  line : Option Nat
  deriving DecidableEq

structure PackageId where
  (ecosystem name version : String)
  deriving DecidableEq

def PackageId.canonical (id : PackageId) : String :=
  id.ecosystem ++ ":" ++ id.name ++ "@" ++ id.version

structure PackageManifest where
  allowedNetworkHosts : List String := []
  allowedFsWrites : List String := []
  spawnsProcesses : Bool := false
  allowedProcessSpawns : List String := []
  description : Option String := none
  deriving DecidableEq

structure PublishRequest where
  id : PackageId
  (contentHash ipfsCid publisherAddress publisherPubkey signature : String)
  manifest : PackageManifest
  submittedAt : DateTime
  shielded : Bool
  (keyBundle pgpSignature pgpPublicKey : Option String)
  threshold : Nat
  (publisherPubkeys signatures : List String)
  deriving DecidableEq

structure AnalysisBundleRefs where
  policyBundleId : String := ""
  featureSchemaId : String := ""
  expertBundleId : String := ""
  embeddingModelId : String := ""
  indexEpoch : String := ""
  thresholdProfileId : String := ""
  llmPromptProfileId : String := ""
  osvSnapshotEpoch : String := "osv-off"
  deriving DecidableEq

namespace AnalysisBundleRefs
variable (refs : AnalysisBundleRefs)

def effectiveOsvSnapshotEpoch : String :=
  let trimmed := trim refs.osvSnapshotEpoch
  if trimmed = "" then "osv-off" else trimmed

def isConsensusComplete : Bool :=
  [refs.policyBundleId,refs.featureSchemaId,refs.expertBundleId,refs.embeddingModelId,
    refs.indexEpoch,refs.thresholdProfileId,refs.llmPromptProfileId].all
      (fun value => !Text.isEmpty (trim value)) &&
    !Text.isEmpty (trim refs.effectiveOsvSnapshotEpoch)

def scannerProfileInput (scannerVersion : String) : String :=
  "creg-scanner-profile-v1|scanner=" ++ trim scannerVersion ++
    "|policy=" ++ trim refs.policyBundleId ++
    "|features=" ++ trim refs.featureSchemaId ++
    "|experts=" ++ trim refs.expertBundleId ++
    "|embedding=" ++ trim refs.embeddingModelId ++
    "|index=" ++ trim refs.indexEpoch ++
    "|thresholds=" ++ trim refs.thresholdProfileId ++
    "|llm_prompt=" ++ trim refs.llmPromptProfileId ++
    "|osv=" ++ trim refs.effectiveOsvSnapshotEpoch

end AnalysisBundleRefs

def isConsensusGradeVote (scannerVersion : String) (refs : AnalysisBundleRefs) (evidenceDigest : String) : Bool :=
  !startsWith (trim scannerVersion) "degraded" &&
    refs.isConsensusComplete && !Text.isEmpty (trim evidenceDigest)

structure DeterministicRiskSummary where
  score : Nat := 0
  deterministicScore : Nat := 0
  advisoryScore : Nat := 0
  band : String := ""
  disposition : String := ""
  deterministicFindings : Nat := 0
  advisoryFindings : Nat := 0
  criticalFindings : Nat := 0
  highFindings : Nat := 0
  mediumFindings : Nat := 0
  lowFindings : Nat := 0
  reasons : List String := []
  deriving DecidableEq

inductive PackageStatus
  | verified | pending
  | revoked (reason : String)
  deriving DecidableEq

inductive ValidatorVote
  | approve
  | reject (reason : String)
  deriving DecidableEq

structure ValidatorSignature where
  (validatorId validatorPubkey signature : String)
  vote : ValidatorVote
  signedAt : DateTime
  mlModelVersion : String
  analysisBundles : AnalysisBundleRefs
  evidenceDigest : String
  deterministicRisk : DeterministicRiskSummary
  deriving DecidableEq

structure ChainRecord where
  id : PackageId
  (contentHash ipfsCid publisherPubkey blockHash : String)
  publishedAt : DateTime
  validatorSignatures : List ValidatorSignature
  status : PackageStatus
  shielded : Bool
  (keyBundle pgpFingerprint : Option String)
  findings : List Finding
  analysisBundles : AnalysisBundleRefs
  evidenceDigest : String
  deterministicRisk : DeterministicRiskSummary
  accessCount : Nat
  lastAccessed : Option DateTime
  threshold : Nat
  publisherPubkeys : List String
  manifest : Option PackageManifest
  deriving DecidableEq

end ChainRegistry
