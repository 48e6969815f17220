import ChainRegistry.Common.IdealCrates
import Mathlib.Data.List.Sort

/-! The verdict on a package: `summarize` of `crates/validator/src/risk.rs` without the
reasons that it gives. The findings enter by their counts and, into the digest, by the
sorted list of their texts. -/
namespace ChainRegistry.Risk
open List Text

inductive RiskBand
  | low | guarded | elevated | high | critical

inductive RiskDisposition
  | accept | review | block

def RiskDisposition.rank : RiskDisposition → Nat
  | accept => 0
  | review => 1
  | block => 2

/-- The thresholds, with what is read from the environment: `CREG_TESTNET` without
`CREG_PRODUCTION`, and whether critical OSV findings block. -/
structure RiskAggregator where
  (blockThreshold reviewThreshold : Nat)
  (allowTestnetDevSandboxBypass osvBlockCriticalEnabled : Bool)

structure RiskSummary where
  (score deterministicScore advisoryScore ensembleScore : Nat)
  band : RiskBand
  disposition : RiskDisposition
  deterministicBlock : Bool
  (deterministicFindings advisoryFindings : Nat)
  severities : FindingSeverity → Nat
  reputationDelta : Int
  evidenceDigest : String

/-- The arithmetic of `i32`, which wraps. -/
def i32 (n : Int) : Int := n.bmod (2 ^ 32)

/-- `clamp(0, 100) as u8`. -/
def clamp (n : Int) : Nat := (max 0 (min 100 n)).toNat

variable (severity : FindingSeverity) (findings : List Finding)

def count : Nat := findings.countP fun finding => finding.severity = severity

def debug : FindingSeverity → String
  | .critical => "Critical"
  | .high => "High"
  | .medium => "Medium"
  | .low => "Low"

def evidenceItem (finding : Finding) : String :=
  "|".intercalate [finding.id,debug finding.severity,finding.file,toString (finding.line.getD 0),finding.title]

namespace RiskAggregator
variable (crates : Crates) (aggregator : RiskAggregator)

def isDeterministicFinding (finding : Finding) : Bool :=
  if startsWith finding.id "OSV" then finding.id = "OSV002" && aggregator.osvBlockCriticalEnabled
  else finding.id ≠ "SA011" && finding.id ≠ "SA012" && !startsWith finding.id "LLM"

def buildEvidenceDigest (package : PackageId) (findings : List Finding) (bundleSet : AnalysisBundleRefs)
    (reputationDelta : Int) (deterministicScore : Nat) : String :=
  let evidenceItems := (findings.map evidenceItem).mergeSort
  sha256Text crates ("::".intercalate [package.canonical,bundleSet.policyBundleId,bundleSet.featureSchemaId,
    bundleSet.expertBundleId,bundleSet.embeddingModelId,bundleSet.indexEpoch,bundleSet.thresholdProfileId,
    bundleSet.osvSnapshotEpoch,toString reputationDelta,toString deterministicScore,"||".intercalate evidenceItems])

def reputationRisk (delta : Int) : Int := if delta < 0 then (i32 (4 - delta)).tdiv 5 else -(delta / 20)

def score (deterministic : List Finding) (deterministicScore : Nat) (reputationDelta : Int) : Nat :=
  let blocking := deterministic.countP fun finding =>
    finding.severity = .high && !(aggregator.allowTestnetDevSandboxBypass && finding.id = "SB012")
  clamp (i32 (deterministicScore + count .critical deterministic * 25 + blocking * 15 + count .medium deterministic * 5 +
    count .low deterministic + reputationRisk reputationDelta))

def summarize (package : PackageId) (findings : List Finding) (deterministicScore advisoryScore ensembleScore : Int)
    (bundleSet : AnalysisBundleRefs) (reputationDelta : Int) : RiskSummary :=
  let deterministic := findings.filter aggregator.isDeterministicFinding
  let score := aggregator.score deterministic (clamp deterministicScore) reputationDelta
  let block := 0 < count .critical deterministic ∨ aggregator.blockThreshold ≤ score
  { score := score, deterministicScore := clamp deterministicScore, advisoryScore := clamp advisoryScore
    ensembleScore := clamp ensembleScore
    band := if score < 20 then .low else if score < 45 then .guarded else if score < 70 then .elevated
      else if score < 90 then .high else .critical
    disposition := if block then .block
      else if aggregator.reviewThreshold ≤ score ∨ 0 < count .high deterministic ∨
        aggregator.reviewThreshold ≤ clamp advisoryScore then .review
      else .accept
    deterministicBlock := block, deterministicFindings := deterministic.length
    advisoryFindings := findings.length - deterministic.length
    severities := fun severity => count severity deterministic, reputationDelta := reputationDelta
    evidenceDigest := buildEvidenceDigest crates package deterministic bundleSet reputationDelta (clamp deterministicScore) }

variable {few many : List Finding}

theorem i32_small {n : Int} (low : -2 ^ 31 ≤ n) (high : n < 2 ^ 31) : i32 n = n := by
  apply Int.bmod_eq_of_le
  · omega
  · omega

theorem clamp_mono {a b : Int} (le : a ≤ b) : clamp a ≤ clamp b := by
  unfold clamp
  omega

theorem reputationRisk_bounds {delta : Int} (above : -10 ^ 6 < delta) (below : delta < 10 ^ 6) :
    -10 ^ 6 < reputationRisk delta ∧ reputationRisk delta < 10 ^ 6 := by
  unfold reputationRisk
  split_ifs
  · rw [i32_small (by omega) (by omega),Int.tdiv_eq_ediv_of_nonneg (by omega)]
    omega
  · omega

theorem score_mono (more : few <+ many) (short : many.length < 10 ^ 6) (own : Int) {delta : Int} (above : -10 ^ 6 < delta)
    (below : delta < 10 ^ 6) : aggregator.score few (clamp own) delta ≤ aggregator.score many (clamp own) delta := by
  have counts : ∀ counted, few.countP counted ≤ many.countP counted ∧ many.countP counted < 10 ^ 6 :=
    fun counted => ⟨more.countP_le,countP_le_length.trans_lt short⟩
  have own : clamp own ≤ 100 := by
    unfold clamp
    omega
  have reputation := reputationRisk_bounds above below
  have critical := counts fun finding => finding.severity = .critical
  have high := counts fun finding => finding.severity =
    .high && !(aggregator.allowTestnetDevSandboxBypass && finding.id = "SB012")
  have medium := counts fun finding => finding.severity = .medium
  have low := counts fun finding => finding.severity = .low
  unfold score count
  apply clamp_mono
  rw [i32_small,i32_small]
  all_goals omega

variable {aggregator} (package : PackageId) (bundleSet : AnalysisBundleRefs)

theorem buildEvidenceDigest_perm (same : few.Perm many) (delta : Int) (own : Nat) :
    buildEvidenceDigest crates package few bundleSet delta own = buildEvidenceDigest crates package many bundleSet delta own := by
  have sorted : ∀ items : List String, items.mergeSort.Pairwise fun a b => decide (a ≤ b) = true :=
    pairwise_mergeSort (fun a b c => by simpa using String.le_trans) (fun a b => by simpa using String.le_total a b)
  have items := (((mergeSort_perm _ _).trans (same.map evidenceItem)).trans (mergeSort_perm _ _).symm).eq_of_pairwise
    (fun a b _ _ => by simpa using String.le_antisymm) (sorted _) (sorted _)
  rw [buildEvidenceDigest,buildEvidenceDigest,items]

variable (deterministicScore advisoryScore ensembleScore : Int) {reputationDelta : Int}

/-- More findings lower neither the score nor the verdict. -/
theorem verdict_monotone (above : -10 ^ 6 < reputationDelta) (below : reputationDelta < 10 ^ 6) (more : few <+ many)
    (short : many.length < 10 ^ 6) :
    let verdict := fun findings =>
      aggregator.summarize crates package findings deterministicScore advisoryScore ensembleScore bundleSet reputationDelta
    (verdict few).score ≤ (verdict many).score ∧ (verdict few).disposition.rank ≤ (verdict many).disposition.rank := by
  have filtered := more.filter aggregator.isDeterministicFinding
  have scores := aggregator.score_mono filtered ((length_filter_le _ _).trans_lt short) deterministicScore above below
  have critical : count .critical (few.filter _) ≤ count .critical (many.filter _) := filtered.countP_le
  have high : count .high (few.filter _) ≤ count .high (many.filter _) := filtered.countP_le
  refine ⟨scores,?_⟩
  simp only [summarize]
  split_ifs
  all_goals simp only [RiskDisposition.rank]
  all_goals omega

/-- The verdict does not depend on the order of the deterministic findings. -/
theorem verdict_canonical
    (same : (few.filter aggregator.isDeterministicFinding).Perm (many.filter aggregator.isDeterministicFinding)) :
    let verdict := fun findings =>
      aggregator.summarize crates package findings deterministicScore advisoryScore ensembleScore bundleSet reputationDelta
    (verdict few).evidenceDigest = (verdict many).evidenceDigest ∧ (verdict few).score = (verdict many).score ∧
      (verdict few).band = (verdict many).band ∧ (verdict few).disposition = (verdict many).disposition := by
  simp only [summarize,score,count,same.countP_eq]
  rw [buildEvidenceDigest_perm crates package bundleSet same]
  exact ⟨rfl,trivial,rfl,rfl⟩

end RiskAggregator

def found (id : String) : Finding := ⟨id,"",severity,"","",none⟩

def verdict : RiskSummary :=
  RiskAggregator.summarize (Ideal.crates [] Ideal.checksum) ⟨85,55,false,false⟩ ⟨"npm","a","1"⟩ findings 10 0 0 {} 3

theorem critical_weighs : (verdict [found .high "SA001"]).score ≤ (verdict [found .critical "SB001",found .high "SA001"]).score :=
  (RiskAggregator.verdict_monotone _ _ _ 10 0 0 (by decide) (by decide) (by decide) (by decide)).1

theorem advice_ignored : (verdict [found .low "LLM001",found .high "SA001",found .low "SA002"]).evidenceDigest =
    (verdict [found .low "SA002",found .high "SA001"]).evidenceDigest :=
  (RiskAggregator.verdict_canonical _ _ _ 10 0 0 (by decide)).1

end ChainRegistry.Risk
