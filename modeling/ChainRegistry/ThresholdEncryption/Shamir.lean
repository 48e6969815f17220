import ChainRegistry.Lib.Fallible
import Mathlib.Data.List.Basic

/-! Shamir's secret sharing over the field with 256 elements:
`crates/threshold-encryption/src/shamir.rs`. -/
namespace ChainRegistry
open Lib List Fallible

inductive ThresholdError
  | invalidThreshold (threshold total : UInt8)
  | reconstructionFailed (message : String)
  | encryptionError (message : String)
  | decryptionError (message : String)
  | invalidShare (message : String)
  | insufficientShares (got need : UInt8)
  | ioError (message : String)
  deriving DecidableEq

inductive ThresholdFailure
  | error (error : ThresholdError)
  | panicked
  deriving DecidableEq

abbrev ThresholdResult := Except ThresholdFailure

structure Share where
  index : UInt8
  value : List UInt8

structure ShamirSecretSharing where
  (threshold totalShares : UInt8)

namespace ShamirSecretSharing
def gfAdd (a b : UInt8) : UInt8 := a ^^^ b

def gfSub (a b : UInt8) : UInt8 := a ^^^ b

def irreduciblePoly : UInt16 := 0x11b

/-- One round of the loop of `build_exp_table`: the product with the generator 3. -/
def timesGenerator (val : UInt16) : UInt16 :=
  let val := (val <<< 1) ^^^ val
  if val &&& 0x100 ≠ 0 then val ^^^ irreduciblePoly else val

def expTable : List UInt8 := (List.iterate timesGenerator 1 256).map UInt16.toUInt8

def logTable : List UInt8 :=
  (List.range 255).foldl (fun table i => table.set (expTable.getD i 0).toNat (UInt8.ofNat i)) (List.replicate 256 0)

def gfMul (a b : UInt8) : UInt8 :=
  if a = 0 ∨ b = 0 then 0
  else expTable.getD (((logTable.getD a.toNat 0).toNat + (logTable.getD b.toNat 0).toNat) % 255) 0

def gfDiv (a b : UInt8) : UInt8 :=
  if a = 0 ∨ b = 0 then 0
  else expTable.getD (((logTable.getD a.toNat 0).toNat + 255 - (logTable.getD b.toNat 0).toNat) % 255) 0

def evaluatePolynomial (coefficients : List UInt8) (x : UInt8) : UInt8 :=
  (coefficients.foldl (fun (result,power) coeff => (gfAdd result (gfMul coeff power),gfMul power x)) (0,1)).1

variable (points : List (UInt8 × UInt8))

def lagrangeParts (i : Nat) (xi : UInt8) : UInt8 × UInt8 :=
  points.zipIdx.foldl (fun (numerator,denominator) ((xj,_),j) =>
    if i ≠ j then (gfMul numerator xj,gfMul denominator (gfSub xj xi)) else (numerator,denominator)) (1,1)

def lagrangeInterpolateAtZero : UInt8 :=
  points.zipIdx.foldl (fun result ((xi,yi),i) =>
    let (numerator,denominator) := lagrangeParts points i xi
    gfAdd result (gfMul yi (gfDiv numerator denominator))) 0

def coefficients (sss : ShamirSecretSharing) (random : Nat → Nat → UInt8) (k : Nat) (byte : UInt8) : List UInt8 :=
  byte :: (List.range (sss.threshold.toNat - 1)).map (random k)

def splitSecret (sss : ShamirSecretSharing) (random : Nat → Nat → UInt8) (secret : List UInt8) : List Share :=
  (List.range sss.totalShares.toNat).map fun i =>
    ⟨UInt8.ofNat (i + 1),secret.zipIdx.map fun (byte,k) => evaluatePolynomial (sss.coefficients random k byte)
      (UInt8.ofNat (i + 1))⟩

def pointAt (i : Nat) (share : Share) : ThresholdResult (UInt8 × UInt8) :=
  match share.value[i]? with
  | some y => .ok (share.index,y)
  | none => .error .panicked

def reconstructSecret (sss : ShamirSecretSharing) (shares : List Share) : ThresholdResult (List UInt8) :=
  if shares.length < sss.threshold.toNat then
    .error (.error (.insufficientShares (UInt8.ofNat shares.length) sss.threshold))
  else match shares with
    | [] => .error .panicked
    | first :: _ => (List.range first.value.length).mapM fun i => do return lagrangeInterpolateAtZero (← shares.mapM (pointAt i))

variable {sss : ShamirSecretSharing} {shares : List Share} {share : Share} {rest : List Share}

theorem splitSecret_value {random : Nat → Nat → UInt8} {secret : List UInt8}
    (made : share ∈ sss.splitSecret random secret) : share.value.length = secret.length := by
  obtain ⟨i,_,rfl⟩ := mem_map.mp made
  rw [length_map,length_zipIdx]

theorem reconstructSecret_few (few : shares.length < sss.threshold.toNat) :
    sss.reconstructSecret shares = .error (.error (.insufficientShares (UInt8.ofNat shares.length) sss.threshold)) := by
  rw [reconstructSecret.eq_def,if_pos few]

theorem pointAt_ok {i : Nat} (inside : i < share.value.length) : ∃ point, pointAt i share = .ok point := by
  rw [pointAt,getElem?_eq_getElem inside]
  exact ⟨_,rfl⟩

theorem pointAt_panicked {i : Nat} (outside : share.value.length ≤ i) : pointAt i share = .error .panicked := by
  rw [pointAt,getElem?_eq_none outside]

theorem reconstructSecret_ok {first : Share} (enough : sss.threshold.toNat ≤ (first :: rest).length)
    (long : ∀ share ∈ first :: rest, first.value.length ≤ share.value.length) :
    ∃ secret, sss.reconstructSecret (first :: rest) = .ok secret ∧ secret.length = first.value.length := by
  have read : ∀ i ∈ range first.value.length, ∃ byte,
      (do return lagrangeInterpolateAtZero (← (first :: rest).mapM (pointAt i)) : ThresholdResult UInt8) = .ok byte := by
    intro i inside
    obtain ⟨points,made,_⟩ := mapM_total fun share member =>
      pointAt_ok (Nat.lt_of_lt_of_le (mem_range.mp inside) (long share member))
    rw [made]
    exact ⟨_,rfl⟩
  obtain ⟨secret,made,whole⟩ := mapM_total read
  refine ⟨secret,?_,?_⟩
  · rw [reconstructSecret,if_neg (Nat.not_lt.mpr enough)]
    exact made
  · rw [whole,length_range]

theorem reconstructSecret_length {length : Nat} (present : shares ≠ []) (enough : sss.threshold.toNat ≤ shares.length)
    (even : ∀ share ∈ shares, share.value.length = length) :
    ∃ secret, sss.reconstructSecret shares = .ok secret ∧ secret.length = length := by
  cases shares with
  | nil => exact absurd rfl present
  | cons first rest =>
    have same := even first mem_cons_self
    rw [← same]
    exact reconstructSecret_ok enough fun share member => Nat.le_of_eq (same.trans (even share member).symm)

theorem reconstructSecret_panicked {first share : Share}
    (enough : sss.threshold.toNat ≤ (first :: rest).length) (member : share ∈ first :: rest)
    (short : share.value.length < first.value.length) : sss.reconstructSecret (first :: rest) = .error .panicked := by
  have only : ∀ i, ∀ share ∈ first :: rest, pointAt i share = .error .panicked ∨ ∃ point, pointAt i share = .ok point := by
    intro i share _
    rcases Nat.lt_or_ge i share.value.length with inside | outside
    · exact .inr (pointAt_ok inside)
    · exact .inl (pointAt_panicked outside)
  rw [reconstructSecret,if_neg (Nat.not_lt.mpr enough)]
  refine Fallible.mapM_error (fun i _ => ?_) ⟨share.value.length,mem_range.mpr short,?_⟩
  · by_cases fails : ∃ share ∈ first :: rest, pointAt i share = .error .panicked
    · rw [Fallible.mapM_error (only i) fails]
      exact .inl rfl
    · obtain ⟨points,made,_⟩ := mapM_total fun share member =>
        (only i share member).resolve_left fun failed => fails ⟨share,member,failed⟩
      rw [made]
      exact .inr ⟨_,rfl⟩
  · rw [Fallible.mapM_error (only _) ⟨share,member,pointAt_panicked Nat.le.refl⟩]
    rfl

def Sufficient (sss : ShamirSecretSharing) (shares : List Share) : Prop :=
  ∃ chosen : List Share, chosen.Sublist shares ∧ sss.threshold.toNat ≤ chosen.length ∧ (chosen.map Share.index).Nodup ∧
    (∀ share ∈ chosen, share.index ≠ 0) ∧ ∃ length, ∀ share ∈ chosen, share.value.length = length

/-- Only sufficient shares give a secret, exactly if there are too few or the first is the shortest. -/
theorem reconstructSecret_rejects_iff (sss : ShamirSecretSharing) (shares : List Share) :
    (sss.reconstructSecret shares ≠ .error .panicked ∧
      ∀ secret, sss.reconstructSecret shares = .ok secret → sss.Sufficient shares) ↔
    shares.length < sss.threshold.toNat ∨ sss.Sufficient shares ∧
      ∃ first ∈ shares.head?, ∀ share ∈ shares, first.value.length ≤ share.value.length := by
  by_cases few : shares.length < sss.threshold.toNat
  · simp [reconstructSecret_few few,few]
  rw [or_iff_right few]
  cases shares with
  | nil =>
    rw [reconstructSecret,if_neg few]
    simp
  | cons first rest =>
    by_cases long : ∀ share ∈ first :: rest, first.value.length ≤ share.value.length
    · obtain ⟨secret,made,_⟩ := reconstructSecret_ok (Nat.not_lt.mp few) long
      have shown : ∃ first' ∈ (first :: rest).head?, ∀ share ∈ first :: rest, first'.value.length ≤ share.value.length :=
        ⟨first,rfl,long⟩
      rw [made,and_iff_left shown]
      simp
    · obtain ⟨share,member,short⟩ : ∃ share ∈ first :: rest, share.value.length < first.value.length := by
        simpa only [not_forall,Nat.not_le,exists_prop] using long
      rw [reconstructSecret_panicked (Nat.not_lt.mp few) member short]
      refine ⟨fun ⟨quiet,_⟩ => absurd rfl quiet,fun ⟨_,_,rfl,all⟩ => absurd all long⟩

/-- Two shares of one point pass for a threshold of two, and a shorter second share is read beyond its end. -/
theorem reconstructSecret_accepts_a_repeated_point : ¬ (⟨2,3⟩ : ShamirSecretSharing).Sufficient [⟨1,[7]⟩,⟨1,[7]⟩] ∧
    reconstructSecret ⟨2,3⟩ [⟨1,[7]⟩,⟨1,[7]⟩] = .ok [0] ∧ reconstructSecret ⟨2,3⟩ [⟨1,[7]⟩,⟨2,[]⟩] = .error .panicked := by
  refine ⟨?_,by decide +kernel,by decide +kernel⟩
  rintro ⟨chosen,among,enough,distinct,_⟩
  have whole := among.eq_of_length_le enough
  subst whole
  exact absurd distinct (by decide)

end ShamirSecretSharing
end ChainRegistry
