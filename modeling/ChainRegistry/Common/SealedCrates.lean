import ChainRegistry.Common.IdealCrates
import Mathlib.Logic.Equiv.List
import Mathlib.Tactic.DeriveEncodable

/-! Digests that can be told apart inside a longer text, as those of one fixed length
can, and an instance: the data in hexadecimal between two marks. -/
namespace ChainRegistry
open Lib Codes List Text

/-- What the length of a SHA-256 text and the braces of a JSON object give: no digest
begins or ends another, and no transaction is serialized to a text of digests. -/
structure Crates.DigestsApart (crates : Crates) : Prop where
  transaction : Function.Injective crates.transactionJson
  front : ∀ a b x y, crates.sha256Hex a ++ x = crates.sha256Hex b ++ y → crates.sha256Hex a = crates.sha256Hex b
  back : ∀ a b x y, x ++ crates.sha256Hex a = y ++ crates.sha256Hex b → crates.sha256Hex a = crates.sha256Hex b
  -- longer than the word that is hashed for a block without transactions
  wide : ∀ data, 5 < (crates.sha256Hex data).toList.length
  object : ∀ tx, (crates.transactionJson tx).head? = some 123 ∧ (crates.transactionJson tx).getLast? = some 125
  unbraced : ∀ data text, (bytes (crates.sha256Hex data ++ text)).head? ≠ some 123 ∧
    (bytes (text ++ crates.sha256Hex data)).getLast? ≠ some 125

instance encodableString : Encodable String :=
  Encodable.ofLeftInverse (fun s => s.toList.map Char.toNat) (fun codes => String.ofList (codes.map Char.ofNat)) (by
    intro s
    simp [Function.comp_def])

deriving instance Encodable for FindingSeverity, Finding, PackageId, PackageManifest, AnalysisBundleRefs,
  DeterministicRiskSummary, PackageStatus, ValidatorVote, ValidatorSignature, ChainRecord, Transaction

namespace Sealed
variable (data : List UInt8)

def body : List Char := ['s','e','a','l'] ++ (hexEncode data).toList

def sha256Hex : String := String.ofList ('<' :: (body data ++ ['>']))

def transactionCode (known : List Transaction) (tx : Transaction) : List UInt8 :=
  match known.findIdx? (fun other => other = tx) with
  | some index => List.replicate (index + 1) 65
  | none => 0 :: number (Encodable.encode tx)

def transactionJson (known : List Transaction) (tx : Transaction) : List UInt8 := 123 :: (transactionCode known tx ++ [125])

def crates (headers : List BlockHeader) (known : List Transaction) : Crates :=
  {Ideal.crates headers Ideal.checksum with sha256Hex := sha256Hex, transactionJson := transactionJson known}

theorem toList_sha256Hex : (sha256Hex data).toList = '<' :: (body data ++ ['>']) :=
  String.toList_ofList

theorem body_unmarked : '<' ∉ body data ∧ '>' ∉ body data := by
  have digits := hexEncode_digits data
  constructor
  all_goals
    intro inside
    rcases mem_append.mp inside with first | second
    · exact absurd first (by decide)
    · exact absurd (digits _ second).2.2 (by decide)

theorem sha256Hex_front {a b : List UInt8} {x y : String} (same : sha256Hex a ++ x = sha256Hex b ++ y) :
    sha256Hex a = sha256Hex b := by
  have chars := congrArg String.toList same
  simp only [String.toList_append,toList_sha256Hex,cons_append,append_assoc,nil_append,
    List.cons.injEq,true_and] at chars
  apply String.toList_inj.mp
  rw [toList_sha256Hex,toList_sha256Hex,(split_at_mark (body_unmarked a).2 (body_unmarked b).2 chars).1]

theorem sha256Hex_back {a b : List UInt8} {x y : String} (same : x ++ sha256Hex a = y ++ sha256Hex b) :
    sha256Hex a = sha256Hex b := by
  have chars := congrArg (fun s => s.toList.reverse) same
  simp only [String.toList_append,toList_sha256Hex,reverse_append,reverse_cons,reverse_nil,
    nil_append,cons_append,append_assoc,List.cons.injEq,true_and] at chars
  apply String.toList_inj.mp
  have bodies := (split_at_mark (by simpa using (body_unmarked a).1) (by simpa using (body_unmarked b).1) chars).1
  rw [toList_sha256Hex,toList_sha256Hex,reverse_inj.mp bodies]

theorem sha256Hex_injective : Function.Injective sha256Hex := by
  intro a b same
  have texts : hexEncode a = hexEncode b := by
    apply String.toList_inj.mp
    have chars := congrArg String.toList same
    rw [toList_sha256Hex,toList_sha256Hex,cons_inj_right,append_left_inj] at chars
    exact append_cancel_left chars
  have read := congrArg hexDecode texts
  rw [hexDecode_hexEncode,hexDecode_hexEncode] at read
  exact Except.ok.inj read

theorem transactionJson_injective (known : List Transaction) : Function.Injective (transactionJson known) := by
  intro a b same
  rw [transactionJson,transactionJson,cons_inj_right,append_left_inj] at same
  exact listed_injective known (delimits_number.injective.comp Encodable.encode_injective) same

variable (headers : List BlockHeader) (known : List Transaction)

theorem collisionFree : (crates headers known).CollisionFree :=
  ⟨sha256Hex_injective,Ideal.headerJson_injective headers⟩

theorem digestsApart : (crates headers known).DigestsApart where
  transaction := transactionJson_injective known
  front _ _ _ _ same := sha256Hex_front same
  back _ _ _ _ same := sha256Hex_back same
  wide data := by
    change 5 < (sha256Hex data).toList.length
    rw [toList_sha256Hex,body]
    simp only [length_cons,length_append,length_nil]
    omega
  object tx := ⟨rfl,by
    change (transactionJson known tx).getLast? = _
    rw [transactionJson,← cons_append,List.getLast?_concat]⟩
  unbraced data text := by
    have front : sha256Hex data ++ text = String.ofList ('<' :: (body data ++ ['>'] ++ text.toList)) := by
      apply String.toList_inj.mp
      rw [String.toList_append,toList_sha256Hex,String.toList_ofList,cons_append]
    have back : text ++ sha256Hex data = String.ofList (text.toList ++ '<' :: body data ++ ['>']) := by
      apply String.toList_inj.mp
      rw [String.toList_append,toList_sha256Hex,String.toList_ofList,append_assoc,cons_append]
    have first : String.utf8EncodeChar '<' = [60] := by decide
    have last : ['>'].flatMap String.utf8EncodeChar = [62] := by decide
    constructor
    · change (bytes (sha256Hex data ++ text)).head? ≠ _
      rw [front,bytes_ofList,flatMap_cons,first]
      simp
    · change (bytes (text ++ sha256Hex data)).getLast? ≠ _
      rw [back,bytes_ofList,flatMap_append,last,List.getLast?_concat]
      simp

end Sealed
end ChainRegistry
