import Mathlib.Data.List.Induction
import Mathlib.Data.List.Nodup

/-! Lists with at most one element for a key. A new element takes the place of the
one with its key, or the end of the list. -/
namespace ChainRegistry.Lib.Upsert
open List

variable {α κ : Type*} [DecidableEq κ] (key : α → κ)

def upsert (a : α) : List α → List α
  | [] => [a]
  | b :: rest => if key b = key a then a :: rest else b :: upsert a rest

theorem mem_upsert {a b : α} {entries : List α} (inside : b ∈ upsert key a entries) : b = a ∨ b ∈ entries := by
  induction entries with
  | nil => simpa [upsert] using inside
  | cons entry rest ih =>
    unfold upsert at inside
    split_ifs at inside with same
    · rw [mem_cons] at inside ⊢
      exact inside.imp_right (.inr ·)
    · rw [mem_cons] at inside ⊢
      rcases inside with first | later
      · exact .inr (.inl first)
      · exact (ih later).imp_right .inr

theorem upsert_self (a : α) (entries : List α) : a ∈ upsert key a entries := by
  induction entries with
  | nil => exact mem_singleton.mpr rfl
  | cons entry rest ih =>
    unfold upsert
    split_ifs
    · exact mem_cons_self
    · exact mem_cons_of_mem _ ih

theorem keys_upsert (a : α) (entries : List α) :
    (upsert key a entries).map key = if key a ∈ entries.map key then entries.map key else entries.map key ++ [key a] := by
  induction entries with
  | nil => rfl
  | cons entry rest ih =>
    unfold upsert
    split_ifs with same inside fresh
    · simp [same]
    · exact absurd (mem_cons.mpr (.inl same.symm)) inside
    · rw [map_cons,ih,if_pos ((mem_cons.mp fresh).resolve_left (Ne.symm same)),map_cons]
    · rw [map_cons,ih,if_neg (fun later => fresh (mem_cons_of_mem _ later)),map_cons,cons_append]

theorem eraseDups_snoc (keys : List κ) (k : κ) :
    (keys ++ [k]).eraseDups = if k ∈ keys then keys.eraseDups else keys.eraseDups ++ [k] := by
  rw [eraseDups_append]
  split_ifs with known <;> simp [List.removeAll,eraseDups_cons,known]

theorem foldl_upsert_spec (as : List α) : ((as.foldl (fun entries a => upsert key a entries) []).map key).Nodup ∧
    (as.foldl (fun entries a => upsert key a entries) []).map key = (as.map key).eraseDups ∧
    ∀ b ∈ as.foldl (fun entries a => upsert key a entries) [], as.reverse.find? (fun a => key a = key b) = some b := by
  induction as using List.reverseRecOn with
  | nil => simp
  | append_singleton as a ih =>
    obtain ⟨distinct,order,last⟩ := ih
    rw [foldl_append,foldl_cons,foldl_nil]
    have keys := keys_upsert key a (as.foldl (fun entries a => upsert key a entries) [])
    have nodup : ((upsert key a (as.foldl (fun entries a => upsert key a entries) [])).map key).Nodup := by
      rw [keys]
      split_ifs with known
      · exact distinct
      · rw [← concat_eq_append]
        exact distinct.concat known
    refine ⟨nodup,?_,?_⟩
    · simp only [keys,order,map_append,map_singleton,eraseDups_snoc,mem_eraseDups]
    · intro b inside
      rw [reverse_append,reverse_singleton,singleton_append,List.find?_cons]
      by_cases same : key a = key b
      · have newest := inj_on_of_nodup_map nodup (upsert_self key a _) inside same
        simp [newest]
      · simpa [same] using last b ((mem_upsert key inside).resolve_left fun eq => same (congrArg key eq.symm))

theorem foldl_upsert_eq (as : List α) : as.foldl (fun entries a => upsert key a entries) [] =
    (as.map key).eraseDups.filterMap fun k => as.reverse.find? fun a => key a = k := by
  obtain ⟨_,order,last⟩ := foldl_upsert_spec key as
  rw [← order,filterMap_map]
  exact ((filterMap_congr last).trans filterMap_some).symm

end ChainRegistry.Lib.Upsert
