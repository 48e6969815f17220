import Mathlib.Data.List.Chain
import Mathlib.Data.List.Nodup

/-! A log whose entries name the key that they follow, and drafts of further entries. A draft is
taken only while the key that it names is the last; if no key comes twice, only after the entries
that it was made after. -/
namespace ChainRegistry.Lib.GuardedLog
open List

variable {α κ : Type*} (prev next : α → κ) (start : κ)

def keys (log : List α) : List κ := start :: log.map next

def lastKey (log : List α) : κ := (log.getLast?.map next).getD start

variable (before : α → α → Prop)

structure Ordered (log : List α) : Prop where
  linked : log.IsChain fun entry later => prev later = next entry
  sorted : log.Pairwise before

structure Draft (log : List α) (draft : α) : Prop where
  named : prev draft ∈ keys next start log
  fits : prev draft = lastKey next start log → ∀ entry ∈ log, before entry draft

variable {prev next start before} {log : List α} {entry draft : α}

theorem keys_append (log : List α) (entry : α) : keys next start (log ++ [entry]) = keys next start log ++ [next entry] := by
  rw [keys,map_append]
  rfl

@[simp] theorem lastKey_append (log : List α) (entry : α) : lastKey next start (log ++ [entry]) = next entry := by
  rw [lastKey,List.getLast?_concat]
  rfl

theorem lastKey_mem (log : List α) : lastKey next start log ∈ keys next start log := by
  induction log using List.reverseRecOn with
  | nil => exact mem_cons_self
  | append_singleton log entry _ =>
    rw [lastKey_append,keys_append]
    exact mem_append_right _ mem_cons_self

theorem ordered_nil : Ordered prev next before [] := ⟨.nil,.nil⟩

theorem draft_of_last (last : prev draft = lastKey next start log) (fits : ∀ entry ∈ log, before entry draft) :
    Draft prev next start before log draft :=
  ⟨last ▸ lastKey_mem log,fun _ => fits⟩

theorem Draft.append (made : Draft prev next start before log draft) (distinct : (keys next start (log ++ [entry])).Nodup) :
    Draft prev next start before (log ++ [entry]) draft := by
  rw [keys_append,nodup_append] at distinct
  constructor
  · rw [keys_append]
    exact mem_append_left _ made.named
  · intro last
    rw [lastKey_append] at last
    exact absurd last (distinct.2.2 _ made.named _ mem_cons_self)

theorem Ordered.append (ordered : Ordered prev next before log) (made : Draft prev next start before log draft)
    (last : prev draft = lastKey next start log) : Ordered prev next before (log ++ [draft]) := by
  constructor
  · rw [isChain_append]
    refine ⟨ordered.linked,.singleton _,?_⟩
    intro entry ends other first
    cases first
    rw [last,lastKey,Option.mem_def.mp ends]
    rfl
  · rw [pairwise_append]
    refine ⟨ordered.sorted,pairwise_singleton _ _,?_⟩
    intro entry inside other alone
    rw [mem_singleton.mp alone]
    exact made.fits last entry inside

end ChainRegistry.Lib.GuardedLog
