import Mathlib.Data.List.AList
import Mathlib.Data.Finset.Card

/-! Finite tables with at most one value for a key: Mathlib's association lists
with a constant value type. The order of the entries is the iteration order. -/
namespace ChainRegistry.Lib
open List

abbrev Table (K V : Type*) := AList (fun _ : K => V)

namespace Table
variable {K V : Type*} (table : Table K V)

def values (table : Table K V) : List V := table.entries.map Sigma.snd

@[simp] theorem values_length : table.values.length = table.keys.length := by
  simp [values,AList.keys,List.keys]

variable [DecidableEq K] {puts : List (K × V)}

def putAll (table : Table K V) (puts : List (K × V)) : Table K V :=
  puts.foldl (fun table put => table.insert put.1 put.2) table

theorem lookup_insert_eq (key other : K) (value : V) :
    (table.insert key value).lookup other = if other = key then some value else table.lookup other := by
  split_ifs with same
  · subst same; exact AList.lookup_insert table
  · exact AList.lookup_insert_ne same

theorem lookup_erase_eq (key other : K) : (table.erase key).lookup other = if other = key then none else table.lookup other := by
  split_ifs with same
  · subst same; exact AList.lookup_erase _ table
  · exact AList.lookup_erase_ne same

theorem mem_values_iff (value : V) : value ∈ table.values ↔ ∃ key, table.lookup key = some value := by
  simp only [values,mem_map]
  constructor
  · rintro ⟨⟨key,_⟩,inside,rfl⟩
    exact ⟨key,AList.mem_lookup_iff.mpr inside⟩
  · rintro ⟨key,found⟩
    exact ⟨⟨key,value⟩,AList.mem_lookup_iff.mp found,rfl⟩

theorem lookup_putAll (puts : List (K × V)) (key : K) :
    (∃ value, (key,value) ∈ puts ∧ (table.putAll puts).lookup key = some value) ∨
      (table.putAll puts).lookup key = table.lookup key := by
  induction puts using List.reverseRecOn with
  | nil => exact .inr rfl
  | append_singleton puts last ih =>
    rw [putAll,foldl_append,foldl_cons,foldl_nil,lookup_insert_eq]
    split_ifs with same
    · exact .inl ⟨last.2,by simp [same],rfl⟩
    · refine ih.imp_left ?_
      intro ⟨value,inside,found⟩
      exact ⟨value,mem_append_left _ inside,found⟩

theorem lookup_putAll_absent {key : K} (absent : ∀ value, (key,value) ∉ puts) (table : Table K V) :
    (table.putAll puts).lookup key = table.lookup key := by
  obtain ⟨value,inside,_⟩ | same := lookup_putAll table puts key
  · exact absurd inside (absent value)
  · exact same

theorem lookup_putAll_unique {key : K} {value : V} (inside : (key,value) ∈ puts)
    (unique : ∀ other, (key,other) ∈ puts → other = value) (table : Table K V) :
    (table.putAll puts).lookup key = some value := by
  induction puts using List.reverseRecOn with
  | nil => cases inside
  | append_singleton puts last ih =>
    rw [putAll,foldl_append,foldl_cons,foldl_nil,lookup_insert_eq]
    split_ifs with same
    · have own : (key,last.2) ∈ puts ++ [last] := by
        rw [same]
        exact mem_append_right _ mem_cons_self
      exact congrArg some (unique last.2 own)
    · apply ih
      · refine (mem_append.mp inside).resolve_right fun last' => same ?_
        rw [← mem_singleton.mp last']
      · exact fun other earlier => unique other (mem_append_left _ earlier)

theorem lookup_putAll_map (set : K → V → V) (key : K) :
    (table.putAll (table.entries.map fun entry => (entry.1,set entry.1 entry.2))).lookup key =
      (table.lookup key).map (set key) := by
  have puts : ∀ other, (key,other) ∈ table.entries.map (fun entry => (entry.1,set entry.1 entry.2)) ↔
      ∃ value, table.lookup key = some value ∧ set key value = other := by
    intro other
    rw [mem_map]
    constructor
    · rintro ⟨⟨_,value⟩,inside,same⟩
      obtain ⟨rfl,made⟩ := Prod.mk.inj same
      exact ⟨value,AList.mem_lookup_iff.mpr inside,made⟩
    · rintro ⟨value,found,made⟩
      exact ⟨⟨key,value⟩,AList.mem_lookup_iff.mp found,congrArg (Prod.mk key) made⟩
  cases found : table.lookup key with
  | none =>
    rw [lookup_putAll_absent,found]
    · rfl
    · intro other inside
      obtain ⟨_,present,_⟩ := (puts other).mp inside
      cases found.symm.trans present
  | some value =>
    apply lookup_putAll_unique ((puts _).mpr ⟨value,found,rfl⟩)
    intro other inside
    obtain ⟨_,present,rfl⟩ := (puts other).mp inside
    cases found.symm.trans present
    rfl

def ids (table : Table K V) : Finset K := table.keys.toFinset

@[simp] theorem card_ids : table.ids.card = table.keys.length :=
  toFinset_card_of_nodup table.nodupKeys

theorem mem_ids (key : K) : key ∈ table.ids ↔ ∃ value, table.lookup key = some value := by
  rw [ids,mem_toFinset,← AList.mem_keys,← AList.lookup_isSome,Option.isSome_iff_exists]

@[simp] theorem ids_insert (key : K) (value : V) : ids (table.insert key value) = insert key table.ids := by
  ext other
  rw [Finset.mem_insert,ids,ids,mem_toFinset,mem_toFinset,← AList.mem_keys,← AList.mem_keys,AList.mem_insert]

theorem lookup_putAll_distinct (distinct : (puts.map Prod.fst).Nodup) (key : K) (value : V) :
    (putAll ∅ puts).lookup key = some value ↔ (key,value) ∈ puts := by
  induction puts using List.reverseRecOn with
  | nil => simp [putAll]
  | append_singleton puts last ih =>
    rw [map_append,nodup_append] at distinct
    obtain ⟨earlier,_,apart⟩ := distinct
    rw [putAll,foldl_append,foldl_cons,foldl_nil,lookup_insert_eq]
    split_ifs with same
    · subst same
      have fresh : (last.1,value) ∉ puts := fun inside => apart last.1 (mem_map.mpr ⟨_,inside,rfl⟩) last.1 (by simp) rfl
      simp only [mem_append,fresh,false_or,mem_singleton,Option.some.injEq]
      exact ⟨fun h => by rw [← h],fun h => by rw [← h]⟩
    · have other : (key,value) ≠ last := fun equal => same (by rw [← equal])
      simp only [mem_append,mem_singleton,other,or_false]
      exact ih earlier

end Table
end ChainRegistry.Lib
