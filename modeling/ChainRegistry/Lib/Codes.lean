import Mathlib.Data.Nat.Digits.Lemmas

/-! Self-delimiting codes: an encoding from which the value and what follows it can
both be read back, so that codes of the fields of a record may be concatenated. -/
namespace ChainRegistry.Lib.Codes
open List

variable {α β : Type*} {code : α → List UInt8}

def Delimits (code : α → List UInt8) : Prop :=
  ∀ a b rest other, code a ++ rest = code b ++ other → a = b ∧ rest = other

theorem Delimits.injective (delimits : Delimits code) : Function.Injective code := by
  intro a b same
  exact (delimits a b [] [] (by rw [same])).1

theorem Delimits.comap {code : β → List UInt8} (delimits : Delimits code) {view : α → β}
    (injective : Function.Injective view) : Delimits (fun a => code (view a)) := by
  intro a b rest other same
  obtain ⟨views,rests⟩ := delimits _ _ rest other same
  exact ⟨injective views,rests⟩

theorem Delimits.pair {first : α → List UInt8} {second : β → List UInt8} (left : Delimits first)
    (right : Delimits second) : Delimits (fun p : α × β => first p.1 ++ second p.2) := by
  intro a b rest other same
  simp only [append_assoc] at same
  obtain ⟨firsts,tails⟩ := left _ _ _ _ same
  obtain ⟨seconds,rests⟩ := right _ _ _ _ tails
  exact ⟨Prod.ext firsts seconds,rests⟩

def frame : List UInt8 → List UInt8
  | [] => [0]
  | byte :: data => 1 :: byte :: frame data

theorem delimits_frame : Delimits frame := by
  intro a
  induction a with
  | nil =>
    intro b rest other same
    cases b with
    | nil => exact ⟨rfl,by simpa [frame] using same⟩
    | cons byte data => simp [frame] at same
  | cons byte data ih =>
    intro b rest other same
    cases b with
    | nil => simp [frame] at same
    | cons next more =>
      simp only [frame,cons_append,List.cons.injEq,true_and] at same
      obtain ⟨datas,rests⟩ := ih more rest other same.2
      exact ⟨by rw [same.1,datas],rests⟩

def short [DecidableEq α] (common : α) (view : α → List UInt8) (a : α) : List UInt8 :=
  if a = common then [2] else frame (view a)

private theorem frame_head_ne (data rest other : List UInt8) : frame data ++ rest ≠ 2 :: other := by
  cases data <;> simp [frame]

theorem delimits_short [DecidableEq α] (common : α) {view : α → List UInt8}
    (injective : Function.Injective view) : Delimits (short common view) := by
  intro a b rest other same
  unfold short at same
  split_ifs at same with first second
  · exact ⟨first.trans second.symm,by simpa using same⟩
  · exact absurd same.symm (frame_head_ne _ _ _)
  · exact absurd same (frame_head_ne _ _ _)
  · obtain ⟨views,rests⟩ := delimits_frame _ _ _ _ same
    exact ⟨injective views,rests⟩

def number (n : Nat) : List UInt8 := frame ((Nat.digits 128 n).map UInt8.ofNat)

private theorem digits_of_bytes (n : Nat) : ((Nat.digits 128 n).map UInt8.ofNat).map UInt8.toNat = Nat.digits 128 n := by
  rw [map_map]
  nth_rewrite 2 [← map_id (Nat.digits 128 n)]
  apply map_congr_left
  intro digit inside
  have small : digit < 128 := Nat.digits_lt_base (by decide) inside
  simp only [Function.comp_apply,UInt8.toNat_ofNat',id]
  omega

theorem delimits_number : Delimits number := by
  apply delimits_frame.comap
  intro m n same
  apply Nat.digits_inj_iff.mp
  rw [← digits_of_bytes m,← digits_of_bytes n]
  exact congrArg (List.map UInt8.toNat) same

theorem listed_injective [DecidableEq α] (known : List α) (injective : Function.Injective code) :
    Function.Injective (fun a => match known.findIdx? (fun other => other = a) with
      | some index => List.replicate (index + 1) 65
      | none => 0 :: code a) := by
  intro a b same
  simp only at same
  split at same
  · rename_i index found
    split at same
    · rename_i other present
      have indices : index = other := by simpa using congrArg List.length same
      subst indices
      obtain ⟨bound,first,_⟩ := List.findIdx?_eq_some_iff_getElem.mp found
      obtain ⟨_,second,_⟩ := List.findIdx?_eq_some_iff_getElem.mp present
      exact (by simpa using first : known[index] = a).symm.trans (by simpa using second)
    · simp [replicate_succ] at same
  · split at same
    · simp [replicate_succ] at same
    · exact injective (by simpa using same)

theorem split_at_mark {mark : α} {first second rest other : List α} (left : mark ∉ first) (right : mark ∉ second)
    (same : first ++ mark :: rest = second ++ mark :: other) : first = second ∧ rest = other := by
  induction first generalizing second with
  | nil =>
    cases second with
    | nil => exact ⟨rfl,by simpa using same⟩
    | cons c second => exact absurd (by simpa using (List.cons.inj same).1) (ne_of_not_mem_cons right)
  | cons c first ih =>
    cases second with
    | nil => exact absurd (List.cons.inj same).1.symm (ne_of_not_mem_cons left)
    | cons d second =>
      obtain ⟨heads,tails⟩ := List.cons.inj same
      obtain ⟨firsts,rests⟩ := ih (not_mem_of_not_mem_cons left) (not_mem_of_not_mem_cons right) tails
      exact ⟨by rw [heads,firsts],rests⟩

theorem terminated_injective {mark : α} {texts others : List (List α)} (left : ∀ text ∈ texts, mark ∉ text)
    (right : ∀ text ∈ others, mark ∉ text)
    (same : texts.flatMap (· ++ [mark]) = others.flatMap (· ++ [mark])) : texts = others := by
  induction texts generalizing others with
  | nil =>
    cases others with
    | nil => rfl
    | cons text others => simp at same
  | cons text texts ih =>
    cases others with
    | nil => simp at same
    | cons other others =>
      simp only [flatMap_cons,append_assoc,cons_append,nil_append] at same
      obtain ⟨heads,tails⟩ := split_at_mark (left text mem_cons_self) (right other mem_cons_self) same
      rw [heads,ih (fun t inside => left t (mem_cons_of_mem _ inside))
        (fun t inside => right t (mem_cons_of_mem _ inside)) tails]

end ChainRegistry.Lib.Codes
