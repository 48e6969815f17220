import Mathlib.Data.List.Basic
import Mathlib.Data.Option.Basic

/-! Chains of blocks as a map from heights. A chain is full up to its tip, every block
stands at its own height and names the key of the one below. -/
namespace ChainRegistry.Lib.LinkedChain
open List

variable {β κ : Type*} (height : β → Nat) (key parent : β → κ)

structure Chain (view : Nat → Option β) (tip : Nat) : Prop where
  present : ∀ h, (view h).isSome ↔ h ≤ tip
  heights : ∀ h b, view h = some b → height b = h
  linked : ∀ h b c, view h = some b → view (h + 1) = some c → parent c = key b

structure Fits (view : Nat → Option β) (tip : Nat) (b : β) : Prop where
  near : height b ≤ tip + 1
  above : ∀ h a, h + 1 = height b → view h = some a → parent b = key a
  below : ∀ c, view (height b + 1) = some c → parent c = key b

def put (view : Nat → Option β) (b : β) : Nat → Option β := Function.update view (height b) (some b)

def cut (view : Nat → Option β) (h : Nat) : Nat → Option β := fun k => if k ≤ h then view k else none

def Follows : Nat → κ → List β → Prop
  | _, _, [] => True
  | h, hash, b :: bs => height b = h + 1 ∧ parent b = hash ∧ Follows (h + 1) (key b) bs

variable {height key parent} {view : Nat → Option β} {tip h : Nat} {bs : List β} {b : β}

theorem put_apply (view : Nat → Option β) (b : β) (h : Nat) : put height view b h = if h = height b then some b else view h :=
  Function.update_apply view (height b) (some b) h

theorem Chain.put (chain : Chain height key parent view tip) (fits : Fits height key parent view tip b) :
    Chain height key parent (put height view b) (max tip (height b)) := by
  have near := fits.near
  refine ⟨?_,?_,?_⟩
  · intro h
    rw [put_apply]
    split_ifs with same
    · rw [same]
      exact ⟨fun _ => Nat.le_max_right tip _,fun _ => rfl⟩
    · rw [chain.present]
      omega
  · intro h c found
    rw [put_apply] at found
    split_ifs at found with same
    · cases found
      exact same.symm
    · exact chain.heights h c found
  · intro h a c lower upper
    rw [put_apply] at lower upper
    split_ifs at lower with isLower
    · cases lower
      rw [if_neg (by omega),isLower] at upper
      exact fits.below c upper
    · split_ifs at upper with isUpper
      · cases upper
        exact fits.above h a isUpper lower
      · exact chain.linked h a c lower upper

theorem Chain.cut (chain : Chain height key parent view tip) (inside : h ≤ tip) : Chain height key parent (cut view h) h := by
  refine ⟨?_,?_,?_⟩
  · intro k
    simp only [LinkedChain.cut]
    split_ifs with low
    · simp only [chain.present,low,iff_true]
      omega
    · simp [low]
  · intro k b found
    simp only [LinkedChain.cut] at found
    split_ifs at found
    exact chain.heights k b found
  · intro k b c lower upper
    simp only [LinkedChain.cut] at lower upper
    split_ifs at lower
    split_ifs at upper
    exact chain.linked k b c lower upper

instance [DecidableEq κ] (view : Nat → Option β) (tip : Nat) (b : β) : Decidable (Fits height key parent view tip b) :=
  decidable_of_iff (height b ≤ tip + 1 ∧ (∀ h < height b, h + 1 = height b → ∀ a ∈ view h, parent b = key a) ∧
    ∀ c ∈ view (height b + 1), parent c = key b)
    ⟨fun ⟨near,above,below⟩ => ⟨near,fun h a place found => above h (by omega) place a found,below⟩,
      fun fits => ⟨fits.near,fun h _ place a found => fits.above h a place found,fits.below⟩⟩

theorem Chain.fits_next (chain : Chain height key parent view tip) {a b : β} (top : view tip = some a)
    (next : height b = tip + 1) (link : parent b = key a) : Fits height key parent view tip b := by
  refine ⟨by omega,?_,?_⟩
  · intro h lower place found
    have same : h = tip := by omega
    rw [same,top,Option.some.injEq] at found
    rw [link,found]
  · intro c found
    have stored := (chain.present (height b + 1)).mp (by rw [found]; rfl)
    omega

def lastKey (key : β → κ) (hash : κ) (bs : List β) : κ := (bs.getLast?.map key).getD hash

variable {hash : κ}

theorem follows_snoc (follows : Follows height key parent h hash bs) (next : height b = h + bs.length + 1)
    (link : parent b = lastKey key hash bs) : Follows height key parent h hash (bs ++ [b]) := by
  induction bs generalizing h hash with
  | nil => exact ⟨next,link,trivial⟩
  | cons a bs ih =>
    obtain ⟨place,parent,rest⟩ := follows
    refine ⟨place,parent,ih rest ?_ ?_⟩
    · rw [next,length_cons]
      omega
    · rw [link,lastKey,lastKey,List.getLast?_cons]
      cases bs.getLast? <;> rfl

theorem follows_above (follows : Follows height key parent h hash bs) {b : β} (inside : b ∈ bs) : h < height b := by
  induction bs generalizing h hash with
  | nil => cases inside
  | cons a bs ih =>
    obtain ⟨place,_,rest⟩ := follows
    obtain here | later := mem_cons.mp inside
    · subst here
      omega
    · have higher := ih rest later
      omega

theorem foldl_put (follows : Follows height key parent h hash bs) (place : Nat) : bs.foldl (put height) view place =
    if h < place ∧ place ≤ h + bs.length then bs[place - h - 1]? else view place := by
  induction bs generalizing view h hash with
  | nil =>
    rw [if_neg (by simp only [length_nil]; omega)]
    rfl
  | cons b bs ih =>
    obtain ⟨first,_,rest⟩ := follows
    rw [foldl_cons,ih rest,put_apply,first]
    by_cases top : place = h + 1
    · subst top
      rw [if_neg (by omega),if_pos rfl,if_pos (by simp)]
      simp
    · rw [if_neg top]
      by_cases above : h + 1 < place ∧ place ≤ h + 1 + bs.length
      · have next : place - h - 1 = (place - (h + 1) - 1) + 1 := by omega
        rw [if_pos above,if_pos (by simp; omega),next,List.getElem?_cons_succ]
      · rw [if_neg above,if_neg (by simp; omega)]

end ChainRegistry.Lib.LinkedChain
