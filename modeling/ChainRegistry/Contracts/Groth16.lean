import ChainRegistry.Contracts.ZkVerifier
import Mathlib.Algebra.Group.PUnit
import Mathlib.Algebra.Field.ZMod
import Mathlib.Data.Vector.Defs

/-! What the verifier computes, and what it answers, when the precompiles are those of EIP-196
and EIP-197. -/
namespace ChainRegistry
open Lib WordMemory
open List hiding Vector

namespace ZkVerifier
structure Bn254 (G₁ G₂ GT : Type*) [AddCommGroup G₁] [CommGroup GT] where
  point1 : Word × Word → Option G₁
  point2 : (x y : Word × Word) → Option G₂
  pairing : G₁ → G₂ → GT
  pairing_add : ∀ p q r, pairing (p + q) r = pairing p r * pairing q r
  inRange : ∀ x y p, point1 (x,y) = some p → y.toNat < bn254P
  negative : ∀ x y p, point1 (x,y) = some p →
    point1 (x,if y = 0 then 0 else BitVec.ofNat 256 (bn254P - y.toNat)) = some (-p)

section
variable {G₁ G₂ GT : Type*} [AddCommGroup G₁] [CommGroup GT] {curve : Bn254 G₁ G₂ GT} {pre : Precompiles} {vk : VerifyingKey}

theorem Bn254.pairing_zero (curve : Bn254 G₁ G₂ GT) (r : G₂) : curve.pairing 0 r = 1 := by
  have twice := curve.pairing_add 0 0 r
  rw [add_zero] at twice
  exact left_eq_mul.mp twice

theorem Bn254.pairing_neg (curve : Bn254 G₁ G₂ GT) (p : G₁) (r : G₂) : curve.pairing (-p) r = (curve.pairing p r)⁻¹ := by
  apply eq_inv_of_mul_eq_one_left
  rw [← curve.pairing_add,neg_add_cancel,curve.pairing_zero]

structure Pair (curve : Bn254 G₁ G₂ GT) where
  (left x y : Word × Word)
  p : G₁
  q : G₂
  decodes : curve.point1 left = some p
  decodes' : curve.point2 x y = some q

def Pair.words (pair : Pair curve) : List Word :=
  [pair.left.1,pair.left.2,pair.x.1,pair.x.2,pair.y.1,pair.y.2]

open Classical in
structure Precompiles.Lawful (pre : Precompiles) (curve : Bn254 G₁ G₂ GT) : Prop where
  add : ∀ x y x' y' p q, curve.point1 (x,y) = some p → curve.point1 (x',y') = some q →
    ∃ sum : Word × Word, pre.ecAdd [x,y,x',y'] = some [sum.1,sum.2] ∧ curve.point1 sum = some (p + q)
  mul : ∀ x y scalar p, curve.point1 (x,y) = some p →
    ∃ product : Word × Word, pre.ecMul [x,y,scalar] = some [product.1,product.2] ∧
      curve.point1 product = some (scalar.toNat • p)
  pairing : ∀ pairs : List (Pair curve), pre.ecPairing (pairs.flatMap Pair.words) =
    some [if (pairs.map fun pair => curve.pairing pair.p pair.q).prod = 1 then 1 else 0]

structure Points (curve : Bn254 G₁ G₂ GT) (vk : VerifyingKey) (proof : Vector Word 8) where
  a : G₁
  b : G₂
  (c alpha : G₁)
  (beta gamma delta : G₂)
  ic : List G₁
  isA : curve.point1 (proof.get 0,proof.get 1) = some a
  isB : curve.point2 (proof.get 2,proof.get 3) (proof.get 4,proof.get 5) = some b
  isC : curve.point1 (proof.get 6,proof.get 7) = some c
  isAlpha : curve.point1 vk.alpha1 = some alpha
  isBeta : curve.point2 vk.beta2X vk.beta2Y = some beta
  isGamma : curve.point2 vk.gamma2X vk.gamma2Y = some gamma
  isDelta : curve.point2 vk.delta2X vk.delta2Y = some delta
  areIc : List.Forall₂ (fun word point => curve.point1 word = some point) vk.ic ic

def weighted (publicInputs : List Word) (points : List G₁) : G₁ :=
  (List.zipWith (fun (input : Word) point => input.toNat • point) publicInputs points).sum

def Points.Equation {proof : Vector Word 8} (points : Points curve vk proof) (publicInputs : List Word) : Prop :=
  curve.pairing points.a points.b = curve.pairing points.alpha points.beta *
    curve.pairing (points.ic.headD 0 + weighted publicInputs points.ic.tail) points.gamma * curve.pairing points.c points.delta

variable {memory : Memory} {icPoint : Word × Word} {result i : Nat}

theorem staticcall_some {precompile : List Word → Option (List Word)} {input inputSize output outputSize : Nat}
    {asked answer : List Word} (reads : memory.read input inputSize = asked) (answers : precompile asked = some answer) :
    staticcall precompile input inputSize output outputSize memory = (true,memory.write output (answer.take outputSize)) := by
  rw [staticcall,reads,answers]

def Holds (curve : Bn254 G₁ G₂ GT) (memory : Memory) (place : Nat) (p : G₁) : Prop :=
  place + 2 ≤ memory.free ∧ ∃ x y, memory.read place 2 = [x,y] ∧ curve.point1 (x,y) = some p

theorem accumulate_cons {memory multiplied after : Memory} {input : Word}
    {summands : List Word} (here : vk.ic[i + 1]? = some icPoint)
    (multiplies : staticcall pre.ecMul memory.free 3 (memory.free + 3) 2
      ((memory.push [icPoint.1,icPoint.2,input]).2.push [0,0]).2 = (true,multiplied))
    (reads : multiplied.read result 2 ++ multiplied.read (memory.free + 3) 2 = summands)
    (adds : staticcall pre.ecAdd multiplied.free 4 result 2 (multiplied.push summands).2 = (true,after)) (rest : List Word) :
    accumulate pre vk result i (input :: rest) memory = accumulate pre vk result (i + 1) rest after := by
  rw [accumulate,here]
  simp only [fst_push,free_push,length_cons,length_nil,zero_add,Nat.reduceAdd,multiplies,reads,adds]
  rfl

section
variable (lawful : pre.Lawful curve)
include lawful

theorem accumulate_step {sum p : G₁}
    (holds : Holds curve memory result sum) (here : vk.ic[i + 1]? = some icPoint) (isPoint : curve.point1 icPoint = some p)
    (input : Word) :
    ∃ after, (∀ rest, accumulate pre vk result i (input :: rest) memory = accumulate pre vk result (i + 1) rest after) ∧
      Holds curve after result (sum + input.toNat • p) := by
  obtain ⟨inside,x,y,reads,isSum⟩ := holds
  obtain ⟨product,multiplies,isProduct⟩ := lawful.mul icPoint.1 icPoint.2 input p isPoint
  obtain ⟨next,adds,isNext⟩ := lawful.add x y product.1 product.2 sum _ isSum isProduct
  let first := (memory.push [icPoint.1,icPoint.2,input]).2
  let second := (first.push [0,0]).2
  have mulInput : second.read memory.free 3 = [icPoint.1,icPoint.2,input] := by
    have below : memory.free + 3 ≤ first.free := le_rfl
    rw [read_push_below first _ below]
    exact read_push memory _
  let third := second.write first.free [product.1,product.2]
  have kept : third.read result 2 = [x,y] := by
    have below : result + 2 ≤ first.free := by
      change result + 2 ≤ memory.free + 3
      omega
    rw [read_write_apart second (.inl below),read_push_below first _ below,read_push_below memory _ inside,reads]
  have mulResult : third.read first.free 2 = [product.1,product.2] := read_write second first.free _
  have summands : third.read result 2 ++ third.read first.free 2 = [x,y,product.1,product.2] := by
    rw [kept,mulResult]
    rfl
  let fourth := (third.push [x,y,product.1,product.2]).2
  have addInput : fourth.read third.free 4 = [x,y,product.1,product.2] := read_push third _
  refine ⟨fourth.write result [next.1,next.2],fun rest => ?_,?_,next.1,next.2,read_write fourth result _,isNext⟩
  · exact accumulate_cons here (staticcall_some mulInput multiplies) summands (staticcall_some addInput adds) rest
  · change result + 2 ≤ memory.free + 3 + 2 + 4
    omega

theorem accumulate_ok {result : Nat} (publicInputs : List Word) (i : Nat) (points : List G₁)
    (areIc : List.Forall₂ (fun word point => curve.point1 word = some point) (vk.ic.drop (i + 1)) points)
    (length : publicInputs.length = points.length) {sum : G₁} (holds : Holds curve memory result sum) :
    ∃ after, accumulate pre vk result i publicInputs memory = .ok after ∧
      Holds curve after result (sum + weighted publicInputs points) := by
  -- on the public inputs that are left; the result holds the sum so far
  induction publicInputs generalizing i points memory sum with
  | nil =>
    refine ⟨memory,rfl,?_⟩
    rw [weighted,zipWith_nil_left,sum_nil,add_zero]
    exact holds
  | cons input publicInputs ih =>
    cases points with
    | nil => cases length
    | cons point points =>
      obtain ⟨word,words,isPoint,others,left⟩ := forall₂_cons_right_iff.mp areIc
      have here : vk.ic[i + 1]? = some word := by
        have head := congrArg (fun list => list[0]?) left
        rwa [List.getElem?_drop] at head
      have rest : vk.ic.drop (i + 1 + 1) = words := by
        rw [← tail_drop,left,tail_cons]
      obtain ⟨after,step,next⟩ := accumulate_step lawful holds here isPoint input
      rw [← rest] at others
      obtain ⟨final,done,ends⟩ := ih (i + 1) points others (Nat.succ.inj length) next
      refine ⟨final,(step publicInputs).trans done,?_⟩
      rw [weighted,zipWith_cons_cons,sum_cons,← add_assoc]
      exact ends

theorem linearCombination_ok {publicInputs : List Word} {points : List G₁}
    (areIc : List.Forall₂ (fun word point => curve.point1 word = some point) vk.ic points)
    (length : publicInputs.length + 1 = vk.ic.length) :
    ∃ vkX memory, linearCombination pre vk publicInputs blank = .ok (vkX,memory) ∧
      Holds curve memory vkX (points.headD 0 + weighted publicInputs points.tail) := by
  cases points with
  | nil =>
    rw [forall₂_nil_right_iff.mp areIc] at length
    cases length
  | cons point points =>
    obtain ⟨word,words,isPoint,others,ic⟩ := forall₂_cons_right_iff.mp areIc
    have here : vk.ic[0]? = some word := by
      rw [ic]
      rfl
    have rest : vk.ic.drop (0 + 1) = words := by
      rw [ic]
      rfl
    have same : publicInputs.length = points.length := by
      rw [ic,length_cons,others.length_eq] at length
      exact Nat.succ.inj length
    let begun := (blank.push [word.1,word.2]).2
    have holds : Holds curve begun blank.free point := ⟨le_rfl,word.1,word.2,read_push blank _,isPoint⟩
    rw [← rest] at others
    obtain ⟨memory,done,ends⟩ := accumulate_ok lawful publicInputs 0 points others same holds
    refine ⟨blank.free,memory,?_,ends⟩
    rw [linearCombination,here]
    change (do
      let memory ← accumulate pre vk blank.free 0 publicInputs begun
      return (blank.free,memory)) = _
    rw [done]
    rfl

end

theorem negate_ok {x y : Word} {p : G₁} (isPoint : curve.point1 (x,y) = some p) :
    ∃ y', negate y = .ok y' ∧ curve.point1 (x,y') = some (-p) := by
  refine ⟨_,?_,curve.negative x y p isPoint⟩
  have small := curve.inRange x y p isPoint
  unfold negate
  split_ifs
  · rfl
  · rw [checkedSub,if_pos (Nat.le_of_lt small)]
    rfl

theorem product_eq_one_iff {proof : Vector Word 8} (points : Points curve vk proof) (publicInputs : List Word) (sum : G₁)
    (isSum : sum = points.ic.headD 0 + weighted publicInputs points.ic.tail) :
    curve.pairing (-points.a) points.b * (curve.pairing points.alpha points.beta *
      (curve.pairing sum points.gamma * (curve.pairing points.c points.delta * 1))) = 1 ↔ points.Equation publicInputs := by
  rw [isSum,curve.pairing_neg,mul_one,Points.Equation,inv_mul_eq_one,← mul_assoc]

open Classical in
theorem verify_ok (lawful : pre.Lawful curve) {proof : Vector Word 8} (points : Points curve vk proof) {publicInputs : List Word}
    (length : publicInputs.length + 1 = vk.ic.length) :
    ∃ memory, verify pre vk proof publicInputs = .ok (false,memory) ∧
      memory.cell 0 = if points.Equation publicInputs then 1 else 0 := by
  obtain ⟨vkX,memory,combined,_,x,y,reads,isSum⟩ := linearCombination_ok lawful points.areIc length
  obtain ⟨negAy,negated,isNegative⟩ := negate_ok points.isA
  change negate proof[1] = _ at negated
  let pairs : List (Pair curve) := [
    ⟨(proof[0],negAy),(proof[2],proof[3]),(proof[4],proof[5]),-points.a,points.b,isNegative,points.isB⟩,
    ⟨vk.alpha1,vk.beta2X,vk.beta2Y,points.alpha,points.beta,points.isAlpha,points.isBeta⟩,
    ⟨(x,y),vk.gamma2X,vk.gamma2Y,_,points.gamma,isSum,points.isGamma⟩,
    ⟨(proof[6],proof[7]),vk.delta2X,vk.delta2Y,points.c,points.delta,points.isC,points.isDelta⟩]
  let ready := (memory.push (pairs.flatMap Pair.words)).2
  have input : ready.read memory.free 24 = pairs.flatMap Pair.words := read_push memory _
  let answer : Word := if (pairs.map fun pair => curve.pairing pair.p pair.q).prod = 1 then 1 else 0
  have called : staticcall pre.ecPairing memory.free 24 0 1 ready = (true,ready.write 0 [answer]) :=
    staticcall_some input (lawful.pairing pairs)
  have checked : pairingCheck pre vk proof vkX memory = .ok (false,ready.write 0 [answer]) := by
    rw [pairingCheck,negated,reads]
    simp only [bind,Except.bind,fst_push]
    exact congrArg (fun result : Bool × Memory => Except.ok (result.1 && false,result.2)) called
  refine ⟨ready.write 0 [answer],?_,?_⟩
  · rw [verify,(require_ok _ _ ()).mpr length,combined]
    exact checked
  · change answer = _
    exact if_congr (product_eq_one_iff points publicInputs _ rfl) rfl rfl

/-- For valid points the function returns, and it returns true exactly for valid proofs only if
the proof is not valid: it always returns false. -/
theorem verifies_iff (lawful : pre.Lawful curve) {proof : Vector Word 8} (points : Points curve vk proof)
    {publicInputs : List Word} (length : publicInputs.length + 1 = vk.ic.length) :
    (∃ answer, verifyProof pre vk proof publicInputs = .ok answer) ∧
      ((verifyProof pre vk proof publicInputs = .ok true ↔ points.Equation publicInputs) ↔ ¬points.Equation publicInputs) := by
  obtain ⟨memory,done,_⟩ := verify_ok lawful points length
  have answered : verifyProof pre vk proof publicInputs = .ok false := by
    rw [verifyProof,done]
    rfl
  have never : (.ok false : Except Revert Bool) ≠ .ok true := nofun
  rw [answered]
  exact ⟨⟨false,rfl⟩,iff_false_left never⟩

end
end ZkVerifier

/-! A group of three points: the identity, the generator `(1,2)` of the curve and its negative. -/
namespace Cyclic
open ZkVerifier

def place (p : ZMod 3) : Word × Word :=
  if p = 0 then (0,0) else (1,if p = 1 then 2 else BitVec.ofNat 256 (bn254P - 2))

def point (words : Word × Word) : Option (ZMod 3) := [0,1,2].find? fun p => place p = words

theorem point_place (p : ZMod 3) : point (place p) = some p := by
  revert p
  decide +kernel

theorem place_of_point {words : Word × Word} {p : ZMod 3} (isPoint : point words = some p) : words = place p := by
  have found := find?_some isPoint
  exact (of_decide_eq_true found).symm

def curve : Bn254 (ZMod 3) Unit Unit where
  point1 := point
  point2 := fun x y => if x = (0,0) ∧ y = (0,0) then some 0 else none
  pairing := fun _ _ => 1
  pairing_add := fun _ _ _ => rfl
  inRange := by
    intro x y p isPoint
    have all : ∀ p, (place p).2.toNat < bn254P := by decide +kernel
    rw [(Prod.mk.inj (place_of_point isPoint)).2]
    exact all p
  negative := by
    intro x y p isPoint
    have all : ∀ p, point ((place p).1,if (place p).2 = 0 then 0 else BitVec.ofNat 256 (bn254P - (place p).2.toNat)) =
        some (-p) := by
      decide +kernel
    obtain ⟨rfl,rfl⟩ := Prod.mk.inj (place_of_point isPoint)
    exact all p

def words (p : ZMod 3) : List Word := [(place p).1,(place p).2]

def pre : Precompiles where
  ecAdd
    | [x,y,x',y'] => (point (x,y)).bind fun p => (point (x',y')).map fun q => words (p + q)
    | _ => none
  ecMul
    | [x,y,scalar] => (point (x,y)).map fun p => words (scalar.toNat • p)
    | _ => none
  ecPairing := fun _ => some [1]

theorem lawful : pre.Lawful curve where
  add := by
    intro x y x' y' p q isP isQ
    refine ⟨place (p + q),?_,point_place _⟩
    change (point _).bind _ = _
    rw [show point (x,y) = some p from isP,show point (x',y') = some q from isQ]
    rfl
  mul := by
    intro x y scalar p isP
    refine ⟨place (scalar.toNat • p),?_,point_place _⟩
    change (point _).map _ = _
    rw [show point (x,y) = some p from isP]
    rfl
  pairing := by
    intro pairs
    rw [if_pos (Subsingleton.elim _ _)]
    rfl

def vk : VerifyingKey := ⟨(1,2),(0,0),(0,0),(0,0),(0,0),(0,0),(0,0),[(1,2),(1,2)]⟩

def proof : Vector Word 8 := #v[1,2,0,0,0,0,1,2]

def points : Points curve vk proof where
  a := 1
  b := 0
  c := 1
  alpha := 1
  beta := 0
  gamma := 0
  delta := 0
  ic := [1,1]
  isA := point_place 1
  isB := rfl
  isC := point_place 1
  isAlpha := point_place 1
  isBeta := rfl
  isGamma := rfl
  isDelta := rfl
  areIc := .cons (point_place 1) (.cons (point_place 1) .nil)

theorem generator_refused : (verifyProof pre vk proof [5] = .ok true ↔ points.Equation [5]) ↔ ¬points.Equation [5] :=
  (verifies_iff lawful points rfl).2

theorem valid_and_refused : pre.Lawful curve ∧ points.Equation [5] ∧ verifyProof pre vk proof [5] = .ok false :=
  ⟨lawful,rfl,by decide +kernel⟩

end Cyclic
end ChainRegistry
