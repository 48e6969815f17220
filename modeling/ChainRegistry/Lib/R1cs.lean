import Mathlib.Algebra.Group.Basic
import Mathlib.Algebra.Ring.Defs
import Mathlib.Data.List.Basic

/-! Rank-one constraint systems, built step by step: inputs and witnesses are allocated with values,
a product takes a witness of its own, and every step may add constraints. Which public inputs can be
satisfied does not depend on the values. -/
namespace ChainRegistry.Lib.R1cs
variable {F : Type*}

inductive Variable
  | input (i : Nat)
  | witness (i : Nat)

structure Combination (F : Type*) where
  terms : List (F × Variable)
  constant : F

structure Constraint (F : Type*) where
  (a b c : Combination F)

structure System (F : Type*) where
  (inputs witnesses : List F)
  constraints : List (Constraint F)

def System.empty : System F := ⟨[],[],[]⟩

section
variable [CommRing F]

def Variable.value (x w : List F) : Variable → F
  | .input i => x.getD i 0
  | .witness i => w.getD i 0

def Combination.value (x w : List F) (combination : Combination F) : F :=
  combination.terms.foldr (fun term sum => term.1 * term.2.value x w + sum) combination.constant

def Constraint.Holds (x w : List F) (constraint : Constraint F) : Prop :=
  constraint.a.value x w * constraint.b.value x w = constraint.c.value x w

def System.Satisfies (system : System F) (x w : List F) : Prop :=
  x.length = system.inputs.length ∧ w.length = system.witnesses.length ∧ ∀ constraint ∈ system.constraints, constraint.Holds x w

def System.Satisfiable (system : System F) (x : List F) : Prop := ∃ w, system.Satisfies x w

def single (v : Variable) : Combination F := ⟨[(1,v)],0⟩

def constant (c : F) : Combination F := ⟨[],c⟩

variable (x w : List F)

def newInput (value : F) (system : System F) : Variable × System F :=
  (.input system.inputs.length,{system with inputs := system.inputs ++ [value]})

def newWitness (value : F) (system : System F) : Variable × System F :=
  (.witness system.witnesses.length,{system with witnesses := system.witnesses ++ [value]})

def enforce (constraint : Constraint F) (system : System F) : System F :=
  {system with constraints := system.constraints ++ [constraint]}

def multiply (left right : Variable) (system : System F) : Variable × System F :=
  let (product,next) := newWitness (left.value system.inputs system.witnesses * right.value system.inputs system.witnesses) system
  (product,enforce ⟨single left,single right,single product⟩ next)

def enforceConstant (v : Variable) (c : F) (system : System F) : System F :=
  enforce ⟨⟨[(1,v)],-c⟩,constant 1,constant 0⟩ system

end
end ChainRegistry.Lib.R1cs
