import Mathlib.Algebra.Group.Nat.Defs
import Mathlib.Data.List.Basic
import Mathlib.Data.List.Induction
import Mathlib.Data.Nat.Log

/-! Hash trees over any type of labels. A path of siblings from a label to a root is the spine of a
tree with that root; against a given tree it leads only to labels inside, if a label can be read
back from the node above. -/
namespace ChainRegistry.Lib.Merkle
open List

variable {δ : Type*} (node : δ → δ → δ)

inductive HashTree (δ : Type*)
  | leaf (label : δ)
  | branch (left right : HashTree δ)

namespace HashTree
def label : HashTree δ → δ
  | leaf label => label
  | branch left right => node left.label right.label

def leaves : HashTree δ → List δ
  | leaf label => [label]
  | branch left right => left.leaves ++ right.leaves

def inner : HashTree δ → List δ
  | leaf _ => []
  | branch left right => node (left.label node) (right.label node) :: (left.inner ++ right.inner)

/-- What is hashed for the label: the labels of the two children of every node. -/
def pairs : HashTree δ → List (δ × δ)
  | leaf _ => []
  | branch left right => (left.label node,right.label node) :: (left.pairs ++ right.pairs)

def Uniform : HashTree δ → Nat → Prop
  | leaf _, depth => depth = 0
  | branch left right, depth => ∃ below, depth = below + 1 ∧ left.Uniform below ∧ right.Uniform below

variable {tree other : HashTree δ} {depth : Nat}

theorem leaves_length (uniform : tree.Uniform depth) : tree.leaves.length = 2 ^ depth := by
  induction tree generalizing depth with
  | leaf _ =>
    rw [show depth = 0 from uniform]
    rfl
  | branch left right leftIh rightIh =>
    obtain ⟨below,rfl,lower,upper⟩ := uniform
    rw [leaves,length_append,leftIh lower,rightIh upper,Nat.pow_succ,Nat.mul_two]

theorem bottom_length {trees : List (HashTree δ)} (uniform : ∀ tree ∈ trees, tree.Uniform depth) :
    (trees.flatMap leaves).length = trees.length * 2 ^ depth := by
  induction trees with
  | nil => simp
  | cons tree trees ih =>
    rw [flatMap_cons,length_append,ih fun tree among => uniform tree (mem_cons_of_mem _ among),
      leaves_length (uniform tree mem_cons_self),length_cons,Nat.succ_mul,Nat.add_comm]

end HashTree

structure Step (δ : Type*) where
  sibling : δ
  isRight : Bool

def climb (current : δ) (step : Step δ) : δ :=
  if step.isRight then node current step.sibling else node step.sibling current

variable (start : δ) (path : List (Step δ))

def walk : δ := path.foldl (climb node) start

theorem walk_snoc (step : Step δ) : walk node start (path ++ [step]) =
    if step.isRight then node (walk node start path) step.sibling else node step.sibling (walk node start path) := by
  rw [walk,foldl_append]
  rfl

/-- Of two labels below one node, one that is a digest is what stands in its place. -/
structure Readable (digest : δ → Prop) : Prop where
  nodes : ∀ left right, digest (node left right)
  left : ∀ a x l r, digest a → digest l → node a x = node l r → a = l
  right : ∀ a x l r, digest a → digest r → node x a = node l r → a = r

variable {node} {digest : δ → Prop} {tree : HashTree δ}

section
variable (readable : Readable node digest)
include readable

theorem Readable.walk {start : δ} (first : digest start) (path : List (Step δ)) : digest (walk node start path) := by
  induction path using List.reverseRecOn with
  | nil => exact first
  | append_singleton path step _ =>
    rw [walk_snoc]
    split_ifs
    · exact readable.nodes _ _
    · exact readable.nodes _ _

theorem Readable.label (bottom : ∀ leaf ∈ tree.leaves, digest leaf) : digest (tree.label node) := by
  cases tree with
  | leaf label => exact bottom label (mem_singleton.mpr rfl)
  | branch left right => exact readable.nodes _ _

theorem Readable.inside (bottom : ∀ leaf ∈ tree.leaves, digest leaf)
    (flat : ∀ leaf ∈ tree.leaves, ∀ a x, digest a → leaf ≠ node a x ∧ leaf ≠ node x a) {depth : Nat}
    (uniform : tree.Uniform depth) {start : δ} (first : digest start) {path : List (Step δ)}
    (reached : Merkle.walk node start path = tree.label node) :
    path.length = depth ∧ start ∈ tree.leaves ∨ path.length < depth ∧ start ∈ tree.inner node := by
  induction path using List.reverseRecOn generalizing tree depth with
  | nil =>
    have same : start = tree.label node := reached
    cases tree with
    | leaf label => exact .inl ⟨uniform.symm,mem_singleton.mpr same⟩
    | branch left right =>
      obtain ⟨below,rfl,_⟩ := uniform
      exact .inr ⟨Nat.succ_pos below,same ▸ mem_cons_self⟩
  | append_singleton path step ih =>
    have below := readable.walk first path
    rw [walk_snoc] at reached
    cases tree with
    | leaf label =>
      have shape := flat label (mem_singleton.mpr rfl) _ step.sibling below
      split_ifs at reached
      · exact absurd reached.symm shape.1
      · exact absurd reached.symm shape.2
    | branch left right =>
      -- the last step of the path and the root of the tree are one node
      obtain ⟨height,rfl,lower,upper⟩ := uniform
      have leftLeaves : ∀ leaf ∈ left.leaves, leaf ∈ (HashTree.branch left right).leaves :=
        fun leaf within => mem_append_left _ within
      have rightLeaves : ∀ leaf ∈ right.leaves, leaf ∈ (HashTree.branch left right).leaves :=
        fun leaf within => mem_append_right _ within
      rw [length_append,length_singleton,Nat.add_right_cancel_iff,Nat.add_lt_add_iff_right]
      split_ifs at reached
      · have child := readable.left _ _ _ _ below (readable.label fun leaf within => bottom leaf (leftLeaves leaf within)) reached
        refine (ih (fun leaf within => bottom leaf (leftLeaves leaf within))
          (fun leaf within => flat leaf (leftLeaves leaf within)) lower child).imp (And.imp_right (leftLeaves start))
            (And.imp_right ?_)
        exact fun within => mem_cons_of_mem _ (mem_append_left _ within)
      · have child := readable.right _ _ _ _ below (readable.label fun leaf within => bottom leaf (rightLeaves leaf within))
          reached
        refine (ih (fun leaf within => bottom leaf (rightLeaves leaf within))
          (fun leaf within => flat leaf (rightLeaves leaf within)) upper child).imp (And.imp_right (rightLeaves start))
            (And.imp_right ?_)
        exact fun within => mem_cons_of_mem _ (mem_append_right _ within)

theorem Readable.inner_node (bottom : ∀ leaf ∈ tree.leaves, digest leaf) {label : δ}
    (inside : label ∈ tree.inner node) : ∃ left right, digest left ∧ label = node left right := by
  induction tree with
  | leaf _ => cases inside
  | branch left right leftIh rightIh =>
    have leftBottom : ∀ leaf ∈ left.leaves, digest leaf := fun leaf within => bottom leaf (mem_append_left _ within)
    rcases mem_cons.mp inside with rfl | deeper
    · exact ⟨_,_,readable.label leftBottom,rfl⟩
    · rcases mem_append.mp deeper with first | second
      · exact leftIh leftBottom first
      · exact rightIh (fun leaf within => bottom leaf (mem_append_right _ within)) second

end

open HashTree

def pairUp : List (HashTree δ) → List (HashTree δ)
  | left :: right :: rest => .branch left right :: pairUp rest
  | [last] => [.branch last last]
  | [] => []

section
variable (trees : List (HashTree δ))
include trees

theorem pairUp_uniform {depth : Nat} (uniform : ∀ tree ∈ trees, tree.Uniform depth) :
    ∀ tree ∈ pairUp trees, tree.Uniform (depth + 1) := by
  fun_induction pairUp trees with
  | case1 left right rest ih =>
    intro tree inside
    rcases mem_cons.mp inside with rfl | later
    · exact ⟨depth,rfl,uniform left (by simp),uniform right (by simp)⟩
    · exact ih (fun tree among => uniform tree (by simp [among])) tree later
  | case2 last =>
    intro tree inside
    rw [mem_singleton.mp inside]
    exact ⟨depth,rfl,uniform last (by simp),uniform last (by simp)⟩
  | case3 =>
    intro tree inside
    cases inside

theorem pairUp_length : (pairUp trees).length = (trees.length + 1) / 2 := by
  fun_induction pairUp trees with
  | case1 left right rest ih =>
    simp only [length_cons,ih]
    omega
  | case2 last => simp
  | case3 => simp

theorem pairUp_bottom {depth : Nat} (uniform : ∀ tree ∈ trees, tree.Uniform depth) :
    (pairUp trees).flatMap leaves =
      if trees.length % 2 = 1 then
        trees.flatMap leaves ++ (trees.flatMap leaves).drop ((trees.flatMap leaves).length - 2 ^ depth)
      else trees.flatMap leaves := by
  fun_induction pairUp trees with
  | case1 left right rest ih =>
    have parity : (left :: right :: rest).length % 2 = rest.length % 2 := by
      simp only [length_cons]
      omega
    rw [parity,flatMap_cons,ih fun tree among => uniform tree (by simp [among])]
    split_ifs with odd
    · -- the last block of the rest is the last block of the whole
      have wide : 2 ^ depth ≤ (rest.flatMap leaves).length := by
        rw [bottom_length fun tree among => uniform tree (by simp [among])]
        exact Nat.le_mul_of_pos_left _ (by omega)
      have place : (left.leaves ++ (right.leaves ++ rest.flatMap leaves)).length - 2 ^ depth =
          (left.leaves ++ right.leaves).length + ((rest.flatMap leaves).length - 2 ^ depth) := by
        simp only [length_append]
        omega
      simp only [flatMap_cons,leaves]
      rw [place,← append_assoc left.leaves right.leaves,drop_length_add_append,append_assoc (left.leaves ++ right.leaves)]
    · simp only [flatMap_cons,leaves,append_assoc]
  | case2 last =>
    have block := leaves_length (uniform last (by simp))
    simp [leaves,block]
  | case3 => rfl

end

/-- A level hashed: neighbours are paired, an odd last one with itself. -/
def levelPairs : List δ → List (δ × δ)
  | left :: right :: rest => (left,right) :: levelPairs rest
  | [last] => [(last,last)]
  | [] => []

variable (node) in
/-- What the loop over the levels hashes. -/
def foldPairs : Nat → List δ → List (δ × δ)
  | fuel + 1, first :: second :: rest =>
    levelPairs (first :: second :: rest) ++
      foldPairs fuel ((levelPairs (first :: second :: rest)).map fun pair => node pair.1 pair.2)
  | _, _ => []

variable (node) in
theorem pairUp_label (trees : List (HashTree δ)) : (pairUp trees).map (label node) =
    (levelPairs (trees.map (label node))).map fun pair => node pair.1 pair.2 := by
  fun_induction pairUp trees with
  | case1 left right rest ih =>
    simp only [map_cons,levelPairs,ih]
    rfl
  | case2 last => rfl
  | case3 => rfl

theorem pairUp_pairs (trees : List (HashTree δ)) : ∀ tree ∈ pairUp trees, ∀ pair ∈ tree.pairs node,
    pair ∈ levelPairs (trees.map (label node)) ∨ ∃ child ∈ trees, pair ∈ child.pairs node := by
  fun_induction pairUp trees with
  | case1 left right rest ih =>
    intro tree inside pair hashed
    rcases mem_cons.mp inside with rfl | later
    · rcases mem_cons.mp hashed with rfl | below
      · exact .inl mem_cons_self
      · exact .inr ((mem_append.mp below).elim (fun own => ⟨left,by simp,own⟩) fun own => ⟨right,by simp,own⟩)
    · rcases ih tree later pair hashed with level | ⟨child,among,own⟩
      · exact .inl (mem_cons_of_mem _ level)
      · exact .inr ⟨child,by simp [among],own⟩
  | case2 last =>
    intro tree inside pair hashed
    rw [mem_singleton.mp inside] at hashed
    rcases mem_cons.mp hashed with rfl | below
    · exact .inl mem_cons_self
    · exact .inr ⟨last,by simp,(mem_append.mp below).elim id id⟩
  | case3 =>
    intro tree inside
    cases inside

/-- A list filled up to a power of two: for blocks of 1, 2, 4 and so on, the last block is
repeated where the number of blocks is odd. -/
def fillUp : Nat → Nat → List δ → List δ
  | 0, _, list => list
  | fuel + 1, size, list =>
    if list.length ≤ size then list
    else fillUp fuel (2 * size) (if list.length / size % 2 = 1 then list ++ list.drop (list.length - size) else list)

def filled (list : List δ) : List δ := fillUp list.length 1 list

theorem fillUp_subset (fuel size : Nat) (list : List δ) : fillUp fuel size list ⊆ list := by
  induction fuel generalizing size list with
  | zero => exact Subset.refl _
  | succ fuel ih =>
    rw [fillUp]
    split_ifs with short odd
    · exact Subset.refl _
    · exact List.Subset.trans (ih _ _) (append_subset.mpr ⟨Subset.refl _,drop_subset _ _⟩)
    · exact ih _ _

section
variable (fold : Nat → List δ → δ) (last : ∀ fuel label, fold fuel [label] = label)
  (level : ∀ fuel first second rest, fold (fuel + 1) (first :: second :: rest) =
    fold fuel ((levelPairs (first :: second :: rest)).map fun pair => node pair.1 pair.2))
include last level

theorem fold_tree (fuel depth : Nat) (trees : List (HashTree δ)) (some : trees ≠ []) (enough : trees.length ≤ fuel)
    (uniform : ∀ tree ∈ trees, tree.Uniform depth) :
    ∃ tree : HashTree δ, fold fuel (trees.map (label node)) = tree.label node ∧
      tree.Uniform (depth + Nat.clog 2 trees.length) ∧ tree.leaves = fillUp fuel (2 ^ depth) (trees.flatMap leaves) ∧
      ∀ pair ∈ tree.pairs node, pair ∈ foldPairs node fuel (trees.map (label node)) ∨
        ∃ child ∈ trees, pair ∈ child.pairs node := by
  induction fuel generalizing trees depth with
  | zero => exact absurd (length_eq_zero_iff.mp (Nat.le_zero.mp enough)) some
  | succ fuel ih =>
    have whole := bottom_length uniform
    match trees with
    | [only] =>
      refine ⟨only,last _ _,uniform only mem_cons_self,?_,fun pair hashed => .inr ⟨only,mem_cons_self,hashed⟩⟩
      rw [fillUp,if_pos (by rw [whole,length_singleton,Nat.one_mul])]
      simp
    | left :: right :: rest =>
      have halved := pairUp_length (left :: right :: rest)
      simp only [length_cons] at halved enough
      obtain ⟨tree,root,even,bottom,hashes⟩ := ih (depth + 1) (pairUp (left :: right :: rest)) (by simp [pairUp]) (by omega)
        (pairUp_uniform _ uniform)
      rw [pairUp_label] at root hashes
      have several : ¬((left :: right :: rest).flatMap leaves).length ≤ 2 ^ depth := by
        rw [whole,length_cons,length_cons,Nat.not_le]
        exact Nat.lt_mul_iff_one_lt_left (Nat.two_pow_pos depth) |>.mpr (by omega)
      have blocks : ((left :: right :: rest).flatMap leaves).length / 2 ^ depth = (left :: right :: rest).length := by
        rw [whole,Nat.mul_div_cancel _ (Nat.two_pow_pos depth)]
      refine ⟨tree,(level _ _ _ _).trans root,?_,?_,?_⟩
      · rw [halved] at even
        rw [Nat.clog_of_two_le (by omega) (by simp),length_cons,length_cons]
        rwa [Nat.add_comm (Nat.clog _ _),← Nat.add_assoc]
      · rw [bottom,pairUp_bottom _ uniform,fillUp,if_neg several,blocks,Nat.pow_succ']
      · intro pair hashed
        rcases hashes pair hashed with above | ⟨child,among,own⟩
        · exact .inl (mem_append_right _ above)
        · exact (pairUp_pairs _ child among pair own).imp_left (mem_append_left _)

/-- A loop that hashes a list level by level computes the label of a tree over the list filled up. -/
theorem list_tree (list : List δ) (some : list ≠ []) : ∃ tree : HashTree δ, fold list.length list = tree.label node ∧
    tree.Uniform (Nat.clog 2 list.length) ∧ tree.leaves = filled list ∧
    ∀ pair ∈ tree.pairs node, pair ∈ foldPairs node list.length list := by
  obtain ⟨tree,root,uniform,bottom,hashes⟩ := fold_tree fold last level list.length 0 (list.map leaf) (by simpa using some)
    (by simp) (by simp [Uniform])
  rw [map_map,show label node ∘ leaf = id from rfl,map_id] at root hashes
  refine ⟨tree,root,by simpa using uniform,?_,fun pair hashed => (hashes pair hashed).resolve_right ?_⟩
  · rw [bottom,filled,flatMap_map]
    simp [leaves,flatMap_singleton']
  · rintro ⟨child,among,own⟩
    obtain ⟨label,_,rfl⟩ := mem_map.mp among
    cases own

end

end ChainRegistry.Lib.Merkle
