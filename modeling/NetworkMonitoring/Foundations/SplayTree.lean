import Mathlib.Data.List.Pairwise
import Mathlib.Data.Tree.Basic
import Mathlib.Data.Int.Order.Basic
import Mathlib.Order.Basic
import Mathlib.Tactic.SplitIfs

/-!
# Top-down splay trees

The operations of a splay tree with the element asked for given by its comparison `c` with the
elements of the tree: negative where the element asked for comes first, 0 where it is equal.

Splaying goes down from the root and takes the tree apart: what comes before the element asked for
is hung on the right of a left spine, what comes after it on the left of a right spine, and both
spines become the subtrees of the node it ends at.

* `inorder_splay`: splaying keeps the traversal, for every comparison;
* `splay_spec`: with a comparison that cuts the traversal (`Cuts`), the elements on the left of the
  new root come before the element asked for, and those on its right after it;
* `find_some`, `find_none`, `inorder_insert` and `inorder_remove`: searching, inserting and
  removing, by the traversal.
-/

namespace SplayTree

universe u

variable {α : Type u}

open BinaryTree

/-- The elements from left to right. -/
def inorder : BinaryTree α → List α
  | .nil => []
  | .node x l r => inorder l ++ x :: inorder r

/-- Hang a tree on the right of a left spine. The last node of the spine comes first. -/
def hangRight (t : BinaryTree α) : List (BinaryTree α × α) → BinaryTree α
  | [] => t
  | (l, x) :: ls => hangRight (.node x l t) ls

/-- Hang a tree on the left of a right spine. -/
def hangLeft (t : BinaryTree α) : List (α × BinaryTree α) → BinaryTree α
  | [] => t
  | (x, r) :: rs => hangLeft (.node x t r) rs

/-- The elements of a left spine. -/
def leftElems (ls : List (BinaryTree α × α)) : List α :=
  ls.reverse.flatMap fun p => inorder p.1 ++ [p.2]

/-- The elements of a right spine. -/
def rightElems (rs : List (α × BinaryTree α)) : List α :=
  rs.flatMap fun p => p.1 :: inorder p.2

/-- The end of splaying: both spines become subtrees of the last root. -/
def assemble (ls : List (BinaryTree α × α)) (rs : List (α × BinaryTree α)) (x : α)
    (l r : BinaryTree α) : BinaryTree α :=
  .node x (hangRight l ls) (hangLeft r rs)

/-- The loop of splaying. Two steps in one direction rotate the root. -/
def splayLoop (c : α → ℤ) (ls : List (BinaryTree α × α)) (rs : List (α × BinaryTree α)) :
    BinaryTree α → BinaryTree α
  | .nil => .nil
  | .node x l r =>
    if c x < 0 then
      match l with
      | .nil => assemble ls rs x .nil r
      | .node y ll lr =>
        -- two steps to the left: rotate, and link the new root to the right tree
        if c y < 0 then
          match ll with
          | .nil => assemble ls rs y .nil (.node x lr r)
          | .node z a b => splayLoop c ls ((y, .node x lr r) :: rs) (.node z a b)
        -- one step: the root goes into the right tree
        else splayLoop c ls ((x, r) :: rs) (.node y ll lr)
    else if 0 < c x then
      match r with
      | .nil => assemble ls rs x l .nil
      | .node y rl rr =>
        if 0 < c y then
          match rr with
          | .nil => assemble ls rs y (.node x l rl) .nil
          | .node z a b => splayLoop c ((.node x l rl, y) :: ls) rs (.node z a b)
        else splayLoop c ((l, x) :: ls) rs (.node y rl rr)
    else assemble ls rs x l r

/-- Move the element asked for, or one next to it, to the root. -/
def splay (c : α → ℤ) (t : BinaryTree α) : BinaryTree α := splayLoop c [] [] t

/-! ## The traversal -/

/-- The empty tree has no elements. -/
@[simp]
theorem inorder_nil : inorder (.nil : BinaryTree α) = [] := rfl

/-- The elements of a node stand between those of its subtrees. -/
@[simp]
theorem inorder_node (x : α) (l r : BinaryTree α) :
    inorder (.node x l r) = inorder l ++ x :: inorder r := rfl

/-- A tree without elements is empty. -/
theorem eq_nil_of_inorder {t : BinaryTree α} (h : inorder t = []) : t = .nil := by
  cases t with
  | nil => rfl
  | node x l r => simp at h

/-- Nothing has been cut off to the left. -/
@[simp]
theorem leftElems_nil : leftElems ([] : List (BinaryTree α × α)) = [] := rfl

/-- The elements that have been cut off to the left. -/
@[simp]
theorem leftElems_cons (l : BinaryTree α) (x : α) (ls : List (BinaryTree α × α)) :
    leftElems ((l, x) :: ls) = leftElems ls ++ (inorder l ++ [x]) := by
  rw [leftElems, List.reverse_cons, List.flatMap_append, List.flatMap_singleton, leftElems]

/-- Nothing has been cut off to the right. -/
@[simp]
theorem rightElems_nil : rightElems ([] : List (α × BinaryTree α)) = [] := rfl

/-- The elements that have been cut off to the right. -/
@[simp]
theorem rightElems_cons (x : α) (r : BinaryTree α) (rs : List (α × BinaryTree α)) :
    rightElems ((x, r) :: rs) = x :: (inorder r ++ rightElems rs) := rfl

/-- The left trees are put back in front. -/
@[simp]
theorem inorder_hangRight (t : BinaryTree α) (ls : List (BinaryTree α × α)) :
    inorder (hangRight t ls) = leftElems ls ++ inorder t := by
  induction ls generalizing t with
  | nil => rfl
  | cons p ls ih =>
    obtain ⟨l, x⟩ := p
    rw [hangRight, ih, inorder_node, leftElems_cons, List.append_assoc, List.append_assoc,
      List.singleton_append]

/-- The right trees are put back behind. -/
@[simp]
theorem inorder_hangLeft (t : BinaryTree α) (rs : List (α × BinaryTree α)) :
    inorder (hangLeft t rs) = inorder t ++ rightElems rs := by
  induction rs generalizing t with
  | nil => exact (List.append_nil _).symm
  | cons p rs ih =>
    obtain ⟨x, r⟩ := p
    rw [hangLeft, ih, inorder_node, rightElems_cons, List.append_assoc, List.cons_append]

/-- The elements of the tree that is put together. -/
theorem inorder_assemble (ls : List (BinaryTree α × α)) (rs : List (α × BinaryTree α)) (x : α)
    (l r : BinaryTree α) :
    inorder (assemble ls rs x l r) =
      leftElems ls ++ (inorder (.node x l r) ++ rightElems rs) := by
  simp only [assemble, inorder_node, inorder_hangRight, inorder_hangLeft, List.append_assoc,
    List.cons_append]

/-- A node is not the empty tree. -/
theorem node_ne_nil (x : α) (l r : BinaryTree α) : BinaryTree.node x l r ≠ .nil := by
  rintro ⟨⟩

/-- The loop moves elements between the tree and the spines only. -/
theorem inorder_splayLoop (c : α → ℤ) (ls : List (BinaryTree α × α))
    (rs : List (α × BinaryTree α)) {t : BinaryTree α} (ht : t ≠ .nil) :
    inorder (splayLoop c ls rs t) = leftElems ls ++ (inorder t ++ rightElems rs) := by
  fun_induction splayLoop c ls rs t with
  | case1 => exact absurd rfl ht
  | case2 | case3 | case6 | case7 | case10 => simp [inorder_assemble]
  | case4 ls rs x r hx y lr hy z a b ih =>
    rw [ih (node_ne_nil z a b)]
    simp
  | case5 ls rs x r hx y ll lr hy ih =>
    rw [ih (node_ne_nil y ll lr)]
    simp
  | case8 ls rs x l hx hx' y rl hy z a b ih =>
    rw [ih (node_ne_nil z a b)]
    simp
  | case9 ls rs x l hx hx' y rl rr hy ih =>
    rw [ih (node_ne_nil y rl rr)]
    simp

/-- Splaying keeps the traversal. -/
@[simp]
theorem inorder_splay (c : α → ℤ) (t : BinaryTree α) : inorder (splay c t) = inorder t := by
  cases t with
  | nil => rfl
  | node x l r =>
    rw [splay, inorder_splayLoop c [] [] (node_ne_nil x l r), leftElems_nil, rightElems_nil,
      List.append_nil, List.nil_append]

/-! ## The new root -/

/-- The comparison cuts a list: what follows an element that does not come before the element asked
for comes after it. -/
def Cuts (c : α → ℤ) (xs : List α) : Prop := xs.Pairwise fun x y => c x ≤ 0 → c y < 0

/-- What is behind an element that is not before the cut is behind it. -/
theorem Cuts.after {c : α → ℤ} {xs ys : List α} {x : α} (h : Cuts c (xs ++ x :: ys))
    (hx : c x ≤ 0) : ∀ y ∈ ys, c y < 0 := by
  obtain ⟨-, hrest, -⟩ := List.pairwise_append.mp h
  exact fun y hy => (List.pairwise_cons.mp hrest).1 y hy hx

/-- What is before an element that is not behind the cut is before it. -/
theorem Cuts.before {c : α → ℤ} {xs ys : List α} {x : α} (h : Cuts c (xs ++ x :: ys))
    (hx : 0 ≤ c x) : ∀ y ∈ xs, 0 < c y := by
  obtain ⟨-, -, hcross⟩ := List.pairwise_append.mp h
  intro y hy
  by_contra hle
  exact absurd (hcross y hy x List.mem_cons_self (Int.not_lt.mp hle)) (Int.not_lt.mpr hx)

/-- The cut of a first part. -/
theorem Cuts.left {c : α → ℤ} {xs ys : List α} {x : α} (h : Cuts c (xs ++ x :: ys)) :
    Cuts c xs := (List.pairwise_append.mp h).1

/-- The cut of a last part. -/
theorem Cuts.right {c : α → ℤ} {xs ys : List α} {x : α} (h : Cuts c (xs ++ x :: ys)) :
    Cuts c ys := (List.pairwise_cons.mp (List.pairwise_append.mp h).2.1).2

/-- The element asked for belongs at the root of a tree. -/
def AtRoot (c : α → ℤ) : BinaryTree α → Prop
  | .nil => False
  | .node _ l r => (∀ y ∈ inorder l, 0 < c y) ∧ ∀ y ∈ inorder r, c y < 0

/-- The root is next to the cut when the trees that were cut off lie on their sides of it. -/
theorem atRoot_assemble {c : α → ℤ} {ls : List (BinaryTree α × α)} {rs : List (α × BinaryTree α)}
    (hls : ∀ y ∈ leftElems ls, 0 < c y) (hrs : ∀ y ∈ rightElems rs, c y < 0) {x : α}
    {l r : BinaryTree α} (hl : ∀ y ∈ inorder l, 0 < c y) (hr : ∀ y ∈ inorder r, c y < 0) :
    AtRoot c (assemble ls rs x l r) := by
  constructor
  · intro y hy
    rw [inorder_hangRight] at hy
    exact (List.mem_append.mp hy).elim (hls y) (hl y)
  · intro y hy
    rw [inorder_hangLeft] at hy
    exact (List.mem_append.mp hy).elim (hr y) (hrs y)

/-- The spines hold what comes before the element asked for and what comes after it. -/
theorem atRoot_splayLoop {c : α → ℤ} {ls : List (BinaryTree α × α)} {rs : List (α × BinaryTree α)}
    {t : BinaryTree α} (ht : t ≠ .nil) (hcut : Cuts c (inorder t))
    (hls : ∀ y ∈ leftElems ls, 0 < c y) (hrs : ∀ y ∈ rightElems rs, c y < 0) :
    AtRoot c (splayLoop c ls rs t) := by
  have hnone {p : α → Prop} : ∀ y ∈ inorder (.nil : BinaryTree α), p y :=
    fun y hy => absurd hy List.not_mem_nil
  fun_induction splayLoop c ls rs t with
  | case1 => exact absurd rfl ht
  -- on the left: the element is at the root, or there is nothing further left
  | case2 ls rs x r hx => exact atRoot_assemble hls hrs hnone (hcut.after hx.le)
  | case3 ls rs x r hx y lr hy =>
    have hy' := @Cuts.after _ _ [] _ _ hcut.left hy.le
    refine atRoot_assemble hls hrs hnone fun z hz => ?_
    rw [inorder_node, List.mem_append, List.mem_cons] at hz
    rcases hz with hz | rfl | hz
    · exact hy' z hz
    · exact hx
    · exact hcut.after hx.le z hz
  | case4 ls rs x r hx y lr hy z a b ih =>
    -- zig-zig: a rotation, and both elements go to the right spine
    refine ih (node_ne_nil z a b) hcut.left.left hls fun w hw => ?_
    rw [rightElems_cons, inorder_node, List.mem_cons, List.mem_append, List.mem_append,
      List.mem_cons] at hw
    rcases hw with rfl | (hw | rfl | hw) | hw
    · exact hy
    · exact hcut.left.after hy.le w hw
    · exact hx
    · exact hcut.after hx.le w hw
    · exact hrs w hw
  | case5 ls rs x r hx y ll lr hy ih =>
    -- zig: the root goes to the right spine
    refine ih (node_ne_nil y ll lr) hcut.left hls fun w hw => ?_
    rw [rightElems_cons, List.mem_cons, List.mem_append] at hw
    rcases hw with rfl | hw | hw
    · exact hx
    · exact hcut.after hx.le w hw
    · exact hrs w hw
  -- the same on the right
  | case6 ls rs x l hx hx' => exact atRoot_assemble hls hrs (hcut.before hx'.le) hnone
  | case7 ls rs x l hx hx' y rl hy =>
    have hy' := @Cuts.before _ _ _ [] _ hcut.right hy.le
    refine atRoot_assemble hls hrs (fun z hz => ?_) hnone
    rw [inorder_node, List.mem_append, List.mem_cons] at hz
    rcases hz with hz | rfl | hz
    · exact hcut.before hx'.le z hz
    · exact hx'
    · exact hy' z hz
  | case8 ls rs x l hx hx' y rl hy z a b ih =>
    refine ih (node_ne_nil z a b) hcut.right.right (fun w hw => ?_) hrs
    rw [leftElems_cons, inorder_node, List.mem_append, List.mem_append, List.mem_append,
      List.mem_cons, List.mem_singleton] at hw
    rcases hw with hw | (hw | rfl | hw) | rfl
    · exact hls w hw
    · exact hcut.before hx'.le w hw
    · exact hx'
    · exact hcut.right.before hy.le w hw
    · exact hy
  | case9 ls rs x l hx hx' y rl rr hy ih =>
    refine ih (node_ne_nil y rl rr) hcut.right (fun w hw => ?_) hrs
    rw [leftElems_cons, List.mem_append, List.mem_append, List.mem_singleton] at hw
    rcases hw with hw | hw | rfl
    · exact hls w hw
    · exact hcut.before hx'.le w hw
    · exact hx'
  | case10 ls rs x l r hx hx' =>
    exact atRoot_assemble hls hrs (hcut.before (Int.not_lt.mp hx)) (hcut.after (Int.not_lt.mp hx'))

/-- Splaying brings the element asked for to the root, or one next to where it would be. -/
theorem splay_spec {c : α → ℤ} {t : BinaryTree α} (ht : t ≠ .nil) (hcut : Cuts c (inorder t)) :
    ∃ x l r, splay c t = .node x l r ∧ inorder t = inorder l ++ x :: inorder r ∧
      (∀ y ∈ inorder l, 0 < c y) ∧ ∀ y ∈ inorder r, c y < 0 := by
  have hroot : AtRoot c (splay c t) := atRoot_splayLoop ht hcut
    (fun y hy => absurd hy List.not_mem_nil) fun y hy => absurd hy List.not_mem_nil
  have htrav := inorder_splay c t
  cases hsplay : splay c t with
  | nil =>
    rw [hsplay] at hroot
    exact hroot.elim
  | node x l r =>
    rw [hsplay] at hroot htrav
    exact ⟨x, l, r, rfl, htrav.symm, hroot⟩

/-! ## Searching, inserting and removing -/

/-- Search for an element. The tree is splayed. -/
def find (c : α → ℤ) (t : BinaryTree α) : BinaryTree α × Option α :=
  match splay c t with
  | .nil => (.nil, none)
  | .node x l r => (.node x l r, if c x = 0 then some x else none)

/-- Insert `e`, unless an equal element is there. -/
def insert (c : α → ℤ) (e : α) (t : BinaryTree α) : BinaryTree α :=
  match splay c t with
  | .nil => .node e .nil .nil
  | .node x l r =>
    if c x < 0 then .node e l (.node x .nil r)
    else if 0 < c x then .node e (.node x l .nil) r
    else .node x l r

/-- Remove the element that is equal. What comes before it is splayed once more, so that its last
element can take the rest on its right. -/
def remove (c : α → ℤ) (t : BinaryTree α) : BinaryTree α :=
  match splay c t with
  | .nil => .nil
  | .node x l r =>
    if c x = 0 then
      match splay c l with
      | .nil => r
      | .node y ll _ => .node y ll r
    else .node x l r

variable {c : α → ℤ} {t : BinaryTree α}

/-- A search changes the shape of the tree alone. -/
@[simp]
theorem inorder_find : inorder (find c t).1 = inorder t := by
  rw [← inorder_splay c t, find]
  cases splay c t <;> rfl

/-- What is found is equal to the element asked for. -/
theorem find_some {x : α} (h : (find c t).2 = some x) : x ∈ inorder t ∧ c x = 0 := by
  rw [find] at h
  have htrav := inorder_splay c t
  cases hsplay : splay c t with
  | nil =>
    rw [hsplay] at h
    cases h
  | node y l r =>
    rw [hsplay] at h htrav
    dsimp only at h
    split_ifs at h with hy
    obtain rfl := Option.some.inj h
    rw [← htrav]
    exact ⟨List.mem_append_right _ List.mem_cons_self, hy⟩

/-- An unsuccessful search means that no element is equal. -/
theorem find_none (hcut : Cuts c (inorder t)) (h : (find c t).2 = none) :
    ∀ y ∈ inorder t, c y ≠ 0 := by
  by_cases ht : t = .nil
  · subst ht
    exact fun y hy => absurd hy List.not_mem_nil
  · obtain ⟨x, l, r, hsplay, htrav, hl, hr⟩ := splay_spec ht hcut
    rw [find, hsplay] at h
    dsimp only at h
    split_ifs at h with hx
    intro y hy
    rw [htrav, List.mem_append, List.mem_cons] at hy
    rcases hy with hy | rfl | hy
    · exact (hl y hy).ne'
    · exact hx
    · exact (hr y hy).ne

/-- An element that is equal to none is put between those before it and those after it. -/
theorem inorder_insert (hcut : Cuts c (inorder t)) (hnew : ∀ y ∈ inorder t, c y ≠ 0) (e : α) :
    ∃ pre post, inorder t = pre ++ post ∧ inorder (insert c e t) = pre ++ e :: post ∧
      (∀ y ∈ pre, 0 < c y) ∧ ∀ y ∈ post, c y < 0 := by
  by_cases ht : t = .nil
  · subst ht
    exact ⟨[], [], rfl, rfl, fun y hy => absurd hy List.not_mem_nil,
      fun y hy => absurd hy List.not_mem_nil⟩
  · obtain ⟨x, l, r, hsplay, htrav, hl, hr⟩ := splay_spec ht hcut
    have hx : c x ≠ 0 := hnew x (by rw [htrav]; exact List.mem_append_right _ List.mem_cons_self)
    rw [insert, hsplay]
    dsimp only
    -- the new root takes one of the two halves, and the old one the other
    by_cases hlt : c x < 0
    · rw [if_pos hlt]
      refine ⟨inorder l, x :: inorder r, htrav, rfl, hl, fun y hy => ?_⟩
      rcases List.mem_cons.mp hy with rfl | hy
      · exact hlt
      · exact hr y hy
    · have hgt : 0 < c x := lt_of_le_of_ne (Int.not_lt.mp hlt) hx.symm
      rw [if_neg hlt, if_pos hgt]
      refine ⟨inorder l ++ [x], inorder r, ?_, rfl, fun y hy => ?_, hr⟩
      · rw [htrav, List.append_assoc, List.singleton_append]
      · rcases List.mem_append.mp hy with hy | hy
        · exact hl y hy
        · rw [List.mem_singleton.mp hy]
          exact hgt

/-- An element between those that are related to it and those it is related to. -/
theorem pairwise_middle {R : α → α → Prop} {pre post : List α} {e : α}
    (h : (pre ++ post).Pairwise R) (hpre : ∀ y ∈ pre, R y e) (hpost : ∀ y ∈ post, R e y) :
    (pre ++ e :: post).Pairwise R := by
  obtain ⟨hleft, hright, hcross⟩ := List.pairwise_append.mp h
  refine List.pairwise_append.mpr ⟨hleft, List.pairwise_cons.mpr ⟨hpost, hright⟩, ?_⟩
  intro y hy z hz
  rcases List.mem_cons.mp hz with rfl | hz
  · exact hpre y hy
  · exact hcross y hy z hz

/-- The equal element is taken out of the traversal. -/
theorem inorder_remove (hcut : Cuts c (inorder t)) {x : α} (hx : x ∈ inorder t) (hcx : c x = 0) :
    ∃ pre post, inorder t = pre ++ x :: post ∧ inorder (remove c t) = pre ++ post := by
  have ht : t ≠ .nil := by
    rintro rfl
    exact absurd hx List.not_mem_nil
  obtain ⟨y, l, r, hsplay, htrav, hl, hr⟩ := splay_spec ht hcut
  obtain rfl : x = y := by
    rw [htrav, List.mem_append, List.mem_cons] at hx
    rcases hx with hx | rfl | hx
    · exact absurd hcx (hl x hx).ne'
    · rfl
    · exact absurd hcx (hr x hx).ne
  refine ⟨inorder l, inorder r, htrav, ?_⟩
  rw [remove, hsplay]
  dsimp only
  rw [if_pos hcx]
  by_cases hnil : l = .nil
  · subst hnil
    rfl
  · rw [htrav] at hcut
    obtain ⟨y, ll, lr, hsplay', htrav', -, hlr⟩ := splay_spec hnil hcut.left
    -- nothing stands on the right of the last element
    have hempty : inorder lr = [] := by
      refine List.eq_nil_iff_forall_not_mem.mpr fun z hz => ?_
      have hmem : z ∈ inorder l := by
        rw [htrav']
        exact List.mem_append_right _ (List.mem_cons_of_mem y hz)
      exact absurd (hl z hmem) (Int.not_lt.mpr (hlr z hz).le)
    rw [hsplay']
    dsimp only
    rw [inorder_node, htrav', hempty, List.append_assoc, List.singleton_append]

end SplayTree
