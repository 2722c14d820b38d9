import Mathlib.Data.Nat.Log
import Mathlib.Tactic.SplitIfs
import NetworkMonitoring.Foundations.OrderedSet

/-!
# Red-black trees with parent links

The operations of a red-black tree whose nodes know their parents. A node of the tree is a subtree
together with the way up to the root: a list of frames, the parent's first. Following a parent link
takes the first frame; `plug` gives the tree back.

Inserting and removing repair the colours from the node upwards. `none` stands for following a link
that is not there.

* `inorder_insert` and `inorder_remove`: on a sorted tree the operations are those of the ordered
  set, seen as the list of its elements;
* `find_eq` and `visits_eq`: a search finds what the ordered set has, and taking successors from the
  least element visits the elements in order;
* `exists_locate` and `Cursor.next_elm`: a node is found by the key of its element, and its
  successor holds the next element.

That no link is missing is shown with the colours, in the module about these.
-/

namespace RedBlackTree

universe u

inductive Color where
  | black | red
  deriving DecidableEq, Repr

inductive Side where
  | left | right
  deriving DecidableEq, Repr

inductive Tree (α : Type u) where
  | nil
  | node (color : Color) (left : Tree α) (elm : α) (right : Tree α)
  deriving DecidableEq, Repr

variable {α : Type u}

namespace Tree

/-- The elements from left to right. -/
def inorder : Tree α → List α
  | nil => []
  | node _ l x r => inorder l ++ x :: inorder r

/-- The number of nodes on the longest way down. -/
def height : Tree α → ℕ
  | nil => 0
  | node _ l _ r => max (height l) (height r) + 1

/-- A missing child counts as black. -/
def isRed : Tree α → Bool
  | node .red _ _ _ => true
  | _ => false

/-- Colour the root black. -/
def blacken : Tree α → Tree α
  | nil => nil
  | node _ l x r => node .black l x r

/-- Write to every element. -/
def map {β : Type u} (f : α → β) : Tree α → Tree β
  | nil => nil
  | node c l x r => node c (map f l) (f x) (map f r)

/-- A node whose child on the side `s` is `near`. -/
def build (s : Side) (c : Color) (near : Tree α) (x : α) (far : Tree α) : Tree α :=
  match s with
  | .left => node c near x far
  | .right => node c far x near

/-- The parts of a node: its colour, its child on the side `s`, its element and its other child. -/
def view (s : Side) : Tree α → Option (Color × Tree α × α × Tree α)
  | nil => none
  | node c l x r =>
    match s with
    | .left => some (c, l, x, r)
    | .right => some (c, r, x, l)

end Tree

open RedBlackTree.Tree

/-- The parent of a subtree: the side the subtree is on, and the rest of the parent. -/
structure Frame (α : Type u) where
  side : Side
  color : Color
  elm : α
  sibling : Tree α
  deriving DecidableEq, Repr

/-- The parent with the subtree `t`. -/
def Frame.attach (f : Frame α) (t : Tree α) : Tree α := build f.side f.color t f.elm f.sibling

/-- The whole tree, from a subtree and the way up. -/
def plug (t : Tree α) : List (Frame α) → Tree α
  | [] => t
  | f :: path => plug (f.attach t) path

/-! ## The operations -/

/-- Restore the colours above a red node. -/
def insertColor (t : Tree α) : List (Frame α) → Option (Tree α)
  | [] => some t.blacken
  | parent :: path =>
    if parent.color = .black then some (plug t (parent :: path)).blacken
    else
      match path with
      | [] => none
      | gparent :: path =>
        if gparent.sibling.isRed then
          insertColor
            ({ gparent with color := .red, sibling := gparent.sibling.blacken }.attach
              ({ parent with color := .black }.attach t)) path
        else if parent.side = gparent.side then
          some (plug (build gparent.side .black t parent.elm
            (build gparent.side .red parent.sibling gparent.elm gparent.sibling)) path).blacken
        else
          -- the node is between its parent and its grandparent: it is rotated up first
          match t.view gparent.side with
          | none => none
          | some (_, near, x, far) =>
            some (plug (build gparent.side .black
              (build gparent.side .red parent.sibling parent.elm near) x
              (build gparent.side .red far gparent.elm gparent.sibling)) path).blacken

/-- The way down to the place of a new element, or the element that is equal to it. -/
def descend (cmp : α → α → Ordering) (x : α) : Tree α → List (Frame α) → List (Frame α) ⊕ α
  | .nil, path => .inl path
  | .node c l y r, path =>
    match cmp x y with
    | .lt => descend cmp x l (⟨.left, c, y, r⟩ :: path)
    | .gt => descend cmp x r (⟨.right, c, y, l⟩ :: path)
    | .eq => .inr y

/-- Insert an element, unless an equal one is there: that one is returned. -/
def insert (cmp : α → α → Ordering) (x : α) (t : Tree α) : Option (Tree α × Option α) :=
  match descend cmp x t [] with
  | .inl path => (insertColor (.node .red .nil x .nil) path).map fun t' => (t', none)
  | .inr y => some (t, some y)

/-- One round of restoring the black nodes on the way to `t`, when the other child of its parent is
black. Either the subtree of the parent is in order, or it lacks a black node as a whole. -/
def fixSibling (t : Tree α) (parent : Frame α) : Option (Tree α ⊕ Tree α) :=
  match parent.sibling.view parent.side with
  | none => none
  | some (_, near, y, far) =>
    if !near.isRed && !far.isRed then
      some (.inr ({ parent with sibling := build parent.side .red near y far }.attach t))
    else if !far.isRed then
      -- the near child of the sibling is rotated above the sibling, and then above the parent
      match near.view parent.side with
      | none => none
      | some (_, near₁, z, near₂) =>
        some (.inl (build parent.side parent.color
          (build parent.side .black t parent.elm near₁) z (build parent.side .black near₂ y far)))
    else
      some (.inl (build parent.side parent.color
        (build parent.side .black t parent.elm near) y far.blacken))

/-- Restore the number of black nodes on the ways through `t`, which have one too few. -/
def removeColor (t : Tree α) : List (Frame α) → Option (Tree α)
  | [] => some t.blacken
  | parent :: path =>
    if t.isRed then some (plug t.blacken (parent :: path))
    else
      match parent.sibling.view parent.side with
      | some (.red, near, y, far) =>
        -- the sibling is rotated above the parent, which becomes red
        match fixSibling t { parent with color := .red, sibling := near } with
        | none => none
        | some (.inl sub) => some (plug sub (⟨parent.side, .black, y, far⟩ :: path)).blacken
        -- the loop goes on with the parent, and ends there because it is red
        | some (.inr sub) => some (plug sub.blacken (⟨parent.side, .black, y, far⟩ :: path))
      | _ =>
        match fixSibling t parent with
        | none => none
        | some (.inl sub) => some (plug sub path).blacken
        | some (.inr sub) => removeColor sub path

/-- A node of a tree: its parts and the way up. -/
structure Cursor (α : Type u) where
  color : Color
  left : Tree α
  elm : α
  right : Tree α
  path : List (Frame α)

/-- The tree around a node. -/
def Cursor.tree (n : Cursor α) : Tree α := plug (.node n.color n.left n.elm n.right) n.path

/-- Follow the left links from the left child `l` of a node on. -/
def leftmost (c : Color) (x : α) (r : Tree α) (path : List (Frame α)) : Tree α → Cursor α
  | .nil => ⟨c, .nil, x, r, path⟩
  | .node c' l' x' r' => leftmost c' x' r' (⟨.left, c, x, r⟩ :: path) l'

/-- Take a node with at most one child out of the tree: the child takes its place. -/
def unlink (c : Color) (child : Tree α) (path : List (Frame α)) : Option (Tree α) :=
  if c = .black then removeColor child path else some (plug child path)

/-- Remove a node. -/
def Cursor.remove (n : Cursor α) : Option (Tree α) :=
  match n.left, n.right with
  | .nil, r => unlink n.color r n.path
  | l, .nil => unlink n.color l n.path
  | l, .node c' l' x' r' =>
    -- the next element takes the place of the node
    let next := leftmost c' x' r' [] l'
    unlink next.color next.right (next.path ++ ⟨.right, n.color, next.elm, l⟩ :: n.path)

/-- The first node that satisfies `p`. -/
def locate (p : α → Bool) : Tree α → List (Frame α) → Option (Cursor α)
  | .nil, _ => none
  | .node c l x r, path =>
    match locate p l (⟨.left, c, x, r⟩ :: path) with
    | some n => some n
    | none => if p x then some ⟨c, l, x, r, path⟩ else locate p r (⟨.right, c, x, l⟩ :: path)

/-- Remove the node that satisfies `p`. -/
def remove (p : α → Bool) (t : Tree α) : Option (Tree α) :=
  (locate p t []).bind Cursor.remove

/-- The element equal to `x`. -/
def find (cmp : α → α → Ordering) (x : α) : Tree α → Option α
  | .nil => none
  | .node _ l y r =>
    match cmp x y with
    | .lt => find cmp x l
    | .gt => find cmp x r
    | .eq => some y

/-- The node with the least element. -/
def min? : Tree α → Option (Cursor α)
  | .nil => none
  | .node c l x r => some (leftmost c x r [] l)

/-- Go up until the subtree is a left child. -/
def climb (t : Tree α) : List (Frame α) → Option (Cursor α)
  | [] => none
  | f :: path =>
    match f.side with
    | .left => some ⟨f.color, t, f.elm, f.sibling, path⟩
    | .right => climb (f.attach t) path

/-- The node with the next element. -/
def Cursor.next (n : Cursor α) : Option (Cursor α) :=
  match n.right with
  | .node c l x r => some (leftmost c x r (⟨.right, n.color, n.elm, n.left⟩ :: n.path) l)
  | .nil => climb (.node n.color n.left n.elm .nil) n.path

/-- The elements that are visited from a node on, in `k` rounds. -/
def visits : ℕ → Option (Cursor α) → List α
  | 0, _ => []
  | _ + 1, none => []
  | k + 1, some n => n.elm :: visits k n.next

/-! ## The traversal -/

/-- The elements before those of a subtree. -/
def before : List (Frame α) → List α
  | [] => []
  | f :: path =>
    match f.side with
    | .left => before path
    | .right => before path ++ (inorder f.sibling ++ [f.elm])

/-- The elements behind those of a subtree. -/
def after : List (Frame α) → List α
  | [] => []
  | f :: path =>
    match f.side with
    | .left => f.elm :: (inorder f.sibling ++ after path)
    | .right => after path

/-- The empty tree has no elements. -/
@[simp]
theorem inorder_nil : inorder (.nil : Tree α) = [] := rfl

/-- The elements of a node stand between those of its subtrees. -/
@[simp]
theorem inorder_node (c : Color) (l : Tree α) (x : α) (r : Tree α) :
    inorder (.node c l x r) = inorder l ++ x :: inorder r := rfl

/-- A tree without elements is empty. -/
theorem eq_nil_of_inorder {t : Tree α} (h : inorder t = []) : t = .nil := by
  cases t with
  | nil => rfl
  | node c l x r => simp at h

/-- A colour does not change the elements. -/
@[simp]
theorem inorder_blacken (t : Tree α) : inorder t.blacken = inorder t := by
  cases t <;> rfl

/-- A function is applied to the elements where they are. -/
@[simp]
theorem inorder_map {β : Type u} (f : α → β) (t : Tree α) :
    inorder (t.map f) = (inorder t).map f := by
  induction t with
  | nil => rfl
  | node c l x r ihl ihr => simp [Tree.map, ihl, ihr]

/-- The elements of a tree that is put into its place. -/
@[simp]
theorem inorder_plug (t : Tree α) (path : List (Frame α)) :
    inorder (plug t path) = before path ++ (inorder t ++ after path) := by
  induction path generalizing t with
  | nil => simp [plug, before, after]
  | cons f path ih =>
    obtain ⟨side, c, x, s⟩ := f
    cases side <;> simp [plug, ih, Frame.attach, build, before, after]

/-- What is before a place, over two parts of its path. -/
theorem before_append (path rest : List (Frame α)) :
    before (path ++ rest) = before rest ++ before path := by
  induction path with
  | nil => simp [before]
  | cons f path ih =>
    obtain ⟨side, c, x, s⟩ := f
    cases side <;> simp [before, ih]

/-- What is behind a place, over two parts of its path. -/
theorem after_append (path rest : List (Frame α)) :
    after (path ++ rest) = after path ++ after rest := by
  induction path with
  | nil => simp [after]
  | cons f path ih =>
    obtain ⟨side, c, x, s⟩ := f
    cases side <;> simp [after, ih]

/-- A node seen from one of its sides. -/
theorem view_eq_some {s : Side} {t : Tree α} {c : Color} {near far : Tree α} {x : α} :
    t.view s = some (c, near, x, far) ↔ t = build s c near x far := by
  constructor
  · intro h
    cases t with
    | nil => cases h
    | node c' l y r =>
      cases s <;> · cases h; rfl
  · rintro rfl
    cases s <;> rfl

/-- The empty tree is no node from either side. -/
theorem view_eq_none {s : Side} {t : Tree α} : t.view s = none ↔ t = .nil := by
  cases t <;> cases s <;> simp [view]

/-- Restoring the colours after an insertion keeps the traversal. -/
theorem inorder_insertColor {t t' : Tree α} {path : List (Frame α)}
    (h : insertColor t path = some t') : inorder t' = before path ++ (inorder t ++ after path) := by
  fun_induction insertColor t path with
  | case1 t =>
    obtain rfl := Option.some.inj h
    simp [before, after]
  | case2 t parent path hblack =>
    obtain rfl := Option.some.inj h
    rw [inorder_blacken, inorder_plug]
  | case3 => cases h
  | case4 t parent hred gparent path huncle ih =>
    -- only colours change
    rw [ih h]
    obtain ⟨side, c, x, s⟩ := parent
    obtain ⟨gside, gc, gx, gs⟩ := gparent
    cases side <;> cases gside <;> simp [Frame.attach, build, before, after]
  | case5 t parent hred gparent path huncle hside =>
    obtain rfl := Option.some.inj h
    obtain ⟨side, c, x, s⟩ := parent
    obtain ⟨gside, gc, gx, gs⟩ := gparent
    obtain rfl : side = gside := hside
    cases side <;> simp [build, before, after]
  | case6 => cases h
  | case7 t parent hred gparent path huncle hside c near x far hview =>
    obtain rfl := Option.some.inj h
    obtain rfl := view_eq_some.mp hview
    obtain ⟨side, pc, px, s⟩ := parent
    obtain ⟨gside, gc, gx, gs⟩ := gparent
    cases side <;> cases gside
    · exact absurd rfl hside
    · simp [build, before, after]
    · simp [build, before, after]
    · exact absurd rfl hside

/-- A round of restoring the black nodes keeps the traversal. -/
theorem inorder_fixSibling {t : Tree α} {parent : Frame α} {r : Tree α ⊕ Tree α}
    (h : fixSibling t parent = some r) : inorder (r.elim id id) = inorder (parent.attach t) := by
  obtain ⟨side, c, x, s⟩ := parent
  unfold fixSibling at h
  split at h
  · cases h
  · rename_i c' near y far hview
    obtain rfl : s = build side c' near y far := view_eq_some.mp hview
    split_ifs at h
    · obtain rfl := Option.some.inj h
      cases side <;> simp [Frame.attach, build]
    · split at h
      · cases h
      · rename_i c₁ near₁ z near₂ hnear
        obtain rfl : near = build side c₁ near₁ z near₂ := view_eq_some.mp hnear
        obtain rfl := Option.some.inj h
        cases side <;> simp [Frame.attach, build]
    · obtain rfl := Option.some.inj h
      cases side <;> simp [Frame.attach, build]

/-- Restoring the black nodes after a removal keeps the traversal. -/
theorem inorder_removeColor {t t' : Tree α} {path : List (Frame α)}
    (h : removeColor t path = some t') : inorder t' = before path ++ (inorder t ++ after path) := by
  have hattach (parent : Frame α) (path : List (Frame α)) (t : Tree α) :
      before path ++ (inorder (parent.attach t) ++ after path) =
        before (parent :: path) ++ (inorder t ++ after (parent :: path)) := by
    rw [← inorder_plug, ← inorder_plug, plug]
  -- the red sibling of a node is rotated above the parent
  have hrotate (parent : Frame α) (path : List (Frame α)) {near far : Tree α} {y : α}
      (hview : parent.sibling.view parent.side = some (.red, near, y, far)) (t : Tree α) :
      before (⟨parent.side, .black, y, far⟩ :: path) ++
          (inorder (Frame.attach { parent with color := .red, sibling := near } t) ++
            after (⟨parent.side, .black, y, far⟩ :: path)) =
        before (parent :: path) ++ (inorder t ++ after (parent :: path)) := by
    obtain ⟨side, c, x, s⟩ := parent
    obtain rfl : s = build side .red near y far := view_eq_some.mp hview
    cases side <;> simp [Frame.attach, build, before, after]
  fun_induction removeColor t path with
  | case1 t =>
    obtain rfl := Option.some.inj h
    simp [before, after]
  | case2 t parent path hred =>
    obtain rfl := Option.some.inj h
    simp
  | case3 => cases h
  | case4 t parent path hred near y far hview sub hfix =>
    have hsub : inorder sub = _ := inorder_fixSibling hfix
    obtain rfl := Option.some.inj h
    rw [inorder_blacken, inorder_plug, hsub, hrotate parent path hview]
  | case5 t parent path hred near y far hview sub hfix =>
    have hsub : inorder sub = _ := inorder_fixSibling hfix
    obtain rfl := Option.some.inj h
    rw [inorder_plug, inorder_blacken, hsub, hrotate parent path hview]
  | case6 => cases h
  | case7 t parent path hred sub hfix hview =>
    have hsub : inorder sub = _ := inorder_fixSibling hfix
    obtain rfl := Option.some.inj h
    rw [inorder_blacken, inorder_plug, hsub, hattach]
  | case8 t parent path hred sub hfix hview ih =>
    have hsub : inorder sub = _ := inorder_fixSibling hfix
    rw [ih h, hsub, hattach]

/-! ## Searching and inserting -/

section Sorted

open OrderedSet (Sorted)

variable {cmp : α → α → Ordering}

/-- The element of a node separates the subtrees of a sorted tree. -/
theorem sorted_node {c : Color} {l r : Tree α} {y : α} (h : Sorted cmp (inorder (.node c l y r))) :
    Sorted cmp (inorder l) ∧ Sorted cmp (inorder r) ∧ (∀ z ∈ inorder l, cmp z y = .lt) ∧
      ∀ z ∈ inorder r, cmp y z = .lt := by
  obtain ⟨hl, hyr, hcross⟩ := List.pairwise_append.mp h
  obtain ⟨hy, hr⟩ := List.pairwise_cons.mp hyr
  exact ⟨hl, hr, fun z hz => hcross z hz y List.mem_cons_self, hy⟩

/-- A search finds what the ordered set has. -/
theorem find_eq [Std.TransCmp cmp] {x : α} {t : Tree α} (h : Sorted cmp (inorder t)) :
    find cmp x t = OrderedSet.find cmp x (inorder t) := by
  induction t with
  | nil => rfl
  | node c l y r ihl ihr =>
    obtain ⟨hl, hr, hly, hyr⟩ := sorted_node h
    rw [find, inorder_node, OrderedSet.find, List.find?_append, List.find?_cons]
    cases hxy : cmp x y with
    | lt =>
      -- nothing on the right of the node is equal
      have hnone : (inorder r).find? (fun z => cmp x z == .eq) = none := by
        refine List.find?_eq_none.mpr fun z hz => ?_
        rw [Std.TransCmp.lt_trans hxy (hyr z hz)]
        decide
      rw [ihl hl, OrderedSet.find, hnone]
      simp
    | eq =>
      have hnone : (inorder l).find? (fun z => cmp x z == .eq) = none := by
        refine List.find?_eq_none.mpr fun z hz => ?_
        rw [Std.TransCmp.congr_left hxy, Std.OrientedCmp.gt_of_lt (hly z hz)]
        decide
      rw [hnone]
      rfl
    | gt =>
      have hnone : (inorder l).find? (fun z => cmp x z == .eq) = none := by
        refine List.find?_eq_none.mpr fun z hz => ?_
        rw [Std.TransCmp.gt_trans hxy (Std.OrientedCmp.gt_of_lt (hly z hz))]
        decide
      rw [ihr hr, OrderedSet.find, hnone]
      rfl

/-- The place a new element is sent to lies between the smaller elements and the greater ones. -/
theorem descend_inl [Std.TransCmp cmp] {x : α} {t : Tree α} {path path' : List (Frame α)}
    (h : Sorted cmp (inorder t)) (hbefore : ∀ y ∈ before path, cmp x y = .gt)
    (hafter : ∀ y ∈ after path, cmp x y = .lt) (hplace : descend cmp x t path = .inl path') :
    before path' ++ after path' = before path ++ (inorder t ++ after path) ∧
      (∀ y ∈ before path', cmp x y = .gt) ∧ ∀ y ∈ after path', cmp x y = .lt := by
  induction t generalizing path with
  | nil =>
    obtain rfl := Sum.inl.inj hplace
    exact ⟨rfl, hbefore, hafter⟩
  | node c l y r ihl ihr =>
    obtain ⟨hl, hr, hly, hyr⟩ := sorted_node h
    rw [descend] at hplace
    cases hxy : cmp x y with
    | lt =>
      rw [hxy] at hplace
      -- on the way to the left, `y` and what is right of it are greater
      have hafter' : ∀ z ∈ after (⟨.left, c, y, r⟩ :: path), cmp x z = .lt := by
        intro z hz
        rcases List.mem_cons.mp hz with rfl | hz
        · exact hxy
        · rcases List.mem_append.mp hz with hz | hz
          · exact Std.TransCmp.lt_trans hxy (hyr z hz)
          · exact hafter z hz
      have hbefore' : ∀ z ∈ before (⟨.left, c, y, r⟩ :: path), cmp x z = .gt := hbefore
      obtain ⟨heq, hrest⟩ := ihl hl hbefore' hafter' hplace
      refine ⟨heq.trans ?_, hrest⟩
      simp [before, after]
    | eq =>
      rw [hxy] at hplace
      cases hplace
    | gt =>
      rw [hxy] at hplace
      -- on the way to the right, `y` and what is left of it are smaller
      have hbefore' : ∀ z ∈ before (⟨.right, c, y, l⟩ :: path), cmp x z = .gt := by
        intro z hz
        rcases List.mem_append.mp hz with hz | hz
        · exact hbefore z hz
        · rcases List.mem_append.mp hz with hz | hz
          · exact Std.TransCmp.gt_trans hxy (Std.OrientedCmp.gt_of_lt (hly z hz))
          · rwa [List.mem_singleton.mp hz]
      have hafter' : ∀ z ∈ after (⟨.right, c, y, l⟩ :: path), cmp x z = .lt := hafter
      obtain ⟨heq, hrest⟩ := ihr hr hbefore' hafter' hplace
      refine ⟨heq.trans ?_, hrest⟩
      simp [before, after]

/-- The descent stops at an element that is equal. -/
theorem descend_inr {x y : α} {t : Tree α} {path : List (Frame α)}
    (hplace : descend cmp x t path = .inr y) : find cmp x t = some y := by
  induction t generalizing path with
  | nil => cases hplace
  | node c l z r ihl ihr =>
    rw [descend] at hplace
    rw [find]
    cases hxz : cmp x z with
    | lt =>
      rw [hxz] at hplace
      exact ihl hplace
    | eq =>
      rw [hxz] at hplace
      rw [Sum.inr.inj hplace]
    | gt =>
      rw [hxz] at hplace
      exact ihr hplace

/-- Inserting is the insertion of the ordered set. The element that is returned is the one that was
there before. -/
theorem inorder_insert [Std.TransCmp cmp] {x : α} {t t' : Tree α} {old : Option α}
    (h : Sorted cmp (inorder t)) (hins : insert cmp x t = some (t', old)) :
    inorder t' = OrderedSet.insert cmp x (inorder t) ∧
      old = OrderedSet.find cmp x (inorder t) := by
  unfold insert at hins
  split at hins
  · -- there is no equal element: the new one stands where the descent ends
    rename_i path hplace
    obtain ⟨t₁, hcolor, heq⟩ := Option.map_eq_some_iff.mp hins
    obtain ⟨rfl, rfl⟩ := Prod.mk.inj heq
    have hpre : ∀ y ∈ before ([] : List (Frame α)), cmp x y = .gt :=
      fun y hy => absurd hy List.not_mem_nil
    have hpost : ∀ y ∈ after ([] : List (Frame α)), cmp x y = .lt :=
      fun y hy => absurd hy List.not_mem_nil
    obtain ⟨htrav, hbefore, hafter⟩ := descend_inl h hpre hpost hplace
    have htrav' : inorder t = before path ++ after path := by
      simpa [before, after] using htrav.symm
    rw [inorder_insertColor hcolor, htrav']
    refine ⟨?_, ?_⟩
    · rw [OrderedSet.insert_between hbefore hafter]
      simp
    · refine (List.find?_eq_none.mpr fun y hy => ?_).symm
      rcases List.mem_append.mp hy with hy | hy
      · simp [hbefore y hy]
      · simp [hafter y hy]
  · -- the element that is there stays
    rename_i y hplace
    obtain ⟨rfl, rfl⟩ := Prod.mk.inj (Option.some.inj hins)
    have hfind := (find_eq h).symm.trans (descend_inr hplace)
    obtain ⟨hy, hxy⟩ := OrderedSet.find_eq_some hfind
    exact ⟨(OrderedSet.insert_eq_self h hy hxy).symm, hfind.symm⟩

end Sorted

/-! ## Walking along the tree -/

namespace Cursor

/-- The elements before the node. -/
def before (n : Cursor α) : List α := RedBlackTree.before n.path ++ inorder n.left

/-- The elements behind the node. -/
def after (n : Cursor α) : List α := inorder n.right ++ RedBlackTree.after n.path

/-- The elements of the tree around a cursor. -/
theorem inorder_tree (n : Cursor α) : inorder n.tree = n.before ++ n.elm :: n.after := by
  simp [tree, before, after]

end Cursor

/-- Nothing of the subtree is before its leftmost node. -/
theorem before_leftmost (c : Color) (x : α) (r : Tree α) (path : List (Frame α)) (l : Tree α) :
    (leftmost c x r path l).before = before path := by
  induction l generalizing c x r path with
  | nil => simp [leftmost, Cursor.before]
  | node c' l' x' r' ihl _ => exact ihl ..

/-- What follows from the leftmost node on. -/
theorem after_leftmost (c : Color) (x : α) (r : Tree α) (path : List (Frame α)) (l : Tree α) :
    (leftmost c x r path l).elm :: (leftmost c x r path l).after =
      inorder l ++ (x :: (inorder r ++ after path)) := by
  induction l generalizing c x r path with
  | nil => rfl
  | node c' l' x' r' ihl _ =>
    rw [leftmost, ihl]
    simp [after]

/-- When the climb comes to nothing, nothing follows the place. -/
theorem climb_eq_none {t : Tree α} {path : List (Frame α)} (h : climb t path = none) :
    after path = [] := by
  induction path generalizing t with
  | nil => rfl
  | cons f path ih =>
    obtain ⟨side, c, x, s⟩ := f
    cases side with
    | left => cases h
    | right => exact ih h

/-- What the climb comes to is what follows. -/
theorem climb_eq_some {t : Tree α} {path : List (Frame α)} {n : Cursor α}
    (h : climb t path = some n) : n.elm :: n.after = after path := by
  induction path generalizing t with
  | nil => cases h
  | cons f path ih =>
    obtain ⟨side, c, x, s⟩ := f
    cases side with
    | left =>
      obtain rfl := Option.some.inj h
      rfl
    | right => exact ih h

/-- The next node holds the first element behind the node. -/
theorem Cursor.next_spec (n : Cursor α) :
    n.after = n.next.elim [] fun m => m.elm :: m.after := by
  obtain ⟨c, l, x, r, path⟩ := n
  cases r with
  | nil =>
    rw [next, after]
    cases hclimb : climb (.node c l x .nil) path with
    | none => exact climb_eq_none hclimb
    | some m => exact (climb_eq_some hclimb).symm
  | node c' l' x' r' =>
    rw [next, Option.elim_some, after_leftmost, after]
    simp [RedBlackTree.after]

/-- The successor of a node holds the next element. -/
theorem Cursor.next_elm (n : Cursor α) : n.next.map Cursor.elm = n.after.head? := by
  rw [n.next_spec]
  cases n.next <;> rfl

/-- The visits follow the order of the elements. -/
theorem visits_cursor (k : ℕ) (n : Option (Cursor α)) :
    visits k n = (n.elim [] fun m => m.elm :: m.after).take k := by
  induction k generalizing n with
  | zero => simp [visits]
  | succ k ih =>
    cases n with
    | none => simp [visits]
    | some m => rw [visits, ih, ← m.next_spec, Option.elim_some, List.take_succ_cons]

/-- Taking successors from the least element visits the elements in order. -/
theorem visits_eq (k : ℕ) (t : Tree α) : visits k (min? t) = (inorder t).take k := by
  rw [visits_cursor]
  cases t with
  | nil => rfl
  | node c l x r =>
    rw [min?, Option.elim_some, after_leftmost]
    simp [after]

/-! ## Removing -/

/-- Nothing is found when no element has the property. -/
theorem locate_eq_none {p : α → Bool} {t : Tree α} {path : List (Frame α)} :
    locate p t path = none ↔ ∀ x ∈ inorder t, ¬ p x := by
  induction t generalizing path with
  | nil => simp [locate]
  | node c l x r ihl ihr =>
    rw [locate]
    cases hl : locate p l (⟨.left, c, x, r⟩ :: path) with
    | some n =>
      have := (not_congr ihl).mp (by rw [hl]; simp)
      simp only [reduceCtorEq, false_iff]
      intro hall
      exact this fun y hy => hall y (List.mem_append_left _ hy)
    | none =>
      have hleft := ihl.mp hl
      by_cases hx : p x = true
      · simp only [hx, if_true, reduceCtorEq, false_iff]
        exact fun hall => hall x (List.mem_append_right _ List.mem_cons_self) hx
      · simp only [hx, Bool.false_eq_true, if_false, ihr, inorder_node, List.mem_append,
          List.mem_cons]
        constructor
        · rintro hr y (hy | rfl | hy)
          · exact hleft y hy
          · exact hx
          · exact hr y hy
        · exact fun hall y hy => hall y (.inr (.inr hy))

/-- The first element with the property is found. -/
theorem locate_eq_some {p : α → Bool} {t : Tree α} {path : List (Frame α)} {n : Cursor α}
    (h : locate p t path = some n) : n.tree = plug t path ∧ p n.elm ∧
      ∃ pre, n.before = before path ++ pre ∧ ∀ y ∈ pre, ¬ p y := by
  induction t generalizing path with
  | nil => cases h
  | node c l x r ihl ihr =>
    rw [locate] at h
    cases hl : locate p l (⟨.left, c, x, r⟩ :: path) with
    | some m =>
      rw [hl] at h
      obtain rfl := Option.some.inj h
      exact ihl hl
    | none =>
      rw [hl] at h
      -- nothing to the left has the property, so the node or the right is next
      have hleft := locate_eq_none.mp hl
      dsimp only at h
      split_ifs at h with hx
      · obtain rfl := Option.some.inj h
        exact ⟨rfl, hx, inorder l, rfl, hleft⟩
      · obtain ⟨htree, hp, pre, hpre, hnone⟩ := ihr h
        refine ⟨htree, hp, inorder l ++ x :: pre, ?_, ?_⟩
        · rw [hpre]
          simp [before]
        · intro y hy
          rcases List.mem_append.mp hy with hy | hy
          · exact hleft y hy
          · rcases List.mem_cons.mp hy with rfl | hy
            · exact hx
            · exact hnone y hy

/-- A node is found by the key of its element. -/
theorem exists_locate {κ : Type*} [DecidableEq κ] {key : α → κ} {t : Tree α} {pre post : List α}
    {x : α} (hnd : ((inorder t).map key).Nodup) (h : inorder t = pre ++ x :: post) :
    ∃ n, locate (fun y => key y == key x) t [] = some n ∧ n.tree = t ∧ n.elm = x ∧
      n.before = pre ∧ n.after = post := by
  cases hloc : locate (fun y => key y == key x) t [] with
  | none =>
    refine absurd ?_ (locate_eq_none.mp hloc x ?_)
    · simp
    · rw [h]
      exact List.mem_append_right _ List.mem_cons_self
  | some n =>
    obtain ⟨htree, hkey, -⟩ := locate_eq_some hloc
    have htrav : inorder t = n.before ++ n.elm :: n.after := by
      rw [← n.inorder_tree, htree, plug]
    have hkey' : key n.elm = key x := by simpa using hkey
    obtain rfl : n.elm = x := by
      refine List.inj_on_of_nodup_map hnd ?_ ?_ hkey'
      · rw [htrav]
        exact List.mem_append_right _ List.mem_cons_self
      · rw [h]
        exact List.mem_append_right _ List.mem_cons_self
    -- an element with a key of its own stands at one place only
    rw [htrav, List.map_append, List.map_cons] at hnd
    obtain ⟨-, hrest, hcross⟩ := List.nodup_append.mp hnd
    have hbefore : n.elm ∉ n.before := fun hin =>
      hcross _ (List.mem_map_of_mem hin) _ List.mem_cons_self rfl
    have hafter : n.elm ∉ n.after := fun hin =>
      (List.nodup_cons.mp hrest).1 (List.mem_map_of_mem hin)
    obtain ⟨hpre, -, hpost⟩ :=
      (List.append_cons_inj_of_notMem hbefore hafter).mp (htrav.symm.trans h)
    exact ⟨n, rfl, htree, rfl, hpre, hpost⟩

/-- What is left when a node with one child is taken out. -/
theorem inorder_unlink {c : Color} {child t' : Tree α} {path : List (Frame α)}
    (h : unlink c child path = some t') :
    inorder t' = before path ++ (inorder child ++ after path) := by
  unfold unlink at h
  split_ifs at h
  · exact inorder_removeColor h
  · obtain rfl := Option.some.inj h
    exact inorder_plug child path

/-- Removing a node takes out its element. -/
theorem Cursor.inorder_remove {n : Cursor α} {t' : Tree α} (h : n.remove = some t') :
    inorder t' = n.before ++ n.after := by
  obtain ⟨c, l, x, r, path⟩ := n
  cases l with
  | nil =>
    rw [inorder_unlink (show unlink c r path = some t' from h)]
    simp [before, after]
  | node cl ll xl rl =>
    cases r with
    | nil =>
      rw [inorder_unlink (show unlink c (.node cl ll xl rl) path = some t' from h)]
      simp [before, after]
    | node cr lr xr rr =>
      -- the leftmost node of the right subtree has nothing on its left
      have hbefore : (leftmost cr xr rr [] lr).before = [] := before_leftmost ..
      have hafter : (leftmost cr xr rr [] lr).elm :: (leftmost cr xr rr [] lr).after =
          inorder (.node cr lr xr rr) := by
        rw [after_leftmost]
        simp [RedBlackTree.after]
      obtain ⟨hpath, -⟩ := List.append_eq_nil_iff.mp hbefore
      have h' : unlink _ _ _ = some t' := h
      rw [inorder_unlink h', before_append, after_append, hpath]
      simp only [before, after, ← hafter]
      simp [RedBlackTree.before, RedBlackTree.after]

/-- Removing the node that satisfies `p`. -/
theorem inorder_remove {p : α → Bool} {t t' : Tree α} (h : remove p t = some t') :
    inorder t' = (inorder t).eraseP p := by
  obtain ⟨n, hloc, hrem⟩ := Option.bind_eq_some_iff.mp h
  obtain ⟨htree, hp, pre, hpre, hnone⟩ := locate_eq_some hloc
  have htrav : inorder t = n.before ++ n.elm :: n.after := by
    rw [← n.inorder_tree, htree, plug]
  rw [Cursor.inorder_remove hrem, htrav, List.eraseP_append_right _ ?_, List.eraseP_cons_of_pos hp]
  simpa [hpre, before] using hnone

end RedBlackTree
