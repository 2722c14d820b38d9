import Mathlib.Algebra.GroupWithZero.Nat
import NetworkMonitoring.Foundations.RedBlackTree

/-!
# Red-black trees: colours and heights

The operations of a red-black tree keep its colours: no red node has a red child, and all ways down
have the same number of black nodes. In such a tree no link is missing where an operation follows
one, so inserting always gives a tree, and so does removing an element that is there.

`PathOk path c n` says what fits below a path: a balanced tree with `n` black nodes on each way
down, whose root has the colour `c`. Between two rounds of an operation the tree is balanced but
for the place it works at.
-/

namespace RedBlackTree

universe u

variable {α : Type u}

open RedBlackTree.Tree

/-- A tree with its colours right, the colour of its root and the number of black nodes on a way
down. -/
inductive Balanced : Tree α → Color → ℕ → Prop where
  | nil : Balanced .nil .black 0
  | red {l r : Tree α} {x : α} {n : ℕ} : Balanced l .black n → Balanced r .black n →
      Balanced (.node .red l x r) .red n
  | black {l r : Tree α} {x : α} {c c' : Color} {n : ℕ} : Balanced l c n → Balanced r c' n →
      Balanced (.node .black l x r) .black (n + 1)

/-- A tree as the operations leave it. -/
def Valid (t : Tree α) : Prop := ∃ n, Balanced t .black n

/-- A balanced tree with a root of the colour `c` and `n` black nodes fits below the path. -/
inductive PathOk : List (Frame α) → Color → ℕ → Prop where
  | root {n : ℕ} : PathOk [] .black n
  | red {s : Side} {x : α} {sib : Tree α} {path : List (Frame α)} {n : ℕ} :
      Balanced sib .black n → PathOk path .red n → PathOk (⟨s, .red, x, sib⟩ :: path) .black n
  | black {s : Side} {x : α} {sib : Tree α} {path : List (Frame α)} {c c' : Color} {n : ℕ} :
      Balanced sib c' n → PathOk path .black (n + 1) → PathOk (⟨s, .black, x, sib⟩ :: path) c n

section Colors

variable {t l r : Tree α} {x : α} {c c' : Color} {n : ℕ} {path : List (Frame α)}

/-- A red node over two black ones, on either side. -/
theorem Balanced.build_red (s : Side) (hl : Balanced l .black n) (hr : Balanced r .black n) :
    Balanced (build s .red l x r) .red n := by
  cases s with
  | left => exact .red hl hr
  | right => exact .red hr hl

/-- A black node, on either side. -/
theorem Balanced.build_black (s : Side) (hl : Balanced l c n) (hr : Balanced r c' n) :
    Balanced (build s .black l x r) .black (n + 1) := by
  cases s with
  | left => exact .black hl hr
  | right => exact .black hr hl

/-- Colouring the root black. -/
theorem Balanced.valid_blacken (h : Balanced t c n) : Valid t.blacken := by
  cases h with
  | nil => exact ⟨_, .nil⟩
  | red hl hr => exact ⟨_, .black hl hr⟩
  | black hl hr => exact ⟨_, .black hl hr⟩

/-- The colour of the root. -/
theorem Balanced.isRed_eq (h : Balanced t c n) : t.isRed = (c == .red) := by
  cases h <;> rfl

/-- The root is red. -/
theorem Balanced.eq_red (h : Balanced t c n) (hred : t.isRed = true) : c = .red := by
  simpa [h.isRed_eq] using hred

/-- The root is black. -/
theorem Balanced.eq_black (h : Balanced t c n) (hred : ¬ t.isRed = true) : c = .black := by
  rw [h.isRed_eq] at hred
  cases c with
  | black => rfl
  | red => exact absurd rfl hred

/-- A red root hides a black node. -/
theorem Balanced.blacken_of_red (h : Balanced t .red n) : Balanced t.blacken .black (n + 1) := by
  cases h with
  | red hl hr => exact .black hl hr

/-- A black root stays as it is. -/
theorem Balanced.blacken_of_black (h : Balanced t .black n) : Balanced t.blacken .black n := by
  cases h with
  | nil => exact .nil
  | black hl hr => exact .black hl hr

/-- The parts of a tree that is not empty. -/
theorem Balanced.exists_view (s : Side) (h : Balanced t c (n + 1)) :
    ∃ near x far, t.view s = some (c, near, x, far) := by
  cases h with
  | red => cases s <;> exact ⟨_, _, _, rfl⟩
  | black => cases s <;> exact ⟨_, _, _, rfl⟩

/-- The children of a red node are black. -/
theorem Balanced.view_red {s : Side} {near far : Tree α} {y : α} (h : Balanced t c n)
    (hview : t.view s = some (.red, near, y, far)) :
    c = .red ∧ Balanced near .black n ∧ Balanced far .black n := by
  obtain rfl := view_eq_some.mp hview
  cases s <;> (cases h with | red hl hr => simp [hl, hr])

/-- The children of a black node have one black node less on their ways. -/
theorem Balanced.view_black {s : Side} {near far : Tree α} {y : α} (h : Balanced t c n)
    (hview : t.view s = some (.black, near, y, far)) :
    ∃ m c₁ c₂, n = m + 1 ∧ c = .black ∧ Balanced near c₁ m ∧ Balanced far c₂ m := by
  obtain rfl := view_eq_some.mp hview
  cases s <;> (cases h with | black hl hr => exact ⟨_, _, _, rfl, rfl, ‹_›, ‹_›⟩)

/-- The children of a node. -/
theorem Balanced.children (h : Balanced (.node c l x r) c' n) :
    ∃ cl cr m, c' = c ∧ Balanced l cl m ∧ Balanced r cr m ∧ (c = .black → n = m + 1) ∧
      (c = .red → n = m ∧ cl = .black ∧ cr = .black) := by
  cases h with
  | red hl hr => exact ⟨_, _, _, rfl, hl, hr, by simp, by simp⟩
  | black hl hr => exact ⟨_, _, _, rfl, hl, hr, by simp, by simp⟩

/-- A place for a red tree is one for a black tree. -/
theorem PathOk.weaken (h : PathOk path .red n) : PathOk path .black n := by
  cases h with
  | black hs hp => exact .black hs hp

/-- A balanced tree below a path that it fits gives a balanced tree. -/
theorem PathOk.plug (h : PathOk path c n) (ht : Balanced t c n) : Valid (plug t path) := by
  induction path generalizing t c n with
  | nil =>
    cases h
    exact ⟨n, ht⟩
  | cons f path ih =>
    cases h with
    | red hs hp => exact ih hp (ht.build_red _ hs)
    | black hs hp => exact ih hp (ht.build_black _ hs)

/-- Writing to the elements leaves the colours alone. -/
theorem Balanced.map {β : Type u} (f : α → β) (h : Balanced t c n) : Balanced (t.map f) c n := by
  induction h with
  | nil => exact .nil
  | red _ _ ihl ihr => exact .red ihl ihr
  | black _ _ ihl ihr => exact .black ihl ihr

/-- A valid tree with its root made black is valid. -/
theorem Valid.blacken (h : Valid t) : Valid t.blacken := by
  obtain ⟨n, ht⟩ := h
  exact ⟨n, ht.blacken_of_black⟩

end Colors

/-! ## Inserting -/

/-- The colours above a red node can be restored. -/
theorem insertColor_spec {t : Tree α} {path : List (Frame α)} {n : ℕ} (ht : Balanced t .red n)
    (hpath : PathOk path .black n) : ∃ t', insertColor t path = some t' ∧ Valid t' := by
  fun_induction insertColor t path generalizing n with
  | case1 t => exact ⟨_, rfl, ht.valid_blacken⟩
  | case2 t parent path hblack =>
    refine ⟨_, rfl, Valid.blacken ?_⟩
    cases hpath with
    | red => cases hblack
    | black hs hp => exact (PathOk.black hs hp).plug ht
  | case3 t parent hred =>
    -- the root is black
    cases hpath with
    | red _ hp => cases hp
    | black => exact absurd rfl hred
  | case4 t parent hred gparent path huncle ih =>
    cases hpath with
    | black => exact absurd rfl hred
    | red hs hp =>
      cases hp with
      | black hu hp =>
        obtain rfl := hu.eq_red huncle
        exact ih ((ht.build_black _ hs).build_red _ hu.blacken_of_red) hp
  | case5 t parent hred gparent path huncle hside =>
    cases hpath with
    | black => exact absurd rfl hred
    | red hs hp =>
      cases hp with
      | black hu hp =>
        obtain rfl := hu.eq_black huncle
        exact ⟨_, rfl, (hp.plug (ht.build_black _ (hs.build_red _ hu))).blacken⟩
  | case6 t parent hred gparent path huncle hside hview =>
    obtain rfl := view_eq_none.mp hview
    cases ht
  | case7 t parent hred gparent path huncle hside c near x far hview =>
    cases hpath with
    | black => exact absurd rfl hred
    | red hs hp =>
      cases hp with
      | black hu hp =>
        obtain rfl := hu.eq_black huncle
        have hnode : Balanced near .black n ∧ Balanced far .black n := by
          cases c with
          | red => exact (ht.view_red hview).2
          | black =>
            obtain ⟨_, _, _, -, hc, -⟩ := ht.view_black hview
            cases hc
        exact ⟨_, rfl, (hp.plug ((hs.build_red _ hnode.1).build_black _
          (hnode.2.build_red _ hu))).blacken⟩

/-- A red leaf fits at the place a new element is sent to. -/
theorem descend_pathOk {cmp : α → α → Ordering} {x : α} {t : Tree α} {path path' : List (Frame α)}
    {c : Color} {n : ℕ} (ht : Balanced t c n) (hpath : PathOk path c n)
    (hplace : descend cmp x t path = .inl path') : PathOk path' .black 0 := by
  induction ht generalizing path with
  | nil =>
    obtain rfl := Sum.inl.inj hplace
    exact hpath
  | red hl hr ihl ihr =>
    rw [descend] at hplace
    split at hplace
    · exact ihl (.red hr hpath) hplace
    · exact ihr (.red hl hpath) hplace
    · cases hplace
  | black hl hr ihl ihr =>
    rw [descend] at hplace
    split at hplace
    · exact ihl (.black hr hpath) hplace
    · exact ihr (.black hl hpath) hplace
    · cases hplace

/-- Inserting gives a tree with its colours right. -/
theorem insert_balanced (cmp : α → α → Ordering) (x : α) {t : Tree α} (h : Valid t) :
    ∃ t' old, insert cmp x t = some (t', old) ∧ Valid t' := by
  obtain ⟨n, ht⟩ := h
  unfold insert
  cases hplace : descend cmp x t [] with
  | inl path =>
    obtain ⟨t', hcolor, hvalid⟩ := insertColor_spec (t := .node .red .nil x .nil)
      (.red .nil .nil) (descend_pathOk ht .root hplace)
    exact ⟨t', none, by simp [hcolor], hvalid⟩
  | inr y => exact ⟨t, some y, rfl, n, ht⟩

/-! ## Removing -/

/-- What is left of a subtree that had one black node more: coloured black it is as before. -/
def Lacks (t : Tree α) (n : ℕ) : Prop :=
  if t.isRed then Balanced t.blacken .black (n + 1) else Balanced t .black n

/-- A balanced tree of `n` black nodes on each way lacks one where `n + 1` are expected. -/
theorem Lacks.of_balanced {t : Tree α} {c : Color} {n : ℕ} (h : Balanced t c n) : Lacks t n := by
  unfold Lacks
  split
  · rename_i hred
    obtain rfl := h.eq_red hred
    exact h.blacken_of_red
  · rename_i hred
    obtain rfl := h.eq_black hred
    exact h

/-- The subtree a round leaves, below the rest of the path. -/
def Restored (path : List (Frame α)) : Tree α ⊕ Tree α → Prop
  | .inl sub => Valid (plug sub path)
  | .inr sub => ∃ n, Lacks sub n ∧ PathOk path .black (n + 1)

/-- A subtree that lacks a black node after a round has the parent on top. -/
theorem isRed_of_fixSibling {t sub : Tree α} {parent : Frame α}
    (h : fixSibling t parent = some (.inr sub)) : sub.isRed = (parent.color == .red) := by
  obtain ⟨s, c, x, sib⟩ := parent
  unfold fixSibling at h
  split at h
  · cases h
  · split_ifs at h
    · obtain rfl := Sum.inr.inj (Option.some.inj h)
      cases s <;> cases c <;> rfl
    · split at h <;> cases h
    · cases h

/-- A round of restoring the black nodes, when the sibling is black. -/
theorem fixSibling_spec {t : Tree α} {s : Side} {c : Color} {x : α} {sib : Tree α}
    {path : List (Frame α)} {n : ℕ} (ht : Balanced t .black n) (hsib : Balanced sib .black (n + 1))
    (hpath : PathOk (⟨s, c, x, sib⟩ :: path) .black (n + 1)) :
    ∃ r, fixSibling t ⟨s, c, x, sib⟩ = some r ∧ Restored path r := by
  obtain ⟨near, y, far, hview⟩ := hsib.exists_view s
  obtain ⟨m, c₁, c₂, hm, -, hnear, hfar⟩ := hsib.view_black hview
  obtain rfl : m = n := by omega
  -- a subtree with the parent's colour on top is in order
  have hdone {l r : Tree α} {z : α} (hl : Balanced l .black (m + 1))
      (hr : Balanced r .black (m + 1)) : Valid (plug (build s c l z r) path) := by
    cases hpath with
    | red _ hp => exact hp.plug (hl.build_red s hr)
    | black _ hp => exact hp.plug (hl.build_black s hr)
  unfold fixSibling
  simp only [hview]
  split_ifs with hboth hfar'
  · -- the sibling becomes red
    obtain ⟨hnear', hfar'⟩ : near.isRed = false ∧ far.isRed = false := by simpa using hboth
    obtain rfl := hnear.eq_black (by simp [hnear'])
    obtain rfl := hfar.eq_black (by simp [hfar'])
    have hred : Balanced (build s .red near y far) .red m := hnear.build_red s hfar
    refine ⟨_, rfl, ?_⟩
    have hblack : Balanced (build s .black t x (build s .red near y far)) .black (m + 1) :=
      ht.build_black s hred
    cases hpath with
    | red _ hp =>
      refine ⟨m, ?_, hp.weaken⟩
      cases s <;> exact hblack
    | black _ hp => exact ⟨m + 1, .of_balanced hblack, hp⟩
  · -- only the near child of the sibling is red
    have hnear' : near.isRed = true := by
      by_contra hnot
      simp [hnot, hfar'] at hboth
    obtain rfl := hnear.eq_red hnear'
    obtain rfl := hfar.eq_black (by simpa using hfar')
    have hfind : ∃ near₁ z near₂, near.view s = some (.red, near₁, z, near₂) := by
      cases hnear with
      | red => cases s <;> exact ⟨_, _, _, rfl⟩
    obtain ⟨near₁, z, near₂, hview₁⟩ := hfind
    obtain ⟨-, hnear₁, hnear₂⟩ := hnear.view_red hview₁
    simp only [hview₁]
    exact ⟨_, rfl, hdone (ht.build_black s hnear₁) (hnear₂.build_black s hfar)⟩
  · obtain rfl := hfar.eq_red (by simpa using hfar')
    exact ⟨_, rfl, hdone (ht.build_black s hnear) hfar.blacken_of_red⟩

/-- The black nodes on the ways through a subtree that lacks one can be restored. -/
theorem removeColor_spec {t : Tree α} {path : List (Frame α)} {n : ℕ} (ht : Lacks t n)
    (hpath : PathOk path .black (n + 1)) : ∃ t', removeColor t path = some t' ∧ Valid t' := by
  induction path generalizing t n with
  | nil =>
    refine ⟨_, rfl, ?_⟩
    unfold Lacks at ht
    split at ht
    · exact ⟨_, ht⟩
    · exact ht.valid_blacken
  | cons parent path ih =>
    rw [removeColor]
    unfold Lacks at ht
    split at ht
    · rename_i hred
      exact ⟨_, if_pos hred, hpath.plug ht⟩
    · rename_i hred
      rw [if_neg hred]
      obtain ⟨s, c, x, sib⟩ := parent
      have hsib : ∃ cs, Balanced sib cs (n + 1) := by
        cases hpath with
        | red hs _ => exact ⟨_, hs⟩
        | black hs _ => exact ⟨_, hs⟩
      obtain ⟨cs, hsib⟩ := hsib
      obtain ⟨near, y, far, hview⟩ := hsib.exists_view s
      cases cs with
      | red =>
        -- the parent is black, and the near child of the sibling too
        obtain ⟨-, hnear, hfar⟩ := hsib.view_red hview
        cases hpath with
        | red hs _ =>
          obtain ⟨hc, -⟩ := hs.view_red hview
          cases hc
        | black _ hp =>
          have hpath' : PathOk (⟨s, .red, x, near⟩ :: ⟨s, .black, y, far⟩ :: path) .black (n + 1) :=
            .red hnear (.black hfar hp)
          obtain ⟨r, hfix, hr⟩ := fixSibling_spec ht hnear hpath'
          simp only [hview, hfix]
          cases r with
          | inl sub => exact ⟨_, rfl, Valid.blacken hr⟩
          | inr sub =>
            obtain ⟨m, hlacks, hpath'⟩ := hr
            have hsub : sub.isRed = true := isRed_of_fixSibling hfix
            rw [Lacks, if_pos hsub] at hlacks
            exact ⟨_, rfl, hpath'.plug hlacks⟩
      | black =>
        obtain ⟨r, hfix, hr⟩ := fixSibling_spec ht hsib hpath
        simp only [hview, hfix]
        cases r with
        | inl sub => exact ⟨_, rfl, Valid.blacken hr⟩
        | inr sub =>
          obtain ⟨m, hlacks, hpath'⟩ := hr
          exact ih hlacks hpath'

/-- Going down from a node. -/
theorem PathOk.down {s : Side} {c : Color} {l r : Tree α} {x : α} {path : List (Frame α)} {n : ℕ}
    (hpath : PathOk path c n) (h : Balanced (build s c l x r) c n) :
    ∃ c' m, Balanced l c' m ∧ PathOk (⟨s, c, x, r⟩ :: path) c' m := by
  have hpair : ∃ cl cr m, Balanced l cl m ∧ Balanced r cr m ∧ (c = .black → n = m + 1) ∧
      (c = .red → n = m ∧ cl = .black ∧ cr = .black) := by
    cases s with
    | left =>
      obtain ⟨cl, cr, m, -, hl, hr, hblack, hred⟩ := h.children
      exact ⟨cl, cr, m, hl, hr, hblack, hred⟩
    | right =>
      obtain ⟨cr, cl, m, -, hr, hl, hblack, hred⟩ := h.children
      exact ⟨cl, cr, m, hl, hr, hblack, fun hc => ⟨(hred hc).1, (hred hc).2.2, (hred hc).2.1⟩⟩
  obtain ⟨cl, cr, m, hl, hr, hblack, hred⟩ := hpair
  cases c with
  | red =>
    obtain ⟨rfl, rfl, rfl⟩ := hred rfl
    exact ⟨_, _, hl, .red hr hpath⟩
  | black =>
    obtain rfl := hblack rfl
    exact ⟨_, _, hl, .black hr hpath⟩

/-- Taking out a node with at most one child. -/
theorem unlink_spec {c c' : Color} {child : Tree α} {path : List (Frame α)} {n m : ℕ}
    (hchild : Balanced child c' m) (hpath : PathOk path c n) (hblack : c = .black → n = m + 1)
    (hred : c = .red → n = m ∧ c' = .black) :
    ∃ t', unlink c child path = some t' ∧ Valid t' := by
  unfold unlink
  cases c with
  | black =>
    obtain rfl := hblack rfl
    exact removeColor_spec (.of_balanced hchild) hpath
  | red =>
    obtain ⟨rfl, rfl⟩ := hred rfl
    exact ⟨_, rfl, hpath.weaken.plug hchild⟩

namespace Cursor

/-- The node and the path to it have their colours right. -/
def Ok (n : Cursor α) : Prop :=
  ∃ m, Balanced (.node n.color n.left n.elm n.right) n.color m ∧ PathOk n.path n.color m

end Cursor

/-- The cursor at the leftmost node is on a right way. -/
theorem leftmost_ok {c : Color} {x : α} {l r : Tree α} {path : List (Frame α)} {n : ℕ}
    (h : Balanced (.node c l x r) c n) (hpath : PathOk path c n) : (leftmost c x r path l).Ok := by
  induction l generalizing c x r path n with
  | nil => exact ⟨n, h, hpath⟩
  | node c' l' x' r' ihl _ =>
    obtain ⟨c₁, m, hl, hdown⟩ := hpath.down (s := .left) h
    obtain ⟨_, _, _, rfl, -⟩ := hl.children
    exact ihl hl hdown

/-- The way to the leftmost node starts at the node the links are followed from. -/
theorem leftmost_append (c : Color) (x : α) (l r : Tree α) (path rest : List (Frame α)) :
    leftmost c x r (path ++ rest) l =
      { leftmost c x r path l with path := (leftmost c x r path l).path ++ rest } := by
  induction l generalizing c x r path with
  | nil => rfl
  | node c' l' x' r' ihl _ => rw [leftmost, leftmost, ← List.cons_append, ihl]

/-- A node can be removed. -/
theorem Cursor.remove_spec {n : Cursor α} (h : n.Ok) : ∃ t', n.remove = some t' ∧ Valid t' := by
  obtain ⟨m, hnode, hpath⟩ := h
  obtain ⟨c, l, x, r, path⟩ := n
  obtain ⟨cl, cr, k, -, hl, hr, hblack, hred⟩ := hnode.children
  have hred' : c = .red → m = k ∧ cr = .black := fun hc => ⟨(hred hc).1, (hred hc).2.2⟩
  have hred'' : c = .red → m = k ∧ cl = .black := fun hc => ⟨(hred hc).1, (hred hc).2.1⟩
  cases l with
  | nil => exact unlink_spec hr hpath hblack hred'
  | node c₁ l₁ x₁ r₁ =>
    cases r with
    | nil => exact unlink_spec hl hpath hblack hred''
    | node c₂ l₂ x₂ r₂ =>
      -- the leftmost node of the right subtree is taken out instead
      set next := leftmost c₂ x₂ r₂ [] l₂ with hnext
      have hnode' :
          Balanced (build .right c (.node c₂ l₂ x₂ r₂) next.elm (.node c₁ l₁ x₁ r₁)) c m := by
        cases hnode with
        | red hl hr => exact .red hl hr
        | black hl hr => exact .black hl hr
      have happ := leftmost_append c₂ x₂ l₂ r₂ [] (⟨.right, c, next.elm, .node c₁ l₁ x₁ r₁⟩ :: path)
      rw [List.nil_append, ← hnext] at happ
      obtain ⟨c', m', hr', hdown⟩ := hpath.down hnode'
      obtain ⟨_, _, _, rfl, -⟩ := hr'.children
      obtain ⟨k', hlast, hpath'⟩ := leftmost_ok hr' hdown
      rw [happ] at hlast hpath'
      obtain ⟨_, cr', j, -, -, hchild, hblack', hred₁⟩ := hlast.children
      exact unlink_spec hchild hpath' hblack' fun hc => ⟨(hred₁ hc).1, (hred₁ hc).2.2⟩

/-- The cursor at an element that is found is on a right way. -/
theorem locate_ok {p : α → Bool} {t : Tree α} {path : List (Frame α)} {n : Cursor α} {c : Color}
    {m : ℕ} (ht : Balanced t c m) (hpath : PathOk path c m) (hloc : locate p t path = some n) :
    n.Ok := by
  induction t generalizing path c m with
  | nil => cases hloc
  | node c' l x r ihl ihr =>
    obtain ⟨_, _, _, rfl, -⟩ := ht.children
    obtain ⟨cl, ml, hl, hleft⟩ := hpath.down (s := .left) ht
    obtain ⟨cr, mr, hr, hright⟩ := hpath.down (s := .right) ht
    rw [locate] at hloc
    split at hloc
    · rename_i hfound
      obtain rfl := Option.some.inj hloc
      exact ihl hl hleft hfound
    · split_ifs at hloc
      · obtain rfl := Option.some.inj hloc
        exact ⟨m, ht, hpath⟩
      · exact ihr hr hright hloc

/-- Removing an element that is there gives a tree with its colours right. -/
theorem remove_balanced {p : α → Bool} {t : Tree α} (h : Valid t) (hp : ∃ x ∈ inorder t, p x) :
    ∃ t', remove p t = some t' ∧ Valid t' := by
  obtain ⟨n, ht⟩ := h
  obtain ⟨x, hx, hpx⟩ := hp
  unfold remove
  cases hloc : locate p t [] with
  | none => exact absurd hpx (locate_eq_none.mp hloc x hx)
  | some cur => exact Cursor.remove_spec (locate_ok ht .root hloc)

/-! ## Heights -/

/-- A balanced tree has many elements. -/
theorem two_pow_le {t : Tree α} {c : Color} {n : ℕ} (h : Balanced t c n) :
    2 ^ n ≤ (inorder t).length + 1 := by
  induction h with
  | nil => simp
  | red _ _ ihl ihr =>
    simp only [inorder_node, List.length_append, List.length_cons]
    omega
  | black _ _ ihl ihr =>
    simp only [inorder_node, List.length_append, List.length_cons, Nat.pow_succ]
    omega

/-- Every second node of a way is black. -/
theorem height_le_of_balanced {t : Tree α} {c : Color} {n : ℕ} (h : Balanced t c n) :
    t.height ≤ 2 * n + if c = .red then 1 else 0 := by
  induction h with
  | nil => simp [height]
  | red _ _ ihl ihr =>
    simp only [height, reduceCtorEq, if_false, if_true] at ihl ihr ⊢
    omega
  | @black _ _ _ c c' _ _ _ ihl ihr =>
    have hle : ∀ c : Color, (if c = .red then 1 else 0) ≤ 1 := fun c => by split <;> simp
    have hl := hle c
    have hr := hle c'
    simp only [height, reduceCtorEq, if_false]
    omega

/-- No way down is longer than twice the logarithm of the number of elements. -/
theorem height_le {t : Tree α} (h : Valid t) :
    t.height ≤ 2 * Nat.log 2 ((inorder t).length + 1) := by
  obtain ⟨n, ht⟩ := h
  have hheight : t.height ≤ 2 * n := by simpa using height_le_of_balanced ht
  have hlog : n ≤ Nat.log 2 ((inorder t).length + 1) :=
    Nat.le_log_of_pow_le (by decide) (two_pow_le ht)
  omega

end RedBlackTree
