import Mathlib.Data.List.Pairwise
import Mathlib.Data.List.Nodup
import Mathlib.Data.List.Perm.Basic
import Mathlib.Order.Compare

/-!
# Ordered sets under a three-way comparison

A balanced search tree instantiated with a comparison function, seen as the list of its nodes in
traversal order. `insert` leaves the set as it is when an equal element is present, as the tree
macros do; `find` returns the element equal to the one asked for.

* `Sorted cmp l`: the traversal is strictly increasing.
* `insert_perm` and `sorted_insert`: inserting an element equal to no present one adds exactly
  that element and keeps the traversal increasing.
* `find_eq_none`: a failed search means that no element is equal.
* `find?_key_eq` and `perm_cons_filter_ne`: following the address of a node finds that node, and
  removing a node by its address removes exactly that node.
* `OrdersBy cmp key`: the comparison is a strict total order of the keys of the elements.
-/

namespace OrderedSet

variable {α : Type*}

/-- The traversal `l` is strictly increasing under `cmp`. -/
def Sorted (cmp : α → α → Ordering) (l : List α) : Prop :=
  l.Pairwise fun a b => cmp a b = .lt

/-- Add `x` to the set, unless an element equal to `x` is already there. -/
def insert (cmp : α → α → Ordering) (x : α) : List α → List α
  | [] => [x]
  | y :: ys =>
    match cmp x y with
    | .lt => x :: y :: ys
    | .eq => y :: ys
    | .gt => y :: insert cmp x ys

/-- The element of the set equal to `x`, if there is one. -/
def find (cmp : α → α → Ordering) (x : α) (l : List α) : Option α :=
  l.find? fun y => cmp x y == .eq

variable {cmp : α → α → Ordering}

/-- A failed search means that no element of the set is equal to `x`. -/
theorem find_eq_none {x : α} {l : List α} (h : find cmp x l = none) :
    ∀ y ∈ l, cmp x y ≠ .eq := by
  intro y hy
  have := List.find?_eq_none.mp h y hy
  simpa using this

/-- A successful search returns an element of the set that is equal to `x`. -/
theorem find_eq_some {x y : α} {l : List α} (h : find cmp x l = some y) :
    y ∈ l ∧ cmp x y = .eq := by
  refine ⟨List.mem_of_find?_eq_some h, ?_⟩
  simpa using List.find?_some h

/-- Inserting an element equal to no present one adds exactly that element. -/
theorem insert_perm {x : α} {l : List α} (h : ∀ y ∈ l, cmp x y ≠ .eq) :
    (insert cmp x l).Perm (x :: l) := by
  induction l with
  | nil => exact List.Perm.refl _
  | cons y ys ih =>
    have hys : ∀ z ∈ ys, cmp x z ≠ .eq := fun z hz => h z (List.mem_cons_of_mem y hz)
    rw [insert]
    cases hxy : cmp x y with
    | lt => exact List.Perm.refl _
    | eq => exact absurd hxy (h y List.mem_cons_self)
    | gt => exact ((ih hys).cons y).trans (List.Perm.swap x y ys)

/-- Inserting adds exactly the element, or nothing. -/
theorem insert_perm_or_eq (cmp : α → α → Ordering) (x : α) (l : List α) :
    (insert cmp x l).Perm (x :: l) ∨ insert cmp x l = l := by
  induction l with
  | nil => exact .inl (List.Perm.refl _)
  | cons y ys ih =>
    rw [insert]
    cases cmp x y with
    | lt => exact .inl (List.Perm.refl _)
    | eq => exact .inr rfl
    | gt =>
      rcases ih with hperm | heq
      · exact .inl ((hperm.cons y).trans (List.Perm.swap x y ys))
      · exact .inr (congrArg _ heq)

/-- The elements that were there are still there, in their order. -/
theorem sublist_insert (cmp : α → α → Ordering) (x : α) (l : List α) :
    l.Sublist (insert cmp x l) := by
  induction l with
  | nil => exact List.nil_sublist _
  | cons y ys ih =>
    rw [insert]
    cases cmp x y with
    | lt => exact List.sublist_cons_self x _
    | eq => exact List.Sublist.refl _
    | gt => exact ih.cons_cons y

/-- Inserting adds at most the element. -/
theorem mem_of_mem_insert {x z : α} {l : List α} (h : z ∈ insert cmp x l) : z = x ∨ z ∈ l := by
  rcases insert_perm_or_eq cmp x l with hperm | heq
  · exact List.mem_cons.mp (hperm.subset h)
  · exact .inr (heq ▸ h)

/-- Membership after inserting an element equal to no present one. -/
theorem mem_insert {x z : α} {l : List α} (h : ∀ y ∈ l, cmp x y ≠ .eq) :
    z ∈ insert cmp x l ↔ z = x ∨ z ∈ l := by
  rw [(insert_perm h).mem_iff, List.mem_cons]

/-- Inserting an element equal to no present one keeps the traversal strictly increasing. -/
theorem sorted_insert [Std.TransCmp cmp] {x : α} {l : List α} (hs : Sorted cmp l)
    (h : ∀ y ∈ l, cmp x y ≠ .eq) : Sorted cmp (insert cmp x l) := by
  induction l with
  | nil => exact List.pairwise_singleton _ _
  | cons y ys ih =>
    have hys : ∀ z ∈ ys, cmp x z ≠ .eq := fun z hz => h z (List.mem_cons_of_mem y hz)
    obtain ⟨hy, hrest⟩ := List.pairwise_cons.mp hs
    rw [insert]
    cases hxy : cmp x y with
    | lt =>
      refine List.pairwise_cons.mpr ⟨fun z hz => ?_, hs⟩
      rcases List.mem_cons.mp hz with rfl | hz
      · exact hxy
      · exact Std.TransCmp.lt_trans hxy (hy z hz)
    | eq => exact absurd hxy (h y List.mem_cons_self)
    | gt =>
      refine List.pairwise_cons.mpr ⟨fun z hz => ?_, ih hrest hys⟩
      rcases (mem_insert hys).mp hz with rfl | hz
      · exact Std.OrientedCmp.lt_of_gt hxy
      · exact hy z hz

/-- An element is put between the smaller elements and the greater ones. -/
theorem insert_between {x : α} {l r : List α} (hl : ∀ y ∈ l, cmp x y = .gt)
    (hr : ∀ y ∈ r, cmp x y = .lt) : insert cmp x (l ++ r) = l ++ x :: r := by
  induction l with
  | nil =>
    cases r with
    | nil => rfl
    | cons y r => rw [List.nil_append, insert, hr y List.mem_cons_self, List.nil_append]
  | cons y l ih =>
    rw [List.cons_append, insert, hl y List.mem_cons_self]
    exact congrArg _ (ih fun z hz => hl z (List.mem_cons_of_mem y hz))

/-- Inserting an element that is equal to a present one changes nothing. -/
theorem insert_eq_self [Std.TransCmp cmp] {x y : α} {l : List α} (hs : Sorted cmp l) (hy : y ∈ l)
    (hxy : cmp x y = .eq) : insert cmp x l = l := by
  induction l with
  | nil => cases hy
  | cons z zs ih =>
    obtain ⟨hz, hrest⟩ := List.pairwise_cons.mp hs
    rw [insert]
    rcases List.mem_cons.mp hy with rfl | hy
    · rw [hxy]
    · -- what stands before an equal element is smaller
      have hxz : cmp x z = .gt := by
        rw [Std.TransCmp.congr_left hxy]
        exact Std.OrientedCmp.gt_of_lt (hz y hy)
      rw [hxz]
      exact congrArg _ (ih hrest hy)

/-- Removing elements keeps the traversal strictly increasing. -/
theorem Sorted.filter {l : List α} (hs : Sorted cmp l) (p : α → Bool) :
    Sorted cmp (l.filter p) :=
  List.Pairwise.filter p hs

/-- A set stays sorted when the comparison does not change on its elements. -/
theorem Sorted.congr {cmp' : α → α → Ordering} {l : List α} (hs : Sorted cmp l)
    (h : ∀ a ∈ l, ∀ b ∈ l, cmp' a b = cmp a b) : Sorted cmp' l := by
  refine List.Pairwise.imp_of_mem ?_ hs
  intro a b ha hb hab
  rw [h a ha b hb, hab]

/-- In a list with distinct keys, the elements with another key than `a` are all but `a`. -/
theorem perm_cons_filter_ne {κ : Type*} [DecidableEq κ] {key : α → κ} {l : List α} {a : α}
    (hnd : (l.map key).Nodup) (ha : a ∈ l) : l.Perm (a :: l.filter fun b => key b != key a) := by
  induction l with
  | nil => cases ha
  | cons b bs ih =>
    rw [List.map_cons, List.nodup_cons] at hnd
    rcases List.mem_cons.mp ha with rfl | ha
    · have hrest : bs.filter (fun b => key b != key a) = bs := by
        refine List.filter_eq_self.mpr fun b hb => ?_
        have hne : key b ≠ key a := fun h => hnd.1 (h ▸ List.mem_map_of_mem hb)
        simpa using hne
      rw [List.filter_cons_of_neg (by simp), hrest]
    · have hne : key b ≠ key a := fun h => hnd.1 (h ▸ List.mem_map_of_mem ha)
      rw [List.filter_cons_of_pos (by simpa using hne)]
      exact ((ih hnd.2 ha).cons b).trans (List.Perm.swap a b _)

/-- In a list with distinct keys, only the elements around `a` have another key than `a`. -/
theorem filter_key_ne_middle {κ : Type*} [DecidableEq κ] {key : α → κ} {pre post : List α} {a : α}
    (hnd : ((pre ++ a :: post).map key).Nodup) :
    (pre ++ a :: post).filter (fun b => key b != key a) = pre ++ post := by
  rw [List.map_append, List.map_cons] at hnd
  obtain ⟨-, hpost, hcross⟩ := List.nodup_append.mp hnd
  have hpre : ∀ b ∈ pre, key b ≠ key a := fun b hb =>
    hcross _ (List.mem_map_of_mem hb) _ List.mem_cons_self
  have hpost' : ∀ b ∈ post, key b ≠ key a := fun b hb heq =>
    (List.nodup_cons.mp hpost).1 (heq ▸ List.mem_map_of_mem hb)
  rw [List.filter_append, List.filter_cons_of_neg (by simp),
    List.filter_eq_self.mpr fun b hb => by simpa using hpre b hb,
    List.filter_eq_self.mpr fun b hb => by simpa using hpost' b hb]

/-- In a list with distinct keys, removing the first element with the key of `a` removes all. -/
theorem eraseP_key_eq {κ : Type*} [DecidableEq κ] {key : α → κ} {l : List α} {a : α}
    (hnd : (l.map key).Nodup) (ha : a ∈ l) :
    l.eraseP (fun b => key b == key a) = l.filter fun b => key b != key a := by
  obtain ⟨pre, post, rfl⟩ := List.append_of_mem ha
  have hpre : ∀ b ∈ pre, ¬ (key b == key a) = true := by
    rw [List.map_append, List.map_cons] at hnd
    obtain ⟨-, -, hcross⟩ := List.nodup_append.mp hnd
    intro b hb
    simpa using hcross _ (List.mem_map_of_mem hb) _ List.mem_cons_self
  rw [filter_key_ne_middle hnd, List.eraseP_append_right _ hpre,
    List.eraseP_cons_of_pos (by simp)]

/-- In a list with distinct keys, looking up the key of an element finds that element. -/
theorem find?_key_eq {κ : Type*} [DecidableEq κ] {key : α → κ} {l : List α} {a : α}
    (hnd : (l.map key).Nodup) (ha : a ∈ l) : l.find? (fun b => key b == key a) = some a := by
  obtain ⟨b, hb⟩ : ∃ b, l.find? (fun b => key b == key a) = some b :=
    Option.isSome_iff_exists.mp (List.find?_isSome.mpr ⟨a, ha, by simp⟩)
  have hkey : key b = key a := by simpa using List.find?_some hb
  rw [hb, List.inj_on_of_nodup_map hnd (List.mem_of_find?_eq_some hb) ha hkey]

/-- The comparison is a strict total order, and elements are equal under it when their keys are. -/
structure OrdersBy {κ : Type*} (cmp : α → α → Ordering) (key : α → κ) : Prop where
  antisymm : ∀ a b, cmp a b = .lt ↔ cmp b a = .gt
  trans : ∀ a b c, cmp a b = .lt → cmp b c = .lt → cmp a c = .lt
  total : ∀ a b, key a ≠ key b → cmp a b = .lt ∨ cmp b a = .lt
  eq_iff : ∀ a b, cmp a b = .eq ↔ key a = key b

/-- A lawful comparison orders the elements by whatever tells them apart in the same way. -/
theorem OrdersBy.of_transCmp {κ : Type*} [Std.TransCmp cmp] {key : α → κ}
    (h : ∀ a b, cmp a b = .eq ↔ key a = key b) : OrdersBy cmp key where
  antisymm _ _ := Std.OrientedCmp.gt_iff_lt.symm
  trans _ _ _ := Std.TransCmp.lt_trans
  total a b hne := by
    cases hcmp : cmp a b with
    | lt => exact .inl rfl
    | eq => exact absurd ((h a b).mp hcmp) hne
    | gt => exact .inr (Std.OrientedCmp.lt_of_gt hcmp)
  eq_iff := h

/-- A hand-written comparison of two numbers that falls through to `k` when they are equal is
the first step of a lexicographic order. -/
theorem ite_ne_eq_then {β : Type*} [LE β] [LT β] [Ord β] [Std.LawfulOrd β] [DecidableLT β]
    [DecidableEq β] (x y : β) (k : Ordering) :
    (if x ≠ y then (if x > y then .gt else .lt) else k) = (compare x y).then k := by
  have hlt : ∀ a b : β, compare a b = .lt ↔ a < b := fun a b => Std.LawfulLTCmp.eq_lt_iff_lt
  cases h : compare x y with
  | lt =>
    have hne : x ≠ y := fun he => by simp [he, Std.ReflCmp.compare_self] at h
    have hgt : ¬ y < x := fun hyx => by
      rw [Std.OrientedCmp.gt_of_lt ((hlt y x).mpr hyx)] at h
      cases h
    rw [if_pos hne, if_neg hgt]
    rfl
  | eq =>
    rw [if_neg (not_not.mpr (Std.LawfulEqCmp.eq_of_compare h))]
    rfl
  | gt =>
    have hne : x ≠ y := fun he => by simp [he, Std.ReflCmp.compare_self] at h
    have hgt : y < x := (hlt y x).mp (Std.OrientedCmp.lt_of_gt h)
    rw [if_pos hne, if_pos hgt]
    rfl

end OrderedSet
