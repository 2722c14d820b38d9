import Mathlib.Data.List.Nodup
import Mathlib.Data.List.Pairwise

/-!
# Lists in the order of use

A list that is kept in the order of use has the element that has been used last at its head. A
history is the list of the uses so far, the last one at its end; `Older history x y` says that `y`
has been used since the last use of `x`.

A queue of groups has the groups in this order, and in each group its items; a use is that of an
item, and one of its group.

* `moveToHead_perm`: moving an element to the head keeps the elements;
* `Recent.use`: using the element that stands at the head, or putting it there, keeps the order;
* `Recent.older_getLast`: the last element is the one that is least recently used;
* `Ordered.useHead`, `Ordered.newItem` and `Ordered.newGroup`: what keeps the order of the groups,
  and removes the least recently used one only.
-/

namespace RecencyList

universe u

variable {α : Type u}

/-! ## Moving to the head -/

/-- Move the first element that satisfies `p` to the head. -/
def moveToHead (p : α → Bool) (l : List α) : List α :=
  match l.find? p with
  | none => l
  | some x => x :: l.eraseP p

theorem moveToHead_perm (p : α → Bool) (l : List α) : (moveToHead p l).Perm l := by
  induction l with
  | nil => exact List.Perm.refl _
  | cons y l ih =>
    rw [moveToHead] at ih ⊢
    rw [List.find?_cons]
    cases hy : p y with
    | true =>
      dsimp only
      rw [List.eraseP_cons_of_pos hy]
    | false =>
      dsimp only
      cases hfind : l.find? p with
      | none => exact List.Perm.refl _
      | some x =>
        rw [hfind] at ih
        dsimp only at ih ⊢
        rw [List.eraseP_cons_of_neg (Bool.eq_false_iff.mp hy)]
        exact (List.Perm.swap y x (l.eraseP p)).trans (ih.cons y)

@[simp]
theorem length_moveToHead (p : α → Bool) (l : List α) : (moveToHead p l).length = l.length :=
  (moveToHead_perm p l).length_eq

@[simp]
theorem mem_moveToHead {p : α → Bool} {l : List α} {x : α} : x ∈ moveToHead p l ↔ x ∈ l :=
  (moveToHead_perm p l).mem_iff

/-- The element that is moved stands at the head afterwards. -/
theorem moveToHead_of_find? {p : α → Bool} {l : List α} {x : α} (h : l.find? p = some x) :
    moveToHead p l = x :: l.eraseP p := by
  rw [moveToHead, h]

/-! ## The order of use -/

/-- The last use of `x` is older than the last use of `y`. -/
def Older (history : List α) (x y : α) : Prop :=
  ∃ before after, history = before ++ after ∧ y ∈ after ∧ x ∉ after

/-- The list is in the order of use. -/
def Recent (history : List α) (l : List α) : Prop := l.Pairwise fun y x => Older history x y

theorem Recent.nil (history : List α) : Recent history [] := List.Pairwise.nil

/-- What is used is younger than everything else. -/
theorem older_append_self (history : List α) {x y : α} (h : x ≠ y) :
    Older (history ++ [y]) x y :=
  ⟨history, [y], rfl, List.mem_singleton_self y, fun hx => h (List.mem_singleton.mp hx)⟩

/-- A use of another element leaves an element old. -/
theorem Older.append {history : List α} {x y z : α} (h : Older history x y) (hx : x ≠ z) :
    Older (history ++ [z]) x y := by
  obtain ⟨before, after, rfl, hy, hnot⟩ := h
  refine ⟨before, after ++ [z], List.append_assoc _ _ _, List.mem_append_left _ hy, fun hmem => ?_⟩
  exact (List.mem_append.mp hmem).elim hnot fun hz => hx (List.mem_singleton.mp hz)

/-- No element is older than itself. -/
theorem not_older_self (history : List α) (x : α) : ¬ Older history x x := by
  rintro ⟨before, after, -, hy, hnot⟩
  exact hnot hy

/-- Of two elements at most one is older. -/
theorem Older.asymm {history : List α} {x y : α} (h : Older history x y) :
    ¬ Older history y x := by
  obtain ⟨before, after, rfl, hy, hx⟩ := h
  rintro ⟨before', after', heq, hx', hy'⟩
  -- one of the two ends of the history is an end of the other one
  rcases List.append_eq_append_iff.mp heq with ⟨rest, -, rfl⟩ | ⟨rest, -, rfl⟩
  · exact hx (List.mem_append_right rest hx')
  · exact hy' (List.mem_append_right rest hy)

variable {history l : List α} {x : α}

/-- Dropping elements keeps the order. -/
theorem Recent.sublist (h : Recent history l) {l' : List α} (hl : l'.Sublist l) :
    Recent history l' :=
  List.Pairwise.sublist hl h

/-- So does using an element that is not in the list. -/
theorem Recent.other (h : Recent history l) (hx : x ∉ l) : Recent (history ++ [x]) l := by
  refine List.Pairwise.imp_of_mem (fun {y z} _ hz hold => ?_) h
  exact Older.append hold fun heq => hx (heq ▸ hz)

/-- Using an element puts it at the head. -/
theorem Recent.use (h : Recent history l) (hx : x ∉ l) : Recent (history ++ [x]) (x :: l) := by
  refine List.pairwise_cons.mpr ⟨fun y hy => older_append_self history ?_, h.other hx⟩
  rintro rfl
  exact hx hy

/-- The last element is the one that is least recently used. -/
theorem Recent.older_getLast (h : Recent history l) {y : α} (hy : l.getLast? = some y) {z : α}
    (hz : z ∈ l) (hne : z ≠ y) : Older history y z := by
  obtain ⟨l', rfl⟩ := List.getLast?_eq_some_iff.mp hy
  have hmem : z ∈ l' :=
    (List.mem_append.mp hz).resolve_right fun h => hne (List.mem_singleton.mp h)
  exact (List.pairwise_append.mp h).2.2 z hmem y (List.mem_singleton_self y)

/-- What has been used stands at the head, if it is in the list. -/
theorem Recent.head_of_use {y : α} (h : Recent (history ++ [x]) (y :: l)) (hx : x ∈ y :: l) :
    y = x := by
  rcases List.mem_cons.mp hx with heq | hx
  · exact heq.symm
  · by_contra hne
    exact ((List.pairwise_cons.mp h).1 x hx).asymm (older_append_self history hne)

/-! ## Groups -/

/-- The list, with or without its last element. -/
def Shortened (l kept : List α) : Prop := kept = l ∨ kept = l.dropLast

theorem Shortened.sublist {kept : List α} (h : Shortened l kept) : kept.Sublist l := by
  rcases h with rfl | rfl
  · exact List.Sublist.refl _
  · exact List.dropLast_sublist _

theorem Shortened.map {β : Type*} {kept : List α} (h : Shortened l kept) (f : α → β) :
    Shortened (l.map f) (kept.map f) := by
  rcases h with rfl | rfl
  · exact .inl rfl
  · exact .inr List.map_dropLast

/-- What a shortened list has lost is what is least recently used. -/
theorem Recent.older_of_shortened (h : Recent history l) {kept : List α} (hkept : Shortened l kept)
    {v : α} (hv : v ∈ l) (hlost : v ∉ kept) {z : α} (hz : z ∈ l) (hne : z ≠ v) :
    Older history v z := by
  rcases hkept with rfl | rfl
  · exact absurd hv hlost
  · have hnil : l ≠ [] := List.ne_nil_of_mem hv
    have hlast : l.getLast? = some v := by
      rw [← List.dropLast_concat_getLast hnil, List.mem_append, List.mem_singleton] at hv
      rw [List.getLast?_eq_some_getLast hnil, hv.resolve_left hlost]
    exact h.older_getLast hlast hz hne

theorem Recent.nodup (h : Recent history l) : l.Nodup := by
  refine List.Pairwise.imp ?_ h
  rintro y x hold rfl
  exact not_older_self history y hold

section Groups

variable {β : Type u}

/-- The items of a group. -/
def items (g : α × List β) : List (α × β) := g.2.map (g.1, ·)

/-- The groups are in the order of use, and so are the items of each of them. -/
structure Ordered (history : List (α × β)) (q : List (α × List β)) : Prop where
  groups : Recent (history.map Prod.fst) (q.map Prod.fst)
  items : ∀ g ∈ q, Recent history (items g)

/-- A group that is there no more is the least recently used one, and so is an item that is missing
in a group. -/
structure EvictsOldest (history : List (α × β)) (q q' : List (α × List β)) : Prop where
  groups : ∀ v ∈ q.map Prod.fst, v ∉ q'.map Prod.fst → ∀ z ∈ q.map Prod.fst, z ≠ v →
    Older (history.map Prod.fst) v z
  items : ∀ g ∈ q, ∀ g' ∈ q', g'.1 = g.1 → ∀ v ∈ g.2, v ∉ g'.2 → ∀ z ∈ g.2, z ≠ v →
    Older history (g.1, v) (g.1, z)

variable {history : List (α × β)} {q pre post kept : List (α × List β)} {a : α} {b : β}
  {bs ks : List β}

theorem Ordered.nil : Ordered ([] : List (α × β)) [] where
  groups := Recent.nil _
  items := fun _ h => absurd h List.not_mem_nil

/-- Groups with one name are one. -/
theorem Ordered.group_inj (h : Ordered history q) {g g' : α × List β} (hg : g ∈ q) (hg' : g' ∈ q)
    (heq : g'.1 = g.1) : g' = g :=
  List.inj_on_of_nodup_map h.groups.nodup hg' hg heq

theorem Ordered.sublist (h : Ordered history q) (hq : kept.Sublist q) : Ordered history kept where
  groups := h.groups.sublist (hq.map Prod.fst)
  items := fun g hg => h.items g (hq.subset hg)

/-- The item that is used stands at the head of its group, and the group in front of the others. -/
theorem Ordered.put (h : Ordered history q) (ha : a ∉ q.map Prod.fst)
    (hks : Recent history (RecencyList.items (a, ks))) (hb : b ∉ ks) :
    Ordered (history ++ [(a, b)]) ((a, b :: ks) :: q) where
  groups := by
    rw [List.map_append, List.map_singleton, List.map_cons]
    exact h.groups.use ha
  items := by
    intro g hg
    rcases List.mem_cons.mp hg with rfl | hg
    · refine hks.use fun hmem => ?_
      obtain ⟨c, hc, heq⟩ := List.mem_map.mp hmem
      exact hb ((Prod.mk.inj heq).2 ▸ hc)
    · refine (h.items g hg).other fun hmem => ?_
      obtain ⟨c, hc, heq⟩ := List.mem_map.mp hmem
      exact ha (List.mem_map.mpr ⟨g, hg, (Prod.mk.inj heq).1⟩)

/-- An item that stands there already may be used again. -/
theorem Ordered.useHead (h : Ordered history ((a, b :: bs) :: q)) :
    Ordered (history ++ [(a, b)]) ((a, b :: bs) :: q) := by
  have hitems := h.items _ List.mem_cons_self
  have hnodup := hitems.nodup.of_map
  refine (h.sublist (List.sublist_cons_self _ q)).put (List.nodup_cons.mp h.groups.nodup).1 ?_
    (List.nodup_cons.mp hnodup).1
  exact hitems.sublist (List.sublist_cons_self _ _)

/-- Nothing is missing when nothing changes. -/
theorem Ordered.evictsOldest_self (h : Ordered history q) : EvictsOldest history q q where
  groups := fun _ hv hlost => absurd hv hlost
  items := by
    intro g hg g' hg' heq v hv hlost
    rw [h.group_inj hg hg' heq] at hlost
    exact absurd hv hlost

/-- A new item is put into a group, in the place of its last one or not. -/
theorem Ordered.newItem (h : Ordered history (pre ++ (a, bs) :: post)) (hb : b ∉ bs)
    (hks : Shortened bs ks) :
    Ordered (history ++ [(a, b)]) ((a, b :: ks) :: (pre ++ post)) ∧
      EvictsOldest history (pre ++ (a, bs) :: post) ((a, b :: ks) :: (pre ++ post)) := by
  have hmem : (a, bs) ∈ pre ++ (a, bs) :: post := by simp
  have hitems := h.items _ hmem
  have hsub : (pre ++ post).Sublist (pre ++ (a, bs) :: post) :=
    (List.sublist_cons_self _ post).append_left pre
  have ha : a ∉ (pre ++ post).map Prod.fst := by
    have hnodup := h.groups.nodup
    rw [List.map_append, List.map_cons, List.nodup_middle, List.nodup_cons] at hnodup
    rw [List.map_append]
    exact hnodup.1
  refine ⟨(h.sublist hsub).put ha (hitems.sublist (hks.sublist.map _)) fun hmem =>
    hb (hks.sublist.subset hmem), ?_, ?_⟩
  · intro v hv hlost
    refine absurd ?_ hlost
    simpa [or_left_comm] using hv
  · intro g hg g' hg' heq v hv hlost z hz hne
    -- only the last item of the group can be missing
    rcases List.mem_cons.mp hg' with rfl | hg'
    · obtain rfl : (a, bs) = g := h.group_inj hg hmem heq
      refine hitems.older_of_shortened (hks.map _) (List.mem_map_of_mem hv) ?_
        (List.mem_map_of_mem hz) fun heq => hne (Prod.mk.inj heq).2
      intro hmem
      obtain ⟨c, hc, heq⟩ := List.mem_map.mp hmem
      exact hlost (List.mem_cons_of_mem b ((Prod.mk.inj heq).2 ▸ hc))
    · rw [h.group_inj hg (hsub.subset hg') heq] at hlost
      exact absurd hv hlost

/-- A new group is put in front of the others, in the place of the last one or not. -/
theorem Ordered.newGroup (h : Ordered history q) (ha : a ∉ q.map Prod.fst)
    (hkept : Shortened q kept) :
    Ordered (history ++ [(a, b)]) ((a, [b]) :: kept) ∧
      EvictsOldest history q ((a, [b]) :: kept) := by
  have hsub := hkept.sublist
  refine ⟨(h.sublist hsub).put (fun hmem => ha ((hsub.map _).subset hmem)) (Recent.nil _)
    List.not_mem_nil, ?_, ?_⟩
  · intro v hv hlost z hz hne
    exact h.groups.older_of_shortened (hkept.map _) hv
      (fun hmem => hlost (List.mem_cons_of_mem a hmem)) hz hne
  · intro g hg g' hg' heq v hv hlost
    rcases List.mem_cons.mp hg' with rfl | hg'
    · exact absurd (List.mem_map.mpr ⟨g, hg, heq.symm⟩) ha
    · rw [h.group_inj hg (hsub.subset hg') heq] at hlost
      exact absurd hv hlost

end Groups

end RecencyList
