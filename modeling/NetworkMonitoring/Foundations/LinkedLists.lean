import Mathlib.Data.List.Basic
import Mathlib.Logic.Function.Basic

/-!
# Singly linked lists in a heap

A heap maps the addresses of its nodes to an item and the address of the next node.
`Segment h p xs q` says that the nodes `xs`, each with its address and its item, are linked from `p`
to `q`; a list is a segment that ends in a null address.

* `Segment.congr`: a segment depends on its own nodes only;
* `Segment.concat`: a new node behind the last one;
* `Segment.inside`: the node in the middle of a segment, and what is behind it;
* `lastAddress`: the address of the last node, or the null address.
-/

namespace LinkedLists

variable {α β : Type*}

/-- A node with its item and the address of the next node. -/
structure Node (α β : Type*) where
  item : β
  next : α

/-- The nodes by their addresses. -/
abbrev Heap (α β : Type*) := α → Option (Node α β)

/-- The nodes `xs` are linked from `p` to `q`. -/
def Segment (h : Heap α β) (p : α) : List (α × β) → α → Prop
  | [], q => p = q
  | (a, b) :: xs, q => p = a ∧ ∃ n, h a = some ⟨b, n⟩ ∧ Segment h n xs q

variable {h h' : Heap α β} {p q a : α} {b : β} {xs ys : List (α × β)}

@[simp]
theorem segment_nil : Segment h p [] q ↔ p = q := Iff.rfl

@[simp]
theorem segment_cons :
    Segment h p ((a, b) :: xs) q ↔ p = a ∧ ∃ n, h a = some ⟨b, n⟩ ∧ Segment h n xs q := Iff.rfl

/-- A segment of two parts. -/
theorem segment_append :
    Segment h p (xs ++ ys) q ↔ ∃ m, Segment h p xs m ∧ Segment h m ys q := by
  induction xs generalizing p with
  | nil =>
    refine ⟨fun hys => ⟨p, rfl, hys⟩, ?_⟩
    rintro ⟨m, rfl, hys⟩
    exact hys
  | cons x xs ih =>
    obtain ⟨a, b⟩ := x
    rw [List.cons_append, segment_cons]
    refine ⟨?_, ?_⟩
    · rintro ⟨rfl, n, hn, hrest⟩
      obtain ⟨m, hxs, hys⟩ := ih.mp hrest
      exact ⟨m, ⟨rfl, n, hn, hxs⟩, hys⟩
    · rintro ⟨m, ⟨rfl, n, hn, hxs⟩, hys⟩
      exact ⟨rfl, n, hn, ih.mpr ⟨m, hxs, hys⟩⟩

/-- The node in the middle of a segment, and what is behind it. -/
theorem Segment.inside (hs : Segment h p (xs ++ (a, b) :: ys) q) :
    ∃ n, h a = some ⟨b, n⟩ ∧ Segment h n ys q := by
  obtain ⟨m, -, hm⟩ := segment_append.mp hs
  exact (segment_cons.mp hm).2

/-- The nodes of a segment are in the heap. -/
theorem Segment.ne_none (hs : Segment h p xs q) (ha : a ∈ xs.map Prod.fst) : h a ≠ none := by
  obtain ⟨⟨a', b⟩, hx, rfl⟩ := List.mem_map.mp ha
  obtain ⟨pre, post, rfl⟩ := List.append_of_mem hx
  obtain ⟨n, hn, -⟩ := hs.inside
  rw [hn]
  exact Option.some_ne_none _

/-- A segment depends on its own nodes only. -/
theorem Segment.congr (hs : Segment h p xs q) (heq : ∀ a ∈ xs.map Prod.fst, h' a = h a) :
    Segment h' p xs q := by
  induction xs generalizing p with
  | nil => exact hs
  | cons x xs ih =>
    obtain ⟨a, b⟩ := x
    obtain ⟨rfl, n, hn, hrest⟩ := segment_cons.mp hs
    exact ⟨rfl, n, (heq p List.mem_cons_self).trans hn,
      ih hrest fun a ha => heq a (List.mem_cons_of_mem _ ha)⟩

/-- The address of the first node. -/
theorem Segment.start (hs : Segment h p xs q) : p = (xs.map Prod.fst).headD q := by
  cases xs with
  | nil => exact hs
  | cons x xs => exact (segment_cons.mp hs).1

/-- A list is empty when its address is null. -/
theorem Segment.start_eq_iff (hs : Segment h p xs q) (hq : h q = none) : p = q ↔ xs = [] := by
  refine ⟨?_, ?_⟩
  · rintro rfl
    cases xs with
    | nil => rfl
    | cons x xs =>
      obtain ⟨hp, n, hn, -⟩ := segment_cons.mp hs
      rw [← hp, hq] at hn
      cases hn
  · rintro rfl
    exact hs

/-- The address of the last node, or the null address. -/
def lastAddress (null : α) (xs : List (α × β)) : α := (xs.map Prod.fst).getLastD null

@[simp]
theorem lastAddress_nil (null : α) : lastAddress null ([] : List (α × β)) = null := rfl

@[simp]
theorem lastAddress_concat (null : α) (xs : List (α × β)) (x : α × β) :
    lastAddress null (xs ++ [x]) = x.1 := by
  rw [lastAddress, List.map_append, List.map_singleton, List.getLastD_concat]

theorem lastAddress_cons_of_ne_nil (null : α) {xs : List (α × β)} (hne : xs ≠ [])
    (x : α × β) : lastAddress null (x :: xs) = lastAddress null xs := by
  rcases List.eq_nil_or_concat xs with rfl | ⟨xs, y, rfl⟩
  · exact absurd rfl hne
  · rw [List.concat_eq_append, ← List.cons_append, lastAddress_concat, lastAddress_concat]

/-- The last address of a list is null only when the list is empty. -/
theorem Segment.lastAddress_eq_iff {null : α} (hs : Segment h p (xs ++ ys) q)
    (hnull : h null = none) : lastAddress null xs = null ↔ xs = [] := by
  rcases List.eq_nil_or_concat xs with rfl | ⟨xs, x, rfl⟩
  · simp
  · rw [List.concat_eq_append] at hs ⊢
    rw [lastAddress_concat]
    refine ⟨fun heq => absurd (heq ▸ hnull) (hs.ne_none ?_), fun hnil => ?_⟩
    · simp
    · exact absurd hnil (List.append_ne_nil_of_right_ne_nil _ (List.cons_ne_nil _ _))

variable [DecidableEq α]

/-- An update elsewhere leaves a segment as it is. -/
theorem Segment.update (hs : Segment h p xs q) {a : α} (ha : a ∉ xs.map Prod.fst)
    (v : Option (Node α β)) : Segment (Function.update h a v) p xs q :=
  hs.congr fun a' ha' => Function.update_of_ne (fun heq : a' = a => ha (heq ▸ ha')) _ _

/-- A new node behind the last one. -/
theorem Segment.concat {new : α} (hs : Segment h p (xs ++ [(a, b)]) q)
    (hnodup : ((xs ++ [(a, b)]).map Prod.fst).Nodup) (hnew : h new = none) (b' : β) :
    Segment (Function.update (Function.update h a (some ⟨b, new⟩)) new (some ⟨b', q⟩)) p
      (xs ++ [(a, b)] ++ [(new, b')]) q := by
  have hne : ∀ a' ∈ (xs ++ [(a, b)]).map Prod.fst, a' ≠ new := fun a' ha' heq =>
    hs.ne_none ha' (heq ▸ hnew)
  obtain ⟨m, hxs, hm⟩ := segment_append.mp hs
  obtain ⟨rfl, n, hn, hnext⟩ := segment_cons.mp hm
  have ha : m ∉ xs.map Prod.fst := by
    rw [List.map_append] at hnodup
    exact fun hmem => (List.nodup_append.mp hnodup).2.2 m hmem m List.mem_cons_self rfl
  refine segment_append.mpr ⟨new, segment_append.mpr ⟨m, ?_, rfl, new, ?_, rfl⟩, rfl, q, ?_, rfl⟩
  · refine (hxs.update ha _).update (fun hmem => hne new ?_ rfl) _
    rw [List.map_append]
    exact List.mem_append_left _ hmem
  · rw [Function.update_of_ne (hne m (by simp)), Function.update_self]
  · rw [Function.update_self]

end LinkedLists
