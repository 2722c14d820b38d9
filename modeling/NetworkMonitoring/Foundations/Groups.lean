import Mathlib.Algebra.Ring.Nat
import Mathlib.Data.List.Dedup
import Mathlib.Algebra.BigOperators.Group.List.Lemmas
import Mathlib.Data.List.Induction

/-!
# Grouping by a key

The elements of a list are grouped by a key. `firsts` are the keys in the order in which they first
occur and `group` are the elements that have a key. `OncePerKey` says that some lists are the
groups, each of them once; their lengths then add up to that of the list.

* `firsts_append_singleton`: one more element adds its key, unless the key has occurred;
* `oncePerKey_dropLast_iff`: the groups of all keys but a new one in the last place.
-/

namespace Groups

variable {α κ : Type*} [DecidableEq κ] {key : α → κ} {l : List α} {groups : List (List α)}

/-- The keys of a list in the order of their first elements. -/
def firsts (key : α → κ) (l : List α) : List κ := (l.map key).eraseDups

/-- The elements with a key. -/
def group (key : α → κ) (l : List α) (k : κ) : List α := l.filter fun a => key a = k

/-- Every key has its group once. -/
def OncePerKey (key : α → κ) (l : List α) (groups : List (List α)) : Prop :=
  groups.Perm ((l.map key).dedup.map (group key l))

/-- The key of the last element occurs before; an empty list has no such element. -/
def LastRepeats (key : α → κ) (l : List α) : Prop :=
  ∀ a ∈ l.getLast?, key a ∈ l.dropLast.map key

instance : Decidable (LastRepeats key l) :=
  inferInstanceAs (Decidable (∀ a ∈ l.getLast?, _))

@[simp]
theorem firsts_nil : firsts key [] = [] := rfl

theorem mem_firsts {k : κ} : k ∈ firsts key l ↔ k ∈ l.map key := List.mem_eraseDups

/-- One more element adds its key, unless the key has occurred. -/
theorem firsts_append_singleton (a : α) :
    firsts key (l ++ [a]) =
      firsts key l ++ if key a ∈ l.map key then [] else [key a] := by
  rw [firsts, List.map_append, List.eraseDups_append]
  congr 1
  by_cases h : key a ∈ l.map key
  · rw [if_pos h, List.map_singleton, List.removeAll, List.filter_cons_of_neg (by simpa using h)]
    rfl
  · rw [if_neg h, List.map_singleton, List.removeAll, List.filter_cons_of_pos (by simpa using h)]
    rfl

/-- The first key, and those that come up behind it. -/
theorem firsts_cons (a : α) :
    firsts key (a :: l) = key a :: firsts key (l.filter fun b => key b ≠ key a) := by
  have hfilter : (l.map key).filter (fun k => !k == key a)
      = (l.filter fun b => key b ≠ key a).map key := by
    rw [List.filter_map]
    congr 1
    apply List.filter_congr
    intro b _
    rw [Function.comp_apply, decide_not, beq_eq_decide]
  rw [firsts, List.map_cons, List.eraseDups_cons, hfilter, firsts]

theorem nodup_firsts (l : List α) : (firsts key l).Nodup := by
  induction l using List.reverseRecOn with
  | nil => exact List.nodup_nil
  | append_singleton l a ih =>
    rw [firsts_append_singleton]
    split
    · rwa [List.append_nil]
    · next h => exact List.nodup_append.mpr ⟨ih, List.nodup_singleton _, fun k hk k' hk' heq =>
        h (mem_firsts.mp (List.mem_singleton.mp hk' ▸ heq ▸ hk))⟩

theorem mem_group {k : κ} {a : α} : a ∈ group key l k ↔ a ∈ l ∧ key a = k := by
  rw [group, List.mem_filter, decide_eq_true_iff]

/-- An element with another key is in no group but its own. -/
theorem group_cons_of_ne {a : α} {k : κ} (h : key a ≠ k) : group key (a :: l) k = group key l k := by
  rw [group, List.filter_cons_of_neg (by simpa using h), group]

theorem group_cons_self (a : α) : group key (a :: l) (key a) = a :: group key l (key a) := by
  rw [group, List.filter_cons_of_pos (by simp), group]

/-- The group of a key that has not occurred starts at its first element. -/
theorem group_append_cons {pre post : List α} {a : α} (h : key a ∉ pre.map key) :
    group key (pre ++ a :: post) (key a) = a :: group key post (key a) := by
  have hpre : pre.filter (fun b => key b = key a) = [] := List.filter_eq_nil_iff.mpr fun b hb heq =>
    h (List.mem_map.mpr ⟨b, hb, of_decide_eq_true heq⟩)
  rw [group, List.filter_append, hpre, List.nil_append, List.filter_cons_of_pos (by simp)]
  rfl

/-- The number of the groups. -/
theorem OncePerKey.length_eq (h : OncePerKey key l groups) :
    groups.length = (l.map key).dedup.length := by
  rw [List.Perm.length_eq h, List.length_map]

/-- The groups have all elements. -/
theorem OncePerKey.sum_length (h : OncePerKey key l groups) :
    (groups.map List.length).sum = l.length := by
  have hcount : (List.length ∘ group key l) = fun k => (l.map key).count k := by
    funext k
    rw [Function.comp_apply, group, ← List.countP_eq_length_filter, List.count, List.countP_map]
    rfl
  rw [(h.map List.length).sum_eq, List.map_map, hcount, List.sum_map_count_dedup_eq_length,
    List.length_map]

/-- The groups of the keys that occur before the last place are all groups, unless the last element
has a new key. -/
theorem oncePerKey_dropLast_iff :
    OncePerKey key l ((firsts key l.dropLast).map (group key l)) ↔ LastRepeats key l := by
  refine ⟨fun h a ha => ?_, fun h => ?_⟩
  · have hlast : a ∈ l := List.mem_of_getLast? ha
    have hgroup : group key l (key a) ∈ (l.map key).dedup.map (group key l) :=
      List.mem_map_of_mem (List.mem_dedup.mpr (List.mem_map_of_mem hlast))
    -- its group is that of an earlier key, which is therefore its own
    obtain ⟨k, hk, heq⟩ := List.mem_map.mp (h.mem_iff.mpr hgroup)
    have hmem : a ∈ group key l k := heq ▸ mem_group.mpr ⟨hlast, rfl⟩
    exact (mem_group.mp hmem).2 ▸ mem_firsts.mp hk
  · refine ((List.perm_ext_iff_of_nodup (nodup_firsts _) (List.nodup_dedup _)).mpr
      fun k => ?_).map _
    rw [mem_firsts, List.mem_dedup]
    refine ⟨fun hk => ?_, fun hk => ?_⟩
    · exact List.map_subset _ (List.dropLast_subset l) hk
    · obtain ⟨a, ha, rfl⟩ := List.mem_map.mp hk
      rcases List.eq_nil_or_concat l with rfl | ⟨pre, b, rfl⟩
      · cases ha
      · rw [List.concat_eq_append] at ha h ⊢
        rcases List.mem_append.mp ha with ha | ha
        · rw [List.dropLast_concat]
          exact List.mem_map_of_mem ha
        · rw [List.mem_singleton.mp ha]
          exact h b (List.getLast?_concat)

end Groups
