import Mathlib.Data.List.TakeWhile
import NetworkMonitoring.Foundations.CText

/-!
# Texts of separated fields

A text is split at its first separators: `splitFields c n s` has the fields before each of the first
`n` separators and then the rest of the text, in which there may be more. `behind c k s` is the rest
behind the `k`-th separator, and `getElem?_splitFields` tells the fields by it.

`scanPart` is the scan by which a program looks for one field: it goes from separator to separator,
and takes the rest without looking for another separator when it has come to the last field there
can be. `scanPart_eq` says what it finds.

The number of separators is `s.count c`, and the fields between all of them are `s.splitOn c`.
-/

namespace CText

variable {c : UInt8} {s : Text} {n k : ℕ}

/-! ## The next separator -/

theorem cut_eq_none_iff : cut c s = none ↔ c ∉ s := by
  induction s with
  | nil => simp [cut]
  | cons b bs ih =>
    by_cases hb : b = c
    · simp [cut, hb]
    · simp [cut, hb, ih, Ne.symm hb]

/-- The text before the first separator, if there is one. -/
theorem map_fst_cut : (cut c s).map Prod.fst = if c ∈ s then some (s.takeWhile (· ≠ c)) else none := by
  cases hcut : cut c s with
  | none => rw [if_neg (cut_eq_none_iff.mp hcut)]; rfl
  | some x =>
    obtain ⟨x, y⟩ := x
    obtain ⟨rfl, hx⟩ := cut_eq_some hcut
    rw [if_pos (by simp)]
    have hall : ∀ b ∈ x, decide (b ≠ c) = true := fun b hb =>
      decide_eq_true fun hbc => hx (hbc ▸ hb)
    rw [List.takeWhile_append_of_pos hall]
    simp

/-! ## The rest behind some separators -/

/-- The text behind the first `n` separators. -/
def behind (c : UInt8) : ℕ → Text → Option Text
  | 0, s => some s
  | n + 1, s => (cut c s).bind fun (_, rest) => behind c n rest

@[simp]
theorem behind_zero (s : Text) : behind c 0 s = some s := rfl

theorem behind_succ (n : ℕ) (s : Text) :
    behind c (n + 1) s = (cut c s).bind fun (_, rest) => behind c n rest := rfl

/-- One separator more. -/
theorem behind_succ' (n : ℕ) (s : Text) :
    behind c (n + 1) s = (behind c n s).bind fun t => (cut c t).map Prod.snd := by
  induction n generalizing s with
  | zero => cases h : cut c s <;> simp [behind_succ, h]
  | succ n ih =>
    rw [behind_succ, behind_succ n]
    cases cut c s with
    | none => rfl
    | some x => exact ih x.2

/-- A first character that is no separator is of no consequence. -/
theorem behind_cons_of_ne {b : UInt8} (hb : b ≠ c) (n : ℕ) (s : Text) :
    behind c (n + 1) (b :: s) = behind c (n + 1) s := by
  rw [behind_succ, behind_succ, cut, if_neg hb]
  cases cut c s <;> rfl

/-- One that is a separator counts. -/
theorem behind_cons_self (n : ℕ) (s : Text) : behind c (n + 1) (c :: s) = behind c n s := by
  rw [behind_succ, cut, if_pos rfl]
  rfl

/-- The separators of the rest are those that are left. -/
theorem count_of_behind {t : Text} (h : behind c n s = some t) : s.count c = n + t.count c := by
  induction n generalizing s with
  | zero =>
    obtain rfl := Option.some.inj h
    omega
  | succ n ih =>
    obtain ⟨⟨x, rest⟩, hcut, hrest⟩ := Option.bind_eq_some_iff.mp h
    obtain ⟨rfl, hx⟩ := cut_eq_some hcut
    rw [List.count_append, List.count_cons_self, List.count_eq_zero_of_not_mem hx, ih hrest]
    omega

theorem behind_eq_none_iff : behind c n s = none ↔ s.count c < n := by
  induction n generalizing s with
  | zero => simp
  | succ n ih =>
    rw [behind_succ]
    cases hcut : cut c s with
    | none =>
      have hzero := List.count_eq_zero_of_not_mem (cut_eq_none_iff.mp hcut)
      simp [hzero]
    | some x =>
      obtain ⟨x, rest⟩ := x
      obtain ⟨rfl, hx⟩ := cut_eq_some hcut
      rw [Option.bind_some, ih, List.count_append, List.count_cons_self,
        List.count_eq_zero_of_not_mem hx]
      omega

/-- A text without a separator is a field. -/
theorem takeWhile_of_notMem (h : c ∉ s) : s.takeWhile (· ≠ c) = s :=
  List.takeWhile_eq_self_iff.mpr fun _ hb => decide_eq_true fun hbc => h (hbc ▸ hb)

/-- The fields between all separators. -/
theorem getElem?_splitOn (s : Text) (k : ℕ) :
    (s.splitOn c)[k]? = (behind c k s).map fun t => t.takeWhile (· ≠ c) := by
  induction k generalizing s with
  | zero =>
    cases hcut : cut c s with
    | none =>
      have hc := cut_eq_none_iff.mp hcut
      rw [List.splitOn_eq_singleton hc, behind_zero, Option.map_some, takeWhile_of_notMem hc]
      rfl
    | some x =>
      have hfirst := map_fst_cut (c := c) (s := s)
      obtain ⟨x, rest⟩ := x
      obtain ⟨hs, hx⟩ := cut_eq_some hcut
      rw [hcut, if_pos (by simp [hs])] at hfirst
      rw [behind_zero, Option.map_some, ← hfirst, hs,
        List.splitOn_append_cons_self_of_not_mem hx]
      rfl
  | succ k ih =>
    rw [behind_succ]
    cases hcut : cut c s with
    | none =>
      rw [List.splitOn_eq_singleton (cut_eq_none_iff.mp hcut)]
      rfl
    | some x =>
      obtain ⟨x, rest⟩ := x
      obtain ⟨rfl, hx⟩ := cut_eq_some hcut
      rw [List.splitOn_append_cons_self_of_not_mem hx, List.getElem?_cons_succ, ih]
      rfl

/-! ## The first fields -/

/-- The fields before each of the first `n` separators, and the rest. -/
def splitFields (c : UInt8) : ℕ → Text → List Text
  | 0, s => [s]
  | n + 1, s =>
    match cut c s with
    | none => [s]
    | some (x, rest) => x :: splitFields c n rest

theorem splitFields_ne_nil (n : ℕ) (s : Text) : splitFields c n s ≠ [] := by
  cases n with
  | zero => exact List.cons_ne_nil _ _
  | succ n =>
    unfold splitFields
    split <;> exact List.cons_ne_nil _ _

/-- The text is put together again. -/
theorem joinWith_splitFields (n : ℕ) (s : Text) : joinWith c (splitFields c n s) = s := by
  induction n generalizing s with
  | zero => rfl
  | succ n ih =>
    unfold splitFields
    split
    · rfl
    · rename_i x rest hcut
      obtain ⟨rfl, -⟩ := cut_eq_some hcut
      obtain ⟨y, ys, hfields⟩ := List.exists_cons_of_ne_nil (splitFields_ne_nil (c := c) n rest)
      have hrest := ih rest
      rw [hfields] at hrest ⊢
      exact congrArg (fun t => x ++ c :: t) hrest

/-- There is one field more than there are separators to split at. -/
theorem length_splitFields (n : ℕ) (s : Text) :
    (splitFields c n s).length = min (s.count c) n + 1 := by
  induction n generalizing s with
  | zero => simp [splitFields]
  | succ n ih =>
    unfold splitFields
    split
    · rename_i hcut
      simp [List.count_eq_zero_of_not_mem (cut_eq_none_iff.mp hcut)]
    · rename_i x rest hcut
      obtain ⟨rfl, hx⟩ := cut_eq_some hcut
      rw [List.length_cons, ih, List.count_append, List.count_cons_self,
        List.count_eq_zero_of_not_mem hx]
      omega

/-- A field ends at the next separator, and the last one where the text ends. -/
theorem getElem?_splitFields (n k : ℕ) (s : Text) :
    (splitFields c n s)[k]? =
      if k < n then (s.splitOn c)[k]? else if k = n then behind c n s else none := by
  induction n generalizing k s with
  | zero => cases k <;> simp [splitFields]
  | succ n ih =>
    unfold splitFields
    cases hcut : cut c s with
    | none =>
      have hc := cut_eq_none_iff.mp hcut
      have hnone : behind c (n + 1) s = none := by rw [behind_succ, hcut]; rfl
      rw [List.splitOn_eq_singleton hc, hnone, ite_self]
      cases k with
      | zero => rfl
      | succ k => simp
    | some x =>
      obtain ⟨x, rest⟩ := x
      have hsucc : behind c (n + 1) s = behind c n rest := by rw [behind_succ, hcut]; rfl
      obtain ⟨rfl, hx⟩ := cut_eq_some hcut
      rw [List.splitOn_append_cons_self_of_not_mem hx, hsucc]
      cases k with
      | zero => rfl
      | succ k =>
        simp only [List.getElem?_cons_succ, ih, Nat.add_lt_add_iff_right, Nat.add_right_cancel_iff]

/-! ## Scanning for a field -/

/-- The scan for the field number `i + n`, `n` separators on, when `last` is the last field there
can be. -/
def scanPart (c : UInt8) (last i : ℕ) : ℕ → Text → Option Text
  | 0, rest => if i = last then some rest else (cut c rest).map fun (part, _) => part
  | n + 1, rest =>
    if i = last then some rest
    else (cut c rest).bind fun (_, rest) => scanPart c last (i + 1) n rest

/-- The scan finds the text behind `n` separators, up to another one if it is not the last. -/
theorem scanPart_eq {last i : ℕ} (hle : i + n ≤ last) (s : Text) :
    scanPart c last i n s = if i + n = last then behind c n s
      else (behind c n s).bind fun t => (cut c t).map Prod.fst := by
  induction n generalizing i s with
  | zero => rfl
  | succ n ih =>
    rw [scanPart, if_neg (by omega), behind_succ]
    cases cut c s with
    | none => simp
    | some x =>
      have hnext := ih (show i + 1 + n ≤ last by omega) x.2
      rw [show i + 1 + n = i + (n + 1) by omega] at hnext
      exact hnext

/-! ## Reading a field -/

/-- A reader that starts its scan for a field behind the first character of the text, and takes the
first field from a search of its own. It has no result (`none`) when the text ends where it goes on
reading; `some none` is its error. -/
def readPart (c : UInt8) (last : ℕ) (s : Text) (k : ℕ) : Option (Option Text) :=
  if k ≤ last then
    if k = 0 then (cut c s).map fun (part, _) => some part
    else
      match s with
      | [] => none
      | _ :: rest => some (scanPart c last 0 k rest)
  else some none

/-- When the reader is right about field `k`. The first field needs a separator behind it. So does
any other but the last there can be, which the text may end with. Behind a leading separator the
reader is one field ahead, so that the next field has to be there and to be the same. -/
def ReadsPart (c : UInt8) (last : ℕ) (s : Text) (k : ℕ) : Prop :=
  if k = 0 then c ∈ s
  else if last < k then True
  else s ≠ [] ∧
    if s.head? = some c then
      k ≤ s.count c → k < last ∧ k + 2 ≤ s.count c ∧ (s.splitOn c)[k]? = (s.splitOn c)[k + 1]?
    else k < last → s.count c ≠ k

/-- A field with a separator behind it is found without one. -/
theorem bind_map_fst_cut_iff (o : Option Text) :
    (o.bind fun t => (cut c t).map Prod.fst) = o.map (fun t => t.takeWhile (· ≠ c)) ↔
      ∀ t, o = some t → c ∈ t := by
  cases o with
  | none => simp
  | some t =>
    rw [Option.bind_some, Option.map_some, map_fst_cut]
    by_cases hc : c ∈ t <;> simp [hc]

/-- A separator is left when there are more than have been passed. -/
theorem mem_of_behind_iff {t : Text} (h : behind c n s = some t) : c ∈ t ↔ n < s.count c := by
  rw [count_of_behind h, ← List.count_pos_iff]
  omega

/-- No leading separator: the scan finds the field unless it is the last of the text. -/
theorem scanPart_cons_of_ne {b : UInt8} {last : ℕ} (hb : b ≠ c) (hk : k ≠ 0) (hle : k ≤ last)
    (rest : Text) :
    scanPart c last 0 k rest = (splitFields c last (b :: rest))[k]? ↔
      (k < last → (b :: rest).count c ≠ k) := by
  obtain ⟨k, rfl⟩ := Nat.exists_eq_succ_of_ne_zero hk
  rw [scanPart_eq (by omega), getElem?_splitFields, Nat.zero_add, Nat.succ_eq_add_one,
    ← behind_cons_of_ne hb]
  -- below the last field there can be, the scan wants a separator behind the field
  rcases hle.lt_or_eq with hlt | heq
  · rw [if_neg hlt.ne, if_pos hlt, getElem?_splitOn, bind_map_fst_cut_iff, imp_iff_right hlt]
    cases hrest : behind c (k + 1) (b :: rest) with
    | none =>
      have hcount := behind_eq_none_iff.mp hrest
      exact iff_of_true (fun _ h => nomatch h) (by omega)
    | some t =>
      have hcount := count_of_behind hrest
      simp only [Option.some.injEq, forall_eq']
      rw [mem_of_behind_iff hrest]
      omega
  · subst heq
    rw [if_pos rfl, if_neg (lt_irrefl _), if_pos rfl]
    exact iff_of_true rfl fun hlt => absurd hlt (lt_irrefl _)

/-- A leading separator: the scan is one field ahead. -/
theorem scanPart_cons_self {last : ℕ} (hle : k ≤ last) (rest : Text) :
    scanPart c last 0 k rest = (splitFields c last (c :: rest))[k]? ↔
      (k ≤ (c :: rest).count c → k < last ∧ k + 2 ≤ (c :: rest).count c ∧
        ((c :: rest).splitOn c)[k]? = ((c :: rest).splitOn c)[k + 1]?) := by
  rw [scanPart_eq (by omega), getElem?_splitFields, Nat.zero_add, ← behind_cons_self k rest,
    getElem?_splitOn, getElem?_splitOn]
  generalize c :: rest = s
  rw [behind_succ' k s]
  cases hk : behind c k s with
  | none =>
    -- there is no such field, and none is found
    have hcount := behind_eq_none_iff.mp hk
    refine iff_of_true ?_ fun hle => absurd hle (by omega)
    rcases hle.lt_or_eq with hlt | rfl
    · rw [if_neg hlt.ne, if_pos hlt]
      rfl
    · rw [if_pos rfl, if_neg (lt_irrefl _), if_pos rfl, hk]
      rfl
  | some t =>
    have hcount := count_of_behind hk
    rw [imp_iff_right (by omega), Option.bind_some, Option.map_some]
    -- the scan returns the next field, which has to be there and to be the same
    rcases hle.lt_or_eq with hlt | rfl
    · rw [if_neg hlt.ne, if_pos hlt, and_iff_right hlt]
      cases hcut : cut c t with
      | none => simp
      | some x =>
        obtain ⟨x, t'⟩ := x
        have hnext : behind c (k + 1) s = some t' := by rw [behind_succ', hk]; simp [hcut]
        have hmem := mem_of_behind_iff hnext
        simp only [Option.map_some, Option.bind_some, map_fst_cut, hmem, Option.some.injEq]
        split_ifs with hmore
        · rw [and_iff_right (by omega), Option.some.injEq]
          exact eq_comm
        · exact iff_of_false (fun h => nomatch h) fun h => by omega
    · -- the last field goes to the end of the text, and the scan leaves some of it out
      rw [if_pos rfl, if_neg (lt_irrefl _), if_pos rfl, hk]
      refine iff_of_false (fun h => ?_) fun h => lt_irrefl _ h.1
      obtain ⟨⟨x, t'⟩, hcut, rfl⟩ := Option.map_eq_some_iff.mp h
      have hlen := congrArg List.length (cut_eq_some hcut).1
      simp only [List.length_append, List.length_cons] at hlen
      omega

/-- The reader is right about a field exactly in these cases. -/
theorem readPart_eq_iff {last : ℕ} (hlast : 0 < last) (s : Text) (k : ℕ) :
    readPart c last s k = some (splitFields c last s)[k]? ↔ ReadsPart c last s k := by
  unfold readPart ReadsPart
  -- the first field is read up to the first separator, and lost without one
  by_cases hk : k = 0
  · subst hk
    rw [if_pos (Nat.zero_le _), if_pos rfl, if_pos rfl, getElem?_splitFields, if_pos hlast,
      getElem?_splitOn, behind_zero, Option.map_some]
    have hfirst : ((cut c s).map fun (part, _) => some part) = ((cut c s).map Prod.fst).map some := by
      rw [Option.map_map]
      rfl
    rw [hfirst, map_fst_cut]
    by_cases hc : c ∈ s <;> simp [hc]
  rw [if_neg hk, if_neg hk]
  by_cases hle : k ≤ last
  · rw [if_pos hle, if_neg (not_lt.mpr hle)]
    cases s with
    | nil => simp
    | cons b rest =>
      rw [and_iff_right (List.cons_ne_nil b rest), List.head?_cons]
      simp only [Option.some.injEq]
      -- a separator in front of all shifts the fields by one
      by_cases hb : b = c
      · subst hb
        rw [if_pos rfl]
        exact scanPart_cons_self hle rest
      · rw [if_neg hb]
        exact scanPart_cons_of_ne hb hk hle rest
  · have hlt := not_le.mp hle
    rw [if_neg hle, if_pos hlt, getElem?_splitFields, if_neg (by omega), if_neg (by omega)]
    exact iff_of_true rfl trivial

end CText
