import Mathlib.Algebra.BigOperators.Ring.List
import Mathlib.Data.List.Nodup
import Mathlib.Data.UInt

/-!
# Records with optional fields

A record format may have a word of flags in its header, one for each optional field, and then the
fields whose flags are set, without gaps, in a fixed order. This module is about such formats over
an arbitrary type of fields.

* `pieces` are the bytes of the selected fields and `size` is their number; `cut` finds the bytes
  of one field (`pieces_cut`).
* `has` tells whether the flag of a field is set, and `union` collects flags. `foldl_andNot` and
  `foldl_size` are the loops that clear the flags they have dealt with.
* `Lenses` are the places the fields are stored at in a structure; `Lenses.get_putAll` says what
  is there after a number of fields have been stored.
-/

namespace OptionalFields

universe u v

variable {F : Type u}

/-! ## The bytes of the selected fields -/

section Pieces

variable {α : Type v} (sel : F → Bool) (width : F → ℕ) (content : F → List α)

/-- The contents of the selected fields, one behind the other. -/
def pieces (fs : List F) : List α := (fs.filter sel).flatMap content

/-- The room the selected fields take. -/
def size (fs : List F) : ℕ := ((fs.filter sel).map width).sum

variable {sel width content}

/-- No fields have no content. -/
@[simp]
theorem pieces_nil : pieces sel content [] = [] := rfl

/-- No fields have no size. -/
@[simp]
theorem size_nil : size sel width [] = 0 := rfl

/-- A field that is there stands in front. -/
theorem pieces_cons_of_pos {f : F} (h : sel f = true) (fs : List F) :
    pieces sel content (f :: fs) = content f ++ pieces sel content fs := by
  rw [pieces, List.filter_cons_of_pos h, List.flatMap_cons, pieces]

/-- A field that is not there has no content. -/
theorem pieces_cons_of_neg {f : F} (h : ¬ sel f = true) (fs : List F) :
    pieces sel content (f :: fs) = pieces sel content fs := by
  rw [pieces, List.filter_cons_of_neg h, pieces]

/-- The width of a field that is there counts. -/
theorem size_cons_of_pos {f : F} (h : sel f = true) (fs : List F) :
    size sel width (f :: fs) = width f + size sel width fs := by
  rw [size, List.filter_cons_of_pos h, List.map_cons, List.sum_cons, size]

/-- That of a field that is not there does not. -/
theorem size_cons_of_neg {f : F} (h : ¬ sel f = true) (fs : List F) :
    size sel width (f :: fs) = size sel width fs := by
  rw [size, List.filter_cons_of_neg h, size]

/-- The size of two lists of fields. -/
theorem size_append (fs gs : List F) :
    size sel width (fs ++ gs) = size sel width fs + size sel width gs := by
  rw [size, List.filter_append, List.map_append, List.sum_append, size, size]

/-- The contents have the size of the fields. -/
theorem length_pieces (hwidth : ∀ f, (content f).length = width f) (fs : List F) :
    (pieces sel content fs).length = size sel width fs := by
  rw [pieces, List.length_flatMap, size, funext hwidth]

/-- Only the contents of the fields of the list matter. -/
theorem pieces_congr {content' : F → List α} {fs : List F}
    (h : ∀ f ∈ fs, sel f = true → content f = content' f) :
    pieces sel content fs = pieces sel content' fs := by
  refine List.flatMap_congr fun f hf => ?_
  obtain ⟨hmem, hsel⟩ := List.mem_filter.mp hf
  exact h f hmem hsel

/-- The size depends on the fields that are there. -/
theorem size_sel_congr {sel' : F → Bool} {fs : List F} (h : ∀ f ∈ fs, sel f = sel' f) :
    size sel width fs = size sel' width fs := by
  rw [size, List.filter_congr h, size]

/-- When every width is a multiple of a number, so is the size. -/
theorem dvd_size {d : ℕ} (hd : ∀ f, d ∣ width f) (fs : List F) : d ∣ size sel width fs := by
  refine List.dvd_sum fun n hn => ?_
  obtain ⟨f, -, rfl⟩ := List.mem_map.mp hn
  exact hd f

/-- The size is largest when all fields are selected. -/
theorem size_le (fs : List F) : size sel width fs ≤ (fs.map width).sum := by
  induction fs with
  | nil => exact le_rfl
  | cons f fs ih =>
    rw [List.map_cons, List.sum_cons]
    by_cases h : sel f = true
    · rw [size_cons_of_pos h]
      omega
    · rw [size_cons_of_neg h]
      omega

end Pieces

section Cut

variable {α : Type v} [DecidableEq F] (sel : F → Bool) (width : F → ℕ)

/-- Where a field starts. -/
def start : List F → F → ℕ
  | [], _ => 0
  | f :: fs, g =>
    if f = g then 0 else (if sel f = true then width f else 0) + start fs g

/-- The bytes of a field in a byte string. -/
def cut (fs : List F) (bs : List α) (g : F) : List α :=
  (bs.drop (start sel width fs g)).take (width g)

variable {sel width}

/-- A selected field ends where the size allows it to. -/
theorem start_add_le {fs : List F} {g : F} (hg : g ∈ fs) (hsel : sel g = true) :
    start sel width fs g + width g ≤ size sel width fs := by
  induction fs with
  | nil => exact absurd hg List.not_mem_nil
  | cons f fs ih =>
    by_cases hfg : f = g
    · subst hfg
      rw [start, if_pos rfl, size_cons_of_pos hsel]
      omega
    · have hmem : g ∈ fs := (List.mem_cons.mp hg).resolve_left (Ne.symm hfg)
      rw [start, if_neg hfg]
      have := ih hmem
      by_cases hf : sel f = true
      · rw [if_pos hf, size_cons_of_pos hf]
        omega
      · rw [if_neg hf, size_cons_of_neg hf]
        omega

/-- The last of the selected fields ends where the size says. -/
theorem size_le_of_start_add_le {fs : List F} (hnodup : fs.Nodup) {n : ℕ}
    (h : ∀ f ∈ fs, sel f = true → start sel width fs f + width f ≤ n) :
    size sel width fs ≤ n := by
  induction fs generalizing n with
  | nil => exact Nat.zero_le n
  | cons f fs ih =>
    obtain ⟨hf, hnodup'⟩ := List.nodup_cons.mp hnodup
    -- the places of the other fields, counted from the start of the record
    have htail : ∀ g ∈ fs, sel g = true →
        (if sel f = true then width f else 0) + start sel width fs g + width g ≤ n := by
      intro g hg hsel
      have hfg : f ≠ g := by
        rintro rfl
        exact hf hg
      have hend := h g (List.mem_cons_of_mem f hg) hsel
      rwa [start, if_neg hfg] at hend
    by_cases hsel : sel f = true
    · have hhead := h f List.mem_cons_self hsel
      rw [start, if_pos rfl] at hhead
      have hrest : size sel width fs ≤ n - width f := by
        refine ih hnodup' fun g hg hg' => ?_
        have hend := htail g hg hg'
        rw [if_pos hsel] at hend
        omega
      rw [size_cons_of_pos hsel]
      omega
    · rw [size_cons_of_neg hsel]
      refine ih hnodup' fun g hg hg' => ?_
      have hend := htail g hg hg'
      rwa [if_neg hsel, Nat.zero_add] at hend

/-- A field of the list starts behind the fields before it. -/
theorem cut_cons_of_ne {f g : F} (hfg : f ≠ g) (fs : List F) (bs : List α) :
    cut sel width (f :: fs) bs g =
      cut sel width fs (bs.drop (if sel f = true then width f else 0)) g := by
  rw [cut, start, if_neg hfg, cut, List.drop_drop]

/-- What stands behind a field does not matter. -/
theorem cut_append {fs : List F} {g : F} {bs : List α}
    (h : start sel width fs g + width g ≤ bs.length) (rest : List α) :
    cut sel width fs (bs ++ rest) g = cut sel width fs bs g := by
  rw [cut, cut, List.drop_append_of_le_length (by omega), List.take_append_of_le_length]
  rw [List.length_drop]
  omega

/-- Every byte string that is long enough is made of the bytes of the fields. -/
theorem pieces_cut {fs : List F} (hnodup : fs.Nodup) (bs : List α) :
    pieces sel (cut sel width fs bs) fs = bs.take (size sel width fs) := by
  induction fs generalizing bs with
  | nil => rw [pieces_nil, size_nil, List.take_zero]
  | cons f fs ih =>
    obtain ⟨hf, hnodup'⟩ := List.nodup_cons.mp hnodup
    have htail : pieces sel (cut sel width (f :: fs) bs) fs =
        (bs.drop (if sel f = true then width f else 0)).take (size sel width fs) := by
      rw [← ih hnodup']
      refine pieces_congr fun g hg _ => cut_cons_of_ne ?_ fs bs
      rintro rfl
      exact hf hg
    by_cases hsel : sel f = true
    · rw [pieces_cons_of_pos hsel, htail, if_pos hsel, size_cons_of_pos hsel, cut, start,
        if_pos rfl, List.drop_zero, ← List.take_add]
    · rw [pieces_cons_of_neg hsel, htail, if_neg hsel, size_cons_of_neg hsel, List.drop_zero]

end Cut

/-! ## Flags -/

section Flags

/-- Clearing bits that are not set changes nothing. -/
theorem andNot_of_disjoint {m a : UInt32} (h : m &&& a = 0) : m &&& ~~~a = m := by
  have hm : m.toBitVec &&& a.toBitVec = 0#32 := congrArg UInt32.toBitVec h
  have hsplit : m.toBitVec = m.toBitVec &&& (a.toBitVec ||| ~~~a.toBitVec) := by
    rw [BitVec.or_not_self, BitVec.and_allOnes]
  apply UInt32.toBitVec_inj.mp
  rw [UInt32.toBitVec_and, UInt32.toBitVec_not]
  conv_rhs => rw [hsplit, BitVec.and_or_distrib_left, hm, BitVec.zero_or]

/-- Clearing bits one after the other is clearing them at once. -/
theorem andNot_andNot (m a b : UInt32) : m &&& ~~~a &&& ~~~b = m &&& ~~~(a ||| b) := by
  apply UInt32.toBitVec_inj.mp
  simp only [UInt32.toBitVec_and, UInt32.toBitVec_not, UInt32.toBitVec_or]
  rw [BitVec.not_or, BitVec.and_assoc]

/-- A word has none of two sets of bits. -/
theorem and_or_eq_zero {m a b : UInt32} (ha : m &&& a = 0) (hb : m &&& b = 0) :
    m &&& (a ||| b) = 0 := by
  apply UInt32.toBitVec_inj.mp
  rw [UInt32.toBitVec_and, UInt32.toBitVec_or, BitVec.and_or_distrib_left, ← UInt32.toBitVec_and,
    ← UInt32.toBitVec_and, ha, hb]
  rfl

/-- A word that has none of the bits of two sets has none of either. -/
theorem and_eq_zero_of_or {m a b : UInt32} (h : m &&& (a ||| b) = 0) : m &&& a = 0 ∧ m &&& b = 0 := by
  have hbits : m.toBitVec &&& a.toBitVec ||| m.toBitVec &&& b.toBitVec = 0#32 := by
    rw [← BitVec.and_or_distrib_left]
    exact congrArg UInt32.toBitVec h
  obtain ⟨ha, hb⟩ := BitVec.or_eq_zero_iff.mp hbits
  exact ⟨UInt32.toBitVec_inj.mp ha, UInt32.toBitVec_inj.mp hb⟩

/-- The fields whose flags are set in a word. -/
def has (mask : F → UInt32) (fields : UInt32) (f : F) : Bool := fields &&& mask f != 0

/-- The flags of a list of fields. -/
def union (mask : F → UInt32) (fs : List F) : UInt32 := fs.foldr (fun f m => mask f ||| m) 0

variable {mask : F → UInt32}

/-- A field is there when its bits are. -/
theorem has_eq_true {fields : UInt32} {f : F} : has mask fields f = true ↔ fields &&& mask f ≠ 0 :=
  bne_iff_ne

/-- A field is not there when none of its bits is. -/
theorem has_eq_false {fields : UInt32} {f : F} :
    ¬ has mask fields f = true ↔ fields &&& mask f = 0 := by
  rw [has_eq_true, not_not]

/-- A word that has none of the flags of a list. -/
theorem and_union_eq_zero {m : UInt32} {fs : List F} (h : ∀ f ∈ fs, m &&& mask f = 0) :
    m &&& union mask fs = 0 := by
  induction fs with
  | nil => exact UInt32.and_zero
  | cons f fs ih =>
    exact and_or_eq_zero (h f List.mem_cons_self) (ih fun g hg => h g (List.mem_cons_of_mem f hg))

/-- Clearing other flags leaves a field as it is. -/
theorem has_andNot {m : UInt32} {f : F} (hdisj : mask f &&& m = 0) (fields : UInt32) :
    has mask (fields &&& ~~~m) f = has mask fields f := by
  have hnot : ~~~m &&& mask f = mask f := by
    rw [UInt32.and_comm]
    exact andNot_of_disjoint hdisj
  rw [has, has, UInt32.and_assoc, hnot]

/-- Masking a word with flags that a field has leaves the field as it is. -/
theorem has_and {m : UInt32} {f : F} (hsub : m &&& mask f = mask f) (fields : UInt32) :
    has mask (fields &&& m) f = has mask fields f := by
  rw [has, has, UInt32.and_assoc, hsub]

/-- With the flags of a list cleared, only the other fields are left. -/
theorem has_andNot_union (hdisj : ∀ f g, f ≠ g → mask f &&& mask g = 0) (fields : UInt32)
    (fs : List F) (f : F) :
    has mask (fields &&& ~~~union mask fs) f = true ↔ has mask fields f = true ∧ f ∉ fs := by
  induction fs generalizing fields with
  | nil => simp [union]
  | cons g fs ih =>
    have hsplit : fields &&& ~~~union mask (g :: fs) =
        fields &&& ~~~mask g &&& ~~~union mask fs :=
      (andNot_andNot fields (mask g) (union mask fs)).symm
    rw [hsplit, ih]
    by_cases hfg : f = g
    · subst hfg
      have hzero : fields &&& ~~~mask f &&& mask f = 0 := by
        rw [UInt32.and_assoc, UInt32.not_and_self, UInt32.and_zero]
      refine iff_of_false (fun h => ?_) fun h => h.2 List.mem_cons_self
      exact has_eq_true.mp h.1 hzero
    · rw [has_andNot (hdisj f g hfg), List.mem_cons, not_or, and_iff_right hfg]

/-- Setting a flag that is set changes nothing. -/
theorem or_eq_self_of_has {k : ℕ} {fields : UInt32} {f : F}
    (hbit : (mask f).toBitVec = BitVec.twoPow 32 k) (h : has mask fields f = true) :
    fields ||| mask f = fields := by
  have hne : fields.toBitVec &&& (mask f).toBitVec ≠ 0#32 :=
    fun hzero => has_eq_true.mp h (UInt32.toBitVec_inj.mp hzero)
  have hself : fields.toBitVec &&& (mask f).toBitVec = (mask f).toBitVec := by
    rw [hbit, BitVec.and_twoPow] at hne ⊢
    by_cases hk : fields.toBitVec.getLsbD k = true
    · rw [if_pos hk]
    · exact absurd (if_neg hk) hne
  refine UInt32.toBitVec_inj.mp ?_
  rw [UInt32.toBitVec_or, ← hself]
  refine BitVec.eq_of_getElem_eq fun i hi => ?_
  rw [BitVec.getElem_or, BitVec.getElem_and]
  cases fields.toBitVec[i] <;> rfl

/-- The loop that clears the flags it has dealt with clears all flags of its list. -/
theorem foldl_andNot {fields : UInt32} {fs : List F} (m : UInt32)
    (hm : ∀ f ∈ fs, fields &&& mask f = 0 → m &&& mask f = 0) :
    fs.foldl (fun m f => if has mask fields f = true then m &&& ~~~mask f else m) m =
      m &&& ~~~union mask fs := by
  induction fs generalizing m with
  | nil => simp [union]
  | cons f fs ih =>
    have hstep : (if has mask fields f = true then m &&& ~~~mask f else m) = m &&& ~~~mask f := by
      by_cases h : has mask fields f = true
      · rw [if_pos h]
      · rw [if_neg h, andNot_of_disjoint (hm f List.mem_cons_self (has_eq_false.mp h))]
    have hrest : ∀ g ∈ fs, fields &&& mask g = 0 → m &&& ~~~mask f &&& mask g = 0 := by
      intro g hg hzero
      rw [UInt32.and_assoc, UInt32.and_comm (~~~mask f), ← UInt32.and_assoc,
        hm g (List.mem_cons_of_mem f hg) hzero, UInt32.zero_and]
    rw [List.foldl_cons, hstep, ih _ hrest, andNot_andNot]
    rfl

/-- The loop that adds up the widths of the fields and clears their flags. -/
theorem foldl_size {width : F → ℕ} {fs : List F}
    (hdisj : fs.Pairwise fun f g => mask f &&& mask g = 0) (n : ℕ) (m : UInt32) :
    fs.foldl (fun s f =>
        if has mask s.2 f = true then (s.1 + width f, s.2 &&& ~~~mask f) else s) (n, m) =
      (n + size (has mask m) width fs, m &&& ~~~union mask fs) := by
  induction fs generalizing n m with
  | nil => simp [union]
  | cons f fs ih =>
    obtain ⟨hf, hdisj'⟩ := List.pairwise_cons.mp hdisj
    have hunion : m &&& ~~~mask f &&& ~~~union mask fs = m &&& ~~~union mask (f :: fs) :=
      andNot_andNot m (mask f) (union mask fs)
    rw [List.foldl_cons]
    by_cases h : has mask m f = true
    · have hsel : ∀ g ∈ fs, has mask (m &&& ~~~mask f) g = has mask m g := by
        intro g hg
        refine has_andNot ?_ m
        rw [UInt32.and_comm]
        exact hf g hg
      rw [if_pos h, ih hdisj', hunion, size_sel_congr hsel, size_cons_of_pos h, Nat.add_assoc]
    · have hm : m &&& ~~~mask f = m := andNot_of_disjoint (has_eq_false.mp h)
      rw [if_neg h, ih hdisj', size_cons_of_neg h, ← hunion, hm]

end Flags

/-! ## Where the fields are stored -/

section Lenses

variable {S : Type v} {B : Type*}

/-- The fields are stored at different places of a structure. A field has a place for some values
only. -/
structure Lenses (get : S → F → B) (put : S → F → B → S) (fits : F → B → Prop) : Prop where
  get_put : ∀ s f b, fits f b → get (put s f b) f = b
  get_put_of_ne : ∀ s b {f g}, f ≠ g → get (put s f b) g = get s g

/-- Store a number of fields. -/
def putAll (put : S → F → B → S) (content : F → B) (fs : List F) (s : S) : S :=
  fs.foldl (fun s f => put s f (content f)) s

variable {get : S → F → B} {put : S → F → B → S} {fits : F → B → Prop} {content : F → B}

/-- What is stored in the end is what has been put there. -/
theorem Lenses.get_putAll [DecidableEq F] (h : Lenses get put fits) {fs : List F}
    (hfits : ∀ f ∈ fs, fits f (content f)) (s : S) (g : F) :
    get (putAll put content fs s) g = if g ∈ fs then content g else get s g := by
  induction fs generalizing s with
  | nil => rw [if_neg List.not_mem_nil, putAll, List.foldl_nil]
  | cons f fs ih =>
    have ih' := ih (fun x hx => hfits x (List.mem_cons_of_mem f hx)) (put s f (content f))
    rw [putAll] at ih'
    rw [putAll, List.foldl_cons, ih']
    by_cases hg : g ∈ fs
    · rw [if_pos hg, if_pos (List.mem_cons_of_mem f hg)]
    · rw [if_neg hg]
      by_cases hfg : f = g
      · subst hfg
        rw [if_pos List.mem_cons_self, h.get_put _ _ _ (hfits f List.mem_cons_self)]
      · have hcons : g ∉ f :: fs := fun hmem =>
          hg ((List.mem_cons.mp hmem).resolve_left (Ne.symm hfg))
        rw [if_neg hcons, h.get_put_of_ne _ _ hfg]

/-- Only what is stored matters. -/
theorem putAll_congr (put : S → F → B → S) {content' : F → B} {fs : List F}
    (h : ∀ f ∈ fs, content f = content' f) (s : S) :
    putAll put content fs s = putAll put content' fs s :=
  List.foldl_ext _ _ s fun s' f hf => congrArg (put s' f) (h f hf)

/-- What no field is stored in stays as it is. -/
theorem putAll_frame {T : Type*} (view : S → T) (hview : ∀ s f b, view (put s f b) = view s)
    (content : F → B) (fs : List F) (s : S) : view (putAll put content fs s) = view s := by
  induction fs generalizing s with
  | nil => rfl
  | cons f fs ih =>
    rw [putAll, List.foldl_cons]
    exact (ih _).trans (hview s f (content f))

end Lenses

end OptionalFields
