import Mathlib.Data.Nat.Digits.Defs
import Mathlib.Data.Nat.Digits.Lemmas
import Mathlib.Tactic.Ring

/-!
# C strings and decimal numbers

A C string is the list of its bytes before the terminating NUL, and a `char *` into it is the
text from there on. This module has the library functions the programs use on such texts:

* `cut c s`, which is `strchr s c` together with the text before the hit and after it;
* `joinWith c`, which puts a separator between the fields of a message;
* `digitText` and `decimal`, the `%u` and `%d` conversions of `printf`;
* `strtol` and `atoi`, with the round trip `atoi_digitText`.

`digitText` is injective on what `strtol` reads: `digitText_digitsValue` recovers a numeral
without leading zeros from its value.
-/

namespace CText

/-- The bytes of a C string before its terminating NUL. -/
abbrev Text := List UInt8

/-- The text of an ASCII string literal. -/
def ascii (s : String) : Text := s.toList.map fun c => UInt8.ofNat c.toNat

/-! ## Searching for a separator -/

/-- The text before the first `c` and the text after it; `none` where `strchr` gives NULL. -/
def cut (c : UInt8) : Text → Option (Text × Text)
  | [] => none
  | b :: bs => if b = c then some ([], bs) else (cut c bs).map fun (x, y) => (b :: x, y)

/-- Cutting at the first separator splits the text there. -/
theorem cut_append {c : UInt8} {x : Text} (hx : c ∉ x) (y : Text) :
    cut c (x ++ c :: y) = some (x, y) := by
  induction x with
  | nil => simp [cut]
  | cons b bs ih =>
    have hb : b ≠ c := fun hb => hx (hb ▸ List.mem_cons_self)
    have hbs : c ∉ bs := fun hc => hx (List.mem_cons_of_mem b hc)
    simp [cut, hb, ih hbs]

/-- What `cut` returns puts the text together again, and the first part has no separator. -/
theorem cut_eq_some {c : UInt8} {s x y : Text} (h : cut c s = some (x, y)) :
    s = x ++ c :: y ∧ c ∉ x := by
  induction s generalizing x y with
  | nil => simp [cut] at h
  | cons b bs ih =>
    by_cases hb : b = c
    · obtain ⟨rfl, rfl⟩ : [] = x ∧ bs = y := by simpa [cut, hb] using h
      simp [hb]
    · obtain ⟨x', hcut, rfl⟩ : ∃ x', cut c bs = some (x', y) ∧ b :: x' = x := by
        simpa [cut, hb] using h
      obtain ⟨rfl, hx'⟩ := ih hcut
      refine ⟨rfl, fun hc => ?_⟩
      rcases List.mem_cons.mp hc with hc | hc
      · exact hb hc.symm
      · exact hx' hc

/-! ## Fields with a separator between them -/

/-- The fields of a message with the separator `c` between them. -/
def joinWith (c : UInt8) : List Text → Text
  | [] => []
  | [x] => x
  | x :: y :: ys => x ++ c :: joinWith c (y :: ys)

/-- The first field is what stands before the first separator. -/
theorem cut_joinWith {c : UInt8} {x y : Text} {ys : List Text} (hx : c ∉ x) :
    cut c (joinWith c (x :: y :: ys)) = some (x, joinWith c (y :: ys)) :=
  cut_append hx _

/-- Every field is as long as its text, and there is a separator before each but the first. -/
theorem length_joinWith (c : UInt8) {xs : List Text} (h : xs ≠ []) :
    (joinWith c xs).length + 1 = (xs.map List.length).sum + xs.length := by
  induction xs with
  | nil => exact absurd rfl h
  | cons x xs ih =>
    cases xs with
    | nil => simp [joinWith]
    | cons y ys =>
      have ih' := ih (by simp)
      simp only [joinWith, List.length_append, List.length_cons, List.map_cons, List.sum_cons]
        at ih' ⊢
      omega

/-! ## Decimal numerals -/

/-- The decimal digits `'0'`..`'9'`. -/
def isDigit (c : UInt8) : Bool := 48 ≤ c && c ≤ 57

/-- The white space `strtol` skips. -/
def isSpace (c : UInt8) : Bool := c == 32 || (9 ≤ c && c ≤ 13)

/-- The character of a digit. -/
def digitChar (d : ℕ) : UInt8 := UInt8.ofNat (48 + d)

/-- The decimal numeral of `n`, as `%u` prints it. -/
def digitText (n : ℕ) : Text :=
  if n = 0 then [48] else ((Nat.digits 10 n).map digitChar).reverse

/-- The decimal numeral of `n`, as `%d` prints it. -/
def decimal : ℤ → Text
  | .ofNat n => digitText n
  | .negSucc n => 45 :: digitText (n + 1)

/-- The value of a string of digits. -/
def digitsValue (ds : Text) : ℕ := ds.foldl (fun acc c => 10 * acc + (c.toNat - 48)) 0

/-- The value of an optional sign and the run of digits behind it. -/
def signedValue : Text → ℤ
  | 45 :: ds => -(digitsValue (ds.takeWhile isDigit) : ℤ)
  | 43 :: ds => digitsValue (ds.takeWhile isDigit)
  | ds => digitsValue (ds.takeWhile isDigit)

/-- `strtol s NULL 10`: white space, an optional sign and the longest run of digits, saturating
at the limits of a 64-bit `long`. -/
def strtol (s : Text) : ℤ := max (-2 ^ 63) (min (2 ^ 63 - 1) (signedValue (s.dropWhile isSpace)))

/-- `atoi s`, that is `(int) strtol (s, NULL, 10)`. -/
def atoi (s : Text) : ℤ := (strtol s).bmod (2 ^ 32)

theorem toNat_digitChar {d : ℕ} (hd : d < 10) : (digitChar d).toNat = 48 + d := by
  simp only [digitChar, UInt8.toNat_ofNat']
  omega

theorem isDigit_digitChar {d : ℕ} (hd : d < 10) : isDigit (digitChar d) = true := by
  have h := toNat_digitChar hd
  simp only [isDigit, Bool.and_eq_true, decide_eq_true_eq, UInt8.le_iff_toNat_le, h]
  exact ⟨by simp, by simp only [UInt8.reduceToNat]; omega⟩

theorem isDigit_iff (c : UInt8) : isDigit c = true ↔ 48 ≤ c.toNat ∧ c.toNat ≤ 57 := by
  simp [isDigit, UInt8.le_iff_toNat_le]

/-- Every character of a numeral is a digit. -/
theorem isDigit_of_mem_digitText {n : ℕ} {c : UInt8} (hc : c ∈ digitText n) :
    isDigit c = true := by
  rw [digitText] at hc
  split at hc
  · obtain rfl : c = 48 := by simpa using hc
    decide
  · obtain ⟨d, hd, rfl⟩ := List.mem_map.mp (List.mem_reverse.mp hc)
    exact isDigit_digitChar (Nat.digits_lt_base (by norm_num) hd)

/-- A numeral is not empty. -/
theorem digitText_ne_nil (n : ℕ) : digitText n ≠ [] := by
  rw [digitText]
  split
  · simp
  · rename_i h
    simpa [Nat.digits_ne_nil_iff_ne_zero] using h

/-- A character that is not a digit occurs in no numeral. -/
theorem not_mem_digitText {c : UInt8} (hc : isDigit c = false) (n : ℕ) : c ∉ digitText n := by
  intro h
  rw [isDigit_of_mem_digitText h] at hc
  cases hc

/-- The same for numerals with a sign. -/
theorem not_mem_decimal {c : UInt8} (hc : isDigit c = false) (hsign : c ≠ 45) (n : ℤ) :
    c ∉ decimal n := by
  cases n with
  | ofNat n => exact not_mem_digitText hc n
  | negSucc n =>
    intro h
    rcases List.mem_cons.mp h with h | h
    · exact hsign h
    · exact not_mem_digitText hc (n + 1) h

/-- A numeral has at most `k ≥ 1` characters exactly when the number is below `10 ^ k`. -/
theorem length_digitText_le_iff {n k : ℕ} (hk : 1 ≤ k) :
    (digitText n).length ≤ k ↔ n < 10 ^ k := by
  rw [digitText]
  split
  · rename_i h
    subst h
    simp [hk]
  · rw [List.length_reverse, List.length_map, Nat.digits_length_le_iff (by norm_num)]

/-- A numeral is `"0"` or does not start with a zero. -/
theorem digitText_head (n : ℕ) : digitText n = [48] ∨ (digitText n).head? ≠ some 48 := by
  rw [digitText]
  split
  · exact .inl rfl
  · rename_i hn
    refine .inr fun h => ?_
    have hne : Nat.digits 10 n ≠ [] := Nat.digits_ne_nil_iff_ne_zero.mpr hn
    have hlt : (Nat.digits 10 n).getLast hne < 10 :=
      Nat.digits_lt_base (by norm_num) (List.getLast_mem hne)
    rw [List.head?_reverse, List.getLast?_map, List.getLast?_eq_some_getLast hne,
      Option.map_some, Option.some.injEq, ← UInt8.toNat_inj, toNat_digitChar hlt] at h
    exact Nat.getLast_digit_ne_zero 10 hn (by simpa using h)

/-- Horner's rule over the reversed digit list is `Nat.ofDigits`. -/
theorem digitsValue_reverse_map {L : List ℕ} (hL : ∀ d ∈ L, d < 10) :
    digitsValue (L.map digitChar).reverse = Nat.ofDigits 10 L := by
  rw [digitsValue, List.foldl_reverse]
  induction L with
  | nil => rfl
  | cons d ds ih =>
    have hd := toNat_digitChar (hL d List.mem_cons_self)
    have ih' := ih fun e he => hL e (List.mem_cons_of_mem d he)
    rw [List.map_cons, List.foldr_cons, ih', hd, Nat.ofDigits_cons]
    rw [Nat.add_sub_cancel_left]
    omega

/-- Reading a numeral gives the number back. -/
@[simp]
theorem digitsValue_digitText (n : ℕ) : digitsValue (digitText n) = n := by
  rw [digitText]
  split
  · rename_i h
    subst h
    rfl
  · rw [digitsValue_reverse_map fun d hd => Nat.digits_lt_base (by norm_num) hd,
      Nat.ofDigits_digits]

theorem digitText_injective : Function.Injective digitText := fun m n h => by
  rw [← digitsValue_digitText m, h, digitsValue_digitText]

/-- A numeral tells the number and its sign. -/
theorem decimal_injective : Function.Injective decimal := by
  have hsign : ∀ m n : ℕ, digitText m ≠ 45 :: digitText (n + 1) := fun m n h =>
    not_mem_digitText (c := 45) (by decide) m (h ▸ List.mem_cons_self)
  intro m n h
  cases m with
  | ofNat m =>
    cases n with
    | ofNat n => exact congrArg Int.ofNat (digitText_injective h)
    | negSucc n => exact absurd h (hsign m n)
  | negSucc m =>
    cases n with
    | ofNat n => exact absurd h.symm (hsign n m)
    | negSucc n =>
      have hsucc := digitText_injective (List.cons.inj h).2
      rw [Nat.succ.inj hsucc]

/-- A non-empty string of digits without a leading zero is the numeral of its value. -/
theorem digitText_digitsValue {s : Text} (hd : ∀ c ∈ s, isDigit c = true) (hne : s ≠ [])
    (hzero : s = [48] ∨ s.head? ≠ some 48) : digitText (digitsValue s) = s := by
  rcases hzero with rfl | hzero
  · rfl
  -- The digits of `s`, least significant first.
  obtain ⟨L, hL, rfl⟩ : ∃ L : List ℕ, (∀ d ∈ L, d < 10) ∧ (L.map digitChar).reverse = s := by
    refine ⟨(s.map fun c => c.toNat - 48).reverse, fun d hd' => ?_, ?_⟩
    · obtain ⟨c, hc, rfl⟩ := List.mem_map.mp (List.mem_reverse.mp hd')
      have := (isDigit_iff c).mp (hd c hc)
      omega
    · have hchar : ∀ c ∈ s, (digitChar ∘ fun c => c.toNat - 48) c = id c := by
        intro c hc
        have hc' := (isDigit_iff c).mp (hd c hc)
        apply UInt8.toNat_inj.mp
        rw [Function.comp_apply, toNat_digitChar (by omega), id_eq]
        omega
      rw [List.map_reverse, List.reverse_reverse, List.map_map, List.map_congr_left hchar,
        List.map_id]
  have hLne : L ≠ [] := by
    rintro rfl
    exact hne rfl
  have hlast : ∀ h : L ≠ [], L.getLast h ≠ 0 := by
    intro h h0
    apply hzero
    rw [List.head?_reverse, List.getLast?_map, List.getLast?_eq_some_getLast h, h0]
    rfl
  have hval := digitsValue_reverse_map hL
  have hdigits : Nat.digits 10 (Nat.ofDigits 10 L) = L :=
    Nat.digits_ofDigits 10 (by norm_num) L hL hlast
  have hpos : Nat.ofDigits 10 L ≠ 0 := by
    intro h0
    rw [h0, Nat.digits_zero] at hdigits
    exact hLne hdigits.symm
  rw [hval, digitText, if_neg hpos, hdigits]

/-! ## Reading numerals -/

/-- Reading a numeral that a non-digit follows gives the number, as long as it fits a `long`. -/
theorem strtol_digitText_append {n : ℕ} (hn : n < 2 ^ 63) {s : Text}
    (hs : ∀ c, s.head? = some c → isDigit c = false) : strtol (digitText n ++ s) = n := by
  obtain ⟨c, cs, hcs⟩ := List.exists_cons_of_ne_nil (digitText_ne_nil n)
  have hc : isDigit c = true := isDigit_of_mem_digitText (by rw [hcs]; exact List.mem_cons_self)
  have hrange := (isDigit_iff c).mp hc
  have hspace : isSpace c = false := by
    simp only [isSpace, Bool.or_eq_false_iff, beq_eq_false_iff_ne, Bool.and_eq_false_iff,
      decide_eq_false_iff_not, UInt8.le_iff_toNat_le, ne_eq, ← UInt8.toNat_inj]
    exact ⟨by simp; omega, by simp; omega⟩
  have hdrop : (digitText n ++ s).dropWhile isSpace = digitText n ++ s := by
    rw [hcs, List.cons_append, List.dropWhile_cons_of_neg (by simp [hspace])]
  have htake : (digitText n ++ s).takeWhile isDigit = digitText n := by
    rw [List.takeWhile_append_of_pos fun a ha => isDigit_of_mem_digitText ha]
    cases s with
    | nil => simp
    | cons b bs => simp [hs b rfl]
  -- the text starts with a digit, so there is no sign to read
  have hvalue : signedValue (digitText n ++ s) = n := by
    rw [signedValue]
    · rw [htake, digitsValue_digitText]
    · intro ds h
      rw [hcs] at h
      obtain rfl := (List.cons.inj h).1
      simp at hrange
    · intro ds h
      rw [hcs] at h
      obtain rfl := (List.cons.inj h).1
      simp at hrange
  rw [strtol, hdrop, hvalue]
  omega

/-- `atoi` reads back the numeral of every non-negative `int`. -/
theorem atoi_digitText {n : ℕ} (hn : n < 2 ^ 31) : atoi (digitText n) = n := by
  have h : strtol (digitText n ++ []) = n :=
    strtol_digitText_append (by omega) fun c hc => by simp at hc
  rw [List.append_nil] at h
  rw [atoi, h, Int.bmod_eq_of_le] <;> omega

end CText
