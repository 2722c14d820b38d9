import Mathlib.Data.List.TakeWhile
import NetworkMonitoring.Foundations.CText

/-!
# Numbers at the start of a text

`strtol` with the pointer it returns. `readNumber` gives the exact number that a text starts with
and the text behind it; the value of `strtol` is that number, held to the limits of a `long`
(`strtol_of_readNumber`).

`Numeral` is the grammar of what is read: white space, an optional sign, and digits. A numeral is
read whole when no digit follows it (`readNumber_append`), and nothing else is read
(`numeral_of_readNumber`).
-/

namespace CText

/-- The text behind an optional sign. -/
def dropSign : Text → Text
  | 45 :: ds => ds
  | 43 :: ds => ds
  | ds => ds

/-- The number `strtol s &endp 10` reads, before it is held to the limits of a `long`, and the text
at `endp`; `none` when there is no number to read, and `endp` is `s`. -/
def readNumber (s : Text) : Option (ℤ × Text) :=
  let t := s.dropWhile isSpace
  if (dropSign t).takeWhile isDigit = [] then none
  else some (signedValue t, (dropSign t).dropWhile isDigit)

/-- The number fits a `long`; for another one `strtol` sets `errno` to `ERANGE`. -/
def FitsLong (n : ℤ) : Prop := -2 ^ 63 ≤ n ∧ n < 2 ^ 63

instance (n : ℤ) : Decidable (FitsLong n) := inferInstanceAs (Decidable (_ ∧ _))

/-- The text is a numeral of `n`. -/
inductive Numeral : Text → ℤ → Prop
  | plain {ws ds : Text} (hws : ∀ c ∈ ws, isSpace c = true) (hds : ∀ c ∈ ds, isDigit c = true)
      (hne : ds ≠ []) : Numeral (ws ++ ds) (digitsValue ds)
  | plus {ws ds : Text} (hws : ∀ c ∈ ws, isSpace c = true) (hds : ∀ c ∈ ds, isDigit c = true)
      (hne : ds ≠ []) : Numeral (ws ++ 43 :: ds) (digitsValue ds)
  | minus {ws ds : Text} (hws : ∀ c ∈ ws, isSpace c = true) (hds : ∀ c ∈ ds, isDigit c = true)
      (hne : ds ≠ []) : Numeral (ws ++ 45 :: ds) (-digitsValue ds)

/-- What follows a numeral does not go on with a digit. -/
def Stops (s : Text) : Prop := ∀ c, s.head? = some c → isDigit c = false

theorem stops_nil : Stops [] := by
  intro c hc
  cases hc

theorem stops_cons {c : UInt8} (h : isDigit c = false) (s : Text) : Stops (c :: s) := by
  intro d hd
  rwa [← Option.some.inj hd]

/-- `strtol` gives the number when it fits. -/
theorem strtol_of_readNumber {s rest : Text} {n : ℤ} (h : readNumber s = some (n, rest))
    (hfit : FitsLong n) : strtol s = n := by
  rw [readNumber] at h
  split_ifs at h
  obtain ⟨hn, -⟩ := Prod.mk.inj (Option.some.inj h)
  obtain ⟨hlo, hhi⟩ := hfit
  rw [strtol, hn]
  omega

/-! ## Reading a numeral -/

theorem not_isSpace_of_isDigit {c : UInt8} (h : isDigit c = true) : isSpace c = false := by
  have hrange := (isDigit_iff c).mp h
  simp only [isSpace, Bool.or_eq_false_iff, beq_eq_false_iff_ne, Bool.and_eq_false_iff,
    decide_eq_false_iff_not, UInt8.le_iff_toNat_le, ne_eq, ← UInt8.toNat_inj]
  exact ⟨by simp; omega, by simp; omega⟩

/-- The white space in front of a text that starts with something else. -/
theorem dropWhile_isSpace {ws : Text} (hws : ∀ c ∈ ws, isSpace c = true) {c : UInt8}
    (hc : isSpace c = false) (t : Text) : (ws ++ c :: t).dropWhile isSpace = c :: t := by
  rw [List.dropWhile_append_of_pos hws, List.dropWhile_cons_of_neg (by simp [hc])]

/-- The digits in front of a text that starts with something else. -/
theorem span_isDigit {ds rest : Text} (hds : ∀ c ∈ ds, isDigit c = true) (hrest : Stops rest) :
    (ds ++ rest).takeWhile isDigit = ds ∧ (ds ++ rest).dropWhile isDigit = rest := by
  rw [List.takeWhile_append_of_pos hds, List.dropWhile_append_of_pos hds]
  cases rest with
  | nil => simp
  | cons c rest => simp [hrest c rfl]

/-- Only a minus or a plus is a sign. -/
theorem dropSign_cases (t : Text) :
    (∃ u, t = 45 :: u) ∨ (∃ u, t = 43 :: u) ∨
      (dropSign t = t ∧ signedValue t = digitsValue (t.takeWhile isDigit)) := by
  by_cases hminus : ∃ u, t = 45 :: u
  · exact .inl hminus
  by_cases hplus : ∃ u, t = 43 :: u
  · exact .inr (.inl hplus)
  refine .inr (.inr ⟨?_, ?_⟩)
  · exact dropSign.eq_3 t (fun u h => hminus ⟨u, h⟩) fun u h => hplus ⟨u, h⟩
  · exact signedValue.eq_3 t (fun u h => hminus ⟨u, h⟩) fun u h => hplus ⟨u, h⟩

/-- A numeral is read whole when no digit follows it. -/
theorem readNumber_append {num rest : Text} {n : ℤ} (h : Numeral num n) (hrest : Stops rest) :
    readNumber (num ++ rest) = some (n, rest) := by
  cases h with
  | @plain ws ds hws hds hne =>
    obtain ⟨htake, hdrop⟩ := span_isDigit hds hrest
    obtain ⟨c, cs, rfl⟩ := List.exists_cons_of_ne_nil hne
    have hc : isDigit c = true := hds c List.mem_cons_self
    have hskip := dropWhile_isSpace hws (not_isSpace_of_isDigit hc) (cs ++ rest)
    rw [← List.cons_append] at hskip
    -- a digit is not a sign
    rcases dropSign_cases (c :: cs ++ rest) with ⟨u, hu⟩ | ⟨u, hu⟩ | ⟨hsign, hvalue⟩
    · rw [(List.cons.inj hu).1] at hc
      cases hc
    · rw [(List.cons.inj hu).1] at hc
      cases hc
    · rw [readNumber, List.append_assoc, hskip, hsign, hvalue, htake, hdrop, if_neg hne]
  | @plus ws ds hws hds hne =>
    obtain ⟨htake, hdrop⟩ := span_isDigit hds hrest
    have hskip := dropWhile_isSpace hws (c := 43) (by decide) (ds ++ rest)
    rw [readNumber, List.append_assoc, List.cons_append, hskip, dropSign, signedValue, htake, hdrop,
      if_neg hne]
  | @minus ws ds hws hds hne =>
    obtain ⟨htake, hdrop⟩ := span_isDigit hds hrest
    have hskip := dropWhile_isSpace hws (c := 45) (by decide) (ds ++ rest)
    rw [readNumber, List.append_assoc, List.cons_append, hskip, dropSign, signedValue, htake, hdrop,
      if_neg hne]

/-- What is read is a numeral, and no digit follows it. -/
theorem numeral_of_readNumber {s rest : Text} {n : ℤ} (h : readNumber s = some (n, rest)) :
    ∃ num, s = num ++ rest ∧ Numeral num n ∧ Stops rest := by
  have hws : ∀ c ∈ s.takeWhile isSpace, isSpace c = true := fun c hc => List.mem_takeWhile_imp hc
  have hs : s.takeWhile isSpace ++ s.dropWhile isSpace = s := List.takeWhile_append_dropWhile
  rw [readNumber] at h
  split_ifs at h with hne
  obtain ⟨rfl, rfl⟩ := Prod.mk.inj (Option.some.inj h)
  generalize s.takeWhile isSpace = ws at hws hs
  generalize s.dropWhile isSpace = t at hne hs
  subst hs
  have hds : ∀ c ∈ (dropSign t).takeWhile isDigit, isDigit c = true :=
    fun c hc => List.mem_takeWhile_imp hc
  have hstops : Stops ((dropSign t).dropWhile isDigit) := by
    intro c hc
    have hnot := List.head?_dropWhile_not isDigit (dropSign t)
    rwa [hc] at hnot
  have hspan : (dropSign t).takeWhile isDigit ++ (dropSign t).dropWhile isDigit = dropSign t :=
    List.takeWhile_append_dropWhile
  -- blanks, a sign or none, and the digits up to the first that is none
  rcases dropSign_cases t with ⟨u, rfl⟩ | ⟨u, rfl⟩ | ⟨hsign, hvalue⟩
  · refine ⟨ws ++ 45 :: u.takeWhile isDigit, ?_, .minus hws hds hne, hstops⟩
    rw [List.append_assoc, List.cons_append]
    exact congrArg (ws ++ 45 :: ·) hspan.symm
  · refine ⟨ws ++ 43 :: u.takeWhile isDigit, ?_, .plus hws hds hne, hstops⟩
    rw [List.append_assoc, List.cons_append]
    exact congrArg (ws ++ 43 :: ·) hspan.symm
  · rw [hsign] at hds hne hspan hstops
    rw [hsign, hvalue]
    refine ⟨ws ++ t.takeWhile isDigit, ?_, .plain hws hds hne, hstops⟩
    rw [List.append_assoc, hspan]

/-- A numeral is not empty. -/
theorem Numeral.ne_nil {num : Text} {n : ℤ} (h : Numeral num n) : num ≠ [] := by
  cases h with
  | plain _ _ hne => exact List.append_ne_nil_of_right_ne_nil _ hne
  | plus => exact List.append_ne_nil_of_right_ne_nil _ (List.cons_ne_nil _ _)
  | minus => exact List.append_ne_nil_of_right_ne_nil _ (List.cons_ne_nil _ _)

/-- The text behind the number that was read is shorter. -/
theorem length_lt_of_readNumber {s rest : Text} {n : ℤ} (h : readNumber s = some (n, rest)) :
    rest.length < s.length := by
  obtain ⟨num, rfl, hnum, -⟩ := numeral_of_readNumber h
  have hpos := List.length_pos_iff.mpr hnum.ne_nil
  rw [List.length_append]
  omega

end CText
