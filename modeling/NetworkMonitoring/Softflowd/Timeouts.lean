import NetworkMonitoring.Foundations.Numerals
import NetworkMonitoring.Softflowd.FlowTrack

/-!
# softflowd — the timeouts of the command line

The option `-t name=time` sets a timeout. `convtime` adds up the terms of the time, which are
numbers with a unit behind them, and `set_timeout` stores the sum in an `int`. The products and sums
of `convtime` are taken in a `long`, and one that does not fit is a signed overflow, after which the
program has no meaning: the test for a negative sum comes too late for it. What `set_timeout` stores
is cut off to an `int`.

* `Leads s ts rest`: the terms `ts` stand at the beginning of the text `s`, and `rest` behind them;
* `convtimeExact_iff` and `setTimeoutExact_iff`: when the sum is read exactly or refused.
-/

namespace Softflowd

open CText

/-! ## The functions -/

/-- A result in a `long`; `none` is a signed overflow. -/
def inLong (n : ℤ) : Option ℤ := if FitsLong n then some n else none

/-- The conversion to an `int`. -/
def wrapInt (n : ℤ) : ℤ := n.bmod (2 ^ 32)

/-- The seconds of a unit. -/
def unitSeconds (c : UInt8) : Option ℤ :=
  -- s, S
  if c = 115 ∨ c = 83 then some 1
  -- m, M
  else if c = 109 ∨ c = 77 then some 60
  -- h, H
  else if c = 104 ∨ c = 72 then some (60 * 60)
  -- d, D
  else if c = 100 ∨ c = 68 then some (60 * 60 * 24)
  -- w, W
  else if c = 119 ∨ c = 87 then some (60 * 60 * 24 * 7)
  else none

/-- `switch (*endp++)`: the seconds of the unit and the text behind it. At the end of the text the
number is one of seconds, and `endp` stays. -/
def switchUnit : Text → Option (ℤ × Text)
  | [] => some (1, [])
  | c :: endp => (unitSeconds c).map fun unit => (unit, endp)

/-- A unit is read off the front of the text. -/
theorem length_le_of_switchUnit {endp rest : Text} {unit : ℤ}
    (h : switchUnit endp = some (unit, rest)) : rest.length ≤ endp.length := by
  cases endp with
  | nil =>
    obtain ⟨-, rfl⟩ := Prod.mk.inj (Option.some.inj h)
    exact le_rfl
  | cons c endp =>
    obtain ⟨_, -, hrest⟩ := Option.map_eq_some_iff.mp h
    obtain ⟨-, rfl⟩ := Prod.mk.inj hrest
    exact Nat.le_succ _

/-- The loop of `convtime`; `none` when a product or a sum overflows. -/
def convtimeLoop (total : ℤ) (p : Text) : Option ℤ :=
  if p = [] then some total
  else
    match hread : readNumber p with
    -- `p == endp`
    | none => some (-1)
    | some (n, endp) =>
      let secs := strtol p
      -- `errno` is 0 before the loop, and `ERANGE` for a number that does not fit
      if ¬ FitsLong n ∨ secs < 0 then some (-1)
      else
        match hunit : switchUnit endp with
        | none => some (-1)
        | some (unit, rest) =>
          match inLong (secs * unit) with
          | none => none
          | some secs =>
            match inLong (total + secs) with
            | none => none
            | some total => if total < 0 then some (-1) else convtimeLoop total rest
termination_by p.length
decreasing_by
  exact Nat.lt_of_le_of_lt (length_le_of_switchUnit hunit) (length_lt_of_readNumber hread)

/-- `convtime`; NULL is `none`. -/
def convtime : Option Text → Option ℤ
  | none => some (-1)
  | some s => if s = [] then some (-1) else convtimeLoop 0 s

/-- The names of the timeouts. -/
inductive TimeoutName where
  | tcp | tcpRst | tcpFin | udp | icmp | general | maxlife | expint
  deriving DecidableEq, Repr

/-- The `strcmp` chain of `set_timeout`. -/
def TimeoutName.ofText (name : Text) : Option TimeoutName :=
  if name = ascii "tcp" then some .tcp
  else if name = ascii "tcp.rst" then some .tcpRst
  else if name = ascii "tcp.fin" then some .tcpFin
  else if name = ascii "udp" then some .udp
  else if name = ascii "icmp" then some .icmp
  else if name = ascii "general" then some .general
  else if name = ascii "maxlife" then some .maxlife
  else if name = ascii "expint" then some .expint
  else none

/-- The assignments of `set_timeout`. -/
def FlowTrack.storeTimeout (ft : FlowTrack) (timeout : ℤ) : TimeoutName → FlowTrack
  | .tcp => { ft with tcpTimeout := timeout }
  | .tcpRst => { ft with tcpRstTimeout := timeout }
  | .tcpFin => { ft with tcpFinTimeout := timeout }
  | .udp => { ft with udpTimeout := timeout }
  | .icmp => { ft with icmpTimeout := timeout }
  | .general => { ft with generalTimeout := timeout }
  | .maxlife => { ft with maximumLifetime := timeout }
  | .expint => { ft with expiryInterval := timeout }

/-- How `set_timeout` comes to no timeout. -/
inductive NoTimeout where
  /-- The program ends with a message. -/
  | exits
  /-- A signed overflow in `convtime`. -/
  | undefined
  deriving DecidableEq, Repr

/-- `set_timeout`. -/
def setTimeout (ft : FlowTrack) (toSpec : Text) : Except NoTimeout FlowTrack :=
  match cut 61 toSpec with
  | none => .error .exits
  | some (name, value) =>
    if value = [] then .error .exits
    else
      match convtime (some value) with
      | none => .error .undefined
      | some seconds =>
        let timeout := wrapInt seconds
        if timeout < 0 then .error .exits
        else
          match TimeoutName.ofText name with
          | none => .error .exits
          | some field =>
            let ft := ft.storeTimeout timeout field
            -- "general" flow timeout must be greater than zero
            if ft.generalTimeout = 0 then .error .exits else .ok ft

/-! ## The terms of a time -/

/-- The text begins with the terms, each a number and the seconds of its unit, and `rest` stands
behind them. A number without a unit is a term at the end of the text only. -/
inductive Leads : Text → List (ℤ × ℤ) → Text → Prop
  | nil {s : Text} : Leads s [] s
  | bare {num : Text} {n : ℤ} (hnum : Numeral num n) (hn : 0 ≤ n) : Leads num [(n, 1)] []
  | cons {num mid rest : Text} {n unit : ℤ} {c : UInt8} {ts : List (ℤ × ℤ)} (hnum : Numeral num n)
      (hn : 0 ≤ n) (hunit : unitSeconds c = some unit) (hmid : Leads mid ts rest) :
      Leads (num ++ c :: mid) ((n, unit) :: ts) rest

/-- The whole text is a sequence of terms. -/
def Spells (s : Text) (ts : List (ℤ × ℤ)) : Prop := Leads s ts []

/-- The exact sum of the terms, in seconds. -/
def exactSum (ts : List (ℤ × ℤ)) : ℤ := (ts.map fun t => t.1 * t.2).sum

/-- The numbers of the terms are read by `strtol` without an error. -/
def NumbersFit (ts : List (ℤ × ℤ)) : Prop := ∀ t ∈ ts, FitsLong t.1

/-- No terms have the sum 0. -/
@[simp]
theorem exactSum_nil : exactSum [] = 0 := rfl

/-- The first term and the others. -/
@[simp]
theorem exactSum_cons (t : ℤ × ℤ) (ts : List (ℤ × ℤ)) :
    exactSum (t :: ts) = t.1 * t.2 + exactSum ts := List.sum_cons

/-- No number is too large. -/
@[simp]
theorem numbersFit_nil : NumbersFit [] := fun _ ht => absurd ht List.not_mem_nil

/-- The first number and the others. -/
@[simp]
theorem numbersFit_cons (t : ℤ × ℤ) (ts : List (ℤ × ℤ)) :
    NumbersFit (t :: ts) ↔ FitsLong t.1 ∧ NumbersFit ts := List.forall_mem_cons

/-- The unit behind a number is not a digit, and is a second at least. -/
theorem unitSeconds_spec {c : UInt8} {unit : ℤ} (h : unitSeconds c = some unit) :
    isDigit c = false ∧ 1 ≤ unit := by
  rw [unitSeconds] at h
  split_ifs at h with hs hm hh hd hw <;> obtain rfl := Option.some.inj h
  · rcases hs with rfl | rfl <;> decide
  · rcases hm with rfl | rfl <;> decide
  · rcases hh with rfl | rfl <;> decide
  · rcases hd with rfl | rfl <;> decide
  · rcases hw with rfl | rfl <;> decide

/-- A number with its unit is what a round of the loop reads, and `mid` stands behind it. -/
def First (s : Text) (n unit : ℤ) (mid : Text) : Prop :=
  0 ≤ n ∧ ∃ endp, readNumber s = some (n, endp) ∧ switchUnit endp = some (unit, mid)

namespace First

variable {s mid mid' : Text} {n n' unit unit' : ℤ}

/-- A term is not empty. -/
theorem length_lt (h : First s n unit mid) : mid.length < s.length := by
  obtain ⟨-, endp, hread, hunit⟩ := h
  exact Nat.lt_of_le_of_lt (length_le_of_switchUnit hunit) (length_lt_of_readNumber hread)

/-- A text has one first term. -/
theorem unique (h : First s n unit mid) (h' : First s n' unit' mid') :
    n = n' ∧ unit = unit' ∧ mid = mid' := by
  obtain ⟨-, endp, hread, hunit⟩ := h
  obtain ⟨-, endp', hread', hunit'⟩ := h'
  obtain ⟨rfl, rfl⟩ := Prod.mk.inj (Option.some.inj (hread.symm.trans hread'))
  obtain ⟨rfl, rfl⟩ := Prod.mk.inj (Option.some.inj (hunit.symm.trans hunit'))
  exact ⟨rfl, rfl, rfl⟩

/-- The seconds of a term are at least its number. -/
theorem le_mul (h : First s n unit mid) : n ≤ n * unit := by
  obtain ⟨hn, endp, -, hunit⟩ := h
  refine le_mul_of_one_le_right hn ?_
  cases endp with
  | nil =>
    obtain ⟨rfl, -⟩ := Prod.mk.inj (Option.some.inj hunit)
    exact le_rfl
  | cons c endp =>
    obtain ⟨unit', hc, hpair⟩ := Option.map_eq_some_iff.mp hunit
    obtain ⟨rfl, -⟩ := Prod.mk.inj hpair
    exact (unitSeconds_spec hc).2

end First

namespace Leads

variable {s rest : Text} {t : ℤ × ℤ} {ts : List (ℤ × ℤ)}

/-- Without terms nothing has been read. -/
theorem nil_iff : Leads s [] rest ↔ s = rest := by
  constructor
  · rintro ⟨⟩
    rfl
  · rintro rfl
    exact .nil

/-- The empty text has no terms. -/
theorem eq_nil (h : Leads [] ts rest) : ts = [] ∧ rest = [] := by
  generalize hs : ([] : Text) = s at h
  cases h with
  | nil => exact ⟨rfl, rfl⟩
  | bare hnum => exact absurd hs.symm hnum.ne_nil
  | cons hnum => exact absurd hs.symm (List.append_ne_nil_of_left_ne_nil hnum.ne_nil _)

/-- The first term is what the loop reads in its first round, and the others stand behind it. -/
theorem cons_iff : Leads s (t :: ts) rest ↔ ∃ mid, First s t.1 t.2 mid ∧ Leads mid ts rest := by
  constructor
  · intro h
    cases h with
    | bare hnum hn =>
      have hread := readNumber_append hnum stops_nil
      rw [List.append_nil] at hread
      exact ⟨[], ⟨hn, [], hread, rfl⟩, .nil⟩
    | @cons _ mid _ _ unit c _ hnum hn hunit hmid =>
      have hread := readNumber_append hnum (stops_cons (unitSeconds_spec hunit).1 mid)
      refine ⟨mid, ⟨hn, c :: mid, hread, ?_⟩, hmid⟩
      rw [switchUnit, hunit]
      rfl
  · rintro ⟨mid, ⟨hn, endp, hread, hunit⟩, hmid⟩
    obtain ⟨n, unit⟩ := t
    obtain ⟨num, rfl, hnum, -⟩ := numeral_of_readNumber hread
    cases endp with
    | nil =>
      obtain ⟨rfl, rfl⟩ := Prod.mk.inj (Option.some.inj hunit)
      -- nothing stands behind a number without a unit
      obtain ⟨rfl, rfl⟩ := hmid.eq_nil
      rw [List.append_nil]
      exact .bare hnum hn
    | cons c endp =>
      obtain ⟨unit, hc, hpair⟩ := Option.map_eq_some_iff.mp hunit
      obtain ⟨rfl, rfl⟩ := Prod.mk.inj hpair
      exact .cons hnum hn hc hmid

/-- A text that is not empty begins with the first of its terms, and the others stand behind it. -/
theorem exists_first (h : Leads s ts []) (hne : s ≠ []) :
    ∃ n unit mid ts', First s n unit mid ∧ ts = (n, unit) :: ts' ∧ Leads mid ts' [] := by
  cases ts with
  | nil => exact absurd (nil_iff.mp h) hne
  | cons t ts =>
    obtain ⟨mid, hfirst, hmid⟩ := cons_iff.mp h
    exact ⟨t.1, t.2, mid, ts, hfirst, rfl, hmid⟩

/-- No term is negative. -/
theorem exactSum_nonneg (h : Leads s ts rest) : 0 ≤ exactSum ts := by
  induction ts generalizing s with
  | nil => exact le_rfl
  | cons t ts ih =>
    obtain ⟨mid, hfirst, hmid⟩ := cons_iff.mp h
    have hmul := hfirst.le_mul
    have hn := hfirst.1
    have hsum := ih hmid
    rw [exactSum_cons]
    omega

end Leads

/-- A text is read in one way. -/
theorem Spells.unique {s : Text} {ts ts' : List (ℤ × ℤ)} (h : Spells s ts)
    (h' : Spells s ts') : ts = ts' := by
  induction ts generalizing s ts' with
  | nil =>
    obtain rfl := Leads.nil_iff.mp h
    exact h'.eq_nil.1.symm
  | cons t ts ih =>
    obtain ⟨mid, hfirst, hmid⟩ := Leads.cons_iff.mp h
    cases ts' with
    | nil =>
      obtain rfl := Leads.nil_iff.mp h'
      exact absurd h.eq_nil.1 (List.cons_ne_nil t ts)
    | cons t' ts' =>
      obtain ⟨mid', hfirst', hmid'⟩ := Leads.cons_iff.mp h'
      obtain ⟨hn, hunit, rfl⟩ := hfirst.unique hfirst'
      rw [Prod.ext hn hunit, ih hmid hmid']

/-! ## The loop -/

/-- A round of the loop with a first term: its product and the new sum fit a `long` when the sum
does. -/
theorem convtimeLoop_of_first {total n unit : ℤ} {p mid : Text} (htotal : 0 ≤ total)
    (h : First p n unit mid) (hfit : FitsLong n) :
    convtimeLoop total p =
      if total + n * unit < 2 ^ 63 then convtimeLoop (total + n * unit) mid else none := by
  have hmul := h.le_mul
  obtain ⟨hn, endp, hread, hunit⟩ := h
  have hne : p ≠ [] := by
    rintro rfl
    cases hread
  rw [convtimeLoop, if_neg hne]
  split
  · rename_i hnone
    rw [hread] at hnone
    cases hnone
  rename_i n' endp' hread'
  obtain ⟨rfl, rfl⟩ := Prod.mk.inj (Option.some.inj (hread.symm.trans hread'))
  rw [strtol_of_readNumber hread hfit, if_neg (not_or.mpr ⟨not_not.mpr hfit, by omega⟩)]
  split
  · rename_i hnone
    rw [hunit] at hnone
    cases hnone
  rename_i unit' rest' hunit'
  obtain ⟨rfl, rfl⟩ := Prod.mk.inj (Option.some.inj (hunit.symm.trans hunit'))
  by_cases hlt : total + n * unit < 2 ^ 63
  · have hsecs : inLong (n * unit) = some (n * unit) := if_pos ⟨by omega, by omega⟩
    have hsum : inLong (total + n * unit) = some (total + n * unit) := if_pos ⟨by omega, hlt⟩
    rw [hsecs, if_pos hlt]
    dsimp only
    rw [hsum]
    exact if_neg (by omega)
  · rw [if_neg hlt]
    -- the product overflows, or else the sum
    by_cases hsecs : FitsLong (n * unit)
    · have hsum : inLong (total + n * unit) = none := if_neg fun h => hlt h.2
      rw [inLong, if_pos hsecs]
      dsimp only
      rw [hsum]
    · rw [inLong, if_neg hsecs]

/-- A round of the loop without a first term, or with a number that does not fit. -/
theorem convtimeLoop_of_not_first {total : ℤ} {p : Text} (hne : p ≠ [])
    (h : ∀ n unit mid, First p n unit mid → ¬ FitsLong n) : convtimeLoop total p = some (-1) := by
  rw [convtimeLoop, if_neg hne]
  split
  · rfl
  rename_i n endp hread
  dsimp only
  split_ifs with hbad
  · rfl
  obtain ⟨hfit, hsecs⟩ := not_or.mp hbad
  rw [not_not] at hfit
  rw [strtol_of_readNumber hread hfit, not_lt] at hsecs
  split
  · rfl
  · rename_i unit mid hunit
    exact absurd hfit (h n unit mid ⟨hsecs, endp, hread, hunit⟩)

/-- Terms at the beginning of the text whose numbers fit a `long`, but not their sum. -/
def Overflows (total : ℤ) (p : Text) : Prop :=
  ∃ ts rest, Leads p ts rest ∧ NumbersFit ts ∧ 2 ^ 63 ≤ total + exactSum ts

/-- The sum overflows with the first term, or behind it. -/
theorem overflows_of_first {total n unit : ℤ} {p mid : Text} (hlt : total < 2 ^ 63)
    (h : First p n unit mid) (hfit : FitsLong n) :
    Overflows total p ↔ 2 ^ 63 ≤ total + n * unit ∨ Overflows (total + n * unit) mid := by
  constructor
  · rintro ⟨ts, rest, hts, hnumbers, hsum⟩
    cases ts with
    | nil =>
      rw [exactSum_nil] at hsum
      omega
    | cons t ts =>
      obtain ⟨mid', hfirst, hmid⟩ := Leads.cons_iff.mp hts
      obtain ⟨rfl, rfl, rfl⟩ := h.unique hfirst
      rw [exactSum_cons, ← add_assoc] at hsum
      exact .inr ⟨ts, rest, hmid, ((numbersFit_cons t ts).mp hnumbers).2, hsum⟩
  · rintro (hbig | ⟨ts, rest, hts, hnumbers, hsum⟩)
    · refine ⟨[(n, unit)], mid, Leads.cons_iff.mpr ⟨mid, h, .nil⟩, ?_, ?_⟩
      · rw [numbersFit_cons]
        exact ⟨hfit, numbersFit_nil⟩
      · rwa [exactSum_cons, exactSum_nil, add_zero]
    · refine ⟨(n, unit) :: ts, rest, Leads.cons_iff.mpr ⟨mid, h, hts⟩, ?_, ?_⟩
      · rw [numbersFit_cons]
        exact ⟨hfit, hnumbers⟩
      · rwa [exactSum_cons, ← add_assoc]

/-- Without a number that fits nothing is added, and nothing overflows. -/
theorem not_overflows {total : ℤ} {p : Text} (hlt : total < 2 ^ 63)
    (h : ∀ n unit mid, First p n unit mid → ¬ FitsLong n) : ¬ Overflows total p := by
  rintro ⟨ts, rest, hts, hnumbers, hsum⟩
  cases ts with
  | nil =>
    rw [exactSum_nil] at hsum
    omega
  | cons t ts =>
    obtain ⟨mid, hfirst, -⟩ := Leads.cons_iff.mp hts
    exact h _ _ mid hfirst ((numbersFit_cons t ts).mp hnumbers).1

/-- The loop reads the terms one after another: it overflows with the first ones that are too much,
and otherwise it refuses the text or returns the sum. -/
theorem convtimeLoop_spec {total : ℤ} (htotal : 0 ≤ total) (hlt : total < 2 ^ 63) (p : Text) :
    (convtimeLoop total p = none ↔ Overflows total p) ∧
      (∀ v, convtimeLoop total p = some v →
        v = -1 ∨ ∃ ts, Spells p ts ∧ NumbersFit ts ∧ v = total + exactSum ts) ∧
      ∀ ts, Spells p ts → NumbersFit ts → total + exactSum ts < 2 ^ 63 →
        convtimeLoop total p = some (total + exactSum ts) := by
  induction hlen : p.length using Nat.strong_induction_on generalizing total p with
  | _ len ih =>
    by_cases hne : p = []
    · subst hne
      have hloop : convtimeLoop total [] = some total := by rw [convtimeLoop, if_pos rfl]
      rw [hloop]
      refine ⟨iff_of_false (Option.some_ne_none total) ?_, ?_, ?_⟩
      · rintro ⟨ts, rest, hts, -, hsum⟩
        rw [hts.eq_nil.1, exactSum_nil] at hsum
        omega
      · rintro v ⟨⟩
        exact .inr ⟨[], .nil, numbersFit_nil, (add_zero total).symm⟩
      · intro ts hts _ _
        rw [hts.eq_nil.1, exactSum_nil, add_zero]
    -- a term whose number fits is added; without one the text is refused
    by_cases hfirst : ∃ n unit mid, First p n unit mid ∧ FitsLong n
    · obtain ⟨n, unit, mid, hfirst, hfit⟩ := hfirst
      have hmul := hfirst.le_mul
      have hn := hfirst.1
      rw [convtimeLoop_of_first htotal hfirst hfit, overflows_of_first hlt hfirst hfit]
      by_cases hnew : total + n * unit < 2 ^ 63
      · -- the sum is a long again, and the induction goes on behind the term
        obtain ⟨hnone, hsome, hreturns⟩ :=
          ih _ (hlen ▸ hfirst.length_lt) (by omega) hnew mid rfl
        rw [if_pos hnew, or_iff_right (not_le.mpr hnew)]
        refine ⟨hnone, fun v hv => ?_, fun ts hts hnumbers hsum => ?_⟩
        · refine (hsome v hv).imp_right ?_
          rintro ⟨ts, hts, hnumbers, rfl⟩
          refine ⟨(n, unit) :: ts, Leads.cons_iff.mpr ⟨mid, hfirst, hts⟩, ?_, ?_⟩
          · rw [numbersFit_cons]
            exact ⟨hfit, hnumbers⟩
          · rw [exactSum_cons, ← add_assoc]
        · obtain ⟨n', unit', mid', ts, hfirst', rfl, hmid⟩ := hts.exists_first hne
          obtain ⟨rfl, rfl, rfl⟩ := hfirst.unique hfirst'
          rw [exactSum_cons, ← add_assoc] at hsum ⊢
          exact hreturns ts hmid ((numbersFit_cons _ ts).mp hnumbers).2 hsum
      · -- the terms behind a sum that is too much cannot make it smaller
        rw [if_neg hnew]
        refine ⟨iff_of_true rfl (.inl (not_lt.mp hnew)), fun v hv => ?_, fun ts hts _ hsum => ?_⟩
        · cases hv
        · obtain ⟨n', unit', mid', ts, hfirst', rfl, hmid⟩ := hts.exists_first hne
          obtain ⟨rfl, rfl, rfl⟩ := hfirst.unique hfirst'
          have hnonneg := hmid.exactSum_nonneg
          rw [exactSum_cons, ← add_assoc] at hsum
          exact absurd ((le_add_of_nonneg_right hnonneg).trans_lt hsum) hnew
    · have hrefused : ∀ n unit mid, First p n unit mid → ¬ FitsLong n :=
        fun n unit mid h hfit => hfirst ⟨n, unit, mid, h, hfit⟩
      rw [convtimeLoop_of_not_first hne hrefused]
      refine ⟨iff_of_false (Option.some_ne_none _) (not_overflows hlt hrefused), ?_, ?_⟩
      · rintro v ⟨⟩
        exact .inl rfl
      · intro ts hts hnumbers _
        obtain ⟨n, unit, mid, ts, hfirst', rfl, -⟩ := hts.exists_first hne
        exact absurd ((numbersFit_cons _ ts).mp hnumbers).1 (hrefused n unit mid hfirst')

/-! ## When the sum is exact -/

/-- `convtime` refuses the text or returns the exact sum of its terms, and it takes every sequence
of terms whose sum fits a `long`. -/
structure ConvtimeExact (s : Text) : Prop where
  exact : convtime (some s) = some (-1) ∨
    ∃ ts, s ≠ [] ∧ Spells s ts ∧ convtime (some s) = some (exactSum ts)
  accepts : ∀ ts, s ≠ [] → Spells s ts → exactSum ts < 2 ^ 63 →
    convtime (some s) = some (exactSum ts)

/-- Terms whose sum fits a `long` have numbers that do. -/
theorem numbersFit_of_lt {s rest : Text} {ts : List (ℤ × ℤ)} (h : Leads s ts rest)
    (hlt : exactSum ts < 2 ^ 63) : NumbersFit ts := by
  induction ts generalizing s with
  | nil => exact numbersFit_nil
  | cons t ts ih =>
    obtain ⟨mid, hfirst, hmid⟩ := Leads.cons_iff.mp h
    have hmul := hfirst.le_mul
    have hn := hfirst.1
    have hnonneg := hmid.exactSum_nonneg
    rw [exactSum_cons] at hlt
    rw [numbersFit_cons]
    exact ⟨⟨by omega, by omega⟩, ih hmid (by omega)⟩

/-- What `convtime` does with a text. -/
theorem convtime_spec (s : Text) :
    (convtime (some s) = none ↔ Overflows 0 s) ∧
      (∀ v, convtime (some s) = some v →
        v = -1 ∨ ∃ ts, s ≠ [] ∧ Spells s ts ∧ NumbersFit ts ∧ v = exactSum ts) ∧
      ∀ ts, s ≠ [] → Spells s ts → NumbersFit ts → exactSum ts < 2 ^ 63 →
        convtime (some s) = some (exactSum ts) := by
  obtain ⟨hnone, hsome, hreturns⟩ := convtimeLoop_spec le_rfl (by decide) s
  simp only [zero_add] at hsome hreturns
  rw [convtime]
  split_ifs with hs
  · refine ⟨iff_of_false not_false ?_, ?_, fun ts hne => absurd hs hne⟩
    · rintro ⟨ts, rest, hts, -, hsum⟩
      rw [hs] at hts
      rw [hts.eq_nil.1, exactSum_nil] at hsum
      omega
    · rintro v ⟨⟩
      exact .inl rfl
  · refine ⟨hnone, fun v hv => (hsome v hv).imp_right ?_, fun ts _ => hreturns ts⟩
    rintro ⟨ts, hts⟩
    exact ⟨ts, hs, hts⟩

/-- `convtime` reads exactly or refuses what does not overflow. -/
theorem convtimeExact_iff {s : Text} : ConvtimeExact s ↔ ¬ Overflows 0 s := by
  obtain ⟨hnone, hsome, hreturns⟩ := convtime_spec s
  rw [← hnone]
  constructor
  · intro h hover
    rcases h.exact with hrefused | ⟨ts, -, -, hsum⟩
    · rw [hover] at hrefused
      cases hrefused
    · rw [hover] at hsum
      cases hsum
  · intro h
    obtain ⟨v, hv⟩ := Option.ne_none_iff_exists'.mp h
    refine ⟨?_, fun ts hne hts hlt => hreturns ts hne hts (numbersFit_of_lt hts hlt) hlt⟩
    rcases hsome v hv with rfl | ⟨ts, hne, hts, -, rfl⟩
    · exact .inl hv
    · exact .inr ⟨ts, hne, hts, hv⟩

/-! ## What is stored -/

/-- The value of a timeout. -/
def FlowTrack.timeout (ft : FlowTrack) : TimeoutName → ℤ
  | .tcp => ft.tcpTimeout
  | .tcpRst => ft.tcpRstTimeout
  | .tcpFin => ft.tcpFinTimeout
  | .udp => ft.udpTimeout
  | .icmp => ft.icmpTimeout
  | .general => ft.generalTimeout
  | .maxlife => ft.maximumLifetime
  | .expint => ft.expiryInterval

/-- A timeout is read back. -/
@[simp]
theorem FlowTrack.timeout_storeTimeout (ft : FlowTrack) (timeout : ℤ) (field : TimeoutName) :
    (ft.storeTimeout timeout field).timeout field = timeout := by
  cases field <;> rfl

/-- An `int` is below `2 ^ 31`. -/
theorem wrapInt_lt (n : ℤ) : wrapInt n < 2 ^ 31 := by
  have hlt := Int.bmod_lt (x := n) (m := 2 ^ 32) (by decide)
  rw [wrapInt]
  omega

/-- `set_timeout` ends the program, or stores the exact sum of the terms behind the `=` in the field
that is named before it. -/
def SetTimeoutExact (ft : FlowTrack) (toSpec : Text) : Prop :=
  setTimeout ft toSpec = .error .exits ∨
    ∃ name value ts field, cut 61 toSpec = some (name, value) ∧ value ≠ [] ∧ Spells value ts ∧
      TimeoutName.ofText name = some field ∧
      setTimeout ft toSpec = .ok (ft.storeTimeout (exactSum ts) field)

/-- The option is not refused: its numbers fit a `long`, the `int` has no sign, and the general
timeout is not zero afterwards. -/
def Stored (ft : FlowTrack) (ts : List (ℤ × ℤ)) (field : TimeoutName) : Prop :=
  NumbersFit ts ∧ 0 ≤ wrapInt (exactSum ts) ∧
    (ft.storeTimeout (wrapInt (exactSum ts)) field).generalTimeout ≠ 0

/-- What `convtime` does with a sequence of terms when nothing overflows. -/
theorem convtime_of_spells {value : Text} {ts : List (ℤ × ℤ)} (hne : value ≠ [])
    (hts : Spells value ts) (hover : ¬ Overflows 0 value) :
    (NumbersFit ts → convtime (some value) = some (exactSum ts)) ∧
      (¬ NumbersFit ts → convtime (some value) = some (-1)) := by
  obtain ⟨hnone, hsome, hreturns⟩ := convtime_spec value
  constructor
  · intro hnumbers
    refine hreturns ts hne hts hnumbers (not_le.mp fun hsum => hover ⟨ts, [], hts, hnumbers, ?_⟩)
    rwa [zero_add]
  · intro hnumbers
    obtain ⟨v, hv⟩ := Option.ne_none_iff_exists'.mp fun h => hover (hnone.mp h)
    rcases hsome v hv with rfl | ⟨ts', -, hts', hnumbers', -⟩
    · exact hv
    · exact absurd (hts.unique hts' ▸ hnumbers') hnumbers

/-- What `set_timeout` does with an option that has the parts it looks for. -/
theorem setTimeout_of_spells (ft : FlowTrack) {toSpec name value : Text} {ts : List (ℤ × ℤ)}
    {field : TimeoutName} (hcut : cut 61 toSpec = some (name, value)) (hne : value ≠ [])
    (hover : ¬ Overflows 0 value) (hts : Spells value ts)
    (hname : TimeoutName.ofText name = some field) :
    (Stored ft ts field →
        setTimeout ft toSpec = .ok (ft.storeTimeout (wrapInt (exactSum ts)) field)) ∧
      (¬ Stored ft ts field → setTimeout ft toSpec = .error .exits) := by
  obtain ⟨hvalue, hrefused⟩ := convtime_of_spells hne hts hover
  rw [setTimeout, hcut]
  dsimp only
  rw [if_neg hne, Stored]
  by_cases hnumbers : NumbersFit ts
  · rw [hvalue hnumbers, and_iff_right hnumbers, hname]
    dsimp only
    by_cases hneg : wrapInt (exactSum ts) < 0
    · rw [if_pos hneg]
      exact ⟨fun h => absurd h.1 (not_le.mpr hneg), fun _ => rfl⟩
    · rw [if_neg hneg, and_iff_right (not_lt.mp hneg)]
      exact ⟨fun h => if_neg h, fun h => if_pos (not_not.mp h)⟩
  · rw [hrefused hnumbers]
    exact ⟨fun h => absurd h.1 hnumbers, fun _ => if_pos (by decide)⟩

/-- An overflow in the value of an option. -/
theorem setTimeout_of_overflows (ft : FlowTrack) {toSpec name value : Text}
    (hcut : cut 61 toSpec = some (name, value)) (hover : Overflows 0 value) :
    setTimeout ft toSpec = .error .undefined := by
  have hvalue := (convtime_spec value).1.mpr hover
  have hne : value ≠ [] := by
    rintro rfl
    cases hvalue
  rw [setTimeout, hcut]
  dsimp only
  rw [if_neg hne, hvalue]

/-- An option that is stored has the parts `set_timeout` looks for. -/
theorem exists_parts {ft ft' : FlowTrack} {toSpec : Text} (h : setTimeout ft toSpec = .ok ft') :
    ∃ name value ts field, cut 61 toSpec = some (name, value) ∧ value ≠ [] ∧ Spells value ts ∧
      TimeoutName.ofText name = some field := by
  rw [setTimeout] at h
  cases hcut : cut 61 toSpec with
  | none =>
    rw [hcut] at h
    cases h
  | some parts =>
    obtain ⟨name, value⟩ := parts
    rw [hcut] at h
    dsimp only at h
    by_cases hne : value = []
    · rw [if_pos hne] at h
      cases h
    rw [if_neg hne] at h
    cases hvalue : convtime (some value) with
    | none =>
      rw [hvalue] at h
      cases h
    | some seconds =>
      rw [hvalue] at h
      dsimp only at h
      rcases (convtime_spec value).2.1 seconds hvalue with rfl | ⟨ts, -, hts, -, -⟩
      · rw [if_pos (by decide)] at h
        cases h
      · cases hname : TimeoutName.ofText name with
        | none =>
          rw [hname] at h
          dsimp only at h
          rw [ite_self] at h
          cases h
        | some field => exact ⟨name, value, ts, field, rfl, hne, hts, hname⟩

/-- `set_timeout` runs into an overflow only in the value of the option. -/
theorem overflows_of_setTimeout {ft : FlowTrack} {toSpec : Text}
    (h : setTimeout ft toSpec = .error .undefined) :
    ∃ name value, cut 61 toSpec = some (name, value) ∧ Overflows 0 value := by
  rw [setTimeout] at h
  cases hcut : cut 61 toSpec with
  | none =>
    rw [hcut] at h
    cases h
  | some parts =>
    obtain ⟨name, value⟩ := parts
    refine ⟨name, value, rfl, (convtime_spec value).1.mp ?_⟩
    by_contra hvalue
    obtain ⟨seconds, hseconds⟩ := Option.ne_none_iff_exists'.mp hvalue
    rw [hcut] at h
    dsimp only at h
    rw [hseconds] at h
    dsimp only at h
    -- with a value there is no overflow any more
    split_ifs at h
    · cases h
    · cases h
    cases hname : TimeoutName.ofText name with
    | none =>
      rw [hname] at h
      cases h
    | some field =>
      rw [hname] at h
      dsimp only at h
      split_ifs at h
      cases h

/-- What is stored is exact when nothing overflows and the sum is below `2 ^ 31`, or the option is
refused. -/
theorem setTimeoutExact_iff {ft : FlowTrack} {toSpec : Text} :
    SetTimeoutExact ft toSpec ↔
      ∀ name value, cut 61 toSpec = some (name, value) → ¬ Overflows 0 value ∧
        ∀ ts field, value ≠ [] → Spells value ts → TimeoutName.ofText name = some field →
          Stored ft ts field → exactSum ts < 2 ^ 31 := by
  constructor
  · -- what is stored determines the terms, and an `int` is below `2 ^ 31`
    intro h name value hcut
    have hover : ¬ Overflows 0 value := by
      intro hover
      have hset := setTimeout_of_overflows ft hcut hover
      rcases h with hrefused | ⟨_, _, _, _, -, -, -, -, hsum⟩
      · rw [hset] at hrefused
        cases hrefused
      · rw [hset] at hsum
        cases hsum
    refine ⟨hover, fun ts field hne hts hname hstored => ?_⟩
    have hset := (setTimeout_of_spells ft hcut hne hover hts hname).1 hstored
    rcases h with hrefused | ⟨name', value', ts', field', hcut', -, hts', hname', hsum⟩
    · rw [hrefused] at hset
      cases hset
    · obtain ⟨rfl, rfl⟩ := Prod.mk.inj (Option.some.inj (hcut.symm.trans hcut'))
      obtain rfl := hts.unique hts'
      obtain rfl := Option.some.inj (hname.symm.trans hname')
      -- both are what is stored in the field, once cut off and once as it is
      have hfield := congrArg (·.timeout field) (Except.ok.inj (hset.symm.trans hsum))
      simp only [FlowTrack.timeout_storeTimeout] at hfield
      rw [← hfield]
      exact wrapInt_lt _
  · intro h
    cases hset : setTimeout ft toSpec with
    | error e =>
      cases e with
      | exits => exact .inl hset
      | undefined =>
        obtain ⟨name, value, hcut, hover⟩ := overflows_of_setTimeout hset
        exact absurd hover (h name value hcut).1
    -- the option is accepted, so its value is a sequence of terms behind a known name
    | ok ft' =>
      obtain ⟨name, value, ts, field, hcut, hne, hts, hname⟩ := exists_parts hset
      obtain ⟨hover, hfits⟩ := h name value hcut
      obtain ⟨hyes, hno⟩ := setTimeout_of_spells ft hcut hne hover hts hname
      have hstored : Stored ft ts field := by
        by_contra hnot
        rw [hno hnot] at hset
        cases hset
      have hlt := hfits ts field hne hts hname hstored
      have hnonneg := hts.exactSum_nonneg
      refine .inr ⟨name, value, ts, field, hcut, hne, hts, hname, ?_⟩
      rw [hyes hstored, wrapInt, Int.bmod_eq_of_le (by omega) (by omega)]

/-- A time is read exactly or refused exactly when no terms at its beginning whose numbers fit a
`long` have a sum that does not. An option is stored exactly or refused exactly when this holds of
its value and what is stored fits the `int`. -/
theorem timeouts_exact_iff (s : Text) (ft : FlowTrack) (toSpec : Text) :
    (ConvtimeExact s ↔
        ¬ ∃ ts rest, Leads s ts rest ∧ NumbersFit ts ∧ 2 ^ 63 ≤ exactSum ts) ∧
      (SetTimeoutExact ft toSpec ↔
        ∀ name value, cut 61 toSpec = some (name, value) →
          (¬ ∃ ts rest, Leads value ts rest ∧ NumbersFit ts ∧ 2 ^ 63 ≤ exactSum ts) ∧
          ∀ ts field, value ≠ [] → Spells value ts → TimeoutName.ofText name = some field →
            Stored ft ts field → exactSum ts < 2 ^ 31) := by
  have hover : ∀ s, Overflows 0 s ↔
      ∃ ts rest, Leads s ts rest ∧ NumbersFit ts ∧ 2 ^ 63 ≤ exactSum ts := by
    intro s
    simp only [Overflows, zero_add]
  simp only [← hover]
  exact ⟨convtimeExact_iff, setTimeoutExact_iff⟩

/-- A sum of seconds and a product of weeks that do not fit a `long`, and a number of seconds that
the `int` cuts off to none. -/
theorem timeouts_not_exact :
    ¬ ConvtimeExact (ascii "9223372036854775807s1s") ∧
      ¬ ConvtimeExact (ascii "30500568904944w") ∧
      ¬ SetTimeoutExact {} (ascii "tcp=4294967296") := by
  refine ⟨fun h => convtimeExact_iff.mp h ?_, fun h => convtimeExact_iff.mp h ?_, fun h => ?_⟩
  · have hnum : Numeral ([] ++ ascii "9223372036854775807") 9223372036854775807 :=
      .plain (by simp) (List.all_eq_true.mp (by decide)) (by decide)
    have hone : Numeral ([] ++ ascii "1") 1 :=
      .plain (by simp) (List.all_eq_true.mp (by decide)) (by decide)
    have hlast : Leads (ascii "1s") [(1, 1)] [] := .cons (c := 115) hone (by decide) rfl .nil
    have hts : Leads (ascii "9223372036854775807s1s") [(9223372036854775807, 1), (1, 1)] [] :=
      .cons (c := 115) hnum (by decide) rfl hlast
    exact ⟨_, [], hts, by simp [FitsLong], by decide⟩
  · have hnum : Numeral ([] ++ ascii "30500568904944") 30500568904944 :=
      .plain (by simp) (List.all_eq_true.mp (by decide)) (by decide)
    have hts : Leads (ascii "30500568904944w") [(30500568904944, 60 * 60 * 24 * 7)] [] :=
      .cons (c := 119) hnum (by decide) rfl .nil
    exact ⟨_, [], hts, by simp [FitsLong], by decide⟩
  · have hnum : Numeral ([] ++ ascii "4294967296") 4294967296 :=
      .plain (by simp) (List.all_eq_true.mp (by decide)) (by decide)
    have hts : Spells (ascii "4294967296") [(4294967296, 1)] := .bare hnum (by decide)
    have hlt := (setTimeoutExact_iff.mp h (ascii "tcp") _ (by decide)).2 _ .tcp (by decide) hts rfl
      ⟨by simp [FitsLong], by decide, by decide⟩
    exact absurd hlt (by decide)

end Softflowd
