import NetworkMonitoring.Flowd.Addr

/-!
# flowd — the flow filter

`filter.c`: the rules that decide which flows the collector keeps. A rule has criteria
(`match_what`), each of which may be negated (`match_negate`), and an action. `filter_flow` goes
through the rules; the last one that matches decides, and a rule marked `quick` that matches ends
the search.

* `Criterion` lists the criteria of `flow_match`, and `flowMatch_iff` says that a rule matches when
  all its criteria do.
* `evaluated` is the number of rules that are looked at and `IsWinner` the rule that decides;
  `filterLoop_spec` says what the loop over the rules does.
* `filterFlow_semantics` gives the result of `filter_flow`, the flow and the counters of the rules
  after it.

`localtime` is a parameter. The rules and their counters live in a list; a rule is referred to by
its place.
-/

namespace Flowd

open Bytes

def ffActionAccept : UInt32 := 1
def ffActionDiscard : UInt32 := 2
def ffActionTag : UInt32 := 3

/-- `struct filter_action`. -/
structure FilterAction where
  actionWhat : Int32
  tag : UInt32 := 0
  deriving DecidableEq

/-- The mask `1 << bit`. -/
def ffMatch (bit : UInt32) : UInt32 := 1 <<< bit

def ffMatchSrcAddr : UInt32 := 1
def ffMatchDstAddr : UInt32 := ffMatch 1
def ffMatchSrcPort : UInt32 := ffMatch 2
def ffMatchDstPort : UInt32 := ffMatch 3
def ffMatchProtocol : UInt32 := ffMatch 4
def ffMatchTos : UInt32 := ffMatch 5
def ffMatchAgentAddr : UInt32 := ffMatch 6
def ffMatchTcpFlags : UInt32 := ffMatch 7
def ffMatchAf : UInt32 := ffMatch 8
def ffMatchDaytime : UInt32 := ffMatch 9
def ffMatchAbstime : UInt32 := ffMatch 10
def ffMatchIfndxIn : UInt32 := ffMatch 11
def ffMatchIfndxOut : UInt32 := ffMatch 12

/-- `struct filter_match`. -/
structure FilterMatch where
  matchWhat : UInt32 := 0
  matchNegate : UInt32 := 0
  agentMasklen : Int32 := 0
  agentAddr : Xaddr := {}
  af : Int32 := 0
  srcMasklen : Int32 := 0
  srcAddr : Xaddr := {}
  dstMasklen : Int32 := 0
  dstAddr : Xaddr := {}
  ifndxIn : Int32 := 0
  ifndxOut : Int32 := 0
  srcPort : Int32 := 0
  dstPort : Int32 := 0
  proto : Int32 := 0
  tos : Int32 := 0
  tcpFlagsMask : Int32 := 0
  tcpFlagsEquals : Int32 := 0
  dayMask : Int32 := 0
  dayafter : Int32 := 0
  daybefore : Int32 := 0
  absafter : Int32 := 0
  absbefore : Int32 := 0
  deriving DecidableEq

/-- `struct filter_rule`. -/
structure FilterRule where
  action : FilterAction
  quick : Int32 := 0
  «match» : FilterMatch := {}
  evaluations : UInt64 := 0
  «matches» : UInt64 := 0
  wins : UInt64 := 0
  deriving DecidableEq

/-- What is read of a `struct tm`. -/
structure Tm where
  tmSec : ℕ
  tmMin : ℕ
  tmHour : ℕ
  tmWday : ℕ

section
variable (localtime : ℕ → Tm)

/-! ## Rules -/

/-- `flow_daytime_match`. -/
def flowDaytimeMatch (recvSec : ℕ) (dayMask dayafter daybefore : Int32) : Bool :=
  let tm := localtime recvSec
  if dayMask ≠ 0 ∧ dayMask &&& (1 <<< Int32.ofNat tm.tmWday) = 0 then false
  else
    let sec : ℤ := tm.tmSec + tm.tmMin * 60 + tm.tmHour * 3600
    if daybefore ≠ -1 ∧ sec > daybefore.toInt then false
    else if dayafter ≠ -1 ∧ sec < dayafter.toInt then false
    else true

namespace FilterMatch

/-- `FRNEG`. -/
def frneg (r : FilterMatch) (what : UInt32) : Bool := r.matchNegate &&& what ≠ 0

/-- `FRMATCH`. -/
def frmatch (r : FilterMatch) (what : UInt32) : Bool := r.matchWhat &&& what ≠ 0

/-- `FRRETVAL`. -/
def frretval (r : FilterMatch) (what : UInt32) (m : Bool) : Bool :=
  (r.frneg what && m) || (!r.frneg what && !m)

/-- One test of `flow_match`: whether it makes the function return 0. -/
def frret (r : FilterMatch) (what : UInt32) (m : Bool) : Bool := r.frmatch what && r.frretval what m

end FilterMatch

/-- `flow_match`. -/
def flowMatch (rule : FilterRule) (flow : StoreFlowComplete) : Bool :=
  let r := rule.match
  let tt := htonl flow.recvSec
  -- each test looks at its bit in `match_what` first
  if r.frret ffMatchAgentAddr
      (addrNetmatch flow.agentAddr r.agentAddr r.agentMasklen.toUInt32.toNat == 0) then false
  -- an interface index is compared as an unsigned number
  else if r.frret ffMatchIfndxIn (htonl flow.ifIndexIn == r.ifndxIn.toUInt32) then false
  else if r.frret ffMatchIfndxOut (htonl flow.ifIndexOut == r.ifndxOut.toUInt32) then false
  else if r.frret ffMatchAf
      (((flow.srcAddr.af.toNat : ℤ) == r.af.toInt) || ((flow.dstAddr.af.toNat : ℤ) == r.af.toInt))
    then false
  else if r.frret ffMatchSrcAddr
      (addrNetmatch flow.srcAddr r.srcAddr r.srcMasklen.toUInt32.toNat == 0) then false
  else if r.frret ffMatchDstAddr
      (addrNetmatch flow.dstAddr r.dstAddr r.dstMasklen.toUInt32.toNat == 0) then false
  else if r.frret ffMatchSrcPort (((htons flow.srcPort).toNat : ℤ) == r.srcPort.toInt) then false
  else if r.frret ffMatchDstPort (((htons flow.dstPort).toNat : ℤ) == r.dstPort.toInt) then false
  else if r.frret ffMatchProtocol ((flow.protocol.toNat : ℤ) == r.proto.toInt) then false
  else if r.frret ffMatchTos ((flow.tos.toNat : ℤ) == r.tos.toInt) then false
  else if r.frret ffMatchTcpFlags
      ((Int32.ofNat flow.tcpFlags.toNat &&& r.tcpFlagsMask) == r.tcpFlagsEquals) then false
  else if r.frret ffMatchDaytime
      (flowDaytimeMatch localtime tt.toNat r.dayMask r.dayafter r.daybefore) then false
  -- the limits that are not positive are left out
  else if r.frret ffMatchAbstime
      ((!(r.absbefore > 0) || tt < r.absbefore.toUInt32) &&
        (!(r.absafter > 0) || tt > r.absafter.toUInt32)) then false
  else true

/-! ## The list of rules -/

/-- The loop of `filter_flow` over the rules from place `i` on. The last rule that has matched is
kept by its place and its action. -/
def filterLoop (flow : StoreFlowComplete) :
    ℕ → Option (ℕ × FilterAction) → List FilterRule → List FilterRule × Option (ℕ × FilterAction)
  | _, lastRule, [] => ([], lastRule)
  | i, lastRule, fr :: rest =>
    if flowMatch localtime fr flow then
      let fr' := { fr with evaluations := fr.evaluations + 1, «matches» := fr.matches + 1 }
      if fr.quick ≠ 0 then (fr' :: rest, some (i, fr.action))
      else
        let (rest', last) := filterLoop flow (i + 1) (some (i, fr.action)) rest
        (fr' :: rest', last)
    else
      let (rest', last) := filterLoop flow (i + 1) lastRule rest
      ({ fr with evaluations := fr.evaluations + 1 } :: rest', last)

/-- What `filter_flow` returns, with the flow and the rules after the call. -/
structure FilterResult where
  action : UInt32
  flow : StoreFlowComplete
  filter : List FilterRule

/-- `filter_flow`. -/
def filterFlow (flow : StoreFlowComplete) (filter : List FilterRule) : FilterResult :=
  let (rules, lastRule) := filterLoop localtime flow 0 none filter
  match lastRule with
  | none => ⟨ffActionAccept, flow, rules⟩
  | some (i, ruleAction) =>
    let rules := rules.modify i fun r => { r with wins := r.wins + 1 }
    let action := ruleAction.actionWhat.toUInt32
    -- a flow is tagged and accepted
    if action = ffActionTag then
      let fields := htonl (htonl flow.fields ||| storeFieldTag)
      ⟨ffActionAccept, { flow with fields := fields, tag := htonl ruleAction.tag }, rules⟩
    else ⟨action, flow, rules⟩

/-! ## Criteria -/

end

/-- The criteria of `flow_match`, in the order of its tests. -/
inductive Criterion where
  | agentAddr | ifndxIn | ifndxOut | af | srcAddr | dstAddr | srcPort | dstPort | protocol | tos
  | tcpFlags | daytime | abstime
  deriving DecidableEq

namespace Criterion

/-- The bit of a criterion in `match_what` and `match_negate`. -/
def bit : Criterion → UInt32
  | agentAddr => ffMatchAgentAddr
  | ifndxIn => ffMatchIfndxIn
  | ifndxOut => ffMatchIfndxOut
  | af => ffMatchAf
  | srcAddr => ffMatchSrcAddr
  | dstAddr => ffMatchDstAddr
  | srcPort => ffMatchSrcPort
  | dstPort => ffMatchDstPort
  | protocol => ffMatchProtocol
  | tos => ffMatchTos
  | tcpFlags => ffMatchTcpFlags
  | daytime => ffMatchDaytime
  | abstime => ffMatchAbstime

/-- Something that holds of each criterion holds of all of them. -/
theorem forall_iff {P : Criterion → Prop} :
    (∀ c, P c) ↔ P agentAddr ∧ P ifndxIn ∧ P ifndxOut ∧ P af ∧ P srcAddr ∧ P dstAddr ∧ P srcPort ∧
      P dstPort ∧ P protocol ∧ P tos ∧ P tcpFlags ∧ P daytime ∧ P abstime := by
  constructor
  · intro h
    simp only [h, and_self]
  · rintro ⟨h₁, h₂, h₃, h₄, h₅, h₆, h₇, h₈, h₉, h₁₀, h₁₁, h₁₂, h₁₃⟩ c
    cases c <;> assumption

/-- The day-time criterion: the day is one of the days of the mask, if there is one, and the second
of the day lies within the limits that are set. -/
def DaytimeHolds (tm : Tm) (r : FilterMatch) : Prop :=
  (r.dayMask ≠ 0 → r.dayMask &&& (1 <<< Int32.ofNat tm.tmWday) ≠ 0) ∧
  (r.daybefore ≠ -1 → (tm.tmSec + tm.tmMin * 60 + tm.tmHour * 3600 : ℤ) ≤ r.daybefore.toInt) ∧
  (r.dayafter ≠ -1 → r.dayafter.toInt ≤ (tm.tmSec + tm.tmMin * 60 + tm.tmHour * 3600 : ℤ))

/-- What a criterion asks of a flow. -/
def Holds (localtime : ℕ → Tm) (r : FilterMatch) (flow : StoreFlowComplete) : Criterion → Prop
  | agentAddr => addrNetmatch flow.agentAddr r.agentAddr r.agentMasklen.toUInt32.toNat = 0
  | ifndxIn => htonl flow.ifIndexIn = r.ifndxIn.toUInt32
  | ifndxOut => htonl flow.ifIndexOut = r.ifndxOut.toUInt32
  | af => (flow.srcAddr.af.toNat : ℤ) = r.af.toInt ∨ (flow.dstAddr.af.toNat : ℤ) = r.af.toInt
  | srcAddr => addrNetmatch flow.srcAddr r.srcAddr r.srcMasklen.toUInt32.toNat = 0
  | dstAddr => addrNetmatch flow.dstAddr r.dstAddr r.dstMasklen.toUInt32.toNat = 0
  | srcPort => ((htons flow.srcPort).toNat : ℤ) = r.srcPort.toInt
  | dstPort => ((htons flow.dstPort).toNat : ℤ) = r.dstPort.toInt
  | protocol => (flow.protocol.toNat : ℤ) = r.proto.toInt
  | tos => (flow.tos.toNat : ℤ) = r.tos.toInt
  | tcpFlags => Int32.ofNat flow.tcpFlags.toNat &&& r.tcpFlagsMask = r.tcpFlagsEquals
  | daytime => DaytimeHolds (localtime (htonl flow.recvSec).toNat) r
  | abstime =>
    (r.absbefore > 0 → htonl flow.recvSec < r.absbefore.toUInt32) ∧
      (r.absafter > 0 → htonl flow.recvSec > r.absafter.toUInt32)

end Criterion

theorem flowDaytimeMatch_iff (localtime : ℕ → Tm) (recvSec : ℕ) (r : FilterMatch) :
    flowDaytimeMatch localtime recvSec r.dayMask r.dayafter r.daybefore = true ↔
      Criterion.DaytimeHolds (localtime recvSec) r := by
  rw [flowDaytimeMatch, Criterion.DaytimeHolds]
  dsimp only
  split_ifs with hday hbefore hafter
  · exact iff_of_false (by decide) fun h => h.1 hday.1 hday.2
  · exact iff_of_false (by decide) fun h => (h.2.1 hbefore.1).not_gt hbefore.2
  · exact iff_of_false (by decide) fun h => (h.2.2 hafter.1).not_gt hafter.2
  · refine iff_of_true rfl ⟨fun h => not_and.mp hday h, fun h => ?_, fun h => ?_⟩
    · exact not_lt.mp (not_and.mp hbefore h)
    · exact not_lt.mp (not_and.mp hafter h)

/-- A test lets the flow pass when the criterion is not asked for, or when it holds and is not
negated, or when it fails and is negated. -/
theorem FilterMatch.frret_eq_false {r : FilterMatch} {what : UInt32} {m : Bool} {P : Prop}
    (hm : m = true ↔ P) :
    r.frret what m = false ↔ (r.frmatch what = true → (P ↔ r.frneg what = false)) := by
  rw [← hm, frret, frretval]
  cases r.frmatch what <;> cases r.frneg what <;> cases m <;> decide

/-- **A rule matches when its criteria do**: each criterion in `match_what` holds, or fails if it is
in `match_negate`. -/
theorem flowMatch_iff (localtime : ℕ → Tm) (rule : FilterRule) (flow : StoreFlowComplete) :
    flowMatch localtime rule flow = true ↔
      ∀ c : Criterion, rule.match.frmatch c.bit = true →
        (c.Holds localtime rule.match flow ↔ rule.match.frneg c.bit = false) := by
  have hstep : ∀ b rest : Bool, (if b then false else rest) = true ↔ b = false ∧ rest = true := by
    decide
  have hlimit : ∀ (p q : Prop) [Decidable p] [Decidable q],
      (!decide p || decide q) = true ↔ (p → q) := by
    intro p q _ _
    by_cases hp : p <;> simp [hp]
  rw [Criterion.forall_iff, flowMatch]
  simp only [hstep, and_true]
  -- one test for each criterion, in the order of the source
  refine and_congr (FilterMatch.frret_eq_false beq_iff_eq) <|
    and_congr (FilterMatch.frret_eq_false beq_iff_eq) <|
    and_congr (FilterMatch.frret_eq_false beq_iff_eq) <|
    and_congr (FilterMatch.frret_eq_false ?_) <|
    and_congr (FilterMatch.frret_eq_false beq_iff_eq) <|
    and_congr (FilterMatch.frret_eq_false beq_iff_eq) <|
    and_congr (FilterMatch.frret_eq_false beq_iff_eq) <|
    and_congr (FilterMatch.frret_eq_false beq_iff_eq) <|
    and_congr (FilterMatch.frret_eq_false beq_iff_eq) <|
    and_congr (FilterMatch.frret_eq_false beq_iff_eq) <|
    and_congr (FilterMatch.frret_eq_false beq_iff_eq) <|
    and_congr (FilterMatch.frret_eq_false (flowDaytimeMatch_iff localtime _ rule.match)) <|
    FilterMatch.frret_eq_false ?_
  · rw [Bool.or_eq_true, beq_iff_eq, beq_iff_eq]
    rfl
  · rw [Bool.and_eq_true, hlimit, hlimit]
    rfl

/-! ## The rules that are evaluated -/

section
variable (localtime : ℕ → Tm) (flow : StoreFlowComplete)

/-- The number of rules that are evaluated: those up to the first one that matches and is quick. -/
def evaluated (rules : List FilterRule) : ℕ :=
  min (rules.findIdx (fun r => flowMatch localtime r flow && r.quick != 0) + 1) rules.length

/-- The rule that decides is the last one that matches among those that are evaluated. -/
structure IsWinner (rules : List FilterRule) (i : ℕ) (rule : FilterRule) : Prop where
  get : rules[i]? = some rule
  lt_evaluated : i < evaluated localtime flow rules
  isMatch : flowMatch localtime rule flow = true
  last : ∀ j r, i < j → j < evaluated localtime flow rules → rules[j]? = some r →
    flowMatch localtime r flow = false

/-- No rule that is evaluated matches. -/
def NoMatch (rules : List FilterRule) : Prop :=
  ∀ j r, j < evaluated localtime flow rules → rules[j]? = some r → flowMatch localtime r flow = false

/-- A rule with its counters moved. -/
def FilterRule.counted (r : FilterRule) (isEvaluated isMatch isWinner : Bool) : FilterRule :=
  { r with
    evaluations := r.evaluations + if isEvaluated then 1 else 0
    «matches» := r.matches + if isEvaluated && isMatch then 1 else 0
    wins := r.wins + if isWinner then 1 else 0 }

@[simp]
theorem FilterRule.counted_false (r : FilterRule) (isMatch : Bool) :
    r.counted false isMatch false = r := by
  simp [counted]

theorem evaluated_quick {fr : FilterRule} (hm : flowMatch localtime fr flow = true)
    (hq : fr.quick ≠ 0) (rest : List FilterRule) : evaluated localtime flow (fr :: rest) = 1 := by
  have hstop : (flowMatch localtime fr flow && fr.quick != 0) = true := by simp [hm, hq]
  rw [evaluated, List.findIdx_cons, hstop]
  simp

theorem evaluated_cons {fr : FilterRule}
    (h : ¬ (flowMatch localtime fr flow = true ∧ fr.quick ≠ 0)) (rest : List FilterRule) :
    evaluated localtime flow (fr :: rest) = evaluated localtime flow rest + 1 := by
  have hstop : (flowMatch localtime fr flow && fr.quick != 0) = false := by
    rw [Bool.eq_false_iff]
    simpa using h
  rw [evaluated, evaluated, List.findIdx_cons, hstop, List.length_cons]
  simp only [cond_false]
  omega

/-- The loop counts the rules that are evaluated. -/
theorem filterLoop_rules (i : ℕ) (lastRule : Option (ℕ × FilterAction)) (rules : List FilterRule) :
    (filterLoop localtime flow i lastRule rules).1 =
      rules.mapIdx fun j r =>
        r.counted (j < evaluated localtime flow rules) (flowMatch localtime r flow) false := by
  induction rules generalizing i lastRule with
  | nil => rfl
  | cons fr rest ih =>
    rw [List.mapIdx_cons, filterLoop]
    by_cases hm : flowMatch localtime fr flow = true
    · rw [if_pos hm]
      by_cases hq : fr.quick ≠ 0
      · -- the rules behind a quick rule that matches are left as they are
        have hrest : (rest.mapIdx fun j r =>
            r.counted (decide (j + 1 < 1)) (flowMatch localtime r flow) false) = rest := by
          apply List.ext_getElem (by simp)
          intro j hj hj'
          simp
        simp only [evaluated_quick localtime flow hm hq, if_pos hq, hrest]
        simp [FilterRule.counted, hm]
      · have hgoesOn : ¬ (flowMatch localtime fr flow = true ∧ fr.quick ≠ 0) := fun h => hq h.2
        have hev := evaluated_cons localtime flow hgoesOn rest
        simp only [hev, if_neg hq, ih]
        simp [FilterRule.counted, hm]
    · have hgoesOn : ¬ (flowMatch localtime fr flow = true ∧ fr.quick ≠ 0) := fun h => hm h.1
      have hev := evaluated_cons localtime flow hgoesOn rest
      simp only [hev, if_neg hm, ih]
      simp [FilterRule.counted, hm]

/-- The rule that decides, one rule further on. -/
theorem IsWinner.cons {fr : FilterRule} {rest : List FilterRule} {k : ℕ} {rule : FilterRule}
    (hstop : ¬ (flowMatch localtime fr flow = true ∧ fr.quick ≠ 0))
    (h : IsWinner localtime flow rest k rule) :
    IsWinner localtime flow (fr :: rest) (k + 1) rule where
  get := h.get
  lt_evaluated := by
    rw [evaluated_cons localtime flow hstop]
    exact Nat.succ_lt_succ h.lt_evaluated
  isMatch := h.isMatch
  last := by
    rw [evaluated_cons localtime flow hstop]
    intro j r hj hlt hget
    obtain _ | j := j
    · omega
    · exact h.last j r (by omega) (by omega) hget

/-- A rule that matches decides when none behind it does. -/
theorem IsWinner.head {fr : FilterRule} {rest : List FilterRule}
    (hm : flowMatch localtime fr flow = true)
    (hrest : ∀ j r, j + 1 < evaluated localtime flow (fr :: rest) → rest[j]? = some r →
      flowMatch localtime r flow = false) :
    IsWinner localtime flow (fr :: rest) 0 fr where
  get := rfl
  lt_evaluated := by
    rw [evaluated, List.length_cons]
    omega
  isMatch := hm
  last := by
    intro j r hj hlt hget
    obtain _ | j := j
    · omega
    · exact hrest j r hlt hget

/-- The loop ends with the rule that decides. -/
theorem filterLoop_last (i : ℕ) (lastRule : Option (ℕ × FilterAction)) (rules : List FilterRule) :
    (NoMatch localtime flow rules ∧ (filterLoop localtime flow i lastRule rules).2 = lastRule) ∨
    ∃ k rule, IsWinner localtime flow rules k rule ∧
      (filterLoop localtime flow i lastRule rules).2 = some (i + k, rule.action) := by
  induction rules generalizing i lastRule with
  | nil =>
    refine .inl ⟨?_, rfl⟩
    intro j r _ hget
    cases hget
  | cons fr rest ih =>
    rw [filterLoop]
    by_cases hm : flowMatch localtime fr flow = true
    · rw [if_pos hm]
      by_cases hq : fr.quick ≠ 0
      · rw [if_pos hq]
        refine .inr ⟨0, fr, IsWinner.head localtime flow hm ?_, rfl⟩
        intro j r hlt _
        rw [evaluated_quick localtime flow hm hq] at hlt
        omega
      · rw [if_neg hq]
        have hstop : ¬ (flowMatch localtime fr flow = true ∧ fr.quick ≠ 0) := fun h => hq h.2
        -- a later rule that matches takes the place of this one
        rcases ih (i + 1) (some (i, fr.action)) with ⟨hno, hlast⟩ | ⟨k, rule, hwin, hlast⟩
        · refine .inr ⟨0, fr, IsWinner.head localtime flow hm ?_, hlast⟩
          intro j r hlt hget
          rw [evaluated_cons localtime flow hstop] at hlt
          exact hno j r (by omega) hget
        · refine .inr ⟨k + 1, rule, hwin.cons localtime flow hstop, hlast.trans ?_⟩
          rw [Nat.add_assoc, Nat.add_comm 1 k]
    · rw [if_neg hm]
      have hstop : ¬ (flowMatch localtime fr flow = true ∧ fr.quick ≠ 0) := fun h => hm h.1
      rcases ih (i + 1) lastRule with ⟨hno, hlast⟩ | ⟨k, rule, hwin, hlast⟩
      · refine .inl ⟨?_, hlast⟩
        intro j r hlt hget
        rw [evaluated_cons localtime flow hstop] at hlt
        obtain _ | j := j
        · obtain rfl : fr = r := Option.some.inj hget
          exact Bool.eq_false_iff.mpr hm
        · exact hno j r (by omega) hget
      · refine .inr ⟨k + 1, rule, hwin.cons localtime flow hstop, hlast.trans ?_⟩
        rw [Nat.add_assoc, Nat.add_comm 1 k]

/-- At most one rule decides. -/
theorem IsWinner.unique {rules : List FilterRule} {i i' : ℕ} {rule rule' : FilterRule}
    (h : IsWinner localtime flow rules i rule) (h' : IsWinner localtime flow rules i' rule') :
    i = i' ∧ rule = rule' := by
  obtain hlt | rfl | hgt := Nat.lt_trichotomy i i'
  · have hno := h.last i' rule' hlt h'.lt_evaluated h'.get
    rw [h'.isMatch] at hno
    cases hno
  · exact ⟨rfl, Option.some.inj (h.get.symm.trans h'.get)⟩
  · have hno := h'.last i rule hgt h.lt_evaluated h.get
    rw [h.isMatch] at hno
    cases hno

end

/-! ## What the filter does -/

/-- The flow with a tag: the field mask, in network byte order, has the bit of the tag as well, the
tag is stored in network byte order, and the rest of the flow is as before. -/
structure Tagged (flow flow' : StoreFlowComplete) (tag : UInt32) : Prop where
  fields : htonl flow'.fields = htonl flow.fields ||| storeFieldTag
  tag : htonl flow'.tag = tag
  rest : flow' = { flow with fields := flow'.fields, tag := flow'.tag }

/-- The filter leaves the flow as it is or tags it. -/
theorem filterFlow_flow (localtime : ℕ → Tm) (flow : StoreFlowComplete) (rules : List FilterRule) :
    (filterFlow localtime flow rules).flow = flow ∨
      ∃ tag, Tagged flow (filterFlow localtime flow rules).flow tag := by
  rw [filterFlow]
  dsimp only
  cases (filterLoop localtime flow 0 none rules).2 with
  | none => exact .inl rfl
  | some last =>
    dsimp only
    by_cases htag : last.2.actionWhat.toUInt32 = ffActionTag
    · rw [if_pos htag]
      exact .inr ⟨last.2.tag, htonl_htonl _, htonl_htonl _, rfl⟩
    · rw [if_neg htag]
      exact .inl rfl

/-- Counting the win of a rule whose other counters are done. -/
theorem modify_counted (rules : List FilterRule) (f : ℕ → FilterRule → Bool × Bool) (k : ℕ) :
    (rules.mapIdx fun i r => r.counted (f i r).1 (f i r).2 false).modify k
        (fun r => { r with wins := r.wins + 1 }) =
      rules.mapIdx fun i r => r.counted (f i r).1 (f i r).2 (some k = some i) := by
  apply List.ext_getElem (by simp)
  intro i hi hi'
  rw [List.getElem_modify, List.getElem_mapIdx, List.getElem_mapIdx]
  by_cases hk : k = i
  · simp [hk, FilterRule.counted]
  · simp [hk, FilterRule.counted]

/-- A rule as it is without its counters. -/
def FilterRule.uncounted (r : FilterRule) : FilterRule :=
  { r with evaluations := 0, «matches» := 0, wins := 0 }

/-- Besides their counters, `filter_flow` leaves the rules as they are. -/
theorem filterFlow_uncounted (localtime : ℕ → Tm) (flow : StoreFlowComplete)
    (rules : List FilterRule) :
    (filterFlow localtime flow rules).filter.map FilterRule.uncounted =
      rules.map FilterRule.uncounted := by
  have hloop : (filterLoop localtime flow 0 none rules).1.map FilterRule.uncounted =
      rules.map FilterRule.uncounted := by
    rw [filterLoop_rules]
    refine List.ext_getElem (by simp) fun i hi hi' => ?_
    rw [List.getElem_map, List.getElem_map, List.getElem_mapIdx]
    rfl
  have hwin (i : ℕ) (l : List FilterRule) :
      (l.modify i fun r => { r with wins := r.wins + 1 }).map FilterRule.uncounted =
        l.map FilterRule.uncounted := by
    refine List.ext_getElem (by simp) fun j hj hj' => ?_
    rw [List.getElem_map, List.getElem_map, List.getElem_modify]
    split <;> rfl
  rw [filterFlow]
  dsimp only
  cases (filterLoop localtime flow 0 none rules).2 with
  | none => exact hloop
  | some last =>
    dsimp only
    split_ifs <;> exact (hwin last.1 _).trans hloop

/-- **What `filter_flow` does.** The rule that decides is the last one that matches among those that
are evaluated, and there is at most one. Without it the flow is accepted as it is; with it the
action is the one of that rule, a tag being an acceptance that marks the flow. The counters of the
rules say which of them were evaluated, which of these match and which one has decided. -/
theorem filterFlow_semantics (localtime : ℕ → Tm) (flow : StoreFlowComplete)
    (rules : List FilterRule) :
    let result := filterFlow localtime flow rules
    (∀ rule : FilterRule, flowMatch localtime rule flow = true ↔
      ∀ c : Criterion, rule.match.frmatch c.bit = true →
        (c.Holds localtime rule.match flow ↔ rule.match.frneg c.bit = false)) ∧
    ∃ winner : Option (ℕ × FilterRule),
      (∀ i rule, winner = some (i, rule) ↔ IsWinner localtime flow rules i rule) ∧
      (winner = none → NoMatch localtime flow rules ∧
        result.action = ffActionAccept ∧ result.flow = flow) ∧
      (∀ i rule, winner = some (i, rule) →
        if rule.action.actionWhat.toUInt32 = ffActionTag then
          result.action = ffActionAccept ∧ Tagged flow result.flow rule.action.tag
        else result.action = rule.action.actionWhat.toUInt32 ∧ result.flow = flow) ∧
      result.filter = rules.mapIdx fun i r =>
        r.counted (i < evaluated localtime flow rules) (flowMatch localtime r flow)
          (winner.map Prod.fst = some i) := by
  intro result
  refine ⟨fun rule => flowMatch_iff localtime rule flow, ?_⟩
  have hrules := filterLoop_rules localtime flow 0 none rules
  rcases filterLoop_last localtime flow 0 none rules with ⟨hno, hlast⟩ | ⟨k, rule, hwin, hlast⟩
  · -- no rule decides
    have hresult : result =
        ⟨ffActionAccept, flow, (filterLoop localtime flow 0 none rules).1⟩ := by
      simp only [result, filterFlow, hlast]
    refine ⟨none, ?_, fun _ => ?_, ?_, ?_⟩
    · intro i rule
      refine iff_of_false (by simp) fun hwin => ?_
      have hmatch := hno i rule hwin.lt_evaluated hwin.get
      rw [hwin.isMatch] at hmatch
      cases hmatch
    · rw [hresult]
      exact ⟨hno, rfl, rfl⟩
    · intro i rule h
      cases h
    · rw [hresult]
      simpa using hrules
  · rw [Nat.zero_add] at hlast
    have hfilter := modify_counted rules
      (fun i r => (decide (i < evaluated localtime flow rules), flowMatch localtime r flow)) k
    refine ⟨some (k, rule), ?_, ?_, ?_, ?_⟩
    · intro i rule'
      constructor
      · rintro h
        cases h
        exact hwin
      · intro hwin'
        obtain ⟨rfl, rfl⟩ := hwin.unique localtime flow hwin'
        rfl
    · intro h
      cases h
    · rintro i rule' h
      cases h
      simp only [result, filterFlow, hlast]
      by_cases htag : rule.action.actionWhat.toUInt32 = ffActionTag
      · rw [if_pos htag, if_pos htag]
        exact ⟨rfl, ⟨htonl_htonl _, htonl_htonl _, rfl⟩⟩
      · rw [if_neg htag, if_neg htag]
        exact ⟨rfl, rfl⟩
    · rw [Option.map_some, ← hfilter, ← hrules]
      simp only [result, filterFlow, hlast]
      split_ifs <;> rfl

end Flowd
