import NetworkMonitoring.Softflowd.Calls

/-!
# softflowd — the time to the next expiry

`next_expire` tells the main loop how long to wait, in milliseconds: it looks at the first event of
the expiry tree only, rounds its time up to the expiry interval, and returns an unsigned number as
an `int`. The scan of `check_expired` does not round, and it passes over the events of the flows a
message has just created, whose time is the placeholder 1.

## Main results

* `removesFlow_iff`: when the scan takes out a flow;
* `nextExpire_sound_iff`: when `next_expire` and the scan agree, by three kinds of first events for
  which they do not;
* `nextExpire_newFlow`: one of them, the placeholder, in a run.
-/

namespace Softflowd

open ErrorLoops OrderedSet

/-! ## The function -/

/-- Cluster expiries by expiry_interval. -/
def FlowTrack.clusterExpiry (ft : FlowTrack) (expiresAt : UInt32) : UInt32 :=
  if ft.expiryInterval > 1 then
    let interval := UInt32.ofInt ft.expiryInterval
    let fudge := expiresAt % interval
    if fudge > 0 then expiresAt + (interval - fudge) else expiresAt
  else expiresAt

/-- Don't cluster urgent expiries. -/
def Expiry.urgent (e : Expiry) : Bool :=
  e.expiresAt = 0 ∧ (e.reason = .overbytes ∨ e.reason = .overflows ∨ e.reason = .flush)

/-- `next_expire`, with the clock at `now`. -/
def FlowTrack.nextExpire (ft : FlowTrack) (now : Timeval) : ℤ :=
  match ft.expiries with
  -- indefinite
  | [] => -1
  | e :: _ =>
    if e.urgent then 0
    else
      let expiresAt := ft.clusterExpiry e.expiresAt
      if (expiresAt.toNat : ℤ) < now.sec then 0
      -- an `u_int32_t` that is returned as an `int`
      else (999 + (expiresAt.toNat - now.sec) * 1000).bmod (2 ^ 32)

section Results

variable {ft : FlowTrack} {e : Expiry} {es : List Expiry} {now : Timeval}

theorem nextExpire_nil (hexp : ft.expiries = []) : ft.nextExpire now = -1 := by
  unfold FlowTrack.nextExpire
  rw [hexp]

theorem nextExpire_urgent (hexp : ft.expiries = e :: es) (hurgent : e.urgent = true) :
    ft.nextExpire now = 0 := by
  unfold FlowTrack.nextExpire
  rw [hexp]
  exact if_pos hurgent

theorem nextExpire_past (hexp : ft.expiries = e :: es) (hurgent : ¬ e.urgent = true)
    (hpast : ((ft.clusterExpiry e.expiresAt).toNat : ℤ) < now.sec) : ft.nextExpire now = 0 := by
  unfold FlowTrack.nextExpire
  rw [hexp]
  exact (if_neg hurgent).trans (if_pos hpast)

theorem nextExpire_ahead (hexp : ft.expiries = e :: es) (hurgent : ¬ e.urgent = true)
    (hahead : ¬ ((ft.clusterExpiry e.expiresAt).toNat : ℤ) < now.sec) :
    ft.nextExpire now =
      (999 + ((ft.clusterExpiry e.expiresAt).toNat - now.sec) * 1000).bmod (2 ^ 32) := by
  unfold FlowTrack.nextExpire
  rw [hexp]
  exact (if_neg hurgent).trans (if_neg hahead)

end Results

/-! ## The scan -/

/-- A call of `check_expired` takes a flow out of the table. -/
structure RemovesFlow (c : ExpiryCall) (s : Daemon) : Prop where
  scan : ∃ ft expired, scanExpired c.now c.ex c.reallocOk s.tracker.ft = .ok (ft, expired) ∧
    ft.flows.length < s.tracker.ft.flows.length
  call : ∀ r s', checkExpired c s = .ok (r, s') →
    s'.tracker.ft.flows.length < s.tracker.ft.flows.length

/-- In a scan that has started with `start`, each flow has gone with an event. -/
structure GoneInPairs (start ft : FlowTrack) : Prop where
  pointers : PointerInv ft
  lengths : ft.flows.length + start.expiries.length = ft.expiries.length + start.flows.length

theorem GoneInPairs.expireFlow {start ft : FlowTrack} {e : Expiry} (h : GoneInPairs start ft)
    (he : e ∈ ft.expiries) (ex : ExpireMode) :
    ∃ f ∈ ft.flows, ft.flowAt e.flow = some f ∧ GoneInPairs start (ft.expireFlow f e ex) ∧
      ft.flows.Perm (f :: (ft.expireFlow f e ex).flows) := by
  obtain ⟨f, hf, hat, hinv, hperm⟩ := h.pointers.expireFlow_perm he ex
  have hpermE : ft.expiries.Perm (e :: (ft.expireFlow f e ex).expiries) :=
    perm_cons_filter_ne h.pointers.nodup_expiry he
  have hlengths := h.lengths
  have hflows := hperm.length_eq
  have hexpiries := hpermE.length_eq
  rw [List.length_cons] at hflows hexpiries
  exact ⟨f, hf, hat, ⟨hinv, by omega⟩, hperm⟩

/-- The scan takes out as many flows as events, and the events are those that are due. -/
theorem scanExpired_lengths {ft : FlowTrack} (h : PointerInv ft) (now : Timeval)
    (ex : ExpireMode) (reallocOk : Expiry → Bool) :
    ∃ ft' expired, scanExpired now ex reallocOk ft = .ok (ft', expired) ∧
      ft'.flows.length + ft.expiries.length =
        (ft.expiries.filter fun e => !e.isDue now ex).length + ft.flows.length := by
  obtain ⟨ft', -, kept, hscan, hpairs, -, -, -, -, hexp⟩ :=
    scanExpired_spec (P := GoneInPairs ft) now ex reallocOk (fun _ h => h.pointers.nodup_expiry)
      (fun _ _ h he => h.expireFlow he ex) ⟨h, Nat.add_comm _ _⟩
  exact ⟨ft', _, hscan, hexp ▸ hpairs.lengths⟩

/-- The scan takes out a flow exactly when some event is due. -/
theorem removesFlow_iff {s : Daemon} (h : PointerInv s.tracker.ft) (c : ExpiryCall) :
    RemovesFlow c s ↔ ∃ e ∈ s.tracker.ft.expiries, e.isDue c.now c.ex = true := by
  obtain ⟨ft, expired, hscan, hlen⟩ := scanExpired_lengths h c.now c.ex c.reallocOk
  have hfilter : (s.tracker.ft.expiries.filter fun e => !e.isDue c.now c.ex).length <
      s.tracker.ft.expiries.length ↔ ∃ e ∈ s.tracker.ft.expiries, e.isDue c.now c.ex = true := by
    rw [List.length_filter_lt_length_iff_exists]
    simp
  constructor
  · rintro ⟨⟨ft₁, expired₁, hscan₁, hlt⟩, -⟩
    obtain ⟨rfl, -⟩ := Prod.mk.inj (Except.ok.inj (hscan.symm.trans hscan₁))
    exact hfilter.mp (by omega)
  · intro hdue
    have hlt := hfilter.mpr hdue
    refine ⟨⟨ft, expired, hscan, by omega⟩, fun r s' hcall => ?_⟩
    obtain ⟨ft₁, expired₁, hscan₁, htable⟩ := checkExpired_table hcall
    obtain ⟨rfl, -⟩ := Prod.mk.inj (Except.ok.inj (hscan.symm.trans hscan₁))
    have hflows : s'.tracker.ft.flows = ft.flows := congrArg Prod.fst htable
    rw [hflows]
    omega

/-! ## Agreement of the two functions -/

/-- What `next_expire` is to tell: when there is nothing to wait for, how long to wait, and when to
scan. -/
structure NextExpireSound (s : Daemon) (now : Timeval) : Prop where
  indefinite : s.tracker.ft.nextExpire now = -1 ↔ s.tracker.ft.expiries = []
  nonneg : s.tracker.ft.expiries ≠ [] → 0 ≤ s.tracker.ft.nextExpire now
  now_removes : s.tracker.ft.nextExpire now = 0 →
    ∀ c : ExpiryCall, c.ex = .normal → c.now = now → RemovesFlow c s

/-- The first multiple of the expiry interval that is not before `expiresAt`. -/
def FlowTrack.roundedUp (ft : FlowTrack) (expiresAt : UInt32) : ℕ :=
  let interval := max 1 ft.expiryInterval.toNat
  (expiresAt.toNat + (interval - 1)) / interval * interval

/-- Some event has the time 0, or one before the clock that is not the placeholder. -/
def FlowTrack.SomeExpired (ft : FlowTrack) (now : Timeval) : Prop :=
  ∃ x ∈ ft.expiries, x.expiresAt = 0 ∨ (x.expiresAt ≠ 1 ∧ (x.expiresAt.toNat : ℤ) < now.sec)

/-- The first event is the placeholder of a new flow, and the end of the first interval has
passed. -/
structure FlowTrack.PlaceholderFirst (ft : FlowTrack) (now : Timeval) (e : Expiry) : Prop where
  placeholder : e.expiresAt = 1
  past : max 1 ft.expiryInterval < now.sec
  alone : ¬ ft.SomeExpired now

/-- The rounded time leaves the 32 bits, and what is left of it has passed. -/
structure FlowTrack.RoundsOver (ft : FlowTrack) (now : Timeval) (e : Expiry) : Prop where
  wraps : 2 ^ 32 ≤ ft.roundedUp e.expiresAt
  past : ft.roundedUp e.expiresAt - 2 ^ 32 < now.sec
  alone : ¬ ft.SomeExpired now

/-- The rounded time is still to come, and the milliseconds to it end in the upper half of a turn of
`2 ^ 32`. -/
structure FlowTrack.WaitsTooLong (ft : FlowTrack) (now : Timeval) (e : Expiry) : Prop where
  ahead : now.sec ≤ (ft.roundedUp e.expiresAt % 2 ^ 32 : ℕ)
  long : ∃ turns : ℕ,
    2 ^ 32 * turns + 2 ^ 31 ≤ 999 + ((ft.roundedUp e.expiresAt % 2 ^ 32 : ℕ) - now.sec) * 1000 ∧
    999 + ((ft.roundedUp e.expiresAt % 2 ^ 32 : ℕ) - now.sec) * 1000 < 2 ^ 32 * (turns + 1)

theorem FlowTrack.someExpired_iff {ft : FlowTrack} {now : Timeval} :
    ft.SomeExpired now ↔ ∃ x ∈ ft.expiries, x.isDue now .normal = true := by
  refine exists_congr fun x => and_congr_right fun _ => ?_
  rw [Expiry.isDue, decide_eq_true_iff]
  by_cases h0 : x.expiresAt = 0
  · simp [h0]
  · simp [h0, and_comm]

/-- An urgent event is due. -/
theorem Expiry.isDue_of_urgent {e : Expiry} (h : e.urgent = true) (now : Timeval)
    (ex : ExpireMode) : e.isDue now ex = true := by
  have h0 : e.expiresAt = 0 := by
    simp only [urgent, Bool.decide_and, Bool.and_eq_true, decide_eq_true_eq] at h
    exact h.1
  simp [isDue, h0]

/-- Rounding up to a multiple of `d` adds what is missing to the next one. -/
theorem div_mul_eq {n d : ℕ} (hd : 0 < d) :
    (n + (d - 1)) / d * d = if n % d = 0 then n else n + (d - n % d) := by
  have hdiv := Nat.mod_add_div n d
  have hlt := Nat.mod_lt n hd
  have hquot : (n + (d - 1)) / d = (n % d + (d - 1)) / d + n / d := by
    conv_lhs => rw [← hdiv, Nat.add_right_comm, Nat.add_mul_div_left _ _ hd]
  rw [hquot, Nat.add_mul, Nat.mul_comm (n / d)]
  split_ifs with hmod
  · rw [hmod, Nat.zero_add, Nat.div_eq_of_lt (by omega)]
    omega
  · have hone : (n % d + (d - 1)) / d = 1 := Nat.div_eq_of_lt_le (by omega) (by omega)
    rw [hone]
    omega

/-- What `next_expire` rounds to, in 32 bits. -/
theorem FlowTrack.toNat_clusterExpiry {ft : FlowTrack} (h : ft.expiryInterval < 2 ^ 31)
    (expiresAt : UInt32) :
    (ft.clusterExpiry expiresAt).toNat = ft.roundedUp expiresAt % 2 ^ 32 := by
  have hlt := expiresAt.toNat_lt
  rw [clusterExpiry, roundedUp]
  by_cases hinterval : ft.expiryInterval > 1
  · obtain ⟨d, hd⟩ := Int.eq_ofNat_of_zero_le (a := ft.expiryInterval) (by omega)
    have hmax : max 1 ft.expiryInterval.toNat = d := by omega
    have hdlt : d < 2 ^ 31 := by omega
    have hnat : (UInt32.ofInt ft.expiryInterval).toNat = d := by
      rw [hd, UInt32.ofInt, UInt32.toNat_ofNat']
      omega
    have hmod : (expiresAt % UInt32.ofInt ft.expiryInterval).toNat = expiresAt.toNat % d := by
      rw [UInt32.toNat_mod, hnat]
    have hfudge := Nat.mod_lt expiresAt.toNat (y := d) (by omega)
    dsimp only
    rw [if_pos hinterval, hmax, div_mul_eq (by omega)]
    -- only a time inside of an interval is rounded, and only this may leave the 32 bits
    by_cases hpos : expiresAt % UInt32.ofInt ft.expiryInterval > 0
    · have hne : expiresAt.toNat % d ≠ 0 := by
        rw [← hmod]
        exact (UInt32.lt_iff_toNat_lt.mp hpos).ne'
      rw [if_pos hpos, if_neg hne, UInt32.toNat_add, UInt32.toNat_sub_of_le, hnat, hmod]
      rw [UInt32.le_iff_toNat_le, hnat, hmod]
      exact hfudge.le
    · have hzero : expiresAt.toNat % d = 0 := by
        rw [← hmod]
        by_contra hne
        exact hpos (UInt32.lt_iff_toNat_lt.mpr (Nat.pos_of_ne_zero hne))
      rw [if_neg hpos, if_pos hzero]
      exact (Nat.mod_eq_of_lt hlt).symm
  · have hmax : max 1 ft.expiryInterval.toNat = 1 := by omega
    dsimp only
    rw [if_neg hinterval, hmax, Nat.sub_self, Nat.add_zero, Nat.div_one, Nat.mul_one]
    exact (Nat.mod_eq_of_lt hlt).symm

/-- Rounding up goes ahead, by less than an interval. -/
theorem FlowTrack.roundedUp_bounds {ft : FlowTrack} (h : ft.expiryInterval < 2 ^ 31)
    (expiresAt : UInt32) : expiresAt.toNat ≤ ft.roundedUp expiresAt ∧
      ft.roundedUp expiresAt < expiresAt.toNat + 2 ^ 31 := by
  rw [roundedUp, div_mul_eq (by omega)]
  split_ifs <;> omega

/-- The placeholder is rounded up to the interval. -/
theorem FlowTrack.roundedUp_one (ft : FlowTrack) :
    (ft.roundedUp 1 : ℤ) = max 1 ft.expiryInterval := by
  have hone : (1 : UInt32).toNat = 1 := rfl
  rw [roundedUp, div_mul_eq (by omega), hone]
  by_cases hinterval : ft.expiryInterval.toNat ≤ 1
  · rw [max_eq_left hinterval, Nat.mod_self, if_pos rfl]
    omega
  · rw [max_eq_right (by omega), Nat.mod_eq_of_lt (by omega), if_neg one_ne_zero]
    omega

/-- A number of milliseconds that ends in 999 is not zero modulo `2 ^ 32`. -/
theorem bmod_ms_ne_zero (t : ℤ) : (999 + t * 1000).bmod (2 ^ 32) ≠ 0 := by
  intro h
  have := Int.bmod_emod (x := 999 + t * 1000) (m := 2 ^ 32)
  rw [h] at this
  omega

section Cases

variable {s : Daemon} {e : Expiry} {es : List Expiry} {now : Timeval}

/-- Without an event `next_expire` is right. -/
theorem NextExpireSound.of_nil (hexp : s.tracker.ft.expiries = []) : NextExpireSound s now := by
  have hnext : s.tracker.ft.nextExpire now = -1 := nextExpire_nil hexp
  refine ⟨by simp [hnext, hexp], fun hne => absurd hexp hne, fun h0 => ?_⟩
  rw [hnext] at h0
  cases h0

/-- When it returns 0, some event has to be due. -/
theorem nextExpireSound_iff_of_zero (h : CallReachable s) (hexp : s.tracker.ft.expiries = e :: es)
    (hnext : s.tracker.ft.nextExpire now = 0) :
    NextExpireSound s now ↔ s.tracker.ft.SomeExpired now := by
  have hne : s.tracker.ft.expiries ≠ [] := by simp [hexp]
  have hremoves := fun c => removesFlow_iff h.pointerInv (c := c)
  rw [FlowTrack.someExpired_iff]
  constructor
  · intro hsound
    exact (hremoves { ex := .normal, now := now }).mp (hsound.now_removes hnext _ rfl rfl)
  · intro hdue
    refine ⟨by simp [hnext, hne], fun _ => hnext ▸ Int.le_refl 0, fun _ c hex hnow => ?_⟩
    exact (hremoves c).mpr (by rw [hex, hnow]; exact hdue)

/-- When it waits for an event, the number of milliseconds must not turn negative as an `int`. -/
theorem nextExpireSound_iff_of_ahead (hexp : s.tracker.ft.expiries = e :: es)
    (hurgent : ¬ e.urgent = true)
    (hahead : ¬ ((s.tracker.ft.clusterExpiry e.expiresAt).toNat : ℤ) < now.sec) :
    NextExpireSound s now ↔ 0 ≤ (999 +
      ((s.tracker.ft.clusterExpiry e.expiresAt).toNat - now.sec) * 1000).bmod (2 ^ 32) := by
  have hne : s.tracker.ft.expiries ≠ [] := by simp [hexp]
  have hnext := nextExpire_ahead hexp hurgent hahead
  rw [← hnext]
  refine ⟨fun hsound => hsound.nonneg hne, fun hnonneg => ⟨⟨fun h1 => by omega, fun hnil =>
    absurd hnil hne⟩, fun _ => hnonneg, fun h0 => ?_⟩⟩
  rw [hnext] at h0
  exact absurd h0 (bmod_ms_ne_zero _)

/-- When the first event is not urgent and its rounded time has passed, an event has to be due. -/
theorem someExpired_iff_of_past (hinterval : s.tracker.ft.expiryInterval < 2 ^ 31)
    (hmem : e ∈ s.tracker.ft.expiries)
    (hpast : ((s.tracker.ft.roundedUp e.expiresAt % 2 ^ 32 : ℕ) : ℤ) < now.sec) :
    s.tracker.ft.SomeExpired now ↔
      ¬ s.tracker.ft.PlaceholderFirst now e ∧ ¬ s.tracker.ft.RoundsOver now e := by
  have hlt := e.expiresAt.toNat_lt
  obtain ⟨hle, hbound⟩ := FlowTrack.roundedUp_bounds hinterval e.expiresAt
  refine ⟨fun hsome => ⟨fun h => h.alone hsome, fun h => h.alone hsome⟩, ?_⟩
  rintro ⟨hplaceholder, hover⟩
  by_contra hnone
  by_cases hrounded : s.tracker.ft.roundedUp e.expiresAt < 2 ^ 32
  · -- the event itself has passed, so it is the placeholder
    rw [Nat.mod_eq_of_lt hrounded] at hpast
    by_cases h1 : e.expiresAt = 1
    · rw [h1, FlowTrack.roundedUp_one] at hpast
      exact hplaceholder ⟨h1, hpast, hnone⟩
    · exact hnone ⟨e, hmem, .inr ⟨h1, by omega⟩⟩
  · exact hover ⟨not_lt.mp hrounded, by omega, hnone⟩

theorem bmod_nonneg_iff (x : ℤ) : 0 ≤ x.bmod (2 ^ 32) ↔ x % 2 ^ 32 < 2 ^ 31 := by
  rw [Int.bmod_def]
  norm_num
  omega

/-- When the rounded time is still to come, the milliseconds have to fit. -/
theorem bmod_nonneg_iff_not_waitsTooLong
    (hahead : ¬ ((s.tracker.ft.roundedUp e.expiresAt % 2 ^ 32 : ℕ) : ℤ) < now.sec) :
    0 ≤ (999 + ((s.tracker.ft.roundedUp e.expiresAt % 2 ^ 32 : ℕ) - now.sec) * 1000).bmod
      (2 ^ 32) ↔ ¬ s.tracker.ft.WaitsTooLong now e := by
  generalize hms : 999 + (((s.tracker.ft.roundedUp e.expiresAt % 2 ^ 32 : ℕ) : ℤ) - now.sec) * 1000
    = ms
  have hpos : 0 ≤ ms := by omega
  rw [bmod_nonneg_iff]
  constructor
  · rintro hlow ⟨-, turns, hlo, hhi⟩
    rw [hms] at hlo hhi
    -- the number of turns is the quotient
    have hle : turns < ms / 2 ^ 32 := by omega
    have hge : ms / 2 ^ 32 ≤ turns := by omega
    omega
  · intro hnot
    by_contra hhigh
    have hturns : (((ms / 2 ^ 32).toNat : ℕ) : ℤ) = ms / 2 ^ 32 :=
      Int.toNat_of_nonneg (Int.ediv_nonneg hpos (by decide))
    refine hnot ⟨not_lt.mp hahead, (ms / 2 ^ 32).toNat, ?_, ?_⟩
    · rw [hms, hturns]
      omega
    · rw [hms, hturns]
      omega

/-- A wait of less than `2 ^ 31` milliseconds is not too long. -/
theorem not_waitsTooLong_of_le
    (h : (s.tracker.ft.roundedUp e.expiresAt % 2 ^ 32 : ℕ) - now.sec ≤ 2147482) :
    ¬ s.tracker.ft.WaitsTooLong now e := by
  rintro ⟨-, turns, hlo, -⟩
  omega

end Cases

/-- **The next expiry.** In every state that calls lead to, whichever of them fail, for every clock
and every interval that is an `int`, `next_expire` is right exactly when there is no event, or the
first one is urgent, or it is neither the placeholder of a new flow nor one whose rounded time
leaves the 32 bits nor one for which the wait is too long. -/
theorem nextExpire_sound_iff {s : Daemon} (h : CallReachable s)
    (hinterval : s.tracker.ft.expiryInterval < 2 ^ 31) (now : Timeval) :
    NextExpireSound s now ↔
      ∀ e es, s.tracker.ft.expiries = e :: es → e.urgent = true ∨
        (¬ s.tracker.ft.PlaceholderFirst now e ∧ ¬ s.tracker.ft.RoundsOver now e) ∧
          ¬ s.tracker.ft.WaitsTooLong now e := by
  cases hexp : s.tracker.ft.expiries with
  | nil => exact iff_of_true (.of_nil hexp) fun e es hcons => by cases hcons
  | cons e es =>
    have hmem : e ∈ s.tracker.ft.expiries := hexp ▸ List.mem_cons_self
    have hround := FlowTrack.toNat_clusterExpiry hinterval e.expiresAt
    have hfirst : ∀ {P : Expiry → Prop}, (∀ e' es', e :: es = e' :: es' → P e') ↔ P e := by
      intro P
      refine ⟨fun hall => hall e es rfl, fun hP e' es' heq => ?_⟩
      obtain ⟨rfl, -⟩ := List.cons.inj heq
      exact hP
    rw [hfirst]
    -- 0 for an urgent event is always right: the scan removes its flow
    by_cases hurgent : e.urgent = true
    · rw [nextExpireSound_iff_of_zero h hexp (nextExpire_urgent hexp hurgent)]
      refine iff_of_true (FlowTrack.someExpired_iff.mpr ⟨e, hmem, ?_⟩) (.inl hurgent)
      exact Expiry.isDue_of_urgent hurgent now .normal
    rw [or_iff_right hurgent]
    -- the result is 0 if the rounded time is over, and else the milliseconds to it
    by_cases hpast : ((s.tracker.ft.roundedUp e.expiresAt % 2 ^ 32 : ℕ) : ℤ) < now.sec
    · rw [nextExpireSound_iff_of_zero h hexp (nextExpire_past hexp hurgent (by rwa [hround])),
        someExpired_iff_of_past hinterval hmem hpast]
      exact (and_iff_left fun hlong => absurd hpast (not_lt.mpr hlong.ahead)).symm
    · rw [nextExpireSound_iff_of_ahead hexp hurgent (by rwa [hround]), hround,
        bmod_nonneg_iff_not_waitsTooLong hpast]
      -- the other two cases are about a rounded time that is over
      refine (and_iff_right ⟨fun hplaceholder => hpast ?_, fun hover => hpast ?_⟩).symm
      · have hlt := hplaceholder.past
        rw [hplaceholder.placeholder]
        have hone := s.tracker.ft.roundedUp_one
        omega
      · have hlt := e.expiresAt.toNat_lt
        have hbound := (FlowTrack.roundedUp_bounds hinterval e.expiresAt).2
        have hover' := hover.wraps
        have hlt' := hover.past
        omega

/-- A flow that two messages have reported has a proper expiry time. -/
theorem nextExpire_sound_updated :
    ∃ s, CallReachable s ∧ s.tracker.ft.expiries.length = 1 ∧ NextExpireSound s ⟨2000, 0⟩ := by
  obtain ⟨t, hrun, hexp, hinterval⟩ : ∃ t, runOk {} [sampleCall, sampleCall] = some t ∧
      t.ft.expiries = [⟨1, 0, 4600, .tcp⟩] ∧ t.ft.expiryInterval = 60 := by
    have hcheck : (runOk {} [sampleCall, sampleCall]).any (fun t =>
        t.ft.expiries = [⟨1, 0, 4600, .tcp⟩] ∧ t.ft.expiryInterval = 60) = true := by
      decide +kernel
    obtain ⟨t, ht, hp⟩ := (Option.any_eq_true _ _).mp hcheck
    exact ⟨t, ht, by simpa using hp⟩
  have hreach : CallReachable { tracker := t } :=
    CallReachable.messages (s := {}) (.init ⟨rfl, rfl, rfl, rfl⟩) _ hrun
  refine ⟨_, hreach, by simp [hexp],
    (nextExpire_sound_iff hreach (by rw [hinterval]; decide) _).mpr ?_⟩
  rintro e es hcons
  obtain ⟨rfl, -⟩ := List.cons.inj (hexp.symm.trans hcons)
  have hround : t.ft.roundedUp 4600 = 4620 := by
    rw [FlowTrack.roundedUp, hinterval]
    rfl
  refine .inr ⟨⟨fun hplaceholder => ?_, fun hover => ?_⟩,
    not_waitsTooLong_of_le (s := { tracker := t }) ?_⟩
  · exact absurd hplaceholder.placeholder (by decide)
  · have hover' := hover.wraps
    change 2 ^ 32 ≤ t.ft.roundedUp 4600 at hover'
    omega
  · change ((t.ft.roundedUp 4600 % 2 ^ 32 : ℕ) : ℤ) - 2000 ≤ 2147482
    omega

/-- One message creates a flow: `next_expire` says that it is time to scan, and the scan takes out
nothing. -/
theorem nextExpire_newFlow :
    ∃ s, CallReachable s ∧ s.tracker.ft.nextExpire ⟨1000, 0⟩ = 0 ∧
      ¬ RemovesFlow { ex := .normal, now := ⟨1000, 0⟩ } s := by
  obtain ⟨t, hrun, hexp, hnext⟩ : ∃ t, runOk {} [sampleCall] = some t ∧
      t.ft.expiries = [⟨1, 0, 1, .general⟩] ∧ t.ft.nextExpire ⟨1000, 0⟩ = 0 := by
    have hcheck : (runOk {} [sampleCall]).any (fun t =>
        t.ft.expiries = [⟨1, 0, 1, .general⟩] ∧ t.ft.nextExpire ⟨1000, 0⟩ = 0) = true := by
      decide +kernel
    obtain ⟨t, ht, hp⟩ := (Option.any_eq_true _ _).mp hcheck
    exact ⟨t, ht, by simpa using hp⟩
  have hreach : CallReachable { tracker := t } :=
    CallReachable.messages (s := {}) (.init ⟨rfl, rfl, rfl, rfl⟩) _ hrun
  refine ⟨_, hreach, hnext, fun hremoves => ?_⟩
  obtain ⟨e, he, hdue⟩ := (removesFlow_iff hreach.pointerInv _).mp hremoves
  rw [hexp, List.mem_singleton] at he
  subst he
  simp [Expiry.isDue] at hdue

end Softflowd
