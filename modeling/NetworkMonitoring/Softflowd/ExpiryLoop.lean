import NetworkMonitoring.Foundations.FueledLoops
import NetworkMonitoring.Softflowd.ExportReturns
import NetworkMonitoring.Softflowd.ForceExpire

/-!
# softflowd — the loop over the expiry of flows

The part of `main` behind the label `expiry_check`: one pass calls `check_expired`, and when there
are still too many flows, or the emulator has ended and there are flows left, it calls
`force_expire` and starts another pass. The clock does not move meanwhile.

A forced event is due in the next pass, so every pass that follows removes what the one before has
forced. Without the array of `force_expire` the expiry tree need not be ordered between two passes;
`Rekeyed` is what is left of the invariant then, and it is enough for the scan.

## Main results

* `ExpiryLoop.Inv.checked`: what `check_expired` does in a pass;
* `Exports.returns`: the calls of `check_expired` return, for each of the exporters;
* `expiryCheck_ends`: the loop ends, and which flows it takes out;
* `expiryCheck_oneFlowTooMany`: what it does when an allocation fails.
-/

namespace Softflowd

open ErrorLoops FueledLoops OrderedSet

/-! ## The loop -/

/-- What the loop reads and its passes do not write. -/
structure ExpiryEnv where
  usingEmulator : Bool := false
  /-- Whether the packets come from a capture file. -/
  capfile : Bool := false
  stopsEmulatorThread : Bool := false
  maxFlows : UInt32
  target : Option NetflowSendFunc := none
  now : Timeval := {}
  /-- Whether the array of `check_expired` can grow, for each pass. -/
  reallocOk : ℕ → Expiry → Bool := fun _ _ => true
  /-- Whether the array of `force_expire` can be allocated, for each pass. -/
  callocOk : ℕ → Bool := fun _ => true

/-- The mode of the calls of `check_expired`. -/
def ExpiryEnv.ex (env : ExpiryEnv) : ExpireMode :=
  if env.usingEmulator then .normal else if env.capfile then .forced else .normal

/-- Whether the emulator has ended. -/
def ExpiryEnv.stopped (env : ExpiryEnv) : Bool := env.usingEmulator && env.stopsEmulatorThread

/-- The call of `check_expired` in a pass. -/
def ExpiryEnv.call (env : ExpiryEnv) (pass : ℕ) : ExpiryCall where
  usingEmulator := env.usingEmulator
  target := env.target
  ex := env.ex
  now := env.now
  reallocOk := env.reallocOk pass

/-- The flows a call of `check_expired` hands to the exporter: its array `expired_flows`. -/
def ExpiryCall.handsOn (c : ExpiryCall) (s : Daemon) : List Flow :=
  match scanExpired c.now c.ex c.reallocOk s.tracker.ft with
  | .ok (_, expired) => expired
  | .error _ => []

/-- The state of the loop. `handed` are the flows that have been handed to the exporter so far. -/
structure ExpiryLoop where
  daemon : Daemon
  pass : ℕ := 0
  exitRequest : Bool := false
  handed : List Flow := []

/-- The flow table. -/
def ExpiryLoop.ft (st : ExpiryLoop) : FlowTrack := st.daemon.tracker.ft

/-- After the call of `check_expired`, which has left the state `s`. -/
def ExpiryLoop.check (env : ExpiryEnv) (st : ExpiryLoop) (s : Daemon) : ExpiryLoop :=
  { st with daemon := s, handed := st.handed ++ (env.call st.pass).handsOn st.daemon }

/-- After the call of `force_expire`, before the next pass. -/
def ExpiryLoop.force (env : ExpiryEnv) (st : ExpiryLoop) (num : UInt32) : ExpiryLoop :=
  { st with
    pass := st.pass + 1
    daemon := { st.daemon with tracker := { st.daemon.tracker with
      ft := st.ft.forceExpire (env.callocOk st.pass) num } } }

/-- The end of a pass, after `check_expired`: leave the loop, or go back to `expiry_check`. -/
def ExpiryLoop.proceed (env : ExpiryEnv) (st : ExpiryLoop) : ExpiryLoop ⊕ ExpiryLoop :=
  -- If we are over max_flows, force-expire the oldest out first
  if st.ft.numFlows > env.maxFlows then .inr (st.force env (st.ft.numFlows - env.maxFlows))
  else if env.stopped then
    -- End received from the emulator, sending force-expire to all flows
    if st.ft.numFlows > 0 then .inr (st.force env st.ft.numFlows)
    else .inl { st with exitRequest := true }
  else .inl st

/-- One pass. -/
def expiryPass (env : ExpiryEnv) (st : ExpiryLoop) : Except Fault (ExpiryLoop ⊕ ExpiryLoop) := do
  let (_, s) ← checkExpired (env.call st.pass) st.daemon
  return (st.check env s).proceed env

/-- The loop. -/
def expiryCheck (env : ExpiryEnv) (fuel : ℕ) (s : Daemon) : Except Fault ExpiryLoop :=
  iterate (orFail (expiryPass env)) (.error .noReturn) fuel { daemon := s }

theorem expiryPass_of_checked {env : ExpiryEnv} {st : ExpiryLoop} {r : ℤ} {s : Daemon}
    (hcall : checkExpired (env.call st.pass) st.daemon = .ok (r, s)) :
    expiryPass env st = .ok ((st.check env s).proceed env) := by
  unfold expiryPass
  rw [hcall]
  rfl

/-! ## Tables whose events have been forced -/

/-- A consistent table, up to the keys and the order of the expiry events. -/
def Rekeyed (n : ℕ) (ft : FlowTrack) : Prop :=
  ∃ es, TableInv n { ft with expiries := es } ∧
    (ft.expiries.map fun e => (e.flow, e.ptr)).Perm (es.map fun e => (e.flow, e.ptr))

/-- All events have been forced. -/
def AllForced (ft : FlowTrack) : Prop := ∀ e ∈ ft.expiries, e.expiresAt = 0

/-- A forced event is due in every pass. -/
theorem Expiry.isDue_of_forced {e : Expiry} (h : e.expiresAt = 0) (now : Timeval)
    (ex : ExpireMode) : e.isDue now ex = true := by
  simp [Expiry.isDue, h]

/-- Nothing is left of forced events. -/
theorem filter_not_isDue_of_forced {es : List Expiry} (h : ∀ e ∈ es, e.expiresAt = 0)
    (now : Timeval) (ex : ExpireMode) : (es.filter fun e => !e.isDue now ex) = [] := by
  rw [List.filter_eq_nil_iff]
  intro e he
  simp [Expiry.isDue_of_forced (h e he)]

theorem TableInv.rekeyed {n : ℕ} {ft : FlowTrack} (h : TableInv n ft) : Rekeyed n ft :=
  ⟨ft.expiries, h, .refl _⟩

namespace Rekeyed

variable {n : ℕ} {ft ft' : FlowTrack} {e : Expiry}

theorem nodup_expiry (h : Rekeyed n ft) : (ft.expiries.map Expiry.ptr).Nodup := by
  obtain ⟨es, hinv, hpairs⟩ := h
  have hptrs := hpairs.map Prod.snd
  simp only [List.map_map] at hptrs
  exact hptrs.nodup_iff.mpr hinv.nodup_expiry

/-- Without events there is nothing to order. -/
theorem tableInv_of_nil (h : Rekeyed n ft) (hnil : ft.expiries = []) : TableInv n ft := by
  obtain ⟨es, hinv, hpairs⟩ := h
  obtain rfl : es = [] := by simpa [hnil] using hpairs
  exact hinv.of_table (by simp [FlowTrack.table, hnil])

theorem of_table (h : Rekeyed n ft) (heq : ft'.table = ft.table) : Rekeyed n ft' := by
  simp only [FlowTrack.table, Prod.mk.injEq] at heq
  obtain ⟨hf, he, hnum, hseq, hptr⟩ := heq
  obtain ⟨es, hinv, hpairs⟩ := h
  refine ⟨es, hinv.of_table ?_, he ▸ hpairs⟩
  simp [FlowTrack.table, hf, hnum, hseq, hptr]

/-- Taking out an expired flow. -/
theorem expireFlow (h : Rekeyed n ft) (he : e ∈ ft.expiries) (ex : ExpireMode) :
    ∃ f ∈ ft.flows, ft.flowAt e.flow = some f ∧ Rekeyed n (ft.expireFlow f e ex) ∧
      ft.flows.Perm (f :: (ft.expireFlow f e ex).flows) := by
  obtain ⟨es, hinv, hpairs⟩ := h
  -- the event as the ordered tree has it
  obtain ⟨x, hx, hpair⟩ := List.mem_map.mp
    (hpairs.subset (List.mem_map_of_mem (f := fun e : Expiry => (e.flow, e.ptr)) he))
  obtain ⟨hflow, hptr⟩ := Prod.mk.inj hpair
  obtain ⟨f, hf, hfptr, hexp⟩ := hinv.flow_of_expiry hx
  have hflows : (ft.expireFlow f e ex).flows = ft.flows.filter fun g => g.ptr != f.ptr := rfl
  have hat : ft.flowAt f.ptr = some f := hinv.flowAt_eq hf
  refine ⟨f, hf, hflow ▸ hfptr ▸ hat, ⟨es.filter fun y => y.ptr != e.ptr, ?_, ?_⟩, ?_⟩
  · exact hinv.unlink hf hx hfptr.symm hexp hflows (hptr ▸ rfl) rfl rfl rfl
  · have hrest := hpairs.filter fun p => p.2 != e.ptr
    rw [List.filter_map, List.filter_map] at hrest
    exact hrest
  · exact perm_cons_filter_ne hinv.nodup_ptr hf

end Rekeyed

/-- Forced expiry, with its array or without it. -/
theorem TableInv.forceExpire_rekeyed {n : ℕ} {ft : FlowTrack} (h : TableInv n ft) (callocOk : Bool)
    (num : UInt32) : Rekeyed n (ft.forceExpire callocOk num) := by
  cases callocOk with
  | true => exact (h.forceExpire num).1.rekeyed
  | false =>
    refine ⟨ft.expiries, h.of_table rfl, List.Perm.of_eq ?_⟩
    exact (List.map_map ..).trans rfl

/-- Forced expiry of as many events as there are. -/
theorem TableInv.forceExpire_allForced {n : ℕ} {ft : FlowTrack} (h : TableInv n ft)
    (callocOk : Bool) {num : UInt32} (hnum : callocOk = true → ft.expiries.length ≤ num.toNat) :
    AllForced (ft.forceExpire callocOk num) := by
  intro e he
  cases callocOk with
  | true =>
    have hperm := h.forceExpire_perm num
    rw [List.take_of_length_le (hnum rfl), List.drop_of_length_le (hnum rfl),
      List.append_nil] at hperm
    obtain ⟨x, -, rfl⟩ := List.mem_map.mp (hperm.subset he)
    rfl
  | false =>
    obtain ⟨x, -, rfl⟩ := List.mem_map.mp he
    rfl

/-! ## Passes -/

/-- Of the flows `fs`, those that are not in the table any more have been taken out once, and
handed to the exporter where the array `expired_flows` could grow. -/
def ExpiryLoop.Accounts (env : ExpiryEnv) (fs : List Flow) (st : ExpiryLoop) : Prop :=
  ∃ gone kept, fs.Perm (gone ++ st.ft.flows) ∧ st.handed = kept.map Flow.retire ∧
    kept.Sublist gone ∧ ((∀ k e, env.reallocOk k e = true) → kept = gone)

/-- The loop at the start of a pass, when the table had the flows `fs` at first. -/
structure ExpiryLoop.Inv (env : ExpiryEnv) (n : ℕ) (fs : List Flow) (st : ExpiryLoop) : Prop where
  rekeyed : Rekeyed n st.ft
  /-- The tree is ordered, or everything in it goes in this pass. -/
  ordered : TableInv n st.ft ∨ AllForced st.ft
  accounts : st.Accounts env fs
  exitRequest_eq : st.exitRequest = false

/-- The loop behind the call of `check_expired` in a pass. -/
structure ExpiryLoop.Checked (env : ExpiryEnv) (n : ℕ) (fs : List Flow) (st : ExpiryLoop) : Prop
    where
  tableInv : TableInv n st.ft
  accounts : st.Accounts env fs
  exitRequest_eq : st.exitRequest = false

namespace ExpiryLoop

variable {env : ExpiryEnv} {n : ℕ} {fs : List Flow} {st : ExpiryLoop} {s : Daemon} {r : ℤ}

/-- What `check_expired` does in a pass. -/
theorem Inv.checked (h : st.Inv env n fs)
    (hcall : checkExpired (env.call st.pass) st.daemon = .ok (r, s)) :
    (st.check env s).Checked env n fs ∧
      (st.check env s).ft.expiries =
        st.ft.expiries.filter fun e => !e.isDue env.now env.ex := by
  -- the exporter changes nothing in the table, so the scan says what has happened
  obtain ⟨ft, expired, hscan, htable⟩ := checkExpired_table hcall
  obtain ⟨ft', gone, kept, hscan', hrekeyed, -, hperm, hsub, hkept, hexp⟩ :=
    scanExpired_spec (P := Rekeyed n) env.now env.ex (env.reallocOk st.pass)
      (fun _ h => h.nodup_expiry) (fun _ _ h he => h.expireFlow he env.ex) h.rekeyed
  obtain ⟨rfl, hexpired⟩ := Prod.mk.inj (Except.ok.inj (hscan.symm.trans hscan'))
  have hhands : (env.call st.pass).handsOn st.daemon = kept.map Flow.retire := by
    unfold ExpiryCall.handsOn
    rw [hscan, hexpired]
  have htable' := htable
  simp only [FlowTrack.table, Prod.mk.injEq] at htable'
  obtain ⟨hflows, hexpiries, -⟩ := htable'
  refine ⟨⟨?_, ?_, h.exitRequest_eq⟩, hexpiries.trans hexp⟩
  · rcases h.ordered with hinv | hforced
    · obtain ⟨ft₁, _, _, hscan₁, hinv₁, -⟩ :=
        scanExpired_spec (P := TableInv n) env.now env.ex (env.reallocOk st.pass)
          (fun _ h => h.nodup_expiry) (fun _ _ h he => h.expireFlow he env.ex) hinv
      obtain ⟨rfl, -⟩ := Prod.mk.inj (Except.ok.inj (hscan.symm.trans hscan₁))
      exact hinv₁.of_table htable
    · -- nothing is left
      have hnil : ft.expiries = [] := by
        rw [hexp]
        exact filter_not_isDue_of_forced hforced _ _
      exact (hrekeyed.tableInv_of_nil hnil).of_table htable
  · -- what the pass takes out is behind what the earlier ones have
    obtain ⟨gone₀, kept₀, hperm₀, hhanded₀, hsub₀, hkept₀⟩ := h.accounts
    refine ⟨gone₀ ++ gone, kept₀ ++ kept, ?_, ?_, hsub₀.append hsub, ?_⟩
    · rw [List.append_assoc]
      refine hperm₀.trans (List.Perm.append_left gone₀ ?_)
      exact (hperm.trans (List.Perm.of_eq (by rw [← hflows]; rfl)))
    · rw [List.map_append, ← hhanded₀, ← hhands]
      rfl
    · intro hok
      rw [hkept₀ hok, hkept (hok st.pass)]

/-- The table has as many flows as at first, or fewer. -/
theorem Accounts.length_le (h : st.Accounts env fs) : st.ft.flows.length ≤ fs.length := by
  obtain ⟨gone, -, hperm, -⟩ := h
  have hlen := hperm.length_eq
  rw [List.length_append] at hlen
  omega

/-- `num_flows` counts the flows. -/
theorem Checked.toNat_numFlows (h : st.Checked env n fs) (hlen : fs.length < 2 ^ 32) :
    st.ft.numFlows.toNat = st.ft.flows.length := by
  have hle := h.accounts.length_le
  rw [h.tableInv.numFlows_eq, UInt32.toNat_ofNat', Nat.mod_eq_of_lt (by omega)]

theorem Checked.numFlows_eq_zero (h : st.Checked env n fs) (hnil : st.ft.flows = []) :
    st.ft.numFlows = 0 := by
  rw [h.tableInv.numFlows_eq, hnil]
  rfl

/-- The next pass starts with a table whose events can be followed, and which is ordered if not all
events have been forced. -/
theorem Checked.force (h : st.Checked env n fs) (num : UInt32) :
    (st.force env num).Inv env n fs where
  rekeyed := h.tableInv.forceExpire_rekeyed _ num
  ordered := by
    change TableInv n (st.ft.forceExpire (env.callocOk st.pass) num) ∨
      AllForced (st.ft.forceExpire (env.callocOk st.pass) num)
    cases hcalloc : env.callocOk st.pass with
    | true => exact .inl (h.tableInv.forceExpire num).1
    | false => exact .inr (h.tableInv.forceExpire_allForced false fun hc => nomatch hc)
  accounts := by
    obtain ⟨gone, kept, hperm, hrest⟩ := h.accounts
    refine ⟨gone, kept, ?_, hrest⟩
    have hflows : (st.force env num).ft.flows = st.ft.flows :=
      FlowTrack.flows_forceExpire st.ft (env.callocOk st.pass) num
    rwa [hflows]
  exitRequest_eq := h.exitRequest_eq

/-- The rest of a pass either leaves the loop, or forces events and starts another pass. -/
theorem proceed_eq_inr {st' : ExpiryLoop} (h : st.proceed env = .inr st') :
    ∃ num, st' = st.force env num := by
  unfold proceed at h
  split at h
  · exact ⟨_, (Sum.inr.inj h).symm⟩
  · split at h
    · split at h
      · exact ⟨_, (Sum.inr.inj h).symm⟩
      · cases h
    · cases h

theorem Checked.inv_of_proceed (h : st.Checked env n fs) {st' : ExpiryLoop}
    (hgo : st.proceed env = .inr st') : st'.Inv env n fs := by
  obtain ⟨num, rfl⟩ := proceed_eq_inr hgo
  exact h.force num

/-- What every pass keeps. -/
theorem Inv.pass (h : st.Inv env n fs) {st' : ExpiryLoop}
    (hpass : orFail (expiryPass env) st = .inr st') : st'.Inv env n fs := by
  obtain ⟨⟨r, s⟩, hcall, hgo⟩ := bind_eq_ok.mp (orFail_eq_inr.mp hpass)
  exact (h.checked hcall).1.inv_of_proceed (Except.ok.inj hgo)

/-- What holds wherever the loop comes to. -/
theorem Inv.reaches (h : st.Inv env n fs) {st' : ExpiryLoop}
    (hreach : Reaches (orFail (expiryPass env)) st st') : st'.Inv env n fs :=
  hreach.invariant h fun _ _ _ hinv hpass => hinv.pass hpass

theorem inv_start (h : TableInv n s.tracker.ft) :
    Inv env n s.tracker.ft.flows { daemon := s } where
  rekeyed := h.rekeyed
  ordered := .inl h
  accounts := ⟨[], [], .refl _, rfl, .refl _, fun _ => rfl⟩
  exitRequest_eq := rfl

/-! ## The end of the loop -/

/-- From `st` the loop comes to an end in the state `out`. -/
def EndsIn (env : ExpiryEnv) (st out : ExpiryLoop) : Prop :=
  ∃ t, Reaches (orFail (expiryPass env)) st t ∧ orFail (expiryPass env) t = .inl (.ok out)

/-- A pass after which the loop is left. -/
theorem endsIn_of_inl {out : ExpiryLoop}
    (hcall : checkExpired (env.call st.pass) st.daemon = .ok (r, s))
    (hend : (st.check env s).proceed env = .inl out) : EndsIn env st out := by
  refine ⟨st, .refl st, orFail_eq_inl_ok.mpr ?_⟩
  rw [expiryPass_of_checked hcall, hend]

theorem pass_of_inr {st' : ExpiryLoop}
    (hcall : checkExpired (env.call st.pass) st.daemon = .ok (r, s))
    (hgo : (st.check env s).proceed env = .inr st') : orFail (expiryPass env) st = .inr st' := by
  rw [orFail_eq_inr, expiryPass_of_checked hcall, hgo]

/-- A pass after which another one starts. -/
theorem endsIn_of_inr {st' out : ExpiryLoop}
    (hcall : checkExpired (env.call st.pass) st.daemon = .ok (r, s))
    (hgo : (st.check env s).proceed env = .inr st') (h : EndsIn env st' out) :
    EndsIn env st out := by
  obtain ⟨t, hreach, ht⟩ := h
  exact ⟨t, hreach.head (pass_of_inr hcall hgo), ht⟩

/-- The loop is left with `exit_request` set when the emulator has ended. -/
def leave (env : ExpiryEnv) (st : ExpiryLoop) : ExpiryLoop :=
  { st with exitRequest := env.stopped }

theorem Checked.proceed_eq_inl (h : st.Checked env n fs) (hle : st.ft.numFlows ≤ env.maxFlows)
    (hnum : env.stopped = true → st.ft.numFlows = 0) : st.proceed env = .inl (st.leave env) := by
  unfold proceed leave
  rw [if_neg (UInt32.not_lt.mpr hle)]
  cases hstop : env.stopped with
  | true => simp [hnum hstop]
  | false =>
    have hexit := h.exitRequest_eq
    obtain ⟨daemon, pass, exitRequest, handed⟩ := st
    obtain rfl : exitRequest = false := hexit
    rfl

/-- A pass in which all flows go is the last one. -/
theorem Inv.endsIn_of_allForced (h : st.Inv env n fs) (hall : AllForced st.ft)
    (hcall : checkExpired (env.call st.pass) st.daemon = .ok (r, s)) :
    EndsIn env st ((st.check env s).leave env) ∧ (st.check env s).Checked env n fs ∧
      (st.check env s).ft.flows = [] := by
  obtain ⟨hchecked, hexp⟩ := h.checked hcall
  have hnil : (st.check env s).ft.expiries = [] := by
    rw [hexp]
    exact filter_not_isDue_of_forced hall _ _
  have hflows : (st.check env s).ft.flows = [] := by
    rw [← List.length_eq_zero_iff, ← hchecked.tableInv.length_expiries, hnil]
    rfl
  have hnum := hchecked.numFlows_eq_zero hflows
  refine ⟨endsIn_of_inl hcall (hchecked.proceed_eq_inl ?_ fun _ => hnum), hchecked, hflows⟩
  rw [hnum]
  exact UInt32.zero_le

/-- The rest of the loop, once there are no more than `max_flows` flows: it is left, or, when the
emulator has ended, another pass takes out all flows. -/
theorem Checked.settles (h : (st.check env s).Checked env n fs) (hlen : fs.length < 2 ^ 32)
    (hret : ∀ st', Reaches (orFail (expiryPass env)) st st' →
      ∃ r s', checkExpired (env.call st'.pass) st'.daemon = .ok (r, s'))
    (hcall : checkExpired (env.call st.pass) st.daemon = .ok (r, s))
    (hle : (st.check env s).ft.numFlows ≤ env.maxFlows) :
    ∃ out, EndsIn env st (out.leave env) ∧ out.Checked env n fs ∧
      (env.stopped = true → out.ft.flows = []) ∧ (env.stopped = false → out = st.check env s) := by
  by_cases hempty : env.stopped = true → (st.check env s).ft.numFlows = 0
  · refine ⟨st.check env s, endsIn_of_inl hcall (h.proceed_eq_inl hle hempty), h, fun hstop => ?_,
      fun _ => rfl⟩
    rw [← List.length_eq_zero_iff, ← h.toNat_numFlows hlen, hempty hstop]
    rfl
  · obtain ⟨hstop, hne⟩ := Classical.not_imp.mp hempty
    set st' := (st.check env s).force env (st.check env s).ft.numFlows
    have hgo : (st.check env s).proceed env = .inr st' := by
      unfold proceed
      rw [if_neg (UInt32.not_lt.mpr hle), if_pos hstop, if_pos (UInt32.pos_iff_ne_zero.mpr hne)]
    have hall : AllForced st'.ft := by
      refine h.tableInv.forceExpire_allForced _ fun _ => ?_
      rw [h.tableInv.length_expiries, ← h.toNat_numFlows hlen]
    have hreach : Reaches (orFail (expiryPass env)) st st' :=
      (Reaches.refl st).tail (pass_of_inr hcall hgo)
    obtain ⟨r', s', hcall'⟩ := hret st' hreach
    obtain ⟨hends, hchecked, hflows⟩ := (h.force _).endsIn_of_allForced hall hcall'
    refine ⟨st'.check env s', endsIn_of_inr hcall hgo hends, hchecked, fun _ => hflows,
      fun hgoes => ?_⟩
    rw [hstop] at hgoes
    cases hgoes

end ExpiryLoop

/-! ## What the loop does -/

/-- All calls of `check_expired` the loop comes to return. -/
def ExpiryEnv.Returns (env : ExpiryEnv) (s : Daemon) : Prop :=
  ∀ st, Reaches (orFail (expiryPass env)) { daemon := s } st →
    ∃ r s', checkExpired (env.call st.pass) st.daemon = .ok (r, s')

/-- The events that `check_expired` leaves in its first pass, in expiry order. -/
def ExpiryEnv.firstPass (env : ExpiryEnv) (ft : FlowTrack) : List Expiry :=
  ft.expiries.filter fun e => !e.isDue env.now env.ex

/-- What the loop is to do to a table. -/
structure ExpiryDone (env : ExpiryEnv) (n : ℕ) (ft : FlowTrack) (out : ExpiryLoop) : Prop where
  tableInv : TableInv n out.ft
  numFlows_le : out.ft.numFlows ≤ env.maxFlows
  exitRequest_eq : out.exitRequest = env.stopped
  /-- A flow that is gone has been handed to the exporter exactly once, if the array
  `expired_flows` could grow by it. -/
  accounts : out.Accounts env ft.flows
  /-- The flows that are earliest in expiry order make room for the others. -/
  evicted : env.stopped = false →
    (env.firstPass ft).length ≤ env.maxFlows.toNat ∨ env.callocOk 0 = true →
    out.ft.expiries.Perm
      ((env.firstPass ft).drop ((env.firstPass ft).length - env.maxFlows.toNat))
  /-- On malloc failure, expire ALL flows. -/
  evictedAll : env.maxFlows.toNat < (env.firstPass ft).length → env.callocOk 0 = false →
    out.ft.flows = []
  drained : env.stopped = true → out.ft.flows = []

namespace ExpiryLoop

variable {env : ExpiryEnv} {n : ℕ} {fs : List Flow} {st : ExpiryLoop}

/-- Leaving the events that are not due. -/
theorem Checked.force_perm (h : st.Checked env n fs)
    (hdue : ∀ e ∈ st.ft.expiries, e.isDue env.now env.ex = false) (num : UInt32) :
    (((st.ft.forceExpire true num).expiries).filter fun e => !e.isDue env.now env.ex).Perm
      (st.ft.expiries.drop num.toNat) := by
  have hforced : ((st.ft.expiries.take num.toNat).map Expiry.force).filter
      (fun e => !e.isDue env.now env.ex) = [] := by
    refine filter_not_isDue_of_forced (fun e he => ?_) _ _
    obtain ⟨x, -, rfl⟩ := List.mem_map.mp he
    rfl
  have hkept : (st.ft.expiries.drop num.toNat).filter (fun e => !e.isDue env.now env.ex) =
      st.ft.expiries.drop num.toNat :=
    List.filter_eq_self.mpr fun e he => by simp [hdue e (List.mem_of_mem_drop he)]
  have hperm := (h.tableInv.forceExpire_perm num).filter fun e => !e.isDue env.now env.ex
  rwa [List.filter_append, hforced, hkept] at hperm

/-- The rest of the loop, in terms of the whole of it. -/
theorem Checked.done {ft : FlowTrack} {out : ExpiryLoop} (h : out.Checked env n ft.flows)
    (hle : env.stopped = false → out.ft.numFlows ≤ env.maxFlows)
    (hdrained : env.stopped = true → out.ft.flows = [])
    (hevicted : env.stopped = false →
      (env.firstPass ft).length ≤ env.maxFlows.toNat ∨ env.callocOk 0 = true →
      out.ft.expiries.Perm
        ((env.firstPass ft).drop ((env.firstPass ft).length - env.maxFlows.toNat)))
    (hall : env.maxFlows.toNat < (env.firstPass ft).length → env.callocOk 0 = false →
      out.ft.flows = []) :
    ExpiryDone env n ft (out.leave env) where
  tableInv := h.tableInv
  numFlows_le := by
    cases hstop : env.stopped with
    | false => exact hle hstop
    | true =>
      change out.ft.numFlows ≤ env.maxFlows
      rw [h.numFlows_eq_zero (hdrained hstop)]
      exact UInt32.zero_le
  exitRequest_eq := rfl
  accounts := h.accounts
  evicted := hevicted
  evictedAll := hall
  drained := hdrained

/-- The loop comes to its end, from a consistent table. -/
theorem exists_endsIn {s : Daemon} (h : TableInv n s.tracker.ft)
    (hlen : s.tracker.ft.flows.length < 2 ^ 32) (hret : env.Returns s) :
    ∃ out, EndsIn env { daemon := s } out ∧ ExpiryDone env n s.tracker.ft out := by
  obtain ⟨r, s₁, hcall⟩ := hret _ (.refl _)
  set st : ExpiryLoop := { daemon := s } with hst
  have hinv : st.Inv env n s.tracker.ft.flows := inv_start h
  obtain ⟨hchecked, hexp⟩ := hinv.checked hcall
  have hfirst : (st.check env s₁).ft.expiries = env.firstPass s.tracker.ft := hexp
  have hnum : (st.check env s₁).ft.numFlows.toNat = (env.firstPass s.tracker.ft).length := by
    rw [hchecked.toNat_numFlows hlen, ← hchecked.tableInv.length_expiries, hfirst]
  by_cases hle : (st.check env s₁).ft.numFlows ≤ env.maxFlows
  · -- there are not too many flows
    have hle' := UInt32.le_iff_toNat_le.mp hle
    rw [hnum] at hle'
    obtain ⟨out, hends, hout, hdrained, hsame⟩ := hchecked.settles hlen hret hcall hle
    refine ⟨_, hends, hout.done (fun hstop => hsame hstop ▸ hle) hdrained (fun hstop _ => ?_)
      fun hlt => absurd hlt (Nat.not_lt.mpr hle')⟩
    rw [hsame hstop, hfirst, Nat.sub_eq_zero_of_le hle', List.drop_zero]
  · have hlt := UInt32.not_le.mp hle
    have hlt' := UInt32.lt_iff_toNat_lt.mp hlt
    rw [hnum] at hlt'
    set excess := (st.check env s₁).ft.numFlows - env.maxFlows
    have hexcess : excess.toNat = (env.firstPass s.tracker.ft).length - env.maxFlows.toNat := by
      rw [UInt32.toNat_sub_of_le _ _ (UInt32.le_of_lt hlt), hnum]
    set st' := (st.check env s₁).force env excess with hst'
    have hinv' : st'.Inv env n s.tracker.ft.flows := hchecked.force excess
    have hgo : (st.check env s₁).proceed env = .inr st' := if_pos hlt
    have hreach : Reaches (orFail (expiryPass env)) st st' :=
      (Reaches.refl st).tail (pass_of_inr hcall hgo)
    obtain ⟨r', s', hcall'⟩ := hret st' hreach
    have hforced : st'.ft = (st.check env s₁).ft.forceExpire (env.callocOk 0) excess := rfl
    -- the second pass takes out what `force_expire` has marked: the excess, or everything
    cases hcalloc : env.callocOk 0 with
    | true =>
      rw [hcalloc] at hforced
      obtain ⟨hchecked', hexp'⟩ := hinv'.checked hcall'
      have hperm : (st'.check env s').ft.expiries.Perm
          ((env.firstPass s.tracker.ft).drop excess.toNat) := by
        rw [hexp', hforced, ← hfirst]
        refine hchecked.force_perm (fun e he => ?_) excess
        rw [hfirst] at he
        simpa using (List.mem_filter.mp he).2
      have hle' : (st'.check env s').ft.numFlows ≤ env.maxFlows := by
        rw [UInt32.le_iff_toNat_le, hchecked'.toNat_numFlows hlen,
          ← hchecked'.tableInv.length_expiries, hperm.length_eq, List.length_drop, hexcess]
        omega
      obtain ⟨out, hends, hout, hdrained, hsame⟩ := hchecked'.settles hlen
        (fun t ht => hret t (hreach.trans ht)) hcall' hle'
      refine ⟨_, endsIn_of_inr hcall hgo hends, hout.done (fun hstop => hsame hstop ▸ hle')
        hdrained (fun hstop _ => ?_) fun _ hfail => absurd hcalloc (by simp [hfail])⟩
      rw [hsame hstop, ← hexcess]
      exact hperm
    | false =>
      rw [hcalloc] at hforced
      have hall : AllForced st'.ft := by
        rw [hforced]
        exact hchecked.tableInv.forceExpire_allForced false fun hc => nomatch hc
      obtain ⟨hends, hout, hflows⟩ := hinv'.endsIn_of_allForced hall hcall'
      refine ⟨_, endsIn_of_inr hcall hgo hends, hout.done (fun _ => ?_) (fun _ => hflows)
        (fun _ hroom => ?_) fun _ _ => hflows⟩
      · rw [hout.numFlows_eq_zero hflows]
        exact UInt32.zero_le
      · rcases hroom with hroom | hroom
        · exact absurd hlt' (Nat.not_lt.mpr hroom)
        · rw [hcalloc] at hroom
          cases hroom

end ExpiryLoop

/-! ## That the calls return -/

/-- The send function can be given every flow of the table. -/
structure SendSpec.Fits {usingEmulator : Bool} {func : NetflowSendFunc}
    (spec : SendSpec usingEmulator func) (s : Daemon) : Prop where
  tables : usingEmulator = true → TablesFit s.tracker.monitors s.tracker.ft.flows
  meets : spec.Meets s.tracker.ft.flows s.exporter

/-- `force_expire` changes events only. -/
theorem SendSpec.Fits.force {usingEmulator : Bool} {func : NetflowSendFunc}
    {spec : SendSpec usingEmulator func} {env : ExpiryEnv} {st : ExpiryLoop}
    (h : spec.Fits st.daemon) (num : UInt32) : spec.Fits (st.force env num).daemon := by
  have hflows : (st.force env num).daemon.tracker.ft.flows = st.daemon.tracker.ft.flows :=
    FlowTrack.flows_forceExpire st.ft (env.callocOk st.pass) num
  refine ⟨fun hmode => ?_, ?_⟩
  · rw [hflows]
    exact h.tables hmode
  · rw [hflows]
    exact h.meets

namespace Rekeyed

variable {n : ℕ} {s : Daemon} {c : ExpiryCall} {func : NetflowSendFunc}

/-- What the scan of a call takes out, and what it leaves. -/
theorem scan (h : Rekeyed n s.tracker.ft) (c : ExpiryCall) :
    ∃ (ft : FlowTrack) (gone kept : List Flow),
      scanExpired c.now c.ex c.reallocOk s.tracker.ft = .ok (ft, kept.map Flow.retire) ∧
      s.tracker.ft.flows.Perm (gone ++ ft.flows) ∧ kept.Sublist gone := by
  obtain ⟨ft, gone, kept, hscan, -, -, hperm, hsub, -⟩ :=
    scanExpired_spec (P := Rekeyed n) c.now c.ex c.reallocOk
      (fun _ h => h.nodup_expiry) (fun _ _ h he => h.expireFlow he c.ex) h
  exact ⟨ft, gone, kept, hscan, hperm, hsub⟩

/-- With such a send function a call of `check_expired` returns, and leaves what the next one
needs. -/
theorem checked_of_fits (h : Rekeyed n s.tracker.ft) (htarget : c.target = some func)
    {spec : SendSpec c.usingEmulator func} (hfits : spec.Fits s) :
    ∃ r s', checkExpired c s = .ok (r, s') ∧ spec.Fits s' := by
  obtain ⟨htables, hlen, hok, hex⟩ := hfits
  obtain ⟨ft, gone, kept, hscan, hperm, hsub⟩ := h.scan c
  have hgone : ∀ f ∈ kept, f ∈ s.tracker.ft.flows := fun f hf =>
    hperm.mem_iff.mpr (List.mem_append_left _ (hsub.subset hf))
  have hcount := hperm.length_eq
  rw [List.length_append] at hcount
  -- the exporter is given the flows the scan has taken out, which were in the table
  have hends := checkExpired_ends htarget spec hscan (fun hmode => ?_) ⟨?_, ?_, hex⟩
  · -- the flows that are left were in the table, too
    obtain ⟨⟨r, s'⟩, hcall, hex', hmonitors⟩ := hends.exists_ok
    obtain ⟨ft', expired, hscan', htable⟩ := checkExpired_table hcall
    obtain ⟨rfl, -⟩ := Prod.mk.inj (Except.ok.inj (hscan.symm.trans hscan'))
    have hflows : s'.tracker.ft.flows = ft.flows := congrArg Prod.fst htable
    have hleft : ∀ f ∈ s'.tracker.ft.flows, f ∈ s.tracker.ft.flows := fun f hf =>
      hperm.mem_iff.mpr (List.mem_append_right _ (hflows ▸ hf))
    refine ⟨r, s', hcall, fun hmode => ⟨?_, fun f hf => ?_⟩, ?_, fun f hf => ?_, hex'⟩
    · exact hmonitors ▸ (htables hmode).monitors_le
    · exact (htables hmode).number_le f (hleft f hf)
    · rw [hflows]
      omega
    · exact hok f (hleft f hf)
  · refine ⟨(htables hmode).monitors_le, fun f hf => ?_⟩
    obtain ⟨g, hg, rfl⟩ := List.mem_map.mp hf
    exact (htables hmode).number_le g (hgone g hg)
  · have hkept := hsub.length_le
    rw [List.length_map]
    omega
  · intro f hf
    obtain ⟨g, hg, rfl⟩ := List.mem_map.mp hf
    exact spec.retire g (hok g (hgone g hg))

/-- Without a target nothing keeps a call from returning. -/
theorem checked_of_noTarget (h : Rekeyed n s.tracker.ft) (htarget : c.target = none) :
    ∃ r s', checkExpired c s = .ok (r, s') := by
  obtain ⟨ft, gone, kept, hscan, -⟩ := h.scan c
  rw [checkExpired, hscan, ok_bind]
  dsimp only
  split
  · exact ⟨_, _, rfl⟩
  · have hexport : ∀ ms est, exportExpired c ms est = .ok est := fun ms est => by
      unfold exportExpired
      rw [htarget]
    rw [hexport, ok_bind]
    exact ⟨_, _, rfl⟩

end Rekeyed

/-- After `force_expire` has reached every event a call takes all flows out. -/
theorem TableInv.exists_drained {n : ℕ} {s : Daemon} (h : TableInv n s.tracker.ft) (num : UInt32)
    (hnum : s.tracker.ft.flows.length ≤ num.toNat) :
    ∃ r s', Softflowd.checkExpired {}
        { s with tracker := { s.tracker with ft := s.tracker.ft.forceExpire true num } } =
        .ok (r, s') ∧
      s'.tracker.ft.flows = [] := by
  have hinv := (h.forceExpire num).1
  have hforced : AllForced (s.tracker.ft.forceExpire true num) :=
    h.forceExpire_allForced true fun _ => h.length_expiries ▸ hnum
  obtain ⟨r, s', hcall⟩ := Rekeyed.checked_of_noTarget (c := {}) (s :=
    { s with tracker := { s.tracker with ft := s.tracker.ft.forceExpire true num } })
    hinv.rekeyed rfl
  refine ⟨r, s', hcall, ?_⟩
  -- the tree is empty after the scan, and every flow has an event
  obtain ⟨ft, expired, hscan, htable⟩ := checkExpired_table hcall
  obtain ⟨ft', gone, kept, hscan', hinv', -, -, -, -, hexp⟩ :=
    scanExpired_spec (P := TableInv n) {} .normal (fun _ => true) (fun _ h => h.nodup_expiry)
      (fun _ _ h he => h.expireFlow he .normal) hinv
  obtain ⟨rfl, -⟩ := Prod.mk.inj (Except.ok.inj (hscan.symm.trans hscan'))
  rw [show s'.tracker.ft.flows = ft.flows from congrArg Prod.fst htable, ← List.length_eq_zero_iff,
    ← hinv'.length_expiries, hexp, filter_not_isDue_of_forced hforced, List.length_nil]

/-- There is no target, or one that can be given every flow of the table. -/
def Sends (usingEmulator : Bool) (target : Option NetflowSendFunc) (s : Daemon) : Prop :=
  ∀ func, target = some func → ∃ spec : SendSpec usingEmulator func, spec.Fits s

/-- A call of `check_expired` returns, and so will the next one. -/
theorem Sends.checked {n : ℕ} {s : Daemon} {c : ExpiryCall} (h : Sends c.usingEmulator c.target s)
    (hrekeyed : Rekeyed n s.tracker.ft) :
    ∃ r s', checkExpired c s = .ok (r, s') ∧ Sends c.usingEmulator c.target s' := by
  cases htarget : c.target with
  | none =>
    obtain ⟨r, s', hcall⟩ := hrekeyed.checked_of_noTarget htarget
    exact ⟨r, s', hcall, nofun⟩
  | some func =>
    obtain ⟨spec, hfits⟩ := h func htarget
    obtain ⟨r, s', hcall, hfits'⟩ := hrekeyed.checked_of_fits htarget hfits
    refine ⟨r, s', hcall, fun func' heq => ?_⟩
    obtain rfl := Option.some.inj heq
    exact ⟨spec, hfits'⟩

/-- `force_expire` leaves the flows. -/
theorem Sends.force {usingEmulator : Bool} {target : Option NetflowSendFunc} {env : ExpiryEnv}
    {st : ExpiryLoop} (h : Sends usingEmulator target st.daemon) (num : UInt32) :
    Sends usingEmulator target (st.force env num).daemon := by
  intro func htarget
  obtain ⟨spec, hfits⟩ := h func htarget
  exact ⟨spec, hfits.force num⟩

/-- All calls of the loop return. -/
theorem ExpiryLoop.Inv.returns {env : ExpiryEnv} {n : ℕ} {fs : List Flow} {st st' : ExpiryLoop}
    (h : st.Inv env n fs) (hsends : Sends env.usingEmulator env.target st.daemon)
    (hreach : Reaches (orFail (expiryPass env)) st st') :
    ∃ r s, checkExpired (env.call st'.pass) st'.daemon = .ok (r, s) := by
  have hchecked {t : ExpiryLoop} (hinv : t.Inv env n fs)
      (hsends : Sends env.usingEmulator env.target t.daemon) :
      ∃ r s, checkExpired (env.call t.pass) t.daemon = .ok (r, s) ∧
        Sends env.usingEmulator env.target s :=
    Sends.checked (c := env.call t.pass) hsends hinv.rekeyed
  have hstep : ∀ t t', Reaches (orFail (expiryPass env)) st t →
      t.Inv env n fs ∧ Sends env.usingEmulator env.target t.daemon →
      orFail (expiryPass env) t = .inr t' →
      t'.Inv env n fs ∧ Sends env.usingEmulator env.target t'.daemon := by
    rintro t t' - ⟨hinv, hsends⟩ hpass
    refine ⟨hinv.pass hpass, ?_⟩
    obtain ⟨⟨r, s⟩, hcall, hgo⟩ := bind_eq_ok.mp (orFail_eq_inr.mp hpass)
    obtain ⟨r', s', hcall', hsends'⟩ := hchecked hinv hsends
    obtain ⟨rfl, rfl⟩ := Prod.mk.inj (Except.ok.inj (hcall.symm.trans hcall'))
    obtain ⟨num, rfl⟩ := proceed_eq_inr (Except.ok.inj hgo)
    have hnext : Sends env.usingEmulator env.target (t.check env s).daemon := hsends'
    exact hnext.force num
  obtain ⟨hinv, hsends⟩ := hreach.invariant ⟨h, hsends⟩ hstep
  obtain ⟨r, s, hcall, -⟩ := hchecked hinv hsends
  exact ⟨r, s, hcall⟩

/-- The target, one of the send functions of the table `nf[]` or none, and what it takes for the
calls of `check_expired` to return: the monitor tables are within their bounds, and, in version 9,
every flow of the table has octets in some direction. -/
inductive Exports (usingEmulator : Bool) (target : Option NetflowSendFunc) (s : Daemon) : Prop
  | noTarget (htarget : target = none)
  | v1 {now : Timeval} {asSrcArray asDstArray : Flow → UInt16}
    (htarget : target = some (sendNetflowV1 usingEmulator now asSrcArray asDstArray))
    (htables : usingEmulator = true → TablesFit s.tracker.monitors s.tracker.ft.flows)
  | v5 {now : Timeval} (htarget : target = some (sendNetflowV5 usingEmulator now))
    (htables : usingEmulator = true → TablesFit s.tracker.monitors s.tracker.ft.flows)
  | v9 {fuel : ℕ} {now : Timeval} {time : ℕ → ℤ}
    (htarget : target = some (sendNetflowV9 fuel now time))
    (htables : usingEmulator = true → TablesFit s.tracker.monitors s.tracker.ft.flows)
    (hflows : ∀ f ∈ s.tracker.ft.flows, f.Exportable)
    (hfuel : s.tracker.ft.flows.length ≤ fuel) (hex : s.exporter.nf9.Reachable)

/-- Such a target can be given every flow of the table. -/
theorem Exports.sends {usingEmulator : Bool} {target : Option NetflowSendFunc} {s : Daemon}
    (h : Exports usingEmulator target s) : Sends usingEmulator target s := by
  intro func hfunc
  cases h with
  | noTarget htarget =>
    rw [hfunc] at htarget
    cases htarget
  | v1 htarget htables =>
    obtain rfl := Option.some.inj (hfunc.symm.trans htarget)
    exact ⟨.v1 _ _ _ _ s.tracker.ft.flows.length, htables, le_rfl, fun _ _ => trivial, trivial⟩
  | v5 htarget htables =>
    obtain rfl := Option.some.inj (hfunc.symm.trans htarget)
    exact ⟨.v5 _ _ s.tracker.ft.flows.length, htables, le_rfl, fun _ _ => trivial, trivial⟩
  | v9 htarget htables hflows hfuel hex =>
    obtain rfl := Option.some.inj (hfunc.symm.trans htarget)
    exact ⟨.v9 _ _ _ _, htables, hfuel, hflows, hex⟩

/-- The calls of the loop return for every target. -/
theorem Exports.returns {n : ℕ} {s : Daemon} {env : ExpiryEnv}
    (h : Exports env.usingEmulator env.target s) (hinv : TableInv n s.tracker.ft) :
    env.Returns s := by
  intro st hreach
  have hstart : ExpiryLoop.Inv env n s.tracker.ft.flows { daemon := s } :=
    ExpiryLoop.inv_start hinv
  exact hstart.returns h.sends hreach

/-- **The expiry loop.** From a consistent table whose flows `num_flows` counts, at a fixed clock
and with any target, the loop ends. The flows earliest in expiry order go first, all of them go when
the array of `force_expire` cannot be allocated or the emulator has ended, and each flow that goes
has been handed to the exporter once, unless the array of `check_expired` could not grow by it. -/
theorem expiryCheck_ends {n : ℕ} {s : Daemon} (env : ExpiryEnv) (h : TableInv n s.tracker.ft)
    (hlen : s.tracker.ft.flows.length < 2 ^ 32) (hexports : Exports env.usingEmulator env.target s) :
    ∃ out, (∃ fuel, ∀ extra, expiryCheck env (fuel + extra) s = .ok out) ∧
      ExpiryDone env n s.tracker.ft out := by
  obtain ⟨out, ⟨t, hreach, ht⟩, hdone⟩ := ExpiryLoop.exists_endsIn h hlen (hexports.returns h)
  exact ⟨out, iterate_of_reaches _ hreach ht, hdone⟩

/-- There may be one flow, and the flows go to a version 9 collector. -/
def oneFlowEnv : ExpiryEnv where
  maxFlows := 1
  target := some (sendNetflowV9 2 {} fun _ => 0)

/-- The emulator has ended, and the flows go to a version 5 collector. -/
def drainEnv : ExpiryEnv where
  usingEmulator := true
  stopsEmulatorThread := true
  maxFlows := 2
  target := some (sendNetflowV5 true {})

/-- Two flows where there may be one, and two flows at the end of the emulation: with the exporters,
one flow goes, and both do. -/
theorem expiryCheck_ends_two :
    ∃ n s, Reachable n s ∧ s.tracker.ft.flows.length = 2 ∧
      (∃ out, (∃ fuel, ∀ extra, expiryCheck oneFlowEnv (fuel + extra) s = .ok out) ∧
        ExpiryDone oneFlowEnv n s.tracker.ft out) ∧
      ∃ out, (∃ fuel, ∀ extra, expiryCheck drainEnv (fuel + extra) s = .ok out) ∧
        ExpiryDone drainEnv n s.tracker.ft out ∧ out.ft.flows = [] ∧ out.handed.length = 2 := by
  obtain ⟨t, hrun, hlen, hexportable, hmonitors, hnumber⟩ : ∃ t,
      runOk {} [sampleCall, sampleCall, sampleUdpCall, sampleUdpCall] = some t ∧
      t.ft.flows.length = 2 ∧ (∀ f ∈ t.ft.flows, f.af = afInet ∧ f.octets 0 > 0) ∧
      t.monitors.nbrMonitors.toNat ≤ 50 ∧
      ∀ f ∈ t.ft.flows, ∀ d, (f.numberOfMonitors d).toNat ≤ 50 := by
    have hcheck : (runOk {} [sampleCall, sampleCall, sampleUdpCall, sampleUdpCall]).any (fun t =>
        t.ft.flows.length = 2 ∧ (∀ f ∈ t.ft.flows, f.af = afInet ∧ f.octets 0 > 0) ∧
        t.monitors.nbrMonitors.toNat ≤ 50 ∧
        ∀ f ∈ t.ft.flows, ∀ d, (f.numberOfMonitors d).toNat ≤ 50) = true := by
      decide +kernel
    obtain ⟨t, ht, hp⟩ := (Option.any_eq_true _ _).mp hcheck
    exact ⟨t, ht, of_decide_eq_true hp⟩
  obtain ⟨n, hn, hreach⟩ := Reachable.messages (s := {}) (.init ⟨rfl, rfl, rfl, rfl⟩) _ hrun
  -- the messages give a state of the runs, whose invariant is all the loop needs
  have hinv := hreach.tableInv (Nat.lt_of_le_of_lt hn (by norm_num))
  have hsmall : t.ft.flows.length < 2 ^ 32 := by
    rw [hlen]
    norm_num
  refine ⟨n, _, hreach, hlen, expiryCheck_ends oneFlowEnv hinv hsmall (.v9 rfl ?_ ?_ hlen.le
    .initial), ?_⟩
  · intro hmode
    cases hmode
  · intro f hf
    obtain ⟨hfamily, hoctets⟩ := hexportable f hf
    exact ⟨.inl hfamily, .inl hoctets⟩
  · -- at the end nothing is left, so both flows have been handed on
    obtain ⟨out, hout, hdone⟩ := expiryCheck_ends drainEnv hinv hsmall
      (.v5 rfl fun _ => ⟨hmonitors, hnumber⟩)
    have hflows := hdone.drained rfl
    obtain ⟨gone, kept, hperm, hhanded, -, hkept⟩ := hdone.accounts
    refine ⟨out, hout, hdone, hflows, ?_⟩
    have hcount := hperm.length_eq
    rw [hflows, List.append_nil] at hcount
    rw [hhanded, List.length_map, hkept fun _ _ => rfl, ← hcount]
    exact hlen

/-- There may be one flow, and the array of `force_expire` cannot be allocated. -/
def noArrayEnv : ExpiryEnv where
  maxFlows := 1
  callocOk := fun _ => false

/-- The emulator has ended, and the array of `check_expired` cannot grow. -/
def noRoomEnv : ExpiryEnv where
  usingEmulator := true
  stopsEmulatorThread := true
  maxFlows := 2
  reallocOk := fun _ _ => false

/-- The number of flows that are left when the loop has ended within two passes, and of those that
have been handed to the exporter. -/
def ExpiryEnv.counts (env : ExpiryEnv) (t : Tracker) : Option (ℕ × ℕ) :=
  match expiryCheck env 2 { tracker := t } with
  | .ok out => some (out.ft.flows.length, out.handed.length)
  | .error _ => none

theorem ExpiryEnv.of_counts_eq {env : ExpiryEnv} {t : Tracker} {k l : ℕ}
    (h : env.counts t = some (k, l)) :
    ∃ out, expiryCheck env 2 { tracker := t } = .ok out ∧ out.ft.flows.length = k ∧
      out.handed.length = l := by
  unfold counts at h
  split at h
  · rename_i out hout
    obtain ⟨hk, hl⟩ := Prod.mk.inj (Option.some.inj h)
    exact ⟨out, hout, hk, hl⟩
  · cases h

/-- When an allocation fails, the flow that may stay goes with the one that is too many, and two
flows go that have not been handed to the exporter. -/
theorem expiryCheck_oneFlowTooMany :
    ∃ n s, Reachable n s ∧ s.tracker.ft.flows.length = 2 ∧
      (∀ e ∈ s.tracker.ft.expiries, e.isDue {} .normal = false) ∧
      (∃ out, expiryCheck noArrayEnv 2 s = .ok out ∧ out.ft.flows = []) ∧
      ∃ out, expiryCheck noRoomEnv 2 s = .ok out ∧ out.ft.flows = [] ∧ out.handed = [] := by
  obtain ⟨t, hrun, hlen, hdue, harray, hroom⟩ : ∃ t,
      runOk {} [sampleCall, sampleCall, sampleUdpCall, sampleUdpCall] = some t ∧
      t.ft.flows.length = 2 ∧ (∀ e ∈ t.ft.expiries, e.isDue {} .normal = false) ∧
      noArrayEnv.counts t = some (0, 2) ∧ noRoomEnv.counts t = some (0, 0) := by
    have hcheck : (runOk {} [sampleCall, sampleCall, sampleUdpCall, sampleUdpCall]).any (fun t =>
        t.ft.flows.length = 2 ∧ (∀ e ∈ t.ft.expiries, e.isDue {} .normal = false) ∧
        noArrayEnv.counts t = some (0, 2) ∧ noRoomEnv.counts t = some (0, 0)) = true := by
      decide +kernel
    obtain ⟨t, ht, hp⟩ := (Option.any_eq_true _ _).mp hcheck
    exact ⟨t, ht, of_decide_eq_true hp⟩
  obtain ⟨n, -, hreach⟩ := Reachable.messages (s := {}) (.init ⟨rfl, rfl, rfl, rfl⟩) _ hrun
  obtain ⟨out₁, hout₁, hflows₁, -⟩ := ExpiryEnv.of_counts_eq harray
  obtain ⟨out₂, hout₂, hflows₂, hhanded₂⟩ := ExpiryEnv.of_counts_eq hroom
  exact ⟨n, _, hreach, hlen, hdue, ⟨out₁, hout₁, List.length_eq_zero_iff.mp hflows₁⟩,
    out₂, hout₂, List.length_eq_zero_iff.mp hflows₂, List.length_eq_zero_iff.mp hhanded₂⟩

end Softflowd
