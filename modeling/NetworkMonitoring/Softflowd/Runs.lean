import NetworkMonitoring.Softflowd.EmulatorStep

/-!
# softflowd — runs of the program

A run starts with an empty table and takes one call after another: captured packets, messages of
the emulator, rescheduling, forced expiry, the expiry scan and the deletion of all flows. No
allocation fails. `Reachable n s` says that some run ends in `s` and has created `n` flows.

## Main results

* `flowTable_consistent`: the flow table and the expiry tree agree in every reachable state;
* `numFlows_wraps`: `num_flows` is not the number of flows when there are `2 ^ 32` of them;
* `flush_complete_iff`: a flush empties the table exactly when no event has the expiry time `1`;
* `flush_misses_new_flow`: a flow that one emulator message has created has that expiry time.
-/

namespace Softflowd

open Bytes Function OrderedSet

/-! ## Runs -/

/-- A call of one of the functions that work on the flow table. -/
inductive Step : Daemon → Daemon → Prop where
  | processPacket {s : Daemon} {r : PpResult} {ft : FlowTrack} (m : Mem) (af : ℤ)
      (caplen len : UInt32) (received : Timeval) :
      s.tracker.ft.processPacket {} m af caplen len received = .ok (r, ft) →
      Step s { s with tracker := { s.tracker with ft := ft } }
  | processEmulatorPacket {s : Daemon} {t : Tracker} (c : EmulatorCall) :
      processEmulatorPacket s.tracker c = .ok (.ok, t) → Step s { s with tracker := t }
  | flowUpdateExpiry {s : Daemon} {ft : FlowTrack} (p : ℕ) :
      s.tracker.ft.flowUpdateExpiry p = .ok ft →
      Step s { s with tracker := { s.tracker with ft := ft } }
  | forceExpire {s : Daemon} (num : UInt32) :
      Step s { s with tracker := { s.tracker with ft := s.tracker.ft.forceExpire true num } }
  | checkExpired {s s' : Daemon} {r : ℤ} (c : ExpiryCall) : c.reallocOk = (fun _ => true) →
      checkExpired c s = .ok (r, s') → Step s s'
  | deleteAllFlows {s : Daemon} {r : ℤ} {ft : FlowTrack} :
      s.tracker.ft.deleteAllFlows = .ok (r, ft) →
      Step s { s with tracker := { s.tracker with ft := ft } }

/-- An empty table, as `init_flowtrack` leaves it; the timeouts and the tracking level are those
of the command line. -/
structure Daemon.Initial (s : Daemon) : Prop where
  flows_eq : s.tracker.ft.flows = []
  expiries_eq : s.tracker.ft.expiries = []
  numFlows_eq : s.tracker.ft.numFlows = 0
  nextFlowSeq_eq : s.tracker.ft.nextFlowSeq = 1

/-- The states of the runs that have created `n` flows. -/
inductive Reachable : ℕ → Daemon → Prop where
  | init {s : Daemon} : s.Initial → Reachable 0 s
  | step {n : ℕ} {s s' : Daemon} : Reachable n s → Step s s' →
      Reachable (created n s.tracker.ft s'.tracker.ft) s'

/-- A message of the emulator that is processed successfully. -/
def okStep (t : Tracker) (c : EmulatorCall) : Option Tracker :=
  match processEmulatorPacket t c with
  | .ok (.ok, t') => some t'
  | _ => none

theorem okStep_eq_some {t t' : Tracker} {c : EmulatorCall} :
    okStep t c = some t' ↔ processEmulatorPacket t c = .ok (.ok, t') := by
  unfold okStep
  split
  · rename_i h
    simp [h]
  · rename_i h
    simp only [reduceCtorEq, false_iff]
    exact h t'

/-- A sequence of such messages. -/
def runOk (t : Tracker) (cs : List EmulatorCall) : Option Tracker := cs.foldlM okStep t

theorem runOk_cons {t t' : Tracker} {c : EmulatorCall} {cs : List EmulatorCall} :
    runOk t (c :: cs) = some t' ↔ ∃ t₁, okStep t c = some t₁ ∧ runOk t₁ cs = some t' := by
  simp [runOk, List.foldlM_cons, Option.bind_eq_some_iff]

/-- Nothing has been tracked yet. -/
structure Tracker.Empty (s : Tracker) : Prop where
  flows_eq : s.ft.flows = []
  expiries_eq : s.ft.expiries = []
  nbrMonitors_eq : s.monitors.nbrMonitors = 0

/-- What every message of a successful run keeps holds after the run. -/
theorem runOk_induction {I : Tracker → Prop}
    (hstep : ∀ t t' c, EmulatorStep t c .ok t' → I t → I t') {s t : Tracker}
    {cs : List EmulatorCall} (hrun : runOk s cs = some t) (h : I s) : I t := by
  induction cs generalizing s with
  | nil => exact (Option.some.inj hrun) ▸ h
  | cons c cs ih =>
    obtain ⟨s₁, hc, hcs⟩ := runOk_cons.mp hrun
    exact ih hcs (hstep s s₁ c (processEmulatorPacket_step (okStep_eq_some.mp hc)) h)

theorem Reachable.messages {n : ℕ} {s : Daemon} {t : Tracker} (h : Reachable n s)
    (cs : List EmulatorCall) (hrun : runOk s.tracker cs = some t) :
    ∃ m, m ≤ n + cs.length ∧ Reachable m { s with tracker := t } := by
  induction cs generalizing n s with
  | nil =>
    obtain rfl : s.tracker = t := Option.some.inj hrun
    exact ⟨n, Nat.le_refl n, h⟩
  | cons c cs ih =>
    obtain ⟨t₁, hc, hcs⟩ := runOk_cons.mp hrun
    have hstep := h.step (.processEmulatorPacket c (okStep_eq_some.mp hc))
    obtain ⟨m, hm, hreach⟩ := ih hstep hcs
    refine ⟨m, Nat.le_trans hm ?_, hreach⟩
    unfold created
    split <;> simp only [List.length_cons] <;> omega

/-- Every call keeps the table consistent. -/
theorem Step.tableInv {n : ℕ} {s s' : Daemon} (hstep : Step s s')
    (h : TableInv n s.tracker.ft) (hn : n < 2 ^ 64) :
    TableInv (created n s.tracker.ft s'.tracker.ft) s'.tracker.ft := by
  -- each call of the main loop keeps the invariant, by its own lemma
  cases hstep with
  | processPacket m af caplen len received hcall =>
    obtain ⟨r, ft, hcall', h'⟩ := h.processPacket hn m af caplen len received
    rw [hcall'] at hcall
    obtain ⟨-, rfl⟩ := Prod.mk.inj (Except.ok.inj hcall)
    exact h'
  | processEmulatorPacket c hcall =>
    exact (processEmulatorPacket_step hcall).tableInv h hn (by decide)
  | flowUpdateExpiry p hcall =>
    obtain ⟨_, _, -, hof, rfl⟩ := FlowTrack.flowUpdateExpiry_eq_ok.mp hcall
    exact (h.rekey (FlowTrack.mem_of_expiryOf hof) _ _).created_of_eq rfl
  | forceExpire num =>
    obtain ⟨h', hseq⟩ := h.forceExpire num
    exact h'.created_of_eq hseq
  | checkExpired c halloc hcall =>
    obtain ⟨h', hseq⟩ := h.checkExpired halloc hcall
    exact h'.created_of_eq hseq
  | deleteAllFlows hcall =>
    obtain ⟨r, ft, hcall', h', hseq⟩ := h.deleteAllFlows
    rw [hcall'] at hcall
    obtain ⟨-, rfl⟩ := Prod.mk.inj (Except.ok.inj hcall)
    exact h'.created_of_eq hseq

/-- The table is consistent in every reachable state. -/
theorem Reachable.tableInv {n : ℕ} {s : Daemon} (h : Reachable n s) (hn : n < 2 ^ 64) :
    TableInv n s.tracker.ft := by
  induction h with
  | init h => exact .empty h.flows_eq h.expiries_eq h.nextFlowSeq_eq h.numFlows_eq
  | step _ hstep ih =>
    have hlt := Nat.lt_of_le_of_lt (le_created _ _ _) hn
    exact hstep.tableInv (ih hlt) hlt

/-- **Flow table and expiry tree.** In every state a run reaches while fewer than `2 ^ 64` flows
have been created, the two trees have as many nodes as `num_flows` says, modulo its 32 bits, flows
and expiry events point at each other one to one, keys and sequence numbers are distinct, and both
trees are sorted. -/
theorem flowTable_consistent {n : ℕ} {s : Daemon} (h : Reachable n s) (hn : n < 2 ^ 64) :
    s.tracker.ft.numFlows.toNat = s.tracker.ft.flows.length % 2 ^ 32 ∧
    s.tracker.ft.expiries.length = s.tracker.ft.flows.length ∧
    (∀ f ∈ s.tracker.ft.flows, ∃! e, e ∈ s.tracker.ft.expiries ∧ e.flow = f.ptr ∧
      f.expiry = some e.ptr) ∧
    (∀ e ∈ s.tracker.ft.expiries, ∃! f, f ∈ s.tracker.ft.flows ∧ e.flow = f.ptr ∧
      f.expiry = some e.ptr) ∧
    s.tracker.ft.flows.Pairwise (fun a b => flowCompare a b ≠ .eq) ∧
    (s.tracker.ft.flows.map Flow.flowSeq).Nodup ∧
    Sorted (expiryCompare s.tracker.ft.flows) s.tracker.ft.expiries := by
  have hinv := h.tableInv hn
  refine ⟨?_, hinv.length_expiries, ?_, ?_, ?_, hinv.nodup_seq, hinv.sorted_expiries⟩
  · rw [hinv.numFlows_eq, UInt32.toNat_ofNat']
  · intro f hf
    obtain ⟨e, he, -, hflow, hexp⟩ := hinv.expiryOf_eq hf
    refine ⟨e, ⟨he, hflow, hexp⟩, ?_⟩
    -- a second event with this address would be the same one
    rintro e' ⟨he', -, hexp'⟩
    exact List.inj_on_of_nodup_map hinv.nodup_expiry he' he
      (Option.some.inj (hexp'.symm.trans hexp))
  · intro e he
    obtain ⟨f, hf, hptr, hexp⟩ := hinv.flow_of_expiry he
    refine ⟨f, ⟨hf, hptr.symm, hexp⟩, ?_⟩
    rintro f' ⟨hf', hptr', -⟩
    exact List.inj_on_of_nodup_map hinv.nodup_ptr hf' hf (hptr'.symm.trans hptr.symm)
  · refine hinv.sorted_flows.imp fun hlt heq => ?_
    rw [hlt] at heq
    cases heq

/-! ## A run that fills the table -/

/-- An IPv4 packet with a UDP header whose four port bytes are those of `i`; all other fields are
the same for every `i`. -/
def floodPacket (i : ℕ) : Mem := fun k =>
  if k = 0 then 0x45
  else if k = 9 then ipprotoUdp
  else if 20 ≤ k ∧ k < 24 then UInt8.ofNat (i / 256 ^ (k - 20))
  else 0

/-- The key of the flow that `floodPacket i` belongs to. -/
def floodKey (i : ℕ) : ℤ × FlowAddr × FlowAddr × UInt8 × UInt16 × UInt16 :=
  (afInet, fun _ => 0, fun _ => 0, ipprotoUdp, (floodPacket i).u16 20, (floodPacket i).u16 22)

theorem packetRecord_floodPacket (i : ℕ) :
    ∃ tmp, FlowTrack.packetRecord (floodPacket i) afInet 28 28 = some (tmp, false) ∧
      tmp.key = floodKey i := by
  have hsrc : (floodPacket i).octets 12 4 = fun _ => 0 := by
    ext k
    fin_cases k <;> rfl
  have hdst : (floodPacket i).octets 16 4 = fun _ => 0 := by
    ext k
    fin_cases k <;> rfl
  have hndx : canonicalNdx (fun _ : Fin 4 => (0 : UInt8)) (fun _ => 0) = 0 := by decide
  have hlen : ipHeaderLen (floodPacket i) = 20 := by simp [ipHeaderLen, floodPacket]
  have hver : ipVersion (floodPacket i) = 4 := by simp [ipVersion, floodPacket]
  have hfrag : ipIsFrag (floodPacket i) = false := by simp [ipIsFrag, ipOff, floodPacket]
  have hproto : floodPacket i 9 = ipprotoUdp := rfl
  have hzero : FlowAddr.setV4 (fun _ => 0) (fun _ => 0) = fun _ => 0 := by
    ext k
    simp [FlowAddr.setV4]
  have hcap : (28 : UInt32).toNat = 28 := rfl
  have hudp : ipprotoUdp ≠ ipprotoTcp := by decide
  unfold FlowTrack.packetRecord ipv4ToFlowrec
  simp only [if_true, hcap, hlen, hver, hfrag, hsrc, hdst, hndx, hproto]
  refine ⟨_, rfl, ?_⟩
  simp [Flow.key, floodKey, transportToFlowrec, hudp, hzero]

theorem floodKey_injective {i j : ℕ} (hi : i < 2 ^ 32) (hj : j < 2 ^ 32)
    (h : floodKey i = floodKey j) : i = j := by
  have hports := congrArg (fun k => k.2.2.2.2) h
  have hfirst : (floodPacket i).u16 20 = (floodPacket j).u16 20 := congrArg Prod.fst hports
  have hsecond : (floodPacket i).u16 22 = (floodPacket j).u16 22 := congrArg Prod.snd hports
  have hport : ∀ i, ((floodPacket i).u16 20).toNat = i % 65536 ∧
      ((floodPacket i).u16 22).toNat = i / 65536 % 65536 := by
    intro i
    simp only [Mem.u16, floodPacket, leNat, UInt16.toNat_ofNat']
    norm_num
    omega
  have h₁ := (hport i).1.symm.trans ((congrArg UInt16.toNat hfirst).trans (hport j).1)
  have h₂ := (hport i).2.symm.trans ((congrArg UInt16.toNat hsecond).trans (hport j).2)
  omega

theorem floodKey_notMem {k : ℕ} {fs : List Flow} (hk : k + 1 ≤ 2 ^ 32)
    (h : (fs.map Flow.key).Perm ((List.range k).map floodKey)) : floodKey k ∉ fs.map Flow.key := by
  rw [h.mem_iff, List.mem_map]
  rintro ⟨i, hi, heq⟩
  have hik : i < k := List.mem_range.mp hi
  exact Nat.ne_of_lt hik (floodKey_injective (by omega) (by omega) heq)

/-- A packet with a new key adds a flow. -/
theorem TableInv.newPacket {n : ℕ} {ft₀ : FlowTrack} {m : Mem} {tmp : Flow} (h : TableInv n ft₀)
    (hn : n < 2 ^ 64) (hlevel : ft₀.trackLevel = .full)
    (hrec : FlowTrack.packetRecord m afInet 28 28 = some (tmp, false))
    (hnew : tmp.key ∉ ft₀.flows.map Flow.key) :
    ∃ ft', ft₀.processPacket {} m afInet 28 28 {} = .ok (.ok, ft') ∧
      created n ft₀ ft' = n + 1 ∧ ft'.trackLevel = .full ∧
      (ft'.flows.map Flow.key).Perm (tmp.key :: ft₀.flows.map Flow.key) := by
  set ft : FlowTrack := { ft₀ with totalPackets := ft₀.totalPackets + 1 }
  have hinv : TableInv n ft := h.of_table rfl
  have hfind : ft.flowFind tmp = none := by
    refine List.find?_eq_none.mpr fun f hf => ?_
    have hne : flowCompare tmp f ≠ .eq := fun heq =>
      hnew (flowCompare_eq_iff.mp heq ▸ List.mem_map_of_mem hf)
    simpa using hne
  obtain ⟨ft', hfile, hinv', hlevel', hkeys⟩ := hinv.fileRecord_new hn hfind {}
  have hmask : ft.maskRecord tmp = tmp := by
    have hfull : ft.trackLevel = .full := hlevel
    simp only [FlowTrack.maskRecord, hfull]
  refine ⟨ft', ?_, h.created_eq_succ hinv', hlevel'.trans hlevel, hkeys⟩
  unfold FlowTrack.processPacket
  simp only [hrec]
  change ft.fileRecord (ft.maskRecord tmp) {} {} = _
  rw [hmask, hfile]

theorem Reachable.newPacket {n : ℕ} {s : Daemon} {m : Mem} {tmp : Flow} (h : Reachable n s)
    (hn : n < 2 ^ 64) (hlevel : s.tracker.ft.trackLevel = .full)
    (hrec : FlowTrack.packetRecord m afInet 28 28 = some (tmp, false))
    (hnew : tmp.key ∉ s.tracker.ft.flows.map Flow.key) :
    ∃ s', Reachable (n + 1) s' ∧ s'.tracker.ft.trackLevel = .full ∧
      (s'.tracker.ft.flows.map Flow.key).Perm (tmp.key :: s.tracker.ft.flows.map Flow.key) := by
  obtain ⟨ft', hcall, hcount, hlevel', hkeys⟩ := (h.tableInv hn).newPacket hn hlevel hrec hnew
  have hstep := h.step (.processPacket m afInet 28 28 {} hcall)
  rw [hcount] at hstep
  exact ⟨_, hstep, hlevel', hkeys⟩

/-- A run of `k` packets with different ports. -/
theorem exists_flood {k : ℕ} (hk : k ≤ 2 ^ 32) :
    ∃ s, Reachable k s ∧ s.tracker.ft.trackLevel = .full ∧
      (s.tracker.ft.flows.map Flow.key).Perm ((List.range k).map floodKey) := by
  induction k with
  | zero => exact ⟨{}, .init ⟨rfl, rfl, rfl, rfl⟩, rfl, .refl _⟩
  | succ k ih =>
    obtain ⟨s, hs, hlevel, hkeys⟩ := ih (Nat.le_of_succ_le hk)
    obtain ⟨tmp, hrec, hkey⟩ := packetRecord_floodPacket k
    have hnew : tmp.key ∉ s.tracker.ft.flows.map Flow.key := hkey ▸ floodKey_notMem hk hkeys
    obtain ⟨s', hs', hlevel', hkeys'⟩ := hs.newPacket (by omega) hlevel hrec hnew
    refine ⟨s', hs', hlevel', hkeys'.trans ?_⟩
    rw [List.range_succ, List.map_append, hkey]
    exact (hkeys.cons _).trans (List.perm_append_singleton _ _).symm

/-- After `2 ^ 32` packets with different ports `num_flows` is zero. -/
theorem numFlows_wraps :
    ∃ s, Reachable (2 ^ 32) s ∧ s.tracker.ft.flows.length = 2 ^ 32 ∧
      s.tracker.ft.numFlows.toNat = 0 := by
  obtain ⟨s, hs, -, hkeys⟩ := exists_flood (Nat.le_refl (2 ^ 32))
  have hlen : s.tracker.ft.flows.length = 2 ^ 32 := by
    simpa using hkeys.length_eq
  refine ⟨s, hs, hlen, ?_⟩
  rw [(hs.tableInv (by norm_num)).numFlows_eq, hlen]
  rfl

/-- Three packets of different flows. -/
theorem flowTable_consistent_three :
    ∃ s, Reachable 3 s ∧ s.tracker.ft.flows.length = 3 ∧ s.tracker.ft.expiries.length = 3 ∧
      s.tracker.ft.numFlows.toNat = 3 := by
  obtain ⟨s, hs, -, hkeys⟩ := exists_flood (k := 3) (by norm_num)
  obtain ⟨hnum, hexp, -⟩ := flowTable_consistent hs (by norm_num)
  have hlen : s.tracker.ft.flows.length = 3 := by
    simpa using hkeys.length_eq
  exact ⟨s, hs, hlen, hexp.trans hlen, by rw [hnum, hlen]; norm_num⟩

/-! ## Flushing -/

/-- A flush loses nothing: its scan hands on every flow of the table once, and `check_expired`
leaves the table empty. -/
def FlushesAll (c : ExpiryCall) (s : Daemon) : Prop :=
  ∃ ft expired, scanExpired c.now c.ex c.reallocOk s.tracker.ft = .ok (ft, expired) ∧
    expired.Perm (s.tracker.ft.flows.map Flow.retire) ∧
    ft.flows = [] ∧ ft.expiries = [] ∧ ft.numFlows = 0 ∧
    ∀ r s', checkExpired c s = .ok (r, s') → s'.tracker.ft.flows = [] ∧
      s'.tracker.ft.expiries = [] ∧ s'.tracker.ft.numFlows = 0

/-- In a flush every event is due but those with the expiry time `1`. -/
theorem isDue_all (e : Expiry) (now : Timeval) : e.isDue now .all = true ↔ e.expiresAt ≠ 1 := by
  simp [Expiry.isDue]

/-- A flush loses nothing exactly when no event has the expiry time `1`, which `createFlow` gives
to the events of new flows. -/
theorem flush_complete_iff {n : ℕ} {s : Daemon} {c : ExpiryCall} (h : Reachable n s)
    (hn : n < 2 ^ 64) (hex : c.ex = .all) (halloc : c.reallocOk = fun _ => true) :
    FlushesAll c s ↔ ∀ e ∈ s.tracker.ft.expiries, e.expiresAt ≠ 1 := by
  obtain ⟨ft, gone, hscan, hinv, -, hperm, hexp⟩ := (h.tableInv hn).scanExpired c.now .all
  rw [← halloc, ← hex] at hscan
  -- an event stays behind exactly when it is not due
  have hleft : ft.expiries = [] ↔ ∀ e ∈ s.tracker.ft.expiries, e.expiresAt ≠ 1 := by
    rw [hexp, List.filter_eq_nil_iff]
    refine forall₂_congr fun e _ => ?_
    rw [← isDue_all e c.now]
    simp
  constructor
  · rintro ⟨ft', expired, hscan', -, -, hnil, -⟩
    rw [hscan] at hscan'
    obtain ⟨rfl, -⟩ := Prod.mk.inj (Except.ok.inj hscan')
    exact hleft.mp hnil
  · intro hdue
    have hnil : ft.expiries = [] := hleft.mpr hdue
    have hflows : ft.flows = [] := by
      rw [← List.length_eq_zero_iff, ← hinv.length_expiries, hnil]
      rfl
    have hnum : ft.numFlows = 0 := by
      rw [hinv.numFlows_eq, hflows]
      rfl
    have hgone : (gone.map Flow.retire).Perm (s.tracker.ft.flows.map Flow.retire) := by
      rw [hflows, List.append_nil] at hperm
      exact (hperm.map Flow.retire).symm
    refine ⟨ft, _, hscan, hgone, hflows, hnil, hnum, fun r s' hcall => ?_⟩
    obtain ⟨ft', expired, hscan', htable⟩ := checkExpired_table hcall
    rw [hscan] at hscan'
    obtain ⟨rfl, -⟩ := Prod.mk.inj (Except.ok.inj hscan')
    simp only [FlowTrack.table, hflows, hnil, hnum, Prod.mk.injEq] at htable
    exact ⟨htable.1, htable.2.1, htable.2.2.1⟩

/-- A message about a TCP packet from 1.2.3.4 to 5.6.7.8 that 10.0.0.1 has seen. -/
def sampleCall : EmulatorCall where
  pkt := CText.ascii "10.0.0.1#1.2.3.4#5.6.7.8#100#1#2#80#443#1#2#TCP#0##A#0"
  len := 100
  received := ⟨1000, 0⟩

/-- One message creates a flow, and a flush right after it leaves the flow in the table. -/
theorem flush_misses_new_flow :
    ∃ n s, Reachable n s ∧ s.tracker.ft.flows.length = 1 ∧ ¬ FlushesAll { ex := .all } s := by
  obtain ⟨t, hrun, hexp, hlen⟩ : ∃ t, runOk {} [sampleCall] = some t ∧
      t.ft.expiries = [⟨1, 0, 1, .general⟩] ∧ t.ft.flows.length = 1 := by
    have hcheck : (runOk {} [sampleCall]).any (fun t =>
        t.ft.expiries = [⟨1, 0, 1, .general⟩] ∧ t.ft.flows.length = 1) = true := by
      decide +kernel
    obtain ⟨t, ht, hp⟩ := (Option.any_eq_true _ _).mp hcheck
    exact ⟨t, ht, by simpa using hp⟩
  obtain ⟨n, hn, hreach⟩ := Reachable.messages (s := {}) (.init ⟨rfl, rfl, rfl, rfl⟩) _ hrun
  have hinv := hreach.tableInv (Nat.lt_of_le_of_lt hn (by norm_num))
  refine ⟨n, _, hreach, hlen, ?_⟩
  rintro ⟨ft, expired, hscan, -, -, hnil, -⟩
  obtain ⟨ft', gone, hscan', -, -, -, hexp'⟩ := hinv.scanExpired {} .all
  obtain ⟨rfl, -⟩ := Prod.mk.inj (Except.ok.inj (hscan.symm.trans hscan'))
  rw [hexp', hexp] at hnil
  simp [Expiry.isDue] at hnil

/-- A second message gives the flow a proper expiry time, and a flush then takes it out. -/
theorem flush_complete_iff_updated :
    ∃ n s, Reachable n s ∧ s.tracker.ft.flows.length = 1 ∧ FlushesAll { ex := .all } s := by
  obtain ⟨t, hrun, hexp, hlen⟩ : ∃ t, runOk {} [sampleCall, sampleCall] = some t ∧
      (∀ e ∈ t.ft.expiries, e.expiresAt ≠ 1) ∧ t.ft.flows.length = 1 := by
    have hcheck : (runOk {} [sampleCall, sampleCall]).any (fun t =>
        (∀ e ∈ t.ft.expiries, e.expiresAt ≠ 1) ∧ t.ft.flows.length = 1) = true := by
      decide +kernel
    obtain ⟨t, ht, hp⟩ := (Option.any_eq_true _ _).mp hcheck
    exact ⟨t, ht, by simpa using hp⟩
  obtain ⟨n, hn, hreach⟩ := Reachable.messages (s := {}) (.init ⟨rfl, rfl, rfl, rfl⟩) _ hrun
  have hlt : n < 2 ^ 64 := Nat.lt_of_le_of_lt hn (by norm_num)
  exact ⟨n, _, hreach, hlen, (flush_complete_iff hreach hlt rfl rfl).mpr hexp⟩

end Softflowd
