import NetworkMonitoring.Flowd.TemplateStore

/-!
# flowd — what a NetFlow v9 datagram does to the template store

Only a template flowset writes to the store, one template after the other. `Arrives` and
`ArrivesTemplate` are the flowsets and the template headers a call of `process_netflow_v9` comes to,
and `PacketRegisters` are the templates it registers. A call keeps every property of the store that
these registrations keep (`processNetflowV9_invariant`).

A call that fails does so at a flowset it comes to (`processNetflowV9_eq_error`), and with accepted
templates in the store only in one of three ways (`processFlowset_ends_of_stores`).
-/

namespace Flowd

open Bytes ErrorLoops FueledLoops

/-! ## Registrations -/

/-- `I` only looks at the store. -/
def OnStore (I : PeerState → Prop) : Prop :=
  ∀ peer peer' : PeerState, peer'.nf9 = peer.nf9 → peer'.nf9NumSources = peer.nf9NumSources →
    I peer → I peer'

theorem PeerState.onStore_stores (Q : List PeerNf9Record → ℕ → Prop) :
    OnStore (PeerState.Stores Q) :=
  fun _ _ heq _ h => h.of_nf9 heq

theorem PeerState.onStore_storeInv (limits : PeerLimits) :
    OnStore (PeerState.StoreInv limits) :=
  fun _ _ heq hnum h => ⟨h.accepted.of_nf9 heq, h.counted.of_nf9 heq hnum⟩

/-- The loop over the templates of a flowset comes to the header at `offset`. -/
def ArrivesTemplate (limits : PeerLimits) (sourceId : UInt32) (pkt : List UInt8) (len : ℕ)
    (peer : PeerState) (offset : ℕ) (peer₁ : PeerState) : Prop :=
  Reaches (orFail (templateStep limits sourceId pkt len)) (4, peer) (offset, peer₁)

/-- It registers there a template with the given records. -/
def Registers (limits : PeerLimits) (sourceId : UInt32) (pkt : List UInt8) (len : ℕ)
    (peer peer₁ : PeerState) (recs : List PeerNf9Record) (totalLen : ℕ) (peer₂ : PeerState) :
    Prop :=
  ∃ offset templateId count, ArrivesTemplate limits sourceId pkt len peer offset peer₁ ∧
    offset < len ∧ fetchNtohs pkt (offset + 2) = .ok count ∧ Accepted limits recs totalLen ∧
    recs.length = count.toNat ∧
    peer₁.register limits sourceId templateId recs totalLen = .ok peer₂

/-- The loop over the templates keeps what each registration keeps. -/
theorem ArrivesTemplate.invariant {I : PeerState → Prop} {limits : PeerLimits}
    {sourceId : UInt32} {pkt : List UInt8} {len : ℕ} {peer : PeerState}
    (hregister : ∀ peer₁ recs totalLen peer₂,
      Registers limits sourceId pkt len peer peer₁ recs totalLen peer₂ → I peer₁ → I peer₂)
    (h : I peer) {offset : ℕ} {peer₁ : PeerState}
    (harrives : ArrivesTemplate limits sourceId pkt len peer offset peer₁) : I peer₁ := by
  apply Reaches.invariant (I := fun s : ℕ × PeerState => I s.2) harrives h
  intro t t' hreach ht hnext
  obtain ⟨hlt, templateId, count, recs, totalLen, -, hcount, hacc, hlen, -, hreg⟩ :=
    templateStep_eq_inr (orFail_eq_inr.mp hnext)
  exact hregister t.2 recs totalLen t'.2
    ⟨t.1, templateId, count, hreach, hlt, hcount, hacc, hlen, hreg⟩ ht

theorem templateStep_eq_inl {limits : PeerLimits} {sourceId : UInt32} {pkt : List UInt8} {len : ℕ}
    {s : ℕ × PeerState} {res : FlowsetResult}
    (h : templateStep limits sourceId pkt len s = .ok (.inl res)) :
    (len ≤ s.1 ∧ res = { peer := s.2, proceed := true }) ∨
      (s.1 < len ∧ res = { peer := s.2.invalid, proceed := false } ∧
        ∃ count, fetchNtohs pkt (s.1 + 2) = .ok count ∧
          templateRecords limits pkt len count.toNat (s.1 + 4) [] 0 = .ok none) := by
  obtain ⟨offset, peer⟩ := s
  rw [templateStep] at h
  by_cases hend : offset ≥ len
  · rw [if_pos hend] at h
    cases h
    exact .inl ⟨hend, rfl⟩
  rw [if_neg hend] at h
  obtain ⟨templateId, -, h⟩ := bind_eq_ok.mp h
  obtain ⟨count, hcount, h⟩ := bind_eq_ok.mp h
  obtain ⟨r, hrecords, h⟩ := bind_eq_ok.mp h
  cases r with
  | none =>
    cases h
    exact .inr ⟨by simpa using hend, rfl, count, hcount, hrecords⟩
  | some x =>
    obtain ⟨peer', -, h⟩ := bind_eq_ok.mp h
    cases h

/-- How `process_netflow_v9_template` returns: a flowset without a header is invalid; otherwise
every template has been registered, or the templates in front of the first one that is rejected,
and nothing else has changed in the store. -/
theorem processNetflowV9Template_cases {limits : PeerLimits} {sourceId : UInt32}
    {pkt : List UInt8} {len : ℕ} {peer : PeerState} {res : FlowsetResult}
    (h : processNetflowV9Template limits sourceId pkt len peer = .ok res) :
    (len < 4 ∧ res = { peer := peer.invalid, proceed := false }) ∨
      ∃ offset peer₁, ArrivesTemplate limits sourceId pkt len peer offset peer₁ ∧
        ((len ≤ offset ∧ res = { peer := peer₁, proceed := true }) ∨
          (offset < len ∧ res = { peer := peer₁.invalid, proceed := false } ∧
            ∃ count, fetchNtohs pkt (offset + 2) = .ok count ∧
              templateRecords limits pkt len count.toNat (offset + 4) [] 0 = .ok none)) := by
  rw [processNetflowV9Template] at h
  by_cases hshort : len < 4
  · rw [if_pos hshort] at h
    exact .inl ⟨hshort, (Except.ok.inj h).symm⟩
  rw [if_neg hshort] at h
  obtain ⟨flowsetId, -, h⟩ := bind_eq_ok.mp h
  split_ifs at h
  rw [templateLoop_eq_iterate] at h
  have hout : iterate (orFail (templateStep limits sourceId pkt len)) (.error .noReturn) len
      (4, peer) ≠ .error .noReturn := by
    rw [h]
    exact ok_ne_error
  obtain ⟨⟨offset, peer₁⟩, hreach, ht⟩ := returns_of_iterate hout
  rw [h] at ht
  exact .inr ⟨offset, peer₁, hreach, templateStep_eq_inl (orFail_eq_inl_ok.mp ht)⟩

/-- One flowset keeps what each registration keeps. -/
theorem processFlowset_invariant {I : PeerState → Prop} (hI : OnStore I) {limits : PeerLimits}
    {fp : FlowPacket} {hdr : Nf9Header} {sourceId : UInt32} {flowsetId : UInt16}
    {pkt : List UInt8} {len : ℕ} {peer : PeerState} {res : FlowsetResult}
    (hregister : flowsetId = 0 → ∀ peer₁ recs totalLen peer₂,
      Registers limits sourceId pkt len peer peer₁ recs totalLen peer₂ → I peer₁ → I peer₂)
    (h : I peer)
    (hres : processFlowset limits fp hdr sourceId flowsetId pkt len peer = .ok res) :
    I res.peer := by
  rw [processFlowset] at hres
  split_ifs at hres with hzero hmin
  · rcases processNetflowV9Template_cases hres with
      ⟨-, rfl⟩ | ⟨offset, peer₁, harrives, ⟨-, rfl⟩ | ⟨-, rfl, -⟩⟩
    · exact hI peer _ rfl rfl h
    · exact harrives.invariant (hregister hzero) h
    · exact hI peer₁ _ rfl rfl (harrives.invariant (hregister hzero) h)
  · cases hres
    exact h
  · have hsame := processNetflowV9Data_store hres
    exact hI peer _ hsame.1 hsame.2 h

/-- A call of `process_netflow_v9` registers a template with the given records. -/
def PacketRegisters (mem : Memory) (limits : PeerLimits) (fp : FlowPacket) (peer peer₁ : PeerState)
    (recs : List PeerNf9Record) (totalLen : ℕ) (peer₂ : PeerState) : Prop :=
  ∃ base res length, Arrives mem limits fp peer base res ∧ FlowsetAt mem fp base 0 length ∧
    base + length.toNat ≤ fp.packet.length ∧
    Registers limits fp.sourceId (mem.flowset fp base length.toNat) length.toNat res.peer peer₁
      recs totalLen peer₂

/-- What is registered is accepted. -/
theorem PacketRegisters.register {mem : Memory} {limits : PeerLimits} {fp : FlowPacket}
    {peer peer₁ peer₂ : PeerState} {recs : List PeerNf9Record} {totalLen : ℕ}
    (h : PacketRegisters mem limits fp peer peer₁ recs totalLen peer₂) :
    Accepted limits recs totalLen ∧
      ∃ templateId, peer₁.register limits fp.sourceId templateId recs totalLen = .ok peer₂ := by
  obtain ⟨base, res, length, -, -, -, offset, templateId, count, -, -, -, hacc, -, hregister⟩ := h
  exact ⟨hacc, templateId, hregister⟩

section Packet

variable {mem : Memory} {limits : PeerLimits} {fp : FlowPacket} {peer : PeerState}

/-- The loop over the flowsets keeps what each registration keeps. -/
theorem Arrives.invariant {I : PeerState → Prop} (hI : OnStore I)
    (hregister : ∀ peer₁ recs totalLen peer₂,
      PacketRegisters mem limits fp peer peer₁ recs totalLen peer₂ → I peer₁ → I peer₂)
    (h : I peer) {offset : ℕ} {res : FlowsetResult}
    (harrives : Arrives mem limits fp peer offset res) : I res.peer := by
  apply Reaches.invariant (I := fun s : ℕ × FlowsetResult => I s.2.peer) harrives h
  intro t t' hreach ht hnext
  obtain ⟨-, flowsetId, length, next, hat, hfit, hflowset, -, rfl⟩ :=
    flowsetStep_eq_inr.mp (orFail_eq_inr.mp hnext)
  show I next.peer
  refine processFlowset_invariant hI ?_ ht hflowset
  rintro rfl peer₁ recs totalLen peer₂ hreg
  exact hregister peer₁ recs totalLen peer₂ ⟨t.1, t.2, length, hreach, hat, hfit.le, hreg⟩

/-- In a packet that consists of one flowset the loop comes to no other one. -/
theorem Arrives.eq_of_only {base : ℕ} {res : FlowsetResult}
    (harrives : Arrives mem limits fp peer base res) {flowsetId length : UInt16}
    (hat : FlowsetAt mem fp 20 flowsetId length) (hlast : fp.packet.length ≤ 20 + length.toNat) :
    base = 20 := by
  rcases harrives.cases_head with heq | ⟨t, hnext, -⟩
  · exact (congrArg Prod.fst heq).symm
  · obtain ⟨-, flowsetId', length', next, hat', hfit, -⟩ :=
      flowsetStep_eq_inr.mp (orFail_eq_inr.mp hnext)
    obtain rfl : length' = length := Except.ok.inj (hat'.2.symm.trans hat.2)
    exact absurd hfit (Nat.not_lt.mpr hlast)

/-- An iteration that ends the loop has met the end of the packet or a flowset that reaches behind
it, or it has processed a flowset. -/
theorem flowsetStep_eq_inl {hdr : Nf9Header} {sourceId : UInt32} {s : ℕ × FlowsetResult}
    {r : FlowsetResult} (h : flowsetStep mem limits fp hdr sourceId s = .ok (.inl r)) :
    r = { peer := s.2.peer.invalid, flows := s.2.flows, proceed := false } ∨
      ∃ flowsetId length next, FlowsetAt mem fp s.1 flowsetId length ∧
        s.1 + length.toNat ≤ fp.packet.length ∧
        processFlowset limits fp hdr sourceId flowsetId (mem.flowset fp s.1 length.toNat)
          length.toNat s.2.peer = .ok next ∧
        r = { next with flows := s.2.flows ++ next.flows } := by
  obtain ⟨offset, res⟩ := s
  rw [flowsetStep] at h
  by_cases hend : offset ≥ fp.packet.length
  · rw [if_pos hend] at h
    cases h
    exact .inl rfl
  rw [if_neg hend] at h
  obtain ⟨flowsetId, hid, h⟩ := bind_eq_ok.mp h
  obtain ⟨length, hlength, h⟩ := bind_eq_ok.mp h
  by_cases hfit : offset + length.toNat > fp.packet.length
  · simp only [if_pos hfit] at h
    cases h
    exact .inl rfl
  simp only [if_neg hfit] at h
  obtain ⟨next, hnext, h⟩ := bind_eq_ok.mp h
  -- the flowset has been processed, and the loop ends behind it
  refine .inr ⟨flowsetId, length, next, ⟨hid, hlength⟩, by simpa using hfit, hnext, ?_⟩
  split_ifs at h <;> cases h <;> rfl

/-- An iteration that fails has read behind the packet, or a flowset has failed. -/
theorem flowsetStep_eq_error {hdr : Nf9Header} {sourceId : UInt32} {s : ℕ × FlowsetResult}
    {e : Fault} : flowsetStep mem limits fp hdr sourceId s = .error e ↔
      s.1 < fp.packet.length ∧ ((e = .overread ∧ (mem.packet fp).length < s.1 + 4) ∨
        ∃ flowsetId length, FlowsetAt mem fp s.1 flowsetId length ∧
          s.1 + length.toNat ≤ fp.packet.length ∧
          processFlowset limits fp hdr sourceId flowsetId (mem.flowset fp s.1 length.toNat)
            length.toNat s.2.peer = .error e) := by
  obtain ⟨offset, res⟩ := s
  rw [flowsetStep]
  by_cases hend : offset ≥ fp.packet.length
  · rw [if_pos hend]
    exact iff_of_false ok_ne_error fun h => Nat.not_lt.mpr hend h.1
  rw [if_neg hend]
  constructor
  · intro h
    refine ⟨Nat.lt_of_not_le hend, ?_⟩
    rcases bind_eq_error.mp h with h | ⟨flowsetId, hid, h⟩
    · obtain ⟨he, hshort⟩ := fetchNtohs_eq_error.mp h
      exact .inl ⟨he, by omega⟩
    rcases bind_eq_error.mp h with h | ⟨length, hlength, h⟩
    · obtain ⟨he, hshort⟩ := fetchNtohs_eq_error.mp h
      exact .inl ⟨he, by omega⟩
    by_cases hfit : offset + length.toNat > fp.packet.length
    · simp only [if_pos hfit] at h
      cases h
    simp only [if_neg hfit] at h
    -- what the iteration does behind the flowset cannot fail
    rcases bind_eq_error.mp h with h | ⟨next, -, h⟩
    · exact .inr ⟨flowsetId, length, ⟨hid, hlength⟩, Nat.le_of_not_lt hfit, h⟩
    · split_ifs at h <;> cases h
  · rintro ⟨-, ⟨rfl, hshort⟩ | ⟨flowsetId, length, ⟨hid, hlength⟩, hfit, hflowset⟩⟩
    · exact fetchNtohs_pair_eq_error hshort _
    · rw [hid, ok_bind, hlength, ok_bind, if_neg (Nat.not_lt.mpr hfit), hflowset]
      rfl

/-- A call keeps what each of its registrations keeps. -/
theorem processNetflowV9_invariant {I : PeerState → Prop} (hI : OnStore I)
    (hregister : ∀ peer₁ recs totalLen peer₂,
      PacketRegisters mem limits fp peer peer₁ recs totalLen peer₂ → I peer₁ → I peer₂)
    (h : I peer) {fuel : ℕ} {r : PeerState × List StoreFlowComplete}
    (hr : processNetflowV9 mem limits fuel fp peer = .ok r) : I r.1 := by
  by_cases hshort : fp.packet.length < 20
  · rw [processNetflowV9, if_pos hshort] at hr
    cases hr
    exact hI peer _ rfl rfl h
  rw [processNetflowV9_eq mem limits _ (Nat.le_of_not_lt hshort)] at hr
  obtain ⟨res, hloop, hr⟩ := bind_eq_ok.mp hr
  have hpeer : I res.peer := by
    have hout : iterate (flowsetNext mem limits fp) (.error .noReturn) fuel
        (20, { peer := peer, proceed := true }) ≠ .error .noReturn := by
      rw [hloop]
      exact ok_ne_error
    obtain ⟨⟨offset, res₁⟩, hreach, ht⟩ := returns_of_iterate hout
    rw [hloop] at ht
    have harrives : I res₁.peer := Arrives.invariant hI hregister h hreach
    -- the store is as the last iteration has found it, or as its flowset has left it
    rcases flowsetStep_eq_inl (orFail_eq_inl_ok.mp ht) with
      rfl | ⟨flowsetId, length, next, hat, hfit, hflowset, rfl⟩
    · exact hI res₁.peer _ rfl rfl harrives
    · show I next.peer
      refine processFlowset_invariant hI ?_ harrives hflowset
      rintro rfl peer₁ recs totalLen peer₂ hreg
      exact hregister peer₁ recs totalLen peer₂
        ⟨offset, res₁, length, hreach, hat, hfit, hreg⟩
  split_ifs at hr
  · cases hr
    exact hI res.peer _ rfl rfl hpeer
  · cases hr
    exact hpeer

/-- A call that fails has used up its fuel, or it has come to a flowset where it fails. -/
theorem processNetflowV9_eq_error {fuel : ℕ} {e : Fault}
    (h : processNetflowV9 mem limits fuel fp peer = .error e) :
    e = .noReturn ∨ ∃ offset res, Arrives mem limits fp peer offset res ∧
      flowsetStep mem limits fp fp.nf9Header fp.sourceId (offset, res) = .error e := by
  by_cases hshort : fp.packet.length < 20
  · rw [processNetflowV9, if_pos hshort] at h
    cases h
  rw [processNetflowV9_eq mem limits _ (Nat.le_of_not_lt hshort)] at h
  have hloop : iterate (flowsetNext mem limits fp) (.error .noReturn) fuel
      (20, { peer := peer, proceed := true }) = .error e := by
    rcases bind_eq_error.mp h with h | ⟨res, -, h⟩
    · exact h
    · split_ifs at h <;> cases h
  by_cases he : e = .noReturn
  · exact .inl he
  have hout : iterate (flowsetNext mem limits fp) (.error .noReturn) fuel
      (20, { peer := peer, proceed := true }) ≠ .error .noReturn := by
    rw [hloop]
    exact fun h => he (Except.error.inj h)
  obtain ⟨⟨offset, res⟩, hreach, ht⟩ := returns_of_iterate hout
  rw [hloop] at ht
  exact .inr ⟨offset, res, hreach, orFail_eq_inl_error.mp ht⟩

/-- A flowset where the loop fails makes the call fail, with enough fuel. -/
theorem Arrives.fails {offset : ℕ} {res : FlowsetResult} {e : Fault}
    (harrives : Arrives mem limits fp peer offset res)
    (h : flowsetStep mem limits fp fp.nf9Header fp.sourceId (offset, res) = .error e) :
    ∃ fuel, ∀ extra, processNetflowV9 mem limits (fuel + extra) fp peer = .error e := by
  have hlong : 20 ≤ fp.packet.length :=
    harrives.le_offset.trans (flowsetStep_eq_error.mp h).1.le
  obtain ⟨fuel, hfuel⟩ := iterate_of_reaches (.error .noReturn) harrives
    (orFail_eq_inl_error.mpr h)
  refine ⟨fuel, fun extra => ?_⟩
  rw [processNetflowV9_eq mem limits _ hlong, hfuel]
  rfl

/-- A flowset that ends the loop decides what the call returns. -/
theorem Arrives.returns {offset : ℕ} {res r : FlowsetResult}
    (harrives : Arrives mem limits fp peer offset res)
    (h : flowsetStep mem limits fp fp.nf9Header fp.sourceId (offset, res) = .ok (.inl r))
    (hlt : offset < fp.packet.length) (hproceed : r.proceed = false) :
    ∃ fuel, ∀ extra,
      processNetflowV9 mem limits (fuel + extra) fp peer = .ok (r.peer, r.flows) := by
  obtain ⟨fuel, hfuel⟩ := iterate_of_reaches (.error .noReturn) harrives
    (orFail_eq_inl_ok.mpr h)
  refine ⟨fuel, fun extra => ?_⟩
  rw [processNetflowV9_eq mem limits _ (harrives.le_offset.trans hlt.le), hfuel, ok_bind,
    if_neg (by simp [hproceed])]
  rfl

end Packet

/-! ## Calls with accepted templates in the store -/

theorem fetch_drop {pkt : List UInt8} {k : ℕ} (hk : k ≤ pkt.length) (offset n : ℕ) :
    fetch (pkt.drop k) offset n = fetch pkt (k + offset) n := by
  rw [fetch, fetch, List.length_drop, List.drop_drop]
  exact if_congr (by omega) rfl rfl

namespace Memory

variable {mem : Memory} {fp : FlowPacket} {offset len : ℕ}

/-- A flowset inside the packet can be loaded. -/
theorem le_length_flowset (hfit : offset + len ≤ fp.packet.length) :
    len ≤ (mem.flowset fp offset len).length := by
  cases mem with
  | checked =>
    rw [flowset, List.length_take, List.length_drop]
    omega
  | heap behind =>
    rw [flowset, List.length_append, List.length_drop]
    omega

/-- A load inside the flowset is one inside the packet. -/
theorem fetch_flowset (hfit : offset + len ≤ fp.packet.length) {i n : ℕ} (h : i + n ≤ len) :
    fetch (mem.flowset fp offset len) i n = fetch (mem.packet fp) (offset + i) n := by
  have hoffset : offset ≤ fp.packet.length := by omega
  cases mem with
  | checked => rw [flowset, fetch_take h, fetch_drop hoffset, packet]
  | heap behind =>
    rw [flowset, packet, ← List.drop_append_of_le_length hoffset, fetch_drop]
    rw [List.length_append]
    omega

/-- Behind a flowset inside the packet, three bytes of the heap can be loaded. -/
theorem not_behind_heap {behind : Fin 3 → UInt8} (hfit : offset + len ≤ fp.packet.length)
    (e : Fault) : ¬ Behind ((heap behind).flowset fp offset len) (len + 3) e := by
  rintro ⟨-, hlt⟩
  rw [flowset, List.length_append, List.length_drop, List.length_ofFn] at hlt
  omega

end Memory

/-- With accepted templates in the store, processing a flowset only fails by loading what is behind
it, by following a NULL pointer, or by dividing by the length 0 of a template. -/
theorem processFlowset_ends_of_stores {mem : Memory} {limits : PeerLimits} {fp : FlowPacket}
    {peer : PeerState} {Q : List PeerNf9Record → ℕ → Prop}
    (hQ : ∀ recs totalLen, Q recs totalLen → Accepted limits recs totalLen) (h : peer.Stores Q)
    {offset : ℕ} {flowsetId length : UInt16} (hat : FlowsetAt mem fp offset flowsetId length)
    (hfit : offset + length.toNat ≤ fp.packet.length) :
    Ends (fun e => Behind (mem.flowset fp offset length.toNat) (length.toNat + 3) e ∨
        e = .pointer ∨ e = .divByZero ∧ ∃ recs, Q recs 0) (fun _ => True)
      (processFlowset limits fp fp.nf9Header fp.sourceId flowsetId
        (mem.flowset fp offset length.toNat) length.toNat peer) := by
  rw [processFlowset]
  split_ifs with hzero
  · -- the flowset has the id that got it here
    rw [processNetflowV9Template]
    by_cases hshort : length.toNat < 4
    · rw [if_pos hshort]
      trivial
    have hid : fetchNtohs (mem.flowset fp offset length.toNat) 0 = .ok 0 := by
      rw [← hzero, ← hat.1, fetchNtohs, fetchNtohs, Memory.fetch_flowset hfit (by omega),
        Nat.add_zero]
    rw [if_neg hshort, hid, ok_bind, if_neg (not_not.mpr rfl)]
    refine (templateLoop_ends limits fp.sourceId _ _ (by omega) peer).imp (fun e he => ?_)
      fun _ => id
    exact he.imp_right .inl
  · trivial
  · refine (processNetflowV9Data_ok (h.mono hQ) fp _ _ (Memory.le_length_flowset hfit)).imp
      (fun e he => ?_) fun _ _ => trivial
    obtain ⟨rfl, templateId, template, hfind, htotal⟩ := he
    obtain ⟨recs, -, hq⟩ := h.findTemplate hfind
    exact .inr (.inr ⟨rfl, recs, htotal ▸ hq⟩)

/-- In the program a call with accepted templates in the store keeps them accepted. It fails when it
does not end, when it follows a NULL pointer, or when it divides by the length 0 of a template. -/
theorem processNetflowV9_ends_of_stores {behind : Fin 3 → UInt8} {limits : PeerLimits}
    {fp : FlowPacket} {peer : PeerState} {Q : List PeerNf9Record → ℕ → Prop}
    (hQ : ∀ recs totalLen, Q recs totalLen → Accepted limits recs totalLen) (h : peer.Stores Q)
    (hregister : ∀ peer₁ recs totalLen peer₂,
      PacketRegisters (.heap behind) limits fp peer peer₁ recs totalLen peer₂ → Q recs totalLen)
    (fuel : ℕ) :
    Ends (fun e => e = .noReturn ∨ e = .pointer ∨ e = .divByZero ∧ ∃ recs, Q recs 0)
      (fun r => r.1.Stores Q) (processNetflowV9 (.heap behind) limits fuel fp peer) := by
  have hkeep : ∀ peer₁ recs totalLen peer₂,
      PacketRegisters (.heap behind) limits fp peer peer₁ recs totalLen peer₂ →
      peer₁.Stores Q → peer₂.Stores Q := by
    intro peer₁ recs totalLen peer₂ hreg hstores
    obtain ⟨-, templateId, hregisters⟩ := hreg.register
    exact hstores.register (hregister peer₁ recs totalLen peer₂ hreg) hregisters
  cases hr : processNetflowV9 (.heap behind) limits fuel fp peer with
  | ok r => exact processNetflowV9_invariant (PeerState.onStore_stores Q) hkeep h hr
  | error e =>
    rcases processNetflowV9_eq_error hr with rfl | ⟨offset, res, harrives, hfails⟩
    · exact .inl rfl
    have hstores : res.peer.Stores Q :=
      harrives.invariant (PeerState.onStore_stores Q) hkeep h
    obtain ⟨hlt, ⟨-, hshort⟩ | ⟨flowsetId, length, hat, hfit, hflowset⟩⟩ :=
      flowsetStep_eq_error.mp hfails
    -- the bytes of the heap behind the packet are enough for the header of a flowset
    · rw [Memory.packet, List.length_append, List.length_ofFn] at hshort
      omega
    · have hends := processFlowset_ends_of_stores hQ hstores hat hfit
      rw [hflowset] at hends
      exact .inr (hends.resolve_left (Memory.not_behind_heap hfit e))

/-! ## Templates that are rejected -/

theorem ArrivesTemplate.le_offset {limits : PeerLimits} {sourceId : UInt32} {pkt : List UInt8}
    {len : ℕ} {peer : PeerState} {offset : ℕ} {peer₁ : PeerState}
    (h : ArrivesTemplate limits sourceId pkt len peer offset peer₁) : 4 ≤ offset := by
  apply Reaches.invariant (I := fun s : ℕ × PeerState => 4 ≤ s.1) h le_rfl
  intro t t' _ ht hnext
  obtain ⟨-, -, count, -, -, -, -, -, -, hoff, -⟩ := templateStep_eq_inr (orFail_eq_inr.mp hnext)
  omega

/-- The template at an offset is rejected. -/
def RejectedAt (limits : PeerLimits) (pkt : List UInt8) (len offset : ℕ) : Prop :=
  offset < len ∧ ∃ count, fetchNtohs pkt (offset + 2) = .ok count ∧
    templateRecords limits pkt len count.toNat (offset + 4) [] 0 = .ok none

/-- A rejected template ends the flowset with the store as it is. -/
theorem processNetflowV9Template_rejected {limits : PeerLimits} {sourceId : UInt32}
    {pkt : List UInt8} {len : ℕ} (hid : fetchNtohs pkt 0 = .ok 0) {peer : PeerState} {offset : ℕ}
    {peer₁ : PeerState} (harrives : ArrivesTemplate limits sourceId pkt len peer offset peer₁)
    (h : RejectedAt limits pkt len offset) :
    processNetflowV9Template limits sourceId pkt len peer =
      .ok { peer := peer₁.invalid, proceed := false } := by
  obtain ⟨hlt, count, hcount, hrejected⟩ := h
  have hstep : templateStep limits sourceId pkt len (offset, peer₁) =
      .ok (.inl { peer := peer₁.invalid, proceed := false }) := by
    -- the id stands in front of the count, which can be loaded
    obtain ⟨templateId, htemplateId⟩ : ∃ templateId, fetchNtohs pkt offset = .ok templateId := by
      have hload : offset + 2 + 2 ≤ pkt.length := by
        by_contra hbehind
        rw [fetchNtohs_eq_error.mpr ⟨rfl, Nat.lt_of_not_le hbehind⟩] at hcount
        cases hcount
      obtain ⟨data, hdata, -⟩ := fetch_ok (show offset + 2 ≤ pkt.length by omega)
      exact ⟨_, by rw [fetchNtohs, hdata, ok_bind]; rfl⟩
    rw [templateStep, if_neg (Nat.not_le.mpr hlt), htemplateId, ok_bind, hcount]
    simp only [ok_bind, hrejected]
    rfl
  have hlong : ¬ len < 4 := by
    have := harrives.le_offset
    omega
  rw [processNetflowV9Template, if_neg hlong, hid, ok_bind, if_neg (not_not.mpr rfl),
    templateLoop_eq_iterate]
  refine iterate_eq_of_reaches (fun hout => ?_) harrives (orFail_eq_inl_ok.mpr hstep)
  -- an iteration takes at least one byte, so the fuel is not used up
  have hends := templateLoop_ends limits sourceId pkt len (show len - 4 < len by omega) peer
  rw [templateLoop_eq_iterate, hout] at hends
  rcases hends with ⟨h, -⟩ | h <;> cases h

/-- A rejected template ends the call: the templates stored before it are found, and no other. -/
theorem processNetflowV9_rejected {mem : Memory} {limits : PeerLimits} {fp : FlowPacket}
    {peer : PeerState} {base : ℕ} {res : FlowsetResult} {length : UInt16} {offset : ℕ}
    {peer₁ : PeerState} (harrives : Arrives mem limits fp peer base res)
    (hat : FlowsetAt mem fp base 0 length) (hfit : base + length.toNat ≤ fp.packet.length)
    (htemplate : ArrivesTemplate limits fp.sourceId (mem.flowset fp base length.toNat)
      length.toNat res.peer offset peer₁)
    (h : RejectedAt limits (mem.flowset fp base length.toNat) length.toNat offset) :
    ∃ fuel, ∀ extra,
      processNetflowV9 mem limits (fuel + extra) fp peer = .ok (peer₁.invalid, res.flows) := by
  have hlong : 4 ≤ length.toNat := htemplate.le_offset.trans h.1.le
  have hid : fetchNtohs (mem.flowset fp base length.toNat) 0 = .ok 0 := by
    rw [← hat.1, fetchNtohs, fetchNtohs, Memory.fetch_flowset hfit (by omega), Nat.add_zero]
  have hflowset := processNetflowV9Template_rejected hid htemplate h
  have hstep : flowsetStep mem limits fp fp.nf9Header fp.sourceId (base, res) =
      .ok (.inl { peer := peer₁.invalid, flows := res.flows, proceed := false }) := by
    rw [flowsetStep, if_neg (by omega), hat.1, ok_bind, hat.2, ok_bind,
      if_neg (Nat.not_lt.mpr hfit), processFlowset, if_pos rfl, hflowset, ok_bind,
      List.append_nil]
    rfl
  exact harrives.returns hstep (by omega) rfl

end Flowd
