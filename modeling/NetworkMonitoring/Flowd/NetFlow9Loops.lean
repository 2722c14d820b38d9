import NetworkMonitoring.Flowd.NetFlow9Decode
import NetworkMonitoring.Foundations.FueledLoops

/-!
# flowd — the two loops of the NetFlow v9 decoder

The loop over the templates of a flowset and the loop over the flowsets of a packet advance by
lengths that come from the packet. `templateStep` and `flowsetStep` are one iteration of each, and
the loops are their iteration (`templateLoop_eq_iterate`, `flowsetLoop_eq_iterate`).

## Main results

* `templateRecords_ends`: the records of a template that is accepted;
* `processNetflowV9Template_ends`: the loop over the templates always ends;
* `processNetflowV9_returns_iff`: the loop over the flowsets ends exactly when it never comes to an
  options flowset or one of an unknown reserved type with the length 0.
-/

namespace Flowd

open Bytes ErrorLoops FueledLoops

/-! ## Loads -/

/-- A load of bytes in front of the offset `n` fails. -/
def Behind (pkt : List UInt8) (n : ℕ) (e : Fault) : Prop := e = .overread ∧ pkt.length < n

/-- What is behind a position is behind all positions after it. -/
theorem Behind.mono {pkt : List UInt8} {n m : ℕ} {e : Fault} (h : Behind pkt n e) (hle : n ≤ m) :
    Behind pkt m e :=
  ⟨h.1, h.2.trans_le hle⟩

/-- A fetch fails only behind the end of the packet. -/
theorem fetch_ends (pkt : List UInt8) (offset n : ℕ) :
    Ends (Behind pkt (offset + n)) (fun data => data.length = n) (fetch pkt offset n) := by
  by_cases h : offset + n ≤ pkt.length
  · rw [fetch, if_pos h, ends_ok, List.length_take, List.length_drop]
    omega
  · rw [fetch, if_neg h]
    exact ⟨rfl, Nat.lt_of_not_le h⟩

/-- So does one of a 16-bit number. -/
theorem fetchNtohs_ends (pkt : List UInt8) (offset : ℕ) :
    Ends (Behind pkt (offset + 2)) (fun _ => True) (fetchNtohs pkt offset) :=
  (fetch_ends pkt offset 2).bind fun _ _ => trivial

/-! ## One template -/

/-- The records of an accepted template, and their total size. -/
structure Accepted (limits : PeerLimits) (recs : List PeerNf9Record) (totalLen : ℕ) : Prop where
  check : ∀ r ∈ recs, nf9CheckRecLen r.type r.len = true
  total_eq : totalLen = (recs.map PeerNf9Record.len).sum
  total_le : totalLen ≤ limits.maxTemplateLen

/-- A template without fields. -/
theorem Accepted.nil (limits : PeerLimits) : Accepted limits [] 0 :=
  ⟨by simp, rfl, Nat.zero_le _⟩

/-- One more field that passes its check. -/
theorem Accepted.concat {limits : PeerLimits} {recs : List PeerNf9Record} {totalLen : ℕ}
    {r : PeerNf9Record} (h : Accepted limits recs totalLen)
    (hcheck : nf9CheckRecLen r.type r.len = true)
    (hle : totalLen + r.len ≤ limits.maxTemplateLen) :
    Accepted limits (recs ++ [r]) (totalLen + r.len) := by
  refine ⟨fun x hx => ?_, ?_, hle⟩
  · rcases List.mem_append.mp hx with hx | hx
    · exact h.check x hx
    · rw [List.mem_singleton.mp hx]
      exact hcheck
  · simp [h.total_eq]

/-- A field that passes its check is not empty. -/
theorem pos_of_nf9CheckRecLen {type len : ℕ} (h : nf9CheckRecLen type len = true) : 0 < len := by
  by_contra hlen
  have hzero : len = 0 ∨ len > 0x4000 := .inl (by omega)
  rw [nf9CheckRecLen, if_pos hzero] at h
  exact Bool.false_ne_true h

/-- A template that has records describes data of at least one byte. -/
theorem Accepted.total_pos {limits : PeerLimits} {recs : List PeerNf9Record} {totalLen : ℕ}
    (h : Accepted limits recs totalLen) (hne : recs ≠ []) : 0 < totalLen := by
  obtain ⟨r, rs, rfl⟩ := List.exists_cons_of_ne_nil hne
  have hpos := pos_of_nf9CheckRecLen (h.check r List.mem_cons_self)
  rw [h.total_eq, List.map_cons, List.sum_cons]
  omega

/-- The loop over the `count` records of a template either rejects it or has checked each of
them. -/
theorem templateRecords_ends {limits : PeerLimits} (pkt : List UInt8) (len count offset : ℕ)
    {recs : List PeerNf9Record} {totalSize : ℕ} (h : Accepted limits recs totalSize) :
    Ends (Behind pkt (len + 3))
      (fun r => ∀ x ∈ r, Accepted limits x.1 x.2.1 ∧ x.1.length = recs.length + count ∧
        x.2.2 = offset + 4 * count)
      (templateRecords limits pkt len count offset recs totalSize) := by
  induction count generalizing offset recs totalSize with
  | zero =>
    rw [templateRecords, ends_ok]
    rintro _ ⟨⟩
    exact ⟨h, rfl, rfl⟩
  | succ count ih =>
    rw [templateRecords]
    by_cases hend : offset ≥ len
    · rw [if_pos hend, ends_ok]
      exact fun _ hx => absurd hx (Option.not_mem_none _)
    · rw [if_neg hend]
      have hload : ∀ k ≤ offset + 2, Ends (Behind pkt (len + 3)) (fun _ => True)
          (fetchNtohs pkt k) := fun k hk =>
        (fetchNtohs_ends pkt k).imp (fun _ he => he.mono (by omega)) fun _ => id
      refine (hload offset (by omega)).bind fun type _ => ?_
      refine (hload (offset + 2) le_rfl).bind fun recLen _ => ?_
      dsimp only
      split_ifs with hmax hcheck
      · exact fun _ hx => absurd hx (Option.not_mem_none _)
      · exact fun _ hx => absurd hx (Option.not_mem_none _)
      -- a record that passes both checks extends the accepted ones
      · have hnext : Accepted limits (recs ++ [⟨type.toNat, recLen.toNat⟩])
            (totalSize + recLen.toNat) := h.concat (by simpa using hcheck) (by simpa using hmax)
        refine (ih _ hnext).imp (fun _ he => he) fun r hr x hx => ?_
        obtain ⟨hacc, hlen, hoff⟩ := hr x hx
        refine ⟨hacc, ?_, ?_⟩
        · rw [hlen, List.length_append, List.length_singleton]
          omega
        · rw [hoff]
          omega

/-! ## The loop over the templates of a flowset -/

/-- Registering a template only fails when a NULL pointer is followed. -/
theorem PeerState.register_ends (limits : PeerLimits) (sourceId : UInt32) (templateId : UInt16)
    (recs : List PeerNf9Record) (totalLen : ℕ) (peer : PeerState) :
    Ends (· = .pointer) (fun _ => True)
      (peer.register limits sourceId templateId recs totalLen) := by
  have hsource : Ends (· = .pointer) (fun _ => True) (peer.ensureSource limits sourceId) := by
    rw [PeerState.ensureSource, PeerState.newSource]
    split_ifs <;> simp
  have htemplate : Ends (· = .pointer) (fun _ => True)
      (peer.ensureTemplate limits sourceId templateId) := by
    rw [PeerState.ensureTemplate]
    split_ifs
    · trivial
    · refine hsource.bind fun peer₁ _ => ?_
      cases peer₁.lookupSource sourceId with
      | none => rfl
      | some nf9src =>
        have hnew : Ends (· = .pointer) (fun _ => True) (nf9src.newTemplate limits templateId) := by
          rw [PeerNf9Source.newTemplate]
          split_ifs <;> simp
        exact hnew.bind fun _ _ => trivial
  exact htemplate.bind fun _ _ => trivial

/-- One iteration of the loop over the templates, from an offset and the peer. -/
def templateStep (limits : PeerLimits) (sourceId : UInt32) (pkt : List UInt8) (len : ℕ) :
    ℕ × PeerState → Except Fault (FlowsetResult ⊕ (ℕ × PeerState))
  | (offset, peer) =>
    if offset ≥ len then .ok (.inl { peer := peer, proceed := true })
    else do
      let templateId ← fetchNtohs pkt offset
      let count := (← fetchNtohs pkt (offset + 2)).toNat
      match ← templateRecords limits pkt len count (offset + 4) [] 0 with
      | none => return .inl { peer := peer.invalid, proceed := false }
      | some (recs, totalSize, offset) =>
        return .inr (offset, ← peer.register limits sourceId templateId recs totalSize)

/-- The loop over templates repeats its body. -/
theorem templateLoop_eq_iterate (limits : PeerLimits) (sourceId : UInt32) (pkt : List UInt8)
    (len fuel offset : ℕ) (peer : PeerState) :
    templateLoop limits sourceId pkt len fuel offset peer =
      iterate (orFail (templateStep limits sourceId pkt len)) (.error .noReturn) fuel
        (offset, peer) := by
  induction fuel generalizing offset peer with
  | zero => rfl
  | succ fuel ih =>
    rw [templateLoop, iterate, orFail, templateStep]
    by_cases hend : offset ≥ len
    · simp only [if_pos hend]
    simp only [if_neg hend]
    -- both sides stop at the same load, at the first one that fails
    cases fetchNtohs pkt offset with
    | error e => rfl
    | ok templateId =>
    simp only [ok_bind]
    cases fetchNtohs pkt (offset + 2) with
    | error e => rfl
    | ok count =>
    simp only [ok_bind]
    cases templateRecords limits pkt len count.toNat (offset + 4) [] 0 with
    | error e => rfl
    | ok r =>
    cases r with
    | none => rfl
    | some x =>
    obtain ⟨recs, totalSize, offset'⟩ := x
    simp only [ok_bind, PeerState.register]
    cases peer.ensureTemplate limits sourceId templateId with
    | error e => rfl
    | ok peer₁ => exact ih offset' _

/-- An iteration that goes on has registered a template, whose header and records it has passed. -/
theorem templateStep_eq_inr {limits : PeerLimits} {sourceId : UInt32} {pkt : List UInt8} {len : ℕ}
    {s s' : ℕ × PeerState} (h : templateStep limits sourceId pkt len s = .ok (.inr s')) :
    s.1 < len ∧ ∃ templateId count recs totalLen, fetchNtohs pkt s.1 = .ok templateId ∧
      fetchNtohs pkt (s.1 + 2) = .ok count ∧ Accepted limits recs totalLen ∧
      recs.length = count.toNat ∧ s'.1 = s.1 + 4 + 4 * count.toNat ∧
      s.2.register limits sourceId templateId recs totalLen = .ok s'.2 := by
  obtain ⟨offset, peer⟩ := s
  rw [templateStep] at h
  by_cases hend : offset ≥ len
  · rw [if_pos hend] at h
    cases h
  rw [if_neg hend] at h
  obtain ⟨templateId, hid, h⟩ := bind_eq_ok.mp h
  obtain ⟨count, hcount, h⟩ := bind_eq_ok.mp h
  obtain ⟨r, hrecords, h⟩ := bind_eq_ok.mp h
  cases r with
  | none => cases h
  | some x =>
    obtain ⟨recs, totalSize, offset'⟩ := x
    obtain ⟨peer', hregister, h⟩ := bind_eq_ok.mp h
    cases h
    -- what the records of the template have passed
    have hends := templateRecords_ends pkt len count.toNat (offset + 4) (.nil limits)
    rw [hrecords] at hends
    obtain ⟨hacc, hlen, hoff⟩ := hends _ rfl
    refine ⟨Nat.lt_of_not_le hend, templateId, count, recs, totalSize, hid, hcount, hacc, ?_, hoff,
      hregister⟩
    simpa using hlen

/-- An iteration that fails has read too far, or it follows a NULL pointer. -/
theorem templateStep_ends (limits : PeerLimits) (sourceId : UInt32) (pkt : List UInt8) (len : ℕ)
    (s : ℕ × PeerState) :
    Ends (fun e => Behind pkt (len + 3) e ∨ e = .pointer) (fun _ => True)
      (templateStep limits sourceId pkt len s) := by
  obtain ⟨offset, peer⟩ := s
  rw [templateStep]
  split_ifs with hend
  · trivial
  have hload : ∀ k ≤ offset + 2, Ends (fun e => Behind pkt (len + 3) e ∨ e = .pointer)
      (fun _ => True) (fetchNtohs pkt k) := fun k hk =>
    (fetchNtohs_ends pkt k).imp (fun _ he => .inl (he.mono (by omega))) fun _ => id
  refine (hload offset (by omega)).bind fun templateId _ => ?_
  refine (hload (offset + 2) le_rfl).bind fun count _ => ?_
  refine ((templateRecords_ends _ _ _ _ (.nil limits)).imp (fun _ => .inl)
    fun _ => id).bind fun r _ => ?_
  cases r with
  | none => trivial
  | some x =>
    exact ((PeerState.register_ends ..).imp (fun _ => .inr) fun _ => id).bind fun _ _ => trivial

/-- Every template moves the loop on by at least four bytes, so the loop ends. -/
theorem templateLoop_ends (limits : PeerLimits) (sourceId : UInt32) (pkt : List UInt8) (len : ℕ)
    {fuel offset : ℕ} (hfuel : len - offset < fuel) (peer : PeerState) :
    Ends (fun e => Behind pkt (len + 3) e ∨ e = .pointer) (fun _ => True)
      (templateLoop limits sourceId pkt len fuel offset peer) := by
  have hmeasure : ∀ t t' : ℕ × PeerState,
      orFail (templateStep limits sourceId pkt len) t = .inr t' → len - t'.1 < len - t.1 := by
    intro t t' ht
    obtain ⟨hlt, -, count, -, -, -, -, -, -, hoff, -⟩ := templateStep_eq_inr (orFail_eq_inr.mp ht)
    omega
  obtain ⟨t, -, ht⟩ := exists_returns (.error .noReturn) (s := (offset, peer))
    (fun s : ℕ × PeerState => len - s.1) (fun t t' _ => hmeasure t t') hfuel
  rw [templateLoop_eq_iterate]
  cases hresult : iterate (orFail (templateStep limits sourceId pkt len)) (.error .noReturn) fuel
      (offset, peer) with
  | ok r => trivial
  | error e =>
    rw [hresult] at ht
    have hends := templateStep_ends limits sourceId pkt len t
    rwa [orFail_eq_inl_error.mp ht] at hends

/-- `process_netflow_v9_template` returns, unless it reads too far, which is at most three bytes
behind the flowset, follows a NULL pointer or ends the process. -/
theorem processNetflowV9Template_ends (limits : PeerLimits) (sourceId : UInt32)
    (pkt : List UInt8) (len : ℕ) (peer : PeerState) :
    Ends (fun e => Behind pkt (len + 3) e ∨ e = .pointer ∨ e = .exit)
      (fun res => res.proceed = true → 4 ≤ len)
      (processNetflowV9Template limits sourceId pkt len peer) := by
  rw [processNetflowV9Template]
  by_cases hshort : len < 4
  · rw [if_pos hshort]
    exact fun h => absurd h Bool.false_ne_true
  rw [if_neg hshort]
  refine ((fetchNtohs_ends pkt 0).imp (fun _ he => .inl (he.mono (by omega)))
    fun _ => id).bind fun flowsetId _ => ?_
  split_ifs
  · exact .inr (.inr rfl)
  · exact (templateLoop_ends limits sourceId pkt len (by omega) peer).imp
      (fun _ => Or.imp_right .inl) fun _ _ _ => by omega

/-! ## Data flowsets -/

/-- A copy of `data` into a field of `size` bytes. -/
abbrev Copies {α : Type} (size : ℕ) (data : List UInt8) : Except Fault α → Prop :=
  Ends (fun e => e = .fieldOverflow ∧ size < data.length) (fun _ => data.length ≤ size)

/-- A number is copied when the field fits. -/
theorem beCopy_copies (w v : ℕ) (data : List UInt8) : Copies w data (beCopy w v data) := by
  by_cases h : data.length ≤ w
  · rw [beCopy, if_pos h]
    exact h
  · rw [beCopy, if_neg h]
    exact ⟨rfl, by omega⟩

/-- An address is copied when the field fits. -/
theorem addrCopy_copies (w : ℕ) (a : Xaddr) (data : List UInt8) (af : UInt16) :
    Copies w data (addrCopy w a data af) := by
  by_cases h : data.length ≤ w
  · rw [addrCopy, if_pos h]
    exact h
  · rw [addrCopy, if_neg h]
    exact ⟨rfl, by omega⟩

/-- A byte is copied when the field fits. -/
theorem beCopy8_copies (v : UInt8) (data : List UInt8) : Copies 1 data (beCopy8 v data) :=
  (beCopy_copies 1 v.toNat data).map fun _ => id

/-- A 16-bit number is copied when the field fits. -/
theorem beCopy16_copies (v : UInt16) (data : List UInt8) : Copies 2 data (beCopy16 v data) :=
  (beCopy_copies 2 v.toNat data).map fun _ => id

/-- A 32-bit number is copied when the field fits. -/
theorem beCopy32_copies (v : UInt32) (data : List UInt8) : Copies 4 data (beCopy32 v data) :=
  (beCopy_copies 4 v.toNat data).map fun _ => id

/-- A 64-bit number is copied when the field fits. -/
theorem beCopy64_copies (v : UInt64) (data : List UInt8) : Copies 8 data (beCopy64 v data) :=
  (beCopy_copies 8 v.toNat data).map fun _ => id

/-- The two tables agree: `nf9_rec_to_flow` writes outside a field exactly when the length is above
the size `nf9_check_rec_len` has for the type. -/
theorem nf9RecToFlow_ends (type : ℕ) (flow : StoreFlowComplete) (data : List UInt8) :
    Ends (fun e => e = .fieldOverflow ∧ ∃ size, nf9FieldLen type = some size ∧ size < data.length)
      (fun _ => ∀ size, nf9FieldLen type = some size → data.length ≤ size)
      (nf9RecToFlow type flow data) := by
  have hfield : ∀ {α : Type} {x : Except Fault α} (f : α → StoreFlowComplete) {size : ℕ},
      nf9FieldLen type = some size → Copies size data x →
      Ends (fun e => e = .fieldOverflow ∧ ∃ size, nf9FieldLen type = some size ∧ size < data.length)
        (fun _ => ∀ size, nf9FieldLen type = some size → data.length ≤ size)
        (x >>= fun a => pure (f a)) := by
    intro α x f size hsize hcopy
    refine (hcopy.imp (fun e he => ⟨he.1, size, hsize, he.2⟩) fun _ h => h).bind fun a ha size' h => ?_
    obtain rfl := Option.some.inj (hsize.symm.trans h)
    exact ha
  -- one case for each type of the table, and the default
  rw [nf9RecToFlow.eq_def]
  split
  case h_26 =>
    have hnone : nf9FieldLen type = none := by
      rw [nf9FieldLen.eq_def]
      split <;> first | contradiction | rfl
    exact fun size hsize => absurd (hnone.symm.trans hsize) (Option.some_ne_none size).symm
  all_goals first
    | exact hfield _ rfl (beCopy8_copies _ _)
    | exact hfield _ rfl (beCopy16_copies _ _)
    | exact hfield _ rfl (beCopy32_copies _ _)
    | exact hfield _ rfl (beCopy64_copies _ _)
    | exact hfield _ rfl (addrCopy_copies _ _ _ _)

/-- The loop over the fields of a record ends. -/
theorem recordLoop_ends (pkt : List UInt8) (records : List PeerNf9Record) (offset : ℕ)
    (flow : StoreFlowComplete) :
    Ends (fun e => e = .overread ∨ e = .fieldOverflow) (fun _ => True)
      (recordLoop pkt records offset flow) := by
  induction records generalizing offset flow with
  | nil => trivial
  | cons r rs ih =>
    rw [recordLoop]
    refine ((fetch_ends pkt offset r.len).imp (fun _ he => .inl he.1) fun _ _ => trivial).bind
      fun data _ => ?_
    exact ((nf9RecToFlow_ends r.type flow data).imp (fun _ he => .inr he.1) fun _ _ => trivial).bind
      fun flow' _ => ih _ flow'

/-- The loop over the records of a flowset ends. -/
theorem dataLoop_ends (fp : FlowPacket) (peer : PeerState) (hdr : Nf9Header) (sourceId : UInt32)
    (pkt : List UInt8) (template : PeerNf9Template) (records : List PeerNf9Record) (n offset : ℕ) :
    Ends (fun e => e = .overread ∨ e = .fieldOverflow) (fun _ => True)
      (dataLoop fp peer hdr sourceId pkt template records n offset) := by
  induction n generalizing offset with
  | zero => trivial
  | succ n ih =>
    have hone : Ends (fun e => e = .overread ∨ e = .fieldOverflow) (fun _ => True)
        (nf9FlowsetToStore fp peer hdr sourceId (pkt.drop offset) template.totalLen template
          records) := by
      rw [nf9FlowsetToStore]
      split_ifs
      · trivial
      · exact (recordLoop_ends _ _ _ _).map fun _ _ => trivial
    rw [dataLoop]
    refine hone.bind fun r _ => ?_
    cases r with
    | none => trivial
    | some flow => exact (ih _).bind fun _ _ => trivial

/-- `process_netflow_v9_data` returns, unless it reads or writes too far, divides by zero or ends
the process. -/
theorem processNetflowV9Data_ends (fp : FlowPacket) (hdr : Nf9Header) (sourceId : UInt32)
    (pkt : List UInt8) (len : ℕ) (peer : PeerState) :
    Ends (· ≠ .noReturn) (fun res => res.proceed = true → 4 ≤ len)
      (processNetflowV9Data fp hdr sourceId pkt len peer) := by
  rw [processNetflowV9Data]
  by_cases hshort : len < 4
  · rw [if_pos hshort]
    exact fun h => absurd h Bool.false_ne_true
  rw [if_neg hshort]
  -- the id, the template and its records; each can end the call
  refine ((fetchNtohs_ends pkt 0).imp (fun e he => ?_) fun _ => id).bind fun templateId _ => ?_
  · rw [he.1]
    decide
  cases peer.findTemplate sourceId templateId with
  | none => exact fun _ => by omega
  | some template =>
  cases hrecords : template.records with
  | none =>
    simp only [hrecords, ends_error]
    decide
  | some records =>
  simp only [hrecords]
  split_ifs
  · rw [ends_error]
    decide
  · exact fun _ => by omega
  · refine ((dataLoop_ends ..).imp (fun e he => ?_) fun _ => id).bind fun r _ => ?_
    · rcases he with rfl | rfl <;> decide
    · cases r with
      | none => exact fun h => absurd h Bool.false_ne_true
      | some flows => exact fun _ => by omega

/-! ## The loop over the flowsets -/

/-- The bytes of the `switch` of `process_netflow_v9` for which no length is checked: the options
flowset and the unknown reserved types. -/
def Skipped (flowsetId : UInt16) : Prop := flowsetId ≠ 0 ∧ flowsetId < nf9MinRecordFlowsetId

instance (flowsetId : UInt16) : Decidable (Skipped flowsetId) :=
  inferInstanceAs (Decidable (_ ∧ _))

/-- A flowset that lets the loop go on has a header, unless it is skipped. -/
theorem processFlowset_ends (limits : PeerLimits) (fp : FlowPacket) (hdr : Nf9Header)
    (sourceId : UInt32) (flowsetId : UInt16) (pkt : List UInt8) (len : ℕ) (peer : PeerState) :
    Ends (· ≠ .noReturn) (fun res => res.proceed = true → 4 ≤ len ∨ Skipped flowsetId)
      (processFlowset limits fp hdr sourceId flowsetId pkt len peer) := by
  rw [processFlowset]
  split_ifs with hzero hmin
  · refine (processNetflowV9Template_ends limits sourceId pkt len peer).imp (fun e he => ?_)
      fun _ h hp => .inl (h hp)
    rcases he with ⟨rfl, -⟩ | rfl | rfl <;> decide
  · exact fun _ => .inr ⟨hzero, hmin⟩
  · exact (processNetflowV9Data_ends fp hdr sourceId pkt len peer).imp (fun _ => id)
      fun _ h hp => .inl (h hp)

/-- One iteration of the loop over the flowsets, from an offset and what there is so far. -/
def flowsetStep (mem : Memory) (limits : PeerLimits) (fp : FlowPacket) (hdr : Nf9Header)
    (sourceId : UInt32) :
    ℕ × FlowsetResult → Except Fault (FlowsetResult ⊕ (ℕ × FlowsetResult))
  | (offset, res) =>
    let short := .ok (.inl { peer := res.peer.invalid, flows := res.flows, proceed := false })
    if offset ≥ fp.packet.length then short
    else do
      let flowsetId ← fetchNtohs (mem.packet fp) offset
      let flowsetLen := (← fetchNtohs (mem.packet fp) (offset + 2)).toNat
      if offset + flowsetLen > fp.packet.length then short
      else
        let next ← processFlowset limits fp hdr sourceId flowsetId
          (mem.flowset fp offset flowsetLen) flowsetLen res.peer
        let next := { next with flows := res.flows ++ next.flows }
        if !next.proceed then return .inl next
        else if offset + flowsetLen = fp.packet.length then return .inl next
        else return .inr (offset + flowsetLen, next)

/-- The loop over flowsets repeats its body. -/
theorem flowsetLoop_eq_iterate (mem : Memory) (limits : PeerLimits) (fp : FlowPacket)
    (hdr : Nf9Header) (sourceId : UInt32) (fuel offset : ℕ) (res : FlowsetResult) :
    flowsetLoop mem limits fp hdr sourceId fuel offset res =
      iterate (orFail (flowsetStep mem limits fp hdr sourceId)) (.error .noReturn) fuel
        (offset, res) := by
  induction fuel generalizing offset res with
  | zero => rfl
  | succ fuel ih =>
    rw [flowsetLoop, iterate, orFail, flowsetStep]
    by_cases hend : offset ≥ fp.packet.length
    · simp only [if_pos hend]
    simp only [if_neg hend]
    -- both sides stop at the same load, at the first one that fails
    cases fetchNtohs (mem.packet fp) offset with
    | error e => rfl
    | ok flowsetId =>
    simp only [ok_bind]
    cases fetchNtohs (mem.packet fp) (offset + 2) with
    | error e => rfl
    | ok length =>
    simp only [ok_bind]
    by_cases hfit : offset + length.toNat > fp.packet.length
    · simp only [if_pos hfit]
    simp only [if_neg hfit]
    cases processFlowset limits fp hdr sourceId flowsetId (mem.flowset fp offset length.toNat)
        length.toNat res.peer with
    | error e => rfl
    | ok next =>
    simp only [ok_bind]
    split_ifs
    · rfl
    · rfl
    · exact ih _ _

/-- The header of the flowset at an offset. -/
def FlowsetAt (mem : Memory) (fp : FlowPacket) (offset : ℕ) (flowsetId length : UInt16) : Prop :=
  fetchNtohs (mem.packet fp) offset = .ok flowsetId ∧
    fetchNtohs (mem.packet fp) (offset + 2) = .ok length

/-- An iteration that goes on has processed a flowset inside the packet. -/
theorem flowsetStep_eq_inr {mem : Memory} {limits : PeerLimits} {fp : FlowPacket} {hdr : Nf9Header}
    {sourceId : UInt32} {s s' : ℕ × FlowsetResult} :
    flowsetStep mem limits fp hdr sourceId s = .ok (.inr s') ↔
      s.1 < fp.packet.length ∧ ∃ flowsetId length next, FlowsetAt mem fp s.1 flowsetId length ∧
        s.1 + length.toNat < fp.packet.length ∧
        processFlowset limits fp hdr sourceId flowsetId (mem.flowset fp s.1 length.toNat)
          length.toNat s.2.peer = .ok next ∧ next.proceed = true ∧
        s' = (s.1 + length.toNat, { next with flows := s.2.flows ++ next.flows }) := by
  obtain ⟨offset, res⟩ := s
  rw [flowsetStep]
  constructor
  · intro h
    by_cases hend : offset ≥ fp.packet.length
    · rw [if_pos hend] at h
      cases h
    rw [if_neg hend] at h
    obtain ⟨flowsetId, hid, h⟩ := bind_eq_ok.mp h
    obtain ⟨length, hlength, h⟩ := bind_eq_ok.mp h
    by_cases hfit : offset + length.toNat > fp.packet.length
    · simp only [if_pos hfit] at h
      cases h
    simp only [if_neg hfit] at h
    obtain ⟨next, hnext, h⟩ := bind_eq_ok.mp h
    -- the loop goes on only behind a flowset that has been processed and is not the last one
    split_ifs at h with hproceed hlast
    · cases h
    · cases h
    · cases h
      exact ⟨by omega, flowsetId, length, next, ⟨hid, hlength⟩, by omega, hnext,
        by simpa using hproceed, rfl⟩
  · rintro ⟨hlt, flowsetId, length, next, ⟨hid, hlength⟩, hfit, hnext, hproceed, rfl⟩
    rw [if_neg (by omega)]
    simp only [hid, hlength, ok_bind, if_neg (show ¬ offset + length.toNat > fp.packet.length by
      omega), hnext, hproceed, Bool.not_true, Bool.false_eq_true, if_false,
      if_neg (show ¬ offset + length.toNat = fp.packet.length by omega)]
    rfl

/-- The body of this loop ends. -/
theorem flowsetStep_ends (mem : Memory) (limits : PeerLimits) (fp : FlowPacket) (hdr : Nf9Header)
    (sourceId : UInt32) (s : ℕ × FlowsetResult) :
    Ends (· ≠ .noReturn) (fun _ => True) (flowsetStep mem limits fp hdr sourceId s) := by
  obtain ⟨offset, res⟩ := s
  have hload : ∀ k, Ends (· ≠ .noReturn) (fun _ => True) (fetchNtohs (mem.packet fp) k) := by
    refine fun k => (fetchNtohs_ends _ k).imp (fun e he => ?_) fun _ => id
    rw [he.1]
    decide
  rw [flowsetStep]
  by_cases hend : offset ≥ fp.packet.length
  · rw [if_pos hend]
    trivial
  rw [if_neg hend]
  refine (hload _).bind fun flowsetId _ => (hload _).bind fun length _ => ?_
  by_cases hfit : offset + length.toNat > fp.packet.length
  · simp only [if_pos hfit]
    trivial
  simp only [if_neg hfit]
  refine (processFlowset_ends ..).bind fun next _ => ?_
  split_ifs <;> trivial

/-! ## The whole packet -/

/-- The header of a packet. -/
abbrev FlowPacket.nf9Header (fp : FlowPacket) : Nf9Header := (readNf9Header.run fp.packet).1

/-- The source a packet comes from. -/
abbrev FlowPacket.sourceId (fp : FlowPacket) : UInt32 := htonl fp.nf9Header.sourceId

/-- One iteration for the packet `fp`, with the header at its start. -/
abbrev flowsetNext (mem : Memory) (limits : PeerLimits) (fp : FlowPacket) :
    ℕ × FlowsetResult → Except Fault FlowsetResult ⊕ (ℕ × FlowsetResult) :=
  orFail (flowsetStep mem limits fp fp.nf9Header fp.sourceId)

/-- `process_netflow_v9` comes to the flowset at `offset` of the packet. -/
def Arrives (mem : Memory) (limits : PeerLimits) (fp : FlowPacket) (peer : PeerState)
    (offset : ℕ) (res : FlowsetResult) : Prop :=
  Reaches (flowsetNext mem limits fp) (20, { peer := peer, proceed := true }) (offset, res)

/-- `process_netflow_v9` is the loop over the flowsets, for a packet that has a header. -/
theorem processNetflowV9_eq (mem : Memory) (limits : PeerLimits) (fuel : ℕ) {fp : FlowPacket}
    (h : 20 ≤ fp.packet.length) (peer : PeerState) :
    processNetflowV9 mem limits fuel fp peer =
      iterate (flowsetNext mem limits fp) (.error .noReturn) fuel
        (20, { peer := peer, proceed := true }) >>= fun res =>
      if res.proceed ∧ res.flows.length > 0 then
        pure (res.peer.update res.flows.length 9, res.flows)
      else pure (res.peer, res.flows) := by
  rw [processNetflowV9, if_neg (Nat.not_lt.mpr h)]
  simp only [flowsetLoop_eq_iterate]

/-- The loop stays behind the header. -/
theorem Arrives.le_offset {mem : Memory} {limits : PeerLimits} {fp : FlowPacket}
    {peer : PeerState} {offset : ℕ} {res : FlowsetResult}
    (h : Arrives mem limits fp peer offset res) : 20 ≤ offset := by
  apply Reaches.invariant (I := fun s : ℕ × FlowsetResult => 20 ≤ s.1) h le_rfl
  intro t t' _ ht hnext
  obtain ⟨-, flowsetId, length, next, -, -, -, -, rfl⟩ :=
    flowsetStep_eq_inr.mp (orFail_eq_inr.mp hnext)
  exact Nat.le_add_right_of_le ht

/-- At `offset` is a flowset of length 0 that is skipped. -/
def Stuck (mem : Memory) (fp : FlowPacket) (offset : ℕ) : Prop :=
  offset < fp.packet.length ∧ ∃ flowsetId, Skipped flowsetId ∧ FlowsetAt mem fp offset flowsetId 0

/-- A skipped flowset of length 0 is looked at over and over. -/
theorem flowsetNext_of_stuck {mem : Memory} {limits : PeerLimits} {fp : FlowPacket}
    {s : ℕ × FlowsetResult} (h : Stuck mem fp s.1) :
    ∃ s', flowsetNext mem limits fp s = .inr s' ∧ Stuck mem fp s'.1 := by
  obtain ⟨hlt, flowsetId, hskip, hat⟩ := h
  have hnext : processFlowset limits fp fp.nf9Header fp.sourceId flowsetId
      (mem.flowset fp s.1 (0 : UInt16).toNat) (0 : UInt16).toNat s.2.peer =
      .ok { peer := s.2.peer, proceed := true } := by
    rw [processFlowset, if_neg hskip.1, if_pos hskip.2]
  exact ⟨_, orFail_eq_inr.mpr (flowsetStep_eq_inr.mpr
    ⟨hlt, flowsetId, 0, _, hat, hlt, hnext, rfl, rfl⟩), hlt, flowsetId, hskip, hat⟩

/-- Every other flowset that lets the loop go on moves it forward. -/
theorem offset_lt_of_flowsetNext {mem : Memory} {limits : PeerLimits} {fp : FlowPacket}
    {s s' : ℕ × FlowsetResult} (h : flowsetNext mem limits fp s = .inr s')
    (hstuck : ¬ Stuck mem fp s.1) : s.1 < s'.1 ∧ s'.1 < fp.packet.length := by
  obtain ⟨hlt, flowsetId, length, next, hat, hfit, hnext, hproceed, rfl⟩ :=
    flowsetStep_eq_inr.mp (orFail_eq_inr.mp h)
  refine ⟨?_, hfit⟩
  show s.1 < s.1 + length.toNat
  have hends := processFlowset_ends limits fp fp.nf9Header fp.sourceId flowsetId
    (mem.flowset fp s.1 length.toNat) length.toNat s.2.peer
  rw [hnext] at hends
  rcases hends hproceed with hlen | hskip
  · omega
  · have hpos : length.toNat ≠ 0 := by
      intro hzero
      obtain rfl : length = 0 := UInt16.toNat_inj.mp hzero
      exact hstuck ⟨hlt, flowsetId, hskip, hat⟩
    omega

/-- As much fuel as the packet has bytes is enough, unless the loop gets stuck. -/
theorem processNetflowV9_returns {mem : Memory} {limits : PeerLimits} {fp : FlowPacket}
    {peer : PeerState} (h : ∀ offset res, Arrives mem limits fp peer offset res →
      ¬ Stuck mem fp offset) :
    processNetflowV9 mem limits fp.packet.length fp peer ≠ .error .noReturn := by
  by_cases hshort : fp.packet.length < 20
  · rw [processNetflowV9, if_pos hshort]
    exact ok_ne_error
  rw [processNetflowV9_eq mem limits _ (Nat.le_of_not_lt hshort)]
  refine bind_ne_error ?_ fun res _ => ?_
  · have hmeasure : ∀ t t', Reaches (flowsetNext mem limits fp)
        (20, { peer := peer, proceed := true }) t → flowsetNext mem limits fp t = .inr t' →
        fp.packet.length - t'.1 < fp.packet.length - t.1 := by
      intro t t' hreach ht
      have hlt := offset_lt_of_flowsetNext ht (h t.1 t.2 hreach)
      omega
    have hfuel : fp.packet.length - 20 < fp.packet.length := by omega
    obtain ⟨t, -, ht⟩ := exists_returns (.error .noReturn)
      (fun s : ℕ × FlowsetResult => fp.packet.length - s.1) hmeasure hfuel
    intro hout
    rw [hout] at ht
    have hends := flowsetStep_ends mem limits fp fp.nf9Header fp.sourceId t
    rw [orFail_eq_inl_error.mp ht] at hends
    exact hends rfl
  · split_ifs <;> exact ok_ne_error

/-- **When the v9 collector returns.** For every datagram, every content of the heap behind it and
every state of the peer, `process_netflow_v9` returns exactly when its loop never comes to an
options flowset, or one of an unknown reserved type, whose length field is 0. -/
theorem processNetflowV9_returns_iff (mem : Memory) (limits : PeerLimits) (fp : FlowPacket)
    (peer : PeerState) :
    (∃ fuel, processNetflowV9 mem limits fuel fp peer ≠ .error .noReturn) ↔
      ∀ offset res, Arrives mem limits fp peer offset res → ¬ Stuck mem fp offset := by
  constructor
  · rintro ⟨fuel, hfuel⟩ offset res harrives hstuck
    have hlong : 20 ≤ fp.packet.length := harrives.le_offset.trans hstuck.1.le
    rw [processNetflowV9_eq mem limits fuel hlong] at hfuel
    apply hfuel
    rw [iterate_of_reaches_endless (fun s => flowsetNext_of_stuck) harrives hstuck]
    rfl
  · intro h
    exact ⟨_, processNetflowV9_returns h⟩

/-- A datagram with an options flowset of length 0 behind its header. -/
def emptyOptionsPacket : FlowPacket :=
  { packet := [0, 9] ++ List.replicate 18 0 ++ [0, 1, 0, 0] }

/-- No amount of fuel is enough for it. -/
theorem processNetflowV9_emptyOptions :
    ¬ ∃ fuel, processNetflowV9 (.heap fun _ => 0) {} fuel emptyOptionsPacket {} ≠
      .error .noReturn := by
  rintro ⟨fuel, hfuel⟩
  apply hfuel
  have hstuck : Stuck (.heap fun _ => 0) emptyOptionsPacket 20 := by
    refine ⟨by decide, 1, by decide, ?_, ?_⟩ <;> decide +kernel
  rw [processNetflowV9_eq _ _ _ (by decide),
    iterate_of_endless (fun s => flowsetNext_of_stuck) hstuck]
  rfl

end Flowd
