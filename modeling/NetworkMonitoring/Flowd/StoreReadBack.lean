import NetworkMonitoring.Flowd.StoreReaders

/-!
# flowd — the log reads back

`StoreFlowComplete.WellFormed` is what `store_flow_serialise` makes of a record before it writes it
(`storeFlowSerialise_storable`); `store_flow_deserialise` gives a well-formed record back, with zero
in the fields that are not set (`storeFlowDeserialise_record`).

## Main result

* `log_readsBack`: the records of a log are read back one by one.
-/

namespace Flowd

open Bytes InetText OptionalFields ErrorLoops

/-! ## Records on disk -/

namespace StoreFlowComplete

variable (f : StoreFlowComplete)

/-- The variables from which the fields of a record are written. -/
def vars : FieldVars := ⟨f, fun g => (f.addr g).v4, fun g => (f.addr g).addr8⟩

/-- The bytes of a record in the log. -/
def record : List UInt8 :=
  f.hdr ++ pieces (shasfield (htonl f.fields)) f.vars.get StoreField.addfields

/-- The bytes before the checksum. -/
def recordBody : List UInt8 :=
  f.hdr ++ pieces (shasfield (htonl f.fields)) f.vars.get StoreField.rfields

/-- A record that can be read by this version. -/
structure WellFormed : Prop where
  version_eq : storeVerGetMaj f.version = storeVerMajor
  known : ¬ hasUnknown (htonl f.fields)
  one_family : ∀ g, ¬ hasBoth (htonl f.fields) g = true
  len_words : f.bodyLen = bodySize (htonl f.fields) + crcSize (htonl f.fields)
  checksum : shasfield (htonl f.fields) .crc32 = true → htonl f.crc32 = flowdCrc32 f.recordBody

/-- The address that is read back: the family of its field and the bytes of that family. -/
def readBackAddr (g : AddrGroup) : Xaddr :=
  if shasfield (htonl f.fields) (.addr4 g) = true then
    Xaddr.copy {} (List.ofFn (f.addr g).v4) afInet
  else if shasfield (htonl f.fields) (.addr6 g) = true then
    Xaddr.copy {} (List.ofFn (f.addr g).addr8) afInet6
  else {}

/-- The record that is read back: the fields that are set, and zero elsewhere. -/
def readBack : StoreFlowComplete :=
  let has := shasfield (htonl f.fields)
  { version := f.version
    lenWords := f.lenWords
    reserved := f.reserved
    fields := f.fields
    tag := if has .tag then f.tag else 0
    recvSec := if has .recvTime then f.recvSec else 0
    recvUsec := if has .recvTime then f.recvUsec else 0
    tcpFlags := if has .protoFlagsTos then f.tcpFlags else 0
    protocol := if has .protoFlagsTos then f.protocol else 0
    tos := if has .protoFlagsTos then f.tos else 0
    pftPad := if has .protoFlagsTos then f.pftPad else 0
    agentAddr := f.readBackAddr .agent
    srcAddr := f.readBackAddr .src
    dstAddr := f.readBackAddr .dst
    gatewayAddr := f.readBackAddr .gateway
    srcPort := if has .srcdstPort then f.srcPort else 0
    dstPort := if has .srcdstPort then f.dstPort else 0
    flowPackets := if has .packets then f.flowPackets else 0
    flowOctets := if has .octets then f.flowOctets else 0
    ifIndexIn := if has .ifIndices then f.ifIndexIn else 0
    ifIndexOut := if has .ifIndices then f.ifIndexOut else 0
    sysUptimeMs := if has .agentInfo then f.sysUptimeMs else 0
    timeSec := if has .agentInfo then f.timeSec else 0
    timeNanosec := if has .agentInfo then f.timeNanosec else 0
    netflowVersion := if has .agentInfo then f.netflowVersion else 0
    ainfoPad := if has .agentInfo then f.ainfoPad else 0
    flowStart := if has .flowTimes then f.flowStart else 0
    flowFinish := if has .flowTimes then f.flowFinish else 0
    srcAs := if has .asInfo then f.srcAs else 0
    dstAs := if has .asInfo then f.dstAs else 0
    srcMask := if has .asInfo then f.srcMask else 0
    dstMask := if has .asInfo then f.dstMask else 0
    asinfPad := if has .asInfo then f.asinfPad else 0
    engineType := if has .flowEngineInfo then f.engineType else 0
    engineId := if has .flowEngineInfo then f.engineId else 0
    flowSequence := if has .flowEngineInfo then f.flowSequence else 0
    sourceId := if has .flowEngineInfo then f.sourceId else 0
    crc32 := if has .crc32 then f.crc32 else 0 }

theorem sized_vars : Sized (htonl f.fields) f.vars.get := fun flag _ => f.vars.length_get flag

theorem record_eq :
    f.record = f.recordBody ++ pieces (shasfield (htonl f.fields)) f.vars.get [.crc32] := by
  rw [record, recordBody, StoreField.addfields_eq, pieces, pieces, pieces, List.filter_append,
    List.flatMap_append, List.append_assoc]

theorem length_recordBody : f.recordBody.length = 8 + bodySize (htonl f.fields) := by
  rw [recordBody, List.length_append, length_hdr, length_pieces f.vars.length_get]

theorem length_record :
    f.record.length = 8 + (bodySize (htonl f.fields) + crcSize (htonl f.fields)) := by
  rw [record, List.length_append, length_hdr, length_pieces f.vars.length_get, size_addfields]

/-- `readBack` is the record that is decoded from the contents of the fields. -/
theorem decoded_readBack : Decoded (htonl f.fields) f.vars.get f.hdr f.readBack where
  hdr_eq := rfl
  part_eq flag hflag := by
    by_cases h : shasfield (htonl f.fields) flag = true
    · rw [if_pos h]
      cases flag with
      | addr4 | addr6 => cases hflag
      | _ => simp only [part, readBack, h, if_true]; rfl
    · rw [if_neg h]
      cases flag with
      | addr4 | addr6 => cases hflag
      | _ => simp only [part, readBack, h]; rfl
  addr_eq g := by
    cases g <;> rfl

/-- `store_flow_deserialise` gives a well-formed record back, whatever stands behind it. -/
theorem storeFlowDeserialise_record {f : StoreFlowComplete} (hf : f.WellFormed)
    (rest : List UInt8) {len : ℕ} (hlen : 8 + f.bodyLen ≤ len) :
    storeFlowDeserialise (f.record ++ rest) len = .ok { flow := f.readBack } := by
  have hfetch : shasfield (htonl f.fields) .crc32 = true →
      fetch (f.hdr ++ (pieces (shasfield (htonl f.fields)) f.vars.get StoreField.rfields ++
        (pieces (shasfield (htonl f.fields)) f.vars.get [.crc32] ++ rest))) f.crcOffset 4 =
        .ok (f.vars.get .crc32) := by
    intro hsum
    have hoffset : f.crcOffset = f.recordBody.length := by
      rw [crcOffset, if_neg hf.known, length_recordBody]
    rw [pieces_cons_of_pos hsum, pieces_nil, List.append_nil, ← List.append_assoc]
    exact fetch_append hoffset (f.vars.length_get .crc32).symm
  obtain ⟨flow, hflow, hread⟩ := storeFlowDeserialise_one f.sized_vars hf.version_eq hlen
    (fun h => absurd h hf.known) hfetch hf.one_family
  obtain rfl := hflow.unique f.decoded_readBack
  have hsum : ¬ (shasfield (htonl f.fields) .crc32 = true ∧
      flowdCrc32 (f.hdr ++ pieces (shasfield (htonl f.fields)) f.vars.get StoreField.rfields) ≠
        htonl f.readBack.crc32) := by
    rintro ⟨hsum, hne⟩
    apply hne
    rw [readBack, if_pos hsum, hf.checksum hsum, recordBody]
  rw [if_neg hsum] at hread
  rw [record_eq, recordBody, List.append_assoc, List.append_assoc, hread]

end StoreFlowComplete

/-! ## Storing a record -/

namespace StoreFlowComplete

/-- Where an address is selected, so is the field of its own family. -/
def OwnFamily (f : StoreFlowComplete) (fields : UInt32) (g : AddrGroup) : Prop :=
  shasfield fields (.addr4 g) = true ∨ shasfield fields (.addr6 g) = true →
    (f.addr g).af = afInet ∧ shasfield fields (.addr4 g) = true ∨
      (f.addr g).af = afInet6 ∧ shasfield fields (.addr6 g) = true

instance (f : StoreFlowComplete) (fields : UInt32) (g : AddrGroup) :
    Decidable (f.OwnFamily fields g) :=
  inferInstanceAs (Decidable (_ → _))

/-- A record can be stored with a set of known fields that has the families of its addresses. -/
structure Storable (f : StoreFlowComplete) (fields : UInt32) : Prop where
  known : ¬ hasUnknown fields
  own_family : ∀ g, f.OwnFamily fields g

/-- The field of the family that an address does not have. -/
def otherFamily (f : StoreFlowComplete) (g : AddrGroup) : StoreField :=
  if (f.addr g).af = afInet then .addr6 g else .addr4 g

/-- The fields that are stored: those of the other families are cleared. -/
def storedFields (f : StoreFlowComplete) (fields : UInt32) : UInt32 :=
  fields &&& ~~~union StoreField.mask (addrGroups.map f.otherFamily)

/-- The record with the header it is stored with. -/
def withHeader (f : StoreFlowComplete) (fields : UInt32) : StoreFlowComplete := { f with
  version := storeVersion
  lenWords := UInt8.ofNat ((bodySize fields + crcSize fields) / 4)
  reserved := 0
  fields := htonl fields }

/-- The record with the checksum of the fields before it. -/
def withChecksum (h : StoreFlowComplete) : StoreFlowComplete := { h with
  crc32 := if shasfield (htonl h.fields) .crc32 = true then htonl (flowdCrc32 h.recordBody)
    else h.crc32 }

/-- The record with the header and the checksum it is stored with. -/
def sealed (f : StoreFlowComplete) (fields : UInt32) : StoreFlowComplete :=
  (f.withHeader fields).withChecksum

/-- The record that `store_flow_serialise_masked` stores. -/
def stored (f : StoreFlowComplete) (mask : UInt32) : StoreFlowComplete :=
  f.sealed (f.storedFields (htonl f.fields &&& mask))

variable {f : StoreFlowComplete} {fields : UInt32}

theorem otherFamily_ne {g g' : AddrGroup} (h : g' ≠ g) (flag : AddrGroup → StoreField)
    (hflag : flag = .addr4 ∨ flag = .addr6) : flag g' ≠ f.otherFamily g := by
  rw [otherFamily]
  rcases hflag with rfl | rfl <;> split <;> simp [h]

/-- What is left of the fields. -/
theorem shasfield_storedFields (flag : StoreField) :
    shasfield (f.storedFields fields) flag = true ↔
      shasfield fields flag = true ∧ ∀ g, flag ≠ f.otherFamily g := by
  rw [storedFields, shasfield, has_andNot_union (fun _ _ => StoreField.mask_and_mask)]
  refine and_congr_right fun _ => ?_
  rw [List.mem_map]
  constructor
  · intro h g hg
    exact h ⟨g, mem_addrGroups g, hg.symm⟩
  · rintro h ⟨g, -, hg⟩
    exact h g hg.symm

theorem shasfield_stored_addr4 (g : AddrGroup) :
    shasfield (f.storedFields fields) (.addr4 g) = true ↔
      shasfield fields (.addr4 g) = true ∧ (f.addr g).af = afInet := by
  rw [shasfield_storedFields]
  refine and_congr_right fun _ => ⟨fun h => ?_, fun h g' => ?_⟩
  · by_contra hne
    apply h g
    rw [otherFamily, if_neg hne]
  · by_cases hg : g = g'
    · subst hg
      rw [otherFamily, if_pos h]
      simp
    · exact otherFamily_ne hg .addr4 (.inl rfl)

theorem shasfield_stored_addr6 (g : AddrGroup) :
    shasfield (f.storedFields fields) (.addr6 g) = true ↔
      shasfield fields (.addr6 g) = true ∧ (f.addr g).af ≠ afInet := by
  rw [shasfield_storedFields]
  refine and_congr_right fun _ => ⟨fun h haf => ?_, fun h g' => ?_⟩
  · apply h g
    rw [otherFamily, if_pos haf]
  · by_cases hg : g = g'
    · subst hg
      rw [otherFamily, if_neg h]
      simp
    · exact otherFamily_ne hg .addr6 (.inr rfl)

/-- Nothing is cleared when no address is selected with the family that it does not have. -/
theorem storedFields_eq_self (h : ∀ g, ¬ shasfield fields (f.otherFamily g) = true) :
    f.storedFields fields = fields := by
  refine andNot_of_disjoint (and_union_eq_zero fun flag hflag => ?_)
  obtain ⟨g, -, rfl⟩ := List.mem_map.mp hflag
  exact has_eq_false.mp (h g)

/-- A record never has both families of an address. -/
theorem not_hasBoth_stored (g : AddrGroup) : ¬ hasBoth (f.storedFields fields) g = true := by
  rw [hasBoth, Bool.and_eq_true, shasfield_stored_addr4, shasfield_stored_addr6]
  rintro ⟨⟨-, h4⟩, -, h6⟩
  exact h6 h4

theorem not_hasUnknown_stored (h : ¬ hasUnknown fields) :
    ¬ hasUnknown (f.storedFields fields) := by
  rw [hasUnknown, not_not] at h ⊢
  rw [storedFields, UInt32.and_assoc, UInt32.and_comm (~~~union _ _), ← UInt32.and_assoc, h,
    UInt32.zero_and]

/-- The checksum is not among the bytes it is taken of. -/
theorem recordBody_crc32 (f : StoreFlowComplete) (crc : UInt32) :
    ({ f with crc32 := crc } : StoreFlowComplete).recordBody = f.recordBody := by
  have hpieces : pieces (shasfield (htonl f.fields))
      ({ f with crc32 := crc } : StoreFlowComplete).vars.get StoreField.rfields =
        pieces (shasfield (htonl f.fields)) f.vars.get StoreField.rfields := by
    refine pieces_congr fun flag hflag _ => ?_
    cases flag with
    | crc32 => exact absurd hflag StoreField.crc32_notMem
    | addr4 g | addr6 g => cases g <;> rfl
    | _ => rfl
  rw [recordBody, recordBody, ← hpieces]
  rfl

/-- The record that is stored is well formed. -/
theorem sealed_wellFormed (hknown : ¬ hasUnknown fields)
    (hone : ∀ g, ¬ hasBoth fields g = true) : (f.sealed fields).WellFormed := by
  have hfields : htonl (f.sealed fields).fields = fields := htonl_htonl fields
  refine ⟨?version, ?known, ?one, ?len, ?checksum⟩
  case version =>
    show storeVerGetMaj storeVersion = storeVerMajor
    decide
  case known => rwa [hfields]
  case one => rwa [hfields]
  case len =>
    have hbody := bodySize_le fields
    have hcrc := crcSize_le fields
    have hdvd := (four_dvd_bodySize fields).add (four_dvd_crcSize fields)
    rw [hfields]
    change (UInt8.ofNat ((bodySize fields + crcSize fields) / 4)).toNat * 4 = _
    rw [UInt8.toNat_ofNat', Nat.mod_eq_of_lt (by omega)]
    exact Nat.div_mul_cancel hdvd
  case checksum =>
    rw [hfields]
    intro hsum
    have hcrc : (f.sealed fields).crc32 = htonl (flowdCrc32 (f.withHeader fields).recordBody) :=
      if_pos (by rwa [← hfields] at hsum)
    rw [hcrc, htonl_htonl, sealed, withChecksum]
    exact congrArg flowdCrc32 (recordBody_crc32 (f.withHeader fields) _).symm

/-! ## The conversion of the addresses -/

/-- The local variables for an address hold it as far as its fields are selected. -/
def Assigned (f : StoreFlowComplete) (fields : UInt32) (vars : FieldVars) (g : AddrGroup) : Prop :=
  (shasfield fields (.addr4 g) = true → (f.addr g).af = afInet → vars.addr4 g = (f.addr g).v4) ∧
    (shasfield fields (.addr6 g) = true → (f.addr g).af = afInet6 →
      vars.addr6 g = (f.addr g).addr8)

theorem or_mask {flag : StoreField} (h : shasfield fields flag = true) :
    fields ||| flag.mask = fields := by
  obtain ⟨k, hk⟩ := flag.exists_mask_eq
  exact or_eq_self_of_has hk h

/-- One `switch` clears the field of the other family. -/
theorem convertAddr_own {s : UInt32 × FieldVars} {g : AddrGroup} (hflow : s.2.flow = f)
    (hown : f.OwnFamily s.1 g) :
    ∃ vars, convertAddr s g = .ok (s.1 &&& ~~~(f.otherFamily g).mask, vars) ∧ vars.flow = f ∧
      f.Assigned s.1 vars g ∧
      ∀ g', g' ≠ g → vars.addr4 g' = s.2.addr4 g' ∧ vars.addr6 g' = s.2.addr6 g' := by
  obtain ⟨m, vars⟩ := s
  simp only at hflow hown ⊢
  subst hflow
  by_cases hsel : shasfield m (.addr4 g) = true ∨ shasfield m (.addr6 g) = true
  · rcases hown hsel with ⟨haf, h4⟩ | ⟨haf, h6⟩
    · refine ⟨{ vars with addr4 := Function.update vars.addr4 g (vars.flow.addr g).v4 }, ?_, rfl,
        ⟨fun _ _ => Function.update_self .., fun _ h6 => ?_⟩, fun g' hg' => ⟨?_, rfl⟩⟩
      · rw [convertAddr, if_pos haf, if_neg (by rw [h4]; decide), or_mask h4, otherFamily,
          if_pos haf]
      · exact absurd (haf.symm.trans h6) (by decide)
      · exact Function.update_of_ne hg' ..
    · have hne : (vars.flow.addr g).af ≠ afInet := by
        rw [haf]
        decide
      refine ⟨{ vars with addr6 := Function.update vars.addr6 g (vars.flow.addr g).addr8 }, ?_,
        rfl, ⟨fun _ h4 => absurd h4 hne, fun _ _ => Function.update_self ..⟩,
        fun g' hg' => ⟨rfl, ?_⟩⟩
      · rw [convertAddr, if_neg hne, if_pos haf, if_neg (by rw [h6]; decide), or_mask h6,
          otherFamily, if_neg hne]
      · exact Function.update_of_ne hg' ..
  -- without a field of the group nothing is cleared
  · obtain ⟨h4, h6⟩ := not_or.mp hsel
    have hmask : m &&& ~~~(vars.flow.otherFamily g).mask = m := by
      apply andNot_of_disjoint
      rw [otherFamily]
      split
      · exact has_eq_false.mp h6
      · exact has_eq_false.mp h4
    refine ⟨vars, ?_, rfl, ⟨fun h => absurd h h4, fun h => absurd h h6⟩, fun _ _ => ⟨rfl, rfl⟩⟩
    have hboth : m &&& ((StoreField.addr4 g).mask ||| (StoreField.addr6 g).mask) = 0 :=
      and_or_eq_zero (has_eq_false.mp h4) (has_eq_false.mp h6)
    rw [hmask, convertAddr, Bool.not_eq_true] at *
    rw [if_pos h4, if_pos h6, if_pos hboth, ite_self, ite_self]

/-- The fields of another address are not touched. -/
theorem shasfield_clear {g g' : AddrGroup} (h : g' ≠ g) (flag : AddrGroup → StoreField)
    (hflag : flag = .addr4 ∨ flag = .addr6) (m : UInt32) :
    shasfield (m &&& ~~~(f.otherFamily g).mask) (flag g') = shasfield m (flag g') :=
  has_andNot (StoreField.mask_and_mask (otherFamily_ne h flag hflag)) m

/-- The four `switch` statements. -/
theorem foldlM_convertAddr {gs : List AddrGroup} (hgs : gs.Nodup) {s : UInt32 × FieldVars}
    (hflow : s.2.flow = f) (hown : ∀ g ∈ gs, f.OwnFamily s.1 g) :
    ∃ vars, gs.foldlM convertAddr s =
        .ok (s.1 &&& ~~~union StoreField.mask (gs.map f.otherFamily), vars) ∧ vars.flow = f ∧
      (∀ g ∈ gs, f.Assigned s.1 vars g) ∧
      ∀ g ∉ gs, vars.addr4 g = s.2.addr4 g ∧ vars.addr6 g = s.2.addr6 g := by
  induction gs generalizing s with
  | nil =>
    refine ⟨s.2, ?_, hflow, fun g hg => absurd hg List.not_mem_nil, fun _ _ => ⟨rfl, rfl⟩⟩
    have hnone : s.1 &&& ~~~union StoreField.mask ([].map f.otherFamily) = s.1 := by
      simp [union]
    rw [hnone]
    rfl
  | cons g gs ih =>
    obtain ⟨hg, hgs'⟩ := List.nodup_cons.mp hgs
    obtain ⟨vars, hstep, hvars, hassigned, hothers⟩ :=
      convertAddr_own hflow (hown g List.mem_cons_self)
    have hne : ∀ g' ∈ gs, g' ≠ g := by
      rintro g' hg' rfl
      exact hg hg'
    -- clearing a flag of one group leaves the flags of the others alone
    have hown' : ∀ g' ∈ gs, f.OwnFamily (s.1 &&& ~~~(f.otherFamily g).mask) g' := by
      intro g' hg'
      rw [OwnFamily, shasfield_clear (hne g' hg') .addr4 (.inl rfl),
        shasfield_clear (hne g' hg') .addr6 (.inr rfl)]
      exact hown g' (List.mem_cons_of_mem g hg')
    obtain ⟨vars', hrun, hvars', hassigned', hothers'⟩ :=
      ih hgs' (s := (s.1 &&& ~~~(f.otherFamily g).mask, vars)) hvars hown'
    refine ⟨vars', ?_, hvars', fun g' hg' => ?_, fun g' hg' => ?_⟩
    · rw [List.foldlM_cons, hstep, ok_bind, hrun, andNot_andNot]
      rfl
    · rcases List.mem_cons.mp hg' with rfl | hmem
      · obtain ⟨h4, h6⟩ := hothers' g' hg
        rw [Assigned, h4, h6]
        exact hassigned
      · have h := hassigned' g' hmem
        rwa [Assigned, shasfield_clear (hne g' hmem) .addr4 (.inl rfl),
          shasfield_clear (hne g' hmem) .addr6 (.inr rfl)] at h
    · obtain ⟨hg'', hmem⟩ := not_or.mp (List.mem_cons.not.mp hg')
      obtain ⟨h4, h6⟩ := hothers g' hg''
      obtain ⟨h4', h6'⟩ := hothers' g' hmem
      exact ⟨h4'.trans h4, h6'.trans h6⟩

/-! ## `store_flow_serialise` -/

/-- The loop of `WFIELD`. -/
theorem foldl_wfield (vars : FieldVars) {fs : List StoreField} (hcrc : .crc32 ∉ fs)
    (s : List UInt8 × UInt32) :
    fs.foldl (wfield fields vars) s =
      (s.1 ++ pieces (shasfield fields) vars.get fs,
        flowdCrc32Update (pieces (shasfield fields) vars.get fs) s.2) := by
  induction fs generalizing s with
  | nil => rw [List.foldl_nil, pieces_nil, List.append_nil, flowdCrc32Update_nil]
  | cons flag fs ih =>
    obtain ⟨hne, hcrc'⟩ := not_or.mp (List.mem_cons.not.mp hcrc)
    rw [List.foldl_cons, ih hcrc', wfield]
    by_cases hflag : shasfield fields flag = true
    · rw [if_pos hflag, if_pos (Ne.symm hne), pieces_cons_of_pos hflag, List.append_assoc,
        flowdCrc32Update_append]
    · rw [if_neg hflag, pieces_cons_of_neg hflag]

/-- The fields are written from the record once its addresses have been assigned. -/
theorem pieces_assigned {h : StoreFlowComplete} (haddr : h.addr = f.addr) {vars : FieldVars}
    (hassigned : ∀ g, f.Assigned fields vars g) (hf : f.Storable fields) (fs : List StoreField) :
    pieces (shasfield (f.storedFields fields)) ({ vars with flow := h } : FieldVars).get fs =
      pieces (shasfield (f.storedFields fields)) h.vars.get fs := by
  refine pieces_congr fun flag _ hflag => ?_
  cases flag with
  | addr4 g =>
    obtain ⟨h4, haf⟩ := shasfield_stored_addr4 g |>.mp hflag
    show List.ofFn (vars.addr4 g) = List.ofFn (h.addr g).v4
    rw [(hassigned g).1 h4 haf, haddr]
  | addr6 g =>
    obtain ⟨h6, hne⟩ := shasfield_stored_addr6 g |>.mp hflag
    have haf : (f.addr g).af = afInet6 := by
      rcases hf.own_family g (.inr h6) with ⟨h, -⟩ | ⟨h, -⟩
      · exact absurd h hne
      · exact h
    show List.ofFn (vars.addr6 g) = List.ofFn (h.addr g).addr8
    rw [(hassigned g).2 h6 haf, haddr]
  | _ => rfl

/-- The record is written as a whole. -/
theorem writeRecord_eq {f h : StoreFlowComplete} {vars : FieldVars}
    (hfields : htonl h.fields = fields)
    (hheader : h = { f with
      lenWords := UInt8.ofNat ((bodySize fields + crcSize fields) / 4), reserved := 0 })
    (hpieces : ∀ h' : StoreFlowComplete, h'.addr = h.addr → ∀ fs,
      pieces (shasfield fields) ({ vars with flow := h' } : FieldVars).get fs =
        pieces (shasfield fields) h'.vars.get fs) :
    writeRecord fields vars f ((bodySize fields + crcSize fields : ℕ) : ℤ) =
      ({ flow := h.withChecksum }, h.withChecksum.record) := by
  -- the header, the fields, and then the checksum over both
  have hwords : (((bodySize fields + crcSize fields : ℕ) : ℤ) / 4).toNat =
      (bodySize fields + crcSize fields) / 4 := by omega
  have hloop : StoreField.wfields.foldl (wfield fields { vars with flow := h })
      (h.hdr, flowdCrc32Update h.hdr flowdCrc32Start) =
        (h.recordBody, flowdCrc32 h.recordBody) := by
    rw [StoreField.wfields_eq, foldl_wfield _ StoreField.crc32_notMem, hpieces h rfl, recordBody,
      hfields, flowdCrc32_append]
    rfl
  have hchecksum : (if shasfield fields .crc32 = true then
      { h with crc32 := htonl (flowdCrc32 h.recordBody) } else h) = h.withChecksum := by
    rw [withChecksum, hfields]
    split <;> rfl
  have hrecord : h.withChecksum.record = h.recordBody ++
      pieces (shasfield fields) h.withChecksum.vars.get [.crc32] := by
    have hbody : h.withChecksum.recordBody = h.recordBody := recordBody_crc32 h _
    rw [record_eq, hbody, ← hfields]
    rfl
  have haddr : h.withChecksum.addr = h.addr := by
    ext g
    cases g <;> rfl
  have hlast : (wfield fields { vars with flow := h.withChecksum }
      (h.recordBody, flowdCrc32 h.recordBody) .crc32).1 = h.withChecksum.record := by
    rw [hrecord, ← hpieces h.withChecksum haddr, wfield]
    by_cases hsum : shasfield fields .crc32 = true
    · rw [if_pos hsum, pieces_cons_of_pos hsum, pieces_nil, List.append_nil]
    · rw [if_neg hsum, pieces_cons_of_neg hsum, pieces_nil, List.append_nil]
  have hlen : ((bodySize fields + crcSize fields : ℕ) : ℤ) + 8 = h.withChecksum.record.length := by
    have hfields' : htonl h.withChecksum.fields = fields := hfields
    rw [length_record, hfields']
    omega
  rw [writeRecord, hwords, ← hheader]
  simp only [hloop, hchecksum, hlast]
  exact if_neg (not_not.mpr hlen)

/-- A record that can be stored is written as a well-formed record. -/
theorem storeFlowSerialise_storable (stack : FieldVars) (hfields : htonl f.fields = fields)
    (hf : f.Storable fields) {buflen : ℤ}
    (hbuf :
      ((bodySize (f.storedFields fields) + crcSize (f.storedFields fields) : ℕ) : ℤ) ≤ buflen) :
    storeFlowSerialise stack f buflen =
      ({ flow := f.sealed (f.storedFields fields) },
        (f.sealed (f.storedFields fields)).record) := by
  set stored := f.storedFields fields with hstored
  have haddr : ({ f with version := storeVersion } : StoreFlowComplete).addr = f.addr := by
    funext g
    cases g <;> rfl
  have hother : ({ f with version := storeVersion } : StoreFlowComplete).otherFamily =
      f.otherFamily := by
    funext g
    rw [otherFamily, otherFamily, haddr]
  obtain ⟨vars, hrun, -, hassigned, -⟩ := foldlM_convertAddr nodup_addrGroups
    (s := (fields, { stack with flow := { f with version := storeVersion } })) rfl fun g _ => by
      rw [OwnFamily, haddr]
      exact hf.own_family g
  -- the version that is set in front of the `switch` statements does not matter to them
  have hassigned' : ∀ g, f.Assigned fields vars g := by
    intro g
    have h := hassigned g (mem_addrGroups g)
    rwa [Assigned, haddr] at h
  rw [hother, ← storedFields, ← hstored] at hrun
  have hknown : ¬ hasUnknown stored := not_hasUnknown_stored hf.known
  have hlen : storeCalcFlowLen (htonl stored) = ((bodySize stored + crcSize stored : ℕ) : ℤ) := by
    rw [storeCalcFlowLen_eq, htonl_htonl]
    exact if_neg hknown
  have hdvd := (four_dvd_bodySize stored).add (four_dvd_crcSize stored)
  have haddr' : (f.withHeader stored).addr = f.addr := by
    funext g
    cases g <;> rfl
  -- the three checks of the length pass: it is a multiple of 4, fits in the buffer, and is known
  rw [storeFlowSerialise, hfields]
  simp only [hrun, hlen]
  rw [if_neg (by omega), if_neg (by omega), if_neg (by omega)]
  refine writeRecord_eq (h := f.withHeader stored) (htonl_htonl stored) rfl fun h' hh' fs => ?_
  exact pieces_assigned (hh'.trans haddr') hassigned' hf fs

/-- `store_flow_serialise_masked` stores the selected fields and puts `fields` back. -/
theorem storeFlowSerialiseMasked_storable (stack : FieldVars) {mask : UInt32}
    (hf : f.Storable (htonl f.fields &&& mask)) {buflen : ℤ} (hbuf : 176 ≤ buflen) :
    storeFlowSerialiseMasked stack f mask buflen =
      ({ flow := { f.stored mask with fields := f.fields } }, (f.stored mask).record) := by
  set masked : StoreFlowComplete := { f with fields := htonl (htonl f.fields &&& mask) }
    with hmasked
  have haddr : masked.addr = f.addr := by
    ext g
    cases g <;> rfl
  have hstorable : masked.Storable (htonl f.fields &&& mask) := by
    refine ⟨hf.known, fun g => ?_⟩
    rw [OwnFamily, haddr]
    exact hf.own_family g
  have hother : masked.otherFamily = f.otherFamily := by
    ext g
    rw [otherFamily, otherFamily, haddr]
  have hstored : masked.storedFields (htonl f.fields &&& mask) =
      f.storedFields (htonl f.fields &&& mask) := by
    rw [storedFields, storedFields, hother]
  have hbody := bodySize_le (masked.storedFields (htonl f.fields &&& mask))
  have hcrc := crcSize_le (masked.storedFields (htonl f.fields &&& mask))
  have hfit : ((bodySize (masked.storedFields (htonl f.fields &&& mask)) +
      crcSize (masked.storedFields (htonl f.fields &&& mask)) : ℕ) : ℤ) ≤ buflen := by omega
  have hserialise := storeFlowSerialise_storable stack (f := masked) (htonl_htonl _) hstorable hfit
  rw [hstored] at hserialise
  rw [storeFlowSerialiseMasked, ← hmasked, hserialise, htonl_htonl]
  rfl

/-- What is stored with a mask is well formed. -/
theorem stored_wellFormed {mask : UInt32} (hf : f.Storable (htonl f.fields &&& mask)) :
    (f.stored mask).WellFormed :=
  sealed_wellFormed (not_hasUnknown_stored hf.known) not_hasBoth_stored

/-! ## Reading the log -/

/-- `store_get_flow` reads the first record of the log. -/
theorem storeGetFlow_record (chunk : ℕ → ℕ) (stack : List UInt8) (f : StoreFlowComplete)
    {h : StoreFlowComplete} (hh : h.WellFormed) (rest : List UInt8) :
    storeGetFlow chunk stack f (h.record ++ rest) = .ok ({ flow := h.readBack }, rest) := by
  have hbody := bodySize_le (htonl h.fields)
  have hcrc := crcSize_le (htonl h.fields)
  have hlen := hh.len_words
  set body := pieces (shasfield (htonl h.fields)) h.vars.get StoreField.addfields with hbodydef
  have hbodylen : body.length = h.bodyLen := by
    rw [hbodydef, length_pieces h.vars.length_get, size_addfields, hlen]
  have hfile : h.record ++ rest = h.hdr ++ (body ++ rest) := by
    rw [record, List.append_assoc]
  have hbuf : readerBuf stack h (body ++ rest) =
      h.record ++ (stack.drop 8).drop h.bodyLen := by
    rw [readerBuf, List.take_left' hbodylen, record, List.append_assoc]
  have hbig : ¬ h.bodyLen > readerBufSize - 8 := by
    rw [readerBufSize]
    omega
  have hshort : ¬ (body ++ rest).length < h.bodyLen := by
    rw [List.length_append]
    omega
  rw [hfile, storeGetFlow_hdr, if_neg hbig, if_neg hshort, hbuf,
    storeFlowDeserialise_record hh _ (Nat.add_comm _ _).le, List.drop_left' hbodylen]
  rfl

/-- Reading a log of well-formed records gives them back one by one, and then the end of the
file. -/
theorem repeatCalls_records (chunk : ℕ → ℕ → ℕ) (stack : ℕ → List UInt8)
    {hs : List StoreFlowComplete} (hhs : ∀ h ∈ hs, h.WellFormed) (f : StoreFlowComplete) :
    ∃ last, repeatCalls (fun n => storeGetFlow (chunk n) (stack n)) (hs.length + 1) f
        (hs.flatMap record) =
      .ok (hs.map (fun h => (storeErrOk, h.readBack)) ++ [(storeErrEof, last)]) := by
  induction hs generalizing f with
  | nil =>
    refine ⟨f, ?_⟩
    rw [List.flatMap_nil, List.length_nil, repeatCalls, storeGetFlow_short (by decide)]
    rfl
  | cons h hs ih =>
    obtain ⟨last, ih⟩ := ih (fun x hx => hhs x (List.mem_cons_of_mem h hx)) h.readBack
    refine ⟨last, ?_⟩
    rw [List.flatMap_cons, List.length_cons, repeatCalls,
      storeGetFlow_record _ _ _ (hhs h List.mem_cons_self)]
    simp only [ok_bind, if_true, ih]
    rfl

end StoreFlowComplete

/-- Records that can be stored with their masks are serialised, and reading the log they make up
gives each of them back: the selected fields with their values, zero elsewhere, and then the end of
the file. -/
theorem log_readsBack {ps : List (StoreFlowComplete × UInt32)}
    (hps : ∀ p ∈ ps, p.1.Storable (htonl p.1.fields &&& p.2)) (locals : FieldVars) :
    (∀ p ∈ ps, (storeFlowSerialiseMasked locals p.1 p.2 1024).1.ret = storeErrOk) ∧
      ∀ (chunk : ℕ → ℕ → ℕ) (stack : ℕ → List UInt8) (f : StoreFlowComplete), ∃ last,
        repeatCalls (fun n => storeGetFlow (chunk n) (stack n)) (ps.length + 1) f
            (ps.flatMap fun p => (storeFlowSerialiseMasked locals p.1 p.2 1024).2) =
          .ok (ps.map (fun p => (storeErrOk, (p.1.stored p.2).readBack)) ++
            [(storeErrEof, last)]) := by
  -- what is written is the record of what is stored
  have hserialise : ∀ p ∈ ps, storeFlowSerialiseMasked locals p.1 p.2 1024 =
      ({ flow := { p.1.stored p.2 with fields := p.1.fields } }, (p.1.stored p.2).record) :=
    fun p hp => StoreFlowComplete.storeFlowSerialiseMasked_storable locals (hps p hp) (by decide)
  refine ⟨fun p hp => by rw [hserialise p hp], fun chunk stack f => ?_⟩
  have hwell : ∀ h ∈ ps.map (fun p => p.1.stored p.2), h.WellFormed := by
    intro h hh
    obtain ⟨p, hp, rfl⟩ := List.mem_map.mp hh
    exact StoreFlowComplete.stored_wellFormed (hps p hp)
  have hlog : (ps.flatMap fun p => (storeFlowSerialiseMasked locals p.1 p.2 1024).2) =
      (ps.map fun p => p.1.stored p.2).flatMap StoreFlowComplete.record := by
    rw [List.flatMap_map]
    exact List.flatMap_congr fun p hp => by rw [hserialise p hp]
  obtain ⟨last, hread⟩ := StoreFlowComplete.repeatCalls_records chunk stack hwell f
  refine ⟨last, ?_⟩
  rw [hlog, ← List.length_map (fun p : StoreFlowComplete × UInt32 => p.1.stored p.2), hread,
    List.map_map]
  rfl

/-- A record with an address of the first family, selected with both. -/
def taggedFlow : StoreFlowComplete where
  fields := htonl (storeFieldTag ||| storeFieldSrcAddr4 ||| storeFieldSrcAddr6 |||
    storeFieldPackets ||| storeFieldCrc32)
  tag := 7
  srcAddr := Xaddr.copy {} [10, 0, 0, 1] afInet
  flowPackets := 3

theorem taggedFlow_storable (mask : UInt32) (hmask : mask = storeFieldAll ∨ mask = 1) :
    taggedFlow.Storable (htonl taggedFlow.fields &&& mask) := by
  rcases hmask with rfl | rfl
  · exact ⟨by decide, fun g => by cases g <;> decide⟩
  · exact ⟨by decide, fun g => by cases g <;> decide⟩

/-- A log of two records is read back, and then its end. -/
theorem log_readsBack_two :
    ∃ last, repeatCalls (fun _ => storeGetFlow (fun _ => 1) (List.replicate 512 0)) 3 {}
        ([(taggedFlow, storeFieldAll), (taggedFlow, 1)].flatMap fun p =>
          (storeFlowSerialiseMasked taggedFlow.vars p.1 p.2 1024).2) =
      .ok [(storeErrOk, (taggedFlow.stored storeFieldAll).readBack),
        (storeErrOk, (taggedFlow.stored 1).readBack), (storeErrEof, last)] :=
  (@log_readsBack [(taggedFlow, storeFieldAll), (taggedFlow, 1)] (by
    intro p hp
    rcases List.mem_cons.mp hp with rfl | hp
    · exact taggedFlow_storable _ (.inl rfl)
    · rw [List.mem_singleton.mp hp]
      exact taggedFlow_storable _ (.inr rfl)) taggedFlow.vars).2
    (fun _ _ => 1) (fun _ => List.replicate 512 0) {}

end Flowd
