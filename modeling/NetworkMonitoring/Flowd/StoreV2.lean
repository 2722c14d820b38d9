import NetworkMonitoring.Flowd.StoreReadBack

/-!
# flowd — the flow log of version 2

`store-v2.c`: the records of the older log, which have other widths in their header and in some of
the fields, and their conversion. The flags of `store-v2.h` are those of `store.h` with the same
bits and the fields stand in the same order, so `StoreField`, its masks and the lists of fields
serve both versions.

## Main results

* `storeV2FlowDeserialise_accepted`: what `store_v2_flow_deserialise` accepts has known fields
  only, and each address has the family of its field.
* `storeV2FlowConvert_readsBack`: the converted record is written, and what is read back has the
  numbers of the record of version 2.
-/

namespace Flowd

open Bytes InetText OptionalFields ErrorLoops

/-! ## Records -/

/-- `struct store_v2_flow_complete`. -/
structure StoreV2FlowComplete where
  -- hdr
  fields : UInt32 := 0
  tag : UInt32 := 0
  recvSec : UInt32 := 0
  -- pft
  tcpFlags : UInt8 := 0
  protocol : UInt8 := 0
  tos : UInt8 := 0
  pftPad : UInt8 := 0
  agentAddr : Xaddr := {}
  srcAddr : Xaddr := {}
  dstAddr : Xaddr := {}
  gatewayAddr : Xaddr := {}
  -- ports
  srcPort : UInt16 := 0
  dstPort : UInt16 := 0
  flowPackets : UInt64 := 0
  flowOctets : UInt64 := 0
  -- ifndx
  ifIndexIn : UInt16 := 0
  ifIndexOut : UInt16 := 0
  -- ainfo
  sysUptimeMs : UInt32 := 0
  timeSec : UInt32 := 0
  timeNanosec : UInt32 := 0
  netflowVersion : UInt16 := 0
  ainfoPad : UInt16 := 0
  -- ftimes
  flowStart : UInt32 := 0
  flowFinish : UInt32 := 0
  -- asinf
  srcAs : UInt16 := 0
  dstAs : UInt16 := 0
  srcMask : UInt8 := 0
  dstMask : UInt8 := 0
  asinfPad : UInt16 := 0
  -- finf
  engineType : UInt8 := 0
  engineId : UInt8 := 0
  finfPad : UInt16 := 0
  flowSequence : UInt32 := 0
  crc32 : UInt32 := 0
  deriving DecidableEq

/-- `sizeof` of a field of version 2. -/
def StoreField.v2Size : StoreField → ℕ
  | tag | recvTime | protoFlagsTos | addr4 _ | srcdstPort | ifIndices | crc32 => 4
  | packets | octets | flowTimes | asInfo | flowEngineInfo => 8
  | addr6 _ | agentInfo => 16

namespace StoreV2FlowComplete

variable (f : StoreV2FlowComplete)

/-- An address of the record. -/
def addr : AddrGroup → Xaddr
  | .agent => f.agentAddr
  | .src => f.srcAddr
  | .dst => f.dstAddr
  | .gateway => f.gatewayAddr

/-- Assign an address. -/
def setAddr (a : Xaddr) : AddrGroup → StoreV2FlowComplete
  | .agent => { f with agentAddr := a }
  | .src => { f with srcAddr := a }
  | .dst => { f with dstAddr := a }
  | .gateway => { f with gatewayAddr := a }

/-- Assign the part of the record that holds a field. -/
def readPart : StoreField → StateM (List UInt8) StoreV2FlowComplete
  | .tag => return { f with tag := ← read32 }
  | .recvTime => return { f with recvSec := ← read32 }
  | .protoFlagsTos => return { f with
      tcpFlags := ← read8, protocol := ← read8, tos := ← read8, pftPad := ← read8 }
  | .addr4 _ | .addr6 _ => return f
  | .srcdstPort => return { f with srcPort := ← read16, dstPort := ← read16 }
  | .packets => return { f with flowPackets := ← read64 }
  | .octets => return { f with flowOctets := ← read64 }
  | .ifIndices => return { f with ifIndexIn := ← read16, ifIndexOut := ← read16 }
  | .agentInfo => return { f with
      sysUptimeMs := ← read32, timeSec := ← read32, timeNanosec := ← read32
      netflowVersion := ← read16, ainfoPad := ← read16 }
  | .flowTimes => return { f with flowStart := ← read32, flowFinish := ← read32 }
  | .asInfo => return { f with
      srcAs := ← read16, dstAs := ← read16, srcMask := ← read8, dstMask := ← read8
      asinfPad := ← read16 }
  | .flowEngineInfo => return { f with
      engineType := ← read8, engineId := ← read8, finfPad := ← read16, flowSequence := ← read32 }
  | .crc32 => return { f with crc32 := ← read32 }

/-- One address is set, and the others stay. -/
@[simp]
theorem addr_setAddr (a : Xaddr) (g g' : AddrGroup) :
    (f.setAddr a g).addr g' = if g' = g then a else f.addr g' := by
  cases g <;> cases g' <;> rfl

/-- Setting an address keeps the bits of the fields. -/
@[simp]
theorem fields_setAddr (a : Xaddr) (g : AddrGroup) : (f.setAddr a g).fields = f.fields := by
  cases g <;> rfl

end StoreV2FlowComplete

/-! ## Reading a buffer -/

/-- `store_v2_calc_flow_len` on the word `hdr->fields`. -/
def storeV2CalcFlowLen (hdrFields : UInt32) : ℤ :=
  let s := StoreField.addfields.foldl
    (fun s flag => if shasfield s.2 flag = true then (s.1 + flag.v2Size, s.2 &&& ~~~flag.mask)
      else s)
    (0, htonl hdrFields)
  -- Make sure we have captured everything
  if s.2 ≠ 0 then -1 else (s.1 : ℕ)

/-- The variables that `RFIELD` copies to: the record and the local variables for the addresses. -/
structure StoreV2FieldVars where
  flow : StoreV2FlowComplete
  addr4 : AddrGroup → InAddr
  addr6 : AddrGroup → Fin 16 → UInt8

/-- Copy bytes into the variable of a field. -/
def StoreV2FieldVars.put (vars : StoreV2FieldVars) (flag : StoreField) (bs : List UInt8) :
    StoreV2FieldVars :=
  match flag with
  | .addr4 g => { vars with addr4 := Function.update vars.addr4 g ((readOctets 4).run bs).1 }
  | .addr6 g => { vars with addr6 := Function.update vars.addr6 g ((readOctets 16).run bs).1 }
  | flag => { vars with flow := ((vars.flow.readPart flag).run bs).1 }

/-- The local variables of `store_v2_flow_deserialise` that `RFIELD` changes. -/
structure StoreV2ReadState where
  offset : ℕ
  crc : UInt32
  vars : StoreV2FieldVars

/-- `RFIELD`. -/
def storeV2Rfield (buf : List UInt8) (fields : UInt32) (s : StoreV2ReadState) (flag : StoreField) :
    Except Fault StoreV2ReadState :=
  if shasfield fields flag = true then do
    let dest ← fetch buf s.offset flag.v2Size
    return {
      offset := s.offset + flag.v2Size
      crc := if shasfield fields .crc32 = true ∧ flag ≠ .crc32 then flowdCrc32Update dest s.crc
        else s.crc
      vars := s.vars.put flag dest }
  else return s

/-- What a function of `store-v2.c` leaves behind: its result, the text in `ebuf` and the record. -/
structure StoreV2Result where
  ret : ℤ := storeErrOk
  ebuf : String := ""
  flow : StoreV2FlowComplete
  deriving DecidableEq

/-- `S_CPYADDR` for the fields of one address that are set. -/
def storeV2CpyAddr (fields : UInt32) (vars : StoreV2FieldVars) (flow : StoreV2FlowComplete)
    (g : AddrGroup) : StoreV2FlowComplete :=
  let flow := if shasfield fields (.addr4 g) = true then
    flow.setAddr ((flow.addr g).copy (List.ofFn (vars.addr4 g)) afInet) g else flow
  if shasfield fields (.addr6 g) = true then
    flow.setAddr ((flow.addr g).copy (List.ofFn (vars.addr6 g)) afInet6) g else flow

/-- What `store_v2_flow_deserialise` does once all fields are read. -/
def storeV2ConvertAddrs (fields : UInt32) (s : StoreV2ReadState) : StoreV2Result :=
  match addrGroups.find? (hasBoth fields) with
  | some g =>
    { ret := -1, ebuf := "Flow has both v4/v6 " ++ g.name ++ " addrs", flow := s.vars.flow }
  | none =>
    let flow := addrGroups.foldl (storeV2CpyAddr fields s.vars) s.vars.flow
    if shasfield fields .crc32 = true ∧ s.crc ≠ htonl flow.crc32 then
      { ret := storeErrCrcMismatch, ebuf := "Flow checksum mismatch", flow := flow }
    else { flow := flow }

/-- `store_v2_flow_deserialise`; `len` is not negative. The header is copied before the length is
looked at. -/
def storeV2FlowDeserialise (buf : List UInt8) (len : ℕ) : Except Fault StoreV2Result := do
  let hdr ← fetch buf 0 4
  let f : StoreV2FlowComplete := { fields := (read32.run hdr).1 }
  if len < 4 then
    return { ret := storeErrBufferSize
             ebuf := "store_v2_flow_deserialise: supplied length is too small", flow := f }
  let r := storeV2CalcFlowLen f.fields
  if r = -1 then
    return { ret := storeErrFlowInvalid, ebuf := "unsupported flow fields specified", flow := f }
  if ((len - 4 : ℕ) : ℤ) < r then
    return { ret := storeErrBufferSize
             ebuf := "store_v2_flow_deserialise: calulated flow length is less than supplied len"
             flow := f }
  let s ← StoreField.addfields.foldlM (storeV2Rfield buf (htonl f.fields))
    { offset := 4, crc := flowdCrc32Update (le32 f.fields) flowdCrc32Start
      vars := { flow := f, addr4 := fun _ _ => 0, addr6 := fun _ _ => 0 } }
  return storeV2ConvertAddrs (htonl f.fields) s

/-! ## The conversion -/

/-- `htonl(ntohs(v))`. -/
def widen16 (v : UInt16) : UInt32 := htonl (htons v).toUInt32

/-- `store_v2_flow_convert`: its result and the record at `f`. -/
def storeV2FlowConvert (fv2 : StoreV2FlowComplete) : ℤ × StoreFlowComplete :=
  let f : StoreFlowComplete := { version := storeVersion, fields := fv2.fields }
  let len := storeCalcFlowLen f.fields
  if len = -1 then (-1, f)
  else (0, { f with
    -- the length is that of a record of `STORE_VERSION`
    lenWords := UInt8.ofNat (len / 4).toNat
    tag := fv2.tag
    recvSec := fv2.recvSec
    tcpFlags := fv2.tcpFlags
    protocol := fv2.protocol
    tos := fv2.tos
    pftPad := fv2.pftPad
    agentAddr := fv2.agentAddr
    srcAddr := fv2.srcAddr
    dstAddr := fv2.dstAddr
    gatewayAddr := fv2.gatewayAddr
    srcPort := fv2.srcPort
    dstPort := fv2.dstPort
    flowPackets := fv2.flowPackets
    flowOctets := fv2.flowOctets
    -- these fields are wider than before: `htonl(ntohs(..))`
    ifIndexIn := widen16 fv2.ifIndexIn
    ifIndexOut := widen16 fv2.ifIndexOut
    sysUptimeMs := fv2.sysUptimeMs
    timeSec := fv2.timeSec
    timeNanosec := fv2.timeNanosec
    netflowVersion := fv2.netflowVersion
    ainfoPad := fv2.ainfoPad
    flowStart := fv2.flowStart
    flowFinish := fv2.flowFinish
    srcAs := widen16 fv2.srcAs
    dstAs := widen16 fv2.dstAs
    srcMask := fv2.srcMask
    dstMask := fv2.dstMask
    asinfPad := fv2.asinfPad
    engineType := htons fv2.engineType.toUInt16
    engineId := htons fv2.engineId.toUInt16
    flowSequence := fv2.flowSequence
    crc32 := fv2.crc32 })

/-! ## The numbers in a record -/

/-- The numbers that a field of a record stands for; those of an address are its family and the
bytes of that family. -/
def StoreFlowComplete.values (f : StoreFlowComplete) : StoreField → List ℕ
  | .tag => [(htonl f.tag).toNat]
  | .recvTime => [(htonl f.recvSec).toNat, (htonl f.recvUsec).toNat]
  | .protoFlagsTos => [f.tcpFlags.toNat, f.protocol.toNat, f.tos.toNat]
  | .addr4 g => (f.addr g).af.toNat :: List.ofFn fun i => ((f.addr g).v4 i).toNat
  | .addr6 g => (f.addr g).af.toNat :: List.ofFn fun i => ((f.addr g).addr8 i).toNat
  | .srcdstPort => [(htons f.srcPort).toNat, (htons f.dstPort).toNat]
  | .packets => [(htonll f.flowPackets).toNat]
  | .octets => [(htonll f.flowOctets).toNat]
  | .ifIndices => [(htonl f.ifIndexIn).toNat, (htonl f.ifIndexOut).toNat]
  | .agentInfo => [(htonl f.sysUptimeMs).toNat, (htonl f.timeSec).toNat,
      (htonl f.timeNanosec).toNat, (htons f.netflowVersion).toNat]
  | .flowTimes => [(htonl f.flowStart).toNat, (htonl f.flowFinish).toNat]
  | .asInfo => [(htonl f.srcAs).toNat, (htonl f.dstAs).toNat, f.srcMask.toNat, f.dstMask.toNat]
  | .flowEngineInfo => [(htons f.engineType).toNat, (htons f.engineId).toNat,
      (htonl f.flowSequence).toNat, (htonl f.sourceId).toNat]
  | .crc32 => [(htonl f.crc32).toNat]

/-- The same for a record of version 2, which has neither microseconds nor a source. -/
def StoreV2FlowComplete.values (f : StoreV2FlowComplete) : StoreField → List ℕ
  | .tag => [(htonl f.tag).toNat]
  | .recvTime => [(htonl f.recvSec).toNat, 0]
  | .protoFlagsTos => [f.tcpFlags.toNat, f.protocol.toNat, f.tos.toNat]
  | .addr4 g => (f.addr g).af.toNat :: List.ofFn fun i => ((f.addr g).v4 i).toNat
  | .addr6 g => (f.addr g).af.toNat :: List.ofFn fun i => ((f.addr g).addr8 i).toNat
  | .srcdstPort => [(htons f.srcPort).toNat, (htons f.dstPort).toNat]
  | .packets => [(htonll f.flowPackets).toNat]
  | .octets => [(htonll f.flowOctets).toNat]
  | .ifIndices => [(htons f.ifIndexIn).toNat, (htons f.ifIndexOut).toNat]
  | .agentInfo => [(htonl f.sysUptimeMs).toNat, (htonl f.timeSec).toNat,
      (htonl f.timeNanosec).toNat, (htons f.netflowVersion).toNat]
  | .flowTimes => [(htonl f.flowStart).toNat, (htonl f.flowFinish).toNat]
  | .asInfo => [(htons f.srcAs).toNat, (htons f.dstAs).toNat, f.srcMask.toNat, f.dstMask.toNat]
  | .flowEngineInfo => [f.engineType.toNat, f.engineId.toNat, (htonl f.flowSequence).toNat, 0]
  | .crc32 => [(htonl f.crc32).toNat]

/-! ## What is accepted -/

/-- Copying a field leaves the mask and the addresses of the record as they are. -/
theorem StoreV2FieldVars.flow_put (vars : StoreV2FieldVars) (flag : StoreField)
    (bs : List UInt8) :
    (vars.put flag bs).flow.fields = vars.flow.fields ∧
      (vars.put flag bs).flow.addr = vars.flow.addr := by
  cases flag <;> exact ⟨rfl, rfl⟩

/-- Reading a field keeps the bits and the addresses. -/
theorem storeV2Rfield_flow {buf : List UInt8} {fields : UInt32} {s s' : StoreV2ReadState}
    {flag : StoreField} (h : storeV2Rfield buf fields s flag = .ok s') :
    s'.vars.flow.fields = s.vars.flow.fields ∧ s'.vars.flow.addr = s.vars.flow.addr := by
  rw [storeV2Rfield] at h
  by_cases hflag : shasfield fields flag = true
  · rw [if_pos hflag] at h
    obtain ⟨dest, -, hdest⟩ := bind_eq_ok.mp h
    obtain rfl := Except.ok.inj hdest
    exact s.vars.flow_put flag dest
  · rw [if_neg hflag] at h
    obtain rfl := Except.ok.inj h
    exact ⟨rfl, rfl⟩

/-- Reading all fields keeps the bits and the addresses. -/
theorem foldlM_storeV2Rfield_flow {buf : List UInt8} {fields : UInt32} {fs : List StoreField}
    {s s' : StoreV2ReadState} (h : fs.foldlM (storeV2Rfield buf fields) s = .ok s') :
    s'.vars.flow.fields = s.vars.flow.fields ∧ s'.vars.flow.addr = s.vars.flow.addr := by
  refine foldlM_ok_rel (R := fun s s' : StoreV2ReadState =>
    s'.vars.flow.fields = s.vars.flow.fields ∧ s'.vars.flow.addr = s.vars.flow.addr)
    (fun _ => ⟨rfl, rfl⟩) ?_ (fun _ _ _ hstep => storeV2Rfield_flow hstep) h
  rintro s₁ s₂ s₃ ⟨hfields, haddr⟩ ⟨hfields', haddr'⟩
  exact ⟨hfields'.trans hfields, haddr'.trans haddr⟩

/-- `S_CPYADDR` leaves the other addresses as they are. -/
theorem storeV2CpyAddr_other (fields : UInt32) (vars : StoreV2FieldVars)
    (flow : StoreV2FlowComplete) {g g' : AddrGroup} (hg : g' ≠ g) :
    (storeV2CpyAddr fields vars flow g).addr g' = flow.addr g' := by
  rw [storeV2CpyAddr]
  split_ifs <;> simp [hg]

/-- It sets the family of an address to that of its field. -/
theorem storeV2CpyAddr_self {fields : UInt32} (vars : StoreV2FieldVars)
    (flow : StoreV2FlowComplete) {g : AddrGroup} (hone : ¬ hasBoth fields g = true) :
    (storeV2CpyAddr fields vars flow g).addr g =
      if shasfield fields (.addr4 g) = true then
        (flow.addr g).copy (List.ofFn (vars.addr4 g)) afInet
      else if shasfield fields (.addr6 g) = true then
        (flow.addr g).copy (List.ofFn (vars.addr6 g)) afInet6
      else flow.addr g := by
  rw [hasBoth, Bool.and_eq_true] at hone
  rw [storeV2CpyAddr]
  by_cases h4 : shasfield fields (.addr4 g) = true
  · have h6 : ¬ shasfield fields (.addr6 g) = true := fun h6 => hone ⟨h4, h6⟩
    simp only [if_pos h4, if_neg h6, StoreV2FlowComplete.addr_setAddr, if_true]
  · by_cases h6 : shasfield fields (.addr6 g) = true
    · simp only [if_neg h4, if_pos h6, StoreV2FlowComplete.addr_setAddr, if_true]
    · simp only [if_neg h4, if_neg h6]

/-- Each address is converted once. -/
theorem foldl_storeV2CpyAddr {fields : UInt32} (vars : StoreV2FieldVars)
    (hone : ∀ g, ¬ hasBoth fields g = true) {gs : List AddrGroup} (hgs : gs.Nodup)
    (flow : StoreV2FlowComplete) (g : AddrGroup) :
    (gs.foldl (storeV2CpyAddr fields vars) flow).addr g =
      if g ∈ gs then (storeV2CpyAddr fields vars flow g).addr g else flow.addr g := by
  induction gs generalizing flow with
  | nil => exact (if_neg List.not_mem_nil).symm
  | cons g₁ gs ih =>
    obtain ⟨hg₁, hgs'⟩ := List.nodup_cons.mp hgs
    rw [List.foldl_cons, ih hgs']
    by_cases hg : g = g₁
    · subst hg
      rw [if_neg hg₁, if_pos List.mem_cons_self]
    · have hcons : g ∈ g₁ :: gs ↔ g ∈ gs := by simp [hg]
      rw [storeV2CpyAddr_self vars _ (hone g), storeV2CpyAddr_self vars _ (hone g),
        storeV2CpyAddr_other fields vars flow hg]
      simp only [hcons]

/-- Copying the addresses keeps the bits of the fields. -/
theorem fields_foldl_storeV2CpyAddr (fields : UInt32) (vars : StoreV2FieldVars)
    (gs : List AddrGroup) (flow : StoreV2FlowComplete) :
    (gs.foldl (storeV2CpyAddr fields vars) flow).fields = flow.fields := by
  induction gs generalizing flow with
  | nil => rfl
  | cons g gs ih =>
    rw [List.foldl_cons, ih, storeV2CpyAddr]
    split_ifs <;> simp

/-- What `store_v2_flow_deserialise` accepts: known fields, one family of each address, and every
address with the family of its field. -/
structure StoreV2FlowComplete.Accepted (f : StoreV2FlowComplete) : Prop where
  known : ¬ hasUnknown (htonl f.fields)
  one_family : ∀ g, ¬ hasBoth (htonl f.fields) g = true
  addr_eq : ∀ g, ∃ (v4 : InAddr) (v6 : Fin 16 → UInt8), f.addr g =
    if shasfield (htonl f.fields) (.addr4 g) = true then Xaddr.copy {} (List.ofFn v4) afInet
    else if shasfield (htonl f.fields) (.addr6 g) = true then
      Xaddr.copy {} (List.ofFn v6) afInet6
    else {}

/-- `store_v2_calc_flow_len` fails on unknown fields. -/
theorem storeV2CalcFlowLen_eq (hdrFields : UInt32) :
    storeV2CalcFlowLen hdrFields = if htonl hdrFields &&& ~~~storeFieldAll ≠ 0 then -1
      else
        ((size (shasfield (htonl hdrFields)) StoreField.v2Size StoreField.addfields : ℕ) : ℤ) := by
  rw [storeV2CalcFlowLen]
  simp only [shasfield]
  rw [foldl_size StoreField.pairwise_addfields, StoreField.union_addfields, Nat.zero_add]

/-- What is left when the fields have been read and the record is accepted. -/
theorem storeV2ConvertAddrs_ok {fields : UInt32} {s : StoreV2ReadState}
    (h : (storeV2ConvertAddrs fields s).ret = storeErrOk) :
    (∀ g, ¬ hasBoth fields g = true) ∧ (storeV2ConvertAddrs fields s).flow =
      addrGroups.foldl (storeV2CpyAddr fields s.vars) s.vars.flow := by
  rw [storeV2ConvertAddrs] at h ⊢
  cases hfind : addrGroups.find? (hasBoth fields) with
  | some g =>
    rw [hfind] at h
    have hne : (-1 : ℤ) ≠ storeErrOk := by decide
    exact absurd h hne
  | none =>
    refine ⟨fun g => List.find?_eq_none.mp hfind g (mem_addrGroups g), ?_⟩
    simp only
    split <;> rfl

/-- A record is accepted after all checks of the header and of the addresses. -/
theorem storeV2FlowDeserialise_accepted {buf : List UInt8} {len : ℕ} {r : StoreV2Result}
    (h : storeV2FlowDeserialise buf len = .ok r) (hret : r.ret = storeErrOk) : r.flow.Accepted := by
  obtain ⟨hdr, -, h⟩ := bind_eq_ok.mp h
  set f : StoreV2FlowComplete := { fields := (read32.run hdr).1 } with hf
  have hinvalid : storeErrFlowInvalid ≠ storeErrOk := by decide
  have hbuffer : storeErrBufferSize ≠ storeErrOk := by decide
  -- the three early returns have other results
  by_cases hlen : len < 4
  · rw [if_pos hlen] at h
    obtain rfl := Except.ok.inj h
    exact absurd hret hbuffer
  rw [if_neg hlen] at h
  by_cases hcalc : storeV2CalcFlowLen f.fields = -1
  · rw [if_pos hcalc] at h
    obtain rfl := Except.ok.inj h
    exact absurd hret hinvalid
  rw [if_neg hcalc] at h
  by_cases hshort : ((len - 4 : ℕ) : ℤ) < storeV2CalcFlowLen f.fields
  · rw [if_pos hshort] at h
    obtain rfl := Except.ok.inj h
    exact absurd hret hbuffer
  rw [if_neg hshort] at h
  obtain ⟨s, hs, h⟩ := bind_eq_ok.mp h
  obtain rfl := Except.ok.inj h
  obtain ⟨hfields, haddr⟩ := foldlM_storeV2Rfield_flow hs
  obtain ⟨hone, hflow⟩ := storeV2ConvertAddrs_ok hret
  have hmask : (storeV2ConvertAddrs (htonl f.fields) s).flow.fields = f.fields := by
    rw [hflow, fields_foldl_storeV2CpyAddr, hfields]
  refine ⟨?known, ?one, fun g => ⟨s.vars.addr4 g, s.vars.addr6 g, ?addr⟩⟩
  case known =>
    rw [storeV2CalcFlowLen_eq] at hcalc
    rw [hmask]
    exact fun hunknown => hcalc (if_pos hunknown)
  case one => rwa [hmask]
  case addr =>
    have hzero : s.vars.flow.addr g = {} := by
      rw [haddr]
      cases g <;> rfl
    rw [hmask, hflow, foldl_storeV2CpyAddr _ hone nodup_addrGroups, if_pos (mem_addrGroups g),
      storeV2CpyAddr_self _ _ (hone g), hzero]

/-! ## The converted record -/

/-- A 16-bit number that is widened keeps its value. -/
theorem htonl_widen16 (v : UInt16) : (htonl (widen16 v)).toNat = (htons v).toNat := by
  rw [widen16, htonl_htonl, UInt16.toNat_toUInt32]

/-- A byte in a 16-bit number keeps its value. -/
theorem htons_htons_toUInt16 (v : UInt8) : (htons (htons v.toUInt16)).toNat = v.toNat := by
  rw [htons_htons, UInt8.toNat_toUInt16]

/-- Copying the bytes of an address over them changes nothing. -/
theorem Xaddr.copy_v4_copy (v4 : InAddr) :
    Xaddr.copy {} (List.ofFn (Xaddr.copy {} (List.ofFn v4) afInet).v4) afInet =
      Xaddr.copy {} (List.ofFn v4) afInet := by
  have hv4 : (Xaddr.copy {} (List.ofFn v4) afInet).v4 = v4 := by
    funext i
    show (List.ofFn v4).getD i 0 = v4 i
    rw [List.getD_eq_getElem?_getD, List.getElem?_ofFn, dif_pos i.isLt, Option.getD_some]
  rw [hv4]

/-- An address of IPv6 that is copied twice. -/
theorem Xaddr.copy_addr8_copy (v6 : Fin 16 → UInt8) :
    Xaddr.copy {} (List.ofFn (Xaddr.copy {} (List.ofFn v6) afInet6).addr8) afInet6 =
      Xaddr.copy {} (List.ofFn v6) afInet6 := by
  have hv6 : (Xaddr.copy {} (List.ofFn v6) afInet6).addr8 = v6 := by
    funext i
    show (List.ofFn v6).getD i 0 = v6 i
    rw [List.getD_eq_getElem?_getD, List.getElem?_ofFn, dif_pos i.isLt, Option.getD_some]
  rw [hv6]

namespace StoreV2FlowComplete

variable {fv2 : StoreV2FlowComplete}

/-- The record that `store_v2_flow_convert` leaves behind. -/
abbrev converted (fv2 : StoreV2FlowComplete) : StoreFlowComplete := (storeV2FlowConvert fv2).2

/-- The length of the converted record. -/
theorem Accepted.storeCalcFlowLen_eq (h : fv2.Accepted) : storeCalcFlowLen fv2.fields =
    ((bodySize (htonl fv2.fields) + crcSize (htonl fv2.fields) : ℕ) : ℤ) :=
  (Flowd.storeCalcFlowLen_eq fv2.fields).trans (if_neg h.known)

/-- The fields of an accepted record are known ones. -/
theorem Accepted.storeCalcFlowLen_ne (h : fv2.Accepted) : storeCalcFlowLen fv2.fields ≠ -1 := by
  rw [h.storeCalcFlowLen_eq]
  omega

/-- The conversion of an accepted record succeeds. -/
theorem Accepted.convert_ret (h : fv2.Accepted) : (storeV2FlowConvert fv2).1 = 0 := by
  rw [storeV2FlowConvert]
  simp only [if_neg h.storeCalcFlowLen_ne]

/-- The conversion keeps the bits of the fields. -/
@[simp]
theorem fields_converted : fv2.converted.fields = fv2.fields := by
  rw [converted, storeV2FlowConvert]
  simp only
  split <;> rfl

/-- The conversion keeps the addresses. -/
theorem Accepted.addr_converted (h : fv2.Accepted) : fv2.converted.addr = fv2.addr := by
  funext g
  rw [converted, storeV2FlowConvert]
  simp only [if_neg h.storeCalcFlowLen_ne]
  cases g <;> rfl

/-- A converted address has the family of its field. -/
theorem Accepted.own_family (h : fv2.Accepted) (g : AddrGroup) :
    fv2.converted.OwnFamily (htonl fv2.fields) g := by
  obtain ⟨v4, v6, haddr⟩ := h.addr_eq g
  rw [StoreFlowComplete.OwnFamily, h.addr_converted, haddr]
  rintro (h4 | h6)
  · rw [if_pos h4]
    exact .inl ⟨rfl, h4⟩
  · have h4 : ¬ shasfield (htonl fv2.fields) (.addr4 g) = true := by
      intro h4
      apply h.one_family g
      rw [hasBoth, h4, h6, Bool.and_self]
    rw [if_neg h4, if_pos h6]
    exact .inr ⟨rfl, h6⟩

/-- The converted record can be stored. -/
theorem Accepted.storable (h : fv2.Accepted) : fv2.converted.Storable (htonl fv2.fields) :=
  ⟨h.known, h.own_family⟩

/-- All its fields are stored. -/
theorem Accepted.storedFields_eq (h : fv2.Accepted) :
    fv2.converted.storedFields (htonl fv2.fields) = htonl fv2.fields := by
  refine StoreFlowComplete.storedFields_eq_self fun g hother => ?_
  have hboth := h.one_family g
  rw [hasBoth, Bool.and_eq_true] at hboth
  rw [StoreFlowComplete.otherFamily] at hother
  by_cases haf : (fv2.converted.addr g).af = afInet
  · rw [if_pos haf] at hother
    rcases h.own_family g (.inr hother) with ⟨-, h4⟩ | ⟨haf6, -⟩
    · exact hboth ⟨h4, hother⟩
    · exact absurd (haf.symm.trans haf6) (by decide)
  · rw [if_neg haf] at hother
    rcases h.own_family g (.inl hother) with ⟨haf4, -⟩ | ⟨-, h6⟩
    · exact haf haf4
    · exact hboth ⟨hother, h6⟩

/-- The converted record with the header and the checksum it is stored with. -/
def migrated (fv2 : StoreV2FlowComplete) : StoreFlowComplete :=
  fv2.converted.sealed (htonl fv2.fields)

/-- A record that has been migrated has the same fields. -/
@[simp]
theorem fields_migrated : fv2.migrated.fields = fv2.fields := htonl_htonl fv2.fields

/-- A record that has been migrated is well formed. -/
theorem Accepted.migrated_wellFormed (h : fv2.Accepted) : fv2.migrated.WellFormed :=
  StoreFlowComplete.sealed_wellFormed h.known h.one_family

/-- The converted record is written. -/
theorem Accepted.storeFlowSerialise_converted (h : fv2.Accepted) (stack : FieldVars) {buflen : ℤ}
    (hbuf : storeCalcFlowLen fv2.fields ≤ buflen) :
    storeFlowSerialise stack fv2.converted buflen =
      ({ flow := fv2.migrated }, fv2.migrated.record) := by
  rw [h.storeCalcFlowLen_eq] at hbuf
  have hfit : ((bodySize (fv2.converted.storedFields (htonl fv2.fields)) +
      crcSize (fv2.converted.storedFields (htonl fv2.fields)) : ℕ) : ℤ) ≤ buflen := by
    rwa [h.storedFields_eq]
  have hserialise := StoreFlowComplete.storeFlowSerialise_storable stack
    (congrArg htonl fields_converted) h.storable hfit
  rwa [h.storedFields_eq] at hserialise

/-- What has been written is read. -/
theorem Accepted.storeFlowDeserialise_migrated (h : fv2.Accepted) :
    storeFlowDeserialise fv2.migrated.record fv2.migrated.record.length =
      .ok { flow := fv2.migrated.readBack } := by
  have hlen : 8 + fv2.migrated.bodyLen ≤ fv2.migrated.record.length := by
    rw [StoreFlowComplete.length_record, h.migrated_wellFormed.len_words]
  have hread := StoreFlowComplete.storeFlowDeserialise_record h.migrated_wellFormed [] hlen
  rwa [List.append_nil] at hread

/-- The addresses are read back as they were. -/
theorem Accepted.addr_readBack (h : fv2.Accepted) (g : AddrGroup) :
    fv2.migrated.readBack.addr g = fv2.addr g := by
  have haddr : fv2.migrated.addr g = fv2.addr g := by
    rw [← h.addr_converted]
    cases g <;> rfl
  have hread : fv2.migrated.readBack.addr g = fv2.migrated.readBackAddr g := by
    cases g <;> rfl
  obtain ⟨v4, v6, hcopy⟩ := h.addr_eq g
  rw [hread, StoreFlowComplete.readBackAddr, haddr, hcopy, fields_migrated]
  split_ifs
  · exact Xaddr.copy_v4_copy v4
  · exact Xaddr.copy_addr8_copy v6
  · rfl

/-- Every field but the checksum is read back with its numbers. -/
theorem Accepted.values_readBack (h : fv2.Accepted) {flag : StoreField}
    (hflag : shasfield (htonl fv2.fields) flag = true) (hne : flag ≠ .crc32) :
    fv2.migrated.readBack.values flag = fv2.values flag := by
  cases flag
  case crc32 => exact absurd rfl hne
  case addr4 g =>
    rw [StoreFlowComplete.values, h.addr_readBack]
    rfl
  case addr6 g =>
    rw [StoreFlowComplete.values, h.addr_readBack]
    rfl
  all_goals
    simp only [StoreFlowComplete.values, StoreFlowComplete.readBack, fields_migrated, hflag,
      if_true]
    simp only [migrated, StoreFlowComplete.sealed, StoreFlowComplete.withChecksum,
      StoreFlowComplete.withHeader, converted, storeV2FlowConvert, if_neg h.storeCalcFlowLen_ne,
      htonl_widen16, htons_htons_toUInt16, values]
  all_goals rfl

/-- The checksum is that of the bytes before it. -/
theorem Accepted.crc32_readBack (h : fv2.Accepted)
    (hsum : shasfield (htonl fv2.fields) .crc32 = true) :
    htonl fv2.migrated.readBack.crc32 =
      flowdCrc32 (fv2.migrated.record.take (fv2.migrated.record.length - 4)) := by
  rw [← fields_migrated] at hsum
  have hcrc : fv2.migrated.readBack.crc32 = fv2.migrated.crc32 := if_pos hsum
  have hrecord : fv2.migrated.record = fv2.migrated.recordBody ++ fv2.migrated.vars.get .crc32 := by
    rw [StoreFlowComplete.record_eq, pieces_cons_of_pos hsum, pieces_nil, List.append_nil]
  have hlen : fv2.migrated.record.length - 4 = fv2.migrated.recordBody.length := by
    rw [hrecord, List.length_append, FieldVars.length_get, StoreField.size, Nat.add_sub_cancel]
  rw [hcrc, h.migrated_wellFormed.checksum hsum, hlen, hrecord, List.take_left]

end StoreV2FlowComplete

/-- A record of version 2 that is accepted is converted, and the converted record is written into
every buffer that it fits in. Reading it back gives the same mask and the same numbers in all
fields but the checksum, which is that of the new record. -/
theorem storeV2FlowConvert_readsBack {buf : List UInt8} {len : ℕ} {r : StoreV2Result}
    (h : storeV2FlowDeserialise buf len = .ok r) (hret : r.ret = storeErrOk) :
    (storeV2FlowConvert r.flow).1 = 0 ∧
      ∀ (stack : FieldVars) (buflen : ℤ),
        storeCalcFlowLen (storeV2FlowConvert r.flow).2.fields ≤ buflen →
        ∃ (f : StoreFlowComplete) (record : List UInt8) (g : StoreFlowComplete),
          storeFlowSerialise stack (storeV2FlowConvert r.flow).2 buflen =
              ({ ret := storeErrOk, flow := f }, record) ∧
            storeFlowDeserialise record record.length = .ok { ret := storeErrOk, flow := g } ∧
            g.fields = r.flow.fields ∧
            (∀ flag, shasfield (htonl r.flow.fields) flag = true → flag ≠ .crc32 →
              g.values flag = r.flow.values flag) ∧
            (shasfield (htonl r.flow.fields) .crc32 = true →
              htonl g.crc32 = flowdCrc32 (record.take (record.length - 4))) := by
  have haccepted := storeV2FlowDeserialise_accepted h hret
  refine ⟨haccepted.convert_ret, fun stack buflen hbuf => ?_⟩
  rw [StoreV2FlowComplete.fields_converted] at hbuf
  refine ⟨r.flow.migrated, r.flow.migrated.record, r.flow.migrated.readBack,
    haccepted.storeFlowSerialise_converted stack hbuf, haccepted.storeFlowDeserialise_migrated,
    r.flow.fields_migrated, fun flag hflag hne => ?_, haccepted.crc32_readBack⟩
  exact haccepted.values_readBack hflag hne

/-- A record of version 2 with a tag, interface indices, an engine and a checksum. -/
def legacyRecord : List UInt8 :=
  [0x40, 4, 0x40, 1, 0, 0, 0, 7, 0, 2, 0, 3, 1, 2, 0, 0, 0, 0, 0, 9, 223, 192, 60, 152]

/-- What `store_v2_flow_deserialise` makes of it. -/
def legacyFlow : StoreV2FlowComplete where
  fields := 20972608
  tag := 0x07000000
  ifIndexIn := 0x0200
  ifIndexOut := 0x0300
  engineType := 1
  engineId := 2
  flowSequence := 0x09000000
  crc32 := 2554118367

/-- The sample record of version 2 is read. -/
theorem storeV2FlowDeserialise_legacyRecord :
    storeV2FlowDeserialise legacyRecord 24 = .ok { flow := legacyFlow } := by
  decide +kernel

/-- The record is written into the buffer of `store_write_flow` and read back with its tag, its
interfaces and its engine. -/
theorem legacyRecord_readsBack :
    ∃ (f : StoreFlowComplete) (record : List UInt8) (g : StoreFlowComplete),
      storeFlowSerialise ({} : StoreFlowComplete).vars (storeV2FlowConvert legacyFlow).2 1024 =
          ({ ret := storeErrOk, flow := f }, record) ∧
        storeFlowDeserialise record record.length = .ok { ret := storeErrOk, flow := g } ∧
        g.values .tag = [7] ∧ g.values .ifIndices = [2, 3] ∧
        g.values .flowEngineInfo = [1, 2, 9, 0] := by
  obtain ⟨f, record, g, hwrite, hread, -, hvalues, -⟩ :=
    (storeV2FlowConvert_readsBack storeV2FlowDeserialise_legacyRecord rfl).2
      ({} : StoreFlowComplete).vars 1024 (by decide +kernel)
  refine ⟨f, record, g, hwrite, hread, ?_, ?_, ?_⟩
  · rw [hvalues .tag (by decide) (by decide)]
    decide +kernel
  · rw [hvalues .ifIndices (by decide) (by decide)]
    decide +kernel
  · rw [hvalues .flowEngineInfo (by decide) (by decide)]
    decide +kernel

/-- The checksum of the record is not read back: the new record has one of its own. -/
theorem legacyRecord_checksum :
    storeV2FlowDeserialise legacyRecord 24 = .ok { flow := legacyFlow } ∧
      shasfield (htonl legacyFlow.fields) .crc32 = true ∧
      ∀ (stack : FieldVars) (g : StoreFlowComplete),
        storeFlowDeserialise (storeFlowSerialise stack (storeV2FlowConvert legacyFlow).2 1024).2
            (storeFlowSerialise stack (storeV2FlowConvert legacyFlow).2 1024).2.length =
          .ok { ret := storeErrOk, flow := g } →
        g.values .crc32 ≠ legacyFlow.values .crc32 := by
  refine ⟨storeV2FlowDeserialise_legacyRecord, by decide, fun stack g hg => ?_⟩
  have haccepted : legacyFlow.Accepted :=
    storeV2FlowDeserialise_accepted storeV2FlowDeserialise_legacyRecord rfl
  rw [haccepted.storeFlowSerialise_converted stack (by decide +kernel),
    haccepted.storeFlowDeserialise_migrated] at hg
  obtain rfl : legacyFlow.migrated.readBack = g := congrArg StoreResult.flow (Except.ok.inj hg)
  decide +kernel

end Flowd
