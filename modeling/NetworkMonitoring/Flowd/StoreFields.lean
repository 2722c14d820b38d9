import NetworkMonitoring.Flowd.Store
import NetworkMonitoring.Foundations.OptionalFields

/-!
# flowd — the optional fields of a store record

On disk a record of the flow log is a header with the word `fields` and then the fields that are
set in it. `StoreField` lists them, `mask` and `size` are their `STORE_FIELD_` flag and the size
of their `struct store_flow_`.

The macros `RFIELD` and `WFIELD` of `store.c` copy a field from and to a variable, which is a part
of the record or a local variable for an address. These variables are `FieldVars`; `get` and `put`
are the two copies, and `lenses` says that they do not interfere.
-/

namespace Flowd

open Bytes InetText OptionalFields

/-! ## The fields -/

/-- The four addresses of a record. -/
inductive AddrGroup where
  | agent | src | dst | gateway
  deriving DecidableEq, Repr

/-- The optional fields. The addresses have one field for each family. -/
inductive StoreField where
  | tag | recvTime | protoFlagsTos
  | addr4 (group : AddrGroup)
  | addr6 (group : AddrGroup)
  | srcdstPort | packets | octets | ifIndices | agentInfo | flowTimes | asInfo | flowEngineInfo
  | crc32
  deriving DecidableEq, Repr

namespace StoreField

/-- The flag of the field. -/
def mask : StoreField → UInt32
  | tag => storeFieldTag
  | recvTime => storeFieldRecvTime
  | protoFlagsTos => storeFieldProtoFlagsTos
  | addr4 .agent => storeFieldAgentAddr4
  | addr6 .agent => storeFieldAgentAddr6
  | addr4 .src => storeFieldSrcAddr4
  | addr6 .src => storeFieldSrcAddr6
  | addr4 .dst => storeFieldDstAddr4
  | addr6 .dst => storeFieldDstAddr6
  | addr4 .gateway => storeFieldGatewayAddr4
  | addr6 .gateway => storeFieldGatewayAddr6
  | srcdstPort => storeFieldSrcdstPort
  | packets => storeFieldPackets
  | octets => storeFieldOctets
  | ifIndices => storeFieldIfIndices
  | agentInfo => storeFieldAgentInfo
  | flowTimes => storeFieldFlowTimes
  | asInfo => storeFieldAsInfo
  | flowEngineInfo => storeFieldFlowEngineInfo
  | crc32 => storeFieldCrc32

/-- `sizeof` of the field. -/
def size : StoreField → ℕ
  | tag | protoFlagsTos | addr4 _ | srcdstPort | crc32 => 4
  | recvTime | packets | octets | ifIndices | flowTimes => 8
  | asInfo | flowEngineInfo => 12
  | addr6 _ | agentInfo => 16

/-- The field is an address. -/
def isAddr : StoreField → Bool
  | addr4 _ | addr6 _ => true
  | _ => false

/-- The fields before the checksum, in the order of `RFIELD`. -/
def rfields : List StoreField :=
  [tag, recvTime, protoFlagsTos, addr4 .agent, addr6 .agent, addr4 .src, addr6 .src, addr4 .dst,
    addr6 .dst, addr4 .gateway, addr6 .gateway, srcdstPort, packets, octets, ifIndices, agentInfo,
    flowTimes, asInfo, flowEngineInfo]

/-- The fields before the checksum, in the order of `WFIELD`. -/
def wfields : List StoreField :=
  [tag, recvTime, protoFlagsTos, addr4 .agent, addr6 .agent, addr4 .src, addr6 .src, addr4 .dst,
    addr6 .dst, addr4 .gateway, addr6 .gateway, srcdstPort, packets, octets, ifIndices, agentInfo,
    flowTimes, asInfo, flowEngineInfo]

/-- The fields in the order of `ADDFIELD`. -/
def addfields : List StoreField :=
  [tag, recvTime, protoFlagsTos, addr4 .agent, addr6 .agent, addr4 .src, addr6 .src, addr4 .dst,
    addr6 .dst, addr4 .gateway, addr6 .gateway, srcdstPort, packets, octets, ifIndices, agentInfo,
    flowTimes, asInfo, flowEngineInfo, crc32]

/-- The fields are written in the order in which they are read. -/
theorem wfields_eq : wfields = rfields := rfl

/-- The size of a record counts the checksum last. -/
theorem addfields_eq : addfields = rfields ++ [crc32] := rfl

/-- The size of a record counts every field. -/
theorem mem_addfields (flag : StoreField) : flag ∈ addfields := by
  rcases flag with - | - | - | g | g | - | - | - | - | - | - | - | - | -
  case addr4 => cases g <;> decide
  case addr6 => cases g <;> decide
  all_goals decide

/-- Every field but the checksum is read in the loop. -/
theorem mem_rfields {flag : StoreField} (h : flag ≠ crc32) : flag ∈ rfields := by
  have hmem := mem_addfields flag
  rw [addfields_eq, List.mem_append] at hmem
  exact hmem.resolve_right fun hcrc => h (List.mem_singleton.mp hcrc)

/-- The checksum is not read in the loop. -/
theorem crc32_notMem : crc32 ∉ rfields := by decide

/-- No field is read twice. -/
theorem nodup_rfields : rfields.Nodup := by decide

/-- No two fields share a flag. -/
theorem pairwise_addfields : addfields.Pairwise fun f g => f.mask &&& g.mask = 0 := by decide

/-- The fields have different bits. -/
theorem mask_and_mask {f g : StoreField} (h : f ≠ g) : f.mask &&& g.mask = 0 := by
  have hsymm : Std.Symm fun x y : StoreField => x.mask &&& y.mask = 0 :=
    ⟨fun x y hxy => by rwa [UInt32.and_comm]⟩
  exact pairwise_addfields.forall (mem_addfields f) (mem_addfields g) h

/-- Every flag is a single bit. -/
theorem exists_mask_eq (flag : StoreField) : ∃ k, flag.mask.toBitVec = BitVec.twoPow 32 k := by
  have hall : ∀ flag ∈ addfields, ∃ k ∈ List.range 32,
      flag.mask.toBitVec = BitVec.twoPow 32 k := by decide
  obtain ⟨k, -, hk⟩ := hall flag (mem_addfields flag)
  exact ⟨k, hk⟩

/-- The bits of the body and that of the checksum are all bits. -/
theorem union_rfields : union mask rfields ||| storeFieldCrc32 = storeFieldAll := by decide

/-- The bits of all fields. -/
theorem union_addfields : union mask addfields = storeFieldAll := by decide

/-- `STORE_FIELD_ALL` has the flags of all fields. -/
theorem all_and_mask (flag : StoreField) : storeFieldAll &&& flag.mask = flag.mask := by
  have hall : ∀ flag ∈ addfields, storeFieldAll &&& flag.mask = flag.mask := by decide
  exact hall flag (mem_addfields flag)

/-- All sizes are whole words. -/
theorem four_dvd_size (flag : StoreField) : 4 ∣ flag.size := by
  cases flag <;> simp [size]

/-- No field is empty. -/
theorem size_pos (flag : StoreField) : 0 < flag.size := by
  cases flag <;> simp [size]

/-- The size of the fields that are set, without the checksum. -/
theorem size_rfields_le (sel : StoreField → Bool) :
    OptionalFields.size sel size rfields ≤ 172 := size_le rfields

end StoreField

/-- `SHASFIELD`. -/
abbrev shasfield (fields : UInt32) (flag : StoreField) : Bool := has StoreField.mask fields flag

/-! ## The parts of a record -/

namespace StoreFlowComplete

variable (f : StoreFlowComplete)

/-- An address of the record. -/
def addr : AddrGroup → Xaddr
  | .agent => f.agentAddr
  | .src => f.srcAddr
  | .dst => f.dstAddr
  | .gateway => f.gatewayAddr

/-- Assign an address. -/
def setAddr (a : Xaddr) : AddrGroup → StoreFlowComplete
  | .agent => { f with agentAddr := a }
  | .src => { f with srcAddr := a }
  | .dst => { f with dstAddr := a }
  | .gateway => { f with gatewayAddr := a }

/-- The memory of `hdr`. -/
def hdr : List UInt8 := f.version :: f.lenWords :: (le16 f.reserved ++ le32 f.fields)

/-- Assign `hdr` from the bytes of a buffer. -/
def readHdr : StateM (List UInt8) StoreFlowComplete := do
  return { f with
    version := ← read8
    lenWords := ← read8
    reserved := ← read16
    fields := ← read32 }

/-- The memory of the part of the record that holds a field; the addresses have none. -/
def part : StoreField → List UInt8
  | .tag => le32 f.tag
  | .recvTime => le32 f.recvSec ++ le32 f.recvUsec
  | .protoFlagsTos => [f.tcpFlags, f.protocol, f.tos, f.pftPad]
  | .addr4 _ | .addr6 _ => []
  | .srcdstPort => le16 f.srcPort ++ le16 f.dstPort
  | .packets => le64 f.flowPackets
  | .octets => le64 f.flowOctets
  | .ifIndices => le32 f.ifIndexIn ++ le32 f.ifIndexOut
  | .agentInfo => le32 f.sysUptimeMs ++ (le32 f.timeSec ++ (le32 f.timeNanosec ++
      (le16 f.netflowVersion ++ le16 f.ainfoPad)))
  | .flowTimes => le32 f.flowStart ++ le32 f.flowFinish
  | .asInfo => le32 f.srcAs ++ (le32 f.dstAs ++ (f.srcMask :: f.dstMask :: le16 f.asinfPad))
  | .flowEngineInfo => le16 f.engineType ++ (le16 f.engineId ++
      (le32 f.flowSequence ++ le32 f.sourceId))
  | .crc32 => le32 f.crc32

/-- Assign the part of the record that holds a field. -/
def readPart : StoreField → StateM (List UInt8) StoreFlowComplete
  | .tag => return { f with tag := ← read32 }
  | .recvTime => return { f with recvSec := ← read32, recvUsec := ← read32 }
  | .protoFlagsTos => return { f with
      tcpFlags := ← read8, protocol := ← read8, tos := ← read8, pftPad := ← read8 }
  | .addr4 _ | .addr6 _ => return f
  | .srcdstPort => return { f with srcPort := ← read16, dstPort := ← read16 }
  | .packets => return { f with flowPackets := ← read64 }
  | .octets => return { f with flowOctets := ← read64 }
  | .ifIndices => return { f with ifIndexIn := ← read32, ifIndexOut := ← read32 }
  | .agentInfo => return { f with
      sysUptimeMs := ← read32, timeSec := ← read32, timeNanosec := ← read32
      netflowVersion := ← read16, ainfoPad := ← read16 }
  | .flowTimes => return { f with flowStart := ← read32, flowFinish := ← read32 }
  | .asInfo => return { f with
      srcAs := ← read32, dstAs := ← read32, srcMask := ← read8, dstMask := ← read8
      asinfPad := ← read16 }
  | .flowEngineInfo => return { f with
      engineType := ← read16, engineId := ← read16, flowSequence := ← read32
      sourceId := ← read32 }
  | .crc32 => return { f with crc32 := ← read32 }

/-- The size of the header. -/
@[simp]
theorem length_hdr : f.hdr.length = 8 := by simp [hdr]

end StoreFlowComplete

/-! ## The variables of the macros -/

/-- The variables that fields are copied to and from: the record and the local variables for the
addresses of either family. -/
structure FieldVars where
  flow : StoreFlowComplete
  addr4 : AddrGroup → InAddr
  addr6 : AddrGroup → Fin 16 → UInt8

namespace FieldVars

/-- The memory of the variable of a field. -/
def get (vars : FieldVars) : StoreField → List UInt8
  | .addr4 g => List.ofFn (vars.addr4 g)
  | .addr6 g => List.ofFn (vars.addr6 g)
  | flag => vars.flow.part flag

/-- Copy bytes into the variable of a field. -/
def put (vars : FieldVars) (flag : StoreField) (bs : List UInt8) : FieldVars :=
  match flag with
  | .addr4 g => { vars with addr4 := Function.update vars.addr4 g ((readOctets 4).run bs).1 }
  | .addr6 g => { vars with addr6 := Function.update vars.addr6 g ((readOctets 16).run bs).1 }
  | flag => { vars with flow := ((vars.flow.readPart flag).run bs).1 }

/-- A field has its size. -/
@[simp]
theorem length_get (vars : FieldVars) (flag : StoreField) : (vars.get flag).length = flag.size := by
  cases flag <;> simp [get, StoreFlowComplete.part, StoreField.size]

/-- A field that is no address is the part of the flow. -/
theorem get_eq_part (vars : FieldVars) {flag : StoreField} (h : flag.isAddr = false) :
    vars.get flag = vars.flow.part flag := by
  cases flag with
  | addr4 | addr6 => cases h
  | _ => rfl

/-- An array is read from its bytes. -/
theorem ofFn_readOctets {n : ℕ} {bs : List UInt8} (h : bs.length = n) :
    List.ofFn ((readOctets n).run bs).1 = bs := by
  subst h
  refine List.ext_getElem (by simp) fun i hi hi' => ?_
  rw [List.getElem_ofFn]
  exact (List.getD_eq_getElem?_getD).trans (by rw [List.getElem?_eq_getElem hi']; rfl)

/-- Bytes as many as a part of the record has are that part of some record. -/
theorem exists_part {flag : StoreField} {bs : List UInt8} (h : bs.length = flag.size)
    (haddr : flag.isAddr = false) : ∃ f : StoreFlowComplete, bs = f.part flag := by
  -- each part is read as its words, and a record is made of them
  cases flag
  case addr4 | addr6 => cases haddr
  case tag | crc32 =>
    obtain ⟨v, rest, rfl, h0⟩ := exists_le32 (n := 0) h
    rw [List.length_eq_zero_iff.mp h0, List.append_nil]
    exact ⟨{ tag := v, crc32 := v }, rfl⟩
  case recvTime | ifIndices | flowTimes =>
    obtain ⟨v, rest, rfl, hv⟩ := exists_le32 (n := 4) h
    obtain ⟨w, rest', rfl, h0⟩ := exists_le32 (n := 0) hv
    rw [List.length_eq_zero_iff.mp h0, List.append_nil]
    exact ⟨{ recvSec := v, recvUsec := w, ifIndexIn := v, ifIndexOut := w, flowStart := v,
             flowFinish := w }, rfl⟩
  case protoFlagsTos =>
    obtain ⟨b1, _, rfl, hb1⟩ := exists_byte (n := 3) h
    obtain ⟨b2, _, rfl, hb2⟩ := exists_byte (n := 2) hb1
    obtain ⟨b3, _, rfl, hb3⟩ := exists_byte (n := 1) hb2
    obtain ⟨b4, _, rfl, h0⟩ := exists_byte (n := 0) hb3
    rw [List.length_eq_zero_iff.mp h0]
    exact ⟨{ tcpFlags := b1, protocol := b2, tos := b3, pftPad := b4 }, rfl⟩
  case srcdstPort =>
    obtain ⟨v, _, rfl, hv⟩ := exists_le16 (n := 2) h
    obtain ⟨w, _, rfl, h0⟩ := exists_le16 (n := 0) hv
    rw [List.length_eq_zero_iff.mp h0, List.append_nil]
    exact ⟨{ srcPort := v, dstPort := w }, rfl⟩
  case packets | octets =>
    obtain ⟨v, _, rfl, h0⟩ := exists_le64 (n := 0) h
    rw [List.length_eq_zero_iff.mp h0, List.append_nil]
    exact ⟨{ flowPackets := v, flowOctets := v }, rfl⟩
  case agentInfo =>
    obtain ⟨uptime, _, rfl, h1⟩ := exists_le32 (n := 12) h
    obtain ⟨sec, _, rfl, h2⟩ := exists_le32 (n := 8) h1
    obtain ⟨nsec, _, rfl, h3⟩ := exists_le32 (n := 4) h2
    obtain ⟨version, _, rfl, h4⟩ := exists_le16 (n := 2) h3
    obtain ⟨pad, _, rfl, h0⟩ := exists_le16 (n := 0) h4
    rw [List.length_eq_zero_iff.mp h0, List.append_nil]
    exact ⟨{ sysUptimeMs := uptime, timeSec := sec, timeNanosec := nsec,
             netflowVersion := version, ainfoPad := pad }, rfl⟩
  case asInfo =>
    obtain ⟨srcAs, _, rfl, h1⟩ := exists_le32 (n := 8) h
    obtain ⟨dstAs, _, rfl, h2⟩ := exists_le32 (n := 4) h1
    obtain ⟨srcMask, _, rfl, h3⟩ := exists_byte (n := 3) h2
    obtain ⟨dstMask, _, rfl, h4⟩ := exists_byte (n := 2) h3
    obtain ⟨pad, _, rfl, h0⟩ := exists_le16 (n := 0) h4
    rw [List.length_eq_zero_iff.mp h0, List.append_nil]
    exact ⟨{ srcAs := srcAs, dstAs := dstAs, srcMask := srcMask, dstMask := dstMask,
             asinfPad := pad }, rfl⟩
  case flowEngineInfo =>
    obtain ⟨engineType, _, rfl, h1⟩ := exists_le16 (n := 10) h
    obtain ⟨engineId, _, rfl, h2⟩ := exists_le16 (n := 8) h1
    obtain ⟨sequence, _, rfl, h3⟩ := exists_le32 (n := 4) h2
    obtain ⟨source, _, rfl, h0⟩ := exists_le32 (n := 0) h3
    rw [List.length_eq_zero_iff.mp h0, List.append_nil]
    exact ⟨{ engineType := engineType, engineId := engineId, flowSequence := sequence,
             sourceId := source }, rfl⟩

/-- Reading the bytes of a part assigns it. -/
theorem run_readPart (f f' : StoreFlowComplete) (flag : StoreField) :
    ((f.readPart flag).run (f'.part flag)).1.part flag = f'.part flag := by
  have hread : ∀ rest, ((f.readPart flag).run (f'.part flag ++ rest)).1.part flag =
      f'.part flag := by
    intro rest
    cases flag <;>
      simp only [StoreFlowComplete.readPart, StoreFlowComplete.part, StateT.run_bind,
        StateT.run_pure, run_read8, run_read16, run_read32, run_read64, pure_bind,
        List.append_assoc, List.cons_append, List.nil_append] <;> rfl
  rw [← List.append_nil (f'.part flag)]
  exact (hread []).trans (List.append_nil _).symm

/-- Such a field is read back as it was put. -/
theorem get_put_part (vars : FieldVars) {flag : StoreField} (bs : List UInt8)
    (h : flag.isAddr = false) :
    (vars.put flag bs).get flag = ((vars.flow.readPart flag).run bs).1.part flag := by
  cases flag with
  | addr4 | addr6 => cases h
  | _ => rfl

/-- The variables of the fields are disjoint pieces of memory. -/
theorem lenses : Lenses get put fun flag bs => bs.length = flag.size where
  get_put vars flag bs h := by
    cases flag with
    | addr4 g =>
      change List.ofFn (Function.update vars.addr4 g ((readOctets 4).run bs).1 g) = bs
      rw [Function.update_self]
      exact ofFn_readOctets h
    | addr6 g =>
      change List.ofFn (Function.update vars.addr6 g ((readOctets 16).run bs).1 g) = bs
      rw [Function.update_self]
      exact ofFn_readOctets h
    -- the other variables are parts of the record
    | _ =>
      obtain ⟨f, rfl⟩ := exists_part h rfl
      rw [get_put_part vars _ rfl, run_readPart]
  get_put_of_ne vars bs flag flag' h := by
    cases flag with
    | addr4 g =>
      cases flag' with
      | addr4 g' =>
        -- two fields of one family are two entries of its table
        have hg : g' ≠ g := fun heq => h (congrArg StoreField.addr4 heq.symm)
        change List.ofFn (Function.update vars.addr4 g ((readOctets 4).run bs).1 g') = _
        rw [Function.update_of_ne hg]
        rfl
      | _ => rfl
    | addr6 g =>
      cases flag' with
      | addr6 g' =>
        have hg : g' ≠ g := fun heq => h (congrArg StoreField.addr6 heq.symm)
        change List.ofFn (Function.update vars.addr6 g ((readOctets 16).run bs).1 g') = _
        rw [Function.update_of_ne hg]
        rfl
      | _ => rfl
    | _ => cases flag' <;> first | rfl | exact absurd rfl h

/-- Copying a field leaves the header and the addresses of the record as they are. -/
theorem hdr_put (vars : FieldVars) (flag : StoreField) (bs : List UInt8) :
    (vars.put flag bs).flow.hdr = vars.flow.hdr := by
  cases flag <;> rfl

/-- Reading a field sets no address. -/
theorem addr_put (vars : FieldVars) (flag : StoreField) (bs : List UInt8) :
    (vars.put flag bs).flow.addr = vars.flow.addr := by
  cases flag <;> rfl

end FieldVars

/-- One address is set, and the others stay. -/
@[simp]
theorem StoreFlowComplete.addr_setAddr (f : StoreFlowComplete) (a : Xaddr) (g g' : AddrGroup) :
    (f.setAddr a g).addr g' = if g' = g then a else f.addr g' := by
  cases g <;> cases g' <;> rfl

/-- Setting an address keeps the header. -/
@[simp]
theorem StoreFlowComplete.hdr_setAddr (f : StoreFlowComplete) (a : Xaddr) (g : AddrGroup) :
    (f.setAddr a g).hdr = f.hdr := by
  cases g <;> rfl

/-- Setting an address keeps the other fields. -/
@[simp]
theorem StoreFlowComplete.part_setAddr (f : StoreFlowComplete) (a : Xaddr) (g : AddrGroup)
    (flag : StoreField) : (f.setAddr a g).part flag = f.part flag := by
  cases g <;> cases flag <;> rfl

/-- An address that is set to itself. -/
@[simp]
theorem StoreFlowComplete.setAddr_addr (f : StoreFlowComplete) (g : AddrGroup) :
    f.setAddr (f.addr g) g = f := by
  cases g <;> rfl

/-- The last address that is set stays. -/
@[simp]
theorem StoreFlowComplete.setAddr_setAddr (f : StoreFlowComplete) (a b : Xaddr) (g : AddrGroup) :
    (f.setAddr a g).setAddr b g = f.setAddr b g := by
  cases g <;> rfl

/-- A record is determined by its header, its parts and its addresses. -/
theorem StoreFlowComplete.ext_parts {a b : StoreFlowComplete} (hhdr : a.hdr = b.hdr)
    (hpart : ∀ flag, a.part flag = b.part flag) (haddr : ∀ g, a.addr g = b.addr g) : a = b := by
  have htag := hpart .tag
  have hrecv := hpart .recvTime
  have hpft := hpart .protoFlagsTos
  have hports := hpart .srcdstPort
  have hpackets := hpart .packets
  have hoctets := hpart .octets
  have hifndx := hpart .ifIndices
  have hainfo := hpart .agentInfo
  have hftimes := hpart .flowTimes
  have hasinf := hpart .asInfo
  have hfinf := hpart .flowEngineInfo
  have hcrc := hpart .crc32
  have hagent := haddr .agent
  have hsrc := haddr .src
  have hdst := haddr .dst
  have hgateway := haddr .gateway
  cases a
  cases b
  simp only [hdr, part, addr, List.cons.injEq, and_true, le16_append_inj, le32_append_inj,
    le16_inj, le32_inj, le64_inj] at *
  simp only [*]

/-- The addresses are no parts of the record. -/
theorem StoreFlowComplete.ext_fields {a b : StoreFlowComplete} (hhdr : a.hdr = b.hdr)
    (hpart : ∀ flag, flag.isAddr = false → a.part flag = b.part flag)
    (haddr : ∀ g, a.addr g = b.addr g) : a = b := by
  refine ext_parts hhdr (fun flag => ?_) haddr
  cases flag with
  | addr4 | addr6 => rfl
  | _ => exact hpart _ rfl

end Flowd
