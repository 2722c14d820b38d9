import NetworkMonitoring.Flowd.Crc32
import NetworkMonitoring.Flowd.NetFlow9
import NetworkMonitoring.Flowd.StoreFields
import NetworkMonitoring.Foundations.ByteBuffer

/-!
# flowd — the flow log

The functions of `store.c` that write a record of the flow log into a buffer and read one back,
from a buffer, a file descriptor or a stream. A buffer is the list of its bytes, so a function that
reads behind it ends in a `Fault`. The content of a variable that is never assigned is an argument.
-/

namespace Flowd

open Bytes InetText OptionalFields

/-! ## Versions and results -/

def storeVerMinMask : UInt8 := ((1 : UInt8) <<< 5) - 1
def storeVerMajMask : UInt8 := ((1 : UInt8) <<< 3) - 1

/-- `STORE_MKVER`. -/
def storeMkver (maj min : UInt8) : UInt8 :=
  ((maj &&& storeVerMajMask) <<< 5) ||| (min &&& storeVerMinMask)

/-- `STORE_VER_GET_MAJ`. -/
def storeVerGetMaj (ver : UInt8) : UInt8 := (ver >>> 5) &&& storeVerMajMask

/-- `STORE_VER_GET_MIN`. -/
def storeVerGetMin (ver : UInt8) : UInt8 := ver &&& storeVerMinMask

def storeVerMajor : UInt8 := 3
def storeVerMinor : UInt8 := 0
def storeVersion : UInt8 := storeMkver storeVerMajor storeVerMinor

def storeErrOk : ℤ := 0
def storeErrEof : ℤ := 1
def storeErrUnsupVersion : ℤ := 3
def storeErrBufferSize : ℤ := 4
def storeErrFlowInvalid : ℤ := 5
def storeErrCrcMismatch : ℤ := 6
def storeErrInternal : ℤ := 7

/-- What a function of `store.c` leaves behind: its result, the text in `ebuf` and the record. -/
structure StoreResult where
  ret : ℤ := storeErrOk
  ebuf : String := ""
  flow : StoreFlowComplete

/-! ## Sizes -/

/-- `store_calc_flow_len` on the word `hdr->fields`. -/
def storeCalcFlowLen (hdrFields : UInt32) : ℤ :=
  let s := StoreField.addfields.foldl
    (fun s flag => if shasfield s.2 flag = true then (s.1 + flag.size, s.2 &&& ~~~flag.mask) else s)
    (0, htonl hdrFields)
  -- Make sure we have captured everything
  if s.2 ≠ 0 then -1 else (s.1 : ℕ)

/-! ## Reading a buffer -/

/-- The local variables of `store_flow_deserialise` that `RFIELD` changes. -/
structure ReadState where
  offset : ℕ
  crc : UInt32
  donefields : UInt32
  vars : FieldVars

/-- `RFIELD`. -/
def rfield (buf : List UInt8) (fields : UInt32) (s : ReadState) (flag : StoreField) :
    Except Fault ReadState :=
  if shasfield fields flag = true then do
    let dest ← fetch buf s.offset flag.size
    return {
      offset := s.offset + flag.size
      crc := if shasfield fields .crc32 = true ∧ flag ≠ .crc32 then flowdCrc32Update dest s.crc
        else s.crc
      donefields := s.donefields &&& ~~~flag.mask
      vars := s.vars.put flag dest }
  else return s

/-- The name of an address in the texts of `store_flow_deserialise`. -/
def AddrGroup.name : AddrGroup → String
  | .agent => "agent"
  | .src => "src"
  | .dst => "dst"
  | .gateway => "gateway"

/-- The addresses in the order in which they are checked and converted. -/
def addrGroups : List AddrGroup := [.agent, .src, .dst, .gateway]

/-- A record with addresses of both families in one place. -/
def hasBoth (fields : UInt32) (g : AddrGroup) : Bool :=
  shasfield fields (.addr4 g) && shasfield fields (.addr6 g)

/-- `S_CPYADDR` for the fields of one address that are set. -/
def cpyAddr (fields : UInt32) (vars : FieldVars) (flow : StoreFlowComplete) (g : AddrGroup) :
    StoreFlowComplete :=
  let flow := if shasfield fields (.addr4 g) = true then
    flow.setAddr ((flow.addr g).copy (List.ofFn (vars.addr4 g)) afInet) g else flow
  if shasfield fields (.addr6 g) = true then
    flow.setAddr ((flow.addr g).copy (List.ofFn (vars.addr6 g)) afInet6) g else flow

/-- What `store_flow_deserialise` does once all fields are read. -/
def convertAddrs (fields : UInt32) (s : ReadState) : StoreResult :=
  match addrGroups.find? (hasBoth fields) with
  | some g =>
    { ret := -1, ebuf := "Flow has both v4/v6 " ++ g.name ++ " addrs", flow := s.vars.flow }
  | none =>
    let flow := addrGroups.foldl (cpyAddr fields s.vars) s.vars.flow
    if shasfield fields .crc32 = true ∧ s.crc ≠ htonl flow.crc32 then
      { ret := storeErrCrcMismatch, ebuf := "Flow checksum mismatch", flow := flow }
    else { flow := flow }

/-- What `store_flow_deserialise` does once the fields before the checksum are read; `f` has the
header of the record. -/
def readChecksum (buf : List UInt8) (f : StoreFlowComplete) (s : ReadState) :
    Except Fault StoreResult := do
  let fields := htonl f.fields
  -- Other fields might live here if minor version > ours
  if s.donefields &&& ~~~storeFieldCrc32 ≠ 0 then
    if storeVerGetMin f.version > storeVerMinor then
      -- Skip fields we don't understand
      let offset := f.lenWords.toNat * 4 + 8 - 4
      let fields := fields &&& storeFieldAll
      return convertAddrs fields (← rfield buf fields { s with offset := offset } .crc32)
    else
      -- There shouldn't be any extra if minor_ver <= ours
      return { ret := -1, ebuf := "Flow has unknown fields", flow := s.vars.flow }
  else return convertAddrs fields (← rfield buf fields s .crc32)

/-- `store_flow_deserialise`; `len` is not negative. The local variables for the addresses are read
only where they have been assigned. -/
def storeFlowDeserialise (buf : List UInt8) (len : ℕ) : Except Fault StoreResult := do
  if len < 8 then
    return { ret := storeErrBufferSize
             ebuf := "store_flow_deserialise: supplied length is too small", flow := {} }
  let hdr ← fetch buf 0 8
  let f := ((StoreFlowComplete.readHdr {}).run hdr).1
  if storeVerGetMaj f.version ≠ storeVerMajor then
    return { ret := storeErrUnsupVersion, ebuf := "Unsupported version", flow := f }
  if len - 8 < f.lenWords.toNat * 4 then
    return { ret := storeErrBufferSize
             ebuf := "store_flow_deserialise: incomplete flow record supplied", flow := f }
  let s ← StoreField.rfields.foldlM (rfield buf (htonl f.fields))
    { offset := 8, crc := flowdCrc32Update hdr flowdCrc32Start, donefields := htonl f.fields
      vars := { flow := f, addr4 := fun _ _ => 0, addr6 := fun _ _ => 0 } }
  readChecksum buf f s

/-! ## Writing a buffer -/

/-- The texts for an address whose family is neither of the two. -/
def AddrGroup.silly : AddrGroup → String
  | .agent => "store_flow_serialise: silly agent addr af"
  | .src => "store_flow_serialise: silly src addrs af"
  | .dst => "store_flow_serialise: silly dst addrs af"
  | .gateway => "store_flow_serialise: silly gateway addr af"

/-- One of the four `switch` statements over the families of the addresses; the word `fields` and
the local variables for the addresses are changed. -/
def convertAddr (s : UInt32 × FieldVars) (g : AddrGroup) : Except String (UInt32 × FieldVars) :=
  let a := s.2.flow.addr g
  if a.af = afInet then
    if shasfield s.1 (.addr4 g) = false then .ok s
    else .ok (((s.1 ||| (StoreField.addr4 g).mask) &&& ~~~(StoreField.addr6 g).mask),
      { s.2 with addr4 := Function.update s.2.addr4 g a.v4 })
  else if a.af = afInet6 then
    if shasfield s.1 (.addr6 g) = false then .ok s
    else .ok (((s.1 ||| (StoreField.addr6 g).mask) &&& ~~~(StoreField.addr4 g).mask),
      { s.2 with addr6 := Function.update s.2.addr6 g a.addr8 })
  else if s.1 &&& ((StoreField.addr4 g).mask ||| (StoreField.addr6 g).mask) = 0 then .ok s
  else .error g.silly

/-- `WFIELD`; the buffer up to `offset`, and the checksum. -/
def wfield (fields : UInt32) (vars : FieldVars) (s : List UInt8 × UInt32) (flag : StoreField) :
    List UInt8 × UInt32 :=
  if shasfield fields flag = true then
    (s.1 ++ vars.get flag, if flag ≠ .crc32 then flowdCrc32Update (vars.get flag) s.2 else s.2)
  else s

/-- What `store_flow_serialise` does once the size of the record has been checked. -/
def writeRecord (fields : UInt32) (vars : FieldVars) (f : StoreFlowComplete) (len : ℤ) :
    StoreResult × List UInt8 :=
  let f := { f with lenWords := UInt8.ofNat (len / 4).toNat, reserved := 0 }
  let s := StoreField.wfields.foldl (wfield fields { vars with flow := f })
    (f.hdr, flowdCrc32Update f.hdr flowdCrc32Start)
  let f := if shasfield fields .crc32 = true then { f with crc32 := htonl s.2 } else f
  let s := wfield fields { vars with flow := f } s .crc32
  if len + 8 ≠ s.1.length then
    ({ ret := storeErrInternal, ebuf := "store_flow_serialise: len != offset", flow := f }, s.1)
  else ({ flow := f }, s.1)

/-- `store_flow_serialise`: what it leaves behind and the `*flowlen` bytes at `buf`. `stack` are the
local variables for the addresses before they are assigned. -/
def storeFlowSerialise (stack : FieldVars) (f : StoreFlowComplete) (buflen : ℤ) :
    StoreResult × List UInt8 :=
  let f := { f with version := storeVersion }
  match addrGroups.foldlM convertAddr (htonl f.fields, { stack with flow := f }) with
  | .error silly => ({ ret := storeErrFlowInvalid, ebuf := silly, flow := f }, [])
  | .ok (fields, vars) =>
    -- Fields have probably changes as a result of address conversion
    let f := { f with fields := htonl fields }
    let len := storeCalcFlowLen f.fields
    if len % 4 ≠ 0 then
      ({ ret := storeErrInternal, ebuf := "store_flow_serialise: len & 3 != 0", flow := f }, [])
    else if len > buflen then
      ({ ret := storeErrBufferSize, ebuf := "store_flow_serialise: flow buffer too small"
         flow := f }, [])
    else if len = -1 then
      ({ ret := storeErrFlowInvalid, ebuf := "unsupported flow fields specified", flow := f }, [])
    else writeRecord fields vars f len

/-- `store_flow_serialise_masked`. -/
def storeFlowSerialiseMasked (stack : FieldVars) (f : StoreFlowComplete) (mask : UInt32)
    (buflen : ℤ) : StoreResult × List UInt8 :=
  let origfields := htonl f.fields
  let r := storeFlowSerialise stack { f with fields := htonl (origfields &&& mask) } buflen
  ({ r.1 with flow := { r.1.flow with fields := htonl origfields } }, r.2)

/-! ## Reading the log -/

/-- A read of a file: the result, the bytes that were stored and those that are left. -/
structure FileRead where
  ret : ℕ
  data : List UInt8
  rest : List UInt8

/-- The loop of `atomicio` with `read`, which stores some of the bytes that are left, as many as
`chunk` says but at least one, and returns 0 at the end of the file. -/
def atomicioRead (chunk : ℕ → ℕ) (n : ℕ) (got file : List UInt8) : FileRead :=
  if 0 < n then
    let res := min (max 1 (chunk n)) (min n file.length)
    if res = 0 then ⟨0, got, file⟩
    else atomicioRead chunk (n - res) (got ++ file.take res) (file.drop res)
  else ⟨got.length, got, file⟩
termination_by n
decreasing_by omega

/-- `fread` of one item of `n` bytes. -/
def fread (n : ℕ) (file : List UInt8) : FileRead :=
  ⟨if 0 < n ∧ n ≤ file.length then 1 else 0, file.take n, file.drop n⟩

/-- `sizeof(buf)` of the two readers. -/
def readerBufSize : ℕ := 512

/-- `store_get_flow`: what it leaves behind and the rest of the file. `stack` is `buf` before the
call. -/
def storeGetFlow (chunk : ℕ → ℕ) (stack : List UInt8) (f : StoreFlowComplete) (file : List UInt8) :
    Except Fault (StoreResult × List UInt8) := do
  -- Read header
  let r := atomicioRead chunk 8 [] file
  let buf := ByteBuffer.poke stack 0 r.data
  if r.ret < 8 then
    return ({ ret := storeErrEof, ebuf := "EOF reading flow header", flow := f }, r.rest)
  let len := ((StoreFlowComplete.readHdr {}).run buf).1.lenWords.toNat * 4
  if len > readerBufSize - 8 then
    return ({ ret := storeErrInternal
              ebuf := "store_get_flow: internal flow buffer too small (flow is probably corrupt)"
              flow := f }, r.rest)
  let r := atomicioRead chunk len [] r.rest
  let buf := ByteBuffer.poke buf 8 r.data
  if r.ret < len then
    return ({ ret := storeErrEof, ebuf := "EOF reading flow data", flow := f }, r.rest)
  return (← storeFlowDeserialise buf (len + 8), r.rest)

/-- `store_read_flow`, in the same way. -/
def storeReadFlow (stack : List UInt8) (f : StoreFlowComplete) (file : List UInt8) :
    Except Fault (StoreResult × List UInt8) := do
  -- Read header
  let r := fread 8 file
  let buf := ByteBuffer.poke stack 0 r.data
  if r.ret = 0 then
    return ({ ret := storeErrEof, ebuf := "EOF reading flow header", flow := f }, r.rest)
  let len := ((StoreFlowComplete.readHdr {}).run buf).1.lenWords.toNat * 4
  if len > readerBufSize - 8 then
    return ({ ret := storeErrInternal
              ebuf := "store_read_flow: Internal error: flow buffer too small", flow := f }, r.rest)
  let r := fread len r.rest
  let buf := ByteBuffer.poke buf 8 r.data
  if r.ret = 0 then
    return ({ ret := storeErrEof, ebuf := "EOF reading flow data", flow := f }, r.rest)
  return (← storeFlowDeserialise buf (len + 8), r.rest)

/-- What the first calls of a reader return, up to and including the first result that is not
`STORE_ERR_OK`. The argument of a call is the number of calls that may follow it. -/
def repeatCalls
    (call : ℕ → StoreFlowComplete → List UInt8 → Except Fault (StoreResult × List UInt8)) :
    ℕ → StoreFlowComplete → List UInt8 → Except Fault (List (ℤ × StoreFlowComplete))
  | 0, _, _ => return []
  | n + 1, f, file => do
    let (r, rest) ← call n f file
    if r.ret = storeErrOk then
      return (r.ret, r.flow) :: (← repeatCalls call n r.flow rest)
    else return [(r.ret, r.flow)]

end Flowd
