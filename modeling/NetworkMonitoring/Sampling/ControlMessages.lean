import NetworkMonitoring.Foundations.CText
import NetworkMonitoring.Sampling.Node

/-!
# Control messages

A new rate for a monitor is sent as a text, `p1#p2#address`. `ClientController.c` of flowd writes
it, and there are two servers that read it: `ControlServer.c` of softflowd and `SamplingManager.cpp`
of NSP.

`Memory` has what stands behind the arrays of a server: an array that a copy fills to its last
character is read on into what follows.

## Main results

* `getControlPacketPart_last`, `getControlPacketPart_middle`: the parts behind the first one stand
  or fall together;
* `control_round_trip`: both servers read back the rate and the address that the client has sent.
-/

namespace Sampling

open CText ErrorLoops

/-- The separator `#`. -/
abbrev separator : UInt8 := 35

/-- Undefined behaviour. -/
inductive ControlFault where
  /-- A difference with `NULL`, or a read behind the end of a text. -/
  | pointer
  /-- A text that its array has no room for. -/
  | textBuffer
  /-- The end of a function that has to return a value. -/
  | noReturn
  deriving DecidableEq, Repr

/-! ## The client -/

/-- `ValidateSamplingRate`. -/
def validateSamplingRate (p1 p2 : ℤ) : ℤ :=
  if p1 > p2 then -1
  else if p1 = p2 ∧ p2 = 0 then -1
  else if p1 ≠ 0 ∧ p2 = 0 then -1
  else if p1 < 0 ∨ p2 < 0 then -1
  else 0

/-- The client accepts the rates of `p1` out of `p2 ≥ 1` packets. -/
theorem validateSamplingRate_eq_zero {p1 p2 : ℤ} :
    validateSamplingRate p1 p2 = 0 ↔ ValidRate p1 p2 := by
  unfold validateSamplingRate
  constructor
  · intro h
    split_ifs at h
    exact ⟨by omega, by omega, by omega⟩
  · rintro ⟨hnonneg, hle, hpos⟩
    rw [if_neg (by omega), if_neg (by omega), if_neg (by omega), if_neg (by omega)]

/-- `strcpy` into an array of the given size. -/
def strcpy (size : ℕ) (s : Text) : Except ControlFault Text :=
  if s.length < size then .ok s else .error .textBuffer

/-- The text of a control message. -/
def controlText (p1 p2 : ℤ) (monitorAdr : Text) : Text :=
  joinWith separator [decimal p1, decimal p2, monitorAdr]

/-- What `SendControlPacket` writes: the array `newSamplingRate` to its end, or nothing when the
rate is not valid. -/
def sendControlPacket (p1 p2 : ℤ) (monitorAdr : Text) :
    Except ControlFault (Option (List UInt8)) := do
  if validateSamplingRate p1 p2 < 0 then
    return none
  let _tmp ← strcpy 20 (decimal p1)
  let _tmp ← strcpy 20 (decimal p2)
  let newSamplingRate ← strcpy 100 (controlText p1 p2 monitorAdr)
  return some (newSamplingRate ++ List.replicate (100 - newSamplingRate.length) 0)

/-! ## Reading a message -/

/-- `CONTROL_BUFFER_SIZE`. -/
def controlBufferSize : ℕ := 1024

/-- `MAX_CONTROL_MESSAGE_PARTS`. -/
def maxControlMessageParts : ℕ := 3

/-- What stands in memory behind the end of each array, up to the next NUL. -/
structure Memory where
  buf : Text := []
  monitorIp : Text := []
  szSAmplingRateP1 : Text := []
  szSAmplingRateP2 : Text := []
  asSource : Text := []
  asDest : Text := []
  deriving DecidableEq, Repr

/-- The text in `buf`, which is filled with zeros before the bytes are read. -/
def bufText (behind : Text) (bytes : List UInt8) : Text :=
  let read := bytes.take controlBufferSize
  (read ++ List.replicate (controlBufferSize - read.length) 0 ++ behind).takeWhile (· ≠ 0)

/-- The loop of `get_control_packet_part` at iteration `i`, with `n` more iterations to go and
`rest` the text behind `prev_sep_position`; `none` is an error. -/
def partLoop (i : ℕ) : ℕ → Text → Option Text
  | 0, rest =>
    if i = maxControlMessageParts - 1 then some rest
    else (cut separator rest).map fun (part, _) => part
  | n + 1, rest =>
    if i = maxControlMessageParts - 1 then some rest
    else (cut separator rest).bind fun (_, rest) => partLoop (i + 1) n rest

/-- `get_control_packet_part`; `none` is the return value -1. -/
def getControlPacketPart (completePacket : Text) (partNumber : ℕ) :
    Except ControlFault (Option Text) :=
  if partNumber ≤ maxControlMessageParts - 1 then
    if partNumber = 0 then
      match cut separator completePacket with
      -- the length of the copy is the difference of the message and `NULL`
      | none => .error .pointer
      | some (part, _) => .ok (some part)
    else
      match completePacket with
      -- the search starts behind the NUL
      | [] => .error .pointer
      | _ :: rest => .ok (partLoop 0 partNumber rest)
  else .ok none

/-- The text in a zeroed array of the given size that a part is copied into. -/
def arrayText (size : ℕ) (behind part : Text) : Except ControlFault Text :=
  if part.length < size then .ok part
  else if part.length = size then .ok (part ++ behind)
  else .error .textBuffer

/-- The arguments of a rate change. -/
structure RateChange where
  p1 : ℤ
  p2 : ℤ
  monitorIp : Text
  deriving DecidableEq, Repr

/-- How a server ends the connection. -/
inductive Ack where
  /-- `"The sampling rate is updated."` -/
  | updated
  /-- `"Error occured while trying to change the sampling rate, invalid monitor address."` -/
  | invalidMonitor
  /-- The path from a source to a destination. -/
  | path (asSource asDest : ℤ)
  /-- Without a word; the server goes on. -/
  | nothing
  /-- Without a word, and the server stops. -/
  | stopsControlServer
  deriving DecidableEq, Repr

/-! ## The server of softflowd -/

/-- A part of the message in its array. An error goes to the log, and leaves the array empty. -/
def loggedPart (size : ℕ) (behind buf : Text) (partNumber : ℕ) : Except ControlFault Text := do
  match ← getControlPacketPart buf partNumber with
  | none => return []
  | some part => arrayText size behind part

/-- The arguments that `HandleTCPClient` of softflowd takes from a message. -/
def controlArguments (mem : Memory) (buf : Text) : Except ControlFault RateChange := do
  let monitorIp ← loggedPart 16 mem.monitorIp buf 2
  let szP1 ← loggedPart 20 mem.szSAmplingRateP1 buf 0
  let szP2 ← loggedPart 20 mem.szSAmplingRateP2 buf 1
  return ⟨atoi szP1, atoi szP2, monitorIp⟩

/-- The nodes with a new rate for the first one that has the address, and whether there is one. -/
def changeFirst (c : RateChange) : List SamplingNode → List SamplingNode × Bool
  | [] => ([], false)
  | sn :: nodes =>
    if sn.ipAddr = c.monitorIp then (sn.changeSamplingRate c.p1 c.p2 :: nodes, true)
    else (changeFirst c nodes).map (sn :: ·) id

/-- `ChangeSamplingRateInNode`. -/
def changeSamplingRateInNode (nodes : List SamplingNode) (c : RateChange) :
    Except ControlFault (List SamplingNode × ℤ) := do
  let tmpIp ← strcpy 16 c.monitorIp
  match changeFirst { c with monitorIp := tmpIp } nodes with
  | (nodes, true) => return (nodes, 0)
  | (nodes, false) => return (nodes, 1)

/-- `HandleTCPClient`. The bytes are `none` when `read` fails. -/
def handleTCPClient (mem : Memory) (nodes : List SamplingNode) (bytes : Option (List UInt8)) :
    Except ControlFault (List SamplingNode × Ack) := do
  let some bytes := bytes | return (nodes, .nothing)
  let buf := bufText mem.buf bytes
  if buf = ascii "end" then
    return (nodes, .stopsControlServer)
  let c ← controlArguments mem buf
  let (nodes, ret) ← changeSamplingRateInNode nodes c
  return (nodes, if ret ≠ 0 then .invalidMonitor else .updated)

/-! ## The server of NSP -/

/-- What a rate change uses of a router. -/
structure Router where
  listOfAdapters : List Text
  listNodes : List SamplingNode
  deriving DecidableEq, Repr

/-- `Router::ChangeSamplingRate`. -/
def Router.changeSamplingRate (r : Router) (c : RateChange) :
    Except ControlFault (Router × ℤ) := do
  let tmpIp ← strcpy 16 c.monitorIp
  match changeFirst { c with monitorIp := tmpIp } r.listNodes with
  | (nodes, true) => return ({ r with listNodes := nodes }, 1)
  | (nodes, false) => return ({ r with listNodes := nodes }, 0)

/-- `Node::IsItYourAdapter`. -/
def Router.isItYourAdapter (r : Router) (sAdapter : Text) : Except ControlFault Bool :=
  -- the exception is caught, and the function ends there
  if sAdapter = [] then .error .noReturn else .ok (r.listOfAdapters.contains sAdapter)

/-- `TransitNetwork::ChangeSamplingRate`, over the routers of the network. -/
def networkChangeSamplingRate (c : RateChange) :
    List Router → Except ControlFault (List Router × ℤ)
  | [] => .ok ([], -1)
  | r :: routers => do
    if ← r.isItYourAdapter c.monitorIp then
      let (r, ret) ← r.changeSamplingRate c
      return (r :: routers, ret)
    else
      let (routers, ret) ← networkChangeSamplingRate c routers
      return (r :: routers, ret)

/-- `SamplingPlatform::ChangeSamplingRate`, over the networks of the platform. -/
def platformChangeSamplingRate (c : RateChange) :
    List (List Router) → Except ControlFault (List (List Router) × ℤ)
  | [] => .ok ([], -1)
  | network :: networks => do
    let (network, ret) ← networkChangeSamplingRate c network
    if ret ≠ -1 then
      return (network :: networks, ret)
    else
      let (networks, ret) ← platformChangeSamplingRate c networks
      return (network :: networks, ret)

namespace SamplingManager

/-- A part of the message in its array. The exception for an error does not leave
`get_control_packet_part`. -/
def part (size : ℕ) (behind buf : Text) (partNumber : ℕ) : Except ControlFault Text := do
  match ← getControlPacketPart buf partNumber with
  | none => .error .noReturn
  | some part => arrayText size behind part

/-- The arguments that `SamplingManager::HandleTCPClient` takes from a message. -/
def controlArguments (mem : Memory) (buf : Text) : Except ControlFault RateChange := do
  let monitorIp ← part 16 mem.monitorIp buf 2
  let szP1 ← part 20 mem.szSAmplingRateP1 buf 0
  let szP2 ← part 20 mem.szSAmplingRateP2 buf 1
  return ⟨atoi szP1, atoi szP2, monitorIp⟩

/-- The numbers of the two AS in a request for a path. -/
def pathArguments (mem : Memory) (buf : Text) : Except ControlFault (ℤ × ℤ) := do
  let _command ← part 16 [] buf 0
  let asSource ← part 20 mem.asSource buf 1
  let asDest ← part 20 mem.asDest buf 2
  return (atoi asSource, atoi asDest)

/-- `SamplingManager::HandleTCPClient`. The bytes are `none` when `read` fails. -/
def handleTCPClient (mem : Memory) (platform : List (List Router))
    (bytes : Option (List UInt8)) : Except ControlFault (List (List Router) × Ack) := do
  let some bytes := bytes | return (platform, .nothing)
  let buf := bufText mem.buf bytes
  if buf = ascii "end" then
    return (platform, .stopsControlServer)
  -- `strncmp` compares four characters of `"GetPath"`
  if buf.take 4 = ascii "GetP" then
    let (asSource, asDest) ← pathArguments mem buf
    return (platform, .path asSource asDest)
  let c ← controlArguments mem buf
  let (platform, ret) ← platformChangeSamplingRate c platform
  return (platform, if ret ≠ 1 then .invalidMonitor else .updated)

end SamplingManager

/-! ## The parts of a message -/

/-- The second and the last part of a message. The search for them starts behind the first
character. -/
def laterParts (buf : Text) : Option (Text × Text) :=
  (cut separator buf.tail).bind fun (_, rest) => cut separator rest

/-- The first part ends at the first separator. -/
theorem getControlPacketPart_first (buf : Text) :
    getControlPacketPart buf 0 =
      match cut separator buf with
      | none => .error .pointer
      | some (part, _) => .ok (some part) := by
  rfl

/-- The part in the middle needs two separators. -/
theorem getControlPacketPart_middle {buf : Text} (hbuf : buf ≠ []) :
    getControlPacketPart buf 1 = .ok ((laterParts buf).map Prod.fst) := by
  obtain ⟨b, rest, rfl⟩ := List.exists_cons_of_ne_nil hbuf
  show Except.ok ((cut separator rest).bind fun x => (cut separator x.2).map Prod.fst) = _
  unfold laterParts
  rw [List.tail_cons]
  cases cut separator rest <;> rfl

/-- So does the last one, which goes to the end of the message. -/
theorem getControlPacketPart_last {buf : Text} (hbuf : buf ≠ []) :
    getControlPacketPart buf 2 = .ok ((laterParts buf).map Prod.snd) := by
  obtain ⟨b, rest, rfl⟩ := List.exists_cons_of_ne_nil hbuf
  show Except.ok ((cut separator rest).bind fun x =>
    (cut separator x.2).bind fun y => some y.2) = _
  unfold laterParts
  rw [List.tail_cons]
  cases cut separator rest with
  | none => rfl
  | some x =>
    simp only [Option.bind_some]
    cases cut separator x.2 <;> rfl

/-- A message of three parts is taken apart again. -/
theorem laterParts_joinWith {x y z : Text} (hx : separator ∉ x) (hne : x ≠ [])
    (hy : separator ∉ y) : laterParts (joinWith separator [x, y, z]) = some (y, z) := by
  obtain ⟨b, x', rfl⟩ := List.exists_cons_of_ne_nil hne
  have hx' : separator ∉ x' := fun h => hx (List.mem_cons_of_mem b h)
  show (cut separator (x' ++ separator :: (y ++ separator :: z))).bind _ = _
  rw [cut_append hx', Option.bind_some]
  exact cut_append hy z

/-! ## The round trip -/

/-- The address of a monitor, without the separator. -/
structure IsMonitorAddress (adr : Text) : Prop where
  nonempty : 1 ≤ adr.length
  fits : adr.length ≤ 15
  free : separator ∉ adr

/-- The bytes of a text that ends in the buffer are read as this text. -/
theorem bufText_padded {s : Text} (hs : (0 : UInt8) ∉ s) {size : ℕ} (hlt : s.length < size)
    (hsize : size ≤ controlBufferSize) (behind : Text) :
    bufText behind (s ++ List.replicate (size - s.length) 0) = s := by
  have hlen : (s ++ List.replicate (size - s.length) (0 : UInt8)).length = size := by
    rw [List.length_append, List.length_replicate]
    omega
  obtain ⟨n, hn⟩ : ∃ n, size - s.length = n + 1 := ⟨size - s.length - 1, by omega⟩
  unfold bufText
  rw [List.take_of_length_le (by omega), hn, List.replicate_succ]
  simp only [List.append_assoc, List.cons_append]
  rw [List.takeWhile_append_of_pos]
  · simp
  · intro c hc
    simp only [decide_eq_true_eq]
    rintro rfl
    exact hs hc

/-- A numeral of an `int` has at most ten characters. -/
theorem length_decimal_le {p : ℤ} (hp : 0 ≤ p) (hlt : p < 2 ^ 31) : (decimal p).length ≤ 10 := by
  obtain ⟨n, rfl⟩ := Int.eq_ofNat_of_zero_le hp
  exact (length_digitText_le_iff (by norm_num)).mpr (by omega)

/-- `atoi` reads back a number that is not negative. -/
theorem atoi_decimal {p : ℤ} (hp : 0 ≤ p) (hlt : p < 2 ^ 31) : atoi (decimal p) = p := by
  obtain ⟨n, rfl⟩ := Int.eq_ofNat_of_zero_le hp
  exact atoi_digitText (by omega)

/-- No number has the separator. -/
theorem separator_notMem_decimal (p : ℤ) : separator ∉ decimal p :=
  not_mem_decimal (by decide) (by decide) p

/-- The parts of a message that the client has sent. -/
theorem getControlPacketPart_controlText {p1 p2 : ℤ} (hrate : ValidRate p1 p2) (adr : Text) :
    getControlPacketPart (controlText p1 p2 adr) 0 = .ok (some (decimal p1)) ∧
      getControlPacketPart (controlText p1 p2 adr) 1 = .ok (some (decimal p2)) ∧
      getControlPacketPart (controlText p1 p2 adr) 2 = .ok (some adr) := by
  have hne : decimal p1 ≠ [] := by
    obtain ⟨n, rfl⟩ := Int.eq_ofNat_of_zero_le hrate.nonneg
    exact digitText_ne_nil n
  have hlater : laterParts (controlText p1 p2 adr) = some (decimal p2, adr) :=
    laterParts_joinWith (separator_notMem_decimal p1) hne (separator_notMem_decimal p2)
  have hbuf : controlText p1 p2 adr ≠ [] := by
    intro h
    rw [h] at hlater
    cases hlater
  refine ⟨?_, ?_, ?_⟩
  · rw [getControlPacketPart_first, controlText, cut_joinWith (separator_notMem_decimal p1)]
  · rw [getControlPacketPart_middle hbuf, hlater]
    rfl
  · rw [getControlPacketPart_last hbuf, hlater]
    rfl

theorem loggedPart_of_part {size k : ℕ} {buf part : Text} (behind : Text)
    (hpart : getControlPacketPart buf k = .ok (some part)) (hlt : part.length < size) :
    loggedPart size behind buf k = .ok part := by
  rw [loggedPart, hpart, ok_bind]
  exact if_pos hlt

theorem SamplingManager.part_of_part {size k : ℕ} {buf part : Text} (behind : Text)
    (hpart : getControlPacketPart buf k = .ok (some part)) (hlt : part.length < size) :
    SamplingManager.part size behind buf k = .ok part := by
  rw [SamplingManager.part, hpart, ok_bind]
  exact if_pos hlt

/-- A message that does not stop the server of softflowd changes a rate. -/
theorem handleTCPClient_change (mem : Memory) (nodes : List SamplingNode) (bytes : List UInt8)
    (hend : bufText mem.buf bytes ≠ ascii "end") :
    handleTCPClient mem nodes (some bytes) = controlArguments mem (bufText mem.buf bytes) >>=
      fun c => (changeSamplingRateInNode nodes c).map
        (Prod.map id fun ret => if ret ≠ 0 then .invalidMonitor else .updated) := by
  unfold handleTCPClient
  simp only [hend, if_false]
  rfl

/-- One that is no request for a path does so in NSP. -/
theorem SamplingManager.handleTCPClient_change (mem : Memory) (platform : List (List Router))
    (bytes : List UInt8) (hend : bufText mem.buf bytes ≠ ascii "end")
    (hpath : (bufText mem.buf bytes).take 4 ≠ ascii "GetP") :
    SamplingManager.handleTCPClient mem platform (some bytes) =
      SamplingManager.controlArguments mem (bufText mem.buf bytes) >>=
      fun c => (platformChangeSamplingRate c platform).map
        (Prod.map id fun ret => if ret ≠ 1 then .invalidMonitor else .updated) := by
  unfold SamplingManager.handleTCPClient
  simp only [hend, hpath, if_false]
  rfl

/-- A message that the client has sent stops no server, and is no request for a path. -/
theorem controlText_ne {p1 p2 : ℤ} (hrate : ValidRate p1 p2) (adr : Text) :
    controlText p1 p2 adr ≠ ascii "end" ∧ (controlText p1 p2 adr).take 4 ≠ ascii "GetP" := by
  obtain ⟨n, rfl⟩ := Int.eq_ofNat_of_zero_le hrate.nonneg
  obtain ⟨c, cs, hcs⟩ := List.exists_cons_of_ne_nil (digitText_ne_nil n)
  have hc : isDigit c = true := isDigit_of_mem_digitText (by rw [hcs]; exact List.mem_cons_self)
  have htext : controlText n p2 adr = c :: (cs ++ separator :: (decimal p2 ++ separator :: adr)) := by
    show digitText n ++ _ = _
    rw [hcs]
    rfl
  rw [htext]
  constructor
  · intro h
    obtain rfl : c = 101 := (List.cons.inj h).1
    cases hc
  · intro h
    obtain rfl : c = 71 := (List.cons.inj h).1
    cases hc

/-- What the client writes for a valid rate and the address of a monitor. -/
theorem sendControlPacket_eq {p1 p2 : ℤ} (hrate : ValidRate p1 p2) (hp2 : p2 < 2 ^ 31) {adr : Text}
    (hadr : adr.length ≤ 15) :
    (controlText p1 p2 adr).length < 100 ∧
      sendControlPacket p1 p2 adr = .ok (some (controlText p1 p2 adr ++
        List.replicate (100 - (controlText p1 p2 adr).length) 0)) := by
  have hle1 := length_decimal_le hrate.nonneg (lt_of_le_of_lt hrate.le hp2)
  have hle2 := length_decimal_le (le_trans hrate.nonneg hrate.le) hp2
  have hlen : (controlText p1 p2 adr).length < 100 := by
    simp only [controlText, joinWith, List.length_append, List.length_cons]
    omega
  refine ⟨hlen, ?_⟩
  unfold sendControlPacket strcpy
  rw [validateSamplingRate_eq_zero.mpr hrate, if_neg (by omega), if_pos (by omega),
    if_pos (by omega), if_pos hlen]
  rfl

/-- Both servers read back a rate and an address that the client has sent, and change this rate. -/
theorem control_round_trip {p1 p2 : ℤ} (hrate : validateSamplingRate p1 p2 = 0) (hp2 : p2 < 2 ^ 31)
    {adr : Text} (hadr : IsMonitorAddress adr) (hnul : 0 ∉ adr) (mem : Memory) :
    ∃ bytes, sendControlPacket p1 p2 adr = .ok (some bytes) ∧
      controlArguments mem (bufText mem.buf bytes) = .ok ⟨p1, p2, adr⟩ ∧
      SamplingManager.controlArguments mem (bufText mem.buf bytes) = .ok ⟨p1, p2, adr⟩ ∧
      (∀ nodes, handleTCPClient mem nodes (some bytes) =
        (changeSamplingRateInNode nodes ⟨p1, p2, adr⟩).map
          (Prod.map id fun ret => if ret ≠ 0 then .invalidMonitor else .updated)) ∧
      ∀ platform, SamplingManager.handleTCPClient mem platform (some bytes) =
        (platformChangeSamplingRate ⟨p1, p2, adr⟩ platform).map
          (Prod.map id fun ret => if ret ≠ 1 then .invalidMonitor else .updated) := by
  have hvalid := validateSamplingRate_eq_zero.mp hrate
  have hp1 : p1 < 2 ^ 31 := lt_of_le_of_lt hvalid.le hp2
  have hp2' : 0 ≤ p2 := le_trans hvalid.nonneg hvalid.le
  have hle1 := length_decimal_le hvalid.nonneg hp1
  have hle2 := length_decimal_le hp2' hp2
  have hfits := hadr.fits
  obtain ⟨hlen, hsend⟩ := sendControlPacket_eq hvalid hp2 hfits
  refine ⟨_, hsend, ?_⟩
  -- neither the numbers nor the address nor the separators end the text early
  have hfree : (0 : UInt8) ∉ controlText p1 p2 adr := by
    have h1 : (0 : UInt8) ∉ decimal p1 := not_mem_decimal (by decide) (by decide) p1
    have h2 : (0 : UInt8) ∉ decimal p2 := not_mem_decimal (by decide) (by decide) p2
    have hsep : (0 : UInt8) ≠ separator := by decide
    simp [controlText, joinWith, h1, h2, hnul, hsep]
  have hbuf := bufText_padded hfree hlen (by decide) mem.buf
  obtain ⟨hfirst, hmiddle, hlast⟩ := getControlPacketPart_controlText hvalid adr
  obtain ⟨hend, hpath⟩ := controlText_ne hvalid adr
  have hargs : controlArguments mem (controlText p1 p2 adr) = .ok ⟨p1, p2, adr⟩ := by
    unfold controlArguments
    rw [loggedPart_of_part _ hlast (by omega), ok_bind, loggedPart_of_part _ hfirst (by omega),
      ok_bind, loggedPart_of_part _ hmiddle (by omega), ok_bind, atoi_decimal hvalid.nonneg hp1,
      atoi_decimal hp2' hp2]
    rfl
  have hmanager : SamplingManager.controlArguments mem (controlText p1 p2 adr) =
      .ok ⟨p1, p2, adr⟩ := by
    unfold SamplingManager.controlArguments
    rw [SamplingManager.part_of_part _ hlast (by omega), ok_bind,
      SamplingManager.part_of_part _ hfirst (by omega), ok_bind,
      SamplingManager.part_of_part _ hmiddle (by omega), ok_bind, atoi_decimal hvalid.nonneg hp1,
      atoi_decimal hp2' hp2]
    rfl
  rw [hbuf]
  refine ⟨hargs, hmanager, fun nodes => ?_, fun platform => ?_⟩
  · rw [handleTCPClient_change mem nodes _ (by rw [hbuf]; exact hend), hbuf, hargs, ok_bind]
  · rw [SamplingManager.handleTCPClient_change mem platform _ (by rw [hbuf]; exact hend)
      (by rw [hbuf]; exact hpath), hbuf, hmanager, ok_bind]

/-- One packet of a hundred, for the monitor 10.0.0.1. -/
theorem control_round_trip_sample :
    ∃ bytes, sendControlPacket 1 100 (ascii "10.0.0.1") = .ok (some bytes) ∧
      controlArguments {} (bufText [] bytes) = .ok ⟨1, 100, ascii "10.0.0.1"⟩ := by
  obtain ⟨bytes, hsend, hargs, -⟩ := @control_round_trip 1 100 (by decide) (by norm_num)
    (ascii "10.0.0.1") ⟨by decide, by decide, by decide⟩ (by decide) {}
  exact ⟨bytes, hsend, hargs⟩

end Sampling
