import NetworkMonitoring.Foundations.InetText
import NetworkMonitoring.Foundations.LittleEndian

/-!
# NSP — packets of the emulated network

The `packet` structure of `CommonStructs.h`, how `TraficLoader.cpp` fills it from the bytes of an
IPv4 packet, and the text `SoftflowdInterface::GetPacketMessage` sends to softflowd about it.

* A `char` array is the text before its first NUL.
* `GetPacketMessage` prints numbers into `char tmp[10]`: a text of ten characters or more is
  written behind the array (`Halt.overflow`).
* The members `ipv4` and `ipv6`, which none of these functions reads, are left out.
-/

namespace Nsp

open Bytes CText InetText

/-- `struct packet`. -/
structure Packet where
  usecond : UInt32 := 0
  second : UInt32 := 0
  szMonitorIp : Text := []
  lLength : ℤ := 0
  szIpSource : Text := []
  szIpDest : Text := []
  szSourcePort : Text := []
  szDestPort : Text := []
  szProtocol : Text := []
  iResponsibleNode : ℤ := 0
  iAsSourceNumber : ℤ := 0
  iAsDestNumber : ℤ := 0
  fragment : Bool := false
  fragmentSeqNumber : UInt64 := 0
  forwardedToSoftflowd : Bool := false
  tcpFlags : UInt8 := 0
  deriving DecidableEq, Repr

/-- How a function ends without a result. -/
inductive Halt where
  /-- It throws an `NspException`. -/
  | exception (what : String)
  /-- It writes behind a `char` array. -/
  | overflow
  deriving DecidableEq, Repr

/-! ## From the bytes of a packet -/

/-- `TransportToUpLevel`; `pkt` is the offset of the transport header. The ports are printed as
they are loaded, in network byte order. The text for other protocols, `"UNKNOWN: "` and the
number, does not fit `szProtocol`. -/
def transportToUpLevel (m : Mem) (pkt caplen : ℕ) (isfrag : Bool) (protocol : UInt8)
    (p : Packet) : Except Halt (ℤ × Packet) :=
  if protocol = 6 then
    -- the header is read before its length is compared with what has been captured
    .ok (if caplen < 20 then (if isfrag then 0 else 1) else 0, { p with
      szProtocol := ascii "TCP"
      szSourcePort := digitText (m.u16 pkt).toNat
      szDestPort := digitText (m.u16 (pkt + 2)).toNat
      tcpFlags := m (pkt + 13) })
  else if protocol = 17 then
    .ok (if caplen < 8 then (if isfrag then 0 else 1) else 0, { p with
      szProtocol := ascii "UDP"
      szSourcePort := digitText (m.u16 pkt).toNat
      szDestPort := digitText (m.u16 (pkt + 2)).toNat })
  -- neither type nor code of ICMP are kept
  else if protocol = 1 then .ok (0, { p with szProtocol := ascii "ICMP" })
  else .error .overflow

/-- `Ipv4ToUpLevel`: return value, packet and `*isfrag`; `none` is the early `return (-1)`. -/
def ipv4ToUpLevel (m : Mem) (caplen : ℕ) (p : Packet) :
    Except Halt (Option (ℤ × Packet × Bool)) :=
  let headerLen := (m 0).toNat % 16 * 4
  let off := (m 6).toNat * 256 + (m 7).toNat
  -- Runt packet
  if caplen < 20 ∨ caplen < headerLen then .ok none
  -- Unsupported IP version
  else if (m 0).toNat / 16 ≠ 4 then .ok none
  else do
    let p := { p with
      lLength := (m 2).toNat * 256 + (m 3).toNat
      szIpSource := inetNtoa (m.octets 12 4)
      szIpDest := inetNtoa (m.octets 16 4) }
    let isfrag : Bool := off % 0x4000 != 0
    let p := if isfrag ∧ off % 0x2000 ≠ 0 then
        { p with fragment := true, fragmentSeqNumber := UInt64.ofNat off }
      else p
    let (r, p) ← transportToUpLevel m headerLen (caplen - headerLen) isfrag (m 9) p
    return some (r, p, isfrag)

/-! ## To a message for softflowd -/

/-- `throw` when a check fails. -/
def throwIf (c : Prop) [Decidable c] (what : String) : Except Halt Unit :=
  if c then .error (.exception what) else .ok ()

/-- `sprintf` into `char tmp[10]`. -/
def sprintf (s : Text) : Except Halt Text := if s.length < 10 then .ok s else .error .overflow

/-- The port a message shows: only an ICMP packet may have none. -/
def portText (p : Packet) (port : Text) (what : String) : Except Halt Text :=
  if port.length > 0 then .ok port
  else if p.szProtocol = ascii "ICMP" then .ok (ascii "0")
  else .error (.exception what)

/-- The text of `fragmentSeqNumber`, which is printed as an `int`. -/
def fragmentSeqText (p : Packet) : Text :=
  decimal ((p.fragmentSeqNumber.toNat : ℤ).bmod (2 ^ 32))

/-- The fragment fields of a TCP packet. -/
def fragmentFields (p : Packet) : Except Halt Text :=
  if p.fragment then (sprintf (fragmentSeqText p)).map (ascii "#1#" ++ ·)
  else .ok (ascii "#0#")

/-- The protocol's related fields. -/
def protocolFields (p : Packet) : Except Halt Text :=
  if p.szProtocol = ascii "UDP" then .ok (ascii "###")
  else if p.szProtocol = ascii "TCP" then do
    let frag ← fragmentFields p
    -- Adding The TCP Flags
    return frag ++ ascii "#" ++ (if p.tcpFlags = 0 then [] else [p.tcpFlags])
  else if p.szProtocol = ascii "ICMP" then .ok (ascii "###")
  else .ok []

/-- `GetPacketMessage`. The time stamp is unsigned, so its two checks never throw. -/
def getPacketMessage (p : Packet) : Except Halt Text := do
  -- Responsible node
  throwIf (p.iResponsibleNode < 0 ∨ p.szMonitorIp.length ≤ 0) "Invalid responsible node id."
  let res := p.szMonitorIp ++ ascii "#"
  -- Ip source Adr
  throwIf (p.szIpSource.length = 0) "Invalid packet's source ip adr."
  let res := res ++ p.szIpSource ++ ascii "#"
  -- Ip Dest Adr
  throwIf (p.szIpDest.length = 0) "Invalid packet's destination ip adr."
  let res := res ++ p.szIpDest ++ ascii "#"
  -- The length of the packet
  throwIf (p.lLength < 0) "Invalid packet's length."
  let res := res ++ (← sprintf (decimal p.lLength)) ++ ascii "#"
  -- The packet TimeStamp (sec) and (usec)
  let res := res ++ (← sprintf (digitText p.second.toNat)) ++ ascii "#"
  let res := res ++ (← sprintf (digitText p.usecond.toNat)) ++ ascii "#"
  -- The packet source port and dest port
  let res := res ++ (← portText p p.szSourcePort "Invalid packet's source port.") ++ ascii "#"
  let res := res ++ (← portText p p.szDestPort "Invalid packet's destination port.") ++ ascii "#"
  -- The packet source AS number
  throwIf (p.iAsSourceNumber < 0) "Invalid packet's AS source number."
  let res := res ++ (← sprintf (decimal p.iAsSourceNumber)) ++ ascii "#"
  -- The packet dest AS number
  throwIf (p.iAsDestNumber < 0) "Invalid packet's AS destination number."
  let res := res ++ (← sprintf (decimal p.iAsDestNumber)) ++ ascii "#"
  -- packet's protocol
  throwIf (p.szProtocol.length = 0) "Invalid packet's protocol."
  let res := res ++ p.szProtocol ++ (← protocolFields p)
  -- Indicate if the packet has been already forwarded to softflowd or not
  return res ++ ascii "#" ++ (if p.forwardedToSoftflowd then ascii "1" else ascii "0")

end Nsp
