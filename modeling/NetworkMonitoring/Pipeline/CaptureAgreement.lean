import Mathlib.Data.List.GetD
import NetworkMonitoring.Pipeline.EmulatorMessage
import NetworkMonitoring.Softflowd.Packet

/-!
# The emulator path and the capture path

The bytes of a packet reach softflowd in two ways: `ipv4_to_flowrec` reads them from a capture, and
`emulator_ipv4_to_flowrec` reads the text `GetPacketMessage` prints for the structure
`Ipv4ToUpLevel` fills from them. Here both get the same unfragmented TCP or UDP packet.

## Main results

* `captureAgreement_iff`: the two flow records are the same flow exactly when the message fits the
  buffers on its way, the flags are not the separator and byte order does not matter for the ports;
* `captureAgreement_ports`: a TCP packet from port 80 to port 443.
-/

namespace Pipeline

open Bytes CText ErrorLoops Function InetText Nsp Softflowd

/-! ## The packet -/

/-- What the emulator knows about a packet besides its bytes. -/
structure Origin where
  monitor : InAddr
  responsibleNode : ℕ := 0
  second : UInt32
  usecond : UInt32
  asSource : ℕ
  asDest : ℕ
  forwarded : Bool := false

/-- The packet structure before `Ipv4ToUpLevel` gets it. -/
def Origin.packet (o : Origin) : Packet where
  second := o.second
  usecond := o.usecond
  szMonitorIp := inetNtoa o.monitor
  iResponsibleNode := o.responsibleNode
  iAsSourceNumber := o.asSource
  iAsDestNumber := o.asDest
  forwardedToSoftflowd := o.forwarded

/-- An unfragmented IPv4 packet with a complete TCP or UDP header. -/
structure CompleteHeaders (m : Mem) (caplen : ℕ) : Prop where
  ip : 20 ≤ caplen
  version : ipVersion m = 4
  unfragmented : ipIsFrag m = false
  transport : m 9 = ipprotoTcp ∧ ipHeaderLen m + 20 ≤ caplen ∨
    m 9 = ipprotoUdp ∧ ipHeaderLen m + 8 ≤ caplen

/-- The source port, as it is loaded. -/
def rawSport (m : Mem) : UInt16 := m.u16 (ipHeaderLen m)

/-- The destination port, as it is loaded. -/
def rawDport (m : Mem) : UInt16 := m.u16 (ipHeaderLen m + 2)

/-- The flag byte of the TCP header. -/
def rawFlags (m : Mem) : UInt8 := if m 9 = ipprotoTcp then m (ipHeaderLen m + 13) else 0

/-- `ntohs (ip->ip_len)`. -/
def ipLen (m : Mem) : ℕ := (m 2).toNat * 256 + (m 3).toNat

/-- The length of a packet has fewer than ten digits. -/
theorem ipLen_lt (m : Mem) : ipLen m < 10 ^ 9 := by
  have h₂ := (m 2).toNat_lt
  have h₃ := (m 3).toNat_lt
  unfold ipLen
  omega

/-- The direction of the packet. -/
def packetNdx (m : Mem) : Dir := canonicalNdx (m.octets 12 4) (m.octets 16 4)

/-! ## The capture path -/

/-- The network-layer part of a record. -/
def networkRecord (m : Mem) (len : UInt32) : Flow where
  af := afInet
  addr := update (update (fun _ _ => 0) (packetNdx m)
    (FlowAddr.setV4 (fun _ => 0) (m.octets 12 4))) (packetNdx m).other
    (FlowAddr.setV4 (fun _ => 0) (m.octets 16 4))
  protocol := m 9
  octets := update (fun _ => 0) (packetNdx m) len
  packets := update (fun _ => 0) (packetNdx m) 1

/-- The record of the capture path. -/
theorem ipv4ToFlowrec_complete {m : Mem} {caplen : ℕ} (h : CompleteHeaders m caplen)
    (len : UInt32) :
    ipv4ToFlowrec {} m caplen len afInet = some (0, { networkRecord m len with
      port := update (update (fun _ => 0) (packetNdx m) (rawSport m)) (packetNdx m).other
        (rawDport m)
      tcpFlags := update (fun _ => 0) (packetNdx m) (rawFlags m) }, false) := by
  have hip : ¬ (caplen < 20 ∨ caplen < ipHeaderLen m) := by
    have := h.ip
    rcases h.transport with ⟨-, hlen⟩ | ⟨-, hlen⟩ <;> omega
  unfold ipv4ToFlowrec
  rw [if_neg hip, if_neg (not_not_intro h.version), h.unfragmented]
  rcases h.transport with ⟨hp, hlen⟩ | ⟨hp, hlen⟩
  · have hcap : ¬ caplen - ipHeaderLen m < 20 := by omega
    simp only [transportToFlowrec, if_pos hp, if_neg hcap, rawFlags]
    simp [networkRecord, packetNdx, rawSport, rawDport]
  · have hcap : ¬ caplen - ipHeaderLen m < 8 := by omega
    have htcp : m 9 ≠ ipprotoTcp := by rw [hp]; decide
    simp only [transportToFlowrec, if_neg htcp, if_pos hp, if_neg hcap, rawFlags]
    simp [networkRecord, packetNdx, rawSport, rawDport]

/-! ## The emulator path: filling the packet structure -/

/-- The packet structure `Ipv4ToUpLevel` leaves. -/
def upLevelPacket (m : Mem) (o : Origin) : Packet :=
  { o.packet with
    lLength := ipLen m
    szIpSource := inetNtoa (m.octets 12 4)
    szIpDest := inetNtoa (m.octets 16 4)
    szProtocol := if m 9 = ipprotoTcp then ascii "TCP" else ascii "UDP"
    szSourcePort := digitText (rawSport m).toNat
    szDestPort := digitText (rawDport m).toNat
    tcpFlags := rawFlags m }

/-- NSP accepts a packet whose headers have been captured. -/
theorem ipv4ToUpLevel_complete {m : Mem} {caplen : ℕ} (h : CompleteHeaders m caplen)
    (o : Origin) :
    ipv4ToUpLevel m caplen o.packet = .ok (some (0, upLevelPacket m o, false)) := by
  -- the header of the IP packet and that of the transport protocol have been captured
  have hip : ¬ (caplen < 20 ∨ caplen < (m 0).toNat % 16 * 4) := by
    have := h.ip
    have hdef : ipHeaderLen m = (m 0).toNat % 16 * 4 := rfl
    rcases h.transport with ⟨-, hlen⟩ | ⟨-, hlen⟩ <;> omega
  have hfrag : (((m 6).toNat * 256 + (m 7).toNat) % 0x4000 != 0) = false := h.unfragmented
  have hversion : ¬ (m 0).toNat / 16 ≠ 4 := not_not_intro h.version
  simp only [ipv4ToUpLevel, if_neg hip, if_neg hversion, hfrag]
  rcases h.transport with ⟨hp, hlen⟩ | ⟨hp, hlen⟩
  · have hcap : ¬ caplen - (m 0).toNat % 16 * 4 < 20 := by
      have hdef : ipHeaderLen m = (m 0).toNat % 16 * 4 := rfl
      omega
    have hp6 : m 9 = 6 := hp
    simp only [transportToUpLevel, if_pos hp6, if_neg hcap, upLevelPacket, rawFlags, if_pos hp]
    rfl
  · have hcap : ¬ caplen - (m 0).toNat % 16 * 4 < 8 := by
      have hdef : ipHeaderLen m = (m 0).toNat % 16 * 4 := rfl
      omega
    have hp17 : m 9 = 17 := hp
    have htcp : m 9 ≠ ipprotoTcp := by rw [hp]; decide
    have hp6 : ¬ m 9 = 6 := htcp
    simp only [transportToUpLevel, if_neg hp6, if_pos hp17, if_neg hcap, upLevelPacket, rawFlags,
      if_neg htcp]
    rfl

/-! ## The emulator path: the message -/

/-- What `GetPacketMessage` checks about a packet. -/
structure Valid (p : Packet) : Prop where
  node : 0 ≤ p.iResponsibleNode
  monitor : p.szMonitorIp ≠ []
  source : p.szIpSource ≠ []
  dest : p.szIpDest ≠ []
  length : 0 ≤ p.lLength
  sourcePort : p.szSourcePort ≠ []
  destPort : p.szDestPort ≠ []
  asSource : 0 ≤ p.iAsSourceNumber
  asDest : 0 ≤ p.iAsDestNumber
  protocol : p.szProtocol ≠ []

/-- What is left of it for an ICMP packet, which may have no ports. -/
structure Sendable (p : Packet) : Prop where
  node : 0 ≤ p.iResponsibleNode
  monitor : p.szMonitorIp ≠ []
  source : p.szIpSource ≠ []
  dest : p.szIpDest ≠ []
  length : 0 ≤ p.lLength
  sourcePort : p.szSourcePort ≠ [] ∨ p.szProtocol = ascii "ICMP"
  destPort : p.szDestPort ≠ [] ∨ p.szProtocol = ascii "ICMP"
  asSource : 0 ≤ p.iAsSourceNumber
  asDest : 0 ≤ p.iAsDestNumber
  protocol : p.szProtocol ≠ []

/-- A valid packet is one that can be sent. -/
theorem Valid.sendable {p : Packet} (h : Valid p) : Sendable p :=
  { h with
    sourcePort := .inl h.sourcePort
    destPort := .inl h.destPort }

/-- Such a packet is not rejected. -/
theorem getPacketMessage_ne_exception {p : Packet} (h : Sendable p) (what : String) :
    getPacketMessage p ≠ .error (.exception what) := by
  -- the checks pass, and running out of a buffer is not an exception
  have hthrow : ∀ {c : Prop} [Decidable c] {msg : String}, ¬ c →
      throwIf c msg ≠ .error (.exception what) := by
    intro c _ msg hc
    rw [throwIf, if_neg hc]
    exact ok_ne_error
  have hsprintf : ∀ s : Text, sprintf s ≠ .error (.exception what) := by
    intro s
    unfold sprintf
    split <;> simp
  have hport : ∀ {port : Text} (msg : String), port ≠ [] ∨ p.szProtocol = ascii "ICMP" →
      portText p port msg ≠ .error (.exception what) := by
    intro port msg hshown
    unfold portText
    split
    · exact ok_ne_error
    · rename_i hnil
      rw [if_pos (hshown.resolve_left fun hne => hnil (List.length_pos_iff.mpr hne))]
      exact ok_ne_error
  have hprotocol : protocolFields p ≠ .error (.exception what) := by
    unfold protocolFields
    split
    · simp
    · split
      · refine bind_ne_error ?_ fun _ _ h => nomatch h
        unfold fragmentFields
        split
        · unfold sprintf
          split <;> exact fun h => nomatch h
        · simp
      · split <;> simp
  have hpos : ∀ {s : Text}, s ≠ [] → ¬ s.length = 0 := fun hs h0 =>
    hs (List.length_eq_zero_iff.mp h0)
  -- the statements of `GetPacketMessage`, one after the other
  refine bind_ne_error (hthrow ?_) fun _ _ => ?_
  · rintro (hneg | hle)
    · exact absurd h.node (Int.not_le.mpr hneg)
    · exact hpos h.monitor (Nat.le_zero.mp hle)
  refine bind_ne_error (hthrow (hpos h.source)) fun _ _ => ?_
  refine bind_ne_error (hthrow (hpos h.dest)) fun _ _ => ?_
  refine bind_ne_error (hthrow (Int.not_lt.mpr h.length)) fun _ _ => ?_
  refine bind_ne_error (hsprintf _) fun _ _ => ?_
  refine bind_ne_error (hsprintf _) fun _ _ => ?_
  refine bind_ne_error (hsprintf _) fun _ _ => ?_
  refine bind_ne_error (hport _ h.sourcePort) fun _ _ => ?_
  refine bind_ne_error (hport _ h.destPort) fun _ _ => ?_
  refine bind_ne_error (hthrow (Int.not_lt.mpr h.asSource)) fun _ _ => ?_
  refine bind_ne_error (hsprintf _) fun _ _ => ?_
  refine bind_ne_error (hthrow (Int.not_lt.mpr h.asDest)) fun _ _ => ?_
  refine bind_ne_error (hsprintf _) fun _ _ => ?_
  refine bind_ne_error (hthrow (hpos h.protocol)) fun _ _ => ?_
  refine bind_ne_error hprotocol fun _ _ => ?_
  exact ok_ne_error

/-- The message of a packet. -/
theorem getPacketMessage_eq_joinWith {p : Packet} (hp : KnownProtocol p) (hsend : Sendable p)
    (hfits : Fits p) : getPacketMessage p = .ok (joinWith sep (fields p)) := by
  cases hmsg : getPacketMessage p with
  | error e =>
    cases e with
    | exception what => exact absurd hmsg (getPacketMessage_ne_exception hsend what)
    | overflow => exact absurd hmsg (getPacketMessage_ne_overflow hfits)
  | ok msg => rw [(getPacketMessage_eq_ok hp hmsg).2.2]

variable (m : Mem) (o : Origin)

/-- The packet is a TCP or UDP packet. -/
theorem upLevelPacket_knownProtocol : KnownProtocol (upLevelPacket m o) := by
  by_cases hp : m 9 = ipprotoTcp
  · exact .inl (if_pos hp)
  · exact .inr (.inl (if_neg hp))

/-- The packet is valid. -/
theorem upLevelPacket_valid : Valid (upLevelPacket m o) where
  node := Int.natCast_nonneg _
  monitor := inetNtoa_ne_nil _
  source := inetNtoa_ne_nil _
  dest := inetNtoa_ne_nil _
  length := Int.natCast_nonneg _
  sourcePort := digitText_ne_nil _
  destPort := digitText_ne_nil _
  asSource := Int.natCast_nonneg _
  asDest := Int.natCast_nonneg _
  protocol := by
    change (if m 9 = ipprotoTcp then ascii "TCP" else ascii "UDP") ≠ []
    split <;> decide

/-- No text of the packet has the separator. -/
theorem upLevelPacket_sepFree : SepFree (upLevelPacket m o) where
  monitor := not_mem_inetNtoa (by decide) (by decide) _
  source := not_mem_inetNtoa (by decide) (by decide) _
  dest := not_mem_inetNtoa (by decide) (by decide) _
  sourcePort := not_mem_digitText (by decide) _
  destPort := not_mem_digitText (by decide) _

/-- The numbers the emulator gives a packet are printed into a buffer for nine digits. -/
structure Printable (o : Origin) : Prop where
  second : o.second.toNat < 10 ^ 9
  usecond : o.usecond.toNat < 10 ^ 9
  asSource : o.asSource < 10 ^ 9
  asDest : o.asDest < 10 ^ 9

/-- The numbers with fewer than ten digits. -/
theorem length_digitText_lt_ten_iff {n : ℕ} : (digitText n).length < 10 ↔ n < 10 ^ 9 :=
  Nat.lt_succ_iff.trans (length_digitText_le_iff (by norm_num))

/-- The numbers from the bytes always fit. -/
theorem upLevelPacket_fits_iff : Fits (upLevelPacket m o) ↔ Printable o := by
  constructor
  · intro h
    exact ⟨length_digitText_lt_ten_iff.mp h.second, length_digitText_lt_ten_iff.mp h.usecond,
      length_digitText_lt_ten_iff.mp h.asSource, length_digitText_lt_ten_iff.mp h.asDest⟩
  · intro h
    exact ⟨length_digitText_lt_ten_iff.mpr (ipLen_lt m), length_digitText_lt_ten_iff.mpr h.second,
      length_digitText_lt_ten_iff.mpr h.usecond, length_digitText_lt_ten_iff.mpr h.asSource,
      length_digitText_lt_ten_iff.mpr h.asDest, fun _ hf => nomatch hf⟩

/-- The texts of the message before the protocol. -/
def shownTexts : List Text :=
  [inetNtoa o.monitor, inetNtoa (m.octets 12 4), inetNtoa (m.octets 16 4), digitText (ipLen m),
    digitText o.second.toNat, digitText o.usecond.toNat, digitText (rawSport m).toNat,
    digitText (rawDport m).toNat, digitText o.asSource, digitText o.asDest]

/-- The length of the message: its texts, the protocol, the marks and fourteen separators. -/
def messageLength : ℕ :=
  ((shownTexts m o).map List.length).sum +
    if m 9 = ipprotoTcp then (if rawFlags m = 0 then 19 else 20) else 18

/-- The first fields of the message. -/
theorem leadingFields_upLevelPacket :
    leadingFields (upLevelPacket m o) =
      shownTexts m o ++ [if m 9 = ipprotoTcp then ascii "TCP" else ascii "UDP"] := by
  have hport : ∀ n, shownPort (digitText n) = digitText n := fun n =>
    if_neg (digitText_ne_nil n)
  have hlength : decimal (ipLen m) = digitText (ipLen m) := rfl
  have hasSource : decimal o.asSource = digitText o.asSource := rfl
  have hasDest : decimal o.asDest = digitText o.asDest := rfl
  simp only [leadingFields, shownTexts, upLevelPacket, Origin.packet, hport, hlength, hasSource,
    hasDest, List.cons_append, List.nil_append]

/-- The fields of the transport header in the message. -/
theorem transportFields_upLevelPacket :
    transportFields (upLevelPacket m o) =
      if m 9 = ipprotoTcp then [ascii "0", [], flagByte (upLevelPacket m o)]
      else [[], [], []] := by
  have hne : ascii "UDP" ≠ ascii "TCP" := by decide
  unfold transportFields
  by_cases hp : m 9 = ipprotoTcp
  · have htcp : (upLevelPacket m o).szProtocol = ascii "TCP" := if_pos hp
    rw [if_pos htcp, if_pos hp]
    rfl
  · have hudp : (upLevelPacket m o).szProtocol = ascii "UDP" := if_neg hp
    rw [hudp, if_neg hne, if_neg hp]

/-- The length of the message. -/
theorem length_message :
    (joinWith sep (fields (upLevelPacket m o))).length = messageLength m o := by
  -- fifteen fields and the separators between them
  have hcons : fields (upLevelPacket m o) ≠ [] := fun h => nomatch h
  have hlen := length_joinWith sep hcons
  have hforwarded : (forwardedMark (upLevelPacket m o)).length = 1 := by
    unfold forwardedMark
    split <;> decide
  have hprotocol : (if m 9 = ipprotoTcp then ascii "TCP" else ascii "UDP").length = 3 := by
    split <;> decide
  have hzero : (ascii "0").length = 1 := by decide
  have hflags : (flagByte (upLevelPacket m o)).length = if rawFlags m = 0 then 0 else 1 := by
    have hdef : (upLevelPacket m o).tcpFlags = rawFlags m := rfl
    unfold flagByte
    rw [hdef]
    split <;> rfl
  have hcount : (fields (upLevelPacket m o)).length = 15 := by
    simp only [fields, List.length_append, length_transportFields]
    rfl
  have htransport : ((transportFields (upLevelPacket m o)).map List.length).sum =
      if m 9 = ipprotoTcp then (if rawFlags m = 0 then 1 else 2) else 0 := by
    rw [transportFields_upLevelPacket]
    split
    · simp only [List.map_cons, List.map_nil, List.sum_cons, List.sum_nil, hzero, hflags,
        List.length_nil]
      split <;> rfl
    · rfl
  have hsum : ((fields (upLevelPacket m o)).map List.length).sum =
      ((shownTexts m o).map List.length).sum + 3 +
        ((if m 9 = ipprotoTcp then (if rawFlags m = 0 then 1 else 2) else 0) + 1) := by
    rw [fields, leadingFields_upLevelPacket]
    simp only [List.map_append, List.sum_append, htransport, List.map_cons, List.map_nil,
      List.sum_cons, List.sum_nil, hprotocol, hforwarded, Nat.add_zero]
  rw [hsum, hcount] at hlen
  unfold messageLength
  split_ifs at hlen ⊢ <;> omega

/-! ## The emulator path: reading the message -/

/-- A part that fits its buffer. -/
theorem copyPart_message (size k : ℕ) (hk : k ≤ maxEmulatorMessageParts)
    (hlen : ((readFields (upLevelPacket m o)).getD k []).length < size) :
    copyPart size (joinWith sep (fields (upLevelPacket m o))) k =
      .ok ((readFields (upLevelPacket m o)).getD k []) := by
  rw [copyPart, getEmulatorPacketPart_readFields (upLevelPacket_knownProtocol m o)
    (upLevelPacket_sepFree m o) (inetNtoa_ne_nil _) hk]
  exact if_pos hlen

/-- The parts before the transport fields. -/
theorem readFields_shownTexts {k : ℕ} (hk : k < 11) :
    (readFields (upLevelPacket m o)).getD k [] = (shownTexts m o ++
      [if m 9 = ipprotoTcp then ascii "TCP" else ascii "UDP"]).getD k [] := by
  rw [← leadingFields_upLevelPacket]
  have hlt : k < (leadingFields (upLevelPacket m o)).length := hk
  unfold readFields
  split
  · exact List.getD_append _ _ _ _ hlt
  · exact List.getD_append _ _ _ _ hlt

/-- The texts of the message fit the buffers they are read into. -/
theorem length_shownTexts (ho : Printable o) : ∀ s ∈ shownTexts m o, s.length < 16 := by
  have hinet : ∀ a : InAddr, (inetNtoa a).length < 16 := fun a =>
    Nat.lt_succ_of_le (length_inetNtoa_le a)
  have hnumber : ∀ {n : ℕ}, n < 10 ^ 9 → (digitText n).length < 16 := fun hn =>
    (length_digitText_lt_ten_iff.mpr hn).trans (by norm_num)
  have hport : ∀ v : UInt16, v.toNat < 10 ^ 9 := fun v => v.toNat_lt.trans (by norm_num)
  intro s hs
  simp only [shownTexts, List.mem_cons, List.not_mem_nil, or_false] at hs
  rcases hs with rfl | rfl | rfl | rfl | rfl | rfl | rfl | rfl | rfl | rfl
  · exact hinet _
  · exact hinet _
  · exact hinet _
  · exact hnumber (ipLen_lt m)
  · exact hnumber ho.second
  · exact hnumber ho.usecond
  · exact hnumber (hport _)
  · exact hnumber (hport _)
  · exact hnumber ho.asSource
  · exact hnumber ho.asDest

/-- A part before the protocol is one of the shown texts. -/
theorem copyPart_shownTexts (ho : Printable o) {k : ℕ} (hk : k < 10) :
    copyPart 16 (joinWith sep (fields (upLevelPacket m o))) k =
      .ok ((shownTexts m o).getD k []) := by
  have hpart : (readFields (upLevelPacket m o)).getD k [] = (shownTexts m o).getD k [] := by
    rw [readFields_shownTexts m o (Nat.lt_succ_of_lt hk)]
    exact List.getD_append _ _ _ _ hk
  have hmem : (shownTexts m o).getD k [] ∈ shownTexts m o := by
    have hlt : k < (shownTexts m o).length := hk
    rw [List.getD_eq_getElem _ _ hlt]
    exact List.getElem_mem hlt
  have hk' : k ≤ maxEmulatorMessageParts := (Nat.le_of_lt hk).trans (by decide)
  rw [copyPart_message m o 16 k hk' (by rw [hpart]; exact length_shownTexts m o ho _ hmem), hpart]

/-- What softflowd takes for the flags: the separator is lost. -/
def readFlags : UInt8 := if rawFlags m = sep then 0 else rawFlags m

/-- Softflowd does not look at the ports of a UDP packet when it finds a fragment offset in
memory it has not initialised. -/
def SkipsPorts (u : Uninit) : Prop := m 9 = ipprotoUdp ∧ u.frag ≠ 0 ∧ htons u.ipOff ≠ 0

instance (u : Uninit) : Decidable (SkipsPorts m u) :=
  inferInstanceAs (Decidable (m 9 = ipprotoUdp ∧ u.frag ≠ 0 ∧ htons u.ipOff ≠ 0))

/-- What softflowd takes for a port: the number in the text is converted to network byte order
once more. -/
def readPort (u : Uninit) (port : UInt16) : UInt16 := if SkipsPorts m u then 0 else htons port

variable {m} in
/-- softflowd reads no flags of a UDP packet. -/
theorem readFlags_eq_zero (hp : m 9 ≠ ipprotoTcp) : readFlags m = 0 := by
  have hzero : rawFlags m = 0 := if_neg hp
  rw [readFlags, hzero]
  decide

variable {m} in
/-- Only a UDP packet can be taken for a fragment. -/
theorem skipsPorts_iff {caplen : ℕ} (h : CompleteHeaders m caplen) (u : Uninit) :
    ((if m 9 = ipprotoTcp then 0 else u.frag) ≠ 0 ∧ htons u.ipOff ≠ 0) ↔ SkipsPorts m u := by
  unfold SkipsPorts
  rcases h.transport with ⟨hp, -⟩ | ⟨hp, -⟩
  · have hne : ¬ m 9 = ipprotoUdp := by rw [hp]; decide
    rw [if_pos hp]
    exact ⟨fun hfrag => absurd rfl hfrag.1, fun hskip => absurd hskip.1 hne⟩
  · have hne : ¬ m 9 = ipprotoTcp := by rw [hp]; decide
    rw [if_neg hne]
    exact ⟨fun hfrag => ⟨hp, hfrag⟩, fun hskip => hskip.2⟩

/-- Writing zero into a zeroed table changes nothing. -/
theorem update_const_self {α : Type} (ndx : Dir) (x : α) :
    update (fun _ => x) ndx x = fun _ => x := by
  simp

/-- A port survives being printed and read. -/
theorem ofInt_atoi_digitText (v : UInt16) : UInt16.ofInt (atoi (digitText v.toNat)) = v := by
  have hv : v.toNat < 65536 := v.toNat_lt
  rw [atoi_digitText (by omega)]
  apply UInt16.toNat_inj.mp
  simp only [UInt16.ofInt, UInt16.toNat_ofNat']
  omega

/-- The protocol of a TCP packet that is no fragment. -/
theorem emulatorProtocol_tcp {msg mark : Text} {u : Uninit}
    (hprotocol : copyPart 16 msg 10 = .ok (ascii "TCP")) (hmark : copyPart 20 msg 11 = .ok mark)
    (hfrag : atoi mark ≠ 1) : emulatorProtocol msg u = .ok (ipprotoTcp, atoi mark, u.ipOff) := by
  simp only [emulatorProtocol, hprotocol, hmark, bind, Except.bind, pure, Except.pure, if_true,
    if_neg hfrag]

/-- The protocol of a UDP packet: whether it is a fragment is never set. -/
theorem emulatorProtocol_udp {msg : Text} {u : Uninit}
    (hprotocol : copyPart 16 msg 10 = .ok (ascii "UDP")) :
    emulatorProtocol msg u = .ok (ipprotoUdp, u.frag, u.ipOff) := by
  have hne : ascii "UDP" ≠ ascii "TCP" := by decide
  simp only [emulatorProtocol, hprotocol, bind, Except.bind, pure, Except.pure, if_neg hne,
    if_true]

/-- The protocol of the message. -/
theorem emulatorProtocol_message {caplen : ℕ} (h : CompleteHeaders m caplen) (u : Uninit) :
    emulatorProtocol (joinWith sep (fields (upLevelPacket m o))) u =
      .ok (m 9, if m 9 = ipprotoTcp then 0 else u.frag, u.ipOff) := by
  have hpart : (readFields (upLevelPacket m o)).getD 10 [] =
      if m 9 = ipprotoTcp then ascii "TCP" else ascii "UDP" :=
    readFields_shownTexts m o (by decide)
  rcases h.transport with ⟨hp, -⟩ | ⟨hp, -⟩
  · have htcp : (upLevelPacket m o).szProtocol = ascii "TCP" := if_pos hp
    rw [if_pos hp] at hpart
    -- part 11 is the fragment mark, also when the flags are the separator
    have hmark : (readFields (upLevelPacket m o)).getD 11 [] = ascii "0" := by
      unfold readFields
      split
      · rfl
      · rw [fields, transportFields_upLevelPacket, if_pos hp]
        rfl
    have hzero : atoi (ascii "0") = 0 := by decide
    have hcopy := copyPart_message m o 16 10 (by decide)
      (by rw [hpart]; decide)
    have hcopyMark := copyPart_message m o 20 11 (by decide)
      (by rw [hmark]; decide)
    rw [hpart] at hcopy
    rw [hmark] at hcopyMark
    rw [emulatorProtocol_tcp hcopy hcopyMark (by rw [hzero]; decide), hzero, if_pos hp, hp]
  · have hne : m 9 ≠ ipprotoTcp := by rw [hp]; decide
    rw [if_neg hne] at hpart
    have hcopy := copyPart_message m o 16 10 (by decide)
      (by rw [hpart]; decide)
    rw [hpart] at hcopy
    rw [emulatorProtocol_udp hcopy, if_neg hne, hp]

/-- The flags of the message. -/
theorem copyPart_flags (hp : m 9 = ipprotoTcp) :
    ∃ tmp, copyPart 16 (joinWith sep (fields (upLevelPacket m o))) 13 = .ok tmp ∧
      tmp.headD 0 = readFlags m := by
  have hflags := readFields_flagByte (p := upLevelPacket m o) (if_pos hp)
  have hraw : (upLevelPacket m o).tcpFlags = rawFlags m := rfl
  rw [flagByte, hraw] at hflags
  refine ⟨_, copyPart_message m o 16 13 (by decide) ?_, ?_⟩
  · rw [hflags]
    split_ifs <;> norm_num
  · rw [hflags, readFlags]
    split_ifs with hsep hzero
    · rfl
    · exact hzero.symm
    · rfl

/-- `emulator_transport_to_flowrec` on the message. -/
theorem emulatorTransportToFlowrec_message {caplen : ℕ} (h : CompleteHeaders m caplen)
    (ho : Printable o) (hroom : messageLength m o < 100) (flow : Flow) (ndx : Dir) (u : Uninit) :
    emulatorTransportToFlowrec flow (joinWith sep (fields (upLevelPacket m o))) (m 9) ndx u =
      .ok { flow with
        port := update (update flow.port ndx (htons (rawSport m))) ndx.other (htons (rawDport m))
        tcpFlags := if m 9 = ipprotoTcp then
          update flow.tcpFlags ndx (flow.tcpFlags ndx ||| readFlags m) else flow.tcpFlags } := by
  have hcopy : strcpy 100 (joinWith sep (fields (upLevelPacket m o))) =
      .ok (joinWith sep (fields (upLevelPacket m o))) :=
    if_pos (by rw [length_message]; exact hroom)
  have hsport : copyPart 16 (joinWith sep (fields (upLevelPacket m o))) 6 =
      .ok (digitText (rawSport m).toNat) := copyPart_shownTexts m o ho (by decide)
  have hdport : copyPart 16 (joinWith sep (fields (upLevelPacket m o))) 7 =
      .ok (digitText (rawDport m).toNat) := copyPart_shownTexts m o ho (by decide)
  obtain hflags := copyPart_flags m o
  generalize joinWith sep (fields (upLevelPacket m o)) = msg at *
  rcases h.transport with ⟨hp, -⟩ | ⟨hp, -⟩
  · obtain ⟨tmp, hpart, htmp⟩ := hflags hp
    simp only [emulatorTransportToFlowrec, hcopy, hsport, hdport, if_pos hp, hpart, htmp,
      ofInt_atoi_digitText, bind, Except.bind, pure, Except.pure]
  · have hne : m 9 ≠ ipprotoTcp := by rw [hp]; decide
    simp only [emulatorTransportToFlowrec, hcopy, hsport, hdport, if_neg hne, if_pos hp,
      ofInt_atoi_digitText, bind, Except.bind, pure, Except.pure]

/-- The record of the emulator path. -/
theorem emulatorIpv4ToFlowrec_message {caplen : ℕ} (h : CompleteHeaders m caplen)
    (ho : Printable o) (hroom : messageLength m o < 100) (len : UInt32) (u : Uninit) :
    ∃ asSrc asDst frag,
      emulatorIpv4ToFlowrec {} (joinWith sep (fields (upLevelPacket m o))) len afInet u =
        .ok ({ networkRecord m len with
          asSrc := asSrc
          asDst := asDst
          port := update (update (fun _ => 0) (packetNdx m) (readPort m u (rawSport m)))
            (packetNdx m).other (readPort m u (rawDport m))
          tcpFlags := update (fun _ => 0) (packetNdx m) (readFlags m) }, frag, packetNdx m) := by
  have hcopy : strcpy 100 (joinWith sep (fields (upLevelPacket m o))) =
      .ok (joinWith sep (fields (upLevelPacket m o))) :=
    if_pos (by rw [length_message]; exact hroom)
  -- an address that `inet_ntoa` has printed is read back
  have haddr : ∀ {k : ℕ} {a : InAddr}, k < 10 → (shownTexts m o).getD k [] = inetNtoa a →
      addrPart (joinWith sep (fields (upLevelPacket m o))) k = .ok a := by
    intro k a hk hpart
    simp only [addrPart, copyPart_shownTexts m o ho hk, hpart, inetPton_inetNtoa, bind, Except.bind]
  have hsrc := haddr (k := 1) (by decide) rfl
  have hdst := haddr (k := 2) (by decide) rfl
  have hasSrc := copyPart_shownTexts m o ho (k := 8) (by decide)
  have hasDst := copyPart_shownTexts m o ho (k := 9) (by decide)
  have hprotocol := emulatorProtocol_message m o h u
  have htransport := emulatorTransportToFlowrec_message m o h ho hroom
  have hskip := skipsPorts_iff h u
  generalize joinWith sep (fields (upLevelPacket m o)) = msg at *
  simp only [emulatorIpv4ToFlowrec, hcopy, hsrc, hdst, hasSrc, hasDst, hprotocol, htransport, bind,
    Except.bind, pure, Except.pure, hskip]
  refine ⟨update (fun _ => 0) (packetNdx m) (UInt32.ofInt (atoi ((shownTexts m o).getD 8 []))),
    update (fun _ => 0) (packetNdx m).other (UInt32.ofInt (atoi ((shownTexts m o).getD 9 []))),
    if m 9 = ipprotoTcp then 0 else u.frag, ?_⟩
  -- a UDP packet may be taken for a fragment, whose ports and flags are not read
  by_cases hs : SkipsPorts m u
  · have hflags := readFlags_eq_zero (m := m) (by rw [hs.1]; decide)
    simp only [if_pos hs, readPort, hflags, update_const_self]
    rfl
  · simp only [if_neg hs, readPort]
    by_cases hp : m 9 = ipprotoTcp
    · simp only [if_pos hp, UInt8.zero_or]
      rfl
    · simp only [if_neg hp, readFlags_eq_zero hp, update_const_self]
      rfl

/-! ## Agreement -/

/-- Two records are the same flow, seen in the same direction. -/
structure SameFlow (f g : Flow) : Prop where
  af : f.af = g.af
  addr : f.addr = g.addr
  port : f.port = g.port
  protocol : f.protocol = g.protocol
  tcpFlags : f.tcpFlags = g.tcpFlags
  direction : f.packets = g.packets
  compare : flowCompare f g = .eq

/-- Both paths accept the packet and see the same flow. -/
def SeesSameFlow (m : Mem) (caplen : ℕ) (len : UInt32) (o : Origin) (len' : UInt32)
    (u : Uninit) : Prop :=
  ∃ f p msg g frag,
    ipv4ToFlowrec {} m caplen len afInet = some (0, f, false) ∧
    ipv4ToUpLevel m caplen o.packet = .ok (some (0, p, false)) ∧
    getPacketMessage p = .ok msg ∧
    emulatorIpv4ToFlowrec {} msg len' afInet u = .ok (g, frag, packetNdx m) ∧
    SameFlow f g

/-- The byte order does not matter for the ports: each has two equal bytes. Where softflowd skips
the ports, both are zero. -/
def SamePorts (m : Mem) (u : Uninit) : Prop :=
  if SkipsPorts m u then ∀ i < 4, m (ipHeaderLen m + i) = 0
  else m (ipHeaderLen m) = m (ipHeaderLen m + 1) ∧
    m (ipHeaderLen m + 2) = m (ipHeaderLen m + 3)

/-- Two ends of a flow agree when each of them does. -/
theorem update_pair_eq_iff {α : Type} (ndx : Dir) (x : α) {a b a' b' : α} :
    update (update (fun _ => x) ndx a) ndx.other b =
      update (update (fun _ => x) ndx a') ndx.other b' ↔ a = a' ∧ b = b' := by
  constructor
  · intro h
    exact ⟨by simpa using congrFun h ndx, by simpa using congrFun h ndx.other⟩
  · rintro ⟨rfl, rfl⟩
    rfl

/-- Values of one direction are told apart by this direction. -/
theorem update_const_eq_iff {α : Type} (ndx : Dir) (x : α) {a b : α} :
    update (fun _ => x) ndx a = update (fun _ => x) ndx b ↔ a = b :=
  ⟨fun h => by simpa using congrFun h ndx, fun h => h ▸ rfl⟩

/-- A 16-bit word in memory is palindromic when its bytes are equal. -/
theorem eq_htons_u16_iff (off : ℕ) : m.u16 off = htons (m.u16 off) ↔ m off = m (off + 1) := by
  have h₀ := (m off).toNat_lt
  have h₁ := (m (off + 1)).toNat_lt
  rw [eq_comm, htons_eq_self_iff, ← UInt8.toNat_inj]
  have hword : (m.u16 off).toNat = (m off).toNat + 256 * (m (off + 1)).toNat := by
    simp only [Mem.u16, leNat, UInt16.toNat_ofNat']
    omega
  rw [hword]
  omega

/-- A 16-bit number is zero when both its bytes are. -/
theorem u16_eq_zero_iff (off : ℕ) : m.u16 off = 0 ↔ m off = 0 ∧ m (off + 1) = 0 := by
  have h₀ := (m off).toNat_lt
  have h₁ := (m (off + 1)).toNat_lt
  rw [← UInt16.toNat_inj, ← UInt8.toNat_inj, ← UInt8.toNat_inj]
  simp only [Mem.u16, leNat, UInt16.toNat_ofNat', UInt16.toNat_zero, UInt8.toNat_zero]
  omega

/-- The ports are the same on both paths exactly under `SamePorts`. -/
theorem readPort_eq_iff (u : Uninit) :
    (rawSport m = readPort m u (rawSport m) ∧ rawDport m = readPort m u (rawDport m)) ↔
      SamePorts m u := by
  unfold readPort SamePorts rawSport rawDport
  split
  · rw [u16_eq_zero_iff, u16_eq_zero_iff]
    constructor
    · rintro ⟨⟨h₀, h₁⟩, h₂, h₃⟩ i hi
      interval_cases i
      · exact h₀
      · exact h₁
      · exact h₂
      · exact h₃
    · intro h
      exact ⟨⟨h 0 (by decide), h 1 (by decide)⟩, h 2 (by decide), h 3 (by decide)⟩
  · rw [eq_htons_u16_iff, eq_htons_u16_iff]

/-- The flags are the same on both paths unless they are read as the separator. -/
theorem rawFlags_eq_readFlags_iff :
    rawFlags m = readFlags m ↔ ¬ (m 9 = ipprotoTcp ∧ m (ipHeaderLen m + 13) = sep) := by
  have hsep : rawFlags m = sep ↔ m 9 = ipprotoTcp ∧ m (ipHeaderLen m + 13) = sep := by
    unfold rawFlags
    split
    · rename_i hp
      exact ⟨fun h => ⟨hp, h⟩, fun h => h.2⟩
    · rename_i hp
      exact ⟨fun h => absurd h (by decide), fun h => absurd h.1 hp⟩
  rw [← hsep, readFlags]
  split
  · rename_i h
    exact ⟨fun h0 => absurd (h.symm.trans h0) (by decide), fun hne => absurd h hne⟩
  · rename_i h
    exact ⟨fun _ => h, fun _ => rfl⟩

/-- Both paths accept the packet when the message fits, and then ports and flags decide. -/
theorem seesSameFlow_iff_read {m : Mem} {caplen : ℕ} (h : CompleteHeaders m caplen)
    (len : UInt32) (o : Origin) (len' : UInt32) (u : Uninit) :
    SeesSameFlow m caplen len o len' u ↔
      (Printable o ∧ messageLength m o < 100) ∧
        (rawSport m = readPort m u (rawSport m) ∧ rawDport m = readPort m u (rawDport m)) ∧
        rawFlags m = readFlags m := by
  constructor
  · rintro ⟨f, p, msg, g, frag, hf, hp, hmsg, hg, hsame⟩
    rw [ipv4ToFlowrec_complete h] at hf
    rw [ipv4ToUpLevel_complete h] at hp
    obtain rfl : upLevelPacket m o = p := by
      simpa using hp
    obtain ⟨hfits, -, rfl⟩ := getPacketMessage_eq_ok (upLevelPacket_knownProtocol m o) hmsg
    -- the message has been made, so the numbers fit, and it has been copied, so it is short enough
    have ho := (upLevelPacket_fits_iff m o).mp hfits
    have hroom : messageLength m o < 100 := by
      obtain ⟨tmpPacket, hcopy, -⟩ := bind_eq_ok.mp hg
      unfold strcpy at hcopy
      split at hcopy
      · rename_i hlen
        rwa [length_message] at hlen
      · cases hcopy
    obtain ⟨asSrc, asDst, frag', hread⟩ := emulatorIpv4ToFlowrec_message m o h ho hroom len' u
    rw [hread] at hg
    obtain ⟨rfl, -⟩ := Prod.mk.inj (Except.ok.inj hg)
    obtain ⟨-, hf⟩ := Prod.mk.inj (Option.some.inj hf)
    obtain ⟨rfl, -⟩ := Prod.mk.inj hf
    exact ⟨⟨ho, hroom⟩, (update_pair_eq_iff _ _).mp hsame.port,
      (update_const_eq_iff _ _).mp hsame.tcpFlags⟩
  -- everything but ports and flags agrees in any case
  · rintro ⟨⟨ho, hroom⟩, hports, hflags⟩
    obtain ⟨asSrc, asDst, frag, hread⟩ := emulatorIpv4ToFlowrec_message m o h ho hroom len' u
    have hmsg := getPacketMessage_eq_joinWith (upLevelPacket_knownProtocol m o)
      (upLevelPacket_valid m o).sendable ((upLevelPacket_fits_iff m o).mpr ho)
    refine ⟨_, _, _, _, frag, ipv4ToFlowrec_complete h len, ipv4ToUpLevel_complete h o, hmsg,
      hread, ?_⟩
    have hport := (update_pair_eq_iff (packetNdx m) 0).mpr hports
    have htcp := (update_const_eq_iff (packetNdx m) 0).mpr hflags
    refine ⟨rfl, rfl, hport, rfl, htcp, rfl, ?_⟩
    rw [flowCompare_eq_iff]
    simp only [Flow.key, hport]
    rfl

/-- **Agreement of the two paths.** Softflowd sees the same flow on both paths exactly when the
message fits the buffers it is printed into and read from, the two bytes of each port are equal,
and the flag byte is not the separator. -/
theorem captureAgreement_iff {m : Mem} {caplen : ℕ} (h : CompleteHeaders m caplen)
    (len : UInt32) (o : Origin) (len' : UInt32) (u : Uninit) :
    SeesSameFlow m caplen len o len' u ↔
      (Printable o ∧ messageLength m o < 100) ∧ SamePorts m u ∧
        ¬ (m 9 = ipprotoTcp ∧ m (ipHeaderLen m + 13) = sep) := by
  rw [seesSameFlow_iff_read h, readPort_eq_iff, rawFlags_eq_readFlags_iff]

/-- The bytes of a SYN packet from 1.2.3.4 to 5.6.7.8. -/
def synBytes (sport dport : UInt8 × UInt8) : Mem := fun i =>
  [0x45, 0, 0, 40, 0, 0, 0, 0, 64, 6, 0, 0, 1, 2, 3, 4, 5, 6, 7, 8,
    sport.1, sport.2, dport.1, dport.2, 0, 0, 0, 0, 0, 0, 0, 0, 0x50, 0x02].getD i 0

/-- The headers of the sample packet have been captured. -/
theorem synBytes_complete (sport dport : UInt8 × UInt8) :
    CompleteHeaders (synBytes sport dport) 40 := by
  have hfirst : synBytes sport dport 0 = 0x45 := rfl
  have hoff : synBytes sport dport 6 = 0 ∧ synBytes sport dport 7 = 0 := ⟨rfl, rfl⟩
  refine ⟨by decide, ?_, ?_, .inl ⟨rfl, ?_⟩⟩
  · rw [ipVersion, hfirst]
    decide
  · rw [ipIsFrag, ipOff, hoff.1, hoff.2]
    decide
  · rw [ipHeaderLen, hfirst]
    decide

/-- A report of the monitor 10.0.0.1. -/
def sampleOrigin : Origin where
  monitor := ![10, 0, 0, 1]
  second := 1
  usecond := 2
  asSource := 1
  asDest := 2

/-- The origin of the sample packet can be printed. -/
theorem sampleOrigin_printable : Printable sampleOrigin := by
  constructor <;> decide

/-- Equal port bytes: from port 20560 to port 257. -/
theorem captureAgreement_iff_equalBytes :
    CompleteHeaders (synBytes (80, 80) (1, 1)) 40 ∧
      SeesSameFlow (synBytes (80, 80) (1, 1)) 40 40 sampleOrigin 40 {} := by
  have hcomplete := synBytes_complete (80, 80) (1, 1)
  refine ⟨hcomplete, (captureAgreement_iff hcomplete 40 sampleOrigin 40 {}).mpr
    ⟨⟨sampleOrigin_printable, ?_⟩, ?_, ?_⟩⟩
  · decide +kernel
  · exact ⟨rfl, rfl⟩
  · exact fun h => absurd h.2 (by decide)

/-- From port 80 to port 443 the two paths see different flows. -/
theorem captureAgreement_ports :
    CompleteHeaders (synBytes (0, 80) (1, 187)) 40 ∧
      (∃ f, ipv4ToFlowrec {} (synBytes (0, 80) (1, 187)) 40 40 afInet = some (0, f, false) ∧
        f.port = ![htons 80, htons 443]) ∧
      (∃ p msg g frag,
        ipv4ToUpLevel (synBytes (0, 80) (1, 187)) 40 sampleOrigin.packet =
          .ok (some (0, p, false)) ∧
        getPacketMessage p = .ok msg ∧
        emulatorIpv4ToFlowrec {} msg 40 afInet {} = .ok (g, frag, 0) ∧
        g.port = ![80, 443]) ∧
      ¬ SeesSameFlow (synBytes (0, 80) (1, 187)) 40 40 sampleOrigin 40 {} := by
  have hcomplete := synBytes_complete (0, 80) (1, 187)
  have hroom : messageLength (synBytes (0, 80) (1, 187)) sampleOrigin < 100 := by decide +kernel
  obtain ⟨asSrc, asDst, frag, hread⟩ := emulatorIpv4ToFlowrec_message _ _ hcomplete
    sampleOrigin_printable hroom 40 {}
  have hmsg := getPacketMessage_eq_joinWith (upLevelPacket_knownProtocol _ _)
    (upLevelPacket_valid _ _).sendable
    ((upLevelPacket_fits_iff (synBytes (0, 80) (1, 187)) _).mpr sampleOrigin_printable)
  refine ⟨hcomplete, ⟨_, ipv4ToFlowrec_complete hcomplete 40, ?_⟩,
    ⟨_, _, _, frag, ipv4ToUpLevel_complete hcomplete sampleOrigin, hmsg, hread, ?_⟩, ?_⟩
  -- softflowd swaps the ports of the packet, the emulator's message does not
  · funext d
    fin_cases d <;> decide
  · funext d
    have hread : ∀ d, update (update (fun _ => (0 : UInt16)) (packetNdx (synBytes (0, 80) (1, 187)))
        (readPort (synBytes (0, 80) (1, 187)) {} (rawSport (synBytes (0, 80) (1, 187)))))
        (packetNdx (synBytes (0, 80) (1, 187))).other
        (readPort (synBytes (0, 80) (1, 187)) {} (rawDport (synBytes (0, 80) (1, 187)))) d =
          ![80, 443] d := by decide
    exact hread d
  · rw [seesSameFlow_iff_read hcomplete]
    rintro ⟨-, ⟨hport, -⟩, -⟩
    exact absurd hport (by decide)

end Pipeline
