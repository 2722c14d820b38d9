import NetworkMonitoring.Pipeline.CaptureAgreement

/-!
# The size of the emulator's messages

`GetPacketMessage` prints numbers into ten bytes, and softflowd copies the whole message into
arrays of a hundred. The widths of the fifteen fields come from the bytes of the packet, from its
time stamp and from dispatching. For a packet that is no TCP fragment their maxima fit exactly.

## Main results

* `messageFits_iff`: the message fits its buffers exactly when the seconds have at most nine digits
  and, for a TCP fragment, the fields leave room for the offset;
* `messageTooLong`: a TCP fragment whose message does not fit.
-/

namespace Pipeline

open Bytes CText ErrorLoops InetText Nsp Softflowd

/-! ## The packets that are sent -/

/-- What dispatching gives a packet, and the microseconds of its time stamp. -/
structure Dispatched (o : Origin) : Prop where
  usecond : o.usecond.toNat < 10 ^ 6
  asSource : 1 ≤ o.asSource ∧ o.asSource ≤ 99
  asDest : 1 ≤ o.asDest ∧ o.asDest ≤ 99

/-- `ProcessPacket` makes the packet of an IPv4 packet that it does not reject: fragments are marked
behind `Ipv4ToUpLevel`. -/
def Produced (m : Mem) (caplen : ℕ) (o : Origin) (p : Packet) : Prop :=
  ∃ r q isfrag, ipv4ToUpLevel m caplen o.packet = .ok (some (r, q, isfrag)) ∧
    p = if isfrag then { q with fragment := true } else q

/-- The text of its protocol. -/
def protocolText (m : Mem) : Text :=
  if m 9 = ipprotoTcp then ascii "TCP" else if m 9 = ipprotoUdp then ascii "UDP" else ascii "ICMP"

/-- The text of a port, which an ICMP packet does not have. -/
def portField (m : Mem) (port : UInt16) : Text :=
  if m 9 = ipprotoTcp ∨ m 9 = ipprotoUdp then digitText port.toNat else []

/-- The number that is printed for a fragment: `ntohs (ip->ip_off)`, with its flags, or zero for a
first fragment. -/
def fragmentNumber (m : Mem) : ℕ := if ipHasOffset m then ipOff m else 0

/-- The packet that is sent. -/
def sentPacket (m : Mem) (o : Origin) : Packet :=
  { o.packet with
    lLength := ipLen m
    szIpSource := inetNtoa (m.octets 12 4)
    szIpDest := inetNtoa (m.octets 16 4)
    szProtocol := protocolText m
    szSourcePort := portField m (rawSport m)
    szDestPort := portField m (rawDport m)
    fragment := ipIsFrag m
    fragmentSeqNumber := UInt64.ofNat (fragmentNumber m)
    tcpFlags := rawFlags m }

variable {m : Mem} {caplen : ℕ} {o : Origin} {p : Packet}

/-- A later fragment is a fragment. -/
theorem ipIsFrag_of_hasOffset (h : ipHasOffset m = true) : ipIsFrag m = true := by
  unfold ipHasOffset at h
  unfold ipIsFrag
  rw [bne_iff_ne] at h ⊢
  omega

/-- The transport fields of the packet. -/
theorem transportToUpLevel_eq_ok {pkt : ℕ} {isfrag : Bool} {r : ℤ} {q q' : Packet}
    (hports : q.szSourcePort = [] ∧ q.szDestPort = [] ∧ q.tcpFlags = 0)
    (hpkt : pkt = ipHeaderLen m)
    (h : transportToUpLevel m pkt caplen isfrag (m 9) q = .ok (r, q')) :
    (m 9 = ipprotoTcp ∨ m 9 = ipprotoUdp ∨ m 9 = ipprotoIcmp) ∧ q' = { q with
      szProtocol := protocolText m
      szSourcePort := portField m (rawSport m)
      szDestPort := portField m (rawDport m)
      tcpFlags := rawFlags m } := by
  subst hpkt
  obtain ⟨hsport, hdport, hflags⟩ := hports
  have hne : ipprotoUdp ≠ ipprotoTcp := by decide
  have hne' : ipprotoIcmp ≠ ipprotoTcp ∧ ipprotoIcmp ≠ ipprotoUdp := by decide
  unfold transportToUpLevel at h
  split at h
  · rename_i htcp
    have hp : m 9 = ipprotoTcp := htcp
    obtain ⟨-, rfl⟩ := Prod.mk.inj (Except.ok.inj h)
    simp [hp, protocolText, portField, rawSport, rawDport, rawFlags]
  split at h
  · rename_i hudp
    have hp : m 9 = ipprotoUdp := hudp
    obtain ⟨-, rfl⟩ := Prod.mk.inj (Except.ok.inj h)
    simp [hp, hne, protocolText, portField, rawSport, rawDport, rawFlags, hflags]
  split at h
  · rename_i hicmp
    have hp : m 9 = ipprotoIcmp := hicmp
    obtain ⟨-, rfl⟩ := Prod.mk.inj (Except.ok.inj h)
    simp [hp, hne', protocolText, portField, rawFlags, hsport, hdport, hflags]
  · cases h

/-- The packet that is produced, from the bytes of the header. -/
theorem Produced.eq_sentPacket (h : Produced m caplen o p) :
    (m 9 = ipprotoTcp ∨ m 9 = ipprotoUdp ∨ m 9 = ipprotoIcmp) ∧ p = sentPacket m o := by
  obtain ⟨r, q, isfrag, hlevel, rfl⟩ := h
  unfold ipv4ToUpLevel at hlevel
  dsimp only at hlevel
  split at hlevel
  · cases hlevel
  split at hlevel
  · cases hlevel
  obtain ⟨⟨r', q'⟩, htransport, hret⟩ := bind_eq_ok.mp hlevel
  obtain ⟨rfl, hpair⟩ := Prod.mk.inj (Option.some.inj (Except.ok.inj hret))
  obtain ⟨rfl, rfl⟩ := Prod.mk.inj hpair
  obtain ⟨hprotocol, rfl⟩ := transportToUpLevel_eq_ok (by split <;> exact ⟨rfl, rfl, rfl⟩) rfl
    htransport
  refine ⟨hprotocol, ?_⟩
  have hfrag : (((m 6).toNat * 256 + (m 7).toNat) % 0x4000 != 0) = ipIsFrag m := rfl
  have hoff : ((m 6).toNat * 256 + (m 7).toNat) % 0x2000 ≠ 0 ↔ ipHasOffset m = true := by
    simp [ipHasOffset, ipOff]
  unfold sentPacket fragmentNumber
  simp only [hfrag, hoff]
  -- a later fragment, a first one, and a packet that is none
  cases hlater : ipHasOffset m with
  | true =>
    rw [ipIsFrag_of_hasOffset hlater]
    rfl
  | false =>
    cases ipIsFrag m with
    | true => rfl
    | false => rfl

/-- Every packet of a known protocol with a complete IP header is sent. -/
theorem produced_sentPacket (hmin : 20 ≤ caplen) (hlen : ipHeaderLen m ≤ caplen)
    (hversion : ipVersion m = 4)
    (hprotocol : m 9 = ipprotoTcp ∨ m 9 = ipprotoUdp ∨ m 9 = ipprotoIcmp) :
    Produced m caplen o (sentPacket m o) := by
  have hrunt : ¬ (caplen < 20 ∨ caplen < (m 0).toNat % 16 * 4) :=
    not_or.mpr ⟨not_lt.mpr hmin, not_lt.mpr hlen⟩
  have hv : ¬ (m 0).toNat / 16 ≠ 4 := not_not_intro hversion
  have htransport : ∀ pkt caplen isfrag q, ∃ x,
      transportToUpLevel m pkt caplen isfrag (m 9) q = .ok x := by
    intro pkt caplen isfrag q
    rcases hprotocol with hp | hp | hp <;> rw [hp] <;> exact ⟨_, rfl⟩
  obtain ⟨r, q, isfrag, hlevel⟩ : ∃ r q isfrag,
      ipv4ToUpLevel m caplen o.packet = .ok (some (r, q, isfrag)) := by
    unfold ipv4ToUpLevel
    simp only [if_neg hrunt, if_neg hv]
    obtain ⟨⟨r, q⟩, hx⟩ := htransport ((m 0).toNat % 16 * 4) (caplen - (m 0).toNat % 16 * 4) _ _
    exact ⟨r, q, _, bind_eq_ok.mpr ⟨_, hx, rfl⟩⟩
  -- the packet that is produced is the one that is sent, whatever the walk has returned
  have hproduced : Produced m caplen o (if isfrag then { q with fragment := true } else q) :=
    ⟨r, q, isfrag, hlevel, rfl⟩
  exact hproduced.eq_sentPacket.2 ▸ hproduced

/-! ## Its message -/

/-- The fragment number has 16 bits. -/
theorem fragmentNumber_lt (m : Mem) : fragmentNumber m < 65536 := by
  have h₆ := (m 6).toNat_lt
  have h₇ := (m 7).toNat_lt
  unfold fragmentNumber ipOff
  split <;> omega

/-- The sequence number is printed in full. -/
theorem fragmentSeqText_sentPacket (m : Mem) (o : Origin) :
    fragmentSeqText (sentPacket m o) = digitText (fragmentNumber m) := by
  have hlt := fragmentNumber_lt m
  have hnat : (UInt64.ofNat (fragmentNumber m)).toNat = fragmentNumber m := by
    rw [UInt64.toNat_ofNat']
    omega
  have hmod : ((fragmentNumber m : ℕ) : ℤ).bmod (2 ^ 32) = (fragmentNumber m : ℤ) := by
    rw [Int.bmod_eq_of_le (by omega) (by omega)]
  change decimal (((UInt64.ofNat (fragmentNumber m)).toNat : ℤ).bmod (2 ^ 32)) = _
  rw [hnat, hmod]
  rfl

/-- The three protocols. -/
theorem protocolText_cases (m : Mem) :
    m 9 = ipprotoTcp ∧ protocolText m = ascii "TCP" ∨
      m 9 ≠ ipprotoTcp ∧ (protocolText m = ascii "UDP" ∨ protocolText m = ascii "ICMP") := by
  unfold protocolText
  split_ifs with htcp hudp
  · exact .inl ⟨htcp, rfl⟩
  · exact .inr ⟨htcp, .inl rfl⟩
  · exact .inr ⟨htcp, .inr rfl⟩

/-- The text `TCP` is that of TCP packets. -/
theorem protocolText_eq_tcp_iff : protocolText m = ascii "TCP" ↔ m 9 = ipprotoTcp := by
  have hudp : ascii "UDP" ≠ ascii "TCP" := by decide
  have hicmp : ascii "ICMP" ≠ ascii "TCP" := by decide
  rcases protocolText_cases m with ⟨hp, htext⟩ | ⟨hp, htext | htext⟩
  · exact iff_of_true htext hp
  · exact iff_of_false (htext.trans_ne hudp) hp
  · exact iff_of_false (htext.trans_ne hicmp) hp

/-- The protocol is one of the three. -/
theorem sentPacket_knownProtocol (m : Mem) (o : Origin) : KnownProtocol (sentPacket m o) := by
  rcases protocolText_cases m with ⟨-, htext⟩ | ⟨-, htext | htext⟩
  · exact .inl htext
  · exact .inr (.inl htext)
  · exact .inr (.inr htext)

/-- Only an ICMP packet has no ports. -/
theorem portField_ne_nil (m : Mem) (port : UInt16) :
    portField m port ≠ [] ∨ protocolText m = ascii "ICMP" := by
  unfold portField protocolText
  by_cases htcp : m 9 = ipprotoTcp
  · rw [if_pos (.inl htcp)]
    exact .inl (digitText_ne_nil _)
  by_cases hudp : m 9 = ipprotoUdp
  · rw [if_pos (.inr hudp)]
    exact .inl (digitText_ne_nil _)
  · rw [if_neg htcp, if_neg hudp]
    exact .inr rfl

/-- The packet can be sent. -/
theorem sentPacket_sendable (m : Mem) (o : Origin) : Sendable (sentPacket m o) where
  node := Int.natCast_nonneg _
  monitor := inetNtoa_ne_nil _
  source := inetNtoa_ne_nil _
  dest := inetNtoa_ne_nil _
  length := Int.natCast_nonneg _
  sourcePort := portField_ne_nil m _
  destPort := portField_ne_nil m _
  asSource := Int.natCast_nonneg _
  asDest := Int.natCast_nonneg _
  protocol := by
    change protocolText m ≠ []
    rcases protocolText_cases m with ⟨-, htext⟩ | ⟨-, htext | htext⟩ <;> rw [htext] <;> decide

/-- Of the numbers that are printed, only the seconds can be too long. -/
theorem sentPacket_fits_iff (ho : Dispatched o) :
    Fits (sentPacket m o) ↔ o.second.toNat < 10 ^ 9 := by
  refine ⟨fun h => length_digitText_lt_ten_iff.mp h.second, fun h => ?_⟩
  have hfrag : (fragmentSeqText (sentPacket m o)).length < 10 := by
    rw [fragmentSeqText_sentPacket]
    exact length_digitText_lt_ten_iff.mpr ((fragmentNumber_lt m).trans (by norm_num))
  exact ⟨length_digitText_lt_ten_iff.mpr (ipLen_lt m), length_digitText_lt_ten_iff.mpr h,
    length_digitText_lt_ten_iff.mpr (ho.usecond.trans (by norm_num)),
    length_digitText_lt_ten_iff.mpr (ho.asSource.2.trans_lt (by norm_num)),
    length_digitText_lt_ten_iff.mpr (ho.asDest.2.trans_lt (by norm_num)), fun _ _ => hfrag⟩

/-- The message is there exactly when the seconds can be printed. -/
theorem getPacketMessage_sentPacket_iff (ho : Dispatched o) {msg : Text} :
    getPacketMessage (sentPacket m o) = .ok msg ↔
      o.second.toNat < 10 ^ 9 ∧ msg = joinWith sep (fields (sentPacket m o)) := by
  constructor
  · intro h
    obtain ⟨hfits, -, hmsg⟩ := getPacketMessage_eq_ok (sentPacket_knownProtocol m o) h
    exact ⟨(sentPacket_fits_iff ho).mp hfits, hmsg⟩
  · rintro ⟨hsec, rfl⟩
    exact getPacketMessage_eq_joinWith (sentPacket_knownProtocol m o) (sentPacket_sendable m o)
      ((sentPacket_fits_iff ho).mpr hsec)

/-! ## Widths -/

/-- What the separators add to a message. -/
theorem length_message_le_iff (p : Packet) :
    (joinWith sep (fields p)).length ≤ 99 ↔ ((fields p).map List.length).sum ≤ 85 := by
  have hlen := length_joinWith sep (show fields p ≠ [] from fun h => nomatch h)
  have hcount : (fields p).length = 15 := by
    simp only [fields, List.length_append, length_transportFields]
    rfl
  omega

/-- The length of the fields of a message. -/
theorem sum_fields (p : Packet) : ((fields p).map List.length).sum =
    ((leadingFields p).map List.length).sum + ((transportFields p).map List.length).sum + 1 := by
  have hforwarded : (forwardedMark p).length = 1 := by
    unfold forwardedMark
    split <;> decide
  simp only [fields, List.map_append, List.sum_append, List.map_cons, List.map_nil, List.sum_cons,
    List.sum_nil, hforwarded]
  omega

/-- The length of a packet has at most five digits. -/
theorem ipLen_lt_ten_pow (m : Mem) : ipLen m < 10 ^ 5 := by
  have h₂ := (m 2).toNat_lt
  have h₃ := (m 3).toNat_lt
  unfold ipLen
  omega

/-- A port has at most five digits. -/
theorem length_shownPort_le (m : Mem) (port : UInt16) :
    (shownPort (portField m port)).length ≤ 5 := by
  unfold shownPort
  split
  · decide
  unfold portField
  split
  · exact (length_digitText_le_iff (by norm_num)).mpr (port.toNat_lt.trans (by norm_num))
  · exact Nat.zero_le 5

/-- The widths of the fields before those of the transport protocol, at most. -/
theorem sum_leadingFields_le (ho : Dispatched o) (hsec : o.second.toNat < 10 ^ 9) :
    ((leadingFields (sentPacket m o)).map List.length).sum ≤ 79 + (protocolText m).length := by
  have hmonitor := length_inetNtoa_le o.monitor
  have hsrc := length_inetNtoa_le (m.octets 12 4)
  have hdst := length_inetNtoa_le (m.octets 16 4)
  have hnumber : ∀ {n : ℕ} (k : ℕ), 1 ≤ k → n < 10 ^ k → (digitText n).length ≤ k :=
    fun _ hk hn => (length_digitText_le_iff hk).mpr hn
  have hlen := hnumber 5 (by norm_num) (ipLen_lt_ten_pow m)
  have hsecond := hnumber 9 (by norm_num) hsec
  have husecond := hnumber 6 (by norm_num) ho.usecond
  have hasSource := hnumber 2 (by norm_num) (ho.asSource.2.trans_lt (by norm_num))
  have hasDest := hnumber 2 (by norm_num) (ho.asDest.2.trans_lt (by norm_num))
  have hsport := length_shownPort_le m (rawSport m)
  have hdport := length_shownPort_le m (rawDport m)
  change ((([inetNtoa o.monitor, inetNtoa (m.octets 12 4), inetNtoa (m.octets 16 4),
    digitText (ipLen m), digitText o.second.toNat, digitText o.usecond.toNat,
    shownPort (portField m (rawSport m)), shownPort (portField m (rawDport m)),
    digitText o.asSource, digitText o.asDest, protocolText m] : List Text)).map List.length).sum ≤ _
  simp only [List.map_cons, List.map_nil, List.sum_cons, List.sum_nil]
  omega

/-- The flag byte has no width when it is zero. -/
theorem length_flagByte (m : Mem) (o : Origin) :
    (flagByte (sentPacket m o)).length = if rawFlags m = 0 then 0 else 1 := by
  have hdef : (sentPacket m o).tcpFlags = rawFlags m := rfl
  unfold flagByte
  rw [hdef]
  split <;> rfl

/-- The fields of the transport protocol: a fragment mark, the number of a fragment, and the
flags. -/
theorem sum_transportFields (m : Mem) (o : Origin) :
    ((transportFields (sentPacket m o)).map List.length).sum =
      if m 9 = ipprotoTcp then
        1 + (if ipIsFrag m then (digitText (fragmentNumber m)).length else 0) +
          (if rawFlags m = 0 then 0 else 1)
      else 0 := by
  have hprotocol : (sentPacket m o).szProtocol = protocolText m := rfl
  have hmark : (fragmentMark (sentPacket m o)).length = 1 := by
    unfold fragmentMark
    split <;> decide
  have hnumber : (fragmentOffset (sentPacket m o)).length =
      if ipIsFrag m then (digitText (fragmentNumber m)).length else 0 := by
    rw [fragmentOffset, fragmentSeqText_sentPacket]
    change (if ipIsFrag m then _ else _ : Text).length = _
    split <;> rfl
  unfold transportFields
  simp only [hprotocol, protocolText_eq_tcp_iff]
  split
  · simp only [List.map_cons, List.map_nil, List.sum_cons, List.sum_nil, hmark, hnumber,
      length_flagByte]
    omega
  · rfl

/-- The width of the addresses and numbers of a TCP fragment, its number and flags included. -/
def fragmentWidth (m : Mem) (o : Origin) : ℕ :=
  ((shownTexts m o).map List.length).sum + (digitText (fragmentNumber m)).length +
    if rawFlags m = 0 then 0 else 1

/-- The fields of a TCP fragment. -/
theorem sum_fields_fragment (htcp : m 9 = ipprotoTcp) (hfrag : ipIsFrag m = true) (o : Origin) :
    ((fields (sentPacket m o)).map List.length).sum = fragmentWidth m o + 5 := by
  have hport : ∀ port, shownPort (portField m port) = digitText port.toNat := by
    intro port
    rw [portField, if_pos (.inl htcp)]
    exact if_neg (digitText_ne_nil _)
  have hleading : leadingFields (sentPacket m o) = shownTexts m o ++ [ascii "TCP"] := by
    change [inetNtoa o.monitor, inetNtoa (m.octets 12 4), inetNtoa (m.octets 16 4),
      digitText (ipLen m), digitText o.second.toNat, digitText o.usecond.toNat,
      shownPort (portField m (rawSport m)), shownPort (portField m (rawDport m)),
      digitText o.asSource, digitText o.asDest, protocolText m] = _
    rw [hport, hport, protocolText_eq_tcp_iff.mpr htcp]
    rfl
  have hlen : (ascii "TCP").length = 3 := by decide
  rw [sum_fields, sum_transportFields, if_pos htcp, if_pos hfrag, hleading, fragmentWidth]
  simp only [List.map_append, List.sum_append, List.map_cons, List.map_nil, List.sum_cons,
    List.sum_nil, hlen]
  omega

/-- The fields of any other packet. -/
theorem sum_fields_le (ho : Dispatched o) (hsec : o.second.toNat < 10 ^ 9)
    (h : ¬ (m 9 = ipprotoTcp ∧ ipIsFrag m = true)) :
    ((fields (sentPacket m o)).map List.length).sum ≤ 85 := by
  have hleading := sum_leadingFields_le (m := m) ho hsec
  rw [sum_fields, sum_transportFields]
  rcases protocolText_cases m with ⟨hp, htext⟩ | ⟨hp, htext⟩
  · have hlen : (protocolText m).length = 3 := by rw [htext]; decide
    have hfrag : ¬ ipIsFrag m = true := fun hf => h ⟨hp, hf⟩
    rw [if_pos hp, if_neg hfrag]
    split <;> omega
  · have hlen : (protocolText m).length ≤ 4 := by
      rcases htext with htext | htext <;> rw [htext] <;> decide
    rw [if_neg hp]
    omega

/-- **Message size.** The message of a packet is there and fits the copies softflowd makes of it
exactly when its seconds have at most nine digits and, for a TCP fragment, the addresses and numbers
leave room for the rest. -/
theorem messageFits_iff (h : Produced m caplen o p) (ho : Dispatched o) :
    (∃ msg, getPacketMessage p = .ok msg ∧ msg.length ≤ 99) ↔
      o.second.toNat < 10 ^ 9 ∧
        (m 9 = ipprotoTcp ∧ ipIsFrag m = true → fragmentWidth m o ≤ 80) := by
  obtain ⟨-, rfl⟩ := h.eq_sentPacket
  have hmsg : (∃ msg, getPacketMessage (sentPacket m o) = .ok msg ∧ msg.length ≤ 99) ↔
      o.second.toNat < 10 ^ 9 ∧ ((fields (sentPacket m o)).map List.length).sum ≤ 85 := by
    simp only [getPacketMessage_sentPacket_iff ho, and_assoc, exists_and_left, exists_eq_left,
      length_message_le_iff]
  rw [hmsg]
  -- only a TCP fragment can be too wide: its number comes on top of the other maxima
  refine and_congr_right fun hsec => ?_
  by_cases hfrag : m 9 = ipprotoTcp ∧ ipIsFrag m = true
  · rw [sum_fields_fragment hfrag.1 hfrag.2]
    exact ⟨fun hle _ => by omega, fun hle => by have := hle hfrag; omega⟩
  · exact iff_of_true (sum_fields_le ho hsec hfrag) fun hf => absurd hf hfrag

/-- A TCP packet from 100.100.100.100 to 200.200.200.200, of which 40 bytes have been captured. -/
def widePacket (off off' : UInt8) : Mem := fun i =>
  [0x45, 0, 0xff, 0xff, 0, 0, off, off', 64, 6, 0, 0, 100, 100, 100, 100, 200, 200, 200, 200,
    0xff, 0xff, 0xff, 0xff].getD i 1

/-- It has been seen by 192.168.100.100, at the given second. -/
def wideOrigin (second : UInt32) : Origin where
  monitor := ![192, 168, 100, 100]
  second := second
  usecond := 999999
  asSource := 99
  asDest := 99

/-- The origin with the longest texts is one that is dispatched. -/
theorem wideOrigin_dispatched (second : UInt32) : Dispatched (wideOrigin second) where
  usecond := by
    change (999999 : UInt32).toNat < 10 ^ 6
    decide
  asSource := ⟨Nat.le_add_left 1 98, Nat.le_refl 99⟩
  asDest := ⟨Nat.le_add_left 1 98, Nat.le_refl 99⟩

/-- The packet with the longest texts is produced. -/
theorem widePacket_produced (off off' : UInt8) (second : UInt32) :
    Produced (widePacket off off') 40 (wideOrigin second)
      (sentPacket (widePacket off off') (wideOrigin second)) := by
  have hlen : ipHeaderLen (widePacket off off') = 20 := by simp [ipHeaderLen, widePacket]
  have hversion : ipVersion (widePacket off off') = 4 := by simp [ipVersion, widePacket]
  exact produced_sentPacket (by decide) (by rw [hlen]; decide) hversion (.inl rfl)

/-- The message of the packet, when it is no fragment, has all of the 99 bytes. -/
theorem messageFits_wide : ∃ msg,
    getPacketMessage (sentPacket (widePacket 0 0) (wideOrigin 999999999)) = .ok msg ∧
      msg.length ≤ 99 :=
  (messageFits_iff (widePacket_produced 0 0 _) (wideOrigin_dispatched _)).mpr
    ⟨by decide, fun hfrag => absurd hfrag.2 (by decide)⟩

/-- At a later time its seconds overflow the print buffer, and the message of a fragment of it
overflows the copies. -/
theorem messageTooLong :
    (∃ p, Produced (widePacket 0 0) 40 (wideOrigin 1000000000) p ∧
      getPacketMessage p = .error .overflow) ∧
    ∃ p msg, Produced (widePacket 0x3f 0xff) 40 (wideOrigin 999999999) p ∧
      getPacketMessage p = .ok msg ∧ msg.length = 104 := by
  refine ⟨⟨_, widePacket_produced 0 0 _, by decide +kernel⟩, _,
    joinWith sep (fields (sentPacket (widePacket 0x3f 0xff) (wideOrigin 999999999))),
    widePacket_produced 0x3f 0xff _, ?_, ?_⟩
  · exact (getPacketMessage_sentPacket_iff (wideOrigin_dispatched _)).mpr ⟨by decide, rfl⟩
  · decide +kernel

end Pipeline
