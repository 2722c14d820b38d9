import NetworkMonitoring.Foundations.ErrorLoops
import NetworkMonitoring.Nsp.Packet
import NetworkMonitoring.Softflowd.Emulator

/-!
# From a packet of the emulator to the fields softflowd reads

`GetPacketMessage` of the NSP prints a packet as fifteen fields, and `get_emulator_packet_part` of
softflowd takes them apart again. `Packet.fields` says which fields a packet has.

## Main results

* `emulatorMessage_roundTrip_iff`: softflowd reads back all fields exactly when the numbers of the
  packet fit the print buffer and the TCP flags are not the separator `#`;
* `emulatorMessage_flags_lost`: a TCP packet with FIN, SYN and URG set.
-/

namespace Pipeline

open CText ErrorLoops Nsp Softflowd

/-! ## The fields of a message -/

/-- The separator `#`. -/
abbrev sep : UInt8 := 35

/-- A port as a message shows it. -/
def shownPort (port : Text) : Text := if port = [] then ascii "0" else port

/-- The fragment mark of a TCP packet. -/
def fragmentMark (p : Packet) : Text := if p.fragment then ascii "1" else ascii "0"

/-- The fragment offset of a TCP packet. -/
def fragmentOffset (p : Packet) : Text := if p.fragment then fragmentSeqText p else []

/-- The flag byte of a TCP packet. -/
def flagByte (p : Packet) : Text := if p.tcpFlags = 0 then [] else [p.tcpFlags]

/-- The fragment mark, the fragment offset and the flag byte. -/
def transportFields (p : Packet) : List Text :=
  if p.szProtocol = ascii "TCP" then [fragmentMark p, fragmentOffset p, flagByte p]
  else [[], [], []]

/-- The fields before those of the transport protocol. -/
def leadingFields (p : Packet) : List Text :=
  [p.szMonitorIp, p.szIpSource, p.szIpDest, decimal p.lLength, digitText p.second.toNat,
    digitText p.usecond.toNat, shownPort p.szSourcePort, shownPort p.szDestPort,
    decimal p.iAsSourceNumber, decimal p.iAsDestNumber, p.szProtocol]

/-- The forwarded mark. -/
def forwardedMark (p : Packet) : Text := if p.forwardedToSoftflowd then ascii "1" else ascii "0"

/-- The fifteen fields of a message. -/
def fields (p : Packet) : List Text := leadingFields p ++ (transportFields p ++ [forwardedMark p])

/-- The numbers of a packet fit the buffer they are printed into. -/
structure Fits (p : Packet) : Prop where
  length : (decimal p.lLength).length < 10
  second : (digitText p.second.toNat).length < 10
  usecond : (digitText p.usecond.toNat).length < 10
  asSource : (decimal p.iAsSourceNumber).length < 10
  asDest : (decimal p.iAsDestNumber).length < 10
  fragment : p.szProtocol = ascii "TCP" → p.fragment = true →
    (fragmentSeqText p).length < 10

/-- One of the protocols the emulator knows. -/
def KnownProtocol (p : Packet) : Prop :=
  p.szProtocol = ascii "TCP" ∨ p.szProtocol = ascii "UDP" ∨ p.szProtocol = ascii "ICMP"

/-- The texts of a packet do not contain the separator. -/
structure SepFree (p : Packet) : Prop where
  monitor : sep ∉ p.szMonitorIp
  source : sep ∉ p.szIpSource
  dest : sep ∉ p.szIpDest
  sourcePort : sep ∉ p.szSourcePort
  destPort : sep ∉ p.szDestPort

/-! ## What `GetPacketMessage` prints -/

theorem sprintf_eq_ok {s t : Text} : sprintf s = .ok t ↔ s.length < 10 ∧ s = t := by
  unfold sprintf
  split <;> simp_all

theorem throwIf_eq_ok {c : Prop} [Decidable c] {what : String} :
    throwIf c what = .ok () ↔ ¬ c := by
  unfold throwIf
  split <;> simp_all

theorem portText_eq_ok {p : Packet} {port t : Text} {what : String}
    (h : portText p port what = .ok t) : t = shownPort port := by
  unfold portText at h
  unfold shownPort
  split at h
  · rename_i hpos
    rw [if_neg (List.length_pos_iff.mp hpos)]
    exact (Except.ok.inj h).symm
  · rename_i hpos
    rw [if_pos (List.length_eq_zero_iff.mp (Nat.eq_zero_of_not_pos hpos))]
    split at h
    · exact (Except.ok.inj h).symm
    · cases h

/-- The fragment fields, with the separators before them. -/
theorem fragmentFields_eq_ok {p : Packet} {t : Text} (h : fragmentFields p = .ok t) :
    (p.fragment = true → (fragmentSeqText p).length < 10) ∧
      t = sep :: (fragmentMark p ++ sep :: fragmentOffset p) := by
  unfold fragmentFields at h
  unfold fragmentMark fragmentOffset
  generalize fragmentSeqText p = seqText at h ⊢
  -- without a fragment there is a constant text, otherwise the sequence number is printed
  cases hf : p.fragment with
  | false =>
    rw [hf] at h
    have hmark : ascii "#0#" = sep :: (ascii "0" ++ [sep]) := by decide
    refine ⟨fun h => absurd h Bool.false_ne_true, (Except.ok.inj h).symm.trans ?_⟩
    rw [if_neg Bool.false_ne_true, if_neg Bool.false_ne_true, hmark]
  | true =>
    rw [hf, if_pos rfl] at h
    cases hseq : sprintf seqText with
    | error e =>
      rw [hseq] at h
      cases h
    | ok seq =>
      rw [hseq] at h
      obtain ⟨hlen, rfl⟩ := sprintf_eq_ok.mp hseq
      have hmark : ascii "#1#" = sep :: (ascii "1" ++ [sep]) := by decide
      refine ⟨fun _ => hlen, (Except.ok.inj h).symm.trans ?_⟩
      rw [if_pos rfl, if_pos rfl, hmark]
      simp only [List.cons_append, List.append_assoc, List.nil_append]

/-- The transport fields, with the separators before them. -/
theorem protocolFields_eq_ok {p : Packet} {t : Text} (hp : KnownProtocol p)
    (h : protocolFields p = .ok t) :
    (p.szProtocol = ascii "TCP" → p.fragment = true → (fragmentSeqText p).length < 10) ∧
    ∀ x y, joinWith sep (x :: (transportFields p ++ [y])) = x ++ (t ++ sep :: y) := by
  have hudp : ascii "UDP" ≠ ascii "TCP" := by decide
  have hicmp : ascii "ICMP" ≠ ascii "TCP" ∧ ascii "ICMP" ≠ ascii "UDP" := by decide
  have hthree : ascii "###" = [sep, sep, sep] := by decide
  unfold protocolFields at h
  -- for TCP there are fields, for UDP and ICMP the separators only
  rcases hp with hp | hp | hp
  · rw [if_neg (hp.trans_ne hudp.symm), if_pos hp] at h
    obtain ⟨frag, hfrag, h⟩ := bind_eq_ok.mp h
    obtain ⟨hfits, rfl⟩ := fragmentFields_eq_ok hfrag
    have hone : ascii "#" = [sep] := by decide
    have hflags : (if p.tcpFlags = 0 then [] else [p.tcpFlags]) = flagByte p := rfl
    rw [hone, hflags] at h
    refine ⟨fun _ => hfits, fun x y => ?_⟩
    rw [transportFields, if_pos hp, ← Except.ok.inj h]
    simp only [joinWith, List.cons_append, List.nil_append, List.append_assoc]
  · rw [if_pos hp] at h
    refine ⟨fun htcp => absurd (hp.symm.trans htcp) hudp, fun x y => ?_⟩
    rw [transportFields, if_neg (hp.trans_ne hudp), ← Except.ok.inj h, hthree]
    simp only [joinWith, List.cons_append, List.nil_append]
  · rw [if_neg (hp.trans_ne hicmp.2), if_neg (hp.trans_ne hicmp.1), if_pos hp] at h
    refine ⟨fun htcp => absurd (hp.symm.trans htcp) hicmp.1, fun x y => ?_⟩
    rw [transportFields, if_neg (hp.trans_ne hicmp.1), ← Except.ok.inj h, hthree]
    simp only [joinWith, List.cons_append, List.nil_append]

/-- A message is the fields of the packet. -/
theorem getPacketMessage_eq_ok {p : Packet} {msg : Text} (hp : KnownProtocol p)
    (h : getPacketMessage p = .ok msg) :
    Fits p ∧ p.szMonitorIp ≠ [] ∧ msg = joinWith sep (fields p) := by
  -- the statements of `GetPacketMessage`, one after the other
  obtain ⟨⟨⟩, hnode, h⟩ := bind_eq_ok.mp h
  obtain ⟨⟨⟩, -, h⟩ := bind_eq_ok.mp h
  obtain ⟨⟨⟩, -, h⟩ := bind_eq_ok.mp h
  obtain ⟨⟨⟩, -, h⟩ := bind_eq_ok.mp h
  obtain ⟨len, hlen, h⟩ := bind_eq_ok.mp h
  obtain ⟨sec, hsec, h⟩ := bind_eq_ok.mp h
  obtain ⟨usec, husec, h⟩ := bind_eq_ok.mp h
  obtain ⟨sport, hsport, h⟩ := bind_eq_ok.mp h
  obtain ⟨dport, hdport, h⟩ := bind_eq_ok.mp h
  obtain ⟨⟨⟩, -, h⟩ := bind_eq_ok.mp h
  obtain ⟨asSrc, hasSrc, h⟩ := bind_eq_ok.mp h
  obtain ⟨⟨⟩, -, h⟩ := bind_eq_ok.mp h
  obtain ⟨asDst, hasDst, h⟩ := bind_eq_ok.mp h
  obtain ⟨⟨⟩, -, h⟩ := bind_eq_ok.mp h
  obtain ⟨transport, htransport, h⟩ := bind_eq_ok.mp h
  obtain rfl := Except.ok.inj h
  obtain ⟨hlenFits, rfl⟩ := sprintf_eq_ok.mp hlen
  obtain ⟨hsecFits, rfl⟩ := sprintf_eq_ok.mp hsec
  obtain ⟨husecFits, rfl⟩ := sprintf_eq_ok.mp husec
  obtain ⟨hasSrcFits, rfl⟩ := sprintf_eq_ok.mp hasSrc
  obtain ⟨hasDstFits, rfl⟩ := sprintf_eq_ok.mp hasDst
  obtain rfl := portText_eq_ok hsport
  obtain rfl := portText_eq_ok hdport
  obtain ⟨hfrag, hjoin⟩ := protocolFields_eq_ok hp htransport
  have hmon : p.szMonitorIp ≠ [] := by
    rintro hnil
    refine throwIf_eq_ok.mp hnode (.inr ?_)
    rw [hnil]
    exact Nat.le_refl 0
  refine ⟨⟨hlenFits, hsecFits, husecFits, hasSrcFits, hasDstFits, hfrag⟩, hmon, ?_⟩
  have hone : ascii "#" = [sep] := by decide
  have htail := hjoin p.szProtocol (forwardedMark p)
  have hmark : (if p.forwardedToSoftflowd then ascii "1" else ascii "0") = forwardedMark p := rfl
  simp only [fields, leadingFields, List.cons_append, List.nil_append, joinWith, htail, hone,
    hmark, List.append_assoc]

/-- Numbers that fit are not written behind the buffer. -/
theorem getPacketMessage_ne_overflow {p : Packet} (h : Fits p) :
    getPacketMessage p ≠ .error .overflow := by
  -- no check and no number that fits overflows the print buffer
  have hsprintf : ∀ {s : Text}, s.length < 10 → sprintf s ≠ .error .overflow := by
    intro s hs
    rw [sprintf, if_pos hs]
    exact ok_ne_error
  have hthrow : ∀ (c : Prop) [Decidable c] (what : String),
      throwIf c what ≠ .error .overflow := by
    intro c _ what
    unfold throwIf
    split <;> simp
  have hport : ∀ (port : Text) (what : String), portText p port what ≠ .error .overflow := by
    intro port what
    unfold portText
    split
    · simp
    · split <;> simp
  have hprotocol : protocolFields p ≠ .error .overflow := by
    unfold protocolFields
    split
    · simp
    · split
      · rename_i htcp
        refine bind_ne_error ?_ fun _ _ h => nomatch h
        unfold fragmentFields
        split
        · rename_i hf
          rw [sprintf, if_pos (h.fragment htcp hf)]
          exact ok_ne_error
        · simp
      · split <;> simp
  refine bind_ne_error (hthrow _ _) fun _ _ => ?_
  refine bind_ne_error (hthrow _ _) fun _ _ => ?_
  refine bind_ne_error (hthrow _ _) fun _ _ => ?_
  refine bind_ne_error (hthrow _ _) fun _ _ => ?_
  refine bind_ne_error (hsprintf h.length) fun _ _ => ?_
  refine bind_ne_error (hsprintf h.second) fun _ _ => ?_
  refine bind_ne_error (hsprintf h.usecond) fun _ _ => ?_
  refine bind_ne_error (hport _ _) fun _ _ => ?_
  refine bind_ne_error (hport _ _) fun _ _ => ?_
  refine bind_ne_error (hthrow _ _) fun _ _ => ?_
  refine bind_ne_error (hsprintf h.asSource) fun _ _ => ?_
  refine bind_ne_error (hthrow _ _) fun _ _ => ?_
  refine bind_ne_error (hsprintf h.asDest) fun _ _ => ?_
  refine bind_ne_error (hthrow _ _) fun _ _ => ?_
  refine bind_ne_error hprotocol fun _ _ => ?_
  exact ok_ne_error

/-! ## What `get_emulator_packet_part` reads -/

/-- The loop of the reader on the fields that are left. -/
theorem partLoop_joinWith {l : List Text} {i k : ℕ}
    (hlen : l.length + i = maxEmulatorMessageParts + 1) (hk : k < l.length)
    (hsep : ∀ f ∈ l.dropLast, sep ∉ f) :
    partLoop i k (joinWith sep l) = .ok (l.getD k []) := by
  induction k generalizing l i with
  | zero =>
    match l, hlen, hsep with
    | [x], hlen, _ =>
      have hi : i = maxEmulatorMessageParts := by simpa [Nat.add_comm] using hlen
      rw [partLoop, if_pos hi]
      rfl
    | x :: y :: ys, hlen, hsep =>
      -- the last part has no separator behind it, any other part has
      have hi : i ≠ maxEmulatorMessageParts := by
        simp only [List.length_cons] at hlen
        omega
      have hx : sep ∉ x := hsep x (by simp)
      rw [partLoop, if_neg hi, cut_joinWith hx]
      rfl
  | succ k ih =>
    match l, hlen, hk, hsep with
    | [x], _, hk, _ => exact absurd hk (by simp)
    | x :: y :: ys, hlen, hk, hsep =>
      have hi : i ≠ maxEmulatorMessageParts := by
        simp only [List.length_cons] at hlen
        omega
      have hx : sep ∉ x := hsep x (by simp)
      rw [partLoop, if_neg hi, cut_joinWith hx]
      refine (ih (l := y :: ys) ?_ ?_ ?_).trans rfl
      · simp only [List.length_cons] at hlen ⊢
        omega
      · simpa using hk
      · intro f hf
        apply hsep f
        rw [List.dropLast_cons_cons]
        exact List.mem_cons_of_mem x hf

/-- Softflowd reads back every field of a message of fifteen fields, if no field but the last one
has the separator in it and the first one is not empty. -/
theorem getEmulatorPacketPart_joinWith {x : Text} {fs : List Text} {k : ℕ}
    (hlen : fs.length = maxEmulatorMessageParts) (hk : k ≤ maxEmulatorMessageParts) (hx : x ≠ [])
    (hsep : ∀ f ∈ (x :: fs).dropLast, sep ∉ f) :
    getEmulatorPacketPart (joinWith sep (x :: fs)) k = .ok ((x :: fs).getD k []) := by
  obtain ⟨y, ys, rfl⟩ : ∃ y ys, fs = y :: ys :=
    List.exists_cons_of_ne_nil (List.ne_nil_of_length_eq_add_one hlen)
  have hxsep : sep ∉ x := hsep x (by simp)
  unfold getEmulatorPacketPart
  rw [if_pos hk]
  cases k with
  | zero =>
    rw [if_pos rfl, cut_joinWith hxsep]
    rfl
  | succ k =>
    obtain ⟨b, x', rfl⟩ := List.exists_cons_of_ne_nil hx
    -- the search for a later part starts behind the first character
    have hloop := partLoop_joinWith (l := x' :: y :: ys) (i := 0) (k := k + 1)
      (by rw [List.length_cons, hlen]) (by rw [List.length_cons, hlen]; omega)
      (by
        intro f hf
        rw [List.dropLast_cons_cons] at hf hsep
        rcases List.mem_cons.mp hf with rfl | hf
        · exact fun hmem => hxsep (List.mem_cons_of_mem b hmem)
        · exact hsep f (List.mem_cons_of_mem _ hf))
    rw [if_neg (Nat.succ_ne_zero k)]
    exact hloop

/-! ## The round trip -/

/-- Softflowd reads back every field of the message about a packet. -/
def RoundTrips (p : Packet) : Prop :=
  ∃ msg, getPacketMessage p = .ok msg ∧
    ∀ k ≤ maxEmulatorMessageParts, getEmulatorPacketPart msg k = .ok ((fields p).getD k [])

theorem not_mem_shownPort {port : Text} (h : sep ∉ port) : sep ∉ shownPort port := by
  unfold shownPort
  split
  · decide
  · exact h

theorem not_mem_leadingFields {p : Packet} (hp : KnownProtocol p) (h : SepFree p) :
    ∀ f ∈ leadingFields p, sep ∉ f := by
  have hdecimal : ∀ n, sep ∉ decimal n := not_mem_decimal (by decide) (by decide)
  have hdigits : ∀ n, sep ∉ digitText n := not_mem_digitText (by decide)
  have hprotocol : sep ∉ p.szProtocol := by
    rcases hp with hp | hp | hp <;> rw [hp] <;> decide
  intro f hf
  simp only [leadingFields, List.mem_cons, List.not_mem_nil, or_false] at hf
  rcases hf with rfl | rfl | rfl | rfl | rfl | rfl | rfl | rfl | rfl | rfl | rfl
  · exact h.monitor
  · exact h.source
  · exact h.dest
  · exact hdecimal _
  · exact hdigits _
  · exact hdigits _
  · exact not_mem_shownPort h.sourcePort
  · exact not_mem_shownPort h.destPort
  · exact hdecimal _
  · exact hdecimal _
  · exact hprotocol

theorem not_mem_fragmentMark (p : Packet) : sep ∉ fragmentMark p := by
  unfold fragmentMark
  split <;> decide

theorem not_mem_fragmentOffset (p : Packet) : sep ∉ fragmentOffset p := by
  unfold fragmentOffset
  split
  · exact not_mem_decimal (by decide) (by decide) _
  · exact List.not_mem_nil

theorem not_mem_transportFields {p : Packet}
    (h : ¬ (p.szProtocol = ascii "TCP" ∧ p.tcpFlags = sep)) :
    ∀ f ∈ transportFields p, sep ∉ f := by
  intro f hf
  unfold transportFields at hf
  split at hf
  · rename_i htcp
    simp only [List.mem_cons, List.not_mem_nil, or_false] at hf
    rcases hf with rfl | rfl | rfl
    · exact not_mem_fragmentMark p
    · exact not_mem_fragmentOffset p
    · unfold flagByte
      split
      · exact List.not_mem_nil
      · intro hmem
        exact h ⟨htcp, (List.mem_singleton.mp hmem).symm⟩
  · have hnil : f = [] := by simpa using hf
    rw [hnil]
    exact List.not_mem_nil

theorem length_transportFields (p : Packet) : (transportFields p).length = 3 := by
  unfold transportFields
  split <;> rfl

/-- Softflowd reads back the message of a packet without the separator in its flags. -/
theorem getEmulatorPacketPart_fields {p : Packet} {k : ℕ} (hp : KnownProtocol p)
    (hsep : SepFree p) (hmon : p.szMonitorIp ≠ [])
    (hflags : ¬ (p.szProtocol = ascii "TCP" ∧ p.tcpFlags = sep))
    (hk : k ≤ maxEmulatorMessageParts) :
    getEmulatorPacketPart (joinWith sep (fields p)) k = .ok ((fields p).getD k []) := by
  have hcons : fields p = p.szMonitorIp :: (fields p).tail := rfl
  have hlen : (fields p).tail.length = maxEmulatorMessageParts := by
    simp only [fields, List.length_tail, List.length_append, length_transportFields]
    rfl
  rw [hcons]
  refine getEmulatorPacketPart_joinWith hlen hk hmon fun f hf => ?_
  have hdrop : (fields p).dropLast = leadingFields p ++ transportFields p := by
    rw [fields, ← List.append_assoc, List.dropLast_concat]
  rw [← hcons, hdrop] at hf
  rcases List.mem_append.mp hf with hf | hf
  · exact not_mem_leadingFields hp hsep f hf
  · exact not_mem_transportFields hflags f hf

/-- The fields softflowd sees: the flag byte `#` of a TCP packet is taken for a separator. -/
def readFields (p : Packet) : List Text :=
  if p.szProtocol = ascii "TCP" ∧ p.tcpFlags = sep then
    leadingFields p ++ ([fragmentMark p, fragmentOffset p, []] ++ [sep :: forwardedMark p])
  else fields p

/-- What softflowd reads from the message about a packet. -/
theorem getEmulatorPacketPart_readFields {p : Packet} {k : ℕ} (hp : KnownProtocol p)
    (hsep : SepFree p) (hmon : p.szMonitorIp ≠ []) (hk : k ≤ maxEmulatorMessageParts) :
    getEmulatorPacketPart (joinWith sep (fields p)) k = .ok ((readFields p).getD k []) := by
  unfold readFields
  split
  · rename_i hflags
    -- a flag byte that is the separator makes an empty part, and joins the mark to a separator
    set fs := leadingFields p ++ ([fragmentMark p, fragmentOffset p, []] ++
      [sep :: forwardedMark p]) with hfs
    have hflag : flagByte p = [sep] := by
      rw [flagByte, hflags.2, if_neg (by decide)]
    have hsame : joinWith sep (fields p) = joinWith sep fs := by
      rw [fields, transportFields, if_pos hflags.1, hflag, hfs]
      simp only [leadingFields, List.cons_append, List.nil_append, joinWith]
    rw [hsame]
    refine getEmulatorPacketPart_joinWith (x := p.szMonitorIp) rfl hk hmon fun f hf => ?_
    have hdrop : fs.dropLast = leadingFields p ++ [fragmentMark p, fragmentOffset p, []] := by
      rw [hfs, ← List.append_assoc, List.dropLast_concat]
    have hmem : f ∈ leadingFields p ++ [fragmentMark p, fragmentOffset p, []] := hdrop ▸ hf
    rcases List.mem_append.mp hmem with hf | hf
    · exact not_mem_leadingFields hp hsep f hf
    · simp only [List.mem_cons, List.not_mem_nil, or_false] at hf
      rcases hf with rfl | rfl | rfl
      · exact not_mem_fragmentMark p
      · exact not_mem_fragmentOffset p
      · exact List.not_mem_nil
  · rename_i hflags
    exact getEmulatorPacketPart_fields hp hsep hmon hflags hk

/-- The flag byte as softflowd sees it. -/
theorem readFields_flagByte {p : Packet} (htcp : p.szProtocol = ascii "TCP") :
    (readFields p).getD 13 [] = if p.tcpFlags = sep then [] else flagByte p := by
  unfold readFields
  split
  · rename_i hflags
    rw [if_pos hflags.2]
    rfl
  · rename_i hflags
    rw [if_neg fun h => hflags ⟨htcp, h⟩, fields, transportFields, if_pos htcp]
    rfl

/-- **Message round trip.** For a packet `GetPacketMessage` does not reject, softflowd reads back
every field exactly when the numbers fit the print buffer and the flags of a TCP packet are not
the separator. -/
theorem emulatorMessage_roundTrip_iff {p : Packet} (hp : KnownProtocol p) (hsep : SepFree p)
    (haccept : ∀ what, getPacketMessage p ≠ .error (.exception what)) :
    RoundTrips p ↔ Fits p ∧ ¬ (p.szProtocol = ascii "TCP" ∧ p.tcpFlags = sep) := by
  constructor
  · rintro ⟨msg, hmsg, hparts⟩
    obtain ⟨hfits, hmon, rfl⟩ := getPacketMessage_eq_ok hp hmsg
    refine ⟨hfits, ?_⟩
    rintro ⟨htcp, hflags⟩
    -- part 13 is read as empty when the flags are the separator
    have hpart := hparts 13 (by decide)
    rw [getEmulatorPacketPart_readFields hp hsep hmon (by decide), readFields_flagByte htcp,
      if_pos hflags] at hpart
    have hfield : (fields p).getD 13 [] = flagByte p := by
      rw [fields, transportFields, if_pos htcp]
      rfl
    rw [hfield, flagByte, hflags, if_neg (by decide)] at hpart
    cases hpart
  · rintro ⟨hfits, hflags⟩
    cases hmsg : getPacketMessage p with
    | error e =>
      cases e with
      | exception what => exact absurd hmsg (haccept what)
      | overflow => exact absurd hmsg (getPacketMessage_ne_overflow hfits)
    | ok msg =>
      obtain ⟨-, hmon, rfl⟩ := getPacketMessage_eq_ok hp hmsg
      exact ⟨_, hmsg, fun k hk => getEmulatorPacketPart_fields hp hsep hmon hflags hk⟩

/-- A TCP packet from 1.2.3.4 to 5.6.7.8 with the given flags. -/
def samplePacket (flags : UInt8) : Packet where
  usecond := 2
  second := 1
  szMonitorIp := ascii "10.0.0.1"
  lLength := 100
  szIpSource := ascii "1.2.3.4"
  szIpDest := ascii "5.6.7.8"
  szSourcePort := ascii "80"
  szDestPort := ascii "443"
  szProtocol := ascii "TCP"
  iAsSourceNumber := 1
  iAsDestNumber := 2
  tcpFlags := flags

theorem samplePacket_sepFree (flags : UInt8) : SepFree (samplePacket flags) := by
  constructor <;> simp only [samplePacket] <;> decide

/-- The flags FIN, SYN and URG are the byte `#`. -/
theorem emulatorMessage_flags_lost :
    KnownProtocol (samplePacket 0x23) ∧ SepFree (samplePacket 0x23) ∧
      (∃ msg, getPacketMessage (samplePacket 0x23) = .ok msg ∧
        getEmulatorPacketPart msg 13 = .ok []) ∧
      ¬ RoundTrips (samplePacket 0x23) := by
  have hp : KnownProtocol (samplePacket 0x23) := .inl rfl
  have hpart : getEmulatorPacketPart (joinWith sep (fields (samplePacket 0x23))) 13 = .ok [] :=
    getEmulatorPacketPart_readFields hp (samplePacket_sepFree _) (by decide) (by decide)
  have hok : (getPacketMessage (samplePacket 0x23)).toBool = true := by decide +kernel
  refine ⟨hp, samplePacket_sepFree _, ?_, ?_⟩
  · cases hmsg : getPacketMessage (samplePacket 0x23) with
    | error e =>
      rw [hmsg] at hok
      cases hok
    | ok msg =>
      obtain ⟨-, -, rfl⟩ := getPacketMessage_eq_ok hp hmsg
      exact ⟨_, rfl, hpart⟩
  · rintro ⟨msg, hmsg, hparts⟩
    obtain ⟨-, -, rfl⟩ := getPacketMessage_eq_ok hp hmsg
    have hflags := hparts 13 (by decide)
    rw [hpart] at hflags
    cases hflags

/-- The flags FIN, SYN and PSH. -/
theorem emulatorMessage_roundTrip_iff_sample :
    (∃ msg, getPacketMessage (samplePacket 0x0b) = .ok msg) ∧ RoundTrips (samplePacket 0x0b) := by
  have hok : (getPacketMessage (samplePacket 0x0b)).toBool = true := by decide +kernel
  have haccept : ∀ what, getPacketMessage (samplePacket 0x0b) ≠ .error (.exception what) := by
    intro what h
    rw [h] at hok
    cases hok
  have hfits : Fits (samplePacket 0x0b) := by
    refine ⟨?_, ?_, ?_, ?_, ?_, fun _ hf => nomatch hf⟩ <;> decide +kernel
  have htrip := (emulatorMessage_roundTrip_iff (.inl rfl) (samplePacket_sepFree _) haccept).mpr
    ⟨hfits, fun h => absurd h.2 (by decide)⟩
  obtain ⟨msg, hmsg, -⟩ := id htrip
  exact ⟨⟨msg, hmsg⟩, htrip⟩

end Pipeline
