import NetworkMonitoring.Flowd.StoreReaders

/-!
# flowd — what is read of a buffer

`store_flow_deserialise` compares `len_words` with the length it is given, but nothing compares the
fields of the header with `len_words`. `StoreFlowComplete.needed` is the number of bytes that the
fields take, and a record is read within its own bytes exactly when they are not more than
`len_words` says.

## Main result

* `staysInside_iff`: which records are read within their own bytes.
-/

namespace Flowd

open Bytes InetText OptionalFields ErrorLoops

namespace StoreFlowComplete

variable (f : StoreFlowComplete) (body : List UInt8)

/-- The bytes behind the header that are read for the fields of a record. The checksum behind
unknown fields is found from the end of the record. -/
def needed : ℕ :=
  bodySize (htonl f.fields) + if hasUnknown (htonl f.fields) then 0 else crcSize (htonl f.fields)

/-- The contents of the fields in the bytes behind a header. -/
def contentOf : StoreField → List UInt8
  | .crc32 => ((f.hdr ++ body).drop f.crcOffset).take 4
  | flag => cut (shasfield (htonl f.fields)) StoreField.size StoreField.rfields body flag

variable {f body}

theorem contentOf_of_ne {flag : StoreField} (h : flag ≠ .crc32) :
    f.contentOf body flag =
      cut (shasfield (htonl f.fields)) StoreField.size StoreField.rfields body flag := by
  cases flag with
  | crc32 => exact absurd rfl h
  | _ => rfl

theorem bodySize_le_needed : bodySize (htonl f.fields) ≤ f.needed := Nat.le_add_right ..

/-- The checksum is read from the buffer, too. -/
theorem crcOffset_add_le (hneeded : f.needed ≤ body.length) (hbody : f.bodyLen ≤ body.length)
    (hsum : shasfield (htonl f.fields) .crc32 = true) :
    f.crcOffset + 4 ≤ (f.hdr ++ body).length := by
  rw [List.length_append, length_hdr, crcOffset]
  rw [needed, crcSize, if_pos hsum] at hneeded
  split <;> rename_i hunknown
  · omega
  · rw [if_neg hunknown] at hneeded
    omega

/-- The fields before the checksum have their sizes when they fit in the buffer. -/
theorem length_contentOf (hfields : bodySize (htonl f.fields) ≤ body.length) {flag : StoreField}
    (hmem : flag ∈ StoreField.rfields) (hflag : shasfield (htonl f.fields) flag = true) :
    (f.contentOf body flag).length = flag.size := by
  have hne : flag ≠ .crc32 := by
    rintro rfl
    exact StoreField.crc32_notMem hmem
  have hle : start (shasfield (htonl f.fields)) StoreField.size StoreField.rfields flag +
      flag.size ≤ bodySize (htonl f.fields) := start_add_le hmem hflag
  rw [contentOf_of_ne hne, cut, List.length_take, List.length_drop]
  omega

theorem sized_contentOf (hneeded : f.needed ≤ body.length) (hbody : f.bodyLen ≤ body.length) :
    Sized (htonl f.fields) (f.contentOf body) := by
  intro flag hflag
  by_cases hcrc : flag = .crc32
  · subst hcrc
    have hle := crcOffset_add_le hneeded hbody hflag
    rw [contentOf, List.length_take, List.length_drop, StoreField.size]
    omega
  · exact length_contentOf (bodySize_le_needed.trans hneeded) (StoreField.mem_rfields hcrc) hflag

variable (f body) in
/-- The bytes behind a header are the contents of the fields and what follows them. -/
theorem pieces_contentOf :
    pieces (shasfield (htonl f.fields)) (f.contentOf body) StoreField.rfields ++
      body.drop (bodySize (htonl f.fields)) = body := by
  have hpieces : pieces (shasfield (htonl f.fields)) (f.contentOf body) StoreField.rfields =
      body.take (bodySize (htonl f.fields)) := by
    rw [← pieces_cut StoreField.nodup_rfields]
    refine pieces_congr fun flag hflag _ => contentOf_of_ne ?_
    rintro rfl
    exact StoreField.crc32_notMem hflag
  rw [hpieces, List.take_append_drop]

/-- Every buffer that is long enough is read to the end of the record. -/
theorem storeFlowDeserialise_body (hver : storeVerGetMaj f.version = storeVerMajor) {len : ℕ}
    (hlen : 8 + f.bodyLen ≤ len)
    (hextra : hasUnknown (htonl f.fields) → storeVerGetMin f.version > storeVerMinor)
    (hneeded : f.needed ≤ body.length) (hbody : f.bodyLen ≤ body.length) :
    ∃ s, s.crc = (f.readDone (f.contentOf body)).crc ∧ s.vars = f.readAll (f.contentOf body) ∧
      storeFlowDeserialise (f.hdr ++ body) len = .ok (convertAddrs (htonl f.fields) s) := by
  have hsplit := pieces_contentOf f body
  have hfetch : shasfield (htonl f.fields) .crc32 = true →
      fetch (f.hdr ++ (pieces (shasfield (htonl f.fields)) (f.contentOf body) StoreField.rfields ++
        body.drop (bodySize (htonl f.fields)))) f.crcOffset 4 =
          .ok (f.contentOf body .crc32) := by
    intro hsum
    rw [hsplit, fetch, if_pos (crcOffset_add_le hneeded hbody hsum), contentOf]
  have hread := storeFlowDeserialise_read (sized_contentOf hneeded hbody) hver hlen hextra hfetch
  rwa [hsplit] at hread

/-- A record of a known minor version with unknown fields is rejected. -/
theorem storeFlowDeserialise_reject (hver : storeVerGetMaj f.version = storeVerMajor) {len : ℕ}
    (hlen : 8 + f.bodyLen ≤ len) (hunknown : hasUnknown (htonl f.fields))
    (hminor : ¬ storeVerGetMin f.version > storeVerMinor) (hneeded : f.needed ≤ body.length)
    (hbody : f.bodyLen ≤ body.length) :
    storeFlowDeserialise (f.hdr ++ body) len =
      .ok { ret := -1, ebuf := "Flow has unknown fields"
            flow := (f.readDone (f.contentOf body)).vars.flow } := by
  have hread := storeFlowDeserialise_pieces
    (fun flag _ => sized_contentOf hneeded hbody flag) hver hlen
    (body.drop (bodySize (htonl f.fields)))
  rw [readChecksum_unknown hunknown hminor, pieces_contentOf f body] at hread
  exact hread

/-- A buffer that ends before the fields do is read past its end. -/
theorem storeFlowDeserialise_behind (hver : storeVerGetMaj f.version = storeVerMajor) {len : ℕ}
    (hlen : 8 + f.bodyLen ≤ len) (hshort : body.length < f.needed) :
    storeFlowDeserialise (f.hdr ++ body) len = .error .overread := by
  by_cases hfields : body.length < bodySize (htonl f.fields)
  · exact storeFlowDeserialise_overread hver hlen hfields
  · have hfields' : bodySize (htonl f.fields) ≤ body.length := Nat.le_of_not_lt hfields
    have hread := storeFlowDeserialise_pieces (fun flag => length_contentOf hfields') hver hlen
      (body.drop (bodySize (htonl f.fields)))
    -- the buffer ends in the checksum: the fields are there, and the checksum is needed
    have hknown : ¬ hasUnknown (htonl f.fields) := by
      intro hunknown
      rw [needed, if_pos hunknown] at hshort
      omega
    rw [needed, if_neg hknown, crcSize] at hshort
    have hsum : shasfield (htonl f.fields) .crc32 = true := by
      by_contra hsum
      rw [if_neg hsum] at hshort
      omega
    rw [if_pos hsum] at hshort
    have hfetch : fetch (f.hdr ++ body) (f.readDone (f.contentOf body)).offset
        StoreField.crc32.size = .error .overread := by
      apply fetch_overread
      show (f.hdr ++ body).length < 8 + bodySize (htonl f.fields) + 4
      rw [List.length_append, length_hdr]
      omega
    rw [readChecksum_known hknown, pieces_contentOf f body, rfield, if_pos hsum,
      hfetch] at hread
    exact hread

/-! ## What lies behind a record -/

/-- Where a field ends, from the end of the header on. -/
def fieldEnd (f : StoreFlowComplete) : StoreField → ℕ
  | .crc32 => f.crcOffset + 4 - 8
  | flag => start (shasfield (htonl f.fields)) StoreField.size StoreField.rfields flag + flag.size

theorem fieldEnd_of_ne {flag : StoreField} (h : flag ≠ .crc32) :
    f.fieldEnd flag =
      start (shasfield (htonl f.fields)) StoreField.size StoreField.rfields flag + flag.size := by
  cases flag with
  | crc32 => exact absurd rfl h
  | _ => rfl

/-- The fields end within the bytes that are needed, or with the record. -/
theorem fieldEnd_le {n : ℕ} (hneeded : f.needed ≤ n) (hbody : f.bodyLen ≤ n) {flag : StoreField}
    (hflag : shasfield (htonl f.fields) flag = true) : f.fieldEnd flag ≤ n := by
  by_cases hcrc : flag = .crc32
  · subst hcrc
    have hle : f.crcOffset + 4 ≤ (f.hdr ++ List.replicate n 0).length :=
      crcOffset_add_le (by simpa using hneeded) (by simpa using hbody) hflag
    rw [List.length_append, length_hdr, List.length_replicate] at hle
    rw [fieldEnd]
    omega
  · have hle : start (shasfield (htonl f.fields)) StoreField.size StoreField.rfields flag +
        flag.size ≤ bodySize (htonl f.fields) := start_add_le (StoreField.mem_rfields hcrc) hflag
    rw [fieldEnd_of_ne hcrc]
    exact hle.trans (bodySize_le_needed.trans hneeded)

/-- A field is read from the bytes up to its end. -/
theorem contentOf_append {flag : StoreField} (hend : f.fieldEnd flag ≤ body.length)
    (rest : List UInt8) : f.contentOf (body ++ rest) flag = f.contentOf body flag := by
  by_cases hcrc : flag = .crc32
  · subst hcrc
    rw [fieldEnd] at hend
    have hlen : f.crcOffset + 4 ≤ (f.hdr ++ body).length := by
      rw [List.length_append, length_hdr]
      omega
    rw [contentOf, contentOf, ← List.append_assoc, List.drop_append_of_le_length (by omega),
      List.take_append_of_le_length]
    rw [List.length_drop]
    omega
  · rw [fieldEnd_of_ne hcrc] at hend
    rw [contentOf_of_ne hcrc, contentOf_of_ne hcrc, cut_append hend]

/-- A record that holds its fields is read the same whatever stands behind it. -/
theorem storeFlowDeserialise_append (hver : storeVerGetMaj f.version = storeVerMajor) {len : ℕ}
    (hlen : 8 + f.bodyLen ≤ len) (hneeded : f.needed ≤ body.length)
    (hbody : f.bodyLen ≤ body.length) (rest : List UInt8) :
    ∃ r, storeFlowDeserialise (f.hdr ++ body) len = .ok r ∧
      storeFlowDeserialise (f.hdr ++ (body ++ rest)) len = .ok r := by
  have hmore : body.length ≤ (body ++ rest).length := by
    rw [List.length_append]
    omega
  have hsame : ∀ flag, shasfield (htonl f.fields) flag = true →
      f.contentOf (body ++ rest) flag = f.contentOf body flag :=
    fun flag hflag => contentOf_append (fieldEnd_le hneeded hbody hflag) rest
  have hdone := readDone_congr fun flag _ => hsame flag
  by_cases hextra : hasUnknown (htonl f.fields) → storeVerGetMin f.version > storeVerMinor
  · obtain ⟨s, hcrc, hvars, hs⟩ := storeFlowDeserialise_body hver hlen hextra hneeded hbody
    obtain ⟨s', hcrc', hvars', hs'⟩ := storeFlowDeserialise_body hver hlen hextra
      (hneeded.trans hmore) (hbody.trans hmore)
    refine ⟨_, hs, hs'.trans (congrArg Except.ok (convertAddrs_congr _ ?_ ?_))⟩
    · rw [hcrc', hcrc, hdone]
    · rw [hvars', hvars, readAll_congr hsame]
  · obtain ⟨hunknown, hminor⟩ := Classical.not_imp.mp hextra
    refine ⟨_, storeFlowDeserialise_reject hver hlen hunknown hminor hneeded hbody, ?_⟩
    rw [storeFlowDeserialise_reject hver hlen hunknown hminor (hneeded.trans hmore)
      (hbody.trans hmore), hdone]

end StoreFlowComplete

/-- The header at the start of a buffer. -/
def bufHdr (buf : List UInt8) : StoreFlowComplete := ((StoreFlowComplete.readHdr {}).run buf).1

/-- Nothing behind the record is read: the record alone is enough, and what stands behind it makes
no difference. -/
def StaysInside (buf : List UInt8) (len : ℕ) : Prop :=
  (∃ r, storeFlowDeserialise (buf.take (8 + (bufHdr buf).bodyLen)) len = .ok r) ∧
    ∀ buf', buf'.take (8 + (bufHdr buf).bodyLen) = buf.take (8 + (bufHdr buf).bodyLen) →
      storeFlowDeserialise buf' len = storeFlowDeserialise buf len

/-- A record that the checks of the header accept is read within its own bytes exactly when its
fields do not need more bytes than `len_words` says. -/
theorem staysInside_iff {buf : List UInt8} {len : ℕ} (hbuf : len ≤ buf.length)
    (hver : storeVerGetMaj (bufHdr buf).version = storeVerMajor)
    (hlen : 8 + (bufHdr buf).bodyLen ≤ len) :
    StaysInside buf len ↔ (bufHdr buf).needed ≤ (bufHdr buf).bodyLen := by
  have hbuf : buf.length = buf.length - 8 + 8 := by omega
  obtain ⟨f, body, rfl, hbody⟩ := StoreFlowComplete.exists_hdr hbuf
  have hhdr : bufHdr (f.hdr ++ body) = f.header := f.run_readHdr body
  rw [StaysInside, hhdr] at *
  change 8 + f.bodyLen ≤ len at hlen
  change storeVerGetMaj f.version = storeVerMajor at hver
  change _ ↔ f.needed ≤ f.bodyLen
  have hbodylen : f.bodyLen ≤ body.length := by
    rw [List.length_append, f.length_hdr] at hbuf
    omega
  have htake : (f.hdr ++ body).take (8 + f.header.bodyLen) = f.hdr ++ body.take f.bodyLen := by
    rw [← f.length_hdr, List.take_length_add_append]
    rfl
  have hrecord : (body.take f.bodyLen).length = f.bodyLen := List.length_take_of_le hbodylen
  rw [htake]
  constructor
  · rintro ⟨⟨r, hr⟩, -⟩
    -- fields that need more than the record are read behind it
    by_contra hneeded
    have hfault : storeFlowDeserialise (f.hdr ++ body.take f.bodyLen) len = .error .overread :=
      StoreFlowComplete.storeFlowDeserialise_behind hver hlen (by omega)
    exact ok_ne_error (hr.symm.trans hfault)
  · intro hneeded
    have hread := StoreFlowComplete.storeFlowDeserialise_append hver hlen
      (show f.needed ≤ (body.take f.bodyLen).length by omega) (by omega)
    refine ⟨?_, fun buf' hbuf' => ?_⟩
    · obtain ⟨r, hr, -⟩ := hread []
      exact ⟨r, hr⟩
    -- what is read does not depend on the bytes behind the record
    · obtain ⟨r, hr, hbuf⟩ := hread (body.drop f.bodyLen)
      obtain ⟨r', hr', hbuf''⟩ := hread (buf'.drop (8 + f.bodyLen))
      obtain rfl : r = r' := Except.ok.inj (hr.symm.trans hr')
      rw [List.take_append_drop] at hbuf
      have hsplit : f.hdr ++ (body.take f.bodyLen ++ buf'.drop (8 + f.bodyLen)) = buf' := by
        rw [← List.append_assoc, ← hbuf']
        exact List.take_append_drop (8 + f.bodyLen) buf'
      rw [hsplit] at hbuf''
      rw [hbuf'', hbuf]

/-- The header of a record that has a tag and says how many words follow. -/
def tagHeader (lenWords : UInt8) : StoreFlowComplete :=
  { version := storeVersion, lenWords := lenWords, fields := htonl storeFieldTag }

/-- A tag in a record of one word is read within the record. -/
theorem staysInside_tag : StaysInside ((tagHeader 1).hdr ++ [0, 0, 0, 7]) 12 :=
  (staysInside_iff (by decide) (by decide) (by decide)).mpr (by decide)

/-- A tag in a record without a body is read behind the record. -/
theorem not_staysInside_empty :
    storeVerGetMaj (bufHdr (tagHeader 0).hdr).version = storeVerMajor ∧
      8 + (bufHdr (tagHeader 0).hdr).bodyLen ≤ 8 ∧ ¬ StaysInside (tagHeader 0).hdr 8 := by
  refine ⟨by decide, by decide, ?_⟩
  rintro ⟨⟨r, hr⟩, -⟩
  have hfault : storeFlowDeserialise ((tagHeader 0).hdr ++ []) 8 = .error .overread :=
    StoreFlowComplete.storeFlowDeserialise_behind (by decide) (by decide) (by decide)
  exact ok_ne_error (hr.symm.trans hfault)

end Flowd
