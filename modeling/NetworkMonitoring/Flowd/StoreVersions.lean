import NetworkMonitoring.Flowd.StoreRecords

/-!
# flowd — records of later minor versions

A writer of a later minor version may put fields that this reader does not know behind those it
knows, and its checksum is taken of all of them. The reader skips the unknown fields, but its
running checksum skips them, too.

## Main result

* `readsKnown_iff`: when the known fields of such a record are read.
-/

namespace Flowd

open Bytes OptionalFields

/-- A record of a later minor version: the header and the known fields in `vars`, what its unknown
fields take, and the checksum. -/
def laterRecord (vars : FieldVars) (unknown : List UInt8) : List UInt8 :=
  vars.flow.hdr ++ (pieces (shasfield (htonl vars.flow.fields)) vars.get StoreField.rfields ++
    (unknown ++ pieces (shasfield (htonl vars.flow.fields)) vars.get [.crc32]))

/-- The bytes of the known fields with the header. -/
def knownBytes (vars : FieldVars) : List UInt8 :=
  vars.flow.hdr ++ pieces (shasfield (htonl vars.flow.fields)) vars.get StoreField.rfields

/-- The record is what a writer of a later minor version would write. -/
structure LaterMinor (vars : FieldVars) (unknown : List UInt8) : Prop where
  version_eq : storeVerGetMaj vars.flow.version = storeVerMajor
  minor_gt : storeVerGetMin vars.flow.version > storeVerMinor
  unknown_fields : unknown ≠ [] → hasUnknown (htonl vars.flow.fields)
  len_words : vars.flow.bodyLen =
    bodySize (htonl vars.flow.fields) + unknown.length + crcSize (htonl vars.flow.fields)
  checksum : shasfield (htonl vars.flow.fields) .crc32 = true →
    htonl vars.flow.crc32 = flowdCrc32 (knownBytes vars ++ unknown)

/-- The record is read, and its known fields are decoded. -/
def ReadsKnown (vars : FieldVars) (unknown : List UInt8) : Prop :=
  ∃ r, storeFlowDeserialise (laterRecord vars unknown) (laterRecord vars unknown).length = .ok r ∧
    r.ret = storeErrOk ∧ Decoded (htonl vars.flow.fields) vars.get vars.flow.hdr r.flow

variable {vars : FieldVars} {unknown : List UInt8}

theorem length_knownBytes :
    (knownBytes vars).length = 8 + bodySize (htonl vars.flow.fields) := by
  rw [knownBytes, List.length_append, StoreFlowComplete.length_hdr, length_pieces vars.length_get]

theorem length_laterRecord (h : LaterMinor vars unknown) :
    (laterRecord vars unknown).length = 8 + vars.flow.bodyLen := by
  have hsum : (pieces (shasfield (htonl vars.flow.fields)) vars.get [.crc32]).length =
      crcSize (htonl vars.flow.fields) := by
    rw [length_pieces vars.length_get, crcSize]
    by_cases hsum : shasfield (htonl vars.flow.fields) .crc32 = true
    · rw [size_cons_of_pos hsum, if_pos hsum]
      rfl
    · rw [size_cons_of_neg hsum, if_neg hsum]
      rfl
  rw [laterRecord, List.length_append, StoreFlowComplete.length_hdr, List.length_append,
    List.length_append, length_pieces vars.length_get, hsum, h.len_words, Nat.add_assoc]

/-- The checksum of the record is found. -/
theorem fetch_laterRecord (h : LaterMinor vars unknown)
    (hsum : shasfield (htonl vars.flow.fields) .crc32 = true) :
    fetch (laterRecord vars unknown) vars.flow.crcOffset 4 = .ok (vars.get .crc32) := by
  have hoffset : vars.flow.crcOffset = (knownBytes vars ++ unknown).length := by
    rw [StoreFlowComplete.crcOffset, List.length_append, length_knownBytes]
    by_cases hunknown : hasUnknown (htonl vars.flow.fields)
    · rw [if_pos hunknown, h.len_words, crcSize, if_pos hsum]
      omega
    · have hnil : unknown = [] := by
        by_contra hne
        exact hunknown (h.unknown_fields hne)
      rw [if_neg hunknown, hnil]
      rfl
  have hrecord : laterRecord vars unknown = (knownBytes vars ++ unknown) ++
      (vars.get .crc32 ++ []) := by
    rw [laterRecord, pieces_cons_of_pos hsum, pieces_nil, knownBytes]
    simp only [List.append_assoc]
  rw [hrecord]
  exact fetch_append hoffset (vars.length_get .crc32).symm

/-- With one family of each address, the record is decoded and the checksum of the known fields is
compared with the one in the record. -/
theorem storeFlowDeserialise_later (h : LaterMinor vars unknown)
    (hone : ∀ g, ¬ hasBoth (htonl vars.flow.fields) g = true) :
    ∃ flow, Decoded (htonl vars.flow.fields) vars.get vars.flow.hdr flow ∧
      storeFlowDeserialise (laterRecord vars unknown) (laterRecord vars unknown).length =
        .ok (if shasfield (htonl vars.flow.fields) .crc32 = true ∧
            flowdCrc32 (knownBytes vars) ≠ flowdCrc32Update unknown (flowdCrc32 (knownBytes vars))
          then { ret := storeErrCrcMismatch, ebuf := "Flow checksum mismatch", flow := flow }
          else { flow := flow }) := by
  obtain ⟨flow, hflow, hread⟩ := StoreFlowComplete.storeFlowDeserialise_one
    (fun flag _ => vars.length_get flag) h.version_eq (length_laterRecord h).ge
    (fun _ => h.minor_gt) (fetch_laterRecord h) hone
  refine ⟨flow, hflow, hread.trans (congrArg Except.ok ?_)⟩
  by_cases hsum : shasfield (htonl vars.flow.fields) .crc32 = true
  · have hpart := hflow.part_eq .crc32 rfl
    rw [if_pos hsum] at hpart
    have hcrc : flow.crc32 = vars.flow.crc32 := le32_inj.mp hpart
    rw [hcrc, h.checksum hsum, flowdCrc32_append (knownBytes vars) unknown]
    rfl
  · rw [if_neg (fun hc : _ ∧ _ => hsum hc.1), if_neg (fun hc : _ ∧ _ => hsum hc.1)]

/-- The known fields of a record of a later minor version are read exactly when no address has both
families and the unknown bytes leave the checksum of the bytes before them as it is. -/
theorem readsKnown_iff (h : LaterMinor vars unknown) :
    ReadsKnown vars unknown ↔
      (∀ g, ¬ hasBoth (htonl vars.flow.fields) g = true) ∧
        (shasfield (htonl vars.flow.fields) .crc32 = true →
          flowdCrc32Update unknown (flowdCrc32 (knownBytes vars)) =
            flowdCrc32 (knownBytes vars)) := by
  by_cases hone : ∀ g, ¬ hasBoth (htonl vars.flow.fields) g = true
  · obtain ⟨flow, hflow, hread⟩ := storeFlowDeserialise_later h hone
    rw [ReadsKnown, hread, and_iff_right hone]
    -- the sum that is computed goes over the unknown bytes, the one in the record does not
    constructor
    · rintro ⟨r, hr, hret, -⟩ hsum
      by_contra hne
      rw [if_pos ⟨hsum, Ne.symm hne⟩] at hr
      rw [← Except.ok.inj hr] at hret
      exact absurd hret (by decide : storeErrCrcMismatch ≠ storeErrOk)
    · intro hsame
      have hok : ¬ (shasfield (htonl vars.flow.fields) .crc32 = true ∧
          flowdCrc32 (knownBytes vars) ≠
            flowdCrc32Update unknown (flowdCrc32 (knownBytes vars))) :=
        fun hc => hc.2 (hsame hc.1).symm
      rw [if_neg hok]
      exact ⟨_, rfl, rfl, hflow⟩
  · have hboth : ∃ g, hasBoth (htonl vars.flow.fields) g = true := by
      simpa using hone
    obtain ⟨ebuf, flow, -, -, hread⟩ := StoreFlowComplete.storeFlowDeserialise_both
      (fun flag _ => vars.length_get flag) h.version_eq (length_laterRecord h).ge
      (fun _ => h.minor_gt) (fetch_laterRecord h) hboth
    refine iff_of_false ?_ fun hc => hone hc.1
    rintro ⟨r, hr, hret, -⟩
    rw [← Except.ok.inj (hread.symm.trans hr)] at hret
    exact absurd hret (by decide : (-1 : ℤ) ≠ storeErrOk)

/-- A record of version 3.1 with a tag and a field of four bytes that version 3.0 does not have. -/
def laterVars (fields crc : UInt32) (lenWords : UInt8) : FieldVars where
  flow := { version := storeMkver 3 1, lenWords := lenWords
            fields := htonl (storeFieldTag ||| storeField 19 ||| fields)
            tag := htonl 7, crc32 := htonl crc }
  addr4 := fun _ _ => 0
  addr6 := fun _ _ => 0

/-- Without a checksum the record is read. -/
theorem readsKnown_tag : ReadsKnown (laterVars 0 0 2) [1, 2, 3, 4] :=
  (@readsKnown_iff (laterVars 0 0 2) [1, 2, 3, 4]
    ⟨by decide, by decide, fun _ => by decide, by decide, fun h => absurd h (by decide)⟩).mpr
    ⟨fun g => by cases g <;> decide, fun h => absurd h (by decide)⟩

/-- With a checksum of all its bytes it is not. -/
theorem not_readsKnown_tag :
    LaterMinor (laterVars storeFieldCrc32 0x3ed7cc58 3) [1, 2, 3, 4] ∧
      (∀ g, ¬ hasBoth (htonl (laterVars storeFieldCrc32 0x3ed7cc58 3).flow.fields) g = true) ∧
      ¬ ReadsKnown (laterVars storeFieldCrc32 0x3ed7cc58 3) [1, 2, 3, 4] := by
  have hlater : LaterMinor (laterVars storeFieldCrc32 0x3ed7cc58 3) [1, 2, 3, 4] :=
    ⟨by decide, by decide, fun _ => by decide, by decide, fun _ => by decide +kernel⟩
  have hone : ∀ g,
      ¬ hasBoth (htonl (laterVars storeFieldCrc32 0x3ed7cc58 3).flow.fields) g = true :=
    fun g => by cases g <;> decide
  have hmismatch : shasfield (htonl (laterVars storeFieldCrc32 0x3ed7cc58 3).flow.fields) .crc32 =
        true ∧ flowdCrc32 (knownBytes (laterVars storeFieldCrc32 0x3ed7cc58 3)) ≠
      flowdCrc32Update [1, 2, 3, 4]
        (flowdCrc32 (knownBytes (laterVars storeFieldCrc32 0x3ed7cc58 3))) := by
    decide +kernel
  refine ⟨hlater, hone, ?_⟩
  obtain ⟨flow, -, hread⟩ := storeFlowDeserialise_later hlater hone
  rintro ⟨r, hr, hret, -⟩
  rw [hr, if_pos hmismatch] at hread
  rw [Except.ok.inj hread] at hret
  exact absurd hret (by decide : storeErrCrcMismatch ≠ storeErrOk)

end Flowd
