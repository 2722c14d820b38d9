import NetworkMonitoring.Flowd.StoreLog
import NetworkMonitoring.Foundations.ErrorLoops

/-!
# flowd — the loops over the fields of a record

`RFIELD`, `WFIELD` and `ADDFIELD` go through the same fields in the same order. This module says
what each of the three loops does in terms of `pieces` and `size`, for every word `fields` and
every content of the fields, and what comes out of the conversion of the addresses.
-/

namespace Flowd

open Bytes InetText OptionalFields ErrorLoops

/-! ## Sizes -/

/-- The number of bytes of the fields before the checksum. -/
abbrev bodySize (fields : UInt32) : ℕ := size (shasfield fields) StoreField.size StoreField.rfields

/-- The number of bytes of the checksum. -/
def crcSize (fields : UInt32) : ℕ := if shasfield fields .crc32 = true then 4 else 0

/-- The fields of a record are those of its body and the checksum. -/
theorem size_addfields (fields : UInt32) :
    size (shasfield fields) StoreField.size StoreField.addfields =
      bodySize fields + crcSize fields := by
  rw [StoreField.addfields_eq, size_append, crcSize]
  by_cases h : shasfield fields .crc32 = true
  · rw [size_cons_of_pos h, if_pos h]
    rfl
  · rw [size_cons_of_neg h, if_neg h]
    rfl

/-- `store_calc_flow_len` fails on unknown fields and adds up the sizes of the others. -/
theorem storeCalcFlowLen_eq (hdrFields : UInt32) :
    storeCalcFlowLen hdrFields = if htonl hdrFields &&& ~~~storeFieldAll ≠ 0 then -1
      else ((bodySize (htonl hdrFields) + crcSize (htonl hdrFields) : ℕ) : ℤ) := by
  rw [storeCalcFlowLen, ← size_addfields]
  simp only [shasfield]
  rw [foldl_size StoreField.pairwise_addfields, StoreField.union_addfields, Nat.zero_add]

/-- The size of a body is a multiple of four. -/
theorem four_dvd_bodySize (fields : UInt32) : 4 ∣ bodySize fields :=
  dvd_size StoreField.four_dvd_size _

/-- The checksum has at most four bytes. -/
theorem crcSize_le (fields : UInt32) : crcSize fields ≤ 4 := by
  rw [crcSize]
  split <;> omega

/-- The size of the checksum is a multiple of four. -/
theorem four_dvd_crcSize (fields : UInt32) : 4 ∣ crcSize fields := by
  rw [crcSize]
  split <;> omega

/-- The size of a body with all fields. -/
theorem bodySize_le (fields : UInt32) : bodySize fields ≤ 172 := StoreField.size_rfields_le _

/-! ## Unknown fields -/

/-- The word has a flag that `store.h` does not know. -/
def hasUnknown (fields : UInt32) : Prop := fields &&& ~~~storeFieldAll ≠ 0

instance (fields : UInt32) : Decidable (hasUnknown fields) := instDecidableNot

/-- Masking with `STORE_FIELD_ALL` leaves the known fields as they are. -/
theorem shasfield_and_all (fields : UInt32) (flag : StoreField) :
    shasfield (fields &&& storeFieldAll) flag = shasfield fields flag :=
  has_and (StoreField.all_and_mask flag) fields

/-- What the loop of `RFIELD` leaves of `donefields`. -/
theorem donefields_eq (fields : UInt32) :
    StoreField.rfields.foldl
        (fun m flag => if shasfield fields flag = true then m &&& ~~~flag.mask else m) fields =
      fields &&& ~~~union StoreField.mask StoreField.rfields :=
  foldl_andNot fields fun _ _ h => h

/-- Without the fields of the body and the checksum no known field is left. -/
theorem andNot_union_crc (fields : UInt32) :
    fields &&& ~~~union StoreField.mask StoreField.rfields &&& ~~~storeFieldCrc32 =
      fields &&& ~~~storeFieldAll := by
  rw [andNot_andNot, StoreField.union_rfields]

/-! ## Reading fields -/

/-- A field behind the end of the buffer is not read. -/
theorem fetch_overread {buf : List UInt8} {offset n : ℕ} (h : buf.length < offset + n) :
    fetch buf offset n = .error .overread := if_neg (by omega)

/-- A field that is there is read. -/
theorem rfield_of_has {buf dest : List UInt8} {fields : UInt32} {s : ReadState} {flag : StoreField}
    (hflag : shasfield fields flag = true) (hdest : fetch buf s.offset flag.size = .ok dest) :
    rfield buf fields s flag = .ok {
      offset := s.offset + flag.size
      crc := if shasfield fields .crc32 = true ∧ flag ≠ .crc32 then flowdCrc32Update dest s.crc
        else s.crc
      donefields := s.donefields &&& ~~~flag.mask
      vars := s.vars.put flag dest } := by
  rw [rfield, if_pos hflag, hdest]
  rfl

/-- A field that is not there is passed over. -/
theorem rfield_of_not_has {buf : List UInt8} {fields : UInt32} (s : ReadState) {flag : StoreField}
    (hflag : ¬ shasfield fields flag = true) : rfield buf fields s flag = .ok s := if_neg hflag

/-- The loop of `RFIELD` over fields that stand in the buffer. -/
theorem foldlM_rfield {fields : UInt32} {content : StoreField → List UInt8} {fs : List StoreField}
    (hcontent : ∀ flag ∈ fs, shasfield fields flag = true → (content flag).length = flag.size)
    (hcrc : .crc32 ∉ fs) {front : List UInt8} (rest : List UInt8) {s : ReadState}
    (hs : s.offset = front.length) :
    fs.foldlM (rfield (front ++ (pieces (shasfield fields) content fs ++ rest)) fields) s = .ok {
      offset := s.offset + size (shasfield fields) StoreField.size fs
      crc := if shasfield fields .crc32 = true then
          flowdCrc32Update (pieces (shasfield fields) content fs) s.crc
        else s.crc
      donefields := fs.foldl
        (fun m flag => if shasfield fields flag = true then m &&& ~~~flag.mask else m) s.donefields
      vars := putAll FieldVars.put content (fs.filter (shasfield fields)) s.vars } := by
  induction fs generalizing front s with
  | nil =>
    rw [List.foldlM_nil, pieces_nil, size_nil, flowdCrc32Update_nil, ite_self]
    rfl
  | cons flag fs ih =>
    obtain ⟨hne, hcrc'⟩ := not_or.mp (List.mem_cons.not.mp hcrc)
    have ih' := @ih fun g hg => hcontent g (List.mem_cons_of_mem flag hg)
    rw [List.foldlM_cons, List.foldl_cons]
    -- a field that is set is read and its bytes go into the checksum; another one is skipped
    by_cases hflag : shasfield fields flag = true
    · have hlen := hcontent flag List.mem_cons_self hflag
      have hfetch : fetch
          (front ++ (content flag ++ (pieces (shasfield fields) content fs ++ rest)))
          s.offset flag.size = .ok (content flag) := fetch_append hs hlen.symm
      have hsplit : front ++ (pieces (shasfield fields) content (flag :: fs) ++ rest) =
          (front ++ content flag) ++ (pieces (shasfield fields) content fs ++ rest) := by
        rw [pieces_cons_of_pos hflag, List.append_assoc, List.append_assoc]
      have hfront : s.offset + flag.size = (front ++ content flag).length := by
        rw [List.length_append, hlen, hs]
      rw [← List.append_assoc] at hfetch
      rw [hsplit, rfield_of_has hflag hfetch, ok_bind, ih' hcrc' hfront, if_pos hflag,
        size_cons_of_pos hflag, pieces_cons_of_pos hflag, flowdCrc32Update_append,
        List.filter_cons_of_pos hflag, Nat.add_assoc]
      by_cases hsum : shasfield fields .crc32 = true
      · simp only [if_pos hsum, if_pos (And.intro hsum (Ne.symm hne))]
        rfl
      · simp only [if_neg hsum, if_neg (fun h : _ ∧ _ => hsum h.1)]
        rfl
    · rw [rfield_of_not_has s hflag, ok_bind, if_neg hflag, pieces_cons_of_neg hflag,
        ih' hcrc' hs, size_cons_of_neg hflag, List.filter_cons_of_neg hflag]

/-- The loop of `RFIELD` reads behind the buffer when the fields do not fit in it. -/
theorem foldlM_rfield_overread {buf : List UInt8} {fields : UInt32} {fs : List StoreField}
    {s : ReadState} (h : buf.length < s.offset + size (shasfield fields) StoreField.size fs)
    (hs : s.offset ≤ buf.length) :
    fs.foldlM (rfield buf fields) s = .error .overread := by
  induction fs generalizing s with
  | nil =>
    rw [size_nil] at h
    omega
  | cons flag fs ih =>
    rw [List.foldlM_cons]
    by_cases hflag : shasfield fields flag = true
    · rw [size_cons_of_pos hflag] at h
      by_cases hfit : s.offset + flag.size ≤ buf.length
      · rw [rfield_of_has hflag (if_pos hfit), ok_bind]
        refine ih ?_ hfit
        show buf.length < s.offset + flag.size + _
        omega
      · rw [rfield, if_pos hflag, fetch_overread (by omega)]
        rfl
    · rw [rfield_of_not_has s hflag, ok_bind]
      refine ih ?_ hs
      rwa [size_cons_of_neg hflag] at h

/-! ## The header -/

namespace StoreFlowComplete

/-- The record that has the header only. -/
def header (f : StoreFlowComplete) : StoreFlowComplete :=
  { version := f.version, lenWords := f.lenWords, reserved := f.reserved, fields := f.fields }

variable (f : StoreFlowComplete)

/-- The header of a record is read with it. -/
@[simp]
theorem hdr_header : f.header.hdr = f.hdr := rfl

/-- No address is read with the header. -/
@[simp]
theorem addr_header (g : AddrGroup) : f.header.addr g = {} := by
  cases g <;> rfl

/-- No other field is read with the header. -/
theorem part_header (flag : StoreField) :
    f.header.part flag = ({} : StoreFlowComplete).part flag := by
  cases flag <;> rfl

/-- The header is read back. -/
theorem run_readHdr (rest : List UInt8) :
    ((readHdr {}).run (f.hdr ++ rest)).1 = f.header := by
  simp only [readHdr, hdr, StateT.run_bind, StateT.run_pure, run_read8, run_read16, run_read32,
    pure_bind, List.append_assoc, List.cons_append]
  rfl

/-- The first eight bytes of a buffer are a header. -/
theorem exists_hdr {n : ℕ} {bs : List UInt8} (h : bs.length = n + 8) :
    ∃ (f : StoreFlowComplete) (rest : List UInt8), bs = f.hdr ++ rest ∧ rest.length = n := by
  obtain ⟨version, _, rfl, h1⟩ := exists_byte (n := n + 7) h
  obtain ⟨lenWords, _, rfl, h2⟩ := exists_byte (n := n + 6) h1
  obtain ⟨reserved, _, rfl, h3⟩ := exists_le16 (n := n + 4) h2
  obtain ⟨fields, rest, rfl, h4⟩ := exists_le32 (n := n) h3
  refine ⟨{ version := version, lenWords := lenWords, reserved := reserved, fields := fields },
    rest, ?_, h4⟩
  simp [hdr]

/-- The bytes of a record that belong to it: the header and `len_words` words. -/
def bodyLen : ℕ := f.lenWords.toNat * 4

/-- The state in which the first field is read. -/
def readStart : ReadState :=
  { offset := 8, crc := flowdCrc32 f.hdr, donefields := htonl f.fields
    vars := { flow := f.header, addr4 := fun _ _ => 0, addr6 := fun _ _ => 0 } }

variable {f}

/-- A record that is accepted by the checks of the header is read. -/
theorem storeFlowDeserialise_accepted {body : List UInt8} {len : ℕ}
    (hver : storeVerGetMaj f.version = storeVerMajor) (hlen : 8 + f.bodyLen ≤ len) :
    storeFlowDeserialise (f.hdr ++ body) len =
      StoreField.rfields.foldlM (rfield (f.hdr ++ body) (htonl f.fields)) f.readStart >>=
        readChecksum (f.hdr ++ body) f.header := by
  have hfetch : fetch (f.hdr ++ body) 0 8 = .ok f.hdr :=
    @fetch_append [] f.hdr body 0 8 rfl (f.length_hdr).symm
  have hread := f.run_readHdr []
  rw [List.append_nil] at hread
  have hlen8 : ¬ len < 8 := by omega
  have hver' : ¬ storeVerGetMaj f.header.version ≠ storeVerMajor := not_not.mpr hver
  have hbody : ¬ len - 8 < f.header.lenWords.toNat * 4 := by
    change ¬ len - 8 < f.bodyLen
    omega
  rw [storeFlowDeserialise, if_neg hlen8]
  simp only [hfetch, ok_bind, hread]
  rw [if_neg hver', if_neg hbody]
  rfl

/-- The state in which the fields before the checksum have been read. -/
def readDone (f : StoreFlowComplete) (content : StoreField → List UInt8) : ReadState :=
  { offset := 8 + bodySize (htonl f.fields)
    crc := if shasfield (htonl f.fields) .crc32 = true then
        flowdCrc32 (f.hdr ++ pieces (shasfield (htonl f.fields)) content StoreField.rfields)
      else flowdCrc32 f.hdr
    donefields := htonl f.fields &&& ~~~union StoreField.mask StoreField.rfields
    vars := putAll FieldVars.put content
      (StoreField.rfields.filter (shasfield (htonl f.fields))) f.readStart.vars }

/-- Only the fields that are there matter for what has been read. -/
theorem readDone_congr {content content' : StoreField → List UInt8}
    (h : ∀ flag ∈ StoreField.rfields, shasfield (htonl f.fields) flag = true →
      content flag = content' flag) : f.readDone content = f.readDone content' := by
  have hput : putAll FieldVars.put content (StoreField.rfields.filter (shasfield (htonl f.fields)))
      f.readStart.vars = putAll FieldVars.put content'
        (StoreField.rfields.filter (shasfield (htonl f.fields))) f.readStart.vars := by
    refine putAll_congr _ (fun flag hflag => ?_) _
    obtain ⟨hmem, hhas⟩ := List.mem_filter.mp hflag
    exact h flag hmem hhas
  rw [readDone, readDone, pieces_congr h, hput]

/-- The contents of the fields that are set have the sizes of the fields. -/
def Sized (fields : UInt32) (content : StoreField → List UInt8) : Prop :=
  ∀ flag, shasfield fields flag = true → (content flag).length = flag.size

/-- A record whose fields stand in the buffer is read up to the checksum. -/
theorem storeFlowDeserialise_pieces {content : StoreField → List UInt8}
    (hcontent : ∀ flag ∈ StoreField.rfields, shasfield (htonl f.fields) flag = true →
      (content flag).length = flag.size) (hver : storeVerGetMaj f.version = storeVerMajor)
    {len : ℕ} (hlen : 8 + f.bodyLen ≤ len) (rest : List UInt8) :
    storeFlowDeserialise (f.hdr ++
        (pieces (shasfield (htonl f.fields)) content StoreField.rfields ++ rest)) len =
      readChecksum (f.hdr ++
        (pieces (shasfield (htonl f.fields)) content StoreField.rfields ++ rest)) f.header
        (f.readDone content) := by
  rw [storeFlowDeserialise_accepted hver hlen,
    foldlM_rfield hcontent StoreField.crc32_notMem rest
      (f.length_hdr).symm, ok_bind]
  congr 1
  simp only [readStart, readDone, donefields_eq, flowdCrc32_append]

/-- A buffer in which the fields do not fit is read past its end. -/
theorem storeFlowDeserialise_overread {body : List UInt8} {len : ℕ}
    (hver : storeVerGetMaj f.version = storeVerMajor) (hlen : 8 + f.bodyLen ≤ len)
    (hshort : body.length < bodySize (htonl f.fields)) :
    storeFlowDeserialise (f.hdr ++ body) len = .error .overread := by
  have hbuf : (f.hdr ++ body).length = 8 + body.length := by
    rw [List.length_append, length_hdr]
  rw [storeFlowDeserialise_accepted hver hlen, foldlM_rfield_overread]
  · rfl
  · rw [hbuf]
    exact Nat.add_lt_add_left hshort 8
  · rw [hbuf]
    exact Nat.le_add_right 8 _

/-! ## The checksum -/

variable {buf : List UInt8} {content : StoreField → List UInt8}

/-- Unknown fields in a record of a minor version that is known. -/
theorem readChecksum_unknown (hunknown : hasUnknown (htonl f.fields))
    (hminor : ¬ storeVerGetMin f.version > storeVerMinor) :
    readChecksum buf f.header (f.readDone content) =
      .ok { ret := -1, ebuf := "Flow has unknown fields", flow := (f.readDone content).vars.flow } := by
  have hdone : (f.readDone content).donefields &&& ~~~storeFieldCrc32 ≠ 0 := by
    rw [readDone, andNot_union_crc]
    exact hunknown
  rw [readChecksum, if_pos hdone]
  exact if_neg hminor

/-- Without unknown fields the checksum follows the other fields. -/
theorem readChecksum_known (hknown : ¬ hasUnknown (htonl f.fields)) :
    readChecksum buf f.header (f.readDone content) =
      (rfield buf (htonl f.fields) (f.readDone content) .crc32).map
        (convertAddrs (htonl f.fields)) := by
  have hdone : ¬ (f.readDone content).donefields &&& ~~~storeFieldCrc32 ≠ 0 := by
    rw [readDone, andNot_union_crc]
    exact hknown
  rw [readChecksum, if_neg hdone]
  rfl

/-- The checksum of a record of a later minor version stands at its end. -/
theorem readChecksum_extra (hunknown : hasUnknown (htonl f.fields))
    (hminor : storeVerGetMin f.version > storeVerMinor) :
    readChecksum buf f.header (f.readDone content) =
      (rfield buf (htonl f.fields &&& storeFieldAll)
        { f.readDone content with offset := f.bodyLen + 8 - 4 } .crc32).map
        (convertAddrs (htonl f.fields &&& storeFieldAll)) := by
  have hdone : (f.readDone content).donefields &&& ~~~storeFieldCrc32 ≠ 0 := by
    rw [readDone, andNot_union_crc]
    exact hunknown
  have hminor' : storeVerGetMin f.header.version > storeVerMinor := hminor
  rw [readChecksum, if_pos hdone, if_pos hminor']
  rfl

end StoreFlowComplete

/-! ## What is decoded -/

/-- The header and the parts of a record that was read from the contents of its fields. -/
structure PartsRead (fields : UInt32) (content : StoreField → List UInt8) (hdr : List UInt8)
    (flow : StoreFlowComplete) : Prop where
  hdr_eq : flow.hdr = hdr
  part_eq : ∀ flag, flag.isAddr = false → flow.part flag =
    if shasfield fields flag = true then content flag else ({} : StoreFlowComplete).part flag

/-- The same with its addresses: every field that is set has its content, the others are zero. -/
structure Decoded (fields : UInt32) (content : StoreField → List UInt8) (hdr : List UInt8)
    (flow : StoreFlowComplete) : Prop extends PartsRead fields content hdr flow where
  addr_eq : ∀ g, flow.addr g =
    if shasfield fields (.addr4 g) = true then Xaddr.copy {} (content (.addr4 g)) afInet
    else if shasfield fields (.addr6 g) = true then Xaddr.copy {} (content (.addr6 g)) afInet6
    else {}

/-- There is only one such record. -/
theorem Decoded.unique {fields : UInt32} {content : StoreField → List UInt8} {hdr : List UInt8}
    {a b : StoreFlowComplete} (ha : Decoded fields content hdr a)
    (hb : Decoded fields content hdr b) : a = b := by
  refine StoreFlowComplete.ext_fields (ha.hdr_eq.trans hb.hdr_eq.symm) (fun flag h => ?_)
    fun g => ?_
  · rw [ha.part_eq flag h, hb.part_eq flag h]
  · rw [ha.addr_eq, hb.addr_eq]

/-- `S_CPYADDR` for one address. -/
def copiedAddr (fields : UInt32) (vars : FieldVars) (g : AddrGroup) (a : Xaddr) : Xaddr :=
  let a := if shasfield fields (.addr4 g) = true then a.copy (vars.get (.addr4 g)) afInet else a
  if shasfield fields (.addr6 g) = true then a.copy (vars.get (.addr6 g)) afInet6 else a

/-- The address of a group is replaced by the one that has been copied. -/
theorem cpyAddr_eq (fields : UInt32) (vars : FieldVars) (flow : StoreFlowComplete)
    (g : AddrGroup) :
    cpyAddr fields vars flow g = flow.setAddr (copiedAddr fields vars g (flow.addr g)) g := by
  by_cases h4 : shasfield fields (.addr4 g) = true <;>
    by_cases h6 : shasfield fields (.addr6 g) = true <;>
    simp [cpyAddr, copiedAddr, FieldVars.get, h4, h6]

/-- Each address is converted once, and nothing else is changed. -/
theorem foldl_cpyAddr (fields : UInt32) (vars : FieldVars) {gs : List AddrGroup} (hgs : gs.Nodup)
    (flow : StoreFlowComplete) :
    (gs.foldl (cpyAddr fields vars) flow).hdr = flow.hdr ∧
      (∀ flag, (gs.foldl (cpyAddr fields vars) flow).part flag = flow.part flag) ∧
      ∀ g, (gs.foldl (cpyAddr fields vars) flow).addr g =
        if g ∈ gs then copiedAddr fields vars g (flow.addr g) else flow.addr g := by
  induction gs generalizing flow with
  | nil => exact ⟨rfl, fun _ => rfl, fun g => (if_neg List.not_mem_nil).symm⟩
  | cons g gs ih =>
    obtain ⟨hg, hgs'⟩ := List.nodup_cons.mp hgs
    obtain ⟨hhdr, hpart, haddr⟩ := ih hgs' (cpyAddr fields vars flow g)
    rw [List.foldl_cons]
    refine ⟨?_, fun flag => ?_, fun g' => ?_⟩
    · rw [hhdr, cpyAddr_eq, StoreFlowComplete.hdr_setAddr]
    · rw [hpart, cpyAddr_eq, StoreFlowComplete.part_setAddr]
    · rw [haddr, cpyAddr_eq, StoreFlowComplete.addr_setAddr]
      by_cases hg' : g' = g
      · subst hg'
        rw [if_neg hg, if_pos rfl, if_pos List.mem_cons_self]
      · rw [if_neg hg']
        by_cases hmem : g' ∈ gs
        · rw [if_pos hmem, if_pos (List.mem_cons_of_mem g hmem)]
        · rw [if_neg hmem, if_neg (fun h => hmem ((List.mem_cons.mp h).resolve_left hg'))]

/-- The groups of addresses are different. -/
theorem nodup_addrGroups : addrGroups.Nodup := by decide

/-- There are no other groups of addresses. -/
theorem mem_addrGroups (g : AddrGroup) : g ∈ addrGroups := by
  cases g <;> decide

/-- The conversion looks at the checksum and the variables alone. -/
theorem convertAddrs_congr (fields : UInt32) {s s' : ReadState} (hcrc : s.crc = s'.crc)
    (hvars : s.vars = s'.vars) : convertAddrs fields s = convertAddrs fields s' := by
  rw [convertAddrs, convertAddrs, hcrc, hvars]

/-- A record with both families of an address is rejected. -/
theorem convertAddrs_both {fields : UInt32} (s : ReadState) (hboth : ∃ g, hasBoth fields g = true) :
    ∃ ebuf, convertAddrs fields s = { ret := -1, ebuf := ebuf, flow := s.vars.flow } := by
  obtain ⟨g, hg⟩ := hboth
  have hfind : (addrGroups.find? (hasBoth fields)).isSome = true :=
    List.find?_isSome.mpr ⟨g, mem_addrGroups g, hg⟩
  obtain ⟨g', hg'⟩ := Option.isSome_iff_exists.mp hfind
  rw [convertAddrs, hg']
  exact ⟨_, rfl⟩

/-- The other records have their addresses converted and are checked against the checksum. -/
theorem convertAddrs_one {fields : UInt32} (s : ReadState)
    (hone : ∀ g, ¬ hasBoth fields g = true) :
    convertAddrs fields s =
      if shasfield fields .crc32 = true ∧
          s.crc ≠ htonl (addrGroups.foldl (cpyAddr fields s.vars) s.vars.flow).crc32 then
        { ret := storeErrCrcMismatch, ebuf := "Flow checksum mismatch"
          flow := addrGroups.foldl (cpyAddr fields s.vars) s.vars.flow }
      else { flow := addrGroups.foldl (cpyAddr fields s.vars) s.vars.flow } := by
  have hfind : addrGroups.find? (hasBoth fields) = none :=
    List.find?_eq_none.mpr fun g _ => hone g
  rw [convertAddrs, hfind]

namespace StoreFlowComplete

variable {f : StoreFlowComplete} {content : StoreField → List UInt8}

/-- The variables when all fields that are known have been read. -/
def readAll (f : StoreFlowComplete) (content : StoreField → List UInt8) : FieldVars :=
  if shasfield (htonl f.fields) .crc32 = true then
    (f.readDone content).vars.put .crc32 (content .crc32)
  else (f.readDone content).vars

/-- Only the fields that are there matter for the flow that is read. -/
theorem readAll_congr {content' : StoreField → List UInt8}
    (h : ∀ flag, shasfield (htonl f.fields) flag = true → content flag = content' flag) :
    f.readAll content = f.readAll content' := by
  rw [readAll, readAll, readDone_congr fun flag _ => h flag]
  by_cases hsum : shasfield (htonl f.fields) .crc32 = true
  · rw [if_pos hsum, if_pos hsum, h .crc32 hsum]
  · rw [if_neg hsum, if_neg hsum]

/-- Every field before the checksum that is set has its content. -/
theorem get_readDone (hcontent : Sized (htonl f.fields) content) (flag : StoreField) :
    (f.readDone content).vars.get flag =
      if flag ∈ StoreField.rfields.filter (shasfield (htonl f.fields)) then content flag
      else f.readStart.vars.get flag := by
  refine FieldVars.lenses.get_putAll (fun g hg => ?_) _ _
  exact hcontent g (List.mem_filter.mp hg).2

/-- The loop over the fields keeps the header. -/
theorem hdr_readDone : (f.readDone content).vars.flow.hdr = f.hdr :=
  putAll_frame (fun vars : FieldVars => vars.flow.hdr) FieldVars.hdr_put _ _ _

/-- The loop over the fields sets no address. -/
theorem addr_readDone (g : AddrGroup) : (f.readDone content).vars.flow.addr g = {} := by
  have haddr : (f.readDone content).vars.flow.addr = f.header.addr :=
    putAll_frame (fun vars : FieldVars => vars.flow.addr) FieldVars.addr_put _ _ _
  rw [haddr, addr_header]

/-- Every field that is set has its content. -/
theorem get_readAll (hcontent : Sized (htonl f.fields) content) (flag : StoreField) :
    (f.readAll content).get flag =
      if shasfield (htonl f.fields) flag = true then content flag
      else f.readStart.vars.get flag := by
  have hbody := get_readDone hcontent flag
  rw [readAll]
  by_cases hflag : flag = .crc32
  · subst hflag
    have hmem : .crc32 ∉ StoreField.rfields.filter (shasfield (htonl f.fields)) :=
      fun h => StoreField.crc32_notMem (List.mem_filter.mp h).1
    by_cases hsum : shasfield (htonl f.fields) .crc32 = true
    · rw [if_pos hsum, if_pos hsum, FieldVars.lenses.get_put _ _ _ (hcontent _ hsum)]
    · rw [if_neg hsum, if_neg hsum, hbody, if_neg hmem]
  · have hput : (if shasfield (htonl f.fields) .crc32 = true then
        (f.readDone content).vars.put .crc32 (content .crc32)
        else (f.readDone content).vars).get flag = (f.readDone content).vars.get flag := by
      split
      · exact FieldVars.lenses.get_put_of_ne _ _ (Ne.symm hflag)
      · rfl
    rw [hput, hbody]
    by_cases hhas : shasfield (htonl f.fields) flag = true
    · rw [if_pos (List.mem_filter.mpr ⟨StoreField.mem_rfields hflag, hhas⟩), if_pos hhas]
    · rw [if_neg (fun h => hhas (List.mem_filter.mp h).2), if_neg hhas]

/-- The header is that of the record, and no address has been converted. -/
theorem hdr_readAll : (f.readAll content).flow.hdr = f.hdr := by
  rw [readAll]
  split
  · rw [FieldVars.hdr_put, hdr_readDone]
  · exact hdr_readDone

/-- Addresses are set by the conversion behind the loop. -/
theorem addr_readAll (g : AddrGroup) : (f.readAll content).flow.addr g = {} := by
  rw [readAll]
  split
  · rw [FieldVars.addr_put, addr_readDone]
  · exact addr_readDone g

/-- What the flow that is read holds, field by field. -/
theorem partsRead_readAll (hcontent : Sized (htonl f.fields) content) :
    PartsRead (htonl f.fields) content f.hdr (f.readAll content).flow where
  hdr_eq := hdr_readAll
  part_eq flag hflag := by
    rw [← FieldVars.get_eq_part _ hflag, get_readAll hcontent, FieldVars.get_eq_part _ hflag,
      readStart, part_header]

/-- Converting the addresses gives the record that was stored. -/
theorem decoded_readAll (hcontent : Sized (htonl f.fields) content)
    (hone : ∀ g, ¬ hasBoth (htonl f.fields) g = true) :
    Decoded (htonl f.fields) content f.hdr
      (addrGroups.foldl (cpyAddr (htonl f.fields) (f.readAll content))
        (f.readAll content).flow) := by
  have hparts := partsRead_readAll hcontent
  obtain ⟨hhdr, hpart, haddr⟩ := foldl_cpyAddr (htonl f.fields) (f.readAll content)
    nodup_addrGroups (f.readAll content).flow
  refine ⟨⟨hhdr.trans hparts.hdr_eq, fun flag hflag => (hpart flag).trans (hparts.part_eq flag hflag)⟩,
    fun g => ?_⟩
  rw [haddr, if_pos (mem_addrGroups g), copiedAddr, addr_readAll, get_readAll hcontent,
    get_readAll hcontent]
  have hboth := hone g
  rw [hasBoth, Bool.and_eq_true] at hboth
  by_cases h4 : shasfield (htonl f.fields) (.addr4 g) = true
  · have h6 : ¬ shasfield (htonl f.fields) (.addr6 g) = true := fun h6 => hboth ⟨h4, h6⟩
    simp only [if_pos h4, if_neg h6]
  · by_cases h6 : shasfield (htonl f.fields) (.addr6 g) = true
    · simp only [if_neg h4, if_pos h6]
    · simp only [if_neg h4, if_neg h6]

/-! ## Whole records -/

/-- Where the checksum is read. -/
def crcOffset (f : StoreFlowComplete) : ℕ :=
  if hasUnknown (htonl f.fields) then f.bodyLen + 8 - 4 else 8 + bodySize (htonl f.fields)

/-- The checksum is read behind the fields of the body. -/
theorem rfield_crc32 {buf : List UInt8} {fields : UInt32} {s : ReadState}
    (hfields : shasfield fields .crc32 = shasfield (htonl f.fields) .crc32)
    (hvars : s.vars = (f.readDone content).vars) (hcrc : s.crc = (f.readDone content).crc)
    (hfetch : shasfield (htonl f.fields) .crc32 = true →
      fetch buf s.offset 4 = .ok (content .crc32)) :
    ∃ s', rfield buf fields s .crc32 = .ok s' ∧ s'.crc = (f.readDone content).crc ∧
      s'.vars = f.readAll content := by
  by_cases hsum : shasfield (htonl f.fields) .crc32 = true
  · have hself : ¬ (shasfield fields .crc32 = true ∧ StoreField.crc32 ≠ .crc32) :=
      fun h => h.2 rfl
    rw [rfield_of_has (hfields.trans hsum) (hfetch hsum)]
    refine ⟨_, rfl, ?_, ?_⟩
    · exact (if_neg hself).trans hcrc
    · rw [readAll, if_pos hsum, ← hvars]
  · rw [rfield_of_not_has s (by rw [hfields]; exact hsum)]
    refine ⟨_, rfl, hcrc, ?_⟩
    rw [readAll, if_neg hsum, hvars]

/-- The conversion asks for known fields only. -/
theorem convertAddrs_and_all (fields : UInt32) :
    convertAddrs (fields &&& storeFieldAll) = convertAddrs fields := by
  have hboth : hasBoth (fields &&& storeFieldAll) = hasBoth fields := by
    ext g
    rw [hasBoth, hasBoth, shasfield_and_all, shasfield_and_all]
  have hcpy : cpyAddr (fields &&& storeFieldAll) = cpyAddr fields := by
    ext vars flow g
    rw [cpyAddr, cpyAddr, shasfield_and_all, shasfield_and_all]
  ext s
  rw [convertAddrs, convertAddrs, hboth, hcpy, shasfield_and_all]

/-- A record whose fields stand in the buffer is read. -/
theorem storeFlowDeserialise_read (hcontent : Sized (htonl f.fields) content)
    (hver : storeVerGetMaj f.version = storeVerMajor) {len : ℕ} (hlen : 8 + f.bodyLen ≤ len)
    (hextra : hasUnknown (htonl f.fields) → storeVerGetMin f.version > storeVerMinor)
    {rest : List UInt8}
    (hfetch : shasfield (htonl f.fields) .crc32 = true →
      fetch (f.hdr ++ (pieces (shasfield (htonl f.fields)) content StoreField.rfields ++ rest))
        f.crcOffset 4 = .ok (content .crc32)) :
    ∃ s, s.crc = (f.readDone content).crc ∧ s.vars = f.readAll content ∧
      storeFlowDeserialise (f.hdr ++
          (pieces (shasfield (htonl f.fields)) content StoreField.rfields ++ rest)) len =
        .ok (convertAddrs (htonl f.fields) s) := by
  rw [storeFlowDeserialise_pieces (fun flag _ => hcontent flag) hver hlen]
  -- with unknown fields the checksum stands at the end of the record, otherwise behind the fields
  by_cases hunknown : hasUnknown (htonl f.fields)
  · rw [crcOffset, if_pos hunknown] at hfetch
    obtain ⟨s, hs, hcrc, hvars⟩ := rfield_crc32
      (s := { f.readDone content with offset := f.bodyLen + 8 - 4 })
      (shasfield_and_all (htonl f.fields) .crc32) rfl rfl hfetch
    refine ⟨s, hcrc, hvars, ?_⟩
    rw [readChecksum_extra hunknown (hextra hunknown), hs, convertAddrs_and_all]
    rfl
  · rw [crcOffset, if_neg hunknown] at hfetch
    obtain ⟨s, hs, hcrc, hvars⟩ := rfield_crc32 (s := f.readDone content) rfl rfl rfl hfetch
    refine ⟨s, hcrc, hvars, ?_⟩
    rw [readChecksum_known hunknown, hs]
    rfl

section Read

variable (hcontent : Sized (htonl f.fields) content)
  (hver : storeVerGetMaj f.version = storeVerMajor) {len : ℕ} (hlen : 8 + f.bodyLen ≤ len)
  (hextra : hasUnknown (htonl f.fields) → storeVerGetMin f.version > storeVerMinor)
  {rest : List UInt8}
  (hfetch : shasfield (htonl f.fields) .crc32 = true →
    fetch (f.hdr ++ (pieces (shasfield (htonl f.fields)) content StoreField.rfields ++ rest))
      f.crcOffset 4 = .ok (content .crc32))

include hcontent hver hlen hextra hfetch

/-- With one family of each address, the record is decoded and its checksum compared. -/
theorem storeFlowDeserialise_one (hone : ∀ g, ¬ hasBoth (htonl f.fields) g = true) :
    ∃ flow, Decoded (htonl f.fields) content f.hdr flow ∧
      storeFlowDeserialise (f.hdr ++
          (pieces (shasfield (htonl f.fields)) content StoreField.rfields ++ rest)) len =
        .ok (if shasfield (htonl f.fields) .crc32 = true ∧
            flowdCrc32 (f.hdr ++ pieces (shasfield (htonl f.fields)) content StoreField.rfields) ≠
              htonl flow.crc32 then
          { ret := storeErrCrcMismatch, ebuf := "Flow checksum mismatch", flow := flow }
        else { flow := flow }) := by
  obtain ⟨s, hcrc, hvars, hs⟩ := storeFlowDeserialise_read hcontent hver hlen hextra hfetch
  refine ⟨_, decoded_readAll hcontent hone, ?_⟩
  rw [hs, convertAddrs_one s hone, hcrc, hvars, readDone]
  by_cases hsum : shasfield (htonl f.fields) .crc32 = true
  · rw [if_pos hsum]
  · rw [if_neg (fun h : _ ∧ _ => hsum h.1), if_neg (fun h : _ ∧ _ => hsum h.1)]

/-- With both families of an address, it is rejected. -/
theorem storeFlowDeserialise_both (hboth : ∃ g, hasBoth (htonl f.fields) g = true) :
    ∃ ebuf flow, PartsRead (htonl f.fields) content f.hdr flow ∧ (∀ g, flow.addr g = {}) ∧
      storeFlowDeserialise (f.hdr ++
          (pieces (shasfield (htonl f.fields)) content StoreField.rfields ++ rest)) len =
        .ok { ret := -1, ebuf := ebuf, flow := flow } := by
  obtain ⟨s, -, hvars, hs⟩ := storeFlowDeserialise_read hcontent hver hlen hextra hfetch
  obtain ⟨ebuf, hconvert⟩ := convertAddrs_both s hboth
  refine ⟨ebuf, (f.readAll content).flow, partsRead_readAll hcontent, addr_readAll, ?_⟩
  rw [hs, hconvert, hvars]

end Read

end StoreFlowComplete

end Flowd
