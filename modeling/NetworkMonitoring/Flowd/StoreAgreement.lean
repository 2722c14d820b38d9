import NetworkMonitoring.Flowd.StoreBounds

/-!
# flowd — the two readers of the log compared

`store_get_flow` counts bytes and `store_read_flow` counts items, so the one reads a record without
a body and the other takes it for the end of the file. Both leave in `buf` what was there before, so
they differ, too, when a field of a record goes beyond the record.

## Main result

* `readersAgree_iff`: the two readers agree on a file exactly when every record that they come to
  has a body and ends behind its fields.
-/

namespace Flowd

open Bytes OptionalFields ErrorLoops ByteBuffer

namespace StoreFlowComplete

/-! ## What comes out of a record -/

variable (f : StoreFlowComplete)

/-- The version of a record explains the fields that `store.h` does not know. -/
def FieldsAllowed : Prop :=
  hasUnknown (htonl f.fields) → storeVerGetMin f.version > storeVerMinor

instance : Decidable f.FieldsAllowed := inferInstanceAs (Decidable (_ → _))

/-- What `store_flow_deserialise` makes of the contents of the fields. -/
def deserialised (content : StoreField → List UInt8) : StoreResult :=
  if f.FieldsAllowed then
    convertAddrs (htonl f.fields) { f.readDone content with vars := f.readAll content }
  else
    { ret := -1, ebuf := "Flow has unknown fields", flow := (f.readDone content).vars.flow }

/-- A field whose content is found in the record that `store_flow_deserialise` leaves behind, be it
accepted or not. -/
def Shown (flag : StoreField) : Prop :=
  shasfield (htonl f.fields) flag = true ∧
    (flag = .crc32 ∨ flag.isAddr = true → f.FieldsAllowed) ∧
    (flag.isAddr = true → ∀ g, ¬ hasBoth (htonl f.fields) g = true)

/-- The content of a field stands in a record. -/
def Holds (flow : StoreFlowComplete) : StoreField → List UInt8 → Prop
  | .addr4 g, bs => flow.addr g = Xaddr.copy {} bs afInet
  | .addr6 g, bs => flow.addr g = Xaddr.copy {} bs afInet6
  | flag, bs => flow.part flag = bs

/-- A field that is no address is held as its part of the flow. -/
theorem holds_part {flag : StoreField} (haddr : flag.isAddr = false) {bs : List UInt8} :
    f.Holds flag bs ↔ f.part flag = bs := by
  cases flag with
  | addr4 | addr6 => cases haddr
  | _ => exact Iff.rfl

/-- A record holds one content of a field. -/
theorem Holds.inj {flow : StoreFlowComplete} {flag : StoreField} {x y : List UInt8}
    (hx : flow.Holds flag x) (hy : flow.Holds flag y) (hxlen : x.length = flag.size)
    (hylen : y.length = flag.size) : x = y := by
  cases flag with
  | addr4 g | addr6 g =>
    refine Xaddr.copy_inj ?_ (hxlen.trans hylen.symm) (Eq.trans (Eq.symm hx) hy)
    rw [hxlen]
    cases g <;> decide
  | _ => exact Eq.trans (Eq.symm hx) hy

variable {f} {content content' : StoreField → List UInt8}

/-- What the deserialiser makes of a whole body. -/
theorem storeFlowDeserialise_eq {body : List UInt8} {len : ℕ}
    (hver : storeVerGetMaj f.version = storeVerMajor) (hlen : 8 + f.bodyLen ≤ len)
    (hneeded : f.needed ≤ body.length) (hbody : f.bodyLen ≤ body.length) :
    storeFlowDeserialise (f.hdr ++ body) len = .ok (f.deserialised (f.contentOf body)) := by
  by_cases hallowed : f.FieldsAllowed
  · obtain ⟨s, hcrc, hvars, hs⟩ := storeFlowDeserialise_body hver hlen hallowed hneeded hbody
    rw [hs, deserialised, if_pos hallowed]
    exact congrArg Except.ok (convertAddrs_congr _ hcrc hvars)
  · obtain ⟨hunknown, hminor⟩ := Classical.not_imp.mp hallowed
    rw [storeFlowDeserialise_reject hver hlen hunknown hminor hneeded hbody, deserialised,
      if_neg hallowed]

/-- A record of another major version. -/
theorem storeFlowDeserialise_version {body : List UInt8} {len : ℕ}
    (hver : storeVerGetMaj f.version ≠ storeVerMajor) (hlen : 8 ≤ len) :
    storeFlowDeserialise (f.hdr ++ body) len =
      .ok { ret := storeErrUnsupVersion, ebuf := "Unsupported version", flow := f.header } := by
  have hfetch : fetch (f.hdr ++ body) 0 8 = .ok f.hdr :=
    @fetch_append [] f.hdr body 0 8 rfl (f.length_hdr).symm
  have hread := f.run_readHdr []
  rw [List.append_nil] at hread
  rw [storeFlowDeserialise, if_neg (Nat.not_lt.mpr hlen)]
  simp only [hfetch, ok_bind, hread]
  exact if_pos hver

/-- The three ways in which a record ends. -/
theorem deserialised_cases (hcontent : Sized (htonl f.fields) content) :
    (¬ f.FieldsAllowed ∧ (f.deserialised content).ret = -1 ∧
      (f.deserialised content).flow = (f.readDone content).vars.flow) ∨
    (f.FieldsAllowed ∧ (∃ g, hasBoth (htonl f.fields) g = true) ∧
      (f.deserialised content).ret = -1 ∧
      (f.deserialised content).flow = (f.readAll content).flow) ∨
    (f.FieldsAllowed ∧ (∀ g, ¬ hasBoth (htonl f.fields) g = true) ∧
      ((f.deserialised content).ret = storeErrOk ∨
        (f.deserialised content).ret = storeErrCrcMismatch) ∧
      Decoded (htonl f.fields) content f.hdr (f.deserialised content).flow) := by
  by_cases hallowed : f.FieldsAllowed
  · by_cases hboth : ∃ g, hasBoth (htonl f.fields) g = true
    -- addresses of both families are set: the conversion of the addresses gives up
    · obtain ⟨ebuf, hconvert⟩ := convertAddrs_both
        { f.readDone content with vars := f.readAll content } hboth
      rw [deserialised, if_pos hallowed, hconvert]
      exact .inr (.inl ⟨hallowed, hboth, rfl, rfl⟩)
    · have hone := not_exists.mp hboth
      have hdecoded := decoded_readAll hcontent hone
      rw [deserialised, if_pos hallowed, convertAddrs_one _ hone]
      refine .inr (.inr ⟨hallowed, hone, ?_⟩)
      split
      · exact ⟨.inr rfl, hdecoded⟩
      · exact ⟨.inl rfl, hdecoded⟩
  · rw [deserialised, if_neg hallowed]
    exact .inl ⟨hallowed, rfl, rfl⟩

/-- A whole body is not the end of the file. -/
theorem deserialised_ret_ne (hcontent : Sized (htonl f.fields) content) :
    (f.deserialised content).ret ≠ storeErrEof := by
  rcases deserialised_cases hcontent with ⟨-, h, -⟩ | ⟨-, -, h, -⟩ | ⟨-, -, h | h, -⟩ <;>
    rw [h] <;> decide

/-- All fields of an accepted record show. -/
theorem shown_of_ok (hcontent : Sized (htonl f.fields) content)
    (hok : (f.deserialised content).ret = storeErrOk) {flag : StoreField}
    (hflag : shasfield (htonl f.fields) flag = true) : f.Shown flag := by
  have hne : (-1 : ℤ) ≠ storeErrOk := by decide
  rcases deserialised_cases hcontent with ⟨-, h, -⟩ | ⟨-, -, h, -⟩ | ⟨hallowed, hone, -, -⟩
  · exact absurd (h.symm.trans hok) hne
  · exact absurd (h.symm.trans hok) hne
  · exact ⟨hflag, fun _ => hallowed, fun _ => hone⟩

/-- A field that is shown holds its content. -/
theorem deserialised_holds (hcontent : Sized (htonl f.fields) content) {flag : StoreField}
    (hshown : f.Shown flag) : (f.deserialised content).flow.Holds flag (content flag) := by
  obtain ⟨hflag, hallowed, hone⟩ := hshown
  rcases deserialised_cases hcontent with ⟨hnot, -, hflow⟩ | ⟨-, ⟨g, hg⟩, -, hflow⟩ |
    ⟨-, hone', -, hdecoded⟩
  · have hcrc : flag ≠ .crc32 := fun h => hnot (hallowed (.inl h))
    have haddr : flag.isAddr = false :=
      Bool.eq_false_iff.mpr fun h => hnot (hallowed (.inr h))
    rw [hflow, holds_part _ haddr, ← FieldVars.get_eq_part _ haddr, get_readDone hcontent,
      if_pos (List.mem_filter.mpr ⟨StoreField.mem_rfields hcrc, hflag⟩)]
  · have haddr : flag.isAddr = false := Bool.eq_false_iff.mpr fun h => hone h g hg
    rw [hflow, holds_part _ haddr, (partsRead_readAll hcontent).part_eq flag haddr, if_pos hflag]
  · cases flag with
    | addr4 g => exact (hdecoded.addr_eq g).trans (if_pos hflag)
    | addr6 g =>
      have hboth := hone' g
      rw [hasBoth, hflag, Bool.and_true] at hboth
      exact (hdecoded.addr_eq g).trans ((if_neg hboth).trans (if_pos hflag))
    | _ => exact (hdecoded.part_eq _ rfl).trans (if_pos hflag)

/-- Only the fields that show matter. -/
theorem deserialised_congr (hcontent : Sized (htonl f.fields) content)
    (hcontent' : Sized (htonl f.fields) content')
    (hsame : ∀ flag, f.Shown flag → content flag = content' flag) :
    (f.deserialised content).ret = (f.deserialised content').ret ∧
      (f.deserialised content).flow = (f.deserialised content').flow := by
  by_cases hallowed : f.FieldsAllowed
  · by_cases hboth : ∃ g, hasBoth (htonl f.fields) g = true
    · obtain ⟨ebuf, h⟩ := convertAddrs_both
        { f.readDone content with vars := f.readAll content } hboth
      obtain ⟨ebuf', h'⟩ := convertAddrs_both
        { f.readDone content' with vars := f.readAll content' } hboth
      rw [deserialised, deserialised, if_pos hallowed, if_pos hallowed, h, h']
      -- the addresses are not stored, and all other fields that are set show
      refine ⟨rfl, ext_fields (hdr_readAll.trans hdr_readAll.symm) (fun flag haddr => ?_)
        fun g => ?_⟩
      · rw [(partsRead_readAll hcontent).part_eq flag haddr,
          (partsRead_readAll hcontent').part_eq flag haddr]
        by_cases hflag : shasfield (htonl f.fields) flag = true
        · rw [if_pos hflag, if_pos hflag]
          exact hsame flag
            ⟨hflag, fun _ => hallowed, fun h => absurd h (Bool.eq_false_iff.mp haddr)⟩
        · rw [if_neg hflag, if_neg hflag]
      · rw [addr_readAll, addr_readAll]
    · have hall : ∀ flag, shasfield (htonl f.fields) flag = true → content flag = content' flag :=
        fun flag hflag => hsame flag ⟨hflag, fun _ => hallowed, fun _ => not_exists.mp hboth⟩
      rw [deserialised, deserialised, readDone_congr fun flag _ => hall flag, readAll_congr hall]
      exact ⟨rfl, rfl⟩
  · rw [deserialised, deserialised, if_neg hallowed, if_neg hallowed]
    refine ⟨rfl, ext_fields (hdr_readDone.trans hdr_readDone.symm) (fun flag haddr => ?_)
      fun g => ?_⟩
    -- nothing behind the fields up to the checksum has been stored
    · show (f.readDone content).vars.flow.part flag = (f.readDone content').vars.flow.part flag
      have haddr' := Bool.eq_false_iff.mp haddr
      rw [← FieldVars.get_eq_part _ haddr, ← FieldVars.get_eq_part _ haddr,
        get_readDone hcontent, get_readDone hcontent']
      by_cases hmem : flag ∈ StoreField.rfields.filter (shasfield (htonl f.fields))
      · rw [if_pos hmem, if_pos hmem]
        obtain ⟨hrfields, hflag⟩ := List.mem_filter.mp hmem
        refine hsame flag ⟨hflag, fun h => ?_, fun h => absurd h haddr'⟩
        rcases h with rfl | h
        · exact absurd hrfields StoreField.crc32_notMem
        · exact absurd h haddr'
      · rw [if_neg hmem, if_neg hmem]
    · rw [addr_readDone, addr_readDone]

/-! ## The bytes behind a record -/

/-- Every field that shows ends within the record. -/
def ShownInside (f : StoreFlowComplete) : Prop := ∀ flag, f.Shown flag → f.fieldEnd flag ≤ f.bodyLen

/-- The deserialiser needs no more than a body with all fields. -/
theorem needed_le : f.needed ≤ 176 := by
  have hbody := bodySize_le (htonl f.fields)
  have hcrc := crcSize_le (htonl f.fields)
  rw [needed]
  split <;> omega

/-- When all fields end within the record, it has the bytes that they take. -/
theorem needed_le_bodyLen
    (h : ∀ flag, shasfield (htonl f.fields) flag = true → f.fieldEnd flag ≤ f.bodyLen) :
    f.needed ≤ f.bodyLen := by
  have hbody : bodySize (htonl f.fields) ≤ f.bodyLen := by
    refine size_le_of_start_add_le StoreField.nodup_rfields fun flag hmem hflag => ?_
    rw [← fieldEnd_of_ne (f := f) fun hcrc => StoreField.crc32_notMem (hcrc ▸ hmem)]
    exact h flag hflag
  rw [needed]
  split
  · exact hbody
  · rename_i hunknown
    rw [crcSize]
    split
    · rename_i hsum
      have hend := h .crc32 hsum
      rw [fieldEnd, crcOffset, if_neg hunknown] at hend
      omega
    · exact hbody

/-- The last byte of a field that ends behind the record. -/
theorem getElem?_contentOf {body : List UInt8} {flag : StoreField}
    (hend : f.bodyLen < f.fieldEnd flag) :
    (f.contentOf body flag)[flag.size - 1]? = body[f.fieldEnd flag - 1]? := by
  by_cases hcrc : flag = .crc32
  · subst hcrc
    rw [fieldEnd] at hend ⊢
    have hlast : f.crcOffset + 3 = f.hdr.length + (f.crcOffset + 4 - 8 - 1) := by
      rw [length_hdr]
      omega
    rw [contentOf, List.getElem?_take_of_lt (by decide), List.getElem?_drop]
    show (f.hdr ++ body)[f.crcOffset + 3]? = _
    rw [hlast, List.getElem?_append_right (Nat.le_add_right ..), Nat.add_sub_cancel_left]
  · have hsize := flag.size_pos
    rw [fieldEnd_of_ne hcrc, contentOf_of_ne hcrc, cut, List.getElem?_take_of_lt (by omega),
      List.getElem?_drop, Nat.add_sub_assoc hsize]

/-- What the buffer of the readers holds behind the header. -/
def readerBody (stack : List UInt8) (h : StoreFlowComplete) (tail : List UInt8) : List UInt8 :=
  tail.take h.bodyLen ++ (stack.drop 8).drop h.bodyLen

variable {stack tail : List UInt8}

/-- The length of what is behind the header in the buffer. -/
theorem length_readerBody (hstack : stack.length = readerBufSize) (hlen : f.bodyLen ≤ tail.length)
    (hfits : f.bodyLen ≤ readerBufSize - 8) : (readerBody stack f tail).length = 504 := by
  have h504 : readerBufSize - 8 = 504 := rfl
  rw [readerBody, List.length_append, List.length_take_of_le hlen, List.length_drop,
    List.length_drop, hstack]
  omega

/-- A field that ends inside the body is in the buffer. -/
theorem contentOf_readerBody (hlen : f.bodyLen ≤ tail.length) {flag : StoreField}
    (hend : f.fieldEnd flag ≤ f.bodyLen) :
    f.contentOf (readerBody stack f tail) flag = f.contentOf (tail.take f.bodyLen) flag :=
  contentOf_append (hend.trans (List.length_take_of_le hlen).ge) _

/-- A byte behind the record is one that the buffer held before. -/
theorem getElem?_readerBody {x : UInt8} {i : ℕ} (hlen : f.bodyLen ≤ tail.length)
    (hi : f.bodyLen ≤ i) (hi' : i < 504) :
    (readerBody (List.replicate readerBufSize x) f tail)[i]? = some x := by
  have hstale : (List.replicate readerBufSize x).drop 8 = List.replicate 504 x := by
    rw [List.drop_replicate]
    rfl
  have htake := List.length_take_of_le hlen
  rw [readerBody, hstale, List.drop_replicate, List.getElem?_append_right (by omega), htake,
    List.getElem?_replicate, if_pos (by omega)]

/-- An accepted record is accepted with whatever stands behind it. -/
theorem storeFlowDeserialise_of_take (hlen : f.bodyLen ≤ tail.length) {r : StoreResult}
    (hr : storeFlowDeserialise (f.hdr ++ tail.take f.bodyLen) (f.bodyLen + 8) = .ok r)
    (hok : r.ret = storeErrOk) (stack : List UInt8) :
    storeFlowDeserialise (readerBuf stack f tail) (f.bodyLen + 8) = .ok r := by
  have hrecord : (tail.take f.bodyLen).length = f.bodyLen := List.length_take_of_le hlen
  have hsize : 8 + f.bodyLen ≤ f.bodyLen + 8 := (Nat.add_comm ..).le
  have hver : storeVerGetMaj f.version = storeVerMajor := by
    by_contra hver
    rw [storeFlowDeserialise_version hver (Nat.le_add_left 8 f.bodyLen)] at hr
    obtain rfl := Except.ok.inj hr
    exact absurd hok (show storeErrUnsupVersion ≠ storeErrOk by decide)
  have hneeded : f.needed ≤ (tail.take f.bodyLen).length := by
    by_contra hneeded
    rw [storeFlowDeserialise_behind hver hsize (Nat.lt_of_not_le hneeded)] at hr
    exact ok_ne_error hr.symm
  obtain ⟨r', hr', hbuf⟩ := storeFlowDeserialise_append hver hsize hneeded hrecord.ge
    ((stack.drop 8).drop f.bodyLen)
  obtain rfl := Except.ok.inj (hr.symm.trans hr')
  exact hbuf

section Reader

variable (hlen : f.bodyLen ≤ tail.length) (hfits : f.bodyLen ≤ readerBufSize - 8)

include hlen hfits

/-- The fields in the buffer have their sizes. -/
theorem sized_readerBody (hstack : stack.length = readerBufSize) :
    Sized (htonl f.fields) (f.contentOf (readerBody stack f tail)) := by
  have h504 : readerBufSize - 8 = 504 := rfl
  have hbody := length_readerBody hstack hlen hfits
  have hneeded : f.needed ≤ 176 := needed_le
  exact sized_contentOf (by omega) (by omega)

/-- What the deserialiser makes of the buffer. -/
theorem storeFlowDeserialise_readerBuf (hver : storeVerGetMaj f.version = storeVerMajor)
    (hstack : stack.length = readerBufSize) :
    storeFlowDeserialise (readerBuf stack f tail) (f.bodyLen + 8) =
      .ok (f.deserialised (f.contentOf (readerBody stack f tail))) := by
  have h504 : readerBufSize - 8 = 504 := rfl
  have hbody := length_readerBody hstack hlen hfits
  have hneeded : f.needed ≤ 176 := needed_le
  show storeFlowDeserialise (f.hdr ++ readerBody stack f tail) (f.bodyLen + 8) = _
  exact storeFlowDeserialise_eq hver (Nat.add_comm ..).le (by omega) (by omega)

/-- A reader always gets a result, and it is not the end of the file. -/
theorem exists_storeFlowDeserialise (hstack : stack.length = readerBufSize) :
    ∃ r, storeFlowDeserialise (readerBuf stack f tail) (f.bodyLen + 8) = .ok r ∧
      r.ret ≠ storeErrEof := by
  by_cases hver : storeVerGetMaj f.version = storeVerMajor
  · exact ⟨_, storeFlowDeserialise_readerBuf hlen hfits hver hstack,
      deserialised_ret_ne (sized_readerBody hlen hfits hstack)⟩
  · exact ⟨_, storeFlowDeserialise_version hver (Nat.le_add_left 8 f.bodyLen),
      show storeErrUnsupVersion ≠ storeErrEof by decide⟩

/-- When the fields that show end within the record, what the buffer held before does not matter. -/
theorem storeFlowDeserialise_inside
    (hinside : storeVerGetMaj f.version = storeVerMajor → f.ShownInside) :
    ∃ ret flow, ∀ stack : List UInt8, stack.length = readerBufSize →
      ∃ r, storeFlowDeserialise (readerBuf stack f tail) (f.bodyLen + 8) = .ok r ∧
        r.ret = ret ∧ r.flow = flow := by
  by_cases hver : storeVerGetMaj f.version = storeVerMajor
  · let zeros : List UInt8 := List.replicate readerBufSize 0
    have hzeros : zeros.length = readerBufSize := List.length_replicate
    refine ⟨(f.deserialised (f.contentOf (readerBody zeros f tail))).ret,
      (f.deserialised (f.contentOf (readerBody zeros f tail))).flow, fun stack hstack => ?_⟩
    refine ⟨_, storeFlowDeserialise_readerBuf hlen hfits hver hstack, ?_⟩
    apply deserialised_congr (sized_readerBody hlen hfits hstack)
      (sized_readerBody hlen hfits hzeros)
    intro flag hshown
    rw [contentOf_readerBody hlen (hinside hver flag hshown),
      contentOf_readerBody hlen (hinside hver flag hshown)]
  · exact ⟨storeErrUnsupVersion, f.header, fun stack hstack =>
      ⟨_, storeFlowDeserialise_version hver (Nat.le_add_left 8 f.bodyLen), rfl, rfl⟩⟩

/-- An accepted record is accepted without the bytes behind it. -/
theorem storeFlowDeserialise_take
    (hinside : storeVerGetMaj f.version = storeVerMajor → f.ShownInside)
    (hstack : stack.length = readerBufSize) {r : StoreResult}
    (hr : storeFlowDeserialise (readerBuf stack f tail) (f.bodyLen + 8) = .ok r)
    (hok : r.ret = storeErrOk) :
    ∃ r', storeFlowDeserialise (f.hdr ++ tail.take f.bodyLen) (f.bodyLen + 8) = .ok r' ∧
      r'.ret = storeErrOk ∧ r'.flow = r.flow := by
  have hrecord : (tail.take f.bodyLen).length = f.bodyLen := List.length_take_of_le hlen
  by_cases hver : storeVerGetMaj f.version = storeVerMajor
  · have hsized := sized_readerBody hlen hfits hstack
    obtain rfl := Except.ok.inj
      (hr.symm.trans (storeFlowDeserialise_readerBuf hlen hfits hver hstack))
    have hends : ∀ flag, shasfield (htonl f.fields) flag = true → f.fieldEnd flag ≤ f.bodyLen :=
      fun flag hflag => hinside hver flag (shown_of_ok hsized hok hflag)
    have hneeded := (needed_le_bodyLen hends).trans hrecord.ge
    obtain ⟨hret, hflow⟩ := deserialised_congr
      (sized_contentOf hneeded hrecord.ge) hsized fun flag hshown =>
        (contentOf_readerBody hlen (hinside hver flag hshown)).symm
    exact ⟨_, storeFlowDeserialise_eq hver (Nat.add_comm ..).le hneeded hrecord.ge,
      hret.trans hok, hflow⟩
  · rw [readerBuf, storeFlowDeserialise_version hver (Nat.le_add_left 8 f.bodyLen)] at hr
    obtain rfl := Except.ok.inj hr
    exact absurd hok (show storeErrUnsupVersion ≠ storeErrOk by decide)

/-- A field that shows and ends behind the record shows what the buffer held before. -/
theorem shownInside_of_flow_eq (hver : storeVerGetMaj f.version = storeVerMajor)
    {r r' : StoreResult}
    (hr : storeFlowDeserialise (readerBuf (List.replicate readerBufSize 0) f tail)
      (f.bodyLen + 8) = .ok r)
    (hr' : storeFlowDeserialise (readerBuf (List.replicate readerBufSize 255) f tail)
      (f.bodyLen + 8) = .ok r')
    (hflow : r.flow = r'.flow) : f.ShownInside := by
  intro flag hshown
  by_contra hend
  have hend' : f.bodyLen < f.fieldEnd flag := Nat.lt_of_not_le hend
  have hle : f.fieldEnd flag ≤ 504 :=
    fieldEnd_le (needed_le.trans (by decide)) hfits hshown.1
  have hstack (x : UInt8) : (List.replicate readerBufSize x).length = readerBufSize :=
    List.length_replicate
  have hsized (x : UInt8) := sized_readerBody hlen hfits (hstack x)
  obtain rfl := Except.ok.inj
    (hr.symm.trans (storeFlowDeserialise_readerBuf hlen hfits hver (hstack 0)))
  obtain rfl := Except.ok.inj
    (hr'.symm.trans (storeFlowDeserialise_readerBuf hlen hfits hver (hstack 255)))
  have hzeros := deserialised_holds (hsized 0) hshown
  have hones := deserialised_holds (hsized 255) hshown
  rw [hflow] at hzeros
  have hsame := hzeros.inj hones (hsized 0 flag hshown.1) (hsized 255 flag hshown.1)
  -- the last byte of the field is one of the buffer, which held 0 in one call and 255 in the other
  have hlast (x : UInt8) := getElem?_readerBody (x := x) hlen (Nat.le_sub_one_of_lt hend')
    (show f.fieldEnd flag - 1 < 504 by omega)
  have hbytes : some (0 : UInt8) = some 255 := by
    rw [← hlast 0, ← hlast 255, ← getElem?_contentOf hend', ← getElem?_contentOf hend', hsame]
  exact absurd hbytes (by decide)

end Reader

end StoreFlowComplete

/-! ## The readers on a file -/

/-- A file starts with a whole record that has room in `buf`. -/
def StartsWithRecord (file : List UInt8) : Prop :=
  8 + (bufHdr file).bodyLen ≤ file.length ∧ (bufHdr file).bodyLen ≤ readerBufSize - 8

instance (file : List UInt8) : Decidable (StartsWithRecord file) := instDecidableAnd

/-- The first record of a file, if there is one, is read by both functions from its own bytes. -/
def Agreeable (file : List UInt8) : Prop :=
  StartsWithRecord file → (bufHdr file).bodyLen ≠ 0 ∧
    (storeVerGetMaj (bufHdr file).version = storeVerMajor → (bufHdr file).ShownInside)

/-- The first record of a file is accepted: what was read before and the file, and the record and
the rest of the file. -/
inductive Accepts : StoreFlowComplete × List UInt8 → StoreFlowComplete × List UInt8 → Prop
  | record {f : StoreFlowComplete} {file : List UInt8} {r : StoreResult}
      (hrecord : StartsWithRecord file)
      (hread : storeFlowDeserialise (file.take (8 + (bufHdr file).bodyLen))
        ((bufHdr file).bodyLen + 8) = .ok r)
      (hok : r.ret = storeErrOk) :
      Accepts (f, file) (r.flow, file.drop (8 + (bufHdr file).bodyLen))

/-- The two readers return the same results and records, for every number of calls, whatever their
buffers hold before a call and however a file descriptor hands out its bytes. -/
def ReadersAgree (f : StoreFlowComplete) (file : List UInt8) : Prop :=
  ∀ (n : ℕ) (chunk : ℕ → ℕ → ℕ) (stack stack' : ℕ → List UInt8),
    (∀ i, (stack i).length = readerBufSize) → (∀ i, (stack' i).length = readerBufSize) →
    repeatCalls (fun i => storeGetFlow (chunk i) (stack i)) n f file =
      repeatCalls (fun i => storeReadFlow (stack' i)) n f file

/-- The header is read from the front of the buffer. -/
theorem bufHdr_append (h : StoreFlowComplete) (tail : List UInt8) :
    bufHdr (h.hdr ++ tail) = h.header := h.run_readHdr tail

/-- The header and the rest of a file. -/
theorem StartsWithRecord.split {file : List UInt8} (hrecord : StartsWithRecord file) :
    ∃ (h : StoreFlowComplete) (tail : List UInt8), file = h.hdr ++ tail ∧
      h.bodyLen ≤ tail.length ∧ h.bodyLen ≤ readerBufSize - 8 ∧
      file.take (8 + (bufHdr file).bodyLen) = h.hdr ++ tail.take h.bodyLen ∧
      file.drop (8 + (bufHdr file).bodyLen) = tail.drop h.bodyLen := by
  obtain ⟨hwhole, hfits⟩ := hrecord
  have hlen : file.length = file.length - 8 + 8 := by omega
  obtain ⟨h, tail, rfl, -⟩ := StoreFlowComplete.exists_hdr hlen
  rw [bufHdr_append] at *
  rw [List.length_append, h.length_hdr] at hwhole
  refine ⟨h, tail, rfl, Nat.le_of_add_le_add_left hwhole, hfits, ?_, ?_⟩
  · rw [← h.length_hdr, List.take_length_add_append]
    rfl
  · rw [← h.length_hdr, List.drop_length_add_append]
    rfl

variable {f : StoreFlowComplete} {file : List UInt8}

/-- Where no whole record follows, the readers fail alike and leave the record as it is. -/
theorem readers_fail (hnone : ¬ StartsWithRecord file) (chunk : ℕ → ℕ) (stack stack' : List UInt8) :
    ∃ r r' rest rest', storeGetFlow chunk stack f file = .ok (r, rest) ∧
      storeReadFlow stack' f file = .ok (r', rest') ∧ r.ret ≠ storeErrOk ∧
      r'.ret = r.ret ∧ r.flow = f ∧ r'.flow = f := by
  by_cases hshort : file.length < 8
  · exact ⟨_, _, _, _, storeGetFlow_short hshort, storeReadFlow_short hshort,
      show storeErrEof ≠ storeErrOk by decide, rfl, rfl, rfl⟩
  · have hlen : file.length = file.length - 8 + 8 := by omega
    obtain ⟨h, tail, rfl, -⟩ := StoreFlowComplete.exists_hdr hlen
    rw [storeGetFlow_hdr, storeReadFlow_hdr]
    by_cases hbig : h.bodyLen > readerBufSize - 8
    · rw [if_pos hbig, if_pos hbig]
      exact ⟨_, _, _, _, rfl, rfl, show storeErrInternal ≠ storeErrOk by decide, rfl, rfl, rfl⟩
    · have hwhole : tail.length < h.bodyLen := by
        by_contra hwhole
        refine hnone ⟨?_, ?_⟩
        · rw [bufHdr_append, List.length_append, h.length_hdr]
          exact Nat.add_le_add_left (Nat.le_of_not_lt hwhole) 8
        · rw [bufHdr_append]
          exact Nat.le_of_not_gt hbig
      rw [if_neg hbig, if_neg hbig, if_pos hwhole, if_pos (.inr hwhole)]
      exact ⟨_, _, _, _, rfl, rfl, show storeErrEof ≠ storeErrOk by decide, rfl, rfl, rfl⟩

/-- A first record that both functions read from its own bytes. -/
theorem readers_record (hrecord : StartsWithRecord file) (hagreeable : Agreeable file) :
    ∃ ret flow, (ret = storeErrOk →
        Accepts (f, file) (flow, file.drop (8 + (bufHdr file).bodyLen))) ∧
      ∀ (chunk : ℕ → ℕ) (stack stack' : List UInt8), stack.length = readerBufSize →
        stack'.length = readerBufSize → ∃ r r',
          storeGetFlow chunk stack f file = .ok (r, file.drop (8 + (bufHdr file).bodyLen)) ∧
          storeReadFlow stack' f file = .ok (r', file.drop (8 + (bufHdr file).bodyLen)) ∧
          r.ret = ret ∧ r.flow = flow ∧ r'.ret = ret ∧ r'.flow = flow := by
  obtain ⟨hbody, hinside⟩ := hagreeable hrecord
  obtain ⟨h, tail, rfl, hlen, hfits, htake, hdrop⟩ := hrecord.split
  rw [bufHdr_append] at hbody hinside
  change h.bodyLen ≠ 0 at hbody
  change storeVerGetMaj h.version = storeVerMajor → h.ShownInside at hinside
  obtain ⟨ret, flow, hread⟩ := StoreFlowComplete.storeFlowDeserialise_inside hlen hfits hinside
  have hbig : ¬ h.bodyLen > readerBufSize - 8 := Nat.not_lt.mpr hfits
  have hempty : ¬ (h.bodyLen = 0 ∨ tail.length < h.bodyLen) := by omega
  refine ⟨ret, flow, fun hret => ?_, fun chunk stack stack' hstack hstack' => ?_⟩
  -- what is accepted does not depend on the buffer, so one full of zeros will do
  · have hzeros : (List.replicate readerBufSize (0 : UInt8)).length = readerBufSize :=
      List.length_replicate
    obtain ⟨r, hr, hrret, rfl⟩ := hread _ hzeros
    obtain ⟨r', hr', hok, hflow⟩ :=
      h.storeFlowDeserialise_take hlen hfits hinside hzeros hr (hrret.trans hret)
    rw [← hflow]
    refine .record hrecord ?_ hok
    rw [htake, bufHdr_append]
    exact hr'
  · obtain ⟨r, hr, hret, hflow⟩ := hread stack hstack
    obtain ⟨r', hr', hret', hflow'⟩ := hread stack' hstack'
    refine ⟨r, r', ?_, ?_, hret, hflow, hret', hflow'⟩
    · rw [storeGetFlow_hdr, if_neg hbig, if_neg (Nat.not_lt.mpr hlen), hr, hdrop]
      rfl
    · rw [storeReadFlow_hdr, if_neg hbig, if_neg hempty, hr', hdrop]
      rfl

/-! ## Repeated calls -/

section Repeat

variable {call : ℕ → StoreFlowComplete → List UInt8 → Except Fault (StoreResult × List UInt8)}
  {n : ℕ} {r : StoreResult} {rest : List UInt8}

/-- The calls go on behind one that succeeds. -/
theorem repeatCalls_ok (hcall : call n f file = .ok (r, rest)) (hok : r.ret = storeErrOk) :
    repeatCalls call (n + 1) f file =
      (repeatCalls call n r.flow rest).map ((r.ret, r.flow) :: ·) := by
  rw [repeatCalls, hcall, ok_bind]
  exact if_pos hok

/-- The calls stop at one that does not succeed. -/
theorem repeatCalls_stop (hcall : call n f file = .ok (r, rest)) (hstop : r.ret ≠ storeErrOk) :
    repeatCalls call (n + 1) f file = .ok [(r.ret, r.flow)] := by
  rw [repeatCalls, hcall, ok_bind]
  exact if_neg hstop

/-- A single call. -/
theorem repeatCalls_one (hcall : call 0 f file = .ok (r, rest)) :
    repeatCalls call 1 f file = .ok [(r.ret, r.flow)] := by
  by_cases hok : r.ret = storeErrOk
  · rw [repeatCalls_ok hcall hok]
    rfl
  · exact repeatCalls_stop hcall hok

end Repeat

/-- One call is enough to see a difference in the first record. -/
theorem ReadersAgree.agreeable (hagree : ReadersAgree f file) : Agreeable file := by
  intro hrecord
  obtain ⟨h, tail, rfl, hlen, hfits, -, -⟩ := hrecord.split
  have hbig : ¬ h.bodyLen > readerBufSize - 8 := Nat.not_lt.mpr hfits
  have hstack (x : UInt8) : (List.replicate readerBufSize x).length = readerBufSize :=
    List.length_replicate
  have hget (x : UInt8) : ∃ r,
      storeFlowDeserialise (readerBuf (List.replicate readerBufSize x) h tail) (h.bodyLen + 8) =
        .ok r ∧ r.ret ≠ storeErrEof ∧
      storeGetFlow (fun _ => 1) (List.replicate readerBufSize x) f (h.hdr ++ tail) =
        .ok (r, tail.drop h.bodyLen) := by
    obtain ⟨r, hr, hret⟩ := h.exists_storeFlowDeserialise hlen hfits (hstack x)
    refine ⟨r, hr, hret, ?_⟩
    rw [storeGetFlow_hdr, if_neg hbig, if_neg (Nat.not_lt.mpr hlen), hr]
    rfl
  have hone (x y : UInt8) := hagree 1 (fun _ _ => 1) (fun _ => List.replicate readerBufSize x)
    (fun _ => List.replicate readerBufSize y) (fun _ => hstack x) (fun _ => hstack y)
  rw [bufHdr_append]
  -- without a body one function returns a record and the other one the end of the file
  have hbody : h.bodyLen ≠ 0 := by
    intro hempty
    obtain ⟨r, -, hret, hcall⟩ := hget 0
    have hread : storeReadFlow (List.replicate readerBufSize 0) f (h.hdr ++ tail) =
        .ok ({ ret := storeErrEof, ebuf := "EOF reading flow data", flow := f },
          tail.drop h.bodyLen) := by
      rw [storeReadFlow_hdr, if_neg hbig, if_pos (.inl hempty)]
    have hsame := hone 0 0
    rw [repeatCalls_one hcall, repeatCalls_one hread] at hsame
    have hpair := (List.cons.inj (Except.ok.inj hsame)).1
    exact hret (congrArg Prod.fst hpair)
  refine ⟨hbody, fun hver => ?_⟩
  -- with buffers of zeros and of ones, a field behind the record would differ
  obtain ⟨r, hr, -, hcall⟩ := hget 0
  obtain ⟨r', hr', -, -⟩ := hget 255
  have hempty : ¬ (h.bodyLen = 0 ∨ tail.length < h.bodyLen) := by omega
  have hread : storeReadFlow (List.replicate readerBufSize 255) f (h.hdr ++ tail) =
      .ok (r', tail.drop h.bodyLen) := by
    rw [storeReadFlow_hdr, if_neg hbig, if_neg hempty, hr']
    rfl
  have hsame := hone 0 255
  rw [repeatCalls_one hcall, repeatCalls_one hread] at hsame
  have hpair := (List.cons.inj (Except.ok.inj hsame)).1
  exact h.shownInside_of_flow_eq hlen hfits hver hr hr' (congrArg Prod.snd hpair)

/-- An accepted record is read by both functions, with whatever stands behind it. -/
theorem readers_accepts {s s' : StoreFlowComplete × List UInt8} (hstep : Accepts s s')
    (hbody : (bufHdr s.2).bodyLen ≠ 0) :
    ∃ r, r.ret = storeErrOk ∧ r.flow = s'.1 ∧ ∀ (chunk : ℕ → ℕ) (stack stack' : List UInt8),
      storeGetFlow chunk stack s.1 s.2 = .ok (r, s'.2) ∧
        storeReadFlow stack' s.1 s.2 = .ok (r, s'.2) := by
  cases hstep with
  | @record f file r hrecord hread hok =>
    refine ⟨r, hok, rfl, fun chunk stack stack' => ?_⟩
    obtain ⟨h, tail, rfl, hlen, hfits, htake, hdrop⟩ := hrecord.split
    rw [htake, bufHdr_append] at hread
    rw [bufHdr_append] at hbody
    change h.bodyLen ≠ 0 at hbody
    have hbuf := h.storeFlowDeserialise_of_take hlen hread hok
    have hbig : ¬ h.bodyLen > readerBufSize - 8 := Nat.not_lt.mpr hfits
    have hempty : ¬ (h.bodyLen = 0 ∨ tail.length < h.bodyLen) := by omega
    constructor
    · rw [storeGetFlow_hdr, if_neg hbig, if_neg (Nat.not_lt.mpr hlen), hbuf, hdrop]
      rfl
    · rw [storeReadFlow_hdr, if_neg hbig, if_neg hempty, hbuf, hdrop]
      rfl

/-- Readers that agree on a file agree on what follows a record that they accept. -/
theorem ReadersAgree.accepts {s s' : StoreFlowComplete × List UInt8}
    (hagree : ReadersAgree s.1 s.2) (hstep : Accepts s s') : ReadersAgree s'.1 s'.2 := by
  have hrecord : StartsWithRecord s.2 := by
    cases hstep with
    | record hrecord => exact hrecord
  obtain ⟨r, hok, hflow, hcalls⟩ := readers_accepts hstep (hagree.agreeable hrecord).1
  intro n chunk stack stack' hstack hstack'
  obtain ⟨hget, hread⟩ := hcalls (chunk n) (stack n) (stack' n)
  have hmore := hagree (n + 1) chunk stack stack' hstack hstack'
  rw [repeatCalls_ok hget hok, repeatCalls_ok hread hok, hflow] at hmore
  exact map_cons_inj hmore

/-- The two readers agree on a file exactly when every record that they come to has a body and the
fields that show end within it. -/
theorem readersAgree_iff (f : StoreFlowComplete) (file : List UInt8) :
    ReadersAgree f file ↔
      ∀ f' rest, Relation.ReflTransGen Accepts (f, file) (f', rest) → Agreeable rest := by
  constructor
  · intro hagree
    -- readers that agree on a file agree on the rest behind a record that they accept
    have hreach : ∀ s, Relation.ReflTransGen Accepts (f, file) s → ReadersAgree s.1 s.2 := by
      intro s hs
      induction hs with
      | refl => exact hagree
      | tail _ hstep ih => exact ih.accepts hstep
    exact fun f' rest hrest => (hreach _ hrest).agreeable
  · intro hall n chunk stack stack' hstack hstack'
    induction n generalizing f file with
    | zero => rfl
    | succ n ih =>
      -- the first record is read by both in the same way, and the rest by induction
      by_cases hrecord : StartsWithRecord file
      · obtain ⟨ret, flow, haccepts, hcalls⟩ :=
          readers_record (f := f) hrecord (hall f file .refl)
        obtain ⟨r, r', hget, hread, rfl, rfl, hret', hflow'⟩ :=
          hcalls (chunk n) (stack n) (stack' n) (hstack n) (hstack' n)
        by_cases hok : r.ret = storeErrOk
        · rw [repeatCalls_ok hget hok, repeatCalls_ok hread (hret'.trans hok), hret', hflow']
          exact congrArg _ (ih _ _ fun f' rest hrest => hall f' rest (hrest.head (haccepts hok)))
        · rw [repeatCalls_stop hget hok, repeatCalls_stop hread (hret' ▸ hok), hret', hflow']
      · obtain ⟨r, r', rest, rest', hget, hread, hstop, hret, hflow, hflow'⟩ :=
          readers_fail (f := f) hrecord (chunk n) (stack n) (stack' n)
        rw [repeatCalls_stop hget hstop, repeatCalls_stop hread (hret ▸ hstop), hret, hflow,
          hflow']

/-- A record without fields. -/
def emptyRecord : StoreFlowComplete := { version := storeVersion }

/-- Such a record is written, and then the one reader accepts it and the other takes it for the end
of the file. -/
theorem not_readersAgree_empty :
    (storeFlowSerialise ⟨emptyRecord, fun _ _ => 0, fun _ _ => 0⟩ emptyRecord 1024).2 =
        emptyRecord.hdr ∧ ¬ ReadersAgree emptyRecord emptyRecord.hdr :=
  ⟨by decide +kernel, fun hagree => (hagree.agreeable (by decide)).1 (by decide)⟩

end Flowd
