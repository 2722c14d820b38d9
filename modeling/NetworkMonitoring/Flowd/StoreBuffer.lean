import NetworkMonitoring.Flowd.StoreReadBack

/-!
# flowd — the buffer a record is written into

`store_flow_serialise` as it acts on memory: it is given the size of the buffer, writes the header
and the fields from the start of the buffer on, and stores the number of bytes in `*flowlen`. The
number that it compares with the size of the buffer does not count the header.

* `storeFlowSerialiseAt_eq`: the memory after a call is the memory before it with the bytes of
  `storeFlowSerialise` written at the start of the buffer.
* `serialisedSize` is the size of the fields that are stored, a function of the record and the mask,
  and `serialise_ok_iff` says when a record is stored.
* `serialise_inBounds_iff`: the buffer is respected unless it is large enough for the fields and too
  small for the header as well.
-/

namespace Flowd

open Bytes ByteBuffer InetText OptionalFields ErrorLoops

/-! ## Writing to memory -/

/-- The variables that `WFIELD` changes. -/
structure WriteState where
  buf : Mem
  offset : ℕ
  crc : UInt32

/-- `WFIELD`. -/
def wfieldAt (fields : UInt32) (vars : FieldVars) (s : WriteState) (flag : StoreField) :
    WriteState :=
  if shasfield fields flag = true then
    { buf := memcpy s.buf s.offset (vars.get flag)
      offset := s.offset + flag.size
      crc := if flag ≠ .crc32 then flowdCrc32Update (vars.get flag) s.crc else s.crc }
  else s

/-- What a call leaves behind: its result, the memory at `buf` and `*flowlen`. -/
structure SerialiseResult where
  result : StoreResult
  buf : Mem
  flowlen : ℤ

/-- What `store_flow_serialise` does once the size of the record has been checked. -/
def writeRecordAt (fields : UInt32) (vars : FieldVars) (f : StoreFlowComplete) (len : ℤ) (buf : Mem)
    (flowlen : ℤ) : SerialiseResult :=
  let f := { f with lenWords := UInt8.ofNat (len / 4).toNat, reserved := 0 }
  let s := StoreField.wfields.foldl (wfieldAt fields { vars with flow := f })
    ⟨memcpy buf 0 f.hdr, 8, flowdCrc32Update f.hdr flowdCrc32Start⟩
  let f := if shasfield fields .crc32 = true then { f with crc32 := htonl s.crc } else f
  let s := wfieldAt fields { vars with flow := f } s .crc32
  if len + 8 ≠ s.offset then
    ⟨{ ret := storeErrInternal, ebuf := "store_flow_serialise: len != offset", flow := f }, s.buf,
      flowlen⟩
  else ⟨{ flow := f }, s.buf, s.offset⟩

/-- `store_flow_serialise`. -/
def storeFlowSerialiseAt (stack : FieldVars) (f : StoreFlowComplete) (buf : Mem)
    (buflen flowlen : ℤ) : SerialiseResult :=
  let f := { f with version := storeVersion }
  match addrGroups.foldlM convertAddr (htonl f.fields, { stack with flow := f }) with
  | .error silly => ⟨{ ret := storeErrFlowInvalid, ebuf := silly, flow := f }, buf, flowlen⟩
  | .ok (fields, vars) =>
    -- Fields have probably changes as a result of address conversion
    let f := { f with fields := htonl fields }
    let len := storeCalcFlowLen f.fields
    if len % 4 ≠ 0 then
      ⟨{ ret := storeErrInternal, ebuf := "store_flow_serialise: len & 3 != 0", flow := f }, buf,
        flowlen⟩
    else if len > buflen then
      ⟨{ ret := storeErrBufferSize, ebuf := "store_flow_serialise: flow buffer too small"
         flow := f }, buf, flowlen⟩
    else if len = -1 then
      ⟨{ ret := storeErrFlowInvalid, ebuf := "unsupported flow fields specified", flow := f }, buf,
        flowlen⟩
    else writeRecordAt fields vars f len buf flowlen

/-- `store_flow_serialise_masked`. -/
def storeFlowSerialiseMaskedAt (stack : FieldVars) (f : StoreFlowComplete) (mask : UInt32) (buf : Mem)
    (buflen flowlen : ℤ) : SerialiseResult :=
  let origfields := htonl f.fields
  let r := storeFlowSerialiseAt stack { f with fields := htonl (origfields &&& mask) } buf buflen
    flowlen
  { r with result := { r.result with flow := { r.result.flow with fields := htonl origfields } } }

/-! ## The bytes that are written -/

/-- A state of the loop that has written some bytes at the start of the buffer. -/
def WriteState.of (buf : Mem) (s : List UInt8 × UInt32) : WriteState :=
  ⟨memcpy buf 0 s.1, s.1.length, s.2⟩

/-- `WFIELD` in memory appends to the bytes that are written. -/
theorem wfieldAt_of (buf : Mem) (fields : UInt32) (vars : FieldVars) (s : List UInt8 × UInt32)
    (flag : StoreField) :
    wfieldAt fields vars (.of buf s) flag = .of buf (wfield fields vars s flag) := by
  rw [wfieldAt, wfield]
  by_cases hflag : shasfield fields flag = true
  · have hcopy := memcpy_memcpy buf 0 s.1 (vars.get flag)
    rw [Nat.zero_add] at hcopy
    rw [if_pos hflag, if_pos hflag, WriteState.of, WriteState.of, hcopy, List.length_append,
      vars.length_get]
  · rw [if_neg hflag, if_neg hflag]

theorem foldl_wfieldAt (buf : Mem) (fields : UInt32) (vars : FieldVars) (fs : List StoreField)
    (s : List UInt8 × UInt32) :
    fs.foldl (wfieldAt fields vars) (.of buf s) = .of buf (fs.foldl (wfield fields vars) s) := by
  induction fs generalizing s with
  | nil => rfl
  | cons flag fs ih => rw [List.foldl_cons, List.foldl_cons, wfieldAt_of, ih]

/-- The result of a call whose bytes are known. -/
def SerialiseResult.of (buf : Mem) (flowlen : ℤ) (r : StoreResult × List UInt8) : SerialiseResult :=
  ⟨r.1, memcpy buf 0 r.2, if r.1.ret = storeErrOk then r.2.length else flowlen⟩

/-- A check at the end of a call. -/
theorem SerialiseResult.of_ite {c : Prop} [Decidable c] (buf : Mem) (flowlen : ℤ) {a b : StoreResult}
    (bytes : List UInt8) (ha : a.ret ≠ storeErrOk) (hb : b.ret = storeErrOk) :
    .of buf flowlen (if c then (a, bytes) else (b, bytes)) =
      if c then (⟨a, memcpy buf 0 bytes, flowlen⟩ : SerialiseResult)
      else ⟨b, memcpy buf 0 bytes, bytes.length⟩ := by
  by_cases hc : c
  · rw [if_pos hc, if_pos hc, SerialiseResult.of, if_neg ha]
  · rw [if_neg hc, if_neg hc, SerialiseResult.of, if_pos hb]

theorem writeRecordAt_eq (fields : UInt32) (vars : FieldVars) (f : StoreFlowComplete) (len : ℤ)
    (buf : Mem) (flowlen : ℤ) :
    writeRecordAt fields vars f len buf flowlen =
      .of buf flowlen (writeRecord fields vars f len) := by
  have hstart : ∀ (h : StoreFlowComplete) (crc : UInt32),
      (⟨memcpy buf 0 h.hdr, 8, crc⟩ : WriteState) = .of buf (h.hdr, crc) := by
    intro h crc
    rw [WriteState.of, h.length_hdr]
  simp only [writeRecordAt, writeRecord, hstart, foldl_wfieldAt, wfieldAt_of]
  have hinternal : storeErrInternal ≠ storeErrOk := by decide
  exact (SerialiseResult.of_ite buf flowlen _ hinternal rfl).symm

/-- **What a call does to memory**: the bytes of the record are written at the start of the
buffer. -/
theorem storeFlowSerialiseAt_eq (stack : FieldVars) (f : StoreFlowComplete) (buf : Mem)
    (buflen flowlen : ℤ) :
    storeFlowSerialiseAt stack f buf buflen flowlen =
      .of buf flowlen (storeFlowSerialise stack f buflen) := by
  rw [storeFlowSerialiseAt, storeFlowSerialise]
  dsimp only
  cases addrGroups.foldlM convertAddr
      (htonl f.fields, { stack with flow := { f with version := storeVersion } }) with
  | error silly =>
    simp [SerialiseResult.of, storeErrFlowInvalid, storeErrOk]
  | ok s =>
    dsimp only
    -- nothing is written where a check fails
    split_ifs with hdvd hbuf hknown
    · simp [SerialiseResult.of, storeErrInternal, storeErrOk]
    · simp [SerialiseResult.of, storeErrBufferSize, storeErrOk]
    · simp [SerialiseResult.of, storeErrFlowInvalid, storeErrOk]
    · exact writeRecordAt_eq ..

theorem storeFlowSerialiseMaskedAt_eq (stack : FieldVars) (f : StoreFlowComplete) (mask : UInt32)
    (buf : Mem) (buflen flowlen : ℤ) :
    storeFlowSerialiseMaskedAt stack f mask buf buflen flowlen =
      .of buf flowlen (storeFlowSerialiseMasked stack f mask buflen) := by
  rw [storeFlowSerialiseMaskedAt, storeFlowSerialiseMasked]
  simp only [storeFlowSerialiseAt_eq]
  rfl

/-! ## The fields that are stored -/

namespace StoreFlowComplete

variable (f : StoreFlowComplete)

/-- The record has an address of neither family at a place that is selected. -/
def Silly (sel : StoreField → Bool) (g : AddrGroup) : Prop :=
  (f.addr g).af ≠ afInet ∧ (f.addr g).af ≠ afInet6 ∧ (sel (.addr4 g) = true ∨ sel (.addr6 g) = true)

/-- The fields that are stored of those that are selected: where both fields of an address are, the
one of its family. -/
def writes (sel : StoreField → Bool) : StoreField → Bool
  | .addr4 g => sel (.addr4 g) && !(decide ((f.addr g).af = afInet6) && sel (.addr6 g))
  | .addr6 g => sel (.addr6 g) && !(decide ((f.addr g).af = afInet) && sel (.addr4 g))
  | flag => sel flag

/-- The number of bytes of the fields that are stored. -/
def serialisedSize (fields : UInt32) : ℕ :=
  size (f.writes (shasfield fields)) StoreField.size StoreField.addfields

variable {f} {f' : StoreFlowComplete}

theorem silly_of_addr (haddr : f'.addr = f.addr) (sel : StoreField → Bool) (g : AddrGroup) :
    f'.Silly sel g ↔ f.Silly sel g := by
  rw [Silly, Silly, haddr]

theorem writes_of_addr (haddr : f'.addr = f.addr) (sel : StoreField → Bool) :
    f'.writes sel = f.writes sel := by
  ext flag
  cases flag with
  | addr4 g | addr6 g => rw [writes, writes, haddr]
  | _ => rfl

theorem serialisedSize_of_addr (haddr : f'.addr = f.addr) (fields : UInt32) :
    f'.serialisedSize fields = f.serialisedSize fields := by
  rw [serialisedSize, serialisedSize, writes_of_addr haddr]

end StoreFlowComplete

/-- The address that a field belongs to. -/
def StoreField.group? : StoreField → Option AddrGroup
  | .addr4 g | .addr6 g => some g
  | _ => none

/-- Clearing a field leaves the others. -/
theorem shasfield_andNot (m : UInt32) (flag flag' : StoreField) :
    shasfield (m &&& ~~~flag'.mask) flag = (shasfield m flag && decide (flag ≠ flag')) := by
  by_cases h : flag = flag'
  · subst h
    have hzero : m &&& ~~~flag.mask &&& flag.mask = 0 := by
      rw [UInt32.and_assoc, UInt32.not_and_self, UInt32.and_zero]
    simp only [ne_eq, not_true_eq_false, decide_false, Bool.and_false]
    exact Bool.eq_false_iff.mpr (has_eq_false.mpr hzero)
  · rw [decide_eq_true h, Bool.and_true]
    exact has_andNot (StoreField.mask_and_mask h) m

/-- The flags of the fields are known. -/
theorem hasUnknown_andNot (m : UInt32) (flag : StoreField) :
    hasUnknown (m &&& ~~~flag.mask) ↔ hasUnknown m := by
  have hall : ∀ flag ∈ StoreField.addfields, flag.mask ||| storeFieldAll = storeFieldAll := by decide
  rw [hasUnknown, hasUnknown, andNot_andNot, hall flag (StoreField.mem_addfields flag)]

/-- What a `switch` has done when it goes on: the fields of its address are those that are stored,
and the others are left alone. -/
structure Converted (s s' : UInt32 × FieldVars) (g : AddrGroup) : Prop where
  accepted : ¬ s.2.flow.Silly (shasfield s.1) g
  flow : s'.2.flow = s.2.flow
  unknown : hasUnknown s'.1 ↔ hasUnknown s.1
  addr4 : shasfield s'.1 (.addr4 g) = s.2.flow.writes (shasfield s.1) (.addr4 g)
  addr6 : shasfield s'.1 (.addr6 g) = s.2.flow.writes (shasfield s.1) (.addr6 g)
  others : ∀ flag : StoreField, flag.group? ≠ some g → shasfield s'.1 flag = shasfield s.1 flag

theorem StoreField.ne_addr {g : AddrGroup} {flag : StoreField} (h : flag.group? ≠ some g) :
    flag ≠ .addr4 g ∧ flag ≠ .addr6 g := by
  constructor
  · rintro rfl
    exact h rfl
  · rintro rfl
    exact h rfl

/-- One `switch`: it stops at an address of neither family, and clears the field of the other
one. -/
theorem convertAddr_cases (s : UInt32 × FieldVars) (g : AddrGroup) :
    (s.2.flow.Silly (shasfield s.1) g ∧ convertAddr s g = .error g.silly) ∨
      ∃ s', convertAddr s g = .ok s' ∧ Converted s s' g := by
  obtain ⟨m, vars⟩ := s
  rw [convertAddr]
  dsimp only
  by_cases haf : (vars.flow.addr g).af = afInet
  · have hne6 : ¬ (vars.flow.addr g).af = afInet6 := by rw [haf]; decide
    have hsilly : ¬ vars.flow.Silly (shasfield m) g := fun h => h.1 haf
    rw [if_pos haf]
    by_cases h4 : shasfield m (.addr4 g) = false
    · -- the field of its family is not selected, and the other one stays
      rw [if_pos h4]
      refine .inr ⟨_, rfl, hsilly, rfl, Iff.rfl, ?_, ?_, fun _ _ => rfl⟩
      · simp [StoreFlowComplete.writes, h4]
      · simp [StoreFlowComplete.writes, h4]
    · -- it is selected, and the other one is cleared
      have h4' : shasfield m (.addr4 g) = true := Bool.eq_true_of_not_eq_false h4
      rw [if_neg h4, StoreFlowComplete.or_mask h4']
      refine .inr ⟨_, rfl, hsilly, rfl, hasUnknown_andNot m _, ?_, ?_, fun flag hflag => ?_⟩
      · simp [StoreFlowComplete.writes, shasfield_andNot, hne6]
      · simp [StoreFlowComplete.writes, shasfield_andNot, haf, h4']
      · simp [shasfield_andNot, (StoreField.ne_addr hflag).2]
  rw [if_neg haf]
  by_cases haf6 : (vars.flow.addr g).af = afInet6
  · -- the same with the two fields exchanged
    have hsilly : ¬ vars.flow.Silly (shasfield m) g := fun h => h.2.1 haf6
    rw [if_pos haf6]
    by_cases h6 : shasfield m (.addr6 g) = false
    · rw [if_pos h6]
      refine .inr ⟨_, rfl, hsilly, rfl, Iff.rfl, ?_, ?_, fun _ _ => rfl⟩
      · simp [StoreFlowComplete.writes, h6]
      · simp [StoreFlowComplete.writes, h6]
    · have h6' : shasfield m (.addr6 g) = true := Bool.eq_true_of_not_eq_false h6
      rw [if_neg h6, StoreFlowComplete.or_mask h6']
      refine .inr ⟨_, rfl, hsilly, rfl, hasUnknown_andNot m _, ?_, ?_, fun flag hflag => ?_⟩
      · simp [StoreFlowComplete.writes, shasfield_andNot, haf6, h6']
      · simp [StoreFlowComplete.writes, shasfield_andNot, haf]
      · simp [shasfield_andNot, (StoreField.ne_addr hflag).1]
  -- neither family: the fields of the address must not be selected
  rw [if_neg haf6]
  by_cases hnone : m &&& ((StoreField.addr4 g).mask ||| (StoreField.addr6 g).mask) = 0
  · have hsel : shasfield m (.addr4 g) = false ∧ shasfield m (.addr6 g) = false := by
      obtain ⟨h4, h6⟩ := and_eq_zero_of_or hnone
      exact ⟨Bool.eq_false_iff.mpr (has_eq_false.mpr h4), Bool.eq_false_iff.mpr (has_eq_false.mpr h6)⟩
    rw [if_pos hnone]
    refine .inr ⟨_, rfl, ?_, rfl, Iff.rfl, ?_, ?_, fun _ _ => rfl⟩
    · rintro ⟨-, -, h | h⟩
      · simp [hsel] at h
      · simp [hsel] at h
    · simp [StoreFlowComplete.writes, hsel]
    · simp [StoreFlowComplete.writes, hsel]
  · rw [if_neg hnone]
    refine .inl ⟨⟨haf, haf6, ?_⟩, rfl⟩
    by_contra hsel
    obtain ⟨h4, h6⟩ := not_or.mp hsel
    exact hnone (and_or_eq_zero (has_eq_false.mp h4) (has_eq_false.mp h6))

/-- What `writes` says of a field depends on the fields of its address only. -/
theorem StoreFlowComplete.writes_congr {f : StoreFlowComplete} {sel sel' : StoreField → Bool}
    {g : AddrGroup} (h4 : sel (.addr4 g) = sel' (.addr4 g)) (h6 : sel (.addr6 g) = sel' (.addr6 g))
    {flag : StoreField} (hflag : flag.group? = some g) : f.writes sel flag = f.writes sel' flag := by
  cases flag with
  | addr4 g' | addr6 g' =>
    obtain rfl : g' = g := Option.some.inj hflag
    rw [writes, writes, h4, h6]
  | _ => cases hflag

/-- The `switch` statements for a list of addresses. -/
theorem foldlM_convertAddr_cases {gs : List AddrGroup} (hgs : gs.Nodup) (s : UInt32 × FieldVars) :
    ((∃ g ∈ gs, s.2.flow.Silly (shasfield s.1) g) ∧
      ∃ silly, gs.foldlM convertAddr s = .error silly) ∨
    ∃ s', gs.foldlM convertAddr s = .ok s' ∧ (∀ g ∈ gs, ¬ s.2.flow.Silly (shasfield s.1) g) ∧
      s'.2.flow = s.2.flow ∧ (hasUnknown s'.1 ↔ hasUnknown s.1) ∧
      ∀ flag : StoreField, shasfield s'.1 flag =
        if ∃ g ∈ gs, flag.group? = some g then s.2.flow.writes (shasfield s.1) flag
        else shasfield s.1 flag := by
  -- on the list; the addresses of a record are different, so no `switch` undoes an earlier one
  induction gs generalizing s with
  | nil =>
    refine .inr ⟨s, rfl, by simp, rfl, Iff.rfl, fun flag => ?_⟩
    rw [if_neg (by simp)]
  | cons g gs ih =>
    obtain ⟨hg, hgs'⟩ := List.nodup_cons.mp hgs
    rw [List.foldlM_cons]
    rcases convertAddr_cases s g with ⟨hsilly, herr⟩ | ⟨s₁, hok, hconv⟩
    · exact .inl ⟨⟨g, List.mem_cons_self, hsilly⟩, g.silly, by rw [herr]; rfl⟩
    rw [hok, ok_bind]
    -- the fields of the other addresses are as they were
    have hother : ∀ g' ∈ gs, shasfield s₁.1 (.addr4 g') = shasfield s.1 (.addr4 g') ∧
        shasfield s₁.1 (.addr6 g') = shasfield s.1 (.addr6 g') := by
      intro g' hg'
      have hne : some g' ≠ some g := by
        rintro heq
        exact hg (Option.some.inj heq ▸ hg')
      exact ⟨hconv.others (.addr4 g') hne, hconv.others (.addr6 g') hne⟩
    have hsame : ∀ g' ∈ gs, s₁.2.flow.Silly (shasfield s₁.1) g' ↔
        s.2.flow.Silly (shasfield s.1) g' := by
      intro g' hg'
      obtain ⟨h4, h6⟩ := hother g' hg'
      rw [StoreFlowComplete.Silly, StoreFlowComplete.Silly, hconv.flow, h4, h6]
    rcases ih hgs' s₁ with ⟨⟨g', hg', hsilly⟩, herr⟩ | ⟨s', hrun, hnot, hflow, hunknown, hfields⟩
    · exact .inl ⟨⟨g', List.mem_cons_of_mem g hg', (hsame g' hg').mp hsilly⟩, herr⟩
    · refine .inr ⟨s', hrun, ?_, hflow.trans hconv.flow, hunknown.trans hconv.unknown,
        fun flag => ?_⟩
      · intro g' hg'
        rcases List.mem_cons.mp hg' with rfl | hmem
        · exact hconv.accepted
        · exact fun hsilly => hnot g' hmem ((hsame g' hmem).mpr hsilly)
      rw [hfields]
      by_cases hrest : ∃ g' ∈ gs, flag.group? = some g'
      · -- a field of a later address
        obtain ⟨g', hg', hflag⟩ := hrest
        obtain ⟨h4, h6⟩ := hother g' hg'
        rw [if_pos ⟨g', hg', hflag⟩, if_pos ⟨g', List.mem_cons_of_mem g hg', hflag⟩, hconv.flow]
        exact StoreFlowComplete.writes_congr h4 h6 hflag
      rw [if_neg hrest]
      by_cases hhead : flag.group? = some g
      · -- a field of this address, which is not touched again
        rw [if_pos ⟨g, List.mem_cons_self, hhead⟩]
        cases flag with
        | addr4 g' =>
          obtain rfl : g' = g := Option.some.inj hhead
          exact hconv.addr4
        | addr6 g' =>
          obtain rfl : g' = g := Option.some.inj hhead
          exact hconv.addr6
        | _ => cases hhead
      · rw [if_neg, hconv.others flag hhead]
        rintro ⟨g', hg', hflag⟩
        rcases List.mem_cons.mp hg' with rfl | hmem
        · exact hhead hflag
        · exact hrest ⟨g', hmem, hflag⟩

/-! ## What a call leaves behind -/

/-- Only the parts of a record that a call may set differ: the version, `len_words`, `reserved` and
the checksum. -/
def SameData (f f' : StoreFlowComplete) : Prop :=
  f' = { f with
    version := f'.version, lenWords := f'.lenWords, reserved := f'.reserved, crc32 := f'.crc32 }

/-- A field adds its size to the bytes that are written. -/
theorem length_wfield_crc32 (fields : UInt32) (vars : FieldVars) (s : List UInt8 × UInt32) :
    (wfield fields vars s .crc32).1.length = s.1.length + crcSize fields := by
  rw [wfield, crcSize]
  by_cases hcrc : shasfield fields .crc32 = true
  · rw [if_pos hcrc, if_pos hcrc, List.length_append, vars.length_get]
    rfl
  · rw [if_neg hcrc, if_neg hcrc, Nat.add_zero]

/-- What the last part of a call does: it succeeds, and writes the header and the fields. -/
theorem writeRecord_spec (fields : UInt32) (vars : FieldVars) (f : StoreFlowComplete) {len : ℕ}
    (hlen : len = bodySize fields + crcSize fields) :
    ∃ f' bytes, writeRecord fields vars f len = ({ flow := f' }, bytes) ∧
      bytes.length = len + 8 ∧ SameData f f' := by
  let h : StoreFlowComplete :=
    { f with lenWords := UInt8.ofNat ((len : ℤ) / 4).toNat, reserved := 0 }
  let s := StoreField.wfields.foldl (wfield fields { vars with flow := h })
    (h.hdr, flowdCrc32Update h.hdr flowdCrc32Start)
  let h' := if shasfield fields .crc32 = true then { h with crc32 := htonl s.2 } else h
  have hloop : s.1.length = 8 + bodySize fields := by
    have hs : s.1 = h.hdr ++
        pieces (shasfield fields) ({ vars with flow := h } : FieldVars).get StoreField.rfields :=
      congrArg Prod.fst (StoreFlowComplete.foldl_wfield _ StoreField.crc32_notMem _)
    rw [hs, List.length_append, h.length_hdr, length_pieces (FieldVars.length_get _)]
  -- the offset is the size that was calculated, with the header
  have hoffset : (wfield fields { vars with flow := h' } s .crc32).1.length = len + 8 := by
    rw [length_wfield_crc32, hloop, hlen]
    omega
  refine ⟨h', (wfield fields { vars with flow := h' } s .crc32).1, ?_, hoffset, ?_⟩
  · refine if_neg (not_not.mpr ?_)
    change (len : ℤ) + 8 = ((wfield fields { vars with flow := h' } s .crc32).1.length : ℕ)
    rw [hoffset, Nat.cast_add, Nat.cast_ofNat]
  · show SameData f (if _ then _ else _)
    split_ifs <;> rfl

/-- The record is stored: no selected address is silly, the fields are known, and their sizes,
without the header, are within the size of the buffer. -/
structure Stores (f : StoreFlowComplete) (fields : UInt32) (buflen : ℤ) : Prop where
  families : ∀ g, ¬ f.Silly (shasfield fields) g
  known : ¬ hasUnknown fields
  size_le : (f.serialisedSize fields : ℤ) ≤ buflen

/-- Records with the same addresses are stored together. -/
theorem stores_of_addr {f f' : StoreFlowComplete} (haddr : f'.addr = f.addr) (fields : UInt32)
    (buflen : ℤ) : Stores f' fields buflen ↔ Stores f fields buflen := by
  have hsilly := StoreFlowComplete.silly_of_addr haddr (shasfield fields)
  have hsize := StoreFlowComplete.serialisedSize_of_addr haddr fields
  constructor
  · rintro ⟨hfamilies, hknown, hle⟩
    exact ⟨fun g hg => hfamilies g ((hsilly g).mpr hg), hknown, hsize ▸ hle⟩
  · rintro ⟨hfamilies, hknown, hle⟩
    exact ⟨fun g hg => hfamilies g ((hsilly g).mp hg), hknown, hsize.symm ▸ hle⟩

/-- What a call leaves behind: it succeeds when the record is stored, and then it has written the
header and the fields; otherwise it has written nothing. The data of the record is as before, apart
from the word `fields`. -/
structure SerialiseSpec (f : StoreFlowComplete) (buflen : ℤ) (r : StoreResult × List UInt8) :
    Prop where
  ok_iff : r.1.ret = storeErrOk ↔ Stores f (htonl f.fields) buflen
  length : r.2.length =
    if r.1.ret = storeErrOk then f.serialisedSize (htonl f.fields) + 8 else 0
  data : SameData f { r.1.flow with fields := f.fields }

/-- A call that fails a check. -/
theorem SerialiseSpec.failed {f : StoreFlowComplete} {buflen : ℤ} {r : StoreResult}
    (hret : r.ret ≠ storeErrOk) (hnot : ¬ Stores f (htonl f.fields) buflen)
    (hdata : SameData f { r.flow with fields := f.fields }) : SerialiseSpec f buflen (r, []) :=
  ⟨iff_of_false hret hnot, (if_neg hret).symm, hdata⟩

theorem storeFlowSerialise_spec (stack : FieldVars) (f : StoreFlowComplete) (buflen : ℤ) :
    SerialiseSpec f buflen (storeFlowSerialise stack f buflen) := by
  set h : StoreFlowComplete := { f with version := storeVersion } with hh
  have haddr : h.addr = f.addr := by
    ext1 g
    cases g <;> rfl
  have hsilly := StoreFlowComplete.silly_of_addr haddr (shasfield (htonl f.fields))
  have hinvalid : storeErrFlowInvalid ≠ storeErrOk := by decide
  have hinternal : storeErrInternal ≠ storeErrOk := by decide
  have hsize : storeErrBufferSize ≠ storeErrOk := by decide
  rw [storeFlowSerialise]
  dsimp only
  rw [← hh]
  rcases foldlM_convertAddr_cases nodup_addrGroups (htonl f.fields, { stack with flow := h }) with
    ⟨⟨g, -, hg⟩, silly, herr⟩ | ⟨⟨fields, vars⟩, hok, hnot, -, hunknown, hfields⟩
  · rw [herr]
    exact SerialiseSpec.failed hinvalid (fun hs => hs.families g ((hsilly g).mp hg)) rfl
  rw [hok]
  dsimp only at hnot hunknown hfields ⊢
  -- the fields after the conversion are those that are stored
  have hwrites : ∀ flag, shasfield fields flag = f.writes (shasfield (htonl f.fields)) flag := by
    intro flag
    rw [hfields flag, StoreFlowComplete.writes_of_addr haddr]
    cases flag with
    | addr4 g | addr6 g => exact if_pos ⟨g, mem_addrGroups g, rfl⟩
    | _ => exact if_neg (by rintro ⟨g, -, hg⟩; cases hg)
  have hserialised : bodySize fields + crcSize fields = f.serialisedSize (htonl f.fields) := by
    rw [← size_addfields, StoreFlowComplete.serialisedSize]
    exact size_sel_congr fun flag _ => hwrites flag
  by_cases hun : hasUnknown fields
  · -- unknown fields are found when the length is -1, which is no multiple of 4
    have hlen : storeCalcFlowLen (htonl fields) = -1 := by
      rw [storeCalcFlowLen_eq, htonl_htonl]
      exact if_pos hun
    rw [hlen, if_pos (by decide)]
    exact SerialiseSpec.failed hinternal (fun hs => hs.known (hunknown.mp hun)) rfl
  have hlen : storeCalcFlowLen (htonl fields) = f.serialisedSize (htonl f.fields) := by
    rw [storeCalcFlowLen_eq, htonl_htonl, hserialised]
    exact if_neg hun
  rw [hlen]
  have hdvd := (four_dvd_bodySize fields).add (four_dvd_crcSize fields)
  rw [hserialised] at hdvd
  rw [if_neg (by omega)]
  by_cases hbuf : (f.serialisedSize (htonl f.fields) : ℤ) > buflen
  · -- the check leaves out the eight bytes of the header
    rw [if_pos hbuf]
    exact SerialiseSpec.failed hsize (fun hs => hbuf.not_ge hs.size_le) rfl
  rw [if_neg hbuf, if_neg (by omega)]
  obtain ⟨f', bytes, hwrite, hlen, hdata⟩ := writeRecord_spec fields vars
    { h with fields := htonl fields } hserialised.symm
  rw [hwrite]
  refine ⟨iff_of_true rfl ⟨fun g hg => ?_, fun hk => hun (hunknown.mpr hk), not_lt.mp hbuf⟩, ?_, ?_⟩
  · exact hnot g (mem_addrGroups g) ((hsilly g).mpr hg)
  · exact hlen.trans (if_pos rfl).symm
  · rw [hdata, hh]
    rfl

/-- What a call with a mask leaves behind. -/
theorem storeFlowSerialiseMasked_spec (stack : FieldVars) (f : StoreFlowComplete) (mask : UInt32)
    (buflen : ℤ) :
    ((storeFlowSerialiseMasked stack f mask buflen).1.ret = storeErrOk ↔
      Stores f (htonl f.fields &&& mask) buflen) ∧
    ((storeFlowSerialiseMasked stack f mask buflen).1.ret = storeErrOk →
      (storeFlowSerialiseMasked stack f mask buflen).2.length =
        f.serialisedSize (htonl f.fields &&& mask) + 8) ∧
    SameData f (storeFlowSerialiseMasked stack f mask buflen).1.flow := by
  set masked : StoreFlowComplete := { f with fields := htonl (htonl f.fields &&& mask) } with hmasked
  have haddr : masked.addr = f.addr := by
    ext1 g
    cases g <;> rfl
  have hfields : htonl masked.fields = htonl f.fields &&& mask := htonl_htonl _
  obtain ⟨hok, hlen, hdata⟩ := storeFlowSerialise_spec stack masked buflen
  rw [hfields] at hok hlen
  have hsize := StoreFlowComplete.serialisedSize_of_addr haddr (htonl f.fields &&& mask)
  have hstores := stores_of_addr haddr (htonl f.fields &&& mask) buflen
  rw [storeFlowSerialiseMasked, ← hmasked, htonl_htonl]
  generalize storeFlowSerialise stack masked buflen = r at hok hlen hdata
  refine ⟨hok.trans hstores, fun hret => ?_, ?_⟩
  · exact (hlen.trans (if_pos hret)).trans (congrArg (· + 8) hsize)
  · -- the word `fields` is put back
    exact congrArg (fun r : StoreFlowComplete => { r with fields := f.fields }) hdata

/-- The buffer is respected: a call that succeeds stores in `*flowlen` a number that is not above
the size of the buffer, and writes so many bytes at its start and no others; and every call leaves
the data of the record as it is. -/
structure RespectsBuffer (f : StoreFlowComplete) (buflen : ℤ) (call : Mem → SerialiseResult) :
    Prop where
  inBounds : ∀ buf, (call buf).result.ret = storeErrOk → (call buf).flowlen ≤ buflen
  written : ∃ bytes : List UInt8, ∀ buf, (call buf).result.ret = storeErrOk →
    (call buf).flowlen = bytes.length ∧ (call buf).buf = memcpy buf 0 bytes
  data : ∀ buf, SameData f (call buf).result.flow

/-- **When the buffer is respected.** A call does not respect the buffer when the record is stored
and the buffer has room for the fields, but not for the header as well. -/
theorem respectsBuffer_iff (stack : FieldVars) (f : StoreFlowComplete) (mask : UInt32)
    (buflen flowlen : ℤ) :
    RespectsBuffer f buflen
        (fun buf => storeFlowSerialiseMaskedAt stack f mask buf buflen flowlen) ↔
      ((∀ g, ¬ f.Silly (shasfield (htonl f.fields &&& mask)) g) →
        ¬ hasUnknown (htonl f.fields &&& mask) →
        (f.serialisedSize (htonl f.fields &&& mask) : ℤ) ≤ buflen →
        (f.serialisedSize (htonl f.fields &&& mask) : ℤ) + 8 ≤ buflen) := by
  obtain ⟨hok, hlen, hdata⟩ := storeFlowSerialiseMasked_spec stack f mask buflen
  -- `*flowlen` counts the header, the check of the size does not
  have hflowlen : ∀ buf, (storeFlowSerialiseMasked stack f mask buflen).1.ret = storeErrOk →
      (storeFlowSerialiseMaskedAt stack f mask buf buflen flowlen).flowlen =
        f.serialisedSize (htonl f.fields &&& mask) + 8 := by
    intro buf hret
    rw [storeFlowSerialiseMaskedAt_eq, SerialiseResult.of, if_pos hret, hlen hret]
    rfl
  constructor
  · intro h hfamilies hknown hle
    have hret := hok.mpr ⟨hfamilies, hknown, hle⟩
    have hin := h.inBounds (fun _ => 0) (by rw [storeFlowSerialiseMaskedAt_eq]; exact hret)
    rwa [hflowlen _ hret] at hin
  · intro h
    refine ⟨fun buf hret => ?_,
      ⟨(storeFlowSerialiseMasked stack f mask buflen).2, fun buf hret => ?_⟩, fun buf => ?_⟩
    · rw [storeFlowSerialiseMaskedAt_eq] at hret
      have hstores := hok.mp hret
      rw [hflowlen buf hret]
      exact h hstores.families hstores.known hstores.size_le
    · rw [storeFlowSerialiseMaskedAt_eq] at hret ⊢
      exact ⟨if_pos hret, rfl⟩
    · rw [storeFlowSerialiseMaskedAt_eq]
      exact hdata

/-- A record with a tag takes twelve bytes, and is written into a buffer of eight. -/
theorem respectsBuffer_fails_tag :
    (storeFlowSerialiseMaskedAt ⟨{}, fun _ _ => 0, fun _ _ => 0⟩
        { fields := htonl storeFieldTag, tag := 7 } storeFieldAll (fun _ => 0) 8 0).result.ret =
      storeErrOk ∧
    (storeFlowSerialiseMaskedAt ⟨{}, fun _ _ => 0, fun _ _ => 0⟩
        { fields := htonl storeFieldTag, tag := 7 } storeFieldAll (fun _ => 0) 8 0).flowlen = 12 ∧
    ¬ RespectsBuffer { fields := htonl storeFieldTag, tag := 7 } 8 (fun buf =>
        storeFlowSerialiseMaskedAt ⟨{}, fun _ _ => 0, fun _ _ => 0⟩
          { fields := htonl storeFieldTag, tag := 7 } storeFieldAll buf 8 0) := by
  have hret : (storeFlowSerialiseMaskedAt ⟨{}, fun _ _ => 0, fun _ _ => 0⟩
      { fields := htonl storeFieldTag, tag := 7 } storeFieldAll (fun _ => 0) 8 0).result.ret =
        storeErrOk := by decide +kernel
  have hflowlen : (storeFlowSerialiseMaskedAt ⟨{}, fun _ _ => 0, fun _ _ => 0⟩
      { fields := htonl storeFieldTag, tag := 7 } storeFieldAll (fun _ => 0) 8 0).flowlen = 12 := by
    decide +kernel
  refine ⟨hret, hflowlen, fun h => ?_⟩
  have hin := h.inBounds (fun _ => 0) hret
  rw [hflowlen] at hin
  exact absurd hin (by decide)

end Flowd
