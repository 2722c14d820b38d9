import NetworkMonitoring.Flowd.StoreRecords

/-!
# flowd — the two readers of the log

What `store_get_flow` and `store_read_flow` do with a file, by its length and its first header.
-/

namespace Flowd

open Bytes OptionalFields ErrorLoops ByteBuffer

/-! ## Reads of a file -/

/-- `atomicio` returns the number of bytes that were wanted, or 0 when there are not so many. -/
theorem atomicioRead_eq (chunk : ℕ → ℕ) (n : ℕ) (got file : List UInt8) :
    atomicioRead chunk n got file =
      if n ≤ file.length then ⟨got.length + n, got ++ file.take n, file.drop n⟩
      else ⟨0, got ++ file, []⟩ := by
  induction n using Nat.strong_induction_on generalizing got file with
  | _ n ih =>
    rw [atomicioRead]
    by_cases hn : 0 < n
    · rw [if_pos hn]
      by_cases hfile : file.length = 0
      · have hres : min (max 1 (chunk n)) (min n file.length) = 0 := by omega
        have hnil : file = [] := List.length_eq_zero_iff.mp hfile
        subst hnil
        rw [if_pos hres, if_neg (by simpa using hn.ne'), List.append_nil]
      · have hres : min (max 1 (chunk n)) (min n file.length) ≠ 0 := by omega
        rw [if_neg hres, ih _ (by omega)]
        -- `read` has returned `k` bytes, and the loop goes on behind them
        generalize hk : min (max 1 (chunk n)) (min n file.length) = k at *
        have hkn : k ≤ n := by omega
        have hkf : k ≤ file.length := by omega
        rw [List.length_drop, List.length_append, List.length_take, List.append_assoc,
          List.append_assoc, List.drop_drop, List.take_append_drop, ← List.take_add,
          Nat.add_sub_cancel' hkn, Nat.min_eq_left hkf]
        by_cases hfits : n ≤ file.length
        · rw [if_pos (by omega), if_pos hfits, Nat.add_assoc, Nat.add_sub_cancel' hkn]
        · rw [if_neg (by omega), if_neg hfits]
    · have hzero : n = 0 := by omega
      subst hzero
      simp

variable {chunk : ℕ → ℕ} {stack : List UInt8} {f h : StoreFlowComplete} {file tail : List UInt8}

theorem readHdr_poke (h : StoreFlowComplete) (stack : List UInt8) :
    ((StoreFlowComplete.readHdr {}).run (poke stack 0 h.hdr)).1 = h.header := by
  rw [poke, List.take_zero, List.nil_append, StoreFlowComplete.run_readHdr]

/-- The buffer of the readers: a record and what it held before. -/
def readerBuf (stack : List UInt8) (h : StoreFlowComplete) (tail : List UInt8) : List UInt8 :=
  h.hdr ++ (tail.take h.bodyLen ++ (stack.drop 8).drop h.bodyLen)

theorem poke_poke (hlen : h.bodyLen ≤ tail.length) :
    poke (poke stack 0 h.hdr) 8 (tail.take h.bodyLen) = readerBuf stack h tail := by
  have hfirst : poke stack 0 h.hdr = h.hdr ++ stack.drop 8 := by
    rw [poke, List.take_zero, List.nil_append, Nat.zero_add, h.length_hdr]
  rw [hfirst, poke_append_left (h.length_hdr).symm, List.length_take_of_le hlen, readerBuf]

/-! ## `store_get_flow` -/

theorem storeGetFlow_short (hshort : file.length < 8) :
    storeGetFlow chunk stack f file =
      .ok ({ ret := storeErrEof, ebuf := "EOF reading flow header", flow := f }, []) := by
  have hfirst : atomicioRead chunk 8 [] file = ⟨0, file, []⟩ := by
    rw [atomicioRead_eq, if_neg (by omega)]
    rfl
  rw [storeGetFlow, hfirst]
  rfl

/-- A file that starts with a header. -/
theorem storeGetFlow_hdr :
    storeGetFlow chunk stack f (h.hdr ++ tail) =
      if h.bodyLen > readerBufSize - 8 then
        .ok ({ ret := storeErrInternal
               ebuf := "store_get_flow: internal flow buffer too small (flow is probably corrupt)"
               flow := f }, tail)
      else if tail.length < h.bodyLen then
        .ok ({ ret := storeErrEof, ebuf := "EOF reading flow data", flow := f }, [])
      else (storeFlowDeserialise (readerBuf stack h tail) (h.bodyLen + 8)).map
        (·, tail.drop h.bodyLen) := by
  have hfirst : atomicioRead chunk 8 [] (h.hdr ++ tail) = ⟨8, h.hdr, tail⟩ := by
    rw [atomicioRead_eq, if_pos (by simp), List.take_left' h.length_hdr,
      List.drop_left' h.length_hdr]
    rfl
  have hlen : h.header.lenWords.toNat * 4 = h.bodyLen := rfl
  rw [storeGetFlow, hfirst]
  simp only [readHdr_poke, Nat.lt_irrefl, if_false, hlen]
  by_cases hbig : h.bodyLen > readerBufSize - 8
  · rw [if_pos hbig, if_pos hbig]
    rfl
  · rw [if_neg hbig, if_neg hbig]
    -- a body that is not there in full is reported as the end of the file
    by_cases hshort : tail.length < h.bodyLen
    · have hsecond : atomicioRead chunk h.bodyLen [] tail = ⟨0, tail, []⟩ := by
        rw [atomicioRead_eq, if_neg (by omega)]
        rfl
      have hzero : 0 < h.bodyLen := by omega
      rw [hsecond, if_pos hzero, if_pos hshort]
      rfl
    · have hsecond : atomicioRead chunk h.bodyLen [] tail =
          ⟨h.bodyLen, tail.take h.bodyLen, tail.drop h.bodyLen⟩ := by
        rw [atomicioRead_eq, if_pos (by omega), List.length_nil, Nat.zero_add, List.nil_append]
      rw [hsecond, if_neg (Nat.lt_irrefl _), if_neg hshort, poke_poke (by omega)]
      rfl

/-! ## `store_read_flow` -/

theorem storeReadFlow_short (hshort : file.length < 8) :
    storeReadFlow stack f file =
      .ok ({ ret := storeErrEof, ebuf := "EOF reading flow header", flow := f }, []) := by
  have hfirst : fread 8 file = ⟨0, file, []⟩ := by
    rw [fread, if_neg (by omega), List.take_of_length_le (by omega),
      List.drop_eq_nil_of_le (by omega)]
  rw [storeReadFlow, hfirst]
  rfl

/-- A file that starts with a header: the body counts as missing when it is empty. -/
theorem storeReadFlow_hdr :
    storeReadFlow stack f (h.hdr ++ tail) =
      if h.bodyLen > readerBufSize - 8 then
        .ok ({ ret := storeErrInternal
               ebuf := "store_read_flow: Internal error: flow buffer too small", flow := f }, tail)
      else if h.bodyLen = 0 ∨ tail.length < h.bodyLen then
        .ok ({ ret := storeErrEof, ebuf := "EOF reading flow data", flow := f },
          tail.drop h.bodyLen)
      else (storeFlowDeserialise (readerBuf stack h tail) (h.bodyLen + 8)).map
        (·, tail.drop h.bodyLen) := by
  have hfirst : fread 8 (h.hdr ++ tail) = ⟨1, h.hdr, tail⟩ := by
    rw [fread, if_pos (by simp), List.take_left' h.length_hdr, List.drop_left' h.length_hdr]
  have hlen : h.header.lenWords.toNat * 4 = h.bodyLen := rfl
  rw [storeReadFlow, hfirst]
  simp only [readHdr_poke, Nat.one_ne_zero, if_false, hlen]
  by_cases hbig : h.bodyLen > readerBufSize - 8
  · rw [if_pos hbig, if_pos hbig]
    rfl
  · rw [if_neg hbig, if_neg hbig]
    -- `fread` of an empty body returns 0 items, as at the end of the file
    by_cases hempty : h.bodyLen = 0 ∨ tail.length < h.bodyLen
    · have hsecond : fread h.bodyLen tail =
          ⟨0, tail.take h.bodyLen, tail.drop h.bodyLen⟩ := by
        rw [fread, if_neg (by omega)]
      rw [hsecond, if_pos rfl, if_pos hempty]
      rfl
    · have hsecond : fread h.bodyLen tail =
          ⟨1, tail.take h.bodyLen, tail.drop h.bodyLen⟩ := by
        rw [fread, if_pos (by omega)]
      rw [hsecond, if_neg Nat.one_ne_zero, if_neg hempty, poke_poke (by omega)]
      rfl

end Flowd
