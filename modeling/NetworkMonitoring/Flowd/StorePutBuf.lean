import NetworkMonitoring.Flowd.StoreLog
import NetworkMonitoring.Foundations.FueledLoops
import NetworkMonitoring.Foundations.OpenFile

/-!
# flowd — writing to the log

`store_put_buf` writes a buffer through `atomicio`, which calls `write` until all bytes are taken.
When a call fails the log is cut back to where it was; the calls for that can fail too.

* `atomicio_spec`: what `atomicio` leaves in a file that stood at its end is the content it had and
  a piece of the buffer, all of it exactly when the length of the buffer is returned.
* `atomicio_returns`: the loop ends unless the calls of `write` are interrupted for ever.
* `storePutBuf_all_or_nothing`: the outcomes of `store_put_buf` on a regular file.
-/

namespace Flowd

open FileIo FueledLoops

/-! ## Error numbers -/

/-- `EINTR` on Linux. -/
def eintr : ℕ := 4

/-- `EAGAIN` on Linux. -/
def eagain : ℕ := 11

/-- `ESPIPE` on Linux. -/
def espipe : ℕ := 29

def storeErrIo : ℤ := 0x08
def storeErrIoSeek : ℤ := 0x09
def storeErrCorrupt : ℤ := 0x10

/-! ## The model -/

/-- What a call of `write` comes to: it takes `k` bytes, or as many as it is given, or it fails. -/
inductive WriteResult where
  | count (k : ℕ)
  | error (errno : ℕ)
  deriving DecidableEq

/-- The failures after which `atomicio` calls `write` again. -/
def WriteResult.interrupted : WriteResult → Prop
  | .count _ => False
  | .error errno => errno = eintr ∨ errno = eagain

/-- What the calls of `write` change: the file, `errno`, and how many calls have been made. -/
structure FileState where
  file : OpenFile
  errno : ℕ
  calls : ℕ := 0

/-- `vwrite`, for the bytes `data`; `writes i` is what the call number `i` comes to. -/
def vwrite (writes : ℕ → WriteResult) (data : List UInt8) (s : FileState) : ℤ × FileState :=
  match writes s.calls with
  | .count k =>
    ((data.take k).length, { s with file := s.file.write (data.take k), calls := s.calls + 1 })
  | .error errno => (-1, { s with errno := errno, calls := s.calls + 1 })

/-- The body of the loop in `atomicio` for `vwrite`, with the variable `pos`. -/
def atomicioNext (writes : ℕ → WriteResult) (buf : List UInt8) (s : ℕ × FileState) :
    Option (ℤ × FileState) ⊕ (ℕ × FileState) :=
  if buf.length > s.1 then
    let r := vwrite writes (buf.drop s.1) s.2
    if r.1 = -1 then
      -- the case of an error that is no interruption falls through to the one of 0
      if r.2.errno = eintr ∨ r.2.errno = eagain then .inr (s.1, r.2) else .inl (some r)
    else if r.1 = 0 then .inl (some r)
    else .inr (s.1 + r.1.toNat, r.2)
  else .inl (some (s.1, s.2))

/-- `atomicio` for `vwrite`; `none` when `fuel` iterations are not enough. -/
def atomicio (writes : ℕ → WriteResult) (buf : List UInt8) (s : FileState) (fuel : ℕ) :
    Option (ℤ × FileState) :=
  iterate (atomicioNext writes buf) none fuel (0, s)

/-- What a descriptor refers to, as far as `lseek` is concerned. -/
inductive FdKind where
  | regular
  | pipe
  | broken (errno : ℕ)
  deriving DecidableEq

/-- `lseek(fd, 0, SEEK_CUR)`. -/
def FdKind.lseekCur (kind : FdKind) (f : OpenFile) : Except ℕ ℕ :=
  match kind with
  | .regular => .ok f.pos
  | .pipe => .error espipe
  | .broken errno => .error errno

/-- What the calls of `store_put_buf` come to: those of `write`, and the errors of the calls that
bring the file back, where they fail. -/
structure FileCalls where
  writes : ℕ → WriteResult
  rewind : Option ℕ := none
  truncate : Option ℕ := none

/-- What `store_put_buf` leaves: the value it returns, the text in `ebuf` where it puts one, and the
file. -/
structure PutResult where
  ret : ℤ := storeErrOk
  ebuf : String := ""
  file : OpenFile
  deriving DecidableEq

section
variable (strerror : ℕ → String)

/-- `SFAIL` in `store_put_buf`. -/
def putFail (ret : ℤ) (m : String) (f : Bool) (errno : ℕ) (file : OpenFile) : PutResult :=
  { ret, ebuf := (if f then "store_put_buf" else "") ++ (if f then ": " else "") ++ m ++ ": "
      ++ strerror errno, file }

/-- What `store_put_buf` does once `atomicio` has returned; `startpos` is not there on a pipe. -/
def putEnd (os : FileCalls) (len : ℕ) (startpos : Option ℕ) (r : ℤ × FileState) : PutResult :=
  if r.1 = len then { file := r.2.file }
  else
    match startpos with
    | none =>
      putFail strerror storeErrCorrupt "corrupting failure on pipe" true r.2.errno r.2.file
    | some startpos =>
      -- Try to rewind to starting position, so we don't corrupt flow store
      match os.rewind with
      | some errno =>
        putFail strerror storeErrCorrupt "corrupting failure on lseek" true errno r.2.file
      | none =>
        let file := r.2.file.seek startpos
        match os.truncate with
        | some errno =>
          putFail strerror storeErrCorrupt "corrupting failure on ftruncate" true errno file
        | none =>
          -- Partial flow record has been removed, return with orig. error
          let file := file.truncate startpos
          if r.1 = -1 then putFail strerror storeErrIo "write flow" false r.2.errno file
          else { ret := storeErrEof, ebuf := "EOF on write flow", file }

/-- `store_put_buf`, for a buffer of its `len` bytes; `errno` is what the variable holds before. -/
def storePutBuf (kind : FdKind) (os : FileCalls) (buf : List UInt8) (f : OpenFile) (errno fuel : ℕ) :
    Option PutResult :=
  -- Remember where we started, so we can back errors out
  match kind.lseekCur f with
  | .ok startpos =>
    (atomicio os.writes buf { file := f, errno } fuel).map
      (putEnd strerror os buf.length (some startpos))
  | .error e =>
    if e = espipe then
      (atomicio os.writes buf { file := f, errno := e } fuel).map
        (putEnd strerror os buf.length none)
    else some (putFail strerror storeErrIoSeek "lseek" true e f)

end

/-! ## The loop of calls -/

section
variable {writes : ℕ → WriteResult} {buf : List UInt8} {f : OpenFile}

/-- A call of `write` on a file at its end appends the bytes it takes; the value it returns is their
number, or -1 with no byte taken. -/
theorem vwrite_spec (writes : ℕ → WriteResult) (data : List UInt8) {s : FileState}
    (hend : s.file.AtEnd) :
    ∃ k ≤ data.length, (vwrite writes data s).2.file = s.file.appended (data.take k) ∧
      ((vwrite writes data s).1 = k ∨ (vwrite writes data s).1 = -1 ∧ k = 0) := by
  cases hcall : writes s.calls with
  | count k =>
    have hmin : data.take (min k data.length) = data.take k := List.take_eq_take_min.symm
    refine ⟨min k data.length, Nat.min_le_right _ _, ?_, .inl ?_⟩
    · rw [vwrite, hcall, hmin]
      exact OpenFile.write_of_atEnd hend
    · rw [vwrite, hcall, ← List.length_take]
  | error errno =>
    refine ⟨0, Nat.zero_le _, ?_, .inr ⟨?_, rfl⟩⟩
    · rw [vwrite, hcall, List.take_zero, OpenFile.appended_nil]
    · rw [vwrite, hcall]

/-- The first `s.1` bytes of the buffer have been written behind the content of `f`. -/
def Written (f : OpenFile) (buf : List UInt8) (s : ℕ × FileState) : Prop :=
  s.1 ≤ buf.length ∧ s.2.file = f.appended (buf.take s.1)

/-- What an iteration can do. -/
inductive Iteration (writes : ℕ → WriteResult) (f : OpenFile) (buf : List UInt8)
    (s : ℕ × FileState) : Option (ℤ × FileState) ⊕ (ℕ × FileState) → Prop where
  | finished (hall : s.1 = buf.length) : Iteration writes f buf s (.inl (some (buf.length, s.2)))
  | failed (hmissing : s.1 < buf.length) (r : ℤ × FileState) (hret : r.1 = 0 ∨ r.1 = -1)
      (hwritten : Written f buf (s.1, r.2)) : Iteration writes f buf s (.inl (some r))
  | again (hmissing : s.1 < buf.length) (s' : ℕ × FileState) (hwritten : Written f buf s')
      (hcalls : s'.2.calls = s.2.calls + 1)
      (hprogress : s.1 < s'.1 ∨ s'.1 = s.1 ∧ (writes s.2.calls).interrupted) :
      Iteration writes f buf s (.inr s')

theorem calls_vwrite (writes : ℕ → WriteResult) (data : List UInt8) (s : FileState) :
    (vwrite writes data s).2.calls = s.calls + 1 := by
  rw [vwrite]
  split <;> rfl

/-- A call that returns -1 has failed with the error that it leaves in `errno`. -/
theorem writes_of_vwrite (writes : ℕ → WriteResult) (data : List UInt8) (s : FileState)
    (h : (vwrite writes data s).1 = -1) :
    writes s.calls = .error (vwrite writes data s).2.errno := by
  rw [vwrite] at h ⊢
  cases hcall : writes s.calls with
  | count k =>
    rw [hcall] at h
    have hcount : ((data.take k).length : ℤ) = -1 := h
    omega
  | error errno => rfl

/-- **One iteration.** -/
theorem atomicioNext_spec (writes : ℕ → WriteResult) (hend : f.AtEnd) {s : ℕ × FileState}
    (hs : Written f buf s) : Iteration writes f buf s (atomicioNext writes buf s) := by
  obtain ⟨hpos, hfile⟩ := hs
  by_cases hmore : buf.length > s.1
  · have hatEnd : s.2.file.AtEnd := hfile ▸ hend.appended
    obtain ⟨k, hk, hwritten, hret⟩ := vwrite_spec writes (buf.drop s.1) hatEnd
    have hcalls := calls_vwrite writes (buf.drop s.1) s.2
    have herrno := writes_of_vwrite writes (buf.drop s.1) s.2
    rw [atomicioNext, if_pos hmore]
    rw [List.length_drop] at hk
    -- the bytes the call takes are the next ones of the buffer
    rw [hfile, OpenFile.appended_appended, ← List.take_add] at hwritten
    generalize vwrite writes (buf.drop s.1) s.2 = r at hwritten hret hcalls herrno
    have hheld : Written f buf (s.1 + k, r.2) := ⟨by omega, hwritten⟩
    show Iteration writes f buf s (if r.1 = -1 then _ else _)
    split_ifs with herror hagain hzero
    · -- an interruption; no byte is taken
      have hk0 : k = 0 := by omega
      rw [hk0, Nat.add_zero] at hheld
      refine .again hmore _ hheld hcalls (.inr ⟨rfl, ?_⟩)
      rw [herrno herror]
      exact hagain
    · have hk0 : k = 0 := by omega
      rw [hk0, Nat.add_zero] at hheld
      exact .failed hmore r (.inr herror) hheld
    · have hk0 : k = 0 := by omega
      rw [hk0, Nat.add_zero] at hheld
      exact .failed hmore r (.inl hzero) hheld
    · have hcount : r.1.toNat = k := by omega
      rw [hcount]
      exact .again hmore _ hheld hcalls (.inl (by show s.1 < s.1 + k; omega))
  · have hall : s.1 = buf.length := by omega
    rw [atomicioNext, if_neg hmore, hall]
    exact .finished hall

/-- At the start nothing is written. -/
theorem written_zero {s : FileState} (hfile : s.file = f) : Written f buf (0, s) := by
  refine ⟨Nat.zero_le _, ?_⟩
  rw [List.take_zero, OpenFile.appended_nil, hfile]

/-- Every iteration keeps track of what is written. -/
theorem written_of_reaches (hend : f.AtEnd) {s t : ℕ × FileState} (hs : Written f buf s)
    (h : Reaches (atomicioNext writes buf) s t) : Written f buf t := by
  apply h.invariant hs
  intro t t' _ ht hnext
  have hspec := atomicioNext_spec writes hend ht
  rw [hnext] at hspec
  cases hspec with
  | again _ _ hwritten _ _ => exact hwritten

/-- **The loop.** The length of the buffer is returned when all of it is behind the content of the
file; otherwise 0 or -1 is returned, and some of it is missing. -/
theorem atomicio_spec (hend : f.AtEnd) {s : FileState} (hfile : s.file = f) {fuel : ℕ}
    {r : ℤ × FileState} (h : atomicio writes buf s fuel = some r) :
    ∃ n ≤ buf.length, r.2.file = f.appended (buf.take n) ∧
      (r.1 = buf.length ∧ n = buf.length ∨ (r.1 = 0 ∨ r.1 = -1) ∧ n < buf.length) := by
  have hreturns : iterate (atomicioNext writes buf) none fuel (0, s) ≠ none := by
    rw [← atomicio, h]
    exact Option.some_ne_none r
  obtain ⟨t, hreach, ht⟩ := returns_of_iterate hreturns
  have hwritten := written_of_reaches hend (written_zero hfile) hreach
  have hspec := atomicioNext_spec writes hend hwritten
  rw [ht, ← atomicio, h] at hspec
  cases hspec with
  | finished hall =>
    refine ⟨buf.length, le_rfl, ?_, .inl ⟨rfl, rfl⟩⟩
    rw [← hall]
    exact hwritten.2
  | failed hmissing _ hret hfailed => exact ⟨t.1, hmissing.le, hfailed.2, .inr ⟨hret, hmissing⟩⟩

/-- **The loop ends**, unless from some call on every call is interrupted. -/
theorem atomicio_returns (hend : f.AtEnd) (hfair : ∀ i, ∃ j ≥ i, ¬ (writes j).interrupted)
    {s : FileState} (hfile : s.file = f) : ∃ fuel r, atomicio writes buf s fuel = some r := by
  have hends : ∀ s, Written f buf s → ∃ t r, Reaches (atomicioNext writes buf) s t ∧
      atomicioNext writes buf t = .inl (some r) := by
    intro s hs
    -- on the bytes that are missing, and for each of these on the calls until one is not interrupted
    induction hmissing : buf.length - s.1 using Nat.strong_induction_on generalizing s with
    | h missing ih =>
      obtain ⟨j, hj, hw⟩ := hfair s.2.calls
      induction hd : j - s.2.calls using Nat.strong_induction_on generalizing s with
      | h d ihd =>
        have hspec := atomicioNext_spec writes hend hs
        generalize hnext : atomicioNext writes buf s = o at hspec
        cases hspec with
        | finished _ => exact ⟨s, _, .refl s, hnext⟩
        | failed _ r _ _ => exact ⟨s, r, .refl s, hnext⟩
        | again hmore s' hwritten hcalls hprogress =>
          obtain hforward | ⟨hsame, hinterrupted⟩ := hprogress
          · obtain ⟨t, r, hreach, ht⟩ := ih _ (by omega) s' hwritten rfl
            exact ⟨t, r, hreach.head hnext, ht⟩
          · -- the call that is not interrupted is still to come
            have hne : j ≠ s.2.calls := by
              rintro rfl
              exact hw hinterrupted
            obtain ⟨t, r, hreach, ht⟩ :=
              ihd (j - s'.2.calls) (by omega) s' hwritten (by omega) (by omega) rfl
            exact ⟨t, r, hreach.head hnext, ht⟩
  obtain ⟨t, r, hreach, ht⟩ := hends _ (written_zero hfile)
  obtain ⟨fuel, hfuel⟩ := iterate_of_reaches none hreach ht
  exact ⟨fuel, r, hfuel 0⟩

end

/-! ## The function -/

section
variable {strerror : ℕ → String} {os : FileCalls} {buf : List UInt8} {f : OpenFile}

/-- What a call on a file that stood as `f` comes to: all of the buffer is behind the content, or
the file is as it was, or it is reported as corrupt. -/
structure AllOrNothing (f : OpenFile) (buf : List UInt8) (p : PutResult) : Prop where
  ok_iff : p.ret = storeErrOk ↔ p.file.content = f.content ++ buf
  restored : p.ret = storeErrIo ∨ p.ret = storeErrEof →
    p.file.content = f.content ∧ p.file.pos = f.pos
  corrupt : p.file.content ≠ f.content ++ buf →
    ¬ (p.file.content = f.content ∧ p.file.pos = f.pos) → p.ret = storeErrCorrupt

/-- A file with some of the buffer missing that is reported as corrupt. -/
theorem AllOrNothing.of_corrupt {p : PutResult} (hret : p.ret = storeErrCorrupt)
    (hmissing : p.file.content.length < f.content.length + buf.length) : AllOrNothing f buf p where
  ok_iff := by
    constructor
    · intro hok
      rw [hret] at hok
      exact absurd hok (by decide)
    · intro hall
      rw [hall, List.length_append] at hmissing
      exact absurd hmissing (lt_irrefl _)
  restored := by
    intro h
    rw [hret] at h
    exact absurd h (by decide)
  corrupt := fun _ _ => hret

/-- A file that is as it was, with a buffer that is not empty. -/
theorem AllOrNothing.of_restored {p : PutResult} (hret : p.ret ≠ storeErrOk) (hfile : p.file = f)
    (hbuf : buf ≠ []) : AllOrNothing f buf p where
  ok_iff := by
    rw [hfile]
    exact iff_of_false hret fun h => hbuf (List.self_eq_append_right.mp h)
  restored := fun _ => by rw [hfile]; exact ⟨rfl, rfl⟩
  corrupt := fun _ h => absurd (by rw [hfile]; exact ⟨rfl, rfl⟩) h

/-- What `store_put_buf` does behind `atomicio` on a regular file. -/
theorem putEnd_allOrNothing (hend : f.AtEnd) {r : ℤ × FileState} {n : ℕ} (hn : n ≤ buf.length)
    (hfile : r.2.file = f.appended (buf.take n))
    (hret : r.1 = buf.length ∧ n = buf.length ∨ (r.1 = 0 ∨ r.1 = -1) ∧ n < buf.length) :
    AllOrNothing f buf (putEnd strerror os buf.length (some f.pos) r) := by
  obtain ⟨hall, rfl⟩ | ⟨hfails, hmissing⟩ := hret
  · -- all bytes have been taken
    have hcontent : r.2.file.content = f.content ++ buf := by
      rw [hfile, List.take_length, OpenFile.content_appended]
    rw [putEnd, if_pos hall]
    exact {
      ok_iff := iff_of_true rfl hcontent
      restored := fun h =>
        absurd (show storeErrOk = storeErrIo ∨ storeErrOk = storeErrEof from h) (by decide)
      corrupt := fun h => absurd hcontent h }
  · have hne : r.1 ≠ buf.length := by omega
    have hbuf : buf ≠ [] := by
      rintro rfl
      exact absurd hmissing (Nat.not_lt_zero n)
    have hlength : r.2.file.content.length < f.content.length + buf.length := by
      rw [hfile, OpenFile.content_appended, List.length_append, List.length_take]
      omega
    rw [putEnd, if_neg hne]
    -- the two calls that bring the file back, each of which can fail
    cases os.rewind with
    | some errno => exact .of_corrupt rfl hlength
    | none =>
      cases os.truncate with
      | some errno => exact .of_corrupt rfl hlength
      | none =>
        -- what has been written stands behind the position to which the file is cut
        have hrestored : (r.2.file.seek f.pos).truncate f.pos = f := by
          rw [hfile, OpenFile.truncate_appended hend]
        show AllOrNothing f buf (if r.1 = -1 then _ else _)
        split_ifs with herror
        · exact .of_restored (by show storeErrIo ≠ storeErrOk; decide) hrestored hbuf
        · exact .of_restored (by show storeErrEof ≠ storeErrOk; decide) hrestored hbuf

/-- **Log writes are all or nothing.** On a regular file that stands at its end, whatever the calls
of `write` and the calls that bring the file back come to, `store_put_buf` returns `STORE_ERR_OK`
exactly when the file is its old content with the whole buffer behind it; with `STORE_ERR_IO` and
`STORE_ERR_EOF` content and position are as before; and any other state is reported as
`STORE_ERR_CORRUPT`. It returns unless from some call on every call of `write` is interrupted. -/
theorem storePutBuf_all_or_nothing (strerror : ℕ → String) (os : FileCalls) (buf : List UInt8)
    (f : OpenFile) (errno : ℕ) (hend : f.AtEnd) :
    (∀ fuel p, storePutBuf strerror .regular os buf f errno fuel = some p → AllOrNothing f buf p) ∧
    ((∀ i, ∃ j ≥ i, ¬ (os.writes j).interrupted) →
      ∃ fuel p, storePutBuf strerror .regular os buf f errno fuel = some p) := by
  constructor
  · intro fuel p h
    obtain ⟨r, hr, rfl⟩ := Option.map_eq_some_iff.mp h
    obtain ⟨n, hn, hfile, hret⟩ := atomicio_spec hend rfl hr
    exact putEnd_allOrNothing hend hn hfile hret
  · intro hfair
    obtain ⟨fuel, r, hr⟩ := atomicio_returns (s := { file := f, errno }) hend hfair rfl
    exact ⟨fuel, _, Option.map_eq_some_iff.mpr ⟨r, hr, rfl⟩⟩

end

/-- Four bytes are to be put behind two; the first call takes one of them, the second is
interrupted, and the third fails with error 28. -/
theorem storePutBuf_all_or_nothing_full :
    ∃ p, storePutBuf (fun _ => "No space left on device") .regular
      { writes := fun i => if i = 0 then .count 1 else if i = 1 then .error eintr else .error 28 }
      [3, 4, 5, 6] { content := [1, 2], pos := 2 } 0 4 = some p ∧
    p.ret = storeErrIo ∧ p.ebuf = "write flow: No space left on device" ∧
    AllOrNothing { content := [1, 2], pos := 2 } [3, 4, 5, 6] p :=
  ⟨_, rfl, rfl, by decide,
    (storePutBuf_all_or_nothing (fun _ => "No space left on device")
      { writes := fun i => if i = 0 then .count 1 else if i = 1 then .error eintr else .error 28 }
      [3, 4, 5, 6] { content := [1, 2], pos := 2 } 0 rfl).1 4 _ rfl⟩

end Flowd
