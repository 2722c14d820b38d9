import NetworkMonitoring.Flowd.StoreRecords

/-!
# flowd — the output queue

The records that `process_flow` has serialised are collected in a block of memory that is doubled
when it is too small, and `output_flow_flush` writes the block to the log. A call of `malloc` or
`realloc` may fail; `output_flow_enqueue` then ends the process or reports a full queue.

## Main result

* `outputQueue_lossless`: over all runs, the log and the queue are the records in their order, the
  queue fits in its block, and the block in `OUTPUT_MAX_QLEN`; a record always fits after a flush.
-/

namespace Flowd

open Bytes ByteBuffer ErrorLoops

def outputInitialQlen : ℕ := 1024 * 16
def outputMaxQlen : ℕ := 1024 * 512

/-- The ways in which the collector stops while it queues a record. -/
inductive OutputStop where
  /-- `logerrx` ends the process. -/
  | exit
  /-- `memcpy` writes behind the block. -/
  | overflow
  /-- The loop that doubles the block does not end. -/
  | noReturn
  deriving DecidableEq, Repr

/-- What `malloc` and `realloc` return for a size: nothing, or a block with some content. -/
structure OutputAllocs where
  malloc : ℕ → Option (ℕ → UInt8) := fun _ => some fun _ => 0
  realloc : ℕ → Option (ℕ → UInt8) := fun _ => some fun _ => 0

/-- The variables of the output queue, and the bytes that have been written to the log. The sizes
stay below `OUTPUT_MAX_QLEN` and a record, so that no sum of them wraps. -/
structure OutputState where
  queue : Option (List UInt8) := none
  alloc : ℕ := 0
  offset : ℕ := 0
  log : List UInt8 := []

/-- A block of `n` bytes. -/
def block (content : ℕ → UInt8) (n : ℕ) : List UInt8 := (List.range n).map content

/-- `realloc`: the bytes of a block in a larger block. -/
def moveBlock (content : ℕ → UInt8) (n : ℕ) (buf : List UInt8) : List UInt8 :=
  buf ++ (block content n).drop buf.length

/-- `output_queue[0..output_queue_offset)`. -/
def OutputState.queued (st : OutputState) : List UInt8 := (st.queue.getD []).take st.offset

/-- All bytes that have been put out so far, in the log or in the queue. -/
def OutputState.output (st : OutputState) : List UInt8 := st.log ++ st.queued

/-- The loop of `output_flow_enqueue`. -/
def growQueue (allocs : OutputAllocs) (len : ℕ) (st : OutputState) :
    Except OutputStop (ℤ × OutputState) :=
  if st.offset + len > st.alloc then
    let tmpLen := st.alloc <<< 1
    -- This should never happen if max = initial * 2^x
    if tmpLen > outputMaxQlen then .ok (-1, st)
    else
      match allocs.realloc tmpLen with
      | none => .ok (-1, st)
      | some content =>
        -- Nothing is gained by doubling 0
        if st.alloc = 0 then .error .noReturn
        else growQueue allocs len
          { st with queue := st.queue.map (moveBlock content tmpLen), alloc := tmpLen }
  else .ok (0, st)
termination_by outputMaxQlen - st.alloc
decreasing_by
  simp only [Nat.shiftLeft_eq] at *
  omega

/-- The first call of `output_flow_enqueue` gets the initial block. -/
def allocQueue (allocs : OutputAllocs) (st : OutputState) : Except OutputStop OutputState :=
  match st.queue with
  | some _ => .ok st
  | none =>
    match allocs.malloc outputInitialQlen with
    | none => .error .exit
    | some content => .ok { st with
        queue := some (block content outputInitialQlen)
        alloc := outputInitialQlen }

/-- The end of `output_flow_enqueue`. -/
def appendQueue (st : OutputState) (f : List UInt8) : Except OutputStop (ℤ × OutputState) :=
  let buf := st.queue.getD []
  if st.offset + f.length > buf.length then .error .overflow
  else .ok (0, { st with
    queue := some (poke buf st.offset f)
    offset := st.offset + f.length })

/-- `output_flow_enqueue`: return 0 on success, -1 on queue full. -/
def outputFlowEnqueue (allocs : OutputAllocs) (st : OutputState) (f : List UInt8) :
    Except OutputStop (ℤ × OutputState) :=
  -- Force flush on overflow
  if st.offset + f.length > outputMaxQlen then .ok (-1, st)
  else do
    let st ← allocQueue allocs st
    let (ret, st) ← growQueue allocs f.length st
    if ret = -1 then return (-1, st)
    appendQueue st f

/-- `output_flow_flush`, with a `store_put_buf` that succeeds. -/
def outputFlowFlush (logFd : ℤ) (st : OutputState) : OutputState :=
  if logFd = -1 then st
  else if st.offset = 0 then st
  else { st with log := st.log ++ st.queued, offset := 0 }

/-- What `process_flow` does with the bytes of a record; `allocs'` is for the second attempt. -/
def processFlowOutput (logFd : ℤ) (allocs allocs' : OutputAllocs) (st : OutputState)
    (fbuf : List UInt8) : Except OutputStop OutputState := do
  if logFd = -1 then
    return st
  let (ret, st) ← outputFlowEnqueue allocs st fbuf
  if ret = -1 then
    let (ret, st) ← outputFlowEnqueue allocs' (outputFlowFlush logFd st) fbuf
    -- Must not fail after flush
    if ret = -1 then
      throw .exit
    return st
  return st

/-- The end of `process_flow`, for a flow that is not discarded. -/
def processFlow (logFd : ℤ) (locals : FieldVars) (storeMask : UInt32)
    (allocs allocs' : OutputAllocs) (st : OutputState) (flow : StoreFlowComplete) :
    Except OutputStop OutputState :=
  let r := storeFlowSerialiseMasked locals flow storeMask 1024
  if r.1.ret ≠ storeErrOk then .error .exit
  else processFlowOutput logFd allocs allocs' st r.2

/-! ## The block -/

/-- A block has the size that it was allocated with. -/
@[simp]
theorem length_block (content : ℕ → UInt8) (n : ℕ) : (block content n).length = n := by
  rw [block, List.length_map, List.length_range]

/-- A block that is moved has its new size. -/
theorem length_moveBlock {content : ℕ → UInt8} {n : ℕ} {buf : List UInt8} (h : buf.length ≤ n) :
    (moveBlock content n buf).length = n := by
  rw [moveBlock, List.length_append, List.length_drop, length_block]
  omega

namespace OutputState

/-- The queue has a block: the initial one, doubled some times. -/
structure Allocated (st : OutputState) (buf : List UInt8) : Prop where
  queue_eq : st.queue = some buf
  length_eq : buf.length = st.alloc
  offset_le : st.offset ≤ st.alloc
  alloc_eq : ∃ k ≤ 5, st.alloc = outputInitialQlen * 2 ^ k

/-- The invariant of the queue. -/
def Inv (st : OutputState) : Prop :=
  (st.queue = none ∧ st.offset = 0) ∨ ∃ buf, st.Allocated buf

variable {st : OutputState} {buf : List UInt8}

/-- A queue with a block is in order. -/
theorem Allocated.inv (h : st.Allocated buf) : st.Inv := .inr ⟨buf, h⟩

/-- What is queued stands at the front of the block. -/
theorem Allocated.queued_eq (h : st.Allocated buf) : st.queued = buf.take st.offset := by
  rw [queued, h.queue_eq, Option.getD_some]

/-- The block has its first size at least. -/
theorem Allocated.initial_le (h : st.Allocated buf) : outputInitialQlen ≤ st.alloc := by
  obtain ⟨k, -, halloc⟩ := h.alloc_eq
  rw [halloc]
  exact Nat.le_mul_of_pos_right _ (Nat.two_pow_pos k)

/-- The block has the largest size at most. -/
theorem Allocated.alloc_le (h : st.Allocated buf) : st.alloc ≤ outputMaxQlen := by
  obtain ⟨k, hk, halloc⟩ := h.alloc_eq
  rw [halloc]
  calc outputInitialQlen * 2 ^ k ≤ outputInitialQlen * 2 ^ 5 :=
        Nat.mul_le_mul_left _ (Nat.pow_le_pow_right (by decide) hk)
    _ = outputMaxQlen := rfl

/-- The queue is in order at the start. -/
theorem inv_start : ({} : OutputState).Inv := .inl ⟨rfl, rfl⟩

/-- The offset counts what is queued. -/
theorem Inv.length_queued (h : st.Inv) : st.queued.length = st.offset := by
  rcases h with ⟨hqueue, hoffset⟩ | ⟨buf, h⟩
  · rw [queued, hqueue, hoffset]
    rfl
  · rw [h.queued_eq, List.length_take, h.length_eq, Nat.min_eq_left h.offset_le]

/-- Doubling the block keeps the bytes of the queue. -/
theorem Allocated.grow (h : st.Allocated buf) {len : ℕ} (hmax : st.offset + len ≤ outputMaxQlen)
    (hgrow : st.offset + len > st.alloc) (content : ℕ → UInt8) :
    ∃ buf', ({ st with
        queue := st.queue.map (moveBlock content (st.alloc <<< 1))
        alloc := st.alloc <<< 1 } : OutputState).Allocated buf' ∧
      buf'.take st.offset = buf.take st.offset := by
  have hdouble : st.alloc <<< 1 = st.alloc * 2 := Nat.shiftLeft_eq ..
  have hoffset := h.offset_le
  have hlen := h.length_eq
  refine ⟨moveBlock content (st.alloc <<< 1) buf, ⟨?_, ?_, ?_, ?_⟩, ?_⟩
  · rw [h.queue_eq]
    rfl
  · exact length_moveBlock (by omega)
  · show st.offset ≤ st.alloc <<< 1
    omega
  · -- the block is smaller than the largest one, which is reached by the fifth doubling
    obtain ⟨k, hk, halloc⟩ := h.alloc_eq
    have hfive : k ≠ 5 := by
      rintro rfl
      have hfull : outputInitialQlen * 2 ^ 5 = outputMaxQlen := rfl
      omega
    refine ⟨k + 1, by omega, ?_⟩
    show st.alloc <<< 1 = outputInitialQlen * 2 ^ (k + 1)
    rw [hdouble, halloc, Nat.pow_succ, Nat.mul_assoc]
  · rw [moveBlock, List.take_append_of_le_length (by omega)]

end OutputState

/-! ## The two operations -/

open OutputState

variable {st : OutputState} {allocs : OutputAllocs}

/-- The block is not moved when the record fits. -/
theorem growQueue_fits {len : ℕ} (h : st.offset + len ≤ st.alloc) :
    growQueue allocs len st = .ok (0, st) := by
  rw [growQueue, if_neg (Nat.not_lt.mpr h)]

/-- The loop keeps the queue and ends with enough room, unless `realloc` fails. -/
theorem growQueue_ends {buf : List UInt8} (h : st.Allocated buf) {len : ℕ}
    (hmax : st.offset + len ≤ outputMaxQlen) :
    Ends (fun _ => False)
      (fun r => (∃ buf', r.2.Allocated buf') ∧ r.2.queued = st.queued ∧
        r.2.offset = st.offset ∧ r.2.log = st.log ∧
        (r.1 = 0 ∧ st.offset + len ≤ r.2.alloc ∨ r.1 = -1 ∧ ∃ n, allocs.realloc n = none))
      (growQueue allocs len st) := by
  induction hfree : outputMaxQlen - st.alloc using Nat.strong_induction_on generalizing st buf with
  | _ n ih =>
    by_cases hgrow : st.offset + len > st.alloc
    -- doubling leaves the block inside the limit, so the free space shrinks
    · have hpos : 0 < st.alloc := lt_of_lt_of_le (by decide) h.initial_le
      have hdouble : st.alloc <<< 1 = st.alloc * 2 := Nat.shiftLeft_eq ..
      have hroom (content : ℕ → UInt8) := h.grow hmax hgrow content
      have htmp : ¬ st.alloc <<< 1 > outputMaxQlen := by
        obtain ⟨buf', h', -⟩ := hroom fun _ => 0
        exact Nat.not_lt.mpr h'.alloc_le
      rw [growQueue, if_pos hgrow]
      simp only [if_neg htmp]
      cases hrealloc : allocs.realloc (st.alloc <<< 1) with
      | none => exact ⟨⟨buf, h⟩, rfl, rfl, rfl, .inr ⟨rfl, _, hrealloc⟩⟩
      | some content =>
        obtain ⟨buf', h', htake⟩ := hroom content
        simp only [if_neg hpos.ne']
        refine (ih _ ?_ h' hmax rfl).imp (fun _ => id) fun r hr => ?_
        · show outputMaxQlen - st.alloc <<< 1 < n
          omega
        · obtain ⟨hbuf, hqueued, hoffset, hlog, hret⟩ := hr
          refine ⟨hbuf, ?_, hoffset, hlog, hret⟩
          rw [hqueued, h'.queued_eq, h.queued_eq, ← htake]
    · rw [growQueue_fits (Nat.le_of_not_lt hgrow)]
      exact ⟨⟨buf, h⟩, rfl, rfl, rfl, .inl ⟨rfl, Nat.le_of_not_lt hgrow⟩⟩

/-- Allocating the block loses nothing, or stops the program. -/
theorem allocQueue_ends (h : st.Inv) :
    Ends (fun e => e = OutputStop.exit ∧ ∃ n, allocs.malloc n = none)
      (fun st' => (∃ buf, st'.Allocated buf) ∧ st'.queued = st.queued ∧
        st'.offset = st.offset ∧ st'.log = st.log)
      (allocQueue allocs st) := by
  rcases h with ⟨hqueue, hoffset⟩ | ⟨buf, h⟩
  · rw [allocQueue, hqueue]
    cases hmalloc : allocs.malloc outputInitialQlen with
    | none => exact ⟨rfl, _, hmalloc⟩
    | some content =>
      refine ⟨⟨_, rfl, length_block _ _, ?_, 0, by decide, (Nat.mul_one _).symm⟩, ?_, rfl, rfl⟩
      · show st.offset ≤ outputInitialQlen
        rw [hoffset]
        exact Nat.zero_le _
      · simp only [queued, hoffset, List.take_zero]
  · rw [allocQueue, h.queue_eq]
    exact ⟨⟨buf, h⟩, rfl, rfl, rfl⟩

/-- A record for which there is room is appended to the queue. -/
theorem appendQueue_eq {buf : List UInt8} (h : st.Allocated buf) {f : List UInt8}
    (hroom : st.offset + f.length ≤ st.alloc) :
    ∃ st', appendQueue st f = .ok (0, st') ∧ st'.Inv ∧ st'.queued = st.queued ++ f ∧
      st'.log = st.log := by
  have hlen : st.offset + f.length ≤ buf.length := by
    rw [h.length_eq]
    exact hroom
  have hstart : (buf.take st.offset).length = st.offset := List.length_take_of_le (by omega)
  rw [appendQueue, h.queue_eq, Option.getD_some]
  simp only [if_neg (Nat.not_lt.mpr hlen)]
  refine ⟨_, rfl, .inr ⟨poke buf st.offset f, rfl, ?_, hroom, h.alloc_eq⟩, ?_, rfl⟩
  · rw [length_poke hlen, h.length_eq]
  · show (poke buf st.offset f).take (st.offset + f.length) = st.queued ++ f
    rw [poke, ← List.append_assoc, List.take_left' (by rw [List.length_append, hstart]),
      h.queued_eq]

/-- The queue gets the record, or it stays as it is: it is full, or memory cannot be had. -/
theorem outputFlowEnqueue_ends (h : st.Inv) (f : List UInt8) :
    Ends (fun e => e = OutputStop.exit ∧ ∃ n, allocs.malloc n = none)
      (fun r => r.2.Inv ∧ r.2.log = st.log ∧
        (r.1 = 0 ∧ r.2.queued = st.queued ++ f ∨
          r.1 = -1 ∧ r.2.queued = st.queued ∧ r.2.offset = st.offset ∧
            (outputMaxQlen < st.offset + f.length ∨ ∃ n, allocs.realloc n = none)))
      (outputFlowEnqueue allocs st f) := by
  rw [outputFlowEnqueue]
  by_cases hfull : st.offset + f.length > outputMaxQlen
  · rw [if_pos hfull]
    exact ⟨h, rfl, .inr ⟨rfl, rfl, rfl, .inl hfull⟩⟩
  · rw [if_neg hfull]
    refine (allocQueue_ends h).bind fun st₁ hst₁ => ?_
    obtain ⟨⟨buf₁, h₁⟩, hqueued₁, hoffset₁, hlog₁⟩ := hst₁
    have hmax : st₁.offset + f.length ≤ outputMaxQlen := by omega
    refine ((growQueue_ends h₁ hmax).imp (fun _ => False.elim) fun _ => id).bind fun r hr => ?_
    obtain ⟨⟨buf, h'⟩, hqueued, hoffset, hlog, ⟨hret, hroom⟩ | ⟨hret, hrealloc⟩⟩ := hr
    -- there is room now, and the record is copied behind the others
    · obtain ⟨st', happend, hinv, hqueued', hlog'⟩ := appendQueue_eq h' (hoffset ▸ hroom)
      have hne : ¬ r.1 = -1 := by
        rw [hret]
        decide
      simp only [if_neg hne, happend]
      refine ⟨hinv, hlog'.trans (hlog.trans hlog₁), .inl ⟨rfl, ?_⟩⟩
      rw [hqueued', hqueued, hqueued₁]
    · simp only [hret, if_true]
      exact ⟨h'.inv, hlog.trans hlog₁, .inr ⟨rfl, hqueued.trans hqueued₁,
        hoffset.trans hoffset₁, .inr hrealloc⟩⟩

/-- An empty queue has room for a record. -/
theorem outputFlowEnqueue_empty (h : st.Inv) (hempty : st.offset = 0) {f : List UInt8}
    (hlen : f.length ≤ 1024) :
    Ends (fun e => e = OutputStop.exit ∧ ∃ n, allocs.malloc n = none)
      (fun r => r.1 = 0 ∧ r.2.Inv ∧ r.2.queued = st.queued ++ f ∧ r.2.log = st.log)
      (outputFlowEnqueue allocs st f) := by
  have hfull : ¬ st.offset + f.length > outputMaxQlen := by
    have hmax : 1024 ≤ outputMaxQlen := by decide
    omega
  rw [outputFlowEnqueue, if_neg hfull]
  refine (allocQueue_ends h).bind fun st₁ hst₁ => ?_
  obtain ⟨⟨buf₁, h₁⟩, hqueued₁, hoffset₁, hlog₁⟩ := hst₁
  have hroom : st₁.offset + f.length ≤ st₁.alloc := by
    have hinitial := h₁.initial_le
    have hmin : 1024 ≤ outputInitialQlen := by decide
    omega
  obtain ⟨st', happend, hinv, hqueued, hlog⟩ := appendQueue_eq h₁ hroom
  rw [growQueue_fits hroom, ok_bind]
  show Ends _ _ (appendQueue st₁ f)
  rw [happend]
  exact ⟨rfl, hinv, hqueued.trans (congrArg (· ++ f) hqueued₁), hlog.trans hlog₁⟩

/-- Flushing moves the queue to the log. -/
theorem outputFlowFlush_spec (h : st.Inv) {logFd : ℤ} (hopen : logFd ≠ -1) :
    (outputFlowFlush logFd st).Inv ∧ (outputFlowFlush logFd st).output = st.output ∧
      (outputFlowFlush logFd st).offset = 0 := by
  rw [outputFlowFlush, if_neg hopen]
  by_cases hempty : st.offset = 0
  · rw [if_pos hempty]
    exact ⟨h, rfl, hempty⟩
  · rw [if_neg hempty]
    refine ⟨?_, ?_, rfl⟩
    · rcases h with ⟨-, hoffset⟩ | ⟨buf, h⟩
      · exact absurd hoffset hempty
      · exact .inr ⟨buf, h.queue_eq, h.length_eq, Nat.zero_le _, h.alloc_eq⟩
    · show (st.log ++ st.queued) ++ (st.queue.getD []).take 0 = st.output
      rw [List.take_zero, List.append_nil, output]

/-! ## Runs -/

/-- What the collector does with its output. -/
inductive OutputCall where
  /-- `process_flow` puts out a record. -/
  | flow (fbuf : List UInt8) (allocs allocs' : OutputAllocs)
  /-- `output_flow_flush`, between two rounds of the collector. -/
  | flush

/-- The bytes that a call puts out. -/
def OutputCall.record : OutputCall → List UInt8
  | .flow fbuf _ _ => fbuf
  | .flush => []

/-- `malloc` fails in a call. -/
def OutputCall.MallocFails : OutputCall → Prop
  | .flow _ allocs allocs' => (∃ n, allocs.malloc n = none) ∨ ∃ n, allocs'.malloc n = none
  | .flush => False

def OutputCall.step (logFd : ℤ) (st : OutputState) : OutputCall → Except OutputStop OutputState
  | .flow fbuf allocs allocs' => processFlowOutput logFd allocs allocs' st fbuf
  | .flush => .ok (outputFlowFlush logFd st)

/-- The state after a number of calls. -/
def runOutput (logFd : ℤ) (calls : List OutputCall) : Except OutputStop OutputState :=
  calls.foldlM (OutputCall.step logFd) {}

/-- A record is behind all output so far. -/
theorem processFlowOutput_ends (h : st.Inv) {logFd : ℤ} (hopen : logFd ≠ -1) {fbuf : List UInt8}
    (hlen : fbuf.length ≤ 1024) (allocs' : OutputAllocs) :
    Ends (fun e => e = .exit ∧ (OutputCall.flow fbuf allocs allocs').MallocFails)
      (fun st' => st'.Inv ∧ st'.output = st.output ++ fbuf)
      (processFlowOutput logFd allocs allocs' st fbuf) := by
  rw [processFlowOutput, if_neg hopen]
  refine ((outputFlowEnqueue_ends h fbuf).imp (fun e he => ⟨he.1, .inl he.2⟩)
    fun _ => id).bind fun r hr => ?_
  obtain ⟨hinv, hlog, ⟨hret, hqueued⟩ | ⟨hret, hqueued, -, -⟩⟩ := hr
  · have hne : ¬ r.1 = -1 := by
      rw [hret]
      decide
    simp only [if_neg hne]
    refine ⟨hinv, ?_⟩
    rw [output, hlog, hqueued, ← List.append_assoc, output]
  · simp only [hret, if_true]
    -- the queue is full: it is written out, and the second try finds it empty
    obtain ⟨hflushed, houtput, hempty⟩ := outputFlowFlush_spec hinv hopen
    refine ((outputFlowEnqueue_empty hflushed hempty hlen).imp
      (fun e he => ⟨he.1, .inr he.2⟩) fun _ => id).bind fun r' hr' => ?_
    obtain ⟨hret', hinv', hqueued', hlog'⟩ := hr'
    have hne : ¬ r'.1 = -1 := by
      rw [hret']
      decide
    simp only [if_neg hne]
    refine ⟨hinv', ?_⟩
    rw [output, hlog', hqueued', ← List.append_assoc, ← output, houtput, output, hlog, hqueued,
      output]

/-- A record is written with the length that has been calculated. -/
theorem length_writeRecord {fields : UInt32} {vars : FieldVars} {f : StoreFlowComplete} {len : ℤ}
    (hok : (writeRecord fields vars f len).1.ret = storeErrOk) :
    (writeRecord fields vars f len).2.length = len + 8 := by
  obtain ⟨bs, flow, hwrite⟩ : ∃ (bs : List UInt8) (flow : StoreFlowComplete),
      writeRecord fields vars f len = if len + 8 ≠ bs.length then
        ({ ret := storeErrInternal, ebuf := "store_flow_serialise: len != offset"
           flow := flow }, bs)
      else ({ flow := flow }, bs) := ⟨_, _, rfl⟩
  by_cases hlen : len + 8 ≠ bs.length
  · rw [hwrite, if_pos hlen] at hok
    exact absurd hok (show storeErrInternal ≠ storeErrOk by decide)
  · rw [hwrite, if_neg hlen]
    exact (not_not.mp hlen).symm

/-- The length of a record with all fields. -/
theorem storeCalcFlowLen_le (hdrFields : UInt32) : storeCalcFlowLen hdrFields ≤ 176 := by
  have hbody := bodySize_le (htonl hdrFields)
  have hcrc := crcSize_le (htonl hdrFields)
  rw [storeCalcFlowLen_eq]
  split
  · decide
  · omega

/-- A serialised record fits into the buffer. -/
theorem length_storeFlowSerialise_le {locals : FieldVars} {f : StoreFlowComplete} {buflen : ℤ}
    (hok : (storeFlowSerialise locals f buflen).1.ret = storeErrOk) :
    (storeFlowSerialise locals f buflen).2.length ≤ 1024 := by
  rw [storeFlowSerialise] at hok ⊢
  split at hok
  · exact absurd hok (show storeErrFlowInvalid ≠ storeErrOk by decide)
  · rename_i fields vars _
    have hsize := storeCalcFlowLen_le (htonl fields)
    simp only at hok ⊢
    split_ifs at hok ⊢ with h4 hbuf hinvalid
    · exact absurd hok (show storeErrInternal ≠ storeErrOk by decide)
    · exact absurd hok (show storeErrBufferSize ≠ storeErrOk by decide)
    · exact absurd hok (show storeErrFlowInvalid ≠ storeErrOk by decide)
    · have hlen := length_writeRecord hok
      omega

/-- `process_flow` puts out the record that it serialises. -/
theorem processFlow_ends (h : st.Inv) {logFd : ℤ} (hopen : logFd ≠ -1) (locals : FieldVars)
    (storeMask : UInt32) (allocs' : OutputAllocs) (flow : StoreFlowComplete) :
    Ends (fun e => e = OutputStop.exit)
      (fun st' => st'.Inv ∧
        st'.output = st.output ++ (storeFlowSerialiseMasked locals flow storeMask 1024).2)
      (processFlow logFd locals storeMask allocs allocs' st flow) := by
  rw [processFlow]
  by_cases hok : (storeFlowSerialiseMasked locals flow storeMask 1024).1.ret = storeErrOk
  · have hlen : (storeFlowSerialiseMasked locals flow storeMask 1024).2.length ≤ 1024 :=
      length_storeFlowSerialise_le hok
    simp only [if_neg (not_not.mpr hok)]
    exact (processFlowOutput_ends h hopen hlen allocs').imp (fun e he => he.1) fun _ => id
  · simp only [if_pos hok]
    rfl

/-- A call appends its record to the output. -/
theorem OutputCall.step_ends (h : st.Inv) {logFd : ℤ} (hopen : logFd ≠ -1) {c : OutputCall}
    (hlen : c.record.length ≤ 1024) :
    Ends (fun e => e = .exit ∧ c.MallocFails)
      (fun st' => st'.Inv ∧ st'.output = st.output ++ c.record) (c.step logFd st) := by
  cases c with
  | flow fbuf allocs allocs' => exact processFlowOutput_ends h hopen hlen allocs'
  | flush =>
    obtain ⟨hinv, houtput, -⟩ := outputFlowFlush_spec h hopen
    exact ⟨hinv, houtput.trans (List.append_nil _).symm⟩

/-- A run ends with all records put out, in their order. -/
theorem runOutput_ends {logFd : ℤ} (hopen : logFd ≠ -1) {calls : List OutputCall}
    (hlen : ∀ c ∈ calls, c.record.length ≤ 1024) :
    Ends (fun e => e = .exit ∧ ∃ c ∈ calls, c.MallocFails)
      (fun st => st.Inv ∧ st.output = calls.flatMap OutputCall.record) (runOutput logFd calls) := by
  refine Ends.foldlM (I := fun pre st => OutputState.Inv st ∧
    st.output = pre.flatMap OutputCall.record) ?_ ⟨inv_start, rfl⟩
  rintro pre c post st rfl ⟨hinv, houtput⟩
  have hmem : c ∈ pre ++ c :: post := mem_of_eq_append rfl
  refine (OutputCall.step_ends hinv hopen (hlen c hmem)).imp
    (fun e he => ⟨he.1, c, hmem, he.2⟩) fun st' hst' => ⟨hst'.1, ?_⟩
  rw [hst'.2, houtput, List.flatMap_append, List.flatMap_singleton]

/-- The output queue neither loses nor reorders records, and it stays within its block. A record
that is refused leaves the queue as it is, and after a flush it is not refused. Only a failed
`malloc` stops the collector. -/
theorem outputQueue_lossless {logFd : ℤ} (hopen : logFd ≠ -1) {calls : List OutputCall}
    (hlen : ∀ c ∈ calls, c.record.length ≤ 1024) :
    (∀ stop, runOutput logFd calls = .error stop →
      stop = .exit ∧ ∃ c ∈ calls, c.MallocFails) ∧
    ∀ st, runOutput logFd calls = .ok st →
      st.log ++ st.queued = calls.flatMap OutputCall.record ∧
      st.queued.length = st.offset ∧
      (∀ buf, st.queue = some buf →
        st.offset ≤ st.alloc ∧ st.alloc = buf.length ∧ st.alloc ≤ outputMaxQlen) ∧
      ∀ (f : List UInt8) (allocs : OutputAllocs) (st' : OutputState),
        outputFlowEnqueue allocs st f = .ok (-1, st') →
        st'.queued = st.queued ∧ st'.offset = st.offset ∧
          (f.length ≤ 1024 → ∀ allocs' r,
            outputFlowEnqueue allocs' (outputFlowFlush logFd st') f = .ok r → r.1 ≠ -1) := by
  have hends := runOutput_ends hopen hlen
  refine ⟨fun stop hstop => ?_, fun st hst => ?_⟩
  · rw [hstop] at hends
    exact hends
  rw [hst] at hends
  obtain ⟨hinv, houtput⟩ := hends
  refine ⟨houtput, hinv.length_queued, fun buf hbuf => ?_, fun f allocs st' hfull => ?_⟩
  · obtain ⟨hqueue, -⟩ | ⟨buf', h⟩ := hinv
    · exact absurd (hqueue.symm.trans hbuf) (Option.some_ne_none buf).symm
    · obtain rfl := Option.some.inj (h.queue_eq.symm.trans hbuf)
      exact ⟨h.offset_le, h.length_eq.symm, h.alloc_le⟩
  · have hrefused := @outputFlowEnqueue_ends st allocs hinv f
    rw [hfull] at hrefused
    obtain ⟨hinv', -, ⟨hret, -⟩ | ⟨-, hqueued, hoffset, -⟩⟩ := hrefused
    · exact absurd hret (show (-1 : ℤ) ≠ 0 by decide)
    · refine ⟨hqueued, hoffset, fun hsize allocs' r hr => ?_⟩
      -- behind a flush the queue is empty, and one record always fits
      obtain ⟨hflushed, -, hempty⟩ := outputFlowFlush_spec hinv' hopen
      have hagain := @outputFlowEnqueue_empty _ allocs' hflushed hempty f hsize
      rw [hr] at hagain
      rw [hagain.1]
      decide

/-- Two records with a flush between them. -/
def twoRecords : List OutputCall := [.flow [1, 2, 3] {} {}, .flush, .flow [4] {} {}]

/-- With a `malloc` that does not fail, both are put out. -/
theorem outputQueue_twoRecords :
    ∃ st, runOutput 5 twoRecords = .ok st ∧ st.log ++ st.queued = [1, 2, 3, 4] := by
  have hsize : ∀ c ∈ twoRecords, c.record.length ≤ 1024 := by decide
  obtain ⟨hstop, hend⟩ := @outputQueue_lossless 5 (by decide) twoRecords hsize
  cases hrun : runOutput 5 twoRecords with
  | error stop =>
    obtain ⟨-, c, hc, hfails⟩ := hstop stop hrun
    have hnone : ∀ c ∈ twoRecords, ¬ c.MallocFails := by
      simp [twoRecords, OutputCall.MallocFails]
    exact absurd hfails (hnone c hc)
  | ok st => exact ⟨st, rfl, (hend st hrun).1⟩

end Flowd
