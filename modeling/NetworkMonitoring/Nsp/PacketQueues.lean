import Mathlib.Data.Int.Notation
import Mathlib.Data.List.Nodup
import Mathlib.Data.List.Pairwise
import Mathlib.Data.List.Perm.Subperm
import Mathlib.Logic.Function.Basic
import Mathlib.Order.Basic
import Mathlib.Tactic.SplitIfs

/-!
# NSP — the queues of packets

The loader puts the time stamp of a packet at the end of `timeAxis` and the packet at the end of the
list of its couple of ASs. The sender takes time stamps from the front of the axis and sends the
packets that have them. Loader and sender exclude each other with `sendingSem`, so dispatching a
packet is one step and so is an entry of the axis.

A list is scanned up to the first packet that is later than the time stamp. The lists are not in the
order of the time stamps, but in that of the axis, and this is enough: when an entry of the axis is
taken, its packet is the first one of its list, or has been sent.

`ListOfPacketMatrix` has 40 rows of 40 lists, and nothing compares the numbers of the ASs with that.
An access outside of it is a result `none` here.

## Main results

* `updateCells_spec`: what becomes due leaves the lists, with the first packet of a list that has the
  time stamp;
* `sends_once_iff`: every packet is sent once, with its own entry of the axis or before, exactly when
  the couples are inside the matrix.
-/

namespace Nsp

/-- `TimeStamp`. -/
structure TimeStamp where
  second : UInt32
  usecond : UInt32
  deriving DecidableEq, Repr

/-- `TimeStamp::Compare`: -1 if `ts` is smaller, 0 if it is equal and +1 if it is bigger. -/
def TimeStamp.compare (self ts : TimeStamp) : ℤ :=
  if ts.second < self.second then -1
  else if ts.second = self.second then
    if ts.usecond < self.usecond then -1
    else if ts.usecond > self.usecond then 1
    else 0
  else 1

/-- `struct couple`. -/
structure Couple where
  asSource : ℤ
  asDest : ℤ
  deriving DecidableEq, Repr

/-- `TrafficMatrixMaxSize`. -/
def trafficMatrixMaxSize : ℕ := 40

/-- The place of a list in `ListOfPacketMatrix`. -/
abbrev Cell := Fin trafficMatrixMaxSize × Fin trafficMatrixMaxSize

/-- An index into a row or a column; `none` is outside of the matrix. -/
def matrixIndex (i : ℤ) : Option (Fin trafficMatrixMaxSize) :=
  if h : 0 ≤ i ∧ i < trafficMatrixMaxSize then some ⟨i.toNat, by omega⟩ else none

/-- The list of a couple, `ListOfPacketMatrix[AsSource][AsDest]`. -/
def Couple.cell (c : Couple) : Option Cell := do
  return (← matrixIndex c.asSource, ← matrixIndex c.asDest)

/-- A packet with its address, by what the queues read of it. `cell` is the list it has been put
into. -/
structure QueuedPacket where
  ptr : ℕ
  timeStamp : TimeStamp
  cell : Cell
  deriving DecidableEq, Repr

/-- The queues of `SamplingPlatform`. -/
structure PacketQueues where
  listOfPacketMatrix : Cell → List QueuedPacket := fun _ => []
  timeAxis : List TimeStamp := []
  pListOfPacketToSend : List QueuedPacket := []

namespace PacketQueues

/-- `IncrementTimeAxis`. -/
def incrementTimeAxis (t : TimeStamp) (s : PacketQueues) : PacketQueues :=
  { s with timeAxis := s.timeAxis ++ [t] }

/-- `PushPacket`. -/
def pushPacket (pkt : QueuedPacket) (c : Couple) (s : PacketQueues) : Option PacketQueues := do
  let k ← c.cell
  return { s with
    listOfPacketMatrix :=
      Function.update s.listOfPacketMatrix k (s.listOfPacketMatrix k ++ [pkt]) }

/-- The loop over one list: the packets that are due and those that stay. The new time stamp that a
packet gets when it is taken is not read again. -/
def scan (ts : TimeStamp) : List QueuedPacket → List QueuedPacket × List QueuedPacket
  | [] => ([], [])
  | p :: l =>
    if ts.compare p.timeStamp = 0 then (p :: (scan ts l).1, (scan ts l).2)
    else if ts.compare p.timeStamp > 0 then ([], p :: l)
    else ((scan ts l).1, p :: (scan ts l).2)

/-- The loop over the list of a couple, when there is one. -/
def updateCell (ts : TimeStamp) (s : PacketQueues) (k : Cell) : PacketQueues :=
  { s with
    listOfPacketMatrix := Function.update s.listOfPacketMatrix k (scan ts (s.listOfPacketMatrix k)).2
    pListOfPacketToSend := s.pListOfPacketToSend ++ (scan ts (s.listOfPacketMatrix k)).1 }

/-- The loop over the couples. -/
def updateCouple (ts : TimeStamp) (s : PacketQueues) (c : Couple) : Option PacketQueues := do
  let k ← c.cell
  return s.updateCell ts k

/-- `UpdateTheListOfPacketsToSend`. Without couples an exception is thrown, and caught. -/
def updateTheListOfPacketsToSend (lAsCouples : List Couple) (ts : TimeStamp) (s : PacketQueues) :
    Option PacketQueues :=
  if lAsCouples = [] then some s
  else lAsCouples.foldlM (updateCouple ts) { s with pListOfPacketToSend := [] }

/-- `SendTheCurrentListOfPackets`, with the packets that are sent. -/
def sendTheCurrentListOfPackets (s : PacketQueues) : PacketQueues × List QueuedPacket :=
  ({ s with pListOfPacketToSend := [] }, s.pListOfPacketToSend)

end PacketQueues

open PacketQueues

/-- A run: the queues, the packets that have been dispatched and sent so far, and the number of
entries of the axis that have been processed. -/
structure PacketRun where
  queues : PacketQueues := {}
  dispatched : List QueuedPacket := []
  sent : List QueuedPacket := []
  processed : ℕ := 0

namespace PacketRun

/-- A packet is dispatched. -/
def dispatch (r : PacketRun) (ts : TimeStamp) (c : Couple) : Option PacketRun := do
  let k ← c.cell
  let pkt : QueuedPacket := ⟨r.dispatched.length, ts, k⟩
  let queues ← (r.queues.incrementTimeAxis ts).pushPacket pkt c
  return { r with queues := queues, dispatched := r.dispatched ++ [pkt] }

/-- The first entry of the axis is processed. -/
def process (lAsCouples : List Couple) (r : PacketRun) (ts : TimeStamp) (rest : List TimeStamp) :
    Option PacketRun := do
  let due ← r.queues.updateTheListOfPacketsToSend lAsCouples ts
  let (queues, sent) := due.sendTheCurrentListOfPackets
  return { r with
    queues := { queues with timeAxis := rest }
    sent := r.sent ++ sent
    processed := r.processed + 1 }

/-- The runs of loader and sender, in any order of their steps. -/
inductive Reachable (lAsCouples : List Couple) : PacketRun → Prop
  | start : Reachable lAsCouples {}
  | dispatch {r r' : PacketRun} (h : Reachable lAsCouples r) {ts : TimeStamp} {c : Couple}
    (hc : c ∈ lAsCouples) (hr : r.dispatch ts c = some r') : Reachable lAsCouples r'
  | process {r r' : PacketRun} (h : Reachable lAsCouples r) {ts : TimeStamp}
    {rest : List TimeStamp} (haxis : r.queues.timeAxis = ts :: rest)
    (hr : r.process lAsCouples ts rest = some r') : Reachable lAsCouples r'

end PacketRun

/-! ## One list -/

/-- The indices of the matrix. -/
theorem isSome_matrixIndex (i : ℤ) : (matrixIndex i).isSome ↔ 0 ≤ i ∧ i < 40 := by
  unfold matrixIndex
  split_ifs with h
  · exact iff_of_true rfl h
  · exact iff_of_false Bool.false_ne_true h

/-- The couples that have a list in the matrix. -/
theorem Couple.isSome_cell (c : Couple) :
    c.cell.isSome ↔ (0 ≤ c.asSource ∧ c.asSource < 40) ∧ 0 ≤ c.asDest ∧ c.asDest < 40 := by
  rw [← isSome_matrixIndex, ← isSome_matrixIndex, Couple.cell]
  cases matrixIndex c.asSource <;> cases matrixIndex c.asDest <;> simp

/-- A time stamp is not before itself. -/
@[simp]
theorem TimeStamp.compare_self (ts : TimeStamp) : ts.compare ts = 0 := by
  simp [TimeStamp.compare]

/-- The packets of a list are divided between those that are due and those that stay. -/
theorem scan_perm (ts : TimeStamp) (l : List QueuedPacket) :
    ((scan ts l).1 ++ (scan ts l).2).Perm l := by
  induction l with
  | nil => exact List.Perm.refl _
  | cons p l ih =>
    rw [scan]
    split_ifs
    · exact ih.cons p
    · exact List.Perm.refl _
    · exact List.perm_middle.trans (ih.cons p)

/-- What the scan leaves is in the order of the list. -/
theorem scan_sublist (ts : TimeStamp) (l : List QueuedPacket) : (scan ts l).2.Sublist l := by
  induction l with
  | nil => exact List.Sublist.refl _
  | cons p l ih =>
    rw [scan]
    split_ifs
    · exact ih.cons p
    · exact List.Sublist.refl _
    · exact ih.cons_cons p

/-- The first packet of a list is due if it has the time stamp. -/
theorem mem_scan_head {ts : TimeStamp} {p : QueuedPacket} (h : p.timeStamp = ts)
    (l : List QueuedPacket) : p ∈ (scan ts (p :: l)).1 := by
  rw [scan, h, if_pos ts.compare_self]
  exact List.mem_cons_self

/-! ## All lists -/

/-- `UpdateTheListOfPacketsToSend` on lists that exist. -/
def PacketQueues.updateCells (cs : List Cell) (ts : TimeStamp) (s : PacketQueues) : PacketQueues :=
  cs.foldl (updateCell ts) { s with pListOfPacketToSend := [] }

/-- What the loop over the couples returns is the result of the loop over their lists. -/
theorem eq_of_foldlM_updateCouple {ts : TimeStamp} {lAsCouples : List Couple}
    {s s' : PacketQueues} (h : lAsCouples.foldlM (updateCouple ts) s = some s') :
    s' = (lAsCouples.filterMap Couple.cell).foldl (updateCell ts) s := by
  induction lAsCouples generalizing s with
  | nil => exact (Option.some.inj h).symm
  | cons c l ih =>
    rw [List.foldlM_cons, updateCouple] at h
    rw [List.filterMap_cons]
    cases hc : c.cell with
    | none =>
      rw [hc] at h
      cases h
    | some k =>
      rw [hc] at h
      exact ih h

/-- When the lists of the couples exist, the loop over the couples returns. -/
theorem exists_foldlM_updateCouple (ts : TimeStamp) {lAsCouples : List Couple}
    (h : ∀ c ∈ lAsCouples, c.cell.isSome) (s : PacketQueues) :
    ∃ s', lAsCouples.foldlM (updateCouple ts) s = some s' := by
  induction lAsCouples generalizing s with
  | nil => exact ⟨s, rfl⟩
  | cons c l ih =>
    obtain ⟨k, hk⟩ := Option.isSome_iff_exists.mp (h c List.mem_cons_self)
    obtain ⟨s', hs'⟩ := ih (fun c' hc' => h c' (List.mem_cons_of_mem c hc')) (s.updateCell ts k)
    refine ⟨s', ?_⟩
    rw [List.foldlM_cons, updateCouple, hk]
    exact hs'

/-- Packets are in their own lists, in the order of their addresses. -/
structure Filed (m : Cell → List QueuedPacket) : Prop where
  cell : ∀ c, ∀ p ∈ m c, p.cell = c
  sorted : ∀ c, (m c).Pairwise fun p q => p.ptr < q.ptr

/-- No packet is twice in a list. -/
theorem Filed.nodup {m : Cell → List QueuedPacket} (h : Filed m) (c : Cell) : (m c).Nodup :=
  (h.sorted c).imp fun hlt heq => absurd (heq ▸ hlt) (Nat.lt_irrefl _)

/-- What the loop over the lists has done to the lists `m`. -/
structure Divided (m : Cell → List QueuedPacket) (s : PacketQueues) : Prop where
  sublist : ∀ c, (s.listOfPacketMatrix c).Sublist (m c)
  mem : ∀ p, p ∈ m p.cell → p ∈ s.listOfPacketMatrix p.cell ∨ p ∈ s.pListOfPacketToSend
  due : ∀ p ∈ s.pListOfPacketToSend, p ∈ m p.cell ∧ p ∉ s.listOfPacketMatrix p.cell
  nodup : s.pListOfPacketToSend.Nodup

/-- The lists that are left are filed too. -/
theorem Divided.filed {m : Cell → List QueuedPacket} {s : PacketQueues} (h : Divided m s)
    (hm : Filed m) : Filed s.listOfPacketMatrix :=
  ⟨fun c p hp => hm.cell c p ((h.sublist c).subset hp),
    fun c => (hm.sorted c).sublist (h.sublist c)⟩

/-- What is due of one list goes to the packets to send. -/
theorem Divided.updateCell {m : Cell → List QueuedPacket} {s : PacketQueues}
    (h : Divided m s) (hm : Filed m) (ts : TimeStamp) (c : Cell) :
    Divided m (s.updateCell ts c) := by
  have hfiled := h.filed hm
  have hperm := scan_perm ts (s.listOfPacketMatrix c)
  have hnodup : ((scan ts (s.listOfPacketMatrix c)).1 ++
      (scan ts (s.listOfPacketMatrix c)).2).Nodup := hperm.nodup_iff.mpr (hfiled.nodup c)
  -- no other list changes
  have hkept : ∀ c', ((s.updateCell ts c).listOfPacketMatrix c').Sublist
      (s.listOfPacketMatrix c') := by
    intro c'
    by_cases heq : c' = c
    · subst heq
      rw [PacketQueues.updateCell]
      dsimp only
      rw [Function.update_self]
      exact scan_sublist ts _
    · rw [PacketQueues.updateCell]
      dsimp only
      rw [Function.update_of_ne heq]
  have hdue : ∀ p ∈ (scan ts (s.listOfPacketMatrix c)).1, p ∈ s.listOfPacketMatrix p.cell ∧
      p ∉ (s.updateCell ts c).listOfPacketMatrix p.cell := by
    intro p hp
    have hmem : p ∈ s.listOfPacketMatrix c := hperm.mem_iff.mp (List.mem_append_left _ hp)
    obtain rfl := hfiled.cell c p hmem
    refine ⟨hmem, fun hstay => ?_⟩
    rw [PacketQueues.updateCell] at hstay
    dsimp only at hstay
    rw [Function.update_self] at hstay
    exact List.disjoint_of_nodup_append hnodup hp hstay
  refine ⟨fun c' => (hkept c').trans (h.sublist c'), fun p hp => ?_, fun p hp => ?_, ?_⟩
  · rcases h.mem p hp with hin | hin
    · by_cases heq : p.cell = c
      · rw [heq] at hin
        rcases List.mem_append.mp (hperm.mem_iff.mpr hin) with hnow | hstay
        · exact .inr (List.mem_append_right _ hnow)
        · refine .inl ?_
          rw [heq, PacketQueues.updateCell]
          dsimp only
          rw [Function.update_self]
          exact hstay
      · refine .inl ?_
        rw [PacketQueues.updateCell]
        dsimp only
        rw [Function.update_of_ne heq]
        exact hin
    · exact .inr (List.mem_append_left _ hin)
  · rcases List.mem_append.mp hp with hold | hnow
    · obtain ⟨hmem, hnot⟩ := h.due p hold
      exact ⟨hmem, fun hstay => hnot ((hkept _).subset hstay)⟩
    · obtain ⟨hmem, hnot⟩ := hdue p hnow
      exact ⟨(h.sublist _).subset hmem, hnot⟩
  · refine List.nodup_append'.mpr ⟨h.nodup, (List.nodup_append'.mp hnodup).1, ?_⟩
    intro p hold hnow
    exact (h.due p hold).2 (hdue p hnow).1

/-- The first packet of its list leaves it when the loop comes to this list. -/
theorem not_mem_foldl_updateCell {m : Cell → List QueuedPacket} (hm : Filed m)
    {q : QueuedPacket} (hfirst : ∀ p ∈ m q.cell, q.ptr ≤ p.ptr) (cs : List Cell)
    {s : PacketQueues} (h : Divided m s)
    (hq : q.cell ∈ cs ∨ q ∉ s.listOfPacketMatrix q.cell) :
    q ∉ (cs.foldl (PacketQueues.updateCell q.timeStamp) s).listOfPacketMatrix q.cell := by
  induction cs generalizing s with
  | nil => exact hq.resolve_left List.not_mem_nil
  | cons c cs ih =>
    have hdivided := h.updateCell hm q.timeStamp c
    apply ih hdivided
    by_cases hcs : q.cell ∈ cs
    · exact .inl hcs
    refine .inr fun hstay => ?_
    rw [PacketQueues.updateCell] at hstay
    dsimp only at hstay
    by_cases heq : q.cell = c
    · subst heq
      rw [Function.update_self] at hstay
      have hin := (scan_sublist q.timeStamp _).subset hstay
      have hfiled := h.filed hm
      have hperm := scan_perm q.timeStamp (s.listOfPacketMatrix q.cell)
      have hnodup := hperm.nodup_iff.mpr (hfiled.nodup q.cell)
      -- it is the first one, because the others have come to the list later
      obtain ⟨p, l, hl⟩ := List.exists_cons_of_ne_nil (List.ne_nil_of_mem hin)
      have hsorted := hfiled.sorted q.cell
      rw [hl] at hin hstay hnodup hsorted
      have hqp : q = p := by
        rcases List.mem_cons.mp hin with hqp | hlater
        · exact hqp
        · have hlt := (List.pairwise_cons.mp hsorted).1 q hlater
          have hle := hfirst p ((h.sublist q.cell).subset (by rw [hl]; exact List.mem_cons_self))
          exact absurd hlt (Nat.not_lt.mpr hle)
      subst hqp
      exact List.disjoint_of_nodup_append hnodup (mem_scan_head rfl l) hstay
    · rw [Function.update_of_ne heq] at hstay
      rcases hq with hq | hq
      · exact (List.mem_cons.mp hq).elim heq hcs
      · exact hq hstay

/-- What is due of some lists goes to the packets to send. -/
theorem divided_foldl {m : Cell → List QueuedPacket} (hm : Filed m) (ts : TimeStamp)
    (cs : List Cell) {s : PacketQueues} (h : Divided m s) :
    Divided m (cs.foldl (PacketQueues.updateCell ts) s) := by
  induction cs generalizing s with
  | nil => exact h
  | cons c cs ih => exact ih (h.updateCell hm ts c)

/-- The loop over the lists divides them, and takes a packet that has the time stamp and stands
first
in its list. -/
theorem updateCells_spec {cs : List Cell} {s : PacketQueues} (hm : Filed s.listOfPacketMatrix)
    {q : QueuedPacket} (hq : q.cell ∈ cs)
    (hfirst : ∀ p ∈ s.listOfPacketMatrix q.cell, q.ptr ≤ p.ptr) :
    Divided s.listOfPacketMatrix (s.updateCells cs q.timeStamp) ∧
      q ∉ (s.updateCells cs q.timeStamp).listOfPacketMatrix q.cell := by
  have hstart : Divided s.listOfPacketMatrix { s with pListOfPacketToSend := [] } :=
    ⟨fun _ => List.Sublist.refl _, fun _ => .inl, fun _ hp => absurd hp List.not_mem_nil,
      List.nodup_nil⟩
  exact ⟨divided_foldl hm _ _ hstart, not_mem_foldl_updateCell hm hfirst _ hstart (.inl hq)⟩

/-! ## Runs -/

namespace PacketRun

/-- A packet comes into the list `k`. -/
def enqueue (r : PacketRun) (ts : TimeStamp) (k : Cell) : PacketRun :=
  let pkt : QueuedPacket := ⟨r.dispatched.length, ts, k⟩
  { r with
    queues := { r.queues.incrementTimeAxis ts with
      listOfPacketMatrix := Function.update r.queues.listOfPacketMatrix k
        (r.queues.listOfPacketMatrix k ++ [pkt]) }
    dispatched := r.dispatched ++ [pkt] }

/-- The lists `cs` are gone through. -/
def take (r : PacketRun) (cs : List Cell) (ts : TimeStamp) (rest : List TimeStamp) : PacketRun :=
  let due := r.queues.updateCells cs ts
  { r with
    queues := { due with pListOfPacketToSend := [], timeAxis := rest }
    sent := r.sent ++ due.pListOfPacketToSend
    processed := r.processed + 1 }

/-- A packet is dispatched when its couple has a list. -/
theorem dispatch_eq (r : PacketRun) (ts : TimeStamp) (c : Couple) :
    r.dispatch ts c = c.cell.map (r.enqueue ts) := by
  unfold dispatch pushPacket
  cases c.cell <;> rfl

/-- An entry of the axis is processed by going through the lists of the couples. -/
theorem eq_of_process {lAsCouples : List Couple} (hne : lAsCouples ≠ []) {r r' : PacketRun}
    {ts : TimeStamp} {rest : List TimeStamp} (h : r.process lAsCouples ts rest = some r') :
    r' = r.take (lAsCouples.filterMap Couple.cell) ts rest := by
  rw [process, updateTheListOfPacketsToSend, if_neg hne] at h
  obtain ⟨due, hdue, h⟩ := Option.bind_eq_some_iff.mp h
  rw [eq_of_foldlM_updateCouple hdue] at h
  exact (Option.some.inj h).symm

/-- The invariant of a run. -/
structure Inv (lAsCouples : List Couple) (r : PacketRun) : Prop where
  /-- Addresses are given in the order of the axis. -/
  ptr : ∀ (i : ℕ) (p : QueuedPacket), r.dispatched[i]? = some p → p.ptr = i
  couple : ∀ p ∈ r.dispatched, ∃ c ∈ lAsCouples, c.cell = some p.cell
  axis : r.queues.timeAxis = (r.dispatched.drop r.processed).map QueuedPacket.timeStamp
  filed : Filed r.queues.listOfPacketMatrix
  /-- A packet that has been dispatched waits in its list until it is sent. -/
  mem : ∀ p, p ∈ r.queues.listOfPacketMatrix p.cell ↔ p ∈ r.dispatched ∧ p ∉ r.sent
  sent : ∀ p ∈ r.sent, p ∈ r.dispatched
  nodup : r.sent.Nodup
  /-- With its own entry of the axis it is sent. -/
  due : ∀ p ∈ r.dispatched, p.ptr < r.processed → p ∈ r.sent
  processed : r.processed ≤ r.dispatched.length

/-- The invariant holds at the start. -/
theorem inv_start (lAsCouples : List Couple) : Inv lAsCouples {} where
  ptr := fun i p h => by cases h
  couple := fun p hp => absurd hp List.not_mem_nil
  axis := rfl
  filed := ⟨fun c p hp => absurd hp List.not_mem_nil, fun c => List.Pairwise.nil⟩
  mem := fun p => iff_of_false List.not_mem_nil fun h => absurd h.1 List.not_mem_nil
  sent := fun p hp => absurd hp List.not_mem_nil
  nodup := List.nodup_nil
  due := fun p hp => absurd hp List.not_mem_nil
  processed := Nat.le_refl 0

/-- The addresses of the packets so far are smaller than the next one. -/
theorem Inv.ptr_lt {lAsCouples : List Couple} {r : PacketRun} (h : Inv lAsCouples r)
    {p : QueuedPacket} (hp : p ∈ r.dispatched) : p.ptr < r.dispatched.length := by
  obtain ⟨i, hi⟩ := List.mem_iff_getElem?.mp hp
  rw [h.ptr i p hi]
  exact (List.getElem?_eq_some_iff.mp hi).1

/-- A packet that is dispatched keeps the invariant. -/
theorem Inv.enqueue {lAsCouples : List Couple} {r : PacketRun} (h : Inv lAsCouples r)
    (ts : TimeStamp) {c : Couple} (hc : c ∈ lAsCouples) {k : Cell} (hk : c.cell = some k) :
    Inv lAsCouples (r.enqueue ts k) := by
  let pkt : QueuedPacket := ⟨r.dispatched.length, ts, k⟩
  -- the packet gets the next number
  have hnew : pkt ∉ r.dispatched := fun hp => absurd (h.ptr_lt hp) (Nat.lt_irrefl _)
  have hmatrix : ∀ c', (r.enqueue ts k).queues.listOfPacketMatrix c' =
      if c' = k then r.queues.listOfPacketMatrix k ++ [pkt]
      else r.queues.listOfPacketMatrix c' := fun c' => Function.update_apply _ _ _ _
  have hlist : ∀ c', ∀ p ∈ r.queues.listOfPacketMatrix c', p ∈ r.dispatched := by
    intro c' p hp
    rw [← h.filed.cell c' p hp] at hp
    exact ((h.mem p).mp hp).1
  -- numbers, couples, axis, filing, order, members, sent packets, due packets, length
  refine ⟨?_, ?_, ?_, ⟨?_, ?_⟩, ?_, ?_, h.nodup, ?_, ?_⟩
  · intro i p hp
    change (r.dispatched ++ [pkt])[i]? = some p at hp
    by_cases hi : i < r.dispatched.length
    · rw [List.getElem?_append_left hi] at hp
      exact h.ptr i p hp
    · rw [List.getElem?_append_right (Nat.not_lt.mp hi), List.getElem?_singleton] at hp
      split_ifs at hp with hzero
      cases hp
      show r.dispatched.length = i
      omega
  · intro p hp
    rcases List.mem_append.mp hp with hold | hlast
    · exact h.couple p hold
    · rw [List.mem_singleton.mp hlast]
      exact ⟨c, hc, hk⟩
  · show r.queues.timeAxis ++ [ts] = ((r.dispatched ++ [pkt]).drop r.processed).map _
    rw [List.drop_append_of_le_length h.processed, List.map_append, ← h.axis]
    rfl
  · intro c' p hp
    rw [hmatrix] at hp
    split_ifs at hp with heq
    · rcases List.mem_append.mp hp with hold | hlast
      · rw [heq]
        exact h.filed.cell k p hold
      · rw [List.mem_singleton.mp hlast, heq]
    · exact h.filed.cell c' p hp
  · intro c'
    rw [hmatrix]
    split_ifs with heq
    · refine List.pairwise_append.mpr ⟨h.filed.sorted k, List.pairwise_singleton _ _, ?_⟩
      intro p hp q hq
      rw [List.mem_singleton.mp hq]
      exact h.ptr_lt (hlist k p hp)
    · exact h.filed.sorted c'
  · intro p
    have hsent : pkt ∉ r.sent := fun hp => hnew (h.sent pkt hp)
    rw [hmatrix]
    show _ ↔ p ∈ r.dispatched ++ [pkt] ∧ p ∉ r.sent
    rw [List.mem_append, List.mem_singleton]
    split_ifs with heq
    · rw [← heq, List.mem_append, List.mem_singleton, h.mem p]
      constructor
      · rintro (⟨hold, hnot⟩ | rfl)
        · exact ⟨.inl hold, hnot⟩
        · exact ⟨.inr rfl, hsent⟩
      · rintro ⟨hold | rfl, hnot⟩
        · exact .inl ⟨hold, hnot⟩
        · exact .inr rfl
    · rw [h.mem p]
      refine and_congr_left fun _ => (or_iff_left ?_).symm
      rintro rfl
      exact heq rfl
  · exact fun p hp => List.mem_append_left _ (h.sent p hp)
  · intro p hp hlt
    rcases List.mem_append.mp hp with hold | hlast
    · exact h.due p hold hlt
    · rw [List.mem_singleton.mp hlast] at hlt
      exact absurd h.processed (Nat.not_le.mpr hlt)
  · show r.processed ≤ (r.dispatched ++ [pkt]).length
    rw [List.length_append]
    exact Nat.le_add_right_of_le h.processed

/-- A time stamp that is processed keeps the invariant. -/
theorem Inv.take {lAsCouples : List Couple} {r : PacketRun} (h : Inv lAsCouples r)
    {ts : TimeStamp} {rest : List TimeStamp} (haxis : r.queues.timeAxis = ts :: rest) :
    Inv lAsCouples (r.take (lAsCouples.filterMap Couple.cell) ts rest) := by
  rw [h.axis] at haxis
  have hlt : r.processed < r.dispatched.length := by
    by_contra hle
    rw [List.drop_eq_nil_of_le (Nat.not_lt.mp hle)] at haxis
    cases haxis
  -- the packet whose entry is taken
  obtain ⟨q, hq⟩ : ∃ q, r.dispatched[r.processed]? = some q :=
    ⟨_, List.getElem?_eq_getElem hlt⟩
  have hqptr := h.ptr r.processed q hq
  have hqmem := List.mem_of_getElem? hq
  obtain ⟨rfl, rfl⟩ : q.timeStamp = ts ∧
      (r.dispatched.drop (r.processed + 1)).map QueuedPacket.timeStamp = rest := by
    rw [List.drop_eq_getElem?_toList_append, hq] at haxis
    exact List.cons.inj haxis
  have hwaits : ∀ p, p ∈ r.queues.listOfPacketMatrix q.cell → q.ptr ≤ p.ptr := by
    intro p hp
    rw [← h.filed.cell q.cell p hp] at hp
    obtain ⟨hmem, hnot⟩ := (h.mem p).mp hp
    rw [hqptr]
    exact Nat.not_lt.mp fun hptr => hnot (h.due p hmem hptr)
  obtain ⟨hdivided, hleaves⟩ :=
    updateCells_spec h.filed (List.mem_filterMap.mpr (h.couple q hqmem)) hwaits
  have hfiled := hdivided.filed h.filed
  refine ⟨h.ptr, h.couple, rfl, hfiled, ?_, ?_, ?_, ?_, hlt⟩
  · intro p
    show _ ↔ p ∈ r.dispatched ∧ p ∉ r.sent ++ _
    rw [List.mem_append, not_or]
    constructor
    · intro hp
      obtain ⟨hmem, hnot⟩ := (h.mem p).mp ((hdivided.sublist _).subset hp)
      exact ⟨hmem, hnot, fun hdue => (hdivided.due p hdue).2 hp⟩
    · rintro ⟨hmem, hnot, hdue⟩
      exact (hdivided.mem p ((h.mem p).mpr ⟨hmem, hnot⟩)).resolve_right hdue
  · intro p hp
    rcases List.mem_append.mp hp with hold | hdue
    · exact h.sent p hold
    · exact ((h.mem p).mp (hdivided.due p hdue).1).1
  · refine List.nodup_append'.mpr ⟨h.nodup, hdivided.nodup, fun p hold hdue => ?_⟩
    exact ((h.mem p).mp (hdivided.due p hdue).1).2 hold
  · intro p hp hptr
    rcases Nat.lt_succ_iff_lt_or_eq.mp hptr with hold | heq
    · exact List.mem_append_left _ (h.due p hp hold)
    · obtain ⟨i, hi⟩ := List.mem_iff_getElem?.mp hp
      obtain rfl : i = r.processed := (h.ptr i p hi).symm.trans heq
      obtain rfl : q = p := Option.some.inj (hq.symm.trans hi)
      by_cases hsent : q ∈ r.sent
      · exact List.mem_append_left _ hsent
      · exact List.mem_append_right _
          ((hdivided.mem q ((h.mem q).mpr ⟨hp, hsent⟩)).resolve_left hleaves)

/-- Behind an entry of the axis there is a packet, and with it a couple. -/
theorem Inv.couples_ne_nil {lAsCouples : List Couple} {r : PacketRun} (h : Inv lAsCouples r)
    {ts : TimeStamp} {rest : List TimeStamp} (haxis : r.queues.timeAxis = ts :: rest) :
    lAsCouples ≠ [] := by
  rintro rfl
  have hnone : r.dispatched = [] := by
    refine List.eq_nil_iff_forall_not_mem.mpr fun p hp => ?_
    obtain ⟨c, hc, -⟩ := h.couple p hp
    exact List.not_mem_nil hc
  rw [h.axis, hnone, List.drop_nil] at haxis
  cases haxis

/-- The invariant holds in every reachable state. -/
theorem Reachable.inv {lAsCouples : List Couple} {r : PacketRun} (h : Reachable lAsCouples r) :
    Inv lAsCouples r := by
  induction h with
  | start => exact inv_start lAsCouples
  | dispatch _ hc hr ih =>
    rw [dispatch_eq] at hr
    obtain ⟨k, hk, rfl⟩ := Option.map_eq_some_iff.mp hr
    exact ih.enqueue _ hc hk
  | process _ haxis hr ih =>
    obtain rfl := eq_of_process (ih.couples_ne_nil haxis) hr
    exact ih.take haxis

/-- What has been sent in a run: no packet twice, only packets that have been dispatched, and each
of these when its own entry of the axis has been processed. When all entries have, the lists are
empty and what has been sent is what has been dispatched. -/
structure SentOnce (r : PacketRun) : Prop where
  dispatched : r.dispatched.Nodup
  sent : r.sent.Nodup
  mem : ∀ p ∈ r.sent, p ∈ r.dispatched
  length : r.processed + r.queues.timeAxis.length = r.dispatched.length
  due : ∀ (i : ℕ) (p : QueuedPacket), i < r.processed → r.dispatched[i]? = some p → p ∈ r.sent
  empty : r.queues.timeAxis = [] →
    (∀ k, r.queues.listOfPacketMatrix k = []) ∧ r.sent.Perm r.dispatched

/-- Packets are sent once, and neither the loader nor the sender leaves the matrix with its next
step. -/
structure Safe (lAsCouples : List Couple) (r : PacketRun) : Prop where
  sentOnce : SentOnce r
  dispatch : ∀ (ts : TimeStamp), ∀ c ∈ lAsCouples, (r.dispatch ts c).isSome
  process : ∀ (ts : TimeStamp) (rest : List TimeStamp), r.queues.timeAxis = ts :: rest →
    (r.process lAsCouples ts rest).isSome

/-- The invariant says that every packet is sent once at most, and all of them in the end. -/
theorem Inv.sentOnce {lAsCouples : List Couple} {r : PacketRun} (h : Inv lAsCouples r) :
    SentOnce r := by
  -- a packet is found at its own number only
  have hnodup : r.dispatched.Nodup := by
    rw [List.nodup_iff_getElem?_ne_getElem?]
    intro i j hij hj heq
    have hp := List.getElem?_eq_getElem hj
    exact absurd ((h.ptr i _ (heq.trans hp)).symm.trans (h.ptr j _ hp)) (Nat.ne_of_lt hij)
  have hlength : r.processed + r.queues.timeAxis.length = r.dispatched.length := by
    rw [h.axis, List.length_map, List.length_drop]
    exact Nat.add_sub_cancel' h.processed
  refine ⟨hnodup, h.nodup, h.sent, hlength, fun i p hi hp => ?_, fun hempty => ?_⟩
  · refine h.due p (List.mem_of_getElem? hp) ?_
    rw [h.ptr i p hp]
    exact hi
  · rw [hempty, List.length_nil, Nat.add_zero] at hlength
    -- with an empty axis every entry has been processed
    have hall : ∀ p ∈ r.dispatched, p ∈ r.sent := by
      intro p hp
      refine h.due p hp ?_
      rw [hlength]
      exact h.ptr_lt hp
    constructor
    · intro k
      refine List.eq_nil_iff_forall_not_mem.mpr fun p hp => ?_
      rw [← h.filed.cell k p hp] at hp
      obtain ⟨hmem, hnot⟩ := (h.mem p).mp hp
      exact hnot (hall p hmem)
    · exact (List.perm_ext_iff_of_nodup h.nodup hnodup).mpr fun p => ⟨h.sent p, hall p⟩

/-- When all couples have their lists, the steps stay inside the matrix. -/
theorem Inv.insideMatrix {lAsCouples : List Couple} {r : PacketRun} (h : Inv lAsCouples r)
    (hl : ∀ c ∈ lAsCouples, c.cell.isSome) : Safe lAsCouples r := by
  refine ⟨h.sentOnce, fun ts c hc => ?_, fun ts rest haxis => ?_⟩
  · rw [dispatch_eq, Option.isSome_map]
    exact hl c hc
  · rw [PacketRun.process, updateTheListOfPacketsToSend, if_neg (h.couples_ne_nil haxis)]
    obtain ⟨due, hdue⟩ := exists_foldlM_updateCouple ts hl
      { r.queues with pListOfPacketToSend := [] }
    rw [hdue]
    rfl

/-- **Every queued packet is sent exactly once**, and no list outside of the matrix is used, in all
runs of loader and sender, exactly when the AS numbers of all couples are indices of the matrix. -/
theorem sends_once_iff (lAsCouples : List Couple) :
    (∀ r, Reachable lAsCouples r → Safe lAsCouples r) ↔
      ∀ c ∈ lAsCouples, (0 ≤ c.asSource ∧ c.asSource < 40) ∧ 0 ≤ c.asDest ∧ c.asDest < 40 := by
  simp only [← Couple.isSome_cell]
  constructor
  · intro h c hc
    have hfirst := (h {} .start).dispatch ⟨0, 0⟩ c hc
    rwa [dispatch_eq, Option.isSome_map] at hfirst
  · intro h r hr
    exact hr.inv.insideMatrix h

/-- The couples of a topology, `AddEdgeAS`. -/
def couplesOf (numberOfAs : ℕ) : List Couple :=
  (List.range' 1 numberOfAs).flatMap fun i : ℕ =>
    (List.range' 1 numberOfAs).map fun j : ℕ => ⟨i, j⟩

/-- With 40 ASs, the first packet from the last of them is put behind the matrix. -/
theorem sends_outside_matrix :
    ({} : PacketRun).dispatch ⟨0, 0⟩ ⟨40, 1⟩ = none ∧
      ¬∀ r, Reachable (couplesOf 40) r → Safe (couplesOf 40) r := by
  have hnone : ({} : PacketRun).dispatch ⟨0, 0⟩ ⟨40, 1⟩ = none := by decide
  have hcouple : (⟨40, 1⟩ : Couple) ∈ couplesOf 40 :=
    List.mem_flatMap.mpr ⟨40, by decide, List.mem_map.mpr ⟨1, by decide, rfl⟩⟩
  refine ⟨hnone, fun h => ?_⟩
  have hsome := (h {} .start).dispatch ⟨0, 0⟩ ⟨40, 1⟩ hcouple
  rw [hnone] at hsome
  cases hsome

/-- Packets of two couples, out of order and with a time stamp twice: the last one is sent before
its own entry. -/
example :
    (do
      let r ← ({} : PacketRun).dispatch ⟨5, 0⟩ ⟨1, 2⟩
      let r ← r.dispatch ⟨3, 0⟩ ⟨1, 2⟩
      let r ← r.process (couplesOf 2) ⟨5, 0⟩ [⟨3, 0⟩]
      let r ← r.dispatch ⟨3, 0⟩ ⟨2, 1⟩
      let r ← r.process (couplesOf 2) ⟨3, 0⟩ [⟨3, 0⟩]
      return (r.sent.map QueuedPacket.ptr, r.queues.timeAxis)) = some ([0, 1, 2], [⟨3, 0⟩]) := by
  decide

end PacketRun

end Nsp
