import Mathlib.Logic.Relation
import NetworkMonitoring.Softflowd.Pointers
import NetworkMonitoring.Softflowd.Runs

/-!
# softflowd — calls with every outcome

`Reachable` has the runs in which nothing fails. The runs here take every call that returns: an
allocation may fail, a message may be bad, and an array may not grow. The flow table and the expiry
tree then need not agree, but the pointers of the expiry events stay right (`PointerInv`).

What a packet or a message does to the two trees is a sequence of a few kinds of steps, `TableStep`.
None of them removes an event, and none gives an event another key that waits with the key 0.

## Main results

* `processPacket_steps` and `EmulatorStep.steps`: packets and messages take these steps;
* `CallReachable.pointerInv`: the pointers are right in every state a run comes to.
-/

namespace Softflowd

open Bytes ErrorLoops OrderedSet

/-! ## Steps -/

/-- What a packet or a message does to the trees. -/
inductive TableStep : FlowTrack → FlowTrack → Prop where
  /-- The counters of the table and of its flows change. -/
  | update {ft ft' : FlowTrack} : ft'.flows.map Flow.ident = ft.flows.map Flow.ident →
      ft'.expiries = ft.expiries → ft'.nextPtr = ft.nextPtr → TableStep ft ft'
  /-- A flow is created, with or without an event. -/
  | create {ft ft' : FlowTrack} {f : Flow} : ft'.nextPtr = ft.nextPtr + 2 →
      ft'.flows.Perm (f :: ft.flows) → f.ptr = ft.nextPtr →
      (∀ g ∈ ft.flows, flowCompare f g ≠ .eq) →
      ft'.expiries.Perm (ft.createdExpiry :: ft.expiries) ∨ ft'.expiries = ft.expiries →
      TableStep ft ft'
  /-- An event that does not wait for the next scan gets another key. -/
  | reschedule {ft : FlowTrack} {e : Expiry} (t : UInt32) (r : Reason) : e ∈ ft.expiries →
      e.expiresAt ≠ 0 → TableStep ft (ft.rekey e t r)

/-- A sequence of steps. -/
abbrev TableSteps : FlowTrack → FlowTrack → Prop := Relation.ReflTransGen TableStep

theorem TableSteps.update {ft ft' : FlowTrack} (hf : ft'.flows = ft.flows)
    (he : ft'.expiries = ft.expiries) (hp : ft'.nextPtr = ft.nextPtr) : TableSteps ft ft' :=
  .single (.update (congrArg _ hf) he hp)

theorem TableSteps.of_table {ft ft' : FlowTrack} (heq : ft'.table = ft.table) :
    TableSteps ft ft' := by
  simp only [FlowTrack.table, Prod.mk.injEq] at heq
  exact .update heq.1 heq.2.1 heq.2.2.2.2

/-- Creating a flow, whichever allocation fails. -/
theorem createFlow_steps {ft : FlowTrack} (tmp : Flow) (alloc : Alloc)
    (hkey : ∀ f ∈ ft.flows, flowCompare tmp f ≠ .eq) :
    TableSteps ft (ft.createFlow tmp alloc).1 := by
  unfold FlowTrack.createFlow
  split
  · exact .refl
  · split
    · refine .single (.create rfl (insert_perm hkey) rfl hkey (.inr rfl))
    · exact .single (.create rfl (insert_perm hkey) rfl hkey (insert_perm_or_eq _ _ _))

/-- `flow_update_expiry`, when the event it finds does not wait for the next scan. -/
theorem flowUpdateExpiry_step {ft ft' : FlowTrack} {p : ℕ} {e : Expiry}
    (hfind : (ft.flowAt p).bind ft.expiryOf = some e) (h0 : e.expiresAt ≠ 0)
    (hupd : ft.flowUpdateExpiry p = .ok ft') : TableStep ft ft' := by
  obtain ⟨f, hat, hof⟩ := Option.bind_eq_some_iff.mp hfind
  obtain ⟨f', e', hat', hof', rfl⟩ := FlowTrack.flowUpdateExpiry_eq_ok.mp hupd
  obtain rfl := Option.some.inj (hat.symm.trans hat')
  obtain rfl := Option.some.inj (hof.symm.trans hof')
  exact .reschedule _ _ (FlowTrack.mem_of_expiryOf hof) h0

/-- Writing to a flow does not touch its identity. -/
theorem modifyFlow_steps {ft : FlowTrack} {p : ℕ} {g : Flow → Flow}
    (hg : ∀ f ∈ ft.flows, f.ptr = p → (g f).ident = f.ident) : TableSteps ft (ft.modifyFlow p g) := by
  refine .single (.update ?_ rfl rfl)
  rw [FlowTrack.modifyFlow, List.map_map]
  refine List.map_congr_left fun f hf => ?_
  by_cases hp : f.ptr = p
  · simpa [hp] using hg f hf hp
  · simp [hp]

/-- The end of `process_packet`. -/
theorem touchFlow_steps {ft ft' : FlowTrack} {p : ℕ} {received : Timeval}
    (htouch : ft.touchFlow p received = .ok ft') : TableSteps ft ft' := by
  have hlast : TableSteps ft (ft.modifyFlow p fun f => { f with flowLast := received }) :=
    modifyFlow_steps fun _ _ _ => rfl
  unfold FlowTrack.touchFlow at htouch
  dsimp only at htouch
  split at htouch
  · cases htouch
  · rename_i e hfind
    split at htouch
    · rename_i h0
      exact hlast.tail (flowUpdateExpiry_step hfind h0 htouch)
    · exact Except.ok.inj htouch ▸ hlast

/-- Filing a record. -/
theorem fileRecord_steps {ft ft' : FlowTrack} {tmp : Flow} {alloc : Alloc} {received : Timeval}
    {r : PpResult} (hfile : ft.fileRecord tmp alloc received = .ok (r, ft')) :
    TableSteps ft ft' := by
  unfold FlowTrack.fileRecord at hfile
  split at hfile
  · rename_i hfind
    have hcreate := createFlow_steps { tmp with flowStart := received } alloc
      (find_eq_none hfind)
    split at hfile
    · rename_i ft₁ heq
      rw [heq] at hcreate
      exact (Prod.mk.inj (Except.ok.inj hfile)).2 ▸ hcreate
    · rename_i ft₁ p heq
      rw [heq] at hcreate
      obtain ⟨ft₂, htouch, hret⟩ := bind_eq_ok.mp hfile
      obtain rfl := (Prod.mk.inj (Except.ok.inj hret)).2
      exact hcreate.trans (touchFlow_steps htouch)
  · rename_i flow hfind
    obtain ⟨ft₂, htouch, hret⟩ := bind_eq_ok.mp hfile
    obtain rfl := (Prod.mk.inj (Except.ok.inj hret)).2
    have hadd : TableSteps ft (ft.modifyFlow flow.ptr (FlowTrack.addRecord tmp)) :=
      modifyFlow_steps fun _ _ _ => rfl
    exact hadd.trans (touchFlow_steps htouch)

/-- `process_packet`. -/
theorem processPacket_steps {ft ft' : FlowTrack} {alloc : Alloc} {m : Mem} {af : ℤ}
    {caplen len : UInt32} {received : Timeval} {r : PpResult}
    (hcall : ft.processPacket alloc m af caplen len received = .ok (r, ft')) :
    TableSteps ft ft' := by
  unfold FlowTrack.processPacket at hcall
  dsimp only at hcall
  split at hcall
  · obtain rfl := (Prod.mk.inj (Except.ok.inj hcall)).2
    exact .update rfl rfl rfl
  · rename_i tmp frag hrec
    have hcount : TableSteps ft
        ({ ft with totalPackets := ft.totalPackets + 1 }.countFragment frag) := by
      unfold FlowTrack.countFragment
      split <;> exact .update rfl rfl rfl
    exact hcount.trans (fileRecord_steps hcall)

/-- Replacing a flow of the table by one with the same identity. -/
theorem PointerInv.replaceFlow_steps {ft : FlowTrack} {f f' : Flow} (h : PointerInv ft)
    (hf : f ∈ ft.flows) (hid : f'.ident = f.ident) :
    TableSteps ft (ft.modifyFlow f.ptr fun _ => f') :=
  modifyFlow_steps fun _ hg hptr => h.eq_of_ptr hg hf hptr ▸ hid

/-- The flow that stands at an address after it has been replaced. -/
theorem FlowTrack.flowAt_modifyFlow {ft : FlowTrack} {f f' : Flow} (hf : f ∈ ft.flows)
    (hptr : f'.ptr = f.ptr) : (ft.modifyFlow f.ptr fun _ => f').flowAt f.ptr = some f' := by
  unfold FlowTrack.flowAt FlowTrack.modifyFlow
  rw [List.find?_map]
  -- what the search finds has the address, so it has been replaced
  have hpred : ∀ x, ((fun g : Flow => g.ptr == f.ptr) ∘ fun g => if g.ptr = f.ptr then f' else g) x =
      (x.ptr == f.ptr) := by
    intro x
    by_cases hx : x.ptr = f.ptr
    · simp [hx, hptr]
    · simp [hx]
  rw [funext hpred]
  cases hat : ft.flows.find? fun x => x.ptr == f.ptr with
  | none => exact absurd (List.find?_eq_none.mp hat f hf) (by simp)
  | some g =>
    have hg : g.ptr = f.ptr := by simpa using List.find?_some hat
    simp [hg]

/-- A message, with any result. -/
theorem EmulatorStep.steps {s s' : Tracker} {c : EmulatorCall} {r : PpResult}
    (hstep : EmulatorStep s c r s') (h : PointerInv s.ft) : TableSteps s.ft s'.ft := by
  have hcounted : ∀ frag, TableSteps s.ft (s.ft.counted frag) := fun frag =>
    .of_table (s.ft.table_counted frag)
  have hinv : ∀ frag, PointerInv (s.ft.counted frag) := fun frag =>
    h.of_table (s.ft.table_counted frag)
  cases hstep with
  | badRecord => exact .update rfl rfl rfl
  | noMemory _ hfind hcreate =>
    have hnew := createFlow_steps (Flow.stamp _ c.received) c.alloc (find_eq_none hfind)
    rw [hcreate] at hnew
    exact (hcounted _).trans hnew
  | createdBad _ hfind hcreate =>
    have hnew := createFlow_steps (Flow.stamp _ c.received) c.alloc (find_eq_none hfind)
    rw [hcreate] at hnew
    exact (hcounted _).trans hnew
  | @created _ _ ndx _ p _ a _ _ hfind hcreate =>
    have hnew := createFlow_steps (Flow.stamp _ c.received) c.alloc (find_eq_none hfind)
    rw [hcreate] at hnew
    exact ((hcounted _).trans hnew).trans (modifyFlow_steps fun _ _ _ => rfl)
  | ignored => exact hcounted _
  | updatedBad => exact hcounted _
  | updatedBadMonitor => exact hcounted _
  | @updatedBadMark _ frag _ flow _ _ _ flow' _ hfind _ _ _ hcount =>
    obtain ⟨hflow, -⟩ := find_eq_some hfind
    exact (hcounted frag).trans
      ((hinv frag).replaceFlow_steps hflow (ident_of_countMonitor hcount))
  | @updated tmp frag ndx flow e _ _ _ flow' last ft _ hfind hof h0 _ _ _ hcount _ _ hupd =>
    obtain ⟨hflow, -⟩ := find_eq_some hfind
    have hid := (c.ident_settle last ((s.ft.counted frag).maskRecord tmp) ndx flow').trans
      (ident_of_countMonitor hcount)
    have hsettle := (hinv frag).replaceFlow_steps hflow hid
    set ft₁ := (s.ft.counted frag).modifyFlow flow.ptr fun _ =>
      c.settle last ((s.ft.counted frag).maskRecord tmp) ndx flow' with hft₁
    -- the flow keeps its event, which does not wait for the next scan
    have hat : (ft₁.flowAt flow.ptr).bind ft₁.expiryOf = some e := by
      rw [hft₁, FlowTrack.flowAt_modifyFlow hflow (congrArg Prod.fst hid), Option.bind_some]
      unfold FlowTrack.expiryOf
      rw [show (c.settle last _ ndx flow').expiry = flow.expiry from
        congrArg (fun x => x.2.1) hid]
      exact hof
    exact ((hcounted frag).trans hsettle).tail (flowUpdateExpiry_step hat h0 hupd)

/-! ## The pointers stay right -/

namespace PointerInv

variable {n : ℕ} {ft ft' : FlowTrack} {e : Expiry}

theorem step (h : PointerInv ft) (hstep : TableStep ft ft') : PointerInv ft' := by
  cases hstep with
  | update hf he hp => exact h.of_ident hf he hp
  | create hnext hperm hptr hkey hexp => exact h.insert hnext hperm hptr hkey hexp
  | reschedule t r he _ => exact h.rekey he t r

theorem steps (h : PointerInv ft) (hsteps : TableSteps ft ft') : PointerInv ft' := by
  induction hsteps with
  | refl => exact h
  | tail _ hstep ih => exact ih.step hstep

theorem flowUpdateExpiry {p : ℕ} (h : PointerInv ft) (hupd : ft.flowUpdateExpiry p = .ok ft') :
    PointerInv ft' := by
  obtain ⟨_, _, -, hof, rfl⟩ := FlowTrack.flowUpdateExpiry_eq_ok.mp hupd
  exact h.rekey (FlowTrack.mem_of_expiryOf hof) _ _

/-- The second loop of `force_expire`: the events are as the first loop has listed them. -/
theorem foldl_rekey (es : List Expiry) {ft : FlowTrack} (h : PointerInv ft)
    (hflow : ∀ e ∈ es, e.flow ∈ ft.flows.map Flow.ptr) (hptr : ∀ e ∈ es, e.ptr < ft.nextPtr)
    (hone : ∀ e ∈ es, ∀ x ∈ ft.expiries, x.flow = e.flow → x.ptr = e.ptr)
    (hown : ∀ e ∈ es, ∀ x ∈ es, x.flow = e.flow → x.ptr = e.ptr) :
    PointerInv (es.foldl (fun ft e => ft.rekey e 0 .overflows) ft) := by
  induction es generalizing ft with
  | nil => exact h
  | cons e es ih =>
    have hmem : ∀ x ∈ es, x ∈ e :: es := fun x hx => List.mem_cons_of_mem e hx
    have he : e ∈ e :: es := List.mem_cons_self
    refine ih (h.reinsert (hflow e he) (hptr e he) (hone e he) 0 .overflows)
      (fun x hx => hflow x (hmem x hx)) (fun x hx => hptr x (hmem x hx)) (fun x hx y hy => ?_)
      fun x hx y hy => hown x (hmem x hx) y (hmem y hy)
    -- an event of the tree is the one put in, or was there before
    have hy' : y ∈ ft.expiries ∨ y = { e with expiresAt := 0, reason := .overflows } := by
      rcases mem_of_mem_insert hy with heq | hin
      · exact .inr heq
      · exact .inl (List.mem_of_mem_filter hin)
    rcases hy' with hy' | rfl
    · exact hone x (hmem x hx) y hy'
    · exact hown x (hmem x hx) e he

theorem forceExpire (h : PointerInv ft) (callocOk : Bool) (num : UInt32) :
    PointerInv (ft.forceExpire callocOk num) := by
  have heq : ∀ e ∈ ft.expiries, ∀ x ∈ ft.expiries, x.flow = e.flow → x.ptr = e.ptr :=
    fun e he x hx hflow => by rw [List.inj_on_of_nodup_map h.nodup_flow hx he hflow]
  cases callocOk with
  | true =>
    have htake : ∀ e ∈ ft.expiries.take num.toNat, e ∈ ft.expiries := fun _ =>
      List.mem_of_mem_take
    have hfold := h.foldl_rekey (ft.expiries.take num.toNat)
      (fun e he => h.flow_mem e (htake e he)) (fun e he => h.expiry_lt e (htake e he))
      (fun e he => heq e (htake e he)) fun e he x hx => heq e (htake e he) x (htake x hx)
    exact hfold.of_table rfl
  | false =>
    have hptrs : (ft.forceExpire false num).expiries.map Expiry.ptr = ft.expiries.map Expiry.ptr :=
      List.map_map ..
    have hflows : (ft.forceExpire false num).expiries.map Expiry.flow =
        ft.expiries.map Expiry.flow := List.map_map ..
    refine ⟨h.nodup_key, h.nodup_ptr, hptrs ▸ h.nodup_expiry, hflows ▸ h.nodup_flow, ?_, h.ptr_lt,
      ?_⟩
    · intro e he
      obtain ⟨x, hx, rfl⟩ := List.mem_map.mp he
      exact h.flow_mem x hx
    · intro e he
      obtain ⟨x, hx, rfl⟩ := List.mem_map.mp he
      exact h.expiry_lt x hx

/-- The scan can take out the flow of every event. -/
theorem expireFlow_perm (h : PointerInv ft) (he : e ∈ ft.expiries) (ex : ExpireMode) :
    ∃ f ∈ ft.flows, ft.flowAt e.flow = some f ∧ PointerInv (ft.expireFlow f e ex) ∧
      ft.flows.Perm (f :: (ft.expireFlow f e ex).flows) := by
  obtain ⟨f, hf, -, hat, h'⟩ := h.expireFlow he ex
  exact ⟨f, hf, hat, h', perm_cons_filter_ne h.nodup_ptr hf⟩

theorem checkExpired {c : ExpiryCall} {s s' : Daemon} {r : ℤ} (h : PointerInv s.tracker.ft)
    (hcall : Softflowd.checkExpired c s = .ok (r, s')) : PointerInv s'.tracker.ft := by
  obtain ⟨ft, expired, hscan, htable⟩ := checkExpired_table hcall
  obtain ⟨ft', -, kept, hscan', h', -⟩ :=
    scanExpired_spec (P := PointerInv) c.now c.ex c.reallocOk (fun _ h => h.nodup_expiry)
      (fun _ _ h he => h.expireFlow_perm he c.ex) h
  obtain ⟨rfl, -⟩ := Prod.mk.inj (Except.ok.inj (hscan.symm.trans hscan'))
  exact h'.of_table htable

end PointerInv

/-! ## Runs -/

/-- A packet, a message or a scan. -/
inductive PacketCall : Daemon → Daemon → Prop where
  | processPacket {s : Daemon} {r : PpResult} {ft : FlowTrack} (alloc : Alloc) (m : Mem) (af : ℤ)
      (caplen len : UInt32) (received : Timeval) :
      s.tracker.ft.processPacket alloc m af caplen len received = .ok (r, ft) →
      PacketCall s { s with tracker := { s.tracker with ft := ft } }
  | processEmulatorPacket {s : Daemon} {r : PpResult} {t : Tracker} (c : EmulatorCall) :
      processEmulatorPacket s.tracker c = .ok (r, t) → PacketCall s { s with tracker := t }
  | checkExpired {s s' : Daemon} {r : ℤ} (c : ExpiryCall) :
      checkExpired c s = .ok (r, s') → PacketCall s s'

/-- A call that works on the flow table and does not delete it. -/
inductive Call : Daemon → Daemon → Prop where
  | packet {s s' : Daemon} : PacketCall s s' → Call s s'
  | flowUpdateExpiry {s : Daemon} {ft : FlowTrack} (p : ℕ) :
      s.tracker.ft.flowUpdateExpiry p = .ok ft →
      Call s { s with tracker := { s.tracker with ft := ft } }
  | forceExpire {s : Daemon} (callocOk : Bool) (num : UInt32) :
      Call s { s with tracker := { s.tracker with ft := s.tracker.ft.forceExpire callocOk num } }

/-- The states that such calls lead to. -/
inductive CallReachable : Daemon → Prop where
  | init {s : Daemon} : s.Initial → CallReachable s
  | call {s s' : Daemon} : CallReachable s → Call s s' → CallReachable s'

theorem PacketCall.pointerInv {s s' : Daemon} (hcall : PacketCall s s')
    (h : PointerInv s.tracker.ft) : PointerInv s'.tracker.ft := by
  cases hcall with
  | processPacket _ _ _ _ _ _ hret => exact h.steps (processPacket_steps hret)
  | processEmulatorPacket _ hret => exact h.steps ((processEmulatorPacket_step hret).steps h)
  | checkExpired _ hret => exact h.checkExpired hret

theorem Call.pointerInv {s s' : Daemon} (hcall : Call s s') (h : PointerInv s.tracker.ft) :
    PointerInv s'.tracker.ft := by
  cases hcall with
  | packet hcall => exact hcall.pointerInv h
  | flowUpdateExpiry _ hret => exact h.flowUpdateExpiry hret
  | forceExpire callocOk num => exact h.forceExpire callocOk num

/-- Wherever the calls lead to, the pointers of the events are right. -/
theorem CallReachable.pointerInv {s : Daemon} (h : CallReachable s) : PointerInv s.tracker.ft := by
  induction h with
  | init h => exact .empty h.flows_eq h.expiries_eq
  | call _ hcall ih => exact hcall.pointerInv ih

theorem CallReachable.messages {s : Daemon} {t : Tracker} (h : CallReachable s)
    (cs : List EmulatorCall) (hrun : runOk s.tracker cs = some t) :
    CallReachable { s with tracker := t } := by
  induction cs generalizing s with
  | nil =>
    obtain rfl : s.tracker = t := Option.some.inj hrun
    exact h
  | cons c cs ih =>
    obtain ⟨t₁, hc, hcs⟩ := runOk_cons.mp hrun
    have hcall : Call s { s with tracker := t₁ } :=
      .packet (.processEmulatorPacket c (okStep_eq_some.mp hc))
    have hrest := ih (h.call hcall) hcs
    exact hrest

end Softflowd
