import NetworkMonitoring.Flowd.TemplateStore

/-!
# flowd — the uses of templates by a datagram

A template of a peer is used when it is defined, when it is defined again, and when a data flowset
is decoded with it. `packetUses` lists the uses that a call of `process_netflow_v9` makes, in their
order, up to where the call ends.

## Main results

* `processNetflowV9_uses`: what a call does to the store is what its uses do, one after the other.
-/

namespace Flowd

open Bytes ErrorLoops

/-- A use of a template. -/
inductive Use where
  /-- The template is defined, or defined again. -/
  | define (sourceId : UInt32) (templateId : UInt16) (records : List PeerNf9Record)
    (totalLen : ℕ)
  /-- A data flowset is decoded with it. -/
  | data (sourceId : UInt32) (templateId : UInt16)
  deriving DecidableEq, Repr

namespace Use

/-- The source and the template. -/
def key : Use → UInt32 × UInt16
  | .define sourceId templateId _ _ => (sourceId, templateId)
  | .data sourceId templateId => (sourceId, templateId)

/-- What a use does to the store of the peer. -/
def apply (limits : PeerLimits) (peer : PeerState) : Use → Except Fault PeerState
  | .define sourceId templateId records totalLen =>
    peer.register limits sourceId templateId records totalLen
  | .data _ _ => .ok peer

end Use

/-- The store behind a list of uses. -/
def applyUses (limits : PeerLimits) (uses : List Use) (peer : PeerState) : Except Fault PeerState :=
  uses.foldlM (Use.apply limits) peer

/-! ## The uses of a datagram -/

/-- The templates that `templateLoop` registers. -/
def templateUses (limits : PeerLimits) (sourceId : UInt32) (pkt : List UInt8) (len : ℕ) :
    ℕ → ℕ → List Use
  | 0, _ => []
  | fuel + 1, offset =>
    if offset ≥ len then []
    else
      match fetchNtohs pkt offset, fetchNtohs pkt (offset + 2) with
      | .ok templateId, .ok count =>
        match templateRecords limits pkt len count.toNat (offset + 4) [] 0 with
        | .ok (some (recs, totalSize, offset)) =>
          .define sourceId templateId recs totalSize ::
            templateUses limits sourceId pkt len fuel offset
        | _ => []
      | _, _ => []

/-- The template that `process_netflow_v9_data` decodes records with. -/
def dataUses (fp : FlowPacket) (hdr : Nf9Header) (sourceId : UInt32) (pkt : List UInt8) (len : ℕ)
    (peer : PeerState) : List Use :=
  match fetchNtohs pkt 0, processNetflowV9Data fp hdr sourceId pkt len peer with
  | .ok templateId, .ok res => if res.flows = [] then [] else [.data sourceId templateId]
  | _, _ => []

/-- The uses of a flowset. -/
def flowsetUses (limits : PeerLimits) (fp : FlowPacket) (hdr : Nf9Header) (sourceId : UInt32)
    (flowsetId : UInt16) (pkt : List UInt8) (len : ℕ) (peer : PeerState) : List Use :=
  if flowsetId = 0 then
    if len < 4 ∨ fetchNtohs pkt 0 ≠ .ok 0 then [] else templateUses limits sourceId pkt len len 4
  else if flowsetId < nf9MinRecordFlowsetId then []
  else dataUses fp hdr sourceId pkt len peer

/-- The uses of the flowsets that `flowsetLoop` comes to. -/
def loopUses (mem : Memory) (limits : PeerLimits) (fp : FlowPacket) (hdr : Nf9Header)
    (sourceId : UInt32) : ℕ → ℕ → FlowsetResult → List Use
  | 0, _, _ => []
  | fuel + 1, offset, res =>
    if offset ≥ fp.packet.length then []
    else
      match fetchNtohs (mem.packet fp) offset, fetchNtohs (mem.packet fp) (offset + 2) with
      | .ok flowsetId, .ok flowsetLen =>
        let len := flowsetLen.toNat
        if offset + len > fp.packet.length then []
        else
          let pkt := mem.flowset fp offset len
          let uses := flowsetUses limits fp hdr sourceId flowsetId pkt len res.peer
          match processFlowset limits fp hdr sourceId flowsetId pkt len res.peer with
          | .error _ => uses
          | .ok next =>
            if !next.proceed ∨ offset + len = fp.packet.length then uses
            else
              uses ++ loopUses mem limits fp hdr sourceId fuel (offset + len)
                { next with flows := res.flows ++ next.flows }
      | _, _ => []

/-- The uses of a datagram. -/
def packetUses (mem : Memory) (limits : PeerLimits) (fuel : ℕ) (fp : FlowPacket)
    (peer : PeerState) : List Use :=
  if fp.packet.length < 20 then []
  else
    let hdr := (readNf9Header.run fp.packet).1
    loopUses mem limits fp hdr (htonl hdr.sourceId) fuel 20 { peer := peer, proceed := true }

/-! ## What the uses do -/

/-- The stores of the peers are the same. -/
structure SameStore (peer peer' : PeerState) : Prop where
  nf9 : peer'.nf9 = peer.nf9
  num : peer'.nf9NumSources = peer.nf9NumSources

/-- A peer has the templates that it has. -/
theorem SameStore.refl (peer : PeerState) : SameStore peer peer := ⟨rfl, rfl⟩

/-- Having the same templates is transitive. -/
theorem SameStore.trans {peer₁ peer₂ peer₃ : PeerState} (h : SameStore peer₁ peer₂)
    (h' : SameStore peer₂ peer₃) : SameStore peer₁ peer₃ := ⟨h'.nf9.trans h.nf9, h'.num.trans h.num⟩

/-- Having the same templates is symmetric. -/
theorem SameStore.symm {peer peer' : PeerState} (h : SameStore peer peer') :
    SameStore peer' peer := ⟨h.nf9.symm, h.num.symm⟩

variable {limits : PeerLimits} {peer peer' : PeerState}

/-- A new source is added alike. -/
theorem SameStore.newSource (h : SameStore peer peer') (sourceId : UInt32) {res : PeerState}
    (hres : peer.newSource limits sourceId = .ok res) :
    ∃ res', peer'.newSource limits sourceId = .ok res' ∧ SameStore res res' := by
  unfold PeerState.newSource at hres ⊢
  rw [h.nf9, h.num]
  split_ifs at hres ⊢ with hfull hnil
  · cases hres
    exact ⟨_, rfl, rfl, rfl⟩
  · cases hres
    exact ⟨_, rfl, rfl, rfl⟩

/-- A source is found or added alike. -/
theorem SameStore.ensureSource (h : SameStore peer peer') (sourceId : UInt32) {res : PeerState}
    (hres : peer.ensureSource limits sourceId = .ok res) :
    ∃ res', peer'.ensureSource limits sourceId = .ok res' ∧ SameStore res res' := by
  unfold PeerState.ensureSource PeerState.lookupSource at hres ⊢
  rw [h.nf9]
  split_ifs at hres ⊢ with hfound
  · cases hres
    exact ⟨peer', rfl, h⟩
  · exact h.newSource sourceId hres

/-- A new template is added alike. -/
theorem SameStore.newTemplate (h : SameStore peer peer') (sourceId : UInt32)
    (templateId : UInt16) {res : PeerState}
    (hres : peer.newTemplate limits sourceId templateId = .ok res) :
    ∃ res', peer'.newTemplate limits sourceId templateId = .ok res' ∧ SameStore res res' := by
  unfold PeerState.newTemplate at hres ⊢
  obtain ⟨peer₁, hsource, hres⟩ := bind_eq_ok.mp hres
  obtain ⟨peer₁', hsource', h₁⟩ := h.ensureSource sourceId hsource
  rw [hsource', ok_bind]
  unfold PeerState.lookupSource at hres ⊢
  rw [h₁.nf9]
  cases hlookup : peer₁.nf9.find? (·.sourceId == sourceId) with
  | none =>
    rw [hlookup] at hres
    cases hres
  | some nf9src =>
    rw [hlookup] at hres
    obtain ⟨nf9src', hnew, hres⟩ := bind_eq_ok.mp hres
    cases hres
    dsimp only
    rw [hnew, ok_bind]
    exact ⟨_, rfl, rfl, h₁.num⟩

/-- A template is registered alike. -/
theorem SameStore.register (h : SameStore peer peer') (sourceId : UInt32) (templateId : UInt16)
    (recs : List PeerNf9Record) (totalLen : ℕ) {res : PeerState}
    (hres : peer.register limits sourceId templateId recs totalLen = .ok res) :
    ∃ res', peer'.register limits sourceId templateId recs totalLen = .ok res' ∧
      SameStore res res' := by
  unfold PeerState.register at hres ⊢
  obtain ⟨peer₁, htemplate, hres⟩ := bind_eq_ok.mp hres
  obtain ⟨peer₁', htemplate', h₁⟩ : ∃ peer₁', peer'.ensureTemplate limits sourceId templateId =
      .ok peer₁' ∧ SameStore peer₁ peer₁' := by
    unfold PeerState.ensureTemplate PeerState.findTemplate PeerState.lookupSource at htemplate ⊢
    rw [h.nf9]
    split_ifs at htemplate ⊢ with hfound
    · cases htemplate
      exact ⟨peer', rfl, h⟩
    · exact h.newTemplate sourceId templateId htemplate
  cases hres
  refine ⟨peer₁'.fillTemplate sourceId templateId recs totalLen, ?_, ?_, h₁.num⟩
  · rw [htemplate', ok_bind]
    rfl
  · simp only [PeerState.fillTemplate, h₁.nf9]

/-- What uses do depends on the store only. -/
theorem SameStore.applyUses (h : SameStore peer peer') {uses : List Use} {res : PeerState}
    (hres : applyUses limits uses peer = .ok res) :
    ∃ res', Flowd.applyUses limits uses peer' = .ok res' ∧ SameStore res res' := by
  induction uses generalizing peer peer' with
  | nil =>
    cases hres
    exact ⟨peer', rfl, h⟩
  | cons u us ih =>
    obtain ⟨peer₁, hu, hus⟩ := foldlM_cons_ok.mp hres
    obtain ⟨peer₁', hu', h₁⟩ : ∃ peer₁', Use.apply limits peer' u = .ok peer₁' ∧
        SameStore peer₁ peer₁' := by
      cases u with
      | define sourceId templateId records totalLen =>
        exact h.register sourceId templateId records totalLen hu
      | data sourceId templateId =>
        cases hu
        exact ⟨peer', rfl, h⟩
    obtain ⟨res', hres', hsame⟩ := ih h₁ hus
    exact ⟨res', foldlM_cons_ok.mpr ⟨peer₁', hu', hres'⟩, hsame⟩

/-- The peer has the store that the uses make. -/
def MadeBy (limits : PeerLimits) (uses : List Use) (peer peer' : PeerState) : Prop :=
  ∃ peer₁, applyUses limits uses peer = .ok peer₁ ∧ SameStore peer₁ peer'

/-- No uses change nothing. -/
theorem MadeBy.nil (h : SameStore peer peer') : MadeBy limits [] peer peer' := ⟨peer, rfl, h⟩

/-- Uses one after the other. -/
theorem MadeBy.append {uses uses' : List Use} {peer'' : PeerState}
    (h : MadeBy limits uses peer peer') (h' : MadeBy limits uses' peer' peer'') :
    MadeBy limits (uses ++ uses') peer peer'' := by
  obtain ⟨peer₁, hpeer₁, hsame⟩ := h
  obtain ⟨peer₂, hpeer₂, hsame'⟩ := h'
  obtain ⟨peer₃, hpeer₃, hsame''⟩ := hsame.symm.applyUses hpeer₂
  refine ⟨peer₃, ?_, hsame''.symm.trans hsame'⟩
  rw [applyUses, List.foldlM_append]
  exact bind_eq_ok.mpr ⟨peer₁, hpeer₁, hpeer₃⟩

/-- The counters of packets do not belong to the store. -/
theorem MadeBy.same {uses : List Use} {peer'' : PeerState} (h : MadeBy limits uses peer peer')
    (hsame : SameStore peer' peer'') : MadeBy limits uses peer peer'' := by
  obtain ⟨peer₁, hpeer₁, hsame₁⟩ := h
  exact ⟨peer₁, hpeer₁, hsame₁.trans hsame⟩

/-- The uses of the loop over templates. -/
theorem templateLoop_uses {sourceId : UInt32} {pkt : List UInt8} {len fuel offset : ℕ}
    {res : FlowsetResult} (h : templateLoop limits sourceId pkt len fuel offset peer = .ok res) :
    MadeBy limits (templateUses limits sourceId pkt len fuel offset) peer res.peer := by
  induction fuel generalizing offset peer with
  | zero => cases h
  | succ fuel ih =>
    rw [templateLoop] at h
    rw [templateUses]
    split_ifs at h ⊢ with hend
    · cases h
      exact .nil (.refl _)
    · obtain ⟨templateId, hid, h⟩ := bind_eq_ok.mp h
      obtain ⟨count, hcount, h⟩ := bind_eq_ok.mp h
      obtain ⟨r, hrecords, h⟩ := bind_eq_ok.mp h
      simp only [hid, hcount, hrecords]
      cases r with
      | none =>
        cases h
        exact .nil ⟨rfl, rfl⟩
      | some x =>
        obtain ⟨recs, totalSize, offset'⟩ := x
        obtain ⟨peer₁, htemplate, h⟩ := bind_eq_ok.mp h
        -- the rest of the iteration is the registration of one template
        have hregister : peer.register limits sourceId templateId recs totalSize =
            .ok (peer₁.fillTemplate sourceId templateId recs totalSize) := by
          rw [PeerState.register, htemplate]
          rfl
        have hone : MadeBy limits [.define sourceId templateId recs totalSize] peer
            (peer₁.fillTemplate sourceId templateId recs totalSize) :=
          ⟨_, foldlM_cons_ok.mpr ⟨_, hregister, rfl⟩, .refl _⟩
        exact hone.append (ih h)

/-- Decoding leaves the store alone. -/
theorem applyUses_dataUses (limits : PeerLimits) (fp : FlowPacket) (hdr : Nf9Header)
    (sourceId : UInt32) (pkt : List UInt8) (len : ℕ) (peer : PeerState) :
    applyUses limits (dataUses fp hdr sourceId pkt len peer) peer = .ok peer := by
  unfold dataUses
  split
  · split_ifs <;> rfl
  · rfl

/-- A flowset does to the store what its uses do. -/
theorem processFlowset_uses {fp : FlowPacket} {hdr : Nf9Header} {sourceId : UInt32}
    {flowsetId : UInt16} {pkt : List UInt8} {len : ℕ} {res : FlowsetResult}
    (h : processFlowset limits fp hdr sourceId flowsetId pkt len peer = .ok res) :
    MadeBy limits (flowsetUses limits fp hdr sourceId flowsetId pkt len peer) peer res.peer := by
  rw [processFlowset] at h
  rw [flowsetUses]
  by_cases hzero : flowsetId = 0
  · rw [if_pos hzero] at h ⊢
    rw [processNetflowV9Template] at h
    by_cases hshort : len < 4
    · rw [if_pos hshort] at h
      cases h
      rw [if_pos (.inl hshort)]
      exact .nil ⟨rfl, rfl⟩
    · rw [if_neg hshort] at h
      obtain ⟨first, hfirst, h⟩ := bind_eq_ok.mp h
      split_ifs at h with hne
      -- the load of the id has succeeded, and it is 0
      have hok : fetchNtohs pkt 0 = .ok 0 := hfirst.trans (congrArg _ (not_not.mp hne))
      rw [if_neg (not_or.mpr ⟨hshort, not_not.mpr hok⟩)]
      exact templateLoop_uses h
  rw [if_neg hzero] at h ⊢
  split_ifs at h ⊢ with hmin
  · cases h
    exact .nil (.refl _)
  · obtain ⟨hnf9, hnum⟩ := processNetflowV9Data_store h
    exact ⟨peer, applyUses_dataUses limits fp hdr sourceId pkt len peer, hnf9, hnum⟩

/-- The uses of the loop over flowsets. -/
theorem flowsetLoop_uses {mem : Memory} {fp : FlowPacket} {hdr : Nf9Header} {sourceId : UInt32}
    {fuel offset : ℕ} {res res' : FlowsetResult}
    (h : flowsetLoop mem limits fp hdr sourceId fuel offset res = .ok res') :
    MadeBy limits (loopUses mem limits fp hdr sourceId fuel offset res) res.peer res'.peer := by
  induction fuel generalizing offset res with
  | zero => cases h
  | succ fuel ih =>
    rw [flowsetLoop] at h
    rw [loopUses]
    dsimp only at h
    by_cases hend : offset ≥ fp.packet.length
    · rw [if_pos hend] at h ⊢
      cases h
      exact .nil ⟨rfl, rfl⟩
    rw [if_neg hend] at h ⊢
    obtain ⟨flowsetId, hid, h⟩ := bind_eq_ok.mp h
    obtain ⟨flowsetLen, hlen, h⟩ := bind_eq_ok.mp h
    simp only [hid, hlen]
    by_cases hfit : offset + flowsetLen.toNat > fp.packet.length
    · rw [if_pos hfit] at h ⊢
      cases h
      exact .nil ⟨rfl, rfl⟩
    rw [if_neg hfit] at h ⊢
    obtain ⟨next, hnext, h⟩ := bind_eq_ok.mp h
    have huses := processFlowset_uses hnext
    simp only [hnext]
    by_cases hproceed : next.proceed = true
    -- the loop is left here, or goes on with the store that this flowset has made
    · by_cases hlast : offset + flowsetLen.toNat = fp.packet.length
      · rw [if_pos (.inr hlast)]
        simp only [hproceed, hlast, Bool.not_true, Bool.false_eq_true, if_false, if_true] at h
        cases h
        exact huses
      · rw [if_neg (by simp [hproceed, hlast])]
        rw [if_neg (by simp [hproceed]), if_neg hlast] at h
        exact huses.append (ih h)
    · rw [if_pos (.inl (by simpa using hproceed))]
      simp only [hproceed, Bool.not_false, if_true] at h
      cases h
      exact huses

/-- What a call of `process_netflow_v9` does to the store is what its uses do. -/
theorem processNetflowV9_uses {mem : Memory} {fuel : ℕ} {fp : FlowPacket}
    {r : PeerState × List StoreFlowComplete}
    (h : processNetflowV9 mem limits fuel fp peer = .ok r) :
    MadeBy limits (packetUses mem limits fuel fp peer) peer r.1 := by
  rw [processNetflowV9] at h
  rw [packetUses]
  split_ifs at h ⊢ with hshort
  · cases h
    exact .nil ⟨rfl, rfl⟩
  · obtain ⟨res, hres, h⟩ := bind_eq_ok.mp h
    apply (flowsetLoop_uses hres).same
    split_ifs at h
    · cases h
      exact ⟨rfl, rfl⟩
    · cases h
      exact ⟨rfl, rfl⟩

end Flowd
