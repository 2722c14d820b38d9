import NetworkMonitoring.Foundations.RecencyList
import NetworkMonitoring.Flowd.NetFlow9Loops

/-!
# flowd — the NetFlow v9 template store of one peer

`Stores Q` says that every template kept for a peer is filled in and that `Q` holds of its records
and its length. Registering a template keeps it when `Q` holds of what is registered
(`Stores.register`). `Counted` says that the counters of the queues are their lengths. With room for
at least one source and one template registering then never follows a NULL pointer
(`Counted.register`).

With templates that are `Accepted` a data flowset is decoded without an error, unless the length of
one of them is 0 (`nf9FlowsetToStore_ok`, `processNetflowV9Data_ok`).
-/

namespace Flowd

open Bytes ErrorLoops FueledLoops RecencyList

theorem mem_modify {α : Type*} {l : List α} {i : ℕ} {f : α → α} {y : α} (h : y ∈ l.modify i f) :
    y ∈ l ∨ ∃ x ∈ l, y = f x := by
  obtain ⟨k, hk, rfl⟩ := List.mem_iff_getElem.mp h
  rw [List.getElem_modify]
  split_ifs
  · exact .inr ⟨_, List.getElem_mem _, rfl⟩
  · exact .inl (List.getElem_mem _)

/-! ## What registering a template does -/

/-- A new template stands first in its source, in front of what is kept of the others. -/
theorem PeerNf9Source.newTemplate_cases {src src' : PeerNf9Source} {limits : PeerLimits}
    {templateId : UInt16} (h : src.newTemplate limits templateId = .ok src') :
    ∃ kept : List PeerNf9Template, Shortened src.templates kept ∧ src'.sourceId = src.sourceId ∧
      src'.templates = { templateId := templateId } :: kept ∧
      (src.numTemplates = src.templates.length → src'.numTemplates = src'.templates.length) := by
  rw [PeerNf9Source.newTemplate] at h
  split_ifs at h with hfull hnil
  · cases h
    refine ⟨src.templates.dropLast, .inr rfl, rfl, rfl, fun hcount => ?_⟩
    have hpos := List.length_pos_of_ne_nil hnil
    simp only [List.length_cons, List.length_dropLast]
    omega
  · cases h
    exact ⟨src.templates, .inl rfl, rfl, rfl, fun hcount => by simp [hcount]⟩

namespace PeerState

/-- A source that is created stands first, without templates. -/
theorem ensureSource_cases {peer peer' : PeerState} {limits : PeerLimits} {sourceId : UInt32}
    (h : peer.ensureSource limits sourceId = .ok peer') :
    ((peer.lookupSource sourceId).isSome ∧ peer' = peer) ∨
      peer.lookupSource sourceId = none ∧ ∃ kept : List PeerNf9Source,
        Shortened peer.nf9 kept ∧ peer'.nf9 = { sourceId := sourceId } :: kept ∧
        (peer.nf9NumSources = peer.nf9.length → peer'.nf9NumSources = peer'.nf9.length) := by
  rw [ensureSource] at h
  split_ifs at h with hfound
  · cases h
    exact .inl ⟨hfound, rfl⟩
  · have hnone := Option.not_isSome_iff_eq_none.mp hfound
    rw [newSource] at h
    split_ifs at h with hfull hnil
    · cases h
      refine .inr ⟨hnone, peer.nf9.dropLast, .inr rfl, rfl, fun hcount => ?_⟩
      have hpos := List.length_pos_of_ne_nil hnil
      simp only [List.length_cons, List.length_dropLast]
      omega
    · cases h
      exact .inr ⟨hnone, peer.nf9, .inl rfl, rfl, fun hcount => by simp [hcount]⟩

/-- The source is there afterwards. -/
theorem lookupSource_ensureSource {peer peer' : PeerState} {limits : PeerLimits}
    {sourceId : UInt32} (h : peer.ensureSource limits sourceId = .ok peer') :
    (peer'.lookupSource sourceId).isSome := by
  rcases ensureSource_cases h with ⟨hfound, rfl⟩ | ⟨-, kept, -, hnf9, -⟩
  · exact hfound
  · simp [lookupSource, hnf9]

/-- A template that is created stands first in its source, and the source first in the peer. -/
theorem ensureTemplate_cases {peer peer' : PeerState} {limits : PeerLimits} {sourceId : UInt32}
    {templateId : UInt16} (h : peer.ensureTemplate limits sourceId templateId = .ok peer') :
    ((peer.findTemplate sourceId templateId).isSome ∧ peer' = peer) ∨
      ∃ peer₁ src src', peer.ensureSource limits sourceId = .ok peer₁ ∧
      peer₁.lookupSource sourceId = some src ∧ src.newTemplate limits templateId = .ok src' ∧
      peer' = { peer₁ with nf9 := src' :: peer₁.nf9.eraseP (·.sourceId == sourceId) } := by
  rw [ensureTemplate] at h
  split_ifs at h with hfound
  · cases h
    exact .inl ⟨hfound, rfl⟩
  · rw [newTemplate] at h
    obtain ⟨peer₁, hsource, h⟩ := bind_eq_ok.mp h
    cases hlookup : peer₁.lookupSource sourceId with
    | none =>
      rw [hlookup] at h
      cases h
    | some src =>
      rw [hlookup] at h
      obtain ⟨src', hnew, h⟩ := bind_eq_ok.mp h
      cases h
      exact .inr ⟨peer₁, src, src', hsource, hlookup, hnew, rfl⟩

/-! ## The invariant of the store -/

/-- Every template is filled in, and `Q` holds of its records and its length. -/
def Stores (Q : List PeerNf9Record → ℕ → Prop) (peer : PeerState) : Prop :=
  ∀ src ∈ peer.nf9, ∀ t ∈ src.templates, ∃ recs, t.records = some recs ∧ Q recs t.totalLen

variable {Q : List PeerNf9Record → ℕ → Prop} {peer peer' : PeerState}

theorem Stores.mono {Q' : List PeerNf9Record → ℕ → Prop} (h : peer.Stores Q)
    (hQ : ∀ recs totalLen, Q recs totalLen → Q' recs totalLen) : peer.Stores Q' := by
  intro src hsrc t ht
  obtain ⟨recs, hrecs, hq⟩ := h src hsrc t ht
  exact ⟨recs, hrecs, hQ _ _ hq⟩

/-- The store is all the invariant looks at. -/
theorem Stores.of_nf9 (h : peer.Stores Q) (heq : peer'.nf9 = peer.nf9) : peer'.Stores Q := by
  rw [Stores, heq]
  exact h

/-- A template that is found satisfies the invariant. -/
theorem Stores.findTemplate (h : peer.Stores Q) {sourceId : UInt32} {templateId : UInt16}
    {t : PeerNf9Template} (ht : peer.findTemplate sourceId templateId = some t) :
    ∃ recs, t.records = some recs ∧ Q recs t.totalLen := by
  obtain ⟨src, hsrc, hlookup⟩ := Option.bind_eq_some_iff.mp ht
  exact h src (List.mem_of_find?_eq_some hsrc) t (List.mem_of_find?_eq_some hlookup)

/-- Filling in one template keeps the invariant of all the others. -/
theorem Stores.fillTemplate (h : peer.Stores Q) {recs : List PeerNf9Record} {totalLen : ℕ}
    (hQ : Q recs totalLen) (sourceId : UInt32) (templateId : UInt16) :
    (peer.fillTemplate sourceId templateId recs totalLen).Stores Q := by
  intro src hsrc t ht
  rcases mem_modify hsrc with hsrc | ⟨src, hmem, rfl⟩
  · exact h src hsrc t ht
  · rcases mem_modify ht with ht | ⟨t, -, rfl⟩
    · exact h src hmem t ht
    · exact ⟨recs, rfl, hQ⟩

/-- Registering a template keeps the invariant when the template satisfies it. -/
theorem Stores.register (h : peer.Stores Q) {limits : PeerLimits} {sourceId : UInt32}
    {templateId : UInt16} {recs : List PeerNf9Record} {totalLen : ℕ} (hQ : Q recs totalLen)
    (hregister : peer.register limits sourceId templateId recs totalLen = .ok peer') :
    peer'.Stores Q := by
  rw [PeerState.register] at hregister
  obtain ⟨peer₂, htemplate, hfill⟩ := bind_eq_ok.mp hregister
  obtain rfl := Except.ok.inj hfill
  rcases ensureTemplate_cases htemplate with
    ⟨-, rfl⟩ | ⟨peer₁, src, src', hsource, hlookup, hnew, rfl⟩
  · exact h.fillTemplate hQ sourceId templateId
  -- the new template is the only one that is not filled in, and it is the one that is found
  have hstores : peer₁.Stores Q := by
    rcases ensureSource_cases hsource with ⟨-, rfl⟩ | ⟨-, kept, hkept, hnf9, -⟩
    · exact h
    · intro s hs t ht
      rw [hnf9] at hs
      rcases List.mem_cons.mp hs with rfl | hs
      · exact absurd ht List.not_mem_nil
      · exact h s (hkept.sublist.subset hs) t ht
  have hsrc : src ∈ peer₁.nf9 := List.mem_of_find?_eq_some hlookup
  have hid : src.sourceId = sourceId := by simpa using List.find?_some hlookup
  obtain ⟨kept, hkept, hid', htemplates, -⟩ := PeerNf9Source.newTemplate_cases hnew
  intro s hs t ht
  have hindex : (src' :: peer₁.nf9.eraseP (·.sourceId == sourceId)).findIdx
      (·.sourceId == sourceId) = 0 := by
    simp [List.findIdx_cons, hid', hid]
  simp only [PeerState.fillTemplate, hindex, List.modify_zero_cons] at hs
  rcases List.mem_cons.mp hs with rfl | hs
  · simp only [PeerNf9Source.fillTemplate, htemplates, List.findIdx_cons, beq_self_eq_true,
      cond_true, List.modify_zero_cons] at ht
    rcases List.mem_cons.mp ht with rfl | ht
    · exact ⟨recs, rfl, hQ⟩
    · exact hstores src hsrc t (hkept.sublist.subset ht)
  · exact hstores s (List.mem_of_mem_eraseP hs) t ht

/-! ## The counters -/

/-- The counters of the queues are their lengths. -/
structure Counted (peer : PeerState) : Prop where
  sources : peer.nf9NumSources = peer.nf9.length
  templates : ∀ src ∈ peer.nf9, src.numTemplates = src.templates.length

end PeerState

/-- There is room for a source with a template. -/
structure PeerLimits.Room (limits : PeerLimits) : Prop where
  sources : 1 ≤ limits.maxSources
  templates : 1 ≤ limits.maxTemplates

namespace PeerState

theorem Counted.of_nf9 {peer peer' : PeerState} (h : peer.Counted) (heq : peer'.nf9 = peer.nf9)
    (hnum : peer'.nf9NumSources = peer.nf9NumSources) : peer'.Counted := by
  refine ⟨?_, ?_⟩
  · rw [hnum, heq]
    exact h.sources
  · rw [heq]
    exact h.templates

theorem Counted.ensureSource {peer : PeerState} (h : peer.Counted) {limits : PeerLimits}
    (hroom : limits.Room) (sourceId : UInt32) :
    ∃ peer', peer.ensureSource limits sourceId = .ok peer' ∧ peer'.Counted := by
  cases hsource : peer.ensureSource limits sourceId with
  | error e =>
    -- a full list of sources is not empty
    have hsources := hroom.sources
    rw [PeerState.ensureSource, newSource] at hsource
    split_ifs at hsource with hfound hfull hnil
    have hcount := h.sources
    rw [hnil, List.length_nil] at hcount
    omega
  | ok peer' =>
    refine ⟨peer', rfl, ?_⟩
    rcases ensureSource_cases hsource with ⟨-, rfl⟩ | ⟨-, kept, hkept, hnf9, hnum⟩
    · exact h
    · refine ⟨hnum h.sources, fun src hsrc => ?_⟩
      rw [hnf9] at hsrc
      rcases List.mem_cons.mp hsrc with rfl | hsrc
      · rfl
      · exact h.templates src (hkept.sublist.subset hsrc)

theorem Counted.ensureTemplate {peer : PeerState} (h : peer.Counted) {limits : PeerLimits}
    (hroom : limits.Room) (sourceId : UInt32) (templateId : UInt16) :
    ∃ peer', peer.ensureTemplate limits sourceId templateId = .ok peer' ∧ peer'.Counted := by
  by_cases hfound : (peer.findTemplate sourceId templateId).isSome
  · exact ⟨peer, if_pos hfound, h⟩
  obtain ⟨peer₁, hsource, h₁⟩ := h.ensureSource hroom sourceId
  obtain ⟨src, hlookup⟩ := Option.isSome_iff_exists.mp (lookupSource_ensureSource hsource)
  have hsrc : src ∈ peer₁.nf9 := List.mem_of_find?_eq_some hlookup
  have hid : src.sourceId = sourceId := by simpa using List.find?_some hlookup
  have hcount := h₁.templates src hsrc
  have htemplates := hroom.templates
  -- a full list of templates is not empty
  obtain ⟨src', hnew⟩ : ∃ src', src.newTemplate limits templateId = .ok src' := by
    rw [PeerNf9Source.newTemplate]
    split_ifs with hfull hnil
    · rw [hnil, List.length_nil] at hcount
      omega
    · exact ⟨_, rfl⟩
    · exact ⟨_, rfl⟩
  obtain ⟨kept, -, -, -, hcount'⟩ := PeerNf9Source.newTemplate_cases hnew
  refine ⟨{ peer₁ with nf9 := src' :: peer₁.nf9.eraseP (·.sourceId == sourceId) }, ?_, ?_, ?_⟩
  · rw [PeerState.ensureTemplate, if_neg hfound, newTemplate, hsource, ok_bind]
    simp only [hlookup, hnew, ok_bind]
    rfl
  -- the source is taken out of the list and put back at its head
  · have hlength := List.length_eraseP_of_mem (p := (·.sourceId == sourceId)) hsrc (by simp [hid])
    have hpos := List.length_pos_of_mem hsrc
    have hsources := h₁.sources
    simp only [List.length_cons]
    omega
  · intro s hs
    rcases List.mem_cons.mp hs with rfl | hs
    · exact hcount' hcount
    · exact h₁.templates s (List.mem_of_mem_eraseP hs)

/-- With room in the table, registering a template never follows a NULL pointer. -/
theorem Counted.register {peer : PeerState} (h : peer.Counted) {limits : PeerLimits}
    (hroom : limits.Room) (sourceId : UInt32) (templateId : UInt16) (recs : List PeerNf9Record)
    (totalLen : ℕ) :
    ∃ peer', peer.register limits sourceId templateId recs totalLen = .ok peer' ∧
      peer'.Counted := by
  obtain ⟨peer₁, htemplate, h₁⟩ := h.ensureTemplate hroom sourceId templateId
  refine ⟨peer₁.fillTemplate sourceId templateId recs totalLen, ?_, ?_, fun src hsrc => ?_⟩
  · rw [PeerState.register, htemplate, ok_bind]
    rfl
  · simpa [PeerState.fillTemplate] using h₁.sources
  · rcases mem_modify hsrc with hsrc | ⟨src, hmem, rfl⟩
    · exact h₁.templates src hsrc
    · simpa [PeerNf9Source.fillTemplate] using h₁.templates src hmem

end PeerState

/-! ## The invariant of a peer -/

/-- The templates of the peer are accepted ones, and the counters are right. -/
structure PeerState.StoreInv (limits : PeerLimits) (peer : PeerState) : Prop where
  accepted : peer.Stores (Accepted limits)
  counted : peer.Counted

/-- A new peer has no templates. -/
theorem PeerState.StoreInv.new (limits : PeerLimits) (addr : Xaddr) :
    PeerState.StoreInv limits { origin := addr } where
  accepted := fun _ hsrc => absurd hsrc List.not_mem_nil
  counted := ⟨rfl, fun _ hsrc => absurd hsrc List.not_mem_nil⟩

/-- Registering an accepted template keeps the invariant. -/
theorem PeerState.StoreInv.register {limits : PeerLimits} {peer peer' : PeerState}
    (h : peer.StoreInv limits) (hroom : limits.Room) {sourceId : UInt32} {templateId : UInt16}
    {recs : List PeerNf9Record} {totalLen : ℕ} (hacc : Accepted limits recs totalLen)
    (hregister : peer.register limits sourceId templateId recs totalLen = .ok peer') :
    peer'.StoreInv limits := by
  obtain ⟨peer₁, hok, hcounted⟩ := h.counted.register hroom sourceId templateId recs totalLen
  obtain rfl : peer₁ = peer' := Except.ok.inj (hok.symm.trans hregister)
  exact ⟨h.accepted.register hacc hregister, hcounted⟩

/-! ## Decoding with a template of the store -/

/-- A field that has passed the length check is copied. -/
theorem nf9RecToFlow_ok {type : ℕ} {data : List UInt8}
    (h : nf9CheckRecLen type data.length = true) (flow : StoreFlowComplete) :
    ∃ flow', nf9RecToFlow type flow data = .ok flow' := by
  rcases (nf9RecToFlow_ends type flow data).cases with ⟨e, -, -, size, hsize, hlt⟩ | ⟨flow', hok, -⟩
  · rw [nf9CheckRecLen, hsize] at h
    split_ifs at h
    have hle : data.length ≤ size := by simpa using h
    omega
  · exact ⟨flow', hok⟩

theorem fetch_ok {pkt : List UInt8} {offset n : ℕ} (h : offset + n ≤ pkt.length) :
    ∃ data, fetch pkt offset n = .ok data ∧ data.length = n := by
  refine ⟨(pkt.drop offset).take n, if_pos h, ?_⟩
  rw [List.length_take, List.length_drop]
  omega

/-- A load of a word fails exactly when it reaches too far. -/
theorem fetchNtohs_eq_error {pkt : List UInt8} {offset : ℕ} {e : Fault} :
    fetchNtohs pkt offset = .error e ↔ Behind pkt (offset + 2) e := by
  rw [fetchNtohs, fetch]
  split_ifs with h
  · rw [ok_bind]
    exact iff_of_false ok_ne_error fun he => Nat.not_lt.mpr h he.2
  · refine ⟨fun he => ⟨(Except.error.inj he).symm, by omega⟩, ?_⟩
    rintro ⟨rfl, -⟩
    rfl

/-- So does the load of two words. -/
theorem fetchNtohs_pair_eq_error {α : Type} {pkt : List UInt8} {offset : ℕ}
    (h : pkt.length < offset + 4) (f : UInt16 → UInt16 → Except Fault α) :
    (do f (← fetchNtohs pkt offset) (← fetchNtohs pkt (offset + 2))) = .error .overread := by
  rcases (fetchNtohs_ends pkt offset).cases with ⟨e, he, rfl, -⟩ | ⟨first, hfirst, -⟩
  · rw [he]
    rfl
  · rw [hfirst, ok_bind, fetchNtohs_eq_error.mpr ⟨rfl, by omega⟩]
    rfl

/-- The bytes behind a load do not matter. -/
theorem fetch_take {pkt : List UInt8} {offset n m : ℕ} (h : offset + n ≤ m) :
    fetch (pkt.take m) offset n = fetch pkt offset n := by
  by_cases hlen : offset + n ≤ pkt.length
  · have htake : offset + n ≤ (pkt.take m).length := by
      rw [List.length_take]
      omega
    rw [fetch, if_pos htake, fetch, if_pos hlen, List.drop_take, List.take_take,
      Nat.min_eq_left (by omega)]
  · have htake : ¬ offset + n ≤ (pkt.take m).length := by
      rw [List.length_take]
      omega
    rw [fetch, if_neg htake, fetch, if_neg hlen]

/-- The loop over checked records copies each of them. -/
theorem recordLoop_ok {pkt : List UInt8} {records : List PeerNf9Record} {offset : ℕ}
    (hcheck : ∀ r ∈ records, nf9CheckRecLen r.type r.len = true)
    (hlen : offset + (records.map PeerNf9Record.len).sum ≤ pkt.length)
    (flow : StoreFlowComplete) : ∃ flow', recordLoop pkt records offset flow = .ok flow' := by
  induction records generalizing offset flow with
  | nil => exact ⟨flow, rfl⟩
  | cons r rs ih =>
    rw [List.map_cons, List.sum_cons] at hlen
    obtain ⟨data, hfetch, hdata⟩ := fetch_ok (show offset + r.len ≤ pkt.length by omega)
    obtain ⟨flow₁, hcopy⟩ := nf9RecToFlow_ok (hdata ▸ hcheck r List.mem_cons_self) flow
    obtain ⟨flow₂, hrest⟩ := ih (fun x hx => hcheck x (List.mem_cons_of_mem r hx))
      (show offset + r.len + _ ≤ pkt.length by omega) flow₁
    refine ⟨flow₂, ?_⟩
    rw [recordLoop, hfetch, ok_bind, hcopy, ok_bind, hrest]

/-- It reads no further than its records go. -/
theorem recordLoop_take {pkt : List UInt8} {records : List PeerNf9Record} {offset m : ℕ}
    (h : offset + (records.map PeerNf9Record.len).sum ≤ m) (flow : StoreFlowComplete) :
    recordLoop (pkt.take m) records offset flow = recordLoop pkt records offset flow := by
  induction records generalizing offset flow with
  | nil => rfl
  | cons r rs ih =>
    rw [List.map_cons, List.sum_cons] at h
    rw [recordLoop, recordLoop, fetch_take (by omega)]
    refine bind_congr fun data => bind_congr fun flow' => ?_
    exact ih (by omega) flow'

/-- `nf9_flowset_to_store` decodes a data record with an accepted template, and looks only at the
`total_len` bytes of the record. -/
theorem nf9FlowsetToStore_ok {limits : PeerLimits} {template : PeerNf9Template}
    {records : List PeerNf9Record} (h : Accepted limits records template.totalLen)
    (fp : FlowPacket) (peer : PeerState) (hdr : Nf9Header) (sourceId : UInt32) {pkt : List UInt8}
    (hlen : template.totalLen ≤ pkt.length) :
    ∃ flow, nf9FlowsetToStore fp peer hdr sourceId pkt template.totalLen template records =
        .ok (some flow) ∧
      nf9FlowsetToStore fp peer hdr sourceId (pkt.take template.totalLen) template.totalLen
        template records = .ok (some flow) := by
  have hsum : 0 + (records.map PeerNf9Record.len).sum = template.totalLen := by
    rw [Nat.zero_add, h.total_eq]
  obtain ⟨flow, hflow⟩ := recordLoop_ok h.check (hsum.trans_le hlen)
    (nf9Start fp peer hdr sourceId)
  refine ⟨flow, ?_, ?_⟩
  · rw [nf9FlowsetToStore, if_neg (Nat.lt_irrefl _), hflow]
    rfl
  · rw [nf9FlowsetToStore, if_neg (Nat.lt_irrefl _), recordLoop_take hsum.le, hflow]
    rfl

theorem dataLoop_ok {limits : PeerLimits} {template : PeerNf9Template}
    {records : List PeerNf9Record} (h : Accepted limits records template.totalLen)
    (fp : FlowPacket) (peer : PeerState) (hdr : Nf9Header) (sourceId : UInt32) {pkt : List UInt8}
    (n offset : ℕ) (hlen : offset + n * template.totalLen ≤ pkt.length) :
    ∃ flows, dataLoop fp peer hdr sourceId pkt template records n offset = .ok (some flows) := by
  induction n generalizing offset with
  | zero => exact ⟨[], rfl⟩
  | succ n ih =>
    rw [Nat.succ_mul] at hlen
    obtain ⟨flow, hflow, -⟩ := nf9FlowsetToStore_ok h fp peer hdr sourceId
      (show template.totalLen ≤ (pkt.drop offset).length by rw [List.length_drop]; omega)
    obtain ⟨flows, hflows⟩ := ih (offset + template.totalLen) (by omega)
    refine ⟨flow :: flows, ?_⟩
    rw [dataLoop, hflow, ok_bind]
    simp only [hflows, ok_bind]
    rfl

/-- With accepted templates in the store `process_netflow_v9_data` decodes every record, unless it
divides by the length 0 of a template. -/
theorem processNetflowV9Data_ok {limits : PeerLimits} {peer : PeerState}
    (h : peer.Stores (Accepted limits)) (fp : FlowPacket) (hdr : Nf9Header) (sourceId : UInt32)
    {pkt : List UInt8} {len : ℕ} (hlen : len ≤ pkt.length) :
    Ends (fun e => e = .divByZero ∧ ∃ templateId template,
        peer.findTemplate sourceId templateId = some template ∧ template.totalLen = 0)
      (fun res => 4 ≤ len → res.peer.ninvalid = peer.ninvalid)
      (processNetflowV9Data fp hdr sourceId pkt len peer) := by
  rw [processNetflowV9Data]
  by_cases hshort : len < 4
  · rw [if_pos hshort]
    exact fun h => absurd hshort (Nat.not_lt.mpr h)
  rw [if_neg hshort]
  obtain ⟨data, hdata, -⟩ := fetch_ok (show 0 + 2 ≤ pkt.length by omega)
  rw [fetchNtohs, hdata, ok_bind]
  simp only [pure_bind]
  generalize htemplateId : htons (UInt16.ofNat (leNat data)) = templateId
  cases hfind : peer.findTemplate sourceId templateId with
  | none => exact fun _ => rfl
  | some template =>
  obtain ⟨records, hrecords, hacc⟩ := h.findTemplate hfind
  simp only [hrecords]
  by_cases hzero : template.totalLen = 0
  · rw [if_pos hzero]
    exact ⟨rfl, templateId, template, hfind, hzero⟩
  rw [if_neg hzero]
  split_ifs
  · exact fun _ => rfl
  -- as many records as the division counts fit into the flowset
  · have hroom : 4 + (len - 4) / template.totalLen * template.totalLen ≤ pkt.length := by
      have := Nat.div_mul_le_self (len - 4) template.totalLen
      omega
    obtain ⟨flows, hflows⟩ := dataLoop_ok hacc fp peer hdr sourceId _ 4 hroom
    rw [hflows, ok_bind]
    exact fun _ => rfl

/-- A data flowset leaves the store alone. -/
theorem processNetflowV9Data_store {fp : FlowPacket} {hdr : Nf9Header} {sourceId : UInt32}
    {pkt : List UInt8} {len : ℕ} {peer : PeerState} {res : FlowsetResult}
    (h : processNetflowV9Data fp hdr sourceId pkt len peer = .ok res) :
    res.peer.nf9 = peer.nf9 ∧ res.peer.nf9NumSources = peer.nf9NumSources := by
  rw [processNetflowV9Data] at h
  by_cases hshort : len < 4
  · rw [if_pos hshort] at h
    cases h
    exact ⟨rfl, rfl⟩
  rw [if_neg hshort] at h
  obtain ⟨templateId, -, h⟩ := bind_eq_ok.mp h
  cases hfind : peer.findTemplate sourceId templateId with
  | none =>
    rw [hfind] at h
    cases h
    exact ⟨rfl, rfl⟩
  | some template =>
  simp only [hfind] at h
  cases hrecords : template.records with
  | none =>
    rw [hrecords] at h
    cases h
  | some records =>
  simp only [hrecords] at h
  split_ifs at h
  · cases h
    exact ⟨rfl, rfl⟩
  -- whether the records are decoded or not, the peer is the same
  · obtain ⟨r, -, h⟩ := bind_eq_ok.mp h
    cases r with
    | none =>
      cases h
      exact ⟨rfl, rfl⟩
    | some flows =>
      cases h
      exact ⟨rfl, rfl⟩

end Flowd
