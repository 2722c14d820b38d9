import Mathlib.Data.List.Nodup
import NetworkMonitoring.Foundations.RecencyList
import NetworkMonitoring.Flowd.TemplateStore

/-!
# flowd — the queues of sources and templates

`peer.c` counts a new source or template before it deletes an old one, and deletes what a source or
a peer has one by one. `newTemplate_eq_addTemplate` and `newSource_eq_addSource` take the functions
of `Peer.lean` apart into these steps.

`PeerState.Bounded` is what the queues of a peer keep: the counters are the lengths, the lengths are
within the limits, and no id stands twice in a queue.
-/

namespace Flowd

open ErrorLoops RecencyList

/-! ## Deleting -/

namespace PeerNf9Source

/-- `peer_nf9_template_delete`, for the template at an index of the list. -/
def templateDelete (nf9src : PeerNf9Source) (index : ℕ) : PeerNf9Source :=
  { nf9src with
    templates := nf9src.templates.eraseIdx index
    numTemplates := nf9src.numTemplates - 1 }

/-- The loop of `peer_nf9_source_delete`, with an upper bound for its iterations. -/
def deleteTemplates : ℕ → PeerNf9Source → PeerNf9Source
  | 0, nf9src => nf9src
  | n + 1, nf9src =>
    match nf9src.templates with
    | [] => nf9src
    | _ :: _ => deleteTemplates n (nf9src.templateDelete 0)

/-- The loop ends with an empty list. -/
theorem deleteTemplates_eq (nf9src : PeerNf9Source) :
    deleteTemplates nf9src.templates.length nf9src =
      { nf9src with
        templates := []
        numTemplates := nf9src.numTemplates - nf9src.templates.length } := by
  obtain ⟨sourceId, num, templates⟩ := nf9src
  induction templates generalizing num with
  | nil => rfl
  | cons t ts ih =>
    show deleteTemplates ts.length ⟨sourceId, num - 1, ts⟩ = _
    rw [ih, List.length_cons, Nat.sub_sub, Nat.add_comm]

/-- The part of `peer_nf9_new_template` behind the look for the source. -/
def addTemplate (nf9src : PeerNf9Source) (limits : PeerLimits) (templateId : UInt16) :
    Except Fault PeerNf9Source := do
  let nf9src := { nf9src with numTemplates := nf9src.numTemplates + 1 }
  -- If the source has too many templates, then kick out the LRU
  let nf9src ←
    if nf9src.numTemplates > limits.maxTemplates then
      if nf9src.templates = [] then .error .pointer
      else .ok (nf9src.templateDelete (nf9src.templates.length - 1))
    else .ok nf9src
  return { nf9src with templates := { templateId := templateId } :: nf9src.templates }

theorem newTemplate_eq_addTemplate (nf9src : PeerNf9Source) (limits : PeerLimits)
    (templateId : UInt16) :
    nf9src.newTemplate limits templateId = nf9src.addTemplate limits templateId := by
  unfold newTemplate addTemplate
  dsimp only
  split_ifs with hfull hnil
  · rfl
  · rw [ok_bind, templateDelete, List.eraseIdx_eq_dropLast]
    · rfl
    · exact Nat.sub_add_cancel (List.length_pos_of_ne_nil hnil)
  · rfl

end PeerNf9Source

namespace PeerState

/-- `peer_nf9_source_delete`, for the source at an index of the list. -/
def sourceDelete (peer : PeerState) (index : ℕ) : PeerState :=
  let nf9 := peer.nf9.modify index fun nf9src =>
    nf9src.deleteTemplates nf9src.templates.length
  { peer with
    nf9NumSources := peer.nf9NumSources - 1
    nf9 := nf9.eraseIdx index }

/-- The source is gone with its templates. -/
theorem sourceDelete_eq (peer : PeerState) (index : ℕ) :
    peer.sourceDelete index =
      { peer with nf9NumSources := peer.nf9NumSources - 1, nf9 := peer.nf9.eraseIdx index } := by
  rw [sourceDelete, List.eraseIdx_modify_of_eq]

/-- `peer_nf9_delete`, with an upper bound for the iterations of its loop. -/
def deleteSources : ℕ → PeerState → PeerState
  | 0, peer => peer
  | n + 1, peer =>
    match peer.nf9 with
    | [] => peer
    | _ :: _ => deleteSources n (peer.sourceDelete 0)

/-- `peer_nf9_delete`. -/
def nf9Delete (peer : PeerState) : PeerState := deleteSources peer.nf9.length peer

theorem deleteSources_eq {n : ℕ} {peer : PeerState} (hn : peer.nf9.length = n) :
    deleteSources n peer = { peer with nf9 := [], nf9NumSources := peer.nf9NumSources - n } := by
  induction n generalizing peer with
  | zero =>
    rw [deleteSources, ← List.eq_nil_of_length_eq_zero hn]
    rfl
  | succ n ih =>
    obtain ⟨src, rest, hnf9⟩ := List.exists_cons_of_length_eq_add_one hn
    have hrest : rest.length = n := by simpa [hnf9] using hn
    have hdelete : peer.sourceDelete 0 =
        { peer with nf9NumSources := peer.nf9NumSources - 1, nf9 := rest } := by
      rw [sourceDelete_eq, hnf9]
      rfl
    rw [deleteSources, hnf9]
    dsimp only
    rw [hdelete, ih hrest, Nat.sub_sub, Nat.add_comm 1 n]

/-- Nothing is left of the sources, and the counter goes down to 0 with them. -/
theorem Counted.nf9Delete {peer : PeerState} (h : peer.Counted) :
    peer.nf9Delete = { peer with nf9 := [], nf9NumSources := 0 } := by
  rw [PeerState.nf9Delete, deleteSources_eq rfl, h.sources, Nat.sub_self]

@[simp]
theorem origin_nf9Delete (peer : PeerState) : peer.nf9Delete.origin = peer.origin := by
  rw [nf9Delete, deleteSources_eq rfl]

/-- `peer_nf9_new_source`. -/
def addSource (peer : PeerState) (limits : PeerLimits) (sourceId : UInt32) :
    Except Fault PeerState := do
  let peer := { peer with nf9NumSources := peer.nf9NumSources + 1 }
  -- If we have too many sources, then kick out the LRU
  let peer ←
    if peer.nf9NumSources > limits.maxSources then
      if peer.nf9 = [] then .error .pointer
      else .ok (peer.sourceDelete (peer.nf9.length - 1))
    else .ok peer
  return { peer with nf9 := { sourceId := sourceId } :: peer.nf9 }

theorem newSource_eq_addSource (peer : PeerState) (limits : PeerLimits) (sourceId : UInt32) :
    peer.newSource limits sourceId = peer.addSource limits sourceId := by
  unfold newSource addSource
  dsimp only
  split_ifs with hfull hnil
  · rfl
  · rw [ok_bind, sourceDelete_eq, List.eraseIdx_eq_dropLast]
    · rfl
    · exact Nat.sub_add_cancel (List.length_pos_of_ne_nil hnil)
  · rfl

/-! ## The order of use -/

/-- `peer_nf9_template_update`. -/
def templateUpdate (peer : PeerState) (sourceId : UInt32) (templateId : UInt16) : PeerState :=
  match peer.lookupSource sourceId with
  | none => peer
  | some nf9src =>
    match nf9src.lookupTemplate templateId with
    | none => peer
    | some _ =>
      -- Move source and template to the head of the list
      let nf9 := moveToHead (·.sourceId == sourceId) peer.nf9
      { peer with nf9 := nf9.modifyHead fun nf9src =>
        { nf9src with templates := moveToHead (·.templateId == templateId) nf9src.templates } }

end PeerState

/-! ## What the queues keep -/

/-- The templates of a source are counted, within the limit, and have different ids. -/
structure PeerNf9Source.Bounded (limits : PeerLimits) (nf9src : PeerNf9Source) : Prop where
  num_eq : nf9src.numTemplates = nf9src.templates.length
  le : nf9src.numTemplates ≤ limits.maxTemplates
  distinct : (nf9src.templates.map (·.templateId)).Nodup

/-- So are the sources of a peer. -/
structure PeerState.Bounded (limits : PeerLimits) (peer : PeerState) : Prop where
  num_eq : peer.nf9NumSources = peer.nf9.length
  le : peer.nf9NumSources ≤ limits.maxSources
  distinct : (peer.nf9.map (·.sourceId)).Nodup
  sources : ∀ nf9src ∈ peer.nf9, nf9src.Bounded limits

variable {limits : PeerLimits}

namespace PeerNf9Source

variable {nf9src : PeerNf9Source}

/-- A source without templates. -/
theorem Bounded.new (limits : PeerLimits) (sourceId : UInt32) :
    PeerNf9Source.Bounded limits { sourceId := sourceId } where
  num_eq := rfl
  le := Nat.zero_le _
  distinct := List.nodup_nil

/-- A search for a template that fails. -/
theorem lookupTemplate_eq_none {templateId : UInt16} :
    nf9src.lookupTemplate templateId = none ↔
      templateId ∉ nf9src.templates.map (·.templateId) := by
  simp only [lookupTemplate, List.find?_eq_none, beq_iff_eq, List.mem_map, not_exists, not_and]

/-- A new template is put at the head, in the place of the last one when there is no room. -/
theorem Bounded.newTemplate (h : nf9src.Bounded limits) (hroom : 1 ≤ limits.maxTemplates)
    {templateId : UInt16} (hnew : nf9src.lookupTemplate templateId = none) :
    ∃ nf9src', nf9src.newTemplate limits templateId = .ok nf9src' ∧ nf9src'.Bounded limits ∧
      nf9src'.sourceId = nf9src.sourceId := by
  have hnotMem := lookupTemplate_eq_none.mp hnew
  have hnum := h.num_eq
  have hle := h.le
  unfold PeerNf9Source.newTemplate
  split_ifs with hfull hnil
  · rw [hnil, List.length_nil] at hnum
    omega
  · have hpos := List.length_pos_of_ne_nil hnil
    refine ⟨_, rfl, ⟨?_, hle, ?_⟩, rfl⟩
    · simp only [List.length_cons, List.length_dropLast]
      omega
    · have hsub : (nf9src.templates.dropLast.map (·.templateId)).Sublist
          (nf9src.templates.map (·.templateId)) := (List.dropLast_sublist _).map _
      exact List.nodup_cons.mpr ⟨fun hmem => hnotMem (hsub.subset hmem), h.distinct.sublist hsub⟩
  · refine ⟨_, rfl, ⟨by simp [hnum], by simpa using hfull, ?_⟩, rfl⟩
    exact List.nodup_cons.mpr ⟨hnotMem, h.distinct⟩

/-- A template is moved to the head. -/
theorem Bounded.moveToHead (h : nf9src.Bounded limits) (p : PeerNf9Template → Bool) :
    PeerNf9Source.Bounded limits
      { nf9src with templates := RecencyList.moveToHead p nf9src.templates } where
  num_eq := h.num_eq.trans (length_moveToHead p _).symm
  le := h.le
  distinct := ((moveToHead_perm p _).map _).nodup_iff.mpr h.distinct

end PeerNf9Source

namespace PeerState

variable {peer : PeerState}

/-- A new peer. -/
theorem Bounded.new (limits : PeerLimits) (addr : Xaddr) :
    PeerState.Bounded limits { origin := addr } where
  num_eq := rfl
  le := Nat.zero_le _
  distinct := List.nodup_nil
  sources := fun _ h => absurd h List.not_mem_nil

/-- The store is all that is looked at. -/
theorem Bounded.of_nf9 (h : peer.Bounded limits) {peer' : PeerState} (hnf9 : peer'.nf9 = peer.nf9)
    (hnum : peer'.nf9NumSources = peer.nf9NumSources) : peer'.Bounded limits := by
  refine ⟨?_, ?_, ?_, ?_⟩
  · rw [hnum, hnf9]
    exact h.num_eq
  · rw [hnum]
    exact h.le
  · rw [hnf9]
    exact h.distinct
  · rw [hnf9]
    exact h.sources

theorem Bounded.counted (h : peer.Bounded limits) : peer.Counted where
  sources := h.num_eq
  templates := fun nf9src hsrc => (h.sources nf9src hsrc).num_eq

theorem lookupSource_eq_none {sourceId : UInt32} :
    peer.lookupSource sourceId = none ↔ sourceId ∉ peer.nf9.map (·.sourceId) := by
  simp only [lookupSource, List.find?_eq_none, beq_iff_eq, List.mem_map, not_exists, not_and]

/-- A new source is put at the head, in the place of the last one when there is no room. -/
theorem Bounded.newSource (h : peer.Bounded limits) (hroom : 1 ≤ limits.maxSources)
    {sourceId : UInt32} (hnew : peer.lookupSource sourceId = none) :
    ∃ kept, peer.newSource limits sourceId = .ok { peer with
        nf9NumSources := kept.length + 1
        nf9 := { sourceId := sourceId } :: kept } ∧
      PeerState.Bounded limits { peer with
        nf9NumSources := kept.length + 1
        nf9 := { sourceId := sourceId } :: kept } := by
  have hnotMem := lookupSource_eq_none.mp hnew
  have hnum := h.num_eq
  have hle := h.le
  -- whatever of the sources is kept, the new one is not among them
  have hkept : ∀ kept : List PeerNf9Source, kept.Sublist peer.nf9 →
      kept.length + 1 ≤ limits.maxSources → PeerState.Bounded limits { peer with
        nf9NumSources := kept.length + 1
        nf9 := { sourceId := sourceId } :: kept } := by
    intro kept hsub hlen
    refine ⟨rfl, hlen, ?_, fun src hsrc => ?_⟩
    · have hids := hsub.map (·.sourceId)
      exact List.nodup_cons.mpr ⟨fun hmem => hnotMem (hids.subset hmem), h.distinct.sublist hids⟩
    · rcases List.mem_cons.mp hsrc with rfl | hsrc
      · exact .new limits sourceId
      · exact h.sources src (hsub.subset hsrc)
  unfold PeerState.newSource
  split_ifs with hfull hnil
  -- a full queue has a last source, since there is room for one
  · rw [hnil, List.length_nil] at hnum
    omega
  · have hpos := List.length_pos_of_ne_nil hnil
    have hlen : peer.nf9.dropLast.length + 1 = peer.nf9NumSources := by
      rw [List.length_dropLast]
      omega
    refine ⟨peer.nf9.dropLast, ?_, hkept _ (List.dropLast_sublist _) (by omega)⟩
    rw [hlen]
  · refine ⟨peer.nf9, ?_, hkept _ (List.Sublist.refl _) (by omega)⟩
    rw [hnum]

/-- A source that is changed and put at the head. -/
theorem Bounded.putSource (h : peer.Bounded limits) {sourceId : UInt32}
    {nf9src nf9src' : PeerNf9Source} (hfind : peer.lookupSource sourceId = some nf9src)
    (hsrc' : nf9src'.Bounded limits) (hid : nf9src'.sourceId = nf9src.sourceId) :
    PeerState.Bounded limits
      { peer with nf9 := nf9src' :: peer.nf9.eraseP (·.sourceId == sourceId) } := by
  have hperm : (nf9src :: peer.nf9.eraseP (·.sourceId == sourceId)).Perm peer.nf9 := by
    rw [← moveToHead_of_find? hfind]
    exact moveToHead_perm _ _
  refine ⟨?_, h.le, ?_, fun src hsrc => ?_⟩
  · rw [List.length_cons, ← List.length_cons, hperm.length_eq]
    exact h.num_eq
  · have hids := (hperm.map PeerNf9Source.sourceId).nodup_iff.mpr h.distinct
    rw [List.map_cons] at hids ⊢
    rw [hid]
    exact hids
  · rcases List.mem_cons.mp hsrc with rfl | hsrc
    · exact hsrc'
    · exact h.sources src (List.mem_of_mem_eraseP hsrc)

/-- The source of a new template is there, and has no template with the id. -/
theorem Bounded.ensureSource (h : peer.Bounded limits) (hroom : 1 ≤ limits.maxSources)
    {sourceId : UInt32} {templateId : UInt16}
    (hnew : peer.findTemplate sourceId templateId = none) :
    ∃ peer₁ nf9src, peer.ensureSource limits sourceId = .ok peer₁ ∧ peer₁.Bounded limits ∧
      peer₁.origin = peer.origin ∧ peer₁.lookupSource sourceId = some nf9src ∧
      nf9src.lookupTemplate templateId = none := by
  unfold PeerState.ensureSource
  cases hlookup : peer.lookupSource sourceId with
  | some nf9src =>
    refine ⟨peer, nf9src, rfl, h, rfl, hlookup, ?_⟩
    rw [findTemplate, hlookup] at hnew
    exact hnew
  | none =>
    obtain ⟨kept, hok, hbounded⟩ := h.newSource hroom hlookup
    refine ⟨_, { sourceId := sourceId }, hok, hbounded, rfl, ?_, rfl⟩
    rw [lookupSource, List.find?_cons_of_pos (by simp)]

/-- With room for a source and a template, a new template never follows a NULL pointer, and the
queues stay within their limits. -/
theorem Bounded.newTemplate (h : peer.Bounded limits) (hroom : limits.Room) {sourceId : UInt32}
    {templateId : UInt16} (hnew : peer.findTemplate sourceId templateId = none) :
    ∃ peer', peer.newTemplate limits sourceId templateId = .ok peer' ∧ peer'.Bounded limits ∧
      peer'.origin = peer.origin := by
  obtain ⟨peer₁, nf9src, hsource, h₁, horigin, hlookup, hnone⟩ := h.ensureSource hroom.sources hnew
  have hsrc := h₁.sources nf9src (List.mem_of_find?_eq_some hlookup)
  obtain ⟨nf9src', htemplate, hsrc', hid⟩ := hsrc.newTemplate hroom.templates hnone
  refine ⟨_, ?_, h₁.putSource hlookup hsrc' hid, horigin⟩
  rw [PeerState.newTemplate, hsource, ok_bind]
  simp only [hlookup, htemplate, ok_bind]
  rfl

/-- Moving a source and a template keeps the queues as they are, but for their order. -/
theorem Bounded.templateUpdate (h : peer.Bounded limits) (sourceId : UInt32) (templateId : UInt16) :
    (peer.templateUpdate sourceId templateId).Bounded limits := by
  unfold PeerState.templateUpdate
  cases hlookup : peer.lookupSource sourceId with
  | none => exact h
  | some nf9src =>
    dsimp only
    cases nf9src.lookupTemplate templateId with
    | none => exact h
    | some template =>
      have hsrc := h.sources nf9src (List.mem_of_find?_eq_some hlookup)
      have hmove := moveToHead_of_find? hlookup
      dsimp only
      rw [hmove]
      exact h.putSource hlookup (hsrc.moveToHead _) rfl

@[simp]
theorem origin_templateUpdate (sourceId : UInt32) (templateId : UInt16) :
    (peer.templateUpdate sourceId templateId).origin = peer.origin := by
  unfold PeerState.templateUpdate
  cases peer.lookupSource sourceId with
  | none => rfl
  | some nf9src =>
    dsimp only
    cases nf9src.lookupTemplate templateId <;> rfl

end PeerState
end Flowd
