import NetworkMonitoring.Flowd.TemplateQueues
import NetworkMonitoring.Flowd.TemplateUses

/-!
# flowd — which template is evicted

`peer_nf9_new_template` and `peer_nf9_new_source` evict what stands last in a list, and put what is
new at the head. `peer_nf9_template_update` moves a template that is used again to the head, but
neither `process_netflow_v9_template` nor `process_netflow_v9_data` calls it: what is evicted is
what has been created first, and not what has been used least recently.

The two are the same as long as the template that is used again stands at the head of its source's
list, and the source at the head of the peer's (`Orderly`).

## Main results

* `Orderly.step`: an orderly use keeps the lists in the order of use, and evicts what is the least
  recently used;
* `AtHead.of_ordered`: no other use of a template that is there keeps the order;
* `evicts_least_recently_used`: a run of orderly uses evicts the least recently used, each time;
* `evicts_in_use`: eight templates, a data flowset for the oldest one, and a ninth template.
-/

namespace Flowd

open Bytes ErrorLoops RecencyList

/-! ## The lists by their ids -/

theorem map_modify_of_eq {α β : Type*} {f : α → β} {g : α → α} (h : ∀ x, f (g x) = f x) (l : List α)
    (i : ℕ) : (l.modify i g).map f = l.map f := by
  induction l generalizing i with
  | nil => simp
  | cons x l ih =>
    cases i with
    | zero => simp [h]
    | succ i => simp [ih]

/-- The ids of the sources with those of their templates. -/
def PeerState.ids (peer : PeerState) : List (UInt32 × List UInt16) :=
  peer.nf9.map fun nf9src => (nf9src.sourceId, nf9src.templates.map (·.templateId))

namespace PeerState

variable {limits : PeerLimits} {peer peer' : PeerState} {sourceId : UInt32} {templateId : UInt16}

theorem map_fst_ids (peer : PeerState) : peer.ids.map Prod.fst = peer.nf9.map (·.sourceId) := by
  rw [ids, List.map_map]
  rfl

/-- Filling in a template leaves the ids alone. -/
theorem ids_fillTemplate (peer : PeerState) (sourceId : UInt32) (templateId : UInt16)
    (records : List PeerNf9Record) (totalLen : ℕ) :
    (peer.fillTemplate sourceId templateId records totalLen).ids = peer.ids := by
  refine map_modify_of_eq (fun nf9src => ?_) peer.nf9 _
  have htemplates : (nf9src.fillTemplate templateId records totalLen).templates.map
      (·.templateId) = nf9src.templates.map (·.templateId) :=
    map_modify_of_eq (g := fun template : PeerNf9Template =>
      { template with records := some records, totalLen := totalLen }) (fun _ => rfl) _ _
  rw [htemplates]
  rfl

/-- The source with the new template stands first, whether it is new or not. -/
theorem ids_ensureTemplate (hnone : peer.findTemplate sourceId templateId = none)
    (h : peer.ensureTemplate limits sourceId templateId = .ok peer') :
    (∃ pre templateIds post kept, peer.ids = pre ++ (sourceId, templateIds) :: post ∧
      templateId ∉ templateIds ∧ Shortened templateIds kept ∧
      peer'.ids = (sourceId, templateId :: kept) :: (pre ++ post)) ∨
    ∃ kept, sourceId ∉ peer.ids.map Prod.fst ∧ Shortened peer.ids kept ∧
      peer'.ids = (sourceId, [templateId]) :: kept := by
  rcases ensureTemplate_cases h with
    ⟨hfound, -⟩ | ⟨peer₁, nf9src, nf9src', hsource, hlookup, hnew, rfl⟩
  · rw [hnone] at hfound
    cases hfound
  have hsourceId : nf9src.sourceId = sourceId := by simpa using List.find?_some hlookup
  obtain ⟨kept, hkept, hid, htemplates, -⟩ := PeerNf9Source.newTemplate_cases hnew
  rcases ensureSource_cases hsource with ⟨-, rfl⟩ | ⟨hlookup₀, keptSources, hsources, hnf9, -⟩
  · left
    rw [findTemplate, hlookup] at hnone
    obtain ⟨hfound, pre, post, hnf9, hpre⟩ := List.find?_eq_some_iff_append.mp hlookup
    have herase : peer₁.nf9.eraseP (·.sourceId == sourceId) = pre ++ post := by
      rw [hnf9, List.eraseP_append_right _ (fun x hx => by simpa using hpre x hx)]
      exact congrArg _ (List.eraseP_cons_of_pos hfound)
    refine ⟨ids { peer₁ with nf9 := pre }, nf9src.templates.map (·.templateId),
      ids { peer₁ with nf9 := post }, kept.map (·.templateId), ?_,
      PeerNf9Source.lookupTemplate_eq_none.mp hnone, hkept.map _, ?_⟩
    · simp only [ids, hnf9, List.map_append, List.map_cons, hsourceId]
    · simp only [ids, herase, List.map_append, List.map_cons, hid, hsourceId, htemplates]
  · right
    have hfirst : nf9src = { sourceId := sourceId } := by
      rw [lookupSource, hnf9, List.find?_cons_of_pos (by simp)] at hlookup
      exact (Option.some.inj hlookup).symm
    -- a new source has no other templates
    obtain rfl : kept = [] := by
      rw [hfirst] at hkept
      rcases hkept with hnil | hnil <;> exact hnil
    refine ⟨ids { peer with nf9 := keptSources }, ?_, hsources.map _, ?_⟩
    · rw [map_fst_ids]
      exact lookupSource_eq_none.mp hlookup₀
    · rw [hnf9, List.eraseP_cons_of_pos (by simp)]
      simp only [ids, List.map_cons, hid, hsourceId, htemplates, List.map_nil]

end PeerState

/-! ## Orderly uses -/

/-- The template stands at the head of its source's list, and the source at the head of the
peer's. -/
def AtHead (peer : PeerState) (k : UInt32 × UInt16) : Prop :=
  ∃ templateIds rest, peer.ids = (k.1, k.2 :: templateIds) :: rest

/-- A template is new, or stands at the head when it is used again. -/
def Orderly (peer : PeerState) : Use → Prop
  | .define sourceId templateId _ _ =>
    peer.findTemplate sourceId templateId = none ∨ AtHead peer (sourceId, templateId)
  | .data sourceId templateId => AtHead peer (sourceId, templateId)

/-- Whether a template stands at the head can be read off the lists. -/
theorem atHead_iff (peer : PeerState) (k : UInt32 × UInt16) :
    AtHead peer k ↔ peer.ids.head?.any (fun x => x.1 == k.1 && x.2.head? == some k.2) = true := by
  rw [AtHead]
  cases peer.ids with
  | nil => simp
  | cons x rest =>
    obtain ⟨sourceId, templateIds⟩ := x
    cases templateIds <;> simp [and_comm]

instance AtHead.decidable (peer : PeerState) (k : UInt32 × UInt16) : Decidable (AtHead peer k) :=
  decidable_of_iff' _ (atHead_iff peer k)

instance Orderly.decidable (peer : PeerState) : ∀ u : Use, Decidable (Orderly peer u)
  | .define .. => decidable_of_iff' _ (or_congr_left Option.isNone_iff_eq_none.symm)
  | .data sourceId templateId => inferInstanceAs (Decidable (AtHead peer (sourceId, templateId)))

variable {limits : PeerLimits} {peer peer' : PeerState} {history : List (UInt32 × UInt16)}

/-- A use of a template that is there leaves the lists alone. -/
theorem Use.ids_apply_of_found {u : Use} (hfound : (peer.findTemplate u.key.1 u.key.2).isSome)
    (h : u.apply limits peer = .ok peer') : peer'.ids = peer.ids := by
  cases u with
  | define sourceId templateId records totalLen =>
    have hsome : (peer.findTemplate sourceId templateId).isSome := hfound
    rw [Use.apply, PeerState.register, PeerState.ensureTemplate, if_pos hsome] at h
    cases h
    exact PeerState.ids_fillTemplate peer sourceId templateId records totalLen
  | data sourceId templateId =>
    cases h
    rfl

/-- A template that stands at the head is there. -/
theorem AtHead.found {k : UInt32 × UInt16} (h : AtHead peer k) :
    (peer.findTemplate k.1 k.2).isSome := by
  obtain ⟨templateIds, rest, hids⟩ := h
  obtain ⟨nf9src, nf9, hnf9, heq, -⟩ := List.map_eq_cons_iff.mp hids
  obtain ⟨hsource, htemplates⟩ := Prod.mk.inj heq
  obtain ⟨template, templates, hlist, htemplate, -⟩ := List.map_eq_cons_iff.mp htemplates
  have hlookup : peer.lookupSource k.1 = some nf9src := by
    rw [PeerState.lookupSource, hnf9]
    exact List.find?_cons_of_pos (by simp [hsource])
  rw [PeerState.findTemplate, hlookup, Option.bind_some, PeerNf9Source.lookupTemplate, hlist,
    List.find?_cons_of_pos (by simp [htemplate])]
  rfl

/-- An orderly use keeps the lists in the order of use, and evicts what is the least recently
used. -/
theorem Orderly.step {u : Use} (hu : Orderly peer u) (horder : Ordered history peer.ids)
    (h : u.apply limits peer = .ok peer') :
    Ordered (history ++ [u.key]) peer'.ids ∧ EvictsOldest history peer.ids peer'.ids := by
  have hagain (hhead : AtHead peer u.key) :
      Ordered (history ++ [u.key]) peer'.ids ∧ EvictsOldest history peer.ids peer'.ids := by
    rw [Use.ids_apply_of_found hhead.found h]
    obtain ⟨templateIds, rest, hids⟩ := hhead
    rw [hids] at horder ⊢
    exact ⟨horder.useHead, horder.evictsOldest_self⟩
  cases u with
  | data sourceId templateId => exact hagain hu
  | define sourceId templateId records totalLen =>
    -- a new template is a new item of its source, or the item of a new source
    rcases hu with hnone | hhead
    swap
    · exact hagain hhead
    rw [Use.apply, PeerState.register] at h
    obtain ⟨peer₁, htemplate, hfill⟩ := bind_eq_ok.mp h
    cases hfill
    rw [PeerState.ids_fillTemplate]
    rcases PeerState.ids_ensureTemplate hnone htemplate with
      ⟨pre, templateIds, post, kept, hids, hnew, hkept, hids₁⟩ | ⟨kept, hnew, hkept, hids₁⟩
    · rw [hids] at horder ⊢
      rw [hids₁]
      exact horder.newItem hnew hkept
    · rw [hids₁]
      exact horder.newGroup hnew hkept

/-- A template that is there and is used without standing at the head breaks the order. -/
theorem AtHead.of_ordered {u : Use} (hfound : (peer.findTemplate u.key.1 u.key.2).isSome)
    (h : u.apply limits peer = .ok peer') (horder : Ordered (history ++ [u.key]) peer'.ids) :
    AtHead peer u.key := by
  rw [Use.ids_apply_of_found hfound h] at horder
  obtain ⟨template, hfind⟩ := Option.isSome_iff_exists.mp hfound
  obtain ⟨nf9src, hsource, htemplate⟩ := Option.bind_eq_some_iff.mp hfind
  have hmem := List.mem_of_find?_eq_some hsource
  have hid : nf9src.sourceId = u.key.1 := by simpa using List.find?_some hsource
  have htemplateId : template.templateId = u.key.2 := by simpa using List.find?_some htemplate
  -- the source is the first one of the peer
  cases hnf9 : peer.nf9 with
  | nil =>
    rw [hnf9] at hmem
    exact absurd hmem List.not_mem_nil
  | cons first rest =>
    have hgroups := horder.groups
    rw [PeerState.map_fst_ids, hnf9, List.map_append, List.map_singleton, List.map_cons] at hgroups
    have hfirst : first.sourceId = u.key.1 := by
      apply hgroups.head_of_use
      rw [← hid, ← List.map_cons, ← hnf9]
      exact List.mem_map_of_mem hmem
    obtain rfl : first = nf9src := by
      rw [PeerState.lookupSource, hnf9, List.find?_cons_of_pos (by simp [hfirst])] at hsource
      exact Option.some.inj hsource
    -- and the template the first one of the source
    have hmem' := List.mem_of_find?_eq_some htemplate
    have hitems := horder.items _ (List.mem_map_of_mem hmem)
    cases htemplates : first.templates with
    | nil =>
      rw [htemplates] at hmem'
      exact absurd hmem' List.not_mem_nil
    | cons head templates =>
      have hhead : (first.sourceId, head.templateId) = u.key := by
        rw [RecencyList.items, htemplates, List.map_cons, List.map_cons] at hitems
        apply hitems.head_of_use
        rw [← List.map_cons, ← List.map_cons, ← htemplates]
        refine List.mem_map.mpr ⟨template.templateId, List.mem_map_of_mem hmem', ?_⟩
        exact Prod.ext hid htemplateId
      refine ⟨templates.map (·.templateId), PeerState.ids { peer with nf9 := rest }, ?_⟩
      rw [PeerState.ids, hnf9, List.map_cons, htemplates, List.map_cons, ← hhead]
      rfl

/-! ## Runs -/

/-- Every use of the run is orderly. -/
def OrderlyRun (limits : PeerLimits) : PeerState → List Use → Prop
  | _, [] => True
  | peer, u :: uses =>
    Orderly peer u ∧ ∀ peer', u.apply limits peer = .ok peer' → OrderlyRun limits peer' uses

theorem orderlyRun_cons {u : Use} {uses : List Use} (h : u.apply limits peer = .ok peer') :
    OrderlyRun limits peer (u :: uses) ↔ Orderly peer u ∧ OrderlyRun limits peer' uses := by
  rw [OrderlyRun]
  refine and_congr_right fun _ => ⟨fun hrest => hrest peer' h, fun hrest peer₁ h₁ => ?_⟩
  rwa [← Except.ok.inj (h.symm.trans h₁)]

theorem orderlyRun_cons_error {u : Use} {uses : List Use} {e : Fault}
    (h : u.apply limits peer = .error e) :
    OrderlyRun limits peer (u :: uses) ↔ Orderly peer u := by
  rw [OrderlyRun]
  refine and_iff_left fun peer₁ h₁ => ?_
  rw [h] at h₁
  cases h₁

instance OrderlyRun.decidable (limits : PeerLimits) :
    ∀ (peer : PeerState) (uses : List Use), Decidable (OrderlyRun limits peer uses)
  | _, [] => .isTrue trivial
  | peer, u :: uses =>
    match h : u.apply limits peer with
    | .error _ => decidable_of_iff' _ (orderlyRun_cons_error h)
    | .ok peer' =>
      have := OrderlyRun.decidable limits peer' uses
      decidable_of_iff' _ (orderlyRun_cons h)

/-- Whatever is evicted in the run is what has been used least recently, by the history before it
and by the uses of the run. -/
def LruRun (limits : PeerLimits) : List (UInt32 × UInt16) → PeerState → List Use → Prop
  | _, _, [] => True
  | history, peer, u :: uses => ∀ peer', u.apply limits peer = .ok peer' →
    EvictsOldest history peer.ids peer'.ids ∧ LruRun limits (history ++ [u.key]) peer' uses

/-- A run of orderly uses evicts what is the least recently used, each time. -/
theorem OrderlyRun.lruRun {uses : List Use} (huses : OrderlyRun limits peer uses)
    (horder : Ordered history peer.ids) : LruRun limits history peer uses := by
  induction uses generalizing history peer with
  | nil => exact trivial
  | cons u uses ih =>
    intro peer' hpeer'
    obtain ⟨horder', hevicts⟩ := huses.1.step horder hpeer'
    exact ⟨hevicts, ih (huses.2 peer' hpeer') horder'⟩

/-- What a run says about one of its uses. -/
theorem LruRun.evictsOldest {pre post : List Use} {u : Use} {peer₀ : PeerState}
    (h : LruRun limits history peer₀ (pre ++ u :: post))
    (hpre : applyUses limits pre peer₀ = .ok peer) (hu : u.apply limits peer = .ok peer') :
    EvictsOldest (history ++ pre.map Use.key) peer.ids peer'.ids := by
  induction pre generalizing history peer₀ with
  | nil =>
    cases hpre
    rw [List.map_nil, List.append_nil]
    exact (h peer' hu).1
  | cons v pre ih =>
    obtain ⟨peer₁, hv, hpre⟩ := foldlM_cons_ok.mp hpre
    rw [List.map_cons, List.append_cons]
    exact ih (h peer₁ hv).2 hpre

/-- The uses of templates in a sequence of datagrams from one peer, and the peer behind them. -/
inductive DatagramRun (limits : PeerLimits) : List Use → PeerState → Prop
  | start (addr : Xaddr) : DatagramRun limits [] { origin := addr }
  | datagram {done : List Use} {peer : PeerState} (h : DatagramRun limits done peer)
      (mem : Memory) (fuel : ℕ) (fp : FlowPacket) {r : PeerState × List StoreFlowComplete}
      (hr : processNetflowV9 mem limits fuel fp peer = .ok r) :
      DatagramRun limits (done ++ packetUses mem limits fuel fp peer) r.1

/-- The store of the peer is what the uses make. -/
theorem DatagramRun.madeBy {done : List Use} (h : DatagramRun limits done peer) :
    MadeBy limits done {} peer := by
  induction h with
  | start addr => exact .nil ⟨rfl, rfl⟩
  | datagram h mem fuel fp hr ih => exact ih.append (processNetflowV9_uses hr)

/-- With orderly uses only, whatever `peer_nf9_new_template` and `peer_nf9_new_source` evict is what
has been used least recently, over the datagrams that have been processed and the one that is being
processed. -/
theorem evicts_least_recently_used {limits : PeerLimits} {done : List Use} {peer : PeerState}
    (h : DatagramRun limits done peer) (mem : Memory) (fuel : ℕ) (fp : FlowPacket)
    (horderly : OrderlyRun limits {} (done ++ packetUses mem limits fuel fp peer)) :
    MadeBy limits done {} peer ∧
      LruRun limits [] {} (done ++ packetUses mem limits fuel fp peer) :=
  ⟨h.madeBy, horderly.lruRun .nil⟩

/-- A template of one field of four bytes, as in a template flowset. -/
def templateBytes (templateId : UInt8) : List UInt8 := [1, templateId, 0, 1, 0, 1, 0, 4]

/-- A datagram with the templates 256 to 263. -/
def eightTemplates : FlowPacket :=
  { packet := [0, 9] ++ List.replicate 18 0 ++
      ([0, 0, 0, 68] ++ [0, 1, 2, 3, 4, 5, 6, 7].flatMap templateBytes) }

/-- A datagram with a data flowset for the template 263, and the template 264. -/
def ninthTemplate : FlowPacket :=
  { packet := [0, 9] ++ List.replicate 18 0 ++ [1, 7, 0, 8, 0, 0, 0, 0] ++
      ([0, 0, 0, 12] ++ templateBytes 8) }

/-- The uses of the first datagram. -/
def eightUses : List Use :=
  [256, 257, 258, 259, 260, 261, 262, 263].map fun templateId => .define 0 templateId [⟨1, 4⟩] 4

/-- The uses of the second one. -/
def ninthUses : List Use := [.data 0 263, .define 0 264 [⟨1, 4⟩] 4]

/-- In two datagrams with orderly uses the template 264 evicts the template 256, which has been used
least recently. -/
theorem evicts_least_recently_used_ninthTemplate :
    ∃ peer before after : PeerState, DatagramRun {} eightUses peer ∧
      packetUses .checked {} 40 ninthTemplate peer = ninthUses ∧
      LruRun {} [] {} (eightUses ++ ninthUses) ∧
      applyUses {} (eightUses ++ [.data 0 263]) {} = .ok before ∧
      (Use.define 0 264 [⟨1, 4⟩] 4).apply {} before = .ok after ∧
      before.ids = [(0, [263, 262, 261, 260, 259, 258, 257, 256])] ∧
      after.ids = [(0, [264, 263, 262, 261, 260, 259, 258, 257])] ∧
      EvictsOldest ((eightUses ++ [Use.data 0 263]).map Use.key) before.ids after.ids := by
  obtain ⟨r, hr, huses⟩ : ∃ r, processNetflowV9 .checked {} 88 eightTemplates {} = .ok r ∧
      packetUses .checked {} 40 ninthTemplate r.1 = ninthUses := ⟨_, rfl, by decide +kernel⟩
  have hfirst : packetUses .checked {} 88 eightTemplates {} = eightUses := by decide +kernel
  have hrun : DatagramRun {} eightUses r.1 := by
    have hstep := (DatagramRun.start {}).datagram .checked 88 eightTemplates hr
    rwa [List.nil_append, hfirst] at hstep
  have horderly : OrderlyRun {} {} (eightUses ++ packetUses .checked {} 40 ninthTemplate r.1) := by
    rw [huses]
    decide +kernel
  have hlru := (evicts_least_recently_used hrun .checked 40 ninthTemplate horderly).2
  rw [huses] at hlru
  obtain ⟨before, after, hbefore, hafter, hids, hids'⟩ : ∃ before after,
      applyUses {} (eightUses ++ [.data 0 263]) {} = .ok before ∧
      (Use.define 0 264 [⟨1, 4⟩] 4).apply {} before = .ok after ∧
      before.ids = [(0, [263, 262, 261, 260, 259, 258, 257, 256])] ∧
      after.ids = [(0, [264, 263, 262, 261, 260, 259, 258, 257])] :=
    ⟨_, _, rfl, rfl, by decide +kernel, by decide +kernel⟩
  -- the last use of all is the one that evicts
  have hsplit : eightUses ++ ninthUses =
      (eightUses ++ [.data 0 263]) ++ .define 0 264 [⟨1, 4⟩] 4 :: [] := by
    rw [List.append_assoc]
    rfl
  have hevicts := LruRun.evictsOldest (hsplit ▸ hlru) hbefore hafter
  exact ⟨r.1, before, after, hrun, huses, hlru, hbefore, hafter, hids, hids', hevicts⟩

/-- A datagram with the templates 256 to 263, a data flowset for the template 256, and the template
264. -/
def nineTemplates : FlowPacket :=
  { packet := [0, 9] ++ List.replicate 18 0 ++
      ([0, 0, 0, 68] ++ [0, 1, 2, 3, 4, 5, 6, 7].flatMap templateBytes) ++
      [1, 0, 0, 8, 0, 0, 0, 0] ++ ([0, 0, 0, 12] ++ templateBytes 8) }

/-- The uses of the datagram in front of the last template. -/
def usesBefore : List Use :=
  ([256, 257, 258, 259, 260, 261, 262, 263].map fun templateId =>
    .define 0 templateId [⟨1, 4⟩] 4) ++ [.data 0 256]

/-- The template 264 evicts the template 256, which the data flowset has just used. -/
theorem evicts_in_use :
    ¬ ∀ (limits : PeerLimits) (done : List Use) (peer : PeerState), DatagramRun limits done peer →
      ∀ (mem : Memory) (fuel : ℕ) (fp : FlowPacket),
        LruRun limits [] {} (done ++ packetUses mem limits fuel fp peer) := by
  intro hall
  have hrun := hall {} [] {} (.start {}) .checked 108 nineTemplates
  have huses : packetUses .checked {} 108 nineTemplates {} =
      usesBefore ++ [.define 0 264 [⟨1, 4⟩] 4] := by decide +kernel
  rw [huses, List.nil_append] at hrun
  obtain ⟨peer, peer', hpeer, hpeer', hids, hids'⟩ : ∃ peer peer',
      applyUses {} usesBefore {} = .ok peer ∧
      (Use.define 0 264 [⟨1, 4⟩] 4).apply {} peer = .ok peer' ∧
      peer.ids = [(0, [263, 262, 261, 260, 259, 258, 257, 256])] ∧
      peer'.ids = [(0, [264, 263, 262, 261, 260, 259, 258, 257])] :=
    ⟨_, _, rfl, rfl, by decide +kernel, by decide +kernel⟩
  have hevicts := hrun.evictsOldest hpeer hpeer'
  rw [hids, hids'] at hevicts
  have hold := hevicts.items _ (List.mem_singleton_self _) _ (List.mem_singleton_self _) rfl 256
    (by decide) (by decide) 257 (by decide) (by decide)
  have hlast : Older ([] ++ usesBefore.map Use.key) ((0 : UInt32), (257 : UInt16)) (0, 256) :=
    older_append_self ([256, 257, 258, 259, 260, 261, 262, 263].map fun templateId =>
      (0, templateId)) (by decide)
  exact hold.asymm hlast

end Flowd
