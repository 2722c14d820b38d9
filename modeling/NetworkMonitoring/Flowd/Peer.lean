import NetworkMonitoring.Flowd.Store

/-!
# flowd — the state kept for an exporter

`struct peer_state` of `peer.h` with its NetFlow v9 sources and templates, and the functions of
`peer.c` on one peer. Both queues are the lists of their elements, first element first. A use of
memory that C leaves undefined ends a call in a `Fault`, as does the end of the process.
-/

namespace Flowd

/-- What keeps a call from returning. -/
inductive Fault where
  /-- Bytes behind the received packet are read. -/
  | overread
  /-- A field of the record is written outside its bounds. -/
  | fieldOverflow
  | divByZero
  /-- A NULL pointer is followed. -/
  | pointer
  /-- `logerrx` ends the process. -/
  | exit
  /-- A loop does not end. -/
  | noReturn
  deriving DecidableEq, Repr

/-- `struct peer_nf9_record`. -/
structure PeerNf9Record where
  type : ℕ
  len : ℕ
  deriving DecidableEq, Repr

/-- `struct peer_nf9_template`; `records` is `none` until the template is filled in. -/
structure PeerNf9Template where
  templateId : UInt16
  records : Option (List PeerNf9Record) := none
  totalLen : ℕ := 0
  deriving DecidableEq, Repr

/-- `struct peer_nf9_source`. -/
structure PeerNf9Source where
  sourceId : UInt32
  numTemplates : ℕ := 0
  templates : List PeerNf9Template := []
  deriving DecidableEq, Repr

/-- `struct peer_state`. -/
structure PeerState where
  origin : Xaddr := {}
  npackets : UInt64 := 0
  nflows : UInt64 := 0
  ninvalid : UInt64 := 0
  noTemplate : UInt64 := 0
  lastVersion : ℕ := 0
  nf9 : List PeerNf9Source := []
  nf9NumSources : ℕ := 0
  deriving DecidableEq

/-- The limits of `struct peers`. The default values are those of `init_peers`. -/
structure PeerLimits where
  maxPeers : ℕ := 128
  maxTemplates : ℕ := 8
  maxSources : ℕ := 64
  maxTemplateLen : ℕ := 1024
  deriving DecidableEq, Repr

namespace PeerNf9Source

/-- `peer_nf9_lookup_template`. -/
def lookupTemplate (nf9src : PeerNf9Source) (templateId : UInt16) :
    Option PeerNf9Template :=
  nf9src.templates.find? (·.templateId == templateId)

/-- Add a template at the head of a source's list. -/
def newTemplate (nf9src : PeerNf9Source) (limits : PeerLimits)
    (templateId : UInt16) : Except Fault PeerNf9Source :=
  -- If the source has too many templates, then kick out the LRU
  if nf9src.numTemplates + 1 > limits.maxTemplates then
    if nf9src.templates = [] then .error .pointer
    else .ok { nf9src with templates := { templateId := templateId } :: nf9src.templates.dropLast }
  else .ok { nf9src with
    numTemplates := nf9src.numTemplates + 1
    templates := { templateId := templateId } :: nf9src.templates }

/-- Fill in the records of a template of a source. -/
def fillTemplate (nf9src : PeerNf9Source) (templateId : UInt16) (records : List PeerNf9Record)
    (totalLen : ℕ) : PeerNf9Source :=
  let fill (template : PeerNf9Template) : PeerNf9Template :=
    { template with records := some records, totalLen := totalLen }
  let index := nf9src.templates.findIdx (·.templateId == templateId)
  { nf9src with templates := nf9src.templates.modify index fill }

end PeerNf9Source

namespace PeerState

/-- The part of `update_peer` that concerns the peer itself. -/
def update (peer : PeerState) (nflows version : ℕ) : PeerState :=
  { peer with
    nflows := peer.nflows + UInt64.ofNat nflows
    npackets := peer.npackets + 1
    lastVersion := version }

/-- Count an invalid packet. -/
def invalid (peer : PeerState) : PeerState := { peer with ninvalid := peer.ninvalid + 1 }

/-! ## NetFlow v9 templates -/

/-- `peer_nf9_lookup_source`. -/
def lookupSource (peer : PeerState) (sourceId : UInt32) : Option PeerNf9Source :=
  peer.nf9.find? (·.sourceId == sourceId)

/-- `peer_nf9_find_template`. -/
def findTemplate (peer : PeerState) (sourceId : UInt32) (templateId : UInt16) :
    Option PeerNf9Template :=
  (peer.lookupSource sourceId).bind (·.lookupTemplate templateId)

/-- `peer_nf9_new_source`. The new source is the first one of the list. -/
def newSource (peer : PeerState) (limits : PeerLimits) (sourceId : UInt32) :
    Except Fault PeerState :=
  -- If we have too many sources, then kick out the LRU
  if peer.nf9NumSources + 1 > limits.maxSources then
    if peer.nf9 = [] then .error .pointer
    else .ok { peer with nf9 := { sourceId := sourceId } :: peer.nf9.dropLast }
  else .ok { peer with
    nf9NumSources := peer.nf9NumSources + 1
    nf9 := { sourceId := sourceId } :: peer.nf9 }

/-- The source with an id, which is created if there is none. -/
def ensureSource (peer : PeerState) (limits : PeerLimits) (sourceId : UInt32) :
    Except Fault PeerState :=
  if (peer.lookupSource sourceId).isSome then .ok peer else peer.newSource limits sourceId

/-- `peer_nf9_new_template`. -/
def newTemplate (peer : PeerState) (limits : PeerLimits) (sourceId : UInt32)
    (templateId : UInt16) : Except Fault PeerState := do
  let peer ← peer.ensureSource limits sourceId
  match peer.lookupSource sourceId with
  | none => .error .pointer
  | some nf9src =>
    let nf9src ← nf9src.newTemplate limits templateId
    -- Move source and template to the head of the list
    return { peer with nf9 := nf9src :: peer.nf9.eraseP (·.sourceId == sourceId) }

/-- The template with an id, which is created if there is none. -/
def ensureTemplate (peer : PeerState) (limits : PeerLimits) (sourceId : UInt32)
    (templateId : UInt16) : Except Fault PeerState :=
  if (peer.findTemplate sourceId templateId).isSome then .ok peer
  else peer.newTemplate limits sourceId templateId

/-- Fill in the records of a template that is in the list. -/
def fillTemplate (peer : PeerState) (sourceId : UInt32) (templateId : UInt16)
    (records : List PeerNf9Record) (totalLen : ℕ) : PeerState :=
  let source := peer.nf9.findIdx (·.sourceId == sourceId)
  { peer with nf9 := peer.nf9.modify source (·.fillTemplate templateId records totalLen) }

end PeerState

end Flowd
