import Mathlib.Algebra.BigOperators.Group.List.Basic
import Mathlib.Data.Rat.Floor
import Mathlib.Data.UInt
import NetworkMonitoring.Foundations.CText

/-!
# Estimation — monitors, reports and results

The data of `GlobalEstimation.c` and its functions on one flow: `Add_calcul` scales a report up by
the sampling rate of its monitor, and `Add_result` combines the reports of one flow into a result
and notes an observation at each monitor that has reported it. A `double` is an exact rational
here; a quotient of which C would make an infinity is 0.
-/

namespace Estimation

open CText

/-- `NOMBRE_MONITEURS`. -/
def nombreMoniteurs : ℕ := 97

/-- `NOMBRE_AS`. -/
def nombreAs : ℕ := 23

/-- What keeps a call from returning. -/
inductive Fault where
  /-- An array or a list is read outside of its bounds. -/
  | outside
  /-- A NULL or dangling pointer is followed. -/
  | pointer
  deriving DecidableEq, Repr

/-- The conversion of a `double` to an `int`. -/
def truncate (x : ℚ) : ℤ := if 0 ≤ x then ⌊x⌋ else ⌈x⌉

/-- The conversion of a `double` to a `u_int64_t`. -/
def toU64 (x : ℚ) : UInt64 := UInt64.ofNat (truncate x).toNat

/-- What a `struct f_list` reports. -/
structure Report where
  agentAddr : Text
  srcAddr : Text
  dstAddr : Text
  gatewayAddr : Text := []
  srcPort : UInt16
  dstPort : UInt16
  flowPackets : UInt64 := 0
  flowOctets : UInt64 := 0
  protocol : UInt8
  srcAs : UInt32
  dstAs : UInt32
  deriving DecidableEq

/-- `struct monitor_observation`. -/
structure MonitorObservation where
  used : Bool := false
  agentAddr : Text
  srcAddr : Text
  dstAddr : Text
  srcPort : UInt16
  dstPort : UInt16
  protocol : UInt8
  srcAs : UInt32
  dstAs : UInt32
  sF : UInt64
  alphaF : ℚ
  rapportNumberF : ℤ
  deriving DecidableEq

/-- `struct un_moniteur`. -/
structure UnMoniteur where
  samplingRate : ℚ
  adresse : Text
  lesObservations : List MonitorObservation := []
  deriving DecidableEq

/-- `les_moniteurs`. -/
abbrev LesMoniteurs := Fin nombreMoniteurs → UnMoniteur

/-- The monitors in the order of the loops. -/
def moniteurs : List (Fin nombreMoniteurs) := List.finRange nombreMoniteurs

/-- The loop that looks for the monitor of an address. -/
def LesMoniteurs.find (ms : LesMoniteurs) (s : Text) : Option (Fin nombreMoniteurs) :=
  moniteurs.find? fun i => (ms i).adresse == s

/-- `samling_rate`; it does not stop at the end of the array. -/
def samlingRate (ms : LesMoniteurs) (s : Text) : Except Fault ℚ :=
  match ms.find s with
  | some i => .ok (ms i).samplingRate
  | none => .error .outside

/-! ## The reports of a flow -/

/-- `struct calcul_list`. -/
structure CalculList where
  estimatedByteNumber : UInt64
  estimatedPacketNumber : UInt64
  variance : ℚ
  sRate : ℚ
  flow : Report
  deriving DecidableEq

/-- `Add_calcul`. -/
def addCalcul (ms : LesMoniteurs) (tete : List CalculList) (flow : Report) :
    Except Fault (List CalculList) := do
  let p ← samlingRate ms flow.agentAddr
  let octet := toU64 (flow.flowOctets.toNat / p)
  let packet := toU64 (flow.flowPackets.toNat / p)
  let varianc := (packet.toNat * (1 - p)) / p
  return tete ++ [{ estimatedByteNumber := octet, estimatedPacketNumber := packet
                    variance := varianc, sRate := p, flow := flow }]

/-- `Add_observation`; it does not stop at the end of the array either. -/
def addObservation (ms : LesMoniteurs) (flow : Report) (nPackets : UInt64) (alfa : ℚ)
    (rapports : ℤ) : Except Fault LesMoniteurs :=
  match ms.find flow.agentAddr with
  | none => .error .outside
  | some indice => .ok (Function.update ms indice { ms indice with
      lesObservations := (ms indice).lesObservations ++ [{
        agentAddr := flow.agentAddr, srcAddr := flow.srcAddr, dstAddr := flow.dstAddr
        srcPort := flow.srcPort, dstPort := flow.dstPort, protocol := flow.protocol
        srcAs := flow.srcAs, dstAs := flow.dstAs
        sF := nPackets, alphaF := alfa, rapportNumberF := rapports }] })

/-! ## Results -/

/-- `struct result_list`. -/
structure ResultList where
  rapportNumber : ℤ
  alphaFlow : ℚ
  byteNumber : UInt64 := 0
  packetNumber : UInt64
  flowVariance : ℚ
  deriving DecidableEq

/-- What `Add_result` changes: the monitors, and the paths and the results of the AS pairs. -/
structure Estimator where
  lesMoniteurs : LesMoniteurs
  chemin : UInt32 → UInt32 → Option (List Text) := fun _ _ => none
  result : UInt32 → UInt32 → List ResultList := fun _ _ => []

/-- The part of `alpha` of one interface of the path; an unknown interface has none. -/
def alphaPart (ms : LesMoniteurs) (interface : Text) : ℚ :=
  match ms.find interface with
  | some indice => (ms indice).samplingRate / (1 - (ms indice).samplingRate)
  | none => 0

/-- `Add_result`; `path` is what `SendPathRequestPacket` and `Add_path` return, which is a path
with an interface. -/
def addResult (path : UInt32 → UInt32 → List Text) (st : Estimator) (calcul : List CalculList) :
    Except Fault Estimator :=
  match calcul with
  | [] => .error .pointer
  | cl :: _ =>
    let as1 := cl.flow.srcAs
    let as2 := cl.flow.dstAs
    -- the AS numbers are taken from the first report only
    if as1 < 1 ∨ UInt32.ofNat nombreAs < as1 ∨ as2 < 1 ∨ UInt32.ofNat nombreAs < as2 then .ok st
    else do
      -- a path is asked for once for each pair
      let cc := (st.chemin as1 as2).getD (path as1 as2)
      let alpha := (cc.map (alphaPart st.lesMoniteurs)).sum
      let packet := (calcul.map fun cl =>
        (cl.estimatedPacketNumber.toNat : ℚ) * (cl.sRate / (1 - cl.sRate))).sum
      let gPacket := toU64 (packet / alpha)
      let varianc := packet / (alpha * alpha)
      let ms ← calcul.foldlM (fun ms cl2 => addObservation ms cl2.flow gPacket alpha 1)
        st.lesMoniteurs
      let pNouveau : ResultList := {
        rapportNumber := calcul.length, alphaFlow := alpha, packetNumber := gPacket
        flowVariance := varianc }
      return {
        lesMoniteurs := ms
        chemin := Function.update st.chemin as1 (Function.update (st.chemin as1) as2 (some cc))
        result := Function.update st.result as1
          (Function.update (st.result as1) as2 (st.result as1 as2 ++ [pNouveau])) }

end Estimation
