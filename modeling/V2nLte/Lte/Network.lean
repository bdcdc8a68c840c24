import V2nLte.Lte.Binder
import V2nLte.Machine.Basic
import Mathlib.Algebra.Order.Field.Rat

/-!
# UEs, eNBs and handovers

The parts of a LTE network that a handover touches: the binder, the AMC and the cell info of the
eNBs, their IP2lte modules, and of every UE its PHY (`masterId`, the candidate and its signal
strength, the handover timers), its MAC (`cellId`) and its IP2lte module (`ueHold`).

`lte` is the network as an event machine.  A UE that hears a stronger eNB starts
`triggerHandover` shortly after; `doHandover` follows when the handover latency is over.  Both
can be left early, and the outputs say through which `return` (`HandoverReturn`).

Left out are the buffers of the LTE stack (`deleteOldBuffers`), the feedback histories and the
positions kept beside the tables that are modelled.  A run is followed as long as the 16-bit node
ids are not given out twice.
-/

namespace V2nLte

/-! ### The AMC of an eNB -/

/-- The users of an AMC in one direction. -/
structure AmcUsers where
  /-- The UEs that are, or have been, attached. -/
  connectedUe : MacNodeId → Option Bool
  /-- Their indices. -/
  nodeIndex : MacNodeId → Option ℕ
  /-- The UEs by index. -/
  revNodeIndex : List MacNodeId
  /-- Every UE with an entry has an index. -/
  known : ∀ n, (connectedUe n).isSome = (nodeIndex n).isSome

namespace AmcUsers

/-- The users at the start: the UEs that the binder has deployed at the eNB. -/
def deployed (row : MacNodeId → Option Bool) : AmcUsers where
  connectedUe := row
  nodeIndex n :=
    if (row n).isSome then
      some (((List.finRange 65536).filter fun k => (row k).isSome).idxOf n)
    else none
  revNodeIndex := (List.finRange 65536).filter fun k => (row k).isSome
  known n := by split <;> simp_all

/-- The UE is attached. -/
def attached (a : AmcUsers) (n : MacNodeId) : Prop := a.connectedUe n = some true

theorem update_known {a : AmcUsers} {n : MacNodeId} (v : Bool) (hn : (a.nodeIndex n).isSome = true)
    (k : MacNodeId) :
    (Function.update a.connectedUe n (some v) k).isSome = (a.nodeIndex k).isSome := by
  by_cases hk : k = n
  · subst hk; simp [hn]
  · simpa [hk] using a.known k

/-- `LteAmc::detachUser`; a UE that was never here is ignored. -/
def detachUser (a : AmcUsers) (n : MacNodeId) : AmcUsers :=
  if hn : (a.nodeIndex n).isSome = true then
    { a with
      connectedUe := Function.update a.connectedUe n (some false)
      known := update_known false hn }
  else a

/-- `LteAmc::attachUser`; a UE that was never here gets a new index. -/
def attachUser (a : AmcUsers) (n : MacNodeId) : AmcUsers :=
  if hn : (a.connectedUe n).isSome = true then
    { a with
      connectedUe := Function.update a.connectedUe n (some true)
      known := update_known true (a.known n ▸ hn) }
  else
    { connectedUe := Function.update a.connectedUe n (some true)
      nodeIndex := Function.update a.nodeIndex n (some a.revNodeIndex.length)
      revNodeIndex := a.revNodeIndex ++ [n]
      known := fun k => by
        by_cases hk : k = n
        · subst hk; simp
        · simpa [hk] using a.known k }

theorem attached_attachUser {a : AmcUsers} {n k : MacNodeId} :
    (a.attachUser n).attached k ↔ k = n ∨ a.attached k := by
  have htable : (a.attachUser n).connectedUe = Function.update a.connectedUe n (some true) := by
    unfold attachUser
    split <;> rfl
  unfold attached
  rw [htable]
  by_cases hk : k = n
  · subst hk; simp
  · simp [hk]

theorem attached_detachUser {a : AmcUsers} {n k : MacNodeId} :
    (a.detachUser n).attached k ↔ k ≠ n ∧ a.attached k := by
  unfold detachUser
  split
  · by_cases hk : k = n
    · subst hk; simp [attached]
    · simp [attached, hk]
  · rename_i hn
    -- without an index there is no entry either
    refine ⟨fun h => ⟨fun hk => ?_, h⟩, fun h => h.2⟩
    subst hk
    rw [← a.known k, show a.connectedUe k = some true from h] at hn
    exact hn rfl

end AmcUsers

/-- The AMC. -/
structure Amc where
  /-- Uplink users. -/
  ul : AmcUsers
  /-- Downlink users. -/
  dl : AmcUsers

namespace Amc

/-- Detach a UE in one direction. -/
def detachUser (a : Amc) (n : MacNodeId) : Direction → Amc
  | .UL => { a with ul := a.ul.detachUser n }
  | .DL => { a with dl := a.dl.detachUser n }

/-- Attach a UE in one direction. -/
def attachUser (a : Amc) (n : MacNodeId) : Direction → Amc
  | .UL => { a with ul := a.ul.attachUser n }
  | .DL => { a with dl := a.dl.attachUser n }

/-- Detach a UE in both directions. -/
def detachBoth (n : MacNodeId) (a : Amc) : Amc := (a.detachUser n .UL).detachUser n .DL

/-- Attach a UE in both directions. -/
def attachBoth (n : MacNodeId) (a : Amc) : Amc := (a.attachUser n .UL).attachUser n .DL

end Amc

/-! ### Modules -/

/-- The cell info of an eNB: the UEs with an entry in `lambdaMap_`. -/
structure CellInfo where
  /-- The UE has an entry. -/
  lambdaMap : MacNodeId → Bool := fun _ => false

/-- The MAC of an eNB. -/
structure EnbMac where
  /-- Its AMC. -/
  amc : Option Amc

/-- The network card of an eNB. -/
structure EnbNic where
  /-- The module `mac`, if it is the MAC of an eNB. -/
  mac : Option EnbMac
  /-- The module `ip2lte`. -/
  ip2lte : Option IP2lte

/-- The module of an eNB. -/
structure EnbModule where
  /-- Its network card. -/
  lteNic : Option EnbNic
  /-- Its cell info. -/
  cellInfo : Option CellInfo

namespace EnbModule

/-- The AMC behind the network card and the MAC. -/
def amc (m : EnbModule) : Option Amc := (m.lteNic.bind EnbNic.mac).bind EnbMac.amc

/-- Change the AMC. -/
def mapAmc (f : Amc → Amc) (m : EnbModule) : EnbModule :=
  { m with lteNic := m.lteNic.map fun nic =>
      { nic with mac := nic.mac.map fun mac => { mac with amc := mac.amc.map f } } }

/-- Change the entry of a UE in the cell info. -/
def setLambda (n : MacNodeId) (v : Bool) (m : EnbModule) : EnbModule :=
  { m with cellInfo := m.cellInfo.map fun c =>
      { c with lambdaMap := Function.update c.lambdaMap n v } }

/-- Change the IP2lte module. -/
def setIp2lte (ip2lte : IP2lte) (m : EnbModule) : EnbModule :=
  { m with lteNic := m.lteNic.map fun nic => { nic with ip2lte := some ip2lte } }

@[simp] theorem amc_mapAmc (f : Amc → Amc) (m : EnbModule) : (m.mapAmc f).amc = m.amc.map f := by
  obtain ⟨_ | ⟨_ | mac, ip⟩, cellInfo⟩ := m <;> rfl

@[simp] theorem amc_setLambda (n : MacNodeId) (v : Bool) (m : EnbModule) :
    (m.setLambda n v).amc = m.amc := rfl

@[simp] theorem amc_setIp2lte (ip2lte : IP2lte) (m : EnbModule) :
    (m.setIp2lte ip2lte).amc = m.amc := by
  obtain ⟨_ | nic, cellInfo⟩ := m <;> rfl

end EnbModule

/-- A UE: its PHY, its MAC and its IP2lte module. -/
structure Ue where
  /-- `enableHandover_`. -/
  enableHandover : Bool
  /-- The serving eNB, for the PHY. -/
  masterId : MacNodeId
  /-- The strongest eNB heard. -/
  candidateMasterId : MacNodeId
  /-- Signal strength of the serving eNB. -/
  currentMasterRssi : ℚ
  /-- Signal strength of the candidate. -/
  candidateMasterRssi : ℚ
  /-- By how much another eNB has to be stronger. -/
  hysteresisTh : ℚ := 0
  /-- The message `handoverStarter` is scheduled. -/
  handoverStarter : Bool := false
  /-- The message `handoverTrigger` is scheduled. -/
  handoverTrigger : Bool := false
  /-- The module whose cell info `cellInfo_` points to. -/
  cellInfo : Option OmnetId := none
  /-- The serving eNB, for the MAC. -/
  cellId : MacNodeId
  /-- IP2lte holds the packets from IP. -/
  ueHold : Bool := false
  /-- The packets held. -/
  ueHoldFromIp : List Packet := []
  deriving DecidableEq

/-- The network. -/
structure LteNet where
  /-- The binder. -/
  binder : LteBinder := {}
  /-- The modules of the eNBs. -/
  modules : OmnetId → Option EnbModule := fun _ => none
  /-- The module id given out last. -/
  lastOmnetId : OmnetId := 0
  /-- The UEs. -/
  ues : MacNodeId → Option Ue := fun _ => none

/-- How `triggerHandover` and `doHandover` are left. -/
inductive HandoverReturn where
  /-- `triggerHandover` has scheduled `doHandover`. -/
  | scheduled
  /-- `triggerHandover`: the module of the source eNB is gone. -/
  | sourceModuleGone
  /-- `doHandover`: the candidate is not an eNB. -/
  | candidateNotEnb
  /-- `doHandover`: the candidate has no AMC. -/
  | candidateAmcMissing
  /-- `doHandover`: the module of the candidate is gone. -/
  | candidateModuleGone
  /-- `doHandover`: the MAC of the candidate is missing. -/
  | candidateMacMissing
  /-- `doHandover`: the cell info of the candidate is missing. -/
  | candidateCellInfoMissing
  /-- `doHandover` has come to its end. -/
  | completed
  deriving DecidableEq

/-- The handover was given up. -/
def HandoverReturn.aborted : HandoverReturn → Bool
  | .scheduled | .completed => false
  | _ => true

/-- What the network puts out. -/
inductive LteOut where
  /-- An output of the IP2lte module of an eNB. -/
  | enb (id : MacNodeId) (o : EnbOut)
  /-- A packet for the LTE stack of a UE. -/
  | toStackUe (u : MacNodeId) (pkt : Packet)
  /-- The UE's `triggerHandover` or `doHandover` has returned. -/
  | handover (u : MacNodeId) (r : HandoverReturn)
  deriving DecidableEq

namespace LteNet

variable (s : LteNet)

/-- `getSimulation()->getModule(id)`, for the modules of eNBs. -/
def getModule (id : OmnetId) : Option EnbModule := if id = 0 then none else s.modules id

/-- `LtePhyBase::getAmcModule`. -/
def getAmcModule (id : MacNodeId) : Option Amc :=
  if s.binder.getOmnetId id = 0 then none
  else if getNodeTypeById id ≠ .ENODEB then none
  else (s.getModule (s.binder.getOmnetId id)).bind EnbModule.amc

/-- Change the module of an eNB. -/
def modifyModule (id : OmnetId) (f : EnbModule → EnbModule) : LteNet :=
  { s with modules := Function.update s.modules id ((s.modules id).map f) }

/-- Change the AMC that `getAmcModule` finds, if there is one. -/
def modifyAmc (id : MacNodeId) (f : Amc → Amc) : LteNet :=
  if (s.getAmcModule id).isSome then s.modifyModule (s.binder.getOmnetId id) (.mapAmc f) else s

/-- Change the entry of a UE in the cell info that it points to. -/
def setLambda (cellInfo : Option OmnetId) (u : MacNodeId) (v : Bool) : LteNet :=
  match cellInfo with
  | none => s
  | some id => s.modifyModule id (.setLambda u v)

/-- Change a UE. -/
def setUe (u : MacNodeId) (ue : Ue) : LteNet :=
  { s with ues := Function.update s.ues u (some ue) }

/-- Change the binder. -/
def setBinder (b : LteBinder) : LteNet := { s with binder := b }

/-! ### Registration and departure -/

end LteNet

/-- The parts that a new eNB has besides its network card and IP2lte module. -/
structure EnbParts where
  /-- The MAC. -/
  mac : Bool := true
  /-- The AMC. -/
  amc : Bool := true
  /-- The cell info. -/
  cellInfo : Bool := true
  /-- The handover manager. -/
  handoverManager : Bool := true

namespace LteNet

variable (s : LteNet)

/-- The module of a new eNB; its AMC starts with the UEs deployed at the eNB. -/
def newEnb (parts : EnbParts) (row : MacNodeId → Option Bool) : EnbModule where
  lteNic := some
    { mac := if parts.mac then
          some ⟨if parts.amc then some ⟨.deployed row, .deployed row⟩ else none⟩
        else none
      ip2lte := some { hoManager := parts.handoverManager } }
  cellInfo := if parts.cellInfo then some {} else none

/-- A new eNB enters the network. -/
def registerEnb (parts : EnbParts) : LteNet :=
  let omnetId := s.lastOmnetId + 1
  let (b, id) := s.binder.registerNode omnetId .ENODEB 0
  { s with
    binder := b
    modules := Function.update s.modules omnetId (some (newEnb parts (b.dMap id)))
    lastOmnetId := omnetId }

/-- The cell info that a UE points to: that of the module of its next hop. -/
def getCellInfo (u : MacNodeId) : Option OmnetId :=
  match s.binder.getNextHop u with
  | none => none
  | some id =>
    let omnetId := s.binder.getOmnetId id
    if ((s.getModule omnetId).bind EnbModule.cellInfo).isSome then some omnetId else none

/-- The part of `LteMacUe::initialize` that attaches the UE to its eNB. -/
def attachNewUe (u master : MacNodeId) (address : Ipv4Address) : LteNet :=
  let omnetId := s.binder.getOmnetId master
  if ((s.getModule omnetId).bind EnbModule.amc).isSome then
    (s.modifyModule omnetId (.mapAmc (Amc.attachBoth u))).setBinder
      (s.binder.setMacNodeId address u)
  else s

/-- A new UE enters the network with the serving eNB `master`, heard with strength `rssi`. -/
def registerUe (master : MacNodeId) (rssi : ℚ) (enableHandover : Bool) (address : Ipv4Address) :
    LteNet :=
  let omnetId := s.lastOmnetId + 1
  let (b, u) := s.binder.registerNode omnetId .UE master
  let s := { s with binder := b, lastOmnetId := omnetId }
  let s := s.attachNewUe u master address
  let cellInfo := s.getCellInfo u
  (s.setLambda cellInfo u true).setUe u
    { enableHandover := enableHandover
      masterId := master
      candidateMasterId := master
      currentMasterRssi := rssi
      candidateMasterRssi := rssi
      cellInfo := cellInfo
      cellId := master }

/-- `LtePhyUe::finish` during the simulation, and the deletion of the UE. -/
def finishUe (u : MacNodeId) (ue : Ue) : LteNet :=
  let s := s.modifyAmc ue.masterId (Amc.detachBoth u)
  let s := s.setBinder (s.binder.unregisterNextHop ue.masterId u)
  let s := s.setLambda ue.cellInfo u false
  { s with ues := Function.update s.ues u none }

/-- The module of an eNB is deleted. -/
def deleteEnb (id : MacNodeId) : LteNet :=
  { s with modules := Function.update s.modules (s.binder.getOmnetId id) none }

/-! ### Handover -/

/-- `hysteresisFactor_`. -/
def hysteresisFactor : ℚ := 10

/-- The hysteresis for a signal of strength `v`. -/
def updateHysteresisTh (v : ℚ) : ℚ := if hysteresisFactor = 0 then 0 else v / hysteresisFactor

/-- `handoverHandler`: a UE hears a broadcast of the node `src`. -/
def handoverHandler (ue : Ue) (src : MacNodeId) (rssi : ℚ) : Ue :=
  if !ue.enableHandover then ue
  else if ue.candidateMasterRssi + ue.hysteresisTh < rssi then
    if src = ue.masterId then
      { ue with
        currentMasterRssi := rssi, candidateMasterId := ue.masterId
        candidateMasterRssi := rssi, hysteresisTh := updateHysteresisTh rssi
        handoverStarter := false }
    else if getNodeTypeById src ≠ .ENODEB then ue
    else
      { ue with
        candidateMasterId := src, candidateMasterRssi := rssi
        hysteresisTh := updateHysteresisTh rssi, handoverStarter := true }
  else if src = ue.masterId then
    { ue with
      currentMasterRssi := rssi, candidateMasterRssi := rssi
      hysteresisTh := updateHysteresisTh rssi }
  else ue

/-- `handleAirFrame` for broadcasts: those of nodes that have left and those that come during a
handover are ignored. -/
def hearBroadcast (ue : Ue) (src : MacNodeId) (rssi : ℚ) : Ue :=
  if s.binder.getOmnetId src = 0 then ue
  else if ue.handoverTrigger then ue
  else handoverHandler ue src rssi

/-- Give up a handover. -/
def abort (u : MacNodeId) (r : HandoverReturn) : LteNet × List LteOut :=
  (s.setBinder (s.binder.removeUeHandoverTriggered u), [.handover u r])

/-- `triggerHandover`; it fails if the assertion at its start does, or if the source eNB has no
IP2lte module. -/
def triggerHandover (u : MacNodeId) (ue : Ue) : Option (LteNet × List LteOut) :=
  if ue.masterId = ue.candidateMasterId then none
  else
    let s := s.setBinder (s.binder.addUeHandoverTriggered u)
    let ue := { ue with ueHold := true }
    let s := s.setUe u ue
    let omnetId := s.binder.getOmnetId ue.masterId
    match s.getModule omnetId with
    | none => some (s.abort u .sourceModuleGone)
    | some masterMod =>
      match masterMod.lteNic.bind EnbNic.ip2lte with
      | none => none
      | some enbIp2lte =>
        let r := enbIp2lte.triggerHandoverSource u ue.candidateMasterId
        some ((s.modifyModule omnetId (.setIp2lte r.1)).setUe u { ue with handoverTrigger := true },
          .handover u .scheduled :: r.2.map (.enb ue.masterId))

/-- The first half of `doHandover`, after the test of the candidate: the AMCs, the binder, the
cell info and the serving cell of PHY and MAC. -/
def switchCell (u : MacNodeId) (ue : Ue) : LteNet :=
  let s := s.modifyAmc ue.masterId (Amc.detachBoth u)
  let s := s.modifyAmc ue.candidateMasterId (Amc.attachBoth u)
  let s := s.setBinder (s.binder.unregisterNextHop ue.masterId u)
  let s := s.setLambda ue.cellInfo u false
  s.setUe u { ue with
    masterId := ue.candidateMasterId
    cellId := ue.candidateMasterId
    currentMasterRssi := ue.candidateMasterRssi
    hysteresisTh := updateHysteresisTh ue.candidateMasterRssi }

/-- The second half of `doHandover`: the cell info of the new eNB, the end of the holding at the
UE and at the new eNB.  `ue` is the UE after the first half; it fails if the new eNB has no
network card or IP2lte module, or if a packet cannot be sent down. -/
def enterCell (u : MacNodeId) (ue : Ue) (oldMaster : MacNodeId) :
    Option (LteNet × List LteOut) :=
  let omnetId := s.binder.getOmnetId ue.masterId
  match s.getModule omnetId with
  | none => some (s.abort u .candidateModuleGone)
  | some candMod =>
    match candMod.lteNic with
    | none => none
    | some nic =>
      if nic.mac.isNone then some (s.abort u .candidateMacMissing)
      else if candMod.cellInfo.isNone then some (s.abort u .candidateCellInfoMissing)
      else
        let s := s.setLambda ue.cellInfo u false
        let s := s.setLambda (some omnetId) u true
        let s := s.setBinder (s.binder.removeUeHandoverTriggered u)
        let s := s.setUe u
          { ue with cellInfo := some omnetId, ueHold := false, ueHoldFromIp := [] }
        -- the module of the new eNB has just been found, so the last test for it succeeds
        match nic.ip2lte with
        | none => none
        | some enbIp2lte =>
          match IP2lte.signalHandoverCompleteTarget s.binder.view enbIp2lte u oldMaster with
          | none => none
          | some r =>
            some (s.modifyModule omnetId (.setIp2lte r.1),
              .handover u .completed ::
                (ue.ueHoldFromIp.map (.toStackUe u) ++ r.2.map (.enb ue.masterId)))

/-- `doHandover`. -/
def doHandover (u : MacNodeId) (ue : Ue) : Option (LteNet × List LteOut) :=
  if getNodeTypeById ue.candidateMasterId ≠ .ENODEB then some (s.abort u .candidateNotEnb)
  else if (s.getAmcModule ue.candidateMasterId).isNone then some (s.abort u .candidateAmcMissing)
  else
    let s := s.switchCell u ue
    (s.ues u).bind fun ue' => s.enterCell u ue' ue.masterId

/-- A packet from IP arrives at a UE. -/
def fromIpUe (u : MacNodeId) (ue : Ue) (pkt : Packet) : LteNet × List LteOut :=
  if ue.ueHold then (s.setUe u { ue with ueHoldFromIp := ue.ueHoldFromIp ++ [pkt] }, [])
  else (s, [.toStackUe u pkt])

end LteNet

/-! ### The network as a machine -/

/-- What can happen in the network. -/
inductive LteEvent where
  /-- A new eNB. -/
  | registerEnb (parts : EnbParts)
  /-- A new UE. -/
  | registerUe (master : MacNodeId) (rssi : ℚ) (enableHandover : Bool) (address : Ipv4Address)
  /-- A UE hears a broadcast. -/
  | broadcast (u src : MacNodeId) (rssi : ℚ)
  /-- The message `handoverStarter` of a UE. -/
  | handoverStarter (u : MacNodeId)
  /-- The message `handoverTrigger` of a UE. -/
  | handoverTrigger (u : MacNodeId)
  /-- A packet from IP at a UE. -/
  | fromIpUe (u : MacNodeId) (pkt : Packet)
  /-- A UE leaves. -/
  | finishUe (u : MacNodeId)
  /-- An eNB is deleted. -/
  | deleteEnb (id : MacNodeId)

/-- The network as an event machine. -/
def lte : Machine LteNet LteEvent LteOut where
  step s
    | .registerEnb parts =>
      if (s.binder.nodeIds s.binder.enbCounter).isSome then none
      else some (s.registerEnb parts, [])
    | .registerUe master rssi enableHandover address =>
      if (s.binder.nodeIds s.binder.ueCounter).isSome ∨ (s.ues s.binder.ueCounter).isSome then none
      else some (s.registerUe master rssi enableHandover address, [])
    | .broadcast u src rssi =>
      (s.ues u).map fun ue => (s.setUe u (s.hearBroadcast ue src rssi), [])
    | .handoverStarter u =>
      (s.ues u).bind fun ue =>
        if ue.handoverStarter then s.triggerHandover u { ue with handoverStarter := false }
        else none
    | .handoverTrigger u =>
      (s.ues u).bind fun ue =>
        if ue.handoverTrigger then
          let ue := { ue with handoverTrigger := false }
          (s.setUe u ue).doHandover u ue
        else none
    | .fromIpUe u pkt => (s.ues u).map fun ue => s.fromIpUe u ue pkt
    | .finishUe u => (s.ues u).map fun ue => (s.finishUe u ue, [])
    | .deleteEnb id => some (s.deleteEnb id, [])

/-- The steps of the network. -/
inductive LteStep (s : LteNet) : LteEvent → LteNet → List LteOut → Prop
  /-- A new eNB has an id that was not in use. -/
  | registerEnb {parts : EnbParts} : s.binder.nodeIds s.binder.enbCounter = none →
      LteStep s (.registerEnb parts) (s.registerEnb parts) []
  /-- A new UE has an id that was not in use. -/
  | registerUe {master : MacNodeId} {rssi : ℚ} {enableHandover : Bool} {address : Ipv4Address} :
      s.binder.nodeIds s.binder.ueCounter = none → s.ues s.binder.ueCounter = none →
      LteStep s (.registerUe master rssi enableHandover address)
        (s.registerUe master rssi enableHandover address) []
  /-- A broadcast is heard. -/
  | broadcast {u src : MacNodeId} {rssi : ℚ} {ue : Ue} : s.ues u = some ue →
      LteStep s (.broadcast u src rssi) (s.setUe u (s.hearBroadcast ue src rssi)) []
  /-- A handover starts or is given up. -/
  | handoverStarter {u : MacNodeId} {ue ue' : Ue} {s' : LteNet} {o : List LteOut} :
      s.ues u = some ue → ue.handoverStarter = true →
      ue' = { ue with handoverStarter := false } → s.triggerHandover u ue' = some (s', o) →
      LteStep s (.handoverStarter u) s' o
  /-- A handover ends or is given up. -/
  | handoverTrigger {u : MacNodeId} {ue ue' : Ue} {s' : LteNet} {o : List LteOut} :
      s.ues u = some ue → ue.handoverTrigger = true →
      ue' = { ue with handoverTrigger := false } →
      (s.setUe u ue').doHandover u ue' = some (s', o) →
      LteStep s (.handoverTrigger u) s' o
  /-- A packet from IP is held. -/
  | hold {u : MacNodeId} {ue : Ue} {pkt : Packet} : s.ues u = some ue → ue.ueHold = true →
      LteStep s (.fromIpUe u pkt)
        (s.setUe u { ue with ueHoldFromIp := ue.ueHoldFromIp ++ [pkt] }) []
  /-- A packet from IP is passed on. -/
  | pass {u : MacNodeId} {ue : Ue} {pkt : Packet} : s.ues u = some ue → ue.ueHold = false →
      LteStep s (.fromIpUe u pkt) s [.toStackUe u pkt]
  /-- A UE leaves. -/
  | finishUe {u : MacNodeId} {ue : Ue} : s.ues u = some ue →
      LteStep s (.finishUe u) (s.finishUe u ue) []
  /-- An eNB is deleted. -/
  | deleteEnb {id : MacNodeId} : LteStep s (.deleteEnb id) (s.deleteEnb id) []

/-- **Every event is one of the steps.** -/
theorem lteStep_of_step {s s' : LteNet} {e : LteEvent} {o : List LteOut}
    (hst : lte.step s e = some (s', o)) : LteStep s e s' o := by
  cases e with
  | registerEnb parts =>
    simp only [lte] at hst
    split_ifs at hst with hfree
    obtain ⟨rfl, rfl⟩ := Prod.mk.inj (Option.some.inj hst)
    exact .registerEnb (Option.not_isSome_iff_eq_none.1 hfree)
  | registerUe master rssi enable address =>
    simp only [lte] at hst
    split_ifs at hst with hfree
    obtain ⟨rfl, rfl⟩ := Prod.mk.inj (Option.some.inj hst)
    obtain ⟨hfree, hnew⟩ := not_or.1 hfree
    exact .registerUe (Option.not_isSome_iff_eq_none.1 hfree)
      (Option.not_isSome_iff_eq_none.1 hnew)
  | broadcast u src rssi =>
    simp only [lte, Option.map_eq_some_iff, Prod.mk.injEq] at hst
    obtain ⟨ue, hue, rfl, rfl⟩ := hst
    exact .broadcast hue
  | handoverStarter u =>
    simp only [lte, Option.bind_eq_some_iff] at hst
    obtain ⟨ue, hue, hst⟩ := hst
    split_ifs at hst with hstarter
    exact .handoverStarter hue hstarter rfl hst
  | handoverTrigger u =>
    simp only [lte, Option.bind_eq_some_iff] at hst
    obtain ⟨ue, hue, hst⟩ := hst
    split_ifs at hst with htrigger
    exact .handoverTrigger hue htrigger rfl hst
  | fromIpUe u pkt =>
    simp only [lte, Option.map_eq_some_iff] at hst
    obtain ⟨ue, hue, hst⟩ := hst
    unfold LteNet.fromIpUe at hst
    split_ifs at hst with hhold
    · obtain ⟨rfl, rfl⟩ := Prod.mk.inj hst
      exact .hold hue hhold
    · obtain ⟨rfl, rfl⟩ := Prod.mk.inj hst
      exact .pass hue (Bool.eq_false_iff.2 hhold)
  | finishUe u =>
    simp only [lte, Option.map_eq_some_iff, Prod.mk.injEq] at hst
    obtain ⟨ue, hue, rfl, rfl⟩ := hst
    exact .finishUe hue
  | deleteEnb id =>
    obtain ⟨rfl, rfl⟩ := Prod.mk.inj (Option.some.inj hst)
    exact .deleteEnb

/-! ### What the changes leave alone -/

namespace LteNet

variable {s : LteNet} {u m : MacNodeId} {ue : Ue} {b : LteBinder} {id : OmnetId}
  {f : EnbModule → EnbModule} {g : Amc → Amc} {p : Option OmnetId} {v : Bool}

@[simp] theorem ues_modifyModule : (s.modifyModule id f).ues = s.ues := rfl
@[simp] theorem binder_modifyModule : (s.modifyModule id f).binder = s.binder := rfl
@[simp] theorem last_modifyModule : (s.modifyModule id f).lastOmnetId = s.lastOmnetId := rfl

@[simp] theorem ues_modifyAmc : (s.modifyAmc m g).ues = s.ues := by
  unfold modifyAmc; split <;> rfl

@[simp] theorem binder_modifyAmc : (s.modifyAmc m g).binder = s.binder := by
  unfold modifyAmc; split <;> rfl

@[simp] theorem last_modifyAmc : (s.modifyAmc m g).lastOmnetId = s.lastOmnetId := by
  unfold modifyAmc; split <;> rfl

@[simp] theorem ues_setLambda : (s.setLambda p u v).ues = s.ues := by cases p <;> rfl
@[simp] theorem binder_setLambda : (s.setLambda p u v).binder = s.binder := by cases p <;> rfl
@[simp] theorem last_setLambda : (s.setLambda p u v).lastOmnetId = s.lastOmnetId := by
  cases p <;> rfl

@[simp] theorem ues_setBinder : (s.setBinder b).ues = s.ues := rfl
@[simp] theorem binder_setBinder : (s.setBinder b).binder = b := rfl
@[simp] theorem last_setBinder : (s.setBinder b).lastOmnetId = s.lastOmnetId := rfl

@[simp] theorem ues_setUe : (s.setUe u ue).ues = Function.update s.ues u (some ue) := rfl
@[simp] theorem binder_setUe : (s.setUe u ue).binder = s.binder := rfl
@[simp] theorem last_setUe : (s.setUe u ue).lastOmnetId = s.lastOmnetId := rfl

theorem ues_attachNewUe {address : Ipv4Address} : (s.attachNewUe u m address).ues = s.ues := by
  unfold attachNewUe
  dsimp only
  split <;> rfl

theorem ues_finishUe : (s.finishUe u ue).ues = Function.update s.ues u none := by
  simp [finishUe]

@[simp] theorem getAmcModule_setUe : (s.setUe u ue).getAmcModule = s.getAmcModule := rfl

theorem getAmcModule_setBinder (hb : b.nodeIds = s.binder.nodeIds) :
    (s.setBinder b).getAmcModule = s.getAmcModule := by
  funext x
  unfold getAmcModule LteBinder.getOmnetId
  rw [binder_setBinder, hb]
  rfl

/-! ### How handovers end -/

theorem handover_of_mem_abort {v : MacNodeId} {r r' : HandoverReturn}
    (h : LteOut.handover v r ∈ [LteOut.handover u r']) : v = u := by
  obtain ⟨hv, -⟩ : v = u ∧ r = r' := by simpa using h
  exact hv

/-- The ends of `triggerHandover`: both leave the UE holding its packets. -/
theorem triggerHandover_cases {s' : LteNet} {o : List LteOut}
    (hst : s.triggerHandover u ue = some (s', o)) :
    (s', o) = ((s.setBinder (s.binder.addUeHandoverTriggered u)).setUe u
      { ue with ueHold := true }).abort u .sourceModuleGone ∨
    (∃ id ip, s' = (((s.setBinder (s.binder.addUeHandoverTriggered u)).setUe u
        { ue with ueHold := true }).modifyModule id (.setIp2lte ip)).setUe u
          { ue with ueHold := true, handoverTrigger := true }) ∧
      ∀ v r, .handover v r ∈ o → r.aborted = false := by
  unfold triggerHandover at hst
  dsimp only at hst
  split_ifs at hst
  split at hst
  · exact .inl (Option.some.inj hst).symm
  · split at hst
    · cases hst
    · obtain ⟨rfl, rfl⟩ := Prod.mk.inj (Option.some.inj hst)
      refine .inr ⟨⟨_, _, rfl⟩, fun v r hr => ?_⟩
      obtain ⟨-, rfl⟩ : v = u ∧ r = .scheduled := by simpa using hr
      rfl

/-- The ends of the second half of `doHandover`: an early `return` gives the handover up, at the
end of the function the UE stops holding packets. -/
theorem enterCell_cases {s' : LteNet} {o : List LteOut} {old : MacNodeId}
    (hst : s.enterCell u ue old = some (s', o)) :
    (∃ r, r.aborted = true ∧ (s', o) = s.abort u r) ∨
    (∃ p, s'.ues = Function.update s.ues u
        (some { ue with cellInfo := p, ueHold := false, ueHoldFromIp := [] })) ∧
      s'.binder = s.binder.removeUeHandoverTriggered u ∧
      ∀ v r, .handover v r ∈ o → r.aborted = false := by
  unfold enterCell at hst
  dsimp only at hst
  split at hst
  · exact .inl ⟨.candidateModuleGone, rfl, (Option.some.inj hst).symm⟩
  · split at hst
    · cases hst
    · split_ifs at hst
      · exact .inl ⟨.candidateMacMissing, rfl, (Option.some.inj hst).symm⟩
      · exact .inl ⟨.candidateCellInfoMissing, rfl, (Option.some.inj hst).symm⟩
      · split at hst
        · cases hst
        · split at hst
          · cases hst
          · obtain ⟨rfl, rfl⟩ := Prod.mk.inj (Option.some.inj hst)
            refine .inr ⟨⟨some (s.binder.getOmnetId ue.masterId), ?_⟩, ?_, fun v r hr => ?_⟩
            · rw [ues_modifyModule, ues_setUe, ues_setBinder, ues_setLambda, ues_setLambda]
            · simp
            · obtain ⟨-, rfl⟩ : v = u ∧ r = .completed := by simpa using hr
              rfl

/-- The second half of `doHandover` comes to its end if the new eNB has all its parts and keeps
no packets back. -/
theorem enterCell_completes (u old : MacNodeId) {k : EnbModule} {nic : EnbNic} {ip : IP2lte}
    (hk : s.getModule (s.binder.getOmnetId ue.masterId) = some k) (hnic : k.lteNic = some nic)
    (hmac : nic.mac.isSome = true) (hcell : k.cellInfo.isSome = true) (hip : nic.ip2lte = some ip)
    (hman : ip.hoManager = true) (hx2 : ip.hoFromX2 = fun _ => [])
    (hfromIp : ip.hoFromIp = fun _ => []) :
    ∃ s' o, s.enterCell u ue old = some (s', o) ∧ .handover u .completed ∈ o := by
  obtain ⟨mac, hmac⟩ := Option.isSome_iff_exists.1 hmac
  obtain ⟨cell, hcell⟩ := Option.isSome_iff_exists.1 hcell
  simp only [enterCell, hk, hnic, hmac, hcell, hip,
    IP2lte.signalHandoverCompleteTarget_empty hman hx2 hfromIp]
  exact ⟨_, _, rfl, List.mem_cons_self⟩

/-- `doHandover` gets past its tests of the candidate. -/
def CarriesOut (s : LteNet) (ue : Ue) : Prop :=
  getNodeTypeById ue.candidateMasterId = .ENODEB ∧
    (s.getAmcModule ue.candidateMasterId).isSome = true

theorem carriesOut_setUe {ue' : Ue} (ue : Ue)
    (hc : ue'.candidateMasterId = ue.candidateMasterId) :
    CarriesOut (s.setUe u ue') ue' ↔ CarriesOut s ue := by
  rw [CarriesOut, hc, getAmcModule_setUe, CarriesOut]

/-- Before the cells are switched only the list of handovers has changed. -/
theorem doHandover_of_not_carriesOut {s' : LteNet} {o : List LteOut}
    (hst : s.doHandover u ue = some (s', o)) (h : ¬ CarriesOut s ue) :
    ∃ r, r.aborted = true ∧ (s', o) = s.abort u r := by
  unfold doHandover at hst
  split_ifs at hst with htype hamc
  · exact ⟨_, rfl, (Option.some.inj hst).symm⟩
  · exact ⟨_, rfl, (Option.some.inj hst).symm⟩
  · refine absurd ⟨not_not.1 htype, ?_⟩ h
    rwa [Option.isNone_iff_eq_none, ← Option.not_isSome_iff_eq_none, not_not] at hamc

theorem ues_switchCell_eq (s : LteNet) (u : MacNodeId) (ue : Ue) :
    (s.switchCell u ue).ues = Function.update s.ues u (some { ue with
      masterId := ue.candidateMasterId
      cellId := ue.candidateMasterId
      currentMasterRssi := ue.candidateMasterRssi
      hysteresisTh := updateHysteresisTh ue.candidateMasterRssi }) := by
  rw [switchCell, ues_setUe, ues_setLambda, ues_setBinder, ues_modifyAmc, ues_modifyAmc]

theorem ues_switchCell (s : LteNet) (u : MacNodeId) (ue : Ue) :
    ∃ ue', (s.switchCell u ue).ues = Function.update s.ues u (some ue') ∧
      ue'.masterId = ue.candidateMasterId ∧ ue'.handoverTrigger = ue.handoverTrigger ∧
      ue'.ueHold = ue.ueHold :=
  ⟨_, ues_switchCell_eq s u ue, rfl, rfl, rfl⟩

theorem binder_switchCell :
    (s.switchCell u ue).binder = s.binder.unregisterNextHop ue.masterId u := by
  simp [switchCell]

theorem doHandover_eq {ue' : Ue} (h : CarriesOut s ue)
    (hues : (s.switchCell u ue).ues = Function.update s.ues u (some ue')) :
    s.doHandover u ue = (s.switchCell u ue).enterCell u ue' ue.masterId := by
  obtain ⟨a, ha⟩ := Option.isSome_iff_exists.1 h.2
  rw [doHandover, if_neg (not_not.2 h.1), ha, Option.isNone_some, if_neg Bool.false_ne_true]
  simp only [hues, Function.update_self, Option.bind_some]

/-- However `doHandover` ends, it changes no other UE; if it is given up, the UE holds its packets
as before. -/
theorem ues_doHandover {s' : LteNet} {o : List LteOut} (hue : s.ues u = some ue)
    (hst : s.doHandover u ue = some (s', o)) :
    ∃ ue', s'.ues = Function.update s.ues u (some ue') ∧
      ue'.handoverTrigger = ue.handoverTrigger ∧
      ∀ v r, .handover v r ∈ o → r.aborted = true → v = u ∧ ue'.ueHold = ue.ueHold := by
  by_cases h : CarriesOut s ue
  · obtain ⟨ue', hues, -, htrigger, hhold⟩ := ues_switchCell s u ue
    rw [doHandover_eq h hues] at hst
    rcases enterCell_cases hst with ⟨r, -, habort⟩ | ⟨⟨p, hues'⟩, -, hcompleted⟩
    · obtain ⟨rfl, rfl⟩ := Prod.mk.inj habort
      exact ⟨ue', hues, htrigger, fun v r hr _ => ⟨handover_of_mem_abort hr, hhold⟩⟩
    · rw [hues, Function.update_idem] at hues'
      refine ⟨_, hues', htrigger, fun v r hr ha => ?_⟩
      rw [hcompleted v r hr] at ha
      cases ha
  · obtain ⟨r, -, habort⟩ := doHandover_of_not_carriesOut hst h
    obtain ⟨rfl, rfl⟩ := Prod.mk.inj habort
    exact ⟨ue, (Function.update_eq_self_iff.2 hue.symm).symm, rfl,
      fun v r hr _ => ⟨handover_of_mem_abort hr, rfl⟩⟩

/-! ### What the changes do to the AMCs -/

theorem getModule_modifyModule {k : OmnetId} :
    (s.modifyModule id f).getModule k =
      if k = id then (s.getModule k).map f else s.getModule k := by
  unfold getModule modifyModule
  by_cases hk : k = id
  · subst hk
    by_cases h0 : k = 0 <;> simp [h0]
  · simp [hk]

/-- A change of a module that leaves its AMC alone. -/
theorem getAmcModule_modifyModule
    (hf : ∀ m, (f m).amc = m.amc) : (s.modifyModule id f).getAmcModule = s.getAmcModule := by
  funext x
  unfold getAmcModule
  rw [binder_modifyModule, getModule_modifyModule]
  split_ifs with h0 htype hid
  · rfl
  · rfl
  · rw [Option.bind_map, show EnbModule.amc ∘ f = EnbModule.amc from funext hf]
  · rfl

@[simp] theorem getAmcModule_setLambda : (s.setLambda p u v).getAmcModule = s.getAmcModule := by
  cases p with
  | none => rfl
  | some id => exact getAmcModule_modifyModule fun m => EnbModule.amc_setLambda u v m

/-- Changing the AMC of one module. -/
theorem getAmcModule_mapAmc {x : MacNodeId} :
    (s.modifyModule id (.mapAmc g)).getAmcModule x =
      if s.binder.getOmnetId x = id then (s.getAmcModule x).map g else s.getAmcModule x := by
  unfold getAmcModule
  rw [binder_modifyModule, getModule_modifyModule]
  split_ifs with h0 hid htype hid
  all_goals try rfl
  rw [Option.bind_map, Option.map_bind]
  exact congrArg _ (funext fun m => EnbModule.amc_mapAmc g m)

end LteNet

end V2nLte
