import V2nLte.Apps.MultihopD2D
import V2nLte.Machine.Basic
import V2nLte.Machine.Change
import V2nLte.Machine.OrderedMap
import V2nLte.Machine.Word
import Mathlib.Data.Finset.Sort
import Mathlib.Data.Nat.Cast.Order.Field
import Mathlib.Tactic.Linarith
import Mathlib.Tactic.Positivity
import Mathlib.Tactic.Ring

/-!
# The scenario manager

Every update interval the scenario manager advances SUMO and processes what SUMO answers: which
vehicles have departed, arrived, begun and ended a teleport or a stay in a parking area, the ids of
all vehicles, and the values of each vehicle it has subscribed to.  It makes a module for a vehicle
in the region of interest, moves it, and gives it up when the vehicle leaves; of the vehicles only
the share `penetrationRate` gets a module.

* `Change` : the small changes all handlers are made of.
* `module_lives_once` : a module is made once, driven only after that, given up at most once and
  never driven again; a vehicle that comes back gets a new one.
* `share_kept` : the number of modules differs from its share of the vehicles by no more than a half
  and one for each vehicle reported to be gone.

The server may report anything in any order.  The distances and shares are exact.
-/

namespace V2nLte

/-- `TraCICoord`. -/
structure TraCICoord where
  /-- In metres. -/
  x : ℚ
  /-- In metres. -/
  y : ℚ
  deriving DecidableEq

/-- `TraCICoordinateTransformation`. -/
structure CoordinateTransformation where
  /-- A corner of the road network. -/
  topleft : TraCICoord
  /-- The opposite corner. -/
  bottomright : TraCICoord
  /-- What is added around it. -/
  margin : ℚ

/-- `dimensions.y`. -/
def CoordinateTransformation.height (c : CoordinateTransformation) : ℚ :=
  c.bottomright.y - c.topleft.y

/-- `traci2omnet`. -/
def CoordinateTransformation.traci2omnet (c : CoordinateTransformation) (coord : TraCICoord) :
    Coord :=
  ⟨coord.x - c.topleft.x + c.margin, c.height - (coord.y - c.topleft.y) + c.margin, 0⟩

/-- `TraCIRegionOfInterest`. -/
structure RegionOfInterest where
  /-- The roads. -/
  roiRoads : List String := []
  /-- The rectangles, by two corners. -/
  roiRects : List (TraCICoord × TraCICoord) := []

namespace RegionOfInterest

variable (roi : RegionOfInterest)

/-- `onAnyRectangle`. -/
def onAnyRectangle (position : TraCICoord) : Bool :=
  roi.roiRects.any fun rect =>
    (rect.1.x ≤ position.x && rect.1.y ≤ position.y) &&
      (position.x ≤ rect.2.x && position.y ≤ rect.2.y)

/-- `partOfRoads`. -/
def partOfRoads (road : String) : Bool := roi.roiRoads.contains road

/-- `hasConstraints`. -/
def hasConstraints : Bool := !roi.roiRoads.isEmpty || !roi.roiRects.isEmpty

end RegionOfInterest

/-- From vehicle types to module types, names and display strings. -/
abbrev TypeMapping := List (String × String)

/-- The entry of a vehicle type, or else the one for all other types. -/
def TypeMapping.find (m : TypeMapping) (vType : String) : Option String :=
  (m.lookup vType).or (m.lookup "*")

/-- One variable of a vehicle. -/
inductive VehicleVariable where
  /-- The variable is not ok. -/
  | failed
  | position (p : TraCICoord)
  | roadId (edge : String)
  | speed (speed : ℚ)
  | angle (angle : ℚ)
  | signals (signals : ℤ)
  | length (length : ℚ)
  | height (height : ℚ)
  | width (width : ℚ)

/-- The variables that have been read. -/
structure VehicleStatus where
  /-- Where the vehicle is. -/
  position : TraCICoord := ⟨0, 0⟩
  /-- The edge that it is on. -/
  edge : String := ""
  /-- Its speed. -/
  speed : ℚ := 0
  /-- Its direction. -/
  angle : ℚ := 0
  /-- Its signals. -/
  signals : ℤ := 0
  /-- Its length. -/
  length : ℚ := 0
  /-- Its height. -/
  height : ℚ := 0
  /-- Its width. -/
  width : ℚ := 0
  /-- How many variables have been read. -/
  numRead : ℕ := 0
  deriving DecidableEq

/-- One variable of the simulation. -/
inductive SimVariable (V : Type) where
  /-- The variable is not ok. -/
  | failed
  | departed (ids : List V)
  | arrived (ids : List V)
  | teleportStarting (ids : List V)
  | teleportEnding (ids : List V)
  | parkingStarting (ids : List V)
  | parkingEnding (ids : List V)
  | colliding (ids : List V)
  | timeStep (serverTimestep : ℚ)

/-- The result of a subscription. -/
inductive SubscriptionResult (V : Type) where
  | sim (vars : List (SimVariable V))
  /-- The variable `ID_LIST`. -/
  | idList (ids : List V)
  | vehicle (objectId : V) (vars : List VehicleVariable)

/-- What SUMO answers in one time step. -/
structure Timestep (V : Type) where
  /-- The time. -/
  simTime : ℚ
  /-- The answer to the command that advances SUMO. -/
  results : List (SubscriptionResult V)
  /-- The answer to the subscription to a vehicle. -/
  answer : V → List VehicleVariable
  /-- The answer to a question for the type of a vehicle. -/
  getTypeId : V → String

/-- What the scenario manager does to modules, and its commands. -/
inductive ManagerEffect (V : Type) where
  | moduleAdded (mod : ℕ) (nodeId : V) (type name displayString : String) (position : Coord)
      (status : VehicleStatus)
  | nextPosition (mod : ℕ) (position : Coord) (status : VehicleStatus)
  | changeParkingState (mod : ℕ) (newState : Bool)
  | collisionOccurred (mod : ℕ)
  | moduleRemoved (mod : ℕ)
  | subscribe (vehicleId : V)
  | unsubscribe (vehicleId : V)
  deriving DecidableEq

/-- The parameters of the scenario manager. -/
structure ManagerPar where
  /-- The module types of the vehicle types. -/
  moduleType : TypeMapping
  /-- The module names of the vehicle types. -/
  moduleName : TypeMapping
  /-- The display strings of the vehicle types. -/
  moduleDisplayString : TypeMapping := []
  /-- The share of the vehicles that get a module. -/
  penetrationRate : ℚ := 1
  /-- Where vehicles get a module. -/
  roi : RegionOfInterest := {}
  /-- The simulation ends when no vehicle is left. -/
  autoShutdown : Bool := true
  /-- From the places of SUMO to ours. -/
  coordinateTransformation : CoordinateTransformation
  /-- Assertions are checked. -/
  debug : Bool := true

/-- `TraCIScenarioManager`.  A module is its index in the vector of modules. -/
structure ScenarioManager (V : Type) where
  /-- The number of the next module. -/
  nextNodeVectorIndex : ℕ := 0
  /-- The modules of the vehicles. -/
  hosts : OrderedMap V ℕ := []
  /-- The vehicles that get no module. -/
  unEquippedHosts : Finset V := ∅
  /-- The vehicles that are subscribed to. -/
  subscribedVehicles : Finset V := ∅
  /-- How many vehicles there are. -/
  activeVehicleCount : ℕ := 0
  /-- How many of them park. -/
  parkingVehicleCount : ℕ := 0
  /-- How many of them drive. -/
  drivingVehicleCount : ℕ := 0
  /-- The simulation is to end. -/
  autoShutdownTriggered : Bool := false

variable {V β : Type} [LinearOrder V]

namespace ScenarioManager

open Handler

/-- A handler of the scenario manager. -/
abbrev Action (V : Type) : Type → Type := Handler (ScenarioManager V) (ManagerEffect V)

variable (par : ManagerPar)

/-- `ASSERT`. -/
def assert (b : Bool) : Action V Unit := if par.debug && !b then fail else pure ()

/-- The share with the vehicle left out, `option1`. -/
def option1 (s : ScenarioManager V) : ℚ :=
  s.hosts.length / (s.hosts.length + s.unEquippedHosts.card + 1)

/-- The share with the vehicle added, `option2`. -/
def option2 (s : ScenarioManager V) : ℚ :=
  (s.hosts.length + 1) / (s.hosts.length + s.unEquippedHosts.card + 1)

/-- `addModule`. -/
def addModule (nodeId : V) (type name displayString : String) (position : Coord)
    (status : VehicleStatus) : Action V Unit := do
  let s ← get
  if (s.hosts.find nodeId).isSome then fail
  else if |s.option1 - par.penetrationRate| < |s.option2 - par.penetrationRate| then
    modify fun s => { s with unEquippedHosts := insert nodeId s.unEquippedHosts }
  else do
    modify fun s => { s with
      nextNodeVectorIndex := s.nextNodeVectorIndex + 1
      hosts := s.hosts.put nodeId s.nextNodeVectorIndex }
    emit (.moduleAdded s.nextNodeVectorIndex nodeId type name displayString position status)

/-- `deleteManagedModule`. -/
def deleteManagedModule (nodeId : V) : Action V Unit := do
  let s ← get
  match s.hosts.find nodeId with
  | none => fail
  | some mod => do
    modify fun s => { s with hosts := s.hosts.erase nodeId }
    emit (.moduleRemoved mod)

/-- Give up the vehicle, whether it has a module or not. -/
def giveUp (v : V) : Action V Unit := do
  let s ← get
  if (s.hosts.find v).isSome then deleteManagedModule v else pure ()
  modify fun s => { s with unEquippedHosts := s.unEquippedHosts.erase v }

/-- The loop over the arrived vehicles. -/
def arrive (v : V) : Action V Unit := do
  modify fun s => { s with subscribedVehicles := s.subscribedVehicles.erase v }
  giveUp v

/-- The loops over the vehicles that begin or end their stay in a parking area; a vehicle without a
module is a null pointer. -/
def park (newState : Bool) (v : V) : Action V Unit := do
  let s ← get
  match s.hosts.find v with
  | none => fail
  | some mod => emit (.changeParkingState mod newState)

/-- The loop over the collided vehicles. -/
def collide (v : V) : Action V Unit := do
  let s ← get
  match s.hosts.find v with
  | none => pure ()
  | some mod => emit (.collisionOccurred mod)

/-- `processSimSubscription`, one variable. -/
def processSimVariable (t : Timestep V) : SimVariable V → Action V Unit
  | .failed => fail
  | .departed ids =>
    modify fun s => { s with
      activeVehicleCount := u32 (s.activeVehicleCount + ids.length)
      drivingVehicleCount := u32 (s.drivingVehicleCount + ids.length) }
  | .arrived ids => do
    eachOf arrive ids
    modify fun s => { s with
      autoShutdownTriggered := s.autoShutdownTriggered ||
        -- the last vehicle has arrived
        (0 < ids.length && s.activeVehicleCount ≤ ids.length && par.autoShutdown)
      activeVehicleCount := sub32 s.activeVehicleCount ids.length
      drivingVehicleCount := sub32 s.drivingVehicleCount ids.length }
  | .teleportStarting ids => do
    eachOf giveUp ids
    modify fun s => { s with
      activeVehicleCount := sub32 s.activeVehicleCount ids.length
      drivingVehicleCount := sub32 s.drivingVehicleCount ids.length }
  | .teleportEnding ids =>
    modify fun s => { s with
      activeVehicleCount := u32 (s.activeVehicleCount + ids.length)
      drivingVehicleCount := u32 (s.drivingVehicleCount + ids.length) }
  | .parkingStarting ids => do
    eachOf (park true) ids
    modify fun s => { s with
      parkingVehicleCount := u32 (s.parkingVehicleCount + ids.length)
      drivingVehicleCount := sub32 s.drivingVehicleCount ids.length }
  | .parkingEnding ids => do
    eachOf (park false) ids
    modify fun s => { s with
      parkingVehicleCount := sub32 s.parkingVehicleCount ids.length
      drivingVehicleCount := u32 (s.drivingVehicleCount + ids.length) }
  | .colliding ids => eachOf collide ids
  | .timeStep serverTimestep => assert par (t.simTime = serverTimestep)

/-- The loop of `processVehicleSubscription` over the variables; `none` if it throws. -/
def readVariables (isSubscribed : Bool) :
    VehicleStatus → List VehicleVariable → Option VehicleStatus
  | st, [] => some st
  -- SUMO does not know the vehicle any more
  | st, .failed :: vars => if isSubscribed then none else readVariables isSubscribed st vars
  | st, .position p :: vars =>
    readVariables isSubscribed { st with position := p, numRead := st.numRead + 1 } vars
  | st, .roadId edge :: vars =>
    readVariables isSubscribed { st with edge, numRead := st.numRead + 1 } vars
  | st, .speed speed :: vars =>
    readVariables isSubscribed { st with speed, numRead := st.numRead + 1 } vars
  | st, .angle angle :: vars =>
    readVariables isSubscribed { st with angle, numRead := st.numRead + 1 } vars
  | st, .signals signals :: vars =>
    readVariables isSubscribed { st with signals, numRead := st.numRead + 1 } vars
  | st, .length length :: vars =>
    readVariables isSubscribed { st with length, numRead := st.numRead + 1 } vars
  | st, .height height :: vars =>
    readVariables isSubscribed { st with height, numRead := st.numRead + 1 } vars
  | st, .width width :: vars =>
    readVariables isSubscribed { st with width, numRead := st.numRead + 1 } vars

/-- `inRoi`. -/
def inRoi (st : VehicleStatus) : Bool :=
  if !par.roi.hasConstraints then true
  else par.roi.onAnyRectangle st.position || par.roi.partOfRoads st.edge

/-- The module type, name and display string for a vehicle type; `none` if one of them is not
found. -/
def moduleFor (vType : String) : Option (String × String × String) := do
  let mType ← par.moduleType.find vType
  let mName ← par.moduleName.find vType
  let mDisplayString ←
    if par.moduleDisplayString.length ≠ 0 then par.moduleDisplayString.find vType else some ""
  return (mType, mName, mDisplayString)

/-- A vehicle is in the region of interest: it gets a module or is moved. -/
def driveModule (t : Timestep V) (objectId : V) (p : Coord) (st : VehicleStatus) :
    Action V Unit := do
  let s ← get
  match s.hosts.find objectId with
  | some mod => emit (.nextPosition mod p st)
  | none =>
    match moduleFor par (t.getTypeId objectId) with
    | none => fail
    | some (mType, mName, mDisplayString) =>
      if mType ≠ "0" then addModule par objectId mType mName mDisplayString p st else pure ()

/-- A vehicle is not in the region of interest. -/
def leaveRoi (objectId : V) : Action V Unit := do
  let s ← get
  if (s.hosts.find objectId).isSome then deleteManagedModule objectId
  else modify fun s => { s with unEquippedHosts := s.unEquippedHosts.erase objectId }

/-- `processVehicleSubscription` for one vehicle. -/
def processVehicleSubscription (t : Timestep V) (objectId : V) (vars : List VehicleVariable) :
    Action V Unit := do
  let s ← get
  match readVariables (objectId ∈ s.subscribedVehicles) {} vars with
  | none => fail
  | some st =>
    -- we didn't want to receive these results, or not all attributes are there
    if objectId ∉ s.subscribedVehicles ∨ st.numRead ≠ 8 then pure ()
    else
      let p := par.coordinateTransformation.traci2omnet st.position
      if p.x < 0 ∨ p.y < 0 then fail
      else if !inRoi par st then leaveRoi objectId
      else if objectId ∈ s.unEquippedHosts then pure ()
      else driveModule par t objectId p st

/-- `subscribeToVehicleVariables`, with what precedes it in the loop. -/
def subscribeToVehicleVariables (t : Timestep V) (vehicleId : V) : Action V Unit := do
  modify fun s => { s with subscribedVehicles := insert vehicleId s.subscribedVehicles }
  emit (.subscribe vehicleId)
  processVehicleSubscription par t vehicleId (t.answer vehicleId)

/-- `unsubscribeFromVehicleVariables`, with what precedes it in the loop. -/
def unsubscribeFromVehicleVariables (vehicleId : V) : Action V Unit := do
  modify fun s => { s with subscribedVehicles := s.subscribedVehicles.erase vehicleId }
  emit (.unsubscribe vehicleId)

/-- `processVehicleSubscription` for the list of ids. -/
def processIdList (t : Timestep V) (ids : List V) : Action V Unit := do
  let s ← get
  assert par (ids.length = s.activeVehicleCount)
  eachOf (subscribeToVehicleVariables par t) (ids.toFinset \ s.subscribedVehicles).sort
  let s ← get
  eachOf unsubscribeFromVehicleVariables (s.subscribedVehicles \ ids.toFinset).sort

/-- `processSubcriptionResult`. -/
def processSubcriptionResult (t : Timestep V) : SubscriptionResult V → Action V Unit
  | .sim vars => eachOf (processSimVariable par t) vars
  | .idList ids => processIdList par t ids
  | .vehicle objectId vars => processVehicleSubscription par t objectId vars

/-- The loop of `executeOneTimestep`. -/
def processResults (t : Timestep V) : Action V Unit :=
  eachOf (processSubcriptionResult par t) t.results

/-! ### The small changes -/

/-- What an effect means for the module it is about. -/
inductive ModuleAct where
  | made
  | driven
  | givenUp
  deriving DecidableEq

/-- The module an effect is about, and what it means for it. -/
def act : ManagerEffect V → Option (ℕ × ModuleAct)
  | .moduleAdded mod .. => some (mod, .made)
  | .nextPosition mod .. | .changeParkingState mod _ | .collisionOccurred mod =>
    some (mod, .driven)
  | .moduleRemoved mod => some (mod, .givenUp)
  | .subscribe _ | .unsubscribe _ => none

/-- The vehicle that an effect makes a module for. -/
def madeFor : ManagerEffect V → Option V
  | .moduleAdded _ nodeId .. => some nodeId
  | _ => none

/-- The vehicles and their modules. -/
def fleet (s : ScenarioManager V) : ℕ × OrderedMap V ℕ × Finset V :=
  (s.nextNodeVectorIndex, s.hosts, s.unEquippedHosts)

/-- The small changes that the handlers are made of; only giving up a vehicle costs anything. -/
inductive Change :
    ScenarioManager V → ScenarioManager V → List (ManagerEffect V) → ℕ → Prop
  /-- The counters, the subscriptions and the commands. -/
  | books {s s' : ScenarioManager V} {o : List (ManagerEffect V)} (hs : s'.fleet = s.fleet)
      (ho : ∀ x ∈ o, act x = none) : Change s s' o 0
  | driven {s : ScenarioManager V} {x : ManagerEffect V} {v : V} {mod : ℕ}
      (hv : s.hosts.find v = some mod) (hx : act x = some (mod, .driven)) : Change s s [x] 0
  | added {s : ScenarioManager V} {x : ManagerEffect V} {v : V} (hv : s.hosts.find v = none)
      (hu : v ∉ s.unEquippedHosts)
      (hshare : |s.option2 - par.penetrationRate| ≤ |s.option1 - par.penetrationRate|)
      (hx : act x = some (s.nextNodeVectorIndex, .made)) (hid : madeFor x = some v) :
      Change s { s with
        nextNodeVectorIndex := s.nextNodeVectorIndex + 1
        hosts := s.hosts.put v s.nextNodeVectorIndex } [x] 0
  | leftOut {s : ScenarioManager V} {v : V} (hv : s.hosts.find v = none)
      (hu : v ∉ s.unEquippedHosts)
      (hshare : |s.option1 - par.penetrationRate| < |s.option2 - par.penetrationRate|) :
      Change s { s with unEquippedHosts := insert v s.unEquippedHosts } [] 0
  | givenUp {s : ScenarioManager V} {x : ManagerEffect V} {v : V} {mod : ℕ} {u : Finset V}
      (hv : s.hosts.find v = some mod)
      (hu : u = s.unEquippedHosts ∨ u = s.unEquippedHosts.erase v)
      (hx : act x = some (mod, .givenUp)) :
      Change s { s with hosts := s.hosts.erase v, unEquippedHosts := u } [x] 1
  | forgotten {s : ScenarioManager V} {v : V} (hv : s.hosts.find v = none) :
      Change s { s with unEquippedHosts := s.unEquippedHosts.erase v } [] 1

variable {par : ManagerPar} {t : Timestep V} {s s' : ScenarioManager V} {v : V}

theorem performs_books {f : ScenarioManager V → ScenarioManager V}
    (h : ∀ s, (f s).fleet = s.fleet) : Performs (Change par) 0 (modify f : Action V Unit) :=
  fun s => .of_change (.books (h s) (by simp))

theorem performs_books_first {f : ScenarioManager V → ScenarioManager V} {x : Action V Unit} {n : ℕ}
    (h : ∀ s, (f s).fleet = s.fleet) (hx : Performs (Change par) n x) :
    Performs (Change par) n (do modify f; x) :=
  ((performs_books h).bind fun _ => hx).mono (by simp)

theorem performs_books_last {f : ScenarioManager V → ScenarioManager V} {x : Action V Unit} {n : ℕ}
    (h : ∀ s, (f s).fleet = s.fleet) (hx : Performs (Change par) n x) :
    Performs (Change par) n (do x; modify f) :=
  hx.bind fun _ => performs_books h

theorem performs_command {o : ManagerEffect V} (h : act o = none) :
    Performs (Change par) 0 (emit o : Action V Unit) :=
  fun s => .of_change (.books rfl (by simpa using h))

theorem performs_assert (b : Bool) : Performs (Change par) 0 (assert par b : Action V Unit) := by
  intro s
  unfold assert
  split
  · exact .fail
  · exact .pure ()

theorem deleteManagedModule_eq {mod : ℕ} (hv : s.hosts.find v = some mod) :
    deleteManagedModule v s =
      ⟨some (), { s with hosts := s.hosts.erase v }, [.moduleRemoved mod]⟩ := by
  unfold deleteManagedModule
  rw [get_bind_apply, hv]
  rfl

theorem performs_giveUp (v : V) : Performs (Change par) 1 (giveUp v) := by
  intro s
  unfold giveUp
  refine .get_bind ?_
  cases hv : s.hosts.find v with
  | none => exact .of_change (by simpa [bind_apply] using Change.forgotten hv)
  | some mod =>
    refine .of_change ?_
    have hgone : Change par s _ [.moduleRemoved mod] 1 := .givenUp hv (.inr rfl) rfl
    simpa [bind_apply, deleteManagedModule_eq hv] using hgone

theorem performs_arrive (v : V) : Performs (Change par) 1 (arrive v) :=
  performs_books_first (fun _ => rfl) (performs_giveUp v)

theorem performs_park (b : Bool) (v : V) : Performs (Change par) 0 (park b v) := by
  intro s
  unfold park
  refine .get_bind ?_
  cases hv : s.hosts.find v with
  | none => exact .fail
  | some mod => exact .of_change (.driven hv rfl)

theorem performs_collide (v : V) : Performs (Change par) 0 (collide v) := by
  intro s
  unfold collide
  refine .get_bind ?_
  cases hv : s.hosts.find v with
  | none => exact .pure ()
  | some mod => exact .of_change (.driven hv rfl)

/-- The vehicles that a variable reports to be gone. -/
def simExits : SimVariable V → ℕ
  | .arrived ids | .teleportStarting ids => ids.length
  | _ => 0

theorem performs_ones {f : V → Action V Unit} (h : ∀ v, Performs (Change par) 1 (f v))
    (ids : List V) : Performs (Change par) ids.length (eachOf f ids) :=
  (Performs.eachOf h ids).mono (by simp)

theorem performs_zeros {f : β → Action V Unit} (h : ∀ b, Performs (Change par) 0 (f b))
    (l : List β) : Performs (Change par) 0 (eachOf f l) :=
  (Performs.eachOf h l).mono (by simp)

theorem performs_processSimVariable (x : SimVariable V) :
    Performs (Change par) (simExits x) (processSimVariable par t x) := by
  cases x with
  | failed => exact fun s => .fail
  | departed ids => exact performs_books fun _ => rfl
  | arrived ids => exact performs_books_last (fun _ => rfl) (performs_ones performs_arrive ids)
  | teleportStarting ids =>
    exact performs_books_last (fun _ => rfl) (performs_ones performs_giveUp ids)
  | teleportEnding ids => exact performs_books fun _ => rfl
  | parkingStarting ids =>
    exact performs_books_last (fun _ => rfl) (performs_zeros (performs_park true) ids)
  | parkingEnding ids =>
    exact performs_books_last (fun _ => rfl) (performs_zeros (performs_park false) ids)
  | colliding ids => exact performs_zeros performs_collide ids
  | timeStep time => exact performs_assert _

/-- A vehicle reports that it is outside the region of interest. -/
def outside (par : ManagerPar) (vars : List VehicleVariable) : Bool :=
  (readVariables true {} vars).any fun st => !inRoi par st

theorem performs_addModule {nodeId : V} {type name displayString : String} {position : Coord}
    {status : VehicleStatus} (hu : nodeId ∉ s.unEquippedHosts) :
    PerformsAt (Change par) s 0 (addModule par nodeId type name displayString position status) := by
  unfold addModule
  refine .get_bind ?_
  by_cases hv : (s.hosts.find nodeId).isSome
  · rw [if_pos hv]
    exact .fail
  · rw [if_neg hv]
    simp only [Bool.not_eq_true, Option.isSome_eq_false_iff, Option.isNone_iff_eq_none] at hv
    by_cases hshare : |s.option1 - par.penetrationRate| < |s.option2 - par.penetrationRate|
    · rw [if_pos hshare]
      exact .of_change (.leftOut hv hu hshare)
    · rw [if_neg hshare]
      refine .of_change ?_
      simpa [bind_apply] using Change.added hv hu (not_lt.1 hshare)
        (x := .moduleAdded s.nextNodeVectorIndex nodeId type name displayString position status)
        rfl rfl

theorem performs_driveModule {p : Coord} {st : VehicleStatus} (hu : v ∉ s.unEquippedHosts) :
    PerformsAt (Change par) s 0 (driveModule par t v p st) := by
  unfold driveModule
  refine .get_bind ?_
  cases hv : s.hosts.find v with
  | some mod => exact .of_change (.driven hv rfl)
  | none =>
    cases hm : moduleFor par (t.getTypeId v) with
    | none => exact .fail
    | some names =>
      obtain ⟨mType, mName, mDisplayString⟩ := names
      by_cases htype : mType ≠ "0"
      · simp only [if_pos htype]
        exact performs_addModule hu
      · simp only [if_neg htype]
        exact .pure ()

theorem performs_leaveRoi (v : V) : Performs (Change par) 1 (leaveRoi v) := by
  intro s
  unfold leaveRoi
  refine .get_bind ?_
  cases hv : s.hosts.find v with
  | none => exact .of_change (by simpa using Change.forgotten hv)
  | some mod =>
    refine .of_change ?_
    have hgone : Change par s _ [.moduleRemoved mod] 1 := .givenUp hv (.inl rfl) rfl
    simpa [deleteManagedModule_eq hv] using hgone

theorem performs_processVehicleSubscription (v : V) (vars : List VehicleVariable) :
    Performs (Change par) (if outside par vars then 1 else 0)
      (processVehicleSubscription par t v vars) := by
  intro s
  unfold processVehicleSubscription
  refine .get_bind ?_
  cases hread : readVariables (v ∈ s.subscribedVehicles) {} vars with
  | none => exact .fail
  | some st =>
    by_cases hwanted : v ∉ s.subscribedVehicles ∨ st.numRead ≠ 8
    · simp only [if_pos hwanted]
      exact .pure ()
    · simp only [if_neg hwanted]
      by_cases hbad : (par.coordinateTransformation.traci2omnet st.position).x < 0 ∨
          (par.coordinateTransformation.traci2omnet st.position).y < 0
      · rw [if_pos hbad]
        exact .fail
      · rw [if_neg hbad]
        have hin : v ∈ s.subscribedVehicles := by tauto
        have hout : outside par vars = !inRoi par st := by
          rw [decide_eq_true hin] at hread
          simp [outside, hread]
        rw [hout]
        by_cases hroi : inRoi par st = true
        · simp only [hroi, Bool.not_true, Bool.false_eq_true, if_false]
          split
          · exact .pure ()
          · exact performs_driveModule ‹_›
        · simp only [Bool.not_eq_true] at hroi
          simp only [hroi, Bool.not_false, if_true]
          exact performs_leaveRoi v s

theorem performs_subscribeToVehicleVariables (v : V) :
    Performs (Change par) (if outside par (t.answer v) then 1 else 0)
      (subscribeToVehicleVariables par t v) := by
  unfold subscribeToVehicleVariables
  have hrest : Performs (Change par) (if outside par (t.answer v) then 1 else 0) (do
      emit (.subscribe v)
      processVehicleSubscription par t v (t.answer v)) :=
    ((performs_command rfl).bind fun _ => performs_processVehicleSubscription v _).mono (by simp)
  exact performs_books_first (fun _ => rfl) hrest

theorem performs_unsubscribeFromVehicleVariables (v : V) :
    Performs (Change par) 0 (unsubscribeFromVehicleVariables v) := by
  unfold unsubscribeFromVehicleVariables
  exact performs_books_first (fun _ => rfl) (performs_command rfl)

/-- The vehicles that a result reports to be gone. -/
def exitsOf (par : ManagerPar) (t : Timestep V) : SubscriptionResult V → ℕ
  | .sim vars => (vars.map simExits).sum
  | .idList ids => ∑ v ∈ ids.toFinset, if outside par (t.answer v) then 1 else 0
  | .vehicle _ vars => if outside par vars then 1 else 0

theorem performs_processIdList (ids : List V) :
    Performs (Change par) (exitsOf par t (.idList ids)) (processIdList par t ids) := by
  intro s
  unfold processIdList
  refine .get_bind ?_
  have hsubscribe : Performs (Change par) (exitsOf par t (.idList ids))
      (eachOf (subscribeToVehicleVariables par t) (ids.toFinset \ s.subscribedVehicles).sort) := by
    refine (Performs.eachOf performs_subscribeToVehicleVariables _).mono ?_
    rw [← List.sum_toFinset _ (Finset.sort_nodup _ _), Finset.sort_toFinset]
    exact Finset.sum_le_sum_of_subset Finset.sdiff_subset
  have hunsubscribe : Performs (Change par) 0 (do
      let s ← get
      eachOf unsubscribeFromVehicleVariables (s.subscribedVehicles \ ids.toFinset).sort) :=
    fun s => .get_bind (performs_zeros performs_unsubscribeFromVehicleVariables _ s)
  exact (((performs_assert _).bind fun _ => hsubscribe.bind fun _ => hunsubscribe).mono
    (by simp)) s

theorem performs_processSubcriptionResult (r : SubscriptionResult V) :
    Performs (Change par) (exitsOf par t r) (processSubcriptionResult par t r) := by
  cases r with
  | sim vars => exact Performs.eachOf performs_processSimVariable vars
  | idList ids => exact performs_processIdList ids
  | vehicle objectId vars => exact performs_processVehicleSubscription objectId vars

/-- The vehicles that are reported to be gone in one time step. -/
def exits (par : ManagerPar) (t : Timestep V) : ℕ := (t.results.map (exitsOf par t)).sum

theorem performs_processResults : Performs (Change par) (exits par t) (processResults par t) :=
  Performs.eachOf performs_processSubcriptionResult t.results

end ScenarioManager

/-! ### The manager as a machine -/

/-- The scenario manager and its two triggers. -/
structure ManagerRun (V : Type) where
  /-- The manager. -/
  manager : ScenarioManager V := {}
  /-- The trigger for the connection is scheduled. -/
  connectAndStartTrigger : Bool := true
  /-- The trigger for the next time step is scheduled. -/
  executeOneTimestepTrigger : Bool := true
  /-- An exception has ended the simulation. -/
  failed : Bool := false

/-- The triggers, with what SUMO answers. -/
inductive ManagerEvent (V : Type) where
  /-- The results of the two subscriptions of `init_traci`. -/
  | connectAndStart (t : Timestep V)
  | executeOneTimestep (t : Timestep V)

/-- What SUMO answers. -/
def ManagerEvent.timestep : ManagerEvent V → Timestep V
  | .connectAndStart t | .executeOneTimestep t => t

/-- `handleSelfMsg`. -/
def scenarioManager (par : ManagerPar) : Machine (ManagerRun V) (ManagerEvent V) (ManagerEffect V)
    where
  step s e :=
    if s.failed then none
    else
      let r := ScenarioManager.processResults par e.timestep s.manager
      match e with
      | .connectAndStart _ =>
        if s.connectAndStartTrigger then
          some ({ s with
            manager := r.state, connectAndStartTrigger := false, failed := r.value.isNone }, r.out)
        else none
      | .executeOneTimestep _ =>
        if !s.executeOneTimestepTrigger then none
        else if s.connectAndStartTrigger then
          -- there is no connection yet
          some ({ s with executeOneTimestepTrigger := !s.manager.autoShutdownTriggered }, [])
        else
          some ({ s with
            manager := r.state
            executeOneTimestepTrigger := !r.state.autoShutdownTriggered
            failed := r.value.isNone }, r.out)

section Runs

open ScenarioManager

variable {par : ManagerPar} {s s' : ManagerRun V} {e : ManagerEvent V} {es : List (ManagerEvent V)}
  {o os : List (ManagerEffect V)}

/-- A step processes the results, or there is no connection yet. -/
theorem step_manager (h : (scenarioManager par).step s e = some (s', o)) :
    (s'.manager = s.manager ∧ o = []) ∨
      s'.manager = (processResults par e.timestep s.manager).state ∧
        o = (processResults par e.timestep s.manager).out := by
  simp only [scenarioManager] at h
  split at h
  · cases h
  · cases e with
    | connectAndStart t =>
      simp only at h
      split at h
      · obtain ⟨rfl, rfl⟩ := Prod.mk.inj (Option.some.inj h)
        exact .inr ⟨rfl, rfl⟩
      · cases h
    | executeOneTimestep t =>
      simp only at h
      split at h
      · cases h
      · split at h
        · obtain ⟨rfl, rfl⟩ := Prod.mk.inj (Option.some.inj h)
          exact .inl ⟨rfl, rfl⟩
        · obtain ⟨rfl, rfl⟩ := Prod.mk.inj (Option.some.inj h)
          exact .inr ⟨rfl, rfl⟩

/-- The vehicles that are reported to be gone in a run. -/
def exitsIn (par : ManagerPar) (es : List (ManagerEvent V)) : ℕ :=
  (es.map fun e => exits par e.timestep).sum

/-- Every run is made of small changes. -/
theorem exec_chain (h : (scenarioManager par).exec {} es = some (s, os)) :
    ∃ n ≤ exitsIn par es, Chain (Change par) {} n s.manager os := by
  refine Machine.exec_induction
    (J := fun es s os => ∃ n ≤ exitsIn par es, Chain (Change par) {} n s.manager os)
    ⟨0, Nat.zero_le _, .nil⟩ (fun es s os e s' o _ ih hst => ?_) h
  obtain ⟨n, hn, hchain⟩ := ih
  have hexits : exitsIn par (es ++ [e]) = exitsIn par es + exits par e.timestep := by
    simp [exitsIn]
  rw [hexits]
  rcases step_manager hst with ⟨hs, rfl⟩ | ⟨hs, rfl⟩
  · rw [hs, List.append_nil]
    exact ⟨n, hn.trans (Nat.le_add_right _ _), hchain⟩
  · obtain ⟨m, hm, hmore⟩ := performs_processResults s.manager
    exact ⟨n + m, Nat.add_le_add hn hm, hs ▸ hchain.trans hmore⟩

end Runs

/-! ### The lives of the modules -/

/-- The life of a module. -/
inductive ModuleLife where
  | unborn
  | living
  | gone
  deriving DecidableEq

/-- What may be done to a module in which part of its life. -/
def ModuleLife.take : ModuleLife → ScenarioManager.ModuleAct → Option ModuleLife
  | .unborn, .made => some .living
  | .living, .driven => some .living
  | .living, .givenUp => some .gone
  | _, _ => none

/-- The life of the module `mod` goes on. -/
def ModuleLife.next (mod : ℕ) (l : ModuleLife) (x : ManagerEffect V) : Option ModuleLife :=
  match ScenarioManager.act x with
  | none => some l
  | some (m, a) => if m = mod then l.take a else some l

namespace ScenarioManager

variable {par : ManagerPar} {s s' : ScenarioManager V} {os o : List (ManagerEffect V)} {n k : ℕ}

/-- The modules have lived as they should, and those of the hosts are alive. -/
structure Lives (s : ScenarioManager V) (os : List (ManagerEffect V)) : Prop where
  life : ∀ mod, ∃ l, os.foldlM (ModuleLife.next mod) .unborn = some l ∧
    (l = .unborn ↔ s.nextNodeVectorIndex ≤ mod) ∧
    (l = .living ↔ ∃ v, s.hosts.find v = some mod)
  inj : ∀ v w mod, s.hosts.find v = some mod → s.hosts.find w = some mod → v = w

theorem Lives.lt (h : Lives s os) {v : V} {mod : ℕ} (hv : s.hosts.find v = some mod) :
    mod < s.nextNodeVectorIndex := by
  obtain ⟨l, -, hunborn, hliving⟩ := h.life mod
  by_contra hle
  have hl := hunborn.2 (not_lt.1 hle)
  rw [hliving.2 ⟨v, hv⟩] at hl
  cases hl

omit [LinearOrder V] in
theorem next_of_act {mod : ℕ} {l : ModuleLife} {x : ManagerEffect V} {m : ℕ} {a : ModuleAct}
    (hx : act x = some (m, a)) :
    ModuleLife.next mod l x = if m = mod then l.take a else some l := by
  simp [ModuleLife.next, hx]

omit [LinearOrder V] in
theorem life_append {mod : ℕ} {l : ModuleLife}
    (h : os.foldlM (ModuleLife.next mod) .unborn = some l) (x : ManagerEffect V) :
    (os ++ [x]).foldlM (ModuleLife.next mod) .unborn = l.next mod x := by
  simp [List.foldlM_append, h]

omit [LinearOrder V] in
theorem life_books {mod : ℕ} (ho : ∀ x ∈ o, act x = none) (l : ModuleLife) :
    o.foldlM (ModuleLife.next mod) l = some l := by
  induction o with
  | nil => rfl
  | cons x o ih =>
    have hx : ModuleLife.next mod l x = some l := by
      simp [ModuleLife.next, ho x List.mem_cons_self]
    rw [List.foldlM_cons, hx]
    exact ih fun y hy => ho y (List.mem_cons_of_mem x hy)

/-- A module is made for a vehicle that has none. -/
theorem Lives.added (h : Lives s os) {x : ManagerEffect V} (hv : s.hosts.find v = none)
    (hx : act x = some (s.nextNodeVectorIndex, .made)) :
    Lives { s with
      nextNodeVectorIndex := s.nextNodeVectorIndex + 1
      hosts := s.hosts.put v s.nextNodeVectorIndex } (os ++ [x]) := by
  refine ⟨fun mod => ?_, fun w w' mod hw hw' => ?_⟩
  · obtain ⟨l, hl, hunborn, hliving⟩ := h.life mod
    rw [life_append hl, next_of_act hx]
    by_cases hm : s.nextNodeVectorIndex = mod
    · rw [if_pos hm, hunborn.2 hm.le]
      refine ⟨.living, rfl, ?_, ?_⟩
      · simp [hm]
      · simpa using ⟨v, by rw [OrderedMap.find_put, if_pos rfl, hm]⟩
    · rw [if_neg hm]
      refine ⟨l, rfl, ?_, ?_⟩
      · rw [hunborn, Nat.succ_le_iff, Nat.lt_iff_le_and_ne, and_iff_left hm]
      · rw [hliving]
        refine exists_congr fun w => ?_
        rw [OrderedMap.find_put]
        split
        · rename_i hw
          simp [hw, hv, hm]
        · rfl
  · rw [OrderedMap.find_put] at hw hw'
    split at hw <;> split at hw'
    · rename_i hwv hwv'
      exact hwv.trans hwv'.symm
    · exact absurd (Option.some.inj hw) (h.lt hw').ne'
    · exact absurd (Option.some.inj hw') (h.lt hw).ne'
    · exact h.inj w w' mod hw hw'

/-- A vehicle and its module are given up. -/
theorem Lives.givenUp (h : Lives s os) {x : ManagerEffect V} {m : ℕ} {u : Finset V}
    (hv : s.hosts.find v = some m) (hx : act x = some (m, .givenUp)) :
    Lives { s with hosts := s.hosts.erase v, unEquippedHosts := u } (os ++ [x]) := by
  refine ⟨fun mod => ?_, fun w w' mod hw hw' => ?_⟩
  · obtain ⟨l, hl, hunborn, hliving⟩ := h.life mod
    rw [life_append hl, next_of_act hx]
    by_cases hm : m = mod
    · rw [if_pos hm, hliving.2 ⟨v, hm ▸ hv⟩]
      refine ⟨.gone, rfl, ?_, ?_⟩
      · have hlt := h.lt hv
        simp only [reduceCtorEq, false_iff]
        omega
      · simp only [reduceCtorEq, false_iff, OrderedMap.find_erase]
        rintro ⟨w, hw⟩
        split at hw
        · cases hw
        · exact ‹¬ w = v› (h.inj w v mod hw (hm ▸ hv))
    · rw [if_neg hm]
      refine ⟨l, rfl, hunborn, ?_⟩
      rw [hliving]
      refine exists_congr fun w => ?_
      rw [OrderedMap.find_erase]
      split
      · rename_i hw
        simp [hw, hv, hm]
      · rfl
  · rw [OrderedMap.find_erase] at hw hw'
    split at hw
    · cases hw
    · split at hw'
      · cases hw'
      · exact h.inj w w' mod hw hw'

theorem Lives.step (h : Lives s os) (hR : Change par s s' o k) : Lives s' (os ++ o) := by
  cases hR with
  | books hs ho =>
    obtain ⟨hnext, hhosts, -⟩ : s'.nextNodeVectorIndex = s.nextNodeVectorIndex ∧
        s'.hosts = s.hosts ∧ s'.unEquippedHosts = s.unEquippedHosts := by simpa [fleet] using hs
    refine ⟨fun mod => ?_, hhosts ▸ h.inj⟩
    obtain ⟨l, hl, hrest⟩ := h.life mod
    refine ⟨l, ?_, by rwa [hnext, hhosts]⟩
    rw [List.foldlM_append, hl]
    exact life_books ho l
  | @driven x v m hv hx =>
    refine ⟨fun mod => ?_, h.inj⟩
    obtain ⟨l, hl, hunborn, hliving⟩ := h.life mod
    refine ⟨l, ?_, hunborn, hliving⟩
    rw [life_append hl, next_of_act hx]
    split
    · rename_i hm
      rw [hliving.2 ⟨v, hm ▸ hv⟩]
      rfl
    · rfl
  | added hv hu hshare hx hid => exact h.added hv hx
  | leftOut hv hu hshare => exact ⟨by simpa using h.life, h.inj⟩
  | givenUp hv hu hx => exact h.givenUp hv hx
  | forgotten hv => exact ⟨by simpa using h.life, h.inj⟩

theorem lives_init : Lives ({} : ScenarioManager V) [] where
  life _ := ⟨.unborn, rfl, by simp, by simp⟩
  inj _ _ _ hv := nomatch hv

/-! ### The share of the modules -/

/-- How many more modules there are than their share. -/
def excess (rate : ℚ) (s : ScenarioManager V) : ℚ :=
  s.hosts.length - rate * (s.hosts.length + s.unEquippedHosts.card)

/-- The excess if the next vehicle is left out. -/
def excessNext (rate : ℚ) (s : ScenarioManager V) : ℚ := s.excess rate - rate

omit [LinearOrder V] in
theorem option1_sub (rate : ℚ) (s : ScenarioManager V) :
    s.option1 - rate = s.excessNext rate / (s.hosts.length + s.unEquippedHosts.card + 1) := by
  have hpos : (0 : ℚ) < s.hosts.length + s.unEquippedHosts.card + 1 := by positivity
  rw [option1, excessNext, excess, sub_eq_iff_eq_add, div_eq_iff hpos.ne', add_mul,
    div_mul_cancel₀ _ hpos.ne']
  ring

omit [LinearOrder V] in
theorem option2_sub (rate : ℚ) (s : ScenarioManager V) :
    s.option2 - rate =
      (s.excessNext rate + 1) / (s.hosts.length + s.unEquippedHosts.card + 1) := by
  have hpos : (0 : ℚ) < s.hosts.length + s.unEquippedHosts.card + 1 := by positivity
  rw [option2, excessNext, excess, sub_eq_iff_eq_add, div_eq_iff hpos.ne', add_mul,
    div_mul_cancel₀ _ hpos.ne']
  ring

omit [LinearOrder V] in
/-- The comparison of the two shares is one of the two excesses. -/
theorem option1_lt_iff (rate : ℚ) (s : ScenarioManager V) :
    |s.option1 - rate| < |s.option2 - rate| ↔
      |s.excessNext rate| < |s.excessNext rate + 1| := by
  have hpos : (0 : ℚ) < s.hosts.length + s.unEquippedHosts.card + 1 := by positivity
  rw [option1_sub, option2_sub, abs_div, abs_div, abs_of_pos hpos]
  exact div_lt_div_iff_of_pos_right hpos

/-- The nearer of two numbers with distance one is near to zero. -/
theorem abs_nearer_le {y b : ℚ} (hb : 0 ≤ b) (hlo : -(1 / 2 + b) - 1 ≤ y) (hhi : y ≤ 1 / 2 + b) :
    (|y| < |y + 1| → |y| ≤ 1 / 2 + b) ∧ (|y + 1| ≤ |y| → |y + 1| ≤ 1 / 2 + b) := by
  constructor
  · intro h
    rw [← sq_lt_sq] at h
    rw [abs_le]
    constructor <;> nlinarith
  · intro h
    rw [← sq_le_sq] at h
    rw [abs_le]
    constructor <;> nlinarith

/-- No vehicle is both with and without a module, and the number of modules is near to its share. -/
structure Shared (rate : ℚ) (n : ℕ) (s : ScenarioManager V) : Prop where
  sorted : s.hosts.Sorted
  apart : ∀ v ∈ s.unEquippedHosts, s.hosts.find v = none
  near : |s.excess rate| ≤ 1 / 2 + n

theorem Shared.step (h₀ : 0 ≤ par.penetrationRate) (h₁ : par.penetrationRate ≤ 1)
    (h : Shared par.penetrationRate n s) (hR : Change par s s' o k) :
    Shared par.penetrationRate (n + k) s' := by
  obtain ⟨hlo, hhi⟩ := abs_le.1 h.near
  -- the decision about a vehicle takes the excess nearer to zero
  have hnearer := abs_nearer_le (b := n) (y := s.excessNext par.penetrationRate)
    (Nat.cast_nonneg n) (by unfold excessNext; linarith) (by unfold excessNext; linarith)
  cases hR with
  | books hs ho =>
    obtain ⟨-, hhosts, hun⟩ : s'.nextNodeVectorIndex = s.nextNodeVectorIndex ∧
        s'.hosts = s.hosts ∧ s'.unEquippedHosts = s.unEquippedHosts := by simpa [fleet] using hs
    refine ⟨hhosts ▸ h.sorted, ?_, ?_⟩
    · rw [hhosts, hun]
      exact h.apart
    · unfold excess
      rw [hhosts, hun]
      exact h.near
  | driven hv hx => exact h
  -- equipped, as the share is too small
  | @added x v hv hu hshare hx hid =>
    refine ⟨h.sorted.put v _, fun w hw => ?_, ?_⟩
    · rw [OrderedMap.find_put, if_neg (ne_of_mem_of_not_mem hw hu)]
      exact h.apart w hw
    · have hexcess : excess par.penetrationRate { s with
          nextNodeVectorIndex := s.nextNodeVectorIndex + 1
          hosts := s.hosts.put v s.nextNodeVectorIndex } =
            s.excessNext par.penetrationRate + 1 := by
        simp only [excess, excessNext, OrderedMap.length_put hv, Nat.cast_add, Nat.cast_one]
        ring
      rw [hexcess]
      refine hnearer.2 (not_lt.1 fun hlt => ?_)
      exact absurd ((option1_lt_iff _ s).2 hlt) (not_lt.2 hshare)
  -- not equipped, as it is large enough
  | @leftOut v hv hu hshare =>
    refine ⟨h.sorted, fun w hw => ?_, ?_⟩
    · rcases Finset.mem_insert.1 hw with rfl | hw
      · exact hv
      · exact h.apart w hw
    · have hexcess : excess par.penetrationRate { s with
          unEquippedHosts := insert v s.unEquippedHosts } = s.excessNext par.penetrationRate := by
        simp only [excess, excessNext, Finset.card_insert_of_notMem hu, Nat.cast_add, Nat.cast_one]
        ring
      rw [hexcess]
      exact hnearer.1 ((option1_lt_iff _ s).1 hshare)
  -- a module that is given up changes the excess by one at most
  | @givenUp x v m u hv hu hx =>
    have hnot : v ∉ s.unEquippedHosts := fun hmem => by simp [h.apart v hmem] at hv
    obtain rfl : u = s.unEquippedHosts := by
      rcases hu with rfl | rfl
      · rfl
      · exact Finset.erase_eq_of_notMem hnot
    refine ⟨h.sorted.erase v, fun w hw => ?_, ?_⟩
    · rw [OrderedMap.find_erase, if_neg (ne_of_mem_of_not_mem hw hnot)]
      exact h.apart w hw
    · have hlength : (s.hosts.length : ℚ) = (s.hosts.erase v).length + 1 := by
        exact_mod_cast (h.sorted.length_erase hv).symm
      simp only [excess, hlength] at hlo hhi ⊢
      rw [abs_le]
      push_cast
      constructor <;> linarith
  | @forgotten v hv =>
    refine ⟨h.sorted, fun w hw => h.apart w (Finset.mem_of_mem_erase hw), ?_⟩
    by_cases hu : v ∈ s.unEquippedHosts
    · have hcard : (s.unEquippedHosts.card : ℚ) = (s.unEquippedHosts.erase v).card + 1 := by
        exact_mod_cast (Finset.card_erase_add_one hu).symm
      simp only [excess, hcard] at hlo hhi ⊢
      rw [abs_le]
      push_cast
      constructor <;> linarith
    · refine le_trans (b := 1 / 2 + (n : ℚ)) ?_ (by simp)
      simpa only [excess, Finset.erase_eq_of_notMem hu] using h.near

theorem shared_init (rate : ℚ) : Shared rate 0 ({} : ScenarioManager V) where
  sorted := OrderedMap.sorted_nil
  apart _ hv := by simp at hv
  near := by norm_num [excess]

end ScenarioManager

/-! ### Every run -/

section Runs

open ScenarioManager

variable {par : ManagerPar} {s : ManagerRun V} {es : List (ManagerEvent V)}
  {os : List (ManagerEffect V)}

/-- **A module lives once.**  Whatever the server reports, and in whatever order, each module is
made at most once, driven only after that and given up at most once, and after that nothing more is
done to it.  The modules that have been made are those with the numbers below
`nextNodeVectorIndex`, and those that live are the modules of the managed vehicles, one for each. -/
theorem module_lives_once (h : (scenarioManager par).exec {} es = some (s, os)) (mod : ℕ) :
    ∃ l, os.foldlM (ModuleLife.next mod) .unborn = some l ∧
      (l = .unborn ↔ s.manager.nextNodeVectorIndex ≤ mod) ∧
      (l = .living ↔ ∃! v, s.manager.hosts.find v = some mod) := by
  obtain ⟨n, -, hchain⟩ := exec_chain h
  have hlives : Lives s.manager os := Chain.invariant (J := fun s os _ => Lives s os) lives_init
    (fun _ _ _ _ _ _ hlives hR => hlives.step hR) hchain
  obtain ⟨l, hl, hunborn, hliving⟩ := hlives.life mod
  refine ⟨l, hl, hunborn, hliving.trans ⟨?_, ExistsUnique.exists⟩⟩
  rintro ⟨v, hv⟩
  exact ⟨v, hv, fun w hw => hlives.inj w v mod hw hv⟩

/-- Half of the vehicles get a module. -/
def halfEquipped : ManagerPar where
  moduleType := [("*", "Car")]
  moduleName := [("*", "car")]
  penetrationRate := 1 / 2
  coordinateTransformation := ⟨⟨0, 0⟩, ⟨100, 100⟩, 25⟩

/-- The variables of a vehicle that stands still. -/
def standing (p : TraCICoord) : List VehicleVariable :=
  [.position p, .roadId "E0", .speed 0, .angle 90, .signals 0, .length 5, .height 2, .width 2]

/-- Two vehicles depart, the first arrives. -/
def twoVehiclesRun : List (ManagerEvent ℕ) :=
  [.connectAndStart ⟨0, [.sim [], .idList []], fun _ => [], fun _ => "car"⟩,
    .executeOneTimestep ⟨1, [.sim [.departed [7]], .idList [7]],
      fun _ => standing ⟨1, 1⟩, fun _ => "car"⟩,
    .executeOneTimestep ⟨2, [.sim [.departed [8]], .idList [7, 8], .vehicle 7 (standing ⟨2, 1⟩)],
      fun _ => standing ⟨1, 1⟩, fun _ => "car"⟩,
    .executeOneTimestep ⟨3, [.sim [.arrived [7]], .idList [8], .vehicle 8 (standing ⟨2, 1⟩)],
      fun _ => [], fun _ => "car"⟩]

theorem exec_twoVehiclesRun :
    ∃ s os, (scenarioManager halfEquipped).exec {} twoVehiclesRun = some (s, os) ∧
      s.manager.nextNodeVectorIndex = 1 ∧ s.manager.hosts = [] := by
  have hrun : ((scenarioManager halfEquipped).exec {} twoVehiclesRun).map
      (fun r => (r.1.manager.nextNodeVectorIndex, r.1.manager.hosts)) = some (1, []) := by
    decide +kernel
  obtain ⟨⟨s, os⟩, hexec, hend⟩ := Option.map_eq_some_iff.1 hrun
  exact ⟨s, os, hexec, Prod.mk.inj hend⟩

theorem module_lives_once_twoVehicles :
    ∃ s os, (scenarioManager halfEquipped).exec {} twoVehiclesRun = some (s, os) ∧
      os.foldlM (ModuleLife.next 0) .unborn = some .gone := by
  obtain ⟨s, os, hexec, hnext, hhosts⟩ := exec_twoVehiclesRun
  obtain ⟨l, hl, hunborn, hliving⟩ := module_lives_once hexec 0
  refine ⟨s, os, hexec, ?_⟩
  cases l with
  | gone => exact hl
  | unborn => simp [hnext] at hunborn
  | living => simp [hhosts] at hliving

/-- **The share of the vehicles with a module.**  In every run the number of modules differs from
the share `penetrationRate` of all vehicles in the region, with a module and without, by no more
than a half and one for each time that a vehicle has been reported to be gone. -/
theorem share_kept (h₀ : 0 ≤ par.penetrationRate) (h₁ : par.penetrationRate ≤ 1)
    (h : (scenarioManager par).exec {} es = some (s, os)) :
    |(s.manager.hosts.length : ℚ) - par.penetrationRate *
      (s.manager.hosts.length + s.manager.unEquippedHosts.card)| ≤ 1 / 2 + exitsIn par es := by
  obtain ⟨n, hn, hchain⟩ := exec_chain h
  have hshared : Shared par.penetrationRate n s.manager :=
    Chain.invariant (J := fun s _ n => Shared par.penetrationRate n s)
      (shared_init par.penetrationRate)
      (fun _ _ _ _ _ _ hshared hR => hshared.step h₀ h₁ hR) hchain
  have hcast : (n : ℚ) ≤ exitsIn par es := by exact_mod_cast hn
  exact hshared.near.trans (by linarith)

theorem share_kept_twoVehicles :
    ∃ s os, (scenarioManager halfEquipped).exec {} twoVehiclesRun = some (s, os) ∧
      |(s.manager.hosts.length : ℚ) - 1 / 2 *
        (s.manager.hosts.length + s.manager.unEquippedHosts.card)| ≤ 1 / 2 + (1 : ℕ) := by
  obtain ⟨s, os, hexec, -, -⟩ := exec_twoVehiclesRun
  have hexits : exitsIn halfEquipped twoVehiclesRun = 1 := by decide +kernel
  refine ⟨s, os, hexec, ?_⟩
  have hshare := share_kept (by norm_num [halfEquipped]) (by norm_num [halfEquipped]) hexec
  rwa [hexits] at hshare

end Runs

end V2nLte
