import V2nLte.Machine.ByteStream
import V2nLte.Traffic.Reroute

/-!
# The messages on the wire

`TrafficMsgSerializer` writes the fields of a message one after the other, an `int` as an unsigned
number of 32 bits and a `double` as its 64 bits.  Here the fields are machine words, a `double` is
its bit pattern, so that it may be a NaN.

* `codec_report`, `codec_route` : writing and reading undo each other, both ways.
* `decode_sendRoute` : what a vehicle makes of a route.
* `wire_round_trip` : both together.
* `empty_route_rejected` : the message for an empty route does not pass the checks of the vehicle.
-/

namespace V2nLte

open ByteStream

namespace Wire

/-! ### Numbers -/

/-- `writeUint32Be((uint32_t)n)`. -/
def writeInt (n : Int32) : List Byte := writeBe 4 n.toUInt32.toNat

/-- `(int)readUint32Be()`. -/
def readInt (stream : List Byte) : Int32 × List Byte :=
  let n := readBe 4 stream
  ((UInt32.ofNat n.1).toInt32, n.2)

/-- `writeDouble`, of the bits of the number. -/
def writeDouble (bits : UInt64) : List Byte := writeBe 8 bits.toNat

/-- `readDouble`. -/
def readDouble (stream : List Byte) : UInt64 × List Byte :=
  let n := readBe 8 stream
  (UInt64.ofNat n.1, n.2)

theorem codec_int : Codec 4 readInt writeInt where
  length_write n := length_writeBe 4 _
  read_write n rest := by
    rw [readInt, writeInt, readBe_writeBe_of_lt n.toUInt32.toNat_lt]
    simp
  write_read bs hbs := by
    have hlt : (readBe 4 bs).1 < UInt32.size := readBe_lt 4 bs
    rw [readInt, writeInt, UInt32.toUInt32_toInt32, UInt32.toNat_ofNat_of_lt' hlt,
      writeBe_readBe hbs]

theorem codec_double : Codec 8 readDouble writeDouble where
  length_write n := length_writeBe 8 _
  read_write n rest := by
    rw [readDouble, writeDouble, readBe_writeBe_of_lt n.toNat_lt]
    simp
  write_read bs hbs := by
    have hlt : (readBe 8 bs).1 < UInt64.size := readBe_lt 8 bs
    rw [readDouble, writeDouble, UInt64.toNat_ofNat_of_lt' hlt, writeBe_readBe hbs]

/-! ### Reports -/

/-- `VehicleReportMsg`. -/
structure VehicleReportMsg where
  /-- The edge that the vehicle is on. -/
  edgeIndex : Int32
  /-- The edge that it goes to. -/
  destEdgeIndex : Int32
  /-- The bits of its speed. -/
  speed : UInt64
  /-- The bits of the time. -/
  timestamp : UInt64
  /-- The bits of the time that the last edge took. -/
  realTravelTime : UInt64
  /-- How often it has changed the lane. -/
  laneChangeCount : Int32
  deriving DecidableEq

namespace VehicleReportMsg

/-- `setChunkLength(B(36))`, at the sender and after reading. -/
def chunkLength : ℕ := 36

/-- The bytes of a report. -/
def serialize (msg : VehicleReportMsg) : List Byte :=
  writeInt msg.edgeIndex ++ (writeInt msg.destEdgeIndex ++ (writeDouble msg.speed ++
    (writeDouble msg.timestamp ++ (writeDouble msg.realTravelTime ++
      writeInt msg.laneChangeCount))))

/-- A report from its bytes, and the bytes that follow. -/
def deserialize (stream : List Byte) : VehicleReportMsg × List Byte :=
  let edgeIndex := readInt stream
  let destEdgeIndex := readInt edgeIndex.2
  let speed := readDouble destEdgeIndex.2
  let timestamp := readDouble speed.2
  let realTravelTime := readDouble timestamp.2
  let laneChangeCount := readInt realTravelTime.2
  (⟨edgeIndex.1, destEdgeIndex.1, speed.1, timestamp.1, realTravelTime.1, laneChangeCount.1⟩,
    laneChangeCount.2)

/-- A report is its fields in the order of writing. -/
def ofFields : Int32 × Int32 × UInt64 × UInt64 × UInt64 × Int32 ≃ VehicleReportMsg where
  toFun f := ⟨f.1, f.2.1, f.2.2.1, f.2.2.2.1, f.2.2.2.2.1, f.2.2.2.2.2⟩
  invFun m := (m.edgeIndex, m.destEdgeIndex, m.speed, m.timestamp, m.realTravelTime,
    m.laneChangeCount)
  left_inv _ := rfl
  right_inv _ := rfl

theorem codec_report : Codec chunkLength deserialize serialize :=
  (codec_int.pair (codec_int.pair (codec_double.pair (codec_double.pair
    (codec_double.pair codec_int))))).equiv ofFields

end VehicleReportMsg

/-! ### Routes -/

/-- `ServerRouteMsg`. -/
structure ServerRouteMsg where
  /-- The number of edges. -/
  routeLength : Int32
  /-- The edges, in the first places. -/
  routeEdges : Fin 64 → Int32
  deriving DecidableEq

namespace ServerRouteMsg

/-- `setChunkLength(B(260))`, at the sender and after reading. -/
def chunkLength : ℕ := 260

/-- The bytes of a route. -/
def serialize (msg : ServerRouteMsg) : List Byte :=
  writeInt msg.routeLength ++ (List.ofFn msg.routeEdges).flatMap writeInt

/-- A route from its bytes, and the bytes that follow. -/
def deserialize (stream : List Byte) : ServerRouteMsg × List Byte :=
  let len := readInt stream
  let routeEdges := readFn readInt 64 len.2
  (⟨len.1, routeEdges.1⟩, routeEdges.2)

/-- A route message is its length and its slots. -/
def ofFields : Int32 × (Fin 64 → Int32) ≃ ServerRouteMsg where
  toFun f := ⟨f.1, f.2⟩
  invFun m := (m.routeLength, m.routeEdges)
  left_inv _ := rfl
  right_inv _ := rfl

theorem codec_route : Codec chunkLength deserialize serialize := by
  have h := (codec_int.pair (codec_int.many 64)).equiv ofFields
  have hlen : 4 + 64 * 4 = chunkLength := by decide
  have hread : deserialize = fun bs => (ofFields (readPair readInt (readFn readInt 64) bs).1,
      (readPair readInt (readFn readInt 64) bs).2) := by
    funext bs
    simp only [deserialize, readPair, ofFields, Equiv.coe_fn_mk]
  have hwrite : serialize = fun m => writeInt (ofFields.symm m).1 ++
      (List.ofFn (ofFields.symm m).2).flatMap writeInt := by
    funext m
    simp only [serialize, ofFields, Equiv.coe_fn_symm_mk]
  rw [hread, hwrite, ← hlen]
  exact h

/-- The numbers in a message. -/
def toMsg (msg : ServerRouteMsg) : V2nLte.ServerRouteMsg where
  routeLength := msg.routeLength.toInt
  routeEdges i := (msg.routeEdges i).toInt

/-- The message that `sendRoute` builds.  The length of the route is cast to `int`. -/
def sendRoute (route : List Int32) : ServerRouteMsg :=
  let routeLen := min (Int32.ofNat route.length) 64
  { routeLength := routeLen
    routeEdges := fun i => if Int32.ofNat i < routeLen then (route[(i : ℕ)]?).getD 0 else -1 }

/-! ### From the server to a vehicle -/

/-- The check of an edge number by a vehicle, and the id of the edge. -/
def lookup (index : EdgeIndex) (n : Int32) : Option Text :=
  if n.toInt < 0 then none else index.indexToEdge[n.toInt.toNat]?

/-- The checks of `socketDataArrived`: the edges of the message, `none` if it is discarded. -/
def decode (index : EdgeIndex) (msg : V2nLte.ServerRouteMsg) : Option (List Text) :=
  if msg.routeLength ≤ 0 ∨ 64 < msg.routeLength then none else VehicleApp.edgeList index msg

/-- A vehicle applies the edges that pass its checks. -/
theorem socketDataArrived_of_decode {msg : V2nLte.ServerRouteMsg} {r : RouteReplies}
    {app : VehicleApp} {edges : List Text} (hq : app.isEquipped = true)
    (h : decode app.edgeIndex msg = some edges) :
    VehicleApp.socketDataArrived msg r app =
      VehicleApp.applyRoute edges r { app with routesReceived := app.routesReceived + 1 } := by
  unfold decode at h
  split at h <;> rename_i hlen
  · cases h
  · obtain ⟨hpos, hmax⟩ := not_or.1 hlen
    exact VehicleApp.socketDataArrived_usable hq (not_le.1 hpos) (not_lt.1 hmax) h

variable {route : List Int32}

theorem toInt_ofNat_lt {n m : ℕ} (hn : n < 2 ^ 31) (hm : m < 2 ^ 31) :
    Int32.ofNat n < Int32.ofNat m ↔ n < m := by
  rw [Int32.lt_iff_toInt_lt, Int32.toInt_ofNat_of_lt hn, Int32.toInt_ofNat_of_lt hm, Nat.cast_lt]

/-- The length in the message. -/
theorem routeLen_eq (hlen : route.length < 2 ^ 31) :
    (sendRoute route).routeLength = Int32.ofNat (min route.length 64) := by
  have h64 : (64 : Int32) = Int32.ofNat 64 := rfl
  have hle : Int32.ofNat route.length ≤ Int32.ofNat 64 ↔ route.length ≤ 64 := by
    rw [Int32.le_iff_toInt_le, Int32.toInt_ofNat_of_lt hlen, Int32.toInt_ofNat_of_lt (by decide),
      Nat.cast_le]
  show (if Int32.ofNat route.length ≤ 64 then Int32.ofNat route.length else 64) = _
  rw [h64]
  split <;> rename_i hif
  · rw [Nat.min_eq_left (hle.1 hif)]
  · rw [Nat.min_eq_right (Nat.le_of_not_le fun h => hif (hle.2 h))]

theorem slot_eq (hlen : route.length < 2 ^ 31) (i : Fin 64) :
    (sendRoute route).routeEdges i =
      if (i : ℕ) < min route.length 64 then (route[(i : ℕ)]?).getD 0 else -1 := by
  show (if Int32.ofNat i < (sendRoute route).routeLength then _ else _) = _
  rw [routeLen_eq hlen]
  refine if_congr (toInt_ofNat_lt ?_ ?_) rfl rfl
  · omega
  · omega

/-- **What a vehicle makes of a route**: the first 64 edges, if it knows them all. -/
theorem decode_sendRoute (index : EdgeIndex) (hne : route ≠ []) (hlen : route.length < 2 ^ 31) :
    decode index (sendRoute route).toMsg = (route.take 64).mapM (lookup index) := by
  have hpos : 0 < route.length := List.length_pos_iff.2 hne
  have hrouteLength : (sendRoute route).toMsg.routeLength = (min route.length 64 : ℕ) := by
    show ((sendRoute route).routeLength).toInt = _
    rw [routeLen_eq hlen, Int32.toInt_ofNat_of_lt (by omega)]
  have htoNat : (sendRoute route).toMsg.routeLength.toNat = min route.length 64 := by omega
  have hslots : ((List.finRange 64).take (min route.length 64)).map
      (fun i : Fin 64 => (route[(i : ℕ)]?).getD 0) = route.take 64 := by
    refine List.ext_getElem ?_ fun i h₁ h₂ => ?_
    · rw [List.length_map, List.length_take, List.length_take, List.length_finRange]
      omega
    · rw [List.length_take] at h₂
      have hi : i < route.length := by omega
      rw [List.getElem_map, List.getElem_take, List.getElem_take, List.getElem_finRange]
      simp [hi]
  unfold decode
  rw [if_neg (by omega), VehicleApp.edgeList, htoNat, ← hslots, List.mapM_map]
  refine mapM_congr fun i hi => ?_
  have hilt : (i : ℕ) < min route.length 64 := by
    obtain ⟨k, hk, rfl⟩ := List.mem_iff_getElem.1 hi
    rw [List.length_take, List.length_finRange] at hk
    rw [List.getElem_take, List.getElem_finRange]
    simpa using hk
  have hslot : (sendRoute route).toMsg.routeEdges i = ((route[(i : ℕ)]?).getD 0).toInt := by
    show ((sendRoute route).routeEdges i).toInt = _
    rw [slot_eq hlen, if_pos hilt]
  rw [hslot, Function.comp_apply, lookup]

/-- The message of a route, as the vehicle reads it from the bytes. -/
def received (route : List Int32) : V2nLte.ServerRouteMsg :=
  (deserialize (serialize (sendRoute route))).1.toMsg

end ServerRouteMsg

/-- **Round trip**: the messages fill 36 and 260 octets, and reading undoes writing and writing
undoes reading.  A route of at least one and less than `2 ^ 31` edges passes the check of its
length; the vehicle goes on with the ids of its first 64 edges if it knows them all. -/
theorem wire_round_trip :
    ((∀ m : VehicleReportMsg, m.serialize.length = 36 ∧
        VehicleReportMsg.deserialize m.serialize = (m, [])) ∧
      ∀ bs : List Byte, bs.length = 36 → (VehicleReportMsg.deserialize bs).1.serialize = bs) ∧
    ((∀ m : ServerRouteMsg, m.serialize.length = 260 ∧
        ServerRouteMsg.deserialize m.serialize = (m, [])) ∧
      ∀ bs : List Byte, bs.length = 260 → (ServerRouteMsg.deserialize bs).1.serialize = bs) ∧
    ∀ route : List Int32, 0 < route.length → route.length < 2 ^ 31 →
      (∀ index : EdgeIndex, ServerRouteMsg.decode index (ServerRouteMsg.received route) =
        (route.take 64).mapM (ServerRouteMsg.lookup index)) ∧
      ∀ (app : VehicleApp) (r : RouteReplies) (edges : List Text), app.isEquipped = true →
        (route.take 64).mapM (ServerRouteMsg.lookup app.edgeIndex) = some edges →
        VehicleApp.socketDataArrived (ServerRouteMsg.received route) r app =
          VehicleApp.applyRoute edges r { app with routesReceived := app.routesReceived + 1 } := by
  refine ⟨VehicleReportMsg.codec_report.round_trip, ServerRouteMsg.codec_route.round_trip,
    fun route hpos hlen => ?_⟩
  have hreceived : ServerRouteMsg.received route = (ServerRouteMsg.sendRoute route).toMsg := by
    rw [ServerRouteMsg.received, (ServerRouteMsg.codec_route.round_trip.1 _).2]
  have hdecode : ∀ index : EdgeIndex,
      ServerRouteMsg.decode index (ServerRouteMsg.received route) =
        (route.take 64).mapM (ServerRouteMsg.lookup index) := by
    intro index
    rw [hreceived, ServerRouteMsg.decode_sendRoute index (List.length_pos_iff.1 hpos) hlen]
  refine ⟨hdecode, fun app r edges hq hedges => ?_⟩
  exact ServerRouteMsg.socketDataArrived_of_decode hq ((hdecode _).trans hedges)

/-- The table of a vehicle that knows three edges. -/
def threeEdges : EdgeIndex where
  edgeToIndex _ := none
  indexToEdge := [['a'], ['b'], ['c']]

theorem wire_round_trip_twoEdges :
    ServerRouteMsg.decode threeEdges (ServerRouteMsg.received [2, 0]) = some [['c'], ['a']] :=
  ((wire_round_trip.2.2 [2, 0] (by decide) (by decide)).1 threeEdges).trans (by decide)

/-- The vehicle takes a length of 0 for an invalid message, also when all of its (no) edges are
known. -/
theorem empty_route_rejected :
    ¬ ∀ (route : List Int32) (index : EdgeIndex) (edges : List Text),
      (route.take 64).mapM (ServerRouteMsg.lookup index) = some edges →
      ServerRouteMsg.decode index (ServerRouteMsg.received route) = some edges := by
  intro h
  have hread := (ServerRouteMsg.codec_route.round_trip.1 (ServerRouteMsg.sendRoute [])).2
  have hsome := h [] threeEdges [] rfl
  rw [ServerRouteMsg.received, hread] at hsome
  exact absurd hsome (by decide)

end Wire

end V2nLte
