import V2nLte.Lte.Common
import V2nLte.Machine.ByteStream
import Mathlib.Algebra.BigOperators.Group.List.Basic
import Mathlib.Data.BitVec

/-!
# X2 messages

An X2 message is a list of information elements.  On its way between two eNBs it is copied, and it
may be turned into bytes and back.  A C++ object starts with arbitrary values in the members that
its constructor does not set, so both steps take the values that happen to be there.

* `LteX2Message.arrives_iff` : for which messages and which steps a message arrives as it was sent.
* `LteX2Message.deserialize_serialize` : what a message is after it was turned into bytes and back.

The handover command does not copy its two fields, and the receiver copies every command before it
reads it, so that a handover command never arrives.  The plain CoMP elements come back from the
bytes without a length, which the next serializer stumbles over.
-/

namespace V2nLte

open ByteStream

/-! ### Information elements -/

/-- The kinds of information elements. -/
inductive X2InformationElementType where
  | COMP_REQUEST_IE
  | COMP_REPLY_IE
  | COMP_PROP_REQUEST_IE
  | COMP_PROP_REPLY_IE
  | X2_HANDOVER_CMD_IE
  deriving DecidableEq

/-- Whether a resource block can be used. -/
inductive CompRbStatus where
  | AVAILABLE_RB
  | NOT_AVAILABLE_RB
  deriving DecidableEq

/-- The class of an information element and the fields of the class. -/
inductive X2IeFields where
  | compRequest
  | compReply
  | compProportionalRequest (numBlocks : Fin 4294967296)
  | compProportionalReply (allowedBlocksMap : List CompRbStatus)
  | handoverCommand (startHandover : Bool) (ueId : MacNodeId)
  deriving DecidableEq

/-- An information element. -/
structure X2InformationElement where
  /-- Its class and the fields of the class. -/
  fields : X2IeFields
  /-- `length_`, an `int64_t`: the bytes of the fields. -/
  length : BitVec 64
  deriving DecidableEq

/-- What happens to be in the members of a new object that its constructor does not set. -/
structure UnsetMembers where
  /-- `startHandover_` of an `X2HandoverCommandIE`. -/
  startHandover : Bool
  /-- `ueId_` of an `X2HandoverCommandIE`. -/
  ueId : MacNodeId
  /-- `length_` of an `X2InformationElement`. -/
  length : BitVec 64

namespace X2IeFields

/-- `getType`. -/
def type : X2IeFields → X2InformationElementType
  | compRequest => .COMP_REQUEST_IE
  | compReply => .COMP_REPLY_IE
  | compProportionalRequest _ => .COMP_PROP_REQUEST_IE
  | compProportionalReply _ => .COMP_PROP_REPLY_IE
  | handoverCommand _ _ => .X2_HANDOVER_CMD_IE

/-- The length that the constructor of the class and its setters give. -/
def length : X2IeFields → BitVec 64
  | compRequest => 0
  | compReply => 0
  | compProportionalRequest _ => 4
  | compProportionalReply map => 4 + BitVec.ofNat 64 map.length
  | handoverCommand _ _ => 3

/-- A new element with these fields. -/
def new (f : X2IeFields) : X2InformationElement := ⟨f, f.length⟩

/-- The fields of a copy. -/
def dup (mem : UnsetMembers) : X2IeFields → X2IeFields
  -- `operator=` of the handover command copies the fields of its base class only
  | handoverCommand _ _ => handoverCommand mem.startHandover mem.ueId
  | f => f

/-- The element is a handover command. -/
def isHandoverCommand : X2IeFields → Bool
  | handoverCommand _ _ => true
  | _ => false

/-- The element is a plain CoMP request or reply, without fields. -/
def isPlain : X2IeFields → Bool
  | compRequest => true
  | compReply => true
  | _ => false

/-- The loop of `deserializeStatusMap` can count to the number of blocks. -/
def Countable : X2IeFields → Prop
  | compProportionalReply map => map.length ≤ 2147483648
  | _ => True

/-- The number of bytes that the serializer writes for the fields. -/
def bytes : X2IeFields → ℕ
  | compRequest => 0
  | compReply => 0
  | compProportionalRequest _ => 4
  | compProportionalReply map => 4 + map.length
  | handoverCommand _ _ => 3

end X2IeFields

/-- `dup` of an information element. -/
def X2InformationElement.dup (mem : UnsetMembers) (ie : X2InformationElement) :
    X2InformationElement :=
  { ie with fields := ie.fields.dup mem }

/-! ### Messages -/

/-- The kinds of X2 messages. -/
inductive LteX2MessageType where
  | X2_COMP_MSG
  | X2_HANDOVER_CONTROL_MSG
  | X2_HANDOVER_DATA_MSG
  | X2_UNKNOWN_MSG
  deriving DecidableEq

/-- An X2 message. -/
structure LteX2Message where
  /-- The kind. -/
  type : LteX2MessageType
  /-- The sender. -/
  sourceId : Fin 4294967296
  /-- The receiver. -/
  destinationId : Fin 4294967296
  /-- `ieList_`. -/
  ieList : List X2InformationElement
  /-- `msgLength_`, in bytes. -/
  msgLength : BitVec 64
  /-- The chunk length, in bits. -/
  chunkLength : BitVec 64
  deriving DecidableEq

namespace LteX2Message

/-- A new message without information elements. -/
def new (type : LteX2MessageType) (sourceId destinationId : Fin 4294967296) : LteX2Message :=
  ⟨type, sourceId, destinationId, [], 0, 8 * 11⟩

/-- `pushIe`. -/
def pushIe (m : LteX2Message) (ie : X2InformationElement) : LteX2Message :=
  { m with
    ieList := m.ieList ++ [ie]
    msgLength := m.msgLength + ie.length
    chunkLength := m.chunkLength + 8 * (ie.length + 1) }

/-- `popIe`; the chunk length stays. -/
def popIe (m : LteX2Message) : Option (X2InformationElement × LteX2Message) :=
  match m.ieList with
  | [] => none
  | ie :: ies => some (ie, { m with ieList := ies, msgLength := m.msgLength - ie.length })

/-- A message built by `pushIe`. -/
def built (type : LteX2MessageType) (sourceId destinationId : Fin 4294967296)
    (ies : List X2IeFields) : LteX2Message :=
  (ies.map X2IeFields.new).foldl pushIe (new type sourceId destinationId)

/-- `dup`, or copy assignment; `mem i` is what is in the copy of element `i`. -/
def copy (mem : ℕ → UnsetMembers) (m : LteX2Message) : LteX2Message :=
  { m with ieList := m.ieList.mapIdx fun i ie => ie.dup (mem i) }

end LteX2Message

/-! ### The serializer -/

/-- The octet of a message kind. -/
def LteX2MessageType.toByte : LteX2MessageType → Byte
  | X2_COMP_MSG => 0
  | X2_HANDOVER_CONTROL_MSG => 1
  | X2_HANDOVER_DATA_MSG => 2
  | X2_UNKNOWN_MSG => 3

/-- The message kinds that `deserialize` makes a message of. -/
def LteX2MessageType.ofByte (b : Byte) : Option LteX2MessageType :=
  if b = 0 then some X2_COMP_MSG
  else if b = 1 then some X2_HANDOVER_CONTROL_MSG
  else if b = 2 then some X2_HANDOVER_DATA_MSG
  else none

/-- The octet of an element kind. -/
def X2InformationElementType.toByte : X2InformationElementType → Byte
  | COMP_REQUEST_IE => 0
  | COMP_REPLY_IE => 1
  | COMP_PROP_REQUEST_IE => 2
  | COMP_PROP_REPLY_IE => 3
  | X2_HANDOVER_CMD_IE => 4

/-- The element kinds that `deserialize` makes an element of. -/
def X2InformationElementType.ofByte (b : Byte) : Option X2InformationElementType :=
  if b = 0 then some COMP_REQUEST_IE
  else if b = 1 then some COMP_REPLY_IE
  else if b = 2 then some COMP_PROP_REQUEST_IE
  else if b = 3 then some COMP_PROP_REPLY_IE
  else if b = 4 then some X2_HANDOVER_CMD_IE
  else none

namespace CompRbStatus

/-- The octet of a status. -/
def toByte : CompRbStatus → Byte
  | AVAILABLE_RB => 0
  | NOT_AVAILABLE_RB => 1

/-- The status of an octet; only 0 and 1 are written. -/
def ofByte (b : Byte) : CompRbStatus := if b = 0 then AVAILABLE_RB else NOT_AVAILABLE_RB

/-- Read a status. -/
def read (bs : List Byte) : CompRbStatus × List Byte :=
  let b := readByte bs
  (ofByte b.1, b.2)

end CompRbStatus

/-- `serializeStatusMap`. -/
def serializeStatusMap (map : List CompRbStatus) : List Byte :=
  writeBe 4 map.length ++ map.flatMap fun status => [status.toByte]

/-- `deserializeStatusMap`. -/
def deserializeStatusMap (bs : List Byte) : Option (List CompRbStatus × List Byte) :=
  let size := readBe 4 bs
  -- the loop variable is an `int`, which overflows past `2 ^ 31` blocks
  if size.1 ≤ 2147483648 then some (readMany CompRbStatus.read size.1 size.2) else none

/-- The body of the loop of `serialize`. -/
def X2IeFields.serialize (f : X2IeFields) : List Byte :=
  f.type.toByte ::
    match f with
    | compRequest => []
    | compReply => []
    | compProportionalRequest numBlocks => writeBe 4 numBlocks
    | compProportionalReply map => serializeStatusMap map
    | handoverCommand startHandover ueId =>
      (if startHandover then 1 else 0) :: writeBe 2 ueId

/-- The body of the loop of `deserialize`; `none` is an exception. -/
def X2InformationElement.deserialize (mem : UnsetMembers) (bs : List Byte) :
    Option (X2InformationElement × List Byte) :=
  let ieType := readByte bs
  match X2InformationElementType.ofByte ieType.1 with
  -- `X2InformationElement(type)` does not set the length
  | some .COMP_REQUEST_IE => some (⟨.compRequest, mem.length⟩, ieType.2)
  | some .COMP_REPLY_IE => some (⟨.compReply, mem.length⟩, ieType.2)
  | some .COMP_PROP_REQUEST_IE =>
    let numBlocks := readBe 4 ieType.2
    some ((X2IeFields.compProportionalRequest (Fin.ofNat 4294967296 numBlocks.1)).new, numBlocks.2)
  | some .COMP_PROP_REPLY_IE =>
    (deserializeStatusMap ieType.2).map fun map =>
      ((X2IeFields.compProportionalReply map.1).new, map.2)
  | some .X2_HANDOVER_CMD_IE =>
    let startHandover := readByte ieType.2
    let ueId := readBe 2 startHandover.2
    some ((X2IeFields.handoverCommand (decide (startHandover.1 ≠ 0))
      (Fin.ofNat 65536 ueId.1)).new, ueId.2)
  | none => none

namespace LteX2Message

/-- The bytes that the serializer writes. -/
def toBytes (m : LteX2Message) : List Byte :=
  m.type.toByte :: (writeBe 4 m.sourceId ++ (writeBe 4 m.destinationId ++
    (writeBe 2 m.ieList.length ++ m.ieList.flatMap fun ie => ie.fields.serialize)))

/-- `serialize`; `none` is an exception. -/
def serialize (m : LteX2Message) : Option (List Byte) :=
  if m.type = .X2_UNKNOWN_MSG then none
  else if m.chunkLength = BitVec.ofNat 64 (8 * m.toBytes.length) then some m.toBytes
  else none

/-- The loop of `deserialize`: the elements from number `i` on. -/
def deserializeIes (mem : ℕ → UnsetMembers) : ℕ → ℕ → List Byte → LteX2Message →
    Option LteX2Message
  | 0, _, _, m => some m
  | n + 1, i, bs, m =>
    (X2InformationElement.deserialize (mem i) bs).bind fun ie =>
      deserializeIes mem n (i + 1) ie.2 (m.pushIe ie.1)

/-- `deserialize`; `none` is an exception. -/
def deserialize (mem : ℕ → UnsetMembers) (bs : List Byte) : Option LteX2Message :=
  let type := readByte bs
  (LteX2MessageType.ofByte type.1).bind fun msgType =>
    let sourceId := readBe 4 type.2
    let destinationId := readBe 4 sourceId.2
    let nrElements := readBe 2 destinationId.2
    deserializeIes mem nrElements.1 0 nrElements.2
      (new msgType (Fin.ofNat 4294967296 sourceId.1) (Fin.ofNat 4294967296 destinationId.1))

/-- What happens to a message on its way. -/
inductive Passage where
  /-- It is copied. -/
  | copy
  /-- It is turned into bytes and back. -/
  | wire
  deriving DecidableEq

/-- One step of the way. -/
def pass (mem : ℕ → UnsetMembers) (m : LteX2Message) : Passage → Option LteX2Message
  | .copy => some (m.copy mem)
  | .wire => m.serialize.bind (deserialize mem)

/-- The whole way; `mem n i` is what is in element `i` made in step `n`. -/
def travel (mem : ℕ → ℕ → UnsetMembers) : List Passage → LteX2Message → Option LteX2Message
  | [], m => some m
  | p :: ps, m => (m.pass (mem 0) p).bind (travel (fun n => mem (n + 1)) ps)

/-- The fields of the information elements. -/
def fields (m : LteX2Message) : List X2IeFields := m.ieList.map (·.fields)

end LteX2Message

/-! ### The length of a message -/

namespace X2IeFields

variable {mem : UnsetMembers} {f : X2IeFields}

theorem length_eq (f : X2IeFields) : f.length = BitVec.ofNat 64 f.bytes := by
  cases f with
  | compProportionalReply map => rw [bytes, BitVec.ofNat_add]; rfl
  | _ => rfl

theorem length_serialize (f : X2IeFields) : f.serialize.length = f.bytes + 1 := by
  cases f with
  | compProportionalReply map =>
    simp only [serialize, serializeStatusMap, bytes, List.length_cons, List.length_append,
      length_writeBe, List.length_flatMap, List.map_const', List.length_nil,
      List.sum_replicate_nat, Nat.zero_add, Nat.mul_one]
  | handoverCommand startHandover ueId =>
    simp only [serialize, bytes, List.length_cons, length_writeBe]
  | compProportionalRequest numBlocks =>
    simp only [serialize, bytes, List.length_cons, length_writeBe]
  | compRequest => rfl
  | compReply => rfl

@[simp] theorem bytes_dup : (f.dup mem).bytes = f.bytes := by cases f <;> rfl

@[simp] theorem isPlain_dup : (f.dup mem).isPlain = f.isPlain := by cases f <;> rfl

@[simp] theorem dup_dup : (f.dup mem).dup mem = f.dup mem := by cases f <;> rfl

theorem dup_eq_self (h : f.isHandoverCommand = false) : f.dup mem = f := by
  cases f with
  | handoverCommand startHandover ueId => exact absurd h Bool.true_eq_false.mp
  | _ => rfl

theorem countable_dup (h : f.Countable) : (f.dup mem).Countable := by
  cases f with
  | handoverCommand startHandover ueId => trivial
  | _ => exact h

end X2IeFields

namespace LteX2Message

/-- The bytes of a message with these elements: 11 for the header, and one for the kind of each
element. -/
def byteCount (fs : List X2IeFields) : ℕ := 11 + (fs.map fun f => f.bytes + 1).sum

variable {m m' : LteX2Message} {mem : ℕ → UnsetMembers} {ies : List X2InformationElement}
  {fs : List X2IeFields}

theorem length_toBytes (m : LteX2Message) : m.toBytes.length = byteCount m.fields := by
  simp only [toBytes, List.length_cons, List.length_append, length_writeBe, List.length_flatMap,
    byteCount, fields, List.map_map, Function.comp_def, X2IeFields.length_serialize]
  omega

/-- What every copy has in common with its original is in common to the lists. -/
theorem map_dup {α : Type*} {g : X2IeFields → α} (h : ∀ mem f, g (X2IeFields.dup mem f) = g f)
    (mem : ℕ → UnsetMembers) (m : LteX2Message) : (m.copy mem).fields.map g = m.fields.map g := by
  refine List.ext_getElem ?_ fun i _ _ => ?_
  · simp only [copy, fields, List.length_map, List.length_mapIdx]
  · simp only [copy, fields, List.getElem_map, List.getElem_mapIdx, X2InformationElement.dup, h]

/-- What pushing a list of elements does. -/
theorem foldl_pushIe (ies : List X2InformationElement) (m : LteX2Message) :
    ies.foldl pushIe m =
      { m with
        ieList := m.ieList ++ ies
        msgLength := m.msgLength + (ies.map (·.length)).sum
        chunkLength := m.chunkLength + (ies.map fun ie => 8 * (ie.length + 1)).sum } := by
  induction ies generalizing m with
  | nil => simp only [List.foldl_nil, List.append_nil, List.map_nil, List.sum_nil, add_zero]
  | cons ie ies ih =>
    simp only [List.foldl_cons, ih, pushIe, List.append_assoc, List.singleton_append,
      List.map_cons, List.sum_cons, BitVec.add_assoc]

end LteX2Message

/-! ### Out of the bytes again -/

namespace X2IeFields

/-- The element that the deserializer makes of the bytes of these fields. -/
def remade (mem : UnsetMembers) (f : X2IeFields) : X2InformationElement :=
  ⟨f, if f.isPlain then mem.length else f.length⟩

theorem remade_of_not_plain {mem : UnsetMembers} {f : X2IeFields} (h : f.isPlain = false) :
    f.remade mem = f.new := by
  rw [remade, h]
  rfl

theorem length_remade {mem : UnsetMembers} (h : mem.length = 1) (f : X2IeFields) :
    (f.remade mem).length = BitVec.ofNat 64 (f.bytes + if f.isPlain then 1 else 0) := by
  cases f with
  | compRequest => exact h
  | compReply => exact h
  | compProportionalReply map => exact length_eq (compProportionalReply map)
  | _ => rfl

end X2IeFields

theorem CompRbStatus.read_toByte (status : CompRbStatus) (rest : List Byte) :
    read ([status.toByte] ++ rest) = (status, rest) := by cases status <;> rfl

theorem deserializeStatusMap_serialize {map : List CompRbStatus} (h : map.length ≤ 2147483648)
    (rest : List Byte) :
    deserializeStatusMap (serializeStatusMap map ++ rest) = some (map, rest) := by
  have hsize : map.length < 256 ^ 4 := by omega
  have hstatus : ∀ status ∈ map, ∀ rest, CompRbStatus.read ([status.toByte] ++ rest) =
      (status, rest) := fun status _ => status.read_toByte
  have hmap := readMany_flatMap hstatus rest
  simp only [deserializeStatusMap, serializeStatusMap, List.append_assoc,
    readBe_writeBe_of_lt hsize, if_pos h, hmap]

theorem X2InformationElement.deserialize_serialize {mem : UnsetMembers} {f : X2IeFields}
    (h : f.Countable) (rest : List Byte) :
    X2InformationElement.deserialize mem (f.serialize ++ rest) = some (f.remade mem, rest) := by
  cases f with
  | compRequest => rfl
  | compReply => rfl
  | compProportionalRequest numBlocks =>
    have hn : (numBlocks : ℕ) < 256 ^ 4 := numBlocks.isLt
    simp only [X2InformationElement.deserialize, X2IeFields.serialize, List.cons_append,
      readByte_cons, readBe_writeBe_of_lt hn, Fin.ofNat_val_eq_self]
    rfl
  | compProportionalReply map =>
    simp only [X2InformationElement.deserialize, X2IeFields.serialize, List.cons_append,
      readByte_cons, deserializeStatusMap_serialize h]
    rfl
  | handoverCommand startHandover ueId =>
    have hn : (ueId : ℕ) < 256 ^ 2 := ueId.isLt
    cases startHandover <;>
    · simp only [X2InformationElement.deserialize, X2IeFields.serialize, List.cons_append,
        readByte_cons, readBe_writeBe_of_lt hn, Fin.ofNat_val_eq_self]
      rfl

namespace LteX2Message

variable {m m' : LteX2Message} {mem : ℕ → UnsetMembers} {fs : List X2IeFields}

/-- The loop reads the elements one by one and pushes them. -/
theorem deserializeIes_serialize (h : ∀ f ∈ fs, f.Countable) (i : ℕ) (rest : List Byte)
    (m : LteX2Message) :
    deserializeIes mem fs.length i (fs.flatMap X2IeFields.serialize ++ rest) m =
      some ((fs.mapIdx fun j f => f.remade (mem (i + j))).foldl pushIe m) := by
  induction fs generalizing i m with
  | nil => rfl
  | cons f fs ih =>
    have hf := h f List.mem_cons_self
    have hfs := ih (fun g hg => h g (List.mem_cons_of_mem f hg)) (i + 1)
      (m.pushIe (f.remade (mem i)))
    simp only [List.flatMap_cons, List.append_assoc, List.length_cons, deserializeIes,
      X2InformationElement.deserialize_serialize hf, Option.bind_some, hfs, List.mapIdx_cons,
      List.foldl_cons, Nat.add_zero, Nat.add_right_comm i 1, Nat.add_assoc]

/-- The chunk length is the number of bytes. -/
def Sized (m : LteX2Message) : Prop := m.chunkLength = BitVec.ofNat 64 (8 * byteCount m.fields)

/-- The message that the deserializer makes of the bytes of a message. -/
def remade (mem : ℕ → UnsetMembers) (m : LteX2Message) : LteX2Message :=
  (m.fields.mapIdx fun i f => f.remade (mem i)).foldl pushIe
    (new m.type m.sourceId m.destinationId)

theorem serialize_of_sized (hty : m.type ≠ .X2_UNKNOWN_MSG) (h : m.Sized) :
    m.serialize = some m.toBytes := by
  rw [serialize, if_neg hty, length_toBytes]
  exact if_pos h

theorem serialize_eq_some {bs : List Byte} (h : m.serialize = some bs) :
    m.type ≠ .X2_UNKNOWN_MSG ∧ m.Sized ∧ m.toBytes = bs := by
  rw [serialize, length_toBytes] at h
  split_ifs at h with hty hs
  exact ⟨hty, hs, Option.some.inj h⟩

/-- What a message is after it was turned into bytes and back. -/
theorem deserialize_serialize (hty : m.type ≠ .X2_UNKNOWN_MSG) (hn : m.fields.length < 65536)
    (h : ∀ f ∈ m.fields, f.Countable) : deserialize mem m.toBytes = some (m.remade mem) := by
  have htype : LteX2MessageType.ofByte m.type.toByte = some m.type := by
    cases hm : m.type with
    | X2_UNKNOWN_MSG => exact absurd hm hty
    | _ => rfl
  have hsrc : (m.sourceId : ℕ) < 256 ^ 4 := m.sourceId.isLt
  have hdst : (m.destinationId : ℕ) < 256 ^ 4 := m.destinationId.isLt
  have hlen : m.ieList.length < 256 ^ 2 := by
    rw [fields, List.length_map] at hn
    exact hn
  have hies : deserializeIes mem _ 0 _ _ = _ :=
    deserializeIes_serialize h 0 [] (new m.type m.sourceId m.destinationId)
  rw [List.append_nil, fields, List.length_map, List.flatMap_map] at hies
  simp only [deserialize, toBytes, readByte_cons, htype, Option.bind_some,
    readBe_writeBe_of_lt hsrc, readBe_writeBe_of_lt hdst, readBe_writeBe_of_lt hlen,
    Fin.ofNat_val_eq_self, hies, remade, fields, Nat.zero_add]

theorem mapIdx_eq_map {α : Type*} {d : ℕ → X2IeFields → α} {g : X2IeFields → α}
    (h : ∀ i, ∀ f ∈ fs, d i f = g f) : fs.mapIdx d = fs.map g := by
  refine List.ext_getElem ?_ fun i _ _ => ?_
  · rw [List.length_mapIdx, List.length_map]
  · rw [List.getElem_mapIdx, List.getElem_map, h i _ (List.getElem_mem _)]

theorem remade_of_not_plain (h : ∀ f ∈ m.fields, f.isPlain = false) :
    m.remade mem = built m.type m.sourceId m.destinationId m.fields := by
  have hnew : (m.fields.mapIdx fun i f => f.remade (mem i)) = m.fields.map X2IeFields.new :=
    mapIdx_eq_map fun i f hf => X2IeFields.remade_of_not_plain (h f hf)
  rw [remade, built, hnew]

/-- Everything but the lengths is as it was. -/
theorem fields_remade (mem : ℕ → UnsetMembers) (m : LteX2Message) :
    (m.remade mem).fields = m.fields := by
  refine List.ext_getElem ?_ fun i _ _ => ?_
  · simp only [remade, foldl_pushIe, new, fields, List.nil_append, List.length_map,
      List.length_mapIdx]
  · simp only [remade, foldl_pushIe, new, fields, List.nil_append, List.getElem_map,
      List.getElem_mapIdx, X2IeFields.remade]

theorem header_remade (mem : ℕ → UnsetMembers) (m : LteX2Message) :
    (m.remade mem).type = m.type ∧ (m.remade mem).sourceId = m.sourceId ∧
      (m.remade mem).destinationId = m.destinationId := by
  rw [remade, foldl_pushIe]
  exact ⟨rfl, rfl, rfl⟩

/-- The chunk length in terms of the lengths of the elements. -/
theorem chunkLength_foldl {make : X2IeFields → X2InformationElement} {n : X2IeFields → ℕ}
    (h : ∀ f, (make f).length = BitVec.ofNat 64 (n f)) (fs : List X2IeFields)
    (m : LteX2Message) : ((fs.map make).foldl pushIe m).chunkLength =
      m.chunkLength + BitVec.ofNat 64 (8 * (fs.map fun f => n f + 1).sum) := by
  induction fs generalizing m with
  | nil => exact (add_zero _).symm
  | cons f fs ih =>
    have hf : (8 : BitVec 64) * (BitVec.ofNat 64 (n f) + 1) = BitVec.ofNat 64 (8 * (n f + 1)) := by
      rw [BitVec.ofNat_mul, BitVec.ofNat_add]
      rfl
    rw [List.map_cons, List.foldl_cons, ih, List.map_cons, List.sum_cons, Nat.mul_add,
      BitVec.ofNat_add, ← hf, ← BitVec.add_assoc]
    simp only [pushIe, h]

theorem sized_built (type : LteX2MessageType) (sourceId destinationId : Fin 4294967296)
    (fs : List X2IeFields) : (built type sourceId destinationId fs).Sized := by
  have hfields : (built type sourceId destinationId fs).fields = fs := by
    simp only [built, foldl_pushIe, new, fields, List.nil_append, List.map_map, Function.comp_def,
      X2IeFields.new, List.map_id']
  rw [Sized, hfields, built, chunkLength_foldl X2IeFields.length_eq, byteCount, Nat.mul_add,
    BitVec.ofNat_add]
  rfl

/-- The length that happens to be in a plain element is too long by one byte. -/
theorem not_sized_remade {stray : UnsetMembers} (hl : stray.length = 1)
    (hn : m.fields.length < 65536) (h : ∃ f ∈ m.fields, f.isPlain = true) :
    ¬ (m.remade fun _ => stray).Sized := by
  have hcount : (m.fields.map fun f => f.bytes + (if f.isPlain then 1 else 0) + 1).sum =
      (m.fields.map fun f => f.bytes + 1).sum + m.fields.countP (·.isPlain) := by
    generalize m.fields = fs
    induction fs with
    | nil => rfl
    | cons f fs ih =>
      rw [List.map_cons, List.sum_cons, ih, List.map_cons, List.sum_cons, List.countP_cons]
      omega
  have hpos : 0 < m.fields.countP (·.isPlain) := List.countP_pos_iff.mpr h
  have hle : m.fields.countP (·.isPlain) ≤ m.fields.length := List.countP_le_length
  have hmap : (m.fields.mapIdx fun _ f => f.remade stray) = m.fields.map (·.remade stray) :=
    mapIdx_eq_map fun _ _ _ => rfl
  intro hs
  rw [Sized, fields_remade, remade, hmap, chunkLength_foldl (X2IeFields.length_remade hl),
    hcount] at hs
  have hheader : (8 * 11 : BitVec 64).toNat = 88 := by decide
  have hnat := congrArg BitVec.toNat hs
  simp only [byteCount, new, BitVec.toNat_add, BitVec.toNat_ofNat, hheader] at hnat
  omega

/-! ### The way of a message -/

variable {p : Passage} {ps : List Passage} {mems : ℕ → ℕ → UnsetMembers} {stray : UnsetMembers}

theorem fields_built (type : LteX2MessageType) (sourceId destinationId : Fin 4294967296)
    (fs : List X2IeFields) : (built type sourceId destinationId fs).fields = fs := by
  simp only [built, foldl_pushIe, new, fields, List.nil_append, List.map_map, Function.comp_def,
    X2IeFields.new, List.map_id']

theorem header_built (type : LteX2MessageType) (sourceId destinationId : Fin 4294967296)
    (fs : List X2IeFields) :
    (built type sourceId destinationId fs).type = type ∧
      (built type sourceId destinationId fs).sourceId = sourceId ∧
      (built type sourceId destinationId fs).destinationId = destinationId := by
  rw [built, foldl_pushIe]
  exact ⟨rfl, rfl, rfl⟩

theorem sized_copy : (m.copy mem).Sized ↔ m.Sized := by
  have hbytes : byteCount (m.copy mem).fields = byteCount m.fields := by
    rw [byteCount, byteCount, map_dup fun _ f => by rw [X2IeFields.bytes_dup]]
  rw [Sized, hbytes]
  exact Iff.rfl

theorem fields_copy_of_no_command (mem : ℕ → UnsetMembers)
    (h : ∀ f ∈ m.fields, f.isHandoverCommand = false) : (m.copy mem).fields = m.fields := by
  refine List.ext_getElem ?_ fun i _ hi => ?_
  · simp only [copy, fields, List.length_map, List.length_mapIdx]
  · have hf := h m.fields[i] (List.getElem_mem hi)
    simp only [fields, List.getElem_map] at hf
    simp only [copy, fields, List.getElem_map, List.getElem_mapIdx, X2InformationElement.dup,
      X2IeFields.dup_eq_self hf]

theorem fields_copy_const (stray : UnsetMembers) (m : LteX2Message) :
    (m.copy fun _ => stray).fields = m.fields.map (X2IeFields.dup stray) := by
  refine List.ext_getElem ?_ fun i _ _ => ?_
  · simp only [copy, fields, List.length_map, List.length_mapIdx]
  · simp only [copy, fields, List.getElem_map, List.getElem_mapIdx, X2InformationElement.dup]

/-- The message `m'` says the same as the message `m`. -/
structure SameAs (m m' : LteX2Message) : Prop where
  type : m'.type = m.type
  sourceId : m'.sourceId = m.sourceId
  destinationId : m'.destinationId = m.destinationId
  fields : m'.fields = m.fields

/-- The message arrives as it was sent, whatever happens to be in the members of new objects. -/
def ArrivesAsSent (m : LteX2Message) (ps : List Passage) : Prop :=
  ∀ mems, ∃ m', travel mems ps m = some m' ∧ m.SameAs m'

/-- The steps that a message with these elements survives. -/
structure Survives (type : LteX2MessageType) (fs : List X2IeFields) (ps : List Passage) : Prop where
  /-- Handover commands are not copied. -/
  noCopy : Passage.copy ∈ ps → ∀ f ∈ fs, f.isHandoverCommand = false
  /-- A message with a plain element is turned into bytes at most once. -/
  wireOnce : 2 ≤ ps.count .wire → ∀ f ∈ fs, f.isPlain = false
  /-- What is turned into bytes is of a known kind, and its maps have at most `2 ^ 31` blocks. -/
  readable : Passage.wire ∈ ps → type ≠ .X2_UNKNOWN_MSG ∧ ∀ f ∈ fs, f.Countable

theorem SameAs.trans {m₁ m₂ m₃ : LteX2Message} (h : m₁.SameAs m₂) (h' : m₂.SameAs m₃) :
    m₁.SameAs m₃ :=
  ⟨h'.type.trans h.type, h'.sourceId.trans h.sourceId, h'.destinationId.trans h.destinationId,
    h'.fields.trans h.fields⟩

theorem sameAs_remade (mem : ℕ → UnsetMembers) (m : LteX2Message) : m.SameAs (m.remade mem) :=
  ⟨(header_remade mem m).1, (header_remade mem m).2.1, (header_remade mem m).2.2,
    fields_remade mem m⟩

theorem Survives.tail {type : LteX2MessageType} (h : Survives type fs (p :: ps)) :
    Survives type fs ps where
  noCopy hc := h.noCopy (List.mem_cons_of_mem p hc)
  wireOnce hw := h.wireOnce (hw.trans List.count_le_count_cons)
  readable hw := h.readable (List.mem_cons_of_mem p hw)

theorem pass_wire (mem : ℕ → UnsetMembers) (hty : m.type ≠ .X2_UNKNOWN_MSG)
    (hn : m.fields.length < 65536) (h : ∀ f ∈ m.fields, f.Countable) (hs : m.Sized) :
    m.pass mem .wire = some (m.remade mem) := by
  rw [pass, serialize_of_sized hty hs, Option.bind_some, deserialize_serialize hty hn h]

/-- The induction keeps the chunk length right as long as it will be checked again. -/
theorem travel_of_survives (mems : ℕ → ℕ → UnsetMembers) (hn : m.fields.length < 65536)
    (hs : Passage.wire ∈ ps → m.Sized) (h : Survives m.type m.fields ps) :
    ∃ m', travel mems ps m = some m' ∧ m.SameAs m' := by
  induction ps generalizing m mems with
  | nil => exact ⟨m, rfl, rfl, rfl, rfl, rfl⟩
  | cons p ps ih =>
    cases p with
    | copy =>
      have hf := fields_copy_of_no_command (mems 0) (h.noCopy List.mem_cons_self)
      have hcopy : m.SameAs (m.copy (mems 0)) := ⟨rfl, rfl, rfl, hf⟩
      obtain ⟨m', htravel, hsame⟩ := ih (m := m.copy (mems 0)) (fun n => mems (n + 1))
        (hf ▸ hn) (fun hw => sized_copy.mpr (hs (List.mem_cons_of_mem _ hw))) (hf ▸ h.tail)
      exact ⟨m', htravel, hcopy.trans hsame⟩
    | wire =>
      obtain ⟨hty, hmaps⟩ := h.readable List.mem_cons_self
      have hstep := pass_wire (mems 0) hty hn hmaps (hs List.mem_cons_self)
      have hsame := sameAs_remade (mems 0) m
      have hsized : Passage.wire ∈ ps → (m.remade (mems 0)).Sized := by
        intro hw
        have htwice : 2 ≤ (Passage.wire :: ps).count .wire := by
          rw [List.count_cons_self]
          exact Nat.succ_le_succ (List.count_pos_iff.mpr hw)
        rw [remade_of_not_plain (h.wireOnce htwice)]
        exact sized_built _ _ _ _
      obtain ⟨m', htravel, hsame'⟩ := ih (m := m.remade (mems 0)) (fun n => mems (n + 1))
        (hsame.fields ▸ hn) hsized (hsame.fields ▸ hsame.type ▸ h.tail)
      exact ⟨m', by rw [travel, hstep, Option.bind_some, htravel], hsame.trans hsame'⟩

/-! ### What does not arrive -/

/-- The message can be read back from its bytes. -/
def Readable (m : LteX2Message) : Prop :=
  m.type ≠ .X2_UNKNOWN_MSG ∧ ∀ f ∈ m.fields, f.Countable

theorem countable_deserialize {mem : UnsetMembers} {bs : List Byte}
    {ie : X2InformationElement × List Byte}
    (h : X2InformationElement.deserialize mem bs = some ie) : ie.1.fields.Countable := by
  unfold X2InformationElement.deserialize at h
  dsimp only at h
  split at h
  · cases h; trivial
  · cases h; trivial
  · cases h; trivial
  · obtain ⟨map, hmap, rfl⟩ := Option.map_eq_some_iff.mp h
    unfold deserializeStatusMap at hmap
    dsimp only at hmap
    split_ifs at hmap with hsize
    cases hmap
    exact (length_readMany _ _ _).trans_le hsize
  · cases h; trivial
  · cases h

theorem readable_deserializeIes {n i : ℕ} {bs : List Byte} (hm : m.Readable)
    (h : deserializeIes mem n i bs m = some m') : m'.Readable := by
  induction n generalizing i bs m with
  | zero => cases h; exact hm
  | succ n ih =>
    obtain ⟨ie, hie, hrest⟩ := Option.bind_eq_some_iff.mp h
    refine ih (m := m.pushIe ie.1) ⟨hm.1, fun f hf => ?_⟩ hrest
    rw [fields, pushIe, List.map_append, List.mem_append, List.map_singleton,
      List.mem_singleton] at hf
    rcases hf with hf | rfl
    · exact hm.2 f hf
    · exact countable_deserialize hie

/-- What comes out of the bytes can be turned into bytes and read back again. -/
theorem readable_deserialize {bs : List Byte} (h : deserialize mem bs = some m') :
    m'.Readable := by
  obtain ⟨type, htype, hies⟩ := Option.bind_eq_some_iff.mp h
  refine readable_deserializeIes ⟨?_, fun f hf => absurd hf List.not_mem_nil⟩ hies
  unfold LteX2MessageType.ofByte at htype
  split_ifs at htype
  all_goals cases htype; exact fun hunknown => nomatch hunknown

theorem readable_copy (h : m.Readable) : (m.copy mem).Readable := by
  refine ⟨h.1, fun f hf => ?_⟩
  obtain ⟨ie, hie, rfl⟩ := List.mem_map.mp hf
  obtain ⟨i, hi, rfl⟩ := List.mem_mapIdx.mp hie
  exact X2IeFields.countable_dup (h.2 _ (List.mem_map_of_mem (List.getElem_mem hi)))

theorem readable_travel (hm : Passage.wire ∈ ps ∨ m.Readable)
    (h : travel mems ps m = some m') : m'.Readable := by
  induction ps generalizing m mems with
  | nil => cases h; exact hm.resolve_left List.not_mem_nil
  | cons p ps ih =>
    obtain ⟨m₁, hpass, hrest⟩ := Option.bind_eq_some_iff.mp h
    cases p with
    | copy =>
      cases hpass
      exact ih (hm.imp (List.mem_of_ne_of_mem (by decide)) readable_copy) hrest
    | wire =>
      obtain ⟨bs, -, hbs⟩ := Option.bind_eq_some_iff.mp hpass
      exact ih (Or.inr (readable_deserialize hbs)) hrest

theorem pass_wire_eq_some (hn : m.fields.length < 65536) (hm : m.Readable)
    (h : m.pass mem .wire = some m') : m.Sized ∧ m' = m.remade mem := by
  obtain ⟨bs, hbs, hread⟩ := Option.bind_eq_some_iff.mp h
  obtain ⟨-, hs, rfl⟩ := serialize_eq_some hbs
  rw [deserialize_serialize hm.1 hn hm.2] at hread
  exact ⟨hs, (Option.some.inj hread).symm⟩

/-- All handover commands have the start flag that happened to be in memory. -/
def Overwritten (stray : UnsetMembers) (m : LteX2Message) : Prop :=
  ∀ startHandover ueId, X2IeFields.handoverCommand startHandover ueId ∈ m.fields →
    startHandover = stray.startHandover

theorem overwritten_copy : (m.copy fun _ => stray).Overwritten stray := by
  intro startHandover ueId h
  rw [fields_copy_const] at h
  obtain ⟨f, -, hf⟩ := List.mem_map.mp h
  cases f <;> cases hf
  rfl

theorem overwritten_travel (hn : m.fields.length < 65536) (hm : Passage.wire ∈ ps → m.Readable)
    (ho : Passage.copy ∈ ps ∨ m.Overwritten stray)
    (h : travel (fun _ _ => stray) ps m = some m') : m'.Overwritten stray := by
  induction ps generalizing m with
  | nil => cases h; exact ho.resolve_left List.not_mem_nil
  | cons p ps ih =>
    obtain ⟨m₁, hpass, hrest⟩ := Option.bind_eq_some_iff.mp h
    cases p with
    | copy =>
      cases hpass
      refine ih ?_ (fun hw => readable_copy (hm (List.mem_cons_of_mem _ hw)))
        (Or.inr overwritten_copy) hrest
      rw [fields_copy_const, List.length_map]
      exact hn
    | wire =>
      have hread := hm List.mem_cons_self
      obtain ⟨-, rfl⟩ := pass_wire_eq_some hn hread hpass
      have hsame := sameAs_remade (fun _ => stray) m
      refine ih (hsame.fields ▸ hn)
        (fun _ => ⟨hsame.type ▸ hread.1, hsame.fields ▸ hread.2⟩) ?_ hrest
      refine ho.imp (List.mem_of_ne_of_mem (by decide)) fun hover => ?_
      intro startHandover ueId hf
      exact hover startHandover ueId (hsame.fields ▸ hf)

/-- A wrong chunk length stays until the serializer finds it. -/
theorem travel_of_not_sized (hs : ¬ m.Sized) (hw : Passage.wire ∈ ps) :
    travel mems ps m = none := by
  induction ps generalizing m mems with
  | nil => exact absurd hw List.not_mem_nil
  | cons p ps ih =>
    cases p with
    | copy =>
      have hw' : Passage.wire ∈ ps := List.mem_of_ne_of_mem (by decide) hw
      exact ih (fun hsized => hs (sized_copy.mp hsized)) hw'
    | wire =>
      have hser : m.serialize = none := by
        rw [Option.eq_none_iff_forall_not_mem]
        exact fun bs hbs => hs (serialize_eq_some hbs).2.1
      rw [travel, pass, hser, Option.bind_none, Option.bind_none]

theorem travel_twice (hl : stray.length = 1) (hn : m.fields.length < 65536) (hm : m.Readable)
    (hp : ∃ f ∈ m.fields, f.isPlain = true) (hw : 2 ≤ ps.count .wire) :
    travel (fun _ _ => stray) ps m = none := by
  induction ps generalizing m with
  | nil => exact absurd hw (by decide)
  | cons p ps ih =>
    cases p with
    | copy =>
      rw [List.count_cons_of_ne (by decide)] at hw
      refine ih ?_ (readable_copy hm) ?_ hw
      · rw [fields_copy_const, List.length_map]
        exact hn
      · obtain ⟨f, hf, hplain⟩ := hp
        refine ⟨f.dup stray, ?_, X2IeFields.isPlain_dup.trans hplain⟩
        rw [fields_copy_const]
        exact List.mem_map_of_mem hf
    | wire =>
      rw [List.count_cons_self] at hw
      have hwire : Passage.wire ∈ ps := List.count_pos_iff.mp (by omega)
      rw [travel, Option.bind_eq_none_iff]
      intro m₁ hpass
      obtain ⟨-, rfl⟩ := pass_wire_eq_some hn hm hpass
      exact travel_of_not_sized (not_sized_remade hl hn hp) hwire

theorem survives_of_arrives (hn : m.fields.length < 65536) (h : m.ArrivesAsSent ps) :
    Survives m.type m.fields ps := by
  have hread : Passage.wire ∈ ps → m.Readable := by
    intro hw
    obtain ⟨m', htravel, hsame⟩ := h fun _ _ => ⟨false, 0, 0⟩
    have hm' := readable_travel (Or.inl hw) htravel
    exact ⟨hsame.type ▸ hm'.1, hsame.fields ▸ hm'.2⟩
  refine ⟨fun hc f hf => ?_, fun hw f hf => ?_, hread⟩
  · cases f with
    | handoverCommand startHandover ueId =>
      -- the copy happens to have the opposite start flag
      obtain ⟨m', htravel, hsame⟩ := h fun _ _ => ⟨!startHandover, 0, 0⟩
      have hover := overwritten_travel hn hread (Or.inl hc) htravel startHandover ueId
        (hsame.fields ▸ hf)
      exact absurd hover (Bool.not_ne_self startHandover).symm
    | _ => rfl
  · by_contra hplain
    have hwire : Passage.wire ∈ ps := List.count_pos_iff.mp (by omega)
    obtain ⟨m', htravel, -⟩ := h fun _ _ => ⟨false, 0, 1⟩
    rw [travel_twice rfl hn (hread hwire) ⟨f, hf, Bool.not_eq_false _ |>.mp hplain⟩ hw] at htravel
    cases htravel

/-! ### Handover commands -/

/-- What the handover manager does with a message. -/
inductive HandoverCall where
  /-- `receiveDataFromSourceEnb`. -/
  | data (sourceEnb : MacNodeId)
  /-- `receiveHandoverCommand`. -/
  | command (ueId enb : MacNodeId) (startHo : Bool)
  deriving DecidableEq

/-- `LteHandoverManager::handleX2Message`; `none` is an exception. -/
def handleX2Message (mem : ℕ → UnsetMembers) (m : LteX2Message) : Option HandoverCall :=
  match m.type with
  | .X2_HANDOVER_DATA_MSG => some (.data (Fin.ofNat 65536 m.sourceId))
  | .X2_HANDOVER_CONTROL_MSG =>
    (m.copy mem).popIe.bind fun hoCommandIe =>
      match hoCommandIe.1.fields with
      | .handoverCommand startHandover ueId =>
        some (.command ueId (Fin.ofNat 65536 (m.copy mem).sourceId) startHandover)
      | _ => none
  | _ => none

/-- The message of `LteHandoverManager::sendHandoverCommand`. -/
def sendHandoverCommand (ueId : MacNodeId) (startHo : Bool) : LteX2Message :=
  built .X2_HANDOVER_CONTROL_MSG 0 0 [.handoverCommand startHo ueId]

/-- What `LteX2Manager::fromStack` sends to one destination. -/
def fromStack (mem : ℕ → UnsetMembers) (nodeId targetEnb : MacNodeId) (m : LteX2Message) :
    LteX2Message :=
  { m.copy mem with
    sourceId := Fin.ofNat 4294967296 nodeId
    destinationId := Fin.ofNat 4294967296 targetEnb }

/-- What the target eNB does with a handover command of another eNB. -/
def commandReceived (mems : ℕ → ℕ → UnsetMembers) (nodeId targetEnb ueId : MacNodeId)
    (startHo : Bool) (ps : List Passage) : Option HandoverCall :=
  (travel (fun n => mems (n + 2)) ps
    (fromStack (mems 0) nodeId targetEnb (sendHandoverCommand ueId startHo))).bind
      (handleX2Message (mems 1))

/-- The target eNB calls `receiveHandoverCommand` with what was sent. -/
def CommandArrives (nodeId targetEnb ueId : MacNodeId) (startHo : Bool) (ps : List Passage) :
    Prop :=
  ∀ mems, commandReceived mems nodeId targetEnb ueId startHo ps =
    some (.command ueId nodeId startHo)

/-- The handover manager reads what happens to be in its own copy. -/
theorem startHo_of_handleX2Message {ueId enb : MacNodeId} {startHo : Bool}
    (h : handleX2Message (fun _ => stray) m = some (.command ueId enb startHo)) :
    startHo = stray.startHandover := by
  unfold handleX2Message at h
  split at h
  · cases h
  · obtain ⟨⟨ie, m₁⟩, hpop, hie⟩ := Option.bind_eq_some_iff.mp h
    have hmem : ie.fields ∈ (m.copy fun _ => stray).fields := by
      unfold popIe at hpop
      split at hpop
      · cases hpop
      · rename_i heq
        cases hpop
        rw [fields, heq]
        exact List.mem_cons_self
    dsimp only at hie
    split at hie
    · rename_i hf
      cases hie
      exact overwritten_copy _ _ (hf ▸ hmem)
    · cases hie
  · cases h

theorem not_commandArrives (nodeId targetEnb ueId : MacNodeId) (startHo : Bool)
    (ps : List Passage) : ¬ CommandArrives nodeId targetEnb ueId startHo ps := by
  intro h
  obtain ⟨m, -, hm⟩ := Option.bind_eq_some_iff.mp (h fun _ _ => ⟨!startHo, 0, 0⟩)
  exact Bool.not_ne_self startHo (startHo_of_handleX2Message hm).symm

/-- A message arrives as it was sent exactly if it survives the steps of its way; a handover
command sent to another eNB never does. -/
theorem arrives_iff (type : LteX2MessageType) (sourceId destinationId : Fin 4294967296)
    (ies : List X2IeFields) (ps : List Passage) (hn : ies.length < 65536) :
    ((built type sourceId destinationId ies).ArrivesAsSent ps ↔ Survives type ies ps) ∧
      ∀ nodeId targetEnb ueId startHo, ¬ CommandArrives nodeId targetEnb ueId startHo ps := by
  have hfields := fields_built type sourceId destinationId ies
  have htype := (header_built type sourceId destinationId ies).1
  refine ⟨⟨fun h => ?_, fun h mems => ?_⟩, fun _ _ _ _ => not_commandArrives _ _ _ _ ps⟩
  · have hs := survives_of_arrives (hfields.symm ▸ hn) h
    rwa [hfields, htype] at hs
  · refine travel_of_survives mems (hfields.symm ▸ hn) (fun _ => sized_built _ _ _ _) ?_
    rwa [hfields, htype]

/-- A CoMP request with a block count arrives after a copy and two times over the wire. -/
theorem arrives_blockCount :
    (built .X2_COMP_MSG 1 2 [.compProportionalRequest 50]).ArrivesAsSent [.copy, .wire, .wire] :=
  (arrives_iff .X2_COMP_MSG 1 2 [.compProportionalRequest 50] [.copy, .wire, .wire]
    (by decide)).1.mpr
    { noCopy := by decide
      wireOnce := by decide
      readable := fun _ => ⟨by decide, fun f hf => by cases List.mem_singleton.mp hf; trivial⟩ }

/-- A handover command may be copied into a completion for another UE. -/
theorem start_becomes_completion :
    ¬ (built .X2_HANDOVER_CONTROL_MSG 1 2 [.handoverCommand true 1025]).ArrivesAsSent [.copy] := by
  intro h
  obtain ⟨m', htravel, hsame⟩ := h fun _ _ => ⟨false, 1026, 0⟩
  cases htravel
  exact absurd hsame.fields (by decide)

end LteX2Message

end V2nLte
