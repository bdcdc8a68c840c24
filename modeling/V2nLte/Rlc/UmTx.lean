import V2nLte.Machine.Word

/-!
# The sending side of RLC UM

`UmTxEntity` keeps the SDUs of one connection in a queue.  When the MAC asks for a PDU of some
size, `rlcPduMake` fills it with whole SDUs from the front of the queue and, if room is left,
with the first part of the next one; what is left of a cut SDU is noted in `fragmentInfo`.

The SDUs that were accepted are one stream, and a place in it is a pair `(k, o)`: `o` bytes of
the `k`-th SDU have been sent.  `Cut sdus a chunks b` says that the chunks are the part of the
stream from `a` to `b`, and `rlcPduMake_spec` that a PDU is the next part of the stream.

The holding queue of a D2D mode switch is left out.
-/

namespace V2nLte

/-- `RLC_HEADER_UM`, in bytes. -/
def RLC_HEADER_UM : ℕ := 2

/-- An RLC SDU as it comes from PDCP.  It holds one IP packet, so that its length is far below
the range of an `int`, in which the entities compute with it. -/
structure RlcSdu where
  /-- Its sequence number. -/
  snoMainPacket : ℕ
  /-- Its length without the SDU header. -/
  lengthMainPacket : ℕ
  /-- The length of the packet, header included. -/
  byteLength : ℕ
  /-- It is not empty. -/
  pos : 0 < lengthMainPacket
  /-- It is not above `INT_MAX`. -/
  lt : lengthMainPacket < 2147483648
  deriving DecidableEq

/-- An SDU of `n + 1` bytes with a header of one byte. -/
def RlcSdu.small (sno : ℕ) (n : UInt8) : RlcSdu :=
  ⟨sno, n.toNat + 1, n.toNat + 2, Nat.succ_pos _, Nat.lt_of_le_of_lt n.toNat_lt (by decide)⟩

/-- `LteRlcUmDataPdu`. -/
structure UmDataPdu where
  /-- Its sequence number. -/
  pduSequenceNumber : ℕ
  /-- `1` : the last chunk is a fragment, `2` : the first is. -/
  framingInfo : ℕ
  /-- The chunks, each with the SDU it is a part of and its size. -/
  sdus : List (RlcSdu × ℕ)
  deriving DecidableEq

/-- The bytes of the chunks. -/
def chunkBytes (cs : List (RlcSdu × ℕ)) : ℕ := (cs.map Prod.snd).sum

/-- The length of a PDU with its header. -/
def UmDataPdu.byteLength (pdu : UmDataPdu) : ℕ := RLC_HEADER_UM + chunkBytes pdu.sdus

/-- `UmTxEntity`. -/
structure UmTxEntity where
  /-- The limit of the queue in bytes, `0` for none. -/
  queueSize : ℕ := 0
  /-- The SDUs, the first possibly cut. -/
  sduQueue : List RlcSdu := []
  /-- The bytes in the queue. -/
  queueLength : ℕ := 0
  /-- The SDU that was cut, and what is left of it. -/
  fragmentInfo : Option (RlcSdu × ℕ) := none
  /-- The first SDU of the queue was cut. -/
  firstIsFragment : Bool := false
  /-- The sequence number of the next PDU. -/
  sno : ℕ := 0

namespace UmTxEntity

/-- Take an SDU into the queue, if there is room. -/
def enque (t : UmTxEntity) (pkt : RlcSdu) : UmTxEntity × Bool :=
  if t.queueSize = 0 ∨ t.queueLength + pkt.byteLength < t.queueSize then
    ({ t with
      sduQueue := t.sduQueue ++ [pkt]
      queueLength := t.queueLength + pkt.byteLength }, true)
  else (t, false)

/-- What the loop of `rlcPduMake` leaves behind. -/
structure Filled where
  /-- The chunks put into the PDU. -/
  sdus : List (RlcSdu × ℕ)
  /-- The last of them is a fragment. -/
  endFrag : Bool
  /-- The SDUs that are left. -/
  sduQueue : List RlcSdu
  /-- Their bytes. -/
  queueLength : ℕ
  /-- The SDU that is left in part, with the bytes that are left. -/
  fragmentInfo : Option (RlcSdu × ℕ)
  /-- The next PDU begins with a fragment. -/
  firstIsFragment : Bool

/-- What is left of the first SDU of the queue.  It throws "Packets are different" if another SDU
was cut. -/
def firstLength (pkt : RlcSdu) : Option (RlcSdu × ℕ) → Option ℕ
  | none => some pkt.lengthMainPacket
  | some (cut, size) => if cut = pkt then some size else none

/-- The loop of `rlcPduMake`, for a PDU with room for `pduLength` more bytes. -/
def fill : List RlcSdu → ℕ → Option (RlcSdu × ℕ) → Bool → ℤ → Option Filled
  | [], queueLength, fragmentInfo, firstIsFragment, _ =>
    some ⟨[], false, [], queueLength, fragmentInfo, firstIsFragment⟩
  | pkt :: q, queueLength, fragmentInfo, firstIsFragment, pduLength =>
    if pduLength ≤ 0 then
      some ⟨[], false, pkt :: q, queueLength, fragmentInfo, firstIsFragment⟩
    else
      match firstLength pkt fragmentInfo with
      | none => none
      | some sduLength =>
        if (sduLength : ℤ) ≤ pduLength then
          match fill q (queueLength - pkt.byteLength) none false (pduLength - sduLength) with
          | none => none
          | some f => some { f with sdus := (pkt, sduLength) :: f.sdus }
        else
          some ⟨[(pkt, pduLength.toNat)], true, pkt :: q, queueLength,
            some (pkt, sduLength - pduLength.toNat), true⟩

/-- Make a PDU of at most `pduLength` bytes.  Without room for data the reply is a message of
one bit, here `none`, that has no sequence number and that the MAC throws away. -/
def rlcPduMake (t : UmTxEntity) (pduLength : ℤ) : Option (UmTxEntity × Option UmDataPdu) :=
  match fill t.sduQueue t.queueLength t.fragmentInfo t.firstIsFragment
      (pduLength - RLC_HEADER_UM) with
  | none => none
  | some f =>
    let t' := { t with
      sduQueue := f.sduQueue
      queueLength := f.queueLength
      fragmentInfo := f.fragmentInfo
      firstIsFragment := f.firstIsFragment }
    if chunkBytes f.sdus = 0 then some (t', none)
    else
      some ({ t' with sno := u32 (t.sno + 1) },
        some {
          pduSequenceNumber := t.sno
          framingInfo := (if f.endFrag then 1 else 0) ||| (if t.firstIsFragment then 2 else 0)
          sdus := f.sdus })

end UmTxEntity

/-! ### The stream of SDUs -/

/-- `Cut sdus a cs b` : the chunks `cs` are the stream of the SDUs from the place `a` to the
place `b`, where only the last chunk may end inside an SDU. -/
inductive Cut (sdus : List RlcSdu) : ℕ × ℕ → List (RlcSdu × ℕ) → ℕ × ℕ → Prop
  | nil (a : ℕ × ℕ) : Cut sdus a [] a
  | whole {k o : ℕ} {p : RlcSdu} {cs : List (RlcSdu × ℕ)} {b : ℕ × ℕ} (hp : sdus[k]? = some p)
      (ho : o < p.lengthMainPacket) (h : Cut sdus (k + 1, 0) cs b) :
      Cut sdus (k, o) ((p, p.lengthMainPacket - o) :: cs) b
  | part {k o n : ℕ} {p : RlcSdu} (hp : sdus[k]? = some p) (hn : 0 < n)
      (ho : o + n < p.lengthMainPacket) : Cut sdus (k, o) [(p, n)] (k, o + n)

/-- The stream only goes forward, by at least a byte. -/
theorem Cut.forward {sdus : List RlcSdu} {a b : ℕ × ℕ} {cs : List (RlcSdu × ℕ)}
    (h : Cut sdus a cs b) : a = b ∧ cs = [] ∨ a.1 < b.1 ∨ a.1 = b.1 ∧ a.2 < b.2 := by
  induction h with
  | nil a => exact .inl ⟨rfl, rfl⟩
  | @whole k o p cs b hp ho h ih =>
    right; left
    rcases ih with ⟨rfl, -⟩ | hlt | ⟨heq, -⟩
    · exact Nat.lt_succ_self k
    · exact Nat.lt_of_succ_lt hlt
    · exact Nat.lt_of_succ_le heq.le
  | part hp hn ho => exact .inr (.inr ⟨rfl, Nat.lt_add_of_pos_right hn⟩)

/-- More SDUs at the end of the stream change nothing. -/
theorem Cut.append {sdus : List RlcSdu} {a b : ℕ × ℕ} {cs : List (RlcSdu × ℕ)}
    (h : Cut sdus a cs b) (more : List RlcSdu) : Cut (sdus ++ more) a cs b := by
  have hget : ∀ {k : ℕ} {p : RlcSdu}, sdus[k]? = some p → (sdus ++ more)[k]? = some p := by
    intro k p hp
    rw [List.getElem?_append_left (List.getElem?_eq_some_iff.1 hp).1, hp]
  induction h with
  | nil a => exact .nil a
  | whole hp ho _ ih => exact .whole (hget hp) ho ih
  | part hp hn ho => exact .part (hget hp) hn ho

/-- Every chunk is a part of an SDU of the stream, and none is empty. -/
theorem Cut.pos {sdus : List RlcSdu} {a b : ℕ × ℕ} {cs : List (RlcSdu × ℕ)}
    (h : Cut sdus a cs b) : ∀ c ∈ cs, 0 < c.2 := by
  induction h with
  | nil a => simp
  | whole hp ho _ ih =>
    intro c hc
    rcases List.mem_cons.1 hc with rfl | hc
    · exact Nat.sub_pos_of_lt ho
    · exact ih c hc
  | part hp hn ho =>
    intro c hc
    obtain rfl := List.mem_singleton.1 hc
    exact hn

namespace UmTxEntity

/-- What `fragmentInfo` and `firstIsFragment` are at the place `(k, o)` of the stream. -/
def FragAt (sdus : List RlcSdu) (k o : ℕ) (fragmentInfo : Option (RlcSdu × ℕ))
    (firstIsFragment : Bool) : Prop :=
  o = 0 ∧ fragmentInfo = none ∧ firstIsFragment = false ∨
    ∃ p, 0 < o ∧ sdus[k]? = some p ∧ o < p.lengthMainPacket ∧
      fragmentInfo = some (p, p.lengthMainPacket - o) ∧ firstIsFragment = true

/-- The entity has come to the place `a` of the stream. -/
structure At (sdus : List RlcSdu) (t : UmTxEntity) (a : ℕ × ℕ) : Prop where
  le : a.1 ≤ sdus.length
  queue : t.sduQueue = sdus.drop a.1
  frag : FragAt sdus a.1 a.2 t.fragmentInfo t.firstIsFragment

/-- The bytes of a queue that are not in a PDU yet. -/
def bytesLeft : List RlcSdu → Option (RlcSdu × ℕ) → ℕ
  | [], _ => 0
  | pkt :: q, none => pkt.lengthMainPacket + (q.map RlcSdu.lengthMainPacket).sum
  | _ :: q, some (_, size) => size + (q.map RlcSdu.lengthMainPacket).sum

/-- The bytes that the entity has not put into a PDU yet. -/
def backlog (t : UmTxEntity) : ℕ := bytesLeft t.sduQueue t.fragmentInfo

theorem bytesLeft_none (q : List RlcSdu) :
    bytesLeft q none = (q.map RlcSdu.lengthMainPacket).sum := by
  cases q <;> simp [bytesLeft]

/-- What the loop of `rlcPduMake` does at the place `(k, o)`. -/
structure FillSpec (sdus : List RlcSdu) (k o : ℕ) (left : ℕ) (pduLength : ℤ) (f : Filled)
    (b : ℕ × ℕ) : Prop where
  cut : Cut sdus (k, o) f.sdus b
  le : b.1 ≤ sdus.length
  queue : f.sduQueue = sdus.drop b.1
  frag : FragAt sdus b.1 b.2 f.fragmentInfo f.firstIsFragment
  endFrag : f.endFrag = decide (f.sdus ≠ [] ∧ 0 < b.2)
  bytes : chunkBytes f.sdus = min pduLength.toNat left
  left : bytesLeft f.sduQueue f.fragmentInfo + chunkBytes f.sdus = left

/-- The first chunk in the queue goes from the offset to the end of its SDU. -/
theorem FragAt.first {sdus : List RlcSdu} {k o : ℕ} {fragmentInfo : Option (RlcSdu × ℕ)}
    {firstIsFragment : Bool} (h : FragAt sdus k o fragmentInfo firstIsFragment) {pkt : RlcSdu}
    (hpkt : sdus[k]? = some pkt) (q : List RlcSdu) :
    o < pkt.lengthMainPacket ∧ firstLength pkt fragmentInfo = some (pkt.lengthMainPacket - o) ∧
      bytesLeft (pkt :: q) fragmentInfo =
        (pkt.lengthMainPacket - o) + (q.map RlcSdu.lengthMainPacket).sum := by
  rcases h with ⟨rfl, rfl, -⟩ | ⟨p, hpos, hp, hlt, rfl, -⟩
  · exact ⟨pkt.pos, rfl, by simp [bytesLeft]⟩
  · obtain rfl : p = pkt := Option.some.inj (hp.symm.trans hpkt)
    exact ⟨hlt, by simp [firstLength], by simp [bytesLeft]⟩

theorem fill_spec {sdus : List RlcSdu} (q : List RlcSdu) (queueLength : ℕ) (pduLength : ℤ)
    {k o : ℕ} {fragmentInfo : Option (RlcSdu × ℕ)} {firstIsFragment : Bool}
    (hk : k ≤ sdus.length) (hq : q = sdus.drop k)
    (hf : FragAt sdus k o fragmentInfo firstIsFragment) :
    ∃ f b, fill q queueLength fragmentInfo firstIsFragment pduLength = some f ∧
      FillSpec sdus k o (bytesLeft q fragmentInfo) pduLength f b := by
  induction q generalizing k o queueLength fragmentInfo firstIsFragment pduLength with
  | nil =>
    -- the queue is empty
    refine ⟨_, (k, o), rfl, .nil _, hk, hq, hf, by simp, ?_, ?_⟩ <;> simp [bytesLeft, chunkBytes]
  | cons pkt q ih =>
    -- the PDU is full
    by_cases hroom : pduLength ≤ 0
    · refine ⟨_, (k, o), by simp only [fill, if_pos hroom]; rfl, .nil _, hk, hq, hf, by simp,
        ?_, ?_⟩
      · simp [chunkBytes, Int.toNat_of_nonpos hroom]
      · simp [chunkBytes]
    have hpkt : sdus[k]? = some pkt := by
      have h0 := congrArg (·[0]?) hq
      simpa using h0.symm
    have hklt : k < sdus.length := (List.getElem?_eq_some_iff.1 hpkt).1
    have hq' : q = sdus.drop (k + 1) := by
      have h1 := congrArg List.tail hq
      simpa using h1
    obtain ⟨ho, hlen, hleft⟩ := hf.first hpkt q
    -- the first SDU fits, and the PDU goes on with the next
    by_cases hfit : ((pkt.lengthMainPacket - o : ℕ) : ℤ) ≤ pduLength
    · obtain ⟨f, b, hfill, hs⟩ := ih (queueLength - pkt.byteLength)
        (pduLength - (pkt.lengthMainPacket - o : ℕ)) (o := 0) hklt hq' (.inl ⟨rfl, rfl, rfl⟩)
      refine ⟨{ f with sdus := (pkt, pkt.lengthMainPacket - o) :: f.sdus }, b, ?_,
        .whole hpkt ho hs.cut, hs.le, hs.queue, hs.frag, ?_, ?_, ?_⟩
      · simp only [fill, if_neg hroom, hlen, if_pos hfit, hfill]
      · by_cases hnil : f.sdus = []
        · -- nothing follows, so the PDU ends with this SDU
          obtain rfl : b = (k + 1, 0) := by
            have hcut := hs.cut
            rw [hnil] at hcut
            cases hcut
            rfl
          simp [hs.endFrag]
        · simp [hs.endFrag, hnil]
      · rw [hleft]
        have hb := hs.bytes
        rw [bytesLeft_none] at hb
        simp only [chunkBytes, List.map_cons, List.sum_cons] at hb ⊢
        omega
      · rw [hleft]
        have hl := hs.left
        rw [bytesLeft_none] at hl
        simp only [chunkBytes, List.map_cons, List.sum_cons] at hl ⊢
        omega
    · -- only a part of it fits
      refine ⟨⟨[(pkt, pduLength.toNat)], true, pkt :: q, queueLength,
        some (pkt, pkt.lengthMainPacket - o - pduLength.toNat), true⟩, (k, o + pduLength.toNat),
        ?_, .part hpkt (by omega) (by omega), hk, hq, .inr ⟨pkt, by simp; omega, hpkt, ?_, ?_, rfl⟩,
        ?_, ?_, ?_⟩
      · simp only [fill, if_neg hroom, hlen, if_neg hfit]
      · simp only; omega
      · simp only [Nat.sub_sub]
      · have : 0 < o + pduLength.toNat := by omega
        simp [this]
      · rw [hleft]
        simp only [chunkBytes, List.map_cons, List.map_nil, List.sum_cons, List.sum_nil]
        omega
      · rw [hleft]
        simp only [chunkBytes, bytesLeft, List.map_cons, List.map_nil, List.sum_cons, List.sum_nil]
        omega

/-- The framing info of the part of the stream from `a` to `b`. -/
def framing (a b : ℕ × ℕ) : ℕ := (if 0 < b.2 then 1 else 0) ||| (if 0 < a.2 then 2 else 0)

/-- The data bytes of a reply. -/
def replyBytes : Option UmDataPdu → ℕ
  | none => 0
  | some pdu => chunkBytes pdu.sdus

/-- What `rlcPduMake` does at the place `a`: the reply `r` takes the entity to the place `b`. -/
structure MakeSpec (sdus : List RlcSdu) (t : UmTxEntity) (a : ℕ × ℕ) (pduLength : ℤ)
    (t' : UmTxEntity) (r : Option UmDataPdu) (b : ℕ × ℕ) : Prop where
  place : At sdus t' b
  bytes : replyBytes r = min (pduLength - RLC_HEADER_UM).toNat t.backlog
  backlog : t'.backlog + replyBytes r = t.backlog
  queueSize : t'.queueSize = t.queueSize
  /-- An empty message changes nothing. -/
  empty : r = none → b = a ∧ t'.sno = t.sno
  /-- A PDU is the next part of the stream, under the next sequence number. -/
  data : ∀ pdu, r = some pdu → pdu.pduSequenceNumber = t.sno ∧ t'.sno = u32 (t.sno + 1) ∧
    pdu.sdus ≠ [] ∧ Cut sdus a pdu.sdus b ∧ pdu.framingInfo = framing a b

theorem FragAt.firstIsFragment {sdus : List RlcSdu} {k o : ℕ}
    {fragmentInfo : Option (RlcSdu × ℕ)} {firstIsFragment : Bool}
    (h : FragAt sdus k o fragmentInfo firstIsFragment) : firstIsFragment = decide (0 < o) := by
  rcases h with ⟨rfl, -, rfl⟩ | ⟨p, hpos, -, -, -, rfl⟩
  · rfl
  · simp [hpos]

theorem Cut.chunkBytes_eq_zero {sdus : List RlcSdu} {a b : ℕ × ℕ} {cs : List (RlcSdu × ℕ)}
    (h : Cut sdus a cs b) : chunkBytes cs = 0 ↔ cs = [] := by
  constructor
  · intro h0
    cases cs with
    | nil => rfl
    | cons c cs =>
      have hpos := h.pos c (by simp)
      simp only [chunkBytes, List.map_cons, List.sum_cons] at h0
      omega
  · rintro rfl
    rfl

/-- **The entity never throws, and every PDU is the next part of the stream.** -/
theorem rlcPduMake_spec {sdus : List RlcSdu} {t : UmTxEntity} {a : ℕ × ℕ} (h : At sdus t a)
    (pduLength : ℤ) :
    ∃ t' r b, t.rlcPduMake pduLength = some (t', r) ∧
      MakeSpec sdus t a pduLength t' r b := by
  obtain ⟨f, b, hfill, hs⟩ := fill_spec t.sduQueue t.queueLength
    (pduLength - RLC_HEADER_UM) h.le h.queue h.frag
  have hzero := Cut.chunkBytes_eq_zero hs.cut
  simp only [rlcPduMake, hfill]
  by_cases h0 : chunkBytes f.sdus = 0
  · rw [if_pos h0]
    have hcut := hs.cut
    rw [hzero.1 h0] at hcut
    obtain rfl : b = a := by
      cases hcut
      rfl
    have hbytes := hs.bytes
    have hleft := hs.left
    rw [h0] at hbytes hleft
    exact ⟨_, none, b, rfl, ⟨hs.le, hs.queue, hs.frag⟩, hbytes, hleft, rfl,
      fun _ => ⟨rfl, rfl⟩, fun pdu hpdu => by cases hpdu⟩
  · rw [if_neg h0]
    refine ⟨_, _, b, rfl, ⟨hs.le, hs.queue, hs.frag⟩, hs.bytes, hs.left, rfl,
      fun hnone => by (cases hnone), ?_⟩
    intro pdu hpdu
    obtain rfl := Option.some.inj hpdu
    have hne : f.sdus ≠ [] := fun hnil => h0 (hzero.2 hnil)
    refine ⟨rfl, rfl, hne, hs.cut, ?_⟩
    simp [framing, hs.endFrag, hne, h.frag.firstIsFragment]

/-- An accepted SDU is the new end of the stream. -/
theorem At.enque {sdus : List RlcSdu} {t : UmTxEntity} {a : ℕ × ℕ} {pkt : RlcSdu}
    (h : At sdus t a) (hacc : (t.enque pkt).2 = true) :
    At (sdus ++ [pkt]) (t.enque pkt).1 a := by
  unfold UmTxEntity.enque at hacc ⊢
  split at hacc
  · rw [if_pos ‹_›]
    refine ⟨?_, ?_, ?_⟩
    · simpa using Nat.le_succ_of_le h.le
    · simp [h.queue, List.drop_append_of_le_length h.le]
    · rcases h.frag with ⟨h0, hf⟩ | ⟨p, hpos, hp, hrest⟩
      · exact .inl ⟨h0, hf⟩
      · refine .inr ⟨p, hpos, ?_, hrest⟩
        rw [List.getElem?_append_left (List.getElem?_eq_some_iff.1 hp).1, hp]
  · cases hacc

theorem enque_of_not_accepted {t : UmTxEntity} {pkt : RlcSdu} (h : (t.enque pkt).2 = false) :
    (t.enque pkt).1 = t := by
  unfold UmTxEntity.enque at h ⊢
  split at h
  · cases h
  · rw [if_neg ‹_›]

@[simp] theorem sno_enque (t : UmTxEntity) (pkt : RlcSdu) : (t.enque pkt).1.sno = t.sno := by
  unfold UmTxEntity.enque
  split <;> rfl

end UmTxEntity

end V2nLte
