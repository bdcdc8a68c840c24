import V2nLte.Machine.Collections
import V2nLte.Rlc.UmWindow
import Mathlib.Data.Prod.Lex
import Mathlib.Order.Monotone.Basic

/-!
# Reassembly against the stream of SDUs

The PDUs that a `UmTxEntity` has made cut the stream of its SDUs at the places `pos 0`, `pos 1`
and so on.  `takeSdus_cut` says what taking the chunks of one PDU does when the receiver has come
to its place in the stream.  From it come two readers for the window of `V2nLte.Rlc.UmWindow`:
`reader_gapped` allows for PDUs that are given up, `reader_gapless` does not.
-/

namespace V2nLte

/-- The SDUs from the `i`-th to before the `j`-th. -/
def segment (sdus : List RlcSdu) (i j : ℕ) : List RlcSdu := (sdus.drop i).take (j - i)

theorem segment_self (sdus : List RlcSdu) (i j : ℕ) (h : j ≤ i) : segment sdus i j = [] := by
  simp [segment, Nat.sub_eq_zero_of_le h]

theorem segment_cons {sdus : List RlcSdu} {i j : ℕ} {p : RlcSdu} (hp : sdus[i]? = some p)
    (h : i < j) : segment sdus i j = p :: segment sdus (i + 1) j := by
  obtain ⟨hi, rfl⟩ := List.getElem?_eq_some_iff.1 hp
  unfold segment
  rw [List.drop_eq_getElem_cons hi, show j - i = (j - (i + 1)) + 1 by omega,
    List.take_succ_cons]

theorem take_append_segment (sdus : List RlcSdu) {i j : ℕ} (h : i ≤ j) :
    sdus.take i ++ segment sdus i j = sdus.take j := by
  unfold segment
  rw [← List.take_add, Nat.add_sub_cancel' h]

/-- What may wait at the place `(k, o)` for its missing part: a piece of an earlier SDU, or at
most the `o` bytes of this one. -/
def Waits (sdus : List RlcSdu) (k o : ℕ) (b : Option (RlcSdu × ℕ)) : Prop :=
  ∀ p size, b = some (p, size) →
    (∃ i, i < k ∧ sdus[i]? = some p) ∨ sdus[k]? = some p ∧ 0 < o ∧ size ≤ o

/-- All the bytes of the SDU that is cut at the place `(k, o)` are there. -/
def Exact (sdus : List RlcSdu) (k o : ℕ) (b : Option (RlcSdu × ℕ)) : Prop :=
  0 < o → ∃ p, sdus[k]? = some p ∧ b = some (p, o)

instance (sdus : List RlcSdu) (k o : ℕ) (b : Option (RlcSdu × ℕ)) :
    Decidable (Exact sdus k o b) := by
  unfold Exact
  cases h : sdus[k]? with
  | none => exact decidable_of_iff (¬ 0 < o) (by simp)
  | some p => exact decidable_of_iff (0 < o → b = some (p, o)) (by simp)

/-- What a chunk that starts at `o` is, if it is the rest of its SDU. -/
def restPart (o : ℕ) : Part := if o = 0 then .whole else .last

/-- What a chunk that starts at `o` is, if more of its SDU follows. -/
def cutPart (o : ℕ) : Part := if o = 0 then .first else .mid

/-- The framing info says of every chunk what it is.  Here `o` is where the `i`-th chunk starts
in its SDU, which is not its beginning for the first chunk only, and the PDU ends at `o'`. -/
theorem partOf_framing {a b : ℕ × ℕ} {i n o : ℕ} (hi : i = 0 → a.2 = o) (hi' : i ≠ 0 → o = 0) :
    (0 < n ∨ b.2 = 0 → partOf (UmTxEntity.framing a b) (i + (n + 1)) i = some (restPart o)) ∧
    (n = 0 → 0 < b.2 → partOf (UmTxEntity.framing a b) (i + (n + 1)) i = some (cutPart o)) := by
  have h3 : 1 ||| 2 = 3 := rfl
  by_cases hi0 : i = 0
  · subst hi0
    rw [← hi rfl]
    constructor
    · intro h
      rcases Nat.eq_zero_or_pos n with rfl | hn
      · have hb : b.2 = 0 := by omega
        rcases Nat.eq_zero_or_pos a.2 with ha | ha
        · simp [partOf, onlyPart, UmTxEntity.framing, restPart, hb, ha]
        · simp [partOf, onlyPart, UmTxEntity.framing, restPart, hb, ha, ha.ne']
      · have hne : n ≠ 0 := hn.ne'
        rcases Nat.eq_zero_or_pos a.2 with ha | ha <;> rcases Nat.eq_zero_or_pos b.2 with hb | hb
        · simp [partOf, firstPart, UmTxEntity.framing, restPart, hb, ha, hne]
        · simp [partOf, firstPart, UmTxEntity.framing, restPart, hb, ha, hne]
        · simp [partOf, firstPart, UmTxEntity.framing, restPart, hb, ha, ha.ne', hne]
        · simp [partOf, firstPart, UmTxEntity.framing, restPart, hb, ha, ha.ne', hne, h3]
    · rintro rfl hb
      rcases Nat.eq_zero_or_pos a.2 with ha | ha
      · simp [partOf, onlyPart, UmTxEntity.framing, cutPart, hb, ha]
      · simp [partOf, onlyPart, UmTxEntity.framing, cutPart, hb, ha, ha.ne', h3]
  · obtain rfl := hi' hi0
    constructor
    · intro h
      rcases Nat.eq_zero_or_pos n with rfl | hn
      · have hb : b.2 = 0 := by omega
        rcases Nat.eq_zero_or_pos a.2 with ha | ha
        · simp [partOf, lastPart, UmTxEntity.framing, restPart, hb, ha, hi0]
        · simp [partOf, lastPart, UmTxEntity.framing, restPart, hb, ha, hi0]
      · simp [partOf, restPart, hi0, hn.ne']
    · rintro rfl hb
      rcases Nat.eq_zero_or_pos a.2 with ha | ha
      · simp [partOf, lastPart, UmTxEntity.framing, cutPart, hb, ha, hi0]
      · simp [partOf, lastPart, UmTxEntity.framing, cutPart, hb, ha, hi0, h3]

/-- The SDUs have strictly increasing sequence numbers. -/
def Increasing (sdus : List RlcSdu) : Prop :=
  sdus.Pairwise fun p q => p.snoMainPacket < q.snoMainPacket

theorem Increasing.lt {sdus : List RlcSdu} (h : Increasing sdus) {i j : ℕ} {p q : RlcSdu}
    (hp : sdus[i]? = some p) (hq : sdus[j]? = some q) (hij : i < j) :
    p.snoMainPacket < q.snoMainPacket := by
  obtain ⟨hi, rfl⟩ := List.getElem?_eq_some_iff.1 hp
  obtain ⟨hj, rfl⟩ := List.getElem?_eq_some_iff.1 hq
  exact List.pairwise_iff_getElem.1 h i j hi hj hij

theorem Increasing.inj {sdus : List RlcSdu} (h : Increasing sdus) {i j : ℕ} {p : RlcSdu}
    (hp : sdus[i]? = some p) (hq : sdus[j]? = some p) : i = j := by
  rcases Nat.lt_trichotomy i j with hlt | heq | hlt
  · exact (lt_irrefl _ (h.lt hp hq hlt)).elim
  · exact heq
  · exact (lt_irrefl _ (h.lt hq hp hlt)).elim

/-- What taking the chunks from the place `(k, o)` to the place `(k', o')` does. -/
structure Taken (sdus : List RlcSdu) (k o k' o' : ℕ) (b : Option (RlcSdu × ℕ))
    (r : Option (RlcSdu × ℕ) × List RlcSdu) : Prop where
  waits : Waits sdus k' o' r.1
  exact_iff : Exact sdus k' o' r.1 ↔ (k' = k → Exact sdus k o b)
  out : r.2 = if Exact sdus k o b then segment sdus k k' else segment sdus (k + 1) k'

theorem exact_zero (sdus : List RlcSdu) (k : ℕ) (b : Option (RlcSdu × ℕ)) :
    Exact sdus k 0 b := fun h => (lt_irrefl 0 h).elim

theorem waits_none (sdus : List RlcSdu) (k o : ℕ) : Waits sdus k o none := by
  intro p size h
  cases h

/-- An SDU that waits and has the sequence number of the `k`-th is the `k`-th. -/
theorem Waits.eq_of_sno {sdus : List RlcSdu} {k o size : ℕ} {p q : RlcSdu}
    (hinc : Increasing sdus) (hw : Waits sdus k o (some (q, size))) (hp : sdus[k]? = some p)
    (hsno : p.snoMainPacket = q.snoMainPacket) : q = p ∧ 0 < o ∧ size ≤ o := by
  rcases hw q size rfl with ⟨i, hi, hq⟩ | ⟨hq, hpos, hle⟩
  · have := hinc.lt hq hp hi
    omega
  · exact ⟨Option.some.inj (hq.symm.trans hp), hpos, hle⟩

theorem exact_some_iff {sdus : List RlcSdu} {k o : ℕ} {p : RlcSdu} {b : Option (RlcSdu × ℕ)}
    (hp : sdus[k]? = some p) (ho : 0 < o) : Exact sdus k o b ↔ b = some (p, o) := by
  constructor
  · intro h
    obtain ⟨q, hq, hb⟩ := h ho
    rwa [Option.some.inj (hp.symm.trans hq)]
  · intro h _
    exact ⟨p, hp, h⟩

/-- Taking the rest of the `k`-th SDU: it goes up if the bytes before it are all there. -/
theorem takePart_rest {sdus : List RlcSdu} {k o : ℕ} {p : RlcSdu} {b : Option (RlcSdu × ℕ)}
    (hinc : Increasing sdus) (hp : sdus[k]? = some p) (ho : o < p.lengthMainPacket)
    (hw : Waits sdus k o b) :
    takePart b (p, p.lengthMainPacket - o) (restPart o) =
      .ok (none, if Exact sdus k o b then [p] else []) := by
  rcases Nat.eq_zero_or_pos o with rfl | hpos
  · simp [restPart, takePart, exact_zero]
  rw [restPart, if_neg hpos.ne']
  cases b with
  | none => simp [takePart, exact_some_iff hp hpos]
  | some w =>
    obtain ⟨q, size⟩ := w
    simp only [takePart]
    by_cases hsno : p.snoMainPacket = q.snoMainPacket
    · obtain ⟨rfl, -, hle⟩ := hw.eq_of_sno hinc hp hsno
      have hlt := q.lt
      rw [if_neg (by simp), u32_of_lt (by omega)]
      by_cases hsize : size = o
      · subst hsize
        rw [if_neg (by omega), if_neg (by omega), if_pos ((exact_some_iff hp hpos).2 rfl)]
      · rw [if_pos (by omega), if_neg]
        simpa [exact_some_iff hp hpos] using hsize
    · rw [if_pos hsno, if_neg]
      rw [exact_some_iff hp hpos]
      rintro ⟨rfl, rfl⟩
      exact hsno rfl

/-- Taking a part of the `k`-th SDU that is not its last. -/
theorem takePart_cut {sdus : List RlcSdu} {k o n : ℕ} {p : RlcSdu} {b : Option (RlcSdu × ℕ)}
    (hinc : Increasing sdus) (hp : sdus[k]? = some p) (hn : 0 < n) (hw : Waits sdus k o b) :
    ∃ b', takePart b (p, n) (cutPart o) = .ok (b', []) ∧ Waits sdus k (o + n) b' ∧
      (Exact sdus k (o + n) b' ↔ Exact sdus k o b) := by
  have hpos' : 0 < o + n := by omega
  rcases Nat.eq_zero_or_pos o with rfl | hpos
  · refine ⟨some (p, n), rfl, ?_, ?_⟩
    · intro q size h
      obtain ⟨rfl, rfl⟩ := Prod.mk.inj (Option.some.inj h)
      exact .inr ⟨hp, hpos', by omega⟩
    · rw [exact_some_iff hp hpos', Nat.zero_add]
      exact ⟨fun _ => exact_zero sdus k b, fun _ => rfl⟩
  rw [cutPart, if_neg hpos.ne']
  cases b with
  | none =>
    refine ⟨none, rfl, waits_none _ _ _, ?_⟩
    simp [exact_some_iff hp hpos, exact_some_iff hp hpos']
  | some w =>
    obtain ⟨q, size⟩ := w
    simp only [takePart]
    by_cases hsno : p.snoMainPacket = q.snoMainPacket
    · obtain ⟨rfl, -, hle⟩ := hw.eq_of_sno hinc hp hsno
      refine ⟨some (q, size + n), by rw [if_neg (by simp)], ?_, ?_⟩
      · intro r size' h
        obtain ⟨rfl, rfl⟩ := Prod.mk.inj (Option.some.inj h)
        exact .inr ⟨hp, hpos', by omega⟩
      · simp [exact_some_iff hp hpos, exact_some_iff hp hpos']
    · refine ⟨none, by rw [if_pos hsno], waits_none _ _ _, ?_⟩
      rw [exact_some_iff hp hpos, exact_some_iff hp hpos']
      constructor
      · intro h
        cases h
      · rintro ⟨rfl, rfl⟩
        exact (hsno rfl).elim

/-- **Taking the chunks of a PDU.**  SDUs that lie in it whole go up, and so does the one it
completes if nothing of it is missing. -/
theorem takeSdus_cut {sdus : List RlcSdu} (hinc : Increasing sdus) {a c c' : ℕ × ℕ} {i : ℕ}
    {cs : List (RlcSdu × ℕ)} {b : Option (RlcSdu × ℕ)} (hcut : Cut sdus c cs c')
    (hw : Waits sdus c.1 c.2 b) (hi : i = 0 → a.2 = c.2) (hi' : i ≠ 0 → c.2 = 0) :
    Ensures (fun _ => False) (Taken sdus c.1 c.2 c'.1 c'.2 b)
      (takeSdus (UmTxEntity.framing a c') (i + cs.length) i b cs) := by
  induction hcut generalizing i b with
  -- all chunks are taken
  | nil c =>
    refine ⟨hw, ⟨fun h _ => h, fun h => h rfl⟩, ?_⟩
    simp [segment_self]
  -- the next chunk ends its SDU
  | @whole k o p cs c' hp ho hcut ih =>
    have hend : 0 < cs.length ∨ c'.2 = 0 := by
      cases hcut with
      | nil => exact .inr rfl
      | whole => exact .inl (by simp)
      | part => exact .inl (by simp)
    have hforward : k < c'.1 := by
      rcases hcut.forward with ⟨rfl, -⟩ | h | ⟨h, -⟩
      · exact Nat.lt_succ_self k
      · exact Nat.lt_of_succ_lt h
      · exact Nat.lt_of_succ_le h.le
    unfold takeSdus
    rw [List.length_cons, (partOf_framing hi hi').1 hend]
    simp only [takePart_rest hinc hp ho hw]
    have hnext := ih (i := i + 1) (waits_none sdus (k + 1) 0) (fun h => by omega) (fun _ => rfl)
    rw [show i + 1 + cs.length = i + (cs.length + 1) by omega] at hnext
    refine Ensures.bind (P := fun r => r = (none, if Exact sdus k o b then [p] else [])) rfl ?_
    rintro _ rfl
    refine Ensures.bind hnext fun r hr => ⟨hr.waits, ?_, ?_⟩
    · have hall := hr.exact_iff.2 fun _ => exact_zero sdus (k + 1) none
      exact ⟨fun _ h => (hforward.ne' h).elim, fun _ => hall⟩
    · have hout := hr.out
      rw [if_pos (exact_zero sdus (k + 1) none)] at hout
      simp only [hout]
      split
      · rw [segment_cons hp hforward]
        rfl
      · rfl
  -- the last chunk is only a part of its SDU
  | @part k o n p hp hn ho =>
    obtain ⟨b', htake, hw', hex⟩ := takePart_cut hinc hp hn hw
    have hpart := (partOf_framing (b := (k, o + n)) hi hi').2 rfl (Nat.add_pos_right o hn)
    unfold takeSdus
    rw [List.length_cons, List.length_nil, hpart]
    simp only [htake, takeSdus]
    refine ⟨hw', ?_, ?_⟩
    · rw [hex]
      exact ⟨fun h _ => h, fun h => h rfl⟩
    · simp [segment_self]

/-! ### The PDUs of a stream -/

/-- The PDUs `pdus` cut the stream of the SDUs at the places `pos`. -/
structure Stream (sdus : List RlcSdu) (pdus : List UmDataPdu) (pos : ℕ → ℕ × ℕ) : Prop where
  increasing : Increasing sdus
  start : pos 0 = (0, 0)
  pdu : ∀ j p, pdus[j]? = some p → p.pduSequenceNumber = j ∧ p.sdus ≠ [] ∧
    Cut sdus (pos j) p.sdus (pos (j + 1)) ∧
    p.framingInfo = UmTxEntity.framing (pos j) (pos (j + 1))
  rest : ∀ j, pdus.length ≤ j → pos j = pos pdus.length

/-- The chunks of a part of the stream are of the SDUs there. -/
theorem Cut.chunk {sdus : List RlcSdu} {a b : ℕ × ℕ} {cs : List (RlcSdu × ℕ)}
    (h : Cut sdus a cs b) {c : RlcSdu × ℕ} (hc : c ∈ cs) :
    ∃ i, sdus[i]? = some c.1 ∧ a.1 ≤ i ∧ (i < b.1 ∨ i = b.1 ∧ 0 < b.2) := by
  induction h with
  | nil a => cases hc
  | @whole k o p cs b hp ho h ih =>
    rcases List.mem_cons.1 hc with rfl | hc
    · refine ⟨k, hp, le_rfl, .inl ?_⟩
      rcases h.forward with ⟨rfl, -⟩ | hlt | ⟨heq, -⟩
      · exact Nat.lt_succ_self k
      · exact Nat.lt_of_succ_lt hlt
      · exact Nat.lt_of_succ_le heq.le
    · obtain ⟨i, hi, hle, hend⟩ := ih hc
      exact ⟨i, hi, Nat.le_of_succ_le hle, hend⟩
  | @part k o n p hp hn ho =>
    obtain rfl := List.mem_singleton.1 hc
    exact ⟨k, hp, le_rfl, .inr ⟨rfl, Nat.add_pos_right o hn⟩⟩

namespace Stream

variable {sdus : List RlcSdu} {pdus : List UmDataPdu} {pos : ℕ → ℕ × ℕ}

theorem step_cases (h : Stream sdus pdus pos) (j : ℕ) :
    pdus.length ≤ j ∧ pos (j + 1) = pos j ∨
      j < pdus.length ∧
        ((pos j).1 < (pos (j + 1)).1 ∨
          (pos j).1 = (pos (j + 1)).1 ∧ (pos j).2 < (pos (j + 1)).2) := by
  rcases Nat.lt_or_ge j pdus.length with hj | hj
  · obtain ⟨-, hne, hcut, -⟩ := h.pdu j _ (List.getElem?_eq_getElem hj)
    refine .inr ⟨hj, ?_⟩
    rcases hcut.forward with ⟨-, hnil⟩ | hlt
    · exact (hne hnil).elim
    · exact hlt
  · exact .inl ⟨hj, (h.rest (j + 1) (by omega)).trans (h.rest j hj).symm⟩

/-- The places go forward. -/
theorem mono (h : Stream sdus pdus pos) {i j : ℕ} (hij : i ≤ j) :
    (pos i).1 < (pos j).1 ∨ (pos i).1 = (pos j).1 ∧ (pos i).2 ≤ (pos j).2 := by
  have hmono : Monotone fun j => toLex (pos j) := by
    refine monotone_nat_of_le_succ fun n => Prod.Lex.le_iff.2 ?_
    rcases h.step_cases n with ⟨-, heq⟩ | ⟨-, hlt | ⟨heq, hlt⟩⟩
    · exact .inr (by simp [heq])
    · exact .inl hlt
    · exact .inr ⟨heq, hlt.le⟩
  exact Prod.Lex.le_iff.1 (hmono hij)

/-- Where the `i`-th SDU is: the PDU with a chunk of it starts before its end, and ends after its
beginning. -/
theorem chunk (h : Stream sdus pdus pos) {q : UmDataPdu} (hq : q ∈ pdus) {c : RlcSdu × ℕ}
    (hc : c ∈ q.sdus) {i : ℕ} (hi : sdus[i]? = some c.1) :
    (pos q.pduSequenceNumber).1 ≤ i ∧ (i < (pos (q.pduSequenceNumber + 1)).1 ∨
      i = (pos (q.pduSequenceNumber + 1)).1 ∧ 0 < (pos (q.pduSequenceNumber + 1)).2) := by
  obtain ⟨j, hj⟩ := List.mem_iff_getElem?.1 hq
  obtain ⟨rfl, -, hcut, -⟩ := h.pdu j q hj
  obtain ⟨i', hi', hle, hend⟩ := hcut.chunk hc
  rw [h.increasing.inj hi hi']
  exact ⟨hle, hend⟩

end Stream

/-! ### A longer stream -/

theorem Waits.append {sdus : List RlcSdu} {k o : ℕ} {b : Option (RlcSdu × ℕ)}
    (h : Waits sdus k o b) (more : List RlcSdu) : Waits (sdus ++ more) k o b := by
  intro p size hb
  rcases h p size hb with ⟨i, hi, hp⟩ | ⟨hp, hrest⟩
  · exact .inl ⟨i, hi, getElem?_append_of_some hp _⟩
  · exact .inr ⟨getElem?_append_of_some hp _, hrest⟩

/-- The SDU that is cut is there already. -/
theorem Exact.of_append {sdus : List RlcSdu} {k o : ℕ} {b : Option (RlcSdu × ℕ)}
    (hw : Waits sdus k o b) {more : List RlcSdu} (hinc : Increasing (sdus ++ more))
    (h : Exact (sdus ++ more) k o b) : Exact sdus k o b := by
  intro ho
  obtain ⟨p, hp, hb⟩ := h ho
  rcases hw p o hb with ⟨i, hi, hp'⟩ | ⟨hp', -⟩
  · have := hinc.inj (getElem?_append_of_some hp' _) hp
    omega
  · exact ⟨p, hp', hb⟩

theorem Exact.append {sdus : List RlcSdu} {k o : ℕ} {b : Option (RlcSdu × ℕ)}
    (h : Exact sdus k o b) (more : List RlcSdu) : Exact (sdus ++ more) k o b := by
  intro ho
  obtain ⟨p, hp, hb⟩ := h ho
  exact ⟨p, getElem?_append_of_some hp _, hb⟩

section

variable {sdus : List RlcSdu} {pdus : List UmDataPdu} {pos : ℕ → ℕ × ℕ}

theorem Stream.enque (h : Stream sdus pdus pos) {pkt : RlcSdu}
    (hnew : ∀ q ∈ sdus, q.snoMainPacket < pkt.snoMainPacket) :
    Stream (sdus ++ [pkt]) pdus pos := by
  refine ⟨?_, h.start, fun j p hj => ?_, h.rest⟩
  · exact List.pairwise_append.2 ⟨h.increasing, List.pairwise_singleton _ _,
      fun q hq r hr => List.mem_singleton.1 hr ▸ hnew q hq⟩
  · obtain ⟨hsno, hne, hcut, hfi⟩ := h.pdu j p hj
    exact ⟨hsno, hne, hcut.append [pkt], hfi⟩

/-- The places with one more PDU. -/
def nextPos (pos : ℕ → ℕ × ℕ) (n : ℕ) (b : ℕ × ℕ) (j : ℕ) : ℕ × ℕ := if j ≤ n then pos j else b

theorem Stream.request (h : Stream sdus pdus pos) {pdu : UmDataPdu} {b : ℕ × ℕ}
    (hsno : pdu.pduSequenceNumber = pdus.length)
    (hne : pdu.sdus ≠ []) (hcut : Cut sdus (pos pdus.length) pdu.sdus b)
    (hfi : pdu.framingInfo = UmTxEntity.framing (pos pdus.length) b) :
    Stream sdus (pdus ++ [pdu]) (nextPos pos pdus.length b) := by
  refine ⟨h.increasing, ?_, fun j p hj => ?_, fun j hj => ?_⟩
  · rw [nextPos, if_pos (Nat.zero_le _)]
    exact h.start
  · rcases Nat.lt_or_ge j pdus.length with hlt | hge
    · rw [List.getElem?_append_left hlt] at hj
      rw [nextPos, nextPos, if_pos hlt.le, if_pos (show j + 1 ≤ pdus.length from hlt)]
      exact h.pdu j p hj
    · rw [List.getElem?_append_right hge] at hj
      obtain ⟨hzero, hp⟩ := List.getElem?_eq_some_iff.1 hj
      obtain rfl : j = pdus.length := by simp at hzero; omega
      obtain rfl : pdu = p := by simpa using hp
      rw [nextPos, nextPos, if_pos le_rfl, if_neg (by omega)]
      exact ⟨hsno, hne, hcut, hfi⟩
  · rw [List.length_append, List.length_singleton] at hj ⊢
    rw [nextPos, nextPos, if_neg (by omega), if_neg (by omega)]

end

/-! ### Readers -/

section

variable {sdus : List RlcSdu} {pdus : List UmDataPdu} {pos : ℕ → ℕ × ℕ} {arrived : List ℕ}

/-- A PDU that was made and has arrived. -/
def Known (pdus : List UmDataPdu) (arrived : List ℕ) (p : UmDataPdu) : Prop :=
  p ∈ pdus ∧ p.pduSequenceNumber ∈ arrived

/-- All the PDUs with a chunk of `p` have arrived. -/
def Complete (pdus : List UmDataPdu) (arrived : List ℕ) (p : RlcSdu) : Prop :=
  ∀ q ∈ pdus, ∀ c ∈ q.sdus, c.1 = p → q.pduSequenceNumber ∈ arrived

theorem segment_mem {sdus : List RlcSdu} {i j : ℕ} {p : RlcSdu} (h : p ∈ segment sdus i j) :
    ∃ k, i ≤ k ∧ k < j ∧ sdus[k]? = some p := by
  obtain ⟨n, hn⟩ := List.mem_iff_getElem?.1 h
  simp only [segment, List.getElem?_take] at hn
  split at hn
  · rw [List.getElem?_drop] at hn
    exact ⟨i + n, Nat.le_add_right _ _, by omega, hn⟩
  · cases hn

theorem Increasing.segment (h : Increasing sdus) (i j : ℕ) : Increasing (segment sdus i j) :=
  List.Pairwise.sublist ((List.take_sublist _ _).trans (List.drop_sublist _ _)) h

/-- The reassembly when PDUs below `L` may be missing. -/
structure Gapped (sdus : List RlcSdu) (pdus : List UmDataPdu) (pos : ℕ → ℕ × ℕ)
    (arrived : List ℕ) (L : ℕ) (b : Option (RlcSdu × ℕ)) (D : List RlcSdu) : Prop where
  increasing : Increasing D
  up : ∀ p ∈ D, ∃ i, i < (pos L).1 ∧ sdus[i]? = some p ∧ Complete pdus arrived p
  waits : Waits sdus (pos L).1 (pos L).2 b
  /-- If all the bytes of the SDU that is cut at `L` are there, all its PDUs were. -/
  got : Exact sdus (pos L).1 (pos L).2 b → ∀ q ∈ pdus, q.pduSequenceNumber < L →
    ∀ c ∈ q.sdus, sdus[(pos L).1]? = some c.1 → q.pduSequenceNumber ∈ arrived

/-- A PDU below `L` has no chunk of an SDU that begins at `L` or later. -/
theorem Stream.not_before (h : Stream sdus pdus pos) {q : UmDataPdu} (hq : q ∈ pdus)
    {c : RlcSdu × ℕ} (hc : c ∈ q.sdus) {i L : ℕ} (hi : sdus[i]? = some c.1)
    (hL : q.pduSequenceNumber < L) : i < (pos L).1 ∨ i = (pos L).1 ∧ 0 < (pos L).2 := by
  have hend := (h.chunk hq hc hi).2
  have hmono := h.mono (show q.pduSequenceNumber + 1 ≤ L from hL)
  omega

/-- A PDU from `L` on has no chunk of an SDU that ends at `L` or before. -/
theorem Stream.not_after (h : Stream sdus pdus pos) {q : UmDataPdu} (hq : q ∈ pdus)
    {c : RlcSdu × ℕ} (hc : c ∈ q.sdus) {i L : ℕ} (hi : sdus[i]? = some c.1)
    (hL : L ≤ q.pduSequenceNumber) : (pos L).1 ≤ i := by
  have hstart := (h.chunk hq hc hi).1
  have hmono := h.mono hL
  omega

theorem gapped_take (hst : Stream sdus pdus pos) {p : UmDataPdu} {b : Option (RlcSdu × ℕ)}
    {D : List RlcSdu} (hp : Known pdus arrived p)
    (hJ : Gapped sdus pdus pos arrived p.pduSequenceNumber b D) :
    Ensures (fun _ => False)
      (fun r => Gapped sdus pdus pos arrived (p.pduSequenceNumber + 1) r.1 (D ++ r.2))
      (takeSdus p.framingInfo p.sdus.length 0 b p.sdus) := by
  obtain ⟨hmem, harr⟩ := hp
  obtain ⟨L, hget⟩ := List.mem_iff_getElem?.1 hmem
  obtain ⟨rfl, -, hcut, hfi⟩ := hst.pdu L p hget
  have htake := takeSdus_cut (a := pos p.pduSequenceNumber) (i := 0) hst.increasing hcut hJ.waits
    (fun _ => rfl) (fun h => (h rfl).elim)
  rw [Nat.zero_add, ← hfi] at htake
  refine htake.mono fun r hr => ?_
  have hmono := hst.mono (Nat.le_add_right p.pduSequenceNumber 1)
  -- where the SDUs that go up now are, and that nothing of them is missing
  have hnew : ∀ q ∈ r.2, ∃ i, (pos p.pduSequenceNumber).1 ≤ i ∧
      i < (pos (p.pduSequenceNumber + 1)).1 ∧ sdus[i]? = some q ∧ Complete pdus arrived q := by
    intro q hq
    have hmid : ∀ i, (pos p.pduSequenceNumber).1 ≤ i → i < (pos (p.pduSequenceNumber + 1)).1 →
        sdus[i]? = some q → (i = (pos p.pduSequenceNumber).1 →
          Exact sdus (pos p.pduSequenceNumber).1 (pos p.pduSequenceNumber).2 b) →
        Complete pdus arrived q := by
      rintro i hle hlt hi hex u hu c hc rfl
      rcases Nat.lt_trichotomy u.pduSequenceNumber p.pduSequenceNumber with hb | hb | hb
      · rcases hst.not_before hu hc hi hb with hbad | ⟨heq, -⟩
        · omega
        · exact hJ.got (hex heq) u hu hb c hc (heq ▸ hi)
      · exact hb ▸ harr
      · have := hst.not_after hu hc hi (L := p.pduSequenceNumber + 1) hb
        omega
    rw [hr.out] at hq
    split at hq
    · rename_i hex
      obtain ⟨i, hle, hlt, hi⟩ := segment_mem hq
      exact ⟨i, hle, hlt, hi, hmid i hle hlt hi fun _ => hex⟩
    · obtain ⟨i, hle, hlt, hi⟩ := segment_mem hq
      exact ⟨i, by omega, hlt, hi, hmid i (by omega) hlt hi fun h => by omega⟩
  refine ⟨?_, ?_, hr.waits, ?_⟩
  · refine List.pairwise_append.2 ⟨hJ.increasing, ?_, fun q hq q' hq' => ?_⟩
    · rw [hr.out]
      split
      · exact hst.increasing.segment _ _
      · exact hst.increasing.segment _ _
    · obtain ⟨i, hlt, hi, -⟩ := hJ.up q hq
      obtain ⟨i', hle, -, hi', -⟩ := hnew q' hq'
      exact hst.increasing.lt hi hi' (by omega)
  · intro q hq
    rcases List.mem_append.1 hq with hq | hq
    · obtain ⟨i, hlt, hi, hc⟩ := hJ.up q hq
      exact ⟨i, by omega, hi, hc⟩
    · obtain ⟨i, -, hlt, hi, hc⟩ := hnew q hq
      exact ⟨i, hlt, hi, hc⟩
  · intro hex u hu hlt c hc hi
    rcases Nat.lt_succ_iff_lt_or_eq.1 hlt with hb | hb
    · have hbefore := hst.not_before hu hc hi hb
      have heq : (pos (p.pduSequenceNumber + 1)).1 = (pos p.pduSequenceNumber).1 := by omega
      exact hJ.got (hr.exact_iff.1 hex heq) u hu hb c hc (heq ▸ hi)
    · exact hb ▸ harr

theorem gapped_skip (hst : Stream sdus pdus pos) {L : ℕ} {b : Option (RlcSdu × ℕ)}
    {D : List RlcSdu} (hJ : Gapped sdus pdus pos arrived L b D) :
    Gapped sdus pdus pos arrived (L + 1) b D := by
  rcases hst.step_cases L with ⟨hend, heq⟩ | ⟨-, hlt⟩
  · -- no PDU is there to be given up
    refine ⟨hJ.increasing, ?_, ?_, ?_⟩
    · rw [heq]; exact hJ.up
    · rw [heq]; exact hJ.waits
    · rw [heq]
      intro hex q hq hqL c hc hi
      obtain ⟨j, hj⟩ := List.mem_iff_getElem?.1 hq
      have hsno := (hst.pdu j q hj).1
      have hjlt := (List.getElem?_eq_some_iff.1 hj).1
      exact hJ.got hex q hq (by omega) c hc hi
  · refine ⟨hJ.increasing, fun p hp => ?_, fun p size hb => ?_, ?_⟩
    · obtain ⟨i, hi, hrest⟩ := hJ.up p hp
      exact ⟨i, by omega, hrest⟩
    · rcases hJ.waits p size hb with ⟨i, hi, hp⟩ | ⟨hp, hpos, hle⟩
      · exact .inl ⟨i, by omega, hp⟩
      · rcases hlt with hlt | ⟨heq, hlt⟩
        · exact .inl ⟨_, hlt, hp⟩
        · exact .inr ⟨heq ▸ hp, by omega, by omega⟩
    · -- what waits is too short to be all of the cut SDU
      intro hex q hq hqL c hc hi
      have hcut := hst.not_before hq hc hi hqL
      obtain ⟨p, hp, hb⟩ := hex (by omega)
      rcases hJ.waits p _ hb with ⟨i, hi', hp'⟩ | ⟨hp', -, hle⟩
      · have := hst.increasing.inj hp hp'
        omega
      · have := hst.increasing.inj hp hp'
        omega

/-- **Reassembly with gaps.** -/
theorem reader_gapped (hst : Stream sdus pdus pos) :
    UmRxEntity.Reader (Known pdus arrived) (fun _ => True) (fun _ => False)
      (Gapped sdus pdus pos arrived) :=
  ⟨fun _ _ _ hp hJ => gapped_take hst hp hJ, fun _ _ _ _ hJ => gapped_skip hst hJ⟩

/-- The reassembly when no PDU below `L` is missing. -/
structure Gapless (sdus : List RlcSdu) (pos : ℕ → ℕ × ℕ) (L : ℕ) (b : Option (RlcSdu × ℕ))
    (D : List RlcSdu) : Prop where
  up : D = sdus.take (pos L).1
  waits : Waits sdus (pos L).1 (pos L).2 b
  all : Exact sdus (pos L).1 (pos L).2 b

/-- **Reassembly without gaps.** -/
theorem reader_gapless (hst : Stream sdus pdus pos) :
    UmRxEntity.Reader (Known pdus arrived) (fun _ => False) (fun _ => False)
      (Gapless sdus pos) := by
  refine ⟨fun p b D hp hJ => ?_, fun _ _ _ h => h.elim⟩
  obtain ⟨L, hget⟩ := List.mem_iff_getElem?.1 hp.1
  obtain ⟨rfl, -, hcut, hfi⟩ := hst.pdu L p hget
  have htake := takeSdus_cut (a := pos p.pduSequenceNumber) (i := 0) hst.increasing hcut hJ.waits
    (fun _ => rfl) (fun h => (h rfl).elim)
  rw [Nat.zero_add, ← hfi] at htake
  have hmono := hst.mono (Nat.le_add_right p.pduSequenceNumber 1)
  refine htake.mono fun r hr => ⟨?_, hr.waits, hr.exact_iff.2 fun _ => hJ.all⟩
  rw [hr.out, if_pos hJ.all, hJ.up, take_append_segment sdus (by omega)]

end

end V2nLte
