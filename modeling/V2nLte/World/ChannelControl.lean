import V2nLte.Apps.MultihopD2D
import V2nLte.Machine.Basic
import Mathlib.Data.Finset.Sort
import Mathlib.Tactic.Ring

/-!
# The radios in range

Every radio registers with the channel control and tells it where it is.  The channel control keeps
a set of neighbours for each radio, updates the sets of the two radios whenever one of them moves,
and on top of it a vector of the neighbours, which is filled when it is needed and marked as invalid
when the set changes.  A broadcast goes to the radios in the vector.

* `ChannelControl.broadcast_in_range` : for all that, a broadcast reaches the registered radios that
  are in range when it is sent, each of them once and in the order of their ids, as if the distances
  were computed anew for each broadcast.

A radio is the id of its module; no two modules have the same id.  The distances are exact.
-/

namespace V2nLte

/-- `sqrdist`. -/
def Coord.sqrdist (a b : Coord) : ℚ := (a.x - b.x) ^ 2 + (a.y - b.y) ^ 2 + (a.z - b.z) ^ 2

theorem Coord.sqrdist_comm (a b : Coord) : a.sqrdist b = b.sqrdist a := by
  unfold Coord.sqrdist
  ring

/-- What the channel control knows about a radio. -/
structure RadioEntry where
  /-- Where it is. -/
  pos : Coord := ⟨0, 0, 0⟩
  /-- A `std::set` in the order of the module ids. -/
  neighbors : Finset ℕ := ∅
  /-- The neighbours as a list, if it is valid. -/
  neighborList : List ℕ := []
  /-- Whether it is. -/
  isNeighborListValid : Bool := false

/-- `LteChannelControl`. -/
structure ChannelControl where
  /-- The registered radios, in the order in which they came. -/
  radios : List ℕ := []
  /-- What is known about each of them. -/
  entry : ℕ → RadioEntry := fun _ => {}

/-- A copy of a frame goes from one radio to another. -/
structure SendDirect where
  /-- The sender. -/
  src : ℕ
  /-- The receiver. -/
  dest : ℕ
  deriving DecidableEq

namespace ChannelControl

variable (maxInterferenceDistance : ℚ) (cc : ChannelControl)

/-- Two positions are in range of each other. -/
def InRange (a b : Coord) : Prop :=
  a.sqrdist b < maxInterferenceDistance * maxInterferenceDistance

instance (a b : Coord) : Decidable (InRange maxInterferenceDistance a b) :=
  inferInstanceAs (Decidable (_ < _))

/-- The entry of a radio is changed. -/
def setEntry (r : ℕ) (re : RadioEntry) : ChannelControl :=
  { cc with entry := Function.update cc.entry r re }

/-- `registerRadio`, which throws if the radio is registered already. -/
def registerRadio (r : ℕ) : Option ChannelControl :=
  if r ∈ cc.radios then none
  else some { radios := cc.radios ++ [r], entry := Function.update cc.entry r {} }

/-- `unregisterRadio`. -/
def unregisterRadio (r : ℕ) : Option ChannelControl :=
  if r ∈ cc.radios then
    some {
      radios := cc.radios.erase r
      entry := fun i =>
        if i ∈ cc.radios then
          { cc.entry i with
            neighbors := (cc.entry i).neighbors.erase r
            isNeighborListValid := false }
        else cc.entry i }
  else none

/-- `getNeighbors`. -/
def getNeighbors (h : ℕ) : ChannelControl × List ℕ :=
  if (cc.entry h).isNeighborListValid then (cc, (cc.entry h).neighborList)
  else
    let neighborList := (cc.entry h).neighbors.sort
    (cc.setEntry h { cc.entry h with neighborList, isNeighborListValid := true }, neighborList)

/-- One round of the loop of `updateConnections`. -/
def updateConnection (h hi : ℕ) : ChannelControl :=
  if hi = h then cc
  else if InRange maxInterferenceDistance (cc.entry h).pos (cc.entry hi).pos then
    -- in range: connect
    if hi ∈ (cc.entry h).neighbors then cc
    else
      (cc.setEntry h { cc.entry h with
        neighbors := insert hi (cc.entry h).neighbors
        isNeighborListValid := false }).setEntry hi { cc.entry hi with
          neighbors := insert h (cc.entry hi).neighbors
          isNeighborListValid := false }
  else if hi ∈ (cc.entry h).neighbors then
    -- out of range: disconnect
    (cc.setEntry h { cc.entry h with
      neighbors := (cc.entry h).neighbors.erase hi
      isNeighborListValid := false }).setEntry hi { cc.entry hi with
        neighbors := (cc.entry hi).neighbors.erase h
        isNeighborListValid := false }
  else cc

/-- `updateConnections`. -/
def updateConnections (h : ℕ) : ChannelControl :=
  cc.radios.foldl (fun cc hi => cc.updateConnection maxInterferenceDistance h hi) cc

/-- `setRadioPosition`. -/
def setRadioPosition (r : ℕ) (pos : Coord) : ChannelControl :=
  (cc.setEntry r { cc.entry r with pos }).updateConnections maxInterferenceDistance r

/-- `sendToChannel`. -/
def sendToChannel (srcRadio : ℕ) : ChannelControl × List SendDirect :=
  let (cc, neighbors) := cc.getNeighbors srcRadio
  (cc, neighbors.map fun r => ⟨srcRadio, r⟩)

/-- What the radios do. -/
inductive Event where
  /-- A radio comes up: it registers and says where it is. -/
  | start (r : ℕ) (pos : Coord)
  /-- A radio has moved. -/
  | receiveSignal (r : ℕ) (pos : Coord)
  /-- A radio is deleted. -/
  | destroy (r : ℕ)
  /-- A radio broadcasts a frame. -/
  | sendBroadcast (r : ℕ)

/-- The channel control. -/
def machine : Machine ChannelControl Event SendDirect where
  step cc
    | .start r pos =>
      (cc.registerRadio r).map fun cc => (cc.setRadioPosition maxInterferenceDistance r pos, [])
    | .receiveSignal r pos =>
      if r ∈ cc.radios then some (cc.setRadioPosition maxInterferenceDistance r pos, []) else none
    | .destroy r => (cc.unregisterRadio r).map fun cc => (cc, [])
    | .sendBroadcast r => if r ∈ cc.radios then some (cc.sendToChannel r) else none

/-- What is to be compared with it: only the positions of the radios. -/
structure Positions where
  /-- The radios. -/
  radios : List ℕ := []
  /-- Where they are. -/
  pos : ℕ → Coord := fun _ => ⟨0, 0, 0⟩

/-- The radios in range of a radio. -/
def Positions.inRange (w : Positions) (r : ℕ) : Finset ℕ :=
  w.radios.toFinset.filter fun q => q ≠ r ∧ InRange maxInterferenceDistance (w.pos r) (w.pos q)

/-- A channel control that looks at all radios for each broadcast. -/
def plain : Machine Positions Event SendDirect where
  step w
    | .start r pos =>
      if r ∈ w.radios then none
      else some ({ radios := w.radios ++ [r], pos := Function.update w.pos r pos }, [])
    | .receiveSignal r pos =>
      if r ∈ w.radios then some ({ w with pos := Function.update w.pos r pos }, []) else none
    | .destroy r =>
      if r ∈ w.radios then some ({ w with radios := w.radios.erase r }, []) else none
    | .sendBroadcast r =>
      if r ∈ w.radios then
        some (w, (w.inRange maxInterferenceDistance r).sort.map fun q => ⟨r, q⟩)
      else none

/-! ### One radio moves -/

/-- The vectors that are marked as valid are. -/
def Cached : Prop :=
  ∀ r, (cc.entry r).isNeighborListValid = true →
    (cc.entry r).neighborList = (cc.entry r).neighbors.sort

variable {d : ℚ} {cc : ChannelControl} {w : Positions} {h hi p q r : ℕ} {pos : Coord}

theorem inRange_comm {a b : Coord} : InRange d a b ↔ InRange d b a := by
  unfold InRange
  rw [Coord.sqrdist_comm]

@[simp] theorem setEntry_radios (re : RadioEntry) : (cc.setEntry r re).radios = cc.radios := rfl

@[simp] theorem setEntry_self (re : RadioEntry) : (cc.setEntry r re).entry r = re :=
  Function.update_self ..

theorem setEntry_of_ne (re : RadioEntry) (hp : p ≠ r) :
    (cc.setEntry r re).entry p = cc.entry p := Function.update_of_ne hp ..

/-- What becomes of the entries of the two radios, and of no other one. -/
theorem updateConnection_cases (d : ℚ) (cc : ChannelControl) (h hi : ℕ) :
    cc.updateConnection d h hi = cc ∧
        (hi ≠ h → (hi ∈ (cc.entry h).neighbors ↔ InRange d (cc.entry h).pos (cc.entry hi).pos)) ∨
      ∃ A B : Finset ℕ, hi ≠ h ∧
        cc.updateConnection d h hi =
          (cc.setEntry h { cc.entry h with neighbors := A, isNeighborListValid := false }).setEntry
            hi { cc.entry hi with neighbors := B, isNeighborListValid := false } ∧
        (∀ q, q ∈ A ↔ if q = hi then InRange d (cc.entry h).pos (cc.entry hi).pos
          else q ∈ (cc.entry h).neighbors) ∧
        (∀ q, q ∈ B ↔ if q = h then InRange d (cc.entry h).pos (cc.entry hi).pos
          else q ∈ (cc.entry hi).neighbors) := by
  unfold updateConnection
  by_cases hne : hi = h
  · exact .inl ⟨if_pos hne, fun hno => absurd hne hno⟩
  rw [if_neg hne]
  by_cases hrange : InRange d (cc.entry h).pos (cc.entry hi).pos
  · rw [if_pos hrange]
    by_cases hmem : hi ∈ (cc.entry h).neighbors
    · exact .inl ⟨if_pos hmem, fun _ => by simp [hmem, hrange]⟩
    · refine .inr ⟨_, _, hne, if_neg hmem, fun q => ?_, fun q => ?_⟩
      · by_cases hq : q = hi <;> simp [hq, hrange]
      · by_cases hq : q = h <;> simp [hq, hrange]
  · rw [if_neg hrange]
    by_cases hmem : hi ∈ (cc.entry h).neighbors
    · refine .inr ⟨_, _, hne, if_pos hmem, fun q => ?_, fun q => ?_⟩
      · by_cases hq : q = hi <;> simp [hq, hrange]
      · by_cases hq : q = h <;> simp [hq, hrange]
    · exact .inl ⟨if_neg hmem, fun _ => by simp [hmem, hrange]⟩

@[simp] theorem updateConnection_radios :
    (cc.updateConnection d h hi).radios = cc.radios := by
  rcases updateConnection_cases d cc h hi with ⟨heq, -⟩ |
    ⟨A, B, -, heq, -⟩
  · rw [heq]
  · rw [heq]
    rfl

@[simp] theorem updateConnection_pos (p : ℕ) :
    ((cc.updateConnection d h hi).entry p).pos = (cc.entry p).pos := by
  rcases updateConnection_cases d cc h hi with ⟨heq, -⟩ |
    ⟨A, B, -, heq, -⟩
  · rw [heq]
  · rw [heq]
    by_cases hp : p = hi
    · rw [hp, setEntry_self]
    · rw [setEntry_of_ne _ hp]
      by_cases hp' : p = h
      · rw [hp', setEntry_self]
      · rw [setEntry_of_ne _ hp']

theorem Cached.updateConnection (hc : cc.Cached) : (cc.updateConnection d h hi).Cached := by
  rcases updateConnection_cases d cc h hi with ⟨heq, -⟩ |
    ⟨A, B, -, heq, -⟩
  · rwa [heq]
  · rw [heq]
    intro p hvalid
    by_cases hp : p = hi
    · simp [hp] at hvalid
    · rw [setEntry_of_ne _ hp] at hvalid ⊢
      by_cases hp' : p = h
      · simp [hp'] at hvalid
      · rw [setEntry_of_ne _ hp'] at hvalid ⊢
        exact hc p hvalid

/-- Two radios are linked, if they were linked both ways or not at all, exactly when they are in
range; all other links stay. -/
theorem mem_updateConnection (hsym : hi ∈ (cc.entry h).neighbors ↔ h ∈ (cc.entry hi).neighbors)
    (p q : ℕ) :
    q ∈ ((cc.updateConnection d h hi).entry p).neighbors ↔
      if hi ≠ h ∧ (p = h ∧ q = hi ∨ p = hi ∧ q = h) then
        InRange d (cc.entry h).pos (cc.entry hi).pos
      else q ∈ (cc.entry p).neighbors := by
  rcases updateConnection_cases d cc h hi with ⟨heq, hsame⟩ |
    ⟨A, B, hne, heq, hA, hB⟩
  · rw [heq]
    split
    · rename_i hpair
      obtain ⟨hne, ⟨rfl, rfl⟩ | ⟨rfl, rfl⟩⟩ := hpair
      · exact hsame hne
      · rw [← hsym]
        exact hsame hne
    · rfl
  · rw [heq]
    by_cases hp : p = hi
    · subst hp
      simp [hB, hne]
    · rw [setEntry_of_ne _ hp]
      by_cases hp' : p = h
      · subst hp'
        simp [hA, hne, hp]
      · rw [setEntry_of_ne _ hp']
        simp [hp, hp']

theorem foldl_updateConnection_spec (l : List ℕ) (hc : cc.Cached)
    (hsym : ∀ q ∈ l, (q ∈ (cc.entry h).neighbors ↔ h ∈ (cc.entry q).neighbors)) :
    let cc' := l.foldl (fun cc hi => cc.updateConnection d h hi) cc
    cc'.radios = cc.radios ∧ cc'.Cached ∧ (∀ p, (cc'.entry p).pos = (cc.entry p).pos) ∧
      ∀ p q, q ∈ (cc'.entry p).neighbors ↔
        if p ≠ q ∧ (p = h ∧ q ∈ l ∨ p ∈ l ∧ q = h) then
          InRange d (cc.entry p).pos (cc.entry q).pos
        else q ∈ (cc.entry p).neighbors := by
  induction l generalizing cc with
  | nil => simp [hc]
  | cons hi l ih =>
    -- the first update looks at the two radios only
    have hone := mem_updateConnection (d := d) (hsym hi List.mem_cons_self)
    have hsym' : ∀ q ∈ l, (q ∈ ((cc.updateConnection d h hi).entry h).neighbors ↔
        h ∈ ((cc.updateConnection d h hi).entry q).neighbors) := by
      intro q hq
      rw [hone, hone]
      by_cases hqi : q = hi
      · subst hqi
        by_cases hqh : q = h
        · simp [hqh]
        · simp [hqh]
      · by_cases hqh : q = h
        · simp [hqh]
        · simpa [hqi, hqh] using hsym q (List.mem_cons_of_mem _ hq)
    obtain ⟨hradios, hcached, hpos, hmem⟩ := ih hc.updateConnection hsym'
    refine ⟨by simpa using hradios, hcached, fun p => by simpa using hpos p, fun p q => ?_⟩
    rw [List.foldl_cons, hmem]
    simp only [updateConnection_pos]
    -- the pair is looked at by a later update
    by_cases hlater : p ≠ q ∧ (p = h ∧ q ∈ l ∨ p ∈ l ∧ q = h)
    · rw [if_pos hlater, if_pos]
      exact ⟨hlater.1, hlater.2.imp (fun ⟨hp, hq⟩ => ⟨hp, List.mem_cons_of_mem _ hq⟩)
        fun ⟨hp, hq⟩ => ⟨List.mem_cons_of_mem _ hp, hq⟩⟩
    · rw [if_neg hlater, hone]
      -- it is looked at by the first one
      by_cases hnow : hi ≠ h ∧ (p = h ∧ q = hi ∨ p = hi ∧ q = h)
      · rw [if_pos hnow]
        obtain ⟨hne, ⟨rfl, rfl⟩ | ⟨rfl, rfl⟩⟩ := hnow
        · rw [if_pos ⟨Ne.symm hne, .inl ⟨rfl, List.mem_cons_self⟩⟩]
        · rw [if_pos ⟨hne, .inr ⟨List.mem_cons_self, rfl⟩⟩, inRange_comm]
      · rw [if_neg hnow, if_neg]
        rintro ⟨hne, ⟨rfl, hq⟩ | ⟨hp, rfl⟩⟩
        · rcases List.mem_cons.1 hq with rfl | hq
          · exact hnow ⟨Ne.symm hne, .inl ⟨rfl, rfl⟩⟩
          · exact hlater ⟨hne, .inl ⟨rfl, hq⟩⟩
        · rcases List.mem_cons.1 hp with rfl | hp
          · exact hnow ⟨hne, .inr ⟨rfl, rfl⟩⟩
          · exact hlater ⟨hne, .inr ⟨hp, rfl⟩⟩

/-! ### The two channel controls side by side -/

/-- The sets and the vectors say which radios are in range. -/
structure Tracks (d : ℚ) (cc : ChannelControl) (w : Positions) : Prop where
  radios : cc.radios = w.radios
  nodup : w.radios.Nodup
  pos : ∀ r ∈ w.radios, (cc.entry r).pos = w.pos r
  neighbors : ∀ r ∈ w.radios, (cc.entry r).neighbors = w.inRange d r
  cached : cc.Cached

theorem Positions.mem_inRange :
    q ∈ w.inRange d r ↔ q ∈ w.radios ∧ q ≠ r ∧ InRange d (w.pos r) (w.pos q) := by
  simp [Positions.inRange]

/-- A radio is moved that is linked to the others as they are to it. -/
theorem tracks_setRadioPosition (hradios : cc.radios = w.radios) (hnodup : w.radios.Nodup)
    (hr : r ∈ w.radios) (hc : cc.Cached)
    (hpos : ∀ q ∈ w.radios, q ≠ r → (cc.entry q).pos = w.pos q)
    (hsym : ∀ q ∈ w.radios, (q ∈ (cc.entry r).neighbors ↔ r ∈ (cc.entry q).neighbors))
    (hself : r ∉ (cc.entry r).neighbors)
    (hknown : ∀ p ∈ w.radios, ∀ q ∈ (cc.entry p).neighbors, q ∈ w.radios)
    (hother : ∀ p ∈ w.radios, ∀ q ∈ w.radios, p ≠ r → q ≠ r →
      (q ∈ (cc.entry p).neighbors ↔ q ≠ p ∧ InRange d (w.pos p) (w.pos q))) :
    Tracks d (cc.setRadioPosition d r pos) { w with pos := Function.update w.pos r pos } := by
  have hentry : ∀ q, ((cc.setEntry r { cc.entry r with pos }).entry q).neighbors =
      (cc.entry q).neighbors := by
    intro q
    by_cases hq : q = r
    · rw [hq, setEntry_self]
    · rw [setEntry_of_ne _ hq]
  have hcached : (cc.setEntry r { cc.entry r with pos }).Cached := by
    intro q hvalid
    by_cases hq : q = r
    · subst hq
      rw [setEntry_self] at hvalid ⊢
      exact hc q hvalid
    · rw [setEntry_of_ne _ hq] at hvalid ⊢
      exact hc q hvalid
  have hmoved : ∀ q ∈ w.radios, ((cc.setEntry r { cc.entry r with pos }).entry q).pos =
      Function.update w.pos r pos q := by
    intro q hq
    by_cases hqr : q = r
    · subst hqr
      rw [setEntry_self, Function.update_self]
    · rw [setEntry_of_ne _ hqr, Function.update_of_ne hqr]
      exact hpos q hq hqr
  -- the position is set, and the radios of the list are looked at
  obtain ⟨hradios', hcached', hpos', hmem⟩ := foldl_updateConnection_spec (d := d) (h := r)
    cc.radios hcached (fun q hq => by rw [hentry, hentry]; exact hsym q (hradios ▸ hq))
  refine ⟨hradios'.trans hradios, hnodup, fun q hq => (hpos' q).trans (hmoved q hq), ?_, hcached'⟩
  intro p hp
  ext q
  rw [Positions.mem_inRange]
  refine (hmem p q).trans ?_
  rw [hradios]
  by_cases hq : q ∈ w.radios
  · rw [hmoved p hp, hmoved q hq, hentry]
    -- no radio is its own neighbour
    by_cases hpq : p = q
    · subst hpq
      rw [if_neg (fun hno => hno.1 rfl)]
      by_cases hpr : p = r
      · subst hpr
        simp [hself]
      · simp [hother p hp p hp hpr hpr]
    · -- the pairs with `r` are looked at, the others stay
      by_cases hone : p = r ∨ q = r
      · rw [if_pos ⟨hpq, hone.imp (fun h => ⟨h, hq⟩) fun h => ⟨hp, h⟩⟩]
        simp [hq, Ne.symm hpq]
      · obtain ⟨hpr, hqr⟩ := not_or.1 hone
        rw [if_neg (by simp [hpr, hqr]), hother p hp q hq hpr hqr]
        simp [hq, hpr, hqr]
  · rw [if_neg (by rintro ⟨-, ⟨-, h⟩ | ⟨-, rfl⟩⟩; exacts [hq h, hq hr]), hentry]
    exact iff_of_false (fun h => hq (hknown p hp q h)) fun h => hq h.1

/-- A registered radio moves. -/
theorem Tracks.move (h : Tracks d cc w) (hr : r ∈ w.radios) :
    Tracks d (cc.setRadioPosition d r pos) { w with pos := Function.update w.pos r pos } := by
  have hmem : ∀ p ∈ w.radios, ∀ q, q ∈ (cc.entry p).neighbors ↔
      q ∈ w.radios ∧ q ≠ p ∧ InRange d (w.pos p) (w.pos q) := by
    intro p hp q
    rw [h.neighbors p hp, Positions.mem_inRange]
  refine tracks_setRadioPosition h.radios h.nodup hr h.cached (fun q hq _ => h.pos q hq) ?_ ?_ ?_ ?_
  · intro q hq
    rw [hmem r hr, hmem q hq, inRange_comm]
    simp [hq, hr, eq_comm]
  · rw [hmem r hr]
    simp
  · intro p hp q hq
    exact ((hmem p hp q).1 hq).1
  · intro p hp q hq _ _
    rw [hmem p hp]
    simp [hq]

/-- A radio comes up. -/
theorem Tracks.register (h : Tracks d cc w) (hr : r ∉ w.radios) (pos : Coord) :
    Tracks d (({ radios := cc.radios ++ [r], entry := Function.update cc.entry r {} } :
        ChannelControl).setRadioPosition d r pos)
      { radios := w.radios ++ [r], pos := Function.update w.pos r pos } := by
  have hne : ∀ q ∈ w.radios, q ≠ r := fun q hq hqr => hr (hqr ▸ hq)
  have hold : ∀ p ∈ w.radios, Function.update cc.entry r {} p = cc.entry p := fun p hp =>
    Function.update_of_ne (hne p hp) ..
  have hmem : ∀ p ∈ w.radios, ∀ q, q ∈ (cc.entry p).neighbors ↔
      q ∈ w.radios ∧ q ≠ p ∧ InRange d (w.pos p) (w.pos q) := by
    intro p hp q
    rw [h.neighbors p hp, Positions.mem_inRange]
  refine tracks_setRadioPosition (w := { w with radios := w.radios ++ [r] })
    (by rw [h.radios]) ?_ (by simp) ?_ ?_ ?_ (by simp) ?_ ?_
  · exact List.nodup_append.2 ⟨h.nodup, List.nodup_singleton r, by simpa using hne⟩
  · intro q hvalid
    by_cases hq : q = r
    · simp [hq] at hvalid
    · simp only [Function.update_of_ne hq] at hvalid ⊢
      exact h.cached q hvalid
  · intro q hq hqr
    have hq' : q ∈ w.radios := by simpa [hqr] using hq
    simp only [hold q hq']
    exact h.pos q hq'
  · -- the new radio has no neighbours yet
    intro q hq
    rcases List.mem_append.1 hq with hq | hq
    · simp only [Function.update_self, hold q hq, hmem q hq]
      simp [hr]
    · obtain rfl := List.mem_singleton.1 hq
      simp
  · intro p hp q hq
    rcases List.mem_append.1 hp with hp | hp
    · simp only [hold p hp, hmem p hp] at hq
      exact List.mem_append_left _ hq.1
    · obtain rfl := List.mem_singleton.1 hp
      simp at hq
  · intro p hp q hq hpr hqr
    have hp' : p ∈ w.radios := by simpa [hpr] using hp
    have hq' : q ∈ w.radios := by simpa [hqr] using hq
    simp only [hold p hp', hmem p hp']
    simp [hq']

/-- A radio is deleted. -/
theorem Tracks.unregister (h : Tracks d cc w) {cc' : ChannelControl}
    (hst : cc.unregisterRadio r = some cc') :
    Tracks d cc' { w with radios := w.radios.erase r } := by
  simp only [unregisterRadio] at hst
  split at hst
  · obtain rfl := Option.some.inj hst
    have hin : ∀ p ∈ w.radios.erase r, p ∈ cc.radios := fun p hp => by
      rw [h.radios]
      exact List.mem_of_mem_erase hp
    constructor
    · simp only [h.radios]
    · exact h.nodup.erase r
    · intro p hp
      simp only [if_pos (hin p hp)]
      exact h.pos p (List.mem_of_mem_erase hp)
    · intro p hp
      ext q
      simp only [if_pos (hin p hp), Finset.mem_erase, h.neighbors p (List.mem_of_mem_erase hp),
        Positions.mem_inRange, h.nodup.mem_erase_iff]
      tauto
    · intro p hvalid
      by_cases hp : p ∈ cc.radios
      · simp [hp] at hvalid
      · simp only [if_neg hp] at hvalid ⊢
        exact h.cached p hvalid
  · cases hst

/-- The vector that is filled or was filled before. -/
theorem Tracks.getNeighbors (h : Tracks d cc w) (hr : r ∈ w.radios) :
    (cc.getNeighbors r).2 = (w.inRange d r).sort ∧ Tracks d (cc.getNeighbors r).1 w := by
  unfold ChannelControl.getNeighbors
  split
  · rename_i hvalid
    refine ⟨?_, h⟩
    rw [← h.neighbors r hr]
    exact h.cached r hvalid
  · refine ⟨by rw [← h.neighbors r hr], h.radios, h.nodup, fun p hp => ?_, fun p hp => ?_,
      fun p hvalid => ?_⟩
    · by_cases hpr : p = r
      · subst hpr
        simpa using h.pos p hp
      · simpa [setEntry_of_ne _ hpr] using h.pos p hp
    · by_cases hpr : p = r
      · subst hpr
        simpa using h.neighbors p hp
      · simpa [setEntry_of_ne _ hpr] using h.neighbors p hp
    · by_cases hpr : p = r
      · simp [hpr]
      · simp only [setEntry_of_ne _ hpr] at hvalid ⊢
        exact h.cached p hvalid

/-- The two channel controls keep step with each other. -/
theorem Tracks.step (h : Tracks d cc w) (e : Event) :
    Machine.InStep (Tracks d) ((machine d).step cc e) ((plain d).step w e) := by
  cases e with
  | start r pos =>
    by_cases hr : r ∈ w.radios
    · simp only [machine, plain, registerRadio, h.radios, if_pos hr]
      exact .stop
    · simp only [machine, plain, registerRadio, h.radios, if_neg hr]
      refine .go ?_
      have := h.register hr pos
      rwa [h.radios] at this
  | receiveSignal r pos =>
    by_cases hr : r ∈ w.radios
    · simp only [machine, plain, h.radios, if_pos hr]
      exact .go (h.move hr)
    · simp only [machine, plain, h.radios, if_neg hr]
      exact .stop
  | destroy r =>
    cases hst : cc.unregisterRadio r with
    | none =>
      have hr : r ∉ w.radios := by
        intro hr
        simp [unregisterRadio, h.radios, hr] at hst
      simp only [machine, plain, hst, if_neg hr]
      exact .stop
    | some cc' =>
      have hr : r ∈ w.radios := by
        by_contra hr
        simp [unregisterRadio, h.radios, hr] at hst
      simp only [machine, plain, hst, if_pos hr]
      exact .go (h.unregister hst)
  | sendBroadcast r =>
    by_cases hr : r ∈ w.radios
    · obtain ⟨hlist, htracks⟩ := h.getNeighbors hr
      simp only [machine, plain, h.radios, if_pos hr, sendToChannel, hlist]
      exact .go htracks
    · simp only [machine, plain, h.radios, if_neg hr]
      exact .stop

/-- **A broadcast reaches the radios in range.**  Whatever radios come, move and go, the channel
control with its sets and vectors sends the same copies as one that looks at all radios each
time. -/
theorem broadcast_in_range (d : ℚ) (es : List Event) :
    ((machine d).exec {} es).map Prod.snd = ((plain d).exec {} es).map Prod.snd :=
  Machine.exec_snd_eq (R := Tracks d) (fun _ _ e h => h.step e)
    ⟨rfl, List.nodup_nil, by simp, by simp, by simp [Cached]⟩ es

end ChannelControl

end V2nLte
