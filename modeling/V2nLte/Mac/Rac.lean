import V2nLte.Lte.Common
import V2nLte.Machine.Pool
import Mathlib.Logic.Function.Basic

/-!
# Random access

A UE with data and without a grant asks its eNB for one (RAC).  The eNB answers, and the next time
it schedules it gives the UE one block, if there is one, for the report of its buffers.  The UE
waits for the answer before it asks again, and so do many UEs at once: requests, answers and grants
are on their way in any order.

* `requests_apart` : a UE asks no more often than once in `raRespWinStart + 1` of its TTIs.
* `backlogged_is_granted` : a UE with data has a grant after `raRespWinStart + 2` of its TTIs, once
  the eNB has dealt with its requests and if there was a block for it.
* `access_accounted` : every request is answered once, the eNB gives no more blocks than it was
  asked for, and no UE ever backs off.

The cell is one with D2D.  The eNB sends no periodic grants.
-/

namespace V2nLte

/-- What the constructor of `LteMacUe` sets. -/
structure RacParams where
  /-- How often it is tried. -/
  maxRacTryouts : ℕ := 0
  /-- The shortest back-off, in TTIs. -/
  minRacBackoff : ℕ := 0
  /-- The longest back-off, in TTIs. -/
  maxRacBackoff : ℕ := 1
  /-- How long an answer is waited for, in TTIs. -/
  raRespWinStart : ℕ := 3

/-- A buffer of a UE: does its connection go to a multicast group, and its packets. -/
structure RacBuffer where
  /-- Whether the connection goes to a multicast group. -/
  multicast : Bool
  /-- The number of packets. -/
  queueLength : ℕ

/-- What a `LteMacUeD2D` knows about its access. -/
structure RacUe where
  /-- In the order of the connection ids. -/
  macBuffers : List RacBuffer := []
  /-- There is a `schedulingGrant_`. -/
  schedulingGrant : Bool := false
  /-- A request is under way. -/
  racRequested : Bool := false
  /-- A request for a multicast is under way. -/
  racD2DMulticastRequested : Bool := false
  /-- The TTIs that are left of the back-off. -/
  racBackoffTimer : ℕ := 0
  /-- How often it has been tried. -/
  currentRacTry : ℕ := 0
  /-- The TTIs that are left for the answer. -/
  raRespTimer : ℕ := 0
  /-- A report is to be sent. -/
  bsrTriggered : Bool := false
  /-- A report about a multicast is to be sent. -/
  bsrD2DMulticastTriggered : Bool := false

namespace RacUe

variable (P : RacParams) (ue : RacUe)

/-- `checkRAC`, and whether a request is sent. -/
def checkRAC : RacUe × Bool :=
  if 0 < ue.racBackoffTimer then ({ ue with racBackoffTimer := ue.racBackoffTimer - 1 }, false)
  else if 0 < ue.raRespTimer then ({ ue with raRespTimer := ue.raRespTimer - 1 }, false)
  else if ue.racRequested then ({ ue with racRequested := false }, false)
  else if ue.racD2DMulticastRequested then ({ ue with racD2DMulticastRequested := false }, false)
  else
    -- the first buffer that is not empty says which kind of request it is
    let first := ue.macBuffers.find? fun b => 0 < b.queueLength
    let trigger := first.any fun b => !b.multicast
    let triggerD2DMulticast := first.any RacBuffer.multicast
    let ue := { ue with racRequested := trigger }
    let ue := if trigger then ue else { ue with racD2DMulticastRequested := triggerD2DMulticast }
    if trigger || triggerD2DMulticast then ({ ue with raRespTimer := P.raRespWinStart }, true)
    else (ue, false)

/-- `macHandleRac`; a backoff is drawn by `uniform` if the request has failed. -/
def macHandleRac (success : Bool) (uniform : ℕ → ℕ → ℕ) : RacUe :=
  if success then
    let ue := if ue.racD2DMulticastRequested then { ue with bsrD2DMulticastTriggered := true }
      else { ue with bsrTriggered := true }
    { ue with currentRacTry := 0, racBackoffTimer := 0 }
  else if P.maxRacTryouts ≤ ue.currentRacTry + 1 then
    { ue with currentRacTry := 0, racBackoffTimer := 0 }
  else
    { ue with
      currentRacTry := ue.currentRacTry + 1
      racBackoffTimer := uniform P.minRacBackoff P.maxRacBackoff }

/-- `macHandleGrant`. -/
def macHandleGrant : RacUe :=
  { ue with schedulingGrant := true, racRequested := false, racD2DMulticastRequested := false }

/-- `triggerBsr`, for a connection of this kind. -/
def triggerBsr (multicast : Bool) : RacUe :=
  if multicast then { ue with bsrD2DMulticastTriggered := true }
  else { ue with bsrTriggered := true }

/-- `handleSelfMessage` and `flushHarqBuffers`, and whether a request is sent.  With a grant, the
report of the buffers is over with as soon as a PDU is made; it is not made in a TTI that is used
for a retransmission, say. -/
def handleSelfMessage (pduMade : Bool) : RacUe × Bool :=
  if ue.schedulingGrant then
    let ue := if pduMade then { ue with bsrTriggered := false, bsrD2DMulticastTriggered := false }
      else ue
    ({ ue with schedulingGrant := false }, false)
  else ue.checkRAC P

end RacUe

/-- What the eNB sends to a UE. -/
inductive RacDownlink where
  /-- The answer to a request. -/
  | rac (success : Bool)
  | grant
  deriving DecidableEq

/-- The UEs, the eNB and what is in the air. -/
structure RacCell where
  /-- The UEs. -/
  ue : MacNodeId → RacUe := fun _ => {}
  /-- The UEs whose requests are on their way to the eNB. -/
  toEnb : List MacNodeId := []
  /-- The requests since the eNB last scheduled. -/
  racStatus : List MacNodeId := []
  /-- What is on its way to the UEs. -/
  toUe : List (MacNodeId × RacDownlink) := []

/-- What can be seen. -/
inductive RacOutput where
  /-- A UE sends a request. -/
  | request (u : MacNodeId)
  /-- The eNB answers. -/
  | answer (u : MacNodeId)
  /-- The eNB grants a block for a request. -/
  | racGrant (u : MacNodeId)
  /-- An answer arrives at the UE. -/
  | answered (u : MacNodeId)
  /-- A grant arrives at the UE. -/
  | granted (u : MacNodeId)
  deriving DecidableEq

namespace Rac

/-- What can happen. -/
inductive Event where
  /-- Packets come to the buffers of a UE, or leave them. -/
  | setBuffers (u : MacNodeId) (macBuffers : List RacBuffer)
  /-- A connection of a UE switches its mode. -/
  | triggerBsr (u : MacNodeId) (multicast : Bool)
  /-- The main loop of a UE. -/
  | tti (u : MacNodeId) (pduMade : Bool)
  /-- The request at this position arrives at the eNB. -/
  | fromPhyEnb (i : ℕ)
  /-- The eNB schedules, with a block for these UEs. -/
  | racschedule (free : MacNodeId → Bool)
  /-- The eNB grants blocks for another reason: a report, or a retransmission. -/
  | scheduleGrant (u : MacNodeId)
  /-- A UE leaves the cell. -/
  | removePendingRac (u : MacNodeId)
  /-- The message at this position arrives at its UE. -/
  | fromPhyUe (i : ℕ) (uniform : ℕ → ℕ → ℕ)

/-- The cell. -/
def machine (P : RacParams) : Machine RacCell Event RacOutput where
  step s
    | .setBuffers u macBuffers =>
      some ({ s with ue := Function.update s.ue u { s.ue u with macBuffers } }, [])
    | .triggerBsr u multicast =>
      some ({ s with ue := Function.update s.ue u ((s.ue u).triggerBsr multicast) }, [])
    | .tti u pduMade =>
      let r := (s.ue u).handleSelfMessage P pduMade
      let s := { s with ue := Function.update s.ue u r.1 }
      if r.2 then some ({ s with toEnb := s.toEnb ++ [u] }, [.request u]) else some (s, [])
    | .fromPhyEnb i =>
      match s.toEnb[i]? with
      | none => none
      | some u =>
        -- `signalRac`; all requests are marked as successful
        some ({ s with
          toEnb := s.toEnb.eraseIdx i
          racStatus := s.racStatus.insert u
          toUe := s.toUe ++ [(u, .rac true)] }, [.answer u])
    | .racschedule free =>
      let granted := s.racStatus.filter free
      some ({ s with racStatus := [], toUe := s.toUe ++ granted.map (·, .grant) },
        granted.map .racGrant)
    | .scheduleGrant u => some ({ s with toUe := s.toUe ++ [(u, .grant)] }, [])
    | .removePendingRac u => some ({ s with racStatus := s.racStatus.erase u }, [])
    | .fromPhyUe i uniform =>
      match s.toUe[i]? with
      | none => none
      | some (u, .rac success) =>
        some ({ s with
          toUe := s.toUe.eraseIdx i
          ue := Function.update s.ue u ((s.ue u).macHandleRac P success uniform) },
          [.answered u])
      | some (u, .grant) =>
        some ({ s with
          toUe := s.toUe.eraseIdx i
          ue := Function.update s.ue u (s.ue u).macHandleGrant }, [.granted u])

/-! ### One UE -/

/-- The TTIs until the UE may ask again. -/
def wait (ue : RacUe) : ℕ :=
  ue.raRespTimer + if ue.racRequested || ue.racD2DMulticastRequested then 1 else 0

/-- There are data to send. -/
def Backlogged (l : List RacBuffer) : Prop := ∃ b ∈ l, 0 < b.queueLength

instance (l : List RacBuffer) : Decidable (Backlogged l) := inferInstanceAs (Decidable (∃ b ∈ l, _))

/-- The UE does not back off, and has asked for one thing at a time. -/
structure Calm (P : RacParams) (ue : RacUe) : Prop where
  backoff : ue.racBackoffTimer = 0
  tries : ue.currentRacTry = 0
  timer : ue.raRespTimer ≤ P.raRespWinStart
  one : ¬ (ue.racRequested = true ∧ ue.racD2DMulticastRequested = true)

variable {P : RacParams} {ue : RacUe}

theorem Calm.wait_le (h : Calm P ue) : wait ue ≤ P.raRespWinStart + 1 := by
  have htimer := h.timer
  unfold wait
  split <;> omega

/-- What `checkRAC` does: it sends a request, or the UE has one TTI less to wait if it has data. -/
theorem Calm.checkRAC (h : Calm P ue) :
    Calm P (ue.checkRAC P).1 ∧
      (ue.checkRAC P).1.macBuffers = ue.macBuffers ∧
      (ue.checkRAC P).1.schedulingGrant = ue.schedulingGrant ∧
      ((ue.checkRAC P).2 = true → ue.raRespTimer = 0 ∧
        (ue.checkRAC P).1.raRespTimer = P.raRespWinStart) ∧
      ((ue.checkRAC P).2 = false → ue.raRespTimer ≤ (ue.checkRAC P).1.raRespTimer + 1 ∧
        (Backlogged ue.macBuffers → wait (ue.checkRAC P).1 + 1 ≤ wait ue)) := by
  obtain ⟨hbackoff, htries, htimer, hone⟩ := h
  unfold RacUe.checkRAC
  rw [if_neg (by omega)]
  -- the UE waits for an answer
  split
  · refine ⟨⟨hbackoff, htries, by simp; omega, hone⟩, rfl, rfl, by simp, fun _ => ?_⟩
    refine ⟨by simp; omega, fun _ => ?_⟩
    simp only [wait]
    omega
  · split
    · -- the answer has come, and the flag is taken back
      rename_i hreq
      refine ⟨⟨hbackoff, htries, htimer, by simp⟩, rfl, rfl, by simp, fun _ => ⟨by simp, ?_⟩⟩
      intro _
      have hmulti : ue.racD2DMulticastRequested = false := by simpa [hreq] using hone
      simp [wait, hreq, hmulti]
    · -- the same for the flag of the multicast connections
      split
      · rename_i hreq hmulti
        refine ⟨⟨hbackoff, htries, htimer, by simp⟩, rfl, rfl, by simp, fun _ => ⟨by simp, ?_⟩⟩
        intro _
        simp [wait, hreq, hmulti]
      · rename_i htimer₀ hreq hmulti
        have hreq' : ue.racRequested = false := by simpa using hreq
        have hmulti' : ue.racD2DMulticastRequested = false := by simpa using hmulti
        -- a request is sent if a buffer holds data
        cases hfirst : ue.macBuffers.find? fun b => 0 < b.queueLength with
        | none =>
          refine ⟨⟨hbackoff, htries, htimer, by simp⟩, rfl, rfl, by simp, fun _ => ⟨by simp, ?_⟩⟩
          rintro ⟨b, hb, hpos⟩
          exact absurd (by simpa using hpos) (List.find?_eq_none.1 hfirst b hb)
        | some b =>
          cases hb : b.multicast with
          | true =>
            simp only [Option.any_some, hb, Bool.not_true, Bool.false_eq_true, if_false,
              Bool.or_true, if_true]
            refine ⟨⟨hbackoff, htries, le_rfl, by simp⟩, trivial, trivial,
              fun _ => ⟨by omega, trivial⟩, by simp⟩
          | false =>
            simp only [Option.any_some, hb, Bool.not_false, if_true, Bool.or_false]
            refine ⟨⟨hbackoff, htries, le_rfl, by simp [hmulti']⟩, trivial, trivial,
              fun _ => ⟨by omega, trivial⟩, by simp⟩

/-- The main loop without a grant is `checkRAC`; with one the UE asks for nothing. -/
theorem Calm.handleSelfMessage (h : Calm P ue) (pduMade : Bool) :
    Calm P (ue.handleSelfMessage P pduMade).1 ∧
      (ue.handleSelfMessage P pduMade).1.macBuffers = ue.macBuffers ∧
      (ue.handleSelfMessage P pduMade).1.schedulingGrant = false ∧
      ((ue.handleSelfMessage P pduMade).2 = true → ue.raRespTimer = 0 ∧
        (ue.handleSelfMessage P pduMade).1.raRespTimer = P.raRespWinStart) ∧
      ((ue.handleSelfMessage P pduMade).2 = false →
        ue.raRespTimer ≤ (ue.handleSelfMessage P pduMade).1.raRespTimer + 1 ∧
        (ue.schedulingGrant = false → Backlogged ue.macBuffers →
          wait (ue.handleSelfMessage P pduMade).1 + 1 ≤ wait ue)) := by
  unfold RacUe.handleSelfMessage
  cases hgrant : ue.schedulingGrant with
  | false =>
    obtain ⟨hcalm, hbuffers, hsame, hsent, hquiet⟩ := h.checkRAC
    refine ⟨hcalm, hbuffers, hsame.trans hgrant, hsent, fun hno => ?_⟩
    exact ⟨(hquiet hno).1, fun _ => (hquiet hno).2⟩
  | true =>
    obtain ⟨hbackoff, htries, htimer, hone⟩ := h
    cases pduMade with
    | false => exact ⟨⟨hbackoff, htries, htimer, hone⟩, rfl, rfl, by simp, by simp⟩
    | true => exact ⟨⟨hbackoff, htries, htimer, hone⟩, rfl, rfl, by simp, by simp⟩

theorem Calm.macHandleRac (h : Calm P ue) (uniform : ℕ → ℕ → ℕ) :
    Calm P (ue.macHandleRac P true uniform) ∧ wait (ue.macHandleRac P true uniform) = wait ue ∧
      (ue.macHandleRac P true uniform).raRespTimer = ue.raRespTimer ∧
      (ue.macHandleRac P true uniform).macBuffers = ue.macBuffers ∧
      (ue.macHandleRac P true uniform).schedulingGrant = ue.schedulingGrant := by
  obtain ⟨hbackoff, htries, htimer, hone⟩ := h
  simp only [RacUe.macHandleRac, if_true]
  split
  · exact ⟨⟨rfl, rfl, htimer, hone⟩, rfl, rfl, rfl, rfl⟩
  · exact ⟨⟨rfl, rfl, htimer, hone⟩, rfl, rfl, rfl, rfl⟩

theorem Calm.triggerBsr (h : Calm P ue) (multicast : Bool) :
    Calm P (ue.triggerBsr multicast) ∧ wait (ue.triggerBsr multicast) = wait ue ∧
      (ue.triggerBsr multicast).raRespTimer = ue.raRespTimer ∧
      (ue.triggerBsr multicast).macBuffers = ue.macBuffers ∧
      (ue.triggerBsr multicast).schedulingGrant = ue.schedulingGrant := by
  obtain ⟨hbackoff, htries, htimer, hone⟩ := h
  cases multicast with
  | false => exact ⟨⟨hbackoff, htries, htimer, hone⟩, rfl, rfl, rfl, rfl⟩
  | true => exact ⟨⟨hbackoff, htries, htimer, hone⟩, rfl, rfl, rfl, rfl⟩

theorem Calm.macHandleGrant (h : Calm P ue) : Calm P ue.macHandleGrant :=
  ⟨h.backoff, h.tries, h.timer, by simp [RacUe.macHandleGrant]⟩

/-! ### The cell -/

/-- Nobody backs off, and nobody will be told to. -/
structure Quiet (P : RacParams) (s : RacCell) : Prop where
  calm : ∀ u, Calm P (s.ue u)
  answers : ∀ u success, (u, .rac success) ∈ s.toUe → success = true

/-- The TTIs of a UE. -/
def ttis (u : MacNodeId) (es : List Event) : ℕ :=
  es.countP fun
    | .tti v _ => v = u
    | _ => false

/-- The requests of a UE. -/
def requests (u : MacNodeId) (os : List RacOutput) : ℕ := os.count (.request u)

/-- The requests of a UE that the eNB has answered. -/
def answers (u : MacNodeId) (os : List RacOutput) : ℕ := os.count (.answer u)

/-- The answers that have arrived at a UE. -/
def answered (u : MacNodeId) (os : List RacOutput) : ℕ := os.count (.answered u)

/-- The blocks that were granted for the requests of a UE. -/
def racGrants (u : MacNodeId) (os : List RacOutput) : ℕ := os.count (.racGrant u)

/-- What is known about one UE after a step of the cell. -/
structure StepFor (P : RacParams) (u : MacNodeId) (s : RacCell) (e : Event) (s' : RacCell)
    (o : List RacOutput) : Prop where
  calm : Calm P (s'.ue u)
  /-- It has asked, or its timer has gone on by one at most. -/
  apart : (P.raRespWinStart + 1) * requests u o + (s.ue u).raRespTimer ≤
    ttis u [e] + (s'.ue u).raRespTimer
  /-- Unless it has a grant or gets one, a UE with data comes closer to its next request. -/
  nearer : (s.ue u).schedulingGrant = false → .granted u ∉ o →
    (s'.ue u).schedulingGrant = false ∧ (Backlogged (s.ue u).macBuffers →
      ttis u [e] + wait (s'.ue u) ≤ (P.raRespWinStart + 2) * requests u o + wait (s.ue u))
  /-- Its data stay if they are not taken away. -/
  data : (∀ l, e = .setBuffers u l → Backlogged l) → Backlogged (s.ue u).macBuffers →
    Backlogged (s'.ue u).macBuffers

variable {s s' : RacCell} {e : Event} {es : List Event} {o os : List RacOutput} {u v : MacNodeId}

/-- Nothing happens to a UE. -/
theorem StepFor.refl (h : Calm P (s.ue u)) (hue : s'.ue u = s.ue u) (htti : ttis u [e] = 0)
    (ho : requests u o = 0) : StepFor P u s e s' o := by
  constructor
  · rwa [hue]
  · rw [hue, htti, ho]
    simp
  · intro hgrant _
    rw [hue, htti, ho]
    exact ⟨hgrant, fun _ => by simp⟩
  · intro _ hdata
    rwa [hue]

/-- What happens to the UE `v` changes its timers no more than a message can. -/
theorem StepFor.message {ue' : RacUe} (h : Quiet P s) (hue : s'.ue = Function.update s.ue v ue')
    (hcalm : Calm P ue') (hwait : wait ue' = wait (s.ue v))
    (htimer : ue'.raRespTimer = (s.ue v).raRespTimer)
    (hdata : (∀ l, e = .setBuffers v l → Backlogged l) → Backlogged (s.ue v).macBuffers →
      Backlogged ue'.macBuffers)
    (hgrant : ue'.schedulingGrant = (s.ue v).schedulingGrant) (htti : ttis u [e] = 0)
    (ho : requests u o = 0) : StepFor P u s e s' o := by
  by_cases hu : u = v
  · subst hu
    have hself : s'.ue u = ue' := by rw [hue, Function.update_self]
    constructor
    · rwa [hself]
    · rw [hself, htti, ho, htimer]
      simp
    · intro hno _
      rw [hself, htti, ho, hwait]
      exact ⟨hgrant.trans hno, fun _ => by simp⟩
    · rw [hself]
      exact hdata
  · exact .refl (h.calm u) (by rw [hue, Function.update_of_ne hu]) htti ho

@[simp] theorem requests_map_racGrant (l : List MacNodeId) :
    requests u (l.map .racGrant) = 0 := by
  simp [requests, List.count_eq_zero]

/-- The main loop of a UE. -/
theorem StepFor.tti (h : Quiet P s) {pduMade : Bool}
    (hst : (machine P).step s (.tti v pduMade) = some (s', o)) :
    StepFor P u s (.tti v pduMade) s' o := by
  obtain ⟨hcalm, hbuffers, hno, hsent, hquiet⟩ := (h.calm v).handleSelfMessage pduMade
  -- the UE whose TTI it is, and what it sends
  have hue : s'.ue = Function.update s.ue v ((s.ue v).handleSelfMessage P pduMade).1 := by
    simp only [machine] at hst
    split at hst <;> (obtain ⟨rfl, -⟩ := Prod.mk.inj (Option.some.inj hst); rfl)
  have ho : o = if ((s.ue v).handleSelfMessage P pduMade).2 then [.request v] else [] := by
    simp only [machine] at hst
    split at hst
    · rename_i hreq
      rw [if_pos hreq]
      exact (Prod.mk.inj (Option.some.inj hst)).2.symm
    · rename_i hreq
      rw [if_neg hreq]
      exact (Prod.mk.inj (Option.some.inj hst)).2.symm
  by_cases hu : u = v
  · subst hu
    have hself : s'.ue u = ((s.ue u).handleSelfMessage P pduMade).1 := by
      rw [hue, Function.update_self]
    have htti : ttis u [.tti u pduMade] = 1 := by simp [ttis]
    -- a request starts the timer for the answer
    cases hreq : ((s.ue u).handleSelfMessage P pduMade).2 with
    | true =>
      obtain ⟨hzero, htimer⟩ := hsent hreq
      have hone : requests u o = 1 := by simp [requests, ho, hreq]
      constructor
      · rwa [hself]
      · rw [hself, htti, hone, hzero, htimer]
        omega
      · intro _ _
        rw [hself, htti, hone]
        refine ⟨hno, fun _ => ?_⟩
        have := hcalm.wait_le
        omega
      · intro _ hdata
        rwa [hself, hbuffers]
    | false =>
      obtain ⟨htimer, hwait⟩ := hquiet hreq
      have hzero : requests u o = 0 := by simp [requests, ho, hreq]
      constructor
      · rwa [hself]
      · rw [hself, htti, hzero]
        omega
      · intro hgrant _
        rw [hself, htti, hzero]
        refine ⟨hno, fun hdata => ?_⟩
        have := hwait hgrant hdata
        omega
      · intro _ hdata
        rwa [hself, hbuffers]
  · -- another UE notices nothing
    refine .refl (h.calm u) (by rw [hue, Function.update_of_ne hu]) (by simp [ttis, Ne.symm hu]) ?_
    rw [ho]
    split <;> simp [requests, Ne.symm hu]

/-- A grant arrives. -/
theorem StepFor.grant (h : Quiet P s) (hue : s'.ue = Function.update s.ue v (s.ue v).macHandleGrant)
    (htti : ttis u [e] = 0) : StepFor P u s e s' [.granted v] := by
  by_cases hu : u = v
  · subst hu
    have hself : s'.ue u = (s.ue u).macHandleGrant := by rw [hue, Function.update_self]
    constructor
    · rw [hself]
      exact (h.calm u).macHandleGrant
    · rw [hself, htti]
      simp [requests, RacUe.macHandleGrant]
    · intro _ hnot
      simp at hnot
    · intro _ hdata
      rwa [hself]
  · exact .refl (h.calm u) (by rw [hue, Function.update_of_ne hu]) htti (by simp [requests])

/-- **What one step does to a UE.** -/
theorem Quiet.stepFor (h : Quiet P s) (hst : (machine P).step s e = some (s', o))
    (u : MacNodeId) : StepFor P u s e s' o := by
  cases e with
  | setBuffers v macBuffers =>
    obtain ⟨rfl, rfl⟩ := Prod.mk.inj (Option.some.inj hst)
    obtain ⟨hbackoff, htries, htimer, hone⟩ := h.calm v
    exact .message h rfl ⟨hbackoff, htries, htimer, hone⟩ rfl rfl (fun hl _ => hl _ rfl) rfl rfl rfl
  | triggerBsr v multicast =>
    obtain ⟨rfl, rfl⟩ := Prod.mk.inj (Option.some.inj hst)
    obtain ⟨hcalm, hwait, htimer, hbuffers, hgrant⟩ := (h.calm v).triggerBsr multicast
    exact .message h rfl hcalm hwait htimer (fun _ hdata => by rwa [hbuffers]) hgrant rfl rfl
  | tti v pduMade => exact .tti h hst
  | fromPhyEnb i =>
    simp only [machine] at hst
    split at hst
    · cases hst
    · obtain ⟨rfl, rfl⟩ := Prod.mk.inj (Option.some.inj hst)
      exact .refl (h.calm u) rfl rfl (by simp [requests])
  | racschedule free =>
    obtain ⟨rfl, rfl⟩ := Prod.mk.inj (Option.some.inj hst)
    exact .refl (h.calm u) rfl rfl (by simp)
  | scheduleGrant v =>
    obtain ⟨rfl, rfl⟩ := Prod.mk.inj (Option.some.inj hst)
    exact .refl (h.calm u) rfl rfl rfl
  | removePendingRac v =>
    obtain ⟨rfl, rfl⟩ := Prod.mk.inj (Option.some.inj hst)
    exact .refl (h.calm u) rfl rfl rfl
  | fromPhyUe i uniform =>
    simp only [machine] at hst
    split at hst
    · cases hst
    · rename_i v success hi
      obtain ⟨rfl, rfl⟩ := Prod.mk.inj (Option.some.inj hst)
      obtain rfl := h.answers v success (List.mem_of_getElem? hi)
      obtain ⟨hcalm, hwait, htimer, hbuffers, hgrant⟩ := (h.calm v).macHandleRac uniform
      exact .message h rfl hcalm hwait htimer (fun _ hdata => by rwa [hbuffers]) hgrant rfl
        (by simp [requests])
    · obtain ⟨rfl, rfl⟩ := Prod.mk.inj (Option.some.inj hst)
      exact .grant h rfl rfl

/-- What a step puts on its way to the UEs, the answers to requests among it. -/
theorem Quiet.step (h : Quiet P s) (hst : (machine P).step s e = some (s', o)) : Quiet P s' := by
  refine ⟨fun u => (h.stepFor hst u).calm, fun u success hmem => ?_⟩
  cases e with
  | setBuffers v macBuffers =>
    obtain ⟨rfl, -⟩ := Prod.mk.inj (Option.some.inj hst)
    exact h.answers u success hmem
  | triggerBsr v multicast =>
    obtain ⟨rfl, -⟩ := Prod.mk.inj (Option.some.inj hst)
    exact h.answers u success hmem
  | tti v pduMade =>
    simp only [machine] at hst
    split at hst <;>
    · obtain ⟨rfl, -⟩ := Prod.mk.inj (Option.some.inj hst)
      exact h.answers u success hmem
  | fromPhyEnb i =>
    simp only [machine] at hst
    split at hst
    · cases hst
    · obtain ⟨rfl, -⟩ := Prod.mk.inj (Option.some.inj hst)
      rcases List.mem_append.1 hmem with hmem | hmem
      · exact h.answers u success hmem
      · -- an answer of the eNB is always positive
        simp_all
  | racschedule free =>
    obtain ⟨rfl, -⟩ := Prod.mk.inj (Option.some.inj hst)
    rcases List.mem_append.1 hmem with hmem | hmem
    · exact h.answers u success hmem
    · simp at hmem
  | scheduleGrant v =>
    obtain ⟨rfl, -⟩ := Prod.mk.inj (Option.some.inj hst)
    rcases List.mem_append.1 hmem with hmem | hmem
    · exact h.answers u success hmem
    · simp at hmem
  | removePendingRac v =>
    obtain ⟨rfl, -⟩ := Prod.mk.inj (Option.some.inj hst)
    exact h.answers u success hmem
  | fromPhyUe i uniform =>
    simp only [machine] at hst
    split at hst
    · cases hst
    · obtain ⟨rfl, -⟩ := Prod.mk.inj (Option.some.inj hst)
      exact h.answers u success (List.mem_of_mem_eraseIdx hmem)
    · obtain ⟨rfl, -⟩ := Prod.mk.inj (Option.some.inj hst)
      exact h.answers u success (List.mem_of_mem_eraseIdx hmem)

/-! ### Runs -/

theorem ttis_append (es es' : List Event) : ttis u (es ++ es') = ttis u es + ttis u es' :=
  List.countP_append

theorem requests_append (os o : List RacOutput) :
    requests u (os ++ o) = requests u os + requests u o := List.count_append

theorem quiet_init (P : RacParams) : Quiet P {} where
  calm _ := ⟨rfl, rfl, Nat.zero_le _, by simp⟩
  answers := by simp

theorem Quiet.exec (h : Quiet P s) (hex : (machine P).exec s es = some (s', os)) : Quiet P s' :=
  Machine.exec_invariant h (fun _ _ _ _ hq hst => hq.step hst) hex

/-- **A UE asks no more often than once in `raRespWinStart + 1` of its TTIs**, in any stretch of a
run. -/
theorem requests_apart {es₀ : List Event} {os₀ : List RacOutput}
    (h₀ : (machine P).exec {} es₀ = some (s, os₀)) (h : (machine P).exec s es = some (s', os))
    (u : MacNodeId) :
    (P.raRespWinStart + 1) * requests u os ≤ ttis u es + P.raRespWinStart := by
  have hquiet := (quiet_init P).exec h₀
  have hrun : Quiet P s' ∧ (P.raRespWinStart + 1) * requests u os + (s.ue u).raRespTimer ≤
      ttis u es + (s'.ue u).raRespTimer := by
    refine Machine.exec_induction (J := fun es s' os => Quiet P s' ∧
      (P.raRespWinStart + 1) * requests u os + (s.ue u).raRespTimer ≤
        ttis u es + (s'.ue u).raRespTimer) ⟨hquiet, by simp [requests]⟩ ?_ h
    rintro es s₁ os e s₂ o - ⟨hq, hle⟩ hst
    refine ⟨hq.step hst, ?_⟩
    have hapart := (hq.stepFor hst u).apart
    rw [ttis_append, requests_append, Nat.mul_add]
    omega
  have htimer := (hrun.1.calm u).timer
  omega

theorem requests_apart_alone :
    ∃ s s' os₀ os, (machine {}).exec {} [.setBuffers 1025 [⟨false, 2⟩]] = some (s, os₀) ∧
      (machine {}).exec s (List.replicate 6 (.tti 1025 false)) = some (s', os) ∧
      requests 1025 os = 2 ∧ 4 * requests 1025 os ≤ 6 + 3 := by
  have hsome : (((machine {}).exec {} [.setBuffers 1025 [⟨false, 2⟩]]).bind fun r =>
    (machine {}).exec r.1 (List.replicate 6 (.tti 1025 false))).isSome := by decide +kernel
  obtain ⟨⟨s', os⟩, hrun⟩ := Option.isSome_iff_exists.1 hsome
  obtain ⟨⟨s, os₀⟩, h₀, h⟩ := Option.bind_eq_some_iff.1 hrun
  have htwo : requests 1025 os = 2 := by
    obtain ⟨-, hos⟩ := Prod.mk.inj (Option.some.inj hrun)
    rw [← hos]
    decide +kernel
  exact ⟨s, s', os₀, os, h₀, h, htwo, requests_apart h₀ h 1025⟩

/-- A UE with data that gets no grant asks for one in time. -/
theorem asks_in_time (h₀ : Quiet P s) (h : (machine P).exec s es = some (s', os))
    (hdata : Backlogged (s.ue u).macBuffers)
    (hkeep : ∀ l, .setBuffers u l ∈ es → Backlogged l)
    (hgrant : (s.ue u).schedulingGrant = false) (hno : .granted u ∉ os) :
    ttis u es ≤ (P.raRespWinStart + 2) * requests u os + P.raRespWinStart + 1 := by
  have hrun : Quiet P s' ∧ ((∀ l, .setBuffers u l ∈ es → Backlogged l) → .granted u ∉ os →
      Backlogged (s'.ue u).macBuffers ∧ (s'.ue u).schedulingGrant = false ∧
      ttis u es + wait (s'.ue u) ≤
        (P.raRespWinStart + 2) * requests u os + wait (s.ue u)) := by
    refine Machine.exec_induction (J := fun es s' os => Quiet P s' ∧
      ((∀ l, .setBuffers u l ∈ es → Backlogged l) → .granted u ∉ os →
        Backlogged (s'.ue u).macBuffers ∧ (s'.ue u).schedulingGrant = false ∧
        ttis u es + wait (s'.ue u) ≤
          (P.raRespWinStart + 2) * requests u os + wait (s.ue u)))
      ⟨h₀, fun _ _ => ⟨hdata, hgrant, by simp [ttis]⟩⟩ ?_ h
    rintro es s₁ os e s₂ o - ⟨hq, ih⟩ hst
    refine ⟨hq.step hst, fun hkeep hno => ?_⟩
    obtain ⟨hdata, hgrant, hle⟩ := ih (fun l hl => hkeep l (List.mem_append_left _ hl))
      fun hmem => hno (List.mem_append_left _ hmem)
    have hone := hq.stepFor hst u
    obtain ⟨hgrant', hnearer⟩ := hone.nearer hgrant fun hmem => hno (List.mem_append_right _ hmem)
    have hdata' := hone.data (fun l hl => hkeep l (by simp [hl])) hdata
    refine ⟨hdata', hgrant', ?_⟩
    have := hnearer hdata
    rw [ttis_append, requests_append, Nat.mul_add]
    omega
  have hwait := (h₀.calm u).wait_le
  have hle := (hrun.2 hkeep hno).2.2
  omega

/-- A request that the eNB has not scheduled yet is in the air or with the eNB. -/
theorem asked_step (hst : (machine P).step s e = some (s', o))
    (hoffer : ∀ free, e = .racschedule free → free u = true) (hleave : e ≠ .removePendingRac u)
    (hask : u ∈ s.toEnb ∨ u ∈ s.racStatus ∨ 0 < requests u o) :
    u ∈ s'.toEnb ∨ u ∈ s'.racStatus ∨ .racGrant u ∈ o := by
  cases e with
  | setBuffers v macBuffers =>
    obtain ⟨rfl, rfl⟩ := Prod.mk.inj (Option.some.inj hst)
    simpa [requests] using hask
  | triggerBsr v multicast =>
    obtain ⟨rfl, rfl⟩ := Prod.mk.inj (Option.some.inj hst)
    simpa [requests] using hask
  | tti v pduMade =>
    simp only [machine] at hst
    split at hst
    · obtain ⟨rfl, rfl⟩ := Prod.mk.inj (Option.some.inj hst)
      -- a request that is new goes on the air
      rcases hask with hair | hpend | hnew
      · exact .inl (List.mem_append_left _ hair)
      · exact .inr (.inl hpend)
      · exact .inl (List.mem_append_right _ (by simpa [requests, List.count_pos_iff] using hnew))
    · obtain ⟨rfl, rfl⟩ := Prod.mk.inj (Option.some.inj hst)
      simpa [requests] using hask
  | fromPhyEnb i =>
    simp only [machine] at hst
    split at hst
    · cases hst
    · rename_i v hi
      obtain ⟨rfl, rfl⟩ := Prod.mk.inj (Option.some.inj hst)
      rcases hask with hair | hpend | hnew
      · -- a request that arrives is kept until it is served
        by_cases hv : u = v
        · exact .inr (.inl (by simp [hv]))
        · refine .inl ?_
          have hperm := Multiset.coe_eq_coe.1 ((coe_of_getElem? hi).trans (Multiset.cons_coe v _))
          exact (List.mem_cons.1 (hperm.mem_iff.1 hair)).resolve_left hv
      · exact .inr (.inl (List.mem_insert_of_mem hpend))
      · simp [requests] at hnew
  -- a request that is served is answered with a grant
  | racschedule free =>
    obtain ⟨rfl, rfl⟩ := Prod.mk.inj (Option.some.inj hst)
    rcases hask with hair | hpend | hnew
    · exact .inl hair
    · exact .inr (.inr (List.mem_map_of_mem (List.mem_filter.2 ⟨hpend, hoffer free rfl⟩)))
    · simp at hnew
  | scheduleGrant v =>
    obtain ⟨rfl, rfl⟩ := Prod.mk.inj (Option.some.inj hst)
    simpa [requests] using hask
  | removePendingRac v =>
    obtain ⟨rfl, rfl⟩ := Prod.mk.inj (Option.some.inj hst)
    rcases hask with hair | hpend | hnew
    · exact .inl hair
    · have hv : u ≠ v := fun hv => hleave (by rw [hv])
      exact .inr (.inl ((List.mem_erase_of_ne hv).2 hpend))
    · simp [requests] at hnew
  | fromPhyUe i uniform =>
    simp only [machine] at hst
    split at hst
    · cases hst
    · obtain ⟨rfl, rfl⟩ := Prod.mk.inj (Option.some.inj hst)
      simpa [requests] using hask
    · obtain ⟨rfl, rfl⟩ := Prod.mk.inj (Option.some.inj hst)
      simpa [requests] using hask

/-- **A UE with data is granted a block.**  When it has had `raRespWinStart + 2` TTIs, and the eNB
has dealt with its requests and had a block for it whenever it scheduled, then it had a grant to
begin with, or one has come to it, or one was given for its request. -/
theorem backlogged_is_granted {es₀ : List Event} {os₀ : List RacOutput}
    (h₀ : (machine P).exec {} es₀ = some (s, os₀)) (h : (machine P).exec s es = some (s', os))
    (hdata : Backlogged (s.ue u).macBuffers)
    (hkeep : ∀ l, .setBuffers u l ∈ es → Backlogged l)
    (htti : P.raRespWinStart + 2 ≤ ttis u es)
    (hoffer : ∀ free, .racschedule free ∈ es → free u = true)
    (hleave : .removePendingRac u ∉ es) (hair : u ∉ s'.toEnb) (hpend : u ∉ s'.racStatus) :
    (s.ue u).schedulingGrant = true ∨ .granted u ∈ os ∨ .racGrant u ∈ os := by
  by_cases hgrant : (s.ue u).schedulingGrant = false ∧ .granted u ∉ os
  · -- a UE with data and without a grant asks within `raRespWinStart + 2` TTIs
    have hasked : 0 < requests u os := by
      have := asks_in_time ((quiet_init P).exec h₀) h hdata hkeep hgrant.1 hgrant.2
      by_contra hzero
      rw [Nat.eq_zero_of_not_pos hzero] at this
      omega
    have hrun : (∀ free, .racschedule free ∈ es → free u = true) → .removePendingRac u ∉ es →
        0 < requests u os → u ∈ s'.toEnb ∨ u ∈ s'.racStatus ∨ .racGrant u ∈ os := by
      refine Machine.exec_induction (J := fun es s' os =>
        (∀ free, .racschedule free ∈ es → free u = true) → .removePendingRac u ∉ es →
        0 < requests u os → u ∈ s'.toEnb ∨ u ∈ s'.racStatus ∨ .racGrant u ∈ os)
        (fun _ _ hpos => by simp [requests] at hpos) ?_ h
      intro es s₁ os e s₂ o _ ih hst hoffer hleave hpos
      by_cases hgranted : .racGrant u ∈ os
      · exact .inr (.inr (List.mem_append_left _ hgranted))
      have hask : u ∈ s₁.toEnb ∨ u ∈ s₁.racStatus ∨ 0 < requests u o := by
        rw [requests_append] at hpos
        by_cases hnew : 0 < requests u o
        · exact .inr (.inr hnew)
        · rcases ih (fun free hf => hoffer free (List.mem_append_left _ hf))
            (fun hmem => hleave (List.mem_append_left _ hmem)) (by omega) with hin | hin | hin
          · exact .inl hin
          · exact .inr (.inl hin)
          · exact absurd hin hgranted
      rcases asked_step hst (fun free he => hoffer free (by simp [he]))
        (fun he => hleave (by simp [he])) hask with hin | hin | hin
      · exact .inl hin
      · exact .inr (.inl hin)
      · exact .inr (.inr (List.mem_append_right _ hin))
    rcases hrun hoffer hleave hasked with hin | hin | hin
    · exact absurd hin hair
    · exact absurd hin hpend
    · exact .inr (.inr hin)
  · cases hg : (s.ue u).schedulingGrant with
    | true => exact .inl rfl
    | false => exact .inr (.inl (not_not.1 fun hno => hgrant ⟨hg, hno⟩))

theorem backlogged_is_granted_alone :
    ∃ s s' os₀ os, (machine {}).exec {} [.setBuffers 1025 [⟨false, 0⟩, ⟨true, 2⟩]] =
        some (s, os₀) ∧
      (machine {}).exec s (List.replicate 5 (.tti 1025 false) ++
        [.fromPhyEnb 0, .racschedule fun _ => true]) = some (s', os) ∧
      ((s.ue 1025).schedulingGrant = true ∨ .granted 1025 ∈ os ∨ .racGrant 1025 ∈ os) := by
  have hsome : (((machine {}).exec {} [.setBuffers 1025 [⟨false, 0⟩, ⟨true, 2⟩]]).bind fun r =>
    (machine {}).exec r.1 (List.replicate 5 (.tti 1025 false) ++
      [.fromPhyEnb 0, .racschedule fun _ => true])).isSome := by decide +kernel
  obtain ⟨⟨s', os⟩, hrun⟩ := Option.isSome_iff_exists.1 hsome
  obtain ⟨⟨s, os₀⟩, h₀, h⟩ := Option.bind_eq_some_iff.1 hrun
  obtain ⟨hs, -⟩ := Prod.mk.inj (Option.some.inj h₀)
  obtain ⟨hs', -⟩ := Prod.mk.inj (Option.some.inj hrun)
  refine ⟨s, s', os₀, os, h₀, h, backlogged_is_granted h₀ h ?_ ?_ (by decide) ?_ ?_ ?_ ?_⟩
  · rw [← hs]
    decide
  · simp
  · simp
  · simp
  · rw [← hs']
    decide +kernel
  · rw [← hs']
    decide +kernel

theorem count_insert_le (u v : MacNodeId) (l : List MacNodeId) :
    (l.insert v).count u ≤ (if v = u then 1 else 0) + l.count u := by
  by_cases hmem : v ∈ l
  · rw [List.insert_of_mem hmem]
    omega
  · rw [List.insert_of_not_mem hmem, List.count_cons, Nat.add_comm]
    simp

/-- A request that arrives is noted and answered. -/
theorem accounts_fromPhyEnb {i : ℕ} (hst : (machine P).step s (.fromPhyEnb i) = some (s', o))
    (u : MacNodeId) :
    s.toEnb.count u + requests u o = s'.toEnb.count u + answers u o ∧
      s.toUe.count (u, .rac true) + answers u o =
        s'.toUe.count (u, .rac true) + answered u o ∧
      racGrants u o + s'.racStatus.count u ≤ s.racStatus.count u + answers u o := by
  simp only [machine] at hst
  split at hst
  · cases hst
  · rename_i v hi
    obtain ⟨rfl, rfl⟩ := Prod.mk.inj (Option.some.inj hst)
    have hcount := count_of_getElem? u hi
    have hinsert := count_insert_le u v s.racStatus
    by_cases hu : v = u
    · rw [if_pos hu] at hinsert
      subst hu
      simpa [requests, answers, answered, racGrants, hcount, add_comm] using hinsert
    · rw [if_neg hu] at hinsert
      simpa [requests, answers, answered, racGrants, hcount, hu] using hinsert

/-- Of the requests that have been noted, some get a block. -/
theorem accounts_racschedule {free : MacNodeId → Bool}
    (hst : (machine P).step s (.racschedule free) = some (s', o)) (u : MacNodeId) :
    s.toEnb.count u + requests u o = s'.toEnb.count u + answers u o ∧
      s.toUe.count (u, .rac true) + answers u o =
        s'.toUe.count (u, .rac true) + answered u o ∧
      racGrants u o + s'.racStatus.count u ≤ s.racStatus.count u + answers u o := by
  obtain ⟨rfl, rfl⟩ := Prod.mk.inj (Option.some.inj hst)
  have hanswers : answers u ((s.racStatus.filter free).map .racGrant) = 0 := by
    simp [answers, List.count_eq_zero]
  have hanswered : answered u ((s.racStatus.filter free).map .racGrant) = 0 := by
    simp [answered, List.count_eq_zero]
  have hgrants : racGrants u ((s.racStatus.filter free).map .racGrant) =
      (s.racStatus.filter free).count u :=
    List.count_map_of_injective _ _ (fun _ _ => RacOutput.racGrant.inj) u
  have hair : ((s.racStatus.filter free).map fun v => (v, RacDownlink.grant)).count
      (u, .rac true) = 0 := by
    simp [List.count_eq_zero]
  have hle := (List.filter_sublist (p := free) (l := s.racStatus)).count_le u
  simp only [requests_map_racGrant, hanswers, hanswered, hgrants, List.count_append, hair]
  simpa using hle

/-- What a step adds to the requests, answers and grants of a UE, and what is on its way. -/
theorem accounts_step (h : Quiet P s) (hst : (machine P).step s e = some (s', o))
    (u : MacNodeId) :
    s.toEnb.count u + requests u o = s'.toEnb.count u + answers u o ∧
      s.toUe.count (u, .rac true) + answers u o =
        s'.toUe.count (u, .rac true) + answered u o ∧
      racGrants u o + s'.racStatus.count u ≤ s.racStatus.count u + answers u o := by
  cases e with
  | setBuffers v macBuffers =>
    obtain ⟨rfl, rfl⟩ := Prod.mk.inj (Option.some.inj hst)
    simp [requests, answers, answered, racGrants]
  | triggerBsr v multicast =>
    obtain ⟨rfl, rfl⟩ := Prod.mk.inj (Option.some.inj hst)
    simp [requests, answers, answered, racGrants]
  | tti v pduMade =>
    simp only [machine] at hst
    split at hst
    · obtain ⟨rfl, rfl⟩ := Prod.mk.inj (Option.some.inj hst)
      by_cases hu : v = u
      · simp [requests, answers, answered, racGrants, hu]
      · simp [requests, answers, answered, racGrants, hu]
    · obtain ⟨rfl, rfl⟩ := Prod.mk.inj (Option.some.inj hst)
      simp [requests, answers, answered, racGrants]
  -- the eNB answers each request that arrives, and serves each once
  | fromPhyEnb i => exact accounts_fromPhyEnb hst u
  | racschedule free => exact accounts_racschedule hst u
  | scheduleGrant v =>
    obtain ⟨rfl, rfl⟩ := Prod.mk.inj (Option.some.inj hst)
    simp [requests, answers, answered, racGrants]
  | removePendingRac v =>
    obtain ⟨rfl, rfl⟩ := Prod.mk.inj (Option.some.inj hst)
    have hle := (List.erase_sublist (a := v) (l := s.racStatus)).count_le u
    simpa [requests, answers, answered, racGrants] using hle
  -- the UE takes an answer off the air
  | fromPhyUe i uniform =>
    simp only [machine] at hst
    split at hst
    · cases hst
    · rename_i v success hi
      obtain ⟨rfl, rfl⟩ := Prod.mk.inj (Option.some.inj hst)
      obtain rfl := h.answers v success (List.mem_of_getElem? hi)
      have hcount := count_of_getElem? (u, RacDownlink.rac true) hi
      by_cases hu : v = u
      · simp [requests, answers, answered, racGrants, hcount, hu, add_comm]
      · simp [requests, answers, answered, racGrants, hcount, hu]
    · rename_i v hi
      obtain ⟨rfl, rfl⟩ := Prod.mk.inj (Option.some.inj hst)
      have hcount := count_of_getElem? (u, RacDownlink.rac true) hi
      simp [requests, answers, answered, racGrants, hcount]

/-- **Every request is answered once**, the eNB gives a UE no more blocks than it was asked for,
and no UE ever backs off. -/
theorem access_accounted (h : (machine P).exec {} es = some (s, os)) (u : MacNodeId) :
    requests u os = s.toEnb.count u + answers u os ∧
      answers u os = s.toUe.count (u, .rac true) + answered u os ∧
      racGrants u os + s.racStatus.count u ≤ answers u os ∧
      (s.ue u).racBackoffTimer = 0 ∧ (s.ue u).currentRacTry = 0 := by
  have hrun : Quiet P s ∧ requests u os = s.toEnb.count u + answers u os ∧
      answers u os = s.toUe.count (u, .rac true) + answered u os ∧
      racGrants u os + s.racStatus.count u ≤ answers u os := by
    refine Machine.exec_induction (J := fun _ s os => Quiet P s ∧
      requests u os = s.toEnb.count u + answers u os ∧
      answers u os = s.toUe.count (u, .rac true) + answered u os ∧
      racGrants u os + s.racStatus.count u ≤ answers u os)
      ⟨quiet_init P, by simp [requests, answers, answered, racGrants]⟩ ?_ h
    rintro es s₁ os e s₂ o - ⟨hq, hasked, hanswered, hgranted⟩ hst
    obtain ⟨h₁, h₂, h₃⟩ := accounts_step hq hst u
    refine ⟨hq.step hst, ?_⟩
    simp only [requests, answers, answered, racGrants, List.count_append] at *
    omega
  obtain ⟨hq, hasked, hanswered, hgranted⟩ := hrun
  exact ⟨hasked, hanswered, hgranted, (hq.calm u).backoff, (hq.calm u).tries⟩

theorem access_accounted_alone :
    ∃ s os, (machine {}).exec {} [.setBuffers 1025 [⟨false, 2⟩], .tti 1025 false, .fromPhyEnb 0,
        .fromPhyUe 0 fun a _ => a] = some (s, os) ∧
      requests 1025 os = 1 ∧ answered 1025 os = 1 ∧ (s.ue 1025).racBackoffTimer = 0 := by
  have hsome : ((machine {}).exec {} [.setBuffers 1025 [⟨false, 2⟩], .tti 1025 false,
    .fromPhyEnb 0, .fromPhyUe 0 fun a _ => a]).isSome := by decide +kernel
  obtain ⟨⟨s, os⟩, hrun⟩ := Option.isSome_iff_exists.1 hsome
  obtain ⟨hs, hos⟩ := Prod.mk.inj (Option.some.inj hrun)
  obtain ⟨hasked, hanswers, -, hbackoff, -⟩ := access_accounted hrun 1025
  have hair : s.toEnb.count 1025 = 0 ∧ s.toUe.count (1025, .rac true) = 0 := by
    rw [← hs]
    decide +kernel
  have hone : requests 1025 os = 1 := by
    rw [← hos]
    decide +kernel
  exact ⟨s, os, hrun, hone, by omega, hbackoff⟩

end Rac

end V2nLte
