import Mathlib.Algebra.Order.Ring.Int
import V2nLte.Machine.Basic
import V2nLte.Machine.Multimap
import V2nLte.Machine.OrderedMap
import V2nLte.Rlc.AmTx

/-!
# Many timers on one message

`TMultiTimer` runs the retransmission timers of RLC AM on a single message.  The pending events are
in two lists: `directList_` has them in the order of their times, `reverseList_` has the iterator of
every event.  The message is scheduled for the first element of `directList_`; when another element
becomes the first one, the message is cancelled and a new one is scheduled.

* `TimerModule.machine` : the timer in its module, with the messages that are scheduled for it.
* `TimerModule.Inv.step` : the two lists and the message agree after every event.
* `TimerModule.fires_once_on_time` : every event is removed or handled once, at its time and in the
  order of the times.
* `TimerModule.foldlM_listStep` : if all events are added with the same delay, as in the entities of
  RLC AM, the timer is the list of pending events that `V2nLte.Rlc.AmTx` has for it.
-/

namespace V2nLte

/-- `simtime_t`, in ticks. -/
abbrev SimTime := ℤ

/-- `TMultiTimerMsg`, as it is scheduled. -/
structure TMultiTimerMsg where
  /-- The number of the message. -/
  id : ℕ
  /-- When it arrives. -/
  arrival : SimTime
  /-- The event that it is for. -/
  event : ℕ
  deriving DecidableEq

/-- `TMultiTimer`. -/
structure TMultiTimer where
  /-- A message is scheduled. -/
  busy : Bool := false
  /-- The events by their times. -/
  directList : Multimap SimTime ℕ := {}
  /-- The iterators into `directList`. -/
  reverseList : OrderedMap ℕ ℕ := []
  /-- The message that was scheduled last; it may be gone. -/
  intr : ℕ := 0
  deriving DecidableEq

/-- The exceptions of the timer. -/
inductive TimerError where
  | elementExists (event : ℕ)
  | listEmpty
  | elementNotFound (event : ℕ)
  /-- A message is scheduled for a time that has passed. -/
  | past
  /-- A message is cancelled that is not scheduled any more. -/
  | messageGone
  deriving DecidableEq

/-- The timer in its module, with the time and the messages that are scheduled. -/
structure TimerModule where
  /-- The time. -/
  now : SimTime
  /-- The timer. -/
  timer : TMultiTimer := {}
  /-- The messages that are scheduled. -/
  scheduled : List TMultiTimerMsg := []
  /-- The number of the next message. -/
  nextMsg : ℕ := 0
  deriving DecidableEq

namespace TimerModule

variable (s : TimerModule)

/-- Make a new message for `event` and schedule it. -/
def scheduleAt (time : SimTime) (event : ℕ) : Except TimerError TimerModule :=
  if time < s.now then .error .past
  else .ok { s with
    timer := { s.timer with intr := s.nextMsg }
    scheduled := s.scheduled ++ [⟨s.nextMsg, time, event⟩]
    nextMsg := s.nextMsg + 1 }

/-- Cancel the message `intr_`. -/
def cancelAndDelete : Except TimerError TimerModule :=
  if s.scheduled.any fun m => m.id = s.timer.intr then
    .ok { s with scheduled := s.scheduled.filter fun m => m.id ≠ s.timer.intr }
  else .error .messageGone

/-- The time that remains until the first element, or `1` if there is none. -/
def remaining : Except TimerError SimTime :=
  if s.timer.busy then
    match s.timer.directList.nodes with
    | [] => .error .listEmpty
    | n :: _ => .ok (n.key - s.now)
  else .ok 1

/-- Put an event into the two lists. -/
def insert (time : SimTime) (event : ℕ) : TimerModule :=
  { s with
    timer := { s.timer with
      directList := s.timer.directList.insert (s.now + time) event
      reverseList := s.timer.reverseList.put event s.timer.directList.fresh } }

/-- `add`. -/
def add (time : SimTime) (event : ℕ) : Except TimerError TimerModule := do
  let remaining ← s.remaining
  if (s.timer.reverseList.find event).isSome then .error (.elementExists event)
  else
    let s' := s.insert time event
    let s' ←
      if !s.timer.busy || time < remaining then do
        let s' ← if s.timer.busy then s'.cancelAndDelete else .ok s'
        s'.scheduleAt (time + s.now) event
      else .ok s'
    return { s' with timer := { s'.timer with busy := true } }

/-- `busy(event)`. -/
def busyEvent (event : ℕ) : Bool := (s.timer.reverseList.find event).isSome

/-- What `handle` and `remove` do when the first element is gone: schedule the next one, or leave
the timer idle. -/
def scheduleNext : Except TimerError TimerModule :=
  match s.timer.directList.nodes with
  | [] => .ok { s with timer := { s.timer with busy := false } }
  | n :: _ => s.scheduleAt n.key n.value

/-- `handle`; it does not use the event it is called with. -/
def handle (_event : ℕ) : Except TimerError TimerModule :=
  match s.timer.directList.nodes with
  | [] => .error .listEmpty
  | direct :: _ =>
    let timer := { s.timer with
      directList := s.timer.directList.erase direct.addr
      reverseList := s.timer.reverseList.erase direct.value }
    scheduleNext { s with timer }

/-- `remove`. -/
def remove (event : ℕ) : Except TimerError TimerModule :=
  match s.timer.reverseList.find event with
  | none => .error (.elementNotFound event)
  | some dIt => do
    let s' := { s with
      timer := { s.timer with directList := s.timer.directList.erase dIt } }
    let s' ←
      if (s.timer.directList.nodes.head?).map MapNode.addr = some dIt then do
        let s' ← s'.cancelAndDelete
        s'.scheduleNext
      else .ok s'
    return { s' with
      timer := { s'.timer with reverseList := s'.timer.reverseList.erase event } }

/-- What can happen in the module. -/
inductive Event where
  | add (time : SimTime) (event : ℕ)
  | remove (event : ℕ)
  /-- The message arrives, and the handler calls `handle` with its event. -/
  | message
  /-- Time passes, but not beyond the arrival of a message. -/
  | wait (now : SimTime)

/-- What happens to the elements of `directList_`. -/
inductive Note where
  | added (addr event : ℕ) (due : SimTime)
  | removed (addr : ℕ)
  /-- The element that `handle` takes, and the event of the message. -/
  | handled (addr event : ℕ) (time : SimTime)
  deriving DecidableEq

/-- The module as a machine.  An event is added if it is not pending, with a delay that is not
negative, and removed if it is pending. -/
def machine : Machine TimerModule Event Note where
  step s
    | .add time event =>
      if 0 ≤ time ∧ s.busyEvent event = false then
        (s.add time event).toOption.map
          (·, [.added s.timer.directList.fresh event (s.now + time)])
      else none
    | .remove event =>
      match s.timer.reverseList.find event with
      | none => none
      | some dIt => (s.remove event).toOption.map (·, [.removed dIt])
    | .message =>
      match s.scheduled.find? fun m => m.arrival = s.now, s.timer.directList.nodes with
      | some m, direct :: _ =>
        ({ s with scheduled := s.scheduled.erase m }.handle m.event).toOption.map
          (·, [.handled direct.addr m.event s.now])
      | _, _ => none
    | .wait now =>
      if s.now ≤ now ∧ ∀ m ∈ s.scheduled, now ≤ m.arrival then some ({ s with now }, []) else none

/-! ### The invariant -/

/-- The message for an element of `directList_`. -/
def messageFor (n : MapNode SimTime ℕ) : TMultiTimerMsg := ⟨s.timer.intr, n.key, n.value⟩

/-- **The two lists and the message agree.** -/
structure Inv : Prop where
  wf : s.timer.directList.Wf
  /-- The lists hold the same events, and the iterators are right. -/
  lists : ∀ event a, s.timer.reverseList.find event = some a ↔
    ∃ n ∈ s.timer.directList.nodes, n.addr = a ∧ n.value = event
  busy : s.timer.busy = true ↔ s.timer.directList.nodes ≠ []
  /-- One message is scheduled, for the first element. -/
  message : s.scheduled = s.timer.directList.nodes.head?.toList.map s.messageFor
  future : ∀ n ∈ s.timer.directList.nodes, s.now ≤ n.key

variable {s} {s' : TimerModule} {n m : MapNode SimTime ℕ} {l : List (MapNode SimTime ℕ)}
  {time : SimTime} {event a : ℕ}

theorem scheduleAt_eq (h : s.now ≤ time) (event : ℕ) :
    s.scheduleAt time event = .ok { s with
      timer := { s.timer with intr := s.nextMsg }
      scheduled := s.scheduled ++ [⟨s.nextMsg, time, event⟩]
      nextMsg := s.nextMsg + 1 } := if_neg (not_lt.2 h)

theorem cancelAndDelete_eq (h : s.scheduled = [s.messageFor n]) :
    s.cancelAndDelete = .ok { s with scheduled := [] } := by
  rw [cancelAndDelete, h, if_pos (by simp [messageFor]),
    List.filter_cons_of_neg (by simp [messageFor]), List.filter_nil]

namespace Inv

theorem busy_eq_false (h : s.Inv) (hd : s.timer.directList.nodes = []) : s.timer.busy = false :=
  Bool.eq_false_iff.2 fun hb => h.busy.1 hb hd

theorem busy_eq_true (h : s.Inv) (hd : s.timer.directList.nodes = n :: l) : s.timer.busy = true :=
  h.busy.2 (by rw [hd]; exact List.cons_ne_nil n l)

theorem scheduled_cons (h : s.Inv) (hd : s.timer.directList.nodes = n :: l) :
    s.scheduled = [s.messageFor n] := by
  rw [h.message, hd]
  rfl

theorem scheduled_nil (h : s.Inv) (hd : s.timer.directList.nodes = []) : s.scheduled = [] := by
  rw [h.message, hd]
  rfl

/-- An event is pending once. -/
theorem eq_of_value (h : s.Inv) (hn : n ∈ s.timer.directList.nodes)
    (hm : m ∈ s.timer.directList.nodes) (heq : n.value = m.value) : n = m := by
  have h₁ := (h.lists n.value n.addr).2 ⟨n, hn, rfl, rfl⟩
  have h₂ := (h.lists n.value m.addr).2 ⟨m, hm, rfl, heq.symm⟩
  exact h.wf.eq_of_addr hn hm (Option.some.inj (h₁.symm.trans h₂))

/-- The lists agree after an event has been put into both. -/
theorem lists_insert (h : s.Inv) (hnew : s.timer.reverseList.find event = none) (k : SimTime)
    (e b : ℕ) :
    (s.timer.reverseList.put event s.timer.directList.fresh).find e = some b ↔
      ∃ n ∈ (s.timer.directList.insert k event).nodes, n.addr = b ∧ n.value = e := by
  rw [OrderedMap.find_put]
  constructor
  · intro hfind
    split at hfind
    · rename_i he
      obtain rfl := Option.some.inj hfind
      exact ⟨_, Multimap.mem_insert.2 (.inl rfl), rfl, he.symm⟩
    · obtain ⟨n, hn, hb⟩ := (h.lists e b).1 hfind
      exact ⟨n, Multimap.mem_insert.2 (.inr hn), hb⟩
  · rintro ⟨n, hn, rfl, rfl⟩
    rcases Multimap.mem_insert.1 hn with rfl | hn
    · exact if_pos rfl
    · have hfind := (h.lists n.value n.addr).2 ⟨n, hn, rfl, rfl⟩
      rw [if_neg ?_, hfind]
      rintro rfl
      rw [hnew] at hfind
      cases hfind

/-- The lists agree after an element has been erased from both. -/
theorem lists_erase (h : s.Inv) (hn : n ∈ s.timer.directList.nodes) (e b : ℕ) :
    (s.timer.reverseList.erase n.value).find e = some b ↔
      ∃ m ∈ (s.timer.directList.erase n.addr).nodes, m.addr = b ∧ m.value = e := by
  rw [OrderedMap.find_erase]
  constructor
  · intro hfind
    split at hfind
    · cases hfind
    · rename_i he
      obtain ⟨m, hm, hb, hv⟩ := (h.lists e b).1 hfind
      refine ⟨m, Multimap.mem_erase.2 ⟨hm, fun heq => ?_⟩, hb, hv⟩
      rw [h.wf.eq_of_addr hm hn heq] at hv
      exact he hv.symm
  · rintro ⟨m, hm, rfl, rfl⟩
    obtain ⟨hm, hne⟩ := Multimap.mem_erase.1 hm
    rw [if_neg fun heq => hne (congrArg MapNode.addr (h.eq_of_value hm hn heq))]
    exact (h.lists m.value m.addr).2 ⟨m, hm, rfl, rfl⟩

/-- `add` puts an event that is not pending into the lists. -/
theorem add (h : s.Inv) (htime : 0 ≤ time) (hnew : s.timer.reverseList.find event = none) :
    ∃ s', s.add time event = .ok s' ∧ s'.Inv ∧ s'.now = s.now ∧
      s'.timer.directList = s.timer.directList.insert (s.now + time) event := by
  have hle : s.now ≤ time + s.now := le_add_of_nonneg_left htime
  have hlists := h.lists_insert hnew (s.now + time)
  have hwf := h.wf.insert (s.now + time) event
  have hne : (s.timer.directList.insert (s.now + time) event).nodes ≠ [] :=
    List.ne_nil_of_mem (Multimap.mem_insert.2 (.inl rfl))
  have hfuture : ∀ n ∈ (s.timer.directList.insert (s.now + time) event).nodes, s.now ≤ n.key := by
    intro n hn
    rcases Multimap.mem_insert.1 hn with rfl | hn
    · exact le_add_of_nonneg_right htime
    · exact h.future n hn
  have hins : (s.insert time event).now ≤ time + s.now := hle
  unfold TimerModule.add remaining
  rw [hnew]
  -- the first event is scheduled
  cases hd : s.timer.directList.nodes with
  | nil =>
    have hnodes := Multimap.nodes_insert_nil hd (s.now + time) event
    rw [h.busy_eq_false hd]
    simp only [Bool.false_eq_true, if_false, Bool.not_false, Bool.true_or, if_true,
      Option.isSome_none, bind, Except.bind, scheduleAt_eq hins]
    refine ⟨_, rfl, ⟨hwf, hlists, ⟨fun _ => hne, fun _ => rfl⟩, ?_, hfuture⟩, rfl, rfl⟩
    dsimp only [insert]
    rw [hnodes, h.scheduled_nil hd, add_comm time]
    rfl
  | cons m l =>
    have hmsg := h.scheduled_cons hd
    have hmsg' : (s.insert time event).scheduled = [(s.insert time event).messageFor m] := hmsg
    rw [h.busy_eq_true hd]
    simp only [if_true, Bool.not_true, Bool.false_or, Option.isSome_none, Bool.false_eq_true,
      if_false, bind, Except.bind, decide_eq_true_eq]
    split_ifs with hlt
    · -- the new event becomes the first one
      have hhead := Multimap.head?_insert_of_lt hd (lt_sub_iff_add_lt'.1 hlt) event
      rw [cancelAndDelete_eq hmsg']
      dsimp only
      rw [scheduleAt_eq (s := { s.insert time event with scheduled := [] }) hle]
      refine ⟨_, rfl, ⟨hwf, hlists, ⟨fun _ => hne, fun _ => rfl⟩, ?_, hfuture⟩, rfl, rfl⟩
      dsimp only [insert]
      rw [hhead, add_comm time]
      rfl
    · -- the message of the first event stays
      have hhead := Multimap.head?_insert_of_le hd (sub_le_iff_le_add'.1 (not_lt.1 hlt)) event
      refine ⟨_, rfl, ⟨hwf, hlists, ⟨fun _ => hne, fun _ => rfl⟩, ?_, hfuture⟩, rfl, rfl⟩
      dsimp only [insert]
      rw [hhead]
      exact hmsg

/-- What is left when the first element has been erased, before the next message is scheduled. -/
structure Headless (s : TimerModule) : Prop where
  wf : s.timer.directList.Wf
  busy : s.timer.busy = true
  scheduled : s.scheduled = []
  future : ∀ n ∈ s.timer.directList.nodes, s.now ≤ n.key

/-- The next element gets its message. -/
theorem Headless.scheduleNext (h : Headless s) :
    ∃ s', s.scheduleNext = .ok s' ∧ s'.now = s.now ∧ s'.timer.directList = s.timer.directList ∧
      s'.timer.reverseList = s.timer.reverseList ∧
      (s'.timer.busy = true ↔ s.timer.directList.nodes ≠ []) ∧
      s'.scheduled = s.timer.directList.nodes.head?.toList.map s'.messageFor := by
  unfold TimerModule.scheduleNext
  cases hd : s.timer.directList.nodes with
  | nil => exact ⟨_, rfl, rfl, rfl, rfl, by simp, h.scheduled⟩
  | cons n l =>
    dsimp only
    rw [scheduleAt_eq (h.future n (by rw [hd]; exact List.mem_cons_self)), h.scheduled]
    exact ⟨_, rfl, rfl, rfl, rfl, by simp [h.busy], rfl⟩

/-- `handle` takes the first element from the lists; its message has arrived. -/
theorem handle (h : s.Inv) (hd : s.timer.directList.nodes = n :: l) (e : ℕ) :
    ∃ s', ({ s with scheduled := [] } : TimerModule).handle e = .ok s' ∧ s'.Inv ∧
      s'.now = s.now ∧ s'.timer.directList = s.timer.directList.erase n.addr := by
  have hn : n ∈ s.timer.directList.nodes := by rw [hd]; exact List.mem_cons_self
  unfold TimerModule.handle
  dsimp only
  rw [hd]
  obtain ⟨s', hs', hnow, hdirect, hreverse, hbusy, hmsg⟩ := Headless.scheduleNext (s := { s with
      scheduled := []
      timer := { s.timer with
        directList := s.timer.directList.erase n.addr
        reverseList := s.timer.reverseList.erase n.value } })
    ⟨h.wf.erase _, h.busy_eq_true hd, rfl, fun m hm => h.future m (Multimap.mem_erase.1 hm).1⟩
  refine ⟨s', hs', ⟨?_, ?_, ?_, ?_, ?_⟩, hnow, hdirect⟩
  · rw [hdirect]
    exact h.wf.erase _
  · rw [hdirect, hreverse]
    exact h.lists_erase hn
  · rw [hdirect]
    exact hbusy
  · rw [hdirect]
    exact hmsg
  · rw [hdirect, hnow]
    exact fun m hm => h.future m (Multimap.mem_erase.1 hm).1

/-- `remove` takes a pending event from the lists. -/
theorem remove (h : s.Inv) (hn : n ∈ s.timer.directList.nodes) :
    ∃ s', s.remove n.value = .ok s' ∧ s'.Inv ∧ s'.now = s.now ∧
      s'.timer.directList = s.timer.directList.erase n.addr := by
  have hfuture : ∀ m ∈ (s.timer.directList.erase n.addr).nodes, s.now ≤ m.key :=
    fun m hm => h.future m (Multimap.mem_erase.1 hm).1
  have hwf := h.wf.erase n.addr
  have hlists := h.lists_erase hn
  obtain ⟨m, l, hd⟩ := List.exists_cons_of_ne_nil (List.ne_nil_of_mem hn)
  have hmsg := h.scheduled_cons hd
  unfold TimerModule.remove
  rw [(h.lists n.value n.addr).2 ⟨n, hn, rfl, rfl⟩, hd]
  by_cases hm : m.addr = n.addr
  · -- the first element is removed, and its message is cancelled
    obtain rfl := h.wf.eq_of_addr (hd ▸ List.mem_cons_self) hn hm
    have hmsg' : ({ s with timer := { s.timer with
        directList := s.timer.directList.erase m.addr } } : TimerModule).scheduled =
        [messageFor { s with timer := { s.timer with
          directList := s.timer.directList.erase m.addr } } m] := hmsg
    obtain ⟨s', hs', hnow, hdirect, hreverse, hbusy, hmsgs⟩ := Headless.scheduleNext (s := { s with
        scheduled := []
        timer := { s.timer with directList := s.timer.directList.erase m.addr } })
      ⟨hwf, h.busy_eq_true hd, rfl, hfuture⟩
    simp only [List.head?_cons, Option.map_some, if_true, bind, Except.bind,
      cancelAndDelete_eq hmsg', hs']
    refine ⟨_, rfl, ⟨?_, ?_, ?_, ?_, ?_⟩, hnow, hdirect⟩
    · dsimp only
      rw [hdirect]
      exact hwf
    · dsimp only
      rw [hdirect, hreverse]
      exact hlists
    · dsimp only
      rw [hdirect]
      exact hbusy
    · dsimp only
      rw [hdirect]
      exact hmsgs
    · dsimp only
      rw [hdirect, hnow]
      exact hfuture
  · -- another element is removed, and the message stays
    have hhead := Multimap.head?_erase hd hm
    have hne : ¬Option.map MapNode.addr (m :: l).head? = some n.addr := by simpa using hm
    dsimp only
    rw [if_neg hne]
    refine ⟨_, rfl, ⟨hwf, hlists, ?_, ?_, hfuture⟩, rfl, rfl⟩
    · exact ⟨fun _ => List.ne_nil_of_mem (List.mem_of_mem_head? hhead), fun _ => h.busy_eq_true hd⟩
    · dsimp only
      rw [hhead]
      exact hmsg

theorem wait {now : SimTime} (h : s.Inv) (hle : ∀ m ∈ s.scheduled, now ≤ m.arrival) :
    ({ s with now } : TimerModule).Inv where
  wf := h.wf
  lists := h.lists
  busy := h.busy
  message := h.message
  future n hn := by
    obtain ⟨m, l, hd⟩ := List.exists_cons_of_ne_nil (List.ne_nil_of_mem hn)
    have hm := hle (s.messageFor m) (by rw [h.scheduled_cons hd]; exact List.mem_singleton_self _)
    exact le_trans hm (h.wf.le_of_head hd hn)

end Inv

/-! ### Runs -/

/-- What an event does, by the elements of `directList_`. -/
inductive Change (s s' : TimerModule) : List Note → Prop
  | added {event : ℕ} {due : SimTime} (hdue : s.now ≤ due) (hnow : s'.now = s.now)
      (hd : s'.timer.directList = s.timer.directList.insert due event) :
      Change s s' [.added s.timer.directList.fresh event due]
  | removed {n : MapNode SimTime ℕ} (hn : n ∈ s.timer.directList.nodes) (hnow : s'.now = s.now)
      (hd : s'.timer.directList = s.timer.directList.erase n.addr) : Change s s' [.removed n.addr]
  | handled {n : MapNode SimTime ℕ} (hn : n ∈ s.timer.directList.nodes) (hkey : n.key = s.now)
      (hnow : s'.now = s.now) (hd : s'.timer.directList = s.timer.directList.erase n.addr) :
      Change s s' [.handled n.addr n.value s.now]
  | waited (hnow : s.now ≤ s'.now) (hd : s'.timer.directList = s.timer.directList) : Change s s' []

/-- **The step.** -/
theorem Inv.step {e : Event} {o : List Note} (h : s.Inv) (hst : machine.step s e = some (s', o)) :
    s'.Inv ∧ Change s s' o := by
  cases e with
  | add time event =>
    dsimp only [machine] at hst
    split at hst
    · rename_i hen
      obtain ⟨s₁, hadd, hinv, hnow, hd⟩ := h.add hen.1 (by simpa [busyEvent] using hen.2)
      rw [hadd] at hst
      obtain ⟨rfl, rfl⟩ := Prod.mk.inj (Option.some.inj hst)
      exact ⟨hinv, .added (le_add_of_nonneg_right hen.1) hnow hd⟩
    · cases hst
  | remove event =>
    dsimp only [machine] at hst
    split at hst
    · cases hst
    · rename_i dIt hfind
      obtain ⟨n, hn, rfl, rfl⟩ := (h.lists event dIt).1 hfind
      obtain ⟨s₁, hrem, hinv, hnow, hd⟩ := h.remove hn
      rw [hrem] at hst
      obtain ⟨rfl, rfl⟩ := Prod.mk.inj (Option.some.inj hst)
      exact ⟨hinv, .removed hn hnow hd⟩
  | message =>
    dsimp only [machine] at hst
    split at hst
    · rename_i m n l hfind hd
      rw [h.scheduled_cons hd] at hfind hst
      obtain rfl := List.mem_singleton.1 (List.mem_of_find?_eq_some hfind)
      have hfound := List.find?_some hfind
      have harrival : n.key = s.now := of_decide_eq_true hfound
      obtain ⟨s₁, hhandle, hinv, hnow, hd'⟩ := h.handle hd n.value
      rw [List.erase_cons_head] at hst
      rw [show (s.messageFor n).event = n.value from rfl, hhandle] at hst
      obtain ⟨rfl, rfl⟩ := Prod.mk.inj (Option.some.inj hst)
      exact ⟨hinv, .handled (by rw [hd]; exact List.mem_cons_self) harrival hnow hd'⟩
    · cases hst
  | wait now =>
    -- time only passes up to the next message
    dsimp only [machine] at hst
    split at hst
    · rename_i hen
      obtain ⟨rfl, rfl⟩ := Prod.mk.inj (Option.some.inj hst)
      exact ⟨h.wait hen.2, .waited hen.1 rfl⟩
    · cases hst

namespace Note

/-- The element `a` is added. -/
def adds (a : ℕ) : Note → Bool
  | .added b _ _ => b = a
  | _ => false

/-- The element `a` is removed or handled. -/
def ends (a : ℕ) : Note → Bool
  | .added _ _ _ => false
  | .removed b => b = a
  | .handled b _ _ => b = a

/-- The time of an event that is handled. -/
def handledAt : Note → Option SimTime
  | .handled _ _ time => some time
  | _ => none

end Note

/-- The number of pending elements with the address `a`. -/
def pending (s : TimerModule) (a : ℕ) : ℕ :=
  (s.timer.directList.nodes.map MapNode.addr).count a

/-- What the notes of a run say about the state. -/
structure History (s : TimerModule) (os : List Note) : Prop where
  /-- An address is used once. -/
  adds : ∀ a, os.countP (Note.adds a) = if a < s.timer.directList.fresh then 1 else 0
  balance : ∀ a, os.countP (Note.adds a) = os.countP (Note.ends a) + s.pending a
  listed : ∀ n ∈ s.timer.directList.nodes, Note.added n.addr n.value n.key ∈ os
  handled : ∀ a event time, Note.handled a event time ∈ os →
    Note.added a event time ∈ os ∧ time ≤ s.now
  order : (os.filterMap Note.handledAt).Pairwise (· ≤ ·)

theorem pending_insert {due : SimTime}
    (hd : s'.timer.directList = s.timer.directList.insert due event) (a : ℕ) :
    s'.pending a = s.pending a + if s.timer.directList.fresh = a then 1 else 0 := by
  have hperm := (Multimap.insert_perm s.timer.directList due event).map MapNode.addr
  rw [pending, hd, hperm.count_eq, List.map_cons, List.count_cons]
  simp [Multimap.added, pending]

theorem pending_erase (hwf : s.timer.directList.Wf) (hn : n ∈ s.timer.directList.nodes)
    (hd : s'.timer.directList = s.timer.directList.erase n.addr) (a : ℕ) :
    s.pending a = s'.pending a + if n.addr = a then 1 else 0 := by
  rw [pending, ((hwf.erase_perm hn).map MapNode.addr).count_eq, List.map_cons, List.count_cons,
    pending, hd]
  simp

theorem History.added {os : List Note} {due : SimTime} (h : History s os) (hnow : s'.now = s.now)
    (hd : s'.timer.directList = s.timer.directList.insert due event) :
    History s' (os ++ [.added s.timer.directList.fresh event due]) := by
  have hfresh : s'.timer.directList.fresh = s.timer.directList.fresh + 1 := by rw [hd]; rfl
  refine ⟨fun a => ?_, fun a => ?_, fun n hn => ?_, fun a e t hmem => ?_, ?_⟩
  · have hadds := h.adds a
    rw [List.countP_append, hadds, hfresh]
    simp only [List.countP_singleton, Note.adds, decide_eq_true_eq]
    split_ifs <;> omega
  · have hbalance := h.balance a
    rw [List.countP_append, List.countP_append, hbalance, pending_insert hd a]
    simp only [List.countP_singleton, Note.adds, Note.ends, decide_eq_true_eq,
      Bool.false_eq_true, if_false]
    omega
  · rw [hd] at hn
    rw [List.mem_append]
    rcases Multimap.mem_insert.1 hn with rfl | hn
    · exact .inr (List.mem_singleton_self _)
    · exact .inl (h.listed n hn)
  · rcases List.mem_append.1 hmem with hmem | hmem
    · obtain ⟨hadded, hle⟩ := h.handled a e t hmem
      exact ⟨List.mem_append_left _ hadded, hnow ▸ hle⟩
    · cases List.mem_singleton.1 hmem
  · rw [List.filterMap_append]
    exact (List.append_nil _).symm ▸ h.order

/-- A note that ends the element it is about. -/
theorem History.ended {os : List Note} {note : Note} (h : History s os)
    (hwf : s.timer.directList.Wf) (hn : n ∈ s.timer.directList.nodes) (hnow : s'.now = s.now)
    (hd : s'.timer.directList = s.timer.directList.erase n.addr)
    (hnote : note = .removed n.addr ∨ n.key = s.now ∧ note = .handled n.addr n.value s.now) :
    History s' (os ++ [note]) := by
  have hfresh : s'.timer.directList.fresh = s.timer.directList.fresh := by rw [hd]; rfl
  -- the note ends the event that is erased
  have hadds : ∀ a, note.adds a = false := by
    rcases hnote with rfl | ⟨-, rfl⟩ <;> exact fun _ => rfl
  have hends : ∀ a, note.ends a = decide (n.addr = a) := by
    rcases hnote with rfl | ⟨-, rfl⟩ <;> exact fun _ => rfl
  refine ⟨fun a => ?_, fun a => ?_, fun m hm => ?_, fun a e t hmem => ?_, ?_⟩
  · rw [List.countP_append, h.adds a, hfresh, List.countP_singleton, hadds]
    simp
  · have hbalance := h.balance a
    rw [pending_erase hwf hn hd a] at hbalance
    rw [List.countP_append, List.countP_append, hbalance, List.countP_singleton,
      List.countP_singleton, hadds, hends]
    simp only [Bool.false_eq_true, if_false, decide_eq_true_eq]
    omega
  · rw [hd] at hm
    exact List.mem_append_left _ (h.listed m (Multimap.mem_erase.1 hm).1)
  · rw [hnow]
    rcases List.mem_append.1 hmem with hmem | hmem
    · obtain ⟨hadded, hle⟩ := h.handled a e t hmem
      exact ⟨List.mem_append_left _ hadded, hle⟩
    · rcases hnote with rfl | ⟨hkey, rfl⟩
      · cases List.mem_singleton.1 hmem
      · obtain ⟨rfl, rfl, rfl⟩ := Note.handled.inj (List.mem_singleton.1 hmem)
        exact ⟨List.mem_append_left _ (hkey ▸ h.listed n hn), le_refl _⟩
  · rw [List.filterMap_append]
    rcases hnote with rfl | ⟨-, rfl⟩
    · exact (List.append_nil _).symm ▸ h.order
    · refine List.pairwise_append.2 ⟨h.order, List.pairwise_singleton _ _, fun t ht t' ht' => ?_⟩
      obtain rfl := List.mem_singleton.1 ht'
      obtain ⟨note, hmem, hat⟩ := List.mem_filterMap.1 ht
      cases note with
      | handled a e time =>
        obtain rfl := Option.some.inj hat
        exact (h.handled a e _ hmem).2
      | _ => cases hat

/-- What an event does extends the history. -/
theorem History.step {os o : List Note} (h : History s os) (hwf : s.timer.directList.Wf)
    (hc : Change s s' o) : History s' (os ++ o) := by
  cases hc with
  | added _ hnow hd => exact h.added hnow hd
  | removed hn hnow hd => exact h.ended hwf hn hnow hd (.inl rfl)
  | handled hn hkey hnow hd => exact h.ended hwf hn hnow hd (.inr ⟨hkey, rfl⟩)
  | waited hnow hd =>
    rw [List.append_nil]
    refine ⟨hd ▸ h.adds, fun a => ?_, hd ▸ h.listed, fun a e t hmem => ?_, h.order⟩
    · rw [h.balance a, pending, pending, hd]
    · exact ⟨(h.handled a e t hmem).1, (h.handled a e t hmem).2.trans hnow⟩

/-- A timer that has never been used. -/
def idle (now : SimTime) : TimerModule where
  now := now

theorem inv_idle (now : SimTime) : (idle now).Inv where
  wf := Multimap.wf_empty
  lists _ _ := by simp [idle]
  busy := by simp [idle]
  message := rfl
  future := nofun

theorem history_idle (now : SimTime) : History (idle now) [] where
  adds _ := by simp [idle]
  balance _ := by simp [idle, pending]
  listed := nofun
  handled := nofun
  order := .nil

/-- **Every event is handled once and on time**, after a run with the notes `os`. -/
structure OnTime (s : TimerModule) (os : List Note) : Prop where
  /-- The two lists hold the same events. -/
  lists : ∀ event, s.busyEvent event = true ↔ event ∈ s.timer.directList.nodes.map MapNode.value
  /-- No event is pending twice. -/
  nodup : (s.timer.directList.nodes.map MapNode.value).Nodup
  /-- The timer is busy iff an event is pending. -/
  busy : s.timer.busy = true ↔ s.timer.directList.nodes ≠ []
  /-- One message is scheduled iff an event is pending. -/
  message : s.scheduled.length = if s.timer.busy then 1 else 0
  /-- It is due at the earliest pending time and carries an event that is pending for it. -/
  due : ∀ m ∈ s.scheduled,
    (∃ n ∈ s.timer.directList.nodes, n.key = m.arrival ∧ n.value = m.event) ∧
      ∀ n ∈ s.timer.directList.nodes, m.arrival ≤ n.key
  /-- An event that has been added has been removed or handled once, or it is pending. -/
  once : ∀ a event time, Note.added a event time ∈ os →
    os.countP (Note.adds a) = 1 ∧ os.countP (Note.ends a) + s.pending a = 1
  /-- No pending event is overdue. -/
  notLate : ∀ n ∈ s.timer.directList.nodes, s.now ≤ n.key
  /-- Only events that have been added are handled. -/
  handled : ∀ a event time, Note.handled a event time ∈ os → Note.added a event time ∈ os
  /-- They are handled in the order of time. -/
  order : (os.filterMap Note.handledAt).Pairwise (· ≤ ·)
  /-- The operations do not throw. -/
  add : ∀ time event, 0 ≤ time → s.busyEvent event = false →
    ∃ r, machine.step s (.add time event) = some r
  /-- An event that is pending can be removed. -/
  remove : ∀ event, s.busyEvent event = true → ∃ r, machine.step s (.remove event) = some r
  /-- A message that is due can be handled. -/
  arrive : ∀ m ∈ s.scheduled, m.arrival = s.now → ∃ r, machine.step s .message = some r

theorem Inv.onTime {os : List Note} (h : s.Inv) (hos : History s os) : OnTime s os := by
  have hnodup : (s.timer.directList.nodes.map MapNode.value).Nodup :=
    (h.wf.nodup.of_map _).map_on fun n hn m hm => h.eq_of_value hn hm
  have hlists : ∀ event, s.busyEvent event = true ↔
      event ∈ s.timer.directList.nodes.map MapNode.value := by
    intro event
    rw [busyEvent, Option.isSome_iff_exists, List.mem_map]
    constructor
    · rintro ⟨a, ha⟩
      obtain ⟨n, hn, -, hv⟩ := (h.lists event a).1 ha
      exact ⟨n, hn, hv⟩
    · rintro ⟨n, hn, rfl⟩
      exact ⟨n.addr, (h.lists _ _).2 ⟨n, hn, rfl, rfl⟩⟩
  refine ⟨hlists, hnodup, h.busy, ?_, fun m hm => ?_, fun a e t hadded => ?_, h.future,
    fun a e t hmem => (hos.handled a e t hmem).1, hos.order, fun time event htime hnew => ?_,
    fun event hpending => ?_, fun m hm harrival => ?_⟩
  · -- a message for the first event
    cases hd : s.timer.directList.nodes with
    | nil => rw [h.scheduled_nil hd, h.busy_eq_false hd]; rfl
    | cons n l => rw [h.scheduled_cons hd, h.busy_eq_true hd]; rfl
  · obtain ⟨n, l, hd⟩ := List.exists_cons_of_ne_nil fun hd => by
      rw [h.scheduled_nil hd] at hm
      cases hm
    rw [h.scheduled_cons hd] at hm
    obtain rfl := List.mem_singleton.1 hm
    exact ⟨⟨n, by rw [hd]; exact List.mem_cons_self, rfl, rfl⟩, fun k hk => h.wf.le_of_head hd hk⟩
  · have hpos : 0 < os.countP (Note.adds a) :=
      List.countP_pos_iff.2 ⟨_, hadded, decide_eq_true rfl⟩
    have hadds := hos.adds a
    have hbalance := hos.balance a
    split_ifs at hadds <;> omega
  · -- an event that is not pending can be added
    have hfind : s.timer.reverseList.find event = none := by simpa [busyEvent] using hnew
    obtain ⟨s₁, hadd, -⟩ := h.add htime hfind
    exact ⟨_, by dsimp only [machine]; rw [if_pos ⟨htime, hnew⟩, hadd]; rfl⟩
  · -- one that is pending can be removed
    obtain ⟨n, hn, rfl⟩ := List.mem_map.1 ((hlists event).1 hpending)
    obtain ⟨s₁, hrem, -⟩ := h.remove hn
    refine ⟨(s₁, [.removed n.addr]), ?_⟩
    dsimp only [machine]
    rw [(h.lists n.value n.addr).2 ⟨n, hn, rfl, rfl⟩, hrem]
    rfl
  · -- a message that is due is handled
    obtain ⟨n, l, hd⟩ := List.exists_cons_of_ne_nil fun hd => by
      rw [h.scheduled_nil hd] at hm
      cases hm
    rw [h.scheduled_cons hd] at hm
    obtain rfl := List.mem_singleton.1 hm
    have hfind : s.scheduled.find? (fun m => m.arrival = s.now) = some (s.messageFor n) := by
      rw [h.scheduled_cons hd]
      exact List.find?_cons_of_pos (decide_eq_true harrival)
    obtain ⟨s₁, hhandle, -⟩ := h.handle hd n.value
    refine ⟨(s₁, [.handled n.addr n.value s.now]), ?_⟩
    dsimp only [machine]
    rw [hfind, hd]
    dsimp only
    rw [h.scheduled_cons hd, List.erase_cons_head, show (s.messageFor n).event = n.value from rfl,
      hhandle]
    rfl

/-- **The timer fires every event once and on time**, in every run of its module. -/
theorem fires_once_on_time (now : SimTime) {es : List Event} {os : List Note}
    (h : machine.exec (idle now) es = some (s, os)) : OnTime s os := by
  have hinv : s.Inv ∧ History s os := by
    refine Machine.exec_induction (J := fun _ s os => s.Inv ∧ History s os)
      ⟨inv_idle now, history_idle now⟩ ?_ h
    rintro es s os e s' o - ⟨hinv, hhist⟩ hst
    obtain ⟨hinv', hchange⟩ := hinv.step hst
    exact ⟨hinv', hhist.step hinv.wf hchange⟩
  exact hinv.1.onTime hinv.2

/-- An earlier event replaces the message of the first one, and two events have the same time. -/
def threeEvents : List Event :=
  [.add 5 1, .add 3 2, .add 3 3, .wait 3, .message, .remove 1, .message]

theorem onTime_threeEvents : ∃ s os, machine.exec (idle 0) threeEvents = some (s, os) ∧
    os = [.added 0 1 5, .added 1 2 3, .added 2 3 3, .handled 1 2 3, .removed 0, .handled 2 3 3] ∧
    OnTime s os := by
  have hrun : (machine.exec (idle 0) threeEvents).map Prod.snd = some [.added 0 1 5, .added 1 2 3,
      .added 2 3 3, .handled 1 2 3, .removed 0, .handled 2 3 3] := by decide
  obtain ⟨⟨s, os⟩, hex, hos⟩ := Option.map_eq_some_iff.1 hrun
  exact ⟨s, os, hex, hos, fires_once_on_time 0 hex⟩

/-! ### Events with the same delay -/

/-- The pending events, in the order in which they expire. -/
def pendingEvents (s : TimerModule) : List ℕ := s.timer.directList.nodes.map MapNode.value

/-- An event is added with the delay `d`. -/
def Event.After (d : SimTime) : Event → Prop
  | .add time _ => time = d
  | .remove _ => True
  | .message => True
  | .wait _ => True

/-- What becomes of the list of pending events, as an entity of RLC AM keeps it. -/
def listStep : List ℕ → Event → Option (List ℕ)
  | l, .add _ event => (timerAdd l event).toOption
  | l, .remove event => some (l.erase event)
  | [], .message => none
  | _ :: l, .message => some l
  | l, .wait _ => some l

/-- What is pending is due before what is added now. -/
def Within (d : SimTime) (s : TimerModule) : Prop :=
  ∀ n ∈ s.timer.directList.nodes, n.key ≤ s.now + d

theorem Within.erase {d : SimTime} (hd : Within d s) (hnow : s'.now = s.now)
    (hlist : s'.timer.directList = s.timer.directList.erase a) : Within d s' := by
  intro n hn
  rw [hlist] at hn
  rw [hnow]
  exact hd n (Multimap.mem_erase.1 hn).1

/-- The events after one of them has been taken out. -/
theorem Inv.pendingEvents_erase (h : s.Inv) (hn : n ∈ s.timer.directList.nodes)
    (hlist : s'.timer.directList = s.timer.directList.erase n.addr) :
    s'.pendingEvents = s.pendingEvents.erase n.value := by
  have hnodup : s.pendingEvents.Nodup :=
    (h.wf.nodup.of_map _).map_on fun m hm k hk => h.eq_of_value hm hk
  rw [hnodup.erase_eq_filter, pendingEvents, pendingEvents, hlist, List.filter_map]
  refine congrArg (List.map MapNode.value) (List.filter_congr fun m hm => ?_)
  have hiff : m.addr = n.addr ↔ m.value = n.value :=
    ⟨fun heq => congrArg MapNode.value (h.wf.eq_of_addr hm hn heq),
      fun heq => congrArg MapNode.addr (h.eq_of_value hm hn heq)⟩
  simp [hiff, bne, beq_eq_decide]

/-- **The step on the list.**  A new event comes last. -/
theorem Inv.listStep_eq {d : SimTime} {e : Event} {o : List Note} (h : s.Inv) (hd : Within d s)
    (he : e.After d) (hst : machine.step s e = some (s', o)) :
    Within d s' ∧ listStep s.pendingEvents e = some s'.pendingEvents := by
  cases e with
  | add time event =>
    dsimp only [machine] at hst
    split at hst
    · rename_i hen
      have hnew : s.timer.reverseList.find event = none := by simpa [busyEvent] using hen.2
      obtain ⟨s₁, hadd, -, hnow, hlist⟩ := h.add hen.1 hnew
      rw [hadd] at hst
      obtain ⟨rfl, -⟩ := Prod.mk.inj (Option.some.inj hst)
      -- the deadline is not before the others, so the event is the last one
      have hnodes : s₁.timer.directList.nodes =
          s.timer.directList.nodes ++ [s.timer.directList.added (s.now + time) event] := by
        rw [hlist]
        refine Multimap.place_of_le fun m hm => ?_
        rw [show (s.timer.directList.added (s.now + time) event).key = s.now + d from
          congrArg (s.now + ·) he]
        exact hd m hm
      have hfree : event ∉ s.pendingEvents := by
        intro hmem
        obtain ⟨n, hn, rfl⟩ := List.mem_map.1 hmem
        rw [(h.lists n.value n.addr).2 ⟨n, hn, rfl, rfl⟩] at hnew
        cases hnew
      refine ⟨fun n hn => ?_, ?_⟩
      · rw [hnodes, List.mem_append, List.mem_singleton] at hn
        rw [hnow]
        rcases hn with hn | rfl
        · exact hd n hn
        · exact (add_le_add_iff_left s.now).2 (le_of_eq he)
      · rw [listStep, timerAdd, if_neg hfree, pendingEvents, pendingEvents, hnodes, List.map_append]
        rfl
    · cases hst
  | remove event =>
    dsimp only [machine] at hst
    split at hst
    · cases hst
    · rename_i dIt hfind
      obtain ⟨n, hn, rfl, rfl⟩ := (h.lists event dIt).1 hfind
      obtain ⟨s₁, hrem, -, hnow, hlist⟩ := h.remove hn
      rw [hrem] at hst
      obtain ⟨rfl, -⟩ := Prod.mk.inj (Option.some.inj hst)
      exact ⟨hd.erase hnow hlist, congrArg some (h.pendingEvents_erase hn hlist).symm⟩
  | message =>
    dsimp only [machine] at hst
    split at hst
    · rename_i m n l hfind hlist
      rw [h.scheduled_cons hlist] at hfind hst
      obtain rfl := List.mem_singleton.1 (List.mem_of_find?_eq_some hfind)
      obtain ⟨s₁, hhandle, -, hnow, hlist'⟩ := h.handle hlist n.value
      rw [List.erase_cons_head, show (s.messageFor n).event = n.value from rfl, hhandle] at hst
      obtain ⟨rfl, -⟩ := Prod.mk.inj (Option.some.inj hst)
      have hn : n ∈ s.timer.directList.nodes := by rw [hlist]; exact List.mem_cons_self
      refine ⟨hd.erase hnow hlist', ?_⟩
      rw [h.pendingEvents_erase hn hlist', pendingEvents, hlist, List.map_cons,
        List.erase_cons_head]
      rfl
    · cases hst
  | wait now =>
    dsimp only [machine] at hst
    split at hst
    · rename_i hen
      obtain ⟨rfl, -⟩ := Prod.mk.inj (Option.some.inj hst)
      exact ⟨fun n hn => (hd n hn).trans ((add_le_add_iff_right d).2 hen.1), rfl⟩
    · cases hst

/-- **The timer is the list of pending events** in every run in which all have the same delay. -/
theorem foldlM_listStep {now d : SimTime} {es : List Event} {os : List Note}
    (h : machine.exec (idle now) es = some (s, os)) (hes : ∀ e ∈ es, e.After d) :
    es.foldlM listStep [] = some s.pendingEvents := by
  have hinv : (∀ e ∈ es, e.After d) →
      s.Inv ∧ Within d s ∧ es.foldlM listStep [] = some s.pendingEvents := by
    refine Machine.exec_induction (J := fun es s _ => (∀ e ∈ es, e.After d) →
      s.Inv ∧ Within d s ∧ es.foldlM listStep [] = some s.pendingEvents)
      (fun _ => ⟨inv_idle now, nofun, rfl⟩) ?_ h
    intro es s os e s' o _ ih hst hes
    obtain ⟨hI, hd, hlist⟩ := ih fun e he => hes e (List.mem_append_left _ he)
    obtain ⟨hd', hlist'⟩ := hI.listStep_eq hd (hes e (by simp)) hst
    refine ⟨(hI.step hst).1, hd', ?_⟩
    rw [List.foldlM_append, hlist]
    simpa using hlist'
  exact (hinv hes).2.2

end TimerModule

end V2nLte
