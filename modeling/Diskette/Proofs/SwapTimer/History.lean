import Diskette.SwapTimer

/-!
# The line as its history tells it

A timer keeps two phases and drops them when it happens to be asked. What it makes of the line can
be told from the events alone: they fall into disk changes, and the line depends on how the latest
change began and on the last event in it. When the timer is asked in between does not matter.
-/

set_option autoImplicit false

namespace Diskette

def SwapEvent.lineOverride : SwapEvent → LineOverride
  | .insert => .forceUnprotected
  | .eject => .forceProtected

/-- A disk change: its first event, the tick of that, and its last event so far. -/
structure Swap where
  first : SwapEvent
  start : UInt64
  last : SwapEvent
  deriving DecidableEq, Repr

namespace Swap

def turn (s : Swap) (delay : UInt32) : UInt64 := SwapTimer.later s.start delay

def finish (s : Swap) (delay : UInt32) : UInt64 := SwapTimer.later (s.turn delay) delay

/-- An event belongs to the disk change before it until the first phase of that is over. -/
def next (delay : UInt32) (s : Option Swap) (e : SwapEvent × UInt64) : Option Swap :=
  match s with
  | some s => if s.turn delay ≤ e.2 then some ⟨e.1, e.2, e.1⟩ else some { s with last := e.1 }
  | none => some ⟨e.1, e.2, e.1⟩

def ofEvents (delay : UInt32) (events : List (SwapEvent × UInt64)) : Option Swap :=
  events.foldl (next delay) none

/-- The line in the course of a disk change: as its first event makes it, then as its last one does
if that is different. -/
def lineOverride (delay : UInt32) (s : Option Swap) (now : UInt64) : LineOverride :=
  match s with
  | some s =>
    if now < s.turn delay then s.first.lineOverride
    else if s.last ≠ s.first ∧ now < s.finish delay then s.last.lineOverride
    else .none
  | none => .none

def timer (delay : UInt32) (s : Option Swap) : SwapTimer :=
  match s with
  | some s =>
    { first := some ⟨s.first, s.start⟩
      second := if s.last = s.first then none else some ⟨s.last, s.turn delay⟩
      delay := delay }
  | none => { delay := delay }

end Swap

inductive TimerCall where
  | schedule (event : SwapEvent) (now : UInt64)
  | update (now : UInt64)
  | lineOverride (now : UInt64)

namespace TimerCall

def tick : TimerCall → UInt64
  | schedule _ now | update now | lineOverride now => now

def event? : TimerCall → Option (SwapEvent × UInt64)
  | schedule event now => some (event, now)
  | update _ | lineOverride _ => none

end TimerCall

namespace SwapTimer

def call (t : SwapTimer) : TimerCall → SwapTimer
  | .schedule event now => t.schedule event now
  | .update now | .lineOverride now => t.update now

def runCalls : SwapTimer → List TimerCall → SwapTimer
  | t, [] => t
  | t, c :: cs => runCalls (t.call c) cs

theorem filter_isOver (p : Phase) (delay : UInt32) (now : UInt64) :
    (some p).filter (fun p => !p.isOver delay now) =
      if now < later p.start delay then some p else none := by
  by_cases h : now < later p.start delay
  · have hp : p.isOver delay now = false := decide_eq_false (UInt64.not_le.mpr h)
    simp only [Option.filter_some, hp, h, Bool.not_false, if_true]
  · have hp : p.isOver delay now = true := decide_eq_true (UInt64.not_lt.mp h)
    simp only [Option.filter_some, hp, h, Bool.not_true, Bool.false_eq_true, if_false]

def IsKept (delay : UInt32) (now : UInt64) (p q : Option Phase) : Prop :=
  q = p ∨ q = none ∧ ∃ r, p = some r ∧ r.isOver delay now = true

structure Retires (t u : SwapTimer) (now : UInt64) : Prop where
  delay : u.delay = t.delay
  first : IsKept t.delay now t.first u.first
  second : IsKept t.delay now t.second u.second

theorem Retires.refl (t : SwapTimer) (now : UInt64) : t.Retires t now := ⟨rfl, .inl rfl, .inl rfl⟩

theorem isKept_filter (delay : UInt32) (now : UInt64) (p : Option Phase) :
    IsKept delay now p (p.filter (fun q => !q.isOver delay now)) := by
  cases p with
  | none => exact .inl rfl
  | some q =>
    by_cases h : q.isOver delay now = true
    · exact .inr ⟨by simp [h], q, rfl, h⟩
    · exact .inl (by simp [h])

theorem retires_update (t : SwapTimer) (now : UInt64) : t.Retires (t.update now) now :=
  ⟨rfl, isKept_filter _ _ _, isKept_filter _ _ _⟩

theorem filter_filter_isOver (p : Option Phase) (delay : UInt32) {a b : UInt64} (h : a ≤ b) :
    (p.filter (fun p => !p.isOver delay a)).filter (fun p => !p.isOver delay b) =
      p.filter (fun p => !p.isOver delay b) := by
  cases p with
  | none => rfl
  | some p =>
    by_cases ha : a < later p.start delay
    · rw [filter_isOver, if_pos ha]
    · have hb : ¬b < later p.start delay := fun hb => ha (UInt64.lt_of_le_of_lt h hb)
      rw [filter_isOver, if_neg ha, filter_isOver, if_neg hb, Option.filter_none]

theorem update_update (t : SwapTimer) {a b : UInt64} (h : a ≤ b) :
    (t.update a).update b = t.update b := by
  simp only [update, filter_filter_isOver _ _ h]

theorem schedule_update (t : SwapTimer) (event : SwapEvent) (now : UInt64) :
    (t.update now).schedule event now = t.schedule event now := by
  rw [schedule, update_update t (UInt64.le_refl now), schedule]

theorem lineOverride_update (t : SwapTimer) (now : UInt64) :
    (t.update now).lineOverride now = t.lineOverride now := by
  rw [lineOverride, update_update t (UInt64.le_refl now), lineOverride]

variable {t : SwapTimer} {p : Phase} {event : SwapEvent} {now : UInt64}

theorem schedule_of_first_eq_none (h : (t.update now).first = none) :
    t.schedule event now = { first := some ⟨event, now⟩, delay := t.delay } := by
  simp only [schedule, h]
  rfl

theorem schedule_of_first_eq_some (h : (t.update now).first = some p) :
    t.schedule event now =
      { first := some p
        second := if event = p.event then none else some ⟨event, later p.start t.delay⟩
        delay := t.delay } := by
  simp only [schedule, h]
  by_cases he : event = p.event
  · rw [if_pos he.symm, if_pos he, ← h]
    rfl
  · rw [if_neg (Ne.symm he), if_neg he, ← h]
    rfl

theorem delay_schedule (t : SwapTimer) (event : SwapEvent) (now : UInt64) :
    (t.schedule event now).delay = t.delay := by
  cases h : (t.update now).first with
  | none => rw [schedule_of_first_eq_none h]
  | some p => rw [schedule_of_first_eq_some h]

theorem first_update_timer (s : Swap) (delay : UInt32) (now : UInt64) :
    ((Swap.timer delay (some s)).update now).first =
      if now < s.turn delay then some ⟨s.first, s.start⟩ else none :=
  filter_isOver ⟨s.first, s.start⟩ delay now

/-- The timer treats an event as its history says: the first phase decides whether a disk change
begins or goes on. -/
theorem schedule_timer (delay : UInt32) (s : Option Swap) (event : SwapEvent) (now : UInt64) :
    (Swap.timer delay s).schedule event now =
      Swap.timer delay (Swap.next delay s (event, now)) := by
  cases s with
  | none =>
    rw [schedule_of_first_eq_none rfl]
    simp [Swap.next, Swap.timer]
  | some s =>
    have hf := first_update_timer s delay now
    by_cases h : now < s.turn delay
    · rw [if_pos h] at hf
      rw [schedule_of_first_eq_some hf, Swap.next, if_neg (UInt64.not_le.mpr h)]
      rfl
    · rw [if_neg h] at hf
      rw [schedule_of_first_eq_none hf, Swap.next, if_pos (UInt64.not_lt.mp h)]
      simp [Swap.timer]

theorem second_update_timer (s : Swap) (delay : UInt32) (now : UInt64) :
    (((Swap.timer delay (some s)).update now).second.filter (fun p => p.start ≤ now)) =
      if s.turn delay ≤ now ∧ s.last ≠ s.first ∧ now < s.finish delay then
        some ⟨s.last, s.turn delay⟩
      else none := by
  by_cases hl : s.last = s.first
  · simp [Swap.timer, update, hl]
  · have hu : ((Swap.timer delay (some s)).update now).second =
        if now < s.finish delay then some ⟨s.last, s.turn delay⟩ else none := by
      simp only [Swap.timer, update, if_neg hl]
      exact filter_isOver ⟨s.last, s.turn delay⟩ delay now
    rw [hu]
    by_cases hn : now < s.finish delay <;> simp [hn, hl, Option.filter_some]

theorem lineOverride_timer (delay : UInt32) (s : Option Swap) (now : UInt64) :
    (Swap.timer delay s).lineOverride now = Swap.lineOverride delay s now := by
  cases s with
  | none => rfl
  | some s =>
    simp only [lineOverride, second_update_timer, first_update_timer, Swap.lineOverride]
    by_cases h : now < s.turn delay
    · rw [if_neg (fun hn => UInt64.not_le.mpr h hn.1), if_pos h, if_pos h]
      rfl
    · have hn : s.turn delay ≤ now := UInt64.not_lt.mp h
      by_cases hs : s.last ≠ s.first ∧ now < s.finish delay
      · rw [if_pos ⟨hn, hs⟩, if_neg h, if_neg h, if_pos hs]
        rfl
      · rw [if_neg (fun h => hs h.2), if_neg h, if_neg h, if_neg hs]

/-- From a tick on, the timer cannot be told from one that holds both phases of the disk change. -/
def Follows (delay : UInt32) (t : SwapTimer) (s : Option Swap) (since : UInt64) : Prop :=
  ∀ now, since ≤ now → t.update now = (Swap.timer delay s).update now

namespace Follows

variable {delay : UInt32} {t : SwapTimer} {s : Option Swap} {since now : UInt64}

theorem new (delay : UInt32) (since : UInt64) : Follows delay { delay := delay } none since :=
  fun _ _ => rfl

theorem update (h : Follows delay t s since) (hn : since ≤ now) :
    Follows delay (t.update now) s now := by
  intro later hl
  rw [update_update t hl]
  exact h later (UInt64.le_trans hn hl)

theorem schedule (h : Follows delay t s since) (event : SwapEvent) (hn : since ≤ now) :
    Follows delay (t.schedule event now) (Swap.next delay s (event, now)) now := by
  intro later _
  rw [← schedule_update, h now hn, schedule_update, schedule_timer]

theorem runCalls (cs : List TimerCall) (h : Follows delay t s since)
    (ho : cs.Pairwise (fun c d => c.tick ≤ d.tick)) (hs : ∀ c ∈ cs, since ≤ c.tick)
    (hn : ∀ c ∈ cs, c.tick ≤ now) (hsn : since ≤ now) :
    (t.runCalls cs).update now =
      (Swap.timer delay ((cs.filterMap (·.event?)).foldl (Swap.next delay) s)).update now := by
  induction cs generalizing t s since with
  | nil => exact h now hsn
  | cons c cs ih =>
    obtain ⟨hlater, hrest⟩ := List.pairwise_cons.mp ho
    have hc : since ≤ c.tick := hs c (by simp)
    have hcn : c.tick ≤ now := hn c (by simp)
    have hcs : ∀ d ∈ cs, d.tick ≤ now := fun d hd => hn d (by simp [hd])
    cases c with
    | schedule event tick => exact ih (h.schedule event hc) hrest hlater hcs hcn
    | update tick => exact ih (h.update hc) hrest hlater hcs hcn
    | lineOverride tick => exact ih (h.update hc) hrest hlater hcs hcn

end Follows

/-- At any tick after a sequence of calls in the order of their ticks, the line is as the events
among them tell. All other calls could have been left out. -/
theorem lineOverride_runCalls (delay : UInt32) (calls : List TimerCall) (now : UInt64)
    (ho : calls.Pairwise (fun c d => c.tick ≤ d.tick)) (hn : ∀ c ∈ calls, c.tick ≤ now) :
    (({ delay := delay } : SwapTimer).runCalls calls).lineOverride now =
      Swap.lineOverride delay (Swap.ofEvents delay (calls.filterMap (·.event?))) now := by
  have h := (Follows.new delay 0).runCalls calls ho (fun c _ => UInt64.zero_le) hn UInt64.zero_le
  rw [← lineOverride_update, h, lineOverride_update, lineOverride_timer]
  rfl

/-- A swap so late that its second phase is cut short by the last tick there is. -/
theorem lineOverride_runCalls_last_ticks :
    let calls : List TimerCall := [.schedule .eject 18446744073709551596,
      .lineOverride 18446744073709551597, .schedule .insert 18446744073709551598,
      .schedule .eject 18446744073709551599, .update 18446744073709551600,
      .schedule .insert 18446744073709551601]
    calls.Pairwise (fun c d => c.tick ≤ d.tick) ∧ (∀ c ∈ calls, c.tick ≤ 18446744073709551614) ∧
      (({ delay := 18 } : SwapTimer).runCalls calls).lineOverride 18446744073709551614 =
        .forceUnprotected := by
  intro calls
  have ho : calls.Pairwise (fun c d => c.tick ≤ d.tick) := by decide
  have hn : ∀ c ∈ calls, c.tick ≤ 18446744073709551614 := by decide
  exact ⟨ho, hn, (lineOverride_runCalls 18 calls 18446744073709551614 ho hn).trans (by decide)⟩

end SwapTimer

end Diskette
