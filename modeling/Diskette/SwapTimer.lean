/-!
# Disk changes on the write-protect line

A disk that leaves or enters a drive covers the write-protect sensor on its way: the line reads as
protected while a disk is out and as unprotected while one slides in. A change of disks that
happens at once is played back as two phases of the same length.
-/

set_option autoImplicit false

namespace Diskette

inductive SwapEvent where
  | insert
  | eject
  deriving DecidableEq, Repr

inductive LineOverride where
  | none
  | forceProtected
  | forceUnprotected
  deriving DecidableEq, Repr

structure Phase where
  event : SwapEvent
  start : UInt64
  deriving DecidableEq, Repr

/-- The first event of a disk change and the latest one after it, if that differs. Events in
between leave no trace. -/
structure SwapTimer where
  first : Option Phase := none
  second : Option Phase := none
  delay : UInt32 := 18
  deriving DecidableEq, Repr

namespace SwapTimer

def later (tick : UInt64) (delay : UInt32) : UInt64 :=
  UInt64.ofNat (min (tick.toNat + delay.toNat) (UInt64.size - 1))

end SwapTimer

namespace Phase

def isOver (p : Phase) (delay : UInt32) (now : UInt64) : Bool :=
  SwapTimer.later p.start delay ≤ now

def lineOverride (p : Phase) : LineOverride :=
  match p.event with
  | .insert => .forceUnprotected
  | .eject => .forceProtected

end Phase

namespace SwapTimer

def isIdle (t : SwapTimer) : Bool := t.first.isNone && t.second.isNone

def update (t : SwapTimer) (now : UInt64) : SwapTimer :=
  { t with
    first := t.first.filter (fun p => !p.isOver t.delay now)
    second := t.second.filter (fun p => !p.isOver t.delay now) }

/-- Record an event. The first event of a change starts its phase at once; a different one after it
waits until that phase is over; the same one again takes back what waits. -/
def schedule (t : SwapTimer) (event : SwapEvent) (now : UInt64) : SwapTimer :=
  let t := t.update now
  match t.first with
  | none => { t with first := some ⟨event, now⟩, second := none }
  | some p =>
    if p.event = event then { t with second := none }
    else { t with second := some ⟨event, later p.start t.delay⟩ }

/-- What the line is forced to; a second phase that has started goes before the first. -/
def lineOverride (t : SwapTimer) (now : UInt64) : LineOverride :=
  let t := t.update now
  match t.second.filter (fun p => p.start ≤ now), t.first with
  | some p, _ => p.lineOverride
  | none, some p => p.lineOverride
  | none, none => .none

def setDelay (t : SwapTimer) (delay : UInt32) : SwapTimer := { t with delay := delay }

def reset (t : SwapTimer) : SwapTimer := { t with first := none, second := none }

end SwapTimer

end Diskette
