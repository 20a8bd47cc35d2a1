/-!
# Host policy

What the host lets the drives do. It may be changed while disks are in them.
-/

set_option autoImplicit false

namespace Diskette

structure Policy where
  writeProtection : Bool := false
  /-- Store changed disks when they are ejected, and prefer saves over files. -/
  saveEnabled : Bool := true
  driveBEnabled : Bool := true
  /-- Keep the changes of disks that a restored snapshot throws out. -/
  persistOnRestore : Bool := false
  /-- The length of each phase of a disk change, in ticks; zero leaves out the phases. -/
  delay : UInt32 := 18
  deriving DecidableEq, Repr

end Diskette
