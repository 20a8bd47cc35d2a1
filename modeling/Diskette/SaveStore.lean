import Diskette.Fault
import Std.Data.ExtTreeMap

/-!
# Save stores

Changed disks are never written over the files they came from. A save store keeps them by the name
of their image, and a save is preferred over the file when an image of that name is loaded again.
-/

set_option autoImplicit false

namespace Diskette

class SaveStore (σ : Type) where
  load : σ → String → Option Bytes
  /-- Keep a save, in place of any earlier one of that name. A store that fails may change too. -/
  store : σ → String → Bytes → σ × Except Fault Unit
  holds : σ → String → Bool := fun s name => (load s name).isSome

structure MemoryStore where
  saves : Std.ExtTreeMap String Bytes := ∅
  isReadOnly : Bool := false

namespace MemoryStore

def size (s : MemoryStore) : Nat := s.saves.size

def store (s : MemoryStore) (name : String) (data : Bytes) : MemoryStore × Except Fault Unit :=
  if s.isReadOnly then (s, .error (.persist (.readOnly name)))
  else ({ s with saves := s.saves.insert name data }, .ok ())

instance : SaveStore MemoryStore where
  load s name := s.saves[name]?
  store := store
  holds s name := s.saves.contains name

end MemoryStore

end Diskette
