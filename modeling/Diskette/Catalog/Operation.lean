import Diskette.Catalog.Restore

/-!
# Operations as data

Everything that can be done to a catalog, one step or a whole run at a time.
-/

set_option autoImplicit false

namespace Diskette.Catalog

inductive Operation where
  | add
  | replace (slot : Nat) (name : Option String) (file : Bytes)
  | select (id : DriveId) (slot : Nat)
  | setInserted (id : DriveId) (inserted : Bool)
  | read (id : DriveId) (address : Address) (count : Int)
  | write (id : DriveId) (address : Address) (data : Bytes)
  | lineOverride (id : DriveId)
  | lineSignal (id : DriveId)
  | setWriteProtected (id : DriveId) (on : Bool)
  | setTick (tick : UInt64)
  | advance
  | setPolicy (policy : Policy)
  | setCodec (codec : Codec)
  | loadTitle (name : Option String) (file : Bytes)
  | loadPlaylist (start : Nat) (files : List (Option String × Bytes))
  | clear
  | reinsertAll
  | resetTimers
  | save
  | restore (file : Bytes)

inductive Reply where
  | silent
  | done (result : Except Fault Unit)
  | slot (result : Except Fault Nat)
  | bytes (result : Except Fault Bytes)
  | lineOverride (value : LineOverride)
  | lineSignal (level : Bool)

variable {σ : Type} [SaveStore σ]

def step [Zip.Library] (c : Catalog σ) : Operation → Catalog σ × Reply
  | .add => c.add.map id .slot
  | .replace slot name file => (c.replace slot name file).map id .done
  | .select drive slot => (c.select drive slot).map id .done
  | .setInserted drive inserted => (c.setInserted drive inserted).map id .done
  | .read drive address count => (c, .bytes (c.read drive address count))
  | .write drive address data => (c.write drive address data).map id .done
  | .lineOverride drive => (c.lineOverride drive).map id .lineOverride
  | .lineSignal drive => (c.lineSignal drive).map id .lineSignal
  | .setWriteProtected drive on => (c.setWriteProtected drive on, .silent)
  | .setTick tick => (c.setTick tick, .silent)
  | .advance => (c.advance, .silent)
  | .setPolicy policy => (c.setPolicy policy, .silent)
  | .setCodec codec => (c.setCodec codec, .silent)
  | .loadTitle name file => (c.loadTitle name file).map id .done
  | .loadPlaylist start files => (c.loadPlaylist start files).map id .done
  | .clear => (c.clear, .silent)
  | .reinsertAll => c.reinsertAll.map id .done
  | .resetTimers => (c.resetTimers, .silent)
  | .save => (c, .bytes c.save)
  | .restore file => (c.restore file).map id .done

def run [Zip.Library] (c : Catalog σ) : List Operation → Catalog σ
  | [] => c
  | op :: ops => run (c.step op).1 ops

/-- What every operation keeps holds after every run. -/
theorem run_keeps [Zip.Library] (I : Catalog σ → Prop) (keeps : ∀ c op, I c → I (step c op).1)
    (c : Catalog σ) (ops : List Operation) (h : I c) : I (c.run ops) := by
  induction ops generalizing c with
  | nil => exact h
  | cons op ops ih => exact ih _ (keeps c op h)

end Diskette.Catalog
