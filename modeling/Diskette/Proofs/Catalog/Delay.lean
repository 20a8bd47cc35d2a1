import Diskette.Proofs.Catalog.Change

/-!
# The length of a phase

Each drive has a timer of its own, with its own idea of how long a phase lasts. Only a change of the
policy touches that, and it does so in both drives. So the timers always go by the policy, after a
restored snapshot too.
-/

set_option autoImplicit false

namespace Diskette.Catalog

variable {σ : Type}

def delay (c : Catalog σ) (id : DriveId) : UInt32 := (c.drive id).timer.delay

theorem delay_setDrive (c : Catalog σ) {id : DriveId} {d : Drive} (h : d.timer.delay = c.delay id) :
    (c.setDrive id d).delay = c.delay := by
  funext j
  rw [delay, drive_setDrive]
  split
  · rename_i hj
    rw [h, hj]
  · rfl

@[simp]
theorem delay_lineOverride (c : Catalog σ) (id : DriveId) :
    (c.lineOverride id).1.delay = c.delay :=
  c.delay_setDrive rfl

@[simp]
theorem delay_lineSignal (c : Catalog σ) (id : DriveId) : (c.lineSignal id).1.delay = c.delay := by
  unfold lineSignal
  dsimp only
  split <;> exact delay_lineOverride c id

theorem delay_write (c : Catalog σ) (id : DriveId) (a : Address) (data : Bytes) :
    (c.write id a data).1.delay = c.delay := by
  obtain ⟨d, timer, p, rfl, ht, -, h⟩ := write_eq c id a data
  rw [h]
  split
  · rename_i e he
    obtain ⟨-, i, -, -, -, rfl⟩ := Drive.write_eq_ok he
    exact c.delay_setDrive ht.delay
  · exact c.delay_setDrive ht.delay

@[simp]
theorem delay_add (c : Catalog σ) : c.add.1.delay = c.delay := by
  unfold add
  split <;> rfl

theorem delay_resetTimers (c : Catalog σ) : c.resetTimers.delay = c.delay := by
  funext id
  cases id <;> rfl

theorem delay_setPolicy (c : Catalog σ) (policy : Policy) (id : DriveId) :
    (c.setPolicy policy).delay id = policy.delay := by
  cases id <;> rfl

variable [SaveStore σ]

@[simp]
theorem delay_eject (c : Catalog σ) (id : DriveId) (keep : Bool) :
    (c.eject id keep).delay = c.delay := by
  funext j
  rw [delay, drive_eject]
  split
  · rename_i h
    rw [h.1]
    exact SwapTimer.delay_schedule _ .eject c.tick
  · rfl

@[simp]
theorem delay_ejectFrom (c : Catalog σ) (slot : Nat) (id : DriveId) :
    (c.ejectFrom slot id).delay = c.delay := by
  unfold ejectFrom
  split <;> simp

@[simp]
theorem delay_insert (c : Catalog σ) (id : DriveId) : (c.insert id).1.delay = c.delay := by
  unfold insert
  split
  · rfl
  · split
    · rfl
    · rename_i slot _
      dsimp only
      split
      · exact delay_ejectFrom c slot id.other
      · split
        · exact delay_ejectFrom c slot id.other
        · rw [delay_setDrive, delay_ejectFrom]
          exact SwapTimer.delay_schedule _ .insert _

@[simp]
theorem delay_setInserted (c : Catalog σ) (id : DriveId) (inserted : Bool) :
    (c.setInserted id inserted).1.delay = c.delay := by
  unfold setInserted
  split <;> simp

theorem delay_point (c : Catalog σ) (id : DriveId) (slot : Option Nat) :
    ((c.eject id true).setDrive id { (c.eject id true).drive id with slot := slot }).delay =
      c.delay := by
  rw [delay_setDrive, delay_eject]
  rfl

@[simp]
theorem delay_select (c : Catalog σ) (id : DriveId) (slot : Nat) :
    (c.select id slot).1.delay = c.delay := by
  unfold select
  split
  · rfl
  · split
    · rfl
    · exact delay_point c id (some slot)

@[simp]
theorem delay_replace [Zip.Library] (c : Catalog σ) (slot : Nat) (name : Option String)
    (file : Bytes) :
    (c.replace slot name file).1.delay = c.delay := by
  have hejected : ((c.ejectFrom slot .a).ejectFrom slot .b).delay = c.delay := by simp
  unfold replace
  split
  · rfl
  · dsimp only
    split <;> exact hejected

@[simp]
theorem delay_reinsert (c : Catalog σ) (id : DriveId) : (c.reinsert id).1.delay = c.delay := by
  unfold reinsert
  split <;> simp

theorem delay_reinsertAll [Zip.Library] (c : Catalog σ) : c.reinsertAll.1.delay = c.delay := by
  rw [reinsertAll_fst]
  split <;> simp

@[simp]
theorem delay_unload (c : Catalog σ) (id : DriveId) : (c.unload id).delay = c.delay :=
  delay_point c id none

@[simp]
theorem delay_clear (c : Catalog σ) : c.clear.delay = c.delay :=
  (delay_unload _ .b).trans (delay_unload c .a)

omit [SaveStore σ] in
theorem delay_andThen {α β : Type} {o : Outcome σ α} {next : Catalog σ → α → Outcome σ β}
    (hn : ∀ c x, (next c x).1.delay = c.delay) : (o.andThen next).1.delay = o.1.delay := by
  obtain ⟨c, r⟩ := o
  cases r with
  | ok x => exact hn c x
  | error fault => rfl

theorem delay_loadTitle [Zip.Library] (c : Catalog σ) (name : Option String) (file : Bytes) :
    (c.loadTitle name file).1.delay = c.delay := by
  unfold loadTitle
  rw [delay_andThen, delay_add, delay_clear]
  intro d slot
  rw [delay_andThen, delay_replace]
  simp [delay_andThen]

@[simp]
theorem delay_addAll [Zip.Library] (files : List (Option String × Bytes)) (c : Catalog σ) :
    (c.addAll files).1.delay = c.delay := by
  induction files generalizing c with
  | nil => rfl
  | cons file files ih => simp [addAll, delay_andThen, ih]

@[simp]
theorem delay_insertSecond (c : Catalog σ) (first : Nat) :
    (c.insertSecond first).1.delay = c.delay := by
  unfold insertSecond
  split
  · simp [delay_andThen]
  · rfl

theorem delay_loadPlaylist [Zip.Library] (c : Catalog σ) (start : Nat)
    (files : List (Option String × Bytes)) :
    (c.loadPlaylist start files).1.delay = c.delay := by
  unfold loadPlaylist
  rw [delay_andThen, delay_addAll, delay_clear]
  intro d _
  split
  · rfl
  · simp [delay_andThen]

@[simp]
theorem delay_restoreDrive (c : Catalog σ) (id : DriveId) (s : DriveState) (slot : Option Nat) :
    (c.restoreDrive id s slot).delay = c.delay := by
  unfold restoreDrive
  dsimp only
  split <;> exact c.delay_setDrive rfl

theorem delay_restore (c : Catalog σ) (file : Bytes) : (c.restore file).1.delay = c.delay := by
  unfold restore
  split
  · rename_i s _
    simp only [restoreState, delay_restoreDrive]
    exact (delay_eject _ .b _).trans (delay_eject c .a _)
  · rfl

theorem delay_step [Zip.Library] {op : Operation} (h : ∀ policy, op ≠ .setPolicy policy)
    (c : Catalog σ) :
    (c.step op).1.delay = c.delay := by
  cases op with
  | add => exact delay_add c
  | replace slot name file => exact delay_replace c slot name file
  | select id slot => exact delay_select c id slot
  | setInserted id inserted => exact delay_setInserted c id inserted
  | read id a count => rfl
  | write id a data => exact delay_write c id a data
  | lineOverride id => exact delay_lineOverride c id
  | lineSignal id => exact delay_lineSignal c id
  | setWriteProtected id on => exact delay_setDrive c rfl
  | setTick tick => rfl
  | advance => rfl
  | setPolicy policy => exact absurd rfl (h policy)
  | setCodec codec => rfl
  | loadTitle name file => exact delay_loadTitle c name file
  | loadPlaylist start files => exact delay_loadPlaylist c start files
  | clear => exact delay_clear c
  | reinsertAll => exact delay_reinsertAll c
  | resetTimers => exact delay_resetTimers c
  | save => rfl
  | restore file => exact delay_restore c file

/-- Both timers go by the policy. -/
def Timed (c : Catalog σ) : Prop := ∀ id, c.delay id = c.policy.delay

omit [SaveStore σ] in
theorem Timed.new (policy : Policy) (store : σ) : (Catalog.new policy store).Timed := by
  intro id
  cases id <;> rfl

theorem Timed.step [Zip.Library] {c : Catalog σ} (h : c.Timed) (op : Operation) :
    (c.step op).1.Timed := by
  by_cases hp : ∃ policy, op = .setPolicy policy
  · obtain ⟨policy, rfl⟩ := hp
    exact delay_setPolicy c policy
  · have hp : ∀ policy, op ≠ .setPolicy policy := not_exists.mp hp
    intro id
    rw [delay_step hp, (moves_step c op).policy_eq hp]
    exact h id

theorem Timed.run [Zip.Library] {c : Catalog σ} (h : c.Timed) (ops : List Operation) :
    (c.run ops).Timed :=
  run_keeps Timed (fun _ op h => h.step op) c ops h

end Diskette.Catalog
