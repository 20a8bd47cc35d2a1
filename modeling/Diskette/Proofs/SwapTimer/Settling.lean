import Diskette.Proofs.SwapTimer.History

/-!
# A line that settles in the middle of a disk change

The second phase of a disk change starts where the first one was to end when the last event came.
The host may change the length of a phase after that. If it makes phases shorter, the first one is
over before the second one starts: a program that asks for the line in between finds it settled, and
finds it forced again later.
-/

set_option autoImplicit false

namespace Diskette

/-- A call to a timer whose host may change the length of a phase. -/
inductive HostCall where
  | schedule (event : SwapEvent) (now : UInt64)
  | lineOverride (now : UInt64)
  | setDelay (delay : UInt32)
  deriving DecidableEq, Repr

structure Poll where
  tick : UInt64
  delay : UInt32
  deriving DecidableEq, Repr

namespace HostCall

def tick? : HostCall → Option UInt64
  | schedule _ now | lineOverride now => some now
  | setDelay _ => none

def isEvent : HostCall → Bool
  | schedule _ _ => true
  | lineOverride _ | setDelay _ => false

def polls : UInt32 → List HostCall → List Poll
  | _, [] => []
  | delay, schedule _ _ :: calls => polls delay calls
  | delay, lineOverride now :: calls => ⟨now, delay⟩ :: polls delay calls
  | _, setDelay delay :: calls => polls delay calls

theorem tick_polls (delay : UInt32) {calls : List HostCall}
    (h : ∀ c ∈ calls, c.isEvent = false) :
    (polls delay calls).map (·.tick) = calls.filterMap tick? := by
  induction calls generalizing delay with
  | nil => rfl
  | cons c calls ih =>
    have hrest : ∀ c ∈ calls, c.isEvent = false := fun d hd => h d (by simp [hd])
    cases c with
    | schedule event now => cases h (.schedule event now) (by simp)
    | lineOverride now =>
      rw [polls, List.map_cons, ih delay hrest]
      rfl
    | setDelay d =>
      rw [polls, ih d hrest]
      rfl

theorem delay_of_mem_polls {delay : UInt32} {calls : List HostCall} {p : Poll}
    (h : p ∈ polls delay calls) : p.delay = delay ∨ setDelay p.delay ∈ calls := by
  induction calls generalizing delay with
  | nil => cases h
  | cons c calls ih =>
    cases c with
    | schedule event now =>
      exact (ih h).imp_right fun hs => List.mem_cons_of_mem _ hs
    | lineOverride now =>
      rcases List.mem_cons.mp h with rfl | h
      · exact .inl rfl
      · exact (ih h).imp_right fun hs => List.mem_cons_of_mem _ hs
    | setDelay d =>
      right
      rcases ih h with hd | hs
      · rw [hd]
        exact List.mem_cons_self
      · exact List.mem_cons_of_mem _ hs

end HostCall

def Phase.isDropped (p : Phase) (seen : List Poll) : Bool :=
  seen.any fun q => p.isOver q.delay q.tick

namespace SwapTimer

def hostCall (t : SwapTimer) : HostCall → SwapTimer
  | .schedule event now => t.schedule event now
  | .lineOverride now => t.update now
  | .setDelay delay => t.setDelay delay

def runHostCalls : SwapTimer → List HostCall → SwapTimer
  | t, [] => t
  | t, c :: cs => runHostCalls (t.hostCall c) cs

def answers : SwapTimer → List HostCall → List LineOverride
  | _, [] => []
  | t, .schedule event now :: cs => answers (t.schedule event now) cs
  | t, .lineOverride now :: cs => t.lineOverride now :: answers (t.update now) cs
  | t, .setDelay delay :: cs => answers (t.setDelay delay) cs

/-- Once the line is found settled it is found settled ever after. -/
def Settles (line : List LineOverride) : Prop :=
  line.Pairwise fun x y => x = .none → y = .none

theorem settles_iff_getElem? {answers : List LineOverride} :
    Settles answers ↔ ∀ (i j : Nat) (x : LineOverride), i < j → answers[i]? = some .none →
      answers[j]? = some x → x = .none := by
  rw [Settles, List.pairwise_iff_getElem]
  constructor
  · intro h i j x hij hi hj
    obtain ⟨hli, hi⟩ := List.getElem?_eq_some_iff.mp hi
    obtain ⟨hlj, hj⟩ := List.getElem?_eq_some_iff.mp hj
    exact hj ▸ h i j hli hlj hij hi
  · intro h i j hi hj hij hnone
    exact h i j _ hij (List.getElem?_eq_some_iff.mpr ⟨hi, hnone⟩) (List.getElem?_eq_getElem hj)

def lineAfter (t : SwapTimer) (seen : List Poll) (now : UInt64) : LineOverride :=
  match (t.second.filter fun p => !p.isDropped seen).filter fun p => p.start ≤ now,
      t.first.filter fun p => !p.isDropped seen with
  | some p, _ => p.lineOverride
  | none, some p => p.lineOverride
  | none, none => .none

theorem filter_isDropped_cons (p : Option Phase) (q : Poll) (seen : List Poll) :
    (p.filter fun r => !r.isOver q.delay q.tick).filter (fun r => !r.isDropped seen) =
      p.filter fun r => !r.isDropped (q :: seen) := by
  simp only [Option.filter_filter, Phase.isDropped, List.any_cons, Bool.not_or]

theorem lineAfter_update (t : SwapTimer) (now : UInt64) (seen : List Poll) (tick : UInt64) :
    (t.update now).lineAfter seen tick = t.lineAfter (⟨now, t.delay⟩ :: seen) tick := by
  simp only [lineAfter, ← filter_isDropped_cons _ ⟨now, t.delay⟩]
  rfl

theorem lineOverride_eq_lineAfter (t : SwapTimer) (now : UInt64) :
    t.lineOverride now = t.lineAfter [⟨now, t.delay⟩] now := by
  simp only [lineAfter, Phase.isDropped, List.any_cons, List.any_nil, Bool.or_false]
  rfl

/-- The answers depend only on when the line has been asked for, and how long a phase was each
time. -/
theorem getElem?_answers (t : SwapTimer) {calls : List HostCall}
    (h : ∀ c ∈ calls, c.isEvent = false) (k : Nat) :
    (t.answers calls)[k]? = ((HostCall.polls t.delay calls)[k]?).map fun p =>
      t.lineAfter ((HostCall.polls t.delay calls).take (k + 1)) p.tick := by
  induction calls generalizing t k with
  | nil => rfl
  | cons c calls ih =>
    have hrest : ∀ c ∈ calls, c.isEvent = false := fun d hd => h d (by simp [hd])
    cases c with
    | schedule event now => cases h (.schedule event now) (by simp)
    | lineOverride now =>
      rw [answers, HostCall.polls]
      cases k with
      | zero => exact congrArg some (t.lineOverride_eq_lineAfter now)
      | succ k =>
        rw [List.getElem?_cons_succ, List.getElem?_cons_succ, List.take_succ_cons,
          ih (t.update now) hrest k]
        simp only [lineAfter_update]
        rfl
    | setDelay d => exact ih (t.setDelay d) hrest k

theorem lineOverride_ne_none (p : Phase) : p.lineOverride ≠ .none := by
  obtain ⟨event, start⟩ := p
  cases event <;> simp [Phase.lineOverride]

theorem lineAfter_eq_none_iff {t : SwapTimer} {seen : List Poll} {now : UInt64} :
    t.lineAfter seen now = .none ↔
      (∀ p, t.second = some p → p.isDropped seen = true ∨ now < p.start) ∧
      ∀ p, t.first = some p → p.isDropped seen = true := by
  have hsecond : ((t.second.filter fun p => !p.isDropped seen).filter fun p => p.start ≤ now) = none ↔
      ∀ p, t.second = some p → p.isDropped seen = true ∨ now < p.start := by
    cases t.second with
    | none => simp
    | some p => cases hd : p.isDropped seen <;> simp [Option.filter_some, hd]
  have hfirst : (t.first.filter fun p => !p.isDropped seen) = none ↔
      ∀ p, t.first = some p → p.isDropped seen = true := by
    cases t.first with
    | none => simp
    | some p => simp [Option.filter_some]
  rw [← hsecond, ← hfirst, lineAfter]
  split
  · rename_i p _ hp
    simp [hp, lineOverride_ne_none]
  · rename_i p hp hq
    simp [hp, hq, lineOverride_ne_none]
  · rename_i hp hq
    simp [hp, hq]

/-- The line is asked for when the first phase is over and the second one has not started, and again
when the second one has started and has not been found to be over. -/
def HasGap (first second : Phase) (polls : List Poll) : Prop :=
  ∃ (i j : Nat) (p q : Poll), i < j ∧ polls[i]? = some p ∧ polls[j]? = some q ∧
    first.isOver p.delay p.tick = true ∧ p.tick < second.start ∧ second.start ≤ q.tick ∧
    second.isDropped (polls.take (j + 1)) = false

theorem isDropped_take_iff {p : Phase} {polls : List Poll} {n : Nat} :
    p.isDropped (polls.take n) = true ↔
      ∃ (k : Nat) (q : Poll), k < n ∧ polls[k]? = some q ∧ p.isOver q.delay q.tick = true := by
  rw [Phase.isDropped, List.any_eq_true]
  constructor
  · rintro ⟨q, hq, ho⟩
    obtain ⟨k, hk⟩ := List.mem_iff_getElem?.mp hq
    rw [List.getElem?_take] at hk
    split at hk
    · rename_i hlt
      exact ⟨k, q, hlt, hk, ho⟩
    · cases hk
  · rintro ⟨k, q, hlt, hk, ho⟩
    exact ⟨q, List.mem_iff_getElem?.mpr ⟨k, by rw [List.getElem?_take_of_lt hlt, hk]⟩, ho⟩

theorem isDropped_take_mono {p : Phase} {polls : List Poll} {m n : Nat} (hm : m ≤ n)
    (h : p.isDropped (polls.take m) = true) : p.isDropped (polls.take n) = true := by
  obtain ⟨k, q, hk, hq, ho⟩ := isDropped_take_iff.mp h
  exact isDropped_take_iff.mpr ⟨k, q, Nat.lt_of_lt_of_le hk hm, hq, ho⟩

theorem hasGap_of_dropped {first second : Phase} {polls : List Poll}
    (ho : polls.Pairwise fun p q => p.tick ≤ q.tick) {i j : Nat} {p q : Poll} (hij : i < j)
    (hp : polls[i]? = some p) (hq : polls[j]? = some q)
    (hdropped : first.isDropped (polls.take (i + 1)) = true)
    (hwait : second.isDropped (polls.take (i + 1)) = true ∨ p.tick < second.start)
    (hstart : second.start ≤ q.tick) (hkept : second.isDropped (polls.take (j + 1)) = false) :
    HasGap first second polls := by
  obtain ⟨k, r, hk, hr, hover⟩ := isDropped_take_iff.mp hdropped
  have hwait : p.tick < second.start := by
    refine hwait.resolve_left fun hd => ?_
    rw [isDropped_take_mono (by omega) hd] at hkept
    cases hkept
  have hle : r.tick ≤ p.tick := by
    obtain ⟨hki, rfl⟩ := List.getElem?_eq_some_iff.mp hr
    obtain ⟨hii, rfl⟩ := List.getElem?_eq_some_iff.mp hp
    rcases Nat.lt_or_eq_of_le (Nat.le_of_lt_succ hk) with hlt | heq
    · exact List.pairwise_iff_getElem.mp ho k i hki hii hlt
    · subst heq
      exact UInt64.le_refl _
  exact ⟨k, j, r, q, by omega, hr, hq, hover, UInt64.lt_of_le_of_lt hle hwait, hstart, hkept⟩

/-- A line that settles and is forced again has been asked for between the phases. -/
theorem settles_answers_iff {t : SwapTimer} {calls : List HostCall}
    (h : ∀ c ∈ calls, c.isEvent = false)
    (ho : (HostCall.polls t.delay calls).Pairwise fun p q => p.tick ≤ q.tick) {first : Phase}
    (hf : t.first = some first) :
    Settles (t.answers calls) ↔
      ∀ second, t.second = some second → ¬HasGap first second (HostCall.polls t.delay calls) := by
  rw [settles_iff_getElem?]
  generalize hpolls : HostCall.polls t.delay calls = polls at ho ⊢
  have hanswer : ∀ k, (t.answers calls)[k]? =
      (polls[k]?).map fun p => t.lineAfter (polls.take (k + 1)) p.tick := by
    intro k
    rw [t.getElem?_answers h k, hpolls]
  constructor
  · rintro hsettles second hs ⟨i, j, p, q, hij, hp, hq, hover, hwait, hstart, hkept⟩
    have hnone : t.lineAfter (polls.take (i + 1)) p.tick = .none := by
      rw [lineAfter_eq_none_iff, hs, hf]
      constructor
      · rintro _ ⟨⟩
        exact .inr hwait
      · rintro _ ⟨⟩
        exact isDropped_take_iff.mpr ⟨i, p, Nat.lt_succ_self i, hp, hover⟩
    have hforced := hsettles i j _ hij (by rw [hanswer, hp, Option.map_some, hnone])
      (by rw [hanswer, hq, Option.map_some])
    rcases (lineAfter_eq_none_iff.mp hforced).1 second hs with hdropped | hlate
    · rw [hkept] at hdropped
      cases hdropped
    · exact UInt64.not_lt.mpr hstart hlate
  · intro hgap i j x hij hi hj
    rw [hanswer] at hi hj
    obtain ⟨p, hp, hpnone⟩ := Option.map_eq_some_iff.mp hi
    obtain ⟨q, hq, rfl⟩ := Option.map_eq_some_iff.mp hj
    obtain ⟨hsecond, hfirst⟩ := lineAfter_eq_none_iff.mp hpnone
    have hdropped := hfirst first hf
    rw [lineAfter_eq_none_iff]
    constructor
    · intro second hs
      cases hkept : second.isDropped (polls.take (j + 1)) with
      | true => exact .inl rfl
      | false =>
        right
        apply UInt64.not_le.mp
        intro hstart
        exact hgap second hs
          (hasGap_of_dropped ho hij hp hq hdropped (hsecond second hs) hstart hkept)
    · intro p' hp'
      cases hf.symm.trans hp'
      exact isDropped_take_mono (by omega) hdropped

theorem exists_first_schedule (t : SwapTimer) (event : SwapEvent) (now : UInt64) :
    ∃ first, (t.schedule event now).first = some first ∧
      ∀ second, (t.schedule event now).second = some second → second.event ≠ first.event ∧
        second.start = later first.start (t.schedule event now).delay := by
  cases hf : (t.update now).first with
  | none =>
    rw [schedule_of_first_eq_none hf]
    refine ⟨_, rfl, ?_⟩
    rintro _ ⟨⟩
  | some p =>
    rw [schedule_of_first_eq_some hf]
    refine ⟨p, rfl, ?_⟩
    intro second hs
    by_cases he : event = p.event
    · rw [if_pos he] at hs
      cases hs
    · rw [if_neg he] at hs
      cases hs
      exact ⟨he, rfl⟩

theorem later_le_later (tick : UInt64) {d e : UInt32} (h : d ≤ e) : later tick d ≤ later tick e := by
  have h : d.toNat ≤ e.toNat := h
  have hsize : UInt64.size = 18446744073709551616 := rfl
  rw [UInt64.le_iff_toNat_le, later, later, UInt64.toNat_ofNat_of_lt' (by omega),
    UInt64.toNat_ofNat_of_lt' (by omega)]
  omega

theorem not_hasGap {first second : Phase} {delay : UInt32} {polls : List Poll}
    (hs : second.start = later first.start delay) (hd : ∀ p ∈ polls, delay ≤ p.delay) :
    ¬HasGap first second polls := by
  rintro ⟨i, -, p, -, -, hp, -, hover, hwait, -, -⟩
  have hover : later first.start p.delay ≤ p.tick := of_decide_eq_true hover
  have hle := later_le_later first.start (hd p (List.mem_of_getElem? hp))
  rw [hs] at hwait
  exact UInt64.not_lt.mpr (UInt64.le_trans hle hover) hwait

/-- After the last event of a run the line may settle and be forced again, but only through a gap
between the two phases: that takes a first phase that is found to be over before the tick at which
it was to end when the event came, and which the second one still waits for. There is no gap as long
as no length of a phase after the event is less than the one at the event. -/
theorem settles_after_event (delay : UInt32) (before : List HostCall) (event : SwapEvent)
    (now : UInt64) (after : List HostCall) (hs : ∀ c ∈ after, c.isEvent = false)
    (ho : (after.filterMap HostCall.tick?).Pairwise (· ≤ ·)) :
    let t := (({ delay := delay } : SwapTimer).runHostCalls before).schedule event now
    ∃ first, t.first = some first ∧
      (∀ second, t.second = some second →
        second.event ≠ first.event ∧ second.start = later first.start t.delay) ∧
      (Settles (t.answers after) ↔ ∀ second, t.second = some second →
        ¬HasGap first second (HostCall.polls t.delay after)) ∧
      ((∀ d, .setDelay d ∈ after → t.delay ≤ d) → Settles (t.answers after)) := by
  intro t
  obtain ⟨first, hf, hsecond⟩ := exists_first_schedule
    (({ delay := delay } : SwapTimer).runHostCalls before) event now
  have hordered : (HostCall.polls t.delay after).Pairwise fun p q => p.tick ≤ q.tick := by
    rwa [← HostCall.tick_polls t.delay hs, List.pairwise_map] at ho
  have hiff := settles_answers_iff hs hordered hf
  refine ⟨first, hf, hsecond, hiff, ?_⟩
  intro hd
  rw [hiff]
  intro second hsec
  apply not_hasGap (hsecond second hsec).2
  intro p hp
  rcases HostCall.delay_of_mem_polls hp with he | hm
  · exact UInt32.le_of_eq he.symm
  · exact hd p.delay hm

/-- Phases that get longer while a disk is swapped: the second one starts when it was to start. -/
theorem settles_after_event_longer :
    let t := (({} : SwapTimer).runHostCalls [.schedule .eject 100]).schedule .insert 101
    let after : List HostCall := [.lineOverride 110, .setDelay 30, .lineOverride 118,
      .lineOverride 147, .lineOverride 148]
    (∀ c ∈ after, c.isEvent = false) ∧ (after.filterMap HostCall.tick?).Pairwise (· ≤ ·) ∧
      t.answers after = [.forceProtected, .forceUnprotected, .forceUnprotected, .none] ∧
      Settles (t.answers after) := by
  intro t after
  have hs : ∀ c ∈ after, c.isEvent = false := by decide
  have ho : (after.filterMap HostCall.tick?).Pairwise (· ≤ ·) := by decide
  obtain ⟨-, -, -, -, hlonger⟩ :=
    settles_after_event 18 [.schedule .eject 100] .insert 101 after hs ho
  refine ⟨hs, ho, by decide, hlonger ?_⟩
  intro d hd
  have hd : d = 30 := by simpa [after] using hd
  subst hd
  decide

/-- Phases that get shorter while a disk is swapped: the line settles for thirteen ticks. -/
theorem not_settles_shorter :
    let t := (({} : SwapTimer).runHostCalls [.schedule .eject 100]).schedule .insert 101
    let after : List HostCall := [.setDelay 5, .lineOverride 105, .lineOverride 118]
    (∀ c ∈ after, c.isEvent = false) ∧ (after.filterMap HostCall.tick?).Pairwise (· ≤ ·) ∧
      t.answers after = [.none, .forceUnprotected] ∧ ¬Settles (t.answers after) := by
  refine ⟨by decide, by decide, by decide, ?_⟩
  intro h
  exact absurd (settles_iff_getElem?.mp h 0 1 .forceUnprotected (by decide) (by decide) (by decide))
    (by decide)

end SwapTimer

end Diskette
