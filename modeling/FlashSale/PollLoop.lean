/-
# The loop of `OutboxPoller`

`start`, `stop` and `schedule` with the timer that they keep, the timers of the event loop,
and the ticks whose promises are pending. What a tick does is in `Poller`, where a worker
has one tick at a time.

A rejected tick goes through `finally`, which schedules the next one, and is then handled
by nobody. `stop` clears the timer that the poller remembers; while a tick is in flight
there is none to clear, and whoever starts the poller then has two loops, as the tick that
ends schedules as well.

`Sound` is what the loop should be: exactly one timer or tick while it runs, no timer
when it has stopped, and no failure that escapes.

* `PollLoop.sound_iff`: which runs keep exactly one timer or tick and absorb what fails.
* `PollLoop.doubled_and_unhandled`: a start during a tick, and a tick that rejects.
-/
import FlashSale.Lib.Run

namespace FlashSale

/-- The fields of an `OutboxPoller`, and what the runtime holds for it: its timers that have
not fired, the number of the next timer, its ticks in flight, and how many rejections
nobody has handled. -/
structure PollLoop where
  running : Bool
  timer : Option Nat
  pending : List Nat
  created : Nat
  inFlight : Nat
  unhandled : Nat
deriving DecidableEq

/-- What can happen to a poller: the calls of its methods, a timer that fires, and a tick
that ends. -/
inductive LoopEvent where
  | start
  | stop
  | fire (timer : Nat)
  | settle (rejected : Bool)
deriving DecidableEq

namespace PollLoop

/-! ### The methods -/

/-- As the constructor leaves it. -/
def initial : PollLoop := ⟨false, none, [], 0, 0, 0⟩

variable (s : PollLoop)

/-- The timer that is set replaces the one that was remembered, which is not cleared. -/
def schedule : PollLoop :=
  if s.running then
    { s with
      timer := some s.created
      pending := s.pending ++ [s.created]
      created := s.created + 1 }
  else s

/-- A second start does not ask whether the loop is running. -/
def start : PollLoop := { s with running := true }.schedule

/-- To clear a timer that has fired does nothing. -/
def stop : PollLoop :=
  match s.timer with
  | some timer => { s with running := false, timer := none, pending := s.pending.erase timer }
  | none => { s with running := false }

/-- The callback of the timer calls `tick`, and does not wait for it. -/
def fire (timer : Nat) : PollLoop :=
  { s with pending := s.pending.erase timer, inFlight := s.inFlight + 1 }

def endTick : PollLoop := { s with inFlight := s.inFlight - 1 }

/-- The end of a tick: its `finally`, which schedules the next one, and then its rejection.
No caller awaits the tick, so the rejection is counted as unhandled. -/
def settle (rejected : Bool) : PollLoop :=
  let next := s.endTick.schedule
  { next with unhandled := next.unhandled + if rejected then 1 else 0 }

def step : LoopEvent → Option PollLoop
  | .start => some s.start
  | .stop => some s.stop
  | .fire timer => if timer ∈ s.pending then some (s.fire timer) else none
  | .settle rejected => if s.inFlight = 0 then none else some (s.settle rejected)

abbrev Run (trace : List (PollLoop × LoopEvent)) (s : PollLoop) : Prop :=
  Lib.Run step initial trace s

/-! ### What the loop is for -/

/-- One timer or one tick while it is running, and no timer while it is not. No rejection is
left unhandled. -/
structure Sound : Prop where
  one : s.inFlight ≤ 1
  alive : s.running = true →
    (s.pending.length = 1 ∧ s.inFlight = 0) ∨ (s.pending.length = 0 ∧ s.inFlight = 1)
  stopped : s.running = false → s.pending = []
  absorbed : s.unhandled = 0

/-- The loop is started when it is at rest, and no tick rejects. -/
def Orderly : LoopEvent → Prop
  | .start => s.running = false ∧ s.inFlight = 0
  | .settle rejected => rejected = false
  | _ => True

instance : DecidablePred s.Orderly := fun
  | .start => inferInstanceAs (Decidable (_ ∧ _))
  | .stop => isTrue trivial
  | .fire _ => isTrue trivial
  | .settle rejected => inferInstanceAs (Decidable (rejected = false))

/-- A tick that ends while the loop is running has the next one scheduled. -/
def Followed (trace : List (PollLoop × LoopEvent)) : Prop :=
  ∀ s s' rejected, (s, .settle rejected) ∈ trace → s.running = true →
    s.step (.settle rejected) = some s' → s'.pending = s.pending ++ [s.created]

variable {s} {s' : PollLoop} {e : LoopEvent} {trace : List (PollLoop × LoopEvent)}

/-! ### Steps -/

theorem schedule_running (running : s.running = true) : s.schedule =
    { s with
      timer := some s.created
      pending := s.pending ++ [s.created]
      created := s.created + 1 } := by
  rw [schedule, if_pos running]

theorem schedule_stopped (stopped : s.running = false) : s.schedule = s := by
  rw [schedule, stopped]
  rfl

theorem settle_running (rejected : Bool) (running : s.running = true) :
    (s.settle rejected).pending = s.pending ++ [s.created] := by
  have running' : s.endTick.running = true := running
  exact congrArg pending (schedule_running running')

theorem followed (trace : List (PollLoop × LoopEvent)) : Followed trace := by
  intro s s' rejected _ running taken
  rw [step] at taken
  split at taken
  · cases taken
  · cases taken
    exact settle_running rejected running

/-- The only timer of a loop that is running is the one that `stop` would clear. -/
def Kept (s : PollLoop) : Prop :=
  ∀ timer, s.running = true → s.inFlight = 0 → s.pending = [timer] → s.timer = some timer

theorem kept_schedule (s : PollLoop) (running : s.running = true) : s.schedule.Kept := by
  intro timer _ _ only
  rw [schedule_running running] at only ⊢
  have only : s.pending ++ [s.created] = [] ++ [timer] := only
  obtain ⟨-, is⟩ := List.append_singleton_inj.mp only
  exact congrArg some is

theorem step_kept (taken : s.step e = some s') : s'.Kept := by
  cases e with
  | start =>
    cases taken
    exact kept_schedule _ rfl
  | stop =>
    cases taken
    intro timer running
    rw [stop] at running
    split at running
    · cases running
    · cases running
  | fire timer =>
    rw [PollLoop.step] at taken
    split at taken
    · cases taken
      intro timer' _ none
      cases none
    · cases taken
  | settle rejected =>
    rw [PollLoop.step] at taken
    split at taken
    · cases taken
    · cases taken
      cases running : s.running with
      | true => exact kept_schedule s.endTick running
      | false =>
        intro timer running'
        have stopped : s.endTick.running = false := running
        have still : (s.settle rejected).running = false := by
          show s.endTick.schedule.running = false
          rw [schedule_stopped stopped, stopped]
        cases still.symm.trans running'

theorem Sound.start_iff (sound : s.Sound) :
    s.start.Sound ↔ s.running = false ∧ s.inFlight = 0 := by
  have started : s.start = { s with
      running := true
      timer := some s.created
      pending := s.pending ++ [s.created]
      created := s.created + 1 } := schedule_running rfl
  rw [started]
  constructor
  · intro sound'
    rcases sound'.alive rfl with ⟨one, none⟩ | ⟨no, -⟩
    · refine ⟨?_, none⟩
      have empty : s.pending.length = 0 := by simpa using one
      cases running : s.running with
      | false => rfl
      | true =>
        rcases sound.alive running with ⟨timer, -⟩ | ⟨-, tick⟩
        · omega
        · have none : s.inFlight = 0 := none
          omega
    · simp at no
  · rintro ⟨stopped, none⟩
    have empty := sound.stopped stopped
    constructor
    · exact sound.one
    · intro _
      exact Or.inl ⟨by simp [empty], none⟩
    · intro running
      cases running
    · exact sound.absorbed

/-- A timer that waits is the only one, and no tick is in flight. -/
theorem Sound.timers (sound : s.Sound) : s.pending = [] ∨
    ∃ timer, s.pending = [timer] ∧ s.running = true ∧ s.inFlight = 0 := by
  cases running : s.running with
  | false => exact .inl (sound.stopped running)
  | true =>
    rcases sound.alive running with ⟨one, none⟩ | ⟨no, -⟩
    · obtain ⟨timer, single⟩ := List.length_eq_one_iff.mp one
      exact .inr ⟨timer, single, rfl, none⟩
    · exact .inl (List.length_eq_zero_iff.mp no)

theorem Sound.stop (sound : s.Sound) (kept : s.Kept) : s.stop.Sound := by
  unfold PollLoop.stop
  cases is : s.timer with
  | none =>
    have empty : s.pending = [] := by
      rcases sound.timers with empty | ⟨only, single, running, none⟩
      · exact empty
      · cases (kept only running none single).symm.trans is
    exact ⟨sound.one, fun running => (nomatch running), fun _ => empty, sound.absorbed⟩
  | some timer =>
    have cleared : s.pending.erase timer = [] := by
      rcases sound.timers with empty | ⟨only, single, running, none⟩
      · rw [empty, List.erase_nil]
      · cases (kept only running none single).symm.trans is
        rw [single, List.erase_cons_head]
    exact ⟨sound.one, fun running => (nomatch running), fun _ => cleared, sound.absorbed⟩

/-- A timer that fires was the only one. -/
theorem Sound.waits (sound : s.Sound) {timer : Nat} (mem : timer ∈ s.pending) :
    s.running = true ∧ s.pending = [timer] ∧ s.inFlight = 0 := by
  rcases sound.timers with empty | ⟨only, single, running, none⟩
  · rw [empty] at mem
    cases mem
  · rw [single] at mem
    cases List.mem_singleton.mp mem
    exact ⟨running, single, none⟩

theorem Sound.fire (sound : s.Sound) {timer : Nat} (mem : timer ∈ s.pending) :
    (s.fire timer).Sound := by
  obtain ⟨running, single, none⟩ := sound.waits mem
  have empty : s.pending.erase timer = [] := by rw [single, List.erase_cons_head]
  have one : s.inFlight + 1 = 1 := by rw [none]
  constructor
  · exact Nat.le_of_eq one
  · intro _
    exact Or.inr ⟨List.length_eq_zero_iff.mpr empty, one⟩
  · intro stopped
    cases running.symm.trans stopped
  · exact sound.absorbed

theorem Sound.settle_iff (sound : s.Sound) (busy : s.inFlight ≠ 0) {rejected : Bool} :
    (s.settle rejected).Sound ↔ rejected = false := by
  have one : s.inFlight = 1 := Nat.le_antisymm sound.one (Nat.pos_of_ne_zero busy)
  have unhandled : (s.settle rejected).unhandled = if rejected then 1 else 0 := by
    have same : s.endTick.schedule.unhandled = s.unhandled := by
      unfold schedule
      split <;> rfl
    show s.endTick.schedule.unhandled + _ = _
    rw [same, sound.absorbed, Nat.zero_add]
  constructor
  · intro sound'
    have none := sound'.absorbed
    rw [unhandled] at none
    cases rejected with
    | false => rfl
    | true => cases none
  · rintro rfl
    have none : s.endTick.inFlight = 0 := by
      show s.inFlight - 1 = 0
      rw [one]
    have empty : s.pending = [] := by
      rcases sound.timers with empty | ⟨_, _, _, idle⟩
      · exact empty
      · exact absurd idle busy
    cases running : s.running with
    | true =>
      have running' : s.endTick.running = true := running
      have is : s.settle false = { s.endTick with
          timer := some s.created
          pending := s.pending ++ [s.created]
          created := s.created + 1 } := by
        unfold settle
        rw [schedule_running running']
        rfl
      rw [is]
      constructor
      · show s.endTick.inFlight ≤ 1
        rw [none]
        exact Nat.zero_le 1
      · intro _
        exact Or.inl ⟨by simp [empty], none⟩
      · intro stopped
        cases running'.symm.trans stopped
      · exact sound.absorbed
    | false =>
      have stopped : s.endTick.running = false := running
      have is : s.settle false = s.endTick := by
        unfold settle
        rw [schedule_stopped stopped]
        rfl
      rw [is]
      constructor
      · show s.endTick.inFlight ≤ 1
        rw [none]
        exact Nat.zero_le 1
      · intro running'
        cases stopped.symm.trans running'
      · intro _
        exact empty
      · exact sound.absorbed

/-- From a sound state that `stop` can clear, the orderly steps are those that lead to one. -/
theorem Sound.step_iff (kept : s.Kept) (sound : s.Sound) (taken : s.step e = some s') :
    s'.Sound ↔ s.Orderly e := by
  cases e with
  | start =>
    cases taken
    exact sound.start_iff
  | stop =>
    cases taken
    exact iff_of_true (sound.stop kept) trivial
  | fire timer =>
    rw [step] at taken
    split at taken
    · rename_i mem
      cases taken
      exact iff_of_true (sound.fire mem) trivial
    · cases taken
  | settle rejected =>
    rw [step] at taken
    split at taken
    · cases taken
    · rename_i busy
      cases taken
      exact sound.settle_iff busy

/-! ### Runs -/

/-- In every order of events, the loop has exactly one timer or tick while it is running, no
timer while it is not, and nothing unhandled, and goes on after each tick, if and only if it
is started only at rest and no tick rejects. -/
theorem sound_iff (run : Run trace s) :
    ((∀ t ∈ Lib.visits trace s, t.Sound) ∧ Followed trace) ↔ ∀ p ∈ trace, p.1.Orderly p.2 := by
  have kept : initial.Kept := fun _ running => (nomatch running)
  have sound : initial.Sound := ⟨Nat.zero_le 1, fun running => (nomatch running), fun _ => rfl, rfl⟩
  rw [and_iff_left (followed trace)]
  exact run.exact kept sound (fun _ _ _ _ taken => step_kept taken)
    fun _ _ _ kept sound taken => Sound.step_iff kept sound taken

/-! ### Three runs -/

/-- Two ticks, and a shutdown during the second one. -/
def polling : List LoopEvent :=
  [.start, .fire 0, .settle false, .fire 1, .stop, .settle false]

/-- A start during a tick. -/
def restarting : List LoopEvent := [.start, .fire 0, .stop, .start, .settle false]

/-- A tick whose transaction fails. -/
def failingTick : List LoopEvent := [.start, .fire 0, .settle true]

theorem polling_runs : (Lib.execute step initial polling).isSome = true := by decide

theorem restarting_runs : Lib.execute step initial restarting =
    some ⟨true, some 2, [1, 2], 3, 0, 0⟩ := by decide

theorem failingTick_runs : Lib.execute step initial failingTick =
    some ⟨true, some 1, [1], 2, 0, 1⟩ := by decide

theorem sound_iff_polling :
    (∀ t ∈ Lib.visits (Lib.traceOf step initial polling)
      ((Lib.execute step initial polling).get polling_runs), t.Sound) ∧
      Followed (Lib.traceOf step initial polling) := by
  have run : Run (Lib.traceOf step initial polling) _ := Lib.Run.of_isSome polling_runs
  exact (sound_iff run).mpr (by decide)

/-- The loop is unsound in two ways. A start while a tick is in flight leaves two timers,
since the tick that ends schedules one as well; and a tick that rejects reaches no
handler. -/
theorem doubled_and_unhandled :
    (∃ s, Run (Lib.traceOf step initial restarting) s ∧ s.pending.length = 2 ∧ ¬ s.Sound) ∧
      ∃ s, Run (Lib.traceOf step initial failingTick) s ∧ s.unhandled = 1 ∧ ¬ s.Sound := by
  constructor
  · refine ⟨_, Lib.Run.of_execute restarting_runs, rfl, fun sound => ?_⟩
    rcases sound.alive rfl with ⟨one, -⟩ | ⟨no, -⟩
    · cases one
    · cases no
  · refine ⟨_, Lib.Run.of_execute failingTick_runs, rfl, fun sound => ?_⟩
    cases sound.absorbed

end PollLoop

end FlashSale
