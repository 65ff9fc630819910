import Chip8.Proofs.ControllerCycle

/-!
A run on a script of snapshots in closed form. Where the script asks for the end and how often it
has switched the pause by then tells which cycles are polled, shown and active. The machine has
gone through the operations of the polled snapshots, and every counter of the controller is a count
of cycles of one of these kinds. A run that stops with a fault is not described here.
-/

namespace Chip8.ScriptedRun

variable (settings : FrameSettings) (snapshots : List Snapshot)

/-- The script goes on with idle snapshots. -/
def nth (i : Nat) : Snapshot := snapshots.getD i Snapshot.idle

def quitAt? : Option Nat := snapshots.findIdx? (·.quit)

/-- Of so many cycles, those that poll a snapshot: the quitting one is the last. -/
def polled (n : Nat) : Nat :=
  match quitAt? snapshots with
  | some q => min n (q + 1)
  | none => n

/-- Of so many cycles, those that present a frame. -/
def shown (n : Nat) : Nat :=
  match quitAt? snapshots with
  | some q => min n q
  | none => n

/-- Whether one of the first so many snapshots quits. -/
def quitBy (n : Nat) : Bool :=
  match quitAt? snapshots with
  | some q => q < n
  | none => false

def toggles (n : Nat) : Nat := (List.range n).countP fun i => (nth snapshots i).pauseToggled

/-- Whether the cycle of a snapshot carries out instructions. -/
def active (i : Nat) : Bool := !quitBy snapshots (i + 1) && toggles snapshots (i + 1) % 2 == 0

def stateAfter (n : Nat) : RunState :=
  if quitBy snapshots n then .quit
  else if toggles snapshots n % 2 = 1 then .paused
  else .running

def operations (n : Nat) : List Operation :=
  (List.range n).flatMap fun i =>
    .keys (nth snapshots i).keypad ::
      if active snapshots i then
        List.replicate settings.instructions.toNat (.step settings.strict) ++ [.tick]
      else []

/-- What a run of so many cycles without a fault has come to. -/
structure Outcome (m : Machine) (n : Nat) (c : Controller) : Prop where
  configured : c.settings = settings
  input : c.input = ⟨snapshots.drop (polled snapshots n), Snapshot.idle⟩
  unfailing : (m.trace (operations settings snapshots (polled snapshots n))).fault = none
  machine : c.machine = (m.trace (operations settings snapshots (polled snapshots n))).machine
  cycles : c.cycles = (List.range (polled snapshots n)).countP (active snapshots)
  instructions : c.instructions = settings.instructions.toNat *
    (List.range (polled snapshots n)).countP (active snapshots)
  waits : c.waits = shown snapshots n
  frames : c.recorder.frames = shown snapshots n
  last : c.recorder.last = if shown snapshots n = 0 then none
    else some (m.trace (operations settings snapshots (shown snapshots n))).machine.screen
  runState : c.runState = stateAfter snapshots n

theorem poll_drop (n : Nat) :
    (Script.mk (snapshots.drop n) Snapshot.idle).poll =
      (nth snapshots n, ⟨snapshots.drop (n + 1), Snapshot.idle⟩) := by
  rw [nth, List.getD_eq_getElem?_getD, ← List.head?_drop, ← List.tail_drop]
  cases snapshots.drop n <;> rfl

theorem quitBy_succ (n : Nat) :
    quitBy snapshots (n + 1) = (quitBy snapshots n || (nth snapshots n).quit) := by
  rw [quitBy, quitBy, quitAt?, nth, List.getD_eq_getElem?_getD]
  cases found : snapshots.findIdx? (·.quit) with
  | none =>
    rw [List.findIdx?_eq_none_iff] at found
    cases at_ : snapshots[n]? with
    | none => rfl
    | some s => simp [found s (List.mem_of_getElem? at_)]
  | some q =>
    obtain ⟨inside, quits, before⟩ := List.findIdx?_eq_some_iff_getElem.mp found
    rcases Nat.lt_trichotomy n q with lt | rfl | gt
    · have stays : snapshots[n].quit = false := by simpa using before n lt
      simp [List.getElem?_eq_getElem (Nat.lt_trans lt inside), stays]
      omega
    · simp [List.getElem?_eq_getElem inside, quits]
    · simp [gt]
      omega

theorem toggles_succ (n : Nat) :
    toggles snapshots (n + 1) =
      toggles snapshots n + if (nth snapshots n).pauseToggled then 1 else 0 := by
  rw [toggles, List.range_succ, List.countP_append, List.countP_singleton, toggles]

theorem stateAfter_succ (n : Nat) :
    stateAfter snapshots (n + 1) = (stateAfter snapshots n).next (nth snapshots n) := by
  rw [stateAfter, stateAfter, quitBy_succ, toggles_succ, RunState.next]
  cases quitBy snapshots n
  · cases (nth snapshots n).quit
    · cases (nth snapshots n).pauseToggled
      · by_cases odd : toggles snapshots n % 2 = 1 <;> simp [odd]
      · by_cases odd : toggles snapshots n % 2 = 1
        · have even : (toggles snapshots n + 1) % 2 ≠ 1 := by omega
          simp [odd, even]
        · have now : (toggles snapshots n + 1) % 2 = 1 := by omega
          simp [odd, now]
    · simp
  · simp

theorem stateAfter_eq_quit_iff (n : Nat) :
    stateAfter snapshots n = .quit ↔ quitBy snapshots n = true := by
  rw [stateAfter]
  cases quitBy snapshots n
  · by_cases odd : toggles snapshots n % 2 = 1 <;> simp [odd]
  · simp

theorem active_iff (i : Nat) :
    active snapshots i = true ↔ stateAfter snapshots (i + 1) = .running := by
  rw [active, stateAfter]
  cases quitBy snapshots (i + 1)
  · by_cases odd : toggles snapshots (i + 1) % 2 = 1
    · simp [odd]
    · have even : toggles snapshots (i + 1) % 2 = 0 := by omega
      simp [even]
  · simp

variable {settings snapshots}

theorem polled_succ (n : Nat) :
    polled snapshots (n + 1) = polled snapshots n + if quitBy snapshots n then 0 else 1 := by
  rw [polled, polled, quitBy]
  cases quitAt? snapshots with
  | none => rfl
  | some q =>
    by_cases passed : q < n
    · simp [passed]
      omega
    · simp [passed]
      omega

theorem shown_succ (n : Nat) :
    shown snapshots (n + 1) = shown snapshots n + if quitBy snapshots (n + 1) then 0 else 1 := by
  rw [shown, shown, quitBy]
  cases quitAt? snapshots with
  | none => rfl
  | some q =>
    by_cases passed : q < n + 1
    · simp [passed]
      omega
    · simp [passed]
      omega

theorem polled_shown_of_going {n : Nat} (going : quitBy snapshots n = false) :
    polled snapshots n = n ∧ shown snapshots n = n := by
  rw [quitBy] at going
  rw [polled, shown]
  cases found : quitAt? snapshots with
  | none => exact ⟨rfl, rfl⟩
  | some q =>
    have ahead : n ≤ q := by simpa [found] using going
    exact ⟨Nat.min_eq_left (by omega), Nat.min_eq_left ahead⟩

theorem polled_succ_of_going {n : Nat} (going : quitBy snapshots n = false) :
    polled snapshots (n + 1) = n + 1 := by
  rw [polled_succ, (polled_shown_of_going going).1, going]
  rfl

theorem shown_succ_of_going {n : Nat} (going : quitBy snapshots n = false) :
    shown snapshots (n + 1) = n + if quitBy snapshots (n + 1) then 0 else 1 := by
  rw [shown_succ, (polled_shown_of_going going).2]

theorem countP_active_succ (n : Nat) :
    (List.range (n + 1)).countP (active snapshots) = (List.range n).countP (active snapshots) +
      if stateAfter snapshots (n + 1) = .running then 1 else 0 := by
  rw [List.range_succ, List.countP_append, List.countP_singleton]
  simp only [active_iff]

theorem quitBy_zero : quitBy snapshots 0 = false := by
  rw [quitBy]
  cases quitAt? snapshots <;> rfl

theorem operations_succ (n : Nat) :
    operations settings snapshots (n + 1) = operations settings snapshots n ++
      settings.operations (nth snapshots n) (stateAfter snapshots (n + 1)) := by
  rw [operations, List.range_succ, List.flatMap_append, List.flatMap_singleton, ← operations]
  congr 1
  cases state : stateAfter snapshots (n + 1) with
  | running =>
    rw [(active_iff snapshots n).mpr state]
    rfl
  | paused =>
    have idle : active snapshots n ≠ true := by simp [active_iff, state]
    rw [if_neg idle]
    rfl
  | quit =>
    have idle : active snapshots n ≠ true := by simp [active_iff, state]
    rw [if_neg idle]
    rfl

theorem outcome_create (m : Machine) (diagnostics : Diagnostics) :
    Outcome settings snapshots m 0
      (Controller.create settings m (Script.ofList snapshots) diagnostics) := by
  obtain ⟨none_polled, none_shown⟩ := polled_shown_of_going (@quitBy_zero snapshots)
  have fresh : stateAfter snapshots 0 = .running := by simp [stateAfter, quitBy_zero, toggles]
  constructor
  case configured => rfl
  case runState => exact fresh.symm
  case last => simp [none_shown, Controller.create, Recorder.empty]
  all_goals
    simp only [none_polled, none_shown]
    rfl

section Step

variable {m : Machine} {n : Nat} {c : Controller}

theorem Outcome.quit_iff (h : Outcome settings snapshots m n c) :
    c.runState = .quit ↔ quitBy snapshots n = true := by
  rw [h.runState, stateAfter_eq_quit_iff]

theorem Outcome.stays (h : Outcome settings snapshots m n c) (ended : quitBy snapshots n = true) :
    Outcome settings snapshots m (n + 1) c := by
  have later : quitBy snapshots (n + 1) = true := by rw [quitBy_succ, ended, Bool.true_or]
  have same_polled : polled snapshots (n + 1) = polled snapshots n := by
    rw [polled_succ, if_pos ended, Nat.add_zero]
  have same_shown : shown snapshots (n + 1) = shown snapshots n := by
    rw [shown_succ, if_pos later, Nat.add_zero]
  have same_state : stateAfter snapshots (n + 1) = stateAfter snapshots n := by
    rw [(stateAfter_eq_quit_iff snapshots n).mpr ended,
      (stateAfter_eq_quit_iff snapshots (n + 1)).mpr later]
  obtain ⟨configured, input, unfailing, machine, cycles, instructions, waits, frames, last,
    runState⟩ := h
  constructor <;> simpa only [same_polled, same_shown, same_state]

theorem Outcome.polls (h : Outcome settings snapshots m n c) (going : quitBy snapshots n = false) :
    c.input.poll = (nth snapshots n, ⟨snapshots.drop (n + 1), Snapshot.idle⟩) := by
  rw [h.input, (polled_shown_of_going going).1, poll_drop]

theorem Outcome.upcoming (h : Outcome settings snapshots m n c)
    (going : quitBy snapshots n = false) : c.upcoming = stateAfter snapshots (n + 1) := by
  rw [Controller.upcoming, h.polls going, h.runState, stateAfter_succ]

theorem Outcome.trace_succ (h : Outcome settings snapshots m n c)
    (going : quitBy snapshots n = false) :
    m.trace (operations settings snapshots (n + 1)) =
      c.cycleTrace.after (m.trace (operations settings snapshots n)).words := by
  have ok := h.unfailing
  have machine := h.machine
  rw [(polled_shown_of_going going).1] at ok machine
  rw [operations_succ, Machine.trace_append_of_ok ok, Controller.cycleTrace, h.configured,
    h.polls going, h.upcoming going, machine]

theorem Outcome.quits_iff (h : Outcome settings snapshots m n c)
    (going : quitBy snapshots n = false) :
    c.upcoming = .quit ↔ quitBy snapshots (n + 1) = true := by
  rw [h.upcoming going, stateAfter_eq_quit_iff]

theorem Outcome.advances (h : Outcome settings snapshots m n c)
    (going : quitBy snapshots n = false) (ok : c.cycleTrace.fault = none) (d : Diagnostics) :
    Outcome settings snapshots m (n + 1) (c.cycled.reporting d) := by
  obtain ⟨all_polled, all_shown⟩ := polled_shown_of_going going
  have trace := h.trace_succ going
  have quits := h.quits_iff going
  constructor
  case configured => exact c.cycled_settings.trans h.configured
  case input =>
    rw [polled_succ_of_going going]
    exact c.cycled_input.trans (congrArg Prod.snd (h.polls going))
  case unfailing => rw [polled_succ_of_going going, trace, Trace.after_fault, ok]
  case machine =>
    rw [polled_succ_of_going going, trace, Trace.after_machine]
    exact c.cycled_machine
  case cycles =>
    refine (Controller.cycled_cycles ok).trans ?_
    rw [polled_succ_of_going going, countP_active_succ, h.cycles, all_polled, h.upcoming going]
  case instructions =>
    refine c.cycled_instructions.trans ?_
    rw [polled_succ_of_going going, countP_active_succ, Controller.length_words_cycleTrace ok,
      h.configured, h.instructions, all_polled, h.upcoming going, Nat.mul_add]
    by_cases running : stateAfter snapshots (n + 1) = .running <;> simp [running]
  case waits =>
    refine (Controller.cycled_waits ok).trans ?_
    simp only [h.waits, all_shown, quits, shown_succ_of_going going]
  case frames =>
    refine (Controller.cycled_frames ok).trans ?_
    simp only [h.frames, all_shown, quits, shown_succ_of_going going]
  case last =>
    refine (Controller.cycled_last ok).trans ?_
    rw [shown_succ_of_going going]
    by_cases quit : quitBy snapshots (n + 1) = true
    · rw [if_pos (quits.mpr quit), if_pos quit, h.last, all_shown, Nat.add_zero]
    · rw [if_neg fun now => quit (quits.mp now), if_neg quit, trace]
      rfl
  case runState => exact c.cycled_runState.trans (h.upcoming going)

end Step

/-- The outcome of every run without a fault, and the snapshots it polled. -/
theorem outcome_of_run {m : Machine} {diagnostics : Diagnostics} {n : Nat} {final : Controller}
    (done : (Controller.create settings m (Script.ofList snapshots) diagnostics).run n =
      (final, none)) :
    Outcome settings snapshots m n final ∧
      (Controller.create settings m (Script.ofList snapshots) diagnostics).heard n =
        (List.range (polled snapshots n)).map (nth snapshots) := by
  induction n generalizing final with
  | zero =>
    cases done
    have none_polled := (polled_shown_of_going (@quitBy_zero snapshots)).1
    rw [none_polled]
    exact ⟨outcome_create m diagnostics, rfl⟩
  | succ n ih =>
    rw [Controller.run_succ] at done
    rcases earlier : (Controller.create settings m (Script.ofList snapshots) diagnostics).run n
      with ⟨last, _ | fault⟩
    · rw [earlier] at done
      change last.cycle = (final, none) at done
      obtain ⟨h, polls⟩ := ih earlier
      rw [Controller.heard_succ earlier, polls]
      cases ended : quitBy snapshots n with
      | true =>
        have quit := h.quit_iff.mpr ended
        rw [Controller.cycle_of_quit quit] at done
        cases done
        rw [if_pos quit, List.append_nil, polled_succ, if_pos ended]
        exact ⟨h.stays ended, rfl⟩
      | false =>
        have going : last.runState ≠ .quit := by simp [h.quit_iff, ended]
        obtain ⟨d, cycled⟩ := Controller.cycle_eq going
        rw [cycled, Prod.mk.injEq] at done
        obtain ⟨rfl, ok⟩ := done
        rw [if_neg going, h.polls ended, polled_succ, ended, (polled_shown_of_going ended).1]
        refine ⟨h.advances ended ok d, ?_⟩
        simp [List.range_succ]
    · simp [earlier] at done

/-- The program counts in a loop; the script pauses it, resumes it, and quits while switching. -/
theorem outcome_of_run_paused_and_quit :
    let memory := Memory.writeBlock (Vector.replicate 4096 0) 0 [0x61, 0x02, 0x71, 0x01, 0x10, 0x02]
    let m := { Machine.create ⟨0, 0⟩ 1 1 .modern with memory := memory, pc := 0 }
    let settings : FrameSettings := ⟨2, true, ⟨⟨0, 0, 0⟩, ⟨0, 0, 0⟩⟩, false⟩
    let snapshots : List Snapshot := [⟨Keypad.ofList [5], false, false⟩, ⟨Keypad.idle, true, false⟩,
      Snapshot.idle, ⟨Keypad.idle, true, false⟩, ⟨Keypad.idle, true, true⟩, Snapshot.idle]
    let c := Controller.create settings m (Script.ofList snapshots)
      ⟨Console.create "" .error false false [], none⟩
    (c.run 7).2 = none ∧ (c.heard 7).length = 5 ∧ (c.run 7).1.cycles = 2 ∧
      (c.run 7).1.instructions = 4 ∧ (c.run 7).1.recorder.frames = 4 ∧
      (c.run 7).1.runState = .quit := by
  intro memory m settings snapshots c
  have ok : (c.run 7).2 = none := by decide +kernel
  obtain ⟨h, polls⟩ := outcome_of_run (show c.run 7 = ((c.run 7).1, none) from Prod.ext rfl ok)
  have five : polled snapshots 7 = 5 := by decide
  have two : (List.range (polled snapshots 7)).countP (active snapshots) = 2 := by decide
  have four : shown snapshots 7 = 4 := by decide
  have quit : stateAfter snapshots 7 = .quit := by decide
  refine ⟨ok, ?_, h.cycles.trans two, ?_, h.frames.trans four, h.runState.trans quit⟩
  · rw [polls, List.length_map, List.length_range, five]
  · rw [h.instructions, two]
    rfl

end Chip8.ScriptedRun
