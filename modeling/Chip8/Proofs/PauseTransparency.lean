import Chip8.Proofs.FaultPermanence
import Chip8.Proofs.RunComparison

/-!
A pause leaves no trace in the program. While a run is paused only the keys in the machine move,
and the snapshot that resumes it replaces them before an instruction can look. So a pause put into
a script, with the next switch turned round to end it, shows the standing screen once for each
cycle it lasts and changes nothing else, whatever the rest of the script asks for.
-/

namespace Chip8

/-- The same snapshot with the pause switched if it was not, and not if it was. -/
def Snapshot.switched (s : Snapshot) : Snapshot := { s with pauseToggled := !s.pauseToggled }

/-- Snapshots that begin a pause of a running program and keep it up. -/
structure Script.Pauses (first : Snapshot) (more : List Snapshot) : Prop where
  begins : first.pauseToggled = true ∧ first.quit = false
  lasts : ∀ s ∈ more, s.pauseToggled = false ∧ s.quit = false

theorem RunState.next_switched (s : Snapshot) :
    RunState.paused.next s.switched = RunState.running.next s := by
  cases quits : s.quit
  · cases toggles : s.pauseToggled <;> simp [next, Snapshot.switched, quits, toggles]
  · simp [next, Snapshot.switched, quits]

theorem Script.polls_append (first later : List Snapshot) :
    (Script.ofList (first ++ later)).polls first.length = (first, .ofList later) := by
  induction first with
  | nil => rfl
  | cons s first ih =>
    have next : (Script.ofList (s :: first ++ later)).poll = (s, .ofList (first ++ later)) := rfl
    rw [List.length_cons, polls, next, ih]

namespace Controller

/-- A run of so many cycles in which nothing but the keys moves and each shows the screen. -/
structure Stands (c : Controller) (n : Nat) (done : Controller) : Prop where
  ran : c.run n = (done, none)
  rests : Rests c done
  paused : done.runState = .paused
  presented : c.presented n = List.replicate n c.machine.screen

variable {c mid plain paused : Controller} {n : Nat} {first b : Snapshot}
  {more rest : List Snapshot}

theorem Stands.succ (going : c.runState ≠ .quit) (pauses : c.upcoming = .paused)
    (later : ∀ next : Controller, next.runState = .paused → next.input = c.input.poll.2 →
      ∃ done, Stands next n done) : ∃ done, Stands c (n + 1) done := by
  have cycled : c.cycle = (c.poll.present, none) := by rw [cycle_of_ne_quit going, pauses]
  have rests : Rests c c.poll.present := ⟨rfl, rfl, rfl, rfl, rfl⟩
  have screen : c.poll.present.machine.screen = c.machine.screen := rfl
  obtain ⟨done, stands⟩ := later c.poll.present pauses rfl
  refine ⟨done, ?_, rests.trans stands.rests, stands.paused, ?_⟩
  · rw [run_succ_of_cycle_ok n cycled, stands.ran]
  · rw [presented_succ_of_cycle_ok n cycled, shown_of_paused going pauses, stands.presented, screen,
      List.replicate_succ]
    rfl

theorem input_of_going {before later : List Snapshot} (ran : c.run before.length = (mid, none))
    (going : mid.runState ≠ .quit) (input : c.input = .ofList (before ++ later)) :
    mid.input = .ofList later := by
  have polls := polls_of_going ran going
  rw [input, Script.polls_append] at polls
  exact (congrArg Prod.snd polls).symm

theorem stands_of_paused (paused : c.runState = .paused)
    (input : (c.input.polls more.length).1 = more)
    (lasts : ∀ s ∈ more, s.pauseToggled = false ∧ s.quit = false) :
    ∃ done, Stands c more.length done := by
  induction more generalizing c with
  | nil => exact ⟨c, rfl, .refl c, paused, rfl⟩
  | cons s more ih =>
    obtain ⟨polled, later⟩ := List.cons.inj input
    obtain ⟨now, lasts⟩ := List.forall_mem_cons.mp lasts
    have pauses : c.upcoming = .paused := by
      rw [upcoming, polled, paused]
      simp [RunState.next, now]
    apply Stands.succ (by simp [paused]) pauses
    intro next still moved
    rw [← moved] at later
    exact ih still later lasts

theorem stands_of_pauses (running : c.runState = .running) (pause : Script.Pauses first more)
    (input : (c.input.polls (more.length + 1)).1 = first :: more) :
    ∃ done, Stands c (more.length + 1) done := by
  obtain ⟨polled, later⟩ := List.cons.inj input
  have pauses : c.upcoming = .paused := by
    rw [upcoming, polled, running]
    simp [RunState.next, pause.begins]
  apply Stands.succ (by simp [running]) pauses
  intro next still moved
  rw [← moved] at later
  exact stands_of_paused still later pause.lasts

/-- What a pause has moved is gone with the snapshot that resumes. -/
theorem Rests.alike_poll {base : Controller} (alike : Alike base plain) (rests : Rests base paused)
    (running : plain.runState = .running) (still : paused.runState = .paused)
    (now : plain.input.poll.1 = b) (resumes : paused.input.poll.1 = b.switched) :
    Alike paused.poll plain.poll where
  perFrame := (congrArg FrameSettings.instructions rests.settings).trans alike.perFrame
  strict := (congrArg FrameSettings.strict rests.settings).trans alike.strict
  machine := by
    change paused.machine.withKeys paused.input.poll.1.keypad =
      plain.machine.withKeys plain.input.poll.1.keypad
    rw [rests.machine, alike.machine, now, resumes]
    rfl
  runState := by
    change paused.runState.next paused.input.poll.1 = plain.runState.next plain.input.poll.1
    rw [still, running, now, resumes, RunState.next_switched]
  current := rests.current.trans alike.current
  cycles := rests.cycles.trans alike.cycles
  instructions := rests.instructions.trans alike.instructions

theorem sameRun_after_pause (alike : Alike paused plain) (running : plain.runState = .running)
    (pause : Script.Pauses first more) (input : plain.input = .ofList (b :: rest))
    (inputPaused : paused.input = .ofList (first :: more ++ b.switched :: rest)) :
    ∃ done, Stands paused (first :: more).length done ∧
      SameRun done plain (b :: rest).length := by
  have polls := Script.polls_append (first :: more) (b.switched :: rest)
  rw [← inputPaused] at polls
  obtain ⟨done, stands⟩ :=
    stands_of_pauses (alike.runState.trans running) pause (congrArg Prod.fst polls)
  have going : done.runState ≠ .quit := by simp [stands.paused]
  have goingPlain : plain.runState ≠ .quit := by simp [running]
  have left : done.input = .ofList (b.switched :: rest) :=
    input_of_going stands.ran going inputPaused
  refine ⟨done, stands, ?_⟩
  apply SameRun.succ going goingPlain
  · apply Rests.alike_poll alike stands.rests running stands.paused (b := b)
    · rw [input]
      rfl
    · rw [left]
      rfl
  · intro next
    apply next.run
    rw [input_cycle going, input_cycle goingPlain, left, input]
    rfl

/-- A pause put into a script where the run is going: the same end, reached as many polls later,
and the same frames around those of the pause. -/
theorem pause_is_invisible (settings : FrameSettings) (m : Machine) (d : Diagnostics)
    (before more rest : List Snapshot) (first b : Snapshot) (mid : Controller)
    (ran : (create settings m (.ofList (before ++ b :: rest)) d).run before.length = (mid, none))
    (running : mid.runState = .running) (pause : Script.Pauses first more) :
    let plain := create settings m (.ofList (before ++ b :: rest)) d
    let paused := create settings m
      (.ofList (before ++ (first :: more) ++ b.switched :: rest)) d
    let extra := (first :: more).length
    let total := before.length + (b :: rest).length
    Alike (paused.run (total + extra)).1 (plain.run total).1 ∧
    (paused.run (total + extra)).2 = (plain.run total).2 ∧
    (paused.heard (total + extra)).length = (plain.heard total).length + extra ∧
    ∃ later, plain.presented total = plain.presented before.length ++ later ∧
      paused.presented (total + extra) =
        plain.presented before.length ++ List.replicate extra mid.machine.screen ++ later := by
  intro plain paused extra total
  have script : paused.input = .ofList (before ++ (first :: more ++ b.switched :: rest)) :=
    congrArg Script.ofList (List.append_assoc ..)
  -- Up to the pause the two runs hear the same.
  have start : Alike paused plain := ⟨rfl, rfl, rfl, rfl, rfl, rfl, rfl⟩
  have together : SameRun paused plain before.length := by
    apply start.run
    rw [script, Script.polls_append]
    exact (congrArg Prod.fst (Script.polls_append before (b :: rest))).symm
  obtain ⟨held, ranPaused, alike⟩ := together.reaches ran
  have going : mid.runState ≠ .quit := by simp [running]
  have goingHeld : held.runState ≠ .quit := fun quits => going (alike.runState.symm.trans quits)
  have left : mid.input = .ofList (b :: rest) := input_of_going ran going rfl
  have leftHeld : held.input = .ofList (first :: more ++ b.switched :: rest) :=
    input_of_going ranPaused goingHeld script
  obtain ⟨done, stands, after⟩ := sameRun_after_pause alike running pause left leftHeld
  -- The plain run is in two parts and the other one in three.
  obtain ⟨run, presented, heard⟩ := run_add ran (b :: rest).length
  obtain ⟨runHeld, presentedHeld, heardHeld⟩ :=
    run_add ranPaused ((first :: more).length + (b :: rest).length)
  obtain ⟨runDone, presentedDone, heardDone⟩ := run_add stands.ran (b :: rest).length
  have parts : total + extra =
      before.length + ((first :: more).length + (b :: rest).length) := by
    simp only [total, extra]
    omega
  have screen : held.machine.screen = mid.machine.screen := congrArg Machine.screen alike.machine
  rw [parts, runHeld, runDone, run, heardHeld, heardDone, heard, presentedHeld, presentedDone]
  refine ⟨after.alike, after.fault, ?_, mid.presented (b :: rest).length, presented, ?_⟩
  · have heardExtra : (held.heard (first :: more).length).length = extra :=
      length_heard_of_going stands.ran (by simp [stands.paused])
    rw [List.length_append, List.length_append, List.length_append, heardExtra, together.polled,
      after.polled, Nat.add_assoc, Nat.add_comm extra]
  · rw [together.presented, stands.presented, screen, after.presented, List.append_assoc]

/-- Key 5 is only down during the pause, and the instruction after the pause skips when it is. -/
theorem pause_is_invisible_before_a_fault :
    let memory := Memory.writeBlock (Vector.replicate 4096 0) 0
      [0x61, 0x05, 0xE1, 0x9E, 0x00, 0xEE]
    let m := { Machine.create ⟨0, 0⟩ 1 1 .modern with memory := memory, pc := 0 }
    let held (toggled : Bool) : Snapshot := ⟨Keypad.ofList [5], toggled, false⟩
    let c (snapshots : List Snapshot) := create ⟨1, false, ⟨⟨0, 0, 0⟩, ⟨0, 0, 0⟩⟩, false⟩ m
      (.ofList snapshots) ⟨Console.create "" .error false false [], none⟩
    let plain := c [.idle, .idle, .idle]
    let paused := c [.idle, held true, held false, Snapshot.idle.switched, .idle]
    let fault : Fault := .stackUnderflow 6 (some ⟨0x00EE⟩)
    (plain.run 3).2 = some fault ∧ (paused.run 5).2 = some fault ∧
      (paused.run 5).1.machine = (plain.run 3).1.machine ∧
      (plain.presented 3).length = 2 ∧ (paused.presented 5).length = 4 := by
  intro memory m held c plain paused fault
  let mid := (plain.run 1).1
  have ran : plain.run 1 = (mid, none) := Prod.ext rfl (by decide +kernel)
  have pause : Script.Pauses (held true) [held false] := ⟨by decide, by decide⟩
  obtain ⟨alike, same, -, later, presented, presentedPaused⟩ :=
    pause_is_invisible _ m _ [.idle] [held false] [.idle] (held true) .idle mid ran
      (by decide +kernel) pause
  have stops : (plain.run 3).2 = some fault := by decide +kernel
  have two : (plain.presented 3).length = 2 := by decide +kernel
  have one : (plain.presented 1).length = 1 := by decide +kernel
  refine ⟨stops, same.trans stops, alike.machine, two, ?_⟩
  have plainLength := congrArg List.length presented
  have pausedLength := congrArg List.length presentedPaused
  simp only [List.length_append, List.length_replicate] at plainLength pausedLength
  change (plain.presented 3).length = (plain.presented 1).length + later.length at plainLength
  change (paused.presented 5).length =
    (plain.presented 1).length + 2 + later.length at pausedLength
  omega

end Controller

end Chip8
