import Chip8.Config
import Chip8.Proofs.RunComparison

/-!
Diagnostics and presentation have no say in a run. A configuration reaches the machine through two
numbers alone, the instructions of a frame and the strictness; colours, scale, outlines, cadence and
log level may be any, and so may the log and the tracer that a controller reports to. The runs are
compared at the end of every cycle and also partway through one, after each of its instructions.
-/

namespace Chip8

theorem Config.frameSettings_eq_ok {config : Config} {settings : FrameSettings}
    (valid : config.frameSettings = .ok settings) :
    settings.instructions = config.instructionsPerFrame ∧
      settings.strict = config.strictOpcodes := by
  rw [frameSettings] at valid
  cases colours : config.palette with
  | error reason => simp [colours, Except.map] at valid
  | ok palette =>
    rw [colours] at valid
    cases valid
    exact ⟨rfl, rfl⟩

namespace Controller

/-- The controller when the next snapshot is taken in and so many instructions were tried. -/
def partway (c : Controller) (k : Nat) : Controller × Option Fault := c.poll.steps k

variable {a b : Controller} {n : Nat}

theorem Alike.absorb (h : Alike a b) (t : Trace) : Alike (a.absorb t) (b.absorb t) where
  perFrame := h.perFrame
  strict := h.strict
  machine := rfl
  runState := h.runState
  current := congrArg t.words.getLast?.or h.current
  cycles := h.cycles
  instructions := congrArg (· + t.words.length) h.instructions

theorem Alike.steps (h : Alike a b) (k : Nat) :
    Alike (a.steps k).1 (b.steps k).1 ∧ (a.steps k).2 = (b.steps k).2 := by
  obtain ⟨d, ranA⟩ := a.steps_eq k
  obtain ⟨e, ranB⟩ := b.steps_eq k
  rw [ranA, ranB, h.machine, h.strict]
  exact ⟨(h.absorb _).reporting d e, rfl⟩

theorem Alike.partway (h : Alike a b) (input : a.input = b.input) (k : Nat) :
    Alike (a.partway k).1 (b.partway k).1 ∧ (a.partway k).2 = (b.partway k).2 := by
  apply Alike.steps
  apply h.poll
  rw [input]

theorem SameRun.heard (same : SameRun a b n) (input : a.input = b.input) :
    a.heard n = b.heard n ∧ (a.run n).1.input = (b.run n).1.input := by
  have pollsA := a.polls_heard n
  have pollsB := b.polls_heard n
  rw [same.polled, input, pollsB, Prod.mk.injEq] at pollsA
  exact ⟨pollsA.1.symm, pollsA.2.symm⟩

/-- Two configurations that agree on the instructions of a frame and on strictness make the same of
every machine and every script, however they differ and whatever takes note of the runs. -/
theorem presentation_is_inert (first second : Config) (settings others : FrameSettings)
    (valid : first.frameSettings = .ok settings) (validToo : second.frameSettings = .ok others)
    (perFrame : first.instructionsPerFrame = second.instructionsPerFrame)
    (strict : first.strictOpcodes = second.strictOpcodes)
    (m : Machine) (input : Script) (d e : Diagnostics) (n : Nat) :
    let a := create settings m input d
    let b := create others m input e
    a.heard n = b.heard n ∧ SameRun a b n ∧
      ∀ k, Alike ((a.run n).1.partway k).1 ((b.run n).1.partway k).1 ∧
        ((a.run n).1.partway k).2 = ((b.run n).1.partway k).2 := by
  intro a b
  obtain ⟨count, strictness⟩ := Config.frameSettings_eq_ok valid
  obtain ⟨countToo, strictnessToo⟩ := Config.frameSettings_eq_ok validToo
  have start : Alike a b := by
    refine ⟨?_, ?_, rfl, rfl, rfl, rfl, rfl⟩
    · exact count.trans (perFrame.trans countToo.symm)
    · exact strictness.trans (strict.trans strictnessToo.symm)
  have same : SameRun a b n := start.run rfl
  obtain ⟨heard, left⟩ := same.heard rfl
  exact ⟨heard, same, same.alike.partway left⟩

/-- The third instruction is outside the table. One run is strict and silent and the other strict
and traced, in other colours and at another cadence. -/
theorem presentation_is_inert_up_to_a_fault :
    let quiet : Config := { Config.default with
      colorScheme := some "mono", instructionsPerFrame := 2, strictOpcodes := true,
      logLevel := "ERROR" }
    let loud : Config := { quiet with
      scale := 3, colorScheme := some "amber", pixelOutlines := false, cadence := 30.0,
      trace := true, logLevel := "DEBUG" }
    let memory := Memory.writeBlock (Vector.replicate 4096 0) 0
      [0x61, 0x02, 0x71, 0x01, 0x81, 0x28]
    let m := { Machine.create ⟨0, 0⟩ 1 1 .modern with memory := memory, pc := 0 }
    let a := create ⟨2, true, ⟨Color.white, Color.black⟩, true⟩ m (.ofList [])
      ⟨Console.plain .error, none⟩
    let b := create ⟨2, true, ⟨⟨255, 176, 0⟩, Color.black⟩, false⟩ m (.ofList [])
      ⟨Console.plain .debug, some Tally.empty⟩
    let fault : Fault := .unsupported 6 ⟨0x8128⟩
    quiet.frameSettings = .ok a.settings ∧ loud.frameSettings = .ok b.settings ∧
      (a.run 2).2 = some fault ∧ (b.run 2).2 = some fault ∧
      (a.run 2).1.machine = (b.run 2).1.machine ∧
      (a.presented 2).length = 1 ∧ (b.presented 2).length = 1 := by
  intro quiet loud memory m a b fault
  have valid : quiet.frameSettings = .ok a.settings := by rfl
  have validToo : loud.frameSettings = .ok b.settings := by rfl
  obtain ⟨-, same, -⟩ := presentation_is_inert quiet loud a.settings b.settings valid validToo
    rfl rfl m (.ofList []) a.diagnostics b.diagnostics 2
  have stops : (a.run 2).2 = some fault := by decide +kernel
  have shown : (a.presented 2).length = 1 := by decide +kernel
  exact ⟨valid, validToo, stops, same.fault.symm.trans stops, same.alike.machine, shown,
    (congrArg List.length same.presented).symm.trans shown⟩

end Controller

end Chip8
