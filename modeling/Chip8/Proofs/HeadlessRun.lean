import Chip8.CommandLine
import Chip8.Proofs.ConfigLoading
import Chip8.Proofs.PresentationIndependence
import Chip8.Proofs.ReachableState
import Chip8.Proofs.RunTrace

/-!
A run from the command line without a window. With no input a run of cycles is a run of frames of
the machine alone: the configuration decides the machine and the frames, and whether they go through
decides the exit status. A fault is dumped with the machine as it was before the failing step.
-/

namespace Chip8

namespace Config

def frame (config : Config) : List Operation :=
  .keys Keypad.idle ::
    (List.replicate config.instructionsPerFrame.toNat (.step config.strictOpcodes) ++ [.tick])

def frames (config : Config) (n : Nat) : List Operation :=
  (List.replicate n config.frame).flatten

end Config

def Script.Idle (script : Script) : Prop :=
  (∀ snapshot ∈ script.upcoming, snapshot = Snapshot.idle) ∧ script.rest = Snapshot.idle

theorem Script.Idle.poll {script : Script} (idle : script.Idle) :
    script.poll.1 = Snapshot.idle ∧ script.poll.2.Idle := by
  obtain ⟨upcoming, rest⟩ := script
  obtain ⟨early, late⟩ := idle
  cases upcoming with
  | nil => exact ⟨late, early, late⟩
  | cons snapshot later =>
    exact ⟨early snapshot List.mem_cons_self,
      fun s mem => early s (List.mem_cons_of_mem _ mem), late⟩

theorem idle_script_nil : (Window.script []).Idle := by
  refine ⟨fun snapshot mem => ?_, rfl⟩
  rw [List.mem_singleton.mp mem]
  rfl

theorem agenda_idle {config : Config} {settings : FrameSettings}
    (valid : config.frameSettings = .ok settings) {script : Script} (idle : script.Idle) (n : Nat) :
    settings.agenda .running script n = config.frames n := by
  obtain ⟨count, strict⟩ := Config.frameSettings_eq_ok valid
  induction n generalizing script with
  | zero => rfl
  | succ n ih =>
    obtain ⟨first, later⟩ := idle.poll
    have still : RunState.next .running Snapshot.idle = .running := rfl
    rw [FrameSettings.agenda, if_neg (by decide), first, still, ih later, FrameSettings.operations,
      count, strict]
    rfl

theorem countP_isStep_frames (config : Config) (n : Nat) :
    (config.frames n).countP Operation.isStep = n * config.instructionsPerFrame.toNat := by
  have frame : config.frame.countP Operation.isStep = config.instructionsPerFrame.toNat := by
    simp [Config.frame, Operation.isStep, List.countP_replicate]
  rw [Config.frames, List.countP_flatten, List.map_replicate, frame, List.sum_replicate_nat]

namespace Controller

variable {c last : Controller} {n : Nat}

theorem upcoming_idle (running : c.runState = .running) (idle : c.input.Idle) :
    c.upcoming = .running := by
  rw [upcoming, running, idle.poll.1]
  rfl

theorem cycles_run_idle (running : c.runState = .running) (idle : c.input.Idle)
    (through : c.run n = (last, none)) :
    last.cycles = c.cycles + n ∧ last.runState = .running := by
  induction n generalizing c with
  | zero =>
    cases through
    exact ⟨rfl, running⟩
  | succ n ih =>
    have going : c.runState ≠ .quit := by simp [running]
    have next := upcoming_idle running idle
    obtain ⟨d, cycled⟩ := cycle_eq going
    cases stops : c.cycleTrace.fault with
    | some fault =>
      rw [stops] at cycled
      rw [run_of_cycle_fault n cycled] at through
      cases through
    | none =>
      rw [stops] at cycled
      rw [run_succ_of_cycle_ok n cycled] at through
      have still : (c.cycled.reporting d).runState = .running := c.cycled_runState.trans next
      have input : (c.cycled.reporting d).input = c.input.poll.2 := c.cycled_input
      have count : (c.cycled.reporting d).cycles = c.cycles + 1 := by
        have cycles := cycled_cycles stops
        rwa [next] at cycles
      obtain ⟨total, ended⟩ := ih still (by rw [input]; exact idle.poll.2) through
      exact ⟨by omega, ended⟩

end Controller

namespace Console

variable {console : Console}

theorem logNamed_critical (console : Console) (message : String) :
    ∃ elapsed clock, console.logNamed Level.critical.name message =
      { console with
        clock := clock
        lines := console.lines.push
          (console.format elapsed Level.critical.name message) } := by
  have named : Level.ofName Level.critical.name = .critical := by decide
  have passes : console.admits .critical = true := by
    cases threshold : console.threshold <;> simp [admits, Level.passes, threshold, Level.rank]
  rw [logNamed, named, if_pos passes]
  exact ⟨_, _, rfl⟩

theorem lines_foldl_critical (console : Console) (messages : List String) :
    ∃ times, times.length = messages.length ∧
      (messages.foldl (·.logNamed Level.critical.name ·) console).lines.toList =
        console.lines.toList ++
          List.zipWith (console.format · Level.critical.name ·) times messages := by
  induction messages generalizing console with
  | nil => exact ⟨[], rfl, by simp⟩
  | cons message rest ih =>
    obtain ⟨elapsed, clock, first⟩ := console.logNamed_critical message
    rw [List.foldl_cons, first]
    obtain ⟨times, count, lines⟩ := ih _
    refine ⟨elapsed :: times, by simp [count], ?_⟩
    rw [lines, List.zipWith_cons_cons]
    simp [format]

end Console

theorem Machine.step_of_trace_fault {m : Machine} {ops : List Operation} {strict : Bool}
    {fault : Fault} (alike : ∀ op ∈ ops, op.isStep = true → op = .step strict)
    (stops : (m.trace ops).fault = some fault) :
    (m.trace ops).machine.step strict = .error fault := by
  induction ops generalizing m with
  | nil => cases stops
  | cons op rest ih =>
    obtain ⟨this, others⟩ := List.forall_mem_cons.mp alike
    cases op with
    | tick => exact ih others stops
    | keys keypad => exact ih others stops
    | step s =>
      cases this rfl
      rw [trace_step] at stops ⊢
      cases blocked : m.obstacle? strict with
      | none =>
        rw [blocked] at stops
        exact ih others stops
      | some cause =>
        rw [blocked] at stops
        cases stops
        exact step_eq_error_iff.mpr blocked

theorem isStep_frames {config : Config} {n : Nat} {op : Operation} (mem : op ∈ config.frames n)
    (step : op.isStep = true) : op = .step config.strictOpcodes := by
  obtain ⟨frame, copy, inside⟩ := List.mem_flatten.mp mem
  rw [List.eq_of_mem_replicate copy, Config.frame] at inside
  simp only [List.mem_cons, List.mem_append, List.mem_replicate, List.not_mem_nil,
    or_false] at inside
  rcases inside with rfl | ⟨-, rfl⟩ | rfl
  · cases step
  · rfl
  · cases step

namespace CommandLine

variable {world : World} {words : List String} {args : Arguments} {config : Config}
  {image : List UInt8} {n : Int} {settings : FrameSettings} {m : Machine}

def loadedConsole (world : World) (args : Arguments) (config : Config) : Console :=
  (Console.create Console.defaultName (Level.ofName config.logLevel) false true world.clock).log
    .info ("Loaded: " ++ args.rom)

def windowless (world : World) (args : Arguments) (config : Config) (settings : FrameSettings)
    (m : Machine) : Controller :=
  .create settings m (Window.script [])
    ⟨loadedConsole world args config, if config.trace then some Tally.empty else none⟩

/-- What is asked for: a run without a window, of so many cycles and without a picture. -/
structure Headless (args : Arguments) (n : Int) : Prop where
  headless : args.headless = true
  cycles : args.cycles = some n
  screenshot : args.screenshot = none

theorem drive_headless (asked : Headless args n) (world : World) (config : Config)
    (settings : FrameSettings) (m : Machine) {c : Controller} {fault : Option Fault}
    (ran : (windowless world args config settings m).run n.toNat = (c, fault)) :
    drive world args config settings m (loadedConsole world args config) =
      fault.elim (finished success (closing c) []) fun f => finished failure (obituary c f) [] := by
  have limit : args.limit = n.toNat := by rw [Arguments.limit, asked.cycles]
  have start : Controller.create settings m (Window.script []) ⟨loadedConsole world args config,
      if config.trace then some Tally.empty else none⟩ =
    windowless world args config settings m := rfl
  simp only [drive, asked.headless, if_true, limit, start, ran]
  cases fault with
  | none =>
    simp only [screenshot, asked.screenshot]
    rfl
  | some fault => rfl

theorem run_eq (parsed : Arguments.parse words = .ok args)
    (loaded : Config.load (args.config.map world.read) args.overrides = .ok config) :
    run world words = runConfigured world args config := by
  rw [run, parsed]
  dsimp only
  rw [loaded]

theorem runConfigured_of_tooBig {fresh : Machine} {e : TooBig}
    (machine : config.machine? = some fresh) (valid : config.frameSettings = .ok settings)
    (rom : world.read args.rom = .ok image) (big : fresh.loadProgram image = .error e) :
    (runConfigured world args config).status = .ok failure := by
  rw [runConfigured, machine, valid]
  dsimp only
  rw [rom]
  dsimp only
  rw [big]
  rfl

theorem runConfigured_of_loadProgram {fresh : Machine} (machine : config.machine? = some fresh)
    (valid : config.frameSettings = .ok settings) (rom : world.read args.rom = .ok image)
    (program : fresh.loadProgram image = .ok m) :
    runConfigured world args config =
      drive world args config settings m (loadedConsole world args config) := by
  rw [runConfigured, machine, valid]
  dsimp only
  rw [rom]
  dsimp only
  rw [program]
  rfl

theorem run_windowless (valid : config.frameSettings = .ok settings) (world : World)
    (args : Arguments) (m : Machine) (k : Nat) :
    ∃ c, (windowless world args config settings m).run k = (c, (m.trace (config.frames k)).fault) ∧
      c.machine = (m.trace (config.frames k)).machine ∧
      c.instructions = (m.trace (config.frames k)).words.length := by
  have agenda : (windowless world args config settings m).agenda k = config.frames k :=
    agenda_idle valid idle_script_nil k
  have reports := (windowless world args config settings m).reports_run k
  rw [Controller.runTrace, agenda] at reports
  exact ⟨_, Prod.ext rfl reports.fault, reports.machine,
    reports.instructions.trans (Nat.zero_add _)⟩

theorem closing_of_running {c : Controller} (running : c.runState = .running) :
    closing c = c.diagnostics.console.log .info (toString c.cycles ++ " cycles, " ++
      toString c.instructions ++ " instructions executed") := by
  rw [closing, running]
  rfl

theorem lines_obituary (c : Controller) (fault : Fault) :
    ∃ times, times.length = 6 ∧ (obituary c fault).lines.toList =
      c.diagnostics.console.lines.toList ++
        List.zipWith (c.diagnostics.console.format · Level.critical.name ·) times
          (("Fatal " ++ fault.kind ++ ": " ++ fault.message) :: Console.summary c.machine) :=
  c.diagnostics.console.lines_foldl_critical
    (("Fatal " ++ fault.kind ++ ": " ++ fault.message) :: Console.summary c.machine)

theorem drive_of_through (world : World) (asked : Headless args n)
    (valid : config.frameSettings = .ok settings)
    (through : (m.trace (config.frames n.toNat)).fault = none) :
    let c := ((windowless world args config settings m).run n.toNat).1
    let outcome := drive world args config settings m (loadedConsole world args config)
    outcome.status = .ok success ∧ c.machine = (m.trace (config.frames n.toNat)).machine ∧
      c.cycles = n.toNat ∧ c.instructions = n.toNat * config.instructionsPerFrame.toNat ∧
      outcome.output = (c.diagnostics.console.log .info (toString n.toNat ++ " cycles, " ++
        toString (n.toNat * config.instructionsPerFrame.toNat) ++
        " instructions executed")).lines.toList := by
  obtain ⟨c, ran, machine, executed⟩ := run_windowless valid world args m n.toNat
  rw [Machine.length_words_trace _ through, countP_isStep_frames] at executed
  rw [through] at ran
  obtain ⟨cycles, running⟩ := Controller.cycles_run_idle rfl idle_script_nil ran
  have counted : c.cycles = n.toNat := cycles.trans (Nat.zero_add _)
  have driven := drive_headless asked world config settings m ran
  rw [ran]
  intro c' outcome
  refine ⟨congrArg Outcome.status driven, machine, counted, executed, ?_⟩
  have output : outcome.output = (closing c).lines.toList := congrArg Outcome.output driven
  rw [output, closing_of_running running, counted, executed]

theorem drive_of_fault (world : World) (asked : Headless args n)
    (valid : config.frameSettings = .ok settings) {fault : Fault}
    (stops : (m.trace (config.frames n.toNat)).fault = some fault) :
    let c := ((windowless world args config settings m).run n.toNat).1
    let outcome := drive world args config settings m (loadedConsole world args config)
    outcome.status = .ok failure ∧ ∃ times, times.length = 6 ∧ outcome.output =
      c.diagnostics.console.lines.toList ++
        List.zipWith (c.diagnostics.console.format · Level.critical.name ·) times
          (("Fatal " ++ fault.kind ++ ": " ++ fault.message) ::
            Console.summary (m.trace (config.frames n.toNat)).machine) := by
  obtain ⟨c, ran, machine, -⟩ := run_windowless valid world args m n.toNat
  rw [stops] at ran
  have driven := drive_headless asked world config settings m ran
  rw [ran]
  intro c' outcome
  have output : outcome.output = (obituary c fault).lines.toList := congrArg Outcome.output driven
  refine ⟨congrArg Outcome.status driven, ?_⟩
  rw [output, ← machine]
  exact lines_obituary c fault

/-- A headless run is a run of frames of the machine that the configuration describes, with the
program loaded. Its status tells whether the program fits and the frames go through; it counts all
frames and their instructions; and after a fault it shows the machine just before the failing
step. -/
theorem status_of_headless {world : World} {words : List String} {args : Arguments}
    {config : Config} {image : List UInt8} {n : Int} (parsed : Arguments.parse words = .ok args)
    (asked : Headless args n)
    (loaded : Config.load (args.config.map world.read) args.overrides = .ok config)
    (seed : -2 ^ 63 ≤ config.seed ∧ config.seed < 2 ^ 63) (rom : world.read args.rom = .ok image) :
    ∃ random settings, Generator.ofSeed? config.seed = some random ∧
      config.frameSettings = .ok settings ∧
      let fresh := Machine.create random config.width.toNat config.height.toNat config.mode
      let m := { fresh with memory := fresh.memory.writeBlock Memory.programStart image }
      let t := m.trace (config.frames n.toNat)
      let c := ((windowless world args config settings m).run n.toNat).1
      let outcome := run world words
      outcome.status = .ok (if image.length ≤ 3584 ∧ t.fault = none then success else failure) ∧
        (outcome.status = .ok success →
          c.machine = t.machine ∧ c.cycles = n.toNat ∧
            c.instructions = n.toNat * config.instructionsPerFrame.toNat ∧
            outcome.output = (c.diagnostics.console.log .info (toString n.toNat ++ " cycles, " ++
              toString (n.toNat * config.instructionsPerFrame.toNat) ++
              " instructions executed")).lines.toList) ∧
        ∀ fault, image.length ≤ 3584 → t.fault = some fault →
          t.machine.step config.strictOpcodes = .error fault ∧
            ∃ times, times.length = 6 ∧ outcome.output =
              c.diagnostics.console.lines.toList ++
                List.zipWith (c.diagnostics.console.format · Level.critical.name ·) times
                  (("Fatal " ++ fault.kind ++ ": " ++ fault.message) ::
                    Console.summary t.machine) := by
  obtain ⟨settings, valid⟩ := (Config.usable_of_load loaded).frameSettings
  obtain ⟨fresh, machine⟩ := Option.isSome_iff_exists.mp (config.isSome_machine?_iff.mpr seed)
  obtain ⟨random, seeded, rfl⟩ := Option.map_eq_some_iff.mp machine
  refine ⟨random, settings, seeded, valid, ?_⟩
  intro fresh m t c outcome
  have started : outcome = runConfigured world args config := run_eq parsed loaded
  by_cases fits : image.length ≤ 3584
  case neg =>
    have big : fresh.loadProgram image = .error ⟨image.length, _⟩ := if_pos (Nat.lt_of_not_le fits)
    have refused : outcome.status = .ok failure := by
      rw [started, runConfigured_of_tooBig machine valid rom big]
    refine ⟨?_, ?_, fun _ short => absurd short fits⟩
    · rw [refused, if_neg fun both => fits both.1]
    · intro zero
      rw [refused] at zero
      cases zero
  case pos =>
    have program : fresh.loadProgram image = .ok m := Machine.loadProgram_of_fits fits fresh
    rw [runConfigured_of_loadProgram machine valid rom program] at started
    cases ends : t.fault with
    | none =>
      obtain ⟨status, rest⟩ := drive_of_through world asked valid ends
      rw [← started] at status rest
      refine ⟨?_, fun _ => rest, fun _ _ fault => by cases fault⟩
      rw [status, if_pos ⟨fits, rfl⟩]
    | some fault =>
      obtain ⟨status, shown⟩ := drive_of_fault world asked valid ends
      rw [← started] at status shown
      refine ⟨?_, ?_, ?_⟩
      · rw [status, if_neg (by simp)]
      · intro zero
        rw [status] at zero
        cases zero
      · intro other _ same
        cases same
        exact ⟨Machine.step_of_trace_fault (fun _ mem step => isStep_frames mem step) ends, shown⟩

/-- Two frames of two instructions each: a jump to itself goes through, and with the second program
a return in the second frame has no call to return from. -/
theorem status_of_headless_jump_and_return :
    let world (image : List UInt8) : World := ⟨fun _ => .ok image, .ok, none, []⟩
    let words := ["rom", "--headless", "--no-throttle", "--cycles", "2", "instructions_per_frame=2"]
    let jump : List UInt8 := [0x12, 0x00]
    let ret : List UInt8 := [0x61, 0x07, 0x62, 0x08, 0x00, 0xEE]
    (run (world jump) words).status = .ok success ∧
      (∃ console : Console, (run (world jump) words).output =
        (console.log .info "2 cycles, 4 instructions executed").lines.toList) ∧
      (run (world ret) words).status = .ok failure ∧
      ∃ (console : Console) (times : List Float), times.length = 6 ∧
        (run (world ret) words).output = console.lines.toList ++
          List.zipWith (console.format · Level.critical.name ·) times
            ["Fatal stack underflow: Return with an empty call stack (PC=0x0206, opcode=0x00EE)",
              "PC: 0x0204  I: 0x0000  SP: 0  DT: 0  ST: 0",
              "V0: 0x00  V1: 0x07  V2: 0x08  V3: 0x00", "V4: 0x00  V5: 0x00  V6: 0x00  V7: 0x00",
              "V8: 0x00  V9: 0x00  VA: 0x00  VB: 0x00",
              "VC: 0x00  VD: 0x00  VE: 0x00  VF: 0x00"] := by
  intro world words jump ret
  let args : Arguments :=
    ⟨"rom", none, true, some 2, none, false, true, ["instructions_per_frame=2"]⟩
  let config : Config := { Config.default with instructionsPerFrame := 2 }
  have parsed : Arguments.parse words = .ok args := by decide +kernel
  have loaded (image : List UInt8) :
      Config.load (args.config.map (world image).read) args.overrides = .ok config := by
    change Config.load none ["instructions_per_frame=2"] = .ok config
    decide +kernel
  have rom (image : List UInt8) : (world image).read args.rom = .ok image := rfl
  have asked : Headless args 2 := ⟨rfl, rfl, rfl⟩
  let start (image : List UInt8) : Machine :=
    let fresh := Machine.create ⟨0, 0⟩ 64 32 .modern
    { fresh with memory := fresh.memory.writeBlock Memory.programStart image }
  have result (image : List UInt8) :=
    status_of_headless parsed asked (loaded image) (by decide) (rom image)
  rw [← and_assoc]
  refine ⟨?_, ?_⟩
  · obtain ⟨random, settings, seeded, -, status, counted, -⟩ := result jump
    cases seeded
    have through : ((start jump).trace (config.frames 2)).fault = none := by decide +kernel
    have zero := status.trans (congrArg Except.ok (if_pos ⟨by decide, through⟩))
    obtain ⟨-, -, -, output⟩ := counted zero
    have text : toString (2 : Int).toNat ++ " cycles, " ++
        toString ((2 : Int).toNat * config.instructionsPerFrame.toNat) ++ " instructions executed" =
      "2 cycles, 4 instructions executed" := by decide +kernel
    rw [← text]
    exact ⟨zero, _, output⟩
  · obtain ⟨random, settings, seeded, -, status, -, dumped⟩ := result ret
    cases seeded
    let fault : Fault := .stackUnderflow 0x206 (some ⟨0x00EE⟩)
    have stops : ((start ret).trace (config.frames 2)).fault = some fault := by decide +kernel
    obtain ⟨-, times, count, output⟩ := dumped fault (by decide) stops
    have texts : ("Fatal " ++ fault.kind ++ ": " ++ fault.message) ::
        Console.summary ((start ret).trace (config.frames 2)).machine =
      ["Fatal stack underflow: Return with an empty call stack (PC=0x0206, opcode=0x00EE)",
        "PC: 0x0204  I: 0x0000  SP: 0  DT: 0  ST: 0",
        "V0: 0x00  V1: 0x07  V2: 0x08  V3: 0x00", "V4: 0x00  V5: 0x00  V6: 0x00  V7: 0x00",
        "V8: 0x00  V9: 0x00  VA: 0x00  VB: 0x00", "VC: 0x00  VD: 0x00  VE: 0x00  VF: 0x00"] := by
      decide +kernel
    have failed : ¬(ret.length ≤ 3584 ∧ ((start ret).trace (config.frames 2)).fault = none) := by
      rw [stops]
      simp
    refine ⟨status.trans (congrArg Except.ok (if_neg failed)),
      ((windowless (world ret) args config settings (start ret)).run 2).1.diagnostics.console,
      times, count, ?_⟩
    rw [← texts]
    exact output

end CommandLine

end Chip8
