import Chip8.Config
import Mathlib.Algebra.Group.Int.Defs
import Mathlib.Tactic.SplitIfs

/-!
What the checks on a configuration are good for. A configuration that passes them has colours, a
frame period and frame settings, and with a seed in range it describes a machine.
-/

namespace Chip8

theorem le_of_beq_float {a b : Float} (same : (a == b) = true) : a ≤ b := by
  have order : a.toModel.unpack.compare b.toModel.unpack = some .eq := eq_of_beq same
  have below : a.toModel.unpack.le b.toModel.unpack = true := by
    rw [Float.Model.UnpackedFloat.le, order]
    rfl
  exact decide_eq_true below

namespace Config

/-- All that is checked of a configuration. -/
structure Usable (config : Config) : Prop where
  width : 1 ≤ config.width
  height : 1 ≤ config.height
  scale : 1 ≤ config.scale
  cadence : ¬config.cadence ≤ 0
  instructions : 1 ≤ config.instructionsPerFrame
  level : ∃ level, Level.ofName? config.logLevel = some level
  palette : ∃ palette, config.palette = .ok palette

theorem validate_eq_ok_iff {config valid : Config} :
    config.validate = .ok valid ↔ valid = config ∧ config.Usable := by
  unfold validate
  constructor
  · intro checked
    split_ifs at checked with size scale cadence instructions level
    cases found : config.palette with
    | error reason =>
      rw [found] at checked
      cases checked
    | ok palette =>
      rw [found] at checked
      cases checked
      rw [Option.isNone_iff_eq_none] at level
      exact ⟨rfl, by omega, by omega, by omega, cadence, by omega,
        Option.ne_none_iff_exists'.mp level, palette, found⟩
  · rintro ⟨rfl, usable⟩
    obtain ⟨level, named⟩ := usable.level
    obtain ⟨palette, found⟩ := usable.palette
    have width := usable.width
    have height := usable.height
    have scale := usable.scale
    have instructions := usable.instructions
    rw [if_neg (by omega), if_neg (by omega), if_neg usable.cadence, if_neg (by omega), named,
      found]
    rfl

variable {config : Config}

theorem Usable.frameSettings (usable : config.Usable) :
    ∃ settings, config.frameSettings = .ok settings := by
  obtain ⟨palette, found⟩ := usable.palette
  rw [Config.frameSettings, found]
  exact ⟨_, rfl⟩

/-- A cadence of zero, by which no pacer can divide, is among those refused. -/
theorem Usable.framePeriod (usable : config.Usable) :
    ∃ period, config.framePeriod? = some period := by
  have nonzero : ¬(config.cadence == 0) = true := fun zero => usable.cadence (le_of_beq_float zero)
  rw [framePeriod?, Pacer.ofCadence?, if_neg nonzero]
  exact ⟨_, rfl⟩

theorem isSome_machine?_iff (config : Config) :
    config.machine?.isSome = true ↔ -2 ^ 63 ≤ config.seed ∧ config.seed < 2 ^ 63 := by
  rw [machine?, Option.isSome_map, Generator.ofSeed?]
  split <;> simp_all

end Config

end Chip8
