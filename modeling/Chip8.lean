import Chip8.Main
import Chip8.Proofs.OperationTrace
import Chip8.Proofs.CallStackSlots
import Chip8.Proofs.ReachableState
import Chip8.Proofs.ControllerCycle
import Chip8.Proofs.ScriptedRun
import Chip8.Proofs.FaultPermanence
import Chip8.Proofs.FaultConditions
import Chip8.Proofs.InstructionTable
import Chip8.Proofs.RunTrace
import Chip8.Proofs.Surroundings
import Chip8.Proofs.RunComparison
import Chip8.Proofs.PauseTransparency
import Chip8.Proofs.Lockstep
import Chip8.Proofs.QuirkModes
import Chip8.Proofs.ReturnAddresses
import Chip8.Proofs.RandomStream
import Chip8.Proofs.WindowBatches
import Chip8.Proofs.PresentationIndependence
import Chip8.Proofs.RegisterArithmetic
import Chip8.Proofs.SpriteDrawing
import Chip8.Proofs.LaneTransfers
import Chip8.Proofs.NextAddress
import Chip8.Proofs.WriteFootprint
import Chip8.Proofs.MemoryWrites
import Chip8.Proofs.StoredBlocks
import Chip8.Proofs.TraceText
import Chip8.Proofs.TraceOutcome
import Chip8.Proofs.ConfigLoading
import Chip8.Proofs.HeadlessRun
import Chip8.Proofs.IndexAliases
import Chip8.Proofs.ScreenPictures
import Chip8.Proofs.ColorTexts
import Chip8.Proofs.TracerAccounts
import Chip8.Proofs.ProgramImage
import Chip8.Proofs.KeyWait
