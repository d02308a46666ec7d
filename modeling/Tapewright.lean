import Tapewright.CommandLine.Directory
import Tapewright.CommandLine.Run
import Tapewright.Main
import Tapewright.Program.LoopTree
import Tapewright.Proofs.Backpatching
import Tapewright.Proofs.BoundsChecks
import Tapewright.Proofs.BracketErrors
import Tapewright.Proofs.BranchRange
import Tapewright.Proofs.Comments
import Tapewright.Proofs.Disassembly
import Tapewright.Proofs.Echo
import Tapewright.Proofs.EffectOrder
import Tapewright.Proofs.EmittedRun
import Tapewright.Proofs.EmittedText
import Tapewright.Proofs.ExactClearing
import Tapewright.Proofs.Interruptions
import Tapewright.Proofs.MachineCode
import Tapewright.Proofs.MissedCell
import Tapewright.Proofs.NormalForm
import Tapewright.Proofs.Optimize
import Tapewright.Proofs.OutputFrame
import Tapewright.Proofs.Pairing
import Tapewright.Proofs.Parking
import Tapewright.Proofs.Rejection
import Tapewright.Proofs.SeparateRuns
import Tapewright.Proofs.WhileLoops
import Tapewright.X86.Idiom
