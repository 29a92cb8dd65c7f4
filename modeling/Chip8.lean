import Chip8.Instruction.Format
import Chip8.Machine.History
import Chip8.Main
import Chip8.Proofs.AddressedMap
import Chip8.Proofs.Arithmetic
import Chip8.Proofs.Blocks
import Chip8.Proofs.CheckedSession
import Chip8.Proofs.ControlFlow
import Chip8.Proofs.Dialects
import Chip8.Proofs.DrawnSprites
import Chip8.Proofs.Events
import Chip8.Proofs.Faults
import Chip8.Proofs.Footprint
import Chip8.Proofs.Formats
import Chip8.Proofs.FrameLimit
import Chip8.Proofs.KeyScripts
import Chip8.Proofs.LastInFirstOut
import Chip8.Proofs.Mnemonics
import Chip8.Proofs.Observers
import Chip8.Proofs.Overlays
import Chip8.Proofs.PowerOn
import Chip8.Proofs.PressGrammar
import Chip8.Proofs.RandomStream
import Chip8.Proofs.ScreenViews
import Chip8.Proofs.Sprites
import Chip8.Proofs.Subroutines
import Chip8.Proofs.TimerTicks
import Chip8.Session.Command
import Chip8.Proofs.HangUp
