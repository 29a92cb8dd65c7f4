import Chip8.CommandLine.Report

namespace Chip8

/-- The number of a system error, which is given with either sign. -/
def errorNumber (code : UInt32) : UInt32 :=
  min code (0 - code)

def AccessError.ofSystem : IO.Error → AccessError
  | .noFileOrDirectory _ _ _ => .notFound
  | .inappropriateType _ code _ => if errorNumber code = 20 then .notFolder else .isFolder
  | .permissionDenied _ code details => .other s!"{details} (os error {errorNumber code})"
  | e => .other (toString e)

def readFile (path : String) : IO (Except AccessError (Array UInt8)) := do
  try
    return .ok (← IO.FS.readBinFile path).data
  catch e =>
    return .error (.ofSystem e)

/-- `Session.play` with no frame shorter than a tick of the timers. -/
def playPaced (s : Session) (script : KeyScript) (frame : Nat) : Nat → IO Ending
  | 0 => return .finished s
  | n + 1 => do
    let started ← IO.monoNanosNow
    match s.scriptedFrame script frame with
    | (.error f, next) => return .stopped frame f next
    | (.ok _, next) =>
      let elapsed := (← IO.monoNanosNow) - started
      IO.sleep (UInt32.ofNat ((1000000000 / Timers.rate - elapsed) / 1000000))
      playPaced next script (frame + 1) n

def wording : Options.Error → String
  | .badKeys e => s!"error: {e.message}\n"
  | .usage => "Usage: blit8 [OPTIONS] <ROM>\n"
  | .asked .version => "blit8 0.1.0\n"
  | .asked .help => "\n".intercalate [
      "Runs a CHIP-8 rom without a window and prints the screen it ends on",
      "",
      "Usage: blit8 [OPTIONS] <ROM>",
      "",
      "      --instructions-per-tick <N>  Instructions per 60hz timer tick",
      "      --frames <N>                 Frames to run before printing the screen",
      "      --seed <N>                   Seed for the random number generator",
      "      --realtime                   Sleep between frames so the rom runs at 60 frames per second",
      "      --keys <FRAME:KEY,...>       Keys to press, each held down for a single frame",
      "      --quirk-shift-vy             8xy6 and 8xyE shift vy instead of vx",
      "      --quirk-memory-i             Fx55 and Fx65 move I past the registers they touch",
      "      --quirk-jump-vx              Bnnn jumps to nnn + vx, where x is the highest nibble of nnn",
      "      --quirk-logic-vf             8xy1, 8xy2 and 8xy3 clear VF",
      "  -h, --help                       Print help",
      "  -V, --version                    Print version"] ++ "\n"

def report (arguments : List String) : IO Report := do
  match Options.parse arguments with
  | .error e => return .ofOptionsError wording e
  | .ok options =>
    match Rom.ofFile (← readFile options.rom) with
    | .error e => return .ofLoadError options.rom e
    | .ok rom =>
      if options.realtime then
        let ending ← playPaced (.ofOptions options rom) options.keys 0 options.frames
        return .ofEnding options rom ending
      else return .ofRom options rom

end Chip8

/-- Runs a program without a window and prints the screen that it ends on, with errors only on the
log. -/
def main (arguments : List String) : IO UInt32 := do
  let report ← Chip8.report arguments
  IO.print report.stdout
  IO.eprint (report.stderr (.upTo .error))
  return UInt32.ofNat report.exit
