import Chip8.CommandLine.Log
import Chip8.CommandLine.Options
import Chip8.CommandLine.Playback
import Chip8.RomFile

/-!
# Reports

What a command line leaves behind: an exit code, the screen on the output, and on the error output
the log and, behind it, a complaint with its causes.
-/

namespace Chip8

/-- The session that a command line asks for, with its program loaded. All it has to say goes to the
log, whatever becomes of the log. -/
def Session.opened (options : Options) (rom : Rom) : Session :=
  .withRom rom options.settings { observer := .log, logging := true }

/-- The session before its first frame, running, with the log so far put aside. -/
def Session.ofOptions (options : Options) (rom : Rom) : Session :=
  let s := opened options rom
  { s with host := s.host.emptied }.start

structure Report where
  exit : Nat
  stdout : String := ""
  log : List Note := []
  /-- What comes last on the error output, whatever the log lets through. -/
  complaint : String := ""
deriving DecidableEq, Repr

namespace Report

def stderr (r : Report) (logger : Logger) : String :=
  logger.write r.log ++ r.complaint

def causeLines : List String → List String
  | [] => []
  | [cause] => ["    " ++ cause]
  | causes => causes.mapIdx fun k cause => s!"    {k}: " ++ cause

def errorText (what : String) (causes : List String) : String :=
  "\n".intercalate (["Error: " ++ what, "", "Caused by:"] ++ causeLines causes) ++ "\n"

def ofOptionsError (wording : Options.Error → String) (e : Options.Error) : Report :=
  match e with
  | .badKeys _ | .usage => { exit := 2, complaint := wording e }
  | .asked _ => { exit := 0, stdout := wording e }

def ofLoadError (path : String) (e : Rom.LoadError) : Report where
  exit := 1
  log := match e with
    | .unreadable _ => []
    | .tooLarge e => [.read path e.size]
  complaint := errorText ("failed to load " ++ path) e.causes

def preface (options : Options) (rom : Rom) : List Note :=
  .read options.rom rom.size :: (if rom.isEmpty then [.empty options.rom] else []) ++
    (Session.opened options rom).host.records.toList.map .session ++
    [.running options.rom rom.size options.frames]

def ofEnding (options : Options) (rom : Rom) (ending : Ending) : Report where
  exit := match ending with
    | .finished _ => 0
    | .stopped _ _ _ => 1
  stdout := ending.session.machine.screen.text ++ "\n"
  log := preface options rom ++ ending.session.host.records.toList.map .session
  complaint := match ending with
    | .finished _ => ""
    | .stopped frame f _ => errorText s!"stopped at frame {frame}" [f.message]

def ofRom (options : Options) (rom : Rom) : Report :=
  ofEnding options rom ((Session.ofOptions options rom).play options.keys 0 options.frames)

/-- What a command line leaves behind, given what comes of reading a file and the words for command
lines that ask for no run. -/
def ofArguments (wording : Options.Error → String)
    (read : String → Except AccessError (Array UInt8)) (arguments : List String) : Report :=
  match Options.parse arguments with
  | .error e => ofOptionsError wording e
  | .ok options =>
    match Rom.ofFile (read options.rom) with
    | .error e => ofLoadError options.rom e
    | .ok rom => ofRom options rom

end Report

end Chip8
