import Chip8.Rom

namespace Chip8

inductive AccessError where
  | notFound
  | notFolder
  | isFolder
  | other (reason : String)
deriving DecidableEq, Repr

def AccessError.message : AccessError → String
  | .notFound => "No such file or directory (os error 2)"
  | .notFolder => "Not a directory (os error 20)"
  | .isFolder => "Is a directory (os error 21)"
  | .other reason => reason

namespace Rom

inductive LoadError where
  | unreadable (e : AccessError)
  | tooLarge (e : TooLarge)
deriving DecidableEq, Repr

def LoadError.message : LoadError → String
  | .unreadable e => "could not read rom: " ++ e.message
  | .tooLarge e => e.message

/-- The complaint and what lies behind it, the immediate reason first. -/
def LoadError.causes (e : LoadError) : List String :=
  match e with
  | .unreadable reason => [e.message, reason.message]
  | .tooLarge _ => [e.message]

def ofFile (contents : Except AccessError (Array UInt8)) : Except LoadError Rom :=
  match contents with
  | .ok bytes => (ofBytes bytes).mapError .tooLarge
  | .error e => .error (.unreadable e)

end Rom

end Chip8
