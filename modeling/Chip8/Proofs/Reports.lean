import Chip8.CommandLine.Report
import Chip8.Proofs.Fields
import Chip8.Proofs.Numerals
import Chip8.Proofs.ScreenViews

namespace Chip8

namespace Numeral

theorem marked_inj {width m n : Nat} (same : marked width m = marked width n) : m = n := by
  have digits : hex width m = hex width n := (String.append_right_inj "0x").mp same
  have read := extend?_hex width m
  rw [digits, extend?_hex] at read
  exact (Option.some.inj read).symm

theorem space_notMem_marked (width n : Nat) : ' ' ∉ (marked width n).toList := by
  have mark : "0x".toList = ['0', 'x'] := rfl
  rw [marked, String.toList_append, mark]
  intro member
  have digit : ' ' ∈ (hex width n).toList := by simpa using member
  obtain ⟨d, value⟩ := digit_of_extend? (extend?_hex width n) _ digit
  have none : digit? ' ' = none := rfl
  cases none.symm.trans value

/- A number in a text ends at the first space behind it. -/
theorem marked_append_inj {width m n : Nat} {rest rest' : String}
    (same : marked width m ++ (" " ++ rest) = marked width n ++ (" " ++ rest')) :
    m = n ∧ rest = rest' := by
  have space : " ".toList = [' '] := rfl
  have chars := congrArg String.toList same
  simp only [String.toList_append, space, List.cons_append, List.nil_append] at chars
  obtain ⟨number, behind⟩ :=
    Fields.cut_inj (space_notMem_marked width m) (space_notMem_marked width n) chars
  exact ⟨marked_inj (String.toList_inj.mp number), String.toList_inj.mp behind⟩

end Numeral

namespace Fault

variable {f g : Fault}

theorem place_inj {a b : UInt16} (same : place a = place b) : a = b :=
  UInt16.toNat_inj.mp (Numeral.marked_inj same)

/-- What the text of a fault begins with. -/
def opening : Fault → String
  | .illegalOpcode _ _ => "illegal opcode "
  | .stackOverflow _ => "stack overflow: call at "
  | .stackUnderflow _ => "stack underflow: return at "
  | .misalignedJump _ _ => "jump to odd address "

/-- The numbers of a fault, the last one at the end of its text or in front of a space. -/
def figures : Fault → String
  | .illegalOpcode word address => Numeral.marked 4 word.toNat ++ (" " ++ ("at " ++ place address))
  | .stackOverflow address => place address ++ (" " ++ "with 16 return addresses already stored")
  | .stackUnderflow address => place address ++ (" " ++ "with an empty call stack")
  | .misalignedJump target address => place target ++ (" " ++ ("at " ++ place address))

theorem message_eq (f : Fault) : f.message = f.opening ++ f.figures := by
  have spaced : " at " = " " ++ "at " := rfl
  have stored : s!" with {CallStack.capacity} return addresses already stored" =
      " " ++ "with 16 return addresses already stored" := rfl
  have empty : " with an empty call stack" = " " ++ "with an empty call stack" := rfl
  unfold message opening figures
  cases f with
  | illegalOpcode word address => simp only [spaced, String.append_assoc]
  | stackOverflow address => simp only [stored, String.append_assoc]
  | stackUnderflow address => simp only [empty, String.append_assoc]
  | misalignedJump target address => simp only [spaced, String.append_assoc]

/- The letters that a text of a fault begins with tell its kind. -/
theorem opening_eq (same : f.message = g.message) : f.opening = g.opening := by
  have chars := congrArg String.toList same
  rw [message_eq, message_eq, String.toList_append, String.toList_append] at chars
  generalize f.figures.toList = rest at chars
  generalize g.figures.toList = rest' at chars
  cases f <;> cases g <;> simp [opening] at chars ⊢

theorem message_inj (same : f.message = g.message) : f = g := by
  have kind := opening_eq same
  rw [message_eq, message_eq, kind, String.append_right_inj] at same
  cases f <;> cases g <;> simp [opening] at kind
  case illegalOpcode.illegalOpcode word address word' address' =>
    obtain ⟨words, places⟩ := Numeral.marked_append_inj same
    rw [UInt16.toNat_inj.mp words, place_inj ((String.append_right_inj "at ").mp places)]
  case stackOverflow.stackOverflow address address' =>
    rw [UInt16.toNat_inj.mp (Numeral.marked_append_inj same).1]
  case stackUnderflow.stackUnderflow address address' =>
    rw [UInt16.toNat_inj.mp (Numeral.marked_append_inj same).1]
  case misalignedJump.misalignedJump target address target' address' =>
    obtain ⟨targets, places⟩ := Numeral.marked_append_inj same
    rw [UInt16.toNat_inj.mp targets, place_inj ((String.append_right_inj "at ").mp places)]

end Fault

namespace Logger

/-- The log does not show how many frames were asked for. -/
def HidesFrames (logger : Logger) : Prop :=
  ∀ path size frames others,
    logger (.running path size frames) = logger (.running path size others)

theorem write_off (notes : List Note) : off.write notes = "" := by
  induction notes with
  | nil => rfl
  | cons note rest ih => exact ih

theorem write_replace (logger : Logger) {one other : Note} (same : logger one = logger other)
    (before after : List Note) :
    logger.write (before ++ one :: after) = logger.write (before ++ other :: after) := by
  simp only [write, List.map_append, List.map_cons, same]

theorem off_hidesFrames : off.HidesFrames := fun _ _ _ _ => rfl

/-- A log of errors, or of errors and warnings, hides the frames, and no other log does. -/
theorem upTo_hidesFrames_iff (threshold : Level) :
    (upTo threshold).HidesFrames ↔ threshold.rank < Level.info.rank := by
  constructor
  · intro hides
    cases threshold with
    | error | warn => decide
    | info | debug | trace => exact absurd (hides "" 0 0 1) (by decide)
  · intro serious path size frames others
    cases threshold with
    | error | warn => rfl
    | info | debug | trace => exact absurd serious (by decide)

end Logger

namespace Report

variable {wording : Options.Error → String} {read : String → Except AccessError (Array UInt8)}
  {arguments : List String} {options : Options} {rom : Rom} {r : Report} {screen other : Screen}
  {m n : Nat} {f g : Fault}

def noWords (_ : Options.Error) : String := ""

/-- The report of a run that the fault stopped in the frame. -/
structure Stops (r : Report) (screen : Screen) (frame : Nat) (f : Fault) : Prop where
  exit : r.exit = 1
  stdout : r.stdout = screen.text ++ "\n"
  stderr : ∀ logger, r.stderr logger = logger.write r.log ++
    s!"Error: stopped at frame {frame}\n\nCaused by:\n    {f.message}\n"

structure Finishes (r : Report) (screen : Screen) : Prop where
  exit : r.exit = 0
  stdout : r.stdout = screen.text ++ "\n"
  stderr : ∀ logger, r.stderr logger = logger.write r.log

theorem ofArguments_of_loaded (parsed : Options.parse arguments = .ok options)
    (loaded : Rom.ofFile (read options.rom) = .ok rom) :
    ofArguments wording read arguments = ofRom options rom := by
  simp only [ofArguments, parsed, loaded]

theorem toList_errorText (what : String) (causes : List String) :
    ∃ rest, (errorText what causes).toList = "Error: ".toList ++ (what.toList ++ '\n' :: rest) := by
  simp only [errorText, List.cons_append, String.intercalate_cons_cons, String.toList_append,
    List.append_assoc]
  exact ⟨_, rfl⟩

theorem errorText_inj {one two : String} {causes more : List String}
    (line : '\n' ∉ one.toList ∧ '\n' ∉ two.toList)
    (same : errorText one causes = errorText two more) : one = two := by
  obtain ⟨rest, first⟩ := toList_errorText one causes
  obtain ⟨rest', second⟩ := toList_errorText two more
  rw [same, second] at first
  have chars := List.append_cancel_left first.symm
  exact String.toList_inj.mp (Fields.cut_inj line.1 line.2 chars).1

theorem stopped_eq (frame : Nat) :
    s!"stopped at frame {frame}" =
      "stopped at frame " ++ String.ofList (Nat.toDigits 10 frame) := rfl

theorem line_stopped (frame : Nat) : '\n' ∉ s!"stopped at frame {frame}".toList := by
  have digits : '\n' ∉ Nat.toDigits 10 frame := by
    intro member
    exact absurd (Nat.isDigit_of_mem_toDigits (by decide) (by decide) member) (by decide)
  rw [stopped_eq]
  simp [digits]

theorem stopped_inj {causes more : List String}
    (same : errorText s!"stopped at frame {m}" causes = errorText s!"stopped at frame {n}" more) :
    m = n := by
  have line := errorText_inj ⟨line_stopped m, line_stopped n⟩ same
  rw [stopped_eq, stopped_eq, String.append_right_inj] at line
  have digits : Nat.toDigits 10 m = Nat.toDigits 10 n := String.ofList_injective line
  have number := congrArg (Nat.ofDigitChars 10 · 0) digits
  rwa [Nat.ofDigitChars_ten_toDigits, Nat.ofDigitChars_ten_toDigits] at number

theorem failed_ne_stopped (path : String) (causes more : List String) :
    errorText ("failed to load " ++ path) causes ≠ errorText s!"stopped at frame {n}" more := by
  intro same
  obtain ⟨rest, first⟩ := toList_errorText ("failed to load " ++ path) causes
  obtain ⟨rest', second⟩ := toList_errorText s!"stopped at frame {n}" more
  rw [same, second] at first
  have chars := List.append_cancel_left first
  rw [stopped_eq] at chars
  simp at chars

theorem errorText_stopped (frame : Nat) (f : Fault) :
    errorText s!"stopped at frame {frame}" [f.message] =
      s!"Error: stopped at frame {frame}\n\nCaused by:\n    {f.message}\n" := by
  generalize f.message = message
  have opening : "Error: stopped at frame " = "Error: " ++ "stopped at frame " := rfl
  have middle : "\n\nCaused by:\n    " = "\n" ++ "\n" ++ "Caused by:" ++ "\n" ++ "    " := rfl
  simp only [errorText, causeLines, opening, middle, List.cons_append, List.nil_append,
    String.intercalate_cons_cons, String.intercalate_singleton, String.append_assoc]
  rfl

theorem stderr_off (r : Report) : r.stderr .off = r.complaint := by
  rw [stderr, Logger.write_off, String.empty_append]

theorem Stops.stderr_off {frame : Nat} (stops : r.Stops screen frame f) : r.stderr .off =
    s!"Error: stopped at frame {frame}\n\nCaused by:\n    {f.message}\n" := by
  rw [stops.stderr, Logger.write_off, String.empty_append]

theorem stops_of_stopped {frame : Nat} {last : Session}
    (played : (Session.ofOptions options rom).play options.keys 0 options.frames =
      .stopped frame f last) : (ofRom options rom).Stops last.machine.screen frame f := by
  rw [ofRom, played]
  refine ⟨rfl, rfl, fun logger => ?_⟩
  rw [← errorText_stopped]
  rfl

theorem finishes_of_finished {last : Session}
    (played : (Session.ofOptions options rom).play options.keys 0 options.frames =
      .finished last) : (ofRom options rom).Finishes last.machine.screen := by
  rw [ofRom, played]
  exact ⟨rfl, rfl, fun logger => String.append_empty⟩

/-- The reports differ at most in the line of the log that says how many frames were asked for, and
not at all for whoever is not shown the number. -/
structure Alike (one other : Report) : Prop where
  exit : one.exit = other.exit
  stdout : one.stdout = other.stdout
  log : ∃ before path size frames others after,
    one.log = before ++ .running path size frames :: after ∧
    other.log = before ++ .running path size others :: after
  stderr : ∀ logger : Logger, logger.HidesFrames → one.stderr logger = other.stderr logger

theorem log_ofEnding (options : Options) (rom : Rom) (ending : Ending) : ∃ before after, ∀ frames,
    (ofEnding { options with frames } rom ending).log =
      before ++ .running options.rom rom.size frames :: after := by
  have opened (frames : Nat) :
      Session.opened { options with frames } rom = Session.opened options rom := rfl
  simp only [ofEnding, preface, opened, List.append_assoc, List.singleton_append]
  exact ⟨_, _, fun frames => (List.append_assoc _ _ _).symm⟩

theorem ofEnding_alike (options : Options) (rom : Rom) (ending : Ending) (frames : Nat) :
    (ofEnding { options with frames } rom ending).Alike (ofEnding options rom ending) := by
  obtain ⟨before, after, log⟩ := log_ofEnding options rom ending
  refine ⟨rfl, rfl, ⟨before, _, _, _, _, after, log frames, log options.frames⟩, ?_⟩
  intro logger hides
  have written : logger.write (ofEnding { options with frames } rom ending).log =
      logger.write (ofEnding options rom ending).log := by
    rw [log frames, log options.frames]
    exact logger.write_replace (hides _ _ _ _) before after
  exact congrArg (· ++ (ofEnding options rom ending).complaint) written

/-- The frame, the fault and the screen can be read off the report of a run that was stopped. -/
theorem Stops.unique (one : r.Stops screen m f) (two : r.Stops other n g) :
    screen = other ∧ m = n ∧ f = g := by
  have screens : screen = other :=
    Screen.text_inj _ ((String.append_left_inj "\n").mp (one.stdout.symm.trans two.stdout))
  have texts := one.stderr_off.symm.trans two.stderr_off
  have frames : m = n := by
    rw [← errorText_stopped, ← errorText_stopped] at texts
    exact stopped_inj texts
  subst frames
  rw [String.append_left_inj, String.append_right_inj] at texts
  exact ⟨screens, rfl, Fault.message_inj texts⟩

end Report

end Chip8
