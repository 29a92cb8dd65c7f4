import Chip8.Proofs.FaultLatch
import Chip8.Proofs.FrameSize
import Chip8.Proofs.Playback

namespace Chip8

namespace Session

variable {s last : Session} {f : Fault} {n : Nat}

theorem keeps_rate (rate : Nat) : Keeps fun s => s.rate = rate where
  start := by
    intro s same
    unfold start
    split <;> exact same
  stop := fun _ same => same
  step := by
    intro s same
    rcases s.step_cases with ⟨f, -, stepped⟩ | ⟨-, x, -, stepped⟩ | ⟨-, -, f, -, stepped⟩ |
      ⟨-, i, next, -, stepped⟩ <;> exact stepped ▸ same
  tick := fun _ same => same
  key := fun _ _ _ same => same
  load := fun _ _ same => same

theorem faultsAfter_of_burst (clear : s.fault = none) (executed : Nat)
    (burst : s.burst executed n = (.error f, last)) :
    ∃ e < n, s.machine.FaultsAfter e f ∧ last.machine = (s.machine.cycles e).2 := by
  induction n generalizing s executed with
  | zero => simp [Session.burst] at burst
  | succ n ih =>
    simp only [Session.burst] at burst
    rcases s.step_cases with ⟨g, latched, -⟩ | ⟨-, x, -, stepped⟩ |
      ⟨-, -, g, cycled, stepped⟩ | ⟨-, i, next, cycled, stepped⟩
    · rw [clear] at latched
      contradiction
    · rw [stepped] at burst
      cases burst
    · rw [stepped] at burst
      cases burst
      exact ⟨0, Nat.succ_pos n, Machine.faultsAfter_zero.mpr (congrArg Prod.fst cycled), rfl⟩
    · rw [stepped] at burst
      obtain ⟨e, inside, faults, machine⟩ :=
        ih (s := { s with machine := next, host := _ }) clear _ burst
      refine ⟨e + 1, Nat.succ_lt_succ inside, ?_, ?_⟩
      · rw [Machine.faultsAfter_succ, cycled]
        exact ⟨⟨i, rfl⟩, faults⟩
      · rw [machine, Machine.cycles_succ, cycled]

theorem faultsAfter_of_frame (consistent : Consistent s) (framed : s.frame = (.error f, last)) :
    ∃ e < s.rate, s.machine.FaultsAfter e f ∧ last.machine = (s.machine.cycles e).2 := by
  unfold frame at framed
  split at framed
  · rename_i runs
    split at framed
    · cases framed
    · rename_i g next burst
      cases framed
      exact faultsAfter_of_burst (consistent.clear_of_running runs) 0 burst
  · cases framed

theorem frame_of_scriptedFrame {script : KeyScript} {frame : Nat}
    (failed : s.scriptedFrame script frame = (.error f, last)) :
    (s.setKeys (script.keysAt frame) true).frame = (.error f, last) := by
  simp only [scriptedFrame] at failed
  split at failed
  · cases failed
  · rename_i g next framed
    cases failed
    exact framed

theorem ofOptions_consistent (options : Options) (rom : Rom) : Consistent (ofOptions options rom) :=
  start_consistent _ (consistent_of_clear rfl)

end Session

namespace Report

variable {wording : Options.Error → String} {read : String → Except AccessError (Array UInt8)}
  {arguments : List String} {options : Options} {rom : Rom} {frame : Nat}

/- A report that names the frame comes from a playback that was stopped in it. -/
theorem stopped_of_stderr {causes : List String} (parsed : Options.parse arguments = .ok options)
    (said : (ofArguments wording read arguments).stderr .off =
      errorText s!"stopped at frame {frame}" causes) :
    ∃ rom f last, Rom.ofFile (read options.rom) = .ok rom ∧
      (Session.ofOptions options rom).play options.keys 0 options.frames =
        .stopped frame f last := by
  rw [stderr_off] at said
  cases loaded : Rom.ofFile (read options.rom) with
  | error e =>
    simp only [ofArguments, parsed, loaded] at said
    exact absurd said (failed_ne_stopped options.rom e.causes causes)
  | ok rom =>
    rw [ofArguments_of_loaded parsed loaded, ofRom] at said
    cases played : (Session.ofOptions options rom).play options.keys 0 options.frames with
    | finished t =>
      rw [played] at said
      obtain ⟨rest, text⟩ := toList_errorText s!"stopped at frame {frame}" causes
      rw [← said] at text
      simp [ofEnding] at text
    | stopped reached f last =>
      rw [played] at said
      exact ⟨rom, f, last, rfl, stopped_inj said ▸ played⟩

theorem finished_of_exit (parsed : Options.parse arguments = .ok options)
    (ended : (ofArguments wording read arguments).exit = 0) :
    ∃ rom t, Rom.ofFile (read options.rom) = .ok rom ∧
      (Session.ofOptions options rom).play options.keys 0 options.frames = .finished t := by
  cases loaded : Rom.ofFile (read options.rom) with
  | error e =>
    simp only [ofArguments, parsed, loaded] at ended
    contradiction
  | ok rom =>
    rw [ofArguments_of_loaded parsed loaded, ofRom] at ended
    cases played : (Session.ofOptions options rom).play options.keys 0 options.frames with
    | finished t => exact ⟨rom, t, rfl, played⟩
    | stopped reached f last =>
      rw [played] at ended
      contradiction

theorem exit_of_finished {t : Session} (parsed : Options.parse arguments = .ok options)
    (loaded : Rom.ofFile (read options.rom) = .ok rom)
    (finished : (Session.ofOptions options rom).play options.keys 0 options.frames = .finished t) :
    (ofArguments wording read arguments).exit = 0 := by
  rw [ofArguments_of_loaded parsed loaded, ofRom, finished]
  rfl

/- The screen is the one that the last instruction before the fault left. -/
theorem ofRom_of_stopped {f : Fault} {last : Session}
    (stopped : (Session.ofOptions options rom).play options.keys 0 options.frames =
      .stopped frame f last) :
    ∃ t e, (Session.ofOptions options rom).play options.keys 0 frame = .finished t ∧
      e < options.settings.rate ∧
      (t.setKeys (options.keys.keysAt frame) true).machine.FaultsAfter e f ∧
      (ofRom options rom).Stops
        ((t.setKeys (options.keys.keysAt frame) true).machine.cycles e).2.screen frame f := by
  obtain ⟨k, t, -, same, played, failed⟩ := Session.play_eq_stopped_iff.mp stopped
  rw [Nat.zero_add] at same
  rw [← same] at played
  have consistent : t.Consistent := by
    have kept := Session.keeps_consistent.play options.keys 0 frame
      (Session.ofOptions_consistent options rom)
    rwa [played] at kept
  have rate : t.rate = options.settings.rate := by
    have kept := (Session.keeps_rate options.settings.rate).play options.keys 0 frame
      (s := Session.ofOptions options rom) rfl
    rwa [played] at kept
  have pressed := Session.keeps_consistent.setKeys (options.keys.keysAt frame) true consistent
  obtain ⟨e, inside, faults, machine⟩ :=
    Session.faultsAfter_of_frame pressed (Session.frame_of_scriptedFrame failed)
  rw [(Session.keeps_rate options.settings.rate).setKeys _ true rate] at inside
  exact ⟨t, e, played, inside, faults, machine ▸ stops_of_stopped stopped⟩

/-- A command line that is stopped by a fault has asked for the frame of the fault and prints the
screen from just before it. All others that differ in nothing but the number of frames leave the
same behind if they ask for that frame too, but for what the log may say of the number, and meet no
fault if they do not. Where there is no fault there is none in fewer frames. -/
theorem frame_limit_only_truncates (wording : Options.Error → String)
    (parsed : Options.parse arguments = .ok options) :
    (∀ frame causes,
      (ofArguments wording read arguments).stderr .off =
        errorText s!"stopped at frame {frame}" causes →
      frame < options.frames ∧
      (∀ others frames, Options.parse others = .ok { options with frames } →
        (frame < frames →
          (ofArguments wording read others).Alike (ofArguments wording read arguments)) ∧
        (frames ≤ frame → (ofArguments wording read others).exit = 0)) ∧
      ∃ rom t e f, Rom.ofFile (read options.rom) = .ok rom ∧
        (Session.ofOptions options rom).play options.keys 0 frame = .finished t ∧
        e < options.settings.rate ∧
        (t.setKeys (options.keys.keysAt frame) true).machine.FaultsAfter e f ∧
        (ofArguments wording read arguments).Stops
          ((t.setKeys (options.keys.keysAt frame) true).machine.cycles e).2.screen frame f) ∧
    ((ofArguments wording read arguments).exit = 0 →
      ∀ others frames, Options.parse others = .ok { options with frames } →
        frames < options.frames → (ofArguments wording read others).exit = 0) := by
  constructor
  · intro frame causes said
    obtain ⟨rom, f, last, loaded, stopped⟩ := stopped_of_stderr parsed said
    obtain ⟨k, t, inside, same, played, -⟩ := Session.play_eq_stopped_iff.mp stopped
    rw [Nat.zero_add] at same
    refine ⟨same ▸ inside, ?_, ?_⟩
    · intro others frames reparsed
      constructor
      · intro more
        have again : (Session.ofOptions { options with frames } rom).play options.keys 0 frames =
            .stopped frame f last := Session.play_of_stopped stopped more
        rw [ofArguments_of_loaded parsed loaded, ofArguments_of_loaded reparsed loaded, ofRom,
          ofRom, stopped, again]
        exact ofEnding_alike options rom _ frames
      · intro fewer
        obtain ⟨u, finished⟩ := Session.play_of_finished played (same ▸ fewer)
        exact exit_of_finished reparsed loaded finished
    · obtain ⟨t, e, began, early, faults, stops⟩ := ofRom_of_stopped stopped
      rw [ofArguments_of_loaded parsed loaded]
      exact ⟨rom, t, e, f, loaded, began, early, faults, stops⟩
  · intro ended others frames reparsed fewer
    obtain ⟨rom, t, loaded, played⟩ := finished_of_exit parsed ended
    obtain ⟨u, finished⟩ := Session.play_of_finished played (Nat.le_of_lt fewer)
    exact exit_of_finished reparsed loaded finished

/- A program of one instruction, with none behind it. -/
def loadOnly : Rom where
  bytes := #[0x60, 0x01]

def loadOnlyFile (_ : String) : Except AccessError (Array UInt8) :=
  .ok loadOnly.bytes

def twoFrames : Options where
  rom := "rom"
  settings := { rate := 1 }
  frames := 2
  realtime := false
  keys := []

def afterLoad : Machine :=
  { Machine.boot loadOnly { rate := 1 } with pc := 0x202, registers := Registers.zero.set 0 1 }

theorem frame_limit_only_truncates_load :
    (ofArguments noWords loadOnlyFile
        ["rom", "--instructions-per-tick=1", "--frames=2"]).stderr .off =
      errorText s!"stopped at frame {1}" [(Fault.illegalOpcode 0 0x202).message] ∧
    (ofArguments noWords loadOnlyFile
        ["rom", "--instructions-per-tick=1", "--frames=9"]).stderr (.upTo .error) =
      (ofArguments noWords loadOnlyFile
        ["rom", "--instructions-per-tick=1", "--frames=2"]).stderr (.upTo .error) ∧
    (ofArguments noWords loadOnlyFile
        ["rom", "--instructions-per-tick=1", "--frames=1"]).exit = 0 := by
  have two : Options.parse ["rom", "--instructions-per-tick=1", "--frames=2"] =
      .ok twoFrames := rfl
  have nine : Options.parse ["rom", "--instructions-per-tick=1", "--frames=9"] =
      .ok { twoFrames with frames := 9 } := rfl
  have one : Options.parse ["rom", "--instructions-per-tick=1", "--frames=1"] =
      .ok { twoFrames with frames := 1 } := rfl
  have loaded : Rom.ofFile (loadOnlyFile twoFrames.rom) = .ok loadOnly := rfl
  have atStart : Instruction.decode? (Machine.boot loadOnly { rate := 1 }).fetch =
      some (.load 0 1) := by
    rw [Machine.fetch_of_loaded (m := Machine.boot loadOnly { rate := 1 }) loadOnly rfl]
    decide
  have nothing : afterLoad.fetch = 0 := by
    rw [Machine.fetch_of_loaded (m := afterLoad) loadOnly rfl]
    decide
  have first : (Machine.boot loadOnly { rate := 1 }).cycle = (.executed (.load 0 1), afterLoad) :=
    Machine.cycle_of_ok rfl atStart rfl
  have second : afterLoad.cycle = (.fault (.illegalOpcode 0 0x202), afterLoad) := by
    have met := Machine.cycle_of_illegal (m := afterLoad) rfl (by rw [nothing]; decide)
    rwa [nothing] at met
  have ran : (Machine.boot loadOnly { rate := 1 }).cycles 2 =
      ([.executed (.load 0 1), .fault (.illegalOpcode 0 0x202)], afterLoad) := by
    rw [Machine.cycles_succ, first, Machine.cycles_of_fixed second]
    rfl
  have untimed : (Machine.boot loadOnly { rate := 1 }).Untimed 2 := by
    intro i executed
    rw [ran] at executed
    simp at executed
    rw [executed]
    rfl
  have faults : (Machine.boot loadOnly { rate := 1 }).FaultsAfter 1 (.illegalOpcode 0 0x202) := by
    rw [Machine.faultsAfter_succ, Machine.faultsAfter_zero, first, second]
    exact ⟨⟨_, rfl⟩, rfl⟩
  have said : (ofArguments noWords loadOnlyFile
      ["rom", "--instructions-per-tick=1", "--frames=2"]).stderr .off =
      errorText s!"stopped at frame {1}" [(Fault.illegalOpcode 0 0x202).message] := by
    have noKeys : twoFrames.keys = [] := rfl
    have stops := ofRom_of_fault noKeys untimed (by decide) faults
    rw [ofArguments_of_loaded two loaded, stops.stderr_off, errorText_stopped]
    rfl
  obtain ⟨-, limits, -⟩ := (frame_limit_only_truncates noWords two).1 1 _ said
  have hides : (Logger.upTo .error).HidesFrames :=
    (Logger.upTo_hidesFrames_iff .error).mpr (by decide)
  exact ⟨said, ((limits _ 9 nine).1 (by decide)).stderr _ hides, (limits _ 1 one).2 (by decide)⟩

end Report

end Chip8
