import Chip8.Proofs.Interference
import Chip8.Proofs.Reports
import Chip8.Proofs.Stepping

/-!
# The size of a frame

The bare run of a program is one cycle after another, with nothing between them. A playback without
keys cuts it into frames and lets the timers tick at the end of each, which a program that does not
read the timers cannot tell. So the frames decide neither what ends up on the screen nor which fault
ends the playback, only the number that a fault is reported with.
-/

namespace Chip8

namespace Machine

variable {m : Machine} {f : Fault} {e n : Nat}

def cycles (m : Machine) (n : Nat) : List Outcome × Machine :=
  m.run (.replicate n .cycle)

/-- The machine carries out `e` instructions, and then it meets the fault. -/
def FaultsAfter (m : Machine) (e : Nat) (f : Fault) : Prop :=
  (∀ o ∈ (m.cycles e).1, ∃ i, o = .executed i) ∧ (m.cycles e).2.cycle.1 = .fault f

def Untimed (m : Machine) (n : Nat) : Prop :=
  ∀ i, .executed i ∈ (m.cycles n).1 → i.readsTimer = false

theorem boot_congr {rom : Rom} {one other : Settings} (seed : one.seed = other.seed)
    (stream : one.stream = other.stream) (dialect : one.dialect = other.dialect) :
    boot rom one = boot rom other := by
  simp only [boot, seed, stream, dialect]

theorem cycles_succ (m : Machine) (n : Nat) : m.cycles (n + 1) =
    (m.cycle.1 :: (m.cycle.2.cycles n).1, (m.cycle.2.cycles n).2) := rfl

theorem cycles_add (m : Machine) (first second : Nat) : m.cycles (first + second) =
    ((m.cycles first).1 ++ ((m.cycles first).2.cycles second).1,
      ((m.cycles first).2.cycles second).2) := by
  simp only [cycles, ← List.replicate_append_replicate, run_append]

theorem cycles_of_fixed {o : Outcome} (fixed : m.cycle = (o, m)) (n : Nat) :
    m.cycles n = (.replicate n o, m) :=
  run_cycles_of_fixed fixed n

theorem Untimed.now (untimed : m.Untimed (n + 1)) (i : Instruction)
    (executed : m.cycle.1 = .executed i) : i.readsTimer = false := by
  apply untimed
  rw [cycles_succ, executed]
  exact List.mem_cons_self

theorem Untimed.later (untimed : m.Untimed (n + 1)) : m.cycle.2.Untimed n :=
  fun i executed => untimed i (List.mem_cons_of_mem _ executed)

theorem Untimed.left {rest : Nat} (untimed : m.Untimed (n + rest)) : m.Untimed n := by
  intro i executed
  apply untimed
  rw [cycles_add]
  exact List.mem_append_left _ executed

theorem Untimed.right {rest : Nat} (untimed : m.Untimed (n + rest)) :
    (m.cycles n).2.Untimed rest := by
  intro i executed
  apply untimed
  rw [cycles_add]
  exact List.mem_append_right _ executed

theorem faultsAfter_zero : m.FaultsAfter 0 f ↔ m.cycle.1 = .fault f := by
  constructor
  · exact fun faults => faults.2
  · intro met
    refine ⟨?_, met⟩
    rintro o ⟨⟩

theorem faultsAfter_succ : m.FaultsAfter (e + 1) f ↔
    (∃ i, m.cycle.1 = .executed i) ∧ m.cycle.2.FaultsAfter e f := by
  simp only [FaultsAfter, cycles_succ, List.forall_mem_cons, and_assoc]

theorem faultsAfter_add {rest : Nat} : m.FaultsAfter (e + rest) f ↔
    (∀ o ∈ (m.cycles e).1, ∃ i, o = .executed i) ∧ (m.cycles e).2.FaultsAfter rest f := by
  simp only [FaultsAfter, cycles_add, List.forall_mem_append, and_assoc]

/- A fault among the outcomes comes first after instructions only: a machine that waits waits for
good when nobody presses a key. -/
theorem faultsAfter_of_mem (member : .fault f ∈ (m.cycles n).1) : ∃ e < n, m.FaultsAfter e f := by
  induction n generalizing m with
  | zero => contradiction
  | succ n ih =>
    rcases m.cycle_cases with ⟨x, -, cycled⟩ | ⟨-, g, cycled⟩ | ⟨-, i, next, -, -, cycled⟩
    · rw [cycles_of_fixed cycled] at member
      exact nomatch List.eq_of_mem_replicate member
    · rw [cycles_of_fixed cycled] at member
      cases Outcome.fault.inj (List.eq_of_mem_replicate member)
      exact ⟨0, Nat.succ_pos n, faultsAfter_zero.mpr (congrArg Prod.fst cycled)⟩
    · have executed : m.cycle.1 = .executed i := congrArg Prod.fst cycled
      rw [cycles_succ, executed] at member
      rcases List.mem_cons.mp member with same | later
      · contradiction
      · obtain ⟨e, before, faults⟩ := ih later
        exact ⟨e + 1, Nat.succ_lt_succ before, faultsAfter_succ.mpr ⟨⟨i, executed⟩, faults⟩⟩

end Machine

/- A command line chooses the seed of the random bytes, never what a seed stands for. -/
theorem Options.parse_stream {arguments : List String} {options : Options}
    (parsed : parse arguments = .ok options) : options.settings.stream = Random.byteAt := by
  unfold parse at parsed
  split at parsed
  · rename_i draft _
    unfold Draft.finish at parsed
    split at parsed
    · cases parsed
    · cases parsed
      rfl
  · cases parsed

namespace Session

variable {s : Session} {m : Machine} {rate e n : Nat} {f : Fault} {i : Instruction} {x : UInt8}

/-- The session runs at the rate, and its machine differs from the given one at most in its
timers. -/
structure Follows (s : Session) (rate : Nat) (m : Machine) : Prop where
  rate_eq : s.rate = rate
  running : s.running = true
  clear : s.fault = none
  beside : ∃ t, s.machine = m.beside t m.keypad

theorem Follows.cycle (follows : s.Follows rate m)
    (untimed : ∀ i, m.cycle.1 = .executed i → i.readsTimer = false) :
    ∃ t, s.machine.cycle = (m.cycle.1, m.cycle.2.beside t m.cycle.2.keypad) := by
  obtain ⟨t, machine⟩ := follows.beside
  rw [machine, m.cycle_keypad]
  exact Machine.cycle_beside t untimed (.inr rfl)

theorem Follows.step_of_executed (follows : s.Follows rate m)
    (untimed : ∀ i, m.cycle.1 = .executed i → i.readsTimer = false)
    (executed : m.cycle.1 = .executed i) :
    ∃ next, s.step = (.executed i, next) ∧ next.Follows rate m.cycle.2 := by
  obtain ⟨t, cycled⟩ := follows.cycle untimed
  rw [executed] at cycled
  exact ⟨_, Session.step_of_executed follows.clear cycled,
    follows.rate_eq, follows.running, follows.clear, t, rfl⟩

theorem Follows.step_of_waiting (follows : s.Follows rate m) (waits : m.waiting = some x) :
    s.step = (.waiting, s) := by
  obtain ⟨t, machine⟩ := follows.beside
  apply Session.step_of_waiting follows.clear (x := x)
  rw [machine]
  exact waits

theorem Follows.step_of_fault (follows : s.Follows rate m) (met : m.cycle.1 = .fault f) :
    ∃ next, s.step = (.fault f, next) ∧ next.machine.screen = m.screen := by
  obtain ⟨t, cycled⟩ := follows.cycle fun i executed => by
    rw [met] at executed
    contradiction
  rw [Machine.cycle_of_fault met] at cycled
  exact ⟨_, Session.step_of_fault follows.clear cycled, rfl⟩

theorem Follows.tick (follows : s.Follows rate m) : s.tick.Follows rate m := by
  obtain ⟨t, machine⟩ := follows.beside
  refine ⟨follows.rate_eq, follows.running, follows.clear, t.tick, ?_⟩
  simp only [Session.tick, machine]
  rfl

theorem Follows.burst (follows : s.Follows rate m) (untimed : m.Untimed n)
    (faultless : ∀ f, .fault f ∉ (m.cycles n).1) (k : Nat) :
    ∃ executed next, s.burst k n = (.ok executed, next) ∧ next.Follows rate (m.cycles n).2 := by
  induction n generalizing s m k with
  | zero => exact ⟨k, s, rfl, follows⟩
  | succ n ih =>
    rcases m.cycle_cases with ⟨x, waits, cycled⟩ | ⟨-, f, cycled⟩ | ⟨-, i, next, -, -, cycled⟩
    · refine ⟨k, s, ?_, ?_⟩
      · simp only [Session.burst, follows.step_of_waiting waits]
      · rw [Machine.cycles_of_fixed cycled]
        exact follows
    · refine absurd ?_ (faultless f)
      rw [Machine.cycles_succ, cycled]
      exact List.mem_cons_self
    · obtain ⟨after, stepped, ahead⟩ :=
        follows.step_of_executed untimed.now (congrArg Prod.fst cycled)
      simp only [Session.burst, stepped]
      exact ih ahead untimed.later (fun f member => faultless f (List.mem_cons_of_mem _ member)) _

theorem Follows.burst_of_fault (follows : s.Follows rate m) (untimed : m.Untimed n) (inside : e < n)
    (faults : m.FaultsAfter e f) (k : Nat) :
    ∃ next, s.burst k n = (.error f, next) ∧ next.machine.screen = (m.cycles e).2.screen := by
  induction e generalizing s m n k with
  | zero =>
    obtain ⟨n, rfl⟩ := Nat.exists_eq_succ_of_ne_zero inside.ne'
    obtain ⟨next, stepped, screen⟩ := follows.step_of_fault (Machine.faultsAfter_zero.mp faults)
    exact ⟨next, by simp only [Session.burst, stepped], screen⟩
  | succ e ih =>
    obtain ⟨n, rfl⟩ := Nat.exists_eq_succ_of_ne_zero (Nat.ne_zero_of_lt inside)
    obtain ⟨⟨i, executed⟩, later⟩ := Machine.faultsAfter_succ.mp faults
    obtain ⟨after, stepped, ahead⟩ := follows.step_of_executed untimed.now executed
    simp only [Session.burst, stepped]
    exact ih ahead untimed.later (Nat.lt_of_succ_lt_succ inside) later _

theorem Follows.frame (follows : s.Follows rate m) (untimed : m.Untimed rate)
    (faultless : ∀ f, .fault f ∉ (m.cycles rate).1) :
    ∃ executed next, s.frame = (.ok executed, next) ∧ next.Follows rate (m.cycles rate).2 := by
  obtain ⟨executed, next, burst, ahead⟩ := follows.burst untimed faultless 0
  refine ⟨executed, next.tick, ?_, ahead.tick⟩
  simp only [Session.frame, follows.running, follows.rate_eq, burst, if_true]

theorem Follows.frame_of_fault (follows : s.Follows rate m) (untimed : m.Untimed rate)
    (inside : e < rate) (faults : m.FaultsAfter e f) :
    ∃ next, s.frame = (.error f, next) ∧ next.machine.screen = (m.cycles e).2.screen := by
  obtain ⟨next, burst, screen⟩ := follows.burst_of_fault untimed inside faults 0
  refine ⟨next, ?_, screen⟩
  simp only [Session.frame, follows.running, follows.rate_eq, burst, if_true]

theorem Follows.play (follows : s.Follows rate m) (untimed : m.Untimed (rate * n))
    (faultless : ∀ f, .fault f ∉ (m.cycles (rate * n)).1) (k : Nat) :
    ∃ last, s.play [] k n = .finished last ∧ last.Follows rate (m.cycles (rate * n)).2 := by
  induction n generalizing s m k with
  | zero => exact ⟨s, rfl, follows⟩
  | succ n ih =>
    have total : rate * (n + 1) = rate + rate * n := by rw [Nat.mul_succ, Nat.add_comm]
    rw [total] at untimed faultless ⊢
    rw [Machine.cycles_add] at faultless ⊢
    obtain ⟨executed, next, frame, ahead⟩ := follows.frame untimed.left
      fun f member => faultless f (List.mem_append_left _ member)
    simp only [Session.play, scriptedFrame_nil, frame]
    exact ih ahead untimed.right (fun f member => faultless f (List.mem_append_right _ member)) _

theorem Follows.play_of_fault (follows : s.Follows rate m) (untimed : m.Untimed (rate * n))
    (inside : e < rate * n) (faults : m.FaultsAfter e f) (k : Nat) :
    ∃ last, s.play [] k n = .stopped (k + e / rate) f last ∧
      last.machine.screen = (m.cycles e).2.screen := by
  induction n generalizing s m e k with
  | zero => exact absurd inside (Nat.not_lt_zero e)
  | succ n ih =>
    have total : rate * (n + 1) = rate + rate * n := by rw [Nat.mul_succ, Nat.add_comm]
    rw [total] at untimed inside
    -- The fault comes up in this frame, or it is counted on from the frame after it.
    rcases Nat.lt_or_ge e rate with here | beyond
    · obtain ⟨last, frame, screen⟩ := follows.frame_of_fault untimed.left here faults
      refine ⟨last, ?_, screen⟩
      simp only [Session.play, scriptedFrame_nil, frame, Nat.div_eq_of_lt here, Nat.add_zero]
    · obtain ⟨e, rfl⟩ := Nat.exists_eq_add_of_le beyond
      obtain ⟨carried, later⟩ := Machine.faultsAfter_add.mp faults
      obtain ⟨executed, next, frame, ahead⟩ := follows.frame untimed.left fun f member => by
        obtain ⟨i, same⟩ := carried _ member
        contradiction
      have positive : 0 < rate := by
        rcases Nat.eq_zero_or_pos rate with rfl | positive
        · simp at inside
        · exact positive
      obtain ⟨last, played, screen⟩ := ih ahead untimed.right (Nat.lt_of_add_lt_add_left inside)
        later (k + 1)
      refine ⟨last, ?_, ?_⟩
      · simp only [Session.play, scriptedFrame_nil, frame, played, Nat.add_div_left e positive]
        congr 1
        omega
      · rw [screen, Machine.cycles_add]

theorem ofOptions_follows (options : Options) (rom : Rom) : (ofOptions options rom).Follows
    options.settings.rate (.boot rom options.settings) where
  rate_eq := rfl
  running := rfl
  clear := rfl
  beside := ⟨{}, rfl⟩

end Session

namespace Report

variable {read : String → Except AccessError (Array UInt8)} {options : Options} {rom : Rom} {e : Nat}
  {f : Fault}

theorem ofRom_of_fault (noKeys : options.keys = [])
    (untimed : (Machine.boot rom options.settings).Untimed (options.settings.rate * options.frames))
    (inside : e < options.settings.rate * options.frames)
    (faults : (Machine.boot rom options.settings).FaultsAfter e f) :
    (ofRom options rom).Stops ((Machine.boot rom options.settings).cycles e).2.screen
      (e / options.settings.rate) f := by
  obtain ⟨last, played, screen⟩ :=
    (Session.ofOptions_follows options rom).play_of_fault untimed inside faults 0
  rw [← noKeys, Nat.zero_add] at played
  exact screen ▸ stops_of_stopped played

theorem ofRom_of_faultless (noKeys : options.keys = [])
    (untimed : (Machine.boot rom options.settings).Untimed (options.settings.rate * options.frames))
    (faultless : ∀ e f, e < options.settings.rate * options.frames →
      ¬(Machine.boot rom options.settings).FaultsAfter e f) :
    (ofRom options rom).Finishes ((Machine.boot rom options.settings).cycles
      (options.settings.rate * options.frames)).2.screen := by
  have clear : ∀ f, .fault f ∉ ((Machine.boot rom options.settings).cycles
      (options.settings.rate * options.frames)).1 := by
    intro f member
    obtain ⟨e, inside, faults⟩ := Machine.faultsAfter_of_mem member
    exact faultless e f inside faults
  obtain ⟨last, played, follows⟩ :=
    (Session.ofOptions_follows options rom).play untimed clear 0
  obtain ⟨t, machine⟩ := follows.beside
  rw [← noKeys] at played
  have finishes := finishes_of_finished played
  rwa [machine] at finishes

/-- Two command lines without keys that ask for as many instructions of one program, in frames of
different sizes, end alike: on the screen of the bare run, and with the fault of the bare run if it
meets one. Only the frame that they report the fault in depends on the size. -/
theorem frame_size_moves_only_the_fault (wording : Options.Error → String)
    {ones others : List String} {one other : Options}
    (parsed : Options.parse ones = .ok one ∧ Options.parse others = .ok other)
    (loaded : Rom.ofFile (read one.rom) = .ok rom ∧ Rom.ofFile (read other.rom) = .ok rom)
    (noKeys : one.keys = [] ∧ other.keys = [])
    (seed : one.settings.seed = other.settings.seed)
    (dialect : one.settings.dialect = other.settings.dialect)
    (total : one.settings.rate * one.frames = other.settings.rate * other.frames)
    (untimed : ∀ x, .executed (.readDelay x) ∉
      ((Machine.boot rom one.settings).cycles (one.settings.rate * one.frames)).1) :
    (∀ e f, e < one.settings.rate * one.frames →
      (Machine.boot rom one.settings).FaultsAfter e f →
      let screen := ((Machine.boot rom one.settings).cycles e).2.screen
      (ofArguments wording read ones).Stops screen (e / one.settings.rate) f ∧
      (ofArguments wording read others).Stops screen (e / other.settings.rate) f) ∧
    ((∀ e f, e < one.settings.rate * one.frames →
        ¬(Machine.boot rom one.settings).FaultsAfter e f) →
      let screen := ((Machine.boot rom one.settings).cycles
        (one.settings.rate * one.frames)).2.screen
      (ofArguments wording read ones).Finishes screen ∧
      (ofArguments wording read others).Finishes screen) := by
  have boots : Machine.boot rom one.settings = .boot rom other.settings :=
    Machine.boot_congr seed ((Options.parse_stream parsed.1).trans
      (Options.parse_stream parsed.2).symm) dialect
  have blind : (Machine.boot rom one.settings).Untimed (one.settings.rate * one.frames) := by
    intro i executed
    cases i with
    | readDelay x => exact absurd executed (untimed x)
    | _ => rfl
  rw [ofArguments_of_loaded parsed.1 loaded.1, ofArguments_of_loaded parsed.2 loaded.2]
  constructor
  · intro e f inside faults
    refine ⟨ofRom_of_fault noKeys.1 blind inside faults, ?_⟩
    rw [total] at inside blind
    rw [boots] at blind faults ⊢
    exact ofRom_of_fault noKeys.2 blind inside faults
  · intro faultless
    refine ⟨ofRom_of_faultless noKeys.1 blind faultless, ?_⟩
    rw [total] at blind faultless ⊢
    rw [boots] at blind faultless ⊢
    exact ofRom_of_faultless noKeys.2 blind faultless

/- A program that jumps to the word behind it, which is no instruction. -/
def jumpIntoNothing : Rom where
  bytes := #[0x12, 0x02]

def onDisk (_ : String) : Except AccessError (Array UInt8) :=
  .ok jumpIntoNothing.bytes

def beforeNothing : Machine :=
  { Machine.boot jumpIntoNothing {} with pc := 0x202 }

theorem frame_size_moves_only_the_fault_jump :
    (ofArguments noWords onDisk ["rom", "--instructions-per-tick=1", "--frames=2"]).stderr .off =
      "Error: stopped at frame 1\n\nCaused by:\n    illegal opcode 0x0000 at 0x202\n" ∧
    (ofArguments noWords onDisk
        ["--frames", "1", "--instructions-per-tick", "2", "rom"]).stderr .off =
      "Error: stopped at frame 0\n\nCaused by:\n    illegal opcode 0x0000 at 0x202\n" := by
  have atStart : Instruction.decode? (Machine.boot jumpIntoNothing {}).fetch =
      some (.jump 0x202) := by
    rw [Machine.fetch_of_loaded (m := Machine.boot jumpIntoNothing {}) jumpIntoNothing rfl]
    decide
  have nothing : beforeNothing.fetch = 0 := by
    rw [Machine.fetch_of_loaded (m := beforeNothing) jumpIntoNothing rfl]
    decide
  have jumped : (Machine.boot jumpIntoNothing {}).execute (.jump 0x202) = .ok beforeNothing :=
    (Machine.jump_eq_ok_iff (m := Machine.boot jumpIntoNothing {})).mpr ⟨by decide, rfl⟩
  have first : (Machine.boot jumpIntoNothing {}).cycle =
      (.executed (.jump 0x202), beforeNothing) :=
    Machine.cycle_of_ok rfl atStart jumped
  have second : beforeNothing.cycle = (.fault (.illegalOpcode 0 0x202), beforeNothing) := by
    have met := Machine.cycle_of_illegal (m := beforeNothing) rfl (by rw [nothing]; decide)
    rwa [nothing] at met
  have ran : (Machine.boot jumpIntoNothing {}).cycles 2 =
      ([.executed (.jump 0x202), .fault (.illegalOpcode 0 0x202)], beforeNothing) := by
    rw [Machine.cycles_succ, first, Machine.cycles_of_fixed second]
    rfl
  have faults : (Machine.boot jumpIntoNothing {}).FaultsAfter 1 (.illegalOpcode 0 0x202) := by
    rw [Machine.faultsAfter_succ, Machine.faultsAfter_zero, first, second]
    exact ⟨⟨_, rfl⟩, rfl⟩
  have small : Options.parse ["rom", "--instructions-per-tick=1", "--frames=2"] = .ok {
      rom := "rom"
      settings := { rate := 1 }
      frames := 2
      realtime := false
      keys := [] } := rfl
  have large : Options.parse ["--frames", "1", "--instructions-per-tick", "2", "rom"] = .ok {
      rom := "rom"
      settings := { rate := 2 }
      frames := 1
      realtime := false
      keys := [] } := rfl
  have loaded : Rom.ofFile (onDisk "rom") = .ok jumpIntoNothing := rfl
  have boots : Machine.boot jumpIntoNothing { rate := 1 } = .boot jumpIntoNothing {} :=
    Machine.boot_congr rfl rfl rfl
  have untimed : ∀ x, .executed (.readDelay x) ∉
      ((Machine.boot jumpIntoNothing { rate := 1 }).cycles (1 * 2)).1 := by
    simp [boots, ran]
  obtain ⟨one, other⟩ := (frame_size_moves_only_the_fault noWords ⟨small, large⟩
    ⟨loaded, loaded⟩ ⟨rfl, rfl⟩ rfl rfl rfl untimed).1 1 (.illegalOpcode 0 0x202) (by decide)
    (by rwa [boots])
  exact ⟨one.stderr_off, other.stderr_off⟩

end Report

end Chip8
