import Chip8.Proofs.Digits
import Chip8.Proofs.Feeding
import Chip8.Proofs.Past

namespace Chip8

theorem Keypad.all_up_iff {k : Keypad} : (∀ key, k.isHeld key = false) ↔ k = released := by
  constructor
  · intro up
    exact ext_isHeld fun key _ => (up key).trans (isHeld_released key).symm
  · rintro rfl key
    exact isHeld_released key

theorem Memory.bytes_ofRom (rom : Rom) (p : Nat) (inside : p < 4096) :
    (ofRom rom).bytes[p] =
      if glyph : p < 80 then Layout.font[p]
      else if p < 0x200 then 0
      else if loaded : p - 0x200 < rom.bytes.size then rom.bytes[p - 0x200]
      else 0 := by
  have byte : (ofRom rom).bytes[p] = initial rom p := by
    simp only [ofRom, Vector.getElem_ofFn]
  have font : Layout.fontOrigin.toNat = 0 := rfl
  have origin : Layout.programOrigin.toNat = 0x200 := rfl
  rw [byte, initial]
  simp only [font, origin, Nat.sub_zero]
  by_cases low : p < 0x200
  · rw [if_pos low, if_pos low]
    by_cases glyph : p < 80
    · rw [dif_pos glyph, Vector.getElem?_eq_getElem glyph, Option.getD_some]
    · rw [dif_neg glyph, Vector.getElem?_eq_none (Nat.le_of_not_lt glyph), Option.getD_none]
  · have glyph : ¬ p < 80 := fun glyph => low (Nat.lt_trans glyph (by decide))
    rw [if_neg low, dif_neg glyph, if_neg low]
    by_cases loaded : p - 0x200 < rom.bytes.size
    · rw [dif_pos loaded, Array.getElem?_eq_getElem loaded, Option.getD_some]
    · rw [dif_neg loaded, Array.getElem?_eq_none (Nat.le_of_not_lt loaded), Option.getD_none]

namespace Session

/-- What a reset with a program makes of a session: the session at power-on, where the keys that
are held stay held and the host hears at most that the sound is off. -/
structure PoweredOn (settings : Settings) (rom : Rom) (s t : Session) : Prop where
  fresh : t = { withRom rom settings s.host with
    machine := { (withRom rom settings s.host).machine with keypad := s.machine.keypad }
    host := t.host }
  paused : t.running = false
  clear : t.fault = none
  awake : t.machine.waiting = none
  random : t.machine.random = { stream := settings.stream settings.seed, taken := 0 }
  stack : t.machine.stack = { slots := .replicate 16 0, depth := 0 }
  memory : ∀ p (inside : p < 4096), t.machine.memory.bytes[p] =
    if glyph : p < 80 then Layout.font[p]
    else if p < 0x200 then 0
    else if loaded : p - 0x200 < rom.bytes.size then rom.bytes[p - 0x200]
    else 0
  heard : t.host.heard = s.host.heard ++
    if s.host.listens && s.machine.soundOn then [.sound false] else []

variable {settings : Settings} {s : Session} {rom : Rom}

theorem load_poweredOn (configured : s.machine.Configured settings) (rate : s.rate = settings.rate) :
    PoweredOn settings rom s (s.load rom) where
  fresh := by
    obtain ⟨stream, dialect⟩ := configured
    simp only [load, withRom, new, Machine.reset, Machine.boot, Random.restarted, stream, dialect,
      rate]
  paused := rfl
  clear := rfl
  awake := rfl
  random := by
    rw [← configured.stream]
    rfl
  stack := rfl
  memory := fun p inside => Memory.bytes_ofRom rom p inside
  heard := by
    have silent : (s.machine.reset rom).soundOn = false := rfl
    simp only [load, Host.sendAll_heard, Host.record_listens, Machine.soundEvents, silent,
      Host.record_heard (r := .reset rom.size) rfl]
    cases s.machine.soundOn <;> cases s.host.listens <;> rfl

/- With no key held, the machine is the one at power-on in every part. -/
theorem load_of_released (configured : s.machine.Configured settings)
    (rate : s.rate = settings.rate) (released : s.machine.keypad = .released) (other : Host) :
    s.load rom = { withRom rom settings other with host := (s.load rom).host } := by
  have powered : PoweredOn settings rom s (s.load rom) := load_poweredOn configured rate
  have fresh := powered.fresh
  rw [released] at fresh
  exact fresh

/-- A reset is refused exactly if the bytes are more than fit in memory, and then nothing changes.
Otherwise it leads to the session at power-on with these bytes, but for the keys and the host. If
no key is held, a new session with the same settings and a host of the same kind gives the same
answers to all later commands, is in the same state after them, and tells its host the same. -/
theorem reset_is_power_on_or_nothing {first s : Session} (settings : Settings) (host : Host)
    (made : first = new settings host ∨ ∃ rom, first = withRom rom settings host)
    (commands : List Command) (reached : (first.run commands).2 = s) (bytes : Array UInt8) :
    ((s.obey (.reset bytes)).1 = .refused ⟨bytes.size, 3584⟩ ↔ 3584 < bytes.size) ∧
    (3584 < bytes.size → s.obey (.reset bytes) = (.refused ⟨bytes.size, 3584⟩, s) ∧
      Rom.TooLarge.message ⟨bytes.size, 3584⟩ =
        s!"rom is too large ({bytes.size} bytes), max size is {3584} bytes") ∧
    (bytes.size ≤ 3584 → ∃ rom t, rom.bytes = bytes ∧ s.obey (.reset bytes) = (.done, t) ∧
      PoweredOn settings rom s t ∧
      ((∀ key, s.machine.keypad.isHeld key = false) →
        ∀ (other : Host) (later : List Command),
          other.observer = s.host.observer → other.logging = s.host.logging →
          (t.run later).1 = ((withRom rom settings other).run later).1 ∧
          ∃ last : Session, (t.run later).2 = last.behind t.host ∧
            ((withRom rom settings other).run later).2 =
              last.behind (withRom rom settings other).host)) := by
  have space : Layout.programSpace = 3584 := rfl
  obtain ⟨configured, rate⟩ := run_configured made commands
  rw [reached] at configured rate
  refine ⟨?_, ?_, ?_⟩
  · by_cases fits : bytes.size ≤ Layout.programSpace
    · rw [obey_reset_of_fits fits]
      constructor
      · intro refused
        contradiction
      · intro large
        omega
    · rw [obey_reset_of_large fits]
      constructor
      · intro refused
        omega
      · intro large
        rfl
  · intro large
    have unfit : ¬ bytes.size ≤ Layout.programSpace := by omega
    exact ⟨obey_reset_of_large unfit, rfl⟩
  · intro fits
    have powered : PoweredOn settings ⟨bytes, fits⟩ s (s.load ⟨bytes, fits⟩) :=
      load_poweredOn configured rate
    refine ⟨⟨bytes, fits⟩, _, rfl, obey_reset_of_fits fits, powered, ?_⟩
    intro up other later observer logging
    have kind : other.emptied = s.host.emptied := by
      simp only [Host.emptied, observer, logging]
    apply run_of_alike
    · rw [load_of_released configured rate (Keypad.all_up_iff.mp up)]
    · simp only [load, withRom, new, Host.sendAll_emptied, Host.record_emptied, kind]

theorem reset_is_power_on_or_nothing_after_fault :
    ((withRom soundThenReturn {} overChannel).run [.step, .step, .step]).2 = afterReturn ∧
    afterReturn.obey (.reset (Array.replicate 3585 0)) = (.refused ⟨3585, 3584⟩, afterReturn) ∧
    ∃ rom t, rom.bytes = #[0x12, 0x00] ∧ afterReturn.obey (.reset #[0x12, 0x00]) = (.done, t) ∧
      t.fault = none ∧
      t.host.heard = [.sound true, .fault (.stackUnderflow 0x204), .sound false] ∧
      ∀ later, (t.run later).1 = ((withRom rom {} overChannel).run later).1 := by
  have ran : ((withRom soundThenReturn {} overChannel).run [.step, .step, .step]).2 =
      afterReturn := by
    rw [run_step step_to_readyToSound, run_step step_to_sounding, run_step step_to_afterReturn]
    rfl
  have law := reset_is_power_on_or_nothing {} overChannel (.inr ⟨soundThenReturn, rfl⟩)
    [.step, .step, .step] ran
  have refused := ((law (Array.replicate 3585 0)).2.1 (by simp)).1
  rw [Array.size_replicate] at refused
  obtain ⟨rom, t, bytes, done, powered, later⟩ := (law #[0x12, 0x00]).2.2 (by decide)
  have up : ∀ key, afterReturn.machine.keypad.isHeld key = false := Keypad.all_up_iff.mpr rfl
  refine ⟨ran, refused, rom, t, bytes, done, powered.clear, powered.heard, ?_⟩
  intro commands
  exact (later up overChannel commands rfl rfl).1

end Session

end Chip8
