import Chip8.CommandLine.Report
import Chip8.Proofs.Commands

namespace Chip8.Session

variable {P : Session → Prop} {s t last : Session} {script : KeyScript} {f : Fault}
  {first frame n : Nat}

namespace Keeps

theorem setKeys (keeps : Keeps P) (keys : List UInt8) (pressed : Bool) (holds : P s) :
    P (s.setKeys keys pressed) := by
  induction keys generalizing s with
  | nil => exact holds
  | cons key rest ih => exact ih (keeps.key s key pressed holds)

theorem scriptedFrame (keeps : Keeps P) (script : KeyScript) (frame : Nat) (holds : P s) :
    P (s.scriptedFrame script frame).2 := by
  have framed : P ((s.setKeys (script.keysAt frame) true).frame).2 :=
    keeps.frame (keeps.setKeys _ true holds)
  simp only [Session.scriptedFrame]
  split
  · rename_i executed next ran
    rw [ran] at framed
    exact keeps.setKeys _ false framed
  · rename_i f next ran
    rwa [ran] at framed

theorem play (keeps : Keeps P) (script : KeyScript) (first n : Nat) (holds : P s) :
    P (s.play script first n).session := by
  induction n generalizing s first with
  | zero => exact holds
  | succ n ih =>
    have framed : P (s.scriptedFrame script first).2 := keeps.scriptedFrame script first holds
    simp only [Session.play]
    split
    · rename_i executed next ran
      rw [ran] at framed
      exact ih (first + 1) framed
    · rename_i f next ran
      rwa [ran] at framed

end Keeps

theorem play_add (s : Session) (script : KeyScript) (first n more : Nat) :
    s.play script first (n + more) = match s.play script first n with
      | .finished t => t.play script (first + n) more
      | .stopped frame f last => .stopped frame f last := by
  induction n generalizing s first with
  | zero => rw [Nat.zero_add]; rfl
  | succ n ih =>
    rw [Nat.succ_add]
    simp only [play]
    split
    · rw [ih, Nat.add_assoc, Nat.add_comm 1]
    · rfl

/-- A playback is stopped by a frame when all frames before it went well and it did not. -/
theorem play_eq_stopped_iff : s.play script first n = .stopped frame f last ↔
    ∃ k t, k < n ∧ frame = first + k ∧ s.play script first k = .finished t ∧
      t.scriptedFrame script frame = (.error f, last) := by
  induction n generalizing s first with
  | zero => simp [play]
  | succ n ih =>
    constructor
    · intro stopped
      simp only [play] at stopped
      split at stopped
      · rename_i executed next ran
        obtain ⟨k, t, before, rfl, played, failed⟩ := ih.mp stopped
        refine ⟨k + 1, t, Nat.succ_lt_succ before, by omega, ?_, failed⟩
        simp only [play, ran, played]
      · rename_i g next ran
        cases stopped
        exact ⟨0, s, Nat.succ_pos n, rfl, rfl, ran⟩
    · rintro ⟨k, t, before, rfl, played, failed⟩
      have whole : n + 1 = k + (n - k + 1) := by omega
      rw [whole, play_add, played]
      simp only [play, failed]

theorem play_of_stopped (stopped : s.play script 0 n = .stopped frame f last) {m : Nat}
    (inside : frame < m) : s.play script 0 m = .stopped frame f last := by
  obtain ⟨k, t, -, same, played, failed⟩ := play_eq_stopped_iff.mp stopped
  exact play_eq_stopped_iff.mpr ⟨k, t, by omega, same, played, failed⟩

theorem play_of_finished (finished : s.play script first n = .finished t) {k : Nat}
    (fewer : k ≤ n) : ∃ u, s.play script first k = .finished u := by
  obtain ⟨more, rfl⟩ := Nat.exists_eq_add_of_le fewer
  rw [play_add] at finished
  split at finished
  · rename_i u played
    exact ⟨u, played⟩
  · contradiction

end Chip8.Session
