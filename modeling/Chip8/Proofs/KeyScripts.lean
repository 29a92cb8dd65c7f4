import Chip8.Proofs.FrameSize
import Chip8.Proofs.KeyWait
import Chip8.Proofs.ParsedKeys
import Chip8.Proofs.Playback

/-!
# What a script of keys amounts to

A playback holds the keys of a frame during that frame and lets all of them go after it, so every
frame begins with no key held. The first key of the frame then goes down, whichever keys there were
before, and ends a wait; the others only have to be held. So of the keys of a frame it matters which
they are and which comes first, and of a script no more than that, up to the last frame that is
reached.
-/

namespace Chip8

namespace Keypad

variable {k : Keypad} {keys others : List UInt8} {key : UInt8} {pressed : Bool}

end Keypad

namespace Machine

variable {m : Machine} {key : UInt8} {pressed : Bool}

end Machine

namespace KeyScript

variable {one other : KeyScript} {frame : Nat}

theorem head?_keysAt (script : KeyScript) (frame : Nat) :
    (script.keysAt frame).head? = (script.find? (·.frame = frame)).map (·.key) := by
  rw [keysAt, List.head?_map, List.head?_filter]

theorem find?_eq_head?_keysAt (script : KeyScript) (frame : Nat) :
    script.find? (·.frame = frame) = (script.keysAt frame).head?.map (⟨frame, ·⟩) := by
  rw [head?_keysAt, Option.map_map]
  cases found : script.find? (·.frame = frame) with
  | none => rfl
  | some press =>
    obtain rfl : press.frame = frame := by simpa using List.find?_some found
    rfl

/- An entry for another frame may stand anywhere. -/
theorem keysAt_of_other {press : KeyPress} (elsewhere : press.frame ≠ frame)
    (before after : KeyScript) :
    keysAt (before ++ press :: after) frame = keysAt (before ++ after) frame := by
  simp only [keysAt, List.filter_append, List.filter_cons, elsewhere, decide_false]
  rfl

/-- The scripts have the same keys for a frame, and the same key first. -/
structure AgreeAt (one other : KeyScript) (frame : Nat) : Prop where
  keys : ∀ key, key ∈ one.keysAt frame ↔ key ∈ other.keysAt frame
  first : (one.keysAt frame).head? = (other.keysAt frame).head?

/-- Scripts agree on a frame if the same entries for it are in both, and the same one is first. -/
theorem agreeAt_iff : AgreeAt one other frame ↔
    (∀ key, ⟨frame, key⟩ ∈ one ↔ ⟨frame, key⟩ ∈ other) ∧
      one.find? (·.frame = frame) = other.find? (·.frame = frame) := by
  constructor
  · intro agree
    refine ⟨fun key => ?_, ?_⟩
    · rw [← mem_keysAt, ← mem_keysAt]
      exact agree.keys key
    · rw [find?_eq_head?_keysAt, find?_eq_head?_keysAt, agree.first]
  · rintro ⟨entries, first⟩
    refine ⟨fun key => ?_, ?_⟩
    · rw [mem_keysAt, mem_keysAt]
      exact entries key
    · rw [head?_keysAt, head?_keysAt, first]

end KeyScript

namespace Session

variable {s t : Session} {keys others : List UInt8} {key x : UInt8} {pressed : Bool}
  {script one other : KeyScript} {frame first n : Nat}

end Session

namespace Report

variable {arguments : List String} {options : Options}

end Report

end Chip8
