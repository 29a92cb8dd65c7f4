import Chip8.CommandLine.Options
import Chip8.Proofs.Digits

namespace Chip8

theorem ok_of_map {α β ε : Type} {f : α → β} {result : Except ε α} {b : β}
    (mapped : result.map f = .ok b) : ∃ a, result = .ok a ∧ f a = b := by
  cases result with
  | error e => contradiction
  | ok a => exact ⟨a, rfl, Except.ok.inj mapped⟩

theorem ok_of_mem_mapM {α β ε : Type} {f : α → Except ε β} {xs : List α} {ys : List β}
    (mapped : xs.mapM f = .ok ys) : ∀ y ∈ ys, ∃ x, f x = .ok y := by
  induction xs generalizing ys with
  | nil =>
    cases Except.ok.inj mapped
    exact fun _ member => nomatch member
  | cons x xs ih =>
    rw [List.mapM_cons] at mapped
    cases first : f x with
    | error e =>
      rw [first] at mapped
      contradiction
    | ok y =>
      cases later : xs.mapM f with
      | error e =>
        rw [first, later] at mapped
        contradiction
      | ok rest =>
        rw [first, later] at mapped
        cases Except.ok.inj mapped
        intro z member
        rcases List.mem_cons.mp member with rfl | member
        · exact ⟨x, first⟩
        · exact ih later z member

def KeyScript.OnKeypad (script : KeyScript) : Prop :=
  ∀ press ∈ script, press.key.toNat ≤ 15

namespace KeyScript

theorem OnKeypad.append {one other : KeyScript} (first : one.OnKeypad) (second : other.OnKeypad) :
    OnKeypad (one ++ other) := by
  intro press member
  rcases List.mem_append.mp member with member | member
  · exact first press member
  · exact second press member

theorem mem_keysAt {script : KeyScript} {frame : Nat} {key : UInt8} : key ∈ script.keysAt frame ↔ ⟨frame, key⟩ ∈ script := by
  simp only [keysAt, List.mem_map, List.mem_filter, decide_eq_true_eq]
  constructor
  · rintro ⟨⟨_, _⟩, ⟨listed, rfl⟩, rfl⟩
    exact listed
  · exact fun listed => ⟨⟨frame, key⟩, ⟨listed, rfl⟩, rfl⟩

theorem OnKeypad.keysAt {script : KeyScript} (digits : script.OnKeypad) (frame : Nat) :
    ∀ key ∈ script.keysAt frame, key.toNat ≤ 15 := by
  intro key member
  exact digits ⟨frame, key⟩ (mem_keysAt.mp member)

/- The last thing that is looked at in a press is whether its key is on the keypad. -/
theorem digit_of_parse {text : List Char} {press : KeyPress}
    (parsed : KeyPress.parse text = .ok press) : press.key.toNat ≤ 15 := by
  simp only [KeyPress.parse] at parsed
  split at parsed
  · contradiction
  · split at parsed
    · contradiction
    · split at parsed
      · contradiction
      · split at parsed
        · rename_i small
          cases Except.ok.inj parsed
          exact Nat.le_of_lt_succ (UInt8.lt_iff_toNat_lt.mp small)
        · contradiction

theorem onKeypad_of_parse {text : List Char} {script : KeyScript}
    (parsed : KeyScript.parse text = .ok script) : script.OnKeypad := by
  intro press member
  obtain ⟨field, read⟩ := ok_of_mem_mapM parsed press member
  exact digit_of_parse read

end KeyScript

namespace Options

namespace Draft

variable {d next : Draft} {pending waiting : Pending}

theorem assign_onKeypad {s : Setting} {text : String} (digits : d.keys.OnKeypad)
    (assigned : d.assign s text = .ok next) : next.keys.OnKeypad := by
  cases s with
  | rate | frames | seed =>
    obtain ⟨n, -, rfl⟩ := ok_of_map assigned
    exact digits
  | keys =>
    simp only [assign] at assigned
    split at assigned
    · rename_i keys parsed
      cases Except.ok.inj assigned
      exact digits.append (KeyScript.onKeypad_of_parse parsed)
    · contradiction

theorem settle_onKeypad (digits : d.keys.OnKeypad) (settled : d.settle pending = .ok next) :
    next.keys.OnKeypad := by
  unfold settle at settled
  split at settled
  · cases Except.ok.inj settled
    exact digits
  · split at settled
    · contradiction
    · cases Except.ok.inj settled
      exact digits
  · exact assign_onKeypad digits settled
  · contradiction

theorem takePath_onKeypad {text : String} (digits : d.keys.OnKeypad)
    (taken : d.takePath pending text = .ok (next, waiting)) : next.keys.OnKeypad := by
  unfold takePath at taken
  split at taken
  · contradiction
  · obtain ⟨settled, done, same⟩ := ok_of_map taken
    cases same
    exact settle_onKeypad digits done

theorem turnOn_onKeypad {s : Switch} (digits : d.keys.OnKeypad) (turned : d.turnOn s = .ok next) :
    next.keys.OnKeypad := by
  unfold turnOn at turned
  split at turned
  · contradiction
  · cases Except.ok.inj turned
    exact digits

theorem takeOption_onKeypad {name : String} {value : Option String} (digits : d.keys.OnKeypad)
    (taken : d.takeOption pending name value = .ok (next, waiting)) : next.keys.OnKeypad := by
  unfold takeOption at taken
  split at taken
  · cases settled : d.settle pending with
    | error e =>
      rw [settled] at taken
      contradiction
    | ok middle =>
      obtain ⟨assigned, done, same⟩ := ok_of_map (by rwa [settled] at taken)
      cases same
      exact assign_onKeypad (settle_onKeypad digits settled) done
  · obtain ⟨settled, done, same⟩ := ok_of_map taken
    cases same
    exact settle_onKeypad digits done
  · cases settled : d.settle pending with
    | error e =>
      rw [settled] at taken
      contradiction
    | ok middle =>
      obtain ⟨turned, done, same⟩ := ok_of_map (by rwa [settled] at taken)
      cases same
      exact turnOn_onKeypad (settle_onKeypad digits settled) done
  · contradiction
  · contradiction

theorem readPaths_onKeypad {arguments : List String} (digits : d.keys.OnKeypad)
    (done : d.readPaths pending arguments = .ok next) : next.keys.OnKeypad := by
  induction arguments generalizing d pending with
  | nil => exact settle_onKeypad digits done
  | cons text rest ih =>
    simp only [readPaths] at done
    split at done
    · rename_i taken
      exact ih (takePath_onKeypad digits taken) done
    · contradiction

theorem read_onKeypad {arguments : List String} (digits : d.keys.OnKeypad)
    (done : d.read pending arguments = .ok next) : next.keys.OnKeypad := by
  induction arguments generalizing d pending with
  | nil => exact settle_onKeypad digits done
  | cons text rest ih =>
    simp only [read] at done
    split at done
    · exact readPaths_onKeypad digits done
    · split at done <;> contradiction
    · split at done
      · rename_i taken
        exact ih (takeOption_onKeypad digits taken) done
      · contradiction
    · exact ih digits done
    · split at done
      · rename_i taken
        exact ih (takePath_onKeypad digits taken) done
      · contradiction

end Draft

theorem onKeypad_of_parse {arguments : List String} {options : Options}
    (parsed : Options.parse arguments = .ok options) : options.keys.OnKeypad := by
  unfold parse at parsed
  split at parsed
  · rename_i draft read
    have digits : draft.keys.OnKeypad :=
      Draft.read_onKeypad (d := {}) (fun _ member => nomatch member) read
    unfold Draft.finish at parsed
    split at parsed
    · contradiction
    · cases Except.ok.inj parsed
      exact digits
  · contradiction

end Options

end Chip8
