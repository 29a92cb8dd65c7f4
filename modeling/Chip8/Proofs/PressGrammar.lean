import Chip8.KeyScript
import Chip8.Proofs.Fields
import Chip8.Proofs.Numerals

/-!
# The grammar of a key press

Which texts are key presses, and of which key in which frame, said without the reader: a decimal
number of 64 bits and a hexadecimal number of one digit's worth, with white space around each at
will and a colon between them. All other texts are refused, and what is said of one depends on the
first thing that is wrong with it.
-/

namespace Chip8

namespace Blank

variable {text core rest : List Char}

/-- The core is what is left of the text without the white space at its ends. -/
structure Trims (text core : List Char) : Prop where
  around : ∃ left right, text = left ++ core ++ right ∧
    ∀ c ∈ left ++ right, blanks.contains c = true
  first : ∀ c ∈ core.head?, blanks.contains c = false
  last : ∀ c ∈ core.getLast?, blanks.contains c = false

theorem exists_trimLeft (text : List Char) : ∃ left, text = left ++ trimLeft text ∧
    (∀ c ∈ left, blanks.contains c = true) ∧
    ∀ c ∈ (trimLeft text).head?, blanks.contains c = false := by
  refine ⟨text.takeWhile blanks.contains, List.takeWhile_append_dropWhile.symm,
    fun c member => List.mem_takeWhile_imp member, ?_⟩
  intro c first
  have stopped := List.head?_dropWhile_not blanks.contains text
  rw [trimLeft, Option.mem_def] at first
  rw [first] at stopped
  simpa using stopped

theorem trimLeft_append {left : List Char} (white : ∀ c ∈ left, blanks.contains c = true)
    (first : ∀ c ∈ rest.head?, blanks.contains c = false) : trimLeft (left ++ rest) = rest := by
  rw [trimLeft, List.dropWhile_append_of_pos white]
  cases rest with
  | nil => rfl
  | cons c rest => exact List.dropWhile_cons_of_neg (by simp [first c rfl])

theorem trims_trim (text : List Char) : Trims text (trim text) := by
  obtain ⟨left, front, white, first⟩ := exists_trimLeft text
  obtain ⟨right, back, blank, last⟩ := exists_trimLeft (trimLeft text).reverse
  have middle : trimLeft text = trim text ++ right.reverse := by
    rw [trim, ← List.reverse_append, ← back, List.reverse_reverse]
  refine ⟨⟨left, right.reverse, ?_, ?_⟩, ?_, ?_⟩
  · rw [List.append_assoc, ← middle]
    exact front
  · intro c member
    rcases List.mem_append.mp member with member | member
    · exact white c member
    · exact blank c (List.mem_reverse.mp member)
  · intro c head
    apply first
    rw [middle, List.head?_append, Option.mem_def.mp head]
    rfl
  · rw [trim, List.getLast?_reverse]
    exact last

theorem trim_of_trims (trims : Trims text core) : trim text = core := by
  obtain ⟨⟨left, right, rfl, white⟩, first, last⟩ := trims
  rw [List.forall_mem_append] at white
  obtain ⟨front, back⟩ := white
  have turned : ∀ c ∈ right.reverse, blanks.contains c = true :=
    fun c member => back c (List.mem_reverse.mp member)
  cases core with
  | nil =>
    have none : trimLeft (left ++ [] ++ right) = [] := by
      have all : ∀ c ∈ left ++ right, blanks.contains c = true :=
        List.forall_mem_append.mpr ⟨front, back⟩
      have trimmed : trimLeft ((left ++ right) ++ []) = [] := trimLeft_append all (by simp)
      simpa using trimmed
    rw [trim, none]
    rfl
  | cons c core =>
    have begun : trimLeft (left ++ (c :: core) ++ right) = (c :: core) ++ right := by
      rw [List.append_assoc]
      exact trimLeft_append front first
    have ended : trimLeft (right.reverse ++ (c :: core).reverse) = (c :: core).reverse := by
      apply trimLeft_append turned
      rw [List.head?_reverse]
      exact last
    rw [trim, begun, List.reverse_append, ended, List.reverse_reverse]

end Blank

namespace KeyPress

variable {text before after : List Char} {base n : Nat} {press : KeyPress}

/-- The text is a numeral of the base with the value `n`, apart from white space around it. -/
def Denotes (base : Nat) (text : List Char) (n : Nat) : Prop :=
  ∃ core, Blank.Trims text core ∧ Numeral.IsNumeral base core n

def Parts (text before after : List Char) : Prop :=
  text = before ++ ':' :: after ∧ ':' ∉ before

/-- The text asks for the key to be held in the frame. -/
def Asks (text : List Char) (press : KeyPress) : Prop :=
  ∃ before after, Parts text before after ∧
    Denotes 10 before press.frame ∧ press.frame < 2 ^ 64 ∧
    Denotes 16 after press.key.toNat ∧ press.key.toNat < 16

/-- What is said of a text that asks for no key. Something is wrong behind the colon only if nothing
is wrong in front of it. -/
inductive Refused (text : List Char) : String → Prop where
  | noColon (none : ':' ∉ text) : Refused text ("expected frame:key, got " ++ Quoted.quote text)
  | badFrame {before after : List Char} (parts : Parts text before after)
    (none : ∀ n, Denotes 10 before n → 2 ^ 64 ≤ n) :
    Refused text ("invalid frame in " ++ Quoted.quote text)
  | badKey {before after : List Char} {frame : Nat} (parts : Parts text before after)
    (framed : Denotes 10 before frame) (fits : frame < 2 ^ 64)
    (none : ∀ n, Denotes 16 after n → 256 ≤ n) :
    Refused text ("invalid key in " ++ Quoted.quote text)
  | noSuchKey {before after : List Char} {frame key : Nat} (parts : Parts text before after)
    (framed : Denotes 10 before frame) (fits : frame < 2 ^ 64)
    (keyed : Denotes 16 after key) (off : 16 ≤ key) (small : key < 256) :
    Refused text
      ("key " ++ Numeral.marked 1 key ++ " is not on the keypad, keys go from 0 to F")

theorem read?_trim_eq_some_iff (bound : Nat) (small : base ≤ 16) :
    Numeral.read? base bound (Blank.trim text) = some n ↔ Denotes base text n ∧ n < bound := by
  rw [Numeral.read?_eq_some_iff small]
  constructor
  · rintro ⟨numeral, inside⟩
    exact ⟨⟨_, Blank.trims_trim text, numeral⟩, inside⟩
  · rintro ⟨⟨core, trims, numeral⟩, inside⟩
    rw [Blank.trim_of_trims trims]
    exact ⟨numeral, inside⟩

theorem read?_trim_eq_none_iff (bound : Nat) (small : base ≤ 16) :
    Numeral.read? base bound (Blank.trim text) = none ↔ ∀ n, Denotes base text n → bound ≤ n := by
  rw [Option.eq_none_iff_forall_ne_some]
  constructor
  · intro unread n denotes
    by_contra inside
    exact unread n ((read?_trim_eq_some_iff bound small).mpr ⟨denotes, Nat.lt_of_not_le inside⟩)
  · intro large n read
    obtain ⟨denotes, inside⟩ := (read?_trim_eq_some_iff bound small).mp read
    exact absurd (large n denotes) (Nat.not_le_of_lt inside)

theorem message_noSuchKey (key : UInt8) : (Error.noSuchKey key).message =
    "key " ++ Numeral.marked 1 key.toNat ++ " is not on the keypad, keys go from 0 to F" := rfl

theorem parse_eq_ok_iff : parse text = .ok press ↔ Asks text press := by
  constructor
  · intro parsed
    simp only [parse] at parsed
    split at parsed
    · contradiction
    · rename_i before after cut
      split at parsed
      · contradiction
      · rename_i frame front
        split at parsed
        · contradiction
        · rename_i number back
          obtain ⟨framed, inside⟩ := (read?_trim_eq_some_iff _ (by decide)).mp front
          obtain ⟨keyed, byte⟩ := (read?_trim_eq_some_iff _ (by decide)).mp back
          have value : (UInt8.ofNat number).toNat = number := UInt8.toNat_ofNat_of_lt' byte
          split at parsed
          · rename_i small
            cases Except.ok.inj parsed
            refine ⟨before, after, Fields.cut?_eq_some_iff.mp cut, framed, inside, ?_⟩
            rw [value]
            exact ⟨keyed, value ▸ UInt8.lt_iff_toNat_lt.mp small⟩
          · contradiction
  · rintro ⟨before, after, parts, framed, inside, keyed, digit⟩
    have cut := Fields.cut?_eq_some_iff.mpr parts
    have front := (read?_trim_eq_some_iff UInt64.size (by decide)).mpr ⟨framed, inside⟩
    have back := (read?_trim_eq_some_iff UInt8.size (by decide)).mpr
      ⟨keyed, Nat.lt_trans digit (by decide)⟩
    have small : press.key < 16 := UInt8.lt_iff_toNat_lt.mpr digit
    simp only [parse, cut, front, back, UInt8.ofNat_toNat, if_pos small]

theorem refused_of_parse {e : Error} (parsed : parse text = .error e) : Refused text e.message := by
  simp only [parse] at parsed
  split at parsed
  · rename_i uncut
    cases Except.error.inj parsed
    exact .noColon (Fields.cut?_eq_none_iff.mp uncut)
  · rename_i before after cut
    have parts : Parts text before after := Fields.cut?_eq_some_iff.mp cut
    split at parsed
    · rename_i unread
      cases Except.error.inj parsed
      exact .badFrame parts ((read?_trim_eq_none_iff _ (by decide)).mp unread)
    · rename_i frame front
      obtain ⟨framed, inside⟩ := (read?_trim_eq_some_iff _ (by decide)).mp front
      split at parsed
      · rename_i unread
        cases Except.error.inj parsed
        exact .badKey parts framed inside ((read?_trim_eq_none_iff _ (by decide)).mp unread)
      · rename_i number back
        obtain ⟨keyed, byte⟩ := (read?_trim_eq_some_iff _ (by decide)).mp back
        have value : (UInt8.ofNat number).toNat = number := UInt8.toNat_ofNat_of_lt' byte
        split at parsed
        · contradiction
        · rename_i large
          rw [UInt8.lt_iff_toNat_lt, value] at large
          cases Except.error.inj parsed
          rw [message_noSuchKey, value]
          exact .noSuchKey parts framed inside keyed (Nat.le_of_not_lt large) byte

theorem parse_of_refused {complaint : String} (refused : Refused text complaint) :
    ∃ e, parse text = .error e ∧ e.message = complaint := by
  have frame_read : ∀ {before frame}, Denotes 10 before frame → frame < 2 ^ 64 →
      Numeral.read? 10 UInt64.size (Blank.trim before) = some frame :=
    fun framed fits => (read?_trim_eq_some_iff _ (by decide)).mpr ⟨framed, fits⟩
  cases refused with
  | noColon none =>
    refine ⟨.noColon text, ?_, rfl⟩
    simp only [parse, Fields.cut?_eq_none_iff.mpr none]
  | badFrame parts none =>
    refine ⟨.badFrame text, ?_, rfl⟩
    have unread := (read?_trim_eq_none_iff UInt64.size (by decide)).mpr none
    simp only [parse, Fields.cut?_eq_some_iff.mpr parts, unread]
  | badKey parts framed fits none =>
    refine ⟨.badKey text, ?_, rfl⟩
    have unread := (read?_trim_eq_none_iff UInt8.size (by decide)).mpr none
    simp only [parse, Fields.cut?_eq_some_iff.mpr parts, frame_read framed fits, unread]
  | @noSuchKey _ _ _ key parts framed fits keyed off small =>
    have value : (UInt8.ofNat key).toNat = key := UInt8.toNat_ofNat_of_lt' small
    refine ⟨.noSuchKey (UInt8.ofNat key), ?_, by rw [message_noSuchKey, value]⟩
    have back := (read?_trim_eq_some_iff UInt8.size (by decide)).mpr ⟨keyed, small⟩
    have large : ¬ UInt8.ofNat key < 16 := by
      rw [UInt8.lt_iff_toNat_lt, value]
      exact Nat.not_lt_of_le off
    simp only [parse, Fields.cut?_eq_some_iff.mpr parts, frame_read framed fits, back, if_neg large]

/-- Reading a press gives the press that the text asks for by the grammar, and every other text is
refused for the first thing that is wrong with it. -/
theorem parse_follows_grammar (text : List Char) :
    (∀ press, parse text = .ok press ↔ Asks text press) ∧
    ∀ complaint, (∃ e, parse text = .error e ∧ e.message = complaint) ↔ Refused text complaint :=
  ⟨fun _ => parse_eq_ok_iff, fun _ =>
    ⟨fun ⟨_, parsed, same⟩ => same ▸ refused_of_parse parsed, parse_of_refused⟩⟩

example : parse "+012: F ".toList = .ok ⟨12, 15⟩ := by decide

end KeyPress

end Chip8
