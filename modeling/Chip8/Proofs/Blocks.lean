import Chip8.Proofs.Decoding
import Chip8.Proofs.Digits
import Chip8.Proofs.Execution
import Chip8.Proofs.Histories

/-!
# Blocks of memory

What the instructions that write a row of bytes leave at each place of memory, and what comes back
when a block is stored and loaded. Blocks go on at the start of memory where they reach its end. A
block is shorter than memory, so no two of its bytes lie at one place, and none is written twice.
-/

namespace Chip8

theorem getD_map_range {α : Type} (f : Nat → α) (n k : Nat) (value : α) :
    ((List.range n).map f)[k]?.getD value = if k < n then f k else value := by
  rw [List.getElem?_map]
  by_cases inside : k < n
  · rw [if_pos inside, List.getElem?_range inside]
    rfl
  · rw [if_neg inside, List.getElem?_eq_none (by rw [List.length_range]; omega)]
    rfl

namespace Memory

variable {a : UInt16} {p : Fin 4096} {k : Nat}

def byteAt (m : Memory) (p : Fin 4096) : UInt8 :=
  m.bytes[p.val]

/-- The place of memory `k` bytes behind an address, counted around the end of memory. -/
def ahead (a : UInt16) (k : Nat) : Fin 4096 :=
  Fin.ofNat 4096 (a.toNat + k)

/-- How far a place of memory lies behind an address, counted around the end of memory. -/
def past (a : UInt16) (p : Fin 4096) : Nat :=
  (p - cell a).val

theorem past_lt (a : UInt16) (p : Fin 4096) : past a p < 4096 :=
  (p - cell a).isLt

theorem past_eq_iff (near : k < 4096) : past a p = k ↔ ahead a k = p := by
  have place : p.val < 4096 := p.isLt
  simp only [past, ahead, Fin.sub_def, cell, Fin.ext_iff, Fin.val_ofNat]
  omega

theorem past_ahead (near : k < 4096) : past a (ahead a k) = k :=
  (past_eq_iff near).mpr rfl

theorem ahead_past (a : UInt16) (p : Fin 4096) : ahead a (past a p) = p :=
  (past_eq_iff (past_lt a p)).mp rfl

theorem ahead_zero (a : UInt16) : ahead a 0 = cell a := rfl

theorem ahead_succ (a : UInt16) (k : Nat) : ahead (a + 1) k = ahead a (k + 1) := by
  simp only [ahead, Fin.ext_iff, Fin.val_ofNat, UInt16.toNat_add, UInt16.toNat_one]
  omega

theorem ahead_around (a : UInt16) : ahead a 4096 = ahead a 0 := by
  simp only [ahead, Fin.ext_iff, Fin.val_ofNat]
  omega

theorem get_add (m : Memory) (a : UInt16) (k : Nat) :
    m.get (a + .ofNat k) = m.byteAt (ahead a k) := by
  have same : cell (a + .ofNat k) = ahead a k := by
    simp only [cell, ahead, Fin.ext_iff, Fin.val_ofNat, UInt16.toNat_add, UInt16.toNat_ofNat']
    omega
  simp only [get, byteAt, same]

theorem byteAt_ofRom (rom : Rom) (p : Fin 4096) : (ofRom rom).byteAt p = initial rom p.val := by
  simp only [byteAt, ofRom, Vector.getElem_ofFn]

theorem ext_byteAt {m n : Memory} (same : ∀ p : Fin 4096, m.byteAt p = n.byteAt p) :
    m = n := by
  apply congrArg Memory.mk
  apply Vector.ext
  intro q inside
  exact same ⟨q, inside⟩

theorem byteAt_set (m : Memory) (a : UInt16) (value : UInt8) (p : Fin 4096) :
    (m.set a value).byteAt p = if past a p = 0 then value else m.byteAt p := by
  have here : (cell a).val = p.val ↔ past a p = 0 := by
    rw [past_eq_iff (by decide), ahead_zero, Fin.ext_iff]
  simp only [set, byteAt, Vector.getElem_set, here]

/- A row that goes around memory at most once never comes back to the place of its first byte. -/
theorem byteAt_write (m : Memory) (a : UInt16) {row : List UInt8} (once : row.length ≤ 4096)
    (p : Fin 4096) :
    (m.write a row).byteAt p = row[past a p]?.getD (m.byteAt p) := by
  induction row generalizing m a with
  | nil => rfl
  | cons value rest ih =>
    rw [List.length_cons] at once
    rw [write, ih _ _ (by omega), byteAt_set]
    cases distance : past a p with
    | zero =>
      -- the rest of the row starts just past `p` and ends before it comes round to it
      have around : past (a + 1) p = 4095 := by
        rw [past_eq_iff (by decide), ahead_succ, ahead_around, ← distance, ahead_past]
      rw [around, List.getElem?_eq_none (by omega)]
      rfl
    | succ k =>
      have near : k + 1 < 4096 := distance ▸ past_lt a p
      have nearer : past (a + 1) p = k := by
        rw [past_eq_iff (by omega), ahead_succ, ← distance, ahead_past]
      rw [nearer, if_neg (Nat.succ_ne_zero k), List.getElem?_cons_succ]

theorem getD_read (m : Memory) (a : UInt16) (n k : Nat) (value : UInt8) :
    (m.read a n)[k]?.getD value = if k < n then m.byteAt (ahead a k) else value := by
  rw [read, getD_map_range, get_add]

end Memory

namespace Registers

variable {x y : UInt8}

theorem getD_upTo (r : Registers) (x : UInt8) (k : Nat) (value : UInt8) :
    (r.upTo x)[k]?.getD value = if k ≤ x.toNat then r.get (.ofNat k) else value := by
  simp only [upTo, getD_map_range, Nat.lt_succ_iff]

theorem get_setFrom (r : Registers) {row : List UInt8} (fits : x.toNat + row.length ≤ 16)
    (digit : y.toNat ≤ 15) : (r.setFrom x row).get y =
      if x.toNat ≤ y.toNat then row[y.toNat - x.toNat]?.getD (r.get y) else r.get y := by
  induction row generalizing r x with
  | nil => exact (ite_self _).symm
  | cons value rest ih =>
    rw [List.length_cons] at fits
    have next : (x + 1).toNat = x.toNat + 1 := by
      rw [UInt8.toNat_add, UInt8.toNat_one]
      omega
    rw [setFrom, ih _ (by omega), r.get_set value (by omega) digit, next]
    -- the rest of the row goes to the registers above `x`, and there are enough of them
    rcases Nat.lt_trichotomy y.toNat x.toNat with below | same | above
    · have other : y ≠ x := fun equal => Nat.ne_of_lt below (congrArg UInt8.toNat equal)
      rw [if_neg (by omega), if_neg other, if_neg (by omega)]
    · obtain rfl : y = x := UInt8.toNat_inj.mp same
      rw [if_neg (by omega), if_pos rfl, if_pos (Nat.le_refl _), Nat.sub_self]
      rfl
    · have other : y ≠ x := fun equal => Nat.ne_of_gt above (congrArg UInt8.toNat equal)
      have further : y.toNat - x.toNat = y.toNat - (x.toNat + 1) + 1 := by omega
      rw [if_pos (by omega), if_neg other, if_pos (by omega), further, List.getElem?_cons_succ]

end Registers

/-- The row of bytes that an instruction writes to memory, from the address in the index register
on. -/
def Instruction.stored (r : Registers) : Instruction → List UInt8
  | .storeDecimal x => [r.get x / 100, r.get x / 10 % 10, r.get x % 10]
  | .storeRegisters x => r.upTo x
  | _ => []

namespace Machine

open Memory (ahead past)

variable {m next : Machine} {i : Instruction} {x k : UInt8}

theorem moveIndex_get (dialect : Dialect) (r : Registers) (count : Nat) (k : UInt8) :
    (moveIndex dialect r count).get k = r.get k := by
  rw [moveIndex]
  split <;> rfl

theorem toNat_moveIndex (dialect : Dialect) (r : Registers) (count : Nat) :
    (moveIndex dialect r count).index.toNat =
      if dialect.blockMovesIndex then (r.index.toNat + count) % 4096 else r.index.toNat := by
  rw [moveIndex]
  split
  · rw [Registers.setIndex, Layout.toNat_wrap, UInt16.toNat_add, UInt16.toNat_ofNat']
    omega
  · rfl

/-- The one case analysis over what is written. No instruction touches memory otherwise. -/
theorem execute_memory (done : m.execute i = .ok next) :
    next.memory = m.memory.write m.registers.index (i.stored m.registers) := by
  cases i with
  | ret | jump | call | jumpOffset =>
    obtain ⟨pc, stack, rfl⟩ := execute_transfer rfl done
    rfl
  | skip condition =>
    cases Except.ok.inj done
    split <;> rfl
  | _ =>
    cases Except.ok.inj done
    rfl

theorem byteAt_of_execute (done : m.execute i = .ok next) (p : Fin 4096) :
    next.memory.byteAt p =
      (i.stored m.registers)[past m.registers.index p]?.getD (m.memory.byteAt p) := by
  have once : (i.stored m.registers).length ≤ 4096 := by
    cases i with
    | storeDecimal x => exact (by decide : 3 ≤ 4096)
    | storeRegisters x =>
      have byte := x.toNat_lt
      rw [Instruction.stored, Registers.upTo, List.length_map, List.length_range]
      omega
    | _ => exact Nat.zero_le _
  rw [execute_memory done, Memory.byteAt_write _ _ once]

theorem byteAt_of_storeRegisters (done : m.execute (.storeRegisters x) = .ok next) (p : Fin 4096) :
    next.memory.byteAt p =
      if past m.registers.index p ≤ x.toNat
        then m.registers.get (.ofNat (past m.registers.index p)) else m.memory.byteAt p := by
  rw [byteAt_of_execute done, Instruction.stored, Registers.getD_upTo]

theorem get_of_loadRegisters (done : m.execute (.loadRegisters x) = .ok next)
    (digit : x.toNat ≤ 15) (place : k.toNat ≤ 15) :
    next.registers.get k = if k.toNat ≤ x.toNat
      then m.memory.byteAt (ahead m.registers.index k.toNat) else m.registers.get k := by
  have fits : (0 : UInt8).toNat + (m.memory.read m.registers.index (x.toNat + 1)).length ≤ 16 := by
    rw [UInt8.toNat_zero, Memory.read, List.length_map, List.length_range]
    omega
  cases Except.ok.inj done
  rw [moveIndex_get, Registers.get_setFrom _ fits place, UInt8.toNat_zero,
    if_pos (Nat.zero_le _), Nat.sub_zero, Memory.getD_read]
  simp only [Nat.lt_succ_iff]

theorem loaded_of_stored {other : Machine} (digit : x.toNat ≤ 15)
    (done : m.execute (.storeRegisters x) = .ok next) (memory : other.memory = next.memory)
    (index : other.registers.index = m.registers.index) :
    ∃ last, other.execute (.loadRegisters x) = .ok last ∧
      ∀ k, k.toNat ≤ x.toNat → last.registers.get k = m.registers.get k := by
  refine ⟨_, rfl, ?_⟩
  intro k inside
  rw [get_of_loadRegisters rfl digit (Nat.le_trans inside digit), if_pos inside, index, memory,
    byteAt_of_storeRegisters done, Memory.past_ahead (by omega), if_pos inside, UInt8.ofNat_toNat]

theorem stored_of_loaded {other : Machine} (digit : x.toNat ≤ 15)
    (done : m.execute (.loadRegisters x) = .ok next) (memory : other.memory = next.memory)
    (registers : ∀ k, k.toNat ≤ x.toNat → other.registers.get k = next.registers.get k)
    (index : other.registers.index = m.registers.index) :
    ∃ last, other.execute (.storeRegisters x) = .ok last ∧ last.memory = m.memory := by
  refine ⟨_, rfl, ?_⟩
  apply Memory.ext_byteAt
  intro p
  have kept : other.memory = m.memory := memory.trans (execute_memory done)
  rw [byteAt_of_storeRegisters rfl, index, kept]
  by_cases inside : past m.registers.index p ≤ x.toNat
  · have number : (UInt8.ofNat (past m.registers.index p)).toNat = past m.registers.index p := by
      rw [UInt8.toNat_ofNat']
      omega
    rw [if_pos inside, registers _ (by rwa [number]),
      get_of_loadRegisters done digit (by rw [number]; omega), number, if_pos inside,
      Memory.ahead_past]
  · rw [if_neg inside]

theorem byteAt_of_storeDecimal (done : m.execute (.storeDecimal x) = .ok next) :
    ∃ h t o : UInt8, 100 * h.toNat + 10 * t.toNat + o.toNat = (m.registers.get x).toNat ∧
      t.toNat ≤ 9 ∧ o.toNat ≤ 9 ∧ ∀ p : Fin 4096, next.memory.byteAt p =
        [h, t, o][past m.registers.index p]?.getD (m.memory.byteAt p) := by
  have digit (a : UInt8) : (a % 10).toNat ≤ 9 := by
    rw [UInt8.toNat_mod]
    exact Nat.le_of_lt_succ (Nat.mod_lt _ (by decide))
  refine ⟨_, _, _, ?_, digit _, digit _, byteAt_of_execute done⟩
  simp only [UInt8.toNat_div, UInt8.toNat_mod, UInt8.reduceToNat]
  omega

/-- Only three instructions move bytes between registers and memory, and only two of them change
memory. Which bytes they move is said for each place of memory and each register, for blocks that go
around the end of memory like for others. So a block that was stored can be loaded again, and one
that was loaded changes nothing when it is stored again, if the index register is put back. -/
theorem bytes_move_in_blocks (cycled : m.cycle = (.executed i, next)) {a : UInt16}
    (index : m.registers.index = a) :
    (∀ x, i = .storeDecimal x → ∃ h t o : UInt8,
      100 * h.toNat + 10 * t.toNat + o.toNat = (m.registers.get x).toNat ∧
      t.toNat ≤ 9 ∧ o.toNat ≤ 9 ∧
      ∀ p, next.memory.byteAt p = [h, t, o][past a p]?.getD (m.memory.byteAt p)) ∧
    (∀ x, i = .storeRegisters x → ∀ p, next.memory.byteAt p =
      if past a p ≤ x.toNat then m.registers.get (.ofNat (past a p)) else m.memory.byteAt p) ∧
    ((∀ x, i ≠ .storeDecimal x ∧ i ≠ .storeRegisters x) → next.memory = m.memory) ∧
    (∀ x, i = .loadRegisters x → ∀ k, k.toNat ≤ 15 → next.registers.get k =
      if k.toNat ≤ x.toNat then m.memory.byteAt (ahead a k.toNat) else m.registers.get k) ∧
    (∀ x, i = .storeRegisters x ∨ i = .loadRegisters x → next.registers.index.toNat =
      if m.dialect.blockMovesIndex then (a.toNat + x.toNat + 1) % 4096 else a.toNat) ∧
    (∀ x, i = .storeRegisters x → ∀ other : Machine, other.memory = next.memory →
      other.registers.index = a →
      ∃ last, other.execute (.loadRegisters x) = .ok last ∧
        ∀ k, k.toNat ≤ x.toNat → last.registers.get k = m.registers.get k) ∧
    (∀ x, i = .loadRegisters x → ∀ other : Machine, other.memory = next.memory →
      (∀ k, k.toNat ≤ x.toNat → other.registers.get k = next.registers.get k) →
      other.registers.index = a →
      ∃ last, other.execute (.storeRegisters x) = .ok last ∧ last.memory = m.memory) := by
  subst index
  obtain ⟨-, decoded, done⟩ := of_cycle_executed cycled
  have fits := (Instruction.of_decode? decoded).2
  refine ⟨?_, ?_, ?_, ?_, ?_, ?_, ?_⟩
  · rintro x rfl
    exact byteAt_of_storeDecimal done
  · rintro x rfl
    exact byteAt_of_storeRegisters done
  · intro other
    have nothing : i.stored m.registers = [] := by
      cases i with
      | storeDecimal x => exact absurd rfl (other x).1
      | storeRegisters x => exact absurd rfl (other x).2
      | _ => rfl
    rw [execute_memory done, nothing, Memory.write]
  · rintro x rfl k place
    exact get_of_loadRegisters done fits place
  · rintro x (rfl | rfl)
    · cases Except.ok.inj done
      exact toNat_moveIndex m.dialect m.registers (x.toNat + 1)
    · cases Except.ok.inj done
      rw [toNat_moveIndex, Registers.setFrom_index, Nat.add_assoc]
  · rintro x rfl other memory index
    exact loaded_of_stored fits done memory index
  · rintro x rfl other memory registers index
    exact stored_of_loaded fits done memory registers index

/- A program that stores four registers at the end of memory, so that two of them go to the font. -/
def storeOverFont : Rom where
  bytes := #[0xF3, 0x55]

def beforeStore : Machine :=
  { boot storeOverFont { dialect := { blockMovesIndex := true } } with
    registers := ({ Registers.zero with index := 0xFFE }).set 2 0xAA }

def clearedAfterStore : Machine :=
  { beforeStore.cycle.2 with registers := { Registers.zero with index := 0xFFE } }

theorem bytes_move_in_blocks_over_font :
    beforeStore.cycle.1 = .executed (.storeRegisters 3) ∧
    beforeStore.cycle.2.registers.index = 0x002 ∧
    beforeStore.memory.byteAt 0 = 0xF0 ∧ beforeStore.cycle.2.memory.byteAt 0 = 0xAA ∧
    beforeStore.cycle.2.memory.byteAt 2 = beforeStore.memory.byteAt 2 ∧
    ∃ last, clearedAfterStore.execute (.loadRegisters 3) = .ok last ∧
      last.registers.get 2 = 0xAA := by
  have decoded : Instruction.decode? beforeStore.fetch = some (.storeRegisters 3) := by
    rw [fetch_of_loaded (m := beforeStore) storeOverFont rfl]
    decide
  have cycled := cycle_of_ok (m := beforeStore) rfl decoded rfl
  have held : beforeStore.registers.get 2 = 0xAA := by decide
  obtain ⟨-, stored, -, -, moved, back, -⟩ := bytes_move_in_blocks cycled (a := 0xFFE) rfl
  obtain ⟨last, loaded, restored⟩ := back 3 rfl clearedAfterStore (by
    rw [clearedAfterStore, cycled]) rfl
  rw [cycled]
  refine ⟨rfl, ?_, ?_, ?_, ?_, last, loaded, ?_⟩
  · exact UInt16.toNat_inj.mp (moved 3 (.inl rfl))
  · rw [beforeStore, boot, Memory.byteAt_ofRom]
    decide
  · rw [stored 3 rfl 0, if_pos (by decide)]
    exact held
  · rw [stored 3 rfl 2, if_neg (by decide)]
  · exact (restored 2 (by decide)).trans held

end Machine

end Chip8
