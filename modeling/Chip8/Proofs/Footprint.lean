import Chip8.Proofs.Interference

/-!
# What an instruction leaves alone

The parts of a machine, and for every instruction the few of them that it may change. A part that
an instruction does not list is after a cycle what it was before. The parts and the program counter
are all there is to a machine, so nothing is left out of this.
-/

namespace Chip8

inductive Part where
  | memory
  | screen
  | stack
  | delay
  | sound
  | random
  | wait
  | index
  | register (k : Fin 16)
  | keypad
  | dialect
deriving DecidableEq

def Part.Same (m n : Machine) : Part → Prop
  | .memory => n.memory = m.memory
  | .screen => n.screen = m.screen
  | .stack => n.stack = m.stack
  | .delay => n.timers.delay = m.timers.delay
  | .sound => n.timers.sound = m.timers.sound
  | .random => n.random = m.random
  | .wait => n.waiting = m.waiting
  | .index => n.registers.index = m.registers.index
  | .register k => n.registers.v.get k = m.registers.v.get k
  | .keypad => n.keypad = m.keypad
  | .dialect => n.dialect = m.dialect

def Part.ofDigit (x : UInt8) : Part :=
  .register (PerDigit.lastDigit x)

/-- Whether an operation writes the flag register after its result. -/
def Operation.flags (dialect : Dialect) : Operation → Bool
  | .copy => false
  | .or | .and | .xor => dialect.logicClearsFlag
  | .add | .sub | .shiftRight | .subFrom | .shiftLeft => true

/-- The parts that an instruction may change. -/
def Instruction.footprint (dialect : Dialect) : Instruction → List Part
  | .jump _ | .jumpOffset _ _ | .skip _ => []
  | .clear => [.screen]
  | .ret | .call _ => [.stack]
  | .load x _ | .add x _ | .readDelay x => [.ofDigit x]
  | .combine op x _ =>
    .ofDigit x :: if op.flags dialect then [.ofDigit Registers.flag] else []
  | .setIndex _ | .addIndex _ | .pointGlyph _ => [.index]
  | .random x _ => [.random, .ofDigit x]
  | .draw _ _ _ => [.screen, .ofDigit Registers.flag]
  | .awaitKey _ => [.wait]
  | .setDelay _ => [.delay]
  | .setSound _ => [.sound]
  | .storeDecimal _ => [.memory]
  | .storeRegisters _ => .memory :: if dialect.blockMovesIndex then [.index] else []
  | .loadRegisters x =>
    (List.range (x.toNat + 1)).map (fun k => .ofDigit (.ofNat k)) ++
      if dialect.blockMovesIndex then [.index] else []

theorem Operation.isSome_apply (op : Operation) (dialect : Dialect) (a b : UInt8) :
    (op.apply dialect a b).2.isSome = op.flags dialect := by
  cases op with
  | or | and | xor => cases clears : dialect.logicClearsFlag <;> simp [apply, flags, clears]
  | _ => rfl

namespace Registers

open PerDigit (lastDigit)

variable {x value : UInt8} {k : Fin 16}

theorem v_set_of_ne (r : Registers) (other : k ≠ lastDigit x) :
    (r.set x value).v.get k = r.v.get k :=
  Vector.getElem_set_ne (lastDigit x).isLt k.isLt fun same => other (Fin.ext same.symm)

theorem v_setFrom_of_ne (r : Registers) {row : List UInt8} {x : UInt8}
    (others : ∀ j < row.length, k ≠ lastDigit (x + .ofNat j)) :
    (r.setFrom x row).v.get k = r.v.get k := by
  induction row generalizing r x with
  | nil => rfl
  | cons value rest ih =>
    have first : k ≠ lastDigit x := by simpa using others 0 (Nat.succ_pos _)
    rw [setFrom, ih, v_set_of_ne r first]
    intro j inside
    have next := others (j + 1) (Nat.succ_lt_succ inside)
    rwa [UInt8.ofNat_add, UInt8.add_comm (.ofNat j), ← UInt8.add_assoc] at next

theorem ext_v {r s : Registers} (same : ∀ k : Fin 16, r.v.get k = s.v.get k)
    (index : r.index = s.index) : r = s := by
  have v : r.v = s.v := Vector.ext fun j inside => same ⟨j, inside⟩
  cases r
  cases s
  exact congrArg₂ Registers.mk v index

end Registers

namespace Machine

variable {m n next : Machine} {i : Instruction} {part : Part} {k : Fin 16} {x : UInt8}

/- The parts and the program counter say all of a machine. -/
theorem eq_of_same (pc : n.pc = m.pc) (same : ∀ part : Part, part.Same m n) : n = m := by
  have registers : n.registers = m.registers :=
    Registers.ext_v (fun k => same (.register k)) (same .index)
  have timers : n.timers = m.timers := by
    have delay : n.timers.delay = m.timers.delay := same .delay
    have sound : n.timers.sound = m.timers.sound := same .sound
    exact congrArg₂ Timers.mk delay sound
  have memory : n.memory = m.memory := same .memory
  have stack : n.stack = m.stack := same .stack
  have keypad : n.keypad = m.keypad := same .keypad
  have screen : n.screen = m.screen := same .screen
  have random : n.random = m.random := same .random
  have waiting : n.waiting = m.waiting := same .wait
  have dialect : n.dialect = m.dialect := same .dialect
  cases n
  simp only at pc registers timers memory stack keypad screen random waiting dialect
  rw [pc, registers, timers, memory, stack, keypad, screen, random, waiting, dialect]

theorem ne_of_free {parts : List Part} (free : .register k ∉ parts) (listed : .ofDigit x ∈ parts) :
    k ≠ PerDigit.lastDigit x := by
  rintro rfl
  exact free listed

theorem combine_v {op : Operation} {y : UInt8}
    (free : .register k ∉ (Instruction.combine op x y).footprint m.dialect) :
    (m.combine op x y).v.get k = m.registers.v.get k := by
  have result : k ≠ PerDigit.lastDigit x := ne_of_free free List.mem_cons_self
  have flags := op.isSome_apply m.dialect (m.registers.get x) (m.registers.get y)
  unfold combine
  cases applied : op.apply m.dialect (m.registers.get x) (m.registers.get y) with
  | mk value flag =>
  rw [applied] at flags
  cases flag with
  | none => exact Registers.v_set_of_ne _ result
  | some b =>
    have last : k ≠ PerDigit.lastDigit Registers.flag :=
      ne_of_free free (by simp [Instruction.footprint, ← flags])
    exact (Registers.v_set_of_ne _ last).trans (Registers.v_set_of_ne _ result)

theorem moveIndex_v (dialect : Dialect) (r : Registers) (count : Nat) (k : Fin 16) :
    (moveIndex dialect r count).v.get k = r.v.get k := by
  unfold moveIndex
  split <;> rfl

theorem moveIndex_of_free {dialect : Dialect} (parts : List Part)
    (free : .index ∉ parts ++ if dialect.blockMovesIndex then [.index] else [])
    (r : Registers) (count : Nat) : moveIndex dialect r count = r := by
  unfold moveIndex
  split
  · rename_i moves
    simp [moves] at free
  · rfl

theorem loadRegisters_v (row : List UInt8) (length : row.length = x.toNat + 1)
    (free : .register k ∉ (Instruction.loadRegisters x).footprint m.dialect) :
    (m.registers.setFrom 0 row).v.get k = m.registers.v.get k := by
  apply Registers.v_setFrom_of_ne
  intro j inside
  apply ne_of_free free
  rw [UInt8.zero_add]
  exact List.mem_append_left _ (List.mem_map_of_mem (List.mem_range.mpr (length ▸ inside)))

/-- The one case analysis over the instructions. What an instruction does not list is the same
after it. -/
theorem execute_same (done : m.execute i = .ok next) (free : part ∉ i.footprint m.dialect) :
    part.Same m next := by
  cases i with
  | jump | jumpOffset =>
    obtain ⟨-, rfl⟩ := jump_eq_ok_iff.mp done
    cases part <;> rfl
  | ret | call =>
    obtain ⟨pc, stack, rfl⟩ := execute_transfer rfl done
    cases part with
    | stack => exact absurd List.mem_cons_self free
    | _ => rfl
  | skip condition =>
    cases Except.ok.inj done
    split <;> cases part <;> rfl
  | clear =>
    cases Except.ok.inj done
    cases part with
    | screen => exact absurd List.mem_cons_self free
    | _ => rfl
  | load x | add x | readDelay x =>
    cases Except.ok.inj done
    cases part with
    | register k => exact Registers.v_set_of_ne _ (ne_of_free free List.mem_cons_self)
    | _ => rfl
  | combine op x y =>
    cases Except.ok.inj done
    cases part with
    | register k => exact combine_v free
    | index => exact m.combine_index op x y
    | _ => rfl
  | setIndex | addIndex | pointGlyph =>
    cases Except.ok.inj done
    cases part with
    | index => exact absurd List.mem_cons_self free
    | _ => rfl
  | random x kk =>
    cases Except.ok.inj done
    cases part with
    | random => exact absurd List.mem_cons_self free
    | register k =>
      exact Registers.v_set_of_ne _ (ne_of_free free (List.mem_cons_of_mem _ List.mem_cons_self))
    | _ => rfl
  | draw x y n =>
    cases Except.ok.inj done
    cases part with
    | screen => exact absurd List.mem_cons_self free
    | register k =>
      exact Registers.v_set_of_ne _ (ne_of_free free (List.mem_cons_of_mem _ List.mem_cons_self))
    | _ => rfl
  | awaitKey x =>
    cases Except.ok.inj done
    cases part with
    | wait => exact absurd List.mem_cons_self free
    | _ => rfl
  | setDelay x =>
    cases Except.ok.inj done
    cases part with
    | delay => exact absurd List.mem_cons_self free
    | _ => rfl
  | setSound x =>
    cases Except.ok.inj done
    cases part with
    | sound => exact absurd List.mem_cons_self free
    | _ => rfl
  | storeDecimal x =>
    cases Except.ok.inj done
    cases part with
    | memory => exact absurd List.mem_cons_self free
    | _ => rfl
  | storeRegisters x =>
    cases Except.ok.inj done
    cases part with
    | memory => exact absurd List.mem_cons_self free
    | register k => exact moveIndex_v m.dialect m.registers (x.toNat + 1) k
    | index => exact congrArg Registers.index (moveIndex_of_free [.memory] free _ _)
    | _ => rfl
  | loadRegisters x =>
    cases Except.ok.inj done
    cases part with
    | register k =>
      refine (moveIndex_v _ _ _ k).trans (loadRegisters_v _ ?_ free)
      rw [Memory.read, List.length_map, List.length_range]
    | index =>
      exact (congrArg Registers.index (moveIndex_of_free _ free _ _)).trans
        (Registers.setFrom_index ..)
    | _ => rfl

/-- A cycle that carries out an instruction changes the program counter and, of the other parts, at
most those that the instruction lists. No cycle changes the keypad. Two machines in which all parts
and the program counters are the same are one. -/
theorem cycle_changes_at_most_its_footprint (m : Machine) :
    (∀ i next, m.cycle = (.executed i, next) →
      ∀ part ∉ i.footprint m.dialect, part.Same m next) ∧
    m.cycle.2.keypad = m.keypad ∧
    ∀ n : Machine, n.pc = m.pc → (∀ part : Part, part.Same m n) → n = m := by
  refine ⟨?_, m.cycle_keypad, fun n pc same => eq_of_same pc same⟩
  intro i next cycled part free
  obtain ⟨-, -, done⟩ := of_cycle_executed cycled
  exact execute_same done free

/- A program that loads three registers from the font and moves the index register. -/
def loadFromFont : Rom where
  bytes := #[0xF2, 0x65]

def beforeLoad : Machine :=
  boot loadFromFont { dialect := { blockMovesIndex := true } }

theorem cycle_changes_at_most_its_footprint_load :
    beforeLoad.cycle.1 = .executed (.loadRegisters 2) ∧
    (Instruction.loadRegisters 2).footprint beforeLoad.dialect =
      [.register 0, .register 1, .register 2, .index] ∧
    beforeLoad.cycle.2.registers.v.get 3 = beforeLoad.registers.v.get 3 ∧
    beforeLoad.cycle.2.memory = beforeLoad.memory ∧
    beforeLoad.cycle.2.random = beforeLoad.random := by
  have decoded : Instruction.decode? beforeLoad.fetch = some (.loadRegisters 2) := by
    rw [fetch_of_loaded (m := beforeLoad) loadFromFont rfl]
    decide
  have cycled := cycle_of_ok (m := beforeLoad) rfl decoded rfl
  have listed : (Instruction.loadRegisters 2).footprint beforeLoad.dialect =
      [.register 0, .register 1, .register 2, .index] := by decide
  have kept := (cycle_changes_at_most_its_footprint beforeLoad).1 _ _ cycled
  rw [listed] at kept
  rw [cycled]
  exact ⟨rfl, listed, kept (.register 3) (by decide), kept .memory (by decide),
    kept .random (by decide)⟩

end Machine

end Chip8
