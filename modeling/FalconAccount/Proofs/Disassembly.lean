import FalconAccount.Proofs.DeclaredProgram
import FalconAccount.Proofs.MsgpackValues

/-!
# Bytecode is unambiguous

One disassembler reads every program back from its bytecode, with nothing left over. The address of an
account is a hash of its bytecode: sources have the same bytecode only if they declare the same program.
-/

namespace FalconAccount

namespace Assembly

def Operation.ofCode? (code : UInt8) : Option Operation := all.find? (·.code == code)

def TxnField.ofCode? (code : UInt8) : Option TxnField := all.find? (·.code == code)

def GlobalField.ofCode? (code : UInt8) : Option GlobalField := all.find? (·.code == code)

theorem TxnField.ofCode?_code (field : TxnField) : ofCode? field.code = some field :=
  (find?_beq_eq_some_iff mem_all (by decide)).mpr rfl

theorem GlobalField.ofCode?_code (field : GlobalField) : ofCode? field.code = some field :=
  (find?_beq_eq_some_iff mem_all (by decide)).mpr rfl

def readByte : Bytes → Option (UInt8 × Bytes)
  | [] => none
  | b :: rest => some (b, rest)

def readCode {α : Type} (ofCode? : UInt8 → Option α) (bs : Bytes) : Option (α × Bytes) := do
  let (code, rest) ← readByte bs
  let field ← ofCode? code
  some (field, rest)

theorem readCode_cons {α : Type} {ofCode? : UInt8 → Option α} {code : UInt8} {field : α}
    (h : ofCode? code = some field) (rest : Bytes) :
    readCode ofCode? (code :: rest) = some (field, rest) := by
  change (ofCode? code >>= fun field => some (field, rest)) = _
  rw [h]
  rfl

def readWord (bs : Bytes) : Option (UInt64 × Bytes) := do
  let (n, rest) ← Varuint.decode? bs
  if n < UInt64.size then some (UInt64.ofNat n, rest) else none

/-- The byte string at the front, after its length. -/
def readSized (bs : Bytes) : Option (Bytes × Bytes) := do
  let (size, rest) ← Varuint.decode? bs
  let after ← Bytes.dropExact size rest
  some (rest.take size, after)

/-- The constants at the front, after their number. -/
def readBlock {α : Type} (read : Bytes → Option (α × Bytes)) (bs : Bytes) :
    Option (List α × Bytes) := do
  let (count, rest) ← Varuint.decode? bs
  Msgpack.readMany read count rest

def Instruction.decode? (bs : Bytes) : Option (Instruction × Bytes) := do
  let (code, rest) ← readByte bs
  if code = 0x20 then (readBlock readWord rest).map (Prod.map .intcblock id)
  else if code = 0x26 then (readBlock readSized rest).map (Prod.map .bytecblock id)
  else if code = 0x2c then (readByte rest).map (Prod.map .arg id)
  else if 0x2d ≤ code ∧ code ≤ 0x30 then some (.arg (code - 0x2d), rest)
  else if code = 0x31 then (readCode TxnField.ofCode? rest).map (Prod.map .txn id)
  else if code = 0x32 then (readCode GlobalField.ofCode? rest).map (Prod.map .global id)
  else if code = 0x80 then (readSized rest).map (Prod.map .pushbytes id)
  else if code = 0x81 then (readWord rest).map (Prod.map .pushint id)
  else (Operation.ofCode? code).map (.operation ·, rest)

/-- The instructions that the bytes are, up to their end and at most `most` of them. -/
def readInstructions : (most : ℕ) → Bytes → Option (List Instruction)
  | _, [] => some []
  | 0, _ :: _ => none
  | most + 1, b :: bs => do
    let (i, rest) ← Instruction.decode? (b :: bs)
    let instructions ← readInstructions most rest
    some (i :: instructions)

/-- The program with a bytecode. All of the bytes are read, and each instruction has one at least. -/
def disassemble (bytecode : Bytes) : Option Program := do
  let (version, rest) ← Varuint.decode? bytecode
  let instructions ← readInstructions rest.length rest
  some ⟨version, instructions⟩

theorem readWord_encode (n : UInt64) (rest : Bytes) :
    readWord (Varuint.encode n.toNat ++ rest) = some (n, rest) := by
  rw [readWord, Varuint.decode?_encode_append]
  change (if n.toNat < UInt64.size then some (UInt64.ofNat n.toNat, rest) else none) = _
  rw [if_pos n.toNat_lt, UInt64.ofNat_toNat]

theorem readSized_sized (bytes rest : Bytes) : readSized (sized bytes ++ rest) = some (bytes, rest) := by
  rw [readSized, sized, List.append_assoc, Varuint.decode?_encode_append]
  change (Bytes.dropExact bytes.length (bytes ++ rest) >>= fun after => _) = _
  rw [Bytes.dropExact_append]
  simp

theorem readBlock_encode {α : Type} {read : Bytes → Option (α × Bytes)} {write : α → Bytes}
    (h : ∀ a rest, read (write a ++ rest) = some (a, rest)) (as : List α) (rest : Bytes) :
    readBlock read (Varuint.encode as.length ++ as.flatMap write ++ rest) = some (as, rest) := by
  rw [readBlock, List.append_assoc, Varuint.decode?_encode_append]
  exact Msgpack.readMany_flatMap (fun a _ => h a) rest

/-- The first four arguments are told by the byte of the instruction alone. -/
theorem Instruction.decode?_encode_arg (index : UInt8) (rest : Bytes) :
    decode? ((arg index).encode ++ rest) = some (arg index, rest) := by
  rw [encode]
  by_cases hindex : index < 4
  · have hlt : index.toNat < 4 := hindex
    have hcases : index = 0 ∨ index = 1 ∨ index = 2 ∨ index = 3 := by
      simp only [← UInt8.toNat_inj]
      change index.toNat = 0 ∨ index.toNat = 1 ∨ index.toNat = 2 ∨ index.toNat = 3
      omega
    rw [if_pos hindex]
    rcases hcases with rfl | rfl | rfl | rfl <;> rfl
  · rw [if_neg hindex]
    rfl

theorem Instruction.decode?_encode (i : Instruction) (rest : Bytes) :
    decode? (i.encode ++ rest) = some (i, rest) := by
  cases i with
  | operation op => cases op <;> rfl
  | bytecblock constants =>
    exact congrArg (Option.map (Prod.map bytecblock id)) (readBlock_encode readSized_sized constants rest)
  | intcblock constants =>
    exact congrArg (Option.map (Prod.map intcblock id)) (readBlock_encode readWord_encode constants rest)
  | txn field => exact congrArg (Option.map (Prod.map txn id)) (readCode_cons field.ofCode?_code rest)
  | global field =>
    exact congrArg (Option.map (Prod.map global id)) (readCode_cons field.ofCode?_code rest)
  | arg index => exact decode?_encode_arg index rest
  | pushbytes bytes => exact congrArg (Option.map (Prod.map pushbytes id)) (readSized_sized bytes rest)
  | pushint n => exact congrArg (Option.map (Prod.map pushint id)) (readWord_encode n rest)

theorem Instruction.encode_ne_nil (i : Instruction) : i.encode ≠ [] := by
  cases i with
  | arg index =>
    rw [encode]
    split_ifs <;> simp
  | _ => simp [encode]

theorem readInstructions_succ {b : UInt8} {bs rest : Bytes} {i : Instruction}
    (h : Instruction.decode? (b :: bs) = some (i, rest)) (most : ℕ) :
    readInstructions (most + 1) (b :: bs) = (readInstructions most rest).map (i :: ·) := by
  rw [readInstructions, h]
  change (readInstructions most rest >>= fun instructions => some (i :: instructions)) = _
  cases readInstructions most rest <;> rfl

/-- Instructions read back, if as many may be read as they have bytes. -/
theorem readInstructions_flatMap {instructions : List Instruction} {most : ℕ}
    (h : (instructions.flatMap Instruction.encode).length ≤ most) :
    readInstructions most (instructions.flatMap Instruction.encode) = some instructions := by
  induction instructions generalizing most with
  | nil => cases most <;> rfl
  | cons i instructions ih =>
    have hread := i.decode?_encode (instructions.flatMap Instruction.encode)
    rw [List.flatMap_cons, List.length_append] at h
    rw [List.flatMap_cons]
    obtain ⟨b, bs, hb⟩ := List.exists_cons_of_ne_nil i.encode_ne_nil
    rw [hb, List.cons_append] at hread ⊢
    rw [hb, List.length_cons] at h
    obtain ⟨most, rfl⟩ := Nat.exists_eq_add_one.mpr (show 0 < most by omega)
    rw [readInstructions_succ hread, ih (by omega)]
    rfl

/-- Every program reads back from its bytecode. -/
theorem disassemble_encode (p : Program) : disassemble p.encode = some p := by
  rw [disassemble, Program.encode, Varuint.decode?_encode_append]
  change (readInstructions _ _ >>= fun instructions => _) = _
  rw [readInstructions_flatMap le_rfl]
  rfl

theorem encode_inj {p q : Program} : p.encode = q.encode ↔ p = q := by
  constructor
  · intro h
    have hread := disassemble_encode p
    rw [h, disassemble_encode] at hread
    exact (Option.some.inj hread).symm
  · rintro rfl
    rfl

/-- The bytecode of a source is taken apart, to its last byte, into the program that the source declares:
its version, and the instruction of each line with words, in order. Another source has the same bytecode
if and only if it declares the same program. -/
theorem assemble_unambiguous {source : String} {bytecode : Bytes}
    (h : assemble source = .ok bytecode) :
    ∃ p, disassemble bytecode = some p ∧ Declares source.toList p ∧
      (∀ q, Declares source.toList q → q = p) ∧
      ∀ other code, assemble other = .ok code → (code = bytecode ↔ Declares other.toList p) := by
  obtain ⟨p, hparse, rfl⟩ := map_eq_ok_iff.mp h
  have hp := (parse_eq_ok_iff.mp hparse).1
  refine ⟨p, disassemble_encode p, hp, fun q hq => hq.unique hp, fun other code hother => ?_⟩
  obtain ⟨q, hparse', rfl⟩ := map_eq_ok_iff.mp hother
  have hq := (parse_eq_ok_iff.mp hparse').1
  rw [encode_inj]
  constructor
  · rintro rfl
    exact hq
  · intro hdeclares
    exact hq.unique hdeclares

/-- A program spelled in two ways, and one with another argument. -/
theorem assemble_unambiguous_respelled :
    let source := "#pragma version 12\nbytecblock 0x0aFF // counter\narg 0\npushint 300\n"
    let respelled :=
      "// numbers\n#pragma\tversion +012\r\n\nbytecblock 0x0AfF\narg 0x0//first\npushint 0x12c"
    let other := "#pragma version 12\nbytecblock 0x0aFF\narg 1\npushint 300\n"
    let p : Program := ⟨12, [.bytecblock [[0x0a, 0xff]], .arg 0, .pushint 300]⟩
    disassemble [12, 0x26, 1, 2, 0x0a, 0xff, 0x2d, 0x81, 0xac, 2] = some p ∧
      Declares source.toList p ∧ Declares respelled.toList p ∧ ¬ Declares other.toList p := by
  intro source respelled other p
  have hsource : assemble source = .ok [12, 0x26, 1, 2, 0x0a, 0xff, 0x2d, 0x81, 0xac, 2] := by
    decide +kernel
  have hrespelled : assemble respelled = .ok [12, 0x26, 1, 2, 0x0a, 0xff, 0x2d, 0x81, 0xac, 2] := by
    decide +kernel
  have hother : assemble other = .ok [12, 0x26, 1, 2, 0x0a, 0xff, 0x2e, 0x81, 0xac, 2] := by
    decide +kernel
  have hread : disassemble [12, 0x26, 1, 2, 0x0a, 0xff, 0x2d, 0x81, 0xac, 2] = some p := by
    decide +kernel
  obtain ⟨q, hq, hdeclares, -, hothers⟩ := assemble_unambiguous hsource
  obtain rfl := Option.some.inj (hq.symm.trans hread)
  refine ⟨hread, hdeclares, (hothers _ _ hrespelled).mp rfl, fun h => ?_⟩
  exact absurd ((hothers _ _ hother).mpr h) (by decide)

end Assembly

end FalconAccount
