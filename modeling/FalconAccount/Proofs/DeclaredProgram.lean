import FalconAccount.Proofs.SourceWords
import FalconAccount.Proofs.SpelledOperands

/-!
# The program that a source declares

A source declares a program if its first line with words gives the version, and each other line with words
spells one instruction. This is said of the text, not of how it is read. The reader accepts exactly the
sources that declare a program whose version has all its instructions.
-/

namespace FalconAccount

/-- A table that holds everything, and in which nothing is found twice, finds everything. -/
theorem find?_beq_eq_some_iff {α β : Type} [DecidableEq β] {all : List α} {f : α → β}
    (hall : ∀ a, a ∈ all) (hinj : ∀ a ∈ all, ∀ b ∈ all, f a = f b → a = b) {key : β} {a : α} :
    all.find? (f · == key) = some a ↔ f a = key := by
  constructor
  · intro h
    simpa using List.find?_some h
  · rintro rfl
    cases hb : all.find? (f · == f a) with
    | none => simpa using List.find?_eq_none.mp hb a (hall a)
    | some b =>
      have hf : f b = f a := by simpa using List.find?_some hb
      rw [hinj b (hall b) a (hall a) hf]

namespace Assembly

theorem Operation.mem_all (op : Operation) : op ∈ all := by cases op <;> decide

theorem TxnField.mem_all (field : TxnField) : field ∈ all := by cases field <;> decide

theorem GlobalField.mem_all (field : GlobalField) : field ∈ all := by cases field <;> decide

theorem Operation.ofName?_eq_some_iff {text : String} {op : Operation} :
    ofName? text = some op ↔ op.name = text :=
  find?_beq_eq_some_iff mem_all (by decide)

theorem TxnField.ofName?_eq_some_iff {text : String} {field : TxnField} :
    ofName? text = some field ↔ field.name = text :=
  find?_beq_eq_some_iff mem_all (by decide)

theorem GlobalField.ofName?_eq_some_iff {text : String} {field : GlobalField} :
    ofName? text = some field ↔ field.name = text :=
  find?_beq_eq_some_iff mem_all (by decide)

/-- The words spell an instruction: its name, and as many operands as it has. -/
inductive Spells : List (List Char) → Instruction → Prop
  | operation (op : Operation) : Spells [op.name.toList] (.operation op)
  | bytecblock {operands : List (List Char)} {constants : List Bytes}
    (h : List.Forall₂ SpellsBytes operands constants) :
    Spells ("bytecblock".toList :: operands) (.bytecblock constants)
  | intcblock {operands : List (List Char)} {constants : List UInt64}
    (h : List.Forall₂ (SpellsInteger · ·.toNat) operands constants) :
    Spells ("intcblock".toList :: operands) (.intcblock constants)
  | txn (field : TxnField) : Spells ["txn".toList, field.name.toList] (.txn field)
  | global (field : GlobalField) : Spells ["global".toList, field.name.toList] (.global field)
  | arg {word : List Char} {index : UInt8} (h : SpellsInteger word index.toNat) :
    Spells ["arg".toList, word] (.arg index)
  | pushbytes {word : List Char} {bytes : Bytes} (h : SpellsBytes word bytes) :
    Spells ["pushbytes".toList, word] (.pushbytes bytes)
  | pushint {word : List Char} {n : UInt64} (h : SpellsInteger word n.toNat) :
    Spells ["pushint".toList, word] (.pushint n)

def Instruction.minVersion : Instruction → ℕ
  | .operation op => op.minVersion
  | .pushbytes _ => 3
  | .pushint _ => 3
  | _ => 1

theorem Instruction.minVersion_le (i : Instruction) : i.minVersion ≤ maxVersion := by
  cases i with
  | operation op => cases op <;> decide
  | _ => exact Nat.le_of_ble_eq_true rfl

/-- The words spell an instruction that the version has. -/
def Allows (version : ℕ) (words : List (List Char)) (i : Instruction) : Prop :=
  Spells words i ∧ i.minVersion ≤ version

section Operands

variable {operands : List (List Char)}

theorem oneOperand_eq_ok_iff {word : List Char} : oneOperand operands = .ok word ↔ operands = [word] := by
  unfold oneOperand
  split <;> simp_all

theorem requireVersion_eq_ok_iff {needed version : ℕ} :
    requireVersion needed version = .ok () ↔ needed ≤ version := by
  unfold requireVersion
  split_ifs <;> simp_all

theorem readField_eq_ok_iff {α : Type} {ofName? : String → Option α} {field : α} :
    readField ofName? operands = .ok field ↔
      ∃ word, operands = [word] ∧ ofName? (String.ofList word) = some field := by
  simp only [readField, bind_eq_ok_iff, oneOperand_eq_ok_iff]
  refine exists_congr fun word => and_congr_right fun _ => ?_
  cases ofName? (String.ofList word) <;> simp [pure, Except.pure, throw, throwThe, MonadExceptOf.throw]

theorem readPush_eq_ok_iff {α : Type} {read : List Char → Except OperandError α}
    {build : α → Instruction} {version : ℕ} {i : Instruction} :
    readPush read build version operands = .ok i ↔
      ∃ word a, operands = [word] ∧ 3 ≤ version ∧ read word = .ok a ∧ build a = i := by
  simp only [readPush, bind_eq_ok_iff, oneOperand_eq_ok_iff, pure_eq_ok_iff]
  constructor
  · rintro ⟨word, rfl, _, hversion, a, ha, hi⟩
    exact ⟨word, a, rfl, requireVersion_eq_ok_iff.mp hversion, ha, hi⟩
  · rintro ⟨word, a, rfl, hversion, ha, hi⟩
    exact ⟨word, rfl, (), requireVersion_eq_ok_iff.mpr hversion, a, ha, hi⟩

theorem readArg_eq_ok_iff {i : Instruction} :
    readArg operands = .ok i ↔
      ∃ word index, operands = [word] ∧ SpellsInteger word (UInt8.toNat index) ∧ .arg index = i := by
  simp only [readArg, bind_eq_ok_iff, oneOperand_eq_ok_iff, readInteger_eq_ok_iff]
  constructor
  · rintro ⟨word, rfl, n, hn, h⟩
    split_ifs at h with hle
    refine ⟨word, n.toUInt8, rfl, ?_, pure_eq_ok_iff.mp h⟩
    have hlt : n.toNat < 256 := Nat.lt_succ_of_le (UInt64.le_iff_toNat_le.mp hle)
    rwa [UInt64.toNat_toUInt8, Nat.mod_eq_of_lt hlt]
  · rintro ⟨word, index, rfl, hn, rfl⟩
    have hle : index.toUInt64 ≤ 255 := by
      rw [UInt64.le_iff_toNat_le, UInt8.toNat_toUInt64]
      exact Nat.le_of_lt_succ index.toNat_lt
    refine ⟨word, rfl, index.toUInt64, by rwa [UInt8.toNat_toUInt64], ?_⟩
    rw [if_pos hle, UInt8.toUInt8_toUInt64]
    rfl

theorem map_mapM_eq_ok_iff {α : Type} {read : List Char → Except OperandError α}
    {spells : List Char → α → Prop} (h : ∀ word a, read word = .ok a ↔ spells word a)
    {build : List α → Instruction} {i : Instruction} :
    (operands.mapM read).map build = .ok i ↔
      ∃ constants, List.Forall₂ spells operands constants ∧ build constants = i := by
  simp only [map_eq_ok_iff, mapM_eq_ok_iff, h]

theorem map_readField_eq_ok_iff {α : Type} {ofName? : String → Option α} {name : α → String}
    (h : ∀ text a, ofName? text = some a ↔ name a = text) {build : α → Instruction} {i : Instruction} :
    (readField ofName? operands).map build = .ok i ↔
      ∃ a, operands = [(name a).toList] ∧ build a = i := by
  simp only [map_eq_ok_iff, readField_eq_ok_iff, h]
  constructor
  · rintro ⟨a, ⟨word, rfl, hname⟩, hi⟩
    exact ⟨a, by rw [hname, String.toList_ofList], hi⟩
  · rintro ⟨a, rfl, hi⟩
    exact ⟨a, ⟨_, rfl, by rw [String.ofList_toList]⟩, hi⟩

end Operands

section Instructions

variable {version : ℕ} {operands : List (List Char)} {i : Instruction}

theorem readInstruction_operation {op : Operation} :
    readInstruction version op.name.toList operands = .ok i ↔
      operands = [] ∧ op.minVersion ≤ version ∧ .operation op = i := by
  rw [readInstruction, String.ofList_toList, Operation.ofName?_eq_some_iff.mpr rfl]
  cases operands with
  | nil =>
    simp only [List.length_nil, ne_eq, not_true_eq_false, if_false, true_and, bind_eq_ok_iff,
      pure_eq_ok_iff]
    constructor
    · rintro ⟨_, hversion, hi⟩
      exact ⟨requireVersion_eq_ok_iff.mp hversion, hi⟩
    · rintro ⟨hversion, hi⟩
      exact ⟨(), requireVersion_eq_ok_iff.mpr hversion, hi⟩
  | cons word operands =>
    constructor
    · intro h
      cases h
    · rintro ⟨hnone, -⟩
      cases hnone

theorem eq_toList_of_ofList {cs : List Char} {text : String} (h : String.ofList cs = text) :
    cs = text.toList := by
  rw [← h, String.toList_ofList]

theorem allows_of_readInstruction {name : List Char} (hv : 0 < version)
    (h : readInstruction version name operands = .ok i) : Allows version (name :: operands) i := by
  cases hop : Operation.ofName? (String.ofList name) with
  | some op =>
    obtain rfl := eq_toList_of_ofList (Operation.ofName?_eq_some_iff.mp hop).symm
    obtain ⟨rfl, hversion, rfl⟩ := readInstruction_operation.mp h
    exact ⟨.operation op, hversion⟩
  | none =>
    rw [readInstruction, hop] at h
    simp only at h
    split at h
    · next hname =>
      obtain ⟨constants, hs, rfl⟩ := (map_mapM_eq_ok_iff fun _ _ => readBytes_eq_ok_iff).mp h
      exact ⟨eq_toList_of_ofList hname ▸ .bytecblock hs, hv⟩
    · next hname =>
      obtain ⟨constants, hs, rfl⟩ := (map_mapM_eq_ok_iff fun _ _ => readInteger_eq_ok_iff).mp h
      exact ⟨eq_toList_of_ofList hname ▸ .intcblock hs, hv⟩
    · next hname =>
      obtain ⟨field, rfl, rfl⟩ :=
        (map_readField_eq_ok_iff fun _ _ => TxnField.ofName?_eq_some_iff).mp h
      exact ⟨eq_toList_of_ofList hname ▸ .txn field, hv⟩
    · next hname =>
      obtain ⟨field, rfl, rfl⟩ :=
        (map_readField_eq_ok_iff fun _ _ => GlobalField.ofName?_eq_some_iff).mp h
      exact ⟨eq_toList_of_ofList hname ▸ .global field, hv⟩
    · next hname =>
      obtain ⟨word, index, rfl, hindex, rfl⟩ := readArg_eq_ok_iff.mp h
      exact ⟨eq_toList_of_ofList hname ▸ .arg hindex, hv⟩
    · next hname =>
      obtain ⟨word, bytes, rfl, hversion, hbytes, rfl⟩ := readPush_eq_ok_iff.mp h
      exact ⟨eq_toList_of_ofList hname ▸ .pushbytes (readBytes_eq_ok_iff.mp hbytes), hversion⟩
    · next hname =>
      obtain ⟨word, n, rfl, hversion, hn, rfl⟩ := readPush_eq_ok_iff.mp h
      exact ⟨eq_toList_of_ofList hname ▸ .pushint (readInteger_eq_ok_iff.mp hn), hversion⟩
    · cases h

theorem readInstruction_of_allows {name : List Char} (h : Allows version (name :: operands) i) :
    readInstruction version name operands = .ok i := by
  obtain ⟨hspells, hversion⟩ := h
  cases hspells with
  | operation op => exact readInstruction_operation.mpr ⟨rfl, hversion, rfl⟩
  | bytecblock hs => exact (map_mapM_eq_ok_iff fun _ _ => readBytes_eq_ok_iff).mpr ⟨_, hs, rfl⟩
  | intcblock hs => exact (map_mapM_eq_ok_iff fun _ _ => readInteger_eq_ok_iff).mpr ⟨_, hs, rfl⟩
  | txn field =>
    exact (map_readField_eq_ok_iff fun _ _ => TxnField.ofName?_eq_some_iff).mpr ⟨field, rfl, rfl⟩
  | global field =>
    exact (map_readField_eq_ok_iff fun _ _ => GlobalField.ofName?_eq_some_iff).mpr ⟨field, rfl, rfl⟩
  | arg hindex => exact readArg_eq_ok_iff.mpr ⟨_, _, rfl, hindex, rfl⟩
  | pushbytes hbytes =>
    exact readPush_eq_ok_iff.mpr ⟨_, _, rfl, hversion, readBytes_eq_ok_iff.mpr hbytes, rfl⟩
  | pushint hn =>
    exact readPush_eq_ok_iff.mpr ⟨_, _, rfl, hversion, readInteger_eq_ok_iff.mpr hn, rfl⟩

theorem readInstruction_eq_ok_iff {name : List Char} (hv : 0 < version) :
    readInstruction version name operands = .ok i ↔ Allows version (name :: operands) i :=
  ⟨allows_of_readInstruction hv, readInstruction_of_allows⟩

end Instructions

theorem Spells.ne_pragma {name : List Char} {operands : List (List Char)} {i : Instruction}
    (h : Spells (name :: operands) i) : String.ofList name ≠ "#pragma" := by
  cases h with
  | operation op =>
    rw [String.ofList_toList]
    cases op <;> decide
  | _ => decide

theorem Spells.unique {words : List (List Char)} {i j : Instruction} (hi : Spells words i)
    (hj : Spells words j) : i = j := by
  cases words with
  | nil => cases hi
  | cons name operands =>
    have hread {i : Instruction} (h : Spells (name :: operands) i) :
        readInstruction maxVersion name operands = .ok i :=
      readInstruction_of_allows ⟨h, i.minVersion_le⟩
    exact Except.ok.inj ((hread hi).symm.trans (hread hj))

theorem readVersion_eq_ok_iff {operands : List (List Char)} {n : ℕ} :
    readVersion operands = .ok n ↔ ∃ word, operands = ["version".toList, word] ∧
      Numeral.Spells 10 word n ∧ 0 < n ∧ n ≤ maxVersion := by
  constructor
  · intro h
    unfold readVersion at h
    split at h
    · next keyword word =>
      split_ifs at h with hkeyword
      split at h
      · cases h
      · next v hread =>
        split_ifs at h with hrange
        obtain rfl := Except.ok.inj h
        rw [not_or, not_lt] at hrange
        refine ⟨word, by rw [eq_toList_of_ofList hkeyword],
          (Numeral.read_eq_ok_iff (by decide)).mp hread, ?_, hrange.2⟩
        exact UInt64.lt_iff_toNat_lt.mp (UInt64.pos_iff_ne_zero.mpr hrange.1)
    · cases h
  · rintro ⟨word, rfl, hspells, hpos, hmax⟩
    have hn : (UInt64.ofNat n).toNat = n :=
      UInt64.toNat_ofNat_of_lt' (hmax.trans_lt (by decide))
    have hread : Numeral.read 10 word = .ok (UInt64.ofNat n) :=
      (Numeral.read_eq_ok_iff (by decide)).mpr (hn.symm ▸ hspells)
    have hne : UInt64.ofNat n ≠ 0 := by
      intro hzero
      rw [hzero] at hn
      exact hpos.ne hn
    simp [readVersion, hread, hn, hne, not_lt.mpr hmax]

/-- The words of the lines that have any. -/
def wordLines (lines : List (List Char)) : List (List (List Char)) :=
  (lines.map lineWords).filter (· ≠ [])

theorem wordLines_cons_of_nil {line : List Char} (h : lineWords line = [])
    (lines : List (List Char)) : wordLines (line :: lines) = wordLines lines := by
  simp [wordLines, h]

theorem wordLines_cons_of_cons {line name : List Char} {operands : List (List Char)}
    (h : lineWords line = name :: operands) (lines : List (List Char)) :
    wordLines (line :: lines) = (name :: operands) :: wordLines lines := by
  simp [wordLines, h]

section Lines

variable {version number : ℕ} {lines : List (List Char)} {given : Option ℕ}
  {instructions : List Instruction}

theorem readLine_of_nil {line : List Char} (h : lineWords line = []) :
    readLine given line = .ok .blank := by
  rw [readLine, h]

theorem readLines_of_nil {line : List Char} (h : lineWords line = []) :
    readLines number given (line :: lines) = readLines (number + 1) given lines := by
  rw [readLines, readLine_of_nil h]
  rfl

/-- After the version, a line with words is an instruction that the version has, or it is wrong. -/
theorem readLine_some_eq_ok_iff {line name : List Char} {operands : List (List Char)} {l : Line}
    (h : lineWords line = name :: operands) (hv : 0 < version) :
    readLine (some version) line = .ok l ↔
      ∃ i, Allows version (name :: operands) i ∧ .instruction i = l := by
  rw [readLine, h]
  by_cases hname : String.ofList name = "#pragma"
  · simp only [if_pos hname]
    constructor
    · intro h
      cases h
    · rintro ⟨i, hallows, -⟩
      exact absurd hname hallows.1.ne_pragma
  · simp only [if_neg hname, mapError_eq_ok_iff, map_eq_ok_iff, readInstruction_eq_ok_iff hv]

theorem readLines_some_eq_ok_iff (hv : 0 < version) :
    readLines number (some version) lines = .ok (given, instructions) ↔
      given = some version ∧ List.Forall₂ (Allows version) (wordLines lines) instructions := by
  induction lines generalizing number instructions with
  | nil =>
    have hnil : wordLines [] = [] := rfl
    rw [hnil, List.forall₂_nil_left_iff, readLines, Except.ok.injEq, Prod.mk.injEq]
    exact and_congr eq_comm eq_comm
  | cons line lines ih =>
    cases hwords : lineWords line with
    | nil => rw [wordLines_cons_of_nil hwords, readLines_of_nil hwords, ih]
    | cons name operands =>
      rw [wordLines_cons_of_cons hwords, List.forall₂_cons_left_iff]
      constructor
      · intro h
        cases hline : readLine (some version) line with
        | error e =>
          rw [readLines, hline] at h
          cases h
        | ok l =>
          obtain ⟨i, hallows, rfl⟩ := (readLine_some_eq_ok_iff hwords hv).mp hline
          rw [readLines_instruction hline, map_eq_ok_iff] at h
          obtain ⟨⟨after, rest⟩, hrest, heq⟩ := h
          obtain ⟨rfl, rfl⟩ := Prod.mk.inj heq
          obtain ⟨hgiven, hs⟩ := ih.mp hrest
          exact ⟨hgiven, i, rest, hallows, hs, rfl⟩
      · rintro ⟨hgiven, i, rest, hallows, hs, rfl⟩
        have hline := (readLine_some_eq_ok_iff hwords hv).mpr ⟨i, hallows, rfl⟩
        rw [readLines_instruction hline, map_eq_ok_iff]
        exact ⟨(given, rest), ih.mpr ⟨hgiven, hs⟩, rfl⟩

/-- Before the version, a line with words gives it, or it is wrong. -/
theorem readLine_none_eq_ok_iff {line name : List Char} {operands : List (List Char)} {l : Line}
    (h : lineWords line = name :: operands) :
    readLine none line = .ok l ↔
      ∃ n, name = "#pragma".toList ∧ readVersion operands = .ok n ∧ .version n = l := by
  rw [readLine, h]
  by_cases hname : String.ofList name = "#pragma"
  · simp only [if_pos hname, map_eq_ok_iff]
    simp only [eq_toList_of_ofList hname, true_and]
  · simp only [if_neg hname]
    constructor
    · intro h
      cases h
    · rintro ⟨n, rfl, -⟩
      exact absurd (String.ofList_toList) hname

theorem readLines_none_eq_ok_iff :
    readLines number none lines = .ok (some version, instructions) ↔
      ∃ word rest, wordLines lines = ["#pragma".toList, "version".toList, word] :: rest ∧
        Numeral.Spells 10 word version ∧ 0 < version ∧ version ≤ maxVersion ∧
          List.Forall₂ (Allows version) rest instructions := by
  induction lines generalizing number with
  | nil =>
    constructor
    · intro h
      cases h
    · rintro ⟨word, rest, h, -⟩
      cases h
  | cons line lines ih =>
    cases hwords : lineWords line with
    | nil => rw [wordLines_cons_of_nil hwords, readLines_of_nil hwords, ih]
    | cons name operands =>
      rw [wordLines_cons_of_cons hwords]
      constructor
      · intro h
        cases hline : readLine none line with
        | error e =>
          rw [readLines, hline] at h
          cases h
        | ok l =>
          obtain ⟨n, rfl, hversion, rfl⟩ := (readLine_none_eq_ok_iff hwords).mp hline
          obtain ⟨word, rfl, hspells, hpos, hmax⟩ := readVersion_eq_ok_iff.mp hversion
          rw [readLines_version hline, readLines_some_eq_ok_iff hpos] at h
          obtain ⟨hn, hs⟩ := h
          obtain rfl := Option.some.inj hn
          exact ⟨word, _, rfl, hspells, hpos, hmax, hs⟩
      · rintro ⟨word, rest, hlines, hspells, hpos, hmax, hs⟩
        obtain ⟨hline, rfl⟩ := List.cons.inj hlines
        obtain ⟨rfl, rfl⟩ := List.cons.inj hline
        have hversion := readVersion_eq_ok_iff.mpr ⟨word, rfl, hspells, hpos, hmax⟩
        have hread := (readLine_none_eq_ok_iff hwords).mpr ⟨version, rfl, hversion, rfl⟩
        rw [readLines_version hread, readLines_some_eq_ok_iff hpos]
        exact ⟨rfl, hs⟩

end Lines

/-- The source declares the program: the first line with words gives its version, and the others spell
its instructions, one each, in order. -/
inductive Declares (source : List Char) (p : Program) : Prop
  | intro {lines : List (List Char)} {words rest : List (List (List Char))} {version : List Char}
    (hlines : Text.IsLines source lines) (hwords : List.Forall₂ HasWords lines words)
    (hfirst : words.filter (· ≠ []) = ["#pragma".toList, "version".toList, version] :: rest)
    (hversion : Numeral.Spells 10 version p.version)
    (hrest : List.Forall₂ Spells rest p.instructions) : Declares source p

theorem forall₂_hasWords_iff {lines : List (List Char)} {words : List (List (List Char))} :
    List.Forall₂ HasWords lines words ↔ lines.map lineWords = words := by
  have hrel : HasWords = fun line words => lineWords line = words := by
    funext line words
    exact propext hasWords_iff
  have heq : List.Forall₂ Eq (lines.map lineWords) words ↔ lines.map lineWords = words := by
    rw [List.forall₂_eq_eq_eq]
  rw [hrel, ← heq, List.forall₂_map_left_iff]

theorem declares_iff {source : List Char} {p : Program} :
    Declares source p ↔ ∃ version rest,
      wordLines (Text.lines source) = ["#pragma".toList, "version".toList, version] :: rest ∧
        Numeral.Spells 10 version p.version ∧ List.Forall₂ Spells rest p.instructions := by
  constructor
  · rintro ⟨hlines, hwords, hfirst, hversion, hrest⟩
    rw [Text.isLines_iff] at hlines
    rw [forall₂_hasWords_iff, ← hlines] at hwords
    rw [← hwords] at hfirst
    exact ⟨_, _, hfirst, hversion, hrest⟩
  · rintro ⟨version, rest, hfirst, hversion, hrest⟩
    exact ⟨Text.isLines_lines source, forall₂_hasWords_iff.mpr rfl, hfirst, hversion, hrest⟩

theorem Declares.unique {source : List Char} {p q : Program} (hp : Declares source p)
    (hq : Declares source q) : p = q := by
  obtain ⟨version, rest, hfirst, hversion, hrest⟩ := declares_iff.mp hp
  obtain ⟨version', rest', hfirst', hversion', hrest'⟩ := declares_iff.mp hq
  obtain ⟨hline, rfl⟩ := List.cons.inj (hfirst.symm.trans hfirst')
  obtain rfl : version = version' := by simpa using hline
  have hunique : Relator.RightUnique Spells := fun _ _ _ hi hj => hi.unique hj
  have hv : p.version = q.version := hversion.unique (by decide) hversion'
  have hi : p.instructions = q.instructions := List.right_unique_forall₂' hunique hrest hrest'
  cases p
  cases q
  simp only at hv hi
  rw [hv, hi]

/-- The version is one that is understood, and it has all the instructions. -/
structure Program.IsSupported (p : Program) : Prop where
  pos : 0 < p.version
  le_max : p.version ≤ maxVersion
  has : ∀ i ∈ p.instructions, i.minVersion ≤ p.version

theorem forall₂_allows_iff {version : ℕ} {rest : List (List (List Char))}
    {instructions : List Instruction} :
    List.Forall₂ (Allows version) rest instructions ↔
      List.Forall₂ Spells rest instructions ∧ ∀ i ∈ instructions, i.minVersion ≤ version := by
  constructor
  · intro h
    induction h with
    | nil => exact ⟨.nil, by simp⟩
    | cons hi _ ih => exact ⟨.cons hi.1 ih.1, List.forall_mem_cons.mpr ⟨hi.2, ih.2⟩⟩
  · rintro ⟨hs, hhas⟩
    induction hs with
    | nil => exact .nil
    | cons hi _ ih =>
      obtain ⟨hfirst, hrest⟩ := List.forall_mem_cons.mp hhas
      exact .cons ⟨hi, hfirst⟩ (ih hrest)

/-- A source is read if and only if it declares a program that is supported. -/
theorem parse_eq_ok_iff {source : List Char} {p : Program} :
    parse source = .ok p ↔ Declares source p ∧ p.IsSupported := by
  have hparse : parse source = .ok p ↔
      readLines 1 none (Text.lines source) = .ok (some p.version, p.instructions) := by
    rw [parse, bind_eq_ok_iff]
    constructor
    · rintro ⟨⟨version, instructions⟩, hread, h⟩
      cases version with
      | none => cases h
      | some version =>
        obtain rfl := pure_eq_ok_iff.mp h
        exact hread
    · intro hread
      exact ⟨_, hread, rfl⟩
  rw [hparse, readLines_none_eq_ok_iff, declares_iff]
  simp only [forall₂_allows_iff]
  constructor
  · rintro ⟨version, rest, hfirst, hversion, hpos, hmax, hrest, hhas⟩
    exact ⟨⟨version, rest, hfirst, hversion, hrest⟩, hpos, hmax, hhas⟩
  · rintro ⟨⟨version, rest, hfirst, hversion, hrest⟩, hpos, hmax, hhas⟩
    exact ⟨version, rest, hfirst, hversion, hpos, hmax, hrest, hhas⟩

end Assembly

end FalconAccount
