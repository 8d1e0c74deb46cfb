import FalconAccount.Derivation
import FalconAccount.Proofs.SourceText
import Mathlib.Tactic

/-!
# The source of a control program

Both marks of the template occur once, and nothing that takes their place looks like a mark. Read line
by line, the source gives the instructions whose bytecode is the control program, for every key and
every counter.
-/

namespace FalconAccount

variable (key : PublicKey) (counter : UInt8)

def templateStart : List Char := "#pragma version 12\nbytecblock ".toList

def templateMiddle : List Char := " // counter\ntxn TxID\narg 0\npushbytes ".toList

def templateEnd : List Char := "\nfalcon_verify\n".toList

theorem controlTemplate_toList :
    controlTemplate.toList =
      templateStart ++ (counterMark.toList ++
        (templateMiddle ++ (keyMark.toList ++ templateEnd))) := by
  unfold templateStart templateMiddle templateEnd
  simp [controlTemplate]

theorem notMem_hexOperand {c : Char} (h : ∀ n < 16, c ≠ Hex.digit n) (hx : c ≠ 'x') (bs : Bytes) :
    c ∉ hexOperand bs := by
  have h0 : c ≠ '0' := h 0 (by omega)
  simpa [hexOperand, h0, hx] using Hex.notMem_chars h bs

/-- The template with the counter put in. The mark of the key does not contain that of the counter. -/
theorem replace_counterMark (operand : List Char) :
    Text.replace counterMark.toList operand controlTemplate.toList =
      templateStart ++ (operand ++
        (templateMiddle ++ (keyMark.toList ++ templateEnd))) := by
  have hne : counterMark.toList ≠ [] := by decide
  have hhead : counterMark.toList.head? = some 'T' := by decide
  rw [controlTemplate_toList, Text.replace_append_of_notMem operand hhead (by decide),
    Text.replace_append_self operand hne,
    Text.replace_of_not_infix operand hne (by decide +kernel)]

/-- The text between the marks begins like the mark of the key in one place only, in a field name. -/
theorem replace_keyMark_between (operand rest : List Char) :
    Text.replace keyMark.toList operand (templateMiddle ++ rest) =
      templateMiddle ++ Text.replace keyMark.toList operand rest := by
  have hhead : keyMark.toList.head? = some 'T' := by decide
  have hsplit : templateMiddle =
      " // counter\ntxn ".toList ++ 'T' :: "xID\narg 0\npushbytes ".toList := by
    unfold templateMiddle
    simp
  have hfield : ¬ keyMark.toList <+: 'T' :: ("xID\narg 0\npushbytes ".toList ++ rest) := by
    simp [keyMark]
  rw [hsplit, List.append_assoc, List.cons_append,
    Text.replace_append_of_notMem operand hhead (by decide),
    Text.replace_cons_of_not_start operand hfield,
    Text.replace_append_of_notMem operand hhead (by decide), List.append_assoc, List.cons_append]

theorem controlSource_toList :
    (controlSource key counter).toList =
      templateStart ++ (hexOperand [counter] ++
        (templateMiddle ++ (hexOperand key.toList ++ templateEnd))) := by
  have hhead : keyMark.toList.head? = some 'T' := by decide
  have hcounter : 'T' ∉ hexOperand [counter] := notMem_hexOperand (by decide) (by decide) _
  rw [controlSource, String.toList_ofList, replace_counterMark,
    Text.replace_append_of_notMem _ hhead (by decide),
    Text.replace_append_of_notMem _ hhead hcounter, replace_keyMark_between,
    Text.replace_append_self _ (by decide),
    Text.replace_of_not_infix _ (by decide) (by decide +kernel)]

def controlLines : List (List Char) :=
  ["#pragma version 12".toList,
    "bytecblock ".toList ++ (hexOperand [counter] ++ " // counter".toList),
    "txn TxID".toList,
    "arg 0".toList,
    "pushbytes ".toList ++ hexOperand key.toList,
    "falcon_verify".toList]

theorem lines_controlSource :
    Text.lines (controlSource key counter).toList = controlLines key counter := by
  have hfeed (bs : Bytes) : '\n' ∉ hexOperand bs := notMem_hexOperand (by decide) (by decide) bs
  have hreturn (bs : Bytes) : '\r' ∉ hexOperand bs := notMem_hexOperand (by decide) (by decide) bs
  have hjoined : (controlSource key counter).toList =
      (controlLines key counter).flatMap (· ++ ['\n']) := by
    rw [controlSource_toList]
    unfold templateStart templateMiddle templateEnd
    simp [controlLines]
  rw [hjoined, Text.lines_flatMap_newline]
  simp [controlLines, hfeed, hreturn]

namespace Assembly

theorem isBlank_hexOperand (bs : Bytes) : ∀ c ∈ hexOperand bs, Text.isBlank c = false := by
  simp only [hexOperand, List.mem_cons, forall_eq_or_imp]
  exact ⟨by decide, by decide, Hex.forall_mem_chars (by decide) bs⟩

theorem readBytes_hexOperand (bs : Bytes) : readBytes (hexOperand bs) = .ok bs := by
  change ((Hex.decode (Bytes.ofChars (Hex.chars bs))).mapError _) = _
  rw [Hex.decode_chars]
  rfl

theorem readLine_pushbytes (bs : Bytes) :
    readLine (some 12) ("pushbytes ".toList ++ hexOperand bs) =
      .ok (.instruction (.pushbytes bs)) := by
  have hslash : '/' ∉ "pushbytes ".toList ++ hexOperand bs := by
    simpa using notMem_hexOperand (by decide) (by decide) bs
  have hsplit : "pushbytes ".toList ++ hexOperand bs =
      "pushbytes".toList ++ ' ' :: hexOperand bs := by simp
  have hwords : lineWords ("pushbytes ".toList ++ hexOperand bs) =
      ["pushbytes".toList, hexOperand bs] := by
    rw [lineWords, dropComment_of_notMem hslash, hsplit,
      Text.words_append_blank (Text.forall_not_blank_of_any (by decide)) (by decide) (by decide),
      Text.words_of_forall (isBlank_hexOperand bs) (List.cons_ne_nil _ _)]
  have hread : readInstruction 12 "pushbytes".toList [hexOperand bs] =
      (readBytes (hexOperand bs)).map .pushbytes := by cbv
  apply readLine_of_words hwords (by decide)
  rw [hread, readBytes_hexOperand]
  rfl

theorem readLine_bytecblock (bs : Bytes) :
    readLine (some 12) ("bytecblock ".toList ++ (hexOperand bs ++ " // counter".toList)) =
      .ok (.instruction (.bytecblock [bs])) := by
  have hslash : '/' ∉ "bytecblock ".toList ++ hexOperand bs := by
    simpa using notMem_hexOperand (by decide) (by decide) bs
  have hsplit : "bytecblock ".toList ++ (hexOperand bs ++ " // counter".toList) =
      ("bytecblock ".toList ++ hexOperand bs) ++ " // counter".toList := by simp
  have hcomment : ("bytecblock ".toList ++ hexOperand bs) ++ dropComment " // counter".toList =
      "bytecblock".toList ++ ' ' :: (hexOperand bs ++ ' ' :: []) := by simp [dropComment]
  have hwords : lineWords ("bytecblock ".toList ++ (hexOperand bs ++ " // counter".toList)) =
      ["bytecblock".toList, hexOperand bs] := by
    rw [lineWords, hsplit, dropComment_append_of_notMem hslash, hcomment,
      Text.words_append_blank (Text.forall_not_blank_of_any (by decide)) (by decide) (by decide),
      Text.words_append_blank (isBlank_hexOperand bs) (List.cons_ne_nil _ _) (by decide),
      Text.words_nil]
  have hread : readInstruction 12 "bytecblock".toList [hexOperand bs] =
      ([hexOperand bs].mapM readBytes).map .bytecblock := by cbv
  apply readLine_of_words hwords (by decide)
  rw [hread, List.mapM_cons, readBytes_hexOperand]
  rfl

/-- The program that the source stands for. -/
def controlInstructions : List Instruction :=
  [.bytecblock [[counter]], .txn .txId, .arg 0, .pushbytes key.toList, .operation .falconVerify]

theorem parse_controlSource :
    parse (controlSource key counter).toList = .ok ⟨12, controlInstructions key counter⟩ := by
  have hversion : readLine none "#pragma version 12".toList = .ok (.version 12) := by cbv
  have hid : readLine (some 12) "txn TxID".toList = .ok (.instruction (.txn .txId)) := by cbv
  have harg : readLine (some 12) "arg 0".toList = .ok (.instruction (.arg 0)) := by cbv
  have hverify : readLine (some 12) "falcon_verify".toList =
      .ok (.instruction (.operation .falconVerify)) := by cbv
  rw [parse, lines_controlSource, controlLines, readLines_version hversion,
    readLines_instruction (readLine_bytecblock _), readLines_instruction hid,
    readLines_instruction harg, readLines_instruction (readLine_pushbytes _),
    readLines_instruction hverify, readLines]
  rfl

theorem encode_controlInstructions :
    Program.encode ⟨12, controlInstructions key counter⟩ =
      (ControlProgram.ofKey key counter).bytes := by
  have hversion : Varuint.encode 12 = [12] := by cbv
  have hone : Varuint.encode 1 = [1] := by cbv
  have hsize : Varuint.encode key.toList.length = [0x81, 0x0e] := by
    rw [PublicKey.length_toList]
    cbv
  simp only [Program.encode, controlInstructions, List.flatMap_cons, List.flatMap_nil,
    Instruction.encode, sized, List.length_cons, List.length_nil, hversion, hone, hsize]
  rfl

/-- The source of a control program assembles to the control program. -/
theorem assemble_controlSource :
    assemble (controlSource key counter) = .ok (ControlProgram.ofKey key counter).bytes := by
  rw [assemble, parse_controlSource, ← encode_controlInstructions]
  rfl

end Assembly

end FalconAccount
