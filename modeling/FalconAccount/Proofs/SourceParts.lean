import FalconAccount.Proofs.DeclaredProgram

/-!
# Sources are read part by part

A text of whole lines is read before what comes behind it, and hands on the version alone. Behind a line
that gives the version, parts of a source are read as each would be without the others, but for the
numbers of their lines.
-/

namespace FalconAccount

namespace Text

/-- The text is empty or ends with a line feed: no line of it goes on in what comes behind. -/
def EndsLine (cs : List Char) : Prop := cs = [] ∨ cs.getLast? = some '\n'

instance (cs : List Char) : Decidable (EndsLine cs) :=
  inferInstanceAs (Decidable (cs = [] ∨ cs.getLast? = some '\n'))

variable {cs rest : List Char} {ls after : List (List Char)}

theorem EndsLine.of_append_newline {line : List Char} (h : EndsLine (line ++ '\n' :: rest)) :
    EndsLine rest := by
  cases rest with
  | nil => exact .inl rfl
  | cons c rest =>
    refine .inr ?_
    have hlast := h.resolve_left (by simp)
    rwa [List.getLast?_append_of_ne_nil _ (by simp), List.getLast?_cons_cons] at hlast

theorem IsLines.append (h : IsLines cs ls) (hcs : EndsLine cs) (hrest : IsLines rest after) :
    IsLines (cs ++ rest) (ls ++ after) := by
  induction h with
  | nil => exact hrest
  | last hne h =>
    exact absurd (List.mem_of_getLast? (hcs.resolve_left hne)) h
  | feed h hr _ ih =>
    rw [List.append_assoc, List.cons_append]
    exact .feed h hr (ih hcs.of_append_newline)
  | @returnFeed line rest _ h _ ih =>
    have hsplit : line ++ '\r' :: '\n' :: rest = (line ++ ['\r']) ++ '\n' :: rest := by simp
    rw [List.append_assoc, List.cons_append, List.cons_append]
    rw [hsplit] at hcs
    exact .returnFeed h (ih hcs.of_append_newline)

theorem lines_append (h : EndsLine cs) (rest : List Char) :
    lines (cs ++ rest) = lines cs ++ lines rest :=
  ((isLines_lines cs).append h (isLines_lines rest)).lines_eq

theorem IsLines.notMem (h : IsLines cs ls) {line : List Char} (hline : line ∈ ls) :
    '\n' ∉ line := by
  induction h with
  | nil => cases hline
  | last _ h => exact List.mem_singleton.mp hline ▸ h
  | feed h _ _ ih =>
    rcases List.mem_cons.mp hline with rfl | hline
    · exact h
    · exact ih hline
  | returnFeed h _ ih =>
    rcases List.mem_cons.mp hline with rfl | hline
    · exact h
    · exact ih hline

end Text

namespace Assembly

/-- The same error, if its line comes `k` lines later. -/
def SourceError.later (k : ℕ) : SourceError → SourceError
  | .emptyProgram => .emptyProgram
  | .atLine number cause => .atLine (number + k) cause

/-- The version given up to the end of a line, if the lines before it gave `given`. -/
def Line.versionAfter : Line → Option ℕ → Option ℕ
  | .version n, _ => some n
  | _, given => given

def Line.instructions : Line → List Instruction
  | .instruction i => [i]
  | _ => []

section Lines

variable {number version : ℕ} {given : Option ℕ} {line : List Char} {ls : List (List Char)}
  {l : Line} {r : Option ℕ × List Instruction}

theorem readLines_of_error {cause : LineError} (h : readLine given line = .error cause) :
    readLines number given (line :: ls) = .error (.atLine number cause) := by
  rw [readLines, h]
  rfl

theorem readLines_of_ok (h : readLine given line = .ok l) :
    readLines number given (line :: ls) =
      (readLines (number + 1) (l.versionAfter given) ls).map fun r => (r.1, l.instructions ++ r.2) := by
  cases l with
  | blank =>
    rw [readLines, h]
    exact (congrFun Except.map_id _).symm
  | version n =>
    rw [readLines_version h]
    exact (congrFun Except.map_id _).symm
  | instruction i => exact readLines_instruction h number ls

/-- Lines behind others are read with the version that these give, and their numbers go on. -/
theorem readLines_append (xs ys : List (List Char)) :
    readLines number given (xs ++ ys) = readLines number given xs >>= fun r =>
      (readLines (number + xs.length) r.1 ys).map fun s => (s.1, r.2 ++ s.2) := by
  induction xs generalizing number given with
  | nil => exact (congrFun Except.map_id _).symm
  | cons line xs ih =>
    have hnumber : number + (line :: xs).length = number + 1 + xs.length := by
      rw [List.length_cons]
      omega
    rw [List.cons_append, hnumber]
    cases h : readLine given line with
    | error cause =>
      rw [readLines_of_error h, readLines_of_error h]
      rfl
    | ok l =>
      -- the rest of `xs` starts with the version that the line leaves, one number further on
      rw [readLines_of_ok h, readLines_of_ok h, ih]
      cases readLines (number + 1) (l.versionAfter given) xs with
      | error e => rfl
      | ok r =>
        change ((readLines _ r.1 ys).map _).map _ = (readLines _ r.1 ys).map _
        cases readLines (number + 1 + xs.length) r.1 ys with
        | error e => rfl
        | ok s => exact congrArg (fun is => Except.ok (s.1, is)) (List.append_assoc ..).symm

/-- The number of the first line is of no account but for the number in the error. -/
theorem readLines_add (k : ℕ) :
    readLines (number + k) given ls = (readLines number given ls).mapError (.later k) := by
  induction ls generalizing number given with
  | nil => rfl
  | cons line ls ih =>
    cases h : readLine given line with
    | error cause =>
      rw [readLines_of_error h, readLines_of_error h]
      rfl
    | ok l =>
      rw [readLines_of_ok h, readLines_of_ok h, Nat.add_right_comm, ih]
      cases readLines (number + 1) (l.versionAfter given) ls <;> rfl

/-- The error names the first line that is wrong: all lines before it are read. -/
theorem readLines_eq_error_iff {e : SourceError} :
    readLines number given ls = .error e ↔ ∃ before line behind cause r,
      ls = before ++ line :: behind ∧ readLines number given before = .ok r ∧
        readLine r.1 line = .error cause ∧ e = .atLine (number + before.length) cause := by
  constructor
  · intro h
    induction ls generalizing number given with
    | nil => cases h
    | cons line ls ih =>
      cases hline : readLine given line with
      | error cause =>
        rw [readLines_of_error hline] at h
        exact ⟨[], line, ls, cause, (given, []), rfl, rfl, hline, (Except.error.inj h).symm⟩
      | ok l =>
        rw [readLines_of_ok hline, map_eq_error_iff] at h
        obtain ⟨before, bad, behind, cause, r, rfl, hbefore, hbad, rfl⟩ := ih h
        refine ⟨line :: before, bad, behind, cause, (r.1, l.instructions ++ r.2), rfl, ?_, hbad, ?_⟩
        · rw [readLines_of_ok hline, hbefore]
          rfl
        · rw [List.length_cons, Nat.add_assoc, Nat.add_comm 1]
  · rintro ⟨before, line, behind, cause, r, rfl, hbefore, hline, rfl⟩
    rw [readLines_append, hbefore]
    change (readLines _ r.1 (line :: behind)).map _ = _
    rw [readLines_of_error hline]
    rfl

theorem versionAfter_of_readLine_some (h : readLine (some version) line = .ok l) :
    l.versionAfter (some version) = some version := by
  cases hwords : lineWords line with
  | nil =>
    rw [readLine_of_nil hwords] at h
    exact Except.ok.inj h ▸ rfl
  | cons name operands =>
    rw [readLine, hwords] at h
    simp only at h
    split_ifs at h with hname
    rw [mapError_eq_ok_iff, map_eq_ok_iff] at h
    obtain ⟨i, -, rfl⟩ := h
    rfl

theorem fst_of_readLines_some (h : readLines number (some version) ls = .ok r) :
    r.1 = some version := by
  induction ls generalizing number r with
  | nil => exact Except.ok.inj h ▸ rfl
  | cons line ls ih =>
    cases hline : readLine (some version) line with
    | error cause => rw [readLines_of_error hline] at h; cases h
    | ok l =>
      rw [readLines_of_ok hline, versionAfter_of_readLine_some hline, map_eq_ok_iff] at h
      obtain ⟨s, hs, rfl⟩ := h
      have hfst : s.1 = some version := ih hs
      exact hfst

theorem exists_readLines_some_iff :
    (∃ r, readLines number (some version) ls = .ok r) ↔
      ∀ line ∈ ls, ∃ l, readLine (some version) line = .ok l := by
  induction ls generalizing number with
  | nil => exact ⟨fun _ _ h => (List.not_mem_nil h).elim, fun _ => ⟨_, rfl⟩⟩
  | cons line ls ih =>
    rw [List.forall_mem_cons]
    cases hline : readLine (some version) line with
    | error cause => simp [readLines_of_error hline]
    | ok l =>
      have hrest : (∃ r, readLines number (some version) (line :: ls) = .ok r) ↔
          ∃ r, readLines (number + 1) (some version) ls = .ok r := by
        simp [readLines_of_ok hline, versionAfter_of_readLine_some hline, map_eq_ok_iff]
      rw [hrest, ih]
      simp

end Lines

/-- The bytecode of a text behind a line that gives the version. -/
def assembleBehind (version : ℕ) (text : List Char) : Except SourceError Bytes :=
  (readLines 2 (some version) (Text.lines text)).map fun r =>
    UInt8.ofNat version :: r.2.flatMap Instruction.encode

section Behind

variable {version : ℕ} {text : List Char}

/-- Behind the version, the first part has no say in the second but for the numbers of its lines. -/
theorem assembleBehind_append (h : Text.EndsLine text) (rest : List Char) :
    assembleBehind version (text ++ rest) = assembleBehind version text >>= fun a =>
      ((assembleBehind version rest).mapError (.later (Text.lines text).length)).map (a ++ ·.tail) := by
  rw [assembleBehind, Text.lines_append h, readLines_append, assembleBehind, assembleBehind]
  cases hr : readLines 2 (some version) (Text.lines text) with
  | error e => rfl
  | ok r =>
    -- the version left by the first part is the one it was read with
    change ((readLines (2 + _) r.1 _).map _).map _ = _
    rw [fst_of_readLines_some hr, readLines_add]
    change _ = (Except.mapError _ (Except.map _ _)).map _
    cases readLines 2 (some version) (Text.lines rest) with
    | error e => rfl
    | ok s => simp [Except.map, Except.mapError]

theorem assembleBehind_line (h : '\n' ∉ text) :
    assembleBehind version text = ((readLine (some version) text).mapError (.atLine 2)).map fun l =>
      UInt8.ofNat version :: l.instructions.flatMap Instruction.encode := by
  by_cases hne : text = []
  · subst hne
    rfl
  · rw [assembleBehind, Text.lines_of_notMem hne h]
    cases hline : readLine (some version) text with
    | error cause =>
      rw [readLines_of_error hline]
      rfl
    | ok l =>
      rw [readLines_of_ok hline, versionAfter_of_readLine_some hline]
      simp [readLines, Except.map, Except.mapError]

theorem exists_assembleBehind_line_iff (h : '\n' ∉ text) :
    (∃ code, assembleBehind version text = .ok code) ↔
      ∃ l, readLine (some version) text = .ok l := by
  simp [assembleBehind_line h, map_eq_ok_iff, mapError_eq_ok_iff]

theorem assembleBehind_line_eq_error_iff (h : '\n' ∉ text) {cause : LineError} :
    assembleBehind version text = .error (.atLine 2 cause) ↔
      readLine (some version) text = .error cause := by
  simp [assembleBehind_line h, map_eq_error_iff, mapError_eq_error_iff]

/-- A text behind the version fails at its first line that fails there by itself. -/
theorem assembleBehind_eq_error_iff {e : SourceError} :
    assembleBehind version text = .error e ↔ ∃ before line behind cause,
      Text.lines text = before ++ line :: behind ∧
        (∀ l ∈ before, ∃ code, assembleBehind version l = .ok code) ∧
        assembleBehind version line = .error (.atLine 2 cause) ∧
        e = .atLine (2 + before.length) cause := by
  have hfeed {line : List Char} (hline : line ∈ Text.lines text) : '\n' ∉ line :=
    (Text.isLines_lines text).notMem hline
  rw [assembleBehind, map_eq_error_iff, readLines_eq_error_iff]
  constructor
  · rintro ⟨before, line, behind, cause, r, hlines, hbefore, hline, rfl⟩
    rw [fst_of_readLines_some hbefore] at hline
    refine ⟨before, line, behind, cause, hlines, fun l hl => ?_, ?_, rfl⟩
    · rw [exists_assembleBehind_line_iff (hfeed (by simp [hlines, hl]))]
      exact exists_readLines_some_iff.mp ⟨r, hbefore⟩ l hl
    · rwa [assembleBehind_line_eq_error_iff (hfeed (by simp [hlines]))]
  · rintro ⟨before, line, behind, cause, hlines, hbefore, hline, rfl⟩
    have heach : ∀ l ∈ before, ∃ x, readLine (some version) l = .ok x := by
      intro l hl
      rw [← exists_assembleBehind_line_iff (hfeed (by simp [hlines, hl]))]
      exact hbefore l hl
    obtain ⟨r, hr⟩ := exists_readLines_some_iff.mpr heach
    refine ⟨before, line, behind, cause, r, hlines, hr, ?_, rfl⟩
    rw [fst_of_readLines_some hr]
    rwa [← assembleBehind_line_eq_error_iff (hfeed (by simp [hlines]))]

end Behind

/-- The text is one line with its line feed, and it gives a version that is understood. -/
structure IsVersionLine (P : String) : Prop where
  exists_line : ∃ line, P.toList = line ++ ['\n'] ∧ '\n' ∉ line
  accepted : ∃ code, assemble P = .ok code

theorem parse_of_version {source line : List Char} {ls : List (List Char)} {n : ℕ}
    (hlines : Text.lines source = line :: ls) (h : readLine none line = .ok (.version n)) :
    parse source = (readLines 2 (some n) ls).map fun r => ⟨n, r.2⟩ := by
  rw [parse, hlines, readLines_version h]
  cases hr : readLines 2 (some n) ls with
  | error e => rfl
  | ok r =>
    obtain ⟨given, instructions⟩ := r
    obtain rfl : given = some n := fst_of_readLines_some hr
    rfl

theorem readLine_of_parse {source line : List Char} {p : Program} (hlines : Text.lines source = [line])
    (h : parse source = .ok p) : readLine none line = .ok (.version p.version) := by
  obtain ⟨hdeclares, hpos, hmax, -⟩ := parse_eq_ok_iff.mp h
  obtain ⟨word, rest, hfirst, hversion, -⟩ := declares_iff.mp hdeclares
  rw [hlines] at hfirst
  cases hwords : lineWords line with
  | nil =>
    rw [wordLines_cons_of_nil hwords] at hfirst
    cases hfirst
  | cons name operands =>
    rw [wordLines_cons_of_cons hwords] at hfirst
    obtain ⟨rfl, rfl⟩ := List.cons.inj (List.cons.inj hfirst).1
    exact (readLine_none_eq_ok_iff hwords).mpr
      ⟨p.version, rfl, readVersion_eq_ok_iff.mpr ⟨word, rfl, hversion, hpos, hmax⟩, rfl⟩

theorem wordLines_append (xs ys : List (List Char)) :
    wordLines (xs ++ ys) = wordLines xs ++ wordLines ys := by
  simp [wordLines]

theorem Program.encode_of_le {p : Program} (h : p.version ≤ maxVersion) :
    p.encode = UInt8.ofNat p.version :: p.instructions.flatMap Instruction.encode := by
  rw [encode, Varuint.encode, if_pos (h.trans_lt (by decide))]
  rfl

/-- A version line goes before any text, and its version is all that the text behind it is told. -/
theorem IsVersionLine.exists_version {P : String} (h : IsVersionLine P) :
    ∃ version, ∀ T : String, assemble (P ++ T) = assembleBehind version T.toList := by
  obtain ⟨⟨line, hP, hline⟩, code, hcode⟩ := h
  obtain ⟨p, hp, -⟩ := map_eq_ok_iff.mp hcode
  have hlines (rest : List Char) :
      Text.lines (P.toList ++ rest) = Text.dropReturn line :: Text.lines rest := by
    rw [hP, List.append_assoc]
    exact Text.lines_append_newline hline rest
  have hversion : readLine none (Text.dropReturn line) = .ok (.version p.version) :=
    readLine_of_parse ((List.append_nil P.toList).symm ▸ hlines []) hp
  refine ⟨p.version, fun T => ?_⟩
  rw [assemble, String.toList_append, parse_of_version (hlines _) hversion, assembleBehind]
  cases readLines 2 (some p.version) (Text.lines T.toList) with
  | error e => rfl
  | ok r => exact congrArg Except.ok (Program.encode_of_le (parse_eq_ok_iff.mp hp).2.le_max)

/-- Lines without words add nothing to the bytecode, wherever they are. -/
theorem assemble_eq_ok_congr {source padded : String}
    (h : wordLines (Text.lines source.toList) = wordLines (Text.lines padded.toList)) {code : Bytes} :
    assemble padded = .ok code ↔ assemble source = .ok code := by
  simp only [assemble, map_eq_ok_iff, parse_eq_ok_iff, declares_iff, h]

theorem parse_eq_error_atLine_iff {source : List Char} {number : ℕ} {cause : LineError} :
    parse source = .error (.atLine number cause) ↔
      readLines 1 none (Text.lines source) = .error (.atLine number cause) := by
  rw [parse]
  cases readLines 1 none (Text.lines source) with
  | error e => simp [bind, Except.bind]
  | ok r =>
    obtain ⟨_ | version, instructions⟩ := r
    · simp [bind, Except.bind, throw, throwThe, MonadExceptOf.throw]
    · simp [bind, Except.bind, pure, Except.pure]

/-- What comes behind a line has no say in whether that line is the one that the error names. -/
theorem assemble_append_eq_error_iff {D : String} (hD : Text.EndsLine D.toList) (B : String)
    {number : ℕ} (hnumber : number ≤ (Text.lines D.toList).length) {cause : LineError} :
    assemble (D ++ B) = .error (.atLine number cause) ↔
      assemble D = .error (.atLine number cause) := by
  simp only [assemble, map_eq_error_iff, parse_eq_error_atLine_iff, String.toList_append,
    Text.lines_append hD, readLines_append]
  cases readLines 1 none (Text.lines D.toList) with
  | error e => rfl
  | ok r =>
    refine ⟨fun h => ?_, fun h => by cases h⟩
    obtain ⟨before, line, behind, cause', s, -, -, -, he⟩ :=
      readLines_eq_error_iff.mp (map_eq_error_iff.mp h)
    have hle : number = 1 + (Text.lines D.toList).length + before.length :=
      (SourceError.atLine.inj he).1
    omega

/-- The lines of `padded` are those of `source`, and in one place lines without words. -/
inductive IsPadded (source padded : String) : Prop
  | intro {before blanks behind : List (List Char)}
    (hsource : Text.lines source.toList = before ++ behind)
    (hpadded : Text.lines padded.toList = before ++ blanks ++ behind)
    (hblanks : ∀ line ∈ blanks, HasWords line []) : IsPadded source padded

theorem IsPadded.wordLines_eq {source padded : String} (h : IsPadded source padded) :
    wordLines (Text.lines padded.toList) = wordLines (Text.lines source.toList) := by
  obtain @⟨before, blanks, behind, hsource, hpadded, hblanks⟩ := h
  have hnil : wordLines blanks = [] := by
    simp only [wordLines, List.filter_eq_nil_iff, List.mem_map]
    rintro _ ⟨line, hline, rfl⟩
    simp [hasWords_iff.mp (hblanks line hline)]
  rw [hsource, hpadded, wordLines_append, wordLines_append, wordLines_append, hnil, List.append_nil]

/-- Of the lines of `T`, the one behind `count` others is the first that is not assembled if it alone is
behind `P`. -/
inductive IsFirstWrong (P T : String) (count : ℕ) (cause : LineError) : Prop
  | intro {before behind : List (List Char)} {line : List Char}
    (hlines : Text.lines T.toList = before ++ line :: behind) (hcount : before.length = count)
    (hbefore : ∀ l ∈ before, ∃ code, assemble (P ++ String.ofList l) = .ok code)
    (hline : assemble (P ++ String.ofList line) = .error (.atLine 2 cause)) :
    IsFirstWrong P T count cause

theorem IsVersionLine.assemble_append {P A : String} (hP : IsVersionLine P)
    (hA : Text.EndsLine A.toList) (B : String) :
    assemble (P ++ A ++ B) = assemble (P ++ A) >>= fun a =>
      ((assemble (P ++ B)).mapError (.later (Text.lines A.toList).length)).map (a ++ ·.tail) := by
  obtain ⟨version, hassemble⟩ := hP.exists_version
  rw [String.append_assoc, hassemble, hassemble, hassemble, String.toList_append,
    assembleBehind_append hA]

theorem IsVersionLine.exists_version_byte {P : String} (hP : IsVersionLine P) :
    ∃ version, assemble P = .ok [version] ∧
      ∀ {T : String} {code : Bytes}, assemble (P ++ T) = .ok code → ∃ rest, code = version :: rest := by
  obtain ⟨version, hassemble⟩ := hP.exists_version
  refine ⟨UInt8.ofNat version, ?_, fun {T code} hT => ?_⟩
  · have hnone := hassemble ""
    rwa [String.append_empty] at hnone
  · rw [hassemble, assembleBehind, map_eq_ok_iff] at hT
    obtain ⟨r, -, rfl⟩ := hT
    exact ⟨_, rfl⟩

/-- Behind a version line, the error is that of the first line that is wrong by itself. -/
theorem IsVersionLine.assemble_eq_error_iff {P T : String} (hP : IsVersionLine P) {e : SourceError} :
    assemble (P ++ T) = .error e ↔
      ∃ count cause, IsFirstWrong P T count cause ∧ e = .atLine (2 + count) cause := by
  obtain ⟨version, hassemble⟩ := hP.exists_version
  rw [hassemble, assembleBehind_eq_error_iff]
  constructor
  · rintro ⟨before, line, behind, cause, hlines, hbefore, hline, rfl⟩
    refine ⟨before.length, cause, ⟨hlines, rfl, ?_, ?_⟩, rfl⟩
    · simpa only [hassemble, String.toList_ofList] using hbefore
    · simpa only [hassemble, String.toList_ofList] using hline
  · rintro ⟨_, cause, ⟨hlines, rfl, hbefore, hline⟩, rfl⟩
    simp only [hassemble, String.toList_ofList] at hbefore hline
    exact ⟨_, _, _, cause, hlines, hbefore, hline, rfl⟩

/-- Sources are put together from parts. Behind a version line `P`, let the text `A` end its last line and
let `B` be any text. An error in `A` is the error with `B` behind it too. If both are assembled, the code
of `B` follows that of `A`, with the version told once. An error in `B` is the same error behind `A`, and
its line is counted from the start. So lines without words never change bytecode. The line that an error
names is the first one that is wrong by itself, and in any source it is found from the lines up to it. -/
theorem assemble_in_parts {P A : String} (hP : IsVersionLine P) (hA : Text.EndsLine A.toList)
    (B : String) :
    (∀ e, assemble (P ++ A) = .error e → assemble (P ++ A ++ B) = .error e) ∧
    (∃ version, assemble P = .ok [version] ∧ ∀ a b, assemble (P ++ A) = .ok a →
      assemble (P ++ B) = .ok b → ∃ rest, b = version :: rest ∧
        assemble (P ++ A ++ B) = .ok (a ++ rest)) ∧
    (∀ a e, assemble (P ++ A) = .ok a → assemble (P ++ B) = .error e → ∃ number cause,
      e = .atLine number cause ∧
        assemble (P ++ A ++ B) = .error (.atLine (number + (Text.lines A.toList).length) cause)) ∧
    (∀ source padded, IsPadded source padded → ∀ code,
      assemble padded = .ok code ↔ assemble source = .ok code) ∧
    (∀ T e, assemble (P ++ T) = .error e ↔
      ∃ count cause, IsFirstWrong P T count cause ∧ e = .atLine (2 + count) cause) ∧
    ∀ (D : String) (number : ℕ) (cause : LineError), Text.EndsLine D.toList →
      number ≤ (Text.lines D.toList).length →
        (assemble (D ++ B) = .error (.atLine number cause) ↔
          assemble D = .error (.atLine number cause)) := by
  have hparts := hP.assemble_append hA B
  refine ⟨?_, ?_, ?_, ?_, ?_, ?_⟩
  · intro e he
    rw [hparts, he]
    rfl
  · obtain ⟨version, hversion, hcode⟩ := hP.exists_version_byte
    refine ⟨version, hversion, fun a b ha hb => ?_⟩
    obtain ⟨rest, rfl⟩ := hcode hb
    refine ⟨rest, rfl, ?_⟩
    rw [hparts, ha, hb]
    rfl
  · intro a e ha he
    obtain ⟨count, cause, -, rfl⟩ := hP.assemble_eq_error_iff.mp he
    refine ⟨_, cause, rfl, ?_⟩
    rw [hparts, ha, he]
    rfl
  · intro source padded hpadded code
    exact assemble_eq_ok_congr hpadded.wordLines_eq.symm
  · intro T e
    exact hP.assemble_eq_error_iff
  · intro D number cause hD hnumber
    exact assemble_append_eq_error_iff hD B hnumber

/-- The second line of the last part is the sixth line of the source. -/
theorem assemble_in_parts_unknown :
    let P := "#pragma version 12 // newest\r\n"
    let A := "txn TxID\n\n// the signature comes first\r\n"
    let B := "arg 0\nfalcon\narg x"
    let cause : LineError := .badInstruction "falcon".toList .unknownOpcode
    IsVersionLine P ∧ Text.EndsLine A.toList ∧ assemble (P ++ A ++ B) = .error (.atLine 6 cause) ∧
      IsFirstWrong P (A ++ B) 4 cause := by
  intro P A B cause
  have hP : IsVersionLine P := ⟨⟨P.toList.dropLast, by decide +kernel, by decide +kernel⟩, [12],
    by decide +kernel⟩
  have hA : Text.EndsLine A.toList := by decide +kernel
  have ha : assemble (P ++ A) = .ok [12, 0x31, 23] := by decide +kernel
  have hb : assemble (P ++ B) = .error (.atLine 3 cause) := by decide +kernel
  have hlength : (Text.lines A.toList).length = 3 := by decide +kernel
  obtain ⟨-, -, hbehind, -, hwrong, -⟩ := assemble_in_parts hP hA B
  obtain ⟨number, cause', he, hparts⟩ := hbehind _ _ ha hb
  obtain ⟨rfl, rfl⟩ := SourceError.atLine.inj he
  rw [hlength] at hparts
  have hjoined : assemble (P ++ (A ++ B)) = .error (.atLine 6 cause) := by
    rwa [← String.append_assoc]
  obtain ⟨count, cause', hfirst, he⟩ := (hwrong _ _).mp hjoined
  obtain ⟨hcount, rfl⟩ := SourceError.atLine.inj he
  obtain rfl : count = 4 := by omega
  exact ⟨hP, hA, hparts, hfirst⟩

end Assembly

end FalconAccount
