/-!
# The form of a command line

How arguments name options and give values to them. A long option is written `--name value` or
`--name=value`, a short one `-n value`, `-nvalue` or `-n=value`, and short ones without a value may be
written together. An argument that looks like an option is never taken for a value.
-/

namespace FalconAccount.CommandLine

inductive UsageError where
  | noCommand
  | unknown (argument : String)
  | missing (option : String)
  | repeated (option : String)
  | missingValue (option : String)
  | unwantedValue (option : String)
  | invalidValue (option value : String)
  deriving DecidableEq, Repr

/-- Why reading stopped before the end of the arguments. -/
inductive Stop where
  | usage (cause : UsageError)
  /-- Help was asked for. -/
  | help
  /-- The version was asked for. -/
  | version
  deriving DecidableEq, Repr

/-- What an argument looks like. -/
inductive Word where
  /-- Two hyphens alone: no options follow. -/
  | separator
  | long (name : String) (value : Option String)
  | short (letters : List Char)
  | plain (text : String)
  deriving DecidableEq, Repr

/-- Reads the form of an argument. A hyphen alone is plain. -/
def Word.ofString (argument : String) : Word :=
  match argument.toList with
  | ['-', '-'] => .separator
  | '-' :: '-' :: cs =>
    let name := String.ofList (cs.takeWhile (· != '='))
    match cs.dropWhile (· != '=') with
    | [] => .long name none
    | _ :: value => .long name (some (String.ofList value))
  | '-' :: c :: cs => .short (c :: cs)
  | _ => .plain argument

variable {δ : Type}

/-- An option with a value, and what becomes of a draft when the value is given. -/
structure OptionRule (δ : Type) where
  name : String
  letter : Option Char
  store : String → δ → Except UsageError δ

def OptionRule.give (rule : OptionRule δ) (value : String) (draft : δ) : Except Stop δ :=
  (rule.store value draft).mapError .usage

/-- Reads a value for a field of a draft that must be empty so far. -/
def once {α : Type} (option : String) (field : Option α) (read : String → Option α) (value : String) :
    Except UsageError (Option α) :=
  match field, read value with
  | some _, _ => .error (.repeated option)
  | none, none => .error (.invalidValue option value)
  | none, some a => .ok (some a)

/-- Reads letters of short options up to one that needs the next argument as its value. -/
def readLetters (rules : List (OptionRule δ)) :
    List Char → δ → Except Stop (Option (OptionRule δ) × δ)
  | [], draft => .ok (none, draft)
  | c :: cs, draft =>
    if c = 'v' then readLetters rules cs draft
    else if c = 'h' then .error .help
    else
      match rules.find? (·.letter == some c) with
      | none => .error (.usage (.unknown (String.ofList ['-', c])))
      | some rule =>
        match cs with
        | [] => .ok (some rule, draft)
        | '=' :: value => do return (none, ← rule.give (String.ofList value) draft)
        | value => do return (none, ← rule.give (String.ofList value) draft)

/-- Reads a long option; without a value of its own it may need the next argument. -/
def readLong (rules : List (OptionRule δ)) (name : String) (value : Option String) (draft : δ) :
    Except Stop (Option (OptionRule δ) × δ) :=
  if name = "verbose" || name = "help" then
    match value with
    | some _ => .error (.usage (.unwantedValue name))
    | none => if name = "help" then .error .help else .ok (none, draft)
  else
    match rules.find? (·.name == name) with
    | none => .error (.usage (.unknown (String.join ["--", name])))
    | some rule =>
      match value with
      | none => .ok (some rule, draft)
      | some value => do return (none, ← rule.give value draft)

/-- Reads arguments into a draft. `waiting` is an option that still needs its value. -/
def readOptions (rules : List (OptionRule δ)) :
    (waiting : Option (OptionRule δ)) → List String → δ → Except Stop δ
  | none, [], draft => .ok draft
  | some rule, [], _ => .error (.usage (.missingValue rule.name))
  | some rule, argument :: rest, draft =>
    match Word.ofString argument with
    | .plain value => do readOptions rules none rest (← rule.give value draft)
    | _ => .error (.usage (.missingValue rule.name))
  | none, argument :: rest, draft =>
    match Word.ofString argument with
    | .plain text => .error (.usage (.unknown text))
    | .separator =>
      match rest with
      | [] => .ok draft
      | extra :: _ => .error (.usage (.unknown extra))
    | .long name value => do
      let (waiting, draft) ← readLong rules name value draft
      readOptions rules waiting rest draft
    | .short letters => do
      let (waiting, draft) ← readLetters rules letters draft
      readOptions rules waiting rest draft

end FalconAccount.CommandLine
