/-!
# Dialogues

A dialogue is a computation that asks questions and goes on with the answers. What may be asked is a
type of questions, and each question has a type of answers. A dialogue is data: it can be run against
any state that answers, with or without a limit on the time that answering takes, and its questions can
be answered by dialogues of another kind.
-/

namespace FalconAccount

/-- A computation that asks questions from `Q`, answered in `A`, and ends with a value. -/
inductive Dialogue (Q : Type) (A : Q → Type) (α : Type) : Type where
  | done (value : α)
  | ask (question : Q) (next : A question → Dialogue Q A α)

namespace Dialogue

variable {Q R σ : Type} {A : Q → Type} {B : R → Type} {α β : Type}

def bind : Dialogue Q A α → (α → Dialogue Q A β) → Dialogue Q A β
  | .done a, f => f a
  | .ask q next, f => .ask q fun answer => (next answer).bind f

instance : Monad (Dialogue Q A) where
  pure := .done
  bind := bind

def perform (q : Q) : Dialogue Q A (A q) := .ask q .done

/-- Answers every question by a dialogue of another kind. -/
def answerBy (answer : (q : Q) → Dialogue R B (A q)) : Dialogue Q A α → Dialogue R B α
  | .done a => .done a
  | .ask q next => (answer q).bind fun reply => (next reply).answerBy answer

/-- Runs against a state that answers and changes. -/
def run (answer : σ → (q : Q) → A q × σ) : Dialogue Q A α → σ → α × σ
  | .done a, s => (a, s)
  | .ask q next, s =>
    let (reply, s) := answer s q
    (next reply).run answer s

/-- What is seen of a run: the value at the end, the questions with their answers, the last state. -/
structure Transcript (Q : Type) (A : Q → Type) (σ α : Type) where
  value : α
  exchanges : List ((q : Q) × A q)
  state : σ

/-- The transcript with exchanges that came before it. -/
def Transcript.after (earlier : List ((q : Q) × A q)) (t : Transcript Q A σ α) :
    Transcript Q A σ α :=
  { t with exchanges := earlier ++ t.exchanges }

def transcript (answer : σ → (q : Q) → A q × σ) : Dialogue Q A α → σ → Transcript Q A σ α
  | .done a, s => ⟨a, [], s⟩
  | .ask q next, s =>
    ((next (answer s q).1).transcript answer (answer s q).2).after [⟨q, (answer s q).1⟩]

def runIn {m : Type → Type} [Monad m] (answer : (q : Q) → m (A q)) : Dialogue Q A α → m α
  | .done a => pure a
  | .ask q next => do (next (← answer q)).runIn answer

/-- A run that takes time: the value at the end, or `none` if a limit cut the run off; the questions
with the times at which they were asked; and the last state. -/
structure Timed (Q σ α : Type) where
  outcome : Option α
  asked : List (Nat × Q)
  state : σ

/-- Runs from the time `now` on against a state whose answers take time. A question whose answer would
come after the limit is asked, and then everything stops. -/
def runTimed (answer : σ → (q : Q) → A q × σ) (delay : σ → Q → Nat) (limit : Option Nat) :
    (now : Nat) → Dialogue Q A α → σ → Timed Q σ α
  | _, .done a, s => ⟨some a, [], s⟩
  | now, .ask q next, s =>
    let later := now + delay s q
    if limit.all (later ≤ ·) then
      let (reply, s) := answer s q
      let rest := runTimed answer delay limit later (next reply) s
      { rest with asked := (now, q) :: rest.asked }
    else ⟨none, [(now, q)], s⟩

@[simp] theorem bind_done (a : α) (f : α → Dialogue Q A β) : (done a).bind f = f a := rfl

@[simp] theorem bind_ask (q : Q) (next : A q → Dialogue Q A α) (f : α → Dialogue Q A β) :
    (ask q next).bind f = ask q fun answer => (next answer).bind f := rfl

theorem bind_assoc {γ : Type} (x : Dialogue Q A α) (f : α → Dialogue Q A β)
    (g : β → Dialogue Q A γ) : (x.bind f).bind g = x.bind fun a => (f a).bind g := by
  induction x with
  | done a => rfl
  | ask q next ih => simp [ih]

/-- Running one dialogue after another passes the state on. -/
theorem run_bind (answer : σ → (q : Q) → A q × σ) (x : Dialogue Q A α) (f : α → Dialogue Q A β)
    (s : σ) : (x.bind f).run answer s = (f (x.run answer s).1).run answer (x.run answer s).2 := by
  induction x generalizing s with
  | done a => rfl
  | ask q next ih => exact ih _ _

/-- Answering by dialogues and running those is running with their answers. -/
theorem run_answerBy (answer : (q : Q) → Dialogue R B (A q)) (respond : σ → (r : R) → B r × σ)
    (x : Dialogue Q A α) (s : σ) :
    (x.answerBy answer).run respond s = x.run (fun s q => (answer q).run respond s) s := by
  induction x generalizing s with
  | done a => rfl
  | ask q next ih =>
    rw [answerBy, run_bind, ih]
    rfl

/-- A run without a limit ends with the value and the state of a run that takes no time. -/
theorem runTimed_none (answer : σ → (q : Q) → A q × σ) (delay : σ → Q → Nat) (now : Nat)
    (x : Dialogue Q A α) (s : σ) :
    (x.runTimed answer delay none now s).outcome = some (x.run answer s).1 ∧
      (x.runTimed answer delay none now s).state = (x.run answer s).2 := by
  induction x generalizing now s with
  | done a => exact ⟨rfl, rfl⟩
  | ask q next ih => exact ih _ _ _

end Dialogue

end FalconAccount
