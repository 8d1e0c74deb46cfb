import FalconAccount.Ledger.Simulator
import FalconAccount.Proofs.CompilationOrder

/-!
# The two searches agree

A ledger in memory compiles every source of a control program to the program that is put together from
the key directly. Searching with its compiler therefore finds the same account, and changes nothing.
-/

namespace FalconAccount

variable (key : PublicKey) (signer : Signer) (ledger : Ledger)

theorem Ledger.compile_controlSource (counter : UInt8) :
    Ledger.compile (controlSource key counter) = .ok (ControlProgram.ofKey key counter).bytes := by
  rw [Ledger.compile, Assembly.assemble_controlSource]
  rfl

theorem transcript_compileProgram (counter : UInt8) :
    (compileProgram key counter).transcript
        ((Node.immediate Ledger.answer).answerWith signer) ledger =
      ⟨.ok (ControlProgram.ofKey key counter),
        [⟨.node (.compile (controlSource key counter)), .ok (ControlProgram.ofKey key counter).bytes⟩],
        ledger⟩ := by
  have hanswer : (Node.immediate Ledger.answer).answerWith signer ledger
      (.node (.compile (controlSource key counter))) =
        (.ok (ControlProgram.ofKey key counter).bytes, ledger) :=
    Prod.ext (Ledger.compile_controlSource key counter) rfl
  exact transcript_compileProgram_of_ok hanswer

/-- One counter: its account if that is off the curve, and the search among the others if not. -/
theorem transcript_searchCompiledFrom_cons (counter : UInt8) (counters : List UInt8) :
    (searchCompiledFrom key (counter :: counters)).transcript
        ((Node.immediate Ledger.answer).answerWith signer) ledger =
      ((if (Derivation.candidate key counter).isQuantumSafe then
          pure (Derivation.candidate key counter)
        else searchCompiledFrom key counters).transcript
          ((Node.immediate Ledger.answer).answerWith signer) ledger).after
        [⟨.node (.compile (controlSource key counter)),
          .ok (ControlProgram.ofKey key counter).bytes⟩] :=
  Protocol.transcript_bind_ok _ (transcript_compileProgram key signer ledger counter)

/-- Counters are tried in turn, and the first account off the curve is the one found. -/
theorem transcript_searchCompiledFrom (counters : List UInt8) :
    ((searchCompiledFrom key counters).transcript
        ((Node.immediate Ledger.answer).answerWith signer) ledger).value =
      Derivation.searchFrom key counters ∧
    ((searchCompiledFrom key counters).transcript
        ((Node.immediate Ledger.answer).answerWith signer) ledger).state = ledger := by
  induction counters with
  | nil => exact ⟨rfl, rfl⟩
  | cons counter counters ih =>
    rw [transcript_searchCompiledFrom_cons, Derivation.searchFrom]
    by_cases hsafe : (Derivation.candidate key counter).isQuantumSafe = true
    · rw [if_pos hsafe, if_pos hsafe]
      exact ⟨rfl, rfl⟩
    · rw [if_neg hsafe, if_neg hsafe]
      exact ih

/-- The source of a control program assembles, byte for byte, to the program made from the key. So the
search with the compiler of a ledger, whatever has happened on it, ends as the search without one. -/
theorem searchCompiled_outcome :
    (∀ counter, Assembly.assemble (controlSource key counter) =
        .ok (ControlProgram.ofKey key counter).bytes) ∧
      ∀ (signer : Signer) (ledger : Ledger),
        let run := (searchCompiled key).runBetween (Node.immediate Ledger.answer) signer
          Limits.none ledger
        run.outcome = some (Derivation.search key) ∧ run.state = ledger := by
  refine ⟨Assembly.assemble_controlSource key, fun signer ledger => ?_⟩
  obtain ⟨hvalue, hkept⟩ := transcript_searchCompiledFrom key signer ledger Derivation.counters
  obtain ⟨houtcome, -, hstate⟩ := Protocol.runBetween_none_transcript
    (Node.immediate Ledger.answer) signer (searchCompiled key) ledger
  exact ⟨houtcome.trans (congrArg some hvalue), hstate.trans hkept⟩

end FalconAccount
