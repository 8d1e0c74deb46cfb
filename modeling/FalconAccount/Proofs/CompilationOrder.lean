import FalconAccount.CompiledSearch
import FalconAccount.Proofs.AccountSearch
import FalconAccount.Proofs.ControlSource
import FalconAccount.Proofs.Transcript

/-!
# The order in which programs are compiled

Whatever the compiler of a node does, a search has the sources of the counters compiled one after another,
from the first on and each once. It ends at the first counter for which the compiler fails or makes a
program whose address is off the curve, and it skips none.
-/

namespace FalconAccount

/-- The request to compile the source of the control program for a counter. -/
def compilation (key : PublicKey) (counter : UInt8) : Request := .node (.compile (controlSource key counter))

def compilations (key : PublicKey) (n : ℕ) : List Request :=
  ((List.range n).map UInt8.ofNat).map (compilation key)

/-- The compiler makes a program of the source for the counter, and the address of it is on the curve. -/
def IsPassed (compile : String → Except Fault Bytes) (key : PublicKey) (counter : UInt8) : Prop :=
  ∃ bytes, compile (controlSource key counter) = .ok bytes ∧ (Address.ofProgram bytes).isOnCurve = true

/-- The course of a search with a compiler: what is asked, and the outcome. -/
inductive SearchCourse (compile : String → Except Fault Bytes) (key : PublicKey) :
    List Request → Except ProtocolError Derivation → Prop
  /-- The compiler fails at a counter. -/
  | failed {counter : UInt8} {fault : Fault} (hpassed : ∀ earlier < counter, IsPassed compile key earlier)
    (h : compile (controlSource key counter) = .error fault) :
    SearchCourse compile key (compilations key (counter.toNat + 1)) (.error (.compileFailed counter fault))
  /-- The program that is made for a counter has an address off the curve. -/
  | found {d : Derivation} (hpassed : ∀ earlier < d.counter, IsPassed compile key earlier)
    (h : compile (controlSource key d.counter) = .ok d.program.bytes)
    (hoff : d.address.isOnCurve = false) :
    SearchCourse compile key (compilations key (d.counter.toNat + 1)) (.ok d)
  /-- All counters are passed. -/
  | exhausted (hpassed : ∀ counter, IsPassed compile key counter) :
    SearchCourse compile key (compilations key 256) (.error .derivationExhausted)

/-- The counter can be read off the program that is made of the source. -/
theorem controlSource_inj {key : PublicKey} {c d : UInt8} (h : controlSource key c = controlSource key d) :
    c = d := by
  have hbytes := congrArg Assembly.assemble h
  rw [Assembly.assemble_controlSource, Assembly.assemble_controlSource] at hbytes
  apply Option.some.inj
  rw [← ControlProgram.counter_ofKey key c, ← ControlProgram.counter_ofKey key d,
    Except.ok.inj hbytes]

theorem nodup_compilations (key : PublicKey) {n : ℕ} (hn : n ≤ 256) : (compilations key n).Nodup := by
  rw [compilations, List.map_map]
  apply List.Nodup.map_on _ List.nodup_range
  intro i hi j hj h
  have hij : UInt8.ofNat i = UInt8.ofNat j :=
    controlSource_inj (NodeCall.compile.inj (Request.node.inj h))
  rw [List.mem_range] at hi hj
  rw [← UInt8.toNat_ofNat_of_lt' (hi.trans_le hn), hij, UInt8.toNat_ofNat_of_lt' (hj.trans_le hn)]

theorem map_compilation_counters (key : PublicKey) :
    Derivation.counters.map (compilation key) = compilations key 256 := rfl

theorem compilations_succ (key : PublicKey) (counter : UInt8) :
    compilations key (counter.toNat + 1) =
      compilations key counter.toNat ++ [compilation key counter] := by
  rw [compilations, List.range_succ, List.map_append, List.map_append, List.map_singleton,
    UInt8.ofNat_toNat]
  rfl

theorem exists_counters_eq_append (counter : UInt8) :
    ∃ rest, Derivation.counters = (List.range counter.toNat).map UInt8.ofNat ++ counter :: rest := by
  obtain ⟨k, hk⟩ := Nat.exists_eq_add_of_lt counter.toNat_lt
  have hcounters : Derivation.counters = (List.range (counter.toNat + (k + 1))).map UInt8.ofNat :=
    congrArg (fun n => (List.range n).map UInt8.ofNat) hk
  rw [hcounters, List.range_add, List.range_succ_eq_map, List.map_append, List.map_cons, List.map_cons,
    Nat.add_zero, UInt8.ofNat_toNat]
  exact ⟨_, rfl⟩

/-- Either all counters have a property, or one is the first that does not have it. -/
theorem exists_first_stop (p : UInt8 → Prop) :
    (∀ counter, p counter) ∨ ∃ counter, ¬ p counter ∧ ∀ earlier < counter, p earlier := by
  classical
  cases hfind : Derivation.counters.find? fun counter => ! decide (p counter) with
  | none =>
    refine .inl fun counter => ?_
    simpa using List.find?_eq_none.mp hfind counter (Derivation.mem_counters counter)
  | some counter =>
    obtain ⟨hstop, hbefore⟩ := Derivation.find?_counters_eq_some_iff.mp hfind
    exact .inr ⟨counter, by simpa using hstop, by simpa using hbefore⟩

section Steps

variable {σ : Type} {answer : σ → (r : Request) → r.Reply × σ} {s s' : σ} {key : PublicKey}
  {counter : UInt8} {counters : List UInt8}

theorem transcript_compileProgram_of_ok {bytes : Bytes}
    (h : answer s (compilation key counter) = (.ok bytes, s')) :
    (compileProgram key counter).transcript answer s =
      ⟨.ok ⟨bytes⟩, [⟨compilation key counter, .ok bytes⟩], s'⟩ :=
  Protocol.transcript_bind_ok _ (Protocol.transcript_ask_ok _ h)

theorem transcript_compileProgram_of_error {fault : Fault}
    (h : answer s (compilation key counter) = (.error fault, s')) :
    (compileProgram key counter).transcript answer s =
      ⟨.error (.compileFailed counter fault), [⟨compilation key counter, .error fault⟩], s'⟩ :=
  Protocol.transcript_bind_error _ (Protocol.transcript_ask_error _ h)

theorem transcript_searchCompiledFrom_nil :
    (searchCompiledFrom key []).transcript answer s = ⟨.error .derivationExhausted, [], s⟩ := rfl

theorem transcript_searchCompiledFrom_of_failed {fault : Fault}
    (h : answer s (compilation key counter) = (.error fault, s')) :
    (searchCompiledFrom key (counter :: counters)).transcript answer s =
      ⟨.error (.compileFailed counter fault), [⟨compilation key counter, .error fault⟩], s'⟩ :=
  Protocol.transcript_bind_error _ (transcript_compileProgram_of_error h)

theorem transcript_searchCompiledFrom_of_found {d : Derivation}
    (h : answer s (compilation key d.counter) = (.ok d.program.bytes, s'))
    (hoff : d.address.isOnCurve = false) :
    (searchCompiledFrom key (d.counter :: counters)).transcript answer s =
      ⟨.ok d, [⟨compilation key d.counter, .ok d.program.bytes⟩], s'⟩ := by
  have hsafe := d.isQuantumSafe_eq_true_iff.mpr hoff
  rw [searchCompiledFrom, Protocol.transcript_bind_ok _ (transcript_compileProgram_of_ok h), if_pos hsafe]
  rfl

theorem transcript_searchCompiledFrom_of_passed {bytes : Bytes}
    (h : answer s (compilation key counter) = (.ok bytes, s'))
    (hon : (Address.ofProgram bytes).isOnCurve = true) :
    (searchCompiledFrom key (counter :: counters)).transcript answer s =
      ((searchCompiledFrom key counters).transcript answer s').after
        [⟨compilation key counter, .ok bytes⟩] := by
  have hsafe : ¬ (⟨counter, ⟨bytes⟩⟩ : Derivation).isQuantumSafe = true := by
    rw [Derivation.isQuantumSafe_eq_true_iff]
    exact fun hoff => absurd (hoff.symm.trans hon) (by decide)
  rw [searchCompiledFrom, Protocol.transcript_bind_ok _ (transcript_compileProgram_of_ok h), if_neg hsafe]

end Steps

section Runs

variable {σ : Type} {answer : σ → (r : Request) → r.Reply × σ} {compile : String → Except Fault Bytes}
  (hanswer : ∀ s source, (answer s (.node (.compile source))).1 = compile source) (s : σ)
  {key : PublicKey}
include hanswer

theorem answer_compilation {counter : UInt8} {reply : Except Fault Bytes}
    (h : compile (controlSource key counter) = reply) :
    answer s (compilation key counter) = (reply, (answer s (compilation key counter)).2) :=
  Prod.ext ((hanswer s _).trans h) rfl

theorem exists_transcript_of_passed {passed : List UInt8} (hpassed : ∀ c ∈ passed, IsPassed compile key c)
    (counters : List UInt8) :
    ∃ log s', log.map Sigma.fst = passed.map (compilation key) ∧
      (searchCompiledFrom key (passed ++ counters)).transcript answer s =
        ((searchCompiledFrom key counters).transcript answer s').after log := by
  induction passed generalizing s with
  | nil => exact ⟨[], s, rfl, rfl⟩
  | cons counter passed ih =>
    obtain ⟨⟨bytes, hbytes, hon⟩, hrest⟩ := List.forall_mem_cons.mp hpassed
    obtain ⟨log, s', hlog, htranscript⟩ := ih (answer s (compilation key counter)).2 hrest
    refine ⟨⟨compilation key counter, .ok bytes⟩ :: log, s', congrArg (_ :: ·) hlog, ?_⟩
    rw [List.cons_append,
      transcript_searchCompiledFrom_of_passed (answer_compilation hanswer s hbytes) hon, htranscript,
      Dialogue.Transcript.after_after]
    rfl

/-- Lower counters that are passed are asked for first, and the search goes on with the others. -/
theorem exists_transcript_of_before {counter : UInt8}
    (hbefore : ∀ earlier < counter, IsPassed compile key earlier) :
    ∃ log s' rest, log.map Sigma.fst = compilations key counter.toNat ∧
      (searchCompiled key).transcript answer s =
        ((searchCompiledFrom key (counter :: rest)).transcript answer s').after log := by
  obtain ⟨rest, hcounters⟩ := exists_counters_eq_append counter
  have hpassed : ∀ c ∈ (List.range counter.toNat).map UInt8.ofNat, IsPassed compile key c := by
    intro c hc
    obtain ⟨n, hn, rfl⟩ := List.mem_map.mp hc
    rw [List.mem_range] at hn
    apply hbefore
    rwa [UInt8.lt_iff_toNat_lt, UInt8.toNat_ofNat_of_lt' (hn.trans counter.toNat_lt)]
  obtain ⟨log, s', hlog, htranscript⟩ := exists_transcript_of_passed hanswer s hpassed (counter :: rest)
  rw [← hcounters] at htranscript
  exact ⟨log, s', rest, hlog, htranscript⟩

/-- A search takes the course that the compiler gives it. -/
theorem SearchCourse.transcript {calls : List Request} {result : Except ProtocolError Derivation}
    (h : SearchCourse compile key calls result) :
    ((searchCompiled key).transcript answer s).exchanges.map Sigma.fst = calls ∧
      ((searchCompiled key).transcript answer s).value = result := by
  cases h with
  | failed hbefore hfailed =>
    obtain ⟨log, s', rest, hlog, htranscript⟩ := exists_transcript_of_before hanswer s hbefore
    rw [htranscript, transcript_searchCompiledFrom_of_failed (answer_compilation hanswer s' hfailed)]
    refine ⟨?_, rfl⟩
    rw [compilations_succ, ← hlog]
    exact List.map_append
  | found hbefore hcompiled hoff =>
    obtain ⟨log, s', rest, hlog, htranscript⟩ := exists_transcript_of_before hanswer s hbefore
    rw [htranscript,
      transcript_searchCompiledFrom_of_found (answer_compilation hanswer s' hcompiled) hoff]
    refine ⟨?_, rfl⟩
    rw [compilations_succ, ← hlog]
    exact List.map_append
  | exhausted hall =>
    obtain ⟨log, s', hlog, htranscript⟩ :=
      exists_transcript_of_passed hanswer s (fun c (_ : c ∈ Derivation.counters) => hall c) []
    rw [List.append_nil] at htranscript
    rw [searchCompiled, htranscript, transcript_searchCompiledFrom_nil]
    refine ⟨?_, rfl⟩
    rw [Dialogue.Transcript.after, List.append_nil, hlog, map_compilation_counters]

end Runs

namespace SearchCourse

variable {compile : String → Except Fault Bytes} {key : PublicKey} {calls : List Request}
  {result : Except ProtocolError Derivation}

/-- Every compiler gives a search some course. -/
theorem exists_course (compile : String → Except Fault Bytes) (key : PublicKey) :
    ∃ calls result, SearchCourse compile key calls result := by
  obtain hall | ⟨counter, hstop, hbefore⟩ := exists_first_stop (IsPassed compile key)
  · exact ⟨_, _, .exhausted hall⟩
  · cases hcompiled : compile (controlSource key counter) with
    | error fault => exact ⟨_, _, .failed hbefore hcompiled⟩
    | ok bytes =>
      -- A variable for the account keeps its address from being computed.
      obtain ⟨d, rfl, rfl, haddress⟩ : ∃ d : Derivation, d.counter = counter ∧
          d.program.bytes = bytes ∧ d.address = Address.ofProgram bytes :=
        ⟨⟨counter, ⟨bytes⟩⟩, rfl, rfl, rfl⟩
      have hoff : d.address.isOnCurve = false :=
        Bool.eq_false_iff.mpr fun hon => hstop ⟨_, hcompiled, haddress ▸ hon⟩
      exact ⟨_, _, .found hbefore hcompiled hoff⟩

theorem nodup (h : SearchCourse compile key calls result) : calls.Nodup := by
  cases h with
  | @failed counter => exact nodup_compilations key (Nat.succ_le_of_lt counter.toNat_lt)
  | @found d => exact nodup_compilations key (Nat.succ_le_of_lt d.counter.toNat_lt)
  | exhausted => exact nodup_compilations key (Nat.le_refl 256)

theorem exhausted_iff (h : SearchCourse compile key calls result) :
    result = .error .derivationExhausted ↔ ∀ counter, IsPassed compile key counter := by
  constructor
  · rintro rfl
    cases h with
    | exhausted hall => exact hall
  · intro hall
    cases h with
    | @failed counter fault _ hfailed =>
      obtain ⟨bytes, hbytes, -⟩ := hall counter
      rw [hfailed] at hbytes
      cases hbytes
    | @found d _ hcompiled hoff =>
      obtain ⟨bytes, hbytes, hon⟩ := hall d.counter
      obtain rfl := Except.ok.inj (hcompiled.symm.trans hbytes)
      exact absurd (hoff.symm.trans hon) (by decide)
    | exhausted => rfl

end SearchCourse

/-- Whatever function of sources the compiler of a node is, a search with it asks for the programs of the
counters in order, each once and nothing else, up to the first counter for which the compiler fails or
makes a program whose address is off the curve. The failure or that account is the outcome, and the
counters are exhausted exactly if all of them are passed. -/
theorem searchCompiled_in_order {σ : Type} {node : Node σ} {compile : String → Except Fault Bytes}
    (hnode : ∀ s source, (node.answer s (.compile source)).1 = compile source) (key : PublicKey)
    (signer : Signer) (s : σ) :
    let run := (searchCompiled key).runBetween node signer Limits.none s
    (∀ calls result, run.asked.map Prod.snd = calls ∧ run.outcome = some result ↔
      SearchCourse compile key calls result) ∧
    (run.asked.map Prod.snd).Nodup ∧
    (run.outcome = some (.error .derivationExhausted) ↔ ∀ counter, IsPassed compile key counter) := by
  intro run
  obtain ⟨houtcome, hasked, -⟩ := Protocol.runBetween_none_transcript node signer (searchCompiled key) s
  have hanswer : ∀ s source, (node.answerWith signer s (.node (.compile source))).1 = compile source :=
    hnode
  have hruns {calls : List Request} {result : Except ProtocolError Derivation}
      (h : SearchCourse compile key calls result) :
      run.asked.map Prod.snd = calls ∧ run.outcome = some result := by
    obtain ⟨hcalls, hvalue⟩ := h.transcript hanswer s
    exact ⟨hasked.trans hcalls, houtcome.trans (congrArg some hvalue)⟩
  obtain ⟨calls, result, hcourse⟩ := SearchCourse.exists_course compile key
  obtain ⟨hcalls, hresult⟩ := hruns hcourse
  refine ⟨fun calls' result' => ⟨?_, hruns⟩, hcalls ▸ hcourse.nodup, ?_⟩
  · rintro ⟨rfl, hresult'⟩
    obtain rfl := Option.some.inj (hresult.symm.trans hresult')
    exact hcalls ▸ hcourse
  · rw [← hcourse.exhausted_iff, hresult, Option.some.injEq]

/-- A compiler that knows one source. The program that it makes has an address on the curve, so the next
source is asked for, and the search fails there. -/
theorem searchCompiled_in_order_failing :
    let fault : Fault := .plain "unknown source"
    let compile : String → Except Fault Bytes := fun source =>
      if source = controlSource onesKey 0 then .ok [4] else .error fault
    let node : Node Unit := .immediate fun s call =>
      match call with
      | .compile source => (compile source, s)
      | .params | .submit _ | .wait _ _ => (.error fault, s)
    let run := (searchCompiled onesKey).runBetween node Signer.absent Limits.none ()
    (∀ s source, (node.answer s (.compile source)).1 = compile source) ∧
      run.asked.map Prod.snd = compilations onesKey 2 ∧
      run.outcome = some (.error (.compileFailed 1 fault)) := by
  intro fault compile node run
  have hnode : ∀ s source, (node.answer s (.compile source)).1 = compile source := fun s source => rfl
  have hfirst : compile (controlSource onesKey 0) = .ok [4] := if_pos rfl
  have hfailed : compile (controlSource onesKey 1) = .error fault :=
    if_neg fun h => absurd (controlSource_inj h) (by decide)
  have hbefore : ∀ earlier < (1 : UInt8), IsPassed compile onesKey earlier := by
    intro earlier hlt
    obtain rfl : earlier = 0 := by
      rw [← UInt8.toNat_inj]
      exact Nat.lt_one_iff.mp (UInt8.lt_iff_toNat_lt.mp hlt)
    exact ⟨[4], hfirst, by decide +kernel⟩
  have hcourse : SearchCourse compile onesKey (compilations onesKey 2) (.error (.compileFailed 1 fault)) :=
    .failed hbefore hfailed
  have hruns := (searchCompiled_in_order hnode onesKey Signer.absent ()).1
  have hrun : (searchCompiled onesKey).runBetween node Signer.absent Limits.none () = run := rfl
  rw [hrun] at hruns
  exact ⟨hnode, (hruns _ _).mpr hcourse⟩

end FalconAccount
