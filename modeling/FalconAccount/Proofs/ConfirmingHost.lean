import FalconAccount.Proofs.AddressText
import FalconAccount.Proofs.CommandStages
import FalconAccount.Proofs.FileSystemLaws
import FalconAccount.Proofs.HexText
import FalconAccount.Proofs.KeyTexts
import FalconAccount.Proofs.RoundServer

/-!
# Hosts that confirm a payment

Every question of a payment becomes requests over HTTP or a run of the signing program. If the replies and
the output of the program can be read, the question is answered with what they say; so a payment is
confirmed at a host where nothing fails.
-/

namespace FalconAccount

namespace NodeClient

variable {σ : Type} {answer : σ → Http.Request → Http.Reply × σ} {endpoint : Endpoint} {s s₁ s₂ : σ}

theorem run_answer_params {reply : Http.Reply} {params : SuggestedParams}
    (htoken : Http.isHeaderValue endpoint.token = true)
    (h : answer s (getRequest endpoint "/v2/transactions/params") = (reply, s₁))
    (hread : (interpret readParams reply).bind ParamsReply.toParams = .ok params) :
    (NodeClient.answer endpoint .params).run answer s = (.ok params, s₁) := by
  obtain ⟨told, htold, hparams⟩ := bind_eq_ok_iff.mp hread
  rw [NodeClient.answer, NodeClient.params]
  change (Dialogue.bind (Dialogue.bind _ _) _).run answer s = _
  rw [Dialogue.run_bind, Dialogue.run_bind, run_get htoken h htold]
  change (told.toParams.mapError NodeError.toFault, s₁) = _
  rw [hparams]
  rfl

theorem run_answer_submit {group : Bytes} {reply : Http.Reply} {reported : String}
    (htoken : Http.isHeaderValue endpoint.token = true)
    (h : answer s (submission endpoint group) = (reply, s₁))
    (hread : interpret (readText "txId") reply = .ok reported) :
    (NodeClient.answer endpoint (.submit group)).run answer s = (.ok reported, s₁) := by
  rw [NodeClient.answer, submit, post, call, if_pos htoken]
  change ((interpret (readText "txId") (answer s (submission endpoint group)).1).mapError
    NodeError.toFault, (answer s (submission endpoint group)).2) = _
  rw [h, hread]
  rfl

theorem run_answer_wait {id : String} {maxRounds last round : UInt64} {first second : Http.Reply}
    (htoken : Http.isHeaderValue endpoint.token = true) (hpos : 0 < maxRounds)
    (hfit : last.toNat + maxRounds.toNat + 1 < UInt64.size)
    (hstatus : answer s (getRequest endpoint statusPath) = (first, s₁))
    (hlast : interpret readRound first = .ok last)
    (hlook : answer s₁ (getRequest endpoint (pendingPath id)) = (second, s₂))
    (hround : interpret readPending second = .ok ⟨some round, ""⟩) (hcommit : 0 < round) :
    (NodeClient.answer endpoint (.wait id maxRounds)).run answer s = (.ok (.confirmed round), s₂) := by
  obtain ⟨k, hk⟩ := Nat.exists_eq_succ_of_ne_zero (UInt64.lt_iff_toNat_lt.mp hpos).ne'
  have hdecision : (Except.ok ⟨some round, ""⟩ : Except NodeError Pending).toOption.bind
      Pending.decision? = some (.confirmed round) := by
    simp [Except.toOption, Pending.decision?, Option.filter, hcommit]
  rw [NodeClient.answer]
  change (Dialogue.bind _ _).run answer s = _
  rw [Dialogue.run_bind, run_wait_of_fit hfit (run_get htoken hstatus hlast), hk,
    run_follow_of_decision k _ (run_get htoken hlook hround) hdecision]
  rfl

end NodeClient

/-- A program starts that is found, if nothing in the call holds a NUL and no argument is too long. -/
theorem FileSystem.start_of_program {fs : FileSystem} {path : String} {place arguments : List String}
    (hprogram : fs.program path = .ok place) (hpath : holdsNul path = false)
    (harguments : ∀ a ∈ arguments, holdsNul a = false ∧ a.utf8ByteSize ≤ maxArgumentSize) :
    fs.start path arguments = .ok place := by
  have hnul : (path :: arguments).any holdsNul = false := by
    rw [List.any_cons, hpath, Bool.false_or, List.any_eq_false]
    exact fun a ha => Bool.not_eq_true _ ▸ (harguments a ha).1
  have hsize : arguments.any (maxArgumentSize < ·.utf8ByteSize) = false := by
    rw [List.any_eq_false]
    exact fun a ha => by simpa using (harguments a ha).2
  rw [start, hnul, hprogram]
  change (if _ then _ else _ : Except OsError (List String)) = _
  rw [hsize]
  rfl

theorem Bytes.length_ofString (text : String) : (ofString text).length = text.utf8ByteSize := by
  rw [← String.size_toByteArray, ← String.utf8Encode_toList, List.utf8Encode]
  simp [ofString, ofChars]

namespace SigningTool

variable {fs : FileSystem} {program keyFile : String} {place : List String} {message : Bytes}

theorem fits_encode (h : 2 * message.length ≤ maxArgumentSize) :
    holdsNul (Hex.encode message) = false ∧
      (Hex.encode message).utf8ByteSize ≤ maxArgumentSize := by
  constructor
  · rw [holdsNul, Hex.encode, String.toList_ofList, List.contains_eq_mem, decide_eq_false_iff_not]
    exact Hex.notMem_chars (by decide) message
  · rw [← Bytes.length_ofString, Bytes.ofString, Hex.encode, String.toList_ofList,
      Hex.length_ofChars_chars]
    exact h

theorem start_call (hprogram : fs.program program = .ok place) (hnul : holdsNul program = false)
    (hkeyFile : holdsNul keyFile = false ∧ keyFile.utf8ByteSize ≤ maxArgumentSize)
    (hmessage : 2 * message.length ≤ maxArgumentSize) :
    fs.start program (call program keyFile message).arguments = .ok place := by
  refine FileSystem.start_of_program hprogram hnul ?_
  simp only [call, List.forall_mem_cons]
  exact ⟨by decide, by decide, hkeyFile, by decide, fits_encode hmessage, by decide, by simp⟩

end SigningTool

namespace CommandLine

open NodeClient

section Partner

variable {σ : Type} {answer : σ → (e : Effect) → e.Reply × σ} {s s' : σ} {endpoint : Endpoint}
  {signer keyFile : String}

theorem partner_sign {message signature : Bytes} {result : ToolResult}
    (hanswer : answer s (.runTool (SigningTool.call signer keyFile message)) = (.ok result, s'))
    (hending : result.ending = .exit 0) (hread : SigningTool.readOutput result.output = .ok signature) :
    partner answer endpoint signer keyFile s (.sign message) = (.ok signature, s') := by
  have hsignature : SigningTool.signature signer (.ok result) = .ok signature := by
    rw [SigningTool.signature, if_pos hending, hread]
  rw [partner, hanswer]
  exact Prod.ext hsignature rfl

theorem Host.answer_runTool {τ : Type} {h : Host τ} {fs : FileSystem} {t t' : τ} {call : ToolCall}
    {place : List String} {result : ToolResult}
    (hstart : fs.start call.program call.arguments = .ok place)
    (hresult : h.result t place call.arguments = (result, t')) :
    h.answer (fs, t) (.runTool call) = (.ok result, (fs, t')) := by
  unfold Host.answer
  simp only [hstart, hresult]

variable {p : Payment} {ready : PreparedPayment}

/-- Without a deadline, a payment ends as the course says whose questions are answered. -/
theorem outcome_sending_of_course (delay : σ → Effect → ℕ) (htimeout : p.timeout = none)
    {log : List Exchange} {result : Except Failure TxId}
    (hcourse : Course ready.key ready.receiver p.amount p.options log result)
    (hlog : Dialogue.Answered (partner answer ready.endpoint p.signer p.keyFile) s log s') :
    (sending answer delay s p ready).outcome = some result := by
  have hdeadline : p.options.deadline = none := by rw [Payment.options, htimeout, Option.map_none]
  rw [sending, hdeadline]
  exact Protocol.outcome_runWithin_of_transcript _ (hcourse.transcript_send hlog)

end Partner

/-- A host that gives its replies one after another, and whose programs print one byte. -/
def scripted (replies : ℕ → Http.Reply) : Host ℕ where
  reply n _ := (replies n, n + 1)
  result n _ _ := (⟨.exit 0, Bytes.ofString "01", []⟩, n)
  replyDelay _ _ := 0
  resultDelay _ _ := 0

/-- The replies of a node in its first round that confirms a payment in the second one. -/
def confirmingReplies : ℕ → Http.Reply
  | 0 => .answered 200 (some (Bytes.ofString ("\x7b\"fee\":0,\"min-fee\":1000,\"last-round\":1," ++
      "\"genesis-id\":\"mainnet-v1.0\"," ++
      "\"genesis-hash\":\"AAAAAAAAAAAAAAAAAAAAAAAAAAAAAAAAAAAAAAAAAAA=\"\x7d")))
  | 1 => .answered 200 (some (Bytes.ofString "\x7b\"txId\":\"TXID\"\x7d"))
  | 2 => .answered 200 (some (RoundServer.roundBody 1))
  | _ => .answered 200 (some (RoundServer.pendingBody 2))

def confirmingParams : SuggestedParams := .ofLastRound 1 0 1000 "mainnet-v1.0" Digest.zero

theorem interpret_confirmingReplies :
    (NodeClient.interpret NodeClient.readParams (confirmingReplies 0)).bind
        NodeClient.ParamsReply.toParams = .ok confirmingParams ∧
      NodeClient.interpret (NodeClient.readText "txId") (confirmingReplies 1) = .ok "TXID" := by
  constructor
  · decide +kernel
  · decide +kernel

/-- A directory with a key file and an older file, and the signing program where programs are looked for. -/
def workplace (keys : Bytes) : FileSystem where
  entries := [(["w"], .directory), (["w", "k.json"], .file 0), (["w", "a.txt"], .file 1),
    (["bin"], .directory), (["bin", "falcon"], .file 2)]
  files
    | 0 => ⟨keys, false⟩
    | 1 => ⟨[0x2d], false⟩
    | _ => ⟨[], true⟩
  home := "w"
  programPaths := ["/bin"]

section Workplace

variable (keys : Bytes)

theorem fileAt_workplace :
    (workplace keys).fileAt "k.json" = .ok (["w", "k.json"], 0) ∧
      (workplace keys).fileAt "a.txt" = .ok (["w", "a.txt"], 1) := by
  change (workplace []).fileAt _ = _ ∧ (workplace []).fileAt _ = _
  decide +kernel

theorem read_workplace (replies : ℕ → Http.Reply) (n : ℕ) :
    (scripted replies).answer (workplace keys, n) (.read "k.json") = (.ok keys, (workplace keys, n)) := by
  rw [Host.answer, FileSystem.read, (fileAt_workplace keys).1]
  rfl

theorem file?_workplace (n : ℕ) :
    (Host.view ℕ).file? (workplace keys, n) "k.json" = some 0 ∧
      (Host.view ℕ).file? (workplace keys, n) "a.txt" = some 1 :=
  ⟨Host.file?_eq_some_iff.mpr ⟨_, (fileAt_workplace keys).1⟩,
    Host.file?_eq_some_iff.mpr ⟨_, (fileAt_workplace keys).2⟩⟩

theorem held?_workplace (n : ℕ) : (Host.view ℕ).held? (workplace keys, n) "k.json" = some keys :=
  Option.map_eq_some_iff.mpr ⟨0, (file?_workplace keys n).1, rfl⟩

theorem program_workplace : (workplace keys).program defaultSigner = .ok ["bin", "falcon"] := by
  have hplace : (workplace keys).resolve "/bin/falcon" = .ok (.file ["bin", "falcon"] 2) := by
    change (workplace []).resolve "/bin/falcon" = _
    decide +kernel
  have hpath : String.join ["/bin", "/", defaultSigner] = "/bin/falcon" := by decide +kernel
  change (workplace keys).findProgram defaultSigner false ["/bin"] = _
  rw [FileSystem.findProgram, hpath, FileSystem.programAt, hplace]
  rfl

/-- A new address takes the place of the older file. -/
theorem exists_replaces_workplace (replies : ℕ → Http.Reply) (content : Bytes) :
    ∃ temporary fs, Replaces (scripted replies).answer "a.txt" content temporary
      (workplace keys, 0) (fs, 0) := by
  have hparent : parentPath "a.txt" = "." := by decide +kernel
  have hslot : (workplace keys).Slot "a.txt" ["w"] "a.txt" := by
    refine .of_lastIn ?_ (by decide) (by decide)
    change (workplace []).lastIn "a.txt" = _
    decide +kernel
  have htemporary : (workplace keys).Slot ((workplace keys).absolutePath
      (String.join [".", "/", FileSystem.temporaryName 0])) ["w"] ".tmp100000" := by
    refine .of_lastIn ?_ (by decide) (by decide)
    change (workplace []).lastIn ((workplace []).absolutePath _) = _
    decide +kernel
  have hnew : (workplace keys).entryAt (["w"] ++ [".tmp100000"]) = none := by
    change (workplace []).entryAt _ = _
    decide +kernel
  have hcreate := htemporary.createTemporary_eq hnew
  rw [← hparent] at hcreate
  refine ⟨_, Host.exists_replaces (scripted replies) 0 content hcreate hslot ?_⟩
  change (workplace []).entryAt _ ≠ _
  decide +kernel

theorem partner_scripted_params {endpoint : Endpoint} (signer keyFile : String)
    (htoken : Http.isHeaderValue endpoint.token = true) (fs : FileSystem) :
    partner (scripted confirmingReplies).answer endpoint signer keyFile (fs, 0) (.node .params) =
      (.ok confirmingParams, (fs, 1)) :=
  run_answer_params htoken rfl interpret_confirmingReplies.1

/-- A scripted host answers every question of a payment that is signed in the work place. -/
theorem answered_scripted (endpoint : Endpoint) (account : Derivation)
    (g : TransactionGroup) (htoken : Http.isHeaderValue endpoint.token = true) :
    Dialogue.Answered (partner (scripted confirmingReplies).answer endpoint defaultSigner "k.json")
      (workplace keys, 0)
      (submittedLog account confirmingParams g [1] "TXID" ++
        [⟨.node (.wait g.payment.id.text 10), .ok (.confirmed 2)⟩]) (workplace keys, 4) := by
  let host := partner (scripted confirmingReplies).answer endpoint defaultSigner "k.json"
  have hstart : (workplace keys).start defaultSigner
      (SigningTool.call defaultSigner "k.json" g.payment.id.digest.toList).arguments =
        .ok ["bin", "falcon"] :=
    SigningTool.start_call (program_workplace keys) (by decide) (by decide) (by simp [maxArgumentSize])
  have hread : SigningTool.readOutput (Bytes.ofString "01") = .ok [1] := by decide +kernel
  have hsign : host (workplace keys, 1) (.sign g.payment.id.digest.toList) =
      (.ok [1], (workplace keys, 1)) :=
    partner_sign (Host.answer_runTool hstart rfl) rfl hread
  have hsubmit : host (workplace keys, 1) (.node (.submit (signedBytes account g [1]))) =
      (.ok "TXID", (workplace keys, 2)) :=
    run_answer_submit htoken rfl interpret_confirmingReplies.2
  have hwait : host (workplace keys, 2) (.node (.wait g.payment.id.text 10)) =
      (.ok (.confirmed 2), (workplace keys, 4)) :=
    run_answer_wait htoken (by decide) (by decide) rfl
      (RoundServer.interpret_roundBody 1) rfl (RoundServer.interpret_pendingBody 2) (by decide)
  exact .cons (partner_scripted_params _ _ htoken _)
    (.cons hsign (.cons hsubmit (.cons hwait (.nil _))))

end Workplace

def onesPrivateKey : PrivateKey := ⟨.replicate privateKeySize 1⟩

def onesKeys : Bytes :=
  Bytes.ofString (KeyFile.fileOf (Hex.encode onesKey.toList) (Hex.encode onesPrivateKey.toList))

def onesPayment : Payment where
  keyFile := "k.json"
  receiver := Address.zero.text
  amount := 5
  fee := none
  note := none
  network := .mainNet
  nodeUrl := some "http://localhost"
  nodeToken := none
  signer := defaultSigner
  maxRounds := 10
  fillerCount := 3
  timeout := none

theorem load_onesKeys (path : String) :
    KeyFile.load path (.ok onesKeys) = .ok ⟨some onesKey, some onesPrivateKey⟩ :=
  KeyFile.load_encode path onesKey onesPrivateKey

def onesPrepared : PreparedPayment := ⟨onesKey, Address.zero, ⟨"http://localhost", ""⟩⟩

theorem ready_onesPayment : onesPayment.Ready (.ok onesKeys) onesPrepared where
  keys := ⟨onesPrivateKey, load_onesKeys _⟩
  receiver := Address.parse_text _
  endpoint := by decide +kernel

end CommandLine

end FalconAccount
