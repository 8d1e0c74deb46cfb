import FalconAccount.CommandLine.Program
import FalconAccount.Proofs.AnsweredDialogues
import FalconAccount.Proofs.RoundNode

/-!
# What a payment does

A question to the node is one request or several, and most of these only fetch something. A body is sent
to the node by a submission and by a compilation, and by nothing else; and only a signature runs a
program.
-/

namespace FalconAccount

namespace NodeClient

variable {α : Type} (endpoint : Endpoint)

def postRequest (path contentType : String) (body : Bytes) : Http.Request where
  method := .post
  url := endpoint.url ++ path
  token := if endpoint.token.isEmpty then none else some endpoint.token
  contentType := some contentType
  body := body

def submission (group : Bytes) : Http.Request :=
  postRequest endpoint "/v2/transactions" "application/x-binary" group

def IsFetch (request : Http.Request) : Prop := request.method = .get

theorem asksOnly_get (path : String) (read : Json.Value → Option α) :
    Dialogue.AsksOnly IsFetch (get endpoint path read) := by
  rw [get, call]
  split
  · exact .ask rfl fun _ => .done _
  · exact .done _

theorem asksOnly_params : Dialogue.AsksOnly IsFetch (answer endpoint .params) :=
  ((asksOnly_get endpoint _ _).bind fun _ => .done _).bind fun _ => .done _

theorem asksOnly_follow (id : String) (rounds : ℕ) (current : UInt64) :
    Dialogue.AsksOnly IsFetch (follow endpoint id rounds current) := by
  induction rounds generalizing current with
  | zero => exact .done _
  | succ rounds ih =>
    rw [follow]
    refine (asksOnly_get endpoint _ _).bind fun looked => ?_
    split
    · exact .done _
    · refine (asksOnly_get endpoint _ _).bind fun block => ?_
      split
      · exact .done _
      · exact ih _

theorem asksOnly_wait (id : String) (maxRounds : UInt64) :
    Dialogue.AsksOnly IsFetch (answer endpoint (.wait id maxRounds)) := by
  refine .bind ?_ fun _ => .done _
  refine (asksOnly_get endpoint _ _).bind fun status => ?_
  split
  · exact .done _
  · exact asksOnly_follow endpoint id _ _

end NodeClient

namespace CommandLine

open NodeClient

/-- The question, if it does more than fetch something. -/
def Effect.deed? : Effect → Option Effect
  | .read _ => none
  | .http request => if request.method = .get then none else some (.http request)
  | e => some e

/-- What is done for a question of a payment: a signature is a run of the signing program, and two of the
questions to the node send a body. None of these is sent if no request can carry the token. -/
def deeds (endpoint : Endpoint) (signer keyFile : String) : Request → List Effect
  | .sign message => [.runTool (SigningTool.call signer keyFile message)]
  | .node (.submit group) =>
    if Http.isHeaderValue endpoint.token then [.http (submission endpoint group)] else []
  | .node (.compile source) =>
    if Http.isHeaderValue endpoint.token then
      [.http (postRequest endpoint "/v2/teal/compile" "text/plain" (Bytes.ofString source))]
    else []
  | _ => []

variable {σ : Type} (answer : σ → (e : Effect) → e.Reply × σ) (delay : σ → Effect → Nat)
  (endpoint : Endpoint) (signer keyFile : String)

section Outside

theorem filterMap_deed?_of_asksOnly {α : Type} {x : Web α} (h : Dialogue.AsksOnly IsFetch x) (s : σ) :
    ((x.answerBy fun request => (.perform (.http request) : Action _)).transcript answer
      s).exchanges.filterMap (·.1.deed?) = [] := by
  have hnone : Dialogue.AsksOnly (fun e : Effect => e.deed? = none)
      (x.answerBy fun request => (.perform (.http request) : Action _)) := by
    refine h.answerBy fun request hfetch => .ask ?_ fun _ => .done _
    exact if_pos hfetch
  exact List.filterMap_eq_nil_iff.mpr fun e he => hnone.of_mem_exchanges he

theorem filterMap_deed?_post {α β : Type} (path contentType : String) (body : Bytes)
    (read : Json.Value → Option α) (f : Except NodeError α → β) (s : σ) :
    ((((post endpoint path contentType body read).bind fun reply => .done (f reply)).answerBy
      fun request => (.perform (.http request) : Action _)).transcript answer
        s).exchanges.filterMap (·.1.deed?) =
      if Http.isHeaderValue endpoint.token then [.http (postRequest endpoint path contentType body)]
      else [] := by
  rw [post, call]
  split <;> rfl

theorem filterMap_deed?_outside (r : Request) (s : σ) :
    ((outside endpoint signer keyFile r).transcript answer s).exchanges.filterMap (·.1.deed?) =
      deeds endpoint signer keyFile r := by
  cases r with
  | sign message => rfl
  | node call =>
    cases call with
    | params => exact filterMap_deed?_of_asksOnly answer (asksOnly_params endpoint) s
    | wait id maxRounds =>
      exact filterMap_deed?_of_asksOnly answer (asksOnly_wait endpoint id maxRounds) s
    | submit group =>
      exact filterMap_deed?_post answer endpoint _ _ group _ (·.mapError NodeError.toFault) s
    | compile source =>
      change ((((compile endpoint source).bind _).answerBy _).transcript answer s).exchanges.filterMap _ = _
      rw [compile]
      change (((((post _ _ _ _ _).bind _).bind _).answerBy _).transcript answer s).exchanges.filterMap _ = _
      rw [Dialogue.bind_assoc]
      exact filterMap_deed?_post answer endpoint _ _ _ _ _ s

end Outside

/-- What answers the questions of a payment: the node over HTTP, and the signing program. -/
def partner (s : σ) : (r : Request) → r.Reply × σ
  | .node call => (NodeClient.answer endpoint call).run (fun s request => answer s (.http request)) s
  | .sign message =>
    let (result, s) := answer s (.runTool (SigningTool.call signer keyFile message))
    (SigningTool.signature signer result, s)

def partnerDelay (s : σ) : Request → Nat
  | .node call =>
    (NodeClient.answer endpoint call).duration (fun s request => answer s (.http request))
      (fun s request => delay s (.http request)) s
  | .sign message => delay s (.runTool (SigningTool.call signer keyFile message))

theorem run_outside :
    (fun s r => (outside endpoint signer keyFile r).run answer s) =
      partner answer endpoint signer keyFile := by
  funext s r
  cases r with
  | node call => exact Dialogue.run_answerBy _ answer (NodeClient.answer endpoint call) s
  | sign message => rfl

theorem duration_outside :
    (fun s r => (outside endpoint signer keyFile r).duration answer delay s) =
      partnerDelay answer delay endpoint signer keyFile := by
  funext s r
  cases r with
  | node call =>
    exact Dialogue.duration_answerBy _ answer delay (NodeClient.answer endpoint call) s
  | sign message => rfl

/-- A session that is not cut off ends with the value of its transcript with the partner, and what it does
is what the questions in that come to. -/
theorem runTimed_answerBy_outside {α : Type} (x : Session α) {limit : Option ℕ} {s : σ}
    {result : α} (houtcome : ((x.answerBy (outside endpoint signer keyFile)).runTimed answer delay
      limit 0 s).outcome = some result) :
    result = (x.transcript (partner answer endpoint signer keyFile) s).value ∧
      ((x.answerBy (outside endpoint signer keyFile)).runTimed answer delay
          limit 0 s).asked.filterMap (·.2.deed?) =
        (x.transcript (partner answer endpoint signer keyFile) s).exchanges.flatMap
          (deeds endpoint signer keyFile ·.1) := by
  obtain ⟨hvalue, hasked⟩ := Dialogue.runTimed_transcript answer delay limit 0 _ s houtcome
  constructor
  · rw [hvalue, Dialogue.transcript_value, Dialogue.run_answerBy, run_outside,
      Dialogue.transcript_value]
  · have hdeeds := Dialogue.filterMap_exchanges_answerBy (outside endpoint signer keyFile) answer
      Effect.deed? (deeds endpoint signer keyFile)
      (filterMap_deed?_outside answer endpoint signer keyFile) x s
    rw [run_outside] at hdeeds
    have hmap := congrArg (List.filterMap Effect.deed?) hasked
    rw [List.filterMap_map, List.filterMap_map] at hmap
    exact hmap.trans hdeeds

end CommandLine

end FalconAccount
