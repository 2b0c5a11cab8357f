import GridProof.Lib.Script
import GridProof.Pipeline.Domain

/-!
# The two agents

The calls of the worker to the model: a request, its reply, the schemas of the reply, and the review of a
candidate by two agents, one after the other.

* `completeJson`           one call: anything but a well-formed reply throws;
* `Replies`                the replies that are well formed;
* `completeJson_eq_ok`     a call answers exactly on these;
* `orchestrate`            the review: every exception becomes an escalation;
* `ReviewFails`            the ways a review can fail;
* `orchestrate_escalates_iff`  a review escalates exactly on these.

`JSON.parse`, the messages of the schemas' errors and the texts of the prompts are those of an `AgentEnv`,
as are the replies: nothing is assumed of them.  A number stands for the decimal it prints as.
-/

namespace Pipeline

/-! ## JSON -/

inductive Json where
  | null
  | bool (b : Bool)
  | num (q : ℚ)
  /-- a number beyond the doubles -/
  | infinity (negative : Bool)
  | str (s : String)
  | arr (items : List Json)
  | obj (fields : List (String × Json))

/-- the property of an object -/
def Json.field? (name : String) : Json → Option Json
  | .obj fields => (fields.find? fun f => f.1 = name).map Prod.snd
  | _ => none

namespace Schema

/-- `z.string()` -/
def string : Json → Option String
  | .str s => some s
  | _ => none

/-- `z.string().min(1)` -/
def nonempty (json : Json) : Option String := (string json).filter fun s => s ≠ ""

/-- `z.number().min(0).max(1)` -/
def unit : Json → Option ℚ
  | .num q => if 0 ≤ q ∧ q ≤ 1 then some q else none
  | _ => none

/-- `z.string().uuid()` -/
def uuid (json : Json) : Option String :=
  (string json).filter fun s =>
    let cs := s.toList
    cs.length = 36 ∧ (List.range 36).all fun i =>
      let c := cs.getD i ' '
      if i = 8 ∨ i = 13 ∨ i = 18 ∨ i = 23 then c = '-'
      else c.isDigit || ('a' ≤ c && c ≤ 'f') || ('A' ≤ c && c ≤ 'F')

/-- `z.array(item)` -/
def array {α : Type} (item : Json → Option α) : Json → Option (List α)
  | .arr items => items.mapM item
  | _ => none

/-- `z.enum(["approve", "escalate", "reject"])` -/
def verdict : Json → Option Verdict
  | .str "approve" => some .approve
  | .str "escalate" => some .escalate
  | .str "reject" => some .reject
  | _ => none

end Schema

/-- the contents of the choices -/
def chatCompletionSchema (json : Json) : Option (List String) := do
  let choices ← json.field? "choices"
  let contents ← Schema.array (fun choice => do
    let message ← choice.field? "message"
    Schema.string (← message.field? "content")) choices
  if contents.length ≥ 1 then some contents else none

def anomalyAnalysisOutputSchema (json : Json) : Option Analysis := do
  return {
    hypothesis := ← Schema.nonempty (← json.field? "hypothesis")
    confidence := ← Schema.unit (← json.field? "confidence")
    supportingEvidenceIds := ← Schema.array Schema.uuid (← json.field? "supportingEvidenceIds") }

def verificationOutputSchema (json : Json) : Option Verification := do
  return {
    decision := ← Schema.verdict (← json.field? "decision")
    finalConfidence := ← Schema.unit (← json.field? "finalConfidence")
    notificationDraft := ← Schema.nonempty (← json.field? "notificationDraft") }

/-! ## one call -/

/-- what is thrown: an `Error` or something else -/
inductive Thrown where
  | error (message : String)
  | other

/-- `error instanceof Error ? error.message : "Unknown agent failure"` -/
def Thrown.message : Thrown → String
  | .error message => message
  | .other => "Unknown agent failure"

structure LlmClientOptions where
  baseUrl : String
  apiKey : String
  model : String
  timeoutMs : Option ℕ

inductive Role where
  | system
  | user

structure LlmRequest where
  url : String
  authorization : String
  model : String
  messages : List (Role × String)
  timeoutMs : ℕ

/-- `baseUrl.replace(/\/$/, "")` -/
def withoutSlash (baseUrl : String) : String :=
  if baseUrl.toList.getLast? = some '/' then String.ofList baseUrl.toList.dropLast else baseUrl

def LlmClientOptions.request (options : LlmClientOptions) (messages : List (Role × String)) : LlmRequest where
  url := withoutSlash options.baseUrl ++ "/v1/chat/completions"
  authorization := "Bearer " ++ options.apiKey
  model := options.model
  messages := messages
  timeoutMs := options.timeoutMs.getD 20000

/-- `fetch` rejects (no connection, the timeout), or there is a response; its body may not be JSON, or not
arrive in time -/
inductive HttpReply where
  | rejected (thrown : Thrown)
  | response (status : ℕ) (json : Except Thrown Json)

/-- the world around a review: `τ` is what the tools collect -/
structure AgentEnv (τ : Type) where
  /-- `JSON.parse`, with the message of its error -/
  parse : String → Except String Json
  /-- the message of the error with which a schema rejects a value -/
  zodMessage : Json → String
  analysisOptions : LlmClientOptions
  verificationOptions : LlmClientOptions
  /-- the replies to the first and to the second agent's request -/
  analysisFetch : LlmRequest → HttpReply
  verificationFetch : LlmRequest → HttpReply
  /-- `collectAgentToolContext`; without a database there are no tools -/
  toolContext : Option (Except Thrown τ)
  /-- the JSON texts of the context, and of the context with the analysis and the policy -/
  contextText : Option τ → String
  verificationText : Option τ → Analysis → String

variable {τ : Type} {α : Type}

namespace AgentEnv

def parseSchema (env : AgentEnv τ) (schema : Json → Option α) (json : Json) : Except Thrown α :=
  match schema json with
  | some a => .ok a
  | none => .error (.error (env.zodMessage json))

def parseJson (env : AgentEnv τ) (content : String) : Except Thrown Json :=
  (env.parse content).mapError Thrown.error

def completeJson (env : AgentEnv τ) (fetch : LlmRequest → HttpReply) (options : LlmClientOptions)
    (messages : List (Role × String)) (schema : Json → Option α) : Except Thrown α :=
  match fetch (options.request messages) with
  | .rejected thrown => .error thrown
  | .response status body => do
    if ¬ (200 ≤ status ∧ status ≤ 299) then
      throw (.error ("LLM request failed with " ++ toString status))
    let completion ← env.parseSchema chatCompletionSchema (← body)
    match completion with
    | [] => throw (.error "LLM response did not include a completion choice")
    | firstChoice :: _ => env.parseSchema schema (← env.parseJson firstChoice)

def analysisMessages (env : AgentEnv τ) (context : Option τ) : List (Role × String) :=
  [(.system, "You are GridProof's read-only Anomaly Analysis Agent. Explain ambiguous grid-uptime evidence. Never recommend blockchain writes."),
   (.user, env.contextText context)]

def verificationMessages (env : AgentEnv τ) (context : Option τ) (analysis : Analysis) : List (Role × String) :=
  [(.system, "You are GridProof's Evidence Verification Agent. Return approve only when confidence is at least 0.85; escalate 0.5-0.85; reject below 0.5."),
   (.user, env.verificationText context analysis)]

def runAnomalyAnalysisAgent (env : AgentEnv τ) (context : Option τ) : Except Thrown Analysis :=
  env.completeJson env.analysisFetch env.analysisOptions (env.analysisMessages context)
    anomalyAnalysisOutputSchema

def runVerificationAgent (env : AgentEnv τ) (context : Option τ) (analysis : Analysis) :
    Except Thrown Verification :=
  env.completeJson env.verificationFetch env.verificationOptions (env.verificationMessages context analysis)
    verificationOutputSchema

/-- the context of both agents, with what the tools collect if there are tools -/
def context (env : AgentEnv τ) : Except Thrown (Option τ) :=
  match env.toolContext with
  | none => .ok none
  | some collected => collected.map some

/-- the body of `orchestrateCandidateReview` up to the check of the second agent's confidence -/
def runAgents (env : AgentEnv τ) : Except Thrown (Analysis × Verification) := do
  let context ← env.context
  let analysis ← env.runAnomalyAnalysisAgent context
  let decision ← env.runVerificationAgent context analysis
  return (analysis, decision)

/-- `orchestrateCandidateReview` -/
def orchestrate (env : AgentEnv τ) : OrchestrationResult :=
  orchestrateCandidateReview (env.runAgents.mapError Thrown.message)

/-! ## the replies that are accepted -/

/-- the status is a success, the body a completion, and the schema accepts the text of its first choice -/
inductive Replies (env : AgentEnv τ) (schema : Json → Option α) : HttpReply → α → Prop
  | accepted {status : ℕ} {completion : Json} {content : String} {rest : List String} {json : Json} {a : α}
      (hstatus : 200 ≤ status ∧ status ≤ 299)
      (hcompletion : chatCompletionSchema completion = some (content :: rest))
      (hparse : env.parse content = .ok json) (hschema : schema json = some a) :
      Replies env schema (.response status (.ok completion)) a

variable {env : AgentEnv τ}

theorem Replies.unique {schema : Json → Option α} {reply : HttpReply} {a b : α}
    (ha : Replies env schema reply a) (hb : Replies env schema reply b) : a = b := by
  obtain ⟨-, hcompletion, hparse, hschema⟩ := ha
  obtain ⟨-, hcompletion', hparse', hschema'⟩ := hb
  obtain ⟨rfl, -⟩ := List.cons.inj (Option.some.inj (hcompletion.symm.trans hcompletion'))
  obtain rfl := Except.ok.inj (hparse.symm.trans hparse')
  exact Option.some.inj (hschema.symm.trans hschema')

theorem parseSchema_eq_ok {schema : Json → Option α} {json : Json} {a : α} :
    env.parseSchema schema json = .ok a ↔ schema json = some a := by
  unfold parseSchema
  cases schema json with
  | none => exact iff_of_false nofun nofun
  | some b => simp only [Except.ok.injEq, Option.some.injEq]

theorem parseJson_eq_ok {content : String} {json : Json} :
    env.parseJson content = .ok json ↔ env.parse content = .ok json := by
  unfold parseJson
  cases env.parse content with
  | error e => exact iff_of_false nofun nofun
  | ok j => simp only [Except.mapError, Except.ok.injEq]

theorem completeJson_eq_ok {fetch : LlmRequest → HttpReply} {options : LlmClientOptions}
    {messages : List (Role × String)} {schema : Json → Option α} {a : α} :
    env.completeJson fetch options messages schema = .ok a ↔
      Replies env schema (fetch (options.request messages)) a := by
  unfold completeJson
  constructor
  · intro h
    cases hf : fetch (options.request messages) with
    | rejected thrown =>
      rw [hf] at h
      exact nomatch h
    | response status body =>
      rw [hf] at h
      dsimp only at h
      split at h
      · exact nomatch h
      · rename_i hstatus
        obtain ⟨completion, hbody, h⟩ := Except.bind_eq_ok.mp h
        obtain ⟨choices, hchoices, h⟩ := Except.bind_eq_ok.mp h
        rw [hbody]
        cases choices with
        | nil => exact nomatch h
        | cons content rest =>
          obtain ⟨json, hjson, h⟩ := Except.bind_eq_ok.mp h
          exact .accepted (not_not.mp hstatus) (parseSchema_eq_ok.mp hchoices) (parseJson_eq_ok.mp hjson)
            (parseSchema_eq_ok.mp h)
  · intro h
    cases hf : fetch (options.request messages) with
    | rejected thrown =>
      rw [hf] at h
      exact nomatch h
    | response status body =>
      rw [hf] at h
      obtain ⟨hstatus, hcompletion, hparse, hschema⟩ := h
      dsimp only
      rw [if_neg (not_not.mpr hstatus)]
      refine Except.bind_eq_ok.mpr ⟨_, rfl, Except.bind_eq_ok.mpr ⟨_, parseSchema_eq_ok.mpr hcompletion, ?_⟩⟩
      exact Except.bind_eq_ok.mpr ⟨_, parseJson_eq_ok.mpr hparse, parseSchema_eq_ok.mpr hschema⟩

/-! ## the review -/

/-- the reply to the first agent's request -/
def analysisReply (env : AgentEnv τ) (context : Option τ) : HttpReply :=
  env.analysisFetch (env.analysisOptions.request (env.analysisMessages context))

/-- the reply to the second agent's request -/
def verificationReply (env : AgentEnv τ) (context : Option τ) (analysis : Analysis) : HttpReply :=
  env.verificationFetch (env.verificationOptions.request (env.verificationMessages context analysis))

/-- both agents were asked, and their replies were accepted -/
def Reviewed (env : AgentEnv τ) (analysis : Analysis) (verification : Verification) : Prop :=
  ∃ context, env.context = .ok context ∧
    Replies env anomalyAnalysisOutputSchema (env.analysisReply context) analysis ∧
    Replies env verificationOutputSchema (env.verificationReply context analysis) verification

/-- a tool fails, an agent's reply is not accepted, or the second agent approves below the threshold -/
inductive ReviewFails (env : AgentEnv τ) : Prop
  | tools (thrown : Thrown) (h : env.toolContext = some (.error thrown))
  | analysis (context : Option τ) (hcontext : env.context = .ok context)
      (h : ∀ a, ¬ Replies env anomalyAnalysisOutputSchema (env.analysisReply context) a)
  | verification (context : Option τ) (analysis : Analysis) (hcontext : env.context = .ok context)
      (hanalysis : Replies env anomalyAnalysisOutputSchema (env.analysisReply context) analysis)
      (h : ∀ v, ¬ Replies env verificationOutputSchema (env.verificationReply context analysis) v)
  | lowConfidence (analysis : Analysis) (verification : Verification)
      (hreviewed : env.Reviewed analysis verification) (happrove : verification.decision = .approve)
      (hlow : verification.finalConfidence < 85 / 100)

theorem runAgents_eq_ok {analysis : Analysis} {verification : Verification} :
    env.runAgents = .ok (analysis, verification) ↔ env.Reviewed analysis verification := by
  unfold runAgents
  constructor
  · intro h
    obtain ⟨context, hcontext, h⟩ := Except.bind_eq_ok.mp h
    obtain ⟨a, ha, h⟩ := Except.bind_eq_ok.mp h
    obtain ⟨v, hv, h⟩ := Except.bind_eq_ok.mp h
    obtain ⟨rfl, rfl⟩ := Prod.mk.inj (Except.ok.inj h)
    exact ⟨context, hcontext, completeJson_eq_ok.mp ha, completeJson_eq_ok.mp hv⟩
  · rintro ⟨context, hcontext, ha, hv⟩
    refine Except.bind_eq_ok.mpr ⟨context, hcontext, Except.bind_eq_ok.mpr ⟨analysis, ?_, ?_⟩⟩
    · exact completeJson_eq_ok.mpr ha
    · exact Except.bind_eq_ok.mpr ⟨verification, completeJson_eq_ok.mpr hv, rfl⟩

/-- a failed review has accepted replies only with a weak approval -/
theorem ReviewFails.not_reviewed (h : env.ReviewFails) {analysis : Analysis} {verification : Verification}
    (hr : env.Reviewed analysis verification) :
    verification.decision = .approve ∧ verification.finalConfidence < 85 / 100 := by
  obtain ⟨context, hcontext, ha, hv⟩ := hr
  cases h with
  | tools thrown h =>
    unfold AgentEnv.context at hcontext
    rw [h] at hcontext
    exact nomatch hcontext
  | analysis context' hcontext' h =>
    obtain rfl := Except.ok.inj (hcontext.symm.trans hcontext')
    exact absurd ha (h _)
  | verification context' analysis' hcontext' hanalysis h =>
    obtain rfl := Except.ok.inj (hcontext.symm.trans hcontext')
    obtain rfl := ha.unique hanalysis
    exact absurd hv (h _)
  | lowConfidence analysis' verification' hreviewed happrove hlow =>
    obtain ⟨context', hcontext', ha', hv'⟩ := hreviewed
    obtain rfl := Except.ok.inj (hcontext.symm.trans hcontext')
    obtain rfl := ha.unique ha'
    obtain rfl := hv.unique hv'
    exact ⟨happrove, hlow⟩

/-- the review ends with the agents' decision exactly on accepted replies without a weak approval -/
theorem orchestrate_eq_agentDecision {analysis : Analysis} {verification : Verification} :
    env.orchestrate = .agentDecision analysis verification ↔ env.Reviewed analysis verification ∧
      ¬ (verification.decision = .approve ∧ verification.finalConfidence < 85 / 100) := by
  rw [← runAgents_eq_ok]
  unfold orchestrate
  cases env.runAgents with
  | error thrown => exact iff_of_false nofun nofun
  | ok replies =>
    obtain ⟨a, v⟩ := replies
    show (if v.decision = .approve ∧ v.finalConfidence < 85 / 100 then _ else _) = _ ↔ _
    split
    · rename_i hlow
      refine iff_of_false nofun ?_
      rintro ⟨h, hhigh⟩
      cases h
      exact hhigh hlow
    · rename_i hhigh
      constructor
      · intro h
        cases h
        exact ⟨rfl, hhigh⟩
      · rintro ⟨h, -⟩
        cases h
        rfl

theorem reviewFails_or_reviewed (env : AgentEnv τ) : env.ReviewFails ∨ ∃ analysis verification,
    env.Reviewed analysis verification ∧
      ¬ (verification.decision = .approve ∧ verification.finalConfidence < 85 / 100) := by
  cases hcontext : env.context with
  | error thrown =>
    cases htools : env.toolContext with
    | none =>
      unfold context at hcontext
      rw [htools] at hcontext
      exact nomatch hcontext
    | some collected =>
      cases collected with
      | error thrown => exact .inl (.tools thrown htools)
      | ok tools =>
        unfold context at hcontext
        rw [htools] at hcontext
        exact nomatch hcontext
  | ok tools =>
    by_cases ha : ∃ a, Replies env anomalyAnalysisOutputSchema (env.analysisReply tools) a
    · obtain ⟨a, ha⟩ := ha
      by_cases hv : ∃ v, Replies env verificationOutputSchema (env.verificationReply tools a) v
      · obtain ⟨v, hv⟩ := hv
        have hreviewed : env.Reviewed a v := ⟨tools, hcontext, ha, hv⟩
        by_cases hlow : v.decision = .approve ∧ v.finalConfidence < 85 / 100
        · exact .inl (.lowConfidence a v hreviewed hlow.1 hlow.2)
        · exact .inr ⟨a, v, hreviewed, hlow⟩
      · exact .inl (.verification tools a hcontext ha (not_exists.mp hv))
    · exact .inl (.analysis tools hcontext (not_exists.mp ha))

/-- **A review escalates exactly if it fails.** -/
theorem orchestrate_escalates_iff : (∃ reason, env.orchestrate = .escalate reason) ↔ env.ReviewFails := by
  constructor
  · rintro ⟨reason, h⟩
    rcases env.reviewFails_or_reviewed with hfails | ⟨analysis, verification, hreviewed⟩
    · exact hfails
    · rw [orchestrate_eq_agentDecision.mpr hreviewed] at h
      exact nomatch h
  · intro h
    cases ho : env.orchestrate with
    | escalate reason => exact ⟨reason, rfl⟩
    | agentDecision analysis verification =>
      obtain ⟨hreviewed, hhigh⟩ := orchestrate_eq_agentDecision.mp ho
      exact absurd (h.not_reviewed hreviewed) hhigh

end AgentEnv

end Pipeline
