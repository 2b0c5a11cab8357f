import GridProof.Ingestion.Demo
import GridProof.Lib.Simulation
import GridProof.Limiter.RateLimit

/-!
# Challenges of the Judge Demo Lab

A wallet asks for a challenge, signs its message, and starts one simulation with it.  A simulation that has started
goes on while other requests are answered, and its run is recorded at the end.

* `createDemoWalletChallenge`, `consumeChallenge`   the two sides of the protocol;
* `step`              a request, or the end of a simulation, in any order;
* `Facts`             what the store knows of the challenges that were given out;
* `Authorized`        what holds of all answers; `authorized_run` proves it for every run.

An expiry is kept as its instant, which `Date.parse` reads back from the text.  The schemas make an address and a
recovered signer ASCII, so their lower case is that of ASCII.
-/

namespace Demo
open Ingestion (DemoScenario)
open RateLimit (HttpError)
open Keyed

/-! ## requests -/

structure DemoWalletChallengeRequest where
  walletAddress : String
  zoneId : String
  scenario : DemoScenario
  publishToChain : Bool

structure DemoSimulationRequest where
  walletAddress : String
  nonce : String
  signature : String
  zoneId : String
  scenario : DemoScenario
  publishToChain : Bool

/-- `CHALLENGE_TTL_MS` -/
def challengeTtl : Int := 5 * 60 * 1000

/-- the last instant that `toISOString` prints -/
def maxTime : Int := 8640000000000000

def scenarioText : DemoScenario → String
  | .confirmedOutage => "confirmed_outage"
  | .restoration => "restoration"
  | .ambiguousOutage => "ambiguous_outage"

def chainMode (publishToChain : Bool) : String := if publishToChain then "live" else "preview"

def authorization (publishToChain : Bool) : String :=
  if publishToChain then
    "If this evidence is approved, authorize the GridProof backend relayer to publish its availability proof " ++
      "to BOT Chain. The relayer pays gas; this signature does not transfer funds."
  else
    "Preview the proof only. This signature does not submit a blockchain transaction or transfer funds."

/-- the text that the wallet signs -/
def challengeMessage (input : DemoWalletChallengeRequest) (nonce : String) (expiresAt : Int) : String :=
  "\n".intercalate
    ["GridProof Judge Demo", "", "Authorize one synthetic telemetry simulation.",
      authorization input.publishToChain,
      "Wallet: " ++ JsText.asciiLower input.walletAddress,
      "Zone: " ++ input.zoneId,
      "Scenario: " ++ scenarioText input.scenario,
      "Chain mode: " ++ chainMode input.publishToChain,
      "Nonce: " ++ nonce,
      "Expires: " ++ Calendar.isoMillis expiresAt]

/-! ## the store -/

structure DemoChallenge where
  nonce : String
  walletAddress : String
  message : String
  expiresAt : Int
  zoneId : String
  scenario : DemoScenario
  publishToChain : Bool
  used : Bool

abbrev Challenges := OrderedMap String DemoChallenge

structure DemoWalletChallengeResponse where
  nonce : String
  message : String
  expiresAt : Int
  chainMode : String

def expiry (created : Int) : Int := created + challengeTtl

def challengeFor (input : DemoWalletChallengeRequest) (nonce : String) (created : Int) : DemoChallenge where
  nonce := nonce
  walletAddress := JsText.asciiLower input.walletAddress
  message := challengeMessage input nonce (expiry created)
  expiresAt := expiry created
  zoneId := input.zoneId
  scenario := input.scenario
  publishToChain := input.publishToChain
  used := false

def responseFor (input : DemoWalletChallengeRequest) (nonce : String) (created : Int) :
    DemoWalletChallengeResponse where
  nonce := nonce
  message := challengeMessage input nonce (expiry created)
  expiresAt := expiry created
  chainMode := chainMode input.publishToChain

/-- `flag` is `GRIDPROOF_DEMO_ALLOW_CHAIN_WRITE` -/
def createDemoWalletChallenge (flag : Option String) (challenges : Challenges) (input : DemoWalletChallengeRequest)
    (nonce : String) (now : Int) : Except HttpError (Challenges × DemoWalletChallengeResponse) :=
  let allowChainWrite := decide (flag = some "true")
  if input.publishToChain && !allowChainWrite then
    .error ⟨403, "DEMO_CHAIN_WRITE_DISABLED", "Live BOT Chain publishing is not enabled for this demo deployment"⟩
  else if maxTime < expiry now then .error ⟨500, "INTERNAL_ERROR", "Invalid time value"⟩
  else .ok (challenges.set nonce (challengeFor input nonce now), responseFor input nonce now)

/-- `verifyMessage`, which throws where it is `none`; whom it recovers has signed -/
structure Ethers where
  verifyMessage : (message signature : String) → Option String
  Signed : (address message signature : String) → Prop
  signed {message signature address : String} : verifyMessage message signature = some address →
    Signed address message signature

section
variable (ethers : Ethers)

def consumeChallenge (challenges : Challenges) (input : DemoSimulationRequest) (now : Int) :
    Except HttpError Challenges :=
  match challenges.get? input.nonce with
  | none => .error ⟨401, "DEMO_AUTH_EXPIRED", "Wallet authorization expired; connect and sign again"⟩
  | some challenge =>
    if challenge.used || decide (challenge.expiresAt ≤ now) then
      .error ⟨401, "DEMO_AUTH_EXPIRED", "Wallet authorization expired; connect and sign again"⟩
    else if challenge.walletAddress ≠ JsText.asciiLower input.walletAddress then
      .error ⟨401, "DEMO_WALLET_MISMATCH", "Wallet address does not match the authorization challenge"⟩
    else if challenge.zoneId ≠ input.zoneId ∨ challenge.scenario ≠ input.scenario ∨
        challenge.publishToChain ≠ input.publishToChain then
      .error ⟨401, "DEMO_CHALLENGE_MISMATCH",
        "Simulation details do not match the signed authorization challenge"⟩
    else
      match (ethers.verifyMessage challenge.message input.signature).map JsText.asciiLower with
      | none => .error ⟨401, "DEMO_BAD_SIGNATURE", "Wallet signature could not be verified"⟩
      | some recovered =>
        if recovered ≠ challenge.walletAddress then
          .error ⟨401, "DEMO_BAD_SIGNATURE", "Wallet signature does not match the connected address"⟩
        else .ok (challenges.set input.nonce { challenge with used := true })

/-! ## the service -/

/-- what a simulation knows of its run when it starts -/
structure Started where
  id : String
  initiatedBy : String
  scenario : DemoScenario
  zoneId : String
  allowChainWrite : Bool

def startedBy (input : DemoSimulationRequest) (runId : String) : Started where
  id := runId
  initiatedBy := JsText.asciiLower input.walletAddress
  scenario := input.scenario
  zoneId := input.zoneId
  allowChainWrite := input.publishToChain

structure Service where
  memoryChallenges : Challenges
  /-- the simulations that have started, and whose runs are not recorded yet -/
  inFlight : List Started
  memoryRuns : OrderedMap String Started

def Service.start : Service := ⟨.empty, [], .empty⟩

inductive Action where
  | challenge (input : DemoWalletChallengeRequest) (flag : Option String) (nonce : String) (now : Int)
  | simulate (input : DemoSimulationRequest) (runId : String) (now : Int)
  /-- a simulation comes to its end, or a statement of it fails -/
  | complete (runId : String)
  | fail (runId : String)

inductive Answer where
  | challenged (response : DemoWalletChallengeResponse)
  | started
  | ended
  | error (e : HttpError)

def step (s : Service) : Action → Service × Answer
  | .challenge input flag nonce now =>
    match createDemoWalletChallenge flag s.memoryChallenges input nonce now with
    | .error e => (s, .error e)
    | .ok (challenges, response) => ({ s with memoryChallenges := challenges }, .challenged response)
  | .simulate input runId now =>
    match consumeChallenge ethers s.memoryChallenges input now with
    | .error e => (s, .error e)
    | .ok challenges =>
      ({ s with memoryChallenges := challenges, inFlight := s.inFlight ++ [startedBy input runId] }, .started)
  | .complete runId =>
    match s.inFlight.find? fun run => run.id = runId with
    | none => (s, .ended)
    | some run =>
      ({ s with
          inFlight := s.inFlight.eraseP fun run => run.id = runId
          memoryRuns := s.memoryRuns.set run.id run }, .ended)
  | .fail runId => ({ s with inFlight := s.inFlight.eraseP fun run => run.id = runId }, .ended)

end

/-! ## what was answered -/

abbrev Event := Action × Answer

/-- the nonce that was given out -/
def Event.givenOut : Event → Option String
  | (.challenge _ _ nonce _, .challenged _) => some nonce
  | _ => none

/-- the nonce that was consumed -/
def Event.consumed : Event → Option String
  | (.simulate input _ _, .started) => some input.nonce
  | _ => none

/-- the challenge was given out -/
def Given (events : List Event) (asked : DemoWalletChallengeRequest) (flag : Option String) (nonce : String)
    (created : Int) : Prop :=
  (.challenge asked flag nonce created, .challenged (responseFor asked nonce created)) ∈ events

/-- a simulation is what the challenge was asked for -/
def Matches (asked : DemoWalletChallengeRequest) (input : DemoSimulationRequest) : Prop :=
  JsText.asciiLower asked.walletAddress = JsText.asciiLower input.walletAddress ∧ asked.zoneId = input.zoneId ∧
    asked.scenario = input.scenario ∧ asked.publishToChain = input.publishToChain

/-- the challenge that a simulation consumes was given out before, and signed by its wallet -/
def Covered (ethers : Ethers) (before : List Event) : Event → Prop
  | (.simulate input _ now, .started) =>
    ∃ asked flag created,
      Given before asked flag input.nonce created ∧ now < expiry created ∧ Matches asked input ∧ ∃ address,
        JsText.asciiLower address = JsText.asciiLower asked.walletAddress ∧
        ethers.Signed address (challengeMessage asked input.nonce (expiry created)) input.signature
  | _ => True

/-- a run is of a simulation, and if it writes to the chain, the flag was on when its challenge was given out -/
def Licensed (events : List Event) (run : Started) : Prop :=
  ∃ input now, (.simulate input run.id now, .started) ∈ events ∧ run = startedBy input run.id ∧
    ∃ asked flag created, Given events asked flag input.nonce created ∧
      asked.publishToChain = run.allowChainWrite ∧ (run.allowChainWrite = true → flag = some "true")

/-- a challenge that is not consumed and not expired starts the simulation it was asked for, if it is signed -/
def Usable (ethers : Ethers) (events : List Event) (s : Service) : Prop :=
  ∀ asked flag nonce created,
    Given events asked flag nonce created → nonce ∉ events.filterMap Event.consumed →
    ∀ input runId now, input.nonce = nonce → Matches asked input → now < expiry created →
      (∃ address,
        ethers.verifyMessage (challengeMessage asked nonce (expiry created)) input.signature = some address ∧
        JsText.asciiLower address = JsText.asciiLower asked.walletAddress) →
      (step ethers s (.simulate input runId now)).2 = .started

/-- no text of the challenge breaks a line of its message, which the schemas and `randomUUID` ensure -/
structure OneLine (asked : DemoWalletChallengeRequest) (nonce : String) : Prop where
  wallet : '\n' ∉ asked.walletAddress.toList
  zone : '\n' ∉ asked.zoneId.toList
  nonce : '\n' ∉ nonce.toList

/-- the message of a challenge is no other challenge's -/
def Distinct (events : List Event) : Prop :=
  ∀ asked flag nonce created asked' flag' nonce' created',
    Given events asked flag nonce created → Given events asked' flag' nonce' created' →
    OneLine asked nonce → OneLine asked' nonce' →
    challengeMessage asked nonce (expiry created) = challengeMessage asked' nonce' (expiry created') →
    (asked, flag, nonce, created) = (asked', flag', nonce', created')

/-- **One signature, one run.** -/
structure Authorized (ethers : Ethers) (events : List Event) (s : Service) : Prop where
  once : (events.filterMap Event.consumed).Nodup
  distinct : Distinct events
  covered : Throughout (Covered ethers) events
  licensed : ∀ run ∈ s.memoryRuns.values, Licensed events run
  usable : Usable ethers events s

end Demo
