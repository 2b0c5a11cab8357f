import GridProof.Auth.Sessions
import GridProof.Lib.Unwinding
import GridProof.Ingestion.Demo
import GridProof.Ingestion.Notes

/-!
# Realtime events

What the site tells the sockets: the domain events of each step, the rooms they are sent to, and the rooms a
socket is in.

* `DomainEvent.emitted`    the messages of a domain event, each to a room or to every socket;
* `Handshake.rooms`        the rooms that a socket joins;
* `Site.act`               a step of the site, with its domain events.

A request is one that the middlewares let through.  Reviews, the results of the agents and the sweeps of the
chain read no evidence: each is a step on the stores of the pipeline alone.
-/

namespace Ingestion
open Pipeline (IsoDate CandidateEvent Simulation PipelineResult EpochStart CommitmentStatus)
open Auth (UserRole)

/-! ## domain events -/

inductive DomainEvent where
  | evidenceReceived (event : EvidenceEvent)
  | candidateDetected (candidate : CandidateEvent)
  | chainCommitted (zoneId : String) (epochStart : EpochStart) (txHash : String) (status : CommitmentStatus)
  | reviewRequired (candidateEventId zoneId reason : String)

/-- what a socket is sent -/
inductive Message where
  | evidenceReceived (event : EvidenceEvent)
  | zoneStatusChanged (zoneId : String) (status : EvidenceStatus) (observedAt : IsoDate)
  | chainCommitted (zoneId : String) (epochStart : EpochStart) (txHash : String) (status : CommitmentStatus)
  | reviewRequired (candidateEventId zoneId reason : String)

def zoneRoom (zoneId : String) : String := "zone:" ++ zoneId

def reviewerRoom : String := "role:reviewer"

/-- the messages of `attachRealtime`, in order; without a room a message is for every socket -/
def DomainEvent.emitted : DomainEvent → List (Option String × Message)
  | evidenceReceived event =>
    [(some (zoneRoom event.zoneId), .evidenceReceived event),
      (none, .zoneStatusChanged event.zoneId event.status event.observedAt)]
  | candidateDetected _ => []
  | chainCommitted zoneId epochStart txHash status =>
    [(some (zoneRoom zoneId), .chainCommitted zoneId epochStart txHash status),
      (none, .chainCommitted zoneId epochStart txHash status)]
  | reviewRequired candidateEventId zoneId reason =>
    [(some reviewerRoom, .reviewRequired candidateEventId zoneId reason)]

/-! ## sockets -/

/-- the query and the token of a socket, where they are texts -/
structure Handshake where
  zoneId : Option String
  token : Option String

/-- `verify` is the role that `verifyBearerToken` finds, `none` if it throws -/
def Handshake.rooms (verify : String → Option UserRole) (h : Handshake) : List String :=
  ((h.zoneId.filter (· ≠ "")).map zoneRoom).toList ++
    if ((h.token.filter (· ≠ "")).bind verify).any (fun role => role.privileged) then [reviewerRoom] else []

/-- the messages of an event that reach a socket in these rooms -/
def DomainEvent.received (rooms : List String) (event : DomainEvent) : List Message :=
  event.emitted.filterMap fun (room, message) => if room.all (· ∈ rooms) then some message else none

/-! ## steps of the site -/

/-- the events of `processCandidatePipeline` -/
def pipelineEvents (candidate : CandidateEvent) (result : PipelineResult) : List DomainEvent :=
  match result.epochScore, result.commitment with
  | some epochScore, some commitment =>
    [.chainCommitted candidate.zoneId epochScore.epochStart (commitment.txHash.getD "") commitment.status]
  | _, _ =>
    if result.decision.decision = .escalate then
      [.reviewRequired candidate.id candidate.zoneId result.decision.hypothesis]
    else []

/-- the stores of the pipeline, with the candidates -/
inductive Back where
  | memory (candidatesByKey : OrderedMap String CandidateEvent) (pipeline : Pipeline.Memory)
  | database (system : Pipeline.System)

namespace Site

def withStore : Site → Store → Site
  | memory _ pipeline, .memory m => memory m pipeline
  | database _, .database d => database d
  | site, _ => site

def back : Site → Back
  | memory m pipeline => .memory m.candidatesByKey pipeline
  | database d => .database d.system

def withBack : Site → Back → Site
  | memory m _, .memory candidatesByKey pipeline => memory { m with candidatesByKey := candidatesByKey } pipeline
  | database d, .database system => database { d with system := system }
  | site, _ => site

section
variable [JsText.Runtime]

/-- the evidence of a request is stored; `none` if a statement fails -/
def receive (site : Site) (r : Request) (draw : Draw) : Site × Option IngestStoreResult :=
  let (store, result) := Ingestion.ingest site.store r draw
  (site.withStore store, result)

/-- `processCandidatePipeline`, up to a statement that fails -/
def process (site : Site) (candidate : CandidateEvent) (simulation : Option Simulation) (decisionId : String)
    (now : IsoDate) : Site × List DomainEvent :=
  match site with
  | memory m pipeline =>
    let (pipeline, result) :=
      Pipeline.processMemoryPipeline JsText.localeCompare pipeline candidate simulation decisionId now
    (memory m pipeline, pipelineEvents candidate result)
  | database d =>
    let system := (runPipeline d.system candidate simulation decisionId now).getD d.system
    let result := Pipeline.processCandidatePipeline d.system candidate simulation decisionId now
    (database { d with system := system }, (result.map fun r => pipelineEvents candidate r.2).getD [])

/-- a request, with `publishIngestResult` -/
def publish (site : Site) (r : Request) (draw : LabDraw) : Site × List DomainEvent :=
  let (site, result) := site.receive r draw.toDraw
  match result with
  | none => (site, [])
  | some result =>
    if result.duplicate then (site, [])
    else
      match result.candidateEvent with
      | none => (site, [.evidenceReceived result.evidenceEvent])
      | some candidate =>
        let (site, events) := site.process candidate none draw.decisionId draw.now
        (site, .evidenceReceived result.evidenceEvent :: .candidateDetected candidate :: events)

/-- the loop of `runHeartbeatSweep`; an error of the pipeline does not leave it -/
def sweepLoop (draw : LabDraw) : Site → List CandidateEvent → Site × List DomainEvent
  | site, [] => (site, [])
  | site, candidate :: rest =>
    match site.recordGap candidate with
    | none => (site, [])
    | some (site, false) => site.sweepLoop draw rest
    | some (site, true) =>
      let (site, events) := site.process candidate none (draw.gapDecisionId candidate.id) draw.now
      let (site, later) := site.sweepLoop draw rest
      (site, .candidateDetected candidate :: events ++ later)

/-- `runDemoSimulation` with a challenge that is consumed -/
def simulate (site : Site) (input : DemoSimulationRequest) (allowChainWrite : Bool) (draw : LabDraw) :
    Site × List DomainEvent :=
  let (site, result) := site.receive (.telemetry (demoTelemetry input draw)) draw.toDraw
  match result.bind IngestStoreResult.candidateEvent with
  | none => (site, [])
  | some candidate =>
    site.process candidate (some ⟨draw.runId, JsText.toLowerCase input.walletAddress, allowChainWrite⟩)
      draw.decisionId draw.now

end

end Site

/-- the order of the rows that a draw fixes is not that of the notes -/
inductive SiteAction where
  | request (r : Request) (draw : LabDraw) (hdraw : draw.Blind)
  | sweep (now : Int) (draw : LabDraw) (hdraw : draw.Blind)
  | simulation (input : DemoSimulationRequest) (allowChainWrite : Bool) (draw : LabDraw) (hdraw : draw.Blind)
  | work (f : Back → Back × List DomainEvent)

section
variable [JsText.Runtime]

def Site.act (site : Site) : SiteAction → Site × List DomainEvent
  | .request r draw _ => site.publish r draw
  | .sweep now draw _ => site.sweepLoop draw (site.findGaps now draw)
  | .simulation input allowChainWrite draw _ => site.simulate input allowChainWrite draw
  | .work f => (site.withBack (f site.back).1, (f site.back).2)

/-! ## what a socket is told -/

/-- an action, and whether the socket is connected -/
abbrev Moment := SiteAction × Bool

def Site.next (site : Site) (x : Moment) : Site × List DomainEvent := site.act x.1

def toldOf (rooms : List String) (x : Moment × List DomainEvent) : List Message :=
  if x.1.2 then x.2.flatMap (DomainEvent.received rooms) else []

/-- the realtime events that are delivered to the socket -/
def delivered (rooms : List String) (mode : Mode) (run : List Moment) : List Message :=
  Unwinding.heard Site.next (toldOf rooms) (.start mode) run

end

end Ingestion
