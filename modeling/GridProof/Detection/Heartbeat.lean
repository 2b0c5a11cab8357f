import GridProof.Detection.Rules

/-!
# Heartbeat gaps

Silence of a zone's sensors as an outage candidate: every stretch between two beats of the zone that is longer
than six missed heartbeats, and the stretch from the last beat until now.

* `gapsFrom`    the loop over the beats, in their order;
* `detectHeartbeatGapCandidatesIn`   one candidate for each gap, for any threshold and in any arithmetic;
* `detectHeartbeatGapCandidates`   the same with the default threshold, in exact arithmetic;
* `heartbeatGapKey`   a gap is identified by its zone and its start.

`now` is the instant of the sweep, in milliseconds; a threshold need not be a whole number of them.
-/

namespace Detection
open Ingestion (EvidenceEvent)
open Pipeline (IsoDate CandidateEvent exactly)

/-! ## constants -/

/-- `HEARTBEAT_INTERVAL_MS` -/
def heartbeatIntervalMs : Int := 60 * 1000

/-- `HEARTBEAT_GAP_MS` -/
def heartbeatGapMs : Int := 6 * heartbeatIntervalMs

def minGapConfidence : ℚ := 6 / 10
def gapLengthWeight : ℚ := 2 / 10
def singleNodeCeiling : ℚ := 8 / 10
def corroborationBonus : ℚ := 6 / 100
def maxGapConfidence : ℚ := 95 / 100

/-- `round` rounds the result of each operation, and the constants -/
def gapConfidenceIn (round : ℚ → ℚ) (observedGapMs : Int) (thresholdMs : ℚ) (silentNodes : ℕ) : ℚ :=
  let overrun : ℚ := min (round (max (round (observedGapMs - thresholdMs)) 0 / round (2 * thresholdMs))) 1
  let confidence := round (round minGapConfidence + round (round gapLengthWeight * overrun))
  let confidence := round (confidence + round (round corroborationBonus * (max ((silentNodes : ℤ) - 1) 0 : ℤ)))
  let confidence := if silentNodes < 2 then min confidence (round singleNodeCeiling) else confidence
  roundConfidenceIn round (min confidence (round maxGapConfidence))

def gapConfidence (observedGapMs : Int) (thresholdMs : ℚ) (silentNodes : ℕ) : ℚ :=
  gapConfidenceIn exactly observedGapMs thresholdMs silentNodes

def heartbeatGapKey (candidate : CandidateEvent) : String :=
  "heartbeat-gap:" ++ candidate.zoneId ++ ":" ++ candidate.windowStart.text

section
variable [JsText.Runtime]

/-! ## gaps -/

/-- by instant, then by id -/
def beatOrder (left right : EvidenceEvent) : Prop :=
  left.observedAt.getTime < right.observedAt.getTime ∨
    left.observedAt.getTime = right.observedAt.getTime ∧ JsText.localeCompare left.id right.id ≤ 0

instance : DecidableRel beatOrder := fun _ _ => inferInstanceAs (Decidable (_ ∨ _))

def heartbeatsFor (zoneId : String) (evidence : List EvidenceEvent) : List EvidenceEvent :=
  (evidence.filter fun event => event.zoneId = zoneId && event.source = .sensor).insertionSort beatOrder

/-- the identities of the beats up to the start of a gap; `beats` has the latest one first -/
def nodesReportingBefore (startedAt : Int) (beats : List EvidenceEvent) (gapMs : ℚ) : List String :=
  ((beats.takeWhile fun beat => ((startedAt - beat.observedAt.getTime : ℤ) : ℚ) ≤ gapMs).map
    evidenceSourceIdentity).dedup

/-- a silence, with the beat that ends it if it is over -/
structure Gap where
  startBeat : EvidenceEvent
  closingBeat : Option EvidenceEvent
  silentNodes : ℕ

/-- the gaps from `previous` on; `heard` are the beats up to it, the latest one first -/
def gapsFrom (now : Int) (gapMs : ℚ) (heard : List EvidenceEvent) (previous : EvidenceEvent) :
    List EvidenceEvent → List Gap
  | [] =>
    let silentNodes := (nodesReportingBefore previous.observedAt.getTime heard gapMs).length
    if ((now - previous.observedAt.getTime : ℤ) : ℚ) > gapMs then [⟨previous, none, silentNodes⟩] else []
  | next :: rest =>
    let silentNodes := (nodesReportingBefore previous.observedAt.getTime heard gapMs).length
    let later := gapsFrom now gapMs (next :: heard) next rest
    if ((next.observedAt.getTime - previous.observedAt.getTime : ℤ) : ℚ) ≤ gapMs then later
    else ⟨previous, some next, silentNodes⟩ :: later

def heartbeatGaps (zoneId : String) (evidence : List EvidenceEvent) (now : Int) (gapMs : ℚ) : List Gap :=
  match heartbeatsFor zoneId evidence with
  | [] => []
  | first :: rest => gapsFrom now gapMs [first] first rest

/-! ## candidates -/

def buildGapCandidate (round : ℚ → ℚ) (zoneId : String) (now : Int) (gapMs : ℚ) (gap : Gap) (id : String) :
    CandidateEvent :=
  let startBeat := gap.startBeat
  let endsAt := (gap.closingBeat.map fun beat => beat.observedAt.getTime).getD now
  { id := id
    zoneId := zoneId
    status := .outage
    confidence := gapConfidenceIn round (endsAt - startBeat.observedAt.getTime) gapMs gap.silentNodes
    windowStart := startBeat.observedAt
    windowEnd := (gap.closingBeat.map EvidenceEvent.observedAt).getD (.ofMillis now)
    evidenceEventIds := startBeat.id ::
      ((gap.closingBeat.filter fun beat => beat.id ≠ startBeat.id).map EvidenceEvent.id).toList
    createdAt := .ofMillis now }

/-- `ids i` is the random id of the candidate `i` -/
def detectHeartbeatGapCandidatesIn (round : ℚ → ℚ) (zoneId : String) (evidence : List EvidenceEvent) (now : Int)
    (gapMs : ℚ) (ids : ℕ → String) : List CandidateEvent :=
  if gapMs ≤ 0 then []
  else (heartbeatGaps zoneId evidence now gapMs).mapIdx fun i gap =>
    buildGapCandidate round zoneId now gapMs gap (ids i)

/-- with the default threshold -/
def detectHeartbeatGapCandidates (zoneId : String) (evidence : List EvidenceEvent) (now : Int)
    (ids : ℕ → String) : List CandidateEvent :=
  detectHeartbeatGapCandidatesIn exactly zoneId evidence now heartbeatGapMs ids

end

end Detection
