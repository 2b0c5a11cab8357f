import Mathlib.Data.Rat.Floor
import GridProof.Lib.Sha256
import GridProof.Pipeline.Domain

/-!
# Epoch scores

The score of a zone and an hour from the candidates approved for it, as `epochScoreForApprovedCandidates`
of the API and of the worker compute it.

* `EpochStart`       the start of an epoch, which carries its alignment;
* `floorToEpoch`     the epoch of a timestamp, and `contains_iff`: the range of the database query
                     is exactly the set of timestamps with that epoch;
* `uptimeBps`        the share of restored votes, in exact arithmetic;
* `evidenceHash`     the hash of the JSON text of the votes.
-/

namespace Pipeline

/-! ## epochs -/

/-- `EPOCH_DURATION_MS` -/
def epochDurationMs : Int := 60 * 60 * 1000

@[ext]
structure EpochStart where
  ms : Int
  aligned : epochDurationMs ∣ ms
deriving DecidableEq

def EpochStart.text (e : EpochStart) : String := Calendar.isoMillis e.ms

def floorToEpoch (d : IsoDate) : EpochStart :=
  ⟨d.getTime / epochDurationMs * epochDurationMs, Dvd.intro_left _ rfl⟩

/-- `window_end >= epochStart and window_end < epochEnd` on timestamps -/
def EpochStart.contains (e : EpochStart) (d : IsoDate) : Bool :=
  decide (e.ms * 1000 ≤ d.micros) && decide (d.micros < (e.ms + epochDurationMs) * 1000)

theorem EpochStart.contains_iff (e : EpochStart) (d : IsoDate) :
    e.contains d ↔ floorToEpoch d = e := by
  obtain ⟨k, hk⟩ := e.aligned
  have hfloor : (floorToEpoch d).ms = d.micros / 1000 / 3600000 * 3600000 := rfl
  rw [EpochStart.ext_iff, hfloor, EpochStart.contains, Bool.and_eq_true, decide_eq_true_iff,
    decide_eq_true_iff]
  unfold epochDurationMs at *
  omega

/-! ## the text that is hashed -/

/-- the characters `JSON.stringify` escapes -/
def jsonEscape (c : Char) : List Char :=
  if c = '"' then ['\\', '"']
  else if c = '\\' then ['\\', '\\']
  else if c = '\n' then ['\\', 'n']
  else if c = '\r' then ['\\', 'r']
  else if c = '\t' then ['\\', 't']
  else if c.toNat = 8 then ['\\', 'b']
  else if c.toNat = 12 then ['\\', 'f']
  else if c.toNat < 32 then
    ['\\', 'u', '0', '0', Sha256.hexDigit (c.toNat / 16), Sha256.hexDigit (c.toNat % 16)]
  else [c]

def jsonString (s : String) : String :=
  "\"" ++ String.ofList (s.toList.flatMap jsonEscape) ++ "\""

def jsonArray (items : List String) : String := "[" ++ String.intercalate "," items ++ "]"

/-- the number of decimals of a decimal fraction -/
def decimals (q : ℚ) : Nat := ((List.range 25).find? fun k => (q * 10 ^ k).isInt).getD 24

/-- a decimal fraction as `String(n)` prints it; below `1e-6` in exponent form -/
def numberText (q : ℚ) : String :=
  let k := decimals q
  let n := (q * 10 ^ k).num.natAbs
  let sign := if q < 0 then "-" else ""
  if k = 0 then sign ++ toString n
  else if |q| < 1 / 1000000 then
    let digits := (toString n).toList
    sign ++ String.ofList (digits.take 1) ++
      (if digits.length = 1 then "" else "." ++ String.ofList (digits.drop 1)) ++
      "e-" ++ toString (k + 1 - digits.length)
  else sign ++ toString (n / 10 ^ k) ++ "." ++ Calendar.padded k (n % 10 ^ k)

/-- what a score reads of a candidate -/
structure Vote where
  id : String
  status : CandidateStatus
  confidence : ℚ
  evidenceEventIds : List String
deriving DecidableEq

def CandidateEvent.vote (c : CandidateEvent) : Vote :=
  ⟨c.id, c.status, c.confidence, c.evidenceEventIds⟩

def Vote.json (v : Vote) : String :=
  "\x7b\"id\":" ++ jsonString v.id ++ ",\"status\":" ++ jsonString v.status.text ++
    ",\"confidence\":" ++ numberText v.confidence ++ ",\"evidenceEventIds\":" ++
    jsonArray (v.evidenceEventIds.map jsonString) ++ "\x7d"

/-- `JSON.stringify({ zoneId, epochStart, approvedCandidates })` -/
def evidenceText (zoneId : String) (epochStart : EpochStart) (votes : List Vote) : String :=
  "\x7b\"zoneId\":" ++ jsonString zoneId ++ ",\"epochStart\":" ++ jsonString epochStart.text ++
    ",\"approvedCandidates\":" ++ jsonArray (votes.map Vote.json) ++ "\x7d"

@[irreducible]
def sha256Hex (s : String) : String := Sha256.hex (Sha256.digest (Sha256.utf8 s))

def stableUuid (value : String) : String :=
  let hex := (sha256Hex value).toList
  let slice (i j : Nat) : String := String.ofList ((hex.take j).drop i)
  slice 0 8 ++ "-" ++ slice 8 12 ++ "-4" ++ slice 13 16 ++ "-8" ++ slice 17 20 ++ "-" ++ slice 20 32

/-! ## the score -/

/-- `Math.round`: to nearest, ties up, of an exact number -/
def mathRound (q : ℚ) : Int := ⌊q + 1 / 2⌋

/-- The share is exact where the code rounds a quotient and a product of doubles, which moves some ties: 57 of 800 votes
are 713 here and 712 there. -/
def uptimeBps (votes : List Vote) : Int :=
  let upVotes := (votes.filter fun v => v.status = .restored).length
  let totalVotes := votes.length
  if totalVotes = 0 then 0 else mathRound ((upVotes : ℚ) / totalVotes * 10000)

def evidenceHash (zoneId : String) (epochStart : EpochStart) (votes : List Vote) : String :=
  "0x" ++ sha256Hex (evidenceText zoneId epochStart votes)

structure EpochScore where
  id : String
  zoneId : String
  epochStart : EpochStart
  uptimeBps : Int
  evidenceHash : String
deriving DecidableEq

def epochScoreForApprovedCandidates (zoneId : String) (epochStart : EpochStart)
    (approvedCandidates : List Vote) : EpochScore where
  id := stableUuid ("epoch:" ++ zoneId ++ ":" ++ epochStart.text)
  zoneId := zoneId
  epochStart := epochStart
  uptimeBps := uptimeBps approvedCandidates
  evidenceHash := evidenceHash zoneId epochStart approvedCandidates

example : numberText (95 / 100) = "0.95" := by decide +kernel

example : uptimeBps [⟨"a", .restored, 1, []⟩, ⟨"b", .outage, 1, []⟩, ⟨"c", .restored, 1, []⟩] =
    6667 := by decide +kernel

end Pipeline
