import GridProof.Blockchain.World
import GridProof.Ingestion.Delivery

/-!
# The whole backend

Evidence, candidates, decisions, scores and commitments in the database, the queue of the worker, the relayer's
transactions and the contract, with everything that writes them: deliveries of readings and reports, runs of the
demo lab, heartbeat sweeps, the worker, reviewers, submit sweeps and index sweeps.  Each takes one step at a
time, in any order, and may stop for good after any of them.

* `stepAs`      a statement of a delivery or a sweep, which may be that of a demo run;
* `Grid.next`   a step of the backend.
-/

namespace Provenance
open Ingestion (EvidenceEvent Database Task Outcome StepDraw)
open Pipeline (AgentReviewJob Analysis CandidateEvent IsoDate Phase ReviewDecision Simulation System Verification
  World Zones)

/-! ## demo runs -/

/-- the first statement of `processCandidatePipeline` on a candidate that is in the table -/
def decideCandidate (s : System) (candidate : CandidateEvent) (simulation : Option Simulation) (decisionId : String)
    (now : IsoDate) : Option (System × Phase) := do
  let (db, stored) ← Pipeline.upsertDatabaseDecision s.db (Pipeline.decisionForCandidate decisionId now candidate)
  match stored.decision with
  | .approve =>
    if Pipeline.previewOnly simulation then return (⟨db, s.jobs⟩, .finished none)
    return (⟨db, s.jobs⟩, .decided candidate false now)
  | .escalate => return (⟨db, s.jobs ++ [⟨candidate, simulation⟩]⟩, .finished none)
  | .reject => return (⟨db, s.jobs⟩, .finished none)

section
variable [JsText.Runtime]

/-- the next statement of a delivery, of a sweep or of a demo run -/
def stepAs (simulation : Option Simulation) (d : Database) (draw : StepDraw) : Task → Option Outcome
  | .decide candidate rest =>
    (decideCandidate d.system candidate simulation draw.decisionId draw.now).map fun (system, phase) =>
      ⟨{ d with system := system }, Ingestion.afterStatement phase rest, none⟩
  | task => task.step d draw

/-- **Without a demo run it is the statement of a delivery or a sweep.** -/
theorem stepAs_none (d : Database) (draw : StepDraw) (task : Task) : stepAs none d draw task = task.step d draw := by
  cases task with
  | decide candidate rest => rfl
  | _ => rfl

end

/-! ## steps -/

structure Grid (π : Type*) where
  world : World
  evidence : OrderedMap String EvidenceEvent
  task : π → Task

inductive Action (π : Type*) where
  /-- the delivery, the sweep or the demo run `p` sends its next statement -/
  | task (p : π) (draw : StepDraw)
  /-- a queued job reaches the worker, and its agents answer or fail -/
  | deliver (job : AgentReviewJob) (replies : Except String (Analysis × Verification)) (decisionId : String)
      (now : IsoDate)
  | review (decisionId : String) (reviewDecision : ReviewDecision) (note : String) (now : IsoDate)
  /-- an operation or a sweep of the relayer goes on, or the chain does -/
  | relay (a : World.Action)

namespace Grid

variable {π : Type*}

def database (g : Grid π) : Database := ⟨g.evidence, g.world.system⟩

def act (g : Grid π) (a : World.Action) : Option (Grid π) := (g.world.next a).map fun world => { g with world := world }

theorem act_eq_some {g g' : Grid π} {a : World.Action} (h : g.act a = some g') :
    ∃ w, g.world.next a = some w ∧ { g with world := w } = g' := Option.map_eq_some_iff.mp h

section
variable [JsText.Runtime] [DecidableEq π]

/-- the statement of the process `p` has left `o` -/
def after (g : Grid π) (p : π) (o : Outcome) : Grid π :=
  ⟨{ g.world with system := o.database.system }, o.database.evidence, Function.update g.task p o.task⟩

/-- `simulation p` is what the process `p` runs for, if it is a demo run -/
def next (simulation : π → Option Simulation) (g : Grid π) : Action π → Option (Grid π)
  | .task p draw => (stepAs (simulation p) g.database draw (g.task p)).map (g.after p)
  | .deliver job replies decisionId now =>
    g.act (.operation (.deliver job (Pipeline.orchestrateCandidateReview replies) decisionId now))
  | .review decisionId reviewDecision note now => g.act (.operation (.review decisionId reviewDecision note now))
  | .relay (.operation _) => none
  | .relay a => g.act a

/-- nothing is stored, and the contract is new -/
def start (zones : Zones) (attestation : UptimeAttestation.Attestation) (task : π → Task) : Grid π :=
  ⟨World.start zones attestation, .empty, task⟩

end

end Grid

end Provenance
