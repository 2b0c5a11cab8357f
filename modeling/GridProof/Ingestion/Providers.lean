import GridProof.Ingestion.Demo

/-!
# The providers that evidence comes from

In database mode registration and ingestion send the same upsert to `providers`.  Ingestion sends it for
whatever wallet, zone and source a submission carries, before it stores the evidence.

* `registerProvider`        the registration endpoint, with its audit log;
* `submit`                  a telemetry, report or webhook submission that passed the middlewares;
* `submit_leaves_iff`       it leaves the registrations iff its wallet is new or registered as it says;
* `registrations_stand_iff` the same for every submission of a sequence; where they all leave them, only the
                            registration endpoint changes a row.
-/

namespace Ingestion

/-- a row of `providers` -/
structure ProviderRow where
  id : String
  userId : Option String
  walletAddress : String
  providerType : EvidenceSource
  zoneId : String
  reputationCache : Int
  active : Bool
deriving DecidableEq

abbrev Providers := Table ProviderRow ProviderRow.id ProviderRow.walletAddress

/-- what a registration says of a provider -/
def registration (row : ProviderRow) : EvidenceSource × String × Bool :=
  (row.providerType, row.zoneId, row.active)

structure ProviderAudit where
  actorUserId : Option String
  subjectProviderId : String
  action : String
  before : Option ProviderRow
  after : ProviderRow

structure Backend where
  providers : Providers
  audits : List ProviderAudit
  database : Database

/-! ## statements -/

def setRegistration (providerType : EvidenceSource) (zoneId : String) (row : ProviderRow) : ProviderRow :=
  { row with providerType := providerType, zoneId := zoneId, active := true }

def newProvider (id walletAddress : String) (providerType : EvidenceSource) (zoneId : String) :
    ProviderRow where
  id := id
  userId := none
  walletAddress := walletAddress
  providerType := providerType
  zoneId := zoneId
  reputationCache := 0
  active := true

/-- `insert into providers .. on conflict (wallet_address) do update .. returning`; `id` is the random id -/
def upsertProvider (t : Providers) (id walletAddress : String) (providerType : EvidenceSource)
    (zoneId : String) : Option (Providers × ProviderRow) :=
  let row := newProvider id walletAddress providerType (uuid zoneId)
  let update := setRegistration providerType (uuid zoneId)
  (t.upsert row update (fun _ => rfl) (fun _ => rfl)).map fun providers =>
    (providers, t.stored row update)

section
variable [JsText.Runtime]

/-! ## registration -/

structure RegisterProviderRequest where
  walletAddress : String
  providerType : EvidenceSource
  zoneId : String

structure RegisterProviderResult where
  provider : ProviderRow
  duplicate : Bool

def auditProviderRegistration (provider : ProviderRow) (actorUserId : Option String)
    (before : Option ProviderRow) : ProviderAudit where
  actorUserId := actorUserId
  subjectProviderId := provider.id
  action := if before.isSome then "provider.registration_updated" else "provider.registered"
  before := before
  after := provider

/-- the database branch; `none` if the upsert fails -/
def registerProvider (b : Backend) (input : RegisterProviderRequest) (actorUserId : Option String)
    (id : String) : Backend × Option RegisterProviderResult :=
  let walletAddress := JsText.toLowerCase input.walletAddress
  let before := b.providers.find? walletAddress
  match upsertProvider b.providers id walletAddress input.providerType input.zoneId with
  | none => (b, none)
  | some (providers, provider) =>
    let duplicate := before.any fun before => registration before = registration provider
    let audits :=
      if duplicate then b.audits
      else b.audits ++ [auditProviderRegistration provider actorUserId before]
    ({ b with providers := providers, audits := audits }, some ⟨provider, duplicate⟩)

/-! ## submissions -/

/-- the wallet of the provider, as the body has it -/
def Request.wallet : Request → String
  | .telemetry input => input.providerWallet
  | .report input => input.reporterWallet
  | .webhook input => input.reporterWallet

def Request.source : Request → EvidenceSource
  | .telemetry _ => .sensor
  | .report _ => .reporter
  | .webhook _ => .reporter

/-- the id of the provider's row -/
def ensureProvider (t : Providers) (walletAddress : String) (providerType : EvidenceSource)
    (zoneId id : String) : Option (Providers × String) :=
  (upsertProvider t id (JsText.toLowerCase walletAddress) providerType zoneId).map fun answer =>
    (answer.1, answer.2.id)

/-- a pipeline that fails leaves the evidence -/
def publishIngestResult (d : Database) (result : Option IngestStoreResult) (draw : LabDraw) : Database :=
  match result.bind IngestStoreResult.starts with
  | none => d
  | some candidate =>
    match runPipeline d.system candidate none draw.decisionId draw.now with
    | none => d
    | some system => { d with system := system }

/-- the provider first, then the evidence and the pipeline -/
def submit (b : Backend) (r : Request) (draw : LabDraw) : Backend :=
  match ensureProvider b.providers r.wallet r.source r.zoneId draw.providerId with
  | none => b
  | some (providers, providerId) =>
    let stored := upsertDatabaseEvidence b.database (databaseInput (r, draw.toDraw))
      { draw.toDraw with providerId := providerId }
    { b with
      providers := providers
      database := publishIngestResult stored.1 stored.2 draw }

inductive Step where
  | register (input : RegisterProviderRequest) (actorUserId : Option String) (id : String)
  | submit (r : Request) (draw : LabDraw)

def Backend.next (b : Backend) : Step → Backend
  | .register input actorUserId id => (registerProvider b input actorUserId id).1
  | .submit r draw => Ingestion.submit b r draw

def Backend.after (b : Backend) (steps : List Step) : Backend := steps.foldl Backend.next b

/-! ## what a statement does to the registrations -/

/-- every row of `t` is in `t'` with the same registration -/
def Leaves (t t' : Providers) : Prop :=
  ∀ row ∈ t.rows, ∃ row' ∈ t'.rows, row'.id = row.id ∧ row'.walletAddress = row.walletAddress ∧
    registration row' = registration row

/-- the wallet of the submission is new, or registered as the submission says -/
def Agrees (t : Providers) (r : Request) : Prop :=
  ∀ row, t.find? (JsText.toLowerCase r.wallet) = some row →
    registration row = (r.source, uuid r.zoneId, true)

omit [JsText.Runtime] in
theorem Leaves.refl (t : Providers) : Leaves t t := fun row hrow => ⟨row, hrow, rfl, rfl, rfl⟩

section
omit [JsText.Runtime]
variable {t t' : Providers} {id walletAddress zoneId : String} {providerType : EvidenceSource}
  {row stored : ProviderRow}

theorem upsertProvider_puts
    (h : upsertProvider t id walletAddress providerType zoneId = some (t', stored)) :
    t.Puts t' stored ∧ stored = t.stored (newProvider id walletAddress providerType (uuid zoneId))
      (setRegistration providerType (uuid zoneId)) := by
  obtain ⟨t'', ht, he⟩ := Option.map_eq_some_iff.mp h
  obtain ⟨rfl, rfl⟩ := Prod.mk.inj he
  exact ⟨Table.upsert_puts ht, rfl⟩

theorem stored_of_find?
    (h : upsertProvider t id walletAddress providerType zoneId = some (t', stored))
    (hrow : t.find? walletAddress = some row) :
    stored = setRegistration providerType (uuid zoneId) row := by
  rw [(upsertProvider_puts h).2]
  unfold Table.stored
  have hfind : t.find? (newProvider id walletAddress providerType (uuid zoneId)).walletAddress =
      some row := hrow
  rw [hfind]

/-- a row of another wallet stays as it is -/
theorem upsertProvider_of_ne
    (h : upsertProvider t id walletAddress providerType zoneId = some (t', stored))
    (hrow : row ∈ t.rows) (hne : row.walletAddress ≠ walletAddress) : row ∈ t'.rows := by
  obtain ⟨hputs, hstored⟩ := upsertProvider_puts h
  have hkey : stored.walletAddress = walletAddress := by
    rw [hstored]
    exact Table.stored_key fun _ => rfl
  refine hputs.of_ne hrow ?_
  rw [hkey]
  exact hne

theorem upsertProvider_leaves_iff
    (h : upsertProvider t id walletAddress providerType zoneId = some (t', stored)) :
    Leaves t t' ↔ ∀ row, t.find? walletAddress = some row →
      registration row = (providerType, uuid zoneId, true) := by
  have hputs : t.Puts t' stored := (upsertProvider_puts h).1
  constructor
  · intro hleaves row hrow
    have hstored := stored_of_find? h hrow
    obtain ⟨hmem, hwallet⟩ := Table.find?_eq_some.mp hrow
    obtain ⟨row', hrow', -, hwallet', hreg⟩ := hleaves row hmem
    rw [← hreg]
    rcases hputs.cases hrow' with ⟨-, hne⟩ | rfl
    · -- the row of the wallet is the one that was written
      refine absurd (hwallet'.trans ?_) hne
      rw [hstored]
      rfl
    · rw [hstored]
      rfl
  · intro hagree row hmem
    by_cases hwallet : row.walletAddress = walletAddress
    · have hrow : t.find? walletAddress = some row := Table.find?_eq_some.mpr ⟨hmem, hwallet⟩
      refine ⟨stored, hputs.self, ?_⟩
      rw [hagree row hrow, stored_of_find? h hrow]
      exact ⟨rfl, rfl, rfl⟩
    · exact ⟨row, upsertProvider_of_ne h hmem hwallet, rfl, rfl, rfl⟩

/-- the statement fails only where it inserts -/
theorem find?_of_upsertProvider_none
    (h : upsertProvider t id walletAddress providerType zoneId = none) :
    t.find? walletAddress = none := by
  have hup := Option.map_eq_none_iff.mp h
  unfold Table.upsert at hup
  split at hup
  · cases hup
  · rename_i hfind
    exact hfind

end

/-! ## what a request does to the registrations -/

/-- **A submission leaves the registrations iff its wallet is new or registered as it says.** -/
theorem submit_leaves_iff (b : Backend) (r : Request) (draw : LabDraw) :
    Leaves b.providers (submit b r draw).providers ↔ Agrees b.providers r := by
  unfold submit ensureProvider
  cases h : upsertProvider b.providers draw.providerId (JsText.toLowerCase r.wallet) r.source
    r.zoneId with
  | none =>
    refine iff_of_true (Leaves.refl _) fun row hrow => ?_
    rw [find?_of_upsertProvider_none h] at hrow
    cases hrow
  | some answer => exact upsertProvider_leaves_iff h

/-- a registration leaves the rows of other wallets -/
theorem registerProvider_of_ne {b : Backend} {input : RegisterProviderRequest}
    {actorUserId : Option String} {id : String} {row : ProviderRow} (hrow : row ∈ b.providers.rows)
    (hne : JsText.toLowerCase input.walletAddress ≠ row.walletAddress) :
    row ∈ (registerProvider b input actorUserId id).1.providers.rows := by
  unfold registerProvider
  dsimp only
  cases h : upsertProvider b.providers id (JsText.toLowerCase input.walletAddress)
    input.providerType input.zoneId with
  | none => exact hrow
  | some answer => exact upsertProvider_of_ne h hrow hne.symm

/-! ## sequences of requests -/

theorem after_succ_step {b : Backend} {steps : List Step} {i : ℕ} {x : Step}
    (h : steps[i]? = some x) : b.after (steps.take (i + 1)) = (b.after (steps.take i)).next x := by
  unfold Backend.after
  rw [List.take_add_one, h, List.foldl_append]
  rfl

/-- a row stays registered as it was while no registration is about its wallet -/
theorem registered_since {b : Backend} {steps : List Step}
    (hleave : ∀ i r draw, steps[i]? = some (.submit r draw) →
      Leaves (b.after (steps.take i)).providers (b.after (steps.take (i + 1))).providers)
    {row : ProviderRow} (hrow : row ∈ b.providers.rows)
    (hno : ∀ input actorUserId id, .register input actorUserId id ∈ steps →
      JsText.toLowerCase input.walletAddress ≠ row.walletAddress) (n : ℕ) :
    ∃ row' ∈ (b.after (steps.take n)).providers.rows, row'.id = row.id ∧
      row'.walletAddress = row.walletAddress ∧ registration row' = registration row := by
  induction n with
  | zero => exact ⟨row, hrow, rfl, rfl, rfl⟩
  | succ n ih =>
    obtain ⟨row', hrow', hid, hwallet, hreg⟩ := ih
    cases hx : steps[n]? with
    | none =>
      rw [List.take_add_one, hx, Option.toList_none, List.append_nil]
      exact ⟨row', hrow', hid, hwallet, hreg⟩
    | some x =>
      cases x with
      | register input actorUserId id =>
        rw [after_succ_step hx]
        refine ⟨row', registerProvider_of_ne hrow' ?_, hid, hwallet, hreg⟩
        rw [hwallet]
        exact hno input actorUserId id (List.mem_of_getElem? hx)
      | submit r draw =>
        obtain ⟨row'', hrow'', hid', hwallet', hreg'⟩ := hleave n r draw hx row' hrow'
        exact ⟨row'', hrow'', hid'.trans hid, hwallet'.trans hwallet, hreg'.trans hreg⟩

/-- **All submissions of a sequence leave every existing row's type, zone and flag iff each names a wallet that is
new or registered as it says; and then only the registration endpoint changes a row.** -/
theorem registrations_stand_iff (b : Backend) (steps : List Step) :
    ((∀ i r draw, steps[i]? = some (.submit r draw) →
      Leaves (b.after (steps.take i)).providers (b.after (steps.take (i + 1))).providers) ↔
    ∀ i r draw, steps[i]? = some (.submit r draw) → Agrees (b.after (steps.take i)).providers r) ∧
    ((∀ i r draw, steps[i]? = some (.submit r draw) → Agrees (b.after (steps.take i)).providers r) →
      ∀ row ∈ b.providers.rows, (∀ input actorUserId id, .register input actorUserId id ∈ steps →
        JsText.toLowerCase input.walletAddress ≠ row.walletAddress) →
      ∃ row' ∈ (b.after steps).providers.rows, row'.id = row.id ∧
        row'.walletAddress = row.walletAddress ∧ registration row' = registration row) := by
  have hstep : ∀ i r draw, steps[i]? = some (.submit r draw) →
      (Leaves (b.after (steps.take i)).providers (b.after (steps.take (i + 1))).providers ↔
        Agrees (b.after (steps.take i)).providers r) := by
    intro i r draw hx
    rw [after_succ_step hx]
    exact submit_leaves_iff _ r draw
  constructor
  · exact ⟨fun h i r draw hx => (hstep i r draw hx).mp (h i r draw hx),
      fun h i r draw hx => (hstep i r draw hx).mpr (h i r draw hx)⟩
  · intro hagree row hrow hno
    have hsince := registered_since (fun i r draw hx => (hstep i r draw hx).mpr (hagree i r draw hx))
      hrow hno steps.length
    rwa [List.take_length] at hsince

end

/-! ## a submission that rewrites a registration -/

def Backend.empty : Backend := ⟨.empty, [], .empty⟩

def strayZone : String := "cccccccc-cccc-4ccc-8ccc-cccccccccccc"

/-- a report from another zone with the wallet of a registered reporter -/
def strayReport : ReporterIngestRequest where
  reporterWallet := "0x1111111111111111111111111111111111111111"
  zoneId := strayZone
  idempotencyKey := "stray"
  observedAt := sampleTime
  status := .gridDown
  note := none

def strayDraw : LabDraw where
  evidenceId := "evidence"
  providerId := "provider"
  candidateId := "candidate"
  now := sampleTime
  rank := fun _ => 0
  decisionId := "decision"
  gapIds := fun _ i => "gap " ++ toString i
  runId := "run"
  observedAt := sampleTime
  gapDecisionId := fun id => "decision on " ++ id

/-- a reporter is registered in one zone, and a report with its wallet comes from another -/
def straySteps : List Step :=
  [.register ⟨"0x1111111111111111111111111111111111111111", .reporter, sampleZone⟩ none "reporter",
    .submit (.report strayReport) strayDraw]

/-- **One report moves a registered reporter to another zone.** -/
theorem report_moves_reporter : letI := JsText.asciiRuntime
    (Backend.empty.after (straySteps.take 1)).providers.rows.map registration =
      [(.reporter, sampleZone, true)] ∧
    (Backend.empty.after (straySteps.take 2)).providers.rows.map registration =
      [(.reporter, strayZone, true)] ∧
    ¬ Leaves (Backend.empty.after (straySteps.take 1)).providers
      (Backend.empty.after (straySteps.take 2)).providers := by
  let _ := JsText.asciiRuntime
  have hbefore : (Backend.empty.after (straySteps.take 1)).providers.rows.map registration =
      [(.reporter, sampleZone, true)] := by decide +kernel
  have hafter : (Backend.empty.after (straySteps.take 2)).providers.rows.map registration =
      [(.reporter, strayZone, true)] := by decide +kernel
  refine ⟨hbefore, hafter, fun hleaves => ?_⟩
  -- the registration of the first state is none of the second
  have hmem : ((.reporter, sampleZone, true) : EvidenceSource × String × Bool) ∈
      (Backend.empty.after (straySteps.take 1)).providers.rows.map registration := by
    rw [hbefore]
    exact List.mem_singleton_self _
  obtain ⟨row, hrow, hreg⟩ := List.mem_map.mp hmem
  obtain ⟨row', hrow', -, -, hreg'⟩ := hleaves row hrow
  have hmem' := List.mem_map_of_mem (f := registration) hrow'
  rw [hafter, hreg', hreg] at hmem'
  exact absurd (List.mem_singleton.mp hmem') (by decide)

end Ingestion
