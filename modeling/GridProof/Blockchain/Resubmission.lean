import GridProof.Lib.Logged
import GridProof.Blockchain.WellFormed

/-!
# Commitments that are not submitted again

A submit sweep takes pending commitments without a hash.  A commitment that is pending with the hash of
a transaction that was indexed as reverted waits for nothing: an approval has made a failed commitment
pending again and has left its hash.

* `World.revertedHash`  what an index sweep stores as reverted;
* `World.Revives`       an approval makes the commitment with a hash pending;
* `Traced`              where the hashes are: a hash that is about to be stored is nowhere else;
* `alive_step_iff`      one action; `alive_iff` a run.
-/

namespace Pipeline

/-- the rows that an index sweep has read and not finished -/
def Process.indexed : Process → List SubmittedCommitmentRow
  | .indexing sweep => sweep.rows
  | .receipt row _ sweep => row :: sweep.rows
  | _ => []

theorem Process.indexed_indexing (sweep : IndexSweep) : (Process.indexing sweep).indexed = sweep.rows :=
  rfl

/-- the hash whose transaction the sweep is about to store as reverted -/
def Process.revertedHash : Process → Option String
  | .receipt row update _ => if update.status = .failed then some row.txHash else none
  | _ => none

/-- the score whose commitment the operation is about to store -/
def Process.committing : Process → Option EpochScore
  | .operation (.scored _ es _) => some es
  | _ => none

namespace World

/-- the hash whose transaction an action indexes as reverted -/
def revertedHash (w : World) : Action → Option String
  | .storeConfirmation i => w.processes[i]?.bind Process.revertedHash
  | _ => none

/-- the score whose commitment an action stores -/
def committing (w : World) : Action → Option EpochScore
  | .statement i => w.processes[i]?.bind Process.committing
  | _ => none

/-- the action stores the commitment that has the hash -/
def Revives (w : World) (a : Action) (txHash : String) : Prop :=
  ∃ es ∈ w.committing a, ∃ cc ∈ w.db.commitments.rows, cc.epochScoreId = es.id ∧ txHash ∈ cc.txHash

/-- the world and the hashes that were indexed as reverted -/
abbrev Indexed := World × List String

abbrev nextIndexed : Indexed → Action → Option Indexed := Runs.logged next revertedHash

/-- no pending commitment has a hash that was indexed as reverted -/
def Alive (s : Indexed) : Prop :=
  ∀ cc ∈ s.1.db.commitments.rows, cc.status = .pending → ∀ txHash ∈ cc.txHash, txHash ∉ s.2

def KeepsAlive (s : Indexed) (a : Action) : Prop :=
  ∀ es ∈ s.1.committing a, ∀ cc ∈ s.1.db.commitments.rows, cc.epochScoreId = es.id →
    ∀ txHash ∈ cc.txHash, txHash ∉ s.2

instance (s : Indexed) (a : Action) : Decidable (KeepsAlive s a) :=
  inferInstanceAs (Decidable (∀ es ∈ s.1.committing a, _))

/-! ## where a hash is -/

/-- the hash was stored: it is on a commitment, in a row of an index sweep, or was indexed as reverted -/
def Stored (s : Indexed) (txHash : String) : Prop :=
  (∃ cc ∈ s.1.db.commitments.rows, txHash ∈ cc.txHash) ∨
    (∃ p ∈ s.1.processes, ∃ row ∈ p.indexed, row.txHash = txHash) ∨ txHash ∈ s.2

/-- the row of an index sweep is of the epoch of its transaction -/
def RowTraced (w : World) (row : SubmittedCommitmentRow) : Prop :=
  ∃ t ∈ w.transactions.rows, t.hash = row.txHash ∧
    t.input.epoch = (commitInputFromPending row.toPendingCommitmentRow).epoch

/-- process `i` is about to store the hash -/
def Broadcasts (w : World) (i : Nat) (txHash : String) : Prop :=
  ∃ row sweep, w.processes[i]? = some (.broadcast row txHash sweep)

structure Traced (s : Indexed) : Prop where
  wf : s.1.Wf
  sent : ∀ txHash, Stored s txHash → ∃ t ∈ s.1.transactions.rows, t.hash = txHash
  commitments : ∀ cc ∈ s.1.db.commitments.rows, ∀ txHash ∈ cc.txHash,
    ∃ t ∈ s.1.transactions.rows, t.hash = txHash ∧ s.1.db.Names cc t.input.epoch
  rows : ∀ p ∈ s.1.processes, ∀ row ∈ p.indexed, s.1.RowTraced row
  settled : ∀ row update sweep, .receipt row update sweep ∈ s.1.processes → update.status ≠ .pending
  /-- a hash that is about to be stored was not stored before -/
  fresh : ∀ i txHash, s.1.Broadcasts i txHash → ¬ Stored s txHash
  unique : ∀ i j txHash, s.1.Broadcasts i txHash → s.1.Broadcasts j txHash → i = j

theorem getElem?_set {w : World} {i j : Nat} {p q : Process}
    (h : (w.set j p).processes[i]? = some q) :
    (i = j ∧ q = p) ∨ (i ≠ j ∧ w.processes[i]? = some q) := by
  have hset : (w.processes.set j p)[i]? = some q := h
  rw [List.getElem?_set] at hset
  split at hset
  · rename_i he
    split at hset
    · exact .inl ⟨he.symm, (Option.some.inj hset).symm⟩
    · cases hset
  · rename_i hne
    exact .inr ⟨Ne.symm hne, hset⟩

theorem getElem?_spawn {w : World} {i : Nat} {p q : Process}
    (h : (w.spawn p).processes[i]? = some q) : w.processes[i]? = some q ∨ q = p := by
  have happend : (w.processes ++ [p])[i]? = some q := h
  rw [List.getElem?_append] at happend
  split at happend
  · exact .inl happend
  · exact .inr (List.mem_singleton.mp (List.mem_of_getElem? happend))

theorem broadcasts_set {w : World} {i j : Nat} {p : Process} {txHash : String}
    (h : (w.set j p).Broadcasts i txHash) :
    (i ≠ j ∧ w.Broadcasts i txHash) ∨ (i = j ∧ ∃ row sweep, p = .broadcast row txHash sweep) := by
  obtain ⟨row, sweep, hi⟩ := h
  rcases getElem?_set hi with ⟨rfl, rfl⟩ | ⟨hne, hold⟩
  · exact .inr ⟨rfl, row, sweep, rfl⟩
  · exact .inl ⟨hne, row, sweep, hold⟩

theorem broadcasts_spawn {w : World} {i : Nat} {p : Process} {txHash : String}
    (h : (w.spawn p).Broadcasts i txHash) (hp : ∀ row sweep, p ≠ .broadcast row txHash sweep) :
    w.Broadcasts i txHash := by
  obtain ⟨row, sweep, hi⟩ := h
  rcases getElem?_spawn hi with hold | rfl
  · exact ⟨row, sweep, hold⟩
  · exact absurd rfl (hp row sweep)

/-- a hash that is about to be stored was about to be stored, and is not stored now, or it is new -/
theorem Effect.broadcasts {w w' : World} {a : Action} (h : w.Effect a w') {i : Nat} {txHash : String}
    (hi : w'.Broadcasts i txHash) : (w.Broadcasts i txHash ∧ a ≠ .storeTxHash i) ∨
      (a = .commitEpoch i (.accepted txHash) ∧ ∀ t ∈ w.transactions.rows, t.hash ≠ txHash) := by
  have hset {v : World} {j : Nat} {p : Process} (hv : v.processes = w.processes)
      (hi : (v.set j p).Broadcasts i txHash) (hp : ∀ row sweep, p ≠ .broadcast row txHash sweep) :
      i ≠ j ∧ w.Broadcasts i txHash := by
    rcases broadcasts_set hi with ⟨hne, hold⟩ | ⟨-, row, sweep, rfl⟩
    · exact ⟨hne, by unfold Broadcasts at *; rwa [hv] at hold⟩
    · exact absurd rfl (hp row sweep)
  cases h with
  | operation op => exact .inl ⟨broadcasts_spawn hi fun _ _ => nofun, nofun⟩
  | submit now limit => exact .inl ⟨broadcasts_spawn hi fun _ _ => nofun, nofun⟩
  | index limit => exact .inl ⟨broadcasts_spawn hi fun _ _ => nofun, nofun⟩
  | @accepted j row sweep sweep' t transactions hj hrows hinput hstatus h =>
    rcases broadcasts_set hi with ⟨-, hold⟩ | ⟨rfl, row', sweep'', he⟩
    · exact .inl ⟨hold, nofun⟩
    · cases he
      exact .inr ⟨rfl, (Table.insert_eq_some h).2.1⟩
  | @storeTxHash j row hash sweep sweep' hj hrows =>
    obtain ⟨hne, hold⟩ := hset rfl hi fun _ _ => nofun
    exact .inl ⟨hold, fun he => hne (Action.storeTxHash.inj he).symm⟩
  | mined ht hpending h => exact .inl ⟨hi, nofun⟩
  | admin h => exact .inl ⟨hi, nofun⟩
  | _ => exact .inl ⟨(hset rfl hi fun _ _ => nofun).2, nofun⟩

/-- a hash of a commitment was there before or is stored now -/
theorem Effect.hashes {w w' : World} {a : Action} (hw : w.Wf) (h : w.Effect a w')
    {cc' : ChainCommitment} (hcc' : cc' ∈ w'.db.commitments.rows) {txHash : String}
    (htx : txHash ∈ cc'.txHash) : ∃ cc ∈ w.db.commitments.rows, cc.id = cc'.id ∧
      cc.epochScoreId = cc'.epochScoreId ∧ (txHash ∈ cc.txHash ∨ ∃ i row sweep, a = .storeTxHash i ∧
        w.processes[i]? = some (.broadcast row txHash sweep) ∧ cc.id = row.commitmentId) := by
  rcases h.commitments hw hcc' with ⟨cc, hcc, heff⟩ | ⟨hnone, -, -⟩
  · obtain ⟨hsame, hscore⟩ := heff.keeps
    refine ⟨cc, hcc, hsame.symm, hscore.symm, ?_⟩
    cases heff with
    | same => exact .inl htx
    | pending => exact .inl htx
    | submitted hi hid =>
      obtain rfl := Option.some.inj htx
      exact .inr ⟨_, _, _, rfl, hi, hid⟩
    | failed hi hid => exact .inl htx
    | confirmed hi hid => exact .inl htx
  · rw [hnone] at htx
    cases htx

/-- a row of an index sweep was there before or has just been selected -/
theorem Effect.indexed {w w' : World} {a : Action} (h : w.Effect a w') {p' : Process}
    (hp' : p' ∈ w'.processes) {row : SubmittedCommitmentRow} (hrow : row ∈ p'.indexed) :
    (∃ p ∈ w.processes, row ∈ p.indexed) ∨ ∃ limit, row ∈ selectSubmitted w.db limit := by
  cases h with
  | operation op =>
    rcases mem_spawn hp' with hold | rfl
    · exact .inl ⟨p', hold, hrow⟩
    · cases hrow
  | submit now limit =>
    rcases mem_spawn hp' with hold | rfl
    · exact .inl ⟨p', hold, hrow⟩
    · cases hrow
  | index limit =>
    rcases mem_spawn hp' with hold | rfl
    · exact .inl ⟨p', hold, hrow⟩
    · exact .inr ⟨limit, hrow⟩
  | noReceipt hi hrows =>
    rcases mem_set hp' with hold | rfl
    · exact .inl ⟨p', hold, hrow⟩
    · refine .inl ⟨_, List.mem_of_getElem? hi, ?_⟩
      rw [Process.indexed_indexing, hrows]
      exact List.mem_cons_of_mem _ hrow
  | receipt hi hrows hanswers hupdate =>
    rcases mem_set hp' with hold | rfl
    · exact .inl ⟨p', hold, hrow⟩
    · refine .inl ⟨_, List.mem_of_getElem? hi, ?_⟩
      rw [Process.indexed_indexing, hrows]
      exact hrow
  | storeConfirmation hi hrows =>
    rcases mem_set hp' with hold | rfl
    · exact .inl ⟨p', hold, hrow⟩
    · refine .inl ⟨_, List.mem_of_getElem? hi, List.mem_cons_of_mem _ ?_⟩
      rw [← hrows]
      exact hrow
  | mined ht hpending h => exact .inl ⟨p', hp', hrow⟩
  | admin h => exact .inl ⟨p', hp', hrow⟩
  | _ =>
    rcases mem_set hp' with hold | rfl
    · exact .inl ⟨p', hold, hrow⟩
    · cases hrow

theorem revertedHash_eq_some {w : World} {a : Action} {txHash : String}
    (h : w.revertedHash a = some txHash) : ∃ i row update sweep, a = .storeConfirmation i ∧
      w.processes[i]? = some (.receipt row update sweep) ∧ update.status = .failed ∧
      row.txHash = txHash := by
  cases a with
  | storeConfirmation i =>
    obtain ⟨p, hi, hp⟩ := Option.bind_eq_some_iff.mp h
    cases p with
    | receipt row update sweep =>
      obtain ⟨hfailed, htx⟩ := Option.ite_none_right_eq_some.mp hp
      exact ⟨i, row, update, sweep, rfl, hi, hfailed, Option.some.inj htx⟩
    | _ => cases hp
  | _ => cases h

/-- a hash that is stored after an action was stored before, or a sweep stores it now -/
theorem Effect.stored {w w' : World} {a : Action} {log : List String} (hw : w.Wf)
    (h : w.Effect a w') {txHash : String}
    (hstored : Stored (w', (w.revertedHash a).toList ++ log) txHash) :
    Stored (w, log) txHash ∨ ∃ i, a = .storeTxHash i ∧ w.Broadcasts i txHash := by
  rcases hstored with ⟨cc', hcc', htx⟩ | ⟨p', hp', row, hrow, htx⟩ | hlog
  · obtain ⟨cc, hcc, -, -, hold | ⟨i, row, sweep, ha, hi, -⟩⟩ := h.hashes hw hcc' htx
    · exact .inl (.inl ⟨cc, hcc, hold⟩)
    · exact .inr ⟨i, ha, row, sweep, hi⟩
  · rcases h.indexed hp' hrow with ⟨p, hp, hold⟩ | ⟨limit, hselected⟩
    · exact .inl (.inr (.inl ⟨p, hp, row, hold, htx⟩))
    · obtain ⟨cc, hcc, _, _, -, -, -, hhash⟩ := of_mem_selectSubmitted hselected
      exact .inl (.inl ⟨cc, hcc, htx ▸ hhash⟩)
  · rcases List.mem_append.mp hlog with hnew | hold
    · obtain ⟨i, row, update, sweep, -, hi, -, htx⟩ := revertedHash_eq_some (Option.mem_toList.mp hnew)
      exact .inl (.inr (.inl ⟨_, List.mem_of_getElem? hi, row, List.mem_cons_self, htx⟩))
    · exact .inl (.inr (.inr hold))

theorem confirmationUpdate_settled {receipt : Option ChainTransactionReceipt}
    {explorerBaseUrl : Option String} {now : IsoDate} {update : ConfirmationUpdate}
    (h : confirmationUpdateFromReceipt receipt explorerBaseUrl now = some update) :
    update.status ≠ .pending := by
  simp only [confirmationUpdateFromReceipt, Option.bind_eq_bind, Option.bind_eq_some_iff] at h
  obtain ⟨r, -, code, -, h⟩ := h
  cases h
  dsimp only
  split
  · decide
  · decide

/-- a process holds a receipt since before, or its update was just made of one -/
theorem Effect.settled_receipt {w w' : World} {a : Action} (h : w.Effect a w')
    {row : SubmittedCommitmentRow} {update : ConfirmationUpdate} {sweep : IndexSweep}
    (hp : .receipt row update sweep ∈ w'.processes) :
    .receipt row update sweep ∈ w.processes ∨ update.status ≠ .pending := by
  cases h with
  | operation op => exact .inl ((mem_spawn hp).resolve_right nofun)
  | submit now limit => exact .inl ((mem_spawn hp).resolve_right nofun)
  | index limit => exact .inl ((mem_spawn hp).resolve_right nofun)
  | receipt hi hrows hanswers hupdate =>
    rcases mem_set hp with hold | hnew
    · exact .inl hold
    · cases hnew
      exact .inr (confirmationUpdate_settled hupdate)
  | mined ht hpending h => exact .inl hp
  | admin h => exact .inl hp
  | _ => exact .inl ((mem_set hp).resolve_right nofun)

theorem Persists.rowTraced {w w' : World} (h : w.Persists w') {row : SubmittedCommitmentRow}
    (hrow : w.RowTraced row) : w'.RowTraced row := by
  obtain ⟨t, ht, hhash, hepoch⟩ := hrow
  obtain ⟨t', ht', hhash', hinput, -⟩ := h.transactions t ht
  exact ⟨t', ht', hhash'.trans hhash, hinput ▸ hepoch⟩

/-- **Every action keeps the hashes where they belong.** -/
theorem Traced.next {s s' : Indexed} {a : Action} (hs : Traced s) (h : nextIndexed s a = some s') :
    Traced s' := by
  obtain ⟨w, log⟩ := s
  obtain ⟨w', log'⟩ := s'
  obtain ⟨hnext, rfl⟩ := Runs.logged_eq_some h
  have heff := next_effect hnext
  have hpers := heff.persists hs.wf.system
  have hsent {txHash : String} (hold : ∃ t ∈ w.transactions.rows, t.hash = txHash) :
      ∃ t ∈ w'.transactions.rows, t.hash = txHash := by
    obtain ⟨t, ht, hhash⟩ := hold
    obtain ⟨t', ht', hhash', -⟩ := hpers.transactions t ht
    exact ⟨t', ht', hhash'.trans hhash⟩
  -- the transaction of a hash that is about to be stored
  have hbroadcast {i : Nat} {txHash : String} (hi : w.Broadcasts i txHash) :
      ∃ t ∈ w.transactions.rows, t.hash = txHash := by
    obtain ⟨row, sweep, hi⟩ := hi
    obtain ⟨-, ⟨t, ht, hhash, -⟩, -⟩ := hs.wf.knows _ (List.mem_of_getElem? hi)
    exact ⟨t, ht, hhash⟩
  refine ⟨heff.wf hs.wf, fun txHash hstored => ?_, fun cc' hcc' txHash htx => ?_,
    fun p' hp' row hrow => ?_, fun row update sweep hp => ?_, fun i txHash hi hstored => ?_,
    fun i j txHash hi hj => ?_⟩
  · rcases heff.stored hs.wf hstored with hold | ⟨i, -, hi⟩
    · exact hsent (hs.sent txHash hold)
    · exact hsent (hbroadcast hi)
  · obtain ⟨cc, hcc, hid, hscore, hold | ⟨i, row, sweep, -, hi, hrow⟩⟩ := heff.hashes hs.wf hcc' htx
    · obtain ⟨t, ht, hhash, hnames⟩ := hs.commitments cc hcc txHash hold
      obtain ⟨t', ht', hhash', hinput, -⟩ := hpers.transactions t ht
      exact ⟨t', ht', hhash'.trans hhash, hinput ▸ hpers.names hscore.symm hnames⟩
    · obtain ⟨⟨cc₀, hcc₀, hid₀, hnames⟩, ⟨t, ht, hhash, hinput⟩, -⟩ :=
        hs.wf.knows _ (List.mem_of_getElem? hi)
      obtain rfl := Table.eq_of_id hcc hcc₀ (hrow.trans hid₀.symm)
      obtain ⟨t', ht', hhash', hinput', -⟩ := hpers.transactions t ht
      refine ⟨t', ht', hhash'.trans hhash, hpers.names hscore.symm ?_⟩
      rw [hinput', hinput]
      exact hnames
  · rcases heff.indexed hp' hrow with ⟨p, hp, hold⟩ | ⟨limit, hselected⟩
    · exact hpers.rowTraced (hs.rows p hp row hold)
    · obtain ⟨cc, hcc, es, z, hjoin, hrow', -, hhash⟩ := of_mem_selectSubmitted hselected
      obtain ⟨t, ht, hthash, hnames⟩ := hs.commitments cc hcc row.txHash hhash
      refine hpers.rowTraced ⟨t, ht, hthash, ?_⟩
      rw [hrow']
      exact hnames.epoch_eq (Db.names_pendingRow hjoin)
  · rcases heff.settled_receipt hp with hold | hnew
    · exact hs.settled row update sweep hold
    · exact hnew
  · rcases heff.broadcasts hi with ⟨hold, hne⟩ | ⟨rfl, hnew⟩
    · rcases heff.stored hs.wf hstored with hstored | ⟨j, rfl, hj⟩
      · exact hs.fresh i txHash hold hstored
      · exact hne (congrArg Action.storeTxHash (hs.unique j i txHash hj hold))
    · rcases heff.stored hs.wf hstored with hstored | ⟨j, hj, -⟩
      · obtain ⟨t, ht, hhash⟩ := hs.sent txHash hstored
        exact hnew t ht hhash
      · cases hj
  · rcases heff.broadcasts hi with ⟨hi, -⟩ | ⟨hai, hnewi⟩
    · rcases heff.broadcasts hj with ⟨hj, -⟩ | ⟨-, hnewj⟩
      · exact hs.unique i j txHash hi hj
      · obtain ⟨t, ht, hhash⟩ := hbroadcast hi
        exact absurd hhash (hnewj t ht)
    · rcases heff.broadcasts hj with ⟨hj, -⟩ | ⟨haj, -⟩
      · obtain ⟨t, ht, hhash⟩ := hbroadcast hj
        exact absurd hhash (hnewi t ht)
      · exact (Action.commitEpoch.inj (hai.symm.trans haj)).1

theorem start_traced (zones : Zones) (attestation : UptimeAttestation.Attestation) :
    Traced (start zones attestation, []) := by
  have hnone {i : Nat} {txHash : String} : ¬ (start zones attestation).Broadcasts i txHash := by
    rintro ⟨row, sweep, hi⟩
    exact absurd (List.mem_of_getElem? hi) List.not_mem_nil
  refine ⟨start_wf zones attestation, fun txHash hstored => ?_,
    fun _ h => absurd h List.not_mem_nil, fun _ h => absurd h List.not_mem_nil,
    fun _ _ _ h => absurd h List.not_mem_nil, fun _ _ h => absurd h hnone,
    fun _ _ _ h => absurd h hnone⟩
  rcases hstored with ⟨_, h, -⟩ | ⟨_, h, -⟩ | h
  · exact absurd h List.not_mem_nil
  · exact absurd h List.not_mem_nil
  · exact absurd h List.not_mem_nil

/-! ## one action -/

theorem statement_commitments {s s' : System} {phase phase' : Phase} (hs : s.Wf)
    (h : statement s phase = some (s', phase')) (hp : (Process.operation phase).committing = none) :
    s'.db.commitments = s.db.commitments := by
  obtain ⟨-, htables⟩ := statement_tables hs h
  cases htables with
  | same _ hcommitments _ => exact hcommitments
  | score hcommitments _ _ _ _ => exact hcommitments
  | commitment _ _ _ => cases hp

theorem committing_eq_some {w : World} {a : Action} {es : EpochScore} (h : w.committing a = some es) :
    ∃ i c now, a = .statement i ∧ w.processes[i]? = some (.operation (.scored c es now)) := by
  cases a with
  | statement i =>
    obtain ⟨p, hi, hp⟩ := Option.bind_eq_some_iff.mp h
    cases p with
    | operation phase =>
      cases phase with
      | scored c es' now =>
        obtain rfl := Option.some.inj hp
        exact ⟨i, c, now, rfl, hi⟩
      | _ => cases hp
    | _ => cases hp
  | _ => cases h

/-- the commitment with the hash of an index sweep's row is the row's -/
theorem Traced.row_commitment {s : Indexed} (hs : Traced s) {p : Process} (hp : p ∈ s.1.processes)
    {row : SubmittedCommitmentRow} (hrow : row ∈ p.indexed)
    (hholds : s.1.Holds row.toPendingCommitmentRow) {cc : ChainCommitment}
    (hcc : cc ∈ s.1.db.commitments.rows) (htx : row.txHash ∈ cc.txHash) : cc.id = row.commitmentId := by
  obtain ⟨t, ht, hhash, hnames⟩ := hs.commitments cc hcc row.txHash htx
  obtain ⟨u, hu, huhash, hepoch⟩ := hs.rows p hp row hrow
  obtain rfl := Table.eq_of_id ht hu (hhash.trans huhash.symm)
  obtain ⟨cc₀, hcc₀, hid, hnames₀⟩ := hholds
  rw [hepoch] at hnames
  obtain rfl := hnames.eq hnames₀ hcc hcc₀
  exact hid

/-- an action that stores no commitment for a score keeps the commitments alive -/
theorem Effect.alive {w w' : World} {a : Action} {log : List String} (hs : Traced (w, log))
    (halive : Alive (w, log)) (h : w.Effect a w') (hnone : w.committing a = none) :
    Alive (w', (w.revertedHash a).toList ++ log) := by
  intro cc' hcc' hpending txHash htx
  cases h with
  | @statement i phase phase' system hi h =>
    have hphase : (Process.operation phase).committing = none := by
      have hbind : (w.processes[i]?.bind Process.committing) = none := hnone
      rw [hi] at hbind
      exact hbind
    have hsame := statement_commitments hs.wf.system h hphase
    exact halive cc' (hsame ▸ hcc') hpending txHash htx
  | storeTxHash hi hrows =>
    rcases mem_updateCommitment hcc' with ⟨hold, -⟩ | ⟨old, hold, hid, rfl⟩
    · exact halive cc' hold hpending txHash htx
    · -- the hash that is stored was not stored before, and so not indexed
      obtain rfl := Option.some.inj htx
      exact fun hlog => hs.fresh _ _ ⟨_, _, hi⟩ (.inr (.inr hlog))
  | markFailed hi =>
    rcases mem_updateCommitment hcc' with ⟨hold, -⟩ | ⟨old, hold, hid, rfl⟩
    · exact halive cc' hold hpending txHash htx
    · cases hpending
  | @storeConfirmation i row update sweep sweep' hi hrows =>
    have hp := List.mem_of_getElem? hi
    rcases mem_updateCommitment hcc' with ⟨hold, hne⟩ | ⟨old, hold, hid, rfl⟩
    · intro hlog
      rcases List.mem_append.mp hlog with hnew | hlog
      · obtain ⟨j, row', update', sweep'', hj, hi', -, rfl⟩ :=
          revertedHash_eq_some (Option.mem_toList.mp hnew)
        cases hj
        cases hi.symm.trans hi'
        exact hne (hs.row_commitment hp List.mem_cons_self (hs.wf.knows _ hp).1 hold htx)
      · exact halive cc' hold hpending txHash htx hlog
    · exact absurd hpending (hs.settled row update sweep hp)
  | _ => exact halive cc' hcc' hpending txHash htx

/-- the upsert of a commitment leaves the hash of the row in conflict -/
theorem stored_eq_overwrite {db : Db} {es : EpochScore} {now : IsoDate} {cc : ChainCommitment}
    (hcc : cc ∈ db.commitments.rows) (hid : cc.epochScoreId = es.id) :
    db.commitments.stored (pendingCommitmentForEpochScore es now)
      (pendingCommitmentForEpochScore es now).overwrite = { cc with status := .pending } := by
  have hfind : db.commitments.find? (pendingCommitmentForEpochScore es now).epochScoreId = some cc :=
    Table.find?_eq_some.mpr ⟨hcc, hid⟩
  unfold Table.stored
  rw [hfind]
  rfl

theorem mem_stored_hash {db : Db} {es : EpochScore} {now : IsoDate} {txHash : String}
    (h : txHash ∈ (db.commitments.stored (pendingCommitmentForEpochScore es now)
      (pendingCommitmentForEpochScore es now).overwrite).txHash) :
    ∃ old ∈ db.commitments.rows, old.epochScoreId = es.id ∧ txHash ∈ old.txHash := by
  unfold Table.stored at h
  split at h
  · rename_i old hfind
    obtain ⟨hold, hid⟩ := Table.find?_eq_some.mp hfind
    rw [ChainCommitment.overwrite_txHash] at h
    exact ⟨old, hold, hid, h⟩
  · cases h

/-- **An action keeps the commitments alive iff it does not make one pending whose transaction was
indexed as reverted.** -/
theorem alive_step_iff {s s' : Indexed} {a : Action} (hs : Traced s) (halive : Alive s)
    (h : nextIndexed s a = some s') : KeepsAlive s a ↔ Alive s' := by
  obtain ⟨w, log⟩ := s
  obtain ⟨w', log'⟩ := s'
  obtain ⟨hnext, rfl⟩ := Runs.logged_eq_some h
  have heff := next_effect hnext
  cases hc : w.committing a with
  | none =>
    refine iff_of_true (fun es hes => ?_) (heff.alive hs halive hc)
    rw [Option.mem_def, hc] at hes
    cases hes
  | some es =>
    obtain ⟨i, c, now, rfl, hi⟩ := committing_eq_some hc
    cases heff with
    | @statement _ phase phase' system hi' h =>
      cases hi.symm.trans hi'
      obtain ⟨-, -, ⟨commitment, hputs, hstored⟩, -⟩ := statement_scored h
      constructor
      · intro hok cc' hcc' hpending txHash htx
        rcases hputs.cases hcc' with ⟨hold, -⟩ | rfl
        · exact halive cc' hold hpending txHash htx
        · obtain ⟨old, hold, hid, htx⟩ := mem_stored_hash (hstored ▸ htx)
          exact hok es hc old hold hid txHash htx
      · intro halive' es' hes' cc hcc hid txHash htx hlog
        obtain rfl := Option.some.inj (hc.symm.trans hes')
        have hrevived : commitment = { cc with status := .pending } :=
          hstored.trans (stored_eq_overwrite hcc hid)
        refine halive' commitment hputs.self ?_ txHash ?_ hlog
        · rw [hrevived]
        · rw [hrevived]
          exact htx

/-! ## runs -/

/-- an index sweep of the run has stored the transaction as reverted -/
def IndexedAsReverted (s : World) (actions : List Action) (txHash : String) : Prop :=
  Runs.Reported next revertedHash s actions txHash

theorem mem_log_iff {s : World} {actions : List Action} {t : Indexed}
    (h : Runs.run nextIndexed (s, []) actions = some t) {txHash : String} :
    txHash ∈ t.2 ↔ IndexedAsReverted s actions txHash :=
  (Runs.mem_log_iff h).trans (or_iff_right List.not_mem_nil)

/-- the condition on what was indexed, without the log -/
theorem along_keepsAlive_iff {s : World} {actions : List Action} :
    Runs.Along nextIndexed KeepsAlive (s, []) actions ↔ ∀ before a after u,
      actions = before ++ a :: after → Runs.run next s before = some u →
        ∀ txHash, u.Revives a txHash → ¬ IndexedAsReverted s before txHash := by
  rw [Runs.along_iff_forall]
  constructor
  · rintro h before a after u he hu txHash ⟨es, hes, cc, hcc, hid, htx⟩
    obtain ⟨log, hlog⟩ := (Runs.run_eq_some_iff revertedHash []).mp hu
    rw [← mem_log_iff hlog]
    exact h before a after _ he hlog es hes cc hcc hid txHash htx
  · intro h before a after t he ht es hes cc hcc hid txHash htx
    rw [mem_log_iff ht]
    exact h before a after t.1 he ((Runs.run_eq_some_iff revertedHash []).mpr ⟨t.2, ht⟩) txHash
      ⟨es, hes, cc, hcc, hid, htx⟩

/-- **In a run no pending commitment ever has the hash of a transaction that was indexed as reverted, iff
no approval stores a commitment that has such a hash.** -/
theorem alive_iff {zones : Zones} {attestation : UptimeAttestation.Attestation}
    {actions : List Action} {w : World}
    (hrun : Runs.run next (start zones attestation) actions = some w) :
    (∀ before a after u, actions = before ++ a :: after →
      Runs.run next (start zones attestation) before = some u → ∀ txHash, u.Revives a txHash →
        ¬ IndexedAsReverted (start zones attestation) before txHash) ↔
    ∀ before after u, actions = before ++ after →
      Runs.run next (start zones attestation) before = some u → ∀ cc ∈ u.db.commitments.rows,
        cc.status = .pending → ∀ txHash ∈ cc.txHash,
          ¬ IndexedAsReverted (start zones attestation) before txHash := by
  obtain ⟨log, hlog⟩ := (Runs.run_eq_some_iff revertedHash []).mp hrun
  have halive : Alive (start zones attestation, []) := fun _ h => absurd h List.not_mem_nil
  rw [← along_keepsAlive_iff, Runs.along_iff_reached Traced (fun _ _ _ => Traced.next)
    (fun _ _ _ => alive_step_iff) (start_traced zones attestation) halive hlog]
  constructor
  · intro h before after u he hu cc hcc hpending txHash htx
    obtain ⟨log', hlog'⟩ := (Runs.run_eq_some_iff revertedHash []).mp hu
    rw [← mem_log_iff hlog']
    exact h before after _ he hlog' cc hcc hpending txHash htx
  · intro h before after t he ht cc hcc hpending txHash htx
    rw [mem_log_iff ht]
    exact h before after t.1 he ((Runs.run_eq_some_iff revertedHash []).mpr ⟨t.2, ht⟩) cc hcc hpending
      txHash htx

/-- the contract is paused before the transaction is mined, and an index sweep stores that it reverted -/
def revertedRun : List Action :=
  sampleApproval 0 (sampleRow "c1" .restored (9 / 10)) ++
    [.submit sampleLater 5, .commitEpoch 1 (.accepted "0x1"), .storeTxHash 1, .admin sampleMsg .pause,
      .mine "0x1" sampleMsg, .index 10,
      .getTransactionReceipt 2 (some ⟨"0x1", 7, TxStatus.reverted.code⟩) none sampleLater,
      .storeConfirmation 2]

theorem run_indexed_selected : Runs.run nextIndexed (sampleStart, [])
    (sampleApproval 0 (sampleRow "c1" .restored (9 / 10)) ++ [.submit sampleLater 5]) =
      some (sampleSelected, []) := by
  obtain ⟨log, hrun⟩ := (Runs.run_eq_some_iff revertedHash []).mp run_sampleSelected
  have hlog : (Runs.run nextIndexed (sampleStart, [])
      (sampleApproval 0 (sampleRow "c1" .restored (9 / 10)) ++ [.submit sampleLater 5])).map Prod.snd =
        some [] := by
    decide +kernel
  rw [hrun] at hlog ⊢
  obtain rfl : log = [] := Option.some.inj hlog
  rfl

theorem sampleSelected_nextIndexed :
    nextIndexed (sampleSelected, []) (.commitEpoch 1 (.accepted "0x1")) = some (sampleSent sampleSelected, []) := by
  unfold nextIndexed Runs.logged
  rw [sampleSent_next sampleSelected_process rfl]
  rfl

theorem run_indexed_sent (actions : List Action) : Runs.run nextIndexed (sampleStart, [])
    (sampleApproval 0 (sampleRow "c1" .restored (9 / 10)) ++
      .submit sampleLater 5 :: .commitEpoch 1 (.accepted "0x1") :: actions) =
    Runs.run nextIndexed (sampleSent sampleSelected, []) actions := by
  rw [← List.singleton_append, ← List.append_assoc, Runs.run_append, run_indexed_selected,
    Option.bind_some, Runs.run_cons, sampleSelected_nextIndexed, Option.bind_some]

theorem alive_iff_reverted : ∃ w, Runs.run next sampleStart revertedRun = some w ∧
    (∃ cc ∈ w.db.commitments.rows, cc.status = .failed ∧ cc.txHash = some "0x1") ∧
    ∀ before after u, revertedRun = before ++ after → Runs.run next sampleStart before = some u →
      ∀ cc ∈ u.db.commitments.rows, cc.status = .pending → ∀ txHash ∈ cc.txHash,
        ¬ IndexedAsReverted sampleStart before txHash := by
  have h : (Runs.run next sampleStart revertedRun).any (fun w => decide
      (∃ cc ∈ w.db.commitments.rows, cc.status = .failed ∧ cc.txHash = some "0x1")) = true := by
    rw [revertedRun, run_sampleSent]
    decide +kernel
  have hok : Runs.Along nextIndexed KeepsAlive (sampleStart, []) revertedRun := by
    rw [revertedRun, ← List.singleton_append, ← List.append_assoc]
    refine .append ?_ run_indexed_selected (.cons ?_ sampleSelected_nextIndexed ?_)
    · decide +kernel
    · decide +kernel
    · decide +kernel
  obtain ⟨w, hrun, h⟩ := (Option.any_eq_true _ _).mp h
  exact ⟨w, hrun, of_decide_eq_true h, (alive_iff hrun).mp (along_keepsAlive_iff.mp hok)⟩

/-- a second candidate of the hour is approved afterwards: the commitment is pending with the old hash -/
theorem dead_commitment : ∃ w, Runs.run next sampleStart
    (revertedRun ++ sampleApproval 3 (sampleRow "c2" .outage (9 / 10))) = some w ∧
    ∃ cc ∈ w.db.commitments.rows, cc.status = .pending ∧ cc.txHash = some "0x1" ∧
      IndexedAsReverted sampleStart
        (revertedRun ++ sampleApproval 3 (sampleRow "c2" .outage (9 / 10))) "0x1" := by
  have h : (Runs.run nextIndexed (sampleStart, [])
      (revertedRun ++ sampleApproval 3 (sampleRow "c2" .outage (9 / 10)))).any (fun t => decide
      ("0x1" ∈ t.2 ∧ ∃ cc ∈ t.1.db.commitments.rows, cc.status = .pending ∧ cc.txHash = some "0x1")) =
        true := by
    rw [revertedRun, List.append_assoc, List.cons_append, List.cons_append, run_indexed_sent]
    decide +kernel
  obtain ⟨t, hrun, h⟩ := (Option.any_eq_true _ _).mp h
  obtain ⟨hlog, cc, hcc, hpending, htx⟩ := of_decide_eq_true h
  refine ⟨t.1, (Runs.run_eq_some_iff revertedHash []).mpr ⟨t.2, hrun⟩, cc, hcc, hpending, htx, ?_⟩
  exact (mem_log_iff hrun).mp hlog

end World

end Pipeline
