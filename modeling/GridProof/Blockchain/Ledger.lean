import GridProof.Lib.WriteOnce
import GridProof.Blockchain.Attestation

/-!
# The attestation ledger as it is stored

The contract over its storage, where `epochs` is keyed by the hash of a packed pair.  A call that reverts
leaves the storage as it was; between any two calls the role table may change.

* `commitEpoch_elapsed_iff`  an epoch that is committed has elapsed iff its end fits 64 bits;
* `append_only`     what a `commitEpoch` writes is read forever, and nothing else is;
* `after_refines`   over keys that do not collide, the storage is the contract keyed by pairs.

`keccak256` of 40 bytes is a parameter.  As 40 bytes have more values than a hash, the results ask for no
collision among the keys that a run uses, never among all keys.
-/

namespace UptimeAttestation
open ReputationEscrow (Address Bytes32 Role)

/-! ## keys -/

/-- `abi.encodePacked(zoneId, epochStart)`: 32 bytes and 8 bytes -/
def encodePacked (zoneId : Bytes32) (epochStart : BitVec 64) : BitVec (8 * 40) :=
  zoneId ++ epochStart

theorem toNat_encodePacked (z : Bytes32) (e : BitVec 64) :
    (encodePacked z e).toNat = z.toNat * 2 ^ 64 + e.toNat := by
  unfold encodePacked
  rw [BitVec.toNat_append, ← Nat.shiftLeft_add_eq_or_of_lt e.isLt, Nat.shiftLeft_eq]

theorem encodePacked_inj {z z' : Bytes32} {e e' : BitVec 64}
    (h : encodePacked z e = encodePacked z' e') : z = z' ∧ e = e' := by
  have hnat := congrArg BitVec.toNat h
  rw [toNat_encodePacked, toNat_encodePacked] at hnat
  have he := e.isLt
  have he' := e'.isLt
  constructor
  · apply BitVec.eq_of_toNat_eq
    omega
  · apply BitVec.eq_of_toNat_eq
    omega

variable (keccak256 : BitVec (8 * 40) → Bytes32)

def epochKey (zoneId : Bytes32) (epochStart : BitVec 64) : Bytes32 :=
  keccak256 (encodePacked zoneId epochStart)

/-- `keccak256` tells the packed keys of these pairs apart -/
def NoCollision (pairs : List (Bytes32 × BitVec 64)) : Prop :=
  ∀ p ∈ pairs, ∀ q ∈ pairs,
    keccak256 (encodePacked p.1 p.2) = keccak256 (encodePacked q.1 q.2) →
    encodePacked p.1 p.2 = encodePacked q.1 q.2

instance (pairs : List (Bytes32 × BitVec 64)) : Decidable (NoCollision keccak256 pairs) :=
  decidable_of_iff ((pairs.all fun p => pairs.all fun q => decide
    (keccak256 (encodePacked p.1 p.2) = keccak256 (encodePacked q.1 q.2) →
      encodePacked p.1 p.2 = encodePacked q.1 q.2)) = true) (by
    unfold NoCollision
    simp only [List.all_eq_true, decide_eq_true_eq])

variable {keccak256} in
theorem NoCollision.epochKey_inj {pairs : List (Bytes32 × BitVec 64)}
    (h : NoCollision keccak256 pairs) {p q : Bytes32 × BitVec 64} (hp : p ∈ pairs) (hq : q ∈ pairs)
    (he : epochKey keccak256 p.1 p.2 = epochKey keccak256 q.1 q.2) : p = q := by
  obtain ⟨h1, h2⟩ := encodePacked_inj (h p hp q hq he)
  exact Prod.ext h1 h2

/-! ## the contract over its storage -/

structure Storage where
  epochDuration : BitVec 64
  paused : Bool
  epochs : Bytes32 → Epoch
  logs : List Event

namespace Storage

def deploy (initialEpochDuration : BitVec 64) : Except Error Storage :=
  if initialEpochDuration = 0 then .error .zeroEpochDuration
  else .ok ⟨initialEpochDuration, false, fun _ => .zero, []⟩

def setEpochDuration (s : Storage) (msg : Msg) (newDuration : BitVec 64) : Except Error Storage := do
  notPayable msg
  onlyRole msg .defaultAdmin
  require (newDuration != 0) .zeroEpochDuration
  return { s with
    epochDuration := newDuration
    logs := .epochDurationUpdated s.epochDuration newDuration :: s.logs }

def pause (s : Storage) (msg : Msg) : Except Error Storage := do
  notPayable msg
  onlyRole msg .pauser
  require (!s.paused) .enforcedPause
  return { s with paused := true }

def unpause (s : Storage) (msg : Msg) : Except Error Storage := do
  notPayable msg
  onlyRole msg .pauser
  require s.paused .expectedPause
  return { s with paused := false }

def getEpoch (s : Storage) (zoneId : Bytes32) (epochStart : BitVec 64) : Epoch :=
  s.epochs (epochKey keccak256 zoneId epochStart)

def isCommitted (s : Storage) (zoneId : Bytes32) (epochStart : BitVec 64) : Bool :=
  (s.epochs (epochKey keccak256 zoneId epochStart)).submittedBy != 0

def commitEpoch (s : Storage) (msg : Msg) (c : CommitEpoch) : Except Error Storage := do
  notPayable msg
  onlyRole msg .relayer
  require (!s.paused) .enforcedPause
  let key := epochKey keccak256 c.zoneId c.epochStart
  require ((s.epochs key).submittedBy == 0) (.epochAlreadyCommitted c.zoneId c.epochStart)
  require (isValidBps c.uptimeBps) (.invalidUptimeBps c.uptimeBps)
  require (isAlignedEpoch c.epochStart s.epochDuration) (.epochNotAligned c.epochStart s.epochDuration)
  require (isPastEpoch c.epochStart s.epochDuration (BitVec.ofNat 64 msg.timestamp))
    (.epochNotYetElapsed c.epochStart s.epochDuration msg.timestamp)
  return { s with
    epochs := Function.update s.epochs key
      ⟨c.zoneId, c.epochStart, c.uptimeBps, c.evidenceHash, msg.sender⟩
    logs := .epochCommitted c.zoneId c.epochStart c.uptimeBps c.evidenceHash :: s.logs }

end Storage

/-- a transaction to the contract; the role table's answers come with the message -/
inductive Call where
  | commitEpoch (c : CommitEpoch)
  | admin (call : AdminCall)
deriving DecidableEq

namespace Storage

def exec (s : Storage) (msg : Msg) : Call → Except Error Storage
  | .commitEpoch c => commitEpoch keccak256 s msg c
  | .admin (.setEpochDuration newDuration) => setEpochDuration s msg newDuration
  | .admin .pause => pause s msg
  | .admin .unpause => unpause s msg

/-- a call that reverts leaves the storage as it was -/
def next (s : Storage) (call : Msg × Call) : Storage :=
  match exec keccak256 s call.1 call.2 with
  | .ok s' => s'
  | .error _ => s

def after (s : Storage) (calls : List (Msg × Call)) : Storage := calls.foldl (next keccak256) s

/-- the hash of the packed keys of zone 1 that the examples use -/
def sampleKeccak256 (key : BitVec (8 * 40)) : Bytes32 :=
  if key = encodePacked 1 0 then
    0xcfa35e2921c9f000623187e323e5d528a05b83783c71ac60bb9f358b3766f67c
  else if key = encodePacked 1 3600 then
    0xcbccdd7fbfbfd4939bef31506acbaef675d90ab563c26ef7eebd2d336e48fffa
  else if key = encodePacked 1 18446744073709551600 then
    0x904152d45ceb33c01b1039625ccaeb6ee6febda7c7e4a98afe1516a023cdc3dd
  else 0

/-- a call by an account that has every role -/
def sampleMsg : Msg := ⟨1, ReputationEscrow.Address.one_ne_zero, 0, 1767276000, fun _ _ => true⟩

def sampleCommit (epochStart : BitVec 64) : CommitEpoch := ⟨1, epochStart, 9800, 5⟩

/-- the contract after its deployment with hourly epochs -/
def sampleStorage : Storage := ⟨3600, false, fun _ => .zero, []⟩

/-! ## what a call does -/

variable {keccak256}

theorem next_ok {s s' : Storage} {msg : Msg} {c : CommitEpoch}
    (h : commitEpoch keccak256 s msg c = .ok s') : next keccak256 s (msg, .commitEpoch c) = s' := by
  unfold next exec
  dsimp only
  rw [h]

/-- everything that a `commitEpoch` that does not revert has checked and written -/
theorem commitEpoch_eq_ok {s s' : Storage} {msg : Msg} {c : CommitEpoch}
    (h : commitEpoch keccak256 s msg c = .ok s') :
    msg.hasRole .relayer msg.sender = true ∧ s.paused = false ∧
    (s.epochs (epochKey keccak256 c.zoneId c.epochStart)).submittedBy = 0 ∧
    isValidBps c.uptimeBps = true ∧ isAlignedEpoch c.epochStart s.epochDuration = true ∧
    isPastEpoch c.epochStart s.epochDuration (BitVec.ofNat 64 msg.timestamp) = true ∧
    s'.epochs = Function.update s.epochs (epochKey keccak256 c.zoneId c.epochStart)
      ⟨c.zoneId, c.epochStart, c.uptimeBps, c.evidenceHash, msg.sender⟩ := by
  obtain ⟨_, -, h⟩ := Except.bind_eq_ok.mp h
  obtain ⟨_, hrole, h⟩ := Except.bind_eq_ok.mp h
  obtain ⟨_, hpaused, h⟩ := Except.bind_eq_ok.mp h
  obtain ⟨_, hfree, h⟩ := Except.bind_eq_ok.mp h
  obtain ⟨_, hbps, h⟩ := Except.bind_eq_ok.mp h
  obtain ⟨_, haligned, h⟩ := Except.bind_eq_ok.mp h
  obtain ⟨_, hpast, h⟩ := Except.bind_eq_ok.mp h
  cases h
  refine ⟨require_eq_ok hrole, ?_, ?_, require_eq_ok hbps, require_eq_ok haligned,
    require_eq_ok hpast, rfl⟩
  · have hp := require_eq_ok hpaused
    rwa [Bool.not_eq_true'] at hp
  · exact eq_of_beq (require_eq_ok hfree)

/-- **A committed epoch has elapsed, and its values are in range, iff its end fits 64 bits.** -/
theorem commitEpoch_elapsed_iff {s s' : Storage} {msg : Msg} {c : CommitEpoch}
    (hT : msg.timestamp < 2 ^ 64) (h : commitEpoch keccak256 s msg c = .ok s') :
    (c.uptimeBps.toNat ≤ 10000 ∧ 0 < s.epochDuration.toNat ∧
      s.epochDuration.toNat ∣ c.epochStart.toNat ∧
      c.epochStart.toNat + s.epochDuration.toNat ≤ msg.timestamp) ↔
    c.epochStart.toNat + s.epochDuration.toNat < 2 ^ 64 := by
  obtain ⟨-, -, -, hbps, haligned, hpast, -⟩ := commitEpoch_eq_ok h
  obtain ⟨hpos, hdvd⟩ := isAlignedEpoch_iff.mp haligned
  constructor
  · rintro ⟨-, -, -, hle⟩
    omega
  · intro hfits
    have hle := (isPastEpoch_iff hfits).mp hpast
    rw [BitVec.toNat_ofNat, Nat.mod_eq_of_lt hT] at hle
    exact ⟨isValidBps_iff.mp hbps, hpos, hdvd, hle⟩

theorem commitEpoch_elapsed_iff_first : deploy 3600 = .ok sampleStorage ∧
    ∃ s', commitEpoch sampleKeccak256 sampleStorage sampleMsg (sampleCommit 0) = .ok s' ∧
      (((sampleCommit 0).uptimeBps.toNat ≤ 10000 ∧ 0 < sampleStorage.epochDuration.toNat ∧
        sampleStorage.epochDuration.toNat ∣ (sampleCommit 0).epochStart.toNat ∧
        (sampleCommit 0).epochStart.toNat + sampleStorage.epochDuration.toNat ≤
          sampleMsg.timestamp) ↔
      (sampleCommit 0).epochStart.toNat + sampleStorage.epochDuration.toNat < 2 ^ 64) :=
  ⟨rfl, _, rfl, commitEpoch_elapsed_iff (by decide) (rfl : commitEpoch sampleKeccak256 sampleStorage
    sampleMsg (sampleCommit 0) = _)⟩

/-- the last aligned hour of the 64-bit range is committed in 2026: its end wraps to 3584 -/
theorem wrapped_end : deploy 3600 = .ok sampleStorage ∧
    ∃ s', commitEpoch sampleKeccak256 sampleStorage sampleMsg (sampleCommit 18446744073709551600) =
        .ok s' ∧
      sampleMsg.timestamp < 2 ^ 64 ∧
      ¬ (sampleCommit 18446744073709551600).epochStart.toNat + sampleStorage.epochDuration.toNat ≤
        sampleMsg.timestamp :=
  ⟨rfl, _, rfl, by decide, by decide⟩

/-! ## runs -/

/-- the call at place `i` of the run is a `commitEpoch` that succeeds -/
def CommitsAt (keccak256 : BitVec (8 * 40) → Bytes32) (s : Storage) (calls : List (Msg × Call))
    (i : ℕ) (msg : Msg) (c : CommitEpoch) : Prop :=
  calls[i]? = some (msg, .commitEpoch c) ∧
    ∃ s', commitEpoch keccak256 (after keccak256 s (calls.take i)) msg c = .ok s'

/-- the pairs of the run's `commitEpoch` calls -/
def pairs (calls : List (Msg × Call)) : List (Bytes32 × BitVec 64) :=
  calls.filterMap fun call =>
    match call.2 with
    | .commitEpoch c => some (c.zoneId, c.epochStart)
    | .admin _ => none

theorem mem_pairs {calls : List (Msg × Call)} {i : ℕ} {msg : Msg} {c : CommitEpoch}
    (h : calls[i]? = some (msg, .commitEpoch c)) : (c.zoneId, c.epochStart) ∈ pairs calls :=
  List.mem_filterMap.mpr ⟨_, List.mem_of_getElem? h, rfl⟩

theorem after_succ {s : Storage} {calls : List (Msg × Call)} {i : ℕ} {call : Msg × Call}
    (h : calls[i]? = some call) : after keccak256 s (calls.take (i + 1)) =
      next keccak256 (after keccak256 s (calls.take i)) call := by
  unfold after
  rw [List.take_add_one, h, List.foldl_append]
  rfl

theorem after_past {s : Storage} {calls : List (Msg × Call)} {i : ℕ} (h : calls[i]? = none) :
    after keccak256 s (calls.take (i + 1)) = after keccak256 s (calls.take i) := by
  unfold after
  rw [List.take_add_one, h, Option.toList_none, List.append_nil]

theorem next_admin_epochs (s : Storage) (msg : Msg) (call : AdminCall) :
    (next keccak256 s (msg, .admin call)).epochs = s.epochs := by
  unfold next
  split
  · rename_i s' h
    cases call with
    | setEpochDuration newDuration =>
      obtain rfl := Except.eq_of_checks h
      rfl
    | pause =>
      obtain rfl := Except.eq_of_checks h
      rfl
    | unpause =>
      obtain rfl := Except.eq_of_checks h
      rfl
  · rfl

/-- a step that commits to no pair of this key leaves the slot of the key as it was -/
theorem slot_succ {s : Storage} {calls : List (Msg × Call)} {key : Bytes32} {i : ℕ}
    (hno : ∀ msg c, CommitsAt keccak256 s calls i msg c →
      epochKey keccak256 c.zoneId c.epochStart ≠ key) :
    (after keccak256 s (calls.take (i + 1))).epochs key =
      (after keccak256 s (calls.take i)).epochs key := by
  cases hcall : calls[i]? with
  | none => rw [after_past hcall]
  | some call =>
    rw [after_succ hcall]
    obtain ⟨msg, call⟩ := call
    cases call with
    | admin call => rw [next_admin_epochs]
    | commitEpoch c =>
      unfold next
      split
      · rename_i s' h
        have hne := hno msg c ⟨hcall, s', h⟩
        obtain ⟨-, -, -, -, -, -, hepochs⟩ := commitEpoch_eq_ok h
        rw [hepochs]
        exact Function.update_of_ne hne.symm _ _
      · rfl

/-- the slot of a key is a register that is written once, whatever pairs share the key -/
theorem slot {initialEpochDuration : BitVec 64} {s : Storage} {calls : List (Msg × Call)}
    (key : Bytes32) (hs : deploy initialEpochDuration = .ok s) :
    WriteOnce.Register (fun n => (after keccak256 s (calls.take n)).epochs key)
      (fun e => e.submittedBy = 0)
      (fun i e => ∃ msg c, CommitsAt keccak256 s calls i msg c ∧
        epochKey keccak256 c.zoneId c.epochStart = key ∧
        e = ⟨c.zoneId, c.epochStart, c.uptimeBps, c.evidenceHash, msg.sender⟩) where
  start := by
    unfold deploy at hs
    split at hs
    · cases hs
    · cases hs
      rfl
  was_free := by
    rintro i e ⟨msg, c, ⟨-, s', h⟩, rfl, -⟩
    exact (commitEpoch_eq_ok h).2.2.1
  written := by
    rintro i e ⟨msg, c, ⟨hcall, s', h⟩, rfl, rfl⟩
    rw [after_succ hcall, next_ok h, (commitEpoch_eq_ok h).2.2.2.2.2.2]
    exact Function.update_self _ _ _
  taken := by
    rintro i e ⟨msg, c, -, -, rfl⟩
    exact msg.sender_ne
  unchanged := by
    intro i hno
    exact slot_succ fun msg c h he => hno _ ⟨msg, c, h, he, rfl⟩

/-- among the pairs of a run whose keys do not collide, a commit to the key of `p` commits `p` -/
theorem pair_of_key {s : Storage} {calls : List (Msg × Call)} {p : Bytes32 × BitVec 64} {i : ℕ}
    {msg : Msg} {c : CommitEpoch} (hK : NoCollision keccak256 (p :: pairs calls))
    (h : CommitsAt keccak256 s calls i msg c)
    (hkey : epochKey keccak256 c.zoneId c.epochStart = epochKey keccak256 p.1 p.2) :
    (c.zoneId, c.epochStart) = p :=
  hK.epochKey_inj (List.mem_cons_of_mem p (mem_pairs h.1)) List.mem_cons_self hkey

/-- the record of a pair is a register that is written once -/
theorem register {initialEpochDuration : BitVec 64} {s : Storage} {calls : List (Msg × Call)}
    {p : Bytes32 × BitVec 64} (hs : deploy initialEpochDuration = .ok s)
    (hK : NoCollision keccak256 (p :: pairs calls)) :
    WriteOnce.Register
      (fun n => (after keccak256 s (calls.take n)).epochs (epochKey keccak256 p.1 p.2))
      (fun e => e.submittedBy = 0)
      (fun i e => ∃ msg c, CommitsAt keccak256 s calls i msg c ∧ (c.zoneId, c.epochStart) = p ∧
        e = ⟨c.zoneId, c.epochStart, c.uptimeBps, c.evidenceHash, msg.sender⟩) := by
  have hslot := @slot keccak256 _ s calls (epochKey keccak256 p.1 p.2) hs
  refine ⟨hslot.start, ?_, ?_, ?_, ?_⟩
  · rintro i e ⟨msg, c, h, rfl, he⟩
    exact hslot.was_free i e ⟨msg, c, h, rfl, he⟩
  · rintro i e ⟨msg, c, h, rfl, he⟩
    exact hslot.written i e ⟨msg, c, h, rfl, he⟩
  · rintro i e ⟨msg, c, h, rfl, he⟩
    exact hslot.taken i e ⟨msg, c, h, rfl, he⟩
  · intro i hno
    refine hslot.unchanged i ?_
    rintro e ⟨msg, c, h, hkey, he⟩
    exact hno e ⟨msg, c, h, pair_of_key hK h hkey, he⟩

/-- **The ledger is append-only.**  In every run, for every pair: at most one call commits it; it is
committed from that call on and not before; its record is then forever what that call wrote, whose sender
had the relayer's role while the contract was not paused; and no other call touches its record. -/
theorem append_only {initialEpochDuration : BitVec 64} {s : Storage}
    (hs : deploy initialEpochDuration = .ok s) (calls : List (Msg × Call)) (zoneId : Bytes32)
    (epochStart : BitVec 64) (hK : NoCollision keccak256 ((zoneId, epochStart) :: pairs calls)) :
    (∀ i j msg msg' c c', CommitsAt keccak256 s calls i msg c → CommitsAt keccak256 s calls j msg' c' →
      (c.zoneId, c.epochStart) = (zoneId, epochStart) →
      (c'.zoneId, c'.epochStart) = (zoneId, epochStart) → i = j) ∧
    (∀ n, isCommitted keccak256 (after keccak256 s (calls.take n)) zoneId epochStart = true ↔
      ∃ i < n, ∃ msg c, CommitsAt keccak256 s calls i msg c ∧
        (c.zoneId, c.epochStart) = (zoneId, epochStart)) ∧
    (∀ i msg c, CommitsAt keccak256 s calls i msg c →
      (c.zoneId, c.epochStart) = (zoneId, epochStart) →
      msg.hasRole .relayer msg.sender = true ∧ (after keccak256 s (calls.take i)).paused = false ∧
      ∀ n > i, getEpoch keccak256 (after keccak256 s (calls.take n)) zoneId epochStart =
        ⟨zoneId, epochStart, c.uptimeBps, c.evidenceHash, msg.sender⟩) ∧
    (∀ i, (∀ msg c, CommitsAt keccak256 s calls i msg c →
        (c.zoneId, c.epochStart) ≠ (zoneId, epochStart)) →
      getEpoch keccak256 (after keccak256 s (calls.take (i + 1))) zoneId epochStart =
        getEpoch keccak256 (after keccak256 s (calls.take i)) zoneId epochStart) := by
  have hreg := register hs hK
  refine ⟨?_, ?_, ?_, ?_⟩
  · intro i j msg msg' c c' hi hj hc hc'
    exact hreg.once ⟨msg, c, hi, hc, rfl⟩ ⟨msg', c', hj, hc', rfl⟩
  · intro n
    rw [isCommitted, bne_iff_ne, Ne, hreg.taken_iff n]
    constructor
    · rintro ⟨i, hi, e, msg, c, hat, hc, -⟩
      exact ⟨i, hi, msg, c, hat, hc⟩
    · rintro ⟨i, hi, msg, c, hat, hc⟩
      exact ⟨i, hi, _, msg, c, hat, hc, rfl⟩
  · intro i msg c hat hc
    have hstays := fun n (hn : i < n) => hreg.stays ⟨msg, c, hat, hc, rfl⟩ hn
    obtain ⟨-, s', h⟩ := hat
    obtain ⟨hrole, hpaused, -⟩ := commitEpoch_eq_ok h
    refine ⟨hrole, hpaused, ?_⟩
    intro n hn
    obtain ⟨hz, he⟩ := Prod.mk.inj hc
    rw [getEpoch, hstays n hn, hz, he]
  · intro i hno
    unfold getEpoch
    exact slot_succ fun msg c h hkey => hno msg c h (pair_of_key hK h hkey)

/-- two hours of zone 1, with a second commit of the first one and a new duration in between -/
def sampleCalls : List (Msg × Call) :=
  [(sampleMsg, .commitEpoch (sampleCommit 0)), (sampleMsg, .admin (.setEpochDuration 1800)),
    (sampleMsg, .commitEpoch ⟨1, 0, 100, 6⟩), (sampleMsg, .admin .pause),
    (sampleMsg, .commitEpoch ⟨1, 3600, 7700, 7⟩), (sampleMsg, .admin .unpause),
    (sampleMsg, .commitEpoch ⟨1, 3600, 7800, 8⟩)]

theorem append_only_sample : NoCollision sampleKeccak256 ((1, 0) :: pairs sampleCalls) ∧
    ∀ n, isCommitted sampleKeccak256 (after sampleKeccak256 sampleStorage (sampleCalls.take n)) 1 0 =
        true ↔ ∃ i < n, ∃ msg c, CommitsAt sampleKeccak256 sampleStorage sampleCalls i msg c ∧
      (c.zoneId, c.epochStart) = (1, 0) := by
  have hK : NoCollision sampleKeccak256 ((1, 0) :: pairs sampleCalls) := by decide +kernel
  have hs : deploy 3600 = .ok sampleStorage := rfl
  exact ⟨hK, (append_only hs sampleCalls 1 0 hK).2.1⟩

end Storage

/-! ## the contract keyed by pairs -/

def Attestation.exec (t : Attestation) (msg : Msg) : Call → Except Error Attestation
  | .commitEpoch c => UptimeAttestation.commitEpoch t msg c
  | .admin call => UptimeAttestation.admin t msg call

def Attestation.next (t : Attestation) (call : Msg × Call) : Attestation :=
  match t.exec call.1 call.2 with
  | .ok t' => t'
  | .error _ => t

def Attestation.after (t : Attestation) (calls : List (Msg × Call)) : Attestation :=
  calls.foldl Attestation.next t

namespace Storage
variable {keccak256} {K : List (Bytes32 × BitVec 64)} {s : Storage} {t : Attestation}

/-- the storage holds what the contract keyed by pairs holds, as far as these pairs go -/
structure Refines (keccak256 : BitVec (8 * 40) → Bytes32) (K : List (Bytes32 × BitVec 64))
    (s : Storage) (t : Attestation) : Prop where
  epochDuration : s.epochDuration = t.epochDuration
  paused : s.paused = t.paused
  logs : s.logs = t.logs
  epochs : ∀ p ∈ K, s.epochs (epochKey keccak256 p.1 p.2) = t.epochs p

/-- both succeed, or both revert with the same error -/
def Agree (R : Storage → Attestation → Prop) : Except Error Storage → Except Error Attestation → Prop
  | .ok s, .ok t => R s t
  | .error e, .error e' => e = e'
  | _, _ => False

theorem Agree.require {R : Storage → Attestation → Prop} {c : Bool} {e : Error}
    {f : Unit → Except Error Storage} {g : Unit → Except Error Attestation}
    (h : c = true → Agree R (f ()) (g ())) :
    Agree R (UptimeAttestation.require c e >>= f) (UptimeAttestation.require c e >>= g) := by
  cases c with
  | false => exact (rfl : e = e)
  | true => exact h rfl

theorem commitEpoch_refines (hK : NoCollision keccak256 K) (h : Refines keccak256 K s t) (msg : Msg)
    {c : CommitEpoch} (hc : (c.zoneId, c.epochStart) ∈ K) :
    Agree (Refines keccak256 K) (commitEpoch keccak256 s msg c)
      (UptimeAttestation.commitEpoch t msg c) := by
  obtain ⟨hduration, hpaused, hlogs, hepochs⟩ := h
  have hfree : (!UptimeAttestation.isCommitted t c.zoneId c.epochStart) =
      ((s.epochs (epochKey keccak256 c.zoneId c.epochStart)).submittedBy == 0) := by
    unfold UptimeAttestation.isCommitted
    rw [← hepochs _ hc, bne, Bool.not_not]
  unfold commitEpoch UptimeAttestation.commitEpoch onlyRole whenNotPaused notPayable
  rw [hfree, ← hduration, ← hpaused, ← hlogs]
  refine Agree.require fun _ => Agree.require fun _ => Agree.require fun _ => ?_
  refine Agree.require fun _ => Agree.require fun _ => Agree.require fun _ => ?_
  refine Agree.require fun _ => ⟨rfl, rfl, rfl, ?_⟩
  intro p hp
  dsimp only
  by_cases hpc : p = (c.zoneId, c.epochStart)
  · rw [hpc, Function.update_self, Function.update_self]
  · have hkey : epochKey keccak256 p.1 p.2 ≠ epochKey keccak256 c.zoneId c.epochStart :=
      fun he => hpc (hK.epochKey_inj hp hc he)
    rw [Function.update_of_ne hkey, Function.update_of_ne hpc]
    exact hepochs p hp

theorem admin_refines (h : Refines keccak256 K s t) (msg : Msg) (call : AdminCall) :
    Agree (Refines keccak256 K) (exec keccak256 s msg (.admin call))
      (UptimeAttestation.admin t msg call) := by
  obtain ⟨hduration, hpaused, hlogs, hepochs⟩ := h
  cases call with
  | setEpochDuration newDuration =>
    refine Agree.require fun _ => Agree.require fun _ => Agree.require fun _ => ?_
    refine ⟨rfl, hpaused, ?_, hepochs⟩
    rw [hduration, hlogs]
  | pause =>
    unfold exec pause admin UptimeAttestation.pause whenNotPaused
    rw [hpaused]
    refine Agree.require fun _ => Agree.require fun _ => Agree.require fun _ => ?_
    exact ⟨hduration, rfl, hlogs, hepochs⟩
  | unpause =>
    unfold exec unpause admin UptimeAttestation.unpause
    rw [hpaused]
    refine Agree.require fun _ => Agree.require fun _ => Agree.require fun _ => ?_
    exact ⟨hduration, rfl, hlogs, hepochs⟩

theorem next_refines (hK : NoCollision keccak256 K) (h : Refines keccak256 K s t)
    (call : Msg × Call) (hcall : ∀ c, call.2 = .commitEpoch c → (c.zoneId, c.epochStart) ∈ K) :
    Refines keccak256 K (next keccak256 s call) (t.next call) := by
  have hagree : Agree (Refines keccak256 K) (exec keccak256 s call.1 call.2)
      (t.exec call.1 call.2) := by
    cases hc : call.2 with
    | commitEpoch c => exact commitEpoch_refines hK h call.1 (hcall c hc)
    | admin c => exact admin_refines h call.1 c
  unfold next Attestation.next
  cases hs : exec keccak256 s call.1 call.2 with
  | ok s' =>
    cases ht : t.exec call.1 call.2 with
    | ok t' =>
      rw [hs, ht] at hagree
      exact hagree
    | error e =>
      rw [hs, ht] at hagree
      exact hagree.elim
  | error e =>
    cases ht : t.exec call.1 call.2 with
    | ok t' =>
      rw [hs, ht] at hagree
      exact hagree.elim
    | error e' => exact h

/-- **Over pairs whose keys do not collide, the storage refines the contract keyed by pairs.** -/
theorem after_refines (hK : NoCollision keccak256 K) (h : Refines keccak256 K s t)
    (calls : List (Msg × Call)) (hcalls : ∀ p ∈ pairs calls, p ∈ K) :
    Refines keccak256 K (after keccak256 s calls) (t.after calls) := by
  induction calls generalizing s t with
  | nil => exact h
  | cons call calls ih =>
    refine ih (next_refines hK h call ?_) ?_
    · intro c hc
      refine hcalls _ (List.mem_filterMap.mpr ⟨call, List.mem_cons_self, ?_⟩)
      rw [hc]
    · intro p hp
      obtain ⟨x, hx, hxp⟩ := List.mem_filterMap.mp hp
      exact hcalls p (List.mem_filterMap.mpr ⟨x, List.mem_cons_of_mem call hx, hxp⟩)

end Storage
end UptimeAttestation
