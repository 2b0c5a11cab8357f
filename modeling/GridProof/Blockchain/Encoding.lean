import GridProof.Blockchain.Sweeps
import GridProof.Pipeline.Uptime

/-!
# The arguments of a commitment

The client checks and encodes what the submit sweep has selected.

* `bytes32_evidenceHash`   the hash of a score passes the check of the client, as its uptime does;
* `call`, `encode_eq_call` the encoding of an input, field by field;
* `encode_of_valid`        what the encoding keeps of an input;
* `valid_pendingRow`       what the sweep selects passes the checks.
-/

namespace Pipeline

/-! ## values of a score -/

theorem hexValue_hexDigit {n : Nat} (h : n < 16) : hexValue (Sha256.hexDigit n) = some n := by
  have hall : ∀ n : Fin 16, hexValue (Sha256.hexDigit n) = some n.val := by decide
  exact hall ⟨n, h⟩

theorem mapM_hexValue_hex (bs : List Sha256.Byte) : (Sha256.hex bs).toList.mapM hexValue =
    some (bs.flatMap fun b => [b.toNat / 16, b.toNat % 16]) := by
  unfold Sha256.hex
  rw [String.toList_ofList]
  induction bs with
  | nil => rfl
  | cons b bs ih =>
    have hb : b.toNat / 16 < 16 := by have := b.isLt; omega
    rw [List.flatMap_cons, List.mapM_append, ih]
    simp only [List.mapM_cons, List.mapM_nil, hexValue_hexDigit hb,
      hexValue_hexDigit (Nat.mod_lt b.toNat (show 0 < 16 by decide))]
    rfl

theorem bytes32_of_digits {s : String} {digits : List Char} (hs : s.toList = '0' :: 'x' :: digits)
    (hlength : digits.length = 64) (h : (digits.mapM hexValue).isSome) : (bytes32 s).isSome := by
  unfold bytes32
  rw [hs]
  show (if digits.length = 64 then _ else none : Option _).isSome = true
  rw [if_pos hlength, Option.isSome_map]
  exact h

/-- the text of thirty-two bytes -/
theorem bytes32_hex {bytes : List Sha256.Byte} (h : bytes.length = 32) :
    (bytes32 ("0x" ++ Sha256.hex bytes)).isSome := by
  have htext : ("0x" ++ Sha256.hex bytes).toList = '0' :: 'x' :: (Sha256.hex bytes).toList := by
    rw [String.toList_append]
    rfl
  refine bytes32_of_digits htext ?_ ?_
  · rw [String.length_toList, Sha256.hex_length, h]
  · rw [mapM_hexValue_hex]
    rfl

theorem bytes32_evidenceHash (zoneId : String) (epochStart : EpochStart) (votes : List Vote) :
    (bytes32 (evidenceHash zoneId epochStart votes)).isSome := by
  unfold evidenceHash sha256Hex
  exact bytes32_hex (Sha256.digest_length _)

/-! ## the arguments -/

/-- the checks that the client makes itself -/
def CommitEpochInput.Valid (input : CommitEpochInput) : Prop :=
  (bytes32 input.zoneId).isSome ∧ (bytes32 input.evidenceHash).isSome ∧
    0 ≤ input.uptimeBps ∧ input.uptimeBps ≤ 10000

theorem toNat_ofInt_of_lt (width : Nat) {n : Int} (h0 : 0 ≤ n) (h : n < 2 ^ width) :
    ((BitVec.ofInt width n).toNat : Int) = n := by
  have hn : n % ((2 ^ width : Nat) : Int) = n := by
    apply Int.emod_eq_of_lt h0
    rw [Nat.cast_pow]
    exact h
  rw [BitVec.toNat_ofInt, hn, Int.toNat_of_nonneg h0]

/-- the arguments of an input that passes the checks -/
def CommitEpochInput.call (input : CommitEpochInput) (h : input.Valid) : UptimeAttestation.CommitEpoch where
  zoneId := (bytes32 input.zoneId).get h.1
  epochStart := BitVec.ofInt 64 input.epochStart
  uptimeBps := BitVec.ofInt 16 input.uptimeBps
  evidenceHash := (bytes32 input.evidenceHash).get h.2.1

theorem CommitEpochInput.encode_eq_call {input : CommitEpochInput} (h : input.Valid)
    (h0 : 0 ≤ input.epochStart) (h64 : input.epochStart < 2 ^ 64) :
    input.encode = some (input.call h) := by
  have hzone : bytes32 input.zoneId = some (input.call h).zoneId := (Option.some_get h.1).symm
  have hhash : bytes32 input.evidenceHash = some (input.call h).evidenceHash := (Option.some_get h.2.1).symm
  unfold encode
  rw [hzone, hhash]
  exact if_pos ⟨h.2.2.1, h.2.2.2, h0, h64⟩

theorem CommitEpochInput.encode_of_valid {input : CommitEpochInput} (h : input.Valid)
    (h0 : 0 ≤ input.epochStart) (h64 : input.epochStart < 2 ^ 64) : ∃ call,
    input.encode = some call ∧ (call.epochStart.toNat : Int) = input.epochStart ∧
      (call.uptimeBps.toNat : Int) = input.uptimeBps := by
  have hbps := h.2.2
  refine ⟨input.call h, encode_eq_call h h0 h64, ?_, ?_⟩
  · exact toNat_ofInt_of_lt 64 h0 h64
  · exact toNat_ofInt_of_lt 16 hbps.1 (by omega)

/-- the constraint `zones_zone_key_bytes32` -/
def Zone.KeyIsBytes32 (z : Zone) : Prop := (bytes32 z.zoneKey).isSome

instance (z : Zone) : Decidable z.KeyIsBytes32 :=
  inferInstanceAs (Decidable ((bytes32 z.zoneKey).isSome = true))

theorem valid_pendingRow (cc : ChainCommitment) (es : ScoreRow) {z : Zone} (hz : z.KeyIsBytes32) :
    (commitInputFromPending (pendingRow cc es z)).Valid := by
  obtain ⟨hbps, hhash⟩ := es.valid
  refine ⟨hz, ?_, ?_⟩
  · show (bytes32 es.evidenceHash).isSome
    rw [hhash]
    exact bytes32_evidenceHash _ _ _
  · show 0 ≤ es.uptimeBps ∧ es.uptimeBps ≤ 10000
    rw [hbps]
    exact uptimeBps_range _

end Pipeline
