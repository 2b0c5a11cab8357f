import GridProof.Lib.Sha256
import Mathlib.Data.Nat.Notation

/-!
# Reading UTF-8

Bytes as the text they encode, where each longest start of a character that does not go on stands for U+FFFD.

* `decode`        the text of bytes;
* `decode_utf8`   a text is read from its bytes.
-/

namespace Utf8

open Sha256 (Byte utf8)

/-- what is read of a character, how many bytes it still takes, and the range of the next one -/
structure Pending where
  needed : ℕ
  point : ℕ
  lower : ℕ := 0x80
  upper : ℕ := 0xBF

/-- the first byte of a character -/
def first (b : ℕ) : Char ⊕ Pending :=
  if b < 0x80 then .inl (Char.ofNat b)
  else if 0xC2 ≤ b ∧ b ≤ 0xDF then .inr { needed := 0, point := b - 0xC0 }
  else if 0xE0 ≤ b ∧ b ≤ 0xEF then
    .inr ⟨1, b - 0xE0, if b = 0xE0 then 0xA0 else 0x80, if b = 0xED then 0x9F else 0xBF⟩
  else if 0xF0 ≤ b ∧ b ≤ 0xF4 then
    .inr ⟨2, b - 0xF0, if b = 0xF0 then 0x90 else 0x80, if b = 0xF4 then 0x8F else 0xBF⟩
  else .inl '\uFFFD'

/-- the text of these bytes behind what is pending -/
def decodeFrom : Option Pending → List Byte → List Char
  | none, [] => []
  | some _, [] => ['\uFFFD']
  | none, b :: bs =>
    match first b.toNat with
    | .inl c => c :: decodeFrom none bs
    | .inr p => decodeFrom (some p) bs
  | some p, b :: bs =>
    if p.lower ≤ b.toNat ∧ b.toNat ≤ p.upper then
      let point := p.point * 64 + (b.toNat - 0x80)
      match p.needed with
      | 0 => Char.ofNat point :: decodeFrom none bs
      | n + 1 => decodeFrom (some { needed := n, point }) bs
    else
      '\uFFFD' ::
        match first b.toNat with
        | .inl c => c :: decodeFrom none bs
        | .inr p => decodeFrom (some p) bs

/-- `buffer.toString("utf8")` -/
def decode (bs : List Byte) : String := String.ofList (decodeFrom none bs)

/-! ## the bytes of a character -/

theorem decodeFrom_one {b : Byte} {c : Char} (bs : List Byte) (h : first b.toNat = .inl c) :
    decodeFrom none (b :: bs) = c :: decodeFrom none bs := by
  rw [decodeFrom, h]

theorem decodeFrom_first {p : Pending} {b : Byte} (bs : List Byte) (h : first b.toNat = .inr p) :
    decodeFrom none (b :: bs) = decodeFrom (some p) bs := by
  rw [decodeFrom, h]

theorem decodeFrom_last {b : Byte} {point lower upper : ℕ} (bs : List Byte) (h : lower ≤ b.toNat ∧ b.toNat ≤ upper) :
    decodeFrom (some ⟨0, point, lower, upper⟩) (b :: bs) =
      Char.ofNat (point * 64 + (b.toNat - 0x80)) :: decodeFrom none bs :=
  if_pos h

theorem decodeFrom_next {b : Byte} {n point lower upper : ℕ} (bs : List Byte)
    (h : lower ≤ b.toNat ∧ b.toNat ≤ upper) :
    decodeFrom (some ⟨n + 1, point, lower, upper⟩) (b :: bs) =
      decodeFrom (some { needed := n, point := point * 64 + (b.toNat - 0x80) }) bs :=
  if_pos h

/-- a number as a byte -/
theorem byte_toNat {n : ℕ} (h : n < 256) : (UInt8.ofNat n).toBitVec.toNat = n := Nat.mod_eq_of_lt h

theorem first_one {c : Char} (h : c.toNat < 0x80) : first c.toNat = .inl c := by
  unfold first
  rw [if_pos h, Char.ofNat_toNat]

theorem first_two {b : ℕ} (h : 0xC2 ≤ b ∧ b ≤ 0xDF) : first b = .inr ⟨0, b - 0xC0, 0x80, 0xBF⟩ := by
  have hone : ¬b < 0x80 := by omega
  exact (if_neg hone).trans (if_pos h)

theorem first_three {b : ℕ} (h : 0xE0 ≤ b ∧ b ≤ 0xEF) : first b =
    .inr ⟨1, b - 0xE0, if b = 0xE0 then 0xA0 else 0x80, if b = 0xED then 0x9F else 0xBF⟩ := by
  have hone : ¬b < 0x80 := by omega
  have htwo : ¬(0xC2 ≤ b ∧ b ≤ 0xDF) := by omega
  exact (if_neg hone).trans ((if_neg htwo).trans (if_pos h))

theorem first_four {b : ℕ} (h : 0xF0 ≤ b ∧ b ≤ 0xF4) : first b =
    .inr ⟨2, b - 0xF0, if b = 0xF0 then 0x90 else 0x80, if b = 0xF4 then 0x8F else 0xBF⟩ := by
  have hone : ¬b < 0x80 := by omega
  have htwo : ¬(0xC2 ≤ b ∧ b ≤ 0xDF) := by omega
  have hthree : ¬(0xE0 ≤ b ∧ b ≤ 0xEF) := by omega
  exact (if_neg hone).trans ((if_neg htwo).trans ((if_neg hthree).trans (if_pos h)))

theorem decodeFrom_char {c : Char} {n : ℕ} (bs : List Byte) (h : n = c.toNat) :
    Char.ofNat n :: decodeFrom none bs = c :: decodeFrom none bs := by
  rw [h, Char.ofNat_toNat]

theorem decode_char (c : Char) (bs : List Byte) :
    decodeFrom none ((String.utf8EncodeChar c).map UInt8.toBitVec ++ bs) = c :: decodeFrom none bs := by
  have hvalid : c.toNat < 0xD800 ∨ 0xDFFF < c.toNat ∧ c.toNat < 0x110000 := c.valid
  have hval : c.val.toNat = c.toNat := rfl
  unfold String.utf8EncodeChar
  dsimp only
  rw [hval]
  split
  · rename_i hone
    refine decodeFrom_one bs ?_
    rw [byte_toNat (by omega)]
    exact first_one (by omega)
  split
  · have hb := byte_toNat (n := c.toNat / 64 % 32 + 0xc0) (by omega)
    have hb' := byte_toNat (n := c.toNat % 64 + 0x80) (by omega)
    refine (decodeFrom_first _ (first_two (by omega))).trans ?_
    refine (decodeFrom_last _ (by omega)).trans (decodeFrom_char bs ?_)
    omega
  split
  · have hb := byte_toNat (n := c.toNat / 4096 % 16 + 0xe0) (by omega)
    have hb' := byte_toNat (n := c.toNat / 64 % 64 + 0x80) (by omega)
    have hb'' := byte_toNat (n := c.toNat % 64 + 0x80) (by omega)
    refine (decodeFrom_first _ (first_three (by omega))).trans ?_
    refine (decodeFrom_next _ ?_).trans ((decodeFrom_last _ (by omega)).trans (decodeFrom_char bs ?_))
    · rw [hb, hb']
      split <;> split <;> omega
    · omega
  · have hb := byte_toNat (n := c.toNat / 262144 % 8 + 0xf0) (by omega)
    have hb' := byte_toNat (n := c.toNat / 4096 % 64 + 0x80) (by omega)
    have hb'' := byte_toNat (n := c.toNat / 64 % 64 + 0x80) (by omega)
    have hb3 := byte_toNat (n := c.toNat % 64 + 0x80) (by omega)
    refine (decodeFrom_first _ (first_four (by omega))).trans ?_
    refine (decodeFrom_next _ ?_).trans ((decodeFrom_next _ (by omega)).trans
      ((decodeFrom_last _ (by omega)).trans (decodeFrom_char bs ?_)))
    · rw [hb, hb']
      split <;> split <;> omega
    · omega

/-! ## texts -/

theorem decodeFrom_utf8 (cs : List Char) :
    decodeFrom none (cs.flatMap fun c => (String.utf8EncodeChar c).map UInt8.toBitVec) = cs := by
  induction cs with
  | nil => rfl
  | cons c cs ih => rw [List.flatMap_cons, decode_char, ih]

theorem decode_utf8 (s : String) : decode (utf8 s) = s := by
  unfold decode utf8
  rw [decodeFrom_utf8, String.ofList_toList]

theorem utf8_inj {s t : String} (h : utf8 s = utf8 t) : s = t := by
  rw [← decode_utf8 s, h, decode_utf8]

-- the second byte goes on, the third one does not
example : decode [0xe2, 0x82, 0x41] = "\uFFFDA" := by decide +kernel

end Utf8
