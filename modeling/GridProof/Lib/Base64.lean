import GridProof.Lib.NumberText

/-!
# Base64 for URLs

Bytes in the alphabet of RFC 4648 §5, without padding.

* `encode`, `decode`   three bytes as four characters, and back;
* `decode_encode`      what was encoded is decoded;
* `encode_char`        the characters that encoding yields.

Decoding is as lenient as a `Buffer` is: it reads the other alphabet too, stops at the padding, and skips what is in
neither alphabet.
-/

namespace Base64

abbrev Byte := BitVec 8

def alphabet : List Char := "ABCDEFGHIJKLMNOPQRSTUVWXYZabcdefghijklmnopqrstuvwxyz0123456789-_".toList

/-- the character of six bits -/
def symbol (n : ℕ) : Char := alphabet.getD n 'A'

/-- the six bits of a character of either alphabet -/
def sextet (c : Char) : Option ℕ :=
  if 'A' ≤ c ∧ c ≤ 'Z' then some (c.toNat - 65)
  else if 'a' ≤ c ∧ c ≤ 'z' then some (c.toNat - 71)
  else if '0' ≤ c ∧ c ≤ '9' then some (c.toNat + 4)
  else if c = '-' ∨ c = '+' then some 62
  else if c = '_' ∨ c = '/' then some 63
  else none

def sextets : List Byte → List ℕ
  | a :: b :: c :: rest =>
    a.toNat / 4 :: (a.toNat % 4 * 16 + b.toNat / 16) :: (b.toNat % 16 * 4 + c.toNat / 64) :: c.toNat % 64 ::
      sextets rest
  | [a, b] => [a.toNat / 4, a.toNat % 4 * 16 + b.toNat / 16, b.toNat % 16 * 4]
  | [a] => [a.toNat / 4, a.toNat % 4 * 16]
  | [] => []

/-- a sextet alone is no byte -/
def bytes : List ℕ → List Byte
  | w :: x :: y :: z :: rest =>
    .ofNat 8 (w * 4 + x / 16) :: .ofNat 8 (x % 16 * 16 + y / 4) :: .ofNat 8 (y % 4 * 64 + z) :: bytes rest
  | [w, x, y] => [.ofNat 8 (w * 4 + x / 16), .ofNat 8 (x % 16 * 16 + y / 4)]
  | [w, x] => [.ofNat 8 (w * 4 + x / 16)]
  | _ => []

/-- `buffer.toString("base64url")` -/
def encode (bs : List Byte) : String := String.ofList ((sextets bs).map symbol)

/-- `Buffer.from(text, "base64url")` -/
def decode (text : String) : List Byte := bytes ((text.toList.takeWhile (· ≠ '=')).filterMap sextet)

/-! ## round trip -/

theorem sextet_symbol : ∀ n : Fin 64, sextet (symbol n) = some n.val ∧ symbol n ≠ '=' ∧ symbol n ≠ '.' := by
  decide +kernel

theorem byte_eq {a : Byte} {n : ℕ} (h : n = a.toNat) : BitVec.ofNat 8 n = a := by
  rw [h]
  exact BitVec.eq_of_toNat_eq (Nat.mod_eq_of_lt a.isLt)

theorem bytes_sextets (bs : List Byte) : bytes (sextets bs) = bs := by
  induction bs using sextets.induct with
  | case1 a b c rest ih =>
    have ha := a.isLt
    have hb := b.isLt
    have hc := c.isLt
    show _ :: _ :: _ :: bytes (sextets rest) = _
    rw [ih, byte_eq (a := a) (by omega), byte_eq (a := b) (by omega), byte_eq (a := c) (by omega)]
  | case2 a b =>
    have ha := a.isLt
    have hb := b.isLt
    show [_, _] = _
    rw [byte_eq (a := a) (by omega), byte_eq (a := b) (by omega)]
  | case3 a =>
    have ha := a.isLt
    show [_] = _
    rw [byte_eq (a := a) (by omega)]
  | case4 => rfl

theorem sextets_lt {bs : List Byte} {n : ℕ} (h : n ∈ sextets bs) : n < 64 := by
  induction bs using sextets.induct with
  | case1 a b c rest ih =>
    have ha := a.isLt
    have hb := b.isLt
    have hc := c.isLt
    unfold sextets at h
    simp only [List.mem_cons] at h
    rcases h with rfl | rfl | rfl | rfl | h
    · omega
    · omega
    · omega
    · omega
    · exact ih h
  | case2 a b =>
    have ha := a.isLt
    have hb := b.isLt
    simp only [sextets, List.mem_cons, List.not_mem_nil, or_false] at h
    omega
  | case3 a =>
    have ha := a.isLt
    simp only [sextets, List.mem_cons, List.not_mem_nil, or_false] at h
    omega
  | case4 => exact absurd h List.not_mem_nil

theorem encode_toList (bs : List Byte) : (encode bs).toList = (sextets bs).map symbol := String.toList_ofList

/-- what is encoded has no padding in it and no point -/
theorem encode_char {bs : List Byte} {c : Char} (h : c ∈ (encode bs).toList) : c ≠ '=' ∧ c ≠ '.' := by
  rw [encode_toList] at h
  obtain ⟨n, hn, rfl⟩ := List.mem_map.mp h
  exact (sextet_symbol ⟨n, sextets_lt hn⟩).2

theorem filterMap_symbol {ns : List ℕ} (h : ∀ n ∈ ns, n < 64) : (ns.map symbol).filterMap sextet = ns := by
  induction ns with
  | nil => rfl
  | cons n ns ih =>
    have hn := (sextet_symbol ⟨n, h n List.mem_cons_self⟩).1
    rw [List.map_cons, List.filterMap_cons_some hn, ih fun m hm => h m (List.mem_cons_of_mem n hm)]

theorem decode_encode (bs : List Byte) : decode (encode bs) = bs := by
  have hnone : (encode bs).toList.takeWhile (· ≠ '=') = (encode bs).toList :=
    List.takeWhile_eq_self_iff.mpr fun c hc => decide_eq_true (encode_char hc).1
  unfold decode
  rw [hnone, encode_toList, filterMap_symbol fun n hn => sextets_lt hn]
  exact bytes_sextets bs

theorem encode_ne {bs : List Byte} (h : bs ≠ []) : encode bs ≠ "" := by
  intro he
  have hdecode := congrArg decode he
  rw [decode_encode] at hdecode
  exact h hdecode

example : encode [0x4d, 0x61] = "TWE" := by decide +kernel

end Base64
