/-!
# SHA-256 and HMAC

The hash function of FIPS 180-4 and the keyed hash of RFC 2104 over it, on lists of bytes.

* `digest`    the 32 bytes of the hash;
* `hmac`      the keyed hash;
* `utf8`      the bytes of a string;
* `hex`       bytes as lower-case hexadecimal digits.

The compression function keeps the last 16 words of the message schedule and extends it by one
word in each round.
-/

namespace Sha256

abbrev Byte := BitVec 8
abbrev Word := BitVec 32

/-! ## compression -/

def roundConstants : List Word :=
  [0x428a2f98, 0x71374491, 0xb5c0fbcf, 0xe9b5dba5, 0x3956c25b, 0x59f111f1, 0x923f82a4, 0xab1c5ed5,
   0xd807aa98, 0x12835b01, 0x243185be, 0x550c7dc3, 0x72be5d74, 0x80deb1fe, 0x9bdc06a7, 0xc19bf174,
   0xe49b69c1, 0xefbe4786, 0x0fc19dc6, 0x240ca1cc, 0x2de92c6f, 0x4a7484aa, 0x5cb0a9dc, 0x76f988da,
   0x983e5152, 0xa831c66d, 0xb00327c8, 0xbf597fc7, 0xc6e00bf3, 0xd5a79147, 0x06ca6351, 0x14292967,
   0x27b70a85, 0x2e1b2138, 0x4d2c6dfc, 0x53380d13, 0x650a7354, 0x766a0abb, 0x81c2c92e, 0x92722c85,
   0xa2bfe8a1, 0xa81a664b, 0xc24b8b70, 0xc76c51a3, 0xd192e819, 0xd6990624, 0xf40e3585, 0x106aa070,
   0x19a4c116, 0x1e376c08, 0x2748774c, 0x34b0bcb5, 0x391c0cb3, 0x4ed8aa4a, 0x5b9cca4f, 0x682e6ff3,
   0x748f82ee, 0x78a5636f, 0x84c87814, 0x8cc70208, 0x90befffa, 0xa4506ceb, 0xbef9a3f7, 0xc67178f2]

structure State where
  (a b c d e f g h : Word)

def initial : State :=
  ⟨0x6a09e667, 0xbb67ae85, 0x3c6ef372, 0xa54ff53a, 0x510e527f, 0x9b05688c, 0x1f83d9ab, 0x5be0cd19⟩

def sigma0 (x : Word) : Word := x.rotateRight 7 ^^^ x.rotateRight 18 ^^^ x >>> 3
def sigma1 (x : Word) : Word := x.rotateRight 17 ^^^ x.rotateRight 19 ^^^ x >>> 10
def bigSigma0 (x : Word) : Word := x.rotateRight 2 ^^^ x.rotateRight 13 ^^^ x.rotateRight 22
def bigSigma1 (x : Word) : Word := x.rotateRight 6 ^^^ x.rotateRight 11 ^^^ x.rotateRight 25
def ch (x y z : Word) : Word := (x &&& y) ^^^ (~~~x &&& z)
def maj (x y z : Word) : Word := (x &&& y) ^^^ (x &&& z) ^^^ (y &&& z)

/-- the rounds for the constants `ks`; `ws` are the next 16 words of the schedule -/
def rounds : List Word → List Word → State → State
  | k :: ks, w :: ws, s =>
    let t₁ := s.h + bigSigma1 s.e + ch s.e s.f s.g + k + w
    let t₂ := bigSigma0 s.a + maj s.a s.b s.c
    let next := sigma1 (ws.getD 13 0) + ws.getD 8 0 + sigma0 (ws.getD 0 0) + w
    rounds ks (ws ++ [next]) ⟨t₁ + t₂, s.a, s.b, s.c, s.d + t₁, s.e, s.f, s.g⟩
  | _, _, s => s

def compress (s : State) (block : List Word) : State :=
  let t := rounds roundConstants block s
  ⟨s.a + t.a, s.b + t.b, s.c + t.c, s.d + t.d, s.e + t.e, s.f + t.f, s.g + t.g, s.h + t.h⟩

/-! ## messages -/

/-- one bit, zeros up to 8 bytes short of a block, and the length in bits -/
def pad (bs : List Byte) : List Byte :=
  let n := BitVec.ofNat 64 (8 * bs.length)
  bs ++ (0x80 : Byte) :: (List.replicate ((119 - bs.length % 64) % 64) (0 : Byte) ++
    (List.range 8).map fun i => (n >>> (56 - 8 * i)).setWidth 8)

def toWords : List Byte → List Word
  | b₀ :: b₁ :: b₂ :: b₃ :: bs => (b₀ ++ b₁ ++ b₂ ++ b₃) :: toWords bs
  | _ => []

/-- the first `n` blocks of 16 words -/
def blocks : Nat → List Word → List (List Word)
  | 0, _ => []
  | n + 1, ws => ws.take 16 :: blocks n (ws.drop 16)

def State.bytes (s : State) : List Byte :=
  [s.a, s.b, s.c, s.d, s.e, s.f, s.g, s.h].flatMap fun (w : Word) =>
    [(w >>> 24).setWidth 8, (w >>> 16).setWidth 8, (w >>> 8).setWidth 8, w.setWidth 8]

def digest (bs : List Byte) : List Byte :=
  let ws := toWords (pad bs)
  ((blocks (ws.length / 16) ws).foldl compress initial).bytes

/-- the key is padded to a block, after it is hashed if it is longer than one -/
def hmac (key msg : List Byte) : List Byte :=
  let k := if key.length > 64 then digest key else key
  let block := k ++ List.replicate (64 - k.length) 0
  digest (block.map (· ^^^ 0x5c) ++ digest (block.map (· ^^^ 0x36) ++ msg))

/-! ## text -/

def utf8 (s : String) : List Byte :=
  s.toList.flatMap fun c => (String.utf8EncodeChar c).map UInt8.toBitVec

def hexDigit (n : Nat) : Char := "0123456789abcdef".toList.getD n '0'

def hex (bs : List Byte) : String :=
  String.ofList (bs.flatMap fun b => [hexDigit (b.toNat / 16), hexDigit (b.toNat % 16)])

theorem digest_length (bs : List Byte) : (digest bs).length = 32 := rfl

theorem hex_length (bs : List Byte) : (hex bs).length = 2 * bs.length := by
  unfold hex
  rw [String.length_ofList]
  induction bs with
  | nil => rfl
  | cons b bs ih =>
    rw [List.flatMap_cons, List.length_append, ih, List.length_cons]
    show 2 + 2 * bs.length = 2 * (bs.length + 1)
    omega

example : hex (digest (utf8 "abc")) =
    "ba7816bf8f01cfea414140de5dae2223b00361a396177a9cb410ff61f20015ad" := by decide +kernel

example : hex (hmac (utf8 "Jefe") (utf8 "what do ya want for nothing?")) =
    "5bdcc146bf60754e6a042426089575c75a003f089d2739839dec58b964ec3843" := by decide +kernel

end Sha256
