import CommentTemplate.Text.Utf8

/-!
# SHA-256

The hash function of the Secure Hash Standard, on bytes.  The message is padded to a multiple of
64 bytes, and a state of eight words is run through sixty-four rounds for every block.

## Main definitions

* `Sha256.digest` — the thirty-two bytes of the hash
* `sha256Hex` — the hash of a text in lower-case hexadecimal digits

## Main statements

* `length_sha256HexOf`, `mem_sha256HexOf` — sixty-four digits, all of them hexadecimal
-/

namespace CommentTemplate

namespace Sha256

/-- Eight words: the state between blocks and the variables of a round. -/
structure State where
  (a b c d e f g h : UInt32)
deriving DecidableEq, Repr

/-- The initial state: fractions of the square roots of the first eight primes. -/
def initial : State :=
  ⟨0x6a09e667, 0xbb67ae85, 0x3c6ef372, 0xa54ff53a, 0x510e527f, 0x9b05688c, 0x1f83d9ab,
    0x5be0cd19⟩

/-- The constants of the rounds: fractions of the cube roots of the first sixty-four primes. -/
def roundConstants : List UInt32 :=
  [0x428a2f98, 0x71374491, 0xb5c0fbcf, 0xe9b5dba5, 0x3956c25b, 0x59f111f1, 0x923f82a4, 0xab1c5ed5,
    0xd807aa98, 0x12835b01, 0x243185be, 0x550c7dc3, 0x72be5d74, 0x80deb1fe, 0x9bdc06a7, 0xc19bf174,
    0xe49b69c1, 0xefbe4786, 0x0fc19dc6, 0x240ca1cc, 0x2de92c6f, 0x4a7484aa, 0x5cb0a9dc, 0x76f988da,
    0x983e5152, 0xa831c66d, 0xb00327c8, 0xbf597fc7, 0xc6e00bf3, 0xd5a79147, 0x06ca6351, 0x14292967,
    0x27b70a85, 0x2e1b2138, 0x4d2c6dfc, 0x53380d13, 0x650a7354, 0x766a0abb, 0x81c2c92e, 0x92722c85,
    0xa2bfe8a1, 0xa81a664b, 0xc24b8b70, 0xc76c51a3, 0xd192e819, 0xd6990624, 0xf40e3585, 0x106aa070,
    0x19a4c116, 0x1e376c08, 0x2748774c, 0x34b0bcb5, 0x391c0cb3, 0x4ed8aa4a, 0x5b9cca4f, 0x682e6ff3,
    0x748f82ee, 0x78a5636f, 0x84c87814, 0x8cc70208, 0x90befffa, 0xa4506ceb, 0xbef9a3f7, 0xc67178f2]

/-- A word rotated to the right. -/
def rotate (x : UInt32) (n : UInt32) : UInt32 := (x >>> n) ||| (x <<< (32 - n))

/-- The word that four bytes make, the first one highest. -/
def wordOf (bytes : List UInt8) : UInt32 :=
  bytes.foldl (fun w b => (w <<< 8) ||| b.toUInt32) 0

/-- The words of a block. -/
def blockWords : (words : Nat) → List UInt8 → List UInt32
  | 0, _ => []
  | n + 1, bytes => wordOf (bytes.take 4) :: blockWords n (bytes.drop 4)

/-- The next word of the message schedule, given those before it, the latest first. -/
def nextWord (latest : List UInt32) : UInt32 :=
  let back (n : Nat) := latest.getD (n - 1) 0
  let s0 := rotate (back 15) 7 ^^^ rotate (back 15) 18 ^^^ (back 15 >>> 3)
  let s1 := rotate (back 2) 17 ^^^ rotate (back 2) 19 ^^^ (back 2 >>> 10)
  s1 + back 7 + s0 + back 16

/-- The schedule with `n` more words in front, the latest first. -/
def extend : (n : Nat) → List UInt32 → List UInt32
  | 0, latest => latest
  | n + 1, latest => extend n (nextWord latest :: latest)

/-- The message schedule of a block: its sixteen words and forty-eight further ones. -/
def schedule (block : List UInt8) : List UInt32 :=
  (extend 48 (blockWords 16 block).reverse).reverse

/-- One round, with its constant and its word of the schedule. -/
def round (s : State) (kw : UInt32 × UInt32) : State :=
  let s1 := rotate s.e 6 ^^^ rotate s.e 11 ^^^ rotate s.e 25
  let choice := (s.e &&& s.f) ^^^ (~~~s.e &&& s.g)
  let t1 := s.h + s1 + choice + kw.1 + kw.2
  let s0 := rotate s.a 2 ^^^ rotate s.a 13 ^^^ rotate s.a 22
  let majority := (s.a &&& s.b) ^^^ (s.a &&& s.c) ^^^ (s.b &&& s.c)
  ⟨t1 + (s0 + majority), s.a, s.b, s.c, s.d + t1, s.e, s.f, s.g⟩

/-- The state after a block. -/
def compress (s : State) (block : List UInt8) : State :=
  let t := (roundConstants.zip (schedule block)).foldl round s
  ⟨s.a + t.a, s.b + t.b, s.c + t.c, s.d + t.d, s.e + t.e, s.f + t.f, s.g + t.g, s.h + t.h⟩

/-- The state after a number of blocks of a message. -/
def compressAll : (blocks : Nat) → State → List UInt8 → State
  | 0, s, _ => s
  | n + 1, s, bytes => compressAll n (compress s (bytes.take 64)) (bytes.drop 64)

/-- The bytes of a number, the highest first. -/
def bytesOf (count : Nat) (n : Nat) : List UInt8 :=
  (List.range count).map fun i => UInt8.ofNat (n / Nat.pow 256 (count - 1 - i))

/-- The message with a one bit, zeros and its length in bits, a multiple of 64 bytes. -/
def pad (message : List UInt8) : List UInt8 :=
  let n := message.length
  message ++ 0x80 :: (List.replicate ((119 - n % 64) % 64) 0 ++ bytesOf 8 (8 * n))

/-- The hash of a message. -/
def digest (message : List UInt8) : List UInt8 :=
  let padded := pad message
  let s := compressAll (padded.length / 64) initial padded
  [s.a, s.b, s.c, s.d, s.e, s.f, s.g, s.h].flatMap fun w => bytesOf 4 w.toNat

end Sha256

/-- Two lower-case hexadecimal digits for each byte. -/
def hexText (bytes : List UInt8) : Text :=
  bytes.flatMap fun b => [Nat.digitChar (b.toNat / 16), Nat.digitChar (b.toNat % 16)]

/-- The hash of some bytes in hexadecimal digits. -/
def sha256HexOf (bytes : ByteArray) : Text := hexText (Sha256.digest bytes.toList)

/-- The hash of a text's UTF-8 form in hexadecimal digits. -/
def sha256Hex (t : Text) : Text := sha256HexOf (encodeUtf8 t)

/-- A hash is written with sixty-four digits. -/
@[simp] theorem length_sha256HexOf (bytes : ByteArray) : (sha256HexOf bytes).length = 64 := by
  simp [sha256HexOf, hexText, Sha256.digest, Sha256.bytesOf, List.range_succ]

/-- A hash is written with the digits `0` to `9` and `a` to `f`. -/
theorem mem_sha256HexOf {bytes : ByteArray} {c : Char} (h : c ∈ sha256HexOf bytes) :
    c ∈ "0123456789abcdef".toList := by
  have digit : ∀ n < 16, Nat.digitChar n ∈ "0123456789abcdef".toList := by decide
  simp only [sha256HexOf, hexText, List.mem_flatMap] at h
  obtain ⟨b, -, hb⟩ := h
  have := b.toNat_lt
  rcases List.mem_cons.1 hb with rfl | hb
  · exact digit _ (by omega)
  · rcases List.mem_cons.1 hb with rfl | hb
    · exact digit _ (by omega)
    · simp at hb

end CommentTemplate
