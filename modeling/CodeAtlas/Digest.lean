import CodeAtlas.Text.Quoted

/-!
The digests of 160 and of 256 bits. A message is cut into blocks of sixteen words, after it is
filled up to whole blocks by a single set bit, zeros and its own length in bits.
-/

namespace CodeAtlas.Digest

def bigEndian (width value : Nat) : List UInt8 :=
  (List.range width).reverse.map fun place => (value >>> (8 * place)).toUInt8

def padded (message : List UInt8) : List UInt8 :=
  let zeros := (119 - message.length % 64) % 64
  message ++ 0x80 :: List.replicate zeros 0 ++ bigEndian 8 (8 * message.length)

def wordsOf : List UInt8 → List UInt32
  | first :: second :: third :: fourth :: rest =>
    (first.toUInt32 <<< 24 ||| second.toUInt32 <<< 16 ||| third.toUInt32 <<< 8
      ||| fourth.toUInt32) :: wordsOf rest
  | _ => []

/-- The words in groups of sixteen; the first argument bounds the number of groups. -/
def groups : Nat → List UInt32 → List (List UInt32)
  | 0, _ => []
  | _ + 1, [] => []
  | bound + 1, words => words.take 16 :: groups bound (words.drop 16)

def blocks (message : List UInt8) : List (List UInt32) :=
  let words := wordsOf (padded message)
  groups words.length words

def turnLeft (count : UInt32) (word : UInt32) : UInt32 :=
  word <<< count ||| word >>> (32 - count)

def turnRight (count : UInt32) (word : UInt32) : UInt32 :=
  word >>> count ||| word <<< (32 - count)

def extend (next : List UInt32 → UInt32) : Nat → List UInt32 → List UInt32
  | 0, words => words
  | count + 1, words => extend next count (next words :: words)

def bytesOf (words : List UInt32) : List UInt8 :=
  words.flatMap fun word => bigEndian 4 word.toNat

def hexText (bytes : List UInt8) : String :=
  String.ofList (bytes.flatMap fun byte => Text.hexadecimal 2 byte.toNat)

end CodeAtlas.Digest

namespace CodeAtlas.Digest.Sha1

def start : List UInt32 := [0x67452301, 0xefcdab89, 0x98badcfe, 0x10325476, 0xc3d2e1f0]

def nextWord (words : List UInt32) : UInt32 :=
  turnLeft 1 (words.getD 2 0 ^^^ words.getD 7 0 ^^^ words.getD 13 0 ^^^ words.getD 15 0)

def schedule (block : List UInt32) : List UInt32 := (extend nextWord 64 block.reverse).reverse

/-- What the rounds of a quarter mix in: a function of three words of the state and a constant. -/
def mixing (quarter : Nat) (b c d : UInt32) : UInt32 :=
  match quarter with
  | 0 => ((b &&& c) ||| (~~~b &&& d)) + 0x5a827999
  | 1 => (b ^^^ c ^^^ d) + 0x6ed9eba1
  | 2 => ((b &&& c) ||| (b &&& d) ||| (c &&& d)) + 0x8f1bbcdc
  | _ => (b ^^^ c ^^^ d) + 0xca62c1d6

def round (state : List UInt32) (input : UInt32 × Nat) : List UInt32 :=
  match state with
  | [a, b, c, d, e] =>
    [turnLeft 5 a + mixing (input.2 / 20) b c d + e + input.1, a, turnLeft 30 b, c, d]
  | other => other

def compress (state block : List UInt32) : List UInt32 :=
  state.zipWith (· + ·) ((schedule block).zipIdx.foldl round state)

def digest (message : List UInt8) : List UInt8 := bytesOf ((blocks message).foldl compress start)

end CodeAtlas.Digest.Sha1

namespace CodeAtlas.Digest.Sha256

def roundConstants : List UInt32 := [
  0x428a2f98, 0x71374491, 0xb5c0fbcf, 0xe9b5dba5, 0x3956c25b, 0x59f111f1, 0x923f82a4, 0xab1c5ed5,
  0xd807aa98, 0x12835b01, 0x243185be, 0x550c7dc3, 0x72be5d74, 0x80deb1fe, 0x9bdc06a7, 0xc19bf174,
  0xe49b69c1, 0xefbe4786, 0x0fc19dc6, 0x240ca1cc, 0x2de92c6f, 0x4a7484aa, 0x5cb0a9dc, 0x76f988da,
  0x983e5152, 0xa831c66d, 0xb00327c8, 0xbf597fc7, 0xc6e00bf3, 0xd5a79147, 0x06ca6351, 0x14292967,
  0x27b70a85, 0x2e1b2138, 0x4d2c6dfc, 0x53380d13, 0x650a7354, 0x766a0abb, 0x81c2c92e, 0x92722c85,
  0xa2bfe8a1, 0xa81a664b, 0xc24b8b70, 0xc76c51a3, 0xd192e819, 0xd6990624, 0xf40e3585, 0x106aa070,
  0x19a4c116, 0x1e376c08, 0x2748774c, 0x34b0bcb5, 0x391c0cb3, 0x4ed8aa4a, 0x5b9cca4f, 0x682e6ff3,
  0x748f82ee, 0x78a5636f, 0x84c87814, 0x8cc70208, 0x90befffa, 0xa4506ceb, 0xbef9a3f7, 0xc67178f2]

def start : List UInt32 := [
  0x6a09e667, 0xbb67ae85, 0x3c6ef372, 0xa54ff53a,
  0x510e527f, 0x9b05688c, 0x1f83d9ab, 0x5be0cd19]

def nextWord (words : List UInt32) : UInt32 :=
  let near := words.getD 1 0
  let far := words.getD 14 0
  words.getD 15 0 + (turnRight 7 far ^^^ turnRight 18 far ^^^ far >>> 3) + words.getD 6 0
    + (turnRight 17 near ^^^ turnRight 19 near ^^^ near >>> 10)

def schedule (block : List UInt32) : List UInt32 := (extend nextWord 48 block.reverse).reverse

def round (state : List UInt32) (input : UInt32 × UInt32) : List UInt32 :=
  match state with
  | [a, b, c, d, e, f, g, h] =>
    let choice := (e &&& f) ^^^ (~~~e &&& g)
    let majority := (a &&& b) ^^^ (a &&& c) ^^^ (b &&& c)
    let first := h + (turnRight 6 e ^^^ turnRight 11 e ^^^ turnRight 25 e) + choice
      + input.1 + input.2
    let second := (turnRight 2 a ^^^ turnRight 13 a ^^^ turnRight 22 a) + majority
    [first + second, a, b, c, d + first, e, f, g]
  | other => other

def compress (state block : List UInt32) : List UInt32 :=
  state.zipWith (· + ·) ((roundConstants.zip (schedule block)).foldl round state)

def digest (message : List UInt8) : List UInt8 := bytesOf ((blocks message).foldl compress start)

end CodeAtlas.Digest.Sha256
