import LivePages.Text.Hex

namespace LivePages

/-! The 256-bit digest of the secure hash standard. -/

namespace Digest

def initialState : List UInt32 :=
  [0x6a09e667, 0xbb67ae85, 0x3c6ef372, 0xa54ff53a, 0x510e527f, 0x9b05688c, 0x1f83d9ab, 0x5be0cd19]

def roundConstants : List UInt32 :=
  [0x428a2f98, 0x71374491, 0xb5c0fbcf, 0xe9b5dba5, 0x3956c25b, 0x59f111f1, 0x923f82a4, 0xab1c5ed5,
    0xd807aa98, 0x12835b01, 0x243185be, 0x550c7dc3, 0x72be5d74, 0x80deb1fe, 0x9bdc06a7, 0xc19bf174,
    0xe49b69c1, 0xefbe4786, 0x0fc19dc6, 0x240ca1cc, 0x2de92c6f, 0x4a7484aa, 0x5cb0a9dc, 0x76f988da,
    0x983e5152, 0xa831c66d, 0xb00327c8, 0xbf597fc7, 0xc6e00bf3, 0xd5a79147, 0x06ca6351, 0x14292967,
    0x27b70a85, 0x2e1b2138, 0x4d2c6dfc, 0x53380d13, 0x650a7354, 0x766a0abb, 0x81c2c92e, 0x92722c85,
    0xa2bfe8a1, 0xa81a664b, 0xc24b8b70, 0xc76c51a3, 0xd192e819, 0xd6990624, 0xf40e3585, 0x106aa070,
    0x19a4c116, 0x1e376c08, 0x2748774c, 0x34b0bcb5, 0x391c0cb3, 0x4ed8aa4a, 0x5b9cca4f, 0x682e6ff3,
    0x748f82ee, 0x78a5636f, 0x84c87814, 0x8cc70208, 0x90befffa, 0xa4506ceb, 0xbef9a3f7, 0xc67178f2]

def rotate (x : UInt32) (n : UInt32) : UInt32 :=
  (x >>> n) ||| (x <<< (32 - n))

def bytesOfWord (w : UInt32) : List UInt8 :=
  [(w >>> 24).toUInt8, (w >>> 16).toUInt8, (w >>> 8).toUInt8, w.toUInt8]

/-- The words of a byte sequence, the most significant byte of each first. -/
def words : List UInt8 → List UInt32
  | a :: b :: c :: d :: rest =>
    ((a.toUInt32 <<< 24) ||| (b.toUInt32 <<< 16) ||| (c.toUInt32 <<< 8) ||| d.toUInt32) :: words rest
  | _ => []

/-- A message followed by a one bit, as few zero bits as fill its last block, and its length. -/
def pad (message : List UInt8) : List UInt8 :=
  let size := message.length
  let bits := 8 * size
  let zeros : List UInt8 := List.replicate ((119 - size % 64) % 64) 0
  let length : List UInt8 := [56, 48, 40, 32, 24, 16, 8, 0].map fun shift : Nat =>
    UInt8.ofNat (bits >>> shift)
  message ++ 0x80 :: zeros ++ length

/-- The next word of a message schedule, from the words before it, the latest first. -/
def nextWord (latest : List UInt32) : UInt32 :=
  let a := latest.getD 1 0
  let b := latest.getD 14 0
  let s1 := rotate a 17 ^^^ rotate a 19 ^^^ (a >>> 10)
  let s0 := rotate b 7 ^^^ rotate b 18 ^^^ (b >>> 3)
  s1 + latest.getD 6 0 + s0 + latest.getD 15 0

def extend : Nat → List UInt32 → List UInt32
  | 0, latest => latest
  | n + 1, latest => extend n (nextWord latest :: latest)

def schedule (block : List UInt32) : List UInt32 :=
  (extend 48 block.reverse).reverse

def round (state : List UInt32) (input : UInt32) : List UInt32 :=
  match state with
  | [a, b, c, d, e, f, g, h] =>
    let s1 := rotate e 6 ^^^ rotate e 11 ^^^ rotate e 25
    let choice := (e &&& f) ^^^ ((~~~ e) &&& g)
    let t1 := h + s1 + choice + input
    let s0 := rotate a 2 ^^^ rotate a 13 ^^^ rotate a 22
    let majority := (a &&& b) ^^^ (a &&& c) ^^^ (b &&& c)
    [t1 + s0 + majority, a, b, c, d + t1, e, f, g]
  | other => other

def absorb (state block : List UInt32) : List UInt32 :=
  let inputs := List.zipWith (· + ·) roundConstants (schedule block)
  List.zipWith (· + ·) state (inputs.foldl round state)

def absorbAll : Nat → List UInt32 → List UInt32 → List UInt32
  | 0, state, _ => state
  | blocks + 1, state, ws => absorbAll blocks (absorb state (ws.take 16)) (ws.drop 16)

end Digest

def digest (message : List UInt8) : List UInt8 :=
  let ws := Digest.words (Digest.pad message)
  (Digest.absorbAll (ws.length / 16) Digest.initialState ws).flatMap Digest.bytesOfWord

end LivePages
