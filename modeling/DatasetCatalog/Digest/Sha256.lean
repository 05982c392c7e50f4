/-!
# SHA-256

The message is padded to whole blocks of sixty-four octets; every block mixes eight words of state
in sixty-four rounds. The digest is written in hexadecimal.
-/

namespace DatasetCatalog.Digest

/-- The first fractional bits of the cube roots of the first sixty-four primes. -/
def roundConstants : Array UInt32 :=
  #[0x428a2f98, 0x71374491, 0xb5c0fbcf, 0xe9b5dba5, 0x3956c25b, 0x59f111f1, 0x923f82a4,
    0xab1c5ed5, 0xd807aa98, 0x12835b01, 0x243185be, 0x550c7dc3, 0x72be5d74, 0x80deb1fe,
    0x9bdc06a7, 0xc19bf174, 0xe49b69c1, 0xefbe4786, 0x0fc19dc6, 0x240ca1cc, 0x2de92c6f,
    0x4a7484aa, 0x5cb0a9dc, 0x76f988da, 0x983e5152, 0xa831c66d, 0xb00327c8, 0xbf597fc7,
    0xc6e00bf3, 0xd5a79147, 0x06ca6351, 0x14292967, 0x27b70a85, 0x2e1b2138, 0x4d2c6dfc,
    0x53380d13, 0x650a7354, 0x766a0abb, 0x81c2c92e, 0x92722c85, 0xa2bfe8a1, 0xa81a664b,
    0xc24b8b70, 0xc76c51a3, 0xd192e819, 0xd6990624, 0xf40e3585, 0x106aa070, 0x19a4c116,
    0x1e376c08, 0x2748774c, 0x34b0bcb5, 0x391c0cb3, 0x4ed8aa4a, 0x5b9cca4f, 0x682e6ff3,
    0x748f82ee, 0x78a5636f, 0x84c87814, 0x8cc70208, 0x90befffa, 0xa4506ceb, 0xbef9a3f7,
    0xc67178f2]

/-- The first fractional bits of the square roots of the first eight primes. -/
def initialState : Array UInt32 :=
  #[0x6a09e667, 0xbb67ae85, 0x3c6ef372, 0xa54ff53a, 0x510e527f, 0x9b05688c, 0x1f83d9ab,
    0x5be0cd19]

def rotateRight (x n : UInt32) : UInt32 := (x >>> n) ||| (x <<< (32 - n))

/-- A one bit, zeros, and the length in bits as eight octets complete the last block. -/
def padMessage (message : List UInt8) : List UInt8 :=
  let length := message.length
  let zeros := (119 - length % 64) % 64
  message ++ 0x80 :: List.replicate zeros 0 ++
    (List.range 8).map fun i => UInt8.ofNat (8 * length / Nat.pow 256 (7 - i))

def wordsOf : List UInt8 → List UInt32
  | a :: b :: c :: d :: rest =>
    (a.toUInt32 <<< 24 ||| b.toUInt32 <<< 16 ||| c.toUInt32 <<< 8 ||| d.toUInt32) :: wordsOf rest
  | _ => []

def wordAt (w : Array UInt32) (i : Nat) : UInt32 := w[i]?.getD 0

def expandBlock : Nat → Array UInt32 → Array UInt32
  | 0, w => w
  | n + 1, w =>
    let x := wordAt w (w.size - 15)
    let y := wordAt w (w.size - 2)
    let s := rotateRight x 7 ^^^ rotateRight x 18 ^^^ (x >>> 3)
    let t := rotateRight y 17 ^^^ rotateRight y 19 ^^^ (y >>> 10)
    expandBlock n (w.push (wordAt w (w.size - 16) + s + wordAt w (w.size - 7) + t))

structure WorkingState where
  a : UInt32
  b : UInt32
  c : UInt32
  d : UInt32
  e : UInt32
  f : UInt32
  g : UInt32
  h : UInt32

def WorkingState.round (s : WorkingState) (constant word : UInt32) : WorkingState :=
  let s1 := rotateRight s.e 6 ^^^ rotateRight s.e 11 ^^^ rotateRight s.e 25
  let choice := (s.e &&& s.f) ^^^ (~~~s.e &&& s.g)
  let t1 := s.h + s1 + choice + constant + word
  let s0 := rotateRight s.a 2 ^^^ rotateRight s.a 13 ^^^ rotateRight s.a 22
  let majority := (s.a &&& s.b) ^^^ (s.a &&& s.c) ^^^ (s.b &&& s.c)
  ⟨t1 + s0 + majority, s.a, s.b, s.c, s.d + t1, s.e, s.f, s.g⟩

def WorkingState.ofArray (w : Array UInt32) : WorkingState :=
  ⟨wordAt w 0, wordAt w 1, wordAt w 2, wordAt w 3, wordAt w 4, wordAt w 5, wordAt w 6, wordAt w 7⟩

def WorkingState.toArray (s : WorkingState) : Array UInt32 :=
  #[s.a, s.b, s.c, s.d, s.e, s.f, s.g, s.h]

def mixBlock (state block : Array UInt32) : Array UInt32 :=
  let words := expandBlock 48 block
  let mixed := (List.range 64).foldl
    (fun s i => WorkingState.round s (wordAt roundConstants i) (wordAt words i))
    (WorkingState.ofArray state)
  Array.zipWith (· + ·) state mixed.toArray

def mixBlocks : Nat → Array UInt32 → List UInt32 → Array UInt32
  | 0, state, _ => state
  | count + 1, state, words =>
    mixBlocks count (mixBlock state (words.take 16).toArray) (words.drop 16)

def hexWord (w : UInt32) : List Char :=
  let digits := Nat.toDigits 16 w.toNat
  List.replicate (8 - digits.length) '0' ++ digits

def sha256 (message : List UInt8) : String :=
  let words := wordsOf (padMessage message)
  String.ofList ((mixBlocks (words.length / 16) initialState words).toList.flatMap hexWord)

def sha256Text (s : String) : String := sha256 s.toUTF8.toList

end DatasetCatalog.Digest
