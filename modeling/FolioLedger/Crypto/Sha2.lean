/-!
# The hash functions SHA-256 and SHA-512

Both run the same rounds and differ in the width of their words, in the amounts by which words are
turned, and in their constants.  `Sha2` gathers what differs; `Sha2.digest` is the common
function.
-/

namespace FolioLedger

/-- The eight words that a message is folded into. -/
structure Sha2State (W : Type) where
  a : W
  b : W
  c : W
  d : W
  e : W
  f : W
  g : W
  h : W

/-- One member of the family. -/
structure Sha2 (W : Type) where
  /-- The bytes of a word. -/
  wordBytes : Nat
  ofNat : Nat → W
  toNat : W → Nat
  add : W → W → W
  xor : W → W → W
  and : W → W → W
  not : W → W
  /-- Turns a word right by a number of bits. -/
  turn : W → Nat → W
  /-- Shifts a word right by a number of bits. -/
  shift : W → Nat → W
  /-- The turns that mix the first and the fifth word of the state. -/
  bigTurns : (Nat × Nat × Nat) × (Nat × Nat × Nat)
  /-- The turns, and last the shift, that mix two words of the schedule. -/
  smallTurns : (Nat × Nat × Nat) × (Nat × Nat × Nat)
  start : Sha2State W
  /-- The constants of the rounds. -/
  constants : List W

namespace Sha2

variable {W : Type} (v : Sha2 W)

/-- Three turns of a word, put together. -/
def mixTurns (turns : Nat × Nat × Nat) (w : W) : W :=
  v.xor (v.xor (v.turn w turns.1) (v.turn w turns.2.1)) (v.turn w turns.2.2)

/-- Two turns and a shift of a word, put together. -/
def mixShift (turns : Nat × Nat × Nat) (w : W) : W :=
  v.xor (v.xor (v.turn w turns.1) (v.turn w turns.2.1)) (v.shift w turns.2.2)

/-- One round, with its constant and its word of the schedule. -/
def round (s : Sha2State W) (k w : W) : Sha2State W :=
  let choice := v.xor (v.and s.e s.f) (v.and (v.not s.e) s.g)
  let majority := v.xor (v.xor (v.and s.a s.b) (v.and s.a s.c)) (v.and s.b s.c)
  let t := v.add (v.add (v.add (v.add s.h (v.mixTurns v.bigTurns.2 s.e)) choice) k) w
  let u := v.add (v.mixTurns v.bigTurns.1 s.a) majority
  ⟨v.add t u, s.a, s.b, s.c, v.add s.d t, s.e, s.f, s.g⟩

/-- Moves the window of sixteen words of the schedule on by one. -/
def advance (window : List W) : List W :=
  let w := fun i => window.getD i (v.ofNat 0)
  window.drop 1 ++
    [v.add (v.add (v.mixShift v.smallTurns.2 (w 14)) (w 9))
      (v.add (v.mixShift v.smallTurns.1 (w 1)) (w 0))]

/-- Folds a block of sixteen words into the state. -/
def compress (s : Sha2State W) (block : List W) : Sha2State W :=
  let r := (v.constants.foldl (fun (acc : Sha2State W × List W) k =>
    (v.round acc.1 k (acc.2.getD 0 (v.ofNat 0)), v.advance acc.2)) (s, block)).1
  ⟨v.add s.a r.a, v.add s.b r.b, v.add s.c r.c, v.add s.d r.d, v.add s.e r.e, v.add s.f r.f,
    v.add s.g r.g, v.add s.h r.h⟩

/-- The number that bytes denote, the most significant first. -/
def bigEndian (bytes : List UInt8) : Nat :=
  bytes.foldl (fun n b => n * 256 + b.toNat) 0

/-- The bytes of a number, the most significant first. -/
def bytesOf (count n : Nat) : List UInt8 :=
  (List.range count).reverse.map fun i => UInt8.ofNat (n >>> (8 * i))

/-- Cuts a list into pieces of `size` elements. -/
def pieces {α : Type} (size : Nat) : Nat → List α → List (List α)
  | 0, _ => []
  | count + 1, xs => xs.take size :: pieces size count (xs.drop size)

/-- The message with a one bit, zeros and its length in bits, up to whole blocks. -/
def padded (message : List UInt8) : List UInt8 :=
  let block := 16 * v.wordBytes
  let zeros := (2 * block - 1 - 2 * v.wordBytes - message.length % block) % block
  message ++ 0x80 :: List.replicate zeros 0 ++ bytesOf (2 * v.wordBytes) (8 * message.length)

/-- The state after a message. -/
def hash (message : List UInt8) : Sha2State W :=
  let text := v.padded message
  let block := 16 * v.wordBytes
  (pieces block (text.length / block) text).foldl (fun s piece =>
    v.compress s ((pieces v.wordBytes 16 piece).map fun w => v.ofNat (bigEndian w))) v.start

/-- The digest of a message. -/
def digest (message : List UInt8) : List UInt8 :=
  let s := v.hash message
  [s.a, s.b, s.c, s.d, s.e, s.f, s.g, s.h].flatMap fun w => bytesOf v.wordBytes (v.toNat w)

end Sha2

/-! ## SHA-256 -/

/-- The first 32 bits after the point of the square roots of the first eight primes. -/
def sha256Start : Sha2State UInt32 :=
  ⟨0x6a09e667, 0xbb67ae85, 0x3c6ef372, 0xa54ff53a,
    0x510e527f, 0x9b05688c, 0x1f83d9ab, 0x5be0cd19⟩

/-- The first 32 bits after the point of the cube roots of the first 64 primes. -/
def sha256Constants : List UInt32 :=
  [0x428a2f98, 0x71374491, 0xb5c0fbcf, 0xe9b5dba5, 0x3956c25b, 0x59f111f1, 0x923f82a4,
   0xab1c5ed5, 0xd807aa98, 0x12835b01, 0x243185be, 0x550c7dc3, 0x72be5d74, 0x80deb1fe,
   0x9bdc06a7, 0xc19bf174, 0xe49b69c1, 0xefbe4786, 0x0fc19dc6, 0x240ca1cc, 0x2de92c6f,
   0x4a7484aa, 0x5cb0a9dc, 0x76f988da, 0x983e5152, 0xa831c66d, 0xb00327c8, 0xbf597fc7,
   0xc6e00bf3, 0xd5a79147, 0x06ca6351, 0x14292967, 0x27b70a85, 0x2e1b2138, 0x4d2c6dfc,
   0x53380d13, 0x650a7354, 0x766a0abb, 0x81c2c92e, 0x92722c85, 0xa2bfe8a1, 0xa81a664b,
   0xc24b8b70, 0xc76c51a3, 0xd192e819, 0xd6990624, 0xf40e3585, 0x106aa070, 0x19a4c116,
   0x1e376c08, 0x2748774c, 0x34b0bcb5, 0x391c0cb3, 0x4ed8aa4a, 0x5b9cca4f, 0x682e6ff3,
   0x748f82ee, 0x78a5636f, 0x84c87814, 0x8cc70208, 0x90befffa, 0xa4506ceb, 0xbef9a3f7,
   0xc67178f2]

/-- SHA-256: words of 32 bits. -/
def sha256 : Sha2 UInt32 where
  wordBytes := 4
  ofNat := UInt32.ofNat
  toNat := UInt32.toNat
  add := (· + ·)
  xor := (· ^^^ ·)
  and := (· &&& ·)
  not := (~~~ ·)
  turn w n := (w >>> UInt32.ofNat n) ||| (w <<< UInt32.ofNat (32 - n))
  shift w n := w >>> UInt32.ofNat n
  bigTurns := ((2, 13, 22), (6, 11, 25))
  smallTurns := ((7, 18, 3), (17, 19, 10))
  start := sha256Start
  constants := sha256Constants

/-! ## SHA-512 -/

/-- The first 64 bits after the point of the square roots of the first eight primes. -/
def sha512Start : Sha2State UInt64 :=
  ⟨0x6a09e667f3bcc908, 0xbb67ae8584caa73b, 0x3c6ef372fe94f82b, 0xa54ff53a5f1d36f1,
    0x510e527fade682d1, 0x9b05688c2b3e6c1f, 0x1f83d9abfb41bd6b, 0x5be0cd19137e2179⟩

/-- The first 64 bits after the point of the cube roots of the first 80 primes. -/
def sha512Constants : List UInt64 :=
  [0x428a2f98d728ae22, 0x7137449123ef65cd, 0xb5c0fbcfec4d3b2f, 0xe9b5dba58189dbbc,
   0x3956c25bf348b538, 0x59f111f1b605d019, 0x923f82a4af194f9b, 0xab1c5ed5da6d8118,
   0xd807aa98a3030242, 0x12835b0145706fbe, 0x243185be4ee4b28c, 0x550c7dc3d5ffb4e2,
   0x72be5d74f27b896f, 0x80deb1fe3b1696b1, 0x9bdc06a725c71235, 0xc19bf174cf692694,
   0xe49b69c19ef14ad2, 0xefbe4786384f25e3, 0x0fc19dc68b8cd5b5, 0x240ca1cc77ac9c65,
   0x2de92c6f592b0275, 0x4a7484aa6ea6e483, 0x5cb0a9dcbd41fbd4, 0x76f988da831153b5,
   0x983e5152ee66dfab, 0xa831c66d2db43210, 0xb00327c898fb213f, 0xbf597fc7beef0ee4,
   0xc6e00bf33da88fc2, 0xd5a79147930aa725, 0x06ca6351e003826f, 0x142929670a0e6e70,
   0x27b70a8546d22ffc, 0x2e1b21385c26c926, 0x4d2c6dfc5ac42aed, 0x53380d139d95b3df,
   0x650a73548baf63de, 0x766a0abb3c77b2a8, 0x81c2c92e47edaee6, 0x92722c851482353b,
   0xa2bfe8a14cf10364, 0xa81a664bbc423001, 0xc24b8b70d0f89791, 0xc76c51a30654be30,
   0xd192e819d6ef5218, 0xd69906245565a910, 0xf40e35855771202a, 0x106aa07032bbd1b8,
   0x19a4c116b8d2d0c8, 0x1e376c085141ab53, 0x2748774cdf8eeb99, 0x34b0bcb5e19b48a8,
   0x391c0cb3c5c95a63, 0x4ed8aa4ae3418acb, 0x5b9cca4f7763e373, 0x682e6ff3d6b2b8a3,
   0x748f82ee5defb2fc, 0x78a5636f43172f60, 0x84c87814a1f0ab72, 0x8cc702081a6439ec,
   0x90befffa23631e28, 0xa4506cebde82bde9, 0xbef9a3f7b2c67915, 0xc67178f2e372532b,
   0xca273eceea26619c, 0xd186b8c721c0c207, 0xeada7dd6cde0eb1e, 0xf57d4f7fee6ed178,
   0x06f067aa72176fba, 0x0a637dc5a2c898a6, 0x113f9804bef90dae, 0x1b710b35131c471b,
   0x28db77f523047d84, 0x32caab7b40c72493, 0x3c9ebe0a15c9bebc, 0x431d67c49c100d4c,
   0x4cc5d4becb3e42b6, 0x597f299cfc657e2a, 0x5fcb6fab3ad6faec, 0x6c44198c4a475817]

/-- SHA-512: words of 64 bits. -/
def sha512 : Sha2 UInt64 where
  wordBytes := 8
  ofNat := UInt64.ofNat
  toNat := UInt64.toNat
  add := (· + ·)
  xor := (· ^^^ ·)
  and := (· &&& ·)
  not := (~~~ ·)
  turn w n := (w >>> UInt64.ofNat n) ||| (w <<< UInt64.ofNat (64 - n))
  shift w n := w >>> UInt64.ofNat n
  bigTurns := ((28, 34, 39), (14, 18, 41))
  smallTurns := ((1, 8, 7), (19, 61, 6))
  start := sha512Start
  constants := sha512Constants

end FolioLedger
