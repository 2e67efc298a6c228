import Mathlib.Tactic

/-!
SHA-256 on bytes, with words as natural numbers below `2^32`.
-/
namespace AegisNode.Sha2

def modulus : Nat := 2^32

def rotateRight (x n : Nat) : Nat := (x >>> n) ||| ((x <<< (32-n))%modulus)

/-- The fractional parts of the cube roots of the first 64 primes. -/
def roundConstants : List Nat :=
  [0x428a2f98,0x71374491,0xb5c0fbcf,0xe9b5dba5,0x3956c25b,0x59f111f1,0x923f82a4,0xab1c5ed5,
   0xd807aa98,0x12835b01,0x243185be,0x550c7dc3,0x72be5d74,0x80deb1fe,0x9bdc06a7,0xc19bf174,
   0xe49b69c1,0xefbe4786,0x0fc19dc6,0x240ca1cc,0x2de92c6f,0x4a7484aa,0x5cb0a9dc,0x76f988da,
   0x983e5152,0xa831c66d,0xb00327c8,0xbf597fc7,0xc6e00bf3,0xd5a79147,0x06ca6351,0x14292967,
   0x27b70a85,0x2e1b2138,0x4d2c6dfc,0x53380d13,0x650a7354,0x766a0abb,0x81c2c92e,0x92722c85,
   0xa2bfe8a1,0xa81a664b,0xc24b8b70,0xc76c51a3,0xd192e819,0xd6990624,0xf40e3585,0x106aa070,
   0x19a4c116,0x1e376c08,0x2748774c,0x34b0bcb5,0x391c0cb3,0x4ed8aa4a,0x5b9cca4f,0x682e6ff3,
   0x748f82ee,0x78a5636f,0x84c87814,0x8cc70208,0x90befffa,0xa4506ceb,0xbef9a3f7,0xc67178f2]

structure State where
  a : Nat
  b : Nat
  c : Nat
  d : Nat
  e : Nat
  f : Nat
  g : Nat
  h : Nat
  deriving DecidableEq,Repr

def initial : State :=
  ⟨0x6a09e667,0xbb67ae85,0x3c6ef372,0xa54ff53a,0x510e527f,0x9b05688c,0x1f83d9ab,0x5be0cd19⟩

def State.words (s : State) : List Nat := [s.a,s.b,s.c,s.d,s.e,s.f,s.g,s.h]

/-! ### Padding -/

/-- A one bit, zeros, and the length in bits as eight bytes. -/
def padded (bytes : List UInt8) : List Nat :=
  let length := bytes.length
  bytes.map (·.toNat) ++ 0x80 :: List.replicate ((119-length%64)%64) 0 ++
    (List.range 8).map (fun i => (length*8) >>> (8*(7-i))%256)

def wordsOf : List Nat → List Nat
  | a :: b :: c :: d :: rest => (((a*256+b)*256+c)*256+d) :: wordsOf rest
  | _ => []

/-! ### Compression -/

def smallSigma0 (x : Nat) : Nat := rotateRight x 7 ^^^ rotateRight x 18 ^^^ (x >>> 3)
def smallSigma1 (x : Nat) : Nat := rotateRight x 17 ^^^ rotateRight x 19 ^^^ (x >>> 10)
def bigSigma0 (x : Nat) : Nat := rotateRight x 2 ^^^ rotateRight x 13 ^^^ rotateRight x 22
def bigSigma1 (x : Nat) : Nat := rotateRight x 6 ^^^ rotateRight x 11 ^^^ rotateRight x 25
def choose (x y z : Nat) : Nat := (x &&& y) ^^^ ((modulus-1-x) &&& z)
def majority (x y z : Nat) : Nat := (x &&& y) ^^^ (x &&& z) ^^^ (y &&& z)

def round (s : State) (constant word : Nat) : State :=
  let t1 := (s.h+bigSigma1 s.e+choose s.e s.f s.g+constant+word)%modulus
  let t2 := (bigSigma0 s.a+majority s.a s.b s.c)%modulus
  ⟨(t1+t2)%modulus,s.a,s.b,s.c,(s.d+t1)%modulus,s.e,s.f,s.g⟩

/-- The rounds on a window of sixteen words of the schedule. -/
def rounds : List Nat → List Nat → State → State
  | constant :: constants,word :: window,s =>
    let next := (smallSigma1 ((window.drop 13).headD 0)+(window.drop 8).headD 0+smallSigma0 (window.headD 0)+word)%modulus
    rounds constants (window ++ [next]) (round s constant word)
  | _,_,s => s

def compress (s : State) (block : List Nat) : State :=
  let t := rounds roundConstants block s
  ⟨(s.a+t.a)%modulus,(s.b+t.b)%modulus,(s.c+t.c)%modulus,(s.d+t.d)%modulus,(s.e+t.e)%modulus,(s.f+t.f)%modulus,
    (s.g+t.g)%modulus,(s.h+t.h)%modulus⟩

def compressAll : Nat → List Nat → State → State
  | 0,_,s => s
  | blocks+1,words,s => compressAll blocks (words.drop 16) (compress s (words.take 16))

/-! ### The digest -/

def bytesOf (word : Nat) : List UInt8 :=
  [UInt8.ofNat (word >>> 24),UInt8.ofNat (word >>> 16),UInt8.ofNat (word >>> 8),UInt8.ofNat word]

def digest (bytes : List UInt8) : List UInt8 :=
  let words := wordsOf (padded bytes)
  (compressAll (words.length/16) words initial).words.flatMap bytesOf

theorem digest_length (bytes : List UInt8) : (digest bytes).length = 32 := rfl

example : digest [] =
    [0xe3,0xb0,0xc4,0x42,0x98,0xfc,0x1c,0x14,0x9a,0xfb,0xf4,0xc8,0x99,0x6f,0xb9,0x24,
     0x27,0xae,0x41,0xe4,0x64,0x9b,0x93,0x4c,0xa4,0x95,0x99,0x1b,0x78,0x52,0xb8,0x55] := by decide +kernel

end AegisNode.Sha2
