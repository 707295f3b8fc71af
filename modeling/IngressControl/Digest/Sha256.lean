import IngressControl.Text.Hex
/-!
The SHA-256 digest of a sequence of bytes.

The constants of the standard are the leading bits behind the point of square and cube roots of
the first primes, and are computed as such.
-/

namespace IngressControl.Sha256

def isPrime (value : Nat) : Bool :=
  2 ≤ value && (List.range value).all fun divisor => divisor < 2 || value % divisor ≠ 0

def primes (count : Nat) : List Nat := ((List.range 312).filter isPrime).take count

def root (degree value : Nat) : Nat → Nat → Nat
  | 0, least => least
  | bits + 1, least =>
      let middle := least + Nat.pow 2 bits
      root degree value bits (if Nat.pow middle degree ≤ value then middle else least)

def rootFraction (degree value : Nat) : UInt32 :=
  UInt32.ofNat (root degree (value * Nat.pow 2 (32 * degree)) 40 0 % 0x100000000)

def roundConstants : List UInt32 := (primes 64).map (rootFraction 3)

structure State where
  a : UInt32
  b : UInt32
  c : UInt32
  d : UInt32
  e : UInt32
  f : UInt32
  g : UInt32
  h : UInt32

def start : State where
  a := rootFraction 2 2
  b := rootFraction 2 3
  c := rootFraction 2 5
  d := rootFraction 2 7
  e := rootFraction 2 11
  f := rootFraction 2 13
  g := rootFraction 2 17
  h := rootFraction 2 19

def State.add (first second : State) : State where
  a := first.a + second.a
  b := first.b + second.b
  c := first.c + second.c
  d := first.d + second.d
  e := first.e + second.e
  f := first.f + second.f
  g := first.g + second.g
  h := first.h + second.h

def State.words (state : State) : List UInt32 :=
  [state.a, state.b, state.c, state.d, state.e, state.f, state.g, state.h]

def rotate (word : UInt32) (count : UInt32) : UInt32 :=
  (word >>> count) ||| (word <<< (32 - count))

def step (state : State) (constant word : UInt32) : State :=
  let high := rotate state.e 6 ^^^ rotate state.e 11 ^^^ rotate state.e 25
  let choice := (state.e &&& state.f) ^^^ ((~~~ state.e) &&& state.g)
  let first := state.h + high + choice + constant + word
  let low := rotate state.a 2 ^^^ rotate state.a 13 ^^^ rotate state.a 22
  let majority := (state.a &&& state.b) ^^^ (state.a &&& state.c) ^^^ (state.b &&& state.c)
  { a := first + (low + majority), b := state.a, c := state.b, d := state.c
    e := state.d + first, f := state.e, g := state.f, h := state.g }

/-- The next word of a schedule from the sixteen before it, the latest of them first. -/
def nextWord (recent : List UInt32) : UInt32 :=
  let second := recent.getD 1 0
  let fifteenth := recent.getD 14 0
  let low := rotate fifteenth 7 ^^^ rotate fifteenth 18 ^^^ (fifteenth >>> 3)
  let high := rotate second 17 ^^^ rotate second 19 ^^^ (second >>> 10)
  recent.getD 15 0 + low + recent.getD 6 0 + high

def extend (recent : List UInt32) : Nat → List UInt32
  | 0 => recent
  | count + 1 => extend (nextWord recent :: recent) count

def rounds (state : State) : List (UInt32 × UInt32) → State
  | [] => state
  | (constant, word) :: rest => rounds (step state constant word) rest

def absorb (state : State) (block : List UInt32) : State :=
  let schedule := (extend block.reverse 48).reverse
  state.add (rounds state (roundConstants.zip schedule))

def words : List UInt8 → List UInt32
  | a :: b :: c :: d :: rest =>
      ((a.toUInt32 <<< 24) ||| (b.toUInt32 <<< 16) ||| (c.toUInt32 <<< 8) ||| d.toUInt32) :: words rest
  | _ => []

def bytesOf (count value : Nat) : List UInt8 :=
  (List.range count).reverse.map fun place => UInt8.ofNat (value / Nat.pow 256 place % 256)

/-- The message behind its end mark, filled up to whole blocks with zeros and its bit length. -/
def filled (message : List UInt8) : List UInt8 :=
  -- The end mark takes one byte and the length eight.
  let gap := (119 - message.length % 64) % 64
  message ++ 0x80 :: List.replicate gap 0 ++ bytesOf 8 (8 * message.length)

def blocks (state : State) (remaining : List UInt32) : Nat → State
  | 0 => state
  | count + 1 => blocks (absorb state (remaining.take 16)) (remaining.drop 16) count

def digest (message : List UInt8) : List UInt8 :=
  let content := words (filled message)
  (blocks start content (content.length / 16)).words.flatMap fun word => bytesOf 4 word.toNat

def text (message : List UInt8) : String := Text.hex (digest message)

end IngressControl.Sha256
