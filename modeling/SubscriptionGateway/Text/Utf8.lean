/-!
Bytes and the text they stand for. `decodeLossy` puts U+FFFD in the place of each maximal
ill-formed part.
-/
namespace SubscriptionGateway.Utf8

/-- Characters, and `none` for a part that is none. -/
abbrev Chars := List (Option Char)

/-- How many tail bytes a first byte calls for, and the range of the first of them. -/
def lead? (b : UInt8) : Option (Nat × UInt8 × UInt8) :=
  if b < 0x80 then some (0, 0x80, 0xBF)
  else if 0xC2 ≤ b && b ≤ 0xDF then some (1, 0x80, 0xBF)
  else if b == 0xE0 then some (2, 0xA0, 0xBF)
  else if b == 0xED then some (2, 0x80, 0x9F)
  else if 0xE1 ≤ b && b ≤ 0xEF then some (2, 0x80, 0xBF)
  else if b == 0xF0 then some (3, 0x90, 0xBF)
  else if 0xF1 ≤ b && b ≤ 0xF3 then some (3, 0x80, 0xBF)
  else if b == 0xF4 then some (3, 0x80, 0x8F)
  else none

/-- Takes `n` tail bytes, the first of them within `low … high`; what could be taken when they
run out is left out of the rest. -/
def tails (n : Nat) (low high : UInt8) (point : Nat) : List UInt8 → Option Nat × List UInt8
  | bytes =>
    match n, bytes with
    | 0, bytes => (some point, bytes)
    | _ + 1, [] => (none, [])
    | n + 1, b :: rest =>
      if low ≤ b && b ≤ high then tails n 0x80 0xBF (point * 64 + (b.toNat - 0x80)) rest
      else (none, b :: rest)

def leadBits (b : UInt8) : Nat :=
  if b < 0x80 then b.toNat
  else if b < 0xE0 then b.toNat - 0xC0
  else if b < 0xF0 then b.toNat - 0xE0
  else b.toNat - 0xF0

/-- One character or one ill-formed part, and what follows it. -/
def next (b : UInt8) (rest : List UInt8) : Option Char × List UInt8 :=
  match lead? b with
  | none => (none, rest)
  | some (n, low, high) =>
    match tails n low high (leadBits b) rest with
    | (some point, rest) => (some (Char.ofNat point), rest)
    | (none, rest) => (none, rest)

def charsFuel : Nat → List UInt8 → List (Option Char)
  | 0, _ => []
  | _ + 1, [] => []
  | fuel + 1, b :: rest =>
    let (c, rest) := next b rest
    c :: charsFuel fuel rest

def chars (bytes : List UInt8) : Chars := charsFuel bytes.length bytes

def decodeLossy (bytes : List UInt8) : String :=
  String.ofList ((chars bytes).map (·.getD '\uFFFD'))

def encodeChar (c : Char) : List UInt8 :=
  let n := c.toNat
  if n < 0x80 then [n.toUInt8]
  else if n < 0x800 then [(0xC0 + n / 64).toUInt8, (0x80 + n % 64).toUInt8]
  else if n < 0x10000 then
    [(0xE0 + n / 4096).toUInt8, (0x80 + n / 64 % 64).toUInt8, (0x80 + n % 64).toUInt8]
  else
    [(0xF0 + n / 262144).toUInt8, (0x80 + n / 4096 % 64).toUInt8,
     (0x80 + n / 64 % 64).toUInt8, (0x80 + n % 64).toUInt8]

def encode (s : String) : List UInt8 := s.toList.flatMap encodeChar

end SubscriptionGateway.Utf8
