import GoSieve.Utf8

/-!
# The rune-level functions of `strings`

`strings.TrimSpace`, `strings.ToLower` and `strings.EqualFold`, on top of the decoder of
`GoSieve.Utf8`, and the `unicode` predicates they use.

`unicode.IsSpace` and `unicode.IsDigit` are small tables and are written out. The case
tables behind `unicode.ToLower` and `unicode.SimpleFold` are not: the interpreter takes them
as a parameter, `CaseTables`, and `goCase` gives Go's entries for the runes the concrete
examples of this development use. Every theorem about all strings holds for every
`CaseTables`.
-/

namespace GoSieve

/-! ## Tables -/

/-- `unicode.IsSpace`: the Latin-1 spaces, then the `White_Space` property. -/
def isSpace (r : Char) : Bool :=
  let n := r.toNat
  n = 9 || n = 10 || n = 11 || n = 12 || n = 13 || n = 32 || n = 0x85 || n = 0xA0 ||
    n = 0x1680 || (0x2000 ≤ n && n ≤ 0x200A) || n = 0x2028 || n = 0x2029 || n = 0x202F ||
    n = 0x205F || n = 0x3000

/-- The first code points of the ten-digit runs of Unicode 15.0's `Nd` category, which is
Go's `unicode.Digit` table, except the run of mathematical digits. -/
def digitRunStarts : List Nat :=
  [0x0030, 0x0660, 0x06F0, 0x07C0, 0x0966, 0x09E6, 0x0A66, 0x0AE6, 0x0B66, 0x0BE6, 0x0C66,
   0x0CE6, 0x0D66, 0x0DE6, 0x0E50, 0x0ED0, 0x0F20, 0x1040, 0x1090, 0x17E0, 0x1810, 0x1946,
   0x19D0, 0x1A80, 0x1A90, 0x1B50, 0x1BB0, 0x1C40, 0x1C50, 0xA620, 0xA8D0, 0xA900, 0xA9D0,
   0xA9F0, 0xAA50, 0xABF0, 0xFF10, 0x104A0, 0x10D30, 0x11066, 0x110F0, 0x11136, 0x111D0,
   0x112F0, 0x11450, 0x114D0, 0x11650, 0x116C0, 0x11730, 0x118E0, 0x11950, 0x11C50, 0x11D50,
   0x11DA0, 0x11F50, 0x16A60, 0x16AC0, 0x16B50, 0x1E140, 0x1E2F0, 0x1E4F0, 0x1E950, 0x1FBF0]

/-- `unicode.IsDigit`: below U+0100 only `'0'`–`'9'`; above, the `Nd` table. -/
def isDigit (r : Char) : Bool :=
  let n := r.toNat
  if n < 0x100 then 0x30 ≤ n && n ≤ 0x39
  else (0x1D7CE ≤ n && n ≤ 0x1D7FF) || digitRunStarts.any fun a => a ≤ n && n < a + 10

/-- Go's case tables: `unicode.ToLower` and `unicode.SimpleFold`, which walks the orbit of
runes that fold to each other in increasing order and wraps at the end. -/
structure CaseTables where
  toLower : Char → Char
  simpleFold : Char → Char

/-- Go's `unicode.ToLower` on ASCII, Latin-1, and the runes whose case orbit meets Latin-1
(Kelvin sign, Ångström sign, capital sharp s, Ÿ, Μ) and İ; every other rune is left unmapped. -/
def goToLower (r : Char) : Char :=
  let n := r.toNat
  if (0x41 ≤ n && n ≤ 0x5A) || (0xC0 ≤ n && n ≤ 0xDE && n != 0xD7) then Char.ofNat (n + 32)
  else if n = 0x130 then Char.ofNat 0x69
  else if n = 0x178 then Char.ofNat 0xFF
  else if n = 0x39C then Char.ofNat 0x3BC
  else if n = 0x1E9E then Char.ofNat 0xDF
  else if n = 0x212A then Char.ofNat 0x6B
  else if n = 0x212B then Char.ofNat 0xE5
  else r

/-- Go's `unicode.SimpleFold` on the same runes as `goToLower`: the orbits
K → k → U+212A → K, S → s → ſ → S, Å → å → U+212B → Å, µ → Μ → μ → µ, ß → ẞ → ß and
ÿ → Ÿ → ÿ, and upper to lower to upper for the other letters. -/
def goSimpleFold (r : Char) : Char :=
  let n := r.toNat
  let m :=
    if n = 0x4B then 0x6B else if n = 0x6B then 0x212A else if n = 0x212A then 0x4B
    else if n = 0x53 then 0x73 else if n = 0x73 then 0x17F else if n = 0x17F then 0x53
    else if n = 0xC5 then 0xE5 else if n = 0xE5 then 0x212B else if n = 0x212B then 0xC5
    else if n = 0xB5 then 0x39C else if n = 0x39C then 0x3BC else if n = 0x3BC then 0xB5
    else if n = 0xDF then 0x1E9E else if n = 0x1E9E then 0xDF
    else if n = 0xFF then 0x178 else if n = 0x178 then 0xFF
    else if (0x41 ≤ n && n ≤ 0x5A) || (0xC0 ≤ n && n ≤ 0xDE && n != 0xD7) then n + 32
    else if (0x61 ≤ n && n ≤ 0x7A) || (0xE0 ≤ n && n ≤ 0xFE && n != 0xF7) then n - 32
    else n
  Char.ofNat m

/-- The entries of Go's case tables that the concrete examples use. -/
def goCase : CaseTables := ⟨goToLower, goSimpleFold⟩

/-! ## `strings.TrimSpace` -/

/-- The bytes that Go's `asciiSpace` table marks: `\t \n \v \f \r` and space. -/
def isAsciiSpace (c : UInt8) : Bool := c = 9 || c = 10 || c = 11 || c = 12 || c = 13 || c = 32

/-- `strings.TrimLeftFunc(s, unicode.IsSpace)` -/
def trimLeftSpace (s : Bytes) : Bytes :=
  (((decodeAll s).dropWhile fun p => isSpace p.1).map Prod.snd).flatten

/-- `lastIndexFunc(s, unicode.IsSpace, false)`: the start of the last rune of `s` that is not
a space, decoding backwards, in at most `fuel` steps. -/
def lastNonSpace : Nat → Bytes → Option Nat
  | 0, _ => none
  | n + 1, s =>
    if s.isEmpty then none
    else
      let d := decodeLastRune s
      if isSpace d.1 then lastNonSpace n (s.take (s.length - d.2)) else some (s.length - d.2)

/-- `strings.TrimRightFunc(s, unicode.IsSpace)`: the last kept rune is measured again
forwards from its start. -/
def trimRightSpace (s : Bytes) : Bytes :=
  match lastNonSpace s.length s with
  | none => []
  | some i =>
    match s.drop i with
    | [] => s
    | c :: t => s.take (if c < 0x80 then i + 1 else i + (decodeRune (c :: t)).2)

/-- `strings.TrimSpace`: an ASCII scan from each end, which hands the rest of the string to
`TrimFunc` (from the left) or `TrimRightFunc` (from the right) at the first non-ASCII byte. -/
def trimSpace (s : Bytes) : Bytes :=
  match s.dropWhile isAsciiSpace with
  | [] => []
  | c :: t =>
    if 0x80 ≤ c then trimRightSpace (trimLeftSpace (c :: t))
    else
      match (c :: t).reverse.dropWhile isAsciiSpace with
      | [] => []
      | d :: u => if 0x80 ≤ d then trimRightSpace (d :: u).reverse else (d :: u).reverse

/-! ## `strings.ToLower` and `strings.EqualFold` -/

/-- `strings.ToLower`: byte-wise on an all-ASCII string; otherwise `strings.Map` with
`unicode.ToLower`, which writes each rune's image, a byte that is not UTF-8 becoming the
image of `RuneError`. -/
def toLower (C : CaseTables) (s : Bytes) : Bytes :=
  if s.all isAsciiByte then s.map lowerByte
  else ((decodeAll s).map fun p => encodeRune (C.toLower p.1)).flatten

/-- The orbit walk of `EqualFold`: from `r`, follow `SimpleFold` while the rune is neither
`lo` nor at least `hi`; the runes fold to each other when the walk stops at `hi`. The fuel,
the number of runes, bounds every walk Go's tables allow. -/
def orbitWalk (C : CaseTables) (lo hi : Char) : Nat → Char → Bool
  | 0, r => r == hi
  | n + 1, r => if r != lo && r < hi then orbitWalk C lo hi n (C.simpleFold r) else r == hi

/-- One step of `strings.EqualFold`: two runes are equal under simple folding. -/
def foldEqRune (C : CaseTables) (sr tr : Char) : Bool :=
  if tr = sr then true
  else
    let lo := if tr < sr then tr else sr
    let hi := if tr < sr then sr else tr
    if hi.toNat < 0x80 then 0x41 ≤ lo.toNat && lo.toNat ≤ 0x5A && hi.toNat == lo.toNat + 32
    else orbitWalk C lo hi 0x110000 (C.simpleFold lo)

/-- `strings.EqualFold` rune by rune. Go's ASCII fast path compares the same pairs by the
same ASCII rule, so it is not written separately. -/
def foldEqRunes (C : CaseTables) : List Char → List Char → Bool
  | [], [] => true
  | a :: as, b :: bs => foldEqRune C a b && foldEqRunes C as bs
  | _, _ => false

/-- `strings.EqualFold(s, t)` -/
def equalFold (C : CaseTables) (s t : Bytes) : Bool := foldEqRunes C (runes s) (runes t)

end GoSieve
