import Mathlib.Data.List.Infix
import Mathlib.Algebra.Group.Int

/-!
# Go strings as byte lists

A Go `string` is a read-only sequence of bytes with no encoding promise: it may hold invalid
UTF-8. The interpreter is modelled over `Bytes := List UInt8`, so every byte string is an
input of the model, not only the well-formed ones.

This module holds the byte-level functions of Go's `strings` package that the interpreter
calls (`HasPrefix`, `HasSuffix`, `Contains`, `Count`, `Index`, `LastIndexByte`, `SplitN`,
`Split`), each with the lemma that says what it computes. The rune-level functions
(`TrimSpace`, `ToLower`, `EqualFold`) need UTF-8 decoding and are in `GoSieve.Unicode`.
-/

namespace GoSieve

/-- Results of the model's fallible functions are compared in its tests and counterexamples. -/
instance instDecidableEqExcept {ε α : Type} [DecidableEq ε] [DecidableEq α] :
    DecidableEq (Except ε α)
  | .error a, .error b => decidable_of_iff (a = b) ⟨congrArg _, Except.error.inj⟩
  | .ok a, .ok b => decidable_of_iff (a = b) ⟨congrArg _, Except.ok.inj⟩
  | .error _, .ok _ => isFalse Except.noConfusion
  | .ok _, .error _ => isFalse Except.noConfusion

/-- A Go `string`. -/
abbrev Bytes := List UInt8

/-- The bytes of a Lean string literal: its UTF-8 encoding. -/
def lit (s : String) : Bytes := s.data.flatMap String.utf8EncodeChar

/-! ## Bytes as numbers -/

namespace Byte

theorem le_iff {a b : UInt8} : a ≤ b ↔ a.toNat ≤ b.toNat := .rfl

theorem lt_iff {a b : UInt8} : a < b ↔ a.toNat < b.toNat := .rfl

theorem eq_iff {a b : UInt8} : a = b ↔ a.toNat = b.toNat := ⟨fun h => h ▸ rfl, UInt8.toNat.inj⟩

theorem toNat_lt (a : UInt8) : a.toNat < 256 := a.toNat_lt_size

@[simp] theorem toNat_ofNat (n : Nat) : (no_index (OfNat.ofNat n) : UInt8).toNat = n % 256 := rfl

/-- Mathlib's `UInt8.toNat_ofNat` leaves a literal modulo `UInt8.size`; this gives the number. -/
@[simp] theorem size_eq : UInt8.size = 256 := rfl

theorem toNat_add (a b : UInt8) : (a + b).toNat = (a.toNat + b.toNat) % 256 := rfl

end Byte

/-- `'A' <= c && c <= 'Z'` -/
def isUpperByte (c : UInt8) : Bool := 65 ≤ c && c ≤ 90

/-- The byte `c + ('a' - 'A')` for an upper-case ASCII letter, `c` otherwise. -/
def lowerByte (c : UInt8) : UInt8 := if isUpperByte c then c + 32 else c

theorem lowerByte_of_not_upper {c : UInt8} (h : isUpperByte c = false) : lowerByte c = c := by
  simp [lowerByte, h]

theorem lowerByte_toNat (c : UInt8) :
    (lowerByte c).toNat = if 65 ≤ c.toNat ∧ c.toNat ≤ 90 then c.toNat + 32 else c.toNat := by
  have := Byte.toNat_lt c
  simp only [lowerByte, isUpperByte, Bool.and_eq_true, decide_eq_true_eq, Byte.le_iff,
    Byte.toNat_ofNat]
  split_ifs <;> first | rfl | omega | (rw [Byte.toNat_add]; simp only [Byte.toNat_ofNat]; omega)

/-- A byte below `utf8.RuneSelf`: an ASCII character on its own. -/
def isAsciiByte (c : UInt8) : Bool := c < 0x80

/-! ## Searching -/

/-- `strings.HasPrefix(s, p)` -/
def startsWith (s p : Bytes) : Bool := p.isPrefixOf s

/-- `strings.HasSuffix(s, p)` -/
def endsWith (s p : Bytes) : Bool := p.isSuffixOf s

/-- `strings.Contains(s, sub)`: `sub` occurs in `s` as a contiguous run. -/
def contains : Bytes → Bytes → Bool
  | [], sub => sub.isEmpty
  | c :: s, sub => sub.isPrefixOf (c :: s) || contains s sub

/-- `strings.Count(s, string(c))` for a one-byte separator: the occurrences of `c`. -/
def count (s : Bytes) (c : UInt8) : Nat := s.count c

/-- `strings.Index(s, sep)`, with `none` for Go's `-1`. -/
def index : Bytes → Bytes → Option Nat
  | [], sep => if sep.isEmpty then some 0 else none
  | c :: s, sep => if sep.isPrefixOf (c :: s) then some 0 else (index s sep).map (· + 1)

/-- `strings.LastIndexByte(s, c)`, with `none` for Go's `-1`. -/
def lastIndexByte (s : Bytes) (c : UInt8) : Option Nat :=
  (index s.reverse [c]).map fun i => s.length - 1 - i

/-- `strings.SplitN(s, sep, 2)` for a non-empty `sep`: the text before the first `sep` and
the text after it, or `[s]` when `sep` does not occur. -/
def splitN2 (s sep : Bytes) : List Bytes :=
  match index s sep with
  | some i => [s.take i, s.drop (i + sep.length)]
  | none => [s]

/-- `strings.Split(s, string(c))` for a one-byte separator. -/
def splitByte (s : Bytes) (c : UInt8) : List Bytes := s.splitOn c

/-! ## What the searches compute -/

theorem endsWith_iff {s p : Bytes} : endsWith s p = true ↔ p <:+ s :=
  List.isSuffixOf_iff_suffix

theorem contains_iff {s sub : Bytes} : contains s sub = true ↔ sub <:+: s := by
  induction s with
  | nil => simp [contains]
  | cons c s ih =>
    rw [contains, Bool.or_eq_true, List.isPrefixOf_iff_prefix, ih, List.infix_cons_iff]

/-! ## Results with an error

A Go function that returns `(value, error)` is modelled as `Except`. These lemmas take a result
apart: a check that returned no error, an `if` between two results, and a bind. -/

section Outcome

variable {ε α β : Type} {c : Prop} [Decidable c]

theorem ok_of_ite_error {e : ε} {b : Except ε α} {x : α}
    (h : (if c then .error e else b) = .ok x) : ¬c ∧ b = .ok x := by
  by_cases hc : c
  · rw [if_pos hc] at h
    cases h
  · exact ⟨hc, by rwa [if_neg hc] at h⟩

theorem ite_eq_ok {a b : Except ε α} {x : α} (h : (if c then a else b) = .ok x) :
    c ∧ a = .ok x ∨ ¬c ∧ b = .ok x := by
  by_cases hc : c
  · exact .inl ⟨hc, by rwa [if_pos hc] at h⟩
  · exact .inr ⟨hc, by rwa [if_neg hc] at h⟩

theorem ok_of_bind_ok {x : Except ε α} {f : α → Except ε β} {y : β}
    (h : x.bind f = .ok y) : ∃ a, x = .ok a ∧ f a = .ok y := by
  cases x with
  | error => cases h
  | ok a => exact ⟨a, rfl, h⟩

end Outcome

end GoSieve
