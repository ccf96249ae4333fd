import GoSieve.Bytes

/-!
# UTF-8 decoding as Go does it

`utf8.DecodeRuneInString`, `utf8.DecodeLastRuneInString`, the conversion `[]rune(s)` and
`string(runes)`. A byte that starts no well-formed sequence decodes to `RuneError` (U+FFFD)
and is consumed on its own, as in Go. The accept ranges of the byte after a lead byte are
those of Go's `acceptRanges` table, which are the ranges of RFC 3629 §4.

The loop over the runes of a string (`for _, r := range s`) is `decodeAll`, which keeps with
each rune the bytes it was decoded from, so that a function that copies runes back out
(`TrimLeftFunc`, `strings.Map`) can be written as a map over that list.
-/

namespace GoSieve

/-- `utf8.RuneError`, U+FFFD. -/
def runeError : Char := '�'

/-- The rune of an ASCII byte. -/
def asciiRune (b : UInt8) : Char := Char.ofNat b.toNat

/-- A continuation byte, `0x80`–`0xBF`. -/
def isCont (b : UInt8) : Bool := 0x80 ≤ b && b ≤ 0xBF

/-- `utf8.RuneStart(b)`: `b` is not a continuation byte. -/
def runeStart (b : UInt8) : Bool := !isCont b

/-- The accept range of the byte after the lead byte `b0` (Go's `acceptRanges`). -/
def secondOk (b0 b1 : UInt8) : Bool :=
  if b0 = 0xE0 then 0xA0 ≤ b1 && b1 ≤ 0xBF
  else if b0 = 0xED then 0x80 ≤ b1 && b1 ≤ 0x9F
  else if b0 = 0xF0 then 0x90 ≤ b1 && b1 ≤ 0xBF
  else if b0 = 0xF4 then 0x80 ≤ b1 && b1 ≤ 0x8F
  else isCont b1

/-- `utf8.DecodeRuneInString(s)`: the first rune of `s` and the number of bytes it takes. -/
def decodeRune : Bytes → Char × Nat
  | [] => (runeError, 0)
  | b0 :: rest =>
    if b0 < 0x80 then (asciiRune b0, 1)
    else if b0 < 0xC2 then (runeError, 1)
    else if b0 < 0xE0 then
      match rest with
      | b1 :: _ =>
        if isCont b1 then (Char.ofNat ((b0.toNat % 32) * 64 + b1.toNat % 64), 2)
        else (runeError, 1)
      | [] => (runeError, 1)
    else if b0 < 0xF0 then
      match rest with
      | b1 :: b2 :: _ =>
        if secondOk b0 b1 && isCont b2 then
          (Char.ofNat ((b0.toNat % 16) * 4096 + (b1.toNat % 64) * 64 + b2.toNat % 64), 3)
        else (runeError, 1)
      | _ => (runeError, 1)
    else if b0 < 0xF5 then
      match rest with
      | b1 :: b2 :: b3 :: _ =>
        if secondOk b0 b1 && isCont b2 && isCont b3 then
          (Char.ofNat ((b0.toNat % 8) * 262144 + (b1.toNat % 64) * 4096 +
            (b2.toNat % 64) * 64 + b3.toNat % 64), 4)
        else (runeError, 1)
      | _ => (runeError, 1)
    else (runeError, 1)

/-- The runes of `s` with the bytes of each, in order, after at most `fuel` runes. -/
def decodeAllFuel : Nat → Bytes → List (Char × Bytes)
  | 0, _ => []
  | _ + 1, [] => []
  | n + 1, b :: s =>
    let w := (decodeRune (b :: s)).2
    ((decodeRune (b :: s)).1, (b :: s).take w) :: decodeAllFuel n ((b :: s).drop w)

/-- `for i, r := range s`: every rune of `s`, each with the bytes it was decoded from. -/
def decodeAll (s : Bytes) : List (Char × Bytes) := decodeAllFuel s.length s

/-- `[]rune(s)` -/
def runes (s : Bytes) : List Char := (decodeAll s).map Prod.fst

/-- `utf8.EncodeRune`: the UTF-8 bytes of a rune. -/
def encodeRune (c : Char) : Bytes := String.utf8EncodeChar c

/-- `string(rs)` for a slice of runes. -/
def ofRunes (rs : List Char) : Bytes := rs.flatMap encodeRune

/-- `utf8.DecodeLastRuneInString(s)`: the last rune of `s` and the bytes it takes. Go looks
for the lead byte among the three bytes before the last one. -/
def decodeLastRune (s : Bytes) : Char × Nat :=
  match s.reverse with
  | [] => (runeError, 0)
  | b :: r =>
    if b < 0x80 then (asciiRune b, 1)
    else
      let start := match (r.take 3).findIdx? runeStart with
        | some j => s.length - 2 - j
        | none => if s.length ≤ 4 then 0 else s.length - 5
      let d := decodeRune (s.drop start)
      if start + d.2 = s.length then d else (runeError, 1)

/-! ## Decoding lemmas -/

theorem decodeRune_ascii {b : UInt8} {s : Bytes} (h : b < 0x80) :
    decodeRune (b :: s) = (asciiRune b, 1) := by
  simp [decodeRune, h]

theorem isCont_iff {b : UInt8} : isCont b = true ↔ 0x80 ≤ b.toNat ∧ b.toNat ≤ 0xBF := by
  simp [isCont, Byte.le_iff]

/-- What the accept ranges say of the second byte, in numbers. -/
theorem secondOk_spec {b0 b1 : UInt8} (h : secondOk b0 b1 = true) :
    0x80 ≤ b1.toNat ∧ b1.toNat ≤ 0xBF ∧ (b0.toNat = 0xE0 → 0xA0 ≤ b1.toNat) ∧
      (b0.toNat = 0xED → b1.toNat ≤ 0x9F) ∧ (b0.toNat = 0xF0 → 0x90 ≤ b1.toNat) ∧
      (b0.toNat = 0xF4 → b1.toNat ≤ 0x8F) := by
  simp only [secondOk, Byte.eq_iff, Byte.toNat_ofNat, Nat.reduceMod] at h
  split_ifs at h <;>
    simp only [Bool.and_eq_true, decide_eq_true_eq, Byte.le_iff, Byte.toNat_ofNat, Nat.reduceMod,
      isCont_iff] at h <;> omega

/-! The code points of the multi-byte forms: above ASCII, and no surrogate. -/

theorem twoByte_bounds {b0 b1 : Nat} (h0 : 0xC2 ≤ b0) (h0' : b0 < 0xE0) :
    let n := (b0 % 32) * 64 + b1 % 64
    0x80 ≤ n ∧ (n < 0xD800 ∨ (0xDFFF < n ∧ n < 0x110000)) := by
  omega

theorem threeByte_bounds {b0 b1 b2 : Nat} (h0 : 0xE0 ≤ b0) (h0' : b0 < 0xF0) (h1 : 0x80 ≤ b1)
    (h1' : b1 ≤ 0xBF) (hE0 : b0 = 0xE0 → 0xA0 ≤ b1) (hED : b0 = 0xED → b1 ≤ 0x9F) :
    let n := (b0 % 16) * 4096 + (b1 % 64) * 64 + b2 % 64
    0x80 ≤ n ∧ (n < 0xD800 ∨ (0xDFFF < n ∧ n < 0x110000)) := by
  omega

theorem fourByte_bounds {b0 b1 b2 b3 : Nat} (h0 : 0xF0 ≤ b0) (h0' : b0 < 0xF5) (h1 : 0x80 ≤ b1)
    (h1' : b1 ≤ 0xBF) (hF0 : b0 = 0xF0 → 0x90 ≤ b1) (hF4 : b0 = 0xF4 → b1 ≤ 0x8F) :
    let n := (b0 % 8) * 262144 + (b1 % 64) * 4096 + (b2 % 64) * 64 + b3 % 64
    0x80 ≤ n ∧ (n < 0xD800 ∨ (0xDFFF < n ∧ n < 0x110000)) := by
  omega

/-- What one decoding step gives: an ASCII byte as itself, `RuneError` over one byte, or the
rune of a valid sequence of two to four bytes, a code point outside ASCII. -/
theorem decodeRune_cons_cases (b : UInt8) (s : Bytes) :
    (b < 0x80 ∧ decodeRune (b :: s) = (asciiRune b, 1)) ∨
    decodeRune (b :: s) = (runeError, 1) ∨
    ∃ n w, decodeRune (b :: s) = (Char.ofNat n, w) ∧ 2 ≤ w ∧ w ≤ s.length + 1 ∧
      0x80 ≤ n ∧ (n < 0xD800 ∨ (0xDFFF < n ∧ n < 0x110000)) := by
  dsimp only [decodeRune]
  by_cases h1 : b < 0x80
  · exact .inl ⟨h1, by rw [if_pos h1]⟩
  rw [if_neg h1]
  by_cases h2 : b < 0xC2
  · exact .inr (.inl (by rw [if_pos h2]))
  have h2' : 0xC2 ≤ b.toNat := Nat.not_lt.1 h2
  rw [if_neg h2]
  by_cases h3 : b < 0xE0
  · rw [if_pos h3]
    rcases s with _ | ⟨b1, t⟩
    · exact .inr (.inl rfl)
    by_cases hc : isCont b1 = true
    · exact .inr (.inr ⟨_, 2, by dsimp only; rw [if_pos hc], le_rfl, by simp,
        twoByte_bounds h2' h3⟩)
    · exact .inr (.inl (by dsimp only; rw [if_neg hc]))
  have h3' : 0xE0 ≤ b.toNat := Nat.not_lt.1 h3
  rw [if_neg h3]
  by_cases h4 : b < 0xF0
  · rw [if_pos h4]
    rcases s with _ | ⟨b1, _ | ⟨b2, t⟩⟩
    · exact .inr (.inl rfl)
    · exact .inr (.inl rfl)
    by_cases hc : (secondOk b b1 && isCont b2) = true
    · simp only [Bool.and_eq_true] at hc
      obtain ⟨c1, c1', hE0, hED, -, -⟩ := secondOk_spec hc.1
      exact .inr (.inr ⟨_, 3, by dsimp only; rw [if_pos (by simp [hc])], by decide, by simp,
        threeByte_bounds h3' h4 c1 c1' hE0 hED⟩)
    · exact .inr (.inl (by dsimp only; rw [if_neg hc]))
  have h4' : 0xF0 ≤ b.toNat := Nat.not_lt.1 h4
  rw [if_neg h4]
  by_cases h5 : b < 0xF5
  · rw [if_pos h5]
    rcases s with _ | ⟨b1, _ | ⟨b2, _ | ⟨b3, t⟩⟩⟩
    · exact .inr (.inl rfl)
    · exact .inr (.inl rfl)
    · exact .inr (.inl rfl)
    by_cases hc : (secondOk b b1 && isCont b2 && isCont b3) = true
    · simp only [Bool.and_eq_true] at hc
      obtain ⟨c1, c1', -, -, hF0, hF4⟩ := secondOk_spec hc.1.1
      exact .inr (.inr ⟨_, 4, by dsimp only; rw [if_pos (by simp [hc])], by decide, by simp,
        fourByte_bounds h4' h5 c1 c1' hF0 hF4⟩)
    · exact .inr (.inl (by dsimp only; rw [if_neg hc]))
  · exact .inr (.inl (by rw [if_neg h5]))

theorem decodeRune_width_pos (b : UInt8) (s : Bytes) : 1 ≤ (decodeRune (b :: s)).2 := by
  rcases decodeRune_cons_cases b s with ⟨-, h⟩ | h | ⟨n, w, h, hw, -⟩ <;> simp only [h] <;> omega

theorem decodeAllFuel_congr {n m : Nat} {s : Bytes} (hn : s.length ≤ n) (hm : s.length ≤ m) :
    decodeAllFuel n s = decodeAllFuel m s := by
  induction n generalizing m s with
  | zero => cases s <;> cases m <;> simp_all [decodeAllFuel]
  | succ n ih =>
    cases s with
    | nil => cases m <;> rfl
    | cons b s =>
      obtain ⟨m, rfl⟩ : ∃ k, m = k + 1 := ⟨m - 1, by simp at hm; omega⟩
      have hw := decodeRune_width_pos b s
      simp only [List.length_cons] at hn hm
      simp only [decodeAllFuel]
      rw [ih (m := m) (by simp; omega) (by simp; omega)]

theorem decodeAll_nil : decodeAll [] = [] := rfl

theorem decodeAll_cons (b : UInt8) (s : Bytes) :
    decodeAll (b :: s) = ((decodeRune (b :: s)).1, (b :: s).take (decodeRune (b :: s)).2) ::
      decodeAll ((b :: s).drop (decodeRune (b :: s)).2) := by
  have hw := decodeRune_width_pos b s
  simp only [decodeAll, List.length_cons, decodeAllFuel]
  rw [decodeAllFuel_congr (by simp; omega) le_rfl]

theorem decodeAll_cons_ascii {b : UInt8} (s : Bytes) (h : b < 0x80) :
    decodeAll (b :: s) = (asciiRune b, [b]) :: decodeAll s := by
  rw [decodeAll_cons, decodeRune_ascii h]
  rfl

theorem runes_cons_ascii {b : UInt8} (s : Bytes) (h : b < 0x80) :
    runes (b :: s) = asciiRune b :: runes s := by
  simp [runes, decodeAll_cons_ascii s h]

/-- The runes of an ASCII prefix are its bytes. -/
theorem runes_append_ascii {p : Bytes} (s : Bytes) (h : ∀ b ∈ p, b < 0x80) :
    runes (p ++ s) = p.map asciiRune ++ runes s := by
  induction p with
  | nil => rfl
  | cons b p ih =>
    simp only [List.mem_cons, forall_eq_or_imp] at h
    rw [List.cons_append, runes_cons_ascii _ h.1, ih h.2]
    rfl

theorem runes_eq_nil_iff {s : Bytes} : runes s = [] ↔ s = [] := by
  cases s with
  | nil => simp [runes, decodeAll_nil]
  | cons b s => simp [runes, decodeAll_cons]

/-! ## Code points -/

theorem char_eq_iff_toNat {a b : Char} : a = b ↔ a.toNat = b.toNat :=
  ⟨congrArg _, fun h => Char.ext (UInt32.toNat.inj h)⟩

theorem char_lt_iff_toNat {a b : Char} : a < b ↔ a.toNat < b.toNat := .rfl

theorem toNat_charOfNat {n : Nat} (h : n < 0xD800 ∨ (0xDFFF < n ∧ n < 0x110000)) :
    (Char.ofNat n).toNat = n := by
  simp [Char.ofNat, Nat.isValidChar, h, Char.ofNatAux, Char.toNat, UInt32.toNat]

theorem asciiRune_toNat {b : UInt8} (h : b < 0x80) : (asciiRune b).toNat = b.toNat :=
  toNat_charOfNat (.inl (by have : b.toNat < 128 := h; omega))

/-- A lead byte outside ASCII decodes to a rune outside ASCII, `RuneError` included. -/
theorem decodeRune_toNat_ge {b : UInt8} (s : Bytes) (h : 0x80 ≤ b) :
    0x80 ≤ (decodeRune (b :: s)).1.toNat := by
  rcases decodeRune_cons_cases b s with ⟨h1, -⟩ | hd | ⟨n, w, hd, -, -, hn, hv⟩
  · exact absurd (Byte.lt_iff.1 h1) (Nat.not_lt.2 h)
  · rw [hd]
    decide
  · rw [hd, toNat_charOfNat hv]
    exact hn

/-! ## Encoding lemmas -/

theorem encodeRune_asciiRune {b : UInt8} (h : b < 0x80) : encodeRune (asciiRune b) = [b] := by
  have hn : (asciiRune b).val.toNat = b.toNat := asciiRune_toNat h
  have h128 : b.toNat < 128 := h
  have hv : (asciiRune b).val ≤ 127 := by
    show (asciiRune b).val.toNat ≤ 127
    omega
  simp only [encodeRune, String.utf8EncodeChar, hv, ↓reduceIte, List.cons.injEq, and_true]
  apply Byte.eq_iff.mpr
  show (asciiRune b).val.toNat % 256 = b.toNat
  omega

/-- `string(runes)` of the runes of ASCII bytes is those bytes. -/
theorem ofRunes_map_asciiRune {p : Bytes} (h : ∀ b ∈ p, b < 0x80) : ofRunes (p.map asciiRune) = p := by
  induction p with
  | nil => rfl
  | cons b p ih =>
    simp only [List.mem_cons, forall_eq_or_imp] at h
    simp only [ofRunes, List.map_cons, List.flatMap_cons, encodeRune_asciiRune h.1] at ih ⊢
    rw [ih h.2]
    rfl

theorem lor_toNat_ge {x y : UInt8} (hy : y.toNat.testBit 7 = true) : 0x80 ≤ (x ||| y).toNat := by
  show 2 ^ 7 ≤ x.toNat ||| y.toNat
  exact Nat.testBit_implies_ge (by simp [Nat.testBit_or, hy])

/-- A rune outside ASCII is encoded with a first byte outside ASCII. -/
theorem encodeRune_head_ge {c : Char} (h : 0x80 ≤ c.toNat) :
    ∃ x t, encodeRune c = x :: t ∧ 0x80 ≤ x.toNat := by
  have hv : ¬ c.val ≤ 127 := fun h' => by
    have : c.toNat ≤ 127 := h'
    omega
  simp only [encodeRune, String.utf8EncodeChar, hv, ↓reduceIte]
  split_ifs <;> exact ⟨_, _, rfl, lor_toNat_ge (by decide)⟩

end GoSieve
