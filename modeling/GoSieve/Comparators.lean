import GoSieve.Match

/-!
# The comparators: substrings and numeric values

RFC 4790 defines a comparator's substring operation from its equality: `:contains` holds when
some contiguous substring of the value equals the key. `testString` computes `:contains` on
its own: `i;ascii-casemap` compares `toLowerASCII` images, and `i;unicode-casemap` compares
`strings.ToLower` images for `:contains` but uses `strings.EqualFold` for `:is`. The law holds
for `i;octet` and `i;ascii-casemap` on every string, and for `i;unicode-casemap` on ASCII
strings; `ſ` against `s` shows that it fails beyond them, where simple folding relates runes
that lower-casing keeps apart.

`:value "eq"` is `:is` under each comparator, but under `i;unicode-casemap` only on ASCII
strings: there `:value` lowers ASCII letters while `:is` folds with `strings.EqualFold`.

`toLowerASCII` has a fast path and a builder loop that copies unchanged runs in chunks; both
write the byte map of the `i;ascii-casemap` description (`asciiLowerSpec`).

`numericValue` is the value `i;ascii-numeric` compares: the leading run of ASCII digits, read
by `strconv.ParseUint` into 64 bits, so a run too large for `uint64` has no value.
-/

namespace GoSieve

/-! ## `toLowerASCII` -/

theorem map_lowerByte_of_forall {l : Bytes} (h : ∀ c ∈ l, isUpperByte c = false) :
    l.map lowerByte = l := by
  induction l with
  | nil => rfl
  | cons c t ih =>
    simp only [List.mem_cons, forall_eq_or_imp] at h
    rw [List.map_cons, lowerByte_of_not_upper h.1, ih h.2]

/-- The builder loop of `toLowerASCII` after `n` iterations has written the lowered bytes
before `pos`, and no byte from `pos` up to `n` is upper-case. -/
theorem toLowerASCII_loop (s : Bytes) : ∀ n, n ≤ s.length → ∃ pos ≤ n,
    (List.range n).foldl (toLowerASCIIStep s) ([], 0) = ((s.take pos).map lowerByte, pos) ∧
      ∀ c ∈ (s.drop pos).take (n - pos), isUpperByte c = false
  | 0, _ => ⟨0, le_rfl, rfl, by simp⟩
  | n + 1, hn => by
    obtain ⟨pos, hpos, hfold, hrun⟩ := toLowerASCII_loop s n (by omega)
    obtain ⟨c, hc⟩ : ∃ c, s[n]? = some c := ⟨_, List.getElem?_eq_getElem (by omega)⟩
    have hsplit : s.take n = s.take pos ++ (s.drop pos).take (n - pos) := by
      rw [← List.take_add, Nat.add_sub_cancel' hpos]
    rw [List.range_succ, List.foldl_append, hfold, List.foldl_cons, List.foldl_nil,
      toLowerASCIIStep]
    dsimp only
    rw [List.getD_eq_getElem?_getD, hc, Option.getD_some]
    split
    · next hu =>
      have hw : (if pos < n then (s.drop pos).take (n - pos) else []) =
          (s.drop pos).take (n - pos) :=
        ite_eq_left_iff.2 fun h => by simp [show n - pos = 0 by omega]
      refine ⟨n + 1, le_rfl, ?_, by simp⟩
      rw [hw, List.take_succ, hc, hsplit, List.map_append, List.map_append,
        map_lowerByte_of_forall hrun]
      simp [lowerByte, hu]
    · next hu =>
      refine ⟨pos, by omega, rfl, ?_⟩
      rw [show n + 1 - pos = n - pos + 1 by omega, List.take_succ, List.getElem?_drop,
        Nat.add_sub_cancel' hpos, hc]
      simpa [or_imp, forall_and, hu] using hrun

/-- The builder loop of `toLowerASCII` run over all of `s`, then its tail copy, writes `s` with
every upper-case ASCII letter replaced, whether or not `s` has one. -/
theorem toLowerASCII_build (s : Bytes) :
    (let (b, pos) := (List.range s.length).foldl (toLowerASCIIStep s) ([], 0)
     if pos < s.length then b ++ s.drop pos else b) = s.map lowerByte := by
  obtain ⟨pos, hpos, hfold, hrun⟩ := toLowerASCII_loop s s.length le_rfl
  rw [hfold]
  dsimp only
  rw [List.take_of_length_le (by simp)] at hrun
  split
  · rw [← map_lowerByte_of_forall hrun, ← List.map_append, List.take_append_drop]
  · rw [List.take_of_length_le (by omega)]

/-- `toLowerASCII` lowers each byte: the fast path returns a string with no upper-case byte
as it is, and the builder loop handles the rest. -/
theorem toLowerASCII_eq_map (s : Bytes) : toLowerASCII s = s.map lowerByte := by
  unfold toLowerASCII
  split
  · next h =>
    simp only [Bool.not_eq_true', List.any_eq_false, Bool.not_eq_true] at h
    exact (map_lowerByte_of_forall h).symm
  · exact toLowerASCII_build s

example : toLowerASCII (lit "Hello, World") = lit "hello, world" := by decide

/-- The byte map of the `i;ascii-casemap` description, read from its words: a byte in
`'A'..'Z'` (0x41..0x5A) becomes the byte 32 greater, and every other byte, ASCII or not, stays. -/
def asciiLowerSpec (c : UInt8) : UInt8 :=
  if 0x41 ≤ c.toNat ∧ c.toNat ≤ 0x5A then UInt8.ofNat (c.toNat + 32) else c

theorem lowerByte_eq_asciiLowerSpec (c : UInt8) : lowerByte c = asciiLowerSpec c := by
  rw [Byte.eq_iff, lowerByte_toNat, asciiLowerSpec]
  split_ifs
  · show _ = (c.toNat + 32) % 256
    omega
  · rfl

theorem asciiLowerSpec_eq_self_iff (c : UInt8) :
    asciiLowerSpec c = c ↔ isUpperByte c = false := by
  rw [← lowerByte_eq_asciiLowerSpec, Byte.eq_iff, lowerByte_toNat]
  simp only [isUpperByte, Bool.and_eq_false_iff, decide_eq_false_iff_not, Byte.le_iff,
    Byte.toNat_ofNat]
  split_ifs <;> omega

/-- `toLowerASCII` is the byte map of the description on both of its paths. The fast path
returns `s` exactly when the map leaves `s` as it is, and the builder loop that tracks `pos`,
with its tail copy, writes the map of every string. -/
theorem toLowerASCII_eq_asciiLower (s : Bytes) :
    toLowerASCII s = s.map asciiLowerSpec ∧
    (s.map asciiLowerSpec = s ↔ s.any isUpperByte = false) ∧
    (let (b, pos) := (List.range s.length).foldl (toLowerASCIIStep s) ([], 0)
     if pos < s.length then b ++ s.drop pos else b) = s.map asciiLowerSpec := by
  have hspec : lowerByte = asciiLowerSpec := funext lowerByte_eq_asciiLowerSpec
  refine ⟨hspec ▸ toLowerASCII_eq_map s, ?_, hspec ▸ toLowerASCII_build s⟩
  conv_lhs => rhs; rw [← List.map_id s]
  simp only [List.map_inj_left, id, asciiLowerSpec_eq_self_iff, List.any_eq_false,
    Bool.not_eq_true]

/-! ## Folding ASCII runes -/

/-- Below `utf8.RuneSelf`, `EqualFold`'s rune test is equality of lower-case bytes. -/
theorem foldEqRune_asciiRune (C : CaseTables) {a b : UInt8} (ha : a < 0x80) (hb : b < 0x80) :
    foldEqRune C (asciiRune a) (asciiRune b) = (lowerByte a == lowerByte b) := by
  have hx := asciiRune_toNat ha
  have hy := asciiRune_toNat hb
  have ha' : a.toNat < 128 := ha
  have hb' : b.toNat < 128 := hb
  have hl : (lowerByte a == lowerByte b) =
      decide ((lowerByte a).toNat = (lowerByte b).toNat) :=
    Bool.eq_iff_iff.2 (by simp [Byte.eq_iff])
  rw [hl, lowerByte_toNat, lowerByte_toNat, Bool.eq_iff_iff, decide_eq_true_eq]
  simp only [foldEqRune, char_eq_iff_toNat, char_lt_iff_toNat, apply_ite Char.toNat, hx, hy]
  split_ifs <;> simp only [true_iff, Bool.and_eq_true, decide_eq_true_eq, beq_iff_eq] <;> omega

theorem foldEqRunes_map_asciiRune (C : CaseTables) :
    ∀ {p q : Bytes}, p.all isAsciiByte → q.all isAsciiByte →
      foldEqRunes C (p.map asciiRune) (q.map asciiRune) = (p.map lowerByte == q.map lowerByte)
  | [], [], _, _ => rfl
  | [], _ :: _, _, _ => rfl
  | _ :: _, [], _, _ => rfl
  | a :: p, b :: q, hp, hq => by
    simp only [List.all_cons, Bool.and_eq_true, isAsciiByte, decide_eq_true_eq] at hp hq
    rw [List.map_cons, List.map_cons, foldEqRunes, foldEqRune_asciiRune C hp.1 hq.1,
      foldEqRunes_map_asciiRune C hp.2 hq.2]
    simp [List.cons_beq_cons]

theorem runes_of_ascii {p : Bytes} (h : p.all isAsciiByte) : runes p = p.map asciiRune := by
  simpa [runes, decodeAll_nil] using runes_append_ascii [] (by simpa [isAsciiByte] using h)

/-- On ASCII strings `EqualFold` is equality after lowering. -/
theorem equalFold_of_ascii (C : CaseTables) {s t : Bytes} (hs : s.all isAsciiByte)
    (ht : t.all isAsciiByte) : equalFold C s t = (s.map lowerByte == t.map lowerByte) := by
  rw [equalFold, runes_of_ascii hs, runes_of_ascii ht, foldEqRunes_map_asciiRune C hs ht]

theorem toLower_of_ascii (C : CaseTables) {s : Bytes} (h : s.all isAsciiByte) :
    toLower C s = s.map lowerByte := by
  simp [toLower, h]

/-! ## The substring law -/

/-- An infix of a mapped list is the image of an infix. -/
theorem infix_map_iff {α β : Type} {f : α → β} {l₁ : List β} {l₂ : List α} :
    l₁ <:+: l₂.map f ↔ ∃ m, m <:+: l₂ ∧ m.map f = l₁ := by
  constructor
  · rintro ⟨s, t, h⟩
    obtain ⟨x, y, rfl, hx, -⟩ := List.map_eq_append_iff.1 h.symm
    obtain ⟨a, m, rfl, -, hm⟩ := List.map_eq_append_iff.1 hx
    exact ⟨m, ⟨a, y, rfl⟩, hm⟩
  · rintro ⟨m, hm, rfl⟩
    exact hm.map f

theorem contains_map_lowerByte_iff {value key : Bytes} :
    contains (value.map lowerByte) (key.map lowerByte) = true ↔
      ∃ m, m <:+: value ∧ m.map lowerByte = key.map lowerByte := by
  rw [contains_iff, infix_map_iff]

/-- `:contains` is `:is` on some substring of the value, for `i;octet` and `i;ascii-casemap`
on every string and for `i;unicode-casemap` on ASCII strings. -/
theorem contains_iff_exists_infix_is (L : Lib) (c : Comparator) (rel : Relational)
    (value key : Bytes) (hc : c = .octet ∨ c = .asciiCaseMap ∨
      (c = .unicodeCaseMap ∧ value.all isAsciiByte ∧ key.all isAsciiByte)) :
    (testString L c .contains rel value key).map Prod.fst = .ok true ↔
      ∃ m, m <:+: value ∧ (testString L c .is rel m key).map Prod.fst = .ok true := by
  rcases hc with rfl | rfl | ⟨rfl, hv, hk⟩ <;> unfold testString
  · simp [Except.map, contains_iff]
  · simp [Except.map, toLowerASCII_eq_map, contains_map_lowerByte_iff]
  · simp only [Except.map, Except.ok.injEq, toLower_of_ascii _ hv,
      toLower_of_ascii _ hk, contains_map_lowerByte_iff]
    refine exists_congr fun m => and_congr_right fun hm => ?_
    have hma : m.all isAsciiByte :=
      List.all_eq_true.2 fun b hb => List.all_eq_true.1 hv b (hm.subset hb)
    simp [equalFold_of_ascii _ hma hk]

theorem contains_iff_exists_infix_is_sample :
    (Comparator.unicodeCaseMap = .octet ∨ Comparator.unicodeCaseMap = .asciiCaseMap ∨
      (Comparator.unicodeCaseMap = .unicodeCaseMap ∧ (lit "Sub").all isAsciiByte ∧
        (lit "u").all isAsciiByte)) ∧
    ((testString sampleLib .unicodeCaseMap .contains .eq (lit "Sub") (lit "u")).map Prod.fst =
        .ok true ↔
      ∃ m, m <:+: lit "Sub" ∧
        (testString sampleLib .unicodeCaseMap .is .eq m (lit "u")).map Prod.fst = .ok true) :=
  ⟨by decide, contains_iff_exists_infix_is sampleLib .unicodeCaseMap .eq _ _ (by decide)⟩

/-- Under `i;unicode-casemap`, `ſ` is `:is` `s` by simple folding, but lower-casing keeps `ſ`,
so `ſ` does not `:contains` `s`. -/
theorem unicode_contains_counterexample :
    ¬ ((testString sampleLib .unicodeCaseMap .contains .eq (lit "ſ") (lit "s")).map Prod.fst =
        .ok true ↔
      ∃ m, m <:+: lit "ſ" ∧
        (testString sampleLib .unicodeCaseMap .is .eq m (lit "s")).map Prod.fst = .ok true) :=
  fun h => absurd (h.2 ⟨_, List.infix_refl _, by decide⟩) (by decide)

/-! ## Relational equality and `:is` -/

theorem compareBytes_eq_iff : ∀ {a b : Bytes}, compareBytes a b = .eq ↔ a = b
  | [], [] => by simp [compareBytes]
  | [], _ :: _ => by simp [compareBytes]
  | _ :: _, [] => by simp [compareBytes]
  | x :: a, y :: b => by
    simp only [compareBytes, List.cons.injEq]
    split_ifs with h1 h2
    · simp [(UInt8.ne_of_lt h1)]
    · simp [Ne.symm (UInt8.ne_of_lt h2)]
    · have hxy : x = y := Byte.eq_iff.2 (by simp only [Byte.lt_iff] at h1 h2; omega)
      simp [hxy, compareBytes_eq_iff]

theorem compareString_eq (a b : Bytes) : Relational.eq.compareString a b = (a == b) := by
  unfold Relational.compareString Relational.holds
  rcases hc : compareBytes a b with _ | _ | _
  · exact (beq_eq_false_iff_ne.2 fun hab => by simp [compareBytes_eq_iff.2 hab] at hc).symm
  · exact (beq_iff_eq.2 (compareBytes_eq_iff.1 hc)).symm
  · exact (beq_eq_false_iff_ne.2 fun hab => by simp [compareBytes_eq_iff.2 hab] at hc).symm

/-- `:value "eq"` is `:is` under every comparator: on every value and key under `i;octet`,
`i;ascii-casemap` and `i;ascii-numeric`, and on ASCII ones under `i;unicode-casemap`, whose
`:is` folds with `strings.EqualFold` while its `:value` lowers ASCII letters only. -/
theorem value_eq_agrees_with_is (L : Lib) (c : Comparator) (rel : Relational) (value key : Bytes)
    (hascii : c = .unicodeCaseMap → value.all isAsciiByte ∧ key.all isAsciiByte) :
    testString L c .value .eq value key = testString L c .is rel value key := by
  cases c with
  | octet =>
    show Except.ok (_, [], none) = Except.ok (_, [], none)
    rw [compareString_eq]
  | asciiCaseMap =>
    show Except.ok (_, [], none) = Except.ok (_, [], none)
    rw [compareString_eq]
  | asciiNumeric => rfl
  | unicodeCaseMap =>
    obtain ⟨hv, hk⟩ := hascii rfl
    show Except.ok (_, [], none) = Except.ok (_, [], none)
    rw [compareString_eq, equalFold_of_ascii _ hv hk, toLowerASCII_eq_map, toLowerASCII_eq_map]
  | other name => rfl

/-- `Hello` against `hELLO` under `i;unicode-casemap`. -/
theorem value_eq_agrees_with_is_sample :
    (Comparator.unicodeCaseMap = .unicodeCaseMap →
      (lit "Hello").all isAsciiByte ∧ (lit "hELLO").all isAsciiByte) ∧
    testString sampleLib .unicodeCaseMap .value .eq (lit "Hello") (lit "hELLO") =
      testString sampleLib .unicodeCaseMap .is .eq (lit "Hello") (lit "hELLO") := by
  have hascii : Comparator.unicodeCaseMap = .unicodeCaseMap →
      (lit "Hello").all isAsciiByte ∧ (lit "hELLO").all isAsciiByte := fun _ => by decide
  exact ⟨hascii, value_eq_agrees_with_is sampleLib _ _ _ _ hascii⟩

/-- Beyond ASCII the two differ: the Kelvin sign folds to `k` but does not lower to it. -/
example : testString sampleLib .unicodeCaseMap .value .eq (lit "\u212A") (lit "k") =
      .ok (false, [], none) ∧
    testString sampleLib .unicodeCaseMap .is .eq (lit "\u212A") (lit "k") = .ok (true, [], none) :=
  ⟨rfl, rfl⟩

/-! ## `numericValue` -/

theorem isDigit_asciiRune {b : UInt8} (h : b < 0x80) : isDigit (asciiRune b) = isAsciiDigit b := by
  have : b.toNat < 128 := h
  simp [isDigit, isAsciiDigit, asciiRune_toNat h, Byte.le_iff, show b.toNat < 256 by omega]

theorem lt_of_isAsciiDigit {c : UInt8} (h : isAsciiDigit c = true) : c < 0x80 := by
  simp only [isAsciiDigit, Bool.and_eq_true, decide_eq_true_eq, Byte.le_iff,
    Byte.toNat_ofNat] at h
  exact Byte.lt_iff.2 (by simp only [Byte.toNat_ofNat]; omega)

theorem parseUint_cons_of_not_digit {c : UInt8} {t : Bytes} (h : isAsciiDigit c = false) :
    parseUint (c :: t) = none := by
  simp [parseUint, h]

/-- The encoding of runes that start outside ASCII is no decimal number. -/
theorem parseUint_ofRunes_of_ge {r : Char} {rs : List Char} (h : 0x80 ≤ r.toNat) :
    parseUint (ofRunes (r :: rs)) = none := by
  obtain ⟨x, t, hx, hge⟩ := encodeRune_head_ge h
  have hd : isAsciiDigit x = false := by
    simp only [isAsciiDigit, Bool.and_eq_false_iff, decide_eq_false_iff_not, Byte.le_iff,
      Byte.toNat_ofNat]
    omega
  simp only [ofRunes, List.flatMap_cons, hx, List.cons_append]
  exact parseUint_cons_of_not_digit hd

/-- A string whose first byte is not an ASCII digit has no value: either its first rune is no
digit, or it is a digit outside ASCII, which `ParseUint` rejects. -/
theorem numericValue_of_head_not_digit {b : UInt8} {t : Bytes} (h : isAsciiDigit b = false) :
    numericValue (b :: t) = none := by
  by_cases hb : b < 0x80
  · simp [numericValue, runes_cons_ascii _ hb, isDigit_asciiRune hb, h]
  · have hge := @decodeRune_toNat_ge b t (Byte.le_iff.2 (by
      simp only [Byte.lt_iff, Byte.toNat_ofNat] at hb; simp only [Byte.toNat_ofNat]; omega))
    simp only [numericValue, runes, decodeAll_cons, List.map_cons]
    split_ifs with hd hlt
    · rfl
    · rw [List.takeWhile_cons_of_pos (by simpa using hd)]
      exact parseUint_ofRunes_of_ge hge
    · exact parseUint_cons_of_not_digit h

/-- A string made of a run of ASCII digits and a rest that does not start with a digit rune has
the value `ParseUint` gives the run. -/
theorem numericValue_of_run {s p q : Bytes} (hs : s = p ++ q) (hp : p ≠ [])
    (hpd : ∀ x ∈ p, isAsciiDigit x) (hq : ∀ r ∈ (runes q).head?, isDigit r = false) :
    numericValue s = parseUint p := by
  have ha : ∀ x ∈ p, x < 0x80 := fun x hx => lt_of_isAsciiDigit (hpd x hx)
  have hdig : ∀ r ∈ p.map asciiRune, isDigit r = true := by
    simpa using fun x hx => by rw [isDigit_asciiRune (ha x hx)]; exact hpd x hx
  have hrs : runes s = p.map asciiRune ++ runes q := by rw [hs, runes_append_ascii _ ha]
  have hrun : (runes s).takeWhile isDigit = p.map asciiRune := by
    rw [hrs, List.takeWhile_append_of_pos hdig]
    cases h : runes q with
    | nil => simp
    | cons r rs => simp [List.takeWhile_cons, hq r (by simp [h])]
  obtain ⟨d, p', rfl⟩ := List.exists_cons_of_ne_nil hp
  rw [numericValue]
  split
  · next h => simp [hrs] at h
  · next r rs h =>
    obtain ⟨rfl, -⟩ : r = asciiRune d ∧ _ := List.cons.inj (h.symm.trans hrs)
    rw [← h, hrun, if_neg (by simp [hdig])]
    dsimp only
    split_ifs with hlt
    · rw [ofRunes_map_asciiRune ha]
    · have hq0 : runes q = [] := by simpa [hrs] using hlt
      rw [hs, runes_eq_nil_iff.1 hq0, List.append_nil]

/-- `numericValue` is the value of the leading run of ASCII digits when that value is below
`2^64`, and absent when the run is empty or the value is larger. A run followed by a digit rune
outside ASCII is set aside. -/
theorem numericValue_eq_leading_run (s : Bytes)
    (hnext : s.takeWhile isAsciiDigit ≠ [] →
      ∀ r ∈ (runes (s.dropWhile isAsciiDigit)).head?, isDigit r = false) :
    numericValue s =
      if s.takeWhile isAsciiDigit = [] then none
      else if digitsValue (s.takeWhile isAsciiDigit) < 2 ^ 64 then
        some (digitsValue (s.takeWhile isAsciiDigit))
      else none := by
  cases s with
  | nil => rfl
  | cons b t =>
    cases hb : isAsciiDigit b
    · simp [hb, numericValue_of_head_not_digit hb]
    · have hp : (b :: t).takeWhile isAsciiDigit ≠ [] := by simp [hb]
      have hall : ∀ x ∈ (b :: t).takeWhile isAsciiDigit, isAsciiDigit x :=
        fun x hx => List.mem_takeWhile_imp hx
      rw [numericValue_of_run (List.takeWhile_append_dropWhile _ _).symm hp hall (hnext hp)]
      simp [parseUint, hp, List.all_eq_true.2 hall]

theorem numericValue_eq_leading_run_sample :
    ((lit "42abc").takeWhile isAsciiDigit ≠ [] →
      ∀ r ∈ (runes ((lit "42abc").dropWhile isAsciiDigit)).head?, isDigit r = false) ∧
    numericValue (lit "42abc") =
      if (lit "42abc").takeWhile isAsciiDigit = [] then none
      else if digitsValue ((lit "42abc").takeWhile isAsciiDigit) < 2 ^ 64 then
        some (digitsValue ((lit "42abc").takeWhile isAsciiDigit))
      else none :=
  ⟨by decide, numericValue_eq_leading_run _ (by decide)⟩

/-- A run of twenty digits whose value is `2^64` has no value. -/
theorem numericValue_overflow_counterexample :
    (lit "18446744073709551616").takeWhile isAsciiDigit = lit "18446744073709551616" ∧
      digitsValue (lit "18446744073709551616") = 2 ^ 64 ∧
      numericValue (lit "18446744073709551616") = none := by
  decide

end GoSieve
