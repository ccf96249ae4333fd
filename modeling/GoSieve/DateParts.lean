import GoSieve.Load
import Mathlib.Tactic.IntervalCases
import Mathlib.Data.Nat.Digits
import GoSieve.Comparators

/-!
# Date-parts and zones

What the `date` and `currentdate` tests compare: the text `extractDatePart` writes for each
RFC 5260 date-part, and the offset `parseZoneOffset` reads from `:zone`.

`DatePartsRFC5260` is RFC 5260's syntax for the parts of a time. Every time with a year of four
digits and a zone of under 100 hours meets it (`extractDatePart_widths`). Outside that range
the parts break it: the `year` part is `strconv.Itoa` of the year where `date` pads it to four
digits, so the two differ for every year below 1000, and `parseZoneOffset` does not bound the
minutes, so `:zone "+9999"` gives a zone of five digits (`date_part_width_bug`).

`parseZoneOffset` reads the hours and the minutes with `strconv.Atoi`, which takes a sign: it
accepts exactly a sign and two fields that are each two digits or a sign and a digit
(`parseZoneOffset_accepts`), so `+-100` is accepted as one hour west (`zone_signed_field_bug`).

The loaders check the date-part against `ValidDateParts`, and the run expands and lowers it
again before `extractDatePart`. Every valid name is lower-case ASCII without a `$`, so neither
step changes it and `extractDatePart` writes it: a loaded `date` test reports an error only
from the host or the matcher (`loaded_date_test_errors`), and a loaded `currentdate` test runs
as its matcher on one date-part (`loaded_currentdate_test_matches`).
-/

namespace GoSieve

/-! ## Decimal digits -/

theorem toDigitsCore_append (f n : Nat) (ds : List Char) :
    Nat.toDigitsCore 10 f n ds = Nat.toDigitsCore 10 f n [] ++ ds := by
  induction f generalizing n ds with
  | zero => rfl
  | succ f ih =>
    simp only [Nat.toDigitsCore]
    split
    · rfl
    · rw [ih, ih _ [_], List.append_assoc, List.singleton_append]

theorem toDigitsCore_fuel {f g n : Nat} (hf : n < f) (hg : n < g) (ds : List Char) :
    Nat.toDigitsCore 10 f n ds = Nat.toDigitsCore 10 g n ds := by
  induction f generalizing g n ds with
  | zero => omega
  | succ f ih =>
    obtain ⟨g, rfl⟩ : ∃ g', g = g' + 1 := ⟨g - 1, by omega⟩
    simp only [Nat.toDigitsCore]
    split
    · rfl
    · exact ih (by omega) (by omega) _

/-- `strconv.Itoa` of a number of more than one digit: the digits of its tenth, then its last. -/
theorem toDigits_eq (n : Nat) : Nat.toDigits 10 n =
    if n < 10 then [Nat.digitChar n] else Nat.toDigits 10 (n / 10) ++ [Nat.digitChar (n % 10)] := by
  unfold Nat.toDigits
  rw [Nat.toDigitsCore]
  split_ifs with h1 h2 h2
  · rw [Nat.mod_eq_of_lt h2]
  · omega
  · omega
  · rw [toDigitsCore_append, toDigitsCore_fuel (g := n / 10 + 1) (by omega) (by omega)]

/-- The byte of the decimal digit `d`. -/
def digitByte (d : Nat) : UInt8 := UInt8.ofNat (48 + d)

theorem utf8EncodeChar_digitChar {d : Nat} (h : d < 10) :
    String.utf8EncodeChar (Nat.digitChar d) = [digitByte d] := by
  interval_cases d <;> rfl

theorem digitsOf_eq (n : Nat) : digitsOf n =
    if n < 10 then [digitByte n] else digitsOf (n / 10) ++ [digitByte (n % 10)] := by
  show (Nat.toDigits 10 n).flatMap String.utf8EncodeChar = _
  rw [toDigits_eq]
  split_ifs with h
  · simp [utf8EncodeChar_digitChar h]
  · rw [List.flatMap_append]
    simp [utf8EncodeChar_digitChar (Nat.mod_lt n (by decide : 10 > 0))]
    rfl

theorem isAsciiDigit_digitByte {d : Nat} (h : d < 10) : isAsciiDigit (digitByte d) = true := by
  interval_cases d <;> rfl

theorem digitByte_toNat {d : Nat} (h : d < 10) : (digitByte d).toNat - 48 = d := by
  interval_cases d <;> rfl

theorem digitsValue_append_byte (s : Bytes) (c : UInt8) :
    digitsValue (s ++ [c]) = 10 * digitsValue s + (c.toNat - 48) := by
  simp [digitsValue, List.foldl_append]

/-- The digits of `n` are ASCII digits, and read back they give `n`. -/
theorem digitsOf_spec (n : Nat) :
    (digitsOf n).all isAsciiDigit = true ∧ digitsValue (digitsOf n) = n := by
  induction n using Nat.strong_induction_on with
  | _ n ih =>
    rw [digitsOf_eq]
    split_ifs with h
    · exact ⟨by simp [isAsciiDigit_digitByte h], by simp [digitsValue, digitByte_toNat h]⟩
    · obtain ⟨hall, hval⟩ := ih (n / 10) (by omega)
      refine ⟨by simp [hall, isAsciiDigit_digitByte (Nat.mod_lt n (by decide : 10 > 0))], ?_⟩
      rw [digitsValue_append_byte, hval, digitByte_toNat (Nat.mod_lt n (by decide : 10 > 0))]
      omega

theorem length_digitsOf_le {n k : Nat} (h : n < 10 ^ k) (hk : 0 < k) : (digitsOf n).length ≤ k := by
  induction k generalizing n with
  | zero => omega
  | succ k ih =>
    rw [digitsOf_eq]
    split_ifs with h10
    · simp
    · have : n / 10 < 10 ^ k := by rw [Nat.pow_succ] at h; omega
      have hk' : 0 < k := by
        rcases Nat.eq_zero_or_pos k with rfl | hk'
        · simp at h; omega
        · exact hk'
      simpa using ih this hk'

theorem le_length_digitsOf {n k : Nat} (h : 10 ^ k ≤ n) : k + 1 ≤ (digitsOf n).length := by
  induction k generalizing n with
  | zero => rw [digitsOf_eq]; split_ifs <;> simp
  | succ k ih =>
    rw [digitsOf_eq]
    have h10 : ¬ n < 10 := by have := Nat.pos_pow_of_pos k (by decide : 0 < 10); rw [Nat.pow_succ] at h; omega
    have : 10 ^ k ≤ n / 10 := by rw [Nat.pow_succ] at h; omega
    simpa [h10] using ih this

/-- `b` is `v` written in exactly `w` ASCII digits. -/
def IsDecimal (w v : Nat) (b : Bytes) : Prop :=
  b.length = w ∧ b.all isAsciiDigit = true ∧ digitsValue b = v

theorem digitsValue_replicate_zero_append (k : Nat) (s : Bytes) :
    digitsValue (List.replicate k 48 ++ s) = digitsValue s := by
  have h : ∀ k, (List.replicate k (48 : UInt8)).foldl (fun n c => 10 * n + (c.toNat - 48)) 0 = 0 := by
    intro k; induction k with
    | zero => rfl
    | succ k ih => rw [List.replicate_succ', List.foldl_append, ih]; rfl
  simp only [digitsValue, List.foldl_append, h]

/-- `appendInt(b, n, width)` of a number with at most `width` digits writes exactly `width`. -/
theorem padInt_isDecimal {n w : Nat} (hn : n < 10 ^ w) (hw : 0 < w) :
    IsDecimal w n (padInt n w) := by
  obtain ⟨hall, hval⟩ := digitsOf_spec n
  have hlen := length_digitsOf_le hn hw
  simp only [padInt, Int.natAbs_ofNat, show ¬ ((n : Int) < 0) by omega, if_false, List.nil_append]
  refine ⟨by simp; omega, ?_, by rw [digitsValue_replicate_zero_append, hval]⟩
  simp only [List.all_append, hall, Bool.and_true]
  exact List.all_eq_true.2 fun c hc => by rw [List.eq_of_mem_replicate hc]; rfl

/-! ## The fields of a time -/

/-- The month and the day that `civilFromDays` reads off a day of the year counted from
1 March: any day up to 500 gives a month of at most 12 and a day of at most 31. -/
theorem month_day_of_doy_le {doy : Int} (h : doy ≤ 500) :
    (if (5 * doy + 2) / 153 < 10 then (5 * doy + 2) / 153 + 3
      else (5 * doy + 2) / 153 - 9).toNat ≤ 12 ∧
    (doy - (153 * ((5 * doy + 2) / 153) + 2) / 5 + 1).toNat ≤ 31 := by
  split_ifs <;> omega

/-- The day of the era's year that `civilFromDays` computes is at most 500, whatever the day
number: its month is at most 12 and its day at most 31. -/
theorem civilFromDays_le (z : Int) : (civilFromDays z).2.1 ≤ 12 ∧ (civilFromDays z).2.2 ≤ 31 := by
  dsimp only [civilFromDays]
  generalize hdoe : z + 719468 - (z + 719468) / 146097 * 146097 = doe
  have hdoe' : 0 ≤ doe ∧ doe ≤ 146096 := by omega
  generalize hyoe : (doe - doe / 1460 + doe / 36524 - doe / 146096) / 365 = yoe
  exact month_day_of_doy_le (by omega)

namespace Time

theorem month_le (t : Time) : t.month ≤ 12 := (civilFromDays_le _).1

theorem day_le (t : Time) : t.day ≤ 31 := (civilFromDays_le _).2

theorem hour_lt (t : Time) : t.hour < 24 := by unfold hour secs; omega

theorem minute_lt (t : Time) : t.minute < 60 := by unfold minute secs; omega

theorem second_lt (t : Time) : t.second < 60 := by unfold second secs; omega

theorem weekday_lt (t : Time) : t.weekday < 7 := by unfold weekday; omega

end Time

/-! ## The date-parts -/

/-- What RFC 5260 asks of the date-parts of `t`: the year in four digits, the month, day,
hour, minute and second in two, each the time's own field; `date`, `time` and `iso8601` made of
those same fields; the zone a sign and four digits of hours and minutes, seconds dropped; the
weekday one digit. -/
def DatePartsRFC5260 (t : Time) : Prop :=
  ∃ Y M D h mi s zh zm W : Bytes,
    IsDecimal 4 t.year.toNat Y ∧ IsDecimal 2 t.month M ∧ IsDecimal 2 t.day D ∧
    IsDecimal 2 t.hour h ∧ IsDecimal 2 t.minute mi ∧ IsDecimal 2 t.second s ∧
    IsDecimal 2 ((Int.tdiv t.offset 60).natAbs / 60) zh ∧
    IsDecimal 2 ((Int.tdiv t.offset 60).natAbs % 60) zm ∧ IsDecimal 1 t.weekday W ∧
    t.month ≤ 12 ∧ t.day ≤ 31 ∧ t.hour < 24 ∧ t.minute < 60 ∧ t.second < 60 ∧
    t.weekday < 7 ∧
    let sign := if Int.tdiv t.offset 60 < 0 then lit "-" else lit "+"
    extractDatePart t (lit "year") = .ok Y ∧
    extractDatePart t (lit "month") = .ok M ∧
    extractDatePart t (lit "day") = .ok D ∧
    extractDatePart t (lit "date") = .ok (Y ++ lit "-" ++ M ++ lit "-" ++ D) ∧
    extractDatePart t (lit "hour") = .ok h ∧
    extractDatePart t (lit "minute") = .ok mi ∧
    extractDatePart t (lit "second") = .ok s ∧
    extractDatePart t (lit "time") = .ok (h ++ lit ":" ++ mi ++ lit ":" ++ s) ∧
    extractDatePart t (lit "iso8601") = .ok (Y ++ lit "-" ++ M ++ lit "-" ++ D ++ lit "T" ++
      h ++ lit ":" ++ mi ++ lit ":" ++ s ++ sign ++ zh ++ lit ":" ++ zm) ∧
    extractDatePart t (lit "zone") = .ok (sign ++ zh ++ zm) ∧
    extractDatePart t (lit "weekday") = .ok W

/-- Within a year of four digits and a zone of under 100 hours, every date-part that
`extractDatePart` writes has the width of RFC 5260, and the parts agree: the year, month and
day are the fields of `date` and of `iso8601`, the hour, minute and second those of `time`. -/
theorem extractDatePart_widths (t : Time) (hy : 1000 ≤ t.year ∧ t.year ≤ 9999)
    (hz : t.offset.natAbs < 360000) : DatePartsRFC5260 t := by
  unfold DatePartsRFC5260
  obtain ⟨y, hy0⟩ : ∃ y : Nat, t.year = y := ⟨t.year.toNat, by omega⟩
  have hY : itoaInt t.year = padInt t.year 4 := by
    have h4 := le_length_digitsOf (k := 3) (n := y) (by omega)
    have h4' := length_digitsOf_le (k := 4) (n := y) (by omega) (by decide)
    simp only [hy0, itoaInt, padInt, Int.natAbs_ofNat, show ¬ ((y : Int) < 0) by omega, if_false,
      List.nil_append, show 4 - (digitsOf y).length = 0 by omega, List.replicate_zero]
  have hW : itoaInt t.weekday = padInt t.weekday 1 := by
    have h10 : t.weekday < 10 := by have := t.weekday_lt; omega
    simp only [itoaInt, padInt, Int.natAbs_ofNat, show ¬ ((t.weekday : Int) < 0) by omega,
      if_false, List.nil_append, digitsOf_eq t.weekday, if_pos h10, List.length_singleton,
      Nat.sub_self, List.replicate_zero]
  have hzone : (Int.tdiv t.offset 60).natAbs < 6000 := by
    rw [Int.natAbs_tdiv]
    show t.offset.natAbs / 60 < 6000
    omega
  have hz60 : (Int.tdiv t.offset 60).natAbs % 60 < 10 ^ 2 := by omega
  refine ⟨padInt t.year 4, _, _, _, _, _, _, _, _,
    by rw [hy0, Int.toNat_natCast]; exact padInt_isDecimal (by omega) (by decide),
    padInt_isDecimal (by have := t.month_le; omega) (by decide),
    padInt_isDecimal (by have := t.day_le; omega) (by decide),
    padInt_isDecimal (by have := t.hour_lt; omega) (by decide),
    padInt_isDecimal (by have := t.minute_lt; omega) (by decide),
    padInt_isDecimal (by have := t.second_lt; omega) (by decide),
    padInt_isDecimal (by omega) (by decide),
    padInt_isDecimal hz60 (by decide),
    padInt_isDecimal (by have := t.weekday_lt; omega) (by decide),
    t.month_le, t.day_le, t.hour_lt, t.minute_lt, t.second_lt, t.weekday_lt, ?_⟩
  refine ⟨congrArg _ hY, rfl, rfl, rfl, rfl, rfl, rfl, rfl,
    (show extractDatePart t (lit "iso8601") =
      .ok (formatDate t ++ lit "T" ++ formatTime t ++ formatZone t.offset true) from rfl).trans ?_,
    (show extractDatePart t (lit "zone") = .ok (formatZone t.offset false) from rfl).trans ?_,
    congrArg _ hW⟩ <;>
    simp only [formatDate, formatTime, formatZone, List.append_assoc, if_true, if_false,
      List.nil_append, Bool.false_eq_true]

theorem extractDatePart_widths_epoch :
    let t : Time := ⟨0, 0⟩
    (1000 ≤ t.year ∧ t.year ≤ 9999) ∧ t.offset.natAbs < 360000 ∧ DatePartsRFC5260 t := by
  intro t
  have hy : 1000 ≤ t.year ∧ t.year ≤ 9999 := by decide
  have hz : t.offset.natAbs < 360000 := by decide
  exact ⟨hy, hz, extractDatePart_widths t hy hz⟩

/-- The `year` part is `strconv.Itoa` of the year where `date` and `iso8601` pad it to four
digits: below the year 1000 it is shorter than four digits and is not the first four bytes of
`date`. And `parseZoneOffset` does not bound the minutes, so `:zone "+9999"` sets an offset of
100 hours and 39 minutes, whose `zone` part has five digits. -/
theorem date_part_width_bug (L : Lib) (t : Time) (hy : 0 ≤ t.year ∧ t.year < 1000) :
    (∃ Y D, extractDatePart t (lit "year") = .ok Y ∧ extractDatePart t (lit "date") = .ok D ∧
      Y.length < 4 ∧ D.take 4 ≠ Y) ∧
    extractDatePart (applyZone L false (lit "+9999") t) (lit "zone") = .ok (lit "+10039") := by
  obtain ⟨y, hy0⟩ : ∃ y : Nat, t.year = y := ⟨t.year.toNat, by omega⟩
  have hY : itoaInt t.year = digitsOf y := by simp [itoaInt, hy0]
  have hlen : (digitsOf y).length ≤ 3 := length_digitsOf_le (by omega) (by decide)
  have hpad : (padInt t.year 4).length = 4 := by
    rw [hy0]; exact (padInt_isDecimal (by omega) (by decide)).1
  have htake : (formatDate t).take 4 = padInt t.year 4 := by
    simp only [formatDate, List.append_assoc]; exact List.take_left' hpad
  have hzone : extractDatePart (applyZone L false (lit "+9999") t) (lit "zone") =
      .ok (formatZone 362340 false) := rfl
  refine ⟨⟨_, _, rfl, rfl, by rw [hY]; omega, fun h => ?_⟩, hzone.trans (by decide)⟩
  have h4 := congrArg List.length h
  rw [htake, hpad, hY] at h4
  omega

/-- A time on 1 January 0999: the year part `999`, the date part `0999-01-01`. -/
theorem date_part_width_bug_0999 :
    let t : Time := ⟨-30641760000, 0⟩
    (0 ≤ t.year ∧ t.year < 1000) ∧
      ((∃ Y D, extractDatePart t (lit "year") = .ok Y ∧ extractDatePart t (lit "date") = .ok D ∧
        Y.length < 4 ∧ D.take 4 ≠ Y) ∧
      extractDatePart (applyZone sampleLib false (lit "+9999") t) (lit "zone") =
        .ok (lit "+10039")) ∧
      extractDatePart t (lit "year") = .ok (lit "999") ∧
      extractDatePart t (lit "date") = .ok (lit "0999-01-01") := by
  intro t
  have hy : 0 ≤ t.year ∧ t.year < 1000 := by decide
  exact ⟨hy, date_part_width_bug sampleLib t hy, by decide, by decide⟩

/-! ## Zones -/

/-- The digit a byte stands for. -/
def digitVal (c : UInt8) : Nat := c.toNat - 48

theorem isAsciiDigit_iff (c : UInt8) : isAsciiDigit c = true ↔ 48 ≤ c.toNat ∧ c.toNat ≤ 57 := by
  simp [isAsciiDigit, Byte.le_iff]

theorem digitVal_lt {c : UInt8} (h : isAsciiDigit c = true) : digitVal c < 10 := by
  have := (isAsciiDigit_iff c).1 h; unfold digitVal; omega

theorem digitsValue_singleton (c : UInt8) : digitsValue [c] = digitVal c := by
  simp [digitsValue, digitVal]

theorem digitsValue_pair (a b : UInt8) : digitsValue [a, b] = 10 * digitVal a + digitVal b := by
  simp [digitsValue, digitVal]

/-- A value of at most two digits passes `strconv.Atoi`'s range check for `int`. -/
theorem atoi_range_of_natAbs_lt {v : Int} (h : v.natAbs < 100) :
    (decide (-2 ^ 63 ≤ v) && decide (v < 2 ^ 63)) = true := by
  simp only [Bool.and_eq_true, decide_eq_true_eq]; omega

/-- `strconv.Atoi` on a field of two bytes: a sign and a digit, or two digits. -/
theorem atoi_pair (a b : UInt8) : atoi [a, b] =
    if a = 45 then (if isAsciiDigit b then some (-(digitVal b : Int)) else none)
    else if a = 43 then (if isAsciiDigit b then some (digitVal b : Int) else none)
    else if isAsciiDigit a && isAsciiDigit b then some (10 * digitVal a + digitVal b : Nat)
    else none := by
  unfold atoi
  split
  next neg ds heq =>
    split at heq
    case h_3 h45 h43 =>
      obtain ⟨rfl, rfl⟩ := Prod.mk.inj heq
      have h45' : a ≠ 45 := fun h => h45 [b] (by rw [h])
      have h43' : a ≠ 43 := fun h => h43 [b] (by rw [h])
      cases ha : isAsciiDigit a <;> cases hb : isAsciiDigit b <;>
        simp only [List.isEmpty_cons, List.all_cons, List.all_nil, ha, hb, h45', h43', Bool.and_true,
          Bool.and_false, Bool.not_true, Bool.not_false, Bool.or_false, Bool.or_true, if_true,
          if_false, Bool.false_eq_true, digitsValue_pair]
      have := digitVal_lt ha
      have := digitVal_lt hb
      rw [if_pos (atoi_range_of_natAbs_lt (by omega))]
    -- a sign, then the digit
    all_goals
      obtain ⟨rfl, rfl⟩ := List.cons.inj ‹_›
      obtain ⟨rfl, rfl⟩ := Prod.mk.inj heq
      cases hb : isAsciiDigit b <;>
        simp only [List.isEmpty_cons, List.all_cons, List.all_nil, hb, Bool.and_true, Bool.and_false,
          Bool.not_true, Bool.not_false, Bool.or_false, Bool.false_or, if_true, if_false,
          Bool.false_eq_true, digitsValue_singleton, if_pos rfl, (by decide : (43 : UInt8) ≠ 45)]
      rw [if_pos (atoi_range_of_natAbs_lt (by have := digitVal_lt hb; omega))]

theorem length_of_parseZoneOffset_ok {z : Bytes} {v : Int} (h : parseZoneOffset z = .ok v) :
    z.length = 5 := by
  unfold parseZoneOffset at h
  by_contra hne
  rw [if_pos hne] at h
  cases h

/-- `parseZoneOffset` reads five bytes: a sign, then hours and minutes through `strconv.Atoi`. -/
theorem parseZoneOffset_five (s a b c d : UInt8) (v : Int) :
    parseZoneOffset [s, a, b, c, d] = .ok v ↔
      ∃ sg hh mm, (s = 45 ∧ sg = -1 ∨ s = 43 ∧ sg = 1) ∧
        atoi [a, b] = some hh ∧ atoi [c, d] = some mm ∧ v = sg * (hh * 3600 + mm * 60) := by
  simp only [parseZoneOffset, List.length_cons, List.length_nil, List.head?_cons, List.drop,
    List.take, ne_eq, not_true_eq_false, if_false, Option.some.injEq]
  constructor
  · intro h
    split at h
    · cases h
    · next sg hsg =>
      split at h
      · cases h
      · next hh hh' =>
        split at h
        · cases h
        · next mm hm =>
          cases h
          refine ⟨sg, hh, mm, ?_, hh', hm, rfl⟩
          split_ifs at hsg with h45 h43 <;> cases hsg
          exacts [.inl ⟨h45, rfl⟩, .inr ⟨h43, rfl⟩]
  · rintro ⟨sg, hh, mm, hs, ha, hc, rfl⟩
    rw [ha, hc]
    rcases hs with ⟨rfl, rfl⟩ | ⟨rfl, rfl⟩ <;> rfl

/-- A field of two bytes that `strconv.Atoi` reads: a digit after a digit or a sign. -/
def AtoiField (a b : UInt8) : Prop :=
  isAsciiDigit b = true ∧ (isAsciiDigit a = true ∨ a = 43 ∨ a = 45)

theorem atoi_pair_isSome (a b : UInt8) : (atoi [a, b]).isSome ↔ AtoiField a b := by
  rw [atoi_pair]
  unfold AtoiField
  by_cases h45 : a = 45
  · subst h45; cases isAsciiDigit b <;> simp
  by_cases h43 : a = 43
  · subst h43; cases isAsciiDigit b <;> simp
  cases isAsciiDigit a <;> cases isAsciiDigit b <;> simp [h45, h43]

/-- The zones `parseZoneOffset` accepts: a sign, then two fields that `strconv.Atoi` reads,
each two digits or a sign and a digit. -/
theorem parseZoneOffset_accepts (z : Bytes) : (∃ v, parseZoneOffset z = .ok v) ↔
    ∃ s a b c d, z = [s, a, b, c, d] ∧ (s = 43 ∨ s = 45) ∧ AtoiField a b ∧ AtoiField c d := by
  constructor
  · rintro ⟨v, h⟩
    match z, length_of_parseZoneOffset_ok h with
    | [s, a, b, c, d], _ =>
      obtain ⟨sg, hh, mm, hs, ha, hc, -⟩ := (parseZoneOffset_five s a b c d v).1 h
      exact ⟨s, a, b, c, d, rfl, hs.elim (fun h => .inr h.1) (fun h => .inl h.1),
        (atoi_pair_isSome a b).1 (by simp [ha]), (atoi_pair_isSome c d).1 (by simp [hc])⟩
  · rintro ⟨s, a, b, c, d, rfl, hs, ha, hc⟩
    obtain ⟨hh, hh'⟩ := Option.isSome_iff_exists.1 ((atoi_pair_isSome a b).2 ha)
    obtain ⟨mm, hm⟩ := Option.isSome_iff_exists.1 ((atoi_pair_isSome c d).2 hc)
    exact ⟨_, (parseZoneOffset_five s a b c d _).2 ⟨if s = 45 then -1 else 1, hh, mm,
      by rcases hs with rfl | rfl <;> simp, hh', hm, rfl⟩⟩

/-- `strconv.Atoi` reads a sign inside the hours field: `:zone "+-100"` and `:zone "++100"` are
accepted as offsets of minus and plus one hour. `date` and `currentdate` load with the first,
and the date test then reads the header's time one hour west of UTC. -/
theorem zone_signed_field_bug :
    parseZoneOffset (lit "+-100") = .ok (-3600) ∧ parseZoneOffset (lit "++100") = .ok 3600 ∧
    (∃ sc, loadScript goCase
        [.mk (lit "require") [.string (lit "date")] [] [],
         .mk (lit "if") []
          [.mk (lit "date") [.tag (lit "zone"), .string (lit "+-100"), .string (lit "date"),
            .string (lit "hour"), .string (lit "17")] []]
          [.mk (lit "keep") [] [] []]]
        defaultOptions [lit "date"] = .ok sc) ∧
    (∃ sc, loadScript goCase
        [.mk (lit "require") [.string (lit "date")] [] [],
         .mk (lit "if") []
          [.mk (lit "currentdate") [.tag (lit "zone"), .string (lit "+-100"), .string (lit "hour"),
            .string (lit "17")] []]
          [.mk (lit "keep") [] [] []]]
        defaultOptions [lit "date"] = .ok sc) ∧
    ∀ (L : Lib) (t : Time), applyZone L false (lit "+-100") t = t.inZone (-3600) :=
  ⟨rfl, rfl, ⟨_, rfl⟩, ⟨_, rfl⟩, fun _ _ => rfl⟩

/-! ## What the loader checks, the run relies on -/

/-- Text without a `$` has nothing to expand. -/
theorem expandScan_text_of_not_mem (lookup : Bytes → Bytes) :
    ∀ {s : Bytes}, 36 ∉ s → expandScan lookup .text s = s
  | [], _ => rfl
  | c :: t, h => by
    rw [List.mem_cons, not_or] at h
    rw [expandScan, if_neg (Ne.symm h.1), expandScan_text_of_not_mem lookup h.2]

theorem expandVars_of_not_mem (d : RuntimeData) {s : Bytes} (h : 36 ∉ s) : expandVars d s = s := by
  unfold expandVars
  split
  · exact expandScan_text_of_not_mem _ h
  · rfl

/-- The date-part names are lower-case ASCII without a `$`. -/
theorem validDateParts_plain :
    ∀ p ∈ validDateParts, 36 ∉ p ∧ p.all isAsciiByte ∧ p.map lowerByte = p := by
  decide

/-- A valid date-part survives the run's expansion and lowering unchanged. -/
theorem toLower_expandVars_of_valid (C : CaseTables) (d : RuntimeData) {p : Bytes}
    (hp : p ∈ validDateParts) : toLower C (expandVars d p) = p := by
  obtain ⟨h36, hascii, hlower⟩ := validDateParts_plain p hp
  rw [expandVars_of_not_mem d h36, toLower_of_ascii C hascii, hlower]

/-- `extractDatePart` writes every part of `ValidDateParts`. -/
theorem extractDatePart_ok_of_valid (t : Time) {p : Bytes} (hp : p ∈ validDateParts) :
    ∃ v, extractDatePart t p = .ok v := by
  simp only [validDateParts, List.map_cons, List.map_nil, List.mem_cons, List.not_mem_nil,
    or_false] at hp
  rcases hp with rfl | rfl | rfl | rfl | rfl | rfl | rfl | rfl | rfl | rfl | rfl | rfl | rfl <;>
    exact ⟨_, rfl⟩

section Loaded

variable {C : CaseTables} {s : ScriptConfig} {args : List Arg} {n : Nat} {m : MatcherTest}
  {part zone : Bytes}

theorem loadDateTest_datePart {header : Bytes} {originalZone : Bool} {index : Nat} {last : Bool}
    (h : loadDateTest C s args n = .ok (.dateTest m header part zone originalZone index last)) :
    part ∈ validDateParts := by
  unfold loadDateTest at h
  generalize loadSpec _ args n false {} = r at h
  simp only [bind, Except.bind, pure, Except.pure, throw, throwThe, MonadExceptOf.throw] at h
  obtain ⟨-, h⟩ := ok_of_ite_error h
  obtain ⟨l, -, h⟩ := ok_of_bind_ok h
  obtain ⟨-, h⟩ := ok_of_ite_error h
  rcases ite_eq_ok h with ⟨-, h⟩ | ⟨-, h⟩
  on_goal 1 => split at h; · cases h
  all_goals
    obtain ⟨hp, h⟩ := ok_of_ite_error h
    obtain ⟨-, h⟩ := ok_of_ite_error h
    obtain ⟨-, h⟩ := ok_of_ite_error h
    obtain ⟨m, -, h⟩ := ok_of_bind_ok h
    cases h
    exact not_not.1 hp

theorem loadCurrentDateTest_datePart
    (h : loadCurrentDateTest C s args n = .ok (.currentDateTest m part zone)) :
    part ∈ validDateParts := by
  unfold loadCurrentDateTest at h
  generalize loadSpec _ args n false {} = r at h
  simp only [bind, Except.bind, pure, Except.pure, throw, throwThe, MonadExceptOf.throw] at h
  obtain ⟨-, h⟩ := ok_of_ite_error h
  obtain ⟨l, -, h⟩ := ok_of_bind_ok h
  rcases ite_eq_ok h with ⟨-, h⟩ | ⟨-, h⟩
  on_goal 1 => split at h; · cases h
  all_goals
    obtain ⟨hp, h⟩ := ok_of_ite_error h
    obtain ⟨m, -, h⟩ := ok_of_bind_ok h
    cases h
    exact not_not.1 hp

end Loaded

/-- A date test that `loadDateTest` accepted reports an error only from the host's header read
or from the matcher: the date-part it validated is one the run extracts, whatever the variables
and the case tables. -/
theorem loaded_date_test_errors {C : CaseTables} {s : ScriptConfig} {args : List Arg} {n : Nat}
    {m : MatcherTest} {header part zone : Bytes} {originalZone : Bool} {index : Nat} {last : Bool}
    (hl : loadDateTest C s args n = .ok (.dateTest m header part zone originalZone index last))
    (L : Lib) (d : RuntimeData) (b : Bool) (e : Bytes) (d' : RuntimeData)
    (h : dateTestCheck L m header part zone originalZone index last d = .ok (b, some e, d')) :
    d.headerGet L.case (expandVars d header) = .error e ∨
      ∃ v, m.tryMatch L d v m.key = .ok (b, some e, d') := by
  have hp := loadDateTest_datePart hl
  unfold dateTestCheck at h
  split at h
  · cases h; exact .inl ‹_›
  split at h
  · cases h
  split at h
  · cases h
  split at h
  · cases h
  next t _ =>
  obtain ⟨v, hv⟩ := extractDatePart_ok_of_valid (applyZone L originalZone zone t) hp
  rw [toLower_expandVars_of_valid L.case d hp, hv] at h
  exact .inr ⟨v, h⟩

theorem loaded_date_test_errors_sample :
    let d := newRuntimeData ⟨[lit "date"], defaultOptions⟩ dummyPolicy ⟨[], [], []⟩
      ⟨fun _ => .error (lit "host error"), 0⟩
    let m : MatcherTest := { newMatcherTest with key := [lit "2024"] }
    loadDateTest goCase ⟨[lit "date"], defaultOptions⟩
        [.string (lit "Date"), .string (lit "Year"), .string (lit "2024")] 0 =
      .ok (.dateTest m (lit "Date") (lit "year") [] false 0 false) ∧
    dateTestCheck sampleLib m (lit "Date") (lit "year") [] false 0 false d =
      .ok (false, some (lit "host error"), d) ∧
    (d.headerGet sampleLib.case (expandVars d (lit "Date")) = .error (lit "host error") ∨
      ∃ v, m.tryMatch sampleLib d v m.key = .ok (false, some (lit "host error"), d)) := by
  intro d m
  have hl : loadDateTest goCase ⟨[lit "date"], defaultOptions⟩
      [.string (lit "Date"), .string (lit "Year"), .string (lit "2024")] 0 =
    .ok (.dateTest m (lit "Date") (lit "year") [] false 0 false) := rfl
  have h : dateTestCheck sampleLib m (lit "Date") (lit "year") [] false 0 false d =
    .ok (false, some (lit "host error"), d) := rfl
  exact ⟨hl, h, loaded_date_test_errors hl sampleLib d false _ d h⟩

/-- A `currentdate` test that `loadCurrentDateTest` accepted runs as its matcher on the text of
one date-part: the run never fails to extract the part the loader validated. -/
theorem loaded_currentdate_test_matches {C : CaseTables} {s : ScriptConfig} {args : List Arg}
    {n : Nat} {m : MatcherTest} {part zone : Bytes}
    (hl : loadCurrentDateTest C s args n = .ok (.currentDateTest m part zone)) (L : Lib)
    (d : RuntimeData) : ∃ v, currentDateTestCheck L m part zone d = m.tryMatch L d v m.key := by
  have hp := loadCurrentDateTest_datePart hl
  unfold currentDateTestCheck
  dsimp only
  rw [toLower_expandVars_of_valid L.case d hp]
  split
  · next he =>
    obtain ⟨v, hv⟩ := extractDatePart_ok_of_valid _ hp
    rw [hv] at he
    cases he
  · exact ⟨_, rfl⟩

theorem loaded_currentdate_test_matches_sample :
    loadCurrentDateTest goCase ⟨[lit "date"], defaultOptions⟩
        [.string (lit "Weekday"), .string (lit "4")] 0 =
      .ok (.currentDateTest { newMatcherTest with key := [lit "4"] } (lit "weekday") []) ∧
    ∃ v, currentDateTestCheck sampleLib { newMatcherTest with key := [lit "4"] } (lit "weekday") []
        (newRuntimeData ⟨[lit "date"], defaultOptions⟩ dummyPolicy ⟨[], [], []⟩
          (messageStatic [] 0)) =
      MatcherTest.tryMatch sampleLib { newMatcherTest with key := [lit "4"] }
        (newRuntimeData ⟨[lit "date"], defaultOptions⟩ dummyPolicy ⟨[], [], []⟩
          (messageStatic [] 0)) v [lit "4"] :=
  have hl : loadCurrentDateTest goCase ⟨[lit "date"], defaultOptions⟩
      [.string (lit "Weekday"), .string (lit "4")] 0 =
    .ok (.currentDateTest { newMatcherTest with key := [lit "4"] } (lit "weekday") []) := rfl
  ⟨hl, loaded_currentdate_test_matches hl sampleLib _⟩

end GoSieve
