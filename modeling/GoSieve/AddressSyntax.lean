import GoSieve.Tests

/-!
# Envelope addresses and header comments

Two functions that clean addresses before they are matched. `parseEnvelopeAddress` checks
the envelope's `from` and `to`: only their basic syntax, as its comments say. A bare address
is returned as written once it has an `@` and does not start or end with one; a bracketed
address loses its brackets and must then have exactly one `@` between a non-empty local part
and domain. So the two branches disagree on a second `@`: `a@b@c` is accepted as it is and
`<a@b@c>` is rejected (`envelope_multiple_at_bug`). Every address `l@dom` with a non-empty
local part and domain free of `@`, `:` and angle brackets is accepted, bare or bracketed, and
comes back without its brackets (`parseEnvelopeAddress_of_address`).

`stripRFC2822Comments` removes header comments with the regular expression `\([^)]*\)`, a
`(` up to the first `)` after it. That removes exactly the comments of a string whose comments
do not nest; a nested comment leaves its tail behind, and a parenthesis in a quoted string is
removed although it is no comment.

`split` divides an address at its last `@`: apart from `postmaster` it accepts exactly an
address with a non-empty local part and a non-empty domain free of `@` (`split_ok_iff`). With
`splitSubaddress`, which divides a local part at its first `+`, that gives every address-part of
such an address (`addressPartValue_of_address`).
-/

namespace GoSieve

/-! ## `stripRFC2822Comments` -/

theorem removeParens_none_append {t : Bytes} (r : Bytes) (h : 40 ∉ t) :
    stripRFC2822Comments.removeParens none (t ++ r) =
      t ++ stripRFC2822Comments.removeParens none r := by
  induction t with
  | nil => rfl
  | cons c t ih =>
    simp only [List.mem_cons, not_or] at h
    simp [stripRFC2822Comments.removeParens, Ne.symm h.1, ih h.2]

/-- Inside a match, everything up to the first `)` is dropped with it. -/
theorem removeParens_some_append {c : Bytes} (pending r : Bytes) (h : 41 ∉ c) :
    stripRFC2822Comments.removeParens (some pending) (c ++ 41 :: r) =
      stripRFC2822Comments.removeParens none r := by
  induction c generalizing pending with
  | nil => simp [stripRFC2822Comments.removeParens]
  | cons x c ih =>
    simp only [List.mem_cons, not_or] at h
    simp [stripRFC2822Comments.removeParens, Ne.symm h.1, ih _ h.2]

/-- A string `t₀(c₁)t₁…(cₙ)tₙ` whose texts hold no `(` and whose comments hold neither `(`
nor `)` loses exactly its comments, and is then trimmed. -/
theorem stripRFC2822Comments_of_unnested (xs : List (Bytes × Bytes)) (last : Bytes)
    (hxs : ∀ p ∈ xs, 40 ∉ p.1 ∧ 40 ∉ p.2 ∧ 41 ∉ p.2) (hlast : 40 ∉ last) :
    stripRFC2822Comments ((xs.map fun p => p.1 ++ [40] ++ p.2 ++ [41]).flatten ++ last) =
      trimSpace ((xs.map Prod.fst).flatten ++ last) := by
  suffices h : ∀ xs : List (Bytes × Bytes), (∀ p ∈ xs, 40 ∉ p.1 ∧ 40 ∉ p.2 ∧ 41 ∉ p.2) →
      stripRFC2822Comments.removeParens none
        ((xs.map fun p => p.1 ++ [40] ++ p.2 ++ [41]).flatten ++ last) =
      (xs.map Prod.fst).flatten ++ last by
    rw [stripRFC2822Comments, h xs hxs]
  intro xs hxs
  induction xs with
  | nil =>
    simpa [stripRFC2822Comments.removeParens] using removeParens_none_append [] hlast
  | cons p xs ih =>
    simp only [List.mem_cons, forall_eq_or_imp] at hxs
    obtain ⟨⟨h1, -, h3⟩, hrest⟩ := hxs
    have hsplit : ∀ F : Bytes, p.1 ++ [40] ++ p.2 ++ [41] ++ F ++ last =
        p.1 ++ 40 :: (p.2 ++ 41 :: (F ++ last)) := by simp
    rw [List.map_cons, List.flatten_cons, hsplit, removeParens_none_append _ h1,
      stripRFC2822Comments.removeParens, if_pos rfl, removeParens_some_append _ _ h3, ih hrest]
    simp

theorem stripRFC2822Comments_of_unnested_sample :
    (∀ p ∈ [(lit "tss", lit "no spam")], 40 ∉ p.1 ∧ 40 ∉ p.2 ∧ 41 ∉ p.2) ∧ 40 ∉ lit "@fi.iki" ∧
    stripRFC2822Comments
        (([(lit "tss", lit "no spam")].map fun p => p.1 ++ [40] ++ p.2 ++ [41]).flatten ++
          lit "@fi.iki") =
      trimSpace (([(lit "tss", lit "no spam")].map Prod.fst).flatten ++ lit "@fi.iki") :=
  have hxs : ∀ p ∈ [(lit "tss", lit "no spam")], 40 ∉ p.1 ∧ 40 ∉ p.2 ∧ 41 ∉ p.2 := by decide
  have hlast : 40 ∉ lit "@fi.iki" := by decide
  ⟨hxs, hlast, stripRFC2822Comments_of_unnested _ _ hxs hlast⟩

/-- A nested comment leaves `)` behind, and a quoted `(x)` is removed. -/
theorem nested_comment_counterexample :
    stripRFC2822Comments (lit "a((b))c") = lit "a)c" ∧
      stripRFC2822Comments (lit "\"(x)\"@y") = lit "\"\"@y" := by
  decide

/-! ## Searching for one byte -/

section OneByte

variable {c : UInt8}

theorem index_single_append {t : Bytes} : ∀ {p : Bytes}, c ∉ p →
    index (p ++ c :: t) [c] = some p.length
  | [], _ => by simp [index]
  | a :: p, h => by
    rw [List.mem_cons, not_or] at h
    simp [index, h.1, index_single_append h.2]

theorem index_single_some : ∀ {s : Bytes} {j : Nat}, index s [c] = some j →
    ∃ p t, s = p ++ c :: t ∧ c ∉ p ∧ p.length = j
  | [], j, h => by simp [index] at h
  | a :: s, j, h => by
    simp only [index, List.isPrefixOf, Bool.and_true, beq_iff_eq] at h
    split at h
    · next hc =>
      cases h
      exact ⟨[], s, by rw [hc]; rfl, List.not_mem_nil c, rfl⟩
    · next hc =>
      obtain ⟨j', hj', rfl⟩ := Option.map_eq_some'.1 h
      obtain ⟨p, t, rfl, hp, rfl⟩ := index_single_some hj'
      exact ⟨a :: p, t, rfl, by simp [hp, hc], rfl⟩

theorem index_single_eq_none {s : Bytes} (h : c ∉ s) : index s [c] = none := by
  cases hi : index s [c] with
  | none => rfl
  | some j =>
    obtain ⟨p, t, rfl, -, -⟩ := index_single_some hi
    simp at h

/-- `LastIndexByte` finds the occurrence after which the byte does not occur. -/
theorem lastIndexByte_append {p t : Bytes} (h : c ∉ t) :
    lastIndexByte (p ++ c :: t) c = some p.length := by
  unfold lastIndexByte
  rw [List.reverse_append, List.reverse_cons, List.append_assoc, List.singleton_append,
    index_single_append (by simpa using h)]
  simp only [Option.map_some', List.length_append, List.length_cons, List.length_reverse,
    Option.some.injEq]
  omega

theorem lastIndexByte_some {s : Bytes} {i : Nat} (h : lastIndexByte s c = some i) :
    ∃ p t, s = p ++ c :: t ∧ c ∉ t ∧ p.length = i := by
  obtain ⟨j, hj, rfl⟩ := Option.map_eq_some'.1 h
  obtain ⟨q, u, hs, hq, rfl⟩ := index_single_some hj
  have hs' : s = u.reverse ++ c :: q.reverse := by
    rw [← List.reverse_reverse s, hs]; simp
  refine ⟨u.reverse, q.reverse, hs', by simpa using hq, ?_⟩
  have := congrArg List.length hs'
  simp only [List.length_append, List.length_cons, List.length_reverse] at this ⊢
  omega

end OneByte

/-! ## `parseEnvelopeAddress` accepts plain addresses -/

theorem contains_single_iff {s : Bytes} {c : UInt8} : contains s [c] = true ↔ c ∈ s := by
  rw [contains_iff]
  refine ⟨fun h => h.subset (List.mem_singleton_self c), fun h => ?_⟩
  obtain ⟨p, t, rfl⟩ := List.append_of_mem h
  exact ⟨p, t, by simp⟩

theorem startsWith_cons_single (a b : UInt8) (s : Bytes) :
    startsWith (a :: s) [b] = (b == a) := by
  simp [startsWith, List.isPrefixOf]

/-- A string does not end with a byte its non-empty tail lacks. -/
theorem endsWith_single_of_not_mem {p t : Bytes} {c : UInt8} (ht : t ≠ []) (h : c ∉ t) :
    endsWith (p ++ t) [c] = false := by
  rw [← Bool.not_eq_true, endsWith_iff]
  rintro ⟨u, hu⟩
  obtain ⟨t', z, rfl⟩ := (List.eq_nil_or_concat t).resolve_left ht
  rw [List.concat_eq_append, ← List.append_assoc] at hu
  obtain ⟨-, hz⟩ := List.append_inj' hu rfl
  exact h (by simp [List.singleton_inj.1 hz])

/-- What an address part free of `@`, `:` and angle brackets lacks. -/
theorem ne_of_plain {l dom : Bytes} (hbytes : ∀ c ∈ l ++ dom, c ∉ lit "@:<>") {c : UInt8}
    (hc : c ∈ l ∨ c ∈ dom) : c ≠ 64 ∧ c ≠ 58 ∧ c ≠ 60 ∧ c ≠ 62 := by
  simpa [show lit "@:<>" = [64, 58, 60, 62] from rfl] using hbytes c (List.mem_append.2 hc)

/-- The text between the brackets of `<x>`. -/
theorem inner_of_bracketed (x : Bytes) :
    ((lit "<" ++ x ++ lit ">").drop 1).take ((lit "<" ++ x ++ lit ">").length - 2) = x := by
  show (x ++ [62]).take ((x ++ [62]).length + 1 - 2) = x
  simp

/-- `<x>` is neither empty nor `<>` when `x` is not empty, and it is bracketed. -/
theorem bracketed_checks {x : Bytes} (hx : x ≠ []) :
    (lit "<" ++ x ++ lit ">" = [] || lit "<" ++ x ++ lit ">" = lit "<>") = false ∧
      (!startsWith (lit "<" ++ x ++ lit ">") (lit "<") ||
        !endsWith (lit "<" ++ x ++ lit ">") (lit ">")) = false := by
  have haddr : lit "<" ++ x ++ lit ">" = 60 :: (x ++ [62]) := rfl
  have he : endsWith (60 :: (x ++ [62])) (lit ">") = true := endsWith_iff.2 ⟨60 :: x, rfl⟩
  rw [haddr]
  refine ⟨by simpa [show lit "<>" = [60, 62] from rfl] using hx, ?_⟩
  simp [startsWith_cons_single, show lit "<" = [60] from rfl, he]

/-- A bracketed plain address loses its brackets. -/
theorem parseEnvelopeAddress_bracketed {l dom : Bytes} (hl : l ≠ []) (hd : dom ≠ [])
    (hbytes : ∀ c ∈ l ++ dom, c ∉ lit "@:<>") :
    parseEnvelopeAddress (lit "<" ++ (l ++ 64 :: dom) ++ lit ">") = .ok (l ++ 64 :: dom) := by
  have hl64 : 64 ∉ l := fun h => (ne_of_plain hbytes (.inl h)).1 rfl
  have hd64 : 64 ∉ dom := fun h => (ne_of_plain hbytes (.inr h)).1 rfl
  have hcolon : contains (l ++ 64 :: dom) (lit ":") = false := by
    rw [← Bool.not_eq_true, show lit ":" = [58] from rfl, contains_single_iff]
    simp only [List.mem_append, List.mem_cons, not_or]
    exact ⟨fun h => (ne_of_plain hbytes (.inl h)).2.1 rfl, by decide,
      fun h => (ne_of_plain hbytes (.inr h)).2.1 rfl⟩
  have hdaemon : l ++ 64 :: dom ≠ lit "MAILER-DAEMON" := fun h => by
    have h64 : (64 : UInt8) ∈ lit "MAILER-DAEMON" :=
      h ▸ List.mem_append_right l (List.mem_cons_self 64 dom)
    exact absurd h64 (by decide)
  have hcount : count (l ++ 64 :: dom) 64 = 1 := by
    simp [count, List.count_eq_zero.2 hl64, List.count_eq_zero.2 hd64]
  have hsplit : splitN2 (l ++ 64 :: dom) (lit "@") = [l, dom] := by
    simp [splitN2, show lit "@" = [64] from rfl, index_single_append hl64]
  have hb := bracketed_checks (x := l ++ 64 :: dom) (by simp)
  unfold parseEnvelopeAddress
  rw [if_neg (Bool.eq_false_iff.1 hb.1), if_neg (Bool.eq_false_iff.1 hb.2)]
  simp only [inner_of_bracketed, hcolon, hdaemon, hcount, hsplit]
  simp [hl, hd]

/-- A string that starts with neither `<` nor `@`, holds an `@` and does not end with one
comes back as it is. -/
theorem parseEnvelopeAddress_of_bare {c : UInt8} {s : Bytes} (hc : c ≠ 60 ∧ c ≠ 64)
    (h64 : 64 ∈ c :: s) (hend : endsWith (c :: s) [64] = false) :
    parseEnvelopeAddress (c :: s) = .ok (c :: s) := by
  unfold parseEnvelopeAddress
  rw [if_neg (by simp [show lit "<>" = [60, 62] from rfl, hc.1]),
    if_pos (by simp [startsWith_cons_single, show lit "<" = [60] from rfl, Ne.symm hc.1]),
    if_neg (by rw [show lit "@" = [64] from rfl, contains_single_iff.2 h64]; simp),
    if_neg (by rw [show lit "@" = [64] from rfl, hend]; simp),
    if_neg (by simp [startsWith_cons_single, show lit "@" = [64] from rfl, Ne.symm hc.2])]

/-- A bare plain address comes back as it is. -/
theorem parseEnvelopeAddress_bare {l dom : Bytes} (hl : l ≠ []) (hd : dom ≠ [])
    (hbytes : ∀ c ∈ l ++ dom, c ∉ lit "@:<>") :
    parseEnvelopeAddress (l ++ 64 :: dom) = .ok (l ++ 64 :: dom) := by
  have hd64 : 64 ∉ dom := fun h => (ne_of_plain hbytes (.inr h)).1 rfl
  obtain ⟨c, l', rfl⟩ := List.exists_cons_of_ne_nil hl
  have hc := ne_of_plain hbytes (.inl (List.mem_cons_self c l'))
  refine parseEnvelopeAddress_of_bare (s := l' ++ 64 :: dom) ⟨hc.2.2.1, hc.1⟩ (by simp) ?_
  rw [show c :: (l' ++ 64 :: dom) = (c :: l' ++ [64]) ++ dom by simp]
  exact endsWith_single_of_not_mem hd hd64

/-- `parseEnvelopeAddress` accepts every address `l@dom` whose local part and domain are
non-empty and free of `@`, `:` and angle brackets, in angle brackets or bare, and returns it
without its brackets. -/
theorem parseEnvelopeAddress_of_address {l dom : Bytes} (hl : l ≠ []) (hd : dom ≠ [])
    (hbytes : ∀ c ∈ l ++ dom, c ∉ lit "@:<>") :
    parseEnvelopeAddress (lit "<" ++ (l ++ 64 :: dom) ++ lit ">") = .ok (l ++ 64 :: dom) ∧
      parseEnvelopeAddress (l ++ 64 :: dom) = .ok (l ++ 64 :: dom) :=
  ⟨parseEnvelopeAddress_bracketed hl hd hbytes, parseEnvelopeAddress_bare hl hd hbytes⟩

/-- `<user@example.org>` and `user@example.org` both give `user@example.org`. -/
theorem parseEnvelopeAddress_of_address_sample :
    (∀ c ∈ lit "user" ++ lit "example.org", c ∉ lit "@:<>") ∧
    parseEnvelopeAddress (lit "<" ++ (lit "user" ++ 64 :: lit "example.org") ++ lit ">") =
        .ok (lit "user" ++ 64 :: lit "example.org") ∧
      parseEnvelopeAddress (lit "user" ++ 64 :: lit "example.org") =
        .ok (lit "user" ++ 64 :: lit "example.org") := by
  have hbytes : ∀ c ∈ lit "user" ++ lit "example.org", c ∉ lit "@:<>" := by decide
  exact ⟨hbytes, parseEnvelopeAddress_of_address (List.cons_ne_nil _ _) (List.cons_ne_nil _ _)
    hbytes⟩

/-- The two branches of `parseEnvelopeAddress` disagree on a second `@`: a bare `l@m@r` is
returned as it is, while `<l@m@r>` is rejected for it. -/
theorem envelope_multiple_at_bug {l m r : Bytes} (hl : l ≠ []) (hr : r ≠ [])
    (hbytes : ∀ c ∈ l ++ m ++ r, c ∉ lit "@:<>") :
    parseEnvelopeAddress (l ++ 64 :: (m ++ 64 :: r)) = .ok (l ++ 64 :: (m ++ 64 :: r)) ∧
      parseEnvelopeAddress (lit "<" ++ (l ++ 64 :: (m ++ 64 :: r)) ++ lit ">") =
        .error (lit "invalid envelope address: multiple @") := by
  have hplain : ∀ c ∈ l ++ m ++ r, c ≠ 64 ∧ c ≠ 58 ∧ c ≠ 60 ∧ c ≠ 62 := fun c hc => by
    simpa [show lit "@:<>" = [64, 58, 60, 62] from rfl] using hbytes c hc
  have hl64 : 64 ∉ l := fun h => (hplain 64 (by simp [h])).1 rfl
  have hm64 : 64 ∉ m := fun h => (hplain 64 (by simp [h])).1 rfl
  have hr64 : 64 ∉ r := fun h => (hplain 64 (by simp [h])).1 rfl
  constructor
  · -- bare: the checks of the `@` see only the first and the last byte
    obtain ⟨c, l', rfl⟩ := List.exists_cons_of_ne_nil hl
    have hc := hplain c (by simp)
    refine parseEnvelopeAddress_of_bare (s := l' ++ 64 :: (m ++ 64 :: r)) ⟨hc.2.2.1, hc.1⟩
      (by simp) ?_
    rw [show c :: (l' ++ 64 :: (m ++ 64 :: r)) = (c :: l' ++ 64 :: m ++ [64]) ++ r by simp]
    exact endsWith_single_of_not_mem hr hr64
  · -- bracketed: the text between the brackets has two `@`
    have hcolon : contains (l ++ 64 :: (m ++ 64 :: r)) (lit ":") = false := by
      rw [← Bool.not_eq_true, show lit ":" = [58] from rfl, contains_single_iff]
      intro h
      simp only [List.mem_append, List.mem_cons] at h
      rcases h with h | h | h | h | h
      · exact (hplain 58 (by simp [h])).2.1 rfl
      · exact absurd h (by decide)
      · exact (hplain 58 (by simp [h])).2.1 rfl
      · exact absurd h (by decide)
      · exact (hplain 58 (by simp [h])).2.1 rfl
    have hdaemon : l ++ 64 :: (m ++ 64 :: r) ≠ lit "MAILER-DAEMON" := fun h => by
      have h64 : (64 : UInt8) ∈ lit "MAILER-DAEMON" := h ▸ by simp
      exact absurd h64 (by decide)
    have hcount : count (l ++ 64 :: (m ++ 64 :: r)) 64 = 2 := by
      simp [count, List.count_eq_zero.2 hl64, List.count_eq_zero.2 hm64, List.count_eq_zero.2 hr64]
    have hb := bracketed_checks (x := l ++ 64 :: (m ++ 64 :: r)) (by simp)
    unfold parseEnvelopeAddress
    rw [if_neg (Bool.eq_false_iff.1 hb.1), if_neg (Bool.eq_false_iff.1 hb.2)]
    simp only [inner_of_bracketed, hcolon, hdaemon, hcount]
    simp

/-- `a@b@c` is accepted as it is, `<a@b@c>` rejected. -/
theorem envelope_multiple_at_bug_abc :
    (lit "a" ≠ [] ∧ lit "c" ≠ [] ∧ ∀ c ∈ lit "a" ++ lit "b" ++ lit "c", c ∉ lit "@:<>") ∧
      parseEnvelopeAddress (lit "a" ++ 64 :: (lit "b" ++ 64 :: lit "c")) =
        .ok (lit "a" ++ 64 :: (lit "b" ++ 64 :: lit "c")) ∧
      parseEnvelopeAddress (lit "<" ++ (lit "a" ++ 64 :: (lit "b" ++ 64 :: lit "c")) ++ lit ">") =
        .error (lit "invalid envelope address: multiple @") := by
  have hl : lit "a" ≠ [] := by decide
  have hr : lit "c" ≠ [] := by decide
  have hbytes : ∀ c ∈ lit "a" ++ lit "b" ++ lit "c", c ∉ lit "@:<>" := by decide
  exact ⟨⟨hl, hr, hbytes⟩, envelope_multiple_at_bug hl hr hbytes⟩

/-! ## `split` and the address-parts -/

theorem split_of_address {C : CaseTables} {l dom : Bytes}
    (hp : equalFold C (l ++ 64 :: dom) (lit "postmaster") = false) (hl : l ≠ []) (hd : dom ≠ [])
    (h64 : 64 ∉ dom) : split C (l ++ 64 :: dom) = .ok (l, dom) := by
  have hdrop : (l ++ 64 :: dom).drop (l.length + 1) = dom := by simp
  unfold split
  rw [if_neg (by simp [hp]), lastIndexByte_append h64]
  simp only [List.take_left, hdrop, if_neg hl, if_neg hd]

/-- Apart from `postmaster`, `split` accepts exactly an address `l@dom` with a non-empty local
part and a non-empty domain free of `@`, and returns those two: the last `@` divides. -/
theorem split_ok_iff (C : CaseTables) (addr l dom : Bytes)
    (hp : equalFold C addr (lit "postmaster") = false) :
    split C addr = .ok (l, dom) ↔ addr = l ++ 64 :: dom ∧ l ≠ [] ∧ dom ≠ [] ∧ 64 ∉ dom := by
  constructor
  · intro h
    unfold split at h
    rw [if_neg (by simp [hp])] at h
    split at h
    · cases h
    · next i hi =>
      obtain ⟨p, t, rfl, ht, rfl⟩ := lastIndexByte_some hi
      have hdrop : (p ++ 64 :: t).drop (p.length + 1) = t := by simp
      rw [List.take_left, hdrop] at h
      split_ifs at h with h1 h2
      cases h
      exact ⟨rfl, h1, h2, ht⟩
  · rintro ⟨rfl, hl, hd, h64⟩
    exact split_of_address hp hl hd h64

theorem split_ok_iff_sample :
    equalFold goCase (lit "a@b@c") (lit "postmaster") = false ∧
      (split goCase (lit "a@b@c") = .ok (lit "a@b", lit "c") ↔
        lit "a@b@c" = lit "a@b" ++ 64 :: lit "c" ∧ lit "a@b" ≠ [] ∧ lit "c" ≠ [] ∧
          64 ∉ lit "c") :=
  have hp : equalFold goCase (lit "a@b@c") (lit "postmaster") = false := by decide
  ⟨hp, split_ok_iff goCase _ _ _ hp⟩

/-- The first occurrence of a byte divides a list it occurs in. -/
theorem exists_first_split {c : UInt8} :
    ∀ {s : Bytes}, c ∈ s → ∃ p t, s = p ++ c :: t ∧ c ∉ p
  | [], h => absurd h (List.not_mem_nil c)
  | a :: s, h => by
    by_cases hc : a = c
    · exact ⟨[], s, by rw [hc]; rfl, List.not_mem_nil c⟩
    · obtain ⟨p, t, rfl, hp⟩ := exists_first_split (List.mem_of_ne_of_mem (Ne.symm hc) h)
      exact ⟨a :: p, t, rfl, by simp [hp, Ne.symm hc]⟩

theorem splitSubaddress_append {u dt : Bytes} (h : 43 ∉ u) :
    splitSubaddress (u ++ 43 :: dt) = (u, dt) := by
  unfold splitSubaddress
  rw [show subaddressSeparator = [43] from rfl, index_single_append h]
  simp

theorem splitSubaddress_of_not_mem {l : Bytes} (h : 43 ∉ l) : splitSubaddress l = (l, []) := by
  unfold splitSubaddress
  rw [show subaddressSeparator = [43] from rfl, index_single_eq_none h]

theorem contains_subaddressSeparator_iff {l : Bytes} :
    contains l subaddressSeparator = true ↔ 43 ∈ l := by
  rw [contains_iff, show subaddressSeparator = [43] from rfl]
  constructor
  · exact fun h => h.subset (List.mem_singleton_self 43)
  · intro h
    obtain ⟨p, t, rfl, -⟩ := exists_first_split h
    exact ⟨p, t, by simp⟩

/-- What each address-part of an address `l@dom` is: the domain after the last `@`, the local
part before it, and, at the first `+` of the local part, the user before it and the detail
after it; without a `+` the user is the whole local part and there is no detail. -/
theorem addressPartValue_of_address (C : CaseTables) {l dom : Bytes}
    (hp : equalFold C (l ++ 64 :: dom) (lit "postmaster") = false) (hl : l ≠ []) (hd : dom ≠ [])
    (h64 : 64 ∉ dom) :
    addressPartValue C .all (l ++ 64 :: dom) = some (l ++ 64 :: dom) ∧
      addressPartValue C .localPart (l ++ 64 :: dom) = some l ∧
      addressPartValue C .domain (l ++ 64 :: dom) = some dom ∧
      (43 ∉ l ∧ addressPartValue C .user (l ++ 64 :: dom) = some l ∧
          addressPartValue C .detail (l ++ 64 :: dom) = none ∨
        ∃ u dt, l = u ++ 43 :: dt ∧ 43 ∉ u ∧ addressPartValue C .user (l ++ 64 :: dom) = some u ∧
          addressPartValue C .detail (l ++ 64 :: dom) = some dt) := by
  have hsplit := split_of_address hp hl hd h64
  have hne : l ++ 64 :: dom ≠ [] := by simp
  simp only [addressPartValue, if_neg hne, hsplit, true_and]
  by_cases h43 : 43 ∈ l
  · obtain ⟨u, dt, rfl, hu⟩ := exists_first_split h43
    have hc : contains (u ++ 43 :: dt) subaddressSeparator = true :=
      contains_subaddressSeparator_iff.2 h43
    refine .inr ⟨u, dt, rfl, hu, ?_, ?_⟩ <;> simp [splitSubaddress_append hu, hc]
  · have hc : contains l subaddressSeparator = false :=
      Bool.eq_false_iff.2 fun h => h43 (contains_subaddressSeparator_iff.1 h)
    exact .inl ⟨h43, by simp [splitSubaddress_of_not_mem h43, hc]⟩

theorem addressPartValue_of_address_sample :
    equalFold goCase (lit "a+b@c") (lit "postmaster") = false ∧ lit "a+b" ≠ [] ∧ lit "c" ≠ [] ∧
      64 ∉ lit "c" ∧
      (addressPartValue goCase .all (lit "a+b" ++ 64 :: lit "c") = some (lit "a+b" ++ 64 :: lit "c") ∧
      addressPartValue goCase .localPart (lit "a+b" ++ 64 :: lit "c") = some (lit "a+b") ∧
      addressPartValue goCase .domain (lit "a+b" ++ 64 :: lit "c") = some (lit "c") ∧
      (43 ∉ lit "a+b" ∧ addressPartValue goCase .user (lit "a+b" ++ 64 :: lit "c") = some (lit "a+b") ∧
          addressPartValue goCase .detail (lit "a+b" ++ 64 :: lit "c") = none ∨
        ∃ u dt, lit "a+b" = u ++ 43 :: dt ∧ 43 ∉ u ∧
          addressPartValue goCase .user (lit "a+b" ++ 64 :: lit "c") = some u ∧
          addressPartValue goCase .detail (lit "a+b" ++ 64 :: lit "c") = some dt)) :=
  have hp : equalFold goCase (lit "a+b" ++ 64 :: lit "c") (lit "postmaster") = false := by decide
  ⟨hp, by decide, by decide, by decide,
    addressPartValue_of_address goCase hp (by decide) (by decide) (by decide)⟩

end GoSieve
