import GoSieve.Tests

/-!
# `AddressTest.Check` as a search

`AddressTest.Check` runs three nested loops, over the listed headers, their values and the
addresses parsed from each value, and stops at the first address that matches a key or fails.
This module states what it computes as one search: the first hit over a flat list of
candidates, in the loops' order, and proves the loops equal to it (`addressTestCheck_eq_firstHit`).

The candidates are the addr-specs the parser gives a value, except for a value that is a lone
`<…>`: that one is matched as it is, brackets included, so `<x@y>` does not match `x@y` where
`x@y` and `Name <x@y>` do. The equation is proved for non-counting match-types when every
listed allowed header has values that parse as address lists; an absent header, which the code
tests as the empty address, is set aside, and so is a header name whose case changes under
variable expansion.
-/

namespace GoSieve

/-! ## A miss changes nothing -/

theorem MatcherTest.tryMatch_miss {L : Lib} {t : MatcherTest} {d d' : RuntimeData} {v : Bytes} :
    ∀ {ks : List Bytes}, t.tryMatch L d v ks = .ok (false, none, d') → d' = d
  | [], h => by
    simp only [MatcherTest.tryMatch, Except.ok.injEq, Prod.mk.injEq, true_and] at h
    exact h.symm
  | k :: ks, h => by
    simp only [MatcherTest.tryMatch] at h
    split at h
    · cases h
    · cases h
    · cases h
    · exact tryMatch_miss h

theorem testAddress_miss {L : Lib} {m : MatcherTest} {part : AddressPart} {d d' : RuntimeData}
    {c : Bytes} (h : testAddress L m part d c = .ok (false, none, d')) : d' = d := by
  unfold testAddress at h
  split at h
  · simp only [Except.ok.injEq, Prod.mk.injEq, true_and] at h
    exact h.symm
  · split at h
    · cases h
    · cases h
    · next hr =>
      simp only [Except.ok.injEq, Prod.mk.injEq] at h
      obtain ⟨rfl, -, rfl⟩ := h
      exact MatcherTest.tryMatch_miss hr

/-! ## The search -/

/-- The first candidate whose test matches or fails decides; when none does, the result is
`false`. -/
def firstHit (test : Bytes → CheckOut) (d : RuntimeData) : List Bytes → CheckOut
  | [] => .ok (false, none, d)
  | c :: cs =>
    match test c with
    | .error p => .error p
    | .ok (_, some e, d') => .ok (false, some e, d')
    | .ok (true, none, d') => .ok (true, none, d')
    | .ok (false, none, _) => firstHit test d cs

/-- The addresses one header value offers: the comment-stripped value itself when it is a lone
`<…>`, else the addresses parsed from it. -/
def valueCandidates (L : Lib) (value : Bytes) : List Bytes :=
  let cleanValue := stripRFC2822Comments value
  if hasBareAngleBrackets cleanValue then [cleanValue]
  else
    match L.parseAddressList cleanValue with
    | .ok addrs => addrs
    | .error _ => []

/-- The addresses of one listed header: those of each of its values when its name, expanded and
lower-cased, is an allowed address header. -/
def headerCandidates (L : Lib) (d : RuntimeData) (hdr : Bytes) : List Bytes :=
  let name := toLower L.case (expandVars d hdr)
  if name ∈ allowedAddrHeaders then
    match d.headerGet L.case name with
    | .ok values => values.flatMap (valueCandidates L)
    | .error _ => []
  else []

/-- A value that parses, once its comments are removed, as a non-empty address list. -/
def parsesAsAddressList (L : Lib) (v : Bytes) : Bool :=
  match L.parseAddressList (stripRFC2822Comments v) with
  | .ok (_ :: _) => true
  | _ => false

/-- A listed header that is not an allowed address header, or that has values, each of which
parses as an address list. -/
def addressHeaderReady (L : Lib) (d : RuntimeData) (hdr : Bytes) : Bool :=
  let name := toLower L.case (expandVars d hdr)
  !decide (name ∈ allowedAddrHeaders) ||
    match d.headerGet L.case name with
    | .ok values => !values.isEmpty && values.all (parsesAsAddressList L)
    | .error _ => false

/-- Every address `AddressTest.Check` tries, in order. -/
def addressCandidates (L : Lib) (d : RuntimeData) (headers : List Bytes) : List Bytes :=
  headers.flatMap (headerCandidates L d)

section FirstHit
variable {test : Bytes → CheckOut} {d : RuntimeData}

theorem firstHit_miss {d' : RuntimeData} : ∀ {cs : List Bytes},
    firstHit test d cs = .ok (false, none, d') → d' = d
  | [], h => by
    simp only [firstHit, Except.ok.injEq, Prod.mk.injEq, true_and] at h
    exact h.symm
  | c :: cs, h => by
    simp only [firstHit] at h
    split at h
    · cases h
    · cases h
    · cases h
    · exact firstHit_miss h

theorem Flow.andThen_congr {α : Type} {x : Except String (Flow α)} {k₁ k₂ : α → Except String (Flow α)}
    (h : ∀ acc, x = .ok (.next acc) → k₁ acc = k₂ acc) : Flow.andThen x k₁ = Flow.andThen x k₂ := by
  rcases x with p | (⟨ok, err, d⟩ | acc)
  · rfl
  · rfl
  · exact h acc rfl

theorem ofCheck_firstHit_cons (count : Nat) (c : Bytes) (cs : List Bytes)
    (htest : ∀ d', test c = .ok (false, none, d') → d' = d) :
    Flow.ofCheck (firstHit test d (c :: cs)) count =
      Flow.andThen (Flow.ofCheck (test c) count) fun acc => Flow.ofCheck (firstHit test d cs) acc.1 := by
  simp only [firstHit]
  split
  · next p hp => simp [hp, Flow.ofCheck, Flow.andThen]
  · next ok e d' hr => simp [hr, Flow.ofCheck, Flow.andThen]
  · next d' hr => simp [hr, Flow.ofCheck, Flow.andThen]
  · next d' hr => 
    obtain rfl := htest d' hr
    simp [hr, Flow.ofCheck, Flow.andThen]

/-- The search over two lists is the search over the first, then over the second. -/
theorem ofCheck_firstHit_append (count : Nat) (cs₁ cs₂ : List Bytes) :
    Flow.ofCheck (firstHit test d (cs₁ ++ cs₂)) count =
      Flow.andThen (Flow.ofCheck (firstHit test d cs₁) count) fun acc =>
        Flow.ofCheck (firstHit test d cs₂) acc.1 := by
  induction cs₁ with
  | nil => rfl
  | cons c cs ih =>
    simp only [List.cons_append, firstHit]
    split
    · rfl
    · rfl
    · rfl
    · exact ih

theorem finishCount_ofCheck_firstHit {m : MatcherTest} (hm : m.isCount = false) (count : Nat) (cs : List Bytes) :
    finishCount m (Flow.ofCheck (firstHit test d cs) count) = firstHit test d cs := by
  induction cs with
  | nil => simp [firstHit, Flow.ofCheck, finishCount, hm]
  | cons c cs ih =>
    simp only [firstHit]
    split
    · rfl
    · rfl
    · rfl
    · exact ih

/-- A check whose misses keep the state goes on from that state. -/
theorem Flow.ofCheck_next_eq {r : CheckOut} {count : Nat} {acc : Nat × RuntimeData}
    (hmiss : ∀ d', r = .ok (false, none, d') → d' = d)
    (h : Flow.ofCheck r count = .ok (.next acc)) : acc = (count, d) := by
  unfold Flow.ofCheck at h
  split at h <;> cases h
  rw [hmiss _ rfl]

theorem ofCheck_firstHit_singleton (count : Nat) (c : Bytes)
    (htest : ∀ d', test c = .ok (false, none, d') → d' = d) :
    Flow.ofCheck (firstHit test d [c]) count = Flow.ofCheck (test c) count := by
  simp only [firstHit]
  split
  · next p hp => rw [hp]
  · next ok e d' hr => simp [hr, Flow.ofCheck]
  · next d' hr => rw [hr]
  · next d' hr =>
    obtain rfl := htest d' hr
    rw [hr]

end FirstHit

/-! ## The loops -/

section Loops

variable (L : Lib) (m : MatcherTest) (part : AddressPart) (d : RuntimeData)

theorem addressesLoop_eq (hm : m.isCount = false) (count : Nat) : ∀ addrs : List Bytes,
    addressesLoop L m part addrs (count, d) =
      Flow.ofCheck (firstHit (testAddress L m part d) d addrs) count
  | [] => rfl
  | a :: rest => by
    rw [addressesLoop, if_neg (by simp [hm]),
      ofCheck_firstHit_cons count a rest fun _ => testAddress_miss]
    refine Flow.andThen_congr fun acc h => ?_
    rw [Flow.ofCheck_next_eq (fun _ => testAddress_miss) h]
    exact addressesLoop_eq hm count rest

theorem addressValueStep_eq (hm : m.isCount = false) (count : Nat) (v : Bytes)
    (hv : parsesAsAddressList L v = true) :
    addressValueStep L m part v count d =
      Flow.ofCheck (firstHit (testAddress L m part d) d (valueCandidates L v)) count := by
  unfold parsesAsAddressList at hv
  unfold addressValueStep valueCandidates
  dsimp only
  split
  · rw [if_neg (by simp [hm]), ofCheck_firstHit_singleton count _ fun _ => testAddress_miss]
  · split at hv
    · next a as hp =>
      rw [hp]
      exact addressesLoop_eq L m part d hm count (a :: as)
    · cases hv

theorem addressValuesLoop_eq (hm : m.isCount = false) (count : Nat) : ∀ values : List Bytes,
    (∀ v ∈ values, parsesAsAddressList L v = true) →
    addressValuesLoop L m part values (count, d) =
      Flow.ofCheck (firstHit (testAddress L m part d) d (values.flatMap (valueCandidates L))) count
  | [], _ => rfl
  | v :: rest, hvals => by
    rw [addressValuesLoop, addressValueStep_eq L m part d hm count v (hvals v (.head _)),
      List.flatMap_cons, ofCheck_firstHit_append]
    refine Flow.andThen_congr fun acc h => ?_
    rw [Flow.ofCheck_next_eq (fun _ => firstHit_miss) h]
    exact addressValuesLoop_eq hm count rest fun v hv => hvals v (.tail _ hv)


theorem addressHeaderStep_eq (hm : m.isCount = false) (count : Nat) (hdr : Bytes)
    (hname : expandVars d (toLower L.case hdr) = toLower L.case (expandVars d hdr))
    (hready : addressHeaderReady L d hdr = true) :
    addressHeaderStep L m part hdr count d =
      Flow.ofCheck (firstHit (testAddress L m part d) d (headerCandidates L d hdr)) count := by
  unfold addressHeaderStep headerCandidates
  unfold addressHeaderReady at hready
  dsimp only at hready ⊢
  rw [hname]
  by_cases hal : toLower L.case (expandVars d hdr) ∈ allowedAddrHeaders
  · rw [if_neg (by simpa using hal), if_pos hal]
    simp only [hal, decide_True, Bool.not_true, Bool.false_or] at hready
    split at hready
    · next values hget =>
      simp only [Bool.and_eq_true, Bool.not_eq_true', List.isEmpty_eq_false, List.all_eq_true] at hready
      obtain ⟨v, vs, rfl⟩ := List.exists_cons_of_ne_nil hready.1
      rw [hget]
      exact addressValuesLoop_eq L m part d hm count (v :: vs) hready.2
    · cases hready
  · rw [if_pos (by simpa using hal), if_neg hal]
    rfl

theorem addressHeadersLoop_eq (hm : m.isCount = false) (count : Nat) : ∀ headers : List Bytes,
    (∀ hdr ∈ headers, expandVars d (toLower L.case hdr) = toLower L.case (expandVars d hdr)) →
    (∀ hdr ∈ headers, addressHeaderReady L d hdr = true) →
    addressHeadersLoop L m part headers (count, d) =
      Flow.ofCheck (firstHit (testAddress L m part d) d (addressCandidates L d headers)) count
  | [], _, _ => rfl
  | hdr :: rest, hnames, hready => by
    rw [addressHeadersLoop, addressHeaderStep_eq L m part d hm count hdr (hnames hdr (.head _))
      (hready hdr (.head _)), addressCandidates, List.flatMap_cons, ofCheck_firstHit_append]
    refine Flow.andThen_congr fun acc h => ?_
    rw [Flow.ofCheck_next_eq (fun _ => firstHit_miss) h]
    exact addressHeadersLoop_eq hm count rest (fun h hh => hnames h (.tail _ hh))
      (fun h hh => hready h (.tail _ hh))

end Loops

/-- For a non-counting matcher, `AddressTest.Check` is the first hit of `testAddress` over the
candidates, when each listed allowed header has values that parse as address lists and each
header name expands to the same text before and after lower-casing. -/
theorem addressTestCheck_eq_firstHit (L : Lib) (m : MatcherTest) (part : AddressPart)
    (headers : List Bytes) (d : RuntimeData) (hm : m.isCount = false)
    (hnames : ∀ hdr ∈ headers, expandVars d (toLower L.case hdr) = toLower L.case (expandVars d hdr))
    (hready : ∀ hdr ∈ headers, addressHeaderReady L d hdr = true) :
    addressTestCheck L m part headers d =
      firstHit (testAddress L m part d) d (addressCandidates L d headers) := by
  rw [addressTestCheck, addressHeadersLoop_eq L m part d hm 0 headers hnames hready,
    finishCount_ofCheck_firstHit hm]

theorem addressTestCheck_eq_firstHit_sample :
    let d := newRuntimeData ⟨[], defaultOptions⟩ dummyPolicy ⟨[], [], []⟩
      (messageStatic [(lit "To", lit "Coyote <x@y>")] 0)
    let m : MatcherTest := { newMatcherTest with key := [lit "x@y"] }
    m.isCount = false ∧
      (∀ hdr ∈ [lit "to"], expandVars d (toLower sampleLib.case hdr) =
        toLower sampleLib.case (expandVars d hdr)) ∧
      (∀ hdr ∈ [lit "to"], addressHeaderReady sampleLib d hdr = true) ∧
      addressTestCheck sampleLib m .all [lit "to"] d =
        firstHit (testAddress sampleLib m .all d) d (addressCandidates sampleLib d [lit "to"]) := by
  intro d m
  have hm : m.isCount = false := by decide
  have hnames : ∀ hdr ∈ [lit "to"], expandVars d (toLower sampleLib.case hdr) =
      toLower sampleLib.case (expandVars d hdr) := by decide
  have hready : ∀ hdr ∈ [lit "to"], addressHeaderReady sampleLib d hdr = true := by decide
  exact ⟨hm, hnames, hready,
    addressTestCheck_eq_firstHit sampleLib m .all [lit "to"] d hm hnames hready⟩

/-- `<x@y>` parses as the address `x@y`, but a `To` header holding it fails `:is "x@y"`, which
the header `x@y` passes. -/
theorem bare_angle_address_counterexample :
    let m : MatcherTest := { newMatcherTest with key := [lit "x@y"] }
    let d := fun v : Bytes => newRuntimeData ⟨[], defaultOptions⟩ dummyPolicy ⟨[], [], []⟩
      (messageStatic [(lit "To", v)] 0)
    sampleLib.parseAddressList (lit "<x@y>") = .ok [lit "x@y"] ∧
      addressTestCheck sampleLib m .all [lit "to"] (d (lit "x@y")) =
        .ok (true, none, d (lit "x@y")) ∧
      addressTestCheck sampleLib m .all [lit "to"] (d (lit "<x@y>")) =
        .ok (false, none, d (lit "<x@y>")) :=
  ⟨rfl, rfl, rfl⟩
end GoSieve
