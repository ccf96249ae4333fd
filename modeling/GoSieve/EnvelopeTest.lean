import GoSieve.TestLoops
import GoSieve.AddressSyntax
import GoSieve.ValuePatterns

/-!
# `EnvelopeTest.Check` as a search

`EnvelopeTest.Check` reads the value of each listed envelope-part (`from`, `to` or `auth`, named
after expansion and lower-casing), skips a non-empty `from` or `to` that `parseEnvelopeAddress`
rejects, and tries the values it keeps with `testAddress`; with `:count` it counts the
non-empty values it keeps. It validates a `from` or `to` with `parseEnvelopeAddress` but matches
the value as the host gives it, not the address the parser returns:

* `envelopeTestCheck_eq_search`: when every listed part is one of the three, the test is the
  first hit over the values it keeps, or on `:count` the number of non-empty ones;
* `envelope_bracketed_sender_keeps_brackets`: a sender given as `<l@dom>` is matched with its
  brackets, `:localpart` against `<l` and `:domain` against `dom>`.
-/

namespace GoSieve

/-- The value `EnvelopeTest.Check` reads for an envelope-part: the envelope's `from`, `to` or
`auth` as the expanded, lower-cased name says; none for any other name. -/
def envelopePartValue (L : Lib) (d : RuntimeData) (field : Bytes) : Option Bytes :=
  let fieldName := toLower L.case (expandVars d field)
  if fieldName = lit "from" then some d.envelope.envelopeFrom
  else if fieldName = lit "to" then some d.envelope.envelopeTo
  else if fieldName = lit "auth" then some d.envelope.authUsername
  else none

/-- Whether the test skips the value of an envelope-part: a non-empty `from` or `to` that
`parseEnvelopeAddress` rejects. -/
def envelopeSkips (L : Lib) (d : RuntimeData) (field value : Bytes) : Bool :=
  let fieldName := toLower L.case (expandVars d field)
  value ≠ [] && (fieldName = lit "from" || fieldName = lit "to") &&
    (parseEnvelopeAddress value matches .error _)

/-- The values the test tries, in the order of the listed parts. -/
def envelopeCandidates (L : Lib) (d : RuntimeData) (fields : List Bytes) : List Bytes :=
  fields.filterMap fun f => (envelopePartValue L d f).filter fun v => !envelopeSkips L d f v

/-- One envelope-part whose value the test reads. -/
theorem envelopeFieldStep_eq (L : Lib) (m : MatcherTest) (part : AddressPart) (field : Bytes)
    (count : Nat) (d : RuntimeData) {v : Bytes} (hv : envelopePartValue L d field = some v) :
    envelopeFieldStep L m part field count d =
      if envelopeSkips L d field v then .ok (.next (count, d))
      else if m.isCount then .ok (.next (if v ≠ [] then count + 1 else count, d))
      else Flow.ofCheck (testAddress L m part d v) count := by
  unfold envelopePartValue at hv
  unfold envelopeFieldStep
  simp only [hv]
  rfl

theorem envelopeCandidates_cons (L : Lib) (d : RuntimeData) (f : Bytes) (fields : List Bytes)
    {v : Bytes} (hv : envelopePartValue L d f = some v) :
    envelopeCandidates L d (f :: fields) =
      if envelopeSkips L d f v then envelopeCandidates L d fields
      else v :: envelopeCandidates L d fields := by
  by_cases hs : envelopeSkips L d f v <;> simp [envelopeCandidates, hv, hs, Option.filter]

section Envelope

variable (L : Lib) (m : MatcherTest) (part : AddressPart) (d : RuntimeData)

theorem envelopeFieldsLoop_eq (hm : m.isCount = false) (count : Nat) : ∀ fields : List Bytes,
    (∀ f ∈ fields, envelopePartValue L d f ≠ none) →
    envelopeFieldsLoop L m part fields (count, d) =
      Flow.ofCheck (firstHit (testAddress L m part d) d (envelopeCandidates L d fields)) count
  | [], _ => rfl
  | f :: rest, hknown => by
    obtain ⟨v, hv⟩ := Option.ne_none_iff_exists'.1 (hknown f (.head _))
    have ih := envelopeFieldsLoop_eq hm count rest fun f' hf' => hknown f' (.tail _ hf')
    rw [envelopeFieldsLoop, envelopeFieldStep_eq L m part f count d hv,
      envelopeCandidates_cons L d f rest hv]
    by_cases hs : envelopeSkips L d f v
    · rw [if_pos hs, if_pos hs, Flow.andThen, ih]
    · rw [if_neg hs, if_neg hs, if_neg (by simp [hm]),
        ofCheck_firstHit_cons count v _ fun _ => testAddress_miss]
      refine Flow.andThen_congr fun acc h => ?_
      rw [Flow.ofCheck_next_eq (fun _ => testAddress_miss) h]
      exact ih

theorem envelopeFieldsLoop_count (hm : m.isCount = true) : ∀ (fields : List Bytes) (count : Nat),
    (∀ f ∈ fields, envelopePartValue L d f ≠ none) →
    envelopeFieldsLoop L m part fields (count, d) =
      .ok (.next (count + ((envelopeCandidates L d fields).filter fun v => !v.isEmpty).length, d))
  | [], count, _ => rfl
  | f :: rest, count, hknown => by
    obtain ⟨v, hv⟩ := Option.ne_none_iff_exists'.1 (hknown f (.head _))
    have ih := envelopeFieldsLoop_count hm rest
    rw [envelopeFieldsLoop, envelopeFieldStep_eq L m part f count d hv,
      envelopeCandidates_cons L d f rest hv]
    by_cases hs : envelopeSkips L d f v
    · rw [if_pos hs, if_pos hs, Flow.andThen, ih count fun f' hf' => hknown f' (.tail _ hf')]
    · rw [if_neg hs, if_neg hs, if_pos hm, Flow.andThen]
      by_cases hne : v = []
      · subst hne
        rw [if_neg (by simp), ih count fun f' hf' => hknown f' (.tail _ hf')]
        simp
      · rw [if_pos hne, ih (count + 1) fun f' hf' => hknown f' (.tail _ hf')]
        simp [List.filter_cons, hne, Nat.add_assoc, Nat.add_comm 1]

/-- When every listed envelope-part is `from`, `to` or `auth`, `EnvelopeTest.Check` is the
first hit of `testAddress` over the values it keeps, in order: a non-empty `from` or `to` that
`parseEnvelopeAddress` rejects is skipped. On `:count` it counts the non-empty values it
keeps. -/
theorem envelopeTestCheck_eq_search (fields : List Bytes)
    (hknown : ∀ f ∈ fields, envelopePartValue L d f ≠ none) :
    envelopeTestCheck L m part fields d =
      if m.isCount then
        .ok (m.countMatches d ((envelopeCandidates L d fields).filter fun v => !v.isEmpty).length,
          none, d)
      else firstHit (testAddress L m part d) d (envelopeCandidates L d fields) := by
  unfold envelopeTestCheck
  cases hm : m.isCount
  · rw [envelopeFieldsLoop_eq L m part d hm 0 fields hknown, finishCount_ofCheck_firstHit hm,
      if_neg (by simp)]
  · rw [envelopeFieldsLoop_count L m part d hm fields 0 hknown, if_pos rfl, finishCount, if_pos hm,
      Nat.zero_add]

end Envelope

/-- The `from` part of an envelope whose sender is not an address, and the `to` and `auth`
parts, counted: the sender is skipped. -/
theorem envelopeTestCheck_eq_search_count :
    let d := newRuntimeData ⟨[lit "envelope"], defaultOptions⟩ dummyPolicy
      ⟨lit "nobody", lit "a@b", lit "u"⟩ (messageStatic [] 0)
    let m : MatcherTest := { newMatcherTest with matchType := .count, key := [lit "2"] }
    (∀ f ∈ [lit "From", lit "to", lit "auth"], envelopePartValue sampleLib d f ≠ none) ∧
      envelopeTestCheck sampleLib m .all [lit "From", lit "to", lit "auth"] d =
        if m.isCount then
          .ok (m.countMatches d ((envelopeCandidates sampleLib d [lit "From", lit "to", lit "auth"]).filter
            fun v => !v.isEmpty).length, none, d)
        else firstHit (testAddress sampleLib m .all d) d
          (envelopeCandidates sampleLib d [lit "From", lit "to", lit "auth"]) := by
  intro d m
  have hknown : ∀ f ∈ [lit "From", lit "to", lit "auth"], envelopePartValue sampleLib d f ≠ none := by
    decide
  exact ⟨hknown, envelopeTestCheck_eq_search sampleLib m .all d _ hknown⟩

example : envelopeCandidates sampleLib (newRuntimeData ⟨[lit "envelope"], defaultOptions⟩
    dummyPolicy ⟨lit "nobody", lit "a@b", lit "u"⟩ (messageStatic [] 0))
    [lit "From", lit "to", lit "auth"] = [lit "a@b", lit "u"] := by
  decide

/-! ## A bracketed sender keeps its brackets -/

/-- A test of one address-part value is one `tryMatch` of it. -/
theorem testAddress_of_partValue (L : Lib) (m : MatcherTest) (part : AddressPart)
    (d : RuntimeData) {address v : Bytes} (hnull : address ≠ lit "<>")
    (hv : addressPartValue L.case part address = some v) :
    testAddress L m part d address = m.tryMatch L d v m.key := by
  unfold testAddress
  rw [if_neg hnull, hv]
  dsimp only
  rcases hr : m.tryMatch L d v m.key with p | ⟨b, e, d'⟩
  · rfl
  · rcases MatcherTest.tryMatch_cases hr with ⟨rfl, rfl, -⟩ | ⟨rfl, -⟩
    · rfl
    · cases e <;> rfl

/-- The first hit over one value of `testAddress` is that test. -/
theorem firstHit_testAddress_singleton (L : Lib) (m : MatcherTest) (part : AddressPart)
    (d : RuntimeData) (v : Bytes) :
    firstHit (testAddress L m part d) d [v] = testAddress L m part d v := by
  simp only [firstHit]
  split
  · next p hp => rw [hp]
  · next b e d' hr =>
    rw [hr]
    unfold testAddress at hr
    split at hr
    · cases hr
    · split at hr <;> cases hr
      rfl
  · next d' hr => rw [hr]
  · next d' hr => rw [hr, testAddress_miss hr]

/-- No string that starts with `<` is `postmaster` under case folding, whatever the case
tables: `split` never takes its `postmaster` branch on a bracketed address. -/
theorem equalFold_bracket_postmaster (C : CaseTables) (s : Bytes) :
    equalFold C (60 :: s) (lit "postmaster") = false := by
  rw [equalFold, runes_cons_ascii s (by decide),
    show lit "postmaster" = 112 :: lit "ostmaster" from rfl, runes_cons_ascii _ (by decide),
    foldEqRunes]
  have hfold : foldEqRune C (asciiRune 60) (asciiRune 112) = false := rfl
  rw [hfold, Bool.false_and]

/-- An envelope sender given in angle brackets, `<l@dom>` with a plain local part and domain,
passes `parseEnvelopeAddress` and is then matched as the host gives it: `:all` against
`<l@dom>`, `:localpart` against `<l` and `:domain` against `dom>`, so that no key without the
brackets matches its local part or its domain. -/
theorem envelope_bracketed_sender_keeps_brackets (L : Lib) (m : MatcherTest) (d : RuntimeData)
    (f l dom : Bytes) (hname : toLower L.case (expandVars d f) = lit "from")
    (hfrom : d.envelope.envelopeFrom = lit "<" ++ (l ++ 64 :: dom) ++ lit ">")
    (hl : l ≠ []) (hd : dom ≠ []) (hbytes : ∀ c ∈ l ++ dom, c ∉ lit "@:<>")
    (hm : m.isCount = false) :
    envelopeTestCheck L m .all [f] d = m.tryMatch L d (lit "<" ++ (l ++ 64 :: dom) ++ lit ">") m.key ∧
      envelopeTestCheck L m .localPart [f] d = m.tryMatch L d (lit "<" ++ l) m.key ∧
      envelopeTestCheck L m .domain [f] d = m.tryMatch L d (dom ++ lit ">") m.key := by
  have hv : envelopePartValue L d f = some (lit "<" ++ (l ++ 64 :: dom) ++ lit ">") := by
    simp [envelopePartValue, hname, hfrom]
  have hkeep : envelopeSkips L d f (lit "<" ++ (l ++ 64 :: dom) ++ lit ">") = false := by
    simp only [envelopeSkips, parseEnvelopeAddress_bracketed hl hd hbytes, Bool.and_false]
  have hsearch (part : AddressPart) : envelopeTestCheck L m part [f] d =
      testAddress L m part d (lit "<" ++ (l ++ 64 :: dom) ++ lit ">") := by
    unfold envelopeTestCheck
    rw [envelopeFieldsLoop_eq L m part d hm 0 [f] (by simp [hv]),
      finishCount_ofCheck_firstHit hm, envelopeCandidates_cons L d f [] hv,
      if_neg (by rw [hkeep]; decide)]
    exact firstHit_testAddress_singleton L m part d _
  have haddr : lit "<" ++ (l ++ 64 :: dom) ++ lit ">" = (60 :: l) ++ 64 :: (dom ++ [62]) := by
    simp [show lit "<" = [60] from rfl, show lit ">" = [62] from rfl]
  have hnull : lit "<" ++ (l ++ 64 :: dom) ++ lit ">" ≠ lit "<>" := fun h =>
    absurd (congrArg List.length h) (by
      simp [show lit "<>" = [60, 62] from rfl, show lit "<" = [60] from rfl,
        show lit ">" = [62] from rfl]; omega)
  have hd64 : 64 ∉ dom ++ [62] := by
    simpa using fun h => (ne_of_plain hbytes (.inr h)).1 rfl
  have hsplit := split_of_address (equalFold_bracket_postmaster L.case _)
    (List.cons_ne_nil 60 l) (by simp) hd64
  have hne : (60 :: l) ++ 64 :: (dom ++ [62]) ≠ [] := by simp
  refine ⟨?_, ?_, ?_⟩ <;> rw [hsearch, testAddress_of_partValue L m _ d hnull]
  · simp [addressPartValue, hnull]
  all_goals rw [haddr]; simp only [addressPartValue, if_neg hne, hsplit]; rfl

/-- The sender `<user@example.org>` against `:domain`: the domain read is `example.org>`. -/
theorem envelope_bracketed_sender_keeps_brackets_sample :
    let d := newRuntimeData ⟨[lit "envelope"], defaultOptions⟩ dummyPolicy
      ⟨lit "<user@example.org>", [], []⟩ (messageStatic [] 0)
    let m : MatcherTest := { newMatcherTest with key := [lit "example.org"] }
    envelopeTestCheck sampleLib m .all [lit "from"] d =
        m.tryMatch sampleLib d (lit "<" ++ (lit "user" ++ 64 :: lit "example.org") ++ lit ">") m.key ∧
      envelopeTestCheck sampleLib m .localPart [lit "from"] d =
        m.tryMatch sampleLib d (lit "<" ++ lit "user") m.key ∧
      envelopeTestCheck sampleLib m .domain [lit "from"] d =
        m.tryMatch sampleLib d (lit "example.org" ++ lit ">") m.key := by
  intro d m
  exact envelope_bracketed_sender_keeps_brackets sampleLib m d _ _ _ (by decide) rfl
    (List.cons_ne_nil _ _) (List.cons_ne_nil _ _) (by decide) rfl

example : (envelopeTestCheck sampleLib { newMatcherTest with key := [lit "example.org"] } .domain
    [lit "from"] (newRuntimeData ⟨[lit "envelope"], defaultOptions⟩ dummyPolicy
      ⟨lit "<user@example.org>", [], []⟩ (messageStatic [] 0))).map Prod.fst = .ok false := by
  decide

end GoSieve
