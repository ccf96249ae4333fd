import GoSieve.AddressTest

/-!
# What the test loops compute

`HeaderTest.Check` loops over the listed headers and their values, and `AddressTest.Check`
over the allowed headers, their values and the addresses parsed from each. With `:count`
neither loop matches anything: it adds to a counter, and the end of `Check` compares the count.
`ExistsTest.Check` and `MailboxExistsTest.Check` loop until a field or a mailbox is missing,
and `DateTest.Check` reads one value, chosen by `:index` and `:last`. This module states what
each loop computes when every header or mailbox it reads is there. Results:

* `headerTestCheck_eq_search`: the header test is the first hit over all values of the listed
  headers, in order, or on `:count` the number of those values;
* `addressTestCheck_count`: on `:count` the address test counts the addresses the parser
  returns for each value of each allowed header. A lone `<…>` value, which the matching path
  tries as it is, counts for nothing (`countedCandidates`, against `valueCandidates` of the
  matching path);
* `date_test_last_index_counts_from_end`: a date test with `:index n :last` answers as one with
  `:index (len + 1 - n)` does;
* `exists_test_holds_iff_all_present`, `mailboxexists_holds_iff_all_exist`: the exists test
  holds when every listed field has a value, and `mailboxexists` when the policy's checker, if
  it has one, says that every listed mailbox exists.
-/

namespace GoSieve

section Header

variable (L : Lib) (m : MatcherTest) (d : RuntimeData)

theorem headerValuesLoop_eq (hm : m.isCount = false) (count : Nat) : ∀ values : List Bytes,
    headerValuesLoop L m values (count, d) =
      Flow.ofCheck (firstHit (fun v => m.tryMatch L d v m.key) d values) count
  | [] => rfl
  | v :: rest => by
    rw [headerValuesLoop, if_neg (by simp [hm]),
      ofCheck_firstHit_cons count v rest fun _ => MatcherTest.tryMatch_miss]
    refine Flow.andThen_congr fun acc h => ?_
    rw [Flow.ofCheck_next_eq (fun _ => MatcherTest.tryMatch_miss) h]
    exact headerValuesLoop_eq hm count rest

theorem headerValuesLoop_count (hm : m.isCount = true) : ∀ (values : List Bytes) (count : Nat),
    headerValuesLoop L m values (count, d) = .ok (.next (count + values.length, d))
  | [], count => rfl
  | v :: rest, count => by
    rw [headerValuesLoop, if_pos hm, headerValuesLoop_count hm rest, List.length_cons,
      Nat.add_assoc, Nat.add_comm 1]

variable {vals : Bytes → List Bytes}

theorem headersLoop_eq (hm : m.isCount = false) (count : Nat) : ∀ header : List Bytes,
    (∀ h ∈ header, d.headerGet L.case (expandVars d h) = .ok (vals h)) →
    headersLoop L m header (count, d) =
      Flow.ofCheck (firstHit (fun v => m.tryMatch L d v m.key) d (header.flatMap vals)) count
  | [], _ => rfl
  | h :: rest, hv => by
    rw [headersLoop, headerStep, hv h (.head _), List.flatMap_cons, ofCheck_firstHit_append]
    dsimp only
    rw [headerValuesLoop_eq L m d hm]
    refine Flow.andThen_congr fun acc hacc => ?_
    rw [Flow.ofCheck_next_eq (fun _ => firstHit_miss) hacc]
    exact headersLoop_eq hm count rest fun h' hh => hv h' (.tail _ hh)

theorem headersLoop_count (hm : m.isCount = true) : ∀ (header : List Bytes) (count : Nat),
    (∀ h ∈ header, d.headerGet L.case (expandVars d h) = .ok (vals h)) →
    headersLoop L m header (count, d) =
      .ok (.next (count + (header.flatMap vals).length, d))
  | [], count, _ => rfl
  | h :: rest, count, hv => by
    rw [headersLoop, headerStep, hv h (.head _)]
    dsimp only
    rw [headerValuesLoop_count L m d hm, Flow.andThen,
      headersLoop_count hm rest _ fun h' hh => hv h' (.tail _ hh), List.flatMap_cons,
      List.length_append, Nat.add_assoc]

/-- When every named header reads, `HeaderTest.Check` is the first hit over all their values,
in order; on `:count` it counts those values. -/
theorem headerTestCheck_eq_search (header : List Bytes)
    (hv : ∀ h ∈ header, d.headerGet L.case (expandVars d h) = .ok (vals h)) :
    headerTestCheck L m header d =
      if m.isCount then .ok (m.countMatches d (header.flatMap vals).length, none, d)
      else firstHit (fun v => m.tryMatch L d v m.key) d (header.flatMap vals) := by
  unfold headerTestCheck
  cases hm : m.isCount
  · rw [headersLoop_eq L m d hm 0 header hv, finishCount_ofCheck_firstHit hm, if_neg (by simp)]
  · rw [headersLoop_count L m d hm header 0 hv, if_pos rfl, finishCount, if_pos hm, Nat.zero_add]

/-- Two values of one header, counted. -/
theorem headerTestCheck_eq_search_count :
    let d := newRuntimeData ⟨[lit "relational"], defaultOptions⟩ dummyPolicy ⟨[], [], []⟩
      (messageStatic [(lit "X", lit "a"), (lit "x", lit "b")] 0)
    let m : MatcherTest := { newMatcherTest with matchType := .count, key := [lit "2"] }
    (∀ h ∈ [lit "X"], d.headerGet sampleLib.case (expandVars d h) = .ok [lit "a", lit "b"]) ∧
      headerTestCheck sampleLib m [lit "X"] d =
        if m.isCount then
          .ok (m.countMatches d ([lit "X"].flatMap fun _ => [lit "a", lit "b"]).length, none, d)
        else firstHit (fun v => m.tryMatch sampleLib d v m.key) d
          ([lit "X"].flatMap fun _ => [lit "a", lit "b"]) := by
  intro d m
  have hv : ∀ h ∈ [lit "X"], d.headerGet sampleLib.case (expandVars d h) = .ok [lit "a", lit "b"] := by
    simp only [List.mem_singleton, forall_eq]
    rfl
  exact ⟨hv, headerTestCheck_eq_search sampleLib m d [lit "X"] hv⟩

end Header

/-! ## What an address test counts -/

/-- The addresses `:count` counts in one header value: the candidates the matching path tries,
except a lone `<…>`, which it tries but does not count. -/
def countedCandidates (L : Lib) (value : Bytes) : List Bytes :=
  if hasBareAngleBrackets (stripRFC2822Comments value) then [] else valueCandidates L value

section AddressCount

variable (L : Lib) (m : MatcherTest) (part : AddressPart) (d : RuntimeData)
  (hm : m.isCount = true)
include hm

theorem addressesLoop_count : ∀ (addrs : List Bytes) (count : Nat),
    addressesLoop L m part addrs (count, d) = .ok (.next (count + addrs.length, d))
  | [], count => rfl
  | a :: rest, count => by
    rw [addressesLoop, if_pos hm, addressesLoop_count rest, List.length_cons, Nat.add_assoc,
      Nat.add_comm 1]

theorem addressValueStep_count (v : Bytes) (count : Nat) :
    addressValueStep L m part v count d =
      .ok (.next (count + (countedCandidates L v).length, d)) := by
  unfold addressValueStep countedCandidates valueCandidates
  dsimp only
  split
  · rfl
  · split
    · next heq => rw [heq]; rfl
    · next heq => rw [heq]; rfl
    · next addrs _ heq => rw [heq]; exact addressesLoop_count L m part d hm addrs count

theorem addressValuesLoop_count : ∀ (values : List Bytes) (count : Nat),
    addressValuesLoop L m part values (count, d) =
      .ok (.next (count + (values.flatMap (countedCandidates L)).length, d))
  | [], count => rfl
  | v :: rest, count => by
    rw [addressValuesLoop, addressValueStep_count L m part d hm, Flow.andThen,
      addressValuesLoop_count rest, List.flatMap_cons, List.length_append, Nat.add_assoc]

variable {vals : Bytes → List Bytes}

theorem addressHeadersLoop_count : ∀ (header : List Bytes) (count : Nat),
    (∀ h ∈ header, expandVars d (toLower L.case h) ∈ allowedAddrHeaders →
      d.headerGet L.case (expandVars d (toLower L.case h)) = .ok (vals h)) →
    addressHeadersLoop L m part header (count, d) =
      .ok (.next (count + ((header.filter fun h =>
        allowedAddrHeaders.contains (expandVars d (toLower L.case h))).flatMap
          fun h => (vals h).flatMap (countedCandidates L)).length, d))
  | [], count, _ => rfl
  | h :: rest, count, hv => by
    have hrest := fun c => addressHeadersLoop_count rest c fun h' hh => hv h' (.tail _ hh)
    rw [addressHeadersLoop, addressHeaderStep]
    by_cases hal : expandVars d (toLower L.case h) ∈ allowedAddrHeaders
    · have hc : allowedAddrHeaders.contains (expandVars d (toLower L.case h)) = true := by
        simpa using hal
      rw [if_neg (by simp [hal]), hv h (.head _) hal]
      simp only [List.filter_cons, hc, if_true, List.flatMap_cons, List.length_append,
        ← Nat.add_assoc]
      rcases vals h with _ | ⟨v, vs⟩
      · simp only [hm, if_true, Flow.andThen, hrest, List.flatMap_nil, List.length_nil,
          Nat.add_zero]
      · dsimp only
        rw [addressValuesLoop_count L m part d hm, Flow.andThen, hrest]
    · have hc : allowedAddrHeaders.contains (expandVars d (toLower L.case h)) = false := by
        simpa using hal
      rw [if_pos (by simp [hal])]
      simp only [List.filter_cons, hc, Bool.false_eq_true, if_false]
      rw [Flow.andThen, hrest]

/-- When every allowed header reads, `AddressTest.Check` on `:count` counts the addresses the
parser returns for each value of each allowed header: a lone `<…>` value, which the matching
path tries as it is, and a value that does not parse count for nothing. -/
theorem addressTestCheck_count (header : List Bytes)
    (hv : ∀ h ∈ header, expandVars d (toLower L.case h) ∈ allowedAddrHeaders →
      d.headerGet L.case (expandVars d (toLower L.case h)) = .ok (vals h)) :
    addressTestCheck L m part header d =
      .ok (m.countMatches d ((header.filter fun h =>
        allowedAddrHeaders.contains (expandVars d (toLower L.case h))).flatMap
          fun h => (vals h).flatMap (countedCandidates L)).length, none, d) := by
  rw [addressTestCheck, addressHeadersLoop_count L m part d hm header 0 hv, finishCount, if_pos hm,
    Nat.zero_add]

end AddressCount

/-- Of the values `a@b` and `<c@d>` of `To`, only the first is counted. -/
theorem addressTestCheck_count_bare :
    let d := newRuntimeData ⟨[lit "relational"], defaultOptions⟩ dummyPolicy ⟨[], [], []⟩
      (messageStatic [(lit "To", lit "a@b"), (lit "To", lit "<c@d>")] 0)
    let m : MatcherTest := { newMatcherTest with matchType := .count, key := [lit "1"] }
    m.isCount = true ∧
      (∀ h ∈ [lit "To"], expandVars d (toLower sampleLib.case h) ∈ allowedAddrHeaders →
        d.headerGet sampleLib.case (expandVars d (toLower sampleLib.case h)) =
          .ok [lit "a@b", lit "<c@d>"]) ∧
      addressTestCheck sampleLib m .all [lit "To"] d =
        .ok (m.countMatches d (([lit "To"].filter fun h =>
          allowedAddrHeaders.contains (expandVars d (toLower sampleLib.case h))).flatMap
            fun _ => [lit "a@b", lit "<c@d>"].flatMap (countedCandidates sampleLib)).length,
          none, d) := by
  intro d m
  have hm : m.isCount = true := rfl
  have hv : ∀ h ∈ [lit "To"], expandVars d (toLower sampleLib.case h) ∈ allowedAddrHeaders →
      d.headerGet sampleLib.case (expandVars d (toLower sampleLib.case h)) =
        .ok [lit "a@b", lit "<c@d>"] := by
    simp only [List.mem_singleton, forall_eq]
    intro _
    rfl
  exact ⟨hm, hv, addressTestCheck_count sampleLib m .all d hm [lit "To"] hv⟩

example : ([lit "a@b", lit "<c@d>"].flatMap (countedCandidates sampleLib)).length = 1 := by
  decide

/-! ## The value a date test reads -/

/-- With `:last` the index counts from the end: the `n`-th value from the end is the
`(len + 1 - n)`-th from the start. -/
theorem selectIndexed_last (vs : List Bytes) {n : Nat} (hn : 0 < n) (hle : n ≤ vs.length) :
    selectIndexed vs n true = selectIndexed vs (vs.length + 1 - n) false := by
  have hidx : vs.length + 1 - n - 1 = vs.length - n := by omega
  simp only [selectIndexed, if_pos hn, if_pos hle, if_true, Bool.false_eq_true, if_false,
    if_pos (show 0 < vs.length + 1 - n by omega), if_pos (show vs.length + 1 - n ≤ vs.length by omega),
    hidx]

/-- A date test with `:index n :last` reads the same value, and so answers the same, as one with
`:index (len + 1 - n)` and no `:last`, where `len` is the number of values of the header. -/
theorem date_test_last_index_counts_from_end (L : Lib) (m : MatcherTest)
    (header datePart zone : Bytes) (originalZone : Bool) (d : RuntimeData) {vs : List Bytes}
    (hv : d.headerGet L.case (expandVars d header) = .ok vs) {n : Nat} (hn : 0 < n)
    (hle : n ≤ vs.length) :
    dateTestCheck L m header datePart zone originalZone n true d =
      dateTestCheck L m header datePart zone originalZone (vs.length + 1 - n) false d := by
  unfold dateTestCheck
  rw [hv]
  dsimp only
  rw [selectIndexed_last vs hn hle]

/-- Of three `Date` values, `:index 1 :last` reads the third, as `:index 3` does. -/
theorem date_test_last_index_counts_from_end_sample :
    let d := newRuntimeData ⟨[lit "date", lit "index"], defaultOptions⟩ dummyPolicy ⟨[], [], []⟩
      (messageStatic [(lit "Date", lit "a"), (lit "Date", lit "b"), (lit "Date", lit "c")] 0)
    d.headerGet sampleLib.case (expandVars d (lit "Date")) = .ok [lit "a", lit "b", lit "c"] ∧
      0 < 1 ∧ 1 ≤ [lit "a", lit "b", lit "c"].length ∧
      dateTestCheck sampleLib newMatcherTest (lit "Date") (lit "date") [] false 1 true d =
        dateTestCheck sampleLib newMatcherTest (lit "Date") (lit "date") [] false 3 false d := by
  intro d
  have hv : d.headerGet sampleLib.case (expandVars d (lit "Date")) =
      .ok [lit "a", lit "b", lit "c"] := rfl
  exact ⟨hv, by decide, by decide, date_test_last_index_counts_from_end sampleLib newMatcherTest
    (lit "Date") (lit "date") [] false d hv (by decide) (by decide)⟩

example : selectIndexed [lit "a", lit "b", lit "c"] 1 true = some (lit "c") := by decide

/-! ## The `exists` and `mailboxexists` loops -/

/-- When the host reads every listed field, `ExistsTest.Check` holds exactly when every field
has a value in the view. -/
theorem exists_test_holds_iff_all_present (L : Lib) (d : RuntimeData) : ∀ fields : List Bytes,
    (∀ f ∈ fields, ∃ vs, d.headerGet L.case (expandVars d f) = .ok vs) →
    ∃ b, existsTestCheck L d fields = .ok (b, none, d) ∧
      (b = true ↔ ∀ f ∈ fields, ∃ v vs, d.headerGet L.case (expandVars d f) = .ok (v :: vs))
  | [], _ => ⟨true, rfl, by simp⟩
  | f :: fields, hread => by
    obtain ⟨b, hb, hiff⟩ := exists_test_holds_iff_all_present L d fields
      fun f' h' => hread f' (List.mem_cons_of_mem f h')
    obtain ⟨vs, hvs⟩ := hread f (List.mem_cons_self f fields)
    rcases vs with _ | ⟨v, vs⟩
    · refine ⟨false, by rw [existsTestCheck, hvs], nofun, fun h => ?_⟩
      obtain ⟨_, _, hf⟩ := h f (List.mem_cons_self f fields)
      rw [hvs] at hf
      cases hf
    · refine ⟨b, by rw [existsTestCheck, hvs]; exact hb, ?_⟩
      rw [hiff, List.forall_mem_cons, hvs]
      exact ⟨fun h => ⟨⟨v, vs, rfl⟩, h⟩, And.right⟩

/-- "X-A" is there and "X-B" is not, so an exists test of both fails. -/
theorem exists_test_holds_iff_all_present_sample :
    let d := newRuntimeData ⟨[], defaultOptions⟩ dummyPolicy ⟨[], [], []⟩
      (messageStatic [(lit "X-A", lit "1")] 0)
    (∀ f ∈ [lit "X-A", lit "X-B"], ∃ vs, d.headerGet sampleLib.case (expandVars d f) = .ok vs) ∧
      ∃ b, existsTestCheck sampleLib d [lit "X-A", lit "X-B"] = .ok (b, none, d) ∧
        (b = true ↔ ∀ f ∈ [lit "X-A", lit "X-B"],
          ∃ v vs, d.headerGet sampleLib.case (expandVars d f) = .ok (v :: vs)) := by
  intro d
  have hread : ∀ f ∈ [lit "X-A", lit "X-B"],
      ∃ vs, d.headerGet sampleLib.case (expandVars d f) = .ok vs := fun _ _ => ⟨_, rfl⟩
  exact ⟨hread, exists_test_holds_iff_all_present sampleLib d _ hread⟩

/-- When the policy's checker answers for every listed mailbox, `MailboxExistsTest.Check` holds
exactly when it says each one exists; a policy without a checker makes the test hold. -/
theorem mailboxexists_holds_iff_all_exist (d : RuntimeData) : ∀ mailboxes : List Bytes,
    (∀ checker, d.policy.mailboxExists = some checker →
      ∀ mb ∈ mailboxes, ∃ b, checker (expandVars d mb) = .ok b) →
    ∃ b, mailboxExistsTestCheck d mailboxes = .ok (b, none, d) ∧
      (b = true ↔ ∀ checker, d.policy.mailboxExists = some checker →
        ∀ mb ∈ mailboxes, checker (expandVars d mb) = .ok true)
  | [], _ => ⟨true, rfl, by simp⟩
  | mb :: rest, hans => by
    obtain ⟨b, hb, hiff⟩ := mailboxexists_holds_iff_all_exist d rest
      fun c hc mb' h' => hans c hc mb' (List.mem_cons_of_mem mb h')
    cases hpol : d.policy.mailboxExists with
    | none =>
      refine ⟨b, by rw [mailboxExistsTestCheck, hpol]; exact hb, ?_⟩
      simpa [hpol] using hiff
    | some checker =>
      obtain ⟨a, ha⟩ := hans checker hpol mb (List.mem_cons_self mb rest)
      cases a
      · refine ⟨false, by rw [mailboxExistsTestCheck, hpol]; simp only [ha], nofun, fun h => ?_⟩
        have hmb := h checker rfl mb (List.mem_cons_self mb rest)
        rw [ha] at hmb
        cases hmb
      · refine ⟨b, by rw [mailboxExistsTestCheck, hpol]; simp only [ha]; exact hb, ?_⟩
        simpa [hpol, ha] using hiff

/-- A checker that knows only "INBOX" makes `mailboxexists ["INBOX", "Junk"]` fail. -/
theorem mailboxexists_holds_iff_all_exist_sample :
    let checker : Bytes → Except Bytes Bool := fun mb => .ok (mb == lit "INBOX")
    let d := newRuntimeData ⟨[lit "mailbox"], defaultOptions⟩ ⟨some checker, none⟩ ⟨[], [], []⟩
      (messageStatic [] 0)
    (∀ c, d.policy.mailboxExists = some c →
      ∀ mb ∈ [lit "INBOX", lit "Junk"], ∃ b, c (expandVars d mb) = .ok b) ∧
      ∃ b, mailboxExistsTestCheck d [lit "INBOX", lit "Junk"] = .ok (b, none, d) ∧
        (b = true ↔ ∀ c, d.policy.mailboxExists = some c →
          ∀ mb ∈ [lit "INBOX", lit "Junk"], c (expandVars d mb) = .ok true) := by
  intro checker d
  have hans : ∀ c, d.policy.mailboxExists = some c →
      ∀ mb ∈ [lit "INBOX", lit "Junk"], ∃ b, c (expandVars d mb) = .ok b := by
    intro c hc _ _
    cases hc
    exact ⟨_, rfl⟩
  exact ⟨hans, mailboxexists_holds_iff_all_exist d _ hans⟩

end GoSieve
