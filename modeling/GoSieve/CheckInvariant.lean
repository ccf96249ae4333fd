import GoSieve.Tests

/-!
# Properties every test's loops keep

The counting tests (`address`, `envelope`, `header`, `string`) run loops of `Flow` steps made
of `Flow.ofCheck`, `Flow.andThen` and `finishCount` around `testAddress` or `tryMatch`; the
`date` and `currentdate` tests call `tryMatch` once at most, and `exists` and `mailboxexists`
only read the runtime data. A property of `Check` results and of loop steps, each relative to
the runtime data it starts from, that these building blocks keep is a `CheckInvariant`, and
it then holds of every one of these tests once it holds of `tryMatch` (`addressTestCheck_holds`
and its siblings). The loops are traversed here once; the instances are

* `noPanic_invariant` (`GoSieve.Panic`): no panic, given that `tryMatch` is reached only off
  `:count`;
* `onlyMatchVars_invariant` (`GoSieve.Effects`): only the match variables are written;
* `falseOnError_invariant` (`GoSieve.Combinators`): an error comes with `false`.
-/

namespace GoSieve

/-- A property `check d r` of a `Check` result `r` and `flow d r` of a loop step `r`, both
relative to the runtime data `d` the computation starts from, that holds of the results the
tests build without matching and that the loop combinators keep. -/
structure CheckInvariant (check : RuntimeData → CheckOut → Prop)
    (flow : RuntimeData → Except String (Flow (Nat × RuntimeData)) → Prop) : Prop where
  /-- A result without an error, in the runtime data the test started from. -/
  check_same : ∀ d b, check d (.ok (b, none, d))
  /-- `return false, err` in the runtime data the test started from. -/
  check_fail : ∀ d e, check d (.ok (false, some e, d))
  /-- `testAddress` reports an error of `tryMatch` with `false`. -/
  check_false_of : ∀ {d b e d'},
    check d (.ok (b, some e, d')) → check d (.ok (false, some e, d'))
  /-- On to the next iteration, the runtime data untouched. -/
  flow_next : ∀ d n, flow d (.ok (.next (n, d)))
  /-- `return false, err` out of a loop, the runtime data untouched. -/
  flow_fail : ∀ d e, flow d (.ok (.ret false (some e) d))
  ofCheck : ∀ {d r} (count : Nat), check d r → flow d (Flow.ofCheck r count)
  andThen : ∀ {d step} {rest : Nat × RuntimeData → Except String (Flow (Nat × RuntimeData))},
    flow d step → (∀ n d', flow d' (rest (n, d'))) → flow d (Flow.andThen step rest)
  finishCount : ∀ {d r} (m : MatcherTest), flow d r → check d (finishCount m r)

namespace CheckInvariant

variable {check : RuntimeData → CheckOut → Prop}
  {flow : RuntimeData → Except String (Flow (Nat × RuntimeData)) → Prop}
  (I : CheckInvariant check flow)

include I

theorem existsTestCheck_holds (L : Lib) (d : RuntimeData) :
    ∀ fields, check d (existsTestCheck L d fields)
  | [] => I.check_same d true
  | f :: fs => by
    unfold existsTestCheck
    split
    · exact I.check_fail d _
    · exact I.check_same d false
    · exact existsTestCheck_holds L d fs

theorem mailboxExistsTestCheck_holds (d : RuntimeData) :
    ∀ mailboxes, check d (mailboxExistsTestCheck d mailboxes)
  | [] => I.check_same d true
  | mb :: rest => by
    unfold mailboxExistsTestCheck
    split
    · exact mailboxExistsTestCheck_holds d rest
    · split
      · exact I.check_fail d _
      · exact I.check_same d false
      · exact mailboxExistsTestCheck_holds d rest

/-- `currentdate` calls `tryMatch` whatever its matcher. -/
theorem currentDateTestCheck_holds (L : Lib) (m : MatcherTest) (datePart zone : Bytes)
    (d : RuntimeData) (htry : ∀ v, check d (m.tryMatch L d v m.key)) :
    check d (currentDateTestCheck L m datePart zone d) := by
  unfold currentDateTestCheck
  dsimp only
  split
  · exact I.check_fail d _
  · exact htry _

/-! ## The tests that call `tryMatch` only off `:count` -/

section Matching

variable (L : Lib) (m : MatcherTest)
  (htry : ∀ d v, m.isCount = false → check d (m.tryMatch L d v m.key))

include htry

theorem dateTestCheck_holds (header datePart zone : Bytes) (originalZone : Bool) (index : Nat)
    (last : Bool) (d : RuntimeData) :
    check d (dateTestCheck L m header datePart zone originalZone index last d) := by
  unfold dateTestCheck
  split
  · exact I.check_fail d _
  · split
    · exact I.check_same d _
    · next hm =>
      split
      · exact I.check_same d false
      · split
        · exact I.check_same d false
        · split
          · exact I.check_fail d _
          · exact htry d _ (by simpa using hm)

theorem stringSourcesLoop_holds : ∀ (source : List Bytes) (n : Nat) (d : RuntimeData),
    flow d (stringSourcesLoop L m source (n, d))
  | [], n, d => I.flow_next d n
  | src :: rest, n, d => by
    unfold stringSourcesLoop
    split
    · exact stringSourcesLoop_holds rest _ d
    · next hm =>
      exact I.andThen (I.ofCheck n (htry d _ (by simpa using hm)))
        (stringSourcesLoop_holds rest)

theorem stringTestCheck_holds (source : List Bytes) (d : RuntimeData) :
    check d (stringTestCheck L m source d) :=
  I.finishCount m (stringSourcesLoop_holds I L m htry source 0 d)

theorem headerValuesLoop_holds : ∀ (values : List Bytes) (n : Nat) (d : RuntimeData),
    flow d (headerValuesLoop L m values (n, d))
  | [], n, d => I.flow_next d n
  | v :: rest, n, d => by
    unfold headerValuesLoop
    split
    · exact headerValuesLoop_holds rest _ d
    · next hm =>
      exact I.andThen (I.ofCheck n (htry d v (by simpa using hm))) (headerValuesLoop_holds rest)

theorem headersLoop_holds : ∀ (header : List Bytes) (n : Nat) (d : RuntimeData),
    flow d (headersLoop L m header (n, d))
  | [], n, d => I.flow_next d n
  | hdr :: rest, n, d => by
    refine I.andThen ?_ (headersLoop_holds rest)
    unfold headerStep
    split
    · exact I.flow_fail d _
    · exact headerValuesLoop_holds I L m htry _ n d

theorem headerTestCheck_holds (header : List Bytes) (d : RuntimeData) :
    check d (headerTestCheck L m header d) :=
  I.finishCount m (headersLoop_holds I L m htry header 0 d)

/-! ### Address parts -/

variable (part : AddressPart)

theorem testAddress_holds (d : RuntimeData) (address : Bytes) (hm : m.isCount = false) :
    check d (testAddress L m part d address) := by
  unfold testAddress
  split
  · exact I.check_same d false
  · next v _ =>
    have h := htry d v hm
    split
    · next hr => rwa [hr] at h
    · next hr => rw [hr] at h; exact I.check_false_of h
    · next hr => rwa [hr] at h

/-- The step every address loop takes on one address: counted on `:count`, matched
otherwise. -/
theorem countOrTest_holds (n : Nat) (d : RuntimeData) (address : Bytes) :
    flow d (if m.isCount then .ok (.next (n, d))
      else Flow.ofCheck (testAddress L m part d address) n) := by
  split
  · exact I.flow_next d n
  · next hm => exact I.ofCheck n (testAddress_holds I L m htry part d address (by simpa using hm))

theorem addressesLoop_holds : ∀ (addrs : List Bytes) (n : Nat) (d : RuntimeData),
    flow d (addressesLoop L m part addrs (n, d))
  | [], n, d => I.flow_next d n
  | a :: rest, n, d => by
    unfold addressesLoop
    split
    · exact addressesLoop_holds rest _ d
    · next hm =>
      exact I.andThen (I.ofCheck n (testAddress_holds I L m htry part d a (by simpa using hm)))
        (addressesLoop_holds rest)

theorem addressValueStep_holds (value : Bytes) (n : Nat) (d : RuntimeData) :
    flow d (addressValueStep L m part value n d) := by
  unfold addressValueStep
  dsimp only
  split
  · exact countOrTest_holds I L m htry part n d _
  · split
    · exact countOrTest_holds I L m htry part n d _
    · exact countOrTest_holds I L m htry part n d _
    · exact addressesLoop_holds I L m htry part _ n d

theorem addressValuesLoop_holds : ∀ (values : List Bytes) (n : Nat) (d : RuntimeData),
    flow d (addressValuesLoop L m part values (n, d))
  | [], n, d => I.flow_next d n
  | v :: rest, n, d =>
    I.andThen (addressValueStep_holds I L m htry part v n d) (addressValuesLoop_holds rest)

theorem addressHeadersLoop_holds : ∀ (header : List Bytes) (n : Nat) (d : RuntimeData),
    flow d (addressHeadersLoop L m part header (n, d))
  | [], n, d => I.flow_next d n
  | hdr :: rest, n, d => by
    refine I.andThen ?_ (addressHeadersLoop_holds rest)
    unfold addressHeaderStep
    dsimp only
    split
    · exact I.flow_next d n
    · split
      · exact I.flow_fail d _
      · exact countOrTest_holds I L m htry part n d _
      · exact addressValuesLoop_holds I L m htry part _ n d

theorem addressTestCheck_holds (header : List Bytes) (d : RuntimeData) :
    check d (addressTestCheck L m part header d) :=
  I.finishCount m (addressHeadersLoop_holds I L m htry part header 0 d)

theorem envelopeFieldsLoop_holds : ∀ (field : List Bytes) (n : Nat) (d : RuntimeData),
    flow d (envelopeFieldsLoop L m part field (n, d))
  | [], n, d => I.flow_next d n
  | f :: rest, n, d => by
    refine I.andThen ?_ (envelopeFieldsLoop_holds rest)
    unfold envelopeFieldStep
    dsimp only
    split
    · exact I.flow_fail d _
    · split
      · exact I.flow_next d n
      · split
        · exact I.flow_next d _
        · next hm => exact I.ofCheck n (testAddress_holds I L m htry part d _ (by simpa using hm))

theorem envelopeTestCheck_holds (field : List Bytes) (d : RuntimeData) :
    check d (envelopeTestCheck L m part field d) :=
  I.finishCount m (envelopeFieldsLoop_holds I L m htry part field 0 d)

end Matching

end CheckInvariant

end GoSieve
