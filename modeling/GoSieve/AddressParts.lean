import GoSieve.Load

/-!
# Address-part tags

`address` and `envelope` take one `ADDRESS-PART` tag (`:all`, `:localpart`, `:domain`, `:user`,
`:detail`). Their loaders bind the tags through `LoadSpec`, each tag setting the loaded
address-part, so the last one given wins (`loadTags_addressPart`). `loadAddressTest` also
counts them and rejects a second one; `loadEnvelopeTest` does not count.

So an `address` test that loads has at most one address-part tag and keeps its part, `:all`
when there is none, while an `envelope` test loads with any number and keeps the last
(`loaded_address_part_tags`, `envelope_address_part_bug`).
-/

namespace GoSieve

/-- The address-part an `ADDRESS-PART` tag names. -/
def tagPart (name : Bytes) : Option AddressPart :=
  if name = lit "all" then some .all
  else if name = lit "localpart" then some .localPart
  else if name = lit "domain" then some .domain
  else if name = lit "user" then some .user
  else if name = lit "detail" then some .detail
  else none

/-- The `ADDRESS-PART` tags among a test's arguments, in order. -/
def partTags (args : List Arg) : List AddressPart :=
  args.filterMap fun
    | .tag n => tagPart n
    | _ => none

/-- The address-part a loader has bound and the number of address-part tags it has counted. -/
def partState (l : Loaded) : AddressPart × Nat := (l.addressPart, l.addressPartCnt)

/-- Every callback of the tag leaves the address-part and its count alone. -/
def SpecTag.KeepsPart (t : SpecTag) : Prop :=
  (∀ l, partState (t.matchBool l) = partState l) ∧
    (∀ f, t.matchNum = some f → ∀ k l, partState (f k l) = partState l) ∧
    (∀ f, t.matchStr = some f → ∀ v l, partState (f v l) = partState l)

theorem tag_cases {counted : Bool} {name : Bytes} {t : SpecTag}
    (h : (name, t) ∈ matcherTags ++ addressPartTags counted) :
    (tagPart name = none ∧ t.KeepsPart) ∨
      (∃ p, tagPart name = some p ∧ t.needsValue = false ∧
        ∀ l, partState (t.matchBool l) = (p, l.addressPartCnt + if counted then 1 else 0)) := by
  simp only [matcherTags, addressPartTags, List.cons_append, List.nil_append, List.mem_cons,
    Prod.mk.injEq, List.mem_singleton, List.not_mem_nil, or_false] at h
  rcases h with ⟨rfl, rfl⟩ | ⟨rfl, rfl⟩ | ⟨rfl, rfl⟩ | ⟨rfl, rfl⟩ | ⟨rfl, rfl⟩ | ⟨rfl, rfl⟩ |
    ⟨rfl, rfl⟩ | ⟨rfl, rfl⟩ | ⟨rfl, rfl⟩ | ⟨rfl, rfl⟩ | ⟨rfl, rfl⟩ | ⟨rfl, rfl⟩
  all_goals first
    | exact .inl ⟨rfl, fun _ => rfl, fun _ hf => (by cases hf), fun _ hf _ _ => (by cases hf; rfl)⟩
    | exact .inl ⟨rfl, fun _ => rfl, fun _ hf => (by cases hf), fun _ hf => (by cases hf)⟩
    | exact .inr ⟨_, rfl, rfl, fun _ => by cases counted <;> rfl⟩

theorem partTags_tag_of_none {name : Bytes} (h : tagPart name = none) (args : List Arg) :
    partTags (.tag name :: args) = partTags args := by
  simp [partTags, h]

theorem partTags_tag_of_some {name : Bytes} {p : AddressPart} (h : tagPart name = some p)
    (args : List Arg) : partTags (.tag name :: args) = p :: partTags args := by
  simp [partTags, h]

theorem partTags_cons_of_not_tag {a : Arg} (h : ∀ n, a ≠ .tag n) (args : List Arg) :
    partTags (a :: args) = partTags args := by
  cases a <;> first | rfl | exact absurd rfl (h _)

/-- A bound argument is not a tag, and callbacks that keep the address-part keep it. -/
theorem bindArg_keepsPart {mn : Option (Nat → Loaded → Loaded)}
    {ms : Option (List Bytes → Loaded → Loaded)} {minC maxC : Nat} {arg : Arg} {l l' : Loaded}
    (hn : ∀ f, mn = some f → ∀ k l, partState (f k l) = partState l)
    (hs : ∀ f, ms = some f → ∀ v l, partState (f v l) = partState l)
    (h : bindArg mn ms minC maxC arg l = .ok l') :
    (∀ n, arg ≠ .tag n) ∧ partState l' = partState l := by
  unfold bindArg at h
  split at h
  · next f k => cases h; exact ⟨fun _ => Arg.noConfusion, hn f rfl k l⟩
  · next v hv =>
    split at h
    · next f =>
      split_ifs at h
      cases h
      refine ⟨fun n hn => ?_, hs f rfl _ l⟩
      subst hn
      cases hv
    · cases h
  · cases h

/-- The tags `loadTags` binds for `address` (`counted`) and `envelope`: what it has read of the
arguments, up to what it returns, holds every address-part tag; the last one is the bound
address-part, and `address` counts them all. -/
theorem loadTags_addressPart (counted : Bool) {args rest : List Arg} {l l' : Loaded}
    (h : loadTags (matcherTags ++ addressPartTags counted) args l = .ok (rest, l')) :
    ∃ pre, args = pre ++ rest ∧ l'.addressPart = (partTags pre).getLastD l.addressPart ∧
      l'.addressPartCnt = l.addressPartCnt + if counted then (partTags pre).length else 0 := by
  refine loadTags_ok_induction (motive := fun args l rest l' => ∃ pre, args = pre ++ rest ∧
      l'.addressPart = (partTags pre).getLastD l.addressPart ∧
      l'.addressPartCnt = l.addressPartCnt + if counted then (partTags pre).length else 0)
    (fun _ _ _ => ⟨[], rfl, rfl, by simp [partTags]⟩) ?_ ?_ h
  · rintro name t v _ l _ _ _ ht hv hb ⟨pre, rfl, hpart, hcnt⟩
    rcases tag_cases (lookup_mem ht) with ⟨hnone, hk⟩ | ⟨p, -, hnv, -⟩
    · obtain ⟨hvt, hs⟩ := bindArg_keepsPart hk.2.1 hk.2.2 hb
      simp only [partState, Prod.mk.injEq] at hs
      refine ⟨.tag name :: v :: pre, rfl, ?_⟩
      rw [partTags_tag_of_none hnone, partTags_cons_of_not_tag hvt, hpart, hcnt, hs.1, hs.2]
      exact ⟨rfl, rfl⟩
    · rw [hnv] at hv
      cases hv
  · rintro name t _ l _ _ ht - ⟨pre, rfl, hpart, hcnt⟩
    refine ⟨.tag name :: pre, rfl, ?_⟩
    rcases tag_cases (lookup_mem ht) with ⟨hnone, hk⟩ | ⟨p, hp, -, hs⟩
    · have hs := hk.1 l
      simp only [partState, Prod.mk.injEq] at hs
      rw [partTags_tag_of_none hnone, hpart, hcnt, hs.1, hs.2]
      exact ⟨rfl, rfl⟩
    · have hs := hs l
      simp only [partState, Prod.mk.injEq] at hs
      rw [partTags_tag_of_some hp, List.getLastD_cons, hpart, hcnt, hs.1, hs.2]
      refine ⟨rfl, ?_⟩
      cases counted
      · simp
      · simp only [List.length_cons, if_true]
        omega

/-- Every callback of the positional argument leaves the address-part and its count alone. -/
def SpecPosArg.KeepsPart (p : SpecPosArg) : Prop :=
  (∀ f, p.matchNum = some f → ∀ k l, partState (f k l) = partState l) ∧
    (∀ f, p.matchStr = some f → ∀ v l, partState (f v l) = partState l)

/-- The positional arguments that `loadPos` binds are not tags, and callbacks that keep the
address-part keep it. -/
theorem loadPos_keepsPart : ∀ {pos : List SpecPosArg}, (∀ p ∈ pos, p.KeepsPart) →
    ∀ {args : List Arg} {l l' : Loaded}, loadPos pos args l = .ok l' →
      partTags args = [] ∧ partState l' = partState l
  | [], _, [], l, l', h => by cases h; exact ⟨rfl, rfl⟩
  | [], _, _ :: _, _, _, h => by cases h
  | p :: ps, hpos, [], l, l', h => by
    simp only [loadPos] at h
    split_ifs at h
    exact loadPos_keepsPart (fun q hq => hpos q (.tail _ hq)) h
  | p :: ps, hpos, a :: as, l, l', h => by
    have hp := hpos p (.head _)
    simp only [loadPos] at h
    split at h
    · next l₁ hb =>
      obtain ⟨hnt, hs⟩ := bindArg_keepsPart hp.1 hp.2 hb
      obtain ⟨ht, hs'⟩ := loadPos_keepsPart (fun q hq => hpos q (.tail _ hq)) h
      exact ⟨by rw [partTags_cons_of_not_tag hnt, ht], hs'.trans hs⟩
    · split_ifs at h
      exact loadPos_keepsPart (fun q hq => hpos q (.tail _ hq)) h

/-- What `LoadSpec` binds for `address` (`counted`) and `envelope`: the last address-part tag
of the arguments, `:all` when there is none, and for `address` the number of them. -/
theorem loadSpec_addressPart (counted : Bool) {pos : List SpecPosArg} (hpos : ∀ p ∈ pos, p.KeepsPart)
    {args : List Arg} {n : Nat} {l : Loaded}
    (h : loadSpec (addSpecTags { tags := addressPartTags counted, pos := pos }) args n false {} =
      .ok l) :
    l.addressPart = (partTags args).getLastD .all ∧
      l.addressPartCnt = if counted then (partTags args).length else 0 := by
  obtain ⟨rest, l₁, ht, hp, -⟩ := loadSpec_ok h
  obtain ⟨pre, rfl, hpart, hcnt⟩ := loadTags_addressPart counted ht
  obtain ⟨hnt, hs⟩ := loadPos_keepsPart hpos hp
  simp only [partState, Prod.mk.injEq] at hs
  have hpre : partTags (pre ++ rest) = partTags pre := by
    simp only [partTags, List.filterMap_append] at hnt ⊢
    rw [hnt, List.append_nil]
  rw [hpre, hs.1, hs.2, hpart, hcnt]
  exact ⟨rfl, Nat.zero_add _⟩

/-- The positional arguments of `address` and `envelope`, the header names or envelope-parts
and the keys, bind nothing of the address-part. -/
theorem addressPos_keepsPart :
    ∀ p ∈ [strsPos fun v l => { l with names := v }, keyPos], p.KeepsPart := by
  simp only [List.mem_cons, List.mem_singleton, List.not_mem_nil, or_false]
  rintro p (rfl | rfl) <;> exact ⟨fun _ hf => (by cases hf), fun _ hf _ _ => (by cases hf; rfl)⟩

section Loaders

variable {C : CaseTables} {s : ScriptConfig} {args : List Arg} {n : Nat} {t : Test}

/-- `address` loads with at most one address-part tag, and keeps the part that tag names, or
`:all`. -/
theorem loadAddressTest_addressPart (h : loadAddressTest C s args n = .ok t) :
    (partTags args).length ≤ 1 ∧ ∃ m names,
      t = .addressTest m ((partTags args).headD .all) (partTags args).length names := by
  unfold loadAddressTest at h
  generalize hr : loadSpec _ args n false {} = r at h
  simp only [bind, Except.bind, pure, Except.pure, throw, throwThe, MonadExceptOf.throw] at h
  obtain ⟨l, rfl, h⟩ := ok_of_bind_ok h
  obtain ⟨m, -, h⟩ := ok_of_bind_ok h
  obtain ⟨hcnt, h⟩ := ok_of_ite_error h
  obtain ⟨-, h⟩ := ok_of_ite_error h
  cases h
  obtain ⟨hpart, hcnt'⟩ := loadSpec_addressPart true addressPos_keepsPart hr
  simp only [if_true] at hcnt'
  rw [hcnt'] at hcnt
  refine ⟨by omega, m, l.names, ?_⟩
  rw [hpart, hcnt']
  congr 1
  match partTags args, hcnt with
  | [], _ => rfl
  | [_], _ => rfl
  | _ :: _ :: _, h => simp at h

/-- `envelope` keeps the part of its last address-part tag, or `:all`, however many it is
given. -/
theorem loadEnvelopeTest_addressPart (h : loadEnvelopeTest C s args n = .ok t) :
    ∃ m names, t = .envelopeTest m ((partTags args).getLastD .all) names := by
  unfold loadEnvelopeTest at h
  generalize hr : loadSpec _ args n false {} = r at h
  simp only [bind, Except.bind, pure, Except.pure, throw, throwThe, MonadExceptOf.throw] at h
  obtain ⟨-, h⟩ := ok_of_ite_error h
  obtain ⟨l, rfl, h⟩ := ok_of_bind_ok h
  obtain ⟨m, -, h⟩ := ok_of_bind_ok h
  obtain ⟨-, h⟩ := ok_of_ite_error h
  cases h
  exact ⟨m, l.names, by rw [(loadSpec_addressPart false addressPos_keepsPart hr).1]⟩

end Loaders

/-- The two loaders bind the `ADDRESS-PART` tags alike but count them differently: an
`address` test that loads has at most one and keeps its part, `:all` without one, while an
`envelope` test loads with any number and keeps the last. -/
theorem loaded_address_part_tags (C : CaseTables) (s : ScriptConfig) (args : List Arg)
    (n : Nat) :
    (∀ t, loadAddressTest C s args n = .ok t → (partTags args).length ≤ 1 ∧
      ∃ m names, t = .addressTest m ((partTags args).headD .all) (partTags args).length names) ∧
    (∀ t, loadEnvelopeTest C s args n = .ok t →
      ∃ m names, t = .envelopeTest m ((partTags args).getLastD .all) names) :=
  ⟨fun _ h => loadAddressTest_addressPart h, fun _ h => loadEnvelopeTest_addressPart h⟩

/-- `envelope :localpart :domain "from" "x"` keeps `:domain`. -/
theorem loaded_address_part_tags_envelope :
    let args : List Arg :=
      [.tag (lit "localpart"), .tag (lit "domain"), .string (lit "from"), .string (lit "x")]
    ∃ t, loadEnvelopeTest goCase ⟨[lit "envelope"], defaultOptions⟩ args 0 = .ok t ∧
      ∃ m names, t = .envelopeTest m .domain names := by
  intro args
  obtain ⟨t, ht⟩ : ∃ t, loadEnvelopeTest goCase ⟨[lit "envelope"], defaultOptions⟩ args 0 =
      .ok t := ⟨_, rfl⟩
  exact ⟨t, ht, (loaded_address_part_tags goCase _ args 0).2 t ht⟩

/-- `envelope :localpart :domain "from" "x"` loads and compares the domain, while `address`
rejects the same two tags. -/
theorem envelope_address_part_bug :
    (∃ sc, loadScript goCase
        [.mk (lit "require") [.string (lit "envelope")] [] [],
         .mk (lit "if") []
          [.mk (lit "envelope") [.tag (lit "localpart"), .tag (lit "domain"), .string (lit "from"),
            .string (lit "x")] []]
          [.mk (lit "keep") [] [] []]]
        defaultOptions [lit "envelope"] = .ok sc) ∧
    (∃ m, loadEnvelopeTest goCase ⟨[lit "envelope"], defaultOptions⟩
        [.tag (lit "localpart"), .tag (lit "domain"), .string (lit "from"), .string (lit "x")] 0 =
      .ok (.envelopeTest m .domain [lit "from"])) ∧
    loadScript goCase
        [.mk (lit "if") []
          [.mk (lit "address") [.tag (lit "localpart"), .tag (lit "domain"), .string (lit "from"),
            .string (lit "x")] []]
          [.mk (lit "keep") [] [] []]]
        defaultOptions [] = .error (lit "multiple address-parts are not allowed") :=
  ⟨⟨_, rfl⟩, ⟨_, rfl⟩, rfl⟩

end GoSieve
