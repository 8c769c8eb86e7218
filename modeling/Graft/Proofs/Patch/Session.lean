import Graft.Patch.Session
/-!
# Patches in order

`Session.Makes` says what a list of patches makes of a session: each patch works on the text that the one before it made.
A run makes just that, or it stops at the first patch that fails, with the session as it is before that patch.
-/

namespace Graft

namespace Strategy

/-- The number of matches that a strategy is to have. -/
def expected? : Strategy → Option Nat
  | .process _ | .ast _ => none
  | .regex _ _ expected | .replace _ _ expected => expected

/-- The number of matches of a strategy in a text. -/
def matchesIn? (text : String) : Strategy → Option Nat
  | .process _ | .ast _ => none
  | .regex pattern _ _ => (Regex.compile? pattern).map fun r => (r.matches text.toList.toArray).length
  | .replace old new _ => some (Text.replaceLiteral text old new).2

theorem counted_found {what text result : String} {expected : Option Nat} {n : Nat} {found : Option Nat}
    (h : counted what expected (text, n) = .ok (result, found)) : found = some n ∧ ∀ m, expected = some m → m = n := by
  unfold counted checkCount at h
  cases expected with
  | none =>
    cases h
    exact ⟨rfl, nofun⟩
  | some m =>
    by_cases hm : m = n
    · simp only [hm, if_true] at h
      cases h
      exact ⟨rfl, fun _ h => by cases h; exact hm⟩
    · simp only [hm, if_false] at h
      cases h

/-- A strategy that expects a number of matches succeeds only where it finds as many. -/
theorem run_found {s : Strategy} {text result : String} {found : Option Nat} {n : Nat} (hs : s.expected? = some n)
    (h : s.run text = .ok (result, found)) : found = some n ∧ s.matchesIn? text = some n := by
  cases s with
  | process => cases hs
  | ast => cases hs
  | regex pattern replacement expected =>
    rw [run] at h
    cases hr : Regex.compile? pattern with
    | none => simp [hr] at h
    | some r =>
      rw [hr] at h
      obtain ⟨hfound, hn⟩ := counted_found h
      cases hn n hs
      exact ⟨hfound, by rw [matchesIn?, hr]; rfl⟩
  | replace old new expected =>
    obtain ⟨hfound, hn⟩ := counted_found h
    cases hn n hs
    exact ⟨hfound, rfl⟩

end Strategy

namespace Session

variable {δ : Type} [DecidableEq δ] {digest : String → δ} {s s' s'' o : Session} {p : Patch} {index : Nat}
variable {patches before after : List Patch} {text result : String} {found : Option Nat} {cause : PatchError} {f : Failure}

/-- `o` goes on where `s` ends. -/
def followed (s o : Session) : Session :=
  { buffer := o.buffer, consumed := s.consumed ++ o.consumed, outcomes := s.outcomes ++ o.outcomes }

/-- A session with one more patch, which made `result` of its text. -/
def patched (digest : String → δ) (s : Session) (p : Patch) (result : String) (found : Option Nat) : Session :=
  s.followed
    { buffer := result
      consumed := [p.id]
      outcomes := [{ id := p.id, kind := p.strategy.kind, found := found, changed := digest result ≠ digest s.buffer }] }

@[simp] theorem followed_start (s : Session) : s.followed (.start s.buffer) = s := by simp [followed, start]

@[simp] theorem followed_buffer (s o : Session) : (s.followed o).buffer = o.buffer := rfl

theorem followed_followed (s o o' : Session) : (s.followed o).followed o' = s.followed (o.followed o') := by
  simp [followed]

/-! ## One patch -/

theorem bind_apply {α β : Type} (x : Run α) (f : α → Run β) (s : Session) :
    (x >>= f) s = match x s with
      | (.ok a, s) => f a s
      | (.error cause, s) => (.error cause, s) := by
  change ExceptT.bindCont f (x s).1 (x s).2 = _
  rcases x s with ⟨_ | _, _⟩ <;> rfl

theorem get_bind {α : Type} (f : Session → Run α) (s : Session) : (get >>= f) s = f s s := rfl

theorem patch_ok (h : p.strategy.run s.buffer = .ok (result, found)) :
    patch digest index p s = (.ok (), s.patched digest p result found) := by
  rw [patch, get_bind]
  dsimp only
  rw [h]
  rfl

theorem patch_error (h : p.strategy.run s.buffer = .error cause) :
    patch digest index p s = (.error (p.failure index cause), s) := by
  rw [patch, get_bind]
  dsimp only
  rw [h]
  rfl

/-- A patch fails where its strategy fails on the text so far, and leaves the session as it is. -/
theorem patch_error_iff : patch digest index p s = (.error f, s') ↔
    s' = s ∧ ∃ cause, p.strategy.run s.buffer = .error cause ∧ f = p.failure index cause := by
  cases h : p.strategy.run s.buffer with
  | ok r =>
    rw [patch_ok h]
    constructor
    · intro he
      cases he
    · rintro ⟨-, cause, hc, -⟩
      cases hc
  | error cause =>
    rw [patch_error h]
    constructor
    · intro he
      cases he
      exact ⟨rfl, cause, rfl, rfl⟩
    · rintro ⟨rfl, cause', hc, rfl⟩
      cases hc
      rfl

/-! ## Many patches -/

/-- What patches make of a session. -/
inductive Makes (digest : String → δ) : Session → List Patch → Session → Prop
  | nil (s : Session) : Makes digest s [] s
  | cons {s s' : Session} {p : Patch} {rest : List Patch} {result : String} {found : Option Nat}
      (hp : p.strategy.run s.buffer = .ok (result, found)) (hrest : Makes digest (s.patched digest p result found) rest s') :
      Makes digest s (p :: rest) s'

namespace Makes

theorem append_iff : Makes digest s (before ++ after) s'' ↔ ∃ s', Makes digest s before s' ∧ Makes digest s' after s'' := by
  induction before generalizing s with
  | nil =>
    constructor
    · intro h
      exact ⟨s, .nil s, h⟩
    · rintro ⟨_, ⟨_⟩, h⟩
      exact h
  | cons p before ih =>
    constructor
    · rintro (_ | ⟨hp, hrest⟩)
      obtain ⟨s', hb, ha⟩ := ih.1 hrest
      exact ⟨s', .cons hp hb, ha⟩
    · rintro ⟨s', _ | ⟨hp, hb⟩, ha⟩
      exact .cons hp (ih.2 ⟨s', hb, ha⟩)

/-- Patches look at the text of a session only. -/
theorem followed_iff : Makes digest (s.followed o) patches s'' ↔ ∃ o', Makes digest o patches o' ∧ s'' = s.followed o' := by
  induction patches generalizing o with
  | nil =>
    constructor
    · rintro ⟨_⟩
      exact ⟨o, .nil o, rfl⟩
    · rintro ⟨_, ⟨_⟩, rfl⟩
      exact .nil _
  | cons p rest ih =>
    have hpatched (result : String) (found : Option Nat) :
        (s.followed o).patched digest p result found = s.followed (o.patched digest p result found) :=
      followed_followed ..
    constructor
    · rintro (_ | ⟨hp, hrest⟩)
      rw [hpatched] at hrest
      obtain ⟨o', ho', rfl⟩ := ih.1 hrest
      exact ⟨o', .cons hp ho', rfl⟩
    · rintro ⟨o', _ | ⟨hp, hrest⟩, rfl⟩
      refine .cons hp ?_
      rw [hpatched]
      exact ih.2 ⟨o', hrest, rfl⟩

theorem start_iff : Makes digest s patches s'' ↔
    ∃ o, Makes digest (.start s.buffer) patches o ∧ s'' = s.followed o := by
  have h := @followed_iff _ _ digest s s'' (.start s.buffer) patches
  rwa [followed_start] at h

/-- The patches are consumed and reported on in order. -/
theorem ids (h : Makes digest s patches s') :
    s'.consumed = s.consumed ++ patches.map Patch.id ∧
    s'.outcomes.map Outcome.id = s.outcomes.map Outcome.id ++ patches.map Patch.id ∧
    s'.outcomes.map Outcome.kind = s.outcomes.map Outcome.kind ++ patches.map fun p => p.strategy.kind := by
  induction h with
  | nil s => simp
  | cons hp _ ih =>
    obtain ⟨hconsumed, hids, hkinds⟩ := ih
    simp [hconsumed, hids, hkinds, patched, followed]

end Makes

/-! ## Runs -/

theorem patchAll_ok_iff : patchAll digest index patches s = (.ok (), s') ↔ Makes digest s patches s' := by
  -- On the patches: a strategy has one outcome on a text, so the run and the relation take the same steps.
  induction patches generalizing index s with
  | nil =>
    constructor
    · intro h
      cases h
      exact .nil _
    · rintro ⟨_⟩
      rfl
  | cons p rest ih =>
    rw [patchAll, bind_apply]
    cases hp : p.strategy.run s.buffer with
    | error cause =>
      rw [patch_error hp]
      constructor
      · intro h
        cases h
      · rintro (_ | ⟨hp', _⟩)
        cases hp.symm.trans hp'
    | ok r =>
      rw [patch_ok hp]
      constructor
      · intro h
        exact .cons hp (ih.1 h)
      · rintro (_ | ⟨hp', hrest⟩)
        cases hp.symm.trans hp'
        exact ih.2 hrest

/-- A run that fails stops before the first patch that fails, and reports its place. -/
theorem patchAll_error_iff : patchAll digest index patches s = (.error f, s') ↔
    ∃ before p after cause, patches = before ++ p :: after ∧ Makes digest s before s' ∧
      p.strategy.run s'.buffer = .error cause ∧ f = p.failure (index + before.length) cause := by
  -- On the patches: a run of one that fails ends there, and every other way to split the list contradicts that run.
  induction patches generalizing index s with
  | nil =>
    constructor
    · intro h
      cases h
    · rintro ⟨before, p, after, _, hsplit, -⟩
      simp at hsplit
  | cons p rest ih =>
    rw [patchAll, bind_apply]
    cases hp : p.strategy.run s.buffer with
    | error cause =>
      rw [patch_error hp]
      constructor
      · intro h
        cases h
        exact ⟨[], p, rest, cause, rfl, .nil _, hp, rfl⟩
      · rintro ⟨before, q, after, cause', hsplit, hb, hq, rfl⟩
        cases before with
        | nil =>
          cases hsplit
          cases hb
          cases hp.symm.trans hq
          rfl
        | cons q' before =>
          cases hsplit
          obtain _ | ⟨hp', _⟩ := hb
          cases hp.symm.trans hp'
    | ok r =>
      rw [patch_ok hp]
      constructor
      · intro h
        obtain ⟨before, q, after, cause, rfl, hb, hq, rfl⟩ := ih.1 h
        refine ⟨p :: before, q, after, cause, rfl, .cons hp hb, hq, ?_⟩
        rw [List.length_cons, Nat.add_right_comm, Nat.add_assoc]
      · rintro ⟨before, q, after, cause, hsplit, hb, hq, rfl⟩
        cases before with
        | nil =>
          cases hsplit
          cases hb
          cases hp.symm.trans hq
        | cons q' before =>
          cases hsplit
          obtain _ | ⟨hp', hb⟩ := hb
          cases hp.symm.trans hp'
          refine ih.2 ⟨before, q, after, cause, rfl, hb, hq, ?_⟩
          rw [List.length_cons, Nat.add_right_comm, Nat.add_assoc]

theorem after_ok_iff {x : Run Unit} : x.after s = .ok s' ↔ x s = (.ok (), s') := by
  unfold Run.after ExceptT.run
  obtain ⟨_ | _, s₁⟩ := x s
  · constructor <;> nofun
  · constructor
    · intro h
      cases h
      rfl
    · intro h
      cases h
      rfl

theorem after_error_iff {x : Run Unit} : x.after s = .error f ↔ ∃ s', x s = (.error f, s') := by
  unfold Run.after ExceptT.run
  obtain ⟨_ | _, s₁⟩ := x s
  · constructor
    · intro h
      cases h
      exact ⟨s₁, rfl⟩
    · rintro ⟨_, h⟩
      cases h
      rfl
  · constructor
    · nofun
    · rintro ⟨_, h⟩
      cases h

theorem applyWith_ok_iff : applyWith digest text patches = .ok o ↔ Makes digest (.start text) patches o :=
  after_ok_iff.trans patchAll_ok_iff

theorem applyWith_error_iff : applyWith digest text patches = .error f ↔
    ∃ before p after o cause, patches = before ++ p :: after ∧ applyWith digest text before = .ok o ∧
      p.strategy.run o.buffer = .error cause ∧ f = p.failure before.length cause := by
  simp only [applyWith_ok_iff]
  rw [applyWith, after_error_iff]
  simp only [patchAll_error_iff, Nat.zero_add]
  constructor
  · rintro ⟨o, before, p, after, cause, h⟩
    exact ⟨before, p, after, o, cause, h⟩
  · rintro ⟨before, p, after, o, cause, h⟩
    exact ⟨o, before, p, after, cause, h⟩

/-- Patches in two parts: the second part works on the text of the first. -/
theorem applyWith_append_iff : applyWith digest text (before ++ after) = .ok o ↔
    ∃ o₁ o₂, applyWith digest text before = .ok o₁ ∧ applyWith digest o₁.buffer after = .ok o₂ ∧ o = o₁.followed o₂ := by
  simp only [applyWith_ok_iff, Makes.append_iff]
  constructor
  · rintro ⟨o₁, hb, ha⟩
    obtain ⟨o₂, ho₂, rfl⟩ := Makes.start_iff.1 ha
    exact ⟨o₁, o₂, hb, ho₂, rfl⟩
  · rintro ⟨o₁, o₂, hb, ha, rfl⟩
    exact ⟨o₁, hb, Makes.start_iff.2 ⟨o₂, ha, rfl⟩⟩

/-! ## Going on after failures -/

/-- The patches of attempts that came to a success. -/
def survivors : List (Nat × Patch) → List (Except Failure Unit) → List Patch
  | (_, p) :: attempts, .ok _ :: results => p :: survivors attempts results
  | _ :: attempts, .error _ :: results => survivors attempts results
  | _, _ => []

/-- Attempts make of a session what those of them make that succeed. -/
theorem patchEach_makes (digest : String → δ) (attempts : List (Nat × Patch)) (s : Session) :
    Makes digest s (survivors attempts (patchEach digest attempts s).1) (patchEach digest attempts s).2 := by
  induction attempts generalizing s with
  | nil => exact .nil s
  | cons attempt attempts ih =>
    obtain ⟨index, p⟩ := attempt
    have hstep : patchEach digest ((index, p) :: attempts) s =
        ((patch digest index p s).1 :: (patchEach digest attempts (patch digest index p s).2).1,
          (patchEach digest attempts (patch digest index p s).2).2) := rfl
    rw [hstep]
    cases hp : p.strategy.run s.buffer with
    | error cause =>
      rw [patch_error hp]
      exact ih s
    | ok r =>
      rw [patch_ok hp]
      exact .cons hp (ih _)

/-- Patches in order, whole or in parts, and with failures between them. -/
theorem applyWith_laws (digest : String → δ) :
    -- A list in two parts: the second works on the text of the first.
    (∀ text p q o, applyWith digest text (p ++ q) = .ok o ↔
      ∃ o₁ o₂, applyWith digest text p = .ok o₁ ∧ applyWith digest o₁.buffer q = .ok o₂ ∧
        o = { buffer := o₂.buffer, consumed := o₁.consumed ++ o₂.consumed, outcomes := o₁.outcomes ++ o₂.outcomes }) ∧
    -- A failure names the first patch that fails on the text of those before it.
    (∀ text patches f, applyWith digest text patches = .error f ↔
      ∃ before p after o cause, patches = before ++ p :: after ∧ applyWith digest text before = .ok o ∧
        p.strategy.run o.buffer = .error cause ∧
        f = { id := p.id, index := before.length, kind := p.strategy.kind, cause := cause }) ∧
    -- A session that goes on is made by the patches that succeed.
    (∀ s s' index p f, patch digest index p s = (.error f, s') ↔ s' = s ∧
      ∃ cause, p.strategy.run s.buffer = .error cause ∧
        f = { id := p.id, index := index, kind := p.strategy.kind, cause := cause }) ∧
    (∀ s attempts, ∃ o, applyWith digest s.buffer (survivors attempts (patchEach digest attempts s).1) = .ok o ∧
      (patchEach digest attempts s).2 =
        { buffer := o.buffer, consumed := s.consumed ++ o.consumed, outcomes := s.outcomes ++ o.outcomes } ∧
      o.consumed = (survivors attempts (patchEach digest attempts s).1).map Patch.id ∧
      o.outcomes.map Outcome.id = o.consumed) ∧
    -- A strategy that expects a number of matches succeeds only with that number.
    (∀ (strategy : Strategy) text n result found, strategy.expected? = some n →
      strategy.run text = .ok (result, found) → found = some n ∧ strategy.matchesIn? text = some n) := by
  refine ⟨fun text p q o => applyWith_append_iff, fun text patches f => applyWith_error_iff,
    fun s s' index p f => patch_error_iff, ?_, ?_⟩
  · intro s attempts
    obtain ⟨o, ho, hs⟩ := Makes.start_iff.1 (patchEach_makes digest attempts s)
    obtain ⟨hconsumed, hids, -⟩ := ho.ids
    refine ⟨o, applyWith_ok_iff.2 ho, hs, hconsumed, ?_⟩
    rw [hids, hconsumed]
    rfl
  · intro strategy text n result found hn h
    exact Strategy.run_found hn h

/-- The second of two patches is to have two matches, and there is one. -/
theorem single_match_stops :
    applyWith id "a x" [⟨"ok", .replace "a" "b" none⟩, ⟨"strict", .replace "x" "y" (some 2)⟩] =
      .error { id := "strict", index := 1, kind := "replace", cause := .edit (.matchCount "literal 'x'" 2 1) } := by
  have hok : (Strategy.replace "a" "b" none).run "a x" = .ok ("b x", some 1) := by
    rw [Strategy.run, show Text.replaceLiteral "a x" "a" "b" = ("b x", 1) by decide +kernel]
    rfl
  have hstrict : (Strategy.replace "x" "y" (some 2)).run "b x" = .error (.edit (.matchCount "literal 'x'" 2 1)) := by
    rw [Strategy.run, show Text.replaceLiteral "b x" "x" "y" = ("b y", 1) by decide +kernel]
    rfl
  exact ((applyWith_laws id).2.1 _ _ _).2 ⟨[_], _, [], _, _, rfl, applyWith_ok_iff.2 (.cons hok (.nil _)), hstrict, rfl⟩

end Session
end Graft
