import Graft.Regex.Cache
/-!
# What a cache answers

A cache answers as if every pattern were compiled anew: it keeps patterns with what compiling them gives, and never more of them
than it has room for (`Cache.run_transparent`).
-/

namespace Graft.Regex.Cache

variable {c : Cache} {pattern other : String} {r : Regex}

/-! ## Sound caches -/

/-- Every pattern is there with what compiling it gives, and there are not too many. -/
structure Sound (c : Cache) : Prop where
  own : ∀ pattern r, c.entries[pattern]? = some r → Regex.compile? pattern = some r
  size : c.size ≤ capacity

theorem empty_sound : Sound empty where
  own pattern r h := by
    rw [empty, Std.HashMap.getElem?_empty] at h
    cases h
  size := Nat.zero_le _

/-- The cache in which a pattern is put that was not there. -/
def room (c : Cache) : Cache := if capacity ≤ c.size then empty else c

theorem room_sound (h : c.Sound) : c.room.Sound := by
  unfold room
  split
  next => exact empty_sound
  next => exact h

theorem room_size (c : Cache) : c.room.size < capacity := by
  unfold room
  split
  next => decide
  next h => omega

theorem Sound.insert (h : c.Sound) (hroom : c.size < capacity) (hr : Regex.compile? pattern = some r) :
    Sound ⟨c.entries.insert pattern r⟩ where
  own other r' hother := by
    rw [Std.HashMap.getElem?_insert] at hother
    split at hother
    next hsame =>
      obtain rfl : pattern = other := by simpa using hsame
      rw [hr, hother]
    next => exact h.own other r' hother
  size := Nat.le_trans Std.HashMap.size_insert_le hroom

/-! ## Looking up -/

theorem compile?_hit (h : c.entries[pattern]? = some r) : c.compile? pattern = (some r, c) := by
  rw [compile?, h]

theorem compile?_miss (h : c.entries[pattern]? = none) : c.compile? pattern =
    (Regex.compile? pattern, (Regex.compile? pattern).elim c.room fun r => ⟨c.room.entries.insert pattern r⟩) := by
  rw [compile?, h]
  cases Regex.compile? pattern <;> rfl

/-- A lookup answers what compiling would, leaves a sound cache, and keeps the pattern if there is anything to keep. -/
theorem Sound.compile? (h : c.Sound) (pattern : String) :
    (c.compile? pattern).1 = Regex.compile? pattern ∧ (c.compile? pattern).2.Sound ∧
    (c.compile? pattern).2.entries[pattern]? = Regex.compile? pattern := by
  cases hentry : c.entries[pattern]? with
  | some r =>
    rw [compile?_hit hentry, h.own pattern r hentry]
    exact ⟨rfl, h, hentry⟩
  | none =>
    rw [compile?_miss hentry]
    cases hr : Regex.compile? pattern with
    | some r => exact ⟨rfl, (room_sound h).insert c.room_size hr, Std.HashMap.getElem?_insert_self⟩
    | none =>
      -- what does not compile is not there, whether the cache was emptied or not
      refine ⟨rfl, room_sound h, ?_⟩
      cases hroom : c.room.entries[pattern]? with
      | none => exact hroom
      | some r => cases hr.symm.trans ((room_sound h).own pattern r hroom)

/-- While there is room, a lookup takes nothing out. -/
theorem compile?_keeps (hroom : c.size < capacity) (h : c.entries[other]? = some r) (pattern : String) :
    (c.compile? pattern).2.entries[other]? = some r := by
  cases hentry : c.entries[pattern]? with
  | some _ =>
    rw [compile?_hit hentry]
    exact h
  | none =>
    have hsame : c.room = c := if_neg (Nat.not_le.2 hroom)
    rw [compile?_miss hentry, hsame]
    cases Regex.compile? pattern with
    | none => exact h
    | some new =>
      have hne : ¬ (pattern == other) = true := by
        rw [beq_iff_eq]
        rintro rfl
        cases hentry.symm.trans h
      change (c.entries.insert pattern new)[other]? = some r
      rw [Std.HashMap.getElem?_insert, if_neg hne, h]

/-- A lookup adds at most one pattern. -/
theorem size_compile?_le (c : Cache) (pattern : String) : (c.compile? pattern).2.size ≤ c.size + 1 := by
  have hroom : c.room.size ≤ c.size := by
    unfold room
    split
    next => exact Nat.zero_le _
    next => exact Nat.le_refl _
  cases hentry : c.entries[pattern]? with
  | some _ =>
    rw [compile?_hit hentry]
    exact Nat.le_succ _
  | none =>
    rw [compile?_miss hentry]
    cases Regex.compile? pattern with
    | none => exact Nat.le_succ_of_le hroom
    | some new => exact Nat.le_trans Std.HashMap.size_insert_le (Nat.succ_le_succ hroom)

/-! ## Runs -/

/-- What can be asked of a cache. -/
inductive Call where
  | compile (pattern : String)
  | clear

/-- The cache after a call. -/
def after (c : Cache) : Call → Cache
  | .compile pattern => (c.compile? pattern).2
  | .clear => empty

/-- The cache after calls, from an empty one on. -/
def run (calls : List Call) : Cache := calls.foldl after empty

theorem run_append (calls : List Call) (call : Call) : run (calls ++ [call]) = (run calls).after call := by
  rw [run, List.foldl_append]
  rfl

theorem Sound.after (h : c.Sound) (call : Call) : (c.after call).Sound := by
  cases call with
  | compile pattern => exact (h.compile? pattern).2.1
  | clear => exact empty_sound

theorem run_sound (calls : List Call) : (run calls).Sound := by
  have hrun : ∀ c : Cache, c.Sound → (calls.foldl Cache.after c).Sound := by
    induction calls with
    | nil => exact fun c hc => hc
    | cons call calls ih => exact fun c hc => ih _ (hc.after call)
  exact hrun empty empty_sound

/-- After any calls a cache holds at most as many patterns as it has room for, each with what compiling it gives and none that
cannot be compiled. A lookup then answers what compiling gives, the cache holds that afterwards, if it is anything, and what it held
before only goes where there is no room. -/
theorem run_transparent (calls : List Call) :
    (run calls).size ≤ capacity ∧
    (∀ pattern r, (run calls).entries[pattern]? = some r → Regex.compile? pattern = some r) ∧
    (∀ pattern, Regex.compile? pattern = none → pattern ∉ (run calls).entries) ∧
    ∀ pattern, ((run calls).compile? pattern).1 = Regex.compile? pattern ∧
      (run (calls ++ [.compile pattern])).entries[pattern]? = Regex.compile? pattern ∧
      ((run calls).size < capacity → ∀ (other : String) (r : Regex), (run calls).entries[other]? = some r →
        (run (calls ++ [.compile pattern])).entries[other]? = some r) := by
  have hsound := run_sound calls
  refine ⟨hsound.size, hsound.own, fun pattern hnone hmem => ?_, fun pattern => ?_⟩
  · cases hnone.symm.trans (hsound.own pattern _ (Std.HashMap.getElem?_eq_some_getElem hmem))
  · obtain ⟨hanswer, -, hheld⟩ := hsound.compile? pattern
    rw [run_append]
    exact ⟨hanswer, hheld, fun hroom other r hother => compile?_keeps hroom hother pattern⟩

/-- A pattern that is not valid is refused and not kept, and one that was there before still is. -/
theorem invalid_pattern_passes : ∃ r, Regex.compile? "a+" = some r ∧ (run [.compile "a+"]).size < capacity ∧
    (run [.compile "a+"]).entries["a+"]? = some r ∧ Regex.compile? "(a" = none ∧
    ((run [.compile "a+"]).compile? "(a").1 = none ∧ "(a" ∉ (run [.compile "a+", .compile "(a"]).entries ∧
    (run [.compile "a+", .compile "(a"]).entries["a+"]? = some r := by
  obtain ⟨r, hr⟩ := Option.isSome_iff_exists.1 (show (Regex.compile? "a+").isSome by decide +kernel)
  have hinvalid : Regex.compile? "(a" = none := Option.isNone_iff_eq_none.1 (by decide +kernel)
  have hsize : (run [.compile "a+"]).size < capacity :=
    Nat.lt_of_le_of_lt (size_compile?_le empty "a+") (show 1 < 256 by decide)
  have hheld : (run [.compile "a+"]).entries["a+"]? = some r :=
    (((run_transparent []).2.2.2 "a+").2.1).trans hr
  obtain ⟨hanswer, -, hkeeps⟩ := (run_transparent [.compile "a+"]).2.2.2 "(a"
  exact ⟨r, hr, hsize, hheld, hinvalid, hanswer.trans hinvalid,
    (run_transparent [.compile "a+", .compile "(a"]).2.2.1 "(a" hinvalid, hkeeps hsize "a+" r hheld⟩

end Graft.Regex.Cache
