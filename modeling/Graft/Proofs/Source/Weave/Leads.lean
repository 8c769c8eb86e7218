import Graft.Proofs.Source.Weave.Relation
import Graft.Proofs.Print.Leaves
import Graft.Source.State
/-!
# Where readers lead

`Leads P r Q` says that from a state with `P` the reader `r` comes to states with `Q`, as far as it gives anything. The rules
follow the shapes that readers are written in. What readers keep of the text is said of the point they are at: the text is woven
up to the last token taken (`Past`), or up to the token that comes next (`Before`).
-/

namespace Graft.Source

open Read

variable {α β : Type}

/-! ## States -/

namespace State

/-- The state is what a look at a text gives, but that a word may have been made a name. -/
structure Lexed (s : State) : Prop where
  gap : ∃ markup, s.start = skipGap markup s.previous
  token : nextToken s.start = (s.token, s.rest) ∨ ∃ w, s.token = .name w ∧ nextToken s.start = (.word w, s.rest)

/-- The state after the token. -/
def next (s : State) : State := .ofText (!s.token.endsOperand) s.rest

theorem ofText_lexed (markup : Bool) (cs : List Char) : (ofText markup cs).Lexed := ⟨⟨markup, rfl⟩, .inl rfl⟩

@[simp] theorem ofText_previous (markup : Bool) (cs : List Char) : (ofText markup cs).previous = cs := rfl

@[simp] theorem next_previous (s : State) : s.next.previous = s.rest := rfl

theorem next_lexed (s : State) : s.next.Lexed := ofText_lexed _ _

namespace Lexed
variable {s : State} (h : s.Lexed)
include h

theorem start_suffix : s.start <:+ s.previous := by
  obtain ⟨markup, hs⟩ := h.gap
  exact hs ▸ skipGap_suffix markup s.previous

theorem rest_suffix : s.rest <:+ s.start := by
  have hsuffix := nextToken_suffix s.start
  rcases h.token with ht | ⟨w, -, ht⟩
  · rwa [ht] at hsuffix
  · rwa [ht] at hsuffix

theorem start_of_ended (ht : s.token = .ended) : s.start = [] := by
  rcases h.token with he | ⟨w, hw, -⟩
  · exact eq_nil_of_ended (ht ▸ he)
  · rw [hw] at ht
    cases ht

/-- A word may be made a name. -/
theorem named {w : String} (ht : s.token = .word w) : { s with token := .name w : State }.Lexed := by
  refine ⟨h.gap, .inr ⟨w, rfl, ?_⟩⟩
  rcases h.token with he | ⟨v, hv, -⟩
  · exact ht ▸ he
  · rw [hv] at ht
    cases ht

end Lexed
end State

/-! ## The rules -/

/-- From states with `P` the reader comes to states with `Q`. -/
def Leads (P : State → Prop) (r : Read α) (Q : α → State → Prop) : Prop :=
  ∀ s a s', P s → r.run s = some (a, s') → Q a s'

namespace Leads
variable {P S : State → Prop} {Q Q' : α → State → Prop} {R : β → State → Prop} {r r' : Read α} {f : α → Read β}

theorem pure {a : α} (h : ∀ s, P s → Q a s) : Leads P (Pure.pure a) Q := by
  rintro s b s' hs ⟨⟩
  exact h s hs

theorem failure : Leads P (Alternative.failure : Read α) Q := by
  rintro s a s' - ⟨⟩

theorem bind (hr : Leads P r Q) (hf : ∀ a, Leads (Q a) (f a) R) : Leads P (r >>= f) R := by
  intro s b s'' hs h
  obtain ⟨⟨a, s'⟩, ha, hb⟩ := Option.bind_eq_some_iff.1 h
  exact hf a s' b s'' (hr s a s' hs ha) hb

theorem orElse (hr : Leads P r Q) (hr' : Leads P r' Q) : Leads P (r <|> r') Q := by
  intro s a s' hs h
  change (r.run s).orElse (fun _ => r'.run s) = some (a, s') at h
  cases he : r.run s with
  | none =>
    rw [he] at h
    exact hr' s a s' hs h
  | some first =>
    rw [he] at h
    exact hr s a s' hs (he.trans h)

theorem ite {c : Prop} [Decidable c] (hr : c → Leads P r Q) (hr' : ¬c → Leads P r' Q) : Leads P (if c then r else r') Q := by
  split
  next h => exact hr h
  next h => exact hr' h

theorem mono (hr : Leads P r Q) (h : ∀ a s, Q a s → Q' a s) : Leads P r Q' :=
  fun s a s' hs he => h a s' (hr s a s' hs he)

theorem of (h : ∀ s, S s → P s) (hr : Leads P r Q) : Leads S r Q := fun s a s' hs he => hr s a s' (h s hs) he

/-- What holds because of where the reader begins. -/
theorem given {c : Prop} (hc : ∀ s, P s → c) (h : c → Leads P r Q) : Leads P r Q := fun s a s' hs => h (hc s hs) s a s' hs

theorem map {g : α → β} (hr : Leads P r fun a => R (g a)) : Leads P (g <$> r) R := by
  intro s b s' hs h
  obtain ⟨⟨a, s''⟩, ha, hb⟩ := Option.bind_eq_some_iff.1 h
  cases hb
  exact hr s a s' hs ha

/-- All ways to read the text at once. -/
theorem all {ι : Sort _} {P : ι → State → Prop} {Q : ι → α → State → Prop} (h : ∀ i, Leads (P i) r (Q i)) :
    Leads (fun s => ∀ i, P i s) r fun a s => ∀ i, Q i a s := fun s a s' hs he i => h i s a s' (hs i) he

theorem and (hr : Leads P r Q) (hr' : Leads S r Q') : Leads (fun s => P s ∧ S s) r fun a s => Q a s ∧ Q' a s :=
  fun s a s' hs he => ⟨hr s a s' hs.1 he, hr' s a s' hs.2 he⟩

theorem require {o : Option α} (h : ∀ a, o = some a → ∀ s, P s → Q a s) : Leads P (require o) Q := by
  cases o with
  | none => exact failure
  | some a => exact pure (h a rfl)

theorem requireBind {o : Option α} (hf : ∀ a, o = some a → Leads P (f a) R) : Leads P (Read.require o >>= f) R :=
  bind (Q := fun a s => o = some a ∧ P s) (require fun _ h _ hs => ⟨h, hs⟩) fun a s b s' hs he => hf a hs.1 s b s' hs.2 he

theorem guardBind {b : Bool} {f : Unit → Read β} (hf : b = true → Leads P (f ()) R) : Leads P (guardThat b >>= f) R := by
  cases b with
  | false =>
    intro s c s' _ h
    cases h
  | true => exact hf rfl

theorem guarded {b : Bool} {Q : Unit → State → Prop} (h : b = true → ∀ s, P s → Q () s) : Leads P (guardThat b) Q :=
  ite (fun hb => pure (h hb)) fun _ => failure

theorem get {f : State → Read β} (hf : ∀ s, P s → Leads (fun s' => s' = s) (f s) R) : Leads P (MonadState.get >>= f) R :=
  fun s b s' hs h => hf s hs s b s' rfl h

/-- Goes on to a state where something is known by what is known here. -/
theorem goTo {s : State} {f : PUnit → Read β} (hs : ∀ s', P s' → S s) (hf : Leads S (f ()) R) :
    Leads P (MonadStateOf.set s >>= f) R := fun s' b s'' hs' h => hf s b s'' (hs s' hs') h

/-- Goes back to a state where something is known. -/
theorem set {s : State} {f : PUnit → Read β} (hs : S s) (hf : Leads S (f ()) R) : Leads P (MonadStateOf.set s >>= f) R :=
  goTo (fun _ _ => hs) hf

theorem resume {rest : List Char} {f : Unit → Read β} (h : S (.ofText false rest)) (hf : Leads S (f ()) R) :
    Leads P (resume rest >>= f) R := set (f := f) h hf

theorem peek {f : Token → Read β} (hf : ∀ t, Leads (fun s => P s ∧ s.token = t) (f t) R) : Leads P (peek >>= f) R :=
  fun s b s' hs h => hf s.token s b s' ⟨hs, rfl⟩ h

theorem textAhead {f : List Char → Read β} (hf : ∀ s, P s → Leads (fun s' => s' = s) (f s.start) R) :
    Leads P (textAhead >>= f) R := fun s b s' hs h => hf s hs s b s' rfl h

theorem advance {f : Unit → Read β} (h : ∀ s, P s → S s.next) (hf : Leads S (f ()) R) : Leads P (Read.advance >>= f) R :=
  fun s b s' hs he => hf s.next b s' (h s hs) he

theorem advanced {Q : Unit → State → Prop} (h : ∀ s, P s → Q () s.next) : Leads P Read.advance Q := by
  rintro s a s' hs ⟨⟩
  exact h s hs

theorem isWord {w : String} {f : Bool → Read β}
    (hf : ∀ b, Leads (fun s => P s ∧ (b = true → s.token = .word w)) (f b) R) : Leads P (isWord w >>= f) R :=
  fun s b s' hs h => hf (s.token = .word w) s b s' ⟨hs, fun hb => of_decide_eq_true hb⟩ h

theorem isPunct {p : String} {f : Bool → Read β}
    (hf : ∀ b, Leads (fun s => P s ∧ (b = true → s.token = .punct p)) (f b) R) : Leads P (isPunct p >>= f) R :=
  fun s b s' hs h => hf (s.token = .punct p) s b s' ⟨hs, fun hb => of_decide_eq_true hb⟩ h

theorem second {f : State → Read β} (hf : ∀ next, Leads (fun s => P s ∧ s.next = next) (f next) R) :
    Leads P (Read.second >>= f) R := fun s b s' hs h => hf s.next s b s' ⟨hs, rfl⟩ h

/-- A loop, by what holds of the values that it has given so far, and what holds where it ends. -/
theorem collectUntil {I J : List α → State → Prop} {body : Read (Option α)} (h : ∀ s, P s → I [] s)
    (hb : ∀ as, Leads (I as) body fun o s => match o with
      | none => J as s
      | some a => I (as ++ [a]) s) (n : Nat) : Leads P (Read.collect body n []) J := by
  have from_ (acc : List α) : Leads (I acc.reverse) (Read.collect body n acc) J := by
    induction n generalizing acc with
    | zero => exact failure
    | succ n ih =>
      refine bind (hb acc.reverse) fun o => ?_
      cases o with
      | none => exact pure fun s h => h
      | some a => exact of (fun s h => by simpa using h) (ih (a :: acc))
  exact of h (from_ [])

theorem collect {I : List α → State → Prop} {body : Read (Option α)} (h : ∀ s, P s → I [] s)
    (hb : ∀ as, Leads (I as) body fun o s => I (as ++ o.toList) s) (n : Nat) : Leads P (Read.collect body n []) I := by
  refine collectUntil (I := I) h (fun as => mono (hb as) ?_) n
  rintro (_ | a) s hs
  · simpa using hs
  · exact hs

end Leads

/-! ## Points -/

section Points
variable {drops : List Char → List Char → Prop} {cs : List Char} {kept : List String} {s : State} {w : String}

/-- The text is woven up to the last token that was taken. -/
structure Past (drops : List Char → List Char → Prop) (cs : List Char) (kept : List String) (s : State) : Prop where
  lexed : s.Lexed
  woven : Woven drops cs kept s.previous

/-- The text is woven up to the token that comes next. -/
structure Before (drops : List Char → List Char → Prop) (cs : List Char) (kept : List String) (s : State) : Prop where
  lexed : s.Lexed
  woven : Woven drops cs kept s.start

/-- The last token that was taken ends in a text. -/
structure Onward (cs : List Char) (s : State) : Prop where
  lexed : s.Lexed
  suffix : s.previous <:+ cs

/-- The token that comes next begins in a text. -/
structure Facing (cs : List Char) (s : State) : Prop where
  lexed : s.Lexed
  suffix : s.start <:+ cs

theorem Past.before (h : Past drops cs kept s) : Before drops cs kept s := by
  obtain ⟨markup, hs⟩ := h.lexed.gap
  exact ⟨h.lexed, hs ▸ h.woven.passed (.gap markup s.previous)⟩

theorem Past.onward (h : Past drops cs kept s) : Onward cs s := ⟨h.lexed, h.woven.suffix⟩

theorem Before.facing (h : Before drops cs kept s) : Facing cs s := ⟨h.lexed, h.woven.suffix⟩

theorem Onward.facing (h : Onward cs s) : Facing cs s := ⟨h.lexed, h.lexed.start_suffix.trans h.suffix⟩

/-- What is taken of a text is one leaf of it. -/
theorem Onward.past (h : Onward cs s) : Past drops cs [slice cs s.previous] s := ⟨h.lexed, Woven.start.slice h.suffix⟩

theorem Facing.before (h : Facing cs s) : Before drops cs [slice cs s.start] s := ⟨h.lexed, Woven.start.slice h.suffix⟩

theorem Facing.next (h : Facing cs s) : Onward cs s.next := ⟨s.next_lexed, h.lexed.rest_suffix.trans h.suffix⟩

theorem Before.slice (h : Before drops cs kept s) {start : List Char} (hs : s.start = start) {s' : State}
    (h' : Onward start s') :
    Past drops cs (kept ++ [Source.slice start s'.previous]) s' := ⟨h'.lexed, (hs ▸ h.woven).slice h'.suffix⟩

namespace Before
variable (h : Before drops cs kept s)
include h

theorem keep {text : String} (hn : s.token ≠ .unknown) (hc : s.token.chars = text.toList) :
    Past drops cs (kept ++ [text]) s.next := by
  refine ⟨s.next_lexed, .leaf ?_⟩
  have htext : text.toList ++ s.rest = s.start := by
    rcases h.lexed.token with ht | ⟨w, hw, ht⟩
    · exact hc ▸ nextToken_chars ht hn
    · rw [← hc, hw]
      exact nextToken_chars (t := .word w) ht (by simp)
  exact htext ▸ h.woven

theorem word (ht : s.token = .word w) : Past drops cs (kept ++ [w]) s.next := h.keep (by simp [ht]) (by simp [ht, Token.chars])

theorem name (ht : s.token = .name w) : Past drops cs (kept ++ [w]) s.next := h.keep (by simp [ht]) (by simp [ht, Token.chars])

theorem privateName (ht : s.token = .privateName w) : Past drops cs (kept ++ ["#" ++ w]) s.next :=
  h.keep (by simp [ht]) (by simp [ht, Token.chars])

theorem number (ht : s.token = .number w) : Past drops cs (kept ++ [w]) s.next :=
  h.keep (by simp [ht]) (by simp [ht, Token.chars])

theorem string (ht : s.token = .string w) : Past drops cs (kept ++ [w]) s.next :=
  h.keep (by simp [ht]) (by simp [ht, Token.chars])

theorem punct (ht : s.token = .punct w) : Past drops cs kept s.next := by
  rcases h.lexed.token with he | ⟨w, hw, -⟩
  · exact ⟨s.next_lexed, h.woven.passed (.punctuator (ht ▸ he))⟩
  · rw [ht] at hw
    cases hw

theorem keyword (ht : s.token = .word w) (hk : isKeyword w = true) : Past drops cs kept s.next := by
  rcases h.lexed.token with he | ⟨w, hw, -⟩
  · exact ⟨s.next_lexed, h.woven.passed (.keyword (ht ▸ he) hk)⟩
  · rw [ht] at hw
    cases hw

end Before
end Points

/-! ## Readers that only look, and readers that only pass -/

/-- A reader that leaves the state as it is. -/
class Looks (r : Read α) : Prop where
  same : ∀ {s a s'}, r.run s = some (a, s') → s' = s

/-- A reader that keeps nothing of what it takes. -/
class Passes (r : Read α) : Prop where
  on : ∀ {s a s'}, s.Lexed → r.run s = some (a, s') →
    s'.Lexed ∧ ∀ {drops cs kept}, Woven drops cs kept s.previous → Woven drops cs kept s'.previous

/-- What holds behind a piece of text that is passed if it holds before it. -/
class Stable (P : State → Prop) : Prop where
  lexed : ∀ {s}, P s → s.Lexed
  on : ∀ {s s'}, P s → s'.Lexed → (∀ {drops cs kept}, Woven drops cs kept s.previous → Woven drops cs kept s'.previous) → P s'

namespace Leads
variable {P : State → Prop} {R : β → State → Prop} {r : Read α} {f : α → Read β}

theorem looked [hl : Looks r] : Leads P r fun _ => P := fun _ _ _ hs h => hl.same h ▸ hs

theorem look [Looks r] (hf : ∀ a, Leads P (f a) R) : Leads P (r >>= f) R := bind looked hf

theorem passed [hP : Stable P] [hr : Passes r] : Leads P r fun _ => P := fun _ _ _ hs h =>
  have hon := hr.on (hP.lexed hs) h
  hP.on hs hon.1 hon.2

theorem pass [Stable P] [Passes r] (hf : ∀ a, Leads P (f a) R) : Leads P (r >>= f) R := bind passed hf

end Leads

section Looks
variable {r r' : Read α} {f : α → Read β}

instance {a : α} : Looks (pure a : Read α) := ⟨by rintro s a s' ⟨⟩; rfl⟩

instance : Looks (failure : Read α) := ⟨by rintro s a s' ⟨⟩⟩

instance : Looks (get : Read State) := ⟨by rintro s a s' ⟨⟩; rfl⟩

instance [hr : Looks r] [hf : ∀ a, Looks (f a)] : Looks (r >>= f) where
  same := by
    intro s b s'' h
    obtain ⟨⟨a, s'⟩, ha, hb⟩ := Option.bind_eq_some_iff.1 h
    exact ((hf a).same hb).trans (hr.same ha)

instance {c : Prop} [Decidable c] [hr : Looks r] [hr' : Looks r'] : Looks (if c then r else r') := by
  split
  · exact hr
  · exact hr'

instance : Looks peek := inferInstanceAs (Looks (get >>= fun s => pure s.token))
instance : Looks textAhead := inferInstanceAs (Looks (get >>= fun s => pure s.start))
instance (start : List Char) : Looks (sourceFrom start) :=
  inferInstanceAs (Looks (get >>= fun s => pure (slice start s.previous)))
instance (p : String) : Looks (isPunct p) := inferInstanceAs (Looks (get >>= fun _ => pure _))
instance (w : String) : Looks (isWord w) := inferInstanceAs (Looks (get >>= fun _ => pure _))
instance : Looks isSign := inferInstanceAs (Looks (isPunct "+" >>= fun a => isPunct "-" >>= fun b => pure (a || b)))
instance : Looks noComment := inferInstanceAs (Looks (get >>= fun _ => pure _))
instance : Looks second := inferInstanceAs (Looks (get >>= fun s => pure (State.ofText _ s.rest)))
instance (bare : Bool) : Looks (mayEndHere bare) := inferInstanceAs (Looks (get >>= fun s => pure (mayEnd bare s.previous)))
instance (o : Option α) : Looks (require o) := by
  cases o with
  | none => exact inferInstanceAs (Looks (failure : Read α))
  | some a => exact inferInstanceAs (Looks (pure a : Read α))
instance (b : Bool) : Looks (guardThat b) := inferInstanceAs (Looks (if b then pure () else failure))
instance (mode : Mode) : Looks mode.stops := inferInstanceAs (Looks (if mode.ends then mayEndHere false else pure false))

end Looks

section Passes
variable {r r' : Read α} {f : α → Read β} {drops : List Char → List Char → Prop} {cs : List Char} {kept : List String}
  {P : State → Prop} {R : β → State → Prop}

theorem Passes.of (h : ∀ drops cs kept, Leads (Past drops cs kept) r fun _ => Past drops cs kept) : Passes r where
  on := by
    intro s a s' hs he
    have hpast : Past (fun _ _ => False) s.previous [] s' := h _ _ _ s a s' ⟨hs, .start⟩ he
    exact ⟨hpast.lexed, fun hw => (h _ _ _ s a s' ⟨hs, hw⟩ he).woven⟩

instance [hr : Looks r] : Passes r where
  on := by
    intro s a s' hs h
    cases hr.same h
    exact ⟨hs, id⟩

instance [hr : Passes r] [hf : ∀ a, Passes (f a)] : Passes (r >>= f) where
  on := by
    intro s b s'' hs h
    obtain ⟨⟨a, s'⟩, ha, hb⟩ := Option.bind_eq_some_iff.1 h
    obtain ⟨hs', hon⟩ := hr.on hs ha
    obtain ⟨hs'', hon'⟩ := (hf a).on hs' hb
    exact ⟨hs'', fun hw => hon' (hon hw)⟩

instance {c : Prop} [Decidable c] [hr : Passes r] [hr' : Passes r'] : Passes (if c then r else r') := by
  split
  · exact hr
  · exact hr'

namespace Leads

/-- The next reader begins at the token that comes next. -/
theorem here {Q : α → State → Prop} (h : Leads (Before drops cs kept) r Q) : Leads (Past drops cs kept) r Q :=
  .of (fun _ h => h.before) h

theorem next {Q : α → State → Prop} (h : Leads (Before drops cs kept) r Q) (hf : ∀ a, Leads (Q a) (f a) R) :
    Leads (Past drops cs kept) (r >>= f) R := .bind (here h) hf

/-! ### Tokens that are passed -/

theorem punct {p : String} : Leads (Before drops cs kept) (Read.punct p) fun _ => Past drops cs kept :=
  .isPunct fun _ => .ite (fun hb => .advanced fun _ h => h.1.punct (h.2 hb)) fun _ => .failure

theorem word {w : String} (hk : isKeyword w = true) :
    Leads (Before drops cs kept) (Read.word w) fun _ => Past drops cs kept :=
  .isWord fun _ => .ite (fun hb => .advanced fun _ h => h.1.keyword (h.2 hb) hk) fun _ => .failure

theorem ifPunct {p : String} {Q : β → State → Prop} {r r' : Read β} (hP : ∀ s, P s → Before drops cs kept s)
    (hyes : Leads (Past drops cs kept) r Q) (hno : Leads P r' Q) :
    Leads P (Read.punct? p >>= fun b => if b = true then r else r') Q := by
  have taken : Leads P (Read.punct? p) fun b => if b = true then Past drops cs kept else P :=
    .isPunct fun _ => .ite (fun hb => .advance (fun s h => (hP s h.1).punct (h.2 hb)) (.pure fun _ h => h))
      fun _ => .pure fun _ h => h.1
  refine .bind taken fun b => ?_
  cases b with
  | false => exact hno
  | true => exact hyes

theorem ifWord {w : String} {Q : β → State → Prop} {r r' : Read β} (hk : isKeyword w = true)
    (hP : ∀ s, P s → Before drops cs kept s) (hyes : Leads (Past drops cs kept) r Q) (hno : Leads P r' Q) :
    Leads P (Read.word? w >>= fun b => if b = true then r else r') Q := by
  have taken : Leads P (Read.word? w) fun b => if b = true then Past drops cs kept else P :=
    .isWord fun _ => .ite (fun hb => .advance (fun s h => (hP s h.1).keyword (h.2 hb) hk) (.pure fun _ h => h))
      fun _ => .pure fun _ h => h.1
  refine .bind taken fun b => ?_
  cases b with
  | false => exact hno
  | true => exact hyes

theorem mayWord {w : String} (hk : isKeyword w = true) :
    Leads (Past drops cs kept) (Read.word? w) fun _ => Past drops cs kept :=
  .isWord fun _ => .ite (fun hb => .advance (fun _ h => h.1.before.keyword (h.2 hb) hk) (.pure fun _ h => h))
    fun _ => .pure fun _ h => h.1

/-- With or without the token, the text is woven up to what comes next. -/
theorem mayPunct {p : String} : Leads (Before drops cs kept) (Read.punct? p) fun _ => Before drops cs kept :=
  .isPunct fun _ => .ite (fun hb => .advance (fun _ h => (h.1.punct (h.2 hb)).before) (.pure fun _ h => h))
    fun _ => .pure fun _ h => h.1

/-! ### Text that is kept as it is -/

/-- A word that names something where it stands. -/
theorem nameWord {w : String} : Leads (Before drops cs kept) (Read.word w) fun _ => Past drops cs (kept ++ [w]) :=
  .isWord fun _ => .ite (fun hb => .advanced fun _ h => h.1.word (h.2 hb)) fun _ => .failure

/-- A reader that keeps leaves goes on in the text. -/
theorem onward (drops : List Char → List Char → Prop) {g : List String → α → List String}
    (h : ∀ kept, Leads (Before drops cs kept) r fun a => Past drops cs (g kept a)) :
    Leads (Facing cs) r fun _ => Onward cs := fun s a s' hs he => (h _ s a s' hs.before he).onward

theorem onwardWord {w : String} : Leads (Facing cs) (Read.word w) fun _ => Onward cs :=
  .isWord fun _ => .ite (fun _ => .advanced fun _ h => h.1.next) fun _ => .failure

theorem mayOnwardWord {w : String} : Leads (Onward cs) (Read.word? w) fun _ => Onward cs :=
  .isWord fun _ => .ite (fun _ => .advance (fun _ h => h.1.facing.next) (.pure fun _ h => h)) fun _ => .pure fun _ h => h.1

theorem mayFacingWord {w : String} : Leads (Facing cs) (Read.word? w) fun _ => Facing cs :=
  .isWord fun _ => .ite (fun _ => .advance (fun _ h => h.1.next.facing) (.pure fun _ h => h)) fun _ => .pure fun _ h => h.1

theorem onwardPunct {p : String} : Leads (Facing cs) (Read.punct p) fun _ => Onward cs :=
  .isPunct fun _ => .ite (fun _ => .advanced fun _ h => h.1.next) fun _ => .failure

theorem ifPunctOnward {p : String} {Q : β → State → Prop} {r r' : Read β} (hyes : Leads (Onward cs) r Q)
    (hno : Leads (Facing cs) r' Q) : Leads (Facing cs) (Read.punct? p >>= fun b => if b = true then r else r') Q := by
  have taken : Leads (Facing cs) (Read.punct? p) fun b => if b = true then Onward cs else Facing cs :=
    .isPunct fun _ => .ite (fun _ => .advance (fun _ h => h.1.next) (.pure fun _ h => h)) fun _ => .pure fun _ h => h.1
  refine .bind taken fun b => ?_
  cases b with
  | false => exact hno
  | true => exact hyes

theorem sourceFrom {s : State} (h : Before drops cs kept s) :
    Leads (Onward s.start) (Read.sourceFrom s.start) fun text => Past drops cs (kept ++ [text]) := by
  rintro s₁ _ _ hs ⟨⟩
  exact h.slice rfl hs

/-- All that was taken of a text is one leaf of it. -/
theorem sourceTaken : Leads (Onward cs) (Read.sourceFrom cs) fun text => Past drops cs [text] := by
  rintro s _ _ hs ⟨⟩
  exact hs.past

end Leads

instance (p : String) : Passes (punct p) := .of fun _ _ _ => .of (fun _ h => h.before) .punct

instance (p : String) : Passes (punct? p) := .of fun _ _ _ =>
  .isPunct fun _ => .ite (fun hb => .advance (fun _ h => h.1.before.punct (h.2 hb)) (.pure fun _ h => h))
    fun _ => .pure fun _ h => h.1

instance : Passes markupAhead where
  on := by
    rintro s a s' - ⟨⟩
    exact ⟨State.ofText_lexed true s.previous, id⟩

instance (bare : Bool) : Passes (insertedSemicolon bare) := .of fun _ _ _ => .get fun s hs => by
  split
  next rest hi => exact .set ⟨State.ofText_lexed true rest, hs.woven.insertion hi⟩ (.pure fun _ h => h)
  next => exact .pure fun _ h => h ▸ hs

instance (bare : Bool) : Passes (semicolon bare) :=
  inferInstanceAs (Passes (insertedSemicolon bare >>= fun b => if (!b) = true then punct ";" else pure ()))

end Passes

section Stable
variable {drops : List Char → List Char → Prop} {cs : List Char} {kept : List String} {P P' : State → Prop}

instance : Stable (Past drops cs kept) where
  lexed := Past.lexed
  on h hs' hon := ⟨hs', hon h.woven⟩

instance : Stable (Onward cs) where
  lexed := Onward.lexed
  on {s s'} h hs' hon := by
    have hw : Woven (fun _ _ => False) s.previous [] s'.previous := hon .start
    exact ⟨hs', hw.suffix.trans h.suffix⟩

instance [hP : Stable P] [hP' : Stable P'] : Stable fun s => P s ∧ P' s where
  lexed h := hP.lexed h.1
  on h hs' hon := ⟨hP.on h.1 hs' hon, hP'.on h.2 hs' hon⟩

end Stable

/-! ## Several ways to read the same text -/

section Ways
variable {drops : List Char → List Char → Prop} {cs : List Char} {kept : List String} {K : List String → Prop} {s : State}

/-- The text is woven up to the last token from each of several lists of leaves. -/
structure PastAny (drops : List Char → List Char → Prop) (cs : List Char) (K : List String → Prop) (s : State) : Prop where
  lexed : s.Lexed
  woven : ∀ ks, K ks → Woven drops cs ks s.previous

instance : Stable (PastAny drops cs K) where
  lexed := PastAny.lexed
  on h hs' hon := ⟨hs', fun ks hks => hon (h.woven ks hks)⟩

theorem PastAny.past (h : PastAny drops cs K s) (hk : K kept) : Past drops cs kept s := ⟨h.lexed, h.woven kept hk⟩

theorem PastAny.mono {K' : List String → Prop} (h : PastAny drops cs K s) (hk : ∀ ks, K' ks → K ks) : PastAny drops cs K' s :=
  ⟨h.lexed, fun ks hks => h.woven ks (hk ks hks)⟩

theorem PastAny.punct {p : String} (h : PastAny drops cs K s) (ht : s.token = .punct p) : PastAny drops cs K s.next :=
  ⟨s.next_lexed, fun _ hk => ((h.past hk).before.punct ht).woven⟩

/-- What is kept of a piece is kept behind whatever was kept before it. -/
theorem Leads.any {r : Read α} {E : α → List String → Prop}
    (h : ∀ cs kept, Leads (Before drops cs kept) r fun a => PastAny drops cs fun ks => ∃ ls, E a ls ∧ ks = kept ++ ls) :
    Leads (PastAny drops cs K) r fun a => PastAny drops cs fun ks => ∃ ks' ls, K ks' ∧ E a ls ∧ ks = ks' ++ ls := by
  intro s a s' hs he
  have hnone : Past drops s.previous [] s := ⟨hs.lexed, .start⟩
  refine ⟨(h _ _ s a s' hnone.before he).lexed, ?_⟩
  rintro _ ⟨ks, ls, hk, hls, rfl⟩
  exact (h cs ks s a s' (hs.past hk).before he).woven _ ⟨ls, hls, rfl⟩

theorem Leads.anyTree {r : Read Tree}
    (h : ∀ cs kept, Leads (Before drops cs kept) r fun t => Past drops cs (kept ++ t.leaves)) :
    Leads (PastAny drops cs K) r fun t => PastAny drops cs fun ks => ∃ ks', K ks' ∧ ks = ks' ++ t.leaves := by
  refine .mono (.any (E := fun t ls => ls = t.leaves) fun cs kept => .mono (h cs kept) ?_) ?_
  · rintro t s hs
    refine ⟨hs.lexed, ?_⟩
    rintro _ ⟨_, rfl, rfl⟩
    exact hs.woven
  · rintro t s hs
    refine hs.mono ?_
    rintro _ ⟨ks, hk, rfl⟩
    exact ⟨ks, _, hk, rfl, rfl⟩

end Ways

/-! ## Parts that may be missing -/

section Optional
variable {drops : List Char → List Char → Prop} {cs : List Char} {kept : List String} {r : Read Tree}

theorem Leads.some (h : Leads (Before drops cs kept) r fun t => Past drops cs (kept ++ t.leaves)) :
    Leads (Past drops cs kept) (Option.some <$> r) fun o => Past drops cs (kept ++ o.toList.flatMap Tree.leaves) :=
  .map (.of (fun _ h => h.before) (.mono h (by simp)))

theorem Leads.none :
    Leads (Past drops cs kept) (Pure.pure Option.none : Read (Option Tree))
      fun o => Past drops cs (kept ++ o.toList.flatMap Tree.leaves) :=
  .pure (by simp)

end Optional

end Graft.Source
