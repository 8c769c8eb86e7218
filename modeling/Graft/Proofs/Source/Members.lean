import Graft.Proofs.Source.Parts
/-!
# Members fit their slots

An object is read as a literal and as a pattern at once, and each of its members fits both as far as it can be read so
(`FitsMember`). Keys fit the slot that their brackets give them.
-/

namespace Graft.Source

open Read Graft.Tree

/-! ## Keys -/

/-- A key in brackets is an expression, another one a name or a literal. -/
def FitsKey (key : Key) : Prop := Tree.Fills (.ofKey key.isComputed) key.tree

/-- A member of an object fits as a literal's and as a pattern's. -/
def FitsMember (m : Member) : Prop := (∀ t ∈ m.1, Tree.Fills .member t) ∧ ∀ t ∈ m.2, Tree.Fills .patternMember t

theorem fits_stringTree (raw : String) {σ : Slot} (h : σ = .expression ∨ σ = .key) : Tree.Fills σ (stringTree raw) := by
  rcases h with rfl | rfl <;> exact .node rfl rfl nofun

theorem fits_numberTree (raw : String) {σ : Slot} (h : σ = .expression ∨ σ = .key) : Tree.Fills σ (numberTree raw) := by
  rw [numberTree]
  split <;> rcases h with rfl | rfl <;> exact .node rfl rfl nofun

theorem fits_plainProperty {σ : Slot} {key : Key} {value : Tree} (hσ : σ = .member ∨ σ = .patternMember) (hkey : FitsKey key)
    (hvalue : Tree.Fills (σ.value .init false) value) : Tree.Fills σ (plainProperty key value) := by
  refine .node (by rcases hσ with rfl | rfl <;> rfl) rfl ?_
  simpa [Node.places, FitsKey, hvalue] using hkey

theorem fits_shorthandProperty {σ : Slot} {name : String} {value : Tree} (hσ : σ = .member ∨ σ = .patternMember)
    (hvalue : Tree.Fills (σ.value .init false) value) : Tree.Fills σ (shorthandProperty name value) := by
  refine .node (by rcases hσ with rfl | rfl <;> rfl) rfl ?_
  simpa [Node.places, hvalue] using fits_identifier name rfl

section Members
variable {read : Readers} {fuel : Nat} {mode : Mode} (hread : FitReaders read)
include hread

theorem propertyName_fits : Gives (propertyName read mode) FitsKey := by
  refine .after fun token => ?_
  split
  next w => exact .after fun _ => .pure (fits_identifier w rfl)
  next raw => exact .after fun _ => .pure (fits_stringTree raw (.inr rfl))
  next raw => exact .after fun _ => .pure (fits_numberTree raw (.inr rfl))
  next name => exact .after fun _ => .pure (.node rfl rfl nofun)
  next => exact .after fun _ => .bind (expressionTree_fits hread) fun _ ht => .after fun _ => .pure ht
  next => exact .failure

theorem methodRest_fits {m : Modifiers} : Gives (methodRest read fuel m) (Tree.Fills .method) :=
  .bind (parameters_fits hread) fun _ hps => .after fun _ => .bind (block_fits hread) fun _ hb =>
    .pure (.node rfl rfl (by grind [Node.places, Node.funcPlaces]))

/-! ## Objects -/

theorem methodMember_fits {m : Modifiers} {key : Key} (hkey : FitsKey key) : Gives (methodMember read fuel m key) FitsMember := by
  refine .bind (methodRest_fits hread) fun value hvalue => .pure ⟨?_, nofun⟩
  rintro _ ⟨⟩
  have hslot : Tree.Fills (Slot.value .member (m.accessor.getD .init) m.accessor.isNone) value := by
    rw [Slot.value]
    split
    next h => cases h
    next =>
      split
      next => exact hvalue.ofMethod
      next => exact hvalue
  refine .node rfl rfl ?_
  simpa [Node.places, FitsKey, hslot] using hkey

omit hread in
theorem patternMember_fits : Gives (patternMember read) FitsMember := by
  refine .after fun _ => .after fun r => ?_
  split
  next =>
    refine .after fun text => .pure ⟨nofun, ?_⟩
    rintro _ ⟨⟩
    exact fits_verbatim text rfl
  next => exact .failure

theorem memberRest_fits {plain : Bool} {m : Modifiers} {key : Key} (hkey : FitsKey key) :
    Gives (memberRest read fuel mode plain m key) FitsMember := by
  refine .after fun _ => .after fun token => ?_
  split
  next => exact methodMember_fits hread hkey
  next =>
    refine .after fun _ => .after fun _ => .bind (item_fits hread) fun i hi => .pure ⟨?_, ?_⟩
    · intro t ht
      obtain ⟨v, hv, rfl⟩ := Option.map_eq_some_iff.1 ht
      exact fits_plainProperty (.inl rfl) hkey (fits_value hi v hv)
    · intro t ht
      obtain ⟨v, hv, rfl⟩ := Option.map_eq_some_iff.1 ht
      exact fits_plainProperty (.inr rfl) hkey (fits_element hi v hv)
  next name =>
    refine .after fun _ => .after fun _ => .bind (expressionTree_fits hread) fun value hvalue => .pure ⟨nofun, ?_⟩
    rintro _ ⟨⟩
    have hname := fits_identifier name (σ := .pattern) rfl
    exact fits_shorthandProperty (.inr rfl) (.node rfl rfl (by grind [Node.places]))
  next name _ _ _ =>
    refine .after fun _ => .pure ⟨?_, ?_⟩
    · rintro _ ⟨⟩
      exact fits_shorthandProperty (.inl rfl) (fits_identifier name rfl)
    · rintro _ ⟨⟩
      exact fits_shorthandProperty (.inr rfl) (fits_identifier name rfl)
  next => exact .failure

theorem keyedMember_fits : Gives (keyedMember read fuel mode) FitsMember :=
  .after fun _ => .after fun _ => .bind (propertyName_fits hread) fun _ hkey => memberRest_fits hread hkey

theorem bracketMember_fits : Gives (bracketMember read fuel mode) FitsMember := by
  refine .after fun _ => .after fun _ => .bind (itemsUntil_fits hread fuel false nofun) fun p hp => ?_
  refine .after fun _ => .ite (.after fun _ => .after fun _ => .after fun text => .pure ⟨nofun, ?_⟩) ?_
  · rintro _ ⟨⟩
    exact fits_verbatim text rfl
  · split
    next i hi _ =>
      have hi : i.reading.Fits := hp i (by simp [hi])
      exact .bind (.require (fits_value hi)) fun _ hk => memberRest_fits hread hk
    next => exact .failure

theorem objectMember_fits : Gives (objectMember read fuel mode) FitsMember := by
  refine .after fun token => ?_
  split
  next =>
    refine .after fun _ => .bind (hread.expression mode) fun r hr => .pure ⟨?_, ?_⟩
    · intro t ht
      obtain ⟨e, he, rfl⟩ := Option.map_eq_some_iff.1 ht
      exact .node rfl rfl (by simpa [Node.places] using hr.closed e he)
    · intro t ht
      obtain ⟨p, hp, rfl⟩ := Option.map_eq_some_iff.1 ht
      exact .node rfl rfl (by simpa [Node.places] using hr.pattern p hp)
  next => exact patternMember_fits
  next => exact bracketMember_fits hread
  next => exact keyedMember_fits hread

theorem objectMembers_fits {first later : Mode} (n place : Nat) {acc : List Member} (hacc : ∀ m ∈ acc, FitsMember m) :
    Gives (objectMembers read fuel first later n place acc) fun ms => ∀ m ∈ ms, FitsMember m := by
  induction n generalizing place acc with
  | zero => exact .failure
  | succ n ih =>
    refine .after fun _ => .ite (.pure (by simpa using hacc)) (.after fun _ => .ite (ih _ hacc) ?_)
    refine .bind (objectMember_fits hread) fun m hm => ?_
    have hnext : ∀ m' ∈ m :: acc, FitsMember m' := by simpa [hm] using hacc
    exact .after fun _ => .ite (ih _ hnext) (.after fun _ => .pure fun m' h => hnext m' (List.mem_reverse.1 h))

theorem object_fits {first later : Mode} : Gives (object read fuel first later) Reading.Fits := by
  refine .after fun _ => .bind (objectMembers_fits hread fuel 0 nofun) fun ms hms => .pure (.ofBraces ?_ ?_)
  · intro t ht
    obtain ⟨ps, hps, rfl⟩ := Option.map_eq_some_iff.1 ht
    have h : ∀ p ∈ ps, Tree.Fills .member p := fun p hp => by
      obtain ⟨m, hm, he⟩ := mapM_mem hps hp
      exact (hms m hm).1 p he
    exact .node rfl rfl (by grind [Node.places])
  · intro t ht
    obtain ⟨ps, hps, rfl⟩ := Option.map_eq_some_iff.1 ht
    have h : ∀ p ∈ ps, Tree.Fills .patternMember p := fun p hp => by
      obtain ⟨m, hm, he⟩ := mapM_mem hps hp
      exact (hms m hm).2 p he
    exact .node rfl rfl (by grind [Node.places])

theorem array_fits {first later : Mode} : Gives (array read fuel first later) Reading.Fits := by
  refine .after fun _ => .bind (itemsUntil_fits hread fuel false nofun) fun p hp => .pure (.ofBraces ?_ ?_)
  · intro t ht
    obtain ⟨es, hes, rfl⟩ := Option.map_eq_some_iff.1 ht
    have h := fits_arrayElements hp (fun _ hi => fits_argument hi) hes
    exact .node rfl rfl (by grind [Node.places])
  · intro t ht
    obtain ⟨es, hes, rfl⟩ := Option.map_eq_some_iff.1 ht
    have h := fits_arrayElements hp (fun _ hi => fits_element hi) hes
    exact .node rfl rfl (by grind [Node.places])

/-! ## Classes -/

theorem classMember_fits : Gives (classMember read fuel) fun o => ∀ t ∈ o, Tree.Fills .classMember t := by
  refine .after fun _ => .after fun _ => .after fun _ => .ite (.pure nofun) (.after fun _ => .ite ?_ ?_)
  · refine .after fun _ => .after fun _ => .after fun text => .pure ?_
    rintro _ ⟨⟩
    exact fits_verbatim text rfl
  · refine .after fun _ => .after fun m => .bind (propertyName_fits hread) fun key hkey => ?_
    have hkey : Tree.Fills (.ofKey key.isComputed) key.tree := hkey
    have value : Gives (some <$> expressionTree read .ending) fun o => ∀ t ∈ o, Tree.Fills .expression t :=
      .map ((expressionTree_fits hread).mono fun _ ht => by simpa using ht)
    have member : Gives (do
        let value ← methodRest read fuel m
        let _ ← punct? ";"
        return some (.mk (.methodDefinition key.tree value (methodKind m key) key.isComputed m.isStatic)))
        fun o => ∀ t ∈ o, Tree.Fills .classMember t := by
      refine .bind (methodRest_fits hread) fun value hvalue => .after fun _ => .pure ?_
      rintro _ ⟨⟩
      exact .node rfl rfl (by grind [Node.places])
    have field (value : Option Tree) (hvalue : ∀ t ∈ value, Tree.Fills .expression t) : Gives (do
        semicolon value.isNone
        return some (.mk (.propertyDefinition key.tree value key.isComputed m.isStatic)))
        fun o => ∀ t ∈ o, Tree.Fills .classMember t := by
      refine .after fun _ => .pure ?_
      rintro _ ⟨⟩
      exact .node rfl rfl (by grind [Node.places])
    dsimp only
    -- what is behind the key tells a method from a field
    refine .skip (.iteAfter fun ends => .after fun _ => .ite member (.after fun _ => ?_))
    exact .iteAfter fun _ => .iteBind value (.pure nofun) field

theorem classBody_fits : Gives (classBody read fuel) (Tree.Fills .classBody) := by
  have more : Gives (do if ← punct? "\x7d" then return none else some <$> classMember read fuel)
      fun o => ∀ m ∈ o, ∀ t ∈ m, Tree.Fills .classMember t :=
    .after fun _ => .ite (.pure nofun) (.map ((classMember_fits hread).mono fun _ hm => by simpa using hm))
  refine .after fun _ => .bind (.collect more fuel nofun) fun ms hms => .pure (.node rfl rfl ?_)
  have h : ∀ t ∈ ms.filterMap id, Tree.Fills .classMember t := fun t ht => by
    obtain ⟨m, hm, he⟩ := List.mem_filterMap.1 ht
    exact hms m hm t he
  grind [Node.places]

theorem classRest_fits {named : Bool} :
    Gives (classRest read fuel named) fun c => ∀ p ∈ Node.classPlaces c, Tree.Fills p.2 p.1 := by
  have parts {id : Option Tree} (hid : ∀ t ∈ id, Tree.Fills .name t) (superClass : Option Tree)
      (hsuper : ∀ t ∈ superClass, Tree.Fills .expression t) : Gives (do
        let body ← classBody read fuel
        return { id := id, superClass := superClass, body := body })
        fun c => ∀ p ∈ Node.classPlaces c, Tree.Fills p.2 p.1 :=
    .bind (classBody_fits hread) fun _ hb => .pure (by grind [Node.classPlaces])
  have hname : Gives (some <$> bindingName) fun id => ∀ t ∈ id, Tree.Fills .name t :=
    .map ((bindingName_fits fun _ => rfl).mono fun _ ht => by simpa using ht)
  refine .after fun _ => .after fun token => ?_
  dsimp only
  split
  case' h_1 | h_3 => refine .iteBind .failure (.pure (P := fun id => ∀ t ∈ id, Tree.Fills .name t) fits_none) ?_
  case' h_2 => refine .bind hname ?_
  all_goals
    intro id hid
    have heir (e : Tree) (he : Tree.Fills .expression e) := parts hid (some e) (by simpa using he)
    have superClass : Gives (expressionTree read .inner) (Tree.Fills .expression) := expressionTree_fits hread
    have extended := superClass.bind heir
    refine .after fun _ => .after fun _ => .ite (.after fun _ => .after fun _ => .ite ?_ extended) (parts hid none fits_none)
    exact .orElse extended (.after fun _ => heir _ (fits_identifier "await" rfl))

end Members

end Graft.Source
