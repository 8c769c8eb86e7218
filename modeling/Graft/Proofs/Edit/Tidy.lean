import Graft.Proofs.Edit.Editing
/-!
# Edited trees stay trees

`IsTree` says that the nodes below a top form a tree: every one but the top is held by one slot of one of them, and none
holds itself from below. After any run of moves this is so below the root and below the cursor, also where the
cursor stands on a node that an edit detached (`Editing.run_tidy`), so walks and printing end.
-/

namespace Graft

structure IsTree (kids : NodeId → List NodeId) (top : NodeId) : Prop where
  acyclic : ∀ x, Below kids top x → ∀ c ∈ kids x, ¬ Below kids c x
  held : ∀ x, Below kids top x → x ≠ top →
    ∃ p, Below kids top p ∧ (kids p).count x = 1 ∧ ∀ q, Below kids top q → x ∈ kids q → q = p

theorem Forest.isTree {kids : NodeId → List NodeId} {K : Set NodeId} (h : Forest kids K) {top : NodeId}
    (ht : top ∈ K) : IsTree kids top where
  acyclic x hx c hc := h.not_below_kid (h.below_mem ht hx) hc
  held x hx hne := by
    rcases Relation.ReflTransGen.cases_tail hx with he | ⟨p, hp, hpx⟩
    · exact absurd he hne
    · have hpK := h.below_mem ht hp
      refine ⟨p, hp, List.count_eq_one_of_mem (h.nodup p hpK) hpx, fun q hq hqx => ?_⟩
      exact h.holder q (h.below_mem ht hq) p hpK x hqx hpx

/-- A search below `id` and the reading of its tree come to an end: the search meets every node strictly below
once whatever its bound, and the tree is there. -/
structure Ends (s : Store) (id : NodeId) : Prop where
  steps : ∀ accepts ps more, s.walk accepts (s.size + 1 + more) (s.children id) ps [] =
    s.walk accepts (s.size + 1) (s.children id) ps []
  visits : ∀ ps, (s.search ps id fun _ _ => true).1.Nodup ∧
    ∀ x, x ∈ (s.search ps id fun _ _ => true).1 ↔ ∃ c ∈ s.children id, Below s.children c x
  tree : (s.tree? id).isSome = true

/-- Child numbers lie in the store, and the nodes below root and cursor are trees that can be walked and read. -/
structure Tidy (e : Editor) : Prop where
  arena : ∀ p, ∀ c ∈ e.store.children p, c.index < e.store.size
  root : IsTree e.store.children e.store.root ∧ Ends e.store e.store.root
  cursor : IsTree e.store.children e.current ∧ Ends e.store e.current

variable {e : Editor} {K : Set NodeId}

theorem Sound.ends (h : Sound e K) {id : NodeId} (hid : id ∈ K) : Ends e.store id where
  steps accepts ps more := Store.walk_fuel h.forest h.inside accepts more ps (Front.start h.forest hid) (by simp)
  visits ps := Store.search_visits h.forest h.inside hid ps
  tree := Store.tree?_isSome h.forest h.inside hid

theorem Sound.tidy (h : Sound e K) : Tidy e :=
  ⟨h.arena, ⟨h.forest.isTree h.root, h.ends h.root⟩, ⟨h.forest.isTree h.current, h.ends h.current⟩⟩

/-- A new editor knows all nodes of its tree. -/
theorem Sound.ofTree (t : Tree) : Sound (.ofTree t) {x | x.index < (Store.ofTree t).size} := by
  have hp := Store.insert_planted t .empty
  have hall : (Store.empty.added (Store.empty.insert t).2) = {x | x.index < (Store.ofTree t).size} := by
    ext x
    exact ⟨And.right, fun hx => ⟨Nat.zero_le _, hx⟩⟩
  have htops := hall ▸ hp.tops
  obtain ⟨hroot, hloose⟩ := htops.loose _ List.mem_cons_self
  have hin (p c : NodeId) (hc : c ∈ (Store.ofTree t).children p) : p ∈ {x | x.index < (Store.ofTree t).size} := by
    by_contra hge
    simp [Store.children_of_size_le (Nat.le_of_not_lt hge)] at hc
  refine ⟨fun p c hc => htops.forest.closed p (hin p c hc) c hc, fun _ hx => hx, htops.forest, hroot,
    fun p hc => hloose p (hin p _ hc) hc, fun c p hl => ?_, ?_, hroot⟩
  · simp [Editor.ofTree] at hl
  · simp [Editor.ofTree]

/-! ## Runs -/

namespace Editing
variable {σ : Editing}

/-- The editor is sound, and all searches are over known nodes. -/
structure Known (σ : Editing) (K : Set NodeId) : Prop where
  sound : Sound σ.editor K
  visits : ∀ v ∈ σ.visits, v.home ∈ K ∧ ∀ x ∈ v.pending, x ∈ K

/-- An operation that succeeds goes over to a sound editor that knows all it knew. -/
theorem Known.to {e' : Editor} {visits : List Visit} (h : Known σ K) (hk : ∃ K', K ⊆ K' ∧ Sound e' K')
    (hv : ∀ v ∈ visits, v ∈ σ.visits ∨ v.home ∈ K ∧ ∀ x ∈ v.pending, x ∈ K) :
    ∃ K', K ⊆ K' ∧ Known ⟨e', visits⟩ K' := by
  obtain ⟨K', hK, hs⟩ := hk
  refine ⟨K', hK, hs, fun v hv' => ?_⟩
  obtain ⟨hhome, hpending⟩ := (hv v hv').elim (h.visits v) id
  exact ⟨hK hhome, fun x hx => hK (hpending x hx)⟩

theorem Known.operate (h : Known σ K) {f : Editor → Editor.Result}
    (hf : ∀ e', f σ.editor = .ok e' → ∃ K', K ⊆ K' ∧ Sound e' K') : ∃ K', K ⊆ K' ∧ Known (σ.operate f) K' := by
  unfold Editing.operate
  split
  next e' he => exact h.to (hf e' he) fun v hv => .inl hv
  next => exact ⟨K, subset_rfl, h⟩

theorem Known.search (h : Known σ K) {f : Editor → List NodeId × Editor} (hf : ∀ x ∈ (f σ.editor).1, x ∈ K)
    (hk : Editor.Kept σ.editor (f σ.editor).2 K) : ∃ K', K ⊆ K' ∧ Known (σ.search f) K' := by
  refine h.to hk.1 fun v hv => ?_
  rcases List.mem_cons.1 hv with rfl | hv
  · exact .inr ⟨h.sound.current, hf⟩
  · exact .inl hv

theorem scrap_kept (h : Sound e K) (trees : List Tree) :
    Editor.Kept e { e with store := (e.store.insertAll trees).2 } K := by
  obtain ⟨hp, hev⟩ := Pending.planted h h.current (Store.insertAll_planted trees e.store)
  exact .of_evolved hp hev

/-- Each move leaves all known nodes known. -/
theorem step_known (h : Known σ K) (m : Move) : ∃ K', K ⊆ K' ∧ Known (σ.step m) K' := by
  cases m with
  | gotoChild field => exact h.operate (f := fun e => e.gotoChild field) fun e' he => (Editor.gotoChild_kept h.sound he).1
  | gotoElement field index => exact h.operate (f := fun e => e.gotoElement field index) fun e' he => (Editor.gotoElement_kept h.sound he).1
  | gotoParent => exact h.operate (f := Editor.gotoParent) fun e' he => (Editor.gotoParent_kept h.sound he).1
  | insert position code => exact h.operate (f := fun e => e.insert position code) fun e' he => (Editor.insert_kept h.sound he).1
  | wrap code =>
    refine h.operate (f := fun e => e.wrap code) fun e' he => ?_
    obtain ⟨_, K', _, _, -, hw⟩ := Editor.wrap_wrapped h.sound he
    exact ⟨K', hw.known, hw.sound⟩
  | change method value => exact h.operate (f := fun e => e.change method value) fun e' he => (Editor.change_kept h.sound he).1
  | find spec =>
    obtain ⟨hf, hk⟩ := Editor.search_kept h.sound fun ps id => σ.editor.store.matches ps id spec
    exact h.search (f := fun e => e.findAll spec) hf hk
  | findPattern pattern =>
    obtain ⟨hf, hk⟩ := Editor.search_kept h.sound fun _ id => σ.editor.store.contains id pattern
    exact h.search (f := fun e => e.findPattern pattern) hf hk
  | visit =>
    rw [Editing.step]
    split
    next home id pending visits hv =>
      obtain ⟨hhome, hpending⟩ := h.visits ⟨home, id :: pending⟩ (by simp [hv])
      refine h.to (Editor.moveTo_kept h.sound (hpending id List.mem_cons_self)).1 fun v hmem => ?_
      -- the visit that is left has fewer nodes pending, all of them known
      rcases List.mem_cons.1 hmem with rfl | hmem
      · exact .inr ⟨hhome, fun x hx => hpending x (List.mem_cons_of_mem _ hx)⟩
      · exact .inl (by simp [hv, hmem])
    next => exact ⟨K, subset_rfl, h⟩
  | leave =>
    rw [Editing.step]
    split
    next v visits hv =>
      obtain ⟨hhome, -⟩ := h.visits v (by simp [hv])
      exact h.to (Editor.moveTo_kept h.sound hhome).1 fun u hu => .inl (by simp [hv, hu])
    next => exact ⟨K, subset_rfl, h⟩
  | scrap trees => exact h.to (scrap_kept h.sound trees).1 fun v hv => .inl hv

theorem run_known (h : Known σ K) (moves : List Move) : ∃ K', K ⊆ K' ∧ Known (σ.run moves) K' := by
  induction moves generalizing σ K with
  | nil => exact ⟨K, subset_rfl, h⟩
  | cons m moves ih =>
    obtain ⟨K₁, hK₁, h₁⟩ := step_known h m
    obtain ⟨K', hK', h'⟩ := ih h₁
    exact ⟨K', hK₁.trans hK', h'⟩

theorem start_known (t : Tree) : Known (.start t) {x | x.index < (Store.ofTree t).size} :=
  ⟨.ofTree t, by simp [Editing.start]⟩

/-- After any run from any tree, child numbers lie in the store, the nodes below the root and below the cursor are
trees, and walking, matching and printing them ends. -/
theorem run_tidy (t : Tree) (moves : List Move) : Tidy ((Editing.start t).run moves).editor := by
  obtain ⟨K, -, h⟩ := run_known (start_known t) moves
  exact h.sound.tidy

end Editing
end Graft
