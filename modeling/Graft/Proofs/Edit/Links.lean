import Graft.Proofs.Edit.Tidy
import Graft.Source.Program
/-!
# Recorded parents

A move never leaves a wrong link on a node that the root reaches, with one exception: a wrap moves an expression body
under a new `return`, and a link that the body had goes on naming the function (`Strands`). So the links are right
throughout a run exactly if no move of it strands a body (`Editing.run_linksExact_iff`).
-/

namespace Graft

/-- Every link of a node that the root reaches names the reached node that holds it. -/
def LinksExact (e : Editor) : Prop :=
  ∀ c q, e.parents.get? c = some q → Below e.store.children e.store.root c →
    Below e.store.children e.store.root q ∧ c ∈ e.store.children q

variable {e e' : Editor} {K K' : Set NodeId}

/-- Seen from the holders: a link of what they hold names them. -/
theorem Sound.linksExact_iff_holders (h : Sound e K) : LinksExact e ↔
    ∀ p, Below e.store.children e.store.root p → ∀ c ∈ e.store.children p, ∀ q, e.parents.get? c = some q → q = p := by
  constructor
  · intro he p hp c hc q hq
    obtain ⟨hbq, hcq⟩ := he c q hq (hp.tail hc)
    exact h.forest.holder q (h.forest.below_mem h.root hbq) p (h.forest.below_mem h.root hp) c hcq hc
  · intro he c q hq hb
    rcases Relation.ReflTransGen.cases_tail hb with rfl | ⟨p, hp, hc⟩
    · simp [h.unlinked] at hq
    · obtain rfl := he p hp c hc q hq
      exact ⟨hp, hc⟩

theorem Faithful.linksExact (hf : Faithful e e' K) (h : Sound e K) (h' : Sound e' K') (he : LinksExact e) :
    LinksExact e' := by
  rw [h.linksExact_iff_holders] at he
  rw [h'.linksExact_iff_holders, hf.root]
  intro p hp c hc q hq
  rcases hf.kept p hp c hc q hq with rfl | ⟨hpK, hc', hq'⟩
  · rfl
  · exact he p (hf.reach p hpK hp) c hc' q hq'

/-- A wrap of a function that the root reaches, with a recorded expression for a body. -/
def Strands (e : Editor) (m : Move) : Prop :=
  ∃ code f, m = .wrap code ∧ (∃ e', e.wrap code = .ok e') ∧ e.node.func? = some f ∧
    (e.store.get f.body).isBlock = false ∧ (e.parents.get? f.body).isSome = true ∧
    Below e.store.children e.store.root e.current

namespace Editing
variable {σ : Editing}

theorem operate_faithful (h : Sound σ.editor K) {f : Editor → Editor.Result}
    (hf : ∀ e', f σ.editor = .ok e' → Faithful σ.editor e' K) : Faithful σ.editor (σ.operate f).editor K := by
  unfold Editing.operate
  split
  next e' he => exact hf e' he
  next => exact (Editor.moveTo_kept h h.current).2

/-- Every other move keeps links right. -/
theorem step_faithful (h : Known σ K) {m : Move} (hm : ¬ Strands σ.editor m) :
    Faithful σ.editor (σ.step m).editor K := by
  cases m with
  | gotoChild field =>
    exact operate_faithful h.sound (f := fun e => e.gotoChild field) fun e' he => (Editor.gotoChild_kept h.sound he).2
  | gotoElement field index =>
    exact operate_faithful h.sound (f := fun e => e.gotoElement field index) fun e' he =>
      (Editor.gotoElement_kept h.sound he).2
  | gotoParent =>
    exact operate_faithful h.sound (f := Editor.gotoParent) fun e' he => (Editor.gotoParent_kept h.sound he).2
  | insert position code =>
    exact operate_faithful h.sound (f := fun e => e.insert position code) fun e' he => (Editor.insert_kept h.sound he).2
  | wrap code =>
    refine operate_faithful h.sound (f := fun e => e.wrap code) fun e' he => ?_
    obtain ⟨f, K', inner, body, ho, hw⟩ := Editor.wrap_wrapped h.sound he
    -- only a wrap of an expression body whose place is recorded strands a link
    exact hw.faithful h.sound ho fun hb hl hr => hm ⟨code, f, rfl, ⟨e', he⟩, ho, hb, hl, hr⟩
  | change method value =>
    exact operate_faithful h.sound (f := fun e => e.change method value) fun e' he => (Editor.change_kept h.sound he).2
  | find spec => exact (Editor.search_kept h.sound fun ps id => σ.editor.store.matches ps id spec).2.2
  | findPattern pattern => exact (Editor.search_kept h.sound fun _ id => σ.editor.store.contains id pattern).2.2
  | visit =>
    rw [Editing.step]
    split
    next home id pending visits hv =>
      have hid := (h.visits ⟨home, id :: pending⟩ (by simp [hv])).2 id List.mem_cons_self
      exact (Editor.moveTo_kept h.sound hid).2
    next => exact (Editor.moveTo_kept h.sound h.sound.current).2
  | leave =>
    rw [Editing.step]
    split
    next v visits hv => exact (Editor.moveTo_kept h.sound (h.visits v (by simp [hv])).1).2
    next => exact (Editor.moveTo_kept h.sound h.sound.current).2
  | scrap trees => exact (scrap_kept h.sound trees).2

/-- A wrap that strands a body leaves its link behind. -/
theorem not_linksExact_of_strands (h : Known σ K) {m : Move} (he : LinksExact σ.editor) (hm : Strands σ.editor m) :
    ¬ LinksExact (σ.step m).editor := by
  obtain ⟨code, f, rfl, ⟨e', hok⟩, ho, hb, hl, hr⟩ := hm
  have hstep : (σ.step (.wrap code)).editor = e' := by simp [Editing.step, operate, hok]
  obtain ⟨f', K', inner, body, ho', hw⟩ := Editor.wrap_wrapped h.sound hok
  obtain rfl : f = f' := Option.some.inj (ho.symm.trans ho')
  have hbody : f.body ∈ σ.editor.store.children σ.editor.current := by
    rw [Store.children, ← Editor.node, Node.children_of_func ho]
    simp
  obtain ⟨q, hq⟩ := Option.isSome_iff_exists.1 hl
  obtain rfl := h.sound.linksExact_iff_holders.1 he _ hr f.body hbody q hq
  obtain ⟨hlink, hnot⟩ := hw.stale h.sound ho hb hq
  rw [hstep]
  intro he'
  refine hnot (he' f.body _ hlink ?_).2
  rw [hw.root]
  exact (hw.reach_known h.sound ho hr).trans hw.below

theorem start_linksExact (t : Tree) : LinksExact (start t).editor := by
  intro c q hq
  simp [start, Editor.ofTree] at hq

/-- From a state with right links on, they stay right throughout exactly if no move strands a body. -/
theorem linksExact_iff_of_known (h : Known σ K) (he : LinksExact σ.editor) (moves : List Move) :
    (∀ before, before <+: moves → LinksExact (σ.run before).editor) ↔
      ∀ before m, before ++ [m] <+: moves → ¬ Strands (σ.run before).editor m := by
  induction moves generalizing σ K with
  | nil => simpa [run] using he
  | cons m moves ih =>
    constructor
    · intro hall before m' hb hs
      have hlinks := hall before ((List.prefix_append before [m']).trans hb)
      obtain ⟨K', -, hk⟩ := run_known h before
      refine not_linksExact_of_strands hk hlinks hs ?_
      have := hall (before ++ [m']) hb
      rwa [run_append] at this
    · intro hnone before hb
      cases before with
      | nil => exact he
      | cons m' before =>
        obtain ⟨rfl, hmoves⟩ := List.cons_prefix_cons.1 hb
        obtain ⟨K', -, hk⟩ := step_known h m'
        have hstep := (step_faithful h (hnone [] m' (by simp))).linksExact h.sound hk.sound he
        refine (ih hk hstep).2 (fun before m hb => ?_) before hmoves
        exact hnone (m' :: before) m (List.cons_prefix_cons.2 ⟨rfl, hb⟩)

/-- The links are right throughout a run exactly if no move of it wraps a function that the root reaches and whose body
is an expression with a recorded place. -/
theorem run_linksExact_iff (t : Tree) (moves : List Move) :
    (∀ before, before <+: moves → LinksExact ((start t).run before).editor) ↔
      ∀ before m, before ++ [m] <+: moves → ¬ Strands ((start t).run before).editor m :=
  linksExact_iff_of_known (start_known t) (start_linksExact t) moves

/-- Every match has a recorded parent and lies below the start of the search. -/
theorem findPattern_match (e : Editor) (pattern : Json) : ∀ x ∈ (e.findPattern pattern).1,
    ((e.findPattern pattern).2.parents.get? x).isSome = true ∧
      Below (e.findPattern pattern).2.store.children e.current x :=
  fun x hx => ⟨Editor.search_recorded _ _ _ x hx, Editor.search_below _ _ _ x hx⟩

/-- A search for arrows, and at the first of two, whose body is the second, a wrap. -/
theorem nested_arrows_stale : ∃ t, Source.readProgram "const g = (a) => (b) => a + b;" = .ok t ∧
    ¬ LinksExact ((start t).run [.findPattern (.object [("type", .string "ArrowFunctionExpression")]), .visit,
      .wrap "(orig, x) => orig(x)"]).editor := by
  have facts : ((Source.readProgram "const g = (a) => (b) => a + b;").toOption.any fun t =>
      let result := (Editor.ofTree t).findPattern (.object [("type", .string "ArrowFunctionExpression")])
      result.1 = [⟨7⟩, ⟨6⟩] ∧ (result.2.store.get ⟨7⟩).func?.map Func.body = some ⟨6⟩ ∧
      (result.2.store.get ⟨6⟩).isBlock = false ∧
      ((result.2.moveTo ⟨7⟩).wrap "(orig, x) => orig(x)").toOption.isSome = true) = true := by decide +kernel
  generalize Json.object [("type", .string "ArrowFunctionExpression")] = arrow at facts ⊢
  cases hr : Source.readProgram "const g = (a) => (b) => a + b;" with
  | error => simp [hr, Except.toOption] at facts
  | ok t =>
    obtain ⟨found, e, hsearch⟩ : ∃ found e, (Editor.ofTree t).findPattern arrow = (found, e) := ⟨_, _, rfl⟩
    simp only [hr, Except.toOption, Option.any_some, hsearch, decide_eq_true_eq] at facts
    obtain ⟨rfl, hfunc, hblock, hwrap⟩ := facts
    obtain ⟨f, hf, hbody⟩ := Option.map_eq_some_iff.1 hfunc
    have hmatch : ∀ x ∈ [NodeId.mk 7, ⟨6⟩], (e.parents.get? x).isSome = true ∧
        Below e.store.children (Editor.ofTree t).current x := by
      have hfound := findPattern_match (Editor.ofTree t) arrow
      rwa [hsearch] at hfound
    have hroot : (Editor.ofTree t).current = e.store.root := by
      have hstore : ((Editor.ofTree t).findPattern arrow).2.store = (Editor.ofTree t).store := rfl
      rw [hsearch] at hstore
      exact (congrArg Store.root hstore).symm
    have hbegin : (start t).run [.findPattern arrow, .visit]
        = ⟨e.moveTo ⟨7⟩, [⟨(Editor.ofTree t).current, [⟨6⟩]⟩]⟩ := by
      simp [run_cons, run_nil, start, step, search, hsearch]
    obtain ⟨K, -, hk⟩ := run_known (start_known t) [.findPattern arrow, .visit]
    -- Up to the wrap every link is exact. The wrap strands the one of the inner arrow.
    have hlinks : LinksExact ((start t).run [.findPattern arrow, .visit]).editor := by
      refine (linksExact_iff_of_known (start_known t) (start_linksExact t) _).2 ?_ _ (List.prefix_refl _)
      rintro before m hb ⟨code, _, rfl, -⟩
      have hmem := hb.subset (List.mem_append_right before (List.mem_singleton_self (Move.wrap code)))
      simp at hmem
    have hstrands : Strands ((start t).run [.findPattern arrow, .visit]).editor (.wrap "(orig, x) => orig(x)") := by
      rw [hbegin]
      obtain ⟨e', hok⟩ : ∃ e', (e.moveTo ⟨7⟩).wrap "(orig, x) => orig(x)" = .ok e' := by
        cases hw : (e.moveTo ⟨7⟩).wrap "(orig, x) => orig(x)" with
        | error => simp [hw] at hwrap
        | ok e' => exact ⟨e', rfl⟩
      refine ⟨_, f, rfl, ⟨e', hok⟩, hf, hbody ▸ hblock, hbody ▸ (hmatch ⟨6⟩ (by simp)).1, ?_⟩
      exact hroot ▸ (hmatch ⟨7⟩ (by simp)).2
    have hstale := not_linksExact_of_strands hk hlinks hstrands
    exact ⟨t, rfl, by simpa only [run_cons, run_nil] using hstale⟩

end Editing
end Graft
