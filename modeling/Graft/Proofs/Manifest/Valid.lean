import Graft.Manifest.Load
import Graft.Mods.Mod
import Graft.Proofs.Edit.Errors
import Graft.Proofs.Patch.Session
/-!
# Valid manifests

A manifest is checked before its patches run, by another recursion over its steps than the one that runs them. The two agree:
what a check lets through fails on a text for what the text holds, never because the script makes no sense
(`runStep_sensible`), and so do all patches of a valid manifest (`Manifest.valid_sensible`).
-/

namespace Graft

/-! ## Scripts -/

namespace Manifest
open Editor

theorem faultIf_eq_nil {b : Bool} {fault : Fault} (h : faultIf b fault = []) : b = false := by
  cases b with
  | false => rfl
  | true => cases h

/-- A criterion without faults is there. -/
theorem criterion_given {find : Option MatchSpec} {raw : Option Json} (h : criterionFaults find raw = []) :
    find.isSome = true ∨ raw.isSome = true := by
  cases find with
  | some => exact .inl rfl
  | none =>
    cases raw with
    | some => exact .inr rfl
    | none => cases h

/-- A change without faults has a value. -/
theorem change_given {method : ChangeMethod} {value : Option Json} {code : Option String}
    (h : faultsOfAction (.change method value code) = []) : (changeValue? value code).isSome = true := by
  rw [faultsOfAction] at h
  have hone := faultIf_eq_nil h
  cases value <;> cases code <;> simp_all [changeValue?]

mutual
theorem runStep_sensible : (s : Step) → stepFaults s = [] → Sensible (runStep s)
  | .mk find raw expected actions => by
    intro h
    rw [stepFaults, List.append_eq_nil_iff] at h
    have hactions := runActions_sensible actions h.2
    rcases find with _ | spec
    · rcases raw with _ | pattern
      · simpa using criterion_given h.1
      · rw [runStep]
        exact (Sensible.findPatternEach pattern expected hactions).discard
    · rw [runStep]
      exact (Sensible.findEach spec expected hactions).discard

theorem runActions_sensible : (actions : List Action) → actionFaults actions = [] → Sensible (runActions actions)
  | [] => by
    intro _
    rw [runActions]
    exact .pure ()
  | action :: rest => by
    intro h
    rw [actionFaults, List.append_eq_nil_iff] at h
    rw [runActions]
    exact (runAction_sensible action h.1).bind fun _ => runActions_sensible rest h.2

theorem runAction_sensible : (action : Action) → faultsOfAction action = [] → Sensible (runAction action)
  | .insert position code => by
    intro _
    rw [runAction]
    exact .perform _
  | .wrap code => by
    intro _
    rw [runAction]
    exact .perform _
  | .change method value code => by
    intro h
    obtain ⟨v, hv⟩ := Option.isSome_iff_exists.1 (change_given h)
    rw [runAction, hv]
    exact .perform _
  | .gotoChild field index => by
    intro _
    rcases index with _ | index
    · rw [runAction]
      exact .perform _
    · rw [runAction]
      exact .perform _
  | .gotoParent => by
    intro _
    rw [runAction]
    exact .perform _
  | .find step => by
    intro h
    rw [faultsOfAction] at h
    rw [runAction]
    exact runStep_sensible step h
end

theorem runSteps_sensible {steps : List Step} (h : ∀ s ∈ steps, stepFaults s = []) : Sensible (runSteps steps) := by
  induction steps with
  | nil =>
    rw [runSteps]
    exact .pure ()
  | cons step rest ih =>
    rw [runSteps]
    refine (runStep_sensible step (h step List.mem_cons_self)).bind fun _ => ?_
    exact ih fun s hs => h s (List.mem_cons_of_mem step hs)

end Manifest

/-! ## Patches -/

/-- An error of the patch itself, which fails so on every text. -/
def PatchError.Senseless : PatchError → Prop
  | .edit cause => cause.Senseless
  | .pattern _ => True
  | .source _ | .process _ => False

namespace Strategy

theorem counted_sensible {what : String} {expected : Option Nat} {result : String × Nat} {cause : PatchError}
    (h : counted what expected result = .error cause) : ¬ cause.Senseless := by
  unfold counted checkCount at h
  cases expected with
  | none => cases h
  | some n =>
    by_cases hn : n = result.2
    · simp only [hn, if_true] at h
      cases h
    · simp only [hn, if_false] at h
      cases h
      exact id

end Strategy

namespace Manifest

theorem Operation.strategy_sensible {o : Operation} {text : String} {cause : PatchError} (ho : o.faults = [])
    (h : o.strategy.run text = .error cause) : ¬ cause.Senseless := by
  cases o with
  | regex pattern replacement expected =>
    rw [faults, List.append_eq_nil_iff, patternTextFaults] at ho
    -- a pattern without faults compiles, so only the number of matches can fail
    have hpattern : (Regex.compile? pattern).isNone = false := by
      split at ho
      · cases ho.1
      · exact faultIf_eq_nil ho.1
    rw [strategy, Strategy.run] at h
    cases hr : Regex.compile? pattern with
    | none => simp [hr] at hpattern
    | some r =>
      rw [hr] at h
      exact Strategy.counted_sensible h
  | replace old new expected => exact Strategy.counted_sensible h
  | ast steps =>
    rw [faults, List.append_eq_nil_iff, List.flatMap_eq_nil_iff] at ho
    rw [strategy, Strategy.run] at h
    split at h
    next cause' _ =>
      cases h
      exact id
    next t _ =>
      split at h
      next => cases h
      next cause' e' hfails =>
        cases h
        exact Manifest.runSteps_sensible ho.2 _ _ _ hfails

theorem definitionIssues_nil {ds : List Definition} {earlier : List String} (h : definitionIssues earlier ds = []) :
    ∀ d ∈ ds, d.faults = [] := by
  induction ds generalizing earlier with
  | nil => nofun
  | cons d rest ih =>
    rw [definitionIssues, List.append_eq_nil_iff, List.append_eq_nil_iff] at h
    obtain ⟨⟨-, hd⟩, hrest⟩ := h
    intro d' hd'
    rcases List.mem_cons.1 hd' with rfl | hd'
    · exact List.map_eq_nil_iff.1 hd
    · exact ih hrest d' hd'

theorem validated_issues {m m' : Manifest} (h : m.validated = .ok m') : m' = m ∧ m.issues = [] := by
  unfold validated at h
  split at h
  next hi =>
    cases h
    exact ⟨rfl, List.isEmpty_iff.1 hi⟩
  next => cases h

/-- A range without issues is blank or a requirement. -/
theorem meets_range {range : Option String} (h : rangeIssues range = []) (version text : String) :
    Version.meets version range ≠ .error (.requirement text) := by
  intro hm
  unfold Version.meets at hm
  cases range with
  | none => cases hm
  | some r =>
    rw [Option.map_some] at hm
    dsimp only at hm
    unfold rangeIssues at h
    dsimp only at h
    split at hm
    next => cases hm
    next hblank =>
      split at hm
      next => cases hm
      next v _ =>
        split at hm
        next hnone => simp [isBlank, hblank, hnone] at h
        next => cases hm

variable {δ : Type} [DecidableEq δ]

/-- The patches of a valid manifest, any of them in any order, fail on a text for what the text holds only, and its range is
a requirement for every version. -/
theorem valid_sensible (digest : String → δ) {m m' : Manifest} (hm : m.validated = .ok m') :
    (∀ text patches f, (∀ p ∈ patches, ∃ d ∈ m'.patches, ∃ modName, p = d.toPatch modName) →
      applyWith digest text patches = .error f → ¬ f.cause.Senseless) ∧
    ∀ otherName version text, (Mod.ofManifest otherName m').appliesTo version ≠ .error (.requirement text) := by
  obtain ⟨rfl, hissues⟩ := validated_issues hm
  rw [issues, List.append_eq_nil_iff, List.append_eq_nil_iff] at hissues
  obtain ⟨⟨-, hrange⟩, hdefinitions⟩ := hissues
  constructor
  · intro text patches f hpatches hf
    obtain ⟨before, p, after, o, cause, rfl, -, hfails, rfl⟩ := Session.applyWith_error_iff.1 hf
    obtain ⟨d, hd, modName, rfl⟩ := hpatches p (by simp)
    have hd := definitionIssues_nil hdefinitions d hd
    rw [Definition.faults, List.append_eq_nil_iff] at hd
    exact Operation.strategy_sensible hd.2 hfails
  · intro otherName version text
    cases version with
    | none => nofun
    | some v => exact meets_range hrange v text

/-- A pattern, and a step in a step. -/
def nestedManifest : Manifest where
  name := "m"
  description := none
  versionRange := some " >=1.2.0 "
  patches := [
    { id := "cost", file := none, operation := .regex "cost = [0-9]+" "cost = 1" none },
    { id := "hook", file := some "app.js"
      operation := .ast [.mk (some (.function none none none)) none (some 1)
        [.find (.mk none (some (.object [("type", .string "ReturnStatement")])) none
          [.change .set (some (.int 1)) none])]] }]

/-- The second patch on a text without the function that it looks for. -/
theorem nestedManifest_sensible : nestedManifest.validated = .ok nestedManifest ∧
    ∃ f, applyPatches "cost = 2;" (nestedManifest.patches.tail.map (Definition.toPatch "m")) = .error f ∧
      ¬ f.cause.Senseless := by
  have hvalid : nestedManifest.validated = .ok nestedManifest := by
    rw [validated, if_pos (by decide +kernel)]
  have hfails : (applyPatches "cost = 2;" (nestedManifest.patches.tail.map (Definition.toPatch "m"))).toOption.isNone = true := by
    decide +kernel
  cases hf : applyPatches "cost = 2;" (nestedManifest.patches.tail.map (Definition.toPatch "m")) with
  | ok o =>
    rw [hf] at hfails
    cases hfails
  | error f =>
    refine ⟨hvalid, f, rfl, (valid_sensible id hvalid).1 _ _ f (fun p hp => ?_) hf⟩
    obtain ⟨d, hd, rfl⟩ := List.mem_map.1 hp
    exact ⟨d, List.mem_of_mem_tail hd, "m", rfl⟩

end Manifest
end Graft
