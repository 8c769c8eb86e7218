import Graft.Command.Run
import Graft.Proofs.Files.Replacing
import Graft.Proofs.Mods.Registry
/-!
# What commands write

Commands read, apply patches in memory, and only then write: nothing is changed by one that fails or that is not `apply`, and
`apply` changes the one file that it says, if any (`run_writes`).
-/

namespace Graft

/-! ## Reading the mods -/

namespace Registry

variable {files : FileSystem} {directory : String} {listing : List String} {count : Nat} {r : Registry}

theorem discoverIn_files : ((discoverIn directory listing count r : StateM FileSystem _) files).2 = files := by
  induction listing generalizing count r with
  | nil => rfl
  | cons name rest ih =>
    rw [discoverIn_cons]
    cases candidate? files directory name with
    | none => exact ih
    | some loaded =>
      cases loaded with
      | error cause => rfl
      | ok m =>
        dsimp only
        cases r.register m with
        | error cause => rfl
        | ok r' => exact ih

theorem discover_files : ((r.discover directory : StateM FileSystem _) files).2 = files := by
  rw [discover_apply]
  split
  · rfl
  · cases files.subdirectories directory with
    | error cause => rfl
    | ok given => exact discoverIn_files

end Registry

namespace Command

open FileSystem

variable {fs : FileSystem} {bundle mods target text : String} {given version out : Option String} {diff : Bool}

/-- The mods of a directory change a bundle so, if its version is the given one or that in the bundle. -/
def Produces (fs : FileSystem) (bundle mods : String) (given : Option String) (s : Session) : Prop :=
  ∃ original count registry patches, fs.readText bundle = .ok original ∧
    ((Registry.empty.discover mods : StateM FileSystem _) fs).1 = (.ok count, registry) ∧
    registry.patchesFor bundle (given <|> Version.detect? original) = .ok patches ∧ applyPatches original patches = .ok s

theorem loadMods_reads (fs : FileSystem) (directory : String) : ∃ printed result,
    (loadMods directory : StateM FileSystem _) fs = ((printed, result), fs) ∧
    ∀ registry, result = .ok registry ↔
      ∃ count, ((Registry.empty.discover directory : StateM FileSystem _) fs).1 = (.ok count, registry) := by
  have hfiles := @Registry.discover_files fs directory Registry.empty
  unfold loadMods
  simp only [bind, StateT.bind]
  generalize (Registry.empty.discover directory : StateM FileSystem _) fs = answer at hfiles
  obtain ⟨⟨result, r⟩, files⟩ := answer
  obtain rfl : files = fs := hfiles
  rcases result with cause | _ | count
  · exact ⟨_, _, rfl, by simp⟩
  · exact ⟨_, _, rfl, by simp⟩
  · exact ⟨_, _, rfl, by simp⟩

theorem patchWith_ok {r : Registry} {s : Session} :
    (∃ original, (patchWith r bundle text given).2 = .ok ⟨original, .ok s⟩) ↔
      ∃ patches, r.patchesFor bundle given = .ok patches ∧ applyPatches text patches = .ok s := by
  unfold patchWith
  cases r.patchesFor bundle given with
  | error cause => simp
  | ok patches => simp

theorem patchBundle_reads (fs : FileSystem) (bundle mods : String) (given : Option String) : ∃ printed result,
    (patchBundle bundle mods given : StateM FileSystem _) fs = ((printed, result), fs) ∧
    ∀ s, Produces fs bundle mods given s ↔ ∃ original, result = .ok ⟨original, .ok s⟩ := by
  have hread : (FileAccess.readText bundle : StateM FileSystem _) fs = (fs.readText bundle, fs) := rfl
  unfold patchBundle Produces
  simp only [bind, StateT.bind, hread]
  cases hbundle : fs.readText bundle with
  | error cause => exact ⟨_, _, rfl, by simp⟩
  | ok original =>
    obtain ⟨printed, result, hload, hresult⟩ := loadMods_reads fs mods
    dsimp only
    simp only [StateT.bind, hload]
    cases result with
    | error cause =>
      refine ⟨_, _, rfl, fun s => ⟨?_, nofun⟩⟩
      rintro ⟨_, count, registry, _, -, hdiscover, -⟩
      cases (hresult registry).2 ⟨count, hdiscover⟩
    | ok registry =>
      obtain ⟨count, hdiscover⟩ := (hresult registry).1 rfl
      refine ⟨_, _, rfl, fun s => ?_⟩
      rw [patchWith_ok]
      -- the files are only read, so the registry that `Produces` speaks of is the one that was built
      constructor
      · rintro ⟨_, _, _, patches, ⟨⟩, hregistry, hpatches, hs⟩
        obtain ⟨-, rfl⟩ := Prod.mk.inj (hdiscover.symm.trans hregistry)
        exact ⟨patches, hpatches, hs⟩
      · rintro ⟨patches, hpatches, hs⟩
        exact ⟨original, count, registry, patches, rfl, hdiscover, hpatches, hs⟩

/-! ## Writing the bundle -/

/-- What is left of the files once a text has been delivered. -/
def Delivered (fs fs' : FileSystem) (target text : String) : Prop :=
  if target = "-" then fs' = fs else Replaced fs fs' target text

theorem deliver_cases (fs : FileSystem) (target text : String) :
    (∃ printed fs', (deliver target text : StateM FileSystem _) fs = ((printed, true), fs') ∧ Delivered fs fs' target text) ∨
    target ≠ "-" ∧ ∃ printed, (deliver target text : StateM FileSystem _) fs = ((printed, false), fs) := by
  unfold deliver Delivered
  by_cases htarget : target = "-"
  · rw [if_pos htarget]
    exact .inl ⟨_, fs, rfl, by rw [if_pos htarget]⟩
  · rw [if_neg htarget]
    simp only [bind, StateT.bind]
    rcases writeIfChanged_cases fs target text with ⟨outcome, fs', hwrite, hreplaced, -⟩ | ⟨cause, hwrite⟩
    · rw [hwrite]
      left
      cases outcome with
      | written => exact ⟨_, fs', rfl, by rwa [if_neg htarget]⟩
      | unchanged => exact ⟨_, fs', rfl, by rwa [if_neg htarget]⟩
    · rw [hwrite]
      exact .inr ⟨htarget, _, rfl⟩

theorem runApply_cases (fs : FileSystem) (bundle mods : String) (given out : Option String) (diff : Bool) :
    (∃ printed fs' s, (runApply bundle mods given out diff : StateM FileSystem _) fs = ((printed, true), fs') ∧
      Produces fs bundle mods given s ∧ Delivered fs fs' (out.getD bundle) s.buffer) ∨
    ((out = some "-" → ∀ s, ¬ Produces fs bundle mods given s) ∧
      ∃ printed, (runApply bundle mods given out diff : StateM FileSystem _) fs = ((printed, false), fs)) := by
  obtain ⟨printed, result, hpatch, hresult⟩ := patchBundle_reads fs bundle mods given
  unfold runApply
  simp only [bind, StateT.bind, hpatch]
  rcases result with cause | ⟨original, cause | s⟩
  · refine .inr ⟨fun _ s hs => ?_, _, rfl⟩
    obtain ⟨_, hs⟩ := (hresult s).1 hs
    cases hs
  · refine .inr ⟨fun _ s hs => ?_, _, rfl⟩
    obtain ⟨_, hs⟩ := (hresult s).1 hs
    cases hs
  · dsimp only
    simp only [StateT.bind]
    rcases deliver_cases fs (out.getD bundle) s.buffer with ⟨last, fs', hdeliver, hdelivered⟩ | ⟨htarget, last, hdeliver⟩
    · rw [hdeliver]
      exact .inl ⟨_, fs', s, rfl, (hresult s).2 ⟨original, rfl⟩, hdelivered⟩
    · rw [hdeliver]
      refine .inr ⟨?_, _, rfl⟩
      rintro rfl
      exact absurd rfl htarget

theorem runCheck_reads (fs : FileSystem) (bundle mods : String) (given : Option String) : ∃ printed done,
    (runCheck bundle mods given : StateM FileSystem _) fs = ((printed, done), fs) ∧
    (done = true ↔ ∃ s, Produces fs bundle mods given s) := by
  obtain ⟨printed, result, hpatch, hresult⟩ := patchBundle_reads fs bundle mods given
  unfold runCheck
  simp only [bind, StateT.bind, hpatch, hresult]
  rcases result with cause | ⟨original, cause | s⟩
  · exact ⟨_, _, rfl, by simp⟩
  · exact ⟨_, _, rfl, by simp [Except.toOption]⟩
  · exact ⟨_, _, rfl, by simp [Except.toOption]⟩

theorem runList_reads (fs : FileSystem) (mods : String) (given : Option String) : ∃ printed done,
    (runList mods given : StateM FileSystem _) fs = ((printed, done), fs) := by
  obtain ⟨printed, result, hload, -⟩ := loadMods_reads fs mods
  unfold runList
  simp only [bind, StateT.bind, hload]
  rcases result with cause | registry
  · exact ⟨_, _, rfl⟩
  · exact ⟨_, _, rfl⟩

/-! ## Commands -/

theorem run_task {args : List String} {t : Task} {printed : Printed} {done : Bool} {fs' : FileSystem}
    (ht : request args = .task t) (h : (t.run : StateM FileSystem _) fs = ((printed, done), fs')) :
    (run args : StateM FileSystem _) fs = ((printed, if done then 0 else 1), fs') := by
  unfold run
  rw [ht]
  simp only [bind, StateT.bind, h]
  rfl

/-- What the arguments ask for is not to apply mods. -/
def Reading (args : List String) : Prop :=
  ∀ bundle mods given out diff, request args ≠ .task (.apply bundle mods given out diff)

theorem run_reading {args : List String} (h : Reading args) (fs : FileSystem) :
    ((run args : StateM FileSystem _) fs).2 = fs := by
  cases hrequest : request args with
  | text text =>
    unfold run
    rw [hrequest]
    rfl
  | usageError command cause =>
    unfold run
    rw [hrequest]
    rfl
  | task t =>
    cases t with
    | apply bundle mods given out diff => exact absurd hrequest (h bundle mods given out diff)
    | list mods given =>
      obtain ⟨printed, done, hlist⟩ := runList_reads fs mods given
      rw [run_task hrequest hlist]
    | check bundle mods given =>
      obtain ⟨printed, done, hcheck, -⟩ := runCheck_reads fs bundle mods given
      rw [run_task hrequest hcheck]

theorem run_apply {args : List String} (h : request args = .task (.apply bundle mods given out diff)) (fs : FileSystem) :
    (∃ printed fs' s, (run args : StateM FileSystem _) fs = ((printed, 0), fs') ∧ Produces fs bundle mods given s ∧
      Delivered fs fs' (out.getD bundle) s.buffer) ∨
    ((out = some "-" → ∀ s, ¬ Produces fs bundle mods given s) ∧
      ∃ printed, (run args : StateM FileSystem _) fs = ((printed, 1), fs)) := by
  rcases runApply_cases fs bundle mods given out diff with ⟨printed, fs', s, hrun, hs, hdelivered⟩ | ⟨hno, printed, hrun⟩
  · exact .inl ⟨printed, fs', s, run_task h hrun, hs, hdelivered⟩
  · exact .inr ⟨hno, printed, run_task h hrun⟩

/-- With a hyphen to write to, applying succeeds where the mods give a text. -/
theorem run_apply_shown {args : List String} (h : request args = .task (.apply bundle mods given (some "-") diff))
    (fs : FileSystem) :
    ((run args : StateM FileSystem _) fs).1.2 = 0 ↔ ∃ s, Produces fs bundle mods given s := by
  rcases run_apply h fs with ⟨printed, fs', s, hrun, hs, -⟩ | ⟨hno, printed, hrun⟩
  · simpa [hrun] using ⟨s, hs⟩
  · simpa [hrun] using hno

theorem run_check {args : List String} (h : request args = .task (.check bundle mods given)) (fs : FileSystem) :
    ((run args : StateM FileSystem _) fs).1.2 = 0 ↔ ∃ s, Produces fs bundle mods given s := by
  obtain ⟨printed, done, hcheck, hdone⟩ := runCheck_reads fs bundle mods given
  rw [run_task h hcheck, ← hdone]
  cases done <;> simp

/-- Files are as they were after a failure, after anything but `apply`, and after `apply` where it writes to a hyphen, be that the
output or, without one, the bundle. Otherwise the output, or else the bundle, holds the text that the mods give, and all other files
are as they were. A check succeeds exactly where the text could be shown. -/
theorem run_writes (args : List String) (fs : FileSystem) :
    (((run args : StateM FileSystem _) fs).1.2 ≠ 0 → ((run args : StateM FileSystem _) fs).2 = fs) ∧
    (Reading args → ((run args : StateM FileSystem _) fs).2 = fs) ∧
    (∀ bundle mods given out diff, request args = .task (.apply bundle mods given out diff) →
      ((run args : StateM FileSystem _) fs).1.2 = 0 → ∃ s, Produces fs bundle mods given s ∧
        if out.getD bundle = "-" then ((run args : StateM FileSystem _) fs).2 = fs
        else Replaced fs ((run args : StateM FileSystem _) fs).2 (out.getD bundle) s.buffer) ∧
    ∀ bundle mods given diff other, request args = .task (.check bundle mods given) →
      request other = .task (.apply bundle mods given (some "-") diff) →
      (((run args : StateM FileSystem _) fs).1.2 = 0 ↔ ((run other : StateM FileSystem _) fs).1.2 = 0) := by
  refine ⟨fun hfails => ?_, fun hreading => run_reading hreading fs, ?_, ?_⟩
  · by_cases hreading : Reading args
    · exact run_reading hreading fs
    · simp only [Reading, not_forall, not_not] at hreading
      obtain ⟨bundle, mods, given, out, diff, happly⟩ := hreading
      rcases run_apply happly fs with ⟨printed, fs', s, hrun, -, -⟩ | ⟨-, printed, hrun⟩
      · exact absurd (by rw [hrun]) hfails
      · rw [hrun]
  · intro bundle mods given out diff happly hsucceeds
    rcases run_apply happly fs with ⟨printed, fs', s, hrun, hs, hdelivered⟩ | ⟨-, printed, hrun⟩
    · rw [hrun]
      exact ⟨s, hs, hdelivered⟩
    · rw [hrun] at hsucceeds
      cases hsucceeds
  · intro bundle mods given diff other hcheck happly
    exact (run_check hcheck fs).trans (run_apply_shown happly fs).symm

/-- A bundle whose name is a hyphen, and a mod for it. -/
def hyphenated : FileSystem where
  current := []
  entries := [(["-"], .file "a=5".toUTF8), (["mods"], .directory), (["mods", "m"], .directory),
    (["mods", "m", "mod.toml"], .file
      "[meta]\nname=\"m\"\n[[patches]]\nid=\"p\"\noperation=\x7btype=\"replace\",from=\"5\",to=\"6\"\x7d".toUTF8)]

theorem hyphenated_written :
    ((run ["apply", "-b", "-", "-m", "mods", "-o", "new.js"] : StateM FileSystem _) hyphenated).1.2 = 0 ∧
    ∃ s, Produces hyphenated "-" "mods" none s ∧
      Replaced hyphenated ((run ["apply", "-b", "-", "-m", "mods", "-o", "new.js"] : StateM FileSystem _) hyphenated).2
        "new.js" s.buffer := by
  have hsucceeds : ((run ["apply", "-b", "-", "-m", "mods", "-o", "new.js"] : StateM FileSystem _) hyphenated).1.2 = 0 := by
    decide +kernel
  refine ⟨hsucceeds, (run_writes _ hyphenated).2.2.1 "-" "mods" none (some "new.js") false ?_ hsucceeds⟩
  decide +kernel

/-- Applied in place, the mod leaves the bundle as it was, without a failure. -/
theorem hyphenated_unpatched :
    request ["apply", "-b", "-", "-m", "mods"] = .task (.apply "-" "mods" none none false) ∧
    ((run ["apply", "-b", "-", "-m", "mods"] : StateM FileSystem _) hyphenated).1.2 = 0 ∧
    (∃ s, Produces hyphenated "-" "mods" none s ∧ s.buffer = "a=6") ∧
    ((run ["apply", "-b", "-", "-m", "mods"] : StateM FileSystem _) hyphenated).2.readText "-" = .ok "a=5" := by
  refine ⟨by decide +kernel, by decide +kernel, ?_, by decide +kernel⟩
  have hbuffer : ((patchBundle "-" "mods" none : StateM FileSystem _) hyphenated).1.2.toOption.bind
      (fun patched => patched.result.toOption.map Session.buffer) = some "a=6" := by decide +kernel
  obtain ⟨printed, result, hpatch, hresult⟩ := patchBundle_reads hyphenated "-" "mods" none
  rw [hpatch] at hbuffer
  rcases result with cause | ⟨original, cause | s⟩
  · cases hbuffer
  · cases hbuffer
  · exact ⟨s, (hresult s).2 ⟨original, rfl⟩, by simpa [Except.toOption] using hbuffer⟩

end Command
end Graft
