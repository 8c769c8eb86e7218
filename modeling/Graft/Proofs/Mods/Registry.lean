import Graft.Mods.Registry
import Mathlib.Data.List.Induction
import Mathlib.Data.List.Nodup
import Mathlib.Data.String.Basic
/-!
# Registries

A registry only ever grows at its end, and no name is in it twice. A discovery takes directories in the order of their names up to
the first one that cannot be taken (`Registry.Longest`), and the patches for a bundle are those of the mods, one mod after the
other. `Registry.run_laws` states this of every registry that calls can build.
-/

namespace Graft

namespace Manifest

/-- The manifest in a file, or why there is none. -/
def inFile (files : FileSystem) (path : String) : Except LoadError Manifest :=
  match files.readText path with
  | .ok text => (ofToml text).mapError (LoadError.withPath path)
  | .error cause => .error (.file path cause)

theorem load_apply (files : FileSystem) (path : String) :
    (load path : StateM FileSystem (Except LoadError Manifest)) files = (inFile files path, files) := by
  unfold inFile
  change (match files.readText path with
    | .ok text => (pure ((ofToml text).mapError (LoadError.withPath path)) : StateM FileSystem _)
    | .error cause => pure (.error (.file path cause))) files = _
  cases files.readText path <;> rfl

end Manifest

/-- Is the mod known to be made for a version, or the version unknown? -/
def Mod.admits (m : Mod) (version : Option String) : Bool := (m.appliesTo version).toOption = some true

namespace Registry

variable {r r' : Registry} {m : Mod} {files : FileSystem} {directory name : String} {listing before longer rest : List String}
  {count : Nat}

/-! ## Registering -/

def names (r : Registry) : List String := r.mods.map Mod.name

theorem register_new (h : m.name ∉ r.names) : r.register m = .ok ⟨r.mods ++ [m]⟩ := by
  rw [register, if_neg]
  simpa [names] using h

theorem register_known (h : m.name ∈ r.names) : r.register m = .error (.duplicate m.name) := by
  rw [register, if_pos]
  simpa [names] using h

/-! ## Discovering -/

/-- What the directory of a mod holds: nothing without a manifest in it. -/
def candidate? (files : FileSystem) (directory name : String) : Option (Except Manifest.LoadError Mod) :=
  let path := Path.join (Path.join directory name) manifestFile
  if files.isFile path then some ((Manifest.inFile files path).map (Mod.ofManifest name)) else none

/-- The mods in directories, as far as they can be loaded. -/
def found (files : FileSystem) (directory : String) (listing : List String) : List Mod :=
  listing.filterMap fun name => (candidate? files directory name).bind Except.toOption

/-- All of these directories are passed over or hold a mod that can be loaded, and no name comes twice. -/
structure Takes (r : Registry) (files : FileSystem) (directory : String) (listing : List String) : Prop where
  loads : ∀ name ∈ listing, ∀ cause, candidate? files directory name ≠ some (.error cause)
  fresh : (r.names ++ (found files directory listing).map Mod.name).Nodup

/-- The longest part of the directories, from the first on, that can be taken. -/
structure Longest (r : Registry) (files : FileSystem) (directory : String) (listing before : List String) : Prop where
  initial : before <+: listing
  takes : Takes r files directory before
  longest : ∀ longer, longer <+: listing → Takes r files directory longer → longer <+: before

theorem takes_nil (hr : r.names.Nodup) : Takes r files directory [] := ⟨nofun, by simpa [found] using hr⟩

theorem found_passed (h : candidate? files directory name = none) :
    found files directory (name :: rest) = found files directory rest := by
  rw [found, List.filterMap_cons, h]
  rfl

theorem found_taken (h : candidate? files directory name = some (.ok m)) :
    found files directory (name :: rest) = m :: found files directory rest := by
  rw [found, List.filterMap_cons, h]
  rfl

/-- A directory without a manifest makes no difference. -/
theorem takes_passed (h : candidate? files directory name = none) :
    Takes r files directory (name :: rest) ↔ Takes r files directory rest := by
  constructor
  · intro ht
    exact ⟨fun n hn => ht.loads n (List.mem_cons_of_mem name hn), found_passed h ▸ ht.fresh⟩
  · intro ht
    refine ⟨fun n hn cause => ?_, (found_passed h).symm ▸ ht.fresh⟩
    rcases List.mem_cons.1 hn with rfl | hn
    · simp [h]
    · exact ht.loads n hn cause

/-- After a mod that is taken, the rest has to be taken beside it. -/
theorem takes_taken (h : candidate? files directory name = some (.ok m)) :
    Takes r files directory (name :: rest) ↔ Takes ⟨r.mods ++ [m]⟩ files directory rest := by
  have hnames : r.names ++ (found files directory (name :: rest)).map Mod.name =
      (Registry.mk (r.mods ++ [m])).names ++ (found files directory rest).map Mod.name := by
    simp [found_taken h, names]
  constructor
  · intro ht
    exact ⟨fun n hn => ht.loads n (List.mem_cons_of_mem name hn), hnames ▸ ht.fresh⟩
  · intro ht
    refine ⟨fun n hn cause => ?_, hnames.symm ▸ ht.fresh⟩
    rcases List.mem_cons.1 hn with rfl | hn
    · simp [h]
    · exact ht.loads n hn cause

/-- A discovery goes on after a directory. -/
theorem Longest.cons (h : Longest r' files directory rest before)
    (hiff : ∀ l, Takes r files directory (name :: l) ↔ Takes r' files directory l) :
    Longest r files directory (name :: rest) (name :: before) where
  initial := List.cons_prefix_cons.2 ⟨rfl, h.initial⟩
  takes := (hiff before).2 h.takes
  longest longer hl ht := by
    cases longer with
    | nil => exact List.nil_prefix
    | cons first more =>
      obtain ⟨rfl, hmore⟩ := List.cons_prefix_cons.1 hl
      exact List.cons_prefix_cons.2 ⟨rfl, h.longest more hmore ((hiff more).1 ht)⟩

/-- A discovery ends before a directory that cannot be taken. -/
theorem longest_nil (hr : r.names.Nodup) (hno : ∀ l, ¬ Takes r files directory (name :: l)) :
    Longest r files directory (name :: rest) [] where
  initial := List.nil_prefix
  takes := takes_nil hr
  longest longer hl ht := by
    cases longer with
    | nil => exact List.nil_prefix
    | cons first more =>
      obtain ⟨rfl, -⟩ := List.cons_prefix_cons.1 hl
      exact absurd ht (hno more)

/-- One directory of a discovery. -/
theorem discoverIn_cons : (discoverIn directory (name :: rest) count r : StateM FileSystem _) files =
    match candidate? files directory name with
    | none => (discoverIn directory rest count r : StateM FileSystem _) files
    | some (.error cause) => ((.error (.manifest cause), r), files)
    | some (.ok m) =>
      match r.register m with
      | .error cause => ((.error cause, r), files)
      | .ok r' => (discoverIn directory rest (count + 1) r' : StateM FileSystem _) files := by
  have hisFile (path : String) : (FileAccess.isFile path : StateM FileSystem Bool) files = (files.isFile path, files) := rfl
  rw [discoverIn]
  simp only [bind, StateT.bind, hisFile, candidate?]
  cases hf : files.isFile (Path.join (Path.join directory name) manifestFile) with
  | false => rfl
  | true =>
    simp only [if_true, bind, StateT.bind, Manifest.load_apply]
    cases Manifest.inFile files (Path.join (Path.join directory name) manifestFile) with
    | error cause => rfl
    | ok manifest =>
      simp only [Except.map]
      cases r.register (Mod.ofManifest name manifest) <;> rfl

/-- A discovery takes the longest part of the directories that can be taken, and succeeds if that is all of them. -/
theorem discoverIn_longest (hr : r.names.Nodup) : ∃ result before,
    (discoverIn directory listing count r : StateM FileSystem _) files =
      ((result, ⟨r.mods ++ found files directory before⟩), files) ∧
    Longest r files directory listing before ∧
    ∀ n, result = .ok n ↔ before = listing ∧ n = count + (found files directory before).length := by
  induction listing generalizing r count with
  | nil =>
    refine ⟨.ok count, [], ?_, ⟨List.nil_prefix, takes_nil hr, fun _ hl _ => hl⟩, fun n => ?_⟩
    · rw [discoverIn, found, List.filterMap_nil, List.append_nil]
      rfl
    · simp [found, eq_comm]
  | cons name rest ih =>
    rw [discoverIn_cons]
    -- Where a directory is refused, no part that goes beyond it can be taken.
    have stop {cause : RegistryError} (hno : ∀ l, ¬ Takes r files directory (name :: l)) : ∃ result before,
        ((Except.error cause, r), files) = ((result, Registry.mk (r.mods ++ found files directory before)), files) ∧
        Longest r files directory (name :: rest) before ∧
        ∀ n : Nat, result = .ok n ↔ before = name :: rest ∧ n = count + (found files directory before).length :=
      ⟨.error cause, [], by simp [found], longest_nil hr hno, by simp⟩
    cases hc : candidate? files directory name with
    | none =>
      obtain ⟨result, before, hrun, hlongest, hok⟩ := @ih r count hr
      refine ⟨result, name :: before, ?_, hlongest.cons fun l => takes_passed hc, fun n => ?_⟩
      · rw [found_passed hc, hrun]
      · rw [found_passed hc, hok, List.cons_inj_right]
    | some loaded =>
      cases loaded with
      | error cause => exact stop fun l ht => ht.loads name List.mem_cons_self cause hc
      | ok m =>
        by_cases hm : m.name ∈ r.names
        · dsimp only
          rw [register_known hm]
          refine stop fun l ht => ?_
          have hfresh := ht.fresh
          rw [found_taken hc] at hfresh
          exact List.disjoint_of_nodup_append hfresh hm List.mem_cons_self
        · dsimp only
          rw [register_new hm]
          have hr' : (Registry.mk (r.mods ++ [m])).names.Nodup := by
            rw [names, List.map_append]
            exact List.concat_eq_append ▸ hr.concat hm
          obtain ⟨result, before, hrun, hlongest, hok⟩ := @ih ⟨r.mods ++ [m]⟩ (count + 1) hr'
          refine ⟨result, name :: before, ?_, hlongest.cons fun l => takes_taken hc, fun n => ?_⟩
          · rw [found_taken hc]
            simpa using hrun
          · rw [found_taken hc, hok, List.cons_inj_right, List.length_cons, Nat.add_right_comm, Nat.add_assoc]

/-- The names of the directories in a directory, each before those that come after it in the order of names. A file holds none. -/
def Lists (files : FileSystem) (directory : String) (listing : List String) : Prop :=
  listing.Pairwise (· ≤ ·) ∧
    if files.isFile directory then listing = [] else ∃ given, files.subdirectories directory = .ok given ∧ listing.Perm given

theorem sorted_lists {given : List String} (hno : files.isFile directory = false)
    (h : files.subdirectories directory = .ok given) :
    Lists files directory (given.mergeSort fun a b => decide (a ≤ b)) := by
  refine ⟨?_, by rw [hno]; exact ⟨given, h, List.mergeSort_perm given _⟩⟩
  have htrans (a b c : String) (hab : decide (a ≤ b) = true) (hbc : decide (b ≤ c) = true) : decide (a ≤ c) = true := by
    simpa using String.le_trans (by simpa using hab) (by simpa using hbc)
  have htotal (a b : String) : (decide (a ≤ b) || decide (b ≤ a)) = true := by simpa using String.le_total a b
  exact (List.pairwise_mergeSort htrans htotal given).imp fun hab => by simpa using hab

/-! ## Calls -/

/-- A change that is asked of a registry. The files may be others at each discovery. -/
inductive Call where
  | register (m : Mod)
  | discover (files : FileSystem) (directory : String)

/-- How many mods a call takes, or why it fails, and the registry after it. -/
def answer (r : Registry) : Call → Except RegistryError Nat × Registry
  | .register m =>
    match r.register m with
    | .ok r' => (.ok 1, r')
    | .error cause => (.error cause, r)
  | .discover files directory => ((r.discover directory : StateM FileSystem _) files).1

/-- The registry that calls build. -/
def run (calls : List Call) : Registry := calls.foldl (fun r call => (r.answer call).2) empty

/-- What a call may answer and which mods it may add. -/
inductive Effect (r : Registry) : Call → Except RegistryError Nat → List Mod → Prop
  | registered (m : Mod) (hnew : m.name ∉ r.names) : Effect r (.register m) (.ok 1) [m]
  | known (m : Mod) (hknown : m.name ∈ r.names) : Effect r (.register m) (.error (.duplicate m.name)) []
  | unscanned (files : FileSystem) (directory : String) (cause : FileError) (hno : files.isFile directory = false)
      (hscan : files.subdirectories directory = .error cause) :
      Effect r (.discover files directory) (.error (.scan directory cause)) []
  | discovered (files : FileSystem) (directory : String) (listing before : List String) (result : Except RegistryError Nat)
      (hlists : Lists files directory listing) (hlongest : Longest r files directory listing before)
      (hresult : ∀ n, result = .ok n ↔ before = listing ∧ n = (found files directory before).length) :
      Effect r (.discover files directory) result (found files directory before)

theorem discover_apply : (r.discover directory : StateM FileSystem _) files =
    if files.isFile directory then ((.ok 0, r), files)
    else
      match files.subdirectories directory with
      | .error cause => ((.error (.scan directory cause), r), files)
      | .ok given => (discoverIn directory (given.mergeSort fun a b => decide (a ≤ b)) 0 r : StateM FileSystem _) files := by
  have hisFile : (FileAccess.isFile directory : StateM FileSystem Bool) files = (files.isFile directory, files) := rfl
  have hscan : (FileAccess.subdirectories directory : StateM FileSystem _) files = (files.subdirectories directory, files) := rfl
  rw [discover]
  simp only [bind, StateT.bind, hisFile]
  cases files.isFile directory with
  | true => rfl
  | false =>
    simp only [Bool.false_eq_true, if_false, StateT.bind, hscan]
    cases files.subdirectories directory <;> rfl

/-- A registry without repeated names answers a call with one of the effects, and only grows at its end. -/
theorem answer_effect (hr : r.names.Nodup) (call : Call) :
    ∃ more, (r.answer call).2 = ⟨r.mods ++ more⟩ ∧ Effect r call (r.answer call).1 more := by
  cases call with
  | register m =>
    rw [answer]
    by_cases hm : m.name ∈ r.names
    · rw [register_known hm]
      exact ⟨[], by simp, .known m hm⟩
    · rw [register_new hm]
      exact ⟨[m], rfl, .registered m hm⟩
  | discover files directory =>
    rw [answer, discover_apply]
    cases hfile : files.isFile directory with
    | true =>
      refine ⟨[], by simp, ?_⟩
      -- a file in the place of the directory holds no mods, and that is no failure
      have hlists : Lists files directory [] := ⟨.nil, by simp [hfile]⟩
      exact .discovered files directory [] [] (.ok 0) hlists ⟨List.nil_prefix, takes_nil hr, fun _ hl _ => hl⟩
        (by simp [found, eq_comm])
    | false =>
      cases hscan : files.subdirectories directory with
      | error cause => exact ⟨[], by simp, .unscanned files directory cause hfile hscan⟩
      | ok given =>
        obtain ⟨result, before, hrun, hlongest, hresult⟩ := @discoverIn_longest r files directory
          (given.mergeSort fun a b => decide (a ≤ b)) 0 hr
        refine ⟨found files directory before, ?_, ?_⟩
        · simp [hrun]
        · simp only [Bool.false_eq_true, if_false, hrun]
          exact .discovered files directory _ before result (sorted_lists hfile hscan) hlongest (by simpa using hresult)

/-- No effect repeats a name. -/
theorem Effect.nodup {call : Call} {result : Except RegistryError Nat} {more : List Mod} (hr : r.names.Nodup)
    (h : Effect r call result more) : (Registry.mk (r.mods ++ more)).names.Nodup := by
  cases h with
  | registered m hnew =>
    rw [names, List.map_append]
    exact List.concat_eq_append ▸ hr.concat hnew
  | known m hknown => simpa using hr
  | unscanned files directory cause hno hscan => simpa using hr
  | discovered files directory listing before result hlists hlongest hresult =>
    rw [names, List.map_append]
    exact hlongest.takes.fresh

theorem run_append (calls : List Call) (call : Call) : run (calls ++ [call]) = ((run calls).answer call).2 := by
  rw [run, List.foldl_append]
  rfl

theorem run_nodup (calls : List Call) : (run calls).names.Nodup := by
  induction calls using List.reverseRecOn with
  | nil => exact .nil
  | append_singleton calls call ih =>
    rw [run_append]
    obtain ⟨more, hmore, heffect⟩ := answer_effect ih call
    exact hmore ▸ heffect.nodup ih

theorem run_prefix (calls later : List Call) : (run calls).mods <+: (run (calls ++ later)).mods := by
  induction later using List.reverseRecOn with
  | nil => simp
  | append_singleton later call ih =>
    rw [← List.append_assoc, run_append]
    obtain ⟨more, hmore, -⟩ := answer_effect (run_nodup (calls ++ later)) call
    exact hmore ▸ ih.trans (List.prefix_append _ more)

/-! ## Patches -/

/-- Is a version in the mod's range, or unknown? -/
def Admits (version : Option String) (m : Mod) : Prop := ∀ v ∈ version, Version.meets v m.versionRange = .ok true

instance (version : Option String) : DecidablePred (Admits version) := fun m => by
  unfold Admits
  infer_instance

/-- Can a version not be compared with the mod's range? -/
def Fails (version : Option String) (m : Mod) (cause : Version.Error) : Prop :=
  ∃ v ∈ version, Version.meets v m.versionRange = .error cause

/-- The patches that a mod has for no file in particular or for the file that a bundle is. -/
def listed (bundle : String) (m : Mod) : List Patch :=
  (m.patches.filter fun p => p.file = none ∨ p.file = Path.fileName? bundle).map TargetedPatch.patch

theorem patchesFor_listed (bundle : String) (m : Mod) : m.patchesFor (Path.fileName? bundle) = listed bundle m := by
  rw [Mod.patchesFor, listed]
  congr 2
  funext p
  unfold TargetedPatch.isFor
  cases p.file <;> cases Path.fileName? bundle <;> simp

variable {version : Option String}

theorem appliesTo_admits (h : ∀ cause, ¬ Fails version m cause) : m.appliesTo version = .ok (decide (Admits version m)) := by
  unfold Mod.appliesTo
  cases version with
  | none => simp [Admits]
  | some v =>
    cases hv : Version.meets v m.versionRange with
    | error cause => exact absurd ⟨v, rfl, hv⟩ (h cause)
    | ok meets => cases meets <;> simp [Admits, hv]

theorem Fails.appliesTo {cause : Version.Error} (h : Fails version m cause) : m.appliesTo version = .error cause := by
  obtain ⟨v, rfl, hv⟩ := h
  exact hv

theorem patchesFor_admitted {bundle : String} (h : ∀ m ∈ r.mods, ∀ cause, ¬ Fails version m cause) :
    r.patchesFor bundle version = .ok ((r.mods.filter fun m => Admits version m).flatMap (listed bundle)) := by
  unfold patchesFor
  generalize r.mods = mods at h
  induction mods with
  | nil => rfl
  | cons m rest ih =>
    rw [patchesFor.go, appliesTo_admits (h m List.mem_cons_self), ih fun n hn => h n (List.mem_cons_of_mem m hn),
      patchesFor_listed]
    by_cases hm : Admits version m <;> simp [hm, bind, Except.bind, pure, Except.pure]

theorem patchesFor_fails {bundle : String} {before after : List Mod} {cause : Version.Error}
    (hmods : r.mods = before ++ m :: after) (hbefore : ∀ other ∈ before, ∀ cause, ¬ Fails version other cause)
    (hm : Fails version m cause) : r.patchesFor bundle version = .error cause := by
  unfold patchesFor
  rw [hmods]
  clear hmods
  induction before with
  | nil =>
    rw [List.nil_append, patchesFor.go, hm.appliesTo]
    rfl
  | cons first rest ih =>
    rw [List.cons_append, patchesFor.go, appliesTo_admits (hbefore first List.mem_cons_self),
      ih fun n hn => hbefore n (List.mem_cons_of_mem first hn)]
    rfl

/-- Of mods of which one fails, one fails first. -/
theorem fails_first (version : Option String) (mods : List Mod) :
    (∀ m ∈ mods, ∀ cause, ¬ Fails version m cause) ∨
    ∃ before m after cause, mods = before ++ m :: after ∧ (∀ other ∈ before, ∀ cause, ¬ Fails version other cause) ∧
      Fails version m cause := by
  induction mods with
  | nil => exact .inl nofun
  | cons first rest ih =>
    by_cases hfirst : ∃ cause, Fails version first cause
    · obtain ⟨cause, hcause⟩ := hfirst
      exact .inr ⟨[], first, rest, cause, rfl, nofun, hcause⟩
    · rw [not_exists] at hfirst
      rcases ih with hall | ⟨before, m, after, cause, rfl, hbefore, hm⟩
      · exact .inl (List.forall_mem_cons.2 ⟨hfirst, hall⟩)
      · exact .inr ⟨first :: before, m, after, cause, rfl, List.forall_mem_cons.2 ⟨hfirst, hbefore⟩, hm⟩

theorem patchesFor_cases (r : Registry) (bundle : String) (version : Option String) :
    ((∀ m ∈ r.mods, ∀ cause, ¬ Fails version m cause) ∧
      r.patchesFor bundle version = .ok ((r.mods.filter fun m => Admits version m).flatMap (listed bundle))) ∨
    ∃ before m after cause, r.mods = before ++ m :: after ∧ (∀ other ∈ before, ∀ cause, ¬ Fails version other cause) ∧
      Fails version m cause ∧ r.patchesFor bundle version = .error cause := by
  rcases fails_first version r.mods with hall | ⟨before, m, after, cause, hmods, hbefore, hm⟩
  · exact .inl ⟨hall, patchesFor_admitted hall⟩
  · exact .inr ⟨before, m, after, cause, hmods, hbefore, hm, patchesFor_fails hmods hbefore hm⟩

/-- The patches of one more mod come after those there are. -/
theorem patchesFor_more {bundle : String} {patches : List Patch} (h : r.patchesFor bundle version = .ok patches)
    (hm : ∀ cause, ¬ Fails version m cause) : (Registry.mk (r.mods ++ [m])).patchesFor bundle version =
      .ok (patches ++ if Admits version m then listed bundle m else []) := by
  rcases patchesFor_cases r bundle version with ⟨hall, hok⟩ | ⟨_, _, _, _, _, _, _, herror⟩
  · obtain rfl : _ = patches := by simpa [hok] using h
    rw [patchesFor_admitted (List.forall_mem_append.2 ⟨hall, by simpa using hm⟩)]
    by_cases hadmits : Admits version m <;> simp [hadmits]
  · rw [herror] at h
    cases h

/-! ## Laws -/

/-- However a registry was built, its names differ, a call adds to it what `Effect` says and keeps what was there, and its
patches are those of the mods that admit the version, as far as all versions can be compared. -/
theorem run_laws (calls : List Call) :
    (run calls).names.Nodup ∧
    (∀ later, (run calls).mods <+: (run (calls ++ later)).mods) ∧
    (∀ call, ∃ more, (run (calls ++ [call])).mods = (run calls).mods ++ more ∧
      Effect (run calls) call ((run calls).answer call).1 more) ∧
    ∀ bundle version,
      (((∀ m ∈ (run calls).mods, ∀ cause, ¬ Fails version m cause) ∧ (run calls).patchesFor bundle version =
          .ok (((run calls).mods.filter fun m => Admits version m).flatMap (listed bundle))) ∨
        ∃ before m after cause, (run calls).mods = before ++ m :: after ∧
          (∀ other ∈ before, ∀ cause, ¬ Fails version other cause) ∧ Fails version m cause ∧
          (run calls).patchesFor bundle version = .error cause) ∧
      ∀ m patches, (run calls).patchesFor bundle version = .ok patches → m.name ∉ (run calls).names →
        (∀ cause, ¬ Fails version m cause) →
        (run (calls ++ [.register m])).patchesFor bundle version =
          .ok (patches ++ if Admits version m then listed bundle m else []) := by
  refine ⟨run_nodup calls, run_prefix calls, fun call => ?_, fun bundle version => ⟨patchesFor_cases _ bundle version, ?_⟩⟩
  · obtain ⟨more, hmore, heffect⟩ := answer_effect (run_nodup calls) call
    refine ⟨more, ?_, heffect⟩
    rw [run_append, hmore]
  · intro m patches hpatches hnew hm
    rw [run_append, answer, register_new hnew]
    exact patchesFor_more hpatches hm

/-- A second mod of a name is refused, and a mod for older versions adds no patch. -/
theorem refused_and_older :
    (run [.register ⟨"core", none, [⟨⟨"core/start", .replace "a" "b" none⟩, none⟩]⟩, .register ⟨"core", none, []⟩,
      .register ⟨"compat", some "<1.0.0", [⟨⟨"compat/fix", .replace "c" "d" none⟩, none⟩]⟩]).patchesFor
        "dist/game.js" (some "1.2.0") = .ok [⟨"core/start", .replace "a" "b" none⟩] := by
  have hold : Version.meets "1.2.0" (some "<1.0.0") = .ok false := by decide +kernel
  refine ((run_laws [.register ⟨"core", none, [⟨⟨"core/start", .replace "a" "b" none⟩, none⟩]⟩,
    .register ⟨"core", none, []⟩]).2.2.2 "dist/game.js" (some "1.2.0")).2 _ [⟨"core/start", .replace "a" "b" none⟩] rfl
      (by decide) ?_ |>.trans ?_
  · rintro cause ⟨v, hv, hcause⟩
    obtain rfl : "1.2.0" = v := by simpa using hv
    cases hold.symm.trans hcause
  · simp [Admits, hold]

end Registry
end Graft
