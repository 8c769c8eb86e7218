import Graft.Proofs.Manifest.Valid
import Graft.Proofs.Mods.Registry
import Mathlib.Data.List.Pairwise
/-!
# Identifiers of patches

The id of a patch is the name of its mod and its id in the manifest, with a slash between them. Both parts may hold slashes, so
that the whole does not always tell where the one ends: ids are repeated exactly where the name of one mod goes on after a slash
from the name of another, and ids of the other go on in the same way (`Registry.run_ids_nodup_iff`).
-/

namespace Graft

/-! ## Ids in a manifest -/

/-- A text split at a slash in two ways: the longer first part goes on from the shorter one. -/
theorem slash_split {a b x y : String} (h : a ++ "/" ++ x = b ++ "/" ++ y) :
    (a = b ∧ x = y) ∨ (∃ rest, b = a ++ "/" ++ rest ∧ x = rest ++ "/" ++ y) ∨
      ∃ rest, a = b ++ "/" ++ rest ∧ y = rest ++ "/" ++ x := by
  have hchars : a.toList ++ '/' :: x.toList = b.toList ++ '/' :: y.toList := by simpa using congrArg String.toList h
  have text {s t u : String} (ht : s.toList = t.toList ++ '/' :: u.toList) : s = t ++ "/" ++ u := by
    apply String.toList_injective
    simpa using ht
  rcases List.append_eq_append_iff.1 hchars with ⟨middle, hb, hx⟩ | ⟨middle, ha, hy⟩
  · cases middle with
    | nil => exact .inl ⟨String.toList_injective (by simpa using hb.symm), String.toList_injective (by simpa using hx)⟩
    | cons c rest =>
      obtain ⟨rfl, hx⟩ := List.cons.inj hx
      exact .inr (.inl ⟨String.ofList rest, text (by simpa using hb), text (by simpa using hx)⟩)
  · cases middle with
    | nil => exact .inl ⟨String.toList_injective (by simpa using ha), String.toList_injective (by simpa using hy.symm)⟩
    | cons c rest =>
      obtain ⟨rfl, hy⟩ := List.cons.inj hy
      exact .inr (.inr ⟨String.ofList rest, text (by simpa using ha), text (by simpa using hy)⟩)

namespace Manifest

theorem idIssues_nil {earlier : List String} {id : String} (h : idIssues earlier id = []) : id ∉ earlier := by
  intro hid
  unfold idIssues at h
  split at h
  · cases h
  · rw [if_pos (List.contains_iff_mem.2 hid)] at h
    cases h

theorem definitionIssues_ids {ds : List Definition} {earlier : List String} (h : definitionIssues earlier ds = []) :
    (ds.map Definition.id).Nodup ∧ ∀ d ∈ ds, d.id ∉ earlier := by
  induction ds generalizing earlier with
  | nil => exact ⟨.nil, nofun⟩
  | cons d rest ih =>
    rw [definitionIssues, List.append_eq_nil_iff, List.append_eq_nil_iff] at h
    obtain ⟨⟨hid, -⟩, hrest⟩ := h
    obtain ⟨hnodup, hfresh⟩ := ih hrest
    constructor
    · rw [List.map_cons, List.nodup_cons]
      refine ⟨fun hd => ?_, hnodup⟩
      obtain ⟨d', hd', hsame⟩ := List.mem_map.1 hd
      exact hfresh d' hd' (hsame ▸ List.mem_cons_self)
    · intro d' hd'
      rcases List.mem_cons.1 hd' with rfl | hd'
      · exact idIssues_nil hid
      · exact fun hearlier => hfresh d' hd' (List.mem_cons_of_mem d.id hearlier)

theorem issues_ids {m : Manifest} (h : m.issues = []) : (m.patches.map Definition.id).Nodup := by
  rw [issues, List.append_eq_nil_iff] at h
  exact (definitionIssues_ids h.2).1

end Manifest

/-! ## Ids in a registry -/

/-- The mod comes from a valid manifest. -/
def Mod.Manifested (m : Mod) : Prop := ∃ other manifest, manifest.issues = [] ∧ m = Mod.ofManifest other manifest

namespace Registry

variable {m n : Mod} {bundle : String}

/-- No mod comes in by the call but from a valid manifest. A discovery only takes such. -/
def Call.Manifested : Call → Prop
  | .register m => m.Manifested
  | .discover _ _ => True

theorem inFile_issues {files : FileSystem} {path : String} {manifest : Manifest}
    (h : Manifest.inFile files path = .ok manifest) : manifest.issues = [] := by
  unfold Manifest.inFile at h
  split at h
  next text _ =>
    cases hread : Manifest.ofToml text with
    | error cause =>
      rw [hread] at h
      cases h
    | ok read =>
      rw [hread] at h
      cases h
      unfold Manifest.ofToml at hread
      split at hread
      next given _ =>
        obtain ⟨rfl, hissues⟩ := Manifest.validated_issues hread
        exact hissues
      next => cases hread
  next => cases h

theorem found_manifested {files : FileSystem} {directory : String} {listing : List String} :
    ∀ m ∈ found files directory listing, m.Manifested := by
  intro m hm
  obtain ⟨name, -, hname⟩ := List.mem_filterMap.1 hm
  simp only [candidate?] at hname
  split at hname
  · cases hload : Manifest.inFile files (Path.join (Path.join directory name) manifestFile) with
    | error cause =>
      rw [hload] at hname
      cases hname
    | ok manifest =>
      rw [hload] at hname
      cases hname
      exact ⟨name, manifest, inFile_issues hload, rfl⟩
  · cases hname

theorem Effect.manifested {r : Registry} {call : Call} {result : Except RegistryError Nat} {more : List Mod}
    (h : Effect r call result more) (hcall : call.Manifested) : ∀ m ∈ more, m.Manifested := by
  cases h with
  | registered m hnew => exact fun n hn => List.mem_singleton.1 hn ▸ hcall
  | known | unscanned => nofun
  | discovered => exact found_manifested

theorem run_manifested {calls : List Call} (h : ∀ call ∈ calls, call.Manifested) :
    ∀ m ∈ (run calls).mods, m.Manifested := by
  induction calls using List.reverseRecOn with
  | nil => nofun
  | append_singleton calls call ih =>
    rw [List.forall_mem_append] at h
    rw [run_append]
    obtain ⟨more, hmore, heffect⟩ := answer_effect (run_nodup calls) call
    rw [hmore]
    exact List.forall_mem_append.2 ⟨ih h.1, heffect.manifested (h.2 call (List.mem_singleton_self call))⟩

/-- The ids that a mod has for a bundle. -/
def ids (bundle : String) (m : Mod) : List String := (listed bundle m).map Patch.id

/-- The ids of a manifest's patches for a bundle, as they are written in it. -/
def writtenIds (bundle : String) (manifest : Manifest) : List String :=
  (manifest.patches.filter fun d => d.file = none ∨ d.file = Path.fileName? bundle).map Manifest.Definition.id

theorem ids_ofManifest (bundle other : String) (manifest : Manifest) : ids bundle (Mod.ofManifest other manifest) =
    (writtenIds bundle manifest).map fun id => (Mod.ofManifest other manifest).name ++ "/" ++ id := by
  simp only [ids, listed, writtenIds, Mod.ofManifest, List.filter_map, List.map_map]
  rfl

/-- Every id of a mod has the name of the mod before it. -/
theorem ids_named (hm : m.Manifested) {whole : String} (h : whole ∈ ids bundle m) : ∃ id, whole = m.name ++ "/" ++ id := by
  obtain ⟨other, manifest, -, rfl⟩ := hm
  rw [ids_ofManifest] at h
  obtain ⟨id, -, rfl⟩ := List.mem_map.1 h
  exact ⟨id, rfl⟩

theorem ids_nodup (hm : m.Manifested) : (ids bundle m).Nodup := by
  obtain ⟨other, manifest, hissues, rfl⟩ := hm
  have hwritten : (writtenIds bundle manifest).Nodup := (Manifest.issues_ids hissues).sublist (List.filter_sublist.map _)
  rw [ids_ofManifest]
  refine hwritten.map fun id id' hsame => ?_
  simpa using hsame

/-- One of the mods for a version has this name, and a patch for the bundle with this id behind the name. -/
def Offers (r : Registry) (bundle : String) (version : Option String) (name id : String) : Prop :=
  ∃ m ∈ r.mods, Admits version m ∧ m.name = name ∧ name ++ "/" ++ id ∈ ids bundle m

theorem Offers.of_mem {r : Registry} {version : Option String} {name id : String}
    (hm : m ∈ r.mods.filter fun m => Admits version m) (hname : m.name = name) (hid : name ++ "/" ++ id ∈ ids bundle m) :
    r.Offers bundle version name id := by
  obtain ⟨hmem, hadmits⟩ := List.mem_filter.1 hm
  exact ⟨m, hmem, by simpa using hadmits, hname, hid⟩

/-- Two mods have an id in common only if the name of one goes on from the name of the other. -/
theorem ids_disjoint {r : Registry} {version : Option String} (hr : ∀ m ∈ r.mods, m.Manifested)
    (hno : ¬ ∃ name rest id,
      r.Offers bundle version name (rest ++ "/" ++ id) ∧ r.Offers bundle version (name ++ "/" ++ rest) id)
    (hm : m ∈ r.mods.filter fun m => Admits version m) (hn : n ∈ r.mods.filter fun m => Admits version m)
    (hne : m.name ≠ n.name) : (ids bundle m).Disjoint (ids bundle n) := by
  intro whole hwholem hwholen
  obtain ⟨x, hx⟩ := ids_named (hr m (List.mem_of_mem_filter hm)) hwholem
  obtain ⟨y, hy⟩ := ids_named (hr n (List.mem_of_mem_filter hn)) hwholen
  rcases slash_split (hx.symm.trans hy) with ⟨hsame, -⟩ | ⟨rest, hname, rfl⟩ | ⟨rest, hname, rfl⟩
  · exact hne hsame
  · refine hno ⟨m.name, rest, y, .of_mem hm rfl (hx ▸ hwholem), .of_mem hn hname ?_⟩
    exact hname ▸ hy ▸ hwholen
  · refine hno ⟨n.name, rest, x, .of_mem hn rfl (hy ▸ hwholen), .of_mem hm hname ?_⟩
    exact hname ▸ hx ▸ hwholem

/-- The ids of the patches for a bundle differ, unless the name of a mod goes on from that of another one and an id of the other
goes on in the same way. -/
theorem run_ids_nodup_iff {calls : List Call} (h : ∀ call ∈ calls, call.Manifested) {bundle : String} {version : Option String}
    {patches : List Patch} (hpatches : (run calls).patchesFor bundle version = .ok patches) :
    (patches.map Patch.id).Nodup ↔ ¬ ∃ name rest id,
      (run calls).Offers bundle version name (rest ++ "/" ++ id) ∧
      (run calls).Offers bundle version (name ++ "/" ++ rest) id := by
  have hmods := run_manifested h
  have hnames : ((run calls).mods.map Mod.name).Nodup := run_nodup calls
  generalize run calls = r at hpatches hmods hnames
  rcases patchesFor_cases r bundle version with ⟨-, hok⟩ | ⟨_, _, _, _, _, _, _, herror⟩
  · obtain rfl : _ = patches := by simpa [hok] using hpatches
    rw [List.map_flatMap, List.nodup_flatMap]
    change (_ ∧ List.Pairwise (Function.onFun List.Disjoint (ids bundle)) _) ↔ _
    constructor
    · rintro ⟨-, hapart⟩ ⟨name, rest, id, ⟨m, hm, hadmitsm, rfl, hidm⟩, n, hn, hadmitsn, hname, hidn⟩
      -- the name of the one is longer, by the slash and more, so they are two mods
      have hne : m ≠ n := by
        rintro rfl
        have hlength := congrArg String.length hname
        have hslash : "/".length = 1 := rfl
        rw [String.length_append, String.length_append, hslash] at hlength
        omega
      have hsymm : Std.Symm (Function.onFun List.Disjoint (ids bundle)) := ⟨fun _ _ hd => List.disjoint_symm hd⟩
      have hdisjoint := hapart.forall (List.mem_filter.2 ⟨hm, by simpa using hadmitsm⟩)
        (List.mem_filter.2 ⟨hn, by simpa using hadmitsn⟩) hne
      refine hdisjoint hidm ?_
      simpa [String.append_assoc] using hidn
    · intro hno
      -- within a mod identifiers are distinct, and between two that share one a slash would move
      refine ⟨fun m hm => ids_nodup (hmods m (List.mem_of_mem_filter hm)), ?_⟩
      have hfiltered : ((r.mods.filter fun m => Admits version m).map Mod.name).Nodup :=
        hnames.sublist (List.filter_sublist.map _)
      refine (List.pairwise_map.1 hfiltered).imp_of_mem fun hm hn hne => ?_
      exact ids_disjoint hmods hno hm hn hne
  · rw [herror] at hpatches
    cases hpatches

/-- The call that registers the mod of a manifest with one patch. -/
def registerOne (name id : String) : Call :=
  .register (.ofManifest "" { name := name, description := none, versionRange := none,
                              patches := [{ id := id, file := none, operation := .replace "x" "y" none }] })

/-- The name of one mod goes on from the name of the other, but the ids do not. -/
theorem nested_ids_nodup : (∀ call ∈ [registerOne "core" "ui", registerOne "core/ui" "start"], call.Manifested) ∧
    ((run [registerOne "core" "ui", registerOne "core/ui" "start"]).patchesFor "game.js" none).map (·.map Patch.id) =
      .ok ["core/ui", "core/ui/start"] ∧
    ¬ ∃ name rest id,
      (run [registerOne "core" "ui", registerOne "core/ui" "start"]).Offers "game.js" none name (rest ++ "/" ++ id) ∧
      (run [registerOne "core" "ui", registerOne "core/ui" "start"]).Offers "game.js" none (name ++ "/" ++ rest) id := by
  have hcalls : ∀ call ∈ [registerOne "core" "ui", registerOne "core/ui" "start"], call.Manifested := by
    intro call hcall
    rcases List.mem_pair.1 hcall with rfl | rfl
    · exact ⟨"", _, by decide +kernel, rfl⟩
    · exact ⟨"", _, by decide +kernel, rfl⟩
  refine ⟨hcalls, rfl, ?_⟩
  exact (run_ids_nodup_iff hcalls rfl).1 (by decide +kernel)

/-- The mods of two valid manifests have one id. -/
theorem slashes_repeat_id : (∀ call ∈ [registerOne "a" "b/c", registerOne "a/b" "c"], call.Manifested) ∧
    ∃ patches, (run [registerOne "a" "b/c", registerOne "a/b" "c"]).patchesFor "game.js" none = .ok patches ∧
      patches.map Patch.id = ["a/b/c", "a/b/c"] ∧ ¬ (patches.map Patch.id).Nodup := by
  constructor
  · intro call hcall
    rcases List.mem_pair.1 hcall with rfl | rfl
    · exact ⟨"", _, by decide +kernel, rfl⟩
    · exact ⟨"", _, by decide +kernel, rfl⟩
  · exact ⟨_, rfl, rfl, by decide +kernel⟩

end Registry
end Graft
