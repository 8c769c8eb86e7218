import Graft.Proofs.Files.Replacing
/-!
# Files on a machine that refuses

Any step in which a file is replaced can be refused: making the temporary file, filling it, having it stored, and moving it into
place. Wherever that happens, the temporary file is removed and nothing has changed (`writeIfChanged_atomic`).
-/

namespace Graft

/-! ## Refusals -/

/-- What a machine refuses when a file is replaced, and why. -/
structure Refusals where
  create : Option FileError := none
  /-- With what the file holds by then. -/
  write : Option (FileError × ByteArray) := none
  sync : Option FileError := none
  rename : Option FileError := none

namespace FileSystem

/-- Replaces a file, or makes it, in a directory, as far as no step is refused. -/
def replaceInUnder (refusals : Refusals) (fs : FileSystem) (directory : Location) (path : String) (content : ByteArray) :
    Except FileError Unit × FileSystem :=
  match refusals.create with
  | some cause => (.error cause, fs)
  | none =>
    let temporary := directory ++ [fs.freshName]
    let created := fs.put temporary (.file .empty)
    match refusals.write with
    | some (cause, part) => (.error cause, (created.put temporary (.file part)).remove temporary)
    | none =>
      let written := created.put temporary (.file content)
      match refusals.sync <|> refusals.rename with
      | some cause => (.error cause, written.remove temporary)
      | none =>
        match written.rename temporary path with
        | .ok renamed => (.ok (), renamed)
        | .error cause => (.error cause, written.remove temporary)

/-- Replaces the file at a path, or makes it, as far as no step is refused. -/
def replaceFileUnder (refusals : Refusals) (fs : FileSystem) (path text : String) : Except FileError Unit × FileSystem :=
  match (Path.parent? path).elim (.error .notFound) fs.locateDirectory with
  | .ok directory => fs.replaceInUnder refusals directory path text.toUTF8
  | .error e => (.error e, fs)

end FileSystem

instance : FileAccess (ReaderT Refusals (StateM FileSystem)) where
  readText path := do return (← get).readText path
  isFile path := do return (← get).isFile path
  subdirectories path := do return (← get).subdirectories path
  replaceFile path text := fun refusals fs => fs.replaceFileUnder refusals path text

namespace FileSystem

variable {fs fs' : FileSystem} {l : Location} {e e' : Entry} {path text : String}

/-- A second entry takes the place of the first where nothing was before. -/
theorem put_put (h : fs.entries.lookup l = none) : (fs.put l e).put l e' = fs.put l e' := by
  have hplaces : ∀ entry ∈ fs.entries, (if entry.1 = l then (l, e') else entry) = entry := by
    intro entry hentry
    have hne := List.lookup_eq_none_iff.1 h entry hentry
    rw [if_neg]
    rintro rfl
    simp at hne
  have hlookup : (fs.put l e).entries.lookup l = some e := by
    simp [put, h, List.lookup_append]
  have hput (e : Entry) : (fs.put l e).entries = fs.entries ++ [(l, e)] := by
    simp [put, h]
  rw [put, if_pos (by rw [hlookup]; rfl)]
  rw [hput, List.map_append, List.map_congr_left hplaces]
  simp [put, h]

/-- Without refusals a file is replaced, and with them at worst nothing happens. -/
theorem replaceInUnder_cases (refusals : Refusals) (fs : FileSystem) (directory : Location) (path : String) (content : ByteArray) :
    fs.replaceInUnder refusals directory path content = fs.replaceIn directory path content ∨
    refusals ≠ {} ∧ ∃ cause, fs.replaceInUnder refusals directory path content = (.error cause, fs) := by
  obtain ⟨create, write, sync, rename⟩ := refusals
  have hnew : fs.entries.lookup (directory ++ [fs.freshName]) = none := lookup_fresh directory
  unfold replaceInUnder replaceIn
  cases create with
  | some cause => exact .inr ⟨by simp, cause, rfl⟩
  | none =>
    cases write with
    | some refused =>
      refine .inr ⟨by simp, refused.1, ?_⟩
      dsimp only
      rw [put_put hnew, remove_put hnew]
    | none =>
      dsimp only
      rw [put_put hnew]
      cases hlast : (sync <|> rename) with
      | none => exact .inl rfl
      | some cause =>
        refine .inr ⟨?_, cause, ?_⟩
        · rintro ⟨⟩
          cases hlast
        · dsimp only
          rw [remove_put hnew]

theorem replaceFileUnder_cases (refusals : Refusals) (fs : FileSystem) (path text : String) :
    fs.replaceFileUnder refusals path text = fs.replaceFile path text ∨
    refusals ≠ {} ∧ ∃ cause, fs.replaceFileUnder refusals path text = (.error cause, fs) := by
  unfold replaceFileUnder replaceFile
  cases (Path.parent? path).elim (.error .notFound) fs.locateDirectory with
  | error cause => exact .inl rfl
  | ok directory => exact replaceInUnder_cases refusals fs directory path text.toUTF8

/-! ## What files hold -/

/-- The file at a path holds exactly a text. -/
def Holds (fs : FileSystem) (path text : String) : Prop :=
  ∃ l, fs.locate path = .ok l ∧ fs.get? l = some (.file text.toUTF8)

theorem fromUTF8?_eq_some {content : ByteArray} : String.fromUTF8? content = some text ↔ content = text.toUTF8 := by
  constructor
  · intro h
    unfold String.fromUTF8? at h
    split at h
    · cases h
      rfl
    · cases h
  · rintro rfl
    exact fromUTF8?_toUTF8 text

theorem readText_iff : fs.readText path = .ok text ↔ fs.Holds path text := by
  unfold readText Holds
  cases hlocate : fs.locate path with
  | error cause => simp [bind, Except.bind]
  | ok l =>
    simp only [bind, Except.bind, Except.ok.injEq, exists_eq_left']
    cases hentry : fs.get? l with
    | none => simp
    | some e =>
      cases e with
      | directory => simp
      | file content =>
        dsimp only
        rw [Option.some.injEq, Entry.file.injEq, ← fromUTF8?_eq_some]
        cases String.fromUTF8? content <;> simp

/-- A text is written: the file that the path leads to holds exactly it, and every other entry is as it was. -/
structure Written (fs fs' : FileSystem) (path text : String) : Prop where
  current : fs'.current = fs.current
  entries : ∃ l, fs.locate path = .ok l ∧ fs'.locate path = .ok l ∧ fs'.get? l = some (.file text.toUTF8) ∧
    ∀ l' ≠ l, fs'.get? l' = fs.get? l'

theorem Replaced.written (h : Replaced fs fs' path text) : Written fs fs' path text := by
  obtain ⟨l, hlocate, helsewhere⟩ := h.elsewhere
  obtain ⟨l', hlocate', hfile⟩ := readText_iff.1 h.reads
  cases hlocate.symm.trans hlocate'
  refine ⟨h.current, l, locate_mono (fun place hplace => ?_) h.current.symm hlocate, hlocate, hfile, helsewhere⟩
  -- a directory in the new state is no file, so it was there before
  rw [← helsewhere place]
  · exact hplace
  · rintro rfl
    cases hplace.symm.trans hfile

/-! ## Where files can be put -/

/-- A path names a place for a file: in a directory, and not where a directory is. -/
def Placeable (fs : FileSystem) (path : String) : Prop :=
  (∃ parent directory, Path.parent? path = some parent ∧ fs.locateDirectory parent = .ok directory) ∧
  ∃ l, fs.locateTarget path = .ok l

theorem locateTarget_mono (h : ∀ l, fs.get? l = some .directory ↔ fs'.get? l = some .directory)
    (hcurrent : fs'.current = fs.current) (hl : fs.locateTarget path = .ok l) : fs'.locateTarget path = .ok l := by
  obtain ⟨hlocate, hfile⟩ := locateTarget_ok hl
  have hlocate' := locate_mono (fun place => (h place).1) hcurrent hlocate
  unfold locateTarget at hl ⊢
  simp only [hlocate, hlocate', bind, Except.bind] at hl ⊢
  by_cases hname : (Path.pieces path).getLast?.any Path.isName
  · rw [hname, Bool.not_true, if_neg Bool.false_ne_true]
    split
    next hdirectory => exact absurd ((h l).2 hdirectory) hfile
    next => rfl
  · rw [if_pos (by simpa using hname)] at hl
    cases hl

theorem replaceIn_ok_iff (fs : FileSystem) (directory : Location) (path : String) (content : ByteArray) :
    (∃ fs', fs.replaceIn directory path content = (.ok (), fs')) ↔ ∃ l, fs.locateTarget path = .ok l := by
  unfold replaceIn
  dsimp only
  generalize htemporary : directory ++ [fs.freshName] = temporary
  have hroot : temporary ≠ [] := by
    rintro rfl
    simp at htemporary
  have hnew : fs.entries.lookup temporary = none := htemporary ▸ lookup_fresh directory
  have hsame := get?_put_directory hroot hnew content
  have htarget (l : Location) :
      (fs.put temporary (.file content)).locateTarget path = .ok l ↔ fs.locateTarget path = .ok l :=
    ⟨locateTarget_mono hsame put_current.symm, locateTarget_mono (fun place => (hsame place).symm) put_current⟩
  unfold rename
  cases hlocate : (fs.put temporary (.file content)).locateTarget path with
  | error cause =>
    constructor
    · rintro ⟨fs', ⟨⟩⟩
    · rintro ⟨l, hl⟩
      cases hlocate.symm.trans ((htarget l).2 hl)
  | ok l =>
    simp only [bind, Except.bind, get?_put hroot, if_true]
    exact ⟨fun _ => ⟨l, (htarget l).1 hlocate⟩, fun _ => ⟨_, rfl⟩⟩

theorem replaceFile_ok_iff (fs : FileSystem) (path text : String) :
    (∃ fs', fs.replaceFile path text = (.ok (), fs')) ↔ fs.Placeable path := by
  unfold replaceFile Placeable
  cases hparent : Path.parent? path with
  | none => simp
  | some parent =>
    cases hdirectory : fs.locateDirectory parent with
    | error cause => simp [hdirectory]
    | ok directory => simp [hdirectory, replaceIn_ok_iff]

end FileSystem

/-! ## Writing -/

open FileSystem

section
variable {m : Type → Type} [Monad m] [FileAccess m] {δ : Type} [DecidableEq δ]

/-- Writes a text to a path unless the file there holds it, which a digest of both is to tell first. -/
def writeIfChangedBy (digest : String → δ) (path text : String) : m (Except OutputError WriteOutcome) := do
  match ← FileAccess.readText path with
  | .ok old => if digest old = digest text ∧ old = text then return .ok .unchanged else write path text
  | .error _ => write path text

/-- Equal texts have equal digests, so the digests decide nothing. -/
theorem writeIfChangedBy_eq (digest : String → δ) (path text : String) :
    (writeIfChangedBy digest path text : m _) = writeIfChanged path text := by
  unfold writeIfChangedBy writeIfChanged
  congr 1
  funext old
  cases old with
  | error cause => rfl
  | ok old =>
    have hsame : (digest old = digest text ∧ old = text) = (old = text) :=
      propext ⟨And.right, fun h => ⟨congrArg digest h, h⟩⟩
    simp only [hsame]

end

/-- A file system on a machine that may refuse. -/
abbrev Refusing : Type → Type := ReaderT Refusals (StateM FileSystem)

variable {fs : FileSystem} {path text : String}

theorem write_refusals (refusals : Refusals) (fs : FileSystem) (path text : String) :
    (write path text : Refusing _) refusals fs = (write path text : StateM FileSystem _) fs ∨
    refusals ≠ {} ∧ (Path.parent? path).isSome ∧
      ∃ cause, (write path text : Refusing _) refusals fs = (.error (.file path cause), fs) := by
  unfold write
  by_cases hparent : (Path.parent? path).isNone
  · rw [if_pos hparent, if_pos hparent]
    exact .inl rfl
  · have hreplace : (FileAccess.replaceFile path text : StateM FileSystem _) fs = fs.replaceFile path text := rfl
    have hunder : (FileAccess.replaceFile path text : Refusing _) refusals fs = fs.replaceFileUnder refusals path text := rfl
    rw [if_neg hparent, if_neg hparent]
    simp only [bind, ReaderT.bind, StateT.bind, hreplace, hunder]
    rcases replaceFileUnder_cases refusals fs path text with hsame | ⟨hrefused, cause, herror⟩
    · rw [hsame]
      left
      rcases fs.replaceFile path text with ⟨_ | _, fs'⟩ <;> rfl
    · rw [herror]
      exact .inr ⟨hrefused, by simpa [Option.isSome_iff_ne_none] using hparent, cause, rfl⟩

theorem writeIfChanged_refusals (refusals : Refusals) (fs : FileSystem) (path text : String) :
    (writeIfChanged path text : Refusing _) refusals fs = (writeIfChanged path text : StateM FileSystem _) fs ∨
    refusals ≠ {} ∧ (Path.parent? path).isSome ∧ ¬ fs.Holds path text ∧
      ∃ cause, (writeIfChanged path text : Refusing _) refusals fs = (.error (.file path cause), fs) := by
  have hread : (FileAccess.readText path : StateM FileSystem _) fs = (fs.readText path, fs) := rfl
  have hunder : (FileAccess.readText path : Refusing _) refusals fs = (fs.readText path, fs) := rfl
  unfold writeIfChanged
  rw [← readText_iff]
  simp only [bind, ReaderT.bind, StateT.bind, hread, hunder]
  cases fs.readText path with
  | error cause => simpa using write_refusals refusals fs path text
  | ok old =>
    by_cases hsame : old = text
    · subst hsame
      simp only [if_true]
      exact .inl rfl
    · simpa [hsame] using write_refusals refusals fs path text

/-- A text that is there already is not written, whatever would be refused. -/
theorem writeIfChanged_held (h : fs.Holds path text) (refusals : Refusals) :
    (writeIfChanged path text : Refusing _) refusals fs = (.ok .unchanged, fs) := by
  have hread : (FileAccess.readText path : Refusing _) refusals fs = (.ok text, fs) := by
    rw [← readText_iff.2 h]
    rfl
  unfold writeIfChanged
  simp only [bind, ReaderT.bind, StateT.bind, hread, if_true]
  rfl

theorem writeIfChanged_other (h : ¬ fs.Holds path text) :
    (writeIfChanged path text : StateM FileSystem _) fs = (write path text : StateM FileSystem _) fs := by
  have hread : (FileAccess.readText path : StateM FileSystem _) fs = (fs.readText path, fs) := rfl
  rw [← readText_iff] at h
  unfold writeIfChanged
  simp only [bind, StateT.bind, hread]
  cases hold : fs.readText path with
  | error cause => rfl
  | ok old =>
    rw [hold, Except.ok.injEq] at h
    simp only [h, if_false]

/-- The error of a path: it is in no directory, or the file there cannot be replaced. -/
def Blames (path : String) (cause : OutputError) : Prop :=
  Path.parent? path = none ∧ cause = .noParent path ∨ (Path.parent? path).isSome ∧ ∃ reason, cause = .file path reason

/-- A write fails with an error of its path, and succeeds exactly where a file can be put. -/
theorem write_outcome (fs : FileSystem) (path text : String) :
    (∀ cause, ((write path text : StateM FileSystem _) fs).1 = .error cause → Blames path cause) ∧
    ((∃ outcome fs', (write path text : StateM FileSystem _) fs = (.ok outcome, fs')) ↔ fs.Placeable path) := by
  have hreplace : (FileAccess.replaceFile path text : StateM FileSystem _) fs = fs.replaceFile path text := rfl
  rw [← replaceFile_ok_iff fs path text]
  unfold write Blames
  cases hparent : Path.parent? path with
  | none =>
    refine ⟨?_, ?_, ?_⟩
    · rintro cause ⟨⟩
      exact .inl ⟨rfl, rfl⟩
    · rintro ⟨outcome, fs', ⟨⟩⟩
    · rintro ⟨fs', hreplaced⟩
      rw [replaceFile, hparent] at hreplaced
      cases hreplaced
  | some parent =>
    simp only [Option.isNone_some, Bool.false_eq_true, if_false, bind, StateT.bind, hreplace]
    rcases fs.replaceFile path text with ⟨reason | _, fs'⟩
    · refine ⟨?_, ?_, ?_⟩
      · rintro cause ⟨⟩
        exact .inr ⟨rfl, reason, rfl⟩
      · rintro ⟨outcome, fs', ⟨⟩⟩
      · rintro ⟨fs', ⟨⟩⟩
    · exact ⟨nofun, fun _ => ⟨fs', rfl⟩, fun _ => ⟨.written, fs', rfl⟩⟩

/-- On a machine that may refuse any step, a text is either written, with every other entry as it was and no temporary file left,
or the write fails with an error of the path and has changed nothing. The file is left alone exactly if it held the text, as it does
from then on. Where nothing is refused, a write succeeds if the file holds the text or can be put where the path leads. -/
theorem writeIfChanged_atomic (refusals : Refusals) (fs : FileSystem) (path text : String) :
    ((∃ outcome fs', (writeIfChanged path text : Refusing _) refusals fs = (.ok outcome, fs') ∧ Written fs fs' path text ∧
        (outcome = .unchanged ↔ fs.Holds path text) ∧ (outcome = .unchanged → fs' = fs) ∧
        ∀ others, (writeIfChanged path text : Refusing _) others fs' = (.ok .unchanged, fs')) ∨
      ¬ fs.Holds path text ∧
        ∃ cause, (writeIfChanged path text : Refusing _) refusals fs = (.error cause, fs) ∧ Blames path cause) ∧
    ((∃ outcome fs', (writeIfChanged path text : Refusing _) {} fs = (.ok outcome, fs')) ↔
      fs.Holds path text ∨ fs.Placeable path) ∧
    ∀ {δ : Type} [DecidableEq δ] (digest : String → δ),
      (writeIfChangedBy digest path text : Refusing _) = writeIfChanged path text := by
  refine ⟨?_, ?_, fun digest => writeIfChangedBy_eq digest path text⟩
  · by_cases hheld : fs.Holds path text
    · have hreplaced : Replaced fs fs path text := .of_read (readText_iff.2 hheld)
      exact .inl ⟨.unchanged, fs, writeIfChanged_held hheld refusals, hreplaced.written, by simp [hheld], fun _ => rfl,
        writeIfChanged_held hheld⟩
    · rcases writeIfChanged_refusals refusals fs path text with hsame | ⟨-, hparent, -, reason, herror⟩
      · rw [hsame]
        rcases writeIfChanged_cases fs path text with ⟨outcome, fs', hok, hreplaced, hunchanged⟩ | ⟨cause, herror⟩
        · rw [readText_iff] at hunchanged
          exact .inl ⟨outcome, fs', hok, hreplaced.written, hunchanged, fun h => absurd (hunchanged.1 h) hheld,
            writeIfChanged_held (readText_iff.1 hreplaced.reads)⟩
        · refine .inr ⟨hheld, cause, herror, (write_outcome fs path text).1 cause ?_⟩
          rw [← writeIfChanged_other hheld, herror]
      · exact .inr ⟨hheld, .file path reason, herror, .inr ⟨hparent, reason, rfl⟩⟩
  · by_cases hheld : fs.Holds path text
    · simp only [hheld, true_or, iff_true]
      exact ⟨_, _, writeIfChanged_held hheld {}⟩
    · rcases writeIfChanged_refusals {} fs path text with hsame | ⟨hrefused, -⟩
      · rw [hsame, writeIfChanged_other hheld, (write_outcome fs path text).2]
        simp [hheld]
      · exact absurd rfl hrefused

/-- A bundle that is no text. -/
def undecodableBundle : FileSystem where
  current := []
  entries := [(["dist"], .directory), (["dist", "game.js"], .file ⟨#[0xFF]⟩)]

theorem undecodableBundle_written :
    undecodableBundle.Placeable "dist/game.js" ∧ ¬ undecodableBundle.Holds "dist/game.js" "b;" ∧
    ∃ fs', (writeIfChanged "dist/game.js" "b;" : Refusing _) {} undecodableBundle = (.ok .written, fs') ∧
      Written undecodableBundle fs' "dist/game.js" "b;" ∧
      ∀ others, (writeIfChanged "dist/game.js" "b;" : Refusing _) others fs' = (.ok .unchanged, fs') := by
  have hplaceable : undecodableBundle.Placeable "dist/game.js" :=
    ⟨⟨"dist", ["dist"], rfl, rfl⟩, ["dist", "game.js"], rfl⟩
  have hother : ¬ undecodableBundle.Holds "dist/game.js" "b;" := by
    have hundecodable : undecodableBundle.readText "dist/game.js" = .error .notText := rfl
    rw [← readText_iff, hundecodable]
    nofun
  obtain ⟨hcases, hsucceeds, -⟩ := writeIfChanged_atomic {} undecodableBundle "dist/game.js" "b;"
  refine ⟨hplaceable, hother, ?_⟩
  rcases hcases with ⟨outcome, fs', hok, hwritten, hunchanged, -, hagain⟩ | ⟨-, cause, herror, -⟩
  · cases outcome with
    | written => exact ⟨fs', hok, hwritten, hagain⟩
    | unchanged => exact absurd (hunchanged.1 rfl) hother
  · obtain ⟨outcome, fs', hok⟩ := hsucceeds.2 (.inr hplaceable)
    cases herror.symm.trans hok

end Graft
