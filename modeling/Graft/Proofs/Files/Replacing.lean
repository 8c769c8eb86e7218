import Graft.Files.Output
/-!
# Replacing files

A file is replaced or made by way of a temporary file. However that goes, the temporary file is gone afterwards, and if it
fails, nothing has changed; otherwise the file holds the text, and everything else is as it was (`writeIfChanged_apply`).
-/

namespace Graft
namespace FileSystem

variable {fs fs' : FileSystem} {l l' : Location} {e : Entry}

/-! ## Entries -/

theorem lookup_replace (entries : List (Location × Entry)) :
    (entries.map fun entry => if entry.1 = l then (l, e) else entry).lookup l' =
      if l' = l then (entries.lookup l).map fun _ => e else entries.lookup l' := by
  induction entries with
  | nil => simp
  | cons entry rest ih =>
    obtain ⟨place, old⟩ := entry
    rw [List.map_cons, List.lookup_cons, List.lookup_cons, ih]
    by_cases hplace : place = l
    · subst hplace
      by_cases hl : l' = place
      · subst hl
        simp
      · simp [hl, List.lookup_cons, beq_false_of_ne hl]
    · by_cases hl : l' = l
      · subst hl
        simp [hplace, beq_false_of_ne (Ne.symm hplace)]
      · rw [if_neg hplace, if_neg hl, if_neg hl, List.lookup_cons]

theorem get?_put (hl : l ≠ []) : (fs.put l e).get? l' = if l' = l then some e else fs.get? l' := by
  unfold get? put
  by_cases hroot : l' = []
  · subst hroot
    simp [Ne.symm hl]
  · rw [if_neg hroot, if_neg hroot]
    cases hold : fs.entries.lookup l with
    | some old =>
      dsimp only
      rw [if_pos Option.isSome_some, lookup_replace, hold]
      rfl
    | none =>
      dsimp only
      rw [if_neg (by simp), List.lookup_append]
      by_cases hsame : l' = l
      · subst hsame
        simp [hold]
      · simp [hsame, List.lookup_cons, beq_false_of_ne hsame]

@[simp]
theorem put_current : (fs.put l e).current = fs.current := rfl

/-- What is put where nothing was can be removed again. -/
theorem remove_put (h : fs.entries.lookup l = none) : (fs.put l e).remove l = fs := by
  have hplaces : ∀ entry ∈ fs.entries, entry.1 ≠ l := by
    intro entry hentry hplace
    have hne := List.lookup_eq_none_iff.1 h entry hentry
    simp [hplace] at hne
  unfold remove put
  rw [if_neg (by simp [h]), List.filter_append, List.filter_eq_self.2 (by simpa using hplaces)]
  simp

/-- A file makes no difference to directories where nothing was in its place. -/
theorem get?_put_directory (hl : l ≠ []) (h : fs.entries.lookup l = none) (content : ByteArray) (place : Location) :
    (fs.put l (.file content)).get? place = some .directory ↔ fs.get? place = some .directory := by
  rw [get?_put hl]
  by_cases hplace : place = l
  · simp [hplace, get?, hl, h]
  · rw [if_neg hplace]

/-! ## The temporary file -/

theorem le_foldl_max {α : Type} (f : α → Nat) (xs : List α) (start : Nat) :
    start ≤ xs.foldl (fun n x => max n (f x)) start ∧ ∀ x ∈ xs, f x ≤ xs.foldl (fun n x => max n (f x)) start := by
  induction xs generalizing start with
  | nil => exact ⟨Nat.le_refl start, nofun⟩
  | cons first rest ih =>
    obtain ⟨hstart, hrest⟩ := ih (max start (f first))
    rw [List.foldl_cons]
    refine ⟨by omega, fun x hx => ?_⟩
    rcases List.mem_cons.1 hx with rfl | hx
    · omega
    · exact hrest x hx

/-- No entry has the fresh name anywhere in its place. -/
theorem freshName_not_mem {entry : Location × Entry} (h : entry ∈ fs.entries) : fs.freshName ∉ entry.1 := by
  intro hname
  have hentry := (le_foldl_max (fun entry : Location × Entry => (entry.1.map String.length).foldl max 0) fs.entries 0).2 entry h
  have hlongest : fs.freshName.length ≤ (entry.1.map String.length).foldl max 0 :=
    (le_foldl_max (fun n => n) (entry.1.map String.length) 0).2 _ (List.mem_map_of_mem hname)
  have hlength : fs.freshName.length =
      fs.entries.foldl (fun n entry => max n ((entry.1.map String.length).foldl max 0)) 0 + 1 := by
    rw [freshName, String.length_ofList, List.length_cons, List.length_replicate]
  omega

theorem lookup_fresh (directory : Location) : fs.entries.lookup (directory ++ [fs.freshName]) = none := by
  rw [List.lookup_eq_none_iff]
  intro entry hentry
  have hfresh := freshName_not_mem hentry
  rw [bne_iff_ne]
  rintro hplace
  exact hfresh (hplace ▸ by simp)

/-! ## Paths -/

/-- A path leads to the same place where the directories are there as well. -/
theorem follow_mono (h : ∀ l, fs.get? l = some .directory → fs'.get? l = some .directory) {start : Location}
    {pieces : List String} (hl : fs.follow start pieces = .ok l) : fs'.follow start pieces = .ok l := by
  induction pieces generalizing start with
  | nil => exact hl
  | cons piece rest ih =>
    rw [follow] at hl ⊢
    by_cases hidle : Path.isIdle piece
    · rw [if_pos hidle] at hl ⊢
      exact ih hl
    · rw [if_neg hidle] at hl ⊢
      by_cases hup : piece = ".."
      · rw [if_pos hup] at hl ⊢
        exact ih hl
      · rw [if_neg hup] at hl ⊢
        by_cases hlast : rest.isEmpty
        · rw [if_pos hlast] at hl ⊢
          exact hl
        · rw [if_neg hlast] at hl ⊢
          split at hl
          next hdirectory =>
            rw [h _ hdirectory]
            exact ih hl
          next => cases hl
          next => cases hl

theorem locate_mono (h : ∀ l, fs.get? l = some .directory → fs'.get? l = some .directory) (hcurrent : fs'.current = fs.current)
    {path : String} (hl : fs.locate path = .ok l) : fs'.locate path = .ok l := by
  unfold locate at hl ⊢
  by_cases hempty : path.isEmpty
  · rw [if_pos hempty] at hl
    cases hl
  · rw [if_neg hempty] at hl ⊢
    rw [hcurrent]
    exact follow_mono h hl

theorem locateTarget_ok {path : String} (h : fs.locateTarget path = .ok l) :
    fs.locate path = .ok l ∧ fs.get? l ≠ some .directory := by
  unfold locateTarget at h
  cases hlocate : fs.locate path with
  | error cause =>
    rw [hlocate] at h
    cases h
  | ok place =>
    simp only [hlocate, bind, Except.bind] at h
    split at h
    · cases h
    · split at h
      next => cases h
      next hfile =>
        cases h
        exact ⟨rfl, hfile⟩

/-! ## Replacing -/

/-- The file at a path holds a text, and everything else is as it was. -/
structure Replaced (fs fs' : FileSystem) (path text : String) : Prop where
  current : fs'.current = fs.current
  reads : fs'.readText path = .ok text
  elsewhere : ∃ l, fs'.locate path = .ok l ∧ ∀ l' ≠ l, fs'.get? l' = fs.get? l'

theorem fromUTF8?_toUTF8 (text : String) : String.fromUTF8? text.toUTF8 = some text := by
  have hvalid : text.toUTF8.IsValidUTF8 := text.isValidUTF8
  unfold String.fromUTF8?
  rw [dif_pos hvalid]
  rfl

/-- A file system with a text at the place that a path leads to. -/
theorem replaced_put {path text : String} (hl : fs.locate path = .ok l) (hfile : fs.get? l ≠ some .directory) :
    Replaced fs (fs.put l (.file text.toUTF8)) path text := by
  have hroot : l ≠ [] := by
    rintro rfl
    exact hfile rfl
  have hlocate : (fs.put l (.file text.toUTF8)).locate path = .ok l := by
    refine locate_mono (fun place hplace => ?_) put_current hl
    rw [get?_put hroot, if_neg]
    · exact hplace
    · rintro rfl
      exact hfile hplace
  refine ⟨put_current, ?_, l, hlocate, fun l' hne => ?_⟩
  · unfold readText
    simp only [hlocate, bind, Except.bind]
    rw [get?_put hroot, if_pos rfl]
    dsimp only
    rw [fromUTF8?_toUTF8]
  · rw [get?_put hroot, if_neg hne]

/-- Either the file is replaced, or nothing has changed. -/
theorem replaceIn_cases (fs : FileSystem) (directory : Location) (path text : String) :
    (∃ fs', fs.replaceIn directory path text.toUTF8 = (.ok (), fs') ∧ Replaced fs fs' path text) ∨
    ∃ cause, fs.replaceIn directory path text.toUTF8 = (.error cause, fs) := by
  unfold replaceIn
  dsimp only
  generalize htemporary : directory ++ [fs.freshName] = temporary
  have hroot : temporary ≠ [] := by
    rintro rfl
    simp at htemporary
  have hnew : fs.entries.lookup temporary = none := htemporary ▸ lookup_fresh directory
  cases hrename : (fs.put temporary (.file text.toUTF8)).rename temporary path with
  | error cause =>
    right
    exact ⟨cause, by rw [remove_put hnew]⟩
  | ok renamed =>
    left
    refine ⟨renamed, rfl, ?_⟩
    unfold rename at hrename
    cases htarget : (fs.put temporary (.file text.toUTF8)).locateTarget path with
    | error cause =>
      rw [htarget] at hrename
      cases hrename
    | ok l =>
      simp only [htarget, bind, Except.bind, get?_put hroot, if_true, remove_put hnew] at hrename
      obtain rfl : fs.put l (.file text.toUTF8) = renamed := by simpa using hrename
      obtain ⟨hlocate, hfile⟩ := locateTarget_ok htarget
      have hsame := get?_put_directory hroot hnew text.toUTF8
      exact replaced_put (locate_mono (fun place => (hsame place).1) put_current.symm hlocate) fun hl => hfile ((hsame l).2 hl)

theorem replaceFile_cases (fs : FileSystem) (path text : String) :
    (∃ fs', fs.replaceFile path text = (.ok (), fs') ∧ Replaced fs fs' path text) ∨
    ∃ cause, fs.replaceFile path text = (.error cause, fs) := by
  unfold replaceFile
  cases (Path.parent? path).elim (.error .notFound) fs.locateDirectory with
  | error cause => exact .inr ⟨cause, rfl⟩
  | ok directory => exact replaceIn_cases fs directory path text

/-- A file that can be read is where its path leads. -/
theorem Replaced.of_read {path text : String} (h : fs.readText path = .ok text) : Replaced fs fs path text := by
  refine ⟨rfl, h, ?_⟩
  unfold readText at h
  cases hlocate : fs.locate path with
  | error cause =>
    rw [hlocate] at h
    cases h
  | ok l => exact ⟨l, rfl, fun _ _ => rfl⟩

end FileSystem

open FileSystem

/-- Either a text is written, with nothing else changed, or nothing has changed. -/
theorem write_cases (fs : FileSystem) (path text : String) :
    (∃ fs', (write path text : StateM FileSystem _) fs = (.ok .written, fs') ∧ Replaced fs fs' path text) ∨
    ∃ cause, (write path text : StateM FileSystem _) fs = (.error cause, fs) := by
  unfold write
  by_cases hparent : (Path.parent? path).isNone
  · rw [if_pos hparent]
    exact .inr ⟨.noParent path, rfl⟩
  · have hreplace : (FileAccess.replaceFile path text : StateM FileSystem _) fs = fs.replaceFile path text := rfl
    rw [if_neg hparent]
    simp only [bind, StateT.bind, hreplace]
    rcases replaceFile_cases fs path text with ⟨fs', hok, hreplaced⟩ | ⟨cause, herror⟩
    · rw [hok]
      exact .inl ⟨fs', rfl, hreplaced⟩
    · rw [herror]
      exact .inr ⟨.file path cause, rfl⟩

/-- Either the file holds the text afterwards, with nothing else changed, or nothing has changed. -/
theorem writeIfChanged_cases (fs : FileSystem) (path text : String) :
    (∃ outcome fs', (writeIfChanged path text : StateM FileSystem _) fs = (.ok outcome, fs') ∧ Replaced fs fs' path text ∧
      (outcome = .unchanged ↔ fs.readText path = .ok text)) ∨
    ∃ cause, (writeIfChanged path text : StateM FileSystem _) fs = (.error cause, fs) := by
  have hread : (FileAccess.readText path : StateM FileSystem _) fs = (fs.readText path, fs) := rfl
  unfold writeIfChanged
  simp only [bind, StateT.bind, hread]
  generalize hold : fs.readText path = old
  -- unless the text is there already, it is written, and that did not leave the file unchanged
  have hwrite (hother : old ≠ .ok text) :
      (∃ outcome fs', (write path text : StateM FileSystem _) fs = (.ok outcome, fs') ∧ Replaced fs fs' path text ∧
        (outcome = .unchanged ↔ old = .ok text)) ∨
      ∃ cause, (write path text : StateM FileSystem _) fs = (.error cause, fs) := by
    rcases write_cases fs path text with ⟨fs', hok, hreplaced⟩ | herror
    · exact .inl ⟨.written, fs', hok, hreplaced, by simp [hother]⟩
    · exact .inr herror
  cases old with
  | error cause => exact hwrite nofun
  | ok old =>
    by_cases hsame : old = text
    · subst hsame
      dsimp only
      rw [if_pos rfl]
      exact .inl ⟨.unchanged, fs, rfl, .of_read hold, by simp⟩
    · dsimp only
      rw [if_neg hsame]
      exact hwrite (by simp [hsame])

end Graft
