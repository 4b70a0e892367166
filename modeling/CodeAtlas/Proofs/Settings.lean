import CodeAtlas.Proofs.Files
import CodeAtlas.Settings.Store

/-!
What a failed attempt to save the settings leaves behind: the file as it was, and in the store the
new settings, unless the attempt failed before there were any.
-/

namespace CodeAtlas.Settings

open Work

variable {store : Store} {workspace later : Workspace} {output : Option Json}

/-- An attempt to save ended with a problem. -/
inductive Failed : Except Problem (Store × Option Problem) → Prop
  | stopped (problem : Problem) : Failed (.error problem)
  | refused (later : Store) (problem : Problem) : Failed (.ok (later, some problem))

def Store.after (store : Store) : Except Problem (Store × Option Problem) → Store
  | .ok (later, _) => later
  | .error _ => store

theorem keeps_failed {α : Type} (invariant : Workspace → Prop) (title : String) (problem : Problem) :
    Work.Keeps invariant (Store.failed title problem : Work α) := by
  unfold Store.failed
  split
  · exact keeps_throw _
  · exact keeps_throw _

theorem keeps_load (invariant : Workspace → Prop) (store : Store) :
    Work.Keeps invariant store.load := by
  apply keeps_disk.bind
  intro disk
  split
  · exact keeps_pure _
  · apply ((Files.keeps_read _ _).tryCatch fun _ => keeps_failed _ _ _).bind
    intro text
    split
    · exact keeps_throw _
    · exact (keeps_ofExcept _).bind fun _ => keeps_pure _

theorem keeps_prepare (disk : Disk) (store : Store) :
    Work.Keeps (fun later => Files.Spares disk later.disk) store.prepare := by
  apply ((Files.keeps_ensureDirectory _).tryCatch fun _ => keeps_failed _ _ _).bind
  intro _
  rw [Store.current]
  split
  · exact keeps_pure _
  · exact (keeps_load _ store).bind fun _ => keeps_pure _

theorem start_prepare {known : Preferences} {place : List String} {entries : List (String × FileTree)}
    (isKnown : store.known = some known) (atFolder : store.folder = Disk.pathOf place)
    (proper : workspace.disk.root.Proper)
    (found : workspace.disk.root.get? place = some (.directory entries)) :
    store.prepare.start workspace = (.ok known, workspace) := by
  have straight := Disk.Straight.of_get? proper found rfl
  have resolved := straight.resolve_pathOf fun (strict : false = true) => nomatch strict
  simp only [Store.prepare, atFolder, start_bind, start_tryCatch, Files.ensureDirectory,
    Files.start_resolved, resolved, start_disk, Disk.makeDirectories_present proper found,
    start_setDisk, start_pure, Store.current, isKnown]

theorem eq_of_prepare {known settings : Preferences} (isKnown : store.known = some known)
    (run : store.prepare.start workspace = (.ok settings, later)) : settings = known := by
  rcases start_bind_eq_ok_iff.mp run with ⟨_, middle, _, found⟩
  rw [Store.current, isKnown] at found
  cases found
  rfl

/-- A failed attempt to save settings that were prepared left the disk as it was, or failed to write
the file; the store has the new settings in any case. -/
theorem save_failed_of_prepare {settings : Preferences} {middle : Workspace}
    {result : Except Problem (Store × Option Problem)}
    (prepared : store.prepare.start workspace = (.ok settings, middle))
    (run : (save store output).start workspace = (result, later)) (failed : Failed result) :
    (store.after result).known = some (settings.updated output) ∧
      (later = middle ∨ ∃ text problem,
        (Files.write store.file text).start middle = (.error problem, later)) := by
  rw [save, start_bind, prepared] at run
  simp only at run
  split at run
  · cases run
    exact ⟨rfl, .inl rfl⟩
  · rw [start_tryCatch, start_bind] at run
    rcases wrote : (Files.write (Store.file { store with known := some (settings.updated output) })
      (settings.updated output).fileText).start middle with ⟨ended, left⟩
    rw [wrote] at run
    cases ended with
    | ok _ =>
      cases run
      cases failed
    | error problem =>
      simp only at run
      split at run
      · cases run
        exact ⟨rfl, .inr ⟨_, _, wrote⟩⟩
      · cases run
        exact ⟨rfl, .inr ⟨_, _, wrote⟩⟩

theorem failed_of_invalid {settings : Preferences} {middle : Workspace}
    (prepared : store.prepare.start workspace = (.ok settings, middle))
    (invalid : (settings.updated output).isValid = false) :
    Failed ((save store output).start workspace).1 := by
  rw [save, start_bind, prepared]
  simp only [invalid, Bool.not_false, if_true]
  exact .refused _ _

/-- After an attempt to save that failed, the place that the path of the file leads to has the file
that it had. The store has the settings that it had only if none could be prepared, or if they were
already those to be saved. -/
theorem after_failed_save {result : Except Problem (Store × Option Problem)}
    (sound : workspace.disk.Sound) (run : (save store output).start workspace = (result, later))
    (failed : Failed result) :
    (∀ place, workspace.disk.resolve false store.file = .ok place →
      Files.SameFile workspace.disk later.disk place) ∧
    ((store.after result).known = store.known ↔
      (∃ problem, (store.prepare.start workspace).1 = .error problem) ∨
      ∃ known, store.known = some known ∧ known.updated output = known) := by
  rcases prepared : store.prepare.start workspace with ⟨outcome, middle⟩
  have spares := (keeps_prepare workspace.disk store).after workspace (.refl sound)
  rw [prepared] at spares
  cases outcome with
  | error problem =>
    rw [save, Work.start_bind, prepared] at run
    cases run
    exact ⟨fun place _ => spares.files place, iff_of_true rfl (.inl ⟨problem, rfl⟩)⟩
  | ok settings =>
    rcases save_failed_of_prepare prepared run failed with ⟨known, change⟩
    constructor
    · intro place atPlace
      apply (spares.files place).trans
      rcases change with rfl | ⟨text, problem, wrote⟩
      · exact fun _ _ => .rfl
      · rcases Files.write_cases spares.sound (spares.kept.resolve atPlace) text with
          ⟨_, _, succeeded, _⟩ | ⟨_, _, stopped, kept⟩
        · cases wrote.symm.trans succeeded
        · cases wrote.symm.trans stopped
          exact kept
    · rw [known]
      constructor
      · intro same
        have already := eq_of_prepare same.symm prepared
        exact .inr ⟨settings, by rw [← same, ← already], already.symm⟩
      · intro kept
        rcases kept with ⟨problem, stopped⟩ | ⟨old, isKnown, same⟩
        · cases stopped
        · rw [isKnown, eq_of_prepare isKnown prepared, same]

/-- A home directory with a file of settings, and a store that knows settings. -/
def homeDisk : Disk where
  root := .directory [("h", .directory [(".gatowiki", .directory [("config.json", .file "\x7b\x7d")])])]
  current := []

def homeStore : Store := ⟨"/h", some .standard⟩

theorem start_prepare_homeStore :
    homeStore.prepare.start { disk := homeDisk } = (.ok .standard, { disk := homeDisk }) :=
  start_prepare rfl (by decide : homeStore.folder = Disk.pathOf ["h", ".gatowiki"])
    (by decide : homeDisk.root.Proper) rfl

theorem failed_homeStore :
    Failed ((save homeStore (some (.text ""))).start { disk := homeDisk }).1 :=
  failed_of_invalid start_prepare_homeStore rfl

theorem homeDisk_kept_by_failed_save :
    homeDisk.root.get? ["h", ".gatowiki", "config.json"] = some (.file "\x7b\x7d") ∧
      Files.SameFile homeDisk ((save homeStore (some (.text ""))).start { disk := homeDisk }).2.disk
        ["h", ".gatowiki", "config.json"] := by
  have failed := failed_homeStore
  rcases run : (save homeStore (some (.text ""))).start { disk := homeDisk } with ⟨result, later⟩
  rw [run] at failed
  have sound : homeDisk.Sound := ⟨by decide, _, rfl⟩
  have found : homeDisk.root.get? ["h", ".gatowiki", "config.json"] = some (.file "\x7b\x7d") := rfl
  refine ⟨found, (after_failed_save sound run failed).1 _ ?_⟩
  rw [show homeStore.file = Disk.pathOf ["h", ".gatowiki", "config.json"] by decide]
  apply (Disk.Straight.of_get? sound.proper found rfl).resolve_pathOf
  exact fun strict => nomatch strict

theorem homeStore_changed_by_failed_save :
    Failed ((save homeStore (some (.text ""))).start { disk := homeDisk }).1 ∧
      (homeStore.after ((save homeStore (some (.text ""))).start { disk := homeDisk }).1).known =
        some ⟨.text ""⟩ ∧ homeStore.known = some ⟨.text "docs"⟩ := by
  have failed := failed_homeStore
  rcases run : (save homeStore (some (.text ""))).start { disk := homeDisk } with ⟨result, later⟩
  rw [run] at failed
  exact ⟨failed, (save_failed_of_prepare start_prepare_homeStore run failed).1, rfl⟩

end CodeAtlas.Settings
