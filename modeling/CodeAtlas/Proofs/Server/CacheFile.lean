import CodeAtlas.Proofs.Json.RoundTrip
import CodeAtlas.Proofs.Server.CacheHistory
import CodeAtlas.Proofs.Server.Opening
import CodeAtlas.Proofs.Time.Reading

/-!
The file of the cache. An operation that changes the index saves it, so that after each operation
the file says what is in memory. Main statement: after any history of a cache that began without a
file, whoever opens the same folder finds the same entries in the same order.
-/

namespace CodeAtlas.Server

open List

variable {entry : CacheEntry} {index : OrderedMap String CacheEntry} {cache : Cache}

/-! ## Entries as values -/

/-- An entry that can be written and read again. -/
structure CacheEntry.Regular (entry : CacheEntry) : Prop where
  address : entry.address.Regular
  key : entry.key.Regular
  docs : entry.docs.Regular
  created : entry.created.Shown
  accessed : entry.accessed.Shown

namespace CacheEntry

theorem Regular.json (regular : entry.Regular) : entry.toJson.Regular := by
  refine .object ?_ ?_
  · have names :
        ["repo_url", "repo_url_hash", "docs_path", "created_at", "last_accessed"].Nodup := by
      decide
    exact names
  · intro member present
    simp only [mem_cons, not_mem_nil, or_false] at present
    rcases present with rfl | rfl | rfl | rfl | rfl
    · exact regular.address
    · exact regular.key
    · exact regular.docs
    · exact .text _
    · exact .text _

theorem ofJson_object {created accessed : String}
    (readCreated : Time.Moment.ofJson (.text created) = .ok entry.created)
    (readAccessed : Time.Moment.ofJson (.text accessed) = .ok entry.accessed) :
    ofJson (.object [("repo_url", entry.address), ("repo_url_hash", entry.key),
      ("docs_path", entry.docs), ("created_at", .text created), ("last_accessed", .text accessed)]) =
      .ok entry := by
  simp [ofJson, Json.need, lookup_cons, bind, Except.bind, readCreated, readAccessed, pure,
    Except.pure]

theorem ofJson_toJson (regular : entry.Regular) :
    ofJson entry.toJson = .ok entry :=
  ofJson_object (Time.ofJson_eq_ok (Time.ofText?_text regular.created))
    (Time.ofJson_eq_ok (Time.ofText?_text regular.accessed))

end CacheEntry

namespace Cache

/-! ## The index as a value -/

/-- All entries of an index can be written and read again. -/
def RegularIndex (index : OrderedMap String CacheEntry) : Prop :=
  ∀ key entry, index.get? key = some entry → entry.Regular

theorem regular_indexJson (regular : RegularIndex index) :
    (indexJson index).Regular := by
  refine .object ?_ ?_
  · simpa [map_map, Function.comp_def] using index.distinct
  · intro member present
    rcases mem_map.mp present with ⟨⟨key, entry⟩, entered, rfl⟩
    exact (regular key entry ((index.get?_eq_some_iff key entry).mpr entered)).json

theorem readEntries_written {entries : List (String × CacheEntry)}
    (regular : ∀ entry ∈ entries, entry.2.Regular)
    (distinct : ((index.entries ++ entries).map Prod.fst).Nodup) :
    readEntries index (entries.map fun (key, entry) => (key, entry.toJson)) =
      (⟨index.entries ++ entries, distinct⟩, true) := by
  induction entries generalizing index with
  | nil => simp [readEntries]
  | cons entry rest induction =>
    rcases entry with ⟨key, entry⟩
    -- A key that is new is entered at the end, so the order is kept.
    have absent : key ∉ index.entries.map Prod.fst := by
      intro member
      rw [map_append] at distinct
      exact (nodup_append.mp distinct).2.2 key member key mem_cons_self rfl
    have inserted : (index.insert key entry).entries = index.entries ++ [(key, entry)] :=
      OrderedMap.insertEntry_of_not_mem absent entry
    have moved : (index.insert key entry).entries ++ rest =
        index.entries ++ (key, entry) :: rest := by
      rw [inserted, append_assoc]
      rfl
    have read := CacheEntry.ofJson_toJson (regular _ mem_cons_self)
    have others := induction (fun entry member => regular entry (mem_cons_of_mem _ member))
      (moved ▸ distinct)
    simp only [map_cons, readEntries, read, others, moved]

theorem readIndex_indexJson (regular : RegularIndex index) :
    readIndex (indexJson index) = (index, true) := by
  refine @readEntries_written .empty index.entries ?_ index.distinct
  intro entry member
  exact regular entry.1 entry.2 ((index.get?_eq_some_iff entry.1 entry.2).mpr member)

/-! ## Saving and loading -/

def indexText (index : OrderedMap String CacheEntry) : String :=
  (indexJson index).render Work.keptLayout

theorem start_save_of_unsaved {workspace : Workspace} {written : Disk}
    (unsaved : cache.unsaved = true)
    (success : workspace.disk.write cache.file (indexText cache.index) = .ok written) :
    cache.save.start workspace =
      (.ok { cache with unsaved := false }, { workspace with disk := written }) := by
  have saved : (Work.saveJson (indexJson cache.index) cache.file).start workspace =
      (.ok (), { workspace with disk := written }) := by
    rw [indexText] at success
    simp only [Work.saveJson, Work.writeJson, Work.start_writeText, success]
  simp only [save, unsaved, if_true, Work.start_bind, Work.start_tryCatch, saved, Work.start_pure]

theorem start_save_of_saved (workspace : Workspace) (saved : cache.unsaved = false) :
    cache.save.start workspace = (.ok cache, workspace) := by
  have same : { cache with unsaved := false } = cache := by
    rw [← saved]
  simp only [save, saved, Bool.false_eq_true, if_false, Work.start_pure, same]

theorem start_load_of_file {workspace : Workspace} (regular : RegularIndex index)
    (made : workspace.disk.makeDirectories cache.folder = .ok workspace.disk)
    (found : workspace.disk.get? cache.file = some (.file (indexText index))) :
    cache.load.start workspace = (.ok { cache with index }, workspace) := by
  have there := Disk.exists?_of_get? found
  have read : (Work.readJson cache.file).start workspace = (.ok (indexJson index), workspace) := by
    refine Work.start_readJson_of_file found ?_
    rw [indexText, Json.unifyBreaks_render (regular_indexJson regular)]
    exact Json.parse?_render (regular_indexJson regular) Work.keptLayout
  simp only [load, Work.start_bind, Work.start_makeDirectories, made, Work.start_disk, there,
    Bool.not_true, Bool.false_eq_true, if_false, Work.start_tryCatch, read, Work.start_pure,
    readIndex_indexJson regular]

/-! ## What events keep -/

theorem Aged.regular {days : Int} {now : Time.Moment} {old new : Option CacheEntry}
    (aged : Aged days now old new) (shown : now.Shown)
    (regular : ∀ entry, old = some entry → entry.Regular) :
    ∀ entry, new = some entry → entry.Regular := by
  intro entry found
  cases aged with
  | kept same => exact regular entry (same ▸ found)
  | @used entry before after =>
    cases after.symm.trans found
    exact { regular entry before with accessed := shown }
  | dropped before after aged limit expired => cases after.symm.trans found

theorem regular_perform {event : Event} (regular : RegularIndex cache.index)
    (shown : event.now.Shown) : RegularIndex (cache.perform event).index := by
  intro key entry found
  rcases event with ⟨now, operation⟩
  cases operation with
  | add address docs =>
    rw [perform, get?_add] at found
    split at found
    · cases found
      exact ⟨.text _, .text _, .text _, shown, shown⟩
    · exact regular key entry found
  | remove address =>
    rw [perform, get?_remove] at found
    split at found
    · cases found
    · exact regular key entry found
  | lookUp address =>
    rw [perform] at found
    split at found
    · exact (aged_lookUp ‹_› key).regular shown (regular key) entry found
    · exact regular key entry found
  | dropExpired =>
    rw [perform] at found
    split at found
    · exact (aged_dropExpired ‹_› key).regular shown (regular key) entry found
    · exact regular key entry found

/-! ## Histories with their file -/

def carryOutAll (cache : Cache) (history : List Event) : Work Cache := history.foldlM carryOut cache

/-- The file says what is in memory, on a disk where a cache was opened before. As long as nothing
was ever saved there is no file. -/
structure Mirrored (opened : Disk) (cache : Cache) (workspace : Workspace) : Prop where
  kept : Disk.Keeps opened workspace.disk
  regular : RegularIndex cache.index
  saved : cache.unsaved = false
  writable : workspace.disk.Writable cache.file
  file : cache.index = .empty ∧ workspace.disk.get? cache.file = none ∨
    workspace.disk.get? cache.file = some (.file (indexText cache.index))

namespace Mirrored

variable {opened : Disk} {cache : Cache} {workspace : Workspace}

theorem replaceable (mirrored : Mirrored opened cache workspace) :
    ∀ old, workspace.disk.get? cache.file = some old → old.isPlain = true := by
  intro old found
  rcases mirrored.file with ⟨_, missing⟩ | there
  · cases missing.symm.trans found
  · cases there.symm.trans found
    rfl

theorem carryOut (mirrored : Mirrored opened cache workspace) (grounded : opened.Grounded)
    {event : Event} (shown : event.now.Shown) :
    ∃ after later, (cache.carryOut event).start workspace = (.ok after, later) ∧
      after.folder = cache.folder ∧ Mirrored opened after later := by
  have regular := regular_perform mirrored.regular shown
  rcases cache.perform_cases event with same | ⟨index, changed⟩
  · refine ⟨cache, workspace, ?_, rfl, mirrored⟩
    rw [Cache.carryOut, same]
    exact start_save_of_saved workspace mirrored.saved
  · rcases mirrored.writable (indexText index) with ⟨written, success⟩
    rcases Disk.write_eq_ok (mirrored.kept.grounded grounded) success mirrored.replaceable with
      ⟨kept, there⟩
    rw [changed] at regular
    refine ⟨{ cache with index, unsaved := false }, { workspace with disk := written }, ?_, rfl, ?_⟩
    · rw [Cache.carryOut, changed]
      exact start_save_of_unsaved rfl success
    · exact ⟨mirrored.kept.trans kept, regular, rfl, Disk.writable_of_file there, .inr there⟩

theorem carryOutAll (mirrored : Mirrored opened cache workspace) (grounded : opened.Grounded)
    {history : List Event} (shown : ∀ event ∈ history, event.now.Shown) :
    ∃ after later, (cache.carryOutAll history).start workspace = (.ok after, later) ∧
      after.folder = cache.folder ∧ Mirrored opened after later := by
  induction history generalizing cache workspace with
  | nil => exact ⟨cache, workspace, rfl, rfl, mirrored⟩
  | cons event rest induction =>
    rcases mirrored.carryOut grounded (shown event mem_cons_self) with
      ⟨middle, between, first, folder, mirroredBetween⟩
    have shownLater : ∀ event ∈ rest, event.now.Shown := fun event member =>
      shown event (mem_cons_of_mem _ member)
    rcases induction mirroredBetween shownLater with
      ⟨after, later, others, laterFolder, mirroredLater⟩
    refine ⟨after, later, ?_, laterFolder.trans folder, mirroredLater⟩
    rw [Cache.carryOutAll, foldlM_cons, Work.start_bind, first]
    exact others

theorem load (mirrored : Mirrored opened cache workspace) {other : Cache}
    (folder : other.folder = cache.folder) (empty : other.index = .empty)
    (made : workspace.disk.makeDirectories other.folder = .ok workspace.disk) :
    other.load.start workspace = (.ok { other with index := cache.index }, workspace) := by
  have file : other.file = cache.file := by
    rw [Cache.file, folder, ← Cache.file]
  rcases mirrored.file with ⟨none, missing⟩ | there
  · have noFile : workspace.disk.exists? other.file = false := by
      rw [Disk.exists?, file, missing]
      rfl
    have same : { other with index := cache.index } = other := by
      rw [none, ← empty]
    rw [same]
    exact start_load_of_new made noFile
  · exact start_load_of_file mirrored.regular made (file ▸ there)

end Mirrored

/-- Whoever opens a folder again finds what the history so far has left in memory, whatever limit
and keys are used then. -/
theorem reopened_cache_same_index {folder : String} {days : Int} {key : String → String}
    {start : Workspace} {made : Disk} (grounded : start.disk.Grounded)
    (created : start.disk.makeDirectories folder = .ok made)
    (noFile : made.exists? (Path.below folder "cache_index.json") = false)
    (writable : made.Writable (Path.below folder "cache_index.json")) {history : List Event}
    (shown : ∀ event ∈ history, event.now.Shown) :
    ∃ cache later,
      (load { folder, days, key } >>= (carryOutAll · history)).start start = (.ok cache, later) ∧
      ∀ laterDays laterKey, (load { folder, days := laterDays, key := laterKey }).start later =
        (.ok { folder, days := laterDays, key := laterKey, index := cache.index }, later) := by
  have opened := @start_load_of_new { folder, days, key } start made created noFile
  have mirrored : Mirrored made { folder, days, key } { start with disk := made } :=
    { kept := .refl made
      regular := fun _ _ found => nomatch found
      saved := rfl
      writable := writable
      file := .inl ⟨rfl, Option.not_isSome_iff_eq_none.mp (Bool.eq_false_iff.mp noFile)⟩ }
  have groundedMade := (Disk.keeps_makeDirectories grounded created).grounded grounded
  rcases mirrored.carryOutAll groundedMade shown with ⟨cache, later, run, sameFolder, mirroredLater⟩
  refine ⟨cache, later, ?_, ?_⟩
  · rw [Work.start_bind, opened]
    exact run
  · intro laterDays laterKey
    exact mirroredLater.load sameFolder.symm rfl
      (Disk.makeDirectories_again grounded created mirroredLater.kept)

theorem writable_bare : Service.bare.disk.Writable (Path.below "/cache" "cache_index.json") := by
  rw [Service.indexFile_bare]
  exact Service.writable_bare (by decide)

theorem visits_found_again :
    Service.bare.disk.Grounded ∧
    Service.bare.disk.makeDirectories "/cache" = .ok Service.bare.disk ∧
    Service.bare.disk.exists? (Path.below "/cache" "cache_index.json") = false ∧
    Service.bare.disk.Writable (Path.below "/cache" "cache_index.json") ∧
    (∀ event ∈ visits, event.now.Shown) ∧
    ∃ cache later,
      (load { folder := "/cache" } >>= (carryOutAll · visits)).start Service.bare =
        (.ok cache, later) ∧
      (load { folder := "/cache", days := 1 }).start later =
        (.ok { folder := "/cache", days := 1, index := cache.index }, later) := by
  have grounded : Service.bare.disk.Grounded := ⟨_, rfl⟩
  have shown : ∀ event ∈ visits, event.now.Shown := by
    intro event member
    simp only [visits, List.mem_cons, List.not_mem_nil, or_false] at member
    rcases member with rfl | rfl | rfl | rfl | rfl <;> exact ⟨rfl, by decide, by decide⟩
  rcases @reopened_cache_same_index "/cache" 365 repositoryKey _ _ grounded
    Service.makeDirectories_bare Service.noIndex_bare writable_bare _ shown with
    ⟨cache, later, run, found⟩
  exact ⟨grounded, Service.makeDirectories_bare, Service.noIndex_bare, writable_bare, shown, cache,
    later, run, found 1 repositoryKey⟩

end Cache

end CodeAtlas.Server
