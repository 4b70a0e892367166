import CodeAtlas.Proofs.Server.CacheFile

/-!
A damaged file of the cache. A file is read up to the first member that is no entry, and the next
change writes what was read over it. The main statement: an entry of the file outlives that change
exactly if no damaged member stands before it.
-/

namespace CodeAtlas.Server

open List

/-! ## What is read of a damaged file -/

def CacheEntry.isReadable (value : Json) : Bool := (CacheEntry.ofJson value).isOk

theorem CacheEntry.isReadable_iff {value : Json} :
    isReadable value = true ↔ ∃ entry, ofJson value = .ok entry := by
  rw [isReadable]
  cases ofJson value with
  | ok entry => simp [Except.isOk, Except.toBool]
  | error cause => simp [Except.isOk, Except.toBool]

namespace Cache

/-- What stands before the first damaged member. -/
def leading (members : Json.Members) : Json.Members :=
  members.takeWhile fun member => CacheEntry.isReadable member.2

theorem get?_readEntries {index : OrderedMap String CacheEntry} {members : Json.Members}
    (distinct : (members.map Prod.fst).Nodup) {name : String} {entry : CacheEntry} :
    (readEntries index members).1.get? name = some entry ↔
      (∃ value, (name, value) ∈ leading members ∧ CacheEntry.ofJson value = .ok entry) ∨
        name ∉ (leading members).map Prod.fst ∧ index.get? name = some entry := by
  induction members generalizing index with
  | nil => simp [readEntries, leading]
  | cons member rest induction =>
    rcases member with ⟨key, value⟩
    have parts := nodup_cons.mp distinct
    cases read : CacheEntry.ofJson value with
    | error cause =>
      have unreadable : CacheEntry.isReadable value = false := by
        rw [CacheEntry.isReadable, read]
        rfl
      simp [readEntries, read, leading, unreadable]
    | ok first =>
      have readable := CacheEntry.isReadable_iff.mpr ⟨first, read⟩
      have split : leading ((key, value) :: rest) = (key, value) :: leading rest := by
        simp [leading, readable]
      have absent : key ∉ (leading rest).map Prod.fst := fun member =>
        parts.1 ((takeWhile_sublist _).map Prod.fst |>.subset member)
      have outside : ∀ other, (key, other) ∉ leading rest := fun other member =>
        absent (mem_map_of_mem member)
      rw [readEntries, read, induction parts.2, OrderedMap.get?_insert, split]
      by_cases same : name = key
      · subst same
        simp [outside, absent, read]
      · simp [same]

theorem get?_readIndex {members : Json.Members} (distinct : (members.map Prod.fst).Nodup)
    {name : String} {entry : CacheEntry} :
    (readIndex (.object members)).1.get? name = some entry ↔
      ∃ value, (name, value) ∈ leading members ∧ CacheEntry.ofJson value = .ok entry := by
  rw [readIndex, get?_readEntries distinct, or_iff_left]
  rintro ⟨_, found⟩
  cases found

/-- A member stands behind a damaged one. -/
def Behind (members : Json.Members) (member : String × Json) : Prop :=
  ∃ front damaged back, members = front ++ damaged :: back ∧
    CacheEntry.isReadable damaged.2 = false ∧ member ∈ back

theorem behind_cons_of_readable {first member : String × Json} {rest : Json.Members}
    (readable : CacheEntry.isReadable first.2 = true) :
    Behind (first :: rest) member ↔ Behind rest member := by
  constructor
  · rintro ⟨_ | ⟨other, front⟩, damaged, back, same, unreadable, present⟩
    · cases same
      rw [readable] at unreadable
      cases unreadable
    · cases same
      exact ⟨front, damaged, back, rfl, unreadable, present⟩
  · rintro ⟨front, damaged, back, rfl, unreadable, present⟩
    exact ⟨first :: front, damaged, back, rfl, unreadable, present⟩

theorem Behind.mem {members : Json.Members} {member : String × Json}
    (behind : Behind members member) : member ∈ members := by
  rcases behind with ⟨front, damaged, back, rfl, _, present⟩
  exact mem_append_right front (mem_cons_of_mem damaged present)

theorem mem_leading_iff {members : Json.Members} (distinct : (members.map Prod.fst).Nodup)
    {member : String × Json} (present : member ∈ members)
    (readable : CacheEntry.isReadable member.2 = true) :
    member ∈ leading members ↔ ¬ Behind members member := by
  induction members with
  | nil => cases present
  | cons first rest induction =>
    have parts := nodup_cons.mp distinct
    cases firstReadable : CacheEntry.isReadable first.2 with
    | false =>
      have inRest : member ∈ rest := by
        rcases mem_cons.mp present with rfl | inRest
        · rw [readable] at firstReadable
          cases firstReadable
        · exact inRest
      have behind : Behind (first :: rest) member :=
        ⟨[], first, rest, rfl, firstReadable, inRest⟩
      simp [leading, firstReadable, behind]
    | true =>
      have split : leading (first :: rest) = first :: leading rest := by
        simp [leading, firstReadable]
      rw [split, mem_cons, behind_cons_of_readable firstReadable]
      rcases mem_cons.mp present with rfl | inRest
      · -- Its name stands only once, so it is nowhere behind.
        refine iff_of_true (.inl rfl) fun behind => parts.1 ?_
        exact mem_map_of_mem behind.mem
      · have different : member ≠ first := by
          rintro rfl
          exact parts.1 (mem_map_of_mem inRest)
        rw [or_iff_right different]
        exact induction parts.2 inRest

theorem get?_readIndex_of_mem {members : Json.Members} (distinct : (members.map Prod.fst).Nodup)
    {name : String} {value : Json} {entry : CacheEntry} (present : (name, value) ∈ members)
    (read : CacheEntry.ofJson value = .ok entry) :
    (¬ Behind members (name, value) → (readIndex (.object members)).1.get? name = some entry) ∧
    (Behind members (name, value) → (readIndex (.object members)).1.get? name = none) := by
  have leads := mem_leading_iff distinct present (CacheEntry.isReadable_iff.mpr ⟨entry, read⟩)
  constructor
  · intro free
    exact (get?_readIndex distinct).mpr ⟨value, leads.mpr free, read⟩
  · intro behind
    rw [Option.eq_none_iff_forall_ne_some]
    intro other found
    rcases (get?_readIndex distinct).mp found with ⟨otherValue, member, _⟩
    -- There is one member with this name, so it is the one that stands behind.
    have first := (OrderedMap.lookup_eq_some_iff_mem distinct name value).mpr present
    have second := (OrderedMap.lookup_eq_some_iff_mem distinct name otherValue).mpr
      ((takeWhile_sublist _).subset member)
    cases first.symm.trans second
    exact leads.mp member behind

/-! ## Loading and saving -/

theorem start_load_of_object {cache : Cache} {workspace : Workspace} {made : Disk} {text : String}
    {members : Json.Members} (created : workspace.disk.makeDirectories cache.folder = .ok made)
    (found : made.get? cache.file = some (.file text))
    (parsed : Json.parse? (Text.unifyBreaks text) = some (.object members)) :
    ∃ later, cache.load.start workspace =
      (.ok { cache with index := (readIndex (.object members)).1 }, later) ∧ later.disk = made := by
  have there := Disk.exists?_of_get? found
  have read : (Work.readJson cache.file).start { workspace with disk := made } =
      (.ok (.object members), { workspace with disk := made }) :=
    Work.start_readJson_of_file found parsed
  simp only [load, Work.start_bind, Work.start_makeDirectories, created, Work.start_disk, there,
    Bool.not_true, Bool.false_eq_true, if_false, Work.start_tryCatch, read, Work.start_pure]
  cases (readIndex (.object members)).2 with
  | true => exact ⟨_, rfl, rfl⟩
  | false => exact ⟨_, rfl, rfl⟩

theorem start_load_add {folder : String} {days : Int} {key : String → String}
    {workspace : Workspace} {made : Disk} {text : String} {members : Json.Members}
    (grounded : workspace.disk.Grounded)
    (created : workspace.disk.makeDirectories folder = .ok made)
    (found : made.get? (Path.below folder "cache_index.json") = some (.file text))
    (parsed : Json.parse? (Text.unifyBreaks text) = some (.object members)) (now : Time.Moment)
    (address docs : String) :
    ∃ cache later,
      (load { folder, days, key } >>= (carryOut · ⟨now, .add address docs⟩)).start workspace =
        (.ok cache, later) ∧
      later.disk.get? (Path.below folder "cache_index.json") =
        some (.file (indexText cache.index)) ∧
      ∀ name, cache.index.get? name =
        if name = key address then
          some ⟨.text address, .text (key address), .text docs, now, now⟩
        else (readIndex (.object members)).1.get? name := by
  rcases @start_load_of_object { folder, days, key } workspace made text members created found parsed
    with ⟨between, loaded, disk⟩
  let cache : Cache := { folder, days, key, index := (readIndex (.object members)).1 }
  rw [← disk] at found
  rcases Disk.writable_of_file found (indexText (cache.add now address docs).index) with
    ⟨written, success⟩
  have groundedMade : between.disk.Grounded := by
    rw [disk]
    exact (Disk.keeps_makeDirectories grounded created).grounded grounded
  have there := Disk.write_eq_ok groundedMade success fun old same => by
    cases found.symm.trans same
    rfl
  refine ⟨{ cache.add now address docs with unsaved := false }, { between with disk := written },
    ?_, there.2, cache.get?_add now address docs⟩
  rw [Work.start_bind, loaded]
  exact start_save_of_unsaved rfl success

/-- Which entries of a file outlive the next change. -/
theorem entry_kept_iff_not_behind {folder : String} {days : Int} {key : String → String}
    {workspace : Workspace} {made : Disk} {text : String} {members : Json.Members}
    (grounded : workspace.disk.Grounded)
    (created : workspace.disk.makeDirectories folder = .ok made)
    (found : made.get? (Path.below folder "cache_index.json") = some (.file text))
    (parsed : Json.parse? (Text.unifyBreaks text) = some (.object members)) (now : Time.Moment)
    (address docs : String) :
    ∃ cache later,
      (load { folder, days, key } >>= (carryOut · ⟨now, .add address docs⟩)).start workspace =
        (.ok cache, later) ∧
      later.disk.get? (Path.below folder "cache_index.json") =
        some (.file (indexText cache.index)) ∧
      cache.index.get? (key address) =
        some ⟨.text address, .text (key address), .text docs, now, now⟩ ∧
      ∀ name value entry, (name, value) ∈ members → CacheEntry.ofJson value = .ok entry →
        name ≠ key address →
        (cache.index.get? name = some entry ↔ ¬ Behind members (name, value)) ∧
        (cache.index.get? name = none ↔ Behind members (name, value)) := by
  have distinct := Json.nodup_of_parse? parsed
  rcases @start_load_add folder days key workspace made text members grounded created found parsed
    now address docs with ⟨cache, later, run, file, content⟩
  refine ⟨cache, later, run, file, (content _).trans (if_pos rfl), ?_⟩
  intro name value entry present read other
  rcases get?_readIndex_of_mem distinct present read with ⟨kept, lost⟩
  rw [content, if_neg other]
  by_cases behind : Behind members (name, value)
  · simp [lost behind, behind]
  · simp [kept behind, behind]

/-! ## A damaged member before or behind an entry -/

/-- An entry, and a member whose date cannot be read. -/
def soundEntry : CacheEntry where
  address := .text "https://github.com/owner/sound"
  key := .text (repositoryKey "https://github.com/owner/sound")
  docs := .text "docs"
  created := ⟨63000000000000000, none⟩
  accessed := ⟨63000000000000000, none⟩

def soundMember : String × Json :=
  (repositoryKey "https://github.com/owner/sound", soundEntry.toJson)

def damagedMember : String × Json :=
  (repositoryKey "https://github.com/owner/damaged",
    .object [("repo_url", .text "https://github.com/owner/damaged"),
      ("repo_url_hash", .text (repositoryKey "https://github.com/owner/damaged")),
      ("docs_path", .text "docs"), ("created_at", .text "yesterday"),
      ("last_accessed", .text "yesterday")])

theorem regular_soundEntry : soundEntry.Regular :=
  ⟨.text _, .text _, .text _, ⟨rfl, by decide, by decide⟩, ⟨rfl, by decide, by decide⟩⟩

theorem isReadable_soundMember : CacheEntry.isReadable soundMember.2 = true :=
  CacheEntry.isReadable_iff.mpr ⟨_, CacheEntry.ofJson_toJson regular_soundEntry⟩

theorem isReadable_damagedMember : CacheEntry.isReadable damagedMember.2 = false := by
  decide +kernel

theorem members_ne : soundMember.1 ≠ damagedMember.1 := by
  decide +kernel

theorem soundMember_ne_added : soundMember.1 ≠ repositoryKey "https://github.com/owner/added" := by
  decide +kernel

theorem exists_stocked {members : Json.Members} (distinct : (members.map Prod.fst).Nodup)
    (known : ∀ member ∈ members, member = soundMember ∨ member = damagedMember) :
    ∃ workspace : Workspace, ∃ text, workspace.disk.Grounded ∧
      workspace.disk.makeDirectories "/cache" = .ok workspace.disk ∧
      workspace.disk.get? (Path.below "/cache" "cache_index.json") = some (.file text) ∧
      Json.parse? (Text.unifyBreaks text) = some (.object members) := by
  have regular : (Json.object members).Regular := by
    refine .object distinct fun member present => ?_
    rcases known member present with rfl | rfl
    · exact regular_soundEntry.json
    · refine .object (by decide) fun field inside => ?_
      simp only [mem_cons, not_mem_nil, or_false] at inside
      rcases inside with rfl | rfl | rfl | rfl | rfl <;> exact .text _
  have grounded : Service.bare.disk.Grounded := ⟨_, rfl⟩
  rcases writable_bare ((Json.object members).render Work.keptLayout) with ⟨stocked, written⟩
  have stays := Disk.write_eq_ok grounded written (Disk.isPlain_of_missing Service.noIndex_bare)
  refine ⟨{ Service.bare with disk := stocked }, _, stays.1.grounded grounded,
    Disk.makeDirectories_again grounded Service.makeDirectories_bare stays.1, stays.2, ?_⟩
  rw [Json.unifyBreaks_render regular]
  exact Json.parse?_render regular _

/-- What stands before the damaged member is kept. -/
theorem entry_before_damage_kept :
    ∃ workspace : Workspace, ∃ text, workspace.disk.Grounded ∧
      workspace.disk.makeDirectories "/cache" = .ok workspace.disk ∧
      workspace.disk.get? (Path.below "/cache" "cache_index.json") = some (.file text) ∧
      Json.parse? (Text.unifyBreaks text) = some (.object [soundMember, damagedMember]) ∧
      CacheEntry.ofJson soundMember.2 = .ok soundEntry ∧
      CacheEntry.isReadable damagedMember.2 = false ∧
      ∃ cache later,
        (load { folder := "/cache" } >>= (carryOut · ⟨⟨63000000000000001, none⟩,
          .add "https://github.com/owner/added" "docs"⟩)).start workspace = (.ok cache, later) ∧
        later.disk.get? (Path.below "/cache" "cache_index.json") =
          some (.file (indexText cache.index)) ∧
        cache.index.get? soundMember.1 = some soundEntry := by
  have distinct : ([soundMember, damagedMember].map Prod.fst).Nodup := by
    simpa using members_ne
  rcases exists_stocked distinct (by simp) with ⟨workspace, text, grounded, created, found, parsed⟩
  have sound := CacheEntry.ofJson_toJson regular_soundEntry
  refine ⟨workspace, text, grounded, created, found, parsed, sound, isReadable_damagedMember, ?_⟩
  rcases @entry_kept_iff_not_behind "/cache" 365 repositoryKey workspace workspace.disk text _ grounded
    created found parsed ⟨63000000000000001, none⟩ "https://github.com/owner/added" "docs" with
    ⟨cache, later, run, file, _, outlives⟩
  refine ⟨cache, later, run, file, ?_⟩
  have free : ¬ Behind [soundMember, damagedMember] soundMember := by
    rw [behind_cons_of_readable isReadable_soundMember]
    intro behind
    exact members_ne (congrArg Prod.fst (List.mem_singleton.mp behind.mem))
  exact (outlives _ _ _ List.mem_cons_self sound soundMember_ne_added).1.mpr free

/-- One damaged member is enough for the entry behind it to be lost. -/
theorem entry_behind_damage_lost :
    ∃ workspace : Workspace, ∃ text,
      workspace.disk.get? (Path.below "/cache" "cache_index.json") = some (.file text) ∧
      Json.parse? (Text.unifyBreaks text) = some (.object [damagedMember, soundMember]) ∧
      CacheEntry.ofJson soundMember.2 = .ok soundEntry ∧
      soundMember.1 ≠ repositoryKey "https://github.com/owner/added" ∧
      ∃ cache later,
        (load { folder := "/cache" } >>= (carryOut · ⟨⟨63000000000000001, none⟩,
          .add "https://github.com/owner/added" "docs"⟩)).start workspace = (.ok cache, later) ∧
        later.disk.get? (Path.below "/cache" "cache_index.json") =
          some (.file (indexText cache.index)) ∧
        cache.index.get? soundMember.1 = none := by
  have distinct : ([damagedMember, soundMember].map Prod.fst).Nodup := by
    simpa using members_ne.symm
  rcases exists_stocked distinct (by simp) with ⟨workspace, text, grounded, created, found, parsed⟩
  have sound := CacheEntry.ofJson_toJson regular_soundEntry
  refine ⟨workspace, text, found, parsed, sound, soundMember_ne_added, ?_⟩
  rcases @start_load_add "/cache" 365 repositoryKey workspace workspace.disk text _ grounded created
    found parsed ⟨63000000000000001, none⟩ "https://github.com/owner/added" "docs" with
    ⟨cache, later, run, file, content⟩
  refine ⟨cache, later, run, file, ?_⟩
  have behind : Behind [damagedMember, soundMember] soundMember :=
    ⟨[], damagedMember, [soundMember], rfl, isReadable_damagedMember, List.mem_cons_self⟩
  rw [content, if_neg soundMember_ne_added]
  exact (get?_readIndex_of_mem distinct (List.mem_cons_of_mem _ List.mem_cons_self) sound).2 behind

end Cache

end CodeAtlas.Server
