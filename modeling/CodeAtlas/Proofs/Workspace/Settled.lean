import CodeAtlas.Proofs.Disk.Folder

/-!
Runs that can be repeated. In a folder without links, what a run does depends on what is seen at the
places that it reads, and it changes what is seen at the places that it writes. A run has come to
rest if it would find everything as it left it: then it ends in the same way and changes nothing.
Parts of a run can be taken one by one, as long as a later part writes nothing that an earlier part
has read.
-/

namespace CodeAtlas.Disk

/-- The same is seen at some places of a folder. -/
def SameAt (base : List String) (places : List (List String)) (disk other : Disk) : Prop :=
  ∀ place ∈ places, other.root.view (base ++ place) = disk.root.view (base ++ place)

/-- The same is seen at all other places of a folder. -/
def SameBut (base : List String) (places : List (List String)) (disk later : Disk) : Prop :=
  ∀ place, place ∉ places → later.root.view (base ++ place) = disk.root.view (base ++ place)

namespace LinkFree

variable {disk : Disk} {folder path : String} {base place : List String}

theorem exists?_eq (free : disk.LinkFree folder base) (isBelow : Path.IsBelow folder path place)
    (noUp : ∀ name ∈ place, name ≠ "..") :
    disk.exists? path = (disk.root.view (base ++ place)).isSome := by
  rw [exists?, free.get?_eq isBelow noUp, FileTree.view, Option.isSome_map]

theorem read_eq_ok_iff (free : disk.LinkFree folder base) (isBelow : Path.IsBelow folder path place)
    (noUp : ∀ name ∈ place, name ≠ "..") {text : String} :
    disk.read path = .ok text ↔
      (disk.root.view (base ++ place)).bind FileTree.content? = some text := by
  have surface : ∀ tree : FileTree, tree.surface.content? = tree.content? := by
    intro tree
    cases tree with
    | _ => rfl
  rw [Disk.read_eq_ok_iff, free.get?_eq isBelow noUp, FileTree.view, Option.bind_map]
  simp only [Function.comp_def, surface]

end LinkFree

end CodeAtlas.Disk

namespace CodeAtlas.Work

variable {α β : Type} {disk middle later : Disk}

/-! ## What comes out of a run -/

/-- A run ends on a disk with a value, or early without one. -/
def Gives (work : Work α) (disk : Disk) (value : Option α) (later : Disk) : Prop :=
  ∃ result, Ends work disk result later ∧ result.toOption = value

theorem gives_pure (value : α) : Gives (pure value) disk (some value) disk :=
  ⟨.ok value, ends_pure value, rfl⟩

theorem gives_ofExcept (result : Except Fault α) :
    Gives (ofExcept result) disk result.toOption disk := by
  refine ⟨_, ends_ofExcept result, ?_⟩
  cases result with
  | ok value => rfl
  | error cause => rfl

theorem gives_printLine (text : String) : Gives (printLine text) disk (some ()) disk :=
  ⟨.ok (), ends_printLine text, rfl⟩

theorem Gives.bind {work : Work α} {next : α → Work β} {value : α} {result : Option β}
    (first : Gives work disk (some value) middle) (onward : Gives (next value) middle result later) :
    Gives (work >>= next) disk result later := by
  rcases first with ⟨outcome, ended, isValue⟩
  rcases onward with ⟨final, further, same⟩
  cases outcome with
  | error problem => cases isValue
  | ok found =>
    cases isValue
    exact ⟨final, ended.bind further, same⟩

theorem Gives.stop {work : Work α} (first : Gives work disk none later) (next : α → Work β) :
    Gives (work >>= next) disk none later := by
  rcases first with ⟨outcome, ended, isNone⟩
  cases outcome with
  | ok found => cases isNone
  | error problem => exact ⟨.error problem, ended.stop next, rfl⟩

theorem Gives.orElse {work : Work α} {value : Option α} (gives : Gives work disk value later)
    (substitute : α) :
    Gives (tryCatch work fun _ => pure substitute) disk (some (value.getD substitute)) later := by
  rcases gives with ⟨outcome, ended, rfl⟩
  refine ⟨.ok (outcome.toOption.getD substitute), ⟨fun workspace same => ?_⟩, rfl⟩
  have here := ended.run workspace same
  rcases ran : work.start workspace with ⟨result, left⟩
  rw [ran] at here
  rcases here with ⟨rfl, rfl⟩
  rw [start_tryCatch, ran]
  cases result with
  | ok found => exact ⟨rfl, rfl⟩
  | error problem => exact ⟨rfl, rfl⟩

/-! ## Runs at rest -/

section Settles

variable {folder : String} {base : List String} {reads writes : List (List String)}

/-- A run leads from a disk to a later one and has come to rest there: where the same is seen at the
places that it reads, it ends in the same way and changes nothing. -/
structure Settles (folder : String) (base : List String) (work : Work α) (disk : Disk)
    (reads : List (List String)) (value : Option α) (later : Disk) : Prop where
  gives : Gives work disk value later
  free : later.LinkFree folder base
  again : ∀ other : Disk, other.LinkFree folder base → later.SameAt base reads other →
    Gives work other value other

theorem Settles.mono {work : Work α} {value : Option α} {more : List (List String)}
    (settles : Settles folder base work disk reads value later) (subset : reads ⊆ more) :
    Settles folder base work disk more value later :=
  ⟨settles.gives, settles.free, fun other free same =>
    settles.again other free fun place member => same place (subset member)⟩

theorem Settles.stop {work : Work α} (settles : Settles folder base work disk reads none later)
    (next : α → Work β) : Settles folder base (work >>= next) disk reads none later :=
  ⟨settles.gives.stop next, settles.free, fun other free same =>
    (settles.again other free same).stop next⟩

theorem Settles.silent {work : Work α} {next : α → Work β} {value : α} {result : Option β}
    (settles : Settles folder base work disk reads (some value) later)
    (onward : ∀ disk, Gives (next value) disk result disk) :
    Settles folder base (work >>= next) disk reads result later :=
  ⟨settles.gives.bind (onward later), settles.free, fun other free same =>
    (settles.again other free same).bind (onward other)⟩

/-- A run goes on after a part that has come to rest, and leaves alone what the part has read. -/
theorem Settles.bind {work : Work α} {next : α → Work β} {value : α} {result : Option β}
    {others : List (List String)} (first : Settles folder base work disk reads (some value) middle)
    (onward : Settles folder base (next value) middle others result later)
    (untouched : middle.SameAt base reads later) :
    Settles folder base (work >>= next) disk (reads ++ others) result later := by
  refine ⟨first.gives.bind onward.gives, onward.free, fun other free same => ?_⟩
  have before : middle.SameAt base reads other := fun place member =>
    (same place (List.mem_append_left _ member)).trans (untouched place member)
  have after : later.SameAt base others other := fun place member =>
    same place (List.mem_append_right _ member)
  exact (first.again other free before).bind (onward.again other free after)

/-- Whatever is in a folder without links, a run comes to rest; the places that it reads and those
that it writes are known. -/
def Repeatable (folder : String) (base : List String) (work : Work α)
    (reads writes : List (List String)) : Prop :=
  ∀ disk : Disk, disk.LinkFree folder base → ∃ value later,
    Settles folder base work disk reads value later ∧ disk.SameBut base writes later

theorem repeatable_of_gives {work : Work α} {value : Option α}
    (gives : ∀ disk, Gives work disk value disk) : Repeatable folder base work [] [] :=
  fun disk free => ⟨value, disk, ⟨gives disk, free, fun other _ _ => gives other⟩, fun _ _ => rfl⟩

theorem repeatable_pure (value : α) : Repeatable folder base (pure value) [] [] :=
  repeatable_of_gives fun _ => gives_pure value

theorem repeatable_printLine (text : String) : Repeatable folder base (printLine text) [] [] :=
  repeatable_of_gives fun _ => gives_printLine text

namespace Repeatable

theorem mono {work : Work α} {moreReads moreWrites : List (List String)}
    (repeatable : Repeatable folder base work reads writes) (readsSubset : reads ⊆ moreReads)
    (writesSubset : writes ⊆ moreWrites) : Repeatable folder base work moreReads moreWrites := by
  intro disk free
  rcases repeatable disk free with ⟨value, later, settles, same⟩
  exact ⟨value, later, settles.mono readsSubset, fun place absent =>
    same place fun member => absent (writesSubset member)⟩

theorem bind {work : Work α} {next : α → Work β} {laterReads laterWrites : List (List String)}
    (first : Repeatable folder base work reads writes)
    (onward : ∀ value, Repeatable folder base (next value) laterReads laterWrites)
    (apart : ∀ place ∈ reads, place ∉ laterWrites) :
    Repeatable folder base (work >>= next) (reads ++ laterReads) (writes ++ laterWrites) := by
  intro disk free
  rcases first disk free with ⟨value, middle, settles, same⟩
  cases value with
  | none =>
    refine ⟨none, middle, (settles.stop next).mono (List.subset_append_left _ _), ?_⟩
    exact fun place absent => same place fun member => absent (List.mem_append_left _ member)
  | some value =>
    rcases onward value middle settles.free with ⟨result, later, further, sameLater⟩
    refine ⟨result, later, settles.bind further fun place member => ?_, fun place absent => ?_⟩
    · exact sameLater place (apart place member)
    · rw [List.mem_append, not_or] at absent
      exact (sameLater place absent.2).trans (same place absent.1)

theorem printed {text : String} {next : Unit → Work α}
    (onward : Repeatable folder base (next ()) reads writes) :
    Repeatable folder base (printLine text >>= next) reads writes :=
  bind (repeatable_printLine text) (fun _ => onward)
    fun _ member => absurd member List.not_mem_nil

theorem silent {work : Work α} {next : α → Work β} (first : Repeatable folder base work reads writes)
    (onward : ∀ value, Repeatable folder base (next value) [] []) :
    Repeatable folder base (work >>= next) reads writes := by
  have whole := first.bind onward fun _ _ => List.not_mem_nil
  rwa [List.append_nil, List.append_nil] at whole

theorem known {result : Except Fault β} {next : β → Work α}
    (onward : ∀ value, result = .ok value → Repeatable folder base (next value) reads writes) :
    Repeatable folder base (ofExcept result >>= next) reads writes := by
  cases result with
  | ok value => exact onward value rfl
  | error cause =>
    have stops : Repeatable folder base (ofExcept (.error cause) >>= next) [] [] :=
      repeatable_of_gives fun _ => (gives_ofExcept (.error cause)).stop next
    exact stops.mono (List.nil_subset _) (List.nil_subset _)

theorem orElse {work : Work α} (repeatable : Repeatable folder base work reads writes)
    (substitute : α) :
    Repeatable folder base (tryCatch work fun _ => pure substitute) reads writes := by
  intro disk free
  rcases repeatable disk free with ⟨value, later, settles, same⟩
  exact ⟨_, later, ⟨settles.gives.orElse substitute, settles.free, fun other free sameReads =>
    (settles.again other free sameReads).orElse substitute⟩, same⟩

end Repeatable

/-! ## Reading and writing -/

variable {path : String} {place above : List String} {name : String}

theorem gives_exists? (free : disk.LinkFree folder base) (isBelow : Path.IsBelow folder path place)
    (noUp : ∀ part ∈ place, part ≠ "..") :
    Gives (exists? path) disk (some (disk.root.view (base ++ place)).isSome) disk := by
  rw [← free.exists?_eq isBelow noUp]
  exact ⟨_, ends_disk.bind (ends_pure _), rfl⟩

theorem gives_readText (free : disk.LinkFree folder base) (isBelow : Path.IsBelow folder path place)
    (noUp : ∀ part ∈ place, part ≠ "..") :
    Gives (readText path) disk
      (((disk.root.view (base ++ place)).bind FileTree.content?).map Text.unifyBreaks) disk := by
  cases content : (disk.root.view (base ++ place)).bind FileTree.content? with
  | some text =>
    exact ⟨_, ends_readText ((free.read_eq_ok_iff isBelow noUp).mpr content), rfl⟩
  | none =>
    refine ⟨((Text.unifyBreaks <$> disk.read path).mapError .fault), ⟨?_⟩, ?_⟩
    · rintro workspace rfl
      rw [start_readText]
      exact ⟨rfl, rfl⟩
    · cases read : disk.read path with
      | error cause => rfl
      | ok text =>
        rw [free.read_eq_ok_iff isBelow noUp, content] at read
        cases read

theorem repeatable_exists? (isBelow : Path.IsBelow folder path place)
    (noUp : ∀ part ∈ place, part ≠ "..") : Repeatable folder base (exists? path) [place] [] := by
  intro disk free
  refine ⟨_, disk, ⟨gives_exists? free isBelow noUp, free, fun other otherFree same => ?_⟩,
    fun _ _ => rfl⟩
  rw [← same place List.mem_cons_self]
  exact gives_exists? otherFree isBelow noUp

theorem repeatable_readText (isBelow : Path.IsBelow folder path place)
    (noUp : ∀ part ∈ place, part ≠ "..") : Repeatable folder base (readText path) [place] [] := by
  intro disk free
  refine ⟨_, disk, ⟨gives_readText free isBelow noUp, free, fun other otherFree same => ?_⟩,
    fun _ _ => rfl⟩
  rw [← same place List.mem_cons_self]
  exact gives_readText otherFree isBelow noUp

theorem gives_of_error {disk : Disk} {path text : String} {cause : Fault}
    (failed : disk.write path text = .error cause) : Gives (writeText path text) disk none disk := by
  refine ⟨.error (.fault cause), ⟨?_⟩, rfl⟩
  rintro workspace rfl
  rw [start_writeText, failed]
  exact ⟨rfl, rfl⟩

theorem repeatable_writeText (isBelow : Path.IsBelow folder path (above ++ [name]))
    (named : ∀ part ∈ above ++ [name], Path.IsName part) (text : String) :
    Repeatable folder base (writeText path text) [above, above ++ [name]] [above ++ [name]] := by
  intro disk free
  have noUp : ∀ part ∈ above ++ [name], part ≠ ".." := fun part member => (named part member).notUp
  cases wrote : disk.write path text with
  | ok later =>
    have views := free.view_write isBelow noUp wrote
    have here : later.root.view (base ++ (above ++ [name])) = some (.file text) := by
      rw [views, ← List.append_assoc, if_pos rfl]
    refine ⟨some (), later, ⟨⟨_, ends_writeText wrote, rfl⟩, free.write wrote, ?_⟩, ?_⟩
    · intro other otherFree same
      rw [← same _ (List.mem_cons_of_mem _ List.mem_cons_self)] at here
      exact ⟨_, ends_writeText (otherFree.write_self isBelow here), rfl⟩
    · intro place absent
      rw [views, if_neg]
      rw [List.append_assoc]
      exact fun equal => absent (List.mem_singleton.mpr (List.append_cancel_left equal))
  | error cause =>
    refine ⟨none, disk, ⟨gives_of_error wrote, free, ?_⟩, fun _ _ => rfl⟩
    intro other otherFree same
    cases again : other.write path text with
    | error problem => exact gives_of_error again
    | ok later =>
      -- What lets the text be written is seen at the two places.
      rcases otherFree.of_write isBelow noUp again with ⟨inside, notFolder, _⟩
      rw [List.append_assoc, same _ (List.mem_cons_of_mem _ List.mem_cons_self),
        ← List.append_assoc] at notFolder
      rw [same _ List.mem_cons_self] at inside
      cases wrote.symm.trans (free.write_eq isBelow named inside notFolder text)

theorem repeatable_makeDirectories (isBelow : Path.IsBelow folder path place)
    (named : ∀ part ∈ place, Path.IsName part) :
    Repeatable folder base (makeDirectories path) place.inits place.inits := by
  intro disk free
  by_cases clear : ∀ upper, upper <+: place → disk.root.view (base ++ upper) = none ∨
      disk.root.view (base ++ upper) = some (.directory [])
  · rcases free.exists_makeDirectories isBelow named clear with ⟨later, made, laterFree, there, same⟩
    refine ⟨some (), later, ⟨⟨_, ends_makeDirectories made, rfl⟩, laterFree, ?_⟩, ?_⟩
    · intro other otherFree sameReads
      have arrived := there place List.prefix_rfl
      rw [← sameReads place ((List.mem_inits _ _).mpr List.prefix_rfl)] at arrived
      exact ⟨_, ends_makeDirectories (otherFree.makeDirectories_self isBelow arrived), rfl⟩
    · intro other absent
      apply same
      rw [List.prefix_append_right_inj]
      exact fun starts => absent ((List.mem_inits _ _).mpr starts)
  · simp only [not_forall, not_or] at clear
    rcases clear with ⟨upper, starts, present, blocked⟩
    have fails : ∀ other : Disk, other.LinkFree folder base → disk.SameAt base place.inits other →
        Gives (makeDirectories path) other none other := by
      intro other otherFree same
      rw [← same upper ((List.mem_inits _ _).mpr starts)] at present blocked
      rcases otherFree.makeDirectories_blocked isBelow named starts present blocked with ⟨cause, failed⟩
      refine ⟨.error (.fault cause), ⟨?_⟩, rfl⟩
      rintro workspace rfl
      rw [start_makeDirectories, failed]
      exact ⟨rfl, rfl⟩
    exact ⟨none, disk, ⟨fails disk free fun _ _ => rfl, free, fails⟩, fun _ _ => rfl⟩

end Settles

end CodeAtlas.Work
