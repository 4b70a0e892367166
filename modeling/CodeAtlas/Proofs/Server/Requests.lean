import CodeAtlas.Proofs.Server.Documents
import CodeAtlas.Proofs.Workspace
import CodeAtlas.Server.Requests

/-!
Which documents the service shows. The name in a request is joined to the folder of the job's
documentation and followed wherever it leads. A relative name without double dots stays in the
folder unless it meets a link; the whole path of a file leads to this file from every folder.
-/

namespace CodeAtlas.Server.Service

open Work

/-! ## Values and caches -/

theorem valueAt_of_absent {disk : Disk} {path : String} (absent : disk.get? path = none) :
    valueAt disk path = .null := by
  rw [valueAt]
  cases read : disk.read path with
  | error cause => rfl
  | ok text =>
    rw [Disk.read_eq_ok_iff, absent] at read
    cases read

def saved (service : Service) : Service :=
  { service with cache := { service.cache with unsaved := false } }

theorem exists_start_saveCache (service : Service) (workspace : Workspace) :
    ∃ later, service.saveCache.start workspace = (.ok service.saved, later) := by
  rw [saveCache, Cache.save]
  cases service.cache.unsaved with
  | false => exact ⟨workspace, rfl⟩
  | true =>
    simp only [if_true, start_bind, start_tryCatch]
    cases (Work.saveJson (Cache.indexJson service.cache.index) service.cache.file).start
        workspace with
    | mk result later =>
      cases result with
      | ok value => exact ⟨later, rfl⟩
      | error problem => exact ⟨_, rfl⟩

theorem exists_start_post (service : Service) (now : Time.Moment) (workspace : Workspace)
    (address : Option String) (commit : String) :
    ∃ later, (service.post now address commit).start workspace =
      (.ok ((service.submit now workspace.disk.exists? address commit).1.saved,
        (service.submit now workspace.disk.exists? address commit).2), later) := by
  rcases exists_start_saveCache (service.submit now workspace.disk.exists? address commit).1
    workspace with ⟨later, saved⟩
  refine ⟨later, ?_⟩
  simp only [post, start_bind, start_disk, saved, start_pure]

theorem exists_start_saveJobs (service : Service) (workspace : Workspace) :
    ∃ later, service.saveJobs.start workspace = (.ok (), later) := by
  rw [saveJobs, start_tryCatch]
  split
  · exact ⟨_, rfl⟩
  · exact ⟨_, rfl⟩

/-! ## Requests -/

theorem requested_pathOf (place : List String) :
    requested (Disk.pathOf place) = Disk.pathOf place := by
  have filled : (Disk.pathOf place).isEmpty = false := by
    rw [← Bool.not_eq_true, String.isEmpty_iff, ← String.toList_inj, Disk.pathOf,
      String.toList_append]
    exact List.cons_ne_nil _ _
  rw [requested, filled, if_neg Bool.false_ne_true]

theorem exists_start_serve_saved (service : Service) (now : Time.Moment) (render : Renderer)
    (id : String) (workspace : Workspace) :
    ∃ later, ∀ name, (service.serve now render id name).start workspace =
      (.ok ((service.findDocs now workspace.disk.exists? id).1.saved,
        answerTo render later.disk id (requested name)
          (service.findDocs now workspace.disk.exists? id).2), later) := by
  rcases looked : service.findDocs now workspace.disk.exists? id with ⟨changed, found⟩
  rcases exists_start_saveCache changed workspace with ⟨cached, saved⟩
  generalize changed.saved = after at saved
  cases entered : !service.jobs.contains id && after.jobs.contains id with
  | true =>
    rcases exists_start_saveJobs after cached with ⟨later, kept⟩
    refine ⟨later, fun name => ?_⟩
    simp only [serve, start_bind, start_disk, looked, saved, entered, if_true, kept, start_pure]
  | false =>
    refine ⟨cached, fun name => ?_⟩
    simp only [serve, start_bind, start_disk, looked, saved, entered, Bool.false_eq_true, if_false,
      start_pure]

theorem exists_start_serve (service : Service) (now : Time.Moment) (render : Renderer) (id : String)
    (workspace : Workspace) :
    ∃ after later, ∀ name, (service.serve now render id name).start workspace =
      (.ok (after, answerTo render later.disk id (requested name)
        (service.findDocs now workspace.disk.exists? id).2), later) := by
  rcases exists_start_serve_saved service now render id workspace with ⟨later, run⟩
  exact ⟨_, later, run⟩

theorem start_serve_of_known {service : Service} {id : String} {job : Job}
    (known : service.jobs.get? id = some job) (saved : service.cache.unsaved = false)
    (now : Time.Moment) (render : Renderer) (name : String) (workspace : Workspace) :
    (service.serve now render id name).start workspace =
      (.ok (service, answerTo render workspace.disk id (requested name)
        (service.findDocs now workspace.disk.exists? id).2), workspace) := by
  have kept : (service.findDocs now workspace.disk.exists? id).1 = service := by
    rw [findDocs, known]
  rcases looked : service.findDocs now workspace.disk.exists? id with ⟨after, found⟩
  rw [looked] at kept
  subst kept
  have unchanged : after.saveCache.start workspace = (.ok after, workspace) := by
    rcases after with ⟨⟨folder, days, index, unsaved, key⟩, jobs, queue, running, engine⟩
    cases saved
    rfl
  have contained : after.jobs.contains id = true :=
    (OrderedMap.contains_iff after.jobs id).mpr (OrderedMap.mem_keys_of_get? known)
  simp only [serve, start_bind, start_disk, looked, unchanged, contained, Bool.not_true,
    Bool.false_and, Bool.false_eq_true, if_false, start_pure]

theorem refused_of_findDocs {service : Service} {now : Time.Moment} {isThere : String → Bool}
    {id : String} {reply : Reply}
    (found : (service.findDocs now isThere id).2 = .ok (.error reply)) :
    ∃ status detail, reply = .refused status detail := by
  rw [findDocs] at found
  split at found
  · rename_i job known
    cases has : job.hasDocs with
    | false =>
      rw [has] at found
      cases found
      exact ⟨_, _, rfl⟩
    | true =>
      rw [has] at found
      cases written : job.docs.string with
      | error cause =>
        rw [written] at found
        cases found
      | ok folder =>
        rw [written] at found
        cases found
  · simp only at found
    split at found
    · cases found
    · split at found
      · cases found
      · cases found
      · cases found
        exact ⟨_, _, rfl⟩

/-- A name leads from a folder, whose place is the base, to a text at a place. -/
structure Opens (disk : Disk) (folder name : String) (base place : List String) (text : String) :
    Prop where
  atBase : disk.resolve true folder = .ok base
  present : ∃ tree, disk.root.get? base = some tree
  atPlace : disk.resolve true (Path.join folder name) = .ok place
  content : (disk.root.get? place).bind FileTree.content? = some text

theorem answer_eq_page_iff {render : Renderer} {disk : Disk} {id name page : String}
    {found : Found} :
    answer render disk id name found = .page page ↔
      ∃ base place text, Opens disk found.1 name base place text ∧
        pageFrom render (Path.join found.1 name) (documentOf disk id name found) text =
          .ok page := by
  constructor
  · intro isPage
    rw [answer] at isPage
    split at isPage
    · cases isPage
    · rename_i there
      split at isPage
      · cases isPage
      · rcases shown_eq_page_iff.mp isPage with ⟨text, content, made⟩
        have present : disk.exists? found.1 = true := by simpa using there
        rcases Option.isSome_iff_exists.mp present with ⟨tree, atFolder⟩
        rcases Disk.get?_eq_some_iff.mp atFolder with ⟨base, atBase, atTree⟩
        rcases Option.bind_eq_some_iff.mp content with ⟨file, atFile, written⟩
        rcases Disk.get?_eq_some_iff.mp atFile with ⟨place, atPlace, atFile⟩
        have content : (disk.root.get? place).bind FileTree.content? = some text := by
          rw [atFile]
          exact written
        exact ⟨base, place, text, ⟨atBase, ⟨tree, atTree⟩, atPlace, content⟩, made⟩
  · rintro ⟨base, place, text, ⟨atBase, ⟨tree, atTree⟩, atPlace, content⟩, made⟩
    have atFolder : disk.get? found.1 = some tree :=
      Disk.get?_eq_some_iff.mpr ⟨base, atBase, atTree⟩
    rcases Option.bind_eq_some_iff.mp content with ⟨file, atFile, written⟩
    have atName : disk.get? (Path.join found.1 name) = some file :=
      Disk.get?_eq_some_iff.mpr ⟨place, atPlace, atFile⟩
    simp only [answer, Disk.exists?, atFolder, atName, Option.isSome_some, Bool.not_true,
      Bool.false_eq_true, if_false]
    rw [shown_eq_page_iff, atName]
    exact ⟨text, written, made⟩

theorem opens_pathOf {disk : Disk} {folder : String} {base place : List String} {text : String}
    (atBase : disk.resolve true folder = .ok base)
    (present : ∃ tree, disk.root.get? base = some tree)
    (straight : Disk.Straight disk.root place)
    (content : (disk.root.get? place).bind FileTree.content? = some text) :
    Opens disk folder (Disk.pathOf place) base place text := by
  rcases Option.bind_eq_some_iff.mp content with ⟨file, atFile, _⟩
  have joined : Path.join folder (Disk.pathOf place) = Disk.pathOf place := by
    rw [Path.join, if_pos (Disk.isAbsolute_pathOf place)]
  refine ⟨atBase, present, ?_, content⟩
  rw [joined]
  exact straight.resolve_pathOf fun _ => ⟨file, atFile⟩

/-- The service shows whatever text the requested name leads to. That is the named text below the
folder if the name is relative, has no double dots and meets no link. But the whole path of any text
leads to this text, wherever it is. -/
theorem serve_shown_iff (service : Service) (now : Time.Moment) (render : Renderer) (id : String)
    (workspace : Workspace) :
    ∃ after later,
      (∀ name, ∃ reply,
        (service.serve now render id name).start workspace = (.ok (after, reply), later) ∧
        ∀ page, reply = .ok (.page page) ↔
          ∃ found base place text,
            (service.findDocs now workspace.disk.exists? id).2 = .ok (.ok found) ∧
            Opens later.disk found.1 (requested name) base place text ∧
            pageFrom render (Path.join found.1 (requested name))
              (documentOf later.disk id (requested name) found) text = .ok page) ∧
      (∀ folder name base place text, Opens later.disk folder name base place text →
        Path.isAbsolute name = false → (∀ part ∈ Path.parts name, part ≠ "..") →
        (∀ upper target, upper ≠ [] → upper <+: Path.parts name →
          later.disk.root.get? (base ++ upper) ≠ some (.link target)) →
        place = base ++ Path.parts name) ∧
      ∀ folder base place text, later.disk.resolve true folder = .ok base →
        (∃ tree, later.disk.root.get? base = some tree) → Disk.Straight later.disk.root place →
        (later.disk.root.get? place).bind FileTree.content? = some text →
        Opens later.disk folder (requested (Disk.pathOf place)) base place text := by
  rcases exists_start_serve service now render id workspace with ⟨after, later, run⟩
  refine ⟨after, later, fun name => ⟨_, run name, fun page => ?_⟩, ?_, ?_⟩
  · generalize looked : (service.findDocs now workspace.disk.exists? id).2 = result
    rcases result with cause | (reply | found)
    · simp [answerTo]
    · rcases refused_of_findDocs looked with ⟨status, detail, rfl⟩
      simp [answerTo]
    · simp only [answerTo, Except.ok.injEq, answer_eq_page_iff]
      constructor
      · rintro ⟨base, place, text, opens, made⟩
        exact ⟨found, base, place, text, rfl, opens, made⟩
      · rintro ⟨_, base, place, text, rfl, opens, made⟩
        exact ⟨base, place, text, opens, made⟩
  · intro folder name base place text opens relative noUp unlinked
    exact Disk.resolve_join opens.atBase opens.atPlace relative noUp unlinked
  · intro folder base place text atBase present straight content
    rw [requested_pathOf]
    exact opens_pathOf atBase present straight content

/-! ## A document outside -/

/-- A folder of documents and a text beside it. -/
def secretBeside : Workspace where
  disk :=
    { root := .directory [
        ("docs", .directory [("overview.md", .file "# Overview")]),
        ("secret.md", .file "# Secret")]
      current := [] }

/-- A service with one job, whose documentation is in the folder. -/
def docsService : Service where
  cache := { folder := "/cache" }
  jobs := OrderedMap.empty.insert "owner--name"
    (.done "owner--name" (.text "https://github.com/owner/name") (.text "/docs") ⟨0, none⟩ "")

theorem opens_secret :
    Opens secretBeside.disk "/docs" "../secret.md" ["docs"] ["secret.md"] "# Secret" := by
  have joined : Path.join "/docs" "../secret.md" = "/docs/../secret.md" := by decide +kernel
  have parts : Path.parts "/docs/../secret.md" = ["docs", "..", "secret.md"] := by decide +kernel
  have folder : Path.parts "/docs" = ["docs"] := by decide +kernel
  have top : true = true → ∃ entries, secretBeside.disk.root.get? [] = some (.directory entries) :=
    fun _ => ⟨_, rfl⟩
  have docs : true = true →
      ∃ entries, secretBeside.disk.root.get? ["docs"] = some (.directory entries) :=
    fun _ => ⟨_, rfl⟩
  refine ⟨?_, ⟨_, rfl⟩, ?_, rfl⟩
  · rw [Disk.resolve_eq_ok_iff, folder]
    exact ⟨by decide +kernel, .down top (by decide) nofun .arrived⟩
  · rw [joined, Disk.resolve_eq_ok_iff, parts]
    refine ⟨by decide +kernel, .down top (by decide) nofun (.up docs ?_)⟩
    exact .down top (by decide) nofun .arrived

theorem valueAt_of_missing {name : String} (isName : Path.IsName name)
    (missing : secretBeside.disk.root.get? ["docs", name] = none) :
    valueAt secretBeside.disk (Disk.pathOf ["docs", name]) = .null := by
  have proper : secretBeside.disk.root.Proper := by decide
  have docs : Disk.Straight secretBeside.disk.root ["docs"] := .of_get? proper rfl rfl
  have straight : Disk.Straight secretBeside.disk.root (["docs"] ++ [name]) :=
    docs.concat isName fun target found => absurd (missing.symm.trans found) nofun
  apply valueAt_of_absent
  rw [← missing]
  exact straight.get?_pathOf

/-- The service shows a document that is not in the folder of the job's documentation. -/
theorem secret_shown :
    ∃ page, (docsService.serve ⟨0, none⟩ id "owner--name" "../secret.md").start secretBeside =
        (.ok (docsService, .ok (.page page)), secretBeside) ∧
      (docsService.findDocs ⟨0, none⟩ secretBeside.disk.exists? "owner--name").2 =
        .ok (.ok ("/docs", .text "https://github.com/owner/name")) ∧
      Opens secretBeside.disk "/docs" "../secret.md" ["docs"] ["secret.md"] "# Secret" ∧
      ¬ ["docs"] <+: ["secret.md"] := by
  have made : ∃ page, pageFrom id (Path.join "/docs" "../secret.md")
      (documentOf secretBeside.disk "owner--name" "../secret.md"
        ("/docs", .text "https://github.com/owner/name")) "# Secret" = .ok page := by
    have modules : valueAt secretBeside.disk (Path.join "/docs" "module_tree.json") = .null := by
      have joined : Path.join "/docs" "module_tree.json" =
          Disk.pathOf ["docs", "module_tree.json"] := by
        decide +kernel
      rw [joined]
      exact valueAt_of_missing (by decide) rfl
    have description : valueAt secretBeside.disk (Path.join "/docs" "metadata.json") = .null := by
      have joined : Path.join "/docs" "metadata.json" = Disk.pathOf ["docs", "metadata.json"] := by
        decide +kernel
      rw [joined]
      exact valueAt_of_missing (by decide) rfl
    simp only [pageFrom, documentOf, modules, description]
    exact ⟨_, rfl⟩
  rcases made with ⟨page, made⟩
  have found : (docsService.findDocs ⟨0, none⟩ secretBeside.disk.exists? "owner--name").2 =
      .ok (.ok ("/docs", .text "https://github.com/owner/name")) := rfl
  have isPage := answer_eq_page_iff.mpr ⟨["docs"], ["secret.md"], "# Secret", opens_secret, made⟩
  have asked : requested "../secret.md" = "../secret.md" := by decide +kernel
  refine ⟨page, ?_, found, opens_secret, by decide⟩
  rw [start_serve_of_known (OrderedMap.get?_insert_self _ _ _) rfl, found, asked, answerTo, isPage]

end CodeAtlas.Server.Service
