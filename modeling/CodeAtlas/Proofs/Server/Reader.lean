import CodeAtlas.Proofs.Server.Documents
import CodeAtlas.Server.Reader

/-!
Which documents the reader shows. Whether a place is inside of the folder is decided on the texts of
the two paths. So a document is shown if it is below the folder, and also if it is below a directory
beside the folder whose name goes on after the name of the folder.
-/

namespace CodeAtlas.Server.Reader

/-! ## The test on texts -/

/-- A place in a directory beside a base, with a name that goes on after the name of the base. -/
def Beside (base place : List String) : Prop :=
  ∃ above last more rest, more ≠ "" ∧ base = above ++ [last] ∧
    place = above ++ (last ++ more) :: rest

theorem Beside.not_below {base place : List String} (beside : Beside base place) :
    ¬ base <+: place := by
  rcases beside with ⟨above, last, more, rest, longer, rfl, rfl⟩
  intro below
  have same := (List.cons_prefix_cons.mp ((List.prefix_append_right_inj above).mp below)).1
  have onTexts := congrArg String.toList same
  rw [String.toList_append, List.self_eq_append_right] at onTexts
  exact longer (String.toList_inj.mp onTexts)

theorem isInside_iff {base place : List String} (baseNamed : ∀ name ∈ base, Path.IsName name)
    (placeNamed : ∀ name ∈ place, Path.IsName name) :
    isInside base place = true ↔ base <+: place ∨ Beside base place := by
  have onTexts : isInside base place = true ↔
      (Text.join "/" base).toList <+: (Text.join "/" place).toList := by
    rw [isInside, Text.startsWith_iff, Disk.pathOf, Disk.pathOf, String.toList_append,
      String.toList_append, List.prefix_append_right_inj]
  rw [onTexts]
  by_cases filled : base = []
  · subst filled
    simp
  · rw [Path.join_prefix_join_iff filled (fun name member => (baseNamed name member).toIsPart)
      (fun name member => (placeNamed name member).toIsPart)]
    constructor
    · rintro ⟨above, last, more, rest, rfl, rfl⟩
      by_cases longer : more = ""
      · subst longer
        refine .inl ⟨rest, ?_⟩
        simp
      · exact .inr ⟨above, last, more, rest, longer, rfl, rfl⟩
    · rintro (⟨rest, rfl⟩ | ⟨above, last, more, rest, _, sameBase, samePlace⟩)
      · rcases List.eq_nil_or_concat' base with empty | ⟨above, last, rfl⟩
        · exact absurd empty filled
        · exact ⟨above, last, "", rest, rfl, by simp⟩
      · exact ⟨above, last, more, rest, sameBase, samePlace⟩

/-! ## Answers -/

variable {reader : Reader} {render : Renderer} {disk : Disk} {name : String}

/-- A name leads from the reader's folder, whose place is the base, to a place. -/
structure Leads (reader : Reader) (disk : Disk) (name : String) (base place : List String) :
    Prop where
  isMarkdown : Text.endsWith name ".md" = true
  resolved : ∃ folder, reader.folder = some folder ∧ disk.resolve false folder = .ok base ∧
    disk.resolve false (Path.join folder name) = .ok place

theorem answer_cases (reader : Reader) (render : Renderer) (disk : Disk) (name : String) :
    (∃ base place, reader.Leads disk name base place ∧ isInside base place = true ∧
      reader.answer render disk name =
        shown render disk (Disk.pathOf place) name (reader.documentOf name)) ∨
      ∃ status detail, reader.answer render disk name = .refused status detail := by
  rw [answer]
  split
  · exact .inr ⟨_, _, rfl⟩
  · rename_i folder chosen
    split
    · exact .inr ⟨_, _, rfl⟩
    · rename_i isMarkdown
      split
      · rename_i place base atPlace atBase
        split
        · exact .inr ⟨_, _, rfl⟩
        · rename_i inside
          split
          · exact .inr ⟨_, _, rfl⟩
          · have leads : reader.Leads disk name base place :=
              ⟨by simpa using isMarkdown, folder, chosen, atBase, atPlace⟩
            exact .inl ⟨base, place, leads, by simpa using inside, rfl⟩
      · exact .inr ⟨_, _, rfl⟩

theorem answer_of_leads (sound : disk.Sound) {base place : List String}
    (leads : reader.Leads disk name base place) (within : base <+: place ∨ Beside base place)
    {tree : FileTree} (found : disk.root.get? place = some tree) :
    reader.answer render disk name =
      shown render disk (Disk.pathOf place) name (reader.documentOf name) := by
  rcases leads with ⟨isMarkdown, folder, chosen, atBase, atPlace⟩
  have straight := sound.straight_resolve atPlace
  have inside := (isInside_iff (sound.straight_resolve atBase).named straight.named).mpr within
  have present : disk.exists? (Disk.pathOf place) = true := by
    rw [Disk.exists?, straight.get?_pathOf, found, Option.isSome_some]
  simp only [answer, chosen, isMarkdown, atPlace, atBase, inside, present, Bool.not_true,
    Bool.false_eq_true, if_false]

theorem answer_eq_page_iff (sound : disk.Sound) {page : String} :
    reader.answer render disk name = .page page ↔
      ∃ base place text, reader.Leads disk name base place ∧
        (base <+: place ∨ Beside base place) ∧
        (disk.root.get? place).bind FileTree.content? = some text ∧
        pageFrom render (Disk.pathOf place) (reader.documentOf name) text = .ok page := by
  constructor
  · intro isPage
    rcases answer_cases reader render disk name with
      ⟨base, place, leads, inside, same⟩ | ⟨status, detail, same⟩
    · rcases leads.resolved with ⟨folder, _, atBase, atPlace⟩
      have straight := sound.straight_resolve atPlace
      rw [same, shown_eq_page_iff, straight.get?_pathOf] at isPage
      rcases isPage with ⟨text, found, made⟩
      rw [isInside_iff (sound.straight_resolve atBase).named straight.named] at inside
      exact ⟨base, place, text, leads, inside, found, made⟩
    · rw [same] at isPage
      cases isPage
  · rintro ⟨base, place, text, leads, within, found, made⟩
    rcases leads.resolved with ⟨folder, _, _, atPlace⟩
    rcases Option.bind_eq_some_iff.mp found with ⟨tree, atTree, _⟩
    rw [answer_of_leads sound leads within atTree, shown_eq_page_iff,
      (sound.straight_resolve atPlace).get?_pathOf]
    exact ⟨text, found, made⟩

/-- A document is shown exactly if its name leads to a text below the folder or below a directory
beside the folder whose name goes on after the folder's name. Every other request is refused. -/
theorem document_shown_iff (reader : Reader) (render : Renderer) (name : String)
    (workspace : Workspace) (sound : workspace.disk.Sound) :
    ∃ reply, (reader.document render name).start workspace = (.ok reply, workspace) ∧
      ((∃ page, reply = .page page) ∨ ∃ status detail, reply = .refused status detail) ∧
      ∀ page, reply = .page page ↔
        ∃ base place text, reader.Leads workspace.disk name base place ∧
          (base <+: place ∨ Beside base place) ∧
          (workspace.disk.root.get? place).bind FileTree.content? = some text ∧
          pageFrom render (Disk.pathOf place) (reader.documentOf name) text = .ok page := by
  refine ⟨reader.answer render workspace.disk name, rfl, ?_, ?_⟩
  · rcases answer_cases reader render workspace.disk name with ⟨_, _, _, _, same⟩ | refused
    · rw [same]
      exact shown_cases _ _ _ _ _
    · exact Or.inr refused
  · exact fun page => answer_eq_page_iff sound

/-! ## A folder with a neighbour -/

/-- A folder of documents and one beside it whose name starts alike. -/
def neighbours : Workspace where
  disk :=
    { root := .directory [
        ("docs", .directory [("overview.md", .file "# Overview")]),
        ("docs-private", .directory [("notes.md", .file "# Notes")])]
      current := [] }

def docsReader : Reader := { folder := some "/docs" }

theorem sound_neighbours : neighbours.disk.Sound :=
  ⟨by decide, _, rfl⟩

theorem exists_plain_page (render : Renderer) (path name text : String) :
    ∃ page, pageFrom render path (docsReader.documentOf name) text = .ok page :=
  ⟨_, rfl⟩

theorem resolve_docs : neighbours.disk.resolve false "/docs" = .ok ["docs"] := by
  have parts : Path.parts "/docs" = ["docs"] := by decide +kernel
  rw [Disk.resolve_eq_ok_iff, parts]
  exact ⟨by decide +kernel, .down nofun (by decide) nofun .arrived⟩

theorem leads_overview :
    docsReader.Leads neighbours.disk "overview.md" ["docs"] ["docs", "overview.md"] := by
  refine ⟨by decide +kernel, "/docs", rfl, resolve_docs, ?_⟩
  have joined : Path.join "/docs" "overview.md" = "/docs/overview.md" := by decide +kernel
  have parts : Path.parts "/docs/overview.md" = ["docs", "overview.md"] := by decide +kernel
  rw [joined, Disk.resolve_eq_ok_iff, parts]
  refine ⟨by decide +kernel, .down nofun (by decide) nofun ?_⟩
  exact .down nofun (by decide) nofun .arrived

theorem leads_notes :
    docsReader.Leads neighbours.disk "../docs-private/notes.md" ["docs"]
      ["docs-private", "notes.md"] := by
  refine ⟨by decide +kernel, "/docs", rfl, resolve_docs, ?_⟩
  have joined : Path.join "/docs" "../docs-private/notes.md" =
      "/docs/../docs-private/notes.md" := by
    decide +kernel
  have parts : Path.parts "/docs/../docs-private/notes.md" =
      ["docs", "..", "docs-private", "notes.md"] := by
    decide +kernel
  rw [joined, Disk.resolve_eq_ok_iff, parts]
  refine ⟨by decide +kernel, .down nofun (by decide) nofun (.up nofun ?_)⟩
  exact .down nofun (by decide) nofun (.down nofun (by decide) nofun .arrived)

theorem document_shown_iff_neighbours :
    neighbours.disk.Sound ∧
      ∃ reply, (docsReader.document id "overview.md").start neighbours = (.ok reply, neighbours) ∧
        ∃ page, reply = .page page := by
  rcases document_shown_iff docsReader id "overview.md" neighbours sound_neighbours with
    ⟨reply, run, _, shows⟩
  rcases exists_plain_page id (Disk.pathOf ["docs", "overview.md"]) "overview.md" "# Overview" with
    ⟨page, made⟩
  have isPage : reply = .page page :=
    (shows page).mpr ⟨["docs"], ["docs", "overview.md"], "# Overview", leads_overview,
      Or.inl (List.prefix_append ["docs"] _), rfl, made⟩
  exact ⟨sound_neighbours, reply, run, page, isPage⟩

/-- The reader shows a document that is not in its folder. -/
theorem neighbour_shown :
    ∃ page, (docsReader.document id "../docs-private/notes.md").start neighbours =
        (.ok (.page page), neighbours) ∧
      pageFrom id (Disk.pathOf ["docs-private", "notes.md"])
        (docsReader.documentOf "../docs-private/notes.md") "# Notes" = .ok page ∧
      docsReader.Leads neighbours.disk "../docs-private/notes.md" ["docs"]
        ["docs-private", "notes.md"] ∧
      ¬ ["docs"] <+: ["docs-private", "notes.md"] := by
  rcases exists_plain_page id (Disk.pathOf ["docs-private", "notes.md"])
    "../docs-private/notes.md" "# Notes" with ⟨page, made⟩
  have beside : Beside ["docs"] ["docs-private", "notes.md"] :=
    ⟨[], "docs", "-private", ["notes.md"], by decide, rfl, rfl⟩
  have isPage : docsReader.answer id neighbours.disk "../docs-private/notes.md" = .page page :=
    (answer_eq_page_iff sound_neighbours).mpr
      ⟨["docs"], ["docs-private", "notes.md"], "# Notes", leads_notes, Or.inr beside, rfl, made⟩
  have run : (docsReader.document id "../docs-private/notes.md").start neighbours =
      (.ok (docsReader.answer id neighbours.disk "../docs-private/notes.md"), neighbours) := rfl
  refine ⟨page, ?_, made, leads_notes, beside.not_below⟩
  rw [run, isPage]

end CodeAtlas.Server.Reader
