import CodeAtlas.Proofs.Disk.Ways
import CodeAtlas.Server.Reply

/-!
Showing a document. The page is a function of the text that the disk has at the document's place.
-/

namespace CodeAtlas

namespace Server

variable {render : Renderer} {path name : String}
  {document : String → String → Except Fault Page.Document}

theorem shown_eq_page_iff {disk : Disk} {page : String} :
    shown render disk path name document = .page page ↔
      ∃ text, (disk.get? path).bind FileTree.content? = some text ∧
        pageFrom render path document text = .ok page := by
  simp only [shown, ← Disk.read_eq_ok_iff]
  cases disk.read path with
  | error cause => simp [bind, Except.bind]
  | ok text =>
    simp only [bind, Except.bind, Except.ok.injEq, exists_eq_left']
    cases pageFrom render path document text <;> simp

theorem shown_cases (render : Renderer) (disk : Disk) (path name : String)
    (document : String → String → Except Fault Page.Document) :
    (∃ page, shown render disk path name document = .page page) ∨
      ∃ status detail, shown render disk path name document = .refused status detail := by
  rw [shown]
  cases disk.read path >>= pageFrom render path document with
  | ok page => exact .inl ⟨page, rfl⟩
  | error cause => exact .inr ⟨500, _, rfl⟩

end Server

end CodeAtlas
