import CodeAtlas.Wiki.AnalysisFiles
import CodeAtlas.Wiki.Generation

/-!
The agent that makes a wiki by itself: it finds the files of an analysis, or has the analysis
made by an outside tool, writes the illustrated wiki and checks it.
-/

namespace CodeAtlas.Wiki

structure Agent where
  repository : String
  docs : String := "docs"
  verbose : Bool := true

namespace Agent

def log (agent : Agent) (sign message : String) : Work Unit :=
  if agent.verbose then Work.printLine (sign ++ " " ++ message) else return

/-! ## Files of an analysis -/

def findIn (agent : Agent) : List String → Work (Option (String × String))
  | [] => do
    agent.log "❌" "✗ Arquivos de análise não encontrados"
    return none
  | place :: rest => do
    let disk ← Work.disk
    let folder := Path.below agent.repository place
    if !disk.exists? folder then agent.findIn rest
    else
      match AnalysisFiles.tree? disk folder, (AnalysisFiles.graph disk folder true).2 with
      | some tree, some graph =>
        agent.log "✅" ("✓ Arquivos encontrados em: " ++ place)
        agent.log "📄" ("  Module tree: " ++ Path.name tree.path)
        agent.log "📄" ("  Dependency graph: " ++ Path.name graph.path)
        return some (tree.path, graph.path)
      | _, _ => agent.findIn rest

def find (agent : Agent) : Work (Option (String × String)) := do
  agent.log "🔍" "Procurando arquivos de análise..."
  agent.findIn ["temp", "docs", "wiki", ".codewiki", "."]

mutual

def measure : List (String × Json) → Except Fault (Nat × Nat)
  | [] => return (0, 0)
  | (_, value) :: rest => do
    let (inside, below) ← measureModule value
    let (others, depth) ← measure rest
    return (1 + inside + others, max below depth)

def measureModule : Json → Except Fault (Nat × Nat)
  | .object members => measureMembers members
  | _ => throw .noSuchMember

def measureMembers : List (String × Json) → Except Fault (Nat × Nat)
  | [] => return (0, 0)
  | ("children", .object []) :: _ => return (0, 0)
  | ("children", .object (child :: children)) :: _ => do
    let (inside, below) ← measure (child :: children)
    return (inside, below + 1)
  | ("children", other) :: _ => if other.isTruthy then throw .noSuchMember else return (0, 0)
  | _ :: rest => measureMembers rest

end

def measureTree (tree : Json) : Except Fault (Nat × Nat) := do measure (← tree.members)

def load (agent : Agent) (treePath graphPath : String) : Work (Json × Json) := do
  agent.log "📊" "Carregando dados de análise..."
  let tree ← Work.readJson treePath
  let graph ← Work.readJson graphPath
  let (modules, depth) ← Work.ofExcept (measureTree tree)
  let components ← Work.ofExcept graph.size
  agent.log "📊" ("\n📊 Análise do Repositório:\n   • Módulos: " ++ Decimal.natText modules ++
    "\n   • Componentes: " ++ Decimal.natText components ++ "\n   • Profundidade: " ++
    Decimal.natText depth ++ " níveis\n        ")
  return (tree, graph)

def findAndLoad (agent : Agent) : Work (Json × Json) := do
  match ← agent.find with
  | some (tree, graph) => agent.load tree graph
  | none => throw (.fault .wrongKind)

/-! ## Outside commands -/

def execute (agent : Agent) (command : String) (description : Option String) :
    Work (Int × String × String) := do
  match description with
  | some text => if text == "" then pure () else agent.log "⚙️" text
  | none => pure ()
  match ← Work.command [command] agent.repository with
  | .finished code output errors _ => return (code, output, errors)
  | outcome => throw (.command outcome)

def findTool (agent : Agent) : Work (Option String) := do
  agent.log "🔍" "Verificando CodeWiki..."
  let (code, _, _) ← agent.execute "command -v codewiki" none
  let script := Path.below agent.repository "codewiki.py"
  let reference := Path.below (Path.below (Path.parent agent.repository) "CodeWiki") "main.py"
  if code == 0 then
    agent.log "✅" "✓ CodeWiki comando global encontrado"
    return some "codewiki"
  else if (← Work.disk).exists? script then
    agent.log "✅" "✓ CodeWiki local encontrado"
    return some ("python3 " ++ script)
  else if (← Work.disk).exists? reference then
    agent.log "✅" "✓ CodeWiki reference encontrado"
    return some ("python3 " ++ reference)
  else
    agent.log "❌" "✗ CodeWiki não encontrado"
    return none

def install (agent : Agent) : Work String := do
  agent.log "📦" "Instalando CodeWiki..."
  let folder := Path.below agent.repository ".codewiki-temp"
  Work.makeDirectories folder
  let (code, _, errors) ← agent.execute
    "git clone https://github.com/FSoft-AI4Code/CodeWiki.git .codewiki-temp/CodeWiki"
    (some "Clonando repositório...")
  if code ≠ 0 then
    agent.log "❌" ("Erro ao clonar: " ++ errors)
    throw (.command (.broken "Falha ao instalar CodeWiki"))
  let needs := Path.below (Path.below folder "CodeWiki") "requirements.txt"
  if (← Work.disk).exists? needs then
    let _ ← agent.execute ("pip install -r " ++ needs) (some "Instalando dependências...")
  agent.log "✅" "✓ CodeWiki instalado com sucesso"
  return "python3 " ++ folder ++ "/CodeWiki/main.py"

/-- Has the code base analyzed by the tool; gives the files of the analysis. -/
def analyze (agent : Agent) (tool : String) : Work (String × String) := do
  agent.log "🔍" "Executando análise do código..."
  let folder := Path.below agent.repository ".codewiki"
  Work.makeDirectories folder
  let (code, _, errors) ← agent.execute
    (tool ++ " analyze " ++ agent.repository ++ " --output " ++ folder)
    (some "Analisando repositório (isso pode levar alguns minutos)...")
  if code ≠ 0 then
    agent.log "❌" ("Erro na análise: " ++ errors)
    throw (.command (.broken "Falha na análise do código"))
  let tree := Path.below folder AnalysisFiles.treeName
  let graph := Path.below folder AnalysisFiles.graphName
  let disk ← Work.disk
  if !(disk.exists? tree && disk.exists? graph) then
    agent.log "❌" "Arquivos de análise não foram gerados"
    throw (.command (.broken "Análise não gerou arquivos esperados"))
  agent.log "✅" "✓ Análise concluída com sucesso"
  return (tree, graph)

/-! ## The wiki -/

def layout : Json.Layout := ⟨some 2, false⟩

def generate (agent : Agent) (tree graph : Json) : Work Unit := do
  agent.log "📝" "Iniciando geração de documentação..."
  let folder := Path.below agent.repository ".codewiki"
  let treePath := Path.below folder AnalysisFiles.treeName
  let graphPath := Path.below folder AnalysisFiles.graphName
  Work.writeJson treePath layout tree
  Work.writeJson graphPath layout graph
  let catalog ← Work.ofExcept
    (Catalog.ofJson (← Work.readJson treePath) (← Work.readJson graphPath))
  prepare .illustrated agent.docs
  let _ ← Wiki.generate .illustrated catalog agent.docs
  agent.log "✅" "✓ Documentação gerada com sucesso"

def validate (agent : Agent) : Work Bool := do
  agent.log "🔍" "Validando documentação..."
  let disk ← Work.disk
  let missing := (["README.md", "INDEX.md"].map (Path.below agent.docs)).filter
    fun page => !disk.exists? page
  if missing.isEmpty then
    agent.log "✅" "✓ Documentação validada"
    return true
  else
    agent.log "⚠️" ("Arquivos faltando: " ++ Text.join ", " missing)
    return false

def pages (disk : Disk) (docs : String) : Except Fault (List (String × Nat)) :=
  ((disk.below docs).filter fun (path, _) => Text.endsWith path ".md").mapM fun (path, _) => do
    return (path, (← disk.need (Path.below docs path)).size)

def report (agent : Agent) : Work Unit := do
  agent.log "" ("\n" ++ banner)
  agent.log "📊" "RELATÓRIO DE GERAÇÃO DE DOCUMENTAÇÃO"
  agent.log "" banner
  let disk ← Work.disk
  let docs := Path.clean agent.docs
  if disk.exists? agent.docs then
    let pages ← Work.ofExcept (pages disk agent.docs)
    let size := (pages.map Prod.snd).foldl (· + ·) 0
    agent.log "" ("\n📦 Resumo:\n   • Arquivos Markdown: " ++ Decimal.natText pages.length ++
      "\n   • Tamanho total: " ++ Decimal.fixedText 1 (size.toFloat / 1024) ++
      " KB\n   • Localização: " ++ docs ++
      "\n\n📖 Começar por:\n   • Visão geral: " ++ Path.below docs "README.md" ++
      "\n   • Navegação: " ++ Path.below docs "INDEX.md" ++
      "\n\n💡 Próximos passos:\n   1. Revisar documentação gerada\n" ++
      "   2. Personalizar conforme necessário\n   3. Commitar para o repositório: " ++
      "git add docs/ && git commit -m \"docs: Add documentation\"\n            ")
  agent.log "" banner

def obtain (agent : Agent) : Work (String × String) := do
  match ← agent.find with
  | some files => return files
  | none =>
    agent.log "" "\n2️⃣ FASE 2: Análise do Código"
    match ← agent.findTool with
    | some tool => agent.analyze tool
    | none => agent.analyze (← agent.install)

def phases (agent : Agent) : Work Nat := do
  agent.log "" "🚀 CodeWiki Documentation Agent"
  agent.log "" banner
  agent.log "" "\n1️⃣ FASE 1: Verificação"
  let (treePath, graphPath) ← agent.obtain
  agent.log "" "\n3️⃣ FASE 3: Análise Estrutural"
  let (tree, graph) ← agent.load treePath graphPath
  agent.log "" "\n4️⃣ FASE 4: Geração de Documentação"
  agent.generate tree graph
  agent.log "" "\n5️⃣ FASE 5: Validação"
  if ← agent.validate then
    agent.report
    return 0
  else
    agent.log "❌" "Falha na validação"
    return 1

def run (agent : Agent) : Work Nat :=
  tryCatch agent.phases fun problem => do
    agent.log "" ("\n❌ ERRO: " ++ problem.message)
    agent.log "" "\nPara diagnóstico, execute com --debug"
    return 1

end Agent

end CodeAtlas.Wiki
