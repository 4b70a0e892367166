import CodeAtlas.Markup.Style

/-!
The template of the page that shows a documentation: a list of modules at the side and the chosen
document beside it. The marks in double braces are replaced.
-/

namespace CodeAtlas.Site

open Markup

def templateHead : List String := opening ++ [
  "    <title>\x7b\x7bTITLE\x7d\x7d</title>",
  diagramSource,
  "    <script src=\"https://cdn.jsdelivr.net/npm/marked@11.0.0/marked.min.js\"></script>",
  "    <style>"]

def templateStyle : List String := Text.indented 8 (sheet (
  rule ":root" (palette ++ ["--hover-color: #f8fafc; --code-bg: #f8fafc"]) ::
  besideBar "320px" ++ [
  rule ".logo" ["font-size: 20px; font-weight: bold; color: var(--primary-color)",
    "margin-bottom: 15px; display: flex; align-items: center; gap: 8px"],
  rule ".repo-link" ["display: inline-flex; align-items: center; gap: 6px; padding: 8px 16px",
    "background: white; color: var(--primary-color); text-decoration: none; border-radius: 8px",
    "font-size: 14px; font-weight: 500; transition: all 0.2s; margin-bottom: 20px",
    "border: 1px solid var(--border-color)"],
  rule ".repo-link:hover" ["background: var(--hover-color); border-color: var(--primary-color)"],
  rule ".repo-info" ["margin: 20px 0; padding: 15px; background: #f8fafc; border-radius: 8px",
    "border: 1px solid var(--border-color)"],
  rule ".repo-info h4" ["margin: 0 0 10px 0; font-size: 12px; color: #64748b",
    "text-transform: uppercase; letter-spacing: 0.05em"],
  rule ".info-row" ["font-size: 11px; color: #475569; line-height: 1.6; margin-bottom: 4px"],
  rule ".info-row strong" ["font-weight: 600; min-width: 80px; display: inline-block"],
  rule ".nav-section" ["margin-bottom: 20px"],
  rule ".nav-section h3" ["font-size: 12px; font-weight: 600; color: #64748b",
    "text-transform: uppercase; letter-spacing: 0.05em; margin-bottom: 8px; padding: 8px 12px"],
  rule ".nav-item" ["display: block; padding: 10px 12px; color: var(--text-color)",
    "text-decoration: none; border-radius: 6px; font-size: 14px; transition: all 0.2s ease",
    "margin-bottom: 2px; cursor: pointer"],
  rule ".nav-item:hover" ["background-color: white; color: var(--primary-color)"],
  activeItem,
  rule ".nav-subsection" ["margin-left: 15px; margin-top: 5px"],
  rule ".nav-subsection .nav-item" ["font-size: 13px; padding: 8px 12px"],
  rule ".nav-subsection .nav-subsection" ["margin-left: 20px"],
  rule ".nav-subsection .nav-subsection .nav-item" ["font-size: 12px; padding: 6px 10px"],
  rule ".markdown-content" ["max-width: 100%; animation: fadeIn 0.3s ease-in"],
  block "@keyframes fadeIn" [
    "from \x7b opacity: 0; transform: translateY(10px); \x7d",
    "to \x7b opacity: 1; transform: translateY(0); \x7d"],
  contentTitle,
  content "h2" ["font-size: 2rem; font-weight: 600; color: #334155",
    "margin-top: 2.5rem; margin-bottom: 1rem; padding-top: 1rem",
    "border-top: 1px solid var(--border-color)"],
  content "h3" ["font-size: 1.5rem; font-weight: 600; color: #475569",
    "margin-top: 2rem; margin-bottom: 0.75rem"],
  content "h4" ["font-size: 1.25rem; font-weight: 600; color: #475569",
    "margin-top: 1.5rem; margin-bottom: 0.5rem"]] ++
  contentText "2rem" ++ [
  content "code" ["background-color: var(--code-bg); padding: 0.2em 0.4em",
    "border-radius: 0.25rem; font-family: 'Fira Code', 'Consolas', 'Monaco', monospace",
    "font-size: 0.9em; color: #e11d48"],
  content "pre" ["background-color: var(--code-bg)",
    "border: 1px solid var(--border-color); border-radius: 0.5rem; padding: 1.25rem",
    "overflow-x: auto; margin-bottom: 1.5rem; line-height: 1.5"],
  content "pre code" ["background-color: transparent; padding: 0",
    "color: var(--text-color); font-size: 0.875rem"],
  content "blockquote" ["border-left: 4px solid var(--primary-color)",
    "padding-left: 1rem; margin: 1.5rem 0; font-style: italic; color: #64748b",
    "background: var(--hover-color); padding: 1rem 1rem 1rem 1.5rem",
    "border-radius: 0 0.5rem 0.5rem 0"],
  content "table" ["width: 100%; border-collapse: collapse; margin-bottom: 1.5rem",
    "font-size: 0.9rem"],
  contentCells,
  content "th" ["background-color: var(--secondary-color); font-weight: 600",
    "color: var(--text-color)"],
  content "tr:hover" ["background-color: var(--hover-color)"],
  content "a" ["color: var(--primary-color); text-decoration: none",
    "border-bottom: 1px solid transparent; transition: border-color 0.2s"],
  content "a:hover" ["border-bottom-color: var(--primary-color)"],
  content "img" ["max-width: 100%; height: auto; border-radius: 0.5rem",
    "margin: 1rem 0"],
  rule ".mermaid" ["margin: 2rem 0; padding: 1.5rem; background: white",
    "border: 1px solid var(--border-color); border-radius: 0.5rem; overflow-x: auto"],
  rule ".loading" ["display: flex; flex-direction: column; align-items: center",
    "justify-content: center; min-height: 400px; color: #64748b"],
  rule ".loading-spinner" ["width: 50px; height: 50px; border: 4px solid var(--secondary-color)",
    "border-top-color: var(--primary-color); border-radius: 50%",
    "animation: spin 1s linear infinite; margin-bottom: 1rem"],
  block "@keyframes spin" ["to \x7b transform: rotate(360deg); \x7d"],
  rule ".error" ["padding: 2rem; background: #fef2f2; border: 1px solid #fecaca",
    "border-radius: 0.5rem; color: #991b1b; margin: 2rem 0"],
  rule ".error h3" ["margin-bottom: 0.5rem"],
  belowBar "1024px" ["border-right: none; border-bottom: 1px solid var(--border-color)"]]))

def templateBody : List String := [
  "    </style>",
  "</head>",
  "<body>",
  "    <div class=\"container\">",
  "        <nav class=\"sidebar\">",
  "            \x7b\x7bREPO_LINK\x7d\x7d",
  "            <div class=\"logo\">📚 \x7b\x7bTITLE\x7d\x7d</div>",
  "            ",
  "            <div class=\"repo-info\" id=\"repo-info\" style=\"display: \x7b\x7bSHOW_INFO\x7d\x7d;\">",
  "                <h4>Generation Info</h4>",
  "                <div id=\"info-content\">\x7b\x7bINFO_CONTENT\x7d\x7d</div>",
  "            </div>",
  "            ",
  "            <div class=\"nav-section\">",
  "                <div class=\"nav-item active\" data-file=\"overview.md\">",
  "                    📄 Overview",
  "                </div>",
  "            </div>",
  "            ",
  "            <div id=\"navigation\"></div>",
  "        </nav>",
  "        ",
  "        <main class=\"content\">",
  "            <div id=\"loading\" class=\"loading\">",
  "                <div class=\"loading-spinner\"></div>",
  "                <p>Loading documentation...</p>",
  "            </div>",
  "            ",
  "            <div id=\"content\" class=\"markdown-content\" style=\"display: none;\"></div>",
  "        </main>",
  "    </div>",
  "    ",
  "    <script>"]

def templateScript : List String := Text.indented 8 ([
  "// Embedded configuration",
  "const CONFIG = \x7b\x7bCONFIG_JSON\x7d\x7d;",
  "const MODULE_TREE = \x7b\x7bMODULE_TREE_JSON\x7d\x7d;",
  "const METADATA = \x7b\x7bMETADATA_JSON\x7d\x7d;",
  "const DOCS_BASE_PATH = '\x7b\x7bDOCS_BASE_PATH\x7d\x7d';",
  "",
  "// Initialize marked with options",
  "marked.setOptions(\x7b",
  "    breaks: true,",
  "    gfm: true,",
  "    headerIds: true,",
  "    mangle: false",
  "\x7d);",
  "",
  "// Initialize mermaid",
  "mermaid.initialize(\x7b",
  "    startOnLoad: false,"] ++ diagramColors ++ [
  "        secondaryColor: '#f1f5f9',",
  "        tertiaryColor: '#f8fafc'",
  "    \x7d,",
  "    flowchart: \x7b htmlLabels: true, curve: 'basis' \x7d,",
  "    sequence: \x7b mirrorActors: true, useMaxWidth: true \x7d",
  "\x7d);",
  "",
  "// Initialize on page load",
  "document.addEventListener('DOMContentLoaded', function() \x7b",
  "    if (MODULE_TREE) \x7b",
  "        buildNavigation();",
  "    \x7d",
  "    ",
  "    // Load overview by default",
  "    loadDocument('overview.md');",
  "\x7d);",
  "",
  "function buildNavigation() \x7b",
  "    const nav = document.getElementById('navigation');",
  "    let html = '';",
  "    ",
  "    for (const [key, data] of Object.entries(MODULE_TREE)) \x7b",
  "        html += buildNavItem(key, data, 0);",
  "    \x7d",
  "    ",
  "    nav.innerHTML = html;",
  "    ",
  "    // Add click handlers",
  "    document.querySelectorAll('.nav-item').forEach(item => \x7b",
  "        item.addEventListener('click', function(e) \x7b",
  "            e.preventDefault();",
  "            const file = this.getAttribute('data-file');",
  "            if (file) \x7b",
  "                loadDocument(file);",
  "                ",
  "                // Update active state",
  "                document.querySelectorAll('.nav-item').forEach(i => i.classList.remove('active'));",
  "                this.classList.add('active');",
  "            \x7d",
  "        \x7d);",
  "    \x7d);",
  "\x7d",
  "",
  "function buildNavItem(key, data, depth) \x7b",
  "    const indentClass = depth > 0 ? 'nav-subsection' : 'nav-section';",
  "    const fileName = `$\x7bkey\x7d.md`;",
  "    ",
  "    let html = `<div class=\"$\x7bindentClass\x7d\">`;",
  "    ",
  "    if (data.components && data.components.length > 0) \x7b",
  "        html += `<div class=\"nav-item\" data-file=\"$\x7bfileName\x7d\">",
  "            $\x7bformatNavTitle(key)\x7d",
  "        </div>`;",
  "    \x7d else if (depth === 0) \x7b",
  "        html += `<h3>$\x7bformatNavTitle(key)\x7d</h3>`;",
  "    \x7d else \x7b",
  "        html += `<div class=\"nav-item\" data-file=\"$\x7bfileName\x7d\">",
  "            $\x7bformatNavTitle(key)\x7d",
  "        </div>`;",
  "    \x7d",
  "    ",
  "    if (data.children) \x7b",
  "        for (const [childKey, childData] of Object.entries(data.children)) \x7b",
  "            html += buildNavItem(childKey, childData, depth + 1);",
  "        \x7d",
  "    \x7d",
  "    ",
  "    html += '</div>';",
  "    return html;",
  "\x7d",
  "",
  "function formatNavTitle(key) \x7b",
  "    return key",
  "        .replace(/_/g, ' ')",
  "        .split(' ')",
  "        .map(word => word.charAt(0).toUpperCase() + word.slice(1))",
  "        .join(' ');",
  "\x7d",
  "",
  "async function loadDocument(filename) \x7b",
  "    const loading = document.getElementById('loading');",
  "    const content = document.getElementById('content');",
  "    ",
  "    loading.style.display = 'flex';",
  "    content.style.display = 'none';",
  "    ",
  "    try \x7b",
  "        const docPath = DOCS_BASE_PATH ? `$\x7bDOCS_BASE_PATH\x7d/$\x7bfilename\x7d` : filename;",
  "        const response = await fetch(docPath);",
  "        if (!response.ok) \x7b",
  "            throw new Error(`Failed to load $\x7bfilename\x7d`);",
  "        \x7d",
  "        ",
  "        const markdown = await response.text();",
  "        const html = await renderMarkdown(markdown);",
  "        ",
  "        content.innerHTML = html;",
  "        loading.style.display = 'none';",
  "        content.style.display = 'block';",
  "        ",
  "        // Render mermaid diagrams",
  "        await renderMermaidDiagrams();",
  "        ",
  "        // Add click handlers for internal markdown links",
  "        setupMarkdownLinks();",
  "        ",
  "        // Scroll to top",
  "        window.scrollTo(0, 0);",
  "        ",
  "    \x7d catch (error) \x7b",
  "        console.error('Error loading document:', error);",
  "        showError(`Failed to load document: $\x7bfilename\x7d`);",
  "    \x7d",
  "\x7d",
  "",
  "function setupMarkdownLinks() \x7b",
  "    // Use event delegation to intercept all link clicks in markdown content",
  "    const content = document.getElementById('content');",
  "    ",
  "    // Remove any existing listener to avoid duplicates",
  "    const oldListener = content._markdownLinkListener;",
  "    if (oldListener) \x7b",
  "        content.removeEventListener('click', oldListener);",
  "    \x7d",
  "    ",
  "    // Create new listener",
  "    const listener = function(e) \x7b",
  "        // Find the closest anchor tag",
  "        const link = e.target.closest('a');",
  "        if (!link) return;",
  "        ",
  "        const href = link.getAttribute('href');",
  "        if (!href) return;",
  "        ",
  "        // Check if it's a markdown file link (ends with .md or .MD)",
  "        // Also handle cases with anchors like \"file.md#section\"",
  "        const mdMatch = href.match(/([^\\/]*\\.md(?:#.*)?$)/i);",
  "        if (mdMatch) \x7b",
  "            e.preventDefault();",
  "            e.stopPropagation();",
  "            ",
  "            // Extract filename without anchor",
  "            const fullMatch = mdMatch[1];",
  "            const filename = fullMatch.split('#')[0];",
  "            ",
  "            // Load the document",
  "            loadDocument(filename);",
  "            ",
  "            // Update active state in sidebar",
  "            document.querySelectorAll('.nav-item').forEach(item => \x7b",
  "                if (item.getAttribute('data-file') === filename) \x7b",
  "                    document.querySelectorAll('.nav-item').forEach(i => i.classList.remove('active'));",
  "                    item.classList.add('active');",
  "                \x7d",
  "            \x7d);",
  "        \x7d",
  "    \x7d;",
  "    ",
  "    // Store listener reference for cleanup",
  "    content._markdownLinkListener = listener;",
  "    ",
  "    // Attach listener",
  "    content.addEventListener('click', listener);",
  "\x7d",
  "",
  "async function renderMarkdown(markdown) \x7b",
  "    // Convert markdown to HTML using marked",
  "    let html = marked.parse(markdown);",
  "    ",
  "    // Process mermaid code blocks",
  "    html = html.replace(",
  "        /<pre><code class=\"language-mermaid\">([\\s\\S]*?)<\\/code><\\/pre>/g,",
  "        (match, code) => \x7b",
  "            const decodedCode = code",
  "                .replace(/&lt;/g, '<')",
  "                .replace(/&gt;/g, '>')",
  "                .replace(/&amp;/g, '&')",
  "                .replace(/&quot;/g, '\"')",
  "                .replace(/&#39;/g, \"'\");",
  "            return `<div class=\"mermaid\">$\x7bdecodedCode\x7d</div>`;",
  "        \x7d",
  "    );",
  "    ",
  "    return html;",
  "\x7d",
  "",
  "async function renderMermaidDiagrams() \x7b",
  "    const mermaidElements = document.querySelectorAll('.mermaid');",
  "    ",
  "    for (let i = 0; i < mermaidElements.length; i++) \x7b",
  "        const element = mermaidElements[i];",
  "        const id = `mermaid-$\x7bDate.now()\x7d-$\x7bi\x7d`;",
  "        element.id = id;",
  "        ",
  "        try \x7b",
  "            const \x7b svg \x7d = await mermaid.render(id + '-svg', element.textContent);",
  "            element.innerHTML = svg;",
  "        \x7d catch (error) \x7b",
  "            console.error('Mermaid rendering error:', error);",
  "            element.innerHTML = `<pre>Error rendering diagram:\\n$\x7belement.textContent\x7d</pre>`;",
  "        \x7d",
  "    \x7d",
  "\x7d",
  "",
  "function showError(message) \x7b",
  "    const loading = document.getElementById('loading');",
  "    const content = document.getElementById('content');",
  "    ",
  "    loading.style.display = 'none';",
  "    content.style.display = 'block';",
  "    content.innerHTML = `",
  "        <div class=\"error\">",
  "            <h3>⚠️ Error</h3>",
  "            <p>$\x7bmessage\x7d</p>",
  "        </div>",
  "    `;",
  "\x7d"])

def templateEnd : List String := [
  "    </script>",
  "</body>",
  "</html>",
  "",
  ""]

def template : String :=
  String.intercalate "\n" (templateHead ++ templateStyle ++ templateBody ++ templateScript ++ templateEnd)

end CodeAtlas.Site
