import CodeAtlas.Markup.Style

/-!
The styles and scripts of the home page and of the pages that show a document.
-/

namespace CodeAtlas.Server.Page

open Markup

def homeStyle : List String := Text.indented 8 (sheet [
  rule ":root" (palette ++ ["--success-color: #10b981; --warning-color: #f59e0b",
    "--error-color: #ef4444"]),
  noSpacing,
  rule "body" (plainText ++ ["background: linear-gradient(135deg, #667eea 0%, #764ba2 100%)",
    "min-height: 100vh; padding: 20px"]),
  rule ".container" ["max-width: 800px; margin: 0 auto; background: white; border-radius: 16px",
    "box-shadow: 0 20px 25px -5px rgba(0, 0, 0, 0.1); overflow: hidden"],
  rule ".header" ["background: var(--primary-color); color: white; padding: 2rem",
    "text-align: center"],
  rule ".header h1" ["font-size: 2.5rem; margin-bottom: 0.5rem; font-weight: 700"],
  rule ".header p" ["font-size: 1.1rem; opacity: 0.9"],
  rule ".content" ["padding: 2rem"],
  rule ".form-group" ["margin-bottom: 1.5rem"],
  rule ".form-group label" ["display: block; margin-bottom: 0.5rem; font-weight: 600",
    "color: var(--text-color)"],
  rule ".form-group input" ["width: 100%; padding: 0.75rem 1rem",
    "border: 2px solid var(--border-color); border-radius: 8px; font-size: 1rem",
    "transition: border-color 0.2s ease"],
  rule ".form-group input:focus" ["outline: none; border-color: var(--primary-color)"],
  rule ".btn" ["display: inline-block; padding: 0.75rem 2rem; background: var(--primary-color)",
    "color: white; text-decoration: none; border: none; border-radius: 8px; cursor: pointer",
    "font-size: 1rem; font-weight: 600; transition: all 0.2s ease"],
  rule ".btn:hover" ["background: #1d4ed8; transform: translateY(-1px)"],
  rule ".btn:disabled" ["background: #94a3b8; cursor: not-allowed; transform: none"],
  rule ".alert" ["padding: 1rem; border-radius: 8px; margin-bottom: 1rem"],
  rule ".alert-success" ["background: #dcfce7; color: #166534; border: 1px solid #bbf7d0"],
  rule ".alert-error" ["background: #fef2f2; color: #991b1b; border: 1px solid #fecaca"],
  rule ".recent-jobs" ["margin-top: 2rem; border-top: 1px solid var(--border-color)",
    "padding-top: 2rem"],
  rule ".job-item" ["background: var(--secondary-color); padding: 1rem; border-radius: 8px",
    "margin-bottom: 1rem"],
  rule ".job-header" ["display: flex; justify-content: space-between; align-items: center",
    "margin-bottom: 0.5rem"],
  rule ".job-url" ["font-weight: 600; color: var(--primary-color)"],
  rule ".job-status" ["padding: 0.25rem 0.75rem; border-radius: 16px; font-size: 0.875rem",
    "font-weight: 600"],
  rule ".status-queued" ["background: #fef3c7; color: #92400e"],
  rule ".status-processing" ["background: #dbeafe; color: #1e40af"],
  rule ".status-completed" ["background: #dcfce7; color: #166534"],
  rule ".status-failed" ["background: #fef2f2; color: #991b1b"],
  rule ".job-progress" ["font-size: 0.875rem; color: #64748b; margin-top: 0.25rem"],
  rule ".job-actions" ["margin-top: 0.5rem"],
  rule ".btn-small" ["padding: 0.5rem 1rem; font-size: 0.875rem"]])

def homeScript : List String := Text.indented 8 [
  "// Form submission protection",
  "let isSubmitting = false;",
  "",
  "document.addEventListener('DOMContentLoaded', function() \x7b",
  "    const form = document.querySelector('form');",
  "    const submitButton = document.querySelector('button[type=\"submit\"]');",
  "    ",
  "    if (form && submitButton) \x7b",
  "        form.addEventListener('submit', function(e) \x7b",
  "            if (isSubmitting) \x7b",
  "                e.preventDefault();",
  "                return false;",
  "            \x7d",
  "            ",
  "            isSubmitting = true;",
  "            submitButton.disabled = true;",
  "            submitButton.textContent = 'Processing...';",
  "            ",
  "            // Re-enable after 10 seconds as a failsafe",
  "            setTimeout(function() \x7b",
  "                isSubmitting = false;",
  "                submitButton.disabled = false;",
  "                submitButton.textContent = 'Generate Documentation';",
  "            \x7d, 10000);",
  "        \x7d);",
  "    \x7d",
  "    ",
  "    // Optional: Add manual refresh button instead of auto-refresh",
  "    const refreshButton = document.createElement('button');",
  "    refreshButton.textContent = 'Refresh Status';",
  "    refreshButton.className = 'btn btn-small';",
  "    refreshButton.style.marginTop = '1rem';",
  "    refreshButton.onclick = function() \x7b",
  "        window.location.reload();",
  "    \x7d;",
  "    ",
  "    const recentJobsSection = document.querySelector('.recent-jobs');",
  "    if (recentJobsSection) \x7b",
  "        recentJobsSection.appendChild(refreshButton);",
  "    \x7d",
  "\x7d);"]

def documentStyle : List String := Text.indented 8 (sheet (
  rule ":root" (palette ++ ["--hover-color: #f8fafc"]) :: besideBar "300px" ++ [
  rule ".logo" ["font-size: 24px; font-weight: bold; color: var(--primary-color)",
    "margin-bottom: 30px; text-decoration: none"],
  rule ".nav-section" ["margin-bottom: 25px"],
  rule ".nav-section h3" ["font-size: 14px; font-weight: 600; color: #64748b",
    "text-transform: uppercase; letter-spacing: 0.05em; margin-bottom: 10px"],
  rule ".nav-item" ["display: block; padding: 8px 12px; color: var(--text-color)",
    "text-decoration: none; border-radius: 6px; font-size: 14px; transition: all 0.2s ease",
    "margin-bottom: 2px"],
  rule ".nav-item:hover" ["background-color: var(--hover-color); color: var(--primary-color)"],
  activeItem,
  rule ".nav-subsection" ["margin-left: 15px; margin-top: 8px"],
  rule ".nav-subsection .nav-item" ["font-size: 13px; color: #64748b"],
  rule ".nav-section-header" ["font-size: 14px; font-weight: 600; color: #64748b",
    "text-transform: uppercase; letter-spacing: 0.05em; margin-bottom: 10px; padding: 8px 12px"],
  "/* Nested subsection indentation - scalable for any depth */" ::
    rule ".nav-subsection .nav-subsection" ["margin-left: 20px"],
  rule ".nav-subsection .nav-subsection .nav-item" ["font-size: 12px"],
  "/* Additional nesting levels */" ::
    rule ".nav-subsection .nav-subsection .nav-subsection" ["margin-left: 15px"],
  rule ".nav-subsection .nav-subsection .nav-subsection .nav-item" ["font-size: 11px"],
  rule ".markdown-content" ["max-width: none"],
  contentTitle,
  content "h2" ["font-size: 2rem; font-weight: 600; color: #334155",
    "margin-top: 2rem; margin-bottom: 1rem"],
  content "h3" ["font-size: 1.5rem; font-weight: 600; color: #475569",
    "margin-top: 1.5rem; margin-bottom: 0.75rem"]] ++
  contentText "1.5rem" ++ [
  content "code" ["background-color: #f1f5f9; padding: 0.25rem 0.5rem",
    "border-radius: 0.25rem; font-family: 'Fira Code', 'Consolas', monospace; font-size: 0.875rem"],
  content "pre" ["background-color: #f8fafc; border: 1px solid var(--border-color)",
    "border-radius: 0.5rem; padding: 1rem; overflow-x: auto; margin-bottom: 1rem"],
  content "pre code" ["background-color: transparent; padding: 0"],
  content "blockquote" ["border-left: 4px solid var(--primary-color)",
    "padding-left: 1rem; margin-bottom: 1rem; font-style: italic; color: #64748b"],
  content "table" ["width: 100%; border-collapse: collapse; margin-bottom: 1rem"],
  contentCells,
  content "th" ["background-color: var(--secondary-color); font-weight: 600"],
  content "a" ["color: var(--primary-color); text-decoration: underline"],
  content "a:hover" ["text-decoration: none"],
  belowBar "768px" []]))

def documentScript : List String := Text.indented 8 ([
  "// Initialize mermaid with configuration",
  "mermaid.initialize(\x7b",
  "    startOnLoad: true,"] ++ diagramColors ++ [
  "        sectionBkgColor: '#f8fafc',",
  "        altSectionBkgColor: '#f1f5f9',",
  "        gridColor: '#e2e8f0',",
  "        secondaryColor: '#f1f5f9',",
  "        tertiaryColor: '#f8fafc'",
  "    \x7d,",
  "    flowchart: \x7b",
  "        htmlLabels: true,",
  "        curve: 'basis'",
  "    \x7d,",
  "    sequence: \x7b",
  "        diagramMarginX: 50,",
  "        diagramMarginY: 10,",
  "        actorMargin: 50,",
  "        width: 150,",
  "        height: 65,",
  "        boxMargin: 10,",
  "        boxTextMargin: 5,",
  "        noteMargin: 10,",
  "        messageMargin: 35,",
  "        mirrorActors: true,",
  "        bottomMarginAdj: 1,",
  "        useMaxWidth: true,",
  "        rightAngles: false,",
  "        showSequenceNumbers: false",
  "    \x7d",
  "\x7d);",
  "",
  "// Re-render mermaid diagrams after page load",
  "document.addEventListener('DOMContentLoaded', function() \x7b",
  "    mermaid.init(undefined, document.querySelectorAll('.mermaid'));",
  "\x7d);"])

end CodeAtlas.Server.Page
