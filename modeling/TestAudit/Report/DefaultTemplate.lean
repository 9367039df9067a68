import TestAudit.Text.Basic

namespace TestAudit.Report

/-!
# The default template

The template of reports for which the user names no other: a page that needs no
further files.
-/

/-- The lines that open the page. -/
def templateHead : List String :=
  [ "<!DOCTYPE html>",
    "<html lang=\"en\">",
    "<head>",
    "<meta charset=\"utf-8\">",
    "<meta name=\"viewport\" content=\"width=device-width, initial-scale=1\">",
    "<title>\x7b\x7bPROJECT_NAME\x7d\x7d - Test Evidence Report</title>",
    "<style>" ]

/-- The style rules for the page and its summary. -/
def templateLayout : List String :=
  [ "  :root \x7b",
    "    --bg: #0f1117;",
    "    --panel: #171a23;",
    "    --border: #2a2f3d;",
    "    --text: #e5e7eb;",
    "    --muted: #9ca3af;",
    "    --pass: #16a34a;",
    "    --fail: #dc2626;",
    "    --skip: #d97706;",
    "    --api: #2563eb;",
    "    --e2e: #7c3aed;",
    "  \x7d",
    "  * \x7b box-sizing: border-box; \x7d",
    "  body \x7b",
    "    margin: 0;",
    "    padding: 32px;",
    "    background: var(--bg);",
    "    color: var(--text);",
    "    font: 14px/1.5 -apple-system, BlinkMacSystemFont, \"Segoe UI\", Roboto, sans-serif;",
    "  \x7d",
    "  header \x7b margin-bottom: 24px; \x7d",
    "  h1 \x7b margin: 0 0 4px; font-size: 24px; \x7d",
    "  h2 \x7b margin: 32px 0 12px; font-size: 18px; border-bottom: 1px solid var(--border); padding-bottom: 6px; \x7d",
    "  .meta \x7b color: var(--muted); font-size: 13px; \x7d",
    "  .stats \x7b display: flex; gap: 12px; flex-wrap: wrap; margin: 16px 0; \x7d",
    "  .stat \x7b background: var(--panel); border: 1px solid var(--border); border-radius: 8px; padding: 12px 18px; min-width: 110px; \x7d",
    "  .stat .value \x7b font-size: 22px; font-weight: 600; \x7d",
    "  .stat .label \x7b color: var(--muted); font-size: 12px; text-transform: uppercase; letter-spacing: 0.5px; \x7d",
    "  .stat.pass .value \x7b color: var(--pass); \x7d",
    "  .stat.fail .value \x7b color: var(--fail); \x7d",
    "  .stat.skip .value \x7b color: var(--skip); \x7d",
    "  table \x7b width: 100%; border-collapse: collapse; background: var(--panel); border: 1px solid var(--border); \x7d",
    "  th, td \x7b padding: 8px 12px; text-align: left; border-bottom: 1px solid var(--border); \x7d",
    "  th \x7b color: var(--muted); font-size: 12px; text-transform: uppercase; letter-spacing: 0.5px; \x7d",
    "  .pass-badge, .fail-badge, .skip-badge, .api-badge, .e2e-badge \x7b",
    "    display: inline-block; padding: 1px 8px; border-radius: 10px; font-size: 11px; font-weight: 600; color: #fff;",
    "  \x7d" ]

/-- The style rules for the sections of the page. -/
def templateSections : List String :=
  [ "  .pass-badge \x7b background: var(--pass); \x7d",
    "  .fail-badge \x7b background: var(--fail); \x7d",
    "  .skip-badge \x7b background: var(--skip); \x7d",
    "  .api-badge \x7b background: var(--api); \x7d",
    "  .e2e-badge \x7b background: var(--e2e); \x7d",
    "  .ac-section \x7b background: var(--panel); border: 1px solid var(--border); border-radius: 8px; margin-bottom: 12px; \x7d",
    "  .ac-section[data-status=\"fail\"] \x7b border-left: 4px solid var(--fail); \x7d",
    "  .ac-section[data-status=\"pass\"] \x7b border-left: 4px solid var(--pass); \x7d",
    "  .ac-section summary \x7b cursor: pointer; padding: 12px 16px; display: flex; justify-content: space-between; gap: 12px; \x7d",
    "  .ac-title \x7b font-weight: 600; \x7d",
    "  .ac-stats \x7b display: flex; gap: 10px; align-items: center; color: var(--muted); font-size: 12px; \x7d",
    "  .ac-content \x7b padding: 0 16px 16px; \x7d",
    "  .test-card \x7b border: 1px solid var(--border); border-radius: 6px; padding: 10px 12px; margin-top: 10px; \x7d",
    "  .test-card.flaky \x7b border-style: dashed; \x7d",
    "  .test-card-header \x7b display: flex; gap: 8px; align-items: center; flex-wrap: wrap; \x7d",
    "  .test-name \x7b font-weight: 500; \x7d",
    "  .test-meta \x7b margin-left: auto; color: var(--muted); font-size: 12px; \x7d",
    "  .log-block \x7b",
    "    margin-top: 8px; padding: 8px 10px; background: #0b0d12; border-radius: 4px;",
    "    font: 12px/1.4 ui-monospace, SFMono-Regular, Menlo, monospace; white-space: pre-wrap; overflow-x: auto;",
    "  \x7d",
    "  .error-block \x7b color: #fca5a5; border-left: 3px solid var(--fail); \x7d",
    "  .evidence-heading \x7b margin: 16px 0 8px; font-size: 13px; color: var(--muted); text-transform: uppercase; letter-spacing: 0.5px; \x7d",
    "  .screenshot-grid \x7b display: grid; grid-template-columns: repeat(auto-fill, minmax(220px, 1fr)); gap: 12px; \x7d",
    "  .screenshot-item img \x7b width: 100%; border: 1px solid var(--border); border-radius: 4px; cursor: zoom-in; \x7d",
    "  .screenshot-item .caption \x7b color: var(--muted); font-size: 12px; margin-top: 4px; \x7d",
    "  .gap-warning \x7b background: #2a1a0a; border: 1px solid var(--skip); border-radius: 6px; padding: 10px 12px; margin-bottom: 8px; \x7d",
    "  .gap-ok \x7b color: var(--pass); \x7d",
    "  .review-summary \x7b margin-top: 16px; \x7d",
    "  #lightbox \x7b",
    "    display: none; position: fixed; inset: 0; background: rgba(0, 0, 0, 0.85);",
    "    align-items: center; justify-content: center; flex-direction: column; z-index: 100; cursor: zoom-out;",
    "  \x7d",
    "  #lightbox.open \x7b display: flex; \x7d",
    "  #lightbox img \x7b max-width: 92vw; max-height: 85vh; border-radius: 4px; \x7d",
    "  #lightbox .caption \x7b margin-top: 10px; color: var(--text); \x7d",
    "  footer \x7b margin-top: 40px; color: var(--muted); font-size: 12px; \x7d" ]

/-- The lines of the page itself. -/
def templateBody : List String :=
  [ "</style>",
    "</head>",
    "<body>",
    "<header>",
    "  <h1>\x7b\x7bPROJECT_NAME\x7d\x7d</h1>",
    "  <div class=\"meta\">Test evidence report &middot; generated \x7b\x7bTIMESTAMP\x7d\x7d &middot; duration \x7b\x7bDURATION\x7d\x7d</div>",
    "</header>",
    "",
    "<section class=\"stats\">",
    "  <div class=\"stat\"><div class=\"value\">\x7b\x7bTOTAL\x7d\x7d</div><div class=\"label\">Total</div></div>",
    "  <div class=\"stat pass\"><div class=\"value\">\x7b\x7bPASSED\x7d\x7d</div><div class=\"label\">Passed</div></div>",
    "  <div class=\"stat fail\"><div class=\"value\">\x7b\x7bFAILED\x7d\x7d</div><div class=\"label\">Failed</div></div>",
    "  <div class=\"stat skip\"><div class=\"value\">\x7b\x7bSKIPPED\x7d\x7d</div><div class=\"label\">Skipped</div></div>",
    "</section>",
    "",
    "<h2>Acceptance Criteria Traceability</h2>",
    "<table class=\"ac-matrix\">",
    "  <thead>",
    "    <tr><th>AC</th><th>Description</th><th>Tests</th><th>Pass</th><th>Fail</th><th>Status</th></tr>",
    "  </thead>",
    "  <tbody>",
    "<!-- \x7b\x7bAC_ROWS\x7d\x7d -->",
    "  </tbody>",
    "</table>",
    "",
    "<h2>Acceptance Criteria Detail</h2>",
    "<!-- \x7b\x7bAC_DETAIL_SECTIONS\x7d\x7d -->",
    "",
    "<h2>Coverage Gaps</h2>",
    "<!-- \x7b\x7bGAPS\x7d\x7d -->",
    "",
    "<!-- \x7b\x7bSECURITY_ROWS\x7d\x7d -->",
    "",
    "<h2>Review Summary</h2>",
    "<!-- \x7b\x7bREVIEW_SUMMARY\x7d\x7d -->",
    "",
    "<footer>Generated by testwarden &middot; \x7b\x7bTIMESTAMP\x7d\x7d</footer>",
    "",
    "<div id=\"lightbox\" onclick=\"closeLightbox()\">",
    "  <img id=\"lightbox-img\" src=\"\" alt=\"\">",
    "  <div class=\"caption\" id=\"lightbox-caption\"></div>",
    "</div>",
    "",
    "<script>" ]

/-- The script that shows an image in full. -/
def templateScript : List String :=
  [ "  function openLightbox(src, caption) \x7b",
    "    document.getElementById('lightbox-img').src = src;",
    "    document.getElementById('lightbox-img').alt = caption;",
    "    document.getElementById('lightbox-caption').textContent = caption;",
    "    document.getElementById('lightbox').classList.add('open');",
    "  \x7d",
    "  function closeLightbox() \x7b",
    "    document.getElementById('lightbox').classList.remove('open');",
    "  \x7d",
    "  document.addEventListener('keydown', function (e) \x7b",
    "    if (e.key === 'Escape') closeLightbox();",
    "  \x7d);" ]

/-- The lines that close the page. -/
def templateEnd : List String :=
  [ "</script>",
    "</body>",
    "</html>" ]

/-- The template of reports for which the user names no other. -/
def defaultTemplate : Text :=
  (templateHead ++ templateLayout ++ templateSections ++ templateBody ++ templateScript ++
    templateEnd).flatMap fun line => line.toList ++ ['\n']

end TestAudit.Report
